import Rozi.Session.DeliveryPump

/-!
The order of the frames a client gets. Frames are dropped and replaced on the way, and a replacement
may overtake other replaceable frames of its pane; nothing overtakes an ordered frame, a resize or a
snapshot.
-/

namespace Rozi

open ConnOutbox

namespace DeliveryState

structure Sound (state : DeliveryState) : Prop where
  acc : state.conn.Accounted
  barrier : state.conn.BarrierSound
  orderly : state.conn.Orderly state.written state.pushed state.clock
  unattached : state.attached = false → state.conn.seed = none ∧ state.conn.resyncPending = [] ∧
    ∀ stamp ∈ state.pushed, stamp.pane = none

variable {state next : DeliveryState} {label : DeliveryLabel}

theorem carries_push (outbound : Outbound) {len : Nat} (media : List Nat)
    (scope : Option PresentationKey) (tick : Nat) (framed : 0 < len) :
    Orderly.Carries { content := outbound.stamp tick, len, media, scope } outbound.delta
      outbound.replacement where
  key := outbound.stamp_key tick
  delta := outbound.stamp_delta tick
  live := outbound.stamp_snapshot tick
  control := by cases outbound <;> simp [Outbound.stamp]
  framed := framed

theorem Sound.newest (sound : state.Sound) (outbound : Outbound) :
    Newest state.conn state.written (state.pushed ++ [outbound.stamp state.clock])
      (state.clock + 1) (outbound.stamp state.clock) where
  issued := fun _ => List.mem_append_right _ (List.mem_singleton_self _)
  past := by
    rw [Outbound.stamp_tick]
    exact Nat.lt_succ_self _
  newest := fun other member => by
    rw [Outbound.stamp_tick]
    exact sound.orderly.past other member
  last := fun other member => by
    rcases List.mem_append.mp member with old | new
    · rw [Outbound.stamp_tick]
      exact (sound.orderly.issued other old).le
    · rw [List.mem_singleton.mp new]
  only := fun other member together => by
    rcases List.mem_append.mp member with old | new
    · have earlier := sound.orderly.issued other old
      rw [together, Outbound.stamp_tick] at earlier
      exact absurd earlier (Nat.lt_irrefl _)
    · exact List.mem_singleton.mp new
  ahead := fun other member isSnapshot => by
    rcases List.mem_append.mp member with old | new
    · rw [Outbound.stamp_tick]
      exact sound.orderly.issued other old
    · rw [List.mem_singleton.mp new, Outbound.stamp_snapshot] at isSnapshot
      cases isSnapshot

/-- What is queued before a push is orderly among what was pushed with it. -/
theorem Sound.grown (sound : state.Sound) (outbound : Outbound) :
    state.conn.Orderly state.written (state.pushed ++ [outbound.stamp state.clock])
      (state.clock + 1) := by
  apply sound.orderly.grow (Nat.le_succ _)
  · intro stamp new
    rw [List.mem_singleton.mp new, Outbound.stamp_tick]
    exact ⟨Nat.le_refl _, Nat.lt_succ_self _⟩
  · intro stamp new
    rw [List.mem_singleton.mp new, Outbound.stamp_snapshot]

theorem Sound.later (sound : state.Sound) :
    state.conn.Orderly state.written state.pushed (state.clock + 1) := by
  have grown : state.conn.Orderly state.written (state.pushed ++ []) (state.clock + 1) :=
    sound.orderly.grow (Nat.le_succ _) (fun _ none => absurd none List.not_mem_nil)
      fun _ none => absurd none List.not_mem_nil
  rwa [List.append_nil] at grown

theorem Sound.unlaned (sound : state.Sound) (fresh : state.attached = false) :
    ∀ frame ∈ state.conn.outbox, frame.bytes.content.pane = none := by
  intro frame member
  by_contra laned
  have queued : frame.bytes.content ∈ state.written ++ state.conn.stamps :=
    List.mem_append_right _ (List.mem_append_left _ (List.mem_append_left _
      (List.mem_map_of_mem member)))
  have unlaned := (sound.unattached fresh).2.2
  exact laned (unlaned _ (sound.orderly.known _ queued laned))

theorem Sound.bare (sound : state.Sound) (fresh : state.attached = false) :
    ∀ frame ∈ state.conn.outbox, frame.pane = none := by
  intro frame member
  have unlaned := sound.unlaned fresh frame member
  rw [(sound.orderly.outbox frame member).pane]
  unfold Stamp.transcript
  split
  · rw [unlaned]
    rfl
  · rw [unlaned]
    rfl
  all_goals rfl

theorem nextExport_down {conn : ConnOutbox Stamp} (down : conn.barrier = none) :
    conn.nextExport = none := by
  simp only [nextExport, nextAttachSeedWork, down]

theorem Sound.pumpOrderly (sound : state.Sound) (remaining : Nat)
    {exported : Option ExportLengths} {status : Option Nat}
    (framed : ∀ lengths, exported = some lengths → ∀ len, lengths.reset = some len → 0 < len)
    (statusFramed : ∀ len, status = some len → 0 < len) :
    (state.conn.pumpWork (state.pumpInput remaining exported status)).Orderly state.written
      (state.pushed ++ state.exportStamps exported) (state.clock + 1) := by
  have statusTagged : ∀ frame, (state.pumpInput remaining exported status).statusFrame = some frame →
      frame.content = Outbound.control.stamp 0 ∧ 0 < frame.len := by
    intro frame encoded
    rcases Option.map_eq_some_iff.mp encoded with ⟨len, given, rfl⟩
    exact ⟨rfl, statusFramed len given⟩
  cases up : state.conn.barrier with
  | none =>
      have idle : state.conn.pumpWork (state.pumpInput remaining exported status) =
          state.conn := by
        unfold pumpWork
        rw [up]
      have begun : state.exportStamps exported = [] := by
        simp only [exportStamps, nextExport_down up]
      rw [idle, begun, List.append_nil]
      exact sound.later
  | some seed =>
      have outcome := pumpWork_outcome sound.acc.opened sound.acc.capped up
        (state.pumpInput remaining exported status)
      cases begins : state.conn.nextExport with
      | none =>
          have begun : state.exportStamps exported = [] := by simp only [exportStamps, begins]
          rw [begins] at outcome
          rw [begun, List.append_nil]
          exact sound.later.pumped (Nat.succ_pos _) up statusTagged outcome
      | some key =>
          rw [begins] at outcome
          generalize result : state.conn.pumpWork (state.pumpInput remaining exported status) =
            next at outcome
          cases outcome with
          | began idle pending =>
              cases exported with
              | none =>
                  have gone : (state.pumpInput remaining none status).snapshot = none := by
                    simp only [pumpInput, exportOf, begins]
                  have begun : state.exportStamps none = [] := by
                    simp only [exportStamps, begins]
                  rw [gone, begun, List.append_nil]
                  exact sound.later.beginGone up
              | some lengths =>
                  have taken : (state.pumpInput remaining (some lengths) status).snapshot =
                      some (lengths.snapshot state.clock key) := by
                    simp only [pumpInput, exportOf, begins]
                  have begun : state.exportStamps (some lengths) =
                      lengths.stamps state.clock key := by
                    simp only [exportStamps, begins]
                  rw [taken, begun]
                  exact sound.orderly.beginExported sound.barrier up idle pending
                    fun len given => framed lengths rfl len given

theorem pushDelta_bare {conn : ConnOutbox Stamp} (opened : conn.transportClosed = false)
    (free : conn.seed = none) (bare : ∀ frame ∈ conn.outbox, frame.pane = none)
    (bytes : EncodedOutput Stamp) (mediaWithinBudget : Bool) :
    (conn.pushDelta bytes .control maxBacklog none mediaWithinBudget).1.seed = none ∧
      (conn.pushDelta bytes .control maxBacklog none mediaWithinBudget).1.resyncPending =
        conn.resyncPending := by
  have down : conn.barrier = none := barrier_eq_none.mpr fun seed present => by
    rw [free] at present
    cases present
  have victimless : conn.largestOutboxPane = none := by
    cases chosen : conn.largestOutboxPane with
    | none => rfl
    | some victim =>
        rcases (largestSheddable_spec chosen).2 with ⟨_, tagged, _⟩
        rcases List.mem_filterMap.mp tagged with ⟨frame, member, tag⟩
        simp [bare frame (mem_of_sheddable member)] at tag
  rw [pushDelta_fst]
  unfold pushDeltaInner
  rw [opened, if_neg (by simp), down]
  simp only [pushLive, SeedDelta.outputPane, Option.any_none, Bool.false_eq_true, if_false,
    replaceOutbox, Option.bind_none, pushLiveLoop]
  by_cases fits : conn.outboxBytes + bytes.len ≤ maxBacklog
  · rcases tryPushClass_of_fits opened fits .normal none with ⟨pushed, accepted⟩
    rw [if_pos fits, accepted, (tryPushClass_some opened accepted).2]
    exact ⟨free, rfl⟩
  · rw [if_neg fits, victimless]
    exact ⟨by simp [overflowing, free], rfl⟩

theorem Sound.step (sound : state.Sound) (moved : state.Step label next) : next.Sound := by
  have acc : next.conn.Accounted := by
    rcases moved.connection with ⟨own, connection⟩
    exact sound.acc.step connection
  cases moved with
  | attach statuses fresh distinct =>
      rcases sound.unattached fresh with ⟨free, clear, unlaned⟩
      exact
        { acc := acc
          barrier := sound.barrier.enqueueAttachSeeds statuses distinct clear
          orderly := sound.orderly.enqueueAttachSeeds free (sound.unlaned fresh) _ statuses
          unattached := fun still => by cases still }
  | @push outbound len media scope mediaWithinBudget addressed framed =>
      exact
        { acc := acc
          barrier := sound.barrier.pushDelta sound.acc _ _ _ mediaWithinBudget
          orderly := (sound.grown outbound).pushed_delta sound.barrier sound.acc
            (carries_push outbound media scope state.clock framed) (sound.newest outbound)
            mediaWithinBudget
          unattached := fun fresh => by
            rcases sound.unattached fresh with ⟨free, clear, unlaned⟩
            have control : outbound = .control := by
              rcases addressed with serving | control
              · rw [fresh] at serving
                cases serving
              · exact control
            subst control
            have result := pushDelta_bare sound.acc.opened free
              (fun frame member => sound.bare fresh frame member)
              { content := Outbound.control.stamp state.clock, len, media, scope }
              mediaWithinBudget
            refine ⟨result.1, result.2.trans clear, ?_⟩
            intro stamp member
            rcases List.mem_append.mp member with old | new
            · exact unlaned stamp old
            · rw [List.mem_singleton.mp new]
              rfl }
  | ping framed fits =>
      rcases tryPushClass_some sound.acc.opened fits with ⟨_, rfl⟩
      exact
        { acc := acc
          barrier := sound.barrier.congr rfl rfl
          orderly := sound.later.control rfl (Nat.succ_pos _) framed .normal
          unattached := sound.unattached }
  | startResync live serving =>
      exact
        { acc := acc
          barrier := sound.barrier.startClientResync live
          orderly := sound.orderly.startClientResync live
          unattached := fun fresh => by
            rw [show state.attached = false from fresh] at serving
            cases serving }
  | @pump remaining exported status framed statusFramed =>
      exact
        { acc := acc
          barrier := sound.barrier.pumpWork sound.acc _
          orderly := sound.pumpOrderly remaining framed statusFramed
          unattached := fun fresh => by
            rcases sound.unattached fresh with ⟨free, clear, unlaned⟩
            have down : state.conn.barrier = none := barrier_eq_none.mpr fun seed present => by
              rw [free] at present
              cases present
            have idle : state.conn.pumpWork (state.pumpInput remaining exported status) =
                state.conn := by
              unfold pumpWork
              rw [down]
            have begun : state.exportStamps exported = [] := by
              simp only [exportStamps, nextExport_down down]
            simp only [idle, begun, List.append_nil]
            exact ⟨free, clear, unlaned⟩ }
  | flush queued room wrote =>
      have outcome := flushFront_outcome queued wrote
      exact
        { acc := acc
          barrier := sound.barrier.flushed outcome
          orderly := sound.orderly.flushed queued outcome
          unattached := fun fresh => by
            rcases sound.unattached fresh with ⟨free, clear, unlaned⟩
            cases outcome with
            | advanced _ _ => exact ⟨free, clear, unlaned⟩
            | popped _ _ _ => exact ⟨free, clear, unlaned⟩ }
  | takeCompleted completed =>
      exact
        { acc := acc
          barrier := sound.barrier.takeCompletedSeed completed
          orderly := sound.orderly.takeCompletedSeed completed
          unattached := fun fresh => by
            rcases sound.unattached fresh with ⟨free, _, _⟩
            rw [(takeCompletedSeed_some completed).1] at free
            cases free }

theorem sound_of_run (reached : deliveryRuns.Reachable state) : state.Sound := by
  apply reached.invariant
  · intro begun initially
    rw [show begun = {} from initially]
    exact
      { acc := .empty
        barrier := .empty
        orderly := .empty
        unattached := fun _ => ⟨rfl, rfl, fun _ none => absurd none List.not_mem_nil⟩ }
  · intro before label after sound moved
    exact sound.step moved

end DeliveryState

section committed

variable {ω : Type} {conn next : ConnOutbox ω} {front : OutboxFrame ω}

/-- The frame at the front is on its way: its first byte is written, or the number of its
acquisition is given out. -/
def ConnOutbox.Committed (conn : ConnOutbox ω) (front : OutboxFrame ω) : Prop :=
  conn.frontStarted = true ∧ ∃ rest, conn.outbox = front :: rest

namespace ConnOutbox.Committed

theorem append (committed : conn.Committed front) (offset : next.frontOffset = conn.frontOffset)
    {more : List (OutboxFrame ω)} (outbox : next.outbox = conn.outbox ++ more) :
    next.Committed front := by
  rcases committed with ⟨started, rest, queued⟩
  have still : next.outbox = front :: (rest ++ more) := by rw [outbox, queued, List.cons_append]
  exact ⟨(frontStarted_congr offset queued still).trans started, _, still⟩

theorem same (committed : conn.Committed front) (offset : next.frontOffset = conn.frontOffset)
    (outbox : next.outbox = conn.outbox) : next.Committed front :=
  committed.append offset (outbox.trans (List.append_nil _).symm)

theorem shedPane (committed : conn.Committed front) (key : PaneSeedKey) :
    (conn.shedPane key).Committed front := by
  rcases committed with ⟨started, rest, queued⟩
  have still : (conn.shedPane key).outbox = front :: rest.filter (conn.survivesPurge key) := by
    rw [shedPane_outbox, sheddable_started started queued]
    simp [pinnedOutbox, started, queued]
  have offset : (conn.shedPane key).frontOffset = conn.frontOffset := by
    cases up : conn.barrier with
    | none => rw [shedPane_live key up]; rfl
    | some seed => rw [shedPane_behind key up]; rfl
  exact ⟨(frontStarted_congr offset queued still).trans started, _, still⟩

theorem sheds (committed : conn.Committed front) {last : ConnOutbox ω}
    (sheds : Sheds conn last) : last.Committed front := by
  induction sheds with
  | refl => exact committed
  | shed key _ _ ih => exact ih (committed.shedPane key)

theorem replacedAt (committed : conn.Committed front) {position : Nat} {frame : OutboxFrame ω}
    (bytes : EncodedOutput ω) (unstarted : position ≠ 0 ∨ conn.frontStarted = false) :
    (conn.replacedAt position frame bytes).Committed front := by
  rcases committed with ⟨started, rest, queued⟩
  have behind : position ≠ 0 := by
    rcases unstarted with behind | fresh
    · exact behind
    · rw [started] at fresh
      cases fresh
  rcases Nat.exists_eq_succ_of_ne_zero behind with ⟨place, rfl⟩
  have still : (conn.replacedAt (place + 1) frame bytes).outbox =
      front :: rest.set place { frame with bytes } := by
    simp [ConnOutbox.replacedAt, queued]
  have same : (conn.replacedAt (place + 1) frame bytes).frontStarted = conn.frontStarted :=
    frontStarted_congr rfl queued still
  exact ⟨same.trans started, _, still⟩

theorem landed (committed : conn.Committed front) {bytes : EncodedOutput ω} {delta : SeedDelta}
    {replacement : Option ReplacementKey} {result : ConnOutbox ω × ClientFrameResult}
    (landing : Landing conn bytes delta replacement result) : result.1.Committed front := by
  cases landing with
  | precedes _ _ _ => exact committed
  | behind _ _ => exact committed.same rfl rfl
  | outdated _ _ _ => exact committed.same rfl rfl
  | replaced _ _ _ _ _ unstarted => exact committed.replacedAt bytes unstarted
  | queued _ _ => exact committed.append rfl rfl
  | starved _ _ _ => exact committed.same rfl rfl
  | shedSelf _ _ => exact (committed.shedPane _).same rfl rfl
  | overflowed _ => exact committed.same rfl rfl
  | replacedCatchUp _ _ _ _ _ => exact committed.same rfl rfl
  | appended _ _ _ => exact committed.same rfl rfl

theorem pumped (committed : conn.Committed front) {seed : AttachSeedState ω}
    {input : PumpInput ω} {begun : Option PaneSeedKey}
    (outcome : PumpOutcome conn seed input begun next) : next.Committed front := by
  cases outcome with
  | idle => exact committed
  | statusDone => exact committed.same rfl rfl
  | statusCut _ => exact committed.same rfl rfl
  | statusSent _ _ => exact committed.append rfl rfl
  | resetSent _ _ _ => exact committed.append rfl rfl
  | finished _ _ => exact committed.same rfl rfl
  | chunkSent _ _ _ _ => exact committed.append rfl rfl
  | began _ _ => exact committed.same rfl rfl
  | caughtUp _ _ _ _ => exact committed.append rfl rfl
  | completed _ _ _ => exact committed.same rfl rfl

theorem flushed (committed : conn.Committed front) {first : OutboxFrame ω}
    {rest : List (OutboxFrame ω)} {bytes : Nat} (queued : conn.outbox = first :: rest)
    (outcome : FlushOutcome conn first rest bytes next) :
    first = front ∧ (next.Committed front ∨ next.outboxBase ≠ conn.outboxBase) := by
  rcases committed with ⟨started, others, shape⟩
  have named : first = front := (List.cons.inj (queued.symm.trans shape)).1
  refine ⟨named, ?_⟩
  cases outcome with
  | @advanced prepared ready _ =>
      left
      rw [frontStarted, queued, Bool.or_eq_true, decide_eq_true_eq] at started
      rcases ready with rfl | ⟨fresh, owned, _⟩
      · refine ⟨?_, rest, by rw [named]; rfl⟩
        simp only [frontStarted, wrote, release, Bool.or_eq_true]
        rcases started with moved | numbered
        · exact .inl (decide_eq_true (Nat.add_pos_left moved bytes))
        · exact .inr numbered
      · rcases started with moved | numbered
        · omega
        · simp [owned] at numbered
  | popped _ _ _ =>
      right
      change conn.outboxBase + 1 ≠ conn.outboxBase
      omega

end ConnOutbox.Committed

end committed

namespace DeliveryState

variable {state next : DeliveryState} {label : DeliveryLabel}

theorem Sound.keepsCommitted (sound : state.Sound) {front : OutboxFrame Stamp}
    (committed : state.conn.Committed front) (moved : state.Step label next) :
    next.conn.Committed front ∨ next.written = state.written ++ [front.bytes.content] := by
  cases moved with
  | attach _ _ _ => exact .inl (committed.same rfl rfl)
  | @push outbound len media scope _ _ _ =>
      left
      simp only [pushing]
      rw [pushDelta_fst]
      rcases pushDeltaInner_lands sound.acc
          { content := outbound.stamp state.clock, len, media, scope } outbound.delta
          outbound.replacement with ⟨last, sheds, landing⟩
      exact (committed.sheds sheds).landed landing
  | ping _ fits =>
      left
      rw [(tryPushClass_some sound.acc.opened fits).2]
      exact committed.append rfl rfl
  | startResync live _ =>
      left
      rcases BarrierSound.startClientResync_cases state.conn live with
        same | ⟨_, changed, _⟩ | ⟨_, changed⟩
      · simpa only [same] using committed
      · simp only [changed]
        exact committed.same rfl rfl
      · simp only [changed]
        exact committed.same rfl rfl
  | @pump remaining exported status _ _ =>
      left
      cases up : state.conn.barrier with
      | none =>
          simp only [pumpWork, up]
          exact committed
      | some seed =>
          exact committed.pumped (pumpWork_outcome sound.acc.opened sound.acc.capped up
            (state.pumpInput remaining exported status))
  | flush queued _ wrote =>
      rcases committed.flushed queued (flushFront_outcome queued wrote) with ⟨named, still | popped⟩
      · exact .inl still
      · right
        simp only [if_neg popped, named]
  | takeCompleted completed =>
      left
      rw [(takeCompletedSeed_some completed).2.2.2.2]
      exact committed.same rfl rfl

/-- A client gets nothing of a pane but what was pushed for it. When no key spans an ordered frame of
its pane, it gets no frame of a pane twice, and they arrive in the order they were pushed and a
snapshot is cut in, except that a frame may arrive before others with other keys when no ordered
frame of the pane was pushed from them up to it. A frame that is committed is neither replaced nor
removed. -/
theorem delivered_in_order (reached : deliveryRuns.Reachable state) :
    (∀ stamp ∈ state.written, stamp.pane ≠ none → stamp ∈ state.pushed) ∧
      (Unspanned state.pushed →
        state.written.Pairwise (LaneOrder.InOrder Stamp.reading state.pushed) ∧
          (state.written.filter fun stamp => stamp.pane.isSome).Nodup) ∧
      ∀ label next front, state.conn.Committed front → state.Step label next →
        next.conn.Committed front ∨ next.written = state.written ++ [front.bytes.content] := by
  have sound := sound_of_run reached
  refine ⟨?_, ?_, ?_⟩
  · exact fun stamp member => sound.orderly.known stamp (List.mem_append_left _ member)
  · intro unspanned
    have ordered := (sound.orderly.order unspanned).sublist (List.sublist_append_left _ _)
    exact ⟨ordered, LaneOrder.nodup_laned ordered⟩
  · exact fun _ _ _ committed moved => sound.keepsCommitted committed moved

/-- Graphics of image `image` of the pane 1, replaceable within the epoch 0. -/
def graphics (image : Nat) : Outbound :=
  .paneOutput ⟨1, 1, false⟩ ⟨0, 0, .independentGraphics image 1 0⟩

/-- A client is replayed a pane in two chunks, and of three pushes behind them the third takes the
place of the first. -/
theorem overtaken_reachable : ∃ state, deliveryRuns.Reachable state ∧ Unspanned state.pushed ∧
    state.written = [resetStamp 0 ⟨1, 1⟩, replayStamp 0 ⟨1, 1⟩ 0, replayStamp 0 ⟨1, 1⟩ 2,
      (graphics 1).stamp 8, (graphics 2).stamp 7] := by
  have start : deliveryRuns.Reachable ({} : DeliveryState) := .begin rfl
  have attached := start.next (.attach [⟨1, 1⟩] []) (.attach [] rfl (List.nodup_singleton _))
  have begun := attached.next (.pump 0 (some ⟨some 20, 3⟩) none)
    (.pump 0 (fun _ some _ given => by cases some; cases given; decide) fun _ none => by cases none)
  have pumped := fun {state : DeliveryState} (reached : deliveryRuns.Reachable state) remaining =>
    reached.next (.pump remaining none none)
      (.pump remaining (fun _ none => by cases none) fun _ none => by cases none)
  have replayed := pumped (pumped (pumped (pumped begun 20) 69) 69) 69
  have live := pumped replayed 0
  have one := live.next (.push (graphics 1) 10 [] none true)
    (.push [] none true (.inl rfl) (by decide))
  have two := one.next (.push (graphics 2) 10 [] none true)
    (.push [] none true (.inl rfl) (by decide))
  have three := two.next (.push (graphics 1) 10 [] none true)
    (.push [] none true (.inl rfl) (by decide))
  have reset := three.next (.flush none 20) (.flush rfl (by decide) rfl)
  have front := reset.next (.flush none 69) (.flush rfl (by decide) rfl)
  have back := front.next (.flush none 68) (.flush rfl (by decide) rfl)
  have first := back.next (.flush none 10) (.flush rfl (by decide) rfl)
  have second := first.next (.flush none 10) (.flush rfl (by decide) rfl)
  exact ⟨_, second, by unfold Unspanned; decide, rfl⟩

theorem delivered_in_order_overtaken : ∃ state : DeliveryState,
    state.written = [resetStamp 0 ⟨1, 1⟩, replayStamp 0 ⟨1, 1⟩ 0, replayStamp 0 ⟨1, 1⟩ 2,
      (graphics 1).stamp 8, (graphics 2).stamp 7] ∧
      state.written.Pairwise (LaneOrder.InOrder Stamp.reading state.pushed) := by
  rcases overtaken_reachable with ⟨state, reached, unspanned, written⟩
  exact ⟨state, written, ((delivered_in_order reached).2.1 unspanned).1⟩

/-- The order of the pushes is not kept between frames with different keys. -/
theorem order_not_kept :
    ¬ ∀ state, deliveryRuns.Reachable state → Unspanned state.pushed →
      state.written.Pairwise fun first second =>
        first.pane ≠ none → first.pane = second.pane → first.tick ≤ second.tick := by
  intro kept
  rcases overtaken_reachable with ⟨state, reached, unspanned, written⟩
  have order := kept state reached unspanned
  rw [written] at order
  exact absurd order (by decide)

end DeliveryState

end Rozi
