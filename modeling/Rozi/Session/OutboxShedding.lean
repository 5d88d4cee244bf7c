import Rozi.Session.OutboxAccounting

/-!
Shedding ends, and disconnects only as a last resort. A victim always loses bytes, so the loops are
done before their fuel is: any two fuels larger than what is queued give the same answer. A push
overflows only when nothing that counts against its limit can be dropped any more.
-/

namespace Rozi

open ReplacementQueue QueueBytes

namespace ConnOutbox

variable {ω : Type} {conn : ConnOutbox ω}

section droppable

def droppableOutbox (conn : ConnOutbox ω) (key : PaneSeedKey) : Nat :=
  bytesWhere OutboxFrame.len (fun frame => !conn.survivesPurge key frame) conn.sheddableOutbox

def droppableBehind (conn : ConnOutbox ω) (key : PaneSeedKey) : Nat :=
  match conn.barrier with
  | none => 0
  | some seed => (purgeCatchUpPane seed key).2

def droppableCatchUp (conn : ConnOutbox ω) (key : PaneSeedKey) : Nat :=
  conn.droppableBehind key +
    bytesWhere OutboxFrame.len
      (fun frame => frame.ofClass .seedCatchUp && !conn.survivesPurge key frame)
      conn.sheddableOutbox

def catchUpRetained (conn : ConnOutbox ω) : Nat :=
  (match conn.barrier with
    | none => 0
    | some seed => seed.catchUpBytes) + conn.seedCatchUpQueuedBytes

theorem purgeOutboxPane_freed (conn : ConnOutbox ω) (key : PaneSeedKey) :
    (conn.purgeOutboxPane key).2 = conn.droppableOutbox key := by
  simp only [purgeOutboxPane, droppableOutbox, bytesWhere, List.filter_true]
  rfl

theorem exists_of_bytesWhere {ι : Type} {size : ι → Nat} {test : ι → Bool} {items : List ι}
    (weighs : bytesWhere size test items ≠ 0) :
    ∃ item ∈ items, test item = true ∧ 0 < size item := by
  rcases List.exists_mem_ne_zero_of_sum_ne_zero weighs with ⟨weight, member, positive⟩
  rcases List.mem_map.mp member with ⟨item, kept, rfl⟩
  rcases List.mem_filter.mp kept with ⟨present, passes⟩
  exact ⟨item, present, passes, Nat.pos_of_ne_zero positive⟩

theorem bytesWhere_pos_of_mem {ι : Type} {size : ι → Nat} {test : ι → Bool} {items : List ι}
    {item : ι} (member : item ∈ items) (passes : test item = true) (positive : 0 < size item) :
    0 < bytesWhere size test items := by
  rcases List.mem_iff_getElem?.mp member with ⟨position, present⟩
  exact positive.trans_le (size_le_bytesWhere size test present passes)

theorem survivesPurge_eq_false_iff {key : PaneSeedKey} {frame : OutboxFrame ω} :
    conn.survivesPurge key frame = false ↔
      frame.pane = some key ∧ (conn.replayBarrierUp && frame.frameClass == .seedReplay) = false := by
  simp [survivesPurge]

end droppable

section victims

theorem largestOutboxPane_droppable {key : PaneSeedKey}
    (victim : conn.largestOutboxPane = some key) : 0 < conn.droppableOutbox key := by
  rcases (largestSheddable_spec victim).2 with ⟨bytes, tagged, positive⟩
  rcases List.mem_filterMap.mp tagged with ⟨frame, present, tag⟩
  cases own : frame.pane with
  | none => simp [own] at tag
  | some pane =>
      simp only [own] at tag
      split at tag
      · cases tag
      · rename_i counted
        cases tag
        have dropped : conn.survivesPurge key frame = false :=
          survivesPurge_eq_false_iff.mpr ⟨own, by simpa using counted⟩
        exact bytesWhere_pos_of_mem present (by simp [dropped]) positive

theorem droppableOutbox_eq_zero {key : PaneSeedKey} (bare : conn.largestOutboxPane = none)
    (sheddable : conn.paneIsSheddable key = true) : conn.droppableOutbox key = 0 := by
  by_contra weighs
  rcases exists_of_bytesWhere weighs with ⟨frame, present, dropped, positive⟩
  rcases survivesPurge_eq_false_iff.mp (by simpa using dropped) with ⟨own, counted⟩
  refine largestSheddable_ne_none (List.mem_filterMap.mpr ⟨frame, present, ?_⟩) positive
    sheddable bare
  simp only [own, counted]
  rfl

theorem largestCatchUpPane_droppable {key : PaneSeedKey} {seed : AttachSeedState ω}
    (up : conn.barrier = some seed) (victim : conn.largestCatchUpPane = some key) :
    0 < conn.droppableCatchUp key := by
  simp only [largestCatchUpPane, (barrier_eq_some.mp up).1] at victim
  simp only [droppableCatchUp, droppableBehind, up]
  rcases (largestSheddable_spec victim).2 with ⟨bytes, tagged, positive⟩
  rcases List.mem_append.mp tagged with waiting | queued
  · rcases List.mem_filterMap.mp waiting with ⟨frame, member, tag⟩
    rcases Option.map_eq_some_iff.mp tag with ⟨pane, own, pair⟩
    cases pair
    have freed : 0 < (purgeCatchUpPane seed key).2 :=
      bytesWhere_pos_of_mem member (by simp [own]) positive
    exact Nat.add_pos_left freed _
  · rcases List.mem_filterMap.mp queued with ⟨frame, member, tag⟩
    split at tag
    · rename_i late
      rcases Option.map_eq_some_iff.mp tag with ⟨pane, own, pair⟩
      cases pair
      have dropped : conn.survivesPurge key frame = false :=
        survivesPurge_eq_false_iff.mpr ⟨own, by simp [late]⟩
      refine Nat.add_pos_right _ (bytesWhere_pos_of_mem member ?_ positive)
      simp [OutboxFrame.ofClass, late, dropped]
    · cases tag

theorem droppableCatchUp_eq_zero {key : PaneSeedKey} {seed : AttachSeedState ω}
    (up : conn.barrier = some seed) (bare : conn.largestCatchUpPane = none)
    (sheddable : conn.paneIsSheddable key = true) : conn.droppableCatchUp key = 0 := by
  simp only [largestCatchUpPane, (barrier_eq_some.mp up).1] at bare
  simp only [droppableCatchUp, droppableBehind, up]
  have behind : (purgeCatchUpPane seed key).2 = 0 := by
    by_contra weighs
    rcases exists_of_bytesWhere weighs with ⟨frame, present, own, positive⟩
    refine largestSheddable_ne_none (List.mem_append_left _ ?_) positive sheddable bare
    refine List.mem_filterMap.mpr ⟨frame, present, ?_⟩
    rw [beq_iff_eq.mp own]
    rfl
  rw [behind, Nat.zero_add]
  by_contra weighs
  rcases exists_of_bytesWhere weighs with ⟨frame, present, tests, positive⟩
  rw [Bool.and_eq_true] at tests
  have late : frame.frameClass = .seedCatchUp := by simpa [OutboxFrame.ofClass] using tests.1
  have own := (survivesPurge_eq_false_iff.mp (by simpa using tests.2)).1
  refine largestSheddable_ne_none (List.mem_append_right _ ?_) positive sheddable bare
  refine List.mem_filterMap.mpr ⟨frame, present, ?_⟩
  rw [if_pos late, own]
  rfl

theorem shedPane_outboxBytes (acc : conn.Accounted) (key : PaneSeedKey) :
    (conn.shedPane key).outboxBytes + conn.droppableOutbox key = conn.outboxBytes := by
  have parts := pinned_append_sheddable conn
  have front := acc.front
  have total := acc.total
  rw [← parts] at front total
  have freed := (total.purge front acc.unpinned (conn.survivesPurge key)).1
  have shed : (conn.shedPane key).outboxBytes = conn.outboxBytes - conn.droppableOutbox key := by
    rw [← purgeOutboxPane_freed]
    cases up : conn.barrier with
    | none => rw [shedPane_live key up]; rfl
    | some seed => rw [shedPane_behind key up]; rfl
  rw [shed]
  refine Nat.sub_add_cancel ?_
  simpa [droppableOutbox, bytesWhere] using freed

/-- What a shed behind the barrier takes off the catch-up count is what could be dropped of it. -/
theorem shedPane_catchUpRetained (acc : conn.Accounted) {seed : AttachSeedState ω}
    (up : conn.barrier = some seed) (key : PaneSeedKey) :
    (conn.shedPane key).catchUpRetained + conn.droppableCatchUp key = conn.catchUpRetained := by
  have parts := pinned_append_sheddable conn
  have front := acc.front
  have catchUp := acc.catchUp
  rw [← parts] at front catchUp
  have freed := (catchUp.purge front acc.unpinned (conn.survivesPurge key)).1
  have held := (purgeCatchUpPane_accounted (acc.seeds seed (barrier_eq_some.mp up).1) key).1
  have dropped : bytesWhere OutboxFrame.len (OutboxFrame.ofClass .seedCatchUp)
      (conn.sheddableOutbox.filter fun frame => !conn.survivesPurge key frame) =
        bytesWhere OutboxFrame.len
          (fun frame => frame.ofClass .seedCatchUp && !conn.survivesPurge key frame)
          conn.sheddableOutbox := by
    simp only [bytesWhere, List.filter_filter]
  have queued : (conn.shedPane key).seedCatchUpQueuedBytes = conn.seedCatchUpQueuedBytes -
      bytesWhere OutboxFrame.len (OutboxFrame.ofClass .seedCatchUp)
        (conn.sheddableOutbox.filter fun frame => !conn.survivesPurge key frame) := by
    rw [shedPane_behind key up]
    rfl
  have waiting : (purgeCatchUpPane seed key).1.catchUpBytes =
      seed.catchUpBytes - (purgeCatchUpPane seed key).2 := rfl
  simp only [catchUpRetained, droppableCatchUp, droppableBehind, up, shedPane_barrier key up]
  rw [dropped] at freed queued
  omega

end victims

section loops

variable (bytes : EncodedOutput ω) (delta : SeedDelta) (cap : Nat)
  (replacement : Option ReplacementKey)

/-- Two fuels larger than the outbox give the same answer: the loop is done before either is. -/
theorem pushLiveLoop_fuel {fuel other : Nat} (enough : conn.outbox.length < fuel)
    (also : conn.outbox.length < other) :
    pushLiveLoop bytes delta cap replacement fuel conn =
      pushLiveLoop bytes delta cap replacement other conn := by
  induction fuel generalizing other conn with
  | zero => omega
  | succ fuel ih =>
      cases other with
      | zero => omega
      | succ other =>
          simp only [pushLiveLoop]
          cases chosen : conn.largestOutboxPane with
          | none => rfl
          | some victim =>
              have shorter := largestOutboxPane_shortens chosen
              have rest : pushLiveLoop bytes delta cap replacement fuel (conn.shedPane victim) =
                  pushLiveLoop bytes delta cap replacement other (conn.shedPane victim) :=
                ih (by omega) (by omega)
              simp only [rest]

theorem pushCatchUpLoop_fuel {fuel other : Nat} {seed : AttachSeedState ω}
    (up : conn.barrier = some seed) (enough : seed.catchUp.length + conn.outbox.length < fuel)
    (also : seed.catchUp.length + conn.outbox.length < other) :
    pushCatchUpLoop bytes delta replacement fuel conn =
      pushCatchUpLoop bytes delta replacement other conn := by
  induction fuel generalizing other conn seed with
  | zero => omega
  | succ fuel ih =>
      cases other with
      | zero => omega
      | succ other =>
          simp only [pushCatchUpLoop]
          cases chosen : conn.largestCatchUpPane with
          | some victim =>
              have shorter := largestCatchUpPane_shortens up chosen
              have rest : pushCatchUpLoop bytes delta replacement fuel (conn.shedPane victim) =
                  pushCatchUpLoop bytes delta replacement other (conn.shedPane victim) :=
                ih (shedPane_barrier victim up) (by omega) (by omega)
              simp only [Option.some_or, rest]
          | none =>
              simp only [Option.none_or]
              cases self : delta.pane.filter conn.paneIsSheddable with
              | none => rfl
              | some key => simp only [(Option.filter_eq_some_iff.mp self).1, if_true]

/-- Where a push onto the outbox gives up: nothing is left to shed, and the frame is no output. -/
theorem pushLiveLoop_overflow {fuel : Nat}
    (overflowed : (pushLiveLoop bytes delta cap replacement fuel conn).2 = .overflow) :
    ∃ last : ConnOutbox ω, pushLiveLoop bytes delta cap replacement fuel conn =
        last.overflowing "attach-outbox-overflow" ∧
      cap < last.outboxBytes + bytes.len ∧ last.largestOutboxPane = none ∧
      delta.outputPane = none := by
  induction fuel generalizing conn with
  | zero => cases overflowed
  | succ fuel ih =>
      unfold pushLiveLoop at overflowed ⊢
      by_cases fits : conn.outboxBytes + bytes.len ≤ cap
      · rw [if_pos fits] at overflowed
        split at overflowed <;> cases overflowed
      · rw [if_neg fits] at overflowed ⊢
        cases chosen : conn.largestOutboxPane with
        | none =>
            simp only [chosen] at overflowed
            cases own : delta.outputPane with
            | none => exact ⟨conn, rfl, Nat.lt_of_not_le fits, chosen, rfl⟩
            | some key =>
                simp only [own] at overflowed
                cases overflowed
        | some victim =>
            simp only [chosen] at overflowed ⊢
            by_cases own : delta.outputPane = some victim
            · rw [if_pos own] at overflowed
              cases overflowed
            · rw [if_neg own] at overflowed ⊢
              exact ih overflowed

/-- Where a push behind the barrier gives up: the frame has no pane that could be shed either. -/
theorem pushCatchUpLoop_overflow {fuel : Nat} {seed : AttachSeedState ω}
    (up : conn.barrier = some seed)
    (overflowed : (pushCatchUpLoop bytes delta replacement fuel conn).2 = .overflow) :
    ∃ (last : ConnOutbox ω) (seed : AttachSeedState ω),
      pushCatchUpLoop bytes delta replacement fuel conn =
        last.overflowing "attach-catch-up-overflow" ∧ last.barrier = some seed ∧
      seedCatchUpLimit < seed.catchUpBytes + last.seedCatchUpQueuedBytes + bytes.len ∧
      last.largestCatchUpPane = none ∧ delta.pane.filter last.paneIsSheddable = none := by
  induction fuel generalizing conn seed with
  | zero => cases overflowed
  | succ fuel ih =>
      unfold pushCatchUpLoop at overflowed ⊢
      simp only [(barrier_eq_some.mp up).1] at overflowed ⊢
      by_cases behind : delta.pane.any seed.outdated.contains = true
      · rw [if_pos behind] at overflowed
        cases overflowed
      · rw [if_neg behind] at overflowed ⊢
        cases found : conn.replaceCatchUp seed bytes delta replacement with
        | some next =>
            simp only [found] at overflowed
            cases overflowed
        | none =>
            simp only [found] at overflowed ⊢
            by_cases fits : seed.catchUpBytes + conn.seedCatchUpQueuedBytes + bytes.len ≤
                seedCatchUpLimit
            · rw [if_pos fits] at overflowed
              cases overflowed
            · rw [if_neg fits] at overflowed ⊢
              cases chosen : conn.largestCatchUpPane with
              | some victim =>
                  simp only [chosen, Option.some_or] at overflowed ⊢
                  by_cases own : delta.pane = some victim
                  · rw [if_pos own] at overflowed
                    cases overflowed
                  · rw [if_neg own] at overflowed ⊢
                    exact ih (shedPane_barrier victim up) overflowed
              | none =>
                  simp only [chosen, Option.none_or] at overflowed ⊢
                  cases self : delta.pane.filter conn.paneIsSheddable with
                  | none => exact ⟨conn, seed, rfl, up, Nat.lt_of_not_le fits, chosen, self⟩
                  | some key =>
                      simp only [self] at overflowed
                      rw [if_pos (Option.filter_eq_some_iff.mp self).1] at overflowed
                      cases overflowed

end loops

section outcomes

variable {bytes : EncodedOutput ω} {delta : SeedDelta} {cap : Nat}
  {replacement : Option ReplacementKey} {result : ConnOutbox ω × ClientFrameResult}

/-- Neither loop runs out of fuel or goes below zero, whatever the cap. -/
theorem Accounted.live_calm (acc : conn.Accounted)
    (outcome : LiveOutcome conn bytes delta cap replacement result) :
    result.1.panicked = false := by
  cases outcome with
  | behind _ _ => exact acc.calm
  | replaced found =>
      rcases replaceOutbox_some acc.indexed found with
        ⟨_, position, frame, _, present, _, _, unstarted, _, rfl⟩
      have fresh := unstarted_offset position unstarted
      have replayLe := acc.replay.le_of_get acc.front present fresh
      have catchUpLe := acc.catchUp.le_of_get acc.front present fresh
      rw [← classShare_eq] at replayLe catchUpLe
      exact release_calm acc.calm (acc.total.le_of_get acc.front present fresh) replayLe catchUpLe
  | queued shed _ _ => exact (acc.sheds shed).calm
  | starved shed _ _ => exact (acc.sheds shed).calm
  | shedSelf shed _ _ => exact ((acc.sheds shed).shedPane _).calm
  | overflowed shed _ => exact (acc.sheds shed).calm

theorem LiveOutcome.capped (outcome : LiveOutcome conn bytes delta cap replacement result)
    (indexed : IndexSound OutboxFrame.replacement conn.outboxBase conn.outbox
      conn.outboxReplacements) (queued : result.2 = .queued) : result.1.outboxBytes ≤ cap := by
  cases outcome with
  | behind _ _ => cases queued
  | replaced found =>
      rcases replaceOutbox_some indexed found with ⟨_, _, _, _, _, _, _, _, room, rfl⟩
      exact room
  | queued _ _ room => exact room
  | starved _ _ _ => cases queued
  | shedSelf _ _ _ => cases queued
  | overflowed _ _ => cases queued

theorem replaceCatchUp_limited {seed : AttachSeedState ω} {next : ConnOutbox ω}
    (up : conn.barrier = some seed)
    (indexed : IndexSound CatchUpFrame.replacement seed.catchUpBase seed.catchUp
      seed.catchUpReplacements)
    (found : conn.replaceCatchUp seed bytes delta replacement = some next) :
    next.catchUpRetained ≤ seedCatchUpLimit := by
  have down := (barrier_eq_some.mp up).2
  unfold replaceCatchUp at found
  cases entry : replacement.bind seed.catchUpReplacements with
  | none => simp [entry] at found
  | some absolute =>
      rcases Option.bind_eq_some_iff.mp entry with ⟨key, _, points⟩
      rcases indexed.lookup points with ⟨behindBase, ⟨frame, present, _⟩, _⟩
      simp only [entry, present] at found
      rw [if_neg (by omega)] at found
      split_ifs at found with tight
      cases found
      simp only [catchUpRetained, barrier, Option.filter_some, down, Bool.not_false, if_true]
      omega

theorem CatchUpOutcome.limited (acc : conn.Accounted)
    (outcome : CatchUpOutcome conn bytes delta replacement result)
    (buffered : result.2 = .buffered) : result.1.catchUpRetained ≤ seedCatchUpLimit := by
  cases outcome with
  | outdated _ _ _ _ => cases buffered
  | replaced sheds up _ found =>
      have seedAcc := (acc.sheds sheds).seeds _ (barrier_eq_some.mp up).1
      exact replaceCatchUp_limited up seedAcc.indexed found
  | buffered _ up _ fits =>
      have down := (barrier_eq_some.mp up).2
      simp only [appendCatchUp, catchUpRetained, barrier, Option.filter_some, down,
        Bool.not_false, if_true]
      omega
  | shedSelf _ _ _ => cases buffered
  | overflowed _ _ => cases buffered

theorem overflowing_barrier (conn : ConnOutbox ω) (reason : String) :
    (conn.overflowing reason).1.barrier =
      conn.barrier.map fun seed => { seed with disconnectReason := some reason } := by
  cases present : conn.seed with
  | none => simp [overflowing, barrier, present]
  | some seed =>
      cases down : seed.baselineQueued with
      | true => simp [overflowing, barrier, present, down, Option.filter_some]
      | false => simp [overflowing, barrier, present, down, Option.filter_some]

@[simp] theorem overflowing_paneIsSheddable (conn : ConnOutbox ω) (reason : String)
    (key : PaneSeedKey) :
    (conn.overflowing reason).1.paneIsSheddable key = conn.paneIsSheddable key := by
  simp only [paneIsSheddable, overflowing_barrier]
  cases conn.barrier <;> rfl

theorem overflowing_survivesPurge (conn : ConnOutbox ω) (reason : String) (key : PaneSeedKey)
    (frame : OutboxFrame ω) :
    (conn.overflowing reason).1.survivesPurge key frame = conn.survivesPurge key frame := by
  simp only [survivesPurge, replayBarrierUp, overflowing_barrier, Option.isSome_map]

@[simp] theorem overflowing_droppableOutbox (conn : ConnOutbox ω) (reason : String)
    (key : PaneSeedKey) :
    (conn.overflowing reason).1.droppableOutbox key = conn.droppableOutbox key := by
  simp only [droppableOutbox, overflowing_survivesPurge]
  rfl

@[simp] theorem overflowing_droppableCatchUp (conn : ConnOutbox ω) (reason : String)
    (key : PaneSeedKey) :
    (conn.overflowing reason).1.droppableCatchUp key = conn.droppableCatchUp key := by
  simp only [droppableCatchUp, droppableBehind, overflowing_survivesPurge, overflowing_barrier]
  cases conn.barrier <;> rfl

@[simp] theorem overflowing_catchUpRetained (conn : ConnOutbox ω) (reason : String) :
    (conn.overflowing reason).1.catchUpRetained = conn.catchUpRetained := by
  simp only [catchUpRetained, overflowing_barrier]
  cases conn.barrier <;> rfl

end outcomes

/-- What `push_live` comes to: it ends, it keeps the cap, and it gives up only on a frame that is no
pane output once no pane that may be shed has a queued byte to drop. -/
structure LiveEnds (conn : ConnOutbox ω) (bytes : EncodedOutput ω) (delta : SeedDelta) (cap : Nat)
    (replacement : Option ReplacementKey) : Prop where
  ends : ∀ fuel, conn.outbox.length < fuel →
    pushLiveLoop bytes delta cap replacement fuel conn =
      pushLiveLoop bytes delta cap replacement (conn.outbox.length + 1) conn
  calm : (conn.pushLive bytes delta cap replacement).1.panicked = false
  capped : (conn.pushLive bytes delta cap replacement).2 = .queued →
    (conn.pushLive bytes delta cap replacement).1.outboxBytes ≤ cap
  lastResort : (conn.pushLive bytes delta cap replacement).2 = .overflow →
    cap < (conn.pushLive bytes delta cap replacement).1.outboxBytes + bytes.len ∧
      (∀ key, (conn.pushLive bytes delta cap replacement).1.paneIsSheddable key = true →
        (conn.pushLive bytes delta cap replacement).1.droppableOutbox key = 0) ∧
      (delta = .control ∨ ∃ key, delta = .paneResize key)

/-- What `push_catch_up` comes to. It gives up only on control traffic and on a pane the barrier
does not know, once no pane that may be shed has a byte to drop that counts against the limit. -/
structure CatchUpEnds (conn : ConnOutbox ω) (seed : AttachSeedState ω) (bytes : EncodedOutput ω)
    (delta : SeedDelta) (replacement : Option ReplacementKey) : Prop where
  ends : ∀ fuel, seed.catchUp.length + conn.outbox.length < fuel →
    pushCatchUpLoop bytes delta replacement fuel conn =
      pushCatchUpLoop bytes delta replacement (seed.catchUp.length + conn.outbox.length + 1) conn
  calm : (conn.pushCatchUp bytes delta replacement).1.panicked = false
  limited : (conn.pushCatchUp bytes delta replacement).2 = .buffered →
    (conn.pushCatchUp bytes delta replacement).1.catchUpRetained ≤ seedCatchUpLimit
  lastResort : (conn.pushCatchUp bytes delta replacement).2 = .overflow →
    seedCatchUpLimit <
        (conn.pushCatchUp bytes delta replacement).1.catchUpRetained + bytes.len ∧
      (∀ key, (conn.pushCatchUp bytes delta replacement).1.paneIsSheddable key = true →
        (conn.pushCatchUp bytes delta replacement).1.droppableCatchUp key = 0) ∧
      (delta = .control ∨ ∃ key, delta.pane = some key ∧
        (conn.pushCatchUp bytes delta replacement).1.paneIsSheddable key = false)

theorem Accounted.liveEnds (acc : conn.Accounted) (bytes : EncodedOutput ω) (delta : SeedDelta)
    (cap : Nat) (replacement : Option ReplacementKey) :
    LiveEnds conn bytes delta cap replacement where
  ends := fun fuel enough => pushLiveLoop_fuel bytes delta cap replacement enough (Nat.lt_succ_self _)
  calm := acc.live_calm (pushLive_outcome acc.opened bytes delta cap replacement)
  capped := (pushLive_outcome acc.opened bytes delta cap replacement).capped acc.indexed
  lastResort := by
    intro overflowed
    unfold pushLive at overflowed ⊢
    by_cases waiting : delta.outputPane.any conn.resyncPending.contains = true
    · rw [if_pos waiting] at overflowed
      cases overflowed
    · rw [if_neg waiting] at overflowed ⊢
      cases found : conn.replaceOutbox bytes replacement cap with
      | some next =>
          simp only [found] at overflowed
          cases overflowed
      | none =>
          simp only [found] at overflowed ⊢
          rcases pushLiveLoop_overflow bytes delta cap replacement overflowed with
            ⟨last, gave, tight, bare, own⟩
          rw [gave]
          refine ⟨tight, ?_, ?_⟩
          · intro key sheddable
            rw [overflowing_paneIsSheddable] at sheddable
            rw [overflowing_droppableOutbox]
            exact droppableOutbox_eq_zero bare sheddable
          · cases delta with
            | control => exact .inl rfl
            | paneOutput key => cases own
            | paneResize key => exact .inr ⟨key, rfl⟩

theorem Accounted.catchUpEnds (acc : conn.Accounted) {seed : AttachSeedState ω}
    (up : conn.barrier = some seed) (bytes : EncodedOutput ω) (delta : SeedDelta)
    (replacement : Option ReplacementKey) : CatchUpEnds conn seed bytes delta replacement where
  ends := fun fuel enough =>
    pushCatchUpLoop_fuel bytes delta replacement up enough (Nat.lt_succ_self _)
  calm := (acc.late (pushCatchUp_outcome up bytes delta replacement)).calm
  limited := (pushCatchUp_outcome up bytes delta replacement).limited acc
  lastResort := by
    intro overflowed
    unfold pushCatchUp at overflowed ⊢
    rcases pushCatchUpLoop_overflow bytes delta replacement up overflowed with
      ⟨last, seed, gave, still, tight, bare, self⟩
    rw [gave]
    refine ⟨?_, ?_, ?_⟩
    · rw [overflowing_catchUpRetained]
      simp only [catchUpRetained, still]
      exact tight
    · intro key sheddable
      rw [overflowing_paneIsSheddable] at sheddable
      rw [overflowing_droppableCatchUp]
      exact droppableCatchUp_eq_zero still bare sheddable
    · cases own : delta.pane with
      | none =>
          cases delta with
          | control => exact .inl rfl
          | paneOutput key => cases own
          | paneResize key => cases own
      | some key =>
          right
          refine ⟨key, rfl, ?_⟩
          rw [overflowing_paneIsSheddable]
          rw [own] at self
          simpa [Option.filter_some] using self

/-- Both loops end, whatever they are given; each victim loses bytes that count, and leaves a state
whose counters are exact again. -/
theorem shedding_last_resort (acc : conn.Accounted) (bytes : EncodedOutput ω) (delta : SeedDelta)
    (cap : Nat) (replacement : Option ReplacementKey) :
    LiveEnds conn bytes delta cap replacement ∧
      (∀ seed, conn.barrier = some seed → CatchUpEnds conn seed bytes delta replacement) ∧
      (∀ key, (conn.shedPane key).Accounted) ∧
      (∀ key, conn.largestOutboxPane = some key →
        (conn.shedPane key).outboxBytes < conn.outboxBytes) ∧
      (∀ seed key, conn.barrier = some seed → conn.largestCatchUpPane = some key →
        (conn.shedPane key).catchUpRetained < conn.catchUpRetained) := by
  refine ⟨acc.liveEnds bytes delta cap replacement,
    fun seed up => acc.catchUpEnds up bytes delta replacement, fun key => acc.shedPane key, ?_, ?_⟩
  · intro key victim
    have positive := largestOutboxPane_droppable victim
    have shed := shedPane_outboxBytes acc key
    omega
  · intro seed key up victim
    have positive := largestCatchUpPane_droppable up victim
    have shed := shedPane_catchUpRetained acc up key
    omega

/-- A client that is being resynced. A frame of the pane was queued before the replay began, and
control traffic behind the barrier has used the catch-up limit up. -/
def stalledBehindControls : ConnOutbox Unit :=
  { outbox := [{
      replacement := none, bytes := { content := (), len := 10 }, frameClass := .normal
      pane := some { paneId := 1, generation := 0 } }]
    outboxBytes := 10
    seed := some {
      kind := .resync
      manifest := fun key => if key = { paneId := 1, generation := 0 } then some .pending else none
      pending := [{ paneId := 1, generation := 0 }]
      catchUp := [{
        replacement := none, bytes := { content := (), len := seedCatchUpLimit }, delta := .control }]
      catchUpBytes := seedCatchUpLimit } }

theorem stalledBehindControls_accounted : stalledBehindControls.Accounted where
  total := rfl
  replay := rfl
  catchUp := rfl
  front := .inl rfl
  capped := by decide
  indexed := .rebuilt _ _
  seeds := by
    intro seed present
    cases present
    exact ⟨rfl, .rebuilt _ _⟩
  opened := rfl
  calm := rfl

theorem shedding_last_resort_stalled :
    LiveEnds stalledBehindControls { content := (), len := 1 } .control maxBacklog none ∧
      (∀ seed, stalledBehindControls.barrier = some seed →
        CatchUpEnds stalledBehindControls seed { content := (), len := 1 } .control none) ∧
      (∀ key, (stalledBehindControls.shedPane key).Accounted) ∧
      (∀ key, stalledBehindControls.largestOutboxPane = some key →
        (stalledBehindControls.shedPane key).outboxBytes < stalledBehindControls.outboxBytes) ∧
      (∀ seed key, stalledBehindControls.barrier = some seed →
        stalledBehindControls.largestCatchUpPane = some key →
        (stalledBehindControls.shedPane key).catchUpRetained <
          stalledBehindControls.catchUpRetained) :=
  shedding_last_resort stalledBehindControls_accounted _ _ _ _

/-- One more control frame disconnects the client, though the pane may be shed and a shed would
still drop its queued frame: those bytes do not count against the catch-up limit. -/
theorem overflow_leaves_droppable :
    ∃ conn : ConnOutbox Unit, conn.Accounted ∧
      (conn.pushDeltaInner { content := (), len := 1 } .control maxBacklog none).2 = .overflow ∧
      (conn.pushDeltaInner { content := (), len := 1 } .control maxBacklog none).1.paneIsSheddable
        { paneId := 1, generation := 0 } = true ∧
      0 < (conn.pushDeltaInner { content := (), len := 1 } .control maxBacklog none).1.droppableOutbox
        { paneId := 1, generation := 0 } :=
  ⟨stalledBehindControls, stalledBehindControls_accounted, by decide +kernel, by decide +kernel,
    by decide +kernel⟩

end ConnOutbox

end Rozi
