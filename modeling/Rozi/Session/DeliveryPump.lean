import Rozi.Session.DeliveryPush

/-!
The seed pump and the flush keep the queues of a client orderly: a replay stands where its snapshot
was taken, and what is written leaves the front.
-/

namespace Rozi

open ReplacementQueue QueueBytes

namespace ConnOutbox

namespace Orderly

variable {conn next : ConnOutbox Stamp} {written pushed : List Stamp} {clock : Nat}

theorem control (ord : Orderly conn written pushed clock) {bytes : EncodedOutput Stamp}
    (shown : bytes.content = Outbound.control.stamp 0) (past : 0 < clock)
    (framed : 0 < bytes.len) (frameClass : OutboxClass) :
    Orderly (conn.enqueued bytes frameClass none none) written pushed clock := by
  have unlaned : bytes.content.pane = none := by rw [shown]; rfl
  have unkeyed : bytes.content.key = none := by rw [shown]; rfl
  apply ord.enqueued
  · exact
      { key := unkeyed.symm
        pane := by rw [shown]; rfl
        replayed := fun _ => unkeyed
        framed := framed }
  · rw [shown]
    exact past
  · exact fun laned => absurd unlaned laned
  · exact fun _ _ none => by cases none
  · exact fun keyed => absurd unkeyed keyed
  · intro unspanned
    have ordered := ord.order unspanned
    rw [stamps_eq] at ordered
    rw [stamps_enqueued]
    exact LaneOrder.pairwise_unlaned ordered unlaned

/-- A frame of the snapshot being replayed goes to the end of the outbox, with what is left of the
snapshot behind it. -/
theorem cut (ord : Orderly conn written pushed clock) {seed : AttachSeedState Stamp}
    {replay : PaneSeedReplay Stamp} (up : conn.barrier = some seed)
    (replaying : seed.replay = some replay) {bytes : EncodedOutput Stamp}
    {pane : Option PaneSeedKey} (change : PaneSeedReplay Stamp → PaneSeedReplay Stamp)
    (framed : 0 < bytes.len) (unkeyed : bytes.content.key = none)
    (transcript : pane = bytes.content.transcript)
    (issued : ∀ stamp ∈ bytes.content :: (change replay).next, stamp ∈ pushed)
    (exported : ∃ tick len, (change replay).Exported tick len)
    (spool : ∀ left, 0 < left → left ≤ (change replay).remaining →
      (change replay).content left ∈ pushed)
    (order : ∀ front back, (∀ later ∈ back, Stamp.part later = none) →
      (front ++ (replay.next ++ back)).Pairwise (LaneOrder.InOrder Stamp.reading pushed) →
      (front ++ bytes.content :: ((change replay).next ++ back)).Pairwise
        (LaneOrder.InOrder Stamp.reading pushed)) :
    Orderly ((conn.enqueued bytes .seedReplay pane none).updateSeed fun seed =>
      { seed with replay := seed.replay.map change }) written pushed clock := by
  have present := (barrier_eq_some.mp up).1
  have tagged := ord.seeds seed present
  have now : ((conn.enqueued bytes .seedReplay pane none).updateSeed fun seed =>
      { seed with replay := seed.replay.map change }).seed =
        some { seed with replay := some (change replay) } := by
    simp only [ConnOutbox.updateSeed, ConnOutbox.enqueued, charge, present, Option.map_some,
      replaying]
  have shown : conn.replaying = replay.next := by
    rw [replaying_of_seed present, replaying]
    rfl
  have held : ((conn.enqueued bytes .seedReplay pane none).updateSeed fun seed =>
      { seed with replay := seed.replay.map change }).catchUpFrames = conn.catchUpFrames := by
    rw [catchUpFrames_of_seed now, catchUpFrames_of_seed present]
  have flow : written ++ ((conn.enqueued bytes .seedReplay pane none).updateSeed fun seed =>
      { seed with replay := seed.replay.map change }).stamps =
      (written ++ conn.outbox.map fun frame => frame.bytes.content) ++
        bytes.content :: ((change replay).next ++
          conn.catchUpFrames.map fun frame => frame.bytes.content) := by
    rw [stamps_eq, held, replaying_of_seed now]
    simp [ConnOutbox.updateSeed, ConnOutbox.enqueued, charge]
  have members : ∀ stamp ∈ written ++ ((conn.enqueued bytes .seedReplay pane none).updateSeed
      fun seed => { seed with replay := seed.replay.map change }).stamps,
      stamp ∈ pushed ∨ stamp ∈ written ++ conn.stamps := by
    intro stamp member
    rw [flow, ← List.cons_append] at member
    rw [stamps_eq]
    rcases List.mem_append.mp member with before | member
    · exact .inr (List.mem_append_left _ before)
    · rcases List.mem_append.mp member with own | behind
      · exact .inl (issued stamp own)
      · exact .inr (List.mem_append_right _ (List.mem_append_right _ behind))
  have excused : ∀ key, ((conn.enqueued bytes .seedReplay pane none).updateSeed fun seed =>
      { seed with replay := seed.replay.map change }).Excused key → conn.Excused key := by
    intro key why
    rcases why with waiting | ⟨own, raised, why⟩
    · exact .inl waiting
    · cases now.symm.trans (barrier_eq_some.mp raised).1
      exact .inr ⟨seed, up, why⟩
  exact
    { outbox := fun frame member => by
        rcases List.mem_append.mp member with old | new
        · exact ord.outbox frame old
        · rw [List.mem_singleton.mp new]
          exact
            { key := unkeyed.symm
              pane := transcript
              replayed := fun _ => unkeyed
              framed := framed }
      seeds := fun own changed => by
        cases now.symm.trans changed
        exact
          { catchUp := tagged.catchUp
            replay := fun _ current => by
              cases current
              exact exported
            status := tagged.status }
      past := fun stamp member => by
        rcases members stamp member with own | old
        · exact ord.issued stamp own
        · exact ord.past stamp old
      issued := ord.issued
      known := fun stamp member laned => by
        rcases members stamp member with own | old
        · exact own
        · exact ord.known stamp old laned
      spools := fun own changed _ current => by
        cases now.symm.trans changed
        cases current
        exact spool
      settledOutbox := fun key why frame member named => by
        rcases mem_sheddable_enqueued member with old | rfl
        · exact ord.settledOutbox key (excused key why) frame old named
        · rfl
      settledCatchUp := fun key why => by
        rw [held]
        exact ord.settledCatchUp key (excused key why)
      current := fun stamp member keyed => by
        rcases List.mem_append.mp member with outbox | late
        · rcases List.mem_map.mp outbox with ⟨frame, holds, rfl⟩
          rcases mem_sheddable_enqueued holds with old | rfl
          · exact ord.current _ (mem_replaceable_of_sheddable old) keyed
          · exact absurd unkeyed keyed
        · rw [held] at late
          exact ord.current stamp (List.mem_append_right _ late) keyed
      order := fun unspanned => by
        have ordered := ord.order unspanned
        rw [stamps_eq, shown] at ordered
        rw [flow]
        apply order _ _ _ ordered
        intro later member
        rcases List.mem_map.mp member with ⟨frame, holds, rfl⟩
        exact Stamp.part_of_live (ord.catchUpTagged frame holds).live }

theorem resetSent (ord : Orderly conn written pushed clock) {seed : AttachSeedState Stamp}
    {replay : PaneSeedReplay Stamp} {frame : EncodedOutput Stamp} (up : conn.barrier = some seed)
    (replaying : seed.replay = some replay) (reset : replay.resetFrame = some frame) :
    Orderly ((conn.enqueued frame .seedReplay none none).updateSeed fun seed =>
      { seed with replay := seed.replay.map fun replay => { replay with resetFrame := none } })
      written pushed clock := by
  have present := (barrier_eq_some.mp up).1
  rcases (ord.seeds seed present).replay replay replaying with ⟨tick, len, exported⟩
  rcases exported.reset frame reset with ⟨shown, framed⟩
  -- The reset leaves the front of the replay and joins the end of the outbox.
  have moved : frame.content :: PaneSeedReplay.next { replay with resetFrame := none } =
      replay.next := by
    simp [PaneSeedReplay.next, reset]
  apply ord.cut up replaying (fun replay => { replay with resetFrame := none }) framed
  · rw [shown]; rfl
  · rw [shown]; rfl
  · intro stamp member
    have queued : stamp ∈ conn.replaying := by
      rw [replaying_of_seed present, replaying, Option.elim_some, ← moved]
      exact member
    apply ord.known
    · rw [stamps_eq]
      exact List.mem_append_right _ (List.mem_append_left _ queued)
    · rw [exported.pane stamp (moved ▸ member)]
      exact Option.some_ne_none _
  · exact ⟨tick, len, exported.within, exported.content, fun _ none => by cases none⟩
  · exact ord.spools seed present replay replaying
  · intro front back _ ordered
    rw [← List.cons_append, moved]
    exact ordered

theorem chunkSent (ord : Orderly conn written pushed clock) {seed : AttachSeedState Stamp}
    {replay : PaneSeedReplay Stamp} {payload : Nat} (up : conn.barrier = some seed)
    (replaying : seed.replay = some replay) (reset : replay.resetFrame = none)
    (cut : 0 < payload ∧ payload ≤ replay.remaining) :
    Orderly ((conn.enqueued
        { content := replay.content replay.remaining, len := payload + paneOutputFrameOverhead }
        .seedReplay (some replay.key) none).updateSeed fun seed =>
      { seed with replay := seed.replay.map fun replay =>
          { replay with remaining := replay.remaining - payload } }) written pushed clock := by
  have present := (barrier_eq_some.mp up).1
  rcases (ord.seeds seed present).replay replay replaying with ⟨tick, len, exported⟩
  have spool := ord.spools seed present replay replaying
  have within := exported.within
  have before : replay.next = [replay.content replay.remaining] := by
    have some : replay.remaining ≠ 0 := by omega
    simp [PaneSeedReplay.next, reset, some]
  apply ord.cut up replaying fun replay => { replay with remaining := replay.remaining - payload }
  · exact Nat.add_pos_right payload (by decide)
  · rw [exported.content]; rfl
  · rw [exported.content]
    exact (Stamp.seedKey_presentation replay.key).symm
  · intro stamp member
    rcases List.mem_cons.mp member with rfl | next
    · exact spool _ (by omega) (Nat.le_refl _)
    · simp only [PaneSeedReplay.next, reset, Option.map_none, Option.toList_none,
        List.nil_append] at next
      split_ifs at next with drained
      · cases next
      · rw [List.mem_singleton.mp next]
        exact spool _ (by omega) (by omega)
  · exact ⟨tick, len, (Nat.sub_le _ _).trans within, exported.content, exported.reset⟩
  · exact fun left some most => spool left some (most.trans (Nat.sub_le _ _))
  · intro front back whole ordered
    rw [before] at ordered
    simp only [PaneSeedReplay.next, reset, Option.map_none, Option.toList_none, List.nil_append]
    split_ifs with drained
    · exact ordered
    · -- The next frame is cut `payload` bytes further on in the same export.
      apply LaneOrder.pairwise_follow ordered
      · rw [exported.content]
        rfl
      · rw [exported.content, exported.content]
        rfl
      · rw [exported.content, exported.content]
        exact ⟨rfl, _, _, rfl, rfl, by omega⟩
      · exact whole

theorem finishProgramStatusBaseline (ord : Orderly conn written pushed clock) :
    Orderly conn.finishProgramStatusBaseline written pushed clock := by
  apply ord.updateSeed
  · exact fun _ _ tagged => ⟨tagged.catchUp, tagged.replay, fun _ none => by cases none⟩
  · exact fun _ => rfl
  · exact fun _ => rfl
  · exact fun _ => ⟨rfl, rfl, rfl⟩

theorem cutProgramStatus (ord : Orderly conn written pushed clock) {frame : EncodedOutput Stamp}
    (shown : frame.content = Outbound.control.stamp 0) (framed : 0 < frame.len) :
    Orderly (conn.cutProgramStatus frame) written pushed clock := by
  apply ord.updateSeed
  · intro own _ tagged
    refine ⟨tagged.catchUp, tagged.replay, ?_⟩
    intro cut same
    cases same
    exact ⟨shown, framed⟩
  · exact fun _ => rfl
  · exact fun _ => rfl
  · exact fun _ => ⟨rfl, rfl, rfl⟩

/-- Another seed behind the same barrier, with no more queued than before. -/
theorem reseeded (ord : Orderly conn written pushed clock) {before after : AttachSeedState Stamp}
    (up : conn.barrier = some before) (now : next.seed = some after)
    (outbox : next.outbox = conn.outbox) (offset : next.frontOffset = conn.frontOffset)
    (tagged : after.Tagged)
    (spools : ∀ replay, after.replay = some replay →
      ∀ left, 0 < left → left ≤ replay.remaining → replay.content left ∈ pushed)
    (replaying : next.replaying.Sublist conn.replaying)
    (catchUp : after.catchUp = before.catchUp)
    (excused : ∀ key, next.Excused key → conn.Excused key) :
    Orderly next written pushed clock := by
  have held : next.catchUpFrames = conn.catchUpFrames := by
    rw [catchUpFrames_of_seed now, catchUpFrames_of_seed (barrier_eq_some.mp up).1, catchUp]
  have sheddable : next.sheddableOutbox = conn.sheddableOutbox := by
    unfold sheddableOutbox frontStarted
    rw [outbox, offset]
  apply ord.shrink
  · exact fun frame member => outbox ▸ member
  · intro own changed
    cases now.symm.trans changed
    exact tagged
  · intro own changed
    cases now.symm.trans changed
    exact spools
  · simp only [stamps, outbox, held]
    exact (replaying.append_left _).append_right _
  · exact fun frame member => sheddable ▸ member
  · exact fun frame member => held ▸ member
  · exact fun key excuse => .inl (excused key excuse)

theorem finishPaneReplay (ord : Orderly conn written pushed clock) {seed : AttachSeedState Stamp}
    {replay : PaneSeedReplay Stamp} (up : conn.barrier = some seed) :
    Orderly (conn.finishPaneReplay replay) written pushed clock := by
  have present := (barrier_eq_some.mp up).1
  have tagged := ord.seeds seed present
  have now : (conn.finishPaneReplay replay).seed = some { seed with
      replay := none
      manifest := fun key => if key = replay.key then some .catchingUp else seed.manifest key } := by
    simp only [ConnOutbox.finishPaneReplay, ConnOutbox.updateSeed, present, Option.map_some]
  apply ord.reseeded up now rfl rfl
  · exact ⟨tagged.catchUp, (fun _ none => by cases none), tagged.status⟩
  · exact fun _ none => by cases none
  · rw [replaying_of_seed now]
    exact List.nil_sublist _
  · rfl
  · intro key excuse
    rcases excuse with waiting | ⟨own, raised, why⟩
    · exact .inl waiting
    · cases now.symm.trans (barrier_eq_some.mp raised).1
      refine .inr ⟨seed, up, ?_⟩
      rcases why with stale | pending
      · exact .inl stale
      · right
        simp only at pending
        split_ifs at pending
        · cases pending
        · exact pending

theorem beginGone (ord : Orderly conn written pushed clock) {seed : AttachSeedState Stamp}
    {key : PaneSeedKey} (up : conn.barrier = some seed) :
    Orderly (conn.beginPaneReplay key none) written pushed clock := by
  have present := (barrier_eq_some.mp up).1
  have tagged := ord.seeds seed present
  have now : (conn.beginPaneReplay key none).seed = some { seed with
      pending := seed.pending.tail
      manifest := fun other => if other = key then some .catchingUp else seed.manifest other } := by
    simp only [ConnOutbox.beginPaneReplay, ConnOutbox.updateSeed, present, Option.map_some]
  apply ord.reseeded up now rfl rfl
  · exact ⟨tagged.catchUp, tagged.replay, tagged.status⟩
  · exact ord.spools seed present
  · rw [replaying_of_seed now, replaying_of_seed present]
  · rfl
  · intro other excuse
    rcases excuse with waiting | ⟨own, raised, why⟩
    · exact .inl waiting
    · cases now.symm.trans (barrier_eq_some.mp raised).1
      refine .inr ⟨seed, up, ?_⟩
      rcases why with stale | pending
      · exact .inl stale
      · right
        simp only at pending
        split_ifs at pending
        · cases pending
        · exact pending

end Orderly

end ConnOutbox

namespace ExportLengths

variable (lengths : ExportLengths) {tick : Nat} {key : PaneSeedKey}

def begun (tick : Nat) (key : PaneSeedKey) : PaneSeedReplay Stamp :=
  { key
    resetFrame := (lengths.snapshot tick key).resetFrame
    content := (lengths.snapshot tick key).content
    remaining := lengths.replay }

theorem exported_begun (framed : ∀ len, lengths.reset = some len → 0 < len) :
    (lengths.begun tick key).Exported tick lengths.replay where
  within := Nat.le_refl _
  content := fun _ => rfl
  reset := fun _ encoded => by
    rcases Option.map_eq_some_iff.mp encoded with ⟨len, given, rfl⟩
    exact ⟨rfl, framed len given⟩

theorem spool_begun {left : Nat} (some : 0 < left) (within : left ≤ lengths.replay) :
    (lengths.begun tick key).content left ∈ lengths.stamps tick key := by
  apply List.mem_cons_of_mem
  apply List.mem_map_of_mem
  exact List.mem_range.mpr (by omega)

theorem next_begun {stamp : Stamp} (member : stamp ∈ (lengths.begun tick key).next) :
    stamp ∈ lengths.stamps tick key := by
  unfold PaneSeedReplay.next at member
  rcases List.mem_append.mp member with reset | cut
  · rcases Option.map_eq_some_iff.mp (Option.mem_toList.mp reset) with ⟨frame, encoded, rfl⟩
    rcases Option.map_eq_some_iff.mp encoded with ⟨len, _, rfl⟩
    exact List.mem_cons_self
  · split_ifs at cut with empty
    · cases cut
    · rw [List.mem_singleton.mp cut]
      exact lengths.spool_begun (Nat.pos_of_ne_zero empty) (Nat.le_refl _)

theorem pairwise_begun (history : List Stamp) :
    (lengths.begun tick key).next.Pairwise (LaneOrder.InOrder Stamp.reading history) := by
  cases reset : lengths.reset with
  | none =>
      simp only [PaneSeedReplay.next, begun, snapshot, reset, Option.map_none, Option.toList_none,
        List.nil_append]
      split_ifs
      · exact List.Pairwise.nil
      · exact List.pairwise_singleton _ _
  | some len =>
      simp only [PaneSeedReplay.next, begun, snapshot, reset, Option.map_some, Option.toList_some]
      split_ifs
      · exact List.pairwise_singleton _ _
      · apply List.pairwise_pair.mpr
        exact fun _ _ => .inr (.inl ⟨rfl, _, _, rfl, rfl, Nat.succ_pos _⟩)

end ExportLengths

namespace ConnOutbox

namespace Orderly

variable {conn next : ConnOutbox Stamp} {written pushed : List Stamp} {clock : Nat}

/-- A pane begun now is replayed in front of all that was pushed since the barrier went up, and none
of that is its own. -/
theorem beginExported (ord : Orderly conn written pushed clock) (sound : conn.BarrierSound)
    {seed : AttachSeedState Stamp} {key : PaneSeedKey} {rest : List PaneSeedKey}
    (up : conn.barrier = some seed) (idle : seed.replay = none)
    (next : seed.pending = key :: rest) {lengths : ExportLengths}
    (framed : ∀ len, lengths.reset = some len → 0 < len) :
    Orderly (conn.beginPaneReplay key (some (lengths.snapshot clock key))) written
      (pushed ++ lengths.stamps clock key) (clock + 1) := by
  have present := (barrier_eq_some.mp up).1
  have raised := (barrier_eq_some.mp up).2
  have tagged := ord.seeds seed present
  have pending : seed.manifest key = some .pending := by
    apply ((sound.of_barrier up).waits raised key).mp
    rw [next]
    exact List.mem_cons_self
  have excuse : conn.Excused key := .inr ⟨seed, up, .inr pending⟩
  have now : (conn.beginPaneReplay key (some (lengths.snapshot clock key))).seed =
      some { seed with
        pending := seed.pending.tail
        manifest := fun other => if other = key then some .replaying else seed.manifest other
        replay := some (lengths.begun clock key) } := by
    simp only [ConnOutbox.beginPaneReplay, ConnOutbox.updateSeed, present, Option.map_some]
    rfl
  have flow : written ++ (conn.beginPaneReplay key (some (lengths.snapshot clock key))).stamps =
      (written ++ conn.outbox.map fun frame => frame.bytes.content) ++
        ((lengths.begun clock key).next ++
          conn.catchUpFrames.map fun frame => frame.bytes.content) := by
    rw [stamps_eq, replaying_of_seed now, catchUpFrames_of_seed now, catchUpFrames_of_seed present]
    rfl
  have before : written ++ conn.stamps =
      (written ++ conn.outbox.map fun frame => frame.bytes.content) ++
        conn.catchUpFrames.map fun frame => frame.bytes.content := by
    rw [stamps_eq, replaying_of_seed present, idle]
    rfl
  have held : (conn.beginPaneReplay key (some (lengths.snapshot clock key))).catchUpFrames =
      conn.catchUpFrames := by
    rw [catchUpFrames_of_seed now, catchUpFrames_of_seed present]
  have members : ∀ stamp ∈
      written ++ (conn.beginPaneReplay key (some (lengths.snapshot clock key))).stamps,
      stamp ∈ lengths.stamps clock key ∨ stamp ∈ written ++ conn.stamps := by
    intro stamp member
    rw [flow] at member
    rw [before]
    rcases List.mem_append.mp member with old | member
    · exact .inr (List.mem_append_left _ old)
    · rcases List.mem_append.mp member with own | behind
      · exact .inl (lengths.next_begun own)
      · exact .inr (List.mem_append_right _ behind)
  have excused : ∀ other,
      (conn.beginPaneReplay key (some (lengths.snapshot clock key))).Excused other →
        conn.Excused other := by
    intro other why
    rcases why with waiting | ⟨own, still, why⟩
    · exact .inl waiting
    · cases now.symm.trans (barrier_eq_some.mp still).1
      refine .inr ⟨seed, up, ?_⟩
      rcases why with stale | waits
      · exact .inl stale
      · right
        simp only at waits
        split_ifs at waits
        · cases waits
        · exact waits
  have apart := ord.resize_apart sound up pending
  -- No frame of the pane is left that a push could replace.
  have unkeyed : ∀ stamp ∈ conn.replaceable, stamp.key ≠ none →
      stamp.pane ≠ some key.presentation := by
    intro stamp member keyed shown
    rcases List.mem_append.mp member with queued | late
    · rcases List.mem_map.mp queued with ⟨frame, holds, rfl⟩
      have own := ord.outbox frame (mem_of_sheddable holds)
      have named : frame.pane = some key := by
        rw [own.pane, Stamp.transcript_of_key keyed, shown]
        exact Stamp.seedKey_presentation key
      exact keyed (own.replayed (ord.settledOutbox key excuse frame holds named))
    · exact apart stamp (List.mem_append_right _ late) shown
  exact
    { outbox := ord.outbox
      seeds := fun own changed => by
        cases now.symm.trans changed
        exact
          { catchUp := tagged.catchUp
            replay := fun _ current => by
              cases current
              exact ⟨clock, lengths.replay, lengths.exported_begun framed⟩
            status := tagged.status }
      past := fun stamp member => by
        rcases members stamp member with own | old
        · rw [(ExportLengths.shown_of_stamps own).1]
          exact Nat.lt_succ_self clock
        · exact (ord.past stamp old).trans (Nat.lt_succ_self clock)
      issued := fun stamp member => by
        rcases List.mem_append.mp member with old | own
        · exact (ord.issued stamp old).trans (Nat.lt_succ_self clock)
        · rw [(ExportLengths.shown_of_stamps own).1]
          exact Nat.lt_succ_self clock
      known := fun stamp member shown => by
        rcases members stamp member with own | old
        · exact List.mem_append_right _ own
        · exact List.mem_append_left _ (ord.known stamp old shown)
      spools := fun own changed _ current left some within => by
        cases now.symm.trans changed
        cases current
        exact List.mem_append_right _ (lengths.spool_begun some within)
      settledOutbox := fun other why => ord.settledOutbox other (excused other why)
      settledCatchUp := fun other why => by
        rw [held]
        exact ord.settledCatchUp other (excused other why)
      current := fun stamp member keyed snapshot issued isSnapshot same => by
        unfold replaceable at member
        rw [held] at member
        rcases List.mem_append.mp issued with old | own
        · exact ord.current stamp member keyed snapshot old isSnapshot same
        · have shown := (ExportLengths.shown_of_stamps own).2.1
          exact absurd (same.symm.trans shown) (unkeyed stamp member keyed)
      order := fun unspanned => by
        have ordered := ord.order unspanned.of_append
        have past := ord.past
        rw [before] at ordered past
        rw [flow]
        apply LaneOrder.pairwise_batch
        · apply LaneOrder.pairwise_grow ordered
          intro stamp own old member
          rw [show Stamp.reading.tick stamp = clock from (ExportLengths.shown_of_stamps own).1]
          exact past old member
        · exact lengths.pairwise_begun _
        · intro stamp own old member
          have issued := lengths.next_begun own
          rw [show Stamp.reading.tick stamp = clock from (ExportLengths.shown_of_stamps issued).1]
          exact past old (List.mem_append_left _ member)
        · intro stamp own later member same
          have shown := (ExportLengths.shown_of_stamps (lengths.next_begun own)).2.1
          exact absurd (same.symm.trans shown) (apart later (List.mem_append_right _ member)) }

theorem caughtUp (ord : Orderly conn written pushed clock) {seed : AttachSeedState Stamp}
    {front : CatchUpFrame Stamp} {rest : List (CatchUpFrame Stamp)} (up : conn.barrier = some seed)
    (idle : seed.replay = none) (queued : seed.catchUp = front :: rest) :
    Orderly (conn.caughtUp seed front) written pushed clock := by
  have present := (barrier_eq_some.mp up).1
  have tagged := ord.seeds seed present
  have held : conn.catchUpFrames = front :: rest := by
    rw [catchUpFrames_of_seed present, queued]
  have shown : conn.replaying = [] := by
    rw [replaying_of_seed present, idle]
    rfl
  have own : front.Tagged := by
    apply tagged.catchUp
    rw [queued]
    exact List.mem_cons_self
  have now : (conn.caughtUp seed front).seed = some (popCatchUp seed front.bytes.len) := by
    simp only [ConnOutbox.caughtUp, ConnOutbox.updateSeed, ConnOutbox.enqueued, charge, present,
      Option.map_some]
  have shorter : (popCatchUp seed front.bytes.len).catchUp = rest := by
    simp only [popCatchUp, queued]
  have same : (popCatchUp seed front.bytes.len).replay = none ∧
      (popCatchUp seed front.bytes.len).programStatusFrame = seed.programStatusFrame ∧
      (popCatchUp seed front.bytes.len).outdated = seed.outdated ∧
      (popCatchUp seed front.bytes.len).manifest = seed.manifest := by
    simp only [popCatchUp, queued, idle, and_self]
  have nextHeld : (conn.caughtUp seed front).catchUpFrames = rest := by
    rw [catchUpFrames_of_seed now, shorter]
  have flow : written ++ (conn.caughtUp seed front).stamps = written ++ conn.stamps := by
    rw [stamps_eq, stamps_eq, replaying_of_seed now, same.1, nextHeld, shown, held]
    simp [ConnOutbox.caughtUp, ConnOutbox.enqueued, ConnOutbox.updateSeed, charge]
  have sheddable : ∀ frame ∈ (conn.caughtUp seed front).sheddableOutbox,
      frame ∈ conn.sheddableOutbox ∨ frame = {
        bytes := front.bytes, frameClass := .seedCatchUp, pane := front.delta.outputPane
        replacement := front.replacement } :=
    fun frame member => mem_sheddable_enqueued member
  have excused : ∀ key, (conn.caughtUp seed front).Excused key → conn.Excused key := by
    intro key why
    rcases why with waiting | ⟨other, raised, why⟩
    · exact .inl waiting
    · cases now.symm.trans (barrier_eq_some.mp raised).1
      rw [same.2.2.1, same.2.2.2] at why
      exact .inr ⟨seed, up, why⟩
  exact
    { outbox := fun frame member => by
        rcases List.mem_append.mp member with old | new
        · exact ord.outbox frame old
        · rw [List.mem_singleton.mp new]
          exact
            { key := own.key
              pane := by rw [Stamp.transcript_of_delta own.live, own.delta]
              replayed := fun other => by cases other
              framed := own.framed }
      seeds := fun other changed => by
        cases now.symm.trans changed
        exact
          { catchUp := fun frame member => by
              rw [shorter] at member
              apply tagged.catchUp
              rw [queued]
              exact List.mem_cons_of_mem front member
            replay := fun replay current => by
              rw [same.1] at current
              cases current
            status := same.2.1 ▸ tagged.status }
      past := flow ▸ ord.past
      issued := ord.issued
      known := flow ▸ ord.known
      spools := fun other changed replay current => by
        cases now.symm.trans changed
        rw [same.1] at current
        cases current
      settledOutbox := fun key why frame member paned => by
        rcases sheddable frame member with old | rfl
        · exact ord.settledOutbox key (excused key why) frame old paned
        · have named : front.delta.pane = some key := pane_of_outputPane paned
          exact absurd named (ord.settledCatchUp key (excused key why) front
            (held ▸ List.mem_cons_self))
      settledCatchUp := fun key why frame member => by
        rw [nextHeld] at member
        exact ord.settledCatchUp key (excused key why) frame
          (held ▸ List.mem_cons_of_mem front member)
      current := fun stamp member => by
        rcases List.mem_append.mp member with outbox | late
        · rcases List.mem_map.mp outbox with ⟨frame, holds, rfl⟩
          rcases sheddable frame holds with old | rfl
          · exact ord.current _ (mem_replaceable_of_sheddable old)
          · exact ord.current _ (mem_replaceable_of_catchUp (held ▸ List.mem_cons_self))
        · rcases List.mem_map.mp late with ⟨frame, holds, rfl⟩
          rw [nextHeld] at holds
          exact ord.current _ (mem_replaceable_of_catchUp
            (held ▸ List.mem_cons_of_mem front holds))
      order := fun unspanned => flow ▸ ord.order unspanned }

/-- The panes outdated behind a barrier wait for a resync once it is queued. -/
theorem completeAttachBaseline (ord : Orderly conn written pushed clock)
    {seed : AttachSeedState Stamp} (up : conn.barrier = some seed) :
    Orderly (conn.completeAttachBaseline seed) written pushed clock := by
  have present := (barrier_eq_some.mp up).1
  have tagged := ord.seeds seed present
  have now : (conn.completeAttachBaseline seed).seed = some _ := rfl
  apply ord.reseeded up now rfl rfl
  · exact ⟨tagged.catchUp, tagged.replay, tagged.status⟩
  · exact ord.spools seed present
  · rw [replaying_of_seed present]
    exact List.Sublist.refl _
  · rfl
  · intro key why
    rcases why with waiting | ⟨other, raised, _⟩
    · rcases List.mem_union_iff.mp waiting with before | stale
      · exact .inl before
      · exact .inr ⟨seed, up, .inl stale⟩
    · cases (barrier_eq_some.mp raised).1
      cases (barrier_eq_some.mp raised).2

theorem startClientResync (ord : Orderly conn written pushed clock) (live : List PaneSeedKey) :
    Orderly (conn.startClientResync live) written pushed clock := by
  have emptied : Orderly { conn with resyncPending := [] } written pushed clock := by
    apply ord.shrink
    · exact fun _ member => member
    · exact ord.seeds
    · exact ord.spools
    · exact List.Sublist.refl _
    · exact fun _ member => member
    · exact fun _ member => member
    · intro key why
      rcases why with waiting | behind
      · cases waiting
      · exact .inl (.inr behind)
  rcases BarrierSound.startClientResync_cases conn live with same | ⟨_, next, _⟩ | ⟨free, next⟩
  · rw [same]
    exact ord
  · rw [next]
    exact emptied
  · rw [next]
    apply ord.shrink
    · exact fun _ member => member
    · intro seed begun
      cases begun
      exact
        { catchUp := fun _ none => absurd none List.not_mem_nil
          replay := fun _ none => by cases none
          status := fun _ none => by cases none }
    · intro seed begun replay current
      cases begun
      cases current
    · simp only [stamps, replaying, catchUpFrames, free, AttachSeedState.resync,
        AttachSeedState.begin, Option.elim_none, List.map_nil, List.append_nil, List.Sublist.refl]
    · exact fun _ member => member
    · intro frame none
      cases none
    · intro key why
      left
      rcases why with waiting | ⟨seed, raised, why⟩
      · cases waiting
      · cases (barrier_eq_some.mp raised).1
        rcases why with stale | pending
        · cases stale
        · by_cases stale : key ∈ conn.resyncPending.filter fun key => live.contains key
          · exact .inl (List.mem_filter.mp stale).1
          · simp only [AttachSeedState.resync, AttachSeedState.begin, if_neg stale,
              Option.none_or] at pending
            split_ifs at pending
            cases pending

theorem enqueueAttachSeeds (ord : Orderly conn written pushed clock) (free : conn.seed = none)
    (unlaned : ∀ frame ∈ conn.outbox, frame.bytes.content.pane = none)
    (panes statuses : List PaneSeedKey) :
    Orderly (conn.enqueueAttachSeeds panes statuses) written pushed clock := by
  apply ord.shrink
  · exact fun _ member => member
  · intro seed begun
    cases begun
    exact
      { catchUp := fun _ none => absurd none List.not_mem_nil
        replay := fun _ none => by cases none
        status := fun _ none => by cases none }
  · intro seed begun replay current
    cases begun
    cases current
  · simp only [stamps, replaying, catchUpFrames, free, ConnOutbox.enqueueAttachSeeds,
      AttachSeedState.begin, Option.elim_none, List.map_nil, List.append_nil, List.Sublist.refl]
  · exact fun _ member => member
  · intro frame none
    cases none
  · intro key _
    right
    constructor
    · intro frame member named
      have holds : frame ∈ conn.outbox := mem_of_sheddable member
      have shown := (ord.outbox frame holds).pane
      rw [named] at shown
      have laneless := unlaned frame holds
      unfold Stamp.transcript at shown
      split at shown
      · rw [laneless] at shown
        cases shown
      · rw [laneless] at shown
        cases shown
      all_goals cases shown
    · intro frame none
      cases none

theorem takeCompletedSeed (ord : Orderly conn written pushed clock) {seed : AttachSeedState Stamp}
    (completed : conn.takeCompletedSeed = some (seed, next)) :
    Orderly next written pushed clock := by
  rw [(takeCompletedSeed_some completed).2.2.2.2]
  apply ord.shrink
  · exact fun _ member => member
  · exact fun _ none => by cases none
  · exact fun _ none => by cases none
  · simp only [stamps, replaying, catchUpFrames, List.map_nil, List.append_nil]
    rw [List.append_assoc]
    exact List.sublist_append_left _ _
  · exact fun _ member => member
  · intro frame none
    cases none
  · intro key why
    rcases why with waiting | ⟨own, raised, _⟩
    · exact .inl (.inl waiting)
    · cases (barrier_eq_some.mp raised).1

theorem pumped (ord : Orderly conn written pushed clock) (past : 0 < clock)
    {seed : AttachSeedState Stamp} {input : PumpInput Stamp} (up : conn.barrier = some seed)
    (status : ∀ frame, input.statusFrame = some frame →
      frame.content = Outbound.control.stamp 0 ∧ 0 < frame.len)
    (outcome : PumpOutcome conn seed input none next) : Orderly next written pushed clock := by
  have tagged := ord.seeds seed (barrier_eq_some.mp up).1
  have source : ∀ frame, seed.programStatusFrame.or input.statusFrame = some frame →
      frame.content = Outbound.control.stamp 0 ∧ 0 < frame.len := by
    intro frame cut
    rcases Option.or_eq_some_iff.mp cut with cached | ⟨_, fresh⟩
    · exact tagged.status frame cached
    · exact status frame fresh
  cases outcome with
  | idle => exact ord
  | statusDone => exact ord.finishProgramStatusBaseline
  | statusCut cut => exact ord.cutProgramStatus (source _ cut).1 (source _ cut).2
  | statusSent cut _ =>
      have kept := ord.cutProgramStatus (source _ cut).1 (source _ cut).2
      have sent := kept.control (source _ cut).1 past (source _ cut).2 .seedReplay
      exact sent.finishProgramStatusBaseline
  | resetSent replaying reset _ => exact ord.resetSent up replaying reset
  | finished _ _ => exact ord.finishPaneReplay up
  | chunkSent replaying reset cut _ => exact ord.chunkSent up replaying reset cut
  | caughtUp idle _ queued _ => exact ord.caughtUp up idle queued
  | completed _ _ _ => exact ord.completeAttachBaseline up

theorem flushed (ord : Orderly conn written pushed clock) {front : OutboxFrame Stamp}
    {rest : List (OutboxFrame Stamp)} {bytes : Nat} (queued : conn.outbox = front :: rest)
    (outcome : FlushOutcome conn front rest bytes next) :
    Orderly next
      (written ++ if next.outboxBase = conn.outboxBase then [] else [front.bytes.content])
      pushed clock := by
  have frontTagged : front.Tagged := by
    apply ord.outbox
    rw [queued]
    exact List.mem_cons_self
  have restTagged : ∀ frame ∈ rest, frame.Tagged := by
    intro frame member
    apply ord.outbox
    rw [queued]
    exact List.mem_cons_of_mem front member
  cases outcome with
  | @advanced prepared ready _ =>
      have same : ({ conn with outbox := prepared :: rest }.wrote prepared bytes).stamps =
          conn.stamps := by
        unfold stamps
        rw [queued]
        simp [ConnOutbox.wrote, release, replaying, catchUpFrames, ready.content]
      have tagged : prepared.Tagged :=
        { key := by rw [ready.replacement, ready.content]; exact frontTagged.key
          pane := by rw [ready.pane, ready.content]; exact frontTagged.pane
          replayed := by rw [ready.frameClass, ready.content]; exact frontTagged.replayed
          framed := by rw [ready.len]; exact frontTagged.framed }
      have unmoved : ({ conn with outbox := prepared :: rest }.wrote prepared bytes).outboxBase =
          conn.outboxBase := rfl
      rw [if_pos unmoved, List.append_nil]
      exact
        { outbox := fun frame member => by
            rcases List.mem_cons.mp member with rfl | behind
            · exact tagged
            · exact restTagged frame behind
          seeds := ord.seeds
          past := same ▸ ord.past
          issued := ord.issued
          known := same ▸ ord.known
          spools := ord.spools
          settledOutbox := fun key why frame member paned => by
            have why : conn.Excused key := why.congr rfl rfl
            rcases mem_sheddable_wrote queued ready member with old | ⟨rfl, old⟩
            · exact ord.settledOutbox key why frame old paned
            · rw [ready.frameClass]
              exact ord.settledOutbox key why front old (ready.pane ▸ paned)
          settledCatchUp := fun key why => ord.settledCatchUp key (why.congr rfl rfl)
          current := fun stamp member => by
            rcases List.mem_append.mp member with outbox | late
            · rcases List.mem_map.mp outbox with ⟨frame, holds, rfl⟩
              rcases mem_sheddable_wrote queued ready holds with old | ⟨rfl, old⟩
              · exact ord.current _ (mem_replaceable_of_sheddable old)
              · rw [ready.content]
                exact ord.current _ (mem_replaceable_of_sheddable old)
            · exact ord.current stamp (List.mem_append_right _ late)
          order := same ▸ ord.order }
  | @popped prepared ready _ _ =>
      have moved : ¬ conn.outboxBase + 1 = conn.outboxBase := by omega
      have popped : ({ ({ conn with outbox := prepared :: rest }.wrote prepared
          bytes).popOutboxFront with frontOffset := 0 } : ConnOutbox Stamp).outbox = rest := rfl
      have same : (written ++ [front.bytes.content]) ++
          ({ ({ conn with outbox := prepared :: rest }.wrote prepared bytes).popOutboxFront with
            frontOffset := 0 } : ConnOutbox Stamp).stamps = written ++ conn.stamps := by
        unfold stamps
        rw [queued]
        simp [ConnOutbox.wrote, popOutboxFront, release, replaying, catchUpFrames]
      change Orderly _ (written ++ if conn.outboxBase + 1 = conn.outboxBase then [] else
        [front.bytes.content]) pushed clock
      rw [if_neg moved]
      exact
        { outbox := restTagged
          seeds := ord.seeds
          past := same ▸ ord.past
          issued := ord.issued
          known := same ▸ ord.known
          spools := ord.spools
          settledOutbox := fun key why frame member =>
            ord.settledOutbox key (why.congr rfl rfl) frame
              (mem_sheddable_popped queued popped member)
          settledCatchUp := fun key why => ord.settledCatchUp key (why.congr rfl rfl)
          current := fun stamp member => by
            rcases List.mem_append.mp member with outbox | late
            · rcases List.mem_map.mp outbox with ⟨frame, holds, rfl⟩
              exact ord.current _
                (mem_replaceable_of_sheddable (mem_sheddable_popped queued popped holds))
            · exact ord.current stamp (List.mem_append_right _ late)
          order := same ▸ ord.order }

end Orderly

end ConnOutbox

end Rozi
