import Rozi.Session.OutboxOutcome

/-!
The byte counters of a connection are exact in every run, no subtraction goes below zero, and the
replacement indexes never point past their queues.
-/

namespace Rozi

open ReplacementQueue QueueBytes

variable {ω : Type}

def OutboxFrame.len (frame : OutboxFrame ω) : Nat := frame.bytes.len

def CatchUpFrame.len (frame : CatchUpFrame ω) : Nat := frame.bytes.len

def OutboxFrame.ofClass (counted : OutboxClass) (frame : OutboxFrame ω) : Bool :=
  frame.frameClass == counted

def frontShare (test : OutboxFrame ω → Bool) (offset : Nat) : List (OutboxFrame ω) → Nat
  | [] => 0
  | front :: _ => if test front then offset else 0

/-- `counter` is what is left to write of the frames that pass the test. -/
def Counts (test : OutboxFrame ω → Bool) (counter offset : Nat) (frames : List (OutboxFrame ω)) :
    Prop :=
  counter + frontShare test offset frames = bytesWhere OutboxFrame.len test frames

/-- Only a nonempty outbox has a started front, and what was written of it is not all of it. -/
def FrontSound (offset : Nat) (frames : List (OutboxFrame ω)) : Prop :=
  offset = 0 ∨ ∃ front rest, frames = front :: rest ∧ offset < front.len

section counts

variable {test : OutboxFrame ω → Bool} {counter offset : Nat} {frames : List (OutboxFrame ω)}

theorem frontShare_zero (test : OutboxFrame ω → Bool) (frames : List (OutboxFrame ω)) :
    frontShare test 0 frames = 0 := by
  cases frames with
  | nil => rfl
  | cons front rest => simp [frontShare]

theorem Counts.append (counts : Counts test counter offset frames)
    (front : FrontSound offset frames) (frame : OutboxFrame ω) :
    Counts test (counter + if test frame then frame.len else 0) offset (frames ++ [frame]) := by
  have same : frontShare test offset (frames ++ [frame]) = frontShare test offset frames := by
    rcases front with rfl | ⟨first, rest, rfl, _⟩
    · rw [frontShare_zero, frontShare_zero]
    · rfl
  unfold Counts at counts ⊢
  rw [same, bytesWhere_append, bytesWhere_cons, bytesWhere_nil]
  omega

theorem FrontSound.append (front : FrontSound offset frames) (frame : OutboxFrame ω) :
    FrontSound offset (frames ++ [frame]) := by
  rcases front with zero | ⟨first, rest, rfl, started⟩
  · exact .inl zero
  · exact .inr ⟨first, rest ++ [frame], rfl, started⟩

theorem frontShare_set {position : Nat} {new : OutboxFrame ω}
    (unstarted : position ≠ 0 ∨ offset = 0) :
    frontShare test offset (frames.set position new) = frontShare test offset frames := by
  rcases unstarted with behind | zero
  · cases frames with
    | nil => rfl
    | cons front rest =>
        cases position with
        | zero => exact absurd rfl behind
        | succ position => rfl
  · rw [zero, frontShare_zero, frontShare_zero]

theorem Counts.le_of_get (counts : Counts test counter offset frames)
    (front : FrontSound offset frames) {position : Nat} {old : OutboxFrame ω}
    (present : frames[position]? = some old) (unstarted : position ≠ 0 ∨ offset = 0) :
    (if test old then old.len else 0) ≤ counter := by
  by_cases passes : test old = true
  · rw [if_pos passes]
    unfold Counts at counts
    rcases front with zero | ⟨first, rest, rfl, started⟩
    · have bound := size_le_bytesWhere OutboxFrame.len test present passes
      rw [zero, frontShare_zero] at counts
      omega
    · cases position with
      | zero =>
          have zero : offset = 0 := unstarted.resolve_left (fun behind => behind rfl)
          have bound := size_le_bytesWhere OutboxFrame.len test present passes
          rw [zero, frontShare_zero] at counts
          omega
      | succ position =>
          have tail : rest[position]? = some old := by simpa using present
          have bound := size_le_bytesWhere OutboxFrame.len test tail passes
          rw [bytesWhere_cons] at counts
          simp only [frontShare] at counts
          split_ifs at counts <;> omega
  · simp [passes]

theorem Counts.set (counts : Counts test counter offset frames) (front : FrontSound offset frames)
    {position : Nat} {old : OutboxFrame ω} (new : OutboxFrame ω)
    (present : frames[position]? = some old) (unstarted : position ≠ 0 ∨ offset = 0)
    (same : test new = test old) :
    Counts test (counter - (if test old then old.len else 0) + if test old then new.len else 0)
      offset (frames.set position new) := by
  have bound := counts.le_of_get front present unstarted
  have moved := bytesWhere_set OutboxFrame.len test present same
  unfold Counts at counts ⊢
  rw [frontShare_set unstarted]
  omega

theorem FrontSound.set (front : FrontSound offset frames) {position : Nat} {new : OutboxFrame ω}
    (unstarted : position ≠ 0 ∨ offset = 0) : FrontSound offset (frames.set position new) := by
  rcases unstarted with behind | zero
  · rcases front with zero | ⟨first, rest, rfl, started⟩
    · exact .inl zero
    · cases position with
      | zero => exact absurd rfl behind
      | succ position => exact .inr ⟨first, rest.set position new, rfl, started⟩
  · exact .inl zero

theorem Counts.purge {pinned behind : List (OutboxFrame ω)}
    (counts : Counts test counter offset (pinned ++ behind))
    (front : FrontSound offset (pinned ++ behind)) (unpinned : pinned = [] → offset = 0)
    (kept : OutboxFrame ω → Bool) :
    bytesWhere OutboxFrame.len test (behind.filter fun frame => !kept frame) ≤ counter ∧
      Counts test
        (counter - bytesWhere OutboxFrame.len test (behind.filter fun frame => !kept frame))
        offset (pinned ++ behind.filter kept) := by
  have parts := bytesWhere_filter_add OutboxFrame.len test kept behind
  unfold Counts at counts ⊢
  rw [bytesWhere_append] at counts ⊢
  cases pinned with
  | nil =>
      rw [unpinned rfl, frontShare_zero] at counts ⊢
      rw [bytesWhere_nil] at counts ⊢
      omega
  | cons first rest =>
      rw [bytesWhere_cons] at counts ⊢
      have share : frontShare test offset (first :: rest ++ behind.filter kept) ≤
          if test first then first.len else 0 := by
        rcases front with zero | ⟨own, tail, same, started⟩
        · rw [zero, frontShare_zero]
          omega
        · have head : first = own := (List.cons.inj same).1
          subst head
          simp only [List.cons_append, frontShare]
          split_ifs <;> omega
      have same : frontShare test offset (first :: rest ++ behind.filter kept) =
          frontShare test offset (first :: rest ++ behind) := rfl
      rw [same] at share ⊢
      omega

theorem FrontSound.purge {pinned behind : List (OutboxFrame ω)}
    (front : FrontSound offset (pinned ++ behind)) (unpinned : pinned = [] → offset = 0)
    (kept : OutboxFrame ω → Bool) : FrontSound offset (pinned ++ behind.filter kept) := by
  cases pinned with
  | nil => exact .inl (unpinned rfl)
  | cons first rest =>
      rcases front with zero | ⟨own, tail, same, started⟩
      · exact .inl zero
      · have head : first = own := (List.cons.inj same).1
        subst head
        exact .inr ⟨first, rest ++ behind.filter kept, rfl, started⟩

theorem Counts.write {front : OutboxFrame ω} {rest : List (OutboxFrame ω)} {written : Nat}
    (counts : Counts test counter offset (front :: rest)) (room : written + offset ≤ front.len) :
    (if test front then written else 0) ≤ counter ∧
      Counts test (counter - if test front then written else 0) (offset + written)
        (front :: rest) := by
  unfold Counts at counts ⊢
  rw [bytesWhere_cons] at counts ⊢
  simp only [frontShare] at counts ⊢
  split_ifs at counts ⊢ <;> omega

theorem Counts.pop {front : OutboxFrame ω} {rest : List (OutboxFrame ω)}
    (counts : Counts test counter offset (front :: rest)) (finished : offset = front.len) :
    Counts test counter 0 rest := by
  unfold Counts at counts ⊢
  rw [bytesWhere_cons] at counts
  simp only [frontShare] at counts
  rw [frontShare_zero]
  split_ifs at counts <;> omega

end counts

structure AttachSeedState.Accounted (seed : AttachSeedState ω) : Prop where
  bytes : seed.catchUpBytes = bytesWhere CatchUpFrame.len (fun _ => true) seed.catchUp
  indexed : IndexSound CatchUpFrame.replacement seed.catchUpBase seed.catchUp
    seed.catchUpReplacements

namespace ConnOutbox

/-- Every counter is exact, the backlog is within its cap, the indexes are sound and no
subtraction has gone below zero. -/
structure Accounted (conn : ConnOutbox ω) : Prop where
  total : Counts (fun _ => true) conn.outboxBytes conn.frontOffset conn.outbox
  replay : Counts (OutboxFrame.ofClass .seedReplay) conn.seedQueuedBytes conn.frontOffset
    conn.outbox
  catchUp : Counts (OutboxFrame.ofClass .seedCatchUp) conn.seedCatchUpQueuedBytes
    conn.frontOffset conn.outbox
  front : FrontSound conn.frontOffset conn.outbox
  capped : conn.outboxBytes ≤ maxBacklog
  indexed : IndexSound OutboxFrame.replacement conn.outboxBase conn.outbox
    conn.outboxReplacements
  seeds : ∀ seed, conn.seed = some seed → seed.Accounted
  opened : conn.transportClosed = false
  calm : conn.panicked = false

variable {conn : ConnOutbox ω}

theorem classShare_eq (counted : OutboxClass) (frame : OutboxFrame ω) (bytes : Nat) :
    classShare counted frame.frameClass bytes =
      if frame.ofClass counted then bytes else 0 := by
  simp [classShare, OutboxFrame.ofClass]

theorem release_calm {total replay catchUp : Nat} (calm : conn.panicked = false)
    (totalLe : total ≤ conn.outboxBytes) (replayLe : replay ≤ conn.seedQueuedBytes)
    (catchUpLe : catchUp ≤ conn.seedCatchUpQueuedBytes) :
    (conn.release total replay catchUp).panicked = false := by
  simp only [release, calm, Bool.false_or, Bool.or_eq_false_iff, decide_eq_false_iff_not]
  omega

theorem unstarted_offset (position : Nat)
    (unstarted : position ≠ 0 ∨ conn.frontStarted = false) :
    position ≠ 0 ∨ conn.frontOffset = 0 := by
  rcases unstarted with behind | fresh
  · exact .inl behind
  · right
    simp only [frontStarted, Bool.or_eq_false_iff, decide_eq_false_iff_not] at fresh
    omega

namespace Accounted

theorem empty : Accounted ({} : ConnOutbox ω) where
  total := rfl
  replay := rfl
  catchUp := rfl
  front := .inl rfl
  capped := Nat.zero_le _
  indexed := .empty 0
  seeds := fun _ none => by cases none
  opened := rfl
  calm := rfl

theorem reseed (acc : conn.Accounted) {seed : Option (AttachSeedState ω)}
    (ok : ∀ own, seed = some own → own.Accounted) :
    Accounted { conn with seed } :=
  { acc with seeds := ok }

theorem updateSeed (acc : conn.Accounted) {change : AttachSeedState ω → AttachSeedState ω}
    (keeps : ∀ seed : AttachSeedState ω, seed.Accounted → (change seed).Accounted) :
    (conn.updateSeed change).Accounted := by
  apply acc.reseed
  intro own changed
  rcases Option.map_eq_some_iff.mp changed with ⟨seed, present, rfl⟩
  exact keeps seed (acc.seeds seed present)

theorem enqueued (acc : conn.Accounted) {bytes : EncodedOutput ω} (frameClass : OutboxClass)
    (pane : Option PaneSeedKey) (replacement : Option ReplacementKey)
    (room : conn.outboxBytes + bytes.len ≤ maxBacklog) :
    (conn.enqueued bytes frameClass pane replacement).Accounted where
  total := acc.total.append acc.front { bytes, frameClass, pane, replacement }
  replay := by
    have counts := acc.replay.append acc.front { bytes, frameClass, pane, replacement }
    rw [← classShare_eq] at counts
    exact counts
  catchUp := by
    have counts := acc.catchUp.append acc.front { bytes, frameClass, pane, replacement }
    rw [← classShare_eq] at counts
    exact counts
  front := acc.front.append _
  capped := room
  indexed := by
    cases replacement with
    | none => exact acc.indexed.push_plain rfl
    | some key => exact acc.indexed.push_keyed rfl
  seeds := acc.seeds
  opened := acc.opened
  calm := acc.calm

theorem replacedAt (acc : conn.Accounted) {position : Nat} {frame : OutboxFrame ω}
    {bytes : EncodedOutput ω} (present : conn.outbox[position]? = some frame)
    (unstarted : position ≠ 0 ∨ conn.frontStarted = false)
    (room : conn.outboxBytes - frame.bytes.len + bytes.len ≤ maxBacklog) :
    (conn.replacedAt position frame bytes).Accounted := by
  have fresh := unstarted_offset position unstarted
  have replayLe := acc.replay.le_of_get acc.front present fresh
  have catchUpLe := acc.catchUp.le_of_get acc.front present fresh
  have replay := acc.replay.set acc.front { frame with bytes } present fresh rfl
  have catchUp := acc.catchUp.set acc.front { frame with bytes } present fresh rfl
  rw [← classShare_eq] at replayLe catchUpLe
  rw [← classShare_eq, ← classShare_eq] at replay catchUp
  exact
    { total := acc.total.set acc.front { frame with bytes } present fresh rfl
      replay := replay
      catchUp := catchUp
      front := acc.front.set fresh
      capped := room
      indexed := acc.indexed.replace present rfl
      seeds := acc.seeds
      opened := acc.opened
      calm := release_calm acc.calm (acc.total.le_of_get acc.front present fresh) replayLe
        catchUpLe }

theorem unpinned (acc : conn.Accounted) (none : conn.pinnedOutbox = []) :
    conn.frontOffset = 0 := by
  rcases acc.front with zero | ⟨first, rest, queued, _⟩
  · exact zero
  · by_cases started : conn.frontStarted = true
    · simp [pinnedOutbox, started, queued] at none
    · simp only [frontStarted, Bool.or_eq_true, not_or, decide_eq_true_eq] at started
      omega

theorem purgeOutboxPane (acc : conn.Accounted) (key : PaneSeedKey) :
    (conn.purgeOutboxPane key).1.Accounted := by
  have parts := pinned_append_sheddable conn
  have front := acc.front
  have total := acc.total
  have replay := acc.replay
  have catchUp := acc.catchUp
  rw [← parts] at front total replay catchUp
  have total := total.purge front acc.unpinned (conn.survivesPurge key)
  have replay := replay.purge front acc.unpinned (conn.survivesPurge key)
  have catchUp := catchUp.purge front acc.unpinned (conn.survivesPurge key)
  exact
    { total := total.2
      replay := replay.2
      catchUp := catchUp.2
      front := front.purge acc.unpinned (conn.survivesPurge key)
      capped := (Nat.sub_le _ _).trans acc.capped
      indexed := .rebuilt _ _
      seeds := acc.seeds
      opened := acc.opened
      calm := release_calm acc.calm total.1 replay.1 catchUp.1 }

end Accounted

theorem purgeCatchUpPane_accounted {seed : AttachSeedState ω} (acc : seed.Accounted)
    (key : PaneSeedKey) :
    (purgeCatchUpPane seed key).2 ≤ seed.catchUpBytes ∧
      (purgeCatchUpPane seed key).1.Accounted := by
  have parts := bytesWhere_filter_add CatchUpFrame.len (fun _ => true)
    (fun frame => frame.delta.pane != some key) seed.catchUp
  have freed : (purgeCatchUpPane seed key).2 = bytesWhere CatchUpFrame.len (fun _ => true)
      (seed.catchUp.filter fun frame => !(frame.delta.pane != some key)) := by
    have every : ∀ frames : List (CatchUpFrame ω), frames.filter (fun _ => true) = frames :=
      fun frames => List.filter_eq_self.mpr fun _ _ => rfl
    simp only [purgeCatchUpPane, bytesWhere, bne, Bool.not_not, every]
    rfl
  have bytes := acc.bytes
  constructor
  · omega
  · constructor
    · change seed.catchUpBytes - (purgeCatchUpPane seed key).2 = _
      change _ = bytesWhere CatchUpFrame.len (fun _ => true)
        (seed.catchUp.filter fun frame => frame.delta.pane != some key)
      omega
    · exact .rebuilt _ _

namespace Accounted

theorem shedPane (acc : conn.Accounted) (key : PaneSeedKey) : (conn.shedPane key).Accounted := by
  have purged := acc.purgeOutboxPane key
  cases up : conn.barrier with
  | none =>
      rw [shedPane_live key up]
      exact { purged with }
  | some seed =>
      have seedAcc := purgeCatchUpPane_accounted
        (acc.seeds seed (barrier_eq_some.mp up).1) key
      rw [shedPane_behind key up]
      exact { purged with
        seeds := fun own present => Option.some.inj present ▸ seedAcc.2
        calm := by
          change ((conn.purgeOutboxPane key).1.panicked || _) = false
          rw [purged.calm, Bool.false_or, decide_eq_false_iff_not]
          exact Nat.not_lt.mpr seedAcc.1 }

theorem sheds (acc : conn.Accounted) {last : ConnOutbox ω} (sheds : Sheds conn last) :
    last.Accounted :=
  sheds.induct (fun _ key acc _ => acc.shedPane key) acc

theorem ignoring (acc : conn.Accounted) (bytes : EncodedOutput ω) :
    (conn.ignoring bytes).1.Accounted :=
  { acc with }

theorem overflowing (acc : conn.Accounted) (reason : String) :
    (conn.overflowing reason).1.Accounted :=
  acc.updateSeed fun _ seedAcc => ⟨seedAcc.bytes, seedAcc.indexed⟩

theorem live (acc : conn.Accounted) {bytes : EncodedOutput ω} {delta : SeedDelta}
    {replacement : Option ReplacementKey} {result : ConnOutbox ω × ClientFrameResult}
    (outcome : LiveOutcome conn bytes delta maxBacklog replacement result) :
    result.1.Accounted := by
  cases outcome with
  | behind _ _ => exact acc.ignoring bytes
  | replaced found =>
      rcases replaceOutbox_some acc.indexed found with
        ⟨_, position, frame, _, present, _, _, unstarted, room, rfl⟩
      exact acc.replacedAt present unstarted room
  | queued shed _ room => exact (acc.sheds shed).enqueued _ _ _ room
  | starved shed _ _ => exact { acc.sheds shed with }
  | shedSelf shed _ _ => exact ((acc.sheds shed).shedPane _).ignoring bytes
  | overflowed shed reason => exact (acc.sheds shed).overflowing reason

theorem replacedCatchUp (acc : conn.Accounted) {seed : AttachSeedState ω}
    (seedAcc : seed.Accounted) {position : Nat} {old new : CatchUpFrame ω}
    (present : seed.catchUp[position]? = some old) (same : new.replacement = old.replacement) :
    (conn.replacedCatchUp seed position old new).Accounted := by
  have counted := seedAcc.bytes
  have bound := size_le_bytesWhere CatchUpFrame.len (fun _ => true) present rfl
  have moved : bytesWhere CatchUpFrame.len (fun _ => true) (seed.catchUp.set position new) +
      (if true then old.len else 0) =
      bytesWhere CatchUpFrame.len (fun _ => true) seed.catchUp + (if true then new.len else 0) :=
    bytesWhere_set CatchUpFrame.len (fun _ => true) present rfl
  have fits : old.bytes.len ≤ seed.catchUpBytes := by
    rw [counted]
    exact bound
  have next : AttachSeedState.Accounted { seed with
      catchUp := seed.catchUp.set position new
      catchUpBytes := seed.catchUpBytes - old.bytes.len + new.bytes.len } := by
    constructor
    · simp only [if_true, CatchUpFrame.len] at moved counted ⊢
      omega
    · exact seedAcc.indexed.replace present same
  exact { acc with
    seeds := fun own replaced => Option.some.inj replaced ▸ next
    calm := by
      change (conn.panicked || _) = false
      rw [acc.calm, Bool.false_or, decide_eq_false_iff_not]
      omega }

theorem appendCatchUp (acc : conn.Accounted) {seed : AttachSeedState ω}
    (seedAcc : seed.Accounted) (bytes : EncodedOutput ω) (delta : SeedDelta)
    (replacement : Option ReplacementKey) :
    (conn.appendCatchUp seed bytes delta replacement).Accounted := by
  apply acc.reseed
  intro own appended
  cases appended
  constructor
  · change seed.catchUpBytes + bytes.len = _
    rw [seedAcc.bytes, bytesWhere_append, bytesWhere_cons, bytesWhere_nil]
    rfl
  · cases replacement with
    | none => exact seedAcc.indexed.push_plain rfl
    | some key => exact seedAcc.indexed.push_keyed rfl

theorem late (acc : conn.Accounted) {bytes : EncodedOutput ω} {delta : SeedDelta}
    {replacement : Option ReplacementKey} {result : ConnOutbox ω × ClientFrameResult}
    (outcome : CatchUpOutcome conn bytes delta replacement result) : result.1.Accounted := by
  cases outcome with
  | outdated shed _ _ _ => exact (acc.sheds shed).ignoring bytes
  | replaced shed up _ found =>
      have shedAcc := acc.sheds shed
      have seedAcc := shedAcc.seeds _ (barrier_eq_some.mp up).1
      rcases replaceCatchUp_some seedAcc.indexed found with
        ⟨_, position, frame, keyed, present, own, _, rfl⟩
      exact shedAcc.replacedCatchUp seedAcc present (keyed.trans own.symm)
  | buffered shed up _ _ =>
      have shedAcc := acc.sheds shed
      exact shedAcc.appendCatchUp (shedAcc.seeds _ (barrier_eq_some.mp up).1) bytes delta
        replacement
  | shedSelf shed _ _ => exact ((acc.sheds shed).shedPane _).ignoring bytes
  | overflowed shed reason => exact (acc.sheds shed).overflowing reason

theorem pushed (acc : conn.Accounted) {bytes : EncodedOutput ω} {delta : SeedDelta}
    {replacement : Option ReplacementKey} {result : ConnOutbox ω × ClientFrameResult}
    (outcome : PushOutcome conn bytes delta maxBacklog replacement result) :
    result.1.Accounted := by
  cases outcome with
  | precedes _ _ _ => exact acc
  | live _ outcome => exact acc.live outcome
  | late _ _ outcome => exact acc.late outcome

theorem pushDelta (acc : conn.Accounted) (bytes : EncodedOutput ω) (delta : SeedDelta)
    (replacement : Option ReplacementKey) (mediaWithinBudget : Bool) :
    (conn.pushDelta bytes delta maxBacklog replacement mediaWithinBudget).1.Accounted := by
  have pushed := acc.pushed (pushDeltaInner_outcome acc.opened bytes delta maxBacklog replacement)
  unfold ConnOutbox.pushDelta
  simp only
  split_ifs <;> exact pushed

theorem tryPushClass (acc : conn.Accounted) {bytes : EncodedOutput ω} {cap : Nat}
    {frameClass : OutboxClass} {pane : Option PaneSeedKey} {pushed : ConnOutbox ω}
    (capLe : cap ≤ maxBacklog)
    (fits : conn.tryPushClass bytes cap frameClass pane = some pushed) : pushed.Accounted := by
  rcases tryPushClass_some acc.opened fits with ⟨room, rfl⟩
  exact acc.enqueued _ _ _ (room.trans capLe)

theorem enqueueAttachSeeds (acc : conn.Accounted) (panes statuses : List PaneSeedKey) :
    (conn.enqueueAttachSeeds panes statuses).Accounted := by
  apply acc.reseed
  intro own begun
  cases begun
  exact ⟨rfl, .empty 0⟩

theorem startClientResync (acc : conn.Accounted) (live : List PaneSeedKey) :
    (conn.startClientResync live).Accounted := by
  unfold ConnOutbox.startClientResync
  simp only
  split_ifs with waits gone
  · exact acc
  · exact { acc with }
  · have cleared : { conn with resyncPending := [] }.Accounted := { acc with }
    apply cleared.reseed
    intro own begun
    cases begun
    exact ⟨rfl, .empty 0⟩

theorem caughtUp (acc : conn.Accounted) {seed : AttachSeedState ω} {front : CatchUpFrame ω}
    {rest : List (CatchUpFrame ω)} (up : conn.barrier = some seed)
    (queued : seed.catchUp = front :: rest)
    (room : conn.outboxBytes + front.bytes.len ≤ maxBacklog) :
    (conn.caughtUp seed front).Accounted := by
  have present := (barrier_eq_some.mp up).1
  have seedAcc := acc.seeds seed present
  have sent := acc.enqueued .seedCatchUp front.delta.outputPane front.replacement room
  have counted := seedAcc.bytes
  rw [queued, bytesWhere_cons, if_pos rfl] at counted
  have popped : (popCatchUp seed front.bytes.len).Accounted := by
    have indexed := seedAcc.indexed
    rw [queued] at indexed
    simp only [popCatchUp, queued]
    constructor
    · simp only [CatchUpFrame.len] at counted ⊢
      omega
    · exact indexed.pop
  exact { sent with
    seeds := by
      intro own moved
      rcases Option.map_eq_some_iff.mp moved with ⟨before, same, rfl⟩
      have identical : seed = before := Option.some.inj (present.symm.trans same)
      exact identical ▸ popped
    calm := by
      change ((conn.enqueued front.bytes .seedCatchUp front.delta.outputPane
        front.replacement).panicked || _) = false
      rw [sent.calm, Bool.false_or, decide_eq_false_iff_not]
      simp only [CatchUpFrame.len] at counted
      omega }

theorem beginPaneReplay (acc : conn.Accounted) (key : PaneSeedKey)
    (snapshot : Option (PaneSnapshot ω)) : (conn.beginPaneReplay key snapshot).Accounted := by
  apply acc.updateSeed
  intro seed seedAcc
  cases snapshot with
  | none => exact ⟨seedAcc.bytes, seedAcc.indexed⟩
  | some snapshot => exact ⟨seedAcc.bytes, seedAcc.indexed⟩

theorem completeAttachBaseline (acc : conn.Accounted) {seed : AttachSeedState ω}
    (up : conn.barrier = some seed) : (conn.completeAttachBaseline seed).Accounted := by
  have seedAcc := acc.seeds seed (barrier_eq_some.mp up).1
  exact { acc with
    seeds := by
      intro own completed
      cases completed
      exact ⟨seedAcc.bytes, seedAcc.indexed⟩ }

theorem pumped (acc : conn.Accounted) {seed : AttachSeedState ω} {input : PumpInput ω}
    {begun : Option PaneSeedKey} {next : ConnOutbox ω} (up : conn.barrier = some seed)
    (outcome : PumpOutcome conn seed input begun next) : next.Accounted := by
  cases outcome with
  | idle => exact acc
  | statusDone => exact acc.updateSeed fun _ kept => ⟨kept.bytes, kept.indexed⟩
  | statusCut _ => exact acc.updateSeed fun _ kept => ⟨kept.bytes, kept.indexed⟩
  | @statusSent frame _ room =>
      have cut : (conn.cutProgramStatus frame).Accounted :=
        acc.updateSeed fun _ kept => ⟨kept.bytes, kept.indexed⟩
      exact (cut.enqueued _ _ _ room).updateSeed fun _ kept => ⟨kept.bytes, kept.indexed⟩
  | resetSent _ _ room =>
      exact (acc.enqueued _ _ _ room).updateSeed fun _ kept => ⟨kept.bytes, kept.indexed⟩
  | finished _ _ => exact acc.updateSeed fun _ kept => ⟨kept.bytes, kept.indexed⟩
  | chunkSent _ _ _ room =>
      exact (acc.enqueued _ _ _ room).updateSeed fun _ kept => ⟨kept.bytes, kept.indexed⟩
  | began _ _ => exact acc.beginPaneReplay _ _
  | caughtUp _ _ queued room => exact acc.caughtUp up queued room
  | completed _ _ _ => exact acc.completeAttachBaseline up

theorem pumpWork (acc : conn.Accounted) (input : PumpInput ω) :
    (conn.pumpWork input).Accounted := by
  cases up : conn.barrier with
  | none =>
      unfold ConnOutbox.pumpWork
      rw [up]
      exact acc
  | some seed => exact acc.pumped up (pumpWork_outcome acc.opened acc.capped up input)

/-- Handing over the files of the front frame changes nothing that is counted. -/
theorem prepared (acc : conn.Accounted) {front ready : OutboxFrame ω}
    {rest : List (OutboxFrame ω)} (queued : conn.outbox = front :: rest)
    (isReady : conn.Prepared front ready) :
    Accounted { conn with outbox := ready :: rest } := by
  have same : ∀ test : OutboxFrame ω → Bool, test ready = test front →
      bytesWhere OutboxFrame.len test (ready :: rest) =
        bytesWhere OutboxFrame.len test (front :: rest) := by
    intro test alike
    rw [bytesWhere_cons, bytesWhere_cons, alike]
    simp only [OutboxFrame.len, isReady.len]
  have counts : ∀ (test : OutboxFrame ω → Bool) (counter : Nat), test ready = test front →
      Counts test counter conn.frontOffset conn.outbox →
      Counts test counter conn.frontOffset (ready :: rest) := by
    intro test counter alike counted
    unfold Counts at counted ⊢
    rw [same test alike, ← queued, ← counted, queued]
    simp only [frontShare, alike]
  have ofClass : ∀ counted, ready.ofClass counted = front.ofClass counted := by
    intro counted
    simp only [OutboxFrame.ofClass, isReady.frameClass]
  exact { acc with
    total := counts _ _ rfl acc.total
    replay := counts _ _ (ofClass _) acc.replay
    catchUp := counts _ _ (ofClass _) acc.catchUp
    front := by
      rcases acc.front with zero | ⟨first, tail, shape, started⟩
      · exact .inl zero
      · have head : front = first := (List.cons.inj (queued.symm.trans shape)).1
        refine .inr ⟨ready, rest, rfl, ?_⟩
        simpa only [OutboxFrame.len, isReady.len, head] using started
    indexed := by
      have present : conn.outbox[0]? = some front := by rw [queued]; rfl
      have replaced := acc.indexed.replace present isReady.replacement
      rw [queued] at replaced
      exact replaced }

theorem wroteCounts (acc : conn.Accounted) {front : OutboxFrame ω} {rest : List (OutboxFrame ω)}
    (queued : conn.outbox = front :: rest) {written : Nat}
    (room : written + conn.frontOffset ≤ front.len) :
    Counts (fun _ => true) (conn.wrote front written).outboxBytes (conn.frontOffset + written)
        (front :: rest) ∧
      Counts (OutboxFrame.ofClass .seedReplay) (conn.wrote front written).seedQueuedBytes
        (conn.frontOffset + written) (front :: rest) ∧
      Counts (OutboxFrame.ofClass .seedCatchUp) (conn.wrote front written).seedCatchUpQueuedBytes
        (conn.frontOffset + written) (front :: rest) ∧
      (conn.wrote front written).panicked = false := by
  have total := acc.total
  have replay := acc.replay
  have catchUp := acc.catchUp
  rw [queued] at total replay catchUp
  have total := total.write room
  have replay := replay.write room
  have catchUp := catchUp.write room
  rw [← classShare_eq] at replay catchUp
  exact ⟨total.2, replay.2, catchUp.2, release_calm acc.calm total.1 replay.1 catchUp.1⟩

theorem flushed (acc : conn.Accounted) {front : OutboxFrame ω} {rest : List (OutboxFrame ω)}
    (queued : conn.outbox = front :: rest) {written : Nat}
    (room : written ≤ front.len - conn.frontOffset) {next : ConnOutbox ω}
    (outcome : FlushOutcome conn front rest written next) : next.Accounted := by
  have within : conn.frontOffset ≤ front.len := by
    rcases acc.front with zero | ⟨first, tail, shape, started⟩
    · omega
    · have head : front = first := (List.cons.inj (queued.symm.trans shape)).1
      rw [head]
      omega
  cases outcome with
  | @advanced ready isReady unfinished =>
      have prepared := acc.prepared queued isReady
      have fits : written + conn.frontOffset ≤ ready.len := by
        simp only [OutboxFrame.len, isReady.len] at room within ⊢
        omega
      rcases prepared.wroteCounts rfl fits with ⟨total, replay, catchUp, calm⟩
      exact
        { total, replay, catchUp, calm
          front := by
            rcases unfinished with short | nothing
            · refine .inr ⟨ready, rest, rfl, ?_⟩
              change conn.frontOffset + written < ready.len
              simpa only [OutboxFrame.len, isReady.len] using short
            · rw [nothing]
              exact prepared.front
          capped := (Nat.sub_le _ _).trans acc.capped
          indexed := prepared.indexed
          seeds := acc.seeds
          opened := acc.opened }
  | @popped ready isReady finished moved =>
      have prepared := acc.prepared queued isReady
      have fits : written + conn.frontOffset ≤ ready.len := by
        simp only [OutboxFrame.len, isReady.len] at room within ⊢
        omega
      have done : conn.frontOffset + written = ready.len := by
        simp only [OutboxFrame.len, isReady.len] at fits ⊢
        omega
      rcases prepared.wroteCounts rfl fits with ⟨total, replay, catchUp, calm⟩
      exact
        { total := total.pop done
          replay := replay.pop done
          catchUp := catchUp.pop done
          calm := calm
          front := .inl rfl
          capped := (Nat.sub_le _ _).trans acc.capped
          indexed := prepared.indexed.pop
          seeds := acc.seeds
          opened := acc.opened }

end Accounted

theorem takeCompletedSeed_some {seed : AttachSeedState ω} {next : ConnOutbox ω}
    (completed : conn.takeCompletedSeed = some (seed, next)) :
    conn.seed = some seed ∧ seed.baselineQueued = true ∧ conn.seedQueuedBytes = 0 ∧
      conn.seedCatchUpQueuedBytes = 0 ∧ next = { conn with seed := none } := by
  unfold takeCompletedSeed at completed
  cases present : conn.seed with
  | none => simp [present] at completed
  | some own =>
      simp only [present, Option.ite_none_right_eq_some, Option.some.injEq, Prod.mk.injEq,
        Bool.and_eq_true, beq_iff_eq] at completed
      rcases completed with ⟨⟨⟨queued, replay⟩, catchUp⟩, rfl, rfl⟩
      exact ⟨rfl, queued, replay, catchUp, rfl⟩

theorem Accounted.step (acc : conn.Accounted) {label : OutboxLabel ω} {next : ConnOutbox ω}
    (moved : OutboxStep conn label next) : next.Accounted := by
  cases moved with
  | attach panes statuses => exact acc.enqueueAttachSeeds panes statuses
  | push bytes delta replacement withinBudget =>
      exact acc.pushDelta bytes delta replacement withinBudget
  | ping fits => exact acc.tryPushClass (Nat.le_refl _) fits
  | startResync live => exact acc.startClientResync live
  | pump input => exact acc.pumpWork input
  | flush queued room flushed => exact acc.flushed queued room (flushFront_outcome queued flushed)
  | takeCompleted completed =>
      rw [(takeCompletedSeed_some completed).2.2.2.2]
      exact acc.reseed fun _ gone => by cases gone

theorem accounted_of_run {conn : ConnOutbox ω} (reached : (outboxRuns ω).Reachable conn) :
    conn.Accounted := by
  apply reached.invariant
  · intro state begins
    rw [show state = {} from begins]
    exact .empty
  · intro state label next acc moved
    exact acc.step moved

def unwritten (conn : ConnOutbox ω) (counted : OutboxClass) : Nat :=
  match conn.outbox with
  | [] => 0
  | front :: rest =>
      (if front.ofClass counted then front.len - conn.frontOffset else 0) +
        bytesWhere OutboxFrame.len (OutboxFrame.ofClass counted) rest

structure Exact (conn : ConnOutbox ω) : Prop where
  outboxBytes : conn.outboxBytes + conn.frontOffset = (conn.outbox.map OutboxFrame.len).sum
  seedQueuedBytes : conn.seedQueuedBytes = conn.unwritten .seedReplay
  seedCatchUpQueuedBytes : conn.seedCatchUpQueuedBytes = conn.unwritten .seedCatchUp
  catchUpBytes : ∀ seed, conn.seed = some seed →
    seed.catchUpBytes = (seed.catchUp.map CatchUpFrame.len).sum
  capped : conn.outboxBytes ≤ maxBacklog
  calm : conn.panicked = false

theorem eq_unwritten {conn : ConnOutbox ω} {counted : OutboxClass} {counter : Nat}
    (counts : Counts (OutboxFrame.ofClass counted) counter conn.frontOffset conn.outbox)
    (front : FrontSound conn.frontOffset conn.outbox) : counter = conn.unwritten counted := by
  unfold ConnOutbox.unwritten
  rcases front with zero | ⟨first, rest, queued, started⟩
  · unfold Counts at counts
    cases queued : conn.outbox with
    | nil => simpa [queued, frontShare] using counts
    | cons first rest =>
        rw [zero, frontShare_zero, queued, bytesWhere_cons] at counts
        simpa [zero] using counts
  · unfold Counts at counts
    rw [queued, bytesWhere_cons] at counts
    simp only [queued, frontShare] at counts ⊢
    split_ifs at counts ⊢ <;> omega

theorem Accounted.exact (acc : conn.Accounted) : conn.Exact where
  outboxBytes := by
    have total := acc.total
    unfold Counts at total
    have every : ∀ frames : List (OutboxFrame ω), frames.filter (fun _ => true) = frames :=
      fun frames => List.filter_eq_self.mpr fun _ _ => rfl
    have share : frontShare (fun _ => true) conn.frontOffset conn.outbox = conn.frontOffset := by
      rcases acc.front with zero | ⟨first, rest, queued, _⟩
      · rw [zero, frontShare_zero]
      · simp [queued, frontShare]
    rw [share, bytesWhere, every] at total
    exact total
  seedQueuedBytes := eq_unwritten acc.replay acc.front
  seedCatchUpQueuedBytes := eq_unwritten acc.catchUp acc.front
  catchUpBytes := by
    intro seed present
    have every : ∀ frames : List (CatchUpFrame ω), frames.filter (fun _ => true) = frames :=
      fun frames => List.filter_eq_self.mpr fun _ _ => rfl
    rw [(acc.seeds seed present).bytes, bytesWhere, every]
  capped := acc.capped
  calm := acc.calm

end ConnOutbox

end Rozi
