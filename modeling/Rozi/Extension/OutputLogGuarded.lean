import Mathlib.Order.Basic
import Rozi.Extension.OutputLogSteps

/-!
Runs in which every append holds the lock: what the files hold, and that no write comes between a
note and what it looked at.
-/

namespace Rozi.OutputLog

/-- The step begins no append without the lock. -/
def Guarded (_ : World) : Label → Prop
  | .append _ _ _ locked => locked = true
  | _ => True

namespace Disk

variable (disk : Disk)

def liveSize : Nat := (contents disk.liveBlocks).length

def rotatedSize : Nat := (contents disk.rotatedBlocks).length

/-- The two generations hold a cap of output, or all there was. -/
def Enough (log : List Block) : Prop :=
  cap ≤ disk.rotatedSize + disk.liveSize ∨ disk.rotatedBlocks ++ disk.liveBlocks = log

end Disk

namespace Append

def Fits (append : Append) (disk : Disk) : Prop :=
  match append.next with
  | .endsWithNewline file _ seen => disk.held file = seen
  | .rename _ => cap ≤ disk.liveSize + append.bytes.length
  | .reopen => disk.live = none
  | .writeAll file needsNewline seen =>
      seen = some (disk.held file) ∧
        disk.liveSize + (if needsNewline then 1 else 0) + append.bytes.length ≤ cap
  | _ => True

def Keeps (append : Append) (disk : Disk) (log : List Block) : Prop :=
  match append.next with
  | .reopen => cap ≤ disk.rotatedSize + append.bytes.length
  | .truncate _ => True
  | .writeAll .. => disk.Enough log ∨ cap ≤ disk.rotatedSize + append.bytes.length
  | _ => disk.Enough log

end Append

structure Tidy (world : World) : Prop where
  writers : ∀ writer append, world.writers.lookup writer = some append →
    append.locked = true ∧ append.bytes.length ≤ cap ∧ append.Fits world.disk
  blocks : ∀ block ∈ world.log, block.locked = true ∧ block.overtaken = false
  shown : ∀ shown ∈ world.shown, ∀ block ∈ shown.log, block.locked = true
  live : world.disk.liveSize ≤ cap
  rotated : world.disk.rotatedSize ≤ cap
  idle : world.truncated = false → world.gaveUp = false →
    (∀ writer, world.writers.lookup writer = none) → world.disk.Enough world.log
  busy : world.truncated = false → world.gaveUp = false → ∀ writer append,
    world.writers.lookup writer = some append → append.Keeps world.disk world.log

namespace Tidy

variable {world next : World}

theorem liveSize_eq {disk : Disk} {file : Nat} (live : disk.live = some file) :
    disk.liveSize = (contents (disk.held file)).length := by
  rw [Disk.liveSize, Disk.liveBlocks, live]
  rfl

theorem size_data (blocks : List Block) (block : Block) :
    (contents (blocks ++ [block])).length =
      (contents blocks).length + (if block.newline then 1 else 0) + block.bytes.length := by
  rw [contents_append, List.length_append, Nat.add_assoc]
  congr 1
  rw [contents, List.flatMap_singleton, Block.data, List.length_append]
  congr 1
  split_ifs <;> rfl

theorem place {append : Append} {disk : Disk} {log : List Block} {smooth : Prop} {length : Nat}
    (file : Nat) (needsNewline : Bool) (locked : append.locked = true)
    (measured : length = disk.liveSize) (enough : smooth → disk.Enough log) :
    let after : Append :=
      { append with next := append.place file length needsNewline (some (disk.held file)) }
    after.Fits disk ∧ (smooth → after.Keeps disk log) := by
  unfold Append.place
  have one : (if needsNewline = true then 1 else 0) ≤ 1 := by split_ifs <;> omega
  by_cases full : cap < length + (if needsNewline = true then 1 else 0) + append.bytes.length
  · simp only [locked, full, and_self, if_true]
    refine ⟨?_, enough⟩
    change cap ≤ disk.liveSize + append.bytes.length
    omega
  · simp only [full, and_false, if_false]
    refine ⟨⟨rfl, ?_⟩, fun holds => .inl (enough holds)⟩
    rw [← measured]
    exact Nat.le_of_not_lt full

structure Leaves (append : Append) (disk : Disk) (progress : Progress) (log : List Block)
    (smooth : Prop) : Prop where
  live : disk.liveSize ≤ cap
  rotated : disk.rotatedSize ≤ cap
  going : ∀ operation, progress = .next operation →
    ({ append with next := operation } : Append).Fits disk ∧
      (smooth → ({ append with next := operation } : Append).Keeps disk log)
  done : ∀ block, progress = .written block →
    (block.locked = true ∧ block.overtaken = false) ∧ (smooth → disk.Enough (log ++ [block]))
  alive : progress ≠ .failed

theorem leaves_next {append : Append} {disk : Disk} {log : List Block} {smooth : Prop}
    {operation : Operation} (live : disk.liveSize ≤ cap) (rotated : disk.rotatedSize ≤ cap)
    (fits : ({ append with next := operation } : Append).Fits disk)
    (keeps : smooth → ({ append with next := operation } : Append).Keeps disk log) :
    Leaves append disk (.next operation) log smooth where
  live := live
  rotated := rotated
  going := fun other same => by
    cases same
    exact ⟨fits, keeps⟩
  done := fun _ same => by cases same
  alive := fun same => by cases same

theorem sizes_open (disk : Disk) : disk.openForAppend.2.liveSize = disk.liveSize ∧
    disk.openForAppend.2.rotatedSize = disk.rotatedSize := by
  unfold Disk.liveSize Disk.rotatedSize
  rw [Disk.liveBlocks_openForAppend, Disk.rotatedBlocks_openForAppend]
  exact ⟨rfl, rfl⟩

theorem advance (tidy : Tidy world) (sound : Sound world) {writer : Nat} {append : Append}
    (found : world.writers.lookup writer = some append) (renames : Bool) :
    Leaves append (append.advance renames world.disk).1 (append.advance renames world.disk).2
      world.log ((world.truncated || append.next matches .truncate _) = false ∧
        world.gaveUp = false) := by
  rcases tidy.writers writer append found with ⟨locked, short, fits⟩
  have ready := sound.ready writer append found
  have keeps : world.truncated = false ∧ world.gaveUp = false →
      append.Keeps world.disk world.log :=
    fun smooth => tidy.busy smooth.1 smooth.2 writer append found
  unfold Append.Ready at ready
  unfold Append.Fits at fits
  unfold Append.Keeps at keeps
  unfold Append.advance
  cases next : append.next with
  | openLog =>
      rw [next] at keeps
      simp only [Bool.or_false]
      rcases sizes_open world.disk with ⟨live, rotated⟩
      refine leaves_next (live ▸ tidy.live) (rotated ▸ tidy.rotated) trivial fun smooth => ?_
      change world.disk.openForAppend.2.Enough world.log
      unfold Disk.Enough
      rw [live, rotated, Disk.liveBlocks_openForAppend, Disk.rotatedBlocks_openForAppend]
      exact keeps smooth
  | measure file =>
      rw [next] at keeps ready
      simp only [Bool.or_false]
      split_ifs with looks
      · exact leaves_next tidy.live tidy.rotated rfl keeps
      · have placed := place file false locked
          (liveSize_eq (ready.2 locked)).symm keeps
        exact leaves_next tidy.live tidy.rotated placed.1 placed.2
  | endsWithNewline file length seen =>
      rw [next] at keeps ready fits
      rcases ready with ⟨on, measured, some⟩
      simp only [Bool.or_false]
      cases looked : (contents (world.disk.held file))[length - 1]? with
      | none =>
          have past := List.getElem?_eq_none_iff.mp looked
          rw [fits, ← measured] at past
          omega
      | some last =>
          have whole : length = world.disk.liveSize := by
            rw [liveSize_eq (on.2 locked), fits]
            exact measured
          have placed := place file (decide (last ≠ 10)) locked whole keeps
          rw [if_pos fits, ← fits]
          exact leaves_next tidy.live tidy.rotated placed.1 placed.2
  | rename file =>
      rw [next] at keeps ready fits
      rcases ready with ⟨on, _⟩
      have live := on.2 locked
      simp only [live, Bool.or_false]
      cases renames with
      | true =>
          have size : ({ world.disk with rotated := some file, live := none } : Disk).rotatedSize =
              world.disk.liveSize := (liveSize_eq live).symm
          refine leaves_next (Nat.zero_le _) (size.trans_le tidy.live) rfl fun _ => ?_
          rw [← size] at fits
          exact fits
      | false => exact leaves_next tidy.live tidy.rotated trivial fun _ => trivial
  | reopen =>
      rw [next] at keeps fits
      simp only [Bool.or_false]
      rcases sizes_open world.disk with ⟨live, rotated⟩
      have empty : world.disk.liveBlocks = [] := by
        rw [Disk.liveBlocks, fits]
        rfl
      have held : world.disk.openForAppend.2.held world.disk.openForAppend.1 = [] := by
        have same : world.disk.openForAppend.2.liveBlocks = world.disk.liveBlocks :=
          Disk.liveBlocks_openForAppend
        rw [empty, Disk.liveBlocks, Disk.live_openForAppend] at same
        exact same
      refine leaves_next (live ▸ tidy.live) (rotated ▸ tidy.rotated) ⟨held ▸ rfl, ?_⟩
        fun smooth => .inr (rotated ▸ keeps smooth)
      rw [live, Disk.liveSize, empty]
      change 0 + 0 + append.bytes.length ≤ cap
      omega
  | truncate file =>
      rw [next] at ready
      rcases ready with ⟨on, _⟩
      have live := on.2 locked
      simp only [live, Bool.or_true]
      have there := sound.valid.liveThere file live
      have emptied : (world.disk.put file []).liveBlocks = [] := by
        rw [Disk.liveBlocks_put there, if_pos live]
      have rotated : (world.disk.put file []).rotatedSize = world.disk.rotatedSize := by
        rw [Disk.rotatedSize, Disk.rotatedBlocks_put there, if_neg (sound.valid.apart file live)]
        rfl
      have size : (world.disk.put file []).liveSize = 0 := by
        rw [Disk.liveSize, emptied]
        rfl
      refine leaves_next (size ▸ Nat.zero_le _) (rotated ▸ tidy.rotated) ⟨?_, ?_⟩ fun smooth => ?_
      · rw [Disk.held_put there, if_pos rfl]
      · rw [size]
        change 0 + 0 + append.bytes.length ≤ cap
        omega
      · cases smooth.1
  | writeAll file needsNewline seen =>
      rw [next] at keeps ready fits
      rcases ready with ⟨on, _⟩
      rcases fits with ⟨still, fits⟩
      have live := on.2 locked
      simp only [Bool.or_false]
      have liveSize := size_data world.disk.liveBlocks
        { bytes := append.bytes
          newline := needsNewline
          note := append.onFreshLine
          locked := append.locked
          late := world.disk.live ≠ some file
          overtaken := some (world.disk.held file) ≠ seen }
      have blocks : world.disk.liveBlocks = world.disk.held file := by
        rw [Disk.liveBlocks, live]
        rfl
      generalize same : ({ bytes := append.bytes
                           newline := needsNewline
                           note := append.onFreshLine
                           locked := append.locked
                           late := world.disk.live ≠ some file
                           overtaken := some (world.disk.held file) ≠ seen } : Block) = block
        at liveSize ⊢
      have grown : (world.disk.put file (world.disk.held file ++ [block])).liveBlocks =
          world.disk.liveBlocks ++ [block] := by
        rw [Disk.liveBlocks_put on.1, if_pos live, blocks]
      have rotated : (world.disk.put file (world.disk.held file ++ [block])).rotatedBlocks =
          world.disk.rotatedBlocks := by
        rw [Disk.rotatedBlocks_put on.1, if_neg (sound.valid.apart file live)]
      have size : (world.disk.put file (world.disk.held file ++ [block])).liveSize =
          world.disk.liveSize + (if needsNewline then 1 else 0) + append.bytes.length := by
        rw [Disk.liveSize, grown, liveSize, ← same]
        rfl
      refine ⟨size.trans_le fits, ?_, fun _ going => ?_, fun last written => ?_, fun failed => ?_⟩
      · rw [Disk.rotatedSize, rotated]
        exact tidy.rotated
      · cases going
      · cases written
        refine ⟨?_, fun smooth => ?_⟩
        · rw [← same]
          exact ⟨locked, decide_eq_false fun away => away still.symm⟩
        · unfold Disk.Enough
          rw [grown, Disk.rotatedSize, rotated, size]
          rcases keeps smooth with (long | all) | long
          · exact .inl (long.trans (by unfold Disk.rotatedSize; omega))
          · exact .inr (by rw [← List.append_assoc, all])
          · exact .inl (long.trans (by unfold Disk.rotatedSize; omega))
      · cases failed

theorem only (tidy : Tidy world) (sound : Sound world) {writer other : Nat}
    {append second : Append} (found : world.writers.lookup writer = some append)
    (there : world.writers.lookup other = some second) : other = writer := by
  have one := sound.writerLock writer append found (tidy.writers writer append found).1
  have two := sound.writerLock other second there (tidy.writers other second there).1
  rw [one, Option.some.injEq, Party.writer.injEq] at two
  exact two.symm

theorem initially : Tidy {} where
  writers := fun _ _ found => by cases found
  blocks := fun _ listed => by cases listed
  shown := fun _ listed => by cases listed
  live := Nat.zero_le _
  rotated := Nat.zero_le _
  idle := fun _ _ _ => .inr rfl
  busy := fun _ _ _ _ found => by cases found

theorem length_cut (bytes : List UInt8) : (cut bytes).length ≤ cap := by
  unfold cut
  rw [List.length_drop]
  omega

theorem append (tidy : Tidy world) (sound : Sound world) {writer : Nat} {bytes : List UInt8}
    {onFreshLine : Bool}
    (moved : world.append writer bytes onFreshLine true = some next) : Tidy next := by
  unfold World.append at moved
  by_cases busy : (world.writers.lookup writer).isSome = true ∨ true = true ∧ world.lock ≠ none
  · rw [if_pos busy] at moved
    cases moved
  rw [if_neg busy] at moved
  rw [not_or, not_and, not_not] at busy
  by_cases nothing : cut bytes = []
  · rw [if_pos nothing] at moved
    cases moved
    exact { tidy with }
  rw [if_neg nothing] at moved
  cases moved
  have nobody : ∀ other, world.writers.lookup other = none := by
    intro other
    rw [Option.eq_none_iff_forall_ne_some]
    intro second there
    have holds := sound.writerLock other second there (tidy.writers other second there).1
    rw [busy.2 rfl] at holds
    cases holds
  have begun : ∀ {other : Nat} {second : Append},
      (world.writers.insert writer { bytes := cut bytes, onFreshLine, locked := true }).lookup
        other = some second → second = { bytes := cut bytes, onFreshLine, locked := true } := by
    intro other second there
    rcases AList.lookup_insert_some there with ⟨_, own⟩ | ⟨_, before⟩
    · exact own
    · rw [nobody other] at before
      cases before
  constructor
  case writers =>
    intro other second there
    rw [begun there]
    refine ⟨rfl, ?_, True.intro⟩
    simp only [length_cut]
  case blocks => exact tidy.blocks
  case shown => exact tidy.shown
  case live => exact tidy.live
  case rotated => exact tidy.rotated
  case idle =>
    intro _ _ none
    have absent : (world.writers.insert writer _).lookup writer = _ := none writer
    rw [AList.lookup_insert] at absent
    exact absurd absent (Option.some_ne_none _)
  case busy =>
    intro whole through other second there
    rw [begun there]
    exact tidy.idle whole through nobody

theorem operate (tidy : Tidy world) (sound : Sound world) {writer : Nat} {renames : Bool}
    (moved : world.operate writer renames = some next) : Tidy next := by
  unfold World.operate at moved
  rw [Option.map_eq_some_iff] at moved
  rcases moved with ⟨append, found, rfl⟩
  have leaves := tidy.advance sound found renames
  have alone : ∀ {other : Nat}, other ≠ writer → world.writers.lookup other = none := by
    intro other different
    rw [Option.eq_none_iff_forall_ne_some]
    exact fun second there => different (tidy.only sound found there)
  unfold World.proceed
  cases progress : (append.advance renames world.disk).2 with
  | next operation =>
      rcases leaves.going operation progress with ⟨fits, keeps⟩
      have goes : ∀ {other : Nat} {second : Append},
          (world.writers.insert writer { append with next := operation }).lookup other =
            some second → second = { append with next := operation } := by
        intro other second there
        rcases AList.lookup_insert_some there with ⟨_, own⟩ | ⟨same, before⟩
        · exact own
        · rw [alone same] at before
          cases before
      rcases tidy.writers writer append found with ⟨locked, short, _⟩
      constructor
      case writers =>
        intro other second there
        rw [goes there]
        exact ⟨locked, short, fits⟩
      case blocks => exact tidy.blocks
      case shown => exact tidy.shown
      case live => exact leaves.live
      case rotated => exact leaves.rotated
      case idle =>
        intro _ _ none
        have absent : (world.writers.insert writer _).lookup writer = _ := none writer
        rw [AList.lookup_insert] at absent
        exact absurd absent (Option.some_ne_none _)
      case busy =>
        intro whole through other second there
        rw [goes there]
        exact keeps ⟨whole, through⟩
  | written block =>
      rcases leaves.done block progress with ⟨blocks, enough⟩
      have gone : ∀ other, (world.writers.erase writer).lookup other = none := by
        intro other
        by_cases same : other = writer
        · rw [same, AList.lookup_erase]
        · rw [AList.lookup_erase_ne same, alone same]
      constructor
      case writers =>
        intro other second there
        cases (gone other).symm.trans there
      case blocks =>
        intro other listed
        rcases List.mem_append.mp listed with before | last
        · exact tidy.blocks other before
        · rw [List.mem_singleton] at last
          exact last ▸ blocks
      case shown => exact tidy.shown
      case live => exact leaves.live
      case rotated => exact leaves.rotated
      case idle => exact fun whole through _ => enough ⟨whole, through⟩
      case busy =>
        intro _ _ other second there
        cases (gone other).symm.trans there
  | failed => exact absurd progress leaves.alive

theorem giveUp (tidy : Tidy world) {writer : Nat}
    (moved : world.giveUp writer = some next) : Tidy next := by
  unfold World.giveUp at moved
  split_ifs at moved
  cases moved
  constructor
  case writers =>
    intro other second there
    change (world.writers.erase writer).lookup other = some second at there
    exact tidy.writers other second (AList.lookup_erase_some there).2
  case blocks => exact tidy.blocks
  case shown => exact tidy.shown
  case live => exact tidy.live
  case rotated => exact tidy.rotated
  case idle => exact fun _ through => by cases through
  case busy => exact fun _ through => by cases through

theorem step (tidy : Tidy world) (sound : Sound world) {label : Label}
    (guarded : Guarded world label) (moved : world.perform label = some next) : Tidy next := by
  cases label with
  | openSink =>
      cases moved
      exact { tidy with }
  | append writer bytes onFreshLine locked =>
      cases (show locked = true from guarded)
      exact tidy.append sound moved
  | operate writer renames => exact tidy.operate sound moved
  | giveUp writer => exact tidy.giveUp moved
  | snapshot reader =>
      change world.snapshot reader = some next at moved
      unfold World.snapshot at moved
      split_ifs at moved
      all_goals
        cases moved
        exact { tidy with }
  | read reader =>
      change world.read reader = some next at moved
      unfold World.read at moved
      rw [Option.map_eq_some_iff] at moved
      rcases moved with ⟨snapshot, _, rfl⟩
      cases snapshot.rotated with
      | none => exact { tidy with }
      | some rotated =>
          refine { tidy with shown := fun one listed block there => ?_ }
          rcases List.mem_append.mp listed with before | last
          · exact tidy.shown one before block there
          · rw [List.mem_singleton] at last
            subst last
            exact (tidy.blocks block there).1
  | stopReading reader =>
      change world.stopReading reader = some next at moved
      unfold World.stopReading at moved
      split_ifs at moved
      cases moved
      exact { tidy with }

theorem reachable (reached : system.ReachableWhen Guarded world) : Sound world ∧ Tidy world := by
  induction reached with
  | initial begins => exact begins ▸ ⟨Sound.initially, initially⟩
  | step _ guarded moved both => exact ⟨both.1.step moved, both.2.step both.1 guarded moved⟩

end Tidy

end Rozi.OutputLog
