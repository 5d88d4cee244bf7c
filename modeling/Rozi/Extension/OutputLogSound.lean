import Rozi.Extension.OutputLog
import Rozi.Library.KeyedTotals

/-!
The invariant of a unit's log, kept by every operation of every writer and reader.
-/

namespace Rozi.OutputLog

/-! The files. -/

namespace Disk

variable {disk : Disk} {file other : Nat} {blocks : List Block}

theorem held_openForAppend : disk.openForAppend.2.held other = disk.held other := by
  unfold openForAppend
  cases disk.live with
  | some file => rfl
  | none =>
      unfold held
      simp only [List.getD_eq_getElem?_getD]
      by_cases within : other < disk.files.length
      · rw [List.getElem?_append_left within]
      · rw [List.getElem?_append_right (Nat.le_of_not_lt within),
          List.getElem?_eq_none (Nat.le_of_not_lt within)]
        cases other - disk.files.length <;> rfl

theorem held_put (there : file < disk.files.length) :
    (disk.put file blocks).held other = if other = file then blocks else disk.held other := by
  unfold held put
  simp only [List.getD_eq_getElem?_getD, List.getElem?_set]
  by_cases same : file = other
  · subst same
    rw [if_pos rfl, if_pos there, if_pos rfl]
    rfl
  · rw [if_neg same, if_neg (Ne.symm same)]

structure Valid (disk : Disk) : Prop where
  liveThere : ∀ file, disk.live = some file → file < disk.files.length
  rotatedThere : ∀ file, disk.rotated = some file → file < disk.files.length
  apart : ∀ file, disk.live = some file → disk.rotated ≠ some file

theorem live_openForAppend : disk.openForAppend.2.live = some disk.openForAppend.1 := by
  unfold openForAppend
  split
  · assumption
  · rfl

theorem rotated_openForAppend : disk.openForAppend.2.rotated = disk.rotated := by
  unfold openForAppend
  cases disk.live <;> rfl

theorem length_openForAppend : disk.files.length ≤ disk.openForAppend.2.files.length := by
  unfold openForAppend
  cases disk.live with
  | some file => exact le_rfl
  | none => simp

theorem Valid.openForAppend (valid : disk.Valid) : disk.openForAppend.2.Valid := by
  unfold Disk.openForAppend
  cases live : disk.live with
  | some file => exact valid
  | none =>
      refine ⟨fun file same => ?_, fun file same => ?_, fun file same other => ?_⟩
      · cases same
        simp
      · have there := valid.rotatedThere file same
        simp only [List.length_append, List.length_singleton]
        omega
      · cases same
        exact absurd (valid.rotatedThere _ other) (lt_irrefl _)

theorem Valid.openForAppend_there (valid : disk.Valid) :
    disk.openForAppend.1 < disk.openForAppend.2.files.length :=
  valid.openForAppend.liveThere _ live_openForAppend

theorem Valid.put (valid : disk.Valid) (file : Nat) (blocks : List Block) :
    (disk.put file blocks).Valid := by
  have same : (disk.put file blocks).files.length = disk.files.length := List.length_set
  exact ⟨fun other there => same ▸ valid.liveThere other there,
    fun other there => same ▸ valid.rotatedThere other there, valid.apart⟩

theorem liveBlocks_openForAppend :
    disk.openForAppend.2.liveBlocks = disk.liveBlocks := by
  unfold liveBlocks
  rw [live_openForAppend, Option.map_some, Option.getD_some, held_openForAppend]
  cases live : disk.live with
  | some file =>
      have opened : disk.openForAppend.1 = file := by
        unfold Disk.openForAppend
        rw [live]
      rw [opened]
      rfl
  | none =>
      have opened : disk.openForAppend.1 = disk.files.length := by
        unfold Disk.openForAppend
        rw [live]
      rw [opened, held, List.getD_eq_getElem?_getD, List.getElem?_eq_none le_rfl]
      rfl

theorem rotatedBlocks_openForAppend : disk.openForAppend.2.rotatedBlocks = disk.rotatedBlocks := by
  unfold rotatedBlocks
  rw [rotated_openForAppend]
  cases disk.rotated with
  | none => rfl
  | some file => exact held_openForAppend

theorem liveBlocks_put (there : file < disk.files.length) :
    (disk.put file blocks).liveBlocks =
      if disk.live = some file then blocks else disk.liveBlocks := by
  have same : (disk.put file blocks).live = disk.live := rfl
  unfold liveBlocks
  rw [same]
  cases live : disk.live with
  | none => rfl
  | some other =>
      rw [Option.map_some, Option.getD_some, held_put there]
      simp only [Option.some.injEq]
      rfl

theorem rotatedBlocks_put (there : file < disk.files.length) :
    (disk.put file blocks).rotatedBlocks =
      if disk.rotated = some file then blocks else disk.rotatedBlocks := by
  have same : (disk.put file blocks).rotated = disk.rotated := rfl
  unfold rotatedBlocks
  rw [same]
  cases rotated : disk.rotated with
  | none => rfl
  | some other =>
      rw [Option.map_some, Option.getD_some, held_put there]
      simp only [Option.some.injEq]
      rfl

end Disk

/-! Blocks. -/

/-- The blocks that went to the live file. -/
def timely (blocks : List Block) : List Block := blocks.filter fun block => !block.late

theorem timely_append (front back : List Block) :
    timely (front ++ back) = timely front ++ timely back :=
  List.filter_append ..

theorem timely_cons_late {block : Block} (late : block.late = true) : timely [block] = [] := by
  simp [timely, late]

theorem timely_cons {block : Block} (early : block.late = false) : timely [block] = [block] := by
  simp [timely, early]

theorem contents_append (front back : List Block) :
    contents (front ++ back) = contents front ++ contents back :=
  List.flatMap_append ..

def Ends (blocks : List Block) : Prop :=
  contents blocks = [] ∨ (contents blocks).getLast? = some 10

def NotesFresh (blocks : List Block) : Prop :=
  ∀ (front : List Block) (block : Block) (back : List Block),
    blocks = front ++ block :: back → block.note = true →
    block.overtaken = false → block.newline = true ∨ Ends front

theorem NotesFresh.nil : NotesFresh [] := by
  intro front block back split
  cases front <;> cases split

theorem NotesFresh.append {blocks : List Block} (fresh : NotesFresh blocks) {last : Block}
    (starts : last.note = true → last.overtaken = false → last.newline = true ∨ Ends blocks) :
    NotesFresh (blocks ++ [last]) := by
  intro front block back split note alone
  rcases List.eq_nil_or_concat back with rfl | ⟨middle, final, rfl⟩
  · rcases List.append_inj' split rfl with ⟨rfl, same⟩
    cases same
    exact starts note alone
  · rw [List.concat_eq_append, ← List.cons_append, ← List.append_assoc] at split
    exact fresh front block middle (List.append_inj_left' split rfl) note alone

/-! The invariant. -/

/-- The handle is open on a file, the live one if its writer holds the lock. -/
def Append.On (append : Append) (disk : Disk) (file : Nat) : Prop :=
  file < disk.files.length ∧ (append.locked = true → disk.live = some file)

def Append.Ready (append : Append) (disk : Disk) : Prop :=
  match append.next with
  | .openLog => True
  | .measure file => append.On disk file
  | .endsWithNewline file length seen =>
      append.On disk file ∧ length = (contents seen).length ∧ 0 < length
  | .rename file => append.On disk file ∧ append.locked = true
  | .reopen => append.locked = true
  | .truncate file => append.On disk file ∧ append.locked = true
  | .writeAll file needsNewline seen =>
      append.On disk file ∧ ∀ blocks, seen = some blocks → append.onFreshLine = true →
        needsNewline = true ∨ Ends blocks

structure Follows (rotated live log : List Block) (gapless : Prop) : Prop where
  order : (timely rotated ++ timely live).Sublist (timely log)
  recent : gapless → timely rotated ++ timely live <:+ timely log

structure Written (blocks log : List Block) : Prop where
  fresh : NotesFresh blocks
  logged : ∀ block ∈ blocks, block ∈ log

structure Shown.Good (shown : Shown) : Prop where
  follows : Follows shown.rotated shown.live shown.log
    (shown.locked = true ∧ shown.truncated = false)
  rotated : Written shown.rotated shown.log
  live : Written shown.live shown.log
  punctual : ∀ block ∈ shown.log, block.locked = true → block.late = false

structure Sound (world : World) : Prop where
  valid : world.disk.Valid
  writerLock : ∀ writer append, world.writers.lookup writer = some append →
    append.locked = true → world.lock = some (.writer writer)
  readerLock : ∀ reader snapshot, world.readers.lookup reader = some snapshot →
    snapshot.locked = true → world.lock = some (.reader reader)
  ready : ∀ writer append, world.writers.lookup writer = some append → append.Ready world.disk
  written : ∀ file, Written (world.disk.held file) world.log
  punctual : ∀ block ∈ world.log, block.locked = true → block.late = false
  follows : Follows world.disk.rotatedBlocks world.disk.liveBlocks world.log
    (world.truncated = false)
  reading : ∀ reader snapshot rotated, world.readers.lookup reader = some snapshot →
    snapshot.rotated = some rotated → Written rotated world.log ∧
      Follows rotated world.disk.liveBlocks world.log
        (snapshot.locked = true ∧ world.truncated = false)
  shown : ∀ shown ∈ world.shown, shown.Good

/-! How operations change what is shown. -/

namespace Follows

variable {rotated live log : List Block} {gapless : Prop}

theorem weaken {less : Prop} (follows : Follows rotated live log gapless)
    (stronger : less → gapless) : Follows rotated live log less :=
  ⟨follows.order, fun holds => follows.recent (stronger holds)⟩

theorem emptied (follows : Follows rotated live log gapless) : Follows rotated [] log False :=
  ⟨(List.Sublist.append_left (List.nil_sublist _) _).trans follows.order, False.elim⟩

theorem rotate (follows : Follows rotated live log gapless) : Follows live [] log gapless := by
  constructor
  · rw [show timely [] = [] from rfl, List.append_nil]
    exact (List.sublist_append_right _ _).trans follows.order
  · intro holds
    rw [show timely [] = [] from rfl, List.append_nil]
    exact (List.suffix_append _ _).trans (follows.recent holds)

theorem write (follows : Follows rotated live log gapless) {block : Block}
    (early : block.late = false) : Follows rotated (live ++ [block]) (log ++ [block]) gapless := by
  constructor
  · rw [timely_append live, timely_append log, ← List.append_assoc]
    exact follows.order.append_right _
  · intro holds
    rw [timely_append live, timely_append log, ← List.append_assoc]
    rw [timely_cons early]
    exact List.suffix_append_self_iff.mpr (follows.recent holds)

theorem writeLate (follows : Follows rotated live log gapless) {block : Block}
    (late : block.late = true) : Follows rotated live (log ++ [block]) gapless := by
  have same : timely (log ++ [block]) = timely log := by
    rw [timely_append, timely_cons_late late, List.append_nil]
  exact ⟨same ▸ follows.order, fun holds => same ▸ follows.recent holds⟩

end Follows

theorem Written.more {blocks log : List Block} (written : Written blocks log) (last : Block) :
    Written blocks (log ++ [last]) :=
  ⟨written.fresh, fun block listed => List.mem_append_left _ (written.logged block listed)⟩

theorem Written.append {blocks log : List Block} (written : Written blocks log) {last : Block}
    (starts : last.note = true → last.overtaken = false → last.newline = true ∨ Ends blocks) :
    Written (blocks ++ [last]) (log ++ [last]) where
  fresh := written.fresh.append starts
  logged := by
    intro block listed
    rcases List.mem_append.mp listed with before | final
    · exact List.mem_append_left _ (written.logged block before)
    · exact List.mem_append_right _ final

theorem Written.nil {log : List Block} : Written [] log :=
  ⟨.nil, fun _ listed => by cases listed⟩

end Rozi.OutputLog
