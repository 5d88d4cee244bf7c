import Rozi.Extension.OutputLogSteps

/-!
What a snapshot is read from: the two generations on the disk, one after the other. Without the lock
a writer only appends, so under the reader's lock nothing goes from the first as the second is read.
-/

namespace Rozi.OutputLog

namespace World

structure Grows (before after : Disk) : Prop where
  rotated : after.rotated = before.rotated
  live : ∀ file, before.live = some file → after.live = some file
  held : ∀ file, before.held file <+: after.held file

/-- `reader` showed `shown` on the way to `world`: it had found the rotated generation at its first
read and finds the live file at its second. -/
structure Taken (world : World) (shown : Shown) (reader : Nat) (before after : World) : Prop where
  reached : system.Reachable before
  read : before.perform (.read reader) = some after
  added : after.shown = before.shown ++ [shown]
  later : (system.startingAt after).Reachable world
  locked : system.Since (.snapshot reader) (fun past => shown.locked = past.lockFile) before
  rotated : system.Since (.read reader) (fun past => shown.rotated = past.disk.rotatedBlocks) before
  still : shown.locked = true → shown.rotated <+: before.disk.rotatedBlocks
  live : shown.live = before.disk.liveBlocks
  log : shown.log = before.log
  truncated : shown.truncated = before.truncated

structure Found (world : World) (reader : Nat) (snapshot : Snapshot) : Prop where
  locked : system.Since (.snapshot reader) (fun past => snapshot.locked = past.lockFile) world
  rotated : ∀ rotated, snapshot.rotated = some rotated →
    system.Since (.read reader) (fun past => rotated = past.disk.rotatedBlocks) world ∧
      (snapshot.locked = true → rotated <+: world.disk.rotatedBlocks)

end World

variable {world next : World} {label : Label} {reader : Nat} {snapshot : Snapshot}

theorem grows_of_unlocked {append : Append}
    (ready : append.Ready world.disk) (unlocked : append.locked = false) (renames : Bool) :
    World.Grows world.disk (append.advance renames world.disk).1 := by
  have same : World.Grows world.disk world.disk :=
    ⟨rfl, fun _ live => live, fun _ => List.prefix_refl _⟩
  have opened : World.Grows world.disk world.disk.openForAppend.2 := by
    refine ⟨Disk.rotated_openForAppend, fun file live => ?_, fun file => ?_⟩
    · unfold Disk.openForAppend
      rw [live]
      exact live
    · simp [Disk.held_openForAppend]
  unfold Append.Ready at ready
  unfold Append.advance
  cases next : append.next with
  | openLog => exact opened
  | measure file => exact same
  | endsWithNewline file length seen =>
      simp only
      cases (contents (world.disk.held file))[length - 1]? <;> exact same
  | rename file =>
      rw [next] at ready
      cases unlocked.symm.trans ready.2
  | reopen => exact opened
  | truncate file =>
      rw [next] at ready
      cases unlocked.symm.trans ready.2
  | writeAll file needsNewline seen =>
      rw [next] at ready
      refine ⟨rfl, fun _ live => live, fun other => ?_⟩
      simp only
      rw [Disk.held_put ready.1.1]
      split_ifs with held
      · rw [held]
        exact List.prefix_append _ _
      · exact List.prefix_refl _

namespace World.Grows

theorem rotatedBlocks {before after : Disk} (grows : World.Grows before after) :
    before.rotatedBlocks <+: after.rotatedBlocks := by
  unfold Disk.rotatedBlocks
  rw [grows.rotated]
  cases before.rotated with
  | none => exact List.prefix_refl _
  | some file => exact grows.held file

end World.Grows

/-! What a step does to the readers. -/

theorem operate_cases {writer : Nat} {renames : Bool}
    (moved : world.operate writer renames = some next) :
    next.readers = world.readers ∧ next.shown = world.shown ∧
      ∃ append, world.writers.lookup writer = some append ∧
        next.disk = (append.advance renames world.disk).1 := by
  unfold World.operate at moved
  rw [Option.map_eq_some_iff] at moved
  rcases moved with ⟨append, found, rfl⟩
  unfold World.proceed
  cases (append.advance renames world.disk).2 with
  | next operation => exact ⟨rfl, rfl, append, found, rfl⟩
  | written block => exact ⟨rfl, rfl, append, found, rfl⟩
  | failed => exact ⟨rfl, rfl, append, found, rfl⟩

theorem append_cases {writer : Nat} {bytes : List UInt8} {onFreshLine locked : Bool}
    (moved : world.append writer bytes onFreshLine locked = some next) :
    next.readers = world.readers ∧ next.shown = world.shown ∧ next.disk = world.disk := by
  unfold World.append at moved
  split at moved
  · cases moved
  · split at moved
    · cases moved
      exact ⟨rfl, rfl, rfl⟩
    · cases moved
      exact ⟨rfl, rfl, rfl⟩

theorem giveUp_cases {writer : Nat} (moved : world.giveUp writer = some next) :
    next.readers = world.readers ∧ next.shown = world.shown ∧ next.disk = world.disk := by
  unfold World.giveUp at moved
  split_ifs at moved
  cases moved
  exact ⟨rfl, rfl, rfl⟩

theorem snapshot_cases (moved : world.snapshot reader = some next) :
    next.readers = world.readers.insert reader { locked := world.lockFile } ∧
      next.shown = world.shown ∧ next.disk = world.disk := by
  unfold World.snapshot at moved
  split_ifs at moved with busy file free
  · cases moved
    rw [file]
    exact ⟨rfl, rfl, rfl⟩
  · cases moved
    rw [Bool.eq_false_iff.mpr file]
    exact ⟨rfl, rfl, rfl⟩

theorem stopReading_cases (moved : world.stopReading reader = some next) :
    next.readers = world.readers.erase reader ∧ next.shown = world.shown ∧
      next.disk = world.disk := by
  unfold World.stopReading at moved
  split_ifs at moved
  cases moved
  exact ⟨rfl, rfl, rfl⟩

/-- A reader reads the rotated generation first, and shows what it found once it reads the live
file. -/
theorem read_cases (moved : world.read reader = some next) :
    next.disk = world.disk ∧ ∃ snapshot, world.readers.lookup reader = some snapshot ∧
      (snapshot.rotated = none ∧ next.shown = world.shown ∧
          next.readers = world.readers.insert reader
            { snapshot with rotated := some world.disk.rotatedBlocks } ∨
        ∃ rotated, snapshot.rotated = some rotated ∧
          next.shown = world.shown ++ [world.shows snapshot rotated] ∧
          next.readers = world.readers.erase reader) := by
  unfold World.read at moved
  rw [Option.map_eq_some_iff] at moved
  rcases moved with ⟨snapshot, found, rfl⟩
  cases begun : snapshot.rotated with
  | none => exact ⟨rfl, snapshot, found, .inl ⟨begun, rfl, rfl⟩⟩
  | some rotated => exact ⟨rfl, snapshot, found, .inr ⟨rotated, begun, rfl, rfl⟩⟩

/-- Whoever reads after a step read before it, begins with it, or has found the rotated generation
by it. -/
theorem reading_cases (moved : world.perform label = some next)
    (there : next.readers.lookup reader = some snapshot) :
    world.readers.lookup reader = some snapshot ∧ label ≠ .snapshot reader ∧ label ≠ .read reader ∨
      label = .snapshot reader ∧ snapshot = { locked := world.lockFile } ∨
      label = .read reader ∧ ∃ before, world.readers.lookup reader = some before ∧
        snapshot = { before with rotated := some world.disk.rotatedBlocks } := by
  cases label with
  | openSink =>
      cases moved
      exact .inl ⟨there, (fun is => by cases is), fun is => by cases is⟩
  | append writer bytes onFreshLine locked =>
      rw [(append_cases moved).1] at there
      exact .inl ⟨there, (fun is => by cases is), fun is => by cases is⟩
  | operate writer renames =>
      rw [(operate_cases moved).1] at there
      exact .inl ⟨there, (fun is => by cases is), fun is => by cases is⟩
  | giveUp writer =>
      rw [(giveUp_cases moved).1] at there
      exact .inl ⟨there, (fun is => by cases is), fun is => by cases is⟩
  | snapshot other =>
      rw [(snapshot_cases moved).1] at there
      rcases AList.lookup_insert_some there with ⟨rfl, begins⟩ | ⟨same, before⟩
      · exact .inr (.inl ⟨rfl, begins⟩)
      · exact .inl ⟨before, (fun is => same (Label.snapshot.inj is).symm), fun is => by cases is⟩
  | read other =>
      rcases (read_cases moved).2 with ⟨before, found, ⟨_, _, readers⟩ | ⟨_, _, _, readers⟩⟩
      · rw [readers] at there
        rcases AList.lookup_insert_some there with ⟨rfl, finds⟩ | ⟨same, earlier⟩
        · exact .inr (.inr ⟨rfl, before, found, finds⟩)
        · exact .inl ⟨earlier, (fun is => by cases is), fun is => same (Label.read.inj is).symm⟩
      · rw [readers] at there
        rcases AList.lookup_erase_some there with ⟨different, before⟩
        exact .inl ⟨before, (fun is => by cases is), fun is => different (Label.read.inj is).symm⟩
  | stopReading other =>
      rw [(stopReading_cases moved).1] at there
      exact .inl ⟨(AList.lookup_erase_some there).2, (fun is => by cases is), fun is => by cases is⟩

theorem shown_cases (moved : world.perform label = some next) :
    next.shown = world.shown ∨ ∃ reader snapshot rotated, label = .read reader ∧
      world.readers.lookup reader = some snapshot ∧ snapshot.rotated = some rotated ∧
      next.shown = world.shown ++ [world.shows snapshot rotated] := by
  cases label with
  | openSink =>
      cases moved
      exact .inl rfl
  | append writer bytes onFreshLine locked => exact .inl (append_cases moved).2.1
  | operate writer renames => exact .inl (operate_cases moved).2.1
  | giveUp writer => exact .inl (giveUp_cases moved).2.1
  | snapshot other => exact .inl (snapshot_cases moved).2.1
  | read other =>
      rcases (read_cases moved).2 with ⟨snapshot, found, ⟨_, same, _⟩ | ⟨rotated, begun, more, _⟩⟩
      · exact .inl same
      · exact .inr ⟨other, snapshot, rotated, rfl, found, begun, more⟩
  | stopReading other => exact .inl (stopReading_cases moved).2.1

/-- While a reader holds the lock, nothing goes from the rotated generation. -/
theorem rotated_grows (sound : Sound world) (moved : world.perform label = some next)
    (there : world.readers.lookup reader = some snapshot) (holds : snapshot.locked = true) :
    world.disk.rotatedBlocks <+: next.disk.rotatedBlocks := by
  have same : next.disk = world.disk → world.disk.rotatedBlocks <+: next.disk.rotatedBlocks :=
    fun still => still ▸ List.prefix_refl _
  cases label with
  | openSink =>
      cases moved
      exact List.prefix_refl _
  | append writer bytes onFreshLine locked => exact same (append_cases moved).2.2
  | operate writer renames =>
      rcases (operate_cases moved).2.2 with ⟨append, found, disk⟩
      have unlocked : append.locked = false := by
        rw [← Bool.not_eq_true]
        intro locked
        have one := sound.readerLock reader snapshot there holds
        rw [sound.writerLock writer append found locked] at one
        cases one
      rw [disk]
      exact (grows_of_unlocked (sound.ready writer append found) unlocked renames).rotatedBlocks
  | giveUp writer => exact same (giveUp_cases moved).2.2
  | snapshot other => exact same (snapshot_cases moved).2.2
  | read other => exact same (read_cases moved).1
  | stopReading other => exact same (stopReading_cases moved).2.2

/-! Whole runs. -/

structure Traced (world : World) : Prop where
  reached : system.Reachable world
  reading : ∀ reader snapshot, world.readers.lookup reader = some snapshot →
    world.Found reader snapshot
  shown : ∀ shown ∈ world.shown, ∃ reader before after, world.Taken shown reader before after

namespace Traced

theorem initially : Traced {} where
  reached := .begin rfl
  reading := fun _ _ found => by cases found
  shown := fun _ listed => by cases listed

theorem step (traced : Traced world) (moved : world.perform label = some next) : Traced next where
  reached := traced.reached.next label moved
  reading := by
    have sound := Sound.reachable traced.reached
    intro reader snapshot there
    rcases reading_cases moved there with ⟨before, begins, reads⟩ | ⟨rfl, rfl⟩ | ⟨rfl, one, before, rfl⟩
    · have found := traced.reading reader snapshot before
      refine ⟨found.locked.next begins moved, fun rotated begun => ?_⟩
      rcases found.rotated rotated begun with ⟨since, still⟩
      exact ⟨since.next reads moved, fun holds =>
        (still holds).trans (rotated_grows sound moved before holds)⟩
    · refine ⟨.now traced.reached rfl moved, fun rotated begun => ?_⟩
      cases begun
    · have found := traced.reading reader one before
      refine ⟨found.locked.next (fun is => by cases is) moved, fun rotated begun => ?_⟩
      cases begun
      exact ⟨.now traced.reached rfl moved, fun holds => rotated_grows sound moved before holds⟩
  shown := by
    have kept : ∀ shown ∈ world.shown,
        ∃ reader before after, next.Taken shown reader before after := by
      intro shown listed
      rcases traced.shown shown listed with ⟨reader, before, after, taken⟩
      exact ⟨reader, before, after, { taken with later := taken.later.next label moved }⟩
    rcases shown_cases moved with same | ⟨reader, snapshot, rotated, rfl, there, begun, more⟩
    · rw [same]
      exact kept
    · intro shown listed
      rw [more] at listed
      rcases List.mem_append.mp listed with before | last
      · exact kept shown before
      · rw [List.mem_singleton.mp last]
        have found := traced.reading reader snapshot there
        rcases found.rotated rotated begun with ⟨since, still⟩
        exact ⟨reader, world, next, traced.reached, moved, more, .begin rfl, found.locked, since,
          still, rfl, rfl, rfl⟩

theorem reachable (reached : system.Reachable world) : Traced world :=
  reached.invariant (fun _ begins => begins ▸ initially) fun _ _ _ traced moved =>
    traced.step moved

end Traced

end Rozi.OutputLog
