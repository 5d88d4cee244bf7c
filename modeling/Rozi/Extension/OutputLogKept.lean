import Rozi.Extension.OutputLogGuarded
import Rozi.Extension.OutputLogTaken

/-!
What the text of a snapshot keeps of the output, and where writes without the lock, a rename that
fails and a read without the lock lose it.
-/

namespace Rozi.OutputLog

/-! The text. -/

def LineEnds (text : List Char) : Prop := text = [] ∨ text.getLast? = some '\n'

theorem lineEnds_feed (text : List Char) : LineEnds (text ++ ['\n']) :=
  .inr List.getLast?_concat

theorem text_note {blocks front back : List Block} {block : Block}
    (split : blocks = front ++ block :: back) (starts : block.newline = true ∨ Ends front) :
    ∃ before, LineEnds before ∧ Utf8.fromUtf8Lossy (contents blocks) =
      before ++ Utf8.fromUtf8Lossy (block.bytes ++ contents back) := by
  have whole : contents blocks =
      contents front ++ ((if block.newline then [10] else []) ++ (block.bytes ++ contents back)) := by
    rw [split, contents_append, ← List.append_assoc _ block.bytes]
    rfl
  cases feed : block.newline with
  | true =>
      rw [feed, if_pos rfl, List.singleton_append] at whole
      refine ⟨_, lineEnds_feed (Utf8.fromUtf8Lossy (contents front)), ?_⟩
      rw [whole, Utf8.fromUtf8Lossy_append, List.append_assoc, List.singleton_append]
  | false =>
      rw [feed, if_neg Bool.false_ne_true, List.nil_append] at whole
      rcases starts.resolve_left (Bool.eq_false_iff.mp feed) with empty | ended
      · refine ⟨[], .inl rfl, ?_⟩
        rw [whole, empty, List.nil_append, List.nil_append]
      · rcases List.getLast?_eq_some_iff.mp ended with ⟨start, same⟩
        refine ⟨_, lineEnds_feed (Utf8.fromUtf8Lossy start), ?_⟩
        rw [whole, same, List.append_assoc, List.singleton_append, Utf8.fromUtf8Lossy_append,
          List.append_assoc, List.singleton_append]

theorem joinGenerations_eq (rotated live : List UInt8) :
    joinGenerations rotated live =
      addPart (Utf8.fromUtf8Lossy rotated) (Utf8.fromUtf8Lossy live) := by
  unfold joinGenerations
  rw [List.foldl_cons, List.foldl_cons, List.foldl_nil]
  rfl

theorem addPart_eq (text part : List Char) (some : part ≠ []) :
    ∃ before, LineEnds before ∧ addPart text part = before ++ part := by
  unfold addPart
  split_ifs with joins
  · exact ⟨_, lineEnds_feed text, rfl⟩
  · refine ⟨text, ?_, rfl⟩
    by_contra open_line
    rcases not_or.mp open_line with ⟨begun, ended⟩
    exact joins ⟨begun, ended, some⟩

theorem lineEnds_append {before more : List Char} (first : LineEnds before)
    (second : LineEnds more) : LineEnds (before ++ more) := by
  rcases second with rfl | ended
  · rw [List.append_nil]
    exact first
  · refine .inr ?_
    rw [List.getLast?_append, ended]
    rfl

namespace Shown

variable (shown : Shown)

/-- Every note that no other write overtook starts a line of the text: one of the rotated
generation within its part, which comes first, one of the live file up to the end. -/
structure NotesStart : Prop where
  rotated : ∀ front block back, shown.rotated = front ++ block :: back → block.note = true →
    block.overtaken = false → ∃ before after, LineEnds before ∧
      Utf8.fromUtf8Lossy (contents shown.rotated) =
        before ++ Utf8.fromUtf8Lossy (block.bytes ++ contents back) ∧
      shown.text = Utf8.fromUtf8Lossy (contents shown.rotated) ++ after
  live : ∀ front block back, shown.live = front ++ block :: back → block.note = true →
    block.overtaken = false → Utf8.fromUtf8Lossy (contents shown.live) ≠ [] →
      ∃ before, LineEnds before ∧
        shown.text = before ++ Utf8.fromUtf8Lossy (block.bytes ++ contents back)

variable {shown}

theorem Good.notesStart (good : shown.Good) : shown.NotesStart where
  rotated := by
    intro front block back split note alone
    rcases text_note split (good.rotated.fresh front block back split note alone) with
      ⟨before, ends, same⟩
    unfold Shown.text
    rw [joinGenerations_eq, addPart]
    split_ifs
    · exact ⟨before, _, ends, same, List.append_assoc _ _ _⟩
    · exact ⟨before, _, ends, same, rfl⟩
  live := by
    intro front block back split note alone some
    rcases text_note split (good.live.fresh front block back split note alone) with
      ⟨before, ends, same⟩
    rcases addPart_eq (Utf8.fromUtf8Lossy (contents shown.rotated)) _ some with
      ⟨first, begins, joined⟩
    refine ⟨first ++ before, lineEnds_append begins ends, ?_⟩
    rw [Shown.text, joinGenerations_eq, joined, same, List.append_assoc]

end Shown

/-! What is kept. -/

namespace World

structure Keeps (world : World) : Prop where
  taken : ∀ shown ∈ world.shown, ∃ reader before after, world.Taken shown reader before after
  /-- Late writes left out, in the order of the appends. -/
  order : ∀ shown ∈ world.shown,
    (timely shown.rotated ++ timely shown.live).Sublist (timely shown.log)
  /-- And without a gap, up to the end. -/
  recent : ∀ shown ∈ world.shown, shown.locked = true → shown.truncated = false →
    timely shown.rotated ++ timely shown.live <:+ timely shown.log
  logged : ∀ shown ∈ world.shown, ∀ block ∈ shown.rotated ++ shown.live, block ∈ shown.log
  punctual : ∀ shown ∈ world.shown, ∀ block ∈ shown.log, block.locked = true → block.late = false
  notes : ∀ shown ∈ world.shown, shown.NotesStart

/-- What the files and the snapshots are as long as every append holds the lock. -/
structure KeepsGuarded (world : World) : Prop where
  alone : ∀ block ∈ world.log, block.late = false ∧ block.overtaken = false
  live : world.disk.liveSize ≤ cap
  rotated : world.disk.rotatedSize ≤ cap
  shown : ∀ shown ∈ world.shown, shown.locked = true → shown.truncated = false →
    shown.rotated ++ shown.live <:+ shown.log
  /-- Between appends that went through, the generations hold a cap of output, or all of it. -/
  enough : world.truncated = false → world.gaveUp = false →
    (∀ writer, world.writers.lookup writer = none) →
      world.disk.rotatedBlocks ++ world.disk.liveBlocks <:+ world.log ∧
        (cap ≤ (contents (world.disk.rotatedBlocks ++ world.disk.liveBlocks)).length ∨
          world.disk.rotatedBlocks ++ world.disk.liveBlocks = world.log)

end World

variable {world : World}

theorem Sound.keeps (sound : Sound world) (traced : Traced world) : world.Keeps where
  taken := traced.shown
  order := fun shown listed => (sound.shown shown listed).follows.order
  recent := fun shown listed locked whole =>
    (sound.shown shown listed).follows.recent ⟨locked, whole⟩
  logged := by
    intro shown listed block there
    rcases List.mem_append.mp there with old | new
    · exact (sound.shown shown listed).rotated.logged block old
    · exact (sound.shown shown listed).live.logged block new
  punctual := fun shown listed => (sound.shown shown listed).punctual
  notes := fun shown listed => (sound.shown shown listed).notesStart

theorem timely_of_all {blocks : List Block} (all : ∀ block ∈ blocks, block.late = false) :
    timely blocks = blocks := by
  refine List.filter_eq_self.mpr fun block listed => ?_
  rw [all block listed]
  rfl

theorem Follows.whole {rotated live log : List Block} {gapless : Prop}
    (follows : Follows rotated live log gapless) (olds : ∀ block ∈ rotated, block ∈ log)
    (news : ∀ block ∈ live, block ∈ log) (all : ∀ block ∈ log, block.late = false)
    (holds : gapless) : rotated ++ live <:+ log := by
  have recent := follows.recent holds
  rw [timely_of_all all, timely_of_all fun block listed => all block (olds block listed),
    timely_of_all fun block listed => all block (news block listed)] at recent
  exact recent

theorem Tidy.keeps (tidy : Tidy world) (sound : Sound world) : world.KeepsGuarded where
  alone := fun block listed =>
    ⟨sound.punctual block listed (tidy.blocks block listed).1, (tidy.blocks block listed).2⟩
  live := tidy.live
  rotated := tidy.rotated
  shown := by
    intro shown listed locked whole
    have good := sound.shown shown listed
    exact good.follows.whole good.rotated.logged good.live.logged
      (fun block there => good.punctual block there (tidy.shown shown listed block there))
      ⟨locked, whole⟩
  enough := by
    intro whole through idle
    rcases sound.written_blocks with ⟨olds, news⟩
    refine ⟨sound.follows.whole olds.logged news.logged (fun block listed =>
      sound.punctual block listed (tidy.blocks block listed).1) whole, ?_⟩
    rcases tidy.idle whole through idle with long | all
    · refine .inl ?_
      rw [contents_append, List.length_append]
      exact long
    · exact .inr all

/-- What a snapshot shows is what was appended, in order and up to the end, but for writes without
the lock that came to a file after it was rotated, and a live file that was truncated because it
could not be renamed; notes start lines unless another write came in between; writes under the lock
keep both generations within the cap, and together a cap of output; and a write without the lock only
appends. -/
theorem output_kept (reached : system.Reachable world) :
    world.Keeps ∧ (system.ReachableWhen Guarded world → world.KeepsGuarded) ∧
      ∀ writer append renames next, world.writers.lookup writer = some append →
        append.locked = false → world.perform (.operate writer renames) = some next →
          World.Grows world.disk next.disk := by
  have sound := Sound.reachable reached
  refine ⟨sound.keeps (Traced.reachable reached), fun guarded => ?_, ?_⟩
  · exact (Tidy.reachable guarded).2.keeps sound
  · intro writer append renames next found unlocked moved
    change world.operate writer renames = some next at moved
    rw [World.operate, found, Option.map_some, Option.some.injEq] at moved
    have disk : next.disk = (append.advance renames world.disk).1 := by
      rw [← moved]
      unfold World.proceed
      cases (append.advance renames world.disk).2 <;> rfl
    rw [disk]
    exact grows_of_unlocked (sound.ready writer append found) unlocked renames

/-! Runs that lose something. -/

section runs

variable {full : List UInt8}

theorem cut_full (length : full.length = cap) : cut full = full := by
  rw [cut, length, Nat.sub_self, List.drop_zero]

theorem full_ne_nil (length : full.length = cap) : full ≠ [] := by
  intro empty
  rw [empty] at length
  exact absurd length (by decide)

def lateLabels (full : List UInt8) : List Label :=
  [.append 1 full false true, .operate 1 true, .operate 1 true, .operate 1 true,
    .append 2 [98] false false, .operate 2 true,
    .append 1 [97] false true, .operate 1 true, .operate 1 true, .operate 1 true, .operate 1 true,
    .operate 1 true, .operate 2 true, .operate 2 true, .snapshot 3, .read 3, .read 3]

def truncatedLabels (full : List UInt8) : List Label :=
  [.append 1 full false true, .operate 1 true, .operate 1 true, .operate 1 true,
    .append 1 [97] false true, .operate 1 true, .operate 1 true, .operate 1 true, .operate 1 true,
    .operate 1 true,
    .append 1 full false true, .operate 1 true, .operate 1 true, .operate 1 false, .operate 1 true,
    .operate 1 true, .snapshot 3, .read 3, .read 3]

def unlockedLabels (full : List UInt8) : List Label :=
  [.snapshot 3, .append 1 full false true, .operate 1 true, .operate 1 true, .operate 1 true,
    .append 1 [97] false true, .operate 1 true, .operate 1 true, .operate 1 true, .operate 1 true,
    .operate 1 true, .read 3,
    .append 1 full false true, .operate 1 true, .operate 1 true, .operate 1 true, .operate 1 true,
    .operate 1 true, .read 3]

def rotatedLabels (full : List UInt8) : List Label :=
  [.append 1 full false true, .operate 1 true, .operate 1 true, .operate 1 true,
    .append 2 [97] false true, .operate 2 true, .operate 2 true, .operate 2 true, .operate 2 true,
    .operate 2 true, .snapshot 3, .read 3, .read 3]

def gluedLabels : List Label :=
  [.append 1 [110] true true, .operate 1 true, .operate 1 true,
    .append 2 [120] false false, .operate 2 true, .operate 2 true, .operate 2 true,
    .operate 1 true, .snapshot 3, .read 3, .read 3]

def chunk (bytes : List UInt8) : Block :=
  { bytes, newline := false, note := false, locked := true, late := false, overtaken := false }

variable {world next : World} {writer file : Nat} {bytes : List UInt8}

theorem run_cons {middle : World} {label : Label} {labels : List Label}
    (first : world.perform label = some middle)
    (rest : labels.foldlM World.perform middle = some next) :
    (label :: labels).foldlM World.perform world = some next := by
  rw [List.foldlM_cons, first]
  exact rest

theorem perform_next {append : Append} {renames : Bool} {disk : Disk} {operation : Operation}
    (found : world.writers.lookup writer = some append)
    (advanced : append.advance renames world.disk = (disk, .next operation)) :
    world.perform (.operate writer renames) = some
      { world.noting append.next with
        disk, writers := world.writers.insert writer { append with next := operation } } := by
  change world.operate writer renames = _
  rw [World.operate, found, Option.map_some, advanced]
  rfl

theorem perform_written {append : Append} {renames : Bool} {disk : Disk} {block : Block}
    (found : world.writers.lookup writer = some append)
    (advanced : append.advance renames world.disk = (disk, .written block)) :
    world.perform (.operate writer renames) = some
      (({ world.noting append.next with disk, log := world.log ++ [block] } : World).finish
        writer) := by
  change world.operate writer renames = _
  rw [World.operate, found, Option.map_some, advanced]
  rfl

theorem perform_append {locked : Bool}
    (nobody : world.writers.lookup writer = none) (free : locked = true → world.lock = none)
    (short : cut bytes = bytes) (some : bytes ≠ []) :
    world.perform (.append writer bytes false locked) = Option.some
      { world with
        lockFile := world.lockFile || locked
        lock := if locked then Option.some (.writer writer) else world.lock
        writers := world.writers.insert writer { bytes, onFreshLine := false, locked } } := by
  change world.append writer bytes false locked = _
  have begins : ¬((world.writers.lookup writer).isSome = true ∨
      locked = true ∧ world.lock ≠ none) := by
    rintro (going | ⟨holds, taken⟩)
    · rw [nobody] at going
      cases going
    · exact taken (free holds)
  rw [World.append, if_neg begins, short, if_neg some]

theorem measure_fits {locked : Bool}
    (found : world.writers.lookup writer =
      some { bytes, onFreshLine := false, locked, next := .measure file })
    (fits : locked = true →
      (contents (world.disk.held file)).length + bytes.length ≤ cap) :
    world.perform (.operate writer true) = some
      { world.noting (.measure file) with
        writers := world.writers.insert writer
          { bytes, onFreshLine := false, locked,
            next := .writeAll file false (some (world.disk.held file)) } } := by
  refine perform_next found ?_
  have stays : ¬(locked = true ∧
      cap < (contents (world.disk.held file)).length + 0 + bytes.length) :=
    fun rotates => absurd rotates.2 (Nat.not_lt.mpr (fits rotates.1))
  simp only [Append.advance, Append.place, Bool.false_eq_true, false_and, if_false, if_neg stays]
  rfl

theorem measure_full
    (found : world.writers.lookup writer =
      some { bytes, onFreshLine := false, locked := true, next := .measure file })
    (full : cap < (contents (world.disk.held file)).length + bytes.length) :
    world.perform (.operate writer true) = some
      { world.noting (.measure file) with
        writers := world.writers.insert writer
          { bytes, onFreshLine := false, locked := true, next := .rename file } } := by
  refine perform_next found ?_
  simp only [Append.advance, Append.place, Bool.false_eq_true, false_and, if_false, Nat.add_zero,
    true_and, if_pos full]
  rfl

theorem full_fits (length : full.length = cap) : (contents []).length + full.length ≤ cap := by
  rw [length]
  exact (Nat.zero_add cap).le

theorem full_over (length : full.length = cap) {block : Block} (same : block.data = full) :
    cap < (contents [block]).length + ([97] : List UInt8).length := by
  rw [contents, List.flatMap_singleton, same, length]
  exact Nat.lt_succ_self cap

theorem over_full (length : full.length = cap) {block : Block} (same : block.data = [97]) :
    cap < (contents [block]).length + full.length := by
  rw [contents, List.flatMap_singleton, same, length, Nat.add_comm]
  exact Nat.lt_succ_self cap

theorem lateRun (length : full.length = cap) :
    ∃ world, (lateLabels full).foldlM World.perform {} = some world ∧
      ∃ shown ∈ world.shown, shown.locked = true ∧ shown.truncated = false ∧
        shown.log.map Block.bytes = [full, [97], [98]] ∧
        (shown.rotated ++ shown.live).map Block.bytes = [full, [98], [97]] := by
  refine ⟨_, run_cons (perform_append rfl (fun _ => rfl) (cut_full length) (full_ne_nil length))
    (run_cons (perform_next rfl rfl) (run_cons (measure_fits rfl fun _ => full_fits length)
    (run_cons (perform_written rfl rfl)
    (run_cons (perform_append rfl (fun locked => by cases locked) (by decide) (by decide))
    (run_cons (perform_next rfl rfl)
    (run_cons (perform_append rfl (fun _ => rfl) (by decide) (by decide))
    (run_cons (perform_next rfl rfl) (run_cons (measure_full rfl (full_over length rfl))
    (run_cons (perform_next rfl rfl) (run_cons (perform_next rfl rfl)
    (run_cons (perform_written rfl rfl)
    (run_cons (measure_fits rfl fun locked => by cases locked) (run_cons (perform_written rfl rfl)
    (run_cons rfl (run_cons rfl (run_cons rfl rfl)))))))))))))))), _,
    List.mem_singleton.mpr rfl, rfl, rfl, rfl, rfl⟩

theorem truncatedRun (length : full.length = cap) :
    ∃ world, (truncatedLabels full).foldlM World.perform {} = some world ∧
      ∃ shown ∈ world.shown, shown.locked = true ∧
        shown.log.map Block.bytes = [full, [97], full] ∧
        (shown.rotated ++ shown.live).map Block.bytes = [full, full] := by
  refine ⟨_, run_cons (perform_append rfl (fun _ => rfl) (cut_full length) (full_ne_nil length))
    (run_cons (perform_next rfl rfl) (run_cons (measure_fits rfl fun _ => full_fits length)
    (run_cons (perform_written rfl rfl)
    (run_cons (perform_append rfl (fun _ => rfl) (by decide) (by decide))
    (run_cons (perform_next rfl rfl) (run_cons (measure_full rfl (full_over length rfl))
    (run_cons (perform_next rfl rfl) (run_cons (perform_next rfl rfl)
    (run_cons (perform_written rfl rfl)
    (run_cons (perform_append rfl (fun _ => rfl) (cut_full length) (full_ne_nil length))
    (run_cons (perform_next rfl rfl) (run_cons (measure_full rfl (over_full length rfl))
    (run_cons (perform_next rfl rfl) (run_cons (perform_next rfl rfl)
    (run_cons (perform_written rfl rfl)
    (run_cons rfl (run_cons rfl (run_cons rfl rfl)))))))))))))))))), _,
    List.mem_singleton.mpr rfl, rfl, rfl, rfl⟩

theorem unlockedRun (length : full.length = cap) :
    ∃ world, (unlockedLabels full).foldlM World.perform {} = some world ∧
      ∃ shown ∈ world.shown, shown.truncated = false ∧
        shown.log.map Block.bytes = [full, [97], full] ∧
        (shown.rotated ++ shown.live).map Block.bytes = [full, full] := by
  refine ⟨_, run_cons rfl
    (run_cons (perform_append rfl (fun _ => rfl) (cut_full length) (full_ne_nil length))
    (run_cons (perform_next rfl rfl) (run_cons (measure_fits rfl fun _ => full_fits length)
    (run_cons (perform_written rfl rfl)
    (run_cons (perform_append rfl (fun _ => rfl) (by decide) (by decide))
    (run_cons (perform_next rfl rfl) (run_cons (measure_full rfl (full_over length rfl))
    (run_cons (perform_next rfl rfl) (run_cons (perform_next rfl rfl)
    (run_cons (perform_written rfl rfl) (run_cons rfl
    (run_cons (perform_append rfl (fun _ => rfl) (cut_full length) (full_ne_nil length))
    (run_cons (perform_next rfl rfl) (run_cons (measure_full rfl (over_full length rfl))
    (run_cons (perform_next rfl rfl) (run_cons (perform_next rfl rfl)
    (run_cons (perform_written rfl rfl) (run_cons rfl rfl)))))))))))))))))), _,
    List.mem_singleton.mpr rfl, rfl, rfl, rfl⟩

theorem rotatedRun (length : full.length = cap) :
    ∃ world, (rotatedLabels full).foldlM World.perform {} = some world ∧
      ∃ shown ∈ world.shown, shown.locked = true ∧ shown.rotated.map Block.bytes = [full] ∧
        shown.live.map Block.bytes = [[97]] := by
  refine ⟨_, run_cons (perform_append rfl (fun _ => rfl) (cut_full length) (full_ne_nil length))
    (run_cons (perform_next rfl rfl) (run_cons (measure_fits rfl fun _ => full_fits length)
    (run_cons (perform_written rfl rfl)
    (run_cons (perform_append rfl (fun _ => rfl) (by decide) (by decide))
    (run_cons (perform_next rfl rfl) (run_cons (measure_full rfl (full_over length rfl))
    (run_cons (perform_next rfl rfl) (run_cons (perform_next rfl rfl)
    (run_cons (perform_written rfl rfl)
    (run_cons rfl (run_cons rfl (run_cons rfl rfl)))))))))))), _,
    List.mem_singleton.mpr rfl, rfl, rfl, rfl⟩

theorem guarded_of_run (length : full.length = cap) :
    ∃ world, system.ReachableWhen Guarded world ∧
      ∃ shown ∈ world.shown, shown.locked = true ∧ shown.rotated.map Block.bytes = [full] ∧
        shown.live.map Block.bytes = [[97]] := by
  rcases rotatedRun length with ⟨world, run, shows⟩
  have guarded : ∀ world label, label ∈ rotatedLabels full → Guarded world label := by
    intro world
    simp [rotatedLabels, Guarded]
  refine ⟨world, (Transition.ReachableWhen.initial rfl).performed ?_ run, shows⟩
  exact fun before label _ listed moved => ⟨guarded before label listed, moved⟩

theorem reached_of_run {labels : List Label} {world : World}
    (run : labels.foldlM World.perform {} = some world) : system.Reachable world :=
  (Transition.Reachable.begin rfl).performed (fun _ _ _ moved => moved) run

end runs

def gluedWorld : World := (gluedLabels.foldlM World.perform {}).getD {}

theorem gluedWorld_reached : system.Reachable gluedWorld := by
  have run : gluedLabels.foldlM World.perform {} = some gluedWorld := rfl
  exact reached_of_run run

def gluedWriting : World := ((gluedLabels.take 6).foldlM World.perform {}).getD {}

theorem gluedWriting_reached : system.Reachable gluedWriting := by
  have run : (gluedLabels.take 6).foldlM World.perform {} = some gluedWriting := rfl
  exact reached_of_run run

/-- A run with a glued note, a write without the lock, and a run under the lock that rotates the
file. -/
theorem output_kept_glued :
    (gluedWorld.shown.map Shown.text = [['x', 'n']] ∧ gluedWorld.Keeps) ∧
      (∃ next, gluedWriting.perform (.operate 2 true) = some next ∧
        next.log.map Block.bytes = [[120]] ∧ World.Grows gluedWriting.disk next.disk) ∧
      ∃ world, system.ReachableWhen Guarded world ∧
        (∃ shown ∈ world.shown, shown.locked = true ∧
          shown.rotated.map Block.bytes = [List.replicate cap 120] ∧
          shown.live.map Block.bytes = [[97]]) ∧ world.Keeps ∧ world.KeepsGuarded := by
  refine ⟨⟨rfl, (output_kept gluedWorld_reached).1⟩, ?_, ?_⟩
  · exact ⟨_, rfl, rfl, (output_kept gluedWriting_reached).2.2 2 _ true _ rfl rfl rfl⟩
  · have length : (List.replicate cap (120 : UInt8)).length = cap := List.length_replicate
    generalize List.replicate cap (120 : UInt8) = full at length ⊢
    rcases guarded_of_run length with ⟨world, guarded, shows⟩
    rcases output_kept guarded.reachable with ⟨keeps, under, _⟩
    exact ⟨world, guarded, shows, keeps, under guarded⟩

/-- A chunk is shown before one that was appended earlier; a truncation or a read without the lock
leaves a gap; a note is glued to unfinished output. -/
theorem output_lost :
    (∃ world, system.Reachable world ∧ ∃ shown ∈ world.shown, shown.locked = true ∧
      shown.truncated = false ∧
      shown.log.map Block.bytes = [List.replicate cap 120, [97], [98]] ∧
      (shown.rotated ++ shown.live).map Block.bytes = [List.replicate cap 120, [98], [97]]) ∧
    (∃ world, system.Reachable world ∧ ∃ shown ∈ world.shown, shown.locked = true ∧
      shown.log.map Block.bytes = [List.replicate cap 120, [97], List.replicate cap 120] ∧
      (shown.rotated ++ shown.live).map Block.bytes =
        [List.replicate cap 120, List.replicate cap 120]) ∧
    (∃ world, system.Reachable world ∧ ∃ shown ∈ world.shown, shown.truncated = false ∧
      shown.log.map Block.bytes = [List.replicate cap 120, [97], List.replicate cap 120] ∧
      (shown.rotated ++ shown.live).map Block.bytes =
        [List.replicate cap 120, List.replicate cap 120]) ∧
    ∃ shown ∈ gluedWorld.shown, shown.locked = true ∧
      shown.live.map (fun block => (block.bytes, block.note)) = [([120], false), ([110], true)] ∧
      shown.text = ['x', 'n'] := by
  have length : (List.replicate cap (120 : UInt8)).length = cap := List.length_replicate
  generalize List.replicate cap (120 : UInt8) = full at length ⊢
  rcases lateRun length with ⟨late, run, shows⟩
  rcases truncatedRun length with ⟨truncated, run', shows'⟩
  rcases unlockedRun length with ⟨unlocked, run'', shows''⟩
  refine ⟨⟨late, reached_of_run run, shows⟩, ⟨truncated, reached_of_run run', shows'⟩,
    ⟨unlocked, reached_of_run run'', shows''⟩, ?_⟩
  exact ⟨_, List.mem_singleton.mpr rfl, rfl, rfl, rfl⟩

end Rozi.OutputLog
