import Rozi.Extension.OutputLogSound

/-!
What one operation of a writer does to the files, and with it the invariant in every run.
-/

namespace Rozi.OutputLog

def Progress.logged (log : List Block) : Progress → List Block
  | .written block => log ++ [block]
  | _ => log

/-- What an operation of a writer may do to the files: `locked` is whether it holds the lock. -/
structure Moves (locked : Bool) (before : World) (disk : Disk) (log : List Block)
    (truncated : Bool) : Prop where
  valid : disk.Valid
  length : before.disk.files.length ≤ disk.files.length
  live : locked = false → ∀ file, before.disk.live = some file → disk.live = some file
  written : ∀ file, Written (disk.held file) log
  punctual : ∀ block ∈ log, block.locked = true → block.late = false
  grows : ∀ blocks, Written blocks before.log → Written blocks log
  follows : Follows disk.rotatedBlocks disk.liveBlocks log (truncated = false)
  front : ∀ rotated gapless, (gapless → locked = false) →
    Follows rotated before.disk.liveBlocks before.log gapless →
      Follows rotated disk.liveBlocks log gapless
  truncated : truncated = false → before.truncated = false

namespace Sound

variable {world : World}

theorem moves_quiet (sound : Sound world) {locked : Bool} {disk : Disk} {truncated : Bool}
    (valid : disk.Valid) (length : world.disk.files.length ≤ disk.files.length)
    (live : ∀ file, world.disk.live = some file → disk.live = some file)
    (held : ∀ file, disk.held file = world.disk.held file)
    (liveBlocks : disk.liveBlocks = world.disk.liveBlocks)
    (rotatedBlocks : disk.rotatedBlocks = world.disk.rotatedBlocks)
    (since : truncated = false → world.truncated = false) :
    Moves locked world disk world.log truncated where
  valid := valid
  length := length
  live := fun _ => live
  written := fun file => held file ▸ sound.written file
  punctual := sound.punctual
  grows := fun _ written => written
  follows := by
    rw [liveBlocks, rotatedBlocks]
    exact sound.follows.weaken since
  front := fun _ _ _ follows => liveBlocks ▸ follows
  truncated := since

theorem moves_same (sound : Sound world) {locked : Bool} {truncated : Bool}
    (since : truncated = false → world.truncated = false) :
    Moves locked world world.disk world.log truncated :=
  sound.moves_quiet sound.valid le_rfl (fun _ live => live) (fun _ => rfl) rfl rfl since

theorem moves_open (sound : Sound world) {locked : Bool} :
    Moves locked world world.disk.openForAppend.2 world.log world.truncated := by
  refine sound.moves_quiet sound.valid.openForAppend Disk.length_openForAppend (fun file live => ?_)
    (fun _ => Disk.held_openForAppend) Disk.liveBlocks_openForAppend
    Disk.rotatedBlocks_openForAppend fun since => since
  unfold Disk.openForAppend
  rw [live]
  exact live

theorem moves_rename (sound : Sound world) {file : Nat} (live : world.disk.live = some file) :
    Moves true world { world.disk with rotated := some file, live := none } world.log
      world.truncated := by
  have blocks : world.disk.liveBlocks = world.disk.held file := by
    rw [Disk.liveBlocks, live]
    rfl
  constructor
  case valid =>
    refine ⟨fun other same => ?_, fun other same => ?_, fun other same => ?_⟩
    · cases same
    · cases same
      exact sound.valid.liveThere file live
    · cases same
  case length => exact le_rfl
  case live => exact fun unlocked => by cases unlocked
  case written => exact sound.written
  case punctual => exact sound.punctual
  case grows => exact fun _ written => written
  case follows =>
    have follows := sound.follows.rotate
    rw [blocks] at follows
    exact follows
  case front =>
    intro rotated gapless unlocked follows
    exact follows.emptied.weaken fun holds => by cases unlocked holds
  case truncated => exact fun since => since

theorem moves_truncate (sound : Sound world) {file : Nat} (live : world.disk.live = some file) :
    Moves true world (world.disk.put file []) world.log true := by
  have there := sound.valid.liveThere file live
  have emptied : (world.disk.put file []).liveBlocks = [] := by
    rw [Disk.liveBlocks_put there, if_pos live]
  have rotated : (world.disk.put file []).rotatedBlocks = world.disk.rotatedBlocks := by
    rw [Disk.rotatedBlocks_put there, if_neg (sound.valid.apart file live)]
  constructor
  case valid => exact sound.valid.put file []
  case length => exact Nat.le_of_eq List.length_set.symm
  case live => exact fun _ _ same => same
  case written =>
    intro other
    rw [Disk.held_put there]
    split_ifs
    · exact .nil
    · exact sound.written other
  case punctual => exact sound.punctual
  case grows => exact fun _ written => written
  case follows =>
    rw [emptied, rotated]
    exact sound.follows.emptied.weaken fun since => by cases since
  case front =>
    intro front gapless unlocked follows
    rw [emptied]
    exact follows.emptied.weaken fun holds => by cases unlocked holds
  case truncated => exact fun since => by cases since

theorem moves_write (sound : Sound world) {locked : Bool} {file : Nat} {block : Block}
    (there : file < world.disk.files.length)
    (late : block.late = decide (world.disk.live ≠ some file))
    (held : block.locked = true → world.disk.live = some file)
    (starts : block.note = true → block.overtaken = false →
      block.newline = true ∨ Ends (world.disk.held file)) :
    Moves locked world (world.disk.put file (world.disk.held file ++ [block]))
      (world.log ++ [block]) world.truncated := by
  have liveBlocks : (world.disk.put file (world.disk.held file ++ [block])).liveBlocks = _ :=
    Disk.liveBlocks_put there
  have rotatedBlocks : (world.disk.put file (world.disk.held file ++ [block])).rotatedBlocks = _ :=
    Disk.rotatedBlocks_put there
  -- whatever was rotated, a write to the live file goes after it, and a late one is left out
  have front : ∀ rotated gapless,
      Follows rotated world.disk.liveBlocks world.log gapless →
        Follows rotated (world.disk.put file (world.disk.held file ++ [block])).liveBlocks
          (world.log ++ [block]) gapless := by
    intro rotated gapless follows
    rw [liveBlocks]
    split_ifs with live
    · have blocks : world.disk.liveBlocks = world.disk.held file := by
        rw [Disk.liveBlocks, live]
        rfl
      rw [← blocks]
      exact follows.write (late.trans (decide_eq_false fun away => away live))
    · exact follows.writeLate (late.trans (decide_eq_true live))
  constructor
  case valid => exact sound.valid.put file _
  case length => exact Nat.le_of_eq List.length_set.symm
  case live => exact fun _ _ same => same
  case written =>
    intro other
    rw [Disk.held_put there]
    split_ifs
    · exact (sound.written file).append starts
    · exact (sound.written other).more block
  case punctual =>
    intro other listed holds
    rcases List.mem_append.mp listed with before | last
    · exact sound.punctual other before holds
    · rw [List.mem_singleton] at last
      subst last
      exact late.trans (decide_eq_false fun away => away (held holds))
  case grows => exact fun _ written => written.more block
  case follows =>
    have follows := front _ _ sound.follows
    rw [rotatedBlocks]
    split_ifs with rotated
    · have away : world.disk.live ≠ some file := fun live => sound.valid.apart file live rotated
      have blocks : world.disk.rotatedBlocks = world.disk.held file := by
        rw [Disk.rotatedBlocks, rotated]
        rfl
      have same : timely (world.disk.held file ++ [block]) = timely world.disk.rotatedBlocks := by
        rw [timely_append, timely_cons_late (late.trans (decide_eq_true away)), List.append_nil,
          blocks]
      exact ⟨same ▸ follows.order, fun holds => same ▸ follows.recent holds⟩
    · exact follows
  case front => exact fun rotated gapless _ => front rotated gapless
  case truncated => exact fun since => since

theorem ready_place {append : Append} {disk : Disk} {file length : Nat} {needsNewline : Bool}
    {seen : Option (List Block)} (on : append.On disk file)
    (starts : ∀ blocks, seen = some blocks → append.onFreshLine = true →
      needsNewline = true ∨ Ends blocks) :
    ({ append with next := append.place file length needsNewline seen } : Append).Ready disk := by
  unfold Append.place
  simp only
  by_cases rotates : append.locked = true ∧
      cap < length + (if needsNewline = true then 1 else 0) + append.bytes.length
  · rw [if_pos rotates]
    exact ⟨on, rotates.1⟩
  · rw [if_neg rotates]
    exact ⟨on, starts⟩

theorem ends_of_measured {blocks : List Block} (empty : ¬0 < (contents blocks).length) :
    Ends blocks :=
  .inl (List.eq_nil_of_length_eq_zero (Nat.eq_zero_of_not_pos empty))

/-- The last byte read tells how the file ends, as long as it still holds what was measured. -/
theorem ends_of_looked {blocks : List Block} {last : UInt8}
    (looked : (contents blocks)[(contents blocks).length - 1]? = some last) :
    decide (last ≠ 10) = true ∨ Ends blocks := by
  by_cases feed : last = 10
  · refine .inr (.inr ?_)
    rw [List.getLast?_eq_getElem?, looked, feed]
  · exact .inl (decide_eq_true feed)

/-- One operation of `append_to`: what it does to the files, and what the writer relies on after
it. -/
theorem advance (sound : Sound world) {append : Append} (ready : append.Ready world.disk)
    (renames : Bool) :
    Moves append.locked world (append.advance renames world.disk).1
        ((append.advance renames world.disk).2.logged world.log)
        (world.truncated || append.next matches .truncate _) ∧
      ∀ operation, (append.advance renames world.disk).2 = .next operation →
        ({ append with next := operation } : Append).Ready (append.advance renames world.disk).1 := by
  unfold Append.Ready at ready
  unfold Append.advance
  cases next : append.next with
  | openLog =>
      rw [next] at ready
      simp only [Bool.or_false]
      refine ⟨sound.moves_open, fun operation going => ?_⟩
      cases going
      exact ⟨sound.valid.openForAppend_there, fun _ => Disk.live_openForAppend⟩
  | measure file =>
      rw [next] at ready
      simp only [Bool.or_false]
      refine ⟨sound.moves_same fun since => since, fun operation going => ?_⟩
      simp only [Progress.next.injEq] at going
      rw [← going]
      split_ifs with looks
      · exact ⟨ready, rfl, looks.2⟩
      · refine ready_place ready fun blocks seen fresh => .inr ?_
        cases seen
        exact ends_of_measured fun some => looks ⟨fresh, some⟩
  | endsWithNewline file length seen =>
      rw [next] at ready
      rcases ready with ⟨on, measured, _⟩
      simp only [Bool.or_false]
      cases looked : (contents (world.disk.held file))[length - 1]? with
      | none => exact ⟨sound.moves_same fun since => since, fun _ going => by cases going⟩
      | some last =>
          refine ⟨sound.moves_same fun since => since, fun operation going => ?_⟩
          cases going
          refine ready_place on fun blocks still _ => ?_
          split_ifs at still with held
          cases still
          rw [held, measured] at looked
          exact ends_of_looked looked
  | rename file =>
      rw [next] at ready
      rcases ready with ⟨on, locked⟩
      have live := on.2 locked
      simp only [live, Bool.or_false]
      cases renames with
      | true =>
          have moved := sound.moves_rename live
          rw [← locked] at moved
          refine ⟨moved, fun operation going => ?_⟩
          cases going
          exact locked
      | false =>
          refine ⟨sound.moves_same fun since => since, fun operation going => ?_⟩
          cases going
          exact ⟨on, locked⟩
  | reopen =>
      rw [next] at ready
      simp only [Bool.or_false]
      refine ⟨sound.moves_open, fun operation going => ?_⟩
      cases going
      refine ⟨⟨sound.valid.openForAppend_there, fun _ => Disk.live_openForAppend⟩,
        fun blocks seen _ => .inr ?_⟩
      cases seen
      exact .inl rfl
  | truncate file =>
      rw [next] at ready
      rcases ready with ⟨on, locked⟩
      have live := on.2 locked
      simp only [live, Bool.or_true]
      refine ⟨locked ▸ sound.moves_truncate live, fun operation going => ?_⟩
      cases going
      refine ⟨⟨?_, fun _ => live⟩, fun blocks seen _ => .inr ?_⟩
      · exact lt_of_lt_of_eq on.1 List.length_set.symm
      · cases seen
        exact .inl rfl
  | writeAll file needsNewline seen =>
      rw [next] at ready
      rcases ready with ⟨on, starts⟩
      simp only [Bool.or_false]
      refine ⟨sound.moves_write on.1 rfl on.2 fun note alone => ?_, fun _ going => by
        cases going⟩
      exact starts _ (Eq.symm (by simpa using alone)) note

/-! The steps. -/

theorem initially : Sound {} where
  valid := by
    constructor
    · exact fun _ live => by cases live
    · exact fun _ rotated => by cases rotated
    · exact fun _ live => by cases live
  writerLock := fun _ _ found => by cases found
  readerLock := fun _ _ found => by cases found
  ready := fun _ _ found => by cases found
  written := fun _ => .nil
  punctual := fun _ listed => by cases listed
  follows := ⟨.refl _, fun _ => List.suffix_refl _⟩
  reading := fun _ _ _ found => by cases found
  shown := fun _ listed => by cases listed

structure Keeps (before after : World) (writer : Nat) : Prop where
  writers : ∀ other append, other ≠ writer → after.writers.lookup other = some append →
    before.writers.lookup other = some append
  readers : after.readers = before.readers
  shown : after.shown = before.shown

theorem ready_mono {append : Append} {before after : Disk} (ready : append.Ready before)
    (length : before.files.length ≤ after.files.length)
    (live : append.locked = true → ∀ file, before.live = some file → after.live = some file) :
    append.Ready after := by
  have on : ∀ file, append.On before file → append.On after file := fun file handle =>
    ⟨Nat.lt_of_lt_of_le handle.1 length, fun holds => live holds file (handle.2 holds)⟩
  unfold Append.Ready at ready ⊢
  cases next : append.next with
  | openLog => trivial
  | measure file =>
      rw [next] at ready
      exact on file ready
  | endsWithNewline file length seen =>
      rw [next] at ready
      exact ⟨on file ready.1, ready.2⟩
  | rename file =>
      rw [next] at ready
      exact ⟨on file ready.1, ready.2⟩
  | reopen =>
      rw [next] at ready
      exact ready
  | truncate file =>
      rw [next] at ready
      exact ⟨on file ready.1, ready.2⟩
  | writeAll file needsNewline seen =>
      rw [next] at ready
      exact ⟨on file ready.1, ready.2⟩

variable {next : World}

/-- After an operation of `writer`: `going` is its append if it goes on. -/
theorem move (sound : Sound world) {writer : Nat} {append : Append}
    (found : world.writers.lookup writer = some append)
    (moves : Moves append.locked world next.disk next.log next.truncated)
    (keeps : Keeps world next writer)
    (going : ∀ after, next.writers.lookup writer = some after →
      after.locked = append.locked ∧ after.Ready next.disk ∧ next.lock = world.lock)
    (lock : ∀ party, party ≠ .writer writer → world.lock = some party → next.lock = some party) :
    Sound next where
  valid := moves.valid
  writerLock := by
    intro other after there holds
    by_cases same : other = writer
    · subst same
      rcases going after there with ⟨locked, _, still⟩
      rw [still]
      exact sound.writerLock other append found (locked ▸ holds)
    · refine lock _ (fun is => same (Party.writer.inj is)) ?_
      exact sound.writerLock other after (keeps.writers other after same there) holds
  readerLock := by
    intro reader snapshot there holds
    rw [keeps.readers] at there
    exact lock _ (fun is => by cases is) (sound.readerLock reader snapshot there holds)
  ready := by
    intro other after there
    by_cases same : other = writer
    · subst same
      exact (going after there).2.1
    · have before := keeps.writers other after same there
      refine ready_mono (sound.ready other after before) moves.length fun holds file live => ?_
      refine moves.live ?_ file live
      -- only one of the two holds the lock
      rw [← Bool.not_eq_true]
      intro locked
      have one := sound.writerLock other after before holds
      rw [sound.writerLock writer append found locked, Option.some.injEq, Party.writer.injEq] at one
      exact same one.symm
  written := moves.written
  punctual := moves.punctual
  follows := moves.follows
  reading := by
    intro reader snapshot rotated there begun
    rw [keeps.readers] at there
    rcases sound.reading reader snapshot rotated there begun with ⟨written, follows⟩
    refine ⟨moves.grows _ written, moves.front _ _ (fun holds => ?_) (follows.weaken fun holds =>
      ⟨holds.1, moves.truncated holds.2⟩)⟩
    rw [← Bool.not_eq_true]
    intro locked
    have one := sound.readerLock reader snapshot there holds.1
    rw [sound.writerLock writer append found locked] at one
    cases one
  shown := keeps.shown ▸ sound.shown

theorem unlock_other {party : Party} {other : Party} (different : other ≠ party)
    (holds : world.lock = some other) : world.unlock party = some other := by
  unfold World.unlock
  rw [if_neg fun same => different (Option.some.inj (holds.symm.trans same)), holds]

theorem finish (sound : Sound world) {writer : Nat} {append : Append} {disk : Disk}
    {log : List Block} {truncated : Bool} (found : world.writers.lookup writer = some append)
    (moves : Moves append.locked world disk log truncated) :
    Sound (({ world with disk, log, truncated } : World).finish writer) := by
  refine sound.move found moves ⟨fun other after different there => ?_, rfl, rfl⟩ ?_ ?_
  · change (world.writers.erase writer).lookup other = some after at there
    rw [AList.lookup_erase_ne different] at there
    exact there
  · intro after there
    change (world.writers.erase writer).lookup writer = some after at there
    rw [AList.lookup_erase] at there
    cases there
  · intro party different holds
    exact unlock_other different holds

theorem operate (sound : Sound world) {writer : Nat} {renames : Bool}
    (moved : world.operate writer renames = some next) : Sound next := by
  unfold World.operate at moved
  rw [Option.map_eq_some_iff] at moved
  rcases moved with ⟨append, found, rfl⟩
  rcases sound.advance (sound.ready writer append found) renames with ⟨moves, ready⟩
  unfold World.proceed
  cases progress : (append.advance renames world.disk).2 with
  | next operation =>
      rw [progress] at moves
      refine sound.move found moves ⟨fun other after different there => ?_, rfl, rfl⟩ ?_ ?_
      · change (world.writers.insert writer _).lookup other = some after at there
        rw [AList.lookup_insert_ne different] at there
        exact there
      · intro after there
        change (world.writers.insert writer _).lookup writer = some after at there
        rw [AList.lookup_insert] at there
        cases there
        exact ⟨rfl, ready operation progress, rfl⟩
      · exact fun party _ holds => holds
  | written block =>
      rw [progress] at moves
      exact sound.finish found moves
  | failed =>
      rw [progress] at moves
      exact sound.finish found moves

theorem lock_free (sound : Sound world) (free : world.lock = none) {writer : Nat} {append : Append}
    (found : world.writers.lookup writer = some append) : append.locked = false := by
  rw [← Bool.not_eq_true]
  intro locked
  have holds := sound.writerLock writer append found locked
  rw [free] at holds
  cases holds

theorem append (sound : Sound world) {writer : Nat} {bytes : List UInt8}
    {onFreshLine locked : Bool}
    (moved : world.append writer bytes onFreshLine locked = some next) : Sound next := by
  unfold World.append at moved
  by_cases busy : (world.writers.lookup writer).isSome = true ∨ locked = true ∧ world.lock ≠ none
  · rw [if_pos busy] at moved
    cases moved
  · rw [if_neg busy] at moved
    rw [not_or, not_and, not_not] at busy
    by_cases nothing : cut bytes = []
    · rw [if_pos nothing] at moved
      cases moved
      exact { sound with }
    rw [if_neg nothing] at moved
    cases moved
    constructor
    case valid => exact sound.valid
    case writerLock =>
      intro other after there holds
      rcases AList.lookup_insert_some there with ⟨rfl, rfl⟩ | ⟨_, before⟩
      · exact if_pos holds
      · cases locked with
        | true => exact absurd holds (Bool.eq_false_iff.mp (sound.lock_free (busy.2 rfl) before))
        | false => exact sound.writerLock other after before holds
    case readerLock =>
      intro reader snapshot there holds
      have before := sound.readerLock reader snapshot there holds
      cases locked with
      | true =>
          rw [busy.2 rfl] at before
          cases before
      | false => exact before
    case ready =>
      intro other after there
      rcases AList.lookup_insert_some there with ⟨rfl, rfl⟩ | ⟨_, before⟩
      · exact True.intro
      · exact sound.ready other after before
    case written => exact sound.written
    case punctual => exact sound.punctual
    case follows => exact sound.follows
    case reading => exact sound.reading
    case shown => exact sound.shown

theorem giveUp (sound : Sound world) {writer : Nat}
    (moved : world.giveUp writer = some next) : Sound next := by
  unfold World.giveUp at moved
  split_ifs at moved with going
  cases moved
  rcases Option.isSome_iff_exists.mp going with ⟨append, found⟩
  exact { sound.finish found (sound.moves_same fun since => since) with }

theorem readers (sound : Sound world) {lock : Option Party}
    {readers : AList fun _ : Nat => Snapshot} {shown : List Shown}
    (writers : ∀ writer append, world.writers.lookup writer = some append →
      append.locked = true → lock = some (.writer writer))
    (holding : ∀ reader snapshot, readers.lookup reader = some snapshot →
      snapshot.locked = true → lock = some (.reader reader))
    (reading : ∀ reader snapshot rotated, readers.lookup reader = some snapshot →
      snapshot.rotated = some rotated → Written rotated world.log ∧
        Follows rotated world.disk.liveBlocks world.log
          (snapshot.locked = true ∧ world.truncated = false))
    (good : ∀ one ∈ shown, one.Good) : Sound { world with lock, readers, shown } where
  valid := sound.valid
  writerLock := writers
  readerLock := holding
  ready := sound.ready
  written := sound.written
  punctual := sound.punctual
  follows := sound.follows
  reading := reading
  shown := good

theorem snapshot (sound : Sound world) {reader : Nat}
    (moved : world.snapshot reader = some next) : Sound next := by
  unfold World.snapshot at moved
  split_ifs at moved with busy file free
  · cases moved
    refine sound.readers ?_ ?_ ?_ sound.shown
    · intro writer append found holds
      exact absurd holds (Bool.eq_false_iff.mp (sound.lock_free free found))
    · intro other snapshot there holds
      rcases AList.lookup_insert_some there with ⟨rfl, _⟩ | ⟨_, before⟩
      · rfl
      · have held := sound.readerLock other snapshot before holds
        rw [free] at held
        cases held
    · intro other snapshot rotated there begun
      rcases AList.lookup_insert_some there with ⟨_, rfl⟩ | ⟨_, before⟩
      · cases begun
      · exact sound.reading other snapshot rotated before begun
  · cases moved
    refine sound.readers sound.writerLock ?_ ?_ sound.shown
    · intro other snapshot there holds
      rcases AList.lookup_insert_some there with ⟨_, rfl⟩ | ⟨_, before⟩
      · cases holds
      · exact sound.readerLock other snapshot before holds
    · intro other snapshot rotated there begun
      rcases AList.lookup_insert_some there with ⟨_, rfl⟩ | ⟨_, before⟩
      · cases begun
      · exact sound.reading other snapshot rotated before begun

theorem closeReader (sound : Sound world) {reader : Nat} {shown : List Shown}
    (good : ∀ one ∈ shown, one.Good) :
    Sound (({ world with shown } : World).closeReader reader) := by
  refine sound.readers ?_ ?_ ?_ good
  · intro writer append found holds
    exact unlock_other (fun same => by cases same) (sound.writerLock writer append found holds)
  · intro other snapshot there holds
    rcases AList.lookup_erase_some there with ⟨different, before⟩
    exact unlock_other (fun same => different (Party.reader.inj same))
      (sound.readerLock other snapshot before holds)
  · intro other snapshot rotated there begun
    exact sound.reading other snapshot rotated (AList.lookup_erase_some there).2 begun

theorem written_blocks (sound : Sound world) :
    Written world.disk.rotatedBlocks world.log ∧ Written world.disk.liveBlocks world.log := by
  unfold Disk.rotatedBlocks Disk.liveBlocks
  constructor
  · cases world.disk.rotated with
    | none => exact .nil
    | some file => exact sound.written file
  · cases world.disk.live with
    | none => exact .nil
    | some file => exact sound.written file

theorem read (sound : Sound world) {reader : Nat}
    (moved : world.read reader = some next) : Sound next := by
  unfold World.read at moved
  rw [Option.map_eq_some_iff] at moved
  rcases moved with ⟨snapshot, found, rfl⟩
  cases begun : snapshot.rotated with
  | none =>
      refine sound.readers sound.writerLock ?_ ?_ sound.shown
      · intro other after there holds
        rcases AList.lookup_insert_some there with ⟨rfl, rfl⟩ | ⟨_, before⟩
        · exact sound.readerLock other snapshot found holds
        · exact sound.readerLock other after before holds
      · intro other after rotated there now
        rcases AList.lookup_insert_some there with ⟨rfl, rfl⟩ | ⟨_, before⟩
        · cases now
          exact ⟨sound.written_blocks.1, sound.follows.weaken fun holds => holds.2⟩
        · exact sound.reading other after rotated before now
  | some rotated =>
      rcases sound.reading reader snapshot rotated found begun with ⟨written, follows⟩
      refine sound.closeReader fun one listed => ?_
      rcases List.mem_append.mp listed with before | last
      · exact sound.shown one before
      · rw [List.mem_singleton] at last
        subst last
        exact ⟨follows, written, sound.written_blocks.2, sound.punctual⟩

theorem stopReading (sound : Sound world) {reader : Nat}
    (moved : world.stopReading reader = some next) : Sound next := by
  unfold World.stopReading at moved
  split_ifs at moved
  cases moved
  exact sound.closeReader sound.shown

theorem step (sound : Sound world) {label : Label} (moved : world.perform label = some next) :
    Sound next := by
  cases label with
  | openSink =>
      cases moved
      exact { sound with }
  | append writer bytes onFreshLine locked => exact sound.append moved
  | operate writer renames => exact sound.operate moved
  | giveUp writer => exact sound.giveUp moved
  | snapshot reader => exact sound.snapshot moved
  | read reader => exact sound.read moved
  | stopReading reader => exact sound.stopReading moved

theorem reachable (reached : system.Reachable world) : Sound world :=
  reached.invariant (fun _ begins => begins ▸ initially) fun _ _ _ sound moved => sound.step moved

end Sound

end Rozi.OutputLog
