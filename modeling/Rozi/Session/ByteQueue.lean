import Rozi.Library.Transcript
import Rozi.Session.Outbox

/-!
The byte-bounded queue that the server's ingress and a client's mailbox are built on. A blocking
push answers `full` where the source waits for room.
-/

namespace Rozi

open ReplacementQueue

def usizeMax : Nat := 2 ^ 64 - 1

def saturatingAdd (first second : Nat) : Nat := min (first + second) usizeMax

structure MediaWeight where
  bytes : Nat := 0
  files : Nat := 0
  deriving DecidableEq, Repr

inductive PushError (T : Type) where
  | full (value : T)
  | closed (value : T)
  | tooLarge (value : T)
  deriving DecidableEq, Repr

def PushError.value {T : Type} : PushError T → T
  | .full value | .closed value | .tooLarge value => value

inductive SegmentCoalesce (T : Type) where
  | merged (queued : T)
  | continues
  | barrier

inductive Coalesced where
  | merged | continues | barrier
  deriving DecidableEq, Repr

structure QueueEntry (T : Type) where
  value : T
  bytes : Nat
  media : MediaWeight := {}
  replacement : Option ReplacementKey := none
  deriving DecidableEq, Repr

structure ByteQueue (T : Type) where
  capacity : Nat
  mediaBytesLimit : Nat := 0
  mediaFilesLimit : Nat := 0
  entries : List (QueueEntry T) := []
  base : Nat := 0
  replacements : Index ReplacementKey := fun _ => none
  bytes : Nat := 0
  mediaBytes : Nat := 0
  mediaFiles : Nat := 0
  closed : Bool := false

abbrev Pushing (T : Type) := Except (PushError T × ByteQueue T) (ByteQueue T)

namespace ByteQueue

variable {T σ : Type} (queue : ByteQueue T)

def values : List T := queue.entries.map QueueEntry.value

def replacementIndex (key : Option ReplacementKey) : Option Nat :=
  match key.bind queue.replacements with
  | some index => if queue.base ≤ index then some (index - queue.base) else none
  | none => none

def removeFrontIndex (entry : QueueEntry T) : ByteQueue T :=
  { queue with
    replacements := releaseEntry queue.replacements queue.base entry.replacement
    base := queue.base + 1 }

def subtractEntryWeight (entry : QueueEntry T) : ByteQueue T :=
  { queue with
    bytes := queue.bytes - entry.bytes
    mediaBytes := queue.mediaBytes - entry.media.bytes
    mediaFiles := queue.mediaFiles - entry.media.files }

def exceedsEntryLimits (bytes : Nat) (media : MediaWeight) : Bool :=
  decide (queue.capacity < bytes) || decide (queue.mediaBytesLimit < media.bytes) ||
    decide (queue.mediaFilesLimit < media.files)

def fitsInState (bytes : Nat) (media : MediaWeight) (previous : Nat × MediaWeight) : Bool :=
  decide (saturatingAdd (queue.bytes - previous.1) bytes ≤ queue.capacity) &&
    decide (saturatingAdd (queue.mediaBytes - previous.2.bytes) media.bytes ≤
      queue.mediaBytesLimit) &&
    decide (saturatingAdd (queue.mediaFiles - previous.2.files) media.files ≤
      queue.mediaFilesLimit)

def invalidateReplacements (pane : PaneId) (isLocal : Bool) : ByteQueue T :=
  { queue with
    replacements := fun key =>
      if key.pane ≠ pane ∨ key.isLocal ≠ isLocal then queue.replacements key else none }

def clearReplacements : ByteQueue T := { queue with replacements := fun _ => none }

def pushBack (entry : QueueEntry T) : ByteQueue T :=
  { queue with
    entries := queue.entries ++ [entry]
    bytes := queue.bytes + entry.bytes
    mediaBytes := queue.mediaBytes + entry.media.bytes
    mediaFiles := queue.mediaFiles + entry.media.files }

/-- A coalescer of the newest entry answers with what it made of that entry's value, and whether it
merged. -/
def tryPushWith (value : T) (bytes : Nat) (coalesce : T → T → T × Bool) :
    Pushing T :=
  if queue.capacity < bytes then .error (.tooLarge value, queue)
  else if queue.closed then .error (.closed value, queue)
  else if queue.capacity < saturatingAdd queue.bytes bytes then .error (.full value, queue)
  else
    match queue.entries.getLast? with
    | some back =>
        match coalesce back.value value with
        | (queued, true) =>
            .ok { queue with
              entries := queue.entries.dropLast ++ [{ back with
                value := queued, bytes := back.bytes + bytes }]
              bytes := queue.bytes + bytes }
        | (queued, false) =>
            .ok ({ queue with
              entries := queue.entries.dropLast ++ [{ back with value := queued }] }.pushBack
                { value, bytes })
    | none => .ok (queue.pushBack { value, bytes })

def tryPush (value : T) (bytes : Nat) : Pushing T :=
  queue.tryPushWith value bytes fun queued _ => (queued, false)

def tryPushLatestMedia (value : T) (bytes : Nat) (media : MediaWeight)
    (key : Option ReplacementKey) : Pushing T :=
  if queue.exceedsEntryLimits bytes media then .error (.tooLarge value, queue)
  else if queue.closed then .error (.closed value, queue)
  else
    let queued := (queue.replacementIndex key).bind fun index =>
      queue.entries[index]?.map fun entry => (index, entry)
    let previous := match queued with
      | some (_, entry) => (entry.bytes, entry.media)
      | none => (0, {})
    if queue.fitsInState bytes media previous then
      let entry : QueueEntry T := { value, bytes, media, replacement := key }
      let retained : ByteQueue T :=
        { queue with
          bytes := saturatingAdd (queue.bytes - previous.1) bytes
          mediaBytes := saturatingAdd (queue.mediaBytes - previous.2.bytes) media.bytes
          mediaFiles := saturatingAdd (queue.mediaFiles - previous.2.files) media.files }
      match queued with
      | some (index, _) => .ok { retained with entries := queue.entries.set index entry }
      | none =>
          .ok { retained with
            entries := queue.entries ++ [entry]
            replacements := match key with
              | some key =>
                  insertKey queue.replacements key (queue.base + queue.entries.length)
              | none => queue.replacements }
    else .error (.full value, queue)

/-- The scan of a push from the newest entry backward, the newest given first, and whether it
merged. The coalescer is an `FnMut`: it keeps a state of its own. -/
def scanSegment (coalesce : σ → T → T → Bool → Coalesced × T × σ) (value : T) (bytes : Nat)
    (media : MediaWeight) : σ → Bool → List (QueueEntry T) → Bool × List (QueueEntry T)
  | _, _, [] => (false, [])
  | state, adjacent, entry :: older =>
      match coalesce state entry.value value adjacent with
      | (.merged, queued, _) =>
          (true, { entry with
            value := queued
            bytes := entry.bytes + bytes
            media := {
              bytes := entry.media.bytes + media.bytes
              files := entry.media.files + media.files } } :: older)
      | (.continues, queued, after) =>
          let (merged, scanned) := scanSegment coalesce value bytes media after false older
          (merged, { entry with value := queued } :: scanned)
      | (.barrier, queued, _) => (false, { entry with value := queued } :: older)

def segmented (coalesce : σ → T → T → Bool → Coalesced × T × σ) (value : T) (bytes : Nat)
    (media : MediaWeight) (state : σ) (entries : List (QueueEntry T)) : List (QueueEntry T) :=
  match scanSegment coalesce value bytes media state true entries.reverse with
  | (true, scanned) => scanned.reverse
  | (false, scanned) => scanned.reverse ++ [{ value, bytes, media }]

/-- `push_blocking_within_segment_media` with any coalescer. -/
def pushSegment (value : T) (bytes : Nat) (media : MediaWeight)
    (coalesce : σ → T → T → Bool → Coalesced × T × σ) (state : σ) :
    Pushing T :=
  if queue.exceedsEntryLimits bytes media then .error (.tooLarge value, queue)
  else if queue.closed then .error (.closed value, queue)
  else if !queue.fitsInState bytes media (0, {}) then .error (.full value, queue)
  else
    .ok { queue with
      entries := segmented coalesce value bytes media state queue.entries
      bytes := queue.bytes + bytes
      mediaBytes := queue.mediaBytes + media.bytes
      mediaFiles := queue.mediaFiles + media.files }

/-- A coalescer without a state, which changes a value only where it merges. -/
def pureCoalescer (coalesce : T → T → Bool → SegmentCoalesce T) (_ : Unit) (queued value : T)
    (adjacent : Bool) : Coalesced × T × Unit :=
  match coalesce queued value adjacent with
  | .merged queued => (.merged, queued, ())
  | .continues => (.continues, queued, ())
  | .barrier => (.barrier, queued, ())

def pushBlockingWithinSegmentMedia (value : T) (bytes : Nat) (media : MediaWeight)
    (coalesce : T → T → Bool → SegmentCoalesce T) : Pushing T :=
  queue.pushSegment value bytes media (pureCoalescer coalesce) ()

def pushBlockingWith (value : T) (bytes : Nat) (coalesce : T → T → Option T) :
    Pushing T :=
  queue.pushBlockingWithinSegmentMedia value bytes {} fun queued next _ =>
    match coalesce queued next with
    | some merged => .merged merged
    | none => .barrier

def tryPopWithBytesAndMore : Option (T × Nat × Bool) × ByteQueue T :=
  match queue.entries with
  | [] => (none, queue)
  | entry :: entries =>
      (some (entry.value, entry.bytes, !entries.isEmpty),
        { (queue.removeFrontIndex entry).subtractEntryWeight entry with entries })

/-- The tests may change a state of the caller, which the split then reads. -/
def tryPopReady (ready : σ → T → Bool × σ) (split : σ → T → T × Option (T × Nat)) (state : σ) :
    Option T × σ × ByteQueue T :=
  match Scan.first (fun state (entry : QueueEntry T) => ready state entry.value) state
      queue.entries with
  | (none, after) => (none, after, queue)
  | (some (front, entry, back), after) =>
      let taken := queue.subtractEntryWeight entry
      let base := if front.isEmpty then queue.base + 1 else queue.base
      let (value, tail) := split after entry.value
      let (entries, bytes) := match tail with
        | some (value, bytes) =>
            (front ++ ({ value, bytes } : QueueEntry T) :: back, taken.bytes + bytes)
        | none => (front ++ back, taken.bytes)
      (some value, after,
        { taken with
          entries, base, bytes
          replacements := rebuild QueueEntry.replacement base entries fun _ => none })

section push

variable {queue} {next : ByteQueue T} {value : T} {bytes : Nat} {media : MediaWeight}

@[simp] theorem pushBack_entries (entry : QueueEntry T) :
    (queue.pushBack entry).entries = queue.entries ++ [entry] := rfl

theorem tryPush_eq_ok (pushed : queue.tryPush value bytes = .ok next) :
    next = queue.pushBack { value, bytes } := by
  unfold tryPush tryPushWith at pushed
  split_ifs at pushed
  cases last : queue.entries.getLast? with
  | none =>
      simp only [last, Except.ok.injEq] at pushed
      exact pushed.symm
  | some back =>
      simp only [last, Except.ok.injEq] at pushed
      rw [← pushed, pushBack, pushBack, List.dropLast_append_getLast? back last]

theorem replacementIndex_eq_some {key : ReplacementKey} {index : Nat}
    (found : queue.replacementIndex (some key) = some index) :
    ∃ position, queue.replacements key = some position ∧ queue.base + index = position := by
  simp only [replacementIndex, Option.bind_some] at found
  split at found
  · rename_i position indexed
    split_ifs at found with reached
    cases found
    exact ⟨position, indexed, by omega⟩
  · cases found

/-- A keyed push takes the place of the entry its key is indexed at, or goes behind all others and
is indexed there. -/
theorem tryPushLatestMedia_spec {key : ReplacementKey}
    (pushed : queue.tryPushLatestMedia value bytes media (some key) = .ok next) :
    next.base = queue.base ∧
      ((∃ index entry, queue.replacementIndex (some key) = some index ∧
          queue.entries[index]? = some entry ∧
          next.entries = queue.entries.set index { value, bytes, media, replacement := some key } ∧
          next.replacements = queue.replacements) ∨
        next.entries = queue.entries ++ [{ value, bytes, media, replacement := some key }] ∧
          next.replacements =
            insertKey queue.replacements key (queue.base + queue.entries.length)) := by
  unfold tryPushLatestMedia at pushed
  simp only at pushed
  split_ifs at pushed
  cases found : queue.replacementIndex (some key) with
  | none =>
      simp only [found, Option.bind_none, Except.ok.injEq] at pushed
      subst pushed
      exact ⟨rfl, .inr ⟨rfl, rfl⟩⟩
  | some index =>
      cases there : queue.entries[index]? with
      | none =>
          simp only [found, there, Option.bind_some, Option.map_none, Except.ok.injEq] at pushed
          subst pushed
          exact ⟨rfl, .inr ⟨rfl, rfl⟩⟩
      | some entry =>
          simp only [found, there, Option.bind_some, Option.map_some, Except.ok.injEq] at pushed
          subst pushed
          exact ⟨rfl, .inl ⟨index, entry, rfl, there, rfl, rfl⟩⟩

theorem tryPushWith_refused {coalesce : T → T → T × Bool} {error : PushError T}
    (refused : queue.tryPushWith value bytes coalesce = .error (error, next)) :
    next = queue ∧ error.value = value := by
  unfold tryPushWith at refused
  split_ifs at refused
  · cases refused
    exact ⟨rfl, rfl⟩
  · cases refused
    exact ⟨rfl, rfl⟩
  · cases refused
    exact ⟨rfl, rfl⟩
  · cases last : queue.entries.getLast? with
    | none => simp [last] at refused
    | some back =>
        rcases answer : coalesce back.value value with ⟨queued, _ | _⟩
        · simp [last, answer] at refused
        · simp [last, answer] at refused

theorem tryPushLatestMedia_refused {key : Option ReplacementKey} {error : PushError T}
    (refused : queue.tryPushLatestMedia value bytes media key = .error (error, next)) :
    next = queue ∧ error.value = value := by
  unfold tryPushLatestMedia at refused
  simp only at refused
  split_ifs at refused
  · cases refused
    exact ⟨rfl, rfl⟩
  · cases refused
    exact ⟨rfl, rfl⟩
  · split at refused
    · cases refused
    · cases refused
  · cases refused
    exact ⟨rfl, rfl⟩

theorem pushSegment_refused {coalesce : σ → T → T → Bool → Coalesced × T × σ} {state : σ}
    {error : PushError T}
    (refused : queue.pushSegment value bytes media coalesce state = .error (error, next)) :
    next = queue ∧ error.value = value := by
  unfold pushSegment at refused
  split_ifs at refused
  · cases refused
    exact ⟨rfl, rfl⟩
  · cases refused
    exact ⟨rfl, rfl⟩
  · cases refused
    exact ⟨rfl, rfl⟩

theorem pushBlockingWith_refused {coalesce : T → T → Option T} {error : PushError T}
    (refused : queue.pushBlockingWith value bytes coalesce = .error (error, next)) :
    next = queue ∧ error.value = value :=
  pushSegment_refused refused

/-- The entries a push may leave: the value behind all others, or merged into the newest entry the
coalescer did not pass by. -/
inductive Pushed (coalesce : T → T → Bool → SegmentCoalesce T) (value : T)
    (entries : List (QueueEntry T)) : List (QueueEntry T) → Prop
  | added (entry : QueueEntry T) (carries : entry.value = value)
      (plain : entry.replacement = none) :
      Pushed coalesce value entries (entries ++ [entry])
  | merged {front back : List (QueueEntry T)} {entry grown : QueueEntry T} {adjacent : Bool}
      (whole : entries = front ++ entry :: back)
      (passed : ∀ later ∈ back, ∃ adjacent, coalesce later.value value adjacent = .continues)
      (merges : coalesce entry.value value adjacent = .merged grown.value)
      (kept : grown.replacement = entry.replacement) :
      Pushed coalesce value entries (front ++ grown :: back)

theorem scanSegment_spec (coalesce : T → T → Bool → SegmentCoalesce T) (value : T) (bytes : Nat)
    (media : MediaWeight) (adjacent : Bool) (entries : List (QueueEntry T)) :
    scanSegment (pureCoalescer coalesce) value bytes media () adjacent entries = (false, entries) ∨
      ∃ (newer : List (QueueEntry T)) (entry grown : QueueEntry T) (older : List (QueueEntry T))
        (asked : Bool), entries = newer ++ entry :: older ∧
      scanSegment (pureCoalescer coalesce) value bytes media () adjacent entries =
        (true, newer ++ grown :: older) ∧
      (∀ later ∈ newer, ∃ adjacent, coalesce later.value value adjacent = .continues) ∧
      coalesce entry.value value asked = .merged grown.value ∧
      grown.replacement = entry.replacement := by
  induction entries generalizing adjacent with
  | nil => exact .inl rfl
  | cons head rest ih =>
      cases answer : coalesce head.value value adjacent with
      | merged queued =>
          let grown : QueueEntry T :=
            { head with
              value := queued
              bytes := head.bytes + bytes
              media := {
                bytes := head.media.bytes + media.bytes
                files := head.media.files + media.files } }
          refine .inr ⟨[], head, grown, rest, adjacent, rfl, ?_, by simp, answer, rfl⟩
          simp only [scanSegment, pureCoalescer, answer, grown, List.nil_append]
      | barrier =>
          left
          simp only [scanSegment, pureCoalescer, answer]
      | continues =>
          rcases ih false with kept | ⟨newer, entry, grown, older, asked, whole, merged, passed, rest⟩
          · left
            simp only [scanSegment, pureCoalescer, answer, kept]
          · refine .inr ⟨head :: newer, entry, grown, older, asked, by rw [whole]; rfl, ?_, ?_, rest⟩
            · simp only [scanSegment, pureCoalescer, answer, merged, List.cons_append]
            · exact List.forall_mem_cons.mpr ⟨⟨adjacent, answer⟩, passed⟩

theorem pushBlockingWithinSegmentMedia_pushed {coalesce : T → T → Bool → SegmentCoalesce T}
    (pushed : queue.pushBlockingWithinSegmentMedia value bytes media coalesce = .ok next) :
    Pushed coalesce value queue.entries next.entries ∧ next.base = queue.base ∧
      next.replacements = queue.replacements := by
  unfold pushBlockingWithinSegmentMedia pushSegment at pushed
  split_ifs at pushed
  cases pushed
  refine ⟨?_, rfl, rfl⟩
  unfold segmented
  rcases scanSegment_spec coalesce value bytes media true queue.entries.reverse with
    kept | ⟨newer, entry, grown, older, asked, whole, merged, passed, merges, same⟩
  · simp only [kept, List.reverse_reverse]
    exact .added _ rfl rfl
  · have entries : queue.entries = older.reverse ++ entry :: newer.reverse := by
      rw [← queue.entries.reverse_reverse, whole]
      simp
    have after : (newer ++ grown :: older).reverse = older.reverse ++ grown :: newer.reverse := by
      simp
    simp only [merged, after]
    exact .merged entries (fun later member => passed later (List.mem_reverse.mp member)) merges
      same

theorem pushBlockingWith_pushed {coalesce : T → T → Option T}
    (pushed : queue.pushBlockingWith value bytes coalesce = .ok next) :
    (∃ entry : QueueEntry T, entry.value = value ∧ next.entries = queue.entries ++ [entry]) ∨
      ∃ (front : List (QueueEntry T)) (entry grown : QueueEntry T),
        queue.entries = front ++ [entry] ∧
        coalesce entry.value value = some grown.value ∧ next.entries = front ++ [grown] := by
  have outcome := (pushBlockingWithinSegmentMedia_pushed pushed).1
  generalize next.entries = entries at outcome ⊢
  cases outcome with
  | added entry carries plain => exact .inl ⟨entry, carries, rfl⟩
  | @merged front back entry grown adjacent whole passed merges kept =>
      cases back with
      | nil =>
          refine .inr ⟨front, entry, grown, whole, ?_, rfl⟩
          cases answer : coalesce entry.value value <;> simp_all
      | cons later back =>
          -- the coalescer never passes an entry by
          rcases passed later List.mem_cons_self with ⟨asked, skipped⟩
          cases answer : coalesce later.value value <;> simp [answer] at skipped

end push

section pop

variable {queue} {ready : σ → T → Bool × σ} {split : σ → T → T × Option (T × Nat)}

/-- What a pop takes, between what the tests refused and what they did not see. -/
theorem tryPopReady_eq_some {state after : σ} {value : T} {next : ByteQueue T}
    (popped : queue.tryPopReady ready split state = (some value, after, next)) :
    ∃ (front : List (QueueEntry T)) (entry : QueueEntry T) (back : List (QueueEntry T)) (before : σ),
      queue.entries = front ++ entry :: back ∧
      Scan.Passes ready state (front.map QueueEntry.value) before ∧
      ready before entry.value = (true, after) ∧ value = (split after entry.value).1 ∧
      next.entries = front ++ ((split after entry.value).2.map fun tail =>
        ({ value := tail.1, bytes := tail.2 } : QueueEntry T)).toList ++ back := by
  unfold tryPopReady at popped
  rcases scan : Scan.first (fun state (entry : QueueEntry T) => ready state entry.value) state
    queue.entries with ⟨_ | ⟨front, entry, back⟩, last⟩
  · simp [scan] at popped
  · rcases Scan.first_eq_some scan with ⟨whole, before, passes, taken⟩
    rcases cut : split last entry.value with ⟨head, tail⟩
    simp only [scan, cut, Prod.mk.injEq, Option.some.injEq] at popped
    rcases popped with ⟨rfl, rfl, rfl⟩
    refine ⟨front, entry, back, before, whole, passes.map, taken, by rw [cut], ?_⟩
    cases tail with
    | none => simp [cut]
    | some tail => simp [cut]

theorem tryPopReady_eq_none {state after : σ} {next : ByteQueue T}
    (popped : queue.tryPopReady ready split state = (none, after, next)) :
    next = queue ∧ Scan.Passes ready state queue.values after := by
  unfold tryPopReady at popped
  rcases scan : Scan.first (fun state (entry : QueueEntry T) => ready state entry.value) state
    queue.entries with ⟨_ | ⟨front, entry, back⟩, last⟩
  · simp only [scan, Prod.mk.injEq, true_and] at popped
    rcases popped with ⟨rfl, rfl⟩
    exact ⟨rfl, (Scan.first_eq_none scan).map⟩
  · simp [scan] at popped

end pop

end ByteQueue

end Rozi
