import Rozi.Library.Budget
import Rozi.Library.Transition
import Rozi.Session.ByteQueue

/-!
Runs of the byte queue: every operation with any weights, keys, coalescers, tests and splits, from
an empty queue of any limits. What the counters and the replacement index say of the entries holds
in every state a run reaches.
-/

namespace Rozi

open ReplacementQueue Transition

namespace ByteQueue

variable {T σ : Type}

inductive Op (T : Type) : Type 1 where
  | pushWith (value : T) (bytes : Nat) (coalesce : T → T → T × Bool)
  | pushLatest (value : T) (bytes : Nat) (media : MediaWeight) (key : Option ReplacementKey)
  | pushSegment {σ : Type} (value : T) (bytes : Nat) (media : MediaWeight)
      (coalesce : σ → T → T → Bool → Coalesced × T × σ) (state : σ)
  | pop
  | popReady {σ : Type} (ready : σ → T → Bool × σ) (split : σ → T → T × Option (T × Nat))
      (state : σ)
  | invalidate (pane : PaneId) (isLocal : Bool)
  | clear
  | close

inductive Outcome (T : Type) where
  | refused (error : PushError T)
  | popped (value : T)
  | finished

def Op.offered : Op T → Option T
  | .pushWith value .. | .pushLatest value .. | .pushSegment value .. => some value
  | .pop | .popReady .. | .invalidate .. | .clear | .close => none

def settle : Pushing T → Outcome T × ByteQueue T
  | .ok next => (.finished, next)
  | .error (error, next) => (.refused error, next)

def perform (queue : ByteQueue T) : Op T → Outcome T × ByteQueue T
  | .pushWith value bytes coalesce => settle (queue.tryPushWith value bytes coalesce)
  | .pushLatest value bytes media key => settle (queue.tryPushLatestMedia value bytes media key)
  | .pushSegment value bytes media coalesce state =>
      settle (queue.pushSegment value bytes media coalesce state)
  | .pop =>
      match queue.tryPopWithBytesAndMore with
      | (some (value, _, _), next) => (.popped value, next)
      | (none, next) => (.finished, next)
  | .popReady ready split state =>
      match queue.tryPopReady ready split state with
      | (some value, _, next) => (.popped value, next)
      | (none, _, next) => (.finished, next)
  | .invalidate pane isLocal => (.finished, queue.invalidateReplacements pane isLocal)
  | .clear => (.finished, queue.clearReplacements)
  | .close => (.finished, { queue with closed := true })

structure Limits where
  capacity : Nat
  mediaBytes : Nat
  mediaFiles : Nat
  deriving DecidableEq, Repr

def withMediaLimits (limits : Limits) : ByteQueue T :=
  { capacity := limits.capacity
    mediaBytesLimit := limits.mediaBytes
    mediaFilesLimit := limits.mediaFiles }

def runs (T : Type) (limits : Limits) : Transition (ByteQueue T) (Op T) where
  initial := fun queue => queue = withMediaLimits limits
  step := fun queue op next => next = (queue.perform op).2

/-- A split leaves a tail no larger than the entry it comes from. -/
def TailFits (queue : ByteQueue T) : Op T → Prop
  | .popReady ready split state =>
      ∀ front entry back after,
        Scan.first (fun state (entry : QueueEntry T) => ready state entry.value) state
            queue.entries = (some (front, entry, back), after) →
          ∀ tail ∈ (split after entry.value).2, tail.2 ≤ entry.bytes
  | _ => True

def limits (queue : ByteQueue T) : Limits :=
  ⟨queue.capacity, queue.mediaBytesLimit, queue.mediaFilesLimit⟩

/-- No limit is `usize::MAX`, which a saturated sum would still be within. -/
structure Limits.Below (limits : Limits) : Prop where
  capacity : limits.capacity < usizeMax
  mediaBytes : limits.mediaBytes < usizeMax
  mediaFiles : limits.mediaFiles < usizeMax

/-- The counters are the sums of what is queued, within the limits; the index points at nothing but
the last entries of their keys. -/
structure Represented (queue : ByteQueue T) : Prop where
  bytes : Budget queue.capacity QueueEntry.bytes queue.entries queue.bytes
  mediaBytes : Budget queue.mediaBytesLimit (fun entry => entry.media.bytes) queue.entries
    queue.mediaBytes
  mediaFiles : Budget queue.mediaFilesLimit (fun entry => entry.media.files) queue.entries
    queue.mediaFiles
  indexed : IndexWithin QueueEntry.replacement queue.base queue.entries queue.replacements

theorem saturatingAdd_fits {first second limit : Nat} (below : limit < usizeMax)
    (fits : saturatingAdd first second ≤ limit) :
    saturatingAdd first second = first + second ∧ first + second ≤ limit := by
  unfold saturatingAdd at fits ⊢
  omega

theorem fitsInState_spec {queue : ByteQueue T} {bytes : Nat} {media : MediaWeight}
    {previous : Nat × MediaWeight} (below : queue.limits.Below)
    (fits : queue.fitsInState bytes media previous = true) :
    (saturatingAdd (queue.bytes - previous.1) bytes = queue.bytes - previous.1 + bytes ∧
      queue.bytes - previous.1 + bytes ≤ queue.capacity) ∧
    (saturatingAdd (queue.mediaBytes - previous.2.bytes) media.bytes =
        queue.mediaBytes - previous.2.bytes + media.bytes ∧
      queue.mediaBytes - previous.2.bytes + media.bytes ≤ queue.mediaBytesLimit) ∧
    saturatingAdd (queue.mediaFiles - previous.2.files) media.files =
        queue.mediaFiles - previous.2.files + media.files ∧
      queue.mediaFiles - previous.2.files + media.files ≤ queue.mediaFilesLimit := by
  simp only [fitsInState, Bool.and_eq_true, decide_eq_true_eq] at fits
  exact ⟨saturatingAdd_fits below.capacity fits.1.1, saturatingAdd_fits below.mediaBytes fits.1.2,
    saturatingAdd_fits below.mediaFiles fits.2⟩

section operations

variable {queue next : ByteQueue T} {value : T} {bytes : Nat} {media : MediaWeight}

theorem Represented.pushBack (represented : queue.Represented) {entry : QueueEntry T}
    (plain : entry.replacement = none) (fits : queue.bytes + entry.bytes ≤ queue.capacity)
    (mediaBytes : queue.mediaBytes + entry.media.bytes ≤ queue.mediaBytesLimit)
    (mediaFiles : queue.mediaFiles + entry.media.files ≤ queue.mediaFilesLimit) :
    (queue.pushBack entry).Represented where
  bytes := represented.bytes.push fits
  mediaBytes := represented.mediaBytes.push mediaBytes
  mediaFiles := represented.mediaFiles.push mediaFiles
  indexed := represented.indexed.push_plain plain

theorem Represented.setBack (represented : queue.Represented) {back : QueueEntry T} {queued : T}
    {added : Nat} (last : queue.entries.getLast? = some back)
    (fits : queue.bytes + added ≤ queue.capacity) :
    Represented { queue with
      entries := queue.entries.dropLast ++ [{ back with
        value := queued, bytes := back.bytes + added }]
      bytes := queue.bytes + added } := by
  have whole : queue.entries = queue.entries.dropLast ++ [back] :=
    (List.dropLast_append_getLast? back last).symm
  have keeps {size : QueueEntry T → Nat} (blind : size { back with
      value := queued, bytes := back.bytes + added } = size back) :
      (queue.entries.dropLast ++ [{ back with
        value := queued, bytes := back.bytes + added }]).map size = queue.entries.map size := by
    conv_rhs => rw [whole]
    simp [blind]
  refine ⟨?_, represented.mediaBytes.congr (keeps rfl), represented.mediaFiles.congr (keeps rfl),
    represented.indexed.congr ?_⟩
  · have budget := represented.bytes
    rw [whole] at budget
    have held := budget.size_le
    have total : queue.bytes + added = queue.bytes - back.bytes + (back.bytes + added) := by omega
    rw [total] at fits ⊢
    exact budget.replace fits
  · conv_rhs => rw [whole]
    simp

theorem Represented.tryPushWith (represented : queue.Represented) (below : queue.limits.Below)
    {coalesce : T → T → T × Bool} (pushed : queue.tryPushWith value bytes coalesce = .ok next) :
    next.Represented := by
  unfold ByteQueue.tryPushWith at pushed
  split_ifs at pushed with large closed full
  have fits := (saturatingAdd_fits below.capacity (Nat.le_of_not_lt full)).2
  have mediaBytes := represented.mediaBytes.within
  have mediaFiles := represented.mediaFiles.within
  cases last : queue.entries.getLast? with
  | none =>
      simp only [last, Except.ok.injEq] at pushed
      subst pushed
      exact represented.pushBack rfl fits mediaBytes mediaFiles
  | some back =>
      rcases answer : coalesce back.value value with ⟨queued, merged⟩
      cases merged with
      | true =>
          simp only [last, answer, Except.ok.injEq] at pushed
          subst pushed
          exact represented.setBack last fits
      | false =>
          simp only [last, answer, Except.ok.injEq] at pushed
          subst pushed
          have unadded : queue.bytes + 0 ≤ queue.capacity := represented.bytes.within
          have changed : Represented { queue with
              entries := queue.entries.dropLast ++ [{ back with value := queued }] } :=
            represented.setBack last unadded
          exact changed.pushBack rfl fits mediaBytes mediaFiles

def indexNewest (queue : ByteQueue T) : Option ReplacementKey → Index ReplacementKey
  | some key => insertKey queue.replacements key (queue.base + queue.entries.length)
  | none => queue.replacements

theorem tryPushLatestMedia_eq_ok {key : Option ReplacementKey}
    (pushed : queue.tryPushLatestMedia value bytes media key = .ok next) :
    (∃ index entry, queue.replacementIndex key = some index ∧
        queue.entries[index]? = some entry ∧
        queue.fitsInState bytes media (entry.bytes, entry.media) = true ∧
        next = { queue with
          bytes := saturatingAdd (queue.bytes - entry.bytes) bytes
          mediaBytes := saturatingAdd (queue.mediaBytes - entry.media.bytes) media.bytes
          mediaFiles := saturatingAdd (queue.mediaFiles - entry.media.files) media.files
          entries := queue.entries.set index { value, bytes, media, replacement := key } }) ∨
      (∀ index, queue.replacementIndex key = some index → queue.entries[index]? = none) ∧
        queue.fitsInState bytes media (0, {}) = true ∧
        next = { queue with
          bytes := saturatingAdd queue.bytes bytes
          mediaBytes := saturatingAdd queue.mediaBytes media.bytes
          mediaFiles := saturatingAdd queue.mediaFiles media.files
          entries := queue.entries ++ [{ value, bytes, media, replacement := key }]
          replacements := queue.indexNewest key } := by
  unfold tryPushLatestMedia at pushed
  simp only at pushed
  split_ifs at pushed with large closed fits
  cases found : queue.replacementIndex key with
  | none =>
      simp only [found, Option.bind_none, Except.ok.injEq] at pushed fits
      refine .inr ⟨?_, fits, pushed.symm.trans ?_⟩
      · rintro _ ⟨⟩
      · cases key <;> rfl
  | some index =>
      cases there : queue.entries[index]? with
      | none =>
          simp only [found, there, Option.bind_some, Option.map_none, Except.ok.injEq] at pushed fits
          refine .inr ⟨?_, fits, pushed.symm.trans ?_⟩
          · rintro _ ⟨⟩
            exact there
          · cases key <;> rfl
      | some entry =>
          simp only [found, there, Option.bind_some, Option.map_some, Except.ok.injEq] at pushed fits
          exact .inl ⟨index, entry, rfl, there, fits, pushed.symm⟩

theorem Represented.tryPushLatestMedia (represented : queue.Represented)
    (below : queue.limits.Below) {key : Option ReplacementKey}
    (pushed : queue.tryPushLatestMedia value bytes media key = .ok next) : next.Represented := by
  rcases tryPushLatestMedia_eq_ok pushed with
    ⟨index, entry, found, there, fits, rfl⟩ | ⟨absent, fits, rfl⟩
  · rcases fitsInState_spec below fits with ⟨⟨bytes', within⟩, ⟨mediaBytes', mediaWithin⟩,
      mediaFiles', filesWithin⟩
    rcases List.getElem?_eq_some_iff.mp there with ⟨inside, rfl⟩
    have whole : queue.entries = queue.entries.take index ++ queue.entries[index] ::
        queue.entries.drop (index + 1) := by simp
    have changed : ∀ entry, queue.entries.set index entry =
        queue.entries.take index ++ entry :: queue.entries.drop (index + 1) :=
      fun entry => List.set_eq_take_append_cons_drop.trans (if_pos inside)
    have keyed : queue.entries[index].replacement = key := by
      cases key with
      | none => cases found
      | some key =>
          rcases replacementIndex_eq_some found with ⟨position, indexed, rfl⟩
          rcases represented.indexed.lookup indexed with ⟨_, ⟨entry, present, keyed⟩, _⟩
          rw [Nat.add_sub_cancel_left, there] at present
          cases present
          exact keyed
    have held := represented
    refine ⟨?_, ?_, ?_, represented.indexed.replace there (by rw [keyed])⟩
    · have budget := represented.bytes
      rw [whole] at budget
      simp only [changed, bytes']
      exact budget.replace within
    · have budget := represented.mediaBytes
      rw [whole] at budget
      simp only [changed, mediaBytes']
      exact budget.replace mediaWithin
    · have budget := represented.mediaFiles
      rw [whole] at budget
      simp only [changed, mediaFiles']
      exact budget.replace filesWithin
  · rcases fitsInState_spec below fits with ⟨⟨bytes', within⟩, ⟨mediaBytes', mediaWithin⟩,
      mediaFiles', filesWithin⟩
    simp only [Nat.sub_zero] at bytes' within mediaBytes' mediaWithin mediaFiles' filesWithin
    simp only [bytes', mediaBytes', mediaFiles']
    refine ⟨represented.bytes.push within, represented.mediaBytes.push mediaWithin,
      represented.mediaFiles.push filesWithin, ?_⟩
    cases key with
    | none => exact represented.indexed.push_plain rfl
    | some key => exact represented.indexed.push_keyed rfl

/-- A scan adds what it merged to the size of one entry, and changes the size of no other. -/
theorem scanSegment_sum (coalesce : σ → T → T → Bool → Coalesced × T × σ) (value : T)
    {size : QueueEntry T → Nat} {added : Nat}
    (keeps : ∀ (entry : QueueEntry T) queued, size { entry with value := queued } = size entry)
    (grows : ∀ (entry : QueueEntry T) queued, size { entry with
      value := queued
      bytes := entry.bytes + bytes
      media := {
        bytes := entry.media.bytes + media.bytes
        files := entry.media.files + media.files } } = size entry + added)
    (state : σ) (adjacent : Bool) (entries : List (QueueEntry T)) :
    ((scanSegment coalesce value bytes media state adjacent entries).2.map size).sum =
      (entries.map size).sum +
        if (scanSegment coalesce value bytes media state adjacent entries).1 then added else 0 := by
  induction entries generalizing state adjacent with
  | nil => rfl
  | cons head rest ih =>
      rcases answer : coalesce state head.value value adjacent with ⟨answer', queued, after⟩
      cases answer' with
      | merged =>
          simp only [scanSegment, answer, List.map_cons, List.sum_cons, grows, if_true]
          omega
      | continues =>
          simp only [scanSegment, answer, List.map_cons, List.sum_cons, keeps, ih]
          omega
      | barrier =>
          simp only [scanSegment, answer, List.map_cons, List.sum_cons, keeps]
          rfl

theorem scanSegment_replacement (coalesce : σ → T → T → Bool → Coalesced × T × σ) (value : T)
    (bytes : Nat) (media : MediaWeight) (state : σ) (adjacent : Bool)
    (entries : List (QueueEntry T)) :
    (scanSegment coalesce value bytes media state adjacent entries).2.map QueueEntry.replacement =
      entries.map QueueEntry.replacement := by
  induction entries generalizing state adjacent with
  | nil => rfl
  | cons head rest ih =>
      rcases answer : coalesce state head.value value adjacent with ⟨answer', queued, after⟩
      cases answer' with
      | merged => simp only [scanSegment, answer, List.map_cons]
      | continues => simp only [scanSegment, answer, List.map_cons, ih]
      | barrier => simp only [scanSegment, answer, List.map_cons]

theorem segmented_budget {coalesce : σ → T → T → Bool → Coalesced × T × σ}
    {size : QueueEntry T → Nat} {entries : List (QueueEntry T)} {limit total added : Nat}
    (keeps : ∀ (entry : QueueEntry T) queued, size { entry with value := queued } = size entry)
    (grows : ∀ (entry : QueueEntry T) queued, size { entry with
      value := queued
      bytes := entry.bytes + bytes
      media := {
        bytes := entry.media.bytes + media.bytes
        files := entry.media.files + media.files } } = size entry + added)
    (own : size { value, bytes, media } = added) (state : σ)
    (budget : Budget limit size entries total) (fits : total + added ≤ limit) :
    Budget limit size (segmented coalesce value bytes media state entries) (total + added) := by
  have sum := scanSegment_sum coalesce value keeps grows state true entries.reverse
  rw [List.map_reverse, List.sum_reverse, ← budget.sum] at sum
  refine ⟨?_, fits⟩
  unfold segmented
  rcases scan : scanSegment coalesce value bytes media state true entries.reverse with
    ⟨merged, scanned⟩
  rw [scan] at sum
  cases merged with
  | true => simpa using sum.symm
  | false => simpa [own] using sum.symm

theorem Represented.pushSegment (represented : queue.Represented) (below : queue.limits.Below)
    {coalesce : σ → T → T → Bool → Coalesced × T × σ} {state : σ}
    (pushed : queue.pushSegment value bytes media coalesce state = .ok next) :
    next.Represented := by
  unfold ByteQueue.pushSegment at pushed
  split_ifs at pushed with large closed fits
  simp only [Bool.not_eq_true, Bool.not_eq_false'] at fits
  rcases fitsInState_spec below fits with ⟨⟨-, within⟩, ⟨-, mediaWithin⟩, -, filesWithin⟩
  simp only [Nat.sub_zero] at within mediaWithin filesWithin
  cases pushed
  refine ⟨?_, ?_, ?_, ?_⟩
  · exact segmented_budget (fun _ _ => rfl) (fun _ _ => rfl) rfl state represented.bytes within
  · exact segmented_budget (fun _ _ => rfl) (fun _ _ => rfl) rfl state represented.mediaBytes
      mediaWithin
  · exact segmented_budget (fun _ _ => rfl) (fun _ _ => rfl) rfl state represented.mediaFiles
      filesWithin
  · have keys := scanSegment_replacement coalesce value bytes media state true
      queue.entries.reverse
    simp only
    unfold segmented
    rcases scan : scanSegment coalesce value bytes media state true queue.entries.reverse with
      ⟨merged, scanned⟩
    rw [scan] at keys
    have kept : IndexWithin QueueEntry.replacement queue.base scanned.reverse
        queue.replacements := by
      apply represented.indexed.congr
      rw [List.map_reverse, keys, List.map_reverse, List.reverse_reverse]
    cases merged with
    | true => exact kept
    | false => exact kept.push_plain rfl

theorem Represented.pop (represented : queue.Represented) :
    queue.tryPopWithBytesAndMore.2.Represented := by
  rcases whole : queue.entries with _ | ⟨entry, rest⟩
  · simpa only [tryPopWithBytesAndMore, whole] using represented
  · have bytes := represented.bytes
    have mediaBytes := represented.mediaBytes
    have mediaFiles := represented.mediaFiles
    have indexed := represented.indexed
    rw [whole] at bytes mediaBytes mediaFiles indexed
    simp only [tryPopWithBytesAndMore, whole]
    exact ⟨bytes.pop, mediaBytes.pop, mediaFiles.pop, indexed.pop⟩

theorem Represented.popReady (represented : queue.Represented) {ready : σ → T → Bool × σ}
    {split : σ → T → T × Option (T × Nat)} {state : σ}
    (fits : queue.TailFits (.popReady ready split state)) :
    (queue.tryPopReady ready split state).2.2.Represented := by
  unfold tryPopReady
  rcases scan : Scan.first (fun state (entry : QueueEntry T) => ready state entry.value) state
    queue.entries with ⟨_ | ⟨front, entry, back⟩, after⟩
  · exact represented
  · have shrinks := fits front entry back after scan
    rcases Scan.first_eq_some scan with ⟨whole, -⟩
    have bytes := represented.bytes
    have mediaBytes := represented.mediaBytes
    have mediaFiles := represented.mediaFiles
    rw [whole] at bytes mediaBytes mediaFiles
    have held := bytes.size_le
    have within := bytes.within
    rcases cut : split after entry.value with ⟨value, tail⟩
    rw [cut] at shrinks
    cases tail with
    | none =>
        simp only [cut]
        exact ⟨bytes.remove, mediaBytes.remove, mediaFiles.remove,
          (IndexSound.rebuilt _ _).within⟩
    | some tail =>
        have smaller := shrinks tail rfl
        simp only [cut]
        refine ⟨bytes.remove.insert ?_, mediaBytes.remove.insert ?_, mediaFiles.remove.insert ?_,
          (IndexSound.rebuilt _ _).within⟩
        · simp only
          omega
        · exact mediaBytes.remove.within
        · exact mediaFiles.remove.within

theorem settle_keeps {motive : ByteQueue T → Prop} {pushing : Pushing T} (before : motive queue)
    (refused : ∀ error next, pushing = .error (error, next) →
      next = queue ∧ PushError.value error = value)
    (after : ∀ next, pushing = .ok next → motive next) : motive (settle pushing).2 := by
  cases pushing with
  | error left =>
      rw [← (refused left.1 left.2 rfl).1] at before
      exact before
  | ok next => exact after next rfl

theorem Represented.perform (represented : queue.Represented) (below : queue.limits.Below)
    {op : Op T} (fits : queue.TailFits op) : (queue.perform op).2.Represented := by
  cases op with
  | pushWith value bytes coalesce =>
      exact settle_keeps represented (fun _ _ => tryPushWith_refused)
        fun _ pushed => represented.tryPushWith below pushed
  | pushLatest value bytes media key =>
      exact settle_keeps represented (fun _ _ => tryPushLatestMedia_refused)
        fun _ pushed => represented.tryPushLatestMedia below pushed
  | pushSegment value bytes media coalesce state =>
      exact settle_keeps represented (fun _ _ => pushSegment_refused)
        fun _ pushed => represented.pushSegment below pushed
  | pop =>
      have kept := represented.pop
      simp only [ByteQueue.perform]
      rcases popped : queue.tryPopWithBytesAndMore with ⟨_ | _, next⟩
      · rwa [popped] at kept
      · rwa [popped] at kept
  | popReady ready split state =>
      have kept := represented.popReady fits
      simp only [ByteQueue.perform]
      rcases popped : queue.tryPopReady ready split state with ⟨_ | _, after, next⟩
      · rwa [popped] at kept
      · rwa [popped] at kept
  | invalidate pane isLocal =>
      refine ⟨represented.bytes, represented.mediaBytes, represented.mediaFiles,
        represented.indexed.shrink ?_⟩
      intro key position found
      change (if key.pane ≠ pane ∨ key.isLocal ≠ isLocal then queue.replacements key else none) =
        some position at found
      split_ifs at found
      exact found
  | clear =>
      exact ⟨represented.bytes, represented.mediaBytes, represented.mediaFiles,
        IndexWithin.empty _ _⟩
  | close => exact ⟨represented.bytes, represented.mediaBytes, represented.mediaFiles,
      represented.indexed⟩

theorem tryPushWith_limits {coalesce : T → T → T × Bool}
    (pushed : queue.tryPushWith value bytes coalesce = .ok next) : next.limits = queue.limits := by
  unfold tryPushWith at pushed
  split_ifs at pushed
  cases last : queue.entries.getLast? with
  | none =>
      simp only [last, Except.ok.injEq] at pushed
      subst pushed
      rfl
  | some back =>
      rcases answer : coalesce back.value value with ⟨queued, _ | _⟩
      all_goals
        simp only [last, answer, Except.ok.injEq] at pushed
        subst pushed
        rfl

theorem tryPushLatestMedia_limits {key : Option ReplacementKey}
    (pushed : queue.tryPushLatestMedia value bytes media key = .ok next) :
    next.limits = queue.limits := by
  rcases tryPushLatestMedia_eq_ok pushed with ⟨_, _, _, _, _, rfl⟩ | ⟨_, _, rfl⟩
  · rfl
  · rfl

theorem pushSegment_limits {coalesce : σ → T → T → Bool → Coalesced × T × σ} {state : σ}
    (pushed : queue.pushSegment value bytes media coalesce state = .ok next) :
    next.limits = queue.limits := by
  unfold pushSegment at pushed
  split_ifs at pushed
  cases pushed
  rfl

theorem perform_limits (op : Op T) : (queue.perform op).2.limits = queue.limits := by
  cases op with
  | pushWith value bytes coalesce =>
      exact settle_keeps (motive := fun next => next.limits = queue.limits) rfl
        (fun _ _ => tryPushWith_refused) fun _ pushed => tryPushWith_limits pushed
  | pushLatest value bytes media key =>
      exact settle_keeps (motive := fun next => next.limits = queue.limits) rfl
        (fun _ _ => tryPushLatestMedia_refused) fun _ pushed => tryPushLatestMedia_limits pushed
  | pushSegment value bytes media coalesce state =>
      exact settle_keeps (motive := fun next => next.limits = queue.limits) rfl
        (fun _ _ => pushSegment_refused) fun _ pushed => pushSegment_limits pushed
  | pop =>
      simp only [perform]
      unfold tryPopWithBytesAndMore
      cases queue.entries <;> rfl
  | popReady ready split state =>
      simp only [perform]
      unfold tryPopReady
      rcases Scan.first (fun state (entry : QueueEntry T) => ready state entry.value) state
        queue.entries with ⟨_ | ⟨front, entry, back⟩, after⟩
      · rfl
      · rfl
  | invalidate pane isLocal => rfl
  | clear => rfl
  | close => rfl

theorem settle_refused {pushing : Pushing T} {error : PushError T}
    (failed : ∀ error next, pushing = .error (error, next) →
      next = queue ∧ PushError.value error = value)
    (refused : (settle pushing).1 = .refused error) :
    (settle pushing).2 = queue ∧ some value = some error.value := by
  cases pushing with
  | error left =>
      cases refused
      have kept := failed left.1 left.2 rfl
      exact ⟨kept.1, congrArg some kept.2.symm⟩
  | ok next => cases refused

theorem perform_refused {op : Op T} {error : PushError T}
    (refused : (queue.perform op).1 = .refused error) :
    (queue.perform op).2 = queue ∧ op.offered = some error.value := by
  cases op with
  | pushWith => exact settle_refused (fun _ _ => tryPushWith_refused) refused
  | pushLatest => exact settle_refused (fun _ _ => tryPushLatestMedia_refused) refused
  | pushSegment => exact settle_refused (fun _ _ => pushSegment_refused) refused
  | pop =>
      simp only [perform] at refused
      split at refused <;> cases refused
  | popReady =>
      simp only [perform] at refused
      split at refused <;> cases refused
  | invalidate | clear | close => cases refused

end operations

section run

variable {limits : Limits} {queue : ByteQueue T}

theorem represented_initial (limits : Limits) :
    (withMediaLimits limits : ByteQueue T).Represented :=
  ⟨.empty _ _, .empty _ _, .empty _ _, IndexWithin.empty _ _⟩

theorem represented_of_reached (below : limits.Below)
    (reached : (runs T limits).ReachableWhen TailFits queue) :
    queue.limits = limits ∧ queue.Represented := by
  apply reached.invariant
  · rintro _ rfl
    exact ⟨rfl, represented_initial limits⟩
  · rintro queue op _ ⟨configured, represented⟩ fits rfl
    refine ⟨perform_limits op |>.trans configured, ?_⟩
    exact represented.perform (configured ▸ below) fits

/-- In every state of every run the counters are the sums of what is queued and within the limits,
no weight is larger than its counter, the index points at the last entries of their keys, and a
refused push changes nothing and hands its value back. -/
theorem counters_and_index_follow_entries (below : limits.Below)
    (reached : (runs T limits).ReachableWhen TailFits queue) :
    (queue.bytes = (queue.entries.map QueueEntry.bytes).sum ∧ queue.bytes ≤ limits.capacity) ∧
    (queue.mediaBytes = (queue.entries.map fun entry => entry.media.bytes).sum ∧
      queue.mediaBytes ≤ limits.mediaBytes) ∧
    (queue.mediaFiles = (queue.entries.map fun entry => entry.media.files).sum ∧
      queue.mediaFiles ≤ limits.mediaFiles) ∧
    (∀ entry ∈ queue.entries, entry.bytes ≤ queue.bytes ∧
      entry.media.bytes ≤ queue.mediaBytes ∧ entry.media.files ≤ queue.mediaFiles) ∧
    (∀ key position, queue.replacements key = some position →
      queue.base ≤ position ∧ position < queue.base + queue.entries.length ∧
      (∃ entry, queue.entries[position - queue.base]? = some entry ∧
        entry.replacement = some key) ∧
      ∀ later entry, position - queue.base < later → queue.entries[later]? = some entry →
        entry.replacement ≠ some key) ∧
    ∀ op error, (queue.perform op).1 = .refused error →
      (queue.perform op).2 = queue ∧ op.offered = some error.value := by
  rcases represented_of_reached below reached with ⟨rfl, represented⟩
  refine ⟨⟨represented.bytes.sum, represented.bytes.within⟩,
    ⟨represented.mediaBytes.sum, represented.mediaBytes.within⟩,
    ⟨represented.mediaFiles.sum, represented.mediaFiles.within⟩, ?_, ?_,
    fun _ _ => perform_refused⟩
  · intro entry member
    exact ⟨represented.bytes.size_le_of_mem member,
      represented.mediaBytes.size_le_of_mem member,
      represented.mediaFiles.size_le_of_mem member⟩
  · intro key position found
    rcases represented.indexed.lookup found with ⟨above, ⟨entry, present, keyed⟩, last⟩
    have inside := (List.getElem?_eq_some_iff.mp present).1
    exact ⟨above, by omega, ⟨entry, present, keyed⟩, last⟩

def exampleKey : ReplacementKey :=
  { pane := 1, isLocal := false, generation := 2, epoch := 1, image := 7, incarnation := 1 }

def splitSecond : Op Nat :=
  .popReady (fun (_ : Unit) value => (decide (value = 2), ())) (fun _ _ => (1, some (9, 1))) ()

/-- A keyed push, another value, the key replaced, one more value, a push that is too large, and the
second value taken from the middle in part. -/
def keyedOps : List (Op Nat) :=
  [.pushLatest 1 3 ⟨4, 1⟩ (some exampleKey), .pushWith 2 2 fun queued _ => (queued, false),
    .pushLatest 5 4 ⟨2, 1⟩ (some exampleKey), .pushWith 7 6 fun queued _ => (queued, false),
    .pushWith 8 100 fun queued _ => (queued, false), splitSecond]

def keyed : ByteQueue Nat :=
  keyedOps.foldl (fun queue op => (queue.perform op).2) (withMediaLimits ⟨16, 8, 2⟩)

theorem keyed_reached : (runs Nat ⟨16, 8, 2⟩).ReachableWhen TailFits keyed := by
  refine (ReachableWhen.initial rfl)
    |>.next (.pushLatest 1 3 ⟨4, 1⟩ (some exampleKey)) trivial rfl
    |>.next (.pushWith 2 2 fun queued _ => (queued, false)) trivial rfl
    |>.next (.pushLatest 5 4 ⟨2, 1⟩ (some exampleKey)) trivial rfl
    |>.next (.pushWith 7 6 fun queued _ => (queued, false)) trivial rfl
    |>.next (.pushWith 8 100 fun queued _ => (queued, false)) trivial rfl
    |>.next splitSecond ?_ rfl
  rintro front entry back after ⟨⟩ tail ⟨⟩
  decide

theorem counters_and_index_follow_entries_keyed :
    keyed.values = [5, 9, 7] ∧
    (keyed.bytes = (keyed.entries.map QueueEntry.bytes).sum ∧ keyed.bytes ≤ 16) ∧
    (keyed.mediaBytes = (keyed.entries.map fun entry => entry.media.bytes).sum ∧
      keyed.mediaBytes ≤ 8) ∧
    (keyed.mediaFiles = (keyed.entries.map fun entry => entry.media.files).sum ∧
      keyed.mediaFiles ≤ 2) ∧
    (∀ key position, keyed.replacements key = some position →
      keyed.base ≤ position ∧ position < keyed.base + keyed.entries.length ∧
      (∃ entry, keyed.entries[position - keyed.base]? = some entry ∧
        entry.replacement = some key) ∧
      ∀ later entry, position - keyed.base < later → keyed.entries[later]? = some entry →
        entry.replacement ≠ some key) ∧
    (keyed.perform (.pushLatest 6 4 ⟨8, 2⟩ none)).2 = keyed :=
  have below : Limits.Below ⟨16, 8, 2⟩ :=
    ⟨by decide +kernel, by decide +kernel, by decide +kernel⟩
  have kept := counters_and_index_follow_entries below keyed_reached
  ⟨rfl, kept.1, kept.2.1, kept.2.2.1, kept.2.2.2.2.1,
    (kept.2.2.2.2.2 (.pushLatest 6 4 ⟨8, 2⟩ none) (.full 6) rfl).1⟩

/-- A queue as large as a `usize` counts, which one push fills. It admits another. -/
def boundless : Limits := ⟨usizeMax, 0, 0⟩

def filled : ByteQueue Unit :=
  ((withMediaLimits boundless).perform (.pushLatest () usizeMax {} none)).2

theorem saturated_counter_misses_entry :
    ¬∀ (limits : Limits) (queue : ByteQueue Unit),
      (runs Unit limits).ReachableWhen TailFits queue →
        queue.bytes = (queue.entries.map QueueEntry.bytes).sum := by
  intro holds
  have full : (runs Unit boundless).ReachableWhen TailFits filled :=
    (ReachableWhen.initial rfl).next (.pushLatest () usizeMax {} none) trivial rfl
  have sum := holds _ _ (full.next (.pushLatest () 1 {} none) trivial rfl)
  exact absurd sum (by decide +kernel)

end run

end ByteQueue

end Rozi
