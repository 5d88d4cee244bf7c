import Rozi.Session.ByteQueueRun

/-!
Replay barriers of the byte queue. Beside the queue runs the one it is meant to be: its items
remember which barriers came after them, and a keyed push replaces the newest item of its key only
where no barrier for that key has come since. The two agree as long as no pop from the middle makes
an entry replaceable again that a barrier had closed.
-/

namespace Rozi

open ReplacementQueue Transition

inductive ReplayBarrier where
  | pane (paneId : PaneId) (isLocal : Bool)
  | all
  deriving DecidableEq, Repr

def ReplayBarrier.covers (key : ReplacementKey) : ReplayBarrier → Bool
  | .pane paneId isLocal => decide (key.pane = paneId ∧ key.isLocal = isLocal)
  | .all => true

structure FencedEntry (T : Type) where
  entry : QueueEntry T
  barriers : List ReplayBarrier := []

namespace FencedEntry

variable {T σ : Type}

def barredFor (item : FencedEntry T) (key : ReplacementKey) : Bool :=
  item.barriers.any (ReplayBarrier.covers key)

def openKey (item : FencedEntry T) : Option ReplacementKey :=
  item.entry.replacement.filter fun key => !item.barredFor key

def ownKey (item : FencedEntry T) : Option ReplacementKey := item.entry.replacement

def bar (barrier : ReplayBarrier) (items : List (FencedEntry T)) : List (FencedEntry T) :=
  items.map fun item => { item with barriers := barrier :: item.barriers }

def carry : List (FencedEntry T) → List (QueueEntry T) → List (FencedEntry T)
  | item :: items, entry :: entries => { item with entry } :: carry items entries
  | [], entries => entries.map fun entry => { entry }
  | _ :: _, [] => []

def pushLatest (entry : QueueEntry T) (items : List (FencedEntry T)) : List (FencedEntry T) :=
  match entry.replacement.bind fun key => lastPosition openKey key items with
  | some index => items.set index { entry }
  | none => items ++ [{ entry }]

def takeReady (ready : σ → T → Bool × σ) (split : σ → T → T × Option (T × Nat)) (state : σ)
    (items : List (FencedEntry T)) : Option T × List (FencedEntry T) :=
  match Scan.first (fun state (item : FencedEntry T) => ready state item.entry.value) state items
    with
  | (none, _) => (none, items)
  | (some (front, item, back), after) =>
      let (value, tail) := split after item.entry.value
      (some value,
        front ++ (tail.map fun (value, bytes) =>
          ({ item with entry := { value, bytes } } : FencedEntry T)).toList ++ back)

variable {items : List (FencedEntry T)} {entries scanned extra : List (QueueEntry T)}

@[simp] theorem openKey_fresh (entry : QueueEntry T) :
    openKey { entry } = entry.replacement := by
  cases keyed : entry.replacement <;> simp [openKey, barredFor, keyed]

theorem openKey_eq_some {item : FencedEntry T} {key : ReplacementKey} :
    item.openKey = some key ↔ item.ownKey = some key ∧ item.barredFor key = false := by
  simp only [openKey, ownKey, Option.filter_eq_some_iff, Bool.not_eq_true']

theorem openKey_eq_none {item : FencedEntry T} (plain : item.entry.replacement = none) :
    item.openKey = none := by
  simp [openKey, plain]

theorem openKey_barred (barrier : ReplayBarrier) (item : FencedEntry T) :
    openKey { item with barriers := barrier :: item.barriers } =
      item.openKey.filter fun key => !barrier.covers key := by
  simp [openKey, barredFor, Option.filter_filter, Bool.and_comm]

theorem lastPosition_barred (barrier : ReplayBarrier) (items : List (FencedEntry T))
    (key : ReplacementKey) :
    lastPosition openKey key (bar barrier items) =
      if barrier.covers key then none else lastPosition openKey key items := by
  induction items with
  | nil => simp [bar, lastPosition]
  | cons head rest ih =>
      have tail : bar barrier (head :: rest) =
        { head with barriers := barrier :: head.barriers } :: bar barrier rest := rfl
      rw [tail]
      simp only [lastPosition, ih, openKey_barred]
      cases covered : barrier.covers key with
      | true => simp [Option.filter_eq_some_iff, covered]
      | false => simp [Option.filter_eq_some_iff, covered]

theorem carry_append (same : scanned.length = items.length) :
    carry items (scanned ++ extra) = carry items scanned ++ extra.map fun entry => ({ entry } : FencedEntry T) := by
  induction items generalizing scanned with
  | nil =>
      rw [List.length_eq_zero_iff.mp same]
      rfl
  | cons head rest ih =>
      cases scanned with
      | nil => simp at same
      | cons entry scanned =>
          simp only [List.cons_append, carry, ih (Nat.succ.inj same)]

theorem carry_entry (same : scanned.length = items.length) :
    (carry items scanned).map entry = scanned := by
  induction items generalizing scanned with
  | nil =>
      rw [List.length_eq_zero_iff.mp same]
      rfl
  | cons head rest ih =>
      cases scanned with
      | nil => simp at same
      | cons entry scanned => simp only [carry, List.map_cons, ih (Nat.succ.inj same)]

theorem carry_openKey
    (same : scanned.map QueueEntry.replacement = items.map ownKey) :
    (carry items scanned).map openKey = items.map openKey := by
  induction items generalizing scanned with
  | nil =>
      rw [List.map_eq_nil_iff.mp same]
      rfl
  | cons head rest ih =>
      cases scanned with
      | nil => simp at same
      | cons entry scanned =>
          simp only [List.map_cons, List.cons.injEq] at same
          simp only [carry, List.map_cons, ih same.2, List.cons.injEq, and_true]
          simp only [openKey, same.1, ownKey]
          rfl

end FencedEntry

namespace ByteQueue

variable {T σ : Type}

def pushedWith (value : T) (bytes : Nat) (coalesce : T → T → T × Bool)
    (entries : List (QueueEntry T)) : List (QueueEntry T) :=
  match entries.getLast? with
  | some back =>
      match coalesce back.value value with
      | (queued, true) =>
          entries.dropLast ++ [{ back with value := queued, bytes := back.bytes + bytes }]
      | (queued, false) => entries.dropLast ++ [{ back with value := queued }, { value, bytes }]
  | none => entries ++ [{ value, bytes }]

def intend (items : List (FencedEntry T)) : Op T → Option T × List (FencedEntry T)
  | .pushWith value bytes coalesce =>
      (none, FencedEntry.carry items
        (pushedWith value bytes coalesce (items.map FencedEntry.entry)))
  | .pushLatest value bytes media key =>
      (none, FencedEntry.pushLatest { value, bytes, media, replacement := key } items)
  | .pushSegment value bytes media coalesce state =>
      (none, FencedEntry.carry items
        (segmented coalesce value bytes media state (items.map FencedEntry.entry)))
  | .pop =>
      match items with
      | item :: rest => (some item.entry.value, rest)
      | [] => (none, [])
  | .popReady ready split state => FencedEntry.takeReady ready split state items
  | .invalidate pane isLocal => (none, FencedEntry.bar (.pane pane isLocal) items)
  | .clear => (none, FencedEntry.bar .all items)
  | .close => (none, items)

end ByteQueue

structure FencedRun (T : Type) where
  queue : ByteQueue T
  items : List (FencedEntry T) := []
  popped : List T := []
  intended : List T := []

namespace FencedRun

open ByteQueue

variable {T : Type}

def perform (run : FencedRun T) (op : Op T) : FencedRun T :=
  match run.queue.perform op with
  | (.refused _, queue) => { run with queue }
  | (.popped value, queue) =>
      { queue
        items := (intend run.items op).2
        popped := run.popped ++ [value]
        intended := run.intended ++ (intend run.items op).1.toList }
  | (.finished, queue) =>
      { run with
        queue
        items := (intend run.items op).2
        intended := run.intended ++ (intend run.items op).1.toList }

def runs (T : Type) (limits : Limits) : Transition (FencedRun T) (Op T) where
  initial := fun run => run = { queue := withMediaLimits limits }
  step := fun run op next => next = run.perform op

/-- A pop of a ready entry leaves an entry that is the last of its key, though a barrier for that key
came after it. -/
def Readmits (run : FencedRun T) : Op T → Prop
  | .popReady ready split state =>
      ∃ value rest, FencedEntry.takeReady ready split state run.items = (some value, rest) ∧
        ∃ key index item, lastPosition FencedEntry.ownKey key rest = some index ∧
          rest[index]? = some item ∧ item.barredFor key = true
  | _ => False

structure Agrees (run : FencedRun T) : Prop where
  entries : run.items.map FencedEntry.entry = run.queue.entries
  indexed : IndexSound FencedEntry.openKey run.queue.base run.items run.queue.replacements
  popped : run.popped = run.intended

section push

variable {σ : Type} {queue next : ByteQueue T} {items : List (FencedEntry T)} {value : T}
  {bytes : Nat} {media : MediaWeight}

structure Recast (entries result : List (QueueEntry T)) : Prop where
  split : ∃ scanned extra, result = scanned ++ extra ∧
    scanned.map QueueEntry.replacement = entries.map QueueEntry.replacement ∧
    ∀ entry ∈ extra, entry.replacement = none

theorem recast_pushedWith (value : T) (bytes : Nat) (coalesce : T → T → T × Bool)
    (entries : List (QueueEntry T)) :
    Recast entries (pushedWith value bytes coalesce entries) := by
  unfold pushedWith
  cases last : entries.getLast? with
  | none => exact ⟨entries, [{ value, bytes }], rfl, rfl, by simp⟩
  | some back =>
      have whole := List.dropLast_append_getLast? back last
      have kept (queued : T) (size : Nat) :
          (entries.dropLast ++ [{ back with value := queued, bytes := size }]).map
            QueueEntry.replacement = entries.map QueueEntry.replacement := by
        conv_rhs => rw [← whole]
        simp
      rcases answer : coalesce back.value value with ⟨queued, _ | _⟩
      · refine ⟨_, [{ value, bytes }], ?_, kept queued back.bytes, by simp⟩
        simp [answer]
      · refine ⟨_, [], ?_, kept queued (back.bytes + bytes), by simp⟩
        simp [answer]

theorem recast_segmented (value : T) (bytes : Nat) (media : MediaWeight)
    (coalesce : σ → T → T → Bool → Coalesced × T × σ) (state : σ)
    (entries : List (QueueEntry T)) :
    Recast entries (segmented coalesce value bytes media state entries) := by
  have keys := scanSegment_replacement coalesce value bytes media state true entries.reverse
  unfold segmented
  rcases scan : scanSegment coalesce value bytes media state true entries.reverse with
    ⟨merged, scanned⟩
  have kept : scanned.reverse.map QueueEntry.replacement =
      entries.map QueueEntry.replacement := by
    rw [scan] at keys
    rw [List.map_reverse, keys, List.map_reverse, List.reverse_reverse]
  cases merged with
  | true => exact ⟨scanned.reverse, [], by simp, kept, by simp⟩
  | false => exact ⟨scanned.reverse, [{ value, bytes, media }], rfl, kept, by simp⟩

theorem carry_agrees {entries result : List (QueueEntry T)} {base : Nat}
    {index : Index ReplacementKey} (same : items.map FencedEntry.entry = entries)
    (sound : IndexSound FencedEntry.openKey base items index) (recast : Recast entries result) :
    (FencedEntry.carry items result).map FencedEntry.entry = result ∧
      IndexSound FencedEntry.openKey base (FencedEntry.carry items result) index := by
  rcases recast with ⟨scanned, extra, rfl, keys, plain⟩
  have keys' : scanned.map QueueEntry.replacement = items.map FencedEntry.ownKey := by
    rw [keys, ← same, List.map_map]
    rfl
  have length : scanned.length = items.length := by
    simpa using congrArg List.length keys'
  rw [FencedEntry.carry_append length]
  constructor
  · rw [List.map_append, FencedEntry.carry_entry length, List.map_map]
    congr 1
    exact List.map_id' _
  · apply IndexSound.push_plains
    · exact sound.congr (FencedEntry.carry_openKey keys')
    · intro item member
      rcases List.mem_map.mp member with ⟨entry, present, rfl⟩
      rw [FencedEntry.openKey_fresh, plain entry present]

theorem tryPushWith_pushedWith {coalesce : T → T → T × Bool}
    (pushed : queue.tryPushWith value bytes coalesce = .ok next) :
    next.entries = pushedWith value bytes coalesce queue.entries ∧ next.base = queue.base ∧
      next.replacements = queue.replacements := by
  unfold tryPushWith at pushed
  unfold pushedWith
  split_ifs at pushed
  cases last : queue.entries.getLast? with
  | none =>
      simp only [last, Except.ok.injEq] at pushed
      subst pushed
      exact ⟨rfl, rfl, rfl⟩
  | some back =>
      rcases answer : coalesce back.value value with ⟨queued, _ | _⟩
      · simp only [last, answer, Except.ok.injEq] at pushed
        subst pushed
        exact ⟨by simp [answer], rfl, rfl⟩
      · simp only [last, answer, Except.ok.injEq] at pushed
        subst pushed
        exact ⟨by simp [answer], rfl, rfl⟩

/-- The entry a keyed push replaces is the newest of its key that no barrier closed. -/
theorem replacementIndex_open (sound : IndexSound FencedEntry.openKey queue.base items
    queue.replacements) (key : ReplacementKey) :
    queue.replacementIndex (some key) = lastPosition FencedEntry.openKey key items := by
  simp only [replacementIndex, Option.bind_some, sound key]
  cases lastPosition FencedEntry.openKey key items with
  | none => rfl
  | some index => simp

theorem pushLatest_agrees {key : Option ReplacementKey}
    (same : items.map FencedEntry.entry = queue.entries)
    (sound : IndexSound FencedEntry.openKey queue.base items queue.replacements)
    (pushed : queue.tryPushLatestMedia value bytes media key = .ok next) :
    (FencedEntry.pushLatest { value, bytes, media, replacement := key } items).map
        FencedEntry.entry = next.entries ∧
      IndexSound FencedEntry.openKey next.base
        (FencedEntry.pushLatest { value, bytes, media, replacement := key } items)
        next.replacements := by
  have outcome := tryPushLatestMedia_eq_ok pushed
  cases key with
  | none =>
      rcases outcome with ⟨_, _, found, _⟩ | ⟨_, _, rfl⟩
      · cases found
      · refine ⟨?_, sound.push_plain (FencedEntry.openKey_fresh _)⟩
        simp [FencedEntry.pushLatest, same]
  | some key =>
      rw [replacementIndex_open sound] at outcome
      cases newest : lastPosition FencedEntry.openKey key items with
      | none =>
          rcases outcome with ⟨_, _, found, _⟩ | ⟨_, _, rfl⟩
          · rw [newest] at found
            cases found
          · have length : queue.entries.length = items.length := by rw [← same, List.length_map]
            simp only [FencedEntry.pushLatest, Option.bind_some, newest, indexNewest, length]
            refine ⟨by simp [same], sound.push_keyed (FencedEntry.openKey_fresh _)⟩
      | some index =>
          rcases (lastPosition_spec newest).1 with ⟨item, present, opened⟩
          rcases outcome with ⟨_, _, found, _, _, rfl⟩ | ⟨absent, _, rfl⟩
          · rw [newest] at found
            cases found
            simp only [FencedEntry.pushLatest, Option.bind_some, newest]
            refine ⟨by rw [List.map_set, same], sound.replace present ?_⟩
            rw [opened]
            exact FencedEntry.openKey_fresh _
          · have missing := absent index newest
            rw [← same, List.getElem?_map, present] at missing
            cases missing

end push

section pop

variable {σ : Type} {queue : ByteQueue T} {items : List (FencedEntry T)}

/-- A popped entry that a barrier closed is not indexed, so its release drops nothing. -/
theorem releaseEntry_open {item : FencedEntry T} {rest : List (FencedEntry T)} {base : Nat}
    {index : Index ReplacementKey}
    (sound : IndexSound FencedEntry.openKey base (item :: rest) index) :
    releaseEntry index base item.entry.replacement = releaseEntry index base item.openKey := by
  cases keyed : item.entry.replacement with
  | none => rw [FencedEntry.openKey_eq_none keyed]
  | some key =>
      cases opened : item.openKey with
      | some other =>
          have own := (FencedEntry.openKey_eq_some.mp opened).1
          rw [FencedEntry.ownKey, keyed] at own
          rw [own]
      | none =>
          simp only [releaseEntry]
          rw [if_neg]
          intro here
          rcases (sound.lookup here).2.1 with ⟨front, present, held⟩
          rw [Nat.sub_self, List.getElem?_cons_zero, Option.some.injEq] at present
          rw [← present, opened] at held
          cases held

theorem pop_agrees (same : items.map FencedEntry.entry = queue.entries)
    (sound : IndexSound FencedEntry.openKey queue.base items queue.replacements) :
    (intend items .pop).1 = queue.tryPopWithBytesAndMore.1.map Prod.fst ∧
      (intend items .pop).2.map FencedEntry.entry = queue.tryPopWithBytesAndMore.2.entries ∧
      IndexSound FencedEntry.openKey queue.tryPopWithBytesAndMore.2.base (intend items .pop).2
        queue.tryPopWithBytesAndMore.2.replacements := by
  unfold tryPopWithBytesAndMore
  rw [← same]
  cases items with
  | nil =>
      exact ⟨rfl, same, sound⟩
  | cons item rest =>
      refine ⟨rfl, rfl, ?_⟩
      simp only [List.map_cons, intend, removeFrontIndex, subtractEntryWeight,
        releaseEntry_open sound]
      exact sound.pop

/-- The keys a pop of a ready entry indexes are open, unless it readmits an entry. -/
theorem IndexSound.reopened {base : Nat} {rest : List (FencedEntry T)}
    (closed : ∀ key index item, lastPosition FencedEntry.ownKey key rest = some index →
      rest[index]? = some item → item.barredFor key = false) :
    IndexSound FencedEntry.openKey base rest
      (rebuild QueueEntry.replacement base (rest.map FencedEntry.entry) fun _ => none) := by
  intro key
  rw [IndexSound.rebuilt base (rest.map FencedEntry.entry) key]
  congr 1
  have own : lastPosition QueueEntry.replacement key (rest.map FencedEntry.entry) =
      lastPosition FencedEntry.ownKey key rest := by
    rw [lastPosition_map, List.map_map, lastPosition_map key rest]
    rfl
  rw [own]
  cases newest : lastPosition FencedEntry.ownKey key rest with
  | none =>
      have absent := lastPosition_eq_none.mp newest
      symm
      rw [lastPosition_eq_none]
      intro item member opened
      exact absent item member (FencedEntry.openKey_eq_some.mp opened).1
  | some index =>
      rcases lastPosition_spec newest with ⟨⟨item, present, keyed⟩, later⟩
      have opened := FencedEntry.openKey_eq_some.mpr ⟨keyed, closed key index item newest present⟩
      symm
      apply lastPosition_of_last present opened
      intro position other behind there held
      exact later position other behind there (FencedEntry.openKey_eq_some.mp held).1

theorem takeReady_agrees (same : items.map FencedEntry.entry = queue.entries)
    (ready : σ → T → Bool × σ) (split : σ → T → T × Option (T × Nat)) (state : σ) :
    (FencedEntry.takeReady ready split state items).1 =
        (queue.tryPopReady ready split state).1 ∧
      (FencedEntry.takeReady ready split state items).2.map FencedEntry.entry =
        (queue.tryPopReady ready split state).2.2.entries ∧
      (((queue.tryPopReady ready split state).1 = none ∧
          (FencedEntry.takeReady ready split state items).2 = items ∧
          (queue.tryPopReady ready split state).2.2 = queue) ∨
        (∃ value, (queue.tryPopReady ready split state).1 = some value) ∧
          (queue.tryPopReady ready split state).2.2.replacements =
            rebuild QueueEntry.replacement (queue.tryPopReady ready split state).2.2.base
              (queue.tryPopReady ready split state).2.2.entries fun _ => none) := by
  unfold tryPopReady FencedEntry.takeReady
  rw [← same, Scan.first_map]
  rcases Scan.first (fun state (item : FencedEntry T) => ready state item.entry.value) state items
    with ⟨_ | ⟨front, item, back⟩, after⟩
  · exact ⟨rfl, same, .inl ⟨rfl, rfl, rfl⟩⟩
  · rcases cut : split after item.entry.value with ⟨value, tail⟩
    cases tail with
    | none => simp [cut]
    | some tail => simp [cut]

end pop

variable {limits : Limits} {run : FencedRun T}

theorem Agrees.pushed (agrees : run.Agrees) {op : Op T} {next : ByteQueue T}
    (done : run.queue.perform op = (.finished, next))
    (silent : (intend run.items op).1 = none)
    (entries : (intend run.items op).2.map FencedEntry.entry = next.entries)
    (indexed : IndexSound FencedEntry.openKey next.base (intend run.items op).2
      next.replacements) : (run.perform op).Agrees := by
  unfold perform
  rw [done]
  refine ⟨entries, indexed, ?_⟩
  simp only [silent, Option.toList_none, List.append_nil]
  exact agrees.popped

theorem Agrees.refused (agrees : run.Agrees) {op : Op T} {error : PushError T}
    {next : ByteQueue T} (done : run.queue.perform op = (.refused error, next)) :
    (run.perform op).Agrees := by
  have kept : (run.queue.perform op).2 = run.queue :=
    (perform_refused (congrArg Prod.fst done)).1
  rw [done] at kept
  unfold perform
  rw [done, show next = run.queue from kept]
  exact agrees

theorem Agrees.handedOut (agrees : run.Agrees) {op : Op T} {value : T} {next : ByteQueue T}
    (done : run.queue.perform op = (.popped value, next))
    (same : (intend run.items op).1 = some value)
    (entries : (intend run.items op).2.map FencedEntry.entry = next.entries)
    (indexed : IndexSound FencedEntry.openKey next.base (intend run.items op).2
      next.replacements) : (run.perform op).Agrees := by
  unfold perform
  rw [done]
  refine ⟨entries, indexed, ?_⟩
  simp only [same, Option.toList_some]
  rw [agrees.popped]

theorem invalidateReplacements_covers (queue : ByteQueue T) (pane : PaneId) (isLocal : Bool)
    (key : ReplacementKey) : (queue.invalidateReplacements pane isLocal).replacements key =
      if (ReplayBarrier.pane pane isLocal).covers key then none else queue.replacements key := by
  unfold invalidateReplacements ReplayBarrier.covers
  by_cases covered : key.pane = pane ∧ key.isLocal = isLocal
  · simp [covered]
  · have other : key.pane ≠ pane ∨ key.isLocal ≠ isLocal := by tauto
    simp only [other, covered, if_true, decide_false, Bool.false_eq_true, if_false]

theorem Agrees.barred (agrees : run.Agrees) {op : Op T} {next : ByteQueue T}
    {barrier : ReplayBarrier} (done : run.queue.perform op = (.finished, next))
    (bars : intend run.items op = (none, FencedEntry.bar barrier run.items))
    (entries : next.entries = run.queue.entries) (base : next.base = run.queue.base)
    (index : ∀ key, next.replacements key =
      if barrier.covers key then none else run.queue.replacements key) :
    (run.perform op).Agrees := by
  apply agrees.pushed done (by rw [bars])
  · rw [bars, entries, ← agrees.entries]
    simp [FencedEntry.bar]
  · intro key
    rw [bars, index, base, agrees.indexed key, FencedEntry.lastPosition_barred]
    split_ifs <;> rfl

/-- Every operation keeps the queue to what it is meant to be, unless it readmits an entry. -/
theorem Agrees.perform (agrees : run.Agrees) {op : Op T} (clear : ¬run.Readmits op) :
    (run.perform op).Agrees := by
  have same := agrees.entries
  have sound := agrees.indexed
  cases op with
  | pushWith value bytes coalesce =>
      cases pushed : run.queue.tryPushWith value bytes coalesce with
      | error error =>
          have done : run.queue.perform (.pushWith value bytes coalesce) =
              (.refused error.1, error.2) := by simp only [ByteQueue.perform, pushed, settle]
          exact agrees.refused done
      | ok next =>
          rcases tryPushWith_pushedWith pushed with ⟨entries, base, index⟩
          have carried := carry_agrees rfl sound
            (recast_pushedWith value bytes coalesce (run.items.map FencedEntry.entry))
          have done : run.queue.perform (.pushWith value bytes coalesce) = (.finished, next) := by
            simp only [ByteQueue.perform, pushed, settle]
          apply agrees.pushed done rfl
          · rw [entries, ← same]
            exact carried.1
          · rw [base, index]
            exact carried.2
  | pushLatest value bytes media key =>
      cases pushed : run.queue.tryPushLatestMedia value bytes media key with
      | error error =>
          have done : run.queue.perform (.pushLatest value bytes media key) =
              (.refused error.1, error.2) := by simp only [ByteQueue.perform, pushed, settle]
          exact agrees.refused done
      | ok next =>
          have placed := pushLatest_agrees same sound pushed
          have done : run.queue.perform (.pushLatest value bytes media key) = (.finished, next) := by
            simp only [ByteQueue.perform, pushed, settle]
          exact agrees.pushed done rfl placed.1 placed.2
  | pushSegment value bytes media coalesce state =>
      cases pushed : run.queue.pushSegment value bytes media coalesce state with
      | error error =>
          have done : run.queue.perform (.pushSegment value bytes media coalesce state) =
              (.refused error.1, error.2) := by simp only [ByteQueue.perform, pushed, settle]
          exact agrees.refused done
      | ok next =>
          have carried := carry_agrees rfl sound
            (recast_segmented value bytes media coalesce state (run.items.map FencedEntry.entry))
          have done : run.queue.perform (.pushSegment value bytes media coalesce state) =
              (.finished, next) := by simp only [ByteQueue.perform, pushed, settle]
          unfold ByteQueue.pushSegment at pushed
          split_ifs at pushed
          cases pushed
          apply agrees.pushed done rfl
          · rw [← same]
            exact carried.1
          · exact carried.2
  | pop =>
      rcases pop_agrees same sound with ⟨out, entries, indexed⟩
      rcases popped : run.queue.tryPopWithBytesAndMore with ⟨_ | ⟨value, bytes, more⟩, next⟩
      · rw [popped] at out entries indexed
        have done : run.queue.perform .pop = (.finished, next) := by
          simp only [ByteQueue.perform, popped]
        exact agrees.pushed done out entries indexed
      · rw [popped] at out entries indexed
        have done : run.queue.perform .pop = (.popped value, next) := by
          simp only [ByteQueue.perform, popped]
        exact agrees.handedOut done out entries indexed
  | popReady ready split state =>
      rcases takeReady_agrees same ready split state with ⟨out, entries, outcome⟩
      rcases popped : run.queue.tryPopReady ready split state with ⟨_ | value, after, next⟩
      · rw [popped] at out entries outcome
        rcases outcome with ⟨_, kept, rfl⟩ | ⟨⟨_, taken⟩, _⟩
        · have done : run.queue.perform (.popReady ready split state) =
              (.finished, run.queue) := by simp only [ByteQueue.perform, popped]
          apply agrees.pushed done out entries
          simp only [intend, kept]
          exact sound
        · cases taken
      · rw [popped] at out entries outcome
        rcases outcome with ⟨missing, _⟩ | ⟨_, rebuilt⟩
        · cases missing
        · have done : run.queue.perform (.popReady ready split state) =
              (.popped value, next) := by simp only [ByteQueue.perform, popped]
          apply agrees.handedOut done out entries
          simp only at rebuilt entries
          rw [rebuilt, ← entries]
          apply IndexSound.reopened
          intro key index item newest present
          rw [← Bool.not_eq_true]
          intro barred
          exact clear ⟨value, _, Prod.ext out rfl, key, index, item, newest, present, barred⟩
  | invalidate pane isLocal =>
      have bars : intend run.items (.invalidate pane isLocal) =
          (none, FencedEntry.bar (.pane pane isLocal) run.items) := rfl
      have done : run.queue.perform (.invalidate pane isLocal) =
          (.finished, run.queue.invalidateReplacements pane isLocal) := rfl
      apply agrees.barred done bars rfl rfl
      exact fun key => invalidateReplacements_covers run.queue pane isLocal key
  | clear =>
      have bars : intend run.items .clear = (none, FencedEntry.bar .all run.items) := rfl
      have done : run.queue.perform .clear = (.finished, run.queue.clearReplacements) := rfl
      exact agrees.barred done bars rfl rfl fun _ => rfl
  | close =>
      exact agrees.pushed rfl rfl same sound

theorem agrees_of_reached
    (reached : (runs T limits).ReachableWhen (fun run op => ¬run.Readmits op) run) :
    run.Agrees := by
  apply reached.invariant
  · rintro _ rfl
    exact ⟨rfl, IndexSound.empty 0, rfl⟩
  · rintro run op _ agrees clear rfl
    exact agrees.perform clear

/-- No keyed push moves or changes an entry that a barrier for its key came after. -/
theorem Agrees.keyed_push_keeps (agrees : run.Agrees) {value : T} {bytes : Nat}
    {media : MediaWeight} {key : ReplacementKey} {next : ByteQueue T}
    (pushed : run.queue.tryPushLatestMedia value bytes media (some key) = .ok next) {index : Nat}
    {item : FencedEntry T} (present : run.items[index]? = some item)
    (barred : item.barredFor key = true) : next.entries[index]? = some item.entry := by
  have queued : run.queue.entries[index]? = some item.entry := by
    rw [← agrees.entries, List.getElem?_map, present]
    rfl
  rcases tryPushLatestMedia_eq_ok pushed with ⟨place, _, found, _, _, rfl⟩ | ⟨_, _, rfl⟩
  · rw [replacementIndex_open agrees.indexed] at found
    rcases (lastPosition_spec found).1 with ⟨replaced, there, opened⟩
    have elsewhere : place ≠ index := by
      rintro rfl
      rw [present, Option.some.injEq] at there
      have free := (FencedEntry.openKey_eq_some.mp opened).2
      rw [← there, barred] at free
      cases free
    simp only [List.getElem?_set_ne elsewhere, queued]
  · have inside := (List.getElem?_eq_some_iff.mp queued).1
    simp only [List.getElem?_append_left inside, queued]

/-- Once an entry is readmitted, the next keyed push of its key that fits replaces it. -/
theorem Agrees.readmitted_replaceable (agrees : run.Agrees) {op : Op T}
    (readmits : run.Readmits op) :
    ∃ (key : ReplacementKey) (index : Nat) (item : FencedEntry T),
      (run.perform op).items[index]? = some item ∧ item.barredFor key = true ∧
      (run.perform op).queue.entries[index]? = some item.entry ∧
      (run.perform op).queue.replacementIndex (some key) = some index := by
  cases op with
  | popReady ready split state =>
      rcases readmits with ⟨value, rest, takes, key, index, item, newest, present, barred⟩
      rcases takeReady_agrees agrees.entries ready split state with ⟨out, entries, outcome⟩
      rw [takes] at out entries outcome
      rcases popped : run.queue.tryPopReady ready split state with ⟨_ | handed, after, next⟩
      · rw [popped] at out
        cases out
      · have performed : run.perform (.popReady ready split state) =
            { queue := next
              items := rest
              popped := run.popped ++ [handed]
              intended := run.intended ++ [value] } := by
          unfold FencedRun.perform
          simp only [ByteQueue.perform, popped, intend, takes, Option.toList_some]
        rw [popped] at entries outcome
        rcases outcome with ⟨missing, _⟩ | ⟨_, rebuilt⟩
        · cases missing
        · simp only at entries rebuilt
          rw [performed]
          refine ⟨key, index, item, present, barred, ?_, ?_⟩
          · rw [← entries, List.getElem?_map, present]
            rfl
          · have own : lastPosition QueueEntry.replacement key next.entries = some index := by
              rw [← entries, lastPosition_map, List.map_map]
              rwa [lastPosition_map] at newest
            rw [replacementIndex, Option.bind_some, rebuilt,
              IndexSound.rebuilt next.base next.entries key, own]
            simp
  | _ => exact readmits.elim

/-- In every run that readmits nothing, what is queued and what came out is what the queue is meant
to hold and hand out, and no keyed push changes an entry that a barrier for its key came after. -/
theorem barriers_not_crossed
    (reached : (runs T limits).ReachableWhen (fun run op => ¬run.Readmits op) run) :
    run.items.map FencedEntry.entry = run.queue.entries ∧ run.popped = run.intended ∧
      ∀ value bytes media key next,
        run.queue.tryPushLatestMedia value bytes media (some key) = .ok next →
          ∀ (index : Nat) (item : FencedEntry T), run.items[index]? = some item →
            item.barredFor key = true → next.entries[index]? = some item.entry := by
  have agrees := agrees_of_reached reached
  refine ⟨agrees.entries, agrees.popped, ?_⟩
  intro value bytes media key next pushed index item present barred
  exact agrees.keyed_push_keeps pushed present barred

def barredOnce : FencedRun Nat :=
  (({ queue := withMediaLimits ⟨8, 0, 0⟩ } : FencedRun Nat).perform
    (.pushLatest 1 1 {} (some exampleKey))).perform (.invalidate 1 false)

theorem barredOnce_reached :
    (runs Nat ⟨8, 0, 0⟩).ReachableWhen (fun run op => ¬run.Readmits op) barredOnce :=
  (ReachableWhen.initial rfl).next (.pushLatest 1 1 {} (some exampleKey)) not_false rfl
    |>.next (.invalidate 1 false) not_false rfl

def takeSecond : Op Nat :=
  .popReady (fun (_ : Unit) value => (decide (value = 2), ())) (fun _ value => (value, none)) ()

def barredBehind : FencedRun Nat :=
  (barredOnce.perform (.pushLatest 3 1 {} (some exampleKey))).perform
    (.pushWith 2 1 fun queued _ => (queued, false))

/-- The entry that is barred is not the last of its key, so a pop readmits nothing. -/
theorem barredBehind_clear : ¬barredBehind.Readmits takeSecond := by
  rintro ⟨value, rest, ⟨⟩, key, index, item, newest, present, barred⟩
  rcases index with _ | _ | index
  · -- the second entry is a later one of the key
    rcases (lastPosition_spec newest).1 with ⟨first, ⟨⟩, keyed⟩
    exact (lastPosition_spec newest).2 1 _ Nat.zero_lt_one rfl keyed
  · cases present
    cases barred
  · cases present

def fencedOnce : FencedRun Nat :=
  ((barredBehind.perform takeSecond).perform (.pushLatest 4 1 {} (some exampleKey))).perform .pop

theorem fencedOnce_reached :
    (runs Nat ⟨8, 0, 0⟩).ReachableWhen (fun run op => ¬run.Readmits op) fencedOnce :=
  barredOnce_reached
    |>.next (.pushLatest 3 1 {} (some exampleKey)) not_false rfl
    |>.next (.pushWith 2 1 fun queued _ => (queued, false)) not_false rfl
    |>.next takeSecond barredBehind_clear rfl
    |>.next (.pushLatest 4 1 {} (some exampleKey)) not_false rfl
    |>.next .pop not_false rfl

theorem barriers_not_crossed_once :
    fencedOnce.items.map FencedEntry.entry = fencedOnce.queue.entries ∧
      fencedOnce.popped = fencedOnce.intended ∧ fencedOnce.popped = [2, 1] ∧
      fencedOnce.queue.values = [4] :=
  have kept := barriers_not_crossed fencedOnce_reached
  ⟨kept.1, kept.2.1, rfl, rfl⟩

/-- The entry behind the barred one is taken from the middle, the key is pushed once more, and the
front is popped. -/
def crossed : FencedRun Nat :=
  (((barredOnce.perform (.pushWith 2 1 fun queued _ => (queued, false))).perform
    (.popReady (fun (_ : Unit) value => (decide (value = 2), ())) (fun _ value => (value, none))
      ())).perform (.pushLatest 3 1 {} (some exampleKey))).perform .pop

theorem popped_crosses_barrier :
    ¬∀ (limits : Limits) (run : FencedRun Nat), (runs Nat limits).Reachable run →
      run.popped = run.intended := by
  intro holds
  have reached : (runs Nat ⟨8, 0, 0⟩).Reachable crossed :=
    barredOnce_reached.reachable
      |>.next (.pushWith 2 1 fun queued _ => (queued, false)) rfl
      |>.next (.popReady (fun (_ : Unit) value => (decide (value = 2), ()))
        (fun _ value => (value, none)) ()) rfl
      |>.next (.pushLatest 3 1 {} (some exampleKey)) rfl
      |>.next .pop rfl
  exact absurd (holds _ _ reached) (by decide +kernel)

/-- The first step of a run that readmits an entry leaves one that a barrier for its key came after
and that the next push of the key that is accepted puts its value into. -/
theorem readmitted_entry_replaced
    (reached : (runs T limits).ReachableWhen (fun run op => ¬run.Readmits op) run) {op : Op T}
    (readmits : run.Readmits op) :
    ∃ (key : ReplacementKey) (index : Nat) (item : FencedEntry T),
      (run.perform op).items[index]? = some item ∧ item.barredFor key = true ∧
      (run.perform op).queue.entries[index]? = some item.entry ∧
      ∀ value bytes media next,
        (run.perform op).queue.tryPushLatestMedia value bytes media (some key) = .ok next →
          next.entries[index]? = some { value, bytes, media, replacement := some key } := by
  rcases (agrees_of_reached reached).readmitted_replaceable readmits with
    ⟨key, index, item, present, barred, queued, replaces⟩
  refine ⟨key, index, item, present, barred, queued, ?_⟩
  intro value bytes media next pushed
  rcases tryPushLatestMedia_eq_ok pushed with ⟨place, _, found, _, _, rfl⟩ | ⟨absent, _, _⟩
  · rw [replaces, Option.some.injEq] at found
    subst found
    rw [List.getElem?_set_self (List.getElem?_eq_some_iff.mp queued).1]
  · rw [absent index replaces] at queued
    cases queued

def barredAhead : FencedRun Nat :=
  barredOnce.perform (.pushWith 2 1 fun queued _ => (queued, false))

theorem barredAhead_readmits : barredAhead.Readmits takeSecond :=
  ⟨2, _, rfl, exampleKey, 0, _, rfl, rfl, rfl⟩

theorem readmitted_entry_replaced_ahead : ∃ (key : ReplacementKey) (index : Nat)
    (item : FencedEntry Nat),
    (barredAhead.perform takeSecond).items[index]? = some item ∧ item.barredFor key = true ∧
      (barredAhead.perform takeSecond).queue.entries[index]? = some item.entry ∧
      ∀ value bytes media next, (barredAhead.perform takeSecond).queue.tryPushLatestMedia value
        bytes media (some key) = .ok next →
          next.entries[index]? = some { value, bytes, media, replacement := some key } :=
  readmitted_entry_replaced
    (barredOnce_reached.next (.pushWith 2 1 fun queued _ => (queued, false)) not_false rfl)
    barredAhead_readmits

end FencedRun

end Rozi
