import Mathlib.Data.List.Basic
import Mathlib.Algebra.BigOperators.Group.List.Basic
import Mathlib.Tactic.SplitIfs
import Mathlib.Algebra.GroupWithZero.Nat

/-!
A queue whose items may carry a replacement key, together with an index from each key to the
absolute position of the last item that carries it. Absolute positions keep counting across pops,
so a pop does not touch the index of the items behind it.
-/

universe u v

namespace ReplacementQueue

variable {ι : Type u} {κ : Type v} [DecidableEq κ]

abbrev Index (κ : Type v) := κ → Option Nat

def insertKey (index : Index κ) (key : κ) (position : Nat) : Index κ :=
  fun other => if other = key then some position else index other

def eraseKey (index : Index κ) (key : κ) : Index κ :=
  fun other => if other = key then none else index other

/-- The index once the item at position `base` is popped: its entry goes, unless a later item of the
same key has taken it over. -/
def releaseEntry (index : Index κ) (base : Nat) : Option κ → Index κ
  | some key => if index key = some base then eraseKey index key else index
  | none => index

/-- Where the last item with key `key` stands in the queue. -/
def lastPosition (keyOf : ι → Option κ) (key : κ) : List ι → Option Nat
  | [] => none
  | item :: rest =>
      match lastPosition keyOf key rest with
      | some position => some (position + 1)
      | none => if keyOf item = some key then some 0 else none

def IndexSound (keyOf : ι → Option κ) (base : Nat) (items : List ι) (index : Index κ) : Prop :=
  ∀ key, index key = (lastPosition keyOf key items).map (base + ·)

def rebuild (keyOf : ι → Option κ) : Nat → List ι → Index κ → Index κ
  | _, [], index => index
  | position, item :: rest, index =>
      rebuild keyOf (position + 1) rest
        (match keyOf item with
          | some key => insertKey index key position
          | none => index)

variable {keyOf : ι → Option κ} {base : Nat} {items : List ι} {index : Index κ}

theorem lastPosition_eq_none {key : κ} :
    lastPosition keyOf key items = none ↔ ∀ item ∈ items, keyOf item ≠ some key := by
  induction items with
  | nil => simp [lastPosition]
  | cons head rest ih =>
      simp only [lastPosition, List.mem_cons, forall_eq_or_imp]
      cases tail : lastPosition keyOf key rest with
      | some behind =>
          have occurs : ¬ ∀ item ∈ rest, keyOf item ≠ some key := by
            intro absent
            rw [ih.mpr absent] at tail
            cases tail
          simp [occurs]
      | none =>
          have absent := ih.mp tail
          by_cases here : keyOf head = some key
          · simp [here]
          · simpa [here] using absent

theorem lastPosition_append_singleton (key : κ) (items : List ι) (item : ι) :
    lastPosition keyOf key (items ++ [item]) =
      if keyOf item = some key then some items.length else lastPosition keyOf key items := by
  induction items with
  | nil => simp [lastPosition]
  | cons head rest ih =>
      simp only [List.cons_append, lastPosition, ih]
      by_cases same : keyOf item = some key
      · simp [same]
      · rw [if_neg same, if_neg same]

theorem lastPosition_spec {key : κ} {position : Nat}
    (found : lastPosition keyOf key items = some position) :
    (∃ item, items[position]? = some item ∧ keyOf item = some key) ∧
      ∀ later item, position < later → items[later]? = some item → keyOf item ≠ some key := by
  induction items generalizing position with
  | nil => simp [lastPosition] at found
  | cons head rest ih =>
      simp only [lastPosition] at found
      cases tail : lastPosition keyOf key rest with
      | some behind =>
          simp only [tail, Option.some.injEq] at found
          subst found
          have spec := ih tail
          refine ⟨by simpa using spec.1, ?_⟩
          intro later item after present
          cases later with
          | zero => omega
          | succ later => exact spec.2 later item (by omega) (by simpa using present)
      | none =>
          simp only [tail, Option.ite_none_right_eq_some, Option.some.injEq] at found
          have absent := lastPosition_eq_none.mp tail
          rcases found with ⟨here, rfl⟩
          refine ⟨⟨head, rfl, here⟩, ?_⟩
          intro later item after present
          cases later with
          | zero => omega
          | succ later =>
              exact absent item (List.mem_of_getElem? (by simpa using present))

theorem lastPosition_of_last {key : κ} {position : Nat} {item : ι}
    (present : items[position]? = some item) (keyed : keyOf item = some key)
    (last : ∀ later item, position < later → items[later]? = some item →
      keyOf item ≠ some key) : lastPosition keyOf key items = some position := by
  cases found : lastPosition keyOf key items with
  | none => exact absurd keyed (lastPosition_eq_none.mp found item (List.mem_of_getElem? present))
  | some other =>
      rcases lastPosition_spec found with ⟨⟨occupant, there, holds⟩, behind⟩
      rcases Nat.lt_trichotomy position other with before | equal | after
      · exact absurd holds (last other occupant before there)
      · rw [equal]
      · exact absurd keyed (behind position item after present)

theorem lastPosition_map (key : κ) (items : List ι) :
    lastPosition keyOf key items = lastPosition id key (items.map keyOf) := by
  induction items with
  | nil => rfl
  | cons head rest ih => simp only [List.map_cons, lastPosition, ih, id]

theorem IndexSound.empty (base : Nat) : IndexSound keyOf base [] (fun _ => none) := by
  intro key
  simp [lastPosition]

theorem IndexSound.lookup (sound : IndexSound keyOf base items index) {key : κ} {position : Nat}
    (found : index key = some position) :
    base ≤ position ∧ (∃ item, items[position - base]? = some item ∧ keyOf item = some key) ∧
      ∀ later item, position - base < later → items[later]? = some item →
        keyOf item ≠ some key := by
  rw [sound key] at found
  rcases Option.map_eq_some_iff.mp found with ⟨offset, last, rfl⟩
  rw [Nat.add_sub_cancel_left]
  exact ⟨Nat.le_add_right _ _, lastPosition_spec last⟩

theorem IndexSound.congr {others : List ι} (sound : IndexSound keyOf base items index)
    (same : others.map keyOf = items.map keyOf) : IndexSound keyOf base others index := by
  intro key
  rw [lastPosition_map, same, ← lastPosition_map]
  exact sound key

theorem IndexSound.push_plain (sound : IndexSound keyOf base items index) {item : ι}
    (plain : keyOf item = none) : IndexSound keyOf base (items ++ [item]) index := by
  intro key
  rw [lastPosition_append_singleton, plain, if_neg (by simp)]
  exact sound key

theorem IndexSound.push_plains {extra : List ι} (sound : IndexSound keyOf base items index)
    (plain : ∀ item ∈ extra, keyOf item = none) :
    IndexSound keyOf base (items ++ extra) index := by
  induction extra generalizing items with
  | nil => rwa [List.append_nil]
  | cons head rest ih =>
      rw [List.append_cons]
      rcases List.forall_mem_cons.mp plain with ⟨first, others⟩
      exact ih (sound.push_plain first) others

theorem IndexSound.push_keyed (sound : IndexSound keyOf base items index) {item : ι} {key : κ}
    (keyed : keyOf item = some key) :
    IndexSound keyOf base (items ++ [item]) (insertKey index key (base + items.length)) := by
  intro other
  rw [lastPosition_append_singleton, keyed]
  unfold insertKey
  by_cases same : other = key
  · simp [same]
  · rw [if_neg same, if_neg (fun equal => same (Option.some.inj equal).symm)]
    exact sound other

theorem releaseEntry_eq_some {released : Option κ} {key : κ} {position : Nat}
    (found : releaseEntry index base released key = some position) :
    index key = some position ∧ ¬(released = some key ∧ position = base) := by
  cases released with
  | none => exact ⟨found, by simp⟩
  | some other =>
      by_cases same : other = key
      · subst same
        simp only [releaseEntry] at found
        split_ifs at found with here
        · simp [eraseKey] at found
        · refine ⟨found, fun popped => here ?_⟩
          rw [found, popped.2]
      · have kept : index key = some position := by
          simp only [releaseEntry] at found
          split_ifs at found with here
          · rwa [eraseKey, if_neg (Ne.symm same)] at found
          · exact found
        exact ⟨kept, fun popped => same (Option.some.inj popped.1)⟩

theorem releaseEntry_of_apart {released : Option κ} {key : κ} {position : Nat}
    (found : index key = some position) (apart : ¬(released = some key ∧ position = base)) :
    releaseEntry index base released key = some position := by
  cases released with
  | none => exact found
  | some other =>
      simp only [releaseEntry]
      split_ifs with here
      · rw [eraseKey, if_neg]
        · exact found
        · rintro rfl
          rw [found] at here
          exact apart ⟨rfl, Option.some.inj here⟩
      · exact found

theorem IndexSound.pop {item : ι} {rest : List ι}
    (sound : IndexSound keyOf base (item :: rest) index) :
    IndexSound keyOf (base + 1) rest (releaseEntry index base (keyOf item)) := by
  intro other
  have entry := sound other
  simp only [lastPosition] at entry
  cases keyed : keyOf item with
  | none =>
      rw [keyed] at entry
      simp only [releaseEntry]
      rw [entry]
      cases lastPosition keyOf other rest with
      | none => simp
      | some position => simp [Nat.add_comm, Nat.add_left_comm]
  | some key =>
      rw [keyed] at entry
      have front := sound key
      simp only [lastPosition, keyed, if_true] at front
      simp only [releaseEntry]
      cases behind : lastPosition keyOf other rest with
      | some position =>
          rw [behind] at entry
          have later : index other = some (base + 1 + position) := by
            rw [entry]
            simp [Nat.add_comm, Nat.add_left_comm]
          split_ifs with last
          · unfold eraseKey
            by_cases same : other = key
            · rw [same, last] at later
              have clash := Option.some.inj later
              omega
            · rw [if_neg same, later]
              rfl
          · rw [later]
            rfl
      | none =>
          rw [behind] at entry
          by_cases same : other = key
          · subst same
            have here : index other = some base := by simpa using entry
            rw [if_pos here]
            simp [eraseKey]
          · have gone : index other = none := by
              rw [entry, if_neg (fun equal => same (Option.some.inj equal).symm)]
              rfl
            split_ifs
            · simp [eraseKey, same, gone]
            · simp [gone]

/-- Putting another item with the same key in an item's place leaves the index as it is. -/
theorem IndexSound.replace (sound : IndexSound keyOf base items index) {position : Nat}
    {old new : ι} (present : items[position]? = some old) (same : keyOf new = keyOf old) :
    IndexSound keyOf base (items.set position new) index := by
  intro key
  rw [sound key]
  congr 1
  clear sound
  induction items generalizing position with
  | nil => simp at present
  | cons head rest ih =>
      cases position with
      | zero =>
          have here : head = old := by simpa using present
          simp only [List.set_cons_zero, lastPosition, same, here]
      | succ position =>
          have tail := ih (by simpa using present)
          simp only [List.set_cons_succ, lastPosition, tail]

theorem rebuild_apply (items : List ι) (position : Nat) (index : Index κ) (key : κ) :
    rebuild keyOf position items index key =
      ((lastPosition keyOf key items).map (position + ·)).or (index key) := by
  induction items generalizing position index with
  | nil => simp [rebuild, lastPosition]
  | cons head rest ih =>
      rw [rebuild, ih]
      simp only [lastPosition]
      cases lastPosition keyOf key rest with
      | some behind => simp [Nat.add_comm, Nat.add_left_comm]
      | none =>
          cases keyed : keyOf head with
          | none => simp
          | some own =>
              by_cases same : key = own
              · simp [insertKey, same]
              · have other : ¬ own = key := fun equal => same equal.symm
                simp [insertKey, same, other]

theorem IndexSound.rebuilt (base : Nat) (items : List ι) :
    IndexSound keyOf base items (rebuild keyOf base items fun _ => none) := by
  intro key
  rw [rebuild_apply, Option.or_none]

/-- The index holds nothing but last positions, though not of every key that occurs. -/
def IndexWithin (keyOf : ι → Option κ) (base : Nat) (items : List ι) (index : Index κ) : Prop :=
  ∀ key position, index key = some position →
    (lastPosition keyOf key items).map (base + ·) = some position

theorem IndexSound.within (sound : IndexSound keyOf base items index) :
    IndexWithin keyOf base items index := by
  intro key position found
  rw [← sound key, found]

theorem IndexWithin.lookup (within : IndexWithin keyOf base items index) {key : κ} {position : Nat}
    (found : index key = some position) :
    base ≤ position ∧ (∃ item, items[position - base]? = some item ∧ keyOf item = some key) ∧
      ∀ later item, position - base < later → items[later]? = some item →
        keyOf item ≠ some key :=
  IndexSound.lookup (fun _ => rfl) (within key position found)

theorem IndexWithin.shrink {smaller : Index κ} (within : IndexWithin keyOf base items index)
    (kept : ∀ key position, smaller key = some position → index key = some position) :
    IndexWithin keyOf base items smaller :=
  fun key position found => within key position (kept key position found)

theorem IndexWithin.congr {others : List ι} (within : IndexWithin keyOf base items index)
    (same : others.map keyOf = items.map keyOf) : IndexWithin keyOf base others index := by
  intro key position found
  rw [lastPosition_map, same, ← lastPosition_map]
  exact within key position found

theorem IndexWithin.push_plain (within : IndexWithin keyOf base items index) {item : ι}
    (plain : keyOf item = none) : IndexWithin keyOf base (items ++ [item]) index := by
  intro key position found
  rw [lastPosition_append_singleton, plain, if_neg (by simp)]
  exact within key position found

theorem IndexWithin.push_keyed (within : IndexWithin keyOf base items index) {item : ι} {key : κ}
    (keyed : keyOf item = some key) :
    IndexWithin keyOf base (items ++ [item]) (insertKey index key (base + items.length)) := by
  intro other position found
  rw [lastPosition_append_singleton, keyed]
  unfold insertKey at found
  by_cases same : other = key
  · rw [if_pos same] at found
    rw [if_pos (congrArg some same.symm), ← found]
    rfl
  · rw [if_neg same] at found
    rw [if_neg (fun equal => same (Option.some.inj equal).symm)]
    exact within other position found

theorem IndexWithin.pop {item : ι} {rest : List ι}
    (within : IndexWithin keyOf base (item :: rest) index) :
    IndexWithin keyOf (base + 1) rest (releaseEntry index base (keyOf item)) := by
  intro key position found
  rcases releaseEntry_eq_some found with ⟨kept, apart⟩
  have whole := within key position kept
  have exact' : IndexSound keyOf base (item :: rest)
      fun key => (lastPosition keyOf key (item :: rest)).map (base + ·) := fun _ => rfl
  rw [← exact'.pop key]
  exact releaseEntry_of_apart whole apart

theorem IndexWithin.empty (base : Nat) (items : List ι) :
    IndexWithin keyOf base items fun _ => none :=
  fun _ _ found => nomatch found

theorem IndexWithin.replace (within : IndexWithin keyOf base items index) {position : Nat}
    {old new : ι} (present : items[position]? = some old) (same : keyOf new = keyOf old) :
    IndexWithin keyOf base (items.set position new) index := by
  intro key place found
  rw [← IndexSound.replace (fun _ => rfl) present same key]
  exact within key place found

end ReplacementQueue

namespace QueueBytes

variable {ι : Type u} (size : ι → Nat)

def bytesWhere (test : ι → Bool) (items : List ι) : Nat :=
  ((items.filter test).map size).sum

variable {size} (test : ι → Bool)

@[simp] theorem bytesWhere_nil : bytesWhere size test [] = 0 := rfl

theorem bytesWhere_cons (item : ι) (rest : List ι) :
    bytesWhere size test (item :: rest) =
      (if test item then size item else 0) + bytesWhere size test rest := by
  unfold bytesWhere
  by_cases passes : test item = true
  · simp [passes]
  · simp [passes]

theorem bytesWhere_append (front back : List ι) :
    bytesWhere size test (front ++ back) =
      bytesWhere size test front + bytesWhere size test back := by
  simp [bytesWhere]

variable (size)

theorem bytesWhere_filter_add (kept : ι → Bool) (items : List ι) :
    bytesWhere size test (items.filter kept) +
      bytesWhere size test (items.filter fun item => !kept item) = bytesWhere size test items := by
  induction items with
  | nil => rfl
  | cons head rest ih =>
      cases stays : kept head with
      | true =>
          simp only [List.filter_cons, stays, if_true, Bool.not_true, Bool.false_eq_true,
            if_false, bytesWhere_cons]
          omega
      | false =>
          simp only [List.filter_cons, stays, if_true, Bool.not_false, Bool.false_eq_true,
            if_false, bytesWhere_cons]
          omega

theorem bytesWhere_set {items : List ι} {position : Nat} {old new : ι}
    (present : items[position]? = some old) (same : test new = test old) :
    bytesWhere size test (items.set position new) + (if test old then size old else 0) =
      bytesWhere size test items + (if test old then size new else 0) := by
  induction items generalizing position with
  | nil => simp at present
  | cons head rest ih =>
      cases position with
      | zero =>
          have here : head = old := by simpa using present
          simp only [List.set_cons_zero, bytesWhere_cons, same, here]
          omega
      | succ position =>
          have tail := ih (by simpa using present)
          simp only [List.set_cons_succ, bytesWhere_cons]
          omega

theorem size_le_bytesWhere {items : List ι} {position : Nat} {item : ι}
    (present : items[position]? = some item) (passes : test item = true) :
    size item ≤ bytesWhere size test items := by
  induction items generalizing position with
  | nil => simp at present
  | cons head rest ih =>
      rw [bytesWhere_cons]
      cases position with
      | zero =>
          have here : head = item := by simpa using present
          simp [here, passes]
      | succ position =>
          have tail := ih (by simpa using present)
          omega

end QueueBytes
