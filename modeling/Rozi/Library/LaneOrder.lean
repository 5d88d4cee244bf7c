import Mathlib.Data.List.Basic

/-!
The order of a queue whose items belong to lanes. An item may carry a key, and a later item of the
same key may take its place; an item without a key is ordered. Such a replacement can move an item
ahead of items with other keys, but never ahead of an ordered item of its lane.
-/

universe u v w

namespace LaneOrder

/-- What the order asks of an item: when it was issued, its lane, its key, and its place in the
batch when several items were issued at that moment. -/
structure Reading (ι : Type u) (ν : Type v) (κ : Type w) where
  tick : ι → Nat
  lane : ι → Option ν
  key : ι → Option κ
  part : ι → Option Nat

variable {ι : Type u} {ν : Type v} {κ : Type w} (read : Reading ι ν κ)

/-- The later of two keyed items may stand first when their keys differ and no ordered item of their
lane was issued between them. -/
def Swapped (history : List ι) (first second : ι) : Prop :=
  read.key first ≠ none ∧ read.key second ≠ none ∧ read.key first ≠ read.key second ∧
    ∀ item ∈ history, read.lane item = read.lane first → read.key item = none →
      read.tick item ≤ read.tick first → read.tick item ≤ read.tick second

def Precedes (first second : ι) : Prop :=
  read.tick first = read.tick second ∧
    ∃ place behind, read.part first = some place ∧ read.part second = some behind ∧ place < behind

/-- Whether the first of two items may be delivered before the second. -/
def InOrder (history : List ι) (first second : ι) : Prop :=
  read.lane first ≠ none → read.lane first = read.lane second →
    read.tick first < read.tick second ∨ Precedes read first second ∨
      Swapped read history first second

variable {read} {history : List ι}

theorem InOrder.of_lt {first second : ι} (later : read.tick first < read.tick second) :
    InOrder read history first second :=
  fun _ _ => .inl later

theorem InOrder.grow {first second : ι} (ordered : InOrder read history first second)
    {more : List ι} (later : ∀ item ∈ more, read.tick first < read.tick item) :
    InOrder read (history ++ more) first second := by
  intro shown same
  rcases ordered shown same with before | batch | ⟨keyed, other, differ, between⟩
  · exact .inl before
  · exact .inr (.inl batch)
  · refine .inr (.inr ⟨keyed, other, differ, ?_⟩)
    intro item member
    rcases List.mem_append.mp member with old | new
    · exact between item old
    · intro _ _ early
      have after := later item new
      omega

theorem InOrder.irrefl {item : ι} (laned : read.lane item ≠ none) :
    ¬ InOrder read history item item := by
  intro ordered
  rcases ordered laned rfl with before | ⟨_, place, behind, own, other, less⟩ | swapped
  · exact Nat.lt_irrefl _ before
  · cases own.symm.trans other
    exact Nat.lt_irrefl _ less
  · exact swapped.2.2.1 rfl

section queue

variable {front back : List ι} {new : ι}

theorem pairwise_grow {items more : List ι} (ordered : items.Pairwise (InOrder read history))
    (later : ∀ item ∈ more, ∀ old ∈ items, read.tick old < read.tick item) :
    items.Pairwise (InOrder read (history ++ more)) := by
  apply ordered.imp_of_mem
  intro first second member _ inOrder
  exact inOrder.grow fun item issued => later item issued first member

/-- A new batch may go anywhere behind which nothing of its lane stands. -/
theorem pairwise_batch {batch : List ι} (ordered : (front ++ back).Pairwise (InOrder read history))
    (within : batch.Pairwise (InOrder read history))
    (newest : ∀ item ∈ batch, ∀ old ∈ front, read.tick old < read.tick item)
    (apart : ∀ item ∈ batch, ∀ later ∈ back,
      read.lane item = read.lane later → read.lane item = none) :
    (front ++ (batch ++ back)).Pairwise (InOrder read history) := by
  rw [List.pairwise_append] at ordered ⊢
  rcases ordered with ⟨fronts, backs, across⟩
  refine ⟨fronts, List.pairwise_append.mpr ⟨within, backs, ?_⟩, ?_⟩
  · exact fun item own later member shown same => absurd (apart item own later member same) shown
  · intro old member item place
    rcases List.mem_append.mp place with own | later
    · exact .of_lt (newest item own old member)
    · exact across old member item later

/-- The newest item may go anywhere behind which nothing of its lane stands. -/
theorem pairwise_insert (ordered : (front ++ back).Pairwise (InOrder read history))
    (newest : ∀ old ∈ front, read.tick old < read.tick new)
    (apart : ∀ later ∈ back, read.lane new = read.lane later → read.lane new = none) :
    (front ++ new :: back).Pairwise (InOrder read history) := by
  apply @pairwise_batch _ _ _ read history front back [new] ordered (List.pairwise_singleton _ _)
  · intro item own
    rw [List.mem_singleton.mp own]
    exact newest
  · intro item own
    rw [List.mem_singleton.mp own]
    exact apart

theorem pairwise_unlaned (ordered : (front ++ back).Pairwise (InOrder read history))
    (unlaned : read.lane new = none) : (front ++ new :: back).Pairwise (InOrder read history) := by
  rw [List.pairwise_append] at ordered ⊢
  rcases ordered with ⟨fronts, backs, across⟩
  refine ⟨fronts, List.pairwise_cons.mpr ⟨?_, backs⟩, ?_⟩
  · exact fun _ _ shown => absurd unlaned shown
  · intro old member item place
    rcases List.mem_cons.mp place with rfl | later
    · exact fun shown same => absurd (same.trans unlaned) shown
    · exact across old member item later

theorem pairwise_push {items : List ι} (ordered : items.Pairwise (InOrder read history))
    (newest : ∀ old ∈ items, read.tick old < read.tick new) :
    (items ++ [new]).Pairwise (InOrder read history) := by
  have split : (items ++ []).Pairwise (InOrder read history) := by rwa [List.append_nil]
  exact pairwise_insert split newest fun _ none => absurd none List.not_mem_nil

/-- The next item of a batch may stand right behind one that is there, when what follows is of no
batch. -/
theorem pairwise_follow {item : ι}
    (ordered : (front ++ item :: back).Pairwise (InOrder read history))
    (unkeyed : read.key item = none) (lane : read.lane new = read.lane item)
    (precedes : Precedes read item new) (alone : ∀ later ∈ back, read.part later = none) :
    (front ++ item :: new :: back).Pairwise (InOrder read history) := by
  rcases precedes with ⟨tick, place, behind, own, next, less⟩
  rw [List.pairwise_append] at ordered ⊢
  rcases ordered with ⟨fronts, backs, across⟩
  rcases List.pairwise_cons.mp backs with ⟨after, rest⟩
  refine ⟨fronts, List.pairwise_cons.mpr ⟨?_, List.pairwise_cons.mpr ⟨?_, rest⟩⟩, ?_⟩
  · intro later member
    rcases List.mem_cons.mp member with rfl | member
    · exact fun _ _ => .inr (.inl ⟨tick, place, behind, own, next, less⟩)
    · exact after later member
  · intro later member shown same
    rw [← tick]
    rcases after later member (lane ▸ shown) (lane ▸ same) with before | batch | swapped
    · exact .inl before
    · rcases batch with ⟨_, _, _, _, some, _⟩
      rw [alone later member] at some
      cases some
    · exact absurd unkeyed swapped.1
  · intro old member other place'
    have present : item ∈ item :: back := List.mem_cons_self
    rcases List.mem_cons.mp place' with rfl | place'
    · exact across old member other present
    rcases List.mem_cons.mp place' with rfl | later
    · intro shown same
      rw [← tick]
      rcases across old member item present shown (same.trans lane) with before | batch | swapped
      · exact .inl before
      · rcases batch with ⟨together, early, middle, first, second, ahead⟩
        cases own.symm.trans second
        exact .inr (.inl ⟨together.trans tick, early, behind, first, next,
          Nat.lt_trans ahead less⟩)
      · exact absurd unkeyed swapped.2.1
    · exact across old member other (List.mem_cons_of_mem item later)

/-- The newest item may take the place of one with its key, when no ordered item of the lane came
after that one and no item behind it has the key. -/
theorem pairwise_replace {old : ι}
    (ordered : (front ++ old :: back).Pairwise (InOrder read history))
    (known : ∀ later ∈ back, read.lane later ≠ none → later ∈ history)
    (newest : ∀ item ∈ front ++ old :: back, read.tick item < read.tick new)
    (keyed : read.key new ≠ none) (same : read.key old = read.key new)
    (lane : read.lane old = read.lane new) (alone : read.part old = none)
    (unspanned : ∀ item ∈ history, read.lane item = read.lane old → read.key item = none →
      read.tick item ≤ read.tick old)
    (latest : ∀ later ∈ back, read.key later ≠ read.key new) :
    (front ++ new :: back).Pairwise (InOrder read history) := by
  rw [List.pairwise_append] at ordered ⊢
  rcases ordered with ⟨fronts, backs, across⟩
  rcases List.pairwise_cons.mp backs with ⟨behind, rest⟩
  refine ⟨fronts, List.pairwise_cons.mpr ⟨?_, rest⟩, ?_⟩
  · intro later member shown sameLane
    have inOrder := behind later member (lane ▸ shown) (lane.trans sameLane)
    have place := known later member (sameLane ▸ shown)
    -- Nothing ordered was issued after `old`, so what stands behind it carries a key.
    have otherKeyed : read.key later ≠ none := by
      intro ordered
      have early := unspanned later place (sameLane.symm.trans lane.symm) ordered
      rcases inOrder with before | ⟨_, _, _, batch, _⟩ | ⟨_, other, _⟩
      · omega
      · rw [alone] at batch
        cases batch
      · exact other ordered
    refine .inr (.inr ⟨keyed, otherKeyed, (latest later member).symm, ?_⟩)
    intro item member' itemLane itemOrdered _
    have early := unspanned item member' (itemLane.trans lane.symm) itemOrdered
    rcases inOrder with before | ⟨_, _, _, batch, _⟩ | ⟨_, _, _, between⟩
    · omega
    · rw [alone] at batch
      cases batch
    · exact between item member' (itemLane.trans lane.symm) itemOrdered early
  · intro item member other place
    rcases List.mem_cons.mp place with rfl | later
    · exact .of_lt (newest item (List.mem_append.mpr (.inl member)))
    · exact across item member other (List.mem_cons_of_mem old later)

theorem nodup_laned {items : List ι} (ordered : items.Pairwise (InOrder read history)) :
    (items.filter fun item => (read.lane item).isSome).Nodup := by
  apply (ordered.filter _).imp_of_mem
  intro first second member _ inOrder same
  subst same
  have laned := (List.mem_filter.mp member).2
  apply InOrder.irrefl _ inOrder
  intro unlaned
  rw [unlaned] at laned
  cases laned

end queue

section split

variable {α : Type u} {items : List α} {position : Nat} {item : α}

theorem split_at (present : items[position]? = some item) :
    items = items.take position ++ item :: items.drop (position + 1) := by
  rcases List.getElem?_eq_some_iff.mp present with ⟨inside, found⟩
  have rest := List.drop_eq_getElem_cons inside
  rw [found] at rest
  rw [← rest, List.take_append_drop]

theorem set_split_at (present : items[position]? = some item) (other : α) :
    items.set position other = items.take position ++ other :: items.drop (position + 1) := by
  rcases List.getElem?_eq_some_iff.mp present with ⟨inside, _⟩
  rw [List.set_eq_take_append_cons_drop, if_pos inside]

theorem behind_split (position : Nat) {later : α} (member : later ∈ items.drop (position + 1)) :
    ∃ place, position < place ∧ items[place]? = some later := by
  rcases List.mem_iff_getElem?.mp member with ⟨offset, found⟩
  rw [List.getElem?_drop] at found
  exact ⟨position + 1 + offset, by omega, found⟩

end split

end LaneOrder
