import Mathlib.Algebra.BigOperators.Group.List.Basic
import Mathlib.Algebra.Order.BigOperators.Group.List
import Mathlib.Algebra.Order.Ring.Int
import Mathlib.Data.List.Chain
import Mathlib.Tactic.Linarith
import Mathlib.Tactic.Ring

/-!
Segments laid along a line, a gap between each and the next, and two ways to cut a length into whole
sizes.
-/

namespace Segments

def lay (gap : Int) : Int → List Int → List (Int × Int)
  | _, [] => []
  | start, size :: rest => (start, size) :: lay gap (start + size + gap) rest

structure Tiles (start extent gap : Int) (segments : List (Int × Int)) : Prop where
  first : ∀ segment ∈ segments.head?, segment.1 = start
  apart : segments.IsChain fun segment next => next.1 = segment.1 + segment.2 + gap
  last : ∀ segment ∈ segments.getLast?, segment.1 + segment.2 = start + extent

section laid

variable (gap : Int)

theorem length_lay (start : Int) (sizes : List Int) : (lay gap start sizes).length = sizes.length := by
  induction sizes generalizing start with
  | nil => rfl
  | cons size rest ih => rw [lay, List.length_cons, ih, List.length_cons]

theorem sizes_lay (start : Int) (sizes : List Int) : (lay gap start sizes).map Prod.snd = sizes := by
  induction sizes generalizing start with
  | nil => rfl
  | cons size rest ih => rw [lay, List.map_cons, ih]

theorem size_lay (start : Int) (sizes : List Int) {index : Nat}
    (inside : index < (lay gap start sizes).length) :
    (lay gap start sizes)[index].2 = sizes.getD index 0 := by
  have same := congrArg (·[index]?) (sizes_lay gap start sizes)
  simp only [List.getElem?_map, List.getElem?_eq_getElem inside, Option.map_some] at same
  rw [List.getD_eq_getElem?_getD, ← same]
  rfl

/-- Segments laid elsewhere are the same segments, moved. -/
theorem lay_shift (start offset : Int) (sizes : List Int) :
    lay gap (start + offset) sizes =
      (lay gap start sizes).map fun segment => (segment.1 + offset, segment.2) := by
  induction sizes generalizing start with
  | nil => rfl
  | cons size rest ih =>
      have next : start + offset + size + gap = start + size + gap + offset := by ring
      rw [lay, next, ih]
      rfl

theorem head?_lay (start size : Int) (rest : List Int) :
    (lay gap start (size :: rest)).head? = some (start, size) := rfl

theorem isChain_lay (start : Int) (sizes : List Int) :
    (lay gap start sizes).IsChain fun segment next => next.1 = segment.1 + segment.2 + gap := by
  induction sizes generalizing start with
  | nil => exact .nil
  | cons size rest ih =>
      cases rest with
      | nil => exact .singleton _
      | cons next rest => exact .cons_cons rfl (ih _)

theorem getLast?_lay (start size : Int) (rest : List Int) :
    ∃ segment, (lay gap start (size :: rest)).getLast? = some segment ∧
      segment.1 + segment.2 = start + (size :: rest).sum + gap * rest.length := by
  induction rest generalizing start size with
  | nil => exact ⟨(start, size), rfl, by simp⟩
  | cons next rest ih =>
      rcases ih (start + size + gap) next with ⟨segment, last, finish⟩
      refine ⟨segment, ?_, ?_⟩
      · rw [lay, lay, List.getLast?_cons_cons]
        exact last
      · rw [finish]
        push_cast [List.sum_cons, List.length_cons]
        ring

theorem tiles_lay {start extent : Int} {sizes : List Int} {count : Nat}
    (length : sizes.length = count + 1) (whole : sizes.sum + gap * count = extent) :
    Tiles start extent gap (lay gap start sizes) := by
  cases sizes with
  | nil => cases length
  | cons size rest =>
      obtain rfl := Nat.succ.inj length
      refine ⟨fun segment head => ?_, isChain_lay gap start _, fun segment last => ?_⟩
      · rw [head?_lay, Option.mem_def, Option.some.injEq] at head
        rw [← head]
      · rcases getLast?_lay gap start size rest with ⟨known, found, finish⟩
        rw [found, Option.mem_def, Option.some.injEq] at last
        rw [← last, finish, ← whole]
        ring

/-- Segments that overlap by one at most do not leave the line they are laid along. -/
theorem lay_within {gap : Int} (overlap : -1 ≤ gap) {sizes : List Int}
    (positive : ∀ size ∈ sizes, 1 ≤ size) (start : Int) :
    ∀ segment ∈ lay gap start sizes,
      start ≤ segment.1 ∧
        segment.1 + segment.2 ≤ start + sizes.sum + gap * (sizes.length - 1 : Nat) := by
  induction sizes generalizing start with
  | nil => simp [lay]
  | cons size rest ih =>
      rcases List.forall_mem_cons.mp positive with ⟨here, later⟩
      have least : (rest.length : Int) ≤ rest.sum := by
        have sum := List.card_nsmul_le_sum rest (1 : Int) later
        simpa using sum
      have filled : 0 ≤ rest.sum + gap * rest.length := by
        have : (0 : Int) ≤ rest.length := Int.natCast_nonneg _
        nlinarith
      intro segment member
      rw [List.length_cons, Nat.add_sub_cancel, List.sum_cons]
      rcases List.mem_cons.mp member with rfl | below
      · exact ⟨le_rfl, by simp only; linarith⟩
      · cases rest with
        | nil => cases below
        | cons next rest =>
            rcases ih later (start + size + gap) segment below with ⟨low, high⟩
            rw [List.length_cons, Nat.add_sub_cancel] at high
            push_cast [List.length_cons]
            constructor <;> linarith

end laid

/-- A length in `count` equal sizes, the last one with what remains. -/
def evenSizes (base : Int) : Nat → Int → List Int
  | 0, _ => []
  | 1, remaining => [remaining]
  | left + 2, remaining => base :: evenSizes base (left + 1) (remaining - base)

theorem length_evenSizes (base : Int) (count : Nat) (remaining : Int) :
    (evenSizes base count remaining).length = count := by
  induction count generalizing remaining with
  | zero => rfl
  | succ left ih =>
      cases left with
      | zero => rfl
      | succ left => rw [evenSizes, List.length_cons, ih]

theorem sum_evenSizes (base : Int) (left : Nat) (remaining : Int) :
    (evenSizes base (left + 1) remaining).sum = remaining := by
  induction left generalizing remaining with
  | zero => simp [evenSizes]
  | succ left ih => rw [evenSizes, List.sum_cons, ih, add_sub_cancel]

/-- A length in `count` sizes of which the first `extras` are one longer. -/
def balancedSizes (base : Int) : Nat → Nat → List Int
  | 0, _ => []
  | left + 1, extras => (base + if 0 < extras then 1 else 0) :: balancedSizes base left (extras - 1)

theorem length_balancedSizes (base : Int) (count extras : Nat) :
    (balancedSizes base count extras).length = count := by
  induction count generalizing extras with
  | zero => rfl
  | succ left ih => rw [balancedSizes, List.length_cons, ih]

theorem sum_balancedSizes (base : Int) {count extras : Nat} (within : extras ≤ count) :
    (balancedSizes base count extras).sum = base * count + extras := by
  induction count generalizing extras with
  | zero =>
      obtain rfl : extras = 0 := Nat.le_zero.mp within
      simp [balancedSizes]
  | succ left ih =>
      rw [balancedSizes, List.sum_cons, ih (by omega)]
      cases extras with
      | zero =>
          rw [if_neg (lt_irrefl 0)]
          push_cast
          ring
      | succ extras =>
          rw [if_pos (Nat.succ_pos extras), Nat.add_sub_cancel]
          push_cast
          ring

theorem mem_balancedSizes {base size : Int} {count extras : Nat}
    (member : size ∈ balancedSizes base count extras) : size = base ∨ size = base + 1 := by
  induction count generalizing extras with
  | zero => cases member
  | succ left ih =>
      rcases List.mem_cons.mp member with here | later
      · rw [here]
        split_ifs
        · exact .inr rfl
        · exact .inl (add_zero base)
      · exact ih later

end Segments
