import Mathlib.Algebra.BigOperators.Group.List.Basic
import Mathlib.Algebra.GroupWithZero.Nat

/-!
A running total kept beside a list: it is the sum of the items' sizes, and within a limit.
-/

universe u

structure Budget {ι : Type u} (limit : Nat) (size : ι → Nat) (items : List ι) (total : Nat) :
    Prop where
  sum : total = (items.map size).sum
  within : total ≤ limit

namespace Budget

variable {ι : Type u} {limit total : Nat} {size : ι → Nat} {items front back : List ι} {item : ι}

theorem empty (limit : Nat) (size : ι → Nat) : Budget limit size [] 0 := ⟨rfl, Nat.zero_le _⟩

theorem congr {others : List ι} (budget : Budget limit size items total)
    (same : others.map size = items.map size) : Budget limit size others total :=
  ⟨by rw [same]; exact budget.sum, budget.within⟩

theorem size_le (budget : Budget limit size (front ++ item :: back) total) :
    size item ≤ total := by
  rw [budget.sum]
  simp only [List.map_append, List.map_cons, List.sum_append, List.sum_cons]
  omega

theorem size_le_of_mem (budget : Budget limit size items total) (member : item ∈ items) :
    size item ≤ total := by
  rcases List.append_of_mem member with ⟨front, back, rfl⟩
  exact budget.size_le

theorem remove (budget : Budget limit size (front ++ item :: back) total) :
    Budget limit size (front ++ back) (total - size item) := by
  have whole := budget.sum
  have within := budget.within
  simp only [List.map_append, List.map_cons, List.sum_append, List.sum_cons] at whole
  refine ⟨?_, by omega⟩
  simp only [List.map_append, List.sum_append]
  omega

theorem pop (budget : Budget limit size (item :: items) total) :
    Budget limit size items (total - size item) := by
  rw [← List.nil_append (item :: items)] at budget
  exact budget.remove

theorem insert (budget : Budget limit size (front ++ back) total)
    (fits : total + size item ≤ limit) :
    Budget limit size (front ++ item :: back) (total + size item) := by
  have whole := budget.sum
  simp only [List.map_append, List.sum_append] at whole
  refine ⟨?_, fits⟩
  simp only [List.map_append, List.map_cons, List.sum_append, List.sum_cons]
  omega

theorem push (budget : Budget limit size items total) (fits : total + size item ≤ limit) :
    Budget limit size (items ++ [item]) (total + size item) := by
  apply insert
  · rw [List.append_nil]
    exact budget
  · exact fits

/-- An item gives its place to another, which may be as large as the room it leaves. -/
theorem replace {new : ι} (budget : Budget limit size (front ++ item :: back) total)
    (fits : total - size item + size new ≤ limit) :
    Budget limit size (front ++ new :: back) (total - size item + size new) :=
  budget.remove.insert fits

end Budget
