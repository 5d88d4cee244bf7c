import Mathlib.Data.List.Forall2
import Mathlib.Data.List.Perm.Basic
import Mathlib.Tactic.SplitIfs

/-!
Lists that differ in one item. An update in place, at a position or of the first item that passes a
test, exchanges one item for another; what a list says about its items then changes by those two.
-/

def updateFirst {α : Type*} (test : α → Bool) (change : α → α) : List α → List α
  | [] => []
  | item :: rest =>
      if test item then change item :: rest else item :: updateFirst test change rest

/-- `after` is `before` with one `old` exchanged for `new`. -/
def Exchanged {α : Type*} (old new : α) (before after : List α) : Prop :=
  ∃ front back, before = front ++ old :: back ∧ after = front ++ new :: back

variable {α β : Type*} {old new : α} {before after : List α}

theorem exchanged_modify {items : List α} {position : Nat} {item : α} (change : α → α)
    (present : items[position]? = some item) :
    Exchanged item (change item) items (items.modify position change) := by
  induction items generalizing position with
  | nil => simp at present
  | cons head rest ih =>
      cases position with
      | zero =>
          cases present
          exact ⟨[], rest, rfl, rfl⟩
      | succ position =>
          rcases ih (by simpa using present) with ⟨front, back, split, changed⟩
          exact ⟨head :: front, back, by rw [split]; rfl, by simp [changed]⟩

theorem exchanged_updateFirst {test : α → Bool} {items : List α} {item : α} (change : α → α)
    (found : items.find? test = some item) :
    Exchanged item (change item) items (updateFirst test change items) := by
  induction items with
  | nil => cases found
  | cons head rest ih =>
      by_cases passes : test head = true
      · rw [List.find?_cons_of_pos passes] at found
        cases found
        exact ⟨[], rest, rfl, by simp [updateFirst, passes]⟩
      · rw [List.find?_cons_of_neg passes] at found
        rcases ih found with ⟨front, back, split, changed⟩
        exact ⟨head :: front, back, by rw [split]; rfl, by simp [updateFirst, passes, changed]⟩

theorem updateFirst_of_none {test : α → Bool} {items : List α} (change : α → α)
    (absent : items.find? test = none) : updateFirst test change items = items := by
  induction items with
  | nil => rfl
  | cons head rest ih =>
      rw [List.find?_cons] at absent
      cases passes : test head with
      | true => simp [passes] at absent
      | false =>
          simp only [passes] at absent
          simp [updateFirst, passes, ih absent]

theorem map_updateFirst (test : α → Bool) {change : α → α} {view : α → β}
    (same : ∀ item, view (change item) = view item) (items : List α) :
    (updateFirst test change items).map view = items.map view := by
  induction items with
  | nil => rfl
  | cons head rest ih => cases passes : test head <;> simp [updateFirst, passes, same, ih]

theorem perm_cons_eraseP {test : α → Bool} {items : List α} {item : α}
    (found : items.find? test = some item) : items.Perm (item :: items.eraseP test) := by
  induction items with
  | nil => cases found
  | cons head rest ih =>
      by_cases passes : test head = true
      · rw [List.find?_cons_of_pos passes] at found
        cases found
        rw [List.eraseP_cons_of_pos passes]
      · rw [List.find?_cons_of_neg passes] at found
        rw [List.eraseP_cons_of_neg passes]
        calc
          (head :: rest).Perm (head :: item :: rest.eraseP test) := (ih found).cons head
          _ |>.Perm (item :: head :: rest.eraseP test) := List.Perm.swap _ _ _

/-- Erasing the first item of a key loses exactly the item of that key, where keys are unique. -/
theorem mem_eraseP_key [BEq β] [LawfulBEq β] {key : α → β} {items : List α}
    (unique : (items.map key).Nodup) (target : β) (item : α) :
    item ∈ items.eraseP (fun item => key item == target) ↔ item ∈ items ∧ key item ≠ target := by
  induction items with
  | nil => simp
  | cons head rest ih =>
      rcases List.nodup_cons.mp unique with ⟨fresh, unique⟩
      by_cases here : key head = target
      · have others : ∀ other ∈ rest, key other ≠ target := by
          intro other member same
          exact fresh (List.mem_map.mpr ⟨other, member, by rw [same, here]⟩)
        rw [List.eraseP_cons_of_pos (by simpa using here)]
        constructor
        · exact fun member => ⟨List.mem_cons_of_mem _ member, others item member⟩
        · rintro ⟨member, other⟩
          rcases List.mem_cons.mp member with same | member
          · exact absurd (same ▸ here) other
          · exact member
      · rw [List.eraseP_cons_of_neg (by simpa using here), List.mem_cons, ih unique,
          List.mem_cons]
        constructor
        · rintro (same | ⟨member, other⟩)
          · exact ⟨.inl same, same ▸ here⟩
          · exact ⟨.inr member, other⟩
        · rintro ⟨same | member, other⟩
          · exact .inl same
          · exact .inr ⟨member, other⟩

/-- What an update of the first item that passes leaves: the items as they were, and the one it
changed. -/
theorem mem_updateFirst {test : α → Bool} {change : α → α} {items : List α} {item : α}
    (member : item ∈ updateFirst test change items) :
    item ∈ items ∨ ∃ old ∈ items, test old = true ∧ item = change old := by
  cases found : items.find? test with
  | none =>
      rw [updateFirst_of_none change found] at member
      exact .inl member
  | some old =>
      rcases exchanged_updateFirst change found with ⟨front, back, split, changed⟩
      rw [changed] at member
      rcases List.mem_append.mp member with before | rest
      · exact .inl (by simp [split, before])
      · rcases List.mem_cons.mp rest with rfl | behind
        · exact .inr ⟨old, List.mem_of_find?_eq_some found, List.find?_some found, rfl⟩
        · exact .inl (by simp [split, behind])

theorem countP_updateFirst_le (test : α → Bool) {change : α → α} {counted : α → Bool}
    (fewer : ∀ item, counted (change item) = true → counted item = true) (items : List α) :
    (updateFirst test change items).countP counted ≤ items.countP counted := by
  induction items with
  | nil => exact Nat.le_refl _
  | cons head rest ih =>
      cases passes : test head with
      | false =>
          simp only [updateFirst, passes, Bool.false_eq_true, if_false, List.countP_cons]
          omega
      | true =>
          have less := fewer head
          simp only [updateFirst, passes, if_true, List.countP_cons]
          split_ifs with after before
          · exact Nat.le_refl _
          · exact absurd (less after) before
          · exact Nat.le_succ _
          · exact Nat.le_refl _

namespace Exchanged

theorem forall₂ {related : α → α → Prop} (exchange : Exchanged old new before after)
    (refl : ∀ item ∈ before, related item item) (here : related old new) :
    List.Forall₂ related before after := by
  rcases exchange with ⟨front, back, rfl, rfl⟩
  apply List.rel_append
  · exact List.forall₂_same.mpr fun item member => refl item (by simp [member])
  · refine .cons here (List.forall₂_same.mpr fun item member => refl item (by simp [member]))

theorem mem_before (exchange : Exchanged old new before after) : old ∈ before := by
  rcases exchange with ⟨front, back, rfl, rfl⟩
  simp

theorem mem_after (exchange : Exchanged old new before after) {item : α} (member : item ∈ after) :
    item = new ∨ item ∈ before := by
  rcases exchange with ⟨front, back, rfl, rfl⟩
  simp only [List.mem_append, List.mem_cons] at member ⊢
  tauto

theorem map (exchange : Exchanged old new before after) {view : α → β}
    (same : view new = view old) : after.map view = before.map view := by
  rcases exchange with ⟨front, back, rfl, rfl⟩
  simp [same]

theorem flatMap (exchange : Exchanged old new before after) (view : α → List β) :
    (after.flatMap view ++ view old).Perm (before.flatMap view ++ view new) := by
  rcases exchange with ⟨front, back, rfl, rfl⟩
  simp only [List.flatMap_append, List.flatMap_cons, List.append_assoc]
  apply List.Perm.append_left
  calc
    (view new ++ (back.flatMap view ++ view old)).Perm
        (view new ++ (view old ++ back.flatMap view)) := List.perm_append_comm.append_left _
    _ |>.Perm ((view old ++ back.flatMap view) ++ view new) := List.perm_append_comm
    _ = view old ++ (back.flatMap view ++ view new) := List.append_assoc _ _ _

theorem flatMap_perm (exchange : Exchanged old new before after) {view : α → List β}
    (same : (view new).Perm (view old)) : (after.flatMap view).Perm (before.flatMap view) := by
  have both := exchange.flatMap view
  have settled := both.trans (same.append_left (before.flatMap view))
  exact (List.perm_append_right_iff _).mp settled

end Exchanged
