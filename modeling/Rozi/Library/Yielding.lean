import Mathlib.Data.List.Basic

/-!
A sequence that grows at its end and may give up an element for a newer one. Only elements of one
kind are given up, and only where nothing of another kind follows directly.
-/

universe u

namespace Yielding

variable {α : Type u} {droppable : α → Bool}

/-- `before` becomes `after`: `added` is appended, and `lost` is given up for the first of it. -/
inductive Grows (droppable : α → Bool) (before : List α) :
    List α → List α → List α → Prop
  | keep (added : List α) : Grows droppable before [] added (before ++ added)
  | give {front back rest : List α} {victim first : α} (whole : before = front ++ victim :: back)
      (given : droppable victim = true) (followed : ∀ next ∈ back.head?, droppable next = true)
      (newer : droppable first = true) :
      Grows droppable before [victim] (first :: rest) (front ++ back ++ first :: rest)

variable {before after lost added accepted : List α}

theorem Grows.sublist (grows : Grows droppable before lost added after) :
    after.Sublist (before ++ added) := by
  cases grows with
  | keep added => exact List.Sublist.refl _
  | give whole given followed newer =>
      rw [whole]
      apply List.Sublist.append_right
      exact (List.Sublist.refl _).append (List.sublist_cons_self _ _)

theorem Grows.perm (grows : Grows droppable before lost added after) :
    (after ++ lost).Perm (before ++ added) := by
  cases grows with
  | keep added => simp
  | @give front back rest victim first whole given followed newer =>
      rw [whole]
      calc
        _ = front ++ (back ++ (first :: rest) ++ [victim]) := by simp
        List.Perm _ (front ++ (victim :: (back ++ (first :: rest)))) :=
          (List.perm_append_singleton _ _).append_left front
        _ = front ++ victim :: back ++ (first :: rest) := by simp

theorem Grows.eq_append (grows : Grows droppable before [] added after) :
    after = before ++ added := by
  cases grows with
  | keep added => rfl

/-- What may not be given up stays, together with what stands directly in front of it. -/
theorem Grows.adjacent (grows : Grows droppable before lost added after) {front back : List α}
    {first second : α} (pair : before = front ++ first :: second :: back)
    (firm : droppable second = false) :
    ∃ front' back', after = front' ++ first :: second :: back' ∧ front'.Sublist front := by
  cases grows with
  | keep added => exact ⟨front, back ++ added, by rw [pair]; simp, List.Sublist.refl _⟩
  | @give left right rest victim newest whole given followed newer =>
      rw [whole] at pair
      rcases List.append_eq_append_iff.mp pair with ⟨gap, fronts, backs⟩ | ⟨gap, fronts, backs⟩
      · -- the victim stands before the pair, or is its first element
        cases gap with
        | nil =>
            rw [List.nil_append, List.cons.injEq] at backs
            rw [backs.2, List.head?_cons] at followed
            rw [followed second rfl] at firm
            cases firm
        | cons head gap =>
            rw [List.cons_append, List.cons.injEq] at backs
            refine ⟨left ++ gap, back ++ newest :: rest, by rw [backs.2]; simp, ?_⟩
            rw [fronts]
            exact (List.Sublist.refl _).append (List.sublist_cons_self _ _)
      · -- it stands behind the first element of the pair
        cases gap with
        | nil =>
            rw [List.nil_append, List.cons.injEq] at backs
            rw [← backs.2, List.head?_cons] at followed
            rw [followed second rfl] at firm
            cases firm
        | cons head gap =>
            rw [List.cons_append, List.cons.injEq] at backs
            cases gap with
            | nil =>
                rw [List.nil_append, List.cons.injEq] at backs
                rw [backs.2.1, given] at firm
                cases firm
            | cons next gap =>
                rw [List.cons_append, List.cons.injEq] at backs
                refine ⟨front, gap ++ right ++ newest :: rest, ?_, List.Sublist.refl _⟩
                rw [fronts, ← backs.1, ← backs.2.1]
                simp

def Superseded (droppable : α → Bool) (accepted left lost : List α) : Prop :=
  ∀ victim ∈ lost, droppable victim = true ∧
    ∃ later ∈ left, droppable later = true ∧ [victim, later].Sublist accepted

/-- What has been accepted is left or was given up for something newer, and what is left keeps its
order. -/
structure Accounted (droppable : α → Bool) (accepted left lost : List α) : Prop where
  order : left.Sublist accepted
  total : (left ++ lost).Perm accepted
  superseded : Superseded droppable accepted left lost

theorem Accounted.nil : Accounted droppable ([] : List α) [] [] where
  order := List.Sublist.refl _
  total := List.Perm.refl _
  superseded := fun _ none => absurd none List.not_mem_nil

theorem Accounted.grow {left given : List α} (accounted : Accounted droppable accepted left given)
    (grows : Grows droppable left lost added after) :
    Accounted droppable (accepted ++ added) after (given ++ lost) := by
  refine ⟨grows.sublist.trans (accounted.order.append (List.Sublist.refl _)), ?_, ?_⟩
  · calc
      _ = after ++ (given ++ lost) := rfl
      List.Perm _ (after ++ (lost ++ given)) := (List.perm_append_comm).append_left after
      List.Perm _ (left ++ added ++ given) := by
        rw [← List.append_assoc]
        exact grows.perm.append_right given
      List.Perm _ (left ++ given ++ added) := by
        rw [List.append_assoc, List.append_assoc]
        exact (List.perm_append_comm).append_left left
      List.Perm _ (accepted ++ added) := accounted.total.append_right added
  · cases grows with
    | keep =>
        rw [List.append_nil]
        intro victim member
        rcases accounted.superseded victim member with ⟨kind, later, there, same, behind⟩
        exact ⟨kind, later, List.mem_append_left _ there, same,
          behind.trans (List.sublist_append_left _ _)⟩
    | @give front back rest victim first whole given' followed newer =>
        have last : first ∈ front ++ back ++ first :: rest := by simp
        have arrives : ∀ old ∈ accepted, [old, first].Sublist (accepted ++ first :: rest) := by
          intro old member
          exact (List.singleton_sublist.mpr member).append
            (List.singleton_sublist.mpr List.mem_cons_self)
        intro old member
        rcases List.mem_append.mp member with before | now
        · exact ⟨(accounted.superseded old before).1, first, last, newer,
            arrives old (accounted.total.mem_iff.mp (List.mem_append_right _ before))⟩
        · rw [List.mem_singleton.mp now]
          refine ⟨given', first, last, newer, arrives victim (accounted.order.subset ?_)⟩
          rw [whole]
          simp

end Yielding
