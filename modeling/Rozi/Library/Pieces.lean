import Mathlib.Data.List.Basic

/-!
Lists of texts of which some may be cut into pieces. A piece is again a text that may be cut.
-/

universe u v

structure Pieces (α : Type u) (β : Type v) where
  divisible : α → Bool
  text : α → List β

namespace Pieces

variable {α : Type u} {β : Type v} {pieces : Pieces α β}

inductive Cut (pieces : Pieces α β) : List α → List α → Prop
  | nil : Cut pieces [] []
  | whole {before after : List α} (item : α) (rest : Cut pieces before after) :
      Cut pieces (item :: before) (item :: after)
  | parts {before after parts : List α} {item : α} (divisible : pieces.divisible item = true)
      (some : parts ≠ []) (same : ∀ part ∈ parts, pieces.divisible part = true)
      (text : parts.flatMap pieces.text = pieces.text item) (rest : Cut pieces before after) :
      Cut pieces (item :: before) (parts ++ after)

variable {before middle after first second : List α}

theorem Cut.refl (items : List α) : Cut pieces items items := by
  induction items with
  | nil => exact .nil
  | cons item rest ih => exact .whole item ih

theorem Cut.append (fronts : Cut pieces first second) (backs : Cut pieces before after) :
    Cut pieces (first ++ before) (second ++ after) := by
  induction fronts with
  | nil => exact backs
  | whole item _ ih => exact .whole item ih
  | parts divisible some same text _ ih =>
      rw [List.append_assoc]
      exact .parts divisible some same text ih

theorem Cut.of_append (cut : Cut pieces (before ++ middle) after) :
    ∃ front back, after = front ++ back ∧ Cut pieces before front ∧ Cut pieces middle back := by
  induction before generalizing after with
  | nil => exact ⟨[], after, rfl, .nil, cut⟩
  | cons item before ih =>
      cases cut with
      | whole _ rest =>
          rcases ih rest with ⟨front, back, rfl, fronts, backs⟩
          exact ⟨item :: front, back, rfl, .whole item fronts, backs⟩
      | parts divisible some same text rest =>
          rcases ih rest with ⟨front, back, rfl, fronts, backs⟩
          exact ⟨_, back, (List.append_assoc _ _ _).symm, .parts divisible some same text fronts,
            backs⟩

theorem Cut.text (cut : Cut pieces before after) :
    after.flatMap pieces.text = before.flatMap pieces.text := by
  induction cut with
  | nil => rfl
  | whole item _ ih => rw [List.flatMap_cons, List.flatMap_cons, ih]
  | parts _ _ _ text _ ih => rw [List.flatMap_append, List.flatMap_cons, ih, text]

theorem Cut.ne_nil (cut : Cut pieces before after) (some : before ≠ []) : after ≠ [] := by
  cases cut with
  | nil => exact absurd rfl some
  | whole item _ => simp
  | parts _ more _ _ _ => simp [more]

theorem Cut.divisible (cut : Cut pieces before after)
    (all : ∀ item ∈ before, pieces.divisible item = true) :
    ∀ item ∈ after, pieces.divisible item = true := by
  induction cut with
  | nil => exact all
  | whole item _ ih =>
      rw [List.forall_mem_cons] at all ⊢
      exact ⟨all.1, ih all.2⟩
  | parts _ _ same _ _ ih =>
      rw [List.forall_mem_cons] at all
      rw [List.forall_mem_append]
      exact ⟨same, ih all.2⟩

theorem Cut.trans (first : Cut pieces before middle) (second : Cut pieces middle after) :
    Cut pieces before after := by
  induction first generalizing after with
  | nil => exact second
  | whole item _ ih =>
      cases second with
      | whole _ rest => exact .whole item (ih rest)
      | parts divisible some same text rest => exact .parts divisible some same text (ih rest)
  | parts divisible some same text _ ih =>
      rcases second.of_append with ⟨front, back, rfl, fronts, backs⟩
      exact .parts divisible (fronts.ne_nil some) (fronts.divisible same) (fronts.text.trans text)
        (ih backs)

end Pieces
