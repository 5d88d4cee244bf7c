import Mathlib.Data.List.Basic

/-!
A list of keyed items as stretches of one key. A stretch keeps its key, so that one can be laid out
again where it stands.
-/

universe u v

structure Stretch (κ : Type u) (α : Type v) where
  key : κ
  items : List α
  deriving DecidableEq, Repr

namespace Stretch

variable {κ : Type u} {α : Type v}

def spread (stretches : List (Stretch κ α)) : List (κ × α) :=
  stretches.flatMap fun stretch => stretch.items.map (stretch.key, ·)

@[simp] theorem spread_nil : spread ([] : List (Stretch κ α)) = [] := rfl

@[simp] theorem spread_cons (stretch : Stretch κ α) (rest : List (Stretch κ α)) :
    spread (stretch :: rest) = stretch.items.map (stretch.key, ·) ++ spread rest := rfl

@[simp] theorem spread_append (front back : List (Stretch κ α)) :
    spread (front ++ back) = spread front ++ spread back := List.flatMap_append

inductive Maximal : List (Stretch κ α) → Prop
  | nil : Maximal []
  | single {stretch : Stretch κ α} (filled : stretch.items ≠ []) : Maximal [stretch]
  | cons {stretch next : Stretch κ α} {rest : List (Stretch κ α)} (filled : stretch.items ≠ [])
      (apart : stretch.key ≠ next.key) (maximal : Maximal (next :: rest)) :
      Maximal (stretch :: next :: rest)

theorem Maximal.exchange {stretch other : Stretch κ α} {rest : List (Stretch κ α)}
    (maximal : Maximal (stretch :: rest)) (same : other.key = stretch.key)
    (filled : other.items ≠ []) : Maximal (other :: rest) := by
  cases maximal with
  | single => exact .single filled
  | cons _ apart maximal => exact .cons filled (same ▸ apart) maximal

theorem Maximal.filled {stretches : List (Stretch κ α)} (maximal : Maximal stretches) :
    ∀ stretch ∈ stretches, stretch.items ≠ [] := by
  induction maximal with
  | nil => simp
  | single filled => simpa using filled
  | cons filled _ _ ih => exact List.forall_mem_cons.mpr ⟨filled, ih⟩

theorem Maximal.front {front : List (Stretch κ α)} {last : Stretch κ α}
    (maximal : Maximal (front ++ [last])) : Maximal front := by
  induction front with
  | nil => exact .nil
  | cons stretch rest ih =>
      cases rest with
      | nil =>
          cases maximal with
          | cons filled => exact .single filled
      | cons next rest =>
          cases maximal with
          | cons filled apart maximal => exact .cons filled apart (ih maximal)

theorem Maximal.exchange_last {front : List (Stretch κ α)} {last other : Stretch κ α}
    (maximal : Maximal (front ++ [last])) (same : other.key = last.key)
    (filled : other.items ≠ []) : Maximal (front ++ [other]) := by
  induction front with
  | nil => exact .single filled
  | cons stretch rest ih =>
      cases rest with
      | nil =>
          cases maximal with
          | cons first apart => exact .cons first (same ▸ apart) (.single filled)
      | cons next rest =>
          cases maximal with
          | cons first apart maximal => exact .cons first apart (ih maximal)

theorem Maximal.last_apart {front : List (Stretch κ α)} {before last : Stretch κ α}
    (maximal : Maximal (front ++ [before, last])) : before.key ≠ last.key := by
  induction front with
  | nil =>
      cases maximal with
      | cons _ apart => exact apart
  | cons stretch rest ih =>
      cases rest with
      | nil =>
          cases maximal with
          | cons _ _ maximal => exact ih maximal
      | cons next rest =>
          cases maximal with
          | cons _ _ maximal => exact ih maximal

theorem exists_maximal [DecidableEq κ] (items : List (κ × α)) :
    ∃ stretches, Maximal stretches ∧ spread stretches = items := by
  induction items with
  | nil => exact ⟨[], .nil, rfl⟩
  | cons item items ih =>
      rcases ih with ⟨stretches, maximal, rfl⟩
      rcases item with ⟨key, item⟩
      cases stretches with
      | nil => exact ⟨[⟨key, [item]⟩], .single (by simp), by simp⟩
      | cons next rest =>
          by_cases same : key = next.key
          · refine ⟨⟨key, item :: next.items⟩ :: rest, maximal.exchange same (by simp), ?_⟩
            simp [same]
          · exact ⟨⟨key, [item]⟩ :: next :: rest, .cons (by simp) same maximal, by simp⟩

end Stretch
