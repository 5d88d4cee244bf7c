import Mathlib.Data.List.Nodup

/-!
Loops that visit each of some keys once. A visit works on what belongs to its key and leaves what
belongs to the others alone, so that a loop is understood from one visit.
-/

universe u v w

section visits

variable {σ : Type u} {κ : Type v} {τ : Type w}
variable {visit : σ → κ → σ}

theorem foldl_visits_other (view : σ → κ → τ)
    (apart : ∀ state key other, other ≠ key → view (visit state key) other = view state other)
    {keys : List κ} {other : κ} (outside : other ∉ keys) (state : σ) :
    view (keys.foldl visit state) other = view state other := by
  induction keys generalizing state with
  | nil => rfl
  | cons key keys ih =>
      rw [List.mem_cons, not_or] at outside
      rw [List.foldl_cons, ih outside.2, apart state key other outside.1]

/-- The rule of such a loop: what one visit establishes for its key holds of every key after it. -/
theorem foldl_visits (view : σ → κ → τ) (before : κ → τ → Prop) {after : κ → τ → Prop}
    (apart : ∀ state key other, other ≠ key → view (visit state key) other = view state other)
    (visited : ∀ state key, before key (view state key) → after key (view (visit state key) key))
    {keys : List κ} (once : keys.Nodup) (state : σ)
    (ready : ∀ key ∈ keys, before key (view state key)) :
    ∀ key ∈ keys, after key (view (keys.foldl visit state) key) := by
  induction keys generalizing state with
  | nil =>
      intro key member
      cases member
  | cons first keys ih =>
      rcases List.nodup_cons.mp once with ⟨fresh, once⟩
      intro key member
      rw [List.foldl_cons]
      rcases List.mem_cons.mp member with same | later
      · rw [same, foldl_visits_other view apart fresh]
        exact visited state first (ready first List.mem_cons_self)
      · refine ih once _ (fun other within => ?_) key later
        have distinct : other ≠ first := fun same => fresh (same ▸ within)
        rw [apart state first other distinct]
        exact ready other (List.mem_cons_of_mem _ within)

theorem foldl_unchanged (frame : σ → τ)
    (same : ∀ state key, frame (visit state key) = frame state) (keys : List κ) (state : σ) :
    frame (keys.foldl visit state) = frame state := by
  induction keys generalizing state with
  | nil => rfl
  | cons key keys ih => rw [List.foldl_cons, ih, same]

end visits
