import Mathlib.Data.List.Nodup

/-!
Rules for programs that stop at their first failed check: what an `ok` result says about each
check that was made on the way, and what an error says about the check that failed.
-/

namespace Checks

variable {ε α β σ : Type}

def refuseIf (failed : Bool) (error : ε) : Except ε Unit :=
  if failed then .error error else .ok ()

@[simp] theorem bind_eq_ok (first : Except ε α) (next : α → Except ε β) (result : β) :
    (first >>= next) = .ok result ↔ ∃ value, first = .ok value ∧ next value = .ok result := by
  cases first with
  | error error => simp [bind, Except.bind]
  | ok value => simp [bind, Except.bind]

@[simp] theorem refuseIf_eq_ok (failed : Bool) (error : ε) (result : Unit) :
    refuseIf failed error = .ok result ↔ failed = false := by
  cases failed <;> simp [refuseIf]

theorem bind_eq_error (first : Except ε α) (next : α → Except ε β) (error : ε) :
    (first >>= next) = .error error ↔
      first = .error error ∨ ∃ value, first = .ok value ∧ next value = .error error := by
  cases first with
  | error other => simp [bind, Except.bind]
  | ok value => simp [bind, Except.bind]

theorem refuseIf_eq_error (failed : Bool) (reason error : ε) :
    refuseIf failed reason = .error error ↔ failed = true ∧ reason = error := by
  cases failed <;> simp [refuseIf]

@[simp] theorem pure_eq_ok (value result : α) :
    (pure value : Except ε α) = .ok result ↔ value = result := by
  simp [pure, Except.pure]

def scan (round : σ → α → Except ε σ) : σ → List α → Except ε σ
  | seen, [] => .ok seen
  | seen, item :: rest => do
      let seen ← round seen item
      scan round seen rest

/-- The rule of `scan`: a round that passes exactly when `Good seen item` holds and then carries
`step seen item` makes a loop that passes exactly when every item was good in its turn. -/
theorem scan_eq_ok (round : σ → α → Except ε σ) (step : σ → α → σ) (Good : σ → α → Prop)
    (rounds : ∀ seen item result,
      round seen item = .ok result ↔ Good seen item ∧ result = step seen item) :
    ∀ (items : List α) (seen result : σ), scan round seen items = .ok result ↔
      (∀ front item back, items = front ++ item :: back → Good (front.foldl step seen) item) ∧
        result = items.foldl step seen := by
  intro items
  induction items with
  | nil =>
      intro seen result
      simp [scan, eq_comm]
  | cons head rest ih =>
      intro seen result
      simp only [scan, bind_eq_ok, rounds, ih, List.foldl_cons]
      constructor
      · rintro ⟨_, ⟨good, rfl⟩, others, rfl⟩
        refine ⟨?_, rfl⟩
        intro front item back split
        cases front with
        | nil =>
            obtain ⟨same, _⟩ := List.cons.inj split
            exact same ▸ good
        | cons first front =>
            obtain ⟨same, tail⟩ := List.cons.inj split
            exact same ▸ others front item back tail
      · rintro ⟨all, rfl⟩
        refine ⟨step seen head, ⟨all [] head rest rfl, rfl⟩, ?_, rfl⟩
        intro front item back split
        exact all (head :: front) item back (by rw [split]; rfl)

theorem scan_eq_error {round : σ → α → Except ε σ} {step : σ → α → σ}
    (rounds : ∀ seen item result, round seen item = .ok result → result = step seen item)
    {items : List α} {seen : σ} {error : ε} (stopped : scan round seen items = .error error) :
    ∃ front item back, items = front ++ item :: back ∧
      round (front.foldl step seen) item = .error error := by
  induction items generalizing seen with
  | nil => cases stopped
  | cons head rest ih =>
      rw [scan, bind_eq_error] at stopped
      rcases stopped with here | ⟨carried, passed, later⟩
      · exact ⟨[], head, rest, rfl, here⟩
      · rcases ih later with ⟨front, item, back, split, refused⟩
        rw [rounds seen head carried passed] at refused
        exact ⟨head :: front, item, back, by rw [split]; rfl, refused⟩

section fresh

variable {κ : Type} (key : α → κ)

/-- Every item's key is new when its turn comes, after `seen` and the items before it. -/
def Fresh (seen : List κ) (items : List α) : Prop :=
  ∀ (front : List α) (item : α) (back : List α), items = front ++ item :: back → key item ∉ seen ++ front.map key

theorem fresh_cons (seen : List κ) (head : α) (rest : List α) :
    Fresh key seen (head :: rest) ↔ key head ∉ seen ∧ Fresh key (seen ++ [key head]) rest := by
  constructor
  · intro fresh
    refine ⟨by simpa using fresh [] head rest rfl, ?_⟩
    intro front item back split
    simpa using fresh (head :: front) item back (by rw [split]; rfl)
  · rintro ⟨new, others⟩ front item back split
    cases front with
    | nil =>
        obtain ⟨same, _⟩ := List.cons.inj split
        simpa [← same] using new
    | cons first front =>
        obtain ⟨same, tail⟩ := List.cons.inj split
        simpa [← same] using others front item back tail

theorem fresh_iff (seen : List κ) (items : List α) :
    Fresh key seen items ↔ (items.map key).Nodup ∧ ∀ item ∈ items, key item ∉ seen := by
  induction items generalizing seen with
  | nil => simp [Fresh]
  | cons head rest ih =>
      rw [fresh_cons, ih, List.map_cons, List.nodup_cons]
      constructor
      · rintro ⟨new, distinct, others⟩
        refine ⟨⟨?_, distinct⟩, ?_⟩
        · intro again
          obtain ⟨item, member, same⟩ := List.mem_map.mp again
          exact others item member (by simp [same])
        · intro item member
          rcases List.mem_cons.mp member with rfl | member
          · exact new
          · exact fun old => others item member (by simp [old])
      · rintro ⟨⟨new, distinct⟩, others⟩
        refine ⟨others head (by simp), distinct, ?_⟩
        intro item member
        have old := others item (by simp [member])
        have other : key item ≠ key head := fun same =>
          new (same ▸ List.mem_map.mpr ⟨item, member, rfl⟩)
        simp [old, other]

end fresh

end Checks
