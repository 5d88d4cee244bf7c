import Mathlib.Data.List.Basic

/-!
Logs whose every entry is justified by the entries before it.
-/

universe u

/-- Each entry of the log follows entries that justify it. -/
def Justified {ε : Type u} (justifies : List ε → ε → Prop) (log : List ε) : Prop :=
  ∀ before event after, log = before ++ event :: after → justifies before event

namespace Justified

variable {ε : Type u} {justifies : List ε → ε → Prop} {log : List ε}

theorem nil : Justified justifies [] := by
  intro before event after split
  simp at split

theorem snoc (justified : Justified justifies log) {event : ε} (here : justifies log event) :
    Justified justifies (log ++ [event]) := by
  intro before other after split
  rcases List.eq_nil_or_concat after with rfl | ⟨rest, last, rfl⟩
  · rcases List.append_inj' split rfl with ⟨rfl, same⟩
    cases same
    exact here
  · have shifted : log ++ [event] = (before ++ other :: rest) ++ [last] := by
      rw [split]
      simp
    rcases List.append_inj' shifted rfl with ⟨whole, _⟩
    exact justified before other rest whole

theorem of_append {more : List ε} (justified : Justified justifies (log ++ more)) :
    Justified justifies log := by
  intro before event after split
  exact justified before event (after ++ more) (by simp [split])

/-- Each entry of the log follows entries that justify it, `front` coming before them all. -/
def After {ε : Type u} (justifies : List ε → ε → Prop) (front log : List ε) : Prop :=
  Justified (fun before event => justifies (front ++ before) event) log

theorem after_nil_iff : After justifies [] log ↔ Justified justifies log := Iff.rfl

/-- The first entry is justified by what came before, and the others with it before them. -/
theorem after_cons_iff {front rest : List ε} {event : ε} :
    After justifies front (event :: rest) ↔
      justifies front event ∧ After justifies (front ++ [event]) rest := by
  constructor
  · intro justified
    constructor
    · have here : justifies (front ++ []) event := justified [] event rest rfl
      rwa [List.append_nil] at here
    · intro before later after split
      have there : justifies (front ++ event :: before) later :=
        justified (event :: before) later after (by rw [split, List.cons_append])
      rwa [List.append_cons] at there
  · rintro ⟨here, rest⟩ before later after split
    cases before with
    | nil =>
        cases split
        rwa [List.append_nil]
    | cons first before =>
        cases split
        rw [List.append_cons]
        exact rest before later after rfl

end Justified
