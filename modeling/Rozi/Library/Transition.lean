import Mathlib.Logic.Basic

/-!
Labelled transition systems and the states their runs reach. A run may be required to make only
steps that meet a condition on the state they start from.
-/

universe u v w

structure Transition (σ : Type u) (α : Type v) where
  initial : σ → Prop
  step : σ → α → σ → Prop

namespace Transition

variable {σ : Type u} {α : Type v} (system : Transition σ α)

inductive ReachableWhen (allowed : σ → α → Prop) : σ → Prop
  | initial {state : σ} (begins : system.initial state) : ReachableWhen allowed state
  | step {state next : σ} {label : α} (reached : ReachableWhen allowed state)
      (met : allowed state label) (moved : system.step state label next) :
      ReachableWhen allowed next

def Reachable : σ → Prop := system.ReachableWhen fun _ _ => True

def startingAt (state : σ) : Transition σ α := { system with initial := (· = state) }

/-- The last step of the run under `label` was made from a state with `past`. -/
def Since (label : α) (past : σ → Prop) (state : σ) : Prop :=
  ∃ before after, system.Reachable before ∧ past before ∧ system.step before label after ∧
    (system.startingAt after).ReachableWhen (fun _ other => other ≠ label) state

variable {system} {allowed : σ → α → Prop}

/-- The induction rule of runs: what holds initially and is kept by every step that meets the
condition holds in every state reached. -/
theorem ReachableWhen.invariant {inv : σ → Prop}
    (initially : ∀ state, system.initial state → inv state)
    (preserved : ∀ state label next, inv state → allowed state label →
      system.step state label next → inv next)
    {state : σ} (reached : system.ReachableWhen allowed state) : inv state := by
  induction reached with
  | initial begins => exact initially _ begins
  | step _ met moved ih => exact preserved _ _ _ ih met moved

theorem Reachable.invariant {inv : σ → Prop}
    (initially : ∀ state, system.initial state → inv state)
    (preserved : ∀ state label next, inv state → system.step state label next → inv next)
    {state : σ} (reached : system.Reachable state) : inv state :=
  ReachableWhen.invariant initially (fun _ _ _ kept _ moved => preserved _ _ _ kept moved) reached

theorem Reachable.begin {state : σ} (begins : system.initial state) : system.Reachable state :=
  ReachableWhen.initial begins

theorem ReachableWhen.next {state next : σ} (reached : system.ReachableWhen allowed state)
    (label : α) (met : allowed state label) (moved : system.step state label next) :
    system.ReachableWhen allowed next :=
  .step reached met moved

theorem Reachable.next {state next : σ} (reached : system.Reachable state) (label : α)
    (moved : system.step state label next) : system.Reachable next :=
  ReachableWhen.next reached label trivial moved

/-- Labels performed one after the other, where performing one of them is a step that is allowed. -/
theorem ReachableWhen.performed {perform : σ → α → Option σ} {labels : List α}
    (steps : ∀ state label next, label ∈ labels → perform state label = some next →
      allowed state label ∧ system.step state label next)
    {state last : σ} (reached : system.ReachableWhen allowed state)
    (all : labels.foldlM perform state = some last) : system.ReachableWhen allowed last := by
  induction labels generalizing state with
  | nil =>
      cases all
      exact reached
  | cons label labels ih =>
      rw [List.foldlM_cons] at all
      cases first : perform state label with
      | none =>
          rw [first] at all
          cases all
      | some next =>
          rw [first] at all
          rcases steps _ _ _ List.mem_cons_self first with ⟨met, moved⟩
          refine ih (fun state other next listed => ?_) (reached.next label met moved) all
          exact steps state other next (List.mem_cons_of_mem _ listed)

/-- Labels performed one after the other, where performing is stepping. -/
theorem Reachable.performed {perform : σ → α → Option σ}
    (steps : ∀ state label next, perform state label = some next → system.step state label next)
    {labels : List α} {state last : σ} (reached : system.Reachable state)
    (all : labels.foldlM perform state = some last) : system.Reachable last :=
  ReachableWhen.performed (fun _ _ _ _ first => ⟨trivial, steps _ _ _ first⟩) reached all

theorem ReachableWhen.mono {wider : σ → α → Prop}
    (weaker : ∀ state label, allowed state label → wider state label) {state : σ}
    (reached : system.ReachableWhen allowed state) : system.ReachableWhen wider state := by
  induction reached with
  | initial begins => exact .initial begins
  | step _ met moved ih => exact .step ih (weaker _ _ met) moved

theorem ReachableWhen.reachable {state : σ} (reached : system.ReachableWhen allowed state) :
    system.Reachable state :=
  reached.mono fun _ _ _ => trivial

theorem Since.now {label : α} {past : σ → Prop} {state next : σ} (reached : system.Reachable state)
    (holds : past state) (moved : system.step state label next) : system.Since label past next :=
  ⟨state, next, reached, holds, moved, .initial rfl⟩

theorem Since.next {label other : α} {past : σ → Prop} {state next : σ}
    (since : system.Since label past state) (differs : other ≠ label)
    (moved : system.step state other next) : system.Since label past next := by
  rcases since with ⟨before, after, reached, holds, made, later⟩
  exact ⟨before, after, reached, holds, made, later.next other differs moved⟩

end Transition
