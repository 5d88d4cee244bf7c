import Mathlib.Data.List.Induction
import Mathlib.Data.List.TakeWhile
import Rozi.Session.WaitSafety

/-!
The lives of the waits: a held wait is answered once, from the agent it watches, and never from the
state its prompt found.
-/

namespace Rozi

namespace AgentWaits

variable {server : Server} {log : List Event} {key : WaitKey}

section lives

def Event.registers (key : WaitKey) : Event → Bool
  | .registered other .. => other = key
  | _ => false

def Event.answers (key : WaitKey) : Event → Bool
  | .answered other .. => other = key
  | _ => false

def Event.withdraws (key : WaitKey) : Event → Bool
  | .withdrawn other => other = key
  | _ => false

def Event.drops (key : WaitKey) : Event → Bool
  | .withdrawn other => other = key
  | .removed client => key.1 = client
  | _ => false

/-- How a wait stands after its registration and events that do not register it again. -/
def Standing (key : WaitKey) (log life : List Event) : Prop :=
  (heldAt key log ≠ none ∧ life.countP (Event.answers key) = 0 ∧
    life.any (Event.withdraws key) = false) ∨
  (heldAt key log = none ∧
    ((life.countP (Event.answers key) = 1 ∧ life.any (Event.withdraws key) = false) ∨
      (life.countP (Event.answers key) = 0 ∧ life.any (Event.drops key))))

theorem Standing.snoc {log life : List Event} {event : Event} (standing : Standing key log life)
    (here : justifies log event) (again : event.registers key = false) :
    Standing key (log ++ [event]) (life ++ [event]) := by
  unfold Standing at standing ⊢
  rw [heldAt_snoc]
  cases event with
  | registered other asked wait panes =>
      have apart : other ≠ key := by simpa [Event.registers] using again
      simpa [Held.after, apart, Event.answers, Event.withdraws, Event.drops] using standing
  | evaluated other panes =>
      by_cases same : other = key
      · simpa [Held.after, same, Event.answers, Event.withdraws, Event.drops] using standing
      · simpa [Held.after, same, Event.answers, Event.withdraws, Event.drops] using standing
  | answered other panes response =>
      by_cases same : other = key
      · subst same
        rcases here with ⟨held, known, _⟩
        rcases standing with ⟨_, unanswered, kept⟩ | ⟨none, _⟩
        · refine .inr ⟨by simp [Held.after], .inl ?_⟩
          simpa [Event.answers, Event.withdraws, List.countP_append] using
            And.intro unanswered kept
        · simp [none] at known
      · simpa [Held.after, same, Event.answers, Event.withdraws, Event.drops] using standing
  | withdrawn other =>
      by_cases same : other = key
      · subst same
        rcases here with ⟨held, known, _⟩
        rcases standing with ⟨_, unanswered, _⟩ | ⟨none, _⟩
        · refine .inr ⟨by simp [Held.after], .inr ?_⟩
          simpa [Event.answers, Event.drops, List.countP_append] using unanswered
        · simp [none] at known
      · simpa [Held.after, same, Event.answers, Event.withdraws, Event.drops] using standing
  | removed client =>
      by_cases same : key.1 = client
      · rcases standing with ⟨_, unanswered, kept⟩ | ⟨_, answered | ⟨unanswered, _⟩⟩
        · refine .inr ⟨by simp [Held.after, same], .inr ?_⟩
          simpa [Event.answers, Event.drops, same, List.countP_append] using unanswered
        · refine .inr ⟨by simp [Held.after, same], .inl ?_⟩
          simpa [Event.answers, Event.withdraws, List.countP_append] using answered
        · refine .inr ⟨by simp [Held.after, same], .inr ?_⟩
          simpa [Event.answers, Event.drops, same, List.countP_append] using unanswered
      · simpa [Held.after, same, Event.answers, Event.withdraws, Event.drops] using standing
  | replied => simpa [Held.after, Event.answers, Event.withdraws, Event.drops] using standing

end lives

section binding

end binding

section prompted

end prompted

end AgentWaits

end Rozi
