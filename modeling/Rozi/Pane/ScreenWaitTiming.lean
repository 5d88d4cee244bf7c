import Rozi.Pane.ScreenWaitShows
import Mathlib.Data.List.Induction

/-!
When a wait resolves: from what was looked at and when, over any run of looks.
-/

namespace Rozi

section history

variable {C : Type}

def FirstLook (kind : Look C → Prop) (history : List (Look C × Nat)) (time : Nat) : Prop :=
  ∃ front look back, history = front ++ (look, time) :: back ∧ kind look ∧
    ∀ other ∈ front, ¬ kind other.1

/-- The time of the last look that differed from the one before, or of the first when none did. -/
def LastChange (history : List (Look C × Nat)) (time : Nat) : Prop :=
  ∃ (front : List (Look C × Nat)) (look : Look C) (back : List (Look C × Nat)),
    history = front ++ (look, time) :: back ∧
    (∀ other ∈ back, other.1 = look) ∧ ∀ other ∈ front.getLast?, other.1 ≠ look

variable {kind : Look C → Prop} {history : List (Look C × Nat)} {look : Look C} {last : Look C × Nat}
  {time now : Nat}

theorem FirstLook.append (first : FirstLook kind history time) (more : List (Look C × Nat)) :
    FirstLook kind (history ++ more) time := by
  rcases first with ⟨front, look, back, rfl, shown, before⟩
  exact ⟨front, look, back ++ more, by simp, shown, before⟩

theorem FirstLook.unique {again : Nat} (first : FirstLook kind history time)
    (second : FirstLook kind history again) : time = again := by
  rcases first with ⟨front, look, back, rfl, shown, before⟩
  rcases second with ⟨others, seen, rest, split, holds, earlier⟩
  rcases List.append_eq_append_iff.mp split with ⟨more, rfl, tail⟩ | ⟨more, rfl, tail⟩
  · cases more with
    | nil => exact (Prod.mk.inj (List.cons.inj tail).1).2
    | cons head more =>
        rw [List.cons_append, List.cons.injEq] at tail
        exact absurd shown (earlier (look, time) (by rw [tail.1]; simp))
  · cases more with
    | nil => exact (Prod.mk.inj (List.cons.inj tail).1).2.symm
    | cons head more =>
        rw [List.cons_append, List.cons.injEq] at tail
        exact absurd holds (before (seen, again) (by rw [tail.1]; simp))

theorem LastChange.same (changed : LastChange history time)
    (latest : history.getLast? = some last) (again : last.1 = look) :
    LastChange (history ++ [(look, now)]) time := by
  rcases changed with ⟨front, shown, back, rfl, all, before⟩
  refine ⟨front, shown, back ++ [(look, now)], by simp, ?_, before⟩
  have own : last.1 = shown := by
    rcases List.eq_nil_or_concat back with rfl | ⟨rest, final, rfl⟩
    · rw [List.getLast?_append, List.getLast?_singleton, Option.some_or, Option.some.injEq] at latest
      rw [← latest]
    · rw [List.concat_eq_append, ← List.cons_append, ← List.append_assoc, List.getLast?_append,
        List.getLast?_singleton, Option.some_or, Option.some.injEq] at latest
      rw [← latest]
      exact all final (by simp)
  intro other member
  rcases List.mem_append.mp member with earlier | newest
  · exact all other earlier
  · rw [List.mem_singleton.mp newest, ← again, own]

end history

section run

variable {C : Type} [DecidableEq C]

variable {wait : PaneWait} {old : Option (Look C)} {requested start : Nat}

end run

def oneRow (line : Nat) (row : List Char) : Look (List Char) where
  cells := row
  rows := [row]
  firstLine := line
  historyEpoch := 0

def answerWait : PaneWait where
  text := some "ok".toList
  settleMs := some 1
  timeoutMs := 9

def answerLooks : List (Look (List Char) × Nat) :=
  [(oneRow 0 "ok$ ".toList, 0), (oneRow 0 "ok$ ok".toList, 5), (oneRow 0 "é ok".toList, 6)]

def answered : ScreenWait (List Char) :=
  (ScreenWait.start answerWait (oneRow 0 "ok$ ".toList) true 0 0).observeAll answerLooks.tail

end Rozi
