import Mathlib.Data.List.Induction
import Mathlib.Data.List.Infix
import Mathlib.Data.List.Range

/-!
Histories whose entries are numbered from one, without a gap. A log that keeps only their end can
answer for exactly the numbers it still holds.
-/

universe u

namespace List

variable {α : Type u} {number : α → Nat} {history kept : List α} {entry oldest : α}

def Numbered (number : α → Nat) (history : List α) : Prop :=
  history.map number = List.range' 1 history.length

def window (number : α → Nat) (since upTo : Nat) (history : List α) : List α :=
  history.filter fun entry => decide (since < number entry) && decide (number entry ≤ upTo)

@[simp] theorem numbered_nil : Numbered number [] := rfl

theorem numbered_snoc :
    Numbered number (history ++ [entry]) ↔
      Numbered number history ∧ number entry = history.length + 1 := by
  unfold Numbered
  rw [List.map_append, List.length_append, List.map_singleton, List.length_singleton,
    List.range'_1_concat]
  constructor
  · intro same
    have parts := List.append_inj' same rfl
    have last : number entry = 1 + history.length := by simpa using parts.2
    exact ⟨parts.1, by omega⟩
  · rintro ⟨before, last⟩
    rw [before, last, Nat.add_comm]

theorem Numbered.le_length (numbered : Numbered number history) (member : entry ∈ history) :
    number entry ≤ history.length := by
  have found : number entry ∈ history.map number := List.mem_map_of_mem member
  rw [numbered, List.mem_range'_1] at found
  omega

theorem window_snoc_past {since upTo : Nat} (past : upTo < number entry) :
    window number since upTo (history ++ [entry]) = window number since upTo history := by
  unfold window
  rw [List.filter_append, List.filter_cons_of_neg, List.filter_nil, List.append_nil]
  simp only [Bool.and_eq_true, decide_eq_true_eq]
  omega

theorem window_snoc (numbered : Numbered number history) {since : Nat}
    (next : number entry = history.length + 1) (started : since ≤ history.length) :
    window number since (history.length + 1) (history ++ [entry]) =
      window number since history.length history ++ [entry] := by
  unfold window
  rw [List.filter_append, List.filter_cons_of_pos, List.filter_nil]
  · refine congrArg (· ++ [entry]) (List.filter_congr fun earlier member => ?_)
    have bound := numbered.le_length member
    simp only [bound, Nat.le_succ_of_le bound]
  · simp only [next, Bool.and_eq_true, decide_eq_true_eq]
    omega

/-- What comes after a number is what is left once that many entries are dropped. -/
theorem Numbered.window_eq_drop (numbered : Numbered number history) (since : Nat) :
    window number since history.length history = history.drop since := by
  induction history using List.reverseRecOn with
  | nil => rw [List.drop_nil]; rfl
  | append_singleton history entry ih =>
      rcases numbered_snoc.mp numbered with ⟨before, next⟩
      rw [List.length_append, List.length_singleton]
      by_cases started : since ≤ history.length
      · rw [window_snoc before next started, ih before, List.drop_append_of_le_length started]
      · rw [List.drop_eq_nil_of_le (by rw [List.length_append, List.length_singleton]; omega)]
        unfold window
        rw [List.filter_eq_nil_iff]
        intro other member
        have bound := numbered.le_length member
        rw [List.length_append, List.length_singleton] at bound
        simp only [Bool.and_eq_true, decide_eq_true_eq]
        omega

theorem Numbered.mem_drop (numbered : Numbered number history) {since : Nat} :
    entry ∈ history.drop since ↔ entry ∈ history ∧ since < number entry := by
  rw [← numbered.window_eq_drop since]
  unfold window
  rw [List.mem_filter, Bool.and_eq_true, decide_eq_true_eq, decide_eq_true_eq]
  constructor
  · rintro ⟨member, after, _⟩
    exact ⟨member, after⟩
  · rintro ⟨member, after⟩
    exact ⟨member, after, numbered.le_length member⟩

/-- The oldest of the entries that are kept says how many came before it. -/
theorem Numbered.first_kept (numbered : Numbered number history)
    (suffix : oldest :: kept <:+ history) :
    number oldest + kept.length = history.length := by
  rcases suffix with ⟨before, rfl⟩
  have same : (before ++ oldest :: kept).map number = _ := numbered
  have at_oldest := congrArg (fun numbers : List Nat => numbers[before.length]?) same
  simp only [List.map_append, List.map_cons, List.length_append, List.length_cons] at at_oldest
  rw [List.getElem?_append_right (by simp), List.length_map, Nat.sub_self,
    List.getElem?_range' (by omega)] at at_oldest
  simp only [List.getElem?_cons_zero, Option.some.injEq, List.length_append,
    List.length_cons] at at_oldest ⊢
  omega

theorem Numbered.first_kept_le (numbered : Numbered number history)
    (suffix : oldest :: kept <:+ history) (member : entry ∈ oldest :: kept) :
    number oldest ≤ number entry := by
  have first := numbered.first_kept suffix
  rcases suffix with ⟨before, rfl⟩
  rw [List.length_append, List.length_cons] at first
  have dropped : entry ∈ (before ++ oldest :: kept).drop before.length := by
    rw [List.drop_left]
    exact member
  have past := (numbered.mem_drop.mp dropped).2
  omega

/-- What is kept, less what comes before a number, is what the history has after it. -/
theorem Numbered.kept_after (numbered : Numbered number history)
    (suffix : oldest :: kept <:+ history) {since : Nat} (held : number oldest ≤ since + 1) :
    (oldest :: kept).drop (since + 1 - number oldest) = history.drop since := by
  have first := numbered.first_kept suffix
  rcases suffix with ⟨before, rfl⟩
  have length : before.length + 1 = number oldest := by
    rw [List.length_append, List.length_cons] at first
    omega
  have split : since = before.length + (since + 1 - number oldest) := by omega
  conv_rhs => rw [split, List.drop_append]
  simp

end List
