import Rozi.Pane.MarkerFilter
import Mathlib.Data.List.TakeWhile

/-!
What the log of a pane should hold: its output with every complete marker made bare. For which
streams the filter writes that, however they are cut into chunks.
-/

namespace Rozi.Pane

def isPlain (byte : UInt8) : Bool := byte ≠ 0x07 ∧ byte ≠ 0x1b

/-- The terminator of the complete marker that `stream` starts with, and what follows it. -/
def markerOf (stream : List UInt8) : Option (List UInt8 × List UInt8) :=
  if exeMarker <+: stream then
    let payload := stream.drop exeMarker.length
    let tail := payload.takeWhile isPlain
    if tail.length ≤ maxMarkerTail then
      (terminators.find? (· <+: payload.drop tail.length)).map fun terminator =>
        (terminator, payload.drop (tail.length + terminator.length))
    else none
  else none

theorem takeWhile_terminated {tail terminator : List UInt8} (plain : Plain tail)
    (ends : terminator ∈ terminators) (rest : List UInt8) :
    (tail ++ (terminator ++ rest)).takeWhile isPlain = tail := by
  rw [List.takeWhile_append_of_pos fun byte member => by simpa [isPlain] using plain byte member]
  simp only [terminators, List.mem_cons, List.not_mem_nil, or_false] at ends
  rcases ends with rfl | rfl <;> simp [isPlain]

theorem find_terminator {terminator : List UInt8} (ends : terminator ∈ terminators)
    (rest : List UInt8) :
    terminators.find? (· <+: terminator ++ rest) = some terminator := by
  simp only [terminators, List.mem_cons, List.not_mem_nil, or_false] at ends
  rcases ends with rfl | rfl
  · simp [terminators]
  · simp [terminators]

theorem markerOf_terminated {tail terminator : List UInt8} (plain : Plain tail)
    (ends : terminator ∈ terminators) (rest : List UInt8) :
    markerOf (exeMarker ++ (tail ++ (terminator ++ rest))) =
      if tail.length ≤ maxMarkerTail then some (terminator, rest) else none := by
  unfold markerOf
  rw [if_pos (List.prefix_append _ _), List.drop_left]
  simp only [takeWhile_terminated plain ends rest, List.drop_left,
    find_terminator ends rest, Option.map_some]
  rw [← List.append_assoc, ← List.length_append, List.drop_left]

/-- A marker is complete with a tail that is not too long, and a terminator. -/
theorem markerOf_eq_some {stream terminator rest : List UInt8} :
    markerOf stream = some (terminator, rest) ↔
      ∃ tail, stream = exeMarker ++ (tail ++ (terminator ++ rest)) ∧ Plain tail ∧
        tail.length ≤ maxMarkerTail ∧ terminator ∈ terminators := by
  constructor
  · intro found
    unfold markerOf at found
    split_ifs at found with starts
    rcases starts with ⟨payload, rfl⟩
    simp only [List.drop_left] at found
    rcases List.takeWhile_prefix (l := payload) isPlain with ⟨later, whole⟩
    have plain : Plain (payload.takeWhile isPlain) := by
      intro byte member
      simpa [isPlain] using List.mem_takeWhile_imp member
    generalize payload.takeWhile isPlain = tail at found whole plain
    subst whole
    simp only [List.drop_left] at found
    split_ifs at found with short
    rw [Option.map_eq_some_iff] at found
    rcases found with ⟨terminator', first, same⟩
    rw [Prod.mk.injEq] at same
    rcases same with ⟨rfl, rfl⟩
    have starts := List.find?_some first
    rw [decide_eq_true_eq] at starts
    rcases starts with ⟨rest, rfl⟩
    refine ⟨tail, ?_, plain, short, List.mem_of_find?_eq_some first⟩
    rw [← List.append_assoc tail, ← List.length_append, List.drop_left, List.append_assoc]
  · rintro ⟨tail, rfl, plain, short, ends⟩
    rw [markerOf_terminated plain ends, if_pos short]

theorem markerOf_shorter {stream terminator rest : List UInt8}
    (found : markerOf stream = some (terminator, rest)) :
    (bareCommandStart ++ (terminator ++ rest)).length < stream.length := by
  rcases markerOf_eq_some.mp found with ⟨tail, rfl, _⟩
  have less : bareCommandStart.length < exeMarker.length := by decide
  simp only [List.length_append]
  omega

/-- The stream with every complete marker made bare. -/
def stripped : List UInt8 → List UInt8
  | [] => []
  | first :: others =>
      match _found : markerOf (first :: others) with
      | some (terminator, rest) => bareCommandStart ++ (terminator ++ stripped rest)
      | none => first :: stripped others
  termination_by stream => stream.length
  decreasing_by
    · have shorter := markerOf_shorter _found
      simp only [List.length_append] at shorter
      omega
    · simp

/-! Stripping. -/

@[simp] theorem stripped_nil : stripped [] = [] := by
  rw [stripped]

theorem stripped_pass {first : UInt8} {others : List UInt8}
    (unmarked : markerOf (first :: others) = none) :
    stripped (first :: others) = first :: stripped others := by
  rw [stripped]
  split
  · rename_i found
    rw [unmarked] at found
    cases found
  · rfl

theorem stripped_marker {stream terminator rest : List UInt8}
    (found : markerOf stream = some (terminator, rest)) :
    stripped stream = bareCommandStart ++ (terminator ++ stripped rest) := by
  cases stream with
  | nil => cases found
  | cons first others =>
      rw [stripped]
      split
      · rename_i same
        rw [found] at same
        cases same
        rfl
      · rename_i missing
        rw [found] at missing
        cases missing

theorem markerOf_of_other {stream : List UInt8} (other : ¬ exeMarker <+: stream) :
    markerOf stream = none := by
  unfold markerOf
  rw [if_neg other]

theorem stripped_run {front rest : List UInt8} (plain : ∀ byte ∈ front, byte ≠ 0x1b) :
    stripped (front ++ rest) = front ++ stripped rest := by
  induction front with
  | nil => rfl
  | cons byte front ih =>
      have other := plain byte List.mem_cons_self
      rw [List.cons_append, stripped_pass (markerOf_of_other (MarkerFilter.apart_of_ne other).1),
        ih fun byte member => plain byte (List.mem_cons_of_mem _ member), List.cons_append]

theorem stripped_unmarked_marker {payload : List UInt8}
    (incomplete : markerOf (exeMarker ++ payload) = none) :
    stripped (exeMarker ++ payload) = exeMarker ++ stripped payload := by
  have first : exeMarker ++ payload = 0x1b :: (exeMarker.tail ++ payload) := rfl
  rw [first] at incomplete ⊢
  rw [stripped_pass incomplete, stripped_run (by decide +kernel)]
  rfl

def Unmarked (stream : List UInt8) : Prop := ∀ later, later <:+ stream → markerOf later = none

theorem Unmarked.suffix {stream later : List UInt8} (unmarked : Unmarked stream)
    (suffix : later <:+ stream) : Unmarked later := fun other inside =>
  unmarked other (inside.trans suffix)

theorem stripped_of_unmarked {stream : List UInt8} (unmarked : Unmarked stream) :
    stripped stream = stream := by
  induction stream with
  | nil => exact stripped_nil
  | cons first others ih =>
      rw [stripped_pass (unmarked _ List.suffix_rfl), ih (unmarked.suffix (List.suffix_cons _ _))]

theorem stripped_length_le (stream : List UInt8) : (stripped stream).length ≤ stream.length := by
  induction length : stream.length using Nat.strong_induction_on generalizing stream with
  | _ length' ih =>
      subst length
      cases stream with
      | nil => simp
      | cons first others =>
          cases found : markerOf (first :: others) with
          | none =>
              rw [stripped_pass found]
              have less := ih others.length (by simp) others rfl
              simp only [List.length_cons]
              omega
          | some marker =>
              have shorter := markerOf_shorter found
              have less := ih marker.2.length (by
                simp only [List.length_append] at shorter
                omega) marker.2 rfl
              rw [stripped_marker found]
              simp only [List.length_append] at shorter ⊢
              omega

theorem unmarked_of_stripped {stream : List UInt8} (same : stripped stream = stream) :
    Unmarked stream := by
  induction stream with
  | nil =>
      intro later suffix
      rw [List.suffix_nil.mp suffix]
      rfl
  | cons first others ih =>
      cases found : markerOf (first :: others) with
      | some marker =>
          have shorter := markerOf_shorter found
          have less := stripped_length_le marker.2
          have length := congrArg List.length same
          rw [stripped_marker found] at length
          simp only [List.length_append] at shorter length
          omega
      | none =>
          rw [stripped_pass found, List.cons.injEq] at same
          intro later suffix
          rcases List.suffix_cons_iff.mp suffix with rfl | inside
          · exact found
          · exact ih same.2 later inside

end Rozi.Pane
