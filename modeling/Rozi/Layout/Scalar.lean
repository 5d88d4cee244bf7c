import Mathlib.Data.Rat.Defs
import Mathlib.Algebra.Order.Ring.Rat
import Mathlib.Tactic.Linarith
import Mathlib.Tactic.NormNum

namespace Rozi

/-- An `f32` seen through the tests the layout code makes on it. Finite values are exact: rounding
is not modelled, the three values that are not finite are. -/
inductive F32 where
  | finite (value : Rat)
  | posInfinity
  | negInfinity
  | nan
  deriving DecidableEq, Repr

namespace F32

def isFinite : F32 → Bool
  | finite _ => true
  | _ => false

def le : F32 → F32 → Bool
  | nan, _ | _, nan => false
  | negInfinity, _ | _, posInfinity => true
  | posInfinity, _ | _, negInfinity => false
  | finite a, finite b => decide (a ≤ b)

def oneMinus : F32 → F32
  | finite a => finite (1 - a)
  | posInfinity => negInfinity
  | negInfinity => posInfinity
  | nan => nan

def Proper (ratio : F32) : Prop := ∃ value : Rat, ratio = finite value ∧ 0 < value ∧ value < 1

def Positive (size : F32) : Prop := ∃ value : Rat, size = finite value ∧ 0 < value

theorem le_finite (a b : Rat) : le (finite a) (finite b) = decide (a ≤ b) := rfl

theorem not_proper_iff (ratio : F32) :
    (!ratio.isFinite || ratio.le (finite 0) || (finite 1).le ratio) = true ↔ ¬ ratio.Proper := by
  cases ratio with
  | finite value =>
      simp only [isFinite, Bool.not_true, Bool.false_or, le_finite, Bool.or_eq_true,
        decide_eq_true_eq, Proper, finite.injEq, exists_eq_left', not_and_or, not_lt]
  | posInfinity => simp [isFinite, Proper]
  | negInfinity => simp [isFinite, Proper]
  | nan => simp [isFinite, Proper]

theorem not_positive_iff (size : F32) :
    (!size.isFinite || size.le (finite 0)) = true ↔ ¬ size.Positive := by
  cases size with
  | finite value =>
      simp only [isFinite, Bool.not_true, Bool.false_or, le_finite, decide_eq_true_eq, Positive,
        finite.injEq, exists_eq_left', not_lt]
  | posInfinity => simp [isFinite, Positive]
  | negInfinity => simp [isFinite, Positive]
  | nan => simp [isFinite, Positive]

end F32

def defaultRatio : F32 := .finite (58 / 100)

def minSplitRatio : Rat := 20 / 100

def maxSplitRatio : Rat := 80 / 100

def defaultScrollableWidth : F32 := .finite (45 / 100)

def clampSplitRatio : F32 → F32
  | .finite value => .finite (max minSplitRatio (min value maxSplitRatio))
  | _ => defaultRatio

def ratioAt (ratios : List F32) (index : Nat) : F32 :=
  match ratios[index]? with
  | some ratio => clampSplitRatio ratio
  | none => defaultRatio

theorem defaultRatio_proper : defaultRatio.Proper :=
  ⟨58 / 100, rfl, by norm_num, by norm_num⟩

theorem defaultScrollableWidth_positive : defaultScrollableWidth.Positive :=
  ⟨45 / 100, rfl, by norm_num⟩

theorem clampSplitRatio_proper (ratio : F32) : (clampSplitRatio ratio).Proper := by
  cases ratio with
  | finite value =>
      refine ⟨_, rfl, ?_, ?_⟩
      · exact lt_max_of_lt_left (by norm_num [minSplitRatio])
      · refine max_lt (by norm_num [minSplitRatio]) (min_lt_of_right_lt ?_)
        norm_num [maxSplitRatio]
  | posInfinity => exact defaultRatio_proper
  | negInfinity => exact defaultRatio_proper
  | nan => exact defaultRatio_proper

theorem ratioAt_proper (ratios : List F32) (index : Nat) : (ratioAt ratios index).Proper := by
  unfold ratioAt
  cases ratios[index]? with
  | some ratio => exact clampSplitRatio_proper ratio
  | none => exact defaultRatio_proper

end Rozi
