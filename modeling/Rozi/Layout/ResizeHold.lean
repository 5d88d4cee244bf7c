import Rozi.Layout.Resize
import Rozi.Layout.DwindlePartition

/-!
Holding the dividers on either side of one that moves: the leaves that reach it grow or shrink with it,
and all others stay where they are.
-/

namespace Rozi

open SerializedTree F32

namespace Cells

variable (axis : SplitAxis) (delta : Int) (area : Cells)

def grown : Cells :=
  area.segment axis (area.start axis) (area.extent axis + delta)

def led : Cells :=
  area.segment axis (area.start axis - delta) (area.extent axis + delta)

@[simp] theorem grown_extent : (area.grown axis delta).extent axis = area.extent axis + delta := by
  cases axis <;> rfl

@[simp] theorem grown_start : (area.grown axis delta).start axis = area.start axis := by
  cases axis <;> rfl

@[simp] theorem led_extent : (area.led axis delta).extent axis = area.extent axis + delta := by
  cases axis <;> rfl

@[simp] theorem led_start : (area.led axis delta).start axis = area.start axis - delta := by
  cases axis <;> rfl

@[simp] theorem grown_zero : area.grown axis 0 = area := by
  cases axis <;> simp [grown, segment, start, extent]

@[simp] theorem led_zero : area.led axis 0 = area := by
  cases axis <;> simp [led, segment, start, extent]

variable {axis delta area} {ratio : F32} {gap : CellGap} {other : SplitAxis}

theorem divide_grown (across : other ≠ axis) :
    (area.grown axis delta).divide other ratio gap =
      ((area.divide other ratio gap).1.grown axis delta,
        (area.divide other ratio gap).2.grown axis delta) := by
  cases axis <;> cases other <;> first | rfl | exact absurd rfl across

theorem divide_led (across : other ≠ axis) :
    (area.led axis delta).divide other ratio gap =
      ((area.divide other ratio gap).1.led axis delta,
        (area.divide other ratio gap).2.led axis delta) := by
  cases axis <;> cases other <;> first | rfl | exact absurd rfl across

theorem divide_extent : (area.divide axis ratio gap).1.extent axis =
    firstShare (area.available axis gap) ratio := by
  cases axis <;> rfl

end Cells

namespace Arithmetic

open Cells

variable {gap : CellGap} {axis : SplitAxis} {area : Cells}

theorem usableAxisExtent_cells (extent : Int) :
    exact.usableAxisExtent (cells extent) axis gap.tileGap =
      cells (max (extent - usableGap (gap.forAxis axis) extent) 0) := by
  unfold usableAxisExtent
  simp only [CellGap.tileGap_forAxis, zero_eq_cells, usable_cells, sub_cells, max_cells]

theorem round_share (available : Int) (ratio : F32) :
    exact.round (exact.mul (cells available) (clampSplitRatio ratio)) =
      cells (firstShare available ratio) := by
  rw [clampSplitRatio_eq]
  rfl

theorem dividerBefore_cells {changed : Cells} {delta : Int} (ratio : F32)
    (grew : changed.extent axis = area.extent axis + delta) :
    exact.dividerBefore changed.rect gap.tileGap axis ratio (cells delta) =
      cells ((area.divide axis ratio gap).1.extent axis) := by
  unfold dividerBefore
  rw [rect_extent, sub_cells, grew, add_sub_cancel_right, usableAxisExtent_cells, round_share,
    divide_extent]
  rfl

theorem heldRatio_cells (held : Int) :
    exact.heldRatio area.rect gap.tileGap axis (cells held) =
      .finite (held / max (area.available axis gap : Rat) 1) := by
  unfold heldRatio
  rw [rect_extent, usableAxisExtent_cells, one_eq_cells, max_cells]
  have positive : ((max (max (area.extent axis - usableGap (gap.forAxis axis) (area.extent axis)) 0)
      1 : Int) : Rat) ≠ 0 := by
    have least : (1 : Int) ≤
      max (max (area.extent axis - usableGap (gap.forAxis axis) (area.extent axis)) 0) 1 :=
        le_max_right _ _
    exact_mod_cast (by omega : max (max (area.extent axis -
      usableGap (gap.forAxis axis) (area.extent axis)) 0) 1 ≠ 0)
  simp only [exact, cells, F32.div, if_neg positive]
  rw [Cells.available, Int.cast_max, Int.cast_one]

theorem clampSplitRatio_fixed {value : Rat} :
    clampSplitRatio (.finite value) = .finite value ↔ 1 / 5 ≤ value ∧ value ≤ 4 / 5 := by
  have low : minSplitRatio = 1 / 5 := by norm_num [minSplitRatio]
  have high : maxSplitRatio = 4 / 5 := by norm_num [maxSplitRatio]
  rw [clampSplitRatio, low, high, F32.finite.injEq]
  constructor
  · intro same
    constructor
    · rw [← same]
      exact le_max_left _ _
    · rw [← same]
      exact max_le (by norm_num) (min_le_right _ _)
  · rintro ⟨least, most⟩
    rw [min_eq_left most, max_eq_right least]

/-- A ratio made from a number of cells, and not clamped, puts the divider at that number. -/
theorem firstShare_held {available held : Int} (positive : 0 ≤ available)
    (fixed : clampSplitRatio (.finite (held / max (available : Rat) 1)) =
      .finite (held / max (available : Rat) 1)) :
    1 ≤ available ∧ firstShare available (.finite (held / max (available : Rat) 1)) = held := by
  rcases clampSplitRatio_fixed.mp fixed with ⟨least, most⟩
  have enough : 1 ≤ available := by
    by_contra none
    obtain rfl : available = 0 := by omega
    rw [Int.cast_zero, max_eq_right (by norm_num), div_one] at least most
    have above : 0 < held := by
      by_contra below
      have bound : (held : Rat) ≤ 0 := by exact_mod_cast not_lt.mp below
      linarith
    have below : held < 1 := by
      by_contra beyond
      have bound : (1 : Rat) ≤ held := by exact_mod_cast not_lt.mp beyond
      linarith
    omega
  refine ⟨enough, ?_⟩
  have one : (1 : Rat) ≤ available := by exact_mod_cast enough
  rw [max_eq_left one] at fixed ⊢
  have share : splitShare (.finite (held / (available : Rat))) = held / available := by
    have both := clampSplitRatio_eq (.finite (held / (available : Rat)))
    rw [fixed, F32.finite.injEq] at both
    exact both.symm
  rw [firstShare, share, mul_div_cancel₀ _ (by linarith), nearest_intCast]

end Arithmetic

end Rozi
