import Rozi.Layout.Allocate

/-!
Whole cells: what the exact arithmetic makes of rectangles and gaps that are whole numbers of cells.
-/

namespace Rozi

namespace F32

def cells (n : Int) : F32 := finite n

theorem cells_inj {a b : Int} : cells a = cells b ↔ a = b := by
  simp only [cells, finite.injEq, Int.cast_inj]

theorem zero_eq_cells : zero = cells 0 := rfl

theorem one_eq_cells : one = cells 1 := rfl

theorem lt_cells (a b : Int) : lt (cells a) (cells b) = decide (a < b) := by
  simp only [cells, lt_finite, Int.cast_lt]

theorem le_cells (a b : Int) : le (cells a) (cells b) = decide (a ≤ b) := by
  simp only [cells, le_finite, Int.cast_le]

theorem max_cells (a b : Int) : (cells a).max (cells b) = cells (Max.max a b) := by
  simp only [cells, max_finite, Int.cast_max]

theorem min_cells (a b : Int) : (cells a).min (cells b) = cells (Min.min a b) := by
  simp only [cells, min_finite, Int.cast_min]

theorem clamp_cells (value : Int) {low high : Int} (ordered : low ≤ high) :
    (cells value).clamp (cells low) (cells high) =
      cells (Max.max low (Min.min value high)) := by
  simp only [cells]
  rw [clamp_finite _ (by exact_mod_cast ordered)]
  push_cast
  rfl

end F32

open F32

namespace Arithmetic

theorem add_cells (a b : Int) : exact.add (cells a) (cells b) = cells (a + b) := by
  simp only [exact, cells, F32.add, Int.cast_add]

theorem sub_cells (a b : Int) : exact.sub (cells a) (cells b) = cells (a - b) := by
  simp only [exact, cells, F32.add, F32.neg, sub_eq_add_neg, Int.cast_add, Int.cast_neg]

theorem mul_cells (a : Int) (n : Nat) :
    exact.mul (cells a) (exact.ofNat n) = cells (a * n) := by
  simp only [exact, cells, F32.mul, Int.cast_mul, Int.cast_natCast]

theorem floor_div_cells (a : Int) {n : Nat} (positive : 0 < n) :
    exact.floor (exact.div (cells a) (exact.ofNat n)) = cells (a / n) := by
  have above : (n : Rat) ≠ 0 := by exact_mod_cast positive.ne'
  simp only [exact, cells, F32.div, if_neg above, F32.toWhole]
  rw [Rat.floor_intCast_div_natCast]

end Arithmetic

theorem F32.nearest_of_nonneg {value : Rat} (positive : 0 ≤ value) :
    F32.nearest value = ⌊value + 1 / 2⌋ := if_neg (not_lt.mpr positive)

theorem F32.nearest_intCast (n : Int) : F32.nearest n = n := by
  have half : ∀ m : Int, ⌊(m : Rat) + 1 / 2⌋ = m := by
    intro m
    rw [Int.floor_eq_iff]
    constructor <;> linarith
  unfold F32.nearest
  split_ifs
  · have negated := half (-n)
    push_cast at negated
    rw [negated, neg_neg]
  · exact half n

theorem F32.nearest_mono {low high : Rat} (start : 0 ≤ low) (ordered : low ≤ high) :
    F32.nearest low ≤ F32.nearest high := by
  rw [F32.nearest_of_nonneg start, F32.nearest_of_nonneg (start.trans ordered)]
  exact Int.floor_le_floor (by linarith)

structure Cells where
  x : Int
  y : Int
  w : Int
  h : Int
  deriving DecidableEq, Repr

structure CellGap where
  horizontal : Int
  vertical : Int
  deriving DecidableEq, Repr

namespace CellGap

def tileGap (gap : CellGap) : TileGap where
  horizontal := cells gap.horizontal
  vertical := cells gap.vertical

def forAxis (gap : CellGap) : SplitAxis → Int
  | .horizontal => gap.horizontal
  | .vertical => gap.vertical

theorem tileGap_forAxis (gap : CellGap) (axis : SplitAxis) :
    gap.tileGap.forAxis axis = cells (gap.forAxis axis) := by
  cases axis <;> rfl

end CellGap

/-- The gap that is left between the parts of an extent: one that does not fit in it is dropped. -/
def usableGap (gap extent : Int) : Int := if gap < extent then gap else 0

theorem usable_cells (gap extent : Int) :
    (if (cells gap).lt (cells extent) then cells gap else cells 0) =
      cells (usableGap gap extent) := by
  rw [lt_cells, usableGap]
  by_cases fits : gap < extent
  · simp [fits]
  · simp [fits]

namespace Cells

variable (area : Cells) (axis : SplitAxis)

def rect : FloatRect where
  x := cells area.x
  y := cells area.y
  w := cells area.w
  h := cells area.h

def extent : SplitAxis → Int
  | .horizontal => area.w
  | .vertical => area.h

def start : SplitAxis → Int
  | .horizontal => area.x
  | .vertical => area.y

def segment (start size : Int) : Cells :=
  match axis with
  | .horizontal => { area with x := start, w := size }
  | .vertical => { area with y := start, h := size }

@[simp] theorem rect_extent : area.rect.extent axis = cells (area.extent axis) := by
  cases axis <;> rfl

@[simp] theorem rect_start : area.rect.start axis = cells (area.start axis) := by
  cases axis <;> rfl

@[simp] theorem rect_segment (start size : Int) :
    area.rect.segment axis (cells start) (cells size) = (area.segment axis start size).rect := by
  cases axis <;> rfl

end Cells

def splitShare (ratio : F32) : Rat :=
  match ratio with
  | .finite value => max minSplitRatio (min value maxSplitRatio)
  | _ => 58 / 100

theorem clampSplitRatio_eq (ratio : F32) : clampSplitRatio ratio = .finite (splitShare ratio) := by
  cases ratio <;> rfl

theorem splitShare_within (ratio : F32) :
    1 / 5 ≤ splitShare ratio ∧ splitShare ratio ≤ 4 / 5 := by
  have low : minSplitRatio = 1 / 5 := by norm_num [minSplitRatio]
  have high : maxSplitRatio = 4 / 5 := by norm_num [maxSplitRatio]
  cases ratio with
  | finite value =>
      simp only [splitShare, low, high]
      exact ⟨le_max_left _ _, max_le (by norm_num) (min_le_right _ _)⟩
  | posInfinity => norm_num [splitShare]
  | negInfinity => norm_num [splitShare]
  | nan => norm_num [splitShare]

def firstShare (available : Int) (ratio : F32) : Int :=
  F32.nearest (available * splitShare ratio)

theorem firstShare_within {available : Int} (positive : 0 ≤ available) (ratio : F32) :
    0 ≤ firstShare available ratio ∧ firstShare available ratio ≤ available := by
  have room : (0 : Rat) ≤ available := by exact_mod_cast positive
  rcases splitShare_within ratio with ⟨low, high⟩
  constructor
  · calc
      0 = F32.nearest ((0 : Int) : Rat) := (F32.nearest_intCast 0).symm
      _ ≤ firstShare available ratio :=
        F32.nearest_mono (by norm_num) (by push_cast; exact mul_nonneg room (by linarith))
  · calc
      firstShare available ratio ≤ F32.nearest (available : Rat) :=
        F32.nearest_mono (mul_nonneg room (by linarith)) (by nlinarith)
      _ = available := F32.nearest_intCast available

theorem firstShare_inside {available : Int} (enough : 3 ≤ available) (ratio : F32) :
    1 ≤ firstShare available ratio ∧ firstShare available ratio < available := by
  have room : (3 : Rat) ≤ available := by exact_mod_cast enough
  rcases splitShare_within ratio with ⟨low, high⟩
  unfold firstShare
  rw [F32.nearest_of_nonneg (mul_nonneg (by linarith) (by linarith))]
  constructor
  · rw [Int.le_floor]
    push_cast
    nlinarith
  · rw [Int.floor_lt]
    nlinarith

namespace Cells

variable (area : Cells) (axis : SplitAxis) (ratio : F32) (gap : CellGap)

def available : Int :=
  max (area.extent axis - usableGap (gap.forAxis axis) (area.extent axis)) 0

def divide : Cells × Cells :=
  let first := firstShare (area.available axis gap) ratio
  (area.segment axis (area.start axis) first,
    area.segment axis
      (area.start axis + first + usableGap (gap.forAxis axis) (area.extent axis))
      (area.available axis gap - first))

end Cells

namespace Arithmetic

open Cells

theorem splitFloatRect_cells (area : Cells) (axis : SplitAxis) (ratio : F32) (gap : CellGap) :
    exact.splitFloatRect area.rect axis ratio gap.tileGap =
      ((area.divide axis ratio gap).1.rect, (area.divide axis ratio gap).2.rect) := by
  have share : exact.round (exact.mul (cells (area.available axis gap)) (clampSplitRatio ratio)) =
      cells (firstShare (area.available axis gap) ratio) := by
    rw [clampSplitRatio_eq]
    rfl
  simp only [Cells.available] at share
  simp only [splitFloatRect, rect_extent, rect_start, CellGap.tileGap_forAxis, zero_eq_cells,
    usable_cells, sub_cells, max_cells, share, add_cells, rect_segment, Cells.divide,
    Cells.available]

end Arithmetic

end Rozi
