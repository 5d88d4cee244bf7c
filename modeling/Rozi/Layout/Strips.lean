import Rozi.Layout.Cells
import Rozi.Library.Segments

/-!
The layouts that follow the order of the panes, in whole cells: how an extent is cut into segments,
and the strips, bands and stacks the segments make.
-/

namespace Rozi

open F32 Segments

namespace Cells

variable (area : Cells) (axis : SplitAxis)

def cut (segment : Int × Int) : Cells := area.segment axis segment.1 segment.2

theorem cut_whole : area.cut axis (area.start axis, area.extent axis) = area := by
  cases axis <;> rfl

end Cells

namespace Arithmetic

open Cells

variable {area : Cells} {axis : SplitAxis}

theorem splitEvenlyFrom_cells {base usable : Int} (positive : 0 ≤ base) {count : Nat}
    (start : Int) {remaining : Int} (enough : base * count ≤ remaining) :
    exact.splitEvenlyFrom area.rect axis (cells base) (cells usable) count (cells start)
        (cells remaining) =
      (lay usable start (evenSizes base count remaining)).map fun segment =>
        (area.cut axis segment).rect := by
  induction count generalizing start remaining with
  | zero => rfl
  | succ left ih =>
      cases left with
      | zero =>
          simp only [splitEvenlyFrom, if_true, rect_segment, evenSizes, lay, List.map_cons,
            List.map_nil, Cells.cut]
      | succ left =>
          push_cast at enough
          have rest : base * ((left + 1 : Nat) : Int) ≤ remaining - base := by
            push_cast
            linarith
          have taken : min base remaining = base := min_eq_left (by nlinarith)
          have kept : max (remaining - base) 0 = remaining - base := max_eq_left (by
            have : 0 ≤ base * ((left + 1 : Nat) : Int) := by positivity
            omega)
          rw [splitEvenlyFrom, if_neg (Nat.succ_ne_zero left)]
          simp only [min_cells, taken, sub_cells, zero_eq_cells, max_cells, kept, add_cells,
            rect_segment, ih _ rest, evenSizes, lay, List.map_cons, Cells.cut, add_assoc]

theorem splitBalancedFrom_cells (base usable : Int) (count extras : Nat) (start : Int) :
    exact.splitBalancedFrom area.rect axis (cells base) (cells usable) count extras
        (cells start) =
      (lay usable start (balancedSizes base count extras)).map fun segment =>
        (area.cut axis segment).rect := by
  induction count generalizing extras start with
  | zero => rfl
  | succ left ih =>
      have longer : (if 0 < extras then F32.one else F32.zero) =
          cells (if 0 < extras then 1 else 0) := by split_ifs <;> rfl
      rw [splitBalancedFrom, longer]
      simp only [add_cells, rect_segment, ih, balancedSizes, lay, List.map_cons, Cells.cut,
        add_assoc]

/-- What is left of an extent beside the gaps of `count` parts. -/
def besideGaps (gap : CellGap) (area : Cells) (axis : SplitAxis) (count : Nat) : Int :=
  area.extent axis - usableGap (gap.forAxis axis) (area.extent axis) * (count - 1 : Nat)

theorem besideGaps_eq {gap : CellGap} {count : Nat}
    (fits : usableGap (gap.forAxis axis) (area.extent axis) * (count - 1 : Nat) ≤
      area.extent axis) :
    (exact.sub (area.rect.extent axis) (exact.mul
      (cells (usableGap (gap.forAxis axis) (area.extent axis))) (exact.ofNat (count - 1)))).max
        .zero = cells (besideGaps gap area axis count) := by
  rw [mul_cells, rect_extent, sub_cells, zero_eq_cells, max_cells]
  exact congrArg cells (max_eq_left (sub_nonneg.mpr fits))

variable (gap : CellGap) {count : Nat}

/-- The segments `split_evenly` and the master stack cut. -/
def evenSegments (area : Cells) (axis : SplitAxis) (count : Nat) : List (Int × Int) :=
  lay (usableGap (gap.forAxis axis) (area.extent axis)) (area.start axis)
    (evenSizes (besideGaps gap area axis count / count) count (besideGaps gap area axis count))

def balancedSegments (area : Cells) (axis : SplitAxis) (count : Nat) : List (Int × Int) :=
  lay (usableGap (gap.forAxis axis) (area.extent axis)) (area.start axis)
    (balancedSizes (besideGaps gap area axis count / count) count
      (besideGaps gap area axis count % count).toNat)

theorem length_evenSegments : (evenSegments gap area axis count).length = count := by
  rw [evenSegments, length_lay, length_evenSizes]

theorem length_balancedSegments : (balancedSegments gap area axis count).length = count := by
  rw [balancedSegments, length_lay, length_balancedSizes]

theorem tiles_evenSegments (some' : 0 < count) :
    Tiles (area.start axis) (area.extent axis)
      (usableGap (gap.forAxis axis) (area.extent axis)) (evenSegments gap area axis count) := by
  obtain ⟨left, rfl⟩ := Nat.exists_eq_succ_of_ne_zero some'.ne'
  apply tiles_lay _ (length_evenSizes _ _ _)
  rw [sum_evenSizes, besideGaps, Nat.succ_sub_one, sub_add_cancel]

theorem extras_le (count : Nat) (some' : 0 < count) (left : Int) :
    ((left % count).toNat : Int) = left % count ∧ (left % count).toNat ≤ count := by
  have positive : (0 : Int) < count := by exact_mod_cast some'
  have low := Int.emod_nonneg left positive.ne'
  have high := Int.emod_lt_of_pos left positive
  omega

theorem tiles_balancedSegments (some' : 0 < count) :
    Tiles (area.start axis) (area.extent axis)
      (usableGap (gap.forAxis axis) (area.extent axis))
      (balancedSegments gap area axis count) := by
  rcases extras_le count some' (besideGaps gap area axis count) with ⟨extras, within⟩
  obtain ⟨left, rfl⟩ := Nat.exists_eq_succ_of_ne_zero some'.ne'
  apply tiles_lay _ (length_balancedSizes _ _ _)
  rw [sum_balancedSizes _ within, extras, Int.ediv_mul_add_emod, besideGaps, Nat.succ_sub_one,
    sub_add_cancel]

theorem balancedSegments_balanced :
    ∀ a ∈ balancedSegments gap area axis count, ∀ b ∈ balancedSegments gap area axis count,
      a.2 ≤ b.2 + 1 := by
  have sizes : ∀ segment ∈ balancedSegments gap area axis count,
      segment.2 = besideGaps gap area axis count / count ∨
        segment.2 = besideGaps gap area axis count / count + 1 := by
    intro segment member
    have sized : segment.2 ∈ balancedSizes (besideGaps gap area axis count / count) count
        (besideGaps gap area axis count % count).toNat → _ := mem_balancedSizes
    refine sized ?_
    rw [← sizes_lay (usableGap (gap.forAxis axis) (area.extent axis)) (area.start axis)
      (balancedSizes _ count _)]
    exact List.mem_map_of_mem member
  intro a memberA b memberB
  rcases sizes a memberA with first | first <;> rcases sizes b memberB with second | second <;>
    omega

variable {gap}

theorem splitEvenly_cells (some' : 0 < count)
    (fits : usableGap (gap.forAxis axis) (area.extent axis) * (count - 1 : Nat) ≤
      area.extent axis) :
    exact.splitEvenly area.rect axis count gap.tileGap =
      (evenSegments gap area axis count).map fun segment => (area.cut axis segment).rect := by
  by_cases single : count = 1
  · subst single
    have whole : evenSegments gap area axis 1 = [(area.start axis, area.extent axis)] := by
      simp [evenSegments, evenSizes, lay, besideGaps]
    rw [whole, List.map_singleton, cut_whole]
    rfl
  · have left := besideGaps_eq fits
    have positive : 0 ≤ besideGaps gap area axis count := sub_nonneg.mpr fits
    rw [splitEvenly, if_neg some'.ne', if_neg single]
    simp only [rect_extent, CellGap.tileGap_forAxis, zero_eq_cells, usable_cells] at left ⊢
    rw [left, floor_div_cells _ some', rect_start]
    apply splitEvenlyFrom_cells
    · exact Int.ediv_nonneg positive (Int.natCast_nonneg count)
    · exact Int.ediv_mul_le _ (by exact_mod_cast some'.ne')

theorem splitBalanced_cells (some' : 0 < count)
    (fits : usableGap (gap.forAxis axis) (area.extent axis) * (count - 1 : Nat) ≤
      area.extent axis) :
    exact.splitBalanced area.rect axis count gap.tileGap =
      (balancedSegments gap area axis count).map fun segment => (area.cut axis segment).rect := by
  by_cases single : count = 1
  · subst single
    have whole : balancedSegments gap area axis 1 = [(area.start axis, area.extent axis)] := by
      simp [balancedSegments, balancedSizes, lay, besideGaps]
    rw [whole, List.map_singleton, cut_whole]
    rfl
  · have left := besideGaps_eq fits
    have extras : exact.toNat ((exact.round (exact.sub (cells (besideGaps gap area axis count))
        (exact.mul (cells (besideGaps gap area axis count / count)) (exact.ofNat count)))).max
          (cells 0)) = (besideGaps gap area axis count % count).toNat := by
      have rounded : ∀ n : Int, exact.round (cells n) = cells n :=
        fun n => congrArg cells (nearest_intCast n)
      have rest : besideGaps gap area axis count -
          besideGaps gap area axis count / count * count =
            besideGaps gap area axis count % count := by
        rw [Int.emod_def, mul_comm]
      have positive := Int.emod_nonneg (besideGaps gap area axis count)
        (by exact_mod_cast some'.ne' : (count : Int) ≠ 0)
      rw [mul_cells, sub_cells, rounded, rest, max_cells, max_eq_left positive]
      exact congrArg Int.toNat (Int.floor_intCast _)
    rw [splitBalanced, if_neg some'.ne', if_neg single]
    simp only [rect_extent, CellGap.tileGap_forAxis, zero_eq_cells, usable_cells] at left ⊢
    rw [left, floor_div_cells _ some', rect_start, extras]
    exact splitBalancedFrom_cells _ _ _ _ _

theorem usable_fits {g extent : Int} (positive : 0 ≤ extent) {most : Nat}
    (fits : g * (most - 1 : Nat) ≤ extent) (few : count ≤ most) :
    usableGap g extent * (count - 1 : Nat) ≤ extent := by
  have fewer : ((count - 1 : Nat) : Int) ≤ (most - 1 : Nat) := by
    exact_mod_cast Nat.sub_le_sub_right few 1
  have none : (0 : Int) ≤ (count - 1 : Nat) := Int.natCast_nonneg _
  unfold usableGap
  split_ifs with below
  · rcases le_total 0 g with up | down
    · exact (mul_le_mul_of_nonneg_left fewer up).trans fits
    · exact (mul_nonpos_of_nonpos_of_nonneg down none).trans positive
  · rw [zero_mul]
    exact positive

end Arithmetic

open Arithmetic Cells

/-- Panes laid along an axis of a rectangle, each in a segment of its own. -/
structure Laid (gap : CellGap) (area : Cells) (axis : SplitAxis) (ids : List PaneId)
    (segments : List (Int × Int)) (placements : List PanePlacement) : Prop where
  placed : placements = (ids.zip segments).map fun entry =>
    placeAt entry.1 (area.cut axis entry.2).rect
  order : placements.map PanePlacement.id = ids
  /-- No segment is left without a pane. -/
  each : segments.length = ids.length
  tiles : Tiles (area.start axis) (area.extent axis)
    (usableGap (gap.forAxis axis) (area.extent axis)) segments

section allocated

variable {gap : CellGap} {area : Cells} {axis : SplitAxis} {ids : List PaneId}

theorem zipWith_placeAt_cells (segments : List (Int × Int)) :
    ids.zipWith placeAt (segments.map fun segment => (area.cut axis segment).rect) =
      (ids.zip segments).map fun entry => placeAt entry.1 (area.cut axis entry.2).rect := by
  rw [List.zipWith_map_right, ← List.map_uncurry_zip_eq_zipWith]
  rfl

theorem tiles_nil (start extent usable : Int) : Tiles start extent usable [] :=
  ⟨by simp, .nil, by simp⟩

/-- `allocate_columns` and `allocate_rows`. -/
theorem allocateStrips_laid (sized : 0 ≤ area.extent axis)
    (fits : gap.forAxis axis * (ids.length - 1 : Nat) ≤ area.extent axis) :
    ∃ segments, Laid gap area axis ids segments
        (exact.allocateStrips ids area.rect axis gap.tileGap) ∧
      ∀ a ∈ segments, ∀ b ∈ segments, a.2 ≤ b.2 + 1 := by
  cases ids with
  | nil => exact ⟨[], ⟨rfl, rfl, rfl, tiles_nil _ _ _⟩, by simp⟩
  | cons id rest =>
      have some' : 0 < (id :: rest).length := Nat.succ_pos _
      refine ⟨balancedSegments gap area axis (id :: rest).length, ⟨?_, ?_, ?_, ?_⟩,
        balancedSegments_balanced gap⟩
      · rw [← zipWith_placeAt_cells,
          ← splitBalanced_cells some' (usable_fits sized fits le_rfl)]
        rfl
      · exact allocateStrips_ids _ _ _ _ _
      · exact length_balancedSegments gap
      · exact tiles_balancedSegments gap some'

theorem allocateMasterStackFrom_cells {base usable : Int} (positive : 0 ≤ base) (start : Int)
    {remaining : Int} (enough : base * ids.length ≤ remaining) :
    exact.allocateMasterStackFrom area.rect (cells usable) (cells base) ids (cells start)
        (cells remaining) =
      (ids.zip (lay usable start (evenSizes base ids.length remaining))).map fun entry =>
        placeAt entry.1 (area.cut .vertical entry.2).rect := by
  induction ids generalizing start remaining with
  | nil => rfl
  | cons id rest ih =>
      cases rest with
      | nil => rfl
      | cons next rest =>
          simp only [List.length_cons] at enough ih ⊢
          push_cast at enough
          have left : base * ((rest.length + 1 : Nat) : Int) ≤ remaining - base := by
            push_cast
            linarith
          have taken : min base remaining = base := min_eq_left (by nlinarith)
          have kept : max (remaining - base) 0 = remaining - base := max_eq_left (by
            have : 0 ≤ base * ((rest.length + 1 : Nat) : Int) := by positivity
            omega)
          rw [allocateMasterStackFrom]
          simp only [List.isEmpty_cons, Bool.false_eq_true, if_false, min_cells, taken, sub_cells,
            zero_eq_cells, max_cells, kept, add_cells, ih _ left, evenSizes, lay, List.zip_cons_cons,
            List.map_cons, add_assoc]
          rfl

theorem allocateMasterStack_laid (sized : 0 ≤ area.h)
    (fits : gap.vertical * (ids.length - 1 : Nat) ≤ area.h) :
    ∃ segments, Laid gap area .vertical ids segments
      (exact.allocateMasterStack ids area.rect gap.tileGap) := by
  cases ids with
  | nil => exact ⟨[], rfl, rfl, rfl, tiles_nil _ _ _⟩
  | cons id rest =>
      have some' : 0 < (id :: rest).length := Nat.succ_pos _
      have within : usableGap (gap.forAxis .vertical) (area.extent .vertical) *
          ((id :: rest).length - 1 : Nat) ≤ area.extent .vertical :=
        usable_fits sized fits le_rfl
      have left := besideGaps_eq within
      refine ⟨evenSegments gap area .vertical (id :: rest).length, ?_, ?_, ?_, ?_⟩
      · have height : area.rect.h = area.rect.extent .vertical := rfl
        rw [allocateMasterStack, height]
        simp only [List.isEmpty_cons, Bool.false_eq_true, if_false, rect_extent,
          CellGap.tileGap_forAxis, zero_eq_cells, usable_cells] at left ⊢
        rw [left, floor_div_cells _ some']
        apply allocateMasterStackFrom_cells
        · exact Int.ediv_nonneg (sub_nonneg.mpr within) (Int.natCast_nonneg _)
        · exact Int.ediv_mul_le _ (by exact_mod_cast some'.ne')
      · exact allocateMasterStack_ids _ _ _ _
      · exact length_evenSegments gap
      · exact tiles_evenSegments gap some'

end allocated

end Rozi
