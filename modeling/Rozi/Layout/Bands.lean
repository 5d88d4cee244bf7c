import Rozi.Layout.DwindlePartition
import Rozi.Layout.Strips

/-!
The master layout, the grid, and what all layouts that follow the order of the panes have in common:
they tile.
-/

namespace Rozi

open F32 Segments Cells Arithmetic

structure Band where
  row : Int × Int
  cells : List (PaneId × (Int × Int))

namespace Band

def ids (band : Band) : List PaneId := band.cells.map Prod.fst

def place (area : Cells) (band : Band) : List PanePlacement :=
  band.cells.map fun entry =>
    placeAt entry.1 ((area.cut .vertical band.row).cut .horizontal entry.2).rect

end Band

structure Gridded (gap : CellGap) (area : Cells) (cols : Nat) (ids : List PaneId)
    (bands : List Band) (placements : List PanePlacement) : Prop where
  placed : placements = bands.flatMap (Band.place area)
  order : bands.flatMap Band.ids = ids
  rows : Tiles area.y area.h (usableGap gap.vertical area.h) (bands.map Band.row)
  cells : ∀ band ∈ bands,
    Tiles area.x area.w (usableGap gap.horizontal area.w) (band.cells.map Prod.snd)
  filled : ∀ band ∈ bands, band.cells ≠ [] ∧ band.cells.length ≤ cols
  full : ∀ band ∈ bands.dropLast, band.cells.length = cols

section rows

variable {gap : CellGap} {area : Cells} {cols : Nat}

def bandOf (gap : CellGap) (area : Cells) (row : Int × Int) (ids : List PaneId) : Band where
  row
  cells := ids.zip (evenSegments gap (area.cut .vertical row) .horizontal ids.length)

theorem bandOf_zip (row : Int × Int) (ids : List PaneId) :
    (bandOf gap area row ids).ids = ids ∧
      (bandOf gap area row ids).cells.length = ids.length ∧
      (bandOf gap area row ids).cells.map Prod.snd =
        evenSegments gap (area.cut .vertical row) .horizontal ids.length := by
  have length : (evenSegments gap (area.cut .vertical row) .horizontal ids.length).length =
      ids.length := length_evenSegments gap
  refine ⟨?_, ?_, ?_⟩
  · exact List.map_fst_zip length.ge
  · rw [bandOf, List.length_zip, length, Nat.min_self]
  · exact List.map_snd_zip length.le

theorem splitEvenly_bandOf {row : Int × Int} {ids : List PaneId} (some' : 0 < ids.length)
    (fits : usableGap gap.horizontal area.w * (ids.length - 1 : Nat) ≤ area.w) :
    ids.zipWith placeAt (exact.splitEvenly (area.cut .vertical row).rect .horizontal ids.length
      gap.tileGap) = (bandOf gap area row ids).place area := by
  have within : usableGap (gap.forAxis .horizontal) ((area.cut .vertical row).extent .horizontal) *
      (ids.length - 1 : Nat) ≤ (area.cut .vertical row).extent .horizontal := fits
  rw [splitEvenly_cells some' within, zipWith_placeAt_cells]
  rfl

theorem allocateGridRows_cells (some' : 0 < cols) (sized : 0 ≤ area.w)
    (fits : gap.horizontal * (cols - 1 : Nat) ≤ area.w) (rows : List (Int × Int))
    (ids : List PaneId) (least : (rows.length - 1) * cols < ids.length)
    (most : ids.length ≤ rows.length * cols) :
    ∃ bands : List Band,
      exact.allocateGridRows gap.tileGap cols ids
          (rows.map fun row => (area.cut .vertical row).rect) =
        bands.flatMap (Band.place area) ∧
      bands.flatMap Band.ids = ids ∧
      bands.map Band.row = rows ∧
      (∀ band ∈ bands,
        Tiles area.x area.w (usableGap gap.horizontal area.w) (band.cells.map Prod.snd)) ∧
      (∀ band ∈ bands, band.cells ≠ [] ∧ band.cells.length ≤ cols) ∧
      ∀ band ∈ bands.dropLast, band.cells.length = cols := by
  have made : ∀ (row : Int × Int) (taken : List PaneId), 0 < taken.length →
      taken.length ≤ cols →
      Tiles area.x area.w (usableGap gap.horizontal area.w)
          ((bandOf gap area row taken).cells.map Prod.snd) ∧
        (bandOf gap area row taken).cells ≠ [] ∧
        (bandOf gap area row taken).cells.length ≤ cols := by
    intro row taken positive few
    rcases (bandOf_zip row taken : (bandOf gap area row taken).ids = taken ∧ _) with
      ⟨_, length, segments⟩
    refine ⟨?_, ?_, ?_⟩
    · have across : Tiles ((area.cut .vertical row).start .horizontal)
          ((area.cut .vertical row).extent .horizontal)
          (usableGap (gap.forAxis .horizontal) ((area.cut .vertical row).extent .horizontal))
          (evenSegments gap (area.cut .vertical row) .horizontal taken.length) :=
        tiles_evenSegments gap positive
      rw [segments]
      exact across
    · intro empty
      rw [empty] at length
      exact absurd length.symm positive.ne'
    · rw [length]
      exact few
  induction rows generalizing ids with
  | nil =>
      rw [List.length_nil, Nat.zero_mul] at most
      exact absurd least (by simp only [List.length_nil]; omega)
  | cons row rest ih =>
      cases rest with
      | nil =>
          simp only [List.length_singleton, Nat.sub_self, Nat.zero_mul, Nat.one_mul] at least most
          rcases made row ids least most with ⟨tiles, filled⟩
          refine ⟨[bandOf gap area row ids], ?_, ?_, rfl, by simpa using tiles,
            by simpa using filled, by simp⟩
          · simp only [allocateGridRows, List.map_cons, List.map_nil, List.isEmpty_nil, if_true,
              List.append_nil, List.flatMap_singleton]
            exact splitEvenly_bandOf least (usable_fits sized fits most)
          · rw [List.flatMap_singleton]
            exact (bandOf_zip row ids).1
      | cons next rest =>
          simp only [List.length_cons, Nat.add_sub_cancel] at least most ih
          have enough : cols ≤ ids.length := by
            have : cols ≤ (rest.length + 1) * cols := Nat.le_mul_of_pos_left cols (Nat.succ_pos _)
            omega
          have taken : (ids.take cols).length = cols := by
            rw [List.length_take, Nat.min_eq_left enough]
          have dropped : (ids.drop cols).length = ids.length - cols := List.length_drop
          rcases ih (ids.drop cols) (by rw [dropped]; rw [Nat.succ_mul] at least; omega)
            (by rw [dropped]; rw [Nat.succ_mul] at most; omega) with
            ⟨bands, placed, order, same, tiles, filled, full⟩
          rcases made row (ids.take cols) (taken.symm ▸ some') taken.le with ⟨tilesHere, filledHere⟩
          have cells : exact.splitEvenly (area.cut .vertical row).rect .horizontal cols
              gap.tileGap = exact.splitEvenly (area.cut .vertical row).rect .horizontal
                (ids.take cols).length gap.tileGap := by rw [taken]
          have length := exact.length_splitEvenly (area.cut .vertical row).rect .horizontal
            gap.tileGap cols
          have zipped : ids.zipWith placeAt (exact.splitEvenly (area.cut .vertical row).rect
              .horizontal cols gap.tileGap) = (ids.take cols).zipWith placeAt
                (exact.splitEvenly (area.cut .vertical row).rect .horizontal cols
                  gap.tileGap) := by
            rw [List.zipWith_eq_zipWith_take_min, length, Nat.min_eq_right enough,
              List.take_of_length_le length.le]
          refine ⟨bandOf gap area row (ids.take cols) :: bands, ?_, ?_, ?_, ?_, ?_, ?_⟩
          · rw [List.map_cons, allocateGridRows]
            simp only [List.map_cons, List.isEmpty_cons, Bool.false_eq_true, if_false,
              Nat.min_eq_left enough, length, List.flatMap_cons] at placed ⊢
            rw [placed, zipped, cells, splitEvenly_bandOf (taken.symm ▸ some')
              (usable_fits sized fits taken.le)]
          · rw [List.flatMap_cons, order, (bandOf_zip row (ids.take cols)).1,
              List.take_append_drop]
          · rw [List.map_cons, same]
            rfl
          · exact List.forall_mem_cons.mpr ⟨tilesHere, tiles⟩
          · exact List.forall_mem_cons.mpr ⟨filledHere, filled⟩
          · have more : bands ≠ [] := by
              rintro rfl
              cases same
            rw [List.dropLast_cons_of_ne_nil more]
            exact List.forall_mem_cons.mpr
              ⟨(bandOf_zip row (ids.take cols)).2.1.trans taken, full⟩

end rows

/-- `n.sqrt().ceil()`: the least number whose square is no less than `n`. -/
theorem ceilSqrt_exact {n : Nat} (positive : 0 < n) :
    (exact.ceilSqrt n - 1) * (exact.ceilSqrt n - 1) < n ∧
      n ≤ exact.ceilSqrt n * exact.ceilSqrt n := by
  have low := Nat.sqrt_le n
  have high := Nat.lt_succ_sqrt n
  have root := Nat.sqrt_pos.mpr positive
  simp only [exact]
  split_ifs with square
  · refine ⟨?_, square.ge⟩
    calc
      (n.sqrt - 1) * (n.sqrt - 1) < n.sqrt * n.sqrt :=
        Nat.mul_self_lt_mul_self (Nat.sub_lt root Nat.one_pos)
      _ = n := square
  · rw [Nat.add_sub_cancel]
    exact ⟨lt_of_le_of_ne low square, high.le⟩

section layouts

variable {gap : CellGap} {area : Cells} {ids : List PaneId}

theorem allocateGrid_gridded (sized : area.Sized) (some' : ids ≠ [])
    (across : gap.horizontal * (exact.ceilSqrt ids.length - 1 : Nat) ≤ area.w)
    (down : gap.vertical *
      ((ids.length + exact.ceilSqrt ids.length - 1) / exact.ceilSqrt ids.length - 1 : Nat) ≤
        area.h) :
    ∃ bands, Gridded gap area (exact.ceilSqrt ids.length) ids bands
      (exact.allocateGrid ids area.rect gap.tileGap) := by
  have positive : 0 < ids.length := List.length_pos_of_ne_nil some'
  have colsPositive := exact.ceilSqrt_pos ids.length positive
  have cells : exact.allocateGrid ids area.rect gap.tileGap =
      exact.allocateGridRows gap.tileGap (exact.ceilSqrt ids.length) ids
        (exact.splitEvenly area.rect .vertical
          ((ids.length + exact.ceilSqrt ids.length - 1) / exact.ceilSqrt ids.length)
          gap.tileGap) := by
    match ids, some' with
    | [id], _ =>
        have one : exact.ceilSqrt [id].length = 1 := by simp [exact]
        rw [one, List.length_singleton, Nat.div_one]
        simp [allocateGrid, allocateGridRows, splitEvenly]
    | first :: second :: rest, _ => rfl
  generalize exact.ceilSqrt ids.length = cols at *
  have rowsPositive : 0 < (ids.length + cols - 1) / cols :=
    Nat.div_pos (by omega) colsPositive
  have whole := Nat.div_add_mod (ids.length + cols - 1) cols
  have rest := Nat.mod_lt (ids.length + cols - 1) colsPositive
  generalize (ids.length + cols - 1) / cols = rows at *
  have length : (evenSegments gap area .vertical rows).length = rows := length_evenSegments gap
  rcases allocateGridRows_cells colsPositive sized.1 across (evenSegments gap area .vertical rows)
    ids (by rw [length, Nat.sub_mul, Nat.one_mul, Nat.mul_comm]; omega)
    (by rw [length, Nat.mul_comm]; omega) with
    ⟨bands, placed, order, same, tiles, filled, full⟩
  have within : usableGap (gap.forAxis .vertical) (area.extent .vertical) * (rows - 1 : Nat) ≤
      area.extent .vertical := usable_fits sized.2 down le_rfl
  have tall : Tiles (area.start .vertical) (area.extent .vertical)
      (usableGap (gap.forAxis .vertical) (area.extent .vertical))
      (evenSegments gap area .vertical rows) := tiles_evenSegments gap rowsPositive
  refine ⟨bands, ?_, order, ?_, tiles, filled, full⟩
  · rw [cells, splitEvenly_cells rowsPositive within, placed]
  · rw [same]
    exact tall

theorem allocateMaster_stacked (sized : area.Sized) {master : PaneId} (some' : ids ≠ [])
    (ratio : F32) (down : gap.vertical * (ids.length - 1 : Nat) ≤ area.h) :
    ∃ column beside segments,
      Tiles area.x area.w (usableGap gap.horizontal area.w) [column, beside] ∧
      exact.allocateMaster (master :: ids) area.rect gap.tileGap ratio =
        placeAt master (area.cut .horizontal column).rect ::
          exact.allocateMasterStack ids (area.cut .horizontal beside).rect gap.tileGap ∧
      Laid gap (area.cut .horizontal beside) .vertical ids segments
        (exact.allocateMasterStack ids (area.cut .horizontal beside).rect gap.tileGap) := by
  rcases divide_sides .horizontal ratio gap sized with ⟨first, second, _, _, whole, same⟩
  simp only [extent, start, CellGap.forAxis] at whole same
  have stacked : ∃ segments,
      Laid gap (area.cut .horizontal
        (area.x + first + usableGap gap.horizontal area.w, second)) .vertical ids segments _ :=
    allocateMasterStack_laid sized.2 down
  rcases stacked with ⟨segments, laid⟩
  refine ⟨(area.x, first), (area.x + first + usableGap gap.horizontal area.w, second), segments,
    ⟨by simp, .cons_cons rfl (.singleton _), ?_⟩, ?_, laid⟩
  · simp only [List.getLast?_cons_cons, List.getLast?_singleton, Option.mem_def,
      Option.some.injEq]
    rintro _ rfl
    simp only
    omega
  · cases ids with
    | nil => exact absurd rfl some'
    | cons next rest =>
        simp only [allocateMaster, splitFloatRect_cells, same]
        rfl

end layouts

/-- The layouts that follow the order of the panes tile the rectangle they are given. The gap counts
where the extent is longer than it, and is dropped elsewhere. -/
theorem order_layouts_tile (ids : List PaneId) {area : Cells} (sized : area.Sized) (gap : CellGap)
    (ratio : F32) :
    (gap.horizontal * (ids.length - 1 : Nat) ≤ area.w →
      ∃ segments, Laid gap area .horizontal ids segments
          (exact.allocateColumns ids area.rect gap.tileGap) ∧
        ∀ a ∈ segments, ∀ b ∈ segments, a.2 ≤ b.2 + 1) ∧
    (gap.vertical * (ids.length - 1 : Nat) ≤ area.h →
      ∃ segments, Laid gap area .vertical ids segments
          (exact.allocateRows ids area.rect gap.tileGap) ∧
        ∀ a ∈ segments, ∀ b ∈ segments, a.2 ≤ b.2 + 1) ∧
    (ids ≠ [] →
      gap.horizontal * (exact.ceilSqrt ids.length - 1 : Nat) ≤ area.w →
      gap.vertical * ((ids.length + exact.ceilSqrt ids.length - 1) /
        exact.ceilSqrt ids.length - 1 : Nat) ≤ area.h →
      (exact.ceilSqrt ids.length - 1) * (exact.ceilSqrt ids.length - 1) < ids.length ∧
      ids.length ≤ exact.ceilSqrt ids.length * exact.ceilSqrt ids.length ∧
      ∃ bands, Gridded gap area (exact.ceilSqrt ids.length) ids bands
        (exact.allocateGrid ids area.rect gap.tileGap)) ∧
    (∀ master, ids ≠ [] → gap.vertical * (ids.length - 1 : Nat) ≤ area.h →
      ∃ column beside segments,
        Tiles area.x area.w (usableGap gap.horizontal area.w) [column, beside] ∧
        exact.allocateMaster (master :: ids) area.rect gap.tileGap ratio =
          placeAt master (area.cut .horizontal column).rect ::
            exact.allocateMasterStack ids (area.cut .horizontal beside).rect gap.tileGap ∧
        Laid gap (area.cut .horizontal beside) .vertical ids segments
          (exact.allocateMasterStack ids (area.cut .horizontal beside).rect gap.tileGap)) ∧
    (∀ id, exact.allocateMaster [id] area.rect gap.tileGap ratio = [placeAt id area.rect]) := by
  refine ⟨?_, ?_, ?_, ?_, fun id => rfl⟩
  · exact allocateStrips_laid (show 0 ≤ area.extent .horizontal from sized.1)
  · exact allocateStrips_laid (show 0 ≤ area.extent .vertical from sized.2)
  · intro some' across down
    rcases ceilSqrt_exact (List.length_pos_of_ne_nil some') with ⟨low, high⟩
    exact ⟨low, high, allocateGrid_gridded sized some' across down⟩
  · intro master some' down
    exact allocateMaster_stacked sized some' ratio down

theorem order_layouts_tile_three :
    (∃ segments, Laid ⟨1, 1⟩ ⟨0, 0, 11, 9⟩ .horizontal [4, 5, 6] segments
        (exact.allocateColumns [4, 5, 6] (Cells.mk 0 0 11 9).rect (CellGap.mk 1 1).tileGap) ∧
      ∀ a ∈ segments, ∀ b ∈ segments, a.2 ≤ b.2 + 1) ∧
    (∃ segments, Laid ⟨1, 1⟩ ⟨0, 0, 11, 9⟩ .vertical [4, 5, 6] segments
        (exact.allocateRows [4, 5, 6] (Cells.mk 0 0 11 9).rect (CellGap.mk 1 1).tileGap) ∧
      ∀ a ∈ segments, ∀ b ∈ segments, a.2 ≤ b.2 + 1) ∧
    (∃ bands, Gridded ⟨1, 1⟩ ⟨0, 0, 11, 9⟩ (exact.ceilSqrt 3) [4, 5, 6] bands
      (exact.allocateGrid [4, 5, 6] (Cells.mk 0 0 11 9).rect (CellGap.mk 1 1).tileGap)) ∧
    ∃ column beside segments,
      Tiles 0 11 (usableGap 1 11) [column, beside] ∧
      exact.allocateMaster [7, 4, 5, 6] (Cells.mk 0 0 11 9).rect (CellGap.mk 1 1).tileGap
          (.finite (1 / 2)) =
        placeAt 7 ((Cells.mk 0 0 11 9).cut .horizontal column).rect ::
          exact.allocateMasterStack [4, 5, 6] ((Cells.mk 0 0 11 9).cut .horizontal beside).rect
            (CellGap.mk 1 1).tileGap ∧
      Laid ⟨1, 1⟩ ((Cells.mk 0 0 11 9).cut .horizontal beside) .vertical [4, 5, 6] segments
        (exact.allocateMasterStack [4, 5, 6] ((Cells.mk 0 0 11 9).cut .horizontal beside).rect
          (CellGap.mk 1 1).tileGap) :=
  have tile := order_layouts_tile [4, 5, 6] (show (Cells.mk 0 0 11 9).Sized by decide) ⟨1, 1⟩
    (.finite (1 / 2))
  ⟨tile.1 (by decide), tile.2.1 (by decide),
    (tile.2.2.1 (by decide) (by decide +kernel) (by decide +kernel)).2.2,
    tile.2.2.2.1 7 (by decide) (by decide)⟩

/-- A gap as long as the extent is dropped, and the two columns touch. -/
theorem columns_of_dropped_gap :
    (1 : Int) * (2 - 1) ≤ (Cells.mk 0 0 1 5).w ∧
      exact.allocateColumns [4, 5] (Cells.mk 0 0 1 5).rect (CellGap.mk 1 1).tileGap =
        [placeAt 4 (Cells.mk 0 0 1 5).rect, placeAt 5 (Cells.mk 1 0 0 5).rect] ∧
      (1 : Int) ≠ 0 + 1 + 1 := by
  decide +kernel

end Rozi
