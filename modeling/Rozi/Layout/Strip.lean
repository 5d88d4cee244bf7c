import Rozi.Layout.Strips

/-!
The scrollable layout in whole cells: the widths of its columns, how far the strip is scrolled, and
what of it the visible interval shows.
-/

namespace Rozi

open F32 Segments Cells Arithmetic

section widths

theorem scrollableColumnWidth_cells (view : Int) (share : F32) :
    ∃ width : Int, exact.scrollableColumnWidth (cells view) share = cells width ∧ 1 ≤ width := by
  have sanitized : ∃ ratio, sanitizeScrollableWidth share = .finite ratio := by
    have ordered : minSplitRatio ≤ maxSplitRatio := by norm_num [minSplitRatio, maxSplitRatio]
    cases share with
    | finite value => exact ⟨_, F32.clamp_finite value ordered⟩
    | posInfinity => exact ⟨_, rfl⟩
    | negInfinity => exact ⟨_, rfl⟩
    | nan => exact ⟨_, rfl⟩
  rcases sanitized with ⟨ratio, sanitized⟩
  have ceiled : ∀ value : Rat, exact.ceil (exact.mul (.finite value) (cells (max view 1))) =
      cells ⌈value * ((max view 1 : Int) : Rat)⌉ := fun _ => rfl
  have floored : ∀ value : Rat, exact.floor (exact.mul (.finite value) (cells (max view 1))) =
      cells ⌊value * ((max view 1 : Int) : Rat)⌋ := fun _ => rfl
  have rounded : exact.round (exact.mul (cells (max view 1)) (.finite ratio)) =
      cells (nearest (((max view 1 : Int) : Rat) * ratio)) := rfl
  simp only [scrollableColumnWidth, sanitized, one_eq_cells, max_cells, ceiled, floored, rounded,
    clamp_cells _ (le_max_right _ _)]
  exact ⟨_, rfl, le_max_of_le_left (le_max_right _ _)⟩

variable {panes : List (PaneId × F32)} {view usable : Int}

theorem half_over (a b : Int) :
    (cells a).le (exact.add (cells b) (.finite (1 / 2))) = decide (a ≤ b) := by
  simp only [cells, exact, F32.add, le_finite]
  refine decide_eq_decide.mpr ⟨fun below => ?_, fun below => ?_⟩
  · have less : (a : Rat) < ((b + 1 : Int) : Rat) := by
      push_cast
      linarith
    have : a < b + 1 := by exact_mod_cast less
    omega
  · have : (a : Rat) ≤ b := by exact_mod_cast below
    linarith

theorem allocatedPair_cells {a b : Int} (fits : a + b + usable ≤ view) :
    ∃ first second : Int,
      [exact.add (cells a) (exact.floor (exact.div ((exact.sub (exact.sub (exact.sub (cells view)
          (cells usable)) (cells a)) (cells b)).max .zero) (.finite 2))),
        exact.add (cells b) (exact.sub ((exact.sub (exact.sub (exact.sub (cells view)
          (cells usable)) (cells a)) (cells b)).max .zero) (exact.floor (exact.div
            ((exact.sub (exact.sub (exact.sub (cells view) (cells usable)) (cells a))
              (cells b)).max .zero) (.finite 2))))] = [cells first, cells second] ∧
      a ≤ first ∧ b ≤ second ∧ first + usable + second = view := by
  have free : max (view - usable - a - b) 0 = view - usable - a - b := max_eq_left (by omega)
  have half : exact.floor (exact.div (cells (view - usable - a - b)) (.finite 2)) =
      cells ((view - usable - a - b) / 2) :=
    floor_div_cells (view - usable - a - b) Nat.two_pos
  simp only [sub_cells, zero_eq_cells, max_cells, free, half, add_cells]
  exact ⟨_, _, rfl, by omega, by omega, by omega⟩

theorem scrollableAllocatedWidths_cells (positive : 1 ≤ view) :
    ∃ widths : List Int,
      exact.scrollableAllocatedWidths panes (cells view) (cells usable) = widths.map cells ∧
      widths.length = panes.length ∧ ∀ width ∈ widths, 1 ≤ width := by
  have all : ∃ bases : List Int,
      (panes.map fun pane => exact.scrollableColumnWidth (cells view) pane.2) =
        bases.map cells ∧ bases.length = panes.length ∧ ∀ width ∈ bases, 1 ≤ width := by
    induction panes with
    | nil => exact ⟨[], rfl, rfl, by simp⟩
    | cons pane rest ih =>
        rcases ih with ⟨bases, same, length, wide⟩
        rcases scrollableColumnWidth_cells view pane.2 with ⟨width, column, atLeast⟩
        exact ⟨width :: bases, by rw [List.map_cons, column, same]; rfl,
          by rw [List.length_cons, length, List.length_cons],
          List.forall_mem_cons.mpr ⟨atLeast, wide⟩⟩
  rcases all with ⟨bases, same, length, wide⟩
  have viewed : (cells view).max .one = cells view := by
    rw [one_eq_cells, max_cells, max_eq_left positive]
  unfold scrollableAllocatedWidths
  simp only [viewed, same]
  match bases, length, wide with
  | [], length, wide => exact ⟨[], rfl, length, wide⟩
  | [_], length, _ => exact ⟨[view], rfl, length, by simpa using positive⟩
  | [a, b], length, wide =>
      simp only [List.map_cons, List.map_nil, add_cells, half_over]
      split_ifs with fits
      · rcases allocatedPair_cells (of_decide_eq_true fits) with
          ⟨first, second, pair, moreA, moreB, _⟩
        refine ⟨[first, second], pair, length, ?_⟩
        simp only [List.forall_mem_cons, List.not_mem_nil, false_implies, implies_true,
          and_true] at wide ⊢
        exact ⟨wide.1.trans moreA, wide.2.trans moreB⟩
      · exact ⟨[a, b], rfl, length, wide⟩
  | a :: b :: c :: rest, length, wide => exact ⟨a :: b :: c :: rest, rfl, length, wide⟩

theorem scrollableAllocatedWidths_pair (positive : 1 ≤ view) {first second : PaneId × F32}
    {a b : Int} (columnA : exact.scrollableColumnWidth (cells view) first.2 = cells a)
    (columnB : exact.scrollableColumnWidth (cells view) second.2 = cells b)
    (fits : a + b + usable ≤ view) :
    ∃ left right : Int,
      exact.scrollableAllocatedWidths [first, second] (cells view) (cells usable) =
        [left, right].map cells ∧ left + usable + right = view := by
  have viewed : (cells view).max .one = cells view := by
    rw [one_eq_cells, max_cells, max_eq_left positive]
  rcases allocatedPair_cells fits with ⟨left, right, pair, _, _, whole⟩
  refine ⟨left, right, ?_, whole⟩
  simp only [scrollableAllocatedWidths, viewed, List.map_cons, List.map_nil, columnA, columnB,
    add_cells, half_over]
  rw [if_pos (decide_eq_true fits)]
  simpa only [add_cells] using pair

end widths

section scrolled

theorem getD_cells (items : List Int) (index : Nat) :
    (items.map cells).getD index (cells 0) = cells (items.getD index 0) := by
  rw [List.getD_eq_getElem?_getD, List.getElem?_map, List.getD_eq_getElem?_getD]
  cases items[index]? <;> rfl

theorem columnStarts_cells (usable start width : Int) (rest : List Int) :
    columnStarts exact (cells usable) (cells start) ((width :: rest).map cells) =
      ((lay usable start (width :: rest)).map Prod.fst ++
        [start + (width :: rest).sum + usable * rest.length]).map cells := by
  induction rest generalizing start width with
  | nil =>
      simp only [List.map_cons, List.map_nil, columnStarts, List.isEmpty_nil, if_true,
        zero_eq_cells, add_cells, lay]
      simp
  | cons next rest ih =>
      rw [List.map_cons, columnStarts]
      simp only [List.map_cons, List.isEmpty_cons, Bool.false_eq_true, if_false, add_cells] at ih ⊢
      rw [ih, lay, List.map_cons, List.cons_append, List.map_cons]
      have finish : start + width + usable + (next :: rest).sum + usable * rest.length =
          start + (width :: next :: rest).sum + usable * (next :: rest).length := by
        push_cast [List.sum_cons, List.length_cons]
        ring
      rw [finish]
      rfl

def anchorIndex (panes : List (PaneId × F32)) (anchor : Option PaneId) : Nat :=
  (anchor.bind fun id => panes.findIdx? fun pane => pane.1 == id).getD 0

def scrollCells (layout visible : Cells) (edge : ScrollableRevealEdge)
    (stripW anchorStart anchorWidth : Int) : Int :=
  if stripW ≤ visible.w then layout.x - visible.x
  else
    let desired := match edge with
      | .left => layout.x + anchorStart - visible.x
      | .right => layout.x + (anchorStart + anchorWidth) - (visible.x + visible.w)
      | .leftOffset cells => layout.x + anchorStart - visible.x - cells
    max (layout.x - visible.x) (min desired (layout.x + stripW - (visible.x + visible.w)))

theorem scrollableScroll_cells {layout visible : Cells} (shown : 1 ≤ visible.w)
    (panes : List (PaneId × F32)) (anchor : Option PaneId) (edge : ScrollableRevealEdge)
    (widths starts : List Int) (stripW : Int) (last : starts.getLastD 0 = stripW) :
    exact.scrollableScroll panes layout.rect visible.rect anchor edge (widths.map cells)
        (starts.map cells) =
      cells (scrollCells layout visible edge stripW
        (starts.getD (anchorIndex panes anchor) 0) (widths.getD (anchorIndex panes anchor) 0)) := by
  have strip : (starts.map cells).getLastD .zero = cells stripW := by
    rw [← last, zero_eq_cells, List.getLastD_eq_getLast?, List.getLastD_eq_getLast?,
      List.getLast?_map]
    cases starts.getLast? <;> rfl
  have right : max visible.w 1 = visible.w := max_eq_left shown
  have width : max (visible.x + visible.w - visible.x) 1 = visible.w := by omega
  have offset : ∀ n : Int, exact.ofInt n = cells n := fun _ => rfl
  unfold scrollableScroll scrollCells anchorIndex
  rw [strip]
  simp only [rect, one_eq_cells, max_cells, right, add_cells, sub_cells, width, half_over,
    decide_eq_true_eq, zero_eq_cells, getD_cells, min_cells, offset]
  split_ifs with fits
  · rfl
  · have ordered : layout.x - visible.x ≤ layout.x + stripW - (visible.x + visible.w) := by omega
    rw [min_eq_left ordered, max_eq_left ordered]
    cases edge <;> exact clamp_cells _ ordered

end scrolled

section placed

variable {panes : List (PaneId × F32)} {layout visible : Cells} {width : Int} {rest : List Int}

def stripLength (usable : Int) (widths : List Int) : Int :=
  widths.sum + usable * (widths.length - 1 : Nat)

def stripStarts (usable : Int) (widths : List Int) : List Int :=
  (lay usable 0 widths).map Prod.fst ++ [stripLength usable widths]

theorem allocateScrollable_cells (some' : panes ≠ []) (shown : 1 ≤ visible.w) (gap : CellGap)
    (anchor : Option PaneId) (edge : ScrollableRevealEdge) {widths : List Int}
    (allocated : exact.scrollableAllocatedWidths panes (cells layout.w)
      (cells (usableGap gap.horizontal layout.w)) = widths.map cells)
    (length : widths.length = panes.length) :
    exact.allocateScrollableWithVisible panes layout.rect visible.rect gap.tileGap anchor edge =
      ((panes.map Prod.fst).zip (lay (usableGap gap.horizontal layout.w)
        (layout.x - scrollCells layout visible edge
          (stripLength (usableGap gap.horizontal layout.w) widths)
          ((stripStarts (usableGap gap.horizontal layout.w) widths).getD (anchorIndex panes anchor)
            0)
          (widths.getD (anchorIndex panes anchor) 0)) widths)).map fun entry =>
            placeAt entry.1 (layout.cut .horizontal entry.2).rect := by
  have starts : exact.columnStarts (cells (usableGap gap.horizontal layout.w)) (cells 0)
      (widths.map cells) =
        (stripStarts (usableGap gap.horizontal layout.w) widths).map cells := by
    cases widths with
    | nil => exact absurd (List.eq_nil_of_length_eq_zero length.symm) some'
    | cons width rest =>
        rw [columnStarts_cells, stripStarts, stripLength, zero_add]
        rfl
  have last : (stripStarts (usableGap gap.horizontal layout.w) widths).getLastD 0 =
      stripLength (usableGap gap.horizontal layout.w) widths :=
    List.getLastD_concat
  have usable : (if (gap.tileGap.forAxis .horizontal).lt layout.rect.w then
      gap.tileGap.forAxis .horizontal else F32.zero) =
        cells (usableGap gap.horizontal layout.w) := usable_cells _ _
  have across : layout.rect.w = cells layout.w := rfl
  have none : ¬panes.isEmpty = true := by simpa using some'
  unfold allocateScrollableWithVisible
  rw [if_neg none]
  simp only [usable]
  rw [across, allocated, zero_eq_cells, starts, scrollableScroll_cells shown panes anchor edge
    widths _ _ last]
  generalize scrollCells layout visible edge (stripLength (usableGap gap.horizontal layout.w)
    widths) _ _ = scroll
  generalize usableGap gap.horizontal layout.w = u
  apply List.ext_getElem
  · simp [length_lay, length]
  · intro index there listed
    have inside : index < panes.length := by simpa using there
    have segment : index < (lay u 0 widths).length := by
      rw [length_lay, length]
      exact inside
    have size := size_lay u 0 widths segment
    have start : (stripStarts u widths).getD index 0 = (lay u 0 widths)[index].1 := by
      rw [stripStarts, List.getD_eq_getElem?_getD, List.getElem?_append_left (by
        rw [List.length_map]; exact segment), List.getElem?_map,
        List.getElem?_eq_getElem segment]
      rfl
    have shifted := lay_shift u 0 (layout.x - scroll) widths
    rw [zero_add] at shifted
    have corner : layout.x + (lay u 0 widths)[index].1 - scroll =
        (lay u 0 widths)[index].1 + (layout.x - scroll) := by ring
    simp only [List.getElem_mapIdx, List.getElem_map, List.getElem_zip, shifted, getD_cells, start, size,
      rect, add_cells, sub_cells, corner, cut, Cells.segment]

theorem anchorIndex_lt (some' : panes ≠ []) (anchor : Option PaneId) :
    anchorIndex panes anchor < panes.length := by
  unfold anchorIndex
  cases found : anchor.bind fun id => panes.findIdx? fun pane => pane.1 == id with
  | none => exact List.length_pos_of_ne_nil some'
  | some index =>
      rcases Option.bind_eq_some_iff.mp found with ⟨id, _, position⟩
      exact (List.findIdx?_eq_some_iff_getElem.mp position).choose

/-- The first part of a strip a view starts with: it shows no blank, and the column it follows. -/
theorem scrollCells_shows (edge : ScrollableRevealEdge) {stripW anchorStart anchorWidth : Int}
    (beyond : visible.w < stripW) :
    layout.x - scrollCells layout visible edge stripW anchorStart anchorWidth ≤ visible.x ∧
      visible.x + visible.w ≤
        layout.x - scrollCells layout visible edge stripW anchorStart anchorWidth + stripW ∧
      (edge = .left ∨ edge = .right → 0 ≤ anchorStart → anchorStart + anchorWidth ≤ stripW →
        anchorWidth ≤ visible.w →
        visible.x ≤ layout.x - scrollCells layout visible edge stripW anchorStart anchorWidth +
            anchorStart ∧
          layout.x - scrollCells layout visible edge stripW anchorStart anchorWidth +
            anchorStart + anchorWidth ≤ visible.x + visible.w) := by
  have scrolled : ¬stripW ≤ visible.w := not_le.mpr beyond
  have between : ∀ desired : Int, layout.x - visible.x ≤
        max (layout.x - visible.x) (min desired (layout.x + stripW - (visible.x + visible.w))) ∧
      max (layout.x - visible.x) (min desired (layout.x + stripW - (visible.x + visible.w))) ≤
        layout.x + stripW - (visible.x + visible.w) := fun desired => by omega
  unfold scrollCells
  simp only [if_neg scrolled]
  refine ⟨?_, ?_, ?_⟩
  · have low := (between (match edge with
      | .left => layout.x + anchorStart - visible.x
      | .right => layout.x + (anchorStart + anchorWidth) - (visible.x + visible.w)
      | .leftOffset cells => layout.x + anchorStart - visible.x - cells)).1
    linarith
  · have high := (between (match edge with
      | .left => layout.x + anchorStart - visible.x
      | .right => layout.x + (anchorStart + anchorWidth) - (visible.x + visible.w)
      | .leftOffset cells => layout.x + anchorStart - visible.x - cells)).2
    linarith
  · rintro (rfl | rfl) low high narrow <;> constructor <;> simp only <;> omega

end placed

/-- The strip shows no hole, and the column its view follows. -/
theorem scrollable_strip {panes : List (PaneId × F32)} (some' : panes ≠ [])
    {layout visible : Cells} (wide : 1 ≤ layout.w) (shown : 1 ≤ visible.w) {gap : CellGap}
    (within : gap.horizontal ∈ [-1, 0, 1]) (anchor : Option PaneId)
    (edge : ScrollableRevealEdge) :
    ∃ (columns : List (Int × Int)) (left right : Int),
      exact.allocateScrollableWithVisible panes layout.rect visible.rect gap.tileGap anchor edge =
        ((panes.map Prod.fst).zip columns).map
          (fun entry => placeAt entry.1 (layout.cut .horizontal entry.2).rect) ∧
      columns.length = panes.length ∧
      Tiles left (right - left) (usableGap gap.horizontal layout.w) columns ∧
      (right - left ≤ visible.w → left = visible.x) ∧
      (visible.w < right - left → left ≤ visible.x ∧ visible.x + visible.w ≤ right) ∧
      (visible.w < right - left → edge = .left ∨ edge = .right →
        ∀ column ∈ columns[anchorIndex panes anchor]?, column.2 ≤ visible.w →
          visible.x ≤ column.1 ∧ column.1 + column.2 ≤ visible.x + visible.w) ∧
      (∀ first second a b, panes = [first, second] →
        exact.scrollableColumnWidth (cells layout.w) first.2 = cells a →
        exact.scrollableColumnWidth (cells layout.w) second.2 = cells b →
        a + b + usableGap gap.horizontal layout.w ≤ layout.w →
        right - left = layout.w) := by
  have sizes : ∃ widths : List Int, exact.scrollableAllocatedWidths panes (cells layout.w)
      (cells (usableGap gap.horizontal layout.w)) = widths.map cells ∧ _ :=
    scrollableAllocatedWidths_cells wide
  rcases sizes with ⟨widths, allocated, length, positive⟩
  have overlap : -1 ≤ usableGap gap.horizontal layout.w := by
    simp only [List.mem_cons, List.not_mem_nil, or_false] at within
    unfold usableGap
    split_ifs <;> omega
  have column : anchorIndex panes anchor < widths.length := length.symm ▸ anchorIndex_lt some' anchor
  rw [allocateScrollable_cells some' shown gap anchor edge allocated length]
  generalize fallen : scrollCells layout visible edge
    (stripLength (usableGap gap.horizontal layout.w) widths) _ _ = scroll
  have inside : anchorIndex panes anchor <
      (lay (usableGap gap.horizontal layout.w) 0 widths).length := by
    rw [length_lay]
    exact column
  have start : (stripStarts (usableGap gap.horizontal layout.w) widths).getD
      (anchorIndex panes anchor) 0 =
        (lay (usableGap gap.horizontal layout.w) 0 widths)[anchorIndex panes anchor].1 := by
    rw [stripStarts, List.getD_eq_getElem?_getD, List.getElem?_append_left (by
      rw [List.length_map]; exact inside), List.getElem?_map, List.getElem?_eq_getElem inside]
    rfl
  rw [start, ← size_lay _ 0 widths inside] at fallen
  have bounds := lay_within overlap positive 0 _ (List.getElem_mem inside)
  rw [zero_add] at bounds
  have tiles : Tiles (layout.x - scroll) (stripLength (usableGap gap.horizontal layout.w) widths)
      (usableGap gap.horizontal layout.w)
      (lay (usableGap gap.horizontal layout.w) (layout.x - scroll) widths) := by
    have positive : 0 < widths.length := by omega
    exact tiles_lay _ (Nat.succ_pred_eq_of_pos positive).symm rfl
  refine ⟨_, layout.x - scroll,
    layout.x - scroll + stripLength (usableGap gap.horizontal layout.w) widths, rfl,
    by rw [length_lay, length], by rw [add_sub_cancel_left]; exact tiles, ?_, ?_, ?_, ?_⟩
  · intro fits
    rw [add_sub_cancel_left] at fits
    have unmoved : scroll = layout.x - visible.x := by
      rw [← fallen]
      exact if_pos fits
    rw [unmoved, sub_sub_cancel]
  · intro beyond
    rw [add_sub_cancel_left] at beyond
    rcases (scrollCells_shows edge beyond :
      layout.x - scrollCells layout visible edge _ _ _ ≤ _ ∧ _) with ⟨left, right, _⟩
    rw [fallen] at left right
    exact ⟨left, right⟩
  · intro beyond followed shownColumn listed narrow
    rw [add_sub_cancel_left] at beyond
    have shifted := lay_shift (usableGap gap.horizontal layout.w) 0 (layout.x - scroll) widths
    rw [zero_add] at shifted
    rw [shifted, List.getElem?_map, List.getElem?_eq_getElem inside, Option.map_some,
      Option.mem_def, Option.some.injEq] at listed
    rcases (scrollCells_shows edge beyond :
      layout.x - scrollCells layout visible edge _ _ _ ≤ _ ∧ _) with ⟨_, _, follow⟩
    have both := follow followed bounds.1 bounds.2
    rw [fallen] at both
    rw [← listed] at narrow ⊢
    rcases both narrow with ⟨left, right⟩
    exact ⟨by simp only; linarith, by simp only; linarith⟩
  · intro first second a b pair columnA columnB fits
    rcases scrollableAllocatedWidths_pair wide columnA columnB fits with
      ⟨left, right, same, whole⟩
    rw [pair, same] at allocated
    have injective : Function.Injective cells := fun a b => cells_inj.mp
    obtain rfl := List.map_injective_iff.mpr injective allocated
    rw [add_sub_cancel_left]
    simp only [stripLength, List.sum_cons, List.sum_nil, List.length_cons, List.length_nil]
    push_cast
    linarith

theorem scrollable_strip_three :
    ∃ (columns : List (Int × Int)) (left right : Int),
      exact.allocateScrollableWithVisible
          [(4, .finite (1 / 2)), (5, .finite (1 / 2)), (6, .finite (1 / 2))]
          (Cells.mk 0 0 20 5).rect (Cells.mk 0 0 20 5).rect (CellGap.mk 1 1).tileGap (some 6)
          .left =
        (([4, 5, 6] : List PaneId).zip columns).map
          (fun entry => placeAt entry.1 ((Cells.mk 0 0 20 5).cut .horizontal entry.2).rect) ∧
      columns.length = 3 ∧ Tiles left (right - left) 1 columns := by
  rcases scrollable_strip (show [((4 : PaneId), F32.finite (1 / 2)), (5, .finite (1 / 2)),
    (6, .finite (1 / 2))] ≠ [] by simp) (show 1 ≤ (Cells.mk 0 0 20 5).w by decide)
    (show 1 ≤ (Cells.mk 0 0 20 5).w by decide)
    (show (CellGap.mk 1 1).horizontal ∈ [-1, 0, 1] by decide) (some 6) .left with
    ⟨columns, left, right, placed, length, tiles, _⟩
  exact ⟨columns, left, right, placed, length, tiles⟩

/-- In a layout one cell wide the gap is dropped, and the columns touch. -/
theorem strip_of_dropped_gap :
    exact.allocateScrollableWithVisible [(4, .finite (1 / 2)), (5, .finite (1 / 2))]
        (Cells.mk 0 0 1 5).rect (Cells.mk 0 0 1 5).rect (CellGap.mk 1 1).tileGap none .left =
      [placeAt 4 (Cells.mk 0 0 1 5).rect, placeAt 5 (Cells.mk 1 0 1 5).rect] ∧
      (1 : Int) ≠ 0 + 1 + 1 := by
  decide +kernel

end Rozi
