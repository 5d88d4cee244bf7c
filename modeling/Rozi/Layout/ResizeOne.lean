import Rozi.Layout.ResizeTouch

/-!
Dragging one divider moves that divider only.
-/

namespace Rozi

open SerializedTree F32 Cells

section edges

variable {axis : SplitAxis} {gap : CellGap} {tree : DwindleTree} {area : Cells}

theorem mem_reachesTrailing : true ∈ reachesTrailing axis tree := by
  induction tree with
  | leaf id => exact List.mem_singleton_self _
  | split splitAxis ratio first second hfirst hsecond =>
      rw [reachesTrailing]
      split
      · exact List.mem_append_right _ hsecond
      · exact List.mem_append_left _ hfirst

theorem mem_reachesLeading : true ∈ reachesLeading axis tree := by
  induction tree with
  | leaf id => exact List.mem_singleton_self _
  | split splitAxis ratio first second hfirst hsecond =>
      rw [reachesLeading]
      split
      · exact List.mem_append_left _ hfirst
      · exact List.mem_append_left _ hfirst

theorem mem_zip_none {ids : List PaneId} {placed : List (PaneId × Cells)}
    {leaf : Bool × PaneId × Cells} (member : leaf ∈ (ids.map fun _ => false).zip placed) :
    leaf.1 = false := by
  have left := (List.of_mem_zip member).1
  rcases List.mem_map.mp left with ⟨_, _, same⟩
  exact same.symm

theorem reachesTrailing_edge (positive : 0 ≤ area.extent axis) :
    ∀ leaf ∈ (reachesTrailing axis tree).zip (placeCells gap tree area), leaf.1 = true →
      leaf.2.2.start axis + leaf.2.2.extent axis = area.start axis + area.extent axis := by
  induction tree generalizing area with
  | leaf id =>
      intro leaf member _
      rw [List.mem_singleton.mp member]
  | split splitAxis ratio first second hfirst hsecond =>
      rw [reachesTrailing, placeCells]
      intro leaf member reaches
      split at member
      · rename_i same
        subst same
        rw [List.zip_append (by rw [List.length_map, length_placeCells])] at member
        rcases List.mem_append.mp member with low | high
        · rw [mem_zip_none low] at reaches
          cases reaches
        · rw [hsecond divide_extents.2 leaf high reaches]
          have whole : area.available splitAxis gap = area.extent splitAxis -
            usableGap (gap.forAxis splitAxis) (area.extent splitAxis) := available_of_positive positive
          cases splitAxis
          · simp only [divide, Cells.segment, extent, start] at *
            omega
          · simp only [divide, Cells.segment, extent, start] at *
            omega
      · rename_i across
        have parts : (area.divide splitAxis ratio gap).1.extent axis = area.extent axis ∧
            (area.divide splitAxis ratio gap).2.extent axis = area.extent axis ∧ _ :=
          divide_across across
        rcases parts with ⟨left, right, one, two⟩
        rw [List.zip_append (by rw [length_reachesTrailing, length_placeCells])] at member
        rcases List.mem_append.mp member with low | high
        · rw [hfirst (left ▸ positive) leaf low reaches, left, one]
        · rw [hsecond (right ▸ positive) leaf high reaches, right, two]

theorem reachesLeading_edge :
    ∀ leaf ∈ (reachesLeading axis tree).zip (placeCells gap tree area), leaf.1 = true →
      leaf.2.2.start axis = area.start axis := by
  induction tree generalizing area with
  | leaf id =>
      intro leaf member _
      rw [List.mem_singleton.mp member]
  | split splitAxis ratio first second hfirst hsecond =>
      rw [reachesLeading, placeCells]
      intro leaf member reaches
      split at member
      · rename_i same
        subst same
        rw [List.zip_append (by rw [length_reachesLeading, length_placeCells])] at member
        rcases List.mem_append.mp member with low | high
        · rw [hfirst leaf low reaches]
          cases splitAxis <;> rfl
        · rw [mem_zip_none high] at reaches
          cases reaches
      · rename_i across
        have parts : _ ∧ _ ∧ (area.divide splitAxis ratio gap).1.start axis = area.start axis ∧
            (area.divide splitAxis ratio gap).2.start axis = area.start axis :=
          divide_across across
        rcases parts with ⟨_, _, one, two⟩
        rw [List.zip_append (by rw [length_reachesLeading, length_placeCells])] at member
        rcases List.mem_append.mp member with low | high
        · rw [hfirst leaf low reaches, one]
        · rw [hsecond leaf high reaches, two]

end edges

def DividerRoom (gap : CellGap) (axis : SplitAxis) (ratio : F32) (first second : DwindleTree)
    (area : Cells) (signed : Int) : Prop :=
  TrailingRoom gap axis signed first (area.divide axis ratio gap).1 ∧
    LeadingRoom gap axis (-signed) second (area.divide axis ratio gap).2

namespace Arithmetic

variable {gap : CellGap} {axis : SplitAxis} {ratio : F32} {first second : DwindleTree}
  {area : Cells} {signed : Int}

theorem round_cells (n : Int) : exact.round (cells n) = cells n := by
  simp only [exact, cells, F32.toWhole, nearest_intCast]

theorem clampSplitRatio_idem (ratio : F32) :
    clampSplitRatio (clampSplitRatio ratio) = clampSplitRatio ratio := by
  rw [clampSplitRatio_eq ratio]
  exact clampSplitRatio_fixed.mpr (splitShare_within ratio)

theorem moved_ratio {target : Int}
    (unclamped : exact.cellSplitRatio (cells target)
        (exact.usableAxisExtent (area.rect.extent axis) axis gap.tileGap) =
      exact.div (exact.round (cells target))
        ((exact.usableAxisExtent (area.rect.extent axis) axis gap.tileGap).max .one)) :
    1 ≤ area.available axis gap ∧
      firstShare (area.available axis gap) (exact.cellSplitRatio (cells target)
        (exact.usableAxisExtent (area.rect.extent axis) axis gap.tileGap)) = target := by
  have clamped : clampSplitRatio (exact.cellSplitRatio (cells target)
      (exact.usableAxisExtent (area.rect.extent axis) axis gap.tileGap)) =
      exact.cellSplitRatio (cells target)
        (exact.usableAxisExtent (area.rect.extent axis) axis gap.tileGap) := clampSplitRatio_idem _
  have held : exact.div (cells target)
      ((exact.usableAxisExtent (area.rect.extent axis) axis gap.tileGap).max .one) =
        .finite (target / max (area.available axis gap : Rat) 1) := heldRatio_cells target
  rw [unclamped, round_cells, held] at clamped ⊢
  exact firstShare_held available_nonneg clamped

theorem divide_moved {raw : F32}
    (share : firstShare (area.available axis gap) raw =
      (area.divide axis ratio gap).1.extent axis + signed) :
    area.divide axis raw gap =
      ((area.divide axis ratio gap).1.grown axis signed,
        (area.divide axis ratio gap).2.led axis (-signed)) := by
  rw [divide_extent] at share
  unfold divide
  rw [share]
  cases axis with
  | horizontal =>
      simp only [grown, led, Cells.segment, extent, start, Prod.mk.injEq, Cells.mk.injEq, true_and,
        and_true]
      omega
  | vertical =>
      simp only [grown, led, Cells.segment, extent, start, Prod.mk.injEq, Cells.mk.injEq, true_and]
      omega

/-- A divider that moves takes along the edges of the leaves that reach it, and nothing else. -/
theorem moveDivider_places
    (unclamped : exact.DividerUnclamped gap.tileGap axis ratio first second area.rect (cells signed))
    (room : DividerRoom gap axis ratio first second area signed) :
    placeCells gap (exact.moveDivider gap.tileGap axis ratio first second area.rect (cells signed))
        area =
      List.zipWith (dragged (grown axis signed)) (reachesTrailing axis first)
          (placeCells gap first (area.divide axis ratio gap).1) ++
        List.zipWith (dragged (led axis (-signed))) (reachesLeading axis second)
          (placeCells gap second (area.divide axis ratio gap).2) := by
  unfold DividerUnclamped at unclamped
  unfold moveDivider
  dsimp only at unclamped ⊢
  have before : (exact.splitFloatRect area.rect axis ratio gap.tileGap).1.extent axis =
      cells ((area.divide axis ratio gap).1.extent axis) := by
    rw [splitFloatRect_cells, rect_extent]
  rw [before, add_cells] at unclamped ⊢
  rcases unclamped with ⟨whole, left, right⟩
  rcases moved_ratio whole with ⟨_, share⟩
  generalize exact.cellSplitRatio _ _ = raw at share left right ⊢
  have divided := divide_moved share
  have delta : exact.sub (((area.divide axis ratio gap).1.grown axis signed).rect.extent axis)
      (cells ((area.divide axis ratio gap).1.extent axis)) = cells signed := by
    rw [rect_extent, grown_extent, sub_cells, add_sub_cancel_left]
  have opposite : (cells signed).neg = cells (-signed) := by
    simp only [cells, F32.neg, Int.cast_neg]
  rw [splitFloatRect_cells, divided] at left right ⊢
  dsimp only at left right ⊢
  rw [delta] at left right ⊢
  rw [opposite] at right ⊢
  rw [placeCells, divided, holdTrailingDividers_places divide_extents.1 room.1 left,
    holdLeadingDividers_places divide_extents.2 room.2 right]

end Arithmetic

/-- One divider moved by `pixels` away from the focused leaf: the leaves that reach it have that edge
there, and all that differs between the leaves before and after is that edge. -/
def DividerDragged (gap : CellGap) (axis : SplitAxis) (focused : PaneId) (pixels : Int)
    (old new : List (PaneId × Cells)) : Prop :=
  ∃ ratio first second slot front back signed,
    old = front ++ placeCells gap (split axis ratio first second) slot ++ back ∧
    new = front ++ (List.zipWith (dragged (grown axis signed)) (reachesTrailing axis first)
        (placeCells gap first (slot.divide axis ratio gap).1) ++
      List.zipWith (dragged (led axis (-signed))) (reachesLeading axis second)
        (placeCells gap second (slot.divide axis ratio gap).2)) ++ back ∧
    (∀ leaf ∈ (reachesTrailing axis first).zip (placeCells gap first (slot.divide axis ratio gap).1),
      leaf.1 = true → leaf.2.2.start axis + leaf.2.2.extent axis =
        (slot.divide axis ratio gap).1.start axis + (slot.divide axis ratio gap).1.extent axis) ∧
    (∀ leaf ∈ (reachesLeading axis second).zip (placeCells gap second (slot.divide axis ratio gap).2),
      leaf.1 = true → leaf.2.2.start axis = (slot.divide axis ratio gap).2.start axis) ∧
    true ∈ reachesTrailing axis first ∧ true ∈ reachesLeading axis second ∧
    ((signed = pixels ∧ focused ∈ first.leaves) ∨ (signed = -pixels ∧ focused ∈ second.leaves))

theorem DividerDragged.within {gap : CellGap} {axis : SplitAxis} {focused : PaneId} {pixels : Int}
    {old new : List (PaneId × Cells)} (moved : DividerDragged gap axis focused pixels old new)
    (before after : List (PaneId × Cells)) :
    DividerDragged gap axis focused pixels (before ++ old ++ after) (before ++ new ++ after) := by
  rcases moved with ⟨ratio, first, second, slot, front, back, signed, rfl, rfl, facts⟩
  exact ⟨ratio, first, second, slot, before ++ front, back ++ after, signed, by simp, by simp, facts⟩

def AtDivider (gap : CellGap) (focused : PaneId) (targetAxis : SplitAxis) (edge : Option SplitEdge)
    (pixels : Int) (holds : F32 → DwindleTree → DwindleTree → Cells → Int → Prop) :
    DwindleTree → Cells → Prop
  | leaf _, _ => True
  | split axis ratio first second, area =>
      let sides := area.divide axis ratio gap
      let resized := Arithmetic.exact.resizeSplitInTree gap.tileGap focused targetAxis edge
        (cells pixels)
      if treeContains first focused then
        if (resized first sides.1.rect).1 then
          AtDivider gap focused targetAxis edge pixels holds first sides.1
        else axis = targetAxis → holds ratio first second area pixels
      else if treeContains second focused then
        if (resized second sides.2.rect).1 then
          AtDivider gap focused targetAxis edge pixels holds second sides.2
        else axis = targetAxis → holds ratio first second area (-pixels)
      else True

section tree

variable {gap : CellGap} {focused : PaneId} {axis : SplitAxis} {edge : Option SplitEdge}
  {pixels : Int}

open Arithmetic

theorem moveDivider_dragged {ratio : F32} {first second : DwindleTree} {area : Cells} {signed : Int}
    (unclamped : exact.DividerUnclamped gap.tileGap axis ratio first second area.rect (cells signed))
    (room : DividerRoom gap axis ratio first second area signed)
    (side : (signed = pixels ∧ focused ∈ first.leaves) ∨
      (signed = -pixels ∧ focused ∈ second.leaves)) :
    DividerDragged gap axis focused pixels (placeCells gap (split axis ratio first second) area)
      (placeCells gap
        (exact.moveDivider gap.tileGap axis ratio first second area.rect (cells signed)) area) := by
  refine ⟨ratio, first, second, area, [], [], signed, ?_, ?_, reachesTrailing_edge divide_extents.1,
    reachesLeading_edge, mem_reachesTrailing, mem_reachesLeading, side⟩
  · rw [List.nil_append, List.append_nil]
  · rw [moveDivider_places unclamped room, List.nil_append, List.append_nil]

theorem resizeSplitInTree_dragged {tree : DwindleTree} {area : Cells}
    (resized : (exact.resizeSplitInTree gap.tileGap focused axis edge (cells pixels) tree
      area.rect).1 = true)
    (unclamped : AtDivider gap focused axis edge pixels (fun ratio first second slot signed =>
      exact.DividerUnclamped gap.tileGap axis ratio first second slot.rect (cells signed)) tree area)
    (room : AtDivider gap focused axis edge pixels (DividerRoom gap axis) tree area) :
    DividerDragged gap axis focused pixels (placeCells gap tree area)
      (placeCells gap (exact.resizeSplitInTree gap.tileGap focused axis edge (cells pixels) tree
        area.rect).2 area) := by
  induction tree generalizing area with
  | leaf id => cases resized
  | split splitAxis ratio first second hfirst hsecond =>
      rw [resizeSplitInTree] at resized ⊢
      rw [AtDivider] at unclamped room
      dsimp only at resized unclamped room ⊢
      rw [splitFloatRect_cells] at resized ⊢
      dsimp only at resized ⊢
      by_cases inFirst : treeContains first focused = true
      · rw [if_pos inFirst] at resized unclamped room ⊢
        by_cases deeper : (exact.resizeSplitInTree gap.tileGap focused axis edge (cells pixels)
            first (area.divide splitAxis ratio gap).1.rect).1 = true
        · rw [if_pos deeper] at unclamped room ⊢
          have moved := (hfirst deeper unclamped room).within []
            (placeCells gap second (area.divide splitAxis ratio gap).2)
          simpa [placeCells] using moved
        · rw [if_neg deeper] at resized unclamped room ⊢
          have same := resizeSplitInTree_refused (Bool.eq_false_iff.mpr deeper)
          rw [same]
          split at resized
          · cases resized
          · rename_i qualifies
            rw [if_neg qualifies]
            have target : splitAxis = axis := by
              by_contra other
              exact qualifies (.inl other)
            subst target
            exact moveDivider_dragged (unclamped rfl) (room rfl)
              (.inl ⟨rfl, (treeContains_iff first focused).mp inFirst⟩)
      · rw [if_neg inFirst] at resized unclamped room ⊢
        by_cases inSecond : treeContains second focused = true
        · rw [if_pos inSecond] at resized unclamped room ⊢
          by_cases deeper : (exact.resizeSplitInTree gap.tileGap focused axis edge (cells pixels)
              second (area.divide splitAxis ratio gap).2.rect).1 = true
          · rw [if_pos deeper] at unclamped room ⊢
            have moved := (hsecond deeper unclamped room).within
              (placeCells gap first (area.divide splitAxis ratio gap).1) []
            simpa [placeCells] using moved
          · rw [if_neg deeper] at resized unclamped room ⊢
            have same := resizeSplitInTree_refused (Bool.eq_false_iff.mpr deeper)
            rw [same]
            split at resized
            · cases resized
            · rename_i qualifies
              rw [if_neg qualifies]
              have target : splitAxis = axis := by
                by_contra other
                exact qualifies (.inl other)
              subst target
              have opposite : (cells pixels).neg = cells (-pixels) := by
                simp only [cells, F32.neg, Int.cast_neg]
              rw [opposite]
              exact moveDivider_dragged (unclamped rfl) (room rfl)
                (.inr ⟨rfl, (treeContains_iff second focused).mp inSecond⟩)
        · rw [if_neg inSecond] at resized
          cases resized

end tree

/-- Where no ratio is clamped and no gap along the divider comes or goes, only that divider moves, by
the cells asked for; and a drag that is refused leaves the tree alone. -/
theorem resize_moves_one_divider (gap : CellGap) (focused : PaneId) (axis : SplitAxis)
    (edge : Option SplitEdge) (pixels : Int) (tree : DwindleTree) (area : Cells) :
    let resized := Arithmetic.exact.resizeSplitInTree gap.tileGap focused axis edge (cells pixels)
      tree area.rect
    (resized.1 = false → resized.2 = tree) ∧
    (resized.1 = true →
      AtDivider gap focused axis edge pixels (fun ratio first second slot signed =>
        Arithmetic.exact.DividerUnclamped gap.tileGap axis ratio first second slot.rect
          (cells signed)) tree area →
      AtDivider gap focused axis edge pixels (DividerRoom gap axis) tree area →
      ∃ old new, DividerDragged gap axis focused pixels old new ∧
        Arithmetic.exact.allocateDwindle tree area.rect gap.tileGap =
          old.map (fun leaf => placeAt leaf.1 leaf.2.rect) ∧
        Arithmetic.exact.allocateDwindle resized.2 area.rect gap.tileGap =
          new.map (fun leaf => placeAt leaf.1 leaf.2.rect)) :=
  ⟨Arithmetic.resizeSplitInTree_refused, fun resized unclamped room =>
    ⟨_, _, resizeSplitInTree_dragged resized unclamped room, allocateDwindle_cells gap _ _,
      allocateDwindle_cells gap _ _⟩⟩

section fixed

open Arithmetic

def quarters : DwindleTree :=
  split .horizontal (.finite (1 / 2)) (split .horizontal (.finite (9 / 19)) (leaf 1) (leaf 2))
    (split .vertical (.finite (1 / 2)) (leaf 3) (leaf 4))

/-- The divider inside the left half stays where it is, at a ratio of its own. -/
theorem resize_moves_one_divider_quarters :
    (∃ old new, DividerDragged ⟨1, 1⟩ .horizontal 3 5 old new ∧
      exact.allocateDwindle quarters (Cells.mk 0 0 41 10).rect (CellGap.mk 1 1).tileGap =
        old.map (fun leaf => placeAt leaf.1 leaf.2.rect) ∧
      exact.allocateDwindle (exact.resizeSplitInTree (CellGap.mk 1 1).tileGap 3 .horizontal none
          (cells 5) quarters (Cells.mk 0 0 41 10).rect).2 (Cells.mk 0 0 41 10).rect
          (CellGap.mk 1 1).tileGap =
        new.map (fun leaf => placeAt leaf.1 leaf.2.rect)) ∧
    (exact.resizeSplitInTree (CellGap.mk 1 1).tileGap 3 .horizontal none (cells 5) quarters
        (Cells.mk 0 0 41 10).rect).2 =
      split .horizontal (.finite (3 / 8))
        (split .horizontal (.finite (9 / 14)) (leaf 1) (leaf 2))
        (split .vertical (.finite (1 / 2)) (leaf 3) (leaf 4)) := by
  refine ⟨(resize_moves_one_divider ⟨1, 1⟩ 3 .horizontal none 5 quarters ⟨0, 0, 41, 10⟩).2
    (by decide +kernel) ?_ ?_, by decide +kernel⟩
  · rw [quarters, AtDivider]
    rw [if_neg (by decide +kernel), if_pos (by decide +kernel), if_neg (by decide +kernel)]
    refine fun _ => ⟨by decide +kernel, ?_, ?_⟩
    · rw [TrailingUnclamped, if_neg (by decide +kernel), if_neg (by decide +kernel)]
      exact ⟨by decide +kernel, trivial, trivial⟩
    · rw [LeadingUnclamped, if_neg (by decide +kernel), if_pos (by decide)]
      exact ⟨trivial, trivial⟩
  · rw [quarters, AtDivider]
    rw [if_neg (by decide +kernel), if_pos (by decide +kernel), if_neg (by decide +kernel)]
    refine fun _ => ⟨?_, ?_⟩
    · rw [TrailingRoom, if_pos rfl]
      exact ⟨by decide +kernel, trivial⟩
    · rw [LeadingRoom, if_neg (by decide)]
      exact ⟨trivial, trivial⟩

/-- A slot that grows past its gap gets one, and the leaf behind it no longer starts where it did. -/
theorem resize_gap_returns :
    (exact.resizeSplitInTree (CellGap.mk 3 3).tileGap 3 .horizontal none (cells (-2))
      (split .horizontal (.finite (3 / 10)) (split .horizontal (.finite (3 / 10)) (leaf 1) (leaf 2))
        (leaf 3)) (Cells.mk 0 0 13 4).rect).1 = true ∧
    AtDivider ⟨3, 3⟩ 3 .horizontal none (-2) (fun ratio first second slot signed =>
      exact.DividerUnclamped (CellGap.mk 3 3).tileGap .horizontal ratio first second slot.rect
        (cells signed))
      (split .horizontal (.finite (3 / 10)) (split .horizontal (.finite (3 / 10)) (leaf 1) (leaf 2))
        (leaf 3)) ⟨0, 0, 13, 4⟩ ∧
    exact.allocateDwindle
        (split .horizontal (.finite (3 / 10)) (split .horizontal (.finite (3 / 10)) (leaf 1) (leaf 2))
          (leaf 3)) (Cells.mk 0 0 13 4).rect (CellGap.mk 3 3).tileGap =
      [placeAt 1 (Cells.mk 0 0 1 4).rect, placeAt 2 (Cells.mk 1 0 2 4).rect,
        placeAt 3 (Cells.mk 6 0 7 4).rect] ∧
    exact.allocateDwindle (exact.resizeSplitInTree (CellGap.mk 3 3).tileGap 3 .horizontal none
        (cells (-2)) (split .horizontal (.finite (3 / 10))
          (split .horizontal (.finite (3 / 10)) (leaf 1) (leaf 2)) (leaf 3))
        (Cells.mk 0 0 13 4).rect).2 (Cells.mk 0 0 13 4).rect (CellGap.mk 3 3).tileGap =
      [placeAt 1 (Cells.mk 0 0 1 4).rect, placeAt 2 (Cells.mk 4 0 1 4).rect,
        placeAt 3 (Cells.mk 8 0 5 4).rect] := by
  refine ⟨by decide +kernel, ?_, by decide +kernel, by decide +kernel⟩
  rw [AtDivider]
  rw [if_neg (by decide +kernel), if_pos (by decide +kernel), if_neg (by decide +kernel)]
  refine fun _ => ⟨by decide +kernel, ?_, trivial⟩
  rw [TrailingUnclamped, if_neg (by decide +kernel), if_neg (by decide +kernel)]
  exact ⟨by decide +kernel, trivial, trivial⟩

end fixed

end Rozi
