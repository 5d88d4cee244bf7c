import Rozi.Layout.ResizeHold

/-!
The leaves that reach the edge of a region, and what becomes of a region whose edge is moved while its
dividers are held.
-/

namespace Rozi

open SerializedTree F32 Cells

def reachesTrailing (axis : SplitAxis) : DwindleTree → List Bool
  | leaf _ => [true]
  | split splitAxis _ first second =>
      if splitAxis = axis then first.leaves.map (fun _ => false) ++ reachesTrailing axis second
      else reachesTrailing axis first ++ reachesTrailing axis second

def reachesLeading (axis : SplitAxis) : DwindleTree → List Bool
  | leaf _ => [true]
  | split splitAxis _ first second =>
      if splitAxis = axis then reachesLeading axis first ++ second.leaves.map (fun _ => false)
      else reachesLeading axis first ++ reachesLeading axis second

/-- Growing the region by `delta` at its trailing edge leaves every gap along that edge used or
dropped as it was. -/
def TrailingRoom (gap : CellGap) (axis : SplitAxis) (delta : Int) : DwindleTree → Cells → Prop
  | leaf _, _ => True
  | split splitAxis ratio first second, area =>
      if splitAxis = axis then
        usableGap (gap.forAxis axis) (area.extent axis + delta) =
          usableGap (gap.forAxis axis) (area.extent axis) ∧
        TrailingRoom gap axis delta second (area.divide splitAxis ratio gap).2
      else
        TrailingRoom gap axis delta first (area.divide splitAxis ratio gap).1 ∧
          TrailingRoom gap axis delta second (area.divide splitAxis ratio gap).2

def LeadingRoom (gap : CellGap) (axis : SplitAxis) (delta : Int) : DwindleTree → Cells → Prop
  | leaf _, _ => True
  | split splitAxis ratio first second, area =>
      if splitAxis = axis then
        usableGap (gap.forAxis axis) (area.extent axis + delta) =
          usableGap (gap.forAxis axis) (area.extent axis) ∧
        LeadingRoom gap axis delta first (area.divide splitAxis ratio gap).1
      else
        LeadingRoom gap axis delta first (area.divide splitAxis ratio gap).1 ∧
          LeadingRoom gap axis delta second (area.divide splitAxis ratio gap).2

def dragged (move : Cells → Cells) (reaches : Bool) (placed : PaneId × Cells) : PaneId × Cells :=
  if reaches then (placed.1, move placed.2) else placed

section lengths

variable {axis : SplitAxis} {gap : CellGap} {tree : DwindleTree} {area : Cells}

theorem length_placeCells : (placeCells gap tree area).length = tree.leaves.length := by
  induction tree generalizing area with
  | leaf id => rfl
  | split splitAxis ratio first second hfirst hsecond =>
      rw [placeCells, List.length_append, hfirst, hsecond, leaves, List.length_append]

theorem length_reachesTrailing : (reachesTrailing axis tree).length = tree.leaves.length := by
  induction tree with
  | leaf id => rfl
  | split splitAxis ratio first second hfirst hsecond =>
      rw [reachesTrailing, leaves, List.length_append]
      split
      · rw [List.length_append, List.length_map, hsecond]
      · rw [List.length_append, hfirst, hsecond]

theorem length_reachesLeading : (reachesLeading axis tree).length = tree.leaves.length := by
  induction tree with
  | leaf id => rfl
  | split splitAxis ratio first second hfirst hsecond =>
      rw [reachesLeading, leaves, List.length_append]
      split
      · rw [List.length_append, List.length_map, hfirst]
      · rw [List.length_append, hfirst, hsecond]

theorem dragged_none (move : Cells → Cells) (ids : List PaneId) (placed : List (PaneId × Cells))
    (same : ids.length = placed.length) :
    List.zipWith (dragged move) (ids.map fun _ => false) placed = placed := by
  induction placed generalizing ids with
  | nil => simp
  | cons first rest ih =>
      cases ids with
      | nil => simp at same
      | cons id ids =>
          rw [List.map_cons, List.zipWith_cons_cons, ih ids (by simpa using same)]
          rfl

theorem dragged_still (move : Cells → Cells) (still : ∀ area, move area = area)
    (reaches : List Bool) (placed : List (PaneId × Cells)) (same : reaches.length = placed.length) :
    List.zipWith (dragged move) reaches placed = placed := by
  induction placed generalizing reaches with
  | nil => simp
  | cons first rest ih =>
      cases reaches with
      | nil => simp at same
      | cons mark reaches =>
          rw [List.zipWith_cons_cons, ih reaches (by simpa using same), dragged, still]
          cases mark <;> rfl

end lengths

section held

variable {gap : CellGap} {axis : SplitAxis} {delta : Int} {area : Cells} {ratio raw : F32}

theorem available_of_positive (positive : 0 ≤ area.extent axis) :
    area.available axis gap =
      area.extent axis - usableGap (gap.forAxis axis) (area.extent axis) := by
  unfold available usableGap
  split_ifs <;> omega

theorem available_nonneg : 0 ≤ area.available axis gap :=
  le_max_right _ _

theorem divide_extents :
    0 ≤ (area.divide axis ratio gap).1.extent axis ∧
      0 ≤ (area.divide axis ratio gap).2.extent axis := by
  have positive : 0 ≤ area.available axis gap := available_nonneg
  rcases firstShare_within positive ratio with ⟨low, high⟩
  cases axis
  · exact ⟨low, sub_nonneg.mpr high⟩
  · exact ⟨low, sub_nonneg.mpr high⟩

theorem divide_across {other : SplitAxis} (across : other ≠ axis) :
    (area.divide other ratio gap).1.extent axis = area.extent axis ∧
      (area.divide other ratio gap).2.extent axis = area.extent axis ∧
      (area.divide other ratio gap).1.start axis = area.start axis ∧
      (area.divide other ratio gap).2.start axis = area.start axis := by
  cases axis <;> cases other <;> first | exact ⟨rfl, rfl, rfl, rfl⟩ | exact absurd rfl across

/-- Held at its cells in a region that grew at the far side, a divider leaves the first part alone. -/
theorem divide_held_trailing (positive : 0 ≤ area.extent axis)
    (room : usableGap (gap.forAxis axis) (area.extent axis + delta) =
      usableGap (gap.forAxis axis) (area.extent axis))
    (some : 1 ≤ (area.grown axis delta).available axis gap)
    (share : firstShare ((area.grown axis delta).available axis gap) raw =
      (area.divide axis ratio gap).1.extent axis) :
    (area.grown axis delta).divide axis raw gap =
      ((area.divide axis ratio gap).1, (area.divide axis ratio gap).2.grown axis delta) := by
  have before : area.available axis gap =
      area.extent axis - usableGap (gap.forAxis axis) (area.extent axis) :=
    available_of_positive positive
  have after : (area.grown axis delta).available axis gap = area.available axis gap + delta := by
    unfold available at some before ⊢
    rw [grown_extent, room] at some ⊢
    omega
  rw [divide_extent] at share
  unfold divide
  rw [share, after, grown_extent, room, grown_start]
  cases axis with
  | horizontal =>
      simp only [grown, Cells.segment, extent, start, Prod.mk.injEq, Cells.mk.injEq, true_and, and_true]
      omega
  | vertical =>
      simp only [grown, Cells.segment, extent, start, Prod.mk.injEq, Cells.mk.injEq, true_and]
      omega

theorem divide_held_leading (positive : 0 ≤ area.extent axis)
    (room : usableGap (gap.forAxis axis) (area.extent axis + delta) =
      usableGap (gap.forAxis axis) (area.extent axis))
    (some : 1 ≤ (area.led axis delta).available axis gap)
    (share : firstShare ((area.led axis delta).available axis gap) raw =
      (area.divide axis ratio gap).1.extent axis + delta) :
    (area.led axis delta).divide axis raw gap =
      ((area.divide axis ratio gap).1.led axis delta, (area.divide axis ratio gap).2) := by
  have before : area.available axis gap =
      area.extent axis - usableGap (gap.forAxis axis) (area.extent axis) :=
    available_of_positive positive
  have after : (area.led axis delta).available axis gap = area.available axis gap + delta := by
    unfold available at some before ⊢
    rw [led_extent, room] at some ⊢
    omega
  rw [divide_extent] at share
  unfold divide
  rw [share, after, led_extent, room, led_start]
  cases axis with
  | horizontal =>
      simp only [led, Cells.segment, extent, start, Prod.mk.injEq, Cells.mk.injEq, true_and, and_true]
      omega
  | vertical =>
      simp only [led, Cells.segment, extent, start, Prod.mk.injEq, Cells.mk.injEq, true_and]
      omega

end held

namespace Arithmetic

variable {gap : CellGap} {axis : SplitAxis}

theorem holdTrailingDividers_zero (tree : DwindleTree) (rect : FloatRect) :
    exact.holdTrailingDividers gap.tileGap axis tree rect (cells 0) = tree := by
  cases tree with
  | leaf id => rfl
  | split splitAxis ratio first second => exact if_pos rfl

theorem holdLeadingDividers_zero (tree : DwindleTree) (rect : FloatRect) :
    exact.holdLeadingDividers gap.tileGap axis tree rect (cells 0) = tree := by
  cases tree with
  | leaf id => rfl
  | split splitAxis ratio first second => exact if_pos rfl

/-- Only the leaves that reach the trailing edge change, and only at that edge. -/
theorem holdTrailingDividers_places {tree : DwindleTree} {area : Cells} {delta : Int}
    (positive : 0 ≤ area.extent axis) (room : TrailingRoom gap axis delta tree area)
    (unclamped : exact.TrailingUnclamped gap.tileGap axis tree (area.grown axis delta).rect
      (cells delta)) :
    placeCells gap (exact.holdTrailingDividers gap.tileGap axis tree (area.grown axis delta).rect
        (cells delta)) (area.grown axis delta) =
      List.zipWith (dragged (grown axis delta)) (reachesTrailing axis tree)
        (placeCells gap tree area) := by
  induction tree generalizing area with
  | leaf id => rfl
  | split splitAxis ratio first second hfirst hsecond =>
      by_cases none : delta = 0
      · subst none
        rw [holdTrailingDividers_zero, grown_zero]
        refine (dragged_still _ (fun area => grown_zero axis area) _ _ ?_).symm
        rw [length_reachesTrailing, length_placeCells]
      have moved : cells delta ≠ .zero := by
        rw [zero_eq_cells, Ne, cells_inj]
        exact none
      rw [holdTrailingDividers, if_neg moved]
      rw [TrailingUnclamped, if_neg moved] at unclamped
      rw [TrailingRoom] at room
      rw [placeCells, reachesTrailing]
      by_cases same : splitAxis = axis
      · subst same
        rw [if_pos rfl] at room
        rw [if_neg (by simp)] at unclamped ⊢
        rw [if_pos rfl]
        dsimp only at unclamped ⊢
        rw [dividerBefore_cells ratio (grown_extent splitAxis delta area), heldRatio_cells]
          at unclamped ⊢
        rcases unclamped with ⟨fixed, left, right⟩
        rw [fixed]
        rcases firstShare_held available_nonneg fixed with ⟨some, share⟩
        generalize F32.finite _ = raw at fixed left right share ⊢
        have divided := divide_held_trailing positive room.1 some share
        have held : exact.sub ((area.divide splitAxis ratio gap).1.rect.extent splitAxis)
            (cells ((area.divide splitAxis ratio gap).1.extent splitAxis)) = cells 0 := by
          rw [rect_extent, sub_cells, sub_self]
        rw [splitFloatRect_cells, divided] at left right ⊢
        dsimp only at left right ⊢
        rw [held] at left right ⊢
        rw [sub_cells, sub_zero] at right ⊢
        rw [holdTrailingDividers_zero, placeCells, divided,
          hsecond divide_extents.2 room.2 right, List.zipWith_append, dragged_none]
        · rw [length_placeCells]
        · rw [List.length_map, length_placeCells]
      · rw [if_neg same] at room
        rw [if_pos same] at unclamped ⊢
        rw [if_neg same]
        have parts : (area.divide splitAxis ratio gap).1.extent axis = area.extent axis ∧
            (area.divide splitAxis ratio gap).2.extent axis = area.extent axis ∧ _ :=
          divide_across same
        rcases parts with ⟨left, right, _⟩
        dsimp only at unclamped ⊢
        rw [splitFloatRect_cells, divide_grown same] at unclamped ⊢
        rw [placeCells, divide_grown same, hfirst (left ▸ positive) room.1 unclamped.1,
          hsecond (right ▸ positive) room.2 unclamped.2, List.zipWith_append]
        rw [length_reachesTrailing, length_placeCells]

/-- Only the leaves that reach the leading edge change, and only at that edge. -/
theorem holdLeadingDividers_places {tree : DwindleTree} {area : Cells} {delta : Int}
    (positive : 0 ≤ area.extent axis) (room : LeadingRoom gap axis delta tree area)
    (unclamped : exact.LeadingUnclamped gap.tileGap axis tree (area.led axis delta).rect
      (cells delta)) :
    placeCells gap (exact.holdLeadingDividers gap.tileGap axis tree (area.led axis delta).rect
        (cells delta)) (area.led axis delta) =
      List.zipWith (dragged (led axis delta)) (reachesLeading axis tree)
        (placeCells gap tree area) := by
  induction tree generalizing area with
  | leaf id => rfl
  | split splitAxis ratio first second hfirst hsecond =>
      by_cases none : delta = 0
      · subst none
        rw [holdLeadingDividers_zero, led_zero]
        refine (dragged_still _ (fun area => led_zero axis area) _ _ ?_).symm
        rw [length_reachesLeading, length_placeCells]
      have moved : cells delta ≠ .zero := by
        rw [zero_eq_cells, Ne, cells_inj]
        exact none
      rw [holdLeadingDividers, if_neg moved]
      rw [LeadingUnclamped, if_neg moved] at unclamped
      rw [LeadingRoom] at room
      rw [placeCells, reachesLeading]
      by_cases same : splitAxis = axis
      · subst same
        rw [if_pos rfl] at room
        rw [if_neg (by simp)] at unclamped ⊢
        rw [if_pos rfl]
        dsimp only at unclamped ⊢
        rw [dividerBefore_cells ratio (led_extent splitAxis delta area), add_cells, heldRatio_cells]
          at unclamped ⊢
        rcases unclamped with ⟨fixed, left, right⟩
        rw [fixed]
        rcases firstShare_held available_nonneg fixed with ⟨some, share⟩
        generalize F32.finite _ = raw at fixed left right share ⊢
        have divided := divide_held_leading positive room.1 some share
        have held : exact.sub
            (((area.divide splitAxis ratio gap).1.led splitAxis delta).rect.extent splitAxis)
            (cells ((area.divide splitAxis ratio gap).1.extent splitAxis + delta)) = cells 0 := by
          rw [rect_extent, led_extent, sub_cells, sub_self]
        have opposite : (cells 0).neg = cells 0 := rfl
        rw [splitFloatRect_cells, divided] at left right ⊢
        dsimp only at left right ⊢
        rw [held] at left right ⊢
        rw [add_cells, add_zero] at left ⊢
        rw [opposite, holdLeadingDividers_zero, placeCells, divided,
          hfirst divide_extents.1 room.2 left, List.zipWith_append, dragged_none]
        · rw [length_placeCells]
        · rw [length_reachesLeading, length_placeCells]
      · rw [if_neg same] at room
        rw [if_pos same] at unclamped ⊢
        rw [if_neg same]
        have parts : (area.divide splitAxis ratio gap).1.extent axis = area.extent axis ∧
            (area.divide splitAxis ratio gap).2.extent axis = area.extent axis ∧ _ :=
          divide_across same
        rcases parts with ⟨left, right, _⟩
        dsimp only at unclamped ⊢
        rw [splitFloatRect_cells, divide_led same] at unclamped ⊢
        rw [placeCells, divide_led same, hfirst (left ▸ positive) room.1 unclamped.1,
          hsecond (right ▸ positive) room.2 unclamped.2, List.zipWith_append]
        rw [length_reachesLeading, length_placeCells]

end Arithmetic

end Rozi
