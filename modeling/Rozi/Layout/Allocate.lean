import Rozi.Layout.Geometry

/-!
The allocators: one for each layout, from the panes of a workspace in tiling order to a rectangle
for each. Whatever the arithmetic makes of the rectangles, every pane gets one, in the order given.
-/

namespace Rozi

open SerializedTree

def sanitizeScrollableWidth : F32 → F32
  | .finite value => (F32.finite value).clamp (.finite minSplitRatio) (.finite maxSplitRatio)
  | _ => defaultScrollableWidth

def placeAt (id : PaneId) (rect : FloatRect) : PanePlacement := { id, rect }

namespace Arithmetic

variable (arith : Arithmetic)

def allocateDwindle : DwindleTree → FloatRect → TileGap → List PanePlacement
  | leaf id, rect, _ => [placeAt id rect]
  | split axis ratio first second, rect, gap =>
      let rects := arith.splitFloatRect rect axis ratio gap
      allocateDwindle first rects.1 gap ++ allocateDwindle second rects.2 gap

def allocateMasterStackFrom (rect : FloatRect) (usableGap baseH : F32) :
    List PaneId → F32 → F32 → List PanePlacement
  | [], _, _ => []
  | id :: rest, y, remainingH =>
      let h := if rest.isEmpty then remainingH else baseH.min remainingH
      placeAt id { rect with y, h } ::
        allocateMasterStackFrom rect usableGap baseH rest (arith.add y (arith.add h usableGap))
          ((arith.sub remainingH h).max .zero)

def allocateMasterStack (ids : List PaneId) (rect : FloatRect) (gap : TileGap) :
    List PanePlacement :=
  if ids.isEmpty then []
  else
    let gap := gap.forAxis .vertical
    let usableGap := if gap.lt rect.h then gap else .zero
    let available :=
      (arith.sub rect.h (arith.mul usableGap (arith.ofNat (ids.length - 1)))).max .zero
    let baseH := arith.floor (arith.div available (arith.ofNat ids.length))
    arith.allocateMasterStackFrom rect usableGap baseH ids rect.y available

def allocateMaster (ids : List PaneId) (rect : FloatRect) (gap : TileGap) (ratio : F32) :
    List PanePlacement :=
  match ids with
  | [] => []
  | [id] => [placeAt id rect]
  | master :: stack =>
      let rects := arith.splitFloatRect rect .horizontal ratio gap
      placeAt master rects.1 :: arith.allocateMasterStack stack rects.2 gap

def allocateMonocle (ids : List PaneId) (rect : FloatRect) : List PanePlacement :=
  ids.map fun id => placeAt id rect

/-- The rows of `allocate_grid`: the last one takes what remains. -/
def allocateGridRows (gap : TileGap) (cols : Nat) :
    List PaneId → List FloatRect → List PanePlacement
  | _, [] => []
  | ids, row :: rows =>
      let cellsInRow := if rows.isEmpty then ids.length else min cols ids.length
      let cells := arith.splitEvenly row .horizontal cellsInRow gap
      ids.zipWith placeAt cells ++ allocateGridRows gap cols (ids.drop cells.length) rows

def allocateGrid (ids : List PaneId) (rect : FloatRect) (gap : TileGap) : List PanePlacement :=
  match ids with
  | [] => []
  | [id] => [placeAt id rect]
  | ids =>
      let cols := arith.ceilSqrt ids.length
      let rows := (ids.length + cols - 1) / cols
      arith.allocateGridRows gap cols ids (arith.splitEvenly rect .vertical rows gap)

def allocateStrips (ids : List PaneId) (rect : FloatRect) (axis : SplitAxis) (gap : TileGap) :
    List PanePlacement :=
  if ids.isEmpty then [] else ids.zipWith placeAt (arith.splitBalanced rect axis ids.length gap)

def allocateColumns (ids : List PaneId) (rect : FloatRect) (gap : TileGap) : List PanePlacement :=
  arith.allocateStrips ids rect .horizontal gap

def allocateRows (ids : List PaneId) (rect : FloatRect) (gap : TileGap) : List PanePlacement :=
  arith.allocateStrips ids rect .vertical gap

def scrollableColumnWidth (viewportW widthFrac : F32) : F32 :=
  let viewportW := viewportW.max .one
  let ratio := sanitizeScrollableWidth widthFrac
  let lowest := (arith.ceil (arith.mul (.finite minSplitRatio) viewportW)).max .one
  let highest := (arith.floor (arith.mul (.finite maxSplitRatio) viewportW)).max lowest
  (arith.round (arith.mul viewportW ratio)).clamp lowest highest

def scrollableAllocatedWidths (panes : List (PaneId × F32)) (viewportW usableGap : F32) :
    List F32 :=
  let viewportW := viewportW.max .one
  let bases := panes.map fun pane => arith.scrollableColumnWidth viewportW pane.2
  match bases with
  | [_] => [viewportW]
  | [a, b] =>
      if (arith.add (arith.add a b) usableGap).le (arith.add viewportW (.finite (1 / 2))) then
        let free := (arith.sub (arith.sub (arith.sub viewportW usableGap) a) b).max .zero
        let extra0 := arith.floor (arith.div free (.finite 2))
        let extra1 := arith.sub free extra0
        [arith.add a extra0, arith.add b extra1]
      else bases
  | bases => bases

def columnStarts (usableGap : F32) : F32 → List F32 → List F32
  | start, [] => [start]
  | start, width :: rest =>
      start :: columnStarts usableGap
        (arith.add (arith.add start width) (if rest.isEmpty then .zero else usableGap)) rest

def scrollableScroll (panes : List (PaneId × F32)) (layout visible : FloatRect)
    (anchor : Option PaneId) (revealEdge : ScrollableRevealEdge) (widths starts : List F32) : F32 :=
  let stripW := starts.getLastD .zero
  let visLeft := visible.x
  let visRight := arith.add visible.x (visible.w.max .one)
  let visW := (arith.sub visRight visLeft).max .one
  if stripW.le (arith.add visW (.finite (1 / 2))) then arith.sub layout.x visLeft
  else
    let scrollMin := arith.sub layout.x visLeft
    let scrollMax := arith.sub (arith.add layout.x stripW) visRight
    let anchorIndex :=
      (anchor.bind fun id => panes.findIdx? fun pane => pane.1 == id).getD 0
    let anchorStart := starts.getD anchorIndex .zero
    let desired := match revealEdge with
      | .left => arith.sub (arith.add layout.x anchorStart) visLeft
      | .right =>
          let focusedRight := arith.add anchorStart (widths.getD anchorIndex .zero)
          arith.sub (arith.add layout.x focusedRight) visRight
      | .leftOffset cells =>
          arith.sub (arith.sub (arith.add layout.x anchorStart) visLeft) (arith.ofInt cells)
    desired.clamp (scrollMin.min scrollMax) (scrollMax.max scrollMin)

def allocateScrollableWithVisible (panes : List (PaneId × F32)) (layout visible : FloatRect)
    (gap : TileGap) (anchor : Option PaneId) (revealEdge : ScrollableRevealEdge) :
    List PanePlacement :=
  if panes.isEmpty then []
  else
    let gap := gap.forAxis .horizontal
    let usableGap := if gap.lt layout.w then gap else .zero
    let widths := arith.scrollableAllocatedWidths panes layout.w usableGap
    let starts := arith.columnStarts usableGap .zero widths
    let scroll := arith.scrollableScroll panes layout visible anchor revealEdge widths starts
    panes.mapIdx fun index pane => placeAt pane.1
      { x := arith.sub (arith.add layout.x (starts.getD index .zero)) scroll
        y := layout.y
        w := widths.getD index .zero
        h := layout.h }

section ids

variable (gap : TileGap) (rect : FloatRect)

theorem zipWith_placeAt_ids {ids : List PaneId} {rects : List FloatRect}
    (enough : ids.length ≤ rects.length) :
    (ids.zipWith placeAt rects).map PanePlacement.id = ids := by
  induction ids generalizing rects with
  | nil => rfl
  | cons id rest ih =>
      cases rects with
      | nil => simp at enough
      | cons first others =>
          simp only [List.zipWith_cons_cons, List.map_cons, ih (Nat.le_of_succ_le_succ enough)]
          rfl

theorem allocateDwindle_ids (tree : DwindleTree) :
    (arith.allocateDwindle tree rect gap).map PanePlacement.id = tree.leaves := by
  induction tree generalizing rect with
  | leaf pane => rfl
  | split axis ratio first second hfirst hsecond =>
      simp only [allocateDwindle, List.map_append, hfirst, hsecond, leaves]

theorem allocateMasterStackFrom_ids (usableGap baseH : F32) (ids : List PaneId) (y h : F32) :
    (arith.allocateMasterStackFrom rect usableGap baseH ids y h).map PanePlacement.id = ids := by
  induction ids generalizing y h with
  | nil => rfl
  | cons id rest ih =>
      simp only [allocateMasterStackFrom, List.map_cons, ih]
      rfl

theorem allocateMasterStack_ids (ids : List PaneId) :
    (arith.allocateMasterStack ids rect gap).map PanePlacement.id = ids := by
  unfold allocateMasterStack
  cases ids with
  | nil => rfl
  | cons id rest => exact arith.allocateMasterStackFrom_ids rect _ _ (id :: rest) _ _

theorem allocateMaster_ids (ids : List PaneId) (ratio : F32) :
    (arith.allocateMaster ids rect gap ratio).map PanePlacement.id = ids := by
  match ids with
  | [] => rfl
  | [id] => rfl
  | master :: second :: stack =>
      simp only [allocateMaster, List.map_cons, allocateMasterStack_ids]
      rfl

theorem allocateMonocle_ids (ids : List PaneId) :
    (allocateMonocle ids rect).map PanePlacement.id = ids := by
  rw [allocateMonocle, List.map_map]
  exact List.map_id' ids

theorem allocateGridRows_ids (cols : Nat) (ids : List PaneId) (row : FloatRect)
    (rows : List FloatRect) :
    (arith.allocateGridRows gap cols ids (row :: rows)).map PanePlacement.id = ids := by
  induction rows generalizing ids row with
  | nil =>
      have cells := arith.length_splitEvenly row .horizontal gap ids.length
      simp only [allocateGridRows, List.isEmpty_nil, if_true, List.append_nil]
      exact zipWith_placeAt_ids (Nat.le_of_eq cells.symm)
  | cons next rows ih =>
      have cells := arith.length_splitEvenly row .horizontal gap (min cols ids.length)
      have within : min cols ids.length ≤ ids.length := Nat.min_le_right _ _
      rw [allocateGridRows, List.map_append]
      simp only [List.isEmpty_cons, Bool.false_eq_true, if_false]
      rw [ih, cells]
      have taken : ids.zipWith placeAt (arith.splitEvenly row .horizontal
          (min cols ids.length) gap) = (ids.take (min cols ids.length)).zipWith placeAt
            (arith.splitEvenly row .horizontal (min cols ids.length) gap) := by
        rw [List.zipWith_eq_zipWith_take_min, cells, Nat.min_eq_right within]
        rw [List.take_of_length_le (Nat.le_of_eq cells)]
      rw [taken, zipWith_placeAt_ids, List.take_append_drop]
      rw [cells, List.length_take]
      exact Nat.min_le_left _ _

theorem allocateGrid_ids (ids : List PaneId) :
    (arith.allocateGrid ids rect gap).map PanePlacement.id = ids := by
  match ids with
  | [] => rfl
  | [id] => rfl
  | first :: second :: rest =>
      simp only [allocateGrid]
      have positive := arith.ceilSqrt_pos (first :: second :: rest).length (by simp)
      generalize arith.ceilSqrt (first :: second :: rest).length = cols at positive
      have filled : 0 < ((first :: second :: rest).length + cols - 1) / cols := by
        apply Nat.div_pos
        · simp only [List.length_cons]
          omega
        · exact positive
      have length := arith.length_splitEvenly rect .vertical gap
        (((first :: second :: rest).length + cols - 1) / cols)
      cases divided : arith.splitEvenly rect .vertical
          (((first :: second :: rest).length + cols - 1) / cols) gap with
      | nil =>
          rw [divided, List.length_nil] at length
          omega
      | cons row rows => exact arith.allocateGridRows_ids gap cols _ row rows

theorem allocateStrips_ids (ids : List PaneId) (axis : SplitAxis) :
    (arith.allocateStrips ids rect axis gap).map PanePlacement.id = ids := by
  unfold allocateStrips
  cases ids with
  | nil => rfl
  | cons id rest =>
      apply zipWith_placeAt_ids
      rw [length_splitBalanced]

theorem allocateScrollableWithVisible_ids (panes : List (PaneId × F32))
    (layout visible : FloatRect) (anchor : Option PaneId) (revealEdge : ScrollableRevealEdge) :
    (arith.allocateScrollableWithVisible panes layout visible gap anchor revealEdge).map
      PanePlacement.id = panes.map Prod.fst := by
  unfold allocateScrollableWithVisible
  cases panes with
  | nil => rfl
  | cons pane rest =>
      apply List.ext_getElem?
      intro index
      simp only [List.isEmpty_cons, Bool.false_eq_true, if_false, List.getElem?_map,
        List.getElem?_mapIdx, Option.map_map]
      rfl

end ids

end Arithmetic

end Rozi
