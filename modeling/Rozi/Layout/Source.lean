import Rozi.Layout.Allocate
import Rozi.Layout.Shared

/-!
What the layout engine reads of a workspace, and its two orders over the tiled panes: the tree that
dwindle divides, and the list every other layout walks.
-/

namespace Rozi

open SerializedTree

structure TileSource where
  layoutKind : LayoutKind
  startAxis : SplitAxis
  splitRatios : List F32
  /-- It may still name panes that have left or become floating. -/
  storedTileTree : Option DwindleTree
  tiledIdsByPaneOrder : List PaneId
  scrollableWidth : PaneId → F32
  scrollableViewport : List PaneId → Option PaneId × ScrollableRevealEdge
  /-- What `for_each_floating` visits. -/
  floating : List (PaneId × FloatRect)

/-- One round of the loop that closes `ordered_tiled_ids`. -/
def pushMissing (ordered : List PaneId) (id : PaneId) : List PaneId :=
  if ordered.contains id then ordered else ordered ++ [id]

namespace TileSource

variable (source : TileSource)

def effectiveTileTree (excludeTiled : Option PaneId) : Option DwindleTree :=
  Rozi.effectiveTileTree source.tiledIdsByPaneOrder source.storedTileTree source.startAxis
    source.splitRatios excludeTiled

def orderedTiledIds : List PaneId :=
  let active := source.tiledIdsByPaneOrder
  let ordered := match source.storedTileTree with
    | some tree => active.foldl pushMissing (tree.leaves.filter (active.contains ·))
    | none => []
  if ordered.isEmpty then active else ordered

def orderDrivenIds (excludeTiled : Option PaneId) : List PaneId :=
  source.orderedTiledIds.filter fun id => some id != excludeTiled

end TileSource

def horizontalTileIntersection (arith : Arithmetic) (layout onScreen : FloatRect) :
    Option FloatRect :=
  let left := layout.x.max onScreen.x
  let right := (arith.add layout.x layout.w).min (arith.add onScreen.x onScreen.w)
  if !left.isFinite || !right.isFinite then none
  else
    let width := arith.sub right left
    if width.le .zero || !width.isFinite then none
    else some { x := left, y := layout.y, w := width, h := layout.h }

namespace TileSource

variable (source : TileSource) (arith : Arithmetic)

/-- The dispatch over the layouts in `workspace_target_rects_excluding_with_visible_and_float_bounds`. -/
def tiledTargetRects (bounds : FloatRect) (visibleBounds : Option FloatRect)
    (excludeTiled : Option PaneId) (topGap : F32) (tileGap : TileGap) : List PanePlacement :=
  let tileBounds := arith.workspaceTileBounds bounds topGap
  let ids := source.orderDrivenIds excludeTiled
  match source.layoutKind with
  | .dwindle =>
      match source.effectiveTileTree excludeTiled with
      | some tree => arith.allocateDwindle tree tileBounds tileGap
      | none => []
  | .master => arith.allocateMaster ids tileBounds tileGap (ratioAt source.splitRatios 0)
  | .grid => arith.allocateGrid ids tileBounds tileGap
  | .columns => arith.allocateColumns ids tileBounds tileGap
  | .rows => arith.allocateRows ids tileBounds tileGap
  | .scrollable =>
      let panes := ids.map fun id => (id, source.scrollableWidth id)
      let (anchor, revealEdge) := source.scrollableViewport ids
      let visibleTile := match visibleBounds with
        | some visible =>
            (horizontalTileIntersection arith tileBounds
              (arith.workspaceTileBounds visible topGap)).getD tileBounds
        | none => tileBounds
      arith.allocateScrollableWithVisible panes tileBounds visibleTile tileGap anchor revealEdge
  | .monocle => Arithmetic.allocateMonocle ids tileBounds

def floatingTargetRects (floatBounds : FloatRect) : List PanePlacement :=
  source.floating.map fun (id, rect) =>
    placeAt id (arith.clampFloatingRect
      { rect with x := arith.add rect.x floatBounds.x, y := arith.add rect.y floatBounds.y }
      floatBounds)

/-- `workspace_target_rects_excluding_with_visible_and_float_bounds`. -/
def targetRects (bounds floatBounds : FloatRect) (visibleBounds : Option FloatRect)
    (excludeTiled : Option PaneId) (topGap : F32) (tileGap : TileGap) : List PanePlacement :=
  source.tiledTargetRects arith bounds visibleBounds excludeTiled topGap tileGap ++
    source.floatingTargetRects arith floatBounds

end TileSource

section orders

theorem foldl_pushMissing (ids : List PaneId) (distinct : ids.Nodup) (ordered : List PaneId) :
    ids.foldl pushMissing ordered = ordered ++ ids.filter (fun id => id ∉ ordered) := by
  induction ids generalizing ordered with
  | nil => simp
  | cons id rest ih =>
      rcases List.nodup_cons.mp distinct with ⟨fresh, distinct⟩
      rw [List.foldl_cons, ih distinct, pushMissing]
      by_cases present : id ∈ ordered
      · simp [present]
      · have later : ∀ other ∈ rest, other ≠ id := fun other member same => fresh (same ▸ member)
        have others : rest.filter (fun other => other ∉ ordered ++ [id]) =
            rest.filter (fun other => other ∉ ordered) := by
          apply List.filter_congr
          intro other member
          simp [later other member]
        rw [if_neg (by simpa using present), others, List.filter_cons_of_pos (by simpa using present),
          List.append_assoc]
        rfl

/-- An excluded pane is left out as if it were not tiled. -/
theorem effectiveTileTree_exclude (tiledIds : List PaneId) (stored : Option DwindleTree)
    (startAxis : SplitAxis) (splitRatios : List F32) (exclude : Option PaneId) :
    effectiveTileTree tiledIds stored startAxis splitRatios exclude =
      effectiveTileTree (tiledIds.filter fun id => some id != exclude) stored startAxis splitRatios
        none := by
  have kept : ∀ ids : List PaneId, ids.filter (fun id => some id != none) = ids :=
    fun ids => List.filter_eq_self.mpr fun _ _ => rfl
  unfold effectiveTileTree
  simp only [kept]

theorem effectiveTileTree_eq_none (tiledIds : List PaneId) (stored : Option DwindleTree) (startAxis : SplitAxis) (splitRatios : List F32)
    (exclude : Option PaneId) :
    effectiveTileTree tiledIds stored startAxis splitRatios exclude = none ↔
      leavesOf (effectiveTileTree tiledIds stored startAxis splitRatios exclude) = [] := by
  cases settled : effectiveTileTree tiledIds stored startAxis splitRatios exclude with
  | none => simp [leavesOf]
  | some tree => simp [leavesOf, tree.leaves_ne_nil]

end orders

namespace TileSource

variable {source : TileSource}

theorem orderedTiledIds_eq (distinct : source.tiledIdsByPaneOrder.Nodup) :
    source.orderedTiledIds =
      survivingLeaves source.tiledIdsByPaneOrder source.storedTileTree ++
        source.tiledIdsByPaneOrder.filter
          fun id => id ∉ survivingLeaves source.tiledIdsByPaneOrder source.storedTileTree := by
  unfold orderedTiledIds
  cases stored : source.storedTileTree with
  | none => simp [survivingLeaves, leavesOf]
  | some tree =>
      have kept : tree.leaves.filter (source.tiledIdsByPaneOrder.contains ·) =
          survivingLeaves source.tiledIdsByPaneOrder (some tree) := rfl
      simp only [kept, foldl_pushMissing _ distinct]
      generalize survivingLeaves source.tiledIdsByPaneOrder (some tree) = surviving
      split_ifs with empty
      · rw [List.isEmpty_iff] at empty
        rcases List.append_eq_nil_iff.mp empty with ⟨rfl, -⟩
        simp
      · rfl

theorem survivingLeaves_exclude (tiledIds : List PaneId) (stored : Option DwindleTree)
    (exclude : Option PaneId) :
    survivingLeaves (tiledIds.filter fun id => some id != exclude) stored =
      (survivingLeaves tiledIds stored).filter fun id => some id != exclude := by
  unfold survivingLeaves
  rw [List.filter_filter]
  apply List.filter_congr
  intro id _
  by_cases moving : some id = exclude
  · simp [moving]
  · simp [moving, Bool.and_comm]

theorem leavesOf_effectiveTileTree (distinct : source.tiledIdsByPaneOrder.Nodup)
    (exclude : Option PaneId) :
    leavesOf (source.effectiveTileTree exclude) = source.orderDrivenIds exclude := by
  unfold effectiveTileTree orderDrivenIds
  rw [effectiveTileTree_exclude, Rozi.leavesOf_effectiveTileTree _ (distinct.filter _),
    orderedTiledIds_eq distinct, survivingLeaves_exclude, List.filter_append]
  congr 1
  rw [List.filter_filter, List.filter_filter]
  apply List.filter_congr
  intro id _
  by_cases moving : some id = exclude
  · simp [moving]
  · simp [moving, Bool.and_comm]

theorem orderDrivenIds_nodup (distinct : source.tiledIdsByPaneOrder.Nodup)
    (unique : (leavesOf source.storedTileTree).Nodup) (exclude : Option PaneId) :
    (source.orderDrivenIds exclude).Nodup := by
  apply List.Nodup.filter
  rw [orderedTiledIds_eq distinct, List.nodup_append]
  refine ⟨unique.filter _, distinct.filter _, ?_⟩
  rintro id kept _ added rfl
  have absent := (List.mem_filter.mp added).2
  simp [kept] at absent

theorem mem_orderDrivenIds (distinct : source.tiledIdsByPaneOrder.Nodup)
    (exclude : Option PaneId) (id : PaneId) :
    id ∈ source.orderDrivenIds exclude ↔
      id ∈ source.tiledIdsByPaneOrder ∧ some id ≠ exclude := by
  have inside : id ∈ survivingLeaves source.tiledIdsByPaneOrder source.storedTileTree →
      id ∈ source.tiledIdsByPaneOrder := by
    intro member
    simpa using (List.mem_filter.mp member).2
  unfold orderDrivenIds
  rw [orderedTiledIds_eq distinct, List.mem_filter, List.mem_append, List.mem_filter]
  simp only [bne_iff_ne, decide_eq_true_eq]
  tauto

theorem tiledTargetRects_ids (arith : Arithmetic) (distinct : source.tiledIdsByPaneOrder.Nodup)
    (bounds : FloatRect) (visibleBounds : Option FloatRect) (exclude : Option PaneId)
    (topGap : F32) (tileGap : TileGap) :
    (source.tiledTargetRects arith bounds visibleBounds exclude topGap tileGap).map
      PanePlacement.id = source.orderDrivenIds exclude := by
  unfold tiledTargetRects
  cases source.layoutKind with
  | dwindle =>
      have leaves := leavesOf_effectiveTileTree distinct exclude
      cases settled : source.effectiveTileTree exclude with
      | none =>
          rw [settled] at leaves
          exact leaves
      | some tree =>
          rw [settled] at leaves
          simp only [Arithmetic.allocateDwindle_ids]
          exact leaves
  | master => exact arith.allocateMaster_ids _ _ _ _
  | grid => exact arith.allocateGrid_ids _ _ _
  | columns => exact arith.allocateStrips_ids _ _ _ _
  | rows => exact arith.allocateStrips_ids _ _ _ _
  | scrollable =>
      simp only [Arithmetic.allocateScrollableWithVisible_ids, List.map_map]
      exact List.map_id' _
  | monocle => exact Arithmetic.allocateMonocle_ids _ _

/-- The tree and the list are the same order, and with distinct stored leaves every layout places
each tiled pane but the excluded one once, and no other pane. -/
theorem tiling_orders_agree (source : TileSource)
    (distinct : source.tiledIdsByPaneOrder.Nodup) (exclude : Option PaneId) :
    leavesOf (source.effectiveTileTree exclude) =
        source.orderedTiledIds.filter (fun id => some id != exclude) ∧
      (source.effectiveTileTree exclude = none ↔
        source.orderedTiledIds.filter (fun id => some id != exclude) = []) ∧
      ((leavesOf source.storedTileTree).Nodup →
        ∀ arith bounds visibleBounds topGap tileGap id,
          ((source.tiledTargetRects arith bounds visibleBounds exclude topGap tileGap).map
            PanePlacement.id).count id =
              if id ∈ source.tiledIdsByPaneOrder ∧ some id ≠ exclude then 1 else 0) := by
  have same := leavesOf_effectiveTileTree distinct exclude
  refine ⟨same, ?_, ?_⟩
  · rw [effectiveTileTree, effectiveTileTree_eq_none, ← effectiveTileTree, same]
    rfl
  · intro unique arith bounds visibleBounds topGap tileGap id
    rw [tiledTargetRects_ids arith distinct]
    have placed := mem_orderDrivenIds distinct exclude id
    split_ifs with live
    · exact List.count_eq_one_of_mem (orderDrivenIds_nodup distinct unique exclude)
        (placed.mpr live)
    · exact List.count_eq_zero_of_not_mem (placed.not.mpr live)

def departed : TileSource where
  layoutKind := .dwindle
  startAxis := .horizontal
  splitRatios := []
  storedTileTree := some (split .horizontal defaultRatio (leaf 3)
    (split .vertical defaultRatio (leaf 9) (leaf 1)))
  tiledIdsByPaneOrder := [1, 2, 3]
  scrollableWidth := fun _ => defaultScrollableWidth
  scrollableViewport := fun ids => (ids.head?, .left)
  floating := []

theorem tiling_orders_agree_departed :
    leavesOf (departed.effectiveTileTree (some 3)) =
        departed.orderedTiledIds.filter (fun id => some id != some 3) ∧
      departed.orderedTiledIds.filter (fun id => some id != some 3) = [1, 2] :=
  ⟨(tiling_orders_agree departed (by decide) (some 3)).1, by decide⟩

end TileSource

end Rozi
