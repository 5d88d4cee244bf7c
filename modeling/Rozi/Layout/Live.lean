import Rozi.Layout.Canvas

/-!
A client's live workspaces and their projection into the document. Whatever a document does not hold,
the focus and the scroll of a strip, is the client's own.
-/

namespace Rozi

open SerializedTree

structure PaneIdentity where
  customTitle : Option String := none
  profileName : Option String := none
  cwd : Option String := none
  launch : Option PaneLaunch := none
  keepOpen : Bool := false
  replay : Bool := false
  deriving DecidableEq, Repr

structure Pane where
  id : PaneId
  ptyGeneration : Nat
  identity : PaneIdentity := {}
  floating : Bool := false
  pinned : Bool := false
  fullscreen : Bool := false
  floatingRect : FloatRect
  scrollableWidth : F32 := defaultScrollableWidth
  closing : Bool := false
  deriving DecidableEq, Repr

structure Workspace where
  panes : List Pane := []
  tileTree : Option DwindleTree := none
  focusedPane : Option PaneId := none
  synchronized : Bool := false
  layoutKind : LayoutKind := .standard
  startAxis : SplitAxis
  splitRatios : List F32 := LayoutKind.defaultSplitRatios
  scrollableAnchor : Option PaneId := none
  scrollableRevealEdge : ScrollableRevealEdge := .left
  name : Option String := none
  deriving DecidableEq, Repr

namespace Workspace

variable (workspace : Workspace)

def paneIds : List PaneId :=
  workspace.panes.map Pane.id

def activeTiledIds : List PaneId :=
  (workspace.panes.filter fun pane => !pane.floating && !pane.closing).map Pane.id

def scrollableViewportAnchor (tiledIds : List PaneId) : Option PaneId :=
  match workspace.scrollableAnchor.filter (tiledIds.contains ·) with
  | some anchor => some anchor
  | none =>
      match workspace.focusedPane.filter fun id =>
          workspace.panes.any fun pane =>
            pane.id == id && !pane.floating && !pane.closing && tiledIds.contains pane.id with
      | some focused => some focused
      | none => tiledIds.head?

def tileSource : TileSource where
  layoutKind := workspace.layoutKind
  startAxis := workspace.startAxis
  splitRatios := workspace.splitRatios
  storedTileTree := workspace.tileTree
  tiledIdsByPaneOrder := workspace.activeTiledIds
  scrollableWidth := fun id =>
    match workspace.panes.find? (·.id == id) with
    | some pane => pane.scrollableWidth
    | none => defaultScrollableWidth
  scrollableViewport := fun tiledIds =>
    (workspace.scrollableViewportAnchor tiledIds, workspace.scrollableRevealEdge)
  floating := (workspace.panes.filter fun pane => pane.floating && !pane.closing).map fun pane =>
    (pane.id, pane.floatingRect)

def targetRects (arith : Arithmetic) (bounds : FloatRect) (topGap : F32) (tileGap : TileGap) :
    List PanePlacement :=
  workspace.tileSource.targetRects arith bounds bounds none none topGap tileGap

def effectiveTileTree : Option DwindleTree :=
  workspace.tileSource.effectiveTileTree none

end Workspace

/-- A pane of the document for a live pane, in `shared_workspace_from_state`. -/
def sharedPaneFromState (arith : Arithmetic) (canvasCols canvasRows : Nat) (pane : Pane) :
    SharedPane where
  paneId := pane.id
  generation := pane.ptyGeneration
  title := pane.identity.customTitle
  profileName := pane.identity.profileName
  cwd := pane.identity.cwd
  launch := pane.identity.launch
  replay := pane.identity.replay
  keepOpen := pane.identity.keepOpen
  floating := pane.floating
  pinned := pane.pinned
  fullscreen := pane.fullscreen
  rect := if pane.floating then some (floatRectToFrac arith pane.floatingRect canvasCols canvasRows)
    else none
  scrollableWidth := sanitizeScrollableWidth pane.scrollableWidth

def sharedWorkspaceFromState (arith : Arithmetic) (index : Nat) (workspace : Workspace)
    (canvasCols canvasRows : Nat) : SharedWorkspace where
  index
  name := workspace.name
  synchronized := workspace.synchronized
  layout := workspace.layoutKind
  startAxis := workspace.startAxis
  splitRatios := workspace.splitRatios
  tree := workspace.effectiveTileTree.bind (fromDwindle some)
  panes := (workspace.panes.filter fun pane => !pane.closing).map
    (sharedPaneFromState arith canvasCols canvasRows)

section projected

variable (arith : Arithmetic) (index : Nat) (workspace : Workspace) (cols rows : Nat)

def Workspace.livePanes : List Pane :=
  workspace.panes.filter fun pane => !pane.closing

theorem projected_paneIds :
    (sharedWorkspaceFromState arith index workspace cols rows).paneIds =
      workspace.livePanes.map Pane.id := by
  rw [SharedWorkspace.paneIds, sharedWorkspaceFromState, List.map_map]
  rfl

theorem projected_tiledIds :
    (sharedWorkspaceFromState arith index workspace cols rows).tiledIds =
      workspace.activeTiledIds := by
  rw [SharedWorkspace.tiledIds, sharedWorkspaceFromState, List.filter_map, List.map_map,
    List.filter_filter]
  rfl

theorem projected_tree :
    (sharedWorkspaceFromState arith index workspace cols rows).tree =
      workspace.effectiveTileTree := by
  unfold sharedWorkspaceFromState
  cases workspace.effectiveTileTree with
  | none => rfl
  | some tree => exact fromDwindle_some tree

end projected

theorem dwindleFromShared_whole {tree : DwindleTree} {known : List PaneId}
    (all : ∀ id ∈ tree.leaves, id ∈ known) : dwindleFromShared tree known = some tree := by
  unfold dwindleFromShared
  induction tree with
  | leaf pane => simp [toDwindle, all pane (by simp [leaves])]
  | split axis ratio first second hfirst hsecond =>
      have before := hfirst fun id member => all id (by simp [leaves, member])
      have behind := hsecond fun id member => all id (by simp [leaves, member])
      rw [toDwindle_collapse, before, behind]
      rfl

theorem pruneTreeToIds_whole {tree : DwindleTree} {ids : List PaneId}
    (all : ∀ id ∈ tree.leaves, id ∈ ids) : pruneTreeToIds ids tree = some tree := by
  induction tree with
  | leaf pane => simp [pruneTreeToIds, all pane (by simp [leaves])]
  | split axis ratio first second hfirst hsecond =>
      have before := hfirst fun id member => all id (by simp [leaves, member])
      have behind := hsecond fun id member => all id (by simp [leaves, member])
      rw [pruneTreeToIds, before, behind]
      rfl

theorem foldl_appendMissing_whole {tree : DwindleTree} (startAxis : SplitAxis) {ids : List PaneId}
    (all : ∀ id ∈ ids, id ∈ tree.leaves) :
    ids.foldl (appendMissing startAxis) (some tree) = some tree := by
  induction ids with
  | nil => rfl
  | cons id rest ih =>
      have present : treeContains tree id = true := (treeContains_iff tree id).mpr
        (all id List.mem_cons_self)
      rw [List.foldl_cons]
      have kept : appendMissing startAxis (some tree) id = some tree := by
        simp [appendMissing, present]
      rw [kept]
      exact ih fun other member => all other (List.mem_cons_of_mem _ member)

theorem effectiveTileTree_whole {tree : DwindleTree} {tiledIds : List PaneId}
    (same : ∀ id, id ∈ tree.leaves ↔ id ∈ tiledIds) (startAxis : SplitAxis)
    (splitRatios : List F32) :
    effectiveTileTree tiledIds (some tree) startAxis splitRatios none = some tree := by
  have active : tiledIds.filter (fun id => some id != none) = tiledIds :=
    List.filter_eq_self.mpr fun id _ => rfl
  have some' : tiledIds ≠ [] := by
    rintro rfl
    cases leaf : tree.leaves with
    | nil => exact tree.leaves_ne_nil leaf
    | cons id rest => exact absurd ((same id).mp (by simp [leaf])) List.not_mem_nil
  unfold effectiveTileTree
  simp only [active, List.isEmpty_iff, some', if_false, Option.bind_some,
    pruneTreeToIds_whole fun id leaf => (same id).mp leaf, Option.some_or]
  exact foldl_appendMissing_whole startAxis fun id tiled => (same id).mpr tiled

end Rozi
