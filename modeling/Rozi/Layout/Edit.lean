import Mathlib.Data.List.Sort
import Rozi.Control.Requests
import Rozi.Library.Exchange
import Rozi.Layout.Validate

/-!
Absolute edits to a shared layout document. Where a float lands is `f32` arithmetic on the canvas;
an edit is given the rectangle it resolves to.
-/

namespace Rozi

open SerializedTree

/-- `dwindle_from_shared`: the leaves that are known, the surviving side of a split promoted. -/
def dwindleFromShared (tree : SerializedTree PaneId) (known : List PaneId) : Option DwindleTree :=
  toDwindle (fun pane => if known.contains pane then some pane else none) true tree

namespace SharedWorkspace

def fresh (index : Nat) : SharedWorkspace where
  index
  layout := .standard
  startAxis := SplitAxis.startForWorkspace index
  splitRatios := LayoutKind.defaultSplitRatios

variable (workspace : SharedWorkspace)

def tiledIds : List PaneId :=
  (workspace.panes.filter fun pane => !pane.floating).map SharedPane.paneId

/-- `stored_tile_tree` of the workspace read as tiling input. -/
def storedTileTree : Option DwindleTree :=
  workspace.tree.bind fun tree => dwindleFromShared tree workspace.paneIds

def effectiveTree : Option DwindleTree :=
  effectiveTileTree workspace.tiledIds workspace.storedTileTree workspace.startAxis
    workspace.splitRatios none

def settleTree : SharedWorkspace :=
  { workspace with tree := workspace.effectiveTree.bind (fromDwindle some) }

def holds (id : PaneId) : Bool :=
  workspace.panes.any (·.paneId == id)

def updatePane (id : PaneId) (change : SharedPane → SharedPane) : SharedWorkspace :=
  { workspace with panes := updateFirst (·.paneId == id) change workspace.panes }

def clearOtherFullscreen (keep : PaneId) : SharedWorkspace :=
  { workspace with
    panes := workspace.panes.map fun pane =>
      if pane.paneId != keep then { pane with fullscreen := false } else pane }

def applyPaneSizes (id : PaneId) (edit : PaneEdit) : SharedWorkspace :=
  let workspace := match edit.widthRatio with
    | some width => workspace.updatePane id fun pane => { pane with scrollableWidth := width }
    | none => workspace
  match edit.splitRatio with
  | some share =>
      { workspace with
        tree := (workspace.effectiveTree.map (setLeafShare id share)).bind (fromDwindle some) }
  | none => workspace

end SharedWorkspace

/-- `set_master_share`: the ratios with the master's share set, unless it already is. -/
def setMasterShare (splitRatios : List F32) (ratio : F32) : Option (List F32) :=
  if splitRatios.head?.getD defaultRatio = ratio then none
  else some (ratio :: splitRatios.tail)

inductive SharedEditError where
  | paneNotPlaced (id : PaneId)
  | notSwappable (a b : PaneId)
  | invalidDocument (error : SharedLayoutValidationError)
  deriving DecidableEq, Repr

def SharedEditError.text : SharedEditError → String
  | paneNotPlaced id => s!"pane {id} is not in the layout"
  | notSwappable a b =>
      s!"panes {a} and {b} cannot swap; a swap exchanges two different tiled panes of one workspace"
  | invalidDocument error => error.text

abbrev Edited := Except SharedEditError (SharedLayout × Bool)

namespace SharedLayout

variable (layout : SharedLayout)

def workspacePositionOf (id : PaneId) : Option Nat :=
  layout.workspaces.findIdx? (·.holds id)

def workspaceAt (index : Nat) : Option SharedWorkspace :=
  layout.workspaces.find? (·.index == index)

def updateWorkspace (position : Nat) (change : SharedWorkspace → SharedWorkspace) : SharedLayout :=
  { layout with workspaces := layout.workspaces.modify position change }

def updateWorkspaceAt (index : Nat) (change : SharedWorkspace → SharedWorkspace) : SharedLayout :=
  { layout with workspaces := updateFirst (·.index == index) change layout.workspaces }

/-- `workspace_mut_or_insert`: the document with a workspace at `index`, added empty with a fresh
workspace's defaults when there is none. -/
def withWorkspace (index : Nat) : SharedLayout :=
  if layout.workspaces.any (·.index == index) then layout
  else
    { layout with
      workspaces := (layout.workspaces ++ [SharedWorkspace.fresh index]).insertionSort
        fun first second => first.index ≤ second.index }

def setLayoutKind (index : Nat) (kind : LayoutKind) : SharedLayout × Bool :=
  let kept := (layout.workspaceAt index).any (·.layout == kind)
  let layout := layout.withWorkspace index
  if kept then (layout, false)
  else (layout.updateWorkspaceAt index fun workspace => { workspace with layout := kind }, true)

def layoutKindOf (index : Nat) : LayoutKind :=
  (layout.workspaceAt index).elim .standard SharedWorkspace.layout

def setMasterRatio (index : Nat) (ratio : F32) : SharedLayout × Bool :=
  let layout := layout.withWorkspace index
  match (layout.workspaceAt index).bind fun workspace =>
      setMasterShare workspace.splitRatios ratio with
  | none => (layout, false)
  | some splitRatios =>
      (layout.updateWorkspaceAt index fun workspace => { workspace with splitRatios }, true)

def checked (edited : SharedLayout × Bool) : Edited :=
  match edited.1.validate with
  | .ok _ => .ok edited
  | .error error => .error (.invalidDocument error)

/-- Only a floating pane can be pinned, and pinning ends fullscreen. -/
def setPinned (id : PaneId) (pinned : Bool) : SharedLayout × Bool :=
  match layout.workspacePositionOf id with
  | none => (layout, false)
  | some position =>
      let pane := (layout.workspaces[position]?).bind fun workspace =>
        workspace.panes.find? (·.paneId == id)
      let changed := pane.any fun pane =>
        pane.pinned != (pinned && pane.floating) || (pinned && pane.floating && pane.fullscreen)
      (layout.updateWorkspace position fun workspace =>
        workspace.updatePane id fun pane =>
          { pane with
            pinned := pinned && pane.floating
            fullscreen := pane.fullscreen && !(pinned && pane.floating) }, changed)

/-- A pane arriving in a workspace, at the end of its panes and, when tiled, of its settled
tree. -/
def receivePane (pane : SharedPane) (workspace : SharedWorkspace) : SharedWorkspace :=
  let workspace :=
    if pane.floating then workspace
    else
      let settled := workspace.settleTree
      { settled with
        tree := fromDwindle some
          (appendTiledLeaf settled.storedTileTree pane.paneId settled.startAxis) }
  let workspace := { workspace with panes := workspace.panes ++ [pane] }
  if pane.fullscreen then workspace.clearOtherFullscreen pane.paneId else workspace

def movePaneFields (id : PaneId) (target : Nat) : Edited :=
  match layout.workspacePositionOf id with
  | none => .error (.paneNotPlaced id)
  | some source =>
      match (layout.workspaces[source]?).bind fun workspace =>
          (workspace.panes.find? (·.paneId == id)).map fun pane => (workspace, pane) with
      | none => .error (.paneNotPlaced id)
      | some (workspace, pane) =>
          if workspace.index = target then .ok (layout, false)
          else
            let left := layout.updateWorkspace source fun workspace =>
              { workspace with panes := workspace.panes.eraseP (·.paneId == id) }.settleTree
            .ok ((left.withWorkspace target).updateWorkspaceAt target (receivePane pane), true)

/-- Sending a pinned pane to another workspace settles it there. -/
def unpinnedFor (id : PaneId) (target : Nat) : SharedLayout × Bool :=
  if ((layout.workspacePositionOf id).bind (layout.workspaces[·]?)).any (·.index != target) then
    layout.setPinned id false
  else (layout, false)

def movePane (id : PaneId) (target : Nat) : Edited := do
  let unpinned := layout.unpinnedFor id target
  let moved ← unpinned.1.movePaneFields id target
  checked (moved.1, moved.2 || unpinned.2)

def swapPaneFields (id other : PaneId) : Edited :=
  match layout.workspacePositionOf id, layout.workspacePositionOf other with
  | none, _ => .error (.paneNotPlaced id)
  | some _, none => .error (.paneNotPlaced other)
  | some position, some otherPosition =>
      let tiled := fun id => (layout.workspaces[position]?).any fun workspace =>
        workspace.panes.any fun pane => pane.paneId == id && !pane.floating
      if id = other || position != otherPosition || !tiled id || !tiled other then
        .error (.notSwappable id other)
      else
        let settled := layout.updateWorkspace position SharedWorkspace.settleTree
        match (settled.workspaces[position]?).bind SharedWorkspace.storedTileTree with
        | none => .error (.notSwappable id other)
        | some tree =>
            .ok (settled.updateWorkspace position fun workspace =>
              { workspace with tree := fromDwindle some (swapTreeLeaves tree id other) }, true)

def swapPanes (id other : PaneId) : Edited := do
  let swapped ← layout.swapPaneFields id other
  checked swapped

/-- `remove_pane`: the document without the pane and the index of the workspace it left, or nothing
when the document never placed it. -/
def removePane (id : PaneId) : Option (SharedLayout × Nat) := do
  let position ← layout.workspacePositionOf id
  let workspace ← layout.workspaces[position]?
  return (layout.updateWorkspace position fun workspace =>
    { workspace with panes := workspace.panes.filter (·.paneId != id) }.settleTree,
    workspace.index)

/-- A pane floated at `rect`, or brought back to the tiling. -/
def floatPane (rect : Option FracRect) (pane : SharedPane) : SharedPane :=
  { pane with floating := rect.isSome, pinned := pane.pinned && rect.isSome, rect }

def setFloatPlacement (id : PaneId) (rect : Option FracRect) : SharedLayout :=
  match layout.workspacePositionOf id with
  | none => layout
  | some position =>
      layout.updateWorkspace position fun workspace =>
        let placed := workspace.updatePane id (floatPane rect)
        if (workspace.panes.find? (·.paneId == id)).any (·.floating != rect.isSome) then
          placed.settleTree
        else placed

/-- The fullscreen state and the sizes a `pane set` asks for. -/
def editPlaced (id : PaneId) (edit : PaneEdit) (workspace : SharedWorkspace) : SharedWorkspace :=
  let workspace := match edit.fullscreen with
    | some fullscreen => workspace.updatePane id fun pane =>
        { pane with fullscreen, pinned := pane.pinned && !fullscreen }
    | none => workspace
  let workspace :=
    if edit.fullscreen == some true then workspace.clearOtherFullscreen id else workspace
  workspace.applyPaneSizes id edit

/-- `floatRect` is where automation floats the pane, if it can be floated. -/
def editPaneFields (id : PaneId) (edit : PaneEdit) (floatRect : Option FracRect) : Edited :=
  match layout.workspacePositionOf id with
  | none => .error (.paneNotPlaced id)
  | some position =>
      let before := layout.workspaces[position]?
      let floatingNow := (before.bind fun workspace =>
        workspace.panes.find? (·.paneId == id)).any SharedPane.floating
      let placed :=
        if !edit.floats floatingNow then layout.setFloatPlacement id none
        else if (edit.rect.isSome || !floatingNow) && floatRect.isSome then
          layout.setFloatPlacement id floatRect
        else layout
      let edited := placed.updateWorkspace position (editPlaced id edit)
      .ok (edited, edited.workspaces[position]? != before)

def editPane (id : PaneId) (edit : PaneEdit) (floatRect : Option FracRect) : Edited := do
  let edited ← layout.editPaneFields id edit floatRect
  checked edited

def paneInSplit (id : PaneId) : Bool :=
  ((layout.workspacePositionOf id).bind (layout.workspaces[·]?)).any fun workspace =>
    workspace.effectiveTree.any fun tree => (leafShare tree id).isSome

end SharedLayout

end Rozi
