import Rozi.Layout.Tiling
import Rozi.Pane.Launch
import Rozi.Library.Checks

/-!
The shared layout document and the checks a document passes before it becomes a revision.
-/

namespace Rozi

open SerializedTree Checks

abbrev ClientId := Nat

def popupPaneId : PaneId := 4294967295

def workspaceCount : Nat := 9

def sharedLayoutVersion : Nat := 4

def defaultSplitRatioSlots : Nat := 16

inductive LayoutKind where
  | dwindle | master | grid | columns | rows | scrollable | monocle
  deriving DecidableEq, Repr

namespace LayoutKind

def standard : LayoutKind := dwindle

def defaultSplitRatios : List F32 := List.replicate defaultSplitRatioSlots defaultRatio

end LayoutKind

inductive PaneTitlebarMode where
  | bar | border | integrated | inset
  deriving DecidableEq, Repr

inductive PaneBorderMode where
  | separate | merged | none | dividers
  deriving DecidableEq, Repr

structure SharedPaneGeometry where
  showTitles : Bool := true
  titlebar : PaneTitlebarMode := .bar
  borderMode : PaneBorderMode := .separate
  keepSpecialBorders : Bool := true
  padding : Nat × Nat × Nat × Nat := (0, 0, 0, 0)
  topGap : Int := 1
  deriving DecidableEq, Repr

structure FracRect where
  x : F32
  y : F32
  w : F32
  h : F32
  deriving DecidableEq, Repr

structure SharedPane where
  paneId : PaneId
  generation : Nat
  title : Option String := none
  profileName : Option String := none
  cwd : Option String := none
  launch : Option PaneLaunch := none
  replay : Bool := false
  keepOpen : Bool := false
  floating : Bool := false
  pinned : Bool := false
  fullscreen : Bool := false
  rect : Option FracRect := none
  scrollableWidth : F32 := defaultScrollableWidth
  deriving DecidableEq, Repr

structure SharedWorkspace where
  index : Nat
  name : Option String := none
  synchronized : Bool := false
  layout : LayoutKind := .dwindle
  startAxis : SplitAxis := .horizontal
  splitRatios : List F32 := []
  tree : Option (SerializedTree PaneId) := none
  panes : List SharedPane := []
  deriving DecidableEq, Repr

structure SharedLayout where
  version : Nat := sharedLayoutVersion
  canvasCols : Nat
  canvasRows : Nat
  paneGeometry : SharedPaneGeometry := {}
  workspaces : List SharedWorkspace
  deriving DecidableEq, Repr

def SharedWorkspace.paneIds (workspace : SharedWorkspace) : List PaneId :=
  workspace.panes.map SharedPane.paneId

def SharedLayout.panes (layout : SharedLayout) : List SharedPane :=
  layout.workspaces.flatMap SharedWorkspace.panes

/-- The identities the document places: which process each entry stands for. -/
def SharedLayout.placements (layout : SharedLayout) : List (PaneId × Nat) :=
  layout.panes.map fun pane => (pane.paneId, pane.generation)

def SharedLayout.paneIds (layout : SharedLayout) : List PaneId :=
  layout.panes.map SharedPane.paneId

inductive SharedLayoutValidationError where
  | unsupportedVersion (version : Nat)
  | zeroCanvasDimensions
  | invalidPaneGeometry
  | duplicateWorkspaceIndex (index : Nat)
  | invalidWorkspaceIndex (index : Nat)
  | reservedPaneId (id : PaneId)
  | duplicatePaneId (id : PaneId)
  | treeLeafNotInWorkspace (workspace : Nat) (paneId : PaneId)
  | duplicateTreeLeaf (workspace : Nat) (paneId : PaneId)
  | invalidSplitRatio (workspace : Nat)
  | invalidTreeSplitRatio (workspace : Nat)
  | missingFloatingRect (id : PaneId)
  | invalidPin (id : PaneId)
  | invalidFloatingRect (paneId : PaneId) (reason : String)
  | invalidScrollableWidth (id : PaneId)
  | invalidGeneration (paneId : PaneId) (generation : Nat)
  deriving DecidableEq, Repr

def SharedLayoutValidationError.text : SharedLayoutValidationError → String
  | unsupportedVersion version => s!"unsupported shared layout version {version}"
  | zeroCanvasDimensions => "canvas dimensions must be positive"
  | invalidPaneGeometry =>
      "pane padding must not exceed 8 and the workbar gap must be -1, 0, or 1"
  | duplicateWorkspaceIndex index => s!"duplicate workspace index {index}"
  | invalidWorkspaceIndex index => s!"workspace index {index} out of bounds"
  | reservedPaneId id => s!"reserved pane id {id} not allowed in shared layout"
  | duplicatePaneId id => s!"duplicate pane id {id}"
  | treeLeafNotInWorkspace workspace paneId =>
      s!"tree leaf {paneId} not found in workspace {workspace} panes"
  | duplicateTreeLeaf workspace paneId =>
      s!"duplicate tree leaf {paneId} in workspace {workspace}"
  | invalidSplitRatio workspace => s!"invalid split ratio in workspace {workspace}"
  | invalidTreeSplitRatio workspace => s!"invalid tree split ratio in workspace {workspace}"
  | missingFloatingRect id => s!"floating pane {id} missing rect"
  | invalidPin id => s!"pinned pane {id} must float and not be fullscreen"
  | invalidFloatingRect paneId reason => s!"floating pane {paneId} has invalid rect: {reason}"
  | invalidScrollableWidth id => s!"pane {id} has non-positive or non-finite scrollable width"
  | invalidGeneration paneId generation =>
      s!"pane {paneId} has invalid generation {generation}"

abbrev Validated := Except SharedLayoutValidationError

def invalidRatio (ratio : F32) : Bool :=
  !ratio.isFinite || ratio.le (.finite 0) || (F32.finite 1).le ratio

def validateRect (pane : SharedPane) : Validated Unit :=
  if pane.floating then
    match pane.rect with
    | none => .error (.missingFloatingRect pane.paneId)
    | some rect => do
        refuseIf (!rect.x.isFinite || !rect.y.isFinite || !rect.w.isFinite || !rect.h.isFinite)
          (.invalidFloatingRect pane.paneId "coordinates must be finite")
        refuseIf (rect.w.le (.finite 0) || rect.h.le (.finite 0))
          (.invalidFloatingRect pane.paneId "dimensions must be positive")
  else
    refuseIf pane.rect.isSome
      (.invalidFloatingRect pane.paneId "non-floating pane must not carry a floating rect")

/-- One round of the pane loop; `seenPanes` are the ids of every earlier pane of the document. -/
def validatePane (seenPanes : List PaneId) (pane : SharedPane) : Validated (List PaneId) := do
  refuseIf (pane.paneId == popupPaneId) (.reservedPaneId pane.paneId)
  refuseIf (seenPanes.contains pane.paneId) (.duplicatePaneId pane.paneId)
  refuseIf (pane.generation == 0) (.invalidGeneration pane.paneId pane.generation)
  refuseIf (!pane.scrollableWidth.isFinite || pane.scrollableWidth.le (.finite 0))
    (.invalidScrollableWidth pane.paneId)
  validateRect pane
  refuseIf (pane.pinned && (!pane.floating || pane.fullscreen)) (.invalidPin pane.paneId)
  return seenPanes ++ [pane.paneId]

def validateSharedTree (workspace : Nat) (workspacePanes : List PaneId) :
    List PaneId → SerializedTree PaneId → Validated (List PaneId)
  | seenLeaves, leaf pane => do
      refuseIf (!workspacePanes.contains pane) (.treeLeafNotInWorkspace workspace pane)
      refuseIf (seenLeaves.contains pane) (.duplicateTreeLeaf workspace pane)
      return seenLeaves ++ [pane]
  | seenLeaves, split _ ratio first second => do
      refuseIf (invalidRatio ratio) (.invalidTreeSplitRatio workspace)
      let seenLeaves ← validateSharedTree workspace workspacePanes seenLeaves first
      validateSharedTree workspace workspacePanes seenLeaves second

def validateSplitRatio (workspace : Nat) (_ : Unit) (ratio : F32) : Validated Unit :=
  refuseIf (invalidRatio ratio) (.invalidSplitRatio workspace)

def validateTree (workspace : SharedWorkspace) : Validated Unit :=
  match workspace.tree with
  | none => return ()
  | some tree => do
      let _ ← validateSharedTree workspace.index workspace.paneIds [] tree
      return ()

def validateWorkspace (seen : List Nat × List PaneId) (workspace : SharedWorkspace) :
    Validated (List Nat × List PaneId) := do
  refuseIf (decide (workspaceCount ≤ workspace.index)) (.invalidWorkspaceIndex workspace.index)
  refuseIf (seen.1.contains workspace.index) (.duplicateWorkspaceIndex workspace.index)
  let seenPanes ← scan validatePane seen.2 workspace.panes
  scan (validateSplitRatio workspace.index) () workspace.splitRatios
  validateTree workspace
  return (seen.1 ++ [workspace.index], seenPanes)

def SharedPaneGeometry.invalid (geometry : SharedPaneGeometry) : Bool :=
  decide (8 < geometry.padding.1) || decide (8 < geometry.padding.2.1) ||
    decide (8 < geometry.padding.2.2.1) || decide (8 < geometry.padding.2.2.2) ||
    !(decide (-1 ≤ geometry.topGap) && decide (geometry.topGap ≤ 1))

def SharedLayout.validate (layout : SharedLayout) : Validated Unit := do
  refuseIf (layout.version != sharedLayoutVersion) (.unsupportedVersion layout.version)
  refuseIf (layout.canvasCols == 0 || layout.canvasRows == 0) .zeroCanvasDimensions
  refuseIf layout.paneGeometry.invalid .invalidPaneGeometry
  let _ ← scan validateWorkspace ([], []) layout.workspaces
  return ()

def SharedPane.RectSound (pane : SharedPane) : Prop :=
  if pane.floating then
    ∃ rect, pane.rect = some rect ∧ rect.x.isFinite ∧ rect.y.isFinite ∧ rect.w.Positive ∧
      rect.h.Positive
  else pane.rect = none

structure SharedPane.Valid (pane : SharedPane) : Prop where
  unreserved : pane.paneId ≠ popupPaneId
  generation : pane.generation ≠ 0
  width : pane.scrollableWidth.Positive
  rect : pane.RectSound
  pin : pane.pinned = true → pane.floating = true ∧ pane.fullscreen = false

structure TreeValid (panes : List PaneId) (tree : SerializedTree PaneId) : Prop where
  ratios : tree.RatiosProper
  unique : tree.leaves.Nodup
  placed : ∀ id ∈ tree.leaves, id ∈ panes

structure SharedWorkspace.Valid (workspace : SharedWorkspace) : Prop where
  index : workspace.index < workspaceCount
  panes : ∀ pane ∈ workspace.panes, pane.Valid
  ratios : ∀ ratio ∈ workspace.splitRatios, ratio.Proper
  tree : ∀ tree ∈ workspace.tree, TreeValid workspace.paneIds tree

structure SharedLayout.Valid (layout : SharedLayout) : Prop where
  version : layout.version = sharedLayoutVersion
  canvas : 0 < layout.canvasCols ∧ 0 < layout.canvasRows
  geometry : layout.paneGeometry.invalid = false
  workspaces : ∀ workspace ∈ layout.workspaces, workspace.Valid
  indexes : (layout.workspaces.map SharedWorkspace.index).Nodup
  ids : layout.paneIds.Nodup

end Rozi
