import Rozi.Session.Framing
import Rozi.Session.Writes

/-!
The layout and pane commands a session server answers itself, for a session nobody controls.
-/

namespace Rozi

def headlessDefaultWorkspace : Nat := 0

/-- How the rules place a pane: the float they ask for, as the fractions of the canvas it resolves
to, and whether it fills its workspace. -/
structure RulePlacement where
  float : Option FracRect := none
  fullscreen : Bool := false
  deriving DecidableEq, Repr

abbrev PlacementRules := String → Option Nat × RulePlacement

def requestedLaunch : Option String → Option (List String) → Except String (Option PaneLaunch)
  | some _, some _ => .error "new-pane accepts either `command` or `argv`, not both"
  | some command, none => .ok (some (.shell command))
  | none, some argv => some <$> PaneLaunch.requestDirect argv
  | none, none => .ok none

/-- `spawn_policy::workspace_index`, on a workspace that may be left out. -/
def workspaceIndex : Option Nat → Except String (Option Nat)
  | none => .ok none
  | some index =>
      if index = 0 ∨ workspaceCount < index then
        .error s!"workspace index must be between 1 and {workspaceCount}"
      else .ok (some (index - 1))

/-- `resolve_placement`: a workspace asked for wins over the one the rules name. -/
def resolvePlacement (rules : PlacementRules) (command : Option String)
    (requestedWorkspace : Option Nat) : Option Nat × RulePlacement :=
  let (ruleWorkspace, placement) := command.elim (none, {}) rules
  (requestedWorkspace.or ruleWorkspace, placement)

structure SessionSpawn where
  command : Option String := none
  argv : Option (List String) := none
  cwd : Option String := none
  title : Option String := none
  keepOpen : Bool := false
  focus : Bool := false
  workspace : Option Nat := none
  size : Option PaneSize := none
  deriving DecidableEq, Repr

abbrev FloatGeometry := SharedWorkspace → PaneId → Option RequestedRect → Option FracRect

inductive ControlCommand where
  | layoutSet (workspace : Nat) (layout : Option LayoutKind) (masterRatio : Option F32)
      (ifRevision : Option Nat)
  | paneSet (target : PaneId) (floating fullscreen : Option Bool) (rect : Option CellRect)
      (rectFraction : Option FractionRect) (splitRatio widthRatio : Option F32)
      (ifRevision : Option Nat)
  | paneMove (target : PaneId) (workspace : Nat) (ifRevision : Option Nat)
  | paneSwap (target other : PaneId) (ifRevision : Option Nat)
  | paneClose (target : PaneId) (ifRevision : Option Nat)
  | newPane (spawn : SessionSpawn)
  deriving DecidableEq, Repr

/-- What a command depends on beside the session: the host that starts processes, the rules, the
geometry of floats and the byte length of the message that carries a response. -/
structure Surroundings where
  host : Host
  rules : PlacementRules
  geometry : FloatGeometry
  encoded : ControlResponse → Nat

/-- Whether the message that carries `response` fits the one frame it travels in; a frame carries its
kind byte alongside the body. -/
def Surroundings.fits (surroundings : Surroundings) (response : ControlResponse) : Bool :=
  surroundings.encoded response < Framing.maxFrameSize

def Surroundings.message (surroundings : Surroundings) (response : ControlResponse) :
    ControlResponse :=
  if surroundings.fits response then response
  else errorWith .messageTooLarge
    (s!"reply is {surroundings.encoded response / 1024} KiB, over the " ++
      s!"{Framing.maxFrameSize / 1024} KiB a session reply can carry")

/-- The pane of a headless `split`, as its document lists it. -/
def SessionSpawn.sharedPane (spawn : SessionSpawn) (id generation : Nat)
    (launch : Option PaneLaunch) (placement : RulePlacement) : SharedPane :=
  { paneId := id
    generation
    title := spawn.title
    cwd := spawn.cwd
    launch
    keepOpen := spawn.keepOpen
    floating := placement.float.isSome
    fullscreen := placement.fullscreen
    rect := placement.float }

namespace SessionServer

variable (server : SessionServer)

def emptyLayout : SharedLayout :=
  { canvasCols := defaultCols, canvasRows := defaultRows, workspaces := [] }

def revision : Option Nat :=
  server.layout.map fun _ => server.layoutRev

def heldBy (action : String) (controller : ClientId) : ControlError :=
  ⟨.notController, s!"client {controller} holds layout control of session `{server.sessionName}`; " ++
    action⟩

def unplaceable : String :=
  s!"session `{server.sessionName}` has panes but no shared layout; restore a valid session " ++
    "snapshot or recreate the invalid session"

/-- The document a headless write starts from, once the write is allowed at all. -/
def layoutForHeadlessWrite (ifRevision : Option Nat) : Requested SharedLayout :=
  match server.controller with
  | some controller =>
      .error (server.heldBy "change the layout there, or detach it first" controller)
  | none => do
      checkIfRevision ifRevision server.revision
      match server.layout with
      | some layout => .ok layout
      | none =>
          if server.panes.entries.isEmpty then .ok emptyLayout
          else errorWith .unavailable server.unplaceable

/-- `WorkspaceLayout::from_shared` for one workspace: the report of it, if the document has it. -/
def reported (layout : SharedLayout) (index : Nat) : Option SharedWorkspace :=
  (layout.workspaces.filter (·.index == index)).getLast?

/-- Commit the document when the write changed something, and describe the workspace. -/
def headlessLayoutChange (edited : SharedLayout × Bool) (index : Nat) :
    SessionServer × Outgoing × ControlResponse :=
  let (committed, broadcasts) :=
    if edited.2 then server.publishSharedLayout edited.1 serverLayoutAuthor false
    else (server, [])
  (committed, broadcasts,
    match reported edited.1 index with
    | none => requestFailed s!"workspace {index + 1} is missing"
    | some workspace => .ok (.layoutChange edited.2 committed.revision workspace))

def answered (response : ControlResponse) : SessionServer × Outgoing × ControlResponse :=
  (server, [], response)

def headlessEdit (edited : Requested ((SharedLayout × Bool) × Nat)) :
    SessionServer × Outgoing × ControlResponse :=
  match edited with
  | .error error => server.answered (.error error)
  | .ok (edited, index) => server.headlessLayoutChange edited index

def setLayout (layout : SharedLayout) (index : Nat) (edit : LayoutEdit) : SharedLayout × Bool :=
  let (layout, changed) := match edit.kind with
    | some kind => layout.setLayoutKind index kind
    | none => (layout, false)
  match edit.masterRatio with
  | some ratio =>
      let (layout, moved) := layout.setMasterRatio index ratio
      (layout, changed || moved)
  | none => (layout, changed)

def sessionLayoutSet (workspace : Nat) (layout : Option LayoutKind) (masterRatio : Option F32)
    (ifRevision : Option Nat) : Requested ((SharedLayout × Bool) × Nat) := do
  let edit ← LayoutEdit.validate layout masterRatio
  validateLayoutWorkspace workspace
  let layout ← server.layoutForHeadlessWrite ifRevision
  edit.check (layout.layoutKindOf (workspace - 1))
  return (setLayout layout (workspace - 1) edit, workspace - 1)

def notPlaced (id : PaneId) : ControlError :=
  ⟨.paneNotFound,
    if (server.panes.lookup id).isSome then s!"pane {id} is not placed in the session's layout"
    else s!"pane {id} not found in session `{server.sessionName}`"⟩

def sharedEditRefusal (error : SharedEditError) : ControlError :=
  match error with
  | .paneNotPlaced id => server.notPlaced id
  | .notSwappable _ _ => ⟨.invalidArgument, error.text⟩
  | .invalidDocument _ => ⟨.invalidArgument, s!"the edited layout would not be valid: {error.text}"⟩

def refusing (edited : Edited) : Requested (SharedLayout × Bool) :=
  match edited with
  | .ok edited => .ok edited
  | .error error => .error (server.sharedEditRefusal error)

def sessionPaneSet (geometry : FloatGeometry) (target : PaneId) (edit : Requested PaneEdit)
    (ifRevision : Option Nat) : Requested ((SharedLayout × Bool) × Nat) := do
  let edit ← edit
  let layout ← server.layoutForHeadlessWrite ifRevision
  match (layout.workspacePositionOf target).bind (layout.workspaces[·]?) with
  | none => .error (server.notPlaced target)
  | some workspace =>
      let floatingNow := workspace.panes.any fun pane => pane.paneId == target && pane.floating
      edit.checkRectTarget floatingNow
      edit.checkSizes floatingNow workspace.layout (layout.paneInSplit target)
      match layout.editPane target edit (geometry workspace target edit.rect) with
      | .ok edited => return (edited, workspace.index)
      | .error error =>
          errorWith .invalidArgument s!"the edited layout would not be valid: {error.text}"

def sessionPaneMove (target : PaneId) (workspace : Nat) (ifRevision : Option Nat) :
    Requested ((SharedLayout × Bool) × Nat) := do
  validateLayoutWorkspace workspace
  let layout ← server.layoutForHeadlessWrite ifRevision
  let edited ← server.refusing (layout.movePane target (workspace - 1))
  return (edited, workspace - 1)

def sessionPaneSwap (target other : PaneId) (ifRevision : Option Nat) :
    Requested ((SharedLayout × Bool) × Nat) := do
  let layout ← server.layoutForHeadlessWrite ifRevision
  let edited ← server.refusing (layout.swapPanes target other)
  match (layout.workspacePositionOf target).bind (layout.workspaces[·]?) with
  | none => .error (server.notPlaced target)
  | some workspace => return (edited, workspace.index)

/-- The checks of `session_pane_close` and the document without the pane, with the workspace it
left, when the document placed it. -/
def closing (target : PaneId) (ifRevision : Option Nat) :
    Requested (Option (SharedLayout × Nat)) :=
  match server.controller with
  | some controller =>
      .error (server.heldBy "close the pane there, or detach it first" controller)
  | none => do
      checkIfRevision ifRevision server.revision
      if (server.panes.lookup target).isNone then
        .error ⟨.paneNotFound, s!"pane {target} not found in session `{server.sessionName}`"⟩
      else
        match server.layout.bind (SharedLayout.removePane · target) with
        | none => .ok none
        | some (layout, index) =>
            match layout.validate with
            | .ok _ => .ok (some (layout, index))
            | .error error =>
                errorWith .invalidArgument
                  s!"the layout without pane {target} would not be valid: {error.text}"

/-- The process is ended only once the document without the pane is known to be valid, and the
revision is committed last. -/
def sessionPaneClose (target : PaneId) (ifRevision : Option Nat) :
    SessionServer × Outgoing × ControlResponse :=
  match server.closing target ifRevision with
  | .error error => server.answered (.error error)
  | .ok left =>
      let removed := server.removeOwnedPane none target
      match left with
      | none => (removed, [], .ok (.paneClosed target removed.revision none))
      | some (layout, index) =>
          let (committed, broadcasts) :=
            removed.publishSharedLayout layout serverLayoutAuthor false
          (committed, broadcasts,
            .ok (.paneClosed target committed.revision (reported layout index)))

/-- Above every id in use, and none once only the reserved one is left. -/
def nextHeadlessPaneId : Option PaneId :=
  let highest := ((server.panes.keys ++ server.localPanes.keys.map Prod.snd ++
    server.layout.elim [] SharedLayout.paneIds).max?).getD 0
  if highest + 1 < popupPaneId then some (highest + 1) else none

def headlessSpawnSize : Nat × Nat :=
  match server.panes.entries.find? (·.2.exited.isNone) with
  | some entry => (entry.2.cols, entry.2.rows)
  | none => (defaultCols, defaultRows)

/-- A pane added to a workspace; when it is fullscreen the others there no longer are. -/
def addPane (pane : SharedPane) (workspace : SharedWorkspace) : SharedWorkspace :=
  { workspace with
    panes := (if pane.fullscreen then
      workspace.panes.map fun other => { other with fullscreen := false } else workspace.panes) ++
        [pane] }

def layoutWithPane (layout : SharedLayout) (index : Nat) (pane : SharedPane) : SharedLayout :=
  if (layout.workspaceAt index).isSome then layout.updateWorkspaceAt index (addPane pane)
  else { layout with workspaces := layout.workspaces ++ [{ index, panes := [pane] }] }

structure PreparedSpawn where
  request : SpawnRequest
  placement : SpawnPlacementCommit
  deriving DecidableEq, Repr

def orFail {α : Type} (result : Except String α) : Requested α :=
  match result with
  | .ok value => .ok value
  | .error error => requestFailed error

def prepareNewPane (rules : PlacementRules) (spawn : SessionSpawn) : Requested PreparedSpawn :=
  if spawn.focus then
    requestFailed "split --focus needs a UI; a session server has no focus to move"
  else match server.controller with
  | some controller =>
      .error (server.heldBy "ask it to open the pane, or detach it first" controller)
  | none => do
      orFail (spawn.size.elim (.ok ()) PaneSize.validate)
      let launch ← orFail (requestedLaunch spawn.command spawn.argv)
      let requestedWorkspace ← orFail (workspaceIndex spawn.workspace)
      let resolved := resolvePlacement rules (launch.map PaneLaunch.display) requestedWorkspace
      let index := resolved.1.getD headlessDefaultWorkspace
      if server.layout.isNone && !server.panes.entries.isEmpty then
        requestFailed server.unplaceable
      else match server.nextHeadlessPaneId with
      | none =>
          requestFailed (s!"session `{server.sessionName}` has no free pane id below the reserved " ++
            s!"{popupPaneId}")
      | some id =>
          let layout := layoutWithPane (server.layout.getD emptyLayout) index
            (spawn.sharedPane id server.nextGeneration launch resolved.2)
          if !layout.validate.isOk then
            requestFailed
              s!"placing pane {id} in workspace {index + 1} would produce an invalid layout"
          else
            let size := spawn.size.elim server.headlessSpawnSize fun size => (size.cols, size.rows)
            return {
              request := {
                paneId := id
                generation := server.nextGeneration
                launch
                cwd := spawn.cwd
                title := spawn.title
                cols := size.1
                rows := size.2
                keepOpen := spawn.keepOpen }
              placement := { baseRev := server.layoutRev, layout } }

def sessionNewPane (surroundings : Surroundings) (spawn : SessionSpawn) :
    SessionServer × Outgoing × ControlResponse :=
  match server.prepareNewPane surroundings.rules spawn with
  | .error error => server.answered (.error error)
  | .ok prepared =>
      let (spawned, broadcasts, result) := server.spawnSharedPane surroundings.host
        prepared.request (some prepared.placement) serverLayoutAuthor
      (spawned, broadcasts,
        match result with
        | .spawnResult _ _ _ _ true _ =>
            .ok (.newPaneAccepted prepared.request.paneId true)
        | .spawnResult _ _ _ _ false error => requestFailed (error.getD "spawn failed")
        | _ => .ok (.newPaneAccepted prepared.request.paneId false))

def handleControl (surroundings : Surroundings) (command : ControlCommand) :
    SessionServer × Outgoing × ControlResponse :=
  match command with
  | .layoutSet workspace layout masterRatio ifRevision =>
      server.headlessEdit (server.sessionLayoutSet workspace layout masterRatio ifRevision)
  | .paneSet target floating fullscreen rect rectFraction splitRatio widthRatio ifRevision =>
      server.headlessEdit (server.sessionPaneSet surroundings.geometry target
        (PaneEdit.validate floating fullscreen rect rectFraction splitRatio widthRatio)
        ifRevision)
  | .paneMove target workspace ifRevision =>
      server.headlessEdit (server.sessionPaneMove target workspace ifRevision)
  | .paneSwap target other ifRevision =>
      server.headlessEdit (server.sessionPaneSwap target other ifRevision)
  | .paneClose target ifRevision => server.sessionPaneClose target ifRevision
  | .newPane spawn => server.sessionNewPane surroundings spawn

end SessionServer

end Rozi
