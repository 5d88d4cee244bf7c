import Rozi.Layout.Live
import Rozi.Library.KeyedTotals
import Mathlib.Data.List.DropRight

/-!
Profiles: the layout of a session saved in a file by position, and the layout a file describes. A
profile is read as it was written, so its text is left out.
-/

namespace Rozi

open SerializedTree

def isWhitespace (c : Char) : Bool :=
  (9 ≤ c.toNat && c.toNat ≤ 13) || (0x2000 ≤ c.toNat && c.toNat ≤ 0x200A) ||
    [0x20, 0x85, 0xA0, 0x1680, 0x2028, 0x2029, 0x202F, 0x205F, 0x3000].contains c.toNat

def trim (text : String) : String :=
  String.ofList ((text.toList.dropWhile isWhitespace).rdropWhile isWhitespace)

/-- A name as it is kept: trimmed, and none when nothing is left. -/
def keptName (name : Option String) : Option String :=
  (name.map trim).filter fun name => !name.isEmpty

abbrev ProfileTree := SerializedTree PaneId

structure PaneProfile where
  id : PaneId := 0
  paneId : Option PaneId := none
  name : Option String := none
  title : Option String := none
  cwd : Option String := none
  command : Option String := none
  argv : Option (List String) := none
  keepOpen : Bool := false
  floating : Bool := false
  fullscreen : Bool := false
  pinned : Bool := false
  rect : Option FloatRect := none
  scrollableWidth : Option F32 := none
  deriving DecidableEq, Repr

structure WorkspaceProfile where
  index : Nat := 0
  name : Option String := none
  synchronized : Bool := false
  layout : LayoutKind := .dwindle
  splitRatios : List F32 := []
  focusedPane : Option PaneId := none
  tree : Option ProfileTree := none
  panes : List PaneProfile := []
  deriving DecidableEq, Repr

structure Profile where
  version : Nat := 1
  activeWorkspace : Nat := 0
  workspaces : List WorkspaceProfile := []
  deriving DecidableEq, Repr

structure Attachment where
  workspaces : List Workspace
  activeWorkspace : Nat := 0
  focusedPane : Option PaneId := none
  nextPaneId : PaneId := 1
  deriving DecidableEq, Repr

structure Terminals where
  /-- `Pane::local_cwd`. -/
  localCwd : Pane → Option String
  /-- `live_running_command`. -/
  runningCommand : Pane → Option String

def paneProfileFromState (terminals : Terminals) (index : Nat) (pane : Pane) : PaneProfile where
  id := index
  paneId := some pane.id
  name := pane.identity.customTitle.or pane.identity.profileName
  title := pane.identity.customTitle
  cwd := terminals.localCwd pane
  command :=
    match pane.identity.launch with
    | some (.direct _) => none
    | some (.shell command) => (terminals.runningCommand pane).or (some command)
    | none => terminals.runningCommand pane
  argv :=
    match pane.identity.launch with
    | some (.direct argv) => some argv
    | _ => none
  keepOpen := pane.identity.keepOpen
  floating := pane.floating
  fullscreen := pane.fullscreen
  pinned := pane.pinned
  rect := if pane.floating then some pane.floatingRect else none
  scrollableWidth :=
    let width := sanitizeScrollableWidth pane.scrollableWidth
    if width != defaultScrollableWidth then some width else none

/-- `pane_indices`: the position of each live pane. -/
def Workspace.paneIndices (workspace : Workspace) : AList fun _ : PaneId => Nat :=
  AList.collect (workspace.livePanes.mapIdx fun index pane => (pane.id, index))

def workspaceProfileFromState (terminals : Terminals) (index : Nat) (workspace : Workspace) :
    WorkspaceProfile where
  index
  name := workspace.name
  synchronized := workspace.synchronized
  layout := workspace.layoutKind
  splitRatios := workspace.splitRatios
  focusedPane := workspace.focusedPane.bind workspace.paneIndices.lookup
  tree := workspace.tileTree.bind (fromDwindle workspace.paneIndices.lookup)
  panes := workspace.livePanes.mapIdx (paneProfileFromState terminals)

def profileFromState (terminals : Terminals) (attachment : Attachment) : Profile where
  activeWorkspace := attachment.activeWorkspace
  workspaces := (attachment.workspaces.mapIdx fun index workspace => (index, workspace)).filterMap
    fun (index, workspace) =>
      if workspace.panes.any (!·.closing) then
        some (workspaceProfileFromState terminals index workspace)
      else none

structure ProfileConfig where
  /-- `layout.default`. -/
  defaultLayout : LayoutKind
  /-- `config::expand_path`. -/
  expandPath : String → String
  /-- The directory rozi was started from. -/
  cwd : Option String := none

/-- `Workspace::new`. -/
def Workspace.fresh (index : Nat) : Workspace where
  startAxis := SplitAxis.startForWorkspace index

def ProfileRect.standard : FloatRect where
  x := .finite 0
  y := .finite 0
  w := .finite 1
  h := .finite 1

def nextPaneIdAfter (id : PaneId) : PaneId := min (id + 1) popupPaneId

def PaneProfile.launch (profile : PaneProfile) : Option PaneLaunch :=
  (profile.argv.bind fun argv => (PaneLaunch.requestDirect argv).toOption).or
    ((profile.command.filter fun command => !(trim command).isEmpty).map PaneLaunch.shell)

def restorePane (config : ProfileConfig) (id : PaneId) (profile : PaneProfile) : Pane where
  id
  ptyGeneration := 0
  identity :=
    { customTitle := profile.name.or profile.title
      profileName := profile.name.or profile.title
      cwd := profile.cwd.map config.expandPath
      launch := profile.launch
      keepOpen := profile.keepOpen
      replay :=
        match profile.launch with
        | some (.shell _) => true
        | _ => false }
  floating := profile.floating
  fullscreen := profile.fullscreen
  pinned := profile.pinned && profile.floating && !profile.fullscreen
  floatingRect := profile.rect.getD ProfileRect.standard
  scrollableWidth := sanitizeScrollableWidth (profile.scrollableWidth.getD defaultScrollableWidth)

def restorePanes (config : ProfileConfig) :
    PaneId → List PaneProfile → List (PaneId × Pane) × PaneId
  | next, [] => ([], next)
  | next, profile :: rest =>
      let id := profile.paneId.getD next
      let restored := restorePanes config (max next (nextPaneIdAfter id)) rest
      ((profile.id, restorePane config id profile) :: restored.1, restored.2)

def appendTiledWindows (workspace : Workspace) (ids : List PaneId) : Workspace :=
  { workspace with tileTree := ids.foldl (appendMissing workspace.startAxis) workspace.tileTree }

def restoreWorkspace (profile : WorkspaceProfile) (restored : List (PaneId × Pane))
    (workspace : Workspace) : Workspace :=
  let profilePaneIds := AList.collect (restored.map fun entry => (entry.1, entry.2.id))
  let panes := workspace.panes ++ restored.map Prod.snd
  let workspace := { workspace with
    name := keptName profile.name
    synchronized := profile.synchronized
    layoutKind := profile.layout
    splitRatios :=
      if profile.splitRatios.isEmpty then workspace.splitRatios else profile.splitRatios
    panes
    focusedPane := (profile.focusedPane.bind profilePaneIds.lookup).or (panes.head?.map Pane.id)
    tileTree := profile.tree.bind (toDwindle profilePaneIds.lookup false) }
  if workspace.tileTree.isNone then
    appendTiledWindows workspace ((panes.filter fun pane => !pane.floating).map Pane.id)
  else workspace

def restoreWorkspaces (config : ProfileConfig) :
    List Workspace → PaneId → List WorkspaceProfile → List Workspace × PaneId
  | workspaces, next, [] => (workspaces, next)
  | workspaces, next, profile :: rest =>
      if workspaceCount ≤ profile.index then restoreWorkspaces config workspaces next rest
      else
        let restored := restorePanes config next profile.panes
        restoreWorkspaces config
          (workspaces.modify profile.index (restoreWorkspace profile restored.1)) restored.2 rest

def freshWorkspaces (config : ProfileConfig) : List Workspace :=
  (List.range workspaceCount).map fun index =>
    { Workspace.fresh index with layoutKind := config.defaultLayout }

def attachmentFromProfile (config : ProfileConfig) (profile : Profile) : Option Attachment :=
  if profile.workspaces.all (·.panes.isEmpty) then none
  else
    let restored := restoreWorkspaces config (freshWorkspaces config) 1 profile.workspaces
    let activeWorkspace :=
      if profile.activeWorkspace < workspaceCount then profile.activeWorkspace else 0
    if restored.1.all (·.panes.isEmpty) then none
    else some {
      workspaces := restored.1
      activeWorkspace
      focusedPane := restored.1[activeWorkspace]?.bind Workspace.focusedPane
      nextPaneId := restored.2 }

end Rozi
