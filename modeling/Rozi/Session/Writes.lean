import Rozi.Layout.Placements
import Rozi.Session.Spawn

/-!
The writes a client makes to the shared session: committing a layout, starting a pane together with
its placement, and killing a pane.
-/

namespace Rozi

namespace SharedLayout

variable (layout : SharedLayout)

/-- The generation a document places `id` under; a later entry overrides an earlier one. -/
def placedGeneration (id : PaneId) : Option Nat :=
  (layout.placements.reverse.find? fun entry => entry.1 == id).map Prod.snd

end SharedLayout

namespace SessionServer

variable (server : SessionServer)

def holdsPane (id generation : Nat) : Bool :=
  (server.panes.lookup id).any (·.generation == generation)

def validateSharedLayoutAgainstPanes (layout : SharedLayout) : Bool :=
  (layout.panes.all fun pane =>
    pane.paneId != popupPaneId && server.holdsPane pane.paneId pane.generation) &&
  server.panes.entries.all fun entry =>
    entry.2.exited.isSome || layout.paneIds.contains entry.1

def validateSpawnPlacement (layout : SharedLayout) (request : SpawnRequest) : Bool :=
  layout.placedGeneration request.paneId == some request.generation &&
  (layout.paneIds.all fun id => id == request.paneId ||
    (layout.placedGeneration id).any fun generation => server.holdsPane id generation) &&
  server.panes.entries.all fun entry =>
    entry.1 == request.paneId || entry.2.exited.isSome ||
      layout.placedGeneration entry.1 == some entry.2.generation

def serverLayoutAuthor : ClientId := 0

def maySpawnShared (author : ClientId) : Bool :=
  if author = serverLayoutAuthor then server.controller.isNone
  else server.isController author && !server.clientReadOnly author

def publishSharedLayout (layout : SharedLayout) (author : ClientId) (live : Bool) :
    SessionServer × Outgoing :=
  ({ server with layoutRev := server.layoutRev + 1, layout := some layout },
    [(.broadcast, .layoutCommitted (server.layoutRev + 1) author layout live)])

def layoutRejected : Target × ServerMessage :=
  (.sender, .layoutRejected server.layoutRev server.layout)

def handleCommitLayout (clientId : ClientId) (baseRev : Nat) (layout : SharedLayout)
    (live : Bool) : SessionServer × Outgoing :=
  if !server.isController clientId || server.clientReadOnly clientId then (server, [])
  else if baseRev != server.layoutRev || !layout.validate.isOk ||
      !server.validateSharedLayoutAgainstPanes layout then (server, [server.layoutRejected])
  else server.publishSharedLayout layout clientId live

def acceptsPlacement (request : SpawnRequest) (placement : SpawnPlacementCommit) : Bool :=
  placement.baseRev == server.layoutRev && placement.layout.validate.isOk &&
    server.validateSpawnPlacement placement.layout request

/-- `spawn_shared_pane`: the process is started once its placement is known to be sound, and the
placement is published once the process runs. -/
def spawnSharedPane (host : Host) (request : SpawnRequest)
    (placement : Option SpawnPlacementCommit) (author : ClientId) :
    SessionServer × Outgoing × ServerMessage :=
  if !server.maySpawnShared author || request.owner.isSome then
    (server, [], request.refused "not controller or read-only")
  else match placement with
  | none => (server, [], request.refused "shared spawn requires an atomic layout placement")
  | some placement =>
      if !server.acceptsPlacement request placement then
        (server, [server.layoutRejected],
          request.refused "stale or invalid shared spawn placement")
      else
        let (spawned, result) := server.spawnPane host request
        match result with
        | .spawnResult _ _ _ _ true _ =>
            let (published, messages) := spawned.publishSharedLayout placement.layout author false
            let metadata := (spawned.panes.lookup request.paneId).toList.map fun pane =>
              (.broadcast, .paneMetadata false (paneMetadata request.paneId pane))
            (published, metadata ++ messages, result)
        | _ => (spawned, [], result)

structure SpawnPane where
  placement : Option SpawnPlacementCommit := none
  paneId : PaneId
  isLocal : Bool := false
  generation : Nat
  launch : Option PaneLaunch := none
  cwd : Option String := none
  title : Option String := none
  cols : Nat := 0
  rows : Nat := 0
  keepOpen : Bool := false
  deriving DecidableEq, Repr

def SpawnPane.request (spawn : SpawnPane) (clientId : ClientId) : SpawnRequest :=
  { paneId := spawn.paneId
    owner := if spawn.isLocal then some clientId else none
    generation := spawn.generation
    launch := spawn.launch
    cwd := spawn.cwd
    title := spawn.title
    cols := spawn.cols
    rows := spawn.rows
    keepOpen := spawn.keepOpen }

def isLayoutRejected : Target × ServerMessage → Bool
  | (_, .layoutRejected _ _) => true
  | _ => false

def isSpawned : ServerMessage → Bool
  | .spawnResult _ _ _ _ ok _ => ok
  | _ => false

def handleLocalSpawn (host : Host) (clientId : ClientId) (spawn : SpawnPane) :
    SessionServer × Outgoing :=
  if server.clientReadOnly clientId then
    (server, [(.sender, (spawn.request clientId).refused "read-only client")])
  else if spawn.placement.isSome then (server, [])
  else
    let (spawned, result) := server.spawnPane host (spawn.request clientId)
    let metadata := if isSpawned result then
        (spawned.pane (some clientId) spawn.paneId).toList.map fun pane =>
          (.sender, .paneMetadata true (paneMetadata spawn.paneId pane))
      else []
    (spawned, (.sender, result) :: metadata)

def handleSharedSpawn (host : Host) (clientId : ClientId) (spawn : SpawnPane) :
    SessionServer × Outgoing :=
  let (spawned, messages, result) :=
    server.spawnSharedPane host (spawn.request clientId) spawn.placement clientId
  let rejection := if !isSpawned result && !messages.any isLayoutRejected then
      [spawned.layoutRejected] else []
  (spawned, (.sender, result) :: messages ++ rejection)

def handleSpawnPane (host : Host) (clientId : ClientId) (spawn : SpawnPane) :
    SessionServer × Outgoing :=
  if spawn.isLocal then server.handleLocalSpawn host clientId spawn
  else server.handleSharedSpawn host clientId spawn

def handleKill (clientId : ClientId) (paneId : PaneId) (isLocal : Bool) (generation : Nat) :
    SessionServer :=
  let owner := if isLocal then some clientId else none
  if !isLocal && !server.isController clientId then server
  else if (server.pane owner paneId).any (·.generation == generation) then
    server.removeOwnedPane owner paneId
  else server

end SessionServer

end Rozi
