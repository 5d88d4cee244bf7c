import Rozi.Session.Lease

/-!
Starting, replacing and ending the panes of a session. A process is started by the host, which may
fail; everything the host decides is handed to the server by a `Host`.
-/

namespace Rozi

def defaultCols : Nat := 120

def defaultRows : Nat := 32

def maxGeneration : Nat := 18446744073709551615

structure AgentResumeLaunch where
  label : String
  launch : PaneLaunch
  attach : Option (List String)
  deriving DecidableEq, Repr

structure SpawnRequest where
  paneId : PaneId
  owner : Option ClientId := none
  generation : Nat
  launch : Option PaneLaunch := none
  agentResume : Option AgentResumeLaunch := none
  cwd : Option String := none
  title : Option String := none
  cols : Nat := 0
  rows : Nat := 0
  keepOpen : Bool := false
  deriving DecidableEq, Repr

/-- What the machine answers: a started process by its id, if it has one to tell, or why it did not
start, and the directory a pane really starts in. -/
structure Host where
  start : Option PaneLaunch → Except String (Option Nat)
  effectiveCwd : Option String → Option String := id

structure Started where
  outcome : Except String (Option Nat)
  launch : Option PaneLaunch
  agentResume : Option PaneResume

/-- A resume that cannot start gets a second attempt, the interactive shell; a pane that is then a
shell forgets its launch intent. -/
def Host.startPane (host : Host) (request : SpawnRequest) : Started :=
  match request.agentResume with
  | none => { outcome := host.start request.launch, launch := request.launch, agentResume := none }
  | some resume =>
      match host.start (some resume.launch) with
      | .ok pid =>
          { outcome := .ok pid, launch := request.launch
            agentResume := some { label := resume.label, attach := resume.attach, attached := false } }
      | .error _ =>
          match host.start none with
          | .ok pid => { outcome := .ok pid, launch := none, agentResume := none }
          | .error error =>
              { outcome := .error error, launch := request.launch, agentResume := none }

namespace SpawnRequest

variable (request : SpawnRequest)

def refused (error : String) : ServerMessage :=
  .spawnResult request.paneId request.owner.isSome request.generation none false (some error)

def accepted (pid : Option Nat) : ServerMessage :=
  .spawnResult request.paneId request.owner.isSome request.generation pid true none

def size : Nat × Nat :=
  (max (if request.cols = 0 then defaultCols else request.cols) 1,
    max (if request.rows = 0 then defaultRows else request.rows) 1)

def launchError : Option String :=
  request.launch.bind fun launch =>
    match launch.validate with
    | .ok _ => none
    | .error error => some error

end SpawnRequest

namespace ServerPane

def heldOpen (pane : ServerPane) : Bool :=
  !pane.commandCompleted && (pane.agentResume.isSome || (pane.keepOpen && pane.launch.isSome))

/-- The pane `replace_with_keep_open_shell` leaves: attached to the conversation it could not
resume, when that failed `recently` and names a way, or a shell, or exited. -/
def replaced (pane : ServerPane) (host : Host) (code : Int) (recently : Bool) : ServerPane :=
  let attach := ((pane.agentResume.filter fun _ => code != 0 && recently).bind
    PaneResume.attach).bind fun argv => (PaneLaunch.requestDirect argv).toOption
  match pane.agentResume, attach.map fun launch => host.start (some launch) with
  | some resume, some (.ok _) =>
      { pane with
        exited := none
        agentResume := some { resume with attach := none, attached := true } }
  | resume, _ =>
      match host.start none with
      | .ok _ =>
          { pane with
            commandCompleted := true
            exited := none
            agentResume := none
            launch := if resume.any fun resume => resume.attached || code != 0 then none
              else pane.launch }
      | .error _ => { pane with exited := some code, agentResume := none }

def ended (pane : ServerPane) (id : PaneId) (host : Host) (code : Int) (recently : Bool) :
    ServerPane :=
  if !pane.heldOpen then { pane with exited := some code }
  else if id = popupPaneId then { pane with exited := some code }
  else pane.replaced host code recently

end ServerPane

namespace SessionServer

variable (server : SessionServer)

def pane (owner : Option ClientId) (id : PaneId) : Option ServerPane :=
  match owner with
  | some owner => server.localPanes.lookup (owner, id)
  | none => server.panes.lookup id

def removeOwnedPane (owner : Option ClientId) (id : PaneId) : SessionServer :=
  match owner with
  | some owner => { server with localPanes := server.localPanes.erase (owner, id) }
  | none => { server with panes := server.panes.erase id }

def insertOwnedPane (owner : Option ClientId) (id : PaneId) (pane : ServerPane) : SessionServer :=
  match owner with
  | some owner => { server with localPanes := server.localPanes.insert (owner, id) pane }
  | none => { server with panes := server.panes.insert id pane }

def raiseGeneration (generation : Nat) : SessionServer :=
  { server with
    nextGeneration := max server.nextGeneration (min (generation + 1) maxGeneration) }

/-- A live pane is not replaced; an exited one is, in place. -/
def occupied (request : SpawnRequest) : Bool :=
  (server.pane request.owner request.paneId).any (·.exited.isNone)

def installed (host : Host) (request : SpawnRequest) : ServerPane :=
  { generation := request.generation
    title := request.title
    cwd := host.effectiveCwd request.cwd
    launch := (host.startPane request).launch
    agentResume := (host.startPane request).agentResume
    keepOpen := request.keepOpen
    cols := request.size.1
    rows := request.size.2 }

def husk (host : Host) (request : SpawnRequest) : ServerPane :=
  { installed host request with cwd := request.cwd, agentResume := none, exited := some 127 }

def cleared (request : SpawnRequest) : SessionServer :=
  (server.removeOwnedPane request.owner request.paneId).raiseGeneration request.generation

/-- `install_pane`. The exited pane it replaces is gone before the process is started; with
`retainOnFailure` a pane that did not start stands exited in its place. -/
def installPane (host : Host) (request : SpawnRequest) (retainOnFailure : Bool) :
    SessionServer × ServerMessage :=
  match request.launchError with
  | some error => (server, request.refused error)
  | none =>
      if server.occupied request then
        (server, request.refused s!"pane {request.paneId} already exists")
      else
        let cleared := server.cleared request
        match (host.startPane request).outcome with
        | .ok pid =>
            (cleared.insertOwnedPane request.owner request.paneId (installed host request),
              request.accepted pid)
        | .error error =>
            (if retainOnFailure then
                cleared.insertOwnedPane request.owner request.paneId (husk host request)
              else cleared,
              request.refused error)

def spawnPane (host : Host) (request : SpawnRequest) : SessionServer × ServerMessage :=
  server.installPane host request false

/-- The process of a shared pane ended. A pane has one process at a time and hears of its end once,
so the pane is running. -/
def paneExited (id : PaneId) (host : Host) (generation : Nat) (code : Int) (recently : Bool) :
    SessionServer × Outgoing :=
  match server.panes.lookup id with
  | some pane =>
      if pane.generation = generation ∧ pane.exited = none then
        let ended := pane.ended id host code recently
        ({ server with panes := server.panes.insert id ended },
          if ended.exited.isSome then [(.broadcast, .exited id false generation code)] else [])
      else (server, [])
  | none => (server, [])

end SessionServer

section install

namespace SessionServer

variable {server : SessionServer} {host : Host} {request : SpawnRequest}

inductive InstallOutcome (server : SessionServer) (host : Host) (request : SpawnRequest)
    (retainOnFailure : Bool) : SessionServer × ServerMessage → Prop
  | refused (error : String)
      (kept : request.launchError.isSome = true ∨ server.occupied request = true) :
      InstallOutcome server host request retainOnFailure (server, request.refused error)
  | started {pid : Option Nat} (runnable : request.launchError = none)
      (free : server.occupied request = false)
      (running : (host.startPane request).outcome = .ok pid) :
      InstallOutcome server host request retainOnFailure
        ((server.cleared request).insertOwnedPane request.owner request.paneId
          (installed host request), request.accepted pid)
  | failed {error : String} (runnable : request.launchError = none)
      (free : server.occupied request = false)
      (stopped : (host.startPane request).outcome = .error error) :
      InstallOutcome server host request retainOnFailure
        (if retainOnFailure then (server.cleared request).insertOwnedPane request.owner
            request.paneId (husk host request)
          else server.cleared request, request.refused error)

theorem installPane_outcome (server : SessionServer) (host : Host) (request : SpawnRequest)
    (retainOnFailure : Bool) : InstallOutcome server host request retainOnFailure
      (server.installPane host request retainOnFailure) := by
  unfold installPane
  cases runnable : request.launchError with
  | some error => exact .refused error (.inl (by rw [runnable]; rfl))
  | none =>
      cases free : server.occupied request with
      | true => exact .refused _ (.inr free)
      | false =>
          simp only [Bool.false_eq_true, if_false]
          cases outcome : (host.startPane request).outcome with
          | ok pid => exact .started runnable free outcome
          | error error => exact .failed runnable free outcome

end SessionServer

end install

end Rozi
