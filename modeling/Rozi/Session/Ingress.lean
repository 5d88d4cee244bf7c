import Rozi.Session.Media

/-!
The ingress of a session server: the queue its PTYs, workers and fenced clients push to, the pop
that passes over what an active media job blocks, and the handling of what it takes.
-/

namespace Rozi

inductive Ingress.ClientMessage where
  | attach (content : String)
  | query (content : String)
  | sessionControl (content : String)
  | detach
  | pong (seq : Nat)
  | resize (paneId : PaneId) (isLocal : Bool) (generation : Nat) (content : String)
  | setPalette (paneId : PaneId) (isLocal : Bool) (generation : Nat) (content : String)
  | configurePane (paneId : PaneId) (isLocal : Bool) (generation : Nat) (content : String)
  | spawnPane (paneId : PaneId) (isLocal : Bool) (content : String)
  | other (content : String)
  deriving DecidableEq, Repr

namespace Ingress.ClientMessage

def isPong : ClientMessage → Bool
  | pong _ => true
  | _ => false

def isDetach : ClientMessage → Bool
  | detach => true
  | _ => false

def opensConnection : ClientMessage → Bool
  | attach _ | query _ | sessionControl _ => true
  | _ => false

end Ingress.ClientMessage

inductive TerminalPtyEvent where
  | output (bytes : Bytes)
  | exited (code : Int)
  | error (message : String)
  deriving DecidableEq, Repr

/-- `browse` stands for the directory and change listings. -/
inductive ServerEvent where
  | mediaBarrier (client : ClientId) (message : Ingress.ClientMessage)
  | pty (key : MediaKey) (event : TerminalPtyEvent)
  | browse (client : ClientId) (listing : String)
  deriving DecidableEq, Repr

namespace ServerEvent

def coalesceOutput : ServerEvent → ServerEvent → Option ServerEvent
  | pty key (.output bytes), pty nextKey (.output next) =>
      if key ≠ nextKey ∨ maxCoalescedPaneBytes < bytes.length + next.length then none
      else some (pty key (.output (bytes ++ next)))
  | _, _ => none

def splitMedia (event : ServerEvent) (selected : Option Nat) :
    ServerEvent × Option (ServerEvent × Nat) :=
  match selected, event with
  | some length, pty key (.output bytes) =>
      if bytes.length ≤ length then (event, none)
      else
        let tail := bytes.drop length
        (pty key (.output (bytes.take length)), some (pty key (.output tail), tail.length))
  | _, _ => (event, none)

end ServerEvent

structure MediaClient where
  id : ClientId
  attached : Bool := false
  transportClosed : Bool := false
  deriving DecidableEq, Repr

structure Ingress where
  nextClientId : ClientId := 1
  clients : List MediaClient := []
  panes : Option ClientId → PaneId → Option Nat := fun _ _ => none
  events : ByteQueue ServerEvent := { capacity := maxPtyIngressBytes }
  media : MediaPipeline := {}

/-- What a step shows: bytes a PTY delivered, frames received, controls executed and events handled,
and the output staged for and emitted to the readers. An executed control comes with whether it was
accepted, the stream it would mutate and the active one. -/
inductive Occurrence where
  | delivered (key : MediaKey) (bytes : Bytes)
  | received (client : ClientId) (message : Ingress.ClientMessage)
  | executed (client : ClientId) (message : Ingress.ClientMessage) (accepted : Bool)
      (stream active : Option MediaKey)
  | handled (key : MediaKey) (bytes : Bytes) (prepared : Option TerminalPreparedInput)
  | staged (key : MediaKey) (transactions : List TerminalOutputTransaction)
  | emitted (key : MediaKey) (batch : List TerminalOutputTransaction) (continuation : Bool)
  | removed (client : ClientId)
  deriving DecidableEq, Repr

abbrev Occurring := Ingress × List Occurrence

def Occurring.andThen (before : Occurring) (next : Ingress → Occurring) : Occurring :=
  ((next before.1).1, before.2 ++ (next before.1).2)

/-- What the handlers outside this model do to the state inside it. -/
inductive Effect where
  | attach (client : ClientId)
  | remove (client : ClientId)
  | setPane (owner : Option ClientId) (pane : PaneId) (generation : Option Nat)
  | emitMedia
  | stageOutput (key : MediaKey) (transactions : List TerminalOutputTransaction)
  | discardCompleted (key : MediaKey)
  deriving DecidableEq, Repr

/-- The answers a scan of the queue gets from elsewhere. -/
structure Preparing where
  spawns : Bool := true
  accepts : Bool := true
  prepareMediaInput : MediaKey → Bytes → Option GraphicsRelayPolicy := fun _ _ => none

structure Handling where
  parses : Bool := true
  transactions : List TerminalOutputTransaction := []
  effects : List Effect := []
  deriving DecidableEq, Repr

structure PhaseScan where
  media : MediaPipeline
  blocked : List MediaKey := []
  blockedClients : List ClientId := []
  selectedPrefix : Option Nat := none

namespace Ingress

variable (server : Ingress)

def clientAttached (client : ClientId) : Bool :=
  server.clients.any fun conn => conn.id = client && conn.attached

def connected (client : ClientId) : Bool := server.clients.any fun conn => conn.id = client

def mutatedStream (client : ClientId) : ClientMessage → Option MediaKey
  | .resize paneId isLocal generation _
  | .setPalette paneId isLocal generation _
  | .configurePane paneId isLocal generation _ =>
      some { owner := if isLocal then some client else none, pane := paneId, generation }
  | .spawnPane paneId isLocal _ =>
      let owner := if isLocal then some client else none
      (server.panes owner paneId).map fun generation => { owner, pane := paneId, generation }
  | _ => none

def mediaBarrierKey (client : ClientId) (message : ClientMessage) : Option MediaKey :=
  if !server.clientAttached client then none
  else
    match server.media.active, server.mutatedStream client message with
    | some active, some key => if key = active then some key else none
    | _, _ => none

def prepareEventMedia (preparing : Preparing) (key : MediaKey) (event : TerminalPtyEvent)
    (media : MediaPipeline) : Bool × MediaPipeline :=
  match event with
  | .output bytes =>
      match server.panes key.owner key.pane with
      | none => (true, media)
      | some generation =>
          if generation ≠ key.generation then (true, media)
          else
            match preparing.prepareMediaInput key bytes with
            | none => (true, media)
            | some relayPolicy =>
                media.start preparing.spawns preparing.accepts key { source := bytes, relayPolicy }
  | .exited _ | .error _ => (true, media)

def mediaEventReady (commitMedia : Bool) (preparing : Preparing) (scan : PhaseScan)
    (key : MediaKey) (event : TerminalPtyEvent) : Bool × PhaseScan :=
  if key ∈ scan.blocked then (false, scan)
  else
    match scan.media.readyLength key with
    | some length =>
        if commitMedia then (true, { scan with selectedPrefix := some length })
        else (false, { scan with blocked := key :: scan.blocked })
    | none =>
        if scan.media.active = some key then (false, { scan with blocked := key :: scan.blocked })
        else
          let (ready, media) := server.prepareEventMedia preparing key event scan.media
          if ready then (true, { scan with media })
          else (false, { scan with media, blocked := key :: scan.blocked })

def eventReady (commitMedia : Bool) (preparing : Preparing) (scan : PhaseScan) :
    ServerEvent → Bool × PhaseScan
  | .mediaBarrier client message =>
      if client ∈ scan.blockedClients then (false, scan)
      else
        match { server with media := scan.media }.mediaBarrierKey client message with
        | some key =>
            (false,
              { scan with
                blockedClients := client :: scan.blockedClients
                blocked := key :: scan.blocked })
        | none => (true, scan)
  | .pty key event => server.mediaEventReady commitMedia preparing scan key event
  | .browse _ _ => (true, scan)

def nextReadyEventPhase (commitMedia : Bool) (preparing : Preparing) :
    Option ServerEvent × Ingress :=
  let (event, scan, events) := server.events.tryPopReady
    (server.eventReady commitMedia preparing)
    (fun scan event => event.splitMedia scan.selectedPrefix) { media := server.media }
  (event, { server with events, media := scan.media })

def forgetMediaBarriers (client : ClientId) : Ingress :=
  { server with
    media := { server.media with
      clientBarriers := Function.update server.media.clientBarriers client none } }

def removeClient (client : ClientId) : Occurring :=
  let server := server.forgetMediaBarriers client
  if server.connected client then
    ({ server with clients := server.clients.eraseP fun conn => conn.id == client },
      [.removed client])
  else (server, [])

def releaseCount (client : ClientId) : Ingress :=
  { server with
    media := { server.media with
      clientBarriers := match server.media.clientBarriers client with
        | some remaining =>
            Function.update server.media.clientBarriers client
              (if remaining - 1 = 0 then none else some (remaining - 1))
        | none => server.media.clientBarriers } }

def releaseMediaBarrier (client : ClientId) : Occurring :=
  let server := server.releaseCount client
  let closed := server.clients.any fun conn => conn.id = client && conn.transportClosed
  if !server.media.clientFenced client && closed then server.removeClient client
  else (server, [])

def mediaBusy : Outgoing :=
  [(.sender, .error "media-busy"
    "terminal input is full; retry the change after image preparation")]

def deferMediaBarrier (size : ClientMessage → Nat) (client : ClientId) (message : ClientMessage) :
    Except Outgoing ClientMessage × Ingress :=
  if message.isPong ∨ (server.media.clientBarriers client = none ∧
      server.mediaBarrierKey client message = none) then (.ok message, server)
  else
    match server.events.tryPush (.mediaBarrier client message) (size message) with
    | .ok events =>
        let count := (server.media.clientBarriers client).getD 0 + 1
        (.error [],
          { server with
            events
            media := { server.media with
              clientBarriers := Function.update server.media.clientBarriers client
                (some count) } })
    | .error (_, events) => (.error mediaBusy, { server with events })

def emitMediaBatch : Occurring :=
  match server.media.outputBatch with
  | some (key, batch, continuation, media) =>
      ({ server with media }, [.emitted key batch continuation])
  | none => (server, [])

/-- `send_parsed_output`, as far as the pipeline stages what it sends. -/
def sendParsedOutput (key : MediaKey) (transactions : List TerminalOutputTransaction) :
    Occurring :=
  if server.panes key.owner key.pane = some key.generation then
    let (staged, media) := server.media.stageOutput key transactions
    ({ server with media }, if staged then [.staged key transactions] else [])
  else (server, [])

def discardCompleted (key : MediaKey) : Ingress :=
  { server with media := server.media.discardCompleted key }

def apply : Effect → Occurring
  | .attach client =>
      ({ server with
        clients := server.clients.map fun conn =>
          if conn.id = client then { conn with attached := true } else conn }, [])
  | .remove client => server.removeClient client
  | .setPane owner pane generation =>
      ({ server with
        panes := fun other id =>
          if other = owner ∧ id = pane then generation else server.panes other id }, [])
  | .emitMedia => server.emitMediaBatch
  | .stageOutput key transactions => server.sendParsedOutput key transactions
  | .discardCompleted key => (server.discardCompleted key, [])

def applyAll : Ingress → List Effect → Occurring
  | server, [] => (server, [])
  | server, effect :: effects => (server.apply effect).andThen fun server => applyAll server effects

def acceptsClientControl (client : ClientId) (message : ClientMessage) : Bool :=
  message.opensConnection || server.clientAttached client

def processClientControlNow (client : ClientId) (message : ClientMessage)
    (effects : List Effect) : Occurring :=
  let accepted := server.acceptsClientControl client message
  let called := [Occurrence.executed client message accepted (server.mutatedStream client message)
    server.media.active]
  if !accepted then (server, called)
  else
    Occurring.andThen (server, called) fun server =>
      (server.applyAll effects).andThen fun server =>
        if message.isDetach then server.removeClient client else (server, [])

def processClientFrame (size : ClientMessage → Nat) (client : ClientId) (message : ClientMessage)
    (effects : List Effect) : Occurring :=
  Occurring.andThen (server, [.received client message]) fun server =>
    match server.deferMediaBarrier size client message with
    | (.ok message, server) => server.processClientControlNow client message effects
    | (.error _, server) => (server, [])

def applyPty (key : MediaKey) (event : TerminalPtyEvent)
    (prepared : Option TerminalPreparedInput) (handling : Handling) : Occurring :=
  if server.panes key.owner key.pane ≠ some key.generation then (server, [])
  else
    match event with
    | .output _ =>
        if prepared.isSome && !handling.parses then (server.discardCompleted key, [])
        else
          (server.sendParsedOutput key handling.transactions).andThen fun server =>
            server.applyAll handling.effects
    | .exited _ =>
        (server.sendParsedOutput key handling.transactions).andThen fun server =>
          server.applyAll handling.effects
    | .error _ => server.applyAll handling.effects

def handlePty (key : MediaKey) (event : TerminalPtyEvent) (handling : Handling) : Occurring :=
  let (prepared, media) := server.media.takeReady key
  let seen := match event with
    | .output bytes => [Occurrence.handled key bytes prepared]
    | .exited _ | .error _ => []
  Occurring.andThen ({ server with media }, seen) fun server =>
    server.applyPty key event prepared handling

def handleEvent (event : ServerEvent) (handling : Handling) : Occurring :=
  match event with
  | .mediaBarrier client message =>
      (if server.clientAttached client then
        server.processClientControlNow client message handling.effects
      else (server, [])).andThen fun server => server.releaseMediaBarrier client
  | .pty key event => server.handlePty key event handling
  | .browse _ _ => server.applyAll handling.effects

def pollMedia (relay : GraphicsRelayPolicy) (accepts : Bool) (consumes : Consumes) : Ingress :=
  let server := { server with media := server.media.poll relay accepts consumes }
  match server.media.active with
  | some key =>
      if server.panes key.owner key.pane = some key.generation then server
      else server.discardCompleted key
  | none => server

def disconnectAfterControls (client : ClientId) : Occurring :=
  if server.media.clientFenced client then
    ({ server with
      clients := server.clients.map fun conn =>
        if conn.id = client then { conn with transportClosed := true } else conn }, [])
  else server.removeClient client

end Ingress

inductive IngressAction where
  | acceptNew
  | deliver (key : MediaKey) (event : TerminalPtyEvent)
  | browse (client : ClientId) (listing : String) (bytes : Nat)
  | control (client : ClientId) (message : Ingress.ClientMessage) (effects : List Effect)
  | nextReady (commitMedia : Bool) (preparing : Preparing) (handling : Handling)
  | poll (relay : GraphicsRelayPolicy) (accepts : Bool) (consumes : Consumes)
  | finishJob (consumes : Consumes)
  | disconnect (client : ClientId)
  | effect (effect : Effect)

namespace Ingress

variable (server : Ingress)

def ptyBytes : TerminalPtyEvent → Nat
  | .output bytes => bytes.length
  | .exited _ | .error _ => 0

/-- The producer of an event that is not pushed waits, or its queue has closed or could never hold
it. -/
def deliver (key : MediaKey) (event : TerminalPtyEvent) : Occurring :=
  match server.events.pushBlockingWith (.pty key event) (ptyBytes event)
      ServerEvent.coalesceOutput with
  | .ok events =>
      ({ server with events },
        match event with
        | .output bytes => [.delivered key bytes]
        | .exited _ | .error _ => [])
  | .error (_, events) => ({ server with events }, [])

def browse (client : ClientId) (listing : String) (bytes : Nat) : Ingress :=
  match server.events.pushBlockingWith (.browse client listing) bytes
      ServerEvent.coalesceOutput with
  | .ok events => { server with events }
  | .error (_, events) => { server with events }

def acceptNew : Ingress :=
  { server with
    nextClientId := server.nextClientId + 1
    clients := server.clients ++ [{ id := server.nextClientId }] }

def finishJob (consumes : Consumes) : Ingress :=
  { server with
    media := { server.media with
      worker := server.media.worker.map fun worker => worker.finishJob consumes } }

def after (size : ClientMessage → Nat) : IngressAction → Occurring
  | .acceptNew => (server.acceptNew, [])
  | .deliver key event => server.deliver key event
  | .browse client listing bytes => (server.browse client listing bytes, [])
  | .control client message effects => server.processClientFrame size client message effects
  | .nextReady commitMedia preparing handling =>
      match server.nextReadyEventPhase commitMedia preparing with
      | (some event, server) => server.handleEvent event handling
      | (none, server) => (server, [])
  | .poll relay accepts consumes => (server.pollMedia relay accepts consumes, [])
  | .finishJob consumes => (server.finishJob consumes, [])
  | .disconnect client => server.disconnectAfterControls client
  | .effect effect => server.apply effect

end Ingress

structure IngressRun where
  server : Ingress := {}
  trace : List Occurrence := []

namespace IngressRun

def after (size : Ingress.ClientMessage → Nat) (run : IngressRun) (action : IngressAction) : IngressRun :=
  { server := (run.server.after size action).1
    trace := run.trace ++ (run.server.after size action).2 }

def runs (size : Ingress.ClientMessage → Nat) : Transition IngressRun IngressAction where
  initial := fun run => run = {}
  step := fun run action next => next = run.after size action

def following (size : Ingress.ClientMessage → Nat) (actions : List IngressAction) : IngressRun :=
  actions.foldl (after size) {}

theorem following_reachable (size : Ingress.ClientMessage → Nat) (actions : List IngressAction) :
    (runs size).Reachable (following size actions) := by
  have grown : ∀ run, (runs size).Reachable run →
      (runs size).Reachable (actions.foldl (after size) run) := by
    induction actions with
    | nil => exact fun _ reached => reached
    | cons action actions ih => exact fun run reached => ih _ (reached.next action rfl)
  exact grown {} (.begin rfl)

end IngressRun

end Rozi
