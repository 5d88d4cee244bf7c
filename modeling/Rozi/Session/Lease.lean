import Rozi.Library.Transition
import Rozi.Session.Server

/-!
The layout-control lease: who may hold it, who it falls to, and the handlers that move it.

A connection that cannot take another frame is dropped by the send that found it full. Which ones
those are depends on the outboxes alone, so a step of the server is given the list of connections
its sends drop. A drop moves the lease before it sends anything itself, so nested drops are the
same as one drop after the other.
-/

namespace Rozi

def evictedErrorCode : String := "evicted"

/-- `code` of the error an attach over an unsupported protocol receives. -/
def protocolMismatchErrorCode : String := "protocol-mismatch"

namespace SessionServer

variable (server : SessionServer)

def client (id : ClientId) : Option ClientConn :=
  server.clients.find? (·.id == id)

/-- What `client_mut` lets its caller do: change the connection `id` in place. -/
def updateClient (id : ClientId) (change : ClientConn → ClientConn) : SessionServer :=
  { server with
    clients := server.clients.map fun client => if client.id = id then change client else client }

def isController (clientId : ClientId) : Bool :=
  server.controller == some clientId

def clientAttached (id : ClientId) : Bool :=
  server.clients.any fun client => client.id == id && client.attached

def clientParked (id : ClientId) : Bool :=
  server.clients.any fun client => client.id == id && client.attached && client.parked

def clientReadOnly (id : ClientId) : Bool :=
  match server.clients.find? fun client => client.id == id && client.attached with
  | some client => client.readOnly
  | none => true

def clientRoster : List ClientInfo :=
  (server.clients.filter ClientConn.attached).map fun client =>
    { id := client.id, label := client.label.getD "client", readOnly := client.readOnly
      requestingControl := client.requestingControl, parked := client.parked }

def clientsChanged : ServerMessage :=
  .clientsChanged server.clientRoster server.inputLocked server.allowTakeover

def setCloseAfterFlush (id : ClientId) : SessionServer :=
  server.updateClient id fun client => { client with closeAfterFlush := true }

/-- The oldest attached writable client that is using the session. -/
def promotionCandidate : Option ClientId :=
  ((server.clients.filter fun client =>
    client.attached && !client.readOnly && !client.parked).map ClientConn.id).min?

def clearRequest (id : ClientId) : SessionServer :=
  server.updateClient id fun client =>
    { client with requestingControl := false, lastRequestNotify := none }

def assignController (recipient : ClientId) (reason : ControllerChangeReason) :
    SessionServer × Outgoing :=
  let server := { server with controller := some recipient }.clearRequest recipient
  (server, [(.broadcast, .controllerChanged server.controller reason),
    (.broadcast, server.clientsChanged)])

def handleRequestControl (now : Instant) (clientId : ClientId) : SessionServer × Outgoing :=
  if server.clientReadOnly clientId || !server.clientAttached clientId ||
      server.clientParked clientId then (server, [])
  else if server.controller == some clientId then (server, [])
  else match server.controller with
  | none => server.assignController clientId .granted
  | some controller =>
      if server.allowTakeover then server.assignController clientId .granted
      else match server.client clientId with
      | none => (server, [])
      | some client =>
          let already := client.requestingControl
          let notify := match client.lastRequestNotify with
            | none => true
            | some last => decide (requestNotifyCooldown ≤ now - last)
          let server := server.updateClient clientId fun client =>
            { client with
              requestingControl := true
              lastRequestNotify := if notify then some now else client.lastRequestNotify }
          (server, (if already then [] else [(.broadcast, server.clientsChanged)]) ++
            if notify then [(.client controller, .controlRequested clientId)] else [])

/-- The lease falls to the next client entitled to it, whose own request is then settled. -/
def promote : SessionServer :=
  match server.promotionCandidate with
  | some promoted => { server with controller := some promoted }.clearRequest promoted
  | none => { server with controller := none }

/-- Hand the lease to the next client entitled to it, or leave the session uncontrolled. -/
def releaseController : SessionServer × Outgoing :=
  let server := server.promote
  let reason := if server.controller.isSome then .granted else .released
  (server, [(.broadcast, .controllerChanged server.controller reason),
    (.broadcast, server.clientsChanged)])

def handleSetParked (clientId : ClientId) (parked : Bool) : SessionServer × Outgoing :=
  match (server.client clientId).filter fun client => client.parked != parked with
  | none => (server, [])
  | some _ =>
      let server := server.updateClient clientId fun client => { client with parked }
      if parked && server.controller == some clientId then server.releaseController
      else if !parked && server.controller.isNone && !server.clientReadOnly clientId then
        server.assignController clientId .granted
      else (server, [(.broadcast, server.clientsChanged)])

def handleGrantControl (clientId recipient : ClientId) : SessionServer × Outgoing :=
  if !server.isController clientId || !server.clientAttached recipient ||
      server.clientReadOnly recipient || server.clientParked recipient then (server, [])
  else server.assignController recipient .granted

def handleSetControlTakeover (clientId : ClientId) (allowed : Bool) : SessionServer × Outgoing :=
  if !server.isController clientId || server.clientReadOnly clientId then (server, [])
  else
    let server := { server with allowTakeover := allowed }
    (server, [(.broadcast, server.clientsChanged)])

def handleDeclineControl (clientId recipient : ClientId) : SessionServer × Outgoing :=
  if !server.isController clientId then (server, [])
  else match (server.client recipient).filter ClientConn.requestingControl with
  | none => (server, [])
  | some _ =>
      let server := server.clearRequest recipient
      (server, [(.broadcast, server.clientsChanged), (.client recipient, .controlDeclined)])

def handleEvictClient (clientId target : ClientId) : SessionServer × Outgoing :=
  if !server.isController clientId || server.clientReadOnly clientId || target == clientId ||
      !server.clientAttached target then (server, [])
  else
    let evictor := match (server.client clientId).bind ClientConn.label with
      | some label => s!"{label} #{clientId}"
      | none => s!"client #{clientId}"
    (server.setCloseAfterFlush target,
      [(.client target, .error evictedErrorCode s!"removed from the session by {evictor}")])

/-- `remove_client_with_reason`: the roster and lease after connection `id` went, and what the
others are told. -/
def removeClientWithReason (id : ClientId) (promotionReason : ControllerChangeReason) :
    SessionServer × Outgoing :=
  match server.client id with
  | none => (server, [])
  | some removed =>
      let server := { server with
        clients := server.clients.eraseP (·.id == id)
        localPanes := ⟨server.localPanes.entries.filter fun entry => entry.1.1 != id,
          server.localPanes.nodupKeys.sublist List.filter_sublist⟩ }
      if !removed.attached then (server, [])
      else if server.controller == some id then
        let server := server.promote
        let reason := if promotionReason = .expired then .expired
          else if server.controller.isSome then promotionReason else .released
        (server, [(.broadcast, .controllerChanged server.controller reason),
          (.broadcast, server.clientsChanged)])
      else (server, [(.broadcast, server.clientsChanged)])

def removeClient (id : ClientId) : SessionServer :=
  (server.removeClientWithReason id .granted).1

/-- The connections `full` dropped by the sends of one step, in the order they were found. -/
def dropClients (full : List ClientId) : SessionServer :=
  full.foldl removeClient server

def checkAttach (request : AttachRequest) : Except ServerMessage Nat :=
  match negotiateProtocol request.protocolVersion request.minProtocolVersion protocolVersion
      minSupportedProtocol with
  | .error mismatch => .error (.error protocolMismatchErrorCode mismatch.message)
  | .ok effective =>
      if request.session != server.sessionName then
        .error (.error "session-mismatch"
          (s!"client requested session {request.session.quote}, " ++
            s!"but this server owns {server.sessionName.quote}"))
      else if request.expectedServerNonce.isSome &&
          server.startupNonce != request.expectedServerNonce then
        .error (.error "server-identity-mismatch"
          "the session endpoint belongs to a different server")
      else .ok effective

/-- The connection becomes a reader. The first one that may write is granted the lease, whatever
else its connection says. -/
def joinReader (clientId : ClientId) (request : AttachRequest) (effective : Nat) :
    SessionServer × Bool :=
  let server := server.updateClient clientId fun client =>
    { client with
      attached := true
      label := some request.label
      readOnly := request.readOnly
      sharesFilesystem := request.sharesFilesystem
      effectiveProtocol := effective }
  let granted := server.controller.isNone && !request.readOnly
  (if granted then { server with controller := some clientId } else server, granted)

/-- `handle_attach`. The output encoded for the existing readers goes out first and drops
`mediaFull`; sending the greetings of the new reader drops `greetingFull`. -/
def handleAttach (clientId : ClientId) (request : AttachRequest)
    (mediaFull greetingFull : List ClientId) : SessionServer × Outgoing :=
  match server.checkAttach request with
  | .error refusal => (server, [(.sender, refusal)])
  | .ok effective =>
      let server := server.dropClients mediaFull
      let (server, granted) := server.joinReader clientId request effective
      let greeting := .attached effective server.sessionName clientId server.paneMeta
        server.layoutRev server.layout server.controller server.clientRoster server.inputLocked
        server.allowTakeover
      let server := server.dropClients greetingFull
      (server, (.sender, greeting) :: (.broadcast, server.clientsChanged) ::
        if granted then [(.broadcast, .controllerChanged server.controller .granted)] else [])

end SessionServer

/-- The control messages of a client. Every message that is not about the lease or the end of the
connection is `other`; a query or a one-shot command is one that needs no attach. -/
inductive ClientMessage where
  | attach (request : AttachRequest)
  | detach
  | setParked (parked : Bool)
  | requestControl
  | grantControl (recipient : ClientId)
  | declineControl (recipient : ClientId)
  | setControlTakeover (allowed : Bool)
  | evictClient (target : ClientId)
  | other (query : Bool)
  deriving DecidableEq, Repr

def ClientMessage.isAttach : ClientMessage → Bool
  | attach _ => true
  | _ => false

def ClientMessage.isQuery : ClientMessage → Bool
  | other query => query
  | _ => false

/-- The connections dropped by the sends of one message: pending session events, output encoded
for the readers before an attach, the greetings of an attach, and the responses. -/
structure FullOutboxes where
  events : List ClientId := []
  media : List ClientId := []
  greeting : List ClientId := []
  responses : List ClientId := []
  deriving DecidableEq, Repr

namespace SessionServer

variable (server : SessionServer)

def acceptsClientControl (id : ClientId) (message : ClientMessage) : Bool :=
  message.isAttach || message.isQuery || server.clientAttached id

/-- `handle_message`, on the messages that reach the lease. -/
def handleMessage (now : Instant) (clientId : ClientId) (message : ClientMessage)
    (full : FullOutboxes) : SessionServer × Outgoing :=
  match message with
  | .attach request => server.handleAttach clientId request full.media full.greeting
  | .detach | .other _ => (server, [])
  | .setParked parked => server.handleSetParked clientId parked
  | .requestControl => server.handleRequestControl now clientId
  | .grantControl recipient => server.handleGrantControl clientId recipient
  | .declineControl recipient => server.handleDeclineControl clientId recipient
  | .setControlTakeover allowed => server.handleSetControlTakeover clientId allowed
  | .evictClient target => server.handleEvictClient clientId target

/-- `process_client_control_now`, as a change of the server. -/
def processClientControlNow (now : Instant) (id : ClientId) (message : ClientMessage)
    (full : FullOutboxes) : SessionServer :=
  let server := if message.isAttach then server.dropClients full.events else server
  if !server.acceptsClientControl id message then
    (server.dropClients full.responses).setCloseAfterFlush id
  else
    let server := (server.handleMessage now id message full).1.dropClients full.responses
    let server := if message.isAttach && !server.clientAttached id then
      server.setCloseAfterFlush id else server
    let server := if message.isQuery then server.setCloseAfterFlush id else server
    if message = .detach then server.removeClient id else server

def acceptNew : SessionServer :=
  { server with
    nextClientId := server.nextClientId + 1
    clients := server.clients ++ [{ id := server.nextClientId }] }

end SessionServer

/-- What moves the lease: a connection arrives, a client's control is processed, or a connection
is lost, closed or expires. A control may come from a connection that is already gone, since
decoded frames outlive it. -/
inductive LeaseLabel where
  | accept
  | control (now : Instant) (id : ClientId) (message : ClientMessage) (full : FullOutboxes)
  | lost (id : ClientId) (reason : ControllerChangeReason)

def SessionServer.leaseStep (server : SessionServer) : LeaseLabel → SessionServer
  | .accept => server.acceptNew
  | .control now id message full => server.processClientControlNow now id message full
  | .lost id reason => (server.removeClientWithReason id reason).1

/-- A session nobody has connected to, whatever panes and layout it was restored with. -/
def SessionServer.Unattended (server : SessionServer) : Prop :=
  server.clients = [] ∧ server.controller = none

def leaseRuns : Transition SessionServer LeaseLabel where
  initial := SessionServer.Unattended
  step := fun server label next => next = server.leaseStep label

end Rozi
