import Rozi.Library.KeyedTotals
import Rozi.Library.Transition
import Rozi.Session.Events
import Rozi.Session.Framing
import Rozi.Session.Outbox

/-!
Delivering recorded events to the connections that subscribed to them. A connection makes one
request; a subscribe request turns it into a stream, which begins with a snapshot or with what was
recorded after a cursor.

`S` is what a snapshot shows besides its sequence number, and `A` what requests other than a
subscription are answered with. The length of a message's JSON is a parameter; one that has no JSON
is longer than any frame.
-/

namespace Rozi.Events

inductive ControlErrorCode where
  | invalidRequest
  | invalidArgument
  | unknownEvent
  | cursorExpired
  | messageTooLarge
  deriving DecidableEq, Repr

structure Refusal where
  code : ControlErrorCode
  message : String
  expired : Option CursorExpired := none
  deriving DecidableEq, Repr

structure SessionSubscriber where
  filter : Option (List EventKind)
  deriving DecidableEq, Repr

def SessionSubscriber.wants (subscriber : SessionSubscriber) (kind : EventKind) : Bool :=
  match subscriber.filter with
  | none => true
  | some filter => filter.contains kind

structure SubscribeOptions where
  events : List String
  snapshot : Bool
  after : Option String
  deriving DecidableEq, Repr

inductive ReplyTo where
  | streamingHeadless
  | attached (requestId : Nat)
  deriving DecidableEq, Repr

def parseEventName (name : String) : Except Refusal EventKind :=
  match EventKind.parse name with
  | some kind =>
      if kind.isSessionOwned then .ok kind
      else .error
        { code := .invalidArgument
          message := s!"`{name}` is a UI event; a session server does not raise it (subscribe to " ++
            "the UI instead)" }
  | none => .error { code := .unknownEvent, message := s!"unknown event `{name}`" }

def parseEventFilter (names : List String) : Except Refusal SessionSubscriber :=
  if names.isEmpty then .ok { filter := none }
  else do
    let filter ← names.mapM parseEventName
    return { filter := some filter }

def splitOnce (separator : Char) : List Char → Option (List Char × List Char)
  | [] => none
  | first :: rest =>
      if first = separator then some ([], rest)
      else (splitOnce separator rest).map fun (before, after) => (first :: before, after)

/-- `str::parse` of a `u64`: digits, with an optional plus sign before them. -/
def parseU64 (text : List Char) : Option Nat :=
  let digits := match text with
    | '+' :: digits => digits
    | digits => digits
  if digits.isEmpty || !digits.all Char.isDigit then none
  else
    let value := digits.foldl (fun value digit => value * 10 + (digit.toNat - '0'.toNat)) 0
    if value ≤ maxU64 then some value else none

def parseCursor (cursor : String) : Except Refusal (String × Nat) :=
  let invalid : Refusal :=
    { code := .invalidArgument, message := s!"cursor must be INSTANCE:SEQ, got `{cursor}`" }
  match splitOnce ':' cursor.toList with
  | none => .error invalid
  | some (named, seq) =>
      if named.isEmpty then .error invalid
      else match parseU64 seq with
      | none => .error invalid
      | some seq => .ok (String.ofList named, seq)

inductive SessionSubscribeRecord (S : Type) where
  | snapshot (sessionInstance : String) (seq : Nat) (state : S)
  | event (event : SessionEvent)
  | lagged
  | ended
  deriving DecidableEq, Repr

/-- The messages a headless connection is sent. The protocol version and the capabilities of an
answer are left out. -/
inductive ServerMessage (S A : Type) where
  | sessionControlResult (refused : Option Refusal)
  | sessionSubscribeRecord (record : SessionSubscribeRecord S)
  | answer (answer : A)
  deriving DecidableEq, Repr

structure Stream (S : Type) where
  options : SubscribeOptions
  openedAt : Nat
  state : S

/-- A connection. `asked`, `written` and `stream` are for the proofs: whether it has made a request,
the messages it was sent to the last byte, and its subscription. -/
structure Client (S A : Type) where
  conn : ConnOutbox (ServerMessage S A) := {}
  closeAfterFlush : Bool := false
  asked : Bool := false
  written : List (ServerMessage S A) := []
  stream : Option (Stream S) := none

/-- `recorded` is for the proofs: every event there ever was. -/
structure Server (S A : Type) where
  sessionEvents : SessionEventBuffer
  clients : AList fun _ : ClientId => Client S A := ∅
  nextClientId : ClientId := 1
  sessionSubscribers : AList fun _ : ClientId => SessionSubscriber := ∅
  recorded : List SessionEvent := []

section server

variable {S A : Type} (bodyLen : ServerMessage S A → Nat)

/-- `encode_control`: a frame is the length, a tag and the body. -/
def encodeControl (message : ServerMessage S A) : Option (EncodedOutput (ServerMessage S A)) :=
  if Framing.maxFrameSize < bodyLen message + 1 then none
  else some { content := message, len := bodyLen message + 5 }

namespace Server

variable (server : Server S A)

def isSessionSubscriber (id : ClientId) : Bool := (server.sessionSubscribers.lookup id).isSome

def alter (id : ClientId) (change : Client S A → Client S A) : Server S A :=
  match server.clients.lookup id with
  | some client => { server with clients := server.clients.insert id (change client) }
  | none => server

def setCloseAfterFlush (id : ClientId) : Server S A :=
  server.alter id fun client => { client with closeAfterFlush := true }

def removeClient (id : ClientId) : Server S A :=
  { server with
    clients := server.clients.erase id
    sessionSubscribers := server.sessionSubscribers.erase id }

/-- `push_delta` of a control frame to a client; `none` when it is not there. -/
def pushDelta (id : ClientId) (bytes : EncodedOutput (ServerMessage S A)) (cap : Nat) :
    Server S A × Option ClientFrameResult :=
  match server.clients.lookup id with
  | none => (server, none)
  | some client =>
      let (conn, result) := client.conn.pushDelta bytes .control cap none true
      ({ server with clients := server.clients.insert id { client with conn } }, some result)

def enqueue (id : ClientId) (message : ServerMessage S A) : Server S A :=
  match encodeControl bodyLen message with
  | none => server
  | some bytes =>
      let (server, result) := server.pushDelta id bytes maxBacklog
      if result = some .overflow then server.removeClient id else server

def endSubscriber (record : SessionSubscribeRecord S) (server : Server S A) (id : ClientId) :
    Server S A :=
  let server := { server with sessionSubscribers := server.sessionSubscribers.erase id }
  let server := match encodeControl bodyLen (.sessionSubscribeRecord record) with
    | some bytes => (server.pushDelta id bytes maxU64).1
    | none => server
  server.setCloseAfterFlush id

def endLaggedSubscriber (id : ClientId) : Server S A := server.endSubscriber bodyLen .lagged id

/-- What one subscriber of an event is sent. -/
def deliver (bytes : EncodedOutput (ServerMessage S A)) (server : Server S A) (id : ClientId) :
    Server S A :=
  let (server, result) := server.pushDelta id bytes maxBacklog
  if result = some .overflow then server.endLaggedSubscriber bodyLen id else server

def targets (event : SessionEvent) : List ClientId :=
  (server.sessionSubscribers.entries.filter fun entry => entry.2.wants event.kind).map (·.1)

def dispatchSessionSubscribers (event : SessionEvent) : Server S A :=
  let targets := server.targets event
  if targets.isEmpty then server
  else match encodeControl bodyLen (.sessionSubscribeRecord (.event event)) with
  | none => server
  | some bytes => targets.foldl (deliver bodyLen bytes) server

def recordSessionEvent (kind : EventKind) (fields : EventFields) : Server S A :=
  let (event, sessionEvents) := server.sessionEvents.record kind fields
  { server with sessionEvents, recorded := server.recorded ++ [event] }.dispatchSessionSubscribers
    bodyLen event

/-- `end_session_subscribers`, up to the flushes that follow. -/
def endSessionSubscribers : Server S A :=
  server.sessionSubscribers.keys.foldl (endSubscriber bodyLen .ended) server

def replayAfter (cursor : String) : Except Refusal (List SessionEvent) := do
  let (named, seq) ← parseCursor cursor
  match server.sessionEvents.after named seq with
  | .ok events => .ok events
  | .error expired =>
      .error { code := .cursorExpired, message := expired.message, expired := some expired }

def subscribeSnapshot (state : S) : Except Refusal (ServerMessage S A) :=
  let message : ServerMessage S A := .sessionSubscribeRecord
    (.snapshot server.sessionEvents.sessionInstance server.sessionEvents.latestSeq state)
  let encoded := bodyLen message
  if Framing.maxFrameSize ≤ encoded then
    .error
      { code := .messageTooLarge
        message := s!"the session's snapshot is {encoded / 1024} KiB, over the " ++
          s!"{Framing.maxFrameSize / 1024} KiB one record can carry; subscribe without --snapshot " ++
          "and read `list-panes --format json` and `layout get` instead" }
  else .ok message

def replayEvent (id : ClientId) (subscriber : SessionSubscriber) (server : Server S A)
    (event : SessionEvent) : Server S A :=
  if subscriber.wants event.kind then
    server.enqueue bodyLen id (.sessionSubscribeRecord (.event event))
  else server

def queueOpening (id : ClientId) (subscriber : SessionSubscriber) (replay : List SessionEvent)
    (snapshot : Option (ServerMessage S A)) : Server S A :=
  let server := server.enqueue bodyLen id (.sessionControlResult none)
  let server := match snapshot with
    | some snapshot => server.enqueue bodyLen id snapshot
    | none => server
  replay.foldl (replayEvent bodyLen id subscriber) server

/-- The end of `open_subscription`, once nothing can be refused any more. -/
def startStream (id : ClientId) (options : SubscribeOptions) (state : S)
    (subscriber : SessionSubscriber) (replay : List SessionEvent)
    (snapshot : Option (ServerMessage S A)) : Server S A :=
  let stream : Stream S := { options, openedAt := server.sessionEvents.latestSeq, state }
  let server := server.queueOpening bodyLen id subscriber replay snapshot
  -- Queuing the replay can overflow and drop the connection, leaving nothing to stream to.
  if (server.clients.lookup id).isSome then
    { server with sessionSubscribers := server.sessionSubscribers.insert id subscriber }.alter id
      fun client => { client with stream := some stream }
  else server

def openingReplay (options : SubscribeOptions) : Except Refusal (List SessionEvent) :=
  match options.after with
  | some cursor => server.replayAfter cursor
  | none => .ok []

def openingSnapshot (options : SubscribeOptions) (state : S) :
    Except Refusal (Option (ServerMessage S A)) :=
  if options.snapshot then (server.subscribeSnapshot bodyLen state).map some else .ok none

def openSubscription (id : ClientId) (options : SubscribeOptions) (reply : ReplyTo) (state : S) :
    Except Refusal (Server S A) :=
  match reply with
  | .attached _ => .error
      { code := .invalidRequest
        message := "an attached client hears session events on its own connection" }
  | .streamingHeadless =>
      if options.snapshot && options.after.isSome then .error
        { code := .invalidArgument, message := "snapshot and after cannot be combined" }
      else do
        let subscriber ← parseEventFilter options.events
        let replay ← server.openingReplay options
        let snapshot ← server.openingSnapshot bodyLen options state
        return server.startStream bodyLen id options state subscriber replay snapshot

/-- `process_client_control_now` of a request: a connection that holds nothing open is closed once
its answer is out. -/
def answered (id : ClientId) : Server S A :=
  let server := if server.isSessionSubscriber id then server else server.setCloseAfterFlush id
  server.alter id fun client => { client with asked := true }

def subscribe (id : ClientId) (options : SubscribeOptions) (state : S) : Server S A :=
  match server.openSubscription bodyLen id options .streamingHeadless state with
  | .ok server => server.answered id
  | .error refused =>
      (server.enqueue bodyLen id (.sessionControlResult (some refused))).answered id

def otherRequest (id : ClientId) (answer : A) : Server S A :=
  (server.enqueue bodyLen id (.answer answer)).answered id

def connect : Server S A :=
  { server with
    clients := server.clients.insert server.nextClientId {}
    nextClientId := server.nextClientId + 1 }

end Server

def Client.write (client : Client S A) (count : Nat) : Option (Client S A) :=
  match client.conn.outbox with
  | [] => none
  | front :: _ =>
      if front.bytes.len < client.conn.frontOffset + count then none
      else
        let whole := front.bytes.len ≤ client.conn.frontOffset + count ∧ 0 < count
        (client.conn.flushFront none count).map fun conn =>
          { client with
            conn
            written := if whole then client.written ++ [front.bytes.content] else client.written }

inductive Label (S A : Type) where
  | connect
  | record (kind : EventKind) (fields : EventFields)
  | subscribe (id : ClientId) (options : SubscribeOptions) (state : S)
  | otherRequest (id : ClientId) (answer : A)
  | write (id : ClientId) (count : Nat)
  | close (id : ClientId)
  | disconnect (id : ClientId)
  | stop

/-- What the server does at a label; `none` when it cannot happen. -/
def Server.perform (server : Server S A) : Label S A → Option (Server S A)
  | .connect => some server.connect
  | .record kind fields => some (server.recordSessionEvent bodyLen kind fields)
  | .subscribe id options state => some (server.subscribe bodyLen id options state)
  | .otherRequest id answer => some (server.otherRequest bodyLen id answer)
  | .write id count => do
      let client ← server.clients.lookup id
      let client ← client.write count
      return { server with clients := server.clients.insert id client }
  -- A connection is closed once its last frame is out.
  | .close id => do
      let client ← server.clients.lookup id
      if client.closeAfterFlush ∧ client.conn.outbox = [] then some (server.removeClient id)
      else none
  | .disconnect id => some (server.removeClient id)
  | .stop => some (server.endSessionSubscribers bodyLen)

def subscriptionRuns : Transition (Server S A) (Label S A) where
  initial server := ∃ named maxEvents maxBytes,
    server = { sessionEvents := { sessionInstance := named, maxEvents, maxBytes } }
  step server label next := server.perform bodyLen label = some next

end server

end Rozi.Events
