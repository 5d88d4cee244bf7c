import Rozi.Layout.Shared
import Rozi.Library.KeyedTotals
import Rozi.Library.Transition

/-!
Directory and change listings, read by a worker beside the server. A request has one key a client
and path; what is asked again while its job is with the worker waits for the job to come back.
-/

namespace Rozi.Browse

def browseQueueCapacity : Nat := 4

def maxBrowsePending : Nat := 128

def maxBrowsePendingPerClient : Nat := 64

def maxBrowsePathBytes : Nat := 16 * 1024

inductive BrowseRequestKey where
  | directory (clientId : ClientId) (path : String)
  | changes (clientId : ClientId) (root : String)
  deriving DecidableEq, Repr

def BrowseRequestKey.clientId : BrowseRequestKey → ClientId
  | .directory clientId _ | .changes clientId _ => clientId

inductive BrowseRequest where
  | directory (clientId : ClientId) (path : String) (showHidden : Bool)
  | changes (clientId : ClientId) (root : String)
  deriving DecidableEq, Repr

inductive ServerMessage (E F : Type) where
  | directoryListing (path : String) (entries : List E) (error : Option String)
  | changeListing (root : String) (changes : List F) (error : Option String)
  | error (code message : String)

inductive ServerEvent (E F : Type) where
  | directoryListing (clientId : ClientId) (path : String) (showHidden : Bool) (entries : List E)
      (error : Option String)
  | changeListing (clientId : ClientId) (root : String) (changes : List F) (error : Option String)

structure Filesystem (E F : Type) where
  listDirectory : String → Bool → List E × Option String
  listChanges : String → List F × Option String

namespace BrowseRequest

variable {E F : Type}

def key : BrowseRequest → BrowseRequestKey
  | .directory clientId path _ => .directory clientId path
  | .changes clientId root => .changes clientId root

def clientId : BrowseRequest → ClientId
  | .directory clientId _ _ | .changes clientId _ => clientId

def pathLen : BrowseRequest → Nat
  | .directory _ path _ => path.utf8ByteSize
  | .changes _ root => root.utf8ByteSize

def errorResponse (error : String) : BrowseRequest → ServerMessage E F
  | .directory _ path _ => .directoryListing path [] (some error)
  | .changes _ root => .changeListing root [] (some error)

def run (filesystem : Filesystem E F) : BrowseRequest → ServerEvent E F
  | .directory clientId path showHidden =>
      let (entries, error) := filesystem.listDirectory path showHidden
      .directoryListing clientId path showHidden entries error
  | .changes clientId root =>
      let (found, error) := filesystem.listChanges root
      .changeListing clientId root found error

@[simp] theorem key_clientId (request : BrowseRequest) :
    request.key.clientId = request.clientId := by
  cases request with
  | directory => rfl
  | changes => rfl

end BrowseRequest

def ServerEvent.intoError {E F : Type} (error : String) : ServerEvent E F → ServerEvent E F
  | .directoryListing clientId path showHidden _ _ =>
      .directoryListing clientId path showHidden [] (some error)
  | .changeListing clientId root _ _ => .changeListing clientId root [] (some error)

structure BrowseState where
  request : BrowseRequest
  rerun : Option BrowseRequest
  submitted : Bool
  deriving DecidableEq, Repr

structure Job where
  number : Nat
  request : BrowseRequest
  deriving DecidableEq, Repr

structure BrowseWorker where
  started : Bool
  jobs : List Job := []
  running : Option Job := none
  given : Nat := 0
  deriving DecidableEq, Repr

inductive TrySendError where
  | full (request : BrowseRequest)
  | disconnected (request : BrowseRequest)
  deriving DecidableEq, Repr

def BrowseWorker.trySubmit (worker : BrowseWorker) (request : BrowseRequest) :
    Except TrySendError (Job × BrowseWorker) :=
  if !worker.started then .error (.disconnected request)
  else if worker.jobs.length < browseQueueCapacity then
    let job := { number := worker.given, request }
    .ok (job, { worker with jobs := worker.jobs ++ [job], given := worker.given + 1 })
  else .error (.full request)

structure Client where
  id : ClientId
  attached : Bool
  deriving DecidableEq, Repr

inductive Target where
  | sender (id : ClientId)
  | client (id : ClientId)

def Target.id : Target → ClientId
  | .sender id | .client id => id

def Target.reaches : Target → Client → Bool
  | .sender id, other => other.id == id
  | .client id, other => other.id == id && other.attached

/-- What happened, for the history of a run. A message is sent for the job it tells of, or for a
request that is refused. -/
inductive Happened (E F : Type) where
  | left (client : ClientId)
  | accepted (request : BrowseRequest)
  | submitted (job : Job)
  | finished (job : Job) (event : ServerEvent E F)
  | sent (client : ClientId) (message : ServerMessage E F) (job : Option Job)

structure Server (E F : Type) where
  clients : List Client := []
  nextClientId : ClientId := 1
  browseInFlight : AList fun _ : BrowseRequestKey => BrowseState := ∅
  browseWorker : Option BrowseWorker := none
  /-- Results the worker pushed, with their jobs. -/
  events : List (Job × ServerEvent E F) := []
  /-- Nothing the server does depends on it. -/
  history : List (Happened E F) := []

namespace Server

variable {E F : Type} (server : Server E F)

def clientAttached (id : ClientId) : Bool :=
  server.clients.any fun client => client.id == id && client.attached

def log (happened : Happened E F) : Server E F :=
  { server with history := server.history ++ [happened] }

/-- What `clear_browse_requests` keeps of a key. -/
def keptWithout (id : ClientId) (key : BrowseRequestKey) (state : BrowseState) :
    Option BrowseState :=
  if key.clientId ≠ id then some state
  else if state.submitted then some { state with rerun := none }
  else none

def clearBrowseRequests (id : ClientId) : Server E F :=
  { server with browseInFlight := server.browseInFlight.retain (keptWithout id) }

def removeClient (id : ClientId) : Server E F :=
  let server := server.clearBrowseRequests id
  if server.clients.any (·.id == id) then
    { server with clients := server.clients.eraseP (·.id == id) }.log (.left id)
  else server

/-- `enqueue` of a message for a client; one without room for it is removed. -/
def enqueue (encodes : ServerMessage E F → Bool) (room : ClientId → Bool) (target : Target)
    (message : ServerMessage E F) (job : Option Job) : Server E F :=
  if encodes message && server.clients.any target.reaches then
    let server := server.log (.sent target.id message job)
    if room target.id then server else server.removeClient target.id
  else server

def fallback : ServerMessage E F → ServerMessage E F
  | .directoryListing path _ _ =>
      .directoryListing path [] (some "browse result was too large for the protocol")
  | .changeListing root _ _ =>
      .changeListing root [] (some "browse result was too large for the protocol")
  | .error _ _ => .error "browse-result-encode-failed" "browse result could not be encoded"

/-- The first of a message and what stands in for it that can be encoded. -/
def encodable (encodes : ServerMessage E F → Bool) (message : ServerMessage E F) :
    ServerMessage E F :=
  if encodes message then message
  else if encodes (fallback message) then fallback message
  else .error "browse-result-encode-failed" "browse result could not be encoded"

def enqueueBrowseResponse (encodes : ServerMessage E F → Bool) (room : ClientId → Bool)
    (id : ClientId) (message : ServerMessage E F) (job : Option Job) : Server E F :=
  if !server.clientAttached id then server
  else server.enqueue encodes room (.client id) (encodable encodes message) job

def put (key : BrowseRequestKey) (state : BrowseState) : Server E F :=
  { server with browseInFlight := server.browseInFlight.insert key state }

def gave (job : Job) (worker : BrowseWorker) : Server E F :=
  { server with browseWorker := some worker }.log (.submitted job)

def requestBrowse (starts : Bool) (request : BrowseRequest) :
    Option (ServerMessage E F) × Server E F :=
  if maxBrowsePathBytes < request.pathLen then
    (some (.error "browse-path-too-long" "browse path exceeds the server limit"), server)
  else
    match server.browseInFlight.lookup request.key with
    | some state =>
        let state := if state.submitted then { state with rerun := some request }
          else { state with request }
        (none, (server.log (.accepted request)).put request.key state)
    | none =>
        if maxBrowsePending ≤ server.browseInFlight.entries.length then
          (some (request.errorResponse "too many browse requests are pending"), server)
        else if maxBrowsePendingPerClient ≤ (server.browseInFlight.entries.filter fun entry =>
            entry.2.request.clientId == request.clientId).length then
          (some (request.errorResponse "too many client browse requests are pending"), server)
        else
          let worker := server.browseWorker.getD { started := starts }
          let server := { server with browseWorker := some worker }
          match worker.trySubmit request with
          | .ok (job, worker) =>
              (none, ((server.log (.accepted request)).gave job worker).put request.key
                { request, rerun := none, submitted := true })
          | .error (.full request) =>
              (none, (server.log (.accepted request)).put request.key
                { request, rerun := none, submitted := false })
          | .error (.disconnected request) =>
              (some (request.errorResponse "browse worker unavailable"), server)

def pendingBrowse : List BrowseRequestKey :=
  (server.browseInFlight.entries.filter fun entry => !entry.2.submitted).map Sigma.fst

/-- A round of `retry_browse_requests`, and whether the loop goes on. -/
def retryBrowseRequest (encodes : ServerMessage E F → Bool) (room : ClientId → Bool)
    (key : BrowseRequestKey) : Bool × Server E F :=
  match server.browseInFlight.lookup key with
  | none => (true, server)
  | some state =>
      let clientId := state.request.clientId
      if !server.clientAttached clientId then
        (true, { server with browseInFlight := server.browseInFlight.erase key })
      else
        let submitted := match server.browseWorker with
          | some worker => worker.trySubmit state.request
          | none => .error (.disconnected state.request)
        match submitted with
        | .ok (job, worker) => (true, (server.gave job worker).put key { state with submitted := true })
        | .error (.full request) => (false, server.put key { state with request })
        | .error (.disconnected request) =>
            (true, { server with
              browseInFlight := server.browseInFlight.erase key }.enqueueBrowseResponse encodes room
                clientId (request.errorResponse "browse worker unavailable") none)

/-- `retry_browse_requests`, the map giving its waiting keys in some order. -/
def retryBrowseRequests (encodes : ServerMessage E F → Bool) (room : ClientId → Bool) :
    List BrowseRequestKey → Server E F → Server E F
  | [], server => server
  | key :: keys, server =>
      match server.retryBrowseRequest encodes room key with
      | (true, server) => server.retryBrowseRequests encodes room keys
      | (false, server) => server

def listed (encodes : ServerMessage E F → Bool) (room : ClientId → Bool) (key : BrowseRequestKey)
    (message : ServerMessage E F) (job : Job) : Server E F :=
  let state := server.browseInFlight.lookup key
  let server := { server with browseInFlight := server.browseInFlight.erase key }
  if server.clientAttached key.clientId then
    match state.bind BrowseState.rerun with
    | some request => server.put key { request, rerun := none, submitted := false }
    | none => server.enqueueBrowseResponse encodes room key.clientId message (some job)
  else server

def handleEvent (encodes : ServerMessage E F → Bool) (room : ClientId → Bool) (job : Job) :
    ServerEvent E F → Server E F
  | .directoryListing clientId path _ entries error =>
      server.listed encodes room (.directory clientId path) (.directoryListing path entries error)
        job
  | .changeListing clientId root found error =>
      server.listed encodes room (.changes clientId root) (.changeListing root found error) job

end Server

/-- A step of a server, its clients or its worker. `room` tells which outboxes hold what the step
sends, `keys` is the order the map gives its waiting keys in. -/
inductive Label (E F : Type) where
  | connect
  | attach (client : ClientId)
  | remove (client : ClientId)
  | request (starts : Bool) (room : ClientId → Bool) (request : BrowseRequest)
  | take
  | finish (filesystem : Filesystem E F) (fits : Bool)
  | handle (room : ClientId → Bool) (index : Nat) (keys : List BrowseRequestKey)
  | retry (room : ClientId → Bool) (keys : List BrowseRequestKey)

namespace Server

variable {E F : Type} (server : Server E F)

def connect : Server E F :=
  { server with
    clients := server.clients ++ [{ id := server.nextClientId, attached := false }]
    nextClientId := server.nextClientId + 1 }

def attach (id : ClientId) : Server E F :=
  { server with
    clients := server.clients.map fun client =>
      if client.id = id then { client with attached := true } else client }

/-- A request of a client, refused unless it is attached. -/
def processRequest (encodes : ServerMessage E F → Bool) (starts : Bool) (room : ClientId → Bool)
    (request : BrowseRequest) : Server E F :=
  if !server.clientAttached request.clientId then
    server.enqueue encodes room (.sender request.clientId)
      (.error "attach-required" "first client message must be attach") none
  else
    match server.requestBrowse starts request with
    | (some message, server) => server.enqueue encodes room (.client request.clientId) message none
    | (none, server) => server

def take : Option (Server E F) := do
  let worker ← server.browseWorker
  if worker.running.isSome then none
  else do
    let job ← worker.jobs.head?
    return { server with
      browseWorker := some { worker with jobs := worker.jobs.tail, running := some job } }

/-- The worker is done with its job and pushes what it comes to; a result that does not fit the
queue of the server becomes an error. -/
def finish (filesystem : Filesystem E F) (fits : Bool) : Option (Server E F) := do
  let worker ← server.browseWorker
  let job ← worker.running
  let event := job.request.run filesystem
  let event := if fits then event
    else event.intoError "browse result exceeded the server queue limit"
  return { server with
    browseWorker := some { worker with running := none }
    events := server.events ++ [(job, event)] }.log (.finished job event)

def perform (encodes : ServerMessage E F → Bool) : Label E F → Option (Server E F)
  | .connect => some server.connect
  | .attach client => some (server.attach client)
  | .remove client => some (server.removeClient client)
  | .request starts room request => some (server.processRequest encodes starts room request)
  | .take => server.take
  | .finish filesystem fits => server.finish filesystem fits
  | .handle room index keys => do
      let (job, event) ← server.events[index]?
      let server := { server with events := server.events.eraseIdx index }.handleEvent encodes room
        job event
      if keys.Perm server.pendingBrowse then some (server.retryBrowseRequests encodes room keys)
      else none
  | .retry room keys =>
      if keys.Perm server.pendingBrowse then some (server.retryBrowseRequests encodes room keys)
      else none

end Server

def browseRuns {E F : Type} (encodes : ServerMessage E F → Bool) :
    Transition (Server E F) (Label E F) where
  initial := fun server => server = {}
  step := fun server label next => server.perform encodes label = some next

end Rozi.Browse
