import Rozi.Library.Checks
import Rozi.Library.KeyedTotals

/-!
The action calls a session server runs: their admission, and how cancelling, departing, retiring,
ending and stopping take parts of their records away. Times are in nanoseconds. What a process is
given besides its deadline is left out, and how its worker judges it: a worker reports once, at any
time. `J` is the JSON of results.
-/

namespace Rozi.Calls

def maxRunning : Nat := 8

def maxDepth : Nat := 8

def actionPayloadBytes : Nat := 512 * 1024

inductive ControlErrorCode where
  | requestFailed
  | invalidArguments
  | invalidResult
  | actionBusy
  | actionFailed
  | invocationDepth
  | invocationLimit
  | invocationTimeout
  | invocationCancelled
  deriving DecidableEq, Repr

inductive ActionConcurrency where
  | parallel
  | singleton
  deriving DecidableEq, Repr

structure ActionInfo where
  id : String
  deadlineMs : Nat
  concurrency : ActionConcurrency
  deriving DecidableEq, Repr

structure InvocationInfo where
  invocationId : String
  action : String
  generation : Nat
  depth : Nat
  deadlineUnixMs : Nat
  deriving DecidableEq, Repr

structure CallError where
  code : ControlErrorCode
  message : String
  deriving DecidableEq, Repr

inductive ControlResponse (J : Type) where
  | ok (invocationId : String) (result : J)
  | error (error : CallError)
  deriving DecidableEq, Repr

inductive ReplyTo where
  | headless
  | streamingHeadless
  | attached (requestId : Nat)
  deriving DecidableEq, Repr

abbrev ClientId := Nat

abbrev CallCaller := Option (ClientId × ReplyTo)

structure Finished (J : Type) where
  id : String
  result : Except CallError J

structure Running where
  info : InvocationInfo
  extension : String
  deadline : Nat
  cancel : Bool := false
  credential : String
  caller : CallCaller
  deriving DecidableEq, Repr

namespace Running

def calledBy (running : Running) (client : ClientId) : Bool :=
  running.caller.any fun caller => caller.1 = client

def stop (running : Running) : Running := { running with cancel := true }

/-- The call a client started as attached request `requestId`. -/
def startedAs (running : Running) (client : ClientId) (requestId : Nat) : Bool :=
  running.caller.any fun caller => caller.1 = client && caller.2 = .attached requestId

end Running

structure CallTarget where
  extension : String
  generation : Nat
  action : ActionInfo

structure CallRequest where
  client : ClientId
  reply : ReplyTo
  /-- The arguments as JSON, or the error of writing them. -/
  args : Except String (List UInt8)
  timeoutMs : Option Nat
  callerCredential : Option String

structure EndedCall (J : Type) where
  caller : CallCaller
  credential : String
  response : ControlResponse J

/-- The calls by id, and the reports that have not been read. -/
structure Invocations (J : Type) where
  running : AList fun _ : String => Running := ∅
  finished : List (Finished J) := []

/-! Admission. -/

def nestingDepth (parent : Option Running) : Except CallError Nat :=
  let depth := parent.elim 1 fun parent => min (parent.info.depth + 1) 255
  if maxDepth < depth then
    .error
      { code := .invocationDepth, message := s!"actions may nest at most {maxDepth} calls deep" }
  else .ok depth

/-- The shortest of what the action declares, what the caller asked for, and what its parent has
left. -/
def timeAllowed (action : ActionInfo) (timeoutMs : Option Nat) (parent : Option Running)
    (now : Nat) : Except CallError Nat :=
  let declared := action.deadlineMs * 1000000
  let allowed := timeoutMs.elim declared fun ms => min declared (ms * 1000000)
  match parent with
  | none => .ok allowed
  | some parent =>
      let remaining := parent.deadline - now
      if remaining = 0 then
        .error
          { code := .invocationTimeout, message := "the calling action's deadline has passed" }
      else .ok (min allowed remaining)

def encodeArgs : Except String (List UInt8) → Except CallError (List UInt8)
  | .error message => .error { code := .invalidArguments, message }
  | .ok encoded =>
      if actionPayloadBytes < encoded.length then
        .error
          { code := .invalidArguments
            message := s!"action arguments may be at most {actionPayloadBytes} bytes" }
      else .ok encoded

/-- What `start` is given by the system: the time, the identity it issues, and whether the worker
starts. -/
structure Grant where
  now : Nat
  /-- The time of day, from the epoch. -/
  wall : Nat
  issued : Except String (String × String)
  spawned : Except String Unit

/-- `error`, as a response of its own, for what is no refusal. -/
def orFailed {α : Type} (what : String) : Except String α → Except CallError α
  | .ok value => .ok value
  | .error error => .error { code := .requestFailed, message := what ++ error }

def u64Max : Nat := 2 ^ 64 - 1

def unixMsAfter (wall duration : Nat) : Nat := min ((wall + duration) / 1000000) u64Max

namespace Invocations

variable {J : Type} (invocations : Invocations J)

def values : List Running := invocations.running.entries.map Sigma.snd

/-- The live call holding `credential`. A cancelled call's credential is dead, however long the call
takes to end. -/
def byCredential (credential : String) : Option Running :=
  invocations.values.find? fun running => running.credential = credential && !running.cancel

def knowsCredential (credential : String) : Bool := (invocations.byCredential credential).isSome

def checkCapacity (action : ActionInfo) : Except CallError Unit :=
  if maxRunning ≤ invocations.values.length then
    .error
      { code := .invocationLimit, message := s!"this session already runs {maxRunning} action calls" }
  else if action.concurrency = .singleton ∧
      invocations.values.any fun running => running.info.action = action.id then
    .error { code := .actionBusy, message := s!"`{action.id}` is already running" }
  else .ok ()

/-- The call that a request is made from, if it is live. -/
def parentOf (request : CallRequest) : Option Running :=
  request.callerCredential.bind invocations.byCredential

def admitCall (target : CallTarget) (request : CallRequest) (grant : Grant) :
    Except CallError (String × Running) := do
  let parent := invocations.parentOf request
  let depth ← nestingDepth parent
  let allowed ← timeAllowed target.action request.timeoutMs parent grant.now
  invocations.checkCapacity target.action
  let _ ← encodeArgs request.args
  let (id, credential) ← orFailed "cannot issue an invocation credential: " grant.issued
  orFailed "cannot start the action: " grant.spawned
  return (id,
    { info :=
        { invocationId := id
          action := target.action.id
          generation := target.generation
          depth
          deadlineUnixMs := unixMsAfter grant.wall allowed }
      extension := target.extension
      deadline := grant.now + allowed
      credential
      caller := some (request.client, request.reply) })

def tryStart (target : CallTarget) (request : CallRequest) (grant : Grant) :
    Except CallError (Invocations J) := do
  let (id, running) ← invocations.admitCall target request grant
  return { invocations with running := invocations.running.insert id running }

/-! How records change and go. -/

def update (change : String → Running → Running) : Invocations J :=
  { invocations with running := invocations.running.retain fun id running => some (change id running) }

def stopOne (id : String) : Invocations J :=
  invocations.update fun other running => if other = id then running.stop else running

def cancel (id : String) : Option InvocationInfo × Invocations J :=
  match invocations.running.lookup id with
  | none => (none, invocations)
  | some running => (some running.info, invocations.stopOne id)

/-- Cancel the call a client started as an attached request. `first` is the one of these that the
map comes to first, if there are several. -/
def cancelAttached (client : ClientId) (requestId : Nat) (first : Option String) : Invocations J :=
  match first with
  | none => invocations
  | some id =>
      match invocations.running.lookup id with
      | some running =>
          if running.startedAs client requestId then invocations.stopOne id
          else invocations
      | none => invocations

def abandoned (client : ClientId) (running : Running) : Running :=
  if running.calledBy client then { running.stop with caller := none } else running

/-- Cancel a departed caller's calls. -/
def abandonClient (client : ClientId) : Invocations J := 
  invocations.update fun _ => abandoned client

def ofGeneration (extension : String) (generation : Nat) (running : Running) : Bool :=
  running.extension = extension && running.info.generation = generation

def retireExtension (extension : String) (generation : Nat) : List String × Invocations J :=
  ((invocations.values.filter (ofGeneration extension generation)).map Running.credential,
    invocations.update fun _ running =>
      if ofGeneration extension generation running then running.stop else running)

def ended (finished : Finished J) (running : Running) : EndedCall J :=
  { caller := running.caller
    credential := running.credential
    response := match finished.result with
      | .ok result => .ok finished.id result
      | .error error => .error error }

def drainReports : List (Finished J) → AList (fun _ : String => Running) →
    List (EndedCall J) × AList (fun _ : String => Running)
  | [], running => ([], running)
  | finished :: rest, running =>
      match running.lookup finished.id with
      | none => drainReports rest running
      | some record =>
          let drained := drainReports rest (running.erase finished.id)
          (ended finished record :: drained.1, drained.2)

def drain : List (EndedCall J) × Invocations J :=
  let drained := drainReports invocations.finished invocations.running
  (drained.1, { running := drained.2, finished := [] })

/-- The first half of `stop_all`: take every caller, and stop every call. -/
def takeCallers : List (ClientId × ReplyTo) × Invocations J :=
  (invocations.values.filterMap Running.caller,
    invocations.update fun _ running => { running.stop with caller := none })

/-- One round of the loop of `shut_down` in which a report is read. -/
def shutDownRound : Invocations J :=
  match invocations.finished with
  | [] => invocations
  | finished :: rest =>
      { running := invocations.running.erase finished.id, finished := rest }

end Invocations

end Rozi.Calls
