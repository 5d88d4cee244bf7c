import Mathlib.Data.List.AList
import Rozi.Session.Protocol

/-!
The waits a session server holds for agents. A wait is answered when the agent it watches meets its
condition, when that agent can no longer meet it, or when its deadline passes; one registered with
a prompt must first see the agent leave the state the prompt found it in.
-/

namespace Rozi

namespace AgentWaits

inductive ErrorCode where
  | paneNotFound
  | targetRequired
  | invalidArgument
  | conflict
  | agentGone
  | agentBlocked
  | agentReplaced
  | staleReference
  | timeout
  | other
  deriving DecidableEq, Repr

structure RequestError where
  code : ErrorCode
  message : String
  deriving DecidableEq, Repr

inductive AgentState where
  | working | blocked | idle | done | error
  deriving DecidableEq, Repr

def AgentState.asStr : AgentState → String
  | .working => "working"
  | .blocked => "blocked"
  | .idle => "idle"
  | .done => "done"
  | .error => "error"

def AgentState.isStopped : AgentState → Bool
  | .idle | .done | .error => true
  | _ => false

inductive AgentWaitCondition where
  | working | blocked | idle | done | error | quiescent | turn | gone
  deriving DecidableEq, Repr

def waitConditionName : AgentWaitCondition → String
  | .working => "working"
  | .blocked => "blocked"
  | .idle => "idle"
  | .done => "done"
  | .error => "error"
  | .quiescent => "quiescent"
  | .turn => "turn"
  | .gone => "gone"

def conditionMatches (until_ : AgentWaitCondition) (state : AgentState) : Bool :=
  match until_ with
  | .working => state = .working
  | .blocked => state = .blocked
  | .idle => state = .idle
  | .done => state = .done
  | .error => state = .error
  -- Stopped for any reason: a script must not hang on a turn that failed.
  | .quiescent => state.isStopped
  | .turn => state ≠ .working
  | .gone => false

structure RowKey where
  publisher : String
  id : String
  deriving DecidableEq, Repr

structure PaneRef where
  sessionInstance : String
  paneId : PaneId
  generation : Nat
  deriving DecidableEq, Repr

structure AgentRef where
  pane : PaneRef
  slot : Option RowKey
  incarnation : Nat
  deriving DecidableEq, Repr

structure AgentRuntime where
  reference : AgentRef
  state : AgentState
  deriving DecidableEq, Repr

structure PublishedRow where
  key : RowKey
  active : Bool
  deriving DecidableEq, Repr

inductive CaptureRender where
  | text | ansi | png | spans
  deriving DecidableEq, Repr

structure PaneCapture where
  id : PaneId
  title : Option String
  content : String
  deriving DecidableEq, Repr

/-- What the waits read of a pane: `runtimes` is what `agent_runtimes_for` makes of it, and
`captureScreen` what its screen gives in each form. -/
structure ServerPane where
  generation : Nat
  exited : Option Int := none
  rows : List PublishedRow := []
  runtimes : List AgentRuntime := []
  title : Option String := none
  captureScreen : CaptureRender → Except RequestError String := fun _ => .ok ""

abbrev PaneMap := AList fun _ : PaneId => ServerPane

inductive AgentTarget where
  | pane (id : PaneId)
  | ref (reference : AgentRef)
  deriving DecidableEq, Repr

inductive ReplyTo where
  | headless
  | streamingHeadless
  | attached (requestId : Nat)
  deriving DecidableEq, Repr

def ReplyTo.holdId : ReplyTo → Nat
  | .headless | .streamingHeadless => 0
  | .attached requestId => requestId

abbrev WaitKey := ClientId × Nat

inductive WaitSubject where
  | agent (reference : AgentRef)
  | pane (paneId : PaneId) (generation : Nat)
  deriving DecidableEq, Repr

def WaitSubject.reference : WaitSubject → Option AgentRef
  | .agent reference => some reference
  | .pane .. => none

inductive WaitEvaluation where
  | pending
  | ready (agent : Option AgentRuntime)
  | error (code : ErrorCode) (message : String)
  deriving DecidableEq, Repr

structure PendingAgentWait where
  subject : WaitSubject
  until_ : AgentWaitCondition
  deadline : Option Instant
  requireTransition : Bool
  initialState : Option AgentState
  armed : Bool
  reply : ReplyTo
  capture : Option CaptureRender
  deriving DecidableEq, Repr

structure AgentWaitResult where
  reference : Option AgentRef
  condition : AgentWaitCondition
  result : Option PaneCapture
  agent : Option AgentRuntime
  deriving DecidableEq, Repr

inductive AgentAnswer where
  | waited (result : AgentWaitResult)
  | promptAccepted (reference : AgentRef)
  deriving DecidableEq, Repr

abbrev Response := Except RequestError AgentAnswer

structure HeldAnswer where
  client : ClientId
  reply : ReplyTo
  response : Response

def refuse {α : Type} (code : ErrorCode) (message : String) : Except RequestError α :=
  .error { code, message }

def PendingAgentWait.needsDeparture (wait : PendingAgentWait) (evaluation : WaitEvaluation) :
    Bool :=
  if !wait.requireTransition || wait.armed then false
  else
    match evaluation with
    -- A turn can go from idle to an approval or an error without leaving the whole condition.
    | .ready (some agent) =>
        if wait.until_ = .turn then some agent.state = wait.initialState else true
    | _ => true

def goneEvaluation (until_ : AgentWaitCondition) (code : ErrorCode) (message : String) :
    WaitEvaluation :=
  if until_ = .gone then .ready none else .error code message

inductive PaneAgent where
  | missing
  | one (runtime : AgentRuntime)
  | noneOnScreen
  deriving DecidableEq, Repr

def onScreen (rows : List PublishedRow) (runtime : AgentRuntime) : Bool :=
  runtime.reference.slot.all fun slot => rows.any fun row => row.key = slot && row.active

def paneAgent (runtimes : List AgentRuntime) (rows : List PublishedRow) : PaneAgent :=
  if runtimes.isEmpty then .missing
  else
    match runtimes.find? (onScreen rows) with
    | some runtime => .one runtime
    | none => .noneOnScreen

def noneOnScreenMessage (paneId : PaneId) : String :=
  s!"pane {paneId} lists agents but does not say which one is on screen; " ++
    "`agents list` gives each one's --ref"

section panes

variable (panes : PaneMap)

def runtimeOf (pane : ServerPane) (reference : AgentRef) : Option AgentRuntime :=
  pane.runtimes.find? (·.reference = reference)

def evaluateAgentWait (reference : AgentRef) (until_ : AgentWaitCondition) : WaitEvaluation :=
  match panes.lookup reference.pane.paneId with
  | none => goneEvaluation until_ .agentGone "agent pane is gone"
  | some pane =>
      if pane.exited.isSome then goneEvaluation until_ .agentGone "agent pane has exited"
      else if pane.generation ≠ reference.pane.generation then
        goneEvaluation until_ .agentReplaced "agent pane was replaced"
      else
        match runtimeOf pane reference with
        | some runtime =>
            if conditionMatches until_ runtime.state then .ready (some runtime) else .pending
        | none =>
            let replacement := pane.runtimes.any (·.reference.slot = reference.slot)
            goneEvaluation until_ (if replacement then .agentReplaced else .agentGone)
              (if replacement then "agent incarnation was replaced" else "agent is gone")

/-- Evaluate a wait, first adopting the agent a pane's wait has been waiting for once one appears.
Gives the subject to keep watching. -/
def evaluateWaitSubject (subject : WaitSubject) (until_ : AgentWaitCondition) :
    WaitSubject × WaitEvaluation :=
  match subject with
  | .agent reference => (.agent reference, evaluateAgentWait panes reference until_)
  | .pane paneId generation =>
      match (panes.lookup paneId).filter fun pane =>
          pane.generation = generation && pane.exited.isNone with
      | none =>
          (subject, goneEvaluation until_ .agentGone
            s!"pane {paneId} exited before an agent appeared in it")
      | some pane =>
          match paneAgent pane.runtimes pane.rows with
          | .missing => (subject, .pending)
          | .one runtime =>
              (.agent runtime.reference, evaluateAgentWait panes runtime.reference until_)
          | .noneOnScreen => (subject, .error .targetRequired (noneOnScreenMessage paneId))

/-- Whether `paneId` is a running pane with no agent detected in it yet. -/
def paneAwaitsAgent (paneId : PaneId) : Bool :=
  (panes.lookup paneId).any fun pane => pane.exited.isNone && pane.runtimes.isEmpty

def resolveAgentWaitTarget (instanceId : String) : AgentTarget → Except RequestError AgentRef
  | .pane paneId =>
      match panes.lookup paneId with
      | none => refuse .paneNotFound s!"pane {paneId} does not exist"
      | some pane =>
          match paneAgent pane.runtimes pane.rows with
          | .one runtime => .ok runtime.reference
          | .missing =>
              refuse .agentGone
                s!"pane {paneId} has no agent; `agents wait` waits for one to appear"
          | .noneOnScreen => refuse .targetRequired (noneOnScreenMessage paneId)
  | .ref reference =>
      if reference.pane.sessionInstance ≠ instanceId then
        refuse .staleReference "agent reference belongs to a different session server instance"
      else
        match panes.lookup reference.pane.paneId with
        | none => refuse .staleReference s!"pane {reference.pane.paneId} no longer exists"
        | some pane =>
            if pane.generation ≠ reference.pane.generation then
              refuse .staleReference s!"pane {reference.pane.paneId} has been replaced"
            else
              match runtimeOf pane reference with
              | some runtime => .ok runtime.reference
              | none =>
                  refuse .agentReplaced
                    "agent reference no longer names the current incarnation"

/-- Evaluate a held wait anew; what needs a departure is armed by an evaluation that is false. -/
def PendingAgentWait.review (wait : PendingAgentWait) : PendingAgentWait × WaitEvaluation :=
  let (subject, evaluation) := evaluateWaitSubject panes wait.subject wait.until_
  let wait' := { wait with subject }
  if wait.needsDeparture evaluation then
    match evaluation with
    | .ready _ => (wait', .pending)
    | .pending => ({ wait' with armed := true }, .pending)
    | .error code message => (wait', .error code message)
  else (wait', evaluation)

def timeoutMessage (wait : PendingAgentWait) : String :=
  let condition := waitConditionName wait.until_
  match wait.subject with
  | .pane paneId _ =>
      s!"timed out waiting for an agent to appear in pane {paneId} and become {condition}"
  | .agent reference =>
      let message := s!"timed out waiting for agent {reference.incarnation} in pane " ++
        s!"{reference.pane.paneId} to become {condition}"
      match (panes.lookup reference.pane.paneId).bind (runtimeOf · reference) with
      | none => message
      | some runtime =>
          let message := message ++ s!"; it is {runtime.state.asStr}"
          if wait.until_ = .idle ∧ runtime.state = .done then
            message ++ " (`quiescent` accepts idle or done)"
          else message

/-- The response to a wait that is over. `none` is the panic of the `expect` on its pane. -/
def agentWaitResponse (condition : AgentWaitCondition) (agent : Option AgentRuntime)
    (render : Option CaptureRender) (reference : Option AgentRef) : Option Response :=
  match render, agent with
  | some render, some runtime =>
      let id := runtime.reference.pane.paneId
      (panes.lookup id).map fun pane => do
        let content ← pane.captureScreen render
        let capture := { id, title := pane.title, content }
        return .waited { reference, condition, agent, result := some capture }
  | _, _ => some (.ok (.waited { reference, condition, agent, result := none }))

end panes

structure Server where
  instanceId : String
  panes : PaneMap := ∅
  agentWaits : AList fun _ : WaitKey => PendingAgentWait := ∅

def deadlineAfter (now : Instant) (timeoutMs : Option Nat) : Option Instant :=
  timeoutMs.map (now + ·)

namespace Server

variable (server : Server)

/-- Hold a wait that watches `subject`, or answer it at once. -/
def registerSubject (now : Instant) (clientId : ClientId) (subject : WaitSubject)
    (until_ : AgentWaitCondition) (timeoutMs : Option Nat) (reply : ReplyTo) :
    Option Response × Server :=
  let (subject, evaluation) := evaluateWaitSubject server.panes subject until_
  match evaluation with
  | .ready agent =>
      (some (.ok (.waited {
        reference := subject.reference, condition := until_, result := none, agent })), server)
  | .error code message => (some (refuse code message), server)
  | .pending =>
      (none, { server with
        agentWaits := server.agentWaits.insert (clientId, reply.holdId) {
          subject, until_, deadline := deadlineAfter now timeoutMs, capture := none
          requireTransition := false, initialState := none, armed := true, reply } })

/-- `none` is a wait that is held; `agents wait` for an agent that a running pane has not shown yet
watches the pane. -/
def registerAgentWait (now : Instant) (clientId : ClientId) (target : AgentTarget)
    (until_ : AgentWaitCondition) (timeoutMs : Option Nat) (reply : ReplyTo) :
    Option Response × Server :=
  if until_ = .turn then
    (some (refuse .invalidArgument
      "turn is a post-prompt condition; use agent-prompt with wait turn"), server)
  else
    let resolved : Option Response × Server :=
      match resolveAgentWaitTarget server.panes server.instanceId target with
      | .ok reference =>
          server.registerSubject now clientId (.agent reference) until_ timeoutMs reply
      | .error error => (some (.error error), server)
    match target with
    | .ref reference =>
        if until_ = .gone then
          if reference.pane.sessionInstance ≠ server.instanceId then
            (some (refuse .staleReference
              "agent reference belongs to a different session server instance"), server)
          else server.registerSubject now clientId (.agent reference) until_ timeoutMs reply
        else resolved
    | .pane paneId =>
        if paneAwaitsAgent server.panes paneId then
          if until_ = .gone then
            (some (.ok (.waited {
              reference := none, condition := until_, result := none, agent := none })), server)
          else
            let generation := (server.panes.lookup paneId).elim 0 ServerPane.generation
            server.registerSubject now clientId (.pane paneId generation) until_ timeoutMs reply
        else resolved

/-- One round of `resolve_agent_waits`: what the wait is completed with, if it is over. -/
def reviewWait (key : WaitKey) : List (WaitKey × WaitEvaluation) × Server :=
  match server.agentWaits.lookup key with
  | none => ([], server)
  | some wait =>
      let (wait, evaluation) := wait.review server.panes
      (if evaluation = .pending then [] else [(key, evaluation)],
        { server with agentWaits := server.agentWaits.insert key wait })

def reviewWaits (server : Server) :
    List WaitKey → List (WaitKey × WaitEvaluation) × Server
  | [] => ([], server)
  | key :: keys =>
      let (completed, next) := server.reviewWait key
      let (others, last) := next.reviewWaits keys
      (completed ++ others, last)

def completedResponse (wait : PendingAgentWait) : WaitEvaluation → Option (Option Response)
  | .ready agent =>
      (agentWaitResponse server.panes wait.until_ agent wait.capture wait.subject.reference).map some
  | .error code message => some (some (refuse code message))
  | .pending => some none

def finishAgentWaits (server : Server) :
    List (WaitKey × WaitEvaluation) → Option (List HeldAnswer × Server)
  | [] => some ([], server)
  | (key, evaluation) :: completed =>
      match server.agentWaits.lookup key with
      | none => server.finishAgentWaits completed
      | some wait => do
          let response ← server.completedResponse wait evaluation
          let removed := { server with agentWaits := server.agentWaits.erase key }
          let (answers, last) ← removed.finishAgentWaits completed
          let answer := response.map fun response =>
            ({ client := key.1, reply := wait.reply, response } : HeldAnswer)
          return (answer.toList ++ answers, last)

def resolveAgentWaits (keys : List WaitKey) : Option (List HeldAnswer × Server) :=
  let (completed, reviewed) := server.reviewWaits keys
  reviewed.finishAgentWaits completed

/-- The waits whose deadline has passed, in the order of `keys`. -/
def expired (now : Instant) (keys : List WaitKey) : List (WaitKey × WaitEvaluation) :=
  keys.filterMap fun key => do
    let wait ← server.agentWaits.lookup key
    if wait.deadline.any (· ≤ now) then
      some (key, .error .timeout (timeoutMessage server.panes wait))
    else none

def expireAgentWaits (now : Instant) (keys : List WaitKey) : Option (List HeldAnswer × Server) :=
  server.finishAgentWaits (server.expired now keys)

def removeAgentWaits (clientId : ClientId) : Server :=
  { server with
    agentWaits := ⟨server.agentWaits.entries.filter fun entry => entry.1.1 ≠ clientId,
      server.agentWaits.nodupKeys.sublist List.filter_sublist⟩ }

def registerPostPromptWait (now : Instant) (clientId : ClientId) (reference : AgentRef)
    (until_ : AgentWaitCondition) (timeoutMs : Option Nat) (capture : Option CaptureRender)
    (reply : ReplyTo) : Except RequestError Server :=
  let hold (initialState : Option AgentState) (armed : Bool) : Server :=
    { server with
      agentWaits := server.agentWaits.insert (clientId, reply.holdId) {
        subject := .agent reference, until_, deadline := deadlineAfter now timeoutMs, capture
        requireTransition := true, initialState, armed, reply } }
  match evaluateAgentWait server.panes reference until_ with
  | .ready agent => .ok (hold (agent.map AgentRuntime.state) false)
  | .pending => .ok (hold none true)
  | .error code message => refuse code message

end Server

structure AgentPrompt where
  target : AgentTarget
  prompt : String
  wait : Option AgentWaitCondition
  timeoutMs : Option Nat
  allowWorking : Bool
  capture : Option CaptureRender

/-- How the steps of a prompt outside the waits come out: the client's authority to type, the row
the agent is, a dialog on its screen, the encoding of the prompt, and its write. -/
structure PromptOutcomes where
  authority : Except RequestError Unit := .ok ()
  inputReference : Except RequestError Unit := .ok ()
  dialog : Except RequestError Unit := .ok ()
  encoded : Except RequestError Unit := .ok ()
  written : Except RequestError Unit := .ok ()

def validatePromptCapture (capture : Option CaptureRender) (wait : Option AgentWaitCondition) :
    Except RequestError Unit :=
  let accepted : Bool :=
    match capture, wait with
    | none, _ => true
    | some .text, some until_ | some .ansi, some until_ => until_ ≠ .gone
    | _, _ => false
  if accepted then .ok ()
  else refuse .invalidArgument "prompt capture requires text or ansi and a wait other than gone"

def validateAgentPromptState (state : AgentState) (allowWorking : Bool) :
    Except RequestError Unit :=
  match state with
  | .blocked =>
      refuse .agentBlocked "agent is blocked; refusing to type into a prompt or approval dialog"
  | .working =>
      if allowWorking then .ok ()
      else refuse .conflict "agent is working; pass --allow-working to submit anyway"
  | _ => .ok ()

namespace Server

variable (server : Server)

def prepareAgentPrompt (request : AgentPrompt) (outcomes : PromptOutcomes) :
    Except RequestError AgentRef := do
  validatePromptCapture request.capture request.wait
  if request.prompt.isEmpty then refuse .invalidArgument "agent prompt cannot be empty"
  outcomes.authority
  let reference ← resolveAgentWaitTarget server.panes server.instanceId request.target
  outcomes.inputReference
  match server.panes.lookup reference.pane.paneId with
  | none => refuse .agentGone "agent pane is gone"
  | some pane =>
      match runtimeOf pane reference with
      | none => refuse .agentReplaced "agent incarnation was replaced"
      | some runtime => do
          validateAgentPromptState runtime.state request.allowWorking
          return reference

def armPromptWait (now : Instant) (clientId : ClientId) (reference : AgentRef)
    (request : AgentPrompt) (reply : ReplyTo) : Except RequestError Server :=
  match request.wait with
  | none => .ok server
  | some until_ =>
      server.registerPostPromptWait now clientId reference until_ request.timeoutMs
        request.capture reply

def armAgentPrompt (now : Instant) (clientId : ClientId) (request : AgentPrompt)
    (outcomes : PromptOutcomes) (reply : ReplyTo) : Except RequestError (AgentRef × Server) := do
  let reference ← server.prepareAgentPrompt request outcomes
  outcomes.dialog
  outcomes.encoded
  let armed ← server.armPromptWait now clientId reference request reply
  return (reference, armed)

/-- A prompt that could not be written takes its wait back. -/
def registerAgentPrompt (now : Instant) (clientId : ClientId) (request : AgentPrompt)
    (outcomes : PromptOutcomes) (reply : ReplyTo) : Option Response × Server :=
  match server.armAgentPrompt now clientId request outcomes reply with
  | .error error => (some (.error error), server)
  | .ok (reference, armed) =>
      match outcomes.written with
      | .error error =>
          (some (.error error),
            { armed with agentWaits := armed.agentWaits.erase (clientId, reply.holdId) })
      | .ok () =>
          (if request.wait.isSome then none else some (.ok (.promptAccepted reference)), armed)

end Server

end AgentWaits

end Rozi
