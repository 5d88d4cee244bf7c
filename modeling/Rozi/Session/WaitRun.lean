import Rozi.Library.Justified
import Rozi.Library.Transition
import Rozi.Session.Waits

/-!
Runs of a session server's agent waits, with a log of what happened to each wait. What the log says
of a wait is followed by `Held`, which knows nothing of how the server arms or answers it.
-/

namespace Rozi

namespace AgentWaits

structure Asked where
  target : AgentTarget
  condition : AgentWaitCondition
  prompted : Bool
  deriving DecidableEq, Repr

inductive Event where
  | registered (key : WaitKey) (asked : Asked) (wait : PendingAgentWait) (panes : PaneMap)
  | evaluated (key : WaitKey) (panes : PaneMap)
  | answered (key : WaitKey) (panes : PaneMap) (response : Response)
  | withdrawn (key : WaitKey)
  | removed (client : ClientId)
  | replied (asked : Asked) (panes : PaneMap) (response : Response)

/-- A step of the server. `change` is anything that happens to panes, their runtimes and the records
of their agents; the map of waits gives its keys in any order. -/
inductive Label where
  | change (panes : PaneMap)
  | wait (now : Instant) (client : ClientId) (target : AgentTarget)
      (condition : AgentWaitCondition) (timeoutMs : Option Nat) (reply : ReplyTo)
  | prompt (now : Instant) (client : ClientId) (request : AgentPrompt)
      (outcomes : PromptOutcomes) (reply : ReplyTo)
  | resolve (keys : List WaitKey)
  | expire (now : Instant) (keys : List WaitKey)
  | remove (client : ClientId)

structure Run where
  server : Server
  log : List Event := []

def heldEvent (server : Server) (key : WaitKey) (asked : Asked) : List Event :=
  ((server.agentWaits.lookup key).map (Event.registered key asked · server.panes)).toList

def waitEvents (server : Server) (key : WaitKey) (asked : Asked) : Option Response → List Event
  | some response => [.replied asked server.panes response]
  | none => heldEvent server key asked

/-- What a prompt adds: nothing if it asked for no wait or was refused before holding one. -/
def promptEvents (key : WaitKey) (request : AgentPrompt) (written : Except RequestError Unit) :
    Except RequestError (AgentRef × Server) → List Event
  | .error _ => []
  | .ok (_, armed) =>
      match request.wait with
      | none => []
      | some condition =>
          let held := heldEvent armed key ⟨request.target, condition, true⟩
          match written with
          | .ok () => held
          | .error _ => held ++ [.withdrawn key]

def answerEvent (panes : PaneMap) (answer : HeldAnswer) : Event :=
  .answered (answer.client, answer.reply.holdId) panes answer.response

def Run.perform (run : Run) : Label → Option Run
  | .change panes => some { run with server := { run.server with panes } }
  | .wait now client target condition timeoutMs reply =>
      let (response, server) :=
        run.server.registerAgentWait now client target condition timeoutMs reply
      some {
        server
        log := run.log ++
          waitEvents server (client, reply.holdId) ⟨target, condition, false⟩ response }
  | .prompt now client request outcomes reply =>
      let armed := run.server.armAgentPrompt now client request outcomes reply
      let (_, server) := run.server.registerAgentPrompt now client request outcomes reply
      some {
        server
        log := run.log ++
          promptEvents (client, reply.holdId) request outcomes.written armed }
  | .resolve keys => do
      let (answers, server) ← run.server.resolveAgentWaits keys
      return {
        server
        log := run.log ++ keys.map (Event.evaluated · run.server.panes) ++
          answers.map (answerEvent server.panes) }
  | .expire now keys => do
      let (answers, server) ← run.server.expireAgentWaits now keys
      return { server, log := run.log ++ answers.map (answerEvent server.panes) }
  | .remove client =>
      some { server := run.server.removeAgentWaits client, log := run.log ++ [.removed client] }

def Label.iterates (run : Run) : Label → Prop
  | .resolve keys | .expire _ keys => keys.Perm run.server.agentWaits.keys
  | _ => True

/-- No client reuses a request id while it holds a wait under it. -/
def Label.fresh (run : Run) : Label → Prop
  | .wait _ client _ _ _ reply | .prompt _ client _ _ reply =>
      (client, reply.holdId) ∉ run.server.agentWaits
  | _ => True

def waitRuns : Transition Run Label where
  initial := fun run => run.server.agentWaits = ∅ ∧ run.log = []
  step := fun run label next => label.iterates run ∧ run.perform label = some next

/-- What the log says of a wait that is held: what it watches now, whether it came with a prompt,
the state its registration found the agent in, and whether its condition has been false since. -/
structure Held where
  subject : WaitSubject
  condition : AgentWaitCondition
  prompted : Bool
  stateThen : Option AgentState
  refuted : Bool

def stateIn (panes : PaneMap) (reference : AgentRef) : Option AgentState :=
  ((panes.lookup reference.pane.paneId).bind (runtimeOf · reference)).map AgentRuntime.state

def Held.begin (wait : PendingAgentWait) (panes : PaneMap) : Held where
  subject := wait.subject
  condition := wait.until_
  prompted := wait.requireTransition
  stateThen := wait.subject.reference.bind (stateIn panes)
  refuted := (evaluateWaitSubject panes wait.subject wait.until_).2 = .pending

def Held.evaluate (held : Held) (panes : PaneMap) : Held :=
  let (subject, evaluation) := evaluateWaitSubject panes held.subject held.condition
  { held with subject, refuted := held.refuted || evaluation = .pending }

def Held.after (key : WaitKey) (held : Option Held) : Event → Option Held
  | .registered other _ wait panes => if other = key then some (.begin wait panes) else held
  | .evaluated other panes => if other = key then held.map (·.evaluate panes) else held
  | .answered other _ _ | .withdrawn other => if other = key then none else held
  | .removed client => if key.1 = client then none else held
  | .replied .. => held

def heldAt (key : WaitKey) (log : List Event) : Option Held :=
  log.foldl (Held.after key) none

def Present (panes : PaneMap) (runtime : AgentRuntime) : Prop :=
  ∃ pane, panes.lookup runtime.reference.pane.paneId = some pane ∧ pane.exited = none ∧
    pane.generation = runtime.reference.pane.generation ∧ runtime ∈ pane.runtimes

structure Completes (panes : PaneMap) (subject : WaitSubject) (condition : AgentWaitCondition)
    (result : AgentWaitResult) : Prop where
  asked : result.condition = condition
  reference : result.reference = subject.reference
  accepted : ∀ runtime, result.agent = some runtime →
    subject = .agent runtime.reference ∧ Present panes runtime ∧
      conditionMatches condition runtime.state
  gone : result.agent = none → condition = .gone ∧
    ∀ runtime, subject = .agent runtime.reference → ¬ Present panes runtime

/-- The state a wait is answered from has not held since before the prompt it came with. -/
def Departed (held : Held) (result : AgentWaitResult) : Prop :=
  held.refuted ∨ held.condition = .turn ∧
    ∃ runtime state, result.agent = some runtime ∧ held.stateThen = some state ∧
      runtime.state ≠ state

/-- The subject is what the target names. A pane that runs without an agent stands for the first
that appears in it. -/
def AgentTarget.Names (panes : PaneMap) : AgentTarget → WaitSubject → Prop
  | .ref reference, subject => subject = .agent reference
  | .pane paneId, subject => ∃ pane, panes.lookup paneId = some pane ∧
      ((∃ runtime, paneAgent pane.runtimes pane.rows = .one runtime ∧
          subject = .agent runtime.reference) ∨
        pane.exited = none ∧ pane.runtimes = [] ∧ subject = .pane paneId pane.generation)

structure Meets (panes : PaneMap) (asked : Asked) (wait : PendingAgentWait) : Prop where
  subject : asked.target.Names panes wait.subject
  condition : wait.until_ = asked.condition
  prompted : wait.requireTransition = asked.prompted

def justifies (before : List Event) : Event → Prop
  | .registered key asked wait panes => heldAt key before = none ∧ Meets panes asked wait
  | .evaluated key _ => heldAt key before ≠ none
  | .answered key panes response => ∃ held, heldAt key before = some held ∧
      match response with
      | .error _ => True
      | .ok (.promptAccepted _) => False
      | .ok (.waited result) =>
          Completes panes held.subject held.condition result ∧
            (held.prompted → Departed held result)
  | .withdrawn key => ∃ held, heldAt key before = some held ∧ held.prompted
  | .removed _ => True
  | .replied asked panes response =>
      match response with
      | .error _ => True
      | .ok (.promptAccepted _) => False
      | .ok (.waited result) => ∃ subject, asked.target.Names panes subject ∧
          Completes panes subject asked.condition result

structure Agrees (key : WaitKey) (held : Held) (wait : PendingAgentWait) : Prop where
  subject : wait.subject = held.subject
  condition : wait.until_ = held.condition
  prompted : wait.requireTransition = held.prompted
  reply : wait.reply.holdId = key.2
  armed : held.prompted → wait.armed → held.refuted
  unarmed : held.prompted → held.refuted ∨ (held.condition = .turn →
    ∃ state, wait.initialState = some state ∧ held.stateThen = some state)

def Tracked (key : WaitKey) (held : Option Held) : Option PendingAgentWait → Prop
  | none => held = none
  | some wait => ∃ known, held = some known ∧ Agrees key known wait

structure Sound (server : Server) (log : List Event) : Prop where
  justified : Justified justifies log
  tracked : ∀ key, Tracked key (heldAt key log) (server.agentWaits.lookup key)

section log

variable (key : WaitKey) (log more : List Event)

theorem heldAt_append : heldAt key (log ++ more) = more.foldl (Held.after key) (heldAt key log) :=
  List.foldl_append

theorem heldAt_snoc (event : Event) :
    heldAt key (log ++ [event]) = Held.after key (heldAt key log) event := by
  simp [heldAt_append]

end log

section evaluation

variable {panes : PaneMap} {subject : WaitSubject} {condition : AgentWaitCondition}
  {reference : AgentRef} {agent : Option AgentRuntime}

theorem runtimeOf_eq_some {pane : ServerPane} {runtime : AgentRuntime}
    (found : runtimeOf pane reference = some runtime) :
    runtime ∈ pane.runtimes ∧ runtime.reference = reference :=
  ⟨List.mem_of_find?_eq_some found, by simpa using List.find?_some found⟩

theorem goneEvaluation_ready {code : ErrorCode} {message : String}
    (ready : goneEvaluation condition code message = .ready agent) :
    agent = none ∧ condition = .gone := by
  unfold goneEvaluation at ready
  split at ready
  · case isTrue gone =>
      cases ready
      exact ⟨rfl, gone⟩
  · cases ready

/-- An evaluation that is ready has the agent it watches in an accepted state, or found it gone. -/
theorem evaluateAgentWait_ready
    (ready : evaluateAgentWait panes reference condition = .ready agent) :
    (∃ runtime, agent = some runtime ∧ runtime.reference = reference ∧ Present panes runtime ∧
      conditionMatches condition runtime.state ∧
      stateIn panes reference = some runtime.state) ∨
    (agent = none ∧ condition = .gone ∧
      ∀ runtime, runtime.reference = reference → ¬ Present panes runtime) := by
  unfold evaluateAgentWait at ready
  cases shown : panes.lookup reference.pane.paneId with
  | none =>
      simp only [shown] at ready
      obtain ⟨rfl, gone⟩ := goneEvaluation_ready ready
      refine .inr ⟨rfl, gone, ?_⟩
      rintro runtime rfl ⟨pane, here, _⟩
      simp [shown] at here
  | some pane =>
      simp only [shown] at ready
      by_cases exited : pane.exited.isSome = true
      · rw [if_pos exited] at ready
        obtain ⟨rfl, gone⟩ := goneEvaluation_ready ready
        refine .inr ⟨rfl, gone, ?_⟩
        rintro runtime rfl ⟨other, here, alive, _⟩
        cases shown.symm.trans here
        simp [alive] at exited
      rw [if_neg exited] at ready
      by_cases replaced : pane.generation ≠ reference.pane.generation
      · rw [if_pos replaced] at ready
        obtain ⟨rfl, gone⟩ := goneEvaluation_ready ready
        refine .inr ⟨rfl, gone, ?_⟩
        rintro runtime rfl ⟨other, here, _, same, _⟩
        cases shown.symm.trans here
        exact replaced same
      rw [if_neg replaced] at ready
      cases named : runtimeOf pane reference with
      | some runtime =>
          simp only [named] at ready
          split_ifs at ready with accepted
          cases ready
          obtain ⟨member, rfl⟩ := runtimeOf_eq_some named
          exact .inl ⟨runtime, rfl, rfl, ⟨pane, shown, by simpa using exited,
            by simpa using replaced, member⟩, accepted, by simp [stateIn, shown, named]⟩
      | none =>
          simp only [named] at ready
          obtain ⟨rfl, gone⟩ := goneEvaluation_ready ready
          refine .inr ⟨rfl, gone, ?_⟩
          rintro runtime rfl ⟨other, here, _, _, member⟩
          cases shown.symm.trans here
          have unnamed := List.find?_eq_none.mp named runtime member
          simp at unnamed

theorem evaluateWaitSubject_ready (result : AgentWaitResult)
    (ready : (evaluateWaitSubject panes subject condition).2 = .ready agent)
    (about : result.condition = condition ∧ result.agent = agent ∧
      result.reference = (evaluateWaitSubject panes subject condition).1.reference) :
    Completes panes (evaluateWaitSubject panes subject condition).1 condition result := by
  have adopted : ∀ reference, evaluateAgentWait panes reference condition = .ready agent →
      result.reference = some reference →
      Completes panes (.agent reference) condition result := by
    intro reference ready named
    rcases evaluateAgentWait_ready ready with
      ⟨runtime, rfl, rfl, present, accepted, _⟩ | ⟨rfl, gone, absent⟩
    · refine ⟨about.1, named, ?_, ?_⟩
      · intro other same
        cases about.2.1.symm.trans same
        exact ⟨rfl, present, accepted⟩
      · intro none
        cases about.2.1.symm.trans none
    · refine ⟨about.1, named, ?_, ?_⟩
      · intro other same
        cases about.2.1.symm.trans same
      · intro _
        refine ⟨gone, ?_⟩
        intro runtime same
        cases same
        exact absent runtime rfl
  cases subject with
  | agent reference => exact adopted reference ready about.2.2
  | pane paneId generation =>
      unfold evaluateWaitSubject at ready about ⊢
      simp only at ready about ⊢
      cases running : (panes.lookup paneId).filter fun pane =>
          pane.generation = generation && pane.exited.isNone with
      | none =>
          simp only [running] at ready about ⊢
          obtain ⟨rfl, gone⟩ := goneEvaluation_ready ready
          refine ⟨about.1, about.2.2, ?_, ?_⟩
          · intro other same
            cases about.2.1.symm.trans same
          · intro _
            exact ⟨gone, by simp⟩
      | some pane =>
          simp only [running] at ready about ⊢
          cases shown : paneAgent pane.runtimes pane.rows with
          | missing => simp [shown] at ready
          | noneOnScreen => simp [shown] at ready
          | one runtime =>
              simp only [shown] at ready about ⊢
              exact adopted runtime.reference ready about.2.2

end evaluation

section review

variable {key : WaitKey} {held : Held} {wait : PendingAgentWait} {panes : PaneMap}

/-- A review keeps up with the log, and arms a wait only when the log refutes its condition. -/
theorem Agrees.review (agrees : Agrees key held wait) (panes : PaneMap) :
    Agrees key (held.evaluate panes) (wait.review panes).1 := by
  have refuted : held.refuted → (held.evaluate panes).refuted := by
    intro known
    simp [Held.evaluate, known]
  have unarmed : (held.evaluate panes).prompted → (held.evaluate panes).refuted ∨
      ((held.evaluate panes).condition = .turn →
        ∃ state, wait.initialState = some state ∧ (held.evaluate panes).stateThen = some state) :=
    fun prompted => (agrees.unarmed prompted).imp_left refuted
  have pending : (evaluateWaitSubject panes wait.subject wait.until_).2 = .pending →
      (held.evaluate panes).refuted := by
    intro failed
    rw [agrees.subject, agrees.condition] at failed
    simp [Held.evaluate, failed]
  have subject : (evaluateWaitSubject panes wait.subject wait.until_).1 =
      (held.evaluate panes).subject := by
    rw [agrees.subject, agrees.condition]
    rfl
  have kept : Agrees key (held.evaluate panes)
      { wait with subject := (evaluateWaitSubject panes wait.subject wait.until_).1 } :=
    ⟨subject, agrees.condition, agrees.prompted, agrees.reply,
      fun prompted armed => refuted (agrees.armed prompted armed), unarmed⟩
  unfold PendingAgentWait.review
  simp only
  by_cases departing : wait.needsDeparture (evaluateWaitSubject panes wait.subject wait.until_).2
  · rw [if_pos departing]
    split
    · exact kept
    · next failed =>
        exact ⟨subject, agrees.condition, agrees.prompted, agrees.reply,
          fun _ _ => pending failed, unarmed⟩
    · exact kept
  · rw [if_neg departing]
    exact kept

/-- What may complete a wait: an error, or an agent in a state that answers it. -/
def Due (panes : PaneMap) (held : Held) : WaitEvaluation → Prop
  | .pending => False
  | .error .. => True
  | .ready agent => ∀ result : AgentWaitResult, result.condition = held.condition →
      result.agent = agent → result.reference = held.subject.reference →
      Completes panes held.subject held.condition result ∧
        (held.prompted → Departed held result)

theorem review_ready {agent : Option AgentRuntime}
    (ready : (wait.review panes).2 = .ready agent) :
    (evaluateWaitSubject panes wait.subject wait.until_).2 = .ready agent ∧
      wait.needsDeparture (.ready agent) = false := by
  unfold PendingAgentWait.review at ready
  simp only at ready
  by_cases departing : wait.needsDeparture (evaluateWaitSubject panes wait.subject wait.until_).2
  · rw [if_pos departing] at ready
    split at ready <;> cases ready
  · rw [if_neg departing] at ready
    simp only at ready
    rw [ready] at departing
    exact ⟨ready, by simpa using departing⟩

/-- What needs no departure was refuted before, or is a turn that ends in another state. -/
theorem Agrees.departed (agrees : Agrees key held wait) {agent : Option AgentRuntime}
    (stays : wait.needsDeparture (.ready agent) = false) (prompted : held.prompted)
    {result : AgentWaitResult} (about : result.agent = agent) : Departed held result := by
  unfold PendingAgentWait.needsDeparture at stays
  rw [agrees.prompted, prompted] at stays
  by_cases armed : wait.armed = true
  · exact .inl (agrees.armed prompted armed)
  rcases agrees.unarmed prompted with refuted | turned
  · exact .inl refuted
  simp only [armed, Bool.not_true, Bool.or_self, Bool.false_eq_true, if_false] at stays
  cases agent with
  | none => simp at stays
  | some runtime =>
      simp only at stays
      split_ifs at stays with turn
      · rw [agrees.condition] at turn
        rcases turned turn with ⟨state, initially, known⟩
        refine .inr ⟨turn, runtime, state, about, known, ?_⟩
        rw [initially] at stays
        simpa using stays

theorem Agrees.due (agrees : Agrees key held wait)
    (beyond : (wait.review panes).2 ≠ .pending) :
    Due panes (held.evaluate panes) (wait.review panes).2 := by
  cases outcome : (wait.review panes).2 with
  | pending => exact beyond outcome
  | error => trivial
  | ready agent =>
      intro result asked about reference
      rcases review_ready outcome with ⟨ready, stays⟩
      rw [agrees.subject, agrees.condition] at ready
      constructor
      · exact evaluateWaitSubject_ready result ready ⟨asked, about, reference⟩
      · intro prompted
        rcases agrees.departed stays prompted about with refuted | turned
        · exact .inl (by simp [Held.evaluate, refuted])
        · exact .inr turned

end review

end AgentWaits

end Rozi
