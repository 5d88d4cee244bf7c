import Rozi.Session.IngressPop

/-!
The output of a pane stream is handled in the order its PTY delivered it, whatever is merged, cut
and passed over in the queue.
-/

namespace Rozi

open Lanes

namespace Occurrence

def delivery : Lanes Occurrence MediaKey UInt8 where
  lane
    | delivered key _ => some key
    | _ => none
  text
    | delivered _ bytes => bytes
    | _ => []

def handling : Lanes Occurrence MediaKey UInt8 where
  lane
    | handled key _ _ => some key
    | _ => none
  text
    | handled _ bytes _ => bytes
    | _ => []

end Occurrence

namespace IngressRun

def extend (run : IngressRun) (outcome : Occurring) : IngressRun :=
  { server := outcome.1, trace := run.trace ++ outcome.2 }

variable {run : IngressRun}

theorem extend_andThen (before : Occurring) (next : Ingress → Occurring) :
    run.extend (before.andThen next) = (run.extend before).extend (next before.1) := by
  simp [extend, Occurring.andThen]

theorem extend_start (occurrences : List Occurrence) :
    (run.extend (run.server, occurrences)).server = run.server := rfl

end IngressRun

namespace Ingress

variable {server : Ingress} {outcome : Occurring}

structure Offstage (server : Ingress) (outcome : Occurring) : Prop where
  events : outcome.1.events = server.events
  delivers : ∀ occurrence ∈ outcome.2, Occurrence.delivery.lane occurrence = none
  handles : ∀ occurrence ∈ outcome.2, Occurrence.handling.lane occurrence = none

theorem Offstage.silent {after : Ingress} (events : after.events = server.events) :
    Offstage server (after, []) where
  events := events
  delivers := by simp
  handles := by simp

theorem Offstage.one {after : Ingress} {occurrence : Occurrence}
    (events : after.events = server.events)
    (delivers : Occurrence.delivery.lane occurrence = none)
    (handles : Occurrence.handling.lane occurrence = none) :
    Offstage server (after, [occurrence]) where
  events := events
  delivers := by simpa using delivers
  handles := by simpa using handles

theorem Offstage.andThen {next : Ingress → Occurring} (first : Offstage server outcome)
    (second : ∀ middle, Offstage middle (next middle)) :
    Offstage server (outcome.andThen next) where
  events := (second outcome.1).events.trans first.events
  delivers := List.forall_mem_append.mpr ⟨first.delivers, (second outcome.1).delivers⟩
  handles := List.forall_mem_append.mpr ⟨first.handles, (second outcome.1).handles⟩

theorem offstage_removeClient (client : ClientId) :
    Offstage server (server.removeClient client) := by
  unfold removeClient
  simp only
  split_ifs
  · exact .one rfl rfl rfl
  · exact .silent rfl

theorem offstage_releaseMediaBarrier (client : ClientId) :
    Offstage server (server.releaseMediaBarrier client) := by
  have removed : Offstage (server.releaseCount client)
      ((server.releaseCount client).removeClient client) := offstage_removeClient client
  unfold releaseMediaBarrier
  simp only
  split_ifs
  · exact ⟨removed.events, removed.delivers, removed.handles⟩
  · exact .silent rfl

theorem offstage_emitMediaBatch : Offstage server server.emitMediaBatch := by
  unfold emitMediaBatch
  cases server.media.outputBatch with
  | some batch => exact .one rfl rfl rfl
  | none => exact .silent rfl

theorem offstage_sendParsedOutput (key : MediaKey)
    (transactions : List TerminalOutputTransaction) :
    Offstage server (server.sendParsedOutput key transactions) := by
  unfold sendParsedOutput
  split_ifs
  · cases staged : (server.media.stageOutput key transactions).1 with
    | true =>
        simp only [staged]
        exact .one rfl rfl rfl
    | false =>
        simp only [staged]
        exact .silent rfl
  · exact .silent rfl

theorem offstage_apply (effect : Effect) : Offstage server (server.apply effect) := by
  cases effect with
  | attach client => exact .silent rfl
  | remove client => exact offstage_removeClient client
  | setPane owner pane generation => exact .silent rfl
  | emitMedia => exact offstage_emitMediaBatch
  | stageOutput key transactions => exact offstage_sendParsedOutput key transactions
  | discardCompleted key => exact .silent rfl

theorem offstage_applyAll (effects : List Effect) : Offstage server (server.applyAll effects) := by
  induction effects generalizing server with
  | nil => exact .silent rfl
  | cons effect effects ih => exact (offstage_apply effect).andThen fun middle => ih

theorem offstage_processClientControlNow (client : ClientId) (message : ClientMessage)
    (effects : List Effect) :
    Offstage server (server.processClientControlNow client message effects) := by
  have called : ∀ accepted, Offstage server (server, [.executed client message accepted
      (server.mutatedStream client message) server.media.active]) := fun _ => .one rfl rfl rfl
  unfold processClientControlNow
  simp only
  by_cases refused : (!server.acceptsClientControl client message) = true
  · rw [if_pos refused]
    exact called _
  · rw [if_neg refused]
    apply (called _).andThen
    intro middle
    apply (offstage_applyAll effects).andThen
    intro last
    split_ifs
    · exact offstage_removeClient client
    · exact .silent rfl

theorem offstage_disconnectAfterControls (client : ClientId) :
    Offstage server (server.disconnectAfterControls client) := by
  unfold disconnectAfterControls
  split_ifs
  · exact .silent rfl
  · exact offstage_removeClient client

theorem pollMedia_events (relay : GraphicsRelayPolicy) (accepts : Bool) (consumes : Consumes) :
    (server.pollMedia relay accepts consumes).events = server.events := by
  unfold pollMedia
  simp only
  split
  · split_ifs <;> rfl
  · rfl

structure Handles (server : Ingress) (event : ServerEvent) (outcome : Occurring) : Prop where
  events : outcome.1.events = server.events
  delivers : ∀ occurrence ∈ outcome.2, Occurrence.delivery.lane occurrence = none
  text : ∀ key, Occurrence.handling.transcript key outcome.2 = ServerEvent.lanes.said key event

theorem Offstage.speechless {event : ServerEvent} (offstage : Offstage server outcome)
    (silent : ∀ key, ServerEvent.lanes.said key event = []) : Handles server event outcome where
  events := offstage.events
  delivers := offstage.delivers
  text := by
    intro key
    rw [silent key]
    exact transcript_apart fun occurrence member => by rw [offstage.handles occurrence member]; simp

theorem offstage_applyPty (key : MediaKey) (event : TerminalPtyEvent)
    (prepared : Option TerminalPreparedInput) (handling : Handling) :
    Offstage server (server.applyPty key event prepared handling) := by
  have sends : Offstage server
      ((server.sendParsedOutput key handling.transactions).andThen fun server =>
        server.applyAll handling.effects) :=
    (offstage_sendParsedOutput key handling.transactions).andThen fun _ => offstage_applyAll _
  unfold applyPty
  by_cases gone : server.panes key.owner key.pane ≠ some key.generation
  · rw [if_pos gone]
    exact .silent rfl
  · rw [if_neg gone]
    cases event with
    | output bytes =>
        by_cases failed : (prepared.isSome && !handling.parses) = true
        · simp only [if_pos failed]
          exact .silent rfl
        · simp only [if_neg failed]
          exact sends
    | exited code => exact sends
    | error message => exact offstage_applyAll handling.effects

theorem handlePty_handles (key : MediaKey) (event : TerminalPtyEvent) (handling : Handling) :
    Handles server (.pty key event) (server.handlePty key event handling) := by
  unfold handlePty
  rcases server.media.takeReady key with ⟨prepared, media⟩
  have rest : Offstage { server with media }
      ({ server with media }.applyPty key event prepared handling) :=
    offstage_applyPty key event prepared handling
  have silent : ∀ other, Occurrence.handling.transcript other
      (({ server with media } : Ingress).applyPty key event prepared handling).2 = [] := by
    intro other
    exact transcript_apart fun occurrence member => by rw [rest.handles occurrence member]; simp
  simp only [Occurring.andThen]
  refine ⟨rest.events, ?_, ?_⟩
  · intro occurrence member
    rcases List.mem_append.mp member with seen | applied
    · cases event with
      | output bytes =>
          cases List.mem_singleton.mp seen
          rfl
      | exited code => cases seen
      | error message => cases seen
    · exact rest.delivers occurrence applied
  · intro other
    simp only [transcript_append, silent other, List.append_nil]
    cases event with
    | output bytes =>
        rw [transcript_cons, transcript_nil, List.append_nil]
        rfl
    | exited code => simp [said, ServerEvent.lanes]
    | error message => simp [said, ServerEvent.lanes]

theorem handleEvent_handles (event : ServerEvent) (handling : Handling) :
    Handles server event (server.handleEvent event handling) := by
  cases event with
  | pty key event => exact handlePty_handles key event handling
  | browse client listing =>
      exact (offstage_applyAll handling.effects).speechless fun key => rfl
  | mediaBarrier client message =>
      have executed : Offstage server
          (if server.clientAttached client then
            server.processClientControlNow client message handling.effects
          else (server, [])) := by
        split_ifs
        · exact offstage_processClientControlNow client message handling.effects
        · exact .silent rfl
      have released := executed.andThen fun middle => offstage_releaseMediaBarrier client
      exact released.speechless fun key => rfl

theorem coalesceOutput_spec {queued next merged : ServerEvent}
    (merges : queued.coalesceOutput next = some merged) :
    ∃ key bytes more, queued = .pty key (.output bytes) ∧ next = .pty key (.output more) ∧
      merged = .pty key (.output (bytes ++ more)) := by
  unfold ServerEvent.coalesceOutput at merges
  split at merges
  · rename_i key bytes nextKey more
    split_ifs at merges with apart
    cases merges
    have same : key = nextKey := by
      by_contra differ
      exact apart (.inl differ)
    exact ⟨key, bytes, more, rfl, by rw [same], rfl⟩
  · cases merges

/-- A push adds the text of its event at the end of the event's lane, merged or not. -/
theorem push_transcript {queue next : ByteQueue ServerEvent} {event : ServerEvent} {bytes : Nat}
    (pushed : queue.pushBlockingWith event bytes ServerEvent.coalesceOutput = .ok next) :
    (∀ key, ServerEvent.lanes.transcript key next.values =
      ServerEvent.lanes.transcript key queue.values ++ ServerEvent.lanes.said key event) ∧
    ∀ client, ServerEvent.fenced.transcript client next.values =
      ServerEvent.fenced.transcript client queue.values ++ ServerEvent.fenced.said client event := by
  rcases ByteQueue.pushBlockingWith_pushed pushed with
    ⟨entry, carries, entries⟩ | ⟨front, entry, grown, whole, merges, entries⟩
  · simp [ByteQueue.values, entries, carries]
  · rcases coalesceOutput_spec merges with ⟨key, old, more, queued, rfl, merged⟩
    simp only [ByteQueue.values, entries, whole, List.map_append, List.map_cons, List.map_nil,
      queued, merged]
    refine ⟨fun other => ?_, fun client => by simp [said, ServerEvent.fenced]⟩
    by_cases same : key = other
    · simp [said, ServerEvent.lanes, same]
    · simp [said, ServerEvent.lanes, same]

theorem tryPush_values {queue next : ByteQueue ServerEvent} {event : ServerEvent} {bytes : Nat}
    (pushed : queue.tryPush event bytes = .ok next) : next.values = queue.values ++ [event] := by
  rw [ByteQueue.tryPush_eq_ok pushed]
  simp [ByteQueue.values]

end Ingress

namespace IngressRun

open Ingress

variable {run : IngressRun}

/-- What was handled of a stream and what is queued for it is what its PTY delivered. -/
def Streamed (run : IngressRun) : Prop :=
  ∀ key, Occurrence.handling.transcript key run.trace ++
      ServerEvent.lanes.transcript key run.server.events.values =
    Occurrence.delivery.transcript key run.trace

theorem Streamed.offstage (streamed : run.Streamed) {outcome : Occurring}
    (offstage : Offstage run.server outcome) : (run.extend outcome).Streamed := by
  intro key
  have handles : Occurrence.handling.transcript key outcome.2 = [] :=
    transcript_apart fun occurrence member => by rw [offstage.handles occurrence member]; simp
  have delivers : Occurrence.delivery.transcript key outcome.2 = [] :=
    transcript_apart fun occurrence member => by rw [offstage.delivers occurrence member]; simp
  simp only [extend, transcript_append, handles, delivers, List.append_nil, ByteQueue.values,
    offstage.events]
  exact streamed key

theorem Streamed.deliver (streamed : run.Streamed) (key : MediaKey) (event : TerminalPtyEvent) :
    (run.extend (run.server.deliver key event)).Streamed := by
  unfold Ingress.deliver
  cases pushed : run.server.events.pushBlockingWith (.pty key event) (ptyBytes event)
      ServerEvent.coalesceOutput with
  | error refusal =>
      simp only [(ByteQueue.pushBlockingWith_refused pushed).1]
      exact streamed.offstage (.silent rfl)
  | ok events =>
      intro other
      have grown := (push_transcript pushed).1 other
      have before := streamed other
      cases event with
      | output bytes =>
          have same : Occurrence.delivery.said other (.delivered key bytes) =
              ServerEvent.lanes.said other (.pty key (.output bytes)) := rfl
          have silent : Occurrence.handling.said other (.delivered key bytes) = [] := rfl
          simp [extend, grown, same, silent, ← before]
      | exited code =>
          have silent : ServerEvent.lanes.said other (.pty key (.exited code)) = [] := by
            simp [said, ServerEvent.lanes]
          simp [extend, grown, silent, before]
      | error message =>
          have silent : ServerEvent.lanes.said other (.pty key (.error message)) = [] := by
            simp [said, ServerEvent.lanes]
          simp [extend, grown, silent, before]

theorem Streamed.browse (streamed : run.Streamed) (client : ClientId) (listing : String)
    (bytes : Nat) : (run.extend (run.server.browse client listing bytes, [])).Streamed := by
  unfold Ingress.browse
  cases pushed : run.server.events.pushBlockingWith (.browse client listing) bytes
      ServerEvent.coalesceOutput with
  | error refusal =>
      simp only [(ByteQueue.pushBlockingWith_refused pushed).1]
      exact streamed.offstage (.silent rfl)
  | ok events =>
      intro key
      have grown := (push_transcript pushed).1 key
      have silent : ServerEvent.lanes.said key (.browse client listing) = [] := rfl
      have before := streamed key
      simp [extend, grown, silent, before]

theorem Streamed.control (streamed : run.Streamed) (size : ClientMessage → Nat)
    (client : ClientId) (message : ClientMessage) (effects : List Effect) :
    (run.extend (run.server.processClientFrame size client message effects)).Streamed := by
  unfold processClientFrame
  rw [extend_andThen]
  have received : (run.extend (run.server, [.received client message])).Streamed :=
    streamed.offstage (.one rfl rfl rfl)
  simp only
  unfold deferMediaBarrier
  split_ifs
  · exact received.offstage (offstage_processClientControlNow client message effects)
  · cases pushed : run.server.events.tryPush (.mediaBarrier client message) (size message) with
    | error refusal =>
        simp only [(ByteQueue.tryPushWith_refused pushed).1]
        exact received.offstage (.silent rfl)
    | ok events =>
        intro key
        have grown := tryPush_values pushed
        have silent : ServerEvent.lanes.said key (.mediaBarrier client message) = [] := rfl
        have before := received key
        simpa [extend, grown, silent] using before

theorem Streamed.nextReady (streamed : run.Streamed) (commitMedia : Bool) (preparing : Preparing)
    (handling : Handling) (size : ClientMessage → Nat) :
    (run.extend (run.server.after size (.nextReady commitMedia preparing handling))).Streamed := by
  simp only [Ingress.after]
  rcases popped : run.server.nextReadyEventPhase commitMedia preparing with ⟨event | event, after⟩
  · rcases nextReadyEventPhase_none popped with ⟨scan, _, rfl⟩
    exact streamed.offstage (.silent rfl)
  · rcases nextReadyEventPhase_taken popped with ⟨taken⟩
    have handled := after.handleEvent_handles event handling
    intro key
    have before := streamed key
    have pop := taken.transcript key
    have delivers : Occurrence.delivery.transcript key (after.handleEvent event handling).2 = [] :=
      transcript_apart fun occurrence member => by rw [handled.delivers occurrence member]; simp
    simp only [extend, transcript_append, handled.text key, delivers, List.append_nil,
      ByteQueue.values, handled.events]
    rw [← before, pop, ByteQueue.values, List.append_assoc]

theorem Streamed.step (streamed : run.Streamed) (size : ClientMessage → Nat)
    (action : IngressAction) : (run.after size action).Streamed := by
  cases action with
  | acceptNew => exact streamed.offstage (.silent rfl)
  | deliver key event => exact streamed.deliver key event
  | browse client listing bytes => exact streamed.browse client listing bytes
  | control client message effects => exact streamed.control size client message effects
  | nextReady commitMedia preparing handling =>
      exact streamed.nextReady commitMedia preparing handling size
  | poll relay accepts consumes =>
      exact streamed.offstage (.silent (pollMedia_events relay accepts consumes))
  | finishJob consumes => exact streamed.offstage (.silent rfl)
  | disconnect client => exact streamed.offstage (offstage_disconnectAfterControls client)
  | effect effect => exact streamed.offstage (offstage_apply effect)

end IngressRun

end Rozi
