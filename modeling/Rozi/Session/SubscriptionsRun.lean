import Rozi.Session.SubscriptionsOpening

/-!
Whole runs of recording, subscribing and delivering. A connection is answered once; the records it
is then sent are those it asked for.
-/

namespace Rozi.Events

section runs

variable {S A : Type} {bodyLen : ServerMessage S A → Nat}

/-- The messages that every subscriber is sent fit a frame. -/
structure Framed (bodyLen : ServerMessage S A → Nat) : Prop where
  accepted : (encodeControl bodyLen (.sessionControlResult none)).isSome = true
  lagged : (encodeControl bodyLen (.sessionSubscribeRecord .lagged)).isSome = true
  ended : (encodeControl bodyLen (.sessionSubscribeRecord .ended)).isSome = true

structure Server.Sound (bodyLen : ServerMessage S A → Nat) (server : Server S A) : Prop where
  retains : server.sessionEvents.Retains server.recorded
  counted : server.sessionEvents.latestSeq < 2 ^ 64
  fit : ∀ event ∈ server.recorded, (encodeControl bodyLen
    (.sessionSubscribeRecord (.event event) : ServerMessage S A)).isSome = true
  seats : ∀ id, Seated server.nextClientId server.sessionEvents.sessionInstance server.recorded id
    (server.seat id)

namespace Server

variable {server next : Server S A} {id other : ClientId}

theorem core_parts (same : next.core = server.core) :
    next.sessionEvents = server.sessionEvents ∧ next.recorded = server.recorded ∧
      next.nextClientId = server.nextClientId := by
  have parts := same
  unfold core at parts
  simpa only [Prod.mk.injEq] using parts

/-- A step that changes one client only keeps what a run keeps, when it keeps it of that client. -/
theorem Sound.of_seat (sound : server.Sound bodyLen) (id : ClientId) (core : next.core = server.core)
    (apart : ∀ other, other ≠ id → next.seat other = server.seat other)
    (seated : Seated server.nextClientId server.sessionEvents.sessionInstance server.recorded id
      (next.seat id)) : next.Sound bodyLen := by
  rcases core_parts core with ⟨events, recorded, given⟩
  refine ⟨?_, ?_, ?_, ?_⟩
  · rw [events, recorded]
    exact sound.retains
  · rw [events]
    exact sound.counted
  · rw [recorded]
    exact sound.fit
  · intro other
    rw [events, recorded, given]
    by_cases same : other = id
    · rw [same]
      exact seated
    · rw [apart other same]
      exact sound.seats other

theorem sound_initial (named : String) (maxEvents maxBytes : Nat) :
    ({ sessionEvents := { sessionInstance := named, maxEvents, maxBytes } } : Server S A).Sound
      bodyLen where
  retains := SessionEventBuffer.retains_nil named maxEvents maxBytes
  counted := Nat.two_pow_pos 64
  fit := by
    intro event member
    cases member
  seats := by
    intro id
    rfl

theorem Sound.record (sound : server.Sound bodyLen) (kind : EventKind) (fields : EventFields)
    (room : server.sessionEvents.latestSeq + 1 < 2 ^ 64)
    (fits : (encodeControl bodyLen (.sessionSubscribeRecord
      (.event (server.sessionEvents.next kind fields)) : ServerMessage S A)).isSome = true)
    (lagged : (encodeControl bodyLen
      (.sessionSubscribeRecord .lagged : ServerMessage S A)).isSome = true) :
    (server.recordSessionEvent bodyLen kind fields).Sound bodyLen := by
  have following : (server.sessionEvents.next kind fields).seq = server.recorded.length + 1 := by
    rw [SessionEventBuffer.next_seq room, sound.retains.latest]
  let noted : Server S A := { server with
    sessionEvents := (server.sessionEvents.record kind fields).2
    recorded := server.recorded ++ [server.sessionEvents.next kind fields] }
  have retained : noted.sessionEvents.Retains noted.recorded :=
    sound.retains.record room kind fields
  have instances : noted.sessionEvents.sessionInstance =
      server.sessionEvents.sessionInstance :=
    SessionEventBuffer.record_sessionInstance kind fields
  have dispatched : server.recordSessionEvent bodyLen kind fields =
      noted.dispatchSessionSubscribers bodyLen (server.sessionEvents.next kind fields) := by
    unfold recordSessionEvent
    simp only [SessionEventBuffer.record_event]
    rfl
  have core : (noted.dispatchSessionSubscribers bodyLen
      (server.sessionEvents.next kind fields)).core = noted.core := core_dispatch
  rw [dispatched]
  rcases core_parts core with ⟨events, recorded, given⟩
  refine ⟨?_, ?_, ?_, ?_⟩
  · rw [events, recorded]
    exact retained
  · rw [events, retained.latest, List.length_append, ← sound.retains.latest]
    exact room
  · rw [recorded]
    intro event member
    rcases List.mem_append.mp member with before | new
    · exact sound.fit event before
    · rw [List.mem_singleton.mp new]
      exact fits
  · rw [events, recorded, given, instances]
    exact seated_dispatch sound.retains.numbered following fits lagged sound.seats

theorem Sound.stop (sound : server.Sound bodyLen)
    (ended : (encodeControl bodyLen
      (.sessionSubscribeRecord .ended : ServerMessage S A)).isSome = true) :
    (server.endSessionSubscribers bodyLen).Sound bodyLen := by
  rcases Option.isSome_iff_exists.mp ended with ⟨bytes, encoded⟩
  have spec := encodeControl_eq_some encoded
  have core : (server.endSessionSubscribers bodyLen).core = server.core :=
    foldl_unchanged Server.core (fun _ _ => core_endSubscriber) _ server
  rcases core_parts core with ⟨events, recorded, given⟩
  refine ⟨?_, ?_, ?_, ?_⟩
  · rw [events, recorded]
    exact sound.retains
  · rw [events]
    exact sound.counted
  · rw [recorded]
    exact sound.fit
  · rw [events, recorded, given]
    intro id
    unfold endSessionSubscribers
    by_cases member : id ∈ server.sessionSubscribers.keys
    · refine foldl_visits seat
        (fun id seat => Seated server.nextClientId server.sessionEvents.sessionInstance
          server.recorded id seat ∧ seat.2.isSome = true)
        (fun _ _ _ apart => seat_endSubscriber_other apart) ?_
        server.sessionSubscribers.nodupKeys server ?_ id member
      · rintro state id ⟨seated, here⟩
        rcases Option.isSome_iff_exists.mp here with ⟨subscriber, here⟩
        cases found : (state.seat id).1 with
        | none =>
            have shape : state.seat id = (none, some subscriber) := Prod.ext found here
            rw [shape] at seated
            cases seated
        | some client =>
            have shape : state.seat id = (some client, some subscriber) := Prod.ext found here
            rw [shape] at seated
            have kept := seated.2
            rw [seat_endSubscriber found kept.plain (kept.room (.inr rfl)) encoded]
            exact ⟨seated.1, kept.ended (.inr rfl) spec.1 spec.2.1⟩
      · intro other within
        exact ⟨sound.seats other, AList.lookup_isSome.mpr within⟩
    · rw [foldl_visits_other seat (fun _ _ _ apart => seat_endSubscriber_other apart) member]
      exact sound.seats id

theorem Sound.connect (sound : server.Sound bodyLen) : server.connect.Sound bodyLen where
  retains := sound.retains
  counted := sound.counted
  fit := sound.fit
  seats := by
    intro id
    have seated := sound.seats id
    by_cases new : id = server.nextClientId
    · subst new
      cases found : (server.seat server.nextClientId).1 with
      | some client =>
          have shape : server.seat server.nextClientId = (some client, _) := Prod.ext found rfl
          rw [shape] at seated
          exact absurd seated.1 (lt_irrefl _)
      | none =>
          have shape : server.seat server.nextClientId = (none, _) := Prod.ext found rfl
          rw [shape] at seated
          have vacant : server.sessionSubscribers.lookup server.nextClientId = none := seated
          have here : server.connect.seat server.nextClientId = (some {}, none) := by
            unfold seat Server.connect
            simp only [AList.lookup_insert, vacant]
          rw [here]
          refine ⟨Nat.lt_succ_self _, ⟨⟨?_, ?_⟩, ConnOutbox.plain_new, ?_, ?_⟩⟩
          · intro _
            refine ⟨rfl, ?_⟩
            intro record said
            cases said
          · intro stream streaming
            cases streaming
          · intro _
            exact ⟨rfl, rfl⟩
          · intro _
            exact Nat.zero_le _
    · have here : server.connect.seat id = server.seat id := by
        unfold seat Server.connect
        simp only [AList.lookup_insert_ne new]
      rw [here]
      cases found : (server.seat id).1 with
      | none =>
          have shape : server.seat id = (none, (server.seat id).2) := Prod.ext found rfl
          rw [shape] at seated ⊢
          exact seated
      | some client =>
          have shape : server.seat id = (some client, (server.seat id).2) := Prod.ext found rfl
          rw [shape] at seated ⊢
          exact ⟨Nat.lt_succ_of_lt seated.1, seated.2⟩

theorem Sound.remove (sound : server.Sound bodyLen) (id : ClientId) :
    (server.removeClient id).Sound bodyLen :=
  sound.of_seat id rfl (fun _ apart => seat_removeClient_other apart) (by rw [seat_removeClient]; rfl)

theorem Sound.wrote (sound : server.Sound bodyLen) {client written : Client S A}
    (found : server.clients.lookup id = some client) {count : Nat}
    (wrote : client.write count = some written) :
    ({ server with clients := server.clients.insert id written } : Server S A).Sound bodyLen := by
  have seated := sound.seats id
  have shape : server.seat id = (some client, (server.seat id).2) := Prod.ext found rfl
  rw [shape] at seated
  have kept := seated.2
  have moved := Client.moved_of_write kept.plain wrote
  have here : ({ server with clients := server.clients.insert id written } : Server S A).seat id =
      (some written, (server.seat id).2) := by
    unfold seat
    simp only [AList.lookup_insert]
  have rest := moved.rest
  have stream : written.stream = client.stream := by rw [rest]
  have asked : written.asked = client.asked := by rw [rest]
  have closes : written.closeAfterFlush = client.closeAfterFlush := by rw [rest]
  refine sound.of_seat id rfl (fun other apart => ?_) ?_
  · unfold seat
    simp only [AList.lookup_insert_ne apart]
  · rw [here]
    refine ⟨seated.1, ⟨⟨?_, ?_⟩, moved.plain, ?_, ?_⟩⟩
    · rw [stream, moved.said]
      exact kept.silent
    · intro one streaming
      rw [stream] at streaming
      rcases kept.streams one streaming with ⟨started, told⟩
      refine ⟨started, ?_⟩
      rcases told with live | beyond
      · exact .inl ⟨live.registered, by rw [moved.said]; exact live.said⟩
      · refine .inr ⟨beyond.unregistered, closes.trans beyond.closes, ?_⟩
        rw [moved.said]
        exact beyond.said
    · rw [asked, stream, moved.said]
      exact kept.fresh
    · rw [stream]
      intro told
      exact moved.bytes.trans (kept.room told)

/-- Whether a client may still make its request. -/
def MayAsk (server : Server S A) (id : ClientId) : Prop :=
  ∀ client, server.clients.lookup id = some client → client.asked = false

theorem Sound.answering (sound : server.Sound bodyLen) (may : server.MayAsk id) :
    Answering server.nextClientId id [] (server.seat id) := by
  have seated := sound.seats id
  cases found : (server.seat id).1 with
  | none =>
      have shape : server.seat id = (none, (server.seat id).2) := Prod.ext found rfl
      rw [shape] at seated
      exact .inl (Prod.ext found seated)
  | some client =>
      have shape : server.seat id = (some client, (server.seat id).2) := Prod.ext found rfl
      rw [shape] at seated
      have kept := seated.2
      have fresh := kept.fresh (may client found)
      have unregistered := (kept.silent fresh.1).1
      exact .inr ⟨client, Prod.ext found unregistered, seated.1, kept.plain,
        kept.room (.inl fresh.1), fresh.1, fresh.2⟩

theorem Sound.refused (sound : server.Sound bodyLen) (may : server.MayAsk id)
    {message : ServerMessage S A} (unrecorded : ∀ record, message ≠ .sessionSubscribeRecord record) :
    ((server.enqueue bodyLen id message).answered id).Sound bodyLen := by
  have enqueued : ∃ queued, (∀ entry ∈ queued, entry = message) ∧
      Answering server.nextClientId id ([] ++ queued)
        ((server.enqueue bodyLen id message).seat id) :=
    answering_enqueue_any (sound.answering may)
  rcases enqueued with ⟨queued, only, answering⟩
  refine sound.of_seat id (by rw [core_answered, core_enqueue]) (fun other apart => ?_)
    (seated_answered answering ?_)
  · rw [seat_answered_other apart, seat_enqueue_other apart]
  · intro record said
    rw [List.nil_append] at said
    exact unrecorded record (only _ said).symm

theorem Sound.subscribe {options : SubscribeOptions} {state : S} (sound : server.Sound bodyLen)
    (framed : Framed bodyLen) (may : server.MayAsk id) :
    (server.subscribe bodyLen id options state).Sound bodyLen := by
  unfold Server.subscribe
  cases opened : server.openSubscription bodyLen id options .streamingHeadless state with
  | error refused =>
      refine sound.refused may ?_
      intro record same
      cases same
  | ok next =>
      rcases accepted_of_ok sound.retains sound.counted opened with ⟨subscriber, replay, snapshot, accepted⟩
      rw [accepted.started]
      refine sound.of_seat id ?_ (fun other apart => ?_) ?_
      · rw [core_answered]
        exact core_startStream
      · rw [seat_answered_other apart]
        exact seat_startStream_other apart
      · exact seated_startStream rfl (parseEventFilter_wants accepted.parsed)
          sound.retains.numbered accepted.within accepted.replayed accepted.opening framed.accepted
          accepted.shown sound.fit (sound.answering may)

/-- What is promised of the events: their number fits, and each fits a frame. -/
def Recordable (bodyLen : ServerMessage S A → Nat) (server : Server S A) : Label S A → Prop
  | .record kind fields => server.sessionEvents.latestSeq + 1 < 2 ^ 64 ∧
      (encodeControl bodyLen (.sessionSubscribeRecord
        (.event (server.sessionEvents.next kind fields)))).isSome = true
  | _ => True

/-- And of the connections: each makes one request. -/
def Allowed (bodyLen : ServerMessage S A → Nat) (server : Server S A) (label : Label S A) : Prop :=
  server.Recordable bodyLen label ∧ match label with
    | .subscribe id _ _ => server.MayAsk id
    | .otherRequest id _ => server.MayAsk id
    | _ => True

instance (server : Server S A) (id : ClientId) : Decidable (server.MayAsk id) :=
  decidable_of_iff (∀ client ∈ server.clients.lookup id, client.asked = false) Iff.rfl

instance (server : Server S A) (label : Label S A) : Decidable (server.Recordable bodyLen label) :=
  match label with
  | .record _ _ => inferInstanceAs (Decidable (_ ∧ _))
  | .connect | .subscribe _ _ _ | .otherRequest _ _ | .write _ _ | .close _ | .disconnect _
  | .stop => inferInstanceAs (Decidable True)

instance (server : Server S A) (label : Label S A) : Decidable (server.Allowed bodyLen label) :=
  match label with
  | .subscribe id _ _ | .otherRequest id _ =>
      inferInstanceAs (Decidable (_ ∧ server.MayAsk id))
  | .connect | .record _ _ | .write _ _ | .close _ | .disconnect _ | .stop =>
      inferInstanceAs (Decidable (_ ∧ True))

def performWhen (allowed : Server S A → Label S A → Prop) [∀ server, DecidablePred (allowed server)]
    (bodyLen : ServerMessage S A → Nat) (server : Server S A) (label : Label S A) :
    Option (Server S A) :=
  if allowed server label then server.perform bodyLen label else none

theorem reachable_performWhen {allowed : Server S A → Label S A → Prop}
    [∀ server, DecidablePred (allowed server)] {labels : List (Label S A)} {last : Server S A}
    (reached : (subscriptionRuns bodyLen).ReachableWhen allowed server)
    (all : labels.foldlM (performWhen allowed bodyLen) server = some last) :
    (subscriptionRuns bodyLen).ReachableWhen allowed last := by
  refine reached.performed ?_ all
  intro state label next _ first
  unfold performWhen at first
  split_ifs at first with met
  exact ⟨met, first⟩

theorem Sound.perform (sound : server.Sound bodyLen) (framed : Framed bodyLen) {label : Label S A}
    (allowed : server.Allowed bodyLen label)
    (performed : server.perform bodyLen label = some next) : next.Sound bodyLen := by
  cases label with
  | connect =>
      rw [← Option.some.inj performed]
      exact sound.connect
  | record kind fields =>
      rw [← Option.some.inj performed]
      exact sound.record kind fields allowed.1.1 allowed.1.2 framed.lagged
  | subscribe id options state =>
      rw [← Option.some.inj performed]
      exact sound.subscribe framed allowed.2
  | otherRequest id answer =>
      rw [← Option.some.inj performed]
      refine sound.refused allowed.2 ?_
      intro record same
      cases same
  | write id count =>
      simp only [Server.perform, Option.bind_eq_bind, Option.bind_eq_some_iff, Option.pure_def,
        Option.some.injEq] at performed
      rcases performed with ⟨client, found, written, wrote, rfl⟩
      exact sound.wrote found wrote
  | close id =>
      simp only [Server.perform, Option.bind_eq_bind, Option.bind_eq_some_iff] at performed
      rcases performed with ⟨client, _, closed⟩
      split_ifs at closed
      rw [← Option.some.inj closed]
      exact sound.remove id
  | disconnect id =>
      rw [← Option.some.inj performed]
      exact sound.remove id
  | stop =>
      rw [← Option.some.inj performed]
      exact sound.stop framed.ended

theorem sound_of_reachable (framed : Framed bodyLen)
    (reached : (subscriptionRuns bodyLen).ReachableWhen (Allowed bodyLen) server) :
    server.Sound bodyLen := by
  refine reached.invariant ?_ ?_
  · rintro server ⟨named, maxEvents, maxBytes, rfl⟩
    exact sound_initial named maxEvents maxBytes
  · intro server label next sound allowed performed
    exact sound.perform framed allowed performed

end Server

/-- What the buffer keeps and answers, and what the clients are sent. The retained events are the
latest ones, within both limits; a cursor gets everything after it or nothing; and a client is sent
what it asked for, up to a record that says the stream is over. -/
structure Server.Gapless (server : Server S A) : Prop where
  retains : server.sessionEvents.Retains server.recorded
  answers : ∀ named seq events, server.sessionEvents.after named seq = .ok events ↔
    named = server.sessionEvents.sessionInstance ∧ seq ≤ server.sessionEvents.latestSeq ∧
      server.sessionEvents.Holds server.recorded seq ∧ events = server.recorded.drop seq
  told : ∀ id client, server.clients.lookup id = some client →
    client.Told server.sessionEvents.sessionInstance server.recorded
      (server.sessionSubscribers.lookup id)

theorem subscribers_gapless (framed : Framed bodyLen) (server : Server S A)
    (reached : (subscriptionRuns bodyLen).ReachableWhen (Server.Allowed bodyLen) server) :
    server.Gapless := by
  have sound := Server.sound_of_reachable framed reached
  refine ⟨sound.retains, sound.retains.after_eq_ok sound.counted, ?_⟩
  intro id client found
  have seated := sound.seats id
  have shape : server.seat id = (some client, server.sessionSubscribers.lookup id) :=
    Prod.ext found rfl
  rw [shape] at seated
  exact seated.2.toTold

end runs

/-! A session that keeps two events, seen by one client. -/

def sampleLen : ServerMessage Unit Unit → Nat
  | .sessionControlResult none => 115
  | .sessionControlResult (some refused) => 200 + refused.message.utf8ByteSize
  | .sessionSubscribeRecord (.event event) =>
      110 + event.sessionInstance.utf8ByteSize + (toString event.seq).utf8ByteSize +
        event.kind.id.utf8ByteSize +
        (event.data.map fun field => field.1.utf8ByteSize + field.2.utf8ByteSize + 6).sum -
        min event.data.length 1
  | .sessionSubscribeRecord (.snapshot named _ _) => 400 + named.utf8ByteSize
  | .sessionSubscribeRecord .lagged => 62
  | .sessionSubscribeRecord .ended => 61
  | .answer _ => 115

theorem sampleLen_framed : Framed sampleLen := ⟨rfl, rfl, rfl⟩

def emptySample : Server Unit Unit :=
  { sessionEvents := { sessionInstance := "i", maxEvents := 2, maxBytes := 1000 } }

def sampleOptions (after : Option String) : SubscribeOptions :=
  { events := ["bell"], snapshot := false, after }

def sampleLabels : List (Label Unit Unit) :=
  [.connect, .record .bell [("pane", "1")], .subscribe 1 (sampleOptions (some "i:0")) (),
    .record .paneExited [("pane", "2"), ("code", "0")], .record .bell [("pane", "3")],
    .write 1 120, .write 1 100]

def repeatedLabels : List (Label Unit Unit) :=
  [.connect, .subscribe 1 (sampleOptions none) (), .record .bell [("pane", "1")],
    .subscribe 1 (sampleOptions (some "i:0")) (), .write 1 120, .write 1 131, .write 1 120,
    .write 1 131]

def sampleServer : Server Unit Unit :=
  (sampleLabels.foldlM (Server.performWhen (Server.Allowed sampleLen) sampleLen)
    emptySample).getD emptySample

theorem sampleServer_reached :
    (subscriptionRuns sampleLen).ReachableWhen (Server.Allowed sampleLen) sampleServer := by
  have performed : sampleLabels.foldlM (Server.performWhen (Server.Allowed sampleLen) sampleLen)
      emptySample = some sampleServer := rfl
  exact Server.reachable_performWhen (.initial ⟨"i", 2, 1000, rfl⟩) performed

theorem subscribers_gapless_bells : sampleServer.Gapless :=
  subscribers_gapless sampleLen_framed sampleServer sampleServer_reached

def repeatedServer : Server Unit Unit :=
  (repeatedLabels.foldlM (Server.performWhen (Server.Recordable sampleLen) sampleLen)
    emptySample).getD emptySample

/-- A connection that subscribes a second time is sent an event it has had. -/
theorem event_written_twice :
    (subscriptionRuns sampleLen).ReachableWhen (Server.Recordable sampleLen) repeatedServer ∧
      repeatedServer.recorded.length = 1 ∧ ∀ event ∈ repeatedServer.recorded,
        (repeatedServer.clients.lookup 1).map (fun client =>
          client.written.count (.sessionSubscribeRecord (.event event))) = some 2 := by
  have performed : repeatedLabels.foldlM
      (Server.performWhen (Server.Recordable sampleLen) sampleLen) emptySample =
      some repeatedServer := rfl
  refine ⟨Server.reachable_performWhen (.initial ⟨"i", 2, 1000, rfl⟩) performed, rfl, ?_⟩
  decide +kernel

end Rozi.Events
