import Rozi.Session.Subscriptions

/-!
What a subscriber is sent. While it is subscribed it has been queued exactly the events it asked
for, up to the latest one; afterwards its last record says that the stream is over.
-/

namespace Rozi

open QueueBytes

namespace ConnOutbox

variable {ω : Type} {conn : ConnOutbox ω} {bytes : EncodedOutput ω} {cap : Nat}

structure Plain (conn : ConnOutbox ω) : Prop where
  opened : conn.transportClosed = false
  unseeded : conn.seed = none
  control : ∀ frame ∈ conn.outbox, frame.pane = none ∧ frame.bytes.media = []

def contents (conn : ConnOutbox ω) : List ω := conn.outbox.map fun frame => frame.bytes.content

def append (conn : ConnOutbox ω) (bytes : EncodedOutput ω) : ConnOutbox ω :=
  { conn.charge .normal bytes.len with
    outbox := conn.outbox ++ [{ bytes, frameClass := .normal, pane := none, replacement := none }] }

theorem plain_new : ({} : ConnOutbox ω).Plain where
  opened := rfl
  unseeded := rfl
  control := by
    intro frame member
    cases member

theorem Plain.largestOutboxPane (plain : conn.Plain) : conn.largestOutboxPane = none := by
  unfold ConnOutbox.largestOutboxPane
  rw [List.filterMap_eq_nil_iff.mpr]
  · rfl
  · intro frame member
    rw [(plain.control frame (List.mem_of_mem_drop member)).1]

/-- A control frame is appended when it fits, and otherwise changes nothing. -/
theorem Plain.pushDelta (plain : conn.Plain) (owned : bytes.media = []) :
    conn.pushDelta bytes .control cap none true =
      if conn.outboxBytes + bytes.len ≤ cap then (conn.append bytes, .queued)
      else (conn, .overflow) := by
  have routed : conn.pushDeltaInner bytes .control cap none =
      conn.pushLive bytes .control cap none := by
    unfold pushDeltaInner barrier
    rw [plain.opened, plain.unseeded]
    rfl
  have pushed : conn.pushLive bytes .control cap none =
      conn.pushLiveLoop bytes .control cap none (conn.outbox.length + 1) := rfl
  unfold ConnOutbox.pushDelta
  rw [owned, routed, pushed, pushLiveLoop]
  simp only [List.isEmpty_nil, Bool.true_or, if_true]
  split_ifs with fits
  · unfold tryPushClass
    rw [plain.opened, if_neg Bool.false_ne_true, if_neg (Nat.not_lt.mpr fits)]
    rfl
  · rw [plain.largestOutboxPane]
    unfold overflowing
    have kept := plain.unseeded
    cases conn
    cases kept
    rfl

theorem Plain.append (plain : conn.Plain) (owned : bytes.media = []) :
    (conn.append bytes).Plain where
  opened := plain.opened
  unseeded := plain.unseeded
  control := by
    intro frame member
    rcases List.mem_append.mp member with before | new
    · exact plain.control frame before
    · rw [List.mem_singleton.mp new]
      exact ⟨rfl, owned⟩

@[simp] theorem append_contents : (conn.append bytes).contents = conn.contents ++ [bytes.content] :=
  List.map_append

theorem Plain.prepareAcquisition (plain : conn.Plain) :
    conn.prepareAcquisition none = some conn := by
  unfold ConnOutbox.prepareAcquisition
  cases queued : conn.outbox with
  | nil => rfl
  | cons front rest =>
      have owned := (plain.control front (queued ▸ List.mem_cons_self)).2
      simp only [owned, List.isEmpty_nil, if_true]

/-- A write that sends the rest of the front frame takes it off the queue; a shorter one does not. -/
theorem Plain.flushFront (plain : conn.Plain) {front : OutboxFrame ω} {rest : List (OutboxFrame ω)}
    (queued : conn.outbox = front :: rest) {count : Nat} {next : ConnOutbox ω}
    (flushed : conn.flushFront none count = some next) :
    next.outboxBytes ≤ conn.outboxBytes ∧ next.transportClosed = conn.transportClosed ∧
      next.seed = conn.seed ∧ next.outbox =
        if front.bytes.len ≤ conn.frontOffset + count ∧ 0 < count then rest
        else conn.outbox := by
  unfold ConnOutbox.flushFront at flushed
  rw [plain.prepareAcquisition, ite_self] at flushed
  simp only [queued] at flushed
  split_ifs at flushed with whole
  · have whole' : front.bytes.len ≤ conn.frontOffset + count ∧ 0 < count := whole
    rw [if_pos whole', ← Option.some.inj flushed]
    unfold popOutboxFront release
    simp only [queued]
    exact ⟨Nat.sub_le _ _, trivial, trivial, trivial⟩
  · have whole' : ¬ (front.bytes.len ≤ conn.frontOffset + count ∧ 0 < count) := whole
    rw [if_neg whole', ← Option.some.inj flushed]
    exact ⟨Nat.sub_le _ _, rfl, rfl, rfl⟩

end ConnOutbox

namespace Events

section safety

variable {S A : Type} {bodyLen : ServerMessage S A → Nat}

namespace Client

variable {client next : Client S A} {bytes : EncodedOutput (ServerMessage S A)}

def said (client : Client S A) : List (ServerMessage S A) := client.written ++ client.conn.contents

def queue (client : Client S A) (bytes : EncodedOutput (ServerMessage S A)) : Client S A :=
  { client with conn := client.conn.append bytes }

@[simp] theorem queue_said : (client.queue bytes).said = client.said ++ [bytes.content] := by
  unfold said queue
  rw [ConnOutbox.append_contents, List.append_assoc]

structure Moved (client next : Client S A) : Prop where
  plain : next.conn.Plain
  said : next.said = client.said
  bytes : next.conn.outboxBytes ≤ client.conn.outboxBytes
  rest : next = { client with conn := next.conn, written := next.written }

theorem moved_of_write (plain : client.conn.Plain) {count : Nat}
    (wrote : client.write count = some next) : client.Moved next := by
  unfold write at wrote
  cases queued : client.conn.outbox with
  | nil =>
      rw [queued] at wrote
      cases wrote
  | cons front rest =>
      simp only [queued] at wrote
      rw [ite_eq_iff] at wrote
      rcases wrote with ⟨_, refused⟩ | ⟨_, wrote⟩
      · cases refused
      cases flushed : client.conn.flushFront none count with
      | none =>
          rw [flushed] at wrote
          cases wrote
      | some conn =>
          rw [flushed] at wrote
          have spec := plain.flushFront queued flushed
          rcases spec with ⟨bytes, opened, seed, outbox⟩
          rw [← Option.some.inj wrote]
          refine ⟨⟨opened.trans plain.opened, seed.trans plain.unseeded, ?_⟩, ?_, bytes, rfl⟩
          · intro frame member
            refine plain.control frame ?_
            simp only [outbox] at member
            split_ifs at member
            · rw [queued]
              exact List.mem_cons_of_mem _ member
            · exact member
          · unfold said ConnOutbox.contents
            simp only [outbox]
            split_ifs
            · rw [queued, List.map_cons, List.append_assoc, List.singleton_append]
            · rfl

end Client

/-! What a stream owes, and how far it has come. -/

namespace Stream

variable (stream : Stream S)

def wants (kind : EventKind) : Bool :=
  stream.options.events.isEmpty ||
    stream.options.events.any fun name => EventKind.parse name == some kind

/-- The last event the subscriber had when it subscribed: the one its cursor names, or the latest
one there was. -/
def since : Nat :=
  match stream.options.after.map parseCursor with
  | some (.ok (_, seq)) => seq
  | _ => stream.openedAt

def opening (named : String) : List (ServerMessage S A) :=
  .sessionControlResult none ::
    if stream.options.snapshot then
      [.sessionSubscribeRecord (.snapshot named stream.openedAt stream.state)]
    else []

def records (events : List SessionEvent) : List (ServerMessage S A) :=
  (events.filter fun event => stream.wants event.kind).map fun event =>
    .sessionSubscribeRecord (.event event)

/-- The records of the events up to `upTo` that the subscriber wants and did not have. -/
def owed (recorded : List SessionEvent) (upTo : Nat) : List (ServerMessage S A) :=
  stream.records (recorded.window SessionEvent.seq stream.since upTo)

end Stream

structure Streaming (named : String) (recorded : List SessionEvent) (client : Client S A)
    (stream : Stream S) (registered : Option SessionSubscriber) : Prop where
  registered : ∃ subscriber, registered = some subscriber ∧
    ∀ kind, subscriber.wants kind = stream.wants kind
  said : client.said = stream.opening named ++ stream.owed recorded recorded.length

structure Over (named : String) (recorded : List SessionEvent) (client : Client S A)
    (stream : Stream S) (registered : Option SessionSubscriber) : Prop where
  unregistered : registered = none
  closes : client.closeAfterFlush = true
  said : ∃ (upTo : Nat) (last : SessionSubscribeRecord S),
    stream.since ≤ upTo ∧ upTo ≤ recorded.length ∧
    (last = .lagged ∨ last = .ended) ∧
    client.said = stream.opening named ++ stream.owed recorded upTo ++
      [.sessionSubscribeRecord last]

/-- What a client was queued, against what it asked for. A connection that has no stream was queued
no record. -/
structure Client.Told (named : String) (recorded : List SessionEvent) (client : Client S A)
    (registered : Option SessionSubscriber) : Prop where
  silent : client.stream = none →
    registered = none ∧ ∀ record, .sessionSubscribeRecord record ∉ client.said
  streams : ∀ stream, client.stream = some stream → stream.since ≤ recorded.length ∧
    (Streaming named recorded client stream registered ∨
      Over named recorded client stream registered)

structure Client.Sound (named : String) (recorded : List SessionEvent) (client : Client S A)
    (registered : Option SessionSubscriber) : Prop
    extends client.Told named recorded registered where
  plain : client.conn.Plain
  fresh : client.asked = false → client.stream = none ∧ client.said = []
  room : client.stream = none ∨ registered.isSome → client.conn.outboxBytes ≤ maxBacklog

abbrev Seat (S A : Type) := Option (Client S A) × Option SessionSubscriber

def Seated (next : ClientId) (named : String) (recorded : List SessionEvent) (id : ClientId) :
    Seat S A → Prop
  | (none, registered) => registered = none
  | (some client, registered) => id < next ∧ client.Sound named recorded registered

namespace Server

variable {server : Server S A} {id other : ClientId}
variable {bytes : EncodedOutput (ServerMessage S A)} {cap : Nat}

def seat (server : Server S A) (id : ClientId) : Seat S A :=
  (server.clients.lookup id, server.sessionSubscribers.lookup id)

def core (server : Server S A) : SessionEventBuffer × List SessionEvent × ClientId :=
  (server.sessionEvents, server.recorded, server.nextClientId)

theorem seat_alter_other (apart : other ≠ id) (change : Client S A → Client S A) :
    (server.alter id change).seat other = server.seat other := by
  unfold alter
  cases server.clients.lookup id with
  | none => rfl
  | some client =>
      unfold seat
      simp only [AList.lookup_insert_ne apart]

@[simp] theorem seat_alter (change : Client S A → Client S A) :
    (server.alter id change).seat id =
      ((server.seat id).1.map change, (server.seat id).2) := by
  unfold alter seat
  cases found : server.clients.lookup id with
  | none => simp only [found, Option.map_none]
  | some client => simp only [AList.lookup_insert, Option.map_some]

@[simp] theorem core_alter (change : Client S A → Client S A) :
    (server.alter id change).core = server.core := by
  unfold alter
  cases server.clients.lookup id <;> rfl

theorem seat_removeClient_other (apart : other ≠ id) :
    (server.removeClient id).seat other = server.seat other := by
  unfold seat removeClient
  simp only [AList.lookup_erase_ne apart]

@[simp] theorem seat_removeClient : (server.removeClient id).seat id = (none, none) := by
  unfold seat removeClient
  simp only [AList.lookup_erase]

theorem seat_pushDelta_other (apart : other ≠ id) :
    (server.pushDelta id bytes cap).1.seat other = server.seat other := by
  unfold pushDelta
  cases server.clients.lookup id with
  | none => rfl
  | some client =>
      unfold seat
      simp only [AList.lookup_insert_ne apart]

@[simp] theorem core_pushDelta : (server.pushDelta id bytes cap).1.core = server.core := by
  unfold pushDelta
  cases server.clients.lookup id <;> rfl

theorem pushDelta_missing (missing : (server.seat id).1 = none) :
    server.pushDelta id bytes cap = (server, none) := by
  have gone : server.clients.lookup id = none := missing
  unfold pushDelta
  rw [gone]

theorem pushDelta_fits {client : Client S A} (found : (server.seat id).1 = some client)
    (plain : client.conn.Plain) (owned : bytes.media = [])
    (fits : client.conn.outboxBytes + bytes.len ≤ cap) :
    (server.pushDelta id bytes cap).2 = some .queued ∧
      (server.pushDelta id bytes cap).1.seat id = (some (client.queue bytes), (server.seat id).2) := by
  have here : server.clients.lookup id = some client := found
  unfold pushDelta
  rw [here]
  simp only [plain.pushDelta owned, if_pos fits]
  unfold seat
  simp only [AList.lookup_insert]
  exact ⟨trivial, rfl⟩

theorem pushDelta_overflows {client : Client S A} (found : (server.seat id).1 = some client)
    (plain : client.conn.Plain) (owned : bytes.media = [])
    (full : ¬ client.conn.outboxBytes + bytes.len ≤ cap) :
    (server.pushDelta id bytes cap).2 = some .overflow ∧
      (server.pushDelta id bytes cap).1.seat id = server.seat id := by
  have here : server.clients.lookup id = some client := found
  unfold pushDelta
  rw [here]
  simp only [plain.pushDelta owned, if_neg full]
  unfold seat
  simp only [AList.lookup_insert, here]
  exact ⟨trivial, trivial⟩

end Server

end safety

end Events

end Rozi
