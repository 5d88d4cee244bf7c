import Rozi.Library.Visits
import Rozi.Session.SubscriptionsSeats

/-!
No subscriber misses an event. What an event, a request or a write does to one client is shown
first, and then what it does to all of them.
-/

namespace Rozi.Events

section steps

variable {S A : Type} {bodyLen : ServerMessage S A → Nat}
variable {named : String} {recorded : List SessionEvent}

theorem encodeControl_eq_some {message : ServerMessage S A}
    {bytes : EncodedOutput (ServerMessage S A)}
    (encoded : encodeControl bodyLen message = some bytes) :
    bytes.content = message ∧ bytes.media = [] ∧ bytes.len ≤ Framing.maxFrameSize + 4 := by
  unfold encodeControl at encoded
  split_ifs at encoded with large
  rw [← Option.some.inj encoded]
  refine ⟨rfl, rfl, ?_⟩
  simp only
  omega

namespace Stream

variable {stream : Stream S} {event : SessionEvent}

theorem records_append (before after : List SessionEvent) :
    (stream.records (before ++ after) : List (ServerMessage S A)) =
      stream.records before ++ stream.records after := by
  unfold records
  rw [List.filter_append, List.map_append]

theorem records_wanted (wanted : stream.wants event.kind = true) :
    (stream.records [event] : List (ServerMessage S A)) =
      [.sessionSubscribeRecord (.event event)] := by
  unfold records
  rw [List.filter_cons, if_pos wanted]
  rfl

theorem records_unwanted (unwanted : stream.wants event.kind = false) :
    (stream.records [event] : List (ServerMessage S A)) = [] := by
  unfold records
  rw [List.filter_cons, unwanted, if_neg Bool.false_ne_true]
  rfl

theorem owed_snoc (numbered : recorded.Numbered SessionEvent.seq)
    (next : event.seq = recorded.length + 1) (started : stream.since ≤ recorded.length) :
    (stream.owed (recorded ++ [event]) (recorded ++ [event]).length :
        List (ServerMessage S A)) =
      stream.owed recorded recorded.length ++ stream.records [event] := by
  unfold owed
  rw [List.length_append, List.length_singleton, List.window_snoc numbered next started,
    records_append]

theorem owed_snoc_past {upTo : Nat} (past : upTo < event.seq) :
    (stream.owed (recorded ++ [event]) upTo : List (ServerMessage S A)) =
      stream.owed recorded upTo := by
  unfold owed
  rw [List.window_snoc_past past]

theorem owed_all (numbered : recorded.Numbered SessionEvent.seq) :
    (stream.owed recorded recorded.length : List (ServerMessage S A)) =
      stream.records (recorded.drop stream.since) := by
  unfold owed
  rw [numbered.window_eq_drop]

end Stream

/-! An event. -/

section event

variable {event : SessionEvent} {client : Client S A} {registered : Option SessionSubscriber}

theorem Over.snoc {stream : Stream S} (next : event.seq = recorded.length + 1)
    (beyond : Over named recorded client stream registered) :
    Over named (recorded ++ [event]) client stream registered := by
  rcases beyond.said with ⟨upTo, last, started, within, ends, said⟩
  refine ⟨beyond.unregistered, beyond.closes, upTo, last, started, ?_, ends, ?_⟩
  · rw [List.length_append]
    exact within.trans (Nat.le_add_right _ _)
  · rw [Stream.owed_snoc_past (by omega)]
    exact said

theorem Client.Sound.unheard (sound : client.Sound named recorded registered)
    (numbered : recorded.Numbered SessionEvent.seq) (next : event.seq = recorded.length + 1)
    (unwanted : ∀ subscriber, registered = some subscriber →
      subscriber.wants event.kind = false) :
    client.Sound named (recorded ++ [event]) registered where
  silent := sound.silent
  streams := by
    intro stream streaming
    rcases sound.streams stream streaming with ⟨started, told⟩
    refine ⟨?_, ?_⟩
    · rw [List.length_append]
      exact started.trans (Nat.le_add_right _ _)
    · rcases told with live | beyond
      · rcases live.registered with ⟨subscriber, here, same⟩
        refine .inl ⟨live.registered, ?_⟩
        have skipped : stream.wants event.kind = false := by
          rw [← same]
          exact unwanted subscriber here
        rw [Stream.owed_snoc numbered next started, Stream.records_unwanted skipped,
          List.append_nil]
        exact live.said
      · exact .inr (beyond.snoc next)
  plain := sound.plain
  fresh := sound.fresh
  room := sound.room

theorem Client.Sound.heard {bytes : EncodedOutput (ServerMessage S A)}
    (sound : client.Sound named recorded registered)
    (numbered : recorded.Numbered SessionEvent.seq) (next : event.seq = recorded.length + 1)
    (subscribed : ∃ subscriber, registered = some subscriber ∧
      subscriber.wants event.kind = true)
    (content : bytes.content = .sessionSubscribeRecord (.event event)) (owned : bytes.media = [])
    (fits : client.conn.outboxBytes + bytes.len ≤ maxBacklog) :
    (client.queue bytes).Sound named (recorded ++ [event]) registered := by
  rcases subscribed with ⟨subscriber, here, wanted⟩
  refine ⟨⟨?_, ?_⟩, sound.plain.append owned, ?_, fun _ => fits⟩
  · intro silent
    have none_here := (sound.silent silent).1
    rw [here] at none_here
    cases none_here
  · intro stream streaming
    rcases sound.streams stream streaming with ⟨started, told⟩
    refine ⟨?_, .inl ?_⟩
    · rw [List.length_append]
      exact started.trans (Nat.le_add_right _ _)
    · rcases told with live | beyond
      · rcases live.registered with ⟨same_subscriber, registration, same⟩
        refine ⟨live.registered, ?_⟩
        rw [here, Option.some.injEq] at registration
        have owed : stream.wants event.kind = true := by
          rw [← same, ← registration]
          exact wanted
        rw [Client.queue_said, content, live.said, Stream.owed_snoc numbered next started,
          Stream.records_wanted owed, List.append_assoc]
      · have none_here := beyond.unregistered
        rw [here] at none_here
        cases none_here
  · intro unasked
    have silent := (sound.fresh unasked).1
    have none_here := (sound.silent silent).1
    rw [here] at none_here
    cases none_here

end event

/-! The last record. -/

theorem Client.Sound.ended {client : Client S A} {subscriber : SessionSubscriber}
    {bytes : EncodedOutput (ServerMessage S A)} {last : SessionSubscribeRecord S}
    (sound : client.Sound named recorded (some subscriber))
    (ends : last = .lagged ∨ last = .ended)
    (content : bytes.content = .sessionSubscribeRecord last) (owned : bytes.media = []) :
    ({ client.queue bytes with closeAfterFlush := true } : Client S A).Sound named recorded
      none := by
  refine ⟨⟨?_, ?_⟩, sound.plain.append owned, ?_, ?_⟩
  · intro silent
    cases (sound.silent silent).1
  · intro stream streaming
    rcases sound.streams stream streaming with ⟨started, told⟩
    refine ⟨started, .inr ⟨rfl, rfl, recorded.length, last, started, le_rfl, ends, ?_⟩⟩
    rcases told with live | beyond
    · have said : (client.queue bytes).said = _ := client.queue_said
      rw [content, live.said] at said
      exact said
    · cases beyond.unregistered
  · intro unasked
    cases (sound.silent (sound.fresh unasked).1).1
  · rintro (silent | registered)
    · cases (sound.silent silent).1
    · cases registered

/-! All the subscribers of an event. -/

namespace Server

variable {server : Server S A} {id other next : ClientId} {record : SessionSubscribeRecord S}
variable {event : SessionEvent} {bytes : EncodedOutput (ServerMessage S A)}

theorem seat_endSubscriber_other (apart : other ≠ id) :
    (server.endSubscriber bodyLen record id).seat other = server.seat other := by
  have erased : ({ server with
      sessionSubscribers := server.sessionSubscribers.erase id } : Server S A).seat other =
      server.seat other := by
    unfold seat
    simp only [AList.lookup_erase_ne apart]
  unfold endSubscriber setCloseAfterFlush
  simp only
  rw [seat_alter_other apart]
  cases encodeControl bodyLen (.sessionSubscribeRecord record : ServerMessage S A) with
  | none => exact erased
  | some bytes =>
      simp only
      rw [seat_pushDelta_other apart]
      exact erased

@[simp] theorem core_endSubscriber :
    (server.endSubscriber bodyLen record id).core = server.core := by
  unfold endSubscriber setCloseAfterFlush
  simp only [core_alter]
  cases encodeControl bodyLen (.sessionSubscribeRecord record : ServerMessage S A) with
  | none => rfl
  | some bytes => exact core_pushDelta

theorem seat_endSubscriber {client : Client S A} (found : (server.seat id).1 = some client)
    (plain : client.conn.Plain) (room : client.conn.outboxBytes ≤ maxBacklog)
    (encoded : encodeControl bodyLen (.sessionSubscribeRecord record) = some bytes) :
    (server.endSubscriber bodyLen record id).seat id =
      (some { client.queue bytes with closeAfterFlush := true }, none) := by
  have spec := encodeControl_eq_some encoded
  have fits : client.conn.outboxBytes + bytes.len ≤ maxU64 := by
    have small : maxBacklog + (Framing.maxFrameSize + 4) ≤ maxU64 := by decide
    omega
  unfold endSubscriber setCloseAfterFlush
  simp only [encoded]
  have erased : ({ server with
      sessionSubscribers := server.sessionSubscribers.erase id } : Server S A).seat id =
      (some client, none) := by
    unfold seat
    simp only [AList.lookup_erase]
    exact Prod.ext found rfl
  have pushed := pushDelta_fits (by rw [erased]) plain spec.2.1 fits
  rw [seat_alter, pushed.2, erased]
  rfl

theorem seat_deliver_other (apart : other ≠ id) :
    (deliver bodyLen bytes server id).seat other = server.seat other := by
  unfold deliver endLaggedSubscriber
  simp only
  split_ifs
  · rw [seat_endSubscriber_other apart, seat_pushDelta_other apart]
  · exact seat_pushDelta_other apart

@[simp] theorem core_deliver : (deliver bodyLen bytes server id).core = server.core := by
  unfold deliver endLaggedSubscriber
  simp only
  split_ifs
  · rw [core_endSubscriber, core_pushDelta]
  · exact core_pushDelta

def Due (next : ClientId) (named : String) (recorded : List SessionEvent) (event : SessionEvent)
    (id : ClientId) (seat : Seat S A) : Prop :=
  Seated next named recorded id seat ∧
    ∃ subscriber, seat.2 = some subscriber ∧ subscriber.wants event.kind = true

theorem seated_deliver (numbered : recorded.Numbered SessionEvent.seq)
    (following : event.seq = recorded.length + 1)
    (encoded : encodeControl bodyLen (.sessionSubscribeRecord (.event event)) = some bytes)
    (lagged : (encodeControl bodyLen (.sessionSubscribeRecord .lagged)).isSome = true)
    (due : Due next named recorded event id (server.seat id)) :
    Seated next named (recorded ++ [event]) id ((deliver bodyLen bytes server id).seat id) := by
  rcases due with ⟨seated, subscriber, here, wanted⟩
  have spec := encodeControl_eq_some encoded
  cases found : (server.seat id).1 with
  | none =>
      have shape : server.seat id = (none, some subscriber) := Prod.ext found here
      rw [shape] at seated
      cases seated
  | some client =>
      have shape : server.seat id = (some client, some subscriber) := Prod.ext found here
      rw [shape] at seated
      rcases seated with ⟨given, sound⟩
      have room := sound.room (.inr rfl)
      by_cases fits : client.conn.outboxBytes + bytes.len ≤ maxBacklog
      · have pushed := pushDelta_fits found sound.plain spec.2.1 fits
        unfold deliver
        simp only [pushed.1, Option.some.injEq, reduceCtorEq, if_false]
        rw [pushed.2, here]
        exact ⟨given, sound.heard numbered following ⟨subscriber, rfl, wanted⟩ spec.1 spec.2.1
          fits⟩
      · have pushed := pushDelta_overflows found sound.plain spec.2.1 fits
        rcases Option.isSome_iff_exists.mp lagged with ⟨last, lagged⟩
        have told := encodeControl_eq_some lagged
        unfold deliver endLaggedSubscriber
        simp only [pushed.1, if_true]
        rw [seat_endSubscriber (by rw [pushed.2, found]) sound.plain room lagged]
        have beyond := sound.ended (.inl rfl) told.1 told.2.1
        exact ⟨given, beyond.unheard numbered following (by intro subscriber none_here; cases none_here)⟩

theorem mem_targets :
    id ∈ server.targets event ↔ ∃ subscriber, (server.seat id).2 = some subscriber ∧
      subscriber.wants event.kind = true := by
  unfold targets seat
  rw [List.mem_map]
  constructor
  · rintro ⟨⟨key, subscriber⟩, member, rfl⟩
    rcases List.mem_filter.mp member with ⟨entry, wanted⟩
    exact ⟨subscriber, AList.mem_lookup_iff.mpr entry, wanted⟩
  · rintro ⟨subscriber, found, wanted⟩
    exact ⟨⟨id, subscriber⟩, List.mem_filter.mpr ⟨AList.mem_lookup_iff.mp found, wanted⟩, rfl⟩

theorem targets_nodup : (server.targets event).Nodup :=
  (List.filter_sublist.map _).nodup server.sessionSubscribers.nodupKeys

/-- Every client is up to date after an event, or was told that it is not. -/
theorem seated_dispatch (numbered : recorded.Numbered SessionEvent.seq)
    (following : event.seq = recorded.length + 1)
    (fits : (encodeControl bodyLen
      (.sessionSubscribeRecord (.event event) : ServerMessage S A)).isSome = true)
    (lagged : (encodeControl bodyLen
      (.sessionSubscribeRecord .lagged : ServerMessage S A)).isSome = true)
    (seats : ∀ id, Seated next named recorded id (server.seat id)) (id : ClientId) :
    Seated next named (recorded ++ [event]) id
      ((server.dispatchSessionSubscribers bodyLen event).seat id) := by
  rcases Option.isSome_iff_exists.mp fits with ⟨bytes, encoded⟩
  have loop : server.dispatchSessionSubscribers bodyLen event =
      (server.targets event).foldl (deliver bodyLen bytes) server := by
    unfold dispatchSessionSubscribers
    simp only [encoded]
    split_ifs with none_due
    · rw [List.isEmpty_iff.mp none_due]
      rfl
    · rfl
  rw [loop]
  by_cases target : id ∈ server.targets event
  · exact foldl_visits seat (Due next named recorded event)
      (fun _ _ _ apart => seat_deliver_other apart)
      (fun _ _ due => seated_deliver numbered following encoded lagged due) targets_nodup server
      (fun other member => ⟨seats other, mem_targets.mp member⟩) id target
  · rw [foldl_visits_other seat (fun _ _ _ apart => seat_deliver_other apart) target]
    have seated := seats id
    have unwanted : ∀ subscriber, (server.seat id).2 = some subscriber →
        subscriber.wants event.kind = false := by
      intro subscriber here
      by_contra wanted
      rw [Bool.not_eq_false] at wanted
      exact target (mem_targets.mpr ⟨subscriber, here, wanted⟩)
    cases found : (server.seat id).1 with
    | none =>
        have shape : server.seat id = (none, (server.seat id).2) := Prod.ext found rfl
        rw [shape] at seated ⊢
        exact seated
    | some client =>
        have shape : server.seat id = (some client, (server.seat id).2) := Prod.ext found rfl
        rw [shape] at seated ⊢
        exact ⟨seated.1, seated.2.unheard numbered following unwanted⟩

@[simp] theorem core_dispatch :
    (server.dispatchSessionSubscribers bodyLen event).core = server.core := by
  unfold dispatchSessionSubscribers
  simp only
  split_ifs
  · rfl
  · cases encodeControl bodyLen (.sessionSubscribeRecord (.event event) : ServerMessage S A) with
    | none => rfl
    | some bytes => exact foldl_unchanged core (fun _ _ => core_deliver) _ server

/-! A request, on a connection that made none before. -/

theorem seat_enqueue_other (apart : other ≠ id) (message : ServerMessage S A) :
    (server.enqueue bodyLen id message).seat other = server.seat other := by
  unfold enqueue
  cases encodeControl bodyLen message with
  | none => rfl
  | some bytes =>
      simp only
      split_ifs
      · rw [seat_removeClient_other apart, seat_pushDelta_other apart]
      · exact seat_pushDelta_other apart

@[simp] theorem core_enqueue (message : ServerMessage S A) :
    (server.enqueue bodyLen id message).core = server.core := by
  unfold enqueue
  cases encodeControl bodyLen message with
  | none => rfl
  | some bytes =>
      simp only
      split_ifs
      · exact (core_pushDelta : (server.pushDelta id bytes maxBacklog).1.core = server.core)
      · exact core_pushDelta

/-- A connection while its request is answered: it has been queued `said`, or it is gone. -/
def Answering (next : ClientId) (id : ClientId) (said : List (ServerMessage S A)) (seat : Seat S A) :
    Prop :=
  seat = (none, none) ∨ ∃ client, seat = (some client, none) ∧ id < next ∧ client.conn.Plain ∧
    client.conn.outboxBytes ≤ maxBacklog ∧ client.stream = none ∧ client.said = said

variable {said : List (ServerMessage S A)} {message : ServerMessage S A}

theorem answering_enqueue (answering : Answering next id said (server.seat id))
    (encodes : (encodeControl bodyLen message).isSome = true) :
    Answering next id (said ++ [message]) ((server.enqueue bodyLen id message).seat id) := by
  rcases Option.isSome_iff_exists.mp encodes with ⟨bytes, encoded⟩
  have spec := encodeControl_eq_some encoded
  unfold enqueue
  simp only [encoded]
  rcases answering with gone | ⟨client, here, given, plain, room, silent, queued⟩
  · rw [pushDelta_missing (by rw [gone])]
    simp only [reduceCtorEq, if_false]
    exact .inl gone
  · by_cases fits : client.conn.outboxBytes + bytes.len ≤ maxBacklog
    · have pushed := pushDelta_fits (by rw [here]) plain spec.2.1 fits
      simp only [pushed.1, Option.some.injEq, reduceCtorEq, if_false]
      rw [pushed.2, here]
      refine .inr ⟨client.queue bytes, rfl, given, plain.append spec.2.1, fits, silent, ?_⟩
      rw [Client.queue_said, queued, spec.1]
    · have pushed := pushDelta_overflows (by rw [here]) plain spec.2.1 fits
      simp only [pushed.1, if_true]
      exact .inl seat_removeClient

theorem answering_enqueue_any (answering : Answering next id said (server.seat id)) :
    ∃ queued, (∀ entry ∈ queued, entry = message) ∧
      Answering next id (said ++ queued) ((server.enqueue bodyLen id message).seat id) := by
  cases encoded : encodeControl bodyLen message with
  | none =>
      refine ⟨[], by simp, ?_⟩
      unfold enqueue
      simp only [encoded, List.append_nil]
      exact answering
  | some bytes =>
      exact ⟨[message], by simp, answering_enqueue answering (by rw [encoded]; rfl)⟩

theorem answering_replay {subscriber : SessionSubscriber} {stream : Stream S}
    (same : ∀ kind, subscriber.wants kind = stream.wants kind) {replay : List SessionEvent}
    (fit : ∀ event ∈ replay, (encodeControl bodyLen
      (.sessionSubscribeRecord (.event event) : ServerMessage S A)).isSome = true)
    (answering : Answering next id said (server.seat id)) :
    Answering next id (said ++ stream.records replay)
      ((replay.foldl (replayEvent bodyLen id subscriber) server).seat id) := by
  induction replay generalizing server said with
  | nil =>
      have none_owed : (stream.records [] : List (ServerMessage S A)) = [] := rfl
      rw [none_owed, List.append_nil]
      exact answering
  | cons event replay ih =>
      have later : ∀ event ∈ replay, _ := fun other member =>
        fit other (List.mem_cons_of_mem _ member)
      rw [List.foldl_cons, ← List.singleton_append, Stream.records_append, ← List.append_assoc]
      refine ih later ?_
      unfold replayEvent
      rw [same]
      split_ifs with wanted
      · rw [Stream.records_wanted wanted]
        exact answering_enqueue answering (fit event List.mem_cons_self)
      · rw [Stream.records_unwanted (Bool.not_eq_true _ ▸ wanted), List.append_nil]
        exact answering

theorem seat_replay_other (apart : other ≠ id) {subscriber : SessionSubscriber}
    (replay : List SessionEvent) :
    (replay.foldl (replayEvent bodyLen id subscriber) server).seat other = server.seat other := by
  refine foldl_unchanged (fun server : Server S A => server.seat other) (fun server event => ?_) _ _
  unfold replayEvent
  split_ifs
  · exact seat_enqueue_other apart _
  · rfl

@[simp] theorem core_replay {subscriber : SessionSubscriber} (replay : List SessionEvent) :
    (replay.foldl (replayEvent bodyLen id subscriber) server).core = server.core := by
  refine foldl_unchanged core (fun server event => ?_) _ _
  unfold replayEvent
  split_ifs
  · exact core_enqueue _
  · rfl

theorem seat_answered_other (apart : other ≠ id) :
    (server.answered id).seat other = server.seat other := by
  unfold answered setCloseAfterFlush
  simp only
  rw [seat_alter_other apart]
  split_ifs
  · rfl
  · exact seat_alter_other apart _

theorem seat_answered :
    (server.answered id).seat id = ((server.seat id).1.map fun client =>
      { client with
        closeAfterFlush := client.closeAfterFlush || (server.seat id).2.isNone
        asked := true }, (server.seat id).2) := by
  unfold answered setCloseAfterFlush isSessionSubscriber
  simp only [seat_alter]
  have registration : server.sessionSubscribers.lookup id = (server.seat id).2 := rfl
  rw [registration]
  cases registered : (server.seat id).2 with
  | none =>
      simp only [Option.isSome_none, Bool.false_eq_true, if_false, seat_alter, Option.map_map,
        Option.isNone_none, Bool.or_true, registered]
      rfl
  | some subscriber =>
      simp only [Option.isSome_some, if_true, Option.isNone_some, Bool.or_false, registered]

@[simp] theorem core_answered : (server.answered id).core = server.core := by
  unfold answered setCloseAfterFlush
  simp only [core_alter]
  split_ifs
  · rfl
  · exact core_alter _

end Server

end steps

end Rozi.Events
