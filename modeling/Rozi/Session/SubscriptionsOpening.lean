import Rozi.Library.Checks
import Rozi.Session.SubscriptionsSafety

/-!
How a stream opens: what its request asked for, and what is queued before the first event.
-/

namespace Rozi.Events

open Checks

section parsing

theorem parsed_names {names : List String} {filter : List EventKind}
    (parsed : names.mapM parseEventName = .ok filter) (kind : EventKind) :
    filter.contains kind = names.any fun name => EventKind.parse name == some kind := by
  induction names generalizing filter with
  | nil =>
      cases parsed
      rfl
  | cons name names ih =>
      rw [List.mapM_cons] at parsed
      cases first : parseEventName name with
      | error refused =>
          rw [first] at parsed
          cases parsed
      | ok found =>
          rw [first] at parsed
          cases rest : names.mapM parseEventName with
          | error refused =>
              rw [rest] at parsed
              cases parsed
          | ok kinds =>
              rw [rest] at parsed
              cases parsed
              have named : EventKind.parse name = some found := by
                unfold parseEventName at first
                cases known : EventKind.parse name with
                | none =>
                    rw [known] at first
                    cases first
                | some other =>
                    rw [known] at first
                    simp only at first
                    split_ifs at first
                    rw [Except.ok.inj first]
              rw [List.contains_cons, List.any_cons, ih rest, named]
              refine congrArg (· || _) ?_
              rw [Bool.eq_iff_iff, beq_iff_eq, beq_iff_eq, Option.some.injEq]
              exact eq_comm

theorem parseEventFilter_wants {S : Type} {stream : Stream S} {subscriber : SessionSubscriber}
    (parsed : parseEventFilter stream.options.events = .ok subscriber) (kind : EventKind) :
    subscriber.wants kind = stream.wants kind := by
  unfold parseEventFilter at parsed
  unfold Stream.wants
  split_ifs at parsed with unnamed
  · rw [← Except.ok.inj parsed, unnamed]
    rfl
  · cases names : stream.options.events.mapM parseEventName with
    | error refused =>
        rw [names] at parsed
        cases parsed
    | ok filter =>
        rw [names] at parsed
        rw [Bool.not_eq_true] at unnamed
        rw [← Except.ok.inj parsed, unnamed, Bool.false_or]
        exact parsed_names names kind

end parsing
section streams

variable {S A : Type} {bodyLen : ServerMessage S A → Nat}

namespace Server

variable {server next : Server S A} {id other : ClientId}

/-- A connection whose request was answered with anything but a stream. -/
theorem seated_answered {named : String} {recorded : List SessionEvent} {given : ClientId}
    {said : List (ServerMessage S A)}
    (answering : Answering given id said (server.seat id))
    (unrecorded : ∀ record, .sessionSubscribeRecord record ∉ said) :
    Seated given named recorded id ((server.answered id).seat id) := by
  rw [seat_answered]
  rcases answering with gone | ⟨client, here, within, plain, room, silent, queued⟩
  · rw [gone]
    rfl
  · rw [here]
    refine ⟨within, ⟨⟨?_, ?_⟩, plain, ?_, fun _ => room⟩⟩
    · intro _
      refine ⟨rfl, ?_⟩
      have same : ∀ closes, Client.said { client with closeAfterFlush := closes, asked := true } =
          said := fun _ => queued
      rw [same]
      exact unrecorded
    · intro stream streaming
      have contrary : client.stream = some stream := streaming
      rw [silent] at contrary
      cases contrary
    · intro unasked
      cases unasked

variable {subscriber : SessionSubscriber} {replay : List SessionEvent}
variable {snapshot : Option (ServerMessage S A)} {options : SubscribeOptions} {state : S}

@[simp] theorem core_queueOpening :
    (server.queueOpening bodyLen id subscriber replay snapshot).core = server.core := by
  unfold queueOpening
  simp only [core_replay]
  cases snapshot with
  | none => exact core_enqueue _
  | some snapshot => exact (core_enqueue _).trans (core_enqueue _)

theorem seat_queueOpening_other (apart : other ≠ id) :
    (server.queueOpening bodyLen id subscriber replay snapshot).seat other =
      server.seat other := by
  unfold queueOpening
  simp only
  rw [seat_replay_other apart]
  cases snapshot with
  | none => exact seat_enqueue_other apart _
  | some snapshot => exact (seat_enqueue_other apart _).trans (seat_enqueue_other apart _)

theorem answering_queueOpening {given : ClientId} {stream : Stream S}
    (same : ∀ kind, subscriber.wants kind = stream.wants kind)
    (accepted : (encodeControl bodyLen (.sessionControlResult none)).isSome = true)
    (shown : ∀ message ∈ snapshot, (encodeControl bodyLen message).isSome = true)
    (fit : ∀ event ∈ replay, (encodeControl bodyLen
      (.sessionSubscribeRecord (.event event) : ServerMessage S A)).isSome = true)
    (answering : Answering given id [] (server.seat id)) :
    Answering given id (.sessionControlResult none :: snapshot.toList ++ stream.records replay)
      ((server.queueOpening bodyLen id subscriber replay snapshot).seat id) := by
  have told := answering_enqueue answering accepted
  unfold queueOpening
  cases snapshot with
  | none => exact answering_replay same fit told
  | some snapshot =>
      exact answering_replay same fit (answering_enqueue told (shown snapshot rfl))

@[simp] theorem core_startStream :
    (server.startStream bodyLen id options state subscriber replay snapshot).core =
      server.core := by
  unfold startStream
  simp only
  split_ifs
  · rw [core_alter]
    exact core_queueOpening
  · exact core_queueOpening

theorem seat_register_other (apart : other ≠ id) :
    ({ server with
      sessionSubscribers := server.sessionSubscribers.insert id subscriber } : Server S A).seat
        other = server.seat other := by
  unfold seat
  simp only [AList.lookup_insert_ne apart]

theorem seat_startStream_other (apart : other ≠ id) :
    (server.startStream bodyLen id options state subscriber replay snapshot).seat other =
      server.seat other := by
  unfold startStream
  simp only
  split_ifs
  · rw [seat_alter_other apart, seat_register_other apart]
    exact seat_queueOpening_other apart
  · exact seat_queueOpening_other apart

theorem seat_startStream {client : Client S A}
    (here : (server.queueOpening bodyLen id subscriber replay snapshot).seat id =
      (some client, none)) :
    (server.startStream bodyLen id options state subscriber replay snapshot).seat id =
      (some { client with stream := some ⟨options, server.sessionEvents.latestSeq, state⟩ },
        some subscriber) := by
  have found : (server.queueOpening bodyLen id subscriber replay snapshot).clients.lookup id =
      some client := congrArg Prod.fst here
  unfold startStream
  simp only [found, Option.isSome_some, if_true, seat_alter]
  unfold seat
  simp only [found, AList.lookup_insert, Option.map_some]

theorem startStream_gone
    (gone : (server.queueOpening bodyLen id subscriber replay snapshot).seat id = (none, none)) :
    (server.startStream bodyLen id options state subscriber replay snapshot).seat id =
      (none, none) := by
  have missing : (server.queueOpening bodyLen id subscriber replay snapshot).clients.lookup id =
      none := congrArg Prod.fst gone
  unfold startStream
  simp only [missing, Option.isSome_none, Bool.false_eq_true, if_false]
  exact gone

theorem seated_startStream {named : String} {recorded : List SessionEvent} {given : ClientId}
    {stream : Stream S}
    (opened : stream = { options, openedAt := server.sessionEvents.latestSeq, state })
    (same : ∀ kind, subscriber.wants kind = stream.wants kind)
    (numbered : recorded.Numbered SessionEvent.seq) (started : stream.since ≤ recorded.length)
    (replayed : replay = recorded.drop stream.since)
    (showing : .sessionControlResult none :: snapshot.toList = stream.opening named)
    (accepted : (encodeControl bodyLen
      (.sessionControlResult none : ServerMessage S A)).isSome = true)
    (shown : ∀ message ∈ snapshot, (encodeControl bodyLen message).isSome = true)
    (fit : ∀ event ∈ recorded, (encodeControl bodyLen
      (.sessionSubscribeRecord (.event event) : ServerMessage S A)).isSome = true)
    (answering : Answering given id [] (server.seat id)) :
    Seated given named recorded id (((server.startStream bodyLen id options state subscriber
      replay snapshot).answered id).seat id) := by
  have within : ∀ event ∈ replay, (encodeControl bodyLen
      (.sessionSubscribeRecord (.event event) : ServerMessage S A)).isSome = true := by
    intro event member
    rw [replayed] at member
    exact fit event (List.mem_of_mem_drop member)
  have queued := answering_queueOpening same accepted shown within answering
  rw [seat_answered]
  rcases queued with gone | ⟨client, here, taken, plain, room, silent, said⟩
  · rw [startStream_gone gone]
    rfl
  · rw [seat_startStream here]
    refine ⟨taken, ⟨⟨?_, ?_⟩, plain, ?_, fun _ => room⟩⟩
    · intro contrary
      cases contrary
    · intro one streaming
      have which : one = stream := by
        rw [opened]
        exact (Option.some.inj streaming).symm
      rw [which]
      refine ⟨started, .inl ⟨⟨subscriber, rfl, same⟩, ?_⟩⟩
      rw [Stream.owed_all numbered, ← replayed, ← showing]
      exact said
    · intro unasked
      cases unasked

structure Accepted (bodyLen : ServerMessage S A → Nat) (server next : Server S A) (id : ClientId)
    (stream : Stream S) (subscriber : SessionSubscriber) (replay : List SessionEvent)
    (snapshot : Option (ServerMessage S A)) : Prop where
  started : next =
    server.startStream bodyLen id stream.options stream.state subscriber replay snapshot
  parsed : parseEventFilter stream.options.events = .ok subscriber
  within : stream.since ≤ server.recorded.length
  replayed : replay = server.recorded.drop stream.since
  opening : .sessionControlResult none :: snapshot.toList =
    stream.opening server.sessionEvents.sessionInstance
  shown : ∀ message ∈ snapshot, (encodeControl bodyLen message).isSome = true

theorem replayed_after {cursor : String} (retains : server.sessionEvents.Retains server.recorded)
    (room : server.sessionEvents.latestSeq < 2 ^ 64)
    (replayed : server.replayAfter cursor = .ok replay) :
    ∃ named seq, parseCursor cursor = .ok (named, seq) ∧ seq ≤ server.recorded.length ∧
      replay = server.recorded.drop seq := by
  unfold replayAfter at replayed
  rw [bind_eq_ok] at replayed
  rcases replayed with ⟨⟨named, seq⟩, parsed, answered⟩
  simp only at answered
  cases after : server.sessionEvents.after named seq with
  | error expired =>
      rw [after] at answered
      cases answered
  | ok events =>
      rw [after] at answered
      have spec := (retains.after_eq_ok room named seq events).mp after
      rw [retains.latest] at spec
      exact ⟨named, seq, parsed, spec.2.1, Except.ok.inj answered ▸ spec.2.2.2⟩

theorem openingReplay_ok (stream : Stream S)
    (retains : server.sessionEvents.Retains server.recorded)
    (room : server.sessionEvents.latestSeq < 2 ^ 64)
    (opened : stream.openedAt = server.sessionEvents.latestSeq)
    (replayed : server.openingReplay stream.options = .ok replay) :
    stream.since ≤ server.recorded.length ∧ replay = server.recorded.drop stream.since := by
  unfold openingReplay at replayed
  cases cursor : stream.options.after with
  | none =>
      rw [cursor] at replayed
      have since : stream.since = server.recorded.length := by
        unfold Stream.since
        rw [cursor, ← retains.latest, ← opened]
        rfl
      rw [since, List.drop_length]
      exact ⟨le_rfl, (Except.ok.inj replayed).symm⟩
  | some cursor' =>
      rw [cursor] at replayed
      rcases replayed_after retains room replayed with ⟨named, seq, parsed, within, replay⟩
      have since : stream.since = seq := by
        unfold Stream.since
        rw [cursor, Option.map_some, parsed]
      rw [since]
      exact ⟨within, replay⟩

theorem shown_snapshot {shown : ServerMessage S A}
    (fits : server.subscribeSnapshot bodyLen state = .ok shown) :
    shown = .sessionSubscribeRecord (.snapshot server.sessionEvents.sessionInstance
      server.sessionEvents.latestSeq state) ∧ (encodeControl bodyLen shown).isSome = true := by
  unfold subscribeSnapshot at fits
  simp only at fits
  split_ifs at fits with large
  rw [← Except.ok.inj fits]
  refine ⟨rfl, ?_⟩
  unfold encodeControl
  rw [if_neg (by omega)]
  rfl

theorem openingSnapshot_ok (stream : Stream S)
    (opened : stream.openedAt = server.sessionEvents.latestSeq)
    (fits : server.openingSnapshot bodyLen stream.options stream.state = .ok snapshot) :
    .sessionControlResult none :: snapshot.toList =
        stream.opening server.sessionEvents.sessionInstance ∧
      ∀ message ∈ snapshot, (encodeControl bodyLen message).isSome = true := by
  unfold openingSnapshot at fits
  unfold Stream.opening
  split_ifs at fits ⊢
  · cases shown : server.subscribeSnapshot bodyLen stream.state with
    | error refused =>
        rw [shown] at fits
        cases fits
    | ok message =>
        rw [shown] at fits
        have spec := shown_snapshot shown
        rw [← Except.ok.inj fits, opened, ← spec.1]
        refine ⟨rfl, ?_⟩
        intro other same
        rw [← Option.some.inj same]
        exact spec.2
  · rw [← Except.ok.inj fits]
    refine ⟨rfl, ?_⟩
    intro message member
    cases member

theorem accepted_of_ok (retains : server.sessionEvents.Retains server.recorded)
    (room : server.sessionEvents.latestSeq < 2 ^ 64)
    (opened : server.openSubscription bodyLen id options .streamingHeadless state = .ok next) :
    ∃ subscriber replay snapshot, Accepted bodyLen server next id
      ⟨options, server.sessionEvents.latestSeq, state⟩ subscriber replay snapshot := by
  unfold openSubscription at opened
  simp only at opened
  split_ifs at opened with both
  simp only [bind_eq_ok, pure_eq_ok] at opened
  rcases opened with ⟨subscriber, parsed, replay, replayed, snapshot, shown, started⟩
  have since := openingReplay_ok ⟨options, server.sessionEvents.latestSeq, state⟩ retains room rfl
    replayed
  have opening := openingSnapshot_ok ⟨options, server.sessionEvents.latestSeq, state⟩ rfl shown
  exact ⟨subscriber, replay, snapshot, started.symm, parsed, since.1, since.2, opening.1,
    opening.2⟩
end Server

end streams

end Rozi.Events
