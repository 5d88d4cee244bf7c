import Rozi.Session.Ingress

/-!
What one scan of the ingress can answer, and what the pop behind it takes: the first event of its
pane stream, or the first fenced control of its client.
-/

namespace Rozi

open Lanes

namespace ServerEvent

def lanes : Lanes ServerEvent MediaKey UInt8 where
  lane
    | pty key _ => some key
    | mediaBarrier _ _ | browse _ _ => none
  text
    | pty _ (.output bytes) => bytes
    | pty _ (.exited _) | pty _ (.error _) | mediaBarrier _ _ | browse _ _ => []

def fenced : Lanes ServerEvent ClientId Ingress.ClientMessage where
  lane
    | mediaBarrier client _ => some client
    | pty _ _ | browse _ _ => none
  text
    | mediaBarrier _ message => [message]
    | pty _ _ | browse _ _ => []

variable {event head : ServerEvent} {selected : Option Nat} {tail : Option (ServerEvent × Nat)}

@[simp] theorem splitMedia_mediaBarrier (client : ClientId) (message : Ingress.ClientMessage) :
    (mediaBarrier client message).splitMedia selected = (mediaBarrier client message, none) := by
  cases selected <;> rfl

@[simp] theorem splitMedia_browse (client : ClientId) (listing : String) :
    (browse client listing).splitMedia selected = (browse client listing, none) := by
  cases selected <;> rfl

theorem splitMedia_spec (cut : event.splitMedia selected = (head, tail)) :
    lanes.lane head = lanes.lane event ∧
      (∀ other ∈ (tail.map Prod.fst).toList, lanes.lane other = lanes.lane event) ∧
      (∀ client, fenced.said client head = fenced.said client event) ∧
      (∀ client, fenced.transcript client (tail.map Prod.fst).toList = []) ∧
      ∀ key, lanes.said key event =
        lanes.said key head ++ lanes.transcript key (tail.map Prod.fst).toList := by
  unfold splitMedia at cut
  split at cut
  · rename_i length key bytes
    by_cases short : bytes.length ≤ length
    · rw [if_pos short] at cut
      cases cut
      simp
    · rw [if_neg short] at cut
      cases cut
      refine ⟨rfl, by simp [lanes], fun client => rfl, fun client => rfl, fun other => ?_⟩
      have split : lanes.said other (pty key (.output bytes)) =
          lanes.said other (pty key (.output (bytes.take length))) ++
            lanes.said other (pty key (.output (bytes.drop length))) := by
        refine said_cut ?_ ?_ ?_ other
        · rfl
        · rfl
        · exact (List.take_append_drop length bytes).symm
      simpa using split
  · cases cut
    simp

end ServerEvent

def MediaWorker.sources (worker : MediaWorker) : List Bytes :=
  (worker.completed.map fun prepared => prepared.source) ++
    worker.jobs.map fun work => work.source

namespace MediaPipeline

def sources (pipeline : MediaPipeline) : List Bytes :=
  (pipeline.ready.toList.map fun prepared => prepared.source) ++
    pipeline.worker.toList.flatMap MediaWorker.sources

inductive Started (pipeline : MediaPipeline) (key : MediaKey) (work : TerminalMediaWork) :
    Bool × MediaPipeline → Prop
  | waits (other : MediaKey) (busy : pipeline.active = some other) :
      Started pipeline key work (false, pipeline)
  | inline (worker : Option MediaWorker) (same : worker = pipeline.worker ∨
      (pipeline.worker = none ∧ worker = some {})) :
      Started pipeline key work (true, { pipeline with worker })
  | sent (idle : pipeline.active = none) :
      Started pipeline key work
        (false,
          { pipeline with
            worker := some { pipeline.worker.getD {} with
              jobs := (pipeline.worker.getD {}).jobs ++ [work] }
            active := some key })

theorem start_started (pipeline : MediaPipeline) (spawns accepts : Bool) (key : MediaKey)
    (work : TerminalMediaWork) : Started pipeline key work (pipeline.start spawns accepts key work) := by
  unfold start
  by_cases busy : pipeline.active.isSome = true
  · rw [if_pos busy]
    rcases Option.isSome_iff_exists.mp busy with ⟨other, active⟩
    exact .waits other active
  · rw [if_neg busy]
    have idle : pipeline.active = none := by simpa using busy
    cases worker : pipeline.worker with
    | none =>
        cases spawns with
        | false => exact .inline pipeline.worker (.inl rfl)
        | true =>
            cases accepts with
            | true =>
                have sent : Started pipeline key work _ := .sent idle
                rw [worker] at sent
                exact sent
            | false => exact .inline (some {}) (.inr ⟨worker, rfl⟩)
    | some running =>
        cases accepts with
        | true =>
            have sent : Started pipeline key work _ := .sent idle
            rw [worker] at sent
            exact sent
        | false => exact .inline (some running) (.inl worker.symm)

theorem readyLength_active {pipeline : MediaPipeline} {key : MediaKey} {length : Nat}
    (prepared : pipeline.readyLength key = some length) :
    pipeline.active = some key ∧
      ∃ ready, pipeline.ready = some ready ∧ ready.consumedBytes = length := by
  unfold readyLength at prepared
  split_ifs at prepared with same
  exact ⟨same, Option.map_eq_some_iff.mp prepared⟩

end MediaPipeline

namespace Ingress

variable {server : Ingress} {commitMedia : Bool} {preparing : Preparing} {scan : PhaseScan}

inductive Answer (server : Ingress) (commitMedia : Bool) (scan : PhaseScan) :
    ServerEvent → Bool × PhaseScan → Prop
  | barrierBehind {client : ClientId} {message : ClientMessage}
      (behind : client ∈ scan.blockedClients) :
      Answer server commitMedia scan (.mediaBarrier client message) (false, scan)
  | barrierHeld {client : ClientId} {message : ClientMessage} {key : MediaKey} :
      Answer server commitMedia scan (.mediaBarrier client message)
        (false,
          { scan with
            blockedClients := client :: scan.blockedClients
            blocked := key :: scan.blocked })
  | barrierReady {client : ClientId} {message : ClientMessage}
      (free : client ∉ scan.blockedClients)
      (clear : { server with media := scan.media }.mediaBarrierKey client message = none) :
      Answer server commitMedia scan (.mediaBarrier client message) (true, scan)
  | ptyBehind {key : MediaKey} {event : TerminalPtyEvent} (behind : key ∈ scan.blocked) :
      Answer server commitMedia scan (.pty key event) (false, scan)
  | ptyCommits {key : MediaKey} {event : TerminalPtyEvent} {length : Nat}
      (free : key ∉ scan.blocked) (prepared : scan.media.readyLength key = some length) :
      Answer server commitMedia scan (.pty key event)
        (true, { scan with selectedPrefix := some length })
  | ptyHeld {key : MediaKey} {event : TerminalPtyEvent} :
      Answer server commitMedia scan (.pty key event)
        (false, { scan with blocked := key :: scan.blocked })
  | ptyReady {key : MediaKey} {event : TerminalPtyEvent} (free : key ∉ scan.blocked)
      (other : scan.media.active ≠ some key) (worker : Option MediaWorker)
      (same : worker = scan.media.worker ∨ (scan.media.worker = none ∧ worker = some {})) :
      Answer server commitMedia scan (.pty key event)
        (true, { scan with media := { scan.media with worker } })
  | ptyStarts {key : MediaKey} {bytes : Bytes} (free : key ∉ scan.blocked)
      (idle : scan.media.active = none) (relayPolicy : GraphicsRelayPolicy) :
      Answer server commitMedia scan (.pty key (.output bytes))
        (false,
          { scan with
            media := { scan.media with
              worker := some { scan.media.worker.getD {} with
                jobs := (scan.media.worker.getD {}).jobs ++ [{ source := bytes, relayPolicy }] }
              active := some key }
            blocked := key :: scan.blocked })
  | browse {client : ClientId} {listing : String} :
      Answer server commitMedia scan (.browse client listing) (true, scan)

theorem prepareEventMedia_spec (preparing : Preparing) (key : MediaKey) (event : TerminalPtyEvent)
    (media : MediaPipeline) :
    server.prepareEventMedia preparing key event media = (true, media) ∨
      ∃ bytes relayPolicy, event = .output bytes ∧
        server.prepareEventMedia preparing key event media =
          media.start preparing.spawns preparing.accepts key { source := bytes, relayPolicy } := by
  cases event with
  | exited code => exact .inl rfl
  | error message => exact .inl rfl
  | output bytes =>
      simp only [prepareEventMedia]
      cases server.panes key.owner key.pane with
      | none => exact .inl rfl
      | some generation =>
          simp only
          split_ifs with stale
          · exact .inl rfl
          · cases preparing.prepareMediaInput key bytes with
            | none => exact .inl rfl
            | some relayPolicy => exact .inr ⟨bytes, relayPolicy, rfl, rfl⟩

theorem mediaEventReady_answer (key : MediaKey) (event : TerminalPtyEvent) :
    Answer server commitMedia scan (.pty key event)
      (server.mediaEventReady commitMedia preparing scan key event) := by
  unfold mediaEventReady
  by_cases behind : key ∈ scan.blocked
  · rw [if_pos behind]
    exact .ptyBehind behind
  · rw [if_neg behind]
    cases prepared : scan.media.readyLength key with
    | some length =>
        cases commitMedia with
        | true => exact .ptyCommits behind prepared
        | false => exact .ptyHeld
    | none =>
        by_cases active : scan.media.active = some key
        · simp only [if_pos active]
          exact .ptyHeld
        · simp only [if_neg active]
          rcases server.prepareEventMedia_spec preparing key event scan.media with
            plain | ⟨bytes, relayPolicy, rfl, asked⟩
          · rw [plain]
            exact .ptyReady behind active scan.media.worker (.inl rfl)
          · rw [asked]
            have started := scan.media.start_started preparing.spawns preparing.accepts key
              { source := bytes, relayPolicy }
            generalize scan.media.start _ _ _ _ = result at started ⊢
            cases started with
            | waits other busy => exact .ptyHeld
            | inline worker same => exact .ptyReady behind active worker same
            | sent idle => exact .ptyStarts behind idle relayPolicy

theorem eventReady_answer (server : Ingress) (commitMedia : Bool) (preparing : Preparing)
    (scan : PhaseScan) (event : ServerEvent) :
    Answer server commitMedia scan event (server.eventReady commitMedia preparing scan event) := by
  cases event with
  | pty key event => exact mediaEventReady_answer key event
  | browse client listing => exact .browse
  | mediaBarrier client message =>
      simp only [eventReady]
      by_cases behind : client ∈ scan.blockedClients
      · rw [if_pos behind]
        exact .barrierBehind behind
      · rw [if_neg behind]
        cases clear : { server with media := scan.media }.mediaBarrierKey client message with
        | none => exact .barrierReady behind clear
        | some key => exact .barrierHeld

theorem Answer.stream {event : ServerEvent} {next : PhaseScan}
    (accepted : Answer server commitMedia scan event (true, next)) (key : MediaKey)
    (here : ServerEvent.lanes.lane event = some key) : key ∉ scan.blocked := by
  cases accepted with
  | ptyCommits free prepared =>
      cases here
      exact free
  | ptyReady free other worker same =>
      cases here
      exact free
  | barrierReady | browse => cases here

theorem Answer.client {event : ServerEvent} {next : PhaseScan}
    (accepted : Answer server commitMedia scan event (true, next)) (client : ClientId)
    (here : ServerEvent.fenced.lane event = some client) : client ∉ scan.blockedClients := by
  cases accepted with
  | barrierReady free clear =>
      cases here
      exact free
  | ptyCommits | ptyReady | browse => cases here

def Blocks (passed : List ServerEvent) (scan : PhaseScan) : Prop :=
  ∀ event ∈ passed, (∀ key, ServerEvent.lanes.lane event = some key → key ∈ scan.blocked) ∧
    ∀ client, ServerEvent.fenced.lane event = some client → client ∈ scan.blockedClients

theorem Blocks.pass {passed : List ServerEvent} {event : ServerEvent} {next : PhaseScan}
    (blocks : Blocks passed scan)
    (refused : server.eventReady commitMedia preparing scan event = (false, next)) :
    Blocks (passed ++ [event]) next := by
  have answer := eventReady_answer server commitMedia preparing scan event
  rw [refused] at answer
  have grown : (∀ key ∈ scan.blocked, key ∈ next.blocked) ∧
      (∀ client ∈ scan.blockedClients, client ∈ next.blockedClients) ∧
      (∀ key, ServerEvent.lanes.lane event = some key → key ∈ next.blocked) ∧
      ∀ client, ServerEvent.fenced.lane event = some client → client ∈ next.blockedClients := by
    cases answer with
    | barrierBehind behind =>
        refine ⟨fun _ held => held, fun _ held => held, fun _ none => (nomatch none), ?_⟩
        rintro other ⟨⟩
        exact behind
    | barrierHeld =>
        refine ⟨fun _ held => .tail _ held, fun _ held => .tail _ held, fun _ none => (nomatch none), ?_⟩
        rintro other ⟨⟩
        exact .head _
    | ptyBehind behind =>
        refine ⟨fun _ held => held, fun _ held => held, ?_, fun _ none => (nomatch none)⟩
        rintro other ⟨⟩
        exact behind
    | ptyHeld =>
        refine ⟨fun _ held => .tail _ held, fun _ held => held, ?_, fun _ none => (nomatch none)⟩
        rintro other ⟨⟩
        exact .head _
    | ptyStarts free idle relayPolicy =>
        refine ⟨fun _ held => .tail _ held, fun _ held => held, ?_, fun _ none => (nomatch none)⟩
        rintro other ⟨⟩
        exact .head _
  rcases grown with ⟨streams, clients, stream, client⟩
  intro other member
  rcases List.mem_append.mp member with earlier | here
  · rcases blocks other earlier with ⟨held, fenced⟩
    exact ⟨fun key same => streams key (held key same), fun id same => clients id (fenced id same)⟩
  · rw [List.mem_singleton.mp here]
    exact ⟨stream, client⟩

theorem blocks_of_passes {passed : List ServerEvent} {before : PhaseScan}
    (passes : Scan.Passes (server.eventReady commitMedia preparing) { media := server.media } passed
      before) : Blocks passed before := by
  have kept : ∀ front scan event next, Blocks front scan →
      server.eventReady commitMedia preparing scan event = (false, next) →
      Blocks (front ++ [event]) next := fun _ _ _ _ blocks refused => blocks.pass refused
  have begins : Blocks [] { media := server.media } := fun _ none => nomatch none
  exact passes.invariant kept begins

structure Taken (server : Ingress) (commitMedia : Bool) (preparing : Preparing)
    (event : ServerEvent) (after : Ingress) where
  front : List ServerEvent
  entry : ServerEvent
  back : List ServerEvent
  before : PhaseScan
  scan : PhaseScan
  tail : Option (ServerEvent × Nat)
  whole : server.events.values = front ++ entry :: back
  passes : Scan.Passes (server.eventReady commitMedia preparing) { media := server.media } front
    before
  accepted : Answer server commitMedia before entry (true, scan)
  cut : entry.splitMedia scan.selectedPrefix = (event, tail)
  same : after = { server with events := after.events, media := scan.media }
  left : after.events.values = front ++ (tail.map Prod.fst).toList ++ back

theorem nextReadyEventPhase_taken {event : ServerEvent} {after : Ingress}
    (popped : server.nextReadyEventPhase commitMedia preparing = (some event, after)) :
    Nonempty (Taken server commitMedia preparing event after) := by
  unfold nextReadyEventPhase at popped
  rcases pop : server.events.tryPopReady (server.eventReady commitMedia preparing)
    (fun scan event => event.splitMedia scan.selectedPrefix) { media := server.media } with
    ⟨value, scan, events⟩
  simp only [pop, Prod.mk.injEq] at popped
  rcases popped with ⟨rfl, rfl⟩
  rcases ByteQueue.tryPopReady_eq_some pop with
    ⟨front, entry, back, before, whole, passes, accepted, value, entries⟩
  have answer := eventReady_answer server commitMedia preparing before entry.value
  rw [accepted] at answer
  refine ⟨⟨front.map QueueEntry.value, entry.value, back.map QueueEntry.value, before, scan,
    (entry.value.splitMedia scan.selectedPrefix).2, ?_, passes, answer, ?_, rfl, ?_⟩⟩
  · simp [ByteQueue.values, whole]
  · rw [value]
  · simp only [ByteQueue.values, entries]
    cases (entry.value.splitMedia scan.selectedPrefix).2 <;> simp

theorem nextReadyEventPhase_none {after : Ingress}
    (popped : server.nextReadyEventPhase commitMedia preparing = (none, after)) :
    ∃ scan, Scan.Passes (server.eventReady commitMedia preparing) { media := server.media }
        server.events.values scan ∧ after = { server with media := scan.media } := by
  unfold nextReadyEventPhase at popped
  rcases pop : server.events.tryPopReady (server.eventReady commitMedia preparing)
    (fun scan event => event.splitMedia scan.selectedPrefix) { media := server.media } with
    ⟨value, scan, events⟩
  simp only [pop, Prod.mk.injEq] at popped
  rcases popped with ⟨rfl, rfl⟩
  rcases ByteQueue.tryPopReady_eq_none pop with ⟨rfl, passes⟩
  exact ⟨scan, passes, rfl⟩

namespace Taken

variable {event : ServerEvent} {after : Ingress}
  (taken : Taken server commitMedia preparing event after)

theorem apart : Apart ServerEvent.lanes taken.entry taken.front := by
  intro other member shown same
  rcases Option.ne_none_iff_exists'.mp shown with ⟨key, here⟩
  have held := (blocks_of_passes taken.passes other member).1 key (same.trans here)
  exact taken.accepted.stream key here held

theorem apart_fenced : Apart ServerEvent.fenced taken.entry taken.front := by
  intro other member shown same
  rcases Option.ne_none_iff_exists'.mp shown with ⟨client, here⟩
  have held := (blocks_of_passes taken.passes other member).2 client (same.trans here)
  exact taken.accepted.client client here held

end Taken

theorem Taken.transcript {event : ServerEvent} {after : Ingress}
    (taken : Taken server commitMedia preparing event after) (key : MediaKey) :
    ServerEvent.lanes.transcript key server.events.values =
      ServerEvent.lanes.said key event ++
        ServerEvent.lanes.transcript key after.events.values := by
  rcases ServerEvent.splitMedia_spec taken.cut with ⟨_, _, _, _, text⟩
  have taken' := transcript_take taken.back taken.apart key
  rw [taken.whole, taken', taken.left, text key]
  by_cases here : ServerEvent.lanes.lane taken.entry = some key
  · simp [taken.apart.transcript here]
  · have silent := text key
    rw [said_off here] at silent
    simp [List.append_eq_nil_iff.mp silent.symm]

theorem Taken.transcript_fenced {event : ServerEvent} {after : Ingress}
    (taken : Taken server commitMedia preparing event after) (client : ClientId) :
    ServerEvent.fenced.transcript client server.events.values =
      ServerEvent.fenced.said client event ++
        ServerEvent.fenced.transcript client after.events.values := by
  rcases ServerEvent.splitMedia_spec taken.cut with ⟨_, _, head, tail, _⟩
  have taken' := transcript_take taken.back taken.apart_fenced client
  rw [taken.whole, taken', taken.left, head client]
  simp [tail client]

theorem Taken.clear {after : Ingress} {client : ClientId} {message : ClientMessage}
    (taken : Taken server commitMedia preparing (.mediaBarrier client message) after) :
    after.mediaBarrierKey client message = none := by
  have same := taken.same
  have cut := taken.cut
  have accepted := taken.accepted
  generalize taken.entry = entry at cut accepted
  generalize taken.scan = scan at same cut accepted
  generalize taken.before = before at accepted
  rcases ServerEvent.splitMedia_spec cut with ⟨head, _, _, _, _⟩
  rw [same]
  cases accepted with
  | barrierReady free clear =>
      rw [ServerEvent.splitMedia_mediaBarrier] at cut
      cases (Prod.mk.inj cut).1
      exact clear
  | browse =>
      rw [ServerEvent.splitMedia_browse] at cut
      cases (Prod.mk.inj cut).1
  | ptyReady | ptyCommits => cases head

end Ingress

end Rozi
