import Rozi.Session.MediaOutput

/-!
Every run of the ingress keeps the pipeline in one of its stages, so that what is committed to a
screen is what was prepared for it and what is emitted is what was staged.
-/

namespace Rozi

open Pieces

namespace Ingress

variable {server : Ingress} {commitMedia : Bool} {preparing : Preparing} {scan : PhaseScan}
  {stagings : List Staging}

theorem stage_pass {front rest : List ServerEvent} {event : ServerEvent} {next : PhaseScan}
    (blocks : Blocks front scan) (stage : Stage scan.media (front ++ event :: rest) stagings)
    (refused : server.eventReady commitMedia preparing scan event = (false, next)) :
    Stage next.media (front ++ event :: rest) stagings := by
  have answer := eventReady_answer server commitMedia preparing scan event
  rw [refused] at answer
  cases answer with
  | barrierBehind | barrierHeld | ptyBehind | ptyHeld => exact stage
  | @ptyStarts key bytes free idle relayPolicy =>
      have faithful := stage.faithful
      have apart : ∀ other ∈ front, ServerEvent.lanes.lane other ≠ some key := by
        intro other member same
        exact free ((blocks other member).1 key same)
      have waits : Waits key bytes (front ++ .pty key (.output bytes) :: rest) :=
        ⟨bytes, firstOf_apart apart rfl, List.prefix_refl _⟩
      cases stage with
      | idle _ unstaged silent unused =>
          refine .preparing key bytes rfl unstaged silent ?_ waits faithful
          rcases List.append_eq_nil_iff.mp unused with ⟨ready, worker⟩
          cases running : scan.media.worker with
          | none => simpa [MediaPipeline.sources, MediaWorker.sources, running] using ready
          | some worker' =>
              rw [running] at worker
              have empty : worker'.sources = [] := by simpa using worker
              rcases List.append_eq_nil_iff.mp empty with ⟨completed, jobs⟩
              simp only [MediaPipeline.sources, MediaWorker.sources, Option.getD_some,
                Option.toList_some, List.flatMap_cons, List.flatMap_nil, List.append_nil,
                List.map_append, completed, jobs, ready]
              simp
      | preparing _ _ active => simp [idle] at active
      | staging _ active => simp [idle] at active
      | emitting _ _ active => simp [idle] at active

theorem stage_passes {front rest : List ServerEvent} {before : PhaseScan}
    (stage : Stage server.media (front ++ rest) stagings)
    (passes : Scan.Passes (server.eventReady commitMedia preparing) { media := server.media } front
      before) : Stage before.media (front ++ rest) stagings := by
  have kept : ∀ passed scan event next,
      (Blocks passed scan ∧ ∀ more, front ++ rest = passed ++ more →
        Stage scan.media (front ++ rest) stagings) →
      server.eventReady commitMedia preparing scan event = (false, next) →
      Blocks (passed ++ [event]) next ∧ ∀ more, front ++ rest = passed ++ [event] ++ more →
        Stage next.media (front ++ rest) stagings := by
    rintro passed scan event next ⟨blocks, staged⟩ refused
    refine ⟨blocks.pass refused, ?_⟩
    intro more whole
    rw [List.append_assoc] at whole
    have before := staged _ whole
    rw [whole] at before ⊢
    exact stage_pass blocks before refused
  have begins : Blocks [] { media := server.media } ∧ ∀ more, front ++ rest = [] ++ more →
      Stage ({ media := server.media } : PhaseScan).media (front ++ rest) stagings :=
    ⟨fun _ none => (nomatch none), fun _ _ => stage⟩
  exact (passes.invariant kept begins).2 rest rfl

theorem worker_sources {media : MediaPipeline} {worker : Option MediaWorker}
    (same : worker = media.worker ∨ (media.worker = none ∧ worker = some {})) :
    MediaPipeline.sources { media with worker } = media.sources := by
  rcases same with rfl | ⟨none, rfl⟩
  · rfl
  · simp [MediaPipeline.sources, MediaWorker.sources, none]

/-- A pop leaves its pipeline in a stage, unless it takes the output a result is ready for: then
taking that result does, and what was popped is what the result stands for. -/
theorem Taken.stage {event : ServerEvent} {after : Ingress}
    (taken : Taken server commitMedia preparing event after)
    (stage : Stage server.media server.events.values stagings) :
    (Stage after.media after.events.values stagings ∧
      ∀ key event', event = .pty key event' → after.media.active ≠ some key) ∨
    ∃ key bytes input media, event = .pty key (.output bytes) ∧
      after.media.takeReady key = (some input, media) ∧
      Stage media after.events.values stagings ∧ bytes = input.source.take input.consumedBytes := by
  have before : Stage taken.before.media (taken.front ++ taken.entry :: taken.back) stagings := by
    rw [taken.whole] at stage
    exact stage_passes stage taken.passes
  have media : after.media = taken.scan.media := congrArg Ingress.media taken.same
  have apart := taken.apart
  have cut := taken.cut
  have accepted := taken.accepted
  rw [taken.left, media]
  generalize taken.entry = entry at before apart cut accepted
  generalize taken.scan = next at cut accepted ⊢
  generalize taken.tail = tail at cut ⊢
  generalize taken.before = scan at before accepted
  rcases ServerEvent.splitMedia_spec cut with ⟨head, same, _, _, _⟩
  have removed : ∀ media : MediaPipeline,
      (∀ key, media.active = some key → ServerEvent.lanes.lane entry ≠ some key) →
      Stage media (taken.front ++ entry :: taken.back) stagings →
      Stage media (taken.front ++ (tail.map Prod.fst).toList ++ taken.back) stagings := by
    intro media elsewhere stage
    cases stage with
    | idle inactive unstaged silent unused faithful =>
        exact .idle inactive unstaged silent unused faithful
    | preparing key source active unstaged silent used waits faithful =>
        have apart := elsewhere key active
        have others : ∀ other ∈ (tail.map Prod.fst).toList,
            ServerEvent.lanes.lane other ≠ some key := by
          intro other member
          rw [same other member]
          exact apart
        exact .preparing key source active unstaged silent used (waits.without apart others)
          faithful
    | staging key active held silent unused faithful =>
        exact .staging key active held silent unused faithful
    | emitting key pending active unstaged output unused owner open' proper cut faithful =>
        exact .emitting key pending active unstaged output unused owner open' proper cut faithful
  cases accepted with
  | barrierReady free clear =>
      refine .inl ⟨removed _ (fun _ _ none => nomatch none) before, ?_⟩
      rintro key event' rfl
      cases head
  | browse =>
      refine .inl ⟨removed _ (fun _ _ none => nomatch none) before, ?_⟩
      rintro key event' rfl
      cases head
  | @ptyReady key event' free other worker source =>
      have apart' : ∀ shown, scan.media.active = some shown →
          ServerEvent.lanes.lane (.pty key event') ≠ some shown := by
        rintro shown active ⟨⟩
        exact other active
      have moved : Stage { scan.media with worker }
          (taken.front ++ .pty key event' :: taken.back) stagings :=
        before.of_fields rfl rfl rfl (by rw [worker_sources source])
      refine .inl ⟨removed _ apart' moved, ?_⟩
      rintro shown event rfl
      cases head
      exact other
  | @ptyCommits key event' length free prepared =>
      right
      rcases MediaPipeline.readyLength_active prepared with ⟨active, input, ready, rfl⟩
      have first : firstOf key (taken.front ++ .pty key event' :: taken.back) =
          some (.pty key event') := by
        apply firstOf_apart _ rfl
        intro other member
        exact apart other member (by simp [ServerEvent.lanes])
      have source : ∃ bytes, event' = .output bytes ∧ input.source <+: bytes := by
        cases before with
        | idle inactive => simp [active] at inactive
        | staging _ _ _ _ unused => simp [MediaPipeline.sources, ready] at unused
        | emitting _ _ _ _ _ unused => simp [MediaPipeline.sources, ready] at unused
        | preparing other source shown _ _ used waits =>
            cases active.symm.trans shown
            rw [MediaPipeline.sources, ready] at used
            rcases waits with ⟨bytes, found, starts⟩
            rw [first] at found
            cases found
            rw [← (List.cons.inj used).1] at starts
            exact ⟨bytes, rfl, starts⟩
      rcases source with ⟨bytes, rfl, starts⟩
      have commits : ∃ media, scan.media.takeReady key = (some input, media) := by
        simp [MediaPipeline.takeReady, active, ready]
      rcases commits with ⟨media', takes⟩
      have short := input.within
      have text : bytes.take input.consumedBytes = input.source.take input.consumedBytes := by
        rcases starts with ⟨more, rfl⟩
        exact List.take_append_of_le_length short
      refine ⟨key, bytes.take input.consumedBytes, input, media', ?_, takes,
        before.takeReady takes _, text⟩
      unfold ServerEvent.splitMedia at cut
      by_cases all : bytes.length ≤ input.consumedBytes
      · simp only [if_pos all, Prod.mk.injEq] at cut
        rw [← cut.1, List.take_of_length_le all]
      · simp only [if_neg all, Prod.mk.injEq] at cut
        exact cut.1.symm

end Ingress

namespace IngressRun

open Ingress

variable {run : IngressRun}

/-- What was prepared and handled stands for the output it was handled with. -/
def Commits (trace : List Occurrence) : Prop :=
  ∀ key bytes input, .handled key bytes (some input) ∈ trace →
    bytes = input.source.take input.consumedBytes

structure Composed (run : IngressRun) : Prop where
  stage : Stage run.server.media run.server.events.values (Staging.all run.trace)
  commits : Commits run.trace

namespace Composed

theorem step (composed : run.Composed) {outcome : Occurring}
    (stage : Stage outcome.1.media outcome.1.events.values
      (outcome.2.foldl Staging.note (Staging.all run.trace)))
    (commits : Commits outcome.2) : (run.extend outcome).Composed where
  stage := by
    simp only [extend, Staging.all_append]
    exact stage
  commits := by
    intro key bytes input member
    rcases List.mem_append.mp member with before | now
    · exact composed.commits key bytes input before
    · exact commits key bytes input now

theorem silent (composed : run.Composed) {after : Ingress}
    (stage : Stage after.media after.events.values (Staging.all run.trace)) :
    (run.extend (after, [])).Composed :=
  composed.step stage fun _ _ _ none => nomatch none

/-- A step that changes neither the job nor the queue, and shows one thing the pipeline does not
do. -/
theorem idle (composed : run.Composed) {after : Ingress} {occurrence : Occurrence}
    (worker : after.media.sources = run.server.media.sources)
    (active : after.media.active = run.server.media.active)
    (stageKey : after.media.stageKey = run.server.media.stageKey)
    (output : after.media.output = run.server.media.output)
    (events : after.events = run.server.events)
    (unnoted : ∀ stagings, Staging.note stagings occurrence = stagings)
    (unhandled : Occurrence.handling.lane occurrence = none) :
    (run.extend (after, [occurrence])).Composed := by
  apply composed.step
  · simp only [List.foldl_cons, List.foldl_nil, unnoted, events]
    exact composed.stage.of_fields active stageKey output (by rw [worker])
  · intro key bytes input member
    cases List.mem_singleton.mp member
    cases unhandled

theorem removeClient (composed : run.Composed) (client : ClientId) :
    (run.extend (run.server.removeClient client)).Composed := by
  unfold Ingress.removeClient
  simp only
  split_ifs
  · exact composed.idle rfl rfl rfl rfl rfl (fun _ => rfl) rfl
  · exact composed.silent (composed.stage.of_fields rfl rfl rfl (.refl _))

theorem emitMediaBatch (composed : run.Composed) :
    (run.extend run.server.emitMediaBatch).Composed := by
  unfold Ingress.emitMediaBatch
  cases emitted : run.server.media.outputBatch with
  | none => exact composed.silent composed.stage
  | some batch =>
      refine composed.step (composed.stage.outputBatch emitted) ?_
      intro key bytes input member
      cases List.mem_singleton.mp member

theorem sendParsedOutput (composed : run.Composed) (key : MediaKey)
    (transactions : List TerminalOutputTransaction) :
    (run.extend (run.server.sendParsedOutput key transactions)).Composed := by
  unfold Ingress.sendParsedOutput
  split_ifs
  · have stage := composed.stage.stageOutput key transactions
    rcases answer : run.server.media.stageOutput key transactions with ⟨staged, media⟩
    rw [answer] at stage
    cases staged with
    | true =>
        refine composed.step stage ?_
        intro key bytes input member
        cases List.mem_singleton.mp member
    | false => exact composed.silent stage
  · exact composed.silent composed.stage

theorem discardCompleted (composed : run.Composed) (key : MediaKey) :
    (run.extend (run.server.discardCompleted key, [])).Composed :=
  composed.silent (composed.stage.discardCompleted key)

theorem apply (composed : run.Composed) (effect : Effect) :
    (run.extend (run.server.apply effect)).Composed := by
  cases effect with
  | attach client => exact composed.silent composed.stage
  | remove client => exact composed.removeClient client
  | setPane owner pane generation => exact composed.silent composed.stage
  | emitMedia => exact composed.emitMediaBatch
  | stageOutput key transactions => exact composed.sendParsedOutput key transactions
  | discardCompleted key => exact composed.discardCompleted key

theorem applyAll (composed : run.Composed) (effects : List Effect) :
    (run.extend (run.server.applyAll effects)).Composed := by
  induction effects generalizing run with
  | nil => exact composed.silent composed.stage
  | cons effect effects ih =>
      simp only [Ingress.applyAll, extend_andThen]
      exact ih (composed.apply effect)

theorem processClientControlNow (composed : run.Composed) (client : ClientId)
    (message : ClientMessage) (effects : List Effect) :
    (run.extend (run.server.processClientControlNow client message effects)).Composed := by
  have called : ∀ accepted, (run.extend (run.server, [.executed client message accepted
      (run.server.mutatedStream client message) run.server.media.active])).Composed :=
    fun _ => composed.idle rfl rfl rfl rfl rfl (fun _ => rfl) rfl
  unfold Ingress.processClientControlNow
  simp only
  by_cases refused : (!run.server.acceptsClientControl client message) = true
  · rw [if_pos refused]
    exact called _
  · rw [if_neg refused, extend_andThen, extend_andThen]
    have applied := (called (run.server.acceptsClientControl client message)).applyAll effects
    split_ifs
    · exact applied.removeClient client
    · exact applied.silent applied.stage

theorem releaseMediaBarrier (composed : run.Composed) (client : ClientId) :
    (run.extend (run.server.releaseMediaBarrier client)).Composed := by
  have released : (run.extend (run.server.releaseCount client, [])).Composed :=
    composed.silent (composed.stage.of_fields rfl rfl rfl (.refl _))
  have removed : (run.extend ((run.server.releaseCount client).removeClient client)).Composed := by
    simpa only [extend, List.append_nil] using released.removeClient client
  unfold Ingress.releaseMediaBarrier
  simp only
  split_ifs
  · exact removed
  · exact released

theorem pushed (composed : run.Composed) {event : ServerEvent} {bytes : Nat}
    {events : ByteQueue ServerEvent}
    (pushed : run.server.events.pushBlockingWith event bytes ServerEvent.coalesceOutput =
      .ok events) :
    Stage run.server.media events.values (Staging.all run.trace) := by
  apply composed.stage.of_values
  intro key source waits
  rcases ByteQueue.pushBlockingWith_pushed pushed with
    ⟨entry, carries, entries⟩ | ⟨front, entry, grown, whole, merges, entries⟩
  · rw [ByteQueue.values, entries, List.map_append]
    exact waits.push
  · rcases coalesceOutput_spec merges with ⟨other, old, more, queued, rfl, merged⟩
    rw [ByteQueue.values, whole, List.map_append, List.map_singleton, queued] at waits
    rw [ByteQueue.values, entries, List.map_append, List.map_singleton, merged]
    exact waits.merge

theorem deliver (composed : run.Composed) (key : MediaKey) (event : TerminalPtyEvent) :
    (run.extend (run.server.deliver key event)).Composed := by
  unfold Ingress.deliver
  cases pushed : run.server.events.pushBlockingWith (.pty key event) (ptyBytes event)
      ServerEvent.coalesceOutput with
  | error refusal =>
      simp only [(ByteQueue.pushBlockingWith_refused pushed).1]
      exact composed.silent composed.stage
  | ok events =>
      have stage := composed.pushed pushed
      cases event with
      | output bytes =>
          refine composed.step stage ?_
          intro key bytes input member
          cases List.mem_singleton.mp member
      | exited code => exact composed.silent stage
      | error message => exact composed.silent stage

theorem browse (composed : run.Composed) (client : ClientId) (listing : String) (bytes : Nat) :
    (run.extend (run.server.browse client listing bytes, [])).Composed := by
  unfold Ingress.browse
  cases pushed : run.server.events.pushBlockingWith (.browse client listing) bytes
      ServerEvent.coalesceOutput with
  | error refusal =>
      simp only [(ByteQueue.pushBlockingWith_refused pushed).1]
      exact composed.silent composed.stage
  | ok events => exact composed.silent (composed.pushed pushed)

theorem processClientFrame (composed : run.Composed) (size : ClientMessage → Nat)
    (client : ClientId) (message : ClientMessage) (effects : List Effect) :
    (run.extend (run.server.processClientFrame size client message effects)).Composed := by
  unfold Ingress.processClientFrame
  rw [extend_andThen]
  have received : (run.extend (run.server, [.received client message])).Composed :=
    composed.idle rfl rfl rfl rfl rfl (fun _ => rfl) rfl
  simp only
  unfold deferMediaBarrier
  split_ifs
  · exact received.processClientControlNow client message effects
  · cases pushed : run.server.events.tryPush (.mediaBarrier client message) (size message) with
    | error refusal =>
        simp only [(ByteQueue.tryPushWith_refused pushed).1]
        exact received.silent received.stage
    | ok events =>
        apply received.silent
        have stage : Stage run.server.media events.values
            (Staging.all (run.trace ++ [.received client message])) := by
          apply received.stage.of_values
          intro key source waits
          rw [tryPush_values pushed]
          exact waits.push
        exact stage.of_fields rfl rfl rfl (.refl _)

theorem applyPty (composed : run.Composed) (key : MediaKey) (event : TerminalPtyEvent)
    (prepared : Option TerminalPreparedInput) (handling : Handling) :
    (run.extend (run.server.applyPty key event prepared handling)).Composed := by
  have sends : (run.extend ((run.server.sendParsedOutput key handling.transactions).andThen
      fun server => server.applyAll handling.effects)).Composed := by
    rw [extend_andThen]
    exact (composed.sendParsedOutput key handling.transactions).applyAll handling.effects
  unfold Ingress.applyPty
  by_cases gone : run.server.panes key.owner key.pane ≠ some key.generation
  · rw [if_pos gone]
    exact composed.silent composed.stage
  · rw [if_neg gone]
    cases event with
    | output bytes =>
        by_cases failed : (prepared.isSome && !handling.parses) = true
        · simp only [if_pos failed]
          exact composed.discardCompleted key
        · simp only [if_neg failed]
          exact sends
    | exited code => exact sends
    | error message => exact composed.applyAll handling.effects

theorem handleEvent (composed : run.Composed) (event : ServerEvent) (handling : Handling)
    (other : ∀ key event', event = .pty key event' → run.server.media.active ≠ some key) :
    (run.extend (run.server.handleEvent event handling)).Composed := by
  cases event with
  | browse client listing => exact composed.applyAll handling.effects
  | mediaBarrier client message =>
      simp only [Ingress.handleEvent, extend_andThen]
      split_ifs
      · exact (composed.processClientControlNow client message handling.effects).releaseMediaBarrier
          client
      · exact (composed.silent composed.stage).releaseMediaBarrier client
  | pty key event =>
      have unready : run.server.media.takeReady key = (none, run.server.media) :=
        if_pos (other key event rfl)
      clear other
      simp only [Ingress.handleEvent, handlePty, unready, extend_andThen]
      refine Composed.applyPty ?_ key event none handling
      cases event with
      | output bytes =>
          refine composed.step composed.stage ?_
          intro key bytes input member
          cases List.mem_singleton.mp member
      | exited code => exact composed.silent composed.stage
      | error message => exact composed.silent composed.stage

theorem nextReady (composed : run.Composed) (commitMedia : Bool) (preparing : Preparing)
    (handling : Handling) (size : ClientMessage → Nat) :
    (run.extend (run.server.after size (.nextReady commitMedia preparing handling))).Composed := by
  simp only [Ingress.after]
  rcases popped : run.server.nextReadyEventPhase commitMedia preparing with ⟨event | event, after⟩
  · rcases nextReadyEventPhase_none popped with ⟨scan, passes, rfl⟩
    apply composed.silent
    have stage := composed.stage
    rw [← List.append_nil run.server.events.values] at stage
    have scanned := stage_passes stage passes
    rwa [List.append_nil] at scanned
  · rcases nextReadyEventPhase_taken popped with ⟨taken⟩
    rcases taken.stage composed.stage with
      ⟨stage, other⟩ | ⟨key, bytes, input, media, rfl, takes, stage, text⟩
    · have popped' : (run.extend (after, [])).Composed := composed.silent stage
      simpa only [extend, List.append_nil] using popped'.handleEvent event handling other
    · have seen : (run.extend ({ after with media },
          [.handled key bytes (some input)])).Composed := by
        refine composed.step stage ?_
        intro key' bytes' input' member
        cases List.mem_singleton.mp member
        exact text
      simp only [Ingress.handleEvent, handlePty, takes, extend_andThen]
      exact seen.applyPty key (.output bytes) (some input) handling

theorem pollMedia (composed : run.Composed) (relay : GraphicsRelayPolicy) (accepts : Bool)
    (consumes : Consumes) :
    (run.extend (run.server.pollMedia relay accepts consumes, [])).Composed := by
  have polled : (run.extend ({ run.server with
      media := run.server.media.poll relay accepts consumes }, [])).Composed :=
    composed.silent (composed.stage.poll relay accepts consumes)
  unfold Ingress.pollMedia
  simp only
  cases active : (run.server.media.poll relay accepts consumes).active with
  | none => exact polled
  | some key =>
      simp only
      split_ifs
      · exact polled
      · simpa only [extend, List.append_nil] using polled.discardCompleted key

theorem disconnectAfterControls (composed : run.Composed) (client : ClientId) :
    (run.extend (run.server.disconnectAfterControls client)).Composed := by
  unfold Ingress.disconnectAfterControls
  split_ifs
  · exact composed.silent composed.stage
  · exact composed.removeClient client

theorem after (composed : run.Composed) (size : ClientMessage → Nat) (action : IngressAction) :
    (run.after size action).Composed := by
  cases action with
  | acceptNew => exact composed.silent composed.stage
  | deliver key event => exact composed.deliver key event
  | browse client listing bytes => exact composed.browse client listing bytes
  | control client message effects =>
      exact composed.processClientFrame size client message effects
  | nextReady commitMedia preparing handling =>
      exact composed.nextReady commitMedia preparing handling size
  | poll relay accepts consumes => exact composed.pollMedia relay accepts consumes
  | finishJob consumes => exact composed.silent (composed.stage.finishJob consumes)
  | disconnect client => exact composed.disconnectAfterControls client
  | effect effect => exact composed.apply effect

end Composed

variable {size : ClientMessage → Nat}

theorem reachable_streamed (reached : (runs size).Reachable run) : run.Streamed ∧ run.Composed := by
  have begins : ∀ run, (runs size).initial run → run.Streamed ∧ run.Composed := by
    rintro run rfl
    exact ⟨fun key => rfl, .idle rfl rfl rfl rfl (fun _ none => nomatch none),
      fun _ _ _ none => nomatch none⟩
  have kept : ∀ run action next, run.Streamed ∧ run.Composed → (runs size).step run action next →
      next.Streamed ∧ next.Composed := by
    rintro run action next ⟨streamed, composed⟩ rfl
    exact ⟨streamed.step size action, composed.after size action⟩
  exact reached.invariant begins kept

/-- Whatever is merged, cut and passed over in the ingress, the output of a stream is handled in the
order it was delivered; what a screen is given prepared is the output it is given; and the batches
emitted are what was staged, with only ordered output without media ever cut. -/
theorem streams_undisturbed (reached : (runs size).Reachable run) :
    (∀ key, Occurrence.handling.transcript key run.trace ++
        ServerEvent.lanes.transcript key run.server.events.values =
      Occurrence.delivery.transcript key run.trace) ∧
    (∀ key bytes input, .handled key bytes (some input) ∈ run.trace →
      bytes = input.source.take input.consumedBytes) ∧
    ∀ staging ∈ Staging.all run.trace, staging.Faithful := by
  rcases reachable_streamed reached with ⟨streamed, composed⟩
  exact ⟨streamed, composed.commits, composed.stage.faithful⟩

def placeIn (place length : Nat) : Fin (length + 1) := Fin.ofNat (length + 1) place

def imageActions : List IngressAction :=
  let key : MediaKey := { owner := none, pane := 7, generation := 1 }
  let prepares : Preparing := { prepareMediaInput := fun _ _ => some .all }
  [.effect (.setPane none 7 (some 1)), .deliver key (.output [1, 2, 3]),
    .nextReady false prepares {}, .deliver key (.output [4]),
    .finishJob fun work => placeIn 2 work.source.length,
    .poll .all true fun work => placeIn 2 work.source.length,
    .nextReady true prepares
      { transactions := [{ outputClass := .ordered, bytes := [9, 9] }] },
    .effect .emitMedia, .nextReady true {} {}]

theorem streams_undisturbed_image :
    let run := following (fun _ => 0) imageActions
    let key : MediaKey := { owner := none, pane := 7, generation := 1 }
    run.trace.map (fun occurrence => occurrence matches .handled _ [1, 2] (some _)) =
      [false, false, true, false, false, false] ∧
    Occurrence.handling.transcript key run.trace = [1, 2, 3, 4] ∧
    ∀ staging ∈ Staging.all run.trace, staging.Faithful := by
  intro run key
  have reached := following_reachable (fun _ => 0) imageActions
  refine ⟨by decide +kernel, ?_, (streams_undisturbed reached).2.2⟩
  have stream := (streams_undisturbed reached).1 key
  have queued : ServerEvent.lanes.transcript key run.server.events.values = [] := by
    decide +kernel
  have delivered : Occurrence.delivery.transcript key run.trace = [1, 2, 3, 4] := by
    decide +kernel
  rw [queued, List.append_nil, delivered] at stream
  exact stream

end IngressRun

end Rozi
