import Rozi.Session.Revisions

/-!
The runs of a session: the publications form one line of revisions, whoever writes.
-/

namespace Rozi

open Checks

def ControlCommand.ifRevision : ControlCommand → Option Nat
  | .layoutSet _ _ _ ifRevision | .paneSet _ _ _ _ _ _ _ ifRevision | .paneMove _ _ ifRevision
  | .paneSwap _ _ ifRevision | .paneClose _ ifRevision => ifRevision
  | .newPane _ => none

namespace SessionServer

def accepts : Target × ServerMessage → Bool
  | (_, .layoutCommitted _ _ _ _) => true
  | (_, .spawnResult _ isLocal _ _ ok _) => ok && !isLocal
  | _ => false

def changesLayout : ControlResponse → Bool
  | .ok (.layoutChange changed _ _) => changed
  | .ok (.paneClosed _ _ workspace) => workspace.isSome
  | .ok (.newPaneAccepted _ _) => true
  | .error _ => false

def Answered.accepted (answered : Answered) : Bool :=
  answered.messages.any accepts || answered.response.any changesLayout

def accepted (server : SessionServer) : SessionEvent → Bool
  | .write surroundings write =>
      (write.sender.all fun client => server.acceptsClientControl client (.other false)) &&
        (server.write surroundings write).accepted
  | _ => false

/-- A write its author may not make, or that rests on another revision, or whose document is not
valid. -/
def Barred (server : SessionServer) : SharedWrite → Prop
  | .commit client baseRev layout _ =>
      server.isController client = false ∨ server.clientReadOnly client = true ∨
        baseRev ≠ server.layoutRev ∨ layout.validate.isOk = false
  | .spawn client spawn =>
      server.maySpawnShared client = false ∨
        ∀ placement ∈ spawn.placement,
          placement.baseRev ≠ server.layoutRev ∨ placement.layout.validate.isOk = false
  | .control command =>
      server.controller ≠ none ∨
        ∃ rev ∈ command.ifRevision, server.revision ≠ some rev

end SessionServer

structure LayoutRun where
  server : SessionServer
  start : Option SharedLayout
  startRev : Nat
  published : List (SessionEvent × Publication) := []

namespace SessionServer

structure Restored (server : SessionServer) : Prop where
  unattended : server.Unattended
  document : ∀ layout ∈ server.layout,
    layout.validate.isOk = true ∧ server.validateSharedLayoutAgainstPanes layout = true
  empty : server.layout = none → server.panes = ∅

end SessionServer

namespace LayoutRun

variable (run : LayoutRun)

def after (event : SessionEvent) : LayoutRun :=
  let (server, messages) := run.server.sessionStep event
  { run with
    server
    published := run.published ++ (messages.filterMap publication).map fun sent => (event, sent) }

def documents : List (Option SharedLayout) :=
  run.start :: run.published.map fun entry => some entry.2.layout

def runs : Transition LayoutRun SessionEvent where
  initial := fun run => run.server.Restored ∧ run.start = run.server.layout ∧
    run.startRev = run.server.layoutRev ∧ run.published = []
  step := fun run event next => next = run.after event

structure Serialized : Prop where
  consecutive : ∀ index event sent, run.published[index]? = some (event, sent) →
    sent.rev = run.startRev + index + 1
  derived : ∀ index event sent, run.published[index]? = some (event, sent) →
    ∃ before, run.documents[index]? = some before ∧
      SessionServer.DerivedFrom before (run.startRev + index) event sent.layout
  current : run.server.layoutRev = run.startRev + run.published.length ∧
    run.documents.getLast? = some run.server.layout
  once : ∀ event, ((run.server.sessionStep event).2.filterMap publication).length =
    if run.server.accepted event then 1 else 0
  barred : ∀ surroundings write, run.server.Barred write →
    (run.server.sessionStep (.write surroundings write)).2.filterMap publication = []
  valid : ∀ layout ∈ run.server.layout, layout.validate.isOk = true
  placed : ∀ id pane, run.server.panes.lookup id = some pane → pane.exited = none →
    ∃ layout ∈ run.server.layout, layout.placements.count (id, pane.generation) = 1 ∧
      layout.paneIds.count id = 1

end LayoutRun

section writes

namespace SessionServer

variable {server : SessionServer} {surroundings : Surroundings}

theorem publications_of_accepts (messages : Outgoing)
    (sent : messages.filterMap publication ≠ []) : messages.any accepts = true := by
  rcases List.exists_mem_of_ne_nil _ sent with ⟨entry, member⟩
  rcases List.mem_filterMap.mp member with ⟨⟨target, message⟩, there, same⟩
  apply List.any_eq_true.mpr
  refine ⟨_, there, ?_⟩
  cases message with
  | layoutCommitted rev author layout live => rfl
  | _ => cases same

theorem commit_accepted {client : ClientId} {baseRev : Nat} {layout : SharedLayout} {live : Bool}
    (accepted : (server.write surroundings (.commit client baseRev layout live)).accepted = true) :
    (server.handleCommitLayout client baseRev layout live).2.filterMap publication ≠ [] := by
  simp only [write, Answered.accepted, Option.any_none, Bool.or_false] at accepted
  unfold handleCommitLayout at accepted ⊢
  split_ifs at accepted ⊢
  · simp at accepted
  · simp [layoutRejected, accepts] at accepted
  · simp [publishSharedLayout, publication]

theorem spawn_accepted {client : ClientId} {spawn : SpawnPane}
    (accepted : (server.write surroundings (.spawn client spawn)).accepted = true) :
    (server.handleSpawnPane surroundings.host client spawn).2.filterMap publication ≠ [] := by
  simp only [write, Answered.accepted, Option.any_none, Bool.or_false] at accepted
  unfold handleSpawnPane at accepted ⊢
  cases shared : spawn.isLocal with
  | true =>
      have own : (spawn.request client).owner = some client := by simp [SpawnPane.request, shared]
      have silent : (server.handleLocalSpawn surroundings.host client spawn).2.any accepts =
          false := by
        unfold handleLocalSpawn
        split_ifs with reader placed
        · rfl
        · rfl
        · have outcome := installPane_outcome server surroundings.host (spawn.request client) false
          unfold spawnPane
          generalize server.installPane surroundings.host (spawn.request client) false = result
            at outcome
          cases outcome with
          | refused _ _ => rfl
          | failed _ _ _ => rfl
          | started _ _ _ =>
              simp [SpawnRequest.accepted, isSpawned, accepts, own]
      simp [shared, silent] at accepted
  | false =>
      have outcome := spawnSharedPane_outcome server surroundings.host (spawn.request client)
        spawn.placement client
      simp only [shared, Bool.false_eq_true, if_false, handleSharedSpawn] at accepted ⊢
      generalize server.spawnSharedPane surroundings.host (spawn.request client) spawn.placement
        client = result at outcome accepted
      cases outcome with
      | refused error quiet why =>
          rcases quiet with none | rejected
          · simp [none, accepts, SpawnRequest.refused, isSpawned, layoutRejected] at accepted
          · simp [rejected, accepts, SpawnRequest.refused, isSpawned, layoutRejected,
              isLayoutRejected] at accepted
      | failed _ _ _ _ _ =>
          simp [accepts, SpawnRequest.refused, isSpawned, layoutRejected] at accepted
      | started _ _ _ _ _ => simp [publication]

theorem headlessEdit_accepted (edit : Requested ((SharedLayout × Bool) × Nat))
    (accepted : (server.headlessEdit edit).2.1.any accepts = true ∨
      changesLayout (server.headlessEdit edit).2.2 = true) :
    (server.headlessEdit edit).2.1.filterMap publication ≠ [] := by
  rcases edit with error | ⟨⟨layout, changed⟩, index⟩
  · rcases accepted with messages | response
    · cases messages
    · cases response
  · cases changed with
    | true => exact List.cons_ne_nil _ _
    | false =>
        rcases accepted with messages | response
        · cases messages
        · simp only [headlessEdit, headlessLayoutChange] at response
          split at response
          · cases response
          · cases response

theorem changesLayout_message {response : ControlResponse}
    (changes : changesLayout (surroundings.message response) = true) :
    changesLayout response = true := by
  unfold Surroundings.message at changes
  split_ifs at changes
  · exact changes
  · cases changes

theorem control_accepted {command : ControlCommand}
    (accepted : (server.write surroundings (.control command)).accepted = true) :
    (server.handleControl surroundings command).2.1.filterMap publication ≠ [] := by
  have answer : (server.handleControl surroundings command).2.1.any accepts = true ∨
      changesLayout (server.handleControl surroundings command).2.2 = true :=
    (Bool.or_eq_true_iff.mp accepted).imp id changesLayout_message
  cases command with
  | layoutSet workspace layout masterRatio ifRevision => exact headlessEdit_accepted _ answer
  | paneSet target floating fullscreen rect rectFraction splitRatio widthRatio ifRevision =>
      exact headlessEdit_accepted _ answer
  | paneMove target workspace ifRevision => exact headlessEdit_accepted _ answer
  | paneSwap target other ifRevision => exact headlessEdit_accepted _ answer
  | paneClose target ifRevision =>
      simp only [handleControl, sessionPaneClose] at answer ⊢
      cases closed : server.closing target ifRevision with
      | error error => simp [closed, SessionServer.answered, changesLayout] at answer
      | ok left =>
          cases left with
          | none => simp [closed, changesLayout] at answer
          | some left => simp [publishSharedLayout, publication]
  | newPane spawn =>
      simp only [handleControl, sessionNewPane] at answer ⊢
      cases passed : server.prepareNewPane surroundings.rules spawn with
      | error error => simp [passed, SessionServer.answered, changesLayout] at answer
      | ok prepared =>
          have outcome := spawnSharedPane_outcome server surroundings.host prepared.request
            (some prepared.placement) serverLayoutAuthor
          rw [passed] at answer
          simp only at answer ⊢
          generalize server.spawnSharedPane surroundings.host prepared.request
            (some prepared.placement) serverLayoutAuthor = result at outcome answer
          cases outcome with
          | refused error quiet why =>
              rcases quiet with none | rejected
              · simp [none, SpawnRequest.refused, requestFailed, errorWith, changesLayout]
                  at answer
              · simp [rejected, accepts, layoutRejected, SpawnRequest.refused, requestFailed,
                  errorWith, changesLayout] at answer
          | failed _ _ _ _ _ =>
              simp [SpawnRequest.refused, requestFailed, errorWith, changesLayout] at answer
          | started _ _ _ _ _ => simp [publication]

theorem accepted_iff (server : SessionServer) (event : SessionEvent) :
    server.accepted event = true ↔ (server.sessionStep event).2.filterMap publication ≠ [] := by
  cases event with
  | lease label => simp [accepted, sessionStep]
  | kill client id isLocal generation => simp [accepted, sessionStep]
  | exited host id generation code recently =>
      simp only [accepted, sessionStep, Bool.false_eq_true, false_iff, not_not]
      have outcome : SessionOutcome server (.exited host id generation code recently)
        (server.paneExited id host generation code recently) := exited_outcome ..
      generalize server.paneExited id host generation code recently = result at outcome
      cases outcome with
      | quiet silent _ _ _ _ => exact silent
      | published _ _ _ derived _ _ _ => cases derived
  | write surroundings write =>
      simp only [accepted, sessionStep, Bool.and_eq_true]
      split_ifs with heard
      · simp only [heard, true_and]
        constructor
        · intro accepted
          cases write with
          | commit client baseRev layout live => exact commit_accepted accepted
          | spawn client spawn => exact spawn_accepted accepted
          | control command => exact control_accepted accepted
        · intro sent
          exact Bool.or_eq_true_iff.mpr (.inl (publications_of_accepts _ sent))
      · simp [heard]

theorem publications_length (server : SessionServer) (event : SessionEvent) :
    ((server.sessionStep event).2.filterMap publication).length =
      if server.accepted event then 1 else 0 := by
  have outcome := sessionStep_outcome server event
  have accepts := accepted_iff server event
  generalize server.sessionStep event = result at outcome accepts
  cases outcome with
  | quiet silent _ _ _ _ =>
      rw [if_neg]
      · rw [silent]
        rfl
      · rw [accepts]
        exact fun sent => sent silent
  | published sent _ _ _ _ _ _ =>
      rw [if_pos]
      · rw [sent]
        rfl
      · rw [accepts, sent]
        exact List.cons_ne_nil _ _

theorem layoutForHeadlessWrite_current {ifRevision : Option Nat} {before : SharedLayout}
    (allowed : server.layoutForHeadlessWrite ifRevision = .ok before) :
    server.controller = none ∧ checkIfRevision ifRevision server.revision = .ok () := by
  unfold layoutForHeadlessWrite at allowed
  split at allowed
  · cases allowed
  · rename_i free
    simp only [bind_eq_ok] at allowed
    rcases allowed with ⟨_, current, _⟩
    exact ⟨free, current⟩

theorem control_allowed {command : ControlCommand}
    (sent : (server.handleControl surroundings command).2.1.filterMap publication ≠ []) :
    server.controller = none ∧ checkIfRevision command.ifRevision server.revision = .ok () := by
  have edited : ∀ edit : Requested ((SharedLayout × Bool) × Nat),
      (server.headlessEdit edit).2.1.filterMap publication ≠ [] → ∃ result, edit = .ok result := by
    intro edit published
    cases edit with
    | error error => exact absurd rfl published
    | ok result => exact ⟨result, rfl⟩
  cases command with
  | layoutSet workspace layout masterRatio ifRevision =>
      rcases edited _ sent with ⟨result, passed⟩
      simp only [sessionLayoutSet, bind_eq_ok] at passed
      rcases passed with ⟨_, _, _, _, before, allowed, _⟩
      exact layoutForHeadlessWrite_current allowed
  | paneSet target floating fullscreen rect rectFraction splitRatio widthRatio ifRevision =>
      rcases edited _ sent with ⟨result, passed⟩
      simp only [sessionPaneSet, bind_eq_ok] at passed
      rcases passed with ⟨_, _, before, allowed, _⟩
      exact layoutForHeadlessWrite_current allowed
  | paneMove target workspace ifRevision =>
      rcases edited _ sent with ⟨result, passed⟩
      simp only [sessionPaneMove, bind_eq_ok] at passed
      rcases passed with ⟨_, _, before, allowed, _⟩
      exact layoutForHeadlessWrite_current allowed
  | paneSwap target other ifRevision =>
      rcases edited _ sent with ⟨result, passed⟩
      simp only [sessionPaneSwap, bind_eq_ok] at passed
      rcases passed with ⟨before, allowed, _⟩
      exact layoutForHeadlessWrite_current allowed
  | paneClose target ifRevision =>
      simp only [handleControl, sessionPaneClose] at sent
      cases closed : server.closing target ifRevision with
      | error error => simp [closed, SessionServer.answered] at sent
      | ok left =>
          unfold closing at closed
          split at closed
          · cases closed
          · rename_i free
            simp only [bind_eq_ok] at closed
            rcases closed with ⟨_, current, _⟩
            exact ⟨free, current⟩
  | newPane spawn =>
      simp only [handleControl, sessionNewPane] at sent
      cases passed : server.prepareNewPane surroundings.rules spawn with
      | error error => simp [passed, SessionServer.answered] at sent
      | ok prepared => exact ⟨(prepareNewPane_eq_ok passed).free, rfl⟩

theorem barred_silent (surroundings : Surroundings) (write : SharedWrite)
    (barred : server.Barred write) :
    (server.sessionStep (.write surroundings write)).2.filterMap publication = [] := by
  simp only [sessionStep]
  split_ifs
  · cases write with
    | commit client baseRev layout live =>
        simp only [SessionServer.write, handleCommitLayout]
        split_ifs with refused unfit
        · rfl
        · rfl
        · simp only [Bool.or_eq_true, not_or, bne_iff_ne, ne_eq, not_not, Bool.not_eq_true',
            Bool.not_eq_false, Bool.not_eq_true] at refused unfit
          simp [Barred, refused, unfit] at barred
    | spawn client spawn =>
        simp only [SessionServer.write, handleSpawnPane]
        cases shared : spawn.isLocal with
        | true => exact (localSpawn_undisturbed server surroundings.host client spawn shared).2
        | false =>
            have outcome := spawnSharedPane_outcome server surroundings.host
              (spawn.request client) spawn.placement client
            simp only [Bool.false_eq_true, if_false, handleSharedSpawn]
            generalize server.spawnSharedPane surroundings.host (spawn.request client)
              spawn.placement client = result at outcome
            cases outcome with
            | refused error quiet why =>
                rcases quiet with none | rejected
                · rw [none]
                  rfl
                · rw [rejected]
                  rfl
            | failed _ _ _ _ _ => rfl
            | started present admitted _ _ _ =>
                have placed := admitted.placed
                simp only [acceptsPlacement, Bool.and_eq_true, beq_iff_eq] at placed
                rcases barred with mayNot | stale
                · rw [admitted.allowed] at mayNot
                  cases mayNot
                · rcases stale _ present with old | invalid
                  · exact absurd placed.1.1 old
                  · rw [placed.1.2] at invalid
                    cases invalid
    | control command =>
        by_contra sent
        rcases control_allowed sent with ⟨free, current⟩
        rcases barred with held | ⟨rev, asked, other⟩
        · exact held free
        · rw [Option.mem_def] at asked
          rw [asked] at current
          simp [checkIfRevision, other, errorWith] at current
  · rfl

end SessionServer

end writes

namespace LayoutRun

variable {run : LayoutRun}

structure Line (run : LayoutRun) : Prop where
  consecutive : ∀ index event sent, run.published[index]? = some (event, sent) →
    sent.rev = run.startRev + index + 1
  derived : ∀ index event sent, run.published[index]? = some (event, sent) →
    ∃ before, run.documents[index]? = some before ∧
      SessionServer.DerivedFrom before (run.startRev + index) event sent.layout
  current : run.server.layoutRev = run.startRev + run.published.length
  stands : run.documents[run.published.length]? = some run.server.layout
  valid : run.server.DocumentValid
  running : run.server.RunningPlaced

theorem Restored.line (begins : runs.initial run) : run.Line := by
  rcases begins with ⟨restored, start, startRev, unpublished⟩
  constructor
  · simp [unpublished]
  · simp [unpublished]
  · simp [unpublished, startRev]
  · simp [unpublished, documents, start]
  · intro layout present
    exact SharedLayout.validate_isOk.mp (restored.document layout present).1
  · intro id pane found running
    cases present : run.server.layout with
    | none =>
        rw [restored.empty present] at found
        simp at found
    | some layout =>
        exact ⟨layout, rfl, (SessionServer.fits_of_validated
          (restored.document layout present).2).running id pane found running⟩

theorem Line.after (line : run.Line) (event : SessionEvent) : (run.after event).Line := by
  have outcome := SessionServer.sessionStep_outcome run.server event
  have sound := outcome.sound line.valid line.running
  unfold LayoutRun.after
  generalize run.server.sessionStep event = result at outcome sound
  cases outcome with
  | @quiet next messages silent layout layoutRev kept lost =>
      simp only [silent, List.map_nil, List.append_nil]
      refine ⟨line.consecutive, line.derived, ?_, ?_, sound.1, sound.2⟩
      · exact layoutRev.trans line.current
      · exact line.stands.trans (by rw [layout])
  | @published next messages author layout sent stands layoutRev derived valid running held =>
      simp only [sent, List.map_cons, List.map_nil]
      have earlier : ∀ index, index < run.published.length →
          (run.published ++ [(event, ⟨run.server.layoutRev + 1, author, layout⟩)])[index]? =
            run.published[index]? := fun index before => List.getElem?_append_left before
      have recorded : ∀ index entry, (run.published ++
          [(event, (⟨run.server.layoutRev + 1, author, layout⟩ : Publication))])[index]? =
            some entry → run.published[index]? = some entry ∨ index = run.published.length ∧
              entry = (event, ⟨run.server.layoutRev + 1, author, layout⟩) := by
        intro index entry found
        rcases Nat.lt_trichotomy index run.published.length with before | last | beyond
        · rw [earlier index before] at found
          exact .inl found
        · rw [last, List.getElem?_concat_length] at found
          exact .inr ⟨last, (Option.some.inj found).symm⟩
        · rw [List.getElem?_eq_none (by simp; omega)] at found
          cases found
      have documents : ∀ index, index ≤ run.published.length →
          (LayoutRun.documents { run with
            server := next
            published := run.published ++
              [(event, ⟨run.server.layoutRev + 1, author, layout⟩)] })[index]? =
            run.documents[index]? := by
        intro index inside
        cases index with
        | zero => rfl
        | succ index =>
            simp only [LayoutRun.documents, List.getElem?_cons_succ, List.getElem?_map]
            rw [earlier index (by omega)]
      refine ⟨?_, ?_, ?_, ?_, sound.1, sound.2⟩
      · intro index other entry found
        rcases recorded index _ found with before | ⟨last, same⟩
        · exact line.consecutive index other entry before
        · cases same
          rw [last]
          simp only [line.current]
      · intro index other entry found
        rcases recorded index _ found with before | ⟨last, same⟩
        · rcases line.derived index other entry before with ⟨document, stood, comes⟩
          have inside : index < run.published.length := (List.getElem?_eq_some_iff.mp before).1
          exact ⟨document, (documents index inside.le).trans stood, comes⟩
        · cases same
          refine ⟨run.server.layout, ?_, ?_⟩
          · rw [last, documents _ le_rfl]
            exact line.stands
          · rw [last, ← line.current]
            exact derived
      · simp only [layoutRev, line.current, List.length_append, List.length_singleton]
        omega
      · simp only [LayoutRun.documents, List.length_append, List.length_singleton,
          List.getElem?_cons_succ, List.map_append, List.map_cons, List.map_nil]
        rw [← List.length_map (fun entry : SessionEvent × Publication => some entry.2.layout),
          List.getElem?_concat_length, stands]

theorem line_of_run (reached : runs.Reachable run) : run.Line := by
  refine reached.invariant (fun _ => Restored.line) ?_
  intro run event next line moved
  rw [moved]
  exact line.after event

/-- Whoever writes and in whatever order, the revisions of a session are consecutive, each is
derived from the one before it, and every running pane is placed exactly once. -/
theorem revisions_serialized (run : LayoutRun) (reached : runs.Reachable run) : run.Serialized := by
  have line := line_of_run reached
  refine ⟨line.consecutive, line.derived, ⟨line.current, ?_⟩,
    run.server.publications_length, SessionServer.barred_silent, ?_, ?_⟩
  · rw [List.getLast?_eq_getElem?, ← line.stands]
    simp [documents]
  · exact fun layout present => SharedLayout.validate_isOk.mpr (line.valid layout present)
  · intro id pane found running
    rcases line.running id pane found running with ⟨layout, present, placed⟩
    have unique := (line.valid layout present).ids
    have listed : id ∈ layout.paneIds := by
      rw [SharedLayout.paneIds_eq]
      exact List.mem_map_of_mem placed
    refine ⟨layout, present, ?_, List.count_eq_one_of_mem unique listed⟩
    apply List.count_eq_one_of_mem _ placed
    rw [SharedLayout.paneIds_eq] at unique
    exact unique.of_map

def emptyRun : LayoutRun :=
  { server := { sessionName := "work" }, start := none, startRev := 0 }

theorem emptyRun_initial : runs.initial emptyRun :=
  ⟨{ unattended := ⟨rfl, rfl⟩
     document := fun layout present => by cases present
     empty := fun _ => rfl }, rfl, rfl, rfl⟩

end LayoutRun

namespace SessionServer

def willingHost : Surroundings :=
  ⟨{ start := fun _ => .ok (some 1) }, fun _ => (none, {}), fun _ _ _ => none, fun _ => 0⟩

/-- A `split` of a session nobody is attached to; then client 1 attaches and commits the document
with the pane twice, the second time on the revision of the first. -/
def twoWriters : List SessionEvent :=
  [.write willingHost (.control (.newPane {})), .lease .accept,
    .lease (.control 0 1 (.attach {
      session := "work", protocolVersion, minProtocolVersion := minSupportedProtocol
      label := "desk", readOnly := false, sharesFilesystem := true
      expectedServerNonce := none }) {}),
    .write willingHost (.commit 1 1 (onePane 1) false),
    .write willingHost (.commit 1 1 (onePane 1) false)]

end SessionServer

namespace LayoutRun

theorem reachable_foldl (events : List SessionEvent) (reached : runs.Reachable run) :
    runs.Reachable (events.foldl after run) := by
  induction events generalizing run with
  | nil => exact reached
  | cons event events ih => exact ih (reached.next event rfl)

theorem twoWriters_published :
    (SessionServer.twoWriters.foldl after emptyRun).published.map
        (fun entry => (entry.2.rev, entry.2.author)) = [(1, SessionServer.serverLayoutAuthor), (2, 1)] := by
  decide +kernel

theorem revisions_serialized_twoWriters :
    (SessionServer.twoWriters.foldl after emptyRun).published.map
        (fun entry => (entry.2.rev, entry.2.author)) = [(1, SessionServer.serverLayoutAuthor), (2, 1)] ∧
      (SessionServer.twoWriters.foldl after emptyRun).Serialized :=
  ⟨twoWriters_published, revisions_serialized _ (reachable_foldl _ (.begin emptyRun_initial))⟩

end LayoutRun

end Rozi
