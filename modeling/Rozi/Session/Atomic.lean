import Rozi.Session.HeadlessOutcome

/-!
A write to the shared session either happens or leaves the session as it was, with two exceptions: a
client's spawn that replaces an exited pane and does not start, and a command whose reply does not
fit a frame.
-/

namespace Rozi

inductive SharedWrite where
  | commit (client : ClientId) (baseRev : Nat) (layout : SharedLayout) (live : Bool)
  | spawn (client : ClientId) (spawn : SessionServer.SpawnPane)
  | control (command : ControlCommand)
  deriving DecidableEq, Repr

namespace SessionServer

structure Answered where
  server : SessionServer
  messages : Outgoing
  response : Option ControlResponse

def write (server : SessionServer) (surroundings : Surroundings) (write : SharedWrite) :
    Answered :=
  match write with
  | .commit client baseRev layout live =>
      let (server, messages) := server.handleCommitLayout client baseRev layout live
      { server, messages, response := none }
  | .spawn client spawn =>
      let (server, messages) := server.handleSpawnPane surroundings.host client spawn
      { server, messages, response := none }
  | .control command =>
      let (server, messages, response) := server.handleControl surroundings command
      { server, messages, response := some (surroundings.message response) }

/-- The messages that refuse a write. -/
def refuses : Target × ServerMessage → Bool
  | (_, .layoutRejected _ _) => true
  | (_, .spawnResult _ _ _ _ ok _) => !ok
  | _ => false

def Answered.refused (answered : Answered) : Bool :=
  answered.messages.any refuses || answered.response.any fun response => !response.isOk

structure SameShared (before after : SessionServer) : Prop where
  layout : after.layout = before.layout
  layoutRev : after.layoutRev = before.layoutRev
  panes : ∀ id, (after.panes.lookup id).map ServerPane.generation =
    (before.panes.lookup id).map ServerPane.generation

/-- The spawn of a client replaces an exited pane: its placement is accepted, its launch could run,
and no process starts. -/
structure LosesExited (server : SessionServer) (host : Host) (client : ClientId)
    (spawn : SpawnPane) : Prop where
  shared : spawn.isLocal = false
  allowed : server.maySpawnShared client = true
  placed : ∃ placement, spawn.placement = some placement ∧
    server.acceptsPlacement (spawn.request client) placement = true
  runnable : (spawn.request client).launchError = none
  exited : ∃ pane code, server.panes.lookup spawn.paneId = some pane ∧ pane.exited = some code
  stopped : (host.start spawn.launch).toOption = none

variable {server : SessionServer}

theorem SameShared.refl (server : SessionServer) : SameShared server server where
  layout := rfl
  layoutRev := rfl
  panes := fun _ => rfl

section commit

theorem publish_not_refused (layout : SharedLayout) (author : ClientId) (live : Bool) :
    (server.publishSharedLayout layout author live).2.any refuses = false := rfl

theorem commit_atomic (client : ClientId) (baseRev : Nat) (layout : SharedLayout) (live : Bool)
    (refused : (server.handleCommitLayout client baseRev layout live).2.any refuses = true) :
    SameShared server (server.handleCommitLayout client baseRev layout live).1 := by
  unfold handleCommitLayout at refused ⊢
  split_ifs at refused ⊢
  · exact .refl server
  · exact .refl server
  · rw [publish_not_refused] at refused
    cases refused

end commit

section spawn

variable {host : Host} {request : SpawnRequest} {author : ClientId}

/-- The author may spawn, for the session, and the placement fits. -/
structure Admits (server : SessionServer) (request : SpawnRequest) (author : ClientId)
    (placement : SpawnPlacementCommit) : Prop where
  allowed : server.maySpawnShared author = true
  unowned : request.owner = none
  placed : server.acceptsPlacement request placement = true

inductive SharedSpawnOutcome (server : SessionServer) (host : Host) (request : SpawnRequest)
    (placement : Option SpawnPlacementCommit) (author : ClientId) :
    SessionServer × Outgoing × ServerMessage → Prop
  | refused (error : String) {messages : Outgoing}
      (quiet : messages = [] ∨ messages = [server.layoutRejected])
      (why : (∀ given, placement = some given → ¬ server.Admits request author given) ∨
        request.launchError.isSome = true ∨ server.occupied request = true) :
      SharedSpawnOutcome server host request placement author
        (server, messages, request.refused error)
  | failed {given : SpawnPlacementCommit} {error : String} (present : placement = some given)
      (admitted : server.Admits request author given) (runnable : request.launchError = none)
      (free : server.occupied request = false)
      (stopped : (host.startPane request).outcome = .error error) :
      SharedSpawnOutcome server host request placement author
        (server.cleared request, [], request.refused error)
  | started {given : SpawnPlacementCommit} {pid : Option Nat} (present : placement = some given)
      (admitted : server.Admits request author given) (runnable : request.launchError = none)
      (free : server.occupied request = false)
      (running : (host.startPane request).outcome = .ok pid) :
      SharedSpawnOutcome server host request placement author
        ((((server.cleared request).insertOwnedPane none request.paneId
            (installed host request)).publishSharedLayout given.layout author false).1,
          [(.broadcast, .paneMetadata false (paneMetadata request.paneId (installed host request))),
            (.broadcast, .layoutCommitted (server.layoutRev + 1) author given.layout false)],
          request.accepted pid)

theorem spawnSharedPane_outcome (server : SessionServer) (host : Host) (request : SpawnRequest)
    (placement : Option SpawnPlacementCommit) (author : ClientId) :
    SharedSpawnOutcome server host request placement author
      (server.spawnSharedPane host request placement author) := by
  unfold spawnSharedPane
  split_ifs with refused
  · refine .refused _ (.inl rfl) (.inl ?_)
    intro given _ admitted
    simp [admitted.allowed, admitted.unowned] at refused
  · simp only [Bool.or_eq_true, not_or, Bool.not_eq_true', Bool.not_eq_false] at refused
    rcases refused with ⟨allowed, unowned⟩
    cases placement with
    | none => exact .refused _ (.inl rfl) (.inl fun _ none => by cases none)
    | some given =>
        simp only
        split_ifs with unfit
        · refine .refused _ (.inr rfl) (.inl ?_)
          intro other same admitted
          cases same
          simp [admitted.placed] at unfit
        · have admitted : server.Admits request author given :=
            { allowed := allowed
              unowned := by simpa using unowned
              placed := by simpa using unfit }
          have outcome := installPane_outcome server host request false
          unfold spawnPane
          generalize installs : server.installPane host request false = result at outcome
          cases outcome with
          | refused error kept => exact .refused error (.inl rfl) (.inr kept)
          | failed runnable free stopped => exact .failed rfl admitted runnable free stopped
          | started runnable free running =>
              have shown : SharedSpawnOutcome server host request (some given) author _ :=
                .started rfl admitted runnable free running
              simp only [SpawnRequest.accepted]
              simpa only [insertOwnedPane, admitted.unowned, AList.lookup_insert,
                Option.toList_some, List.map_cons, List.map_nil, List.singleton_append,
                publishSharedLayout, cleared, raiseGeneration, removeOwnedPane, SpawnRequest.accepted]
                using shown

theorem cleared_lookup (unowned : request.owner = none) (id : PaneId) :
    (server.cleared request).panes.lookup id =
      if id = request.paneId then none else server.panes.lookup id := by
  simp only [cleared, raiseGeneration, removeOwnedPane, unowned]
  by_cases own : id = request.paneId
  · subst own
    rw [if_pos rfl, AList.lookup_erase]
  · rw [if_neg own, AList.lookup_erase_ne own]

/-- Clearing changes nothing exactly when there was nothing to replace. -/
theorem cleared_same_iff (unowned : request.owner = none) :
    SameShared server (server.cleared request) ↔ server.panes.lookup request.paneId = none := by
  constructor
  · intro same
    have kept := same.panes request.paneId
    rw [cleared_lookup unowned, if_pos rfl] at kept
    exact Option.map_eq_none_iff.mp kept.symm
  · intro absent
    refine ⟨?_, ?_, ?_⟩
    · simp [cleared, raiseGeneration, removeOwnedPane, unowned]
    · simp [cleared, raiseGeneration, removeOwnedPane, unowned]
    · intro id
      rw [cleared_lookup unowned]
      split_ifs with own
      · rw [own, absent]
      · rfl

theorem installPane_owned {owner : ClientId} (owned : request.owner = some owner)
    (retainOnFailure : Bool) :
    SameShared server (server.installPane host request retainOnFailure).1 := by
  have outcome := installPane_outcome server host request retainOnFailure
  generalize server.installPane host request retainOnFailure = result at outcome
  have same : SameShared server (server.cleared request) := by
    simp only [cleared, raiseGeneration, removeOwnedPane, owned]
    exact ⟨rfl, rfl, fun _ => rfl⟩
  have inserted : ∀ pane, SameShared server
      ((server.cleared request).insertOwnedPane request.owner request.paneId pane) := by
    intro pane
    simp only [cleared, raiseGeneration, removeOwnedPane, insertOwnedPane, owned]
    exact ⟨rfl, rfl, fun _ => rfl⟩
  cases outcome with
  | refused _ _ => exact .refl server
  | started _ _ _ => exact inserted _
  | failed _ _ _ =>
      simp only
      split_ifs
      · exact inserted _
      · exact same

theorem localSpawn_atomic (client : ClientId) (spawn : SpawnPane) (owned : spawn.isLocal = true) :
    SameShared server (server.handleLocalSpawn host client spawn).1 := by
  unfold handleLocalSpawn
  split_ifs
  · exact .refl server
  · exact .refl server
  · have own : (spawn.request client).owner = some client := by simp [SpawnPane.request, owned]
    exact installPane_owned own false

theorem startPane_request (host : Host) (client : ClientId) (spawn : SpawnPane) :
    (host.startPane (spawn.request client)).outcome = host.start spawn.launch := rfl

theorem LosesExited.failed {client : ClientId} {spawn : SpawnPane}
    (loses : LosesExited server host client spawn) :
    (∃ given, spawn.placement = some given ∧
      server.Admits (spawn.request client) client given) ∧
    server.occupied (spawn.request client) = false ∧
    ∃ error, (host.startPane (spawn.request client)).outcome = .error error := by
  have unowned : (spawn.request client).owner = none := by simp [SpawnPane.request, loses.shared]
  rcases loses.placed with ⟨given, present, placed⟩
  rcases loses.exited with ⟨pane, code, found, exited⟩
  have stopped := loses.stopped
  refine ⟨⟨given, present, loses.allowed, unowned, placed⟩, ?_, ?_⟩
  · have named : server.pane (spawn.request client).owner (spawn.request client).paneId =
        some pane := by
      rw [unowned]
      exact found
    simp [occupied, named, exited]
  · rw [startPane_request]
    cases outcome : host.start spawn.launch with
    | ok pid => simp [outcome, Except.toOption] at stopped
    | error error => exact ⟨error, rfl⟩

/-- A spawn that got as far as its process loses the pane it was to replace. -/
theorem LosesExited.of_failed {client : ClientId} {spawn : SpawnPane}
    {given : SpawnPlacementCommit} {error : String} {pane : ServerPane}
    (shared : spawn.isLocal = false) (present : spawn.placement = some given)
    (admitted : server.Admits (spawn.request client) client given)
    (runnable : (spawn.request client).launchError = none)
    (free : server.occupied (spawn.request client) = false)
    (stopped : (host.startPane (spawn.request client)).outcome = .error error)
    (found : server.panes.lookup spawn.paneId = some pane) :
    LosesExited server host client spawn where
  shared := shared
  allowed := admitted.allowed
  placed := ⟨given, present, admitted.placed⟩
  runnable := runnable
  exited := by
    have named : server.pane (spawn.request client).owner (spawn.request client).paneId =
        some pane := by
      rw [admitted.unowned]
      exact found
    cases exited : pane.exited with
    | none => simp [occupied, named, exited] at free
    | some code => exact ⟨pane, code, found, exited⟩
  stopped := by
    rw [startPane_request] at stopped
    rw [stopped]
    rfl

/-- The spawn of a shared pane is atomic except when it loses the exited pane it replaces. -/
theorem sharedSpawn_atomic_iff (client : ClientId) (spawn : SpawnPane)
    (shared : spawn.isLocal = false) :
    ((server.handleSharedSpawn host client spawn).2.any refuses = true →
      SameShared server (server.handleSharedSpawn host client spawn).1) ↔
    ¬ LosesExited server host client spawn := by
  have unowned : (spawn.request client).owner = none := by simp [SpawnPane.request, shared]
  have outcome := spawnSharedPane_outcome server host (spawn.request client) spawn.placement client
  unfold handleSharedSpawn
  generalize server.spawnSharedPane host (spawn.request client) spawn.placement client = result
    at outcome
  cases outcome with
  | refused error quiet why =>
      refine iff_of_true (fun _ => .refl server) ?_
      intro loses
      rcases loses.failed with ⟨⟨given, present, admits⟩, free, _⟩
      rcases why with unfit | unrunnable | taken
      · exact unfit given present admits
      · rw [loses.runnable] at unrunnable
        cases unrunnable
      · rw [free] at taken
        cases taken
  | started present admitted runnable free running =>
      refine iff_of_true ?_ ?_
      · intro refused
        simp [refuses, isSpawned, SpawnRequest.accepted] at refused
      · intro loses
        rcases loses.failed with ⟨_, _, error, stopped⟩
        rw [stopped] at running
        cases running
  | @failed given error present admitted runnable free stopped =>
      have answered : (((.sender, (spawn.request client).refused error) :: ([] : Outgoing) ++
          if !isSpawned ((spawn.request client).refused error) &&
            !([] : Outgoing).any isLayoutRejected then
              [(server.cleared (spawn.request client)).layoutRejected] else []) : Outgoing).any
          refuses = true := by
        simp [refuses, SpawnRequest.refused]
      rw [imp_iff_right answered]
      change SameShared server (server.cleared (spawn.request client)) ↔ _
      rw [cleared_same_iff unowned]
      constructor
      · intro absent loses
        rcases loses.exited with ⟨pane, _, found, _⟩
        have missing : server.panes.lookup spawn.paneId = none := absent
        rw [found] at missing
        cases missing
      · intro kept
        by_contra present'
        rcases Option.ne_none_iff_exists'.mp present' with ⟨pane, found⟩
        exact kept (.of_failed shared present admitted runnable free stopped found)

theorem spawn_atomic_iff (client : ClientId) (spawn : SpawnPane) :
    ((server.handleSpawnPane host client spawn).2.any refuses = true →
      SameShared server (server.handleSpawnPane host client spawn).1) ↔
    ¬ LosesExited server host client spawn := by
  unfold handleSpawnPane
  cases shared : spawn.isLocal with
  | true =>
      refine iff_of_true (fun _ => localSpawn_atomic client spawn shared) ?_
      intro loses
      rw [loses.shared] at shared
      cases shared
  | false => exact sharedSpawn_atomic_iff client spawn shared

end spawn

section control

variable {surroundings : Surroundings}

def editOf (server : SessionServer) (surroundings : Surroundings) :
    ControlCommand → Option (Requested ((SharedLayout × Bool) × Nat))
  | .layoutSet workspace layout masterRatio ifRevision =>
      some (server.sessionLayoutSet workspace layout masterRatio ifRevision)
  | .paneSet target floating fullscreen rect rectFraction splitRatio widthRatio ifRevision =>
      some (server.sessionPaneSet surroundings.geometry target
        (PaneEdit.validate floating fullscreen rect rectFraction splitRatio widthRatio) ifRevision)
  | .paneMove target workspace ifRevision =>
      some (server.sessionPaneMove target workspace ifRevision)
  | .paneSwap target other ifRevision => some (server.sessionPaneSwap target other ifRevision)
  | .paneClose _ _ | .newPane _ => none

/-- A command that changes the session: it passes its checks, its edit changes the document or its
process starts. The answer is the one it is given. -/
inductive Accepts (server : SessionServer) (surroundings : Surroundings) :
    ControlCommand → ControlAnswer → Prop
  | edit {command : ControlCommand} {layout : SharedLayout} {index : Nat}
      {workspace : SharedWorkspace}
      (asked : server.editOf surroundings command = some (.ok ((layout, true), index)))
      (described : reported layout index = some workspace) :
      Accepts server surroundings command
        (.layoutChange true (some (server.layoutRev + 1)) workspace)
  | closeUnplaced {target : PaneId} {ifRevision : Option Nat}
      (closes : server.closing target ifRevision = .ok none) :
      Accepts server surroundings (.paneClose target ifRevision)
        (.paneClosed target server.revision none)
  | closePlaced {target : PaneId} {ifRevision : Option Nat} {layout : SharedLayout} {index : Nat}
      (closes : server.closing target ifRevision = .ok (some (layout, index))) :
      Accepts server surroundings (.paneClose target ifRevision)
        (.paneClosed target (some (server.layoutRev + 1)) (reported layout index))
  | split {spawn : SessionSpawn} {prepared : PreparedSpawn} {pid : Option Nat}
      (prepares : server.prepareNewPane surroundings.rules spawn = .ok prepared)
      (admitted : server.Admits prepared.request serverLayoutAuthor prepared.placement)
      (runnable : prepared.request.launchError = none)
      (running : (surroundings.host.startPane prepared.request).outcome = .ok pid) :
      Accepts server surroundings (.newPane spawn)
        (.newPaneAccepted prepared.request.paneId true)

theorem handleControl_edit {command : ControlCommand}
    {edit : Requested ((SharedLayout × Bool) × Nat)}
    (asked : server.editOf surroundings command = some edit) :
    server.handleControl surroundings command = server.headlessEdit edit := by
  cases command with
  | paneClose _ _ => cases asked
  | newPane _ => cases asked
  | _ =>
      cases asked
      rfl

theorem editOf_sound {command : ControlCommand} {edited : SharedLayout × Bool} {index : Nat}
    (asked : server.editOf surroundings command = some (.ok (edited, index))) :
    ∃ before, server.StartsFrom before ∧ EditOf before command edited index := by
  cases command with
  | layoutSet _ _ _ _ => exact sessionLayoutSet_edits (Option.some.inj asked)
  | paneSet _ _ _ _ _ _ _ _ => exact sessionPaneSet_edits (Option.some.inj asked)
  | paneMove _ _ _ => exact sessionPaneMove_edits (Option.some.inj asked)
  | paneSwap _ _ _ => exact sessionPaneSwap_edits (Option.some.inj asked)
  | paneClose _ _ => cases asked
  | newPane _ => cases asked

theorem reported_isSome {layout : SharedLayout} {index : Nat}
    (present : layout.HasWorkspace index) : ∃ workspace, reported layout index = some workspace := by
  rcases List.mem_map.mp present with ⟨workspace, member, same⟩
  apply Option.isSome_iff_exists.mp
  unfold reported
  rw [Option.isSome_iff_ne_none, Ne, List.getLast?_eq_none_iff]
  apply List.ne_nil_of_mem (a := workspace)
  exact List.mem_filter.mpr ⟨member, by simpa using same⟩

/-- A command that changed the document is never refused by its own checks. -/
theorem headlessEdit_atomic {command : ControlCommand}
    {edit : Requested ((SharedLayout × Bool) × Nat)}
    (asked : server.editOf surroundings command = some edit) :
    (∃ answer, (server.headlessEdit edit).2.2 = .ok answer ∧
      server.Accepts surroundings command answer) ∨
    SameShared server (server.headlessEdit edit).1 := by
  cases edit with
  | error error => exact .inr (.refl server)
  | ok result =>
      rcases result with ⟨⟨layout, changed⟩, index⟩
      cases changed with
      | false => exact .inr (.refl server)
      | true =>
          rcases editOf_sound asked with ⟨_, _, edits⟩
          rcases reported_isSome (edits.described rfl) with ⟨workspace, found⟩
          refine .inl ⟨_, ?_, .edit asked found⟩
          simp only [headlessEdit, headlessLayoutChange]
          rw [found]
          rfl

theorem sessionPaneClose_atomic (target : PaneId) (ifRevision : Option Nat) :
    (∃ answer, (server.sessionPaneClose target ifRevision).2.2 = .ok answer ∧
      server.Accepts surroundings (.paneClose target ifRevision) answer) ∨
    SameShared server (server.sessionPaneClose target ifRevision).1 := by
  unfold sessionPaneClose
  cases closed : server.closing target ifRevision with
  | error error => exact .inr (.refl server)
  | ok left =>
      left
      cases left with
      | none => exact ⟨_, rfl, .closeUnplaced closed⟩
      | some left => exact ⟨_, rfl, .closePlaced closed⟩

/-- A `split` asks for a pane id nobody uses, so that a process that does not start takes nothing
with it. -/
theorem sessionNewPane_atomic (spawn : SessionSpawn) :
    (∃ answer, (server.sessionNewPane surroundings spawn).2.2 = .ok answer ∧
      server.Accepts surroundings (.newPane spawn) answer) ∨
    SameShared server (server.sessionNewPane surroundings spawn).1 := by
  unfold sessionNewPane
  cases passed : server.prepareNewPane surroundings.rules spawn with
  | error error => exact .inr (.refl server)
  | ok prepared =>
      have prepares := prepareNewPane_eq_ok passed
      have outcome := spawnSharedPane_outcome server surroundings.host prepared.request
        (some prepared.placement) serverLayoutAuthor
      simp only
      generalize server.spawnSharedPane surroundings.host prepared.request
        (some prepared.placement) serverLayoutAuthor = result at outcome
      cases outcome with
      | refused _ _ _ => exact .inr (.refl server)
      | failed _ _ _ _ _ => exact .inr ((cleared_same_iff prepares.unowned).mpr prepares.fresh)
      | started present admitted runnable _ running =>
          cases present
          exact .inl ⟨_, rfl, .split passed admitted runnable running⟩

theorem control_accepts (server : SessionServer) (surroundings : Surroundings)
    (command : ControlCommand) :
    (∃ answer, (server.handleControl surroundings command).2.2 = .ok answer ∧
      server.Accepts surroundings command answer) ∨
    SameShared server (server.handleControl surroundings command).1 := by
  cases asked : server.editOf surroundings command with
  | some edit =>
      rw [handleControl_edit asked]
      exact headlessEdit_atomic asked
  | none =>
      cases command with
      | paneClose target ifRevision => exact sessionPaneClose_atomic target ifRevision
      | newPane spawn => exact sessionNewPane_atomic spawn
      | _ => cases asked

theorem Accepts.answered {command : ControlCommand} {answer : ControlAnswer}
    (accepts : server.Accepts surroundings command answer) :
    (server.handleControl surroundings command).2.2 = .ok answer ∧
      ¬ SameShared server (server.handleControl surroundings command).1 := by
  cases accepts with
  | edit asked described =>
      rw [handleControl_edit asked]
      refine ⟨?_, fun same => absurd same.layoutRev (Nat.succ_ne_self _)⟩
      simp only [headlessEdit, headlessLayoutChange]
      rw [described]
      rfl
  | @closeUnplaced target _ closes =>
      simp only [handleControl, sessionPaneClose, closes]
      refine ⟨rfl, fun same => ?_⟩
      rcases (closing_eq_ok closes).present with ⟨pane, found⟩
      have kept := same.panes target
      rw [found] at kept
      simp [removeOwnedPane] at kept
  | closePlaced closes =>
      simp only [handleControl, sessionPaneClose, closes]
      exact ⟨rfl, fun same => absurd same.layoutRev (Nat.succ_ne_self _)⟩
  | @split spawn prepared pid prepares admitted runnable running =>
      have outcome := spawnSharedPane_outcome server surroundings.host prepared.request
        (some prepared.placement) serverLayoutAuthor
      simp only [handleControl, sessionNewPane, prepares]
      generalize server.spawnSharedPane surroundings.host prepared.request
        (some prepared.placement) serverLayoutAuthor = result at outcome
      cases outcome with
      | refused error quiet why =>
          exfalso
          rcases why with unfit | unrunnable | taken
          · exact unfit _ rfl admitted
          · rw [runnable] at unrunnable
            cases unrunnable
          · have absent : server.pane prepared.request.owner prepared.request.paneId = none := by
              rw [admitted.unowned]
              exact (prepareNewPane_eq_ok prepares).fresh
            simp [occupied, absent] at taken
      | failed _ _ _ _ stopped =>
          rw [running] at stopped
          cases stopped
      | started _ _ _ _ _ =>
          refine ⟨rfl, fun same => ?_⟩
          have moved := same.layoutRev
          simp [publishSharedLayout, cleared, raiseGeneration, removeOwnedPane, insertOwnedPane,
            admitted.unowned] at moved

theorem control_refuses (command : ControlCommand)
    (refused : (server.handleControl surroundings command).2.1.any refuses = true) :
    (server.handleControl surroundings command).2.2.isOk = false := by
  have edits : ∀ edit : Requested ((SharedLayout × Bool) × Nat),
      (server.headlessEdit edit).2.1.any refuses = false := by
    intro edit
    rcases edit with error | ⟨⟨layout, changed⟩, index⟩
    · rfl
    · cases changed with
      | false => rfl
      | true => rfl
  cases command with
  | layoutSet workspace layout masterRatio ifRevision =>
      exact absurd refused (by simp only [handleControl, edits, Bool.false_eq_true, not_false_eq_true])
  | paneSet target floating fullscreen rect rectFraction splitRatio widthRatio ifRevision =>
      exact absurd refused (by simp only [handleControl, edits, Bool.false_eq_true, not_false_eq_true])
  | paneMove target workspace ifRevision =>
      exact absurd refused (by simp only [handleControl, edits, Bool.false_eq_true, not_false_eq_true])
  | paneSwap target other ifRevision =>
      exact absurd refused (by simp only [handleControl, edits, Bool.false_eq_true, not_false_eq_true])
  | paneClose target ifRevision =>
      simp only [handleControl, sessionPaneClose] at refused
      cases closed : server.closing target ifRevision with
      | error error => simp [closed, answered] at refused
      | ok left =>
          cases left with
          | none => simp [closed] at refused
          | some left => simp [closed, publish_not_refused] at refused
  | newPane spawn =>
      simp only [handleControl, sessionNewPane] at refused ⊢
      cases passed : server.prepareNewPane surroundings.rules spawn with
      | error error => simp [passed, answered] at refused
      | ok prepared =>
          have outcome := spawnSharedPane_outcome server surroundings.host prepared.request
            (some prepared.placement) serverLayoutAuthor
          rw [passed] at refused
          simp only at refused ⊢
          generalize server.spawnSharedPane surroundings.host prepared.request
            (some prepared.placement) serverLayoutAuthor = result at outcome refused
          cases outcome with
          | refused _ _ _ => rfl
          | failed _ _ _ _ _ => rfl
          | started _ _ _ _ _ => simp [refuses] at refused

/-- A command is atomic except when it changes the session and its reply does not fit a frame. -/
theorem control_atomic_iff (command : ControlCommand) :
    ((server.write surroundings (.control command)).refused = true →
      SameShared server (server.write surroundings (.control command)).server) ↔
    ¬ ∃ answer, server.Accepts surroundings command answer ∧
      surroundings.fits (.ok answer) = false := by
  constructor
  · rintro atomic ⟨answer, accepts, large⟩
    rcases accepts.answered with ⟨response, moved⟩
    apply moved
    apply atomic
    simp [write, Answered.refused, Surroundings.message, response, large, errorWith, Except.isOk,
      Except.toBool]
  · intro fits refused
    rcases control_accepts server surroundings command with ⟨answer, response, accepts⟩ | same
    · exfalso
      have carried : surroundings.fits (.ok answer) = true := by
        by_contra large
        exact fits ⟨answer, accepts, by simpa using large⟩
      rcases Bool.or_eq_true_iff.mp refused with messages | sent
      · have failed := control_refuses command messages
        rw [response] at failed
        cases failed
      · simp [write, Surroundings.message, response, carried, Except.isOk, Except.toBool] at sent
    · exact same

end control

def Loses (server : SessionServer) (surroundings : Surroundings) : SharedWrite → Prop
  | .spawn client spawn => LosesExited server surroundings.host client spawn
  | .control command => ∃ answer, server.Accepts surroundings command answer ∧
      surroundings.fits (.ok answer) = false
  | .commit _ _ _ _ => False

/-- A refused write leaves the session as it was, exactly unless it is a spawn that replaces an
exited pane and does not start, or a command that changes the session and whose reply does not fit a
frame. -/
theorem write_atomic_iff (server : SessionServer) (surroundings : Surroundings)
    (write : SharedWrite) :
    ((server.write surroundings write).refused = true →
      SameShared server (server.write surroundings write).server) ↔
    ¬ server.Loses surroundings write := by
  cases write with
  | commit client baseRev layout live =>
      refine iff_of_true ?_ id
      intro refused
      apply commit_atomic
      simpa [write, Answered.refused] using refused
  | spawn client spawn =>
      simp only [write, Answered.refused, Option.any_none, Bool.or_false]
      exact spawn_atomic_iff client spawn
  | control command => exact control_atomic_iff command

def onePane (generation : Nat) : SharedLayout :=
  { canvasCols := 80
    canvasRows := 24
    workspaces := [{ index := 0, panes := [{ paneId := 1, generation }] }] }

def heldExited : SessionServer :=
  { sessionName := "main"
    nextGeneration := 2
    clients := [{ id := 1, attached := true }]
    controller := some 1
    panes := AList.singleton 1 { generation := 1, cols := 80, rows := 24, exited := some 0 }
    layout := some (onePane 1)
    layoutRev := 1 }

def respawn : SharedWrite :=
  .spawn 1 { placement := some { baseRev := 1, layout := onePane 2 }, paneId := 1, generation := 2 }

def fullHost : Host where
  start := fun _ => .error "no more processes"

theorem refused_respawn_loses_pane :
    ∃ (server : SessionServer) (surroundings : Surroundings) (write : SharedWrite),
      (server.write surroundings write).refused = true ∧
      ¬ SameShared server (server.write surroundings write).server := by
  refine ⟨heldExited, ⟨fullHost, fun _ => (none, {}), fun _ _ _ => none, fun _ => 0⟩, respawn, by decide +kernel, ?_⟩
  intro same
  have kept := same.panes 1
  revert kept
  decide +kernel

end SessionServer

end Rozi
