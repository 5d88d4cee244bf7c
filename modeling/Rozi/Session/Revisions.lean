import Rozi.Session.Atomic

/-!
The document of a session over whole runs: every publication takes the next revision and is derived
from the document of the one before it, and the document that stands places every running pane.
-/

namespace Rozi

inductive SessionEvent where
  | lease (label : LeaseLabel)
  | write (surroundings : Surroundings) (write : SharedWrite)
  | kill (client : ClientId) (id : PaneId) (isLocal : Bool) (generation : Nat)
  | exited (host : Host) (id : PaneId) (generation : Nat) (code : Int) (recently : Bool)

def SharedWrite.sender : SharedWrite → Option ClientId
  | .commit client _ _ _ => some client
  | .spawn client _ => some client
  | .control _ => none

structure Publication where
  rev : Nat
  author : ClientId
  layout : SharedLayout
  deriving DecidableEq, Repr

def publication : Target × ServerMessage → Option Publication
  | (_, .layoutCommitted rev author layout _) => some { rev, author, layout }
  | _ => none

namespace SessionServer

variable (server : SessionServer)

/-- The server after an event, and what it sends. A client is heard only once it is attached. -/
def sessionStep : SessionEvent → SessionServer × Outgoing
  | .lease label => (server.leaseStep label, [])
  | .write surroundings write =>
      if write.sender.all fun client => server.acceptsClientControl client (.other false) then
        let answered := server.write surroundings write
        (answered.server, answered.messages)
      else (server, [])
  | .kill client id isLocal generation =>
      (if server.acceptsClientControl client (.other false) then
        server.handleKill client id isLocal generation else server, [])
  | .exited host id generation code recently =>
      server.paneExited id host generation code recently

def Removes (server : SessionServer) : SessionEvent → PaneId → Prop
  | .kill client target isLocal generation, id =>
      isLocal = false ∧ server.isController client = true ∧ server.clientAttached client = true ∧
        server.holdsPane target generation = true ∧ id = target
  | .write surroundings (.spawn client spawn), id =>
      LosesExited server surroundings.host client spawn ∧ id = spawn.paneId
  | _, _ => False

def Replaces : SessionEvent → Prop
  | .write _ (.commit _ _ _ _) | .write _ (.spawn _ _) => True
  | _ => False

inductive DerivedFrom (before : Option SharedLayout) (baseRev : Nat) :
    SessionEvent → SharedLayout → Prop
  | commit {surroundings : Surroundings} {client : ClientId} {layout : SharedLayout}
      {live : Bool} :
      DerivedFrom before baseRev (.write surroundings (.commit client baseRev layout live)) layout
  | spawn {surroundings : Surroundings} {client : ClientId} {spawn : SpawnPane}
      {layout : SharedLayout} (placed : spawn.placement = some { baseRev, layout }) :
      DerivedFrom before baseRev (.write surroundings (.spawn client spawn)) layout
  | edit {surroundings : Surroundings} {command : ControlCommand} {layout : SharedLayout}
      (applied : AppliedTo (before.getD emptyLayout) command (layout, true)) :
      DerivedFrom before baseRev (.write surroundings (.control command)) layout
  | close {surroundings : Surroundings} {target : PaneId} {ifRevision : Option Nat}
      {stood layout : SharedLayout} {index : Nat} (present : before = some stood)
      (removed : stood.removePane target = some (layout, index)) :
      DerivedFrom before baseRev (.write surroundings (.control (.paneClose target ifRevision)))
        layout
  | split {surroundings : Surroundings} {spawn : SessionSpawn} (index : Nat) (pane : SharedPane) :
      DerivedFrom before baseRev (.write surroundings (.control (.newPane spawn)))
        (layoutWithPane (before.getD emptyLayout) index pane)

def DocumentValid (server : SessionServer) : Prop :=
  ∀ layout ∈ server.layout, layout.Valid

def RunningPlaced (server : SessionServer) : Prop :=
  ∀ id pane, server.panes.lookup id = some pane → pane.exited = none →
    ∃ layout ∈ server.layout, (id, pane.generation) ∈ layout.placements

def PlacedHeld (server : SessionServer) : Prop :=
  ∀ layout ∈ server.layout, ∀ entry ∈ layout.placements, server.holdsPane entry.1 entry.2 = true

structure Fits (server : SessionServer) (layout : SharedLayout) : Prop where
  held : ∀ entry ∈ layout.placements, server.holdsPane entry.1 entry.2 = true
  running : ∀ id pane, server.panes.lookup id = some pane → pane.exited = none →
    (id, pane.generation) ∈ layout.placements

inductive SessionOutcome (server : SessionServer) (event : SessionEvent) :
    SessionServer × Outgoing → Prop
  | quiet {next : SessionServer} {messages : Outgoing}
      (silent : messages.filterMap publication = []) (layout : next.layout = server.layout)
      (layoutRev : next.layoutRev = server.layoutRev)
      (kept : ∀ id pane, next.panes.lookup id = some pane → ∃ old,
        server.panes.lookup id = some old ∧ old.generation = pane.generation ∧
          (pane.exited = none → old.exited = none))
      (lost : ∀ id generation, server.holdsPane id generation = true →
        next.holdsPane id generation = true ∨ server.Removes event id ∨
          ∀ layout ∈ server.layout, id ∉ layout.paneIds) :
      SessionOutcome server event (next, messages)
  | published {next : SessionServer} {messages : Outgoing} {author : ClientId}
      {layout : SharedLayout}
      (sent : messages.filterMap publication = [{ rev := server.layoutRev + 1, author, layout }])
      (stands : next.layout = some layout) (layoutRev : next.layoutRev = server.layoutRev + 1)
      (derived : DerivedFrom server.layout server.layoutRev event layout)
      (valid : server.DocumentValid → layout.Valid)
      (running : server.DocumentValid → server.RunningPlaced → next.RunningPlaced)
      (held : server.DocumentValid → Replaces event ∨ server.PlacedHeld → next.PlacedHeld) :
      SessionOutcome server event (next, messages)

structure Undisturbed (before after : SessionServer) : Prop where
  panes : after.panes = before.panes
  layout : after.layout = before.layout
  layoutRev : after.layoutRev = before.layoutRev

end SessionServer

section lease

namespace SessionServer

theorem Undisturbed.refl (server : SessionServer) : Undisturbed server server := ⟨rfl, rfl, rfl⟩

theorem Undisturbed.trans {first second third : SessionServer}
    (earlier : Undisturbed first second) (later : Undisturbed second third) :
    Undisturbed first third :=
  ⟨later.panes.trans earlier.panes, later.layout.trans earlier.layout,
    later.layoutRev.trans earlier.layoutRev⟩

theorem Undisturbed.ite {before first second : SessionServer} (condition : Prop)
    [Decidable condition] (taken : Undisturbed before first) (other : Undisturbed before second) :
    Undisturbed before (if condition then first else second) := by
  split_ifs
  · exact taken
  · exact other

theorem Undisturbed.setCloseAfterFlush {before after : SessionServer}
    (kept : Undisturbed before after) (id : ClientId) :
    Undisturbed before (after.setCloseAfterFlush id) :=
  ⟨kept.panes, kept.layout, kept.layoutRev⟩

variable (server : SessionServer)

theorem assignController_undisturbed (recipient : ClientId) (reason : ControllerChangeReason) :
    Undisturbed server (server.assignController recipient reason).1 := ⟨rfl, rfl, rfl⟩

theorem promote_undisturbed {after : SessionServer} (kept : Undisturbed server after) :
    Undisturbed server after.promote := by
  refine kept.trans ?_
  unfold promote
  cases after.promotionCandidate with
  | none => exact ⟨rfl, rfl, rfl⟩
  | some promoted => exact ⟨rfl, rfl, rfl⟩

theorem removeClientWithReason_undisturbed (id : ClientId) (reason : ControllerChangeReason) :
    Undisturbed server (server.removeClientWithReason id reason).1 := by
  unfold removeClientWithReason
  cases server.client id with
  | none => exact .refl server
  | some removed =>
      simp only
      split_ifs
      · exact ⟨rfl, rfl, rfl⟩
      all_goals first
        | exact ⟨rfl, rfl, rfl⟩
        | exact promote_undisturbed server ⟨rfl, rfl, rfl⟩

theorem dropClients_undisturbed (full : List ClientId) :
    Undisturbed server (server.dropClients full) := by
  unfold dropClients
  induction full generalizing server with
  | nil => exact .refl server
  | cons id full ih =>
      exact (removeClientWithReason_undisturbed server id .granted).trans (ih (server.removeClient id))

theorem handleRequestControl_undisturbed (now : Instant) (clientId : ClientId) :
    Undisturbed server (server.handleRequestControl now clientId).1 := by
  unfold handleRequestControl
  split_ifs
  · exact .refl server
  · exact .refl server
  all_goals
    cases server.controller with
    | none => exact assignController_undisturbed server clientId .granted
    | some controller =>
        simp only
        first
          | exact assignController_undisturbed server clientId .granted
          | (cases server.client clientId with
            | none => exact .refl server
            | some client => exact ⟨rfl, rfl, rfl⟩)

theorem handleSetParked_undisturbed (clientId : ClientId) (parked : Bool) :
    Undisturbed server (server.handleSetParked clientId parked).1 := by
  unfold handleSetParked
  split
  · exact .refl server
  · simp only
    split_ifs
    · exact promote_undisturbed server ⟨rfl, rfl, rfl⟩
    · exact ⟨rfl, rfl, rfl⟩
    · exact ⟨rfl, rfl, rfl⟩

theorem handleAttach_undisturbed (clientId : ClientId) (request : AttachRequest)
    (mediaFull greetingFull : List ClientId) :
    Undisturbed server (server.handleAttach clientId request mediaFull greetingFull).1 := by
  unfold handleAttach
  cases server.checkAttach request with
  | error refusal => exact .refl server
  | ok effective =>
      have joined : ∀ server : SessionServer,
          Undisturbed server (server.joinReader clientId request effective).1 := by
        intro server
        unfold joinReader
        simp only
        split_ifs <;> exact ⟨rfl, rfl, rfl⟩
      exact ((dropClients_undisturbed server mediaFull).trans (joined _)).trans
        (dropClients_undisturbed _ greetingFull)

theorem handleMessage_undisturbed (now : Instant) (clientId : ClientId) (message : ClientMessage)
    (full : FullOutboxes) :
    Undisturbed server (server.handleMessage now clientId message full).1 := by
  cases message with
  | attach request => exact handleAttach_undisturbed server clientId request _ _
  | detach => exact .refl server
  | other query => exact .refl server
  | setParked parked => exact handleSetParked_undisturbed server clientId parked
  | requestControl => exact handleRequestControl_undisturbed server now clientId
  | grantControl recipient =>
      simp only [handleMessage, handleGrantControl]
      split_ifs
      · exact .refl server
      · exact ⟨rfl, rfl, rfl⟩
  | declineControl recipient =>
      simp only [handleMessage, handleDeclineControl]
      split_ifs
      · exact .refl server
      · split <;> exact ⟨rfl, rfl, rfl⟩
  | setControlTakeover allowed =>
      simp only [handleMessage, handleSetControlTakeover]
      split_ifs <;> exact ⟨rfl, rfl, rfl⟩
  | evictClient target =>
      simp only [handleMessage, handleEvictClient]
      split_ifs <;> exact ⟨rfl, rfl, rfl⟩

theorem leaseStep_undisturbed (label : LeaseLabel) :
    Undisturbed server (server.leaseStep label) := by
  cases label with
  | accept => exact ⟨rfl, rfl, rfl⟩
  | lost id reason => exact removeClientWithReason_undisturbed server id reason
  | control now id message full =>
      simp only [leaseStep, processClientControlNow]
      have begun : Undisturbed server
          (if message.isAttach then server.dropClients full.events else server) := by
        split_ifs
        · exact dropClients_undisturbed server full.events
        · exact .refl server
      refine begun.trans ?_
      generalize (if message.isAttach then server.dropClients full.events else server) = server
      have dropped := dropClients_undisturbed server full.responses
      have handled := (handleMessage_undisturbed server now id message full).trans
        (dropClients_undisturbed _ full.responses)
      have refusedAttach := Undisturbed.ite
        (message.isAttach && !((server.handleMessage now id message full).1.dropClients
          full.responses).clientAttached id) (handled.setCloseAfterFlush id) handled
      have answered := Undisturbed.ite message.isQuery (refusedAttach.setCloseAfterFlush id)
        refusedAttach
      exact .ite _ (dropped.setCloseAfterFlush id) (.ite _
        (answered.trans (removeClientWithReason_undisturbed _ id .granted)) answered)

end SessionServer

end lease

section outcome

namespace SessionServer

variable {server next : SessionServer} {event : SessionEvent} {messages : Outgoing}

theorem SessionOutcome.undisturbed (silent : messages.filterMap publication = [])
    (same : Undisturbed server next) : SessionOutcome server event (next, messages) := by
  refine .quiet silent same.layout same.layoutRev ?_ ?_
  · intro id pane found
    rw [same.panes] at found
    exact ⟨pane, found, rfl, fun running => running⟩
  · intro id generation held
    refine .inl ?_
    unfold holdsPane
    rw [same.panes]
    exact held

theorem holdsPane_iff {id generation : Nat} : server.holdsPane id generation = true ↔
    ∃ pane, server.panes.lookup id = some pane ∧ pane.generation = generation := by
  simp [holdsPane, Option.any_eq_true]

/-- In a document that lists no pane twice, a pane is placed under the generation it is listed
with. -/
theorem placedGeneration_eq {layout : SharedLayout} (unique : layout.paneIds.Nodup)
    {id generation : Nat} :
    layout.placedGeneration id = some generation ↔ (id, generation) ∈ layout.placements := by
  unfold SharedLayout.placedGeneration
  constructor
  · intro placed
    rcases Option.map_eq_some_iff.mp placed with ⟨entry, found, same⟩
    have named := List.find?_some found
    have listed := List.mem_reverse.mp (List.mem_of_find?_eq_some found)
    simp only [beq_iff_eq] at named
    rw [← named, ← same]
    exact listed
  · intro listed
    cases found : layout.placements.reverse.find? fun entry => entry.1 == id with
    | none =>
        have missing := List.find?_eq_none.mp found _ (List.mem_reverse.mpr listed)
        simp at missing
    | some entry =>
        have named := List.find?_some found
        have other := List.mem_reverse.mp (List.mem_of_find?_eq_some found)
        simp only [beq_iff_eq] at named
        rw [SharedLayout.paneIds_eq] at unique
        have same : entry = (id, generation) :=
          List.inj_on_of_nodup_map unique other listed named
        rw [same]
        rfl

theorem fits_of_validated {layout : SharedLayout}
    (checked : server.validateSharedLayoutAgainstPanes layout = true) : server.Fits layout := by
  simp only [validateSharedLayoutAgainstPanes, Bool.and_eq_true, List.all_eq_true,
    bne_iff_ne, Bool.or_eq_true, List.contains_iff_mem] at checked
  rcases checked with ⟨named, listed⟩
  constructor
  · intro entry member
    rcases List.mem_map.mp member with ⟨pane, present, same⟩
    rw [← same]
    exact (named pane present).2
  · intro id pane found running
    have entry : Sigma.mk id pane ∈ server.panes.entries := AList.mem_lookup_iff.mp found
    rcases listed _ entry with exited | placed
    · simp [running] at exited
    · rcases List.mem_map.mp placed with ⟨shared, present, same⟩
      rcases holdsPane_iff.mp (named shared present).2 with ⟨holder, there, generation⟩
      have own : shared.paneId = id := same
      rw [own, found] at there
      cases there
      rw [← own, generation]
      exact List.mem_map_of_mem present

/-- A placement that was checked fits the panes once the pane it places is installed. -/
theorem fits_of_spawn {request : SpawnRequest} {layout : SharedLayout} {pane : ServerPane}
    (unique : layout.paneIds.Nodup)
    (checked : server.validateSpawnPlacement layout request = true)
    (own : next.panes.lookup request.paneId = some pane)
    (generation : pane.generation = request.generation)
    (others : ∀ id, id ≠ request.paneId → next.panes.lookup id = server.panes.lookup id) :
    next.Fits layout := by
  simp only [validateSpawnPlacement, Bool.and_eq_true, List.all_eq_true, Bool.or_eq_true,
    beq_iff_eq, placedGeneration_eq unique] at checked
  rcases checked with ⟨⟨placed, named⟩, listed⟩
  constructor
  · intro entry member
    have inDocument : entry.1 ∈ layout.paneIds := by
      rw [SharedLayout.paneIds_eq]
      exact List.mem_map_of_mem member
    by_cases same : entry.1 = request.paneId
    · have generations : entry.2 = request.generation := by
        have once := (placedGeneration_eq unique).mpr placed
        have again := (placedGeneration_eq unique).mpr member
        rw [same, once] at again
        exact (Option.some.inj again).symm
      rw [same]
      exact holdsPane_iff.mpr ⟨pane, own, by rw [generation, generations]⟩
    · rcases named entry.1 inDocument with chosen | held
      · exact absurd chosen same
      · rw [(placedGeneration_eq unique).mpr member] at held
        rcases holdsPane_iff.mp held with ⟨holder, there, matching⟩
        exact holdsPane_iff.mpr ⟨holder, by rw [others _ same]; exact there, matching⟩
  · intro id holder found running
    by_cases same : id = request.paneId
    · rw [same] at found ⊢
      rw [own] at found
      cases found
      rw [generation]
      exact placed
    · rw [others _ same] at found
      rcases listed _ (AList.mem_lookup_iff.mp found) with (chosen | exited) | there
      · exact absurd chosen same
      · simp [running] at exited
      · exact there

theorem commit_outcome (surroundings : Surroundings) (client : ClientId) (baseRev : Nat)
    (layout : SharedLayout) (live : Bool) :
    SessionOutcome server (.write surroundings (.commit client baseRev layout live))
      (server.handleCommitLayout client baseRev layout live) := by
  unfold handleCommitLayout
  split_ifs with barred unfit
  · exact .undisturbed rfl (.refl server)
  · exact .undisturbed rfl (.refl server)
  · simp only [Bool.or_eq_true, not_or, bne_iff_ne, ne_eq, not_not, Bool.not_eq_true',
      Bool.not_eq_false] at unfit
    rcases unfit with ⟨⟨current, valid⟩, checked⟩
    have fits := fits_of_validated checked
    cases current
    refine .published rfl rfl rfl .commit ?_ ?_ ?_
    · exact fun _ => SharedLayout.validate_isOk.mp valid
    · intro _ _ id pane found running
      exact ⟨layout, rfl, fits.running id pane found running⟩
    · intro _ _ stood same
      cases same
      exact fits.held

theorem started_outcome {host : Host} {request : SpawnRequest} {author : ClientId}
    {given : SpawnPlacementCommit} {messages : Outgoing}
    (admitted : server.Admits request author given)
    (sent : messages.filterMap publication =
      [{ rev := server.layoutRev + 1, author, layout := given.layout }])
    (derived : DerivedFrom server.layout server.layoutRev event given.layout) :
    SessionOutcome server event
      ((((server.cleared request).insertOwnedPane none request.paneId
          (installed host request)).publishSharedLayout given.layout author false).1, messages) := by
  have placed := admitted.placed
  simp only [acceptsPlacement, Bool.and_eq_true] at placed
  rcases placed with ⟨⟨current, valid⟩, checked⟩
  have sound := SharedLayout.validate_isOk.mp valid
  have kept : (server.cleared request).layoutRev = server.layoutRev := by
    simp [cleared, raiseGeneration, removeOwnedPane, admitted.unowned]
  have others : ∀ id, id ≠ request.paneId →
      ((server.cleared request).insertOwnedPane none request.paneId
        (installed host request)).panes.lookup id = server.panes.lookup id := by
    intro id other
    simp only [insertOwnedPane]
    rw [AList.lookup_insert_ne other, cleared_lookup admitted.unowned, if_neg other]
  have fits : ((server.cleared request).insertOwnedPane none request.paneId
      (installed host request)).Fits given.layout :=
    fits_of_spawn sound.ids checked (AList.lookup_insert _) rfl others
  refine .published sent rfl ?_ derived (fun _ => sound) ?_ ?_
  · simp only [publishSharedLayout, insertOwnedPane, kept]
  · intro _ _ id pane found running
    exact ⟨given.layout, rfl, fits.running id pane found running⟩
  · intro _ _ stood same
    cases same
    exact fits.held

theorem localSpawn_undisturbed (server : SessionServer) (host : Host) (client : ClientId) (spawn : SpawnPane)
    (owned : spawn.isLocal = true) :
    Undisturbed server (server.handleLocalSpawn host client spawn).1 ∧
      (server.handleLocalSpawn host client spawn).2.filterMap publication = [] := by
  have own : (spawn.request client).owner = some client := by simp [SpawnPane.request, owned]
  unfold handleLocalSpawn
  split_ifs with reader placed
  · exact ⟨.refl server, rfl⟩
  · exact ⟨.refl server, rfl⟩
  · have outcome := installPane_outcome server host (spawn.request client) false
    unfold spawnPane
    generalize server.installPane host (spawn.request client) false = result at outcome
    cases outcome with
    | refused _ _ => exact ⟨.refl server, rfl⟩
    | failed _ _ _ =>
        refine ⟨?_, rfl⟩
        simp only [cleared, raiseGeneration, removeOwnedPane, own]
        exact ⟨rfl, rfl, rfl⟩
    | started _ _ _ =>
        constructor
        · simp only [insertOwnedPane, cleared, raiseGeneration, removeOwnedPane, own]
          exact ⟨rfl, rfl, rfl⟩
        · simp only [SpawnRequest.accepted, isSpawned, if_true, List.filterMap_cons]
          cases (pane _ (some client) spawn.paneId) with
          | none => rfl
          | some pane => rfl

theorem spawn_outcome (surroundings : Surroundings) (client : ClientId) (spawn : SpawnPane) :
    SessionOutcome server (.write surroundings (.spawn client spawn))
      (server.handleSpawnPane surroundings.host client spawn) := by
  unfold handleSpawnPane
  cases shared : spawn.isLocal with
  | true =>
      have kept := localSpawn_undisturbed server surroundings.host client spawn shared
      exact .undisturbed kept.2 kept.1
  | false =>
      have unowned : (spawn.request client).owner = none := by simp [SpawnPane.request, shared]
      have outcome := spawnSharedPane_outcome server surroundings.host (spawn.request client)
        spawn.placement client
      simp only [Bool.false_eq_true, if_false, handleSharedSpawn]
      generalize server.spawnSharedPane surroundings.host (spawn.request client) spawn.placement
        client = result at outcome
      cases outcome with
      | refused error quiet why =>
          refine .undisturbed ?_ (.refl server)
          rcases quiet with none | rejected
          · rw [none]
            rfl
          · rw [rejected]
            rfl
      | @failed given error present admitted runnable free stopped =>
          have cleared : ∀ id, (server.cleared (spawn.request client)).panes.lookup id =
              if id = spawn.paneId then none else server.panes.lookup id := cleared_lookup unowned
          refine .quiet rfl ?_ ?_ ?_ ?_
          · simp [SessionServer.cleared, raiseGeneration, removeOwnedPane, unowned]
          · simp [SessionServer.cleared, raiseGeneration, removeOwnedPane, unowned]
          · intro id pane found
            rw [cleared] at found
            split_ifs at found
            exact ⟨pane, found, rfl, fun running => running⟩
          · intro id generation held
            rcases holdsPane_iff.mp held with ⟨pane, found, matching⟩
            by_cases own : id = spawn.paneId
            · rw [own] at found
              exact .inr (.inl
                ⟨.of_failed shared present admitted runnable free stopped found, own⟩)
            · exact .inl (holdsPane_iff.mpr ⟨pane, by rw [cleared, if_neg own]; exact found,
                matching⟩)
      | @started given pid present admitted runnable free running =>
          have derived : DerivedFrom server.layout server.layoutRev
              (.write surroundings (.spawn client spawn)) given.layout := by
            have placed := admitted.placed
            simp only [acceptsPlacement, Bool.and_eq_true, beq_iff_eq] at placed
            apply DerivedFrom.spawn
            rw [present, ← placed.1.1]
          exact started_outcome admitted rfl derived

section headless

variable {before : SharedLayout} (starts : server.StartsFrom before)

include starts

theorem StartsFrom.eq_getD : before = server.layout.getD emptyLayout := by
  rcases starts.document with present | ⟨absent, _, empty⟩
  · rw [present]
    rfl
  · rw [absent, empty]
    rfl

theorem StartsFrom.valid (valid : server.DocumentValid) : before.Valid := by
  rcases starts.document with present | ⟨_, _, empty⟩
  · exact valid before present
  · rw [empty]
    exact emptyLayout_valid

theorem StartsFrom.running (placed : server.RunningPlaced) {id : PaneId} {pane : ServerPane}
    (found : server.panes.lookup id = some pane) (running : pane.exited = none) :
    (id, pane.generation) ∈ before.placements := by
  rcases placed id pane found running with ⟨layout, stands, member⟩
  rcases starts.document with present | ⟨absent, _, _⟩
  · rw [Option.mem_def, present] at stands
    cases stands
    exact member
  · rw [Option.mem_def, absent] at stands
    cases stands

theorem StartsFrom.held (held : server.PlacedHeld) :
    ∀ entry ∈ before.placements, server.holdsPane entry.1 entry.2 = true := by
  rcases starts.document with present | ⟨_, _, empty⟩
  · exact held before present
  · rw [empty]
    exact fun entry none => absurd none List.not_mem_nil

end headless

theorem headlessEdit_outcome {surroundings : Surroundings} {command : ControlCommand}
    (edit : Requested ((SharedLayout × Bool) × Nat))
    (sound : ∀ edited index, edit = .ok (edited, index) →
      ∃ before, server.StartsFrom before ∧ EditOf before command edited index) :
    SessionOutcome server (.write surroundings (.control command))
      ((server.headlessEdit edit).1, (server.headlessEdit edit).2.1) := by
  cases edit with
  | error error => exact .undisturbed rfl (.refl server)
  | ok result =>
      rcases result with ⟨⟨layout, changed⟩, index⟩
      cases changed with
      | false => exact .undisturbed rfl (.refl server)
      | true =>
          rcases sound _ _ rfl with ⟨before, starts, edits⟩
          have applied := edits.applied
          rw [starts.eq_getD] at applied
          refine .published rfl rfl rfl (.edit applied) ?_ ?_ ?_
          · exact fun valid => edits.valid (starts.valid valid)
          · intro _ placed id pane found running
            exact ⟨layout, rfl, edits.rearranged.mem_iff.mpr (starts.running placed found running)⟩
          · intro _ held stood same entry member
            cases same
            rcases held with replaces | held
            · exact replaces.elim
            · exact starts.held held entry (edits.rearranged.mem_iff.mp member)

theorem removed_lookup (server : SessionServer) (target id : PaneId) :
    (server.removeOwnedPane none target).panes.lookup id =
      if id = target then none else server.panes.lookup id := by
  simp only [removeOwnedPane]
  split_ifs with own
  · rw [own, AList.lookup_erase]
  · exact AList.lookup_erase_ne own

theorem removed_kept (server : SessionServer) {target id : PaneId} {pane : ServerPane}
    (found : (server.removeOwnedPane none target).panes.lookup id = some pane) :
    id ≠ target ∧ server.panes.lookup id = some pane := by
  rw [removed_lookup] at found
  split_ifs at found with own
  exact ⟨own, found⟩

theorem removed_lost (target : PaneId) {id generation : Nat}
    (held : server.holdsPane id generation = true) :
    (server.removeOwnedPane none target).holdsPane id generation = true ∨ id = target := by
  by_cases own : id = target
  · exact .inr own
  · unfold holdsPane at held ⊢
    rw [removed_lookup, if_neg own]
    exact .inl held

theorem close_outcome (surroundings : Surroundings) (target : PaneId) (ifRevision : Option Nat) :
    SessionOutcome server (.write surroundings (.control (.paneClose target ifRevision)))
      ((server.sessionPaneClose target ifRevision).1,
        (server.sessionPaneClose target ifRevision).2.1) := by
  unfold sessionPaneClose
  cases closed : server.closing target ifRevision with
  | error error => exact .undisturbed rfl (.refl server)
  | ok left =>
      have closes := closing_eq_ok closed
      cases left with
      | none =>
          refine .quiet rfl rfl rfl ?_ ?_
          · intro id pane found
            exact ⟨pane, (removed_kept server found).2, rfl, fun running => running⟩
          · intro id generation held
            rcases removed_lost target held with still | own
            · exact .inl still
            · refine .inr (.inr ?_)
              intro layout stands
              have kept := closes.document
              rw [stands] at kept
              rw [own]
              exact SharedLayout.removePane_eq_none kept
      | some left =>
          rcases left with ⟨layout, index⟩
          rcases Option.bind_eq_some_iff.mp closes.document with ⟨stood, present, removed⟩
          refine .published rfl rfl rfl (.close present removed) ?_ ?_ ?_
          · exact fun _ => closes.valid _ rfl
          · intro _ placed id pane found running
            rcases removed_kept server found with ⟨other, there⟩
            rcases placed id pane there running with ⟨document, stands, member⟩
            rw [Option.mem_def, present] at stands
            cases stands
            exact ⟨layout, rfl, SharedLayout.removePane_keeps removed _ member other⟩
          · intro valid held document same entry member
            cases same
            rcases held with replaces | held
            · exact replaces.elim
            · have listed := SharedLayout.removePane_subset removed entry member
              rcases removed_lost target (held stood present entry listed) with still | own
              · exact still
              · exfalso
                apply SharedLayout.removePane_absent (valid stood present).ids removed
                rw [SharedLayout.paneIds_eq, ← own]
                exact List.mem_map_of_mem member

theorem split_outcome (surroundings : Surroundings) (spawn : SessionSpawn) :
    SessionOutcome server (.write surroundings (.control (.newPane spawn)))
      ((server.sessionNewPane surroundings spawn).1,
        (server.sessionNewPane surroundings spawn).2.1) := by
  unfold sessionNewPane
  cases passed : server.prepareNewPane surroundings.rules spawn with
  | error error => exact .undisturbed rfl (.refl server)
  | ok prepared =>
      have prepares := prepareNewPane_eq_ok passed
      have outcome := spawnSharedPane_outcome server surroundings.host prepared.request
        (some prepared.placement) serverLayoutAuthor
      simp only
      generalize server.spawnSharedPane surroundings.host prepared.request
        (some prepared.placement) serverLayoutAuthor = result at outcome
      cases outcome with
      | refused error quiet why =>
          refine .undisturbed ?_ (.refl server)
          rcases quiet with none | rejected
          · rw [none]
            rfl
          · rw [rejected]
            rfl
      | failed present admitted runnable free stopped =>
          have same : ∀ id, (server.cleared prepared.request).panes.lookup id =
              server.panes.lookup id := by
            intro id
            rw [cleared_lookup prepares.unowned]
            split_ifs with own
            · rw [own, prepares.fresh]
            · rfl
          refine .quiet rfl ?_ ?_ ?_ ?_
          · simp [cleared, raiseGeneration, removeOwnedPane, prepares.unowned]
          · simp [cleared, raiseGeneration, removeOwnedPane, prepares.unowned]
          · intro id pane found
            exact ⟨pane, by rw [← same]; exact found, rfl, fun running => running⟩
          · intro id generation held
            refine .inl ?_
            unfold holdsPane at held ⊢
            rw [same]
            exact held
      | started present admitted runnable free running =>
          cases present
          rcases prepares.document with ⟨before, starts, _, index, pane, built, _⟩
          refine started_outcome admitted rfl ?_
          rw [built, starts.eq_getD]
          exact .split index pane

theorem control_outcome (surroundings : Surroundings) (command : ControlCommand) :
    SessionOutcome server (.write surroundings (.control command))
      ((server.handleControl surroundings command).1,
        (server.handleControl surroundings command).2.1) := by
  cases command with
  | layoutSet workspace layout masterRatio ifRevision =>
      exact headlessEdit_outcome _ fun _ _ => sessionLayoutSet_edits
  | paneSet target floating fullscreen rect rectFraction splitRatio widthRatio ifRevision =>
      exact headlessEdit_outcome _ fun _ _ => sessionPaneSet_edits
  | paneMove target workspace ifRevision =>
      exact headlessEdit_outcome _ fun _ _ => sessionPaneMove_edits
  | paneSwap target other ifRevision =>
      exact headlessEdit_outcome _ fun _ _ => sessionPaneSwap_edits
  | paneClose target ifRevision => exact close_outcome surroundings target ifRevision
  | newPane spawn => exact split_outcome surroundings spawn

theorem kill_outcome (client : ClientId) (id : PaneId) (isLocal : Bool) (generation : Nat)
    (attached : server.clientAttached client = true) :
    SessionOutcome server (.kill client id isLocal generation)
      (server.handleKill client id isLocal generation, []) := by
  unfold handleKill
  cases isLocal with
  | true =>
      apply SessionOutcome.undisturbed rfl
      simp only [Bool.not_true, Bool.false_and, Bool.false_eq_true, if_false, if_true]
      split_ifs
      · exact ⟨rfl, rfl, rfl⟩
      · exact .refl server
  | false =>
      simp only [Bool.not_false, Bool.true_and, Bool.false_eq_true, if_false]
      split_ifs with follower held
      · exact .undisturbed rfl (.refl server)
      · refine .quiet rfl rfl rfl ?_ ?_
        · intro other pane found
          exact ⟨pane, (removed_kept server found).2, rfl, fun running => running⟩
        · intro other matching holds
          rcases removed_lost id holds with still | own
          · exact .inl still
          · refine .inr (.inl ⟨rfl, by simpa using follower, attached, ?_, own⟩)
            exact held
      · exact .undisturbed rfl (.refl server)

theorem ended_generation (pane : ServerPane) (id : PaneId) (host : Host) (code : Int)
    (recently : Bool) : (pane.ended id host code recently).generation = pane.generation := by
  unfold ServerPane.ended
  split_ifs
  · rfl
  · rfl
  · unfold ServerPane.replaced
    simp only
    split
    · rfl
    · split <;> rfl

theorem exited_outcome (host : Host) (id : PaneId) (generation : Nat) (code : Int)
    (recently : Bool) :
    SessionOutcome server (.exited host id generation code recently)
      (server.paneExited id host generation code recently) := by
  unfold paneExited
  cases found : server.panes.lookup id with
  | none => exact .undisturbed rfl (.refl server)
  | some pane =>
      by_cases current : pane.generation = generation ∧ pane.exited = none
      · simp only [if_pos current]
        have silent : (if (pane.ended id host code recently).exited.isSome then
            [(Target.broadcast, ServerMessage.exited id false generation code)] else []).filterMap
              publication = [] := by
          split_ifs <;> rfl
        have own : ∀ other, (server.panes.insert id (pane.ended id host code recently)).lookup
            other = if other = id then some (pane.ended id host code recently)
              else server.panes.lookup other := by
          intro other
          split_ifs with same
          · rw [same, AList.lookup_insert]
          · exact AList.lookup_insert_ne same
        refine .quiet silent rfl rfl ?_ ?_
        · intro other ended there
          simp only [own] at there
          split_ifs at there with same
          · cases there
            rw [same]
            exact ⟨pane, found, (ended_generation ..).symm, fun _ => current.2⟩
          · exact ⟨ended, there, rfl, fun running => running⟩
        · intro other matching held
          refine .inl ?_
          rcases holdsPane_iff.mp held with ⟨holder, there, same⟩
          apply holdsPane_iff.mpr
          simp only [own]
          split_ifs with self
          · rw [self, found] at there
            cases there
            exact ⟨_, rfl, by rw [ended_generation, same]⟩
          · exact ⟨holder, there, same⟩
      · simp only [if_neg current]
        exact .undisturbed rfl (.refl server)

theorem sessionStep_outcome (server : SessionServer) (event : SessionEvent) :
    SessionOutcome server event (server.sessionStep event) := by
  cases event with
  | lease label => exact .undisturbed rfl (leaseStep_undisturbed server label)
  | exited host id generation code recently =>
      exact exited_outcome host id generation code recently
  | kill client id isLocal generation =>
      simp only [sessionStep]
      split_ifs with accepted
      · exact kill_outcome client id isLocal generation
          (by simpa [acceptsClientControl, ClientMessage.isAttach, ClientMessage.isQuery]
            using accepted)
      · exact .undisturbed rfl (.refl server)
  | write surroundings write =>
      simp only [sessionStep]
      split_ifs
      · cases write with
        | commit client baseRev layout live =>
            exact commit_outcome surroundings client baseRev layout live
        | spawn client spawn => exact spawn_outcome surroundings client spawn
        | control command => exact control_outcome surroundings command
      · exact .undisturbed rfl (.refl server)

theorem SessionOutcome.sound {result : SessionServer × Outgoing}
    (outcome : SessionOutcome server event result) (valid : server.DocumentValid)
    (running : server.RunningPlaced) : result.1.DocumentValid ∧ result.1.RunningPlaced := by
  cases outcome with
  | quiet silent layout layoutRev kept lost =>
      constructor
      · intro document present
        rw [Option.mem_def, layout] at present
        exact valid document present
      · intro id pane found ran
        rcases kept id pane found with ⟨old, there, generation, before⟩
        rcases running id old there (before ran) with ⟨document, present, placed⟩
        refine ⟨document, ?_, ?_⟩
        · simp only [layout]
          exact present
        · rw [← generation]
          exact placed
  | published sent stands layoutRev derived sound placed held =>
      constructor
      · intro document present
        rw [Option.mem_def, stands] at present
        cases present
        exact sound valid
      · exact placed valid running

end SessionServer

end outcome

end Rozi
