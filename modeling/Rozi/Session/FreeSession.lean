import Rozi.Session.LayoutRun
import Rozi.Session.LeaseSafety

/-!
A session nobody controls. Its document names only panes that are there as long as no controller
leaves while it owes the session a document without a pane it took away.
-/

namespace Rozi

namespace SessionServer

def Orphans (server : SessionServer) (event : SessionEvent) (id : PaneId) : Prop :=
  server.Removes event id ∧ ∃ layout ∈ server.layout, id ∈ layout.paneIds

end SessionServer

/-- A session with the placed panes that were taken away since a client last brought a document. -/
structure OwingRun where
  server : SessionServer
  owed : PaneId → Prop

namespace OwingRun

def after (run : OwingRun) (event : SessionEvent) : OwingRun :=
  { server := (run.server.sessionStep event).1
    owed := fun id =>
      ¬ (run.server.accepted event = true ∧ SessionServer.Replaces event) ∧
        (run.owed id ∨ run.server.Orphans event id) }

def runs : Transition OwingRun SessionEvent where
  initial := fun run => run.server.Restored ∧ ∀ id, ¬ run.owed id
  step := fun run event next => next = run.after event

/-- No event leaves the session without a controller while a document is owed. -/
def Settles (run : OwingRun) (event : SessionEvent) : Prop :=
  (∃ id, run.owed id ∨ run.server.Orphans event id) →
    (run.server.sessionStep event).1.controller ≠ none

end OwingRun

namespace SessionServer

structure Editable (server : SessionServer) : Prop where
  held : ∀ layout ∈ server.layout, ∀ entry ∈ layout.placements,
    ∃ pane, server.panes.lookup entry.1 = some pane ∧ pane.generation = entry.2
  split : ∀ rules spawn prepared, server.prepareNewPane rules spawn = .ok prepared →
    server.acceptsPlacement prepared.request prepared.placement = true
  takenOver : ∀ next client layout live, Undisturbed server next →
    next.controller = some client → next.clientReadOnly client = false →
    server.layout = some layout →
    next.handleCommitLayout client server.layoutRev layout live =
      next.publishSharedLayout layout client live

variable {server : SessionServer}

theorem split_accepted (running : server.RunningPlaced)
    (held : server.PlacedHeld) {prepared : PreparedSpawn} (prepares : server.PreparedOf prepared) :
    server.acceptsPlacement prepared.request prepared.placement = true := by
  rcases prepares.document with ⟨before, starts, absent, index, pane, built, named⟩
  have unique := prepares.valid.ids
  have entries : ∀ entry, entry ∈ prepared.placement.layout.placements ↔
      entry ∈ before.placements ∨
        entry = (prepared.request.paneId, prepared.request.generation) := by
    intro entry
    rw [built, (layoutWithPane_placements before index pane).mem_iff, named]
    simp
  simp only [acceptsPlacement, Bool.and_eq_true, beq_iff_eq]
  refine ⟨⟨prepares.current, SharedLayout.validate_isOk.mpr prepares.valid⟩, ?_⟩
  simp only [validateSpawnPlacement, Bool.and_eq_true, List.all_eq_true, Bool.or_eq_true,
    beq_iff_eq, placedGeneration_eq unique]
  refine ⟨⟨(entries _).mpr (.inr rfl), ?_⟩, ?_⟩
  · intro id listed
    rw [SharedLayout.paneIds_eq] at listed
    rcases List.mem_map.mp listed with ⟨entry, member, same⟩
    rcases (entries entry).mp member with stood | new
    · refine .inr ?_
      rw [← same, (placedGeneration_eq unique).mpr member]
      exact starts.held held entry stood
    · refine .inl ?_
      rw [← same, new]
  · rintro ⟨id, holder⟩ member
    cases exited : holder.exited with
    | some code => exact .inl (.inr rfl)
    | none =>
        refine .inr ((entries _).mpr (.inl ?_))
        exact starts.running running (AList.mem_lookup_iff.mpr member) exited

theorem takeover_commits (valid : server.DocumentValid) (running : server.RunningPlaced)
    (held : server.PlacedHeld) {next : SessionServer} {client : ClientId} {layout : SharedLayout}
    (live : Bool) (same : Undisturbed server next) (holds : next.controller = some client)
    (writes : next.clientReadOnly client = false) (stands : server.layout = some layout) :
    next.handleCommitLayout client server.layoutRev layout live =
      next.publishSharedLayout layout client live := by
  have sound := valid layout stands
  have checked : next.validateSharedLayoutAgainstPanes layout = true := by
    simp only [validateSharedLayoutAgainstPanes, Bool.and_eq_true, List.all_eq_true, bne_iff_ne,
      Bool.or_eq_true, List.contains_iff_mem]
    constructor
    · intro pane listed
      constructor
      · rcases List.mem_flatMap.mp listed with ⟨workspace, member, own⟩
        exact ((sound.workspaces workspace member).panes pane own).unreserved
      · have there := held layout stands _ (List.mem_map_of_mem listed)
        unfold holdsPane at there ⊢
        rw [same.panes]
        exact there
    · rintro ⟨id, pane⟩ member
      rw [same.panes] at member
      cases exited : pane.exited with
      | some code => exact .inl rfl
      | none =>
          rcases running id pane (AList.mem_lookup_iff.mpr member) exited with
            ⟨document, present, placed⟩
          rw [Option.mem_def, stands] at present
          cases present
          refine .inr ?_
          rw [SharedLayout.paneIds_eq]
          exact List.mem_map_of_mem placed
  unfold handleCommitLayout
  simp [isController, holds, writes, same.layoutRev, SharedLayout.validate_isOk.mpr sound, checked]

end SessionServer

namespace OwingRun

variable {run : OwingRun}

structure Accounted (run : OwingRun) : Prop where
  valid : run.server.DocumentValid
  running : run.server.RunningPlaced
  placed : ∀ layout ∈ run.server.layout, ∀ entry ∈ layout.placements,
    run.server.holdsPane entry.1 entry.2 = true ∨ run.owed entry.1
  settled : run.server.controller = none → ∀ id, ¬ run.owed id

theorem Accounted.begin (begins : runs.initial run) : run.Accounted := by
  rcases begins with ⟨restored, none⟩
  have line : LayoutRun.Line ⟨run.server, run.server.layout, run.server.layoutRev, []⟩ :=
    LayoutRun.Restored.line ⟨restored, rfl, rfl, rfl⟩
  refine ⟨line.valid, line.running, ?_, fun _ => none⟩
  intro layout present entry member
  exact .inl ((SessionServer.fits_of_validated (restored.document layout present).2).held
    entry member)

theorem Accounted.held (accounted : run.Accounted) {event : SessionEvent} {rev : Nat}
    {layout : SharedLayout}
    (derived : SessionServer.DerivedFrom run.server.layout rev event layout)
    (accepted : run.server.accepted event = true) :
    SessionServer.Replaces event ∨ run.server.PlacedHeld := by
  have free : ∀ surroundings command, event = .write surroundings (.control command) →
      run.server.PlacedHeld := by
    intro surroundings command same
    rw [same, SessionServer.accepted_iff] at accepted
    have none := (SessionServer.control_allowed accepted).1
    intro document present entry member
    rcases accounted.placed document present entry member with held | owed
    · exact held
    · exact absurd owed (accounted.settled none entry.1)
  cases derived with
  | commit => exact .inl trivial
  | spawn placed => exact .inl trivial
  | edit applied => exact .inr (free _ _ rfl)
  | close present removed => exact .inr (free _ _ rfl)
  | split index pane => exact .inr (free _ _ rfl)

theorem Accounted.after (accounted : run.Accounted) (event : SessionEvent)
    (settles : run.Settles event) : (run.after event).Accounted := by
  have outcome := SessionServer.sessionStep_outcome run.server event
  have sound := outcome.sound accounted.valid accounted.running
  have accepts := SessionServer.accepted_iff run.server event
  refine ⟨sound.1, sound.2, ?_, ?_⟩
  · unfold OwingRun.after
    generalize run.server.sessionStep event = result at outcome accepts
    cases outcome with
    | quiet silent layout layoutRev kept lost =>
        have unaccepted : ¬ run.server.accepted event = true := by
          rw [accepts]
          exact fun sent => sent silent
        intro document present entry member
        simp only [layout] at present
        rcases accounted.placed document present entry member with held | owed
        · rcases lost entry.1 entry.2 held with still | removed | unplaced
          · exact .inl still
          · refine .inr ⟨fun reset => unaccepted reset.1, .inr ⟨removed, document, present, ?_⟩⟩
            rw [SharedLayout.paneIds_eq]
            exact List.mem_map_of_mem member
          · exfalso
            apply unplaced document present
            rw [SharedLayout.paneIds_eq]
            exact List.mem_map_of_mem member
        · exact .inr ⟨fun reset => unaccepted reset.1, .inl owed⟩
    | published sent stands layoutRev derived valid running held =>
        have accepted : run.server.accepted event = true := by
          rw [accepts, sent]
          exact List.cons_ne_nil _ _
        intro document present entry member
        exact .inl (held accounted.valid (accounted.held derived accepted) document present entry
          member)
  · intro free id owed
    exact settles ⟨id, owed.2⟩ free

theorem accounted_of_run (reached : runs.ReachableWhen Settles run) : run.Accounted := by
  refine reached.invariant (fun _ => Accounted.begin) ?_
  intro run event next accounted settles moved
  rw [moved]
  exact accounted.after event settles

/-- A free session can be edited, in every run in which no controller leaves owing it a
document. -/
theorem free_session_editable (run : OwingRun) (reached : runs.ReachableWhen Settles run)
    (free : run.server.controller = none) : run.server.Editable := by
  have accounted := accounted_of_run reached
  have held : run.server.PlacedHeld := by
    intro layout present entry member
    rcases accounted.placed layout present entry member with held | owed
    · exact held
    · exact absurd owed (accounted.settled free entry.1)
  constructor
  · intro layout present entry member
    exact SessionServer.holdsPane_iff.mp (held layout present entry member)
  · intro rules spawn prepared passed
    exact SessionServer.split_accepted accounted.running held
      (SessionServer.prepareNewPane_eq_ok passed)
  · intro next client layout live same holds writes stands
    exact SessionServer.takeover_commits accounted.valid accounted.running held live same holds
      writes stands

end OwingRun

namespace SessionServer

def openedAndClosed : List SessionEvent :=
  [.lease .accept, .lease (.control 0 1 (attachWork false) {}),
    .write willingHost (.spawn 1
      { placement := some { baseRev := 0, layout := onePane 1 }, paneId := 1, generation := 1 }),
    .kill 1 1 false 1]

/-- The session the client leaves once it has committed the layout without the pane. -/
def leftSettled : List SessionEvent :=
  openedAndClosed ++
    [.write willingHost (.commit 1 1 emptyLayout false), .lease (.control 1 1 .detach {})]

def leftOwing : List SessionEvent :=
  openedAndClosed ++ [.lease (.control 1 1 .detach {})]

end SessionServer

namespace OwingRun

def emptyRun : OwingRun :=
  { server := { sessionName := "work" }, owed := fun _ => False }

theorem emptyRun_initial : runs.initial emptyRun :=
  ⟨{ unattended := ⟨rfl, rfl⟩
     document := fun layout present => by cases present
     empty := fun _ => rfl }, fun _ => id⟩

theorem reachable_foldl (events : List SessionEvent) (reached : runs.Reachable run) :
    runs.Reachable (events.foldl after run) := by
  induction events generalizing run with
  | nil => exact reached
  | cons event events ih => exact ih (reached.next event rfl)

def AllSettle : OwingRun → List SessionEvent → Prop
  | _, [] => True
  | run, event :: events => run.Settles event ∧ AllSettle (run.after event) events

theorem reachableWhen_foldl (events : List SessionEvent) (settle : run.AllSettle events)
    (reached : runs.ReachableWhen Settles run) :
    runs.ReachableWhen Settles (events.foldl after run) := by
  induction events generalizing run with
  | nil => exact reached
  | cons event events ih => exact ih settle.2 (reached.next event settle.1 rfl)

theorem leftSettled_settles : emptyRun.AllSettle SessionServer.leftSettled := by
  refine ⟨?_, fun _ => by decide +kernel, fun _ => by decide +kernel, fun _ => by decide +kernel,
    fun _ => by decide +kernel, ?_, trivial⟩
  · intro owing
    rcases owing with ⟨id, owed | orphan⟩
    · exact owed.elim
    · exact orphan.1.elim
  · intro owing
    rcases owing with ⟨id, owed | orphan⟩
    · exact absurd ⟨by decide +kernel, trivial⟩ owed.1
    · exact orphan.1.elim

theorem free_session_editable_settled :
    (SessionServer.leftSettled.foldl after emptyRun).server.Editable :=
  free_session_editable _
    (reachableWhen_foldl _ leftSettled_settles (.initial emptyRun_initial)) (by decide +kernel)

/-- A session can be left without a controller and with a document that names a pane it does not
have. -/
theorem free_session_names_missing_pane :
    ∃ run, runs.Reachable run ∧ run.server.controller = none ∧ ¬ run.server.Editable := by
  refine ⟨SessionServer.leftOwing.foldl after emptyRun,
    reachable_foldl _ (.begin emptyRun_initial), by decide +kernel, ?_⟩
  intro editable
  have document : (SessionServer.leftOwing.foldl after emptyRun).server.layout =
      some (SessionServer.onePane 1) := by decide +kernel
  rcases editable.held _ document (1, 1) (by decide +kernel) with ⟨pane, found, _⟩
  have missing : (SessionServer.leftOwing.foldl after emptyRun).server.panes.lookup 1 = none := by
    decide +kernel
  rw [missing] at found
  cases found

end OwingRun

end Rozi
