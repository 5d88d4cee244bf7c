import Rozi.Layout.ProfileRestore

/-!
The session a profile describes, workspace by workspace: the ids its panes get, and what each of the
entries of a workspace leaves in it.
-/

namespace Rozi

open SerializedTree

section ids

def idsFrom : PaneId → List (Option PaneId) → List PaneId
  | _, [] => []
  | next, wanted :: rest =>
      wanted.getD next :: idsFrom (max next (nextPaneIdAfter (wanted.getD next))) rest

def nextFrom : PaneId → List (Option PaneId) → PaneId
  | next, [] => next
  | next, wanted :: rest => nextFrom (max next (nextPaneIdAfter (wanted.getD next))) rest

variable {next : PaneId}

theorem idsFrom_append (wanted rest : List (Option PaneId)) :
    idsFrom next (wanted ++ rest) = idsFrom next wanted ++ idsFrom (nextFrom next wanted) rest := by
  induction wanted generalizing next with
  | nil => rfl
  | cons id wanted ih => rw [List.cons_append, idsFrom, idsFrom, nextFrom, ih, List.cons_append]

theorem nextFrom_append (wanted rest : List (Option PaneId)) :
    nextFrom next (wanted ++ rest) = nextFrom (nextFrom next wanted) rest := by
  induction wanted generalizing next with
  | nil => rfl
  | cons id wanted ih => rw [List.cons_append, nextFrom, nextFrom, ih]

theorem le_nextFrom (wanted : List (Option PaneId)) : next ≤ nextFrom next wanted := by
  induction wanted generalizing next with
  | nil => exact le_rfl
  | cons id wanted ih => exact (le_max_left _ _).trans ih

theorem nextFrom_le {wanted : List (Option PaneId)} (free : next ≤ popupPaneId) :
    nextFrom next wanted ≤ popupPaneId := by
  induction wanted generalizing next with
  | nil => exact free
  | cons id wanted ih => exact ih (max_le free (min_le_right _ _))

theorem lt_nextFrom {wanted : List (Option PaneId)} {id : PaneId}
    (member : id ∈ idsFrom next wanted) (free : id < popupPaneId) : id < nextFrom next wanted := by
  induction wanted generalizing next with
  | nil => cases member
  | cons first wanted ih =>
      rcases List.mem_cons.mp member with rfl | later
      · refine lt_of_lt_of_le ?_ (le_nextFrom wanted)
        refine lt_of_lt_of_le ?_ (le_max_right _ _)
        exact lt_min (Nat.lt_succ_self _) free
      · exact ih later

variable (config : ProfileConfig)

theorem restorePanes_ids (profiles : List PaneProfile) :
    ((restorePanes config next profiles).1.map fun entry => entry.2.id) =
        idsFrom next (profiles.map PaneProfile.paneId) ∧
      (restorePanes config next profiles).2 = nextFrom next (profiles.map PaneProfile.paneId) := by
  induction profiles generalizing next with
  | nil => exact ⟨rfl, rfl⟩
  | cons profile rest ih =>
      have others := @ih (max next (nextPaneIdAfter (profile.paneId.getD next)))
      rw [restorePanes, List.map_cons, List.map_cons, idsFrom, nextFrom, ← others.1, ← others.2]
      exact ⟨rfl, rfl⟩

end ids

section entries

variable (config : ProfileConfig)

def Profile.placed (profile : Profile) : List WorkspaceProfile :=
  profile.workspaces.filter fun entry => decide (entry.index < workspaceCount)

def Profile.wanted (profile : Profile) : List (Option PaneId) :=
  profile.placed.flatMap fun entry => entry.panes.map PaneProfile.paneId

def restoreOne (index : Nat) : Workspace → PaneId → List WorkspaceProfile → Workspace
  | workspace, _, [] => workspace
  | workspace, next, entry :: rest =>
      if workspaceCount ≤ entry.index then restoreOne index workspace next rest
      else
        let restored := restorePanes config next entry.panes
        restoreOne index
          (if entry.index = index then restoreWorkspace entry restored.1 workspace else workspace)
          restored.2 rest

variable {config}

theorem restoreWorkspaces_length (workspaces : List Workspace) (next : PaneId)
    (entries : List WorkspaceProfile) :
    (restoreWorkspaces config workspaces next entries).1.length = workspaces.length := by
  induction entries generalizing workspaces next with
  | nil => rfl
  | cons entry rest ih =>
      rw [restoreWorkspaces]
      split_ifs
      · exact ih _ _
      · rw [ih, List.length_modify]

theorem restoreWorkspaces_get (workspaces : List Workspace) (next : PaneId)
    (entries : List WorkspaceProfile) (index : Nat) :
    (restoreWorkspaces config workspaces next entries).1[index]? =
      workspaces[index]?.map fun workspace => restoreOne config index workspace next entries := by
  induction entries generalizing workspaces next with
  | nil =>
      rw [restoreWorkspaces]
      exact (Option.map_id' (x := workspaces[index]?)).symm
  | cons entry rest ih =>
      rw [restoreWorkspaces]
      simp only [restoreOne]
      split_ifs with outside here
      · exact ih _ _
      · rw [ih, ← here, List.getElem?_modify_eq]
        exact Option.map_map _ _ _
      · rw [ih, List.getElem?_modify_ne _ _ here]

theorem restoreWorkspaces_next (workspaces : List Workspace) (next : PaneId)
    (entries : List WorkspaceProfile) :
    (restoreWorkspaces config workspaces next entries).2 = nextFrom next
      ((entries.filter fun entry => decide (entry.index < workspaceCount)).flatMap fun entry =>
        entry.panes.map PaneProfile.paneId) := by
  induction entries generalizing workspaces next with
  | nil => rfl
  | cons entry rest ih =>
      rw [restoreWorkspaces]
      split_ifs with outside
      · rw [ih, List.filter_cons_of_neg (by simpa using outside)]
      · rw [ih, List.filter_cons_of_pos (by simpa using outside), List.flatMap_cons,
          nextFrom_append, (restorePanes_ids config entry.panes).2]

theorem flatMap_modify_perm {workspaces : List Workspace} {index : Nat}
    {change : Workspace → Workspace} {added : List PaneId} (inside : index < workspaces.length)
    (grows : ∀ workspace : Workspace, (change workspace).paneIds = workspace.paneIds ++ added) :
    ((workspaces.modify index change).flatMap Workspace.paneIds).Perm
      (workspaces.flatMap Workspace.paneIds ++ added) := by
  induction workspaces generalizing index with
  | nil => cases inside
  | cons workspace workspaces ih =>
      cases index with
      | zero =>
          rw [List.modify_zero_cons, List.flatMap_cons, List.flatMap_cons, grows,
            List.append_assoc, List.append_assoc]
          exact .append_left _ List.perm_append_comm
      | succ index =>
          rw [List.modify_succ_cons, List.flatMap_cons, List.flatMap_cons, List.append_assoc]
          exact .append_left _ (ih (Nat.lt_of_succ_lt_succ inside))

/-- The panes of a session are those it had and those of the entries, under the ids they get. -/
theorem restoreWorkspaces_ids (workspaces : List Workspace) (next : PaneId)
    (entries : List WorkspaceProfile) (all : workspaces.length = workspaceCount) :
    ((restoreWorkspaces config workspaces next entries).1.flatMap Workspace.paneIds).Perm
      (workspaces.flatMap Workspace.paneIds ++ idsFrom next
        ((entries.filter fun entry => decide (entry.index < workspaceCount)).flatMap fun entry =>
          entry.panes.map PaneProfile.paneId)) := by
  induction entries generalizing workspaces next with
  | nil =>
      rw [List.filter_nil, List.flatMap_nil, idsFrom, List.append_nil]
      exact .refl _
  | cons entry rest ih =>
      rw [restoreWorkspaces]
      split_ifs with outside
      · rw [List.filter_cons_of_neg (by simpa using outside)]
        exact ih _ _ all
      · have inside := Nat.not_le.mp outside
        rw [List.filter_cons_of_pos (by simpa using inside), List.flatMap_cons, idsFrom_append,
          ← (restorePanes_ids config entry.panes).1, ← (restorePanes_ids config entry.panes).2]
        refine (ih _ _ (by rw [List.length_modify, all])).trans ?_
        rw [← List.append_assoc]
        refine .append_right _ ?_
        refine flatMap_modify_perm (all ▸ inside) fun workspace => ?_
        rw [Workspace.paneIds, panes_restoreWorkspace, List.map_append, List.map_map]
        rfl

def entriesOf (index : Nat) (entries : List WorkspaceProfile) : List WorkspaceProfile :=
  entries.filter fun entry => decide (entry.index < workspaceCount ∧ entry.index = index)

variable {index : Nat}

theorem entriesOf_here {entry : WorkspaceProfile} {rest : List WorkspaceProfile}
    (inside : ¬ workspaceCount ≤ entry.index) (here : entry.index = index) :
    entriesOf index (entry :: rest) = entry :: entriesOf index rest :=
  List.filter_cons_of_pos (by simpa using And.intro (Nat.not_le.mp inside) here)

theorem entriesOf_elsewhere {entry : WorkspaceProfile} {rest : List WorkspaceProfile}
    (elsewhere : workspaceCount ≤ entry.index ∨ entry.index ≠ index) :
    entriesOf index (entry :: rest) = entriesOf index rest := by
  refine List.filter_cons_of_neg ?_
  rw [decide_eq_true_eq, not_and]
  intro inside
  exact elsewhere.resolve_left (Nat.not_le.mpr inside)

/-- What is read of the panes of a workspace, when it does not depend on their ids. -/
theorem restoreOne_panes {β : Type} (view : Pane → β) (described : PaneProfile → β)
    (same : ∀ id pane, view (restorePane config id pane) = described pane)
    (workspace : Workspace) (next : PaneId) (entries : List WorkspaceProfile) :
    (restoreOne config index workspace next entries).panes.map view =
      workspace.panes.map view ++
        (entriesOf index entries).flatMap fun entry => entry.panes.map described := by
  have restored : ∀ (panes : List PaneProfile) (next : PaneId),
      (restorePanes config next panes).1.map (view ∘ Prod.snd) = panes.map described := by
    intro panes
    induction panes with
    | nil => exact fun _ => rfl
    | cons pane panes ih =>
        intro next
        rw [restorePanes, List.map_cons, List.map_cons, ih]
        exact congrArg₂ List.cons (same _ pane) rfl
  induction entries generalizing workspace next with
  | nil => exact (List.append_nil _).symm
  | cons entry rest ih =>
      rw [restoreOne]
      split_ifs with outside here
      · rw [ih, entriesOf_elsewhere (.inl outside)]
      · rw [ih, entriesOf_here outside here, panes_restoreWorkspace, List.map_append, List.map_map,
          restored, List.flatMap_cons, List.append_assoc]
      · rw [ih, entriesOf_elsewhere (.inr here)]

theorem restoreOne_splitRatios (workspace : Workspace) (next : PaneId)
    (entries : List WorkspaceProfile) :
    (restoreOne config index workspace next entries).splitRatios =
      (((entriesOf index entries).filter fun entry => !entry.splitRatios.isEmpty).getLast?.map
        WorkspaceProfile.splitRatios).getD workspace.splitRatios := by
  induction entries generalizing workspace next with
  | nil => rfl
  | cons entry rest ih =>
      rw [restoreOne]
      split_ifs with outside here
      · rw [ih, entriesOf_elsewhere (.inl outside)]
      · rw [ih, entriesOf_here outside here]
        have own : (restoreWorkspace entry (restorePanes config next entry.panes).1
            workspace).splitRatios = if entry.splitRatios.isEmpty then workspace.splitRatios
              else entry.splitRatios := by
          unfold restoreWorkspace
          simp only
          split_ifs <;> rfl
        rw [own]
        by_cases empty : entry.splitRatios.isEmpty = true
        · rw [if_pos empty, List.filter_cons_of_neg (by simpa using empty)]
        · rw [if_neg empty, List.filter_cons_of_pos (by simpa using empty), List.getLast?_cons]
          cases (List.filter (fun entry : WorkspaceProfile => !entry.splitRatios.isEmpty)
            (entriesOf index rest)).getLast? <;> rfl
      · rw [ih, entriesOf_elsewhere (.inr here)]

theorem restoreOne_last (workspace : Workspace) (next : PaneId) (entries : List WorkspaceProfile) :
    ((entriesOf index entries).getLast? = none ∧
        restoreOne config index workspace next entries = workspace) ∨
      ∃ entry next' before, (entriesOf index entries).getLast? = some entry ∧
        restoreOne config index workspace next entries =
          restoreWorkspace entry (restorePanes config next' entry.panes).1 before := by
  induction entries generalizing workspace next with
  | nil => exact .inl ⟨rfl, rfl⟩
  | cons entry rest ih =>
      rw [restoreOne]
      split_ifs with outside here
      · rw [entriesOf_elsewhere (.inl outside)]
        exact ih _ _
      · rw [entriesOf_here outside here, List.getLast?_cons]
        simp only
        rcases ih (restoreWorkspace entry (restorePanes config next entry.panes).1 workspace)
          (restorePanes config next entry.panes).2 with
          ⟨none', same⟩ | ⟨last, next', before, found, same⟩
        · refine .inr ⟨entry, next, workspace, ?_, same⟩
          rw [none']
          rfl
        · refine .inr ⟨last, next', before, ?_, same⟩
          rw [found]
          rfl
      · rw [entriesOf_elsewhere (.inr here)]
        exact ih _ _

end entries

end Rozi
