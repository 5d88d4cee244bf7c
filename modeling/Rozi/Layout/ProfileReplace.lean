import Rozi.Layout.ProfileLoads

/-!
A profile that replaces the layout of a session which has had panes. Its panes are numbered on from
the session's next free id, whatever ids the file asks for.
-/

namespace Rozi

def renumberPanes : PaneId → List PaneProfile → List PaneProfile × PaneId
  | next, [] => ([], next)
  | next, pane :: rest =>
      let renumbered := renumberPanes (nextPaneIdAfter next) rest
      ({ pane with paneId := some next } :: renumbered.1, renumbered.2)

def renumberWorkspaces : PaneId → List WorkspaceProfile → List WorkspaceProfile
  | _, [] => []
  | next, entry :: rest =>
      let renumbered := renumberPanes next entry.panes
      { entry with panes := renumbered.1 } :: renumberWorkspaces renumbered.2 rest

def Profile.renumbered (first : PaneId) (profile : Profile) : Profile :=
  if 1 < first then
    let profile := if profile.workspaces.all (·.panes.isEmpty) then
      { profile with workspaces := [{ index := 0, panes := [{ id := 0, paneId := some first }] }] }
      else profile
    { profile with workspaces := renumberWorkspaces first profile.workspaces }
  else profile

def restoreStateFromProfile (config : ProfileConfig) (profile : Profile) : Attachment :=
  (attachmentFromProfile config profile).getD (freshDefaultAttachment config)

/-- What `replace_layout_from_profile` puts into the attachment, with the next free id it had. -/
def replaceLayoutFromProfile (config : ProfileConfig) (profile : Profile) (first : PaneId) :
    Attachment :=
  let restored := restoreStateFromProfile config (profile.renumbered first)
  { restored with nextPaneId := max restored.nextPaneId first }

section renumbered

variable {next : Nat}

theorem idsFrom_known (ids : List PaneId) : idsFrom next (ids.map some) = ids := by
  induction ids generalizing next with
  | nil => rfl
  | cons id ids ih => rw [List.map_cons, idsFrom, ih, Option.getD_some]

theorem renumberPanes_ids {panes : List PaneProfile} (room : next + panes.length ≤ popupPaneId) :
    (renumberPanes next panes).1.map PaneProfile.paneId =
        (List.range' next panes.length).map some ∧
      (renumberPanes next panes).2 = next + panes.length := by
  induction panes generalizing next with
  | nil => exact ⟨rfl, rfl⟩
  | cons pane panes ih =>
      rw [List.length_cons, Nat.add_comm panes.length, ← Nat.add_assoc] at room
      have after : nextPaneIdAfter next = next + 1 :=
        min_eq_left (Nat.le_trans (Nat.le_add_right _ _) room)
      have rest := ih room
      rw [renumberPanes, after, List.map_cons, rest.1, rest.2, List.length_cons,
        List.range'_succ, List.map_cons]
      exact ⟨rfl, Nat.add_assoc _ _ _ |>.trans (congrArg _ (Nat.add_comm _ _))⟩

/-- The panes that have a place are numbered in their order, with gaps for those that have none. -/
theorem renumberWorkspaces_wanted {entries : List WorkspaceProfile}
    (room : next + (entries.flatMap WorkspaceProfile.panes).length ≤ popupPaneId) :
    ∃ ids, ids.Sublist (List.range' next (entries.flatMap WorkspaceProfile.panes).length) ∧
      ((renumberWorkspaces next entries).filter fun entry =>
        decide (entry.index < workspaceCount)).flatMap (fun entry =>
          entry.panes.map PaneProfile.paneId) = ids.map some ∧
      (ids = [] ↔ ∀ entry ∈ entries, entry.index < workspaceCount → entry.panes = []) := by
  induction entries generalizing next with
  | nil => exact ⟨[], .slnil, rfl, by simp⟩
  | cons entry entries ih =>
      rw [List.flatMap_cons, List.length_append] at room
      have own := @renumberPanes_ids next entry.panes (by omega)
      rcases @ih (next + entry.panes.length) (by omega) with ⟨ids, sublist, wanted, none'⟩
      rw [renumberWorkspaces, own.2, List.flatMap_cons, List.length_append, ← List.range'_append_1]
      by_cases inside : entry.index < workspaceCount
      · rw [List.filter_cons_of_pos (by simpa using inside), List.flatMap_cons, wanted, own.1]
        refine ⟨List.range' next entry.panes.length ++ ids, (List.Sublist.refl _).append sublist,
          (List.map_append).symm, ?_⟩
        rw [List.append_eq_nil_iff, none', List.forall_mem_cons, List.range'_eq_nil_iff,
          List.length_eq_zero_iff]
        simp [inside]
      · rw [List.filter_cons_of_neg (by simpa using inside), wanted]
        refine ⟨ids, sublist.trans (List.sublist_append_right _ _), rfl, ?_⟩
        rw [none', List.forall_mem_cons]
        simp [inside]

end renumbered

section replaced

variable (config : ProfileConfig)

theorem length_idsFrom {next : PaneId} (wanted : List (Option PaneId)) :
    (idsFrom next wanted).length = wanted.length := by
  induction wanted generalizing next with
  | nil => rfl
  | cons id wanted ih => rw [idsFrom, List.length_cons, List.length_cons, ih]

theorem attachmentFromProfile_eq_none (profile : Profile) :
    attachmentFromProfile config profile = none ↔ profile.wanted = [] := by
  have empty : (restoreWorkspaces config (freshWorkspaces config) 1 profile.workspaces).1.all
      (·.panes.isEmpty) = true ↔ profile.wanted = [] := by
    rw [List.all_eq_true, ← List.length_eq_zero_iff (l := profile.wanted),
      ← @length_idsFrom 1, ← (seeded_ids config profile).length_eq, List.length_eq_zero_iff,
      List.flatMap_eq_nil_iff]
    simp [Workspace.paneIds]
  unfold attachmentFromProfile
  simp only
  split_ifs with bare gone
  · refine iff_of_true rfl (List.flatMap_eq_nil_iff.mpr fun entry listed => ?_)
    have panes := List.all_eq_true.mp bare entry (List.mem_filter.mp listed).1
    rw [List.isEmpty_iff.mp panes]
    rfl
  · exact iff_of_true rfl (empty.mp gone)
  · exact iff_of_false (by simp) fun wanted => gone (empty.mpr wanted)

theorem freshDefaultAttachment_ids :
    (freshDefaultAttachment config).workspaces.flatMap Workspace.paneIds = [1] := rfl

variable {config} {profile : Profile} {first : Nat}

def Profile.Fills (profile : Profile) : Prop :=
  (∀ entry ∈ profile.workspaces, entry.panes = []) ∨ ∃ entry ∈ profile.placed, entry.panes ≠ []

theorem renumbered_wanted (had : 1 < first)
    (room : first + max 1 (profile.workspaces.flatMap WorkspaceProfile.panes).length ≤
      popupPaneId) :
    ∃ ids count, ids.Sublist (List.range' first count) ∧ first + count ≤ popupPaneId ∧
      (profile.renumbered first).wanted = ids.map some ∧ (ids ≠ [] ↔ profile.Fills) := by
  unfold Profile.renumbered
  rw [if_pos had]
  by_cases bare : profile.workspaces.all (·.panes.isEmpty) = true
  · simp only [if_pos bare]
    refine ⟨[first], 1, .refl _, ?_, rfl, iff_of_true (by simp) (.inl fun entry listed => ?_)⟩
    · exact Nat.le_trans (Nat.add_le_add_left (le_max_left _ _) _) room
    · exact List.isEmpty_iff.mp (List.all_eq_true.mp bare entry listed)
  · simp only [if_neg bare]
    have fits := Nat.le_trans (Nat.add_le_add_left (le_max_right _ _) _) room
    rcases renumberWorkspaces_wanted fits with ⟨ids, sublist, wanted, none'⟩
    refine ⟨ids, _, sublist, fits, wanted, ?_⟩
    have some' : ¬ ∀ entry ∈ profile.workspaces, entry.panes = [] := by
      simpa using bare
    rw [ne_eq, none', Profile.Fills, or_iff_right some', Profile.placed]
    simp [and_assoc]

/-- A profile in the place of a layout that has had panes gives every pane an id of its own, below
the next free one, and one the session has not given before unless its panes all have no place. -/
theorem replaced_ids_fresh (config : ProfileConfig) (profile : Profile) (had : 1 < first)
    (room : first + max 1 (profile.workspaces.flatMap WorkspaceProfile.panes).length ≤
      popupPaneId) :
    let replaced := replaceLayoutFromProfile config profile first
    let ids := replaced.workspaces.flatMap Workspace.paneIds
    ids ≠ [] ∧ ids.Nodup ∧ (∀ id ∈ ids, id < replaced.nextPaneId) ∧
      ((∀ id ∈ ids, first ≤ id) ↔ profile.Fills) := by
  rcases renumbered_wanted had room with ⟨ids, count, sublist, below, wanted, filled⟩
  cases restored : attachmentFromProfile config (profile.renumbered first) with
  | none =>
      have empty := (attachmentFromProfile_eq_none config _).mp restored
      rw [wanted, List.map_eq_nil_iff] at empty
      simp only [replaceLayoutFromProfile, restoreStateFromProfile, restored, Option.getD_none,
        freshDefaultAttachment_ids]
      refine ⟨by simp, by simp, ?_, ?_⟩
      · rw [List.forall_mem_singleton]
        exact lt_max_of_lt_right had
      · rw [List.forall_mem_singleton, ← filled]
        exact iff_of_false (Nat.not_le.mpr had) fun some' => some' empty
  | some attachment =>
      have named := attachment_ids restored
      rw [wanted, idsFrom_known] at named
      have given : ids ≠ [] := by
        rintro rfl
        have unplaced := (attachmentFromProfile_eq_none config _).mpr wanted
        rw [unplaced] at restored
        cases restored
      have range : ∀ id ∈ ids, first ≤ id ∧ id < first + count := by
        intro id member
        simpa using sublist.subset member
      simp only [replaceLayoutFromProfile, restoreStateFromProfile, restored, Option.getD_some]
      refine ⟨?_, ?_, ?_, ?_⟩
      · intro none'
        rw [none'] at named
        exact given named.symm.eq_nil
      · exact named.nodup_iff.mpr (sublist.nodup List.nodup_range')
      · intro id member
        have own := named.mem_iff.mp member
        rw [attachment_next restored, wanted]
        refine lt_max_of_lt_left (lt_nextFrom ?_ (Nat.lt_of_lt_of_le (range id own).2 below))
        rw [idsFrom_known]
        exact own
      · refine iff_of_true (fun id member => ?_) (filled.mp given)
        exact (range id (named.mem_iff.mp member)).1

theorem replaced_ids_fresh_handWritten :
    let replaced := replaceLayoutFromProfile plainConfig handWritten 7
    let ids := replaced.workspaces.flatMap Workspace.paneIds
    ids ≠ [] ∧ ids.Nodup ∧ (∀ id ∈ ids, id < replaced.nextPaneId) ∧
      ((∀ id ∈ ids, 7 ≤ id) ↔ handWritten.Fills) :=
  replaced_ids_fresh plainConfig handWritten (by decide) (by decide)

end replaced

end Rozi
