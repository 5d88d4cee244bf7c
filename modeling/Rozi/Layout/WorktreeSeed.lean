import Rozi.Layout.HostPathRebase

/-!
The panes of a session that starts in a worktree, and the directories they start in.
-/

namespace Rozi

open LexicalPath HostPath

section restored

variable {config : ProfileConfig}

theorem mem_modify {workspaces : List Workspace} {index : Nat} {change : Workspace → Workspace}
    {workspace : Workspace} (member : workspace ∈ workspaces.modify index change) :
    workspace ∈ workspaces ∨ ∃ before ∈ workspaces, workspace = change before := by
  rcases List.mem_iff_getElem?.mp member with ⟨place, found⟩
  rw [List.getElem?_modify] at found
  rcases Option.map_eq_some_iff.mp found with ⟨before, there, changed⟩
  have listed := List.mem_of_getElem? there
  split_ifs at changed
  · exact .inr ⟨before, listed, changed.symm⟩
  · exact .inl (changed ▸ listed)

@[simp]
theorem panes_appendTiledWindows (workspace : Workspace) (ids : List PaneId) :
    (appendTiledWindows workspace ids).panes = workspace.panes := rfl

theorem panes_restoreWorkspace (profile : WorkspaceProfile) (restored : List (PaneId × Pane))
    (workspace : Workspace) :
    (restoreWorkspace profile restored workspace).panes =
      workspace.panes ++ restored.map Prod.snd := by
  unfold restoreWorkspace
  simp only
  split_ifs <;> rfl

theorem mem_restorePanes {next : PaneId} {profiles : List PaneProfile} {entry : PaneId × Pane}
    (member : entry ∈ (restorePanes config next profiles).1) :
    ∃ profile ∈ profiles, ∃ id, entry.2 = restorePane config id profile := by
  induction profiles generalizing next with
  | nil => cases member
  | cons profile rest ih =>
      rcases List.mem_cons.mp member with rfl | later
      · exact ⟨profile, List.mem_cons_self, _, rfl⟩
      · rcases ih later with ⟨other, listed, id, same⟩
        exact ⟨other, List.mem_cons_of_mem _ listed, id, same⟩

theorem mem_restoreWorkspaces {workspaces : List Workspace} {next : PaneId}
    {profiles : List WorkspaceProfile} {workspace : Workspace}
    (member : workspace ∈ (restoreWorkspaces config workspaces next profiles).1) {pane : Pane}
    (inside : pane ∈ workspace.panes) :
    (∃ before ∈ workspaces, pane ∈ before.panes) ∨
      ∃ profile ∈ profiles.flatMap WorkspaceProfile.panes, ∃ id,
        pane = restorePane config id profile := by
  induction profiles generalizing workspaces next with
  | nil => exact .inl ⟨workspace, member, inside⟩
  | cons profile rest ih =>
      have later : (∃ described ∈ rest.flatMap WorkspaceProfile.panes, ∃ id,
          pane = restorePane config id described) →
          ∃ described ∈ (profile :: rest).flatMap WorkspaceProfile.panes, ∃ id,
            pane = restorePane config id described := by
        rintro ⟨described, listed, same⟩
        exact ⟨described, List.mem_flatMap.mpr (by
          rcases List.mem_flatMap.mp listed with ⟨other, there, own⟩
          exact ⟨other, List.mem_cons_of_mem _ there, own⟩), same⟩
      rw [restoreWorkspaces] at member
      split_ifs at member with outside
      · exact (ih member).imp id later
      · rcases ih member with ⟨before, there, own⟩ | described
        · rcases mem_modify there with old | ⟨first, old, rfl⟩
          · exact .inl ⟨before, old, own⟩
          · rw [panes_restoreWorkspace] at own
            rcases List.mem_append.mp own with had | new
            · exact .inl ⟨first, old, had⟩
            · rcases List.mem_map.mp new with ⟨entry, restored, rfl⟩
              rcases mem_restorePanes restored with ⟨described, listed, made⟩
              refine .inr ⟨described, ?_, made⟩
              exact List.mem_flatMap.mpr ⟨profile, List.mem_cons_self, listed⟩
        · exact .inr (later described)

theorem panes_freshWorkspaces {workspace : Workspace} (member : workspace ∈ freshWorkspaces config) :
    workspace.panes = [] := by
  rcases List.mem_map.mp member with ⟨index, _, rfl⟩
  rfl

theorem workspaces_of_attachment {profile : Profile} {attachment : Attachment}
    (seeded : attachmentFromProfile config profile = some attachment) :
    attachment.workspaces =
      (restoreWorkspaces config (freshWorkspaces config) 1 profile.workspaces).1 := by
  unfold attachmentFromProfile at seeded
  simp only [Option.ite_none_left_eq_some, Option.some.injEq] at seeded
  rcases seeded with ⟨_, _, rfl⟩
  rfl

theorem cwd_of_attachment {profile : Profile} {attachment : Attachment}
    (seeded : attachmentFromProfile config profile = some attachment) {workspace : Workspace}
    (member : workspace ∈ attachment.workspaces) {pane : Pane} (inside : pane ∈ workspace.panes) :
    ∃ described ∈ profile.workspaces.flatMap WorkspaceProfile.panes,
      pane.identity.cwd = described.cwd.map config.expandPath := by
  rw [workspaces_of_attachment seeded] at member
  rcases mem_restoreWorkspaces member inside with ⟨fresh, there, own⟩ | ⟨described, listed, id, rfl⟩
  · rw [panes_freshWorkspaces there] at own
    cases own
  · exact ⟨described, listed, rfl⟩

theorem cwd_of_fresh {path : String} {checkouts : List (List Char)} {workspace : Workspace}
    (member : workspace ∈ (worktreeSessionSeed config path checkouts none).1.workspaces)
    {pane : Pane} (inside : pane ∈ workspace.panes) : pane.identity.cwd = some path := by
  have fresh : (worktreeSessionSeed config path checkouts none).1.workspaces =
      ((freshDefaultAttachment config).workspaces.modify 0 fun workspace =>
        { workspace with panes := workspace.panes.modify 0 fun pane =>
            { pane with identity := { pane.identity with cwd := some path } } }) := rfl
  rw [fresh, freshDefaultAttachment, List.modify_modify_eq] at member
  rcases mem_modify member with old | ⟨before, old, rfl⟩
  · rw [panes_freshWorkspaces old] at inside
    cases inside
  · simp only [Function.comp_apply, panes_appendTiledWindows, panes_freshWorkspaces old,
      List.nil_append] at inside
    obtain rfl := List.mem_singleton.mp inside
    rfl

end restored

inductive OneHost (checkouts : List (List Char)) (target : List Char) : Prop
  | unix (parsed : ∀ path ∈ target :: checkouts, ∃ here, parse path = some here ∧
      here.windows = false) (ends : target.getLast? ≠ some '\\')
  | windows (parsed : ∀ path ∈ target :: checkouts, ∃ here, parse path = some here ∧
      here.windows = true ∧ here.parts ≠ [])

/-- Every pane of a remote session starts below the target, and a directory of a checkout is moved
to where it lay in the innermost one. -/
structure StaysInside (checkouts : List (List Char)) (target : String) : Prop where
  seeded : ∀ (config : WorktreeConfig) loaded,
    loadWorktreeProfile config checkouts true = .ok loaded → ∀ workspace ∈
      (worktreeSessionSeed config.toProfileConfig target checkouts loaded).1.workspaces,
    ∀ pane ∈ workspace.panes, ∃ cwd rest, pane.identity.cwd = some cwd ∧
      Within cwd.toList target.toList rest
  moved : ∀ cwd, (rebaseHostPath cwd checkouts target.toList).isSome = true ↔
    ∃ checkout ∈ checkouts, ∃ depth rest, Contains checkout cwd depth rest
  kept : ∀ cwd result, rebaseHostPath cwd checkouts target.toList = some result →
    ∃ checkout ∈ checkouts, ∃ depth rest, Contains checkout cwd depth rest ∧
      (∀ other ∈ checkouts, ∀ depth' rest', Contains other cwd depth' rest' → depth' ≤ depth) ∧
      Within result target.toList rest

/-- Nothing of the target's names is trimmed, or no checkout lies below the root. -/
def Rebasable (checkouts : List (List Char)) (target : List Char) : Prop :=
  (∀ there, parse target = some there → Trims target there.windows) ∨
    ∀ checkout ∈ checkouts, ∀ here, parse checkout = some here → here.parts = []

section seeded

variable {checkouts : List (List Char)} {target : String} {there : HostPath}

theorem inside_of_accepted {config : WorktreeConfig} {loaded : LoadedProfile}
    (accepted : loadWorktreeProfile config checkouts true = .ok (some loaded))
    {described : PaneProfile}
    (member : described ∈ loaded.profile.workspaces.flatMap WorkspaceProfile.panes) {cwd : String}
    (own : described.cwd.map config.expandPath = some cwd) :
    (innermostCheckoutRest cwd.toList checkouts).isSome = true := by
  unfold loadWorktreeProfile at accepted
  cases named : config.worktreeProfile with
  | none =>
      rw [named] at accepted
      cases accepted
  | some name =>
      rw [named] at accepted
      simp only at accepted
      cases read : config.loadProfile (config.profilePathForName name) with
      | error err =>
          rw [read] at accepted
          cases accepted
      | ok profile =>
          rw [read] at accepted
          simp only at accepted
          cases outside : firstDirectoryOutside config.expandPath profile checkouts with
          | some first =>
              rw [outside] at accepted
              cases accepted
          | none =>
              rw [outside] at accepted
              cases accepted
              have all := List.find?_eq_none.mp outside cwd (by
                rcases Option.map_eq_some_iff.mp own with ⟨path, has, expanded⟩
                exact List.mem_map.mpr ⟨path, List.mem_filterMap.mpr ⟨described, member, has⟩,
                  expanded⟩)
              simpa [Option.isSome_iff_ne_none] using all

theorem seeded_of_kept (parsed : parse target.toList = some there)
    (kept : ∀ cwd result, rebaseHostPath cwd checkouts target.toList = some result →
      ∃ rest, Within result target.toList rest) (config : WorktreeConfig)
    (loaded : Option LoadedProfile)
    (accepted : loadWorktreeProfile config checkouts true = .ok loaded) {workspace : Workspace}
    (member : workspace ∈
      (worktreeSessionSeed config.toProfileConfig target checkouts loaded).1.workspaces)
    {pane : Pane} (inside : pane ∈ workspace.panes) :
    ∃ cwd rest, pane.identity.cwd = some cwd ∧ Within cwd.toList target.toList rest := by
  cases described : loaded.bind fun loaded =>
      (attachmentFromProfile config.toProfileConfig loaded.profile).map
        (·, loaded.name, loaded.path) with
  | none =>
      have alone : worktreeSessionSeed config.toProfileConfig target checkouts loaded =
          worktreeSessionSeed config.toProfileConfig target checkouts none := by
        unfold worktreeSessionSeed
        rw [described]
        rfl
      rw [alone] at member
      exact ⟨target, [], cwd_of_fresh member inside, within_self parsed⟩
  | some seeded =>
      rcases Option.bind_eq_some_iff.mp described with ⟨profile, rfl, seeds⟩
      rcases Option.map_eq_some_iff.mp seeds with ⟨attachment, restored, rfl⟩
      unfold worktreeSessionSeed at member
      rw [described] at member
      rcases List.mem_map.mp member with ⟨before, listed, rfl⟩
      rcases List.mem_map.mp inside with ⟨old, had, rfl⟩
      rcases cwd_of_attachment restored listed had with ⟨entry, there', own⟩
      cases cwd : old.identity.cwd with
      | none =>
          refine ⟨target, [], ?_, within_self parsed⟩
          rw [Pane.rebased, cwd]
          rfl
      | some path =>
          have contained := inside_of_accepted accepted there' (own.symm.trans cwd)
          rw [← rebaseHostPath_isSome] at contained
          rcases Option.isSome_iff_exists.mp contained with ⟨result, rebased⟩
          rcases kept _ _ rebased with ⟨rest, within⟩
          refine ⟨String.ofList result, rest, ?_, by simpa using within⟩
          rw [Pane.rebased, cwd]
          simp only [rebasedCwd]
          rw [rebased]
          rfl

theorem staysInside_of_kept (parsed : parse target.toList = some there)
    (kept : ∀ cwd rest, innermostCheckoutRest cwd checkouts = some rest → ∃ result,
      rebaseHostPath cwd checkouts target.toList = some result ∧
        Within result target.toList rest) : StaysInside checkouts target where
  seeded := by
    intro config loaded accepted workspace member pane inside
    apply seeded_of_kept parsed ?_ config loaded accepted member inside
    intro cwd result rebased
    have some' : (innermostCheckoutRest cwd checkouts).isSome = true := by
      rw [← rebaseHostPath_isSome, rebased]
      rfl
    rcases Option.isSome_iff_exists.mp some' with ⟨rest, found⟩
    rcases kept cwd rest found with ⟨result', again, within⟩
    obtain rfl := Option.some.inj (rebased.symm.trans again)
    exact ⟨rest, within⟩
  moved := fun cwd => by rw [rebaseHostPath_isSome, innermostCheckoutRest_isSome]
  kept := by
    intro cwd result rebased
    have some' : (innermostCheckoutRest cwd checkouts).isSome = true := by
      rw [← rebaseHostPath_isSome, rebased]
      rfl
    rcases Option.isSome_iff_exists.mp some' with ⟨rest, found⟩
    rcases kept cwd rest found with ⟨result', again, within⟩
    obtain rfl := Option.some.inj (rebased.symm.trans again)
    rcases innermostCheckoutRest_eq_some found with ⟨checkout, listed, depth, contains, most⟩
    exact ⟨checkout, listed, depth, rest, contains, most, within⟩

end seeded

end Rozi
