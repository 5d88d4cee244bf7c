import Rozi.Layout.ProfileAccepted
import Rozi.Layout.ProfileTiling

/-!
A profile is opened with a layout the session accepts just when the profile is acceptable.
-/

namespace Rozi

open SerializedTree

theorem defaultSplitRatios_proper : ∀ ratio ∈ LayoutKind.defaultSplitRatios, ratio.Proper := by
  intro ratio member
  rw [List.eq_of_mem_replicate member]
  exact defaultRatio_proper

section trees

variable {config : ProfileConfig}

theorem restorePanes_map {β : Type} (view : PaneId × Pane → β) (described : PaneProfile → β)
    (same : ∀ id profile, view (profile.id, restorePane config id profile) = described profile)
    (next : PaneId) (profiles : List PaneProfile) :
    (restorePanes config next profiles).1.map view = profiles.map described := by
  induction profiles generalizing next with
  | nil => rfl
  | cons profile rest ih =>
      rw [restorePanes, List.map_cons, List.map_cons, ih]
      exact congrArg₂ List.cons (same _ profile) rfl

theorem effectiveTileTree_valid_iff {tiledIds paneIds : List PaneId} (distinct : tiledIds.Nodup)
    (placed : ∀ id ∈ tiledIds, id ∈ paneIds) (stored : Option DwindleTree) (startAxis : SplitAxis)
    (splitRatios : List F32) :
    (∀ tree ∈ effectiveTileTree tiledIds stored startAxis splitRatios none,
        TreeValid paneIds tree) ↔
      (survivingLeaves tiledIds stored).Nodup ∧
        ∀ tree ∈ stored, tree.RatiosProperWhere (tiledIds.contains ·) := by
  have order := leavesOf_effectiveTileTree tiledIds distinct stored startAxis splitRatios
  rw [← effectiveTileTree_nodup_iff distinct stored startAxis splitRatios,
    ← effectiveTileTree_proper_iff tiledIds stored startAxis splitRatios]
  cases settled : effectiveTileTree tiledIds stored startAxis splitRatios none with
  | none => simp [leavesOf]
  | some tree =>
      rw [settled] at order
      have named : ∀ id ∈ tree.leaves, id ∈ paneIds := by
        intro id member
        have listed : id ∈ survivingLeaves tiledIds stored ++
            tiledIds.filter fun id => id ∉ survivingLeaves tiledIds stored := order ▸ member
        rcases List.mem_append.mp listed with kept | added
        · exact placed id (by simpa using (List.mem_filter.mp kept).2)
        · exact placed id (List.mem_filter.mp added).1
      simp only [Option.mem_def, Option.some.injEq, forall_eq']
      constructor
      · exact fun valid => ⟨valid.unique, valid.ratios⟩
      · exact fun sound => ⟨sound.2, sound.1, named⟩

/-- Leaves that resolve apart are named once, if those they resolve to are. -/
theorem toDwindle_nodup_iff {resolve : PaneId → Option PaneId} {tree : ProfileTree}
    {restored : DwindleTree} (whole : toDwindle resolve false tree = some restored)
    (apart : ∀ leaf leaf' id, resolve leaf = some id → resolve leaf' = some id → leaf = leaf')
    (kept : PaneId → Bool) : (restored.leaves.filter kept).Nodup ↔
      (tree.leaves.filter fun leaf => (resolve leaf).any kept).Nodup := by
  have resolved := (toDwindle_strict whole).1
  have survivors : (restored.leaves.filter kept).map some =
      (tree.leaves.filter fun leaf => (resolve leaf).any kept).map resolve := by
    have same := congrArg (List.filter (Option.any kept)) resolved
    rw [List.filter_map, List.filter_map] at same
    exact same
  rw [← List.nodup_map_iff (Option.some_injective PaneId), survivors]
  constructor
  · exact List.Nodup.of_map resolve
  · refine fun unique => unique.map_on fun leaf member leaf' _ same => ?_
    have known := (List.mem_filter.mp member).2
    cases found : resolve leaf with
    | none =>
        rw [found] at known
        cases known
    | some id => exact apart leaf leaf' id found (same ▸ found)

section read

variable {entry : WorkspaceProfile} {restored : List (PaneId × Pane)}

def resolveIn (restored : List (PaneId × Pane)) (leaf : PaneId) : Option PaneId :=
  (AList.collect (restored.map fun entry => (entry.1, entry.2.id))).lookup leaf

theorem resolveIn_eq (leaf : PaneId) :
    resolveIn restored leaf = ((AList.collect restored).lookup leaf).map Pane.id :=
  AList.lookup_collect_map Pane.id restored

theorem resolveIn_apart (distinct : (restored.map fun entry => entry.2.id).Nodup)
    (leaf leaf' id : PaneId) (here : resolveIn restored leaf = some id)
    (there : resolveIn restored leaf' = some id) : leaf = leaf' := by
  rw [resolveIn_eq] at here there
  rcases Option.map_eq_some_iff.mp here with ⟨pane, found, rfl⟩
  rcases Option.map_eq_some_iff.mp there with ⟨pane', found', same⟩
  have first := AList.mem_of_lookup_collect found
  have second := AList.mem_of_lookup_collect found'
  exact congrArg Prod.fst (List.inj_on_of_nodup_map distinct first second same.symm)

theorem tiles_eq {panes : List Pane} (distinct : (panes.map Pane.id).Nodup)
    (inside : ∀ pane ∈ restored.map Prod.snd, pane ∈ panes)
    (floating : restored.map (fun entry => (entry.1, entry.2.floating)) =
      entry.panes.map fun pane => (pane.id, pane.floating)) :
    entry.tiles = fun leaf => (resolveIn restored leaf).any
      (((panes.filter fun pane => !pane.floating).map Pane.id).contains ·) := by
  funext leaf
  have own : (AList.collect (entry.panes.map fun pane => (pane.id, pane.floating))).lookup leaf =
      ((AList.collect restored).lookup leaf).map Pane.floating := by
    rw [← floating]
    exact AList.lookup_collect_map Pane.floating restored
  unfold WorkspaceProfile.tiles
  rw [own, resolveIn_eq]
  cases found : (AList.collect restored).lookup leaf with
  | none => rfl
  | some pane =>
      have member := inside pane (List.mem_map_of_mem (AList.mem_of_lookup_collect found))
      rw [Bool.eq_iff_iff]
      simp only [Option.map_some, Option.any_some, List.contains_iff_mem, beq_iff_eq,
        Option.some.injEq]
      rw [List.mem_map]
      constructor
      · intro tiled
        exact ⟨pane, List.mem_filter.mpr ⟨member, by rw [tiled]; rfl⟩, rfl⟩
      · rintro ⟨other, listed, same⟩
        rcases List.mem_filter.mp listed with ⟨member', tiled⟩
        rw [← List.inj_on_of_nodup_map distinct member' member same]
        simpa using tiled

end read

theorem built_valid {tiledIds paneIds : List PaneId} (distinct : tiledIds.Nodup)
    (placed : ∀ id ∈ tiledIds, id ∈ paneIds) (startAxis : SplitAxis) :
    ∀ tree ∈ buildDwindleTree tiledIds startAxis [], TreeValid paneIds tree := by
  intro tree built
  have order : leavesOf (buildDwindleTree tiledIds startAxis []) = tiledIds :=
    leavesOf_buildDwindleTreeAt startAxis [] tiledIds 0
  rw [Option.mem_def.mp built] at order
  have order : tree.leaves = tiledIds := order
  exact ⟨buildDwindleTreeAt_proper startAxis [] tiledIds 0 tree built, order ▸ distinct,
    order ▸ placed⟩

variable {entry : WorkspaceProfile} {next : PaneId} {before : Workspace}

/-- The tree of a workspace whose last entry is this one, if its panes have ids of their own. -/
theorem restored_tree_iff {workspace : Workspace}
    (made : workspace = restoreWorkspace entry (restorePanes config next entry.panes).1 before)
    (distinct : workspace.paneIds.Nodup)
    (live : ∀ pane ∈ workspace.panes, pane.closing = false) :
    (∀ tree ∈ workspace.effectiveTileTree, TreeValid workspace.paneIds tree) ↔
      ∀ tree ∈ entry.tree, (∀ leaf ∈ tree.leaves, leaf ∈ entry.panes.map PaneProfile.id) →
        (tree.leaves.filter entry.tiles).Nodup ∧ tree.RatiosProperWhere entry.tiles := by
  have panes : workspace.panes = before.panes ++
      (restorePanes config next entry.panes).1.map Prod.snd := by
    rw [made, panes_restoreWorkspace]
  have tiledIds : workspace.activeTiledIds =
      (workspace.panes.filter fun pane => !pane.floating).map Pane.id := by
    unfold Workspace.activeTiledIds
    congr 1
    refine List.filter_congr fun pane member => ?_
    rw [live pane member, Bool.not_false, Bool.and_true]
  have once : workspace.activeTiledIds.Nodup := by
    rw [tiledIds]
    exact distinct.sublist (List.filter_sublist.map _)
  have placed : ∀ id ∈ workspace.activeTiledIds, id ∈ workspace.paneIds := by
    rw [tiledIds]
    exact fun id member => (List.filter_sublist.map _).subset member
  have own : ((restorePanes config next entry.panes).1.map fun entry => entry.2.id).Nodup := by
    rw [Workspace.paneIds, panes, List.map_append, List.map_map] at distinct
    exact (List.nodup_append.mp distinct).2.1
  have tiles := @tiles_eq entry _ _ distinct
    (by rw [panes]; exact fun pane member => List.mem_append_right _ member)
    (restorePanes_map _ _ (fun _ _ => rfl) next entry.panes)
  rw [← tiledIds] at tiles
  have names : ∀ {leaf}, (resolveIn (restorePanes config next entry.panes).1 leaf).isSome ↔
      leaf ∈ entry.panes.map PaneProfile.id := by
    intro leaf
    rw [resolveIn, AList.lookup_collect_isSome, List.map_map,
      restorePanes_map _ PaneProfile.id fun _ _ => rfl]
  have stored : workspace.tileTree =
      (entry.tree.bind (toDwindle (resolveIn (restorePanes config next entry.panes).1) false)).or
        (workspace.activeTiledIds.foldl (appendMissing workspace.startAxis) none) := by
    rw [tiledIds, panes, made, restoreWorkspace_eq]
    rfl
  have settled : workspace.effectiveTileTree = effectiveTileTree workspace.activeTiledIds
      workspace.tileTree workspace.startAxis workspace.splitRatios none := rfl
  rw [settled, stored]
  cases restored : entry.tree.bind
      (toDwindle (resolveIn (restorePanes config next entry.panes).1) false) with
  | none =>
      rw [Option.none_or, effectiveTileTree_built once]
      refine iff_of_true (built_valid once placed _) ?_
      intro tree has all
      rw [Option.mem_def.mp has, Option.bind_some] at restored
      have whole := (toDwindle_strict_isSome tree).mpr fun leaf there => names.mpr (all leaf there)
      rw [restored] at whole
      cases whole
  | some tree =>
      rcases Option.bind_eq_some_iff.mp restored with ⟨tree', has, whole⟩
      have all : ∀ leaf ∈ tree'.leaves, leaf ∈ entry.panes.map PaneProfile.id := by
        have every := (toDwindle_strict_isSome tree').mp (Option.isSome_of_eq_some whole)
        exact fun leaf there => names.mp (every leaf there)
      rw [Option.some_or, effectiveTileTree_valid_iff once placed]
      simp only [has, Option.mem_def, Option.some.injEq, forall_eq', tiles]
      rw [(toDwindle_strict whole).2, ← toDwindle_nodup_iff whole (resolveIn_apart own)]
      exact ⟨fun sound _ => sound, fun sound => sound all⟩

theorem restored_placed {workspace : Workspace}
    (made : workspace = restoreWorkspace entry (restorePanes config next entry.panes).1 before)
    (distinct : workspace.paneIds.Nodup) :
    (∀ id ∈ workspace.focusedPane, id ∈ workspace.paneIds) ∧
      ∀ id ∈ leavesOf workspace.tileTree, id ∈ workspace.paneIds := by
  generalize (restorePanes config next entry.panes).1 = restored at made
  have panes : workspace.panes = before.panes ++ restored.map Prod.snd := by
    rw [made, panes_restoreWorkspace]
  have resolved : ∀ leaf id, resolveIn restored leaf = some id → id ∈ workspace.paneIds := by
    intro leaf id found
    rw [resolveIn_eq] at found
    rcases Option.map_eq_some_iff.mp found with ⟨pane, there, rfl⟩
    refine List.mem_map_of_mem (panes ▸ List.mem_append_right _ ?_)
    exact List.mem_map_of_mem (AList.mem_of_lookup_collect there)
  rw [restoreWorkspace_eq, ← panes] at made
  constructor
  · intro id focused
    have focus : workspace.focusedPane = (entry.focusedPane.bind (resolveIn restored)).or
        (workspace.panes.head?.map Pane.id) := by
      conv_lhs => rw [made]
      rfl
    rw [focus, Option.mem_def, Option.or_eq_some_iff] at focused
    rcases focused with named | ⟨_, first⟩
    · rcases Option.bind_eq_some_iff.mp named with ⟨leaf, _, found⟩
      exact resolved leaf id found
    · rcases Option.map_eq_some_iff.mp first with ⟨pane, head, rfl⟩
      exact List.mem_map_of_mem (List.mem_of_head? head)
  · intro id member
    have tiled : ((workspace.panes.filter fun pane => !pane.floating).map Pane.id).Sublist
        workspace.paneIds := List.filter_sublist.map _
    have stored : workspace.tileTree =
        (entry.tree.bind (toDwindle (resolveIn restored) false)).or
          (((workspace.panes.filter fun pane => !pane.floating).map Pane.id).foldl
            (appendMissing before.startAxis) none) := by
      conv_lhs => rw [made]
      rfl
    rw [stored] at member
    cases whole : entry.tree.bind (toDwindle (resolveIn restored) false) with
    | none =>
        rw [whole, Option.none_or, appended_eq_built _ (distinct.sublist tiled)] at member
        have order := leavesOf_buildDwindleTreeAt before.startAxis []
          ((workspace.panes.filter fun pane => !pane.floating).map Pane.id) 0
        rw [buildDwindleTree, order] at member
        exact tiled.subset member
    | some tree =>
        rw [whole, Option.some_or] at member
        rcases Option.bind_eq_some_iff.mp whole with ⟨tree', _, found⟩
        have there : some id ∈ tree.leaves.map some := List.mem_map_of_mem member
        rw [(toDwindle_strict found).1] at there
        rcases List.mem_map.mp there with ⟨leaf, _, same⟩
        exact resolved leaf id same

end trees

section opens

variable (config : ProfileConfig) (profile : Profile)

def Profile.opened (index : Nat) : Workspace :=
  restoreOne config index { Workspace.fresh index with layoutKind := config.defaultLayout } 1
    profile.workspaces

theorem opened_all (index : Nat) {test : Pane → Prop} {described : PaneProfile → Prop}
    (same : ∀ id entry, test (restorePane config id entry) ↔ described entry) :
    (∀ pane ∈ (profile.opened config index).panes, test pane) ↔
      ∀ entry ∈ entriesOf index profile.workspaces, ∀ pane ∈ entry.panes, described pane := by
  have panes := @restoreOne_panes config index Prop test described
    (fun id entry => propext (same id entry))
    { Workspace.fresh index with layoutKind := config.defaultLayout } 1 profile.workspaces
  have all : (∀ held ∈ (profile.opened config index).panes.map test, held) ↔
      ∀ held ∈ (entriesOf index profile.workspaces).flatMap fun entry =>
        entry.panes.map described, held := by
    rw [Profile.opened, panes]
    exact Iff.rfl
  rw [List.forall_mem_map] at all
  rw [all]
  simp only [List.mem_flatMap, List.mem_map, forall_exists_index, and_imp]
  constructor
  · exact fun every entry listed pane member => every _ entry listed pane member rfl
  · rintro every _ entry listed pane member rfl
    exact every entry listed pane member

theorem opened_live (index : Nat) :
    ∀ pane ∈ (profile.opened config index).panes, pane.closing = false :=
  (opened_all config profile index fun _ _ => Iff.rfl).mpr fun _ _ _ _ => rfl

theorem opened_pin (index : Nat) : ∀ pane ∈ (profile.opened config index).panes,
    pane.pinned = true → pane.floating = true ∧ pane.fullscreen = false := by
  refine (@opened_all config profile index _ (fun _ => True) fun id entry => ?_).mpr
    fun _ _ _ _ => trivial
  rw [iff_true]
  show (entry.pinned && entry.floating && !entry.fullscreen) = true →
    entry.floating = true ∧ entry.fullscreen = false
  rw [Bool.and_eq_true, Bool.and_eq_true, Bool.not_eq_true']
  exact fun pin => ⟨pin.1.2, pin.2⟩

theorem opened_rects (arith : Arithmetic) (cols rows index : Nat) :
    (∀ pane ∈ (profile.opened config index).panes, pane.floating = true →
        pane.floatingRect.Fits arith cols rows) ↔
      ∀ entry ∈ entriesOf index profile.workspaces, ∀ pane ∈ entry.panes, pane.floating = true →
        (pane.rect.getD ProfileRect.standard).Fits arith cols rows :=
  opened_all config profile index fun _ _ => Iff.rfl

theorem opened_ratios (index : Nat) :
    (∀ ratio ∈ (profile.opened config index).splitRatios, ratio.Proper) ↔
      ∀ entry ∈ ((entriesOf index profile.workspaces).filter fun entry =>
        !entry.splitRatios.isEmpty).getLast?, ∀ ratio ∈ entry.splitRatios, ratio.Proper := by
  rw [Profile.opened, restoreOne_splitRatios]
  cases ((entriesOf index profile.workspaces).filter fun entry =>
      !entry.splitRatios.isEmpty).getLast? with
  | none => simpa [Workspace.fresh] using defaultSplitRatios_proper
  | some entry => simp

theorem opened_tree {index : Nat} (distinct : (profile.opened config index).paneIds.Nodup) :
    (∀ tree ∈ (profile.opened config index).effectiveTileTree,
        TreeValid (profile.opened config index).paneIds tree) ↔
      ∀ entry ∈ (entriesOf index profile.workspaces).getLast?, ∀ tree ∈ entry.tree,
        (∀ leaf ∈ tree.leaves, leaf ∈ entry.panes.map PaneProfile.id) →
          (tree.leaves.filter entry.tiles).Nodup ∧ tree.RatiosProperWhere entry.tiles := by
  rcases @restoreOne_last config index
    { Workspace.fresh index with layoutKind := config.defaultLayout } 1 profile.workspaces with
    ⟨none', same⟩ | ⟨entry, next, before, last, made⟩
  · have empty : (profile.opened config index).effectiveTileTree = none := by
      rw [Profile.opened, same]
      rfl
    rw [empty, none']
    simp
  · have made : profile.opened config index =
        restoreWorkspace entry (restorePanes config next entry.panes).1 before := made
    rw [restored_tree_iff made distinct (opened_live config profile index), last]
    simp

theorem opened_placed {index : Nat} (distinct : (profile.opened config index).paneIds.Nodup) :
    (∀ id ∈ (profile.opened config index).focusedPane,
        id ∈ (profile.opened config index).paneIds) ∧
      ∀ id ∈ leavesOf (profile.opened config index).tileTree,
        id ∈ (profile.opened config index).paneIds := by
  rcases @restoreOne_last config index
    { Workspace.fresh index with layoutKind := config.defaultLayout } 1 profile.workspaces with
    ⟨_, same⟩ | ⟨entry, next, before, _, made⟩
  · rw [Profile.opened, same]
    constructor
    · rintro id ⟨⟩
    · rintro id ⟨⟩
  · exact restored_placed made distinct

variable {config} {profile} {attachment : Attachment}

theorem attachment_get (seeded : attachmentFromProfile config profile = some attachment)
    (index : Nat) : attachment.workspaces[index]? =
      if index < workspaceCount then some (profile.opened config index) else none := by
  have fresh : (freshWorkspaces config)[index]? = if index < workspaceCount then
      some { Workspace.fresh index with layoutKind := config.defaultLayout } else none := by
    unfold freshWorkspaces
    rw [List.getElem?_map]
    split_ifs with inside
    · rw [List.getElem?_range inside]
      rfl
    · rw [List.getElem?_eq_none (by simpa using inside)]
      rfl
  rw [workspaces_of_attachment seeded, restoreWorkspaces_get, fresh]
  split_ifs <;> rfl

theorem attachment_length (seeded : attachmentFromProfile config profile = some attachment) :
    attachment.workspaces.length = workspaceCount := by
  rw [workspaces_of_attachment seeded, restoreWorkspaces_length]
  exact (List.length_map _).trans List.length_range

theorem attachment_all (seeded : attachmentFromProfile config profile = some attachment)
    {fine : Workspace → Prop} : (∀ workspace ∈ attachment.workspaces, fine workspace) ↔
      ∀ index, index < workspaceCount → fine (profile.opened config index) := by
  constructor
  · intro all index inside
    refine all _ (List.mem_iff_getElem?.mpr ⟨index, ?_⟩)
    rw [attachment_get seeded, if_pos inside]
  · intro all workspace member
    rcases List.mem_iff_getElem?.mp member with ⟨index, there⟩
    rw [attachment_get seeded, Option.ite_none_right_eq_some] at there
    rcases there with ⟨inside, made⟩
    exact Option.some.inj made ▸ all index inside

/-- The panes of a session that began with none are those of the profile. -/
theorem seeded_ids (config : ProfileConfig) (profile : Profile) :
    ((restoreWorkspaces config (freshWorkspaces config) 1 profile.workspaces).1.flatMap
      Workspace.paneIds).Perm (idsFrom 1 profile.wanted) := by
  have all : (freshWorkspaces config).length = workspaceCount :=
    (List.length_map _).trans List.length_range
  have none' : (freshWorkspaces config).flatMap Workspace.paneIds = [] := by
    refine List.flatMap_eq_nil_iff.mpr fun workspace member => ?_
    rw [Workspace.paneIds, panes_freshWorkspaces member]
    rfl
  have perm := @restoreWorkspaces_ids config (freshWorkspaces config) 1 profile.workspaces all
  rw [none', List.nil_append] at perm
  exact perm

theorem attachment_ids (seeded : attachmentFromProfile config profile = some attachment) :
    (attachment.workspaces.flatMap Workspace.paneIds).Perm (idsFrom 1 profile.wanted) := by
  rw [workspaces_of_attachment seeded]
  exact seeded_ids config profile

theorem attachment_next (seeded : attachmentFromProfile config profile = some attachment) :
    attachment.nextPaneId = nextFrom 1 profile.wanted := by
  have counted := @restoreWorkspaces_next config (freshWorkspaces config) 1 profile.workspaces
  rw [Profile.wanted, Profile.placed, ← counted]
  unfold attachmentFromProfile at seeded
  simp only [Option.ite_none_left_eq_some, Option.some.injEq] at seeded
  rcases seeded with ⟨_, _, rfl⟩
  rfl

theorem mem_placed_iff {entry : WorkspaceProfile} : entry ∈ profile.placed ↔
    ∃ index, index < workspaceCount ∧ entry ∈ entriesOf index profile.workspaces := by
  unfold Profile.placed entriesOf
  simp only [List.mem_filter, decide_eq_true_eq]
  constructor
  · rintro ⟨listed, inside⟩
    exact ⟨entry.index, inside, listed, inside, rfl⟩
  · rintro ⟨_, _, listed, inside, _⟩
    exact ⟨listed, inside⟩

theorem entriesOf_outside {index : Nat} (outside : ¬ index < workspaceCount)
    (entries : List WorkspaceProfile) : entriesOf index entries = [] := by
  refine List.filter_eq_nil_iff.mpr fun entry _ => ?_
  rw [decide_eq_true_eq]
  rintro ⟨inside, rfl⟩
  exact outside inside

/-- A profile that is opened gives a layout the session accepts if and only if it asks for free ids,
gives its floats proper sizes on the canvas and splits properly. -/
theorem profile_accepted_iff (seeded : attachmentFromProfile config profile = some attachment)
    {geometry : SharedPaneGeometry} (proper : geometry.invalid = false) {next : Nat}
    (positive : 0 < next) (arith : Arithmetic) (cols rows : Nat) :
    attachment.Accepted arith geometry cols rows next ↔ profile.Acceptable arith cols rows := by
  have perm := attachment_ids seeded
  have live : ∀ workspace ∈ attachment.workspaces, ∀ pane ∈ workspace.panes,
      pane.closing = false :=
    (attachment_all seeded).mpr fun index _ => opened_live config profile index
  have valid := validates_iff arith cols rows positive proper (attachment_length seeded) live
  have own : (idsFrom 1 profile.wanted).Nodup → ∀ index, index < workspaceCount →
      (profile.opened config index).paneIds.Nodup := fun distinct =>
    (attachment_all seeded).mp (List.nodup_flatMap.mp (perm.nodup_iff.mpr distinct)).1
  constructor
  · intro accepted
    have distinct := perm.nodup_iff.mp accepted.distinct
    have fit := (attachment_all seeded).mp (valid.mp accepted.validates).2
    refine ⟨idsFrom_distinct_iff.mp ⟨distinct, ?_⟩, ?_, ?_, ?_⟩
    · intro id member
      refine lt_of_lt_of_le (accepted.below id (perm.mem_iff.mpr member)) ?_
      rw [attachment_next seeded]
      exact nextFrom_le (by decide)
    · intro entry placed
      rcases mem_placed_iff.mp placed with ⟨index, inside, listed⟩
      exact (opened_rects config profile arith cols rows index).mp
        (fun pane member => ((fit index inside).panes pane member).rect) entry listed
    · intro index
      by_cases inside : index < workspaceCount
      · exact (opened_ratios config profile index).mp (fit index inside).ratios
      · rw [entriesOf_outside inside]
        rintro entry ⟨⟩
    · intro index
      by_cases inside : index < workspaceCount
      · exact (opened_tree config profile (own distinct index inside)).mp (fit index inside).tree
      · rw [entriesOf_outside inside]
        rintro entry ⟨⟩
  · intro acceptable
    rcases idsFrom_distinct_iff.mpr acceptable.ids with ⟨distinct, unreserved⟩
    have own := own distinct
    have free : ∀ id ∈ attachment.workspaces.flatMap Workspace.paneIds, id < popupPaneId :=
      fun id member => unreserved id (perm.mem_iff.mp member)
    have free' := (attachment_all seeded).mp fun workspace member id held =>
      free id (List.mem_flatMap.mpr ⟨workspace, member, held⟩)
    refine ⟨perm.nodup_iff.mpr distinct, ?_, ?_, ?_, valid.mpr
      ⟨perm.nodup_iff.mpr distinct, ?_⟩⟩
    · intro id member
      rw [attachment_next seeded]
      exact lt_nextFrom (perm.mem_iff.mp member) (free id member)
    · exact (attachment_all seeded).mpr fun index inside =>
        (opened_placed config profile (own index inside)).1
    · exact (attachment_all seeded).mpr fun index inside =>
        (opened_placed config profile (own index inside)).2
    · refine (attachment_all seeded).mpr fun index inside => ⟨?_, ?_, ?_⟩
      · intro pane member
        refine ⟨(free' index inside pane.id (List.mem_map_of_mem member)).ne, ?_,
          opened_pin config profile index pane member⟩
        refine (opened_rects config profile arith cols rows index).mpr ?_ pane member
        exact fun entry listed => acceptable.rects entry (mem_placed_iff.mpr ⟨index, inside, listed⟩)
      · exact (opened_ratios config profile index).mpr (acceptable.ratios index)
      · exact (opened_tree config profile (own index inside)).mpr (acceptable.trees index)

end opens

/-! Profiles written by hand. -/

def handWritten : Profile where
  workspaces := [{
    index := 2
    focusedPane := some 11
    tree := some (.split .horizontal (.finite (1 / 3)) (.leaf 10) (.leaf 11))
    panes := [{ id := 10, paneId := some 4 }, { id := 11 }] }]

theorem handWritten_opens : (attachmentFromProfile plainConfig handWritten).isSome = true := by
  decide +kernel

theorem profile_accepted_iff_handWritten : handWritten.Acceptable .exact 100 30 := by
  have proper : ({} : SharedPaneGeometry).invalid = false := rfl
  refine (profile_accepted_iff (Option.some_get handWritten_opens).symm proper Nat.one_pos
    .exact 100 30).mp ⟨?_, ?_, ?_, ?_, validate_of_isOk ?_⟩
  all_goals decide +kernel

def carriedId : Profile where
  workspaces := [{ panes := [{ id := 0 }, { id := 1, paneId := some 1 }] }]

theorem carriedId_opens : (attachmentFromProfile plainConfig carriedId).isSome = true := by
  decide +kernel

theorem carried_id_taken : ¬ ∃ arith : Arithmetic, ∀ (config : ProfileConfig)
    (profile : Profile) (attachment : Attachment) (geometry : SharedPaneGeometry)
    (cols rows next : Nat), attachmentFromProfile config profile = some attachment →
      geometry.invalid = false → 0 < next →
        attachment.Accepted arith geometry cols rows next := by
  rintro ⟨arith, all⟩
  have accepted := all plainConfig carriedId _ {} 100 30 1 (Option.some_get carriedId_opens).symm
    rfl Nat.one_pos
  have twice : ¬ (((attachmentFromProfile plainConfig carriedId).get
      carriedId_opens).workspaces.flatMap Workspace.paneIds).Nodup := by decide +kernel
  exact twice accepted.distinct

end Rozi
