import Rozi.Layout.ProfileRestore

/-!
A workspace of a profile that is opened again places its panes as it did when it was saved.
-/

namespace Rozi

open SerializedTree

section built

variable (startAxis : SplitAxis)

theorem buildDwindleTreeAt_cons (ratios : List F32) (first second : PaneId) (rest : List PaneId)
    (depth : Nat) : buildDwindleTreeAt startAxis ratios (first :: second :: rest) depth =
      (buildDwindleTreeAt startAxis ratios (second :: rest) (depth + 1)).map
        (split (startAxis.atDepth depth) (ratioAt ratios depth) (leaf first)) := by
  rw [Option.map_eq_bind]
  rfl

theorem append_to_built {ids : List PaneId} {tree : DwindleTree} {depth : Nat}
    (built : buildDwindleTreeAt startAxis [] ids depth = some tree) (id : PaneId) :
    buildDwindleTreeAt startAxis [] (ids ++ [id]) depth =
      some (appendTiledLeafAt id startAxis tree depth) := by
  induction ids generalizing tree depth with
  | nil => cases built
  | cons first rest ih =>
      cases rest with
      | nil =>
          cases built
          rfl
      | cons second rest =>
          rw [buildDwindleTreeAt_cons, Option.map_eq_some_iff] at built
          rcases built with ⟨tail, made, rfl⟩
          have longer := ih made
          rw [List.cons_append] at longer
          rw [List.cons_append, List.cons_append, buildDwindleTreeAt_cons, longer]
          rfl

theorem appended_eq_built {ids : List PaneId} (distinct : ids.Nodup) :
    ids.foldl (appendMissing startAxis) none = buildDwindleTree ids startAxis [] := by
  induction ids using List.reverseRecOn with
  | nil => rfl
  | append_singleton ids id ih =>
      rw [List.nodup_append] at distinct
      have before := ih distinct.1
      have order := leavesOf_buildDwindleTreeAt startAxis [] ids 0
      rw [List.foldl_append, before, List.foldl_cons, List.foldl_nil]
      unfold buildDwindleTree at order ⊢
      cases built : buildDwindleTreeAt startAxis [] ids 0 with
      | none =>
          rw [built] at order
          cases order
          rfl
      | some tree =>
          rw [built] at order
          have fresh : treeContains tree id = false := by
            rw [← Bool.not_eq_true, treeContains_iff]
            intro member
            have listed : id ∈ ids := by
              rw [← order]
              exact member
            exact distinct.2.2 id listed id (by simp) rfl
          rw [append_to_built startAxis built]
          unfold appendMissing
          rw [Option.any_some, fresh]
          rfl

theorem buildDwindleTree_ratios {ratios ratios' : List F32}
    (same : ∀ depth, ratioAt ratios depth = ratioAt ratios' depth) (ids : List PaneId) :
    buildDwindleTree ids startAxis ratios = buildDwindleTree ids startAxis ratios' := by
  unfold buildDwindleTree
  generalize 0 = depth
  induction ids generalizing depth with
  | nil => rfl
  | cons first rest ih =>
      cases rest with
      | nil => rfl
      | cons second rest =>
          rw [buildDwindleTreeAt_cons, buildDwindleTreeAt_cons, ih, same]

/-- The ratios a workspace starts with are those of a workspace without any. -/
theorem ratioAt_defaults (depth : Nat) :
    ratioAt LayoutKind.defaultSplitRatios depth = ratioAt [] depth := by
  unfold ratioAt LayoutKind.defaultSplitRatios
  rw [List.getElem?_replicate]
  split_ifs
  · have clamped : clampSplitRatio defaultRatio = defaultRatio := by decide +kernel
    exact clamped
  · rfl

/-- A tree that names every tiled pane does not depend on how others would be added. -/
theorem effectiveTileTree_complete {tiledIds : List PaneId} {tree : DwindleTree}
    (complete : ∀ id ∈ tiledIds, id ∈ tree.leaves) (startAxis startAxis' : SplitAxis)
    (ratios ratios' : List F32) :
    effectiveTileTree tiledIds (some tree) startAxis ratios none =
      effectiveTileTree tiledIds (some tree) startAxis' ratios' none := by
  have active : tiledIds.filter (fun id => some id != none) = tiledIds :=
    List.filter_eq_self.mpr fun id _ => rfl
  unfold effectiveTileTree
  simp only [active, Option.bind_some]
  split_ifs with empty
  · rfl
  · have kept := leavesOf_pruneTreeToIds tiledIds tree
    have named : ∀ id ∈ tiledIds, id ∈ leavesOf (pruneTreeToIds tiledIds tree) := by
      intro id member
      rw [kept, List.mem_filter]
      exact ⟨complete id member, by simpa using member⟩
    cases pruned : pruneTreeToIds tiledIds tree with
    | none =>
        rw [pruned] at named
        rw [List.isEmpty_iff] at empty
        rcases List.exists_mem_of_ne_nil _ empty with ⟨id, member⟩
        cases named id member
    | some tree' =>
        rw [pruned] at named
        rw [Option.some_or, Option.some_or, foldl_appendMissing_whole _ named,
          foldl_appendMissing_whole _ named]

end built

/-- A workspace that is opened again. What a profile does not keep is the axis of the first split,
which is that of the place of the workspace; a stored tree that names a pane without a place in the
profile is not kept either, and the tiled panes are appended one by one. -/
structure Workspace.Reopens (index : Nat) (workspace again : Workspace) : Prop where
  panes : List.Forall₂ Pane.Reopens workspace.livePanes again.panes
  name : again.name = keptName workspace.name
  synchronized : again.synchronized = workspace.synchronized
  layoutKind : again.layoutKind = workspace.layoutKind
  startAxis : again.startAxis = SplitAxis.startForWorkspace index
  splitRatios : workspace.splitRatios ≠ [] → again.splitRatios = workspace.splitRatios
  ratios : ∀ depth, ratioAt again.splitRatios depth = ratioAt workspace.splitRatios depth
  focused : ∀ id ∈ workspace.focusedPane, id ∈ workspace.livePanes.map Pane.id →
    again.focusedPane = some id
  unfocused : (∀ id ∈ workspace.focusedPane, id ∉ workspace.livePanes.map Pane.id) →
    again.focusedPane = workspace.livePanes.head?.map Pane.id
  tiled : again.activeTiledIds = workspace.activeTiledIds
  tree : ∀ tree ∈ workspace.tileTree,
    (∀ id ∈ tree.leaves, id ∈ workspace.livePanes.map Pane.id) → again.tileTree = some tree
  tiling : ∀ tree ∈ workspace.tileTree,
    (∀ id ∈ tree.leaves, id ∈ workspace.livePanes.map Pane.id) →
    (workspace.startAxis = SplitAxis.startForWorkspace index ∨
      ∀ id ∈ workspace.activeTiledIds, id ∈ tree.leaves) →
    again.effectiveTileTree = workspace.effectiveTileTree
  rebuilt : (∀ tree ∈ workspace.tileTree,
      ∃ id ∈ tree.leaves, id ∉ workspace.livePanes.map Pane.id) →
    again.effectiveTileTree =
      buildDwindleTree workspace.activeTiledIds (SplitAxis.startForWorkspace index) []

section reopens

variable {config : ProfileConfig} {terminals : Terminals} {index : Nat} {workspace : Workspace}

def opensAgain (config : ProfileConfig) (terminals : Terminals) (index : Nat)
    (workspace : Workspace) : Workspace :=
  restoreWorkspace (workspaceProfileFromState terminals index workspace)
    (workspace.livePanes.mapIdx fun place pane => (place, reopened config terminals pane))
    { Workspace.fresh index with layoutKind := config.defaultLayout }

theorem restored_panes :
    (workspace.livePanes.mapIdx fun place pane => (place, reopened config terminals pane)).map
      Prod.snd = workspace.livePanes.map (reopened config terminals) := by
  refine List.ext_getElem? fun place => ?_
  simp only [List.getElem?_map, List.getElem?_mapIdx, Option.map_map]
  rfl

theorem restored_ids :
    AList.collect ((workspace.livePanes.mapIdx fun place pane =>
      (place, reopened config terminals pane)).map fun entry => (entry.1, entry.2.id)) =
      workspace.placedIds := by
  unfold Workspace.placedIds
  congr 1
  refine List.ext_getElem? fun place => ?_
  simp only [List.getElem?_map, List.getElem?_mapIdx, Option.map_map]
  rfl

theorem opensAgain_panes :
    (opensAgain config terminals index workspace).panes =
      workspace.livePanes.map (reopened config terminals) := by
  unfold opensAgain
  rw [panes_restoreWorkspace, restored_panes]
  rfl

theorem opensAgain_tiledIds :
    (opensAgain config terminals index workspace).activeTiledIds = workspace.activeTiledIds := by
  unfold Workspace.activeTiledIds
  rw [opensAgain_panes, Workspace.livePanes, List.filter_map, List.map_map, List.filter_filter]
  congr 1
  refine List.filter_congr fun pane _ => ?_
  show (!pane.floating && !false && !pane.closing) = (!pane.floating && !pane.closing)
  rw [Bool.not_false, Bool.and_true]

theorem restoreWorkspace_eq (profile : WorkspaceProfile) (restored : List (PaneId × Pane))
    (workspace : Workspace) :
    restoreWorkspace profile restored workspace = { workspace with
      name := keptName profile.name
      synchronized := profile.synchronized
      layoutKind := profile.layout
      splitRatios :=
        if profile.splitRatios.isEmpty then workspace.splitRatios else profile.splitRatios
      panes := workspace.panes ++ restored.map Prod.snd
      focusedPane := (profile.focusedPane.bind (AList.collect (restored.map fun entry =>
        (entry.1, entry.2.id))).lookup).or
          ((workspace.panes ++ restored.map Prod.snd).head?.map Pane.id)
      tileTree := (profile.tree.bind (toDwindle (AList.collect (restored.map fun entry =>
        (entry.1, entry.2.id))).lookup false)).or
          ((((workspace.panes ++ restored.map Prod.snd).filter fun pane =>
            !pane.floating).map Pane.id).foldl (appendMissing workspace.startAxis) none) } := by
  unfold restoreWorkspace
  simp only
  split_ifs with absent empty empty
  all_goals
    simp only [Option.isNone_iff_eq_none] at absent
  · simp only [absent, Option.none_or]
    rfl
  · simp only [absent, Option.none_or]
    rfl
  · rcases Option.ne_none_iff_exists'.mp absent with ⟨tree, kept⟩
    simp only [kept, Option.some_or]
  · rcases Option.ne_none_iff_exists'.mp absent with ⟨tree, kept⟩
    simp only [kept, Option.some_or]

theorem opensAgain_eq : opensAgain config terminals index workspace = {
    panes := workspace.livePanes.map (reopened config terminals)
    tileTree := ((workspace.tileTree.bind (fromDwindle workspace.paneIndices.lookup)).bind
        (toDwindle workspace.placedIds.lookup false)).or
      (workspace.activeTiledIds.foldl (appendMissing (SplitAxis.startForWorkspace index)) none)
    focusedPane := ((workspace.focusedPane.bind workspace.paneIndices.lookup).bind
      workspace.placedIds.lookup).or (workspace.livePanes.head?.map Pane.id)
    synchronized := workspace.synchronized
    layoutKind := workspace.layoutKind
    startAxis := SplitAxis.startForWorkspace index
    splitRatios := if workspace.splitRatios.isEmpty then LayoutKind.defaultSplitRatios
      else workspace.splitRatios
    name := keptName workspace.name } := by
  have tiledIds : ((workspace.livePanes.map (reopened config terminals)).filter fun pane =>
      !pane.floating).map Pane.id = workspace.activeTiledIds := by
    unfold Workspace.livePanes Workspace.activeTiledIds
    rw [List.filter_map, List.map_map, List.filter_filter]
    rfl
  have first : ((workspace.livePanes.map (reopened config terminals)).head?.map Pane.id) =
      workspace.livePanes.head?.map Pane.id := by
    cases workspace.livePanes <;> rfl
  unfold opensAgain
  rw [restoreWorkspace_eq, restored_ids, restored_panes]
  have fresh : (Workspace.fresh index).panes = [] := rfl
  simp only [fresh, List.nil_append, first, tiledIds]
  rfl

/-- The tree of a workspace that is opened again, over the tiled panes it had. -/
theorem opensAgain_effective :
    (opensAgain config terminals index workspace).effectiveTileTree =
      effectiveTileTree workspace.activeTiledIds
        (opensAgain config terminals index workspace).tileTree
        (SplitAxis.startForWorkspace index)
        (opensAgain config terminals index workspace).splitRatios none := by
  have tiled : (opensAgain config terminals index workspace).tileSource.tiledIdsByPaneOrder =
      workspace.activeTiledIds := opensAgain_tiledIds
  have axis : (opensAgain config terminals index workspace).startAxis =
      SplitAxis.startForWorkspace index := by rw [opensAgain_eq]
  unfold Workspace.effectiveTileTree TileSource.effectiveTileTree
  rw [tiled, ← axis]
  rfl

theorem opensAgain_ratios (depth : Nat) :
    ratioAt (opensAgain config terminals index workspace).splitRatios depth =
      ratioAt workspace.splitRatios depth := by
  rw [opensAgain_eq]
  simp only
  split_ifs with empty
  · rw [List.isEmpty_iff.mp empty, ratioAt_defaults]
  · rfl

theorem effectiveTileTree_ratios {tiledIds : List PaneId} (stored : Option DwindleTree)
    (startAxis : SplitAxis) {ratios ratios' : List F32}
    (same : ∀ depth, ratioAt ratios depth = ratioAt ratios' depth) :
    effectiveTileTree tiledIds stored startAxis ratios none =
      effectiveTileTree tiledIds stored startAxis ratios' none := by
  unfold effectiveTileTree
  simp only [buildDwindleTree_ratios startAxis same]

theorem effectiveTileTree_built {tiledIds : List PaneId} (distinct : tiledIds.Nodup)
    (startAxis : SplitAxis) (ratios : List F32) :
    effectiveTileTree tiledIds (tiledIds.foldl (appendMissing startAxis) none) startAxis ratios
      none = buildDwindleTree tiledIds startAxis [] := by
  rw [appended_eq_built startAxis distinct]
  have order : leavesOf (buildDwindleTree tiledIds startAxis []) = tiledIds :=
    leavesOf_buildDwindleTreeAt startAxis [] tiledIds 0
  cases built : buildDwindleTree tiledIds startAxis [] with
  | none =>
      rw [built] at order
      have none' : tiledIds = [] := order.symm
      subst none'
      rfl
  | some tree =>
      rw [built] at order
      exact effectiveTileTree_whole (fun id => by
        rw [← order]
        rfl) startAxis ratios

theorem opensAgain_reopens (distinct : (workspace.livePanes.map Pane.id).Nodup)
    (pin : ∀ pane ∈ workspace.livePanes, pane.pinned = true →
      pane.floating = true ∧ pane.fullscreen = false) :
    workspace.Reopens index (opensAgain config terminals index workspace) := by
  have kept : ∀ tree ∈ workspace.tileTree,
      (∀ id ∈ tree.leaves, id ∈ workspace.livePanes.map Pane.id) →
      (opensAgain config terminals index workspace).tileTree = some tree := by
    intro tree stored live
    have again := tree_reopens fun id member => found_again distinct (live id member)
    rw [opensAgain_eq]
    simp only [Option.mem_def.mp stored, Option.bind_some]
    rw [again, Option.some_or]
  have focus : ∀ id, id ∈ workspace.livePanes.map Pane.id →
      (workspace.paneIndices.lookup id).bind workspace.placedIds.lookup = some id := by
    intro id live
    rcases found_again distinct live with ⟨place, saved, loaded⟩
    rw [saved, Option.bind_some, loaded]
  constructor
  · rw [opensAgain_panes, List.forall₂_map_right_iff, List.forall₂_same]
    exact fun pane live => reopened_reopens config terminals (pin pane live)
  · rw [opensAgain_eq]
  · rw [opensAgain_eq]
  · rw [opensAgain_eq]
  · rw [opensAgain_eq]
  · intro some'
    rw [opensAgain_eq]
    simp only [List.isEmpty_iff, some', if_false]
  · exact opensAgain_ratios
  · intro id focused live
    rw [opensAgain_eq]
    simp only [Option.mem_def.mp focused, Option.bind_some, focus id live, Option.some_or]
  · intro elsewhere
    rw [opensAgain_eq]
    simp only
    cases focused : workspace.focusedPane with
    | none => rfl
    | some id =>
        rw [Option.bind_some, paneIndices_missing (elsewhere id focused)]
        rfl
  · exact opensAgain_tiledIds
  · exact kept
  · intro tree stored live own
    rw [opensAgain_effective, kept tree stored live, effectiveTileTree_ratios _ _ opensAgain_ratios]
    have before : workspace.effectiveTileTree = effectiveTileTree workspace.activeTiledIds
        (some tree) workspace.startAxis workspace.splitRatios none := by
      rw [← Option.mem_def.mp stored]
      rfl
    rw [before]
    rcases own with axis | complete
    · rw [axis]
    · exact effectiveTileTree_complete complete _ _ _ _
  · intro lost
    have unsaved : workspace.tileTree.bind (fromDwindle workspace.paneIndices.lookup) = none := by
      cases stored : workspace.tileTree with
      | none => rfl
      | some tree =>
          rcases lost tree stored with ⟨id, member, gone⟩
          exact tree_lost member (paneIndices_missing gone)
    have appended : (opensAgain config terminals index workspace).tileTree =
        workspace.activeTiledIds.foldl (appendMissing (SplitAxis.startForWorkspace index)) none := by
      rw [opensAgain_eq]
      simp only [unsaved, Option.bind_none, Option.none_or]
    rw [opensAgain_effective, appended]
    exact effectiveTileTree_built (distinct.sublist (activeTiledIds_sublist workspace)) _ _

end reopens

section attachment

variable {terminals : Terminals} {attachment : Attachment}

theorem mem_profileFromState (terminals : Terminals) {index : Nat} {workspace : Workspace}
    (there : attachment.workspaces[index]? = some workspace) (live : workspace.livePanes ≠ []) :
    workspaceProfileFromState terminals index workspace ∈
      (profileFromState terminals attachment).workspaces := by
  have some' : workspace.panes.any (!·.closing) = true := by
    rcases List.exists_mem_of_ne_nil _ live with ⟨pane, member⟩
    rcases List.mem_filter.mp member with ⟨listed, open'⟩
    exact List.any_eq_true.mpr ⟨pane, listed, open'⟩
  refine List.mem_filterMap.mpr ⟨(index, workspace), ?_, if_pos some'⟩
  refine List.mem_iff_getElem?.mpr ⟨index, ?_⟩
  rw [List.getElem?_mapIdx, there]
  rfl

theorem profileFromState_distinct :
    ((profileFromState terminals attachment).workspaces.map WorkspaceProfile.index).Nodup := by
  have places : ((attachment.workspaces.mapIdx fun index workspace => (index, workspace)).map
      Prod.fst).Nodup := by
    have range : (attachment.workspaces.mapIdx fun index workspace => (index, workspace)).map
        Prod.fst = List.range attachment.workspaces.length := by
      refine List.ext_getElem? fun place => ?_
      simp only [List.getElem?_map, List.getElem?_mapIdx, Option.map_map]
      by_cases inside : place < attachment.workspaces.length
      · simp [inside]
      · simp [inside]
    rw [range]
    exact List.nodup_range
  unfold profileFromState
  simp only
  generalize attachment.workspaces.mapIdx (fun index workspace => (index, workspace)) =
    placed at places
  refine places.sublist ?_
  clear places
  induction placed with
  | nil => exact .slnil
  | cons entry rest ih =>
      rcases entry with ⟨index, workspace⟩
      rw [List.filterMap_cons, List.map_cons]
      by_cases some' : workspace.panes.any (!·.closing) = true
      · simp only [if_pos some', List.map_cons]
        exact ih.cons_cons _
      · simp only [if_neg some']
        exact ih.cons _

/-- A session that is in good order is opened again from the profile it is saved as: every workspace
with a pane that is not closing comes back in its place, and the active one stays active. -/
theorem profile_reopens (config : ProfileConfig) (arith : Arithmetic)
    (geometry : SharedPaneGeometry) (previous : Option SharedLayout) (cols rows : Nat)
    (valid : (sharedLayoutFromState arith geometry attachment previous cols rows).validate = .ok ())
    {index : Nat} {workspace : Workspace}
    (there : attachment.workspaces[index]? = some workspace) (live : workspace.livePanes ≠ []) :
    ∃ again rebuilt,
      attachmentFromProfile config (profileFromState terminals attachment) = some again ∧
        again.workspaces[index]? = some rebuilt ∧ workspace.Reopens index rebuilt ∧
        (attachment.activeWorkspace < workspaceCount →
          again.activeWorkspace = attachment.activeWorkspace) := by
  rcases projection_valid arith geometry attachment previous cols rows valid there with
    ⟨inside, distinct, pin⟩
  have entry := mem_profileFromState terminals there live
  rcases @restoreWorkspaces_named config (freshWorkspaces config) _ 1 _
    profileFromState_distinct entry inside with ⟨next, restored⟩
  have fresh : (freshWorkspaces config)[index]? =
      some { Workspace.fresh index with layoutKind := config.defaultLayout } := by
    rw [freshWorkspaces, List.getElem?_map, List.getElem?_range inside]
    rfl
  rw [restorePanes_saved] at restored
  have placed : (restoreWorkspaces config (freshWorkspaces config) 1
      (profileFromState terminals attachment).workspaces).1[index]? =
        some (opensAgain config terminals index workspace) := by
    refine restored.trans ?_
    show Option.map _ (freshWorkspaces config)[index]? = _
    rw [fresh]
    rfl
  have filled : (opensAgain config terminals index workspace).panes ≠ [] := by
    rw [opensAgain_panes]
    simpa using live
  have some' : ¬ (restoreWorkspaces config (freshWorkspaces config) 1
      (profileFromState terminals attachment).workspaces).1.all (·.panes.isEmpty) = true := by
    intro empty
    have none' := List.all_eq_true.mp empty _ (List.mem_of_getElem? placed)
    exact filled (List.isEmpty_iff.mp none')
  have saved : ¬ (profileFromState terminals attachment).workspaces.all (·.panes.isEmpty) = true := by
    intro empty
    have none' := List.all_eq_true.mp empty _ entry
    rw [List.isEmpty_iff, workspaceProfileFromState, List.mapIdx_eq_nil_iff] at none'
    exact live none'
  have opened : ∃ again,
      attachmentFromProfile config (profileFromState terminals attachment) = some again ∧
        again.workspaces = (restoreWorkspaces config (freshWorkspaces config) 1
          (profileFromState terminals attachment).workspaces).1 ∧
        again.activeWorkspace = if attachment.activeWorkspace < workspaceCount then
          attachment.activeWorkspace else 0 := by
    unfold attachmentFromProfile
    rw [if_neg saved]
    simp only
    rw [if_neg some']
    exact ⟨_, rfl, rfl, rfl⟩
  rcases opened with ⟨again, opened, restored', active⟩
  refine ⟨again, _, opened, restored' ▸ placed, opensAgain_reopens distinct pin, ?_⟩
  intro within
  rw [active, if_pos within]

/-! Sessions of one workspace. -/

def tiledPane (id : PaneId) : Pane where
  id
  ptyGeneration := 1
  floatingRect := ProfileRect.standard

def savedSession : Attachment where
  workspaces := [{
    panes := [
      { tiledPane 4 with identity := { profileName := some "logs" } }, tiledPane 7,
      { tiledPane 2 with closing := true },
      { tiledPane 9 with floating := true, pinned := true }]
    tileTree := some (.split .vertical (.finite (3 / 10)) (.leaf 7) (.leaf 4))
    focusedPane := some 7
    startAxis := .horizontal }]

def movedSession : Attachment where
  workspaces := [{
    panes := [tiledPane 1, tiledPane 2, tiledPane 3]
    tileTree := some (.split .vertical (.finite (3 / 10)) (.leaf 1) (.leaf 2))
    startAxis := .vertical }]

def plainConfig : ProfileConfig where
  defaultLayout := .dwindle
  expandPath := id

def quietTerminals : Terminals where
  localCwd := fun pane => pane.identity.cwd
  runningCommand := fun _ => none

theorem validate_of_isOk {layout : SharedLayout} (sound : layout.validate.isOk = true) :
    layout.validate = .ok () :=
  (SharedLayout.validate_iff layout ()).mpr (SharedLayout.validate_isOk.mp sound)

theorem profile_reopens_saved :
    ∃ again rebuilt,
      attachmentFromProfile plainConfig (profileFromState quietTerminals savedSession) =
        some again ∧
        again.workspaces[0]? = some rebuilt ∧
        Workspace.Reopens 0 (savedSession.workspaces.get ⟨0, by decide⟩) rebuilt ∧
        (savedSession.activeWorkspace < workspaceCount →
          again.activeWorkspace = savedSession.activeWorkspace) :=
  profile_reopens plainConfig .exact {} none 100 30 (validate_of_isOk (by decide +kernel)) rfl
    (by decide)

/-- A workspace that was moved from another place does not start with its own axis again. -/
theorem start_axis_forgotten :
    (sharedLayoutFromState .exact {} movedSession none 100 30).validate = .ok () ∧
      ((attachmentFromProfile plainConfig (profileFromState quietTerminals movedSession)).bind
        fun again => again.workspaces[0]?.map fun workspace =>
          (workspace.startAxis, workspace.effectiveTileTree)) ≠
      movedSession.workspaces[0]?.map fun workspace =>
        (workspace.startAxis, workspace.effectiveTileTree) :=
  ⟨validate_of_isOk (by decide +kernel), by decide +kernel⟩

end attachment

end Rozi
