import Rozi.Layout.Edit

/-!
What an edit does to the panes a document places. Apart from a pane that is added or removed, every
edit places the same panes under the same generations, and the edits that are not validated again
keep a valid document valid.
-/

namespace Rozi

open SerializedTree

def SharedWorkspace.placements (workspace : SharedWorkspace) : List (PaneId × Nat) :=
  workspace.panes.map fun pane => (pane.paneId, pane.generation)

section workspace

variable (workspace : SharedWorkspace)

theorem SharedWorkspace.paneIds_eq : workspace.paneIds = workspace.placements.map Prod.fst := by
  simp [paneIds, placements]

theorem SharedLayout.placements_eq (layout : SharedLayout) :
    layout.placements = layout.workspaces.flatMap SharedWorkspace.placements := by
  rw [SharedLayout.placements, SharedLayout.panes, List.map_flatMap]
  rfl

theorem SharedLayout.paneIds_eq (layout : SharedLayout) :
    layout.paneIds = layout.placements.map Prod.fst := by
  simp [paneIds, placements]

theorem updatePane_placements (id : PaneId) {change : SharedPane → SharedPane}
    (same : ∀ pane, (change pane).paneId = pane.paneId ∧
      (change pane).generation = pane.generation) :
    (workspace.updatePane id change).placements = workspace.placements := by
  apply map_updateFirst
  intro pane
  rw [(same pane).1, (same pane).2]

@[simp] theorem settleTree_placements : workspace.settleTree.placements = workspace.placements :=
  rfl

@[simp] theorem clearOtherFullscreen_placements (keep : PaneId) :
    (workspace.clearOtherFullscreen keep).placements = workspace.placements := by
  simp only [SharedWorkspace.placements, SharedWorkspace.clearOtherFullscreen, List.map_map]
  apply List.map_congr_left
  intro pane _
  by_cases kept : pane.paneId = keep <;> simp [kept]

theorem applyPaneSizes_placements (id : PaneId) (edit : PaneEdit) :
    (workspace.applyPaneSizes id edit).placements = workspace.placements := by
  have widened : ∀ width, (workspace.updatePane id fun pane =>
      { pane with scrollableWidth := width }).placements = workspace.placements :=
    fun width => updatePane_placements workspace id fun _ => ⟨rfl, rfl⟩
  unfold SharedWorkspace.applyPaneSizes
  cases edit.widthRatio with
  | none => cases edit.splitRatio <;> rfl
  | some width =>
      cases edit.splitRatio with
      | none => exact widened width
      | some share => exact widened width

theorem editPlaced_placements (id : PaneId) (edit : PaneEdit) :
    (SharedLayout.editPlaced id edit workspace).placements = workspace.placements := by
  have shown : ∀ fullscreen, (workspace.updatePane id fun pane =>
      { pane with fullscreen, pinned := pane.pinned && !fullscreen }).placements =
        workspace.placements :=
    fun fullscreen => updatePane_placements workspace id fun _ => ⟨rfl, rfl⟩
  unfold SharedLayout.editPlaced
  simp only
  rw [applyPaneSizes_placements]
  cases edit.fullscreen with
  | none => rfl
  | some fullscreen =>
      cases fullscreen with
      | false => exact shown false
      | true =>
          simp only [beq_self_eq_true, if_true]
          rw [clearOtherFullscreen_placements]
          exact shown true

theorem receivePane_placements (pane : SharedPane) :
    (SharedLayout.receivePane pane workspace).placements =
      workspace.placements ++ [(pane.paneId, pane.generation)] := by
  unfold SharedLayout.receivePane
  simp only
  generalize extended : (if pane.floating = true then workspace else { workspace.settleTree with
    tree := fromDwindle some (appendTiledLeaf workspace.settleTree.storedTileTree pane.paneId
      workspace.settleTree.startAxis) }) = destination
  have kept : destination.panes = workspace.panes := by
    rw [← extended]
    split_ifs <;> rfl
  have arrived : { destination with panes := destination.panes ++ [pane] }.placements =
      workspace.placements ++ [(pane.paneId, pane.generation)] := by
    simp [SharedWorkspace.placements, kept]
  split_ifs
  · rw [clearOtherFullscreen_placements]
    exact arrived
  · exact arrived

end workspace

namespace SharedLayout

variable {layout next : SharedLayout}

/-- Rearranged: the same panes under the same generations. -/
def Rearranged (before after : SharedLayout) : Prop :=
  after.placements.Perm before.placements

theorem Rearranged.rfl' (layout : SharedLayout) : Rearranged layout layout :=
  List.Perm.refl _

theorem Rearranged.trans {first second third : SharedLayout} (one : Rearranged first second)
    (two : Rearranged second third) : Rearranged first third :=
  List.Perm.trans two one

theorem updateWorkspace_exchanged {position : Nat} {workspace : SharedWorkspace}
    (change : SharedWorkspace → SharedWorkspace)
    (present : layout.workspaces[position]? = some workspace) :
    Exchanged workspace (change workspace) layout.workspaces
      (layout.updateWorkspace position change).workspaces :=
  exchanged_modify change present

theorem updateWorkspaceAt_exchanged {index : Nat} {workspace : SharedWorkspace}
    (change : SharedWorkspace → SharedWorkspace)
    (present : layout.workspaceAt index = some workspace) :
    Exchanged workspace (change workspace) layout.workspaces
      (layout.updateWorkspaceAt index change).workspaces :=
  exchanged_updateFirst change present

theorem rearranged_updateWorkspace (layout : SharedLayout) (position : Nat)
    {change : SharedWorkspace → SharedWorkspace}
    (same : ∀ workspace, (change workspace).placements.Perm workspace.placements) :
    Rearranged layout (layout.updateWorkspace position change) := by
  cases present : layout.workspaces[position]? with
  | none =>
      have unchanged : layout.workspaces.modify position change = layout.workspaces :=
        List.modify_eq_self (List.getElem?_eq_none_iff.mp present)
      unfold Rearranged
      rw [placements_eq, placements_eq, updateWorkspace, unchanged]
  | some workspace =>
      unfold Rearranged
      rw [placements_eq, placements_eq]
      exact (updateWorkspace_exchanged change present).flatMap_perm (same workspace)

theorem withWorkspace_workspaces (layout : SharedLayout) (index : Nat) :
    (layout.workspaces.any (·.index == index) = true ∧ layout.withWorkspace index = layout) ∨
      (layout.workspaces.any (·.index == index) = false ∧
        (layout.withWorkspace index).workspaces.Perm
          (layout.workspaces ++ [SharedWorkspace.fresh index])) := by
  unfold withWorkspace
  cases present : layout.workspaces.any (·.index == index) with
  | true => exact .inl ⟨rfl, rfl⟩
  | false =>
      right
      refine ⟨rfl, ?_⟩
      simp only [Bool.false_eq_true, if_false]
      exact List.perm_insertionSort _ _

theorem rearranged_withWorkspace (layout : SharedLayout) (index : Nat) :
    Rearranged layout (layout.withWorkspace index) := by
  rcases withWorkspace_workspaces layout index with ⟨_, same⟩ | ⟨_, added⟩
  · rw [same]
    exact .rfl' layout
  · unfold Rearranged
    rw [placements_eq, placements_eq]
    calc
      ((layout.withWorkspace index).workspaces.flatMap SharedWorkspace.placements).Perm
          ((layout.workspaces ++ [SharedWorkspace.fresh index]).flatMap
            SharedWorkspace.placements) := added.flatMap_right _
      _ = layout.workspaces.flatMap SharedWorkspace.placements := by
        simp [SharedWorkspace.placements, SharedWorkspace.fresh]

theorem withWorkspace_workspaceAt (layout : SharedLayout) (index : Nat) :
    ∃ workspace, (layout.withWorkspace index).workspaceAt index = some workspace := by
  have present : (layout.withWorkspace index).workspaces.any (·.index == index) = true := by
    rcases withWorkspace_workspaces layout index with ⟨held, same⟩ | ⟨_, added⟩
    · rw [same]
      exact held
    · rw [List.any_eq_true]
      refine ⟨SharedWorkspace.fresh index, added.mem_iff.mpr (by simp), ?_⟩
      simp [SharedWorkspace.fresh]
  apply Option.isSome_iff_exists.mp
  rw [workspaceAt, List.find?_isSome]
  simpa using present

theorem rearranged_updateWorkspaceAt (layout : SharedLayout) (index : Nat)
    {change : SharedWorkspace → SharedWorkspace}
    (same : ∀ workspace, (change workspace).placements.Perm workspace.placements) :
    Rearranged layout (layout.updateWorkspaceAt index change) := by
  unfold Rearranged
  rw [placements_eq, placements_eq]
  cases present : layout.workspaceAt index with
  | none =>
      rw [updateWorkspaceAt, updateFirst_of_none change present]
  | some workspace =>
      exact (updateWorkspaceAt_exchanged change present).flatMap_perm (same workspace)

section edits

theorem setLayoutKind_rearranged (layout : SharedLayout) (index : Nat) (kind : LayoutKind) :
    Rearranged layout (layout.setLayoutKind index kind).1 := by
  have added := rearranged_withWorkspace layout index
  unfold setLayoutKind
  simp only
  split_ifs
  · exact added
  · exact added.trans (rearranged_updateWorkspaceAt _ _ fun _ => List.Perm.refl _)

theorem setMasterRatio_rearranged (layout : SharedLayout) (index : Nat) (ratio : F32) :
    Rearranged layout (layout.setMasterRatio index ratio).1 := by
  have added := rearranged_withWorkspace layout index
  unfold setMasterRatio
  simp only
  split
  · exact added
  · exact added.trans (rearranged_updateWorkspaceAt _ _ fun _ => List.Perm.refl _)

theorem setPinned_rearranged (layout : SharedLayout) (id : PaneId) (pinned : Bool) :
    Rearranged layout (layout.setPinned id pinned).1 := by
  unfold setPinned
  split
  · exact .rfl' layout
  · apply rearranged_updateWorkspace
    intro workspace
    apply List.Perm.of_eq
    exact updatePane_placements workspace id fun _ => ⟨rfl, rfl⟩

theorem checked_eq_ok {edited result : SharedLayout × Bool} :
    checked edited = .ok result ↔ edited = result ∧ edited.1.validate = .ok () := by
  unfold checked
  cases valid : edited.1.validate with
  | error error => simp
  | ok value => simp

theorem moved_rearranged {source : Nat} {workspace : SharedWorkspace} {pane : SharedPane}
    {id : PaneId} (present : layout.workspaces[source]? = some workspace)
    (inside : workspace.panes.find? (·.paneId == id) = some pane) (target : Nat) :
    Rearranged layout
      (((layout.updateWorkspace source fun workspace =>
        { workspace with panes := workspace.panes.eraseP (·.paneId == id) }.settleTree).withWorkspace
          target).updateWorkspaceAt target (receivePane pane)) := by
  generalize taken : (fun workspace : SharedWorkspace =>
    { workspace with panes := workspace.panes.eraseP (·.paneId == id) }.settleTree) = take
  have rest : workspace.placements.Perm
      ((pane.paneId, pane.generation) :: (take workspace).placements) := by
    rw [← taken]
    exact (perm_cons_eraseP inside).map fun pane => (pane.paneId, pane.generation)
  have out := (updateWorkspace_exchanged take present).flatMap SharedWorkspace.placements
  rcases withWorkspace_workspaceAt (layout.updateWorkspace source take) target with ⟨reached, at'⟩
  have back := (updateWorkspaceAt_exchanged (receivePane pane) at').flatMap
    SharedWorkspace.placements
  have added := rearranged_withWorkspace (layout.updateWorkspace source take) target
  unfold Rearranged at added ⊢
  rw [placements_eq, placements_eq] at added ⊢
  rw [receivePane_placements] at back
  apply List.perm_iff_count.mpr
  intro entry
  have counted := out.count_eq entry
  have counted' := back.count_eq entry
  have counted'' := added.count_eq entry
  have taken' := rest.count_eq entry
  simp only [List.count_append, List.count_cons, List.count_nil] at counted counted' taken' ⊢
  omega

theorem movePaneFields_rearranged {id : PaneId} {target : Nat} {changed : Bool}
    (moved : layout.movePaneFields id target = .ok (next, changed)) : Rearranged layout next := by
  unfold movePaneFields at moved
  split at moved
  · cases moved
  · rename_i source located
    split at moved
    · cases moved
    · rename_i workspace pane found
      split_ifs at moved with home
      · cases moved
        exact .rfl' layout
      · cases moved
        rcases Option.bind_eq_some_iff.mp found with ⟨held, present, paired⟩
        rcases Option.map_eq_some_iff.mp paired with ⟨taken, inside, same⟩
        cases same
        exact moved_rearranged present inside target

theorem movePane_rearranged {id : PaneId} {target : Nat} {changed : Bool}
    (moved : layout.movePane id target = .ok (next, changed)) : Rearranged layout next := by
  have first : Rearranged layout (layout.unpinnedFor id target).1 := by
    unfold unpinnedFor
    split_ifs
    · exact setPinned_rearranged layout id false
    · exact .rfl' layout
  rcases (Checks.bind_eq_ok _ _ _).mp moved with ⟨⟨kept, done⟩, fields, passed⟩
  cases (checked_eq_ok.mp passed).1
  exact first.trans (movePaneFields_rearranged fields)

theorem swapPanes_rearranged {id other : PaneId} {changed : Bool}
    (swapped : layout.swapPanes id other = .ok (next, changed)) : Rearranged layout next := by
  rcases (Checks.bind_eq_ok _ _ _).mp swapped with ⟨edited, fields, passed⟩
  cases (checked_eq_ok.mp passed).1
  unfold swapPaneFields at fields
  split at fields
  · cases fields
  · cases fields
  · simp only at fields
    split_ifs at fields with refused
    split at fields
    · cases fields
    · cases fields
      rename_i position _ _ _ _ _ _
      have settled := rearranged_updateWorkspace layout position fun workspace =>
        List.Perm.of_eq (settleTree_placements workspace)
      exact settled.trans (rearranged_updateWorkspace _ _ fun _ => List.Perm.refl _)

theorem setFloatPlacement_rearranged (layout : SharedLayout) (id : PaneId)
    (rect : Option FracRect) : Rearranged layout (layout.setFloatPlacement id rect) := by
  unfold setFloatPlacement
  split
  · exact .rfl' layout
  · apply rearranged_updateWorkspace
    intro workspace
    have placed : (workspace.updatePane id (floatPane rect)).placements = workspace.placements :=
      updatePane_placements workspace id fun _ => ⟨rfl, rfl⟩
    simp only
    split_ifs
    · exact List.Perm.of_eq placed
    · exact List.Perm.of_eq placed

theorem editPane_rearranged {id : PaneId} {edit : PaneEdit} {floatRect : Option FracRect}
    {changed : Bool} (edited : layout.editPane id edit floatRect = .ok (next, changed)) :
    Rearranged layout next := by
  rcases (Checks.bind_eq_ok _ _ _).mp edited with ⟨result, fields, passed⟩
  cases (checked_eq_ok.mp passed).1
  unfold editPaneFields at fields
  split at fields
  · cases fields
  · simp only at fields
    cases fields
    have sized : ∀ placed : SharedLayout, ∀ position,
        Rearranged placed (placed.updateWorkspace position (editPlaced id edit)) :=
      fun placed position => rearranged_updateWorkspace placed position fun workspace =>
        List.Perm.of_eq (editPlaced_placements workspace id edit)
    apply Rearranged.trans _ (sized _ _)
    split_ifs
    · exact setFloatPlacement_rearranged layout id none
    · exact setFloatPlacement_rearranged layout id floatRect
    · exact .rfl' layout

end edits

section indexes

/-- Whether the document has a workspace at the zero-based `index`. -/
def HasWorkspace (layout : SharedLayout) (index : Nat) : Prop :=
  index ∈ layout.workspaces.map SharedWorkspace.index

theorem indexes_updateWorkspace (layout : SharedLayout) (position : Nat)
    {change : SharedWorkspace → SharedWorkspace}
    (same : ∀ workspace, (change workspace).index = workspace.index) :
    (layout.updateWorkspace position change).workspaces.map SharedWorkspace.index =
      layout.workspaces.map SharedWorkspace.index := by
  cases present : layout.workspaces[position]? with
  | none =>
      rw [updateWorkspace, List.modify_eq_self (List.getElem?_eq_none_iff.mp present)]
  | some workspace => exact (updateWorkspace_exchanged change present).map (same workspace)

theorem indexes_updateWorkspaceAt (layout : SharedLayout) (index : Nat)
    {change : SharedWorkspace → SharedWorkspace}
    (same : ∀ workspace, (change workspace).index = workspace.index) :
    (layout.updateWorkspaceAt index change).workspaces.map SharedWorkspace.index =
      layout.workspaces.map SharedWorkspace.index :=
  map_updateFirst _ same _

theorem HasWorkspace.updateWorkspace {index : Nat} (present : layout.HasWorkspace index)
    (position : Nat) {change : SharedWorkspace → SharedWorkspace}
    (same : ∀ workspace, (change workspace).index = workspace.index) :
    (layout.updateWorkspace position change).HasWorkspace index := by
  unfold HasWorkspace
  rw [indexes_updateWorkspace layout position same]
  exact present

theorem HasWorkspace.updateWorkspaceAt {index : Nat} (present : layout.HasWorkspace index)
    (target : Nat) {change : SharedWorkspace → SharedWorkspace}
    (same : ∀ workspace, (change workspace).index = workspace.index) :
    (layout.updateWorkspaceAt target change).HasWorkspace index := by
  unfold HasWorkspace
  rw [indexes_updateWorkspaceAt layout target same]
  exact present

theorem hasWorkspace_of_position {position : Nat} {workspace : SharedWorkspace}
    (present : layout.workspaces[position]? = some workspace) :
    layout.HasWorkspace workspace.index :=
  List.mem_map_of_mem (List.mem_of_getElem? present)

theorem hasWorkspace_withWorkspace (layout : SharedLayout) (index : Nat) :
    (layout.withWorkspace index).HasWorkspace index := by
  rcases withWorkspace_workspaceAt layout index with ⟨workspace, found⟩
  have member := List.mem_of_find?_eq_some found
  have named : workspace.index = index := by simpa using List.find?_some found
  exact List.mem_map.mpr ⟨workspace, member, named⟩

theorem receivePane_index (pane : SharedPane) (workspace : SharedWorkspace) :
    (receivePane pane workspace).index = workspace.index := by
  unfold receivePane
  simp only
  split_ifs <;> rfl

theorem editPlaced_index (id : PaneId) (edit : PaneEdit) (workspace : SharedWorkspace) :
    (editPlaced id edit workspace).index = workspace.index := by
  unfold editPlaced SharedWorkspace.applyPaneSizes
  cases edit.fullscreen with
  | none => cases edit.widthRatio <;> cases edit.splitRatio <;> rfl
  | some fullscreen =>
      cases fullscreen <;> cases edit.widthRatio <;> cases edit.splitRatio <;> rfl

theorem HasWorkspace.setLayoutKind {index : Nat} (layout : SharedLayout) (kind : LayoutKind) :
    (layout.setLayoutKind index kind).1.HasWorkspace index := by
  have present := hasWorkspace_withWorkspace layout index
  unfold SharedLayout.setLayoutKind
  simp only
  split_ifs
  · exact present
  · exact present.updateWorkspaceAt index fun _ => rfl

theorem HasWorkspace.setMasterRatio {index : Nat} (layout : SharedLayout) (ratio : F32) :
    (layout.setMasterRatio index ratio).1.HasWorkspace index := by
  have present := hasWorkspace_withWorkspace layout index
  unfold SharedLayout.setMasterRatio
  simp only
  split
  · exact present
  · exact present.updateWorkspaceAt index fun _ => rfl

theorem HasWorkspace.movePane {id : PaneId} {target : Nat} {changed : Bool}
    (moved : layout.movePane id target = .ok (next, changed)) : next.HasWorkspace target := by
  rcases (Checks.bind_eq_ok _ _ _).mp moved with ⟨⟨kept, done⟩, fields, passed⟩
  cases (checked_eq_ok.mp passed).1
  unfold movePaneFields at fields
  split at fields
  · cases fields
  · split at fields
    · cases fields
    · rename_i workspace pane found
      split_ifs at fields with home
      · cases fields
        rcases Option.bind_eq_some_iff.mp found with ⟨held, present, paired⟩
        rcases Option.map_eq_some_iff.mp paired with ⟨_, _, same⟩
        cases same
        have held := hasWorkspace_of_position present
        rw [home] at held
        exact held
      · cases fields
        exact (hasWorkspace_withWorkspace _ target).updateWorkspaceAt target
          (receivePane_index pane)

theorem HasWorkspace.swapPanes {id other : PaneId} {changed : Bool} {index : Nat}
    (present : layout.HasWorkspace index)
    (swapped : layout.swapPanes id other = .ok (next, changed)) : next.HasWorkspace index := by
  rcases (Checks.bind_eq_ok _ _ _).mp swapped with ⟨edited, fields, passed⟩
  cases (checked_eq_ok.mp passed).1
  unfold swapPaneFields at fields
  split at fields
  · cases fields
  · cases fields
  · simp only at fields
    split_ifs at fields with refused
    split at fields
    · cases fields
    · cases fields
      rename_i position _ _ _ _ _ _
      have settled : (layout.updateWorkspace position SharedWorkspace.settleTree).HasWorkspace
          index := present.updateWorkspace position fun _ => rfl
      exact settled.updateWorkspace position fun _ => rfl

theorem HasWorkspace.editPane {id : PaneId} {edit : PaneEdit} {floatRect : Option FracRect}
    {changed : Bool} {index : Nat} (present : layout.HasWorkspace index)
    (edited : layout.editPane id edit floatRect = .ok (next, changed)) :
    next.HasWorkspace index := by
  have placed : ∀ rect, (layout.setFloatPlacement id rect).HasWorkspace index := by
    intro rect
    unfold setFloatPlacement
    split
    · exact present
    · apply present.updateWorkspace
      intro workspace
      simp only
      split_ifs <;> rfl
  rcases (Checks.bind_eq_ok _ _ _).mp edited with ⟨result, fields, passed⟩
  cases (checked_eq_ok.mp passed).1
  unfold editPaneFields at fields
  split at fields
  · cases fields
  · simp only at fields
    cases fields
    apply HasWorkspace.updateWorkspace _ _ (editPlaced_index id edit)
    split_ifs
    · exact placed none
    · exact placed floatRect
    · exact present

end indexes

section valid

theorem Valid.exchanged (valid : layout.Valid) {old new : SharedWorkspace}
    {workspaces : List SharedWorkspace}
    (exchange : Exchanged old new layout.workspaces workspaces) (own : new.Valid)
    (index : new.index = old.index) (same : new.placements = old.placements) :
    Valid { layout with workspaces } where
  version := valid.version
  canvas := valid.canvas
  geometry := valid.geometry
  workspaces := fun workspace member => by
    rcases exchange.mem_after member with rfl | before
    · exact own
    · exact valid.workspaces workspace before
  indexes := by
    have kept : workspaces.map SharedWorkspace.index =
        layout.workspaces.map SharedWorkspace.index := exchange.map index
    exact kept ▸ valid.indexes
  ids := by
    have ids := valid.ids
    rw [paneIds_eq, placements_eq] at ids ⊢
    exact ((exchange.flatMap_perm (List.Perm.of_eq same)).map Prod.fst).nodup_iff.mpr ids

theorem fresh_valid {index : Nat} (inside : index < workspaceCount) :
    (SharedWorkspace.fresh index).Valid where
  index := inside
  panes := fun _ none => absurd none List.not_mem_nil
  ratios := fun ratio member => by
    rw [List.eq_of_mem_replicate member]
    exact defaultRatio_proper
  tree := fun _ none => by cases none

theorem Valid.withWorkspace (valid : layout.Valid) {index : Nat}
    (inside : index < workspaceCount) : (layout.withWorkspace index).Valid := by
  have placed := rearranged_withWorkspace layout index
  rcases withWorkspace_workspaces layout index with ⟨_, same⟩ | ⟨absent, added⟩
  · rw [same]
    exact valid
  · have rest : (layout.withWorkspace index).version = layout.version ∧
        (layout.withWorkspace index).canvasCols = layout.canvasCols ∧
        (layout.withWorkspace index).canvasRows = layout.canvasRows ∧
        (layout.withWorkspace index).paneGeometry = layout.paneGeometry := by
      unfold SharedLayout.withWorkspace
      split_ifs <;> exact ⟨rfl, rfl, rfl, rfl⟩
    rcases rest with ⟨version, cols, rows, geometry⟩
    constructor
    · exact version ▸ valid.version
    · rw [cols, rows]
      exact valid.canvas
    · exact geometry ▸ valid.geometry
    · intro workspace member
      rcases List.mem_append.mp (added.mem_iff.mp member) with old | new
      · exact valid.workspaces workspace old
      · rw [List.mem_singleton.mp new]
        exact fresh_valid inside
    · rw [(added.map SharedWorkspace.index).nodup_iff, List.map_append, List.nodup_append]
      refine ⟨valid.indexes, List.nodup_singleton _, ?_⟩
      intro held member other new same
      rw [List.mem_singleton.mp new] at same
      rcases List.mem_map.mp member with ⟨workspace, inside', rfl⟩
      have named : layout.workspaces.any (·.index == index) = true :=
        List.any_eq_true.mpr ⟨workspace, inside', by simpa [SharedWorkspace.fresh] using same⟩
      rw [named] at absent
      cases absent
    · have ids := valid.ids
      rw [paneIds_eq] at ids ⊢
      exact (placed.map Prod.fst).nodup_iff.mpr ids

theorem Valid.updateWorkspaceAt (valid : layout.Valid) (index : Nat)
    {change : SharedWorkspace → SharedWorkspace}
    (keeps : ∀ workspace, layout.workspaceAt index = some workspace →
      workspace.Valid → (change workspace).Valid)
    (same : ∀ workspace, (change workspace).index = workspace.index ∧
      (change workspace).placements = workspace.placements) :
    (layout.updateWorkspaceAt index change).Valid := by
  cases present : layout.workspaceAt index with
  | none =>
      rw [SharedLayout.updateWorkspaceAt, updateFirst_of_none change present]
      exact valid
  | some workspace =>
      have exchange := updateWorkspaceAt_exchanged change present
      exact valid.exchanged exchange
        (keeps workspace present (valid.workspaces workspace exchange.mem_before))
        (same workspace).1 (same workspace).2

theorem Valid.setLayoutKind (valid : layout.Valid) {index : Nat}
    (inside : index < workspaceCount) (kind : LayoutKind) :
    (layout.setLayoutKind index kind).1.Valid := by
  have added := valid.withWorkspace inside
  unfold SharedLayout.setLayoutKind
  simp only
  split_ifs
  · exact added
  · exact added.updateWorkspaceAt index
      (fun _ _ own => ⟨own.index, own.panes, own.ratios, own.tree⟩) fun _ => ⟨rfl, rfl⟩

theorem Valid.setMasterRatio (valid : layout.Valid) {index : Nat}
    (inside : index < workspaceCount) {ratio : F32} (proper : ratio.Proper) :
    (layout.setMasterRatio index ratio).1.Valid := by
  have added := valid.withWorkspace inside
  unfold SharedLayout.setMasterRatio
  simp only
  split
  · exact added
  · rename_i splitRatios shared
    have same : ∀ workspace : SharedWorkspace,
        { workspace with splitRatios }.index = workspace.index ∧
          { workspace with splitRatios }.placements = workspace.placements :=
      fun _ => ⟨rfl, rfl⟩
    refine added.updateWorkspaceAt index ?_ same
    intro workspace present own
    rw [present, Option.bind_some] at shared
    unfold setMasterShare at shared
    split_ifs at shared
    cases shared
    refine ⟨own.index, own.panes, ?_, own.tree⟩
    intro other member
    rcases List.mem_cons.mp member with rfl | rest
    · exact proper
    · exact own.ratios other (List.mem_of_mem_tail rest)

theorem checked_valid {edited result : SharedLayout × Bool}
    (passed : checked edited = .ok result) : result.1.Valid := by
  rcases checked_eq_ok.mp passed with ⟨rfl, valid⟩
  exact (validate_iff _ _).mp valid

end valid

section remove

theorem removePane_eq_none {id : PaneId} (kept : layout.removePane id = none) :
    id ∉ layout.paneIds := by
  intro placed
  rcases List.mem_map.mp placed with ⟨pane, present, same⟩
  rcases List.mem_flatMap.mp present with ⟨workspace, member, holds⟩
  have held : workspace.holds id = true :=
    List.any_eq_true.mpr ⟨pane, holds, by simpa using same⟩
  cases located : layout.workspacePositionOf id with
  | none =>
      have missing := List.findIdx?_eq_none_iff.mp located workspace member
      simp [held] at missing
  | some position =>
      rcases List.findIdx?_eq_some_iff_getElem.mp located with ⟨inside, _, _⟩
      simp [removePane, located, List.getElem?_eq_getElem inside] at kept

theorem removePane_spec {id : PaneId} {index : Nat}
    (removed : layout.removePane id = some (next, index)) :
    next.HasWorkspace index ∧ ∃ workspace : SharedWorkspace, workspace.holds id = true ∧
      (next.placements ++ workspace.placements).Perm
        (layout.placements ++ workspace.placements.filter (·.1 != id)) := by
  unfold removePane at removed
  rcases Option.bind_eq_some_iff.mp removed with ⟨position, located, rest⟩
  rcases Option.bind_eq_some_iff.mp rest with ⟨workspace, present, built⟩
  cases built
  have holds : workspace.holds id = true := by
    rcases List.findIdx?_eq_some_iff_getElem.mp located with ⟨inside, held, _⟩
    rw [List.getElem?_eq_getElem inside] at present
    cases present
    exact held
  refine ⟨?_, workspace, holds, ?_⟩
  · exact (hasWorkspace_of_position present).updateWorkspace position fun _ => rfl
  · have exchange := (updateWorkspace_exchanged (fun workspace : SharedWorkspace =>
      { workspace with panes := workspace.panes.filter (·.paneId != id) }.settleTree)
      present).flatMap SharedWorkspace.placements
    have kept : { workspace with
        panes := workspace.panes.filter (·.paneId != id) }.settleTree.placements =
          workspace.placements.filter (·.1 != id) := by
      simp [SharedWorkspace.settleTree, SharedWorkspace.placements, List.filter_map,
        Function.comp_def]
    rw [kept] at exchange
    rw [placements_eq, placements_eq]
    exact exchange

theorem removePane_subset {id : PaneId} {index : Nat}
    (removed : layout.removePane id = some (next, index)) :
    ∀ entry ∈ next.placements, entry ∈ layout.placements := by
  rcases (removePane_spec removed).2 with ⟨workspace, _, exchange⟩
  intro entry member
  have counted := exchange.count_eq entry
  have fewer := (List.filter_sublist (p := fun entry : PaneId × Nat => entry.1 != id)
    (l := workspace.placements)).count_le entry
  have held := List.count_pos_iff.mpr member
  simp only [List.count_append] at counted
  apply List.count_pos_iff.mp
  omega

theorem removePane_keeps {id : PaneId} {index : Nat}
    (removed : layout.removePane id = some (next, index)) :
    ∀ entry ∈ layout.placements, entry.1 ≠ id → entry ∈ next.placements := by
  rcases (removePane_spec removed).2 with ⟨workspace, _, exchange⟩
  intro entry member other
  have counted := exchange.count_eq entry
  have same : (workspace.placements.filter (·.1 != id)).count entry =
      workspace.placements.count entry := List.count_filter (by simpa using other)
  have held := List.count_pos_iff.mpr member
  simp only [List.count_append] at counted
  apply List.count_pos_iff.mp
  omega

theorem removePane_absent {id : PaneId} {index : Nat} (unique : layout.paneIds.Nodup)
    (removed : layout.removePane id = some (next, index)) : id ∉ next.paneIds := by
  rcases (removePane_spec removed).2 with ⟨workspace, holds, exchange⟩
  have counted := (exchange.map Prod.fst).count_eq id
  have gone : ((workspace.placements.filter (·.1 != id)).map Prod.fst).count id = 0 := by
    apply List.count_eq_zero_of_not_mem
    intro member
    rcases List.mem_map.mp member with ⟨entry, kept, same⟩
    simpa [same] using (List.mem_filter.mp kept).2
  have once : (layout.placements.map Prod.fst).count id ≤ 1 := by
    rw [← paneIds_eq]
    exact List.nodup_iff_count_le_one.mp unique id
  have own : 0 < (workspace.placements.map Prod.fst).count id := by
    apply List.count_pos_iff.mpr
    rcases List.any_eq_true.mp holds with ⟨pane, member, same⟩
    exact List.mem_map.mpr ⟨_, List.mem_map_of_mem member, by simpa using same⟩
  simp only [List.map_append, List.count_append] at counted
  rw [paneIds_eq, ← List.count_pos_iff]
  omega

end remove

end SharedLayout

end Rozi
