import Rozi.Layout.EditRun

namespace Rozi

open SerializedTree

namespace SharedWorkspace

variable {workspace : SharedWorkspace}

theorem clearOtherFullscreen_paneIds (workspace : SharedWorkspace) (keep : PaneId) :
    (workspace.clearOtherFullscreen keep).paneIds = workspace.paneIds := by
  rw [paneIds_eq, paneIds_eq, clearOtherFullscreen_placements]

theorem clearOtherFullscreen_tiledIds (workspace : SharedWorkspace) (keep : PaneId) :
    (workspace.clearOtherFullscreen keep).tiledIds = workspace.tiledIds := by
  unfold tiledIds clearOtherFullscreen
  rw [List.filter_map, List.map_map]
  have placed : (fun pane : SharedPane => !pane.floating) ∘ (fun pane : SharedPane =>
      if pane.paneId != keep then { pane with fullscreen := false } else pane) =
        fun pane => !pane.floating := by
    funext pane
    by_cases kept : pane.paneId = keep <;> simp [kept]
  rw [placed]
  apply List.map_congr_left
  intro pane _
  by_cases kept : pane.paneId = keep <;> simp [kept]

theorem clearOtherFullscreen_fullscreens (unique : workspace.paneIds.Nodup) (keep : PaneId) :
    (workspace.clearOtherFullscreen keep).fullscreens ≤ 1 := by
  unfold fullscreens clearOtherFullscreen
  rw [List.countP_map]
  have only : ∀ pane ∈ workspace.panes,
      (SharedPane.fullscreen ∘ fun pane : SharedPane =>
        if pane.paneId != keep then { pane with fullscreen := false } else pane) pane = true →
      (pane.paneId == keep) = true := by
    intro pane _ shown
    by_cases kept : pane.paneId = keep
    · simpa using kept
    · simp [kept] at shown
  calc
    _ ≤ workspace.panes.countP (·.paneId == keep) := List.countP_mono_left only
    _ = workspace.paneIds.count keep := by
      rw [paneIds, List.count, List.countP_map]
      rfl
    _ ≤ 1 := List.nodup_iff_count_le_one.mp unique keep

theorem fresh_settled (index : Nat) : (fresh index).Settled := List.Perm.refl _

/-- A settled tree names known panes only, so reading it back loses no leaf. -/
theorem Settled.storedTileTree (settled : workspace.Settled) :
    leavesOf workspace.storedTileTree = leavesOf workspace.tree := by
  rw [leaves_storedTileTree]
  apply List.filter_eq_self.mpr
  intro id leaf
  have placed := workspace.tiledIds_sublist.subset (settled.mem_iff.mp leaf)
  simpa using placed

end SharedWorkspace

namespace SharedLayout

open SharedWorkspace

structure Traced (layout : SharedLayout) (after : SharedWorkspace) : Prop where
  fullscreen : after.fullscreens ≤ 1
  proper : after.TreeProper
  settled : after.Settled ∨ ∃ before ∈ layout.workspaces,
    before.index = after.index ∧ before.Kept after

def Traces (layout next : SharedLayout) : Prop :=
  ∀ after ∈ next.workspaces, Traced layout after

variable {layout next middle : SharedLayout}

theorem Sound.of_traces (valid : next.Valid) (traces : Traces layout next) : Sound layout next where
  valid := valid
  one := fun workspace member => (traces workspace member).fullscreen
  settles := fun workspace member => (traces workspace member).settled

section traced

variable {reached after : SharedWorkspace}

theorem Traced.own (valid : layout.Valid) (one : layout.OneFullscreen)
    (member : reached ∈ layout.workspaces) : Traced layout reached where
  fullscreen := one reached member
  proper := (valid.workspaces reached member).treeProper
  settled := .inr ⟨reached, member, rfl, .refl reached⟩

theorem Traced.reshaped (one : layout.OneFullscreen) (member : reached ∈ layout.workspaces)
    (edited : reached.Reshaped after) : Traced layout after where
  fullscreen := edited.fullscreen (one reached member)
  proper := edited.proper
  settled := edited.settled.imp_right fun kept => ⟨reached, member, edited.index.symm, kept⟩

theorem traced_fresh (layout : SharedLayout) (index : Nat) : Traced layout (fresh index) where
  fullscreen := Nat.zero_le 1
  proper := fun _ none => by cases none
  settled := .inl (fresh_settled index)

/-- Edits of a traced workspace that lose no pane, keep the tiled ones and leave the tree. -/
theorem Traced.kept (traced : Traced layout reached) (index : after.index = reached.index)
    (tree : after.tree = reached.tree) (kept : reached.Kept after)
    (shown : after.fullscreens ≤ 1) : Traced layout after where
  fullscreen := shown
  proper := fun stored present => traced.proper stored (tree ▸ present)
  settled := by
    rcases traced.settled with settled | ⟨before, member, named, first⟩
    · left
      unfold SharedWorkspace.Settled
      rw [tree, kept.tiled]
      exact settled
    · exact .inr ⟨before, member, named.trans index.symm, first.trans kept⟩

end traced

section steps

theorem Traces.refl (valid : layout.Valid) (one : layout.OneFullscreen) : Traces layout layout :=
  fun _ member => .own valid one member

theorem Traces.edited (one : layout.OneFullscreen)
    (all : List.Forall₂ SharedWorkspace.Edited layout.workspaces next.workspaces) :
    Traces layout next := by
  intro after member
  rcases edited_mem all member with ⟨before, held, edited⟩
  exact .reshaped one held edited.toReshaped

theorem Traces.withWorkspace (traces : Traces layout middle) (index : Nat) :
    Traces layout (middle.withWorkspace index) := by
  rcases withWorkspace_workspaces middle index with ⟨_, same⟩ | ⟨_, added⟩
  · rw [same]
    exact traces
  · intro after member
    rcases List.mem_append.mp (added.mem_iff.mp member) with old | new
    · exact traces after old
    · rw [List.mem_singleton.mp new]
      exact traced_fresh layout index

theorem Traces.updateWorkspace (traces : Traces layout middle) {position : Nat}
    {change : SharedWorkspace → SharedWorkspace}
    (here : ∀ workspace, middle.workspaces[position]? = some workspace →
      Traced layout (change workspace)) : Traces layout (middle.updateWorkspace position change) := by
  cases present : middle.workspaces[position]? with
  | none =>
      rw [SharedLayout.updateWorkspace,
        List.modify_eq_self (List.getElem?_eq_none_iff.mp present)]
      exact traces
  | some workspace =>
      intro after member
      rcases (updateWorkspace_exchanged change present).mem_after member with rfl | old
      · exact here workspace present
      · exact traces after old

theorem Traces.updateWorkspaceAt (traces : Traces layout middle) {index : Nat}
    {change : SharedWorkspace → SharedWorkspace}
    (here : ∀ workspace, middle.workspaceAt index = some workspace →
      Traced layout (change workspace)) : Traces layout (middle.updateWorkspaceAt index change) := by
  cases present : middle.workspaceAt index with
  | none =>
      rw [SharedLayout.updateWorkspaceAt, updateFirst_of_none change present]
      exact traces
  | some workspace =>
      intro after member
      rcases (updateWorkspaceAt_exchanged change present).mem_after member with rfl | old
      · exact here workspace present
      · exact traces after old

theorem Traces.at (traces : Traces layout middle) {index : Nat} {workspace : SharedWorkspace}
    (present : middle.workspaceAt index = some workspace) : Traced layout workspace :=
  traces workspace (List.mem_of_find?_eq_some present)

end steps

section each

theorem removePane_sound (valid : layout.Valid) (one : layout.OneFullscreen) {id : PaneId}
    {index : Nat} (removed : layout.removePane id = some (next, index)) : Sound layout next := by
  rcases Option.bind_eq_some_iff.mp removed with ⟨position, _, rest⟩
  rcases Option.bind_eq_some_iff.mp rest with ⟨workspace, _, built⟩
  cases built
  apply Sound.of_edited valid one
  apply updateWorkspace_edited valid
  intro workspace present
  have member := List.mem_of_getElem? present
  exact .filtered (valid.workspaces workspace member) (paneIds_unique valid member) _

theorem retainPanes_sound (valid : layout.Valid) (one : layout.OneFullscreen)
    (known : List PaneId) : Sound layout (layout.retainPanes known) := by
  apply Sound.of_edited valid one
  apply List.forall₂_map_right_iff.mpr
  apply List.forall₂_same.mpr
  intro workspace member
  have own := valid.workspaces workspace member
  simp only
  split_ifs with fewer
  · exact .filtered own (paneIds_unique valid member) _
  · have whole : workspace.panes.filter (fun pane => known.contains pane.paneId) =
        workspace.panes := by
      apply List.filter_sublist.eq_of_length
      exact (not_not.mp fewer).symm
    rw [whole]
    exact .refl own

theorem setLayoutKind_sound (valid : layout.Valid) (one : layout.OneFullscreen) {index : Nat}
    (inside : index < workspaceCount) (kind : LayoutKind) :
    Sound layout (layout.setLayoutKind index kind).1 := by
  have traces := (Traces.refl valid one).withWorkspace index
  apply Sound.of_traces (valid.setLayoutKind inside kind)
  unfold setLayoutKind
  simp only
  split_ifs
  · exact traces
  · apply traces.updateWorkspaceAt
    intro workspace present
    have reached := traces.at present
    exact reached.kept rfl rfl (.of_panes rfl) reached.fullscreen

theorem setMasterRatio_sound (valid : layout.Valid) (one : layout.OneFullscreen) {index : Nat}
    (inside : index < workspaceCount) {ratio : F32} (proper : ratio.Proper) :
    Sound layout (layout.setMasterRatio index ratio).1 := by
  have traces := (Traces.refl valid one).withWorkspace index
  apply Sound.of_traces (valid.setMasterRatio inside proper)
  unfold setMasterRatio
  simp only
  split
  · exact traces
  · apply traces.updateWorkspaceAt
    intro workspace present
    have reached := traces.at present
    exact reached.kept rfl rfl (.of_panes rfl) reached.fullscreen

theorem panes_updateWorkspace {position : Nat} {change : SharedWorkspace → SharedWorkspace}
    {after : SharedWorkspace} (member : after ∈ (layout.updateWorkspace position change).workspaces)
    (same : ∀ workspace, (change workspace).panes = workspace.panes ∧
      (change workspace).index = workspace.index) :
    ∃ before ∈ layout.workspaces, after.panes = before.panes ∧ after.index = before.index := by
  cases present : layout.workspaces[position]? with
  | none =>
      rw [updateWorkspace, List.modify_eq_self (List.getElem?_eq_none_iff.mp present)] at member
      exact ⟨after, member, rfl, rfl⟩
  | some workspace =>
      have exchange := updateWorkspace_exchanged change present
      rcases exchange.mem_after member with rfl | old
      · exact ⟨workspace, exchange.mem_before, same workspace⟩
      · exact ⟨after, old, rfl, rfl⟩

theorem swapPanes_sound (one : layout.OneFullscreen) {id other : PaneId} {changed : Bool} (swapped : layout.swapPanes id other = .ok (next, changed)) :
    Sound layout next := by
  rcases (Checks.bind_eq_ok _ _ _).mp swapped with ⟨edited, fields, passed⟩
  have sound : next.Valid := checked_valid passed
  cases (checked_eq_ok.mp passed).1
  have same : ∀ after ∈ next.workspaces, ∃ before ∈ layout.workspaces,
      after.panes = before.panes ∧ after.index = before.index := by
    unfold swapPaneFields at fields
    split at fields
    · cases fields
    · cases fields
    · simp only at fields
      split_ifs at fields
      split at fields
      · cases fields
      · cases fields
        intro after member
        rcases panes_updateWorkspace member fun _ => ⟨rfl, rfl⟩ with ⟨settled, held, panes, index⟩
        rcases panes_updateWorkspace held fun _ => ⟨rfl, rfl⟩ with ⟨before, first, panes', index'⟩
        exact ⟨before, first, panes.trans panes', index.trans index'⟩
  refine ⟨sound, ?_, ?_⟩
  · intro after member
    rcases same after member with ⟨before, held, panes, _⟩
    unfold SharedWorkspace.fullscreens
    rw [panes]
    exact one before held
  · intro after member
    rcases same after member with ⟨before, held, panes, index⟩
    exact .inr ⟨before, held, index.symm, .of_panes panes⟩

section receive

variable {reached : SharedWorkspace} {pane : SharedPane}

theorem receivePane_paneIds (pane : SharedPane) (reached : SharedWorkspace) :
    (receivePane pane reached).paneIds = reached.paneIds ++ [pane.paneId] := by
  rw [SharedWorkspace.paneIds_eq, receivePane_placements, SharedWorkspace.paneIds_eq]
  simp

theorem receivePane_tree (pane : SharedPane) (reached : SharedWorkspace) :
    (receivePane pane reached).tree =
      if pane.floating then reached.tree
      else some (appendTiledLeaf reached.settleTree.storedTileTree pane.paneId
        reached.startAxis) := by
  unfold receivePane
  simp only [fromDwindle_some]
  split_ifs <;> rfl

theorem receivePane_tiledIds (pane : SharedPane) (reached : SharedWorkspace) :
    (receivePane pane reached).tiledIds =
      reached.tiledIds ++ if pane.floating then [] else [pane.paneId] := by
  have arrived : ∀ workspace : SharedWorkspace, workspace.panes = reached.panes →
      { workspace with panes := workspace.panes ++ [pane] }.tiledIds =
        reached.tiledIds ++ if pane.floating then [] else [pane.paneId] := by
    intro workspace same
    cases placed : pane.floating <;> simp [tiledIds, same, placed]
  rw [← arrived (if pane.floating then reached else { reached.settleTree with
    tree := fromDwindle some (appendTiledLeaf reached.settleTree.storedTileTree pane.paneId
      reached.settleTree.startAxis) }) (by split_ifs <;> rfl)]
  unfold receivePane
  by_cases shown : pane.fullscreen = true
  · simp only [shown, if_true]
    exact clearOtherFullscreen_tiledIds _ _
  · simp only [shown]
    rfl

theorem receivePane_fullscreens (one : reached.fullscreens ≤ 1)
    (unique : (receivePane pane reached).paneIds.Nodup) :
    (receivePane pane reached).fullscreens ≤ 1 := by
  rw [receivePane_paneIds] at unique
  unfold receivePane
  simp only
  split_ifs with shown tiled tiled
  · apply clearOtherFullscreen_fullscreens
    simpa [SharedWorkspace.paneIds] using unique
  · apply clearOtherFullscreen_fullscreens
    simpa [SharedWorkspace.paneIds, settleTree] using unique
  · simpa [SharedWorkspace.fullscreens, List.countP_append, shown] using one
  · simpa [SharedWorkspace.fullscreens, List.countP_append, shown, settleTree] using one

theorem receivePane_settled (tiled : pane.floating = false) (proper : reached.TreeProper)
    (unique : reached.paneIds.Nodup) : (receivePane pane reached).Settled := by
  have settled := settleTree_settled proper unique
  unfold SharedWorkspace.Settled
  rw [receivePane_tree, receivePane_tiledIds]
  simp only [tiled, Bool.false_eq_true, if_false, leavesOf, leaves_appendTiledLeaf]
  apply List.Perm.append_right
  exact (List.Perm.of_eq settled.storedTileTree).trans settled

theorem Traced.receivePane (traced : Traced layout reached) (pane : SharedPane)
    (valid : (receivePane pane reached).Valid)
    (unique : (SharedLayout.receivePane pane reached).paneIds.Nodup) :
    Traced layout (SharedLayout.receivePane pane reached) := by
  have shown := receivePane_fullscreens traced.fullscreen unique
  have ids := receivePane_paneIds pane reached
  cases tiled : pane.floating with
  | true =>
      apply traced.kept (receivePane_index pane reached) _ _ shown
      · rw [receivePane_tree, if_pos tiled]
      · refine ⟨?_, ?_⟩
        · rw [receivePane_tiledIds, if_pos tiled, List.append_nil]
        · intro id member
          rw [ids]
          exact List.mem_append_left _ member
  | false =>
      rw [ids] at unique
      refine ⟨shown, valid.treeProper, .inl ?_⟩
      exact receivePane_settled tiled traced.proper (List.nodup_append.mp unique).1

end receive

theorem unpinnedFor_edited (valid : layout.Valid) (id : PaneId) (target : Nat) :
    List.Forall₂ SharedWorkspace.Edited layout.workspaces
      (layout.unpinnedFor id target).1.workspaces := by
  unfold unpinnedFor
  split_ifs
  · exact setPinned_edited valid id false
  · exact List.forall₂_same.mpr fun workspace member => .refl (valid.workspaces workspace member)

theorem unpinnedFor_valid (valid : layout.Valid) (one : layout.OneFullscreen) (id : PaneId)
    (target : Nat) : (layout.unpinnedFor id target).1.Valid := by
  unfold unpinnedFor
  split_ifs
  · exact (setPinned_sound valid one id false).valid
  · exact valid

theorem movePane_sound (valid : layout.Valid) (one : layout.OneFullscreen) {id : PaneId}
    {target : Nat} {changed : Bool}
    (moved : layout.movePane id target = .ok (next, changed)) : Sound layout next := by
  have own := unpinnedFor_valid valid one id target
  have begun := Traces.edited one (unpinnedFor_edited valid id target)
  rcases (Checks.bind_eq_ok _ _ _).mp moved with ⟨⟨kept, done⟩, fields, passed⟩
  have sound : next.Valid := checked_valid passed
  cases (checked_eq_ok.mp passed).1
  apply Sound.of_traces sound
  unfold movePaneFields at fields
  split at fields
  · cases fields
  · rename_i source located
    split at fields
    · cases fields
    · rename_i workspace pane found
      split_ifs at fields with home
      · cases fields
        exact begun
      · cases fields
        rcases Option.bind_eq_some_iff.mp found with ⟨held, present, paired⟩
        rcases Option.map_eq_some_iff.mp paired with ⟨taken, inside, same⟩
        cases same
        have left : Traces layout ((layout.unpinnedFor id target).1.updateWorkspace source
            fun workspace =>
              { workspace with panes := workspace.panes.eraseP (·.paneId == id) }.settleTree) := by
          apply begun.updateWorkspace
          intro leaving held
          have member := List.mem_of_getElem? held
          have before := begun leaving member
          have fewer : (leaving.panes.eraseP (·.paneId == id)).Sublist leaving.panes :=
            List.eraseP_sublist
          have unique := (paneIds_unique own member).sublist (fewer.map SharedPane.paneId)
          refine ⟨?_, settleTree_proper before.proper unique,
            .inl (settleTree_settled before.proper unique)⟩
          exact Nat.le_trans fewer.countP_le before.fullscreen
        have added := left.withWorkspace target
        intro after member
        rcases withWorkspace_workspaceAt ((layout.unpinnedFor id target).1.updateWorkspace source
          fun workspace =>
            { workspace with panes := workspace.panes.eraseP (·.paneId == id) }.settleTree) target
          with ⟨reached, at'⟩
        rcases (updateWorkspaceAt_exchanged (SharedLayout.receivePane pane) at').mem_after member
          with rfl | old
        · exact (added.at at').receivePane pane (sound.workspaces _ member)
            (paneIds_unique sound member)
        · exact added after old

section editPlaced

variable {workspace : SharedWorkspace}

structure Redrawn (before after : SharedWorkspace) : Prop where
  tree : after.tree = before.tree
  ids : after.paneIds = before.paneIds
  tiled : after.tiledIds = before.tiledIds

theorem Redrawn.updatePane (workspace : SharedWorkspace) (id : PaneId)
    {change : SharedPane → SharedPane} (same : ∀ pane, (change pane).paneId = pane.paneId)
    (placed : ∀ pane, (change pane).floating = pane.floating) :
    Redrawn workspace (workspace.updatePane id change) :=
  ⟨rfl, updatePane_paneIds id same, updatePane_tiledIds id same fun pane _ => placed pane⟩

theorem editPlaced_redrawn (id : PaneId) (edit : PaneEdit) (workspace : SharedWorkspace) :
    ∃ shown, Redrawn workspace shown ∧ editPlaced id edit workspace = shown.applyPaneSizes id edit ∧
      (workspace.paneIds.Nodup → workspace.fullscreens ≤ 1 → shown.fullscreens ≤ 1) := by
  unfold editPlaced
  cases edit.fullscreen with
  | none => exact ⟨workspace, ⟨rfl, rfl, rfl⟩, rfl, fun _ one => one⟩
  | some fullscreen =>
      have redrawn : Redrawn workspace (workspace.updatePane id fun pane =>
          { pane with fullscreen, pinned := pane.pinned && !fullscreen }) :=
        .updatePane workspace id (fun _ => rfl) fun _ => rfl
      cases fullscreen with
      | false =>
          refine ⟨_, redrawn, rfl, fun _ one => ?_⟩
          exact Nat.le_trans (updatePane_fullscreens_le id (by simp)) one
      | true =>
          simp only [beq_self_eq_true, if_true]
          refine ⟨_, ⟨?_, ?_, ?_⟩, rfl, fun unique _ => ?_⟩
          · exact redrawn.tree
          · exact (clearOtherFullscreen_paneIds _ _).trans redrawn.ids
          · exact (clearOtherFullscreen_tiledIds _ _).trans redrawn.tiled
          · apply clearOtherFullscreen_fullscreens
            rw [redrawn.ids]
            exact unique

theorem applyPaneSizes_redrawn (id : PaneId) (edit : PaneEdit) (workspace : SharedWorkspace) :
    ∃ widened, Redrawn workspace widened ∧ widened.fullscreens ≤ workspace.fullscreens ∧
      workspace.applyPaneSizes id edit = match edit.splitRatio with
        | some share =>
            { widened with
              tree := (widened.effectiveTree.map (setLeafShare id share)).bind (fromDwindle some) }
        | none => widened := by
  unfold applyPaneSizes
  cases edit.widthRatio with
  | none => exact ⟨workspace, ⟨rfl, rfl, rfl⟩, Nat.le_refl _, rfl⟩
  | some width =>
      refine ⟨_, Redrawn.updatePane workspace id ?_ ?_, ?_, rfl⟩
      · exact fun _ => rfl
      · exact fun _ => rfl
      · exact updatePane_fullscreens_le id fun _ shown => shown

/-- Only a new share of a split touches the tree, and it settles the tree first. -/
theorem Traced.editPlaced {reached : SharedWorkspace} (traced : Traced layout reached)
    (unique : reached.paneIds.Nodup) (id : PaneId) (edit : PaneEdit)
    (valid : (SharedLayout.editPlaced id edit reached).Valid) :
    Traced layout (SharedLayout.editPlaced id edit reached) := by
  have index := editPlaced_index id edit reached
  rcases editPlaced_redrawn id edit reached with ⟨shown, first, drawn, one⟩
  rcases applyPaneSizes_redrawn id edit shown with ⟨widened, second, fewer, sized⟩
  have one' := Nat.le_trans fewer (one unique traced.fullscreen)
  rw [drawn, sized] at valid index ⊢
  cases split : edit.splitRatio with
  | none =>
      rw [split] at index
      refine traced.kept index (second.tree.trans first.tree) ⟨second.tiled.trans first.tiled, ?_⟩
        one'
      intro id member
      rw [second.ids, first.ids]
      exact member
  | some share =>
      rw [split] at valid
      refine ⟨one', valid.treeProper, .inl ?_⟩
      have proper : widened.TreeProper := by
        intro tree stored
        rw [second.tree, first.tree] at stored
        exact traced.proper tree stored
      have unique' : widened.paneIds.Nodup := by
        rw [second.ids, first.ids]
        exact unique
      have settled := effectiveTree_perm proper unique'
      unfold SharedWorkspace.Settled
      cases whole : widened.effectiveTree with
      | none =>
          rw [whole] at settled
          exact settled
      | some tree =>
          rw [whole] at settled
          simp only [Option.map_some, Option.bind_some, fromDwindle_some]
          simp only [leavesOf, leaves_setLeafShare] at settled ⊢
          exact settled

end editPlaced

theorem setFloatPlacement_traces (valid : layout.Valid) (one : layout.OneFullscreen) (id : PaneId)
    (rect : Option FracRect) : Traces layout (layout.setFloatPlacement id rect) := by
  unfold setFloatPlacement
  split
  · exact .refl valid one
  · apply (Traces.refl valid one).updateWorkspace
    intro workspace present
    have member := List.mem_of_getElem? present
    have proper := (valid.workspaces workspace member).treeProper
    exact .reshaped one member (placedFor_reshaped proper (paneIds_unique valid member) id rect)

theorem Traces.editPlaced {placed : SharedLayout} (traces : Traces layout placed) {position : Nat}
    {id : PaneId} {edit : PaneEdit}
    (valid : (placed.updateWorkspace position (SharedLayout.editPlaced id edit)).Valid) :
    Traces layout (placed.updateWorkspace position (SharedLayout.editPlaced id edit)) := by
  apply traces.updateWorkspace
  intro workspace present
  have reached := traces workspace (List.mem_of_getElem? present)
  have member : SharedLayout.editPlaced id edit workspace ∈
      (placed.updateWorkspace position (SharedLayout.editPlaced id edit)).workspaces := by
    rcases updateWorkspace_exchanged (SharedLayout.editPlaced id edit) present
      with ⟨front, back, _, changed⟩
    rw [changed]
    simp
  have unique := paneIds_unique valid member
  rw [SharedWorkspace.paneIds_eq, editPlaced_placements, ← SharedWorkspace.paneIds_eq] at unique
  exact reached.editPlaced unique id edit (valid.workspaces _ member)

theorem editPane_sound (valid : layout.Valid) (one : layout.OneFullscreen) {id : PaneId}
    {edit : PaneEdit} {floatRect : Option FracRect} {changed : Bool}
    (edited : layout.editPane id edit floatRect = .ok (next, changed)) : Sound layout next := by
  rcases (Checks.bind_eq_ok _ _ _).mp edited with ⟨⟨kept, done⟩, fields, passed⟩
  have sound : next.Valid := checked_valid passed
  cases (checked_eq_ok.mp passed).1
  apply Sound.of_traces sound
  unfold editPaneFields at fields
  split at fields
  · cases fields
  · simp only at fields
    cases fields
    apply Traces.editPlaced _ sound
    split_ifs
    · exact setFloatPlacement_traces valid one id none
    · exact setFloatPlacement_traces valid one id floatRect
    · exact .refl valid one

end each

section placements

theorem Valid.placements_nodup (valid : layout.Valid) : layout.placements.Nodup := by
  have ids := valid.ids
  rw [paneIds_eq] at ids
  exact ids.of_map _

theorem removePane_placements (valid : layout.Valid) (one : layout.OneFullscreen) {id : PaneId}
    {index : Nat} (removed : layout.removePane id = some (next, index)) :
    next.placements.Perm (layout.placements.filter (·.1 != id)) := by
  have sound := (removePane_sound valid one removed).valid
  apply (List.perm_ext_iff_of_nodup sound.placements_nodup
    (valid.placements_nodup.filter _)).mpr
  intro entry
  rw [List.mem_filter]
  constructor
  · intro member
    refine ⟨removePane_subset removed entry member, ?_⟩
    have gone := removePane_absent valid.ids removed
    rw [paneIds_eq] at gone
    simp only [bne_iff_ne, ne_eq]
    rintro rfl
    exact gone (List.mem_map_of_mem member)
  · rintro ⟨member, other⟩
    exact removePane_keeps removed entry member (by simpa using other)

theorem retainPanes_placements (layout : SharedLayout) (known : List PaneId) :
    (layout.retainPanes known).placements =
      layout.placements.filter (known.contains ·.1) := by
  rw [placements_eq, placements_eq, retainPanes, List.flatMap_map, List.filter_flatMap]
  apply List.flatMap_congr
  intro workspace _
  simp only
  split_ifs
  all_goals
    simp [SharedWorkspace.placements, settleTree, List.filter_map, Function.comp_def]

theorem Rearranged.kept {edit : DocumentEdit} (rearranged : Rearranged layout next)
    (all : ∀ entry ∈ layout.placements, edit.keeps entry.1 = true) :
    next.placements.Perm (layout.placements.filter (edit.keeps ·.1)) := by
  rw [List.filter_eq_self.mpr all]
  exact rearranged

end placements

section run

theorem map_fst_eq_ok {result : Edited} :
    result.map Prod.fst = .ok next ↔ ∃ changed, result = .ok (next, changed) := by
  cases result with
  | error error => simp [Except.map]
  | ok edited => cases edited; simp [Except.map]

theorem applyEdit_sound (valid : layout.Valid) (one : layout.OneFullscreen)
    {arith : Arithmetic} {edit : DocumentEdit} (permitted : edit.Permitted arith layout)
    (done : layout.applyEdit arith edit = .ok next) : Sound layout next := by
  cases edit with
  | editPane id edit floatRect =>
      rcases map_fst_eq_ok.mp done with ⟨changed, edited⟩
      exact editPane_sound valid one edited
  | movePane id target =>
      rcases map_fst_eq_ok.mp done with ⟨changed, moved⟩
      exact movePane_sound valid one moved
  | swapPanes id other =>
      rcases map_fst_eq_ok.mp done with ⟨changed, swapped⟩
      exact swapPanes_sound one swapped
  | removePane id =>
      cases done
      cases removed : layout.removePane id with
      | none => exact .refl valid one
      | some left => exact removePane_sound valid one removed
  | setPinned id pinned =>
      cases done
      exact setPinned_sound valid one id pinned
  | setFloatPlacement id rect =>
      cases done
      apply setFloatPlacement_sound valid one id
      intro frac wanted
      rcases Option.map_eq_some_iff.mp wanted with ⟨rect, asked, rfl⟩
      exact permitted rect asked
  | setLayoutKind index kind =>
      cases done
      exact setLayoutKind_sound valid one permitted kind
  | setMasterRatio index ratio =>
      cases done
      exact setMasterRatio_sound valid one permitted.1 permitted.2
  | retainPanes known =>
      cases done
      exact retainPanes_sound valid one known

/-- An edit keeps the panes it does not remove, with their generations. -/
theorem applyEdit_placements (valid : layout.Valid) (one : layout.OneFullscreen)
    {arith : Arithmetic} {edit : DocumentEdit} (done : layout.applyEdit arith edit = .ok next) :
    next.placements.Perm (layout.placements.filter (edit.keeps ·.1)) := by
  cases edit with
  | editPane id edit floatRect =>
      rcases map_fst_eq_ok.mp done with ⟨changed, edited⟩
      exact (editPane_rearranged edited).kept fun _ _ => rfl
  | movePane id target =>
      rcases map_fst_eq_ok.mp done with ⟨changed, moved⟩
      exact (movePane_rearranged moved).kept fun _ _ => rfl
  | swapPanes id other =>
      rcases map_fst_eq_ok.mp done with ⟨changed, swapped⟩
      exact (swapPanes_rearranged swapped).kept fun _ _ => rfl
  | removePane id =>
      cases done
      cases removed : layout.removePane id with
      | none =>
          apply (Rearranged.rfl' layout).kept
          rintro entry member
          have absent := removePane_eq_none removed
          rw [paneIds_eq] at absent
          simp only [DocumentEdit.keeps, bne_iff_ne, ne_eq]
          rintro rfl
          exact absent (List.mem_map_of_mem member)
      | some left => exact removePane_placements valid one removed
  | setPinned id pinned =>
      cases done
      exact (setPinned_rearranged layout id pinned).kept fun _ _ => rfl
  | setFloatPlacement id rect =>
      cases done
      exact (setFloatPlacement_rearranged layout id _).kept fun _ _ => rfl
  | setLayoutKind index kind =>
      cases done
      exact (setLayoutKind_rearranged layout index kind).kept fun _ _ => rfl
  | setMasterRatio index ratio =>
      cases done
      exact (setMasterRatio_rearranged layout index ratio).kept fun _ _ => rfl
  | retainPanes known =>
      cases done
      exact List.Perm.of_eq (retainPanes_placements layout known)

theorem edits_sound {arith : Arithmetic} (reached : (edits arith).Reachable layout) :
    layout.Valid ∧ layout.OneFullscreen := by
  apply reached.invariant
  · rintro layout ⟨valid, one⟩
    exact ⟨(validate_iff layout ()).mp valid, one⟩
  · rintro layout edit next ⟨valid, one⟩ ⟨permitted, rfl⟩
    unfold edited
    split
    · rename_i next done
      have sound := applyEdit_sound valid one permitted done
      exact ⟨sound.valid, sound.one⟩
    · exact ⟨valid, one⟩

/-- In every run of edits each edit leaves a valid document with the panes it did not remove, at most
one of them fullscreen in a workspace, and settles every workspace that is new, lost a pane or tiles
other panes than before. -/
theorem edits_keep_document {arith : Arithmetic} (reached : (edits arith).Reachable layout)
    {edit : DocumentEdit} (permitted : edit.Permitted arith layout)
    (done : layout.applyEdit arith edit = .ok next) :
    next.validate = .ok () ∧ next.OneFullscreen ∧
      next.placements.Perm (layout.placements.filter (edit.keeps ·.1)) ∧ Settles layout next := by
  rcases edits_sound reached with ⟨valid, one⟩
  have sound := applyEdit_sound valid one permitted done
  refine ⟨(validate_iff next ()).mpr sound.valid, sound.one, ?_, sound.settles⟩
  exact applyEdit_placements valid one done

def floatingApart : SharedLayout where
  canvasCols := 80
  canvasRows := 24
  workspaces := [
    { index := 0
      panes := [
        { paneId := 1, generation := 1, floating := true
          rect := some ⟨.finite 0, .finite 0, .finite (1 / 2), .finite (1 / 2)⟩ }] },
    { index := 1
      panes := [{ paneId := 2, generation := 1 }] }]

theorem floatingApart_begins (arith : Arithmetic) : (edits arith).initial floatingApart := by
  refine ⟨by decide +kernel, ?_⟩
  change ∀ workspace ∈ floatingApart.workspaces, _ ≤ 1
  decide +kernel

/-- The tiled pane of the second workspace is floated, and the first one joins it. -/
theorem edits_keep_document_floated :
    ((floatingApart.edited .exact (.setFloatPlacement 2 (some ⟨.zero, .zero, .one, .one⟩))).edited
      .exact (.movePane 1 1)).validate = .ok () := by
  have floats : (DocumentEdit.setFloatPlacement 2 (some ⟨.zero, .zero, .one, .one⟩)).Permitted
      .exact floatingApart :=
    setFloatPlacement_permitted floatingApart 2
      ⟨rfl, rfl, ⟨1, rfl, one_pos⟩, ⟨1, rfl, one_pos⟩⟩
  have reached := (Transition.Reachable.begin (floatingApart_begins .exact)).next _ ⟨floats, rfl⟩
  have inside : (DocumentEdit.movePane 1 1).Permitted .exact
      (floatingApart.edited .exact (.setFloatPlacement 2 (some ⟨.zero, .zero, .one, .one⟩))) :=
    show 1 < workspaceCount by decide
  exact (edits_keep_document reached inside (by decide +kernel)).1

/-- A floating pane that arrives changes the membership and leaves the stored tree as it was. -/
theorem floating_arrival_unsettled :
    (edits .exact).initial floatingApart ∧
      DocumentEdit.Permitted .exact floatingApart (.movePane 1 1) ∧
      floatingApart.applyEdit .exact (.movePane 1 1) =
        .ok (floatingApart.edited .exact (.movePane 1 1)) ∧
      ∃ before ∈ floatingApart.workspaces,
        ∃ after ∈ (floatingApart.edited .exact (.movePane 1 1)).workspaces,
          before.index = after.index ∧ before.paneIds ≠ after.paneIds ∧
            ¬(leavesOf after.tree).Perm after.tiledIds := by
  refine ⟨floatingApart_begins _, show 1 < workspaceCount by decide, by decide +kernel, ?_⟩
  decide +kernel

end run

end SharedLayout

end Rozi
