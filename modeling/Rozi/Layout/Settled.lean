import Rozi.Layout.Placements

/-!
What an edit does to one workspace: it stays valid, at most one of its panes is fullscreen, and its
tree is settled unless it held the same tiled panes before and lost none.
-/

namespace Rozi

open SerializedTree

namespace SharedWorkspace

variable {workspace : SharedWorkspace}

/-- The stored tree divides properly and names no pane twice, whatever panes it names. -/
def TreeProper (workspace : SharedWorkspace) : Prop :=
  ∀ tree ∈ workspace.tree, tree.RatiosProper ∧ tree.leaves.Nodup

def Settled (workspace : SharedWorkspace) : Prop :=
  (leavesOf workspace.tree).Perm workspace.tiledIds

structure Kept (before after : SharedWorkspace) : Prop where
  tiled : after.tiledIds = before.tiledIds
  panes : ∀ id ∈ before.paneIds, id ∈ after.paneIds

def fullscreens (workspace : SharedWorkspace) : Nat :=
  workspace.panes.countP SharedPane.fullscreen

theorem Kept.refl (workspace : SharedWorkspace) : Kept workspace workspace := ⟨rfl, fun _ => id⟩

theorem Kept.of_panes {before after : SharedWorkspace} (same : after.panes = before.panes) :
    Kept before after where
  tiled := by rw [tiledIds, tiledIds, same]
  panes := fun id member => by
    rw [paneIds, same]
    exact member

theorem Kept.trans {first second third : SharedWorkspace} (one : Kept first second)
    (two : Kept second third) : Kept first third :=
  ⟨two.tiled.trans one.tiled, fun id member => two.panes id (one.panes id member)⟩

theorem tiledIds_sublist (workspace : SharedWorkspace) :
    workspace.tiledIds.Sublist workspace.paneIds :=
  List.filter_sublist.map SharedPane.paneId

theorem Valid.treeProper (valid : workspace.Valid) : workspace.TreeProper :=
  fun tree stored => ⟨(valid.tree tree stored).ratios, (valid.tree tree stored).unique⟩

theorem leaves_dwindleFromShared (tree : SerializedTree PaneId) (known : List PaneId) :
    leavesOf (dwindleFromShared tree known) = tree.leaves.filter (known.contains ·) := by
  unfold dwindleFromShared
  rw [leavesOf_toDwindle, ← List.filterMap_eq_filter]
  rfl

theorem leaves_storedTileTree (workspace : SharedWorkspace) :
    leavesOf workspace.storedTileTree =
      (leavesOf workspace.tree).filter (workspace.paneIds.contains ·) := by
  unfold storedTileTree
  cases workspace.tree with
  | none => rfl
  | some tree => exact leaves_dwindleFromShared tree workspace.paneIds

theorem TreeProper.stored (proper : workspace.TreeProper) :
    (leavesOf workspace.storedTileTree).Nodup ∧
      ∀ tree ∈ workspace.storedTileTree, tree.RatiosProper := by
  constructor
  · rw [leaves_storedTileTree]
    apply List.Nodup.filter
    cases stored : workspace.tree with
    | none => exact List.nodup_nil
    | some tree => exact (proper tree stored).2
  · intro kept member
    rcases Option.bind_eq_some_iff.mp member with ⟨tree, stored, kept⟩
    exact toDwindle_proper _ (proper tree stored).1 _ kept

theorem settleTree_tree (workspace : SharedWorkspace) :
    workspace.settleTree.tree = workspace.effectiveTree := by
  unfold settleTree
  cases workspace.effectiveTree with
  | none => rfl
  | some tree => exact fromDwindle_some tree

theorem effectiveTree_perm (proper : workspace.TreeProper) (unique : workspace.paneIds.Nodup) :
    (leavesOf workspace.effectiveTree).Perm workspace.tiledIds :=
  effectiveTileTree_perm workspace.tiledIds (unique.sublist workspace.tiledIds_sublist) _
    proper.stored.1 _ _

theorem effectiveTree_valid (proper : workspace.TreeProper) (unique : workspace.paneIds.Nodup) :
    ∀ tree ∈ workspace.effectiveTree, TreeValid workspace.paneIds tree := by
  intro tree settled
  have same := effectiveTree_perm proper unique
  rw [settled] at same
  have tiled := unique.sublist workspace.tiledIds_sublist
  refine ⟨?_, same.nodup_iff.mpr tiled, ?_⟩
  · exact effectiveTileTree_proper workspace.tiledIds proper.stored.2 _ _ none tree settled
  · intro id leaf
    exact workspace.tiledIds_sublist.subset (same.mem_iff.mp leaf)

theorem settleTree_proper (proper : workspace.TreeProper) (unique : workspace.paneIds.Nodup) :
    workspace.settleTree.TreeProper := by
  intro tree stored
  rw [settleTree_tree] at stored
  have kept := effectiveTree_valid proper unique tree stored
  exact ⟨kept.ratios, kept.unique⟩

theorem settleTree_settled (proper : workspace.TreeProper) (unique : workspace.paneIds.Nodup) :
    workspace.settleTree.Settled := by
  unfold Settled
  rw [settleTree_tree]
  exact effectiveTree_perm proper unique

theorem settleTree_valid (index : workspace.index < workspaceCount)
    (panes : ∀ pane ∈ workspace.panes, pane.Valid)
    (ratios : ∀ ratio ∈ workspace.splitRatios, ratio.Proper) (proper : workspace.TreeProper)
    (unique : workspace.paneIds.Nodup) : workspace.settleTree.Valid where
  index := index
  panes := panes
  ratios := ratios
  tree := fun tree stored => by
    rw [settleTree_tree] at stored
    exact effectiveTree_valid proper unique tree stored

structure Reshaped (before after : SharedWorkspace) : Prop where
  index : after.index = before.index
  panes : after.paneIds.Sublist before.paneIds
  fullscreen : before.fullscreens ≤ 1 → after.fullscreens ≤ 1
  proper : after.TreeProper
  settled : after.Settled ∨ Kept before after

structure Edited (before after : SharedWorkspace) : Prop extends Reshaped before after where
  valid : after.Valid

theorem Reshaped.refl (proper : workspace.TreeProper) : Reshaped workspace workspace :=
  ⟨rfl, List.Sublist.refl _, id, proper, .inr (.refl workspace)⟩

theorem Edited.refl (valid : workspace.Valid) : Edited workspace workspace :=
  ⟨.refl valid.treeProper, valid⟩

section update

variable {change : SharedPane → SharedPane} (id : PaneId)

theorem updatePane_paneIds (same : ∀ pane, (change pane).paneId = pane.paneId) :
    (workspace.updatePane id change).paneIds = workspace.paneIds :=
  map_updateFirst _ same _

theorem updatePane_panes (valid : workspace.Valid)
    (own : ∀ pane, pane.Valid → (change pane).Valid) :
    ∀ pane ∈ (workspace.updatePane id change).panes, pane.Valid := by
  intro pane member
  rcases mem_updateFirst member with kept | ⟨old, held, _, rfl⟩
  · exact valid.panes pane kept
  · exact own old (valid.panes old held)

theorem updatePane_tiledIds (same : ∀ pane, (change pane).paneId = pane.paneId)
    (placed : ∀ pane, workspace.panes.find? (·.paneId == id) = some pane →
      (change pane).floating = pane.floating) :
    (workspace.updatePane id change).tiledIds = workspace.tiledIds := by
  unfold tiledIds updatePane
  cases found : workspace.panes.find? (·.paneId == id) with
  | none => rw [updateFirst_of_none change found]
  | some pane =>
      rcases exchanged_updateFirst change found with ⟨front, back, split, changed⟩
      rw [changed, split]
      simp only [List.filter_append, List.filter_cons, placed pane found]
      split_ifs
      · simp [same]
      · rfl

theorem updatePane_fullscreens_le
    (fewer : ∀ pane, (change pane).fullscreen = true → pane.fullscreen = true) :
    (workspace.updatePane id change).fullscreens ≤ workspace.fullscreens :=
  countP_updateFirst_le _ fewer _

theorem Edited.updatePane (valid : workspace.Valid)
    (same : ∀ pane, (change pane).paneId = pane.paneId)
    (placed : ∀ pane, (change pane).floating = pane.floating)
    (own : ∀ pane, pane.Valid → (change pane).Valid)
    (fewer : ∀ pane, (change pane).fullscreen = true → pane.fullscreen = true) :
    Edited workspace (workspace.updatePane id change) := by
  have ids : (workspace.updatePane id change).paneIds = workspace.paneIds :=
    updatePane_paneIds id same
  refine ⟨⟨rfl, ids ▸ List.Sublist.refl _, ?_, valid.treeProper, .inr ⟨?_, ?_⟩⟩, ?_⟩
  rotate_right
  · refine ⟨valid.index, updatePane_panes id valid own, valid.ratios, ?_⟩
    intro tree stored
    rw [ids]
    exact valid.tree tree stored
  · intro one
    exact Nat.le_trans (updatePane_fullscreens_le id fewer) one
  · exact updatePane_tiledIds id same fun pane _ => placed pane
  · rw [ids]
    exact fun _ member => member

end update

theorem Edited.filtered (valid : workspace.Valid) (unique : workspace.paneIds.Nodup)
    (kept : SharedPane → Bool) :
    Edited workspace { workspace with panes := workspace.panes.filter kept }.settleTree := by
  have fewer : (workspace.panes.filter kept).Sublist workspace.panes := List.filter_sublist
  have ids : ({ workspace with panes := workspace.panes.filter kept } :
      SharedWorkspace).paneIds.Sublist workspace.paneIds := fewer.map SharedPane.paneId
  have unique' := unique.sublist ids
  refine ⟨⟨rfl, ids, ?_, ?_, .inl ?_⟩, ?_⟩
  · exact fun one => Nat.le_trans fewer.countP_le one
  · exact settleTree_proper valid.treeProper unique'
  · exact settleTree_settled valid.treeProper unique'
  · exact settleTree_valid valid.index (fun pane member => valid.panes pane (fewer.subset member))
      valid.ratios valid.treeProper unique'

end SharedWorkspace

end Rozi
