import Rozi.Layout.Live

/-!
Taking a leaf out of a dwindle tree, putting one beside another, and the move of a tiled window that
does both.
-/

namespace Rozi

open SerializedTree

def removeTreeLeaf : DwindleTree → PaneId → Option DwindleTree × Bool
  | leaf pane, id => if pane = id then (none, true) else (some (leaf pane), false)
  | split axis ratio first second, id =>
      let first := removeTreeLeaf first id
      let second := removeTreeLeaf second id
      (joinSurvivors axis ratio first.1 second.1, first.2 || second.2)

/-- A new split of two leaves, `moving` on the side asked for. -/
def besideTarget (target moving : PaneId) (axis : SplitAxis) (movingFirst : Bool) (ratio : F32) :
    DwindleTree :=
  if movingFirst then split axis ratio (leaf moving) (leaf target)
  else split axis ratio (leaf target) (leaf moving)

def insertLeafAroundTarget (target moving : PaneId) (axis : SplitAxis) (movingFirst : Bool)
    (ratio : F32) : DwindleTree → Option DwindleTree
  | leaf id =>
      if id = target then some (besideTarget target moving axis movingFirst (clampSplitRatio ratio))
      else none
  | split splitAxis splitRatio first second =>
      if treeContains first target then
        (insertLeafAroundTarget target moving axis movingFirst ratio first).map fun inserted =>
          split splitAxis splitRatio inserted second
      else if treeContains second target then
        (insertLeafAroundTarget target moving axis movingFirst ratio second).map fun inserted =>
          split splitAxis splitRatio first inserted
      else none

inductive Direction where
  | left | right | up | down
  deriving DecidableEq, Repr

structure MoveSwapHint where
  pane : PaneId
  returnDirection : Direction
  target : PaneId
  deriving DecidableEq, Repr

structure DirectionalFocusHint where
  pane : PaneId
  entryDirection : Direction
  target : PaneId
  deriving DecidableEq, Repr

structure HintedWorkspace extends Workspace where
  lastMoveSwap : Option MoveSwapHint := none
  lastDirectionalFocus : Option DirectionalFocusHint := none
  deriving DecidableEq, Repr

/-- `move_tiled_window_around_target`: the workspace after the call, and what it returns. -/
def moveTiledWindowAroundTarget (workspace : HintedWorkspace) (moving target : PaneId)
    (axis : SplitAxis) (movingFirst : Bool) (ratio : F32) : HintedWorkspace × Bool :=
  if moving = target then (workspace, false)
  else
    match workspace.tileTree.or workspace.effectiveTileTree with
    | none => (workspace, false)
    | some original =>
        let unmoved : HintedWorkspace := { workspace with tileTree := some original }
        match removeTreeLeaf original moving with
        | (some withoutMoving, true) =>
            match insertLeafAroundTarget target moving axis movingFirst ratio withoutMoving with
            | some inserted =>
                ({ workspace with
                    tileTree := some inserted, lastMoveSwap := none, lastDirectionalFocus := none },
                  true)
            | none => (unmoved, false)
        | _ => (unmoved, false)

namespace SerializedTree

variable {L : Type}

def skeleton : SerializedTree L → SerializedTree Unit
  | leaf _ => leaf ()
  | split axis ratio first second => split axis ratio first.skeleton second.skeleton

inductive Subtree : SerializedTree L → SerializedTree L → Prop
  | whole (tree : SerializedTree L) : Subtree tree tree
  | first {part first : SerializedTree L} (axis : SplitAxis) (ratio : F32)
      (second : SerializedTree L) (below : Subtree part first) :
      Subtree part (split axis ratio first second)
  | second {part second : SerializedTree L} (axis : SplitAxis) (ratio : F32)
      (first : SerializedTree L) (below : Subtree part second) :
      Subtree part (split axis ratio first second)

end SerializedTree

section removal

theorem removeTreeLeaf_absent {tree : DwindleTree} {id : PaneId} (absent : id ∉ tree.leaves) :
    removeTreeLeaf tree id = (some tree, false) := by
  induction tree with
  | leaf pane =>
      have other : pane ≠ id := fun same => absent (by simp [leaves, same])
      rw [removeTreeLeaf, if_neg other]
  | split axis ratio first second hfirst hsecond =>
      rw [leaves, List.mem_append, not_or] at absent
      simp only [removeTreeLeaf, hfirst absent.1, hsecond absent.2]
      rfl

theorem removeTreeLeaf_removed (tree : DwindleTree) (id : PaneId) :
    (removeTreeLeaf tree id).2 = true ↔ id ∈ tree.leaves := by
  induction tree with
  | leaf pane =>
      by_cases same : pane = id
      · simp [removeTreeLeaf, leaves, same]
      · simp [removeTreeLeaf, leaves, same, Ne.symm same]
  | split axis ratio first second hfirst hsecond =>
      simp only [removeTreeLeaf, Bool.or_eq_true, hfirst, hsecond, leaves, List.mem_append]

theorem leavesOf_removeTreeLeaf (tree : DwindleTree) (id : PaneId) :
    leavesOf (removeTreeLeaf tree id).1 = tree.leaves.filter (· ≠ id) := by
  induction tree with
  | leaf pane =>
      by_cases same : pane = id
      · simp [removeTreeLeaf, leavesOf, leaves, same]
      · simp [removeTreeLeaf, leavesOf, leaves, same]
  | split axis ratio first second hfirst hsecond =>
      simp only [removeTreeLeaf, leavesOf_joinSurvivors, hfirst, hsecond, leaves,
        List.filter_append]

theorem removeTreeLeaf_appendTiledLeafAt {tree : DwindleTree} {id : PaneId}
    (absent : id ∉ tree.leaves) (startAxis : SplitAxis) (depth : Nat) :
    removeTreeLeaf (appendTiledLeafAt id startAxis tree depth) id = (some tree, true) := by
  induction tree generalizing depth with
  | leaf pane =>
      have other : pane ≠ id := fun same => absent (by simp [leaves, same])
      simp only [appendTiledLeafAt, removeTreeLeaf, if_neg other, if_true]
      rfl
  | split axis ratio first second _ hsecond =>
      rw [leaves, List.mem_append, not_or] at absent
      simp only [appendTiledLeafAt, removeTreeLeaf, removeTreeLeaf_absent absent.1,
        hsecond absent.2]
      rfl

end removal

section insertion

variable {target moving : PaneId} {axis : SplitAxis} {movingFirst : Bool} {ratio : F32}

theorem removeTreeLeaf_besideTarget (other : moving ≠ target) :
    removeTreeLeaf (besideTarget target moving axis movingFirst ratio) moving =
      (some (leaf target), true) := by
  have kept : removeTreeLeaf (leaf target) moving = (some (leaf target), false) := by
    rw [removeTreeLeaf, if_neg other.symm]
  have gone : removeTreeLeaf (leaf moving) moving = (none, true) := by
    rw [removeTreeLeaf, if_pos rfl]
  cases movingFirst with
  | false =>
      simp only [besideTarget, Bool.false_eq_true, if_false, removeTreeLeaf.eq_2, kept, gone]
      rfl
  | true =>
      simp only [besideTarget, if_true, removeTreeLeaf.eq_2, kept, gone]
      rfl

theorem insertLeafAroundTarget_isSome (tree : DwindleTree) :
    (insertLeafAroundTarget target moving axis movingFirst ratio tree).isSome = true ↔
      target ∈ tree.leaves := by
  induction tree with
  | leaf pane =>
      by_cases same : pane = target
      · simp [insertLeafAroundTarget, leaves, same]
      · simp [insertLeafAroundTarget, leaves, same, Ne.symm same]
  | split splitAxis splitRatio first second hfirst hsecond =>
      have before := treeContains_iff first target
      have behind := treeContains_iff second target
      simp only [insertLeafAroundTarget, leaves, List.mem_append]
      split_ifs with inFirst inSecond
      · simp [hfirst, before.mp inFirst]
      · simp [hsecond, behind.mp inSecond]
      · simp [← before, ← behind, inFirst, inSecond]

theorem removeTreeLeaf_inserted {tree inserted : DwindleTree} (other : moving ≠ target)
    (absent : moving ∉ tree.leaves)
    (made : insertLeafAroundTarget target moving axis movingFirst ratio tree = some inserted) :
    removeTreeLeaf inserted moving = (some tree, true) := by
  induction tree generalizing inserted with
  | leaf pane =>
      rw [insertLeafAroundTarget] at made
      split_ifs at made with same
      obtain rfl := Option.some.inj made
      rw [removeTreeLeaf_besideTarget other, same]
  | split splitAxis splitRatio first second hfirst hsecond =>
      rw [leaves, List.mem_append, not_or] at absent
      rw [insertLeafAroundTarget] at made
      split_ifs at made with inFirst inSecond
      · rcases Option.map_eq_some_iff.mp made with ⟨part, within, rfl⟩
        simp only [removeTreeLeaf, hfirst absent.1 within, removeTreeLeaf_absent absent.2]
        rfl
      · rcases Option.map_eq_some_iff.mp made with ⟨part, within, rfl⟩
        simp only [removeTreeLeaf, hsecond absent.2 within, removeTreeLeaf_absent absent.1]
        rfl

theorem subtree_inserted {tree inserted : DwindleTree}
    (made : insertLeafAroundTarget target moving axis movingFirst ratio tree = some inserted) :
    Subtree (besideTarget target moving axis movingFirst (clampSplitRatio ratio)) inserted := by
  induction tree generalizing inserted with
  | leaf pane =>
      rw [insertLeafAroundTarget] at made
      split_ifs at made
      obtain rfl := Option.some.inj made
      exact .whole _
  | split splitAxis splitRatio first second hfirst hsecond =>
      rw [insertLeafAroundTarget] at made
      split_ifs at made
      · rcases Option.map_eq_some_iff.mp made with ⟨part, within, rfl⟩
        exact .first splitAxis splitRatio second (hfirst within)
      · rcases Option.map_eq_some_iff.mp made with ⟨part, within, rfl⟩
        exact .second splitAxis splitRatio first (hsecond within)

theorem leaves_besideTarget_perm :
    (besideTarget target moving axis movingFirst ratio).leaves.Perm (moving :: [target]) := by
  cases movingFirst with
  | false => exact List.Perm.swap moving target []
  | true => exact List.Perm.refl _

theorem leaves_inserted_perm {tree inserted : DwindleTree}
    (made : insertLeafAroundTarget target moving axis movingFirst ratio tree = some inserted) :
    inserted.leaves.Perm (moving :: tree.leaves) := by
  induction tree generalizing inserted with
  | leaf pane =>
      rw [insertLeafAroundTarget] at made
      split_ifs at made with same
      obtain rfl := Option.some.inj made
      rw [same]
      exact leaves_besideTarget_perm
  | split splitAxis splitRatio first second hfirst hsecond =>
      rw [insertLeafAroundTarget] at made
      split_ifs at made
      · rcases Option.map_eq_some_iff.mp made with ⟨part, within, rfl⟩
        exact (hfirst within).append_right second.leaves
      · rcases Option.map_eq_some_iff.mp made with ⟨part, within, rfl⟩
        exact ((hsecond within).append_left first.leaves).trans List.perm_middle

/-- The leaves but the one put in are those of the tree before, in their order. -/
theorem leaves_inserted_others {tree inserted : DwindleTree} (other : moving ≠ target)
    (absent : moving ∉ tree.leaves)
    (made : insertLeafAroundTarget target moving axis movingFirst ratio tree = some inserted) :
    inserted.leaves.filter (· ≠ moving) = tree.leaves := by
  rw [← leavesOf_removeTreeLeaf, removeTreeLeaf_inserted other absent made]
  rfl

end insertion

section moving

variable {workspace after : HintedWorkspace} {moving target : PaneId} {axis : SplitAxis}
  {movingFirst : Bool} {ratio : F32}

/-- The tree a move works on: the stored one, else the one the layout shows. -/
def HintedWorkspace.movedTree (workspace : HintedWorkspace) : Option DwindleTree :=
  workspace.tileTree.or workspace.effectiveTileTree

/-- With no tree stored, the one shown is over the tiled panes as they come. -/
theorem leaves_of_unstored {tiledIds : List PaneId} {startAxis : SplitAxis}
    {splitRatios : List F32} {tree : DwindleTree}
    (shown : effectiveTileTree tiledIds none startAxis splitRatios none = some tree) :
    tree.leaves = tiledIds := by
  have active : tiledIds.filter (fun id => some id != none) = tiledIds :=
    List.filter_eq_self.mpr fun id _ => rfl
  have built := leavesOf_buildDwindleTreeAt startAxis splitRatios tiledIds 0
  unfold effectiveTileTree at shown
  simp only [active, Option.bind_none, Option.none_or, buildDwindleTree] at shown
  split_ifs at shown
  cases made : buildDwindleTreeAt startAxis splitRatios tiledIds 0 with
  | none =>
      rw [made] at built
      rw [← built] at shown
      cases shown
  | some first =>
      rw [made] at shown built
      have all : ∀ id ∈ tiledIds, id ∈ first.leaves := fun id member => by
        rw [← built] at member
        exact member
      rw [foldl_appendMissing_whole startAxis all] at shown
      rw [← Option.some.inj shown]
      exact built

/-- To store the tree that is shown changes nothing about what is shown. -/
theorem effectiveTileTree_stored {tree : DwindleTree} (worked : workspace.movedTree = some tree) :
    ({ workspace with tileTree := some tree } : HintedWorkspace).effectiveTileTree =
      workspace.effectiveTileTree := by
  unfold HintedWorkspace.movedTree at worked
  cases stored : workspace.tileTree with
  | some known =>
      rw [stored, Option.some_or] at worked
      simp only [Workspace.effectiveTileTree, TileSource.effectiveTileTree, Workspace.tileSource,
        stored, worked]
      rfl
  | none =>
      rw [stored, Option.none_or] at worked
      rw [worked]
      have shown : effectiveTileTree workspace.activeTiledIds none workspace.startAxis
          workspace.splitRatios none = some tree := by
        rw [← worked, ← stored]
        rfl
      have same : ∀ id, id ∈ tree.leaves ↔ id ∈ workspace.activeTiledIds := by
        rw [leaves_of_unstored shown]
        exact fun id => Iff.rfl
      exact effectiveTileTree_whole same workspace.startAxis workspace.splitRatios

/-- A move either leaves all there was, or it has taken the pane out of the tree and put it beside
its target. -/
theorem moveTiledWindow_cases {moved : Bool}
    (call : moveTiledWindowAroundTarget workspace moving target axis movingFirst ratio =
      (after, moved)) :
    (moved = false ∧ after.effectiveTileTree = workspace.effectiveTileTree ∧
      after.lastMoveSwap = workspace.lastMoveSwap ∧
      after.lastDirectionalFocus = workspace.lastDirectionalFocus) ∨
    (moved = true ∧ moving ≠ target ∧ ∃ original without inserted,
      workspace.movedTree = some original ∧
      removeTreeLeaf original moving = (some without, true) ∧
      insertLeafAroundTarget target moving axis movingFirst ratio without = some inserted ∧
      after = { workspace with
        tileTree := some inserted, lastMoveSwap := none, lastDirectionalFocus := none }) := by
  unfold moveTiledWindowAroundTarget at call
  rw [← HintedWorkspace.movedTree] at call
  split_ifs at call with same
  · obtain ⟨rfl, rfl⟩ := Prod.mk.inj call
    exact .inl ⟨rfl, rfl, rfl, rfl⟩
  · cases worked : workspace.movedTree with
    | none =>
        rw [worked] at call
        obtain ⟨rfl, rfl⟩ := Prod.mk.inj call
        exact .inl ⟨rfl, rfl, rfl, rfl⟩
    | some original =>
        rw [worked] at call
        have unmoved := effectiveTileTree_stored worked
        simp only at call
        split at call
        · next without removed =>
          split at call
          · next inserted made =>
            obtain ⟨rfl, rfl⟩ := Prod.mk.inj call
            exact .inr ⟨rfl, same, original, without, inserted, rfl, removed, made, rfl⟩
          · obtain ⟨rfl, rfl⟩ := Prod.mk.inj call
            exact .inl ⟨rfl, unmoved, rfl, rfl⟩
        · obtain ⟨rfl, rfl⟩ := Prod.mk.inj call
          exact .inl ⟨rfl, unmoved, rfl, rfl⟩

theorem moveTiledWindow_moved {original : DwindleTree} (distinct : original.leaves.Nodup)
    (worked : workspace.movedTree = some original)
    (call : moveTiledWindowAroundTarget workspace moving target axis movingFirst ratio =
      (after, true)) :
    ∃ inserted, after.tileTree = some inserted ∧
      inserted.leaves.Perm original.leaves ∧
      Subtree (besideTarget target moving axis movingFirst (clampSplitRatio ratio)) inserted ∧
      inserted.leaves.filter (· ≠ moving) = original.leaves.filter (· ≠ moving) := by
  rcases moveTiledWindow_cases call with ⟨unmoved, _⟩ |
    ⟨_, other, known, without, inserted, same, removed, made, rfl⟩
  · cases unmoved
  · obtain rfl := Option.some.inj (same.symm.trans worked)
    have rest : without.leaves = known.leaves.filter (· ≠ moving) := by
      rw [← leavesOf_removeTreeLeaf, removed]
      rfl
    have there : moving ∈ known.leaves := (removeTreeLeaf_removed known moving).mp (by rw [removed])
    have absent : moving ∉ without.leaves := by
      rw [rest]
      simp
    refine ⟨inserted, rfl, ?_, subtree_inserted made, ?_⟩
    · have others : known.leaves.erase moving = known.leaves.filter (· ≠ moving) := by
        rw [distinct.erase_eq_filter]
        exact List.filter_congr fun id _ => Bool.eq_iff_iff.mpr (by simp)
      refine (leaves_inserted_perm made).trans ?_
      rw [rest, ← others]
      exact (List.perm_cons_erase there).symm
    · rw [leaves_inserted_others other absent made, rest]

theorem moveTiledWindow_succeeds {original : DwindleTree}
    (worked : workspace.movedTree = some original) (other : moving ≠ target)
    (there : moving ∈ original.leaves) (around : target ∈ original.leaves) :
    (moveTiledWindowAroundTarget workspace moving target axis movingFirst ratio).2 = true := by
  have removed := (removeTreeLeaf_removed original moving).mpr there
  have rest := leavesOf_removeTreeLeaf original moving
  have kept : target ∈ original.leaves.filter (· ≠ moving) :=
    List.mem_filter.mpr ⟨around, by simpa using other.symm⟩
  rw [← rest] at kept
  rcases taken : removeTreeLeaf original moving with ⟨without, gone⟩
  rw [taken] at removed kept
  obtain rfl : gone = true := removed
  cases without with
  | none => cases kept
  | some without =>
      have inserts :
          (insertLeafAroundTarget target moving axis movingFirst ratio without).isSome = true :=
        (insertLeafAroundTarget_isSome without).mpr kept
      rcases Option.isSome_iff_exists.mp inserts with ⟨inserted, made⟩
      have worked' : workspace.tileTree.or workspace.effectiveTileTree = some original := worked
      simp only [moveTiledWindowAroundTarget, if_neg other, worked', taken, made]

end moving

section swapping

theorem skeleton_swapTreeLeaves (tree : DwindleTree) (a b : PaneId) :
    (swapTreeLeaves tree a b).skeleton = tree.skeleton := by
  have inner : (swapTreeLeavesInner a b tree).skeleton = tree.skeleton := by
    induction tree with
    | leaf pane =>
        unfold swapTreeLeavesInner
        split_ifs <;> rfl
    | split axis ratio first second hfirst hsecond =>
        simp only [swapTreeLeavesInner, skeleton, hfirst, hsecond]
  unfold swapTreeLeaves
  split_ifs
  · rfl
  · exact inner

theorem swapTreeLeavesInner_involutive (a b : PaneId) (tree : DwindleTree) :
    swapTreeLeavesInner a b (swapTreeLeavesInner a b tree) = tree := by
  induction tree with
  | leaf pane =>
      have slot : ∀ id, swapTreeLeavesInner a b (leaf id) = leaf (swapped a b id) := by
        intro id
        unfold swapTreeLeavesInner swapped
        split_ifs <;> rfl
      rw [slot, slot, swapped_involutive]
  | split axis ratio first second hfirst hsecond =>
      simp only [swapTreeLeavesInner, hfirst, hsecond]

theorem swapTreeLeaves_involutive (tree : DwindleTree) (a b : PaneId) :
    swapTreeLeaves (swapTreeLeaves tree a b) a b = tree := by
  by_cases kept : (a = b || !treeContains tree a || !treeContains tree b) = true
  · have unchanged : swapTreeLeaves tree a b = tree := if_pos kept
    rw [unchanged, unchanged]
  · have exchanged : swapTreeLeaves tree a b = swapTreeLeavesInner a b tree := if_neg kept
    simp only [Bool.or_eq_true, decide_eq_true_eq, Bool.not_eq_true', not_or,
      Bool.not_eq_false] at kept
    rcases kept with ⟨⟨different, hasA⟩, hasB⟩
    have leaves := leaves_swapTreeLeavesInner a b tree
    have stillA : treeContains (swapTreeLeavesInner a b tree) a = true := by
      rw [treeContains_iff, leaves]
      exact List.mem_map.mpr ⟨b, (treeContains_iff tree b).mp hasB, by simp [swapped]⟩
    have stillB : treeContains (swapTreeLeavesInner a b tree) b = true := by
      rw [treeContains_iff, leaves]
      exact List.mem_map.mpr ⟨a, (treeContains_iff tree a).mp hasA, by simp [swapped]⟩
    rw [exchanged, swapTreeLeaves, if_neg (by simp [different, stillA, stillB])]
    exact swapTreeLeavesInner_involutive a b tree

end swapping

/-- What is put into a tree comes off it again, a move moves one pane only, and an exchange undoes
itself. -/
theorem tree_surgery {tree : DwindleTree} (distinct : tree.leaves.Nodup) {target pane : PaneId}
    (there : target ∈ tree.leaves) (absent : pane ∉ tree.leaves) (axis : SplitAxis)
    (movingFirst : Bool) (ratio : F32) :
    (∃ inserted,
      insertLeafAroundTarget target pane axis movingFirst ratio tree = some inserted ∧
      removeTreeLeaf inserted pane = (some tree, true)) ∧
    removeTreeLeaf (appendTiledLeaf (some tree) pane axis) pane = (some tree, true) ∧
    (∀ (workspace : HintedWorkspace) (moving : PaneId), workspace.movedTree = some tree →
      moving ∈ tree.leaves → moving ≠ target →
      ∃ after inserted,
        moveTiledWindowAroundTarget workspace moving target axis movingFirst ratio =
          (after, true) ∧
        after.tileTree = some inserted ∧
        inserted.leaves.Perm tree.leaves ∧
        Subtree (besideTarget target moving axis movingFirst (clampSplitRatio ratio)) inserted ∧
        inserted.leaves.filter (· ≠ moving) = tree.leaves.filter (· ≠ moving)) ∧
    (∀ (workspace after : HintedWorkspace) (moving beside : PaneId),
      moveTiledWindowAroundTarget workspace moving beside axis movingFirst ratio =
        (after, false) →
      after.effectiveTileTree = workspace.effectiveTileTree ∧
        after.lastMoveSwap = workspace.lastMoveSwap ∧
        after.lastDirectionalFocus = workspace.lastDirectionalFocus) ∧
    (∀ a b : PaneId, swapTreeLeaves (swapTreeLeaves tree a b) a b = tree ∧
      (swapTreeLeaves tree a b).skeleton = tree.skeleton) := by
  have other : pane ≠ target := fun same => absent (same ▸ there)
  refine ⟨?_, removeTreeLeaf_appendTiledLeafAt absent axis 0, ?_, ?_, ?_⟩
  · rcases Option.isSome_iff_exists.mp ((insertLeafAroundTarget_isSome tree).mpr there) with
      ⟨inserted, made⟩
    exact ⟨inserted, made, removeTreeLeaf_inserted other absent made⟩
  · intro workspace moving worked member different
    have moved : (moveTiledWindowAroundTarget workspace moving target axis movingFirst ratio).2 =
        true := moveTiledWindow_succeeds worked different member there
    rcases called : moveTiledWindowAroundTarget workspace moving target axis movingFirst ratio with
      ⟨after, result⟩
    rw [called] at moved
    obtain rfl : result = true := moved
    rcases moveTiledWindow_moved distinct worked called with ⟨inserted, rest⟩
    exact ⟨after, inserted, rfl, rest⟩
  · intro workspace after moving beside failed
    rcases moveTiledWindow_cases failed with ⟨_, unmoved⟩ | ⟨moved, _⟩
    · exact unmoved
    · cases moved
  · intro a b
    exact ⟨swapTreeLeaves_involutive tree a b, skeleton_swapTreeLeaves tree a b⟩

theorem tree_surgery_pair :
    removeTreeLeaf (appendTiledLeaf
      (some (split .horizontal defaultRatio (leaf 1) (leaf 2))) 3 .vertical) 3 =
      (some (split .horizontal defaultRatio (leaf 1) (leaf 2)), true) :=
  (tree_surgery (show (split .horizontal defaultRatio (leaf 1) (leaf 2)).leaves.Nodup by decide)
    (show 2 ∈ _ by decide) (by decide) .vertical false defaultRatio).2.1

end Rozi
