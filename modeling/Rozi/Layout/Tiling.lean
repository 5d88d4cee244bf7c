import Rozi.Layout.Scalar
import Mathlib.Data.List.Basic
import Mathlib.Data.List.Nodup

/-!
The dwindle tree of a workspace. The wire form of a tree and the runtime form have the same shape,
so both are `SerializedTree`; the runtime tree is the one whose leaves are pane ids.
-/

namespace Rozi

abbrev PaneId := Nat

inductive SplitAxis where
  | horizontal
  | vertical
  deriving DecidableEq, Repr

namespace SplitAxis

def startForWorkspace (index : Nat) : SplitAxis :=
  if index % 2 = 0 then horizontal else vertical

def atDepth (start : SplitAxis) (depth : Nat) : SplitAxis :=
  if depth % 2 = 0 then start
  else match start with
    | horizontal => vertical
    | vertical => horizontal

end SplitAxis

inductive SerializedTree (L : Type) where
  | leaf (pane : L)
  | split (axis : SplitAxis) (ratio : F32) (first second : SerializedTree L)
  deriving DecidableEq, Repr

abbrev DwindleTree := SerializedTree PaneId

namespace SerializedTree

variable {L : Type}

def leaves : SerializedTree L → List L
  | leaf pane => [pane]
  | split _ _ first second => first.leaves ++ second.leaves

def RatiosProper : SerializedTree L → Prop
  | leaf _ => True
  | split _ ratio first second => ratio.Proper ∧ first.RatiosProper ∧ second.RatiosProper

/-- The two halves of a split whose sides may have disappeared; the survivor takes the slot. -/
def joinSurvivors (axis : SplitAxis) (ratio : F32) :
    Option (SerializedTree L) → Option (SerializedTree L) → Option (SerializedTree L)
  | some first, some second => some (split axis ratio first second)
  | some only, none => some only
  | none, some only => some only
  | none, none => none

def leavesOf : Option (SerializedTree L) → List L
  | some tree => tree.leaves
  | none => []

theorem leavesOf_joinSurvivors (axis : SplitAxis) (ratio : F32)
    (first second : Option (SerializedTree L)) :
    leavesOf (joinSurvivors axis ratio first second) = leavesOf first ++ leavesOf second := by
  cases first <;> cases second <;> simp [joinSurvivors, leavesOf, leaves]

theorem joinSurvivors_proper {axis : SplitAxis} {ratio : F32}
    {first second : Option (SerializedTree L)} (proper : ratio.Proper)
    (hfirst : ∀ tree ∈ first, tree.RatiosProper) (hsecond : ∀ tree ∈ second, tree.RatiosProper) :
    ∀ tree ∈ joinSurvivors axis ratio first second, tree.RatiosProper := by
  intro tree member
  cases first <;> cases second <;>
    simp only [joinSurvivors, Option.mem_def, Option.some.injEq, reduceCtorEq] at member
  · exact hsecond tree (by simpa using member)
  · exact hfirst tree (by simpa using member)
  · subst member
    exact ⟨proper, hfirst _ rfl, hsecond _ rfl⟩

theorem leaves_ne_nil (tree : SerializedTree L) : tree.leaves ≠ [] := by
  induction tree with
  | leaf pane => simp [leaves]
  | split axis ratio first second hfirst hsecond => simp [leaves, hfirst]

end SerializedTree

open SerializedTree

/-- `from_dwindle`: a leaf that does not resolve loses the whole tree. -/
def fromDwindle {L : Type} (resolveLeaf : PaneId → Option L) :
    DwindleTree → Option (SerializedTree L)
  | leaf id => (resolveLeaf id).map leaf
  | split axis ratio first second => do
      let first ← fromDwindle resolveLeaf first
      let second ← fromDwindle resolveLeaf second
      return split axis ratio first second

/-- `to_dwindle`: with `collapseMissing` the surviving side of a split is promoted. -/
def toDwindle {L : Type} (resolveLeaf : L → Option PaneId) (collapseMissing : Bool) :
    SerializedTree L → Option DwindleTree
  | leaf pane => (resolveLeaf pane).map leaf
  | split axis ratio first second =>
      match toDwindle resolveLeaf collapseMissing first,
          toDwindle resolveLeaf collapseMissing second with
      | some first, some second => some (split axis ratio first second)
      | some only, none => if collapseMissing then some only else none
      | none, some only => if collapseMissing then some only else none
      | none, none => none

def treeContains : DwindleTree → PaneId → Bool
  | leaf pane, id => pane == id
  | split _ _ first second, id => treeContains first id || treeContains second id

def pruneTreeToIds (activeIds : List PaneId) : DwindleTree → Option DwindleTree
  | leaf id => if activeIds.contains id then some (leaf id) else none
  | split axis ratio first second =>
      joinSurvivors axis ratio (pruneTreeToIds activeIds first) (pruneTreeToIds activeIds second)

def buildDwindleTreeAt (startAxis : SplitAxis) (ratios : List F32) :
    List PaneId → Nat → Option DwindleTree
  | [], _ => none
  | [id], _ => some (leaf id)
  | first :: rest, depth => do
      let second ← buildDwindleTreeAt startAxis ratios rest (depth + 1)
      return split (startAxis.atDepth depth) (ratioAt ratios depth) (leaf first) second

def buildDwindleTree (ids : List PaneId) (startAxis : SplitAxis) (ratios : List F32) :
    Option DwindleTree :=
  buildDwindleTreeAt startAxis ratios ids 0

def appendTiledLeafAt (id : PaneId) (startAxis : SplitAxis) : DwindleTree → Nat → DwindleTree
  | leaf existing, depth =>
      split (startAxis.atDepth depth) defaultRatio (leaf existing) (leaf id)
  | split axis ratio first second, depth =>
      split axis ratio first (appendTiledLeafAt id startAxis second (depth + 1))

def appendTiledLeaf (tree : Option DwindleTree) (id : PaneId) (startAxis : SplitAxis) :
    DwindleTree :=
  match tree with
  | some tree => appendTiledLeafAt id startAxis tree 0
  | none => leaf id

def swapTreeLeavesInner (a b : PaneId) : DwindleTree → DwindleTree
  | leaf id => if id = a then leaf b else if id = b then leaf a else leaf id
  | split axis ratio first second =>
      split axis ratio (swapTreeLeavesInner a b first) (swapTreeLeavesInner a b second)

def swapTreeLeaves (tree : DwindleTree) (a b : PaneId) : DwindleTree :=
  if a = b || !treeContains tree a || !treeContains tree b then tree
  else swapTreeLeavesInner a b tree

/-- `leaf_share`: the share of the split directly holding the leaf; a lone leaf has none. -/
def leafShare : DwindleTree → PaneId → Option F32
  | leaf _, _ => none
  | split _ ratio first second, id =>
      if first = leaf id then some ratio
      else if second = leaf id then some ratio.oneMinus
      else if treeContains first id then leafShare first id
      else leafShare second id

def setLeafShare (id : PaneId) (share : F32) : DwindleTree → DwindleTree
  | leaf pane => leaf pane
  | split axis ratio first second =>
      if first = leaf id then split axis share first second
      else if second = leaf id then split axis share.oneMinus first second
      else if treeContains first id then split axis ratio (setLeafShare id share first) second
      else split axis ratio first (setLeafShare id share second)

/-- One round of the loop that closes `effective_tile_tree`: a tiled pane the tree does not name
is appended at its end. -/
def appendMissing (startAxis : SplitAxis) (tree : Option DwindleTree) (id : PaneId) :
    Option DwindleTree :=
  if tree.any (treeContains · id) then tree else some (appendTiledLeaf tree id startAxis)

/-- `effective_tile_tree` over the tiled ids of a workspace, its stored tree, start axis and split
ratios. -/
def effectiveTileTree (tiledIds : List PaneId) (stored : Option DwindleTree)
    (startAxis : SplitAxis) (splitRatios : List F32) (excludeTiled : Option PaneId) :
    Option DwindleTree :=
  let activeIds := tiledIds.filter fun id => some id != excludeTiled
  if activeIds.isEmpty then none
  else
    let tree := (stored.bind (pruneTreeToIds activeIds)).or
      (buildDwindleTree activeIds startAxis splitRatios)
    activeIds.foldl (appendMissing startAxis) tree

section leaves

variable {L : Type}

theorem fromDwindle_some (tree : DwindleTree) : fromDwindle some tree = some tree := by
  induction tree with
  | leaf pane => rfl
  | split axis ratio first second hfirst hsecond => simp [fromDwindle, hfirst, hsecond]

theorem toDwindle_collapse (resolve : L → Option PaneId) (axis : SplitAxis) (ratio : F32)
    (first second : SerializedTree L) :
    toDwindle resolve true (split axis ratio first second) =
      joinSurvivors axis ratio (toDwindle resolve true first) (toDwindle resolve true second) := by
  simp only [toDwindle]
  cases toDwindle resolve true first <;> cases toDwindle resolve true second <;> rfl

theorem leavesOf_toDwindle (resolve : L → Option PaneId) (tree : SerializedTree L) :
    leavesOf (toDwindle resolve true tree) = tree.leaves.filterMap resolve := by
  induction tree with
  | leaf pane => cases found : resolve pane <;> simp [toDwindle, leavesOf, leaves, found]
  | split axis ratio first second hfirst hsecond =>
      rw [toDwindle_collapse, leavesOf_joinSurvivors, hfirst, hsecond, leaves,
        List.filterMap_append]

theorem toDwindle_proper (resolve : L → Option PaneId) {tree : SerializedTree L}
    (proper : tree.RatiosProper) : ∀ kept ∈ toDwindle resolve true tree, kept.RatiosProper := by
  induction tree with
  | leaf pane =>
      intro kept member
      obtain ⟨id, _, rfl⟩ := Option.map_eq_some_iff.mp member
      trivial
  | split axis ratio first second hfirst hsecond =>
      rw [toDwindle_collapse]
      exact joinSurvivors_proper proper.1 (hfirst proper.2.1) (hsecond proper.2.2)

theorem treeContains_iff (tree : DwindleTree) (id : PaneId) :
    treeContains tree id = true ↔ id ∈ tree.leaves := by
  induction tree with
  | leaf pane =>
      simp only [treeContains, leaves, beq_iff_eq, List.mem_singleton]
      exact eq_comm
  | split axis ratio first second hfirst hsecond =>
      simp [treeContains, leaves, hfirst, hsecond]

theorem leavesOf_pruneTreeToIds (ids : List PaneId) (tree : DwindleTree) :
    leavesOf (pruneTreeToIds ids tree) = tree.leaves.filter (ids.contains ·) := by
  induction tree with
  | leaf pane => by_cases kept : pane ∈ ids <;> simp [pruneTreeToIds, leavesOf, leaves, kept]
  | split axis ratio first second hfirst hsecond =>
      rw [pruneTreeToIds, leavesOf_joinSurvivors, hfirst, hsecond, leaves, List.filter_append]

theorem pruneTreeToIds_proper (ids : List PaneId) {tree : DwindleTree}
    (proper : tree.RatiosProper) : ∀ kept ∈ pruneTreeToIds ids tree, kept.RatiosProper := by
  induction tree with
  | leaf pane =>
      intro kept member
      simp only [pruneTreeToIds, Option.mem_def, Option.ite_none_right_eq_some,
        Option.some.injEq] at member
      obtain ⟨_, rfl⟩ := member
      trivial
  | split axis ratio first second hfirst hsecond =>
      exact joinSurvivors_proper proper.1 (hfirst proper.2.1) (hsecond proper.2.2)

theorem leavesOf_buildDwindleTreeAt (startAxis : SplitAxis) (ratios : List F32)
    (ids : List PaneId) (depth : Nat) :
    leavesOf (buildDwindleTreeAt startAxis ratios ids depth) = ids := by
  induction ids generalizing depth with
  | nil => rfl
  | cons first rest ih =>
      cases rest with
      | nil => rfl
      | cons second rest =>
          have tail := ih (depth + 1)
          cases built : buildDwindleTreeAt startAxis ratios (second :: rest) (depth + 1) with
          | none => simp [built, leavesOf] at tail
          | some tree =>
              rw [built] at tail
              simp only [leavesOf] at tail
              simp [buildDwindleTreeAt, built, leavesOf, leaves, tail]

theorem buildDwindleTreeAt_proper (startAxis : SplitAxis) (ratios : List F32)
    (ids : List PaneId) (depth : Nat) :
    ∀ tree ∈ buildDwindleTreeAt startAxis ratios ids depth, tree.RatiosProper := by
  induction ids generalizing depth with
  | nil => simp [buildDwindleTreeAt]
  | cons first rest ih =>
      cases rest with
      | nil => simp [buildDwindleTreeAt, RatiosProper]
      | cons second rest =>
          intro tree member
          cases built : buildDwindleTreeAt startAxis ratios (second :: rest) (depth + 1) with
          | none => simp [buildDwindleTreeAt, built] at member
          | some tail =>
              simp only [buildDwindleTreeAt, built, Option.bind_eq_bind, Option.bind_some,
                Option.pure_def, Option.mem_def, Option.some.injEq] at member
              subst member
              exact ⟨ratioAt_proper ratios depth, trivial, ih (depth + 1) tail built⟩

theorem leaves_appendTiledLeafAt (id : PaneId) (startAxis : SplitAxis) (tree : DwindleTree)
    (depth : Nat) : (appendTiledLeafAt id startAxis tree depth).leaves = tree.leaves ++ [id] := by
  induction tree generalizing depth with
  | leaf pane => rfl
  | split axis ratio first second _ hsecond =>
      simp [appendTiledLeafAt, leaves, hsecond]

theorem appendTiledLeafAt_proper (id : PaneId) (startAxis : SplitAxis) {tree : DwindleTree}
    (proper : tree.RatiosProper) (depth : Nat) :
    (appendTiledLeafAt id startAxis tree depth).RatiosProper := by
  induction tree generalizing depth with
  | leaf pane => exact ⟨defaultRatio_proper, trivial, trivial⟩
  | split axis ratio first second _ hsecond =>
      exact ⟨proper.1, proper.2.1, hsecond proper.2.2 (depth + 1)⟩

theorem leaves_appendTiledLeaf (tree : Option DwindleTree) (id : PaneId) (startAxis : SplitAxis) :
    (appendTiledLeaf tree id startAxis).leaves = leavesOf tree ++ [id] := by
  cases tree with
  | none => rfl
  | some tree => exact leaves_appendTiledLeafAt id startAxis tree 0

theorem appendTiledLeaf_proper {tree : Option DwindleTree} (id : PaneId) (startAxis : SplitAxis)
    (proper : ∀ kept ∈ tree, kept.RatiosProper) :
    (appendTiledLeaf tree id startAxis).RatiosProper := by
  cases tree with
  | none => trivial
  | some tree => exact appendTiledLeafAt_proper id startAxis (proper tree rfl) 0

/-- The pane id an exchange of `a` and `b` leaves in the slot that held `id`. -/
def swapped (a b id : PaneId) : PaneId := if id = a then b else if id = b then a else id

theorem swapped_involutive (a b id : PaneId) : swapped a b (swapped a b id) = id := by
  unfold swapped
  split_ifs <;> simp_all

theorem leaves_swapTreeLeavesInner (a b : PaneId) (tree : DwindleTree) :
    (swapTreeLeavesInner a b tree).leaves = tree.leaves.map (swapped a b) := by
  induction tree with
  | leaf pane =>
      unfold swapTreeLeavesInner
      by_cases first : pane = a
      · simp [leaves, swapped, first]
      · by_cases second : pane = b
        · subst second
          simp [leaves, swapped, first]
        · simp [leaves, swapped, first, second]
  | split axis ratio first second hfirst hsecond =>
      simp [swapTreeLeavesInner, leaves, hfirst, hsecond]

theorem leaves_setLeafShare (id : PaneId) (share : F32) (tree : DwindleTree) :
    (setLeafShare id share tree).leaves = tree.leaves := by
  induction tree with
  | leaf pane => rfl
  | split axis ratio first second hfirst hsecond =>
      unfold setLeafShare
      split_ifs <;> simp [leaves, hfirst, hsecond]

end leaves

section settled

theorem leavesOf_appendMissing (startAxis : SplitAxis) (tree : Option DwindleTree) (id : PaneId) :
    leavesOf (appendMissing startAxis tree id) =
      leavesOf tree ++ if id ∈ leavesOf tree then [] else [id] := by
  unfold appendMissing
  cases tree with
  | none => simp [leavesOf, leaves_appendTiledLeaf]
  | some tree =>
      by_cases present : id ∈ tree.leaves
      · simp [leavesOf, (treeContains_iff tree id).mpr present, present]
      · have absent : treeContains tree id = false := by
          exact Bool.eq_false_iff.mpr ((treeContains_iff tree id).not.mpr present)
        simp [leavesOf, leaves_appendTiledLeaf, absent, present]

/-- The closing loop adds exactly the ids the tree lacked, in pane order. -/
theorem leavesOf_foldl_appendMissing (startAxis : SplitAxis) (ids : List PaneId)
    (distinct : ids.Nodup) (tree : Option DwindleTree) :
    leavesOf (ids.foldl (appendMissing startAxis) tree) =
      leavesOf tree ++ ids.filter (fun id => id ∉ leavesOf tree) := by
  induction ids generalizing tree with
  | nil => simp
  | cons id rest ih =>
      obtain ⟨fresh, distinct⟩ := List.nodup_cons.mp distinct
      rw [List.foldl_cons, ih distinct, leavesOf_appendMissing]
      have later : ∀ other ∈ rest, other ≠ id := fun other member same => fresh (same ▸ member)
      by_cases present : id ∈ leavesOf tree
      · simp [present]
      · rw [List.filter_cons_of_pos (by simpa using present)]
        simp only [present, if_false, List.append_assoc, List.singleton_append,
          List.mem_append, List.mem_singleton]
        congr 2
        apply List.filter_congr
        intro other member
        simp [later other member]

theorem foldl_appendMissing_proper (startAxis : SplitAxis) (ids : List PaneId)
    (tree : Option DwindleTree) (proper : ∀ kept ∈ tree, kept.RatiosProper) :
    ∀ kept ∈ ids.foldl (appendMissing startAxis) tree, kept.RatiosProper := by
  induction ids generalizing tree with
  | nil => exact proper
  | cons id rest ih =>
      rw [List.foldl_cons]
      apply ih
      intro kept member
      unfold appendMissing at member
      split_ifs at member
      · exact proper kept member
      · simp only [Option.mem_def, Option.some.injEq] at member
        exact member ▸ appendTiledLeaf_proper id startAxis proper

/-- The stored leaves that are still tiled, before the tree is completed. -/
def survivingLeaves (tiledIds : List PaneId) (stored : Option DwindleTree) : List PaneId :=
  (leavesOf stored).filter (tiledIds.contains ·)

theorem leavesOf_prunedOrBuilt (tiledIds : List PaneId) (stored : Option DwindleTree)
    (startAxis : SplitAxis) (splitRatios : List F32) :
    leavesOf ((stored.bind (pruneTreeToIds tiledIds)).or
        (buildDwindleTree tiledIds startAxis splitRatios)) =
      if survivingLeaves tiledIds stored = [] then tiledIds
      else survivingLeaves tiledIds stored := by
  have pruned : leavesOf (stored.bind (pruneTreeToIds tiledIds)) =
      survivingLeaves tiledIds stored := by
    cases stored with
    | none => rfl
    | some tree => exact leavesOf_pruneTreeToIds tiledIds tree
  cases kept : stored.bind (pruneTreeToIds tiledIds) with
  | none =>
      rw [kept] at pruned
      rw [← pruned]
      simp only [leavesOf, Option.none_or, if_true]
      exact leavesOf_buildDwindleTreeAt startAxis splitRatios tiledIds 0
  | some tree =>
      rw [kept] at pruned
      have nonempty : survivingLeaves tiledIds stored ≠ [] := pruned ▸ tree.leaves_ne_nil
      simpa [nonempty] using pruned

/-- A settled tree holds the tiled panes of its workspace, each once: first the ones its stored
tree already ordered, then the others in pane order. -/
theorem leavesOf_effectiveTileTree (tiledIds : List PaneId) (distinct : tiledIds.Nodup)
    (stored : Option DwindleTree) (startAxis : SplitAxis) (splitRatios : List F32) :
    leavesOf (effectiveTileTree tiledIds stored startAxis splitRatios none) =
      survivingLeaves tiledIds stored ++
        tiledIds.filter (fun id => id ∉ survivingLeaves tiledIds stored) := by
  have active : tiledIds.filter (fun id => some id != none) = tiledIds :=
    List.filter_eq_self.mpr fun id _ => rfl
  unfold effectiveTileTree
  simp only [active]
  by_cases empty : tiledIds = []
  · subst empty
    simp [leavesOf, survivingLeaves]
  · rw [if_neg (by simpa using empty), leavesOf_foldl_appendMissing startAxis tiledIds distinct,
      leavesOf_prunedOrBuilt]
    by_cases none : survivingLeaves tiledIds stored = []
    · simp [none]
    · simp [none]

theorem effectiveTileTree_perm (tiledIds : List PaneId) (distinct : tiledIds.Nodup)
    (stored : Option DwindleTree) (unique : (leavesOf stored).Nodup) (startAxis : SplitAxis)
    (splitRatios : List F32) :
    (leavesOf (effectiveTileTree tiledIds stored startAxis splitRatios none)).Perm tiledIds := by
  rw [leavesOf_effectiveTileTree tiledIds distinct, List.perm_iff_count]
  intro id
  have once : (survivingLeaves tiledIds stored).Nodup := unique.filter _
  have inside : id ∈ survivingLeaves tiledIds stored → id ∈ tiledIds := by
    intro member
    simpa using (List.mem_filter.mp member).2
  rw [List.count_append]
  by_cases kept : id ∈ survivingLeaves tiledIds stored
  · have absent : id ∉ tiledIds.filter (fun id => id ∉ survivingLeaves tiledIds stored) := by
      simp [kept]
    rw [List.count_eq_one_of_mem once kept, List.count_eq_zero_of_not_mem absent,
      List.count_eq_one_of_mem distinct (inside kept)]
  · rw [List.count_eq_zero_of_not_mem kept, List.count_filter (by simpa using kept), Nat.zero_add]

theorem effectiveTileTree_proper (tiledIds : List PaneId) {stored : Option DwindleTree}
    (proper : ∀ tree ∈ stored, tree.RatiosProper) (startAxis : SplitAxis)
    (splitRatios : List F32) (exclude : Option PaneId) :
    ∀ tree ∈ effectiveTileTree tiledIds stored startAxis splitRatios exclude,
      tree.RatiosProper := by
  intro tree member
  unfold effectiveTileTree at member
  simp only at member
  split_ifs at member
  · simp at member
  · refine foldl_appendMissing_proper _ _ _ ?_ tree member
    intro kept present
    rcases Option.or_eq_some_iff.mp present with pruned | ⟨_, built⟩
    · obtain ⟨base, found, pruned⟩ := Option.bind_eq_some_iff.mp pruned
      exact pruneTreeToIds_proper _ (proper base found) kept pruned
    · exact buildDwindleTreeAt_proper startAxis splitRatios _ 0 kept built

end settled

end Rozi
