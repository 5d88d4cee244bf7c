import Rozi.Layout.Live

/-!
When the tree a workspace settles on is in good order: its splits divide properly and name each pane
once, as far as panes that are tiled are on both of their sides.
-/

namespace Rozi

open SerializedTree

variable {L : Type}

def SerializedTree.RatiosProperWhere (kept : L → Bool) : SerializedTree L → Prop
  | leaf _ => True
  | split _ ratio first second =>
      (first.leaves.any kept = true → second.leaves.any kept = true → ratio.Proper) ∧
        first.RatiosProperWhere kept ∧ second.RatiosProperWhere kept

theorem pruneTreeToIds_isSome (ids : List PaneId) (tree : DwindleTree) :
    (pruneTreeToIds ids tree).isSome = tree.leaves.any (ids.contains ·) := by
  have kept := leavesOf_pruneTreeToIds ids tree
  cases pruned : pruneTreeToIds ids tree with
  | none =>
      rw [pruned] at kept
      have none' : tree.leaves.filter (ids.contains ·) = [] := kept.symm
      rw [List.filter_eq_nil_iff] at none'
      symm
      rw [Option.isSome_none, List.any_eq_false]
      exact none'
  | some tree' =>
      rw [pruned] at kept
      rcases List.exists_mem_of_ne_nil _ tree'.leaves_ne_nil with ⟨id, member⟩
      have member : id ∈ tree.leaves.filter (ids.contains ·) := kept ▸ member
      rcases List.mem_filter.mp member with ⟨listed, live⟩
      symm
      exact List.any_eq_true.mpr ⟨id, listed, live⟩

theorem pruneTreeToIds_proper_iff (ids : List PaneId) (tree : DwindleTree) :
    (∀ kept ∈ pruneTreeToIds ids tree, kept.RatiosProper) ↔
      tree.RatiosProperWhere (ids.contains ·) := by
  induction tree with
  | leaf pane =>
      simp only [pruneTreeToIds, RatiosProperWhere, iff_true]
      intro kept member
      split_ifs at member
      · cases member
        trivial
      · cases member
  | split axis ratio first second hfirst hsecond =>
      have before := pruneTreeToIds_isSome ids first
      have behind := pruneTreeToIds_isSome ids second
      rw [pruneTreeToIds, RatiosProperWhere, ← hfirst, ← hsecond, ← before, ← behind]
      cases pruneTreeToIds ids first <;> cases pruneTreeToIds ids second <;>
        simp [joinSurvivors, RatiosProper]

theorem appendTiledLeafAt_proper_iff (id : PaneId) (startAxis : SplitAxis) (tree : DwindleTree)
    (depth : Nat) : (appendTiledLeafAt id startAxis tree depth).RatiosProper ↔ tree.RatiosProper := by
  induction tree generalizing depth with
  | leaf pane => simp [appendTiledLeafAt, RatiosProper, defaultRatio_proper]
  | split axis ratio first second _ hsecond =>
      rw [appendTiledLeafAt, RatiosProper, RatiosProper, hsecond]

theorem foldl_appendMissing_proper_iff (startAxis : SplitAxis) (ids : List PaneId)
    (tree : Option DwindleTree) :
    (∀ kept ∈ ids.foldl (appendMissing startAxis) tree, kept.RatiosProper) ↔
      ∀ kept ∈ tree, kept.RatiosProper := by
  induction ids generalizing tree with
  | nil => exact Iff.rfl
  | cons id rest ih =>
      rw [List.foldl_cons, ih]
      unfold appendMissing
      split_ifs
      · exact Iff.rfl
      · cases tree with
        | none => simp [appendTiledLeaf, RatiosProper]
        | some tree =>
            simp only [appendTiledLeaf, Option.mem_def, Option.some.injEq, forall_eq']
            exact appendTiledLeafAt_proper_iff id startAxis tree 0

theorem ratiosProperWhere_none {kept : L → Bool} {tree : SerializedTree L}
    (gone : tree.leaves.any kept = false) : tree.RatiosProperWhere kept := by
  induction tree with
  | leaf pane => trivial
  | split axis ratio first second hfirst hsecond =>
      rw [leaves, List.any_append, Bool.or_eq_false_iff] at gone
      refine ⟨?_, hfirst gone.1, hsecond gone.2⟩
      intro some'
      rw [gone.1] at some'
      cases some'

/-- The tree a workspace settles on divides properly if what is left of the stored one does. -/
theorem effectiveTileTree_proper_iff (tiledIds : List PaneId) (stored : Option DwindleTree)
    (startAxis : SplitAxis) (splitRatios : List F32) :
    (∀ tree ∈ effectiveTileTree tiledIds stored startAxis splitRatios none,
      tree.RatiosProper) ↔ ∀ tree ∈ stored, tree.RatiosProperWhere (tiledIds.contains ·) := by
  have active : tiledIds.filter (fun id => some id != none) = tiledIds :=
    List.filter_eq_self.mpr fun id _ => rfl
  unfold effectiveTileTree
  simp only [active]
  by_cases empty : tiledIds = []
  · subst empty
    simp only [List.isEmpty_nil, if_true, Option.mem_def, reduceCtorEq, false_imp_iff,
      implies_true, true_iff]
    intro tree _
    exact ratiosProperWhere_none (by simp)
  · rw [if_neg (by simpa using empty), foldl_appendMissing_proper_iff]
    cases stored with
    | none =>
        simp only [Option.bind_none, Option.none_or, Option.mem_def, reduceCtorEq, false_imp_iff,
          implies_true, iff_true]
        exact buildDwindleTreeAt_proper startAxis splitRatios tiledIds 0
    | some tree =>
        simp only [Option.bind_some, Option.mem_def, Option.some.injEq, forall_eq']
        rw [← pruneTreeToIds_proper_iff]
        cases pruneTreeToIds tiledIds tree with
        | none =>
            simp only [Option.none_or, Option.mem_def, reduceCtorEq, false_imp_iff, implies_true,
              iff_true]
            exact buildDwindleTreeAt_proper startAxis splitRatios tiledIds 0
        | some kept => simp

theorem effectiveTileTree_nodup_iff {tiledIds : List PaneId} (distinct : tiledIds.Nodup)
    (stored : Option DwindleTree) (startAxis : SplitAxis) (splitRatios : List F32) :
    (leavesOf (effectiveTileTree tiledIds stored startAxis splitRatios none)).Nodup ↔
      (survivingLeaves tiledIds stored).Nodup := by
  rw [leavesOf_effectiveTileTree tiledIds distinct, List.nodup_append]
  constructor
  · exact fun unique => unique.1
  · intro unique
    refine ⟨unique, distinct.filter _, ?_⟩
    rintro id kept _ added rfl
    have absent := (List.mem_filter.mp added).2
    simp [kept] at absent

section strict

variable {resolve : L → Option PaneId}

theorem toDwindle_strict {tree : SerializedTree L} {restored : DwindleTree}
    (whole : toDwindle resolve false tree = some restored) :
    restored.leaves.map some = tree.leaves.map resolve ∧
      ∀ kept : PaneId → Bool, restored.RatiosProperWhere kept ↔
        tree.RatiosProperWhere fun leaf => (resolve leaf).any kept := by
  induction tree generalizing restored with
  | leaf pane =>
      rcases Option.map_eq_some_iff.mp whole with ⟨id, found, rfl⟩
      exact ⟨by simp [leaves, found], fun kept => Iff.rfl⟩
  | split axis ratio first second hfirst hsecond =>
      rw [toDwindle] at whole
      cases before : toDwindle resolve false first with
      | none =>
          rw [before] at whole
          cases behind : toDwindle resolve false second <;> rw [behind] at whole <;> cases whole
      | some first' =>
          cases behind : toDwindle resolve false second with
          | none =>
              rw [before, behind] at whole
              cases whole
          | some second' =>
              rw [before, behind] at whole
              cases whole
              rcases hfirst before with ⟨leaves', proper⟩
              rcases hsecond behind with ⟨leaves'', proper'⟩
              refine ⟨?_, fun kept => ?_⟩
              · rw [leaves, leaves, List.map_append, List.map_append, leaves', leaves'']
              · have any : ∀ {part : SerializedTree L} {part' : DwindleTree},
                    part'.leaves.map some = part.leaves.map resolve →
                    part'.leaves.any kept = part.leaves.any fun leaf => (resolve leaf).any kept := by
                  intro part part' same
                  have whole := congrArg (fun ids => ids.any fun id => Option.any kept id) same
                  simpa [List.any_map, Function.comp_def] using whole
                rw [RatiosProperWhere, RatiosProperWhere, proper, proper', any leaves',
                  any leaves'']

theorem toDwindle_strict_isSome (tree : SerializedTree L) :
    (toDwindle resolve false tree).isSome ↔ ∀ leaf ∈ tree.leaves, (resolve leaf).isSome := by
  induction tree with
  | leaf pane => simp [toDwindle, leaves]
  | split axis ratio first second hfirst hsecond =>
      rw [toDwindle, leaves]
      cases before : toDwindle resolve false first <;>
        cases behind : toDwindle resolve false second <;>
        simp only [before, behind, Option.isSome_none, Option.isSome_some, Bool.false_eq_true,
          false_iff, true_iff, if_false] at hfirst hsecond ⊢
      · exact fun all => hfirst fun leaf member => all leaf (List.mem_append_left _ member)
      · exact fun all => hfirst fun leaf member => all leaf (List.mem_append_left _ member)
      · exact fun all => hsecond fun leaf member => all leaf (List.mem_append_right _ member)
      · intro leaf member
        exact (List.mem_append.mp member).elim (hfirst leaf) (hsecond leaf)

end strict

end Rozi
