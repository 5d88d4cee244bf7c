import Rozi.State.SidebarListing

/-!
The lines of a section account for its rows: block by block, a row with what is listed beneath it and
the siblings one after another.
-/

namespace Rozi

section blocks

variable {B : Type} (tab : String) (expansion : TreeExpansionKey → Option Bool) (tree : TreeSection)

structure RowBlock (row : TreeRow) (items : List (TreeItem B)) : Prop where
  head : ∃ below, rowsOf items = row :: below
  listed : ∀ other, other ∈ rowsOf items ↔
    Listed tab expansion tree other ∧ (other = row ∨ Beneath tree.rows other row)
  once : (rowsOf items).Nodup
  placed : ∀ other ancestors parent, Rooted tree.rows other (ancestors ++ [parent]) →
    other ∈ rowsOf items → other ≠ row →
    Placed tab expansion tree (rowsOf items) (some parent) other
  faithful : ∀ line ∈ linesOf items, Faithful tab expansion tree line

structure SiblingsBlock (kids : List TreeRow) (items : List (TreeItem B)) : Prop where
  listed : ∀ other, other ∈ rowsOf items ↔ Listed tab expansion tree other ∧
    ∃ kid ∈ kids, other = kid ∨ Beneath tree.rows other kid
  once : (rowsOf items).Nodup
  first : ∀ kid ∈ kids, Placed tab expansion tree (rowsOf items) none kid
  placed : ∀ other ancestors parent, Rooted tree.rows other (ancestors ++ [parent]) →
    other ∈ rowsOf items → other ∉ kids →
    Placed tab expansion tree (rowsOf items) (some parent) other
  faithful : ∀ line ∈ linesOf items, Faithful tab expansion tree line

variable {tab expansion tree}

theorem Placed.inside {listing front back : List TreeRow} {row parent : TreeRow}
    (placed : Placed tab expansion tree listing (some parent) row) :
    Placed tab expansion tree (front ++ listing ++ back) (some parent) row := by
  rcases placed with ⟨before, between, after, rfl, last, earlier⟩
  refine ⟨front ++ before, between, after ++ back, by simp, ?_, earlier⟩
  rw [List.getLast?_append, last]
  rfl

variable (unique : (tree.rows.map TreeRow.id).Nodup)
include unique

theorem reaches {row parent : TreeRow} {ancestors others : List TreeRow}
    (within : row = parent ∨ Beneath tree.rows row parent)
    (above : Rooted tree.rows parent ancestors) (rooted : Rooted tree.rows row others) :
    ∃ rest, others ++ [row] = ancestors ++ parent :: rest := by
  rcases within with rfl | beneath
  · rw [rooted.determined unique above]
    exact ⟨[], rfl⟩
  · rcases beneath.ancestors_eq unique above rooted with ⟨rest, rfl⟩
    exact ⟨rest ++ [row], by simp⟩

/-- No row is beneath two siblings, or one of them and beneath the other. -/
theorem siblings_apart {row first second : TreeRow} {ancestors others : List TreeRow}
    (one : Rooted tree.rows first ancestors) (two : Rooted tree.rows second ancestors)
    (rooted : Rooted tree.rows row others)
    (left : row = first ∨ Beneath tree.rows row first)
    (right : row = second ∨ Beneath tree.rows row second) : first = second := by
  rcases reaches unique left one rooted with ⟨rest, split⟩
  rcases reaches unique right two rooted with ⟨again, same⟩
  rw [split] at same
  exact (List.cons.inj (List.append_cancel_left same)).1

section siblings

variable {α : Type} {name : α → TreeRow} {test : TreeRow → Bool} {ancestors : List TreeRow}
  (siblings : ∀ row, row ∈ tree.rows.filter test ↔ Rooted tree.rows row ancestors)
include siblings

theorem mem_front_iff {front back : List TreeRow} {kid sibling : TreeRow}
    (kids : front ++ kid :: back = tree.rows.filter test) :
    sibling ∈ front ↔ Earlier tree sibling kid := by
  have distinct : (front ++ kid :: back).Nodup := by
    rw [kids]
    exact unique.of_map.filter _
  have rooted : Rooted tree.rows kid ancestors := by
    rw [← siblings, ← kids]
    simp
  rw [← before_iff distinct, kids]
  constructor
  · intro before
    have listed : sibling ∈ tree.rows.filter test := before.subset (by simp)
    exact ⟨ancestors, (siblings sibling).mp listed, rooted, before.trans List.filter_sublist⟩
  · rintro ⟨others, one, two, before⟩
    obtain rfl := two.determined unique rooted
    have first : test sibling = true := List.of_mem_filter ((siblings sibling).mpr one)
    have second : test kid = true := List.of_mem_filter ((siblings kid).mpr two)
    have kept := before.filter test
    rw [List.filter_cons_of_pos first, List.filter_cons_of_pos second, List.filter_nil] at kept
    exact kept

theorem siblings_block {items : List α} {result : α → List (TreeItem B)}
    (kids : items.map name = tree.rows.filter test)
    (each : ∀ item ∈ items, RowBlock tab expansion tree (name item) (result item)) :
    SiblingsBlock tab expansion tree (items.map name) (items.flatMap result) := by
  have rooted : ∀ item ∈ items, Rooted tree.rows (name item) ancestors := by
    intro item member
    rw [← siblings, ← kids]
    exact List.mem_map_of_mem member
  have distinct : (items.map name).Nodup := by
    rw [kids]
    exact unique.of_map.filter _
  have listed : ∀ part ⊆ items, ∀ other, other ∈ rowsOf (part.flatMap result) ↔
      Listed tab expansion tree other ∧
        ∃ kid ∈ part.map name, other = kid ∨ Beneath tree.rows other kid := by
    intro part within other
    rw [rowsOf_flatMap, List.mem_flatMap]
    constructor
    · rintro ⟨item, member, shown⟩
      rcases ((each item (within member)).listed other).mp shown with ⟨listed, beneath⟩
      exact ⟨listed, name item, List.mem_map_of_mem member, beneath⟩
    · rintro ⟨listed, kid, member, beneath⟩
      rcases List.mem_map.mp member with ⟨item, inside, rfl⟩
      exact ⟨item, inside, ((each item (within inside)).listed other).mpr ⟨listed, beneath⟩⟩
  refine ⟨listed items (fun _ member => member), ?_, ?_, ?_, ?_⟩
  · rw [rowsOf_flatMap, List.nodup_flatMap]
    refine ⟨fun item member => (each item member).once, ?_⟩
    refine (List.pairwise_map.mp distinct).imp_of_mem fun {one two} first second different => ?_
    intro other left right
    rcases ((each one first).listed other).mp left with ⟨⟨_, known, _⟩, here⟩
    have there := (((each two second).listed other).mp right).2
    exact different (siblings_apart unique (rooted one first) (rooted two second) known here there)
  · intro kid member
    rcases List.mem_map.mp member with ⟨item, inside, rfl⟩
    rcases List.append_of_mem inside with ⟨front, back, rfl⟩
    rcases (each item inside).head with ⟨below, head⟩
    refine ⟨[], rowsOf (front.flatMap result), below ++ rowsOf (back.flatMap result), ?_, rfl, ?_⟩
    · rw [List.flatMap_append, List.flatMap_cons, rowsOf_append, rowsOf_append, head]
      rfl
    · intro other
      rw [listed front (List.subset_append_left _ _)]
      refine and_congr_right fun _ => exists_congr fun sibling => and_congr_left fun _ => ?_
      rw [List.map_append, List.map_cons] at kids
      exact mem_front_iff unique siblings kids
  · intro other others parent under shown outside
    rw [rowsOf_flatMap, List.mem_flatMap] at shown
    rcases shown with ⟨item, member, shown⟩
    have deeper : other ≠ name item := by
      rintro rfl
      exact outside (List.mem_map_of_mem member)
    have placed := (each item member).placed other others parent under shown deeper
    rcases List.append_of_mem member with ⟨front, back, rfl⟩
    rw [List.flatMap_append, List.flatMap_cons, rowsOf_append, rowsOf_append, ← List.append_assoc]
    exact placed.inside
  · intro line shown
    rw [linesOf_flatMap, List.mem_flatMap] at shown
    rcases shown with ⟨item, member, shown⟩
    exact (each item member).faithful line shown

end siblings

theorem mem_children_iff {row other : TreeRow} {ancestors : List TreeRow}
    (above : Rooted tree.rows row ancestors) :
    other ∈ children tree.rows row.id ↔ Rooted tree.rows other (ancestors ++ [row]) := by
  refine ⟨above.of_children, fun rooted => ?_⟩
  rcases rooted.through (List.mem_append_right _ List.mem_cons_self) with ⟨kid, below, same | deeper⟩
  · rw [same]
    exact below
  · rcases deeper.ancestors_eq unique (above.of_children below) rooted with ⟨rest, split⟩
    have length := congrArg List.length split
    simp at length

/-- Nothing beneath a row is listed unless it is expanded and above the greatest depth. -/
theorem Listed.above {row other : TreeRow} {ancestors : List TreeRow}
    (listed : Listed tab expansion tree other) (beneath : Beneath tree.rows other row)
    (above : Rooted tree.rows row ancestors) :
    isExpanded tab expansion tree row ancestors.length = true ∧ ancestors.length < maxDepth := by
  rcases listed with ⟨others, rooted, opened, short⟩
  rcases beneath.ancestors_eq unique above rooted with ⟨rest, rfl⟩
  refine ⟨opened ancestors.length row (by simp), ?_⟩
  rw [List.length_append, List.length_cons] at short
  omega

omit unique in
theorem leaf_block {row : TreeRow} {items : List (TreeItem B)}
    (listed : Listed tab expansion tree row)
    (lone : ∀ other, Listed tab expansion tree other → ¬ Beneath tree.rows other row)
    (shown : rowsOf items = [row]) (faithful : ∀ line ∈ linesOf items, Faithful tab expansion tree line) :
    RowBlock tab expansion tree row items := by
  refine ⟨⟨[], shown⟩, ?_, ?_, ?_, faithful⟩
  · intro other
    rw [shown, List.mem_singleton]
    constructor
    · rintro rfl
      exact ⟨listed, .inl rfl⟩
    · rintro ⟨present, same | beneath⟩
      · exact same
      · exact absurd beneath (lone other present)
  · rw [shown]
    exact List.nodup_singleton _
  · intro other ancestors parent under member different
    rw [shown, List.mem_singleton] at member
    exact absurd member different

theorem parent_block {row : TreeRow} {ancestors : List TreeRow} {items below : List (TreeItem B)}
    (above : Rooted tree.rows row ancestors) (listed : Listed tab expansion tree row)
    (kids : SiblingsBlock tab expansion tree (children tree.rows row.id) below)
    (shown : rowsOf items = row :: rowsOf below)
    (faithful : ∀ line ∈ linesOf items, Faithful tab expansion tree line) :
    RowBlock tab expansion tree row items := by
  refine ⟨⟨_, shown⟩, ?_, ?_, ?_, faithful⟩
  · intro other
    rw [shown, List.mem_cons, kids.listed, ← beneath_iff unique above]
    constructor
    · rintro (rfl | ⟨present, beneath⟩)
      · exact ⟨listed, .inl rfl⟩
      · exact ⟨present, .inr beneath⟩
    · rintro ⟨present, same | beneath⟩
      · exact .inl same
      · exact .inr ⟨present, beneath⟩
  · rw [shown, List.nodup_cons, kids.listed, ← beneath_iff unique above]
    refine ⟨?_, kids.once⟩
    rintro ⟨_, own⟩
    rcases own.ancestors_eq unique above above with ⟨rest, split⟩
    have length := congrArg List.length split
    simp at length
  · intro other others parent under member different
    rw [shown, List.mem_cons] at member
    rcases member with same | member
    · exact absurd same different
    rw [shown]
    by_cases child : other ∈ children tree.rows row.id
    · rcases kids.first other child with ⟨front, between, back, split, start, earlier⟩
      obtain rfl := List.getLast?_eq_none_iff.mp start
      have known := under.determined unique (above.of_children child)
      obtain rfl := List.singleton_inj.mp (List.append_inj_right' known rfl)
      exact ⟨[parent], between, back, by rw [split]; rfl, rfl, earlier⟩
    · have deeper : Placed tab expansion tree ([row] ++ rowsOf below ++ []) (some parent) other :=
        (kids.placed other others parent under member child).inside
      simpa using deeper

theorem hiddenContent_found {row : TreeRow} {ancestors : List TreeRow} {fuel : Nat}
    (expanded : Bool) (above : Rooted tree.rows row ancestors)
    (enough : tree.rows.length ≤ fuel + (ancestors.length + 1)) :
    ∃ hidden, hiddenContent tree.rows fuel (children tree.rows row.id) expanded = some hidden ∧
      (expanded = false → (∃ below, Beneath tree.rows below row) →
        HidesBeneath tree hidden.1 hidden.2 row) := by
  rw [hiddenContent]
  split
  · rename_i nothing
    refine ⟨_, rfl, ?_⟩
    rintro rfl ⟨below, beneath⟩
    rcases (beneath_iff unique above).mp beneath with ⟨kid, member, _⟩
    rw [Bool.false_or, List.isEmpty_iff] at nothing
    rw [nothing] at member
    cases member
  · have deeper : tree.rows.length ≤ fuel + (ancestors ++ [row]).length := by
      rw [List.length_append, List.length_singleton]
      exact enough
    rcases descendants_found unique (fun kid member => above.of_children member) deeper with
      ⟨found, same, all⟩
    refine ⟨_, by rw [same]; rfl, ?_⟩
    rintro - ⟨below, beneath⟩
    have within : ∀ other, other ∈ found ↔ Beneath tree.rows other row := by
      intro other
      rw [all, beneath_iff unique above]
    have tones : found.map (·.content.tone) ≠ [] := by
      have member := (within below).mpr beneath
      rw [Ne, List.map_eq_nil_iff]
      exact List.ne_nil_of_mem member
    rcases SidebarTone.mostUrgent_first tones with ⟨worst, least⟩
    refine ⟨⟨_, rfl, ?_, ?_⟩, ?_⟩
    · rcases List.mem_map.mp worst with ⟨other, member, tone⟩
      exact ⟨other, (within other).mp member, tone⟩
    · intro other deeper
      exact least _ (List.mem_map_of_mem ((within other).mpr deeper))
    · rw [List.any_eq_true]
      exact exists_congr fun other => and_congr_left fun _ => within other

theorem pushRow_block {branches : TreeBranches B} {fuel : Nat} {row : TreeRow} {branch : B}
    {ancestors : List TreeRow} (above : Rooted tree.rows row ancestors)
    (opened : Open tab expansion tree ancestors) (level : branches.depth branch = ancestors.length)
    (short : ancestors.length ≤ maxDepth)
    (enough : tree.rows.length + maxDepth < fuel + ancestors.length) :
    ∃ items, pushRow branches tab expansion tree fuel row branch = some items ∧
      RowBlock tab expansion tree row items := by
  induction fuel generalizing row branch ancestors with
  | zero => omega
  | succ fuel ih =>
      have listed : Listed tab expansion tree row := ⟨ancestors, above, opened, short⟩
      have left : tree.rows.length ≤ fuel + (ancestors.length + 1) := by omega
      rcases hiddenContent_found unique (isExpanded tab expansion tree row ancestors.length) above
        left with ⟨hidden, found, hides⟩
      rw [pushRow]
      simp only [level, found, Option.bind_eq_bind, Option.bind_some, Option.pure_def]
      have own : Faithful tab expansion tree ({
          row
          key := expansionKey tab tree row
          branch
          expandable := isExpandable tree row ancestors.length
          expanded := isExpanded tab expansion tree row ancestors.length
          heading := isHeading row ancestors.length
          hiddenTone := hidden.1
          hiddenActive := hidden.2 } : TreeLine B) := ⟨ancestors, above, rfl, hides⟩
      split
      · rename_i stop
        refine ⟨_, rfl, leaf_block listed ?_ rfl (List.forall_mem_singleton.mpr own)⟩
        intro other present beneath
        rcases present.above unique beneath above with ⟨expanded, higher⟩
        rw [expanded, Bool.not_true, Bool.false_or, decide_eq_true_eq] at stop
        omega
      · rename_i further
        have higher : ancestors.length < maxDepth := by
          by_contra deep
          rw [decide_eq_true (Nat.not_lt.mp deep), Bool.or_true] at further
          exact further rfl
        have expanded : isExpanded tab expansion tree row ancestors.length = true := by
          by_contra folded
          rw [Bool.not_eq_true] at folded
          rw [folded, Bool.not_false, Bool.true_or] at further
          exact further rfl
        split
        · rename_i childless
          refine ⟨_, rfl, leaf_block listed ?_ ?_ ?_⟩
          · intro other _ beneath
            rcases (beneath_iff unique above).mp beneath with ⟨kid, member, _⟩
            rw [List.isEmpty_iff.mp childless] at member
            cases member
          · split <;> rfl
          · split <;> exact List.forall_mem_singleton.mpr own
        · have each : ∀ child ∈ (children tree.rows row.id).zipIdx, ∃ items,
              pushRow branches tab expansion tree fuel child.1
                (branches.child branch (child.2 + 1 == (children tree.rows row.id).length)) =
                  some items ∧ RowBlock tab expansion tree child.1 items := by
            intro child member
            have kid : child.1 ∈ children tree.rows row.id := List.fst_mem_of_mem_zipIdx member
            refine ih (above.of_children kid) (open_concat.mpr ⟨opened, expanded⟩) ?_ ?_ ?_
            · rw [branches.depth_child, level, List.length_append, List.length_singleton]
            · rw [List.length_append, List.length_singleton]
              omega
            · rw [List.length_append, List.length_singleton]
              omega
          rcases exists_gather each with ⟨result, same, _, blocks⟩
          rw [same]
          have kids : SiblingsBlock tab expansion tree
              ((children tree.rows row.id).zipIdx.map Prod.fst)
              ((children tree.rows row.id).zipIdx.flatMap result) :=
            siblings_block unique (fun _ => mem_children_iff unique above)
              (List.zipIdx_map_fst 0 _) blocks
          rw [List.zipIdx_map_fst] at kids
          refine ⟨_, rfl, parent_block unique above listed kids rfl ?_⟩
          intro line shown
          rw [linesOf_cons_row, List.mem_cons] at shown
          rcases shown with rfl | deeper
          · exact own
          · exact kids.faithful line deeper

end blocks

end Rozi
