import Rozi.State.SidebarFlatten
import Mathlib.Algebra.Order.BigOperators.Group.List
import Mathlib.Algebra.Order.Group.Nat

/-!
Every row of the sidebar is listed once or accounted for, in all of its sections and whatever the rows
name as their parents.
-/

namespace Rozi

section fuel

variable {α β : Type}

theorem gather_more {less more : α → Option (List β)} {items : List α} {result : List β}
    (each : ∀ item ∈ items, ∀ found, less item = some found → more item = some found)
    (found : gather less items = some result) : gather more items = some result := by
  induction items generalizing result with
  | nil => exact found
  | cons item rest ih =>
      rw [gather] at found ⊢
      rcases Option.bind_eq_some_iff.mp found with ⟨here, first, found⟩
      rcases Option.bind_eq_some_iff.mp found with ⟨later, others, same⟩
      rw [each item List.mem_cons_self here first,
        ih (fun other member => each other (List.mem_cons_of_mem _ member)) others]
      exact same

theorem descendants_more {rows kids found : List TreeRow} {fuel : Nat}
    (all : descendants rows fuel kids = some found) :
    descendants rows (fuel + 1) kids = some found := by
  induction fuel generalizing kids found with
  | zero =>
      cases kids with
      | nil => exact all
      | cons => cases all
  | succ fuel ih =>
      rw [descendants] at all ⊢
      refine gather_more (fun kid _ here same => ?_) all
      rcases Option.map_eq_some_iff.mp same with ⟨below, deeper, rfl⟩
      rw [ih deeper]
      rfl

theorem hiddenContent_more {rows kids : List TreeRow} {fuel : Nat} {expanded : Bool}
    {hidden : Option SidebarTone × Bool}
    (found : hiddenContent rows fuel kids expanded = some hidden) :
    hiddenContent rows (fuel + 1) kids expanded = some hidden := by
  rw [hiddenContent] at found ⊢
  split
  · rename_i nothing
    rw [if_pos nothing] at found
    exact found
  · rename_i folded
    rw [if_neg folded] at found
    rcases Option.bind_eq_some_iff.mp found with ⟨below, all, same⟩
    rw [descendants_more all]
    exact same

variable {B : Type} {branches : TreeBranches B} {tab : String}
  {expansion : TreeExpansionKey → Option Bool} {tree : TreeSection} {fuel : Nat}

theorem pushRow_more {row : TreeRow} {branch : B} {items : List (TreeItem B)}
    (pushed : pushRow branches tab expansion tree fuel row branch = some items) :
    pushRow branches tab expansion tree (fuel + 1) row branch = some items := by
  induction fuel generalizing row branch items with
  | zero => cases pushed
  | succ fuel ih =>
      rw [pushRow] at pushed ⊢
      rcases Option.bind_eq_some_iff.mp pushed with ⟨hidden, found, pushed⟩
      refine Option.bind_eq_some_iff.mpr ⟨hidden, hiddenContent_more found, ?_⟩
      split
      · rename_i stop
        rw [if_pos stop] at pushed
        exact pushed
      · rename_i further
        rw [if_neg further] at pushed
        split
        · rename_i childless
          rw [if_pos childless] at pushed
          exact pushed
        · rename_i parent
          rw [if_neg parent] at pushed
          rcases Option.bind_eq_some_iff.mp pushed with ⟨below, each, same⟩
          refine Option.bind_eq_some_iff.mpr ⟨below, ?_, same⟩
          exact gather_more (fun _ _ _ found => ih found) each

theorem pushSection_more {items : List (TreeItem B)}
    (pushed : pushSection branches tab expansion tree fuel = some items) :
    pushSection branches tab expansion tree (fuel + 1) = some items :=
  gather_more (fun _ _ _ found => pushRow_more found) pushed

theorem flattenFrom_more {sections : List TreeSection} {shown items : List (TreeItem B)}
    (flat : flattenFrom branches tab expansion fuel shown sections = some items) :
    flattenFrom branches tab expansion (fuel + 1) shown sections = some items := by
  induction sections generalizing shown with
  | nil => exact flat
  | cons tree rest ih =>
      rw [flattenFrom] at flat ⊢
      split
      · rename_i empty
        rw [if_pos empty] at flat
        exact ih flat
      · rename_i present
        rw [if_neg present] at flat
        rcases Option.bind_eq_some_iff.mp flat with ⟨rows, pushed, later⟩
        exact Option.bind_eq_some_iff.mpr ⟨rows, pushSection_more pushed, ih later⟩

theorem flatten_more {sections : List TreeSection} {items : List (TreeItem B)} {more : Nat}
    (flat : flatten branches tab expansion fuel sections = some items) (enough : fuel ≤ more) :
    flatten branches tab expansion more sections = some items := by
  induction enough with
  | refl => exact flat
  | step _ ih => exact flattenFrom_more ih

end fuel

section account

variable (tab : String) (expansion : TreeExpansionKey → Option Bool) (tree : TreeSection)

structure Accounts {B : Type} (lines : List (TreeLine B)) : Prop where
  listed : ∀ row, row ∈ lines.map (·.row) ↔ Listed tab expansion tree row
  once : (lines.map (·.row)).Nodup
  placed : ∀ row ancestors, Rooted tree.rows row ancestors → Listed tab expansion tree row →
    Placed tab expansion tree (lines.map (·.row)) ancestors.getLast? row
  expanded : ∀ line ∈ lines, ∃ ancestors, Rooted tree.rows line.row ancestors ∧
    line.expanded = isExpanded tab expansion tree line.row ancestors.length
  folded : ∀ row ancestors, Rooted tree.rows row ancestors → ¬ Listed tab expansion tree row →
    ¬ (maxDepth < ancestors.length ∧
      Open tab expansion tree (ancestors.take (maxDepth + 1))) →
    ∃ line ∈ lines, line.row ∈ ancestors ∧ line.expanded = false ∧
      HidesBeneath tree line.hiddenTone line.hiddenActive line.row ∧
      ∀ other ∈ lines, other.row ∈ ancestors → other.expanded = false → other = line

variable {tab expansion tree}

/-- Above a row that is not listed, and not only too deep, there is a first ancestor not expanded. -/
theorem first_folded {row : TreeRow} {ancestors : List TreeRow}
    (rooted : Rooted tree.rows row ancestors) (missing : ¬ Listed tab expansion tree row)
    (within : ¬ (maxDepth < ancestors.length ∧
      Open tab expansion tree (ancestors.take (maxDepth + 1)))) :
    ∃ front folded back, ancestors = front ++ folded :: back ∧ front.length ≤ maxDepth ∧
      Open tab expansion tree front ∧
      isExpanded tab expansion tree folded front.length = false := by
  have divided : Open tab expansion tree ancestors ∨ ∃ front folded back,
      ancestors = front ++ folded :: back ∧ Open tab expansion tree front ∧
        isExpanded tab expansion tree folded front.length = false := open_or_folded
  rcases divided with opened | ⟨front, folded, back, rfl, opened, closed⟩
  · rcases Nat.lt_or_ge maxDepth ancestors.length with deep | short
    · rw [← List.take_append_drop (maxDepth + 1) ancestors] at opened
      exact absurd ⟨deep, open_of_append opened⟩ within
    · exact absurd ⟨ancestors, rooted, opened, short⟩ missing
  · refine ⟨front, folded, back, rfl, ?_, opened, closed⟩
    by_contra deep
    refine within ⟨by rw [List.length_append]; omega, ?_⟩
    rw [List.take_append_of_le_length (by omega)]
    rw [← List.take_append_drop (maxDepth + 1) front] at opened
    exact open_of_append opened

variable (unique : (tree.rows.map TreeRow.id).Nodup)
include unique

theorem pushSection_accounts {B : Type} {branches : TreeBranches B} {fuel : Nat}
    (enough : tree.rows.length + maxDepth < fuel) :
    ∃ items, pushSection branches tab expansion tree fuel = some items ∧
      Accounts tab expansion tree (linesOf items) := by
  have each : ∀ row ∈ roots tree.rows, ∃ items,
      pushRow branches tab expansion tree fuel row branches.root = some items ∧
        RowBlock tab expansion tree row items := fun row member =>
    pushRow_block unique (mem_roots.mp member) open_nil branches.depth_root (Nat.zero_le _)
      (by simpa using enough)
  rcases exists_gather each with ⟨result, same, _, blocks⟩
  have block : SiblingsBlock tab expansion tree ((roots tree.rows).map fun row => row)
      ((roots tree.rows).flatMap result) :=
    siblings_block unique (fun _ => mem_roots) (List.map_id _) blocks
  rw [List.map_id'] at block
  refine ⟨_, same, ?_⟩
  generalize (roots tree.rows).flatMap result = items at block
  have present : ∀ row, row ∈ rowsOf items ↔ Listed tab expansion tree row := by
    intro row
    rw [block.listed]
    refine and_iff_left_of_imp ?_
    rintro ⟨ancestors, rooted, _, _⟩
    cases ancestors with
    | nil => exact ⟨row, mem_roots.mpr rooted, .inl rfl⟩
    | cons top rest =>
        have above : Rooted tree.rows top [] := by
          rw [← List.nil_append (top :: rest)] at rooted
          exact rooted.above
        exact ⟨top, mem_roots.mpr above, .inr ⟨_, rooted, List.mem_cons_self⟩⟩
  refine ⟨present, block.once, ?_, ?_, ?_⟩
  · intro row ancestors rooted listed
    rcases List.eq_nil_or_concat ancestors with rfl | ⟨others, parent, rfl⟩
    · exact block.first row (mem_roots.mpr rooted)
    · rw [List.concat_eq_append] at rooted ⊢
      rw [List.getLast?_append, List.getLast?_singleton, Option.some_or]
      refine block.placed row others parent rooted ((present row).mpr listed) fun top => ?_
      have length := congrArg List.length ((mem_roots.mp top).determined unique rooted)
      simp at length
  · intro line shown
    rcases block.faithful line shown with ⟨ancestors, rooted, expanded, _⟩
    exact ⟨ancestors, rooted, expanded⟩
  · intro row ancestors rooted missing within
    rcases first_folded rooted missing within with ⟨front, folded, back, rfl, short, opened, closed⟩
    have above := rooted.above
    have listed : Listed tab expansion tree folded := ⟨front, above, opened, short⟩
    rcases List.mem_map.mp ((present folded).mpr listed) with ⟨line, shown, rfl⟩
    rcases block.faithful line shown with ⟨others, known, expanded, hides⟩
    obtain rfl := known.determined unique above
    have shut : line.expanded = false := expanded.trans closed
    refine ⟨line, shown, by simp, shut, hides shut ⟨row, _, rooted, by simp⟩, ?_⟩
    intro other member among shutToo
    refine List.inj_on_of_nodup_map block.once member shown ?_
    rcases List.append_of_mem among with ⟨before, after, split⟩
    rcases block.faithful other member with ⟨way, up, expandedToo, _⟩
    have place : Rooted tree.rows other.row before := by
      rw [split] at rooted
      exact rooted.above
    obtain rfl := up.determined unique place
    rw [expandedToo] at shutToo
    rcases (present other.row).mp (List.mem_map_of_mem member) with ⟨again, upToo, openedToo, _⟩
    obtain rfl := upToo.determined unique place
    -- whichever is deeper has the other among its ancestors, which are all expanded
    rcases Nat.lt_trichotomy again.length others.length with higher | level | lower
    · have passed : others[again.length]? = some other.row := by
        have within : (others ++ line.row :: back)[again.length]? = others[again.length]? :=
          List.getElem?_append_left higher
        rw [← within, split]
        simp
      rw [opened _ _ passed] at shutToo
      cases shutToo
    · exact (List.cons.inj (List.append_inj split level.symm).2).1.symm
    · have passed : again[others.length]? = some line.row := by
        have within : (again ++ other.row :: after)[others.length]? = again[others.length]? :=
          List.getElem?_append_left lower
        rw [← within, ← split]
        simp
      rw [openedToo _ _ passed] at closed
      cases closed

end account

section sections

variable {B : Type} {branches : TreeBranches B} {tab : String}
  {expansion : TreeExpansionKey → Option Bool} {fuel : Nat}

theorem flattenFrom_lines {sections : List TreeSection} {result : TreeSection → List (TreeItem B)}
    (each : ∀ tree ∈ sections, pushSection branches tab expansion tree fuel = some (result tree))
    (shown : List (TreeItem B)) :
    ∃ items, flattenFrom branches tab expansion fuel shown sections = some items ∧
      linesOf items = linesOf shown ++ sections.flatMap fun tree => linesOf (result tree) := by
  induction sections generalizing shown with
  | nil => exact ⟨shown, rfl, by simp⟩
  | cons tree rest ih =>
      have later := ih fun other member => each other (List.mem_cons_of_mem _ member)
      have own := each tree List.mem_cons_self
      rw [flattenFrom]
      split
      · rename_i empty
        have nothing : result tree = [] := by
          rw [pushSection, List.isEmpty_iff.mp empty] at own
          exact (Option.some.inj own).symm
        rcases later shown with ⟨items, same, lines⟩
        refine ⟨items, same, ?_⟩
        rw [lines, List.flatMap_cons, nothing]
        rfl
      · rw [own]
        rcases later (shown ++ (if shown.isEmpty then [] else [.spacer]) ++
          (tree.header.map TreeItem.header).toList ++ result tree) with ⟨items, same, lines⟩
        refine ⟨items, same, ?_⟩
        have spacer : linesOf (if shown.isEmpty then [] else [TreeItem.spacer (B := B)]) = [] := by
          split <;> rfl
        have header : linesOf (tree.header.map (TreeItem.header (B := B))).toList = [] := by
          cases tree.header <;> rfl
        rw [lines, linesOf_append, linesOf_append, linesOf_append, spacer, header, List.append_nil,
          List.append_nil, List.append_assoc, List.flatMap_cons]

end sections

/-- The sidebar's lines end, and are those of the sections in order, each of which lists every row once
or accounts for it. -/
theorem flatten_accounts {B : Type} (branches : TreeBranches B) (tab : String)
    (expansion : TreeExpansionKey → Option Bool) (sections : List TreeSection)
    (unique : ∀ tree ∈ sections, (tree.rows.map TreeRow.id).Nodup) :
    ∃ (enough : Nat) (items : List (TreeItem B)) (lines : TreeSection → List (TreeLine B)),
      (∀ fuel, enough ≤ fuel → flatten branches tab expansion fuel sections = some items) ∧
      linesOf items = sections.flatMap lines ∧
      ∀ tree ∈ sections, Accounts tab expansion tree (lines tree) := by
  have bound : ∀ tree ∈ sections, tree.rows.length ≤ (sections.map (·.rows.length)).sum := by
    intro tree member
    exact List.le_sum_of_mem (List.mem_map.mpr ⟨tree, member, rfl⟩)
  have each : ∀ tree ∈ sections, ∃ items, pushSection branches tab expansion tree
      ((sections.map (·.rows.length)).sum + maxDepth + 1) = some items ∧
        Accounts tab expansion tree (linesOf items) := by
    intro tree member
    have fits := bound tree member
    exact pushSection_accounts (unique tree member) (by omega)
  rcases exists_gather each with ⟨result, _, pushed, accounts⟩
  rcases flattenFrom_lines pushed [] with ⟨items, flat, lines⟩
  exact ⟨_, items, fun tree => linesOf (result tree), fun fuel enough => flatten_more flat enough,
    lines, accounts⟩

def guides : TreeBranches (List Bool) where
  root := []
  child branch last := last :: branch
  depth := List.length
  depth_root := rfl
  depth_child _ _ := rfl

def projectRows : List SidebarRowSpec :=
  [{ id := "repo", label := "repo" },
    { id := "session", parent := some "repo", label := "session", tone := .error },
    { id := "x", parent := some "y", label := "x" },
    { id := "y", parent := some "x", label := "y" }]

def projectSection : TreeSection where
  key := "local"
  rows := (sanitizeRows (fun text => text) projectRows).map .fromSpec

example : (flatten guides "projects" (fun _ => some false) 20 [projectSection]).map
    (fun items => (linesOf items).map fun line => (line.row.id, line.hiddenTone)) =
      some [("repo", some .error)] := by
  decide +kernel

theorem flatten_accounts_project :
    ∃ (enough : Nat) (items : List (TreeItem (List Bool)))
      (lines : TreeSection → List (TreeLine (List Bool))),
      (∀ fuel, enough ≤ fuel →
        flatten guides "projects" (fun _ => some false) fuel [projectSection] = some items) ∧
      linesOf items = [projectSection].flatMap lines ∧
      ∀ tree ∈ [projectSection], Accounts "projects" (fun _ => some false) tree (lines tree) :=
  flatten_accounts guides "projects" (fun _ => some false) [projectSection]
    (List.forall_mem_singleton.mpr (sanitizeRows_unique _ projectRows))

end Rozi
