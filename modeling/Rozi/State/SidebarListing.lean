import Rozi.State.SidebarForest
import Mathlib.Data.List.Induction

/-!
Which rows of a section the sidebar lists, where each stands among the others, and what a folded one
says of those it hides.
-/

namespace Rozi

section order

variable {α : Type} {first second : α} {front back : List α}

/-- In a list without duplicates, what comes before an item is the front that it ends. -/
theorem before_iff (distinct : (front ++ second :: back).Nodup) :
    [first, second].Sublist (front ++ second :: back) ↔ first ∈ front := by
  induction front with
  | nil =>
      have absent : second ∉ back := (List.nodup_cons.mp distinct).1
      refine ⟨fun before => ?_, fun member => absurd member (List.not_mem_nil)⟩
      have later : [second].Sublist back := by
        cases before with
        | cons _ later => exact (List.sublist_cons_self _ _).trans later
        | cons_cons _ later => exact later
      exact absurd (List.singleton_sublist.mp later) absent
  | cons head rest ih =>
      rw [List.cons_append] at distinct ⊢
      have further := ih (List.nodup_cons.mp distinct).2
      constructor
      · intro before
        cases before with
        | cons _ later => exact List.mem_cons_of_mem _ (further.mp later)
        | cons_cons => exact List.mem_cons_self
      · intro member
        rcases List.mem_cons.mp member with rfl | later
        · exact List.Sublist.cons_cons _ (List.singleton_sublist.mpr (by simp))
        · exact (further.mpr later).cons _

end order

section listing

variable (tab : String) (expansion : TreeExpansionKey → Option Bool) (tree : TreeSection)

def Open (ancestors : List TreeRow) : Prop :=
  ∀ depth row, ancestors[depth]? = some row → isExpanded tab expansion tree row depth = true

/-- The row reaches a root, every ancestor on the way is expanded, and none of it is too deep. -/
def Listed (row : TreeRow) : Prop :=
  ∃ ancestors, Rooted tree.rows row ancestors ∧ Open tab expansion tree ancestors ∧
    ancestors.length ≤ maxDepth

def Earlier (sibling row : TreeRow) : Prop :=
  ∃ ancestors, Rooted tree.rows sibling ancestors ∧ Rooted tree.rows row ancestors ∧
    [sibling, row].Sublist tree.rows

/-- The row directly follows `above`, or starts the list, but for the listed subtrees of its earlier
siblings. -/
def Placed (listing : List TreeRow) (above : Option TreeRow) (row : TreeRow) : Prop :=
  ∃ front between back, listing = front ++ (between ++ row :: back) ∧ front.getLast? = above ∧
    ∀ other, other ∈ between ↔ Listed tab expansion tree other ∧
      ∃ sibling, Earlier tree sibling row ∧ (other = sibling ∨ Beneath tree.rows other sibling)

def HidesBeneath (tone : Option SidebarTone) (active : Bool) (row : TreeRow) : Prop :=
  (∃ worst, tone = some worst ∧
    (∃ below, Beneath tree.rows below row ∧ below.content.tone = worst) ∧
    ∀ below, Beneath tree.rows below row → worst.urgency ≤ below.content.tone.urgency) ∧
  (active = true ↔ ∃ below, Beneath tree.rows below row ∧ below.content.active = true)

/-- What a line says of its row: whether it is expanded, and what it hides when it is not. -/
def Faithful {B : Type} (line : TreeLine B) : Prop :=
  ∃ ancestors, Rooted tree.rows line.row ancestors ∧
    line.expanded = isExpanded tab expansion tree line.row ancestors.length ∧
    (line.expanded = false → (∃ below, Beneath tree.rows below line.row) →
      HidesBeneath tree line.hiddenTone line.hiddenActive line.row)

end listing

def linesOf {B : Type} (items : List (TreeItem B)) : List (TreeLine B) :=
  items.filterMap TreeItem.line

def rowsOf {B : Type} (items : List (TreeItem B)) : List TreeRow :=
  (linesOf items).map (·.row)

section items

variable {B α : Type}

@[simp]
theorem linesOf_append (front back : List (TreeItem B)) :
    linesOf (front ++ back) = linesOf front ++ linesOf back :=
  List.filterMap_append

@[simp]
theorem rowsOf_append (front back : List (TreeItem B)) :
    rowsOf (front ++ back) = rowsOf front ++ rowsOf back := by
  simp [rowsOf]

@[simp]
theorem linesOf_cons_row (line : TreeLine B) (items : List (TreeItem B)) :
    linesOf (.row line :: items) = line :: linesOf items :=
  rfl

theorem linesOf_flatMap (items : List α) (result : α → List (TreeItem B)) :
    linesOf (items.flatMap result) = items.flatMap fun item => linesOf (result item) := by
  induction items with
  | nil => rfl
  | cons item rest ih => rw [List.flatMap_cons, linesOf_append, ih, List.flatMap_cons]

theorem rowsOf_flatMap (items : List α) (result : α → List (TreeItem B)) :
    rowsOf (items.flatMap result) = items.flatMap fun item => rowsOf (result item) := by
  rw [rowsOf, linesOf_flatMap, List.map_flatMap]
  rfl

end items

section opening

variable {tab : String} {expansion : TreeExpansionKey → Option Bool} {tree : TreeSection}
  {row : TreeRow} {ancestors front back : List TreeRow}

theorem open_nil : Open tab expansion tree [] := by
  intro depth row found
  simp at found

theorem open_of_append (opened : Open tab expansion tree (front ++ back)) :
    Open tab expansion tree front := by
  intro depth row found
  have within : depth < front.length := (List.getElem?_eq_some_iff.mp found).1
  exact opened depth row (by rw [List.getElem?_append_left within, found])

theorem open_concat : Open tab expansion tree (ancestors ++ [row]) ↔
    Open tab expansion tree ancestors ∧
      isExpanded tab expansion tree row ancestors.length = true := by
  constructor
  · intro opened
    exact ⟨open_of_append opened, opened _ _ (by simp)⟩
  · rintro ⟨opened, expanded⟩ depth other found
    rcases Nat.lt_or_ge depth ancestors.length with higher | last
    · rw [List.getElem?_append_left higher] at found
      exact opened depth other found
    · rw [List.getElem?_append_right last, List.getElem?_singleton] at found
      split at found
      · obtain rfl := Option.some.inj found
        have same : depth = ancestors.length := by omega
        rw [same]
        exact expanded
      · cases found

/-- Going down from the root, either every ancestor is expanded or one is the first that is not. -/
theorem open_or_folded : Open tab expansion tree ancestors ∨
    ∃ front row back, ancestors = front ++ row :: back ∧ Open tab expansion tree front ∧
      isExpanded tab expansion tree row front.length = false := by
  induction ancestors using List.reverseRecOn with
  | nil => exact .inl open_nil
  | append_singleton ancestors row ih =>
      rcases ih with opened | ⟨front, folded, back, rfl, opened, closed⟩
      · cases expanded : isExpanded tab expansion tree row ancestors.length with
        | true => exact .inl (open_concat.mpr ⟨opened, expanded⟩)
        | false => exact .inr ⟨ancestors, row, [], rfl, opened, expanded⟩
      · exact .inr ⟨front, folded, back ++ [row], by simp, opened, closed⟩

end opening

end Rozi
