import Mathlib.Data.List.Basic
import Mathlib.Data.List.Nodup
import Mathlib.Data.List.Flatten

/-!
The rows of a hierarchical sidebar tab: a flat list in which each names its parent, and the lines it
is shown as.
-/

namespace Rozi

inductive SidebarTone where
  | normal | muted | info | working | success | warning | blocked | error
  deriving DecidableEq, Repr

namespace SidebarTone

def urgency : SidebarTone → Nat
  | blocked => 0
  | error => 1
  | warning => 2
  | working => 3
  | success => 4
  | info => 5
  | normal => 6
  | muted => 7

/-- `min_by_key` keeps the first of several that are as urgent. -/
def mostUrgent : List SidebarTone → SidebarTone
  | [] => normal
  | tone :: rest =>
      rest.foldl (fun best tone => if tone.urgency < best.urgency then tone else best) tone

theorem mostUrgent_first {tones : List SidebarTone} (nonempty : tones ≠ []) :
    mostUrgent tones ∈ tones ∧ ∀ tone ∈ tones, (mostUrgent tones).urgency ≤ tone.urgency := by
  cases tones with
  | nil => exact absurd rfl nonempty
  | cons tone rest =>
      rw [mostUrgent]
      clear nonempty
      induction rest generalizing tone with
      | nil => simp
      | cons other rest ih =>
          rw [List.foldl_cons]
          by_cases before : other.urgency < tone.urgency
          · rw [if_pos before]
            rcases ih other with ⟨member, least⟩
            refine ⟨List.mem_cons_of_mem _ member, ?_⟩
            intro shown present
            rcases List.mem_cons.mp present with rfl | later
            · exact Nat.le_trans (least other List.mem_cons_self) (Nat.le_of_lt before)
            · exact least shown later
          · rw [if_neg before]
            rcases ih tone with ⟨member, least⟩
            refine ⟨?_, ?_⟩
            · rcases List.mem_cons.mp member with same | later
              · rw [same]
                exact List.mem_cons_self
              · exact List.mem_cons_of_mem _ (List.mem_cons_of_mem _ later)
            · intro shown present
              rcases List.mem_cons.mp present with rfl | present
              · exact least shown List.mem_cons_self
              · rcases List.mem_cons.mp present with rfl | later
                · exact Nat.le_trans (least tone List.mem_cons_self) (Nat.not_lt.mp before)
                · exact least shown (List.mem_cons_of_mem _ later)

end SidebarTone

structure RowContent where
  label : String
  tone : SidebarTone := .normal
  active : Bool := false
  heading : Bool := false
  deriving DecidableEq, Repr

structure TreeRow where
  id : String
  parent : Option String := none
  content : RowContent
  expandable : Bool := false
  expanded : Option Bool := none
  deriving DecidableEq, Repr

structure SidebarRowSpec where
  id : String
  parent : Option String := none
  label : String
  description : Option String := none
  metaText : Option String := none
  detail : Option String := none
  tone : SidebarTone := .normal
  active : Bool := false
  disabled : Option String := none
  expandable : Bool := false
  expanded : Option Bool := none
  heading : Bool := false
  actions : Option (List String) := none
  deriving DecidableEq, Repr

def sidebarMaxRows : Nat := 500

def sidebarMaxActions : Nat := 16

section sanitized

variable (display : String → String)

/-- `display` is the text with its control sequences stripped and its ends trimmed. -/
def clean (text : String) (maxChars : Nat) : String :=
  let text := display text
  if text.toList.length ≤ maxChars then text
  else String.ofList (text.toList.take (maxChars - 1)) ++ "…"

def cleanOptional (text : Option String) (maxChars : Nat) : Option String :=
  (text.map (clean display · maxChars)).filter fun text => !text.isEmpty

def sanitizeFrom (seen : List String) : List SidebarRowSpec → List SidebarRowSpec
  | [] => []
  | row :: rest =>
      let id := clean display row.id 256
      let label := clean display row.label 160
      if id.isEmpty || label.isEmpty || seen.contains id then sanitizeFrom seen rest
      else
        { row with
          id
          parent := cleanOptional display row.parent 256
          label
          description := cleanOptional display row.description 80
          metaText := cleanOptional display row.metaText 24
          detail := cleanOptional display row.detail 160
          disabled := cleanOptional display row.disabled 80
          actions := row.actions.map fun actions =>
            (actions.take sidebarMaxActions).map (clean display · 64) } ::
          sanitizeFrom (id :: seen) rest

def sanitizeRows (rows : List SidebarRowSpec) : List SidebarRowSpec :=
  sanitizeFrom display [] (rows.take sidebarMaxRows)

end sanitized

def TreeRow.fromSpec (spec : SidebarRowSpec) : TreeRow where
  id := spec.id
  parent := spec.parent
  content := {
    label := spec.label
    tone := spec.tone
    active := spec.active
    heading := spec.heading }
  expandable := spec.expandable
  expanded := spec.expanded

theorem sanitizeFrom_fresh (display : String → String) (seen : List String)
    (rows : List SidebarRowSpec) :
    ((sanitizeFrom display seen rows).map (·.id)).Nodup ∧
      ∀ row ∈ sanitizeFrom display seen rows, row.id ∉ seen := by
  induction rows generalizing seen with
  | nil => simp [sanitizeFrom]
  | cons row rest ih =>
      rw [sanitizeFrom]
      split
      · exact ih seen
      · rename_i kept
        have fresh : clean display row.id 256 ∉ seen := by
          intro before
          rw [List.contains_iff_mem.mpr before, Bool.or_true] at kept
          exact kept rfl
        rcases ih (clean display row.id 256 :: seen) with ⟨distinct, apart⟩
        constructor
        · rw [List.map_cons, List.nodup_cons]
          refine ⟨fun again => ?_, distinct⟩
          rcases List.mem_map.mp again with ⟨other, member, same⟩
          exact apart other member (by rw [same]; exact List.mem_cons_self)
        · intro other member
          rcases List.mem_cons.mp member with rfl | later
          · exact fresh
          · exact fun before => apart other later (List.mem_cons_of_mem _ before)

theorem sanitizeRows_unique (display : String → String) (rows : List SidebarRowSpec) :
    (((sanitizeRows display rows).map TreeRow.fromSpec).map TreeRow.id).Nodup := by
  rw [List.map_map]
  exact (sanitizeFrom_fresh display [] _).1

structure TreeSection where
  key : String
  header : Option String := none
  rows : List TreeRow := []
  lazy : Bool := false
  deriving DecidableEq, Repr

structure TreeExpansionKey where
  tab : String
  sectionKey : String
  row : String
  deriving DecidableEq, Repr

structure TreeBranches (B : Type) where
  root : B
  child : B → Bool → B
  depth : B → Nat
  depth_root : depth root = 0
  depth_child : ∀ branch last, depth (child branch last) = depth branch + 1

structure TreeLine (B : Type) where
  row : TreeRow
  key : TreeExpansionKey
  branch : B
  expandable : Bool
  expanded : Bool
  heading : Bool
  hiddenTone : Option SidebarTone
  hiddenActive : Bool

inductive TreeItem (B : Type) where
  | spacer
  | header (title : String)
  | row (line : TreeLine B)
  | loading (branch : B)

def TreeItem.line {B : Type} : TreeItem B → Option (TreeLine B)
  | row line => some line
  | _ => none

def maxDepth : Nat := 12

section rows

variable (rows : List TreeRow)

def nested (row : TreeRow) : Bool :=
  match row.parent with
  | some parent => parent != row.id && rows.any (·.id == parent)
  | none => false

def roots : List TreeRow :=
  rows.filter fun row => !nested rows row

def children (id : String) : List TreeRow :=
  rows.filter fun row => nested rows row && row.parent == some id

def gather {α β : Type} (produce : α → Option (List β)) : List α → Option (List β)
  | [] => some []
  | item :: rest => do
      let here ← produce item
      let later ← gather produce rest
      return here ++ later

/-- Every row beneath `kids`, at any depth. The source recurses without a bound; here it may go as
many levels down as there is fuel. -/
def descendants : Nat → List TreeRow → Option (List TreeRow)
  | 0, kids => if kids.isEmpty then some [] else none
  | fuel + 1, kids =>
      gather (fun row => (descendants fuel (children rows row.id)).map (row :: ·)) kids

def hiddenContent (fuel : Nat) (kids : List TreeRow) (expanded : Bool) :
    Option (Option SidebarTone × Bool) :=
  if expanded || kids.isEmpty then some (none, false)
  else do
    let hidden ← descendants rows fuel kids
    return (some (SidebarTone.mostUrgent (hidden.map (·.content.tone))),
      hidden.any (·.content.active))

end rows

def rowExpanded (row : TreeRow) (heading expandable : Bool) (chosen : Option Bool)
    (hasChildren : Bool) : Bool :=
  if heading then true
  else expandable && chosen.getD (row.expanded.getD hasChildren)

section shown

variable {B : Type} (branches : TreeBranches B) (tab : String)
  (expansion : TreeExpansionKey → Option Bool) (tree : TreeSection)

def expansionKey (row : TreeRow) : TreeExpansionKey where
  tab
  sectionKey := tree.key
  row := row.id

def isHeading (row : TreeRow) (depth : Nat) : Bool :=
  row.content.heading && depth == 0

def isExpandable (row : TreeRow) (depth : Nat) : Bool :=
  !isHeading row depth && (row.expandable || !(children tree.rows row.id).isEmpty)

def isExpanded (row : TreeRow) (depth : Nat) : Bool :=
  rowExpanded row (isHeading row depth) (isExpandable tree row depth)
    (expansion (expansionKey tab tree row)) (!(children tree.rows row.id).isEmpty)

def pushRow : Nat → TreeRow → B → Option (List (TreeItem B))
  | 0, _, _ => none
  | fuel + 1, row, branch => do
      let kids := children tree.rows row.id
      let depth := branches.depth branch
      let expanded := isExpanded tab expansion tree row depth
      let hidden ← hiddenContent tree.rows fuel kids expanded
      let line := TreeItem.row {
        row
        key := expansionKey tab tree row
        branch
        expandable := isExpandable tree row depth
        expanded
        heading := isHeading row depth
        hiddenTone := hidden.1
        hiddenActive := hidden.2 }
      if !expanded || maxDepth ≤ depth then return [line]
      else if kids.isEmpty then
        return line ::
          (if tree.lazy && row.expandable then [.loading (branches.child branch true)] else [])
      else
        let below ← gather (fun child : TreeRow × Nat =>
          pushRow fuel child.1 (branches.child branch (child.2 + 1 == kids.length))) kids.zipIdx
        return line :: below

def pushSection (fuel : Nat) : Option (List (TreeItem B)) :=
  gather (fun row => pushRow branches tab expansion tree fuel row branches.root) (roots tree.rows)

end shown

def flattenFrom {B : Type} (branches : TreeBranches B) (tab : String)
    (expansion : TreeExpansionKey → Option Bool) (fuel : Nat) :
    List (TreeItem B) → List TreeSection → Option (List (TreeItem B))
  | items, [] => some items
  | items, tree :: rest =>
      if tree.rows.isEmpty then flattenFrom branches tab expansion fuel items rest
      else do
        let rows ← pushSection branches tab expansion tree fuel
        flattenFrom branches tab expansion fuel
          (items ++ (if items.isEmpty then [] else [.spacer]) ++
            (tree.header.map TreeItem.header).toList ++ rows) rest

def flatten {B : Type} (branches : TreeBranches B) (tab : String)
    (expansion : TreeExpansionKey → Option Bool) (fuel : Nat) (sections : List TreeSection) :
    Option (List (TreeItem B)) :=
  flattenFrom branches tab expansion fuel [] sections

section gathered

variable {α β : Type} {produce : α → Option (List β)}

theorem gather_eq_some {items : List α} {result : α → List β}
    (each : ∀ item ∈ items, produce item = some (result item)) :
    gather produce items = some (items.flatMap result) := by
  induction items with
  | nil => rfl
  | cons item rest ih =>
      rw [gather, each item List.mem_cons_self, ih fun other member =>
        each other (List.mem_cons_of_mem _ member)]
      rfl

theorem exists_gather {items : List α} {holds : α → List β → Prop}
    (each : ∀ item ∈ items, ∃ result, produce item = some result ∧ holds item result) :
    ∃ result : α → List β, gather produce items = some (items.flatMap result) ∧
      (∀ item ∈ items, produce item = some (result item)) ∧
      ∀ item ∈ items, holds item (result item) := by
  have chosen : ∀ item, ∃ result, item ∈ items → produce item = some result ∧ holds item result := by
    intro item
    by_cases member : item ∈ items
    · rcases each item member with ⟨result, same, holding⟩
      exact ⟨result, fun _ => ⟨same, holding⟩⟩
    · exact ⟨[], fun present => absurd present member⟩
  choose result found using chosen
  exact ⟨result, gather_eq_some fun item member => (found item member).1,
    fun item member => (found item member).1, fun item member => (found item member).2⟩

end gathered

end Rozi
