import Rozi.Extension.BundleNames
import Rozi.Extension.BundleStaging

/-!
Which accepted bundles can be staged: those in which no file is the directory of another, and none
goes by the name that reading back leaves out.
-/

namespace Rozi.Extension

/-! Paths as lists of names. -/

def join (path : List (List Char)) : List Char := ['/'].intercalate path

theorem join_components (path : List Char) : join (components path) = path :=
  List.intercalate_splitOn '/'

theorem components_injective {first second : List Char}
    (same : components first = components second) : first = second := by
  rw [← join_components first, same, join_components]

theorem components_ne_nil (path : List Char) : components path ≠ [] := List.splitOn_ne_nil _ _

theorem components_append (front back : List Char) :
    components (front ++ '/' :: back) = components front ++ components back :=
  List.splitOn_append_cons_self _ _

theorem join_append {front back : List (List Char)} (some : front ≠ []) (some' : back ≠ []) :
    join (front ++ back) = join front ++ '/' :: join back := by
  unfold join
  induction front with
  | nil => exact absurd rfl some
  | cons first front ih =>
      cases front with
      | nil =>
          cases back with
          | nil => exact absurd rfl some'
          | cons second back => simp [List.intercalate_cons_cons]
      | cons second front =>
          have rest := ih (List.cons_ne_nil _ _)
          rw [List.cons_append] at rest
          rw [List.cons_append, List.cons_append, List.intercalate_cons_cons, rest,
            List.intercalate_cons_cons]
          simp

theorem isInside_true {directory path : List Char} :
    isInside directory path = true ↔ ∃ rest, path = directory ++ '/' :: rest := by
  unfold isInside
  constructor
  · intro inside
    cases found : path.dropPrefix? directory with
    | none =>
        rw [found] at inside
        cases inside
    | some rest =>
        rw [found] at inside
        rcases List.dropPrefix?_eq_some_iff.mp found with ⟨front, whole, same⟩
        rw [eq_of_beq same] at whole
        cases rest with
        | nil => simp at inside
        | cons c rest =>
            simp only [List.head?_cons, Option.some.injEq, decide_eq_true_eq] at inside
            exact ⟨rest, by rw [whole, inside]⟩
  · rintro ⟨rest, rfl⟩
    have found : (directory ++ '/' :: rest).dropPrefix? directory = some ('/' :: rest) :=
      List.dropPrefix?_eq_some_iff.mpr ⟨directory, rfl, beq_self_eq_true _⟩
    rw [found]
    rfl

theorem isInside_iff {directory path : List Char} :
    isInside directory path = true ↔
      components directory <+: components path ∧ directory ≠ path := by
  rw [isInside_true]
  constructor
  · rintro ⟨rest, rfl⟩
    rw [components_append]
    exact ⟨List.prefix_append _ _, by simp⟩
  · rintro ⟨⟨rest, whole⟩, other⟩
    cases rest with
    | nil =>
        rw [List.append_nil] at whole
        exact absurd (components_injective whole) other
    | cons name rest =>
        refine ⟨join (name :: rest), ?_⟩
        rw [← join_components path, ← whole,
          join_append (components_ne_nil directory) (List.cons_ne_nil _ _), join_components]

theorem components_join {path : List (List Char)} (some : path ≠ [])
    (plain : ∀ name ∈ path, '/' ∉ name) : components (join path) = path :=
  List.splitOn_intercalate '/' plain some

theorem slash_not_mem_components {path name : List Char} (member : name ∈ components path) :
    '/' ∉ name := by
  induction path generalizing name with
  | nil =>
      rw [List.mem_singleton.mp member]
      exact List.not_mem_nil
  | cons c path ih =>
      unfold components at member ih
      rw [List.splitOn_cons_eq_if_modifyHead] at member
      split_ifs at member with separator
      · rcases List.mem_cons.mp member with rfl | member
        · exact List.not_mem_nil
        · exact ih member
      · cases parts : path.splitOn '/' with
        | nil => exact absurd parts (List.splitOn_ne_nil _ _)
        | cons first rest =>
            rw [parts, List.modifyHead_cons] at member
            rw [parts] at ih
            rcases List.mem_cons.mp member with rfl | member
            · rw [List.mem_cons, not_or]
              exact ⟨fun same => separator (by simp [← same]), ih List.mem_cons_self⟩
            · exact ih (List.mem_cons_of_mem _ member)

/-- No file is the directory of another, whatever lies between them in the order. -/
def AllApart (files : List BundleFile) : Prop :=
  ∀ first ∈ files, ∀ second ∈ files, isInside first.path second.path = false

def Skipped (file : BundleFile) : Prop := (components file.path).head? = some modesFile

instance (file : BundleFile) : Decidable (Skipped file) :=
  inferInstanceAs (Decidable ((components file.path).head? = some modesFile))

/-! Writing. -/

structure Holds (files : List BundleFile) (mode : BundleFile → Nat) (tree : Tree) : Prop where
  opened : tree.Open
  root : tree.lookup [] = some (.directory 0o700)
  there : ∀ file ∈ files,
    tree.lookup (components file.path) = some (.file (mode file) file.contents)
  only : ∀ path node, tree.lookup path = some node →
    (node.isDirectory ∧ (path = [] ∨ ∃ file ∈ files, path <+: components file.path)) ∨
      ∃ file ∈ files, path = components file.path

/-- Neither lies in the other, and they are two. -/
def Beside (first second : BundleFile) : Prop :=
  ¬ components first.path <+: components second.path ∧
    ¬ components second.path <+: components first.path

theorem Holds.write {files : List BundleFile} {mode : BundleFile → Nat} {tree : Tree}
    {file : BundleFile} (holds : Holds files mode tree) (beside : ∀ other ∈ files, Beside other file)
    (pending : mode file = 0o600) :
    ∃ next, writeFile tree file = .ok next ∧ Holds (file :: files) mode next := by
  have last := components_ne_nil file.path
  have inside : (components file.path).dropLast <+: components file.path := List.dropLast_prefix _
  have clear : ∀ front, front <+: [] ++ (components file.path).dropLast → ∀ node,
      tree.lookup front = some node → node.isDirectory := by
    intro front above node found
    rcases holds.only front node found with ⟨directory, _⟩ | ⟨other, member, rfl⟩
    · exact directory
    · exact absurd (above.trans inside) (beside other member).1
  rcases holds.opened.createDirs ⟨_, holds.root, rfl⟩ clear with ⟨first, made, opened, lookups⟩
  simp only [List.nil_append] at lookups
  have missing : first.lookup (components file.path) = none := by
    rw [lookups]
    have absent : tree.lookup (components file.path) = none := by
      by_contra there
      rcases Option.ne_none_iff_exists'.mp there with ⟨node, found⟩
      rcases holds.only _ node found with ⟨_, root | ⟨other, member, above⟩⟩ |
        ⟨other, member, same⟩
      · exact last root
      · exact (beside other member).2 above
      · exact (beside other member).2 (same ▸ List.prefix_rfl)
    rw [if_neg, absent]
    rintro ⟨_, above⟩
    have short := above.length_le
    rw [List.length_dropLast] at short
    have some := List.length_pos_iff.mpr last
    omega
  have held : first.Held (components file.path) := by
    right
    rw [lookups]
    cases found : tree.lookup (components file.path).dropLast with
    | none =>
        rw [if_pos ⟨rfl, List.prefix_rfl⟩]
        exact ⟨_, rfl, rfl⟩
    | some node =>
        rw [if_neg (by simp)]
        exact ⟨node, rfl, clear _ List.prefix_rfl node found⟩
  rcases opened.searchable.create missing (opened.canCreate held)
    (.file 0o600 file.contents) with ⟨next, written⟩
  have lookups' := (FileTree.create_ok written).2.2
  have kept : ∀ path node, tree.lookup path = some node → next.lookup path = some node := by
    intro path node found
    have before : first.lookup path = some node := by
      rw [lookups, found, if_neg (by simp)]
    exact FileTree.extends_of_create written path node before
  refine ⟨next, ?_, ?_, kept _ _ holds.root, ?_, ?_⟩
  · unfold writeFile FileTree.createDirAll FileTree.createFile
    simp only [Checks.bind_eq_ok]
    exact ⟨first, made, written⟩
  · exact opened.create written fun directory => by cases directory
  · intro other member
    rcases List.mem_cons.mp member with rfl | member
    · rw [lookups', if_pos rfl, pending]
    · exact kept _ _ (holds.there other member)
  · intro path node found
    rw [lookups', lookups] at found
    split_ifs at found with same fresh
    · exact .inr ⟨file, List.mem_cons_self, same⟩
    · rw [← Option.some.inj found]
      exact .inl ⟨rfl, .inr ⟨file, List.mem_cons_self, fresh.2.trans inside⟩⟩
    · rcases holds.only path node found with ⟨directory, root | ⟨other, member, above⟩⟩ |
        ⟨other, member, same⟩
      · exact .inl ⟨directory, .inl root⟩
      · exact .inl ⟨directory, .inr ⟨other, List.mem_cons_of_mem _ member, above⟩⟩
      · exact .inr ⟨other, List.mem_cons_of_mem _ member, same⟩

theorem Holds.writes {rest done : List BundleFile} {mode : BundleFile → Nat} {tree : Tree}
    (holds : Holds done mode tree) (pending : ∀ file, mode file = 0o600)
    (beside : rest.Pairwise Beside) (before : ∀ first ∈ done, ∀ second ∈ rest, Beside first second) :
    ∃ next, writeFiles tree rest = .ok next ∧ Holds (rest.reverse ++ done) mode next := by
  induction rest generalizing tree done with
  | nil => exact ⟨tree, rfl, holds⟩
  | cons file rest ih =>
      rcases holds.write (fun other member => before other member file List.mem_cons_self)
        (pending file) with ⟨first, written, holds'⟩
      have apart := List.pairwise_cons.mp beside
      have before' : ∀ first ∈ file :: done, ∀ second ∈ rest, Beside first second := by
        intro first member second member'
        rcases List.mem_cons.mp member with rfl | member
        · exact apart.1 second member'
        · exact before first member second (List.mem_cons_of_mem _ member')
      rcases ih holds' apart.2 before' with ⟨next, rest', holds''⟩
      refine ⟨next, ?_, ?_⟩
      · rw [writeFiles, written]
        exact rest'
      · rw [List.reverse_cons, List.append_assoc, List.singleton_append]
        exact holds''

theorem Holds.of_mem {files other : List BundleFile} {mode : BundleFile → Nat} {tree : Tree}
    (holds : Holds files mode tree) (same : ∀ file, file ∈ files ↔ file ∈ other) :
    Holds other mode tree := by
  refine ⟨holds.opened, holds.root, fun file member => holds.there file ((same file).mpr member),
    fun path node found => ?_⟩
  simpa only [same] using holds.only path node found

theorem Holds.setMode {files : List BundleFile} {mode : BundleFile → Nat} {tree : Tree}
    {file : BundleFile} (holds : Holds files mode tree) (member : file ∈ files)
    (distinct : ∀ other ∈ files, other.path = file.path → other = file) (bits : Nat) :
    ∃ next, tree.setMode (components file.path) bits = .ok next ∧
      Holds files (Function.update mode file bits) next := by
  have here := holds.there file member
  rcases holds.opened.searchable.setMode here bits with ⟨next, changed⟩
  rcases FileTree.setMode_ok changed with ⟨node, found, lookups⟩
  rw [here, Option.some.injEq] at found
  subst found
  refine ⟨next, changed, ?_, ?_, ?_, ?_⟩
  · intro path node found directory
    rw [lookups] at found
    split_ifs at found
    · rw [← Option.some.inj found] at directory
      cases directory
    · exact holds.opened path node found directory
  · rw [lookups, if_neg fun root => components_ne_nil file.path root.symm]
    exact holds.root
  · intro other member'
    rw [lookups]
    split_ifs with same
    · have one := distinct other member' (components_injective same)
      subst one
      rw [Function.update_self]
      rfl
    · rw [Function.update_of_ne fun one => same (by rw [one])]
      exact holds.there other member'
  · intro path node found
    rw [lookups] at found
    split_ifs at found with same
    · exact .inr ⟨file, member, same⟩
    · exact holds.only path node found

def pendingMode (file : BundleFile) : Nat := if file.executable then 0o700 else 0o600

theorem Holds.writeModes {files rest : List BundleFile} {mode : BundleFile → Nat} {tree : Tree}
    (holds : Holds files mode tree) (within : ∀ file ∈ rest, file ∈ files)
    (distinct : ∀ first ∈ files, ∀ second ∈ files, first.path = second.path → first = second) :
    ∃ next, Rozi.Extension.writeModes tree rest = .ok next ∧
      ∃ last, Holds files last next ∧
        ∀ file, last file = if file ∈ rest then pendingMode file else mode file := by
  induction rest generalizing tree mode with
  | nil => exact ⟨tree, rfl, mode, holds, fun file => (if_neg List.not_mem_nil).symm⟩
  | cons file rest ih =>
      have here := within file List.mem_cons_self
      rcases holds.setMode here (fun other member => distinct other member file here)
        (pendingMode file) with ⟨first, changed, holds'⟩
      rcases ih holds' (fun other member => within other (List.mem_cons_of_mem _ member)) with
        ⟨next, rest', last, holds'', modes⟩
      refine ⟨next, ?_, last, holds'', fun other => ?_⟩
      · rw [Rozi.Extension.writeModes]
        unfold pendingMode at changed
        rw [changed]
        exact rest'
      · rw [modes]
        by_cases later : other ∈ rest
        · rw [if_pos later, if_pos (List.mem_cons_of_mem _ later)]
        · rw [if_neg later]
          by_cases same : other = file
          · rw [same, Function.update_self, if_pos List.mem_cons_self]
          · rw [Function.update_of_ne same, if_neg]
            rw [List.mem_cons, not_or]
            exact ⟨same, later⟩

theorem holds_root {tree : Tree} (mode : BundleFile → Nat)
    (lookups : ∀ path, tree.lookup path = if path = [] then some (.directory 0o700) else none) :
    Holds [] mode tree := by
  refine ⟨?_, by rw [lookups, if_pos rfl], by simp, ?_⟩
  · intro path node found _
    rw [lookups] at found
    split_ifs at found
    exact (Option.some.inj found).symm
  · intro path node found
    rw [lookups] at found
    split_ifs at found with root
    rw [← Option.some.inj found]
    exact .inl ⟨rfl, .inl root⟩

theorem writeBundle_holds {files : List BundleFile} (beside : files.Pairwise Beside)
    (distinct : ∀ first ∈ files, ∀ second ∈ files, first.path = second.path → first = second) :
    ∃ tree, writeBundle FileTree.empty files = .ok tree ∧
      ∃ mode, Holds files mode tree ∧ ∀ file ∈ files, mode file = pendingMode file := by
  have nothing : ∀ path : List (List Char), (FileTree.empty : Tree).lookup path = none := fun path =>
    AList.lookup_empty path
  have searchable : (FileTree.empty : Tree).Searchable := by
    intro path node found
    rw [nothing] at found
    cases found
  rcases searchable.create (nothing []) (.inl rfl) (.directory 0o700) with ⟨first, made⟩
  have lookups := (FileTree.create_ok made).2.2
  have opened : first.Open := by
    intro path node found _
    rw [lookups, nothing] at found
    split_ifs at found
    exact (Option.some.inj found).symm
  rcases opened.searchable.setMode (show first.lookup [] = some _ by
    rw [lookups, if_pos rfl]) 0o700 with ⟨second, restricted⟩
  rcases FileTree.setMode_ok restricted with ⟨node, found, lookups'⟩
  rw [lookups, if_pos rfl, Option.some.injEq] at found
  subst found
  have root : Holds [] (fun _ => 0o600) second := by
    refine holds_root _ fun path => ?_
    rw [lookups', lookups, nothing]
    split_ifs <;> rfl
  rcases root.writes (fun _ => rfl) beside (by simp) with ⟨third, written, holds⟩
  have holds' : Holds files (fun _ => 0o600) third := holds.of_mem (by simp)
  rcases holds'.writeModes (fun _ member => member) distinct with ⟨last, marked, mode, holds'', modes⟩
  refine ⟨last, ?_, mode, holds'', fun file member => by rw [modes, if_pos member]⟩
  unfold writeBundle FileTree.createDir
  simp only [Checks.bind_eq_ok]
  exact ⟨first, made, second, restricted, third, written, marked⟩

theorem extends_of_writeFile {tree next : Tree} {file : BundleFile}
    (written : writeFile tree file = .ok next) :
    tree.Extends next ∧
      next.lookup (components file.path) = some (.file 0o600 file.contents) := by
  unfold writeFile at written
  simp only [Checks.bind_eq_ok] at written
  rcases written with ⟨first, made, created⟩
  refine ⟨(FileTree.extends_of_createDirs made).trans (FileTree.extends_of_create created), ?_⟩
  rw [(FileTree.create_ok created).2.2, if_pos rfl]

theorem extends_of_writeFiles {files : List BundleFile} {tree next : Tree}
    (written : writeFiles tree files = .ok next) :
    tree.Extends next ∧ ∀ file ∈ files,
      next.lookup (components file.path) = some (.file 0o600 file.contents) := by
  induction files generalizing tree with
  | nil =>
      cases written
      exact ⟨fun _ _ found => found, by simp⟩
  | cons file rest ih =>
      rw [writeFiles, Checks.bind_eq_ok] at written
      rcases written with ⟨first, one, written⟩
      have here := extends_of_writeFile one
      have later := ih written
      refine ⟨here.1.trans later.1, fun other member => ?_⟩
      rcases List.mem_cons.mp member with rfl | member
      · exact later.1 _ _ here.2
      · exact later.2 other member

theorem allApart_of_writeBundle {files : List BundleFile} {tree : Tree}
    (written : writeBundle FileTree.empty files = .ok tree) : AllApart files := by
  intro first member second member'
  by_contra inside
  rw [Bool.not_eq_false, isInside_iff] at inside
  unfold writeBundle at written
  simp only [Checks.bind_eq_ok] at written
  rcases written with ⟨_, _, _, _, third, written, _⟩
  have files := (extends_of_writeFiles written).2
  have other : components first.path ≠ components second.path := fun same =>
    inside.2 (components_injective same)
  rcases FileTree.directory_above (third.held_of_lookup (files second member')) inside.1 other with
    ⟨node, found, directory⟩
  rw [files first member, Option.some.injEq] at found
  rw [← found] at directory
  cases directory

end Rozi.Extension
