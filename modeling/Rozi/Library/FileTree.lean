import Mathlib.Data.List.Induction
import Rozi.Library.Checks
import Rozi.Library.KeyedTotals

/-!
A tree of directories and regular files with owner modes, by the path of names from its root, and
the system calls that read and change it. The directory of every node is in the tree.
-/

inductive FileNode (C : Type) where
  | file (mode : Nat) (contents : C)
  | directory (mode : Nat)
  deriving DecidableEq, Repr

inductive IoError where
  | notFound
  | alreadyExists
  | notADirectory
  | isADirectory
  | permissionDenied
  deriving DecidableEq, Repr

namespace FileNode

variable {C : Type}

def mode : FileNode C → Nat
  | .file mode _ => mode
  | .directory mode => mode

def isDirectory : FileNode C → Bool
  | .file _ _ => false
  | .directory _ => true

def setMode (mode : Nat) : FileNode C → FileNode C
  | .file _ contents => .file mode contents
  | .directory _ => .directory mode

def readable (node : FileNode C) : Bool := node.mode &&& 0o400 ≠ 0

def writable (node : FileNode C) : Bool := node.mode &&& 0o200 ≠ 0

def executable (node : FileNode C) : Bool := node.mode &&& 0o100 ≠ 0

@[simp] theorem isDirectory_setMode (mode : Nat) (node : FileNode C) :
    (node.setMode mode).isDirectory = node.isDirectory := by
  cases node <;> rfl

end FileNode

structure FileTree (N : Type) (C : Type) [DecidableEq N] where
  nodes : AList fun _ : List N => FileNode C
  rooted : ∀ front name, front ++ [name] ∈ nodes →
    ∃ node, nodes.lookup front = some node ∧ node.isDirectory

namespace FileTree

variable {N : Type} {C : Type} [DecidableEq N]

def empty : FileTree N C where
  nodes := ∅
  rooted := fun _ _ member => absurd member (AList.notMem_empty _)

variable (tree : FileTree N C)

def lookup (path : List N) : Option (FileNode C) := tree.nodes.lookup path

def Held (path : List N) : Prop :=
  path = [] ∨ ∃ node, tree.lookup path.dropLast = some node ∧ node.isDirectory

theorem held_of_lookup {path : List N} {node : FileNode C}
    (found : tree.lookup path = some node) : tree.Held path := by
  rcases List.eq_nil_or_concat path with rfl | ⟨front, name, rfl⟩
  · exact .inl rfl
  · right
    rw [List.concat_eq_append] at found ⊢
    rw [List.dropLast_concat]
    exact tree.rooted front name (AList.lookup_isSome.mp (Option.isSome_of_eq_some found))

/-- The tree with a node put at a path, in place of one of the same kind if there is one. -/
def put (path : List N) (node : FileNode C) (held : tree.Held path)
    (kind : ∀ before, tree.lookup path = some before → before.isDirectory → node.isDirectory) :
    FileTree N C where
  nodes := tree.nodes.insert path node
  rooted := by
    intro front name member
    rw [AList.lookup_insert_eq]
    have before : ∃ node, tree.lookup front = some node ∧ node.isDirectory := by
      rcases (AList.mem_insert _).mp member with rfl | old
      · rcases held with none | parent
        · exact absurd none (List.append_ne_nil_of_right_ne_nil _ (List.cons_ne_nil _ _))
        · rwa [List.dropLast_concat] at parent
      · exact tree.rooted front name old
    rcases before with ⟨found, there, directory⟩
    split_ifs with same
    · subst same
      exact ⟨node, rfl, kind found there directory⟩
    · exact ⟨found, there, directory⟩

@[simp] theorem lookup_put {path : List N} {node : FileNode C} {held : tree.Held path}
    {kind : ∀ before, tree.lookup path = some before → before.isDirectory → node.isDirectory}
    (other : List N) :
    (tree.put path node held kind).lookup other =
      if other = path then some node else tree.lookup other :=
  AList.lookup_insert_eq

/-! System calls. -/

/-- Go from `base` down to the directory of `base ++ rest`. -/
def walk (base : List N) : List N → Except IoError Unit
  | [] => .ok ()
  | name :: rest =>
      match tree.lookup base with
      | none => .error .notFound
      | some (.file _ _) => .error .notADirectory
      | some (.directory mode) =>
          if (FileNode.directory mode : FileNode C).executable then walk (base ++ [name]) rest
          else .error .permissionDenied

def orNotFound {α : Type} : Option α → Except IoError α
  | some value => .ok value
  | none => .error .notFound

def metadata (path : List N) : Except IoError (FileNode C) := do
  tree.walk [] path
  orNotFound (tree.lookup path)

def CanCreate (path : List N) : Prop :=
  path = [] ∨ ∃ node, tree.lookup path.dropLast = some node ∧ node.isDirectory ∧ node.writable

instance (path : List N) : Decidable (tree.CanCreate path) :=
  inferInstanceAs (Decidable (path = [] ∨
    ∃ node, node ∈ tree.lookup path.dropLast ∧ node.isDirectory ∧ node.writable))

theorem CanCreate.held {path : List N} (can : tree.CanCreate path) : tree.Held path := by
  rcases can with root | ⟨node, found, directory, _⟩
  · exact .inl root
  · exact .inr ⟨node, found, directory⟩

def createHere (path : List N) (node : FileNode C) : Except IoError (FileTree N C) :=
  if missing : tree.lookup path = none then
    if can : tree.CanCreate path then
      .ok (tree.put path node (can.held tree) fun before there => by
        rw [missing] at there
        cases there)
    else .error .permissionDenied
  else .error .alreadyExists

def create (path : List N) (node : FileNode C) : Except IoError (FileTree N C) := do
  tree.walk [] path
  tree.createHere path node

def createDir (path : List N) : Except IoError (FileTree N C) :=
  tree.create path (.directory 0o700)

def createFile (path : List N) (mode : Nat) (contents : C) : Except IoError (FileTree N C) :=
  tree.create path (.file mode contents)

/-- `create_dir_all` for the directories from `base` down to `base ++ rest`. -/
def createDirsFrom (tree : FileTree N C) (base : List N) : List N → Except IoError (FileTree N C)
  | [] => .ok tree
  | name :: rest =>
      match tree.lookup (base ++ [name]) with
      | some (.file _ _) => .error (if rest.isEmpty then .alreadyExists else .notADirectory)
      | some (.directory _) => createDirsFrom tree (base ++ [name]) rest
      | none => do
          let tree ← tree.createDir (base ++ [name])
          createDirsFrom tree (base ++ [name]) rest

def createDirAll (path : List N) : Except IoError (FileTree N C) := tree.createDirsFrom [] path

def setModeHere (path : List N) (mode : Nat) : Except IoError (FileTree N C) :=
  match found : tree.lookup path with
  | none => .error .notFound
  | some node =>
      .ok (tree.put path (node.setMode mode) (tree.held_of_lookup found) fun before there => by
        rw [found, Option.some.injEq] at there
        rw [← there, FileNode.isDirectory_setMode]
        exact id)

def setMode (path : List N) (mode : Nat) : Except IoError (FileTree N C) := do
  tree.walk [] path
  tree.setModeHere path mode

def nameIn (directory path : List N) : Option N :=
  if path.dropLast = directory then path.getLast? else none

def names (directory : List N) : List N := tree.nodes.keys.filterMap (nameIn directory)

def listing (directory : List N) : FileNode C → Except IoError (List N)
  | .file _ _ => .error .notADirectory
  | .directory mode =>
      if (FileNode.directory mode : FileNode C).readable then .ok (tree.names directory)
      else .error .permissionDenied

def readDir (directory : List N) : Except IoError (List N) := do
  let node ← tree.metadata directory
  tree.listing directory node

def contents : FileNode C → Except IoError C
  | .directory _ => .error .isADirectory
  | .file mode contents =>
      if (FileNode.file mode contents).readable then .ok contents else .error .permissionDenied

def readFile (path : List N) : Except IoError C := do
  let node ← tree.metadata path
  contents node

def depth : Nat := (tree.nodes.keys.map List.length).foldr max 0

/-! What the calls do to a tree whose directories can be searched. -/

variable {tree}
variable {next : FileTree N C} {path front other : List N} {node : FileNode C}

theorem directory_above (held : tree.Held path) (above : front <+: path) (other : front ≠ path) :
    ∃ node, tree.lookup front = some node ∧ node.isDirectory := by
  induction path using List.reverseRecOn with
  | nil => exact absurd (List.prefix_nil.mp above) other
  | append_singleton path name ih =>
      rcases held with none | ⟨parent, found, directory⟩
      · exact absurd none (List.append_ne_nil_of_right_ne_nil _ (List.cons_ne_nil _ _))
      · rw [List.dropLast_concat] at found
        rcases List.prefix_concat_iff.mp above with same | above
        · exact absurd same other
        · by_cases last : front = path
          · rw [last]
            exact ⟨parent, found, directory⟩
          · exact ih (tree.held_of_lookup found) above last

def Searchable (tree : FileTree N C) : Prop :=
  ∀ path node, tree.lookup path = some node → node.isDirectory → node.executable

theorem Searchable.walk {base rest : List N} (searchable : tree.Searchable)
    (held : tree.Held (base ++ rest)) : tree.walk base rest = .ok () := by
  induction rest generalizing base with
  | nil => rfl
  | cons name rest ih =>
      have above : base <+: base ++ name :: rest := List.prefix_append _ _
      have other : base ≠ base ++ name :: rest := by simp
      rcases directory_above held above other with ⟨node, found, directory⟩
      have searched := searchable base node found directory
      cases node with
      | file mode contents => cases directory
      | directory mode =>
          rw [FileTree.walk, found]
          simp only
          rw [if_pos searched]
          refine ih ?_
          rw [List.append_assoc, List.singleton_append]
          exact held

theorem Searchable.metadata (searchable : tree.Searchable)
    (found : tree.lookup path = some node) : tree.metadata path = .ok node := by
  unfold FileTree.metadata
  have walked : tree.walk [] path = .ok () := searchable.walk (tree.held_of_lookup found)
  rw [walked, found]
  rfl

theorem mem_names {directory : List N} {name : N} :
    name ∈ tree.names directory ↔ (tree.lookup (directory ++ [name])).isSome := by
  unfold names lookup
  rw [List.mem_filterMap, AList.lookup_isSome]
  constructor
  · rintro ⟨path, member, last⟩
    unfold nameIn at last
    split_ifs at last with inside
    rcases List.eq_nil_or_concat path with rfl | ⟨front, final, rfl⟩
    · cases last
    · rw [List.concat_eq_append] at member last inside
      rw [List.dropLast_concat] at inside
      rw [List.getLast?_concat, Option.some.injEq] at last
      rw [← inside, ← last]
      exact member
  · intro member
    refine ⟨directory ++ [name], member, ?_⟩
    unfold nameIn
    rw [List.dropLast_concat, if_pos rfl, List.getLast?_concat]

theorem nodup_names (directory : List N) : (tree.names directory).Nodup := by
  refine List.Nodup.filterMap (fun first second name last last' => ?_) tree.nodes.keys_nodup
  rw [Option.mem_def] at last last'
  unfold nameIn at last last'
  split_ifs at last with inside
  split_ifs at last' with inside'
  rw [← List.dropLast_append_getLast? name last, ← List.dropLast_append_getLast? name last',
    inside, inside']

theorem Searchable.readDir {mode : Nat} (searchable : tree.Searchable)
    (found : tree.lookup path = some (.directory mode))
    (readable : (FileNode.directory mode : FileNode C).readable) :
    tree.readDir path = .ok (tree.names path) := by
  unfold FileTree.readDir
  rw [searchable.metadata found]
  exact if_pos readable

theorem Searchable.readFile {mode : Nat} {text : C} (searchable : tree.Searchable)
    (found : tree.lookup path = some (.file mode text))
    (readable : (FileNode.file mode text).readable) : tree.readFile path = .ok text := by
  unfold FileTree.readFile
  rw [searchable.metadata found]
  exact if_pos readable

theorem length_le_depth (found : tree.lookup path = some node) : path.length ≤ tree.depth := by
  have member : path ∈ tree.nodes.keys := AList.lookup_isSome.mp (Option.isSome_of_eq_some found)
  unfold depth
  generalize tree.nodes.keys = keys at member
  induction keys with
  | nil => cases member
  | cons first rest ih =>
      rw [List.map_cons, List.foldr_cons]
      rcases List.mem_cons.mp member with rfl | member
      · exact le_max_left _ _
      · exact (ih member).trans (le_max_right _ _)

theorem create_ok (made : tree.create path node = .ok next) :
    tree.lookup path = none ∧ tree.Held path ∧
      ∀ other, next.lookup other = if other = path then some node else tree.lookup other := by
  unfold create createHere at made
  rw [Checks.bind_eq_ok] at made
  rcases made with ⟨_, _, made⟩
  split_ifs at made with missing can
  cases made
  exact ⟨missing, can.held tree, fun other => tree.lookup_put other⟩

theorem Searchable.create (searchable : tree.Searchable) (missing : tree.lookup path = none)
    (can : tree.CanCreate path) (node : FileNode C) :
    ∃ next, tree.create path node = .ok next := by
  unfold FileTree.create createHere
  have walked : tree.walk [] path = .ok () := searchable.walk (can.held tree)
  rw [walked, dif_pos missing, dif_pos can]
  exact ⟨_, rfl⟩

theorem setMode_ok {mode : Nat} (changed : tree.setMode path mode = .ok next) :
    ∃ node, tree.lookup path = some node ∧ ∀ other, next.lookup other =
      if other = path then some (node.setMode mode) else tree.lookup other := by
  unfold setMode setModeHere at changed
  rw [Checks.bind_eq_ok] at changed
  rcases changed with ⟨_, _, changed⟩
  split at changed
  · cases changed
  · rename_i node found
    cases changed
    exact ⟨node, found, fun other => tree.lookup_put other⟩

theorem Searchable.setMode (searchable : tree.Searchable)
    (found : tree.lookup path = some node) (mode : Nat) :
    ∃ next, tree.setMode path mode = .ok next := by
  have here : ∃ next, tree.setModeHere path mode = .ok next := by
    unfold setModeHere
    split
    · rename_i missing
      rw [found] at missing
      cases missing
    · exact ⟨_, rfl⟩
  unfold FileTree.setMode
  have walked : tree.walk [] path = .ok () := searchable.walk (tree.held_of_lookup found)
  rw [walked]
  exact here

def Extends (tree next : FileTree N C) : Prop :=
  ∀ path node, tree.lookup path = some node → next.lookup path = some node

theorem Extends.trans {last : FileTree N C} (first : tree.Extends next) (second : next.Extends last) :
    tree.Extends last := fun path node found => second path node (first path node found)

theorem extends_of_create (made : tree.create path node = .ok next) : tree.Extends next := by
  rcases create_ok made with ⟨missing, _, lookups⟩
  intro other found there
  rw [lookups]
  split_ifs with same
  · rw [same, missing] at there
    cases there
  · exact there

theorem extends_of_createDirs {base rest : List N}
    (made : tree.createDirsFrom base rest = .ok next) : tree.Extends next := by
  induction rest generalizing tree base with
  | nil =>
      cases made
      exact fun _ _ found => found
  | cons name rest ih =>
      rw [createDirsFrom] at made
      split at made
      · cases made
      · exact ih made
      · rw [Checks.bind_eq_ok] at made
        rcases made with ⟨first, created, made⟩
        exact (extends_of_create created).trans (ih made)

def Open (tree : FileTree N C) : Prop :=
  ∀ path node, tree.lookup path = some node → node.isDirectory → node = .directory 0o700

theorem Open.searchable (opened : tree.Open) : tree.Searchable := by
  intro path node found directory
  rw [opened path node found directory]
  simp [FileNode.executable, FileNode.mode]

theorem Open.canCreate (opened : tree.Open) (held : tree.Held path) : tree.CanCreate path := by
  rcases held with none | ⟨node, found, directory⟩
  · exact .inl none
  · refine .inr ⟨node, found, directory, ?_⟩
    rw [opened _ _ found directory]
    simp [FileNode.writable, FileNode.mode]

theorem Open.create (opened : tree.Open) (made : tree.create path node = .ok next)
    (kind : node.isDirectory → node = .directory 0o700) : next.Open := by
  intro other found there directory
  rw [(create_ok made).2.2] at there
  split_ifs at there
  · rw [Option.some.injEq] at there
    subst there
    exact kind directory
  · exact opened other found there directory

/-- Making the directories of a path adds the missing ones, when no file is in the way. -/
theorem Open.createDirs {base rest : List N} (opened : tree.Open)
    (there : ∃ node, tree.lookup base = some node ∧ node.isDirectory)
    (clear : ∀ front, front <+: base ++ rest → ∀ node, tree.lookup front = some node →
      node.isDirectory) :
    ∃ next, tree.createDirsFrom base rest = .ok next ∧ next.Open ∧
      ∀ other, next.lookup other =
        if tree.lookup other = none ∧ other <+: base ++ rest then some (.directory 0o700)
        else tree.lookup other := by
  induction rest generalizing tree base with
  | nil =>
      refine ⟨tree, rfl, opened, fun other => (if_neg ?_).symm⟩
      rintro ⟨missing, above⟩
      rw [List.append_nil] at above
      rcases there with ⟨node, found, _⟩
      by_cases same : other = base
      · rw [same, found] at missing
        cases missing
      · rcases directory_above (tree.held_of_lookup found) above same with ⟨_, upper, _⟩
        rw [upper] at missing
        cases missing
  | cons name rest ih =>
      have split : base ++ name :: rest = base ++ [name] ++ rest := by simp
      rw [split] at clear ⊢
      rw [createDirsFrom]
      cases here : tree.lookup (base ++ [name]) with
      | some node =>
          have directory := clear _ (List.prefix_append _ _) node here
          cases node with
          | file mode text => cases directory
          | directory mode => exact ih opened ⟨_, here, rfl⟩ clear
      | none =>
          have held : tree.Held (base ++ [name]) := .inr (by rwa [List.dropLast_concat])
          rcases opened.searchable.create here (opened.canCreate held)
            (.directory 0o700) with ⟨first, made⟩
          have lookups := (create_ok made).2.2
          have opened' := opened.create made fun _ => rfl
          have clear' : ∀ front, front <+: base ++ [name] ++ rest → ∀ node,
              first.lookup front = some node → node.isDirectory := by
            intro front above node found
            rw [lookups] at found
            split_ifs at found
            · rw [← Option.some.inj found]
              rfl
            · exact clear front above node found
          have there' : ∃ node, first.lookup (base ++ [name]) = some node ∧ node.isDirectory :=
            ⟨_, (lookups _).trans (if_pos rfl), rfl⟩
          rcases ih opened' there' clear' with ⟨next, rest', opened'', lookups'⟩
          refine ⟨next, ?_, opened'', fun other => ?_⟩
          · simp only [createDir, made]
            exact rest'
          · rw [lookups', lookups]
            by_cases same : other = base ++ [name]
            · rw [if_pos same, if_neg (by simp), same, here,
                if_pos ⟨rfl, List.prefix_append _ _⟩]
            · rw [if_neg same]

end FileTree
