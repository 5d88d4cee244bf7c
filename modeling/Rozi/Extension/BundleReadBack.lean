import Rozi.Extension.BundleStaged

/-!
Reading back what was staged, before and after it is sealed: every file once, with its executable
bit, except what goes by the name that is left out.
-/

namespace Rozi.Extension

def fileAt (path : List (List Char)) (mode : Nat) (contents : Bytes) : BundleFile :=
  { path := join path, executable := mode &&& 0o100 ≠ 0, contents }

structure Legible (tree : Tree) (sealed : Bool) : Prop where
  searchable : tree.Searchable
  readable : ∀ path node, tree.lookup path = some node → node.readable
  readOnly : sealed = true → ∀ path node, tree.lookup path = some node → node.mode &&& 0o222 = 0
  named : ∀ path node, tree.lookup path = some node → ∀ name ∈ path, name ≠ [] ∧ '/' ∉ name

/-- A file of the tree under a directory, other than one that is left out. -/
def Under (tree : Tree) (directory : List (List Char)) (file : BundleFile) : Prop :=
  ∃ path mode contents, tree.lookup path = some (.file mode contents) ∧ directory <+: path ∧
    (directory = [] → path.head? ≠ some modesFile) ∧ file = fileAt path mode contents

theorem gather_ok {visit : List Char → Except StageError (List BundleFile)}
    {names : List (List Char)} {Of : List Char → BundleFile → Prop} (distinct : names.Nodup)
    (visits : ∀ name ∈ names, ∃ files, visit name = .ok files ∧ files.Nodup ∧
      ∀ file, file ∈ files ↔ Of name file)
    (apart : ∀ name ∈ names, ∀ other ∈ names, ∀ file, Of name file → Of other file →
      name = other) :
    ∃ files, gather visit names = .ok files ∧ files.Nodup ∧
      ∀ file, file ∈ files ↔ ∃ name ∈ names, Of name file := by
  induction names with
  | nil => exact ⟨[], rfl, List.nodup_nil, by simp⟩
  | cons name rest ih =>
      rw [List.nodup_cons] at distinct
      rcases visits name List.mem_cons_self with ⟨first, visited, once, member⟩
      rcases ih distinct.2 (fun other inside => visits other (List.mem_cons_of_mem _ inside))
        (fun one inside two inside' => apart one (List.mem_cons_of_mem _ inside) two
          (List.mem_cons_of_mem _ inside')) with ⟨others, gathered, once', member'⟩
      refine ⟨first ++ others, ?_, ?_, ?_⟩
      · rw [gather]
        simp only [Checks.bind_eq_ok, Checks.pure_eq_ok]
        exact ⟨first, visited, others, gathered, rfl⟩
      · refine List.nodup_append.mpr ⟨once, once', ?_⟩
        rintro file inside _ inside' rfl
        rcases (member' file).mp inside' with ⟨other, listed, of⟩
        have same := apart name List.mem_cons_self other (List.mem_cons_of_mem _ listed) file
          ((member file).mp inside) of
        exact distinct.1 (same ▸ listed)
      · intro file
        rw [List.mem_append, member, member']
        simp only [List.mem_cons, exists_eq_or_imp]

theorem join_isEmpty {tree : Tree} {sealed : Bool} {directory : List (List Char)}
    {node : FileNode Bytes} (legible : Legible tree sealed)
    (found : tree.lookup directory = some node) :
    (join directory).isEmpty = true ↔ directory = [] := by
  cases directory with
  | nil => simp [join]
  | cons name rest =>
      have some := (legible.named _ node found name List.mem_cons_self).1
      cases name with
      | nil => exact absurd rfl some
      | cons c name => cases rest <;> simp [join, List.intercalate_cons_cons]

theorem relativeTo_join {tree : Tree} {sealed : Bool} {directory : List (List Char)}
    {node : FileNode Bytes} (legible : Legible tree sealed)
    (found : tree.lookup directory = some node) (name : List Char) :
    relativeTo (join directory) name = join (directory ++ [name]) := by
  unfold relativeTo
  by_cases root : directory = []
  · rw [if_pos ((join_isEmpty legible found).mpr root), root]
    simp [join]
  · rw [if_neg (mt (join_isEmpty legible found).mp root),
      join_append root (List.cons_ne_nil _ _)]
    simp [join]

def Below (tree : Tree) (directory : List (List Char)) (name : List Char) (file : BundleFile) :
    Prop :=
  ¬ (directory = [] ∧ name = modesFile) ∧
    ∃ path mode contents, tree.lookup path = some (.file mode contents) ∧
      directory ++ [name] <+: path ∧ file = fileAt path mode contents

theorem fileAt_injective {tree : Tree} {sealed : Bool} (legible : Legible tree sealed)
    {path path' : List (List Char)} {node node' : FileNode Bytes} {mode mode' : Nat}
    {contents contents' : Bytes} (found : tree.lookup path = some node)
    (found' : tree.lookup path' = some node') (some : path ≠ []) (some' : path' ≠ [])
    (same : fileAt path mode contents = fileAt path' mode' contents') : path = path' := by
  have joined := congrArg BundleFile.path same
  have plain := fun name member => (legible.named path node found name member).2
  have plain' := fun name member => (legible.named path' node' found' name member).2
  rw [← components_join some plain, ← components_join some' plain']
  exact congrArg components joined

theorem Below.name_eq {tree : Tree} {sealed : Bool} {directory : List (List Char)}
    {name other : List Char} {file : BundleFile} (legible : Legible tree sealed)
    (below : Below tree directory name file) (below' : Below tree directory other file) :
    name = other := by
  rcases below.2 with ⟨path, mode, contents, found, inside, rfl⟩
  rcases below'.2 with ⟨path', mode', contents', found', inside', same⟩
  have some : path ≠ [] := by
    rintro rfl
    exact absurd (List.prefix_nil.mp inside) (by simp)
  have some' : path' ≠ [] := by
    rintro rfl
    exact absurd (List.prefix_nil.mp inside') (by simp)
  have paths := fileAt_injective legible found found' some some' same
  rw [← paths] at inside'
  have one := List.prefix_of_prefix_length_le inside inside' (by simp)
  have equal := one.eq_of_length (by simp)
  exact List.singleton_injective (List.append_cancel_left equal)

theorem under_iff {tree : Tree} {directory : List (List Char)} {mode : Nat}
    (found : tree.lookup directory = some (.directory mode)) (file : BundleFile) :
    Under tree directory file ↔
      ∃ name ∈ (tree.names directory).insertionSort NameLe, Below tree directory name file := by
  constructor
  · rintro ⟨path, bits, contents, there, inside, kept, rfl⟩
    rcases inside with ⟨rest, rfl⟩
    cases rest with
    | nil =>
        rw [List.append_nil, found] at there
        cases there
    | cons name rest =>
        have above : directory ++ [name] <+: directory ++ name :: rest := ⟨rest, by simp⟩
        refine ⟨name, ?_, ?_, _, bits, contents, there, above, rfl⟩
        · rw [List.mem_insertionSort, FileTree.mem_names]
          by_cases last : directory ++ [name] = directory ++ name :: rest
          · rw [last, there]
            rfl
          · rcases FileTree.directory_above (tree.held_of_lookup there) above last with
              ⟨node, upper, _⟩
            rw [upper]
            rfl
        · rintro ⟨rfl, rfl⟩
          exact kept rfl rfl
  · rintro ⟨name, _, kept, path, bits, contents, there, inside, rfl⟩
    refine ⟨path, bits, contents, there, (List.prefix_append _ _).trans inside, ?_, rfl⟩
    rintro rfl skipped
    refine kept ⟨rfl, ?_⟩
    rcases inside with ⟨rest, rfl⟩
    exact Option.some.inj skipped

theorem orIo_ok {α : Type} {result : Except IoError α} {value : α} :
    orIo result = .ok value ↔ result = .ok value := by
  cases result <;> simp [orIo]

theorem collectEntry_ok {tree : Tree} {sealed : Bool} (legible : Legible tree sealed)
    {visit : List (List Char) → List Char → Except StageError (List BundleFile)}
    {directory : List (List Char)} {name : List Char} {mode : Nat}
    (found : tree.lookup directory = some (.directory mode))
    (listed : (tree.lookup (directory ++ [name])).isSome)
    (visits : ∀ mode, tree.lookup (directory ++ [name]) = some (.directory mode) →
      ∃ files, visit (directory ++ [name]) (join (directory ++ [name])) = .ok files ∧ files.Nodup ∧
        ∀ file, file ∈ files ↔ Under tree (directory ++ [name]) file) :
    ∃ files, collectEntry tree sealed visit directory (join directory) name = .ok files ∧
      files.Nodup ∧ ∀ file, file ∈ files ↔ Below tree directory name file := by
  unfold collectEntry
  split_ifs with skipped
  · rw [join_isEmpty legible found] at skipped
    exact ⟨[], rfl, List.nodup_nil, fun file => ⟨fun member => (List.not_mem_nil member).elim,
      fun below => absurd skipped below.1⟩⟩
  · rw [join_isEmpty legible found] at skipped
    rcases Option.isSome_iff_exists.mp listed with ⟨node, there⟩
    have checked : ∀ relative, checkSealed sealed relative node = .ok () := by
      intro relative
      unfold checkSealed
      rw [if_neg]
      rw [Bool.and_eq_true, not_and]
      intro on
      simp [legible.readOnly on _ node there]
    simp only [relativeTo_join legible found, Checks.bind_eq_ok, orIo_ok]
    cases node with
    | directory mode' =>
        rcases visits mode' there with ⟨files, visited, once, member⟩
        refine ⟨files, ⟨_, legible.searchable.metadata there, (), checked _, visited⟩, once, ?_⟩
        intro file
        rw [member]
        refine ⟨fun under => ⟨skipped, ?_⟩, fun below => ?_⟩
        · rcases under with ⟨path, bits, contents, at', inside, _, same⟩
          exact ⟨path, bits, contents, at', inside, same⟩
        · rcases below.2 with ⟨path, bits, contents, at', inside, same⟩
          exact ⟨path, bits, contents, at', inside, fun none => absurd none (by simp), same⟩
    | file mode' contents =>
        have read := legible.searchable.readFile there (legible.readable _ _ there)
        refine ⟨[fileAt (directory ++ [name]) mode' contents],
          ⟨_, legible.searchable.metadata there, (), checked _, ?_⟩, List.nodup_singleton _, ?_⟩
        · unfold readEntry
          simp only [Checks.bind_eq_ok, Checks.pure_eq_ok, orIo_ok]
          exact ⟨contents, read, rfl⟩
        · intro file
          rw [List.mem_singleton]
          constructor
          · rintro rfl
            exact ⟨skipped, _, mode', contents, there, List.prefix_rfl, rfl⟩
          · rintro ⟨_, path, bits, text, at', inside, rfl⟩
            by_cases last : directory ++ [name] = path
            · subst last
              rw [there, Option.some.injEq, FileNode.file.injEq] at at'
              rw [at'.1, at'.2]
            · rcases FileTree.directory_above (tree.held_of_lookup at') inside last with
                ⟨upper, above, isDirectory⟩
              rw [there, Option.some.injEq] at above
              rw [← above] at isDirectory
              cases isDirectory

theorem collectIn_ok {tree : Tree} {sealed : Bool} (legible : Legible tree sealed) {fuel mode : Nat}
    {directory : List (List Char)} (found : tree.lookup directory = some (.directory mode))
    (deep : ∀ path node, tree.lookup path = some node → directory <+: path →
      path.length < directory.length + fuel) :
    ∃ files, collectIn tree sealed fuel directory (join directory) = .ok files ∧ files.Nodup ∧
      ∀ file, file ∈ files ↔ Under tree directory file := by
  induction fuel generalizing directory mode with
  | zero => exact absurd (deep directory _ found List.prefix_rfl) (by simp)
  | succ fuel ih =>
      have listed := legible.searchable.readDir found (legible.readable _ _ found)
      have distinct : ((tree.names directory).insertionSort NameLe).Nodup :=
        (List.perm_insertionSort _ _).nodup_iff.mpr (FileTree.nodup_names directory)
      have visits : ∀ name ∈ (tree.names directory).insertionSort NameLe, ∃ files,
          collectEntry tree sealed (collectIn tree sealed fuel) directory (join directory) name =
            .ok files ∧ files.Nodup ∧ ∀ file, file ∈ files ↔ Below tree directory name file := by
        intro name member
        rw [List.mem_insertionSort, FileTree.mem_names] at member
        refine collectEntry_ok legible found member fun mode' there => ih there ?_
        intro path node at' inside
        have short := deep path node at' ((List.prefix_append _ _).trans inside)
        rw [List.length_append, List.length_singleton]
        omega
      rcases gather_ok distinct visits fun name _ other _ file below below' =>
        below.name_eq legible below' with ⟨files, gathered, once, member⟩
      refine ⟨files, ?_, once, fun file => ?_⟩
      · rw [collectIn]
        simp only [Checks.bind_eq_ok, orIo_ok]
        exact ⟨_, listed, gathered⟩
      · rw [member, under_iff found]

theorem collect_ok {tree : Tree} {sealed : Bool} (legible : Legible tree sealed) {mode : Nat}
    (root : tree.lookup [] = some (.directory mode)) :
    ∃ files, collect tree sealed = .ok files ∧ files.Nodup ∧
      ∀ file, file ∈ files ↔ Under tree [] file := by
  refine collectIn_ok legible root fun path node found _ => ?_
  have short := FileTree.length_le_depth found
  rw [List.length_nil]
  omega

/-! Sealing. -/

def sealedNode (node : FileNode Bytes) : FileNode Bytes :=
  match node with
  | .directory _ => .directory 0o500
  | .file _ _ => node.setMode (sealedMode node)

theorem sealedMode_cases (node : FileNode Bytes) : sealedMode node = 0o500 ∨ sealedMode node = 0o400 := by
  unfold sealedMode
  split_ifs
  · exact .inl rfl
  · exact .inr rfl

theorem sealedNode_sealedNode (node : FileNode Bytes) :
    sealedNode (sealedNode node) = sealedNode node := by
  cases node with
  | directory mode => rfl
  | file mode contents =>
      unfold sealedNode sealedMode FileNode.setMode FileNode.mode
      simp only
      split_ifs with executable kept kept
      · rfl
      · exact absurd (show 0o500 &&& 0o100 ≠ 0 by decide) kept
      · exact absurd (show 0o400 &&& 0o100 = 0 by decide) kept
      · rfl

/-- The nodes at the paths of `sealed` are sealed, and the others are as they were. -/
def Sealing (tree : Tree) (sealed : List (List Char) → Prop) (next : Tree) : Prop :=
  ∀ path, (sealed path → next.lookup path = (tree.lookup path).map sealedNode) ∧
    (¬ sealed path → next.lookup path = tree.lookup path)

theorem Sealing.trans {tree mid next : Tree} {first second : List (List Char) → Prop}
    (one : Sealing tree first mid) (two : Sealing mid second next) :
    Sealing tree (fun path => first path ∨ second path) next := by
  intro path
  by_cases done : first path
  · have before := (one path).1 done
    refine ⟨fun _ => ?_, fun not => absurd (.inl done) not⟩
    by_cases again : second path
    · rw [(two path).1 again, before, Option.map_map]
      congr 1
      funext node
      exact sealedNode_sealedNode node
    · rw [(two path).2 again, before]
  · have before := (one path).2 done
    refine ⟨fun some => ?_, fun not => ?_⟩
    · rw [(two path).1 (some.resolve_left done), before]
    · rw [(two path).2 fun after => not (.inr after), before]

theorem Sealing.congr {tree next : Tree} {first second : List (List Char) → Prop}
    (sealing : Sealing tree first next)
    (same : ∀ path node, tree.lookup path = some node → (first path ↔ second path)) :
    Sealing tree second next := by
  intro path
  cases found : tree.lookup path with
  | some node =>
      have one := sealing path
      rw [found, same path node found] at one
      exact one
  | none =>
      have none : next.lookup path = none := by
        by_cases done : first path
        · rw [(sealing path).1 done, found]
          rfl
        · rw [(sealing path).2 done, found]
      rw [none]
      exact ⟨fun _ => rfl, fun _ => rfl⟩

def Listable (tree : Tree) : Prop :=
  ∀ path node, tree.lookup path = some node → node.isDirectory → node.executable ∧ node.readable

theorem Listable.searchable {tree : Tree} (listable : Listable tree) : tree.Searchable :=
  fun path node found directory => (listable path node found directory).1

theorem Sealing.lookup {tree next : Tree} {sealed : List (List Char) → Prop}
    (sealing : Sealing tree sealed next) (path : List (List Char)) :
    next.lookup path = tree.lookup path ∨
      next.lookup path = (tree.lookup path).map sealedNode := by
  by_cases done : sealed path
  · exact .inr ((sealing path).1 done)
  · exact .inl ((sealing path).2 done)

theorem Sealing.listable {tree next : Tree} {sealed : List (List Char) → Prop}
    (sealing : Sealing tree sealed next) (listable : Listable tree) : Listable next := by
  intro path node found directory
  rcases sealing.lookup path with same | changed
  · rw [same] at found
    exact listable path node found directory
  · rw [changed, Option.map_eq_some_iff] at found
    rcases found with ⟨before, _, rfl⟩
    cases before with
    | file mode contents => cases directory
    | directory mode => simp [sealedNode, FileNode.executable, FileNode.readable, FileNode.mode]

theorem Sealing.directory {tree next : Tree} {sealed : List (List Char) → Prop}
    (sealing : Sealing tree sealed next) {path : List (List Char)} {mode : Nat}
    (found : tree.lookup path = some (.directory mode)) :
    ∃ mode', next.lookup path = some (.directory mode') := by
  rcases sealing.lookup path with same | changed
  · exact ⟨mode, same.trans found⟩
  · refine ⟨0o500, changed.trans ?_⟩
    rw [found]
    rfl

theorem Sealing.found {tree next : Tree} {sealed : List (List Char) → Prop}
    (sealing : Sealing tree sealed next) {path : List (List Char)} {node : FileNode Bytes}
    (found : next.lookup path = some node) : ∃ before, tree.lookup path = some before := by
  rcases sealing.lookup path with same | changed
  · exact ⟨node, same.symm.trans found⟩
  · rw [changed, Option.map_eq_some_iff] at found
    rcases found with ⟨before, there, _⟩
    exact ⟨before, there⟩

theorem sealing_of_setMode {tree next : Tree} {path : List (List Char)} {node : FileNode Bytes}
    {bits : Nat} (changed : tree.setMode path bits = .ok next) (found : tree.lookup path = some node)
    (sealed : node.setMode bits = sealedNode node) : Sealing tree (· = path) next := by
  rcases FileTree.setMode_ok changed with ⟨before, found', lookups⟩
  rw [found, Option.some.injEq] at found'
  subst found'
  intro other
  rw [lookups]
  constructor
  · rintro rfl
    rw [if_pos rfl, found, sealed]
    rfl
  · intro different
    rw [if_neg different]

/-- What `visit` does to the directories of a directory is done to all that lies under its names. -/
theorem forNames_sealing {tree : Tree} (listable : Listable tree)
    (visit : List (List Char) → Tree → Except StageError Tree) {directory : List (List Char)}
    {rest : List (List Char)} (listed : ∀ name ∈ rest, (tree.lookup (directory ++ [name])).isSome)
    (visits : ∀ name ∈ rest, ∀ done now mode, Sealing tree done now →
      now.lookup (directory ++ [name]) = some (.directory mode) →
      ∃ next, visit (directory ++ [name]) now = .ok next ∧
        Sealing now (directory ++ [name] <+: ·) next)
    {done : List (List Char) → Prop} {now : Tree} (sealing : Sealing tree done now) :
    ∃ next, forNames (sealEntry visit directory) now rest = .ok next ∧
      Sealing tree (fun path => done path ∨ ∃ name ∈ rest, directory ++ [name] <+: path) next := by
  induction rest generalizing now done with
  | nil => exact ⟨now, rfl, sealing.congr fun path _ _ => by simp⟩
  | cons name rest ih =>
      have listable' := sealing.listable listable
      rcases Option.isSome_iff_exists.mp (listed name List.mem_cons_self) with ⟨before, there⟩
      have now' : ∃ node, now.lookup (directory ++ [name]) = some node := by
        rcases sealing.lookup (directory ++ [name]) with same | changed
        · exact ⟨before, same.trans there⟩
        · exact ⟨sealedNode before, changed.trans (by rw [there]; rfl)⟩
      rcases now' with ⟨node, here⟩
      have one : ∃ next, sealEntry visit directory now name = .ok next ∧
          Sealing now (directory ++ [name] <+: ·) next := by
        unfold sealEntry
        simp only [Checks.bind_eq_ok, orIo_ok]
        cases node with
        | directory mode =>
            rcases visits name List.mem_cons_self done now mode sealing here with
              ⟨next, visited, under⟩
            exact ⟨next, ⟨_, listable'.searchable.metadata here, visited⟩, under⟩
        | file mode contents =>
            rcases listable'.searchable.setMode here (sealedMode (.file mode contents)) with
              ⟨next, changed⟩
            refine ⟨next, ⟨_, listable'.searchable.metadata here, orIo_ok.mpr changed⟩, ?_⟩
            refine (sealing_of_setMode changed here rfl).congr fun path other found => ?_
            refine ⟨fun same => same ▸ List.prefix_rfl, fun inside => ?_⟩
            -- nothing lies under a file
            by_contra different
            rcases FileTree.directory_above (now.held_of_lookup found) inside (Ne.symm different)
              with ⟨upper, above, isDirectory⟩
            rw [here, Option.some.injEq] at above
            rw [← above] at isDirectory
            cases isDirectory
      rcases one with ⟨first, entered, under⟩
      rcases ih (fun other member => listed other (List.mem_cons_of_mem _ member))
        (fun other member => visits other (List.mem_cons_of_mem _ member)) (sealing.trans under)
        with ⟨next, others, all⟩
      refine ⟨next, ?_, all.congr fun path _ _ => ?_⟩
      · rw [forNames]
        simp only [Checks.bind_eq_ok]
        exact ⟨first, entered, others⟩
      · simp only [List.mem_cons, exists_eq_or_imp, or_assoc]

theorem sealIn_ok {fuel mode : Nat} {tree : Tree} (listable : Listable tree)
    {directory : List (List Char)} (found : tree.lookup directory = some (.directory mode))
    (deep : ∀ path node, tree.lookup path = some node → directory <+: path →
      path.length < directory.length + fuel) :
    ∃ next, sealIn fuel directory tree = .ok next ∧ Sealing tree (directory <+: ·) next := by
  induction fuel generalizing tree directory mode with
  | zero => exact absurd (deep directory _ found List.prefix_rfl) (by simp)
  | succ fuel ih =>
      have read := listable.searchable.readDir found (listable _ _ found rfl).2
      have nothing : Sealing tree (fun _ => False) tree := fun path =>
        ⟨fun not => not.elim, fun _ => rfl⟩
      rcases forNames_sealing listable (sealIn fuel)
        (fun name member => FileTree.mem_names.mp member) (fun name _ done now mode' sealing here => by
          refine ih (sealing.listable listable) here fun path node at' inside => ?_
          rcases sealing.found at' with ⟨before, there⟩
          have short := deep path before there ((List.prefix_append _ _).trans inside)
          rw [List.length_append, List.length_singleton]
          omega) nothing with ⟨first, entered, under⟩
      rcases under.directory found with ⟨mode', here⟩
      rcases (under.listable listable).searchable.setMode here 0o500 with ⟨next, changed⟩
      refine ⟨next, ?_, ?_⟩
      · rw [sealIn]
        simp only [Checks.bind_eq_ok, orIo_ok]
        exact ⟨_, read, first, entered, changed⟩
      · refine (under.trans (sealing_of_setMode changed here rfl)).congr fun path node there => ?_
        constructor
        · rintro ((not | ⟨name, _, inside⟩) | rfl)
          · exact not.elim
          · exact (List.prefix_append _ _).trans inside
          · exact List.prefix_rfl
        · rintro ⟨rest, rfl⟩
          cases rest with
          | nil => exact .inr (List.append_nil _)
          | cons name rest =>
              have above : directory ++ [name] <+: directory ++ name :: rest := ⟨rest, by simp⟩
              refine .inl (.inr ⟨name, FileTree.mem_names.mpr ?_, above⟩)
              by_cases last : directory ++ [name] = directory ++ name :: rest
              · rw [last, there]
                rfl
              · rcases FileTree.directory_above (tree.held_of_lookup there) above last with
                  ⟨upper, here, _⟩
                rw [here]
                rfl

theorem sealTree_ok {tree : Tree} (listable : Listable tree) {mode : Nat}
    (root : tree.lookup [] = some (.directory mode)) :
    ∃ next, sealTree tree = .ok next ∧
      ∀ path, next.lookup path = (tree.lookup path).map sealedNode := by
  have deep : ∀ path node, tree.lookup path = some node → [] <+: path →
      path.length < ([] : List (List Char)).length + (tree.depth + 1) := by
    intro path node found _
    have short := FileTree.length_le_depth found
    rw [List.length_nil]
    omega
  rcases sealIn_ok listable root deep with ⟨next, sealed, all⟩
  exact ⟨next, sealed, fun path => (all path).1 List.nil_prefix⟩

end Rozi.Extension
