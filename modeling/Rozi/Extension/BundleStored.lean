import Rozi.Extension.BundleReadBack

/-!
An accepted bundle is staged whole exactly when no file of it is the directory of another and none
goes by the name that is left out.
-/

namespace Rozi.Extension

structure Shows (files : List BundleFile) (tree : Tree) : Prop where
  there : ∀ file ∈ files, ∃ mode,
    tree.lookup (components file.path) = some (.file mode file.contents) ∧
      decide (mode &&& 0o100 ≠ 0) = file.executable
  only : ∀ path mode contents, tree.lookup path = some (.file mode contents) →
    ∃ file ∈ files, path = components file.path

theorem Shows.under {files : List BundleFile} {tree : Tree} (shows : Shows files tree)
    (file : BundleFile) : Under tree [] file ↔ file ∈ files ∧ ¬ Skipped file := by
  constructor
  · rintro ⟨path, mode, contents, found, _, kept, rfl⟩
    rcases shows.only path mode contents found with ⟨file, member, rfl⟩
    rcases shows.there file member with ⟨mode', found', executable⟩
    rw [found, Option.some.injEq, FileNode.file.injEq] at found'
    have same : fileAt (components file.path) mode contents = file := by
      unfold fileAt
      rw [join_components, found'.1, executable, found'.2]
    rw [same]
    exact ⟨member, kept rfl⟩
  · rintro ⟨member, kept⟩
    rcases shows.there file member with ⟨mode, found, executable⟩
    refine ⟨_, mode, file.contents, found, List.nil_prefix, fun _ => kept, ?_⟩
    unfold fileAt
    rw [join_components, executable]

theorem Shows.collected {files : List BundleFile} {tree : Tree} {sealed : Bool} {mode : Nat}
    (shows : Shows files tree) (distinct : files.Nodup) (legible : Legible tree sealed)
    (root : tree.lookup [] = some (.directory mode)) :
    ∃ found, collect tree sealed = .ok found ∧ found.Perm (files.filter (¬ Skipped ·)) := by
  rcases collect_ok legible root with ⟨found, read, once, member⟩
  refine ⟨found, read, (List.perm_ext_iff_of_nodup once (distinct.filter _)).mpr fun file => ?_⟩
  rw [member, shows.under, List.mem_filter, decide_eq_true_eq]

/-! The tree before and after it is sealed. -/

section written

variable {files : List BundleFile} {mode : BundleFile → Nat} {tree : Tree}
  (holds : Holds files mode tree) (modes : ∀ file ∈ files, mode file = pendingMode file)

include holds modes

theorem shows_of_holds : Shows files tree := by
  constructor
  · intro file member
    refine ⟨_, holds.there file member, ?_⟩
    rw [modes file member]
    unfold pendingMode
    cases file.executable <;> rfl
  · intro path bits contents found
    rcases holds.only path _ found with ⟨directory, _⟩ | named
    · cases directory
    · exact named

theorem mode_of_holds {path : List (List Char)} {node : FileNode Bytes}
    (found : tree.lookup path = some node) :
    node = .directory 0o700 ∨ ∃ file contents, node = .file (pendingMode file) contents := by
  rcases holds.only path node found with ⟨directory, _⟩ | ⟨file, member, rfl⟩
  · exact .inl (holds.opened path node found directory)
  · rw [holds.there file member, modes file member] at found
    exact .inr ⟨file, file.contents, (Option.some.inj found).symm⟩

theorem readable_of_holds {path : List (List Char)} {node : FileNode Bytes}
    (found : tree.lookup path = some node) : node.readable := by
  rcases mode_of_holds holds modes found with rfl | ⟨file, contents, rfl⟩
  · simp [FileNode.readable, FileNode.mode]
  · unfold pendingMode
    split_ifs <;> simp [FileNode.readable, FileNode.mode]

omit modes in
theorem named_of_holds (plain : ∀ file ∈ files, PlainPath file.path) {path : List (List Char)}
    {node : FileNode Bytes} (found : tree.lookup path = some node) :
    ∀ name ∈ path, name ≠ [] ∧ '/' ∉ name := by
  have inside : path = [] ∨ ∃ file ∈ files, path <+: components file.path := by
    rcases holds.only path node found with ⟨_, above⟩ | ⟨file, member, rfl⟩
    · exact above
    · exact .inr ⟨file, member, List.prefix_rfl⟩
  intro name member
  rcases inside with rfl | ⟨file, listed, above⟩
  · cases member
  · have component := above.subset member
    exact ⟨((plain file listed).plain name component).named.1,
      slash_not_mem_components component⟩

theorem legible_of_holds (plain : ∀ file ∈ files, PlainPath file.path) : Legible tree false where
  searchable := holds.opened.searchable
  readable := fun _ _ found => readable_of_holds holds modes found
  readOnly := fun on => absurd on Bool.false_ne_true
  named := fun _ _ found => named_of_holds holds plain found

theorem listable_of_holds : Listable tree := fun path node found directory =>
  ⟨holds.opened.searchable path node found directory, readable_of_holds holds modes found⟩

variable {last : Tree} (lookups : ∀ path, last.lookup path = (tree.lookup path).map sealedNode)

include lookups

theorem shows_of_sealed : Shows files last := by
  have before := shows_of_holds holds modes
  constructor
  · intro file member
    rcases before.there file member with ⟨bits, found, executable⟩
    refine ⟨sealedMode (.file bits file.contents), ?_, ?_⟩
    · rw [lookups, found]
      rfl
    · rw [← executable]
      unfold sealedMode FileNode.mode
      simp only
      split_ifs with bit
      · rw [decide_eq_true bit]
        rfl
      · rw [decide_eq_false bit]
        rfl
  · intro path bits contents found
    rw [lookups, Option.map_eq_some_iff] at found
    rcases found with ⟨node, there, changed⟩
    cases node with
    | directory mode => cases changed
    | file mode text => exact before.only path mode text there

omit modes in
theorem legible_of_sealed (plain : ∀ file ∈ files, PlainPath file.path) : Legible last true := by
  have back : ∀ path node, last.lookup path = some node →
      ∃ before, tree.lookup path = some before ∧ node = sealedNode before := by
    intro path node found
    rw [lookups, Option.map_eq_some_iff] at found
    rcases found with ⟨before, there, same⟩
    exact ⟨before, there, same.symm⟩
  refine ⟨?_, ?_, ?_, ?_⟩
  · intro path node found directory
    rcases back path node found with ⟨before, _, rfl⟩
    cases before with
    | directory mode => simp [sealedNode, FileNode.executable, FileNode.mode]
    | file mode contents => cases directory
  · intro path node found
    rcases back path node found with ⟨before, _, rfl⟩
    cases before with
    | directory mode => simp [sealedNode, FileNode.readable, FileNode.mode]
    | file mode contents =>
        unfold sealedNode FileNode.readable FileNode.setMode FileNode.mode
        rcases sealedMode_cases (.file mode contents) with bits | bits <;> simp [bits]
  · intro _ path node found
    rcases back path node found with ⟨before, _, rfl⟩
    cases before with
    | directory mode => simp [sealedNode, FileNode.mode]
    | file mode contents =>
        unfold sealedNode FileNode.setMode FileNode.mode
        rcases sealedMode_cases (.file mode contents) with bits | bits <;> simp [bits]
  · intro path node found
    rcases back path node found with ⟨before, there, _⟩
    exact named_of_holds holds plain there

end written

/-! Bundles. -/

variable {sha256 : Bytes → Bytes}

def Stored (bundle : Bundle sha256) : Prop :=
  ∃ written, writeBundle FileTree.empty bundle.files = .ok written ∧
    (∃ found, collect written false = .ok found ∧ found.Perm bundle.files) ∧
    verify sha256 written bundle.digest false = .ok () ∧
    ∃ last, sealTree written = .ok last ∧
      (∃ found, collect last true = .ok found ∧ found.Perm bundle.files) ∧
      verify sha256 last bundle.digest true = .ok ()

theorem verify_of_collect (bundle : Bundle sha256) {tree : Tree} {sealed : Bool}
    {found : List BundleFile} (read : collect tree sealed = .ok found)
    (same : found.Perm bundle.files) : verify sha256 tree bundle.digest sealed = .ok () := by
  unfold verify
  rw [read]
  simp only [Checks.bind_eq_ok]
  refine ⟨found, rfl, bundle, ?_, if_pos rfl⟩
  rw [bundle.fromFiles_of_perm same]
  rfl

theorem Bundle.distinct (bundle : Bundle sha256) : ∀ first ∈ bundle.files, ∀ second ∈ bundle.files,
    first.path = second.path → first = second :=
  fun _ member _ member' => List.inj_on_of_nodup_map bundle.nodup_paths member member'

theorem Bundle.nodup (bundle : Bundle sha256) : bundle.files.Nodup :=
  List.Nodup.of_map _ bundle.nodup_paths

theorem Bundle.beside (bundle : Bundle sha256) (apart : AllApart bundle.files) :
    bundle.files.Pairwise Beside := by
  refine List.Pairwise.imp_of_mem (fun member member' before => ?_) bundle.canonical.1.ordered
  constructor
  · intro above
    have inside := isInside_iff.mpr ⟨above, before.2⟩
    rw [apart _ member _ member'] at inside
    cases inside
  · intro above
    have inside := isInside_iff.mpr ⟨above, before.2.symm⟩
    rw [apart _ member' _ member] at inside
    cases inside

/-- A bundle whose files lie apart is written, sealed and read back, but for what is left out. -/
theorem staged_of_apart (bundle : Bundle sha256) (apart : AllApart bundle.files) :
    ∃ written, writeBundle FileTree.empty bundle.files = .ok written ∧
      (∃ found, collect written false = .ok found ∧
        found.Perm (bundle.files.filter (¬ Skipped ·))) ∧
      ∃ last, sealTree written = .ok last ∧
        ∃ found, collect last true = .ok found ∧
          found.Perm (bundle.files.filter (¬ Skipped ·)) := by
  have plain := bundle.canonical.1.plain
  rcases writeBundle_holds (bundle.beside apart) bundle.distinct with
    ⟨written, wrote, mode, holds, modes⟩
  rcases sealTree_ok (listable_of_holds holds modes) holds.root with ⟨last, sealed, lookups⟩
  have root : last.lookup [] = some (.directory 0o500) := by
    rw [lookups, holds.root]
    rfl
  exact ⟨written, wrote,
    (shows_of_holds holds modes).collected bundle.nodup (legible_of_holds holds modes plain)
      holds.root,
    last, sealed,
    (shows_of_sealed holds modes lookups).collected bundle.nodup
      (legible_of_sealed holds lookups plain) root⟩

/-- An accepted bundle is stored and verified if and only if no file is the directory of another and
none is left out. -/
theorem stored_iff (files : List BundleFile) (bundle : Bundle sha256)
    (accepted : Bundle.fromFiles sha256 files = .ok bundle) :
    Stored bundle ↔ AllApart files ∧ ∀ file ∈ files, ¬ Skipped file := by
  have same : ∀ file, file ∈ bundle.files ↔ file ∈ files := fun _ =>
    (Bundle.perm_of_fromFiles accepted).mem_iff
  have listed : (AllApart files ∧ ∀ file ∈ files, ¬ Skipped file) ↔
      AllApart bundle.files ∧ ∀ file ∈ bundle.files, ¬ Skipped file := by
    unfold AllApart
    simp only [same]
  rw [listed]
  constructor
  · rintro ⟨written, wrote, ⟨found, read, whole⟩, _⟩
    have apart := allApart_of_writeBundle wrote
    refine ⟨apart, fun file member => ?_⟩
    rcases staged_of_apart bundle apart with ⟨written', wrote', ⟨found', read', kept⟩, _⟩
    rw [wrote, Except.ok.injEq] at wrote'
    subst wrote'
    rw [read, Except.ok.injEq] at read'
    subst read'
    have back := kept.mem_iff.mp (whole.mem_iff.mpr member)
    rw [List.mem_filter, decide_eq_true_eq] at back
    exact back.2
  · rintro ⟨apart, none⟩
    have all : bundle.files.filter (¬ Skipped ·) = bundle.files :=
      List.filter_eq_self.mpr fun file member => decide_eq_true (none file member)
    rcases staged_of_apart bundle apart with
      ⟨written, wrote, ⟨found, read, kept⟩, last, sealed, found', read', kept'⟩
    rw [all] at kept kept'
    exact ⟨written, wrote, ⟨found, read, kept⟩, verify_of_collect bundle read kept, last, sealed,
      ⟨found', read', kept'⟩, verify_of_collect bundle read' kept'⟩

theorem stored_iff_found : Bundle.fromFiles Bundle.foundSha Bundle.foundFiles =
    .ok Bundle.foundBundle ∧ Stored Bundle.foundBundle := by
  have accepted : Bundle.fromFiles Bundle.foundSha Bundle.foundFiles = .ok Bundle.foundBundle :=
    Bundle.foundBundle.fromFiles_of_perm Bundle.foundFiles.reverse_perm.symm
  refine ⟨accepted, (stored_iff _ _ accepted).mpr ⟨?_, ?_⟩⟩
  · unfold AllApart
    decide +kernel
  · decide +kernel

/-- `a`, `a-b` and `a/c`: the second lies between the file and what is inside it. -/
def shadowedFiles : List BundleFile :=
  [{ path := ['a'], executable := false, contents := [] },
    { path := ['a', '-', 'b'], executable := false, contents := [] },
    { path := ['a', '/', 'c'], executable := false, contents := [] }]

/-- They are accepted, and cannot be written. -/
theorem shadowed_accepted : ∃ bundle : Bundle Bundle.foundSha,
    Bundle.fromFiles Bundle.foundSha shadowedFiles = .ok bundle ∧ ¬ Stored bundle := by
  have checked : checkFiles shadowedFiles = .ok 0 := by decide +kernel
  have sorted : shadowedFiles.Pairwise PathLe := by decide +kernel
  have accepted : Bundle.fromFiles Bundle.foundSha shadowedFiles = .ok
      { files := shadowedFiles
        digest := hexDigest Bundle.foundSha (encode shadowedFiles)
        size := 0
        checked
        sorted
        named := rfl } := Bundle.fromFiles_ok.mpr (List.Pairwise.insertionSort_eq sorted).symm
  refine ⟨_, accepted, ?_⟩
  rintro ⟨written, wrote, _⟩
  have apart := allApart_of_writeBundle wrote
  have inside := apart _ List.mem_cons_self _ (List.mem_cons_of_mem _ (List.mem_cons_of_mem _
    List.mem_cons_self))
  revert inside
  decide +kernel

end Rozi.Extension
