import Rozi.Extension.BundleArchive
import Mathlib.Algebra.Order.BigOperators.Group.List

/-!
The digest of a bundle names its files: whatever the order they are listed in, two bundles of one
digest hold the same files.
-/

namespace Rozi.Extension

/-! Hex. -/

theorem hexDigit_injOn {first second : Nat} (small : first < 16) (small' : second < 16)
    (same : hexDigit first = hexDigit second) : first = second := by
  have all : ∀ first second : Fin 16, hexDigit first = hexDigit second → first = second := by
    decide
  exact congrArg Fin.val (all ⟨first, small⟩ ⟨second, small'⟩ same)

theorem hexByte_injective : Function.Injective hexByte := by
  intro first second same
  unfold hexByte at same
  simp only [List.cons.injEq, and_true] at same
  have bound := first.toNat_lt
  have bound' := second.toNat_lt
  have high := hexDigit_injOn (by omega) (by omega) same.1
  have low := hexDigit_injOn (by omega) (by omega) same.2
  apply UInt8.toNat_inj.mp
  omega

theorem hex_injective {first second : Bytes}
    (same : first.flatMap hexByte = second.flatMap hexByte) : first = second := by
  induction first generalizing second with
  | nil =>
      cases second with
      | nil => rfl
      | cons byte second => simp [hexByte] at same
  | cons byte first ih =>
      cases second with
      | nil => simp [hexByte] at same
      | cons byte' second =>
          rw [List.flatMap_cons, List.flatMap_cons] at same
          have parts := List.append_inj same rfl
          rw [hexByte_injective parts.1, ih parts.2]

variable {sha256 : Bytes → Bytes}

theorem hexDigest_injective (injective : Function.Injective sha256) :
    Function.Injective (hexDigest sha256) := fun _ _ same => injective (hex_injective same)

/-! Bundles. -/

namespace Bundle

theorem canonical (bundle : Bundle sha256) :
    Canonical bundle.files ∧ bundle.size = contentBytes bundle.files :=
  (checkFiles_ok bundle.sorted).mp bundle.checked

theorem ext_files {first second : Bundle sha256} (same : first.files = second.files) :
    first = second := by
  have sizes : first.size = second.size := by
    rw [first.canonical.2, second.canonical.2, same]
  have digests : first.digest = second.digest := by
    rw [first.named, second.named, same]
  cases first
  cases second
  simp only at same sizes digests
  subst same sizes digests
  rfl

theorem fromFiles_ok {files : List BundleFile} {bundle : Bundle sha256} :
    fromFiles sha256 files = .ok bundle ↔ bundle.files = files.insertionSort PathLe := by
  unfold fromFiles
  simp only
  split
  · rename_i error failed
    constructor
    · intro same
      cases same
    · intro same
      rw [← same, bundle.checked] at failed
      cases failed
  · rename_i size checked
    rw [Except.ok.injEq]
    constructor
    · rintro rfl
      rfl
    · intro same
      exact ext_files same.symm

theorem perm_of_fromFiles {files : List BundleFile} {bundle : Bundle sha256}
    (accepted : fromFiles sha256 files = .ok bundle) : bundle.files.Perm files := by
  rw [fromFiles_ok.mp accepted]
  exact List.perm_insertionSort PathLe files

theorem nodup_paths (bundle : Bundle sha256) : (bundle.files.map (·.path)).Nodup := by
  rw [List.Nodup, List.pairwise_map]
  exact bundle.canonical.1.ordered.imp And.right

theorem sort_eq_of_perm {files : List BundleFile} (bundle : Bundle sha256)
    (perm : files.Perm bundle.files) : files.insertionSort PathLe = bundle.files := by
  have sorted := List.pairwise_insertionSort PathLe files
  have whole := (List.perm_insertionSort PathLe files).trans perm
  refine List.Perm.eq_of_pairwise (fun first second member member' before after => ?_) sorted
    bundle.sorted whole
  exact List.inj_on_of_nodup_map bundle.nodup_paths (whole.mem_iff.mp member) member'
    (path_eq_of_le before after)

/-- The files of a bundle make that bundle, in whatever order they are listed. -/
theorem fromFiles_of_perm {files : List BundleFile} (bundle : Bundle sha256)
    (perm : files.Perm bundle.files) : fromFiles sha256 files = .ok bundle :=
  fromFiles_ok.mpr (bundle.sort_eq_of_perm perm).symm

theorem writable (bundle : Bundle sha256) : ∀ file ∈ bundle.files, Writable file := by
  intro file member
  have canonical := bundle.canonical.1
  refine ⟨(canonical.plain file member).zero_not_mem, ?_⟩
  have one : file.contents.length ≤ contentBytes bundle.files :=
    List.le_sum_of_mem (List.mem_map.mpr ⟨file, member, rfl⟩)
  have limit : maxBundleBytes ≤ u64Max := by decide
  exact one.trans (canonical.small.trans limit)

theorem decode_archive (bundle : Bundle sha256) : decode bundle.archive = .ok bundle.files :=
  decode_encode bundle.writable bundle.canonical.1.few

theorem fromArchive_ok {bytes : Bytes} {expected : List Char} {bundle : Bundle sha256} :
    fromArchive sha256 bytes expected = .ok bundle ↔
      ∃ files, decode bytes = .ok files ∧ fromFiles sha256 files = .ok bundle ∧
        bundle.digest = expected := by
  have refused : ∀ (result : Except BundleError (Bundle sha256)) (found : Bundle sha256),
      orRefused result = .ok found ↔ result = .ok found := by
    intro result found
    cases result <;> simp [orRefused]
  unfold fromArchive
  simp only [Checks.bind_eq_ok, refused]
  constructor
  · rintro ⟨files, decoded, found, accepted, checked⟩
    split_ifs at checked with same
    cases checked
    exact ⟨files, decoded, accepted, same⟩
  · rintro ⟨files, decoded, accepted, rfl⟩
    exact ⟨files, decoded, bundle, accepted, if_pos rfl⟩

theorem fromArchive_safe (bytes : Bytes) (expected : List Char) :
    fromArchive sha256 bytes expected ≠ .error .panicked := by
  unfold fromArchive
  refine bind_safe (decode_safe bytes) fun files _ => bind_safe ?_ fun bundle _ => ?_
  · cases fromFiles sha256 files <;> simp [orRefused]
  · split_ifs <;> simp

theorem fromArchive_archive (bundle : Bundle sha256) :
    fromArchive sha256 bundle.archive bundle.digest = .ok bundle :=
  fromArchive_ok.mpr ⟨bundle.files, bundle.decode_archive, bundle.fromFiles_of_perm (.refl _), rfl⟩

theorem files_eq_of_digest (injective : Function.Injective sha256) {first second : Bundle sha256}
    (same : first.digest = second.digest) : first.files = second.files := by
  rw [first.named, second.named] at same
  have archives := hexDigest_injective injective same
  have decoded := first.decode_archive
  unfold archive at decoded
  rw [archives] at decoded
  exact Except.ok.inj (decoded.symm.trans second.decode_archive)

/-- A digest names the files of a bundle. An accepted bundle is read back from its archive, bundles
of one digest were made of the same files, and from any bytes comes an error or a bundle: the bytes
were the archive of its files, and its digest is the expected one. -/
theorem digest_names (injective : Function.Injective sha256) :
    (∀ files bundle, fromFiles sha256 files = .ok bundle →
      bundle.files.Perm files ∧ bundle.files.Pairwise PathLt ∧
        decode bundle.archive = .ok bundle.files ∧
        fromArchive sha256 bundle.archive bundle.digest = .ok bundle ∧
        ∀ files' bundle', fromFiles sha256 files' = .ok bundle' →
          (bundle.digest = bundle'.digest ↔ files.Perm files')) ∧
      ∀ bytes : Bytes, decode bytes ≠ .error .panicked ∧
        (∀ files, decode bytes = .ok files → bytes = encode files) ∧
        ∀ expected, fromArchive sha256 bytes expected ≠ .error .panicked ∧
          ∀ bundle, fromArchive sha256 bytes expected = .ok bundle →
            bundle.digest = expected ∧
              ∃ files, bytes = encode files ∧ fromFiles sha256 files = .ok bundle := by
  constructor
  · intro files bundle accepted
    have perm := perm_of_fromFiles accepted
    refine ⟨perm, bundle.canonical.1.ordered, bundle.decode_archive, bundle.fromArchive_archive, ?_⟩
    intro files' bundle' accepted'
    have perm' := perm_of_fromFiles accepted'
    constructor
    · intro same
      rw [files_eq_of_digest injective same] at perm
      exact perm.symm.trans perm'
    · intro same
      have again := bundle.fromFiles_of_perm (same.symm.trans perm.symm)
      rw [accepted', Except.ok.injEq] at again
      rw [again]
  · intro bytes
    refine ⟨decode_safe bytes, fun files decoded => (encode_of_decode decoded).1, ?_⟩
    intro expected
    refine ⟨fromArchive_safe bytes expected, fun bundle taken => ?_⟩
    rcases fromArchive_ok.mp taken with ⟨files, decoded, accepted, named⟩
    exact ⟨named, files, (encode_of_decode decoded).1, accepted⟩

def foundFiles : List BundleFile :=
  [{ path := ['l', 'i', 'b', '/', 'd', 'e', 'e', 'p', '/', 'u', 't', 'i', 'l']
     executable := false
     contents := [] },
    { path := ['b', 'i', 'n', '/', 'r', 'u', 'n'], executable := true, contents := [0x23, 0x21] },
    { path := ['R', 'E', 'A', 'D', 'M', 'E'], executable := false, contents := [0x68, 0x69] }]

def foundSha (bytes : Bytes) : Bytes :=
  if bytes = encode foundFiles.reverse then
    [0x81, 0xb1, 0xc7, 0xe5, 0xd2, 0x3c, 0xdf, 0x7d, 0x24, 0xf2, 0xca, 0x94, 0xb9, 0x2a, 0xba,
      0xba, 0x72, 0xa2, 0x75, 0xc7, 0x3c, 0x84, 0x90, 0xcd, 0x97, 0xb8, 0xc3, 0x54, 0x3c, 0x03,
      0x7c, 0xd9]
  else List.replicate 33 0 ++ bytes

theorem foundSha_injective : Function.Injective foundSha := by
  intro first second same
  unfold foundSha at same
  split_ifs at same with one two two
  · rw [one, two]
  · have lengths := congrArg List.length same
    rw [List.length_append, List.length_replicate] at lengths
    simp only [List.length_cons, List.length_nil] at lengths
    omega
  · have lengths := congrArg List.length same
    rw [List.length_append, List.length_replicate] at lengths
    simp only [List.length_cons, List.length_nil] at lengths
    omega
  · exact List.append_cancel_left same

def foundBundle : Bundle foundSha where
  files := foundFiles.reverse
  digest := hexDigest foundSha (encode foundFiles.reverse)
  size := 4
  checked := by decide +kernel
  sorted := by decide +kernel
  named := rfl

theorem digest_names_found : fromFiles foundSha foundFiles = .ok foundBundle ∧
    foundBundle.digest.take 8 = ['8', '1', 'b', '1', 'c', '7', 'e', '5'] ∧
    decode foundBundle.archive = .ok foundFiles.reverse ∧
    fromArchive foundSha foundBundle.archive foundBundle.digest = .ok foundBundle ∧
    ∀ fewer, fromFiles foundSha foundFiles.tail = .ok fewer →
      foundBundle.digest ≠ fewer.digest := by
  have accepted : fromFiles foundSha foundFiles = .ok foundBundle :=
    foundBundle.fromFiles_of_perm foundFiles.reverse_perm.symm
  have named := (digest_names foundSha_injective).1 _ _ accepted
  refine ⟨accepted, ?_, named.2.2.1, named.2.2.2.1, ?_⟩
  · change (hexDigest foundSha (encode foundFiles.reverse)).take 8 = _
    decide +kernel
  · intro fewer taken same
    have perm := (named.2.2.2.2 _ fewer taken).mp same
    exact absurd perm.length_eq (by decide)

end Bundle

end Rozi.Extension
