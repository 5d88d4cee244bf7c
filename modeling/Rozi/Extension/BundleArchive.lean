import Rozi.Extension.Bundle

/-!
What the archive of a bundle says: reading it gives the files back, and it is the only archive that
does. Reading never slices or allocates out of range, whatever the bytes are.
-/

namespace Rozi.Extension

/-! What an accepted list of files is. -/

/-- A component that every host can use as a file name. -/
structure PlainComponent (component : List Char) : Prop where
  named : component ≠ [] ∧ component ≠ ['.'] ∧ component ≠ ['.', '.']
  usable : ∀ c ∈ component, c ≠ '\\' ∧ c ≠ ':' ∧ c ≠ '\x00' ∧ isControl c = false

theorem validateComponents_ok {path : List Char} {parts : List (List Char)} :
    validateComponents path parts = .ok () ↔ ∀ component ∈ parts, PlainComponent component := by
  induction parts with
  | nil => simp [validateComponents]
  | cons component rest ih =>
      rw [validateComponents, List.forall_mem_cons]
      split_ifs with relative unusable
      · constructor
        · intro ok
          cases ok
        · rintro ⟨plain, _⟩
          rcases relative with same | same | same
          · exact absurd same plain.named.1
          · exact absurd same plain.named.2.1
          · exact absurd same plain.named.2.2
      · constructor
        · intro ok
          cases ok
        · rintro ⟨plain, _⟩
          rw [Bool.or_eq_true, List.any_eq_true, List.any_eq_true] at unusable
          rcases unusable with ⟨c, member, bad⟩ | ⟨c, member, bad⟩
          · have usable := plain.usable c member
            simp [usable] at bad
          · rw [(plain.usable c member).2.2.2] at bad
            cases bad
      · rw [ih]
        refine ⟨fun all => ⟨⟨by simpa using relative, fun c member => ?_⟩, all⟩, And.right⟩
        simp only [Bool.or_eq_true, List.any_eq_true, not_or, not_exists, not_and,
          decide_eq_true_eq, Bool.not_eq_true] at unusable
        exact ⟨(unusable.1 c member).1.1, (unusable.1 c member).1.2, (unusable.1 c member).2,
          unusable.2 c member⟩

structure PlainPath (path : List Char) : Prop where
  some : path ≠ []
  plain : ∀ component ∈ components path, PlainComponent component

theorem validateRelativePath_ok {path : List Char} {done : Unit} :
    validateRelativePath path = .ok done ↔ PlainPath path := by
  unfold validateRelativePath
  split_ifs with empty
  · rw [List.isEmpty_iff] at empty
    refine ⟨fun ok => ?_, fun plain => absurd empty plain.some⟩
    cases ok
  · rw [List.isEmpty_iff] at empty
    rw [validateComponents_ok]
    exact ⟨fun all => ⟨empty, all⟩, PlainPath.plain⟩

theorem mem_components {path : List Char} {c : Char} (member : c ∈ path) :
    c = '/' ∨ ∃ component ∈ components path, c ∈ component := by
  have whole : ['/'].intercalate (path.splitOn '/') = path := List.intercalate_splitOn '/'
  rw [← whole] at member
  unfold components
  generalize path.splitOn '/' = parts at member
  induction parts with
  | nil => cases member
  | cons first rest ih =>
      cases rest with
      | nil =>
          rw [List.intercalate_singleton] at member
          exact .inr ⟨first, List.mem_cons_self, member⟩
      | cons second rest =>
          rw [List.intercalate_cons_cons] at member
          rcases List.mem_append.mp member with front | back
          · rcases List.mem_append.mp front with front | separator
            · exact .inr ⟨first, List.mem_cons_self, front⟩
            · exact .inl (List.mem_singleton.mp separator)
          · rcases ih back with separator | ⟨component, inside, found⟩
            · exact .inl separator
            · exact .inr ⟨component, List.mem_cons_of_mem _ inside, found⟩

theorem PlainPath.zero_not_mem {path : List Char} (plain : PlainPath path) :
    (0 : UInt8) ∉ Utf8.encode path := by
  intro zero
  rcases mem_components (Utf8.zero_mem_encode zero) with separator | ⟨component, inside, found⟩
  · cases separator
  · exact ((plain.plain component inside).usable _ found).2.2.1 rfl

def contentBytes (files : List BundleFile) : Nat := (files.map (·.contents.length)).sum

theorem checkPaths_ok {files : List BundleFile} {start size : Nat} (small : start ≤ u64Max) :
    checkPaths start files = .ok size ↔
      (∀ file ∈ files, PlainPath file.path) ∧ size = min (start + contentBytes files) u64Max := by
  induction files generalizing start with
  | nil =>
      simp only [checkPaths, Except.ok.injEq, contentBytes, List.map_nil, List.sum_nil,
        Nat.add_zero, Nat.min_eq_left small, List.not_mem_nil, false_imp_iff, implies_true,
        true_and]
      exact eq_comm
  | cons file rest ih =>
      rw [checkPaths, Checks.bind_eq_ok]
      simp only [validateRelativePath_ok, ih (Nat.min_le_right _ _), List.forall_mem_cons,
        contentBytes, List.map_cons, List.sum_cons]
      have sum : min (min (start + file.contents.length) u64Max +
          (rest.map (·.contents.length)).sum) u64Max =
          min (start + (file.contents.length + (rest.map (·.contents.length)).sum)) u64Max := by
        omega
      rw [sum]
      constructor
      · rintro ⟨_, plain, others, same⟩
        exact ⟨⟨plain, others⟩, same⟩
      · rintro ⟨⟨plain, others⟩, same⟩
        exact ⟨(), plain, others, same⟩

def PathLt (first second : BundleFile) : Prop := PathLe first second ∧ first.path ≠ second.path

theorem path_eq_of_le {first second : BundleFile} (before : PathLe first second)
    (after : PathLe second first) : first.path = second.path :=
  Utf8.encode_injective (List.le_antisymm before after)

instance : IsTrans BundleFile PathLt := by
  refine ⟨fun first second third before after => ⟨List.le_trans before.1 after.1, fun same => ?_⟩⟩
  refine before.2 (path_eq_of_le before.1 ?_)
  have back := after.1
  unfold PathLe at back ⊢
  rw [← same] at back
  exact back

theorem checkTwice_ok {files : List BundleFile} {done : Unit} (sorted : files.Pairwise PathLe) :
    checkTwice files = .ok done ↔ files.Pairwise PathLt := by
  rw [← List.isChain_iff_pairwise]
  induction files with
  | nil => simp [checkTwice]
  | cons first rest ih =>
      cases rest with
      | nil => simp [checkTwice]
      | cons second rest =>
          have before := List.rel_of_pairwise_cons sorted (List.mem_cons_self (a := second))
          rw [checkTwice, List.isChain_cons_cons]
          split_ifs with same
          · refine ⟨fun ok => ?_, fun chain => absurd same chain.1.2⟩
            cases ok
          · rw [ih sorted.of_cons]
            exact ⟨fun chain => ⟨⟨before, same⟩, chain⟩, And.right⟩

def NextApart (files : List BundleFile) : Prop :=
  files.IsChain fun first second => isInside first.path second.path = false

theorem checkDirectories_ok {files : List BundleFile} {done : Unit} :
    checkDirectories files = .ok done ↔ NextApart files := by
  unfold NextApart
  induction files with
  | nil => simp [checkDirectories]
  | cons first rest ih =>
      cases rest with
      | nil => simp [checkDirectories]
      | cons second rest =>
          rw [checkDirectories, List.isChain_cons_cons]
          split_ifs with inside
          · rw [inside]
            refine ⟨fun ok => ?_, fun chain => ?_⟩
            · cases ok
            · cases chain.1
          · rw [ih]
            exact ⟨fun chain => ⟨Bool.eq_false_iff.mpr inside, chain⟩, And.right⟩

structure Canonical (files : List BundleFile) : Prop where
  ordered : files.Pairwise PathLt
  plain : ∀ file ∈ files, PlainPath file.path
  apart : NextApart files
  few : files.length ≤ maxBundleFiles
  small : contentBytes files ≤ maxBundleBytes

theorem checkFiles_ok {files : List BundleFile} {size : Nat} (sorted : files.Pairwise PathLe) :
    checkFiles files = .ok size ↔ Canonical files ∧ size = contentBytes files := by
  have limit : maxBundleBytes < u64Max := by decide
  unfold checkFiles checkCount checkSize
  simp only [Checks.bind_eq_ok, Checks.pure_eq_ok, checkTwice_ok sorted, checkDirectories_ok,
    checkPaths_ok (Nat.zero_le _), Nat.zero_add]
  constructor
  · rintro ⟨_, ordered, total, ⟨plain, rfl⟩, _, apart, _, few, _, small, rfl⟩
    split_ifs at few with many
    split_ifs at small with large
    have sum : min (contentBytes files) u64Max = contentBytes files := by omega
    rw [sum] at large ⊢
    exact ⟨⟨ordered, plain, apart, by omega, by omega⟩, rfl⟩
  · rintro ⟨canonical, rfl⟩
    have sum : min (contentBytes files) u64Max = contentBytes files := by
      have small := canonical.small
      omega
    refine ⟨(), canonical.ordered, _, ⟨canonical.plain, rfl⟩, (), canonical.apart, (), ?_, (), ?_,
      sum⟩
    · rw [if_neg (by have few := canonical.few; omega)]
    · rw [if_neg (by have small := canonical.small; omega)]

/-! Each step of reading an archive. -/

@[simp] theorem orMalformed_ok {α : Type} {value : Option α} {result : α} :
    orMalformed value = .ok result ↔ value = some result := by
  cases value <;> simp [orMalformed]

@[simp] theorem sliceTo_ok {bytes : Bytes} {stop : Nat} {result : Bytes} :
    sliceTo bytes stop = .ok result ↔ stop ≤ bytes.length ∧ bytes.take stop = result := by
  unfold sliceTo
  split_ifs with inside <;> simp [inside]

@[simp] theorem sliceFrom_ok {bytes : Bytes} {start : Nat} {result : Bytes} :
    sliceFrom bytes start = .ok result ↔ start ≤ bytes.length ∧ bytes.drop start = result := by
  unfold sliceFrom
  split_ifs with inside <;> simp [inside]

@[simp] theorem splitAt_ok {bytes : Bytes} {mid : Nat} {result : Bytes × Bytes} :
    splitAt bytes mid = .ok result ↔
      mid ≤ bytes.length ∧ (bytes.take mid, bytes.drop mid) = result := by
  unfold splitAt
  split_ifs with inside <;> simp [inside]

@[simp] theorem checkLength_ok {length : Nat} {archive : Bytes} {done : Unit} :
    checkLength length archive = .ok done ↔ length ≤ archive.length := by
  unfold checkLength
  split_ifs with long
  · simp [long]
  · simpa using long

@[simp] theorem toUsize_some {value result : Nat} :
    toUsize value = some result ↔ value ≤ usizeMax ∧ value = result := by
  unfold toUsize
  split_ifs with fits <;> simp [fits]

theorem takeU64_append {value : Nat} (fits : value ≤ u64Max) (rest : Bytes) :
    takeU64 (Bytes.ofNat 8 value ++ rest) = some (value, rest) := by
  have width := Bytes.length_ofNat 8 value
  have front : (Bytes.ofNat 8 value ++ rest).take 8 = Bytes.ofNat 8 value :=
    List.take_left' width
  have back : (Bytes.ofNat 8 value ++ rest).drop 8 = rest := List.drop_left' width
  unfold takeU64
  rw [if_pos (by rw [List.length_append]; omega), front, back]
  rw [Bytes.toNat_ofNat (by unfold u64Max at fits; omega)]

theorem takeU64_some {bytes rest : Bytes} {value : Nat}
    (taken : takeU64 bytes = some (value, rest)) :
    bytes = Bytes.ofNat 8 value ++ rest ∧ value ≤ u64Max := by
  unfold takeU64 at taken
  split_ifs at taken with enough
  rw [Option.some.injEq, Prod.mk.injEq] at taken
  rcases taken with ⟨rfl, rfl⟩
  have width : (bytes.take 8).length = 8 := by
    rw [List.length_take]
    omega
  have digits := Bytes.ofNat_toNat (bytes.take 8)
  have bound := Bytes.toNat_lt (bytes.take 8)
  rw [width] at digits bound
  rw [digits, List.take_append_drop]
  refine ⟨rfl, ?_⟩
  unfold u64Max
  omega

theorem findIdx_zero {front rest : Bytes} (none : (0 : UInt8) ∉ front) :
    (front ++ 0 :: rest).findIdx? (· = 0) = some front.length := by
  induction front with
  | nil => rfl
  | cons byte front ih =>
      rw [List.mem_cons, not_or] at none
      rw [List.cons_append, List.findIdx?_cons, ih none.2]
      simp [Ne.symm none.1]

theorem findIdx_zero_some {bytes : Bytes} {stop : Nat}
    (found : bytes.findIdx? (· = 0) = some stop) :
    stop < bytes.length ∧ bytes = bytes.take stop ++ 0 :: bytes.drop (stop + 1) := by
  rw [List.findIdx?_eq_some_iff_getElem] at found
  rcases found with ⟨inside, zero, _⟩
  refine ⟨inside, ?_⟩
  have same : bytes[stop] = 0 := by simpa using zero
  rw [← same, List.getElem_cons_drop, List.take_append_drop]

/-! Reading an archive gives the files back. -/

/-- What a file has to be to be read back: no zero byte in its path, and contents that can be
counted. -/
structure Writable (file : BundleFile) : Prop where
  terminated : (0 : UInt8) ∉ Utf8.encode file.path
  counted : file.contents.length ≤ u64Max

theorem decodeFlag_encoded (executable : Bool) :
    decodeFlag (if executable then 0x78 else 0x2d) = some executable := by
  cases executable <;> rfl

theorem decodeFile_encodeFile {file : BundleFile} (writable : Writable file) (rest : Bytes) :
    decodeFile (encodeFile file ++ rest) = .ok (file, rest) := by
  have split : encodeFile file ++ rest = Utf8.encode file.path ++ 0 ::
      (if file.executable then 0x78 else 0x2d) ::
        (Bytes.ofNat 8 file.contents.length ++ (file.contents ++ rest)) := by
    simp [encodeFile]
  have after : (Utf8.encode file.path ++ 0 :: (if file.executable then 0x78 else 0x2d) ::
      (Bytes.ofNat 8 file.contents.length ++ (file.contents ++ rest))).drop
        ((Utf8.encode file.path).length + 1) = (if file.executable then 0x78 else 0x2d) ::
        (Bytes.ofNat 8 file.contents.length ++ (file.contents ++ rest)) := by
    rw [← List.drop_drop, List.drop_left, List.drop_one, List.tail_cons]
  rw [split]
  unfold decodeFile
  simp only [Checks.bind_eq_ok, Checks.pure_eq_ok, orMalformed_ok, sliceTo_ok, sliceFrom_ok,
    splitAt_ok, checkLength_ok, toUsize_some]
  refine ⟨(Utf8.encode file.path).length, findIdx_zero writable.terminated, _,
    ⟨by rw [List.length_append]; omega, List.take_left⟩, file.path, Utf8.decode_encode _, _,
    ⟨?_, after⟩, _, rfl, file.executable, decodeFlag_encoded _, _,
    takeU64_append writable.counted _, _, ⟨writable.counted, rfl⟩, (), ?_, _, ⟨?_, rfl⟩, ?_⟩
  · rw [List.length_append, List.length_cons]
    omega
  · rw [List.length_append]
    omega
  · rw [List.length_append]
    omega
  · rw [List.take_left, List.drop_left]

theorem decodeFiles_encoded {files : List BundleFile} (writable : ∀ file ∈ files, Writable file)
    (rest : Bytes) :
    decodeFiles files.length (files.flatMap encodeFile ++ rest) = .ok (files, rest) := by
  induction files with
  | nil => rfl
  | cons file files ih =>
      rw [List.forall_mem_cons] at writable
      rw [List.flatMap_cons, List.append_assoc, List.length_cons, decodeFiles]
      simp only [Checks.bind_eq_ok, Checks.pure_eq_ok]
      exact ⟨_, decodeFile_encodeFile writable.1 _, _, ih writable.2, rfl⟩

theorem decode_encode {files : List BundleFile} (writable : ∀ file ∈ files, Writable file)
    (few : files.length ≤ maxBundleFiles) : decode (encode files) = .ok files := by
  have counted : files.length ≤ u64Max := few.trans (by decide)
  have stripped : (encode files).dropPrefix? archiveMagic =
      some (Bytes.ofNat 8 files.length ++ files.flatMap encodeFile) :=
    List.dropPrefix?_eq_some_iff.mpr ⟨archiveMagic, rfl, by simp⟩
  have body := decodeFiles_encoded writable []
  rw [List.append_nil] at body
  unfold decode
  simp only [Checks.bind_eq_ok, Checks.pure_eq_ok, orMalformed_ok]
  refine ⟨_, stripped, _, takeU64_append counted _, (), ?_, (), ?_, _, body, (), rfl, rfl⟩
  · unfold checkDecodedCount
    rw [if_neg (by omega)]
  · unfold withCapacity
    rw [if_pos]
    have limit : maxBundleFiles * bundleFileSize ≤ isizeMax := by decide
    exact (Nat.mul_le_mul_right _ few).trans limit

/-! Only the archive of a list of files is read as that list. -/

theorem decodeFlag_some {flag : UInt8} {executable : Bool}
    (decoded : decodeFlag flag = some executable) :
    flag = if executable then 0x78 else 0x2d := by
  unfold decodeFlag at decoded
  split_ifs at decoded with set clear
  · cases decoded
    exact set
  · cases decoded
    exact clear

theorem encodeFile_of_decodeFile {archive rest : Bytes} {file : BundleFile}
    (decoded : decodeFile archive = .ok (file, rest)) : archive = encodeFile file ++ rest := by
  unfold decodeFile at decoded
  simp only [Checks.bind_eq_ok, Checks.pure_eq_ok, orMalformed_ok, sliceTo_ok, sliceFrom_ok,
    splitAt_ok, checkLength_ok, toUsize_some] at decoded
  rcases decoded with ⟨stop, found, _, ⟨_, rfl⟩, path, text, _, ⟨_, rfl⟩, ⟨flag, body⟩, split,
    executable, flagged, ⟨length, body'⟩, taken, _, ⟨_, rfl⟩, _, long, _, ⟨_, rfl⟩, same⟩
  simp only [Prod.mk.injEq] at same flagged taken long
  rcases same with ⟨rfl, rfl⟩
  rcases findIdx_zero_some found with ⟨_, whole⟩
  have first : archive.drop (stop + 1) = flag :: body := by
    cases later : archive.drop (stop + 1) with
    | nil =>
        rw [later] at split
        cases split
    | cons byte bytes =>
        rw [later] at split
        cases split
        rfl
  have counted : (body'.take length).length = length := by
    rw [List.length_take]
    omega
  rw [whole, first, (takeU64_some taken).1, decodeFlag_some flagged, ← Utf8.encode_of_decode text]
  unfold encodeFile
  simp only [counted, List.append_assoc, List.cons_append, List.take_append_drop]

theorem encoded_of_decodeFiles {count : Nat} {archive rest : Bytes} {files : List BundleFile}
    (decoded : decodeFiles count archive = .ok (files, rest)) :
    archive = files.flatMap encodeFile ++ rest ∧ files.length = count := by
  induction count generalizing archive files with
  | zero =>
      cases decoded
      exact ⟨rfl, rfl⟩
  | succ count ih =>
      rw [decodeFiles] at decoded
      simp only [Checks.bind_eq_ok, Checks.pure_eq_ok, Prod.mk.injEq] at decoded
      rcases decoded with ⟨⟨file, body⟩, first, ⟨others, left⟩, later, rfl, rfl⟩
      rcases ih later with ⟨split, length⟩
      simp only at split ⊢
      rw [encodeFile_of_decodeFile first, split, List.flatMap_cons, List.append_assoc,
        List.length_cons, length]
      exact ⟨rfl, rfl⟩

theorem encode_of_decode {archive : Bytes} {files : List BundleFile}
    (decoded : decode archive = .ok files) :
    archive = encode files ∧ files.length ≤ maxBundleFiles := by
  unfold decode at decoded
  simp only [Checks.bind_eq_ok, Checks.pure_eq_ok, orMalformed_ok] at decoded
  rcases decoded with ⟨body, stripped, ⟨count, body'⟩, taken, _, few, _, _, ⟨found, left⟩, read, _,
    ended, rfl⟩
  rcases encoded_of_decodeFiles read with ⟨split, length⟩
  simp only at split length taken few ended ⊢
  rcases List.dropPrefix?_eq_some_iff.mp stripped with ⟨magic, whole, same⟩
  unfold checkEnd at ended
  split_ifs at ended with empty
  unfold checkDecodedCount at few
  split_ifs at few with many
  rw [List.isEmpty_iff] at empty
  rw [empty, List.append_nil] at split
  rw [whole, eq_of_beq same, (takeU64_some taken).1, split, ← length]
  exact ⟨rfl, by omega⟩

/-! Reading never panics. -/

theorem bind_safe {α β : Type} {first : Except Fault α} {next : α → Except Fault β}
    (safe : first ≠ .error .panicked)
    (rest : ∀ value, first = .ok value → next value ≠ .error .panicked) :
    (first >>= next) ≠ .error .panicked := by
  cases first with
  | error fault =>
      intro same
      have panicked : fault = .panicked := Except.error.inj same
      exact safe (congrArg Except.error panicked)
  | ok value => exact rest value rfl

theorem orMalformed_safe {α : Type} (value : Option α) :
    orMalformed value ≠ .error .panicked := by
  cases value <;> simp [orMalformed]

theorem decodeFile_safe (archive : Bytes) : decodeFile archive ≠ .error .panicked := by
  unfold decodeFile
  refine bind_safe (orMalformed_safe _) fun stop found => ?_
  have inside := (findIdx_zero_some (orMalformed_ok.mp found)).1
  refine bind_safe (by simp [sliceTo, inside.le]) fun _ _ => ?_
  refine bind_safe (orMalformed_safe _) fun _ _ => ?_
  refine bind_safe (by simp [sliceFrom, Nat.succ_le_of_lt inside]) fun _ _ => ?_
  refine bind_safe (orMalformed_safe _) fun _ _ => ?_
  refine bind_safe (orMalformed_safe _) fun _ _ => ?_
  refine bind_safe (orMalformed_safe _) fun _ _ => ?_
  refine bind_safe (orMalformed_safe _) fun length _ => ?_
  refine bind_safe ?_ fun _ enough => ?_
  · unfold checkLength
    split_ifs <;> simp
  rw [checkLength_ok] at enough
  refine bind_safe (by simp [splitAt, enough]) fun _ _ => ?_
  simp [pure, Except.pure]

theorem decodeFiles_safe (count : Nat) (archive : Bytes) :
    decodeFiles count archive ≠ .error .panicked := by
  induction count generalizing archive with
  | zero => simp [decodeFiles]
  | succ count ih =>
      rw [decodeFiles]
      refine bind_safe (decodeFile_safe _) fun _ _ => bind_safe (ih _) fun _ _ => ?_
      simp [pure, Except.pure]

theorem decode_safe (archive : Bytes) : decode archive ≠ .error .panicked := by
  unfold decode
  refine bind_safe (orMalformed_safe _) fun _ _ => bind_safe (orMalformed_safe _) fun taken _ => ?_
  refine bind_safe ?_ fun _ few => ?_
  · unfold checkDecodedCount
    split_ifs <;> simp
  unfold checkDecodedCount at few
  split_ifs at few with many
  have limit : maxBundleFiles * bundleFileSize ≤ isizeMax := by decide
  have fits : taken.1 * bundleFileSize ≤ isizeMax :=
    (Nat.mul_le_mul_right _ (not_lt.mp many)).trans limit
  refine bind_safe (by simp [withCapacity, fits]) fun _ _ => ?_
  refine bind_safe (decodeFiles_safe _ _) fun _ _ => bind_safe ?_ fun _ _ => ?_
  · unfold checkEnd
    split_ifs <;> simp
  · simp [pure, Except.pure]

end Rozi.Extension
