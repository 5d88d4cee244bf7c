import Mathlib.Data.List.Sort
import Rozi.Library.Checks
import Rozi.Library.Utf8

/-!
Snapshots of an extension: the files of a bundle, the archive they are sent as, and the digest that
names them. The digest function is a parameter. Slicing and allocating out of range are outcomes of
their own.
-/

namespace Rozi.Extension

def archiveMagic : Bytes :=
  [0x72, 0x6f, 0x7a, 0x69, 0x2d, 0x65, 0x78, 0x74, 0x65, 0x6e, 0x73, 0x69, 0x6f, 0x6e, 0x2d, 0x62,
    0x75, 0x6e, 0x64, 0x6c, 0x65, 0x2d, 0x76, 0x31, 0x00]

def maxBundleBytes : Nat := 32 * 1024 * 1024

def maxBundleFiles : Nat := 4096

structure BundleFile where
  /-- Relative path, `/`-separated. -/
  path : List Char
  executable : Bool
  contents : Bytes
  deriving DecidableEq, Repr

inductive BundleError where
  | twice (path : List Char)
  | empty
  | notPlain (path : List Char)
  | badCharacter (path : List Char)
  | fileAndDirectory (path : List Char)
  | tooMany (count : Nat)
  | tooLarge (size : Nat)
  | malformed
  | mismatch (expected found : List Char)
  deriving DecidableEq, Repr

def BundleError.text : BundleError → String
  | .twice path => s!"bundle lists `{String.ofList path}` twice"
  | .empty => "bundle has an empty path"
  | .notPlain path => s!"bundle path `{String.ofList path}` is not a plain relative path"
  | .badCharacter path =>
      s!"bundle path `{String.ofList path}` has a character another host cannot use in a file name"
  | .fileAndDirectory path =>
      s!"bundle has `{String.ofList path}` as both a file and a directory"
  | .tooMany count => s!"extension has {count} files; a bundle holds at most {maxBundleFiles}"
  | .tooLarge size => s!"extension is {size} bytes; a bundle holds at most {maxBundleBytes}"
  | .malformed => "bundle archive is malformed"
  | .mismatch expected found =>
      s!"bundle content does not match its digest (expected {String.ofList expected}, got {String.ofList found})"

/-! Paths. -/

/-- `char::is_control` -/
def isControl (c : Char) : Bool := c.toNat ≤ 0x1f || (0x7f ≤ c.toNat && c.toNat ≤ 0x9f)

def components (path : List Char) : List (List Char) := path.splitOn '/'

def validateComponents (path : List Char) : List (List Char) → Except BundleError Unit
  | [] => .ok ()
  | component :: rest =>
      if component = [] ∨ component = ['.'] ∨ component = ['.', '.'] then
        .error (.notPlain path)
      else if (component.any fun c => c = '\\' || c = ':' || c = '\x00') ||
          component.any isControl then
        .error (.badCharacter path)
      else validateComponents path rest

/-- Refuse a path that is absolute, climbs, is empty, or would mean something different on another
operating system. -/
def validateRelativePath (path : List Char) : Except BundleError Unit :=
  if path.isEmpty then .error .empty else validateComponents path (components path)

/-! The archive. -/

def encodeFile (file : BundleFile) : Bytes :=
  Utf8.encode file.path ++ 0 :: (if file.executable then 0x78 else 0x2d) ::
    (Bytes.ofNat 8 file.contents.length ++ file.contents)

def encode (files : List BundleFile) : Bytes :=
  archiveMagic ++ (Bytes.ofNat 8 files.length ++ files.flatMap encodeFile)

inductive Fault where
  | refused (error : BundleError)
  | panicked
  deriving DecidableEq, Repr

def isizeMax : Nat := 2 ^ 63 - 1

def usizeMax : Nat := 2 ^ 64 - 1

def u64Max : Nat := 2 ^ 64 - 1

def bundleFileSize : Nat := 56

def withCapacity (count : Nat) : Except Fault Unit :=
  if count * bundleFileSize ≤ isizeMax then .ok () else .error .panicked

def sliceTo (bytes : Bytes) (stop : Nat) : Except Fault Bytes :=
  if stop ≤ bytes.length then .ok (bytes.take stop) else .error .panicked

def sliceFrom (bytes : Bytes) (start : Nat) : Except Fault Bytes :=
  if start ≤ bytes.length then .ok (bytes.drop start) else .error .panicked

def splitAt (bytes : Bytes) (mid : Nat) : Except Fault (Bytes × Bytes) :=
  if mid ≤ bytes.length then .ok (bytes.take mid, bytes.drop mid) else .error .panicked

def orMalformed {α : Type} : Option α → Except Fault α
  | some value => .ok value
  | none => .error (.refused .malformed)

def takeU64 (bytes : Bytes) : Option (Nat × Bytes) :=
  if 8 ≤ bytes.length then some (Bytes.toNat (bytes.take 8), bytes.drop 8) else none

def decodeFlag (flag : UInt8) : Option Bool :=
  if flag = 0x78 then some true else if flag = 0x2d then some false else none

def toUsize (value : Nat) : Option Nat := if value ≤ usizeMax then some value else none

def checkLength (length : Nat) (archive : Bytes) : Except Fault Unit :=
  if archive.length < length then .error (.refused .malformed) else .ok ()

/-- One round of the loop of `decode`: a file off the front of the archive. -/
def decodeFile (archive : Bytes) : Except Fault (BundleFile × Bytes) := do
  let stop ← orMalformed (archive.findIdx? (· = 0))
  let front ← sliceTo archive stop
  let path ← orMalformed (Utf8.decode front)
  let archive ← sliceFrom archive (stop + 1)
  let (flag, archive) ← orMalformed (archive.head?.map (·, archive.tail))
  let executable ← orMalformed (decodeFlag flag)
  let (length, archive) ← orMalformed (takeU64 archive)
  let length ← orMalformed (toUsize length)
  checkLength length archive
  let (contents, archive) ← splitAt archive length
  return ({ path, executable, contents }, archive)

def decodeFiles : Nat → Bytes → Except Fault (List BundleFile × Bytes)
  | 0, archive => .ok ([], archive)
  | count + 1, archive => do
      let (file, archive) ← decodeFile archive
      let (files, archive) ← decodeFiles count archive
      return (file :: files, archive)

def checkDecodedCount (count : Nat) : Except Fault Unit :=
  if maxBundleFiles < count then .error (.refused .malformed) else .ok ()

def checkEnd (archive : Bytes) : Except Fault Unit :=
  if archive.isEmpty then .ok () else .error (.refused .malformed)

def decode (archive : Bytes) : Except Fault (List BundleFile) := do
  let archive ← orMalformed (archive.dropPrefix? archiveMagic)
  let (count, archive) ← orMalformed (takeU64 archive)
  checkDecodedCount count
  withCapacity count
  let (files, archive) ← decodeFiles count archive
  checkEnd archive
  return files

/-! Bundles. -/

def PathLe (first second : BundleFile) : Prop := Utf8.encode first.path ≤ Utf8.encode second.path

instance : DecidableRel PathLe := fun first second =>
  inferInstanceAs (Decidable (Utf8.encode first.path ≤ Utf8.encode second.path))

def isInside (directory path : List Char) : Bool :=
  match path.dropPrefix? directory with
  | some rest => rest.head? = some '/'
  | none => false

def checkTwice : List BundleFile → Except BundleError Unit
  | first :: second :: rest =>
      if first.path = second.path then .error (.twice first.path) else checkTwice (second :: rest)
  | _ => .ok ()

def checkPaths : Nat → List BundleFile → Except BundleError Nat
  | size, [] => .ok size
  | size, file :: rest => do
      validateRelativePath file.path
      checkPaths (min (size + file.contents.length) u64Max) rest

def checkDirectories : List BundleFile → Except BundleError Unit
  | first :: second :: rest =>
      if isInside first.path second.path then .error (.fileAndDirectory first.path)
      else checkDirectories (second :: rest)
  | _ => .ok ()

def checkCount (files : List BundleFile) : Except BundleError Unit :=
  if maxBundleFiles < files.length then .error (.tooMany files.length) else .ok ()

def checkSize (size : Nat) : Except BundleError Unit :=
  if maxBundleBytes < size then .error (.tooLarge size) else .ok ()

/-- The checks of `from_files` on the sorted files, and their size. -/
def checkFiles (files : List BundleFile) : Except BundleError Nat := do
  checkTwice files
  let size ← checkPaths 0 files
  checkDirectories files
  checkCount files
  checkSize size
  return size

def hexDigit (value : Nat) : Char :=
  if value < 10 then Char.ofNat (0x30 + value) else Char.ofNat (0x61 + (value - 10))

def hexByte (byte : UInt8) : List Char := [hexDigit (byte.toNat / 16), hexDigit (byte.toNat % 16)]

def hexDigest (sha256 : Bytes → Bytes) (bytes : Bytes) : List Char :=
  (sha256 bytes).flatMap hexByte

structure Bundle (sha256 : Bytes → Bytes) where
  files : List BundleFile
  digest : List Char
  size : Nat
  checked : checkFiles files = .ok size
  sorted : files.Pairwise PathLe
  named : digest = hexDigest sha256 (encode files)

instance : Std.Total PathLe :=
  ⟨fun first second => List.le_total (Utf8.encode first.path) (Utf8.encode second.path)⟩

instance : IsTrans BundleFile PathLe :=
  ⟨fun _ _ _ before after => List.le_trans before after⟩

namespace Bundle

variable (sha256 : Bytes → Bytes)

def fromFiles (files : List BundleFile) : Except BundleError (Bundle sha256) :=
  let files := files.insertionSort PathLe
  match checked : checkFiles files with
  | .error error => .error error
  | .ok size => .ok
      { files
        digest := hexDigest sha256 (encode files)
        size
        checked
        sorted := List.pairwise_insertionSort PathLe _
        named := rfl }

variable {sha256}

def archive (bundle : Bundle sha256) : Bytes := encode bundle.files

def orRefused {α : Type} : Except BundleError α → Except Fault α
  | .ok value => .ok value
  | .error error => .error (.refused error)

variable (sha256)

/-- Decode an archive received from a peer, verifying it against the digest it was sent under. -/
def fromArchive (archive : Bytes) (expected : List Char) : Except Fault (Bundle sha256) := do
  let files ← decode archive
  let bundle ← orRefused (fromFiles sha256 files)
  if bundle.digest = expected then .ok bundle
  else .error (.refused (.mismatch expected bundle.digest))

end Bundle

end Rozi.Extension
