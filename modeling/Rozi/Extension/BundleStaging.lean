import Rozi.Extension.Bundle
import Rozi.Library.FileTree

/-!
Writing a bundle to a staging directory, sealing it and reading it back, on a host with Unix file
modes. The tree is what lies under the staging directory.
-/

namespace Rozi.Extension

def modesFile : List Char :=
  ['.', 'r', 'o', 'z', 'i', '-', 'e', 'x', 'e', 'c', 'u', 't', 'a', 'b', 'l', 'e', 's']

abbrev Tree := FileTree (List Char) Bytes

/-- Why a bundle is not stored. `tooDeep` stands for a recursion that does not end. -/
inductive StageError where
  | io (error : IoError)
  | writableAgain (relative : List Char)
  | bundle (error : BundleError)
  | digest (found expected : List Char)
  | tooDeep
  deriving DecidableEq, Repr

def orIo {α : Type} : Except IoError α → Except StageError α
  | .ok value => .ok value
  | .error error => .error (.io error)

/-! Writing. -/

def writeFile (tree : Tree) (file : BundleFile) : Except IoError Tree := do
  let path := components file.path
  let tree ← tree.createDirAll path.dropLast
  tree.createFile path 0o600 file.contents

def writeFiles : Tree → List BundleFile → Except IoError Tree
  | tree, [] => .ok tree
  | tree, file :: rest => do
      let tree ← writeFile tree file
      writeFiles tree rest

/-- The executable bits, as pending modes until `seal` applies the read-only ones. -/
def writeModes : Tree → List BundleFile → Except IoError Tree
  | tree, [] => .ok tree
  | tree, file :: rest => do
      let tree ← tree.setMode (components file.path) (if file.executable then 0o700 else 0o600)
      writeModes tree rest

/-- Write the files under `tree`, which is empty for a fresh staging directory. -/
def writeBundle (tree : Tree) (files : List BundleFile) : Except IoError Tree := do
  let tree ← tree.createDir []
  let tree ← tree.setMode [] 0o700
  let tree ← writeFiles tree files
  writeModes tree files

/-! Reading back. -/

def NameLe (first second : List Char) : Prop := Utf8.encode first ≤ Utf8.encode second

instance : DecidableRel NameLe := fun first second =>
  inferInstanceAs (Decidable (Utf8.encode first ≤ Utf8.encode second))

def relativeTo (above name : List Char) : List Char :=
  if above.isEmpty then name else above ++ '/' :: name

def checkSealed (sealed : Bool) (relative : List Char) (node : FileNode Bytes) :
    Except StageError Unit :=
  if sealed && node.mode &&& 0o222 ≠ 0 then .error (.writableAgain relative) else .ok ()

/-- The files that `visit` gives for each name, one after another. -/
def gather (visit : List Char → Except StageError (List BundleFile)) :
    List (List Char) → Except StageError (List BundleFile)
  | [] => .ok []
  | name :: rest => do
      let files ← visit name
      let others ← gather visit rest
      return files ++ others

def readEntry (tree : Tree) (path : List (List Char)) (relative : List Char) (mode : Nat) :
    Except StageError (List BundleFile) := do
  let contents ← orIo (tree.readFile path)
  return [{ path := relative, executable := mode &&& 0o100 ≠ 0, contents }]

def collectEntry (tree : Tree) (sealed : Bool)
    (visit : List (List Char) → List Char → Except StageError (List BundleFile))
    (directory : List (List Char)) (above name : List Char) :
    Except StageError (List BundleFile) :=
  if above.isEmpty ∧ name = modesFile then .ok []
  else do
    let path := directory ++ [name]
    let relative := relativeTo above name
    let node ← orIo (tree.metadata path)
    checkSealed sealed relative node
    match node with
    | .directory _ => visit path relative
    | .file mode _ => readEntry tree path relative mode

/-- What lies under a directory, of path `above` from the top. -/
def collectIn (tree : Tree) (sealed : Bool) :
    Nat → List (List Char) → List Char → Except StageError (List BundleFile)
  | 0, _, _ => .error .tooDeep
  | fuel + 1, directory, above => do
      let names ← orIo (tree.readDir directory)
      gather (collectEntry tree sealed (collectIn tree sealed fuel) directory above)
        (names.insertionSort NameLe)

def collect (tree : Tree) (sealed : Bool) : Except StageError (List BundleFile) :=
  collectIn tree sealed (tree.depth + 1) [] []

def orBundle {α : Type} : Except BundleError α → Except StageError α
  | .ok value => .ok value
  | .error error => .error (.bundle error)

def verify (sha256 : Bytes → Bytes) (tree : Tree) (digest : List Char) (sealed : Bool) :
    Except StageError Unit := do
  let files ← collect tree sealed
  let found ← orBundle (Bundle.fromFiles sha256 files)
  if found.digest = digest then .ok () else .error (.digest found.digest digest)

/-! Sealing. -/

/-- The execute bit that `writeModes` set is the one thing kept. -/
def sealedMode (node : FileNode Bytes) : Nat := if node.mode &&& 0o100 ≠ 0 then 0o500 else 0o400

def forNames (change : Tree → List Char → Except StageError Tree) :
    Tree → List (List Char) → Except StageError Tree
  | tree, [] => .ok tree
  | tree, name :: rest => do
      let tree ← change tree name
      forNames change tree rest

def sealEntry (visit : List (List Char) → Tree → Except StageError Tree)
    (directory : List (List Char)) (tree : Tree) (name : List Char) : Except StageError Tree := do
  let path := directory ++ [name]
  let node ← orIo (tree.metadata path)
  match node with
  | .directory _ => visit path tree
  | .file _ _ => orIo (tree.setMode path (sealedMode node))

def sealIn : Nat → List (List Char) → Tree → Except StageError Tree
  | 0, _, _ => .error .tooDeep
  | fuel + 1, directory, tree => do
      let names ← orIo (tree.readDir directory)
      let tree ← forNames (sealEntry (sealIn fuel) directory) tree names
      orIo (tree.setMode directory 0o500)

def sealTree (tree : Tree) : Except StageError Tree := sealIn (tree.depth + 1) [] tree

end Rozi.Extension
