import Mathlib.Data.List.AList
import Rozi.Library.Transition
import Rozi.Library.Utf8Lossy

/-!
The log of one unit of an extension: its live file and one rotated generation, which any number of
writers append to and readers read, under the unit's lock or without it. A file is what was written
to it, write by write.
-/

namespace Rozi.OutputLog

def cap : Nat := 64 * 1024

structure Block where
  bytes : List UInt8
  /-- A line feed went before the bytes. -/
  newline : Bool
  note : Bool
  /-- The writer held the lock. -/
  locked : Bool
  /-- The file it went to was not the live one any more. -/
  late : Bool
  /-- The file no longer held what it held when the writer looked how it ends. -/
  overtaken : Bool
  deriving DecidableEq, Repr

def Block.data (block : Block) : List UInt8 :=
  (if block.newline then [10] else []) ++ block.bytes

def contents (blocks : List Block) : List UInt8 := blocks.flatMap Block.data

/-! The files. -/

structure Disk where
  files : List (List Block) := []
  live : Option Nat := none
  rotated : Option Nat := none

namespace Disk

variable (disk : Disk)

/-- What a file holds, for a handle that was opened on it, whatever its path is by now. -/
def held (file : Nat) : List Block := disk.files.getD file []

def openForAppend : Nat × Disk :=
  match disk.live with
  | some file => (file, disk)
  | none =>
      (disk.files.length,
        { disk with files := disk.files ++ [[]], live := some disk.files.length })

def put (file : Nat) (blocks : List Block) : Disk :=
  { disk with files := disk.files.set file blocks }

def liveBlocks : List Block := (disk.live.map disk.held).getD []

def rotatedBlocks : List Block := (disk.rotated.map disk.held).getD []

end Disk

/-! An append. -/

/-- What an append does next. `seen` is what the file held as it was measured, if it still did as its
last byte was read. -/
inductive Operation where
  | openLog
  | measure (file : Nat)
  | endsWithNewline (file length : Nat) (seen : List Block)
  | rename (file : Nat)
  | reopen
  | truncate (file : Nat)
  | writeAll (file : Nat) (needsNewline : Bool) (seen : Option (List Block))
  deriving DecidableEq, Repr

structure Append where
  bytes : List UInt8
  onFreshLine : Bool
  locked : Bool
  next : Operation := .openLog
  deriving DecidableEq, Repr

inductive Progress where
  | next (operation : Operation)
  | written (block : Block)
  | failed

def cut (bytes : List UInt8) : List UInt8 := bytes.drop (bytes.length - cap)

namespace Append

variable (append : Append)

def place (file length : Nat) (needsNewline : Bool) (seen : Option (List Block)) : Operation :=
  let size := length + (if needsNewline then 1 else 0) + append.bytes.length
  if append.locked ∧ cap < size then .rename file else .writeAll file needsNewline seen

/-- The next operation of `append_to`. `renames`: a rename that is tried succeeds. -/
def advance (renames : Bool) (disk : Disk) : Disk × Progress :=
  match append.next with
  | .openLog => (disk.openForAppend.2, .next (.measure disk.openForAppend.1))
  | .measure file =>
      let length := (contents (disk.held file)).length
      (disk, .next
        (if append.onFreshLine ∧ 0 < length then .endsWithNewline file length (disk.held file)
        else append.place file length false (some (disk.held file))))
  | .endsWithNewline file length seen =>
      match (contents (disk.held file))[length - 1]? with
      | none => (disk, .failed)
      | some last =>
          (disk, .next (append.place file length (last ≠ 10)
            (if disk.held file = seen then some seen else none)))
  | .rename file =>
      match disk.live with
      | some live =>
          if renames then ({ disk with rotated := some live, live := none }, .next .reopen)
          else (disk, .next (.truncate file))
      | none => (disk, .next (.truncate file))
  | .reopen => (disk.openForAppend.2, .next (.writeAll disk.openForAppend.1 false (some [])))
  | .truncate file =>
      match disk.live with
      | none => (disk, .failed)
      | some live => (disk.put live [], .next (.writeAll file false (some [])))
  | .writeAll file needsNewline seen =>
      let block : Block :=
        { bytes := append.bytes
          newline := needsNewline
          note := append.onFreshLine
          locked := append.locked
          late := disk.live ≠ some file
          overtaken := some (disk.held file) ≠ seen }
      (disk.put file (disk.held file ++ [block]), .written block)

end Append

/-! A snapshot. -/

structure Snapshot where
  locked : Bool
  rotated : Option (List Block) := none

def addPart (text part : List Char) : List Char :=
  (if text ≠ [] ∧ text.getLast? ≠ some '\n' ∧ part ≠ [] then text ++ ['\n'] else text) ++ part

/-- The text of both generations. A file that is not there reads as nothing. -/
def joinGenerations (rotated live : List UInt8) : List Char :=
  [rotated, live].foldl (fun text part => addPart text (Utf8.fromUtf8Lossy part)) []

/-- A snapshot that was returned, with what had been written by then, and whether a live file had
been truncated by then. -/
structure Shown where
  locked : Bool
  rotated : List Block
  live : List Block
  log : List Block
  truncated : Bool

def Shown.text (shown : Shown) : List Char :=
  joinGenerations (contents shown.rotated) (contents shown.live)

/-! Runs. -/

inductive Party where
  | writer (name : Nat)
  | reader (name : Nat)
  deriving DecidableEq, Repr

structure World where
  disk : Disk := {}
  lockFile : Bool := false
  lock : Option Party := none
  writers : AList fun _ : Nat => Append := ∅
  readers : AList fun _ : Nat => Snapshot := ∅
  log : List Block := []
  truncated : Bool := false
  /-- An append failed before its last operation. -/
  gaveUp : Bool := false
  shown : List Shown := []

/-- A sink is opened; an append begins, does its next operation, or fails there; a snapshot begins,
reads the next file, or fails. -/
inductive Label where
  | openSink
  | append (writer : Nat) (bytes : List UInt8) (onFreshLine locked : Bool)
  | operate (writer : Nat) (renames : Bool)
  | giveUp (writer : Nat)
  | snapshot (reader : Nat)
  | read (reader : Nat)
  | stopReading (reader : Nat)

namespace World

variable (world : World)

def unlock (party : Party) : Option Party := if world.lock = some party then none else world.lock

def append (writer : Nat) (bytes : List UInt8) (onFreshLine locked : Bool) : Option World :=
  if (world.writers.lookup writer).isSome ∨ (locked ∧ world.lock ≠ none) then none
  else if cut bytes = [] then some { world with lockFile := world.lockFile || locked }
  else
    some { world with
      lockFile := world.lockFile || locked
      lock := if locked then some (.writer writer) else world.lock
      writers := world.writers.insert writer { bytes := cut bytes, onFreshLine, locked } }

def finish (writer : Nat) : World :=
  { world with
    lock := world.unlock (.writer writer)
    writers := world.writers.erase writer }

def proceed (writer : Nat) (append : Append) (disk : Disk) : Progress → World
  | .next operation =>
      { world with disk, writers := world.writers.insert writer { append with next := operation } }
  | .written block => { world with disk, log := world.log ++ [block] }.finish writer
  | .failed => { world with disk }.finish writer

/-- `world` after a live file was truncated, if the operation truncates. -/
def noting (operation : Operation) : World :=
  { world with truncated := world.truncated || operation matches .truncate _ }

def operate (writer : Nat) (renames : Bool) : Option World :=
  (world.writers.lookup writer).map fun append =>
    (world.noting append.next).proceed writer append (append.advance renames world.disk).1
      (append.advance renames world.disk).2

def giveUp (writer : Nat) : Option World :=
  if (world.writers.lookup writer).isSome then
    some ({ world with gaveUp := true }.finish writer : World)
  else none

/-- Without a lock file nothing was ever written, and the files are read as they are. -/
def snapshot (reader : Nat) : Option World :=
  if (world.readers.lookup reader).isSome then none
  else if world.lockFile then
    if world.lock = none then
      some { world with
        lock := some (.reader reader)
        readers := world.readers.insert reader { locked := true } }
    else none
  else some { world with readers := world.readers.insert reader { locked := false } }

def closeReader (reader : Nat) : World :=
  { world with
    lock := world.unlock (.reader reader)
    readers := world.readers.erase reader }

def shows (snapshot : Snapshot) (rotated : List Block) : Shown :=
  { locked := snapshot.locked
    rotated
    live := world.disk.liveBlocks
    log := world.log
    truncated := world.truncated }

def read (reader : Nat) : Option World :=
  (world.readers.lookup reader).map fun snapshot =>
    match snapshot.rotated with
    | none =>
        { world with
          readers := world.readers.insert reader
            { snapshot with rotated := some world.disk.rotatedBlocks } }
    | some rotated =>
        { world with shown := world.shown ++ [world.shows snapshot rotated] }.closeReader reader

def stopReading (reader : Nat) : Option World :=
  if (world.readers.lookup reader).isSome then some (world.closeReader reader) else none

def perform : Label → Option World
  | .openSink => some { world with lockFile := true }
  | .append writer bytes onFreshLine locked => world.append writer bytes onFreshLine locked
  | .operate writer renames => world.operate writer renames
  | .giveUp writer => world.giveUp writer
  | .snapshot reader => world.snapshot reader
  | .read reader => world.read reader
  | .stopReading reader => world.stopReading reader

end World

def system : Transition World Label where
  initial world := world = {}
  step world label next := world.perform label = some next

end Rozi.OutputLog
