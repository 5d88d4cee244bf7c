import Rozi.Control.Requests

/-!
A wait on one pane's screen: for text to show up, for the screen to be quiet, or for both.
-/

namespace Rozi

def maxPaneWaitMs : Nat := 60 * 60 * 1000

structure PaneWait where
  text : Option (List Char) := none
  settleMs : Option Nat := none
  timeoutMs : Nat
  deriving DecidableEq, Repr

def PaneWait.checkText (text : List Char) : Requested Unit :=
  if text.isEmpty then errorWith .invalidArgument "wait text must not be empty"
  else if text.any fun ch => ch == '\n' || ch == '\r' then
    errorWith .invalidArgument "wait text matches within one row; drop the line break"
  else return ()

def PaneWait.validate (wait : PaneWait) : Requested Unit := do
  if wait.text.isNone && wait.settleMs.isNone then
    errorWith .invalidArgument "a wait needs text to wait for, a settle period, or both"
  match wait.text with
  | some text => checkText text
  | none => return ()
  if wait.timeoutMs = 0 ∨ maxPaneWaitMs < wait.timeoutMs then
    errorWith .invalidArgument
      ("wait timeout must be 1ms to " ++ toString (maxPaneWaitMs / 60000) ++ "m, got " ++
        toString wait.timeoutMs ++ "ms")
  match wait.settleMs with
  | some settle =>
      if settle = 0 ∨ wait.timeoutMs ≤ settle then
        errorWith .invalidArgument
          ("settle must be more than 0ms and less than the " ++ toString wait.timeoutMs ++
            "ms timeout, got " ++ toString settle ++ "ms")
      else return ()
  | none => return ()

inductive WaitStatus where
  | pending | ready | timedOut
  deriving DecidableEq, Repr

structure Baseline where
  historyEpoch : Nat
  rows : List (Nat × List Char)
  deriving DecidableEq, Repr

structure Look (C : Type) where
  cells : C
  rows : List (List Char)
  firstLine : Nat
  historyEpoch : Nat
  deriving DecidableEq, Repr

def byteLength (text : List Char) : Nat :=
  (text.map Char.utf8Size).sum

/-- The columns where `str::match_indices` finds a nonempty text: from the left, without overlap. -/
def matchColumns (text : List Char) : Nat → Nat → List Char → List Nat
  | _, _, [] => []
  | skip + 1, column, _ :: rest => matchColumns text skip (column + 1) rest
  | 0, column, ch :: rest =>
      if text.isPrefixOf (ch :: rest) then
        column :: matchColumns text (text.length - 1) (column + 1) rest
      else matchColumns text 0 (column + 1) rest

def matchIndices (text line : List Char) : List Nat :=
  (matchColumns text 0 0 line).map fun column => byteLength (line.take column)

/-- `str::get` of a range to the end: none where it does not begin at a character. -/
def dropBytes : Nat → List Char → Option (List Char)
  | 0, rest => some rest
  | _ + 1, [] => none
  | bytes + 1, ch :: rest =>
      if ch.utf8Size ≤ bytes + 1 then dropBytes (bytes + 1 - ch.utf8Size) rest else none

section look

variable {C : Type}

def Look.baseline (look : Look C) : Baseline where
  historyEpoch := look.historyEpoch
  rows := look.rows.zipIdx.map fun row => (look.firstLine + row.2, row.1)

def Look.shows (look : Look C) (text : List Char) (baseline : Option Baseline) : Bool :=
  let baseline := baseline.filter fun baseline => baseline.historyEpoch == look.historyEpoch
  look.rows.zipIdx.any fun row =>
    let before := baseline.bind fun baseline => baseline.rows.lookup (look.firstLine + row.2)
    (matchIndices text row.1).any fun bytes =>
      !(before.any fun before => (dropBytes bytes before).any text.isPrefixOf)

structure ScreenWait (C : Type) where
  text : Option (List Char)
  settle : Option Nat
  deadline : Nat
  baseline : Option Baseline
  matchedAt : Option Nat
  cells : C
  changedAt : Nat
  deriving DecidableEq, Repr

def fromMillis (ms : Nat) : Nat := ms * 1000000

namespace ScreenWait

def start (wait : PaneWait) (look : Look C) (afterInput : Bool) (requested now : Nat) :
    ScreenWait C :=
  let baseline := if afterInput then some look.baseline else none
  { text := wait.text
    settle := wait.settleMs.map fromMillis
    deadline := requested + fromMillis wait.timeoutMs
    baseline
    matchedAt :=
      match wait.text with
      | none => some now
      | some text => if look.shows text baseline then some now else none
    cells := look.cells
    changedAt := now }

variable [DecidableEq C]

def observe (waiting : ScreenWait C) (look : Look C) (now : Nat) : ScreenWait C :=
  let changed :=
    if look.cells ≠ waiting.cells then { waiting with cells := look.cells, changedAt := now }
    else waiting
  if changed.matchedAt.isNone &&
      changed.text.any fun text => look.shows text changed.baseline then
    { changed with matchedAt := some now }
  else changed

omit [DecidableEq C] in
def readyAt (waiting : ScreenWait C) : Option Nat :=
  waiting.matchedAt.map fun matchedAt =>
    match waiting.settle with
    | none => matchedAt
    | some settle => max waiting.changedAt matchedAt + settle

omit [DecidableEq C] in
/-- A wait that resolves on its deadline counts as resolved. -/
def status (waiting : ScreenWait C) (now : Nat) : WaitStatus :=
  if waiting.readyAt.any fun readyAt => readyAt ≤ waiting.deadline && readyAt ≤ now then .ready
  else if waiting.deadline ≤ now then .timedOut
  else .pending

def observeAll (waiting : ScreenWait C) (looks : List (Look C × Nat)) : ScreenWait C :=
  looks.foldl (fun waiting look => waiting.observe look.1 look.2) waiting

section observed

variable {waiting : ScreenWait C} {look : Look C} {now : Nat}

end observed

end ScreenWait

end look

end Rozi
