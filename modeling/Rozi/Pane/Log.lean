import Rozi.Pane.MarkerCuts
import Mathlib.Algebra.GroupWithZero.Nat

/-!
The file a pane appends its output to while it is logged, and what is in it when it is closed.
-/

namespace Rozi.Pane

def u64Max : Nat := 2 ^ 64 - 1

structure PaneLog where
  file : List UInt8
  /-- Bytes this file already holds, with anything a previous run appended. -/
  written : Nat
  /-- Size ceiling in bytes; `0` disables the cap. -/
  limit : Nat
  filter : MarkerFilter := {}

/-- Why logging must stop. -/
inductive LogStop where
  | limit (bytes : Nat)
  | failed (error : String)
  deriving DecidableEq, Repr

namespace PaneLog

def trailer (limit : Nat) : List UInt8 :=
  s!"\r\n=== rozi log stopped · size limit {limit} bytes ===\r\n".toUTF8.toList

def openLog (existing header : List UInt8) (limit : Nat) : PaneLog :=
  -- the leading blank line separates appended runs; there is nothing to separate yet
  let opening := if existing.length = 0 then header.drop 2 else header
  { file := existing ++ opening, written := existing.length + opening.length, limit }

variable (log : PaneLog)

/-- Append what the filter let through. `disk` is the error of the write, if it fails. -/
def writeFiltered (bytes : List UInt8) (disk : Option String) : Option LogStop × PaneLog :=
  if bytes.isEmpty then (none, log)
  else if 0 < log.limit ∧ log.limit < min (log.written + bytes.length) u64Max then
    (some (.limit log.limit),
      { log with file := log.file ++ trailer log.limit, filter := { carry := [] } })
  else match disk with
    | some error => (some (.failed error), log)
    | none => (none, { log with file := log.file ++ bytes, written := log.written + bytes.length })

def write (bytes : List UInt8) (disk : Option String) : Option LogStop × PaneLog :=
  let pushed := log.filter.push bytes
  writeFiltered { log with filter := pushed.2 } pushed.1 disk

def drop : List UInt8 := log.file ++ log.filter.flush

def writes : List (List UInt8 × Option String) → PaneLog → Option PaneLog
  | [], log => some log
  | (bytes, disk) :: chunks, log =>
      match log.write bytes disk with
      | (none, log) => writes chunks log
      | (some _, _) => none

variable {log}
variable {next : PaneLog}

/-- A chunk that does not stop the log is appended as the filter left it, within the limit. -/
theorem write_ok {bytes : List UInt8} {disk : Option String}
    (wrote : log.write bytes disk = (none, next)) :
    next = { log with
      file := log.file ++ (log.filter.push bytes).1
      written := log.written + (log.filter.push bytes).1.length
      filter := (log.filter.push bytes).2 } ∧
    ((log.filter.push bytes).1 ≠ [] → 0 < log.limit → log.limit < u64Max →
      next.written ≤ log.limit) := by
  unfold write writeFiltered at wrote
  simp only at wrote
  split_ifs at wrote with empty full
  · rw [Prod.mk.injEq] at wrote
    rw [List.isEmpty_iff] at empty
    rw [← wrote.2, empty]
    simp
  · cases congrArg Prod.fst wrote
  · cases disk with
    | some error => cases congrArg Prod.fst wrote
    | none =>
        rw [Prod.mk.injEq] at wrote
        rw [← wrote.2]
        refine ⟨rfl, fun _ limited most => ?_⟩
        simp only
        omega

theorem writes_ok {chunks : List (List UInt8 × Option String)}
    (wrote : writes chunks log = some next) :
    next.file = log.file ++ (MarkerFilter.pushes (chunks.map Prod.fst) log.filter).1 ∧
      next.filter = (MarkerFilter.pushes (chunks.map Prod.fst) log.filter).2 := by
  induction chunks generalizing log with
  | nil =>
      cases wrote
      exact ⟨(List.append_nil _).symm, rfl⟩
  | cons chunk chunks ih =>
      rcases chunk with ⟨bytes, disk⟩
      rw [writes] at wrote
      split at wrote
      · rename_i later first
        have rest := ih wrote
        rw [(write_ok first).1] at rest
        rw [rest.1, rest.2, List.append_assoc]
        exact ⟨rfl, rfl⟩
      · cases wrote

/-- A log that was not stopped holds, once it is dropped, what it held when it was opened and then
what the filter makes of the output. -/
theorem drop_of_writes {chunks : List (List UInt8 × Option String)}
    (wrote : writes chunks log = some next) :
    next.drop = log.file ++ log.filter.output (chunks.map Prod.fst) := by
  have last := writes_ok wrote
  unfold drop MarkerFilter.output
  rw [last.1, last.2, List.append_assoc]

theorem drop_stripped {chunks : List (List UInt8 × Option String)} {existing header : List UInt8}
    {limit : Nat} (wrote : writes chunks (openLog existing header limit) = some next)
    (handled : Handled (chunks.map Prod.fst).flatten) :
    next.drop = (openLog existing header limit).file ++ stripped (chunks.map Prod.fst).flatten := by
  rw [drop_of_writes wrote]
  congr 1
  exact MarkerFilter.output_of_handled _ MarkerFilter.withheld_nil handled

structure Within (log : PaneLog) : Prop where
  counted : log.written = log.file.length
  limited : 0 < log.limit → log.limit < u64Max → log.file.length ≤ log.limit

theorem Within.write {bytes : List UInt8} {disk : Option String} (within : log.Within)
    (wrote : log.write bytes disk = (none, next)) : next.Within := by
  rcases write_ok wrote with ⟨same, short⟩
  have counted : next.written = next.file.length := by
    rw [same, List.length_append, within.counted]
  refine ⟨counted, fun some most => ?_⟩
  have limit : next.limit = log.limit := by rw [same]
  rw [limit] at some most ⊢
  by_cases empty : (log.filter.push bytes).1 = []
  · have before := within.limited some most
    rw [same, empty, List.append_nil]
    exact before
  · rw [← counted]
    exact short empty some most

/-- A log that is opened within its limit stays so until it is stopped. -/
theorem Within.writes {chunks : List (List UInt8 × Option String)} (within : log.Within)
    (wrote : writes chunks log = some next) : next.Within := by
  induction chunks generalizing log with
  | nil =>
      cases wrote
      exact within
  | cons chunk chunks ih =>
      rcases chunk with ⟨bytes, disk⟩
      rw [PaneLog.writes] at wrote
      split at wrote
      · rename_i later first
        exact ih (within.write first) wrote
      · cases wrote

end PaneLog

end Rozi.Pane
