import Rozi.Library.BigEndian
import Rozi.Library.Transition
import Rozi.Session.ByteQueue

/-!
The media pipeline of a session server: one image is prepared off the server loop while the output
it came from waits in the ingress queue, and the controls that would disturb its screen wait behind
it.

The parser and the worker are not here. Their answers are inputs of a step: the work a screen asks
for, the length a job consumed, the transactions a screen recorded. What a handled control or event
does to the rest of the server is an input too, a list of effects on the state modelled here.
-/

namespace Rozi

def mediaOutputBytesPerTick : Nat := 256 * 1024

def maxPtyIngressBytes : Nat := 4 * 1024 * 1024

def maxCoalescedPaneBytes : Nat := 64 * 1024

structure MediaKey where
  owner : Option ClientId
  pane : PaneId
  generation : Nat
  deriving DecidableEq, Repr

inductive GraphicsDependency where
  | independent | dependsOnPrevious | editsPrevious
  deriving DecidableEq, Repr

inductive TerminalOutputClass where
  | ordered
  | graphics (image incarnation revision : Nat) (dependency : GraphicsDependency)
  deriving DecidableEq, Repr

structure TerminalOutputMedia where
  commandRange : Nat × Nat
  file : Nat
  deriving DecidableEq, Repr

structure TerminalOutputTransaction where
  outputClass : TerminalOutputClass
  bytes : Bytes
  media : List TerminalOutputMedia := []
  deriving DecidableEq, Repr

inductive GraphicsRelayPolicy where
  | namedAsFiles | allWithEdits | all
  deriving DecidableEq, Repr

structure TerminalMediaWork where
  source : Bytes
  relayPolicy : GraphicsRelayPolicy
  deriving DecidableEq, Repr

/-- Prepared input says how much of the output it was prepared from it stands for. -/
structure TerminalPreparedInput extends TerminalMediaWork where
  consumedBytes : Nat
  within : consumedBytes ≤ source.length
  deriving DecidableEq, Repr

abbrev Consumes := (work : TerminalMediaWork) → Fin (work.source.length + 1)

def TerminalMediaWork.run (work : TerminalMediaWork) (consumes : Consumes) :
    TerminalPreparedInput :=
  { work with consumedBytes := consumes work, within := Nat.le_of_lt_succ (consumes work).isLt }

def TerminalPreparedInput.withRelayPolicy (prepared : TerminalPreparedInput)
    (relay : GraphicsRelayPolicy) : TerminalMediaWork :=
  { prepared.toTerminalMediaWork with relayPolicy := relay }

structure PendingMediaOutput where
  transactions : List TerminalOutputTransaction
  offset : Nat := 0
  deriving DecidableEq, Repr

def TerminalOutputTransaction.divisible (transaction : TerminalOutputTransaction) : Bool :=
  transaction.outputClass = .ordered && transaction.media.isEmpty

namespace PendingMediaOutput

def takeWithin : Nat → Nat → List TerminalOutputTransaction →
    List TerminalOutputTransaction × PendingMediaOutput
  | _, offset, [] => ([], { transactions := [], offset })
  | budget, offset, front :: rest =>
      if budget = 0 then ([], { transactions := front :: rest, offset })
      else
        let remaining := front.bytes.length - offset
        let length := if front.divisible then min remaining budget else remaining
        if offset = 0 ∧ length = remaining then
          let (batch, left) := takeWithin (budget - length) 0 rest
          (front :: batch, left)
        else
          let piece : TerminalOutputTransaction :=
            { outputClass := front.outputClass
              bytes := front.bytes.slice offset (offset + length) }
          if offset + length = front.bytes.length then
            let (batch, left) := takeWithin (budget - length) 0 rest
            (piece :: batch, left)
          else
            -- the piece is shorter than what remained, so it took the rest of the budget
            ([piece], { transactions := front :: rest, offset := offset + length })

def takeBatch (pending : PendingMediaOutput) :
    List TerminalOutputTransaction × PendingMediaOutput :=
  takeWithin mediaOutputBytesPerTick pending.offset pending.transactions

end PendingMediaOutput

structure MediaWorker where
  jobs : List TerminalMediaWork := []
  completed : List TerminalPreparedInput := []
  deriving DecidableEq, Repr

def MediaWorker.finishJob (worker : MediaWorker) (consumes : Consumes) : MediaWorker :=
  match worker.jobs, worker.completed with
  | work :: jobs, [] => { jobs, completed := [work.run consumes] }
  | _, _ => worker

structure MediaPipeline where
  worker : Option MediaWorker := none
  active : Option MediaKey := none
  ready : Option TerminalPreparedInput := none
  stageKey : Option MediaKey := none
  output : Option PendingMediaOutput := none
  clientBarriers : ClientId → Option Nat := fun _ => none

namespace MediaPipeline

variable (pipeline : MediaPipeline)

def clientFenced (client : ClientId) : Bool := (pipeline.clientBarriers client).isSome

/-- Whether the event is ready because its job could not be started: `spawns` and `accepts` say
whether a worker can be spawned and whether it takes the job. -/
def start (spawns accepts : Bool) (key : MediaKey) (work : TerminalMediaWork) :
    Bool × MediaPipeline :=
  if pipeline.active.isSome then (false, pipeline)
  else
    match pipeline.worker, spawns with
    | none, false => (true, pipeline)
    | worker, _ =>
        let worker := worker.getD {}
        if accepts then
          (false,
            { pipeline with
              worker := some { worker with jobs := worker.jobs ++ [work] }
              active := some key })
        else (true, { pipeline with worker := some worker })

def readyLength (key : MediaKey) : Option Nat :=
  if pipeline.active = some key then
    pipeline.ready.map TerminalPreparedInput.consumedBytes
  else none

def takeReady (key : MediaKey) : Option TerminalPreparedInput × MediaPipeline :=
  if pipeline.active ≠ some key then (none, pipeline)
  else
    match pipeline.ready with
    | some ready => (some ready, { pipeline with ready := none, stageKey := some key })
    | none => (none, pipeline)

def stageOutput (key : MediaKey) (transactions : List TerminalOutputTransaction) :
    Bool × MediaPipeline :=
  if pipeline.stageKey ≠ some key then (false, pipeline)
  else if transactions.isEmpty then (true, { pipeline with stageKey := none, active := none })
  else (true, { pipeline with stageKey := none, output := some { transactions } })

def discardCompleted (key : MediaKey) : MediaPipeline :=
  if pipeline.active = some key ∧
      (pipeline.ready.isSome ∨ pipeline.output.isSome ∨ pipeline.stageKey.isSome) then
    { pipeline with ready := none, output := none, stageKey := none, active := none }
  else pipeline

/-- The source unwraps `active`: output always has an owner. -/
def outputBatch :
    Option (MediaKey × List TerminalOutputTransaction × Bool × MediaPipeline) :=
  match pipeline.output, pipeline.active with
  | some pending, some key =>
      let (batch, left) := pending.takeBatch
      if left.transactions.isEmpty then
        some (key, batch, false, { pipeline with output := none, active := none })
      else some (key, batch, true, { pipeline with output := some left })
  | _, _ => none

/-- A result is kept, or prepared again if the relay policy has changed since. -/
def keepResult (worker : MediaWorker) (prepared : TerminalPreparedInput)
    (relay : GraphicsRelayPolicy) (accepts : Bool) (consumes : Consumes) : MediaPipeline :=
  if prepared.relayPolicy = relay then
    { pipeline with worker := some worker, ready := some prepared }
  else
    let work := prepared.withRelayPolicy relay
    if accepts then
      { pipeline with
        worker := some { worker with jobs := worker.jobs ++ [work] }
        ready := none }
    else { pipeline with worker := some worker, ready := some (work.run consumes) }

def poll (relay : GraphicsRelayPolicy) (accepts : Bool) (consumes : Consumes) : MediaPipeline :=
  if pipeline.output.isSome ∨ pipeline.stageKey.isSome then pipeline
  else
    match pipeline.worker with
    | none => pipeline
    | some worker =>
        match pipeline.ready, worker.completed with
        | some prepared, _ => pipeline.keepResult worker prepared relay accepts consumes
        | none, prepared :: completed =>
            pipeline.keepResult { worker with completed } prepared relay accepts consumes
        | none, [] => pipeline

end MediaPipeline

end Rozi
