import Rozi.Library.Transition
import Rozi.Session.Outbox

/-!
Advancing the replay barrier of one connection: the baseline of an attach or a resync, the
catch-up behind it, and what makes the connection move.
-/

namespace Rozi

open ReplacementQueue QueueBytes

inductive AttachSeedWork where
  | programStatus (key : PaneSeedKey)
  | replayReset
  | finishReplay
  | replayChunk
  | beginPane (key : PaneSeedKey)
  | catchUp
  | complete
  | done
  deriving DecidableEq, Repr

structure PaneSnapshot (ω : Type) where
  resetFrame : Option (EncodedOutput ω)
  content : Nat → ω
  replayLen : Nat

/-- What one unit of pump work is given: the bytes left in this tick, the export of the pane at the
front of the queue (`none` when it is gone) and the status frame of the next status baseline. -/
structure PumpInput (ω : Type) where
  remaining : Nat
  snapshot : Option (PaneSnapshot ω)
  statusFrame : Option (EncodedOutput ω)

namespace ConnOutbox

variable {ω : Type} (conn : ConnOutbox ω)

def updateSeed (change : AttachSeedState ω → AttachSeedState ω) : ConnOutbox ω :=
  { conn with seed := conn.seed.map change }

def enqueueAttachSeeds (panes statuses : List PaneSeedKey) : ConnOutbox ω :=
  { conn with seed := some { AttachSeedState.begin panes with
      pendingProgramStatus := statuses.insertionSort PaneSeedKey.before } }

/-- `start_client_resyncs` for this connection, attached; `live` are the panes still running. -/
def startClientResync (live : List PaneSeedKey) : ConnOutbox ω :=
  if conn.seed.isSome || conn.resyncPending.isEmpty ||
      decide (resyncStartBacklog < conn.outboxBytes) then conn
  else
    let stale := conn.resyncPending.filter fun key => live.contains key
    let conn := { conn with resyncPending := [] }
    if stale.isEmpty then conn
    else { conn with seed := some (AttachSeedState.resync live stale) }

def nextAttachSeedWork : AttachSeedWork :=
  match conn.barrier with
  | none => .done
  | some seed =>
      match seed.pendingProgramStatus with
      | key :: _ => .programStatus key
      | [] =>
          match seed.replay with
          | some replay =>
              if replay.resetFrame.isSome then .replayReset
              else if replay.remaining = 0 then .finishReplay
              else .replayChunk
          | none =>
              match seed.pending with
              | key :: _ => .beginPane key
              | [] => if seed.catchUp.isEmpty then .complete else .catchUp

def nextExport : Option PaneSeedKey :=
  match conn.nextAttachSeedWork with
  | .beginPane key => some key
  | _ => none

/-- `queue_attach_frame`: whether the frame was queued. One that does not fit ends the
connection. -/
def queueAttachFrame (frame : EncodedOutput ω) (frameClass : OutboxClass)
    (pane : Option PaneSeedKey) (overflowReason : String) : ConnOutbox ω × Bool :=
  match conn.tryPushClass frame maxBacklog frameClass pane with
  | some pushed => (pushed, true)
  | none =>
      ({ conn.updateSeed fun seed => { seed with disconnectReason := some overflowReason } with
        removed := true }, false)

def finishProgramStatusBaseline : ConnOutbox ω :=
  conn.updateSeed fun seed =>
    { seed with
      pendingProgramStatus := seed.pendingProgramStatus.tail
      programStatusFrame := none }

/-- `pump_program_status_baseline`: a frame cut earlier is sent before a new one is. -/
def pumpProgramStatusBaseline (seed : AttachSeedState ω) (encoded : Option (EncodedOutput ω))
    (remaining : Nat) : ConnOutbox ω :=
  match seed.programStatusFrame.or encoded with
  | none => conn.finishProgramStatusBaseline
  | some frame =>
      let conn := conn.updateSeed fun seed => { seed with programStatusFrame := some frame }
      if seedSendWindow - conn.outboxBytes < frame.len ∨
          (remaining < frame.len ∧ remaining ≠ seedPumpBytesPerTick) then conn
      else match conn.tryPushClass frame seedSendWindow .seedReplay none with
      | none => conn
      | some pushed => pushed.finishProgramStatusBaseline

def pumpReplayReset (frame : EncodedOutput ω) (remaining : Nat) : ConnOutbox ω :=
  if seedSendWindow - conn.outboxBytes < frame.len ∨ remaining < frame.len then conn
  else
    let queued := conn.queueAttachFrame frame .seedReplay none "attach-seed-outbox-overflow"
    if queued.2 then
      queued.1.updateSeed fun seed =>
        { seed with replay := seed.replay.map fun replay => { replay with resetFrame := none } }
    else queued.1

def finishPaneReplay (replay : PaneSeedReplay ω) : ConnOutbox ω :=
  conn.updateSeed fun seed =>
    { seed with
      replay := none
      manifest := fun key => if key = replay.key then some .catchingUp else seed.manifest key }

def replayPayload (remaining left : Nat) : Nat :=
  min (min seedChunk (min (seedSendWindow - conn.outboxBytes) remaining - paneOutputFrameOverhead))
    left

def pumpReplayChunk (replay : PaneSeedReplay ω) (remaining : Nat) : ConnOutbox ω :=
  let payload := conn.replayPayload remaining replay.remaining
  if seedSendWindow - conn.outboxBytes ≤ paneOutputFrameOverhead ∨ payload = 0 then conn
  else
    let frame :=
      { content := replay.content replay.remaining, len := payload + paneOutputFrameOverhead }
    let queued := conn.queueAttachFrame frame .seedReplay (some replay.key)
      "attach-seed-outbox-overflow"
    if queued.2 then
      queued.1.updateSeed fun seed =>
        { seed with replay := seed.replay.map fun replay =>
            { replay with remaining := replay.remaining - payload } }
    else queued.1

/-- `begin_pane_replay` of the pane at the front of the queue. -/
def beginPaneReplay (key : PaneSeedKey) (snapshot : Option (PaneSnapshot ω)) : ConnOutbox ω :=
  conn.updateSeed fun seed =>
    let seed := { seed with pending := seed.pending.tail }
    match snapshot with
    | some snapshot =>
        { seed with
          manifest := fun other => if other = key then some .replaying else seed.manifest other
          replay := some {
            key, resetFrame := snapshot.resetFrame, content := snapshot.content
            remaining := snapshot.replayLen } }
    | none =>
        { seed with
          manifest := fun other => if other = key then some .catchingUp else seed.manifest other }

def popCatchUp (seed : AttachSeedState ω) (frameLen : Nat) : AttachSeedState ω :=
  match seed.catchUp with
  | [] => { seed with catchUpBytes := seed.catchUpBytes - frameLen }
  | front :: rest =>
      { seed with
        catchUp := rest
        catchUpBase := seed.catchUpBase + 1
        catchUpReplacements :=
          releaseEntry seed.catchUpReplacements seed.catchUpBase front.replacement
        catchUpBytes := seed.catchUpBytes - frameLen }

/-- `pump_seed_catch_up` on the frame at the front of the catch-up queue. -/
def pumpSeedCatchUp (seed : AttachSeedState ω) (front : CatchUpFrame ω) (remaining : Nat) :
    ConnOutbox ω :=
  if seedSendWindow - conn.outboxBytes < front.bytes.len ∨ remaining < front.bytes.len then conn
  else
    let queued := conn.queueAttachFrame front.bytes .seedCatchUp front.delta.outputPane
      "attach-catch-up-outbox-overflow"
    if queued.2 then
      let indexed := queued.1.indexOutboxBack front.replacement
      { indexed.updateSeed fun seed => popCatchUp seed front.bytes.len with
        panicked := indexed.panicked || decide (seed.catchUpBytes < front.bytes.len) }
    else queued.1

/-- `complete_attach_baseline`: the barrier is queued, and the panes outdated behind it wait for a
resync. -/
def completeAttachBaseline (seed : AttachSeedState ω) : ConnOutbox ω :=
  { conn with
    resyncPending := conn.resyncPending ∪ seed.outdated
    seed := some { seed with
      manifest := fun key => (seed.manifest key).map fun _ => .live
      baselineQueued := true
      outdated := [] } }

def pumpWork (input : PumpInput ω) : ConnOutbox ω :=
  match conn.barrier with
  | none => conn
  | some seed =>
      match conn.nextAttachSeedWork with
      | .programStatus _ => conn.pumpProgramStatusBaseline seed input.statusFrame input.remaining
      | .replayReset =>
          match seed.replay.bind PaneSeedReplay.resetFrame with
          | some frame => conn.pumpReplayReset frame input.remaining
          | none => conn
      | .finishReplay =>
          match seed.replay with
          | some replay => conn.finishPaneReplay replay
          | none => conn
      | .replayChunk =>
          match seed.replay with
          | some replay => conn.pumpReplayChunk replay input.remaining
          | none => conn
      | .beginPane key => conn.beginPaneReplay key input.snapshot
      | .catchUp =>
          match seed.catchUp with
          | front :: _ => conn.pumpSeedCatchUp seed front input.remaining
          | [] => conn
      | .complete => conn.completeAttachBaseline seed
      | .done => conn

end ConnOutbox

inductive OutboxLabel (ω : Type) where
  | attach (panes statuses : List PaneSeedKey)
  | push (bytes : EncodedOutput ω) (delta : SeedDelta) (replacement : Option ReplacementKey)
      (mediaWithinBudget : Bool)
  | ping (bytes : EncodedOutput ω)
  | startResync (live : List PaneSeedKey)
  | pump (input : PumpInput ω)
  | flush (issued : Option Nat) (written : Nat)
  | takeCompleted

/-- One step of the delivery side. A write takes at most what is left of the front frame; a refused
acquisition or a ping that does not fit ends the attempt. -/
inductive OutboxStep {ω : Type} (conn : ConnOutbox ω) : OutboxLabel ω → ConnOutbox ω → Prop
  | attach (panes statuses : List PaneSeedKey) :
      OutboxStep conn (.attach panes statuses) (conn.enqueueAttachSeeds panes statuses)
  | push (bytes : EncodedOutput ω) (delta : SeedDelta) (replacement : Option ReplacementKey)
      (mediaWithinBudget : Bool) :
      OutboxStep conn (.push bytes delta replacement mediaWithinBudget)
        (conn.pushDelta bytes delta maxBacklog replacement mediaWithinBudget).1
  | ping {bytes : EncodedOutput ω} {next : ConnOutbox ω}
      (fits : conn.tryPushClass bytes maxBacklog .normal none = some next) :
      OutboxStep conn (.ping bytes) next
  | startResync (live : List PaneSeedKey) :
      OutboxStep conn (.startResync live) (conn.startClientResync live)
  | pump (input : PumpInput ω) : OutboxStep conn (.pump input) (conn.pumpWork input)
  | flush {issued : Option Nat} {written : Nat} {front : OutboxFrame ω}
      {rest : List (OutboxFrame ω)} {next : ConnOutbox ω} (queued : conn.outbox = front :: rest)
      (room : written ≤ front.bytes.len - conn.frontOffset)
      (wrote : conn.flushFront issued written = some next) :
      OutboxStep conn (.flush issued written) next
  | takeCompleted {seed : AttachSeedState ω} {next : ConnOutbox ω}
      (completed : conn.takeCompletedSeed = some (seed, next)) :
      OutboxStep conn .takeCompleted next

def outboxRuns (ω : Type) : Transition (ConnOutbox ω) (OutboxLabel ω) where
  initial := fun conn => conn = {}
  step := OutboxStep

end Rozi
