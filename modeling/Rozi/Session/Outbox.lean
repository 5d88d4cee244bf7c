import Mathlib.Data.List.Sort
import Rozi.Library.ReplacementQueue
import Rozi.Session.Protocol

/-!
The delivery side of one client connection: its outbox, the replay barrier of an attach or a
resync, and the routing of live frames against that barrier.

Frames are encoded before they are queued. The queue reads only the length of a frame, the media it
owns and the scope those were bound to; what the frame says is `content`, of any type. Two answers
come from elsewhere and are inputs here: whether the media ledger admits another frame, and the
acquisition number it issues.

Unsigned subtraction panics when it would go below zero, and indexing when it leaves the queue. A
step that would do either sets `panicked`.
-/

namespace Rozi

open ReplacementQueue QueueBytes

def maxBacklog : Nat := 8 * 1024 * 1024

def seedSendWindow : Nat := 4 * 1024 * 1024

def seedCatchUpLimit : Nat := 8 * 1024 * 1024

def resyncStartBacklog : Nat := seedSendWindow

def seedPumpBytesPerTick : Nat := 1024 * 1024

def seedChunk : Nat := 256 * 1024

def paneOutputFrameOverhead : Nat := 67

structure PresentationKey where
  paneId : PaneId
  generation : Nat
  isLocal : Bool
  deriving DecidableEq, Repr

structure PaneSeedKey where
  paneId : PaneId
  generation : Nat
  deriving DecidableEq, Repr

/-- The order of `PaneSeedKey`: by pane id, then by generation. -/
def PaneSeedKey.before (first second : PaneSeedKey) : Prop :=
  first.paneId < second.paneId ∨
    (first.paneId = second.paneId ∧ first.generation ≤ second.generation)

instance (first second : PaneSeedKey) : Decidable (first.before second) :=
  inferInstanceAs (Decidable (_ ∨ _))

structure ReplacementKey where
  pane : PaneId
  isLocal : Bool
  generation : Nat
  epoch : Nat
  image : Nat
  incarnation : Nat
  deriving DecidableEq, Repr

inductive PaneSeedState where
  | pending | replaying | catchingUp | live
  deriving DecidableEq, Repr

inductive OutboxClass where
  | normal | seedReplay | seedCatchUp
  deriving DecidableEq, Repr

inductive ClientFrameResult where
  | queued | buffered | ignored | overflow
  deriving DecidableEq, Repr

inductive SeedDelta where
  | control
  | paneOutput (key : PaneSeedKey)
  | paneResize (key : PaneSeedKey)
  deriving DecidableEq, Repr

namespace SeedDelta

def pane : SeedDelta → Option PaneSeedKey
  | control => none
  | paneOutput key => some key
  | paneResize key => some key

def outputPane : SeedDelta → Option PaneSeedKey
  | paneOutput key => some key
  | control | paneResize _ => none

end SeedDelta

inductive SeedKind where
  | attach | resync
  deriving DecidableEq, Repr

structure EncodedOutput (ω : Type) where
  content : ω
  len : Nat
  media : List Nat := []
  scope : Option PresentationKey := none
  deriving Repr

structure OutboxFrame (ω : Type) where
  replacement : Option ReplacementKey
  bytes : EncodedOutput ω
  frameClass : OutboxClass
  pane : Option PaneSeedKey
  deriving Repr

structure CatchUpFrame (ω : Type) where
  replacement : Option ReplacementKey
  bytes : EncodedOutput ω
  delta : SeedDelta
  deriving Repr

/-- A pane whose snapshot is being sent. The spool is read from its front: `content left` is what the
frame shows that is cut when `left` bytes of it are left. -/
structure PaneSeedReplay (ω : Type) where
  key : PaneSeedKey
  resetFrame : Option (EncodedOutput ω)
  content : Nat → ω
  remaining : Nat

structure AttachSeedState (ω : Type) where
  kind : SeedKind
  manifest : PaneSeedKey → Option PaneSeedState
  pending : List PaneSeedKey
  pendingProgramStatus : List PaneSeedKey := []
  programStatusFrame : Option (EncodedOutput ω) := none
  replay : Option (PaneSeedReplay ω) := none
  catchUp : List (CatchUpFrame ω) := []
  catchUpBase : Nat := 0
  catchUpReplacements : Index ReplacementKey := fun _ => none
  catchUpBytes : Nat := 0
  baselineQueued : Bool := false
  outdated : List PaneSeedKey := []
  disconnectReason : Option String := none

/-- The fields of a connection its deliveries go through. `coalesced` is for the proofs: the
contents a replacement removed, each with the content that took its place. -/
structure ConnOutbox (ω : Type) where
  outbox : List (OutboxFrame ω) := []
  outboxBase : Nat := 0
  outboxReplacements : Index ReplacementKey := fun _ => none
  coalescedFrames : Nat := 0
  coalescedBytes : Nat := 0
  outboxBytes : Nat := 0
  seedQueuedBytes : Nat := 0
  seedCatchUpQueuedBytes : Nat := 0
  frontOffset : Nat := 0
  transportClosed : Bool := false
  seed : Option (AttachSeedState ω) := none
  resyncPending : List PaneSeedKey := []
  shedBytes : Nat := 0
  requeuedPanes : Nat := 0
  removed : Bool := false
  panicked : Bool := false
  coalesced : List (ω × ω) := []

namespace AttachSeedState

variable {ω : Type}

/-- `AttachSeedState::new`: every pane waits for its export, in the order of the keys. -/
def begin (panes : List PaneSeedKey) : AttachSeedState ω :=
  { kind := .attach
    manifest := fun key => if key ∈ panes then some .pending else none
    pending := panes.insertionSort PaneSeedKey.before }

/-- Replay only `stale`; the other live panes wait behind the replay without an export. -/
def resync (live stale : List PaneSeedKey) : AttachSeedState ω :=
  let seed := begin stale
  { seed with
    kind := .resync
    manifest := fun key => (seed.manifest key).or (if key ∈ live then some .catchingUp else none) }

def outputPrecedesSnapshot (seed : AttachSeedState ω) (key : PaneSeedKey) : Bool :=
  seed.manifest key == some .pending

end AttachSeedState

namespace ConnOutbox

variable {ω : Type} (conn : ConnOutbox ω)

def barrier : Option (AttachSeedState ω) := conn.seed.filter fun seed => !seed.baselineQueued

def replayBarrierUp : Bool := conn.barrier.isSome

def frontStarted : Bool :=
  decide (0 < conn.frontOffset) ||
    match conn.outbox with
    | front :: _ => front.bytes.scope.isSome && front.bytes.media.isEmpty
    | [] => false

/-- The share of `bytes` that a frame of class `frameClass` counts under `counted`. -/
def classShare (counted frameClass : OutboxClass) (bytes : Nat) : Nat :=
  if frameClass = counted then bytes else 0

def release (total replay catchUp : Nat) : ConnOutbox ω :=
  { conn with
    outboxBytes := conn.outboxBytes - total
    seedQueuedBytes := conn.seedQueuedBytes - replay
    seedCatchUpQueuedBytes := conn.seedCatchUpQueuedBytes - catchUp
    panicked := conn.panicked || decide (conn.outboxBytes < total) ||
      decide (conn.seedQueuedBytes < replay) || decide (conn.seedCatchUpQueuedBytes < catchUp) }

def charge (frameClass : OutboxClass) (bytes : Nat) : ConnOutbox ω :=
  { conn with
    outboxBytes := conn.outboxBytes + bytes
    seedQueuedBytes := conn.seedQueuedBytes + classShare .seedReplay frameClass bytes
    seedCatchUpQueuedBytes :=
      conn.seedCatchUpQueuedBytes + classShare .seedCatchUp frameClass bytes }

def replaceOutbox (bytes : EncodedOutput ω) (replacement : Option ReplacementKey) (cap : Nat) :
    Option (ConnOutbox ω) :=
  match replacement.bind conn.outboxReplacements with
  | none => none
  | some position =>
      if position < conn.outboxBase then none
      else if position - conn.outboxBase = 0 ∧ conn.frontStarted then none
      else match conn.outbox[position - conn.outboxBase]? with
      | none => some { conn with panicked := true }
      | some frame =>
          let previous := frame.bytes.len
          if cap < conn.outboxBytes - previous + bytes.len then none
          else
            let freed := conn.release previous (classShare .seedReplay frame.frameClass previous)
              (classShare .seedCatchUp frame.frameClass previous)
            let charged := freed.charge frame.frameClass bytes.len
            some { charged with
              outbox := conn.outbox.set (position - conn.outboxBase) { frame with bytes }
              coalescedFrames := conn.coalescedFrames + 1
              coalescedBytes := conn.coalescedBytes + previous
              coalesced := conn.coalesced ++ [(frame.bytes.content, bytes.content)] }

def indexOutboxBack (replacement : Option ReplacementKey) : ConnOutbox ω :=
  match replacement with
  | none => conn
  | some key =>
      { conn with
        outboxReplacements := insertKey conn.outboxReplacements key
          (conn.outboxBase + conn.outbox.length - 1)
        panicked := conn.panicked || decide (conn.outboxBase + conn.outbox.length < 1)
        outbox := match conn.outbox.getLast? with
          | some back => conn.outbox.dropLast ++ [{ back with replacement := some key }]
          | none => conn.outbox }

def popOutboxFront : ConnOutbox ω :=
  match conn.outbox with
  | [] => conn
  | front :: rest =>
      { conn with
        outbox := rest
        outboxBase := conn.outboxBase + 1
        outboxReplacements :=
          releaseEntry conn.outboxReplacements conn.outboxBase front.replacement }

/-- `try_push_class`: `none` when the frame does not fit under `cap`. -/
def tryPushClass (bytes : EncodedOutput ω) (cap : Nat) (frameClass : OutboxClass)
    (pane : Option PaneSeedKey) : Option (ConnOutbox ω) :=
  if conn.transportClosed then some conn
  else if cap < conn.outboxBytes + bytes.len then none
  else some { conn.charge frameClass bytes.len with
    outbox := conn.outbox ++ [{ bytes, frameClass, pane, replacement := none }] }

def paneIsSheddable (key : PaneSeedKey) : Bool :=
  match conn.barrier with
  | some seed => (seed.manifest key).isSome
  | none => true

/-- The frames at the front that a shed leaves alone: at most one, which the socket has started. -/
def pinnedOutbox : List (OutboxFrame ω) := conn.outbox.take (if conn.frontStarted then 1 else 0)

def sheddableOutbox : List (OutboxFrame ω) := conn.outbox.drop (if conn.frontStarted then 1 else 0)

/-- Of two candidates, the one with more bytes; on equal bytes the one with the smaller key. -/
def heavier (best : Option (PaneSeedKey × Nat)) (candidate : PaneSeedKey × Nat) :
    Option (PaneSeedKey × Nat) :=
  match best with
  | none => some candidate
  | some chosen =>
      if chosen.2 < candidate.2 ∨ (chosen.2 = candidate.2 ∧ ¬ chosen.1.before candidate.1) then
        some candidate
      else some chosen

/-- `largest_sheddable` over the tagged weights of the frames that count. -/
def largestSheddable (tagged : List (PaneSeedKey × Nat)) : Option PaneSeedKey :=
  let totals := (tagged.map Prod.fst).dedup.map fun key =>
    (key, bytesWhere Prod.snd (fun entry => entry.1 == key) tagged)
  let candidates := totals.filter fun entry => decide (0 < entry.2) && conn.paneIsSheddable entry.1
  (candidates.foldl heavier none).map Prod.fst

def largestOutboxPane : Option PaneSeedKey :=
  conn.largestSheddable (conn.sheddableOutbox.filterMap fun frame =>
    match frame.pane with
    | some key =>
        if conn.replayBarrierUp && frame.frameClass == .seedReplay then none
        else some (key, frame.bytes.len)
    | none => none)

def largestCatchUpPane : Option PaneSeedKey :=
  match conn.seed with
  | none => none
  | some seed =>
      conn.largestSheddable
        ((seed.catchUp.filterMap fun frame =>
          frame.delta.pane.map fun key => (key, frame.bytes.len)) ++
        conn.sheddableOutbox.filterMap fun frame =>
          if frame.frameClass = .seedCatchUp then frame.pane.map fun key => (key, frame.bytes.len)
          else none)

def survivesPurge (key : PaneSeedKey) (frame : OutboxFrame ω) : Bool :=
  frame.pane != some key || (conn.replayBarrierUp && frame.frameClass == .seedReplay)

def purgeOutboxPane (key : PaneSeedKey) : ConnOutbox ω × Nat :=
  let dropped := conn.sheddableOutbox.filter fun frame => !conn.survivesPurge key frame
  let size := fun frame : OutboxFrame ω => frame.bytes.len
  let freed := bytesWhere size (fun _ => true) dropped
  let outbox := conn.pinnedOutbox ++ conn.sheddableOutbox.filter (conn.survivesPurge key)
  ({ conn.release freed
      (bytesWhere size (fun frame => frame.frameClass == .seedReplay) dropped)
      (bytesWhere size (fun frame => frame.frameClass == .seedCatchUp) dropped) with
    outbox
    outboxReplacements := rebuild OutboxFrame.replacement conn.outboxBase outbox fun _ => none },
    freed)

/-- The catch-up side of a shed, and whether the pane has to be replayed again. -/
def purgeCatchUpPane (seed : AttachSeedState ω) (key : PaneSeedKey) : AttachSeedState ω × Nat :=
  let kept := seed.catchUp.filter fun frame => frame.delta.pane != some key
  let freed := bytesWhere (fun frame : CatchUpFrame ω => frame.bytes.len)
    (fun frame => frame.delta.pane == some key) seed.catchUp
  ({ seed with
    catchUp := kept
    catchUpReplacements := rebuild CatchUpFrame.replacement seed.catchUpBase kept fun _ => none
    catchUpBytes := seed.catchUpBytes - freed
    outdated := if seed.manifest key != some .pending && !seed.outdated.contains key then
      key :: seed.outdated else seed.outdated }, freed)

/-- `shed_pane`: stop delivering a pane's transcript and arrange for a replay in its place. -/
def shedPane (key : PaneSeedKey) : ConnOutbox ω :=
  let purged := conn.purgeOutboxPane key
  let conn := { purged.1 with shedBytes := purged.1.shedBytes + purged.2 }
  match conn.barrier with
  | none => { conn with resyncPending := conn.resyncPending.insert key }
  | some seed =>
      let shed := purgeCatchUpPane seed key
      { conn with
        seed := some shed.1
        panicked := conn.panicked || decide (seed.catchUpBytes < shed.2)
        requeuedPanes := if seed.manifest key != some .pending && !seed.outdated.contains key then
          conn.requeuedPanes + 1 else conn.requeuedPanes
        shedBytes := conn.shedBytes + shed.2 }

def ignoring (bytes : EncodedOutput ω) : ConnOutbox ω × ClientFrameResult :=
  ({ conn with shedBytes := conn.shedBytes + bytes.len }, .ignored)

def overflowing (reason : String) : ConnOutbox ω × ClientFrameResult :=
  ({ conn with seed := conn.seed.map fun seed => { seed with disconnectReason := some reason } },
    .overflow)

/-- The loop of `push_live` and the push that ends it. `fuel` bounds the panes still to shed. -/
def pushLiveLoop (bytes : EncodedOutput ω) (delta : SeedDelta) (cap : Nat)
    (replacement : Option ReplacementKey) :
    Nat → ConnOutbox ω → ConnOutbox ω × ClientFrameResult
  | 0, conn => ({ conn with panicked := true }, .ignored)
  | fuel + 1, conn =>
      if conn.outboxBytes + bytes.len ≤ cap then
        match conn.tryPushClass bytes cap .normal delta.outputPane with
        | some pushed => (pushed.indexOutboxBack replacement, .queued)
        | none => (conn.indexOutboxBack replacement, .queued)
      else match conn.largestOutboxPane with
      | none =>
          match delta.outputPane with
          | some key =>
              { conn with resyncPending := conn.resyncPending.insert key }.ignoring bytes
          | none => conn.overflowing "attach-outbox-overflow"
      | some victim =>
          let conn := conn.shedPane victim
          if delta.outputPane = some victim then conn.ignoring bytes
          else pushLiveLoop bytes delta cap replacement fuel conn

/-- `push_live`: queue a frame straight onto the outbox, shedding the pane with the most queued
output until it fits. -/
def pushLive (bytes : EncodedOutput ω) (delta : SeedDelta) (cap : Nat)
    (replacement : Option ReplacementKey) : ConnOutbox ω × ClientFrameResult :=
  if delta.outputPane.any conn.resyncPending.contains then conn.ignoring bytes
  else match conn.replaceOutbox bytes replacement cap with
  | some replaced => (replaced, .queued)
  | none => pushLiveLoop bytes delta cap replacement (conn.outbox.length + 1) conn

def replaceCatchUp (seed : AttachSeedState ω) (bytes : EncodedOutput ω) (delta : SeedDelta)
    (replacement : Option ReplacementKey) : Option (ConnOutbox ω) :=
  match replacement.bind seed.catchUpReplacements with
  | none => none
  | some position =>
      if position < seed.catchUpBase then none
      else match seed.catchUp[position - seed.catchUpBase]? with
      | none => some { conn with panicked := true }
      | some frame =>
          let previous := frame.bytes.len
          if seedCatchUpLimit <
              seed.catchUpBytes - previous + conn.seedCatchUpQueuedBytes + bytes.len then none
          else some { conn with
            seed := some { seed with
              catchUp := seed.catchUp.set (position - seed.catchUpBase)
                { replacement, bytes, delta }
              catchUpBytes := seed.catchUpBytes - previous + bytes.len }
            panicked := conn.panicked || decide (seed.catchUpBytes < previous)
            coalescedFrames := conn.coalescedFrames + 1
            coalescedBytes := conn.coalescedBytes + previous
            coalesced := conn.coalesced ++ [(frame.bytes.content, bytes.content)] }

def appendCatchUp (seed : AttachSeedState ω) (bytes : EncodedOutput ω) (delta : SeedDelta)
    (replacement : Option ReplacementKey) : ConnOutbox ω :=
  { conn with seed := some { seed with
      catchUp := seed.catchUp ++ [{ replacement, bytes, delta }]
      catchUpBytes := seed.catchUpBytes + bytes.len
      catchUpReplacements := match replacement with
        | some key => insertKey seed.catchUpReplacements key
            (seed.catchUpBase + seed.catchUp.length)
        | none => seed.catchUpReplacements } }

/-- The loop of `push_catch_up`. `fuel` bounds the panes still to shed. -/
def pushCatchUpLoop (bytes : EncodedOutput ω) (delta : SeedDelta)
    (replacement : Option ReplacementKey) :
    Nat → ConnOutbox ω → ConnOutbox ω × ClientFrameResult
  | 0, conn => ({ conn with panicked := true }, .ignored)
  | fuel + 1, conn =>
      match conn.seed with
      | none => ({ conn with panicked := true }, .ignored)
      | some seed =>
          if delta.pane.any seed.outdated.contains then conn.ignoring bytes
          else match conn.replaceCatchUp seed bytes delta replacement with
          | some replaced => (replaced, .buffered)
          | none =>
              if seed.catchUpBytes + conn.seedCatchUpQueuedBytes + bytes.len ≤ seedCatchUpLimit then
                (conn.appendCatchUp seed bytes delta replacement, .buffered)
              else
                let own := delta.pane.filter conn.paneIsSheddable
                match conn.largestCatchUpPane.or own with
                | none => conn.overflowing "attach-catch-up-overflow"
                | some victim =>
                    let conn := conn.shedPane victim
                    if delta.pane = some victim then conn.ignoring bytes
                    else pushCatchUpLoop bytes delta replacement fuel conn

/-- `push_catch_up`: retain a change behind replay, shedding the pane holding the most catch-up
until it fits. -/
def pushCatchUp (bytes : EncodedOutput ω) (delta : SeedDelta)
    (replacement : Option ReplacementKey) : ConnOutbox ω × ClientFrameResult :=
  let queued := match conn.seed with
    | some seed => seed.catchUp.length
    | none => 0
  pushCatchUpLoop bytes delta replacement (queued + conn.outbox.length + 1) conn

/-- `push_delta_inner`: route one frame against the baseline barrier. -/
def pushDeltaInner (bytes : EncodedOutput ω) (delta : SeedDelta) (defaultCap : Nat)
    (replacement : Option ReplacementKey) : ConnOutbox ω × ClientFrameResult :=
  if conn.transportClosed then (conn, .ignored)
  else match conn.barrier with
  | none => conn.pushLive bytes delta defaultCap replacement
  | some seed =>
      match delta with
      | .paneOutput key =>
          if seed.outputPrecedesSnapshot key then (conn, .ignored)
          else conn.pushCatchUp bytes delta replacement
      | .paneResize key =>
          if seed.outputPrecedesSnapshot key then
            conn.pushLive bytes delta defaultCap replacement
          else conn.pushCatchUp bytes delta replacement
      | .control => conn.pushCatchUp bytes delta replacement

/-- `push_delta`: a frame that brings media past what the ledger admits overflows. -/
def pushDelta (bytes : EncodedOutput ω) (delta : SeedDelta) (defaultCap : Nat)
    (replacement : Option ReplacementKey) (mediaWithinBudget : Bool) :
    ConnOutbox ω × ClientFrameResult :=
  let pushed := conn.pushDeltaInner bytes delta defaultCap replacement
  if bytes.media.isEmpty || mediaWithinBudget then pushed else (pushed.1, .overflow)

/-- `prepare_acquisition` on the front of a nonempty outbox: `issued` is the number the ledger
gives out, `none` when it refuses. -/
def prepareAcquisition (issued : Option Nat) : Option (ConnOutbox ω) :=
  match conn.outbox with
  | [] => some conn
  | front :: rest =>
      if front.bytes.media.isEmpty then some conn
      else match issued with
      | none => none
      | some _ => some { conn with
          outbox := { front with bytes := { front.bytes with media := [] } } :: rest }

/-- One turn of the loop of `flush_client_outbox`, whose write took `written` bytes; zero is a
write that would block. `none` when the acquisition is refused. -/
def flushFront (issued : Option Nat) (written : Nat) : Option (ConnOutbox ω) :=
  match if conn.frontOffset = 0 then conn.prepareAcquisition issued else some conn with
  | none => none
  | some conn =>
      match conn.outbox with
      | [] => some conn
      | front :: _ =>
          let released := conn.release written
            (classShare .seedReplay front.frameClass written)
            (classShare .seedCatchUp front.frameClass written)
          let advanced := { released with frontOffset := conn.frontOffset + written }
          if front.bytes.len ≤ advanced.frontOffset ∧ 0 < written then
            some { advanced.popOutboxFront with frontOffset := 0 }
          else some advanced

def takeCompletedSeed : Option (AttachSeedState ω × ConnOutbox ω) :=
  match conn.seed with
  | none => none
  | some seed =>
      if seed.baselineQueued && conn.seedQueuedBytes == 0 && conn.seedCatchUpQueuedBytes == 0 then
        some (seed, { conn with seed := none })
      else none

end ConnOutbox

end Rozi
