import Rozi.Session.SeedPump

/-!
What a producer pushes to one client and what the client gets of it. Every frame carries a stamp:
when it was pushed, the pane it belongs to and what it shows. The frames of a snapshot are stamped
with the moment its export was taken, not with the moments they are queued, and with their place in
it.
-/

namespace Rozi

def PaneSeedKey.presentation (key : PaneSeedKey) : PresentationKey :=
  { paneId := key.paneId, generation := key.generation, isLocal := false }

def PresentationKey.seedKey (pane : PresentationKey) : Option PaneSeedKey :=
  if pane.isLocal then none else some { paneId := pane.paneId, generation := pane.generation }

inductive OutputClass where
  | ordered
  | dependentGraphics (image incarnation revision : Nat)
  | independentGraphics (image incarnation revision : Nat)
  deriving DecidableEq, Repr

structure OutputMetadata where
  sequence : Nat
  coalesceEpoch : Nat
  outputClass : OutputClass
  deriving DecidableEq, Repr

def OutputMetadata.replacementKey (metadata : OutputMetadata) (pane : PresentationKey) :
    Option ReplacementKey :=
  match metadata.outputClass with
  | .independentGraphics image incarnation _ =>
      some {
        pane := pane.paneId, isLocal := pane.isLocal, generation := pane.generation
        epoch := metadata.coalesceEpoch, image, incarnation }
  | .ordered | .dependentGraphics .. => none

/-- What a server broadcasts, as far as the delivery side tells it apart: `ServerOutbound`, with the
control message that resizes a pane on its own. -/
inductive Outbound where
  | control
  | resized (pane : PresentationKey)
  | paneOutput (pane : PresentationKey) (metadata : OutputMetadata)
  deriving DecidableEq, Repr

namespace Outbound

/-- `seed_delta_for_control`, and the delta `broadcast_outbound` gives a pane's output. -/
def delta : Outbound → SeedDelta
  | control => .control
  | resized pane => (pane.seedKey.map .paneResize).getD .control
  | paneOutput pane _ => (pane.seedKey.map .paneOutput).getD .control

def replacement : Outbound → Option ReplacementKey
  | control | resized _ => none
  | paneOutput pane metadata => metadata.replacementKey pane

end Outbound

inductive FrameKind where
  | control
  | resize
  | output (metadata : OutputMetadata)
  | reset
  | replay (offset : Nat)
  deriving DecidableEq, Repr

structure Stamp where
  tick : Nat
  pane : Option PresentationKey
  kind : FrameKind
  deriving DecidableEq, Repr

namespace Stamp

variable (stamp : Stamp)

/-- The replacement key of the frame; a frame without one is ordered. -/
def key : Option ReplacementKey :=
  match stamp.kind with
  | .output metadata => stamp.pane.bind metadata.replacementKey
  | .control | .resize | .reset | .replay _ => none

/-- The place of the frame in the snapshot it is cut from: the reset, then the spool from its
front. -/
def part : Option Nat :=
  match stamp.kind with
  | .reset => some 0
  | .replay offset => some (offset + 1)
  | .control | .resize | .output _ => none

def snapshot : Bool := stamp.part.isSome

def transcript : Option PaneSeedKey :=
  match stamp.kind with
  | .output _ | .replay _ => stamp.pane.bind PresentationKey.seedKey
  | .control | .resize | .reset => none

def delta : SeedDelta :=
  match stamp.kind with
  | .output _ => ((stamp.pane.bind PresentationKey.seedKey).map .paneOutput).getD .control
  | .resize => ((stamp.pane.bind PresentationKey.seedKey).map .paneResize).getD .control
  | .control | .reset | .replay _ => .control

theorem pane_of_key {stamp : Stamp} {key : ReplacementKey} (keyed : stamp.key = some key) :
    stamp.pane = some ⟨key.pane, key.generation, key.isLocal⟩ := by
  unfold Stamp.key at keyed
  split at keyed
  · rename_i metadata _
    rcases Option.bind_eq_some_iff.mp keyed with ⟨pane, present, made⟩
    rw [present]
    unfold OutputMetadata.replacementKey at made
    split at made
    · cases made
      rfl
    · cases made
    · cases made
  · cases keyed
  · cases keyed
  · cases keyed
  · cases keyed

end Stamp

def Outbound.stamp (tick : Nat) : Outbound → Stamp
  | control => { tick, pane := none, kind := .control }
  | resized pane => { tick, pane := some pane, kind := .resize }
  | paneOutput pane metadata => { tick, pane := some pane, kind := .output metadata }

section outbound

variable (outbound : Outbound) (tick : Nat)

@[simp] theorem Outbound.stamp_tick : (outbound.stamp tick).tick = tick := by
  cases outbound <;> rfl

@[simp] theorem Outbound.stamp_key : (outbound.stamp tick).key = outbound.replacement := by
  cases outbound <;> rfl

@[simp] theorem Outbound.stamp_delta : (outbound.stamp tick).delta = outbound.delta := by
  cases outbound <;> rfl

@[simp] theorem Outbound.stamp_snapshot : (outbound.stamp tick).snapshot = false := by
  cases outbound <;> rfl

end outbound

/-- The reset of an export of `key` taken at `tick`, and the frame cut from its spool at `offset`. -/
def resetStamp (tick : Nat) (key : PaneSeedKey) : Stamp :=
  { tick, pane := some key.presentation, kind := .reset }

def replayStamp (tick : Nat) (key : PaneSeedKey) (offset : Nat) : Stamp :=
  { tick, pane := some key.presentation, kind := .replay offset }

/-- The byte lengths of an export: its reset, unless that could not be encoded, and its replay. -/
structure ExportLengths where
  reset : Option Nat
  replay : Nat
  deriving DecidableEq, Repr

namespace ExportLengths

variable (lengths : ExportLengths) (tick : Nat) (key : PaneSeedKey)

def snapshot : PaneSnapshot Stamp :=
  { resetFrame := lengths.reset.map fun len => { content := resetStamp tick key, len }
    content := fun left => replayStamp tick key (lengths.replay - left)
    replayLen := lengths.replay }

def stamps : List Stamp :=
  resetStamp tick key :: (List.range lengths.replay).map (replayStamp tick key)

variable {lengths tick key}

theorem shown_of_stamps {stamp : Stamp} (member : stamp ∈ lengths.stamps tick key) :
    stamp.tick = tick ∧ stamp.pane = some key.presentation ∧ stamp.snapshot = true := by
  rcases List.mem_cons.mp member with rfl | cut
  · exact ⟨rfl, rfl, rfl⟩
  · rcases List.mem_map.mp cut with ⟨offset, _, rfl⟩
    exact ⟨rfl, rfl, rfl⟩

end ExportLengths

/-- One client's connection, the stamps given out so far and the stamps of the frames that were
written to their end. -/
structure DeliveryState where
  conn : ConnOutbox Stamp := {}
  clock : Nat := 0
  pushed : List Stamp := []
  written : List Stamp := []
  attached : Bool := false
  overflowed : Bool := false

inductive DeliveryLabel where
  | attach (panes statuses : List PaneSeedKey)
  | push (outbound : Outbound) (len : Nat) (media : List Nat) (scope : Option PresentationKey)
      (mediaWithinBudget : Bool)
  | ping (len : Nat)
  | startResync (live : List PaneSeedKey)
  | pump (remaining : Nat) (exported : Option ExportLengths) (status : Option Nat)
  | flush (issued : Option Nat) (written : Nat)
  | takeCompleted
  deriving DecidableEq, Repr

def controlFrame (len : Nat) : EncodedOutput Stamp :=
  { content := Outbound.control.stamp 0, len }

namespace DeliveryState

variable (state : DeliveryState)

def exportOf (exported : Option ExportLengths) : Option (PaneSnapshot Stamp) :=
  match state.conn.nextExport, exported with
  | some key, some lengths => some (lengths.snapshot state.clock key)
  | _, _ => none

def exportStamps (exported : Option ExportLengths) : List Stamp :=
  match state.conn.nextExport, exported with
  | some key, some lengths => lengths.stamps state.clock key
  | _, _ => []

def pumpInput (remaining : Nat) (exported : Option ExportLengths) (status : Option Nat) :
    PumpInput Stamp :=
  { remaining, snapshot := state.exportOf exported, statusFrame := status.map controlFrame }

def pushing (outbound : Outbound) (len : Nat) (media : List Nat)
    (scope : Option PresentationKey) (mediaWithinBudget : Bool) :
    ConnOutbox Stamp × ClientFrameResult :=
  state.conn.pushDelta { content := outbound.stamp state.clock, len, media, scope } outbound.delta
    maxBacklog outbound.replacement mediaWithinBudget

/-- One step of the delivery to one client. It attaches once and gets no pane's frames before. Every
frame has a header, so none is empty. -/
inductive Step : DeliveryLabel → DeliveryState → Prop
  | attach {panes : List PaneSeedKey} (statuses : List PaneSeedKey)
      (fresh : state.attached = false) (distinct : panes.Nodup) :
      Step (.attach panes statuses)
        { state with conn := state.conn.enqueueAttachSeeds panes statuses, attached := true }
  | push {outbound : Outbound} {len : Nat} (media : List Nat) (scope : Option PresentationKey)
      (mediaWithinBudget : Bool) (addressed : state.attached = true ∨ outbound = .control)
      (framed : 0 < len) :
      Step (.push outbound len media scope mediaWithinBudget)
        { state with
          conn := (state.pushing outbound len media scope mediaWithinBudget).1
          clock := state.clock + 1
          pushed := state.pushed ++ [outbound.stamp state.clock]
          overflowed := state.overflowed ||
            (state.pushing outbound len media scope mediaWithinBudget).2 == .overflow }
  | ping {len : Nat} {next : ConnOutbox Stamp} (framed : 0 < len)
      (fits : state.conn.tryPushClass (controlFrame len) maxBacklog .normal none =
        some next) :
      Step (.ping len) { state with conn := next, clock := state.clock + 1 }
  | startResync (live : List PaneSeedKey) (serving : state.attached = true) :
      Step (.startResync live) { state with conn := state.conn.startClientResync live }
  | pump (remaining : Nat) {exported : Option ExportLengths} {status : Option Nat}
      (framed : ∀ lengths, exported = some lengths → ∀ len, lengths.reset = some len → 0 < len)
      (statusFramed : ∀ len, status = some len → 0 < len) :
      Step (.pump remaining exported status)
        { state with
          conn := state.conn.pumpWork (state.pumpInput remaining exported status)
          clock := state.clock + 1
          pushed := state.pushed ++ state.exportStamps exported }
  | flush {issued : Option Nat} {written : Nat} {front : OutboxFrame Stamp}
      {rest : List (OutboxFrame Stamp)} {next : ConnOutbox Stamp}
      (queued : state.conn.outbox = front :: rest)
      (room : written ≤ front.bytes.len - state.conn.frontOffset)
      (wrote : state.conn.flushFront issued written = some next) :
      Step (.flush issued written)
        { state with
          conn := next
          written := state.written ++
            if next.outboxBase = state.conn.outboxBase then [] else [front.bytes.content] }
  | takeCompleted {seed : AttachSeedState Stamp} {next : ConnOutbox Stamp}
      (completed : state.conn.takeCompletedSeed = some (seed, next)) :
      Step .takeCompleted { state with conn := next }

end DeliveryState

def deliveryRuns : Transition DeliveryState DeliveryLabel where
  initial := fun state => state = {}
  step := DeliveryState.Step

theorem DeliveryState.Step.connection {state next : DeliveryState} {label : DeliveryLabel}
    (moved : state.Step label next) : ∃ own, OutboxStep state.conn own next.conn := by
  cases moved with
  | attach statuses _ _ => exact ⟨_, .attach _ statuses⟩
  | push media scope mediaWithinBudget _ _ => exact ⟨_, .push _ _ _ mediaWithinBudget⟩
  | ping _ fits => exact ⟨_, .ping fits⟩
  | startResync live _ => exact ⟨_, .startResync live⟩
  | pump _ _ _ => exact ⟨_, .pump _⟩
  | flush queued room wrote => exact ⟨_, .flush queued room wrote⟩
  | takeCompleted completed => exact ⟨_, .takeCompleted completed⟩

end Rozi
