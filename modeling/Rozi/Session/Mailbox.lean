import Rozi.Library.BigEndian
import Rozi.Library.Transition
import Rozi.Session.ByteQueue
import Rozi.Session.Delivery

/-!
The mailbox between a client's socket reader and its application loop.
-/

namespace Rozi.Inbound

def paneFrameOverhead : Nat := 18

def maxClientInboundBytes : Nat := 8 * 1024 * 1024

def maxClientInboundMediaBytes : Nat := 128 * 1024 * 1024

def maxClientInboundMediaFiles : Nat := 128

def maxInterleavedPaneBytes : Nat := 64 * 1024

inductive ServerMessage where
  | attached (content : String)
  | inputMarked (token : Nat)
  | paneReset (paneId : PaneId) (content : String)
  | resized (paneId : PaneId) (isLocal : Bool) (content : String)
  | exited (paneId : PaneId) (isLocal : Bool) (content : String)
  | spawnResult (paneId : PaneId) (isLocal : Bool) (content : String)
  | other (content : String)
  deriving DecidableEq, Repr

structure OutputMedia where
  acquisitionSequence : Nat
  files : List Nat
  acquired : List Nat := []
  deriving DecidableEq, Repr

inductive Frame where
  | control (message : ServerMessage)
  | paneOutput (stream : PresentationKey) (metadata : OutputMetadata) (media : Option OutputMedia)
      (bytes : Bytes)
  | presentationAcks (acks : List String)
  | acquisitionAcks (acks : List String)
  | presentationInterest (interest : List String)
  | paneBytes (stream : PresentationKey) (bytes : Bytes)
  deriving DecidableEq, Repr

inductive InboundEvent where
  | frame (frame : Frame)
  | disconnected
  | failed (message : String)
  deriving DecidableEq, Repr

def isOrdered (metadata : OutputMetadata) : Bool := metadata.outputClass = .ordered

def isIndependent (metadata : OutputMetadata) : Bool :=
  match metadata.outputClass with
  | .independentGraphics .. => true
  | .ordered | .dependentGraphics .. => false

def inboundReplacementKey : Frame → Option ReplacementKey
  | .paneOutput stream metadata _ _ => metadata.replacementKey stream
  | _ => none

def inboundFrameMedia : Frame → MediaWeight
  | .paneOutput _ _ (some media) _ =>
      if media.acquired.isEmpty then { bytes := media.files.sum, files := media.files.length }
      else { bytes := media.acquired.sum, files := media.acquired.length }
  | _ => {}

def inboundFrameBytes (size : ServerMessage → Nat) : Frame → Nat
  | .paneBytes _ bytes => bytes.length + paneFrameOverhead
  | .paneOutput _ _ _ bytes => bytes.length + paneOutputFrameOverhead
  | .presentationAcks acks => 5 + acks.length * 21
  | .acquisitionAcks acks => 5 + acks.length * 21
  | .presentationInterest interest => 5 + interest.length * 15
  | .control message => size message + 5

def invalidateInboundReplacements (queue : ByteQueue InboundEvent) :
    Frame → ByteQueue InboundEvent
  | .control (.attached _) | .control (.inputMarked _) => queue.clearReplacements
  | .control (.paneReset paneId _) => queue.invalidateReplacements paneId false
  | .control (.resized paneId isLocal _) | .control (.exited paneId isLocal _)
  | .control (.spawnResult paneId isLocal _) => queue.invalidateReplacements paneId isLocal
  | .paneOutput stream metadata _ _ =>
      if isIndependent metadata then queue
      else queue.invalidateReplacements stream.paneId stream.isLocal
  | .control (.other _) | .presentationAcks _ | .acquisitionAcks _ | .presentationInterest _
  | .paneBytes _ _ => queue

def coalesceInboundSegment : InboundEvent → InboundEvent → Bool → SegmentCoalesce InboundEvent
  | .frame (.paneOutput stream metadata none bytes),
      .frame (.paneOutput nextStream nextMetadata none nextBytes), adjacent =>
      if !isOrdered metadata || !isOrdered nextMetadata then .barrier
      else if stream ≠ nextStream then .continues
      else if !adjacent && decide (maxInterleavedPaneBytes < bytes.length + nextBytes.length) then
        .barrier
      else .merged (.frame (.paneOutput stream nextMetadata none (bytes ++ nextBytes)))
  | _, _, _ => .barrier

def enqueueInboundFrame (size : ServerMessage → Nat) (queue : ByteQueue InboundEvent)
    (frame : Frame) : Pushing InboundEvent :=
  let bytes := inboundFrameBytes size frame
  let media := inboundFrameMedia frame
  let queue := invalidateInboundReplacements queue frame
  match inboundReplacementKey frame with
  | some key => queue.tryPushLatestMedia (.frame frame) bytes media (some key)
  | none =>
      queue.pushBlockingWithinSegmentMedia (.frame frame) bytes media coalesceInboundSegment

inductive Action where
  | enqueue (frame : Frame)
  | finish (failed : Option String)
  | pop
  | close
  deriving DecidableEq, Repr

structure Run where
  queue : ByteQueue InboundEvent := {
    capacity := maxClientInboundBytes
    mediaBytesLimit := maxClientInboundMediaBytes
    mediaFilesLimit := maxClientInboundMediaFiles }
  fed : List InboundEvent := []
  popped : List InboundEvent := []

namespace Run

def after (size : ServerMessage → Nat) (run : Run) : Action → Run
  | .enqueue frame =>
      match enqueueInboundFrame size run.queue frame with
      | .ok queue => { run with queue, fed := run.fed ++ [.frame frame] }
      | .error (_, queue) => { run with queue }
  | .finish failed =>
      let event := match failed with
        | some message => InboundEvent.failed message
        | none => .disconnected
      match run.queue.tryPush event 0 with
      | .ok queue => { run with queue, fed := run.fed ++ [event] }
      | .error (_, queue) => { run with queue }
  | .pop =>
      match run.queue.tryPopWithBytesAndMore with
      | (some (event, _, _), queue) => { run with queue, popped := run.popped ++ [event] }
      | (none, _) => run
  | .close => { run with queue := { run.queue with closed := true } }

def runs (size : ServerMessage → Nat) : Transition Run Action where
  initial := fun run => run = {}
  step := fun run action next => next = run.after size action

def outgoing (run : Run) : List InboundEvent := run.popped ++ run.queue.values

end Run

end Rozi.Inbound
