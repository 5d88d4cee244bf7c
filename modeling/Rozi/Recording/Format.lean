import Rozi.Recording.Encode

/-!
The events of a recording file.
-/

namespace Rozi.Recording

structure RecordedImage where
  t : Nat
  id : String
  pixelWidth : Nat
  pixelHeight : Nat
  pngBase64 : String
  deriving DecidableEq, Repr

inductive EndReason where
  | stopped | duration | maxBytes | paneExited | paneClosed | sessionEnded | serverShutdown
  | writeFailed | uiExited | unknown
  deriving DecidableEq, Repr

structure RecordingTotals where
  frames : Nat := 0
  keyframes : Nat := 0
  deltas : Nat := 0
  images : Nat := 0
  marks : Nat := 0
  dropped : Nat := 0
  bytes : Nat := 0
  deriving DecidableEq, Repr

structure RecordingEnd where
  t : Nat
  reason : EndReason
  totals : RecordingTotals
  deriving DecidableEq, Repr

inductive FileEvent (M : Type) where
  | encoded (event : RecordingEvent)
  | image (image : RecordedImage)
  | mark (t : Nat) (label : String)
  | metaEvent (t : Nat) (about : M)
  | finish (finish : RecordingEnd)
  | unknown
  deriving DecidableEq, Repr

namespace FileEvent

variable {M : Type}

def time : FileEvent M → Option Nat
  | .encoded (.keyframe t _) | .encoded (.resize t _ _) => some t
  | .encoded (.delta delta) => some delta.t
  | .image stored => some stored.t
  | .mark t _ | .metaEvent t _ => some t
  | .finish ending => some ending.t
  | .unknown => none

end FileEvent

end Rozi.Recording
