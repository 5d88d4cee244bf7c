import Rozi.Library.Transition
import Rozi.Recording.Rows

/-!
A stream of frames as recording events: keyframes, and deltas of the rows that changed.
-/

namespace Rozi.Recording

def maxDeltasPerKeyframe : Nat := 1000

def spanFrameFormat : String := "rozi-spans"

def spanFrameVersion : Nat := 2

structure SpanPalette where
  foreground : String
  background : String
  ansi : List String
  deriving DecidableEq, Repr

inductive SpanCursorShape where
  | block | hollowBlock | underline | bar
  deriving DecidableEq, Repr

structure SpanCursor where
  x : Nat
  y : Nat
  visible : Bool
  shape : SpanCursorShape
  blinking : Bool
  color : Option SpanColor
  deriving DecidableEq, Repr

structure SpanImage where
  x : Int
  y : Int
  width : Nat
  height : Nat
  pixelWidth : Nat
  pixelHeight : Nat
  fillCellBox : Bool
  zIndex : Int
  underlyingCells : List (Option SpanRun)
  visible : Option (List (List (Int × Nat)))
  pngBase64 : Option String
  id : Option String
  deriving DecidableEq, Repr

structure SpanFrame where
  format : String := spanFrameFormat
  version : Nat := spanFrameVersion
  width : Nat
  height : Nat
  palette : SpanPalette
  cursor : Option SpanCursor
  rows : List (List SpanRun)
  images : List SpanImage
  deriving DecidableEq, Repr

structure FrameDelta where
  t : Nat
  rows : List RowChange
  cursor : Option (Option SpanCursor)
  images : Option (List SpanImage)
  palette : Option SpanPalette
  deriving DecidableEq, Repr

inductive RecordingEvent where
  | keyframe (t : Nat) (frame : SpanFrame)
  | delta (delta : FrameDelta)
  | resize (t width height : Nat)
  deriving DecidableEq, Repr

structure FrameEncoder where
  previous : Option SpanFrame := none
  lastKeyframe : Nat := 0
  deltasSinceKeyframe : Nat := 0
  keyframeIntervalMs : Nat
  deriving DecidableEq, Repr

section encode

variable (seg : Segmentation)

def rowChanges (previous : SpanFrame) (width : Nat) (y : Nat) (row : List SpanRun) :
    List RowChange :=
  match previous.rows[y]? with
  | some old => if old = row then [] else diff seg y old row width
  | none => [{ y, runs := row, partly := false }]

/-- What differs between two frames of the same size; the source's `diff`. -/
def frameDiff (previous next : SpanFrame) (t : Nat) : FrameDelta where
  t
  rows := next.rows.zipIdx.flatMap fun (row, y) => rowChanges seg previous next.width y row
  cursor := if previous.cursor ≠ next.cursor then some next.cursor else none
  images := if previous.images ≠ next.images then some next.images else none
  palette := if previous.palette ≠ next.palette then some next.palette else none

namespace FrameEncoder

variable (encoder : FrameEncoder)

def keyframe (t : Nat) (frame : SpanFrame) (events : List RecordingEvent) :
    FrameEncoder × List RecordingEvent :=
  ({ encoder with lastKeyframe := t, deltasSinceKeyframe := 0, previous := some frame },
    events ++ [.keyframe t frame])

/-- Whether a frame of the previous one's size is written whole all the same. -/
def keyframeDue (t : Nat) : Bool :=
  decide (encoder.keyframeIntervalMs ≤ t - encoder.lastKeyframe) ||
    decide (maxDeltasPerKeyframe ≤ encoder.deltasSinceKeyframe)

def encode (t : Nat) (frame : SpanFrame) : FrameEncoder × List RecordingEvent :=
  match encoder.previous with
  | none => encoder.keyframe t frame []
  | some previous =>
      if previous = frame then (encoder, [])
      else if (previous.width, previous.height) ≠ (frame.width, frame.height) then
        encoder.keyframe t frame [.resize t frame.width frame.height]
      else if encoder.keyframeDue t then encoder.keyframe t frame []
      else
        ({ encoder with
            deltasSinceKeyframe := encoder.deltasSinceKeyframe + 1
            previous := some frame },
          [.delta (frameDiff seg previous frame t)])

end FrameEncoder

def applyRow (width : Nat) (frame : SpanFrame) (change : RowChange) : Except String SpanFrame :=
  match frame.rows[change.y]? with
  | some row => .ok { frame with rows := frame.rows.set change.y (apply seg row change width) }
  | none => .error s!"delta replaces row {change.y} of a frame {frame.height} tall"

def applyDelta (frame : SpanFrame) (delta : FrameDelta) : Except String SpanFrame := do
  let frame ← delta.rows.foldlM (applyRow seg frame.width) frame
  return { frame with
    cursor := delta.cursor.getD frame.cursor
    images := delta.images.getD frame.images
    palette := delta.palette.getD frame.palette }

def playEvent (shown : Option SpanFrame) : RecordingEvent → Except String (Option SpanFrame)
  | .keyframe _ frame => .ok (some frame)
  | .delta delta =>
      match shown with
      | some frame => (applyDelta seg frame delta).map some
      | none => .error "a delta precedes the first keyframe"
  | .resize .. => .ok shown

def replay (shown : Option SpanFrame) (events : List RecordingEvent) :
    Except String (Option SpanFrame) :=
  events.foldlM (playEvent seg) shown

end encode

structure EncodeRun where
  encoder : FrameEncoder
  frames : List (Nat × SpanFrame) := []
  events : List RecordingEvent := []

namespace EncodeRun

def after (seg : Segmentation) (recording : EncodeRun) (t : Nat) (frame : SpanFrame) : EncodeRun :=
  let (encoder, events) := recording.encoder.encode seg t frame
  { encoder, frames := recording.frames ++ [(t, frame)], events := recording.events ++ events }

def last (recording : EncodeRun) : Option SpanFrame := recording.frames.getLast?.map Prod.snd

end EncodeRun

end Rozi.Recording
