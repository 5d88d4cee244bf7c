import Rozi.Library.Checks
import Rozi.Library.KeyedTotals
import Rozi.Recording.Format

/-!
Reading a recording back: its events, and the frames and images they add up to. The pixels an
image decodes to, and what a frame looks like with them, are left to parameters.
-/

namespace Rozi.Recording

def maxEventLine : Nat := 64 * 1024 * 1024

def maxFrameCells : Nat := 2 ^ 20

def maxImageBytes : Nat := 64 * 1024 * 1024

def maxRetainedImageBytes : Nat := 256 * 1024 * 1024

def maxDecodedFrameBytes : Nat := 256 * 1024 * 1024

def maxImageIdLen : Nat := 64

def imageEntryCost : Nat := 256

def checkCells (what : String) (width height : Nat) : Except String Unit :=
  if maxFrameCells < width * height then
    .error s!"{what} of {width}x{height} cells is larger than rozi reads"
  else .ok ()

def checkImage (image : SpanImage) : Except String Unit := do
  checkCells "an image" image.width image.height
  if image.underlyingCells ≠ [] ∧ image.underlyingCells.length ≠ image.width * image.height then
    .error "an image's underlying cells do not match its cell area"
  else .ok ()

def checkImages (images : List SpanImage) : Except String Unit := images.forM checkImage

def checkFrame (frame : SpanFrame) : Except String Unit := do
  checkCells "a frame" frame.width frame.height
  checkImages frame.images

def retainedCost (image : RecordedImage) : Nat :=
  image.pngBase64.utf8ByteSize + 2 * image.id.utf8ByteSize + imageEntryCost

structure DecodedImage where
  width : Nat
  height : Nat
  rgba : List UInt8
  deriving DecidableEq, Repr

/-- What reading takes from other libraries: how text falls into graphemes, the pixels of a base64
PNG of at most so many bytes, and a frame as it is drawn. -/
structure Drawing (C : Type) where
  segmentation : Segmentation
  fromPng : String → Nat → Except String DecodedImage
  capturedFrame : SpanFrame → (String → Option DecodedImage) → C

inductive ReplayStep (M : Type) where
  | frame (t : Nat)
  | mark (t : Nat) (label : String)
  | metaEvent (t : Nat) (about : M)
  | finish (finish : RecordingEnd)
  deriving DecidableEq, Repr

/-- A recording played forward, with the current frame and every image so far. `lines` is what
reading each line to come gives; a last line that was cut off gives nothing. -/
structure Replay (M : Type) where
  lines : List (Except String (FileEvent M))
  frame : Option SpanFrame := none
  images : AList fun _ : String => RecordedImage := ∅
  imageOrder : List String := []
  imageBytes : Nat := 0
  imageBudget : Nat := maxRetainedImageBytes
  decoded : AList fun _ : String => DecodedImage := ∅
  decodedBudget : Nat := maxDecodedFrameBytes
  lastT : Nat := 0

def SpanFrame.imageIds (frame : SpanFrame) : List String := frame.images.filterMap SpanImage.id

def RecordedImage.declared (image : RecordedImage) : Nat := image.pixelWidth * image.pixelHeight * 4

namespace Replay

variable {M C : Type} (drawing : Drawing C) (replay : Replay M)

def used (decoded : AList fun _ : String => DecodedImage) : Nat :=
  decoded.total fun image => image.rgba.length

/-- The loop of `decode`: the images among `ids` that were not attempted yet, as far as they fit. -/
def decodeEach : List String → List String → AList (fun _ : String => DecodedImage) → Nat →
    Except String (AList fun _ : String => DecodedImage)
  | [], _, decoded, _ => .ok decoded
  | id :: ids, attempted, decoded, used =>
      if id ∈ attempted then decodeEach ids attempted decoded used
      else if (decoded.lookup id).isSome then decodeEach ids (id :: attempted) decoded used
      else match replay.images.lookup id with
      | none => decodeEach ids (id :: attempted) decoded used
      | some image =>
          if replay.decodedBudget < used + image.declared then
            decodeEach ids (id :: attempted) decoded used
          else match drawing.fromPng image.pngBase64 maxImageBytes with
          | .error error => .error s!"image {id}: {error}"
          | .ok pixels =>
              if replay.decodedBudget < used + pixels.rgba.length then
                decodeEach ids (id :: attempted) decoded used
              else
                decodeEach ids (id :: attempted) (decoded.insert id pixels)
                  (used + pixels.rgba.length)

/-- Decode the images `ids` names, and let go of the pixels of any other. -/
def decode (ids : List String) : Except String (Replay M) := do
  let wanted := replay.decoded.retain fun id image => if id ∈ ids then some image else none
  let decoded ← replay.decodeEach drawing ids [] wanted (used wanted)
  return { replay with decoded }

def captured (frame : SpanFrame) : Except String (C × Replay M) := do
  let replay ← replay.decode drawing frame.imageIds
  return (drawing.capturedFrame frame fun id => replay.decoded.lookup id, replay)

/-- The loop of `store`: forget the oldest images past the budget. -/
def forget : List String → Replay M → Replay M
  | [], replay => { replay with imageOrder := [] }
  | oldest :: order, replay =>
      if replay.imageBytes ≤ replay.imageBudget then
        { replay with imageOrder := oldest :: order }
      else match replay.images.lookup oldest with
      | some forgotten =>
          forget order { replay with
            images := replay.images.erase oldest
            imageBytes := replay.imageBytes - retainedCost forgotten
            decoded := replay.decoded.erase oldest }
      | none => forget order { replay with decoded := replay.decoded.erase oldest }

def store (image : RecordedImage) : Except String (Replay M) :=
  if maxImageIdLen < image.id.utf8ByteSize then
    .error s!"an image id of {image.id.utf8ByteSize} bytes is longer than rozi reads"
  else if maxImageBytes < image.declared then
    .error (s!"image {image.id} of {image.pixelWidth}x{image.pixelHeight} pixels is larger than " ++
      "rozi reads")
  else if (replay.images.lookup image.id).isSome then .ok replay
  else
    .ok (forget (replay.imageOrder ++ [image.id]) { replay with
      images := replay.images.insert image.id image
      imageBytes := replay.imageBytes + retainedCost image })

def patch (delta : FrameDelta) : Except String SpanFrame :=
  match replay.frame with
  | none => .error "a delta precedes the first keyframe"
  | some frame => do
      delta.images.forM checkImages
      applyDelta drawing.segmentation frame delta

def noteTime (event : FileEvent M) : Replay M :=
  match event.time with
  | some t => { replay with lastT := max replay.lastT t }
  | none => replay

/-- One event: what it says, or nothing, and the replay after it. -/
def readEvent (event : FileEvent M) : Except String (Option (ReplayStep M) × Replay M) :=
  let replay := replay.noteTime event
  match event with
  | .encoded (.keyframe t frame) => do
      checkFrame frame
      return (some (.frame t), { replay with frame := some frame })
  | .encoded (.delta delta) => do
      let frame ← replay.patch drawing delta
      return (some (.frame delta.t), { replay with frame := some frame })
  | .image image => do
      let replay ← replay.store image
      return (none, replay)
  | .mark t label => .ok (some (.mark t label), replay)
  | .metaEvent t about => .ok (some (.metaEvent t about), replay)
  | .finish finish => .ok (some (.finish finish), replay)
  | .encoded (.resize _ _ _) | .unknown => .ok (none, replay)

def stepLines : List (Except String (FileEvent M)) → Replay M →
    Except String (Option (ReplayStep M) × Replay M)
  | [], replay => .ok (none, { replay with lines := [] })
  | .error error :: _, _ => .error error
  | .ok event :: lines, replay =>
      match replay.readEvent drawing event with
      | .error error => .error error
      | .ok (some step, replay) => .ok (some step, { replay with lines })
      | .ok (none, replay) => stepLines lines replay

def step : Except String (Option (ReplayStep M) × Replay M) :=
  stepLines drawing replay.lines replay

end Replay

end Rozi.Recording
