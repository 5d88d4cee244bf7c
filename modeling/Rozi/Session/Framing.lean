import Rozi.Library.BigEndian
import Rozi.Library.Incremental
import Rozi.Library.Checks

/-!
The frames of the session protocol on the wire. Integers are as wide as the source has them; JSON
and the resources a client acquires for media are left to parameters.
-/

namespace Rozi.Framing

def maxFrameSize : Nat := 8 * 1024 * 1024

def paneFrameHeaderLen : Nat := 13

def paneOutputSemanticsLen : Nat := 37

def paneOutputMetadataLen : Nat := paneOutputSemanticsLen + 8 + 4

def frameKindControlJson : UInt8 := 1
def frameKindPaneOutput : UInt8 := 2
def frameKindPaneInput : UInt8 := 3
def frameKindPresentationAck : UInt8 := 4
def frameKindPresentationInterest : UInt8 := 5
def frameKindAcquisitionAck : UInt8 := 6

inductive ErrorKind where
  | invalidInput | invalidData | other
  deriving DecidableEq, Repr

structure IoError where
  kind : ErrorKind
  message : String
  deriving DecidableEq, Repr

def invalidFrame (message : String) : IoError := { kind := .invalidData, message }

inductive OutputClass where
  | ordered
  | dependentGraphics (image : UInt32) (incarnation revision : UInt64)
  | independentGraphics (image : UInt32) (incarnation revision : UInt64)
  deriving DecidableEq, Repr

structure OutputMetadata where
  sequence : UInt64
  coalesceEpoch : UInt64
  outputClass : OutputClass
  deriving DecidableEq, Repr

structure ImmutableFileBinding where
  start : Nat
  stop : Nat
  path : Bytes
  byteLen : Nat
  format : UInt32
  deriving DecidableEq, Repr

/-- `acquired` are resources of a client of type `A`, which never travel. -/
structure OutputMedia (A : Type) where
  acquisitionSequence : UInt64
  files : List ImmutableFileBinding
  acquired : List A

structure AcquisitionAck where
  isLocal : Bool
  paneId : UInt32
  generation : UInt64
  sequence : UInt64
  deriving DecidableEq, Repr

structure PresentationAck where
  isLocal : Bool
  paneId : UInt32
  generation : UInt64
  sequence : UInt64
  deriving DecidableEq, Repr

structure PanePresentationInterest where
  isLocal : Bool
  paneId : UInt32
  generation : UInt64
  visible : Bool
  focused : Bool
  framesPerSecond : UInt16
  deriving DecidableEq, Repr

/-- A frame, with control messages of type `C`. -/
inductive Frame (C A : Type) where
  | control (message : C)
  | paneOutput (paneId : UInt32) (isLocal : Bool) (generation : UInt64)
      (metadata : OutputMetadata) (media : Option (OutputMedia A)) (bytes : Bytes)
  | presentationAcks (acks : List PresentationAck)
  | acquisitionAcks (acks : List AcquisitionAck)
  | presentationInterest (interest : List PanePresentationInterest)
  | paneBytes (latencySensitive : Bool) (paneId : UInt32) (isLocal : Bool) (generation : UInt64)
      (bytes : Bytes)

/-- `serde_json` at one type. -/
structure Json (α : Type) where
  toVec : α → Except String Bytes
  fromSlice : Bytes → Except String α

/-- What is written as JSON: control messages and file bindings. -/
structure Serde (C : Type) where
  message : Json C
  bindings : Json (List ImmutableFileBinding)

def orOther {α : Type} : Except String α → Except IoError α
  | .ok value => .ok value
  | .error message => .error { kind := .other, message }

section integers

def u16Bytes (value : UInt16) : Bytes := Bytes.ofNat 2 value.toNat
def u32Bytes (value : UInt32) : Bytes := Bytes.ofNat 4 value.toNat
def u64Bytes (value : UInt64) : Bytes := Bytes.ofNat 8 value.toNat

def readU16 (bytes : Bytes) : UInt16 := UInt16.ofNat (Bytes.toNat bytes)
def readU32 (bytes : Bytes) : UInt32 := UInt32.ofNat (Bytes.toNat bytes)
def readU64 (bytes : Bytes) : UInt64 := UInt64.ofNat (Bytes.toNat bytes)

def flag (set : Bool) : UInt8 := if set then 1 else 0

end integers

section write

variable {C A : Type} (serde : Serde C)

def writeFrameBody (kind : UInt8) (body : Bytes) : Except IoError Bytes :=
  let frameLen := body.length + 1
  if maxFrameSize < frameLen then
    .error ⟨.invalidInput, s!"frame length {frameLen} exceeds maximum {maxFrameSize}"⟩
  else if 4294967295 < frameLen then .error ⟨.invalidInput, "frame too large"⟩
  else .ok (u32Bytes (UInt32.ofNat frameLen) ++ kind :: body)

def writeControlFrame (value : C) : Except IoError Bytes := do
  let body ← orOther (serde.message.toVec value)
  writeFrameBody frameKindControlJson body

def writePaneFrame (kind : UInt8) (paneId : UInt32) (generation : UInt64) (isLocal : Bool)
    (bytes : Bytes) : Except IoError Bytes :=
  writeFrameBody kind (u32Bytes paneId ++ (u64Bytes generation ++ flag isLocal :: bytes))

def OutputClass.fields : OutputClass → UInt8 × UInt32 × UInt64 × UInt64
  | .ordered => (0, 0, 0, 0)
  | .dependentGraphics image incarnation revision => (1, image, incarnation, revision)
  | .independentGraphics image incarnation revision => (2, image, incarnation, revision)

/-- The bindings of media as they are written, nothing where there is none. -/
def encodeBindings : Option (OutputMedia A) → Except IoError Bytes
  | some media => orOther (serde.bindings.toVec media.files)
  | none => .ok []

def writePaneOutputMediaFrame (paneId : UInt32) (generation : UInt64) (isLocal : Bool)
    (metadata : OutputMetadata) (media : Option (OutputMedia A)) (bytes : Bytes) :
    Except IoError Bytes := do
  let (outputClass, image, incarnation, revision) := metadata.outputClass.fields
  let bindings ← encodeBindings serde media
  writePaneFrame frameKindPaneOutput paneId generation isLocal
    (u64Bytes metadata.sequence ++ (u64Bytes metadata.coalesceEpoch ++ (outputClass ::
      (u32Bytes image ++ (u64Bytes incarnation ++ (u64Bytes revision ++
        (u64Bytes (media.elim 0 OutputMedia.acquisitionSequence) ++
          (u32Bytes (UInt32.ofNat bindings.length) ++ (bindings ++ bytes)))))))))

def writePaneInputWithPriority (paneId : UInt32) (generation : UInt64)
    (isLocal latencySensitive : Bool) (bytes : Bytes) : Except IoError Bytes :=
  writeFrameBody frameKindPaneInput (u32Bytes paneId ++ (u64Bytes generation ++
    (flag isLocal ||| flag (!latencySensitive) <<< 1) :: bytes))

def ackBytes (paneId : UInt32) (generation sequence : UInt64) (isLocal : Bool) : Bytes :=
  u32Bytes paneId ++ (u64Bytes generation ++ (u64Bytes sequence ++ [flag isLocal]))

def writeAcquisitionAcks (acks : List AcquisitionAck) : Except IoError Bytes :=
  writeFrameBody frameKindAcquisitionAck
    (acks.flatMap fun ack => ackBytes ack.paneId ack.generation ack.sequence ack.isLocal)

def writePresentationAcks (acks : List PresentationAck) : Except IoError Bytes :=
  writeFrameBody frameKindPresentationAck
    (acks.flatMap fun ack => ackBytes ack.paneId ack.generation ack.sequence ack.isLocal)

def PanePresentationInterest.bytes (pane : PanePresentationInterest) : Bytes :=
  u32Bytes pane.paneId ++ (u64Bytes pane.generation ++
    (flag pane.visible ||| flag pane.focused <<< 1 ||| flag pane.isLocal <<< 2) ::
      u16Bytes pane.framesPerSecond)

def writePresentationInterest (interest : List PanePresentationInterest) :
    Except IoError Bytes :=
  writeFrameBody frameKindPresentationInterest (interest.flatMap PanePresentationInterest.bytes)

def Frame.write : Frame C A → Except IoError Bytes
  | .control message => writeControlFrame serde message
  | .paneOutput paneId isLocal generation metadata media bytes =>
      writePaneOutputMediaFrame serde paneId generation isLocal metadata media bytes
  | .presentationAcks acks => writePresentationAcks acks
  | .acquisitionAcks acks => writeAcquisitionAcks acks
  | .presentationInterest interest => writePresentationInterest interest
  | .paneBytes latencySensitive paneId isLocal generation bytes =>
      writePaneInputWithPriority paneId generation isLocal latencySensitive bytes

end write

section decode

variable {C A : Type} (serde : Serde C)

def decodePaneFrame (payload : Bytes) : Except IoError (Frame C A) :=
  if payload.length < paneFrameHeaderLen then .error (invalidFrame "pane byte frame missing header")
  else
    let flags := payload.getD 12 0
    if flags &&& ~~~3 ≠ 0 then .error (invalidFrame "invalid input flags")
    else .ok (.paneBytes (flags &&& 2 == 0) (readU32 (Bytes.slice payload 0 4)) (flags &&& 1 != 0)
      (readU64 (Bytes.slice payload 4 12)) (payload.drop paneFrameHeaderLen))

def decodeOutputClass (bytes : Bytes) : Except IoError OutputClass :=
  let image := readU32 (Bytes.slice bytes 17 21)
  let incarnation := readU64 (Bytes.slice bytes 21 29)
  let revision := readU64 (Bytes.slice bytes 29 37)
  let outputClass := bytes.getD 16 0
  if outputClass = 0 ∧ image = 0 ∧ incarnation = 0 ∧ revision = 0 then .ok .ordered
  else if outputClass = 1 ∧ image ≠ 0 ∧ incarnation ≠ 0 then
    .ok (.dependentGraphics image incarnation revision)
  else if outputClass = 2 ∧ image ≠ 0 ∧ incarnation ≠ 0 then
    .ok (.independentGraphics image incarnation revision)
  else .error (invalidFrame "invalid graphics output classification")

def ImmutableFileBinding.validAfter (file : ImmutableFileBinding) (stop outputLen : Nat) : Bool :=
  decide (stop ≤ file.start) && decide (file.start < file.stop) &&
    decide (file.stop ≤ outputLen) && file.byteLen != 0 && (file.format == 24 || file.format == 32)

/-- `validate_file_bindings`, from the end of the last command on. -/
def validateFileBindings (stop : Nat) (files : List ImmutableFileBinding) (outputLen : Nat) :
    Except IoError Unit :=
  match files with
  | [] => .ok ()
  | file :: files =>
      if !file.validAfter stop outputLen then .error (invalidFrame "invalid immutable file binding")
      else validateFileBindings file.stop files outputLen

def decodeOutputMedia (bytes : Bytes) : Except IoError (Option (OutputMedia A) × Nat) :=
  let sequenceEnd := paneOutputSemanticsLen + 8
  let sequence := readU64 (Bytes.slice bytes paneOutputSemanticsLen sequenceEnd)
  let bindingLen := (readU32 (Bytes.slice bytes sequenceEnd paneOutputMetadataLen)).toNat
  let start := paneOutputMetadataLen + bindingLen
  if bytes.length < start then .error (invalidFrame "invalid output media length")
  else if bindingLen = 0 then
    if sequence ≠ 0 then .error (invalidFrame "sequence without media") else .ok (none, start)
  else do
    let files ← orOther (serde.bindings.fromSlice (Bytes.slice bytes paneOutputMetadataLen start))
    if files.isEmpty || decide (64 < files.length) || sequence == 0 then
      .error (invalidFrame "invalid acquisition envelope")
    validateFileBindings 0 files (bytes.length - start)
    return (some { acquisitionSequence := sequence, files, acquired := [] }, start)

def decodeOutputFrame (payload : Bytes) : Except IoError (Frame C A) :=
  if (payload[12]?).any (1 < ·) then .error (invalidFrame "invalid output flags")
  else do
    match ← decodePaneFrame payload with
    | .paneBytes _ paneId isLocal generation bytes =>
        if bytes.length < paneOutputMetadataLen then
          .error (invalidFrame "pane output missing semantic metadata")
        let outputClass ← decodeOutputClass bytes
        let (media, start) ← decodeOutputMedia serde bytes
        return .paneOutput paneId isLocal generation
          { sequence := readU64 (Bytes.slice bytes 0 8)
            coalesceEpoch := readU64 (Bytes.slice bytes 8 16)
            outputClass } media (bytes.drop start)
    | frame => return frame -- the payload of a pane frame is never anything else

def decodeAck (chunk : Bytes) : PresentationAck :=
  { isLocal := chunk.getD 20 0 != 0
    paneId := readU32 (Bytes.slice chunk 0 4)
    generation := readU64 (Bytes.slice chunk 4 12)
    sequence := readU64 (Bytes.slice chunk 12 20) }

def decodeAckFrame (payload : Bytes) : Except IoError (Frame C A) :=
  if payload.length % 21 ≠ 0 then .error (invalidFrame "invalid presentation ACK length")
  else if (Bytes.chunksExact 21 payload).any fun chunk => 1 < chunk.getD 20 0 then
    .error (invalidFrame "invalid presentation ACK flags")
  else .ok (.presentationAcks ((Bytes.chunksExact 21 payload).map decodeAck))

def PresentationAck.acquisition (ack : PresentationAck) : AcquisitionAck :=
  { isLocal := ack.isLocal, paneId := ack.paneId, generation := ack.generation
    sequence := ack.sequence }

def decodeInterest (chunk : Bytes) : Except IoError PanePresentationInterest :=
  let flags := chunk.getD 12 0
  if flags &&& ~~~7 ≠ 0 then .error (invalidFrame "invalid presentation interest flags")
  else
    let framesPerSecond := readU16 (Bytes.slice chunk 13 15)
    if framesPerSecond = 0 ∨ 1000 < framesPerSecond then
      .error (invalidFrame "invalid presentation rate")
    else .ok {
      isLocal := flags &&& 4 != 0
      paneId := readU32 (Bytes.slice chunk 0 4)
      generation := readU64 (Bytes.slice chunk 4 12)
      visible := flags &&& 1 != 0
      focused := flags &&& 2 != 0
      framesPerSecond }

def decodeInterestFrame (payload : Bytes) : Except IoError (Frame C A) :=
  if payload.length % 15 ≠ 0 then .error (invalidFrame "invalid presentation interest length")
  else .presentationInterest <$> (Bytes.chunksExact 15 payload).mapM decodeInterest

def decodeFrame (body : Bytes) : Except IoError (Frame C A) :=
  match body with
  | [] => .error (invalidFrame "empty frame")
  | kind :: payload =>
      if kind = frameKindControlJson then
        Frame.control <$> orOther (serde.message.fromSlice payload)
      else if kind = frameKindPaneInput then decodePaneFrame payload
      else if kind = frameKindPaneOutput then decodeOutputFrame serde payload
      else if kind = frameKindPresentationAck then decodeAckFrame payload
      else if kind = frameKindAcquisitionAck ∧ payload.length ≤ 4096 * 21 then do
        match ← decodeAckFrame payload with
        | .presentationAcks acks => return .acquisitionAcks (acks.map PresentationAck.acquisition)
        | frame => return frame -- an acknowledgement frame is never anything else
      else if kind = frameKindPresentationInterest then decodeInterestFrame payload
      else .error (invalidFrame s!"unknown frame kind {kind.toNat}")

def nextFrame (maxSize : Nat) (buffer : Bytes) : Except IoError (Option (Frame C A)) × Bytes :=
  if buffer.length < 4 then (.ok none, buffer)
  else
    let len := (readU32 (Bytes.slice buffer 0 4)).toNat
    if maxSize < len then
      (.error (invalidFrame s!"frame length {len} exceeds maximum {maxSize}"), buffer)
    else if buffer.length < 4 + len then (.ok none, buffer)
    else (some <$> decodeFrame serde (Bytes.slice buffer 4 (4 + len)), buffer.drop (4 + len))

theorem nextFrame_shrinks (maxSize : Nat) (buffer : Bytes) (frame : Frame C A) (rest : Bytes)
    (took : nextFrame serde maxSize buffer = (.ok (some frame), rest)) :
    rest.length < buffer.length := by
  unfold nextFrame at took
  simp only at took
  split_ifs at took with short long partly
  · cases took
  · cases took
  · cases took
  · rw [Prod.mk.injEq] at took
    rw [← took.2, List.length_drop]
    omega

/-- `FrameDecoder` with its default limit; what it holds between two reads is the buffer. -/
def frameDecoder : Puller (Frame C A) UInt8 IoError where
  pull := nextFrame serde maxFrameSize
  shrinks := nextFrame_shrinks serde maxFrameSize

end decode

end Rozi.Framing
