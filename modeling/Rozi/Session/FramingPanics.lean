import Rozi.Session.FramingCanonical

/-!
The decoder with its panics: every slice, index, conversion and sum that could be out of range is an
outcome of its own here, and none of them is ever met.
-/

namespace Rozi.Framing

abbrev Panicking := ExceptT IoError Option

namespace Panicking

variable {α β : Type}

/-- `expect`, and whatever else panics where there is no value. -/
def expect (value : Option α) : Panicking α := ExceptT.mk (value.map .ok)

def settled (result : Except IoError α) : Panicking α := ExceptT.mk (some result)

def slice (bytes : Bytes) (start stop : Nat) : Panicking Bytes :=
  expect (if start ≤ stop ∧ stop ≤ bytes.length then some (Bytes.slice bytes start stop) else none)

def index (bytes : Bytes) (index : Nat) : Panicking UInt8 := expect bytes[index]?

def array (size : Nat) (bytes : Bytes) : Panicking Bytes :=
  expect (if bytes.length = size then some bytes else none)

def add (left right : Nat) : Panicking Nat :=
  expect (if left + right < 2 ^ 64 then some (left + right) else none)

def sub (left right : Nat) : Panicking Nat :=
  expect (if right ≤ left then some (left - right) else none)

def u16At (bytes : Bytes) (start stop : Nat) : Panicking UInt16 := do
  let part ← slice bytes start stop
  return readU16 (← array 2 part)

def u32At (bytes : Bytes) (start stop : Nat) : Panicking UInt32 := do
  let part ← slice bytes start stop
  return readU32 (← array 4 part)

def u64At (bytes : Bytes) (start stop : Nat) : Panicking UInt64 := do
  let part ← slice bytes start stop
  return readU64 (← array 8 part)

def readU64At (bytes : Bytes) (start : Nat) : Panicking UInt64 := do
  u64At bytes start (← add start 8)

section decode

variable {C A : Type} (serde : Serde C)

def decodePaneFrame (payload : Bytes) : Panicking (Frame C A) := do
  if payload.length < paneFrameHeaderLen then
    throw (invalidFrame "pane byte frame missing header")
  let paneId ← u32At payload 0 4
  let generation ← u64At payload 4 12
  let flags ← index payload 12
  if flags &&& ~~~3 ≠ 0 then throw (invalidFrame "invalid input flags")
  let bytes ← slice payload paneFrameHeaderLen payload.length
  return .paneBytes (flags &&& 2 == 0) paneId (flags &&& 1 != 0) generation bytes

def decodeOutputClass (bytes : Bytes) : Panicking OutputClass := do
  let image ← u32At bytes 17 21
  let incarnation ← readU64At bytes 21
  let revision ← readU64At bytes 29
  let outputClass ← index bytes 16
  if outputClass = 0 ∧ image = 0 ∧ incarnation = 0 ∧ revision = 0 then return .ordered
  else if outputClass = 1 ∧ image ≠ 0 ∧ incarnation ≠ 0 then
    return .dependentGraphics image incarnation revision
  else if outputClass = 2 ∧ image ≠ 0 ∧ incarnation ≠ 0 then
    return .independentGraphics image incarnation revision
  else throw (invalidFrame "invalid graphics output classification")

/-- `checked_add`, which tells of a sum that does not fit. -/
def checkedAdd (left right : Nat) : Option Nat :=
  if left + right < 2 ^ 64 then some (left + right) else none

def decodeOutputMedia (bytes : Bytes) : Panicking (Option (OutputMedia A) × Nat) := do
  let sequenceEnd ← add paneOutputSemanticsLen 8
  let sequence ← u64At bytes paneOutputSemanticsLen sequenceEnd
  let bindingLen ← u32At bytes sequenceEnd paneOutputMetadataLen
  match (checkedAdd paneOutputMetadataLen bindingLen.toNat).filter (· ≤ bytes.length) with
  | none => throw (invalidFrame "invalid output media length")
  | some start =>
      if bindingLen.toNat = 0 then
        if sequence ≠ 0 then throw (invalidFrame "sequence without media")
        return (none, start)
      else
        let spelled ← slice bytes paneOutputMetadataLen start
        let files ← settled (orOther (serde.bindings.fromSlice spelled))
        if files.isEmpty || decide (64 < files.length) || sequence == 0 then
          throw (invalidFrame "invalid acquisition envelope")
        settled (validateFileBindings 0 files (← sub bytes.length start))
        return (some { acquisitionSequence := sequence, files, acquired := [] }, start)

def decodeOutputFrame (payload : Bytes) : Panicking (Frame C A) := do
  if (payload[12]?).any (1 < ·) then throw (invalidFrame "invalid output flags")
  match ← decodePaneFrame (C := C) (A := A) payload with
  | .paneBytes _ paneId isLocal generation bytes =>
      if bytes.length < paneOutputMetadataLen then
        throw (invalidFrame "pane output missing semantic metadata")
      let outputClass ← decodeOutputClass bytes
      let (media, start) ← decodeOutputMedia serde bytes
      let sequence ← readU64At bytes 0
      let coalesceEpoch ← readU64At bytes 8
      let left ← slice bytes start bytes.length
      return .paneOutput paneId isLocal generation { sequence, coalesceEpoch, outputClass } media
        left
  | _ => expect none -- `unreachable!`

def decodeAck (chunk : Bytes) : Panicking PresentationAck := do
  let flags ← index chunk 20
  let paneId ← u32At chunk 0 4
  let generation ← u64At chunk 4 12
  let sequence ← u64At chunk 12 20
  return { isLocal := flags != 0, paneId, generation, sequence }

/-- Whether any piece has a flag it may not have; pieces behind one are not looked at. -/
def anyFlagged : List Bytes → Panicking Bool
  | [] => return false
  | chunk :: chunks => do
      if 1 < (← index chunk 20) then return true
      anyFlagged chunks

def decodeAckFrame (payload : Bytes) : Panicking (Frame C A) := do
  if payload.length % 21 ≠ 0 then throw (invalidFrame "invalid presentation ACK length")
  if ← anyFlagged (Bytes.chunksExact 21 payload) then
    throw (invalidFrame "invalid presentation ACK flags")
  return .presentationAcks (← (Bytes.chunksExact 21 payload).mapM decodeAck)

def decodeInterest (chunk : Bytes) : Panicking PanePresentationInterest := do
  let flags ← index chunk 12
  if flags &&& ~~~7 ≠ 0 then throw (invalidFrame "invalid presentation interest flags")
  let framesPerSecond ← u16At chunk 13 15
  if framesPerSecond = 0 ∨ 1000 < framesPerSecond then
    throw (invalidFrame "invalid presentation rate")
  let paneId ← u32At chunk 0 4
  let generation ← u64At chunk 4 12
  return {
    isLocal := flags &&& 4 != 0
    paneId
    generation
    visible := flags &&& 1 != 0
    focused := flags &&& 2 != 0
    framesPerSecond }

def decodeInterestFrame (payload : Bytes) : Panicking (Frame C A) := do
  if payload.length % 15 ≠ 0 then throw (invalidFrame "invalid presentation interest length")
  return .presentationInterest (← (Bytes.chunksExact 15 payload).mapM decodeInterest)

def decodeFrame (body : Bytes) : Panicking (Frame C A) :=
  match body with
  | [] => throw (invalidFrame "empty frame")
  | kind :: payload =>
      if kind = frameKindControlJson then
        settled (Frame.control <$> orOther (serde.message.fromSlice payload))
      else if kind = frameKindPaneInput then decodePaneFrame payload
      else if kind = frameKindPaneOutput then decodeOutputFrame serde payload
      else if kind = frameKindPresentationAck then decodeAckFrame payload
      else if kind = frameKindAcquisitionAck ∧ payload.length ≤ 4096 * 21 then do
        match ← decodeAckFrame (C := C) (A := A) payload with
        | .presentationAcks acks => return .acquisitionAcks (acks.map PresentationAck.acquisition)
        | _ => expect none -- `unreachable!`
      else if kind = frameKindPresentationInterest then decodeInterestFrame payload
      else throw (invalidFrame s!"unknown frame kind {kind.toNat}")

end decode

section settled

@[simp] theorem settled_ok (value : α) : settled (.ok value) = pure value := rfl

theorem settled_bind (first : Except IoError α) (next : α → Except IoError β) :
    settled (first >>= next) = settled first >>= fun value => settled (next value) := by
  cases first with
  | ok value => rfl
  | error error => rfl

theorem slice_inside {bytes : Bytes} {start stop : Nat} (ordered : start ≤ stop)
    (inside : stop ≤ bytes.length) : slice bytes start stop = pure (Bytes.slice bytes start stop) :=
  congrArg expect (if_pos ⟨ordered, inside⟩)

theorem slice_rest {bytes : Bytes} {start : Nat} (inside : start ≤ bytes.length) :
    slice bytes start bytes.length = pure (bytes.drop start) := by
  rw [slice_inside inside le_rfl, Bytes.slice, ← List.length_drop, List.take_length]

theorem index_inside {bytes : Bytes} {place : Nat} (inside : place < bytes.length) :
    index bytes place = pure (bytes.getD place 0) := by
  unfold index
  rw [List.getD_eq_getElem?_getD, List.getElem?_eq_getElem inside]
  rfl

theorem array_sized {size : Nat} {bytes : Bytes} (sized : bytes.length = size) :
    array size bytes = pure bytes :=
  congrArg expect (if_pos sized)

theorem u16At_inside {bytes : Bytes} {start stop : Nat} (width : start + 2 = stop)
    (inside : stop ≤ bytes.length) :
    u16At bytes start stop = pure (readU16 (Bytes.slice bytes start stop)) := by
  unfold u16At
  rw [slice_inside (by omega) inside, pure_bind,
    array_sized ((Bytes.length_slice inside).trans (by omega)), pure_bind]

theorem u32At_inside {bytes : Bytes} {start stop : Nat} (width : start + 4 = stop)
    (inside : stop ≤ bytes.length) :
    u32At bytes start stop = pure (readU32 (Bytes.slice bytes start stop)) := by
  unfold u32At
  rw [slice_inside (by omega) inside, pure_bind,
    array_sized ((Bytes.length_slice inside).trans (by omega)), pure_bind]

theorem u64At_inside {bytes : Bytes} {start stop : Nat} (width : start + 8 = stop)
    (inside : stop ≤ bytes.length) :
    u64At bytes start stop = pure (readU64 (Bytes.slice bytes start stop)) := by
  unfold u64At
  rw [slice_inside (by omega) inside, pure_bind,
    array_sized ((Bytes.length_slice inside).trans (by omega)), pure_bind]

theorem readU64At_inside {bytes : Bytes} {start : Nat} (near : start ≤ 41)
    (inside : start + 8 ≤ bytes.length) :
    readU64At bytes start = pure (readU64 (Bytes.slice bytes start (start + 8))) := by
  have fits : add start 8 = pure (start + 8) := congrArg expect (if_pos (by omega))
  unfold readU64At
  rw [fits, pure_bind, u64At_inside rfl inside]

end settled

section total

variable {C A : Type} (serde : Serde C)

theorem decodePaneFrame_settled (payload : Bytes) :
    decodePaneFrame (C := C) (A := A) payload = settled (Framing.decodePaneFrame payload) := by
  unfold decodePaneFrame Framing.decodePaneFrame
  by_cases short : payload.length < paneFrameHeaderLen
  · rw [if_pos short, if_pos short]
    rfl
  · have long : 13 ≤ payload.length := Nat.le_of_not_lt short
    rw [if_neg short, if_neg short, u32At_inside rfl (by omega), u64At_inside rfl (by omega),
      index_inside (by omega), slice_rest (Nat.le_of_not_lt short)]
    simp only [pure_bind]
    split_ifs with unknown
    · rfl
    · rfl

theorem decodeOutputClass_settled {bytes : Bytes} (long : paneOutputMetadataLen ≤ bytes.length) :
    decodeOutputClass bytes = settled (Framing.decodeOutputClass bytes) := by
  have enough : 49 ≤ bytes.length := long
  unfold decodeOutputClass Framing.decodeOutputClass
  rw [u32At_inside rfl (by omega), readU64At_inside (by decide) (by omega),
    readU64At_inside (by decide) (by omega), index_inside (by omega)]
  simp only [pure_bind]
  split_ifs with ordered dependent independent
  · rfl
  · rfl
  · rfl
  · rfl

/-- The length of the bindings is added without overflow, and what is too long is refused. -/
theorem checkedAdd_filter (bindingLen : UInt32) (length : Nat) :
    (checkedAdd paneOutputMetadataLen bindingLen.toNat).filter (· ≤ length) =
      if length < paneOutputMetadataLen + bindingLen.toNat then none
      else some (paneOutputMetadataLen + bindingLen.toNat) := by
  have small := bindingLen.toNat_lt
  have fits : paneOutputMetadataLen + bindingLen.toNat < 2 ^ 64 := by
    simp only [paneOutputMetadataLen, paneOutputSemanticsLen]
    omega
  unfold checkedAdd
  rw [if_pos fits, Option.filter_some]
  by_cases long : length < paneOutputMetadataLen + bindingLen.toNat
  · rw [if_pos long, if_neg (by simpa using long)]
  · rw [if_neg long, if_pos (by simpa using long)]

theorem decodeOutputMedia_settled {bytes : Bytes} (long : paneOutputMetadataLen ≤ bytes.length) :
    decodeOutputMedia (A := A) serde bytes = settled (Framing.decodeOutputMedia serde bytes) := by
  have sequenceEnd : add paneOutputSemanticsLen 8 = pure (paneOutputSemanticsLen + 8) := rfl
  have sequence : u64At bytes paneOutputSemanticsLen (paneOutputSemanticsLen + 8) = _ :=
    u64At_inside rfl ((by decide : paneOutputSemanticsLen + 8 ≤ paneOutputMetadataLen).trans long)
  have bindingLen : u32At bytes (paneOutputSemanticsLen + 8) paneOutputMetadataLen = _ :=
    u32At_inside rfl long
  unfold decodeOutputMedia Framing.decodeOutputMedia
  simp only [sequenceEnd, sequence, bindingLen, pure_bind, checkedAdd_filter]
  by_cases short : bytes.length < paneOutputMetadataLen +
      (readU32 (Bytes.slice bytes (paneOutputSemanticsLen + 8) paneOutputMetadataLen)).toNat
  · rw [if_pos short, if_pos short]
    rfl
  · rw [if_neg short, if_neg short]
    simp only
    split_ifs with empty sequenced
    · rfl
    · rfl
    · have inside := Nat.le_of_not_lt short
      have spelled := slice_inside (Nat.le_add_right paneOutputMetadataLen _) inside
      have left : sub bytes.length _ = pure _ := congrArg expect (if_pos inside)
      simp only [spelled, pure_bind, settled_bind]
      congr 1
      funext files
      split_ifs with envelope
      · rfl
      · rw [left, settled_bind]
        rfl

theorem decodeOutputFrame_settled (payload : Bytes) :
    decodeOutputFrame (A := A) serde payload = settled (Framing.decodeOutputFrame serde payload) := by
  unfold decodeOutputFrame Framing.decodeOutputFrame
  by_cases flagged : (payload[12]?).any (1 < ·) = true
  · rw [if_pos flagged, if_pos flagged]
    rfl
  · rw [if_neg flagged, if_neg flagged, decodePaneFrame_settled, settled_bind]
    cases read : Framing.decodePaneFrame (C := C) (A := A) payload with
    | error error => rfl
    | ok frame =>
        rcases decodePaneFrame_eq_ok read with ⟨paneId, generation, flags, bytes, _, _, same⟩
        rw [same, settled_ok, pure_bind, pure_bind]
        simp only
        by_cases short : bytes.length < paneOutputMetadataLen
        · rw [if_pos short, if_pos short]
          rfl
        · have long := Nat.le_of_not_lt short
          have enough : 49 ≤ bytes.length := long
          rw [if_neg short, if_neg short, decodeOutputClass_settled long,
            decodeOutputMedia_settled serde long, settled_bind]
          congr 1
          funext outputClass
          cases media : Framing.decodeOutputMedia (A := A) serde bytes with
          | error error => rfl
          | ok present =>
              rcases decodeOutputMedia_eq_ok long media with ⟨inside, _⟩
              simp only [settled_ok, pure_bind, slice_rest inside, readU64At_inside (by decide : 0 ≤ 41)
                (by omega : 0 + 8 ≤ bytes.length), readU64At_inside (by decide : 8 ≤ 41)
                (by omega : 8 + 8 ≤ bytes.length)]
              rfl

theorem decodeAck_settled {chunk : Bytes} (sized : chunk.length = 21) :
    decodeAck chunk = settled (.ok (Framing.decodeAck chunk)) := by
  unfold decodeAck
  rw [index_inside (by omega), u32At_inside rfl (by omega), u64At_inside rfl (by omega),
    u64At_inside rfl (by omega)]
  rfl

theorem anyFlagged_settled (chunks : List Bytes) (sized : ∀ chunk ∈ chunks, chunk.length = 21) :
    anyFlagged chunks = settled (.ok (chunks.any fun chunk => 1 < chunk.getD 20 0)) := by
  induction chunks with
  | nil => rfl
  | cons chunk chunks ih =>
      have length := sized chunk List.mem_cons_self
      rw [anyFlagged, index_inside (by omega), pure_bind,
        ih fun other member => sized other (List.mem_cons_of_mem _ member), List.any_cons]
      by_cases many : 1 < chunk.getD 20 0
      · rw [if_pos many, decide_eq_true many]
        rfl
      · rw [if_neg many, decide_eq_false many]
        rfl

/-- Pieces that are each read without a panic are read together without one. -/
theorem mapM_settled {read : Bytes → Panicking α} {total : Bytes → Except IoError α}
    {chunks : List Bytes} (each : ∀ chunk ∈ chunks, read chunk = settled (total chunk)) :
    chunks.mapM read = settled (chunks.mapM total) := by
  induction chunks with
  | nil => rfl
  | cons chunk chunks ih =>
      rw [List.mapM_cons, List.mapM_cons, each chunk List.mem_cons_self,
        ih fun other member => each other (List.mem_cons_of_mem _ member), settled_bind]
      congr 1
      funext first
      rw [settled_bind]
      rfl

theorem decodeAckFrame_settled (payload : Bytes) :
    decodeAckFrame (C := C) (A := A) payload = settled (Framing.decodeAckFrame payload) := by
  have flagged := anyFlagged_settled (Bytes.chunksExact 21 payload)
    fun chunk => Bytes.length_of_mem_chunksExact
  have each : (Bytes.chunksExact 21 payload).mapM decodeAck =
      settled ((Bytes.chunksExact 21 payload).mapM fun chunk => .ok (Framing.decodeAck chunk)) :=
    mapM_settled fun chunk member =>
      decodeAck_settled (Bytes.length_of_mem_chunksExact member)
  have all : ((Bytes.chunksExact 21 payload).mapM fun chunk =>
      (.ok (Framing.decodeAck chunk) : Except IoError PresentationAck)) =
      .ok ((Bytes.chunksExact 21 payload).map Framing.decodeAck) := List.mapM_pure
  unfold decodeAckFrame Framing.decodeAckFrame
  rw [flagged, each, all]
  simp only [settled_ok, pure_bind]
  split_ifs with partly many many
  · rfl
  · rfl
  · rfl
  · rfl

theorem decodeInterest_settled {chunk : Bytes} (sized : chunk.length = 15) :
    decodeInterest chunk = settled (Framing.decodeInterest chunk) := by
  unfold decodeInterest Framing.decodeInterest
  rw [index_inside (by omega), u16At_inside (by decide : 13 + 2 = 15) (by omega),
    u32At_inside (by decide : 0 + 4 = 4) (by omega),
    u64At_inside (by decide : 4 + 8 = 12) (by omega)]
  simp only [pure_bind]
  split_ifs with unknown improper improper
  · rfl
  · rfl
  · rfl
  · rfl

theorem decodeInterestFrame_settled (payload : Bytes) :
    decodeInterestFrame (C := C) (A := A) payload =
      settled (Framing.decodeInterestFrame payload) := by
  have each : (Bytes.chunksExact 15 payload).mapM decodeInterest =
      settled ((Bytes.chunksExact 15 payload).mapM Framing.decodeInterest) :=
    mapM_settled fun chunk member =>
      decodeInterest_settled (Bytes.length_of_mem_chunksExact member)
  unfold decodeInterestFrame Framing.decodeInterestFrame
  rw [each]
  split_ifs with partly
  · rfl
  · cases read : (Bytes.chunksExact 15 payload).mapM Framing.decodeInterest with
    | error error => rfl
    | ok interest => rfl

theorem decodeFrame_settled (body : Bytes) :
    decodeFrame (A := A) serde body = settled (Framing.decodeFrame serde body) := by
  cases body with
  | nil => rfl
  | cons kind payload =>
      simp only [decodeFrame, Framing.decodeFrame]
      split_ifs with control input output ack acquisition interest
      · rfl
      · exact decodePaneFrame_settled payload
      · exact decodeOutputFrame_settled serde payload
      · exact decodeAckFrame_settled payload
      · rw [decodeAckFrame_settled, settled_bind]
        cases read : Framing.decodeAckFrame (C := C) (A := A) payload with
        | error error => rfl
        | ok frame =>
            rcases decodeAckFrame_eq_ok read with ⟨acks, same, _⟩
            rw [same]
            rfl
      · exact decodeInterestFrame_settled payload
      · rfl

end total

end Panicking

section canonical

variable {C A : Type}

theorem writeFrameBody_within {kind : UInt8} {tail : Bytes}
    (within : (kind :: tail).length ≤ maxFrameSize) :
    writeFrameBody kind tail =
      .ok (u32Bytes (UInt32.ofNat (kind :: tail).length) ++ kind :: tail) := by
  have small : tail.length + 1 ≤ maxFrameSize := within
  unfold writeFrameBody
  simp only
  rw [if_neg (Nat.not_lt.mpr small),
    if_neg (Nat.not_lt.mpr (small.trans (by decide)))]
  rfl

theorem writeFrameBody_beyond {kind : UInt8} {tail : Bytes}
    (beyond : maxFrameSize < (kind :: tail).length) :
    writeFrameBody kind tail = .error ⟨.invalidInput,
      s!"frame length {(kind :: tail).length} exceeds maximum {maxFrameSize}"⟩ :=
  if_pos beyond

/-- A body of any kind but control JSON is refused, or it is a frame the decoder admits: written
again, that is the same body with its bindings respelled, or too long for a frame. -/
theorem decodeFrame_canonical (serde : Serde C) (spellable : serde.Spellable) (body : Bytes)
    (pane : body.head? ≠ some frameKindControlJson) :
    (∃ error, Panicking.decodeFrame (A := A) serde body = Panicking.settled (.error error)) ∨
      ∃ (frame : Frame C A) (again : Bytes),
        Panicking.decodeFrame serde body = Panicking.settled (.ok frame) ∧
        frame.Admitted ∧ frame.Respells serde body again ∧
        frame.write serde = if again.length ≤ maxFrameSize then
            .ok (u32Bytes (UInt32.ofNat again.length) ++ again)
          else .error ⟨.invalidInput,
            s!"frame length {again.length} exceeds maximum {maxFrameSize}"⟩ := by
  rw [Panicking.decodeFrame_settled]
  cases decoded : decodeFrame (A := A) serde body with
  | error error => exact .inl ⟨error, rfl⟩
  | ok frame =>
      cases body with
      | nil => cases decoded
      | cons kind payload =>
          have other : kind ≠ frameKindControlJson := fun same => pane (congrArg some same)
          rcases respells_of_decoded spellable other decoded with ⟨admitted, tail, respells, written⟩
          refine .inr ⟨frame, kind :: tail, rfl, admitted, respells, ?_⟩
          rw [written]
          by_cases within : (kind :: tail).length ≤ maxFrameSize
          · rw [if_pos within, writeFrameBody_within within]
          · rw [if_neg within, writeFrameBody_beyond (Nat.not_le.mp within)]

end canonical

section sample

def terseText : Bytes := ascii "[[[0,4],\"/tmp/a\",3,24]]"

def terseSerde : Serde Unit where
  message := sampleSerde.message
  bindings := {
    toVec := sampleSerde.bindings.toVec
    fromSlice := fun bytes => if bytes = sampleText ∨ bytes = terseText then .ok sampleBindings
      else .error "expected value" }

theorem terseSerde_spellable : terseSerde.Spellable where
  bindings := by
    intro bytes files read
    simp only [terseSerde] at read
    split_ifs at read
    cases read
    exact ⟨sampleText, rfl⟩

def terseMetadata : OutputMetadata := { sequence := 9, coalesceEpoch := 1, outputClass := .ordered }

def terseMedia : OutputMedia Unit :=
  { acquisitionSequence := 4, files := sampleBindings, acquired := [] }

def terseFrame (size : Nat) : Frame Unit Unit :=
  .paneOutput 7 false 3 terseMetadata (some terseMedia) (List.replicate size 0)

def terseBody (size : Nat) : Bytes :=
  frameKindPaneOutput :: (u32Bytes 7 ++ (u64Bytes 3 ++ flag false ::
    outputBytes terseMetadata.sequence terseMetadata.coalesceEpoch 0 0 0 0
      terseMedia.acquisitionSequence (UInt32.ofNat terseText.length)
      (terseText ++ List.replicate size 0)))

theorem length_terseBody (size : Nat) : (terseBody size).length = 86 + size := by
  have text : terseText.length = 23 := by decide
  simp only [terseBody, List.length_cons, List.length_append, length_u32Bytes, length_u64Bytes,
    length_outputBytes, text, List.length_replicate, paneOutputMetadataLen, paneOutputSemanticsLen]
  omega

def terseWriter : Serde Unit where
  message := sampleSerde.message
  bindings := {
    toVec := fun files => if files = sampleBindings then .ok terseText else .error "unsupported"
    fromSlice := terseSerde.bindings.fromSlice }

theorem terseWriter_lawful : terseWriter.Lawful where
  message := sampleSerde_lawful.message
  bindings := by
    intro files bytes written
    simp only [terseWriter] at written
    split_ifs at written with sample
    cases written
    rw [sample]
    rfl
  nothing := by
    intro files read
    cases read

theorem terseMedia_admitted {size : Nat} (covered : 4 ≤ size) : terseMedia.Admitted size where
  filled := by decide
  few := by decide
  sequence := by decide
  ordered := List.pairwise_singleton _ _
  sound := by
    intro file member
    rw [List.mem_singleton.mp member]
    exact ⟨by decide, covered, by decide, by decide⟩

theorem decodeFrame_terseBody {size : Nat} (covered : 4 ≤ size) :
    decodeFrame terseSerde (terseBody size) = .ok (terseFrame size) := by
  have small : terseText.length < 4294967296 := by decide
  have written : encodeBindings terseWriter (some terseMedia) = .ok terseText := by
    simp only [encodeBindings, terseWriter, terseMedia, if_true]
    rfl
  have admitted : ∀ present ∈ some terseMedia,
      present.Admitted (List.replicate size (0 : UInt8)).length := by
    intro present member
    cases member
    rw [List.length_replicate]
    exact terseMedia_admitted covered
  have fields : terseMetadata.outputClass.fields = (0, 0, 0, 0) := rfl
  have acquisition : (some terseMedia).elim 0 OutputMedia.acquisitionSequence =
    terseMedia.acquisitionSequence := rfl
  have received : (some terseMedia).map OutputMedia.received = some terseMedia := rfl
  have same : decodeOutputFrame (A := Unit) terseSerde = decodeOutputFrame terseWriter := rfl
  have read := @decodeOutputFrame_written _ _ _ _ _ _ _ terseWriter_lawful 7 false 3 terseMetadata
    (some terseMedia) _ _ small written trivial admitted fields
  rw [acquisition, received] at read
  unfold terseBody terseFrame
  rw [decodeFrame_output, same]
  rw [read]

/-- A body as long as a frame may be is taken for a frame that is too long to be written. -/
theorem respelled_too_long :
    (terseBody (maxFrameSize - 86)).length = maxFrameSize ∧
      decodeFrame terseSerde (terseBody (maxFrameSize - 86)) =
        .ok (terseFrame (maxFrameSize - 86)) ∧
      ∀ wire, (terseFrame (maxFrameSize - 86)).write terseSerde ≠ .ok wire := by
  have covered : 4 ≤ maxFrameSize - 86 := by
    unfold maxFrameSize
    omega
  generalize sized : maxFrameSize - 86 = size at covered ⊢
  have decoded := decodeFrame_terseBody covered
  refine ⟨?_, decoded, ?_⟩
  · rw [length_terseBody, ← sized]
    unfold maxFrameSize
    omega
  · intro wire
    rcases respells_of_decoded terseSerde_spellable (by decide) decoded with
      ⟨_, tail, ⟨front, _, spelled, placed, _, spells, _, again⟩, written⟩
    cases spells
    have text : sampleText.length = 80 := by decide
    have length := congrArg List.length again
    simp only [List.length_append, length_u32Bytes, placed, text, List.length_replicate,
      paneFrameHeaderLen, paneOutputSemanticsLen] at length
    have beyond : maxFrameSize < (frameKindPaneOutput :: tail).length := by
      rw [length]
      unfold maxFrameSize at sized ⊢
      omega
    rw [written, writeFrameBody_beyond beyond]
    rintro ⟨⟩

/-- An output that arrives with its bindings spelled the shorter way. -/
theorem decodeFrame_canonical_terse :
    (∃ error, Panicking.decodeFrame (A := Unit) terseSerde (terseBody 4) =
        Panicking.settled (.error error)) ∨
      ∃ (frame : Frame Unit Unit) (again : Bytes),
        Panicking.decodeFrame terseSerde (terseBody 4) = Panicking.settled (.ok frame) ∧
        frame.Admitted ∧ frame.Respells terseSerde (terseBody 4) again ∧
        frame.write terseSerde = if again.length ≤ maxFrameSize then
            .ok (u32Bytes (UInt32.ofNat again.length) ++ again)
          else .error ⟨.invalidInput,
            s!"frame length {again.length} exceeds maximum {maxFrameSize}"⟩ :=
  decodeFrame_canonical terseSerde terseSerde_spellable (terseBody 4) (by decide)

end sample

end Rozi.Framing
