import Rozi.Session.FramingRoundTrip

/-!
What is read is written back: a body the decoder takes for a frame is the body that frame is
written as, but for the spelling of the bindings of its media.
-/

namespace Rozi.Framing

open Checks

/-- What is relied on of `serde_json`: bindings that were read can be written. -/
structure Serde.Spellable {C : Type} (serde : Serde C) : Prop where
  bindings : ∀ bytes files, serde.bindings.fromSlice bytes = .ok files →
    ∃ spelled, serde.bindings.toVec files = .ok spelled

/-- The body is what the frame was read from; `again` is the same with the bindings of its media
as they are written. -/
def Frame.Respells {C A : Type} (serde : Serde C) (frame : Frame C A) (body again : Bytes) : Prop :=
  match frame with
  | .paneOutput _ _ _ _ (some media) bytes =>
      ∃ front bindings spelled : Bytes,
        front.length = 1 + paneFrameHeaderLen + paneOutputSemanticsLen + 8 ∧
        serde.bindings.fromSlice bindings = .ok media.files ∧
        serde.bindings.toVec media.files = .ok spelled ∧
        body = front ++ (u32Bytes (UInt32.ofNat bindings.length) ++ (bindings ++ bytes)) ∧
        again = front ++ (u32Bytes (UInt32.ofNat spelled.length) ++ (spelled ++ bytes))
  | _ => again = body

section integers

theorem u16Bytes_readU16 {bytes : Bytes} (length : bytes.length = 2) :
    u16Bytes (readU16 bytes) = bytes := by
  have below : Bytes.toNat bytes < 2 ^ 16 := by simpa [length] using Bytes.toNat_lt bytes
  have read : (readU16 bytes).toNat = Bytes.toNat bytes := UInt16.toNat_ofNat_of_lt' below
  rw [u16Bytes, read, ← length, Bytes.ofNat_toNat]

theorem u32Bytes_readU32 {bytes : Bytes} (length : bytes.length = 4) :
    u32Bytes (readU32 bytes) = bytes := by
  have below : Bytes.toNat bytes < 2 ^ 32 := by simpa [length] using Bytes.toNat_lt bytes
  have read : (readU32 bytes).toNat = Bytes.toNat bytes := UInt32.toNat_ofNat_of_lt' below
  rw [u32Bytes, read, ← length, Bytes.ofNat_toNat]

theorem u64Bytes_readU64 {bytes : Bytes} (length : bytes.length = 8) :
    u64Bytes (readU64 bytes) = bytes := by
  have below : Bytes.toNat bytes < 2 ^ 64 := by simpa [length] using Bytes.toNat_lt bytes
  have read : (readU64 bytes).toNat = Bytes.toNat bytes := UInt64.toNat_ofNat_of_lt' below
  rw [u64Bytes, read, ← length, Bytes.ofNat_toNat]

end integers

section fields

variable (bytes : Bytes) (start : Nat)

theorem u16Bytes_append_drop (inside : start + 2 ≤ bytes.length) :
    u16Bytes (readU16 (Bytes.slice bytes start (start + 2))) ++ bytes.drop (start + 2) =
      bytes.drop start := by
  rw [u16Bytes_readU16 (by rw [Bytes.length_slice inside]; omega),
    Bytes.slice_append_drop (by omega)]

theorem u32Bytes_append_drop (inside : start + 4 ≤ bytes.length) :
    u32Bytes (readU32 (Bytes.slice bytes start (start + 4))) ++ bytes.drop (start + 4) =
      bytes.drop start := by
  rw [u32Bytes_readU32 (by rw [Bytes.length_slice inside]; omega),
    Bytes.slice_append_drop (by omega)]

theorem u64Bytes_append_drop (inside : start + 8 ≤ bytes.length) :
    u64Bytes (readU64 (Bytes.slice bytes start (start + 8))) ++ bytes.drop (start + 8) =
      bytes.drop start := by
  rw [u64Bytes_readU64 (by rw [Bytes.length_slice inside]; omega),
    Bytes.slice_append_drop (by omega)]

theorem getD_cons_drop (inside : start < bytes.length) :
    bytes.getD start 0 :: bytes.drop (start + 1) = bytes.drop start := by
  rw [List.getD_eq_getElem?_getD, List.getElem?_eq_getElem inside, Option.getD_some,
    List.getElem_cons_drop]

end fields

section pane

variable {C A : Type}

theorem paneHeader_bytes {payload : Bytes} (long : paneFrameHeaderLen ≤ payload.length) :
    u32Bytes (readU32 (Bytes.slice payload 0 4)) ++ (u64Bytes (readU64 (Bytes.slice payload 4 12))
      ++ payload.getD 12 0 :: payload.drop paneFrameHeaderLen) = payload := by
  have enough : 13 ≤ payload.length := long
  change _ ++ (_ ++ payload.getD 12 0 :: payload.drop (12 + 1)) = _
  rw [getD_cons_drop payload 12 (by omega)]
  have generation := u64Bytes_append_drop payload 4 (by omega)
  have paneId := u32Bytes_append_drop payload 0 (by omega)
  rw [generation, paneId, List.drop_zero]

theorem decodePaneFrame_eq_ok {payload : Bytes} {frame : Frame C A}
    (decoded : decodePaneFrame payload = .ok frame) :
    ∃ (paneId : UInt32) (generation : UInt64) (flags : UInt8) (bytes : Bytes),
      payload = u32Bytes paneId ++ (u64Bytes generation ++ flags :: bytes) ∧
      flags &&& ~~~3 = 0 ∧
      frame = .paneBytes (flags &&& 2 == 0) paneId (flags &&& 1 != 0) generation bytes := by
  unfold decodePaneFrame at decoded
  split_ifs at decoded with short
  simp only at decoded
  split_ifs at decoded with unknown
  cases decoded
  exact ⟨_, _, _, _, (paneHeader_bytes (Nat.le_of_not_lt short)).symm, not_not.mp unknown,
    rfl⟩

/-- Known flags are the flags of the input they stand for. -/
theorem inputFlags_known {flags : UInt8} (known : flags &&& ~~~3 = 0) :
    flag (flags &&& 1 != 0) ||| flag (!(flags &&& 2 == 0)) <<< 1 = flags := by
  have each : ∀ index : Fin 256, UInt8.ofFin index &&& ~~~3 = 0 →
      flag (UInt8.ofFin index &&& 1 != 0) ||| flag (!(UInt8.ofFin index &&& 2 == 0)) <<< 1 =
        UInt8.ofFin index := by
    decide +kernel
  exact each flags.toFin known

theorem flag_of_few {flags : UInt8} (few : ¬ 1 < flags) :
    flag (flags != 0) = flags ∧ flag (flags &&& 1 != 0) = flags := by
  have each : ∀ index : Fin 256, ¬ 1 < UInt8.ofFin index →
      flag (UInt8.ofFin index != 0) = UInt8.ofFin index ∧
        flag (UInt8.ofFin index &&& 1 != 0) = UInt8.ofFin index := by
    decide +kernel
  exact each flags.toFin few

theorem interestFlags_known {flags : UInt8} (known : flags &&& ~~~7 = 0) :
    flag (flags &&& 1 != 0) ||| flag (flags &&& 2 != 0) <<< 1 ||| flag (flags &&& 4 != 0) <<< 2 =
      flags := by
  have each : ∀ index : Fin 256, UInt8.ofFin index &&& ~~~7 = 0 →
      flag (UInt8.ofFin index &&& 1 != 0) ||| flag (UInt8.ofFin index &&& 2 != 0) <<< 1 |||
        flag (UInt8.ofFin index &&& 4 != 0) <<< 2 = UInt8.ofFin index := by
    decide +kernel
  exact each flags.toFin known

end pane

section output

variable {C A : Type} {serde : Serde C}

theorem outputBytes_fields {bytes : Bytes} (long : paneOutputMetadataLen ≤ bytes.length) :
    outputBytes (readU64 (Bytes.slice bytes 0 8)) (readU64 (Bytes.slice bytes 8 16))
      (bytes.getD 16 0) (readU32 (Bytes.slice bytes 17 21)) (readU64 (Bytes.slice bytes 21 29))
      (readU64 (Bytes.slice bytes 29 37)) (readU64 (Bytes.slice bytes 37 45))
      (readU32 (Bytes.slice bytes 45 49)) (bytes.drop 49) = bytes := by
  have enough : 49 ≤ bytes.length := long
  have bindingLen := u32Bytes_append_drop bytes 45 (by omega)
  have acquisition := u64Bytes_append_drop bytes 37 (by omega)
  have revision := u64Bytes_append_drop bytes 29 (by omega)
  have incarnation := u64Bytes_append_drop bytes 21 (by omega)
  have image := u32Bytes_append_drop bytes 17 (by omega)
  have outputClass := getD_cons_drop bytes 16 (by omega)
  have epoch := u64Bytes_append_drop bytes 8 (by omega)
  have sequence := u64Bytes_append_drop bytes 0 (by omega)
  unfold outputBytes
  rw [bindingLen, acquisition, revision, incarnation, image, outputClass, epoch, sequence,
    List.drop_zero]

theorem decodeOutputClass_eq_ok {bytes : Bytes} {outputClass : OutputClass}
    (decoded : decodeOutputClass bytes = .ok outputClass) :
    outputClass.Admitted ∧ outputClass.fields = (bytes.getD 16 0,
      readU32 (Bytes.slice bytes 17 21), readU64 (Bytes.slice bytes 21 29),
      readU64 (Bytes.slice bytes 29 37)) := by
  unfold decodeOutputClass at decoded
  simp only at decoded
  split_ifs at decoded with ordered dependent independent
  · cases decoded
    rcases ordered with ⟨named, image, incarnation, revision⟩
    rw [named, image, incarnation, revision]
    exact ⟨trivial, rfl⟩
  · cases decoded
    rw [dependent.1]
    exact ⟨dependent.2, rfl⟩
  · cases decoded
    rw [independent.1]
    exact ⟨independent.2, rfl⟩

theorem sound_of_validateFileBindings {files : List ImmutableFileBinding} {stop outputLen : Nat}
    (passed : validateFileBindings stop files outputLen = .ok ()) :
    (∀ file ∈ files, stop ≤ file.start) ∧
      files.Pairwise (fun earlier later => earlier.stop ≤ later.start) ∧
      ∀ file ∈ files, file.start < file.stop ∧ file.stop ≤ outputLen ∧
        file.byteLen ≠ 0 ∧ (file.format = 24 ∨ file.format = 32) := by
  induction files generalizing stop with
  | nil =>
      exact ⟨fun _ member => absurd member List.not_mem_nil, .nil,
        fun _ member => absurd member List.not_mem_nil⟩
  | cons file files ih =>
      rw [validateFileBindings] at passed
      split_ifs at passed with invalid
      rw [Bool.not_eq_true, Bool.not_eq_false'] at invalid
      simp only [ImmutableFileBinding.validAfter, Bool.and_eq_true, decide_eq_true_eq,
        Bool.or_eq_true, beq_iff_eq, bne_iff_ne] at invalid
      rcases invalid with ⟨⟨⟨⟨behind, proper⟩, inside⟩, filled⟩, format⟩
      rcases ih passed with ⟨later, ordered, sound⟩
      refine ⟨?_, List.pairwise_cons.mpr ⟨later, ordered⟩, ?_⟩
      · intro other member
        rcases List.mem_cons.mp member with same | member
        · rw [same]
          exact behind
        · exact (behind.trans proper.le).trans (later other member)
      · intro other member
        rcases List.mem_cons.mp member with same | member
        · rw [same]
          exact ⟨proper, inside, filled, format⟩
        · exact sound other member

def MediaRead (serde : Serde C) (media : Option (OutputMedia A)) (acquisition : UInt64)
    (bindings bytes : Bytes) : Prop :=
  match media with
  | none => acquisition = 0 ∧ bindings = []
  | some media => acquisition = media.acquisitionSequence ∧
      serde.bindings.fromSlice bindings = .ok media.files ∧ media.Admitted bytes.length

theorem decodeOutputMedia_eq_ok {bytes : Bytes} {media : Option (OutputMedia A)} {start : Nat}
    (long : paneOutputMetadataLen ≤ bytes.length)
    (decoded : decodeOutputMedia serde bytes = .ok (media, start)) :
    start ≤ bytes.length ∧ ∃ bindings : Bytes, bytes.drop 49 = bindings ++ bytes.drop start ∧
      readU32 (Bytes.slice bytes 45 49) = UInt32.ofNat bindings.length ∧
      MediaRead serde media (readU64 (Bytes.slice bytes 37 45)) bindings (bytes.drop start) := by
  have enough : 49 ≤ bytes.length := long
  unfold decodeOutputMedia at decoded
  simp only at decoded
  split_ifs at decoded with short empty sequenced
  · cases decoded
    have none : readU32 (Bytes.slice bytes 45 49) = 0 := UInt32.toNat_inj.mp empty
    refine ⟨Nat.le_of_not_lt short, [], ?_, none, not_not.mp sequenced, rfl⟩
    rw [empty]
    rfl
  · rcases (bind_eq_ok _ _ _).mp decoded with ⟨files, read, decoded⟩
    split_ifs at decoded with envelope
    · rcases (bind_eq_ok _ _ _).mp decoded with ⟨_, failed, _⟩
      cases failed
    · rcases (bind_eq_ok _ _ _).mp decoded with ⟨_, passed, decoded⟩
      cases decoded
      simp only [Bool.or_eq_true, not_or, decide_eq_true_eq, List.isEmpty_iff, beq_iff_eq]
        at envelope
      rcases envelope with ⟨⟨filled, few⟩, sequenced⟩
      have inside : 49 + (readU32 (Bytes.slice bytes 45 49)).toNat ≤ bytes.length :=
        Nat.le_of_not_lt short
      have sized : (Bytes.slice bytes 49 (49 + (readU32 (Bytes.slice bytes 45 49)).toNat)).length =
          (readU32 (Bytes.slice bytes 45 49)).toNat := by
        rw [Bytes.length_slice inside, Nat.add_sub_cancel_left]
      rcases sound_of_validateFileBindings passed with ⟨_, ordered, sound⟩
      refine ⟨inside, _, (Bytes.slice_append_drop (Nat.le_add_right _ _)).symm, ?_, rfl,
        orOther_eq_ok read, ?_⟩
      · exact ((congrArg UInt32.ofNat sized).trans UInt32.ofNat_toNat).symm
      · rw [List.length_drop]
        exact ⟨filled, Nat.le_of_not_lt few, sequenced, ordered, sound⟩

theorem decodeOutputFrame_eq_ok {payload : Bytes} {frame : Frame C A}
    (decoded : decodeOutputFrame serde payload = .ok frame) :
    ∃ (paneId : UInt32) (isLocal : Bool) (generation : UInt64) (metadata : OutputMetadata)
      (media : Option (OutputMedia A)) (bytes bindings : Bytes) (outputClass : UInt8)
      (image : UInt32) (incarnation revision acquisition : UInt64),
      frame = .paneOutput paneId isLocal generation metadata media bytes ∧
      metadata.outputClass.Admitted ∧
      metadata.outputClass.fields = (outputClass, image, incarnation, revision) ∧
      MediaRead serde media acquisition bindings bytes ∧
      payload = u32Bytes paneId ++ (u64Bytes generation ++ flag isLocal ::
        outputBytes metadata.sequence metadata.coalesceEpoch outputClass image incarnation revision
          acquisition (UInt32.ofNat bindings.length) (bindings ++ bytes)) := by
  unfold decodeOutputFrame at decoded
  split_ifs at decoded with flagged
  rcases (bind_eq_ok _ _ _).mp decoded with ⟨inner, header, decoded⟩
  rcases decodePaneFrame_eq_ok header with ⟨paneId, generation, flags, bytes, same, known, shape⟩
  rw [shape] at decoded
  simp only at decoded
  split_ifs at decoded with short
  · rcases (bind_eq_ok _ _ _).mp decoded with ⟨_, failed, _⟩
    cases failed
  · rcases (bind_eq_ok _ _ _).mp decoded with ⟨outputClass, classed, decoded⟩
    rcases (bind_eq_ok _ _ _).mp decoded with ⟨⟨media, start⟩, mediated, decoded⟩
    cases decoded
    have long := Nat.le_of_not_lt short
    rcases decodeOutputClass_eq_ok classed with ⟨admitted, fields⟩
    rcases decodeOutputMedia_eq_ok long mediated with ⟨_, bindings, left, sized, read⟩
    have few : ¬ 1 < flags := by
      intro many
      apply flagged
      rw [same]
      change decide (1 < flags) = true
      exact decide_eq_true many
    refine ⟨paneId, flags &&& 1 != 0, generation, _, media, _, bindings, _, _, _, _, _, rfl,
      admitted, fields, read, ?_⟩
    rw [(flag_of_few few).2, ← left, ← sized, outputBytes_fields long, same]

end output

section packed

variable {C A : Type}

/-- Pieces that are each written as they were read are together the string they were cut from. -/
theorem flatMap_pieces {α : Type} {size : Nat} {payload : Bytes} {read : Bytes → α}
    {write : α → Bytes} (whole : payload.length % size = 0)
    (again : ∀ chunk ∈ Bytes.chunksExact size payload, write (read chunk) = chunk) :
    ((Bytes.chunksExact size payload).map read).flatMap write = payload := by
  have same : (Bytes.chunksExact size payload).map (write ∘ read) =
      Bytes.chunksExact size payload := by
    refine (List.map_congr_left again).trans (List.map_id _)
  rw [List.flatMap_def, List.map_map, same, Bytes.flatten_chunksExact whole]

theorem ackBytes_decodeAck {chunk : Bytes} (sized : chunk.length = 21)
    (few : ¬ 1 < chunk.getD 20 0) :
    ackBytes (decodeAck chunk).paneId (decodeAck chunk).generation (decodeAck chunk).sequence
      (decodeAck chunk).isLocal = chunk := by
  have last : [chunk.getD 20 0] = chunk.drop 20 := by
    rw [← getD_cons_drop chunk 20 (by omega), List.drop_eq_nil_of_le (by omega)]
  have sequence := u64Bytes_append_drop chunk 12 (by omega)
  have generation := u64Bytes_append_drop chunk 4 (by omega)
  have paneId := u32Bytes_append_drop chunk 0 (by omega)
  unfold ackBytes decodeAck
  rw [(flag_of_few few).1, last, sequence, generation, paneId, List.drop_zero]

theorem decodeAckFrame_eq_ok {payload : Bytes} {frame : Frame C A}
    (decoded : decodeAckFrame payload = .ok frame) :
    ∃ acks : List PresentationAck, frame = .presentationAcks acks ∧ acks.length * 21 = payload.length
      ∧ acks.flatMap (fun ack => ackBytes ack.paneId ack.generation ack.sequence ack.isLocal) =
        payload := by
  unfold decodeAckFrame at decoded
  split_ifs at decoded with partly flagged
  cases decoded
  have whole := not_not.mp partly
  have packed : ((Bytes.chunksExact 21 payload).map decodeAck).flatMap
      (fun ack => ackBytes ack.paneId ack.generation ack.sequence ack.isLocal) = payload := by
    apply flatMap_pieces whole
    intro chunk member
    apply ackBytes_decodeAck (Bytes.length_of_mem_chunksExact member)
    intro many
    exact flagged (List.any_eq_true.mpr ⟨chunk, member, decide_eq_true many⟩)
  refine ⟨_, rfl, ?_, packed⟩
  have length := congrArg List.length packed
  rw [Bytes.length_flatMap_const fun ack => length_ackBytes _ _ _ _] at length
  exact length

theorem decodeInterest_eq_ok {chunk : Bytes} {pane : PanePresentationInterest}
    (sized : chunk.length = 15) (decoded : decodeInterest chunk = .ok pane) :
    pane.bytes = chunk ∧ 1 ≤ pane.framesPerSecond ∧ pane.framesPerSecond ≤ 1000 := by
  unfold decodeInterest at decoded
  simp only at decoded
  split_ifs at decoded with unknown improper
  cases decoded
  rw [not_or, UInt16.not_lt] at improper
  rcases improper with ⟨some, slow⟩
  have rate := u16Bytes_append_drop chunk 13 (by omega)
  rw [List.drop_eq_nil_of_le (by omega), List.append_nil] at rate
  have flags := getD_cons_drop chunk 12 (by omega)
  have generation := u64Bytes_append_drop chunk 4 (by omega)
  have paneId := u32Bytes_append_drop chunk 0 (by omega)
  refine ⟨?_, ?_, slow⟩
  · unfold PanePresentationInterest.bytes
    simp only
    rw [interestFlags_known (not_not.mp unknown), rate, flags, generation, paneId, List.drop_zero]
  · have positive : (readU16 (Bytes.slice chunk 13 15)).toNat ≠ 0 := fun zero =>
      some (UInt16.toNat_inj.mp zero)
    rw [UInt16.le_iff_toNat_le]
    exact Nat.one_le_iff_ne_zero.mpr positive

theorem decodeInterests_eq_ok {chunks : List Bytes} {interest : List PanePresentationInterest}
    (sized : ∀ chunk ∈ chunks, chunk.length = 15)
    (decoded : chunks.mapM decodeInterest = .ok interest) :
    interest.flatMap PanePresentationInterest.bytes = chunks.flatten ∧
      ∀ pane ∈ interest, 1 ≤ pane.framesPerSecond ∧ pane.framesPerSecond ≤ 1000 := by
  induction chunks generalizing interest with
  | nil =>
      cases decoded
      exact ⟨rfl, fun _ member => absurd member List.not_mem_nil⟩
  | cons chunk chunks ih =>
      rw [List.mapM_cons] at decoded
      rcases (bind_eq_ok _ _ _).mp decoded with ⟨pane, first, decoded⟩
      rcases (bind_eq_ok _ _ _).mp decoded with ⟨others, rest, decoded⟩
      cases decoded
      rcases decodeInterest_eq_ok (sized chunk List.mem_cons_self) first with ⟨same, rate⟩
      rcases ih (fun other member => sized other (List.mem_cons_of_mem _ member)) rest with
        ⟨packed, rates⟩
      refine ⟨?_, ?_⟩
      · rw [List.flatMap_cons, List.flatten_cons, same, packed]
      · intro other member
        rcases List.mem_cons.mp member with same | member
        · rw [same]
          exact rate
        · exact rates other member

theorem decodeInterestFrame_eq_ok {payload : Bytes} {frame : Frame C A}
    (decoded : decodeInterestFrame payload = .ok frame) :
    ∃ interest : List PanePresentationInterest, frame = .presentationInterest interest ∧
      (∀ pane ∈ interest, 1 ≤ pane.framesPerSecond ∧ pane.framesPerSecond ≤ 1000) ∧
      interest.flatMap PanePresentationInterest.bytes = payload := by
  unfold decodeInterestFrame at decoded
  split_ifs at decoded with partly
  cases read : (Bytes.chunksExact 15 payload).mapM decodeInterest with
  | error error =>
      rw [read] at decoded
      cases decoded
  | ok interest =>
      rw [read] at decoded
      cases decoded
      rcases decodeInterests_eq_ok (fun chunk => Bytes.length_of_mem_chunksExact) read with
        ⟨packed, rates⟩
      exact ⟨interest, rfl, rates, packed.trans (Bytes.flatten_chunksExact (not_not.mp partly))⟩

end packed

section canonical

variable {C A : Type} {serde : Serde C}

theorem admitted_of_mediaRead {media : Option (OutputMedia A)} {acquisition : UInt64}
    {bindings bytes : Bytes} (read : MediaRead serde media acquisition bindings bytes) :
    ∀ present ∈ media, present.Admitted bytes.length := by
  intro present member
  cases media with
  | none => cases member
  | some media =>
      cases member
      exact read.2.2

/-- An output that was read is written again with its bindings respelled. -/
theorem output_respells (spellable : serde.Spellable) {payload : Bytes} {frame : Frame C A}
    (decoded : decodeOutputFrame serde payload = .ok frame) :
    frame.Admitted ∧ ∃ tail, frame.Respells serde (frameKindPaneOutput :: payload)
      (frameKindPaneOutput :: tail) ∧
        frame.write serde = writeFrameBody frameKindPaneOutput tail := by
  rcases decodeOutputFrame_eq_ok decoded with ⟨paneId, isLocal, generation, metadata, media, bytes,
    bindings, outputClass, image, incarnation, revision, acquisition, same, admitted, fields, read,
    packed⟩
  rw [same]
  refine ⟨⟨admitted, admitted_of_mediaRead read⟩, ?_⟩
  cases media with
  | none =>
      rcases read with ⟨none, empty⟩
      refine ⟨payload, rfl, ?_⟩
      simp only [Frame.write, writePaneOutputMediaFrame, fields]
      rw [packed, none, empty]
      rfl
  | some media =>
      rcases read with ⟨acquired, read, _⟩
      rcases spellable.bindings _ _ read with ⟨spelled, written⟩
      refine ⟨u32Bytes paneId ++ (u64Bytes generation ++ flag isLocal ::
        outputBytes metadata.sequence metadata.coalesceEpoch outputClass image incarnation revision
          acquisition (UInt32.ofNat spelled.length) (spelled ++ bytes)), ?_, ?_⟩
      · refine ⟨frameKindPaneOutput :: (u32Bytes paneId ++ (u64Bytes generation ++ flag isLocal ::
          (u64Bytes metadata.sequence ++ (u64Bytes metadata.coalesceEpoch ++ (outputClass ::
            (u32Bytes image ++ (u64Bytes incarnation ++ (u64Bytes revision ++
              u64Bytes acquisition)))))))), bindings, spelled, ?_, read, written, ?_, ?_⟩
        · simp only [List.length_cons, List.length_append, length_u32Bytes, length_u64Bytes]
          rfl
        · rw [packed]
          simp only [outputBytes, List.cons_append, List.append_assoc]
        · simp only [outputBytes, List.cons_append, List.append_assoc]
      · have encoded : encodeBindings serde (some media) = .ok spelled := by
          simp only [encodeBindings, written]
          rfl
        simp only [Frame.write, writePaneOutputMediaFrame, fields, encoded]
        rw [acquired]
        rfl

/-- A body that was read is what its frame is written as, but for the spelling of bindings. -/
theorem respells_of_decoded (spellable : serde.Spellable) {kind : UInt8} {payload : Bytes}
    {frame : Frame C A} (pane : kind ≠ frameKindControlJson)
    (decoded : decodeFrame serde (kind :: payload) = .ok frame) :
    frame.Admitted ∧ ∃ tail, frame.Respells serde (kind :: payload) (kind :: tail) ∧
      frame.write serde = writeFrameBody kind tail := by
  simp only [decodeFrame, if_neg pane] at decoded
  split_ifs at decoded with input output ack acquisition interest
  · rcases decodePaneFrame_eq_ok decoded with ⟨paneId, generation, flags, bytes, packed, known, same⟩
    rw [same, input]
    refine ⟨trivial, payload, rfl, ?_⟩
    simp only [Frame.write, writePaneInputWithPriority]
    rw [inputFlags_known known, packed]
  · rw [output]
    exact output_respells spellable decoded
  · rcases decodeAckFrame_eq_ok decoded with ⟨acks, same, _, packed⟩
    rw [same, ack]
    refine ⟨trivial, payload, rfl, ?_⟩
    simp only [Frame.write, writePresentationAcks]
    rw [packed]
  · rcases (bind_eq_ok _ _ _).mp decoded with ⟨inner, read, decoded⟩
    rcases decodeAckFrame_eq_ok read with ⟨acks, same, length, packed⟩
    rw [same] at decoded
    cases decoded
    rw [acquisition.1]
    refine ⟨?_, payload, rfl, ?_⟩
    · have few : acks.length * 21 ≤ 4096 * 21 := length ▸ acquisition.2
      change (acks.map PresentationAck.acquisition).length ≤ 4096
      rw [List.length_map]
      omega
    · simp only [Frame.write, writeAcquisitionAcks, List.flatMap_map]
      exact congrArg (writeFrameBody frameKindAcquisitionAck) packed
  · rcases decodeInterestFrame_eq_ok decoded with ⟨interests, same, rates, packed⟩
    rw [same, interest]
    refine ⟨rates, payload, rfl, ?_⟩
    simp only [Frame.write, writePresentationInterest]
    rw [packed]

end canonical

end Rozi.Framing
