import Rozi.Session.Framing

/-!
What is written is read back: every frame the decoder admits comes out of the stream as it went in,
in order, however the stream is cut.
-/

namespace Rozi.Framing

open Checks

/-- What is relied on of `serde_json`: it reads what it wrote, and nothing is not JSON. -/
structure Serde.Lawful {C : Type} (serde : Serde C) : Prop where
  message : ∀ value bytes, serde.message.toVec value = .ok bytes →
    serde.message.fromSlice bytes = .ok value
  bindings : ∀ files bytes, serde.bindings.toVec files = .ok bytes →
    serde.bindings.fromSlice bytes = .ok files
  nothing : ∀ files, serde.bindings.fromSlice [] ≠ .ok files

def OutputClass.Admitted : OutputClass → Prop
  | .ordered => True
  | .dependentGraphics image incarnation _ => image ≠ 0 ∧ incarnation ≠ 0
  | .independentGraphics image incarnation _ => image ≠ 0 ∧ incarnation ≠ 0

structure OutputMedia.Admitted {A : Type} (media : OutputMedia A) (outputLen : Nat) : Prop where
  filled : media.files ≠ []
  few : media.files.length ≤ 64
  sequence : media.acquisitionSequence ≠ 0
  ordered : media.files.Pairwise fun earlier later => earlier.stop ≤ later.start
  sound : ∀ file ∈ media.files, file.start < file.stop ∧ file.stop ≤ outputLen ∧
    file.byteLen ≠ 0 ∧ (file.format = 24 ∨ file.format = 32)

def Frame.Admitted {C A : Type} : Frame C A → Prop
  | .paneOutput _ _ _ metadata media bytes =>
      metadata.outputClass.Admitted ∧ ∀ present ∈ media, present.Admitted bytes.length
  | .acquisitionAcks acks => acks.length ≤ 4096
  | .presentationInterest interest =>
      ∀ pane ∈ interest, 1 ≤ pane.framesPerSecond ∧ pane.framesPerSecond ≤ 1000
  | .control _ | .presentationAcks _ | .paneBytes _ _ _ _ _ => True

def OutputMedia.received {A : Type} (media : OutputMedia A) : OutputMedia A :=
  { media with acquired := [] }

def Frame.received {C A : Type} : Frame C A → Frame C A
  | .paneOutput paneId isLocal generation metadata media bytes =>
      .paneOutput paneId isLocal generation metadata
        (media.map OutputMedia.received) bytes
  | frame => frame

section integers

@[simp] theorem readU16_u16Bytes (value : UInt16) : readU16 (u16Bytes value) = value := by
  unfold readU16 u16Bytes
  rw [Bytes.toNat_ofNat value.toNat_lt]
  exact UInt16.ofNat_toNat

@[simp] theorem readU32_u32Bytes (value : UInt32) : readU32 (u32Bytes value) = value := by
  unfold readU32 u32Bytes
  rw [Bytes.toNat_ofNat value.toNat_lt]
  exact UInt32.ofNat_toNat

@[simp] theorem readU64_u64Bytes (value : UInt64) : readU64 (u64Bytes value) = value := by
  unfold readU64 u64Bytes
  rw [Bytes.toNat_ofNat value.toNat_lt]
  exact UInt64.ofNat_toNat

@[simp] theorem length_u16Bytes (value : UInt16) : (u16Bytes value).length = 2 :=
  Bytes.length_ofNat 2 _

@[simp] theorem length_u32Bytes (value : UInt32) : (u32Bytes value).length = 4 :=
  Bytes.length_ofNat 4 _

@[simp] theorem length_u64Bytes (value : UInt64) : (u64Bytes value).length = 8 :=
  Bytes.length_ofNat 8 _

end integers

section frame

variable {C A : Type} {serde : Serde C}

theorem writeFrameBody_eq_ok {kind : UInt8} {body wire : Bytes}
    (written : writeFrameBody kind body = .ok wire) :
    body.length + 1 ≤ maxFrameSize ∧
      wire = u32Bytes (UInt32.ofNat (body.length + 1)) ++ kind :: body := by
  unfold writeFrameBody at written
  simp only at written
  split_ifs at written with long
  cases written
  exact ⟨by omega, rfl⟩

theorem frameDecoder_pull (buffer : Bytes) :
    (frameDecoder (A := A) serde).pull buffer = nextFrame serde maxFrameSize buffer := rfl

theorem nextFrame_length {buffer : Bytes} {maxSize len : Nat} {prefixed : Bytes}
    (small : len < 4294967296) (within : len ≤ maxSize)
    (starts : buffer = u32Bytes (UInt32.ofNat len) ++ prefixed) :
    nextFrame (C := C) (A := A) serde maxSize buffer =
      if prefixed.length < len then (.ok none, buffer)
      else (some <$> decodeFrame serde (prefixed.take len), prefixed.drop len) := by
  have length : buffer.length = 4 + prefixed.length := by simp [starts]
  have named : (readU32 (Bytes.slice buffer 0 4)).toNat = len := by
    rw [starts]
    calc
      _ = (readU32 (u32Bytes (UInt32.ofNat len))).toNat := rfl
      _ = len := by rw [readU32_u32Bytes, UInt32.toNat_ofNat_of_lt' small]
  have body : Bytes.slice buffer 4 (4 + len) = prefixed.take len := by
    rw [starts]
    simp only [Bytes.slice, Nat.add_sub_cancel_left]
    rfl
  have rest : buffer.drop (4 + len) = prefixed.drop len := by
    rw [starts, ← List.drop_drop]
    rfl
  unfold nextFrame
  rw [if_neg (by omega)]
  simp only [named, body, rest]
  rw [if_neg (by omega)]
  by_cases partly : prefixed.length < len
  · rw [if_pos (by omega), if_pos partly]
  · rw [if_neg (by omega), if_neg partly]

theorem codes_of_decodes {frame : Frame C A} {body : Bytes} (within : body.length ≤ maxFrameSize)
    (decodes : decodeFrame serde body = .ok frame) :
    (frameDecoder serde).Codes frame (u32Bytes (UInt32.ofNat body.length) ++ body) := by
  have small : body.length < 4294967296 := lt_of_le_of_lt within (by decide)
  constructor
  · intro rest
    rw [frameDecoder_pull, List.append_assoc, nextFrame_length small within rfl, if_neg (by simp),
      List.take_left, List.drop_left, decodes]
    rfl
  · intro front back whole missing
    rw [frameDecoder_pull]
    have length := congrArg List.length whole
    simp only [List.length_append, length_u32Bytes] at length
    have some := List.length_pos_of_ne_nil missing
    by_cases short : front.length < 4
    · unfold nextFrame
      rw [if_pos short]
    · rcases List.append_eq_append_iff.mp whole with ⟨later, begun, _⟩ | ⟨later, begun, _⟩
      · have arrived := congrArg List.length begun
        simp only [List.length_append, length_u32Bytes] at arrived
        rw [nextFrame_length small within begun, if_pos (by omega)]
      · have arrived := congrArg List.length begun
        simp only [List.length_append, length_u32Bytes] at arrived
        have none : later = [] := List.length_eq_zero_iff.mp (by omega)
        rw [none, List.append_nil] at begun
        have complete : front = u32Bytes (UInt32.ofNat body.length) ++ [] := by
          rw [List.append_nil, begun]
        rw [nextFrame_length small within complete, if_pos (by simp; omega)]

end frame

section bodies

variable {C A : Type} {serde : Serde C}

theorem decodePaneFrame_header (paneId : UInt32) (generation : UInt64) (flags : UInt8)
    (bytes : Bytes) (known : flags &&& ~~~3 = 0) :
    decodePaneFrame (C := C) (A := A)
        (u32Bytes paneId ++ (u64Bytes generation ++ flags :: bytes)) =
      .ok (.paneBytes (flags &&& 2 == 0) paneId (flags &&& 1 != 0) generation bytes) := by
  have long : ¬ (u32Bytes paneId ++ (u64Bytes generation ++ flags :: bytes)).length <
      paneFrameHeaderLen := by
    simp only [paneFrameHeaderLen, List.length_append, length_u32Bytes, length_u64Bytes,
      List.length_cons]
    omega
  unfold decodePaneFrame
  rw [if_neg long]
  change (if flags &&& ~~~3 ≠ 0 then Except.error (invalidFrame "invalid input flags")
    else .ok (Frame.paneBytes (flags &&& 2 == 0) (readU32 (u32Bytes paneId)) (flags &&& 1 != 0)
      (readU64 (u64Bytes generation)) bytes)) = _
  rw [if_neg (not_not_intro known), readU32_u32Bytes, readU64_u64Bytes]

theorem paneInput_decodes (latencySensitive : Bool) (paneId : UInt32) (isLocal : Bool)
    (generation : UInt64) (bytes : Bytes) :
    decodePaneFrame (C := C) (A := A) (u32Bytes paneId ++ (u64Bytes generation ++
        (flag isLocal ||| flag (!latencySensitive) <<< 1) :: bytes)) =
      .ok (.paneBytes latencySensitive paneId isLocal generation bytes) := by
  have known : (flag isLocal ||| flag (!latencySensitive) <<< 1) &&& ~~~3 = 0 := by
    cases isLocal <;> cases latencySensitive <;> decide
  have local' : ((flag isLocal ||| flag (!latencySensitive) <<< 1) &&& 1 != 0) = isLocal := by
    cases isLocal <;> cases latencySensitive <;> decide
  have latency : ((flag isLocal ||| flag (!latencySensitive) <<< 1) &&& 2 == 0) =
      latencySensitive := by
    cases isLocal <;> cases latencySensitive <;> decide
  rw [decodePaneFrame_header paneId generation _ bytes known, local', latency]

def outputBytes (sequence coalesceEpoch : UInt64) (outputClass : UInt8) (image : UInt32)
    (incarnation revision acquisition : UInt64) (bindingLen : UInt32) (rest : Bytes) : Bytes :=
  u64Bytes sequence ++ (u64Bytes coalesceEpoch ++ (outputClass :: (u32Bytes image ++
    (u64Bytes incarnation ++ (u64Bytes revision ++ (u64Bytes acquisition ++
      (u32Bytes bindingLen ++ rest)))))))

section output

variable {sequence coalesceEpoch : UInt64} {outputClass : UInt8} {image : UInt32}
  {incarnation revision acquisition : UInt64} {bindingLen : UInt32} {rest : Bytes}

theorem length_outputBytes :
    (outputBytes sequence coalesceEpoch outputClass image incarnation revision acquisition
      bindingLen rest).length = paneOutputMetadataLen + rest.length := by
  simp only [outputBytes, paneOutputMetadataLen, paneOutputSemanticsLen, List.length_append,
    length_u32Bytes, length_u64Bytes, List.length_cons]
  omega

theorem decodeOutputClass_fields {expected : OutputClass} (admitted : expected.Admitted)
    (fields : expected.fields = (outputClass, image, incarnation, revision)) :
    decodeOutputClass (outputBytes sequence coalesceEpoch outputClass image incarnation revision
      acquisition bindingLen rest) = .ok expected := by
  generalize packed : outputBytes sequence coalesceEpoch outputClass image incarnation revision
    acquisition bindingLen rest = bytes
  have image' : readU32 (Bytes.slice bytes 17 21) = image := by
    rw [← packed]
    exact readU32_u32Bytes image
  have incarnation' : readU64 (Bytes.slice bytes 21 29) = incarnation := by
    rw [← packed]
    exact readU64_u64Bytes incarnation
  have revision' : readU64 (Bytes.slice bytes 29 37) = revision := by
    rw [← packed]
    exact readU64_u64Bytes revision
  have class' : bytes.getD 16 0 = outputClass := by
    rw [← packed]
    rfl
  unfold decodeOutputClass
  simp only [image', incarnation', revision', class']
  cases expected with
  | ordered =>
      cases fields
      rfl
  | dependentGraphics image incarnation revision =>
      cases fields
      rw [if_neg (by simp), if_pos ⟨rfl, admitted⟩]
  | independentGraphics image incarnation revision =>
      cases fields
      rw [if_neg (by simp), if_neg (by simp), if_pos ⟨rfl, admitted⟩]

theorem validateFileBindings_sound {files : List ImmutableFileBinding} {stop outputLen : Nat}
    (later : ∀ file ∈ files, stop ≤ file.start)
    (ordered : files.Pairwise fun earlier later => earlier.stop ≤ later.start)
    (sound : ∀ file ∈ files, file.start < file.stop ∧ file.stop ≤ outputLen ∧
      file.byteLen ≠ 0 ∧ (file.format = 24 ∨ file.format = 32)) :
    validateFileBindings stop files outputLen = .ok () := by
  induction files generalizing stop with
  | nil => rfl
  | cons file files ih =>
      rcases List.pairwise_cons.mp ordered with ⟨behind, ordered⟩
      rcases sound file List.mem_cons_self with ⟨proper, inside, filled, format⟩
      have valid : file.validAfter stop outputLen = true := by
        simp only [ImmutableFileBinding.validAfter, Bool.and_eq_true, decide_eq_true_eq,
          Bool.or_eq_true, beq_iff_eq, bne_iff_ne]
        exact ⟨⟨⟨⟨later file List.mem_cons_self, proper⟩, inside⟩, filled⟩, format⟩
      rw [validateFileBindings, valid]
      exact ih behind ordered fun other member => sound other (List.mem_cons_of_mem _ member)

theorem orOther_eq_ok {α : Type} {result : Except String α} {value : α}
    (passed : orOther result = .ok value) : result = .ok value := by
  cases result with
  | ok other =>
      cases passed
      rfl
  | error message => cases passed

theorem decodeOutputMedia_written (lawful : serde.Lawful) {media : Option (OutputMedia A)}
    {bindings bytes : Bytes} (small : bindings.length < 4294967296)
    (written : encodeBindings serde media = .ok bindings)
    (admitted : ∀ present ∈ media, present.Admitted bytes.length) :
    decodeOutputMedia serde (outputBytes sequence coalesceEpoch outputClass image incarnation
      revision (media.elim 0 OutputMedia.acquisitionSequence) (UInt32.ofNat bindings.length)
        (bindings ++ bytes)) =
      .ok (media.map OutputMedia.received, paneOutputMetadataLen + bindings.length) := by
  generalize acquisition : media.elim 0 OutputMedia.acquisitionSequence = acquisitionSequence
  generalize packed : outputBytes sequence coalesceEpoch outputClass image incarnation revision
    acquisitionSequence (UInt32.ofNat bindings.length) (bindings ++ bytes) = output
  have sequence' : readU64 (Bytes.slice output paneOutputSemanticsLen
      (paneOutputSemanticsLen + 8)) = acquisitionSequence := by
    rw [← packed]
    exact readU64_u64Bytes acquisitionSequence
  have bindingLen : (readU32 (Bytes.slice output (paneOutputSemanticsLen + 8)
      paneOutputMetadataLen)).toNat = bindings.length := by
    rw [← packed]
    calc
      _ = (readU32 (u32Bytes (UInt32.ofNat bindings.length))).toNat := rfl
      _ = bindings.length := by rw [readU32_u32Bytes, UInt32.toNat_ofNat_of_lt' small]
  have length : output.length = paneOutputMetadataLen + bindings.length + bytes.length := by
    rw [← packed, length_outputBytes, List.length_append, Nat.add_assoc]
  have files : Bytes.slice output paneOutputMetadataLen
      (paneOutputMetadataLen + bindings.length) = bindings := by
    rw [← packed, Bytes.slice, Nat.add_sub_cancel_left]
    change (bindings ++ bytes).take bindings.length = bindings
    rw [List.take_left]
  unfold decodeOutputMedia
  simp only [sequence', bindingLen, files]
  rw [if_neg (by omega)]
  cases media with
  | none =>
      cases written
      cases acquisition
      rfl
  | some media =>
      have encoded := orOther_eq_ok written
      have decoded := lawful.bindings _ _ encoded
      have present : bindings.length ≠ 0 := by
        intro none
        rw [List.length_eq_zero_iff.mp none] at decoded
        exact lawful.nothing _ decoded
      have sound := admitted media rfl
      have sequenced : (acquisitionSequence == 0) = false := by
        rw [← acquisition]
        simpa using sound.sequence
      have filled : media.files.isEmpty = false := by simpa using sound.filled
      have few : ¬ 64 < media.files.length := Nat.not_lt.mpr sound.few
      have checked : validateFileBindings 0 media.files
          (output.length - (paneOutputMetadataLen + bindings.length)) = .ok () := by
        rw [length, Nat.add_sub_cancel_left]
        exact validateFileBindings_sound (fun _ _ => Nat.zero_le _) sound.ordered sound.sound
      rw [if_neg present, decoded]
      simp only [orOther, bind, Except.bind, filled, sequenced, few, decide_false, Bool.or_self,
        Bool.false_eq_true, if_false, checked]
      rw [← acquisition]
      rfl

theorem decodeOutputFrame_written (lawful : serde.Lawful) {paneId : UInt32} {isLocal : Bool}
    {generation : UInt64} {metadata : OutputMetadata} {media : Option (OutputMedia A)}
    {bindings bytes : Bytes} (small : bindings.length < 4294967296)
    (written : encodeBindings serde media = .ok bindings)
    (graphics : metadata.outputClass.Admitted)
    (admitted : ∀ present ∈ media, present.Admitted bytes.length)
    (fields : metadata.outputClass.fields = (outputClass, image, incarnation, revision)) :
    decodeOutputFrame serde (u32Bytes paneId ++ (u64Bytes generation ++ flag isLocal ::
      outputBytes metadata.sequence metadata.coalesceEpoch outputClass image incarnation revision
        (media.elim 0 OutputMedia.acquisitionSequence) (UInt32.ofNat bindings.length)
        (bindings ++ bytes))) =
      .ok (.paneOutput paneId isLocal generation metadata (media.map OutputMedia.received)
        bytes) := by
  generalize acquisition : media.elim 0 OutputMedia.acquisitionSequence = acquisitionSequence
  generalize packed : outputBytes metadata.sequence metadata.coalesceEpoch outputClass image
    incarnation revision acquisitionSequence (UInt32.ofNat bindings.length) (bindings ++ bytes) =
      output
  have classed : decodeOutputClass output = .ok metadata.outputClass := by
    rw [← packed]
    exact decodeOutputClass_fields graphics fields
  have mediated : decodeOutputMedia serde output =
      .ok (media.map OutputMedia.received, paneOutputMetadataLen + bindings.length) := by
    rw [← packed, ← acquisition]
    exact decodeOutputMedia_written lawful small written admitted
  have long : ¬ output.length < paneOutputMetadataLen := by
    rw [← packed, length_outputBytes]
    omega
  have sequence' : readU64 (Bytes.slice output 0 8) = metadata.sequence := by
    rw [← packed]
    exact readU64_u64Bytes _
  have epoch : readU64 (Bytes.slice output 8 16) = metadata.coalesceEpoch := by
    rw [← packed]
    exact readU64_u64Bytes _
  have left : output.drop (paneOutputMetadataLen + bindings.length) = bytes := by
    rw [← packed, ← List.drop_drop]
    change (bindings ++ bytes).drop bindings.length = bytes
    rw [List.drop_left]
  have known : flag isLocal &&& ~~~3 = 0 := by cases isLocal <;> decide
  have own : (flag isLocal &&& 1 != 0) = isLocal := by cases isLocal <;> decide
  have flagged : ¬ ((u32Bytes paneId ++ (u64Bytes generation ++ flag isLocal :: output))[12]?).any
      (1 < ·) = true := by
    change ¬ decide (1 < flag isLocal) = true
    cases isLocal <;> decide
  unfold decodeOutputFrame
  rw [if_neg flagged, decodePaneFrame_header paneId generation _ output known, own]
  simp only [bind, Except.bind, if_neg long, classed, mediated, sequence', epoch, left]
  rfl

end output

section acks

theorem decodeAck_bytes (paneId : UInt32) (generation sequence : UInt64) (isLocal : Bool) :
    decodeAck (ackBytes paneId generation sequence isLocal) =
      { isLocal, paneId, generation, sequence } := by
  have flagged : (flag isLocal != 0) = isLocal := by cases isLocal <;> decide
  calc
    _ = PresentationAck.mk (flag isLocal != 0) (readU32 (u32Bytes paneId))
        (readU64 (u64Bytes generation)) (readU64 (u64Bytes sequence)) := rfl
    _ = _ := by rw [flagged, readU32_u32Bytes, readU64_u64Bytes, readU64_u64Bytes]

theorem length_ackBytes (paneId : UInt32) (generation sequence : UInt64) (isLocal : Bool) :
    (ackBytes paneId generation sequence isLocal).length = 21 := by
  simp [ackBytes]

theorem decodeAckFrame_packed {α : Type} (ack : α → PresentationAck) (acks : List α) :
    decodeAckFrame (C := C) (A := A) (acks.flatMap fun item => ackBytes (ack item).paneId
        (ack item).generation (ack item).sequence (ack item).isLocal) =
      .ok (.presentationAcks (acks.map ack)) := by
  have pieces := Bytes.chunksExact_flatMap (by decide : 0 < 21)
    (fun item => ackBytes (ack item).paneId (ack item).generation (ack item).sequence
      (ack item).isLocal) (fun item => length_ackBytes _ _ _ _) acks
  have whole : (acks.flatMap fun item => ackBytes (ack item).paneId (ack item).generation
      (ack item).sequence (ack item).isLocal).length % 21 = 0 := by
    rw [Bytes.length_flatMap_const (fun item => length_ackBytes _ _ _ _)]
    exact Nat.mul_mod_left _ _
  have flags : ((acks.map fun item => ackBytes (ack item).paneId (ack item).generation
      (ack item).sequence (ack item).isLocal).any fun chunk => 1 < chunk.getD 20 0) = false := by
    rw [List.any_eq_false]
    intro chunk member
    rcases List.mem_map.mp member with ⟨item, _, same⟩
    rw [← same]
    change ¬ decide (1 < flag (ack item).isLocal) = true
    cases (ack item).isLocal <;> decide
  unfold decodeAckFrame
  rw [if_neg (by simpa using whole), pieces, if_neg (by rw [flags]; exact Bool.false_ne_true)]
  congr 2
  rw [List.map_map]
  apply List.map_congr_left
  intro item _
  exact decodeAck_bytes _ _ _ _

end acks

section interest

theorem length_interestBytes (pane : PanePresentationInterest) : pane.bytes.length = 15 := by
  simp [PanePresentationInterest.bytes]

theorem decodeInterest_bytes {pane : PanePresentationInterest}
    (rate : 1 ≤ pane.framesPerSecond ∧ pane.framesPerSecond ≤ 1000) :
    decodeInterest pane.bytes = .ok pane := by
  rcases pane with ⟨isLocal, paneId, generation, visible, focused, framesPerSecond⟩
  have known : ¬ (flag visible ||| flag focused <<< 1 ||| flag isLocal <<< 2) &&& ~~~7 ≠ 0 := by
    cases isLocal <;> cases visible <;> cases focused <;> decide
  have local' : ((flag visible ||| flag focused <<< 1 ||| flag isLocal <<< 2) &&& 4 != 0) =
      isLocal := by
    cases isLocal <;> cases visible <;> cases focused <;> decide
  have shown : ((flag visible ||| flag focused <<< 1 ||| flag isLocal <<< 2) &&& 1 != 0) =
      visible := by
    cases isLocal <;> cases visible <;> cases focused <;> decide
  have fronted : ((flag visible ||| flag focused <<< 1 ||| flag isLocal <<< 2) &&& 2 != 0) =
      focused := by
    cases isLocal <;> cases visible <;> cases focused <;> decide
  have proper : ¬ (framesPerSecond = 0 ∨ 1000 < framesPerSecond) := by
    have lowest : 1 ≤ framesPerSecond := rate.1
    intro improper
    rcases improper with zero | fast
    · rw [zero] at lowest
      exact absurd lowest (by decide)
    · exact absurd rate.2 (UInt16.not_le.mpr fast)
  unfold decodeInterest
  change (if (flag visible ||| flag focused <<< 1 ||| flag isLocal <<< 2) &&& ~~~7 ≠ 0 then _
    else if readU16 (u16Bytes framesPerSecond) = 0 ∨ 1000 < readU16 (u16Bytes framesPerSecond)
      then _ else Except.ok (PanePresentationInterest.mk
        ((flag visible ||| flag focused <<< 1 ||| flag isLocal <<< 2) &&& 4 != 0)
        (readU32 (u32Bytes paneId)) (readU64 (u64Bytes generation))
        ((flag visible ||| flag focused <<< 1 ||| flag isLocal <<< 2) &&& 1 != 0)
        ((flag visible ||| flag focused <<< 1 ||| flag isLocal <<< 2) &&& 2 != 0)
        (readU16 (u16Bytes framesPerSecond)))) = _
  rw [if_neg known, readU16_u16Bytes, if_neg proper, local', shown, fronted, readU32_u32Bytes,
    readU64_u64Bytes]

theorem decodeInterestFrame_packed {interest : List PanePresentationInterest}
    (rates : ∀ pane ∈ interest, 1 ≤ pane.framesPerSecond ∧ pane.framesPerSecond ≤ 1000) :
    decodeInterestFrame (C := C) (A := A) (interest.flatMap PanePresentationInterest.bytes) =
      .ok (.presentationInterest interest) := by
  have whole : (interest.flatMap PanePresentationInterest.bytes).length % 15 = 0 := by
    rw [Bytes.length_flatMap_const length_interestBytes]
    exact Nat.mul_mod_left _ _
  have each : (interest.map PanePresentationInterest.bytes).mapM decodeInterest =
      (.ok interest : Except IoError (List PanePresentationInterest)) := by
    clear whole
    induction interest with
    | nil => rfl
    | cons pane interest ih =>
        rw [List.map_cons, List.mapM_cons, decodeInterest_bytes (rates pane List.mem_cons_self),
          ih fun other member => rates other (List.mem_cons_of_mem _ member)]
        rfl
  unfold decodeInterestFrame
  rw [if_neg (by simpa using whole),
    Bytes.chunksExact_flatMap (by decide) _ length_interestBytes, each]
  rfl

end interest

end bodies

section stream

variable {C A : Type} {serde : Serde C}

theorem decodeFrame_output (payload : Bytes) :
    decodeFrame (A := A) serde (frameKindPaneOutput :: payload) = decodeOutputFrame serde payload :=
  rfl

theorem codes_of_written (lawful : serde.Lawful) {frame : Frame C A} {wire : Bytes}
    (written : frame.write serde = .ok wire) (admitted : frame.Admitted) :
    (frameDecoder serde).Codes frame.received wire := by
  have coded : ∀ {kind : UInt8} {body : Bytes}, writeFrameBody kind body = .ok wire →
      (body.length + 1 ≤ maxFrameSize → decodeFrame serde (kind :: body) = .ok frame.received) →
      (frameDecoder serde).Codes frame.received wire := by
    intro kind body framed decodes
    rcases writeFrameBody_eq_ok framed with ⟨within, same⟩
    have whole : (kind :: body).length ≤ maxFrameSize := within
    have codes := codes_of_decodes whole (decodes within)
    rw [same]
    exact codes
  cases frame with
  | control message =>
      rcases (bind_eq_ok _ _ _).mp written with ⟨body, encoded, framed⟩
      apply coded framed
      intro _
      have decoded := lawful.message _ _ (orOther_eq_ok encoded)
      change Frame.control <$> orOther (serde.message.fromSlice body) = _
      rw [decoded]
      rfl
  | paneOutput paneId isLocal generation metadata media bytes =>
      rcases fields : metadata.outputClass.fields with ⟨outputClass, image, incarnation, revision⟩
      simp only [Frame.write, writePaneOutputMediaFrame, fields, bind_eq_ok] at written
      rcases written with ⟨bindings, encoded, framed⟩
      apply coded framed
      intro within
      have small : bindings.length < 4294967296 := by
        simp only [List.length_append, List.length_cons, length_u32Bytes, length_u64Bytes,
          maxFrameSize] at within
        omega
      have read := @decodeOutputFrame_written _ _ _ _ _ _ _ lawful paneId isLocal generation
        metadata media _ _ small encoded admitted.1 admitted.2 fields
      unfold outputBytes at read
      rw [decodeFrame_output]
      exact read
  | presentationAcks acks =>
      apply coded written
      intro _
      have packed := decodeAckFrame_packed (C := C) (A := A) id acks
      rw [List.map_id] at packed
      exact packed
  | acquisitionAcks acks =>
      apply coded written
      intro _
      have packed := decodeAckFrame_packed (C := C) (A := A) (fun ack : AcquisitionAck =>
        { isLocal := ack.isLocal, paneId := ack.paneId, generation := ack.generation
          sequence := ack.sequence }) acks
      have few : (acks.flatMap fun ack => ackBytes ack.paneId ack.generation ack.sequence
          ack.isLocal).length ≤ 4096 * 21 := by
        rw [Bytes.length_flatMap_const fun ack => length_ackBytes _ _ _ _]
        exact Nat.mul_le_mul_right 21 admitted
      simp only [decodeFrame]
      rw [if_neg (by decide), if_neg (by decide), if_neg (by decide), if_neg (by decide),
        if_pos ⟨trivial, few⟩, packed]
      simp only [bind, Except.bind, Frame.received, List.map_map]
      congr 2
      exact List.map_id acks
  | presentationInterest interest =>
      apply coded written
      intro _
      exact decodeInterestFrame_packed admitted
  | paneBytes latencySensitive paneId isLocal generation bytes =>
      apply coded written
      intro _
      exact paneInput_decodes latencySensitive paneId isLocal generation bytes

/-- Frames that were written and are admitted come out of a decoder as they went in, in order and
without an error, however their bytes are cut. -/
theorem round_trip (serde : Serde C) (lawful : serde.Lawful) (frames : List (Frame C A))
    (wires : List Bytes)
    (written : List.Forall₂ (fun frame wire => frame.write serde = .ok wire) frames wires)
    (admitted : ∀ frame ∈ frames, frame.Admitted) (chunks : List Bytes)
    (cut : chunks.flatten = wires.flatten) :
    (frameDecoder serde).receive [] chunks =
      { items := frames.map Frame.received, failure := none, buffer := [] } := by
  have coded : List.Forall₂ (frameDecoder serde).Codes (frames.map Frame.received) wires := by
    rw [List.forall₂_map_left_iff]
    clear cut
    induction written with
    | nil => exact .nil
    | cons wrote others ih =>
        exact .cons (codes_of_written lawful wrote (admitted _ List.mem_cons_self))
          (ih fun frame member => admitted frame (List.mem_cons_of_mem _ member))
  exact Puller.receive_spec coded rfl [] rfl chunks (by simpa using cut)

end stream

section sample

def ascii (text : String) : Bytes := text.toList.map fun char => UInt8.ofNat char.toNat

def sampleBindings : List ImmutableFileBinding :=
  [{ start := 0, stop := 4, path := ascii "/tmp/a", byteLen := 3, format := 24 }]

def sampleText : Bytes :=
  ascii ("[\x7b\"command_range\":\x7b\"start\":0,\"end\":4\x7d,\"path\":\"/tmp/a\"," ++
    "\"byte_len\":3,\"format\":24\x7d]")

def sampleSerde : Serde Unit where
  message := {
    toVec := fun _ => .ok (ascii "null")
    fromSlice := fun bytes => if bytes = ascii "null" then .ok () else .error "expected null" }
  bindings := {
    toVec := fun files => if files = sampleBindings then .ok sampleText else .error "unsupported"
    fromSlice := fun bytes => if bytes = sampleText then .ok sampleBindings
      else .error "expected value" }

theorem sampleSerde_lawful : sampleSerde.Lawful where
  message := by
    intro value bytes encoded
    cases encoded
    rfl
  bindings := by
    intro files bytes encoded
    simp only [sampleSerde] at encoded ⊢
    split_ifs at encoded with sample
    cases encoded
    rw [if_pos rfl, sample]
  nothing := by
    intro files decoded
    cases decoded

def sampleFrames : List (Frame Unit Unit) :=
  [.control (),
    .paneOutput 7 true 3
      { sequence := 9, coalesceEpoch := 1, outputClass := .independentGraphics 2 5 6 }
      (some { acquisitionSequence := 4, files := sampleBindings, acquired := [()] })
      (ascii "media"),
    .paneBytes false 7 true 3 (ascii "ls"),
    .acquisitionAcks [{ isLocal := true, paneId := 7, generation := 3, sequence := 4 }]]

def wiresOf {C A : Type} (serde : Serde C) (frames : List (Frame C A)) : List Bytes :=
  frames.map fun frame => (frame.write serde).toOption.getD []

theorem wiresOf_written {C A : Type} {serde : Serde C} {frames : List (Frame C A)}
    (written : frames.all (fun frame => (frame.write serde).isOk) = true) :
    List.Forall₂ (fun frame wire => frame.write serde = .ok wire) frames (wiresOf serde frames) := by
  induction frames with
  | nil => exact .nil
  | cons frame frames ih =>
      rw [List.all_cons, Bool.and_eq_true] at written
      refine .cons ?_ (ih written.2)
      cases wrote : frame.write serde with
      | ok wire =>
          simp only [wrote]
          rfl
      | error error =>
          rw [wrote] at written
          cases written.1

theorem sampleFrames_admitted : ∀ frame ∈ sampleFrames, frame.Admitted := by
  intro frame member
  simp only [sampleFrames, List.mem_cons, List.not_mem_nil, or_false] at member
  rcases member with same | same | same | same
  · rw [same]
    trivial
  · rw [same]
    refine ⟨⟨by decide, by decide⟩, ?_⟩
    intro media present
    cases present
    exact
      { filled := by decide
        few := by decide
        sequence := by decide
        ordered := List.pairwise_singleton _ _
        sound := by
          intro file member
          rw [List.mem_singleton.mp member]
          decide }
  · rw [same]
    trivial
  · rw [same]
    change 1 ≤ 4096
    decide

/-- The frames arrive a byte at a time. -/
theorem round_trip_sample :
    (frameDecoder sampleSerde).receive []
        ((wiresOf sampleSerde sampleFrames).flatten.map fun byte => [byte]) =
      { items := sampleFrames.map Frame.received, failure := none, buffer := [] } :=
  round_trip sampleSerde sampleSerde_lawful sampleFrames _ (wiresOf_written (by decide +kernel))
    sampleFrames_admitted _ (by rw [← List.flatMap_def, List.flatMap_singleton'])

end sample

end Rozi.Framing
