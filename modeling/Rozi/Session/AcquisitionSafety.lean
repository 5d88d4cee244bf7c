import Rozi.Library.Exchange
import Rozi.Session.Acquisition
import Rozi.Session.FramingRoundTrip

/-!
Runs of one connection's acquisitions, with a log of what was issued, acknowledged and reaped.
-/

namespace Rozi

namespace Acquisition

open Framing

inductive Event where
  | issued (scope : PresentationKey) (sequence : Nat)
  | acknowledged (scope : PresentationKey) (sequence : Nat)
  | reaped (obligation : Obligation)

/-- A step of the connection; `outbox` is whatever else changes the queue of frames, and `retained`
what other connections do to the counters of the server. -/
inductive Label where
  | outbox (frames : List (EncodedOutput Bytes))
  | retained (counters : Retained)
  | prepare
  | acknowledge (acks : List AcquisitionAck)
  | reapOne

structure Session where
  client : ClientConn
  retained : Retained := {}
  log : List Event := []

def acceptedAcks (acquisitions : Acquisitions) : List AcquisitionAck → List Event
  | [] => []
  | ack :: acks =>
      match acquisitions.accept ack with
      | none => []
      | some next => .acknowledged (ackScope ack) ack.sequence.toNat :: acceptedAcks next acks

/-- The obligations that `after` holds behind those of `before`. -/
def issuedBetween (before after : Acquisitions) : List Event :=
  (after.pending.drop before.pending.length).map fun obligation =>
    .issued obligation.scope obligation.sequence

def Session.perform (session : Session) : Label → Session
  | .outbox frames => { session with client := { session.client with outbox := frames } }
  | .retained counters => { session with retained := counters }
  | .prepare =>
      let (_, client, retained) := session.client.prepareAcquisition session.retained
      { client, retained
        log := session.log ++ issuedBetween session.client.acquisitions client.acquisitions }
  | .acknowledge acks =>
      let (_, acquisitions) := session.client.acquisitions.acknowledge acks
      { session with
        client := { session.client with acquisitions }
        log := session.log ++ acceptedAcks session.client.acquisitions acks }
  | .reapOne =>
      match session.client.acquisitions.reapOne with
      | none => session
      | some (obligation, acquisitions) =>
          { session with
            client := { session.client with acquisitions }
            log := session.log ++ [.reaped obligation] }

def sessions : Transition Session Label where
  initial := fun session => session.client.acquisitions = {} ∧ session.log = []
  step := fun session label next => next = session.perform label

def issuedFor (scope : PresentationKey) (log : List Event) : List Nat :=
  log.filterMap fun
    | .issued issued sequence => if issued = scope then some sequence else none
    | _ => none

def issuedKeys (log : List Event) : List (PresentationKey × Nat) :=
  log.filterMap fun
    | .issued scope sequence => some (scope, sequence)
    | _ => none

def Obligation.key (obligation : Obligation) : PresentationKey × Nat :=
  (obligation.scope, obligation.sequence)

def reapedKeys (log : List Event) : List (PresentationKey × Nat) :=
  log.filterMap fun
    | .reaped obligation => some obligation.key
    | _ => none

/-- What must have happened before an event: sequences go up by one, only what was issued is
acknowledged, and an obligation is reaped when a sequence no lower than its own was. -/
def justifies (before : List Event) : Event → Prop
  | .issued scope sequence => sequence = (issuedFor scope before).length + 1
  | .acknowledged scope sequence => 0 < sequence ∧ sequence ≤ (issuedFor scope before).length
  | .reaped obligation => ∃ sequence, Event.acknowledged obligation.scope sequence ∈ before ∧
      obligation.sequence ≤ sequence

structure Sound (acquisitions : Acquisitions) (log : List Event) : Prop where
  issues : ∀ scope, issuedFor scope log = List.range' 1 (acquisitions.issuedTo scope)
  justified : Justified justifies log
  watermarks : ∀ scope sequence, acquisitions.acknowledged.lookup scope = some sequence →
    Event.acknowledged scope sequence ∈ log
  accounted : (issuedKeys log).Perm (acquisitions.pending.map Obligation.key ++ reapedKeys log)
  bytes : acquisitions.bytes = (acquisitions.pending.map Obligation.bytes).sum
  files : acquisitions.files = (acquisitions.pending.map Obligation.files).sum
  charged : ∀ obligation ∈ acquisitions.pending,
    obligation.bytes = obligation.output.media.sum ∧
      obligation.files = obligation.output.media.length
  within : acquisitions.bytes ≤ connectionBytes ∧ acquisitions.files ≤ connectionFiles

section logs

variable (scope : PresentationKey) (log : List Event)

@[simp] theorem issuedFor_append (more : List Event) :
    issuedFor scope (log ++ more) = issuedFor scope log ++ issuedFor scope more :=
  List.filterMap_append

@[simp] theorem issuedKeys_append (more : List Event) :
    issuedKeys (log ++ more) = issuedKeys log ++ issuedKeys more :=
  List.filterMap_append

@[simp] theorem reapedKeys_append (more : List Event) :
    reapedKeys (log ++ more) = reapedKeys log ++ reapedKeys more :=
  List.filterMap_append

end logs

theorem checkedAdd_eq_some {limit first second sum : Nat} :
    checkedAdd limit first second = some sum ↔ first + second ≤ limit ∧ first + second = sum := by
  unfold checkedAdd
  split_ifs with fits <;> simp [fits]

section issue

variable {acquisitions next : Acquisitions} {retained left : Retained}
  {output : EncodedOutput Bytes} {sequence : Nat}

theorem issue_spec (issued : acquisitions.issue retained output = some (sequence, next, left)) :
    ∃ scope, output.scope = some scope ∧ sequence = acquisitions.issuedTo scope + 1 ∧
      sequence ≤ u64Max ∧
      acquisitions.bytes + output.media.sum ≤ connectionBytes ∧
      acquisitions.files + output.media.length ≤ connectionFiles ∧
      next = { acquisitions with
        issued := acquisitions.issued.insert scope sequence
        pending := acquisitions.pending ++ [{
          scope, sequence, output
          bytes := output.media.sum, files := output.media.length }]
        bytes := acquisitions.bytes + output.media.sum
        files := acquisitions.files + output.media.length } := by
  unfold Acquisitions.issue at issued
  rcases Option.bind_eq_some_iff.mp issued with ⟨scope, named, issued⟩
  rcases Option.bind_eq_some_iff.mp issued with ⟨bytes, added, issued⟩
  rcases Option.bind_eq_some_iff.mp issued with ⟨files, added', issued⟩
  split_ifs at issued with beyond full
  rcases Option.bind_eq_some_iff.mp issued with ⟨sequence', counted, issued⟩
  rcases Option.bind_eq_some_iff.mp issued with ⟨serverBytes, _, issued⟩
  rcases Option.bind_eq_some_iff.mp issued with ⟨serverFiles, _, issued⟩
  cases issued
  rcases checkedAdd_eq_some.mp added with ⟨_, rfl⟩
  rcases checkedAdd_eq_some.mp added' with ⟨_, rfl⟩
  rcases checkedAdd_eq_some.mp counted with ⟨small, rfl⟩
  exact ⟨scope, named, rfl, small, by omega, by omega, rfl⟩

theorem issuedTo_insert {scope : PresentationKey}
    (issued : next.issued = acquisitions.issued.insert scope sequence) (other : PresentationKey) :
    next.issuedTo other = if other = scope then sequence else acquisitions.issuedTo other := by
  unfold Acquisitions.issuedTo
  rw [issued]
  split_ifs with same
  · rw [same, AList.lookup_insert]
    rfl
  · rw [AList.lookup_insert_ne same]

theorem Sound.issued {log : List Event} (sound : Sound acquisitions log)
    (issued : acquisitions.issue retained output = some (sequence, next, left)) :
    Sound next (log ++ issuedBetween acquisitions next) := by
  rcases issue_spec issued with ⟨scope, _, rfl, _, bytes, files, shape⟩
  have now := issuedTo_insert (congrArg Acquisitions.issued shape)
  have between : issuedBetween acquisitions next =
      [.issued scope (acquisitions.issuedTo scope + 1)] := by
    rw [shape]
    simp [issuedBetween]
  rw [between]
  constructor
  · intro other
    rw [issuedFor_append, sound.issues other, now other]
    by_cases same : other = scope
    · subst same
      rw [if_pos rfl, List.range'_concat]
      simp [issuedFor, Nat.add_comm]
    · rw [if_neg same]
      simp [issuedFor, Ne.symm same]
  · apply sound.justified.snoc
    simp [justifies, sound.issues scope]
  · intro other watermark found
    rw [shape] at found
    exact List.mem_append_left _ (sound.watermarks other watermark found)
  · have more := sound.accounted.append_right [(scope, acquisitions.issuedTo scope + 1)]
    rw [shape]
    simp only [issuedKeys_append, reapedKeys_append, List.map_append, List.append_assoc] at more ⊢
    apply more.trans
    apply List.Perm.append_left
    simp [reapedKeys, Obligation.key]
  · simp [shape, sound.bytes]
  · simp [shape, sound.files]
  · intro obligation member
    rw [shape] at member
    rcases List.mem_append.mp member with old | new
    · exact sound.charged obligation old
    · rw [List.mem_singleton.mp new]
      exact ⟨rfl, rfl⟩
  · rw [shape]
    exact ⟨bytes, files⟩

end issue

section acknowledge

variable {acquisitions next : Acquisitions} {log : List Event}

theorem accept_spec {ack : AcquisitionAck} (taken : acquisitions.accept ack = some next) :
    ∃ issued, acquisitions.issued.lookup (ackScope ack) = some issued ∧ ack.sequence ≠ 0 ∧
      ack.sequence.toNat ≤ issued ∧
      next = { acquisitions with
        acknowledged := acquisitions.acknowledged.insert (ackScope ack)
          (max ((acquisitions.acknowledged.lookup (ackScope ack)).getD 0) ack.sequence.toNat) } := by
  rcases Option.bind_eq_some_iff.mp taken with ⟨issued, found, taken⟩
  split_ifs at taken with refused
  cases taken
  rw [not_or] at refused
  exact ⟨issued, found, refused.1, not_lt.mp refused.2, rfl⟩

theorem accept_eq_none {ack : AcquisitionAck}
    (unissued : ack.sequence = 0 ∨ acquisitions.issuedTo (ackScope ack) < ack.sequence.toNat) :
    acquisitions.accept ack = none := by
  cases taken : acquisitions.accept ack with
  | none => rfl
  | some next =>
      rcases accept_spec taken with ⟨issued, found, positive, below, _⟩
      rcases unissued with zero | above
      · exact absurd zero positive
      · rw [Acquisitions.issuedTo, found, Option.getD_some] at above
        omega

theorem Sound.accepted (sound : Sound acquisitions log) {ack : AcquisitionAck}
    (taken : acquisitions.accept ack = some next) :
    Sound next (log ++ [.acknowledged (ackScope ack) ack.sequence.toNat]) := by
  rcases accept_spec taken with ⟨issued, found, positive, below, rfl⟩
  have count : (issuedFor (ackScope ack) log).length = issued := by
    rw [sound.issues, List.length_range', Acquisitions.issuedTo, found, Option.getD_some]
  constructor
  · intro scope
    rw [issuedFor_append, sound.issues scope]
    simp [issuedFor, Acquisitions.issuedTo]
  · apply sound.justified.snoc
    refine ⟨?_, by omega⟩
    have whole : ack.sequence.toNat ≠ 0 := fun zero => positive (UInt64.toNat_inj.mp zero)
    omega
  · intro scope watermark held
    simp only at held
    by_cases same : scope = ackScope ack
    · subst same
      rw [AList.lookup_insert, Option.some.injEq] at held
      rcases Nat.le_total ((acquisitions.acknowledged.lookup (ackScope ack)).getD 0)
          ack.sequence.toNat with newer | older
      · rw [Nat.max_eq_right newer] at held
        simp [held]
      · rw [Nat.max_eq_left older] at held
        cases before : acquisitions.acknowledged.lookup (ackScope ack) with
        | none =>
            rw [before] at older held
            simp only [Option.getD_none] at older held
            simp [← held, Nat.le_zero.mp older]
        | some mark =>
            rw [before, Option.getD_some] at held
            exact List.mem_append_left _ (sound.watermarks _ _ (before.trans (congrArg some held)))
    · rw [AList.lookup_insert_ne same] at held
      exact List.mem_append_left _ (sound.watermarks scope watermark held)
  · simpa [issuedKeys, reapedKeys] using sound.accounted
  · exact sound.bytes
  · exact sound.files
  · exact sound.charged
  · exact sound.within

theorem Sound.acknowledged (sound : Sound acquisitions log) (acks : List AcquisitionAck) :
    Sound (acquisitions.acknowledge acks).2 (log ++ acceptedAcks acquisitions acks) := by
  induction acks generalizing acquisitions log with
  | nil => simpa [Acquisitions.acknowledge, acceptedAcks] using sound
  | cons ack acks ih =>
      cases taken : acquisitions.accept ack with
      | none => simpa [Acquisitions.acknowledge, acceptedAcks, taken] using sound
      | some next =>
          have rest := ih (sound.accepted taken)
          rw [List.append_assoc] at rest
          simpa [Acquisitions.acknowledge, acceptedAcks, taken] using rest

end acknowledge

section reap

variable {acquisitions next : Acquisitions} {log : List Event} {obligation : Obligation}

theorem Sound.reaped (sound : Sound acquisitions log)
    (taken : acquisitions.reapOne = some (obligation, next)) :
    Sound next (log ++ [.reaped obligation]) := by
  rcases Option.bind_eq_some_iff.mp taken with ⟨held, found, taken⟩
  cases taken
  have covered : acquisitions.covered obligation = true := List.find?_some found
  have perm := perm_cons_eraseP found
  constructor
  · intro scope
    rw [issuedFor_append, sound.issues scope]
    simp [issuedFor, Acquisitions.issuedTo]
  · apply sound.justified.snoc
    unfold Acquisitions.covered at covered
    cases held : acquisitions.acknowledged.lookup obligation.scope with
    | none => simp [held] at covered
    | some watermark =>
        exact ⟨watermark, sound.watermarks _ _ held, by simpa [held] using covered⟩
  · intro scope watermark held
    exact List.mem_append_left _ (sound.watermarks scope watermark held)
  · have keys := (perm.map Obligation.key).append_right (reapedKeys log)
    rw [issuedKeys_append, reapedKeys_append]
    simp only [issuedKeys, List.filterMap_cons, List.filterMap_nil, List.append_nil]
    calc
      (issuedKeys log).Perm (acquisitions.pending.map Obligation.key ++ reapedKeys log) :=
        sound.accounted
      _ |>.Perm ((obligation.key :: (acquisitions.pending.eraseP acquisitions.covered).map
          Obligation.key) ++ reapedKeys log) := keys
      _ |>.Perm ((acquisitions.pending.eraseP acquisitions.covered).map Obligation.key ++
          (reapedKeys log ++ [obligation.key])) := by
        rw [List.cons_append, ← List.append_assoc]
        exact (List.perm_append_singleton _ _).symm
  · have sum := (perm.map Obligation.bytes).sum_eq
    rw [← sound.bytes, List.map_cons, List.sum_cons] at sum
    simp only
    omega
  · have sum := (perm.map Obligation.files).sum_eq
    rw [← sound.files, List.map_cons, List.sum_cons] at sum
    simp only
    omega
  · exact fun other member => sound.charged other (List.mem_of_mem_eraseP member)
  · exact ⟨(Nat.sub_le _ _).trans sound.within.1, (Nat.sub_le _ _).trans sound.within.2⟩

end reap

section run

variable {session : Session}

/-- Preparing the front of the outbox issues a sequence for it, or leaves the acquisitions alone. -/
theorem prepare_cases (client : ClientConn) (retained : Retained) :
    (client.prepareAcquisition retained).2.1.acquisitions = client.acquisitions ∨
      ∃ output sequence left, client.acquisitions.issue retained output =
        some (sequence, (client.prepareAcquisition retained).2.1.acquisitions, left) := by
  unfold ClientConn.prepareAcquisition
  cases client.outbox with
  | nil => exact .inl rfl
  | cons front rest =>
      simp only
      split_ifs
      · exact .inl rfl
      · exact .inl rfl
      · cases issued : client.acquisitions.issue retained front with
        | none => exact .inl rfl
        | some result =>
            rcases result with ⟨sequence, acquisitions, left⟩
            exact .inr ⟨front, sequence, left, issued⟩

theorem Sound.performed (sound : Sound session.client.acquisitions session.log) (label : Label) :
    Sound (session.perform label).client.acquisitions (session.perform label).log := by
  cases label with
  | outbox frames => exact sound
  | retained counters => exact sound
  | prepare =>
      rcases prepare_cases session.client session.retained with same | ⟨output, _, _, issued⟩
      · simp only [Session.perform, same]
        simpa [issuedBetween] using sound
      · exact sound.issued issued
  | acknowledge acks => exact sound.acknowledged acks
  | reapOne =>
      unfold Session.perform
      cases taken : session.client.acquisitions.reapOne with
      | none => exact sound
      | some result => exact sound.reaped taken

theorem Sound.empty : Sound {} [] where
  issues := fun _ => rfl
  justified := .nil
  watermarks := fun _ _ held => by cases held
  accounted := List.Perm.refl _
  bytes := rfl
  files := rfl
  charged := fun _ none => absurd none List.not_mem_nil
  within := ⟨Nat.zero_le _, Nat.zero_le _⟩

theorem sessions_sound (reached : sessions.Reachable session) :
    Sound session.client.acquisitions session.log := by
  apply reached.invariant
  · rintro session ⟨fresh, silent⟩
    rw [fresh, silent]
    exact .empty
  · rintro session label next sound rfl
    exact sound.performed label

/-- Whether an acknowledgement names a scope or a sequence that was not issued. -/
def Unissued (log : List Event) (ack : AcquisitionAck) : Prop :=
  ack.sequence = 0 ∨ (issuedFor (ackScope ack) log).length < ack.sequence.toNat

theorem acknowledge_eq_false {acquisitions : Acquisitions} {log : List Event}
    (sound : Sound acquisitions log) {ack : AcquisitionAck} (unissued : Unissued log ack)
    {acks : List AcquisitionAck} (member : ack ∈ acks) :
    (acquisitions.acknowledge acks).1 = false := by
  induction acks generalizing acquisitions log with
  | nil => cases member
  | cons first rest ih =>
      unfold Acquisitions.acknowledge
      cases taken : acquisitions.accept first with
      | none => rfl
      | some next =>
          rcases List.mem_cons.mp member with rfl | later
          · have refused : acquisitions.accept ack = none := by
              apply accept_eq_none
              rwa [Unissued, sound.issues, List.length_range'] at unissued
            rw [refused] at taken
            cases taken
          · apply ih (sound.accepted taken) _ later
            simpa [Unissued, issuedFor] using unissued

end run

section patch

theorem patch_append {front old back new : Bytes} {start : Nat} (at' : front.length = start)
    (same : new.length = old.length) :
    patch (front ++ (old ++ back)) start new = front ++ (new ++ back) := by
  subst at'
  unfold patch
  rw [same, List.take_left' rfl, List.append_assoc]
  congr 2
  rw [← List.append_assoc, List.drop_left' (by rw [List.length_append])]

def outputHead (paneId : UInt32) (generation : UInt64) (isLocal : Bool)
    (metadata : OutputMetadata) : Bytes :=
  u32Bytes paneId ++ (u64Bytes generation ++ flag isLocal ::
    (u64Bytes metadata.sequence ++ (u64Bytes metadata.coalesceEpoch ++
      (metadata.outputClass.fields.1 :: (u32Bytes metadata.outputClass.fields.2.1 ++
        (u64Bytes metadata.outputClass.fields.2.2.1 ++
          u64Bytes metadata.outputClass.fields.2.2.2))))))

theorem length_outputHead (paneId : UInt32) (generation : UInt64) (isLocal : Bool)
    (metadata : OutputMetadata) :
    (outputHead paneId generation isLocal metadata).length = 50 := by
  simp [outputHead]

variable {C : Type} {serde : Serde C} {paneId : UInt32} {generation : UInt64} {isLocal : Bool}
  {metadata : OutputMetadata} {files : List OutputFile} {bytes : Bytes}

theorem writeMediaOutput_body (sequence : UInt64) :
    writeMediaOutput serde paneId generation isLocal metadata files sequence bytes =
      (orOther (serde.bindings.toVec (files.map OutputFile.binding))).bind fun bindings =>
        writeFrameBody frameKindPaneOutput (outputHead paneId generation isLocal metadata ++
          (u64Bytes sequence ++
            (u32Bytes (UInt32.ofNat bindings.length) ++ (bindings ++ bytes)))) := by
  unfold writeMediaOutput writePaneOutputMediaFrame writePaneFrame outputHead
  simp only [encodeBindings, Option.elim_some, List.append_assoc, List.cons_append]
  rfl

theorem writeFrameBody_of_length {kind : UInt8} {body : Bytes}
    (within : body.length + 1 ≤ maxFrameSize) :
    writeFrameBody kind body = .ok (u32Bytes (UInt32.ofNat (body.length + 1)) ++ kind :: body) := by
  have small : ¬4294967295 < body.length + 1 := by
    simp only [maxFrameSize] at within
    omega
  unfold writeFrameBody
  simp only [if_neg (not_lt.mpr within), if_neg small]

theorem writeMediaOutput_patch {placeholder : UInt64} {frame : Bytes}
    (written : writeMediaOutput serde paneId generation isLocal metadata files placeholder bytes =
      .ok frame) (sequence : UInt64) :
    writeMediaOutput serde paneId generation isLocal metadata files sequence bytes =
      .ok (patch frame paneOutputAcquisitionOffset (u64Bytes sequence)) := by
  rw [writeMediaOutput_body] at written ⊢
  cases encoded : orOther (serde.bindings.toVec (files.map OutputFile.binding)) with
  | error error =>
      rw [encoded] at written
      cases written
  | ok bindings =>
      rw [encoded] at written
      simp only [Except.bind] at written ⊢
      rcases writeFrameBody_eq_ok written with ⟨within, rfl⟩
      have length : (outputHead paneId generation isLocal metadata ++ (u64Bytes sequence ++
          (u32Bytes (UInt32.ofNat bindings.length) ++ (bindings ++ bytes)))).length =
            (outputHead paneId generation isLocal metadata ++ (u64Bytes placeholder ++
              (u32Bytes (UInt32.ofNat bindings.length) ++ (bindings ++ bytes)))).length := by
        simp
      rw [← length] at within
      rw [writeFrameBody_of_length within, length]
      apply congrArg Except.ok
      have cut : ∀ (len : UInt32) (number : UInt64) (tail : Bytes),
          u32Bytes len ++ frameKindPaneOutput :: (outputHead paneId generation isLocal metadata ++
            (u64Bytes number ++ tail)) =
          (u32Bytes len ++ frameKindPaneOutput :: outputHead paneId generation isLocal metadata) ++
            (u64Bytes number ++ tail) := by
        intro len number tail
        simp only [List.append_assoc, List.cons_append]
      rw [cut _ sequence, cut _ placeholder]
      symm
      apply patch_append
      · simp [length_outputHead, paneOutputAcquisitionOffset, paneOutputSemanticsLen]
      · simp

end patch

section prepared

variable {C : Type} {serde : Serde C} {paneId : UInt32} {generation : UInt64} {isLocal : Bool}
  {metadata : OutputMetadata} {files : List OutputFile} {bytes : Bytes}
  {output : EncodedOutput Bytes} {session : Session} {rest : List (EncodedOutput Bytes)}

/-- What stands at the front of the outbox once its sequence is issued is the frame as it would have
been written under that sequence. -/
theorem prepare_writes
    (encoded : encodeOutput serde paneId generation isLocal metadata bytes files = some output)
    (media : files ≠ []) (front : session.client.outbox = output :: rest)
    (prepared : (session.client.prepareAcquisition session.retained).1 = true) :
    ∃ sequence : UInt64, ∃ frame : EncodedOutput Bytes,
      (session.perform .prepare).log = session.log ++
        [.issued { paneId := paneId.toNat, generation := generation.toNat, isLocal }
          sequence.toNat] ∧
      (session.perform .prepare).client.outbox = frame :: rest ∧
      writeMediaOutput serde paneId generation isLocal metadata files sequence bytes =
        .ok frame.content := by
  unfold encodeOutput at encoded
  cases written : writeMediaOutput serde paneId generation isLocal metadata files 1 bytes with
  | error error =>
      rw [written] at encoded
      cases encoded
  | ok wire =>
      rw [written] at encoded
      cases encoded
      have owned : (files.map OutputFile.byteLen).isEmpty = false := by simpa using media
      simp only [Session.perform]
      unfold ClientConn.prepareAcquisition at prepared ⊢
      simp only [front, owned, Bool.false_eq_true, if_false] at prepared ⊢
      cases shared : session.client.sharesFilesystem with
      | false => simp [shared] at prepared
      | true =>
          simp only [shared, Bool.not_true, Bool.false_eq_true, if_false] at prepared ⊢
          generalize waiting : (⟨wire, wire.length, files.map OutputFile.byteLen, some
            { paneId := paneId.toNat, generation := generation.toNat, isLocal }⟩ :
              EncodedOutput Bytes) = output at prepared ⊢
          cases issued : session.client.acquisitions.issue session.retained output with
          | none => simp [issued] at prepared
          | some result =>
              rcases result with ⟨sequence, acquisitions, left⟩
              rcases issue_spec issued with ⟨scope, named, _, small, _, _, shape⟩
              subst waiting
              cases named
              have whole : (UInt64.ofNat sequence).toNat = sequence := by
                apply UInt64.toNat_ofNat_of_lt'
                exact Nat.lt_of_le_of_lt small (by decide)
              have patched := writeMediaOutput_patch written (UInt64.ofNat sequence)
              rw [u64Bytes, whole] at patched
              refine ⟨UInt64.ofNat sequence, _, ?_, rfl, patched⟩
              simp [issuedBetween, shape, whole]

end prepared

/-- The sequences of a scope are issued one after the other from 1 on; an obligation leaves only when
it is reaped, after an acknowledgement of a sequence issued to its scope and no lower than its own; the
charges are those of what is pending; an acknowledgement of what was not issued is refused; and the
frame on the wire is the one of the sequence issued. -/
theorem acquisitions_safe {C : Type} (serde : Serde C) {session : Session}
    (reached : sessions.Reachable session) :
    (∀ scope, ∃ count, issuedFor scope session.log = List.range' 1 count) ∧
      Justified justifies session.log ∧
      (issuedKeys session.log).Perm (session.client.acquisitions.pending.map Obligation.key ++
        reapedKeys session.log) ∧
      (session.client.acquisitions.bytes =
          (session.client.acquisitions.pending.map Obligation.bytes).sum ∧
        session.client.acquisitions.files =
          (session.client.acquisitions.pending.map Obligation.files).sum ∧
        ∀ obligation ∈ session.client.acquisitions.pending,
          obligation.bytes = obligation.output.media.sum ∧
            obligation.files = obligation.output.media.length) ∧
      (session.client.acquisitions.bytes ≤ connectionBytes ∧
        session.client.acquisitions.files ≤ connectionFiles) ∧
      (∀ acks, (∃ ack ∈ acks, Unissued session.log ack) →
        (session.client.acquisitions.acknowledge acks).1 = false) ∧
      ∀ paneId generation isLocal metadata bytes files output rest,
        encodeOutput serde paneId generation isLocal metadata bytes files = some output →
        files ≠ [] → session.client.outbox = output :: rest →
        (session.client.prepareAcquisition session.retained).1 = true →
        ∃ sequence : UInt64, ∃ frame : EncodedOutput Bytes,
          (session.perform .prepare).log = session.log ++
            [.issued { paneId := paneId.toNat, generation := generation.toNat, isLocal }
              sequence.toNat] ∧
          (session.perform .prepare).client.outbox = frame :: rest ∧
          writeMediaOutput serde paneId generation isLocal metadata files sequence bytes =
            .ok frame.content := by
  have sound := sessions_sound reached
  refine ⟨?_, sound.justified, sound.accounted, ?_, sound.within, ?_, ?_⟩
  · exact fun scope => ⟨_, sound.issues scope⟩
  · exact ⟨sound.bytes, sound.files, sound.charged⟩
  · rintro acks ⟨ack, member, unissued⟩
    exact acknowledge_eq_false sound unissued member
  · intro _ _ _ _ _ _ _ _ encoded media front prepared
    exact prepare_writes encoded media front prepared

def opened : Session :=
  ((((⟨{ sharesFilesystem := true }, {}, []⟩ : Session).perform
    (.outbox [{ content := List.replicate 70 0, len := 70, media := [5]
                scope := some { paneId := 1, generation := 1, isLocal := false } }])).perform
    .prepare).perform (.acknowledge [⟨false, 1, 1, 1⟩])).perform .reapOne

theorem opened_reached : sessions.Reachable opened :=
  (((Transition.Reachable.begin (⟨rfl, rfl⟩ : sessions.initial
    ⟨{ sharesFilesystem := true }, {}, []⟩)).next _ rfl).next .prepare rfl |>.next
      (.acknowledge [⟨false, 1, 1, 1⟩]) rfl).next .reapOne rfl

theorem acquisitions_safe_opened :
    issuedKeys opened.log = [({ paneId := 1, generation := 1, isLocal := false }, 1)] ∧
      (issuedKeys opened.log).Perm (opened.client.acquisitions.pending.map Obligation.key ++
        reapedKeys opened.log) :=
  ⟨by decide +kernel, (acquisitions_safe sampleSerde opened_reached).2.2.1⟩

end Acquisition

end Rozi
