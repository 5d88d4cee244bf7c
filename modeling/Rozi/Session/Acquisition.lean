import Mathlib.Data.List.AList
import Rozi.Library.Justified
import Rozi.Library.Transition
import Rozi.Session.Framing
import Rozi.Session.Outbox
import Rozi.Session.ByteQueue

/-!
The files a connection keeps until its client has opened them. Each output with media is issued a
sequence number of its pane as it reaches the wire; what an acknowledgement covers may be unlinked.
-/

namespace Rozi

namespace Acquisition

open Framing

def connectionBytes : Nat := 128 * 1024 * 1024

def connectionFiles : Nat := 128

def serverBytes : Nat := 256 * 1024 * 1024

def serverFiles : Nat := 1024

def maxScopes : Nat := 4096

def paneOutputAcquisitionOffset : Nat := 18 + paneOutputSemanticsLen

def u64Max : Nat := 2 ^ 64 - 1

def checkedAdd (limit first second : Nat) : Option Nat :=
  if first + second ≤ limit then some (first + second) else none

structure Obligation where
  scope : PresentationKey
  sequence : Nat
  output : EncodedOutput Bytes
  bytes : Nat
  files : Nat

abbrev Watermarks := AList fun _ : PresentationKey => Nat

structure Acquisitions where
  issued : Watermarks := ∅
  acknowledged : Watermarks := ∅
  pending : List Obligation := []
  bytes : Nat := 0
  files : Nat := 0

structure Retained where
  bytes : Nat := 0
  files : Nat := 0

/-- One round of `fetch_update` on a counter of the server. -/
def charge (limit counter added : Nat) : Option Nat :=
  (checkedAdd usizeMax counter added).filter (· ≤ limit)

def ackScope (ack : AcquisitionAck) : PresentationKey :=
  { paneId := ack.paneId.toNat, generation := ack.generation.toNat, isLocal := ack.isLocal }

namespace Acquisitions

variable (acquisitions : Acquisitions)

def issuedTo (scope : PresentationKey) : Nat :=
  (acquisitions.issued.lookup scope).getD 0

def issue (retained : Retained) (output : EncodedOutput Bytes) :
    Option (Nat × Acquisitions × Retained) := do
  let scope ← output.scope
  let bytes := output.media.sum
  let files := output.media.length
  let heldBytes ← checkedAdd usizeMax acquisitions.bytes bytes
  let heldFiles ← checkedAdd usizeMax acquisitions.files files
  if connectionBytes < heldBytes ∨ connectionFiles < heldFiles then none
  else if acquisitions.issued.lookup scope = none ∧
      maxScopes ≤ acquisitions.issued.entries.length then none
  else do
    let next ← checkedAdd u64Max (acquisitions.issuedTo scope) 1
    let serverBytes ← charge serverBytes retained.bytes bytes
    let serverFiles ← charge serverFiles retained.files files
    return (next,
      { acquisitions with
        issued := acquisitions.issued.insert scope next
        pending := acquisitions.pending ++ [{ scope, sequence := next, output, bytes, files }]
        bytes := heldBytes
        files := heldFiles },
      { bytes := serverBytes, files := serverFiles })

/-- One round of `acknowledge`; an acknowledgement of nothing that was issued ends it. -/
def accept (ack : AcquisitionAck) : Option Acquisitions := do
  let scope := ackScope ack
  let issued ← acquisitions.issued.lookup scope
  if ack.sequence = 0 ∨ issued < ack.sequence.toNat then none
  else
    let watermark := (acquisitions.acknowledged.lookup scope).getD 0
    some { acquisitions with
      acknowledged := acquisitions.acknowledged.insert scope (max watermark ack.sequence.toNat) }

def acknowledge (acquisitions : Acquisitions) : List AcquisitionAck → Bool × Acquisitions
  | [] => (true, acquisitions)
  | ack :: acks =>
      match acquisitions.accept ack with
      | none => (false, acquisitions)
      | some accepted => acknowledge accepted acks

def covered (obligation : Obligation) : Bool :=
  (acquisitions.acknowledged.lookup obligation.scope).any (obligation.sequence ≤ ·)

/-- A later pane is not held behind an acquisition of another pane that is not acknowledged. -/
def reapOne : Option (Obligation × Acquisitions) := do
  let obligation ← acquisitions.pending.find? acquisitions.covered
  return (obligation,
    { acquisitions with
      pending := acquisitions.pending.eraseP acquisitions.covered
      bytes := acquisitions.bytes - obligation.bytes
      files := acquisitions.files - obligation.files })

end Acquisitions

/-- `bytes[start..start + replacement.len()].copy_from_slice(replacement)`. -/
def patch (bytes : Bytes) (start : Nat) (replacement : Bytes) : Bytes :=
  bytes.take start ++ replacement ++ bytes.drop (start + replacement.length)

structure ClientConn where
  sharesFilesystem : Bool
  outbox : List (EncodedOutput Bytes) := []
  acquisitions : Acquisitions := {}

def ClientConn.prepareAcquisition (client : ClientConn) (retained : Retained) :
    Bool × ClientConn × Retained :=
  match client.outbox with
  | [] => (true, client, retained)
  | front :: rest =>
      if front.media.isEmpty then (true, client, retained)
      else if !client.sharesFilesystem then (false, client, retained)
      else
        match client.acquisitions.issue retained front with
        | none => (false, client, retained)
        | some (sequence, acquisitions, retained) =>
            (true, { client with
              outbox := { front with
                content := patch front.content paneOutputAcquisitionOffset
                  (Bytes.ofNat 8 sequence)
                media := [] } :: rest
              acquisitions }, retained)

structure OutputFile where
  start : Nat
  stop : Nat
  path : Bytes
  byteLen : Nat
  format : UInt32

def OutputFile.binding (file : OutputFile) : ImmutableFileBinding where
  start := file.start
  stop := file.stop
  path := file.path
  byteLen := file.byteLen
  format := file.format

section encode

variable {C : Type} (serde : Serde C)

def writeMediaOutput (paneId : UInt32) (generation : UInt64) (isLocal : Bool)
    (metadata : OutputMetadata) (files : List OutputFile) (sequence : UInt64) (bytes : Bytes) :
    Except Framing.IoError Bytes :=
  writePaneOutputMediaFrame serde paneId generation isLocal metadata
    (some ({ acquisitionSequence := sequence, files := files.map OutputFile.binding
             acquired := [] } : OutputMedia Unit)) bytes

/-- `encode_output` of an output with media: the placeholder sequence is 1. -/
def encodeOutput (paneId : UInt32) (generation : UInt64) (isLocal : Bool)
    (metadata : OutputMetadata) (bytes : Bytes) (media : List OutputFile) :
    Option (EncodedOutput Bytes) :=
  match writeMediaOutput serde paneId generation isLocal metadata media 1 bytes with
  | .error _ => none
  | .ok frame => some {
      content := frame
      len := frame.length
      media := media.map OutputFile.byteLen
      scope := some { paneId := paneId.toNat, generation := generation.toNat, isLocal } }

end encode

end Acquisition

end Rozi
