import Rozi.Layout.Shared

/-!
The messages of the session protocol, reduced to the ones the modelled handlers read or answer.
-/

namespace Rozi

abbrev Instant := Nat

def protocolVersion : Nat := 51

def minSupportedProtocol : Nat := protocolVersion

def requestNotifyCooldown : Nat := 4000

inductive ProtocolSide where
  | client | server
  deriving DecidableEq, Repr

structure ProtocolMismatch where
  clientMax : Nat
  clientMin : Nat
  serverMax : Nat
  serverMin : Nat
  olderSide : ProtocolSide
  deriving DecidableEq, Repr

def ProtocolMismatch.message (mismatch : ProtocolMismatch) : String :=
  let older := match mismatch.olderSide with
    | .client => "client"
    | .server => "server"
  let client := s!"client protocol {mismatch.clientMin}-{mismatch.clientMax}"
  let server := s!"server protocol {mismatch.serverMin}-{mismatch.serverMax}"
  s!"{client} is incompatible with {server} ({older} is older)"

def normalizeMinProtocol (max min : Nat) : Nat := if min = 0 then max else min

def negotiateProtocol (clientMax clientMin serverMax serverMin : Nat) :
    Except ProtocolMismatch Nat :=
  let clientMin := normalizeMinProtocol clientMax clientMin
  let effective := min clientMax serverMax
  if effective < clientMin ∨ effective < serverMin then
    .error {
      clientMax, clientMin, serverMax, serverMin
      olderSide := if clientMax < serverMin then .client else .server }
  else .ok effective

inductive ControllerChangeReason where
  | released | expired | granted
  deriving DecidableEq, Repr

structure ClientInfo where
  id : ClientId
  label : String
  readOnly : Bool
  requestingControl : Bool
  parked : Bool
  deriving DecidableEq, Repr

structure PaneMeta where
  paneId : PaneId
  generation : Nat
  cols : Nat
  rows : Nat
  exited : Option Int
  deriving DecidableEq, Repr

structure AttachRequest where
  session : String
  protocolVersion : Nat
  minProtocolVersion : Nat
  label : String
  readOnly : Bool
  sharesFilesystem : Bool
  expectedServerNonce : Option String
  deriving DecidableEq, Repr

structure SpawnPlacementCommit where
  baseRev : Nat
  layout : SharedLayout
  deriving DecidableEq, Repr

inductive ServerMessage where
  | attached (effectiveProtocol : Nat) (session : String) (clientId : ClientId)
      (panes : List PaneMeta) (layoutRev : Nat) (layout : Option SharedLayout)
      (controller : Option ClientId) (clients : List ClientInfo)
      (inputLocked allowTakeover : Bool)
  | controllerChanged (controller : Option ClientId) (reason : ControllerChangeReason)
  | clientsChanged (clients : List ClientInfo) (inputLocked allowTakeover : Bool)
  | controlRequested (sender : ClientId)
  | controlDeclined
  | error (code message : String)
  | layoutCommitted (rev : Nat) (author : ClientId) (layout : SharedLayout) (live : Bool)
  | layoutRejected (currentRev : Nat) (layout : Option SharedLayout)
  | spawnResult (paneId : PaneId) (isLocal : Bool) (generation : Nat) (pid : Option Nat)
      (ok : Bool) (error : Option String)
  | paneMetadata (isLocal : Bool) (pane : PaneMeta)
  | exited (paneId : PaneId) (isLocal : Bool) (generation : Nat) (code : Int)
  deriving DecidableEq, Repr

inductive Target where
  | sender
  | client (id : ClientId)
  | broadcast
  deriving DecidableEq, Repr

abbrev Outgoing := List (Target × ServerMessage)

end Rozi
