import Mathlib.Data.List.AList
import Mathlib.Data.List.MinMax
import Rozi.Session.Protocol

/-!
The state of one session server. Connections keep the fields the control lease reads; what their
outboxes hold is modelled on its own.
-/

namespace Rozi

structure ClientConn where
  id : ClientId
  label : Option String := none
  attached : Bool := false
  readOnly : Bool := false
  parked : Bool := false
  requestingControl : Bool := false
  lastRequestNotify : Option Instant := none
  sharesFilesystem : Bool := false
  effectiveProtocol : Nat := 0
  closeAfterFlush : Bool := false
  deriving DecidableEq, Repr

structure PaneResume where
  label : String
  attach : Option (List String)
  attached : Bool
  deriving DecidableEq, Repr

structure ServerPane where
  generation : Nat
  title : Option String := none
  cwd : Option String := none
  launch : Option PaneLaunch := none
  agentResume : Option PaneResume := none
  keepOpen : Bool := false
  commandCompleted : Bool := false
  cols : Nat
  rows : Nat
  exited : Option Int := none
  deriving DecidableEq, Repr

abbrev PaneMap := AList fun _ : PaneId => ServerPane

structure SessionServer where
  sessionName : String
  startupNonce : Option String := none
  nextClientId : ClientId := 1
  nextGeneration : Nat := 1
  clients : List ClientConn := []
  controller : Option ClientId := none
  allowTakeover : Bool := false
  inputLocked : Bool := false
  panes : PaneMap := ∅
  localPanes : AList (fun _ : ClientId × PaneId => ServerPane) := ∅
  layout : Option SharedLayout := none
  layoutRev : Nat := 0

namespace SessionServer

def paneMetadata (id : PaneId) (pane : ServerPane) : PaneMeta :=
  { paneId := id, generation := pane.generation, cols := pane.cols, rows := pane.rows
    exited := pane.exited }

def paneMeta (server : SessionServer) : List PaneMeta :=
  server.panes.entries.map fun entry => paneMetadata entry.1 entry.2

end SessionServer

end Rozi
