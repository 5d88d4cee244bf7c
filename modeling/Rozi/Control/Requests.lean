import Rozi.Layout.Shared

/-!
The control requests that write a layout, as they are checked before any document is read, and the
responses they get.
-/

namespace Rozi

open Checks

inductive ControlErrorCode where
  | paneNotFound
  | notController
  | unsupported
  | invalidArgument
  | conflict
  | unavailable
  | messageTooLarge
  | requestFailed
  deriving DecidableEq, Repr

structure ControlError where
  code : ControlErrorCode
  message : String
  deriving DecidableEq, Repr

/-- What a successful layout request answers with. A workspace is reported as the document has it;
the rectangles the report derives from it are left out. -/
inductive ControlAnswer where
  | layoutChange (changed : Bool) (revision : Option Nat) (workspace : SharedWorkspace)
  | paneClosed (id : PaneId) (revision : Option Nat) (workspace : Option SharedWorkspace)
  | newPaneAccepted (id : PaneId) (ptyReady : Bool)
  deriving DecidableEq, Repr

abbrev ControlResponse := Except ControlError ControlAnswer

abbrev Requested := Except ControlError

def errorWith {α : Type} (code : ControlErrorCode) (message : String) : Requested α :=
  .error { code, message }

def requestFailed {α : Type} (message : String) : Requested α :=
  errorWith .requestFailed message

structure CellRect where
  x : Int
  y : Int
  width : Nat
  height : Nat
  deriving DecidableEq, Repr

structure FractionRect where
  x : F32
  y : F32
  width : F32
  height : F32
  deriving DecidableEq, Repr

inductive RequestedRect where
  | cells (rect : CellRect)
  | fraction (rect : FractionRect)
  deriving DecidableEq, Repr

def ratioRange : String := "0.20000000298023224 and 0.800000011920929"

def validateRatio (flag : String) (value : F32) : Requested F32 :=
  match value with
  | .finite ratio =>
      if minSplitRatio ≤ ratio ∧ ratio ≤ maxSplitRatio then .ok (.finite ratio)
      else errorWith .invalidArgument s!"{flag} must be between {ratioRange}"
  | _ => errorWith .invalidArgument s!"{flag} must be between {ratioRange}"

def validateOptionalRatio (flag : String) : Option F32 → Requested (Option F32)
  | none => .ok none
  | some value => some <$> validateRatio flag value

structure PaneEdit where
  floating : Option Bool := none
  fullscreen : Option Bool := none
  rect : Option RequestedRect := none
  splitRatio : Option F32 := none
  widthRatio : Option F32 := none
  deriving DecidableEq, Repr

namespace PaneEdit

/-- The rectangle of a `pane set`, which may be given in one unit. -/
def validateRect : Option CellRect → Option FractionRect → Requested (Option RequestedRect)
  | some _, some _ => errorWith .invalidArgument "pass --rect or --rect-fraction, not both"
  | some rect, none =>
      if rect.width = 0 ∨ rect.height = 0 then
        errorWith .invalidArgument "--rect needs a positive width and height"
      else .ok (some (.cells rect))
  | none, some rect =>
      if !(rect.x.isFinite && rect.y.isFinite && rect.width.isFinite && rect.height.isFinite) ||
          rect.width.le (.finite 0) || rect.height.le (.finite 0) then
        errorWith .invalidArgument
          "--rect-fraction needs finite values and a positive width and height"
      else .ok (some (.fraction rect))
  | none, none => .ok none

def validate (floating fullscreen : Option Bool) (rect : Option CellRect)
    (rectFraction : Option FractionRect) (splitRatio widthRatio : Option F32) :
    Requested PaneEdit := do
  let rect ← validateRect rect rectFraction
  refuseIf (rect.isSome && floating == some false)
    ⟨.invalidArgument, "a rect places a floating pane; it cannot go with --floating false"⟩
  let splitRatio ← validateOptionalRatio "--split-ratio" splitRatio
  let widthRatio ← validateOptionalRatio "--width-ratio" widthRatio
  let sizes := splitRatio.isSome || widthRatio.isSome
  refuseIf (sizes && (floating.isSome || rect.isSome))
    ⟨.invalidArgument,
      "a ratio sizes a pane where it is tiled; float or re-tile it in a separate request"⟩
  refuseIf (floating.isNone && fullscreen.isNone && rect.isNone && !sizes)
    ⟨.invalidArgument,
      "pane set needs --floating, --fullscreen, --rect, --rect-fraction, --split-ratio, or " ++
        "--width-ratio"⟩
  return { floating, fullscreen, rect, splitRatio, widthRatio }

variable (edit : PaneEdit)

/-- Whether the pane ends up floating, given whether it floats now. -/
def floats (floatingNow : Bool) : Bool :=
  edit.floating.getD floatingNow

def checkRectTarget (floatingNow : Bool) : Requested Unit :=
  refuseIf (edit.rect.isSome && !edit.floats floatingNow)
    ⟨.invalidArgument, "a rect places a floating pane; pass --floating true to float a tiled one"⟩

def checkSizes (floating : Bool) (layout : LayoutKind) (inSplit : Bool) : Requested Unit := do
  refuseIf ((edit.splitRatio.isSome || edit.widthRatio.isSome) && floating)
    ⟨.unsupported, "a floating pane has no tile to size"⟩
  refuseIf (edit.splitRatio.isSome && layout != .dwindle)
    ⟨.unsupported, "--split-ratio sizes a Dwindle split; this workspace is not Dwindle"⟩
  refuseIf (edit.splitRatio.isSome && !inSplit)
    ⟨.unsupported, "the pane is the workspace's only tile, so it has no split to size"⟩
  refuseIf (edit.widthRatio.isSome && layout != .scrollable)
    ⟨.unsupported, "--width-ratio sizes a Scrollable column; this workspace is not Scrollable"⟩

end PaneEdit

structure LayoutEdit where
  kind : Option LayoutKind := none
  masterRatio : Option F32 := none
  deriving DecidableEq, Repr

namespace LayoutEdit

def validate (layout : Option LayoutKind) (masterRatio : Option F32) : Requested LayoutEdit := do
  let masterRatio ← validateOptionalRatio "--master-ratio" masterRatio
  refuseIf (layout.isNone && masterRatio.isNone)
    ⟨.invalidArgument, "layout set needs a layout, --master-ratio, or both"⟩
  return { kind := layout, masterRatio }

def check (edit : LayoutEdit) (current : LayoutKind) : Requested Unit :=
  refuseIf (edit.masterRatio.isSome && edit.kind.getD current != .master)
    ⟨.unsupported, "--master-ratio sizes a Master workspace; pass `master` or set it on one"⟩

end LayoutEdit

/-- Refuse a write whose `--if-revision` the layout has moved past. -/
def checkIfRevision (ifRevision current : Option Nat) : Requested Unit :=
  match ifRevision with
  | none => .ok ()
  | some expected =>
      if current = some expected then .ok ()
      else errorWith .conflict (match current with
        | some current =>
            s!"the layout is at revision {current}, not {expected}; read it again with `layout get`"
        | none => s!"the layout has no revision yet, not {expected}")

def validateLayoutWorkspace (workspace : Nat) : Requested Unit :=
  if 1 ≤ workspace ∧ workspace ≤ workspaceCount then .ok ()
  else errorWith .invalidArgument
    s!"workspace {workspace} does not exist; expected 1-{workspaceCount}"

def maxPaneSizeCells : Nat := 1000

structure PaneSize where
  cols : Nat
  rows : Nat
  deriving DecidableEq, Repr

def PaneSize.validate (size : PaneSize) : Except String Unit :=
  if (1 ≤ size.cols ∧ size.cols ≤ maxPaneSizeCells) ∧
      (1 ≤ size.rows ∧ size.rows ≤ maxPaneSizeCells) then .ok ()
  else .error (s!"pane size {size.cols}x{size.rows} is out of range; each side must be 1 to " ++
    s!"{maxPaneSizeCells} cells")

section ratios

theorem validateRatio_proper {flag : String} {value ratio : F32}
    (passed : validateRatio flag value = .ok ratio) : ratio.Proper := by
  cases value with
  | finite value =>
      simp only [validateRatio] at passed
      split_ifs at passed with range
      · cases passed
        rcases range with ⟨low, high⟩
        refine ⟨value, rfl, ?_, ?_⟩
        · exact lt_of_lt_of_le (by norm_num [minSplitRatio]) low
        · exact lt_of_le_of_lt high (by norm_num [maxSplitRatio])
      · cases passed
  | posInfinity => cases passed
  | negInfinity => cases passed
  | nan => cases passed

theorem validateOptionalRatio_proper {flag : String} {value ratio : Option F32}
    (passed : validateOptionalRatio flag value = .ok ratio) :
    ∀ kept ∈ ratio, kept.Proper := by
  cases value with
  | none =>
      cases passed
      exact fun _ none => by cases none
  | some value =>
      cases checked : validateRatio flag value with
      | error error =>
          simp only [validateOptionalRatio, checked] at passed
          cases passed
      | ok kept =>
          simp only [validateOptionalRatio, checked] at passed
          cases passed
          intro other same
          cases same
          exact validateRatio_proper checked

theorem LayoutEdit.validate_proper {layout : Option LayoutKind} {masterRatio : Option F32}
    {edit : LayoutEdit} (passed : LayoutEdit.validate layout masterRatio = .ok edit) :
    ∀ ratio ∈ edit.masterRatio, ratio.Proper := by
  simp only [LayoutEdit.validate, bind_eq_ok, refuseIf_eq_ok, pure_eq_ok] at passed
  rcases passed with ⟨kept, checked, _, _, rfl⟩
  exact validateOptionalRatio_proper checked

end ratios

end Rozi
