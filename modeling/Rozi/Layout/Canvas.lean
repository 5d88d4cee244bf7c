import Rozi.Layout.Edit
import Rozi.Layout.Source

/-!
The document measured on its canvas: rectangles as fractions of it, and a workspace of the document
read as tiling input.
-/

namespace Rozi

def floatRectToFrac (arith : Arithmetic) (rect : FloatRect) (canvasCols canvasRows : Nat) :
    FracRect :=
  let cols := arith.ofNat (max canvasCols 1)
  let rows := arith.ofNat (max canvasRows 1)
  { x := arith.div rect.x cols
    y := arith.div rect.y rows
    w := arith.div rect.w cols
    h := arith.div rect.h rows }

def fracRectToFloat (arith : Arithmetic) (rect : FracRect) (canvasCols canvasRows : Nat) :
    FloatRect :=
  let cols := arith.ofNat (max canvasCols 1)
  let rows := arith.ofNat (max canvasRows 1)
  { x := arith.mul rect.x cols
    y := arith.mul rect.y rows
    w := arith.mul rect.w cols
    h := arith.mul rect.h rows }

theorem fracRectToFloat_floatRectToFrac (rect : FloatRect) (cols rows : Nat) :
    fracRectToFloat .exact (floatRectToFrac .exact rect cols rows) cols rows = rect := by
  have positive : ∀ n : Nat, 0 < max n 1 := fun n => by omega
  simp only [fracRectToFloat, floatRectToFrac, Arithmetic.exact_div_mul _ (positive cols),
    Arithmetic.exact_div_mul _ (positive rows)]

def canvasBounds (arith : Arithmetic) (canvasCols canvasRows : Nat) : FloatRect where
  x := .zero
  y := .zero
  w := arith.ofNat (max canvasCols 1)
  h := arith.ofNat (max canvasRows 1)

def TileGap.none : TileGap where
  horizontal := .zero
  vertical := .zero

namespace SharedWorkspace

/-- `SharedTileSource`: what the document leaves to each client is what a freshly attached one has, a
strip scrolled to its first column. -/
def tileSource (arith : Arithmetic) (workspace : SharedWorkspace) (canvasCols canvasRows : Nat) :
    TileSource where
  layoutKind := workspace.layout
  startAxis := workspace.startAxis
  splitRatios := workspace.splitRatios
  storedTileTree := workspace.storedTileTree
  tiledIdsByPaneOrder := workspace.tiledIds
  scrollableWidth := fun id =>
    match workspace.panes.find? (·.paneId == id) with
    | some pane => pane.scrollableWidth
    | none => defaultScrollableWidth
  scrollableViewport := fun tiledIds => (tiledIds.head?, .left)
  floating := (workspace.panes.filter SharedPane.floating).filterMap fun pane =>
    pane.rect.map fun rect => (pane.paneId, fracRectToFloat arith rect canvasCols canvasRows)

def placementsOn (arith : Arithmetic) (workspace : SharedWorkspace) (canvasCols canvasRows : Nat) :
    List PanePlacement :=
  let bounds := canvasBounds arith canvasCols canvasRows
  (workspace.tileSource arith canvasCols canvasRows).targetRects arith bounds bounds none none .zero
    .none

end SharedWorkspace

end Rozi
