import Mathlib.Algebra.Order.Floor.Ring
import Mathlib.Data.Nat.Sqrt
import Mathlib.Data.Rat.Floor
import Rozi.Layout.Tiling

/-!
Rectangles and how the layout engine divides them. Comparisons of `f32` are exact; the operations
that round are those of an `Arithmetic`, which may be any.
-/

namespace Rozi

namespace F32

def lt (a b : F32) : Bool := a.le b && !b.le a

def max (a b : F32) : F32 :=
  match a, b with
  | nan, other | other, nan => other
  | a, b => if a.le b then b else a

def min (a b : F32) : F32 :=
  match a, b with
  | nan, other | other, nan => other
  | a, b => if a.le b then a else b

def clamp (value low high : F32) : F32 :=
  let value := if value.lt low then low else value
  if high.lt value then high else value

theorem max_finite (a b : Rat) : (finite a).max (finite b) = finite (Max.max a b) := by
  by_cases below : a ≤ b
  · simp [max, le_finite, below]
  · simp [max, le_finite, below, (not_le.mp below).le]

theorem min_finite (a b : Rat) : (finite a).min (finite b) = finite (Min.min a b) := by
  by_cases below : a ≤ b
  · simp [min, le_finite, below]
  · simp [min, le_finite, below, (not_le.mp below).le]

theorem lt_finite (a b : Rat) : lt (finite a) (finite b) = decide (a < b) := by
  simp only [lt, le_finite]
  by_cases below : a < b
  · simp [below, below.le]
  · simp [below, not_lt.mp below]

theorem clamp_finite (value : Rat) {low high : Rat} (ordered : low ≤ high) :
    (finite value).clamp (finite low) (finite high) =
      finite (Max.max low (Min.min value high)) := by
  by_cases below : value < low
  · have whole : ¬high < low := not_lt.mpr ordered
    simp only [clamp, lt_finite, below, decide_true, if_true, whole, decide_false,
      Bool.false_eq_true, if_false]
    rw [min_eq_left (below.le.trans ordered), max_eq_left below.le]
  · simp only [clamp, lt_finite, below, decide_false, Bool.false_eq_true, if_false]
    by_cases above : high < value
    · simp only [above, decide_true, if_true]
      rw [min_eq_right above.le, max_eq_right ordered]
    · simp only [above, decide_false, Bool.false_eq_true, if_false]
      rw [min_eq_left (not_lt.mp above), max_eq_right (not_lt.mp below)]

def abs : F32 → F32
  | finite value => finite |value|
  | negInfinity => posInfinity
  | other => other

/-- `+ 0.0`, and what every finite constant of the engine is written as. -/
def zero : F32 := finite 0

def one : F32 := finite 1

end F32

structure Arithmetic where
  add : F32 → F32 → F32
  sub : F32 → F32 → F32
  mul : F32 → F32 → F32
  div : F32 → F32 → F32
  floor : F32 → F32
  ceil : F32 → F32
  round : F32 → F32
  /-- `as f32`. -/
  ofNat : Nat → F32
  ofInt : Int → F32
  /-- `as usize`. -/
  toNat : F32 → Nat
  /-- `(n as f32).sqrt().ceil() as usize`. -/
  ceilSqrt : Nat → Nat
  ceilSqrt_pos : ∀ n, 0 < n → 0 < ceilSqrt n

namespace F32

def neg : F32 → F32
  | finite value => finite (-value)
  | posInfinity => negInfinity
  | negInfinity => posInfinity
  | nan => nan

/-- An infinity with the sign of a number. -/
def infinityOf (sign : Rat) : F32 :=
  if 0 < sign then posInfinity else if sign < 0 then negInfinity else nan

def add : F32 → F32 → F32
  | nan, _ | _, nan | posInfinity, negInfinity | negInfinity, posInfinity => nan
  | posInfinity, _ | _, posInfinity => posInfinity
  | negInfinity, _ | _, negInfinity => negInfinity
  | finite a, finite b => finite (a + b)

def mul : F32 → F32 → F32
  | nan, _ | _, nan => nan
  | finite a, finite b => finite (a * b)
  | posInfinity, finite a | finite a, posInfinity => infinityOf a
  | negInfinity, finite a | finite a, negInfinity => infinityOf (-a)
  | posInfinity, posInfinity | negInfinity, negInfinity => posInfinity
  | posInfinity, negInfinity | negInfinity, posInfinity => negInfinity

/-- The only zero there is divides as the positive one does. -/
def div : F32 → F32 → F32
  | nan, _ | _, nan => nan
  | finite a, finite b => if b = 0 then infinityOf a else finite (a / b)
  | finite _, _ => finite 0
  | posInfinity, finite b => if b < 0 then negInfinity else posInfinity
  | negInfinity, finite b => if b < 0 then posInfinity else negInfinity
  | _, _ => nan

def toWhole (whole : Rat → Int) : F32 → F32
  | finite value => finite (whole value)
  | other => other

def nearest (value : Rat) : Int :=
  if value < 0 then -⌊-value + 1 / 2⌋ else ⌊value + 1 / 2⌋

def truncated : F32 → Nat
  | finite value => ⌊value⌋.toNat
  | posInfinity => 2 ^ 64 - 1
  | negInfinity | nan => 0

end F32

def Arithmetic.exact : Arithmetic where
  add := F32.add
  sub := fun a b => a.add b.neg
  mul := F32.mul
  div := F32.div
  floor := F32.toWhole Int.floor
  ceil := F32.toWhole Int.ceil
  round := F32.toWhole F32.nearest
  ofNat := fun n => .finite n
  ofInt := fun n => .finite n
  toNat := F32.truncated
  ceilSqrt := fun n => if n.sqrt * n.sqrt = n then n.sqrt else n.sqrt + 1
  ceilSqrt_pos := by
    intro n positive
    split_ifs
    · exact Nat.sqrt_pos.mpr positive
    · exact Nat.succ_pos _

theorem Arithmetic.exact_div_mul (value : F32) {n : Nat} (positive : 0 < n) :
    exact.mul (exact.div value (exact.ofNat n)) (exact.ofNat n) = value := by
  have above : (0 : Rat) < n := by exact_mod_cast positive
  cases value with
  | finite value =>
      simp only [exact, F32.div, F32.mul, if_neg above.ne']
      rw [div_mul_cancel₀ value above.ne']
  | posInfinity =>
      simp only [exact, F32.div, F32.mul, F32.infinityOf, if_neg (not_lt.mpr above.le), if_pos above]
  | negInfinity =>
      have below : ¬(0 : Rat) < -n := not_lt.mpr (neg_nonpos.mpr above.le)
      simp only [exact, F32.div, F32.mul, F32.infinityOf, if_neg (not_lt.mpr above.le),
        if_neg below, if_pos (neg_neg_of_pos above)]
  | nan => rfl

structure FloatRect where
  x : F32
  y : F32
  w : F32
  h : F32
  deriving DecidableEq, Repr

structure TileGap where
  horizontal : F32
  vertical : F32
  deriving DecidableEq, Repr

structure PanePlacement where
  id : PaneId
  rect : FloatRect
  deriving DecidableEq, Repr

inductive ScrollableRevealEdge where
  | left
  | right
  | leftOffset (cells : Int)
  deriving DecidableEq, Repr

def TileGap.forAxis (gap : TileGap) : SplitAxis → F32
  | .horizontal => gap.horizontal
  | .vertical => gap.vertical

def offscreenMinVisible : F32 := .finite 6

namespace FloatRect

def extent (rect : FloatRect) : SplitAxis → F32
  | .horizontal => rect.w
  | .vertical => rect.h

def start (rect : FloatRect) : SplitAxis → F32
  | .horizontal => rect.x
  | .vertical => rect.y

/-- The part of a rectangle from `start`, `size` long along the axis. -/
def segment (rect : FloatRect) (axis : SplitAxis) (start size : F32) : FloatRect :=
  match axis with
  | .horizontal => { rect with x := start, w := size }
  | .vertical => { rect with y := start, h := size }

end FloatRect

namespace Arithmetic

variable (arith : Arithmetic)

def splitFloatRect (rect : FloatRect) (axis : SplitAxis) (ratio : F32) (gap : TileGap) :
    FloatRect × FloatRect :=
  let ratio := clampSplitRatio ratio
  let gap := gap.forAxis axis
  let gap := if gap.lt (rect.extent axis) then gap else .zero
  let available := (arith.sub (rect.extent axis) gap).max .zero
  let first := arith.round (arith.mul available ratio)
  let second := arith.sub available first
  (rect.segment axis (rect.start axis) first,
    rect.segment axis (arith.add (arith.add (rect.start axis) first) gap) second)

/-- The loop of `split_evenly`; the last segment takes what remains. -/
def splitEvenlyFrom (rect : FloatRect) (axis : SplitAxis) (base usableGap : F32) :
    Nat → F32 → F32 → List FloatRect
  | 0, _, _ => []
  | left + 1, start, remaining =>
      let size := if left = 0 then remaining else base.min remaining
      rect.segment axis start size ::
        splitEvenlyFrom rect axis base usableGap left (arith.add start (arith.add size usableGap))
          ((arith.sub remaining size).max .zero)

def splitEvenly (rect : FloatRect) (axis : SplitAxis) (count : Nat) (gap : TileGap) :
    List FloatRect :=
  if count = 0 then []
  else if count = 1 then [rect]
  else
    let gap := gap.forAxis axis
    let extent := rect.extent axis
    let usableGap := if gap.lt extent then gap else .zero
    let totalGap := arith.mul usableGap (arith.ofNat (count - 1))
    let available := (arith.sub extent totalGap).max .zero
    let base := arith.floor (arith.div available (arith.ofNat count))
    arith.splitEvenlyFrom rect axis base usableGap count (rect.start axis) available

/-- The loop of `split_balanced`; the first `extras` segments are a cell longer. -/
def splitBalancedFrom (rect : FloatRect) (axis : SplitAxis) (base usableGap : F32) :
    Nat → Nat → F32 → List FloatRect
  | 0, _, _ => []
  | left + 1, extras, start =>
      let size := arith.add base (if 0 < extras then .one else .zero)
      rect.segment axis start size ::
        splitBalancedFrom rect axis base usableGap left (extras - 1)
          (arith.add start (arith.add size usableGap))

def splitBalanced (rect : FloatRect) (axis : SplitAxis) (count : Nat) (gap : TileGap) :
    List FloatRect :=
  if count = 0 then []
  else if count = 1 then [rect]
  else
    let gap := gap.forAxis axis
    let extent := rect.extent axis
    let usableGap := if gap.lt extent then gap else .zero
    let available := (arith.sub extent (arith.mul usableGap (arith.ofNat (count - 1)))).max .zero
    let base := arith.floor (arith.div available (arith.ofNat count))
    let extras := arith.toNat
      ((arith.round (arith.sub available (arith.mul base (arith.ofNat count)))).max .zero)
    arith.splitBalancedFrom rect axis base usableGap count extras (rect.start axis)

def workspaceTileBounds (bounds : FloatRect) (gap : F32) : FloatRect :=
  let inset := gap.abs.min (arith.div bounds.h (.finite 2))
  { x := bounds.x
    y := if gap.lt .zero then bounds.y else arith.add bounds.y inset
    w := bounds.w.max .one
    h := (arith.sub bounds.h inset).max .one }

def clampWindowSize (rect bounds : FloatRect) : F32 × F32 :=
  let maxW := bounds.w.max .one
  let maxH := bounds.h.max .one
  let minW := maxW.min (.finite 18)
  let minH := maxH.min (.finite 6)
  ((rect.w.max .one).clamp minW maxW, (rect.h.max .one).clamp minH maxH)

def clampFloatingRect (rect bounds : FloatRect) : FloatRect :=
  let (w, h) := clampWindowSize rect bounds
  let marginX := offscreenMinVisible.min w
  let marginY := offscreenMinVisible.min h
  let lowX := arith.sub (arith.add bounds.x marginX) w
  let highX := arith.sub (arith.add bounds.x bounds.w) marginX
  let lowY := arith.sub (arith.add bounds.y marginY) h
  let highY := arith.sub (arith.add bounds.y bounds.h) marginY
  { x := rect.x.clamp (lowX.min highX) (highX.max lowX)
    y := rect.y.clamp (lowY.min highY) (highY.max lowY)
    w
    h }

section lengths

variable (rect : FloatRect) (axis : SplitAxis) (base usableGap : F32) (gap : TileGap)

theorem length_splitEvenlyFrom (count : Nat) (start remaining : F32) :
    (arith.splitEvenlyFrom rect axis base usableGap count start remaining).length = count := by
  induction count generalizing start remaining with
  | zero => rfl
  | succ left ih => simp only [splitEvenlyFrom, List.length_cons, ih]

theorem length_splitEvenly (count : Nat) :
    (arith.splitEvenly rect axis count gap).length = count := by
  unfold splitEvenly
  split_ifs with none one
  · exact none.symm
  · exact one.symm
  · exact arith.length_splitEvenlyFrom rect axis _ _ count _ _

theorem length_splitBalancedFrom (count extras : Nat) (start : F32) :
    (arith.splitBalancedFrom rect axis base usableGap count extras start).length = count := by
  induction count generalizing extras start with
  | zero => rfl
  | succ left ih => simp only [splitBalancedFrom, List.length_cons, ih]

theorem length_splitBalanced (count : Nat) :
    (arith.splitBalanced rect axis count gap).length = count := by
  unfold splitBalanced
  split_ifs with none one
  · exact none.symm
  · exact one.symm
  · exact arith.length_splitBalancedFrom rect axis _ _ count _ _

end lengths

end Arithmetic

end Rozi
