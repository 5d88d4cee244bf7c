import Rozi.Layout.Allocate

/-!
Dragging the divider of a split: its ratio is rewritten for the cells it is to lie at, and the ratios
on either side of it so that no other divider follows.
-/

namespace Rozi

open SerializedTree

inductive SplitEdge where
  | leading | trailing
  deriving DecidableEq, Repr

def splitEdgeMatchesFocusedSide (edge : SplitEdge) (focusedIsFirst : Bool) : Bool :=
  match edge, focusedIsFirst with
  | .leading, false | .trailing, true => true
  | _, _ => false

namespace Arithmetic

variable (arith : Arithmetic)

def usableAxisExtent (extent : F32) (axis : SplitAxis) (gap : TileGap) : F32 :=
  let gap := gap.forAxis axis
  let usableGap := if gap.lt extent then gap else .zero
  (arith.sub extent usableGap).max .zero

/-- The ratio that puts a divider exactly `cells` into a region. -/
def cellSplitRatio (cells usable : F32) : F32 :=
  let usable := usable.max .one
  let lowest := arith.ceil (arith.mul (.finite minSplitRatio) usable)
  let highest := (arith.floor (arith.mul (.finite maxSplitRatio) usable)).max lowest
  clampSplitRatio (arith.div ((arith.round cells).clamp lowest highest) usable)

/-- Where the divider of a split lay before its region grew by `delta`. -/
def dividerBefore (rect : FloatRect) (gap : TileGap) (axis : SplitAxis) (ratio delta : F32) : F32 :=
  arith.round (arith.mul
    (arith.usableAxisExtent (arith.sub (rect.extent axis) delta) axis gap) (clampSplitRatio ratio))

/-- The ratio that a divider is held with once its region changed, before it is clamped. -/
def heldRatio (rect : FloatRect) (gap : TileGap) (axis : SplitAxis) (cells : F32) : F32 :=
  arith.div cells ((arith.usableAxisExtent (rect.extent axis) axis gap).max .one)

def holdTrailingDividers (gap : TileGap) (axis : SplitAxis) :
    DwindleTree → FloatRect → F32 → DwindleTree
  | leaf id, _, _ => leaf id
  | split splitAxis ratio first second, rect, delta =>
      if delta = .zero then split splitAxis ratio first second
      else if splitAxis ≠ axis then
        let rects := arith.splitFloatRect rect splitAxis ratio gap
        split splitAxis ratio (holdTrailingDividers gap axis first rects.1 delta)
          (holdTrailingDividers gap axis second rects.2 delta)
      else
        let before := arith.dividerBefore rect gap axis ratio delta
        let ratio := clampSplitRatio (arith.heldRatio rect gap axis before)
        let rects := arith.splitFloatRect rect splitAxis ratio gap
        let held := arith.sub (rects.1.extent axis) before
        split splitAxis ratio (holdTrailingDividers gap axis first rects.1 held)
          (holdTrailingDividers gap axis second rects.2 (arith.sub delta held))

/-- The mirror of it, for a region whose leading edge moved: `delta` is what its extent grew by. -/
def holdLeadingDividers (gap : TileGap) (axis : SplitAxis) :
    DwindleTree → FloatRect → F32 → DwindleTree
  | leaf id, _, _ => leaf id
  | split splitAxis ratio first second, rect, delta =>
      if delta = .zero then split splitAxis ratio first second
      else if splitAxis ≠ axis then
        let rects := arith.splitFloatRect rect splitAxis ratio gap
        split splitAxis ratio (holdLeadingDividers gap axis first rects.1 delta)
          (holdLeadingDividers gap axis second rects.2 delta)
      else
        let before := arith.dividerBefore rect gap axis ratio delta
        let ratio := clampSplitRatio (arith.heldRatio rect gap axis (arith.add before delta))
        let rects := arith.splitFloatRect rect splitAxis ratio gap
        let held := arith.sub (rects.1.extent axis) (arith.add before delta)
        split splitAxis ratio (holdLeadingDividers gap axis first rects.1 (arith.add delta held))
          (holdLeadingDividers gap axis second rects.2 held.neg)

def moveDivider (gap : TileGap) (axis : SplitAxis) (ratio : F32) (first second : DwindleTree)
    (rect : FloatRect) (signed : F32) : DwindleTree :=
  let usable := arith.usableAxisExtent (rect.extent axis) axis gap
  let before := (arith.splitFloatRect rect axis ratio gap).1.extent axis
  let ratio := arith.cellSplitRatio (arith.add before signed) usable
  let moved := arith.splitFloatRect rect axis ratio gap
  let delta := arith.sub (moved.1.extent axis) before
  split axis ratio (arith.holdTrailingDividers gap axis first moved.1 delta)
    (arith.holdLeadingDividers gap axis second moved.2 delta.neg)

def resizeSplitInTree (gap : TileGap) (focused : PaneId) (targetAxis : SplitAxis)
    (edge : Option SplitEdge) (pixels : F32) : DwindleTree → FloatRect → Bool × DwindleTree
  | leaf id, _ => (false, leaf id)
  | split axis ratio first second, rect =>
      let rects := arith.splitFloatRect rect axis ratio gap
      if treeContains first focused then
        let deeper := resizeSplitInTree gap focused targetAxis edge pixels first rects.1
        if deeper.1 then (true, split axis ratio deeper.2 second)
        else if axis ≠ targetAxis ∨ ¬ edge.all (splitEdgeMatchesFocusedSide · true) then
          (false, split axis ratio deeper.2 second)
        else (true, arith.moveDivider gap axis ratio deeper.2 second rect pixels)
      else if treeContains second focused then
        let deeper := resizeSplitInTree gap focused targetAxis edge pixels second rects.2
        if deeper.1 then (true, split axis ratio first deeper.2)
        else if axis ≠ targetAxis ∨ ¬ edge.all (splitEdgeMatchesFocusedSide · false) then
          (false, split axis ratio first deeper.2)
        else (true, arith.moveDivider gap axis ratio first deeper.2 rect pixels.neg)
      else (false, split axis ratio first second)

section unclamped

def TrailingUnclamped (gap : TileGap) (axis : SplitAxis) :
    DwindleTree → FloatRect → F32 → Prop
  | leaf _, _, _ => True
  | split splitAxis ratio first second, rect, delta =>
      if delta = .zero then True
      else if splitAxis ≠ axis then
        let rects := arith.splitFloatRect rect splitAxis ratio gap
        TrailingUnclamped gap axis first rects.1 delta ∧
          TrailingUnclamped gap axis second rects.2 delta
      else
        let before := arith.dividerBefore rect gap axis ratio delta
        let ratio := arith.heldRatio rect gap axis before
        let rects := arith.splitFloatRect rect splitAxis ratio gap
        let held := arith.sub (rects.1.extent axis) before
        clampSplitRatio ratio = ratio ∧ TrailingUnclamped gap axis first rects.1 held ∧
          TrailingUnclamped gap axis second rects.2 (arith.sub delta held)

def LeadingUnclamped (gap : TileGap) (axis : SplitAxis) :
    DwindleTree → FloatRect → F32 → Prop
  | leaf _, _, _ => True
  | split splitAxis ratio first second, rect, delta =>
      if delta = .zero then True
      else if splitAxis ≠ axis then
        let rects := arith.splitFloatRect rect splitAxis ratio gap
        LeadingUnclamped gap axis first rects.1 delta ∧
          LeadingUnclamped gap axis second rects.2 delta
      else
        let before := arith.dividerBefore rect gap axis ratio delta
        let ratio := arith.heldRatio rect gap axis (arith.add before delta)
        let rects := arith.splitFloatRect rect splitAxis ratio gap
        let held := arith.sub (rects.1.extent axis) (arith.add before delta)
        clampSplitRatio ratio = ratio ∧
          LeadingUnclamped gap axis first rects.1 (arith.add delta held) ∧
          LeadingUnclamped gap axis second rects.2 held.neg

def DividerUnclamped (gap : TileGap) (axis : SplitAxis) (ratio : F32) (first second : DwindleTree)
    (rect : FloatRect) (signed : F32) : Prop :=
  let usable := arith.usableAxisExtent (rect.extent axis) axis gap
  let before := (arith.splitFloatRect rect axis ratio gap).1.extent axis
  let ratio := arith.cellSplitRatio (arith.add before signed) usable
  let moved := arith.splitFloatRect rect axis ratio gap
  let delta := arith.sub (moved.1.extent axis) before
  ratio = arith.div (arith.round (arith.add before signed)) (usable.max .one) ∧
    arith.TrailingUnclamped gap axis first moved.1 delta ∧
    arith.LeadingUnclamped gap axis second moved.2 delta.neg

end unclamped

section unchanged

variable {arith} {gap : TileGap} {focused : PaneId} {targetAxis : SplitAxis}
  {edge : Option SplitEdge} {pixels : F32}

theorem resizeSplitInTree_refused {tree : DwindleTree} {rect : FloatRect}
    (refused : (arith.resizeSplitInTree gap focused targetAxis edge pixels tree rect).1 = false) :
    (arith.resizeSplitInTree gap focused targetAxis edge pixels tree rect).2 = tree := by
  induction tree generalizing rect with
  | leaf id => rfl
  | split axis ratio first second hfirst hsecond =>
      rw [resizeSplitInTree] at refused ⊢
      dsimp only at refused ⊢
      split_ifs at refused ⊢ with inFirst deeper other inSecond deeper other
      · rw [hfirst (Bool.eq_false_iff.mpr deeper)]
      · rw [hsecond (Bool.eq_false_iff.mpr deeper)]
      · rfl

end unchanged

end Arithmetic

end Rozi
