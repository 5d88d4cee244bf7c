import Rozi.Layout.Geometry

/-!
Resizing a floating pane by one of its corners. The clamps fail where `f32::clamp` panics, when their
lower bound is above the upper one.
-/

namespace Rozi

def F32.clampOrPanic (value low high : F32) : Option F32 :=
  if low.le high then some (value.clamp low high) else none

inductive ResizeCorner where
  | upperLeft | upperRight | lowerLeft | lowerRight
  deriving DecidableEq, Repr

namespace ResizeCorner

def left : ResizeCorner → Bool
  | upperLeft | lowerLeft => true
  | upperRight | lowerRight => false

def top : ResizeCorner → Bool
  | upperLeft | upperRight => true
  | lowerLeft | lowerRight => false

end ResizeCorner

namespace Arithmetic

variable (arith : Arithmetic)

def clampWindowSizeOrPanic (rect bounds : FloatRect) : Option (F32 × F32) := do
  let maxW := bounds.w.max .one
  let maxH := bounds.h.max .one
  let minW := maxW.min (.finite 18)
  let minH := maxH.min (.finite 6)
  let w ← (rect.w.max .one).clampOrPanic minW maxW
  let h ← (rect.h.max .one).clampOrPanic minH maxH
  return (w, h)

def clampFloatingRectOrPanic (rect bounds : FloatRect) : Option FloatRect := do
  let (w, h) ← clampWindowSizeOrPanic rect bounds
  let marginX := offscreenMinVisible.min w
  let marginY := offscreenMinVisible.min h
  let lowX := arith.sub (arith.add bounds.x marginX) w
  let highX := arith.sub (arith.add bounds.x bounds.w) marginX
  let lowY := arith.sub (arith.add bounds.y marginY) h
  let highY := arith.sub (arith.add bounds.y bounds.h) marginY
  let x ← rect.x.clampOrPanic (lowX.min highX) (highX.max lowX)
  let y ← rect.y.clampOrPanic (lowY.min highY) (highY.max lowY)
  return { x, y, w, h }

def draggedStart (start finish boundsStart boundsFinish minSize maxSize margin delta : F32) :
    Option F32 :=
  let outer := (boundsStart.min start).max (arith.sub finish maxSize)
  let inner := (arith.sub finish minSize).min (arith.sub boundsFinish margin)
  (arith.add start delta).clampOrPanic (outer.min inner) inner

def draggedFinish (start finish boundsStart boundsFinish minSize maxSize margin delta : F32) :
    Option F32 :=
  let outer := (boundsFinish.max finish).min (arith.add start maxSize)
  let inner := (arith.add start minSize).max (arith.add boundsStart margin)
  (arith.add finish delta).clampOrPanic inner (outer.max inner)

def draggedEdges (grabsStart : Bool)
    (start finish boundsStart boundsFinish minSize maxSize margin delta : F32) :
    Option (F32 × F32) :=
  if grabsStart then
    (arith.draggedStart start finish boundsStart boundsFinish minSize maxSize margin delta).map
      fun edge => (edge, finish)
  else
    (arith.draggedFinish start finish boundsStart boundsFinish minSize maxSize margin delta).map
      fun edge => (start, edge)

def resizeFloatRectFromCorner (rect : FloatRect) (corner : ResizeCorner) (dx dy : F32)
    (bounds : FloatRect) : Option FloatRect := do
  let rect ← arith.clampFloatingRectOrPanic rect bounds
  let maxW := bounds.w.max .one
  let maxH := bounds.h.max .one
  let minW := maxW.min (.finite 18)
  let minH := maxH.min (.finite 6)
  let marginX := offscreenMinVisible.min minW
  let marginY := offscreenMinVisible.min minH
  let (left, right) ← arith.draggedEdges corner.left rect.x (arith.add rect.x rect.w) bounds.x
    (arith.add bounds.x bounds.w) minW maxW marginX dx
  let (top, bottom) ← arith.draggedEdges corner.top rect.y (arith.add rect.y rect.h) bounds.y
    (arith.add bounds.y bounds.h) minH maxH marginY dy
  return {
    x := left
    y := top
    w := (arith.sub right left).max .one
    h := (arith.sub bottom top).max .one }

end Arithmetic

section exactly

theorem F32.clampOrPanic_finite (value : Rat) {low high : Rat} (ordered : low ≤ high) :
    (F32.finite value).clampOrPanic (.finite low) (.finite high) =
      some (.finite (Max.max low (Min.min value high))) := by
  rw [F32.clampOrPanic, F32.le_finite, if_pos (decide_eq_true ordered),
    F32.clamp_finite value ordered]

theorem F32.clampOrPanic_between (value : Rat) {low high : Rat} (ordered : low ≤ high) :
    ∃ result, (F32.finite value).clampOrPanic (.finite low) (.finite high) =
      some (.finite result) ∧ low ≤ result ∧ result ≤ high :=
  ⟨_, F32.clampOrPanic_finite value ordered, le_max_left _ _,
    max_le ordered (min_le_right _ _)⟩

theorem Arithmetic.exact_add (a b : Rat) :
    exact.add (.finite a) (.finite b) = .finite (a + b) := rfl

theorem Arithmetic.exact_sub (a b : Rat) :
    exact.sub (.finite a) (.finite b) = .finite (a - b) := by
  rw [sub_eq_add_neg]
  rfl

def visibleMargin (length : Rat) : Rat := min 6 length

/-- A floating pane along an axis: neither too small nor too large for the bounds, and neither side
of the bounds is closer than the margin to the pane's other side. -/
structure Grabbable (origin length least start size : Rat) : Prop where
  smallest : min length least ≤ size
  largest : size ≤ length
  finish : origin + visibleMargin length ≤ start + size
  start : start ≤ origin + length - visibleMargin length

variable {origin length least start size : Rat}

def clampedSize (length least size : Rat) : Rat := max (min length least) (min (max size 1) length)

/-- The place `clamp_floating_rect` gives a pane of that size. -/
def clampedStart (origin length start size : Rat) : Rat :=
  max (origin + min 6 size - size) (min start (origin + length - min 6 size))

theorem clampedSize_within (length least size : Rat) :
    min length least ≤ clampedSize length least size ∧ clampedSize length least size ≤ length :=
  ⟨le_max_left _ _, max_le (min_le_left _ _) (min_le_right _ _)⟩

theorem margin_of_size (roomy : 6 ≤ least) (smallest : min length least ≤ size)
    (largest : size ≤ length) : min 6 size = visibleMargin length := by
  unfold visibleMargin
  rcases le_total 6 length with long | short
  · have : 6 ≤ min length least := le_min long roomy
    rw [min_eq_left (this.trans smallest), min_eq_left long]
  · have whole : min length least = length := min_eq_left (short.trans roomy)
    rw [whole] at smallest
    rw [le_antisymm largest smallest]

theorem clampedStart_grabbable (roomy : 6 ≤ least) (smallest : min length least ≤ size)
    (largest : size ≤ length) :
    Grabbable origin length least (clampedStart origin length start size) size := by
  have margin := margin_of_size roomy smallest largest
  have short : visibleMargin length ≤ length := min_le_right _ _
  have within : visibleMargin length ≤ size := margin ▸ min_le_right _ _
  refine ⟨smallest, largest, ?_, ?_⟩
  · have low : origin + min 6 size - size ≤ clampedStart origin length start size :=
      le_max_left _ _
    rw [margin] at low
    linarith
  · unfold clampedStart
    rw [margin]
    exact max_le (by linarith) (min_le_right _ _)

theorem margin_finite (roomy : 6 ≤ least) (positive : 1 ≤ length) :
    offscreenMinVisible.min (((F32.finite length).max .one).min (.finite least)) =
      .finite (visibleMargin length) := by
  have within : min 6 length ≤ least := (min_le_left _ _).trans roomy
  simp only [offscreenMinVisible, F32.one, F32.max_finite, F32.min_finite, max_eq_left positive,
    visibleMargin]
  rw [← min_assoc, min_eq_left within]

theorem clampedSize_finite (positive : 1 ≤ length) :
    ((F32.finite size).max .one).clampOrPanic (((F32.finite length).max .one).min (.finite least))
        ((F32.finite length).max .one) = some (.finite (clampedSize length least size)) := by
  simp only [F32.one, F32.max_finite, F32.min_finite, max_eq_left positive]
  exact F32.clampOrPanic_finite _ (min_le_left _ _)

theorem clampedStart_finite (roomy : 6 ≤ least) (smallest : min length least ≤ size)
    (largest : size ≤ length) :
    (F32.finite start).clampOrPanic
        ((Arithmetic.exact.sub (Arithmetic.exact.add (.finite origin)
          (offscreenMinVisible.min (.finite size))) (.finite size)).min
          (Arithmetic.exact.sub (Arithmetic.exact.add (.finite origin) (.finite length))
            (offscreenMinVisible.min (.finite size))))
        ((Arithmetic.exact.sub (Arithmetic.exact.add (.finite origin) (.finite length))
          (offscreenMinVisible.min (.finite size))).max
          (Arithmetic.exact.sub (Arithmetic.exact.add (.finite origin)
            (offscreenMinVisible.min (.finite size))) (.finite size))) =
      some (.finite (clampedStart origin length start size)) := by
  have margin := margin_of_size roomy smallest largest
  have short : visibleMargin length ≤ length := min_le_right _ _
  have within : visibleMargin length ≤ size := margin ▸ min_le_right _ _
  have ordered : origin + min 6 size - size ≤ origin + length - min 6 size := by
    rw [margin]
    linarith
  simp only [offscreenMinVisible, F32.min_finite, F32.max_finite, Arithmetic.exact_add,
    Arithmetic.exact_sub, min_eq_left ordered, max_eq_left ordered]
  exact F32.clampOrPanic_finite _ ordered

theorem Grabbable.clamped (roomy : 6 ≤ least) (positive : 1 ≤ length)
    (held : Grabbable origin length least start size) :
    clampedSize length least size = size ∧ clampedStart origin length start size = start := by
  have above : 1 ≤ size := (le_min positive (by linarith)).trans held.smallest
  have margin := margin_of_size roomy held.smallest held.largest
  constructor
  · rw [clampedSize, max_eq_left above, min_eq_left held.largest, max_eq_right held.smallest]
  · have low : origin + visibleMargin length - size ≤ start := by linarith [held.finish]
    rw [clampedStart, margin, min_eq_left held.start, max_eq_right low]

theorem draggedStart_grabbable (held : Grabbable origin length least start size) (delta : Rat) :
    ∃ edge, Arithmetic.exact.draggedStart (.finite start) (.finite (start + size)) (.finite origin)
        (.finite (origin + length)) (.finite (min length least)) (.finite length)
        (.finite (visibleMargin length)) (.finite delta) = some (.finite edge) ∧
      Grabbable origin length least edge (start + size - edge) ∧ min origin start ≤ edge := by
  rcases held with ⟨smallest, largest, finish, before⟩
  have short : min length least ≤ length := min_le_left _ _
  simp only [Arithmetic.draggedStart, Arithmetic.exact_add, Arithmetic.exact_sub, F32.min_finite,
    F32.max_finite]
  have kept : start ≤ min (start + size - min length least)
      (origin + length - visibleMargin length) := le_min (by linarith) before
  have roomy : start + size - length ≤ min (start + size - min length least)
      (origin + length - visibleMargin length) := le_min (by linarith) (by linarith)
  rcases F32.clampOrPanic_between (start + delta) (min_le_right
    (max (min origin start) (start + size - length))
    (min (start + size - min length least) (origin + length - visibleMargin length))) with
    ⟨edge, same, low, high⟩
  refine ⟨edge, same, ⟨?_, ?_, by linarith, high.trans (min_le_right _ _)⟩, ?_⟩
  · linarith [high.trans (min_le_left _ _)]
  · linarith [(le_min (le_max_right (min origin start) _) roomy).trans low]
  · exact (le_min (le_max_left _ _) ((min_le_right _ _).trans kept)).trans low

theorem draggedFinish_grabbable (held : Grabbable origin length least start size) (delta : Rat) :
    ∃ edge, Arithmetic.exact.draggedFinish (.finite start) (.finite (start + size))
        (.finite origin) (.finite (origin + length)) (.finite (min length least)) (.finite length)
        (.finite (visibleMargin length)) (.finite delta) = some (.finite edge) ∧
      Grabbable origin length least start (edge - start) ∧
      edge ≤ max (origin + length) (start + size) := by
  rcases held with ⟨smallest, largest, finish, before⟩
  have short : min length least ≤ length := min_le_left _ _
  have kept : max (start + min length least) (origin + visibleMargin length) ≤ start + size :=
    max_le (by linarith) finish
  have roomy := kept.trans (by linarith : start + size ≤ start + length)
  simp only [Arithmetic.draggedFinish, Arithmetic.exact_add, F32.min_finite, F32.max_finite]
  rcases F32.clampOrPanic_between (start + size + delta) (le_max_right
    (min (max (origin + length) (start + size)) (start + length))
    (max (start + min length least) (origin + visibleMargin length))) with
    ⟨edge, same, low, high⟩
  refine ⟨edge, same, ⟨?_, ?_, ?_, before⟩, ?_⟩
  · linarith [(le_max_left _ _).trans low]
  · linarith [high.trans (max_le (min_le_right _ _) roomy)]
  · linarith [(le_max_right _ _).trans low]
  · exact high.trans (max_le (min_le_left _ _) (kept.trans (le_max_right _ _)))

/-- One axis of a drag: the pane stays grabbable, the edge that is not dragged stays where it is, and
neither goes further out of the bounds than it was. -/
theorem draggedEdges_grabbable (grabsStart : Bool)
    (held : Grabbable origin length least start size) (delta : Rat) :
    ∃ first last, Arithmetic.exact.draggedEdges grabsStart (.finite start)
        (.finite (start + size)) (.finite origin) (.finite (origin + length))
        (.finite (min length least)) (.finite length) (.finite (visibleMargin length))
        (.finite delta) = some (.finite first, .finite last) ∧
      Grabbable origin length least first (last - first) ∧
      (if grabsStart then last = start + size else first = start) ∧
      min origin start ≤ first ∧ last ≤ max (origin + length) (start + size) := by
  cases grabsStart with
  | true =>
      rcases draggedStart_grabbable held delta with ⟨edge, same, still, out⟩
      refine ⟨edge, start + size, ?_, still, rfl, out, le_max_right _ _⟩
      rw [Arithmetic.draggedEdges, if_pos rfl, same]
      rfl
  | false =>
      rcases draggedFinish_grabbable held delta with ⟨edge, same, still, out⟩
      refine ⟨start, edge, ?_, still, rfl, min_le_right _ _, out⟩
      rw [Arithmetic.draggedEdges, if_neg Bool.false_ne_true, same]
      rfl

end exactly

structure RatRect where
  x : Rat
  y : Rat
  w : Rat
  h : Rat

namespace RatRect

def rect (area : RatRect) : FloatRect where
  x := .finite area.x
  y := .finite area.y
  w := .finite area.w
  h := .finite area.h

def clamped (area bounds : RatRect) : RatRect where
  x := clampedStart bounds.x bounds.w area.x (clampedSize bounds.w 18 area.w)
  y := clampedStart bounds.y bounds.h area.y (clampedSize bounds.h 6 area.h)
  w := clampedSize bounds.w 18 area.w
  h := clampedSize bounds.h 6 area.h

end RatRect

section resized

/-- Where no clamp panics, the result is that of `clamp_floating_rect`. -/
theorem clampFloatingRect_of_some {arith : Arithmetic} {rect bounds result : FloatRect}
    (unpanicked : arith.clampFloatingRectOrPanic rect bounds = some result) :
    arith.clampFloatingRect rect bounds = result := by
  have clamped : ∀ {value low high result : F32},
      value.clampOrPanic low high = some result → value.clamp low high = result := by
    intro value low high result same
    unfold F32.clampOrPanic at same
    split_ifs at same
    exact Option.some.inj same
  simp only [Arithmetic.clampFloatingRectOrPanic, Arithmetic.clampWindowSizeOrPanic,
    Option.bind_eq_bind, Option.bind_eq_some_iff, Option.pure_def, Option.some.injEq,
    Prod.exists, Prod.mk.injEq] at unpanicked
  rcases unpanicked with ⟨w, h, ⟨_, width, _, height, rfl, rfl⟩, x, left, y, top, rfl⟩
  simp only [Arithmetic.clampFloatingRect, Arithmetic.clampWindowSize, clamped width,
    clamped height, clamped left, clamped top]

variable (area : RatRect) {bounds : RatRect}

theorem clampFloatingRect_rat (wide : 1 ≤ bounds.w) (high : 1 ≤ bounds.h) :
    Arithmetic.exact.clampFloatingRectOrPanic area.rect bounds.rect =
      some (area.clamped bounds).rect := by
  have across := clampedSize_within bounds.w 18 area.w
  have down := clampedSize_within bounds.h 6 area.h
  simp only [Arithmetic.clampFloatingRectOrPanic, Arithmetic.clampWindowSizeOrPanic, RatRect.rect,
    clampedSize_finite wide, clampedSize_finite high, Option.bind_eq_bind, Option.bind_some,
    Option.pure_def]
  rw [clampedStart_finite (by norm_num) across.1 across.2]
  simp only [Option.bind_some]
  rw [clampedStart_finite (by norm_num) down.1 down.2]
  rfl

theorem clamped_of_grabbable (wide : 1 ≤ bounds.w) (high : 1 ≤ bounds.h) {placed : RatRect}
    (across : Grabbable bounds.x bounds.w 18 placed.x placed.w)
    (down : Grabbable bounds.y bounds.h 6 placed.y placed.h) :
    Arithmetic.exact.clampFloatingRect placed.rect bounds.rect = placed.rect := by
  rcases across.clamped (by norm_num) wide with ⟨width, left⟩
  rcases down.clamped (by norm_num) high with ⟨height, top⟩
  rw [clampFloatingRect_of_some (clampFloatingRect_rat placed wide high)]
  simp only [RatRect.clamped, width, left, height, top]

end resized

/-- A resized float stays grabbable: no clamp panics, a move would leave it where it is, the corner
opposite to the grabbed one stays put, and no edge goes further out of the bounds. -/
theorem resize_keeps_grabbable (area : RatRect) {bounds : RatRect} (wide : 1 ≤ bounds.w)
    (high : 1 ≤ bounds.h) (corner : ResizeCorner) (dx dy : Rat) :
    ∃ before after : RatRect,
      Arithmetic.exact.clampFloatingRect area.rect bounds.rect = before.rect ∧
      Arithmetic.exact.resizeFloatRectFromCorner area.rect corner (.finite dx) (.finite dy)
        bounds.rect = some after.rect ∧
      Arithmetic.exact.clampFloatingRect after.rect bounds.rect = after.rect ∧
      (if corner.left then after.x + after.w = before.x + before.w else after.x = before.x) ∧
      (if corner.top then after.y + after.h = before.y + before.h else after.y = before.y) ∧
      min bounds.x before.x ≤ after.x ∧
      after.x + after.w ≤ max (bounds.x + bounds.w) (before.x + before.w) ∧
      min bounds.y before.y ≤ after.y ∧
      after.y + after.h ≤ max (bounds.y + bounds.h) (before.y + before.h) := by
  have across := clampedSize_within bounds.w 18 area.w
  have down := clampedSize_within bounds.h 6 area.h
  have heldX : Grabbable bounds.x bounds.w 18 (area.clamped bounds).x (area.clamped bounds).w :=
    clampedStart_grabbable (by norm_num) across.1 across.2
  have heldY : Grabbable bounds.y bounds.h 6 (area.clamped bounds).y (area.clamped bounds).h :=
    clampedStart_grabbable (by norm_num) down.1 down.2
  have clamped := clampFloatingRect_rat area wide high
  rcases draggedEdges_grabbable corner.left heldX dx with
    ⟨left, right, edgesX, stillX, oppositeX, outLeft, outRight⟩
  rcases draggedEdges_grabbable corner.top heldY dy with
    ⟨top, bottom, edgesY, stillY, oppositeY, outTop, outBottom⟩
  have width : 1 ≤ right - left := (le_min wide (by norm_num)).trans stillX.smallest
  have height : 1 ≤ bottom - top := (le_min high (by norm_num)).trans stillY.smallest
  refine ⟨area.clamped bounds, ⟨left, top, right - left, bottom - top⟩,
    clampFloatingRect_of_some clamped, ?_, clamped_of_grabbable wide high stillX stillY, ?_, ?_,
    outLeft, ?_, outTop, ?_⟩
  · have mostX : (F32.finite bounds.w).max .one = .finite bounds.w := by
      rw [F32.one, F32.max_finite, max_eq_left wide]
    have mostY : (F32.finite bounds.h).max .one = .finite bounds.h := by
      rw [F32.one, F32.max_finite, max_eq_left high]
    have marginX : offscreenMinVisible.min (.finite (min bounds.w 18)) =
        .finite (visibleMargin bounds.w) := by
      rw [← F32.min_finite, ← mostX]
      exact margin_finite (by norm_num) wide
    have marginY : offscreenMinVisible.min (.finite (min bounds.h 6)) =
        .finite (visibleMargin bounds.h) := by
      rw [← F32.min_finite, ← mostY]
      exact margin_finite (by norm_num) high
    simp only [Arithmetic.resizeFloatRectFromCorner, clamped, Option.bind_eq_bind,
      Option.bind_some, Option.pure_def]
    simp only [RatRect.rect, mostX, mostY, F32.min_finite, marginX, marginY, Arithmetic.exact_add,
      edgesX, edgesY, Option.bind_some]
    simp only [Arithmetic.exact_sub, F32.one, F32.max_finite, max_eq_left width,
      max_eq_left height]
  · simp only [add_sub_cancel]
    exact oppositeX
  · simp only [add_sub_cancel]
    exact oppositeY
  · simp only [add_sub_cancel]
    exact outRight
  · simp only [add_sub_cancel]
    exact outBottom

theorem resize_keeps_grabbable_offscreen :
    ∃ after : RatRect,
      Arithmetic.exact.resizeFloatRectFromCorner (RatRect.mk 80 20 40 20).rect .lowerRight
        (.finite 5) (.finite 5) (RatRect.mk 0 0 100 30).rect = some after.rect ∧
      Arithmetic.exact.clampFloatingRect after.rect (RatRect.mk 0 0 100 30).rect = after.rect := by
  rcases resize_keeps_grabbable ⟨80, 20, 40, 20⟩ (show 1 ≤ (RatRect.mk 0 0 100 30).w by norm_num)
    (by norm_num) .lowerRight 5 5 with ⟨before, after, _, resized, fixed, _⟩
  exact ⟨after, resized, fixed⟩

end Rozi
