import Rozi.Layout.Cells

/-!
How a dwindle tree divides whole cells: what is between the two sides of every split, and where the
rectangles of the leaves lie.
-/

namespace Rozi

open SerializedTree F32

/-- A property of every division `allocate_dwindle` makes: its axis, the slot and the two sides. -/
def Divisions (arith : Arithmetic) (gap : TileGap)
    (holds : SplitAxis → FloatRect → FloatRect → FloatRect → Prop) :
    DwindleTree → FloatRect → Prop
  | leaf _, _ => True
  | split axis ratio first second, rect =>
      let rects := arith.splitFloatRect rect axis ratio gap
      holds axis rect rects.1 rects.2 ∧
        Divisions arith gap holds first rects.1 ∧ Divisions arith gap holds second rects.2

namespace Cells

structure Inside (part whole : Cells) : Prop where
  left : whole.x ≤ part.x
  right : part.x + part.w ≤ whole.x + whole.w
  top : whole.y ≤ part.y
  bottom : part.y + part.h ≤ whole.y + whole.h

def Apart (a b : Cells) : Prop :=
  a.x + a.w ≤ b.x ∨ b.x + b.w ≤ a.x ∨ a.y + a.h ≤ b.y ∨ b.y + b.h ≤ a.y

def count (area : Cells) : Int := area.w * area.h

def Sized (area : Cells) : Prop := 0 ≤ area.w ∧ 0 ≤ area.h

instance (area : Cells) : Decidable area.Sized := inferInstanceAs (Decidable (_ ∧ _))

/-- The two sides of a slot: the gap lies between them, and with it they fill the slot. -/
structure Spaced (gap : CellGap) (axis : SplitAxis) (slot first second : Cells) : Prop where
  start : first.start axis = slot.start axis
  apart : second.start axis =
    first.start axis + first.extent axis + usableGap (gap.forAxis axis) (slot.extent axis)
  whole : first.extent axis + usableGap (gap.forAxis axis) (slot.extent axis) +
    second.extent axis = slot.extent axis

theorem Inside.refl (area : Cells) : area.Inside area := ⟨le_rfl, le_rfl, le_rfl, le_rfl⟩

theorem Inside.trans {a b c : Cells} (first : a.Inside b) (second : b.Inside c) : a.Inside c :=
  ⟨second.left.trans first.left, first.right.trans second.right, second.top.trans first.top,
    first.bottom.trans second.bottom⟩

theorem Apart.inside {a b c d : Cells} (apart : a.Apart b) (first : c.Inside a)
    (second : d.Inside b) : c.Apart d := by
  obtain ⟨fl, fr, ft, fb⟩ := first
  obtain ⟨sl, sr, st, sb⟩ := second
  unfold Apart at *
  omega

section divided

variable {area : Cells} (axis : SplitAxis) (ratio : F32) (gap : CellGap)

theorem available_eq (sized : area.Sized) :
    area.available axis gap =
      area.extent axis - usableGap (gap.forAxis axis) (area.extent axis) ∧
    0 ≤ area.available axis gap := by
  have positive : 0 ≤ area.extent axis := by
    cases axis
    · exact sized.1
    · exact sized.2
  unfold available usableGap
  split_ifs <;> omega

/-- What `split_float_rect` says of the sides of a slot, all of it but their sizes. -/
theorem divide_sides (sized : area.Sized) :
    ∃ first second, 0 ≤ first ∧ 0 ≤ second ∧
      first + usableGap (gap.forAxis axis) (area.extent axis) + second = area.extent axis ∧
      area.divide axis ratio gap =
        (area.segment axis (area.start axis) first,
          area.segment axis
            (area.start axis + first + usableGap (gap.forAxis axis) (area.extent axis)) second) := by
  rcases available_eq axis gap sized with ⟨left, positive⟩
  rcases firstShare_within positive ratio with ⟨low, high⟩
  exact ⟨_, _, low, sub_nonneg.mpr high, by omega, rfl⟩

theorem divide_sized (sized : area.Sized) :
    (area.divide axis ratio gap).1.Sized ∧ (area.divide axis ratio gap).2.Sized := by
  rcases divide_sides axis ratio gap sized with ⟨first, second, low, high, _, same⟩
  rw [same]
  cases axis
  · exact ⟨⟨low, sized.2⟩, high, sized.2⟩
  · exact ⟨⟨sized.1, low⟩, sized.1, high⟩

theorem divide_spaced (sized : area.Sized) :
    Spaced gap axis area (area.divide axis ratio gap).1 (area.divide axis ratio gap).2 := by
  rcases divide_sides axis ratio gap sized with ⟨first, second, low, high, whole, same⟩
  rw [same]
  cases axis
  · exact ⟨rfl, rfl, whole⟩
  · exact ⟨rfl, rfl, whole⟩

/-- A gap that is left between the sides keeps both inside, and so does an overlap by one cell of
sides that are not empty. -/
theorem divide_inside (sized : area.Sized) (within : -1 ≤ gap.forAxis axis)
    (filled : gap.forAxis axis < 0 →
      1 ≤ (area.divide axis ratio gap).1.extent axis ∧
      1 ≤ (area.divide axis ratio gap).2.extent axis) :
    (area.divide axis ratio gap).1.Inside area ∧ (area.divide axis ratio gap).2.Inside area := by
  rcases divide_sides axis ratio gap sized with ⟨first, second, low, high, whole, same⟩
  rw [same] at filled ⊢
  have room : first ≤ area.extent axis ∧
      0 ≤ first + usableGap (gap.forAxis axis) (area.extent axis) := by
    have parts : gap.forAxis axis < 0 → 1 ≤ first ∧ 1 ≤ second := by
      cases axis
      · exact filled
      · exact filled
    unfold usableGap at whole ⊢
    split_ifs at whole ⊢ <;> omega
  cases axis
  · simp only [segment, extent, start] at *
    refine ⟨⟨le_rfl, ?_, le_rfl, le_rfl⟩, ?_, ?_, le_rfl, le_rfl⟩ <;> simp only <;> omega
  · simp only [segment, extent, start] at *
    refine ⟨⟨le_rfl, le_rfl, le_rfl, ?_⟩, le_rfl, le_rfl, ?_, ?_⟩ <;> simp only <;> omega

theorem divide_filled (merged : gap.forAxis axis = -1) (roomy : 2 ≤ area.extent axis) :
    1 ≤ (area.divide axis ratio gap).1.extent axis ∧
      1 ≤ (area.divide axis ratio gap).2.extent axis := by
  have left : area.available axis gap = area.extent axis + 1 := by
    unfold available usableGap
    rw [merged, if_pos (by omega)]
    omega
  rcases firstShare_inside (show 3 ≤ area.available axis gap by omega) ratio with
    ⟨low, high⟩
  cases axis
  · exact ⟨low, by simp only [divide, segment, extent]; omega⟩
  · exact ⟨low, by simp only [divide, segment, extent]; omega⟩

theorem divide_apart (sized : area.Sized) (flush : gap.forAxis axis = 0) :
    (area.divide axis ratio gap).1.Apart (area.divide axis ratio gap).2 ∧
      (area.divide axis ratio gap).1.count + (area.divide axis ratio gap).2.count =
        area.count := by
  rcases divide_sides axis ratio gap sized with ⟨first, second, low, high, whole, same⟩
  have none : usableGap (gap.forAxis axis) (area.extent axis) = 0 := by
    rw [usableGap, flush, ite_self]
  rw [none] at whole same
  rw [same]
  cases axis with
  | horizontal =>
      simp only [segment, extent, start, Apart, count, add_zero] at whole ⊢
      refine ⟨.inl le_rfl, ?_⟩
      rw [← add_mul, whole]
  | vertical =>
      simp only [segment, extent, start, Apart, count, add_zero] at whole ⊢
      refine ⟨.inr (.inr (.inl le_rfl)), ?_⟩
      rw [← mul_add, whole]

end divided

end Cells

open Cells

def placeCells (gap : CellGap) : DwindleTree → Cells → List (PaneId × Cells)
  | leaf id, area => [(id, area)]
  | split axis ratio first second, area =>
      placeCells gap first (area.divide axis ratio gap).1 ++
        placeCells gap second (area.divide axis ratio gap).2

theorem allocateDwindle_cells (gap : CellGap) (tree : DwindleTree) (area : Cells) :
    Arithmetic.exact.allocateDwindle tree area.rect gap.tileGap =
      (placeCells gap tree area).map fun placed => placeAt placed.1 placed.2.rect := by
  induction tree generalizing area with
  | leaf pane => rfl
  | split axis ratio first second hfirst hsecond =>
      simp only [Arithmetic.allocateDwindle, Arithmetic.splitFloatRect_cells, hfirst, hsecond,
        placeCells, List.map_append]

section placed

variable {gap : CellGap} {tree : DwindleTree} {area : Cells}

def NoSideEmpty (gap : CellGap) : DwindleTree → FloatRect → Prop :=
  Divisions .exact gap.tileGap fun axis _ first second =>
    (gap.tileGap.forAxis axis).lt .zero →
      F32.one.le (first.extent axis) ∧ F32.one.le (second.extent axis)

theorem divisions_split (holds : SplitAxis → FloatRect → FloatRect → FloatRect → Prop)
    (axis : SplitAxis) (ratio : F32) (first second : DwindleTree) (area : Cells) :
    Divisions .exact gap.tileGap holds (split axis ratio first second) area.rect ↔
      holds axis area.rect (area.divide axis ratio gap).1.rect
        (area.divide axis ratio gap).2.rect ∧
      Divisions .exact gap.tileGap holds first (area.divide axis ratio gap).1.rect ∧
      Divisions .exact gap.tileGap holds second (area.divide axis ratio gap).2.rect := by
  simp only [Divisions, Arithmetic.splitFloatRect_cells]

theorem placed_inside (sized : area.Sized) (within : ∀ axis, -1 ≤ gap.forAxis axis)
    (filled : NoSideEmpty gap tree area.rect) :
    ∀ placed ∈ placeCells gap tree area, placed.2.Inside area := by
  induction tree generalizing area with
  | leaf pane =>
      intro placed member
      rw [placeCells, List.mem_singleton] at member
      exact member ▸ Inside.refl area
  | split axis ratio first second hfirst hsecond =>
      rw [NoSideEmpty, divisions_split] at filled
      rcases filled with ⟨here, left, right⟩
      rcases divide_sized axis ratio gap sized with ⟨sizedFirst, sizedSecond⟩
      have sides := divide_inside axis ratio gap sized (within axis) fun overlap => by
        have parts := here (by
          rw [CellGap.tileGap_forAxis, zero_eq_cells, lt_cells]
          exact decide_eq_true overlap)
        simpa only [rect_extent, one_eq_cells, le_cells, decide_eq_true_eq] using parts
      intro placed member
      rcases List.mem_append.mp member with low | high
      · exact (hfirst sizedFirst left placed low).trans sides.1
      · exact (hsecond sizedSecond right placed high).trans sides.2

theorem noSideEmpty_of_flush (within : ∀ axis, 0 ≤ gap.forAxis axis) (rect : FloatRect) :
    NoSideEmpty gap tree rect := by
  unfold NoSideEmpty
  induction tree generalizing rect with
  | leaf pane => trivial
  | split axis ratio first second hfirst hsecond =>
      refine ⟨fun overlap => ?_, hfirst _, hsecond _⟩
      rw [CellGap.tileGap_forAxis, zero_eq_cells, lt_cells, decide_eq_true_eq] at overlap
      exact absurd (within axis) (not_le.mpr overlap)

theorem noSideEmpty_of_roomy (within : ∀ axis, -1 ≤ gap.forAxis axis)
    (roomy : Divisions .exact gap.tileGap
      (fun axis slot _ _ => (gap.tileGap.forAxis axis).lt .zero →
        (F32.cells 2).le (slot.extent axis)) tree area.rect) :
    NoSideEmpty gap tree area.rect := by
  induction tree generalizing area with
  | leaf pane => trivial
  | split axis ratio first second hfirst hsecond =>
      rw [divisions_split] at roomy
      rw [NoSideEmpty, divisions_split]
      refine ⟨fun overlap => ?_, hfirst roomy.2.1, hsecond roomy.2.2⟩
      have wide := roomy.1 overlap
      rw [CellGap.tileGap_forAxis, zero_eq_cells, lt_cells, decide_eq_true_eq] at overlap
      simp only [rect_extent, one_eq_cells, le_cells, decide_eq_true_eq] at wide ⊢
      exact divide_filled axis ratio gap (by have := within axis; omega) wide

theorem placed_flush (sized : area.Sized) (flush : ∀ axis, gap.forAxis axis = 0) :
    (placeCells gap tree area).Pairwise (fun a b => a.2.Apart b.2) ∧
      ((placeCells gap tree area).map fun placed => placed.2.count).sum = area.count := by
  induction tree generalizing area with
  | leaf pane => exact ⟨List.pairwise_singleton _ _, by simp [placeCells]⟩
  | split axis ratio first second hfirst hsecond =>
      rcases divide_sized axis ratio gap sized with ⟨sizedFirst, sizedSecond⟩
      rcases divide_apart axis ratio gap sized (flush axis) with ⟨apart, counts⟩
      rcases hfirst sizedFirst with ⟨pairsFirst, sumFirst⟩
      rcases hsecond sizedSecond with ⟨pairsSecond, sumSecond⟩
      have flush' : ∀ axis, 0 ≤ gap.forAxis axis := fun axis => (flush axis).ge
      have within : ∀ axis, -1 ≤ gap.forAxis axis := fun axis => by
        have := flush' axis
        omega
      constructor
      · rw [placeCells, List.pairwise_append]
        refine ⟨pairsFirst, pairsSecond, fun a memberA b memberB => ?_⟩
        exact apart.inside
          (placed_inside sizedFirst within (noSideEmpty_of_flush flush' _) a memberA)
          (placed_inside sizedSecond within (noSideEmpty_of_flush flush' _) b memberB)
      · rw [placeCells, List.map_append, List.sum_append, sumFirst, sumSecond, counts]

theorem divisions_spaced (sized : area.Sized) :
    Divisions .exact gap.tileGap (fun axis slot first second => ∃ whole a b : Cells,
      slot = whole.rect ∧ first = a.rect ∧ second = b.rect ∧ Spaced gap axis whole a b)
      tree area.rect := by
  induction tree generalizing area with
  | leaf pane => trivial
  | split axis ratio first second hfirst hsecond =>
      rcases divide_sized axis ratio gap sized with ⟨sizedFirst, sizedSecond⟩
      rw [divisions_split]
      exact ⟨⟨area, _, _, rfl, rfl, rfl, divide_spaced axis ratio gap sized⟩, hfirst sizedFirst,
        hsecond sizedSecond⟩

end placed

/-- Tiling partitions the bounds. An overlapping gap can push an empty side of a one-cell slot out of
them, and only such a side. -/
theorem dwindle_partitions (tree : DwindleTree) {bounds : Cells} (sized : bounds.Sized)
    {gap : CellGap} (within : ∀ axis, gap.forAxis axis ∈ [-1, 0, 1]) :
    ∃ placed : List (PaneId × Cells),
      Arithmetic.exact.allocateDwindle tree bounds.rect gap.tileGap =
        placed.map (fun leaf => placeAt leaf.1 leaf.2.rect) ∧
      (NoSideEmpty gap tree bounds.rect → ∀ leaf ∈ placed, leaf.2.Inside bounds) ∧
      ((∀ axis, 0 ≤ gap.forAxis axis) → ∀ leaf ∈ placed, leaf.2.Inside bounds) ∧
      (Divisions .exact gap.tileGap (fun axis slot _ _ => (gap.tileGap.forAxis axis).lt .zero →
          (F32.cells 2).le (slot.extent axis)) tree bounds.rect →
        ∀ leaf ∈ placed, leaf.2.Inside bounds) ∧
      ((∀ axis, gap.forAxis axis = 0) →
        placed.Pairwise (fun a b => a.2.Apart b.2) ∧
        (placed.map fun leaf => leaf.2.count).sum = bounds.count) ∧
      Divisions .exact gap.tileGap (fun axis slot first second => ∃ whole a b : Cells,
        slot = whole.rect ∧ first = a.rect ∧ second = b.rect ∧ Spaced gap axis whole a b)
        tree bounds.rect := by
  have low : ∀ axis, -1 ≤ gap.forAxis axis := by
    intro axis
    have listed := within axis
    simp only [List.mem_cons, List.not_mem_nil, or_false] at listed
    omega
  exact ⟨placeCells gap tree bounds, allocateDwindle_cells gap tree bounds,
    placed_inside sized low,
    fun flush => placed_inside sized low (noSideEmpty_of_flush flush _),
    fun roomy => placed_inside sized low (noSideEmpty_of_roomy low roomy),
    placed_flush sized, divisions_spaced sized⟩

theorem dwindle_partitions_pair :
    ∃ placed : List (PaneId × Cells),
      Arithmetic.exact.allocateDwindle
          (split .horizontal (.finite (1 / 5)) (leaf 1) (leaf 2)) (Cells.mk 0 0 10 4).rect
          (CellGap.mk 1 1).tileGap =
        placed.map (fun leaf => placeAt leaf.1 leaf.2.rect) ∧
      ∀ leaf ∈ placed, leaf.2.Inside ⟨0, 0, 10, 4⟩ := by
  rcases dwindle_partitions (split .horizontal (.finite (1 / 5)) (leaf 1) (leaf 2))
    (show (Cells.mk 0 0 10 4).Sized by decide)
    (show ∀ axis, (CellGap.mk 1 1).forAxis axis ∈ [-1, 0, 1] by intro axis; cases axis <;> decide)
    with ⟨placed, same, _, inside, _⟩
  exact ⟨placed, same, inside (by intro axis; cases axis <;> decide)⟩

/-- A fifth of the two cells an overlapping slot of one cell has rounds to none, and the other side
starts before the slot. -/
theorem dwindle_overlap_outside :
    ∃ placed : List (PaneId × Cells),
      Arithmetic.exact.allocateDwindle
          (split .horizontal (.finite (1 / 5)) (leaf 1) (leaf 2)) (Cells.mk 0 0 1 1).rect
          (CellGap.mk (-1) (-1)).tileGap =
        placed.map (fun leaf => placeAt leaf.1 leaf.2.rect) ∧
      ∃ leaf ∈ placed, ¬leaf.2.Inside ⟨0, 0, 1, 1⟩ := by
  refine ⟨_, allocateDwindle_cells _ _ _, (2, ⟨-1, 0, 2, 1⟩), by decide +kernel, ?_⟩
  exact fun inside => absurd inside.left (by decide)

end Rozi
