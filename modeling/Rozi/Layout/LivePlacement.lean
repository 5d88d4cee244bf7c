import Rozi.Layout.Live

/-!
The document places panes where the live workspace does: every read of the layout engine, made of
the projection, answers as it does on the workspace.
-/

namespace Rozi

open SerializedTree

section reads

variable (arith : Arithmetic) (index : Nat) (workspace : Workspace) (cols rows : Nat)

theorem activeTiledIds_sublist :
    workspace.activeTiledIds.Sublist (workspace.livePanes.map Pane.id) := by
  have tiled : workspace.activeTiledIds =
      (workspace.livePanes.filter fun pane => !pane.floating).map Pane.id := by
    rw [Workspace.livePanes, List.filter_filter]
    rfl
  rw [tiled]
  exact List.filter_sublist.map Pane.id

theorem activeTiledIds_nodup {workspace : Workspace} (distinct : workspace.paneIds.Nodup) :
    workspace.activeTiledIds.Nodup :=
  distinct.sublist (List.filter_sublist.map Pane.id)

theorem mem_effectiveTileTree {workspace : Workspace} (distinct : workspace.paneIds.Nodup)
    {id : PaneId} :
    id ∈ leavesOf workspace.effectiveTileTree ↔ id ∈ workspace.activeTiledIds := by
  have tiled : workspace.tileSource.tiledIdsByPaneOrder.Nodup := activeTiledIds_nodup distinct
  rw [Workspace.effectiveTileTree, TileSource.leavesOf_effectiveTileTree tiled,
    TileSource.mem_orderDrivenIds tiled]
  simp [Workspace.tileSource]

theorem projected_storedTileTree {workspace : Workspace} (distinct : workspace.paneIds.Nodup) :
    (sharedWorkspaceFromState arith index workspace cols rows).storedTileTree =
      workspace.effectiveTileTree := by
  rw [SharedWorkspace.storedTileTree, projected_tree, projected_paneIds]
  cases settled : workspace.effectiveTileTree with
  | none => rfl
  | some tree =>
      apply dwindleFromShared_whole
      intro id leaf
      apply (activeTiledIds_sublist workspace).subset
      rw [← mem_effectiveTileTree distinct, settled]
      exact leaf

theorem projected_effectiveTileTree {workspace : Workspace}
    (distinct : workspace.paneIds.Nodup) :
    ((sharedWorkspaceFromState arith index workspace cols rows).tileSource arith cols
      rows).effectiveTileTree none = workspace.effectiveTileTree := by
  have settled : ∀ id,
      id ∈ leavesOf workspace.effectiveTileTree ↔ id ∈ workspace.activeTiledIds :=
    fun _ => mem_effectiveTileTree distinct
  simp only [TileSource.effectiveTileTree, SharedWorkspace.tileSource, projected_tiledIds,
    projected_storedTileTree arith index cols rows distinct]
  cases stored : workspace.effectiveTileTree with
  | none =>
      rw [stored] at settled
      have none : workspace.activeTiledIds = [] :=
        List.eq_nil_iff_forall_not_mem.mpr fun id member => by
          simpa [leavesOf] using (settled id).mpr member
      simp [none, effectiveTileTree]
  | some tree =>
      rw [stored] at settled
      exact effectiveTileTree_whole settled _ _

theorem projected_orderDrivenIds {workspace : Workspace} (distinct : workspace.paneIds.Nodup) :
    ((sharedWorkspaceFromState arith index workspace cols rows).tileSource arith cols
      rows).orderDrivenIds none = workspace.tileSource.orderDrivenIds none := by
  have tiled := activeTiledIds_nodup distinct
  rw [← TileSource.leavesOf_effectiveTileTree, ← TileSource.leavesOf_effectiveTileTree,
    projected_effectiveTileTree arith index cols rows distinct]
  · rfl
  · exact tiled
  · simp only [SharedWorkspace.tileSource, projected_tiledIds]
    exact tiled

theorem find?_key_of_mem {α β : Type} [BEq β] [LawfulBEq β] {key : α → β} {items : List α}
    (distinct : (items.map key).Nodup) {item : α} (member : item ∈ items) :
    items.find? (key · == key item) = some item := by
  cases search : items.find? (key · == key item) with
  | none => simpa using List.find?_eq_none.mp search item member
  | some other =>
      have same : key other = key item := by simpa using List.find?_some search
      rw [List.inj_on_of_nodup_map distinct (List.mem_of_find?_eq_some search) member same]

theorem projected_scrollableWidth {workspace : Workspace} (distinct : workspace.paneIds.Nodup)
    {id : PaneId} (tiled : id ∈ workspace.activeTiledIds) :
    ((sharedWorkspaceFromState arith index workspace cols rows).tileSource arith cols
      rows).scrollableWidth id =
        sanitizeScrollableWidth (workspace.tileSource.scrollableWidth id) := by
  rcases List.mem_map.mp tiled with ⟨pane, active, rfl⟩
  rcases List.mem_filter.mp active with ⟨member, shown⟩
  simp only [Bool.and_eq_true] at shown
  have live : pane ∈ workspace.livePanes := List.mem_filter.mpr ⟨member, shown.2⟩
  have projected : (sharedWorkspaceFromState arith index workspace cols rows).panes.find?
      (·.paneId == pane.id) = some (sharedPaneFromState arith cols rows pane) := by
    have unique : (sharedWorkspaceFromState arith index workspace cols rows).paneIds.Nodup := by
      rw [projected_paneIds]
      exact distinct.sublist (List.filter_sublist.map Pane.id)
    have held : sharedPaneFromState arith cols rows pane ∈
        (sharedWorkspaceFromState arith index workspace cols rows).panes :=
      List.mem_map_of_mem live
    exact find?_key_of_mem unique held
  have found : workspace.panes.find? (·.id == pane.id) = some pane :=
    find?_key_of_mem distinct member
  simp only [SharedWorkspace.tileSource, Workspace.tileSource, projected, found]
  rfl

theorem projected_floating :
    ((sharedWorkspaceFromState .exact index workspace cols rows).tileSource .exact cols
      rows).floating = workspace.tileSource.floating := by
  simp only [SharedWorkspace.tileSource, Workspace.tileSource, sharedWorkspaceFromState,
    List.filter_map, List.filterMap_map, List.filter_filter]
  rw [← List.filterMap_eq_map]
  apply List.filterMap_congr
  intro pane member
  have floating : pane.floating = true := by
    have shown := (List.mem_filter.mp member).2
    simp only [Bool.and_eq_true] at shown
    exact shown.1
  simp [sharedPaneFromState, floating, fracRectToFloat_floatRectToFrac]

end reads

section strip

theorem sanitizeScrollableWidth_idem (width : F32) :
    sanitizeScrollableWidth (sanitizeScrollableWidth width) = sanitizeScrollableWidth width := by
  have ordered : minSplitRatio ≤ maxSplitRatio := by norm_num [minSplitRatio, maxSplitRatio]
  have standard : sanitizeScrollableWidth defaultScrollableWidth = defaultScrollableWidth := by
    decide +kernel
  cases width with
  | finite value =>
      simp only [sanitizeScrollableWidth, F32.clamp_finite _ ordered]
      congr 1
      rw [min_eq_left (max_le ordered (min_le_right _ _)), max_eq_right (le_max_left _ _)]
  | posInfinity => exact standard
  | negInfinity => exact standard
  | nan => exact standard

variable (arith : Arithmetic)

theorem scrollableAllocatedWidths_sanitized (panes : List (PaneId × F32)) (viewportW gap : F32) :
    arith.scrollableAllocatedWidths
        (panes.map fun pane => (pane.1, sanitizeScrollableWidth pane.2)) viewportW gap =
      arith.scrollableAllocatedWidths panes viewportW gap := by
  have bases : ∀ width, (panes.map fun pane => (pane.1, sanitizeScrollableWidth pane.2)).map
      (fun pane => arith.scrollableColumnWidth width pane.2) =
        panes.map fun pane => arith.scrollableColumnWidth width pane.2 := by
    intro width
    rw [List.map_map]
    apply List.map_congr_left
    intro pane _
    simp only [Function.comp_apply, Arithmetic.scrollableColumnWidth, sanitizeScrollableWidth_idem]
  simp only [Arithmetic.scrollableAllocatedWidths, bases]

theorem mapIdx_map {α β γ : Type} (items : List α) (change : α → β) (view : Nat → β → γ) :
    (items.map change).mapIdx view = items.mapIdx fun index item => view index (change item) := by
  apply List.ext_getElem?
  intro index
  simp only [List.getElem?_mapIdx, List.getElem?_map, Option.map_map]
  rfl

theorem allocateScrollable_sanitized (panes : List (PaneId × F32)) (layout visible : FloatRect)
    (gap : TileGap) (anchor : Option PaneId) (revealEdge : ScrollableRevealEdge) :
    arith.allocateScrollableWithVisible
        (panes.map fun pane => (pane.1, sanitizeScrollableWidth pane.2)) layout visible gap anchor
        revealEdge =
      arith.allocateScrollableWithVisible panes layout visible gap anchor revealEdge := by
  unfold Arithmetic.allocateScrollableWithVisible Arithmetic.scrollableScroll
  simp only [scrollableAllocatedWidths_sanitized, List.isEmpty_map, List.findIdx?_map,
    mapIdx_map]
  rfl

/-- Within the strip's bounds, whatever would scroll before its start scrolls to it. -/
theorem clamp_before {desired : Rat} (before : desired ≤ 0) {scrollMax : F32}
    (range : scrollMax = .nan ∨ F32.zero.le scrollMax = true) :
    (F32.finite desired).clamp (F32.zero.min scrollMax) (scrollMax.max .zero) = .zero := by
  cases scrollMax with
  | finite value =>
      have above : 0 ≤ value := by simpa [F32.zero, F32.le] using range
      rw [F32.zero, F32.min_finite, F32.max_finite, min_eq_left above, max_eq_left above,
        F32.clamp_finite _ above, min_eq_left (before.trans above), max_eq_left before]
  | posInfinity =>
      rcases before.lt_or_eq with below | rfl
      · simp [F32.clamp, F32.min, F32.max, F32.zero, F32.lt, F32.le, below, below.le]
      · simp [F32.clamp, F32.min, F32.max, F32.zero, F32.lt, F32.le]
  | negInfinity => simp [F32.zero, F32.le] at range
  | nan =>
      have none : F32.zero.min .nan = .finite 0 := rfl
      have none' : F32.nan.max .zero = .finite 0 := rfl
      rw [none, none', F32.clamp_finite _ le_rfl, min_eq_left before, max_eq_left before]
      rfl

/-- How far a reveal edge would scroll a strip that shows its first column, `width` wide, in a view
`view` wide. -/
def revealOffset (view width : Rat) : ScrollableRevealEdge → Rat
  | .left => 0
  | .right => width - view
  | .leftOffset cells => -cells

theorem scrollableScroll_first {panes : List (PaneId × F32)} {bounds : FloatRect} {view : Rat}
    (x : bounds.x = .zero) (w : bounds.w = .finite view) (wide : 1 ≤ view)
    {edge : ScrollableRevealEdge} {widths starts : List F32} {width : Rat}
    (first : widths.getD 0 .zero = .finite width) (start : starts.getD 0 .zero = .zero)
    (before : revealOffset view width edge ≤ 0) :
    Arithmetic.exact.scrollableScroll panes bounds bounds (panes.head?.map Prod.fst) edge widths
      starts = .zero := by
  have anchor : ((panes.head?.map Prod.fst).bind fun id =>
      panes.findIdx? fun pane => pane.1 == id).getD 0 = 0 := by
    cases panes with
    | nil => rfl
    | cons pane rest => simp [List.findIdx?_cons]
  have right : Arithmetic.exact.add bounds.x (bounds.w.max .one) = .finite view := by
    rw [x, w, F32.one, F32.max_finite, max_eq_left wide]
    simp [Arithmetic.exact, F32.zero, F32.add]
  have length : (Arithmetic.exact.sub (.finite view) bounds.x).max .one = .finite view := by
    rw [x]
    simp only [Arithmetic.exact, F32.zero, F32.neg, F32.add, neg_zero, add_zero]
    rw [F32.one, F32.max_finite, max_eq_left wide]
  have origin : Arithmetic.exact.sub bounds.x bounds.x = .zero := by
    simp [x, Arithmetic.exact, F32.zero, F32.neg, F32.add]
  unfold Arithmetic.scrollableScroll
  simp only [anchor, right, length, start, first]
  split_ifs with short
  · exact origin
  · rw [origin]
    have range : Arithmetic.exact.sub (Arithmetic.exact.add bounds.x (starts.getLastD .zero))
        (.finite view) = .nan ∨
        F32.zero.le (Arithmetic.exact.sub (Arithmetic.exact.add bounds.x (starts.getLastD .zero))
          (.finite view)) = true := by
      rw [x]
      cases strip : starts.getLastD .zero with
      | finite length =>
          rw [strip] at short
          simp only [Arithmetic.exact, F32.add, F32.le, decide_eq_true_eq, not_le] at short
          simp only [Arithmetic.exact, F32.zero, F32.add, F32.neg, F32.le, decide_eq_true_eq]
          right
          linarith
      | posInfinity => exact .inr rfl
      | negInfinity =>
          rw [strip] at short
          exact absurd rfl short
      | nan => exact .inl rfl
    cases edge with
    | left =>
        have desired : Arithmetic.exact.sub (Arithmetic.exact.add bounds.x .zero) bounds.x =
            .finite 0 := by simp [x, Arithmetic.exact, F32.zero, F32.neg, F32.add]
        rw [desired]
        exact clamp_before le_rfl range
    | right =>
        have desired : Arithmetic.exact.sub
            (Arithmetic.exact.add bounds.x (Arithmetic.exact.add .zero (.finite width)))
            (.finite view) = .finite (width - view) := by
          simp [x, Arithmetic.exact, F32.zero, F32.neg, F32.add, sub_eq_add_neg]
        rw [desired]
        exact clamp_before before range
    | leftOffset cells =>
        have desired : Arithmetic.exact.sub (Arithmetic.exact.sub
            (Arithmetic.exact.add bounds.x .zero) bounds.x) (Arithmetic.exact.ofInt cells) =
            .finite (-cells) := by
          simp [x, Arithmetic.exact, F32.zero, F32.neg, F32.add]
        simp only [desired]
        exact clamp_before before range

theorem sanitizeScrollableWidth_finite (width : F32) :
    ∃ value, sanitizeScrollableWidth width = .finite value := by
  have ordered : minSplitRatio ≤ maxSplitRatio := by norm_num [minSplitRatio, maxSplitRatio]
  cases width with
  | finite value => exact ⟨_, F32.clamp_finite value ordered⟩
  | posInfinity => exact ⟨_, rfl⟩
  | negInfinity => exact ⟨_, rfl⟩
  | nan => exact ⟨_, rfl⟩

/-- A column is no wider than the view, which is a whole number of cells. -/
theorem scrollableColumnWidth_within {n : Nat} (positive : 1 ≤ n) (share : F32) :
    ∃ width : Rat, Arithmetic.exact.scrollableColumnWidth (.finite n) share = .finite width ∧
      0 ≤ width ∧ width ≤ n := by
  have wide : (1 : Rat) ≤ n := by exact_mod_cast positive
  rcases sanitizeScrollableWidth_finite share with ⟨ratio, sanitized⟩
  have lowest : ((⌈minSplitRatio * (n : Rat)⌉ : Int) : Rat) ≤ n := by
    have fifth : minSplitRatio * (n : Rat) ≤ ((n : Int) : Rat) := by
      push_cast
      have less : minSplitRatio ≤ 1 := by norm_num [minSplitRatio]
      exact mul_le_of_le_one_left (by linarith) less
    exact_mod_cast Int.ceil_le.mpr fifth
  have highest : ((⌊maxSplitRatio * (n : Rat)⌋ : Int) : Rat) ≤ n := by
    have less : maxSplitRatio ≤ 1 := by norm_num [maxSplitRatio]
    exact (Int.floor_le _).trans (mul_le_of_le_one_left (by linarith) less)
  have low : (1 : Rat) ≤ Max.max ((⌈minSplitRatio * (n : Rat)⌉ : Int) : Rat) 1 := le_max_right _ _
  have ordered := le_max_right ((⌊maxSplitRatio * (n : Rat)⌋ : Int) : Rat)
    (Max.max ((⌈minSplitRatio * (n : Rat)⌉ : Int) : Rat) 1)
  unfold Arithmetic.scrollableColumnWidth
  simp only [sanitized, F32.one, F32.max_finite, max_eq_left wide, Arithmetic.exact, F32.mul,
    F32.toWhole, F32.clamp_finite _ ordered, F32.finite.injEq, exists_eq_left']
  constructor
  · exact le_max_of_le_left (by linarith)
  · apply max_le
    · exact max_le lowest wide
    · exact (min_le_right _ _).trans (max_le highest (max_le lowest wide))

theorem scrollableAllocatedWidths_first {n : Nat} (positive : 1 ≤ n) {panes : List (PaneId × F32)}
    (shown : panes ≠ []) : ∃ width : Rat,
      (Arithmetic.exact.scrollableAllocatedWidths panes (.finite n) .zero).getD 0 .zero =
        .finite width ∧ width ≤ n := by
  have wide : (1 : Rat) ≤ n := by exact_mod_cast positive
  have view : (F32.finite n).max .one = .finite n := by
    rw [F32.one, F32.max_finite, max_eq_left wide]
  unfold Arithmetic.scrollableAllocatedWidths
  simp only [view]
  match panes with
  | [] => exact absurd rfl shown
  | [pane] => exact ⟨n, rfl, le_rfl⟩
  | [left, right] =>
      rcases scrollableColumnWidth_within positive left.2 with ⟨a, first, _, within⟩
      rcases scrollableColumnWidth_within positive right.2 with ⟨b, second, above, _⟩
      simp only [List.map_cons, List.map_nil, first, second]
      split_ifs with fits
      · have free : (Arithmetic.exact.sub (Arithmetic.exact.sub (Arithmetic.exact.sub
            (.finite n) .zero) (.finite a)) (.finite b)).max .zero =
              .finite (Max.max (n - a - b) 0) := by
          simp only [Arithmetic.exact, F32.zero, F32.neg, F32.add, F32.max_finite, sub_eq_add_neg,
            neg_zero, add_zero]
        have half : Arithmetic.exact.floor (Arithmetic.exact.div
            (.finite (Max.max (n - a - b) 0)) (.finite 2)) =
              .finite ((⌊Max.max ((n : Rat) - a - b) 0 / 2⌋ : Int) : Rat) := by
          simp [Arithmetic.exact, F32.div, F32.toWhole]
        rw [free, half]
        refine ⟨a + ((⌊Max.max ((n : Rat) - a - b) 0 / 2⌋ : Int) : Rat), rfl, ?_⟩
        have whole := Int.floor_le (Max.max ((n : Rat) - a - b) 0 / 2)
        rcases max_cases ((n : Rat) - a - b) 0 with ⟨more, _⟩ | ⟨none, _⟩
        · rw [more] at whole ⊢
          linarith
        · rw [none] at whole ⊢
          linarith
      · exact ⟨a, rfl, within⟩
  | pane :: second :: third :: rest =>
      rcases scrollableColumnWidth_within positive pane.2 with ⟨a, first, _, within⟩
      simp only [List.map_cons, first]
      exact ⟨a, rfl, within⟩

end strip

section placed

variable (index : Nat) {workspace : Workspace}

theorem canvas_tileBounds (cols rows : Nat) :
    (Arithmetic.exact.workspaceTileBounds (canvasBounds .exact cols rows) .zero).x = .zero ∧
      (Arithmetic.exact.workspaceTileBounds (canvasBounds .exact cols rows) .zero).w =
        .finite ((max cols 1 : Nat) : Rat) := by
  refine ⟨rfl, ?_⟩
  have wide : (1 : Rat) ≤ ((max cols 1 : Nat) : Rat) := by
    exact_mod_cast Nat.le_max_right cols 1
  simp only [Arithmetic.workspaceTileBounds, canvasBounds, Arithmetic.exact, F32.one,
    F32.max_finite, max_eq_left wide]

/-- A strip that has not been scrolled shows its columns where a fresh view does. -/
theorem allocateScrollable_unscrolled {panes : List (PaneId × F32)} {bounds : FloatRect} {n : Nat}
    (positive : 1 ≤ n) (x : bounds.x = .zero) (w : bounds.w = .finite n)
    {edge : ScrollableRevealEdge} (ahead : ∀ cells, edge = .leftOffset cells → 0 ≤ cells) :
    Arithmetic.exact.allocateScrollableWithVisible panes bounds bounds .none
        (panes.head?.map Prod.fst) edge =
      Arithmetic.exact.allocateScrollableWithVisible panes bounds bounds .none
        (panes.head?.map Prod.fst) .left := by
  have wide : (1 : Rat) ≤ n := by exact_mod_cast positive
  unfold Arithmetic.allocateScrollableWithVisible
  split_ifs with none
  · rfl
  · have shown : panes ≠ [] := by simpa using none
    have gap : ∀ width, (if (TileGap.none.forAxis .horizontal).lt width = true then
        TileGap.none.forAxis .horizontal else F32.zero) = .zero := by
      intro width
      split_ifs <;> rfl
    rcases scrollableAllocatedWidths_first positive shown with ⟨width, first, within⟩
    have start : ∀ widths, (Arithmetic.exact.columnStarts .zero .zero widths).getD 0 .zero =
        .zero := by
      intro widths
      cases widths <;> rfl
    have before : ∀ edge : ScrollableRevealEdge,
        (∀ cells, edge = .leftOffset cells → 0 ≤ cells) → revealOffset n width edge ≤ 0 := by
      rintro (_ | _ | cells) ahead
      · exact le_rfl
      · exact sub_nonpos.mpr within
      · have offset : (0 : Rat) ≤ cells := by exact_mod_cast ahead cells rfl
        exact neg_nonpos.mpr offset
    simp only [gap, w]
    rw [scrollableScroll_first x w wide first (start _) (before edge ahead),
      scrollableScroll_first x w wide first (start _)
        (before .left fun _ other => by cases other)]

theorem tiledTargetRects_projected (distinct : workspace.paneIds.Nodup)
    (anchor : workspace.scrollableAnchor = none) (focused : workspace.focusedPane = none)
    (ahead : workspace.layoutKind = .scrollable →
      ∀ cells, workspace.scrollableRevealEdge = .leftOffset cells → 0 ≤ cells)
    (cols rows : Nat) :
    ((sharedWorkspaceFromState .exact index workspace cols rows).tileSource .exact cols
        rows).tiledTargetRects .exact (canvasBounds .exact cols rows) none none .zero .none =
      workspace.tileSource.tiledTargetRects .exact (canvasBounds .exact cols rows) none none .zero
        .none := by
  have ids := projected_orderDrivenIds .exact index cols rows distinct
  have tree := projected_effectiveTileTree .exact index cols rows distinct
  unfold TileSource.tiledTargetRects
  have kind : ((sharedWorkspaceFromState .exact index workspace cols rows).tileSource .exact cols
      rows).layoutKind = workspace.tileSource.layoutKind := rfl
  have ratios : ((sharedWorkspaceFromState .exact index workspace cols rows).tileSource .exact cols
      rows).splitRatios = workspace.tileSource.splitRatios := rfl
  simp only [kind, ratios, ids, tree]
  cases layout : workspace.tileSource.layoutKind with
  | dwindle => rfl
  | master => rfl
  | grid => rfl
  | columns => rfl
  | rows => rfl
  | monocle => rfl
  | scrollable =>
      have tiled : workspace.tileSource.tiledIdsByPaneOrder.Nodup := activeTiledIds_nodup distinct
      have widths : (workspace.tileSource.orderDrivenIds none).map (fun id =>
            (id, ((sharedWorkspaceFromState .exact index workspace cols rows).tileSource .exact cols
              rows).scrollableWidth id)) =
          ((workspace.tileSource.orderDrivenIds none).map fun id =>
            (id, workspace.tileSource.scrollableWidth id)).map
              fun pane => (pane.1, sanitizeScrollableWidth pane.2) := by
        rw [List.map_map]
        apply List.map_congr_left
        intro id member
        have active := ((TileSource.mem_orderDrivenIds tiled none id).mp member).1
        rw [projected_scrollableWidth .exact index cols rows distinct active]
        rfl
      have viewport : workspace.tileSource.scrollableViewport
          (workspace.tileSource.orderDrivenIds none) =
            ((workspace.tileSource.orderDrivenIds none).head?, workspace.scrollableRevealEdge) := by
        simp only [Workspace.tileSource, Workspace.scrollableViewportAnchor, anchor, focused,
          Option.filter_none]
      have head : (workspace.tileSource.orderDrivenIds none).head? =
          ((workspace.tileSource.orderDrivenIds none).map fun id =>
            (id, workspace.tileSource.scrollableWidth id)).head?.map Prod.fst := by
        cases workspace.tileSource.orderDrivenIds none <;> rfl
      have fresh : ((sharedWorkspaceFromState .exact index workspace cols rows).tileSource .exact
          cols rows).scrollableViewport (workspace.tileSource.orderDrivenIds none) =
            ((workspace.tileSource.orderDrivenIds none).head?, .left) := rfl
      rcases canvas_tileBounds cols rows with ⟨x, w⟩
      simp only [widths, viewport, fresh, allocateScrollable_sanitized]
      rw [head, allocateScrollable_unscrolled (Nat.le_max_right cols 1) x w (ahead layout)]

/-- The document places the panes of a workspace that has not been scrolled where the workspace
does. -/
theorem document_places_as_live (distinct : workspace.paneIds.Nodup)
    (anchor : workspace.scrollableAnchor = none) (focused : workspace.focusedPane = none)
    (ahead : workspace.layoutKind = .scrollable →
      ∀ cells, workspace.scrollableRevealEdge = .leftOffset cells → 0 ≤ cells)
    (cols rows : Nat) :
    (sharedWorkspaceFromState .exact index workspace cols rows).placementsOn .exact cols rows =
      workspace.targetRects .exact (canvasBounds .exact cols rows) .zero .none := by
  unfold SharedWorkspace.placementsOn Workspace.targetRects TileSource.targetRects
  simp only
  rw [tiledTargetRects_projected index distinct anchor focused ahead,
    TileSource.floatingTargetRects, TileSource.floatingTargetRects, projected_floating]

def unscrolled (edge : ScrollableRevealEdge) : Workspace where
  panes := [
    { id := 1, ptyGeneration := 1, floatingRect := ⟨.zero, .zero, .one, .one⟩ },
    { id := 2, ptyGeneration := 1, floatingRect := ⟨.zero, .zero, .one, .one⟩ },
    { id := 3, ptyGeneration := 1, floatingRect := ⟨.zero, .zero, .one, .one⟩ },
    { id := 4, ptyGeneration := 1, floatingRect := ⟨.zero, .zero, .one, .one⟩, closing := true },
    { id := 5, ptyGeneration := 1, floating := true
      floatingRect := ⟨.finite 10, .finite 5, .finite 30, .finite 10⟩ }]
  startAxis := .horizontal
  layoutKind := .scrollable
  scrollableRevealEdge := edge

theorem document_places_as_live_unscrolled :
    (sharedWorkspaceFromState .exact 0 (unscrolled .left) 100 30).placementsOn .exact 100 30 =
      (unscrolled .left).targetRects .exact (canvasBounds .exact 100 30) .zero .none :=
  document_places_as_live 0 (by decide) rfl rfl (fun _ _ other => by cases other) 100 30

/-- An edge kept from an earlier anchor still shifts the strip. -/
theorem leftover_edge_scrolls :
    (unscrolled (.leftOffset (-5))).paneIds.Nodup ∧
      (unscrolled (.leftOffset (-5))).scrollableAnchor = none ∧
      (unscrolled (.leftOffset (-5))).focusedPane = none ∧
      (sharedWorkspaceFromState .exact 0 (unscrolled (.leftOffset (-5))) 100 30).placementsOn .exact
          100 30 ≠
        (unscrolled (.leftOffset (-5))).targetRects .exact (canvasBounds .exact 100 30) .zero
          .none := by
  refine ⟨by decide, rfl, rfl, ?_⟩
  decide +kernel

end placed

end Rozi
