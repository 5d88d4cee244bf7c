import Rozi.Library.Stretches
import Rozi.Recording.Rows
import Mathlib.Algebra.GroupWithZero.Nat

/-!
Rows as lists of styled glyphs. Laying a row out in columns and writing columns as a row undo each
other, where text falls back into the glyphs it was put together of.
-/

namespace Rozi.Recording

open Stretch

abbrev Cell := SpanStyle × Text

/-- Text put together of these glyphs falls into them again, also with the blanks at its end left
out. -/
structure Resegments (seg : Segmentation) (Glyph : Text → Prop) : Prop where
  blank_known : Glyph [' ']
  blank_width : seg.width [' '] = 1
  text : ∀ text, (seg.graphemes text).flatten = text
  whole : ∀ glyphs : List Text, (∀ glyph ∈ glyphs, Glyph glyph) → seg.graphemes glyphs.flatten = glyphs
  trimmed : ∀ glyphs : List Text, (∀ glyph ∈ glyphs, Glyph glyph) →
    seg.graphemes (glyphs.flatten.rdropWhile (· = ' ')) = glyphs.rdropWhile (· = [' '])

section merging

def absorb (run : SpanRun) : List SpanRun → List SpanRun
  | [] => [run]
  | next :: rest =>
      if run.style = next.style then
        { run with width := run.width + next.width, text := run.text ++ next.text } :: rest
      else run :: next :: rest

def gather (pieces : List SpanRun) : List SpanRun := pieces.foldr absorb []

@[simp] theorem gather_nil : gather [] = [] := rfl

@[simp] theorem gather_cons (piece : SpanRun) (pieces : List SpanRun) :
    gather (piece :: pieces) = absorb piece (gather pieces) := rfl

theorem absorb_absorb {first second : SpanRun} (same : first.style = second.style)
    (rest : List SpanRun) :
    absorb first (absorb second rest) = absorb { first with
      width := first.width + second.width, text := first.text ++ second.text } rest := by
  cases rest with
  | nil => simp [absorb, same]
  | cons next rest =>
      by_cases joined : second.style = next.style
      · simp [absorb, same, joined, Nat.add_assoc]
      · simp [absorb, same, joined]

theorem absorb_apart {first second : SpanRun} (apart : first.style ≠ second.style)
    (rest : List SpanRun) : absorb first (absorb second rest) = first :: absorb second rest := by
  cases rest with
  | nil => simp [absorb, apart]
  | cons next rest =>
      by_cases joined : second.style = next.style
      · have other : first.style ≠ next.style := joined ▸ apart
        simp [absorb, joined, other]
      · simp [absorb, joined, apart]

theorem pushRun_last (out : List SpanRun) (last run : SpanRun) :
    pushRun (out ++ [last]) run = out ++ absorb last [run] := by
  by_cases same : last.style = run.style <;> simp [pushRun, absorb, same]

theorem foldl_pushRun_last (pieces out : List SpanRun) (last : SpanRun) :
    pieces.foldl pushRun (out ++ [last]) = out ++ absorb last (gather pieces) := by
  induction pieces generalizing out last with
  | nil => rfl
  | cons piece pieces ih =>
      rw [List.foldl_cons, pushRun_last, gather_cons]
      by_cases same : last.style = piece.style
      · rw [absorb_absorb same, ← ih]
        simp [absorb, same]
      · have split : out ++ absorb last [piece] = (out ++ [last]) ++ [piece] := by
          simp [absorb, same]
        rw [split, ih, absorb_apart same, List.append_assoc]
        rfl

theorem foldl_pushRun (pieces : List SpanRun) : pieces.foldl pushRun [] = gather pieces := by
  cases pieces with
  | nil => rfl
  | cons piece pieces => exact foldl_pushRun_last pieces [] piece

end merging

section cells

variable (seg : Segmentation)

theorem Segmentation.span_pos (glyph : Text) : 0 < seg.span glyph := by
  unfold Segmentation.span
  omega

def glyphColumns (cell : Cell) : List Column :=
  { text := cell.2, width := seg.span cell.2, style := cell.1 } ::
    List.replicate (seg.span cell.2 - 1) { text := [], width := 0, style := cell.1 }

def expand (cells : List Cell) : List Column := cells.flatMap (glyphColumns seg)

@[simp] theorem length_glyphColumns (cell : Cell) :
    (glyphColumns seg cell).length = seg.span cell.2 := by
  have positive := seg.span_pos cell.2
  simp only [glyphColumns, List.length_cons, List.length_replicate]
  omega

@[simp] theorem expand_nil : expand seg [] = [] := rfl

@[simp] theorem expand_cons (cell : Cell) (cells : List Cell) :
    expand seg (cell :: cells) = glyphColumns seg cell ++ expand seg cells := rfl

@[simp] theorem expand_append (front back : List Cell) :
    expand seg (front ++ back) = expand seg front ++ expand seg back := List.flatMap_append

def cellRuns : Nat → List Cell → List SpanRun
  | _, [] => []
  | x, (style, glyph) :: rest =>
      { x, width := seg.span glyph, text := glyph, style } :: cellRuns (x + seg.span glyph) rest

def extent (glyphs : List Text) : Nat := (glyphs.map seg.span).sum

def place : Nat → List (Stretch SpanStyle Text) → List SpanRun
  | _, [] => []
  | x, stretch :: rest =>
      { x, width := extent seg stretch.items, text := stretch.items.flatten,
        style := stretch.key } :: place (x + extent seg stretch.items) rest

def units (x : Nat) (columns : List Column) : List SpanRun :=
  (columns.zipIdx x).map fun (column, x) =>
    { x, width := 1, text := column.text, style := column.style }

theorem drop_zipIdx (columns : List Column) (x start : Nat) :
    (columns.zipIdx x).drop start = (columns.drop start).zipIdx (x + start) := by
  induction columns generalizing x start with
  | nil => simp
  | cons column columns ih =>
      cases start with
      | zero => rfl
      | succ start =>
          rw [List.zipIdx_cons, List.drop_succ_cons, ih, List.drop_succ_cons]
          congr 1
          omega

theorem runs_eq (columns : List Column) (start stop : Nat) :
    runs columns start stop = gather (units start ((columns.take stop).drop start)) := by
  rw [← foldl_pushRun, units, List.foldl_map, runs, drop_zipIdx, Nat.zero_add]

theorem units_cons (x : Nat) (column : Column) (columns : List Column) :
    units x (column :: columns) =
      { x, width := 1, text := column.text, style := column.style } :: units (x + 1) columns := rfl

theorem units_append (x : Nat) (front back : List Column) :
    units x (front ++ back) = units x front ++ units (x + front.length) back := by
  simp [units, List.zipIdx_append]

theorem absorb_continuations (run : SpanRun) (n x : Nat) (rest : List SpanRun) :
    absorb run (gather (units x (List.replicate n
      { text := [], width := 0, style := run.style }) ++ rest)) =
      absorb { run with width := run.width + n } (gather rest) := by
  induction n generalizing run x with
  | zero => rfl
  | succ n ih =>
      rw [List.replicate_succ, units_cons, List.cons_append, gather_cons, absorb_absorb]
      · rw [ih { run with width := run.width + 1, text := run.text ++ [] } (x + 1)]
        simp [Nat.add_comm, Nat.add_left_comm]
      · rfl

theorem gather_units_glyph (x : Nat) (cell : Cell) (rest : List SpanRun) :
    gather (units x (glyphColumns seg cell) ++ rest) =
      absorb { x, width := seg.span cell.2, text := cell.2, style := cell.1 } (gather rest) := by
  have continued := absorb_continuations { x, width := 1, text := cell.2, style := cell.1 }
    (seg.span cell.2 - 1) (x + 1) rest
  have positive := seg.span_pos cell.2
  have width : 1 + (seg.span cell.2 - 1) = seg.span cell.2 := by omega
  rw [width] at continued
  exact continued

theorem gather_units (x : Nat) (cells : List Cell) :
    gather (units x (expand seg cells)) = gather (cellRuns seg x cells) := by
  induction cells generalizing x with
  | nil => rfl
  | cons cell cells ih =>
      rw [expand_cons, units_append, gather_units_glyph, length_glyphColumns, ih]
      rfl

theorem gather_cellRuns (x : Nat) {glyphs : List Text} (filled : glyphs ≠ []) (style : SpanStyle)
    (rest : List Cell) :
    gather (cellRuns seg x (glyphs.map (style, ·) ++ rest)) =
      absorb { x, width := extent seg glyphs, text := glyphs.flatten, style }
        (gather (cellRuns seg (x + extent seg glyphs) rest)) := by
  induction glyphs generalizing x with
  | nil => exact absurd rfl filled
  | cons glyph glyphs ih =>
      cases glyphs with
      | nil => simp [cellRuns, extent]
      | cons next glyphs =>
          rw [List.map_cons, List.cons_append, cellRuns, gather_cons, ih _ (by simp),
            absorb_absorb]
          · simp [extent, Nat.add_assoc]
          · rfl

theorem gather_place (x : Nat) (stretches : List (Stretch SpanStyle Text))
    (filled : ∀ stretch ∈ stretches, stretch.items ≠ []) :
    gather (cellRuns seg x (spread stretches)) = gather (place seg x stretches) := by
  induction stretches generalizing x with
  | nil => rfl
  | cons stretch rest ih =>
      have later := ih (x + extent seg stretch.items)
        fun other member => filled other (List.mem_cons_of_mem _ member)
      rw [spread_cons, gather_cellRuns seg x (filled stretch List.mem_cons_self), later, place,
        gather_cons]

theorem gather_maximal (x : Nat) {stretches : List (Stretch SpanStyle Text)}
    (maximal : Maximal stretches) : gather (place seg x stretches) = place seg x stretches := by
  induction maximal generalizing x with
  | nil => rfl
  | single => rfl
  | cons filled apart maximal ih =>
      rw [place, gather_cons, ih, place, absorb, if_neg apart]

end cells

section overlay

variable {α : Type}

def overlay (items : List α) (x : Nat) (piece : List α) : List α :=
  items.take x ++ piece ++ items.drop (x + piece.length)

variable {items piece other : List α} {x : Nat}

@[simp] theorem overlay_nil (items : List α) (x : Nat) : overlay items x [] = items := by
  simp [overlay]

theorem length_overlay (fits : x + piece.length ≤ items.length) :
    (overlay items x piece).length = items.length := by
  simp only [overlay, List.length_append, List.length_take, List.length_drop]
  omega

theorem overlay_overlay (fits : x + piece.length ≤ items.length) :
    overlay (overlay items x piece) (x + piece.length) other = overlay items x (piece ++ other) := by
  have front : (items.take x ++ piece).length = x + piece.length := by
    simp only [List.length_append, List.length_take]
    omega
  have back : x + piece.length + other.length - (x + piece.length) = other.length := by omega
  simp only [overlay]
  rw [← front, List.take_left' rfl, List.drop_append, front, back, List.drop_drop,
    List.drop_eq_nil_of_le (by omega)]
  simp [Nat.add_assoc]

theorem set_eq_overlay (value : α) (inside : x < items.length) :
    items.set x value = overlay items x [value] := by
  simp [overlay, List.set_eq_take_append_cons_drop, inside]

theorem getElem?_overlay (fits : x + piece.length ≤ items.length) (y : Nat) :
    (overlay items x piece)[y]? =
      if x ≤ y ∧ y < x + piece.length then piece[y - x]? else items[y]? := by
  have front : (items.take x).length = x := by
    rw [List.length_take]
    omega
  simp only [overlay, List.append_assoc]
  by_cases before : y < x
  · rw [List.getElem?_append_left (by omega), if_neg (by omega), List.getElem?_take, if_pos before]
  · rw [List.getElem?_append_right (by omega), front]
    by_cases within : y < x + piece.length
    · rw [List.getElem?_append_left (by omega), if_pos (by omega)]
    · rw [List.getElem?_append_right (by omega), if_neg (by omega), List.getElem?_drop]
      congr 1
      omega

theorem cover_eq_overlay (columns : List Column) {start stop : Nat} (value : Column)
    (ordered : start ≤ stop) (fits : stop ≤ columns.length) :
    cover columns start stop value = overlay columns start (List.replicate (stop - start) value) := by
  have reach : start + (List.replicate (stop - start) value).length = stop := by
    rw [List.length_replicate]
    omega
  apply List.ext_getElem?
  intro y
  rw [getElem?_overlay (by omega), reach, cover, List.getElem?_mapIdx]
  by_cases within : start ≤ y ∧ y < stop
  · have inside : y < columns.length := by omega
    rw [if_pos within, List.getElem?_replicate, if_pos (by omega), List.getElem?_eq_getElem inside]
    simp [within]
  · rw [if_neg within]
    cases columns[y]? <;> simp [within]

end overlay

section laying

variable {seg : Segmentation} {columns : List Column}

theorem lay_glyph (cell : Cell) {x : Nat} (fits : x + seg.span cell.2 ≤ columns.length) :
    cover (columns.set x { text := cell.2, width := seg.span cell.2, style := cell.1 }) (x + 1)
      (x + seg.span cell.2) { text := [], width := 0, style := cell.1 } =
      overlay columns x (glyphColumns seg cell) := by
  have positive := seg.span_pos cell.2
  have rest : x + seg.span cell.2 - (x + 1) = seg.span cell.2 - 1 := by omega
  rw [cover_eq_overlay _ _ (by omega) (by rw [List.length_set]; exact fits),
    set_eq_overlay _ (by omega), rest]
  exact overlay_overlay (by simp only [List.length_singleton]; omega)

theorem extent_cons (glyph : Text) (glyphs : List Text) :
    extent seg (glyph :: glyphs) = seg.span glyph + extent seg glyphs := rfl

theorem length_expand_stretch (style : SpanStyle) (glyphs : List Text) :
    (expand seg (glyphs.map (style, ·))).length = extent seg glyphs := by
  induction glyphs with
  | nil => rfl
  | cons glyph glyphs ih => simp [ih, extent_cons]

theorem layGraphemes_fits (style : SpanStyle) {stop x : Nat} (glyphs : List Text)
    (fits : x + extent seg glyphs ≤ stop) (inside : stop ≤ columns.length) :
    layGraphemes seg style stop x glyphs columns =
      (x + extent seg glyphs, overlay columns x (expand seg (glyphs.map (style, ·)))) := by
  induction glyphs generalizing x columns with
  | nil => simp [layGraphemes, extent]
  | cons glyph glyphs ih =>
      rw [extent_cons] at fits ⊢
      have positive := seg.span_pos glyph
      have until' : min stop (x + seg.span glyph) = x + seg.span glyph := by omega
      have room : x + seg.span (style, glyph).2 ≤ columns.length := by
        simp only
        omega
      have reach : x + (glyphColumns seg (style, glyph)).length ≤ columns.length := by
        rwa [length_glyphColumns]
      have laid := lay_glyph (style, glyph) room
      simp only at laid
      rw [layGraphemes, if_neg (by omega)]
      simp only [until', laid]
      rw [ih (by omega) (by rw [length_overlay reach]; exact inside), List.map_cons, expand_cons,
        ← overlay_overlay reach, length_glyphColumns, Nat.add_assoc]

theorem layRun_fits (style : SpanStyle) {x : Nat} {glyphs : List Text} {text : Text}
    (falls : seg.graphemes text = glyphs) (fits : x + extent seg glyphs ≤ columns.length) :
    layRun seg columns { x, width := extent seg glyphs, text, style } =
      overlay columns x (expand seg (glyphs.map (style, ·))) := by
  have stop : min (x + extent seg glyphs) columns.length = x + extent seg glyphs := by omega
  have room : x + (expand seg (glyphs.map (style, ·))).length ≤ columns.length := by
    rwa [length_expand_stretch]
  simp only [layRun, falls, stop]
  rw [layGraphemes_fits style glyphs le_rfl fits]
  simp only
  rw [cover_eq_overlay _ _ le_rfl (by rw [length_overlay room]; exact fits), Nat.sub_self,
    List.replicate_zero, overlay_nil]

theorem lay_place {x : Nat} (stretches : List (Stretch SpanStyle Text))
    (falls : ∀ stretch ∈ stretches, seg.graphemes stretch.items.flatten = stretch.items)
    (fits : x + (expand seg (spread stretches)).length ≤ columns.length) :
    lay seg columns (place seg x stretches) = overlay columns x (expand seg (spread stretches)) := by
  induction stretches generalizing x columns with
  | nil => simp [lay, place]
  | cons stretch rest ih =>
      rw [spread_cons, expand_append, List.length_append, length_expand_stretch] at fits
      have room : x + (expand seg (stretch.items.map (stretch.key, ·))).length ≤ columns.length := by
        rw [length_expand_stretch]
        omega
      have held : x + extent seg stretch.items ≤ columns.length := by omega
      have first := layRun_fits stretch.key (falls stretch List.mem_cons_self) held
      have others : ∀ other ∈ rest, seg.graphemes other.items.flatten = other.items :=
        fun other member => falls other (List.mem_cons_of_mem _ member)
      rw [place, lay, List.foldl_cons, first, ← lay,
        ih others (by rw [length_overlay room]; omega), spread_cons, expand_append,
        ← overlay_overlay room, length_expand_stretch]

end laying

section trimming

variable {seg : Segmentation} {Glyph : Text → Prop} {cells : List Cell}

def blankCell : Cell := ({}, [' '])

def rowOf (seg : Segmentation) (cells : List Cell) : List SpanRun :=
  trimBlanks (gather (cellRuns seg 0 cells))

theorem rdropWhile_append {α : Type} (test : α → Bool) (front back : List α) :
    (front ++ back).rdropWhile test =
      if back.rdropWhile test = [] then front.rdropWhile test
      else front ++ back.rdropWhile test := by
  simp only [List.rdropWhile, List.reverse_append, List.dropWhile_append, List.reverse_eq_nil_iff]
  by_cases gone : back.reverse.dropWhile test = [] <;> simp [gone]

theorem place_append (x : Nat) (front back : List (Stretch SpanStyle Text)) :
    place seg x (front ++ back) =
      place seg x front ++ place seg (x + (expand seg (spread front)).length) back := by
  induction front generalizing x with
  | nil => rfl
  | cons stretch rest ih =>
      rw [List.cons_append, place, ih, place, spread_cons, expand_append, List.length_append,
        length_expand_stretch, Nat.add_assoc, List.cons_append]

theorem Resegments.text_trimmed (lawful : Resegments seg Glyph) {glyphs : List Text}
    (known : ∀ glyph ∈ glyphs, Glyph glyph) :
    glyphs.flatten.rdropWhile (· = ' ') = (glyphs.rdropWhile (· = [' '])).flatten := by
  rw [← lawful.trimmed glyphs known, lawful.text]

theorem trimmed_parts (glyphs : List Text) :
    ∃ n, glyphs = glyphs.rdropWhile (· = [' ']) ++ List.replicate n [' '] := by
  refine ⟨(glyphs.rtakeWhile (· = [' '])).length, ?_⟩
  have blanks : glyphs.rtakeWhile (· = [' ']) =
      List.replicate (glyphs.rtakeWhile (· = [' '])).length [' '] := by
    apply List.eq_replicate_of_mem
    intro glyph member
    simpa using List.mem_rtakeWhile_imp member
  rw [← blanks, List.rdropWhile_append_rtakeWhile]

theorem extent_append (front back : List Text) :
    extent seg (front ++ back) = extent seg front + extent seg back := by
  simp [extent]

theorem Resegments.extent_blanks (lawful : Resegments seg Glyph) (n : Nat) :
    extent seg (List.replicate n [' ']) = n := by
  simp [extent, Segmentation.span, lawful.blank_width]

theorem extent_eq_zero {glyphs : List Text} : extent seg glyphs = 0 ↔ glyphs = [] := by
  cases glyphs with
  | nil => simp [extent]
  | cons glyph glyphs =>
      have positive := seg.span_pos glyph
      rw [extent_cons]
      constructor
      · intro zero
        omega
      · intro none
        cases none

/-- The default blanks at a row's end, left out of the last stretch. -/
theorem Resegments.trimBlanks_last (lawful : Resegments seg Glyph) {row : List SpanRun} {x : Nat}
    {glyphs : List Text} (known : ∀ glyph ∈ glyphs, Glyph glyph) :
    trimBlanks (row ++ [{ x, width := extent seg glyphs, text := glyphs.flatten, style := {} }]) =
      if glyphs.rdropWhile (· = [' ']) = [] then row
      else row ++ [{
        x
        width := extent seg (glyphs.rdropWhile (· = [' ']))
        text := (glyphs.rdropWhile (· = [' '])).flatten
        style := {} }] := by
  rcases trimmed_parts glyphs with ⟨n, parts⟩
  have lengths : glyphs.flatten.length = (glyphs.rdropWhile (· = [' '])).flatten.length + n := by
    have all := congrArg (fun glyphs => glyphs.flatten.length) parts
    simpa using all
  have widths : extent seg glyphs = extent seg (glyphs.rdropWhile (· = [' '])) + n := by
    have all := congrArg (extent seg) parts
    rwa [extent_append, lawful.extent_blanks] at all
  have text := lawful.text_trimmed known
  have width : extent seg glyphs - (glyphs.flatten.length -
      (glyphs.rdropWhile (· = [' '])).flatten.length) =
      extent seg (glyphs.rdropWhile (· = [' '])) := by omega
  simp only [trimBlanks, List.getLast?_concat, if_pos, List.dropLast_concat, text, width,
    extent_eq_zero]

theorem rdropWhile_blanks (glyphs : List Text) :
    (glyphs.map (({} : SpanStyle), ·)).rdropWhile (· = blankCell) =
      (glyphs.rdropWhile (· = [' '])).map (({} : SpanStyle), ·) := by
  have same : ((fun cell : Cell => decide (cell = blankCell)) ∘ (({} : SpanStyle), ·)) =
      fun glyph => decide (glyph = [' ']) := by
    funext glyph
    simp [blankCell]
  simp only [List.rdropWhile, ← List.map_reverse, List.dropWhile_map, same]

theorem spread_untrimmed (front : List (Stretch SpanStyle Text))
    {last : Stretch SpanStyle Text} (styled : last.key ≠ {}) (filled : last.items ≠ []) :
    (spread (front ++ [last])).rdropWhile (· = blankCell) = spread (front ++ [last]) := by
  rw [List.rdropWhile_eq_self_iff]
  intro some ends
  rcases List.eq_nil_or_concat last.items with none | ⟨items, item, whole⟩
  · exact filled none
  · simp [spread_append, whole, blankCell] at ends
    exact styled ends.1

/-- A row of cells is the stretches they fall into, but for the default blanks at its end. -/
theorem Resegments.rowOf_place (lawful : Resegments seg Glyph)
    (known : ∀ cell ∈ cells, Glyph cell.2) :
    ∃ stretches, Maximal stretches ∧ spread stretches = cells.rdropWhile (· = blankCell) ∧
      rowOf seg cells = place seg 0 stretches := by
  rcases exists_maximal cells with ⟨stretches, maximal, rfl⟩
  have row : rowOf seg (spread stretches) = trimBlanks (place seg 0 stretches) := by
    rw [rowOf, gather_place seg 0 stretches maximal.filled, gather_maximal seg 0 maximal]
  rw [row]
  rcases List.eq_nil_or_concat stretches with rfl | ⟨front, ⟨style, glyphs⟩, rfl⟩
  · exact ⟨[], .nil, rfl, rfl⟩
  · have own : ∀ glyph ∈ glyphs, Glyph glyph := by
      intro glyph member
      exact known (style, glyph) (by simp [member])
    have filled : glyphs ≠ [] := maximal.filled ⟨style, glyphs⟩ (by simp)
    simp only [List.concat_eq_append] at maximal ⊢
    have placed : place seg 0 (front ++ [⟨style, glyphs⟩]) = place seg 0 front ++ [{
        x := 0 + (expand seg (spread front)).length
        width := extent seg glyphs, text := glyphs.flatten, style }] := place_append 0 front _
    by_cases plain : style = {}
    · subst plain
      rw [placed, lawful.trimBlanks_last own]
      have trimmed := rdropWhile_blanks glyphs
      by_cases gone : glyphs.rdropWhile (· = [' ']) = []
      · refine ⟨front, maximal.front, ?_, if_pos gone⟩
        rw [gone, List.map_nil] at trimmed
        simp only [spread_append, spread_cons, spread_nil, List.append_nil]
        rw [rdropWhile_append, if_pos trimmed]
        rcases List.eq_nil_or_concat front with rfl | ⟨front, last, rfl⟩
        · rfl
        · simp only [List.concat_eq_append, List.append_assoc, List.singleton_append] at maximal ⊢
          have styled := maximal.last_apart
          exact (spread_untrimmed front styled (maximal.filled last (by simp))).symm
      · refine ⟨front ++ [⟨{}, glyphs.rdropWhile (· = [' '])⟩],
          maximal.exchange_last rfl gone, ?_, ?_⟩
        · simp only [spread_append, spread_cons, spread_nil, List.append_nil]
          rw [rdropWhile_append, trimmed, if_neg (by simpa using gone)]
        · rw [if_neg gone, place_append]
          rfl
    · refine ⟨_, maximal, ?_, ?_⟩
      · exact (spread_untrimmed front plain filled).symm
      · rw [placed]
        simp [trimBlanks, plain]

end trimming

section round_trip

variable {seg : Segmentation} {Glyph : Text → Prop} {cells : List Cell}

theorem Resegments.falls (lawful : Resegments seg Glyph)
    {stretches : List (Stretch SpanStyle Text)}
    (known : ∀ cell ∈ spread stretches, Glyph cell.2) :
    ∀ stretch ∈ stretches, seg.graphemes stretch.items.flatten = stretch.items := by
  intro stretch member
  apply lawful.whole
  intro glyph inside
  have among : (stretch.key, glyph) ∈ spread stretches :=
    List.mem_flatMap.mpr ⟨stretch, member, List.mem_map_of_mem inside⟩
  exact known _ among

theorem trimmed_cells (cells : List Cell) :
    ∃ n, cells = cells.rdropWhile (· = blankCell) ++ List.replicate n blankCell := by
  refine ⟨(cells.rtakeWhile (· = blankCell)).length, ?_⟩
  have blanks : cells.rtakeWhile (· = blankCell) =
      List.replicate (cells.rtakeWhile (· = blankCell)).length blankCell := by
    apply List.eq_replicate_of_mem
    intro cell member
    simpa using List.mem_rtakeWhile_imp member
  rw [← blanks, List.rdropWhile_append_rtakeWhile]

theorem Resegments.expand_blanks (lawful : Resegments seg Glyph) (n : Nat) :
    expand seg (List.replicate n blankCell) = List.replicate n blank := by
  induction n with
  | zero => rfl
  | succ n ih =>
      rw [List.replicate_succ, expand_cons, ih, List.replicate_succ]
      simp [glyphColumns, blankCell, blank, Segmentation.span, lawful.blank_width]

theorem Resegments.columns_rowOf (lawful : Resegments seg Glyph)
    (known : ∀ cell ∈ cells, Glyph cell.2) :
    columns seg (rowOf seg cells) (expand seg cells).length = expand seg cells := by
  rcases lawful.rowOf_place known with ⟨stretches, maximal, spread', row⟩
  rcases trimmed_cells cells with ⟨n, parts⟩
  rw [← spread'] at parts
  have whole : expand seg cells = expand seg (spread stretches) ++ List.replicate n blank := by
    rw [parts, expand_append, lawful.expand_blanks]
  have inside : ∀ cell ∈ spread stretches, Glyph cell.2 := by
    intro cell member
    exact known cell (by rw [parts]; exact List.mem_append_left _ member)
  rw [row, columns, lay_place stretches (lawful.falls inside) (by rw [whole]; simp), whole]
  simp [overlay]

theorem canonical_expand (cells : List Cell) : canonical (expand seg cells) = rowOf seg cells := by
  rw [canonical, runs_eq, List.take_length, List.drop_zero, gather_units, rowOf]

theorem runs_expand (front cells back : List Cell) :
    runs (expand seg (front ++ cells ++ back)) (expand seg front).length
      (expand seg (front ++ cells)).length =
      gather (cellRuns seg (expand seg front).length cells) := by
  rw [runs_eq, expand_append seg (front ++ cells), List.take_left' rfl, expand_append,
    List.drop_left' rfl, gather_units]

theorem Resegments.lay_cells (lawful : Resegments seg Glyph) {front old new back : List Cell}
    (known : ∀ cell ∈ new, Glyph cell.2)
    (same : (expand seg new).length = (expand seg old).length) :
    lay seg (expand seg (front ++ old ++ back))
      (gather (cellRuns seg (expand seg front).length new)) =
      expand seg (front ++ new ++ back) := by
  rcases exists_maximal new with ⟨stretches, maximal, rfl⟩
  rw [gather_place seg _ stretches maximal.filled, gather_maximal seg _ maximal,
    lay_place stretches (lawful.falls known)]
  · simp only [overlay, expand_append, List.append_assoc]
    rw [List.take_left' rfl, ← List.drop_drop, List.drop_left' rfl, same, List.drop_left' rfl]
  · simp only [expand_append, List.length_append]
    omega

theorem Resegments.apply_partly (lawful : Resegments seg Glyph) {front old new back : List Cell}
    (known : ∀ cell ∈ front ++ old ++ back, Glyph cell.2) (fresh : ∀ cell ∈ new, Glyph cell.2)
    (same : (expand seg new).length = (expand seg old).length) (y : Nat) :
    apply seg (rowOf seg (front ++ old ++ back))
      { y, runs := gather (cellRuns seg (expand seg front).length new), partly := true }
      (expand seg (front ++ old ++ back)).length = rowOf seg (front ++ new ++ back) := by
  simp only [apply, if_pos]
  rw [lawful.columns_rowOf known, lawful.lay_cells fresh same, canonical_expand]

end round_trip

end Rozi.Recording
