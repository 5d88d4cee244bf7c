import Rozi.Recording.RowCells

/-!
What the changes of a row come to when they are applied one after the other. Each covers whole
glyphs of the new row; the row is written anew in between, which only keeps its columns where no
change has cut a glyph of the old row in two.
-/

namespace Rozi.Recording

open Stretch

def continues (columns : List Column) (x : Nat) : Bool :=
  (columns[x]?).any fun column => column.width = 0

/-- Whether a change ends inside a glyph of the old row: it ends with the new glyph behind its last
column, and with more than `spanGap` columns alike there, the next change is another. -/
def severed (before after : List Column) : Bool :=
  (differing before after).any fun changed =>
    continues before (glyphStop after (changed + 1)) &&
      (List.range (spanGap + 1)).all fun gap =>
        before[changed + 1 + gap]? = after[changed + 1 + gap]?

section glyphs

variable {seg : Segmentation} {cells : List Cell}

theorem glyphColumns_zero (cell : Cell) : (glyphColumns seg cell)[0]? =
    some { text := cell.2, width := seg.span cell.2, style := cell.1 } := rfl

theorem glyphColumns_succ (cell : Cell) {x : Nat} (inside : x + 1 < seg.span cell.2) :
    (glyphColumns seg cell)[x + 1]? = some { text := [], width := 0, style := cell.1 } := by
  simp only [glyphColumns, List.getElem?_cons_succ, List.getElem?_replicate]
  rw [if_pos (by omega)]

theorem getElem?_expand_front (cell : Cell) (cells : List Cell) {x : Nat}
    (inside : x < seg.span cell.2) :
    (expand seg (cell :: cells))[x]? = (glyphColumns seg cell)[x]? := by
  rw [expand_cons, List.getElem?_append_left (by rwa [length_glyphColumns])]

theorem getElem?_expand_back (cell : Cell) (cells : List Cell) (x : Nat) :
    (expand seg (cell :: cells))[seg.span cell.2 + x]? = (expand seg cells)[x]? := by
  rw [expand_cons, List.getElem?_append_right (by rw [length_glyphColumns]; omega),
    length_glyphColumns, Nat.add_sub_cancel_left]

theorem split_at_boundary {x : Nat} (inside : x ≤ (expand seg cells).length)
    (boundary : continues (expand seg cells) x = false) :
    ∃ front back, cells = front ++ back ∧ (expand seg front).length = x := by
  induction cells generalizing x with
  | nil =>
      rw [expand_nil, List.length_nil, Nat.le_zero] at inside
      exact ⟨[], [], rfl, inside.symm⟩
  | cons cell cells ih =>
      by_cases start : x = 0
      · exact ⟨[], cell :: cells, rfl, start.symm⟩
      · by_cases within : x < seg.span cell.2
        · rcases Nat.exists_eq_succ_of_ne_zero start with ⟨y, rfl⟩
          rw [continues, getElem?_expand_front cell cells within,
            glyphColumns_succ cell within] at boundary
          simp at boundary
        · rcases Nat.exists_eq_add_of_le (Nat.le_of_not_lt within) with ⟨y, rfl⟩
          rw [continues, getElem?_expand_back] at boundary
          rw [expand_cons, List.length_append, length_glyphColumns] at inside
          rcases ih (by omega) boundary with ⟨front, back, rfl, length⟩
          exact ⟨cell :: front, back, rfl, by simp [length]⟩

/-- A column that continues a glyph lies within one that starts before it. -/
theorem exists_glyph {x : Nat} (continued : continues (expand seg cells) x = true) :
    ∃ start head, start < x ∧ (expand seg cells)[start]? = some head ∧
      x < start + head.width := by
  induction cells generalizing x with
  | nil => simp [continues] at continued
  | cons cell cells ih =>
      by_cases within : x < seg.span cell.2
      · cases x with
        | zero =>
            rw [continues, getElem?_expand_front cell cells within, glyphColumns_zero] at continued
            have positive := seg.span_pos cell.2
            simp only [Option.any_some, decide_eq_true_eq] at continued
            omega
        | succ x =>
            refine ⟨0, { text := cell.2, width := seg.span cell.2, style := cell.1 },
              Nat.succ_pos x, ?_, ?_⟩
            · rw [getElem?_expand_front cell cells (seg.span_pos _)]
              exact glyphColumns_zero cell
            · simpa using within
      · rcases Nat.exists_eq_add_of_le (Nat.le_of_not_lt within) with ⟨y, rfl⟩
        rw [continues, getElem?_expand_back] at continued
        rcases ih continued with ⟨start, head, before, present, reach⟩
        refine ⟨seg.span cell.2 + start, head, by omega, ?_, by omega⟩
        rw [getElem?_expand_back, present]

theorem continues_of_glyph {start x : Nat} {head : Column}
    (present : (expand seg cells)[start]? = some head) (after : start < x)
    (reach : x < start + head.width) : continues (expand seg cells) x = true := by
  induction cells generalizing start x with
  | nil => simp at present
  | cons cell cells ih =>
      by_cases within : start < seg.span cell.2
      · rw [getElem?_expand_front cell cells within] at present
        cases start with
        | zero =>
            rw [glyphColumns_zero] at present
            cases present
            cases x with
            | zero => omega
            | succ x =>
                have inside : x + 1 < seg.span cell.2 := by simpa using reach
                rw [continues, getElem?_expand_front cell cells inside, glyphColumns_succ cell inside]
                rfl
        | succ start =>
            rw [glyphColumns_succ cell within] at present
            cases present
            simp only at reach
            omega
      · rcases Nat.exists_eq_add_of_le (Nat.le_of_not_lt within) with ⟨y, rfl⟩
        rcases Nat.exists_eq_add_of_le (Nat.le_of_lt after) with ⟨z, rfl⟩
        rw [getElem?_expand_back] at present
        have later : continues (expand seg cells) (y + z) = true :=
          ih present (by omega) (by omega)
        rwa [continues, Nat.add_assoc, getElem?_expand_back]

end glyphs

section bounds

variable {columns : List Column}

theorem glyphStart_le (columns : List Column) (x : Nat) : glyphStart columns x ≤ x := by
  induction x with
  | zero => exact le_rfl
  | succ x ih =>
      rw [glyphStart]
      split_ifs <;> omega

theorem glyphStart_boundary (first : continues columns 0 = false) (x : Nat) :
    continues columns (glyphStart columns x) = false := by
  induction x with
  | zero => exact first
  | succ x ih =>
      rw [glyphStart]
      split_ifs with continued
      · exact ih
      · simpa [continues] using continued

theorem le_glyphStop (columns : List Column) (x : Nat) : x ≤ glyphStop columns x :=
  Nat.le_add_right _ _

theorem glyphStop_le {x : Nat} (inside : x ≤ columns.length) :
    glyphStop columns x ≤ columns.length := by
  have shorter := (List.takeWhile_prefix (l := columns.drop x)
    (fun column => decide (column.width = 0))).length_le
  rw [List.length_drop] at shorter
  unfold glyphStop
  omega

theorem glyphStop_boundary (columns : List Column) (x : Nat) :
    continues columns (glyphStop columns x) = false := by
  have stops : ∀ rest : List Column,
      (rest[(rest.takeWhile fun column => column.width = 0).length]?).any
        (fun column => column.width = 0) = false := by
    intro rest
    induction rest with
    | nil => rfl
    | cons column rest ih =>
        by_cases empty : column.width = 0
        · simpa [List.takeWhile_cons, empty] using ih
        · simp [empty]
  rw [continues, glyphStop, ← List.getElem?_drop]
  exact stops (columns.drop x)

end bounds

section spans

variable {changed : Nat → Prop}

/-- Spans that hold every changed column from `from` on, each with its gap behind it. -/
def Separated (changed : Nat → Prop) : Nat → List (Nat × Nat) → Prop
  | first, [] => ∀ x, first ≤ x → ¬ changed x
  | first, (start, stop) :: rest =>
      first ≤ start ∧ (∀ x, first ≤ x → x < start → ¬ changed x) ∧ start < stop ∧
        changed (stop - 1) ∧ (∀ x, stop ≤ x → x ≤ stop + spanGap → ¬ changed x) ∧
        Separated changed stop rest

def closeSpans : Nat → Nat → List Nat → List (Nat × Nat)
  | start, stop, [] => [(start, stop)]
  | start, stop, x :: rest =>
      if x ≤ stop + spanGap then closeSpans start (x + 1) rest
      else (start, stop) :: closeSpans x (x + 1) rest

theorem foldl_extendSpans (columns : List Nat) (spans : List (Nat × Nat)) (start stop : Nat) :
    columns.foldl extendSpans (spans ++ [(start, stop)]) =
      spans ++ closeSpans start stop columns := by
  induction columns generalizing spans start stop with
  | nil => rfl
  | cons x columns ih =>
      rw [List.foldl_cons, closeSpans]
      by_cases near : x ≤ stop + spanGap
      · have extended : extendSpans (spans ++ [(start, stop)]) x = spans ++ [(start, x + 1)] := by
          simp [extendSpans, near]
        rw [extended, ih, if_pos near]
      · have opened : extendSpans (spans ++ [(start, stop)]) x =
            (spans ++ [(start, stop)]) ++ [(x, x + 1)] := by
          simp [extendSpans, near]
        rw [opened, ih, if_neg near, List.append_assoc]
        rfl

theorem separated_closeSpans {first start stop : Nat} {columns : List Nat}
    (sorted : columns.Pairwise (· < ·)) (behind : ∀ x ∈ columns, stop ≤ x)
    (exact' : ∀ x, stop ≤ x → (changed x ↔ x ∈ columns)) (reached : first ≤ start)
    (clear : ∀ x, first ≤ x → x < start → ¬ changed x) (ordered : start < stop)
    (last : changed (stop - 1)) : Separated changed first (closeSpans start stop columns) := by
  induction columns generalizing first start stop with
  | nil =>
      have none : ∀ x, stop ≤ x → ¬ changed x := fun x after there =>
        List.not_mem_nil ((exact' x after).mp there)
      exact ⟨reached, clear, ordered, last, fun x after _ => none x after, none⟩
  | cons x columns ih =>
      rcases List.pairwise_cons.mp sorted with ⟨least, sorted⟩
      have after := behind x List.mem_cons_self
      have here : changed x := (exact' x after).mpr List.mem_cons_self
      have rest : ∀ y, x + 1 ≤ y → (changed y ↔ y ∈ columns) := by
        intro y later
        rw [exact' y (by omega), List.mem_cons]
        constructor
        · rintro (same | member)
          · omega
          · exact member
        · exact .inr
      rw [closeSpans]
      split_ifs with near
      · exact ih sorted (fun y member => least y member) rest reached clear (by omega) here
      · refine ⟨reached, clear, ordered, last, ?_, ?_⟩
        · intro y later early there
          rcases List.mem_cons.mp ((exact' y later).mp there) with same | member
          · omega
          · have order := least y member
            omega
        · refine ih sorted (fun y member => least y member) rest after ?_ (by omega) here
          intro y later early there
          rcases List.mem_cons.mp ((exact' y later).mp there) with same | member
          · omega
          · have order := least y member
            omega

theorem mem_differing {before after : List Column} (same : before.length = after.length)
    (x : Nat) : x ∈ differing before after ↔ before[x]? ≠ after[x]? := by
  simp only [differing, List.mem_filter, List.mem_range, decide_eq_true_eq]
  constructor
  · exact And.right
  · intro differs
    refine ⟨?_, differs⟩
    by_contra outside
    apply differs
    rw [List.getElem?_eq_none (by omega), List.getElem?_eq_none (by omega)]

theorem separated_spans {before after : List Column} (same : before.length = after.length) :
    Separated (fun x => before[x]? ≠ after[x]?) 0
      ((differing before after).foldl extendSpans []) := by
  have sorted : (differing before after).Pairwise (· < ·) := List.pairwise_lt_range.filter _
  have members := mem_differing same
  cases columns : differing before after with
  | nil =>
      intro x _ differs
      rw [← members, columns] at differs
      cases differs
  | cons x rest =>
      rw [columns] at sorted members
      rcases List.pairwise_cons.mp sorted with ⟨least, sorted⟩
      have opened : (x :: rest).foldl extendSpans [] = closeSpans x (x + 1) rest :=
        foldl_extendSpans rest [] x (x + 1)
      rw [opened]
      apply separated_closeSpans sorted
      · exact fun y member => least y member
      · intro y later
        rw [← members, List.mem_cons]
        constructor
        · rintro (same | member)
          · omega
          · exact member
        · exact .inr
      · exact Nat.zero_le x
      · intro y _ early differs
        rcases List.mem_cons.mp ((members y).mpr differs) with same | member
        · omega
        · have order := least y member
          omega
      · omega
      · exact (members x).mp List.mem_cons_self

end spans

section changes

variable {seg : Segmentation} {Glyph : Text → Prop} {old new cells : List Cell}

theorem continues_zero (cells : List Cell) : continues (expand seg cells) 0 = false := by
  by_contra continued
  rcases exists_glyph (Bool.of_not_eq_false continued) with ⟨start, head, before, _⟩
  exact Nat.not_lt_zero start before

theorem split_between {start stop : Nat} (ordered : start ≤ stop)
    (inside : stop ≤ (expand seg cells).length)
    (first : continues (expand seg cells) start = false)
    (second : continues (expand seg cells) stop = false) :
    ∃ front mid back, cells = front ++ mid ++ back ∧ (expand seg front).length = start ∧
      (expand seg (front ++ mid)).length = stop := by
  rcases split_at_boundary inside second with ⟨early, back, rfl, reach⟩
  by_cases same : start = stop
  · exact ⟨early, [], back, by simp, by rw [reach, same], by simp [reach]⟩
  · have kept : continues (expand seg early) start = false := by
      rw [continues, expand_append, List.getElem?_append_left (by omega)] at first
      exact first
    rcases split_at_boundary (by omega) kept with ⟨front, mid, rfl, length⟩
    exact ⟨front, mid, back, rfl, length, reach⟩

theorem getElem?_exchange {α : Type} {front mid back front' mid' back' : List α}
    (starts : front'.length = front.length) (lengths : mid'.length = mid.length) (x : Nat) :
    (front ++ mid' ++ back)[x]? =
      if front.length ≤ x ∧ x < front.length + mid.length then (front' ++ mid' ++ back')[x]?
      else (front ++ mid ++ back)[x]? := by
  simp only [List.getElem?_append, List.length_append, starts, lengths]
  split_ifs <;> first | rfl | omega

/-- A row between the old and the new one, and new up to a column. -/
structure Mixed (seg : Segmentation) (Glyph : Text → Prop) (old new : List Cell) (first : Nat)
    (cells : List Cell) : Prop where
  known : ∀ cell ∈ cells, Glyph cell.2
  length : (expand seg cells).length = (expand seg new).length
  either : ∀ x : Nat, (expand seg cells)[x]? = (expand seg new)[x]? ∨
    (expand seg cells)[x]? = (expand seg old)[x]?
  done : ∀ x : Nat, x < first → (expand seg cells)[x]? = (expand seg new)[x]?

/-- A change starts at a boundary of the row it finds, and ends at one if it does in the old row. -/
theorem Mixed.boundaries {first start stop : Nat} (mixed : Mixed seg Glyph old new first cells)
    (clear : ∀ x, first ≤ x → x < start → ¬ (expand seg old)[x]? ≠ (expand seg new)[x]?)
    (uncut : continues (expand seg old) (glyphStop (expand seg new) stop) = false) :
    (∀ x, x < start → (expand seg cells)[x]? = (expand seg new)[x]?) ∧
      continues (expand seg cells) (glyphStart (expand seg new) start) = false ∧
      continues (expand seg cells) (glyphStop (expand seg new) stop) = false := by
  have done : ∀ x, x < start → (expand seg cells)[x]? = (expand seg new)[x]? := by
    intro x early
    by_cases reached : x < first
    · exact mixed.done x reached
    · rcases mixed.either x with same | kept
      · exact same
      · rw [kept]
        exact not_not.mp (clear x (by omega) early)
  have boundary : continues (expand seg new) (glyphStart (expand seg new) start) = false :=
    glyphStart_boundary (continues_zero new) start
  have ordered := glyphStart_le (expand seg new) start
  refine ⟨done, ?_, ?_⟩
  · by_contra continued
    rcases exists_glyph (Bool.of_not_eq_false continued) with
      ⟨glyph, head, before, present, reach⟩
    rw [done glyph (by omega)] at present
    rw [continues_of_glyph present before reach] at boundary
    cases boundary
  · rcases mixed.either (glyphStop (expand seg new) stop) with same | kept
    · rw [continues, same]
      exact glyphStop_boundary (expand seg new) stop
    · rw [continues, kept]
      exact uncut

theorem Mixed.change (lawful : Resegments seg Glyph) {first start stop : Nat}
    (mixed : Mixed seg Glyph old new first cells) (known : ∀ cell ∈ new, Glyph cell.2)
    (clear : ∀ x, first ≤ x → x < start → ¬ (expand seg old)[x]? ≠ (expand seg new)[x]?)
    (ordered : start < stop) (inside : stop ≤ (expand seg new).length)
    (uncut : continues (expand seg old) (glyphStop (expand seg new) stop) = false) (y : Nat) :
    ∃ next, Mixed seg Glyph old new stop next ∧
      apply seg (rowOf seg cells) {
        y
        runs := runs (expand seg new) (glyphStart (expand seg new) start)
          (glyphStop (expand seg new) stop)
        partly := true } (expand seg new).length = rowOf seg next ∧
      lay seg (expand seg cells) (runs (expand seg new) (glyphStart (expand seg new) start)
        (glyphStop (expand seg new) stop)) = expand seg next := by
  rcases mixed.boundaries clear uncut with ⟨done, starts, stops⟩
  have before := glyphStart_le (expand seg new) start
  have after := le_glyphStop (expand seg new) stop
  have within := glyphStop_le inside
  have origin : continues (expand seg new) 0 = false := continues_zero new
  rcases split_between (by omega) within
    (glyphStart_boundary origin start)
    (glyphStop_boundary (expand seg new) stop) with ⟨front', mid', back', rfl, at', to'⟩
  rcases split_between (by omega) (by rw [mixed.length]; exact within) starts stops with
    ⟨front, mid, back, rfl, at'', to''⟩
  have heads : (expand seg front').length = (expand seg front).length := by rw [at', at'']
  have mids : (expand seg mid').length = (expand seg mid).length := by
    rw [expand_append, List.length_append] at to' to''
    omega
  have written : runs (expand seg (front' ++ mid' ++ back'))
      (glyphStart (expand seg (front' ++ mid' ++ back')) start)
      (glyphStop (expand seg (front' ++ mid' ++ back')) stop) =
      gather (cellRuns seg (expand seg front).length mid') := by
    rw [← heads, ← runs_expand, at', to']
  have fresh : ∀ cell ∈ mid', Glyph cell.2 := fun cell member => known cell (by simp [member])
  have columns : ∀ x : Nat, (expand seg (front ++ mid' ++ back))[x]? =
      if (expand seg front).length ≤ x ∧
          x < (expand seg front).length + (expand seg mid).length then
        (expand seg (front' ++ mid' ++ back'))[x]?
      else (expand seg (front ++ mid ++ back))[x]? := by
    intro x
    simp only [expand_append]
    exact getElem?_exchange heads mids x
  refine ⟨front ++ mid' ++ back, ⟨?_, ?_, ?_, ?_⟩, ?_, ?_⟩
  · intro cell member
    simp only [List.mem_append] at member
    rcases member with (member | member) | member
    · exact mixed.known cell (by simp [member])
    · exact fresh cell member
    · exact mixed.known cell (by simp [member])
  · rw [← mixed.length]
    simp only [expand_append, List.length_append, mids]
  · intro x
    rw [columns x]
    split_ifs with inside'
    · exact .inl rfl
    · exact mixed.either x
  · intro x early
    rw [columns x]
    split_ifs with inside'
    · rfl
    · apply done x
      rw [expand_append, List.length_append] at to''
      omega
  · rw [written, ← mixed.length]
    exact lawful.apply_partly mixed.known fresh mids y
  · rw [written]
    exact lawful.lay_cells fresh mids

theorem Mixed.changes (lawful : Resegments seg Glyph) {first : Nat} {spans : List (Nat × Nat)}
    (mixed : Mixed seg Glyph old new first cells) (known : ∀ cell ∈ new, Glyph cell.2)
    (separated : Separated (fun x => (expand seg old)[x]? ≠ (expand seg new)[x]?) first spans)
    (inside : ∀ span ∈ spans, span.2 ≤ (expand seg new).length)
    (uncut : ∀ span ∈ spans,
      continues (expand seg old) (glyphStop (expand seg new) span.2) = false) (y : Nat) :
    let changes := spans.map fun (start, stop) => ({
      y
      runs := runs (expand seg new) (glyphStart (expand seg new) start)
        (glyphStop (expand seg new) stop)
      partly := true } : RowChange)
    ∃ last, changes.foldl (fun row change => apply seg row change (expand seg new).length)
        (rowOf seg cells) = rowOf seg last ∧
      changes.foldl (fun laid change => lay seg laid change.runs) (expand seg cells) =
        expand seg last := by
  intro changes
  induction spans generalizing first cells with
  | nil => exact ⟨cells, rfl, rfl⟩
  | cons span spans ih =>
      rcases span with ⟨start, stop⟩
      rcases separated with ⟨_, clear, ordered, _, _, separated⟩
      rcases mixed.change lawful known clear ordered (inside _ List.mem_cons_self)
        (uncut _ List.mem_cons_self) y with ⟨next, mixed, applied, laid⟩
      rcases ih mixed separated (fun span member => inside span (List.mem_cons_of_mem _ member))
        (fun span member => uncut span (List.mem_cons_of_mem _ member)) with ⟨last, rows, columns⟩
      refine ⟨last, ?_, ?_⟩
      · rw [← rows]
        simp only [changes, List.map_cons, List.foldl_cons, applied]
      · rw [← columns]
        simp only [changes, List.map_cons, List.foldl_cons, laid]

theorem uncut_of_separated {before after : List Column} (same : before.length = after.length)
    (unsevered : severed before after = false) {first : Nat} {spans : List (Nat × Nat)}
    (separated : Separated (fun x => before[x]? ≠ after[x]?) first spans) :
    ∀ span ∈ spans, span.2 ≤ after.length ∧
      continues before (glyphStop after span.2) = false := by
  induction spans generalizing first with
  | nil => simp
  | cons span spans ih =>
      rcases span with ⟨start, stop⟩
      rcases separated with ⟨_, _, ordered, last, gap, separated⟩
      refine List.forall_mem_cons.mpr ⟨?_, ih separated⟩
      have member := (mem_differing same (stop - 1)).mpr last
      have end' : stop - 1 + 1 = stop := by omega
      have inside : stop - 1 < after.length := by
        by_contra outside
        apply last
        rw [List.getElem?_eq_none (by omega), List.getElem?_eq_none (by omega)]
      refine ⟨by simp only; omega, ?_⟩
      have whole := List.any_eq_false.mp unsevered (stop - 1) member
      rw [end'] at whole
      have clear : ((List.range (spanGap + 1)).all fun gap =>
          before[stop + gap]? = after[stop + gap]?) = true := by
        rw [List.all_eq_true]
        intro offset near
        have bound := List.mem_range.mp near
        simpa using not_not.mp (gap (stop + offset) (by omega) (by omega))
      rw [clear, Bool.and_true] at whole
      simpa using whole

end changes

/-- A row of a frame `width` columns wide, as `spanRow` writes it from runs of glyphs that fill the
width. -/
def Formed (seg : Segmentation) (Glyph : Text → Prop) (width : Nat) (row : List SpanRun) : Prop :=
  ∃ stretches : List (Stretch SpanStyle Text), (∀ stretch ∈ stretches,
      stretch.items ≠ [] ∧ ∀ glyph ∈ stretch.items, Glyph glyph) ∧
    (expand seg (spread stretches)).length = width ∧ row = spanRow (place seg 0 stretches)

def severs (seg : Segmentation) (old new : List SpanRun) (width : Nat) : Bool :=
  let before := columns seg old width
  let after := columns seg new width
  !decide (3 * width < 5 * (differing before after).length) && severed before after

section diff

variable {seg : Segmentation} {Glyph : Text → Prop} {width : Nat} {old new row : List SpanRun}

theorem Formed.cells (formed : Formed seg Glyph width row) :
    ∃ cells, (∀ cell ∈ cells, Glyph cell.2) ∧ (expand seg cells).length = width ∧
      row = rowOf seg cells := by
  rcases formed with ⟨stretches, glyphs, length, rfl⟩
  refine ⟨spread stretches, ?_, length, ?_⟩
  · intro cell member
    rcases List.mem_flatMap.mp member with ⟨stretch, inside, member⟩
    rcases List.mem_map.mp member with ⟨glyph, held, rfl⟩
    exact (glyphs stretch inside).2 glyph held
  · rw [spanRow, foldl_pushRun, rowOf,
      gather_place seg 0 stretches fun stretch member => (glyphs stretch member).1]

/-- The changes between two rows lead from the one to the other, unless they cut a glyph. -/
theorem diff_applies (lawful : Resegments seg Glyph) (before : Formed seg Glyph width old)
    (after : Formed seg Glyph width new) (unsevered : severs seg old new width = false) (y : Nat) :
    (diff seg y old new width).foldl (fun row change => apply seg row change width) old = new := by
  rcases before.cells with ⟨olds, known, length, rfl⟩
  rcases after.cells with ⟨news, known', length', rfl⟩
  have shown := lawful.columns_rowOf known
  have shown' := lawful.columns_rowOf known'
  rw [length] at shown
  rw [length'] at shown'
  have same : (expand seg olds).length = (expand seg news).length := length.trans length'.symm
  have separated := separated_spans same
  simp only [severs, shown, shown', Bool.and_eq_false_iff, Bool.not_eq_false',
    decide_eq_true_eq] at unsevered
  simp only [diff, shown, shown']
  split_ifs with none many refused
  · rw [none] at separated
    have equal : expand seg olds = expand seg news :=
      List.ext_getElem? fun x => not_not.mp (separated x (Nat.zero_le x))
    rw [List.foldl_nil, ← canonical_expand, equal, canonical_expand]
  · simp [apply]
  · simp [apply]
  · have ends := uncut_of_separated same (unsevered.resolve_left many) separated
    have mixed : Mixed seg Glyph olds news 0 olds :=
      ⟨known, same, fun x => .inr rfl, fun x early => absurd early (Nat.not_lt_zero x)⟩
    rcases mixed.changes lawful known' separated (fun span member => (ends span member).1)
      (fun span member => (ends span member).2) y with ⟨last, rows, columns⟩
    rw [length'] at rows
    rw [columns, canonical_expand] at refused
    rw [rows]
    exact not_not.mp refused

end diff

end Rozi.Recording
