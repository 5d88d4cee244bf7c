import Mathlib.Data.List.DropRight

/-!
Rows of a recorded frame: their styled runs, and row changes smaller than a row.
-/

namespace Rozi.Recording

abbrev Text := List Char

inductive AnsiColorName where
  | black | red | green | yellow | blue | magenta | cyan | white
  | brightBlack | brightRed | brightGreen | brightYellow | brightBlue | brightMagenta | brightCyan
  | brightWhite
  deriving DecidableEq, Repr

inductive SpanColor where
  | indexed (index : Nat)
  | named (name : AnsiColorName)
  | rgb (hex : String)
  deriving DecidableEq, Repr

inductive SpanUnderline where
  | single | double | curly | dotted | dashed
  deriving DecidableEq, Repr

/-- What `same_style` compares. The default is the style of a blank cell. -/
structure SpanStyle where
  fg : Option SpanColor := none
  bg : Option SpanColor := none
  underlineColor : Option SpanColor := none
  bold : Bool := false
  dim : Bool := false
  italic : Bool := false
  underline : Option SpanUnderline := none
  reverse : Bool := false
  strikethrough : Bool := false
  deriving DecidableEq, Repr

structure SpanRun where
  x : Nat
  width : Nat
  text : Text
  style : SpanStyle
  deriving DecidableEq, Repr

/-- A partial change replaces just the columns its runs cover. -/
structure RowChange where
  y : Nat
  runs : List SpanRun
  partly : Bool
  deriving DecidableEq, Repr

/-- How text falls into graphemes, and how wide a grapheme is. -/
structure Segmentation where
  graphemes : Text → List Text
  width : Text → Nat

def Segmentation.span (seg : Segmentation) (grapheme : Text) : Nat := max (seg.width grapheme) 1

/-- The glyph that starts at a column, or the second half of a wide one, which has no text. -/
structure Column where
  text : Text
  width : Nat
  style : SpanStyle
  deriving DecidableEq, Repr

def spanGap : Nat := 6

def blank : Column := { text := [' '], width := 1, style := {} }

/-- The columns from `start` up to `stop` set to a value. -/
def cover (columns : List Column) (start stop : Nat) (value : Column) : List Column :=
  columns.mapIdx fun x column => if start ≤ x ∧ x < stop then value else column

section rows

variable (seg : Segmentation)

/-- The graphemes of a run laid from column `x`, and the column behind the last. -/
def layGraphemes (style : SpanStyle) (stop : Nat) :
    Nat → List Text → List Column → Nat × List Column
  | x, [], columns => (x, columns)
  | x, grapheme :: rest, columns =>
      if stop ≤ x then (x, columns)
      else
        let width := seg.span grapheme
        let columns := columns.set x { text := grapheme, width, style }
        let columns := cover columns (x + 1) (min stop (x + width))
          { text := [], width := 0, style }
        layGraphemes style stop (x + width) rest columns

/-- A run's end is kept below `2 ^ 16`, as every row's width is. -/
def layRun (columns : List Column) (run : SpanRun) : List Column :=
  let stop := min (run.x + run.width) columns.length
  let (x, columns) := layGraphemes seg run.style stop run.x (seg.graphemes run.text) columns
  cover columns x stop { blank with style := run.style }

def lay (columns : List Column) (runs : List SpanRun) : List Column :=
  runs.foldl (layRun seg) columns

def columns (runs : List SpanRun) (width : Nat) : List Column :=
  lay seg (List.replicate width blank) runs

def pushRun (out : List SpanRun) (run : SpanRun) : List SpanRun :=
  match out.getLast? with
  | some last =>
      if last.style = run.style then
        out.dropLast ++ [{ last with
          width := last.width + run.width, text := last.text ++ run.text }]
      else out ++ [run]
  | none => [run]

/-- `columns[start..end]` as runs, each as long as its style lasts. -/
def runs (columns : List Column) (start stop : Nat) : List SpanRun :=
  ((columns.take stop).zipIdx.drop start).foldl (fun out (column, x) =>
    pushRun out { x, width := 1, text := column.text, style := column.style }) []

def trimBlanks (row : List SpanRun) : List SpanRun :=
  match row.getLast? with
  | some last =>
      if last.style = {} then
        let kept := last.text.rdropWhile (· = ' ')
        let width := last.width - (last.text.length - kept.length)
        if width = 0 then row.dropLast
        else row.dropLast ++ [{ last with text := kept, width }]
      else row
  | none => row

def canonical (columns : List Column) : List SpanRun := trimBlanks (runs columns 0 columns.length)

/-- Apply one change to a row of a frame `width` columns wide. -/
def apply (row : List SpanRun) (change : RowChange) (width : Nat) : List SpanRun :=
  if change.partly then canonical (lay seg (columns seg row width) change.runs) else change.runs

def differing (before after : List Column) : List Nat :=
  (List.range after.length).filter fun x => before[x]? ≠ after[x]?

def extendSpans (spans : List (Nat × Nat)) (x : Nat) : List (Nat × Nat) :=
  match spans.getLast? with
  | some (start, stop) =>
      if x ≤ stop + spanGap then spans.dropLast ++ [(start, x + 1)] else spans ++ [(x, x + 1)]
  | none => [(x, x + 1)]

def glyphStart (columns : List Column) : Nat → Nat
  | 0 => 0
  | x + 1 =>
      if (columns[x + 1]?).any (fun column => column.width = 0) then glyphStart columns x
      else x + 1

def glyphStop (columns : List Column) (x : Nat) : Nat :=
  x + ((columns.drop x).takeWhile fun column => column.width = 0).length

/-- The changes that turn `old` into `new`: the spans that differ, or the whole row when that is as
cheap or they would not reproduce it. `WHOLE_ROW_SHARE` is 0.6. -/
def diff (y : Nat) (old new : List SpanRun) (width : Nat) : List RowChange :=
  let whole : List RowChange := [{ y, runs := new, partly := false }]
  let before := columns seg old width
  let after := columns seg new width
  let changed := differing before after
  let spans := changed.foldl extendSpans []
  if spans = [] then []
  else if 3 * width < 5 * changed.length then whole
  else
    let changes := spans.map fun (start, stop) =>
      ({ y, runs := runs after (glyphStart after start) (glyphStop after stop), partly := true } :
        RowChange)
    let laid := changes.foldl (fun laid change => lay seg laid change.runs) before
    if canonical laid ≠ new then whole else changes

def spanRow (cells : List SpanRun) : List SpanRun := trimBlanks (cells.foldl pushRun [])

end rows

end Rozi.Recording
