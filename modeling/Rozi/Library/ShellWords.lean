import Mathlib.Data.List.Basic
import Mathlib.Algebra.GroupWithZero.Nat

/-!
How three families of shells read one line: as words, parts of which may be quoted, and as one simple
command made of them.
-/

namespace Rozi

namespace ShellWords

inductive Dialect where
  | posix | fish | powerShell
  deriving DecidableEq, Repr

structure Mark where
  ch : Char
  quoted : Bool
  deriving DecidableEq, Repr

def text (word : List Mark) : List Char :=
  word.map (·.ch)

def marked (quoted : Bool) (word : List Char) : List Mark :=
  word.map fun ch => ⟨ch, quoted⟩

@[simp]
theorem text_marked (quoted : Bool) (word : List Char) : text (marked quoted word) = word := by
  simp [text, marked, Function.comp_def]

inductive Mode where
  | bare | escape | literal | literalEscape | closing
  deriving DecidableEq, Repr

structure Reading where
  words : List (List Mark) := []
  word : Option (List Mark) := none
  mode : Mode := .bare
  deriving DecidableEq, Repr

namespace Reading

def put (reading : Reading) (ch : Char) (quoted : Bool) (mode : Mode) : Reading :=
  { reading with word := some (reading.word.getD [] ++ [⟨ch, quoted⟩]), mode }

def turn (reading : Reading) (mode : Mode) : Reading :=
  { reading with word := some (reading.word.getD []), mode }

def endWord (reading : Reading) : Reading where
  words := reading.words ++ reading.word.toList

end Reading

def blanks : List Char :=
  [' ', '\t']

def typographic : List Char :=
  [Char.ofNat 0x2018, Char.ofNat 0x2019, Char.ofNat 0x201A, Char.ofNat 0x201B]

def quotes : Dialect → List Char
  | .powerShell => '\'' :: typographic
  | _ => ['\'']

def escapes : Dialect → List Char
  | .powerShell => []
  | _ => ['\\']

def specials : Dialect → List Char
  | .powerShell => "|&;<>()$`\"#,\x7b\x7d[]*?~!^\n\r".toList
  | _ => "|&;<>()$`\"#*?[]\x7b\x7d~!^\n\r".toList

section reading

variable (dialect : Dialect)

/-- A character outside quotes; `none` where the line is not only words. -/
def stepBare (reading : Reading) (ch : Char) : Option Reading :=
  if ch ∈ blanks then some reading.endWord
  else if ch ∈ quotes dialect then some (reading.turn .literal)
  else if ch ∈ escapes dialect then some (reading.turn .escape)
  else if ch ∈ specials dialect then none
  else some (reading.put ch false .bare)

def step (reading : Reading) (ch : Char) : Option Reading :=
  match reading.mode with
  | .bare => stepBare dialect reading ch
  | .escape => if ch = '\n' then none else some (reading.put ch true .bare)
  | .literal =>
      if ch ∈ quotes dialect then
        some (reading.turn (if dialect = .powerShell then .closing else .bare))
      else if dialect = .fish ∧ ch = '\\' then some (reading.turn .literalEscape)
      else some (reading.put ch true .literal)
  | .literalEscape =>
      if ch = '\\' ∨ ch = '\'' then some (reading.put ch true .literal)
      else some ((reading.put '\\' true .literal).put ch true .literal)
  | .closing =>
      if ch ∈ quotes dialect then some (reading.put ch true .literal)
      else stepBare dialect reading ch

def scan (reading : Reading) (line : List Char) : Option Reading :=
  line.foldlM (step dialect) reading

/-- The words there are when the line ends, unless a quote is still open. -/
def finish (reading : Reading) : Option (List (List Mark)) :=
  if reading.mode = .bare ∨ reading.mode = .closing then some reading.endWord.words else none

def readWords (line : List Char) : Option (List (List Mark)) := do
  let reading ← scan dialect {} line
  finish reading

end reading

def isNameStart (ch : Char) : Bool :=
  ch.isAlpha || ch == '_'

def isNameChar (ch : Char) : Bool :=
  ch.isAlphanum || ch == '_'

def nameOf (word : List Char) : List Char :=
  word.takeWhile (· != '=')

def namesVariable (word : List Char) : Bool :=
  (nameOf word).length < word.length && ((nameOf word).head?.any isNameStart) &&
    (nameOf word).all isNameChar

def isAssignment (word : List Mark) : Bool :=
  namesVariable (text word) &&
    (word.take ((nameOf (text word)).length + 1)).all fun mark => !mark.quoted

def isSplat (word : List Mark) : Bool :=
  word.head? == some ⟨'@', false⟩

def stopsParsing (word : List Mark) : Bool :=
  word == marked false "--%".toList

structure SimpleCommand where
  assignments : List (List Char) := []
  words : List (List Char)
  deriving DecidableEq, Repr

def readLine (dialect : Dialect) (line : List Char) : Option SimpleCommand :=
  match dialect with
  | .powerShell =>
      match line with
      | '&' :: rest => do
          let words ← readWords dialect rest
          if words.any fun word => isSplat word || stopsParsing word then none
          else return { words := words.map text }
      | _ => none
  | _ => do
      let words ← readWords dialect line
      return {
        assignments := (words.takeWhile isAssignment).map text
        words := (words.dropWhile isAssignment).map text }

section scanned

variable {dialect : Dialect} {words : List (List Mark)} {word : List Mark}

theorem scan_append (reading : Reading) (front back : List Char) :
    scan dialect reading (front ++ back) =
      (scan dialect reading front).bind fun reading => scan dialect reading back := by
  rw [scan, List.foldlM_append]
  rfl

theorem scan_cons (reading : Reading) (ch : Char) (rest : List Char) :
    scan dialect reading (ch :: rest) =
      (step dialect reading ch).bind fun reading => scan dialect reading rest := by
  rw [scan, List.foldlM_cons]
  rfl

theorem stepBare_ordinary {reading : Reading} {ch : Char}
    (ordinary : ch ∉ blanks ++ quotes dialect ++ escapes dialect ++ specials dialect) :
    stepBare dialect reading ch = some (reading.put ch false .bare) := by
  simp only [List.mem_append, not_or] at ordinary
  rw [stepBare, if_neg ordinary.1.1.1, if_neg ordinary.1.1.2, if_neg ordinary.1.2,
    if_neg ordinary.2]

theorem scan_ordinary {chars : List Char} (nonempty : chars ≠ [])
    (ordinary : ∀ ch ∈ chars,
      ch ∉ blanks ++ quotes dialect ++ escapes dialect ++ specials dialect) :
    scan dialect { words } chars = some { words, word := some (marked false chars) } := by
  have begun : ∀ rest : List Char, (∀ ch ∈ rest,
      ch ∉ blanks ++ quotes dialect ++ escapes dialect ++ specials dialect) → ∀ word,
      scan dialect { words, word := some word } rest =
        some { words, word := some (word ++ marked false rest) } := by
    intro rest
    induction rest with
    | nil => intro _ word; rw [marked, List.map_nil, List.append_nil]; rfl
    | cons ch rest ih =>
        intro ordinary word
        rw [scan_cons, step, stepBare_ordinary (ordinary ch List.mem_cons_self), Option.bind_some,
          Reading.put, ih fun other member => ordinary other (List.mem_cons_of_mem _ member)]
        simp [marked]
  cases chars with
  | nil => exact absurd rfl nonempty
  | cons ch rest =>
      rw [scan_cons, step, stepBare_ordinary (ordinary ch List.mem_cons_self), Option.bind_some,
        Reading.put, begun rest fun other member => ordinary other (List.mem_cons_of_mem _ member)]
      rfl

/-- Within quotes a character is itself, but for the one that closes them and an escape. -/
theorem step_literal {ch : Char} (apart : ch ∉ quotes dialect)
    (straight : ¬ (dialect = .fish ∧ ch = '\\')) :
    step dialect { words, word := some word, mode := .literal } ch =
      some { words, word := some (word ++ [⟨ch, true⟩]), mode := .literal } := by
  unfold step
  dsimp only
  rw [if_neg apart, if_neg straight]
  rfl

def Renders (dialect : Dialect) (write : Char → List Char) (ch : Char) : Prop :=
  ∀ words word, scan dialect { words, word := some word, mode := .literal } (write ch) =
    some { words, word := some (word ++ [⟨ch, true⟩]), mode := .literal }

theorem scan_literal {write : Char → List Char} {chars : List Char}
    (renders : ∀ ch ∈ chars, Renders dialect write ch) :
    scan dialect { words, word := some word, mode := .literal } (chars.flatMap write) =
      some { words, word := some (word ++ marked true chars), mode := .literal } := by
  induction chars generalizing word with
  | nil => rw [marked, List.map_nil, List.append_nil]; rfl
  | cons ch rest ih =>
      rw [List.flatMap_cons, scan_append, renders ch List.mem_cons_self, Option.bind_some,
        ih fun other member => renders other (List.mem_cons_of_mem _ member)]
      simp [marked]

theorem scan_opened {write : Char → List Char} {chars : List Char}
    (renders : ∀ ch ∈ chars, Renders dialect write ch) :
    scan dialect { words } ('\'' :: chars.flatMap write) =
      some { words, word := some (marked true chars), mode := .literal } := by
  have opens : '\'' ∈ quotes dialect := by cases dialect <;> decide
  have first : step dialect { words } '\'' =
      some { words, word := some [], mode := .literal } := by
    rw [step, stepBare, if_neg (by decide), if_pos opens]
    rfl
  rw [scan_cons, first, Option.bind_some, scan_literal renders]
  rfl

theorem scan_quoted {write : Char → List Char} {chars : List Char}
    (renders : ∀ ch ∈ chars, Renders dialect write ch) :
    scan dialect { words } ('\'' :: (chars.flatMap write ++ ['\''])) =
      some { words, word := some (marked true chars),
             mode := if dialect = .powerShell then .closing else .bare } := by
  have closes : '\'' ∈ quotes dialect := by cases dialect <;> decide
  rw [← List.cons_append, scan_append, scan_opened renders, Option.bind_some, scan_cons, step,
    if_pos closes]
  rfl

theorem step_blank {mode : Mode} (ended : mode = .bare ∨ mode = .closing) :
    step dialect { words, word := some word, mode } ' ' = some { words := words ++ [word] } := by
  have apart : ' ' ∉ quotes dialect := by cases dialect <;> decide
  have blank : (' ' : Char) ∈ blanks := by decide
  rcases ended with rfl | rfl
  · rw [step, stepBare, if_pos blank]
    rfl
  · have read : step dialect { words, word := some word, mode := .closing } ' ' =
        stepBare dialect { words, word := some word, mode := .closing } ' ' := if_neg apart
    rw [read, stepBare, if_pos blank]
    rfl

/-- Words that are each read as they are meant are, with a blank between any two, read in order. -/
theorem readWords_intercalate {α : Type} {write : α → List Char} {mark : α → List Mark}
    {items : List α}
    (each : ∀ item ∈ items, ∀ words, ∃ mode, (mode = .bare ∨ mode = .closing) ∧
      scan dialect { words } (write item) = some { words, word := some (mark item), mode }) :
    readWords dialect ([' '].intercalate (items.map write)) = some (items.map mark) := by
  have after : ∀ words, (scan dialect { words } ([' '].intercalate (items.map write))).bind finish =
      some (words ++ items.map mark) := by
    induction items with
    | nil => intro words; rfl
    | cons item rest ih =>
        intro words
        rcases each item List.mem_cons_self words with ⟨mode, ended, read⟩
        have later := ih fun other member => each other (List.mem_cons_of_mem _ member)
        cases rest with
        | nil =>
            rw [List.map_singleton, List.intercalate_singleton, read, Option.bind_some, finish,
              if_pos ended]
            rfl
        | cons next rest =>
            rw [List.map_cons, List.map_cons, List.intercalate_cons_cons, List.append_assoc,
              scan_append, read, Option.bind_some, List.singleton_append, scan_cons,
              step_blank ended, Option.bind_some, ← List.map_cons, later]
            simp
  exact after []

theorem scan_terminated {α : Type} {write : α → List Char} {mark : α → List Mark} {items : List α}
    (each : ∀ item ∈ items, ∀ words, ∃ mode, (mode = .bare ∨ mode = .closing) ∧
      scan dialect { words } (write item) = some { words, word := some (mark item), mode })
    (words : List (List Mark)) :
    scan dialect { words } (items.flatMap fun item => write item ++ [' ']) =
      some { words := words ++ items.map mark } := by
  induction items generalizing words with
  | nil => rw [List.map_nil, List.append_nil]; rfl
  | cons item rest ih =>
      rcases each item List.mem_cons_self words with ⟨mode, ended, read⟩
      rw [List.flatMap_cons, List.append_assoc, scan_append, read, Option.bind_some,
        List.singleton_append, scan_cons, step_blank ended, Option.bind_some,
        ih fun other member => each other (List.mem_cons_of_mem _ member)]
      simp

end scanned

section assignment

variable {word : List Char} {quoted : Bool}

theorem isAssignment_marked :
    isAssignment (marked quoted word) = (!quoted && namesVariable word) := by
  rw [isAssignment, text_marked]
  cases named : namesVariable word with
  | false => simp
  | true =>
      have nonempty : word ≠ [] := by
        rintro rfl
        cases named
      rcases List.exists_cons_of_ne_nil nonempty with ⟨first, rest, rfl⟩
      cases quoted with
      | true => simp [marked]
      | false =>
          have all : ∀ mark ∈ marked false (first :: rest), mark.quoted = false := by
            intro mark member
            rcases List.mem_map.mp member with ⟨ch, _, rfl⟩
            rfl
          rw [Bool.not_false, Bool.true_and, Bool.true_and, List.all_eq_true]
          intro mark member
          rw [all mark (List.mem_of_mem_take member), Bool.not_false]

theorem isSplat_marked :
    isSplat (marked quoted word) = (!quoted && word.head? == some '@') := by
  cases word with
  | nil => simp [isSplat, marked]
  | cons first rest => cases quoted <;> simp [isSplat, marked]

theorem marked_inj {other : Bool} {rest : List Char} (nonempty : rest ≠ [])
    (same : marked quoted word = marked other rest) : quoted = other ∧ word = rest := by
  have texts : word = rest := by
    have read := congrArg text same
    rwa [text_marked, text_marked] at read
  subst texts
  refine ⟨?_, rfl⟩
  rcases List.exists_cons_of_ne_nil nonempty with ⟨first, rest, rfl⟩
  rw [marked, marked, List.map_cons, List.map_cons] at same
  exact (Mark.mk.inj (List.cons.inj same).1).2

end assignment

section borne

variable (counted : Char → Bool) {dialect : Dialect} {reading after : Reading}

def borne (reading : Reading) : Nat :=
  (reading.words.map fun word => (text word).countP counted).sum +
    (text (reading.word.getD [])).countP counted

theorem borne_put (ch : Char) (quoted : Bool) (mode : Mode) :
    borne counted (reading.put ch quoted mode) =
      borne counted reading + if counted ch then 1 else 0 := by
  simp only [borne, Reading.put, Option.getD_some, text, List.map_append, List.map_cons,
    List.map_nil, List.countP_append, List.countP_singleton]
  omega

theorem borne_turn (mode : Mode) : borne counted (reading.turn mode) = borne counted reading := by
  simp [borne, Reading.turn]

theorem borne_endWord : borne counted reading.endWord = borne counted reading := by
  cases word : reading.word <;> simp [borne, Reading.endWord, word, text]

theorem borne_stepBare {ch : Char} (stepped : stepBare dialect reading ch = some after) :
    borne counted after ≤ borne counted reading + if counted ch then 1 else 0 := by
  unfold stepBare at stepped
  split at stepped
  · obtain rfl := Option.some.inj stepped
    rw [borne_endWord]
    exact Nat.le_add_right _ _
  · split at stepped
    · obtain rfl := Option.some.inj stepped
      rw [borne_turn]
      exact Nat.le_add_right _ _
    · split at stepped
      · obtain rfl := Option.some.inj stepped
        rw [borne_turn]
        exact Nat.le_add_right _ _
      · split at stepped
        · cases stepped
        · obtain rfl := Option.some.inj stepped
          exact Nat.le_of_eq (borne_put counted _ _ _)

theorem borne_step {ch : Char} (plain : counted '\\' = false)
    (stepped : step dialect reading ch = some after) :
    borne counted after ≤ borne counted reading + if counted ch then 1 else 0 := by
  unfold step at stepped
  split at stepped
  · exact borne_stepBare counted stepped
  · split at stepped
    · cases stepped
    · obtain rfl := Option.some.inj stepped
      exact Nat.le_of_eq (borne_put counted _ _ _)
  · split at stepped
    · obtain rfl := Option.some.inj stepped
      rw [borne_turn]
      exact Nat.le_add_right _ _
    · split at stepped
      · obtain rfl := Option.some.inj stepped
        rw [borne_turn]
        exact Nat.le_add_right _ _
      · obtain rfl := Option.some.inj stepped
        exact Nat.le_of_eq (borne_put counted _ _ _)
  · split at stepped
    · obtain rfl := Option.some.inj stepped
      exact Nat.le_of_eq (borne_put counted _ _ _)
    · obtain rfl := Option.some.inj stepped
      exact Nat.le_of_eq (by
        rw [borne_put, borne_put, plain, if_neg Bool.false_ne_true, Nat.add_zero])
  · split at stepped
    · obtain rfl := Option.some.inj stepped
      exact Nat.le_of_eq (borne_put counted _ _ _)
    · exact borne_stepBare counted stepped

theorem borne_scan {line : List Char} (plain : counted '\\' = false)
    (read : scan dialect reading line = some after) :
    borne counted after ≤ borne counted reading + line.countP counted := by
  induction line generalizing reading with
  | nil =>
      obtain rfl := Option.some.inj read
      exact Nat.le_add_right _ _
  | cons ch rest ih =>
      rw [scan_cons] at read
      rcases Option.bind_eq_some_iff.mp read with ⟨next, stepped, further⟩
      have first := borne_step counted plain stepped
      have later := ih further
      rw [List.countP_cons]
      omega

theorem borne_lost {front back : List Char} {ch : Char} {opened : Reading}
    (plain : counted '\\' = false) (quote : ch ∈ quotes .powerShell) (lost : counted ch = true)
    (before : scan .powerShell reading front = some opened) (within : opened.mode = .literal)
    (read : scan .powerShell reading (front ++ ch :: back) = some after) :
    borne counted after < borne counted reading + (front ++ ch :: back).countP counted := by
  rw [scan_append, before, Option.bind_some, scan_cons, step, within] at read
  dsimp only at read
  rw [if_pos quote, Option.bind_some] at read
  have first := borne_scan counted plain before
  have later := borne_scan counted plain read
  rw [borne_turn] at later
  rw [List.countP_append, List.countP_cons, lost, if_pos rfl]
  omega

end borne

end ShellWords

end Rozi
