import Rozi.Library.ShellWords

/-!
Command lines written for a prompt, quoted the way the shell behind it reads them.
-/

namespace Rozi

open ShellWords

inductive PaneCommandPhase where
  | unknown | prompt | input | executing
  | completed (exitStatus : Option Int)
  deriving DecidableEq, Repr

structure ForegroundSnapshot where
  commandPhase : PaneCommandPhase
  program : Option (List Char) := none
  executable : Option (List Char) := none
  arguments : List (List Char) := []
  remote : Bool := false
  shell : Bool := false
  deriving DecidableEq, Repr

def runningProgram (commandPhase : PaneCommandPhase) (program : Option (List Char))
    (shell : Bool) : Option (List Char) :=
  match commandPhase with
  | .executing | .unknown => program.filter fun _ => !shell
  | .prompt | .input | .completed _ => none

inductive PromptQuoting where
  | posix | fish | powerShell | cmd
  deriving DecidableEq, Repr

def PromptQuoting.isPlain (quoting : PromptQuoting) (ch : Char) : Bool :=
  ch.isAlphanum ||
    match quoting with
    | .cmd => "_-./:\\".toList.contains ch
    | _ => "_-./:@%+=".toList.contains ch

def replace (old : Char) (new : String) (word : List Char) : List Char :=
  word.flatMap fun ch => if ch = old then new.toList else [ch]

def quotePosixArg (word : List Char) : List Char :=
  '\'' :: (replace '\'' "'\\''" word ++ ['\''])

def quoteForPrompt (word : List Char) (quoting : PromptQuoting) : List Char :=
  if !word.isEmpty && word.all quoting.isPlain then word
  else
    match quoting with
    | .posix => quotePosixArg word
    | .fish => '\'' :: (replace '\'' "\\'" (replace '\\' "\\\\" word) ++ ['\''])
    | .powerShell => '\'' :: (replace '\'' "''" word ++ ['\''])
    | .cmd => '"' :: (replace '"' "\"\"" word ++ ['"'])

def joinWords (words : List (List Char)) : List Char :=
  [' '].intercalate words

def promptLine (argv : List (List Char)) (quoting : PromptQuoting) : List Char :=
  let line := joinWords (argv.map (quoteForPrompt · quoting))
  match quoting with
  | .powerShell => '&' :: ' ' :: line
  | _ => line

def replayableForegroundCommand (snapshot : ForegroundSnapshot) : Option (List Char) := do
  let program ← runningProgram snapshot.commandPhase snapshot.program snapshot.shell
  if snapshot.remote then return program
  let program :=
    match snapshot.executable with
    | some path => quoteForPrompt path .posix
    | none => program
  return joinWords (program :: snapshot.arguments.map (quoteForPrompt · .posix))

/-- The shell that a line is quoted for; `cmd.exe` is not among those that read it back. -/
def PromptQuoting.dialect : PromptQuoting → Option Dialect
  | posix => some .posix
  | fish => some .fish
  | powerShell => some .powerShell
  | cmd => none

def isBare (quoting : PromptQuoting) (word : List Char) : Bool :=
  !word.isEmpty && word.all quoting.isPlain

section renders

variable {ch : Char}

theorem posix_renders :
    Renders .posix (fun ch => if ch = '\'' then "'\\''".toList else [ch]) ch := by
  intro words word
  dsimp only
  split
  · rename_i quote
    subst quote
    rfl
  · rename_i other
    rw [scan_cons, step_literal (by simpa [quotes] using other) (by simp)]
    rfl

theorem fish_renders :
    Renders .fish (fun ch => (if ch = '\\' then "\\\\".toList else [ch]).flatMap
      fun ch => if ch = '\'' then "\\'".toList else [ch]) ch := by
  intro words word
  dsimp only
  by_cases straight : ch = '\\'
  · subst straight
    rfl
  · rw [if_neg straight, List.flatMap_singleton]
    split
    · rename_i quote
      subst quote
      rfl
    · rename_i other
      rw [scan_cons, step_literal (by simpa [quotes] using other) (by simpa using straight)]
      rfl

theorem powerShell_renders (apart : ch ∉ typographic) :
    Renders .powerShell (fun ch => if ch = '\'' then "''".toList else [ch]) ch := by
  intro words word
  dsimp only
  split
  · rename_i quote
    subst quote
    rfl
  · rename_i other
    have outside : ch ∉ quotes .powerShell := by
      rw [quotes, List.mem_cons, not_or]
      exact ⟨other, apart⟩
    rw [scan_cons, step_literal outside (by simp)]
    rfl

end renders

section plain

variable {quoting : PromptQuoting} {dialect : Dialect} (reader : quoting.dialect = some dialect)
include reader

theorem isPlain_ordinary {ch : Char} (plain : quoting.isPlain ch = true) :
    ch ∉ blanks ++ quotes dialect ++ escapes dialect ++ specials dialect := by
  have none : ((blanks ++ quotes dialect ++ escapes dialect ++ specials dialect).all
      fun other => !quoting.isPlain other) = true := by
    cases quoting <;> cases dialect <;> first | decide | cases reader
  intro member
  have special := List.all_eq_true.mp none ch member
  rw [plain] at special
  cases special

/-- A word is written so that its own shell reads it, all of it quoted or none. -/
theorem scan_quoteForPrompt {words : List (List Mark)} {word : List Char}
    (apart : dialect = .powerShell → ∀ ch ∈ word, ch ∉ typographic) :
    ∃ mode, (mode = .bare ∨ mode = .closing) ∧
      scan dialect { words } (quoteForPrompt word quoting) =
        some { words, word := some (marked (!isBare quoting word) word), mode } := by
  cases bare : isBare quoting word with
  | true =>
      have plain : word ≠ [] ∧ ∀ ch ∈ word, quoting.isPlain ch = true := by
        simpa [isBare] using bare
      refine ⟨.bare, .inl rfl, ?_⟩
      unfold quoteForPrompt
      rw [isBare] at bare
      rw [if_pos bare]
      exact scan_ordinary plain.1 fun ch member => isPlain_ordinary reader (plain.2 ch member)
  | false =>
      unfold quoteForPrompt
      rw [isBare] at bare
      rw [bare, if_neg Bool.false_ne_true]
      cases quoting with
      | posix =>
          obtain rfl := Option.some.inj reader
          exact ⟨.bare, .inl rfl, scan_quoted fun _ _ => posix_renders⟩
      | fish =>
          obtain rfl := Option.some.inj reader
          dsimp only
          rw [replace, replace, List.flatMap_assoc]
          exact ⟨.bare, .inl rfl, scan_quoted fun _ _ => fish_renders⟩
      | powerShell =>
          obtain rfl := Option.some.inj reader
          exact ⟨.closing, .inr rfl, scan_quoted fun ch member => powerShell_renders (apart rfl ch member)⟩
      | cmd => cases reader

theorem readWords_joinWords {words : List (List Char)}
    (apart : dialect = .powerShell → ∀ word ∈ words, ∀ ch ∈ word, ch ∉ typographic) :
    readWords dialect (joinWords (words.map (quoteForPrompt · quoting))) =
      some (words.map fun word => marked (!isBare quoting word) word) :=
  readWords_intercalate fun word member _ =>
    scan_quoteForPrompt reader fun shell => apart shell word member

end plain

end Rozi
