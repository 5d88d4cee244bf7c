import Rozi.Pane.PromptLine
import Mathlib.Algebra.GroupWithZero.Nat

/-!
When a prompt line reads back as the argv it was written for.
-/

namespace Rozi

open ShellWords

/-- Where a shell reads a word that the line leaves bare, or does not escape, as something else. -/
def ReadsBack (argv : List (List Char)) : PromptQuoting → Prop
  | .posix => ∀ program ∈ argv.head?, ¬ (isBare .posix program ∧ namesVariable program)
  | .fish => ∀ program ∈ argv.head?, ¬ (isBare .fish program ∧ namesVariable program)
  | .powerShell => ∀ word ∈ argv, ¬ (isBare .powerShell word ∧ word.head? = some '@') ∧
      word ≠ "--%".toList ∧ ∀ ch ∈ word, ch ∉ typographic
  | .cmd => False

section assigned

variable {quoting : PromptQuoting} {argv : List (List Char)}

/-- Only the program can be read as an assignment, since the words after it follow a program. -/
theorem words_of_marked (argv : List (List Char)) :
    SimpleCommand.mk
        (((argv.map fun word => marked (!isBare quoting word) word).takeWhile isAssignment).map text)
        (((argv.map fun word => marked (!isBare quoting word) word).dropWhile isAssignment).map
          text) = { words := argv } ↔
      ∀ program ∈ argv.head?, ¬ (isBare quoting program ∧ namesVariable program) := by
  cases argv with
  | nil => simp
  | cons program rest =>
      have texts : (rest.map fun word => marked (!isBare quoting word) word).map text = rest := by
        rw [List.map_map]
        exact (List.map_congr_left fun _ _ => text_marked _ _).trans (List.map_id rest)
      simp only [List.map_cons, List.takeWhile_cons, List.dropWhile_cons, isAssignment_marked,
        Bool.not_not, List.head?_cons, Option.mem_some_iff, forall_eq', ← Bool.and_eq_true]
      cases assigned : isBare quoting program && namesVariable program with
      | true => simp
      | false => simp [texts]

theorem readLine_posix (argv : List (List Char)) :
    readLine .posix (joinWords (argv.map (quoteForPrompt · .posix))) = some { words := argv } ↔
      ReadsBack argv .posix := by
  have read : readWords .posix (joinWords (argv.map (quoteForPrompt · .posix))) =
      some (argv.map fun word => marked (!isBare .posix word) word) :=
    readWords_joinWords rfl fun shell => by cases shell
  unfold readLine
  dsimp only
  rw [read, Option.bind_eq_bind, Option.bind_some, Option.pure_def, Option.some_inj]
  exact words_of_marked argv

theorem readLine_fish (argv : List (List Char)) :
    readLine .fish (joinWords (argv.map (quoteForPrompt · .fish))) = some { words := argv } ↔
      ReadsBack argv .fish := by
  have read : readWords .fish (joinWords (argv.map (quoteForPrompt · .fish))) =
      some (argv.map fun word => marked (!isBare .fish word) word) :=
    readWords_joinWords rfl fun shell => by cases shell
  unfold readLine
  dsimp only
  rw [read, Option.bind_eq_bind, Option.bind_some, Option.pure_def, Option.some_inj]
  exact words_of_marked argv

end assigned

section called

variable {argv : List (List Char)}

theorem stopsParsing_marked {word : List Char} :
    stopsParsing (marked (!isBare .powerShell word) word) = true ↔ word = "--%".toList := by
  rw [stopsParsing, beq_iff_eq]
  constructor
  · intro same
    exact (marked_inj (by decide) same).2
  · rintro rfl
    decide

theorem readLine_called (line : List Char) :
    readLine .powerShell ('&' :: ' ' :: line) =
      (readWords .powerShell line).bind fun words =>
        if words.any fun word => isSplat word || stopsParsing word then none
        else some { words := words.map text } := by
  rfl

theorem other_marked {word : List Char} :
    (isSplat (marked (!isBare .powerShell word) word) ||
      stopsParsing (marked (!isBare .powerShell word) word)) = true ↔
      (isBare .powerShell word ∧ word.head? = some '@') ∨ word = "--%".toList := by
  rw [Bool.or_eq_true, stopsParsing_marked, isSplat_marked, Bool.not_not, Bool.and_eq_true,
    beq_iff_eq]

theorem readLine_straight (straight : ∀ word ∈ argv, ∀ ch ∈ word, ch ∉ typographic) :
    readLine .powerShell (promptLine argv .powerShell) = some { words := argv } ↔
      ReadsBack argv .powerShell := by
  have read : readWords .powerShell (joinWords (argv.map (quoteForPrompt · .powerShell))) =
      some (argv.map fun word => marked (!isBare .powerShell word) word) :=
    readWords_joinWords rfl fun _ => straight
  rw [promptLine, readLine_called, read, Option.bind_some]
  have texts : (argv.map fun word => marked (!isBare .powerShell word) word).map text = argv := by
    rw [List.map_map]
    exact (List.map_congr_left fun _ _ => text_marked _ _).trans (List.map_id argv)
  rw [texts, List.any_map]
  constructor
  · intro same word member
    split at same
    · cases same
    · rename_i plain
      have own : ¬ ((isBare .powerShell word ∧ word.head? = some '@') ∨ word = "--%".toList) :=
        fun meaning => plain (List.any_eq_true.mpr ⟨word, member, other_marked.mpr meaning⟩)
      exact ⟨fun splat => own (.inl splat), fun stop => own (.inr stop), straight word member⟩
  · intro back
    rw [if_neg]
    rw [List.any_eq_true]
    rintro ⟨word, member, meaning⟩
    rcases other_marked.mp meaning with splat | stop
    · exact (back word member).1 splat
    · exact (back word member).2.1 stop

/-- A word is quoted when a character of it is not one of those left bare. -/
theorem quoteForPrompt_powerShell {word : List Char} {ch : Char} (member : ch ∈ word)
    (quote : ch ∈ typographic) :
    quoteForPrompt word .powerShell = '\'' :: (replace '\'' "''" word ++ ['\'']) := by
  have strange : PromptQuoting.isPlain .powerShell ch = false := by
    have all : (typographic.all fun other => !PromptQuoting.isPlain .powerShell other) = true := by
      decide
    simpa using List.all_eq_true.mp all ch quote
  have quoted : (!word.isEmpty && word.all (PromptQuoting.isPlain .powerShell)) = false := by
    rw [Bool.and_eq_false_iff]
    right
    rw [List.all_eq_false]
    exact ⟨ch, member, by rw [strange]; exact Bool.false_ne_true⟩
  unfold quoteForPrompt
  rw [quoted, if_neg Bool.false_ne_true]

def isTypographic (ch : Char) : Bool :=
  decide (ch ∈ typographic)

theorem countP_quoteForPrompt (word : List Char) :
    (quoteForPrompt word .powerShell).countP isTypographic = word.countP isTypographic := by
  have replaced : ∀ word : List Char,
      (replace '\'' "''" word).countP isTypographic = word.countP isTypographic := by
    intro word
    induction word with
    | nil => rfl
    | cons ch rest ih =>
        rw [replace, List.flatMap_cons, List.countP_append, ← replace, ih, List.countP_cons,
          Nat.add_comm]
        split
        · rename_i quote
          subst quote
          rfl
        · rw [List.countP_singleton]
  unfold quoteForPrompt
  split
  · rfl
  · dsimp only
    rw [List.countP_cons, List.countP_append, replaced]
    rfl

theorem countP_joinWords (words : List (List Char)) :
    (joinWords words).countP isTypographic = (words.map (List.countP isTypographic)).sum := by
  induction words with
  | nil => rfl
  | cons word rest ih =>
      cases rest with
      | nil => simp [joinWords]
      | cons next rest =>
          rw [joinWords, List.intercalate_cons_cons, ← joinWords, List.countP_append,
            List.countP_append, ih, List.map_cons, List.map_cons, List.map_cons, List.sum_cons]
          rfl

theorem joinWords_split (front back : List (List Char)) (word : List Char) :
    ∃ rest, joinWords (front ++ word :: back) =
      (front.flatMap fun word => word ++ [' ']) ++ (word ++ rest) := by
  induction front with
  | nil =>
      cases back with
      | nil => exact ⟨[], by simp [joinWords]⟩
      | cons next back =>
          exact ⟨' ' :: joinWords (next :: back), by
            rw [List.nil_append, joinWords, List.intercalate_cons_cons, ← joinWords]
            simp⟩
  | cons first front ih =>
      rcases ih with ⟨rest, split⟩
      refine ⟨rest, ?_⟩
      rcases List.exists_cons_of_ne_nil (l := front ++ word :: back) (by simp) with ⟨next, more, shape⟩
      rw [List.cons_append, shape, joinWords, List.intercalate_cons_cons, ← joinWords, ← shape, split]
      simp

theorem isTypographic_iff {ch : Char} : isTypographic ch = true ↔ ch ∈ typographic :=
  decide_eq_true_iff

/-- The first quote of another kind that is written is not read, so the line is not the argv's. -/
theorem readLine_typographic {word : List Char} {ch : Char} (member : word ∈ argv)
    (within : ch ∈ word) (quote : ch ∈ typographic) :
    readLine .powerShell (promptLine argv .powerShell) ≠ some { words := argv } := by
  intro same
  have strange : (argv.find? (·.any isTypographic)).isSome := by
    rw [List.find?_isSome]
    exact ⟨word, member, List.any_eq_true.mpr ⟨ch, within, isTypographic_iff.mpr quote⟩⟩
  rcases Option.isSome_iff_exists.mp strange with ⟨first, found⟩
  rcases List.find?_eq_some_iff_append.mp found with ⟨holds, front, back, shape, straight⟩
  rcases Option.isSome_iff_exists.mp (List.find?_isSome.mpr (List.any_eq_true.mp holds)) with
    ⟨mark, found⟩
  rcases List.find?_eq_some_iff_append.mp found with ⟨lost, start, ending, split, plain⟩
  have typed : mark ∈ typographic := isTypographic_iff.mp lost
  have present : mark ∈ first := by rw [split]; simp
  -- up to the first such quote all is read as it is meant, and that quote is within quotes
  have terminated : scan .powerShell {} ((front.map (quoteForPrompt · .powerShell)).flatMap
      fun word => word ++ [' ']) =
        some { words := front.map fun word => marked (!isBare .powerShell word) word } := by
    rw [List.flatMap_map]
    refine scan_terminated (fun word listed words => ?_) []
    refine scan_quoteForPrompt rfl fun _ ch within quote => ?_
    have none := straight word listed
    rw [Bool.not_eq_true', List.any_eq_false] at none
    exact none ch within (isTypographic_iff.mpr quote)
  have opened : scan .powerShell
      { words := front.map fun word => marked (!isBare .powerShell word) word }
      ('\'' :: replace '\'' "''" start) = some {
        words := front.map fun word => marked (!isBare .powerShell word) word
        word := some (marked true start)
        mode := .literal } := by
    refine scan_opened fun ch within => powerShell_renders fun quote => ?_
    have none := plain ch within
    rw [isTypographic_iff.mpr quote] at none
    cases none
  have whole : ∃ rest, joinWords (argv.map (quoteForPrompt · .powerShell)) =
      ((front.map (quoteForPrompt · .powerShell)).flatMap (fun word => word ++ [' ']) ++
        '\'' :: replace '\'' "''" start) ++ mark :: rest := by
    rcases joinWords_split (front.map (quoteForPrompt · .powerShell))
      (back.map (quoteForPrompt · .powerShell)) (quoteForPrompt first .powerShell) with ⟨rest, joined⟩
    have kept : replace '\'' "''" [mark] = [mark] := by
      have other : mark ≠ '\'' := by
        rintro rfl
        exact absurd typed (by decide)
      rw [replace, List.flatMap_singleton, if_neg other]
    have written : replace '\'' "''" first =
        replace '\'' "''" start ++ mark :: replace '\'' "''" ending := by
      rw [split, replace, List.flatMap_append, ← List.singleton_append, List.flatMap_append,
        ← replace, ← replace, ← replace, kept]
      rfl
    refine ⟨replace '\'' "''" ending ++ ['\''] ++ rest, ?_⟩
    rw [shape, List.map_append, List.map_cons, joined, quoteForPrompt_powerShell present typed,
      written]
    simp
  rcases whole with ⟨rest, whole⟩
  rw [promptLine, readLine_called] at same
  rcases Option.bind_eq_some_iff.mp same with ⟨words, read, same⟩
  split at same
  · cases same
  · have texts : words.map text = argv := (SimpleCommand.mk.inj (Option.some.inj same)).2
    rcases Option.bind_eq_some_iff.mp read with ⟨after, scanned, ended⟩
    unfold finish at ended
    split at ended
    · obtain rfl := Option.some.inj ended
      have before := borne_lost isTypographic (by decide) (List.mem_cons_of_mem _ typed) lost
        (by rw [scan_append, terminated, Option.bind_some, opened]) rfl (whole ▸ scanned)
      rw [← whole, countP_joinWords, List.map_map, ← borne_endWord] at before
      have counts : (argv.map fun word => word.countP isTypographic) =
          argv.map (List.countP isTypographic ∘ (quoteForPrompt · .powerShell)) :=
        List.map_congr_left fun word _ => (countP_quoteForPrompt word).symm
      rw [← counts, ← texts, List.map_map] at before
      have total : borne isTypographic after.endWord =
          (after.endWord.words.map fun word => (text word).countP isTypographic).sum := rfl
      have none : borne isTypographic {} = 0 := rfl
      rw [none, Nat.zero_add, total] at before
      exact absurd before (Nat.lt_irrefl _)
    · cases ended

end called

/-- A prompt line is read as its argv and nothing else exactly where no word of it is left bare, or not
escaped, that the shell takes for something else; and so is the line that a local pane's command is
replayed with. -/
theorem promptLine_reads_back (argv : List (List Char)) :
    (∀ quoting dialect, PromptQuoting.dialect quoting = some dialect →
      (readLine dialect (promptLine argv quoting) = some { words := argv } ↔
        ReadsBack argv quoting)) ∧
    ∀ snapshot program executable, runningProgram snapshot.commandPhase snapshot.program
        snapshot.shell = some program → snapshot.remote = false →
      snapshot.executable = some executable → executable :: snapshot.arguments = argv →
      ∃ line, replayableForegroundCommand snapshot = some line ∧
        (readLine .posix line = some { words := argv } ↔ ReadsBack argv .posix) := by
  constructor
  · intro quoting dialect reader
    cases quoting with
    | posix =>
        obtain rfl := Option.some.inj reader
        exact readLine_posix argv
    | fish =>
        obtain rfl := Option.some.inj reader
        exact readLine_fish argv
    | powerShell =>
        obtain rfl := Option.some.inj reader
        by_cases straight : ∀ word ∈ argv, ∀ ch ∈ word, ch ∉ typographic
        · exact readLine_straight straight
        · push Not at straight
          rcases straight with ⟨word, member, ch, within, quote⟩
          exact iff_of_false (readLine_typographic member within quote)
            fun back => (back word member).2.2 ch within quote
    | cmd => cases reader
  · intro snapshot program executable running here reported same
    subst same
    refine ⟨joinWords ((executable :: snapshot.arguments).map (quoteForPrompt · .posix)), ?_,
      readLine_posix _⟩
    rw [replayableForegroundCommand, running, here, reported]
    rfl

def claudeRunning : ForegroundSnapshot where
  commandPhase := .executing
  program := some "claude".toList
  executable := some "/opt/claude".toList
  arguments := ["it's".toList]

/-- An argument with an apostrophe, and a program whose path has a blank. -/
theorem promptLine_reads_back_claude :
    (readLine .fish (promptLine ["/opt/Program Files/claude".toList, "it's".toList] .fish) =
        some { words := ["/opt/Program Files/claude".toList, "it's".toList] } ∧
      ReadsBack ["/opt/Program Files/claude".toList, "it's".toList] .fish) ∧
    ∃ line, replayableForegroundCommand claudeRunning = some line ∧
      readLine .posix line = some { words := ["/opt/claude".toList, "it's".toList] } ∧
        ReadsBack ["/opt/claude".toList, "it's".toList] .posix := by
  constructor
  · have reads : readLine .fish
        (promptLine ["/opt/Program Files/claude".toList, "it's".toList] .fish) =
          some { words := ["/opt/Program Files/claude".toList, "it's".toList] } := by
      decide +kernel
    exact ⟨reads, ((promptLine_reads_back _).1 .fish .fish rfl).mp reads⟩
  · have back : ReadsBack ["/opt/claude".toList, "it's".toList] .posix :=
      ((promptLine_reads_back _).1 .posix .posix rfl).mp (by decide +kernel)
    rcases (promptLine_reads_back _).2 claudeRunning "claude".toList _ rfl rfl rfl rfl with
      ⟨line, replayed, reads⟩
    exact ⟨line, replayed, reads.mpr back, back⟩

/-- Four lines that are read as something else than the argv they were written for. -/
theorem promptLine_misread :
    readLine .posix (promptLine ["A=1".toList, "ls".toList] .posix) =
      some { assignments := ["A=1".toList], words := ["ls".toList] } ∧
    readLine .powerShell (promptLine ["echo".toList, "@args".toList] .powerShell) = none ∧
    readLine .powerShell (promptLine ["echo".toList, "--%".toList] .powerShell) = none ∧
    readLine .powerShell (promptLine ["echo".toList, ['a', Char.ofNat 0x2019, 'b']] .powerShell) =
      none := by
  decide +kernel

end Rozi
