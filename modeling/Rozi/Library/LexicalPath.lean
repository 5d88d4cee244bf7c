import Mathlib.Data.List.DropRight
import Mathlib.Data.List.Infix
import Mathlib.Algebra.GroupWithZero.Nat

/-!
Paths as text: names between separators. An empty component and `.` are skipped, and `..` takes the
name before it back.
-/

namespace LexicalPath

variable {separator : Char → Bool}

structure IsName (separator : Char → Bool) (part : List Char) : Prop where
  filled : part ≠ []
  notHere : part ≠ ['.']
  notUp : part ≠ ['.', '.']
  whole : ∀ c ∈ part, separator c = false

/-- One component below the names so far, or `none` where it climbs above them all. -/
def step (parts : List (List Char)) (part : List Char) : Option (List (List Char)) :=
  if part = [] ∨ part = ['.'] then some parts
  else if part = ['.', '.'] then if parts = [] then none else some parts.dropLast
  else some (parts ++ [part])

def walk (separator : Char → Bool) (parts : List (List Char)) (text : List Char) :
    Option (List (List Char)) :=
  (text.splitOnP separator).foldlM step parts

def joined (mark : Char) (base : List Char) (names : List (List Char)) : List Char :=
  names.foldl (fun text name => text ++ mark :: name) base

theorem step_name {parts : List (List Char)} {part : List Char} (name : IsName separator part) :
    step parts part = some (parts ++ [part]) := by
  unfold step
  rw [if_neg (by simp [name.filled, name.notHere]), if_neg name.notUp]

@[simp]
theorem walk_nil (parts : List (List Char)) : walk separator parts [] = some parts := rfl

theorem walk_append (parts : List (List Char)) (front back : List Char) {mark : Char}
    (separates : separator mark = true) :
    walk separator parts (front ++ mark :: back) =
      (walk separator parts front).bind fun reached => walk separator reached back := by
  unfold walk
  rw [List.splitOnP_append_cons front back separates, List.foldlM_append]
  rfl

theorem walk_separators (parts : List (List Char)) {text : List Char}
    (all : ∀ c ∈ text, separator c = true) : walk separator parts text = some parts := by
  induction text with
  | nil => rfl
  | cons mark rest ih =>
      have split := walk_append parts [] rest (all mark List.mem_cons_self)
      rw [List.nil_append, walk_nil, Option.bind_some] at split
      rw [split]
      exact ih fun c member => all c (List.mem_cons_of_mem _ member)

theorem walk_trailing (parts : List (List Char)) (text : List Char) {tail : List Char}
    (all : ∀ c ∈ tail, separator c = true) :
    walk separator parts (text ++ tail) = walk separator parts text := by
  cases tail with
  | nil => rw [List.append_nil]
  | cons mark rest =>
      rw [walk_append parts text rest (all mark List.mem_cons_self)]
      cases walk separator parts text with
      | none => rfl
      | some reached =>
          exact walk_separators reached fun c member => all c (List.mem_cons_of_mem _ member)

theorem walk_name (parts : List (List Char)) {part : List Char} (name : IsName separator part) :
    walk separator parts part = some (parts ++ [part]) := by
  unfold walk
  rw [List.splitOnP_eq_singleton name.whole]
  simp [step_name name]

theorem joined_cons (mark : Char) (base name : List Char) (names : List (List Char)) :
    joined mark base (name :: names) = joined mark (base ++ mark :: name) names := rfl

theorem walk_joined (parts : List (List Char)) {mark : Char} (separates : separator mark = true)
    {names : List (List Char)} (all : ∀ name ∈ names, IsName separator name) (base : List Char) :
    walk separator parts (joined mark base names) =
      (walk separator parts base).map (· ++ names) := by
  induction names generalizing base with
  | nil => simp [joined]
  | cons name names ih =>
      rw [joined_cons, ih fun other member => all other (List.mem_cons_of_mem _ member),
        walk_append parts base name separates]
      cases walk separator parts base with
      | none => rfl
      | some reached => simp [walk_name reached (all name List.mem_cons_self)]

theorem joined_append (mark : Char) (lead base : List Char) (names : List (List Char)) :
    joined mark (lead ++ base) names = lead ++ joined mark base names := by
  induction names generalizing base with
  | nil => rfl
  | cons name names ih => rw [joined_cons, joined_cons, List.append_assoc, ih]

theorem joined_eq_append (mark : Char) (base : List Char) (names : List (List Char)) :
    joined mark base names = base ++ joined mark [] names := by
  rw [← joined_append, List.append_nil]

theorem whole_of_mem_splitOnP {text part : List Char} (member : part ∈ text.splitOnP separator) :
    ∀ c ∈ part, separator c = false := by
  induction text generalizing part with
  | nil =>
      rw [List.splitOnP_nil, List.mem_singleton] at member
      simp [member]
  | cons first rest ih =>
      rw [List.splitOnP_cons_eq_if_modifyHead] at member
      split_ifs at member with separates
      · rcases List.mem_cons.mp member with rfl | later
        · simp
        · exact ih later
      · rcases List.exists_cons_of_ne_nil (List.splitOnP_ne_nil separator rest) with
          ⟨piece, pieces, pieced⟩
        rw [pieced, List.modifyHead_cons] at member
        rw [pieced] at ih
        rcases List.mem_cons.mp member with rfl | later
        · refine List.forall_mem_cons.mpr ⟨Bool.eq_false_iff.mpr separates, ?_⟩
          exact ih List.mem_cons_self
        · exact ih (List.mem_cons_of_mem _ later)

theorem step_names {parts next : List (List Char)} {part : List Char}
    (names : ∀ name ∈ parts, IsName separator name) (whole : ∀ c ∈ part, separator c = false)
    (stepped : step parts part = some next) : ∀ name ∈ next, IsName separator name := by
  unfold step at stepped
  split_ifs at stepped with skipped up top
  · cases stepped
    exact names
  · cases stepped
    intro name member
    exact names name (List.mem_of_mem_dropLast member)
  · cases stepped
    intro name member
    rcases List.mem_append.mp member with before | last
    · exact names name before
    · rw [List.mem_singleton.mp last]
      exact ⟨fun empty => skipped (.inl empty), fun here => skipped (.inr here), up, whole⟩

theorem walk_names {parts next : List (List Char)} {text : List Char}
    (names : ∀ name ∈ parts, IsName separator name) (walked : walk separator parts text = some next) :
    ∀ name ∈ next, IsName separator name := by
  unfold walk at walked
  have whole : ∀ part ∈ text.splitOnP separator, ∀ c ∈ part, separator c = false :=
    fun part member => whole_of_mem_splitOnP member
  revert whole walked
  induction text.splitOnP separator generalizing parts with
  | nil =>
      intro walked _
      cases walked
      exact names
  | cons part rest ih =>
      intro walked whole
      rw [List.foldlM_cons] at walked
      rcases Option.bind_eq_some_iff.mp walked with ⟨reached, stepped, walked⟩
      refine ih (step_names names (whole part List.mem_cons_self) stepped) walked ?_
      exact fun later member => whole later (List.mem_cons_of_mem _ member)

section letters

def letters (parts : List (List Char)) : Nat :=
  (parts.map List.length).sum

theorem letters_append (front back : List (List Char)) :
    letters (front ++ back) = letters front + letters back := by
  simp [letters]

theorem letters_dropLast_le (parts : List (List Char)) : letters parts.dropLast ≤ letters parts := by
  cases parts.eq_nil_or_concat with
  | inl empty => simp [empty]
  | inr last =>
      rcases last with ⟨front, part, rfl⟩
      simp [letters]

theorem splitOnP_snoc (text : List Char) {c : Char} (letter : separator c = false) :
    ∃ pieces last, text.splitOnP separator = pieces ++ [last] ∧
      (text ++ [c]).splitOnP separator = pieces ++ [last ++ [c]] := by
  induction text with
  | nil => exact ⟨[], [], rfl, by simp [List.splitOnP_cons_eq_if_modifyHead, letter]⟩
  | cons first rest ih =>
      rcases ih with ⟨pieces, last, before, after⟩
      rw [List.cons_append, List.splitOnP_cons_eq_if_modifyHead,
        List.splitOnP_cons_eq_if_modifyHead, before, after]
      split_ifs with separates
      · exact ⟨[] :: pieces, last, rfl, rfl⟩
      · cases pieces with
        | nil => exact ⟨[], first :: last, rfl, rfl⟩
        | cons piece pieces => exact ⟨(first :: piece) :: pieces, last, rfl, rfl⟩

/-- A letter at the end of a text, other than a dot, makes the last name longer. -/
theorem walk_letter {parts shorter : List (List Char)} {text : List Char} {c : Char}
    (letter : separator c = false) (noDot : c ≠ '.')
    (walked : walk separator parts text = some shorter) :
    ∃ longer, walk separator parts (text ++ [c]) = some longer ∧
      letters shorter < letters longer := by
  rcases splitOnP_snoc text letter with ⟨pieces, last, before, after⟩
  unfold walk at walked ⊢
  rw [before, List.foldlM_append] at walked
  rw [after, List.foldlM_append]
  rcases Option.bind_eq_some_iff.mp walked with ⟨reached, front, stepped⟩
  rw [front]
  have grown : step reached (last ++ [c]) = some (reached ++ [last ++ [c]]) := by
    have ends : ∀ text : List Char, text.getLast? ≠ some c → last ++ [c] ≠ text := by
      rintro _ other rfl
      exact other List.getLast?_concat
    unfold step
    rw [if_neg (not_or.mpr ⟨ends _ (by simp), ends _ (by simpa using noDot.symm)⟩),
      if_neg (ends _ (by simpa using noDot.symm))]
  refine ⟨reached ++ [last ++ [c]], by simp [grown], ?_⟩
  have size : letters (reached ++ [last ++ [c]]) = letters reached + last.length + 1 := by
    rw [letters_append]
    simp [letters, Nat.add_assoc]
  rw [size]
  simp only [List.foldlM_cons, List.foldlM_nil, bind_pure] at stepped
  unfold step at stepped
  split_ifs at stepped
  · cases stepped
    omega
  · cases stepped
    have fewer := letters_dropLast_le reached
    omega
  · cases stepped
    rw [letters_append]
    simp only [letters, List.map_cons, List.map_nil, List.sum_cons, List.sum_nil]
    omega

theorem walk_tail {parts shorter : List (List Char)} {text tail : List Char}
    (noDot : ∀ c ∈ tail, c ≠ '.') (walked : walk separator parts text = some shorter) :
    ∃ longer, walk separator parts (text ++ tail) = some longer ∧
      letters shorter ≤ letters longer ∧
      ((∃ c ∈ tail, separator c = false) → letters shorter < letters longer) := by
  induction tail generalizing text shorter with
  | nil => exact ⟨shorter, by rwa [List.append_nil], le_rfl, by simp⟩
  | cons c rest ih =>
      have rest' : ∀ d ∈ rest, d ≠ '.' := fun d member => noDot d (List.mem_cons_of_mem _ member)
      rw [List.append_cons]
      by_cases separates : separator c = true
      · have same : walk separator parts (text ++ [c]) = some shorter := by
          rw [walk_trailing parts text (by simpa using separates), walked]
        rcases ih rest' same with ⟨longer, walks, within, strict⟩
        refine ⟨longer, walks, within, ?_⟩
        rintro ⟨d, member, letter⟩
        rcases List.mem_cons.mp member with rfl | later
        · rw [separates] at letter
          cases letter
        · exact strict ⟨d, later, letter⟩
      · rcases walk_letter (Bool.eq_false_iff.mpr separates) (noDot c List.mem_cons_self) walked with
          ⟨middle, next, more⟩
        rcases ih rest' next with ⟨longer, walks, within, _⟩
        exact ⟨longer, walks, le_of_lt (lt_of_lt_of_le more within),
          fun _ => lt_of_lt_of_le more within⟩

end letters

end LexicalPath
