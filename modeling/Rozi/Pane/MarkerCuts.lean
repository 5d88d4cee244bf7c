import Rozi.Pane.Markers

/-!
The log of a pane does not depend on how its output was cut into chunks for the streams that are
handled, and for no others.
-/

namespace Rozi.Pane

/-- Streams in which a marker with a terminator has it within the limit, and a marker without one
is followed by no complete marker. Where a marker is given up depends on the cut: from there on the
stream has to be handled wherever that is. -/
inductive Handled : List UInt8 → Prop
  | nil : Handled []
  | pass {first : UInt8} {others : List UInt8} (other : ¬ exeMarker <+: first :: others)
      (handled : Handled others) : Handled (first :: others)
  | terminated {tail terminator rest : List UInt8} (plain : Plain tail)
      (ends : terminator ∈ terminators) (fits : tail.length + terminator.length ≤ maxMarkerTail + 1)
      (handled : Handled rest) : Handled (exeMarker ++ (tail ++ (terminator ++ rest)))
  | unterminated {payload : List UInt8} (missing : stringTerminator payload = none)
      (unmarked : Unmarked payload)
      (later : ∀ later, later <:+ payload → later.length + maxMarkerTail < payload.length →
        Handled later) : Handled (exeMarker ++ payload)

namespace Handled

theorem of_cons {first : UInt8} {others : List UInt8} (handled : Handled (first :: others))
    (other : ¬ exeMarker <+: first :: others) : Handled others := by
  generalize same : first :: others = stream at handled
  cases handled with
  | nil => cases same
  | pass _ rest =>
      cases same
      exact rest
  | terminated => exact absurd (same ▸ List.prefix_append _ _) other
  | unterminated => exact absurd (same ▸ List.prefix_append _ _) other

theorem of_terminated {tail terminator rest : List UInt8}
    (handled : Handled (exeMarker ++ (tail ++ (terminator ++ rest)))) (plain : Plain tail)
    (ends : terminator ∈ terminators) :
    tail.length + terminator.length ≤ maxMarkerTail + 1 ∧ Handled rest := by
  generalize same : exeMarker ++ (tail ++ (terminator ++ rest)) = stream at handled
  cases handled with
  | nil => cases same
  | pass other => exact absurd (same ▸ List.prefix_append _ _) other
  | terminated plain' ends' fits handled =>
      rename_i tail' terminator' rest'
      rw [List.append_cancel_left_eq] at same
      have tails : tail = tail' := by
        rw [← takeWhile_terminated plain ends rest, same, takeWhile_terminated plain' ends']
      subst tails
      rw [List.append_cancel_left_eq] at same
      have terminators : terminator = terminator' := by
        have found := find_terminator ends rest
        rw [same, find_terminator ends', Option.some.injEq] at found
        exact found.symm
      subst terminators
      rw [List.append_cancel_left_eq] at same
      exact ⟨fits, same ▸ handled⟩
  | unterminated missing =>
      rw [List.append_cancel_left_eq] at same
      rw [← same, stringTerminator_terminated plain ends] at missing
      cases missing

theorem of_unterminated {payload : List UInt8} (handled : Handled (exeMarker ++ payload))
    (missing : stringTerminator payload = none) :
    Unmarked payload ∧ ∀ later, later <:+ payload →
      later.length + maxMarkerTail < payload.length → Handled later := by
  generalize same : exeMarker ++ payload = stream at handled
  cases handled with
  | nil => cases same
  | pass other => exact absurd (same ▸ List.prefix_append _ _) other
  | terminated plain ends =>
      rw [List.append_cancel_left_eq] at same
      rw [same, stringTerminator_terminated plain ends] at missing
      cases missing
  | unterminated _ unmarked later =>
      rw [List.append_cancel_left_eq] at same
      exact ⟨same ▸ unmarked, same ▸ later⟩

theorem of_short {stream : List UInt8} (short : stream.length < exeMarker.length) :
    Handled stream := by
  induction stream with
  | nil => exact nil
  | cons first others ih =>
      refine pass (fun starts => absurd starts.length_le (by omega)) (ih ?_)
      rw [List.length_cons] at short
      omega

end Handled

/-! A marker that has no terminator in time is written as it is. -/

theorem markerOf_unterminated {payload : List UInt8} (missing : stringTerminator payload = none) :
    markerOf (exeMarker ++ payload) = none := by
  cases found : markerOf (exeMarker ++ payload) with
  | none => rfl
  | some marker =>
      rcases markerOf_eq_some.mp (show _ = some (marker.1, marker.2) from found) with
        ⟨tail, same, plain, _, ends⟩
      rw [List.append_cancel_left_eq] at same
      rw [same, stringTerminator_terminated plain ends] at missing
      cases missing

/-- A terminator that comes more than the limit after a part of the payload is out of reach. -/
theorem stringTerminator_beyond {part later : List UInt8} (missing : stringTerminator part = none)
    (long : maxMarkerTail < part.length) (handled : Handled (exeMarker ++ (part ++ later))) :
    stringTerminator (part ++ later) = none := by
  cases found : stringTerminator (part ++ later) with
  | none => rfl
  | some stop =>
      rcases terminated_of_stringTerminator found with ⟨tail, terminator, rest, same, plain, ends⟩
      rw [same] at handled
      have fits := (handled.of_terminated plain ends).1
      rw [← List.append_assoc] at same
      have front : tail ++ terminator <+: part :=
        List.prefix_of_prefix_length_le ⟨rest, same.symm⟩ (List.prefix_append part later)
          (by rw [List.length_append]; omega)
      rcases front with ⟨between, rfl⟩
      rw [List.append_assoc, stringTerminator_terminated plain ends] at missing
      cases missing

namespace MarkerFilter

/-- What is withheld: the start of a marker, or a marker whose terminator has not arrived. -/
def Withheld (carry : List UInt8) : Prop :=
  (carry <+: exeMarker ∧ carry.length < exeMarker.length) ∨
    ∃ payload, carry = exeMarker ++ payload ∧ stringTerminator payload = none ∧
      payload.length ≤ maxMarkerTail

theorem withheld_nil : Withheld [] := .inl ⟨List.nil_prefix, by decide⟩

theorem scan_withheld (input : List UInt8) : Withheld (scan input).2.carry := by
  induction input using scan_induction with
  | held input held short =>
      rw [scan_held held short]
      exact .inl ⟨held, short⟩
  | pass first others apart ih =>
      rw [scan_pass apart]
      exact ih
  | terminated tail terminator rest plain ends ih =>
      rw [scan_terminated plain ends]
      exact ih
  | unterminated payload missing =>
      rw [scan_unterminated missing]
      split_ifs with long
      · exact withheld_nil
      · exact .inr ⟨payload, rfl, missing, by omega⟩

theorem pushes_withheld (chunks : List (List UInt8)) {filter : MarkerFilter}
    (withheld : Withheld filter.carry) : Withheld (pushes chunks filter).2.carry := by
  induction chunks generalizing filter with
  | nil => exact withheld
  | cons bytes chunks ih => exact ih (scan_withheld (filter.carry ++ bytes))

theorem Withheld.bounded {carry : List UInt8} (withheld : Withheld carry) :
    carry.length ≤ exeMarker.length + maxMarkerTail := by
  rcases withheld with ⟨_, short⟩ | ⟨payload, rfl, _, short⟩
  · omega
  · rw [List.length_append]
    omega

theorem Withheld.stripped {carry : List UInt8} (withheld : Withheld carry)
    (handled : Handled carry) : stripped carry = carry := by
  rcases withheld with ⟨_, short⟩ | ⟨payload, rfl, missing, _⟩
  · refine stripped_of_unmarked fun later suffix => markerOf_of_other fun starts => ?_
    have inside := suffix.length_le
    have whole := starts.length_le
    omega
  · rw [stripped_unmarked_marker (markerOf_unterminated missing),
      stripped_of_unmarked (handled.of_unterminated missing).1]

theorem scan_spec (input later : List UInt8) (handled : Handled (input ++ later)) :
    stripped (input ++ later) = (scan input).1 ++ stripped ((scan input).2.carry ++ later) ∧
      Handled ((scan input).2.carry ++ later) := by
  induction input using scan_induction with
  | held input held short =>
      rw [scan_held held short]
      exact ⟨rfl, handled⟩
  | pass first others apart ih =>
      have other := apart.append later
      rw [List.cons_append] at handled other
      have rest := ih (handled.of_cons other)
      rw [scan_pass apart, List.cons_append, stripped_pass (markerOf_of_other other), rest.1]
      exact ⟨rfl, rest.2⟩
  | terminated tail terminator rest plain ends ih =>
      simp only [List.append_assoc] at handled
      have inside := handled.of_terminated plain ends
      have short : 1 ≤ terminator.length := by
        simp only [terminators, List.mem_cons, List.not_mem_nil, or_false] at ends
        rcases ends with rfl | rfl <;> simp
      have found := markerOf_terminated plain ends (rest ++ later)
      rw [if_pos (by omega)] at found
      have spec := ih inside.2
      simp only [List.append_assoc]
      rw [scan_terminated plain ends, stripped_marker found, spec.1]
      simp only [List.append_assoc]
      exact ⟨trivial, spec.2⟩
  | unterminated payload missing =>
      rw [scan_unterminated missing]
      split_ifs with long
      · rw [List.append_assoc] at handled
        have beyond := stringTerminator_beyond missing long handled
        have inside := handled.of_unterminated beyond
        rw [List.append_assoc, stripped_unmarked_marker (markerOf_unterminated beyond),
          stripped_of_unmarked inside.1]
        have suffix := List.suffix_append payload later
        refine ⟨?_, inside.2 later suffix ?_⟩
        · rw [List.nil_append, stripped_of_unmarked (inside.1.suffix suffix), List.append_assoc]
        · rw [List.length_append]
          omega
      · exact ⟨rfl, handled⟩

theorem output_cons (filter : MarkerFilter) (bytes : List UInt8) (chunks : List (List UInt8)) :
    filter.output (bytes :: chunks) =
      (scan (filter.carry ++ bytes)).1 ++ (scan (filter.carry ++ bytes)).2.output chunks :=
  List.append_assoc _ _ _

theorem output_of_handled (chunks : List (List UInt8)) {filter : MarkerFilter}
    (withheld : Withheld filter.carry) (handled : Handled (filter.carry ++ chunks.flatten)) :
    filter.output chunks = stripped (filter.carry ++ chunks.flatten) := by
  induction chunks generalizing filter with
  | nil =>
      rw [List.flatten_nil, List.append_nil] at handled ⊢
      exact (withheld.stripped handled).symm
  | cons bytes chunks ih =>
      rw [List.flatten_cons, ← List.append_assoc] at handled ⊢
      have spec := scan_spec _ _ handled
      have rest := ih (scan_withheld (filter.carry ++ bytes)) spec.2
      rw [spec.1, ← rest, output_cons]

/-! Only what is handled is stripped: the cuts that show it are after a marker that is given up,
and the first chunk is long enough to tell a marker. -/

/-- However the stream is cut so, it is stripped. -/
def Kept (stream : List UInt8) : Prop :=
  ∀ first chunks, first ++ chunks.flatten = stream →
    (chunks = [] ∨ exeMarker.length ≤ first.length) →
    ({} : MarkerFilter).output (first :: chunks) = stripped stream

theorem output_first (bytes : List UInt8) (chunks : List (List UInt8)) :
    ({} : MarkerFilter).output (bytes :: chunks) =
      (scan bytes).1 ++ (scan bytes).2.output chunks :=
  output_cons {} bytes chunks

theorem output_nil (filter : MarkerFilter) : filter.output [] = filter.carry := rfl

theorem Kept.of_cons {first : UInt8} {others : List UInt8} (kept : Kept (first :: others))
    (apart : Apart (first :: others)) : Kept others := by
  intro bytes chunks split long
  subst split
  have inside : Apart (first :: bytes) := by
    rcases long with rfl | long
    · rw [List.flatten_nil, List.append_nil] at apart
      exact apart
    · refine ⟨fun starts => apart.1 (starts.trans ?_), fun start => ?_⟩
      · rw [← List.cons_append]
        exact List.prefix_append _ _
      · have short := start.length_le
        rw [List.length_cons] at short
        omega
  have whole := kept (first :: bytes) chunks rfl (long.imp_right fun long => by
    rw [List.length_cons]
    omega)
  rw [output_first, scan_pass inside, stripped_pass (markerOf_of_other apart.1),
    List.cons_append, List.cons.injEq] at whole
  rw [output_first]
  exact whole.2

theorem bare_ne {terminator : List UInt8} (ends : terminator ∈ terminators)
    (bare verbatim : List UInt8) :
    bareCommandStart ++ (terminator ++ bare) ≠ exeMarker ++ verbatim := by
  simp only [terminators, List.mem_cons, List.not_mem_nil, or_false] at ends
  rcases ends with rfl | rfl <;> simp [bareCommandStart, exeMarker]

theorem stringTerminator_cut {tail : List UInt8} (plain : Plain tail) :
    stringTerminator (tail ++ [0x1b]) = none := by
  induction tail with
  | nil => rfl
  | cons byte tail ih =>
      rcases plain.tail with ⟨bell, escape, plain⟩
      rw [List.cons_append, stringTerminator, if_neg bell, if_neg escape, ih plain]
      rfl

theorem Kept.fits {tail terminator rest : List UInt8}
    (kept : Kept (exeMarker ++ (tail ++ (terminator ++ rest)))) (plain : Plain tail)
    (ends : terminator ∈ terminators) : tail.length + terminator.length ≤ maxMarkerTail + 1 := by
  by_contra long
  by_cases beyond : tail.length ≤ maxMarkerTail
  · -- the cut between ESC and the backslash, with a tail of the greatest length
    have found := markerOf_terminated plain ends rest
    rw [if_pos beyond] at found
    simp only [terminators, List.mem_cons, List.not_mem_nil, or_false] at ends
    rcases ends with rfl | rfl
    · rw [List.length_singleton] at long
      omega
    · have cut := kept (exeMarker ++ (tail ++ [0x1b])) [0x5c :: rest] (by simp)
        (.inr (by rw [List.length_append]; omega))
      have given : maxMarkerTail < (tail ++ [(0x1b : UInt8)]).length := by
        rw [List.length_append]
        simp only [List.length_cons, List.length_nil] at long ⊢
        omega
      rw [output_first, scan_unterminated (stringTerminator_cut plain), if_pos given,
        stripped_marker found, List.append_assoc] at cut
      exact bare_ne (by simp [terminators]) _ _ cut.symm
  · have found := markerOf_terminated plain ends rest
    rw [if_neg beyond] at found
    have whole := kept _ [] (List.append_nil _) (.inl rfl)
    rw [output_first, scan_terminated plain ends, stripped_unmarked_marker found] at whole
    simp only [List.append_assoc] at whole
    exact bare_ne ends _ _ whole

theorem Kept.of_terminated {tail terminator rest : List UInt8}
    (kept : Kept (exeMarker ++ (tail ++ (terminator ++ rest)))) (plain : Plain tail)
    (ends : terminator ∈ terminators) (beyond : tail.length ≤ maxMarkerTail) : Kept rest := by
  intro first chunks split _
  subst split
  have found := markerOf_terminated plain ends (first ++ chunks.flatten)
  rw [if_pos beyond] at found
  have whole := kept (exeMarker ++ (tail ++ (terminator ++ first))) chunks (by simp)
    (.inr (by rw [List.length_append]; omega))
  rw [output_first, scan_terminated plain ends, stripped_marker found] at whole
  simp only [List.append_assoc, List.append_cancel_left_eq] at whole
  rw [output_first]
  exact whole

theorem Kept.unmarked {payload : List UInt8} (kept : Kept (exeMarker ++ payload))
    (missing : stringTerminator payload = none) : Unmarked payload := by
  have whole := kept _ [] (List.append_nil _) (.inl rfl)
  have verbatim : ({} : MarkerFilter).output [exeMarker ++ payload] = exeMarker ++ payload := by
    rw [output_first, scan_unterminated missing, output_nil]
    split_ifs
    · exact List.append_nil _
    · rfl
  rw [verbatim, stripped_unmarked_marker (markerOf_unterminated missing),
    List.append_cancel_left_eq] at whole
  exact unmarked_of_stripped whole.symm

theorem Kept.of_unterminated {payload later : List UInt8} (kept : Kept (exeMarker ++ payload))
    (missing : stringTerminator payload = none) (suffix : later <:+ payload)
    (long : later.length + maxMarkerTail < payload.length) : Kept later := by
  intro first chunks split _
  have unmarked := kept.unmarked missing
  rcases suffix with ⟨front, rfl⟩
  have given : maxMarkerTail < front.length := by
    rw [List.length_append] at long
    omega
  have cut := kept (exeMarker ++ front) (first :: chunks) (by simp [← split])
    (.inr (by rw [List.length_append]; omega))
  rw [output_first, scan_unterminated (stringTerminator_begins missing), if_pos given,
    stripped_unmarked_marker (markerOf_unterminated missing), stripped_of_unmarked unmarked] at cut
  simp only [List.append_assoc, List.append_cancel_left_eq] at cut
  rw [cut, stripped_of_unmarked (unmarked.suffix (List.suffix_append _ _))]

theorem handled_of_kept {stream : List UInt8} (kept : Kept stream) : Handled stream := by
  induction stream using scan_induction with
  | held stream held short => exact .of_short short
  | pass first others apart ih => exact .pass apart.1 (ih (kept.of_cons apart))
  | terminated tail terminator rest plain ends ih =>
      have fits := kept.fits plain ends
      have some : 1 ≤ terminator.length := by
        simp only [terminators, List.mem_cons, List.not_mem_nil, or_false] at ends
        rcases ends with rfl | rfl <;> simp
      exact .terminated plain ends fits (ih (kept.of_terminated plain ends (by omega)))
  | unterminated payload missing ih =>
      exact .unterminated missing (kept.unmarked missing) fun later suffix long =>
        ih later suffix (kept.of_unterminated missing suffix long)

/-- However the stream is cut, its complete markers are made bare and nothing else is changed, with
little withheld at any time: this is so of the streams that are handled, and of no others. -/
theorem output_stripped_iff (stream : List UInt8) :
    (∀ chunks : List (List UInt8), chunks.flatten = stream →
      ({} : MarkerFilter).output chunks = stripped stream ∧
        ∀ front, front <+: chunks →
          (pushes front {}).2.carry.length ≤ exeMarker.length + maxMarkerTail) ↔
      Handled stream := by
  constructor
  · intro all
    refine handled_of_kept fun first chunks split _ => (all (first :: chunks) ?_).1
    rw [List.flatten_cons, split]
  · rintro handled chunks rfl
    exact ⟨output_of_handled chunks withheld_nil handled,
      fun front _ => (pushes_withheld front withheld_nil).bounded⟩

/-- A marker with a tail over the limit is made bare in one chunk, and left as it is in two. -/
theorem cut_tells :
    ({} : MarkerFilter).output
        [exeMarker ++ (List.replicate 257 0x61 ++ ([0x07] ++ []))] = bareCommandStart ++ [0x07] ∧
      ({} : MarkerFilter).output [exeMarker ++ List.replicate 257 0x61, [0x07]] =
        exeMarker ++ (List.replicate 257 0x61 ++ [0x07]) ∧
      ({} : MarkerFilter).output [exeMarker ++ (List.replicate 257 0x61 ++ ([0x07] ++ []))] ≠
        ({} : MarkerFilter).output [exeMarker ++ List.replicate 257 0x61, [0x07]] := by
  have plain : Plain (List.replicate 257 0x61) := by
    intro byte member
    rw [List.eq_of_mem_replicate member]
    decide
  have missing : stringTerminator (List.replicate 257 0x61) = none := by
    decide +kernel
  have one : ({} : MarkerFilter).output
      [exeMarker ++ (List.replicate 257 0x61 ++ ([0x07] ++ []))] = bareCommandStart ++ [0x07] := by
    rw [output_first, scan_terminated plain (by simp [terminators]), scan_nil]
    rfl
  have two : ({} : MarkerFilter).output [exeMarker ++ List.replicate 257 0x61, [0x07]] =
      exeMarker ++ (List.replicate 257 0x61 ++ [0x07]) := by
    rw [output_first, scan_unterminated missing, if_pos (by rw [List.length_replicate]; decide),
      output_first, scan_pass (apart_of_ne (by decide)), scan_nil, List.append_assoc]
    rfl
  refine ⟨one, two, ?_⟩
  rw [one, two]
  have ends : [0x07] ∈ terminators := by simp [terminators]
  exact bare_ne ends [] _

end MarkerFilter

end Rozi.Pane
