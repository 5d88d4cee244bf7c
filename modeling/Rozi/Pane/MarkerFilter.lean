import Mathlib.Data.List.Basic
import Mathlib.Data.List.Infix
import Mathlib.Tactic.Common

/-!
The filter between a pane and its log. Shell integration reports the program it starts in a marker
of its own; the filter drops the report from the logged stream, which arrives in arbitrary chunks.
-/

namespace Rozi.Pane

def exeMarker : List UInt8 :=
  [0x1b, 0x5d, 0x31, 0x33, 0x33, 0x3b, 0x43, 0x3b, 0x72, 0x6f, 0x7a, 0x69, 0x5f, 0x65, 0x78, 0x65,
    0x3d]

def bareCommandStart : List UInt8 := [0x1b, 0x5d, 0x31, 0x33, 0x33, 0x3b, 0x43]

def maxMarkerTail : Nat := 256

/-- Offset just past the string terminator ending `payload`, or `none` while it has not arrived. -/
def stringTerminator : List UInt8 → Option Nat
  | [] => none
  | byte :: rest =>
      if byte = 0x07 then some 1
      else if byte = 0x1b then
        -- ESC starting something else: this was never a complete marker
        if rest.head? = some 0x5c then some 2 else none
      else (stringTerminator rest).map (· + 1)

def terminatorStart (payload : List UInt8) (stop : Nat) : Nat :=
  if payload[stop - 1]? = some 0x07 then stop - 1 else stop - 2

structure MarkerFilter where
  carry : List UInt8 := []
  deriving DecidableEq, Repr

/-! What a string terminator is. -/

def terminators : List (List UInt8) := [[0x07], [0x1b, 0x5c]]

def Plain (tail : List UInt8) : Prop := ∀ byte ∈ tail, byte ≠ 0x07 ∧ byte ≠ 0x1b

instance (tail : List UInt8) : Decidable (Plain tail) :=
  inferInstanceAs (Decidable (∀ byte ∈ tail, byte ≠ 0x07 ∧ byte ≠ 0x1b))

theorem Plain.tail {byte : UInt8} {tail : List UInt8} (plain : Plain (byte :: tail)) :
    byte ≠ 0x07 ∧ byte ≠ 0x1b ∧ Plain tail :=
  ⟨(plain byte List.mem_cons_self).1, (plain byte List.mem_cons_self).2,
    fun other member => plain other (List.mem_cons_of_mem _ member)⟩

theorem stringTerminator_terminated {tail terminator : List UInt8} (plain : Plain tail)
    (ends : terminator ∈ terminators) (rest : List UInt8) :
    stringTerminator (tail ++ (terminator ++ rest)) =
      some (tail.length + terminator.length) := by
  induction tail with
  | nil =>
      simp only [terminators, List.mem_cons, List.not_mem_nil, or_false] at ends
      rcases ends with rfl | rfl <;> simp [stringTerminator]
  | cons byte tail ih =>
      rcases plain.tail with ⟨bell, escape, plain⟩
      rw [List.cons_append, stringTerminator, if_neg bell, if_neg escape, ih plain]
      simp only [Option.map_some, List.length_cons]
      congr 1
      omega

theorem terminated_of_stringTerminator {payload : List UInt8} {stop : Nat}
    (found : stringTerminator payload = some stop) :
    ∃ tail terminator rest, payload = tail ++ (terminator ++ rest) ∧ Plain tail ∧
      terminator ∈ terminators := by
  induction payload generalizing stop with
  | nil => cases found
  | cons byte payload ih =>
      have plain : Plain [] := fun _ member => (List.not_mem_nil member).elim
      rw [stringTerminator] at found
      split_ifs at found with bell escape backslash
      · exact ⟨[], [0x07], payload, by rw [bell]; rfl, plain, by simp [terminators]⟩
      · cases payload with
        | nil => cases backslash
        | cons next rest =>
            cases backslash
            exact ⟨[], [0x1b, 0x5c], rest, by rw [escape]; rfl, plain, by simp [terminators]⟩
      · rw [Option.map_eq_some_iff] at found
        rcases found with ⟨before, found, _⟩
        rcases ih found with ⟨tail, terminator, rest, rfl, plain, ends⟩
        refine ⟨byte :: tail, terminator, rest, rfl, ?_, ends⟩
        intro other member
        rcases List.mem_cons.mp member with rfl | member
        · exact ⟨bell, escape⟩
        · exact plain other member

theorem terminatorStart_terminated {tail terminator : List UInt8}
    (ends : terminator ∈ terminators) (rest : List UInt8) :
    terminatorStart (tail ++ (terminator ++ rest)) (tail.length + terminator.length) =
      tail.length := by
  simp only [terminators, List.mem_cons, List.not_mem_nil, or_false] at ends
  unfold terminatorStart
  rcases ends with rfl | rfl
  · simp
  · rw [show tail.length + [(0x1b : UInt8), 0x5c].length - 1 = tail.length + 1 from rfl,
      List.getElem?_append_right (by omega)]
    simp

/-- A payload without a terminator has none in any part that came first. -/
theorem stringTerminator_begins {first later : List UInt8}
    (missing : stringTerminator (first ++ later) = none) : stringTerminator first = none := by
  cases found : stringTerminator first with
  | none => rfl
  | some stop =>
      rcases terminated_of_stringTerminator found with
        ⟨tail, terminator, rest, rfl, plain, ends⟩
      rw [List.append_assoc, List.append_assoc, stringTerminator_terminated plain ends] at missing
      cases missing

namespace MarkerFilter

/-- The loop of `push` over the input from `index` on: what it writes, and the filter after it. -/
def scan : List UInt8 → List UInt8 × MarkerFilter
  | [] => ([], { carry := [] })
  | first :: others =>
      let rest := first :: others
      if first ≠ 0x1b then
        -- the whole run up to the next candidate
        let run := rest.takeWhile (· ≠ 0x1b)
        let scanned := scan (rest.drop run.length)
        (run ++ scanned.1, scanned.2)
      else if rest.length < exeMarker.length then
        if rest <+: exeMarker then ([], { carry := rest })
        else
          let scanned := scan others
          (first :: scanned.1, scanned.2)
      else if ¬ exeMarker <+: rest then
        let scanned := scan others
        (first :: scanned.1, scanned.2)
      else
        let payload := rest.drop exeMarker.length
        match stringTerminator payload with
        | some stop =>
            let scanned := scan (payload.drop stop)
            -- the terminator stays, so that the marker left is still well formed
            (bareCommandStart ++ (payload.take stop).drop (terminatorStart payload stop) ++
              scanned.1, scanned.2)
        | none =>
            if maxMarkerTail < payload.length then (rest, { carry := [] })
            else ([], { carry := rest })
  termination_by input => input.length
  decreasing_by
    · rename_i starts
      simp only [List.takeWhile_cons, starts, ne_eq, not_false_eq_true, decide_true,
        if_true, List.length_cons, List.drop_succ_cons, List.length_drop]
      omega
    all_goals
      simp only [exeMarker, List.length_cons, List.length_nil, List.length_drop]
      omega

variable (filter : MarkerFilter)

/-- Read `bytes`: what is written of them, and the filter after them. -/
def push (bytes : List UInt8) : List UInt8 × MarkerFilter := scan (filter.carry ++ bytes)

def flush : List UInt8 := filter.carry

def pushes : List (List UInt8) → MarkerFilter → List UInt8 × MarkerFilter
  | [], filter => ([], filter)
  | bytes :: chunks, filter =>
      let pushed := filter.push bytes
      let rest := pushes chunks pushed.2
      (pushed.1 ++ rest.1, rest.2)

def output (chunks : List (List UInt8)) : List UInt8 :=
  (pushes chunks filter).1 ++ (pushes chunks filter).2.flush

/-! How an input is read: it is held back as the start of a marker, its first byte passes, or it
starts with a marker. -/

def Apart (input : List UInt8) : Prop := ¬ exeMarker <+: input ∧ ¬ input <+: exeMarker

theorem Apart.append {input : List UInt8} (apart : Apart input) (later : List UInt8) :
    ¬ exeMarker <+: input ++ later := by
  intro starts
  rcases List.prefix_or_prefix_of_prefix starts (List.prefix_append input later) with
    whole | part
  · exact apart.1 whole
  · exact apart.2 part

theorem apart_of_ne {first : UInt8} {others : List UInt8} (other : first ≠ 0x1b) :
    Apart (first :: others) := by
  constructor
  · rintro ⟨rest, same⟩
    exact other (List.cons.inj same).1.symm
  · rintro ⟨rest, same⟩
    exact other (List.cons.inj same).1

@[simp] theorem scan_nil : scan [] = ([], {}) := by
  rw [scan]

theorem scan_held {input : List UInt8} (held : input <+: exeMarker)
    (short : input.length < exeMarker.length) : scan input = ([], { carry := input }) := by
  cases input with
  | nil => exact scan_nil
  | cons first others =>
      have escape : ¬ first ≠ 0x1b := by
        intro other
        exact (apart_of_ne other).2 held
      rw [scan]
      simp only [if_neg escape, if_pos short, if_pos held]

theorem scan_run {first : UInt8} {others : List UInt8} (other : first ≠ 0x1b) :
    scan (first :: others) = (first :: (scan others).1, (scan others).2) := by
  rw [scan]
  simp only [List.takeWhile_cons, other, ne_eq, not_false_eq_true, decide_true, if_true,
    List.length_cons, List.drop_succ_cons, List.cons_append]
  cases others with
  | nil => simp
  | cons next others =>
      by_cases run : next = 0x1b
      · simp [run]
      · rw [scan.eq_def (next :: others)]
        simp only [ne_eq, run, not_false_eq_true, if_true]

theorem scan_pass {first : UInt8} {others : List UInt8} (apart : Apart (first :: others)) :
    scan (first :: others) = (first :: (scan others).1, (scan others).2) := by
  by_cases other : first ≠ 0x1b
  · exact scan_run other
  · rw [scan]
    simp only [if_neg other, if_neg apart.2, if_pos apart.1]
    split_ifs <;> rfl

theorem scan_marker (payload : List UInt8) : scan (exeMarker ++ payload) =
    match stringTerminator payload with
    | some stop =>
        (bareCommandStart ++ (payload.take stop).drop (terminatorStart payload stop) ++
          (scan (payload.drop stop)).1, (scan (payload.drop stop)).2)
    | none =>
        if maxMarkerTail < payload.length then (exeMarker ++ payload, { carry := [] })
        else ([], { carry := exeMarker ++ payload }) := by
  have whole : exeMarker ++ payload = 0x1b :: (exeMarker.tail ++ payload) := rfl
  have long : ¬ (exeMarker ++ payload).length < exeMarker.length := by
    rw [List.length_append]
    omega
  have starts : ¬ ¬ exeMarker <+: exeMarker ++ payload :=
    not_not_intro (List.prefix_append _ _)
  rw [whole, scan, ← whole]
  simp only [ne_eq, not_true_eq_false, if_false, if_neg long, if_neg starts, List.drop_left]

theorem scan_terminated {tail terminator : List UInt8} (plain : Plain tail)
    (ends : terminator ∈ terminators) (rest : List UInt8) :
    scan (exeMarker ++ (tail ++ (terminator ++ rest))) =
      (bareCommandStart ++ (terminator ++ (scan rest).1), (scan rest).2) := by
  have kept : ((tail ++ (terminator ++ rest)).take (tail.length + terminator.length)).drop
      tail.length = terminator := by
    rw [← List.append_assoc, ← List.length_append, List.take_left, List.drop_left]
  have later : (tail ++ (terminator ++ rest)).drop (tail.length + terminator.length) = rest := by
    rw [← List.append_assoc, ← List.length_append, List.drop_left]
  rw [scan_marker, stringTerminator_terminated plain ends rest]
  simp only [terminatorStart_terminated ends rest, kept, later, List.append_assoc]

theorem scan_unterminated {payload : List UInt8} (missing : stringTerminator payload = none) :
    scan (exeMarker ++ payload) =
      if maxMarkerTail < payload.length then (exeMarker ++ payload, {})
      else ([], { carry := exeMarker ++ payload }) := by
  rw [scan_marker, missing]

theorem scan_induction {motive : List UInt8 → Prop}
    (held : ∀ input, input <+: exeMarker → input.length < exeMarker.length → motive input)
    (pass : ∀ first others, Apart (first :: others) → motive others → motive (first :: others))
    (terminated : ∀ tail terminator rest, Plain tail → terminator ∈ terminators → motive rest →
      motive (exeMarker ++ (tail ++ (terminator ++ rest))))
    (unterminated : ∀ payload, stringTerminator payload = none →
      (∀ later, later <:+ payload → motive later) → motive (exeMarker ++ payload))
    (input : List UInt8) : motive input := by
  induction length : input.length using Nat.strong_induction_on generalizing input with
  | _ length' ih =>
      subst length
      by_cases starts : exeMarker <+: input
      · rcases starts with ⟨payload, rfl⟩
        cases found : stringTerminator payload with
        | none =>
            refine unterminated payload found fun later suffix => ih _ ?_ later rfl
            have some : 0 < exeMarker.length := by decide
            have short := suffix.length_le
            rw [List.length_append]
            omega
        | some stop =>
            rcases terminated_of_stringTerminator found with
              ⟨tail, terminator, rest, rfl, plain, ends⟩
            refine terminated tail terminator rest plain ends (ih _ ?_ rest rfl)
            simp only [List.length_append]
            have some : 0 < exeMarker.length := by decide
            omega
      · by_cases start : input <+: exeMarker
        · refine held input start (lt_of_le_of_ne start.length_le fun same => starts ?_)
          rw [start.eq_of_length same]
        · cases input with
          | nil => exact absurd List.nil_prefix start
          | cons first others => exact pass first others ⟨starts, start⟩ (ih _ (by simp) _ rfl)

end MarkerFilter

end Rozi.Pane
