import Rozi.Layout.HostPath
import Mathlib.Data.List.Forall2

/-!
Where a session-host path lies: the roots a path can have, the checkouts that contain it, and what
is left of it below the innermost of them.
-/

namespace Rozi

open LexicalPath

namespace HostPath

inductive Rooted : List Char → List Char → List Char → Bool → Prop
  | unix {rest : List Char} (single : ∀ c ∈ rest.head?, windowsSeparator c = false) :
      Rooted ('/' :: rest) ['/'] ('/' :: rest) false
  | drive {letter : Char} {rest : List Char} (alpha : letter.isAlpha = true)
      (rooted : ∀ c ∈ rest.head?, windowsSeparator c = true) :
      Rooted (letter :: ':' :: rest) [letter, ':'] rest true
  | share {first second mark : Char} {server share below : List Char}
      (firstMark : windowsSeparator first = true) (secondMark : windowsSeparator second = true)
      (named : server ≠ []) (whole : ∀ c ∈ server, windowsSeparator c = false)
      (between : windowsSeparator mark = true)
      (shared : share ≠ []) (whole' : ∀ c ∈ share, windowsSeparator c = false)
      (ends : ∀ c ∈ below.head?, windowsSeparator c = true) :
      Rooted (first :: second :: (server ++ mark :: (share ++ below)))
        ('\\' :: '\\' :: server ++ '\\' :: share) below.tail true

theorem not_separator_of_isAlpha {c : Char} (alpha : c.isAlpha = true) :
    windowsSeparator c = false := by
  rw [Bool.eq_false_iff]
  intro mark
  rcases Bool.or_eq_true_iff.mp mark with slash | slash
  · rw [eq_of_beq slash] at alpha
    cases alpha
  · rw [eq_of_beq slash] at alpha
    cases alpha

theorem splitOnce_spec (text : List Char) :
    ∃ piece below : List Char, text = piece ++ below ∧ (∀ c ∈ piece, windowsSeparator c = false) ∧
      (∀ c ∈ below.head?, windowsSeparator c = true) ∧
      splitOnce text = (piece, below.head?.map fun _ => below.tail) := by
  refine ⟨text.takeWhile fun c => !windowsSeparator c, text.dropWhile fun c => !windowsSeparator c,
    List.takeWhile_append_dropWhile.symm, ?_, ?_, ?_⟩
  · intro c member
    simpa using List.mem_takeWhile_imp member
  · intro c member
    have first := List.head?_dropWhile_not (fun c => !windowsSeparator c) text
    rw [Option.mem_def.mp member] at first
    simpa using first
  · unfold splitOnce
    cases text.dropWhile fun c => !windowsSeparator c with
    | nil => rfl
    | cons mark rest => rfl

theorem splitOnce_append {piece below : List Char}
    (whole : ∀ c ∈ piece, windowsSeparator c = false)
    (ends : ∀ c ∈ below.head?, windowsSeparator c = true) :
    splitOnce (piece ++ below) = (piece, below.head?.map fun _ => below.tail) := by
  have kept : ∀ c ∈ piece, (!windowsSeparator c) = true := by
    intro c member
    rw [whole c member]
    rfl
  unfold splitOnce
  rw [List.takeWhile_append_of_pos kept, List.dropWhile_append_of_pos kept]
  cases below with
  | nil => simp
  | cons mark rest =>
      have marks : windowsSeparator mark = true := ends mark rfl
      rw [List.takeWhile_cons_of_neg (by simp [marks]), List.dropWhile_cons_of_neg (by simp [marks])]
      simp

theorem parseRoot_iff {path root rest : List Char} {windows : Bool} :
    parseRoot path = some (root, rest, windows) ↔ Rooted path root rest windows := by
  constructor
  · intro parsed
    match path with
    | [] => cases parsed
    | [first] =>
        rw [parseRoot] at parsed
        split_ifs at parsed with slash
        cases parsed
        exact slash ▸ .unix (by simp)
    | first :: second :: more =>
        unfold parseRoot at parsed
        simp only at parsed
        split_ifs at parsed with double drive slash
        · rcases Bool.and_eq_true_iff.mp double with ⟨firstMark, secondMark⟩
          rcases splitOnce_spec more with ⟨server, after, rfl, whole, marked, split⟩
          rw [parseShare, split] at parsed
          simp only at parsed
          split_ifs at parsed with nameless
          cases after with
          | nil => cases parsed
          | cons mark after =>
              simp only [List.head?_cons, Option.map_some, List.tail_cons, Option.bind_some] at parsed
              rcases splitOnce_spec after with ⟨share, below, rfl, whole', ends, split'⟩
              rw [split'] at parsed
              simp only at parsed
              split_ifs at parsed with unshared
              rw [Option.some.injEq, Prod.mk.injEq, Prod.mk.injEq] at parsed
              rcases parsed with ⟨rfl, left, rfl⟩
              have tail : (below.head?.map fun _ => below.tail).getD [] = below.tail := by
                cases below <;> rfl
              rw [← left, tail]
              exact .share firstMark secondMark nameless whole (marked mark rfl) unshared whole' ends
        · rcases Bool.and_eq_true_iff.mp drive with ⟨alpha, colon⟩
          obtain rfl := eq_of_beq colon
          cases more with
          | nil =>
              cases parsed
              exact .drive alpha (by simp)
          | cons third more =>
              simp only at parsed
              split_ifs at parsed with mark
              cases parsed
              exact .drive alpha (by simpa using mark)
        · cases parsed
          subst slash
          refine .unix ?_
          intro c member
          obtain rfl := Option.some.inj member
          simpa [windowsSeparator] using double
  · intro rooted
    cases rooted with
    | @unix more single =>
        cases more with
        | nil => rfl
        | cons second more =>
            have one : windowsSeparator second = false := single second rfl
            have plain : '/'.isAlpha = false := rfl
            simp [parseRoot, one, plain]
    | drive alpha starts =>
        have letters := not_separator_of_isAlpha alpha
        cases rest with
        | nil => simp [parseRoot, letters, alpha]
        | cons third rest =>
            have mark : windowsSeparator third = true := starts third rfl
            simp [parseRoot, letters, alpha, mark]
    | @share first second mark server share below firstMark secondMark named whole between shared
        whole' ends =>
        have one := splitOnce_append whole (show ∀ c ∈ (mark :: (share ++ below)).head?,
          windowsSeparator c = true by simpa using between)
        have two := splitOnce_append whole' ends
        have tail : (below.head?.map fun _ => below.tail).getD [] = below.tail := by
          cases below <;> rfl
        simp only [parseRoot, firstMark, secondMark, Bool.and_self, if_true, parseShare, one,
          List.head?_cons, Option.map_some, List.tail_cons, Option.bind_some, two, if_neg named,
          if_neg shared, tail]

theorem parse_eq_some {path : List Char} {here : HostPath} :
    parse path = some here ↔ ∃ rest, Rooted path here.root rest here.windows ∧
      walk (separatorOf here.windows) [] rest = some here.parts := by
  unfold parse
  constructor
  · intro parsed
    rcases Option.bind_eq_some_iff.mp parsed with ⟨⟨root, rest, windows⟩, rooted, parsed⟩
    rcases Option.bind_eq_some_iff.mp parsed with ⟨parts, walked, made⟩
    cases made
    exact ⟨rest, parseRoot_iff.mp rooted, walked⟩
  · rintro ⟨rest, rooted, walked⟩
    rw [parseRoot_iff.mpr rooted, Option.bind_eq_bind, Option.bind_some]
    simp only
    rw [walked]
    rfl

theorem parse_names {path : List Char} {here : HostPath} (parsed : parse path = some here) :
    ∀ name ∈ here.parts, IsName (separatorOf here.windows) name := by
  rcases parse_eq_some.mp parsed with ⟨rest, _, walked⟩
  exact walk_names (by simp) walked

/-- The root of a path on Windows is longer than the one there is on Unix. -/
theorem length_root {path : List Char} {here : HostPath} (parsed : parse path = some here) :
    if here.windows then 2 ≤ here.root.length else here.root = ['/'] := by
  rcases parse_eq_some.mp parsed with ⟨rest, rooted, _⟩
  generalize here.windows = windows at rooted ⊢
  generalize here.root = root at rooted ⊢
  cases rooted with
  | unix => rfl
  | drive => simp
  | share => simp

theorem same_refl (ignoreCase : Bool) (name : List Char) : same ignoreCase name name = true := by
  cases ignoreCase <;> simp [same]

theorem length_eq_of_same {ignoreCase : Bool} {a b : List Char}
    (equal : same ignoreCase a b = true) : a.length = b.length := by
  cases ignoreCase with
  | true => simpa using congrArg List.length (eq_of_beq equal)
  | false => rw [eq_of_beq equal]

structure Lies (path ancestor : HostPath) (rest : List (List Char)) : Prop where
  root : same (path.windows || ancestor.windows) path.root ancestor.root = true
  parts : ∃ front, path.parts = front ++ rest ∧
    List.Forall₂ (fun above part => same (path.windows || ancestor.windows) above part = true)
      ancestor.parts front

theorem below_eq_some {path ancestor : HostPath} {rest : List (List Char)} :
    path.below ancestor = some rest ↔ path.Lies ancestor rest := by
  unfold below
  simp only
  constructor
  · intro found
    split_ifs at found with contains
    rcases Bool.and_eq_true_iff.mp contains with ⟨rooted, agree⟩
    rcases Bool.and_eq_true_iff.mp rooted with ⟨root, short⟩
    have short := of_decide_eq_true short
    cases found
    refine ⟨root, path.parts.take ancestor.parts.length, (List.take_append_drop _ _).symm, ?_⟩
    rw [List.forall₂_iff_zip]
    refine ⟨by rw [List.length_take, Nat.min_eq_left short], ?_⟩
    intro above part member
    refine List.all_eq_true.mp agree (above, part) ?_
    have whole : (ancestor.parts ++ []).zip
        (path.parts.take ancestor.parts.length ++ path.parts.drop ancestor.parts.length) = _ :=
      List.zip_append (by rw [List.length_take, Nat.min_eq_left short])
    rw [List.append_nil, List.take_append_drop] at whole
    rw [whole]
    exact List.mem_append_left _ member
  · rintro ⟨root, front, split, agree⟩
    have length := agree.length_eq
    have zipped : ancestor.parts.zip path.parts = ancestor.parts.zip front := by
      have whole : (ancestor.parts ++ []).zip (front ++ rest) = _ := List.zip_append length
      rw [List.append_nil] at whole
      rw [split, whole]
      simp
    rw [if_pos, split, length, List.drop_left]
    rw [Bool.and_eq_true, Bool.and_eq_true]
    refine ⟨⟨root, decide_eq_true ?_⟩, ?_⟩
    · rw [split, List.length_append, length]
      exact Nat.le_add_right _ _
    · rw [zipped, List.all_eq_true]
      intro pair member
      exact (List.forall₂_iff_zip.mp agree).2 member

theorem lies_append (path : HostPath) (rest : List (List Char)) :
    Lies { path with parts := path.parts ++ rest } path rest where
  root := same_refl _ _
  parts := ⟨path.parts, rfl, List.forall₂_same.mpr fun part _ => same_refl _ part⟩

theorem Lies.windows {path ancestor : List Char} {here there : HostPath}
    {rest : List (List Char)} (parsed : parse path = some here)
    (parsed' : parse ancestor = some there) (lies : here.Lies there rest) :
    here.windows = there.windows := by
  have one := length_root parsed
  have two := length_root parsed'
  have equal := length_eq_of_same lies.root
  cases left : here.windows with
  | true =>
      cases right : there.windows with
      | true => rfl
      | false =>
          rw [left, if_pos rfl, equal] at one
          rw [right, if_neg Bool.false_ne_true] at two
          rw [two] at one
          simp at one
  | false =>
      cases right : there.windows with
      | true =>
          rw [right, if_pos rfl, ← equal] at two
          rw [left, if_neg Bool.false_ne_true] at one
          rw [one] at two
          simp at two
      | false => rfl

end HostPath

open HostPath

section innermost

/-- A checkout below the root contains a directory, which lies `rest` below its `depth` names. -/
def Contains (checkout cwd : List Char) (depth : Nat) (rest : List (List Char)) : Prop :=
  ∃ here there, parse cwd = some here ∧ parse checkout = some there ∧ there.parts ≠ [] ∧
    there.parts.length = depth ∧ here.Lies there rest

theorem foldl_deepest {α : Type} (entries : List (Nat × α)) (first : Nat × α) :
    let best := entries.foldl (fun best next => if best.1 ≤ next.1 then next else best) first
    best ∈ first :: entries ∧ ∀ entry ∈ first :: entries, entry.1 ≤ best.1 := by
  induction entries generalizing first with
  | nil => simp
  | cons next entries ih =>
      rw [List.foldl_cons]
      split_ifs with deeper
      · rcases ih next with ⟨member, most⟩
        refine ⟨List.mem_cons_of_mem _ member, ?_⟩
        intro entry listed
        rcases List.mem_cons.mp listed with rfl | later
        · exact Nat.le_trans deeper (most next List.mem_cons_self)
        · exact most entry later
      · rcases ih first with ⟨member, most⟩
        refine ⟨?_, ?_⟩
        · rcases List.mem_cons.mp member with same | later
          · exact List.mem_cons.mpr (.inl same)
          · exact List.mem_cons_of_mem _ (List.mem_cons_of_mem _ later)
        · intro entry listed
          rcases List.mem_cons.mp listed with rfl | later
          · exact most entry List.mem_cons_self
          · rcases List.mem_cons.mp later with rfl | later
            · exact Nat.le_trans (Nat.le_of_lt (Nat.lt_of_not_le deeper))
                (most first List.mem_cons_self)
            · exact most entry (List.mem_cons_of_mem _ later)

theorem deepest_eq_some {α : Type} {entries : List (Nat × α)} {best : Nat × α}
    (found : deepest entries = some best) :
    best ∈ entries ∧ ∀ entry ∈ entries, entry.1 ≤ best.1 := by
  cases entries with
  | nil => cases found
  | cons first entries =>
      obtain rfl := Option.some.inj found
      exact foldl_deepest entries first

theorem deepest_isSome {α : Type} {entries : List (Nat × α)} :
    (deepest entries).isSome = true ↔ entries ≠ [] := by
  cases entries <;> simp [deepest]

theorem mem_found {cwd : List Char} {checkouts : List (List Char)} {here : HostPath}
    (parsed : parse cwd = some here) {depth : Nat} {rest : List (List Char)} :
    (depth, rest) ∈ ((checkouts.filterMap parse).filter (!·.parts.isEmpty)).filterMap
        (fun checkout => (here.below checkout).map (checkout.parts.length, ·)) ↔
      ∃ checkout ∈ checkouts, Contains checkout cwd depth rest := by
  simp only [List.mem_filterMap, List.mem_filter, Option.map_eq_some_iff, Prod.mk.injEq,
    Bool.not_eq_true', List.isEmpty_eq_false_iff]
  constructor
  · rintro ⟨there, ⟨⟨checkout, member, parsed'⟩, deep⟩, _, found, same, rfl⟩
    exact ⟨checkout, member, here, there, parsed, parsed', deep, same, below_eq_some.mp found⟩
  · rintro ⟨checkout, member, here', there, again, parsed', deep, same, lies⟩
    obtain rfl := Option.some.inj (parsed.symm.trans again)
    exact ⟨there, ⟨⟨checkout, member, parsed'⟩, deep⟩, rest, below_eq_some.mpr lies, same, rfl⟩

theorem innermostCheckoutRest_isSome {cwd : List Char} {checkouts : List (List Char)} :
    (innermostCheckoutRest cwd checkouts).isSome = true ↔
      ∃ checkout ∈ checkouts, ∃ depth rest, Contains checkout cwd depth rest := by
  unfold innermostCheckoutRest
  cases parsed : parse cwd with
  | none =>
      refine iff_of_false (by simp) ?_
      rintro ⟨checkout, _, _, _, here, _, again, _⟩
      rw [parsed] at again
      cases again
  | some here =>
      simp only [Option.bind_eq_bind, Option.bind_some, Option.isSome_map]
      rw [deepest_isSome]
      constructor
      · intro some'
        rcases List.exists_mem_of_ne_nil _ some' with ⟨⟨depth, rest⟩, member⟩
        rcases (mem_found parsed).mp member with ⟨checkout, listed, contains⟩
        exact ⟨checkout, listed, depth, rest, contains⟩
      · rintro ⟨checkout, listed, depth, rest, contains⟩
        exact List.ne_nil_of_mem ((mem_found parsed).mpr ⟨checkout, listed, contains⟩)

theorem innermostCheckoutRest_eq_some {cwd : List Char} {checkouts : List (List Char)}
    {rest : List (List Char)} (found : innermostCheckoutRest cwd checkouts = some rest) :
    ∃ checkout ∈ checkouts, ∃ depth, Contains checkout cwd depth rest ∧
      ∀ other ∈ checkouts, ∀ depth' rest', Contains other cwd depth' rest' → depth' ≤ depth := by
  unfold innermostCheckoutRest at found
  rcases Option.bind_eq_some_iff.mp found with ⟨here, parsed, found⟩
  rcases Option.map_eq_some_iff.mp found with ⟨⟨depth, _⟩, best, rfl⟩
  rcases deepest_eq_some best with ⟨member, most⟩
  rcases (mem_found parsed).mp member with ⟨checkout, listed, contains⟩
  refine ⟨checkout, listed, depth, contains, ?_⟩
  intro other listed' depth' rest' contains'
  exact most (depth', rest') ((mem_found parsed).mpr ⟨other, listed', contains'⟩)

theorem Contains.rest_eq {cwd checkout other : List Char} {depth : Nat}
    {rest rest' : List (List Char)} (contains : Contains checkout cwd depth rest)
    (contains' : Contains other cwd depth rest') : rest = rest' := by
  rcases contains with ⟨here, there, parsed, _, _, rfl, _, front, split, agree⟩
  rcases contains' with ⟨here', there', parsed', _, _, same, _, front', split', agree'⟩
  obtain rfl := Option.some.inj (parsed.symm.trans parsed')
  refine (List.append_inj (split.symm.trans split') ?_).2
  rw [← agree.length_eq, ← agree'.length_eq, same]

end innermost

end Rozi
