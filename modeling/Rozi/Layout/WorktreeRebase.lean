import Rozi.Layout.WorktreeSeed

/-!
When a worktree's session stays in its checkout: the targets from which something of a name is trimmed,
and what becomes of a directory then.
-/

namespace Rozi

open LexicalPath HostPath

section host

variable {checkouts : List (List Char)} {target : List Char}

theorem OneHost.sorted (host : OneHost checkouts target) :
    ∃ there, parse target = some there ∧ (there.windows = true → there.parts ≠ []) ∧
      ∀ checkout ∈ checkouts, ∃ outer, parse checkout = some outer ∧
        outer.windows = there.windows := by
  cases host with
  | unix parsed ends =>
      rcases parsed target List.mem_cons_self with ⟨there, own, rule⟩
      refine ⟨there, own, fun windows => absurd (rule.symm.trans windows) Bool.false_ne_true, ?_⟩
      intro checkout member
      rcases parsed checkout (List.mem_cons_of_mem _ member) with ⟨outer, found, same⟩
      exact ⟨outer, found, same.trans rule.symm⟩
  | windows parsed =>
      rcases parsed target List.mem_cons_self with ⟨there, own, rule, some'⟩
      refine ⟨there, own, fun _ => some', ?_⟩
      intro checkout member
      rcases parsed checkout (List.mem_cons_of_mem _ member) with ⟨outer, found, same, _⟩
      exact ⟨outer, found, same.trans rule.symm⟩

theorem parse_unix {path : List Char} {here : HostPath} (parsed : parse path = some here)
    (rule : here.windows = false) : here.root = ['/'] ∧
      walk unixSeparator [] path = some here.parts ∧
      ∃ rest, path = '/' :: rest ∧ ∀ c ∈ rest.head?, windowsSeparator c = false := by
  rcases parse_eq_some.mp parsed with ⟨rest, rooted, walked⟩
  rcases here with ⟨root, parts, windows⟩
  simp only at rule
  subst rule
  simp only at rooted walked ⊢
  cases rooted with
  | unix single => exact ⟨rfl, walked, _, rfl, single⟩

theorem exists_deepest {paths : List (List Char)} (some' : paths ≠ []) (depth : List Char → Nat) :
    ∃ path ∈ paths, ∀ other ∈ paths, depth other ≤ depth path := by
  cases paths with
  | nil => exact absurd rfl some'
  | cons first rest =>
      rcases foldl_deepest (rest.map fun path => (depth path, path)) (depth first, first) with
        ⟨member, most⟩
      have listed : ∀ entry ∈ (depth first, first) :: rest.map (fun path => (depth path, path)),
          entry.1 = depth entry.2 ∧ entry.2 ∈ first :: rest := by
        intro entry there
        rcases List.mem_cons.mp there with rfl | later
        · exact ⟨rfl, List.mem_cons_self⟩
        · rcases List.mem_map.mp later with ⟨path, inside, rfl⟩
          exact ⟨rfl, List.mem_cons_of_mem _ inside⟩
      rcases listed _ member with ⟨own, inside⟩
      refine ⟨_, inside, ?_⟩
      intro other there
      rw [← own]
      apply most (depth other, other)
      rcases List.mem_cons.mp there with rfl | later
      · exact List.mem_cons_self
      · exact List.mem_cons_of_mem _ (List.mem_map.mpr ⟨other, later, rfl⟩)

theorem trimmed_apart {there : HostPath} (parsed : parse target = some there)
    (rule : there.windows = false)
    (cut : target.rdropWhile windowsSeparator ≠ target.rdropWhile unixSeparator) :
    ¬ Within (target.rdropWhile windowsSeparator) target [] := by
  rintro ⟨here, there', found, again, lies⟩
  obtain rfl := Option.some.inj (parsed.symm.trans again)
  have same := (lies.windows found parsed).trans rule
  rcases lies.parts with ⟨front, split, agree⟩
  rw [List.append_nil] at split
  have equal : there.parts = here.parts := by
    rw [split, ← List.forall₂_eq_eq_eq]
    refine agree.imp fun above part alike => ?_
    rw [same, rule] at alike
    exact eq_of_beq alike
  have whole : target.rdropWhile windowsSeparator ++ target.rtakeWhile windowsSeparator = target :=
    List.rdropWhile_append_rtakeWhile
  have marks : ∀ c ∈ target.rtakeWhile windowsSeparator, windowsSeparator c = true :=
    rtakeWhile_separators
  have noDot : ∀ c ∈ target.rtakeWhile windowsSeparator, c ≠ '.' := by
    rintro _ member rfl
    have mark := marks _ member
    cases mark
  rcases walk_tail noDot (parse_unix found same).2.1 with ⟨longer, walks, _, more⟩
  rw [whole, (parse_unix parsed rule).2.1] at walks
  obtain rfl := Option.some.inj walks
  have letter : ∃ c ∈ target.rtakeWhile windowsSeparator, unixSeparator c = false := by
    by_contra none
    push Not at none
    apply cut
    have slashes : ∀ c ∈ target.rtakeWhile windowsSeparator, unixSeparator c = true :=
      fun c member => by simpa using none c member
    have kept : (target.rdropWhile windowsSeparator).rdropWhile unixSeparator =
        target.rdropWhile windowsSeparator := by
      rw [List.rdropWhile_eq_self_iff]
      intro some' slash
      have last := getLast?_rdropWhile (p := windowsSeparator) _
        (List.getLast?_eq_some_getLast some')
      rw [windows_of_unix slash] at last
      cases last
    have dropped : ∀ front tail : List Char, (∀ c ∈ tail, unixSeparator c = true) →
        (front ++ tail).rdropWhile unixSeparator = front.rdropWhile unixSeparator := by
      intro front tail all
      unfold List.rdropWhile
      rw [List.reverse_append, List.dropWhile_append_of_pos fun c member =>
        all c (List.mem_reverse.mp member)]
    rw [← kept, ← dropped _ _ slashes, whole]
  have fewer := more letter
  rw [equal] at fewer
  exact Nat.lt_irrefl _ fewer

theorem root_apart {checkout : List Char} {outer : HostPath} (parsed : parse checkout = some outer)
    (rule : outer.windows = false) (some' : outer.parts ≠ []) :
    Contains checkout (checkout ++ ['/', '\\', 'x']) outer.parts.length [['\\', 'x']] := by
  rcases parse_unix parsed rule with ⟨root, walked, rest, rfl, single⟩
  have name : IsName unixSeparator ['\\', 'x'] :=
    ⟨by decide, by decide, by decide, by simp [unixSeparator]⟩
  refine ⟨{ outer with parts := outer.parts ++ [['\\', 'x']] }, outer, ?_, parsed, some', rfl,
    lies_append outer _⟩
  rw [parse_eq_some]
  rcases outer with ⟨_, parts, _⟩
  simp only at rule root walked some' ⊢
  subst rule root
  refine ⟨'/' :: (rest ++ ['/', '\\', 'x']), .unix ?_, ?_⟩
  · cases rest with
    | nil => exact absurd (Option.some.inj walked).symm some'
    | cons second rest => exact single
  · have slash : unixSeparator '/' = true := rfl
    have walks := walk_append [] ('/' :: rest) ['\\', 'x'] slash
    rw [walked, Option.bind_some, walk_name _ name] at walks
    exact walks

end host

/-- Panes stay in the worktree of their session exactly when all that is trimmed from the end of the
target are slashes, and something is left, or the host's paths are those of Windows, or there is no
checkout below the root. -/
theorem worktree_stays_inside (checkouts : List (List Char)) (target : String)
    (host : OneHost checkouts target.toList) :
    StaysInside checkouts target ↔ Rebasable checkouts target.toList := by
  rcases host.sorted with ⟨there, parsed, named, outers⟩
  constructor
  · intro stays
    by_contra not
    rw [Rebasable, not_or] at not
    rcases not with ⟨cut, deep⟩
    push Not at cut deep
    rcases cut with ⟨there', again, cut⟩
    obtain rfl := Option.some.inj (parsed.symm.trans again)
    rcases deep with ⟨below, listed, inner, read, low⟩
    have rule : there.windows = false := Bool.eq_false_iff.mpr fun windows => cut (.inl windows)
    let depthOf : List Char → Nat := fun path => ((parse path).map (·.parts.length)).getD 0
    have depthOf_eq : ∀ {path here}, parse path = some here → depthOf path = here.parts.length := by
      intro path here own
      simp only [depthOf, own, Option.map_some, Option.getD_some]
    -- a directory in the deepest checkout is in no deeper one
    rcases exists_deepest (List.ne_nil_of_mem listed) depthOf with ⟨checkout, member, most⟩
    rcases outers checkout member with ⟨outer, found, own⟩
    have outerRule := own.trans rule
    have some' : outer.parts ≠ [] := by
      have positive := List.length_pos_of_ne_nil low
      rw [← depthOf_eq read] at positive
      have more := Nat.lt_of_lt_of_le positive (most below listed)
      rw [depthOf_eq found] at more
      exact List.ne_nil_of_length_pos more
    have innermost : ∀ {cwd : List Char} {rest : List (List Char)},
        Contains checkout cwd outer.parts.length rest → ∀ other ∈ checkouts, ∀ depth' rest',
          Contains other cwd depth' rest' →
            (∀ another ∈ checkouts, ∀ depth'' rest'', Contains another cwd depth'' rest'' →
              depth'' ≤ depth') → rest' = rest := by
      intro cwd rest contains other listed' depth' rest' contains' last
      have under := last checkout member _ _ contains
      have above : depth' ≤ outer.parts.length := by
        rcases contains' with ⟨_, there', _, own', _, rfl, _⟩
        rw [← depthOf_eq own', ← depthOf_eq found]
        exact most other listed'
      obtain rfl := Nat.le_antisymm above under
      exact contains'.rest_eq contains
    have left : ∀ {cwd : List Char} {rest : List (List Char)},
        Contains checkout cwd outer.parts.length rest →
          innermostCheckoutRest cwd checkouts = some rest := by
      intro cwd rest contains
      have inside := innermostCheckoutRest_isSome.mpr ⟨checkout, member, _, _, contains⟩
      rcases Option.isSome_iff_exists.mp inside with ⟨rest', found'⟩
      rcases innermostCheckoutRest_eq_some found' with ⟨other, listed', depth', contains', last⟩
      rw [found', innermost contains other listed' depth' rest' contains' last]
    by_cases gone : target.toList.rdropWhile windowsSeparator = []
    · -- the target is the root, and the name's backslash makes a share of the result
      have root : target.toList = ['/'] := by
        rcases (parse_unix parsed rule).2.2 with ⟨rest, whole, single⟩
        rw [List.rdropWhile_eq_nil_iff, whole] at gone
        cases rest with
        | nil => exact whole
        | cons second rest =>
            have mark := gone second (by simp)
            rw [single second rfl] at mark
            cases mark
      have contains := root_apart found outerRule some'
      have rebased : rebaseHostPath (checkout ++ ['/', '\\', 'x']) checkouts target.toList =
          some ['/', '\\', 'x'] := by
        unfold rebaseHostPath
        rw [left contains, root]
        rfl
      rcases stays.kept _ _ rebased with ⟨_, _, _, _, _, _, _, _, impossible, _⟩
      cases impossible
    · -- the checkout itself is moved to a path with a shorter name
      have contains : Contains checkout checkout outer.parts.length [] := by
        have lies := lies_append outer []
        rw [List.append_nil] at lies
        exact ⟨outer, outer, found, found, some', rfl, lies⟩
      rcases stays.kept _ _ (rebaseHostPath_eq (left contains) gone) with
        ⟨other, listed', depth', rest', contains', last, within⟩
      obtain rfl := innermost contains other listed' depth' rest' contains' last
      exact trimmed_apart parsed rule (fun same => cut (.inr ⟨gone, same⟩)) within
  · rintro (trims | none)
    · apply staysInside_of_kept parsed
      intro cwd rest found
      rcases innermostCheckoutRest_eq_some found with ⟨checkout, listed, depth, contains, _⟩
      rcases outers checkout listed with ⟨outer, own, same⟩
      exact rebased_within parsed (trims there parsed) named found
        (same ▸ contains.names own)
    · apply staysInside_of_kept parsed
      intro cwd rest found
      rcases innermostCheckoutRest_eq_some found with
        ⟨checkout, listed, depth, ⟨_, outer, _, own, some', _⟩, _⟩
      exact absurd (none checkout listed outer own) some'

theorem worktree_stays_inside_feat :
    StaysInside ["/src/rozi".toList, "/src/rozi/.worktrees/nested".toList] "/src/wt/feat/" := by
  have host : OneHost ["/src/rozi".toList, "/src/rozi/.worktrees/nested".toList]
      "/src/wt/feat/".toList := by
    refine .unix ?_ (by decide)
    simp only [List.forall_mem_cons]
    exact ⟨⟨_, rfl, rfl⟩, ⟨_, rfl, rfl⟩, ⟨_, rfl, rfl⟩, by simp⟩
  refine (worktree_stays_inside _ _ host).mpr (.inl fun there _ => .inr ⟨?_, ?_⟩) <;> decide

/-- A worktree whose last name ends in a backslash, written with a slash after it. -/
theorem worktree_leaves :
    OneHost ["/repo".toList] "/wt/a\\/".toList ∧ ¬ StaysInside ["/repo".toList] "/wt/a\\/" := by
  constructor
  · refine .unix ?_ (by decide)
    simp only [List.forall_mem_cons]
    exact ⟨⟨_, rfl, rfl⟩, ⟨_, rfl, rfl⟩, by simp⟩
  · intro stays
    have rebased : rebaseHostPath "/repo".toList ["/repo".toList] "/wt/a\\/".toList =
        some "/wt/a".toList := by decide
    rcases stays.kept _ _ rebased with ⟨_, _, _, _, _, _, here, there, found, parsed, lies⟩
    have one : parse "/wt/a".toList =
        some { root := ['/'], parts := ["wt".toList, ['a']], windows := false } := by decide
    have two : parse "/wt/a\\/".toList =
        some { root := ['/'], parts := ["wt".toList, ['a', '\\']], windows := false } := by decide
    rw [one, Option.some.injEq] at found
    rw [two, Option.some.injEq] at parsed
    subst found parsed
    have below := below_eq_some.mpr lies
    cases below

end Rozi
