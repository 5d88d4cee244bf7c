import Rozi.Layout.HostPathBelow

/-!
A directory of a checkout, moved below a worktree: what its path is read as, and when that is where it
was meant to go.
-/

namespace Rozi

open LexicalPath HostPath

section rebase

theorem rdropWhile_append_of_ne_nil {front back : List Char} {p : Char → Bool}
    (kept : back.rdropWhile p ≠ []) :
    (front ++ back).rdropWhile p = front ++ back.rdropWhile p := by
  unfold List.rdropWhile at kept ⊢
  rw [List.reverse_append, List.dropWhile_append]
  rw [ne_eq, List.reverse_eq_nil_iff] at kept
  rw [if_neg (by simpa using kept), List.reverse_append, List.reverse_reverse]

theorem getLast?_rdropWhile {text : List Char} {p : Char → Bool} :
    ∀ c ∈ (text.rdropWhile p).getLast?, p c = false := by
  intro c member
  have some' : text.rdropWhile p ≠ [] := by
    intro empty
    rw [empty] at member
    cases member
  rw [List.getLast?_eq_some_getLast some', Option.mem_def, Option.some.injEq] at member
  have last := List.rdropWhile_last_not p text some'
  rw [member] at last
  exact Bool.eq_false_iff.mpr last

theorem rtakeWhile_separators {text : List Char} {p : Char → Bool} :
    ∀ c ∈ text.rtakeWhile p, p c = true := by
  intro c member
  unfold List.rtakeWhile at member
  rw [List.mem_reverse] at member
  exact List.mem_takeWhile_imp member

theorem windows_of_unix {c : Char} (slash : unixSeparator c = true) : windowsSeparator c = true := by
  unfold windowsSeparator
  rw [show (c == '/') = true from slash]
  rfl

/-- Whether what is trimmed from the end of a target is no part of a name. -/
def Trims (target : List Char) (windows : Bool) : Prop :=
  windows = true ∨ target.rdropWhile windowsSeparator ≠ [] ∧
    target.rdropWhile windowsSeparator = target.rdropWhile unixSeparator

variable {target : List Char} {there : HostPath}

/-- A trimmed target is read as the target, whatever is written after it. -/
theorem parse_joined (parsed : parse target = some there) (trims : Trims target there.windows)
    (named : there.windows = true → there.parts ≠ []) {mark : Char}
    (separates : separatorOf there.windows mark = true) {names : List (List Char)}
    (all : ∀ name ∈ names, IsName (separatorOf there.windows) name) :
    parse (joined mark (target.rdropWhile windowsSeparator) names) =
      some { there with parts := there.parts ++ names } := by
  rcases parse_eq_some.mp parsed with ⟨rest, rooted, walked⟩
  rcases there with ⟨root, parts, windows⟩
  simp only at rooted walked trims named separates all ⊢
  -- the text that is walked keeps its first characters, which make out the root
  have extends' : ∃ lead base tail, target.rdropWhile windowsSeparator = lead ++ base ∧
      rest = base ++ tail ∧ (∀ c ∈ tail, separatorOf windows c = true) ∧
      ∀ more, Rooted (lead ++ (base ++ more)) root (base ++ more) windows := by
    have windowsCase : windows = true → ∀ lead, target = lead ++ rest →
        (∀ base tail, rest = base ++ tail → base ≠ [] → ∀ more,
          Rooted (lead ++ (base ++ more)) root (base ++ more) windows) →
        ∃ lead base tail, target.rdropWhile windowsSeparator = lead ++ base ∧
          rest = base ++ tail ∧ (∀ c ∈ tail, separatorOf windows c = true) ∧
          ∀ more, Rooted (lead ++ (base ++ more)) root (base ++ more) windows := by
      rintro rfl lead split rooted'
      have whole : rest.rdropWhile windowsSeparator ++ rest.rtakeWhile windowsSeparator = rest :=
        List.rdropWhile_append_rtakeWhile
      have marks : ∀ c ∈ rest.rtakeWhile windowsSeparator, separatorOf true c = true :=
        rtakeWhile_separators
      have some' : rest.rdropWhile windowsSeparator ≠ [] := by
        intro empty
        rw [empty, List.nil_append] at whole
        rw [whole] at marks
        rw [walk_separators [] marks] at walked
        exact named rfl (Option.some.inj walked).symm
      refine ⟨lead, _, _, ?_, whole.symm, marks, rooted' _ _ whole.symm some'⟩
      rw [split, rdropWhile_append_of_ne_nil some']
    cases rooted with
    | @unix rest single =>
        rcases trims with impossible | ⟨some', same⟩
        · cases impossible
        · have whole : ('/' :: rest).rdropWhile unixSeparator ++
              ('/' :: rest).rtakeWhile unixSeparator = '/' :: rest :=
            List.rdropWhile_append_rtakeWhile
          refine ⟨[], ('/' :: rest).rdropWhile unixSeparator, _, same, whole.symm,
            rtakeWhile_separators, ?_⟩
          intro more
          rw [same] at some'
          cases base : ('/' :: rest).rdropWhile unixSeparator with
          | nil => exact absurd base some'
          | cons first base' =>
              rw [base] at whole
              have slash : first = '/' := (List.cons.inj whole).1
              have after := (List.cons.inj whole).2
              cases base' with
              | nil =>
                  have last : unixSeparator first = false :=
                    getLast?_rdropWhile first (by rw [base]; rfl)
                  rw [slash] at last
                  cases last
              | cons second base' =>
                  rw [slash]
                  refine .unix ?_
                  rw [← after] at single
                  exact single
    | @drive letter _ alpha starts =>
        refine windowsCase rfl [letter, ':'] rfl ?_
        intro base tail split some' more
        refine .drive alpha ?_
        cases base with
        | nil => exact absurd rfl some'
        | cons first base => rwa [split] at starts
    | @share first second between' server share below firstMark secondMark filled whole between shared
        whole' ends =>
        cases below with
        | nil =>
            rw [List.tail_nil, walk_nil] at walked
            exact absurd (Option.some.inj walked).symm (named rfl)
        | cons after below =>
            refine windowsCase rfl (first :: second :: (server ++ between' :: (share ++ [after]))) ?_ ?_
            · simp
            · intro base tail split some' more
              have rooted : Rooted (first :: second :: (server ++ between' ::
                  (share ++ (after :: (base ++ more))))) _ (after :: (base ++ more)).tail true :=
                .share firstMark secondMark filled whole between shared whole' ends
              simpa using rooted
  rcases extends' with ⟨lead, base, tail, trimmed, rfl, marks, rooted'⟩
  rw [walk_trailing [] base marks] at walked
  refine parse_eq_some.mpr ⟨joined mark base names, ?_, ?_⟩
  · rw [trimmed, joined_append, joined_eq_append mark base]
    exact rooted' _
  · rw [walk_joined [] separates all, walked]
    rfl

theorem foldl_pushPart {windows : Bool} {mark : Char} (separates : separatorOf windows mark = true)
    {names : List (List Char)} (all : ∀ name ∈ names, IsName (separatorOf windows) name)
    {base : List Char} (ends : base.getLast? ≠ some mark) :
    names.foldl (pushPart mark) base = joined mark base names := by
  induction names generalizing base with
  | nil => rfl
  | cons name names ih =>
      have named := all name List.mem_cons_self
      rw [List.foldl_cons, joined_cons, pushPart, if_neg ends, List.append_assoc,
        List.singleton_append]
      apply ih fun other member => all other (List.mem_cons_of_mem _ member)
      intro last
      rw [List.getLast?_append, List.getLast?_cons, Option.some_or, Option.some.injEq] at last
      cases ended : name.getLast? with
      | none => exact named.filled (List.getLast?_eq_none_iff.mp ended)
      | some c =>
          rw [ended, Option.getD_some] at last
          rw [last] at ended
          have inside := named.whole mark (List.mem_of_getLast? ended)
          rw [separates] at inside
          cases inside

def markOf (target : List Char) : Char :=
  if target.contains '\\' && !target.contains '/' then '\\' else '/'

theorem markOf_separates (parsed : parse target = some there) :
    separatorOf there.windows (markOf target) = true := by
  unfold markOf
  cases rule : there.windows with
  | true => split_ifs <;> rfl
  | false =>
      rcases parse_eq_some.mp parsed with ⟨rest, rooted, _⟩
      rw [rule] at rooted
      generalize there.root = root at rooted
      cases rooted with
      | unix single =>
          rw [if_neg (by simp)]
          rfl

theorem markOf_windows (target : List Char) : windowsSeparator (markOf target) = true := by
  unfold markOf
  split_ifs <;> rfl

theorem rebaseHostPath_isSome {cwd : List Char} {checkouts : List (List Char)} :
    (rebaseHostPath cwd checkouts target).isSome = (innermostCheckoutRest cwd checkouts).isSome := by
  unfold rebaseHostPath
  cases innermostCheckoutRest cwd checkouts <;> rfl

/-- Where something is left of the target, the components are written after it. -/
theorem rebaseHostPath_eq {cwd : List Char} {checkouts : List (List Char)}
    {rest : List (List Char)} (found : innermostCheckoutRest cwd checkouts = some rest)
    (some' : target.rdropWhile windowsSeparator ≠ []) :
    rebaseHostPath cwd checkouts target =
      some (rest.foldl (pushPart (markOf target)) (target.rdropWhile windowsSeparator)) := by
  unfold rebaseHostPath
  rw [found, Option.bind_eq_bind, Option.bind_some]
  simp only [if_neg some']
  rfl

def Within (path ancestor : List Char) (rest : List (List Char)) : Prop :=
  ∃ here there, parse path = some here ∧ parse ancestor = some there ∧ here.Lies there rest

theorem within_self (parsed : parse target = some there) : Within target target [] := by
  have lies := lies_append there []
  rw [List.append_nil] at lies
  exact ⟨there, there, parsed, parsed, lies⟩

theorem Contains.names {checkout cwd : List Char} {depth : Nat} {rest : List (List Char)}
    (contains : Contains checkout cwd depth rest) {outer : HostPath}
    (parsed : parse checkout = some outer) :
    ∀ name ∈ rest, IsName (separatorOf outer.windows) name := by
  rcases contains with ⟨here, other, found, again, _, _, lies⟩
  obtain rfl := Option.some.inj (parsed.symm.trans again)
  rw [← lies.windows found parsed]
  rcases lies.parts with ⟨front, split, _⟩
  intro name member
  refine parse_names found name ?_
  rw [split]
  exact List.mem_append_right front member

theorem rebased_within (parsed : parse target = some there) (trims : Trims target there.windows)
    (named : there.windows = true → there.parts ≠ []) {cwd : List Char}
    {checkouts : List (List Char)} {rest : List (List Char)}
    (found : innermostCheckoutRest cwd checkouts = some rest)
    (names : ∀ name ∈ rest, IsName (separatorOf there.windows) name) :
    ∃ result, rebaseHostPath cwd checkouts target = some result ∧ Within result target rest := by
  have separates := markOf_separates parsed
  have joins := @parse_joined _ _ parsed trims named _ separates
  have some' : target.rdropWhile windowsSeparator ≠ [] := by
    intro empty
    have alone := @joins [] (by simp)
    rw [empty] at alone
    cases alone
  have ends : (target.rdropWhile windowsSeparator).getLast? ≠ some (markOf target) := by
    intro last
    have not := getLast?_rdropWhile _ last
    rw [markOf_windows] at not
    cases not
  refine ⟨_, rebaseHostPath_eq found some', ?_⟩
  rw [foldl_pushPart separates names ends]
  exact ⟨_, there, joins names, parsed, lies_append there rest⟩

end rebase

end Rozi
