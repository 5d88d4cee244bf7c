import Rozi.State.SidebarTree
import Mathlib.Data.List.Perm.Subperm

/-!
The forest that the rows of a section make when each names its parent: which rows reach a root, and
through which ancestors.
-/

namespace Rozi

/-- Following the parents of a row ends at a root; the ancestors come from the root down. A row whose
parent is none, itself or unknown is a root. -/
inductive Rooted (rows : List TreeRow) : TreeRow → List TreeRow → Prop
  | root {row : TreeRow} (member : row ∈ rows)
      (top : ∀ parent ∈ row.parent, parent = row.id ∨ ∀ other ∈ rows, other.id ≠ parent) :
      Rooted rows row []
  | child {row parent : TreeRow} {ancestors : List TreeRow} (above : Rooted rows parent ancestors)
      (member : row ∈ rows) (named : row.parent = some parent.id) (other : row.id ≠ parent.id) :
      Rooted rows row (ancestors ++ [parent])

def Beneath (rows : List TreeRow) (row ancestor : TreeRow) : Prop :=
  ∃ ancestors, Rooted rows row ancestors ∧ ancestor ∈ ancestors

section rooted

variable {rows : List TreeRow} {row parent other : TreeRow} {ancestors : List TreeRow}

theorem Rooted.member (rooted : Rooted rows row ancestors) : row ∈ rows := by
  cases rooted with
  | root member => exact member
  | child _ member => exact member

theorem mem_roots : row ∈ roots rows ↔ Rooted rows row [] := by
  simp only [roots, List.mem_filter, Bool.not_eq_true']
  constructor
  · rintro ⟨member, top⟩
    refine .root member fun parent named => ?_
    rw [nested, named] at top
    by_cases own : parent = row.id
    · exact .inl own
    · refine .inr fun other present same => ?_
      have known : (rows.any fun other => other.id == parent) = true :=
        List.any_eq_true.mpr ⟨other, present, beq_iff_eq.mpr same⟩
      simp [own, known] at top
  · intro rooted
    generalize empty : ([] : List TreeRow) = none' at rooted
    cases rooted with
    | root member top =>
        refine ⟨member, ?_⟩
        cases named : row.parent with
        | none => simp [nested, named]
        | some parent =>
            rw [nested, named]
            rcases top parent named with own | unknown
            · simp [own]
            · have absent : (rows.any fun other => other.id == parent) = false :=
                List.any_eq_false.mpr (by simpa using unknown)
              simp [absent]
    | child => simp at empty

theorem mem_children :
    row ∈ children rows parent.id ∧ parent ∈ rows ↔
      row ∈ rows ∧ parent ∈ rows ∧ row.parent = some parent.id ∧ row.id ≠ parent.id := by
  simp only [children, List.mem_filter, Bool.and_eq_true, beq_iff_eq]
  constructor
  · rintro ⟨⟨member, under, named⟩, known⟩
    rw [nested, named] at under
    simp only [Bool.and_eq_true, bne_iff_ne] at under
    exact ⟨member, known, named, under.1.symm⟩
  · rintro ⟨member, known, named, different⟩
    refine ⟨⟨member, ?_, named⟩, known⟩
    rw [nested, named]
    simp only [Bool.and_eq_true, bne_iff_ne, List.any_eq_true, beq_iff_eq]
    exact ⟨different.symm, parent, known, rfl⟩

theorem Rooted.of_children (above : Rooted rows parent ancestors)
    (below : row ∈ children rows parent.id) : Rooted rows row (ancestors ++ [parent]) := by
  rcases mem_children.mp ⟨below, above.member⟩ with ⟨member, _, named, different⟩
  exact .child above member named different

theorem Rooted.above {front back : List TreeRow}
    (rooted : Rooted rows row (front ++ other :: back)) : Rooted rows other front := by
  generalize split : front ++ other :: back = whole at rooted
  induction rooted generalizing back with
  | root => simp at split
  | @child row parent ancestors above member named different ih =>
      rcases List.eq_nil_or_concat back with rfl | ⟨rest, last, rfl⟩
      · have parts := List.append_inj_right' split rfl
        have same : front = ancestors := List.append_inj_left' split rfl
        rw [List.singleton_inj] at parts
        rw [parts, same]
        exact above
      · have parts : (front ++ other :: rest) ++ [last] = ancestors ++ [parent] := by
          simpa using split
        exact ih (List.append_inj_left' parts rfl)

theorem Rooted.through (rooted : Rooted rows row ancestors) (listed : parent ∈ ancestors) :
    ∃ kid ∈ children rows parent.id, row = kid ∨ Beneath rows row kid := by
  induction rooted with
  | root => cases listed
  | @child row above' ancestors above member named different ih =>
      rcases List.mem_append.mp listed with higher | own
      · rcases ih higher with ⟨kid, below, rfl | ⟨others, rooted, among⟩⟩
        · exact ⟨_, below, .inr ⟨_, .child above member named different, by simp⟩⟩
        · exact ⟨kid, below, .inr ⟨_, .child rooted member named different,
            List.mem_append_left _ among⟩⟩
      · obtain rfl := List.mem_singleton.mp own
        exact ⟨row, (mem_children.mpr ⟨member, above.member, named, different⟩).1, .inl rfl⟩

variable (unique : (rows.map TreeRow.id).Nodup)
include unique

theorem eq_of_id {first second : TreeRow} (one : first ∈ rows) (two : second ∈ rows)
    (same : first.id = second.id) : first = second :=
  List.inj_on_of_nodup_map unique one two same

theorem Rooted.determined {others : List TreeRow} (rooted : Rooted rows row ancestors)
    (again : Rooted rows row others) : ancestors = others := by
  induction rooted generalizing others with
  | root member top =>
      cases again with
      | root => rfl
      | child above member named different =>
          rcases top _ named with own | unknown
          · exact absurd own.symm different
          · exact absurd rfl (unknown _ above.member)
  | child above member named different ih =>
      cases again with
      | root member top =>
          rcases top _ named with own | unknown
          · exact absurd own.symm different
          · exact absurd rfl (unknown _ above.member)
      | child higher member again other =>
          rw [named, Option.some.injEq] at again
          obtain rfl := eq_of_id unique above.member higher.member again
          rw [ih higher]

theorem Rooted.nodup (rooted : Rooted rows row ancestors) : (ancestors ++ [row]).Nodup := by
  induction rooted with
  | root => exact List.nodup_singleton _
  | @child row parent ancestors above member named different ih =>
      have rooted : Rooted rows row (ancestors ++ [parent]) := .child above member named different
      refine List.nodup_append.mpr ⟨ih, List.nodup_singleton _, ?_⟩
      rintro first listed second single rfl
      rw [List.mem_singleton] at single
      subst single
      rcases List.append_of_mem listed with ⟨front, back, whole⟩
      have shorter : Rooted rows first front := by
        rw [whole] at rooted
        exact rooted.above
      have same := rooted.determined unique shorter
      have length := congrArg List.length same
      rw [whole] at length
      simp at length

/-- There are fewer ancestors than rows, so no way up is longer than the section. -/
theorem Rooted.length_lt (rooted : Rooted rows row ancestors) : ancestors.length < rows.length := by
  have inside : ∀ other ∈ ancestors ++ [row], other ∈ rows := by
    intro other listed
    rcases List.mem_append.mp listed with higher | own
    · rcases List.append_of_mem higher with ⟨front, back, rfl⟩
      exact rooted.above.member
    · exact List.mem_singleton.mp own ▸ rooted.member
  have fewer := ((rooted.nodup unique).subperm inside).length_le
  simp at fewer
  omega

theorem beneath_iff (above : Rooted rows parent ancestors) :
    Beneath rows row parent ↔
      ∃ kid ∈ children rows parent.id, row = kid ∨ Beneath rows row kid := by
  constructor
  · rintro ⟨others, rooted, listed⟩
    exact rooted.through listed
  · rintro ⟨kid, below, rfl | ⟨others, rooted, listed⟩⟩
    · exact ⟨_, above.of_children below, by simp⟩
    · rcases List.append_of_mem listed with ⟨front, back, rfl⟩
      have same := rooted.above.determined unique (above.of_children below)
      exact ⟨_, rooted, by simp [same]⟩

theorem Beneath.ancestors_eq {others : List TreeRow} (beneath : Beneath rows row parent)
    (above : Rooted rows parent ancestors) (rooted : Rooted rows row others) :
    ∃ rest, others = ancestors ++ parent :: rest := by
  rcases beneath with ⟨known, again, listed⟩
  obtain rfl := rooted.determined unique again
  rcases List.append_of_mem listed with ⟨front, back, rfl⟩
  exact ⟨back, by rw [rooted.above.determined unique above]⟩

theorem descendants_found {fuel : Nat} {kids : List TreeRow}
    (above : ∀ kid ∈ kids, Rooted rows kid ancestors) (enough : rows.length ≤ fuel + ancestors.length) :
    ∃ found, descendants rows fuel kids = some found ∧
      ∀ row, row ∈ found ↔ ∃ kid ∈ kids, row = kid ∨ Beneath rows row kid := by
  induction fuel generalizing kids ancestors with
  | zero =>
      cases kids with
      | nil => exact ⟨[], rfl, by simp⟩
      | cons kid rest =>
          have short := (above kid List.mem_cons_self).length_lt unique
          omega
  | succ fuel ih =>
      have each : ∀ kid ∈ kids, ∃ found,
          ((descendants rows fuel (children rows kid.id)).map (kid :: ·)) = some found ∧
            ∀ row, row ∈ found ↔ row = kid ∨ Beneath rows row kid := by
        intro kid member
        have rooted := above kid member
        have below : ∀ other ∈ children rows kid.id, Rooted rows other (ancestors ++ [kid]) :=
          fun other below => rooted.of_children below
        rcases ih below (by rw [List.length_append, List.length_singleton]; omega) with
          ⟨found, same, all⟩
        refine ⟨kid :: found, by rw [same]; rfl, fun row => ?_⟩
        rw [List.mem_cons, all, beneath_iff unique rooted]
      rcases exists_gather each with ⟨result, same, _, all⟩
      refine ⟨_, same, fun row => ?_⟩
      rw [List.mem_flatMap]
      exact exists_congr fun kid => and_congr_right fun member => all kid member row

end rooted

end Rozi
