import Mathlib.Logic.Basic

/-!
A single token passed among the members of a changing set of entitled parties. Custody asks for
both directions at once: the holder is entitled, and the token is not idle while anyone is.
-/

universe u

structure Custody {α : Type u} (holder : Option α) (entitled : α → Prop) : Prop where
  held : ∀ party, holder = some party → entitled party
  idle : holder = none → ∀ party, ¬ entitled party

namespace Custody

variable {α : Type u} {holder : Option α} {entitled before after : α → Prop}

theorem handTo {party : α} (worthy : entitled party) : Custody (some party) entitled where
  held := by
    intro other same
    cases same
    exact worthy
  idle := by simp

/-- The entitlement may change in any way that keeps the holder's, and that entitles nobody new
while the token is idle. -/
theorem change (custody : Custody holder before)
    (kept : ∀ party, holder = some party → before party → after party)
    (nobody : holder = none → ∀ party, after party → before party) : Custody holder after where
  held := fun party has => kept party has (custody.held party has)
  idle := fun idle party worthy => custody.idle idle party (nobody idle party worthy)

end Custody
