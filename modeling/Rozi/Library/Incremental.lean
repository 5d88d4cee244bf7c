import Mathlib.Data.List.Basic

/-!
Decoding a stream that arrives in pieces. A puller takes at most one item off the front of what has
arrived so far; a stream of items is received in full however it is cut.
-/

universe u v w

structure Puller (α : Type u) (β : Type v) (ε : Type w) where
  pull : List β → Except ε (Option α) × List β
  shrinks : ∀ buffer item rest, pull buffer = (.ok (some item), rest) →
    rest.length < buffer.length

namespace Puller

variable {α : Type u} {β : Type v} {ε : Type w} (puller : Puller α β ε)

structure Drained (α : Type u) (β : Type v) (ε : Type w) where
  items : List α
  failure : Option ε
  buffer : List β

def drain (buffer : List β) : Drained α β ε :=
  match pulled : puller.pull buffer with
  | (.ok none, rest) => { items := [], failure := none, buffer := rest }
  | (.error error, rest) => { items := [], failure := some error, buffer := rest }
  | (.ok (some item), rest) =>
      have := puller.shrinks buffer item rest pulled
      let drained := drain rest
      { drained with items := item :: drained.items }
  termination_by buffer.length

def receive (buffer : List β) : List (List β) → Drained α β ε
  | [] => { items := [], failure := none, buffer }
  | piece :: pieces =>
      let drained := puller.drain (buffer ++ piece)
      match drained.failure with
      | some _ => drained
      | none =>
          let received := receive drained.buffer pieces
          { received with items := drained.items ++ received.items }

/-- `code` stands for `item`: it is pulled off the front of anything that starts with it, and
nothing is pulled off what is only a part of it. -/
structure Codes (item : α) (code : List β) : Prop where
  pulled : ∀ rest, puller.pull (code ++ rest) = (.ok (some item), rest)
  waits : ∀ front back, code = front ++ back → back ≠ [] → puller.pull front = (.ok none, front)

variable {puller}

theorem drain_none {buffer : List β} (waits : puller.pull buffer = (.ok none, buffer)) :
    puller.drain buffer = { items := [], failure := none, buffer } := by
  rw [drain]
  split
  · rename_i rest pulled
    rw [waits] at pulled
    cases pulled
    rfl
  · rename_i error rest pulled
    rw [waits] at pulled
    cases pulled
  · rename_i item rest pulled
    rw [waits] at pulled
    cases pulled

theorem drain_some {buffer rest : List β} {item : α}
    (took : puller.pull buffer = (.ok (some item), rest)) :
    puller.drain buffer = { puller.drain rest with items := item :: (puller.drain rest).items } := by
  rw [drain]
  split
  · rename_i other pulled
    rw [took] at pulled
    cases pulled
  · rename_i error other pulled
    rw [took] at pulled
    cases pulled
  · rename_i other left pulled
    rw [took] at pulled
    cases pulled
    rfl

/-- Draining a part of a stream takes the items that are whole and keeps the start of the next. -/
theorem drain_spec {items : List α} {codes : List (List β)}
    (coded : List.Forall₂ puller.Codes items codes) (empty : puller.pull [] = (.ok none, []))
    (buffer rest : List β) (arrived : buffer ++ rest = codes.flatten) :
    ∃ taken left leftCodes, items = taken ++ left ∧ List.Forall₂ puller.Codes left leftCodes ∧
      puller.drain buffer =
        { items := taken, failure := none, buffer := (puller.drain buffer).buffer } ∧
      (puller.drain buffer).buffer ++ rest = leftCodes.flatten ∧
      puller.pull (puller.drain buffer).buffer = (.ok none, (puller.drain buffer).buffer) := by
  induction coded generalizing buffer with
  | nil =>
      have none : buffer = [] := (List.append_eq_nil_iff.mp arrived).1
      cases none
      have drained := drain_none empty
      refine ⟨[], [], [], rfl, .nil, ?_, ?_, ?_⟩
      · rw [drained]
      · rw [drained]
        exact arrived
      · rw [drained]
        exact empty
  | @cons item code items codes codes' coded ih =>
      rw [List.flatten_cons] at arrived
      rcases List.append_eq_append_iff.mp arrived with ⟨back, whole, tail⟩ | ⟨back, whole, tail⟩
      · -- only a part of the first item has arrived, or exactly all of it
        cases back with
        | nil =>
            simp only [List.append_nil] at whole
            cases whole
            have took := codes'.pulled []
            rw [List.append_nil] at took
            have drained := drain_some took
            rw [drain_none empty] at drained
            refine ⟨[item], items, codes, rfl, coded, ?_, ?_, ?_⟩
            · rw [drained]
            · rw [drained]
              simpa using tail
            · rw [drained]
              exact empty
        | cons next back =>
            have drained := drain_none (codes'.waits buffer (next :: back) whole (by simp))
            refine ⟨[], item :: items, code :: codes, rfl, .cons codes' coded, ?_, ?_, ?_⟩
            · rw [drained]
            · rw [drained]
              exact arrived.trans rfl
            · rw [drained]
              exact codes'.waits buffer (next :: back) whole (by simp)
      · rcases ih back tail.symm with ⟨taken, left, leftCodes, split, leftCoded, same, later, stuck⟩
        have drained := drain_some (codes'.pulled back)
        rw [← whole] at drained
        refine ⟨item :: taken, left, leftCodes, by rw [split]; rfl, leftCoded, ?_, ?_, ?_⟩
        · rw [drained, same]
        · rw [drained]
          exact later
        · rw [drained]
          exact stuck

theorem receive_spec {items : List α} {codes : List (List β)}
    (coded : List.Forall₂ puller.Codes items codes) (empty : puller.pull [] = (.ok none, []))
    (buffer : List β) (stuck : puller.pull buffer = (.ok none, buffer)) (pieces : List (List β))
    (cut : buffer ++ pieces.flatten = codes.flatten) :
    puller.receive buffer pieces = { items, failure := none, buffer := [] } := by
  induction pieces generalizing buffer items codes with
  | nil =>
      rw [List.flatten_nil, List.append_nil] at cut
      cases coded with
      | nil =>
          rw [cut]
          rfl
      | cons first others =>
          rw [cut, List.flatten_cons, first.pulled] at stuck
          cases stuck
  | cons piece pieces ih =>
      rw [List.flatten_cons, ← List.append_assoc] at cut
      rcases drain_spec coded empty (buffer ++ piece) pieces.flatten cut with
        ⟨taken, left, leftCodes, split, leftCoded, same, later, waits⟩
      have received := ih leftCoded _ waits later
      rw [receive, same]
      simp only
      rw [received, split]

end Puller
