import Mathlib.Data.List.Basic

/-!
Items on lanes, each with a piece of text. The transcript of a lane is the text of its items in
order. A consumer may pass over items and take a later one, as long as it passes over none of the
lane it takes from.
-/

universe u v w x

structure Lanes (ι : Type u) (κ : Type v) (β : Type w) where
  lane : ι → Option κ
  text : ι → List β

namespace Lanes

variable {ι : Type u} {κ : Type v} {β : Type w} [DecidableEq κ] (lanes : Lanes ι κ β)

def said (key : κ) (item : ι) : List β :=
  if lanes.lane item = some key then lanes.text item else []

def transcript (key : κ) (items : List ι) : List β := items.flatMap (lanes.said key)

@[simp] theorem transcript_nil (key : κ) : lanes.transcript key [] = [] := rfl

@[simp] theorem transcript_cons (key : κ) (item : ι) (items : List ι) :
    lanes.transcript key (item :: items) = lanes.said key item ++ lanes.transcript key items := rfl

@[simp] theorem transcript_append (key : κ) (front back : List ι) :
    lanes.transcript key (front ++ back) =
      lanes.transcript key front ++ lanes.transcript key back :=
  List.flatMap_append

variable {lanes}

theorem said_on {key : κ} {item : ι} (here : lanes.lane item = some key) :
    lanes.said key item = lanes.text item := if_pos here

theorem said_off {key : κ} {item : ι} (elsewhere : lanes.lane item ≠ some key) :
    lanes.said key item = [] := if_neg elsewhere

theorem transcript_apart {key : κ} {items : List ι}
    (apart : ∀ item ∈ items, lanes.lane item ≠ some key) : lanes.transcript key items = [] :=
  List.flatMap_eq_nil_iff.mpr fun item member => said_off (apart item member)

def Apart (lanes : Lanes ι κ β) (item : ι) (items : List ι) : Prop :=
  ∀ other ∈ items, lanes.lane item ≠ none → lanes.lane other ≠ lanes.lane item

theorem Apart.transcript {item : ι} {items : List ι} (apart : Apart lanes item items) {key : κ}
    (here : lanes.lane item = some key) : lanes.transcript key items = [] := by
  apply transcript_apart
  intro other member same
  have shown : lanes.lane item ≠ none := by rw [here]; simp
  exact apart other member shown (same.trans here.symm)

theorem transcript_take {item : ι} {front : List ι} (back : List ι)
    (apart : Apart lanes item front) (key : κ) :
    lanes.transcript key (front ++ item :: back) =
      lanes.said key item ++ lanes.transcript key (front ++ back) := by
  by_cases here : lanes.lane item = some key
  · simp [apart.transcript here]
  · simp [said_off here]

/-- An item that takes the newest text of its lane where nothing of the lane stands behind it. -/
theorem transcript_merge {item new merged : ι} {back : List ι} (front : List ι)
    (same : lanes.lane new = lanes.lane item) (kept : lanes.lane merged = lanes.lane item)
    (text : lanes.text merged = lanes.text item ++ lanes.text new)
    (apart : Apart lanes item back) (key : κ) :
    lanes.transcript key (front ++ merged :: back) =
      lanes.transcript key (front ++ item :: back ++ [new]) := by
  by_cases here : lanes.lane item = some key
  · have merges : lanes.said key merged = lanes.said key item ++ lanes.said key new := by
      rw [said_on here, said_on (kept.trans here), said_on (same.trans here), text]
    simp [merges, apart.transcript here]
  · have elsewhere := said_off here
    have merges : lanes.said key merged = [] := said_off fun now => here (kept.symm.trans now)
    have new' : lanes.said key new = [] := said_off fun now => here (same.symm.trans now)
    simp [elsewhere, merges, new']

theorem said_cut {item head tail : ι} (first : lanes.lane head = lanes.lane item)
    (second : lanes.lane tail = lanes.lane item)
    (text : lanes.text item = lanes.text head ++ lanes.text tail) (key : κ) :
    lanes.said key item = lanes.said key head ++ lanes.said key tail := by
  unfold said
  rw [first, second, text]
  by_cases here : lanes.lane item = some key
  · rw [if_pos here, if_pos here, if_pos here]
  · rw [if_neg here, if_neg here, if_neg here]
    rfl

end Lanes

/-!
A search that keeps state while it passes over items.
-/

namespace Scan

variable {σ : Type u} {α : Type v}

/-- The first item the test accepts, between the items in front of it and those behind it, and the
state the test ends in. -/
def first (ready : σ → α → Bool × σ) : σ → List α → Option (List α × α × List α) × σ
  | state, [] => (none, state)
  | state, item :: rest =>
      match ready state item with
      | (true, after) => (some ([], item, rest), after)
      | (false, after) =>
          match first ready after rest with
          | (some (front, found, back), last) => (some (item :: front, found, back), last)
          | (none, last) => (none, last)

variable {ready : σ → α → Bool × σ} {state last : σ} {items front back : List α} {found : α}

inductive Passes (ready : σ → α → Bool × σ) : σ → List α → σ → Prop
  | nil (state : σ) : Passes ready state [] state
  | cons {state next last : σ} {item : α} {rest : List α}
      (refused : ready state item = (false, next)) (passes : Passes ready next rest last) :
      Passes ready state (item :: rest) last

theorem first_eq_some (done : first ready state items = (some (front, found, back), last)) :
    items = front ++ found :: back ∧
      ∃ before, Passes ready state front before ∧ ready before found = (true, last) := by
  induction items generalizing state front with
  | nil => cases done
  | cons item rest ih =>
      simp only [first] at done
      rcases answer : ready state item with ⟨accepted, after⟩
      rw [answer] at done
      cases accepted with
      | true =>
          cases done
          exact ⟨rfl, state, .nil state, answer⟩
      | false =>
          rcases tail : first ready after rest with ⟨_ | ⟨front', found', back'⟩, last'⟩
          · simp [tail] at done
          · simp only [tail, Prod.mk.injEq, Option.some.injEq] at done
            rcases done with ⟨⟨rfl, rfl, rfl⟩, rfl⟩
            rcases ih tail with ⟨whole, before, passes, taken⟩
            exact ⟨by rw [whole]; rfl, before, .cons answer passes, taken⟩

theorem first_eq_none (done : first ready state items = (none, last)) :
    Passes ready state items last := by
  induction items generalizing state with
  | nil =>
      cases done
      exact .nil _
  | cons item rest ih =>
      simp only [first] at done
      rcases answer : ready state item with ⟨accepted, after⟩
      rw [answer] at done
      cases accepted with
      | true => simp at done
      | false =>
          rcases tail : first ready after rest with ⟨_ | ⟨front', found', back'⟩, last'⟩
          · simp only [tail, Prod.mk.injEq, true_and] at done
            subst done
            exact .cons answer (ih tail)
          · simp [tail] at done

theorem Passes.map {γ : Type x} {test : σ → γ → Bool × σ} {view : α → γ}
    (passes : Passes (fun state item => test state (view item)) state items last) :
    Passes test state (items.map view) last := by
  induction passes with
  | nil state => exact .nil state
  | cons refused _ ih => exact .cons refused ih

theorem first_map {γ : Type x} {test : σ → γ → Bool × σ} {view : α → γ} (state : σ)
    (items : List α) :
    first test state (items.map view) =
      ((first (fun state item => test state (view item)) state items).1.map fun
          (front, found, back) => (front.map view, view found, back.map view),
        (first (fun state item => test state (view item)) state items).2) := by
  induction items generalizing state with
  | nil => rfl
  | cons item rest ih =>
      simp only [List.map_cons, first]
      rcases test state (view item) with ⟨_ | _, after⟩
      · simp only [ih]
        rcases first (fun state item => test state (view item)) after rest with
          ⟨_ | ⟨front, found, back⟩, last⟩
        · rfl
        · rfl
      · rfl

theorem Passes.invariant {inv : List α → σ → Prop}
    (pass : ∀ front state item next, inv front state → ready state item = (false, next) →
      inv (front ++ [item]) next)
    {passed : List α} (begins : inv passed state) (passes : Passes ready state items last) :
    inv (passed ++ items) last := by
  induction passes generalizing passed with
  | nil => rwa [List.append_nil]
  | cons refused _ ih =>
      have next := ih (pass passed _ _ _ begins refused)
      rwa [List.append_assoc] at next

end Scan
