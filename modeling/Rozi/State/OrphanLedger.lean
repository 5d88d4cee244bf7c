import Rozi.State.OrphanSafety

/-!
What was inserted for each pane and generation since it was last taken, and that the store holds
exactly that.
-/

namespace Rozi

structure OrphanPiece where
  bytes : Bytes
  media : List TerminalOutputMedia

abbrev OrphanLedger := OrphanOutputKey → List OrphanPiece

def TerminalOutputMedia.Inside (media : TerminalOutputMedia) (bytes : Bytes) : Prop :=
  media.commandRange.1 ≤ media.commandRange.2 ∧ media.commandRange.2 ≤ bytes.length

def OrphanCall.Inside : OrphanCall → Prop
  | .insertMedia _ bytes media => ∀ item ∈ media, item.Inside bytes
  | _ => True

namespace OrphanLedger

/-- An insert of no bytes is accepted and keeps nothing: it has no command to name. -/
def after (ledger : OrphanLedger) : OrphanCall × OrphanAnswer → OrphanLedger
  | (.insertMedia key bytes media, .inserted true) =>
      if bytes.isEmpty then ledger
      else Function.update ledger key (ledger key ++ [{ bytes, media }])
  | (.take key, _) => Function.update ledger key []
  | (.takeForGeneration key, _) | (.takeOwnedForGeneration key, _) => fun other =>
      if other.pane = key.pane ∧ other.generation ≤ key.generation then [] else ledger other
  | _ => ledger

def ofCalls (calls : List (OrphanCall × OrphanAnswer)) : OrphanLedger :=
  calls.foldl after fun _ => []

end OrphanLedger

namespace OrphanPiece

def output (pieces : List OrphanPiece) : Bytes := pieces.flatMap OrphanPiece.bytes

def bindings (pieces : List OrphanPiece) : List (Bytes × TerminalOutputMedia) :=
  pieces.flatMap fun piece => piece.media.map (piece.bytes, ·)

def taken (pieces : List OrphanPiece) : Option Bytes :=
  if pieces.isEmpty then none else some (output pieces)

/-- The bindings as the store keeps them, the output of the pieces starting at `offset`. -/
def shifted : Nat → List OrphanPiece → List TerminalOutputMedia
  | _, [] => []
  | offset, piece :: pieces =>
      piece.media.map (TerminalOutputMedia.shift offset) ++
        shifted (offset + piece.bytes.length) pieces

end OrphanPiece

def NamesCommand (bytes : Bytes) (binding : TerminalOutputMedia)
    (origin : Bytes × TerminalOutputMedia) : Prop :=
  binding.file = origin.2.file ∧ binding.Inside bytes ∧
    bytes.slice binding.commandRange.1 binding.commandRange.2 =
      origin.1.slice origin.2.commandRange.1 origin.2.commandRange.2

/-- What a call answers and leaves, given what is in the ledger. -/
def OrphanCall.Whole (ledger : OrphanLedger) (store next : OrphanOutputStore) :
    OrphanCall → OrphanAnswer → Prop
  | .insertMedia _ _ _, .inserted kept => kept = false → next = store
  | .take key, .taken output =>
      output = OrphanPiece.taken (ledger key) ∧ OrphanOutputStore.Without (· = key) store next
  | .takeForGeneration key, .taken output =>
      output = OrphanPiece.taken (ledger key) ∧
        OrphanOutputStore.Without
          (fun other => other.pane = key.pane ∧ other.generation ≤ key.generation) store next
  | .takeOwnedForGeneration key, .owned output =>
      output.map Prod.fst = OrphanPiece.taken (ledger key) ∧
        (∀ bytes media, output = some (bytes, media) →
          List.Forall₂ (NamesCommand bytes) media (OrphanPiece.bindings (ledger key))) ∧
        OrphanOutputStore.Without
          (fun other => other.pane = key.pane ∧ other.generation ≤ key.generation) store next
  | _, _ => False

namespace OrphanPiece

theorem shifted_append (offset : Nat) (front back : List OrphanPiece) :
    shifted offset (front ++ back) =
      shifted offset front ++ shifted (offset + (output front).length) back := by
  induction front generalizing offset with
  | nil => simp [shifted, output]
  | cons piece front ih =>
      have along : offset + piece.bytes.length + (output front).length =
          offset + (output (piece :: front)).length := by
        simp [output, Nat.add_assoc]
      simp only [List.cons_append, shifted, ih, List.append_assoc, along]

theorem taken_getD (pieces : List OrphanPiece) : (taken pieces).getD [] = output pieces := by
  cases pieces with
  | nil => rfl
  | cons piece pieces => rfl

/-- Output put before and after a stretch does not change what a shifted range names. -/
theorem slice_shift (before bytes behind : Bytes) {start stop : Nat} (within : stop ≤ bytes.length) :
    (before ++ bytes ++ behind).slice (start + before.length) (stop + before.length) =
      bytes.slice start stop := by
  have room : stop - start ≤ bytes.length - start := Nat.sub_le_sub_right within start
  simp only [Bytes.slice, Nat.add_sub_add_right]
  rw [List.append_assoc, Nat.add_comm, ← List.drop_drop, List.drop_left, List.drop_append,
    List.take_append_of_le_length (by rw [List.length_drop]; exact room)]

theorem shifted_namesCommand {pieces : List OrphanPiece}
    (inside : ∀ piece ∈ pieces, ∀ item ∈ piece.media, item.Inside piece.bytes) (before : Bytes) :
    List.Forall₂ (NamesCommand (before ++ output pieces)) (shifted before.length pieces)
      (bindings pieces) := by
  induction pieces generalizing before with
  | nil => exact .nil
  | cons piece pieces ih =>
      have whole : before ++ output (piece :: pieces) =
          before ++ piece.bytes ++ output pieces := by
        simp [output]
      have rest := ih (fun other member => inside other (List.mem_cons_of_mem piece member))
        (before ++ piece.bytes)
      rw [whole]
      rw [List.length_append] at rest
      have own : List.Forall₂ (NamesCommand (before ++ piece.bytes ++ output pieces))
          (piece.media.map (TerminalOutputMedia.shift before.length))
          (piece.media.map (piece.bytes, ·)) := by
        rw [List.forall₂_map_left_iff, List.forall₂_map_right_iff]
        refine List.forall₂_same.mpr ?_
        intro item member
        rcases inside piece List.mem_cons_self item member with ⟨ordered, within⟩
        refine ⟨rfl, ⟨Nat.add_le_add_right ordered _, ?_⟩, slice_shift _ _ _ within⟩
        simp only [TerminalOutputMedia.shift, List.length_append]
        omega
      exact List.rel_append own rest

end OrphanPiece

namespace OrphanOutputStore

variable {byteLen : Nat → Nat} {store next : OrphanOutputStore} {ledger : OrphanLedger}
  {key : OrphanOutputKey}

structure Holds (store : OrphanOutputStore) (ledger : OrphanLedger) : Prop where
  buffers : ∀ key, store.buffers.lookup key = OrphanPiece.taken (ledger key)
  media : ∀ key, store.storedMedia key = OrphanPiece.shifted 0 (ledger key)
  inside : ∀ key, ∀ piece ∈ ledger key, ∀ item ∈ piece.media, item.Inside piece.bytes

theorem holds_empty (limits : OrphanLimits) : Holds (withMediaLimits limits) fun _ => [] where
  buffers := fun _ => rfl
  media := fun _ => rfl
  inside := by simp

theorem Holds.stored (holds : Holds store ledger) (key : OrphanOutputKey) :
    store.stored key = OrphanPiece.output (ledger key) := by
  rw [OrphanOutputStore.stored, holds.buffers, OrphanPiece.taken_getD]

theorem Holds.without {gone : OrphanOutputKey → Prop} [DecidablePred gone]
    (holds : Holds store ledger) (without : Without gone store next) :
    Holds next fun other => if gone other then [] else ledger other where
  buffers := by
    intro other
    rw [without.buffers]
    by_cases isGone : gone other
    · simp [isGone, OrphanPiece.taken]
    · simp [isGone, holds.buffers]
  media := by
    intro other
    rw [storedMedia, without.media]
    by_cases isGone : gone other
    · simp [isGone, OrphanPiece.shifted]
    · rw [if_neg isGone, if_neg isGone]
      exact holds.media other
  inside := by
    intro other piece member
    by_cases isGone : gone other
    · simp [isGone] at member
    · exact holds.inside other piece (by simpa [isGone] using member)

theorem Holds.grown {bytes : Bytes} {media : List TerminalOutputMedia}
    (holds : Holds store ledger) (grown : Grown key bytes media store next)
    (inside : ∀ item ∈ media, item.Inside bytes) :
    Holds next (Function.update ledger key (ledger key ++ [⟨bytes, media⟩])) where
  buffers := by
    intro other
    rw [grown.buffers, holds.stored]
    by_cases same : other = key
    · subst same
      simp [OrphanPiece.taken, OrphanPiece.output]
    · simp [same, holds.buffers]
  media := by
    intro other
    rw [grown.media, holds.stored, holds.media]
    by_cases same : other = key
    · subst same
      simp [OrphanPiece.shifted_append, OrphanPiece.shifted]
    · simp [same, holds.media]
  inside := by
    intro other piece member
    by_cases same : other = key
    · subst same
      simp only [Function.update_self, List.mem_append, List.mem_singleton] at member
      rcases member with before | rfl
      · exact holds.inside other piece before
      · exact inside
    · rw [Function.update_of_ne same] at member
      exact holds.inside other piece member

theorem update_nil_eq (ledger : OrphanLedger) (key : OrphanOutputKey) :
    Function.update ledger key [] = fun other => if other = key then [] else ledger other := by
  funext other
  rw [Function.update_apply]

/-- One call of a sound store: it does not panic, and it answers what the ledger says. -/
theorem call_spec (sound : Sound byteLen store) (holds : Holds store ledger) {call : OrphanCall}
    (inside : call.Inside) :
    ∃ answer next, store.call byteLen call = some (answer, next) ∧ Sound byteLen next ∧
      next.toOrphanLimits = store.toOrphanLimits ∧ Holds next (ledger.after (call, answer)) ∧
      call.Whole ledger store next answer := by
  cases call with
  | insertMedia key bytes media =>
      rcases insertMedia_spec sound key bytes media with
        ⟨kept, next, inserted, after, refused, nothing, grown⟩
      have called : store.call byteLen (.insertMedia key bytes media) =
          some (.inserted kept, next) := by
        simp [OrphanOutputStore.call, inserted]
      cases kept with
      | false =>
          have same := refused rfl
          subst same
          exact ⟨_, _, called, after, rfl, holds, refused⟩
      | true =>
          by_cases empty : bytes = []
          · have same := nothing rfl empty
            subst same
            refine ⟨_, _, called, after, rfl, ?_, refused⟩
            simpa [OrphanLedger.after, empty] using holds
          · have some : bytes.isEmpty = false := List.isEmpty_eq_false_iff.mpr empty
            refine ⟨_, _, called, after, (grown rfl empty).limits, ?_, refused⟩
            simp only [OrphanLedger.after, some]
            exact holds.grown (grown rfl empty) inside
  | take key =>
      rcases take_spec sound key with ⟨next, took, after, without⟩
      refine ⟨.taken _, next, by simp [OrphanOutputStore.call, took], after, without.limits, ?_,
        holds.buffers key, without⟩
      simp only [OrphanLedger.after, update_nil_eq]
      exact holds.without without
  | takeForGeneration key =>
      rcases takeForGeneration_spec sound key with ⟨next, took, after, without⟩
      exact ⟨.taken _, next, by simp [OrphanOutputStore.call, took], after, without.limits,
        holds.without without, holds.buffers key, without⟩
  | takeOwnedForGeneration key =>
      rcases takeOwnedForGeneration_spec sound key with ⟨next, took, after, without⟩
      refine ⟨.owned _, next, by simp only [OrphanOutputStore.call, took]; rfl, after,
        without.limits, holds.without without, ?_, ?_, without⟩
      · rw [Option.map_map, holds.buffers]
        exact Option.map_id' ..
      · intro bytes media output
        rcases Option.map_eq_some_iff.mp output with ⟨taken, found, pair⟩
        cases pair
        have whole : bytes = OrphanPiece.output (ledger key) := by
          rw [← holds.stored, stored, found]
          rfl
        rw [whole, holds.media]
        exact OrphanPiece.shifted_namesCommand (holds.inside key) []

/-- A run of calls never panics, and leaves the store holding what its ledger says. -/
theorem calls_spec : ∀ {calls : List OrphanCall} {store : OrphanOutputStore}
    {ledger : OrphanLedger}, Sound byteLen store → Holds store ledger →
    (∀ call ∈ calls, call.Inside) →
    ∃ answers next, store.calls byteLen calls = some (answers, next) ∧ Sound byteLen next ∧
      next.toOrphanLimits = store.toOrphanLimits ∧
      Holds next ((calls.zip answers).foldl OrphanLedger.after ledger) := by
  intro calls
  induction calls with
  | nil =>
      intro store ledger sound holds _
      exact ⟨[], store, rfl, sound, rfl, holds⟩
  | cons call calls ih =>
      intro store ledger sound holds inside
      rcases call_spec sound holds (inside call List.mem_cons_self) with
        ⟨answer, middle, called, after, first, kept, _⟩
      rcases ih after kept fun other member => inside other (List.mem_cons_of_mem call member) with
        ⟨answers, next, ran, last, rest, held⟩
      refine ⟨answer :: answers, next, ?_, last, rest.trans first, held⟩
      simp only [OrphanOutputStore.calls, called, ran, Option.bind_eq_bind, Option.bind_some]
      rfl

/-- Orphan output is kept whole or refused whole. After any calls, and after one call more: the
counters are the sums of what is stored and within their limits, nothing panics, a refused insert
changes nothing, and a pane takes exactly what was inserted for it since it was last taken. -/
theorem orphan_output_whole (byteLen : Nat → Nat) (limits : OrphanLimits)
    (calls : List OrphanCall) (call : OrphanCall)
    (inside : ∀ each ∈ calls ++ [call], each.Inside) :
    ∃ answers store answer next,
      (withMediaLimits limits).calls byteLen calls = some (answers, store) ∧
      store.call byteLen call = some (answer, next) ∧
      Sound byteLen store ∧ Sound byteLen next ∧ next.toOrphanLimits = limits ∧
      call.Whole (OrphanLedger.ofCalls (calls.zip answers)) store next answer := by
  rcases calls_spec (empty_sound limits) (holds_empty limits) fun each member =>
    inside each (List.mem_append_left [call] member) with ⟨answers, store, ran, sound, kept, holds⟩
  rcases call_spec sound holds (inside call (by simp)) with
    ⟨answer, next, called, after, still, _, whole⟩
  exact ⟨answers, store, answer, next, ran, called, sound, after, still.trans kept, whole⟩

/-- One image inserted behind plain output, and its generation taken. -/
theorem orphan_output_whole_image :
    ∃ answers store answer next,
      (withMediaLimits {}).calls (fun _ => 4)
        [.insertMedia { pane := 7, generation := 2 } [1, 2] [],
          .insertMedia { pane := 7, generation := 2 } [3, 4, 5]
            [{ commandRange := (1, 3), file := 9 }]] = some (answers, store) ∧
      store.call (fun _ => 4) (.takeOwnedForGeneration { pane := 7, generation := 2 }) =
        some (answer, next) ∧
      Sound (fun _ => 4) store ∧ Sound (fun _ => 4) next ∧ next.toOrphanLimits = {} ∧
      OrphanCall.Whole
        (OrphanLedger.ofCalls (List.zip
          [.insertMedia { pane := 7, generation := 2 } [1, 2] [],
            .insertMedia { pane := 7, generation := 2 } [3, 4, 5]
              [{ commandRange := (1, 3), file := 9 }]] answers))
        store next (.takeOwnedForGeneration { pane := 7, generation := 2 }) answer :=
  orphan_output_whole (fun _ => 4) {} _ _ (by
    simp [OrphanCall.Inside, TerminalOutputMedia.Inside])

example :
    ((withMediaLimits {}).calls (fun _ => 4)
      [.insertMedia { pane := 7, generation := 2 } [1, 2] [],
        .insertMedia { pane := 7, generation := 2 } [3, 4, 5]
          [{ commandRange := (1, 3), file := 9 }],
        .takeOwnedForGeneration { pane := 7, generation := 2 }]).map (·.1) =
      some [.inserted true, .inserted true,
        .owned (some ([1, 2, 3, 4, 5], [{ commandRange := (3, 5), file := 9 }]))] := by
  decide +kernel

end OrphanOutputStore

end Rozi
