import Rozi.Library.Pieces
import Rozi.Session.MediaStream

/-!
What the pipeline prepares, stages and emits. Prepared input stands for the output it is handled
with, and the batches of a staging are its transactions, cut only where they may be.
-/

namespace Rozi

open Pieces

/-- Only an ordered transaction without media is cut, into transactions of the same kind. -/
def TerminalOutputTransaction.pieces : Pieces TerminalOutputTransaction UInt8 where
  divisible := TerminalOutputTransaction.divisible
  text := TerminalOutputTransaction.bytes

namespace PendingMediaOutput

def left (pending : PendingMediaOutput) : List TerminalOutputTransaction :=
  match pending.transactions with
  | [] => []
  | front :: rest =>
      if pending.offset = 0 then front :: rest
      else { outputClass := front.outputClass, bytes := front.bytes.drop pending.offset } :: rest

/-- Only a transaction that may be cut is cut, and not at its end. -/
def Proper (pending : PendingMediaOutput) : Prop :=
  pending.offset = 0 ∨ ∃ front rest, pending.transactions = front :: rest ∧
    front.divisible = true ∧ pending.offset < front.bytes.length

variable {front : TerminalOutputTransaction} {rest : List TerminalOutputTransaction} {offset : Nat}

theorem left_whole (transactions : List TerminalOutputTransaction) :
    left { transactions, offset := 0 } = transactions := by
  cases transactions <;> rfl

theorem left_started (started : offset ≠ 0) :
    left { transactions := front :: rest, offset } =
      { outputClass := front.outputClass, bytes := front.bytes.drop offset } :: rest := if_neg started

theorem divisible_piece (divisible : front.divisible = true) (bytes : Bytes) :
    TerminalOutputTransaction.divisible { outputClass := front.outputClass, bytes } = true := by
  simp only [TerminalOutputTransaction.divisible, Bool.and_eq_true] at divisible ⊢
  exact ⟨divisible.1, rfl⟩

theorem cut_front (divisible : front.divisible = true) {length : Nat} (more : offset + length ≠ 0) :
    Cut TerminalOutputTransaction.pieces (left { transactions := front :: rest, offset })
      ({ outputClass := front.outputClass, bytes := front.bytes.slice offset (offset + length) } ::
        left { transactions := front :: rest, offset := offset + length }) := by
  have text : front.bytes.slice offset (offset + length) ++ front.bytes.drop (offset + length) =
      front.bytes.drop offset := by
    rw [Bytes.slice, Nat.add_sub_cancel_left, ← List.drop_drop, List.take_append_drop]
  have parts : ∀ item : TerminalOutputTransaction, item.divisible = true →
      item.bytes = front.bytes.drop offset →
      Cut TerminalOutputTransaction.pieces (item :: rest)
        ([{ outputClass := front.outputClass, bytes := front.bytes.slice offset (offset + length) },
          { outputClass := front.outputClass, bytes := front.bytes.drop (offset + length) }] ++
          rest) := by
    intro item may bytes
    refine .parts may (by simp) ?_ ?_ (.refl rest)
    · intro part member
      simp only [List.mem_cons, List.not_mem_nil, or_false] at member
      rcases member with rfl | rfl
      · exact divisible_piece divisible _
      · exact divisible_piece divisible _
    · simpa [TerminalOutputTransaction.pieces, bytes] using text
  rw [left_started more]
  by_cases start : offset = 0
  · subst start
    rw [left_whole]
    exact parts front divisible rfl
  · rw [left_started start]
    exact parts _ (divisible_piece divisible _) rfl

/-- A batch with what it leaves is what was there before, cut only where it may be. -/
theorem takeWithin_cut (budget offset : Nat) (transactions : List TerminalOutputTransaction)
    (proper : Proper { transactions, offset }) :
    (takeWithin budget offset transactions).2.Proper ∧
      Cut TerminalOutputTransaction.pieces (left { transactions, offset })
        ((takeWithin budget offset transactions).1 ++
          (takeWithin budget offset transactions).2.left) := by
  induction transactions generalizing budget offset with
  | nil => exact ⟨proper, .refl _⟩
  | cons front rest ih =>
      have fresh : Proper { transactions := rest, offset := 0 } := .inl rfl
      unfold takeWithin
      by_cases spent : budget = 0
      · rw [if_pos spent]
        exact ⟨proper, .refl _⟩
      · rw [if_neg spent]
        simp only
        generalize size : (if front.divisible = true then
          min (front.bytes.length - offset) budget else front.bytes.length - offset) = length
        by_cases whole : offset = 0 ∧ length = front.bytes.length - offset
        · rw [if_pos whole]
          rcases ih (budget - length) 0 fresh with ⟨proper', cut⟩
          refine ⟨proper', ?_⟩
          rw [whole.1, left_whole]
          rw [left_whole] at cut
          exact .whole front cut
        · rw [if_neg whole]
          have divisible : front.divisible = true := by
            by_contra solid
            rw [if_neg solid] at size
            rcases proper with start | ⟨_, _, same, may, _⟩
            · exact whole ⟨start, size.symm⟩
            · cases same
              exact solid may
          rw [if_pos divisible] at size
          have inside : offset ≤ front.bytes.length := by
            rcases proper with start | ⟨_, _, same, _, before⟩
            · exact Nat.le_trans (Nat.le_of_eq start) (Nat.zero_le _)
            · cases same
              exact Nat.le_of_lt before
          have short : length ≤ front.bytes.length - offset := size ▸ Nat.min_le_left _ _
          have more : offset + length ≠ 0 := by
            intro none
            have empty : front.bytes.length = 0 := by omega
            exact whole ⟨by omega, by omega⟩
          by_cases ends : offset + length = front.bytes.length
          · rw [if_pos ends]
            have started : offset ≠ 0 := fun start => whole ⟨start, by omega⟩
            rcases ih (budget - length) 0 fresh with ⟨proper', cut⟩
            refine ⟨proper', ?_⟩
            have all : front.bytes.slice offset (offset + length) = front.bytes.drop offset := by
              rw [Bytes.slice, List.take_of_length_le]
              rw [List.length_drop]
              omega
            rw [left_started started, all]
            rw [left_whole] at cut
            exact .whole _ cut
          · rw [if_neg ends]
            exact ⟨.inr ⟨front, rest, rfl, divisible, by simp only; omega⟩, cut_front divisible more⟩

end PendingMediaOutput

structure Staging where
  key : MediaKey
  staged : List TerminalOutputTransaction
  emitted : List TerminalOutputTransaction := []
  whole : Bool

namespace Staging

/-- The stagings after one more occurrence, the newest first. A batch that continues none of them
stands alone. -/
def note (stagings : List Staging) : Occurrence → List Staging
  | .staged key transactions =>
      { key, staged := transactions, whole := transactions.isEmpty } :: stagings
  | .emitted key batch continuation =>
      let alone : Staging := { key, staged := [], emitted := batch, whole := !continuation }
      match stagings with
      | [] => [alone]
      | last :: older =>
          if last.key = key ∧ last.whole = false then
            { last with emitted := last.emitted ++ batch, whole := !continuation } :: older
          else alone :: last :: older
  | _ => stagings

def all (trace : List Occurrence) : List Staging := trace.foldl note []

/-- The batches are what was staged, cut only where it may be, up to what was never emitted. -/
def Faithful (staging : Staging) : Prop :=
  ∃ rest, Cut TerminalOutputTransaction.pieces staging.staged (staging.emitted ++ rest) ∧
    (staging.whole = true → rest = [])

theorem all_append (trace more : List Occurrence) :
    all (trace ++ more) = more.foldl note (all trace) := List.foldl_append

end Staging

def firstOf (key : MediaKey) (values : List ServerEvent) : Option ServerEvent :=
  values.find? fun event => ServerEvent.lanes.lane event = some key

/-- The first queued event of the stream is output the source is the beginning of. -/
def Waits (key : MediaKey) (source : Bytes) (values : List ServerEvent) : Prop :=
  ∃ bytes, firstOf key values = some (.pty key (.output bytes)) ∧ source <+: bytes

section waits

variable {key : MediaKey} {source : Bytes} {front back tail : List ServerEvent}
  {entry : ServerEvent}

theorem firstOf_apart (apart : ∀ event ∈ front, ServerEvent.lanes.lane event ≠ some key)
    (here : ServerEvent.lanes.lane entry = some key) :
    firstOf key (front ++ entry :: back) = some entry := by
  have none : front.find? (fun event => ServerEvent.lanes.lane event = some key) = none := by
    apply List.find?_eq_none.mpr
    intro event member
    simpa using apart event member
  simp [firstOf, List.find?_append, none, here]

theorem Waits.without (waits : Waits key source (front ++ entry :: back))
    (other : ServerEvent.lanes.lane entry ≠ some key)
    (same : ∀ event ∈ tail, ServerEvent.lanes.lane event ≠ some key) :
    Waits key source (front ++ tail ++ back) := by
  rcases waits with ⟨bytes, found, starts⟩
  refine ⟨bytes, ?_, starts⟩
  have none : tail.find? (fun event => ServerEvent.lanes.lane event = some key) = none := by
    apply List.find?_eq_none.mpr
    intro event member
    simpa using same event member
  rw [← found]
  simp [firstOf, List.find?_append, none, other]

theorem Waits.push (waits : Waits key source front) : Waits key source (front ++ back) := by
  rcases waits with ⟨bytes, found, starts⟩
  refine ⟨bytes, ?_, starts⟩
  unfold firstOf at found ⊢
  simp [List.find?_append, found]

theorem Waits.merge {other : MediaKey} {bytes more : Bytes}
    (waits : Waits key source (front ++ [.pty other (.output bytes)])) :
    Waits key source (front ++ [.pty other (.output (bytes ++ more))]) := by
  rcases waits with ⟨queued, found, starts⟩
  unfold firstOf at found
  rw [List.find?_append] at found
  cases earlier : front.find? (fun event => ServerEvent.lanes.lane event = some key) with
  | some first =>
      rw [earlier] at found
      refine ⟨queued, ?_, starts⟩
      rw [firstOf, List.find?_append, earlier]
      exact found
  | none =>
      rw [earlier] at found
      by_cases same : other = key
      · subst same
        simp only [Option.none_or, List.find?_cons, ServerEvent.lanes, decide_true,
          Option.some.injEq, ServerEvent.pty.injEq, TerminalPtyEvent.output.injEq,
          true_and] at found
        subst found
        refine ⟨bytes ++ more, ?_, starts.trans (List.prefix_append _ _)⟩
        rw [firstOf, List.find?_append, earlier]
        simp [ServerEvent.lanes]
      · simp [ServerEvent.lanes, same] at found

end waits

inductive Stage (pipeline : MediaPipeline) (values : List ServerEvent) :
    List Staging → Prop
  | idle {stagings : List Staging} (inactive : pipeline.active = none)
      (unstaged : pipeline.stageKey = none) (silent : pipeline.output = none)
      (unused : pipeline.sources = []) (faithful : ∀ staging ∈ stagings, staging.Faithful) :
      Stage pipeline values stagings
  | preparing {stagings : List Staging} (key : MediaKey) (source : Bytes)
      (active : pipeline.active = some key) (unstaged : pipeline.stageKey = none)
      (silent : pipeline.output = none) (used : pipeline.sources = [source])
      (waits : Waits key source values) (faithful : ∀ staging ∈ stagings, staging.Faithful) :
      Stage pipeline values stagings
  | staging {stagings : List Staging} (key : MediaKey) (active : pipeline.active = some key)
      (held : pipeline.stageKey = some key) (silent : pipeline.output = none)
      (unused : pipeline.sources = []) (faithful : ∀ staging ∈ stagings, staging.Faithful) :
      Stage pipeline values stagings
  | emitting {last : Staging} {older : List Staging} (key : MediaKey)
      (pending : PendingMediaOutput) (active : pipeline.active = some key)
      (unstaged : pipeline.stageKey = none) (output : pipeline.output = some pending)
      (unused : pipeline.sources = []) (owner : last.key = key) (open' : last.whole = false)
      (proper : pending.Proper)
      (cut : Cut TerminalOutputTransaction.pieces last.staged (last.emitted ++ pending.left))
      (faithful : ∀ staging ∈ older, staging.Faithful) :
      Stage pipeline values (last :: older)

theorem MediaPipeline.keepResult_spec (pipeline : MediaPipeline) (worker : MediaWorker)
    (prepared : TerminalPreparedInput) (relay : GraphicsRelayPolicy) (accepts : Bool)
    (consumes : Consumes) :
    (pipeline.keepResult worker prepared relay accepts consumes).active = pipeline.active ∧
      (pipeline.keepResult worker prepared relay accepts consumes).stageKey = pipeline.stageKey ∧
      (pipeline.keepResult worker prepared relay accepts consumes).output = pipeline.output ∧
      (pipeline.keepResult worker prepared relay accepts consumes).sources.Perm
        (prepared.source :: worker.sources) := by
  unfold keepResult
  split_ifs
  · exact ⟨rfl, rfl, rfl, by simp [sources]⟩
  · refine ⟨rfl, rfl, rfl, ?_⟩
    have back : (worker.sources ++ [prepared.source]).Perm (prepared.source :: worker.sources) :=
      List.perm_append_singleton _ _
    simpa [sources, MediaWorker.sources, TerminalPreparedInput.withRelayPolicy] using back
  · exact ⟨rfl, rfl, rfl, by
      simp [sources, TerminalMediaWork.run, TerminalPreparedInput.withRelayPolicy]⟩

namespace Stage

variable {pipeline : MediaPipeline} {values : List ServerEvent} {stagings : List Staging}

/-- The fence counts are no part of it, nor is where in the worker a job is. -/
theorem of_fields {other : MediaPipeline} (stage : Stage pipeline values stagings)
    (active : other.active = pipeline.active) (stageKey : other.stageKey = pipeline.stageKey)
    (output : other.output = pipeline.output) (moved : other.sources.Perm pipeline.sources) :
    Stage other values stagings := by
  have one : pipeline.sources.length ≤ 1 := by
    cases stage with
    | idle _ _ _ unused => simp [unused]
    | preparing _ _ _ _ _ used => simp [used]
    | staging _ _ _ _ unused => simp [unused]
    | emitting _ _ _ _ _ unused => simp [unused]
  have sources : other.sources = pipeline.sources := by
    rcases list : pipeline.sources with _ | ⟨source, _ | ⟨next, more⟩⟩
    · rw [list] at moved
      exact moved.eq_nil
    · rw [list] at moved
      exact List.perm_singleton.mp moved
    · simp [list] at one
  cases stage with
  | idle inactive unstaged silent unused faithful =>
      exact .idle (active.trans inactive) (stageKey.trans unstaged) (output.trans silent)
        (sources.trans unused) faithful
  | preparing key source shown unstaged silent used waits faithful =>
      exact .preparing key source (active.trans shown) (stageKey.trans unstaged)
        (output.trans silent) (sources.trans used) waits faithful
  | staging key shown held silent unused faithful =>
      exact .staging key (active.trans shown) (stageKey.trans held) (output.trans silent)
        (sources.trans unused) faithful
  | emitting key pending shown unstaged emits unused owner open' proper cut faithful =>
      exact .emitting key pending (active.trans shown) (stageKey.trans unstaged)
        (output.trans emits) (sources.trans unused) owner open' proper cut faithful

theorem of_values {others : List ServerEvent} (stage : Stage pipeline values stagings)
    (kept : ∀ key source, Waits key source values → Waits key source others) :
    Stage pipeline others stagings := by
  cases stage with
  | idle inactive unstaged silent unused faithful =>
      exact .idle inactive unstaged silent unused faithful
  | preparing key source active unstaged silent used waits faithful =>
      exact .preparing key source active unstaged silent used (kept key source waits) faithful
  | staging key active held silent unused faithful =>
      exact .staging key active held silent unused faithful
  | emitting key pending active unstaged output unused owner open' proper cut faithful =>
      exact .emitting key pending active unstaged output unused owner open' proper cut faithful

theorem faithful (stage : Stage pipeline values stagings) :
    ∀ staging ∈ stagings, staging.Faithful := by
  cases stage with
  | idle _ _ _ _ faithful => exact faithful
  | preparing _ _ _ _ _ _ _ faithful => exact faithful
  | staging _ _ _ _ _ faithful => exact faithful
  | emitting key pending _ _ _ _ _ open' _ cut faithful =>
      intro staging member
      rcases List.mem_cons.mp member with rfl | older
      · refine ⟨pending.left, cut, fun closed => ?_⟩
        rw [open'] at closed
        cases closed
      · exact faithful staging older

theorem discardCompleted (stage : Stage pipeline values stagings) (key : MediaKey) :
    Stage (pipeline.discardCompleted key) values stagings := by
  have faithful := stage.faithful
  unfold MediaPipeline.discardCompleted
  split_ifs with done
  · rcases done with ⟨shown, some⟩
    have unused : pipeline.worker.toList.flatMap MediaWorker.sources = [] := by
      cases stage with
      | idle inactive unstaged silent unused => exact (List.append_eq_nil_iff.mp unused).2
      | preparing other source active unstaged silent used waits =>
          rw [silent, unstaged] at some
          have ready : pipeline.ready.isSome = true := by simpa using some
          rcases Option.isSome_iff_exists.mp ready with ⟨prepared, same⟩
          rw [MediaPipeline.sources, same] at used
          simpa using (List.cons.inj used).2
      | staging other active held silent unused => exact (List.append_eq_nil_iff.mp unused).2
      | emitting other pending active unstaged output unused =>
          exact (List.append_eq_nil_iff.mp unused).2
    exact .idle rfl rfl rfl unused faithful
  · exact stage

theorem takeReady (stage : Stage pipeline values stagings) {key : MediaKey}
    {prepared : TerminalPreparedInput} {after : MediaPipeline}
    (taken : pipeline.takeReady key = (some prepared, after)) (others : List ServerEvent) :
    Stage after others stagings := by
  have shown : pipeline.active = some key := by
    by_contra other
    simp [MediaPipeline.takeReady, other] at taken
  rw [MediaPipeline.takeReady, if_neg (not_not.mpr shown)] at taken
  cases ready : pipeline.ready with
  | none => simp [ready] at taken
  | some input =>
      simp only [ready, Prod.mk.injEq] at taken
      rcases taken with ⟨_, rfl⟩
      have one : pipeline.sources.length ≤ 1 := by
        cases stage with
        | idle _ _ _ unused => simp [unused]
        | preparing _ _ _ _ _ used => simp [used]
        | staging _ _ _ _ unused => simp [unused]
        | emitting _ _ _ _ _ unused => simp [unused]
      have silent : pipeline.output = none := by
        cases stage with
        | idle _ _ silent _ => exact silent
        | preparing _ _ _ _ silent _ => exact silent
        | staging _ _ _ silent _ => exact silent
        | emitting _ _ _ _ _ unused => simp [MediaPipeline.sources, ready] at unused
      have unused : pipeline.worker.toList.flatMap MediaWorker.sources = [] := by
        rw [MediaPipeline.sources, ready, List.length_append] at one
        simp only [Option.toList_some, List.map_cons, List.map_nil, List.length_cons] at one
        exact List.eq_nil_of_length_eq_zero (by omega)
      exact .staging key shown rfl silent unused stage.faithful

theorem stageOutput (stage : Stage pipeline values stagings) (key : MediaKey)
    (transactions : List TerminalOutputTransaction) :
    Stage (pipeline.stageOutput key transactions).2 values
      (if (pipeline.stageOutput key transactions).1 then
        Staging.note stagings (.staged key transactions) else stagings) := by
  unfold MediaPipeline.stageOutput
  by_cases held : pipeline.stageKey = some key
  · rw [if_neg (not_not.mpr held)]
    have faithful := stage.faithful
    cases stage with
    | idle _ unstaged => simp [held] at unstaged
    | preparing _ _ _ unstaged => simp [held] at unstaged
    | emitting _ _ _ unstaged => simp [held] at unstaged
    | staging owner active own silent unused =>
        have same : owner = key := Option.some.inj (own.symm.trans held)
        subst same
        cases transactions with
        | nil =>
            refine .idle rfl rfl silent unused ?_
            intro staging member
            rcases List.mem_cons.mp member with rfl | older
            · exact ⟨[], .nil, fun _ => rfl⟩
            · exact faithful staging older
        | cons first rest =>
            exact .emitting owner { transactions := first :: rest } active rfl rfl unused rfl rfl
              (.inl rfl) (.refl _) faithful
  · rw [if_pos held]
    exact stage

theorem outputBatch (stage : Stage pipeline values stagings) {key : MediaKey}
    {batch : List TerminalOutputTransaction} {continuation : Bool} {after : MediaPipeline}
    (emitted : pipeline.outputBatch = some (key, batch, continuation, after)) :
    Stage after values (Staging.note stagings (.emitted key batch continuation)) := by
  unfold MediaPipeline.outputBatch at emitted
  cases stage with
  | idle _ _ silent => simp [silent] at emitted
  | preparing _ _ _ _ silent => simp [silent] at emitted
  | staging _ _ _ silent => simp [silent] at emitted
  | @emitting last older owner pending active unstaged output unused own open' proper cut
      faithful =>
      rcases PendingMediaOutput.takeWithin_cut mediaOutputBytesPerTick pending.offset
        pending.transactions proper with ⟨proper', further⟩
      have total : Cut TerminalOutputTransaction.pieces last.staged
          (last.emitted ++ pending.takeBatch.1 ++ pending.takeBatch.2.left) := by
        rw [List.append_assoc]
        exact cut.trans (Cut.append (.refl _) further)
      rw [output, active] at emitted
      simp only at emitted
      split_ifs at emitted with done
      · simp only [Option.some.injEq, Prod.mk.injEq] at emitted
        rcases emitted with ⟨rfl, rfl, rfl, rfl⟩
        have nothing : pending.takeBatch.2.left = [] := by
          rw [PendingMediaOutput.left, List.isEmpty_iff.mp done]
        rw [nothing] at total
        simp only [Staging.note, own, open', and_self, if_true]
        refine .idle rfl unstaged rfl unused ?_
        intro staging member
        rcases List.mem_cons.mp member with rfl | before
        · exact ⟨[], total, fun _ => rfl⟩
        · exact faithful staging before
      · simp only [Option.some.injEq, Prod.mk.injEq] at emitted
        rcases emitted with ⟨rfl, rfl, rfl, rfl⟩
        simp only [Staging.note, own, open', and_self, if_true]
        exact .emitting owner _ rfl unstaged rfl unused rfl rfl proper' total faithful

theorem poll (stage : Stage pipeline values stagings) (relay : GraphicsRelayPolicy)
    (accepts : Bool) (consumes : Consumes) :
    Stage (pipeline.poll relay accepts consumes) values stagings := by
  have kept : ∀ worker prepared, (prepared.source :: worker.sources).Perm pipeline.sources →
      Stage (pipeline.keepResult worker prepared relay accepts consumes) values stagings := by
    intro worker prepared moved
    rcases pipeline.keepResult_spec worker prepared relay accepts consumes with
      ⟨active, stageKey, output, sources⟩
    exact stage.of_fields active stageKey output (sources.trans moved)
  unfold MediaPipeline.poll
  split_ifs with busy
  · exact stage
  · cases running : pipeline.worker with
    | none => exact stage
    | some worker =>
        cases ready : pipeline.ready with
        | some prepared =>
            exact kept worker prepared (by simp [MediaPipeline.sources, ready, running])
        | none =>
            cases completed : worker.completed with
            | nil =>
                simp only [completed]
                exact stage
            | cons prepared rest =>
                simp only [completed]
                apply kept
                simp [MediaPipeline.sources, MediaWorker.sources, ready, running, completed]

theorem finishJob (stage : Stage pipeline values stagings) (consumes : Consumes) :
    Stage { pipeline with worker := pipeline.worker.map fun worker => worker.finishJob consumes }
      values stagings := by
  have same : ∀ worker : MediaWorker, (worker.finishJob consumes).sources = worker.sources := by
    intro worker
    unfold MediaWorker.finishJob
    split
    · rename_i work jobs queued empty
      simp [MediaWorker.sources, queued, empty, TerminalMediaWork.run]
    · rfl
  refine stage.of_fields ?_ ?_ ?_ ?_
  · rfl
  · rfl
  · rfl
  · cases running : pipeline.worker with
    | none => simp [MediaPipeline.sources, running]
    | some worker => simp [MediaPipeline.sources, running, same worker]

end Stage

end Rozi
