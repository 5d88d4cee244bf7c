import Mathlib.Data.List.Dedup
import Rozi.Session.SeedPump

/-!
What a push can do to a connection. The loops that shed panes until a frame fits are unfolded here
once; everything proved about pushes goes through the outcomes.
-/

namespace Rozi

open ReplacementQueue QueueBytes

namespace ConnOutbox

variable {ω : Type} {conn : ConnOutbox ω}

section largest

theorem heavier_mem (candidates : List (PaneSeedKey × Nat)) (best : Option (PaneSeedKey × Nat))
    {chosen : PaneSeedKey × Nat} (found : candidates.foldl heavier best = some chosen) :
    chosen ∈ candidates ∨ best = some chosen := by
  induction candidates generalizing best with
  | nil => exact .inr found
  | cons head rest ih =>
      rw [List.foldl_cons] at found
      rcases ih (heavier best head) found with later | now
      · exact .inl (List.mem_cons_of_mem head later)
      · unfold heavier at now
        cases best with
        | none => exact .inl (List.mem_cons.mpr (.inl (Option.some.inj now).symm))
        | some old =>
            simp only at now
            split at now
            · exact .inl (List.mem_cons.mpr (.inl (Option.some.inj now).symm))
            · exact .inr now

theorem positive_of_bytesWhere {tagged : List (PaneSeedKey × Nat)} {key : PaneSeedKey}
    (weighs : 0 < bytesWhere Prod.snd (fun entry => entry.1 == key) tagged) :
    ∃ bytes, (key, bytes) ∈ tagged ∧ 0 < bytes := by
  induction tagged with
  | nil => simp at weighs
  | cons head rest ih =>
      rw [bytesWhere_cons] at weighs
      by_cases own : (head.1 == key) = true ∧ 0 < head.2
      · refine ⟨head.2, ?_, own.2⟩
        have named : head.1 = key := by simpa using own.1
        simp [← named]
      · have behind : 0 < bytesWhere Prod.snd (fun entry => entry.1 == key) rest := by
          by_cases named : (head.1 == key) = true
          · have empty : head.2 = 0 := by
              have notPositive : ¬ 0 < head.2 := fun positive => own ⟨named, positive⟩
              omega
            rw [if_pos named, empty] at weighs
            omega
          · rw [if_neg named] at weighs
            omega
        rcases ih behind with ⟨bytes, member, positive⟩
        exact ⟨bytes, List.mem_cons_of_mem head member, positive⟩

/-- The pane chosen for a shed is sheddable and one of the frames that were weighed is its own. -/
theorem largestSheddable_spec {tagged : List (PaneSeedKey × Nat)} {key : PaneSeedKey}
    (found : conn.largestSheddable tagged = some key) :
    conn.paneIsSheddable key = true ∧ ∃ bytes, (key, bytes) ∈ tagged ∧ 0 < bytes := by
  unfold largestSheddable at found
  rcases Option.map_eq_some_iff.mp found with ⟨chosen, best, named⟩
  rcases heavier_mem _ none best with member | absent
  · have passed := List.mem_filter.mp member
    rcases List.mem_map.mp passed.1 with ⟨own, _, rfl⟩
    have tests := passed.2
    simp only [Bool.and_eq_true, decide_eq_true_eq] at tests
    subst named
    exact ⟨tests.2, positive_of_bytesWhere tests.1⟩
  · cases absent

theorem heavier_ne_none (best : Option (PaneSeedKey × Nat)) (candidate : PaneSeedKey × Nat) :
    heavier best candidate ≠ none := by
  unfold heavier
  cases best with
  | none => exact Option.some_ne_none candidate
  | some chosen =>
      simp only
      split_ifs
      · exact Option.some_ne_none candidate
      · exact Option.some_ne_none chosen

theorem foldl_heavier_ne_none (candidates : List (PaneSeedKey × Nat))
    (best : Option (PaneSeedKey × Nat)) (some : best ≠ none ∨ candidates ≠ []) :
    candidates.foldl heavier best ≠ none := by
  induction candidates generalizing best with
  | nil => exact some.resolve_right fun empty => empty rfl
  | cons head rest ih => exact ih (heavier best head) (.inl (heavier_ne_none best head))

theorem largestSheddable_ne_none {tagged : List (PaneSeedKey × Nat)} {key : PaneSeedKey}
    {bytes : Nat} (member : (key, bytes) ∈ tagged) (positive : 0 < bytes)
    (sheddable : conn.paneIsSheddable key = true) : conn.largestSheddable tagged ≠ none := by
  unfold largestSheddable
  simp only [ne_eq, Option.map_eq_none_iff]
  apply foldl_heavier_ne_none
  right
  apply List.ne_nil_of_mem (a := (key, bytesWhere Prod.snd (fun entry => entry.1 == key) tagged))
  apply List.mem_filter.mpr
  constructor
  · apply List.mem_map.mpr
    exact ⟨key, List.mem_dedup.mpr (List.mem_map.mpr ⟨_, member, rfl⟩), rfl⟩
  · rcases List.mem_iff_getElem?.mp member with ⟨position, present⟩
    have counted := size_le_bytesWhere Prod.snd (fun entry => entry.1 == key) present (by simp)
    simp only [Bool.and_eq_true, decide_eq_true_eq]
    exact ⟨positive.trans_le counted, sheddable⟩

end largest

section shed

theorem pinned_append_sheddable (conn : ConnOutbox ω) :
    conn.pinnedOutbox ++ conn.sheddableOutbox = conn.outbox :=
  List.take_append_drop _ _

@[simp] theorem shedPane_outbox (conn : ConnOutbox ω) (key : PaneSeedKey) :
    (conn.shedPane key).outbox =
      conn.pinnedOutbox ++ conn.sheddableOutbox.filter (conn.survivesPurge key) := by
  unfold shedPane
  simp only
  split <;> rfl

@[simp] theorem shedPane_transportClosed (conn : ConnOutbox ω) (key : PaneSeedKey) :
    (conn.shedPane key).transportClosed = conn.transportClosed := by
  unfold shedPane
  simp only
  split <;> rfl

theorem barrier_eq_some {seed : AttachSeedState ω} :
    conn.barrier = some seed ↔ conn.seed = some seed ∧ seed.baselineQueued = false := by
  unfold barrier
  rw [Option.filter_eq_some_iff]
  simp

theorem shedPane_live (key : PaneSeedKey) (down : conn.barrier = none) :
    conn.shedPane key = { (conn.purgeOutboxPane key).1 with
      shedBytes := conn.shedBytes + (conn.purgeOutboxPane key).2
      resyncPending := conn.resyncPending.insert key } := by
  have same : (ConnOutbox.barrier { (conn.purgeOutboxPane key).1 with
      shedBytes := (conn.purgeOutboxPane key).1.shedBytes + (conn.purgeOutboxPane key).2 }) =
      conn.barrier := rfl
  unfold shedPane
  simp only [same, down]
  rfl

theorem shedPane_behind (key : PaneSeedKey) {seed : AttachSeedState ω}
    (up : conn.barrier = some seed) :
    conn.shedPane key = { (conn.purgeOutboxPane key).1 with
      seed := some (purgeCatchUpPane seed key).1
      panicked := (conn.purgeOutboxPane key).1.panicked ||
        decide (seed.catchUpBytes < (purgeCatchUpPane seed key).2)
      requeuedPanes := if seed.manifest key != some .pending && !seed.outdated.contains key then
        conn.requeuedPanes + 1 else conn.requeuedPanes
      shedBytes := conn.shedBytes + (conn.purgeOutboxPane key).2 +
        (purgeCatchUpPane seed key).2 } := by
  have same : (ConnOutbox.barrier { (conn.purgeOutboxPane key).1 with
      shedBytes := (conn.purgeOutboxPane key).1.shedBytes + (conn.purgeOutboxPane key).2 }) =
      conn.barrier := rfl
  unfold shedPane
  simp only [same, up]
  rfl

theorem shedPane_seed (key : PaneSeedKey) {seed : AttachSeedState ω}
    (up : conn.barrier = some seed) :
    (conn.shedPane key).seed = some (purgeCatchUpPane seed key).1 := by
  rw [shedPane_behind key up]

theorem mem_shedPane_resyncPending {key waiting : PaneSeedKey}
    (member : waiting ∈ (conn.shedPane key).resyncPending) :
    waiting = key ∨ waiting ∈ conn.resyncPending := by
  cases up : conn.barrier with
  | none =>
      rw [shedPane_live key up] at member
      exact List.mem_insert_iff.mp member
  | some seed =>
      rw [shedPane_behind key up] at member
      exact .inr member

theorem shedPane_barrier (key : PaneSeedKey) {seed : AttachSeedState ω}
    (up : conn.barrier = some seed) :
    (conn.shedPane key).barrier = some (purgeCatchUpPane seed key).1 := by
  apply barrier_eq_some.mpr
  exact ⟨shedPane_seed key up, (barrier_eq_some.mp up).2⟩

theorem outbox_length (conn : ConnOutbox ω) :
    conn.outbox.length = conn.pinnedOutbox.length + conn.sheddableOutbox.length := by
  rw [← List.length_append, pinned_append_sheddable]

theorem shedPane_outbox_length_le (conn : ConnOutbox ω) (key : PaneSeedKey) :
    (conn.shedPane key).outbox.length ≤ conn.outbox.length := by
  have shorter := List.length_filter_le (conn.survivesPurge key) conn.sheddableOutbox
  rw [shedPane_outbox, List.length_append, outbox_length]
  omega

/-- A shed of a pane with a frame that does not survive it shortens the outbox. -/
theorem shedPane_outbox_length_lt (key : PaneSeedKey) {frame : OutboxFrame ω}
    (present : frame ∈ conn.sheddableOutbox) (dropped : conn.survivesPurge key frame = false) :
    (conn.shedPane key).outbox.length < conn.outbox.length := by
  have shorter : (conn.sheddableOutbox.filter (conn.survivesPurge key)).length <
      conn.sheddableOutbox.length := by
    apply List.length_filter_lt_length_iff_exists.mpr
    exact ⟨frame, present, by simp [dropped]⟩
  rw [shedPane_outbox, List.length_append, outbox_length]
  omega

theorem largestOutboxPane_shortens {key : PaneSeedKey}
    (victim : conn.largestOutboxPane = some key) :
    (conn.shedPane key).outbox.length < conn.outbox.length := by
  have spec := largestSheddable_spec victim
  rcases spec.2 with ⟨bytes, tagged, _⟩
  rcases List.mem_filterMap.mp tagged with ⟨frame, present, tag⟩
  apply shedPane_outbox_length_lt key present
  cases own : frame.pane with
  | none => simp [own] at tag
  | some pane =>
      rw [own] at tag
      simp only at tag
      split at tag
      · cases tag
      · rename_i counted
        have named : pane = key := congrArg Prod.fst (Option.some.inj tag)
        simp only [survivesPurge, own, named, bne_self_eq_false, Bool.false_or]
        simpa using counted

theorem largestCatchUpPane_shortens {key : PaneSeedKey} {seed : AttachSeedState ω}
    (up : conn.barrier = some seed) (victim : conn.largestCatchUpPane = some key) :
    (purgeCatchUpPane seed key).1.catchUp.length + (conn.shedPane key).outbox.length <
      seed.catchUp.length + conn.outbox.length := by
  have present := (barrier_eq_some.mp up).1
  unfold largestCatchUpPane at victim
  rw [present] at victim
  simp only at victim
  have spec := largestSheddable_spec victim
  rcases spec.2 with ⟨bytes, tagged, _⟩
  have catchUpLe : (purgeCatchUpPane seed key).1.catchUp.length ≤ seed.catchUp.length :=
    List.length_filter_le _ _
  have outboxLe := shedPane_outbox_length_le conn key
  rcases List.mem_append.mp tagged with waiting | queued
  · rcases List.mem_filterMap.mp waiting with ⟨frame, member, tag⟩
    rcases Option.map_eq_some_iff.mp tag with ⟨pane, own, pair⟩
    have named : pane = key := congrArg Prod.fst pair
    have catchUpLt : (purgeCatchUpPane seed key).1.catchUp.length < seed.catchUp.length := by
      apply List.length_filter_lt_length_iff_exists.mpr
      exact ⟨frame, member, by simp [own, named]⟩
    omega
  · rcases List.mem_filterMap.mp queued with ⟨frame, member, tag⟩
    split at tag
    · rename_i late
      rcases Option.map_eq_some_iff.mp tag with ⟨pane, own, pair⟩
      have named : pane = key := congrArg Prod.fst pair
      have outboxLt := shedPane_outbox_length_lt key member
        (by simp [survivesPurge, own, named, late])
      omega
    · cases tag

inductive Sheds : ConnOutbox ω → ConnOutbox ω → Prop
  | refl (conn : ConnOutbox ω) : Sheds conn conn
  | shed {conn last : ConnOutbox ω} (key : PaneSeedKey)
      (sheddable : conn.paneIsSheddable key = true) (rest : Sheds (conn.shedPane key) last) :
      Sheds conn last

theorem Sheds.induct {inv : ConnOutbox ω → Prop} {last : ConnOutbox ω} (sheds : Sheds conn last)
    (step : ∀ conn key, inv conn → conn.paneIsSheddable key = true → inv (conn.shedPane key))
    (start : inv conn) : inv last := by
  induction sheds with
  | refl => exact start
  | shed key sheddable _ ih => exact ih (step _ key start sheddable)

theorem Sheds.snoc {last : ConnOutbox ω} (sheds : Sheds conn last) {key : PaneSeedKey}
    (sheddable : last.paneIsSheddable key = true) : Sheds conn (last.shedPane key) := by
  induction sheds with
  | refl => exact .shed key sheddable (.refl _)
  | shed first now _ ih => exact .shed first now (ih sheddable)

end shed

section enqueue

def enqueued (conn : ConnOutbox ω) (bytes : EncodedOutput ω) (frameClass : OutboxClass)
    (pane : Option PaneSeedKey) (replacement : Option ReplacementKey) : ConnOutbox ω :=
  { conn.charge frameClass bytes.len with
    outbox := conn.outbox ++ [{ bytes, frameClass, pane, replacement }]
    outboxReplacements := match replacement with
      | some key => insertKey conn.outboxReplacements key (conn.outboxBase + conn.outbox.length)
      | none => conn.outboxReplacements }

def replacedAt (conn : ConnOutbox ω) (position : Nat) (frame : OutboxFrame ω)
    (bytes : EncodedOutput ω) : ConnOutbox ω :=
  let previous := frame.bytes.len
  let freed := conn.release previous (classShare .seedReplay frame.frameClass previous)
    (classShare .seedCatchUp frame.frameClass previous)
  { freed.charge frame.frameClass bytes.len with
    outbox := conn.outbox.set position { frame with bytes }
    coalescedFrames := conn.coalescedFrames + 1
    coalescedBytes := conn.coalescedBytes + previous
    coalesced := conn.coalesced ++ [(frame.bytes.content, bytes.content)] }

variable {bytes : EncodedOutput ω} {cap : Nat} {frameClass : OutboxClass}
  {pane : Option PaneSeedKey} {pushed : ConnOutbox ω}

theorem tryPushClass_some (opened : conn.transportClosed = false)
    (fits : conn.tryPushClass bytes cap frameClass pane = some pushed) :
    conn.outboxBytes + bytes.len ≤ cap ∧ pushed = conn.enqueued bytes frameClass pane none := by
  unfold tryPushClass at fits
  rw [opened, if_neg (by simp)] at fits
  split at fits
  · cases fits
  · rename_i room
    exact ⟨by omega, (Option.some.inj fits).symm⟩

theorem indexOutboxBack_enqueued (conn : ConnOutbox ω) (bytes : EncodedOutput ω)
    (frameClass : OutboxClass) (pane : Option PaneSeedKey) (replacement : Option ReplacementKey) :
    (conn.enqueued bytes frameClass pane none).indexOutboxBack replacement =
      conn.enqueued bytes frameClass pane replacement := by
  cases replacement with
  | none => rfl
  | some key =>
      have position : conn.outboxBase + (conn.outbox.length + 1) - 1 =
          conn.outboxBase + conn.outbox.length := by omega
      have inside : decide (conn.outboxBase + (conn.outbox.length + 1) < 1) = false := by
        rw [decide_eq_false_iff_not]
        omega
      simp only [indexOutboxBack, enqueued, charge, List.length_append, List.length_singleton,
        List.getLast?_concat, List.dropLast_concat, position, inside, Bool.or_false]

/-- What a replacement in the outbox can be: the last frame of its key, never a started one. -/
theorem replaceOutbox_some {replacement : Option ReplacementKey} {next : ConnOutbox ω}
    (indexed : IndexSound OutboxFrame.replacement conn.outboxBase conn.outbox
      conn.outboxReplacements)
    (found : conn.replaceOutbox bytes replacement cap = some next) :
    ∃ key position frame, replacement = some key ∧ conn.outbox[position]? = some frame ∧
      frame.replacement = some key ∧
      (∀ later item, position < later → conn.outbox[later]? = some item →
        item.replacement ≠ some key) ∧
      (position ≠ 0 ∨ conn.frontStarted = false) ∧
      conn.outboxBytes - frame.bytes.len + bytes.len ≤ cap ∧
      next = conn.replacedAt position frame bytes := by
  unfold replaceOutbox at found
  cases entry : replacement.bind conn.outboxReplacements with
  | none => simp [entry] at found
  | some absolute =>
      rcases Option.bind_eq_some_iff.mp entry with ⟨key, keyed, points⟩
      rcases indexed.lookup points with ⟨behindBase, ⟨frame, present, own⟩, last⟩
      simp only [entry, present] at found
      rw [if_neg (by omega)] at found
      split_ifs at found with started tight
      refine ⟨key, absolute - conn.outboxBase, frame, keyed, present, own, last, ?_, by omega,
        (Option.some.inj found).symm⟩
      by_cases front : absolute - conn.outboxBase = 0
      · right
        simpa [front] using started
      · exact .inl front

end enqueue

section live

inductive LiveOutcome (conn : ConnOutbox ω) (bytes : EncodedOutput ω) (delta : SeedDelta)
    (cap : Nat) (replacement : Option ReplacementKey) :
    ConnOutbox ω × ClientFrameResult → Prop
  | behind {key : PaneSeedKey} (own : delta.outputPane = some key)
      (waiting : key ∈ conn.resyncPending) :
      LiveOutcome conn bytes delta cap replacement (conn.ignoring bytes)
  | replaced {next : ConnOutbox ω}
      (found : conn.replaceOutbox bytes replacement cap = some next) :
      LiveOutcome conn bytes delta cap replacement (next, .queued)
  | queued {last : ConnOutbox ω} (sheds : Sheds conn last)
      (clear : ∀ key, delta.outputPane = some key → key ∉ last.resyncPending)
      (room : last.outboxBytes + bytes.len ≤ cap) :
      LiveOutcome conn bytes delta cap replacement
        (last.enqueued bytes .normal delta.outputPane replacement, .queued)
  | starved {last : ConnOutbox ω} {key : PaneSeedKey} (sheds : Sheds conn last)
      (own : delta.outputPane = some key) (bare : last.largestOutboxPane = none) :
      LiveOutcome conn bytes delta cap replacement
        ({ last with resyncPending := last.resyncPending.insert key }.ignoring bytes)
  | shedSelf {last : ConnOutbox ω} {key : PaneSeedKey} (sheds : Sheds conn last)
      (sheddable : last.paneIsSheddable key = true) (own : delta.outputPane = some key) :
      LiveOutcome conn bytes delta cap replacement ((last.shedPane key).ignoring bytes)
  | overflowed {last : ConnOutbox ω} (sheds : Sheds conn last) (reason : String) :
      LiveOutcome conn bytes delta cap replacement (last.overflowing reason)

theorem tryPushClass_of_fits (opened : conn.transportClosed = false) {bytes : EncodedOutput ω}
    {cap : Nat} (fits : conn.outboxBytes + bytes.len ≤ cap) (frameClass : OutboxClass)
    (pane : Option PaneSeedKey) :
    ∃ pushed, conn.tryPushClass bytes cap frameClass pane = some pushed := by
  unfold tryPushClass
  rw [opened, if_neg (by simp), if_neg (by omega)]
  exact ⟨_, rfl⟩

theorem pushLiveLoop_outcome (bytes : EncodedOutput ω) (delta : SeedDelta) (cap : Nat)
    (replacement : Option ReplacementKey) (fuel : Nat) {origin conn : ConnOutbox ω}
    (opened : conn.transportClosed = false) (enough : conn.outbox.length < fuel)
    (sheds : Sheds origin conn)
    (clear : ∀ key, delta.outputPane = some key → key ∉ conn.resyncPending) :
    LiveOutcome origin bytes delta cap replacement
      (pushLiveLoop bytes delta cap replacement fuel conn) := by
  induction fuel generalizing conn with
  | zero => omega
  | succ fuel ih =>
      unfold pushLiveLoop
      by_cases fits : conn.outboxBytes + bytes.len ≤ cap
      · rw [if_pos fits]
        rcases tryPushClass_of_fits opened fits .normal delta.outputPane with ⟨pushed, accepted⟩
        simp only [accepted]
        rw [(tryPushClass_some opened accepted).2, indexOutboxBack_enqueued]
        exact .queued sheds clear fits
      · rw [if_neg fits]
        cases chosen : conn.largestOutboxPane with
        | none =>
            cases own : delta.outputPane with
            | none => exact .overflowed sheds _
            | some key => exact .starved sheds own chosen
        | some victim =>
            have sheddable := (largestSheddable_spec chosen).1
            have shorter := largestOutboxPane_shortens chosen
            simp only
            by_cases own : delta.outputPane = some victim
            · rw [if_pos own]
              exact .shedSelf sheds sheddable own
            · rw [if_neg own]
              apply ih
              · rw [shedPane_transportClosed, opened]
              · omega
              · exact sheds.snoc sheddable
              · intro key output waiting
                rcases mem_shedPane_resyncPending waiting with same | before
                · exact own (same ▸ output)
                · exact clear key output before

theorem pushLive_outcome (opened : conn.transportClosed = false) (bytes : EncodedOutput ω)
    (delta : SeedDelta) (cap : Nat) (replacement : Option ReplacementKey) :
    LiveOutcome conn bytes delta cap replacement
      (conn.pushLive bytes delta cap replacement) := by
  unfold pushLive
  by_cases waiting : delta.outputPane.any conn.resyncPending.contains = true
  · rw [if_pos waiting]
    cases own : delta.outputPane with
    | none => simp [own] at waiting
    | some key => exact .behind own (by simpa [own] using waiting)
  · rw [if_neg waiting]
    cases found : conn.replaceOutbox bytes replacement cap with
    | some next => exact .replaced found
    | none =>
        apply pushLiveLoop_outcome bytes delta cap replacement _ opened (Nat.lt_succ_self _)
          (.refl conn)
        intro key own behind
        exact waiting (by simpa [own] using behind)

end live

section catchUp

/-- The frame at `position` of the catch-up queue gives its place to another. -/
def replacedCatchUp (conn : ConnOutbox ω) (seed : AttachSeedState ω) (position : Nat)
    (old new : CatchUpFrame ω) : ConnOutbox ω :=
  { conn with
    seed := some { seed with
      catchUp := seed.catchUp.set position new
      catchUpBytes := seed.catchUpBytes - old.bytes.len + new.bytes.len }
    panicked := conn.panicked || decide (seed.catchUpBytes < old.bytes.len)
    coalescedFrames := conn.coalescedFrames + 1
    coalescedBytes := conn.coalescedBytes + old.bytes.len
    coalesced := conn.coalesced ++ [(old.bytes.content, new.bytes.content)] }

theorem replaceCatchUp_some {seed : AttachSeedState ω} {bytes : EncodedOutput ω}
    {delta : SeedDelta} {replacement : Option ReplacementKey} {next : ConnOutbox ω}
    (indexed : IndexSound CatchUpFrame.replacement seed.catchUpBase seed.catchUp
      seed.catchUpReplacements)
    (found : conn.replaceCatchUp seed bytes delta replacement = some next) :
    ∃ key position frame, replacement = some key ∧ seed.catchUp[position]? = some frame ∧
      frame.replacement = some key ∧
      (∀ later item, position < later → seed.catchUp[later]? = some item →
        item.replacement ≠ some key) ∧
      next = conn.replacedCatchUp seed position frame { replacement, bytes, delta } := by
  unfold replaceCatchUp at found
  cases entry : replacement.bind seed.catchUpReplacements with
  | none => simp [entry] at found
  | some absolute =>
      rcases Option.bind_eq_some_iff.mp entry with ⟨key, keyed, points⟩
      rcases indexed.lookup points with ⟨behindBase, ⟨frame, present, own⟩, last⟩
      simp only [entry, present] at found
      rw [if_neg (by omega)] at found
      split_ifs at found with tight
      exact ⟨key, absolute - seed.catchUpBase, frame, keyed, present, own, last,
        (Option.some.inj found).symm⟩

inductive CatchUpOutcome (conn : ConnOutbox ω) (bytes : EncodedOutput ω) (delta : SeedDelta)
    (replacement : Option ReplacementKey) : ConnOutbox ω × ClientFrameResult → Prop
  | outdated {last : ConnOutbox ω} {seed : AttachSeedState ω} {key : PaneSeedKey}
      (sheds : Sheds conn last) (up : last.barrier = some seed) (own : delta.pane = some key)
      (behind : key ∈ seed.outdated) :
      CatchUpOutcome conn bytes delta replacement (last.ignoring bytes)
  | replaced {last next : ConnOutbox ω} {seed : AttachSeedState ω} (sheds : Sheds conn last)
      (up : last.barrier = some seed)
      (clear : ∀ key, delta.pane = some key → key ∉ seed.outdated)
      (found : last.replaceCatchUp seed bytes delta replacement = some next) :
      CatchUpOutcome conn bytes delta replacement (next, .buffered)
  | buffered {last : ConnOutbox ω} {seed : AttachSeedState ω} (sheds : Sheds conn last)
      (up : last.barrier = some seed)
      (clear : ∀ key, delta.pane = some key → key ∉ seed.outdated)
      (fits : seed.catchUpBytes + last.seedCatchUpQueuedBytes + bytes.len ≤ seedCatchUpLimit) :
      CatchUpOutcome conn bytes delta replacement
        (last.appendCatchUp seed bytes delta replacement, .buffered)
  | shedSelf {last : ConnOutbox ω} {key : PaneSeedKey} (sheds : Sheds conn last)
      (sheddable : last.paneIsSheddable key = true) (own : delta.pane = some key) :
      CatchUpOutcome conn bytes delta replacement ((last.shedPane key).ignoring bytes)
  | overflowed {last : ConnOutbox ω} (sheds : Sheds conn last) (reason : String) :
      CatchUpOutcome conn bytes delta replacement (last.overflowing reason)

theorem pushCatchUpLoop_outcome (bytes : EncodedOutput ω) (delta : SeedDelta)
    (replacement : Option ReplacementKey) (fuel : Nat) {origin conn : ConnOutbox ω}
    {seed : AttachSeedState ω} (up : conn.barrier = some seed)
    (enough : seed.catchUp.length + conn.outbox.length < fuel) (sheds : Sheds origin conn) :
    CatchUpOutcome origin bytes delta replacement
      (pushCatchUpLoop bytes delta replacement fuel conn) := by
  induction fuel generalizing conn seed with
  | zero => omega
  | succ fuel ih =>
      unfold pushCatchUpLoop
      simp only [(barrier_eq_some.mp up).1]
      by_cases behind : delta.pane.any seed.outdated.contains = true
      · rw [if_pos behind]
        cases own : delta.pane with
        | none => simp [own] at behind
        | some key => exact .outdated sheds up own (by simpa [own] using behind)
      · have clear : ∀ key, delta.pane = some key → key ∉ seed.outdated :=
          fun key own member => behind (by simpa [own] using member)
        rw [if_neg behind]
        cases found : conn.replaceCatchUp seed bytes delta replacement with
        | some next => exact .replaced sheds up clear found
        | none =>
            simp only
            by_cases fits : seed.catchUpBytes + conn.seedCatchUpQueuedBytes + bytes.len ≤
                seedCatchUpLimit
            · rw [if_pos fits]
              exact .buffered sheds up clear fits
            · rw [if_neg fits]
              cases chosen : conn.largestCatchUpPane with
              | some victim =>
                  have present := (barrier_eq_some.mp up).1
                  have sheddable : conn.paneIsSheddable victim = true := by
                    unfold largestCatchUpPane at chosen
                    rw [present] at chosen
                    exact (largestSheddable_spec chosen).1
                  have shorter := largestCatchUpPane_shortens up chosen
                  simp only [Option.some_or]
                  by_cases own : delta.pane = some victim
                  · rw [if_pos own]
                    exact .shedSelf sheds sheddable own
                  · rw [if_neg own]
                    apply ih (shedPane_barrier victim up)
                    · omega
                    · exact sheds.snoc sheddable
              | none =>
                  simp only [Option.none_or]
                  cases self : delta.pane.filter conn.paneIsSheddable with
                  | none => exact .overflowed sheds _
                  | some key =>
                      rcases Option.filter_eq_some_iff.mp self with ⟨own, sheddable⟩
                      simp only
                      rw [if_pos own]
                      exact .shedSelf sheds sheddable own

theorem pushCatchUp_outcome {seed : AttachSeedState ω} (up : conn.barrier = some seed)
    (bytes : EncodedOutput ω) (delta : SeedDelta) (replacement : Option ReplacementKey) :
    CatchUpOutcome conn bytes delta replacement (conn.pushCatchUp bytes delta replacement) := by
  unfold pushCatchUp
  rw [(barrier_eq_some.mp up).1]
  exact pushCatchUpLoop_outcome bytes delta replacement _ up (Nat.lt_succ_self _) (.refl conn)

end catchUp

inductive PushOutcome (conn : ConnOutbox ω) (bytes : EncodedOutput ω) (delta : SeedDelta)
    (cap : Nat) (replacement : Option ReplacementKey) :
    ConnOutbox ω × ClientFrameResult → Prop
  | precedes {seed : AttachSeedState ω} {key : PaneSeedKey} (up : conn.barrier = some seed)
      (own : delta = .paneOutput key) (waiting : seed.manifest key = some .pending) :
      PushOutcome conn bytes delta cap replacement (conn, .ignored)
  | live {result : ConnOutbox ω × ClientFrameResult}
      (routed : conn.barrier = none ∨ ∃ seed key, conn.barrier = some seed ∧
        delta = .paneResize key ∧ seed.manifest key = some .pending)
      (outcome : LiveOutcome conn bytes delta cap replacement result) :
      PushOutcome conn bytes delta cap replacement result
  | late {seed : AttachSeedState ω} {result : ConnOutbox ω × ClientFrameResult}
      (up : conn.barrier = some seed)
      (exported : ∀ key, delta.pane = some key → seed.manifest key ≠ some .pending)
      (outcome : CatchUpOutcome conn bytes delta replacement result) :
      PushOutcome conn bytes delta cap replacement result

theorem pushDeltaInner_outcome (opened : conn.transportClosed = false) (bytes : EncodedOutput ω)
    (delta : SeedDelta) (cap : Nat) (replacement : Option ReplacementKey) :
    PushOutcome conn bytes delta cap replacement
      (conn.pushDeltaInner bytes delta cap replacement) := by
  unfold pushDeltaInner
  rw [opened, if_neg (by simp)]
  cases up : conn.barrier with
  | none => exact .live (.inl up) (pushLive_outcome opened bytes delta cap replacement)
  | some seed =>
      have late := pushCatchUp_outcome up bytes delta replacement
      cases delta with
      | control => exact .late up (by simp [SeedDelta.pane]) late
      | paneOutput key =>
          simp only [AttachSeedState.outputPrecedesSnapshot]
          by_cases waiting : seed.manifest key = some .pending
          · simp only [waiting, beq_self_eq_true, if_true]
            exact .precedes up rfl waiting
          · simp only [beq_iff_eq, waiting, if_false]
            refine .late up ?_ late
            intro other own
            exact Option.some.inj own ▸ waiting
      | paneResize key =>
          simp only [AttachSeedState.outputPrecedesSnapshot]
          by_cases waiting : seed.manifest key = some .pending
          · simp only [waiting, beq_self_eq_true, if_true]
            exact .live (.inr ⟨seed, key, up, rfl, waiting⟩)
              (pushLive_outcome opened bytes _ cap replacement)
          · simp only [beq_iff_eq, waiting, if_false]
            refine .late up ?_ late
            intro other own
            exact Option.some.inj own ▸ waiting

section pump

def caughtUp (conn : ConnOutbox ω) (seed : AttachSeedState ω) (front : CatchUpFrame ω) :
    ConnOutbox ω :=
  let queued := conn.enqueued front.bytes .seedCatchUp front.delta.outputPane front.replacement
  { queued.updateSeed fun seed => popCatchUp seed front.bytes.len with
    panicked := queued.panicked || decide (seed.catchUpBytes < front.bytes.len) }

def cutProgramStatus (conn : ConnOutbox ω) (frame : EncodedOutput ω) : ConnOutbox ω :=
  conn.updateSeed fun seed => { seed with programStatusFrame := some frame }

inductive PumpOutcome (conn : ConnOutbox ω) (seed : AttachSeedState ω) (input : PumpInput ω) :
    Option PaneSeedKey → ConnOutbox ω → Prop
  | idle : PumpOutcome conn seed input none conn
  | statusDone : PumpOutcome conn seed input none conn.finishProgramStatusBaseline
  | statusCut {frame : EncodedOutput ω}
      (cut : seed.programStatusFrame.or input.statusFrame = some frame) :
      PumpOutcome conn seed input none (conn.cutProgramStatus frame)
  | statusSent {frame : EncodedOutput ω}
      (cut : seed.programStatusFrame.or input.statusFrame = some frame)
      (room : conn.outboxBytes + frame.len ≤ maxBacklog) :
      PumpOutcome conn seed input none
        ((conn.cutProgramStatus frame).enqueued frame .seedReplay none
          none).finishProgramStatusBaseline
  | resetSent {replay : PaneSeedReplay ω} {frame : EncodedOutput ω}
      (replaying : seed.replay = some replay) (reset : replay.resetFrame = some frame)
      (room : conn.outboxBytes + frame.len ≤ maxBacklog) :
      PumpOutcome conn seed input none
        ((conn.enqueued frame .seedReplay none none).updateSeed fun seed =>
          { seed with replay := seed.replay.map fun replay => { replay with resetFrame := none } })
  | finished {replay : PaneSeedReplay ω} (replaying : seed.replay = some replay)
      (sent : replay.resetFrame = none ∧ replay.remaining = 0) :
      PumpOutcome conn seed input none (conn.finishPaneReplay replay)
  | chunkSent {replay : PaneSeedReplay ω} {payload : Nat} (replaying : seed.replay = some replay)
      (reset : replay.resetFrame = none) (cut : 0 < payload ∧ payload ≤ replay.remaining)
      (room : conn.outboxBytes + (payload + paneOutputFrameOverhead) ≤ maxBacklog) :
      PumpOutcome conn seed input none
        ((conn.enqueued
            { content := replay.content replay.remaining
              len := payload + paneOutputFrameOverhead }
            .seedReplay (some replay.key) none).updateSeed fun seed =>
          { seed with replay := seed.replay.map fun replay =>
              { replay with remaining := replay.remaining - payload } })
  | began {key : PaneSeedKey} {rest : List PaneSeedKey} (idle : seed.replay = none)
      (next : seed.pending = key :: rest) :
      PumpOutcome conn seed input (some key) (conn.beginPaneReplay key input.snapshot)
  | caughtUp {front : CatchUpFrame ω} {rest : List (CatchUpFrame ω)} (idle : seed.replay = none)
      (exported : seed.pending = []) (queued : seed.catchUp = front :: rest)
      (room : conn.outboxBytes + front.bytes.len ≤ maxBacklog) :
      PumpOutcome conn seed input none (conn.caughtUp seed front)
  | completed (idle : seed.replay = none) (exported : seed.pending = [])
      (drained : seed.catchUp = []) :
      PumpOutcome conn seed input none (conn.completeAttachBaseline seed)

variable {seed : AttachSeedState ω} {input : PumpInput ω}

theorem window_le_backlog (capped : conn.outboxBytes ≤ maxBacklog) {len : Nat}
    (room : len ≤ seedSendWindow - conn.outboxBytes) : conn.outboxBytes + len ≤ maxBacklog := by
  unfold seedSendWindow at room
  unfold maxBacklog at capped ⊢
  omega

theorem queueAttachFrame_room (opened : conn.transportClosed = false) {frame : EncodedOutput ω}
    (room : conn.outboxBytes + frame.len ≤ maxBacklog) (frameClass : OutboxClass)
    (pane : Option PaneSeedKey) (overflowReason : String) :
    conn.queueAttachFrame frame frameClass pane overflowReason =
      (conn.enqueued frame frameClass pane none, true) := by
  rcases tryPushClass_of_fits opened room frameClass pane with ⟨pushed, accepted⟩
  unfold queueAttachFrame
  rw [accepted, (tryPushClass_some opened accepted).2]

theorem pumpProgramStatusBaseline_outcome (opened : conn.transportClosed = false) :
    PumpOutcome conn seed input none
      (conn.pumpProgramStatusBaseline seed input.statusFrame input.remaining) := by
  unfold pumpProgramStatusBaseline
  cases cut : seed.programStatusFrame.or input.statusFrame with
  | none => exact .statusDone
  | some frame =>
      simp only
      split_ifs with waits
      · exact .statusCut cut
      · split
        · exact .statusCut cut
        · rename_i pushed fits
          have stillOpen : (conn.cutProgramStatus frame).transportClosed = false := opened
          have sent := tryPushClass_some stillOpen fits
          have window : seedSendWindow ≤ maxBacklog := by decide
          rw [sent.2]
          exact .statusSent cut (sent.1.trans window)

theorem pumpReplayReset_outcome (opened : conn.transportClosed = false)
    (capped : conn.outboxBytes ≤ maxBacklog) {replay : PaneSeedReplay ω}
    {frame : EncodedOutput ω} (replaying : seed.replay = some replay)
    (reset : replay.resetFrame = some frame) (remaining : Nat) :
    PumpOutcome conn seed input none (conn.pumpReplayReset frame remaining) := by
  unfold pumpReplayReset
  split_ifs with waits
  · exact .idle
  · have fits : frame.len ≤ seedSendWindow - conn.outboxBytes := by omega
    have room := window_le_backlog capped fits
    rw [queueAttachFrame_room opened room]
    exact .resetSent replaying reset room

theorem pumpReplayChunk_outcome (opened : conn.transportClosed = false)
    (capped : conn.outboxBytes ≤ maxBacklog) {replay : PaneSeedReplay ω}
    (replaying : seed.replay = some replay) (reset : replay.resetFrame = none)
    (remaining : Nat) : PumpOutcome conn seed input none (conn.pumpReplayChunk replay remaining) := by
  unfold pumpReplayChunk
  simp only
  by_cases waits : seedSendWindow - conn.outboxBytes ≤ paneOutputFrameOverhead ∨
      conn.replayPayload remaining replay.remaining = 0
  · rw [if_pos waits]
    exact .idle
  · have payloadLe : conn.replayPayload remaining replay.remaining ≤
        seedSendWindow - conn.outboxBytes - paneOutputFrameOverhead := by
      unfold replayPayload
      omega
    have cut : 0 < conn.replayPayload remaining replay.remaining ∧
        conn.replayPayload remaining replay.remaining ≤ replay.remaining :=
      ⟨Nat.pos_of_ne_zero fun none => waits (.inr none), Nat.min_le_right _ _⟩
    have room : conn.outboxBytes +
        (conn.replayPayload remaining replay.remaining + paneOutputFrameOverhead) ≤
          maxBacklog := by
      apply window_le_backlog capped
      omega
    rw [if_neg waits, queueAttachFrame_room opened room]
    exact .chunkSent replaying reset cut room

theorem pumpSeedCatchUp_outcome (opened : conn.transportClosed = false)
    (capped : conn.outboxBytes ≤ maxBacklog) {front : CatchUpFrame ω}
    {rest : List (CatchUpFrame ω)} (idle : seed.replay = none) (exported : seed.pending = [])
    (queued : seed.catchUp = front :: rest) (remaining : Nat) :
    PumpOutcome conn seed input none (conn.pumpSeedCatchUp seed front remaining) := by
  unfold pumpSeedCatchUp
  split_ifs with waits
  · exact .idle
  · have fits : front.bytes.len ≤ seedSendWindow - conn.outboxBytes := by omega
    have room := window_le_backlog capped fits
    rw [queueAttachFrame_room opened room]
    simp only [if_true, indexOutboxBack_enqueued]
    exact .caughtUp idle exported queued room

theorem pumpWork_outcome (opened : conn.transportClosed = false)
    (capped : conn.outboxBytes ≤ maxBacklog) (up : conn.barrier = some seed)
    (input : PumpInput ω) :
    PumpOutcome conn seed input conn.nextExport (conn.pumpWork input) := by
  unfold nextExport pumpWork nextAttachSeedWork
  simp only [up]
  cases statuses : seed.pendingProgramStatus with
  | cons key rest => exact pumpProgramStatusBaseline_outcome opened
  | nil =>
      cases replaying : seed.replay with
      | some replay =>
          simp only
          cases reset : replay.resetFrame with
          | some frame =>
              simp only [Option.isSome_some, if_true, Option.bind_some, reset]
              exact pumpReplayReset_outcome opened capped replaying reset _
          | none =>
              by_cases sent : replay.remaining = 0
              · simp only [Option.isSome_none, Bool.false_eq_true, if_false, sent, if_true]
                exact .finished replaying ⟨reset, sent⟩
              · simp only [Option.isSome_none, Bool.false_eq_true, if_false, sent]
                exact pumpReplayChunk_outcome opened capped replaying reset _
      | none =>
          simp only
          cases exported : seed.pending with
          | cons key rest => exact .began replaying exported
          | nil =>
              simp only
              cases queued : seed.catchUp with
              | nil => exact .completed replaying exported queued
              | cons front rest =>
                  exact pumpSeedCatchUp_outcome opened capped replaying exported queued _

end pump

section flush

def acquired (front : OutboxFrame ω) : OutboxFrame ω :=
  { front with bytes := { front.bytes with media := [] } }

/-- The connection once `bytes` more of its front frame are written. -/
def wrote (conn : ConnOutbox ω) (front : OutboxFrame ω) (bytes : Nat) : ConnOutbox ω :=
  { conn.release bytes (classShare .seedReplay front.frameClass bytes)
      (classShare .seedCatchUp front.frameClass bytes) with
    frontOffset := conn.frontOffset + bytes }

/-- What becomes of the front frame before a write: nothing, or its files are handed over. -/
def Prepared (conn : ConnOutbox ω) (front prepared : OutboxFrame ω) : Prop :=
  prepared = front ∨
    (conn.frontOffset = 0 ∧ front.bytes.media ≠ [] ∧ prepared = acquired front)

inductive FlushOutcome (conn : ConnOutbox ω) (front : OutboxFrame ω)
    (rest : List (OutboxFrame ω)) (written : Nat) : ConnOutbox ω → Prop
  | advanced {prepared : OutboxFrame ω} (ready : conn.Prepared front prepared)
      (unfinished : conn.frontOffset + written < front.bytes.len ∨ written = 0) :
      FlushOutcome conn front rest written
        ({ conn with outbox := prepared :: rest }.wrote prepared written)
  | popped {prepared : OutboxFrame ω} (ready : conn.Prepared front prepared)
      (finished : front.bytes.len ≤ conn.frontOffset + written) (moved : 0 < written) :
      FlushOutcome conn front rest written
        { ({ conn with outbox := prepared :: rest }.wrote prepared written).popOutboxFront with
          frontOffset := 0 }

theorem Prepared.len {front prepared : OutboxFrame ω} (ready : conn.Prepared front prepared) :
    prepared.bytes.len = front.bytes.len := by
  rcases ready with rfl | ⟨_, _, rfl⟩ <;> rfl

theorem Prepared.replacement {front prepared : OutboxFrame ω}
    (ready : conn.Prepared front prepared) : prepared.replacement = front.replacement := by
  rcases ready with rfl | ⟨_, _, rfl⟩ <;> rfl

theorem Prepared.pane {front prepared : OutboxFrame ω} (ready : conn.Prepared front prepared) :
    prepared.pane = front.pane := by
  rcases ready with rfl | ⟨_, _, rfl⟩ <;> rfl

theorem Prepared.frameClass {front prepared : OutboxFrame ω}
    (ready : conn.Prepared front prepared) : prepared.frameClass = front.frameClass := by
  rcases ready with rfl | ⟨_, _, rfl⟩ <;> rfl

theorem Prepared.content {front prepared : OutboxFrame ω} (ready : conn.Prepared front prepared) :
    prepared.bytes.content = front.bytes.content := by
  rcases ready with rfl | ⟨_, _, rfl⟩ <;> rfl

variable {front : OutboxFrame ω} {rest : List (OutboxFrame ω)}

theorem prepared_some (queued : conn.outbox = front :: rest) {issued : Option Nat}
    {next : ConnOutbox ω}
    (found : (if conn.frontOffset = 0 then conn.prepareAcquisition issued else some conn) =
      some next) :
    ∃ prepared, conn.Prepared front prepared ∧
      next = { conn with outbox := prepared :: rest } := by
  have unchanged : conn = { conn with outbox := front :: rest } := by rw [← queued]
  split_ifs at found with fresh
  · unfold prepareAcquisition at found
    simp only [queued] at found
    split_ifs at found with bare
    · exact ⟨front, .inl rfl, (Option.some.inj found).symm.trans unchanged⟩
    · cases issued with
      | none => cases found
      | some number =>
          refine ⟨acquired front, .inr ⟨fresh, ?_, rfl⟩, (Option.some.inj found).symm⟩
          simpa using bare
  · exact ⟨front, .inl rfl, (Option.some.inj found).symm.trans unchanged⟩

theorem flushFront_outcome (queued : conn.outbox = front :: rest) {issued : Option Nat}
    {written : Nat} {next : ConnOutbox ω} (flushed : conn.flushFront issued written = some next) :
    FlushOutcome conn front rest written next := by
  unfold flushFront at flushed
  cases prepare : if conn.frontOffset = 0 then conn.prepareAcquisition issued else some conn with
  | none => simp [prepare] at flushed
  | some ready =>
      rcases prepared_some queued prepare with ⟨prepared, isReady, rfl⟩
      simp only [prepare] at flushed
      by_cases done : prepared.bytes.len ≤ conn.frontOffset + written ∧ 0 < written
      · rw [if_pos done] at flushed
        cases flushed
        exact .popped isReady (isReady.len ▸ done.1) done.2
      · rw [if_neg done] at flushed
        cases flushed
        refine .advanced isReady ?_
        rw [← isReady.len]
        omega

end flush

end ConnOutbox

end Rozi
