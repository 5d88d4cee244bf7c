import Rozi.Session.OutboxAccounting

/-!
The replay barrier of one connection. Every push sheds some panes and then comes down in one of the
ways of `Landing`; what a barrier knows of its panes stays consistent through every step.
-/

namespace Rozi

open ReplacementQueue QueueBytes

namespace ConnOutbox

variable {ω : Type} {conn : ConnOutbox ω}

theorem barrier_congr {other : ConnOutbox ω} (same : other.seed = conn.seed) :
    other.barrier = conn.barrier := by
  unfold barrier
  rw [same]

theorem barrier_eq_none :
    conn.barrier = none ↔ ∀ seed, conn.seed = some seed → seed.baselineQueued = true := by
  unfold barrier
  rw [Option.filter_eq_none_iff]
  simp

section sheds

theorem purgeCatchUpPane_manifest (seed : AttachSeedState ω) (key : PaneSeedKey) :
    (purgeCatchUpPane seed key).1.manifest = seed.manifest := rfl

theorem Sheds.barrier_some {last : ConnOutbox ω} (sheds : Sheds conn last)
    {seed : AttachSeedState ω} (up : conn.barrier = some seed) :
    ∃ now, last.barrier = some now ∧ now.manifest = seed.manifest := by
  induction sheds generalizing seed with
  | refl => exact ⟨seed, up, rfl⟩
  | shed key _ _ ih =>
      rcases ih (shedPane_barrier key up) with ⟨now, still, same⟩
      exact ⟨now, still, same.trans (purgeCatchUpPane_manifest seed key)⟩

theorem Sheds.barrier_none {last : ConnOutbox ω} (sheds : Sheds conn last)
    (down : conn.barrier = none) : last.barrier = none := by
  induction sheds with
  | refl => exact down
  | @shed origin _ key _ _ ih =>
      apply ih
      rw [shedPane_live key down]
      exact down

end sheds

section landing

/-- The ways past the barrier: it is down, or the frame resizes a pane whose export is to come. -/
def Passes (conn : ConnOutbox ω) (delta : SeedDelta) : Prop :=
  conn.barrier = none ∨ ∃ seed key, conn.barrier = some seed ∧ delta = .paneResize key ∧
    seed.manifest key = some .pending

inductive Landing (conn : ConnOutbox ω) (bytes : EncodedOutput ω) (delta : SeedDelta)
    (replacement : Option ReplacementKey) : ConnOutbox ω × ClientFrameResult → Prop
  | precedes {seed : AttachSeedState ω} {key : PaneSeedKey} (up : conn.barrier = some seed)
      (own : delta = .paneOutput key) (waiting : seed.manifest key = some .pending) :
      Landing conn bytes delta replacement (conn, .ignored)
  | behind {key : PaneSeedKey} (own : delta.outputPane = some key)
      (waiting : key ∈ conn.resyncPending) :
      Landing conn bytes delta replacement (conn.ignoring bytes)
  | outdated {seed : AttachSeedState ω} {key : PaneSeedKey} (up : conn.barrier = some seed)
      (own : delta.pane = some key) (behind : key ∈ seed.outdated) :
      Landing conn bytes delta replacement (conn.ignoring bytes)
  | replaced {key : ReplacementKey} {position : Nat} {frame : OutboxFrame ω}
      (passes : conn.Passes delta) (keyed : replacement = some key)
      (present : conn.outbox[position]? = some frame) (own : frame.replacement = some key)
      (latest : ∀ later item, position < later → conn.outbox[later]? = some item →
        item.replacement ≠ some key)
      (unstarted : position ≠ 0 ∨ conn.frontStarted = false) :
      Landing conn bytes delta replacement (conn.replacedAt position frame bytes, .queued)
  | queued (passes : conn.Passes delta)
      (clear : ∀ key, delta.outputPane = some key → key ∉ conn.resyncPending) :
      Landing conn bytes delta replacement
        (conn.enqueued bytes .normal delta.outputPane replacement, .queued)
  | starved {key : PaneSeedKey} (down : conn.barrier = none) (own : delta.outputPane = some key)
      (bare : conn.largestOutboxPane = none) :
      Landing conn bytes delta replacement
        ({ conn with resyncPending := conn.resyncPending.insert key }.ignoring bytes)
  | shedSelf {key : PaneSeedKey} (sheddable : conn.paneIsSheddable key = true)
      (own : delta.pane = some key) :
      Landing conn bytes delta replacement ((conn.shedPane key).ignoring bytes)
  | overflowed (reason : String) :
      Landing conn bytes delta replacement (conn.overflowing reason)
  | replacedCatchUp {seed : AttachSeedState ω} {key : ReplacementKey} {position : Nat}
      {frame : CatchUpFrame ω} (up : conn.barrier = some seed) (keyed : replacement = some key)
      (present : seed.catchUp[position]? = some frame) (own : frame.replacement = some key)
      (latest : ∀ later item, position < later → seed.catchUp[later]? = some item →
        item.replacement ≠ some key) :
      Landing conn bytes delta replacement
        (conn.replacedCatchUp seed position frame { replacement, bytes, delta }, .buffered)
  | appended {seed : AttachSeedState ω} (up : conn.barrier = some seed)
      (exported : ∀ key, delta.pane = some key → seed.manifest key ≠ some .pending)
      (clear : ∀ key, delta.pane = some key → key ∉ seed.outdated) :
      Landing conn bytes delta replacement
        (conn.appendCatchUp seed bytes delta replacement, .buffered)

variable {bytes : EncodedOutput ω} {delta : SeedDelta} {replacement : Option ReplacementKey}
  {result : ConnOutbox ω × ClientFrameResult}

theorem pane_of_outputPane {key : PaneSeedKey} (own : delta.outputPane = some key) :
    delta.pane = some key := by
  cases delta with
  | control => cases own
  | paneOutput _ => exact own
  | paneResize _ => cases own

theorem Sheds.passes {last : ConnOutbox ω} (sheds : Sheds conn last)
    (routed : conn.Passes delta) : last.Passes delta := by
  rcases routed with down | ⟨seed, key, up, own, waiting⟩
  · exact .inl (sheds.barrier_none down)
  · rcases sheds.barrier_some up with ⟨now, still, same⟩
    exact .inr ⟨now, key, still, own, same ▸ waiting⟩

theorem Passes.down_of_output (passes : conn.Passes delta) {key : PaneSeedKey}
    (own : delta.outputPane = some key) : conn.barrier = none := by
  rcases passes with down | ⟨_, _, _, rfl, _⟩
  · exact down
  · cases own

theorem LiveOutcome.lands (acc : conn.Accounted) (routed : conn.Passes delta)
    (outcome : LiveOutcome conn bytes delta maxBacklog replacement result) :
    ∃ last, Sheds conn last ∧ Landing last bytes delta replacement result := by
  cases outcome with
  | behind own waiting => exact ⟨conn, .refl conn, .behind own waiting⟩
  | replaced found =>
      rcases replaceOutbox_some acc.indexed found with
        ⟨key, position, frame, keyed, present, own, latest, unstarted, _, rfl⟩
      exact ⟨conn, .refl conn, .replaced routed keyed present own latest unstarted⟩
  | queued sheds clear _ => exact ⟨_, sheds, .queued (sheds.passes routed) clear⟩
  | starved sheds own bare =>
      exact ⟨_, sheds, .starved ((sheds.passes routed).down_of_output own) own bare⟩
  | shedSelf sheds sheddable own => exact ⟨_, sheds, .shedSelf sheddable (pane_of_outputPane own)⟩
  | overflowed sheds reason => exact ⟨_, sheds, .overflowed reason⟩

theorem CatchUpOutcome.lands (acc : conn.Accounted) {seed : AttachSeedState ω}
    (up : conn.barrier = some seed)
    (exported : ∀ key, delta.pane = some key → seed.manifest key ≠ some .pending)
    (outcome : CatchUpOutcome conn bytes delta replacement result) :
    ∃ last, Sheds conn last ∧ Landing last bytes delta replacement result := by
  cases outcome with
  | outdated sheds now own behind => exact ⟨_, sheds, .outdated now own behind⟩
  | replaced sheds now clear found =>
      have seedAcc := (acc.sheds sheds).seeds _ (barrier_eq_some.mp now).1
      rcases replaceCatchUp_some seedAcc.indexed found with
        ⟨key, position, frame, keyed, present, own, latest, rfl⟩
      exact ⟨_, sheds, .replacedCatchUp now keyed present own latest⟩
  | buffered sheds now clear _ =>
      refine ⟨_, sheds, .appended now ?_ clear⟩
      intro key own
      rcases sheds.barrier_some up with ⟨same, still, manifest⟩
      have identical := Option.some.inj (now.symm.trans still)
      rw [identical, manifest]
      exact exported key own
  | shedSelf sheds sheddable own => exact ⟨_, sheds, .shedSelf sheddable own⟩
  | overflowed sheds reason => exact ⟨_, sheds, .overflowed reason⟩

theorem pushDeltaInner_lands (acc : conn.Accounted) (bytes : EncodedOutput ω) (delta : SeedDelta)
    (replacement : Option ReplacementKey) :
    ∃ last, Sheds conn last ∧ Landing last bytes delta replacement
      (conn.pushDeltaInner bytes delta maxBacklog replacement) := by
  cases outcome : conn.pushDeltaInner bytes delta maxBacklog replacement with
  | mk next result =>
      have spec := pushDeltaInner_outcome acc.opened bytes delta maxBacklog replacement
      rw [outcome] at spec
      cases spec with
      | precedes up own waiting => exact ⟨conn, .refl conn, .precedes up own waiting⟩
      | live routed live => exact live.lands acc routed
      | late up exported late => exact late.lands acc up exported

theorem pushDelta_fst (bytes : EncodedOutput ω) (delta : SeedDelta)
    (replacement : Option ReplacementKey) (mediaWithinBudget : Bool) :
    (conn.pushDelta bytes delta maxBacklog replacement mediaWithinBudget).1 =
      (conn.pushDeltaInner bytes delta maxBacklog replacement).1 := by
  unfold pushDelta
  simp only
  split_ifs <;> rfl

end landing

end ConnOutbox

/-- What the barrier knows of its panes: the ones to be exported are the pending ones, the one being
replayed is not, and nothing is left behind once the baseline is queued. -/
structure AttachSeedState.Sound {ω : Type} (seed : AttachSeedState ω) : Prop where
  drained : seed.baselineQueued = true → seed.catchUp = [] ∧ seed.replay = none
  distinct : seed.pending.Nodup
  waits : seed.baselineQueued = false →
    ∀ key, key ∈ seed.pending ↔ seed.manifest key = some .pending
  exported : ∀ replay, seed.replay = some replay → seed.manifest replay.key ≠ some .pending
  stale : seed.outdated.Nodup

theorem AttachSeedState.Sound.recatch {ω : Type} {seed : AttachSeedState ω} (own : seed.Sound)
    (raised : seed.baselineQueued = false) (catchUp : List (CatchUpFrame ω))
    (catchUpBase catchUpBytes : Nat) (catchUpReplacements : Index ReplacementKey) :
    Sound { seed with catchUp, catchUpBase, catchUpBytes, catchUpReplacements } where
  drained := fun queued => by
    have still : seed.baselineQueued = true := queued
    rw [raised] at still
    cases still
  distinct := own.distinct
  waits := own.waits
  exported := own.exported
  stale := own.stale

theorem AttachSeedState.Sound.popCatchUp {ω : Type} {seed : AttachSeedState ω} (own : seed.Sound)
    (frameLen : Nat) : (ConnOutbox.popCatchUp seed frameLen).Sound := by
  unfold ConnOutbox.popCatchUp
  split
  · exact
      { drained := own.drained
        distinct := own.distinct
        waits := own.waits
        exported := own.exported
        stale := own.stale }
  · rename_i front rest queued
    apply own.recatch
    cases done : seed.baselineQueued with
    | false => rfl
    | true =>
        have empty := (own.drained done).1
        rw [queued] at empty
        cases empty

theorem AttachSeedState.Sound.mapReplay {ω : Type} {seed : AttachSeedState ω} (own : seed.Sound)
    {change : PaneSeedReplay ω → PaneSeedReplay ω} (same : ∀ replay, (change replay).key =
      replay.key) : Sound { seed with replay := seed.replay.map change } where
  drained := fun done => by
    have idle := own.drained done
    exact ⟨idle.1, by rw [idle.2]; rfl⟩
  distinct := own.distinct
  waits := own.waits
  exported := fun replay changed => by
    rcases Option.map_eq_some_iff.mp changed with ⟨before, replaying, rfl⟩
    rw [same]
    exact own.exported before replaying
  stale := own.stale

namespace ConnOutbox

variable {ω : Type} {conn : ConnOutbox ω}

structure BarrierSound (conn : ConnOutbox ω) : Prop where
  seeds : ∀ seed, conn.seed = some seed → seed.Sound
  waiting : conn.resyncPending.Nodup
  exclusive : conn.barrier ≠ none → conn.resyncPending = []

theorem barrier_ne_none {seed : AttachSeedState ω} (up : conn.barrier = some seed) :
    conn.barrier ≠ none := by
  rw [up]
  exact Option.some_ne_none seed

namespace BarrierSound

theorem empty : BarrierSound ({} : ConnOutbox ω) where
  seeds := fun _ none => by cases none
  waiting := List.nodup_nil
  exclusive := fun up => absurd rfl up

theorem congr (sound : conn.BarrierSound) {next : ConnOutbox ω} (seed : next.seed = conn.seed)
    (waiting : next.resyncPending = conn.resyncPending) : next.BarrierSound where
  seeds := by
    rw [seed]
    exact sound.seeds
  waiting := waiting ▸ sound.waiting
  exclusive := by
    rw [barrier_congr seed, waiting]
    exact sound.exclusive

theorem of_barrier (sound : conn.BarrierSound) {seed : AttachSeedState ω}
    (up : conn.barrier = some seed) : seed.Sound :=
  sound.seeds seed (barrier_eq_some.mp up).1

theorem drained (sound : conn.BarrierSound) (down : conn.barrier = none)
    {seed : AttachSeedState ω} (present : conn.seed = some seed) :
    seed.catchUp = [] ∧ seed.replay = none :=
  (sound.seeds seed present).drained (barrier_eq_none.mp down seed present)

/-- Put another seed up, with no more panes waiting for a resync than before. -/
theorem reseed (sound : conn.BarrierSound) {seed : AttachSeedState ω} (next : seed.Sound)
    (clear : conn.resyncPending = []) : BarrierSound { conn with seed := some seed } where
  seeds := fun _ present => Option.some.inj present ▸ next
  waiting := sound.waiting
  exclusive := fun _ => clear

theorem updateSeed (sound : conn.BarrierSound) {change : AttachSeedState ω → AttachSeedState ω}
    (keeps : ∀ seed : AttachSeedState ω, seed.Sound → (change seed).Sound)
    (same : ∀ seed : AttachSeedState ω, (change seed).baselineQueued = seed.baselineQueued) :
    (conn.updateSeed change).BarrierSound where
  seeds := by
    intro own changed
    rcases Option.map_eq_some_iff.mp changed with ⟨seed, present, rfl⟩
    exact keeps seed (sound.seeds seed present)
  waiting := sound.waiting
  exclusive := by
    intro up
    apply sound.exclusive
    intro down
    apply up
    apply barrier_eq_none.mpr
    intro own changed
    rcases Option.map_eq_some_iff.mp changed with ⟨seed, present, rfl⟩
    rw [same]
    exact barrier_eq_none.mp down seed present

theorem shedPane (sound : conn.BarrierSound) (key : PaneSeedKey) :
    (conn.shedPane key).BarrierSound := by
  cases up : conn.barrier with
  | none =>
      rw [shedPane_live key up]
      exact
        { seeds := sound.seeds
          waiting := sound.waiting.insert
          exclusive := fun raised => absurd up raised }
  | some seed =>
      have own := sound.of_barrier up
      have shed : (purgeCatchUpPane seed key).1.Sound :=
        { drained := fun queued => by
            have still : seed.baselineQueued = true := queued
            rw [(barrier_eq_some.mp up).2] at still
            cases still
          distinct := own.distinct
          waits := own.waits
          exported := own.exported
          stale := by
            simp only [purgeCatchUpPane]
            split_ifs with added
            · simp only [Bool.and_eq_true, Bool.not_eq_true', List.contains_eq_mem,
                decide_eq_false_iff_not] at added
              exact List.nodup_cons.mpr ⟨added.2, own.stale⟩
            · exact own.stale }
      have reseeded := sound.reseed shed (sound.exclusive (barrier_ne_none up))
      rw [shedPane_behind key up]
      exact reseeded.congr rfl rfl

theorem sheds (sound : conn.BarrierSound) {last : ConnOutbox ω} (sheds : Sheds conn last) :
    last.BarrierSound :=
  sheds.induct (fun _ key sound _ => sound.shedPane key) sound

theorem landed (sound : conn.BarrierSound) {bytes : EncodedOutput ω} {delta : SeedDelta}
    {replacement : Option ReplacementKey} {result : ConnOutbox ω × ClientFrameResult}
    (landing : Landing conn bytes delta replacement result) : result.1.BarrierSound := by
  cases landing with
  | precedes _ _ _ => exact sound
  | behind _ _ => exact sound.congr rfl rfl
  | outdated _ _ _ => exact sound.congr rfl rfl
  | replaced _ _ _ _ _ _ => exact sound.congr rfl rfl
  | queued _ _ => exact sound.congr rfl rfl
  | starved down _ _ =>
      exact
        { seeds := sound.seeds
          waiting := sound.waiting.insert
          exclusive := fun raised => absurd down raised }
  | shedSelf _ _ => exact (sound.shedPane _).congr rfl rfl
  | overflowed reason =>
      apply sound.updateSeed
      · exact fun _ own => ⟨own.drained, own.distinct, own.waits, own.exported, own.stale⟩
      · exact fun _ => rfl
  | replacedCatchUp up _ _ _ _ =>
      have next := (sound.of_barrier up).recatch (barrier_eq_some.mp up).2
      exact (sound.reseed (next _ _ _ _) (sound.exclusive (barrier_ne_none up))).congr rfl rfl
  | appended up _ _ =>
      have next := (sound.of_barrier up).recatch (barrier_eq_some.mp up).2
      exact sound.reseed (next _ _ _ _) (sound.exclusive (barrier_ne_none up))

theorem beginPaneReplay (sound : conn.BarrierSound) {seed : AttachSeedState ω}
    {key : PaneSeedKey} {rest : List PaneSeedKey} (up : conn.barrier = some seed)
    (idle : seed.replay = none) (next : seed.pending = key :: rest)
    (snapshot : Option (PaneSnapshot ω)) : (conn.beginPaneReplay key snapshot).BarrierSound := by
  have own := sound.of_barrier up
  have raised := barrier_eq_some.mp up
  have distinct := own.distinct
  rw [next] at distinct
  have waits : ∀ (state : PaneSeedState), state ≠ .pending → ∀ other, other ∈ rest ↔
      (if other = key then some state else seed.manifest other) = some .pending := by
    intro state exported other
    have before := own.waits raised.2 other
    rw [next, List.mem_cons] at before
    by_cases same : other = key
    · simp [same, exported, (List.nodup_cons.mp distinct).1]
    · simpa [same] using before
  have result : ∀ seed' : AttachSeedState ω, seed'.Sound →
      BarrierSound { conn with seed := some seed' } :=
    fun _ fine => sound.reseed fine (sound.exclusive (barrier_ne_none up))
  unfold ConnOutbox.beginPaneReplay ConnOutbox.updateSeed
  rw [raised.1]
  cases snapshot with
  | some snapshot =>
      apply result
      exact
        { drained := fun queued => by
            have still : seed.baselineQueued = true := queued
            rw [raised.2] at still
            cases still
          distinct := by
            simp only [next, List.tail_cons]
            exact (List.nodup_cons.mp distinct).2
          waits := fun _ other => by
            simp only [next, List.tail_cons]
            exact waits .replaying (by decide) other
          exported := fun replay replaying => by
            cases replaying
            simp
          stale := own.stale }
  | none =>
      apply result
      exact
        { drained := fun queued => by
            have still : seed.baselineQueued = true := queued
            rw [raised.2] at still
            cases still
          distinct := by
            simp only [next, List.tail_cons]
            exact (List.nodup_cons.mp distinct).2
          waits := fun _ other => by
            simp only [next, List.tail_cons]
            exact waits .catchingUp (by decide) other
          exported := fun replay replaying => by
            simp only [idle] at replaying
            cases replaying
          stale := own.stale }

theorem finishPaneReplay (sound : conn.BarrierSound) {seed : AttachSeedState ω}
    {replay : PaneSeedReplay ω} (up : conn.barrier = some seed)
    (replaying : seed.replay = some replay) : (conn.finishPaneReplay replay).BarrierSound := by
  have own := sound.of_barrier up
  have raised := barrier_eq_some.mp up
  unfold ConnOutbox.finishPaneReplay ConnOutbox.updateSeed
  rw [raised.1]
  apply sound.reseed _ (sound.exclusive (barrier_ne_none up))
  exact
    { drained := fun queued => by
        have still : seed.baselineQueued = true := queued
        rw [raised.2] at still
        cases still
      distinct := own.distinct
      waits := fun _ other => by
        have before := own.waits raised.2 other
        have exported := own.exported replay replaying
        by_cases same : other = replay.key
        · rw [same] at before
          simp [same, before, exported]
        · simpa [same] using before
      exported := fun _ gone => by cases gone
      stale := own.stale }

theorem completeAttachBaseline (sound : conn.BarrierSound) {seed : AttachSeedState ω}
    (up : conn.barrier = some seed) (idle : seed.replay = none) (drained : seed.catchUp = []) :
    (conn.completeAttachBaseline seed).BarrierSound := by
  have own := sound.of_barrier up
  exact
    { seeds := fun next completed => by
        cases completed
        exact
          { drained := fun _ => ⟨drained, idle⟩
            distinct := own.distinct
            waits := fun raised => by cases raised
            exported := fun replay replaying => by
              simp only [idle] at replaying
              cases replaying
            stale := List.nodup_nil }
      waiting := own.stale.union _
      exclusive := fun raised => by
        apply absurd _ raised
        apply barrier_eq_none.mpr
        intro next completed
        cases completed
        rfl }

theorem pumped (sound : conn.BarrierSound) {seed : AttachSeedState ω} {input : PumpInput ω}
    {begun : Option PaneSeedKey} {next : ConnOutbox ω} (up : conn.barrier = some seed)
    (outcome : PumpOutcome conn seed input begun next) : next.BarrierSound := by
  cases outcome with
  | idle => exact sound
  | statusDone =>
      exact sound.updateSeed
        (fun _ own => ⟨own.drained, own.distinct, own.waits, own.exported, own.stale⟩) fun _ => rfl
  | statusCut _ =>
      exact sound.updateSeed
        (fun _ own => ⟨own.drained, own.distinct, own.waits, own.exported, own.stale⟩) fun _ => rfl
  | @statusSent frame _ _ =>
      have cut : (conn.cutProgramStatus frame).BarrierSound := sound.updateSeed
        (fun _ own => ⟨own.drained, own.distinct, own.waits, own.exported, own.stale⟩) fun _ => rfl
      have sent : ((conn.cutProgramStatus frame).enqueued frame .seedReplay none
          none).BarrierSound := cut.congr rfl rfl
      exact sent.updateSeed
        (fun _ own => ⟨own.drained, own.distinct, own.waits, own.exported, own.stale⟩) fun _ => rfl
  | @resetSent _ frame _ _ _ =>
      have sent : (conn.enqueued frame .seedReplay none none).BarrierSound := sound.congr rfl rfl
      exact sent.updateSeed (fun _ own => own.mapReplay fun _ => rfl) fun _ => rfl
  | finished replaying _ => exact sound.finishPaneReplay up replaying
  | @chunkSent replay payload _ _ _ _ =>
      have sent : (conn.enqueued
          { content := replay.content replay.remaining
            len := payload + paneOutputFrameOverhead }
          .seedReplay (some replay.key) none).BarrierSound := sound.congr rfl rfl
      exact sent.updateSeed (fun _ own => own.mapReplay fun _ => rfl) fun _ => rfl
  | began idle next => exact sound.beginPaneReplay up idle next _
  | @caughtUp front rest _ _ _ _ =>
      have sent : (conn.enqueued front.bytes .seedCatchUp front.delta.outputPane
          front.replacement).BarrierSound := sound.congr rfl rfl
      have popped : BarrierSound ((conn.enqueued front.bytes .seedCatchUp front.delta.outputPane
          front.replacement).updateSeed fun seed => popCatchUp seed front.bytes.len) :=
        sent.updateSeed (fun _ own => own.popCatchUp _) fun seed => by
          unfold ConnOutbox.popCatchUp
          split <;> rfl
      exact popped.congr rfl rfl
  | completed idle _ drained => exact sound.completeAttachBaseline up idle drained

theorem begun (panes statuses : List PaneSeedKey) (distinct : panes.Nodup) :
    AttachSeedState.Sound { AttachSeedState.begin panes with
      pendingProgramStatus := statuses.insertionSort PaneSeedKey.before : AttachSeedState ω } where
  drained := fun queued => by cases queued
  distinct := (List.perm_insertionSort _ panes).nodup_iff.mpr distinct
  waits := fun _ key => by
    simp [AttachSeedState.begin, (List.perm_insertionSort PaneSeedKey.before panes).mem_iff]
  exported := fun _ idle => by cases idle
  stale := List.nodup_nil

theorem resynced (live stale : List PaneSeedKey) (distinct : stale.Nodup) :
    (AttachSeedState.resync live stale : AttachSeedState ω).Sound where
  drained := fun queued => by cases queued
  distinct := (List.perm_insertionSort _ stale).nodup_iff.mpr distinct
  waits := fun _ key => by
    simp only [AttachSeedState.resync, AttachSeedState.begin,
      (List.perm_insertionSort PaneSeedKey.before stale).mem_iff]
    by_cases waits : key ∈ stale
    · simp [waits]
    · by_cases shown : key ∈ live
      · simp [waits, shown]
      · simp [waits, shown]
  exported := fun _ idle => by cases idle
  stale := List.nodup_nil

theorem enqueueAttachSeeds (sound : conn.BarrierSound) {panes : List PaneSeedKey}
    (statuses : List PaneSeedKey) (distinct : panes.Nodup) (clear : conn.resyncPending = []) :
    (conn.enqueueAttachSeeds panes statuses).BarrierSound :=
  sound.reseed (begun panes statuses distinct) clear

theorem startClientResync_cases (conn : ConnOutbox ω) (live : List PaneSeedKey) :
    conn.startClientResync live = conn ∨
      (conn.seed = none ∧ conn.startClientResync live = { conn with resyncPending := [] } ∧
        ∀ key ∈ conn.resyncPending, key ∉ live) ∨
      (conn.seed = none ∧ conn.startClientResync live = { conn with
        resyncPending := []
        seed := some (AttachSeedState.resync live
          (conn.resyncPending.filter fun key => live.contains key)) }) := by
  unfold ConnOutbox.startClientResync
  simp only
  split_ifs with waits gone
  · exact .inl rfl
  · have free : conn.seed = none := by
      simp only [Bool.or_eq_true, not_or] at waits
      simpa using waits.1.1
    refine .inr (.inl ⟨free, rfl, ?_⟩)
    intro key waiting shown
    have kept : key ∈ conn.resyncPending.filter fun key => live.contains key :=
      List.mem_filter.mpr ⟨waiting, by simpa using shown⟩
    rw [List.isEmpty_iff.mp gone] at kept
    cases kept
  · have free : conn.seed = none := by
      simp only [Bool.or_eq_true, not_or] at waits
      simpa using waits.1.1
    exact .inr (.inr ⟨free, rfl⟩)

theorem startClientResync (sound : conn.BarrierSound) (live : List PaneSeedKey) :
    (conn.startClientResync live).BarrierSound := by
  have emptied : BarrierSound { conn with resyncPending := [] } :=
    { seeds := sound.seeds, waiting := List.nodup_nil, exclusive := fun _ => rfl }
  rcases startClientResync_cases conn live with same | ⟨_, next, _⟩ | ⟨_, next⟩
  · rw [same]
    exact sound
  · rw [next]
    exact emptied
  · rw [next]
    exact emptied.reseed (resynced live _ (sound.waiting.filter _)) rfl

theorem pumpWork (sound : conn.BarrierSound) (acc : conn.Accounted) (input : PumpInput ω) :
    (conn.pumpWork input).BarrierSound := by
  cases up : conn.barrier with
  | none =>
      unfold ConnOutbox.pumpWork
      rw [up]
      exact sound
  | some seed => exact sound.pumped up (pumpWork_outcome acc.opened acc.capped up input)

theorem pushDelta (sound : conn.BarrierSound) (acc : conn.Accounted) (bytes : EncodedOutput ω)
    (delta : SeedDelta) (replacement : Option ReplacementKey) (mediaWithinBudget : Bool) :
    (conn.pushDelta bytes delta maxBacklog replacement mediaWithinBudget).1.BarrierSound := by
  rw [pushDelta_fst]
  rcases pushDeltaInner_lands acc bytes delta replacement with ⟨last, sheds, landing⟩
  exact (sound.sheds sheds).landed landing

theorem flushed (sound : conn.BarrierSound) {front : OutboxFrame ω}
    {rest : List (OutboxFrame ω)} {written : Nat} {next : ConnOutbox ω}
    (outcome : FlushOutcome conn front rest written next) : next.BarrierSound := by
  cases outcome with
  | advanced _ _ => exact sound.congr rfl rfl
  | popped _ _ _ => exact sound.congr rfl rfl

theorem takeCompletedSeed (sound : conn.BarrierSound) {seed : AttachSeedState ω}
    {next : ConnOutbox ω} (completed : conn.takeCompletedSeed = some (seed, next)) :
    next.BarrierSound := by
  rw [(takeCompletedSeed_some completed).2.2.2.2]
  exact
    { seeds := fun _ gone => by cases gone
      waiting := sound.waiting
      exclusive := fun raised => absurd rfl raised }

end BarrierSound

end ConnOutbox

end Rozi
