import Rozi.Session.DeliveryOrder

/-!
No output of a pane is lost to a client that lags: what is not delivered, queued or superseded is
covered by a replay of its pane that is still to come.
-/

namespace Rozi

open ReplacementQueue QueueBytes ConnOutbox

def Stamp.OutputOf (stamp : Stamp) (key : PaneSeedKey) : Prop :=
  stamp.pane = some key.presentation ∧ ∃ metadata, stamp.kind = .output metadata

namespace Stamp

variable {stamp : Stamp} {key : PaneSeedKey}

theorem OutputOf.delta (output : stamp.OutputOf key) : stamp.delta = .paneOutput key := by
  rcases output with ⟨shown, metadata, kind⟩
  simp only [Stamp.delta, kind, shown, Option.bind_some, seedKey_presentation]
  rfl

theorem OutputOf.transcript (output : stamp.OutputOf key) : stamp.transcript = some key := by
  rcases output with ⟨shown, metadata, kind⟩
  simp only [Stamp.transcript, kind, shown, Option.bind_some, seedKey_presentation]

end Stamp

namespace ConnOutbox

/-- The frame is written, is queued, or a later one with its key took its place. -/
def Retains (conn : ConnOutbox Stamp) (written : List Stamp) (stamp : Stamp) : Prop :=
  stamp ∈ written ∨
    (∃ frame ∈ conn.outbox, frame.bytes.content = stamp) ∨
    (∃ frame ∈ conn.catchUpFrames, frame.bytes.content = stamp) ∨
    ∃ later, (stamp, later) ∈ conn.coalesced ∧ stamp.key ≠ none ∧ later.key = stamp.key ∧
      stamp.tick < later.tick

/-- A replay of the pane is arranged for, or every demanded frame of it is retained. -/
def Covers (conn : ConnOutbox Stamp) (written : List Stamp) (key : PaneSeedKey)
    (demanded : Stamp → Prop) : Prop :=
  conn.Excused key ∨ ∀ stamp, demanded stamp → conn.Retains written stamp

variable {conn next : ConnOutbox Stamp} {written : List Stamp} {key : PaneSeedKey}
  {demanded : Stamp → Prop}

theorem Covers.mono (covers : conn.Covers written key demanded)
    (excused : conn.Excused key → next.Excused key)
    (retained : ∀ stamp, demanded stamp → conn.Retains written stamp →
      next.Retains written stamp) : next.Covers written key demanded := by
  rcases covers with excuse | kept
  · exact .inl (excused excuse)
  · exact .inr fun stamp demand => retained stamp demand (kept stamp demand)

theorem Retains.mono {stamp : Stamp} (retained : conn.Retains written stamp)
    (outbox : ∀ frame ∈ conn.outbox, frame.bytes.content = stamp → frame ∈ next.outbox)
    (catchUp : ∀ frame ∈ conn.catchUpFrames, frame.bytes.content = stamp →
      frame ∈ next.catchUpFrames)
    (coalesced : conn.coalesced ⊆ next.coalesced) : next.Retains written stamp := by
  rcases retained with done | ⟨frame, queued, shown⟩ | ⟨frame, held, shown⟩ | ⟨later, pair, rest⟩
  · exact .inl done
  · exact .inr (.inl ⟨frame, outbox frame queued shown, shown⟩)
  · exact .inr (.inr (.inl ⟨frame, catchUp frame held shown, shown⟩))
  · exact .inr (.inr (.inr ⟨later, coalesced pair, rest⟩))

theorem Covers.grow (covers : conn.Covers written key demanded)
    (outbox : conn.outbox ⊆ next.outbox) (coalesced : next.coalesced = conn.coalesced)
    (seed : next.seed = conn.seed) (waiting : next.resyncPending = conn.resyncPending) :
    next.Covers written key demanded := by
  apply covers.mono
  · exact fun excuse => excuse.congr seed.symm waiting.symm
  · intro stamp _ retained
    apply retained.mono
    · exact fun frame member _ => outbox member
    · exact fun frame member _ => catchUpFrames_congr seed ▸ member
    · rw [coalesced]
      exact List.Subset.refl _

theorem Covers.updateSeed (covers : conn.Covers written key demanded)
    {change : AttachSeedState Stamp → AttachSeedState Stamp}
    (same : ∀ seed, (change seed).catchUp = seed.catchUp ∧
      (change seed).manifest = seed.manifest ∧ (change seed).outdated = seed.outdated ∧
      (change seed).baselineQueued = seed.baselineQueued) :
    (conn.updateSeed change).Covers written key demanded := by
  apply covers.mono
  · intro excuse
    rcases excuse with waiting | ⟨seed, up, why⟩
    · exact .inl waiting
    · right
      rcases barrier_eq_some.mp up with ⟨present, raised⟩
      rcases same seed with ⟨_, manifest, outdated, queued⟩
      refine ⟨change seed, barrier_eq_some.mpr ⟨?_, queued.trans raised⟩, ?_⟩
      · simp only [ConnOutbox.updateSeed, present, Option.map_some]
      · rw [manifest, outdated]
        exact why
  · intro stamp _ retained
    apply retained.mono
    · exact fun frame member _ => member
    · intro frame member _
      unfold catchUpFrames ConnOutbox.updateSeed
      unfold catchUpFrames at member
      cases present : conn.seed with
      | none => simp [present] at member
      | some seed =>
          simp only [present] at member
          simpa only [Option.map_some, (same seed).1] using member
    · exact List.Subset.refl _

section shed

theorem mem_shedPane_outbox {other : PaneSeedKey} {frame : OutboxFrame Stamp}
    (member : frame ∈ conn.outbox) (apart : frame.pane ≠ some other) :
    frame ∈ (conn.shedPane other).outbox := by
  rw [shedPane_outbox]
  rw [← pinned_append_sheddable conn] at member
  rcases List.mem_append.mp member with pinned | sheddable
  · exact List.mem_append_left _ pinned
  · apply List.mem_append_right
    apply List.mem_filter.mpr
    exact ⟨sheddable, by simp [survivesPurge, apart]⟩

theorem mem_shedPane_catchUp {other : PaneSeedKey} {frame : CatchUpFrame Stamp}
    (member : frame ∈ conn.catchUpFrames) (apart : frame.delta.pane ≠ some other) :
    frame ∈ (conn.shedPane other).catchUpFrames := by
  cases up : conn.barrier with
  | none =>
      have same : (conn.shedPane other).seed = conn.seed := by
        rw [shedPane_live other up]
        rfl
      rw [catchUpFrames_congr same]
      exact member
  | some seed =>
      rw [catchUpFrames_of_seed (barrier_eq_some.mp up).1] at member
      rw [catchUpFrames_of_seed (shedPane_seed other up)]
      apply List.mem_filter.mpr
      exact ⟨member, by simpa using apart⟩

theorem excused_shedPane (conn : ConnOutbox Stamp) (key : PaneSeedKey) :
    (conn.shedPane key).Excused key := by
  cases up : conn.barrier with
  | none =>
      left
      rw [shedPane_live key up]
      exact List.mem_insert_self
  | some seed =>
      right
      refine ⟨_, shedPane_barrier key up, ?_⟩
      by_cases waits : seed.manifest key = some .pending
      · exact .inr waits
      · left
        simp only [purgeCatchUpPane]
        by_cases stale : key ∈ seed.outdated
        · simp [stale]
        · simp [waits, stale]

theorem Excused.shedPane (excuse : conn.Excused key) (other : PaneSeedKey) :
    (conn.shedPane other).Excused key := by
  cases up : conn.barrier with
  | none =>
      rcases excuse with waiting | ⟨seed, raised, _⟩
      · left
        rw [shedPane_live other up]
        exact List.mem_insert_of_mem waiting
      · rw [up] at raised
        cases raised
  | some seed =>
      rcases excuse with waiting | ⟨own, raised, why⟩
      · left
        rw [shedPane_behind other up]
        exact waiting
      · cases up.symm.trans raised
        right
        refine ⟨_, shedPane_barrier other up, ?_⟩
        rcases why with stale | pending
        · left
          simp only [purgeCatchUpPane]
          split_ifs
          · exact List.mem_cons_of_mem _ stale
          · exact stale
        · exact .inr pending

theorem shedPane_coalesced (conn : ConnOutbox Stamp) (other : PaneSeedKey) :
    (conn.shedPane other).coalesced = conn.coalesced := by
  cases up : conn.barrier with
  | none => rw [shedPane_live other up]; rfl
  | some seed => rw [shedPane_behind other up]; rfl

theorem Covers.shedPane (covers : conn.Covers written key demanded) {pushed : List Stamp}
    {clock : Nat} (ord : conn.Orderly written pushed clock)
    (outputs : ∀ stamp, demanded stamp → stamp.OutputOf key) (other : PaneSeedKey) :
    (conn.shedPane other).Covers written key demanded := by
  by_cases own : other = key
  · subst own
    exact .inl (excused_shedPane conn other)
  · apply covers.mono
    · exact fun excuse => excuse.shedPane other
    · intro stamp demand retained
      have output := outputs stamp demand
      apply retained.mono
      · intro frame member shown
        apply mem_shedPane_outbox member
        rw [(ord.outbox frame member).pane, shown, output.transcript]
        exact fun same => own (Option.some.inj same).symm
      · intro frame member shown
        apply mem_shedPane_catchUp member
        rw [(ord.catchUpTagged frame member).delta, shown, output.delta]
        exact fun same => own (Option.some.inj same).symm
      · rw [shedPane_coalesced]
        exact List.Subset.refl _

theorem Covers.sheds (covers : conn.Covers written key demanded) {pushed : List Stamp}
    {clock : Nat} (ord : conn.Orderly written pushed clock) (sound : conn.BarrierSound)
    (outputs : ∀ stamp, demanded stamp → stamp.OutputOf key) {last : ConnOutbox Stamp}
    (sheds : Sheds conn last) : last.Covers written key demanded := by
  induction sheds with
  | refl => exact covers
  | shed other _ _ ih =>
      exact ih (covers.shedPane ord outputs other) (ord.shedPane sound other)
        (sound.shedPane other)

end shed

section push

variable {bytes : EncodedOutput Stamp} {delta : SeedDelta} {replacement : Option ReplacementKey}
  {result : ConnOutbox Stamp × ClientFrameResult} {pushed : List Stamp} {clock : Nat}

theorem Retains.replacedAt {stamp : Stamp} (retained : conn.Retains written stamp)
    {position : Nat} {frame : OutboxFrame Stamp} (present : conn.outbox[position]? = some frame)
    (keyed : frame.bytes.content.key ≠ none)
    (same : bytes.content.key = frame.bytes.content.key)
    (later : frame.bytes.content.tick < bytes.content.tick) :
    (conn.replacedAt position frame bytes).Retains written stamp := by
  by_cases taken : frame.bytes.content = stamp
  · refine .inr (.inr (.inr ⟨bytes.content, ?_, taken ▸ keyed, taken ▸ same, taken ▸ later⟩))
    rw [← taken]
    exact List.mem_append_right _ (List.mem_singleton_self _)
  · apply retained.mono
    · intro other member shown
      change other ∈ conn.outbox.set position { frame with bytes }
      rcases List.mem_iff_getElem?.mp member with ⟨place, found⟩
      have apart : position ≠ place := by
        rintro rfl
        rw [present] at found
        exact taken (Option.some.inj found ▸ shown)
      apply List.mem_iff_getElem?.mpr
      exact ⟨place, by rw [List.getElem?_set_ne apart, found]⟩
    · exact fun other member _ => member
    · exact List.subset_append_left _ _

theorem Retains.replacedCatchUp {stamp : Stamp} (retained : conn.Retains written stamp)
    {seed : AttachSeedState Stamp} {position : Nat} {frame new : CatchUpFrame Stamp}
    (shown : conn.seed = some seed) (present : seed.catchUp[position]? = some frame)
    (keyed : frame.bytes.content.key ≠ none)
    (same : new.bytes.content.key = frame.bytes.content.key)
    (later : frame.bytes.content.tick < new.bytes.content.tick) :
    (conn.replacedCatchUp seed position frame new).Retains written stamp := by
  by_cases taken : frame.bytes.content = stamp
  · refine .inr (.inr (.inr ⟨new.bytes.content, ?_, taken ▸ keyed, taken ▸ same, taken ▸ later⟩))
    rw [← taken]
    exact List.mem_append_right _ (List.mem_singleton_self _)
  · apply retained.mono
    · exact fun other member _ => member
    · intro other member isStamp
      rw [catchUpFrames_of_seed shown] at member
      change other ∈ seed.catchUp.set position new
      rcases List.mem_iff_getElem?.mp member with ⟨place, found⟩
      have apart : position ≠ place := by
        rintro rfl
        rw [present] at found
        exact taken (Option.some.inj found ▸ isStamp)
      apply List.mem_iff_getElem?.mpr
      exact ⟨place, by rw [List.getElem?_set_ne apart, found]⟩
    · exact List.subset_append_left _ _

theorem Covers.landed (covers : conn.Covers written key demanded)
    (ord : conn.Orderly written pushed clock)
    (outputs : ∀ stamp, demanded stamp → stamp.OutputOf key)
    (carries : Orderly.Carries bytes delta replacement)
    (new : Newest conn written pushed clock bytes.content)
    (landing : Landing conn bytes delta replacement result) :
    result.1.Covers written key demanded := by
  cases landing with
  | precedes _ _ _ => exact covers
  | behind _ _ => exact covers.grow (List.Subset.refl _) rfl rfl rfl
  | outdated _ _ _ => exact covers.grow (List.Subset.refl _) rfl rfl rfl
  | @replaced own position frame _ keyed present named _ _ =>
      have tagged := ord.outbox frame (List.mem_of_getElem? present)
      have newKey : bytes.content.key = some own := carries.key.trans keyed
      have oldKey : frame.bytes.content.key = some own := tagged.key.symm.trans named
      have before : frame.bytes.content ∈ written ++ conn.stamps :=
        List.mem_append_right _ (List.mem_append_left _ (List.mem_append_left _
          (List.mem_map_of_mem (List.mem_of_getElem? present))))
      apply covers.mono
      · exact fun excuse => excuse.congr rfl rfl
      · intro stamp _ retained
        apply retained.replacedAt present
        · rw [oldKey]
          exact Option.some_ne_none own
        · exact newKey.trans oldKey.symm
        · exact new.newest _ before
  | queued _ _ => exact covers.grow (List.subset_append_left _ _) rfl rfl rfl
  | starved _ _ _ =>
      apply covers.mono
      · intro excuse
        rcases excuse with waiting | behind
        · exact .inl (List.mem_insert_of_mem waiting)
        · exact .inr behind
      · intro stamp _ retained
        exact retained.mono (fun _ member _ => member) (fun _ member _ => member)
          (List.Subset.refl _)
  | shedSelf _ _ =>
      exact (covers.shedPane ord outputs _).grow (List.Subset.refl _) rfl rfl rfl
  | overflowed _ => exact covers.updateSeed fun _ => ⟨rfl, rfl, rfl, rfl⟩
  | @replacedCatchUp seed own position frame up keyed present named _ =>
      have shown := (barrier_eq_some.mp up).1
      have member : frame ∈ conn.catchUpFrames := by
        rw [catchUpFrames_of_seed shown]
        exact List.mem_of_getElem? present
      have newKey : bytes.content.key = some own := carries.key.trans keyed
      have oldKey : frame.bytes.content.key = some own :=
        (ord.catchUpTagged frame member).key.symm.trans named
      have before : frame.bytes.content ∈ written ++ conn.stamps :=
        List.mem_append_right _ (List.mem_append_right _ (List.mem_map_of_mem member))
      apply covers.mono
      · intro excuse
        rcases excuse with waiting | ⟨other, raised, why⟩
        · exact .inl waiting
        · cases up.symm.trans raised
          exact .inr ⟨_, barrier_eq_some.mpr ⟨rfl, (barrier_eq_some.mp up).2⟩, why⟩
      · intro stamp _ retained
        apply retained.replacedCatchUp shown present
        · rw [oldKey]
          exact Option.some_ne_none own
        · exact newKey.trans oldKey.symm
        · exact new.newest _ before
  | @appended seed up _ _ =>
      have shown := (barrier_eq_some.mp up).1
      apply covers.mono
      · intro excuse
        rcases excuse with waiting | ⟨other, raised, why⟩
        · exact .inl waiting
        · cases up.symm.trans raised
          exact .inr ⟨_, barrier_eq_some.mpr ⟨rfl, (barrier_eq_some.mp up).2⟩, why⟩
      · intro stamp _ retained
        apply retained.mono
        · exact fun frame member _ => member
        · intro frame member _
          rw [catchUpFrames_of_seed shown] at member
          exact List.mem_append_left _ member
        · exact List.Subset.refl _

theorem Landing.covers_own (written : List Stamp) (output : bytes.content.OutputOf key)
    (carries : Orderly.Carries bytes delta replacement)
    (fits : result.2 ≠ .overflow) (landing : Landing conn bytes delta replacement result) :
    result.1.Excused key ∨ result.1.Retains written bytes.content := by
  have named : delta = .paneOutput key := carries.delta.symm.trans output.delta
  cases landing with
  | precedes up own waiting =>
      cases named.symm.trans own
      exact .inl (.inr ⟨_, up, .inr waiting⟩)
  | behind own waiting =>
      rw [named] at own
      cases own
      exact .inl (.inl waiting)
  | outdated up own behind =>
      rw [named] at own
      cases own
      exact .inl (.inr ⟨_, up, .inl behind⟩)
  | @replaced _ position frame _ _ present _ _ _ =>
      right
      refine .inr (.inl ⟨{ frame with bytes }, ?_, rfl⟩)
      rcases List.getElem?_eq_some_iff.mp present with ⟨inside, _⟩
      exact List.mem_set inside _
  | queued _ _ =>
      exact .inr (.inr (.inl ⟨_, List.mem_append_right _ (List.mem_singleton_self _), rfl⟩))
  | starved _ own _ =>
      rw [named] at own
      cases own
      exact .inl (.inl List.mem_insert_self)
  | shedSelf _ own =>
      rw [named] at own
      cases own
      exact .inl ((excused_shedPane conn key).congr rfl rfl)
  | overflowed _ => exact absurd rfl fits
  | @replacedCatchUp seed _ position frame _ _ present _ _ =>
      right
      refine .inr (.inr (.inl ⟨{ replacement, bytes, delta }, ?_, rfl⟩))
      rcases List.getElem?_eq_some_iff.mp present with ⟨inside, _⟩
      exact List.mem_set inside _
  | appended _ _ _ =>
      right
      exact .inr (.inr (.inl ⟨_, List.mem_append_right _ (List.mem_singleton_self _), rfl⟩))

end push

section pump

variable {seed : AttachSeedState Stamp} {input : PumpInput Stamp}

theorem Covers.enqueued (covers : conn.Covers written key demanded) (bytes : EncodedOutput Stamp)
    (frameClass : OutboxClass) (pane : Option PaneSeedKey) (replacement : Option ReplacementKey) :
    (conn.enqueued bytes frameClass pane replacement).Covers written key demanded :=
  covers.grow (List.subset_append_left _ _) rfl rfl rfl

/-- The seed `before` gives way to one with the same queue, in which no pane is pending any more but
those that were, less some that are not `key`. -/
theorem Covers.reseeded (covers : conn.Covers written key demanded)
    {before after : AttachSeedState Stamp} (up : conn.barrier = some before)
    (now : next.seed = some after) (raised : after.baselineQueued = false)
    (outbox : next.outbox = conn.outbox) (coalesced : next.coalesced = conn.coalesced)
    (waiting : next.resyncPending = conn.resyncPending) (catchUp : after.catchUp = before.catchUp)
    (outdated : after.outdated = before.outdated)
    (pending : before.manifest key = some .pending → after.manifest key = some .pending) :
    next.Covers written key demanded := by
  apply covers.mono
  · intro excuse
    rcases excuse with waits | ⟨own, still, why⟩
    · exact .inl (waiting ▸ waits)
    · cases up.symm.trans still
      right
      refine ⟨after, barrier_eq_some.mpr ⟨now, raised⟩, ?_⟩
      rcases why with stale | exported
      · exact .inl (outdated ▸ stale)
      · exact .inr (pending exported)
  · intro stamp _ retained
    apply retained.mono
    · exact fun frame member _ => outbox ▸ member
    · intro frame member _
      rw [catchUpFrames_of_seed (barrier_eq_some.mp up).1] at member
      rw [catchUpFrames_of_seed now, catchUp]
      exact member
    · rw [coalesced]
      exact List.Subset.refl _

theorem Covers.beginPaneReplay (covers : conn.Covers written key demanded)
    (up : conn.barrier = some seed) {other : PaneSeedKey} (apart : key ≠ other)
    (snapshot : Option (PaneSnapshot Stamp)) :
    (conn.beginPaneReplay other snapshot).Covers written key demanded := by
  have present := barrier_eq_some.mp up
  cases snapshot with
  | none =>
      have now : (conn.beginPaneReplay other none).seed = some { seed with
          pending := seed.pending.tail
          manifest := fun key => if key = other then some .catchingUp else seed.manifest key } := by
        simp only [ConnOutbox.beginPaneReplay, ConnOutbox.updateSeed, present.1, Option.map_some]
      exact covers.reseeded up now present.2 rfl rfl rfl rfl rfl
        fun pending => by simpa [apart] using pending
  | some exported =>
      have now : (conn.beginPaneReplay other (some exported)).seed = some { seed with
          pending := seed.pending.tail
          manifest := fun key => if key = other then some .replaying else seed.manifest key
          replay := some {
            key := other
            resetFrame := exported.resetFrame
            content := exported.content
            remaining := exported.replayLen } } := by
        simp only [ConnOutbox.beginPaneReplay, ConnOutbox.updateSeed, present.1, Option.map_some]
      exact covers.reseeded up now present.2 rfl rfl rfl rfl rfl
        fun pending => by simpa [apart] using pending

theorem Covers.finishPaneReplay (covers : conn.Covers written key demanded)
    (sound : conn.BarrierSound) (up : conn.barrier = some seed) {replay : PaneSeedReplay Stamp}
    (replaying : seed.replay = some replay) :
    (conn.finishPaneReplay replay).Covers written key demanded := by
  have present := barrier_eq_some.mp up
  have now : (conn.finishPaneReplay replay).seed = some { seed with
      replay := none
      manifest := fun key => if key = replay.key then some .catchingUp else seed.manifest key } := by
    simp only [ConnOutbox.finishPaneReplay, ConnOutbox.updateSeed, present.1, Option.map_some]
  apply covers.reseeded up now present.2 rfl rfl rfl rfl rfl
  intro pending
  have exported := (sound.of_barrier up).exported replay replaying
  have apart : key ≠ replay.key := by
    intro same
    exact exported (same ▸ pending)
  simpa [apart] using pending

theorem Covers.caughtUp (covers : conn.Covers written key demanded)
    (up : conn.barrier = some seed) {front : CatchUpFrame Stamp} {rest : List (CatchUpFrame Stamp)}
    (queued : seed.catchUp = front :: rest) :
    (conn.caughtUp seed front).Covers written key demanded := by
  have present := barrier_eq_some.mp up
  have now : (conn.caughtUp seed front).seed = some (popCatchUp seed front.bytes.len) := by
    simp only [ConnOutbox.caughtUp, ConnOutbox.updateSeed, ConnOutbox.enqueued, charge, present.1,
      Option.map_some]
  have popped : (popCatchUp seed front.bytes.len).catchUp = rest ∧
      (popCatchUp seed front.bytes.len).baselineQueued = seed.baselineQueued ∧
      (popCatchUp seed front.bytes.len).outdated = seed.outdated ∧
      (popCatchUp seed front.bytes.len).manifest = seed.manifest := by
    simp only [popCatchUp, queued, and_self]
  apply covers.mono
  · intro excuse
    rcases excuse with waiting | ⟨own, still, why⟩
    · exact .inl waiting
    · cases up.symm.trans still
      rw [← popped.2.2.1, ← popped.2.2.2] at why
      exact .inr ⟨_, barrier_eq_some.mpr ⟨now, popped.2.1.trans present.2⟩, why⟩
  · intro stamp _ retained
    rcases retained with done | ⟨frame, member, shown⟩ | ⟨frame, member, shown⟩ | later
    · exact .inl done
    · exact .inr (.inl ⟨frame, List.mem_append_left _ member, shown⟩)
    · rw [catchUpFrames_of_seed present.1, queued] at member
      rcases List.mem_cons.mp member with rfl | behind
      · exact .inr (.inl ⟨_, List.mem_append_right _ (List.mem_singleton_self _), shown⟩)
      · right
        right
        left
        refine ⟨frame, ?_, shown⟩
        rw [catchUpFrames_of_seed now, popped.1]
        exact behind
    · exact .inr (.inr (.inr later))

/-- Once the baseline is queued, the panes outdated behind it wait for a resync. -/
theorem Covers.completeAttachBaseline (covers : conn.Covers written key demanded)
    (sound : conn.BarrierSound) (up : conn.barrier = some seed) (exported : seed.pending = []) :
    (conn.completeAttachBaseline seed).Covers written key demanded := by
  have present := barrier_eq_some.mp up
  apply covers.mono
  · intro excuse
    left
    rcases excuse with waiting | ⟨own, still, why⟩
    · exact List.mem_union_iff.mpr (.inl waiting)
    · cases up.symm.trans still
      rcases why with stale | pending
      · exact List.mem_union_iff.mpr (.inr stale)
      · have waits := ((sound.of_barrier up).waits present.2 key).mpr pending
        rw [exported] at waits
        cases waits
  · intro stamp _ retained
    apply retained.mono
    · exact fun frame member _ => member
    · intro frame member _
      rw [catchUpFrames_of_seed present.1] at member
      exact member
    · exact List.Subset.refl _

theorem Covers.pumped (covers : conn.Covers written key demanded) (sound : conn.BarrierSound)
    (up : conn.barrier = some seed) {begun : Option PaneSeedKey} (apart : begun ≠ some key)
    (outcome : PumpOutcome conn seed input begun next) : next.Covers written key demanded := by
  cases outcome with
  | idle => exact covers
  | statusDone => exact covers.updateSeed fun _ => ⟨rfl, rfl, rfl, rfl⟩
  | statusCut _ => exact covers.updateSeed fun _ => ⟨rfl, rfl, rfl, rfl⟩
  | @statusSent frame _ _ =>
      have cut : (conn.cutProgramStatus frame).Covers written key demanded :=
        covers.updateSeed fun _ => ⟨rfl, rfl, rfl, rfl⟩
      exact (cut.enqueued frame .seedReplay none none).updateSeed fun _ => ⟨rfl, rfl, rfl, rfl⟩
  | resetSent _ _ _ =>
      exact (covers.enqueued _ _ _ _).updateSeed fun _ => ⟨rfl, rfl, rfl, rfl⟩
  | finished replaying _ => exact covers.finishPaneReplay sound up replaying
  | chunkSent _ _ _ _ =>
      exact (covers.enqueued _ _ _ _).updateSeed fun _ => ⟨rfl, rfl, rfl, rfl⟩
  | began _ _ => exact covers.beginPaneReplay up (fun same => apart (same ▸ rfl)) _
  | caughtUp _ _ queued _ => exact covers.caughtUp up queued
  | completed _ exported _ => exact covers.completeAttachBaseline sound up exported

end pump

theorem Covers.startClientResync (covers : conn.Covers written key demanded)
    {live : List PaneSeedKey} (alive : key ∈ conn.resyncPending → key ∈ live) :
    (conn.startClientResync live).Covers written key demanded := by
  rcases BarrierSound.startClientResync_cases conn live with
    same | ⟨free, changed, gone⟩ | ⟨free, changed⟩
  · rw [same]
    exact covers
  · rw [changed]
    apply covers.mono
    · intro excuse
      rcases excuse with waiting | ⟨seed, up, _⟩
      · exact absurd (alive waiting) (gone key waiting)
      · cases free.symm.trans (barrier_eq_some.mp up).1
    · intro stamp _ retained
      exact retained.mono (fun _ member _ => member) (fun _ member _ => member)
        (List.Subset.refl _)
  · rw [changed]
    apply covers.mono
    · intro excuse
      right
      rcases excuse with waiting | ⟨seed, up, _⟩
      · refine ⟨_, barrier_eq_some.mpr ⟨rfl, rfl⟩, .inr ?_⟩
        have stale : key ∈ conn.resyncPending.filter fun key => live.contains key :=
          List.mem_filter.mpr ⟨waiting, by simpa using alive waiting⟩
        simp only [AttachSeedState.resync, AttachSeedState.begin, if_pos stale, Option.some_or]
      · cases free.symm.trans (barrier_eq_some.mp up).1
    · intro stamp _ retained
      apply retained.mono
      · exact fun _ member _ => member
      · intro frame member _
        simp [catchUpFrames, free] at member
      · exact List.Subset.refl _

theorem Covers.flushed (covers : conn.Covers written key demanded) {front : OutboxFrame Stamp}
    {rest : List (OutboxFrame Stamp)} {bytes : Nat} (queued : conn.outbox = front :: rest)
    (outcome : FlushOutcome conn front rest bytes next) :
    next.Covers
      (written ++ if next.outboxBase = conn.outboxBase then [] else [front.bytes.content])
      key demanded := by
  have retained : ∀ stamp, conn.Retains written stamp → next.Retains
      (written ++ if next.outboxBase = conn.outboxBase then [] else [front.bytes.content])
      stamp := by
    intro stamp kept
    rcases kept with done | ⟨frame, member, shown⟩ | ⟨frame, member, shown⟩ | later
    · exact .inl (List.mem_append_left _ done)
    · rw [queued] at member
      cases outcome with
      | @advanced prepared ready _ =>
          right
          left
          rcases List.mem_cons.mp member with rfl | behind
          · exact ⟨prepared, List.mem_cons_self, ready.content.trans shown⟩
          · exact ⟨frame, List.mem_cons_of_mem _ behind, shown⟩
      | @popped prepared ready _ _ =>
          have moved : ¬ conn.outboxBase + 1 = conn.outboxBase := by omega
          rcases List.mem_cons.mp member with rfl | behind
          · left
            apply List.mem_append_right
            change stamp ∈ if conn.outboxBase + 1 = conn.outboxBase then [] else _
            rw [if_neg moved, shown]
            exact List.mem_singleton_self _
          · exact .inr (.inl ⟨frame, behind, shown⟩)
    · right
      right
      left
      cases outcome with
      | advanced _ _ => exact ⟨frame, member, shown⟩
      | popped _ _ _ => exact ⟨frame, member, shown⟩
    · right
      right
      right
      cases outcome with
      | advanced _ _ => exact later
      | popped _ _ _ => exact later
  rcases covers with excuse | kept
  · left
    cases outcome with
    | advanced _ _ => exact excuse.congr rfl rfl
    | popped _ _ _ => exact excuse.congr rfl rfl
  · exact .inr fun stamp demand => retained stamp (kept stamp demand)

theorem Covers.takeCompletedSeed (covers : conn.Covers written key demanded)
    (sound : conn.BarrierSound) {seed : AttachSeedState Stamp}
    (completed : conn.takeCompletedSeed = some (seed, next)) :
    next.Covers written key demanded := by
  rcases takeCompletedSeed_some completed with ⟨present, queued, _, _, changed⟩
  have down : conn.barrier = none := barrier_eq_none.mpr fun own same => by
    cases present.symm.trans same
    exact queued
  rw [changed]
  apply covers.mono
  · intro excuse
    rcases excuse with waiting | ⟨own, up, _⟩
    · exact .inl waiting
    · rw [down] at up
      cases up
  · intro stamp _ retained
    apply retained.mono
    · exact fun _ member _ => member
    · intro frame member _
      rw [(sound.behind_empty down).2] at member
      cases member
    · exact List.Subset.refl _

end ConnOutbox

namespace DeliveryState

/-- The output of the pane pushed after its most recent snapshot, or all of it when there was
none. -/
def Demanded (state : DeliveryState) (key : PaneSeedKey) (stamp : Stamp) : Prop :=
  stamp ∈ state.pushed ∧ stamp.OutputOf key ∧
    ∀ snapshot ∈ state.pushed, snapshot.snapshot = true → snapshot.pane = stamp.pane →
      snapshot.tick < stamp.tick

def StaysLive (key : PaneSeedKey) (state : DeliveryState) : DeliveryLabel → Prop
  | .startResync live => key ∈ state.conn.resyncPending → key ∈ live
  | .pump _ exported _ => state.conn.nextExport = some key → exported ≠ none
  | .attach _ _ | .push _ _ _ _ _ | .ping _ | .flush _ _ | .takeCompleted => True

variable {state next : DeliveryState} {label : DeliveryLabel} {key : PaneSeedKey}

theorem Demanded.outputOf {stamp : Stamp} (demand : state.Demanded key stamp) :
    stamp.OutputOf key :=
  demand.2.1

/-- A stamp demanded after more was pushed is new or was demanded before. -/
theorem Demanded.of_append {more : List Stamp} {stamp : Stamp}
    (grown : next.pushed = state.pushed ++ more) (demand : next.Demanded key stamp) :
    stamp ∈ more ∨ state.Demanded key stamp := by
  rcases demand with ⟨issued, output, latest⟩
  rw [grown] at issued latest
  rcases List.mem_append.mp issued with old | new
  · right
    refine ⟨old, output, ?_⟩
    intro snapshot member
    exact latest snapshot (List.mem_append_left _ member)
  · exact .inl new

theorem covers_quiet (same : next.pushed = state.pushed)
    (covers : next.conn.Covers next.written key (state.Demanded key)) :
    next.conn.Covers next.written key (next.Demanded key) := by
  apply covers.imp id
  intro retained stamp demand
  have grown : next.pushed = state.pushed ++ [] := by rw [same, List.append_nil]
  rcases demand.of_append grown with none | before
  · cases none
  · exact retained stamp before

theorem pushDelta_fits {conn : ConnOutbox Stamp} {bytes : EncodedOutput Stamp} {delta : SeedDelta}
    {replacement : Option ReplacementKey} {mediaWithinBudget : Bool}
    (fits : (conn.pushDelta bytes delta maxBacklog replacement mediaWithinBudget).2 ≠ .overflow) :
    (conn.pushDeltaInner bytes delta maxBacklog replacement).2 ≠ .overflow := by
  intro overflow
  apply fits
  unfold pushDelta
  simp only
  split_ifs
  · exact overflow
  · rfl

theorem Sound.covers_push (sound : state.Sound)
    (covers : state.conn.Covers state.written key (state.Demanded key)) (outbound : Outbound)
    {len : Nat} (media : List Nat) (scope : Option PresentationKey) (mediaWithinBudget : Bool)
    (framed : 0 < len)
    (fits : (state.pushing outbound len media scope mediaWithinBudget).2 ≠ .overflow)
    (grown : next.pushed = state.pushed ++ [outbound.stamp state.clock]) :
    (state.pushing outbound len media scope mediaWithinBudget).1.Covers state.written key
      (next.Demanded key) := by
  have carries := carries_push outbound media scope state.clock framed
  have inner := pushDelta_fits fits
  simp only [pushing]
  rw [pushDelta_fst]
  rcases pushDeltaInner_lands sound.acc
      { content := outbound.stamp state.clock, len, media, scope } outbound.delta
      outbound.replacement with ⟨last, sheds, landing⟩
  have outputs : ∀ stamp, state.Demanded key stamp → stamp.OutputOf key :=
    fun stamp demand => demand.outputOf
  have orderly : last.Orderly state.written (state.pushed ++ [outbound.stamp state.clock])
      (state.clock + 1) :=
    ((sound.grown outbound).sheds sound.barrier sheds).1
  have newest := (sound.newest outbound).mono sheds.stamps_sublist
  have kept := (covers.sheds sound.orderly sound.barrier outputs sheds).landed orderly outputs
    carries newest landing
  rcases kept with excuse | retained
  · exact .inl excuse
  · by_cases own : (outbound.stamp state.clock).OutputOf key
    · rcases landing.covers_own state.written own carries inner with excuse | queued
      · exact .inl excuse
      · right
        intro stamp demand
        rcases demand.of_append grown with new | before
        · rw [List.mem_singleton.mp new]
          exact queued
        · exact retained stamp before
    · right
      intro stamp demand
      rcases demand.of_append grown with new | before
      · rw [List.mem_singleton.mp new] at demand
        exact absurd demand.outputOf own
      · exact retained stamp before

theorem Sound.demanded_exported (sound : state.Sound) {lengths : ExportLengths}
    (begins : state.conn.nextExport = some key)
    (grown : next.pushed = state.pushed ++ state.exportStamps (some lengths)) (stamp : Stamp) :
    ¬ next.Demanded key stamp := by
  intro demand
  have begun : state.exportStamps (some lengths) = lengths.stamps state.clock key := by
    simp only [exportStamps, begins]
  have exported : resetStamp state.clock key ∈ next.pushed := by
    rw [grown, begun]
    exact List.mem_append_right _ List.mem_cons_self
  have later : state.clock < stamp.tick :=
    demand.2.2 _ exported rfl demand.outputOf.1.symm
  rcases demand.of_append grown with new | before
  · rw [begun] at new
    rw [(ExportLengths.shown_of_stamps new).1] at later
    exact Nat.lt_irrefl _ later
  · exact absurd (sound.orderly.issued stamp before.1) (by omega)

theorem Sound.covers_pump (sound : state.Sound)
    (covers : state.conn.Covers state.written key (state.Demanded key)) (remaining : Nat)
    {exported : Option ExportLengths} {status : Option Nat}
    (live : state.conn.nextExport = some key → exported ≠ none)
    (grown : next.pushed = state.pushed ++ state.exportStamps exported) :
    (state.conn.pumpWork (state.pumpInput remaining exported status)).Covers state.written key
      (next.Demanded key) := by
  -- What an export of another pane pushes is no output.
  have owed : ∀ stamp, next.Demanded key stamp → state.Demanded key stamp := by
    intro stamp demand
    rcases demand.of_append grown with new | before
    · rcases demand.outputOf with ⟨_, metadata, kind⟩
      unfold exportStamps at new
      split at new
      · have cut := (ExportLengths.shown_of_stamps new).2.2
        simp [Stamp.snapshot, Stamp.part, kind] at cut
      · cases new
    · exact before
  have kept := covers.imp id fun retained stamp demand => retained stamp (owed stamp demand)
  cases up : state.conn.barrier with
  | none =>
      have idle : state.conn.pumpWork (state.pumpInput remaining exported status) =
          state.conn := by
        unfold pumpWork
        rw [up]
      rw [idle]
      exact kept
  | some seed =>
      by_cases begins : state.conn.nextExport = some key
      · right
        intro stamp demand
        cases exported with
        | none => exact absurd rfl (live begins)
        | some lengths => exact absurd demand (sound.demanded_exported begins grown stamp)
      · have outcome := pumpWork_outcome sound.acc.opened sound.acc.capped up
          (state.pumpInput remaining exported status)
        exact Covers.pumped kept sound.barrier up begins outcome

theorem Sound.covers_step (sound : state.Sound)
    (covers : state.conn.Covers state.written key (state.Demanded key))
    (live : StaysLive key state label) (moved : state.Step label next)
    (fits : next.overflowed = false) :
    next.conn.Covers next.written key (next.Demanded key) := by
  cases moved with
  | attach statuses fresh _ =>
      right
      intro stamp demand
      have unlaned := (sound.unattached fresh).2.2 stamp demand.1
      rw [demand.outputOf.1] at unlaned
      cases unlaned
  | push media scope mediaWithinBudget _ framed =>
      apply sound.covers_push covers _ media scope mediaWithinBudget framed _ rfl
      intro overflow
      simp [overflow] at fits
  | ping _ room =>
      rw [(tryPushClass_some sound.acc.opened room).2]
      exact covers_quiet rfl (covers.enqueued _ _ _ _)
  | startResync _ _ => exact covers_quiet rfl (covers.startClientResync live)
  | pump remaining _ _ => exact sound.covers_pump covers remaining live rfl
  | flush queued _ wrote =>
      exact covers_quiet rfl (covers.flushed queued (flushFront_outcome queued wrote))
  | takeCompleted completed => exact covers_quiet rfl (covers.takeCompletedSeed sound.barrier completed)

/-- Of a pane that stays live no output is lost while no push overflows: it is written, is queued, or
gave way to a later frame with its key, or else a replay of the pane is still to come. -/
theorem no_output_lost (reached : deliveryRuns.ReachableWhen (StaysLive key) state)
    (fits : state.overflowed = false) :
    state.conn.Covers state.written key (state.Demanded key) := by
  suffices kept : state.Sound ∧
      (state.overflowed = false → state.conn.Covers state.written key (state.Demanded key)) from
    kept.2 fits
  apply reached.invariant
  · intro begun initially
    rw [show begun = {} from initially]
    refine ⟨sound_of_run (.begin rfl), fun _ => .inr ?_⟩
    intro stamp demand
    cases demand.1
  · intro before label after kept live moved
    refine ⟨kept.1.step moved, fun still => ?_⟩
    have earlier : before.overflowed = false := by
      cases moved with
      | push _ _ _ _ _ => exact (Bool.or_eq_false_iff.mp still).1
      | _ => exact still
    exact kept.1.covers_step (kept.2 earlier) live moved still

/-- A pane whose frames do not fit is shed and replayed, and its output behind the replay gives way to
a later push with its key. -/
theorem resynced_reachable : ∃ state, deliveryRuns.ReachableWhen (StaysLive ⟨1, 1⟩) state ∧
    state.overflowed = false ∧ state.conn.shedBytes = 10000000 ∧
      state.written = [resetStamp 3 ⟨1, 1⟩, replayStamp 3 ⟨1, 1⟩ 0] ∧
      state.Demanded ⟨1, 1⟩ ((graphics 1).stamp 4) := by
  have start : deliveryRuns.ReachableWhen (StaysLive ⟨1, 1⟩) ({} : DeliveryState) := .initial rfl
  have attached := start.next (.attach [] []) trivial (.attach [] rfl List.nodup_nil)
  have live := attached.next (.pump 0 none none) (fun begins => by cases begins)
    (.pump 0 (fun _ none => by cases none) fun _ none => by cases none)
  have taken := live.next .takeCompleted trivial (.takeCompleted rfl)
  have large := taken.next (.push (graphics 1) 5000000 [] none true) trivial
    (.push [] none true (.inl rfl) (by decide))
  have shed := large.next (.push (graphics 2) 5000000 [] none true) trivial
    (.push [] none true (.inl rfl) (by decide))
  have resync := shed.next (.startResync [⟨1, 1⟩]) (fun waits => waits) (.startResync _ rfl)
  have begun := resync.next (.pump 0 (some ⟨some 20, 3⟩) none) (fun _ none => by cases none)
    (.pump 0 (fun _ some _ given => by cases some; cases given; decide) fun _ none => by cases none)
  have late := begun.next (.push (graphics 1) 10 [] none true) trivial
    (.push [] none true (.inl rfl) (by decide))
  have reset := late.next (.pump 20 none none) (fun begins => by cases begins)
    (.pump 20 (fun _ none => by cases none) fun _ none => by cases none)
  have chunk := reset.next (.pump 80 none none) (fun begins => by cases begins)
    (.pump 80 (fun _ none => by cases none) fun _ none => by cases none)
  have newer := chunk.next (.push (graphics 1) 10 [] none true) trivial
    (.push [] none true (.inl rfl) (by decide))
  have first := newer.next (.flush none 20) trivial (.flush rfl (by decide) rfl)
  have second := first.next (.flush none 70) trivial (.flush rfl (by decide) rfl)
  refine ⟨_, second, rfl, rfl, rfl, ?_, ⟨rfl, _, rfl⟩, ?_⟩
  · decide
  · intro snapshot member isSnapshot
    revert snapshot
    decide

theorem no_output_lost_resynced : ∃ state : DeliveryState,
    state.conn.shedBytes = 10000000 ∧ state.Demanded ⟨1, 1⟩ ((graphics 1).stamp 4) ∧
      state.conn.Covers state.written ⟨1, 1⟩ (state.Demanded ⟨1, 1⟩) := by
  rcases resynced_reachable with ⟨state, reached, fits, shed, _, demanded⟩
  exact ⟨state, shed, demanded, no_output_lost reached fits⟩

end DeliveryState

end Rozi
