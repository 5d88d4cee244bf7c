import Rozi.Session.DeliverySound

/-!
A push keeps the queues of a client orderly: whatever it sheds, its frame goes behind everything of
its pane, or into the place of a frame with its key.
-/

namespace Rozi

open ReplacementQueue QueueBytes

namespace ConnOutbox

structure Newest (conn : ConnOutbox Stamp) (written pushed : List Stamp) (clock : Nat)
    (stamp : Stamp) : Prop where
  issued : stamp.pane ≠ none → stamp ∈ pushed
  past : stamp.tick < clock
  newest : ∀ other ∈ written ++ conn.stamps, other.tick < stamp.tick
  last : ∀ other ∈ pushed, other.tick ≤ stamp.tick
  only : ∀ other ∈ pushed, other.tick = stamp.tick → other = stamp
  ahead : ∀ other ∈ pushed, other.snapshot = true → other.tick < stamp.tick

theorem Newest.mono {conn next : ConnOutbox Stamp} {written pushed : List Stamp} {clock : Nat}
    {stamp : Stamp} (new : Newest conn written pushed clock stamp)
    (stamps : next.stamps.Sublist conn.stamps) : Newest next written pushed clock stamp :=
  { new with
    newest := fun other member =>
      new.newest other ((stamps.append_left written).subset member) }

namespace Orderly

variable {conn next : ConnOutbox Stamp} {written pushed : List Stamp} {clock : Nat}

theorem stamps_enqueued (conn : ConnOutbox Stamp) (bytes : EncodedOutput Stamp)
    (frameClass : OutboxClass) (pane : Option PaneSeedKey) (replacement : Option ReplacementKey) :
    written ++ (conn.enqueued bytes frameClass pane replacement).stamps =
      (written ++ conn.outbox.map fun frame => frame.bytes.content) ++ bytes.content ::
        (conn.replaying ++ conn.catchUpFrames.map fun frame => frame.bytes.content) := by
  simp [stamps, enqueued, charge, replaying, catchUpFrames]

theorem stamps_eq (conn : ConnOutbox Stamp) :
    written ++ conn.stamps =
      (written ++ conn.outbox.map fun frame => frame.bytes.content) ++
        (conn.replaying ++ conn.catchUpFrames.map fun frame => frame.bytes.content) := by
  simp [stamps]

theorem enqueued (ord : Orderly conn written pushed clock) {bytes : EncodedOutput Stamp}
    {frameClass : OutboxClass} {pane : Option PaneSeedKey} {replacement : Option ReplacementKey}
    (tagged : OutboxFrame.Tagged { bytes, frameClass, pane, replacement })
    (past : bytes.content.tick < clock) (issued : bytes.content.pane ≠ none →
      bytes.content ∈ pushed)
    (settled : ∀ key, conn.Excused key → pane = some key → frameClass = .seedReplay)
    (current : bytes.content.key ≠ none → ∀ snapshot ∈ pushed, snapshot.snapshot = true →
      snapshot.pane = bytes.content.pane → snapshot.tick < bytes.content.tick)
    (order : Unspanned pushed →
      (written ++ (conn.enqueued bytes frameClass pane replacement).stamps).Pairwise
        (LaneOrder.InOrder Stamp.reading pushed)) :
    Orderly (conn.enqueued bytes frameClass pane replacement) written pushed clock := by
  have members : ∀ stamp ∈ written ++ (conn.enqueued bytes frameClass pane replacement).stamps,
      stamp = bytes.content ∨ stamp ∈ written ++ conn.stamps := by
    intro stamp member
    rw [stamps_enqueued] at member
    rw [stamps_eq]
    simp only [List.mem_append, List.mem_cons] at member ⊢
    rcases member with before | same | behind
    · exact .inr (.inl before)
    · exact .inl same
    · exact .inr (.inr behind)
  exact
    { outbox := fun frame member => by
        rcases List.mem_append.mp member with old | new
        · exact ord.outbox frame old
        · rw [List.mem_singleton.mp new]
          exact tagged
      seeds := ord.seeds
      past := fun stamp member => by
        rcases members stamp member with rfl | old
        · exact past
        · exact ord.past stamp old
      issued := ord.issued
      known := fun stamp member => by
        rcases members stamp member with rfl | old
        · exact issued
        · exact ord.known stamp old
      spools := ord.spools
      settledOutbox := fun key excuse frame member shown => by
        rcases mem_sheddable_enqueued member with old | rfl
        · exact ord.settledOutbox key (excuse.congr rfl rfl) frame old shown
        · exact settled key (excuse.congr rfl rfl) shown
      settledCatchUp := fun key excuse => ord.settledCatchUp key (excuse.congr rfl rfl)
      current := fun stamp member => by
        rcases List.mem_append.mp member with queued | held
        · rcases List.mem_map.mp queued with ⟨frame, present, rfl⟩
          rcases mem_sheddable_enqueued present with old | rfl
          · exact ord.current _ (mem_replaceable_of_sheddable old)
          · exact current
        · exact ord.current stamp (List.mem_append_right _ held)
      order := order }

structure Carries (bytes : EncodedOutput Stamp) (delta : SeedDelta)
    (replacement : Option ReplacementKey) : Prop where
  key : bytes.content.key = replacement
  delta : bytes.content.delta = delta
  live : bytes.content.snapshot = false
  control : bytes.content.kind = .control → bytes.content.pane = none
  framed : 0 < bytes.len

variable {bytes : EncodedOutput Stamp} {delta : SeedDelta} {replacement : Option ReplacementKey}

theorem catchUpTagged (ord : Orderly conn written pushed clock) :
    ∀ frame ∈ conn.catchUpFrames, frame.Tagged := by
  intro frame holds
  cases present : conn.seed with
  | none => simp [catchUpFrames, present] at holds
  | some seed =>
      rw [catchUpFrames_of_seed present] at holds
      exact (ord.seeds seed present).catchUp frame holds

/-- A resize that passes the barrier shares its pane with nothing behind it. -/
theorem resize_apart (ord : Orderly conn written pushed clock) (sound : conn.BarrierSound)
    {seed : AttachSeedState Stamp} {key : PaneSeedKey} (up : conn.barrier = some seed)
    (waiting : seed.manifest key = some .pending) :
    ∀ stamp ∈ conn.replaying ++ conn.catchUpFrames.map fun frame => frame.bytes.content,
      stamp.pane ≠ some key.presentation := by
  have present := (barrier_eq_some.mp up).1
  have excuse : conn.Excused key := .inr ⟨seed, up, .inr waiting⟩
  intro stamp member shown
  rcases List.mem_append.mp member with replayed | held
  · rw [replaying_of_seed present] at replayed
    cases current : seed.replay with
    | none => simp [current] at replayed
    | some replay =>
        rw [current] at replayed
        rcases (ord.seeds seed present).replay replay current with ⟨_, _, exported⟩
        have own := exported.pane stamp replayed
        have same := Stamp.presentation_inj (Option.some.inj (own.symm.trans shown))
        exact (sound.of_barrier up).exported replay current (same ▸ waiting)
  · rcases List.mem_map.mp held with ⟨frame, holds, rfl⟩
    have tagged := ord.catchUpTagged frame holds
    have named := Stamp.delta_pane tagged.live tagged.control shown
    rw [← tagged.delta] at named
    exact ord.settledCatchUp key excuse frame holds named

theorem Carries.resize_pane (carries : Carries bytes delta replacement) {key : PaneSeedKey}
    (resize : delta = .paneResize key) : bytes.content.pane = some key.presentation := by
  have own := carries.delta.trans resize
  unfold Stamp.delta at own
  split at own
  · cases known : bytes.content.pane.bind PresentationKey.seedKey with
    | none => simp [known] at own
    | some other => simp [known] at own
  · cases known : bytes.content.pane.bind PresentationKey.seedKey with
    | none => simp [known] at own
    | some other =>
        have same : other = key := by simpa [known] using own
        rcases Option.bind_eq_some_iff.mp known with ⟨pane, shown, shared⟩
        rw [shown, Stamp.presentation_of_seedKey shared, same]
  all_goals cases own

theorem queued (ord : Orderly conn written pushed clock) (sound : conn.BarrierSound)
    (carries : Carries bytes delta replacement)
    (new : Newest conn written pushed clock bytes.content) (passes : conn.Passes delta)
    (clear : ∀ key, delta.outputPane = some key → key ∉ conn.resyncPending) :
    Orderly (conn.enqueued bytes .normal delta.outputPane replacement) written pushed clock := by
  apply ord.enqueued
  · exact
      { key := carries.key.symm
        pane := by rw [Stamp.transcript_of_delta carries.live, carries.delta]
        replayed := fun other => by cases other
        framed := carries.framed }
  · exact new.past
  · exact new.issued
  · intro key excuse own
    have down := passes.down_of_output own
    rcases excuse with waiting | ⟨seed, up, _⟩
    · exact absurd waiting (clear key own)
    · rw [down] at up
      cases up
  · exact fun _ snapshot issued isSnapshot _ => new.ahead snapshot issued isSnapshot
  · intro unspanned
    rw [stamps_enqueued]
    have ordered := ord.order unspanned
    have newest := new.newest
    rw [stamps_eq] at ordered newest
    apply LaneOrder.pairwise_insert ordered
    · exact fun old member => newest old (List.mem_append_left _ member)
    · intro later member sameLane
      rcases passes with down | ⟨seed, key, up, own, waiting⟩
      · have empty := sound.behind_empty down
        rw [empty.1, empty.2] at member
        cases member
      · have shown := carries.resize_pane own
        exact absurd (sameLane.symm.trans shown) (ord.resize_apart sound up waiting later member)

/-- Of the stamps up to the newest one, an ordered one of the pane is not newer than the frame the
newest may replace. -/
theorem unspanned_at (ord : Orderly conn written pushed clock) (unspanned : Unspanned pushed)
    {old stamp : Stamp} (new : Newest conn written pushed clock stamp)
    (keyed : stamp.key ≠ none) (same : old.key = stamp.key) (member : old ∈ conn.replaceable)
    (known : old ∈ pushed) (issued : stamp ∈ pushed) :
    ∀ item ∈ pushed, item.pane = old.pane → item.key = none → item.tick ≤ old.tick := by
  intro item pushedItem pane ordered
  have oldKeyed : old.key ≠ none := same ▸ keyed
  cases snapshot : item.snapshot with
  | true => exact (ord.current old member oldKeyed item pushedItem snapshot pane).le
  | false =>
      have rule := unspanned old known item pushedItem stamp issued oldKeyed same pane ordered
        snapshot
      have before := new.last item pushedItem
      rcases Nat.lt_or_eq_of_le before with earlier | together
      · omega
      · -- The newest stamp is the only one of its moment, and it carries a key.
        exact absurd (new.only item pushedItem together ▸ ordered) keyed

theorem replaced (ord : Orderly conn written pushed clock) (sound : conn.BarrierSound)
    (carries : Carries bytes delta replacement)
    (new : Newest conn written pushed clock bytes.content) {key : ReplacementKey} {position : Nat}
    {frame : OutboxFrame Stamp} (passes : conn.Passes delta) (keyed : replacement = some key)
    (present : conn.outbox[position]? = some frame) (own : frame.replacement = some key)
    (latest : ∀ later item, position < later → conn.outbox[later]? = some item →
      item.replacement ≠ some key)
    (unstarted : position ≠ 0 ∨ conn.frontStarted = false) :
    Orderly (conn.replacedAt position frame bytes) written pushed clock := by
  have sheddable := mem_sheddable_of_get present unstarted
  have tagged := ord.outbox frame (mem_of_sheddable sheddable)
  have newKey : bytes.content.key = some key := carries.key.trans keyed
  have oldKey : frame.bytes.content.key = some key := tagged.key.symm.trans own
  have sameKey : frame.bytes.content.key = bytes.content.key := oldKey.trans newKey.symm
  have samePane : frame.bytes.content.pane = bytes.content.pane := by
    rw [Stamp.pane_of_key oldKey, Stamp.pane_of_key newKey]
  have newKeyed : bytes.content.key ≠ none := by
    rw [newKey]
    exact Option.some_ne_none key
  have oldKeyed : frame.bytes.content.key ≠ none := sameKey ▸ newKeyed
  have down : conn.barrier = none := by
    rcases passes with down | ⟨_, other, _, resize, _⟩
    · exact down
    · have delta := carries.delta.trans resize
      rcases Stamp.kind_of_key newKeyed with ⟨metadata, kind⟩
      simp only [Stamp.delta, kind] at delta
      cases known : bytes.content.pane.bind PresentationKey.seedKey with
      | none => simp [known] at delta
      | some _ => simp [known] at delta
  have empty := sound.behind_empty down
  have issued : bytes.content ∈ pushed := by
    apply new.issued
    rw [Stamp.pane_of_key newKey]
    exact Option.some_ne_none _
  have newTagged : OutboxFrame.Tagged { frame with bytes } :=
    { key := own.trans newKey.symm
      pane := by
        rw [tagged.pane, Stamp.transcript_of_key oldKeyed, samePane,
          Stamp.transcript_of_key newKeyed]
      replayed := fun replay => absurd (tagged.replayed replay) oldKeyed
      framed := carries.framed }
  have flowBefore : written ++ conn.stamps =
      (written ++ (conn.outbox.take position).map fun frame => frame.bytes.content) ++
        frame.bytes.content ::
          (conn.outbox.drop (position + 1)).map fun frame => frame.bytes.content := by
    rw [stamps_eq, empty.1, empty.2]
    nth_rewrite 1 [LaneOrder.split_at present]
    simp
  have flowAfter : written ++ (conn.replacedAt position frame bytes).stamps =
      (written ++ (conn.outbox.take position).map fun frame => frame.bytes.content) ++
        bytes.content ::
          (conn.outbox.drop (position + 1)).map fun frame => frame.bytes.content := by
    have outbox : (conn.replacedAt position frame bytes).outbox =
        conn.outbox.set position { frame with bytes } := rfl
    have same : (conn.replacedAt position frame bytes).seed = conn.seed := rfl
    rw [stamps_eq, replaying_congr same, catchUpFrames_congr same, empty.1, empty.2, outbox,
      LaneOrder.set_split_at present]
    simp
  have members : ∀ stamp ∈ written ++ (conn.replacedAt position frame bytes).stamps,
      stamp = bytes.content ∨ stamp ∈ written ++ conn.stamps := by
    intro stamp member
    rw [flowAfter] at member
    rw [flowBefore]
    simp only [List.mem_append, List.mem_cons] at member ⊢
    rcases member with before | same | behind
    · exact .inr (.inl before)
    · exact .inl same
    · exact .inr (.inr (.inr behind))
  exact
    { outbox := fun item member => by
        rcases List.mem_or_eq_of_mem_set member with old | rfl
        · exact ord.outbox item old
        · exact newTagged
      seeds := ord.seeds
      past := fun stamp member => by
        rcases members stamp member with rfl | old
        · exact new.past
        · exact ord.past stamp old
      issued := ord.issued
      known := fun stamp member => by
        rcases members stamp member with rfl | old
        · exact new.issued
        · exact ord.known stamp old
      spools := ord.spools
      settledOutbox := fun key excuse item member shown => by
        rcases mem_sheddable_replacedAt present unstarted member with old | rfl
        · exact ord.settledOutbox key (excuse.congr rfl rfl) item old shown
        · exact ord.settledOutbox key (excuse.congr rfl rfl) frame sheddable shown
      settledCatchUp := fun key excuse => ord.settledCatchUp key (excuse.congr rfl rfl)
      current := fun stamp member => by
        rcases List.mem_append.mp member with queued | held
        · rcases List.mem_map.mp queued with ⟨item, holds, rfl⟩
          rcases mem_sheddable_replacedAt present unstarted holds with old | rfl
          · exact ord.current _ (mem_replaceable_of_sheddable old)
          · exact fun _ snapshot issued isSnapshot _ => new.ahead snapshot issued isSnapshot
        · exact ord.current stamp (List.mem_append_right _ held)
      order := fun unspanned => by
        have ordered := ord.order unspanned
        have newest := new.newest
        have known := ord.known
        rw [flowBefore] at ordered newest known
        rw [flowAfter]
        apply LaneOrder.pairwise_replace ordered
        · intro later member
          exact known later (List.mem_append_right _ (List.mem_cons_of_mem _ member))
        · exact newest
        · exact newKeyed
        · exact sameKey
        · exact samePane
        · exact Stamp.part_of_key oldKeyed
        · apply ord.unspanned_at unspanned new newKeyed sameKey
            (mem_replaceable_of_sheddable sheddable) _ issued
          apply known _ (List.mem_append_right _ List.mem_cons_self)
          rw [Stamp.pane_of_key oldKey]
          exact Option.some_ne_none _
        · intro later member
          rcases List.mem_map.mp member with ⟨item, holds, rfl⟩
          rcases LaneOrder.behind_split position holds with ⟨place, after, found⟩
          have differs := latest place item after found
          have itemTagged := ord.outbox item (List.mem_of_getElem? found)
          rw [itemTagged.key] at differs
          rw [← newKey] at differs
          exact differs }

theorem Carries.tagged (carries : Carries bytes delta replacement) :
    CatchUpFrame.Tagged { replacement, bytes, delta } where
  key := carries.key.symm
  delta := carries.delta.symm
  live := carries.live
  control := carries.control
  framed := carries.framed

structure Requeued (conn next : ConnOutbox Stamp) (before after : AttachSeedState Stamp) : Prop where
  up : conn.barrier = some before
  now : next.seed = some after
  outbox : next.outbox = conn.outbox
  offset : next.frontOffset = conn.frontOffset
  waiting : next.resyncPending = conn.resyncPending
  replay : after.replay = before.replay
  status : after.programStatusFrame = before.programStatusFrame
  manifest : after.manifest = before.manifest
  outdated : after.outdated = before.outdated

theorem Requeued.excused {before after : AttachSeedState Stamp}
    (requeued : Requeued conn next before after) {key : PaneSeedKey}
    (excuse : next.Excused key) : conn.Excused key := by
  rcases excuse with waiting | ⟨seed, up, why⟩
  · exact .inl (requeued.waiting ▸ waiting)
  · cases requeued.now.symm.trans (barrier_eq_some.mp up).1
    rw [requeued.outdated, requeued.manifest] at why
    exact .inr ⟨before, requeued.up, why⟩

theorem requeue (ord : Orderly conn written pushed clock) {before after : AttachSeedState Stamp}
    (requeued : Requeued conn next before after) (carries : Carries bytes delta replacement)
    (new : Newest conn written pushed clock bytes.content)
    (members : ∀ frame ∈ after.catchUp,
      frame = { replacement, bytes, delta } ∨ frame ∈ before.catchUp)
    (settled : ∀ key, conn.Excused key → delta.pane ≠ some key)
    (order : Unspanned pushed → (written ++ next.stamps).Pairwise
      (LaneOrder.InOrder Stamp.reading pushed)) :
    Orderly next written pushed clock := by
  have present := (barrier_eq_some.mp requeued.up).1
  have held : next.catchUpFrames = after.catchUp := catchUpFrames_of_seed requeued.now
  have heldBefore : conn.catchUpFrames = before.catchUp := catchUpFrames_of_seed present
  have replaying : next.replaying = conn.replaying := by
    rw [replaying_of_seed requeued.now, replaying_of_seed present, requeued.replay]
  have sheddable : next.sheddableOutbox = conn.sheddableOutbox := by
    unfold sheddableOutbox frontStarted
    rw [requeued.outbox, requeued.offset]
  have frames : ∀ frame ∈ next.catchUpFrames,
      frame = { replacement, bytes, delta } ∨ frame ∈ conn.catchUpFrames := by
    rw [held, heldBefore]
    exact members
  have stamps : ∀ stamp ∈ written ++ next.stamps,
      stamp = bytes.content ∨ stamp ∈ written ++ conn.stamps := by
    intro stamp member
    rw [stamps_eq, requeued.outbox, replaying] at member
    rw [stamps_eq]
    rcases List.mem_append.mp member with early | behind
    · exact .inr (List.mem_append_left _ early)
    · rcases List.mem_append.mp behind with replayed | late
      · exact .inr (List.mem_append_right _ (List.mem_append_left _ replayed))
      · rcases List.mem_map.mp late with ⟨frame, holds, rfl⟩
        rcases frames frame holds with rfl | old
        · exact .inl rfl
        · exact .inr (List.mem_append_right _ (List.mem_append_right _ (List.mem_map_of_mem old)))
  have tagged := ord.seeds before present
  exact
    { outbox := requeued.outbox ▸ ord.outbox
      seeds := fun seed now => by
        cases requeued.now.symm.trans now
        exact
          { catchUp := fun frame member => by
              rcases members frame member with rfl | old
              · exact carries.tagged
              · exact tagged.catchUp frame old
            replay := requeued.replay ▸ tagged.replay
            status := requeued.status ▸ tagged.status }
      past := fun stamp member => by
        rcases stamps stamp member with rfl | old
        · exact new.past
        · exact ord.past stamp old
      issued := ord.issued
      known := fun stamp member => by
        rcases stamps stamp member with rfl | old
        · exact new.issued
        · exact ord.known stamp old
      spools := fun seed now replay current => by
        cases requeued.now.symm.trans now
        exact ord.spools before present replay (requeued.replay ▸ current)
      settledOutbox := fun key excuse => by
        rw [sheddable]
        exact ord.settledOutbox key (requeued.excused excuse)
      settledCatchUp := fun key excuse frame member => by
        rcases frames frame member with rfl | old
        · exact settled key (requeued.excused excuse)
        · exact ord.settledCatchUp key (requeued.excused excuse) frame old
      current := fun stamp member => by
        unfold replaceable at member
        rw [sheddable] at member
        rcases List.mem_append.mp member with queued | late
        · exact ord.current stamp (List.mem_append_left _ queued)
        · rcases List.mem_map.mp late with ⟨frame, holds, rfl⟩
          rcases frames frame holds with rfl | old
          · exact fun _ snapshot issued isSnapshot _ => new.ahead snapshot issued isSnapshot
          · exact ord.current _ (mem_replaceable_of_catchUp old)
      order := order }

theorem appended (ord : Orderly conn written pushed clock) (sound : conn.BarrierSound)
    (carries : Carries bytes delta replacement)
    (new : Newest conn written pushed clock bytes.content) {seed : AttachSeedState Stamp}
    (up : conn.barrier = some seed)
    (exported : ∀ key, delta.pane = some key → seed.manifest key ≠ some .pending)
    (clear : ∀ key, delta.pane = some key → key ∉ seed.outdated) :
    Orderly (conn.appendCatchUp seed bytes delta replacement) written pushed clock := by
  have present := (barrier_eq_some.mp up).1
  have requeued : Requeued conn (conn.appendCatchUp seed bytes delta replacement) seed _ :=
    ⟨up, rfl, rfl, rfl, rfl, rfl, rfl, rfl, rfl⟩
  have flow : written ++ (conn.appendCatchUp seed bytes delta replacement).stamps =
      (written ++ conn.stamps) ++ [bytes.content] := by
    rw [stamps_eq, stamps_eq, catchUpFrames_of_seed requeued.now, replaying_of_seed requeued.now,
      replaying_of_seed present, catchUpFrames_of_seed present, requeued.outbox]
    simp
  apply ord.requeue requeued carries new
  · intro frame member
    rcases List.mem_append.mp member with old | last
    · exact .inr old
    · exact .inl (List.mem_singleton.mp last)
  · intro key excuse own
    rcases excuse with waiting | ⟨now, raised, why⟩
    · rw [sound.exclusive (barrier_ne_none up)] at waiting
      cases waiting
    · cases up.symm.trans raised
      rcases why with stale | pending
      · exact clear key own stale
      · exact exported key own pending
  · intro unspanned
    rw [flow]
    exact LaneOrder.pairwise_push (ord.order unspanned) new.newest

theorem replacedHeld (ord : Orderly conn written pushed clock)
    (carries : Carries bytes delta replacement)
    (new : Newest conn written pushed clock bytes.content) {seed : AttachSeedState Stamp}
    {key : ReplacementKey} {position : Nat} {frame : CatchUpFrame Stamp}
    (up : conn.barrier = some seed) (keyed : replacement = some key)
    (present : seed.catchUp[position]? = some frame) (own : frame.replacement = some key)
    (latest : ∀ later item, position < later → seed.catchUp[later]? = some item →
      item.replacement ≠ some key) :
    Orderly (conn.replacedCatchUp seed position frame { replacement, bytes, delta }) written pushed
      clock := by
  have shown := (barrier_eq_some.mp up).1
  have tags := (ord.seeds seed shown).catchUp
  have tagged := tags frame (List.mem_of_getElem? present)
  have member : frame ∈ conn.catchUpFrames := by
    rw [catchUpFrames_of_seed shown]
    exact List.mem_of_getElem? present
  have newKey : bytes.content.key = some key := carries.key.trans keyed
  have oldKey : frame.bytes.content.key = some key := tagged.key.symm.trans own
  have sameKey : frame.bytes.content.key = bytes.content.key := oldKey.trans newKey.symm
  have samePane : frame.bytes.content.pane = bytes.content.pane := by
    rw [Stamp.pane_of_key oldKey, Stamp.pane_of_key newKey]
  have newKeyed : bytes.content.key ≠ none := by
    rw [newKey]
    exact Option.some_ne_none key
  have oldKeyed : frame.bytes.content.key ≠ none := sameKey ▸ newKeyed
  have newPane : bytes.content.pane ≠ none := by
    rw [Stamp.pane_of_key newKey]
    exact Option.some_ne_none _
  have sameDelta : frame.delta = delta := by
    rw [tagged.delta, ← carries.delta, Stamp.delta_of_key oldKeyed, Stamp.delta_of_key newKeyed,
      samePane]
  have requeued : Requeued conn
      (conn.replacedCatchUp seed position frame { replacement, bytes, delta }) seed _ :=
    ⟨up, rfl, rfl, rfl, rfl, rfl, rfl, rfl, rfl⟩
  have flowBefore : written ++ conn.stamps =
      (written ++ (conn.outbox.map fun frame => frame.bytes.content) ++ conn.replaying ++
        (seed.catchUp.take position).map fun frame => frame.bytes.content) ++
        frame.bytes.content ::
          (seed.catchUp.drop (position + 1)).map fun frame => frame.bytes.content := by
    rw [stamps_eq, catchUpFrames_of_seed shown]
    nth_rewrite 1 [LaneOrder.split_at present]
    simp
  have flowAfter : written ++
      (conn.replacedCatchUp seed position frame { replacement, bytes, delta }).stamps =
      (written ++ (conn.outbox.map fun frame => frame.bytes.content) ++ conn.replaying ++
        (seed.catchUp.take position).map fun frame => frame.bytes.content) ++
        bytes.content ::
          (seed.catchUp.drop (position + 1)).map fun frame => frame.bytes.content := by
    rw [stamps_eq, catchUpFrames_of_seed requeued.now, replaying_of_seed requeued.now,
      replaying_of_seed shown, requeued.outbox]
    simp only [LaneOrder.set_split_at present]
    simp
  apply ord.requeue requeued carries new
  · intro item place
    rcases List.mem_or_eq_of_mem_set place with old | replaced
    · exact .inr old
    · exact .inl replaced
  · intro pane excuse named
    exact ord.settledCatchUp pane excuse frame member (sameDelta ▸ named)
  · intro unspanned
    have ordered := ord.order unspanned
    have newest := new.newest
    have known := ord.known
    rw [flowBefore] at ordered newest known
    rw [flowAfter]
    apply LaneOrder.pairwise_replace ordered
    · intro later place
      exact known later (List.mem_append_right _ (List.mem_cons_of_mem _ place))
    · exact newest
    · exact newKeyed
    · exact sameKey
    · exact samePane
    · exact Stamp.part_of_key oldKeyed
    · apply ord.unspanned_at unspanned new newKeyed sameKey (mem_replaceable_of_catchUp member) _
        (new.issued newPane)
      apply known _ (List.mem_append_right _ List.mem_cons_self)
      rw [samePane]
      exact newPane
    · intro later place
      rcases List.mem_map.mp place with ⟨item, holds, rfl⟩
      rcases LaneOrder.behind_split position holds with ⟨where', after, found⟩
      have differs := latest where' item after found
      have itemTagged := tags item (List.mem_of_getElem? found)
      rw [itemTagged.key] at differs
      rw [← newKey] at differs
      exact differs

theorem ignoring (ord : Orderly conn written pushed clock) (bytes : EncodedOutput Stamp) :
    Orderly (conn.ignoring bytes).1 written pushed clock :=
  ord.quiet rfl rfl rfl rfl

theorem landed (ord : Orderly conn written pushed clock) (sound : conn.BarrierSound)
    (carries : Carries bytes delta replacement)
    (new : Newest conn written pushed clock bytes.content)
    {result : ConnOutbox Stamp × ClientFrameResult}
    (landing : Landing conn bytes delta replacement result) :
    Orderly result.1 written pushed clock := by
  cases landing with
  | precedes _ _ _ => exact ord
  | behind _ _ => exact ord.ignoring bytes
  | outdated _ _ _ => exact ord.ignoring bytes
  | replaced passes keyed present own latest unstarted =>
      exact ord.replaced sound carries new passes keyed present own latest unstarted
  | queued passes clear => exact ord.queued sound carries new passes clear
  | starved down _ bare => exact (ord.starve sound down bare).ignoring bytes
  | shedSelf _ _ => exact (ord.shedPane sound _).ignoring bytes
  | overflowed reason => exact ord.overflowing reason
  | replacedCatchUp up keyed present own latest =>
      exact ord.replacedHeld carries new up keyed present own latest
  | appended up exported clear => exact ord.appended sound carries new up exported clear

theorem pushed_delta (ord : Orderly conn written pushed clock) (sound : conn.BarrierSound)
    (acc : conn.Accounted) (carries : Carries bytes delta replacement)
    (new : Newest conn written pushed clock bytes.content) (mediaWithinBudget : Bool) :
    Orderly (conn.pushDelta bytes delta maxBacklog replacement mediaWithinBudget).1 written pushed
      clock := by
  rw [pushDelta_fst]
  rcases pushDeltaInner_lands acc bytes delta replacement with ⟨last, sheds, landing⟩
  have shed := ord.sheds sound sheds
  exact shed.1.landed shed.2 carries (new.mono sheds.stamps_sublist) landing

end Orderly

end ConnOutbox

end Rozi
