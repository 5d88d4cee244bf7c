import Rozi.Library.LaneOrder
import Rozi.Session.Barrier
import Rozi.Session.Delivery

/-!
What holds of the queues of one client whatever is pushed to it: the frames carry the tags of their
stamps, a pane that is to be replayed has nothing replaceable queued, and nothing replaceable is
older than the last snapshot of its pane.
-/

namespace Rozi

open ReplacementQueue QueueBytes

def Stamp.reading : LaneOrder.Reading Stamp PresentationKey ReplacementKey where
  tick := Stamp.tick
  lane := Stamp.pane
  key := Stamp.key
  part := Stamp.part

structure OutboxFrame.Tagged (frame : OutboxFrame Stamp) : Prop where
  key : frame.replacement = frame.bytes.content.key
  pane : frame.pane = frame.bytes.content.transcript
  replayed : frame.frameClass = .seedReplay → frame.bytes.content.key = none
  framed : 0 < frame.bytes.len

structure CatchUpFrame.Tagged (frame : CatchUpFrame Stamp) : Prop where
  key : frame.replacement = frame.bytes.content.key
  delta : frame.delta = frame.bytes.content.delta
  live : frame.bytes.content.snapshot = false
  control : frame.bytes.content.kind = .control → frame.bytes.content.pane = none
  framed : 0 < frame.bytes.len

structure PaneSeedReplay.Exported (replay : PaneSeedReplay Stamp) (tick len : Nat) : Prop where
  within : replay.remaining ≤ len
  content : ∀ left, replay.content left = replayStamp tick replay.key (len - left)
  reset : ∀ frame, replay.resetFrame = some frame →
    frame.content = resetStamp tick replay.key ∧ 0 < frame.len

/-- The reset, unless it was sent, and the frame to be cut from the spool, unless that is at its
end. -/
def PaneSeedReplay.next {ω : Type} (replay : PaneSeedReplay ω) : List ω :=
  (replay.resetFrame.map EncodedOutput.content).toList ++
    if replay.remaining = 0 then [] else [replay.content replay.remaining]

theorem PaneSeedReplay.Exported.pane {replay : PaneSeedReplay Stamp} {tick len : Nat}
    (exported : replay.Exported tick len) :
    ∀ stamp ∈ replay.next, stamp.pane = some replay.key.presentation := by
  intro stamp member
  unfold next at member
  rcases List.mem_append.mp member with reset | cut
  · rcases Option.map_eq_some_iff.mp (Option.mem_toList.mp reset) with ⟨frame, some, rfl⟩
    rw [(exported.reset frame some).1]
    rfl
  · split_ifs at cut
    · cases cut
    · rw [List.mem_singleton.mp cut, exported.content]
      rfl

structure AttachSeedState.Tagged (seed : AttachSeedState Stamp) : Prop where
  catchUp : ∀ frame ∈ seed.catchUp, frame.Tagged
  replay : ∀ replay, seed.replay = some replay → ∃ tick len, replay.Exported tick len
  status : ∀ frame, seed.programStatusFrame = some frame →
    frame.content = Outbound.control.stamp 0 ∧ 0 < frame.len

namespace Stamp

variable {stamp : Stamp}

theorem kind_of_key (keyed : stamp.key ≠ none) : ∃ metadata, stamp.kind = .output metadata := by
  unfold Stamp.key at keyed
  split at keyed
  · rename_i metadata shown
    exact ⟨metadata, shown⟩
  all_goals exact absurd rfl keyed

theorem transcript_of_key (keyed : stamp.key ≠ none) :
    stamp.transcript = stamp.pane.bind PresentationKey.seedKey := by
  rcases kind_of_key keyed with ⟨metadata, shown⟩
  simp only [transcript, shown]

theorem delta_of_key (keyed : stamp.key ≠ none) :
    stamp.delta =
      ((stamp.pane.bind PresentationKey.seedKey).map SeedDelta.paneOutput).getD .control := by
  rcases kind_of_key keyed with ⟨metadata, shown⟩
  simp only [delta, shown]

theorem part_of_key (keyed : stamp.key ≠ none) : stamp.part = none := by
  rcases kind_of_key keyed with ⟨metadata, shown⟩
  simp only [part, shown]

theorem part_of_live (live : stamp.snapshot = false) : stamp.part = none := by
  simpa [snapshot] using live

theorem seedKey_presentation (key : PaneSeedKey) : key.presentation.seedKey = some key := by
  simp [PaneSeedKey.presentation, PresentationKey.seedKey]

theorem presentation_of_seedKey {pane : PresentationKey} {key : PaneSeedKey}
    (shared : pane.seedKey = some key) : pane = key.presentation := by
  unfold PresentationKey.seedKey at shared
  split_ifs at shared with own
  cases shared
  cases pane
  simpa [PaneSeedKey.presentation] using own

theorem presentation_inj {first second : PaneSeedKey}
    (same : first.presentation = second.presentation) : first = second := by
  have keys := seedKey_presentation first
  rw [same, seedKey_presentation] at keys
  exact (Option.some.inj keys).symm

theorem delta_pane (live : stamp.snapshot = false)
    (control : stamp.kind = .control → stamp.pane = none) {key : PaneSeedKey}
    (shown : stamp.pane = some key.presentation) : stamp.delta.pane = some key := by
  have whole := part_of_live live
  unfold Stamp.part at whole
  unfold Stamp.delta
  split at whole
  · cases whole
  · cases whole
  · rename_i kind
    rw [control kind] at shown
    cases shown
  · rename_i kind
    simp only [kind, shown, Option.bind_some, seedKey_presentation]
    rfl
  · rename_i kind
    simp only [kind, shown, Option.bind_some, seedKey_presentation]
    rfl

theorem transcript_of_delta (live : stamp.snapshot = false) :
    stamp.transcript = stamp.delta.outputPane := by
  have whole := part_of_live live
  unfold Stamp.part at whole
  unfold Stamp.transcript Stamp.delta
  split at whole
  · cases whole
  · cases whole
  · rename_i kind
    simp only [kind]
    rfl
  · rename_i kind
    simp only [kind]
    cases stamp.pane.bind PresentationKey.seedKey <;> rfl
  · rename_i kind
    simp only [kind]
    cases stamp.pane.bind PresentationKey.seedKey <;> rfl

end Stamp

/-- No key spans an ordered frame of its pane: of the frames a producer pushed, none without a key
came between two with the same key. A producer that advances the coalescing epoch of a pane at each
ordered frame keeps to this. -/
def Unspanned (pushed : List Stamp) : Prop :=
  ∀ first ∈ pushed, ∀ between ∈ pushed, ∀ second ∈ pushed,
    first.key ≠ none → first.key = second.key → between.pane = first.pane →
    between.key = none → between.snapshot = false →
    ¬ (first.tick < between.tick ∧ between.tick < second.tick)

theorem Unspanned.of_append {pushed more : List Stamp} (unspanned : Unspanned (pushed ++ more)) :
    Unspanned pushed :=
  fun first one between two second three =>
    unspanned first (List.mem_append_left _ one) between (List.mem_append_left _ two) second
      (List.mem_append_left _ three)

namespace ConnOutbox

section generic

variable {ω : Type} (conn : ConnOutbox ω)

def catchUpFrames : List (CatchUpFrame ω) :=
  match conn.seed with
  | some seed => seed.catchUp
  | none => []

def replaying : List ω :=
  match conn.seed with
  | some seed => seed.replay.elim [] PaneSeedReplay.next
  | none => []

def stamps : List ω :=
  conn.outbox.map (fun frame => frame.bytes.content) ++ conn.replaying ++
    conn.catchUpFrames.map fun frame => frame.bytes.content

/-- A replay of the pane is arranged for: it waits for a resync, was shed behind the barrier or is
still to be exported. -/
def Excused (key : PaneSeedKey) : Prop :=
  key ∈ conn.resyncPending ∨
    ∃ seed, conn.barrier = some seed ∧
      (key ∈ seed.outdated ∨ seed.manifest key = some .pending)

def replaceable : List ω :=
  conn.sheddableOutbox.map (fun frame => frame.bytes.content) ++
    conn.catchUpFrames.map fun frame => frame.bytes.content

end generic

section sheddable

variable {ω : Type} {conn : ConnOutbox ω} {frame : OutboxFrame ω}

theorem mem_of_sheddable (member : frame ∈ conn.sheddableOutbox) : frame ∈ conn.outbox :=
  List.mem_of_mem_drop member

theorem sheddable_unstarted (fresh : conn.frontStarted = false) :
    conn.sheddableOutbox = conn.outbox := by
  simp [sheddableOutbox, fresh]

theorem sheddable_started {front : OutboxFrame ω} {rest : List (OutboxFrame ω)}
    (started : conn.frontStarted = true) (queued : conn.outbox = front :: rest) :
    conn.sheddableOutbox = rest := by
  simp [sheddableOutbox, started, queued]

theorem frontStarted_congr {other : ConnOutbox ω} {front : OutboxFrame ω}
    {rest more : List (OutboxFrame ω)} (offset : other.frontOffset = conn.frontOffset)
    (queued : conn.outbox = front :: rest) (next : other.outbox = front :: more) :
    other.frontStarted = conn.frontStarted := by
  simp only [frontStarted, offset, queued, next]

theorem mem_sheddable_enqueued {bytes : EncodedOutput ω} {frameClass : OutboxClass}
    {pane : Option PaneSeedKey} {replacement : Option ReplacementKey}
    (member : frame ∈ (conn.enqueued bytes frameClass pane replacement).sheddableOutbox) :
    frame ∈ conn.sheddableOutbox ∨ frame = { bytes, frameClass, pane, replacement } := by
  cases queued : conn.outbox with
  | nil =>
      have all := mem_of_sheddable member
      simp only [enqueued, queued, List.nil_append, List.mem_singleton] at all
      exact .inr all
  | cons front rest =>
      have next : (conn.enqueued bytes frameClass pane replacement).outbox =
          front :: (rest ++ [{ bytes, frameClass, pane, replacement : OutboxFrame ω }]) := by
        simp [enqueued, queued]
      have same : (conn.enqueued bytes frameClass pane replacement).frontStarted =
          conn.frontStarted := frontStarted_congr rfl queued next
      cases started : conn.frontStarted with
      | true =>
          rw [sheddable_started (same.trans started) next] at member
          rw [sheddable_started started queued]
          simpa using member
      | false =>
          rw [sheddable_unstarted (same.trans started), next] at member
          rw [sheddable_unstarted started, queued]
          simpa [or_assoc] using member

theorem mem_sheddable_shedPane {key : PaneSeedKey}
    (member : frame ∈ (conn.shedPane key).sheddableOutbox) :
    frame ∈ conn.sheddableOutbox ∧ conn.survivesPurge key frame = true := by
  cases started : conn.frontStarted with
  | false =>
      have all := mem_of_sheddable member
      rw [shedPane_outbox] at all
      simp only [pinnedOutbox, started, Bool.false_eq_true, if_false, List.take_zero,
        List.nil_append] at all
      exact List.mem_filter.mp all
  | true =>
      cases queued : conn.outbox with
      | nil =>
          have all := mem_of_sheddable member
          rw [shedPane_outbox] at all
          simp [pinnedOutbox, sheddableOutbox, queued] at all
      | cons front rest =>
          have next : (conn.shedPane key).outbox =
              front :: rest.filter (conn.survivesPurge key) := by
            rw [shedPane_outbox, sheddable_started started queued]
            simp [pinnedOutbox, started, queued]
          have offset : (conn.shedPane key).frontOffset = conn.frontOffset := by
            cases up : conn.barrier with
            | none => rw [shedPane_live key up]; rfl
            | some seed => rw [shedPane_behind key up]; rfl
          have same := frontStarted_congr offset queued next
          rw [sheddable_started (same.trans started) next] at member
          rw [sheddable_started started queued]
          exact List.mem_filter.mp member

theorem mem_sheddable_of_get {position : Nat} (present : conn.outbox[position]? = some frame)
    (unstarted : position ≠ 0 ∨ conn.frontStarted = false) : frame ∈ conn.sheddableOutbox := by
  cases started : conn.frontStarted with
  | false =>
      rw [sheddable_unstarted started]
      exact List.mem_of_getElem? present
  | true =>
      rcases unstarted with behind | fresh
      · cases queued : conn.outbox with
        | nil => simp [queued] at present
        | cons front rest =>
            rw [sheddable_started started queued]
            cases position with
            | zero => exact absurd rfl behind
            | succ position =>
                rw [queued, List.getElem?_cons_succ] at present
                exact List.mem_of_getElem? present
      · rw [started] at fresh
        cases fresh

theorem mem_sheddable_replacedAt {position : Nat} {old : OutboxFrame ω} {bytes : EncodedOutput ω}
    (present : conn.outbox[position]? = some old)
    (unstarted : position ≠ 0 ∨ conn.frontStarted = false)
    (member : frame ∈ (conn.replacedAt position old bytes).sheddableOutbox) :
    frame ∈ conn.sheddableOutbox ∨ frame = { old with bytes } := by
  cases started : conn.frontStarted with
  | false =>
      rw [sheddable_unstarted started]
      exact List.mem_or_eq_of_mem_set (mem_of_sheddable member)
  | true =>
      cases queued : conn.outbox with
      | nil => simp [queued] at present
      | cons front rest =>
          cases position with
          | zero =>
              rw [started] at unstarted
              rcases unstarted with behind | fresh
              · exact absurd rfl behind
              · cases fresh
          | succ position =>
              have next : (conn.replacedAt (position + 1) old bytes).outbox =
                  front :: rest.set position { old with bytes } := by
                simp [replacedAt, queued]
              have same : (conn.replacedAt (position + 1) old bytes).frontStarted =
                  conn.frontStarted := frontStarted_congr rfl queued next
              rw [sheddable_started (same.trans started) next] at member
              rw [sheddable_started started queued]
              exact List.mem_or_eq_of_mem_set member

/-- A write keeps what a shed may drop, except for the files of the front frame. -/
theorem mem_sheddable_wrote {front prepared : OutboxFrame ω} {rest : List (OutboxFrame ω)}
    {written : Nat} (queued : conn.outbox = front :: rest) (ready : conn.Prepared front prepared)
    (member : frame ∈
      ({ conn with outbox := prepared :: rest }.wrote prepared written).sheddableOutbox) :
    frame ∈ conn.sheddableOutbox ∨ (frame = prepared ∧ front ∈ conn.sheddableOutbox) := by
  cases started : conn.frontStarted with
  | false =>
      have all := mem_of_sheddable member
      rw [sheddable_unstarted started, queued]
      rcases List.mem_cons.mp all with rfl | behind
      · exact .inr ⟨rfl, List.mem_cons_self⟩
      · exact .inl (List.mem_cons_of_mem front behind)
  | true =>
      have still : ({ conn with outbox := prepared :: rest }.wrote prepared
          written).frontStarted = true := by
        simp only [frontStarted, queued, Bool.or_eq_true, decide_eq_true_eq] at started
        simp only [frontStarted, wrote, release, Bool.or_eq_true]
        rcases started with moved | committed
        · exact .inl (decide_eq_true (Nat.add_pos_left moved written))
        · rcases ready with rfl | ⟨_, owned, _⟩
          · exact .inr committed
          · simp [owned] at committed
      rw [sheddable_started still rfl] at member
      rw [sheddable_started started queued]
      exact .inl member

theorem mem_sheddable_popped {front : OutboxFrame ω} {rest : List (OutboxFrame ω)}
    {next : ConnOutbox ω} (queued : conn.outbox = front :: rest) (popped : next.outbox = rest)
    (member : frame ∈ next.sheddableOutbox) : frame ∈ conn.sheddableOutbox := by
  have behind := mem_of_sheddable member
  rw [popped] at behind
  cases started : conn.frontStarted with
  | false =>
      rw [sheddable_unstarted started, queued]
      exact List.mem_cons_of_mem front behind
  | true =>
      rw [sheddable_started started queued]
      exact behind

/-- Without a barrier nothing of a pane is queued for a shed when no pane can be chosen. -/
theorem largestOutboxPane_bare (down : conn.barrier = none) (bare : conn.largestOutboxPane = none)
    (framed : ∀ frame ∈ conn.outbox, 0 < frame.bytes.len) (member : frame ∈ conn.sheddableOutbox)
    (key : PaneSeedKey) : frame.pane ≠ some key := by
  intro shown
  have sheddable : conn.paneIsSheddable key = true := by simp [paneIsSheddable, down]
  unfold largestOutboxPane at bare
  refine largestSheddable_ne_none (List.mem_filterMap.mpr ⟨frame, member, ?_⟩)
    (framed frame (mem_of_sheddable member)) sheddable bare
  simp [shown, replayBarrierUp, down]

end sheddable

/-- The queues of a client agree with what was pushed to it. `written` are the stamps of the frames
it got, `pushed` all stamps issued before `clock`. -/
structure Orderly (conn : ConnOutbox Stamp) (written pushed : List Stamp) (clock : Nat) : Prop where
  outbox : ∀ frame ∈ conn.outbox, frame.Tagged
  seeds : ∀ seed, conn.seed = some seed → seed.Tagged
  past : ∀ stamp ∈ written ++ conn.stamps, stamp.tick < clock
  issued : ∀ stamp ∈ pushed, stamp.tick < clock
  known : ∀ stamp ∈ written ++ conn.stamps, stamp.pane ≠ none → stamp ∈ pushed
  spools : ∀ seed, conn.seed = some seed → ∀ replay, seed.replay = some replay →
    ∀ left, 0 < left → left ≤ replay.remaining → replay.content left ∈ pushed
  settledOutbox : ∀ key, conn.Excused key → ∀ frame ∈ conn.sheddableOutbox,
    frame.pane = some key → frame.frameClass = .seedReplay
  settledCatchUp : ∀ key, conn.Excused key → ∀ frame ∈ conn.catchUpFrames,
    frame.delta.pane ≠ some key
  current : ∀ stamp ∈ conn.replaceable, stamp.key ≠ none → ∀ snapshot ∈ pushed,
    snapshot.snapshot = true → snapshot.pane = stamp.pane → snapshot.tick < stamp.tick
  order : Unspanned pushed →
    (written ++ conn.stamps).Pairwise (LaneOrder.InOrder Stamp.reading pushed)

section access

variable {ω : Type} {conn : ConnOutbox ω}

theorem catchUpFrames_of_seed {seed : AttachSeedState ω} (present : conn.seed = some seed) :
    conn.catchUpFrames = seed.catchUp := by
  simp only [catchUpFrames, present]

theorem replaying_of_seed {seed : AttachSeedState ω} (present : conn.seed = some seed) :
    conn.replaying = seed.replay.elim [] PaneSeedReplay.next := by
  simp only [replaying, present]

theorem catchUpFrames_congr {other : ConnOutbox ω} (same : other.seed = conn.seed) :
    other.catchUpFrames = conn.catchUpFrames := by
  simp only [catchUpFrames, same]

theorem replaying_congr {other : ConnOutbox ω} (same : other.seed = conn.seed) :
    other.replaying = conn.replaying := by
  simp only [replaying, same]

theorem BarrierSound.behind_empty (sound : conn.BarrierSound) (down : conn.barrier = none) :
    conn.replaying = [] ∧ conn.catchUpFrames = [] := by
  cases present : conn.seed with
  | none => simp [replaying, catchUpFrames, present]
  | some seed =>
      have drained := sound.drained down present
      simp [replaying, catchUpFrames, present, drained]

theorem Excused.congr {other : ConnOutbox ω} {key : PaneSeedKey} (excused : other.Excused key)
    (seed : other.seed = conn.seed) (waiting : other.resyncPending = conn.resyncPending) :
    conn.Excused key := by
  unfold Excused at excused ⊢
  rw [barrier_congr seed, waiting] at excused
  exact excused

theorem mem_replaceable_of_sheddable {frame : OutboxFrame ω}
    (member : frame ∈ conn.sheddableOutbox) : frame.bytes.content ∈ conn.replaceable :=
  List.mem_append_left _ (List.mem_map_of_mem member)

theorem mem_replaceable_of_catchUp {frame : CatchUpFrame ω}
    (member : frame ∈ conn.catchUpFrames) : frame.bytes.content ∈ conn.replaceable :=
  List.mem_append_right _ (List.mem_map_of_mem member)

end access

section sublist

variable {ω : Type} {conn : ConnOutbox ω}

theorem outbox_shedPane_sublist (conn : ConnOutbox ω) (key : PaneSeedKey) :
    (conn.shedPane key).outbox.Sublist conn.outbox := by
  rw [shedPane_outbox, ← pinned_append_sheddable conn]
  exact List.filter_sublist.append_left _

theorem stamps_shedPane_sublist (conn : ConnOutbox ω) (key : PaneSeedKey) :
    (conn.shedPane key).stamps.Sublist conn.stamps := by
  have kept := outbox_shedPane_sublist conn key
  cases up : conn.barrier with
  | none =>
      have same : (conn.shedPane key).seed = conn.seed := by
        rw [shedPane_live key up]
        rfl
      simp only [stamps, replaying_congr same, catchUpFrames_congr same]
      exact ((kept.map _).append_right _).append_right _
  | some seed =>
      have now := shedPane_seed key up
      have present := (barrier_eq_some.mp up).1
      have shown : (conn.shedPane key).replaying = conn.replaying := by
        rw [replaying_of_seed now, replaying_of_seed present]
        rfl
      simp only [stamps, shown, catchUpFrames_of_seed now, catchUpFrames_of_seed present]
      exact ((kept.map _).append_right _).append (List.filter_sublist.map _)

theorem Sheds.stamps_sublist {last : ConnOutbox ω} (sheds : Sheds conn last) :
    last.stamps.Sublist conn.stamps := by
  induction sheds with
  | refl => exact List.Sublist.refl _
  | @shed origin _ key _ _ ih => exact ih.trans (stamps_shedPane_sublist origin key)

end sublist

namespace Orderly

variable {conn next : ConnOutbox Stamp} {written pushed : List Stamp} {clock : Nat}

theorem empty : Orderly {} [] [] 0 where
  outbox := fun _ none => absurd none List.not_mem_nil
  seeds := fun _ none => by cases none
  past := fun _ none => absurd none List.not_mem_nil
  issued := fun _ none => absurd none List.not_mem_nil
  known := fun _ none => absurd none List.not_mem_nil
  spools := fun _ none => by cases none
  settledOutbox := fun _ _ _ none => absurd none List.not_mem_nil
  settledCatchUp := fun _ _ _ none => absurd none List.not_mem_nil
  current := fun _ none => absurd none List.not_mem_nil
  order := fun _ => List.Pairwise.nil

/-- Stamps issued now, none of them a snapshot's, change nothing that is queued. -/
theorem grow (ord : Orderly conn written pushed clock) {more : List Stamp} {later : Nat}
    (forward : clock ≤ later) (issued : ∀ stamp ∈ more, clock ≤ stamp.tick ∧ stamp.tick < later)
    (live : ∀ stamp ∈ more, stamp.snapshot = false) :
    Orderly conn written (pushed ++ more) later :=
  { ord with
    past := fun stamp member => (ord.past stamp member).trans_le forward
    issued := fun stamp member => by
      rcases List.mem_append.mp member with old | new
      · exact (ord.issued stamp old).trans_le forward
      · exact (issued stamp new).2
    known := fun stamp member shown => List.mem_append_left _ (ord.known stamp member shown)
    spools := fun seed present replay replaying left some within =>
      List.mem_append_left _ (ord.spools seed present replay replaying left some within)
    current := fun stamp member keyed snapshot issued' isSnapshot same => by
      rcases List.mem_append.mp issued' with old | new
      · exact ord.current stamp member keyed snapshot old isSnapshot same
      · rw [live snapshot new] at isSnapshot
        cases isSnapshot
    order := fun unspanned => by
      apply LaneOrder.pairwise_grow (ord.order unspanned.of_append)
      intro stamp new old member
      exact (ord.past old member).trans_le (issued stamp new).1 }

/-- What only takes frames away, and excuses no pane that still has some, keeps the queues
orderly. -/
theorem shrink (ord : Orderly conn written pushed clock)
    (outbox : ∀ frame ∈ next.outbox, frame ∈ conn.outbox)
    (seeds : ∀ seed, next.seed = some seed → seed.Tagged)
    (spools : ∀ seed, next.seed = some seed → ∀ replay, seed.replay = some replay →
      ∀ left, 0 < left → left ≤ replay.remaining → replay.content left ∈ pushed)
    (stamps : next.stamps.Sublist conn.stamps)
    (sheddable : ∀ frame ∈ next.sheddableOutbox, frame ∈ conn.sheddableOutbox)
    (catchUp : ∀ frame ∈ next.catchUpFrames, frame ∈ conn.catchUpFrames)
    (excused : ∀ key, next.Excused key → conn.Excused key ∨
      ((∀ frame ∈ next.sheddableOutbox, frame.pane = some key → frame.frameClass = .seedReplay) ∧
        ∀ frame ∈ next.catchUpFrames, frame.delta.pane ≠ some key)) :
    Orderly next written pushed clock := by
  have sub : (written ++ next.stamps).Sublist (written ++ conn.stamps) :=
    stamps.append_left written
  exact
    { outbox := fun frame member => ord.outbox frame (outbox frame member)
      seeds := seeds
      past := fun stamp member => ord.past stamp (sub.subset member)
      issued := ord.issued
      known := fun stamp member => ord.known stamp (sub.subset member)
      spools := spools
      settledOutbox := fun key excuse frame member => by
        rcases excused key excuse with before | ⟨settled, _⟩
        · exact ord.settledOutbox key before frame (sheddable frame member)
        · exact settled frame member
      settledCatchUp := fun key excuse frame member => by
        rcases excused key excuse with before | ⟨_, settled⟩
        · exact ord.settledCatchUp key before frame (catchUp frame member)
        · exact settled frame member
      current := fun stamp member => by
        apply ord.current stamp
        rcases List.mem_append.mp member with queued | held
        · rcases List.mem_map.mp queued with ⟨frame, present, rfl⟩
          exact mem_replaceable_of_sheddable (sheddable frame present)
        · rcases List.mem_map.mp held with ⟨frame, present, rfl⟩
          exact mem_replaceable_of_catchUp (catchUp frame present)
      order := fun unspanned => (ord.order unspanned).sublist sub }

theorem quiet (ord : Orderly conn written pushed clock) (outbox : next.outbox = conn.outbox)
    (offset : next.frontOffset = conn.frontOffset) (seed : next.seed = conn.seed)
    (waiting : next.resyncPending = conn.resyncPending) :
    Orderly next written pushed clock := by
  have sheddable : next.sheddableOutbox = conn.sheddableOutbox := by
    unfold sheddableOutbox frontStarted
    rw [outbox, offset]
  apply ord.shrink
  · intro frame member
    exact outbox ▸ member
  · exact seed ▸ ord.seeds
  · exact seed ▸ ord.spools
  · simp only [stamps, outbox, replaying_congr seed, catchUpFrames_congr seed, List.Sublist.refl]
  · intro frame member
    exact sheddable ▸ member
  · intro frame member
    exact catchUpFrames_congr seed ▸ member
  · exact fun key excuse => .inl (excuse.congr seed waiting)

theorem updateSeed (ord : Orderly conn written pushed clock)
    {change : AttachSeedState Stamp → AttachSeedState Stamp}
    (tagged : ∀ seed, conn.seed = some seed → seed.Tagged → (change seed).Tagged)
    (catchUp : ∀ seed, (change seed).catchUp = seed.catchUp)
    (replay : ∀ seed, (change seed).replay = seed.replay)
    (known : ∀ seed, (change seed).manifest = seed.manifest ∧
      (change seed).outdated = seed.outdated ∧
      (change seed).baselineQueued = seed.baselineQueued) :
    Orderly (conn.updateSeed change) written pushed clock := by
  have held : (conn.updateSeed change).catchUpFrames = conn.catchUpFrames := by
    unfold catchUpFrames ConnOutbox.updateSeed
    cases conn.seed with
    | none => rfl
    | some seed => exact catchUp seed
  have shown : (conn.updateSeed change).replaying = conn.replaying := by
    unfold replaying ConnOutbox.updateSeed
    cases conn.seed with
    | none => rfl
    | some seed =>
        simp only [Option.map_some, replay]
  apply ord.shrink
  · exact fun _ member => member
  · intro own changed
    rcases Option.map_eq_some_iff.mp changed with ⟨seed, present, rfl⟩
    exact tagged seed present (ord.seeds seed present)
  · intro own changed current own'
    rcases Option.map_eq_some_iff.mp changed with ⟨seed, present, rfl⟩
    exact ord.spools seed present current (replay seed ▸ own')
  · have same : (conn.updateSeed change).stamps = conn.stamps := by
      unfold stamps
      rw [held, shown]
      rfl
    rw [same]
  · exact fun _ member => member
  · intro frame member
    exact held ▸ member
  · intro key excuse
    left
    rcases excuse with waiting | ⟨own, up, why⟩
    · exact .inl waiting
    · right
      rcases barrier_eq_some.mp up with ⟨changed, raised⟩
      rcases Option.map_eq_some_iff.mp changed with ⟨seed, present, rfl⟩
      rcases known seed with ⟨manifest, outdated, queued⟩
      rw [manifest, outdated] at why
      exact ⟨seed, barrier_eq_some.mpr ⟨present, queued ▸ raised⟩, why⟩

theorem shedPane (ord : Orderly conn written pushed clock) (sound : conn.BarrierSound)
    (key : PaneSeedKey) : Orderly (conn.shedPane key) written pushed clock := by
  have kept := outbox_shedPane_sublist conn key
  have shorter := stamps_shedPane_sublist conn key
  cases up : conn.barrier with
  | none =>
      have same : (conn.shedPane key).seed = conn.seed := by
        rw [shedPane_live key up]
        rfl
      apply ord.shrink
      · exact fun frame member => kept.subset member
      · exact same ▸ ord.seeds
      · exact same ▸ ord.spools
      · exact shorter
      · exact fun frame member => (mem_sheddable_shedPane member).1
      · exact fun frame member => catchUpFrames_congr same ▸ member
      · intro other excuse
        by_cases own : other = key
        · subst own
          right
          constructor
          · intro frame member shown
            have survived := (mem_sheddable_shedPane member).2
            simp [survivesPurge, shown, replayBarrierUp, up] at survived
          · rw [catchUpFrames_congr same, (sound.behind_empty up).2]
            exact fun _ none => absurd none List.not_mem_nil
        · left
          rcases excuse with waiting | ⟨seed, raised, _⟩
          · rcases mem_shedPane_resyncPending waiting with named | before
            · exact absurd named own
            · exact .inl before
          · rw [barrier_congr same, up] at raised
            cases raised
  | some seed =>
      have present := (barrier_eq_some.mp up).1
      have now := shedPane_seed key up
      have waiting : (conn.shedPane key).resyncPending = conn.resyncPending := by
        rw [shedPane_behind key up]
        rfl
      have held : (conn.shedPane key).catchUpFrames =
          seed.catchUp.filter fun frame => frame.delta.pane != some key :=
        catchUpFrames_of_seed now
      have heldBefore := catchUpFrames_of_seed present
      apply ord.shrink
      · exact fun frame member => kept.subset member
      · intro own changed
        cases now.symm.trans changed
        have tagged := ord.seeds seed present
        exact
          { catchUp := fun frame member => tagged.catchUp frame (List.mem_of_mem_filter member)
            replay := tagged.replay
            status := tagged.status }
      · intro own changed
        cases now.symm.trans changed
        exact ord.spools seed present
      · exact shorter
      · exact fun frame member => (mem_sheddable_shedPane member).1
      · intro frame member
        rw [held] at member
        rw [heldBefore]
        exact List.mem_of_mem_filter member
      · intro other excuse
        by_cases own : other = key
        · subst own
          right
          constructor
          · intro frame member shown
            have survived := (mem_sheddable_shedPane member).2
            simpa [survivesPurge, shown, replayBarrierUp, up] using survived
          · intro frame member
            rw [held] at member
            simpa using (List.mem_filter.mp member).2
        · left
          rcases excuse with before | ⟨seed', raised, why⟩
          · exact .inl (waiting ▸ before)
          · right
            cases (shedPane_barrier key up).symm.trans raised
            refine ⟨seed, up, ?_⟩
            rcases why with stale | exported
            · left
              simp only [purgeCatchUpPane] at stale
              split_ifs at stale
              · exact (List.mem_cons.mp stale).resolve_left own
              · exact stale
            · exact .inr exported

theorem sheds (ord : Orderly conn written pushed clock) (sound : conn.BarrierSound)
    {last : ConnOutbox Stamp} (sheds : Sheds conn last) :
    Orderly last written pushed clock ∧ last.BarrierSound := by
  induction sheds with
  | refl => exact ⟨ord, sound⟩
  | shed key _ _ ih => exact ih (ord.shedPane sound key) (sound.shedPane key)

theorem overflowing (ord : Orderly conn written pushed clock) (reason : String) :
    Orderly (conn.overflowing reason).1 written pushed clock := by
  apply ord.updateSeed
  · exact fun _ _ tagged => ⟨tagged.catchUp, tagged.replay, tagged.status⟩
  · exact fun _ => rfl
  · exact fun _ => rfl
  · exact fun _ => ⟨rfl, rfl, rfl⟩

/-- A pane whose frame did not fit and that has none queued waits for a resync. -/
theorem starve (ord : Orderly conn written pushed clock) (sound : conn.BarrierSound)
    {key : PaneSeedKey} (down : conn.barrier = none) (bare : conn.largestOutboxPane = none) :
    Orderly { conn with resyncPending := conn.resyncPending.insert key } written pushed clock := by
  apply ord.shrink
  · exact fun _ member => member
  · exact ord.seeds
  · exact ord.spools
  · exact List.Sublist.refl _
  · exact fun _ member => member
  · exact fun _ member => member
  · intro other excuse
    by_cases own : other = key
    · subst own
      right
      constructor
      · intro frame member shown
        exact absurd shown (largestOutboxPane_bare down bare
          (fun frame member => (ord.outbox frame member).framed) member other)
      · have empty := (sound.behind_empty down).2
        intro frame member
        have member : frame ∈ conn.catchUpFrames := member
        rw [empty] at member
        cases member
    · left
      rcases excuse with waiting | ⟨seed, raised, why⟩
      · exact .inl ((List.mem_insert_iff.mp waiting).resolve_left own)
      · exact .inr ⟨seed, raised, why⟩

end Orderly

end ConnOutbox

end Rozi
