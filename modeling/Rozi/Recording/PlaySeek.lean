import Rozi.Recording.PlayRun

/-!
Playback from a time or a mark, against playback from the beginning.
-/

namespace Rozi.Recording

variable {M C : Type} {drawing : Drawing C}

def shows (moments : List (Moment C)) : List (Nat × C) :=
  moments.filterMap fun
    | .shown t picture => some (t, picture)
    | .marked _ _ => none

def cuesFrom (start stop : Nat) (shows : List (Nat × C)) : List (Cue C) :=
  shows.map (fun shown => .show (shown.1 - start) shown.2) ++ [.hold (stop - start)]

def opening (picture : Option C) : List (Cue C) :=
  (picture.map (Cue.show 0)).toList

namespace Playback

structure Reading (drawing : Drawing C) (replay : Replay M) (events : List (FileEvent M))
    (playback : Playback M C) : Prop where
  cues : playback.cues = []
  playing : playback.finished = false
  reads : ∃ decoded, playback.replay = { replay with lines := events.map .ok, decoded } ∧
    replay.Genuine drawing decoded

structure Keeps (drawing : Drawing C) (replay : Replay M) (events : List (FileEvent M))
    (frame : SpanFrame) : Prop where
  drawable : replay.Drawable drawing frame
  named : ∀ image, .image image ∈ events → image.id ∈ frame.imageIds →
    (replay.images.lookup image.id).isSome

variable {replay next : Replay M} {event : FileEvent M} {events : List (FileEvent M)}
variable {playback after : Playback M C} {cues : List (Cue C)} {error : Option PlayError}

theorem Keeps.read {frame : SpanFrame} {step : Option (ReplayStep M)}
    (keeps : Keeps drawing replay (event :: events) frame)
    (here : replay.LegibleEvent drawing event events step next) :
    Keeps drawing next events frame ∧ next.picture drawing frame = replay.picture drawing frame := by
  have held : ∀ image, event = .image image → image.id ∈ frame.imageIds →
      (replay.images.lookup image.id).isSome := by
    rintro image rfl member
    exact keeps.named image List.mem_cons_self member
  rcases here.still_drawable keeps.drawable held with ⟨drawable, same⟩
  refine ⟨⟨drawable, ?_⟩, same⟩
  intro image later member
  have known := keeps.named image (List.mem_cons_of_mem _ later) member
  rw [here.lookup fun _ _ _ => known]
  exact known

theorem keeps_of_frame {t : Nat} {frame : SpanFrame}
    (here : replay.LegibleEvent drawing event events (some (.frame t)) next)
    (current : next.frame = some frame) : Keeps drawing next events frame where
  drawable := here.drawable t frame rfl current
  named := fun image member named => here.named t frame image rfl current member named

theorem showFrame_reading {frame : SpanFrame} (at' : Nat)
    (reads : ∃ decoded, playback.replay = { replay with lines := events.map .ok, decoded } ∧
      replay.Genuine drawing decoded) (drawable : replay.Drawable drawing frame) :
    ∃ decoded, playback.showFrame drawing at' frame =
        .ok { playback with
          replay := { replay with lines := events.map .ok, decoded }
          cues := playback.cues ++ [.show at' (replay.picture drawing frame)] } ∧
      replay.Genuine drawing decoded := by
  rcases reads with ⟨held, same, genuine⟩
  have whole : ({ replay with lines := events.map .ok, decoded := held } :
      Replay M).Drawable drawing frame := ⟨drawable.decodes, drawable.fits⟩
  rcases Replay.captured_ok whole genuine with ⟨decoded, captured, genuine'⟩
  refine ⟨decoded, ?_, genuine'⟩
  unfold showFrame
  rw [same, captured]
  rfl

structure ReadsOn (drawing : Drawing C) (replay : Replay M) (events : List (FileEvent M))
    (playback after : Playback M C) : Prop where
  reading : Reading drawing replay events after
  seek : after.seek = playback.seek
  start : after.start = playback.start
  before : after.before = playback.before

theorem Reading.turn (reading : Reading drawing replay (event :: events) playback)
    {said : ReplayStep M} (here : replay.LegibleEvent drawing event events (some said) next) :
    ∃ after, ReadsOn drawing next events playback after ∧
      playback.turn drawing = obey drawing after (some said) := by
  rcases reading.reads with ⟨decoded, same, genuine⟩
  refine ⟨{ playback with replay := { next with lines := events.map .ok, decoded } },
    ⟨⟨reading.cues, reading.playing, decoded, rfl, here.genuine genuine⟩, rfl, rfl, rfl⟩, ?_⟩
  refine turn_eq ?_
  rw [same]
  exact Replay.step_cons here decoded

theorem Reading.quiet (reading : Reading drawing replay (event :: events) playback)
    (here : replay.LegibleEvent drawing event events none next)
    (rest : Replay.Legible drawing events next) :
    ∃ after, ReadsOn drawing next events playback after ∧
      ∀ cues error, Plays drawing after cues error → Plays drawing playback cues error := by
  rcases reading.reads with ⟨decoded, same, genuine⟩
  refine ⟨{ playback with replay := { next with lines := events.map .ok, decoded } },
    ⟨⟨reading.cues, reading.playing, decoded, rfl, here.genuine genuine⟩, rfl, rfl, rfl⟩, ?_⟩
  have turns : playback.turn drawing =
      ({ playback with replay := { next with lines := events.map .ok, decoded } } :
        Playback M C).turn drawing := by
    unfold Playback.turn
    simp only
    rw [same, Replay.step_quiet here rest decoded]
  intro cues error plays
  refine plays.congr ?_
  rw [nextCue_turn reading.cues reading.playing, turns, nextCue_turn]
  · exact reading.cues
  · exact reading.playing

theorem Reading.turn_end (reading : Reading drawing replay [] playback) :
    ∃ after, ReadsOn drawing replay [] playback after ∧
      playback.turn drawing = after.finish drawing none := by
  rcases reading.reads with ⟨decoded, same, genuine⟩
  refine ⟨{ playback with replay := { replay with lines := [], decoded } },
    ⟨⟨reading.cues, reading.playing, decoded, rfl, genuine⟩, rfl, rfl, rfl⟩, ?_⟩
  have stepped : playback.replay.step drawing =
      .ok (none, { replay with lines := [], decoded }) := by
    rw [same]
    rfl
  exact turn_eq stepped

theorem ReadsOn.frame (on : ReadsOn drawing replay events playback after) :
    after.replay.frame = replay.frame := by
  rcases on.reading.reads with ⟨_, same, _⟩
  rw [same]

theorem ReadsOn.lastT (on : ReadsOn drawing replay events playback after) :
    after.replay.lastT = replay.lastT := by
  rcases on.reading.reads with ⟨_, same, _⟩
  rw [same]

end Playback

namespace Replay

variable {replay next : Replay M} {event : FileEvent M} {events : List (FileEvent M)}

section watch

theorem watch_quiet (here : replay.LegibleEvent drawing event events none next) :
    replay.watch drawing (event :: events) = next.watch drawing events := by
  rw [watch, here.reads]

theorem watch_frame {t : Nat} {frame : SpanFrame}
    (here : replay.LegibleEvent drawing event events (some (.frame t)) next)
    (current : next.frame = some frame) :
    replay.watch drawing (event :: events) =
      (.shown t (next.picture drawing frame) :: (next.watch drawing events).1,
        (next.watch drawing events).2) := by
  rw [watch, here.reads]
  simp only [current]

theorem watch_mark {t : Nat} {label : String}
    (here : replay.LegibleEvent drawing event events (some (.mark t label)) next) :
    replay.watch drawing (event :: events) =
      (.marked t label :: (next.watch drawing events).1, (next.watch drawing events).2) := by
  rw [watch, here.reads]

theorem watch_metaEvent {t : Nat} {about : M}
    (here : replay.LegibleEvent drawing event events (some (.metaEvent t about)) next) :
    replay.watch drawing (event :: events) = next.watch drawing events := by
  rw [watch, here.reads]

theorem watch_finish {ending : RecordingEnd}
    (here : replay.LegibleEvent drawing event events (some (.finish ending)) next) :
    replay.watch drawing (event :: events) = ([], ending.t) := by
  rw [watch, here.reads]

end watch

section time

theorem LegibleEvent.lastT {step : Option (ReplayStep M)}
    (here : replay.LegibleEvent drawing event events step next) :
    next.lastT = event.time.getD replay.lastT := by
  have noted : next.lastT = (replay.noteTime event).lastT := by
    have reads := here.reads
    unfold readEvent at reads
    rw [noteTime_eq] at reads ⊢
    cases event with
    | encoded event =>
        cases event with
        | keyframe time frame =>
            simp only [Checks.bind_eq_ok, Checks.pure_eq_ok, Prod.mk.injEq] at reads
            rcases reads with ⟨_, _, _, rfl⟩
            rfl
        | delta delta =>
            simp only [Checks.bind_eq_ok, Checks.pure_eq_ok, Prod.mk.injEq] at reads
            rcases reads with ⟨_, _, _, rfl⟩
            rfl
        | resize time width height =>
            cases reads
            rfl
    | image image =>
        simp only [Checks.bind_eq_ok, Checks.pure_eq_ok, Prod.mk.injEq] at reads
        rcases reads with ⟨_, stored, _, rfl⟩
        rw [store_eq_ok (by exact here.room image rfl)] at stored
        rw [stored.2.2]
        unfold keepImage
        split_ifs <;> rfl
    | mark time label | metaEvent time about | finish ending | unknown =>
        cases reads
        rfl
  rw [noted, noteTime_eq]
  cases timed : event.time with
  | none => rfl
  | some t => exact max_eq_right (here.timely t timed)

theorem LegibleEvent.later {step : Option (ReplayStep M)}
    (here : replay.LegibleEvent drawing event events step next) : replay.lastT ≤ next.lastT := by
  rw [here.lastT]
  cases timed : event.time with
  | none => exact le_rfl
  | some t => exact here.timely t timed

/-- The frames of what is still to be read are no earlier than what was read. -/
theorem watch_times (legible : Legible drawing events replay) :
    (∀ shown ∈ shows (replay.watch drawing events).1, replay.lastT ≤ shown.1) ∧
      replay.lastT ≤ (replay.watch drawing events).2 := by
  induction events generalizing replay with
  | nil => exact ⟨by simp [watch, shows], le_rfl⟩
  | cons event events ih =>
      rcases legible with ⟨step, next, here, rest⟩
      rcases ih rest with ⟨within, stops⟩
      have later := here.later
      have within' : ∀ shown ∈ shows (next.watch drawing events).1, replay.lastT ≤ shown.1 :=
        fun shown member => later.trans (within shown member)
      cases step with
      | none =>
          rw [watch_quiet here]
          exact ⟨within', later.trans stops⟩
      | some said =>
          have timed := readEvent_said here.reads
          cases said with
          | frame t =>
              rcases readEvent_frame here.reads with ⟨frame, current⟩
              rw [watch_frame here current]
              refine ⟨?_, later.trans stops⟩
              intro shown member
              rw [shows, List.filterMap_cons] at member
              rcases List.mem_cons.mp member with rfl | others
              · exact here.timely t timed
              · exact within' shown others
          | mark t label =>
              rw [watch_mark here]
              exact ⟨within', later.trans stops⟩
          | metaEvent t about =>
              rw [watch_metaEvent here]
              exact ⟨within', later.trans stops⟩
          | finish ending =>
              rw [watch_finish here]
              exact ⟨by simp [shows], here.timely ending.t timed⟩

end time

end Replay

namespace Playback

variable {replay next : Replay M} {event : FileEvent M} {events : List (FileEvent M)}
variable {playback after : Playback M C} {cues : List (Cue C)} {error : Option PlayError}

theorem plays_finish {start : Nat} {stop : Option Nat} {others : List (FileEvent M)}
    (reading : Reading drawing replay others playback)
    (on : ReadsOn drawing next events playback after) (begun : playback.start = some start)
    (turned : playback.turn drawing = after.finish drawing stop) :
    Plays drawing playback [.hold (stop.getD next.lastT - start)] none := by
  have finishes : after.finish drawing stop = .ok { after with
      finished := true, cues := [.hold (stop.getD next.lastT - start)] } := by
    unfold finish reachStart
    simp only [on.start, begun, on.reading.cues, on.lastT]
    rfl
  exact plays_of_turn reading.cues reading.playing (turned.trans finishes)
    (plays_last rfl rfl)

theorem obey_frame {start t : Nat} {frame : SpanFrame} (begun : after.start = some start)
    (current : after.replay.frame = some frame) :
    obey drawing after (some (.frame t)) = after.showFrame drawing (t - start) frame := by
  unfold obey
  simp only
  unfold Playback.frame
  rw [begun]
  simp only
  unfold frameFrom
  rw [current]

theorem obey_mark_begun {start t : Nat} {label : String} (begun : after.start = some start) :
    obey drawing after (some (.mark t label)) = .ok after := by
  unfold obey
  rw [begun]
  rfl

theorem shows_shown (t : Nat) (picture : C) (moments : List (Moment C)) :
    shows (.shown t picture :: moments) = (t, picture) :: shows moments := rfl

theorem shows_marked (t : Nat) (label : String) (moments : List (Moment C)) :
    shows (.marked t label :: moments) = shows moments := rfl

theorem cuesFrom_cons (start stop : Nat) (shown : Nat × C) (rest : List (Nat × C)) :
    cuesFrom start stop (shown :: rest) =
      [.show (shown.1 - start) shown.2] ++ cuesFrom start stop rest := rfl

theorem plays_begun (legible : Replay.Legible drawing events replay)
    (reading : Reading drawing replay events playback) {start : Nat}
    (begun : playback.start = some start) :
    Plays drawing playback (cuesFrom start (replay.watch drawing events).2
      (shows (replay.watch drawing events).1)) none := by
  induction events generalizing replay playback with
  | nil =>
      rcases reading.turn_end with ⟨after, on, turned⟩
      exact plays_finish reading on begun turned
  | cons event events ih =>
      rcases legible with ⟨step, next, here, rest⟩
      cases step with
      | none =>
          rcases reading.quiet here rest with ⟨after, on, plays⟩
          rw [Replay.watch_quiet here]
          exact plays _ _ (ih rest on.reading (on.start.trans begun))
      | some said =>
          rcases reading.turn here with ⟨after, on, turned⟩
          have begun' := on.start.trans begun
          cases said with
          | frame t =>
              rcases Replay.readEvent_frame here.reads with ⟨frame, current⟩
              rcases showFrame_reading (t - start) on.reading.reads
                (here.drawable t frame rfl current) with ⟨decoded, shown, genuine⟩
              rw [obey_frame begun' (on.frame.trans current), shown] at turned
              rw [Replay.watch_frame here current, shows_shown, cuesFrom_cons]
              refine plays_of_turn reading.cues reading.playing turned ?_
              refine plays_queued (by rw [on.reading.cues]; rfl) ?_
              exact ih rest ⟨rfl, on.reading.playing, decoded, rfl, genuine⟩ begun'
          | mark t label =>
              rw [obey_mark_begun begun'] at turned
              rw [Replay.watch_mark here]
              exact plays_of_turn reading.cues reading.playing turned (ih rest on.reading begun')
          | metaEvent t about =>
              rw [Replay.watch_metaEvent here]
              exact plays_of_turn reading.cues reading.playing turned (ih rest on.reading begun')
          | finish ending =>
              rw [Replay.watch_finish here]
              exact plays_finish reading on begun turned

theorem begin_reading (t : Nat)
    (reads : ∃ decoded, after.replay = { replay with lines := events.map .ok, decoded } ∧
      replay.Genuine drawing decoded)
    (kept : ∀ frame ∈ after.before, Keeps drawing replay events frame) :
    ∃ decoded, after.begin drawing t = .ok { after with
        start := some t
        before := none
        replay := { replay with lines := events.map .ok, decoded }
        cues := after.cues ++ opening (after.before.map (replay.picture drawing)) } ∧
      replay.Genuine drawing decoded := by
  unfold begin
  cases held : after.before with
  | none =>
      rcases reads with ⟨decoded, same, genuine⟩
      refine ⟨decoded, ?_, genuine⟩
      rw [← same]
      cases after
      simp only at held
      subst held
      simp [opening]
  | some frame =>
      have drawable := (kept frame held).drawable
      rcases @showFrame_reading _ _ _ _ _ { after with start := some t, before := none } _ 0
        reads drawable with ⟨decoded, shown, genuine⟩
      exact ⟨decoded, shown, genuine⟩

section seeking

variable {T : Nat}

def lastOf (pending : Option C) (shows : List (Nat × C)) : Option C :=
  (shows.getLast?.map Prod.snd).or pending

def lastUntil (T : Nat) (pending : Option C) (shows : List (Nat × C)) : Option C :=
  lastOf pending (shows.filter fun shown => decide (shown.1 ≤ T))

def after' (T : Nat) (shows : List (Nat × C)) : List (Nat × C) :=
  shows.filter fun shown => decide (T < shown.1)

theorem lastOf_cons (pending : Option C) (t : Nat) (picture : C) (rest : List (Nat × C)) :
    lastOf pending ((t, picture) :: rest) = lastOf (some picture) rest := by
  unfold lastOf
  rw [List.getLast?_cons]
  cases rest.getLast? <;> rfl

theorem lastUntil_cons (pending : Option C) {t : Nat} (picture : C) (rest : List (Nat × C))
    (until' : t ≤ T) :
    lastUntil T pending ((t, picture) :: rest) = lastUntil T (some picture) rest := by
  unfold lastUntil
  rw [List.filter_cons_of_pos (by simpa using until'), lastOf_cons]

theorem lastUntil_later (pending : Option C) {shows : List (Nat × C)}
    (later : ∀ shown ∈ shows, T < shown.1) : lastUntil T pending shows = pending := by
  unfold lastUntil
  rw [List.filter_eq_nil_iff.mpr fun shown member => by simpa using later shown member]
  rfl

theorem after_cons_before {t : Nat} (picture : C) (rest : List (Nat × C)) (until' : t ≤ T) :
    after' T ((t, picture) :: rest) = after' T rest :=
  List.filter_cons_of_neg (by simpa using until')

theorem after_later {shows : List (Nat × C)} (later : ∀ shown ∈ shows, T < shown.1) :
    after' T shows = shows :=
  List.filter_eq_self.mpr fun shown member => by simpa using later shown member

def SeekingTime (drawing : Drawing C) (T : Nat) (pending : Option C) (playback : Playback M C)
    (watched : List (Moment C) × Nat) : Prop :=
  (T ≤ watched.2 → Plays drawing playback (opening (lastUntil T pending (shows watched.1)) ++
    cuesFrom T watched.2 (after' T (shows watched.1))) none) ∧
  (watched.2 < T → Plays drawing playback [] (some (.shorter watched.2 T)))

structure Seeking (drawing : Drawing C) (replay : Replay M) (events : List (FileEvent M))
    (seek : Seek) (playback : Playback M C) : Prop where
  reading : Reading drawing replay events playback
  start : playback.start = none
  seek : playback.seek = some seek
  kept : ∀ frame ∈ playback.before, Keeps drawing replay events frame

theorem Seeking.read {seek : Seek} {step : Option (ReplayStep M)}
    (seeking : Seeking drawing replay (event :: events) seek playback)
    (here : replay.LegibleEvent drawing event events step next)
    (on : ReadsOn drawing next events playback after) :
    Seeking drawing next events seek after ∧
      after.before.map (next.picture drawing) = playback.before.map (replay.picture drawing) := by
  refine ⟨⟨on.reading, on.start.trans seeking.start, on.seek.trans seeking.seek, ?_⟩, ?_⟩
  · intro frame member
    rw [on.before] at member
    exact ((seeking.kept frame member).read here).1
  · rw [on.before]
    cases held : playback.before with
    | none => rfl
    | some frame => exact congrArg some ((seeking.kept frame held).read here).2

theorem finish_begun {stop : Option Nat} {begun : Playback M C} {start : Nat}
    (reached : ({ after with finished := true } : Playback M C).reachStart drawing
      (stop.getD after.replay.lastT) = .ok begun) (from' : begun.start = some start) :
    after.finish drawing stop = .ok { begun with
      cues := begun.cues ++ [.hold (stop.getD after.replay.lastT - start)] } := by
  rcases begun with ⟨replay, seek, first, before, cues, finished⟩
  cases from'
  unfold finish
  simp only [reached]
  rfl

theorem plays_finish_seeking {stop : Option Nat} {others : List (FileEvent M)}
    (reading : Reading drawing replay others playback)
    (seeking : Seeking drawing next events (.time T) after)
    (turned : playback.turn drawing = after.finish drawing stop) :
    SeekingTime drawing T (after.before.map (next.picture drawing)) playback
      ([], stop.getD after.replay.lastT) := by
  have reach : ({ after with finished := true } : Playback M C).reachStart drawing
      (stop.getD after.replay.lastT) = if T ≤ stop.getD after.replay.lastT then
        ({ after with finished := true } : Playback M C).begin drawing T
      else .error (.shorter (stop.getD after.replay.lastT) T) := by
    unfold reachStart
    simp only [seeking.start, seeking.seek]
  constructor
  · intro within
    rcases @begin_reading _ _ _ _ _ { after with finished := true } T seeking.reading.reads
      seeking.kept with ⟨decoded, begun, _⟩
    rw [if_pos within, begun] at reach
    have finishes := finish_begun reach rfl
    simp only [seeking.reading.cues, List.nil_append] at finishes
    refine plays_of_turn reading.cues reading.playing (turned.trans finishes) ?_
    exact plays_last rfl rfl
  · intro past
    refine plays_failed reading.cues reading.playing (turned.trans ?_)
    unfold finish
    simp only [reach]
    rw [if_neg (Nat.not_le.mpr past)]
    rfl

theorem Seeking.on {seek : Seek} (seeking : Seeking drawing replay events seek playback)
    (on : ReadsOn drawing replay events playback after) :
    Seeking drawing replay events seek after :=
  ⟨on.reading, on.start.trans seeking.start, on.seek.trans seeking.seek, fun frame member =>
    seeking.kept frame (on.before ▸ member)⟩

theorem Seeking.keep {seek : Seek} {t : Nat} {frame : SpanFrame}
    (seeking : Seeking drawing next events seek after)
    (here : replay.LegibleEvent drawing event events (some (.frame t)) next)
    (current : next.frame = some frame) :
    Seeking drawing next events seek { after with before := some frame } :=
  ⟨⟨seeking.reading.cues, seeking.reading.playing, seeking.reading.reads⟩, seeking.start,
    seeking.seek, fun _ member => Option.mem_some.mp member ▸ keeps_of_frame here current⟩

theorem obey_frame_beyond {t : Nat} {frame : SpanFrame} {begun : Playback M C}
    (seeking : Seeking drawing next events (.time T) after) (past : T < t)
    (begins : after.begin drawing T = .ok begun) (current : begun.replay.frame = some frame) :
    obey drawing after (some (.frame t)) = begun.showFrame drawing (t - T) frame := by
  unfold obey
  simp only
  unfold Playback.frame beyond
  rw [seeking.start, seeking.seek]
  simp only [if_pos past, begins]
  show begun.frameFrom drawing T t = _
  unfold frameFrom
  rw [current]

/-- A frame that is not past the starting point is what may show there. -/
theorem obey_frame_before {seek : Seek} {t : Nat} (seeking : Seeking drawing next events seek after)
    (until' : ∀ T, seek = .time T → t ≤ T) :
    obey drawing after (some (.frame t)) = .ok { after with before := after.replay.frame } := by
  unfold obey
  simp only
  unfold Playback.frame beyond
  rw [seeking.start, seeking.seek]
  cases seek with
  | time T => simp only [if_neg (Nat.not_lt.mpr (until' T rfl))]
  | mark label => rfl

theorem obey_mark {seek : Seek} {t : Nat} {label : String}
    (seeking : Seeking drawing next events seek after) :
    obey drawing after (some (.mark t label)) =
      if seek = .mark label then after.begin drawing t else .ok after := by
  unfold obey
  simp only [seeking.start, seeking.seek, Option.isNone_none, Bool.true_and, beq_iff_eq,
    Option.some.injEq]

theorem plays_from_begun {start : Nat} {begun : Playback M C}
    (legible : Replay.Legible drawing events next)
    (reads : ∃ decoded, begun.replay = { next with lines := events.map .ok, decoded } ∧
      next.Genuine drawing decoded) (begins : begun.start = some start)
    (playing : begun.finished = false) :
    Plays drawing begun (begun.cues ++ cuesFrom start (next.watch drawing events).2
      (shows (next.watch drawing events).1)) none :=
  plays_queued rfl (@plays_begun _ _ _ _ _ { begun with cues := [] } legible ⟨rfl, playing, reads⟩ _
    begins)

theorem plays_beyond {t : Nat} {frame : SpanFrame} (rest : Replay.Legible drawing events next)
    (drawable : next.Drawable drawing frame)
    (current : next.frame = some frame) (seeking : Seeking drawing next events (.time T) after)
    (past : T < t) :
    ∃ begun, obey drawing after (some (.frame t)) = .ok begun ∧
      Plays drawing begun (opening (after.before.map (next.picture drawing)) ++
        cuesFrom T (next.watch drawing events).2
          ((t, next.picture drawing frame) :: shows (next.watch drawing events).1)) none := by
  rcases begin_reading T seeking.reading.reads seeking.kept with ⟨decoded, begins, genuine⟩
  have shown := @showFrame_reading _ _ drawing next events { after with
      start := some T
      before := none
      replay := { next with lines := events.map .ok, decoded }
      cues := after.cues ++ opening (after.before.map (next.picture drawing)) } _ (t - T)
    ⟨decoded, rfl, genuine⟩ drawable
  rcases shown with ⟨decoded', shown, genuine'⟩
  refine ⟨_, (obey_frame_beyond seeking past begins current).trans shown, ?_⟩
  have left := @plays_from_begun _ _ drawing next events T { after with
      start := some T
      before := none
      replay := { next with lines := events.map .ok, decoded := decoded' }
      cues := after.cues ++ opening (after.before.map (next.picture drawing)) ++
        [.show (t - T) (next.picture drawing frame)] } rest ⟨decoded', rfl, genuine'⟩ rfl
    seeking.reading.playing
  simp only [seeking.reading.cues, List.nil_append] at left ⊢
  rw [List.append_assoc] at left
  exact left

theorem plays_seeking_time (legible : Replay.Legible drawing events replay)
    (seeking : Seeking drawing replay events (.time T) playback) :
    SeekingTime drawing T (playback.before.map (replay.picture drawing)) playback
      (replay.watch drawing events) := by
  induction events generalizing replay playback with
  | nil =>
      rcases seeking.reading.turn_end with ⟨after, on, turned⟩
      have ended := plays_finish_seeking seeking.reading (seeking.on on) turned
      rw [on.before] at ended
      have stopped : (none : Option Nat).getD after.replay.lastT = replay.lastT := on.lastT
      rw [stopped] at ended
      exact ended
  | cons event events ih =>
      rcases legible with ⟨step, next, here, rest⟩
      cases step with
      | none =>
          rcases seeking.reading.quiet here rest with ⟨after, on, plays⟩
          rcases seeking.read here on with ⟨seeking', pending⟩
          rw [Replay.watch_quiet here, ← pending]
          rcases ih rest seeking' with ⟨within, past⟩
          exact ⟨fun le => plays _ _ (within le), fun lt => plays _ _ (past lt)⟩
      | some said =>
          rcases seeking.reading.turn here with ⟨after, on, turned⟩
          rcases seeking.read here on with ⟨seeking', pending⟩
          have goOn : ∀ {reached : Playback M C} {pending : Option C}
              {watched : List (Moment C) × Nat}, playback.turn drawing = .ok reached →
              SeekingTime drawing T pending reached watched →
              SeekingTime drawing T pending playback watched := by
            rintro reached pending watched turned ⟨within, past⟩
            have empty := seeking.reading.cues
            have playing := seeking.reading.playing
            exact ⟨fun le => plays_of_turn empty playing turned (within le),
              fun lt => plays_of_turn empty playing turned (past lt)⟩
          cases said with
          | frame t =>
              rcases Replay.readEvent_frame here.reads with ⟨frame, current⟩
              rw [Replay.watch_frame here current]
              by_cases past : T < t
              · rcases plays_beyond rest (here.drawable t frame rfl current) current seeking' past
                  with ⟨begun, obeyed, plays⟩
                rcases Replay.watch_times rest with ⟨within, stops⟩
                rw [here.lastT, Replay.readEvent_said here.reads] at within stops
                have later : ∀ shown ∈ (t, next.picture drawing frame) ::
                    shows (next.watch drawing events).1, T < shown.1 := by
                  intro shown member
                  rcases List.mem_cons.mp member with rfl | others
                  · exact past
                  · exact past.trans_le (within shown others)
                constructor
                · intro _
                  rw [shows_shown, lastUntil_later _ later, after_later later, ← pending]
                  exact plays_of_turn seeking.reading.cues seeking.reading.playing
                    (turned.trans obeyed) plays
                · intro short
                  exact absurd short (Nat.not_lt.mpr (past.le.trans stops))
              · have until' := Nat.not_lt.mp past
                rw [obey_frame_before seeking' (by rintro _ ⟨⟩; exact until'), on.frame, current]
                  at turned
                have left := goOn turned (ih rest (seeking'.keep here current))
                unfold SeekingTime at left ⊢
                rw [shows_shown, lastUntil_cons _ _ _ until', after_cons_before _ _ until']
                exact left
          | mark t label =>
              rw [obey_mark seeking', if_neg (by simp)] at turned
              rw [Replay.watch_mark here, ← pending]
              exact goOn turned (ih rest seeking')
          | metaEvent t about =>
              rw [Replay.watch_metaEvent here, ← pending]
              exact goOn turned (ih rest seeking')
          | finish ending =>
              rw [Replay.watch_finish here, ← pending]
              exact plays_finish_seeking seeking.reading seeking' turned

def SeekingMark (drawing : Drawing C) (label : String) (pending : Option C)
    (playback : Playback M C) (watched : List (Moment C) × Nat) : Prop :=
  (∀ front t back, watched.1 = front ++ .marked t label :: back →
    (∀ t', .marked t' label ∉ front) → Plays drawing playback
      (opening (lastOf pending (shows front)) ++ cuesFrom t watched.2 (shows back)) none) ∧
  ((∀ t, .marked t label ∉ watched.1) → Plays drawing playback [] (some (.noMark label)))

theorem plays_finish_unmarked {label : String} {stop : Option Nat} {others : List (FileEvent M)}
    (pending : Option C) (last : Nat) (reading : Reading drawing replay others playback)
    (seeking : Seeking drawing next events (.mark label) after)
    (turned : playback.turn drawing = after.finish drawing stop) :
    SeekingMark drawing label pending playback ([], last) := by
  refine ⟨?_, ?_⟩
  · intro front t back same
    simp at same
  · intro _
    refine plays_failed reading.cues reading.playing (turned.trans ?_)
    unfold finish reachStart
    simp only [seeking.start, seeking.seek]
    rfl

theorem plays_seeking_mark {label : String} (legible : Replay.Legible drawing events replay)
    (seeking : Seeking drawing replay events (.mark label) playback) :
    SeekingMark drawing label (playback.before.map (replay.picture drawing)) playback
      (replay.watch drawing events) := by
  induction events generalizing replay playback with
  | nil =>
      rcases seeking.reading.turn_end with ⟨after, on, turned⟩
      exact plays_finish_unmarked _ _ seeking.reading (seeking.on on) turned
  | cons event events ih =>
      rcases legible with ⟨step, next, here, rest⟩
      cases step with
      | none =>
          rcases seeking.reading.quiet here rest with ⟨after, on, plays⟩
          rcases seeking.read here on with ⟨seeking', pending⟩
          rw [Replay.watch_quiet here, ← pending]
          rcases ih rest seeking' with ⟨marked, unmarked⟩
          exact ⟨fun front t back same first => plays _ _ (marked front t back same first),
            fun never => plays _ _ (unmarked never)⟩
      | some said =>
          rcases seeking.reading.turn here with ⟨after, on, turned⟩
          rcases seeking.read here on with ⟨seeking', pending⟩
          have goOn : ∀ {reached : Playback M C} {cues : List (Cue C)} {error : Option PlayError},
              playback.turn drawing = .ok reached → Plays drawing reached cues error →
              Plays drawing playback cues error :=
            plays_of_turn seeking.reading.cues seeking.reading.playing
          cases said with
          | frame t =>
              rcases Replay.readEvent_frame here.reads with ⟨frame, current⟩
              rw [Replay.watch_frame here current]
              rw [obey_frame_before seeking' (by rintro _ ⟨⟩), on.frame, current] at turned
              rcases ih rest (seeking'.keep here current) with ⟨marked, unmarked⟩
              constructor
              · intro front at' back same first
                cases front with
                | nil => cases same
                | cons moment front =>
                    rw [List.cons_append, List.cons.injEq] at same
                    rcases same with ⟨rfl, same⟩
                    rw [shows_shown, lastOf_cons]
                    exact goOn turned (marked front at' back same fun t' member =>
                      first t' (List.mem_cons_of_mem _ member))
              · intro never
                exact goOn turned (unmarked fun t' member =>
                  never t' (List.mem_cons_of_mem _ member))
          | mark t found =>
              rw [obey_mark seeking'] at turned
              rw [Replay.watch_mark here, ← pending]
              by_cases wanted : label = found
              · subst wanted
                rw [if_pos rfl] at turned
                rcases begin_reading t seeking'.reading.reads seeking'.kept with
                  ⟨decoded, begins, genuine⟩
                constructor
                · intro front at' back same first
                  cases front with
                  | nil =>
                      cases same
                      refine goOn (turned.trans begins) ?_
                      have left := @plays_from_begun _ _ drawing next events t { after with
                          start := some t
                          before := none
                          replay := { next with lines := events.map .ok, decoded }
                          cues := after.cues ++ opening (after.before.map (next.picture drawing)) }
                        rest ⟨decoded, rfl, genuine⟩ rfl seeking'.reading.playing
                      simp only [seeking'.reading.cues, List.nil_append] at left ⊢
                      exact left
                  | cons moment front =>
                      rw [List.cons_append, List.cons.injEq] at same
                      exact absurd (same.1 ▸ List.mem_cons_self) (first t)
                · intro never
                  exact absurd List.mem_cons_self (never t)
              · rw [if_neg (by simpa using wanted)] at turned
                rcases ih rest seeking' with ⟨marked, unmarked⟩
                constructor
                · intro front at' back same first
                  cases front with
                  | nil =>
                      rw [List.nil_append, List.cons.injEq, Moment.marked.injEq] at same
                      exact absurd same.1.2.symm wanted
                  | cons moment front =>
                      rw [List.cons_append, List.cons.injEq] at same
                      rcases same with ⟨rfl, same⟩
                      rw [shows_marked]
                      exact goOn turned (marked front at' back same fun t' member =>
                        first t' (List.mem_cons_of_mem _ member))
                · intro never
                  exact goOn turned (unmarked fun t' member =>
                    never t' (List.mem_cons_of_mem _ member))
          | metaEvent t about =>
              rw [Replay.watch_metaEvent here, ← pending]
              rcases ih rest seeking' with ⟨marked, unmarked⟩
              exact ⟨fun front t back same first => goOn turned (marked front t back same first),
                fun never => goOn turned (unmarked never)⟩
          | finish ending =>
              rw [Replay.watch_finish here]
              exact plays_finish_unmarked _ _ seeking.reading seeking' turned

end seeking

end Playback

end Rozi.Recording
