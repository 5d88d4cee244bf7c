import Rozi.Recording.Play
import Rozi.Recording.Watch

/-!
How a playback goes on: what its cues are after one turn, and what a turn does with each event of a
recording that can be read.
-/

namespace Rozi.Recording

namespace Playback

variable {M C : Type} {drawing : Drawing C} {playback next : Playback M C}
variable {cues cues' : List (Cue C)} {error error' : Option PlayError}

theorem Plays.unique (one : Plays drawing playback cues error)
    (two : Plays drawing playback cues' error') : cues = cues' ∧ error = error' := by
  induction one generalizing cues' error' with
  | ended none_left =>
      cases two with
      | ended => exact ⟨rfl, rfl⟩
      | failed failed => exact absurd (none_left.symm.trans failed) (by simp)
      | cue first => exact absurd (none_left.symm.trans first) (by simp)
  | failed failed =>
      cases two with
      | ended none_left => exact absurd (failed.symm.trans none_left) (by simp)
      | failed again => exact ⟨rfl, congrArg some (Except.error.inj (failed.symm.trans again))⟩
      | cue first => exact absurd (failed.symm.trans first) (by simp)
  | cue first rest ih =>
      cases two with
      | ended none_left => exact absurd (first.symm.trans none_left) (by simp)
      | failed failed => exact absurd (first.symm.trans failed) (by simp)
      | cue again rest' =>
          have same := Except.ok.inj (first.symm.trans again)
          rw [Prod.mk.injEq, Option.some.injEq] at same
          rcases same with ⟨rfl, rfl⟩
          rcases ih rest' with ⟨rfl, rfl⟩
          exact ⟨rfl, rfl⟩

theorem Plays.congr (same : playback.nextCue drawing = next.nextCue drawing)
    (plays : Plays drawing next cues error) : Plays drawing playback cues error := by
  cases plays with
  | ended none_left => exact .ended (same.trans none_left)
  | failed failed => exact .failed (same.trans failed)
  | cue first rest => exact .cue (same.trans first) rest

theorem nextCue_turn (empty : playback.cues = []) (playing : playback.finished = false) :
    playback.nextCue drawing = (playback.turn drawing).bind fun next => next.nextCue drawing := by
  rw [nextCue]
  split
  · rename_i cue cues queued
    rw [empty] at queued
    cases queued
  · rw [dif_neg (by simp [playing])]
    split
    · rename_i failed
      rw [failed]
      rfl
    · rename_i next turned
      have same : (playback.turn drawing).bind (fun next => next.nextCue drawing) =
          next.nextCue drawing := by
        rw [turned]
        rfl
      exact same.symm

theorem plays_of_turn (empty : playback.cues = []) (playing : playback.finished = false)
    (turned : playback.turn drawing = .ok next) (plays : Plays drawing next cues error) :
    Plays drawing playback cues error := by
  refine plays.congr ?_
  rw [nextCue_turn empty playing, turned]
  rfl

theorem plays_failed {failure : PlayError} (empty : playback.cues = [])
    (playing : playback.finished = false) (turned : playback.turn drawing = .error failure) :
    Plays drawing playback [] (some failure) := by
  refine .failed ?_
  rw [nextCue_turn empty playing, turned]
  rfl

theorem plays_queued {queued : List (Cue C)} (has : playback.cues = queued)
    (plays : Plays drawing { playback with cues := [] } cues error) :
    Plays drawing playback (queued ++ cues) error := by
  induction queued generalizing playback with
  | nil =>
      rw [List.nil_append]
      have same : { playback with cues := [] } = playback := by
        rw [← has]
      rwa [same] at plays
  | cons cue queued ih =>
      have first : playback.nextCue drawing =
          .ok (some cue, { playback with cues := queued }) := by
        rw [nextCue, has]
      exact .cue first (ih rfl plays)

theorem plays_finished (empty : playback.cues = []) (done : playback.finished = true) :
    Plays drawing playback [] none := by
  have none_left : playback.nextCue drawing = .ok (none, playback) := by
    rw [nextCue]
    split
    · rename_i cue cues queued
      rw [empty] at queued
      cases queued
    · rw [dif_pos done]
  exact .ended none_left

theorem plays_last {queued : List (Cue C)} (has : playback.cues = queued)
    (done : playback.finished = true) : Plays drawing playback queued none := by
  have rest : Plays drawing { playback with cues := [] } [] none := plays_finished rfl done
  have plays := plays_queued has rest
  rwa [List.append_nil] at plays

def obey (drawing : Drawing C) (playback : Playback M C) :
    Option (ReplayStep M) → Except PlayError (Playback M C)
  | none => playback.finish drawing none
  | some (.frame t) => playback.frame drawing t
  | some (.mark t label) =>
      if playback.start.isNone && playback.seek == some (.mark label) then
        playback.begin drawing t
      else .ok playback
  | some (.finish finish) => playback.finish drawing (some finish.t)
  | some (.metaEvent _ _) => .ok playback

theorem turn_eq {step : Option (ReplayStep M)} {replay : Replay M}
    (stepped : playback.replay.step drawing = .ok (step, replay)) :
    playback.turn drawing = obey drawing { playback with replay } step := by
  unfold turn readable
  rw [stepped]
  rcases step with _ | (_ | _ | _ | _) <;> rfl

end Playback

namespace Replay

variable {M C : Type} {drawing : Drawing C} {replay next : Replay M}
variable {event : FileEvent M} {events : List (FileEvent M)} {step : Option (ReplayStep M)}

/-- What is to be read does not depend on the lines a replay was given before. -/
theorem stepLines_lines (legible : Legible drawing events replay)
    (lines lines' : List (Except String (FileEvent M)))
    (decoded : AList fun _ : String => DecodedImage) :
    stepLines drawing (events.map .ok) { replay with lines, decoded } =
      stepLines drawing (events.map .ok) { replay with lines := lines', decoded } := by
  induction events generalizing replay with
  | nil => rfl
  | cons event events ih =>
      rcases legible with ⟨said, next, here, rest⟩
      simp only [List.map_cons, stepLines]
      rw [readEvent_alike here.room here.reads, readEvent_alike here.room here.reads]
      cases said with
      | none => exact ih rest
      | some said => rfl

theorem step_cons {said : ReplayStep M}
    (here : replay.LegibleEvent drawing event events (some said) next)
    (decoded : AList fun _ : String => DecodedImage) :
    ({ replay with lines := (event :: events).map .ok, decoded } : Replay M).step drawing =
      .ok (some said, { next with lines := events.map .ok, decoded }) := by
  unfold Replay.step
  simp only [List.map_cons, stepLines]
  rw [readEvent_alike here.room here.reads]

theorem step_quiet (here : replay.LegibleEvent drawing event events none next)
    (rest : Legible drawing events next) (decoded : AList fun _ : String => DecodedImage) :
    ({ replay with lines := (event :: events).map .ok, decoded } : Replay M).step drawing =
      ({ next with lines := events.map .ok, decoded } : Replay M).step drawing := by
  unfold Replay.step
  simp only [List.map_cons, stepLines]
  rw [readEvent_alike here.room here.reads]
  exact stepLines_lines rest _ _ decoded

theorem readEvent_frame {t : Nat}
    (reads : replay.readEvent drawing event = .ok (some (.frame t), next)) :
    ∃ frame, next.frame = some frame := by
  unfold readEvent at reads
  cases event with
  | encoded event =>
      cases event with
      | keyframe time frame =>
          simp only [Checks.bind_eq_ok, Checks.pure_eq_ok, Prod.mk.injEq, Option.some.injEq,
            ReplayStep.frame.injEq] at reads
          rcases reads with ⟨_, _, rfl, rfl⟩
          exact ⟨frame, rfl⟩
      | delta delta =>
          simp only [Checks.bind_eq_ok, Checks.pure_eq_ok, Prod.mk.injEq, Option.some.injEq,
            ReplayStep.frame.injEq] at reads
          rcases reads with ⟨frame, _, rfl, rfl⟩
          exact ⟨frame, rfl⟩
      | resize time width height => cases reads
  | image image =>
      simp only [Checks.bind_eq_ok, Checks.pure_eq_ok, Prod.mk.injEq] at reads
      rcases reads with ⟨_, _, impossible, _⟩
      cases impossible
  | mark time label | metaEvent time about | finish ending | unknown => cases reads

theorem readEvent_said {said : ReplayStep M}
    (reads : replay.readEvent drawing event = .ok (some said, next)) :
    event.time = some (match said with
      | .frame t | .mark t _ | .metaEvent t _ => t
      | .finish ending => ending.t) := by
  unfold readEvent at reads
  cases event with
  | encoded event =>
      cases event with
      | keyframe time frame =>
          simp only [Checks.bind_eq_ok, Checks.pure_eq_ok, Prod.mk.injEq, Option.some.injEq] at reads
          rcases reads with ⟨_, _, rfl, _⟩
          rfl
      | delta delta =>
          simp only [Checks.bind_eq_ok, Checks.pure_eq_ok, Prod.mk.injEq, Option.some.injEq] at reads
          rcases reads with ⟨_, _, rfl, _⟩
          rfl
      | resize time width height => cases reads
  | image image =>
      simp only [Checks.bind_eq_ok, Checks.pure_eq_ok, Prod.mk.injEq] at reads
      rcases reads with ⟨_, _, impossible, _⟩
      cases impossible
  | mark time label | metaEvent time about | finish ending =>
      cases reads
      rfl
  | unknown => cases reads

end Replay

end Rozi.Recording
