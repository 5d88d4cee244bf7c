import Rozi.Recording.Read

/-!
When each frame of a recording is shown during playback, from any starting point.
-/

namespace Rozi.Recording

inductive Seek where
  | time (t : Nat)
  | mark (label : String)
  deriving DecidableEq, Repr

inductive Cue (C : Type) where
  | show (t : Nat) (frame : C)
  | hold (untilT : Nat)
  deriving DecidableEq, Repr

/-- How playback fails. The text of the refusals is left out; `panicked` is an `expect` or an
`unreachable` that fires. -/
inductive PlayError where
  | unreadable (error : String)
  | shorter (length start : Nat)
  | noMark (label : String)
  | panicked
  deriving DecidableEq, Repr

structure Playback (M C : Type) where
  replay : Replay M
  seek : Option Seek
  start : Option Nat
  /-- The latest frame before the starting point, while it has not been reached. -/
  before : Option SpanFrame := none
  cues : List (Cue C) := []
  finished : Bool := false

namespace Playback

variable {M C : Type} (drawing : Drawing C)

def new (replay : Replay M) (seek : Option Seek) : Playback M C :=
  { replay
    seek
    start := match seek with
      | none | some (.time 0) => some 0
      | some _ => none }

variable (playback : Playback M C)

def readable {α : Type} : Except String α → Except PlayError α
  | .error error => .error (.unreadable error)
  | .ok value => .ok value

/-- Queue a frame to be shown. -/
def showFrame (at' : Nat) (frame : SpanFrame) : Except PlayError (Playback M C) := do
  let (frame, replay) ← readable (playback.replay.captured drawing frame)
  return { playback with replay, cues := playback.cues ++ [.show at' frame] }

/-- Start playing from recording time `t`, showing the screen as it was then. -/
def begin (t : Nat) : Except PlayError (Playback M C) :=
  let playback := { playback with start := some t }
  match playback.before with
  | some frame => { playback with before := none }.showFrame drawing 0 frame
  | none => .ok playback

def frameFrom (start t : Nat) : Except PlayError (Playback M C) :=
  match playback.replay.frame with
  | some frame => playback.showFrame drawing (t - start) frame
  | none => .error .panicked

def beyond (t : Nat) : Option Nat :=
  match playback.seek with
  | some (.time start) => if start < t then some start else none
  | _ => none

def frame (t : Nat) : Except PlayError (Playback M C) :=
  match playback.start with
  | some start => playback.frameFrom drawing start t
  | none =>
      match playback.beyond t with
      -- The first frame after the starting point: the one before it is what showed there.
      | some start => do
          let playback ← playback.begin drawing start
          playback.frameFrom drawing start t
      | none => .ok { playback with before := playback.replay.frame }

/-- The first half of `finish`: begin at the starting point, if the recording lasts that long. -/
def reachStart (stop : Nat) : Except PlayError (Playback M C) :=
  match playback.start, playback.seek with
  | some _, _ => .ok playback
  | none, some (.time start) =>
      if start ≤ stop then playback.begin drawing start else .error (.shorter stop start)
  | none, some (.mark label) => .error (.noMark label)
  | none, none => .error .panicked

def finish (stop : Option Nat) : Except PlayError (Playback M C) := do
  let stop := stop.getD playback.replay.lastT
  let playback ← { playback with finished := true }.reachStart drawing stop
  match playback.start with
  | some start => return { playback with cues := playback.cues ++ [.hold (stop - start)] }
  | none => .error .panicked

/-- One turn of the loop of `next_cue` that finds no cue: read a step, and do what it says. -/
def turn : Except PlayError (Playback M C) := do
  let (step, replay) ← readable (playback.replay.step drawing)
  let playback := { playback with replay }
  match step with
  | none => playback.finish drawing none
  | some (.frame t) => playback.frame drawing t
  | some (.mark t label) =>
      if playback.start.isNone && playback.seek == some (.mark label) then
        playback.begin drawing t
      else .ok playback
  | some (.finish finish) => playback.finish drawing (some finish.t)
  | some (.metaEvent _ _) => .ok playback

/-! A turn reads a line at least, or finishes. -/

def left : Nat := playback.replay.lines.length + if playback.finished then 0 else 1

variable {drawing playback}
variable {next : Playback M C}

theorem lines_of_stepLines {lines : List (Except String (FileEvent M))} {replay after : Replay M}
    {step : Option (ReplayStep M)}
    (stepped : replay.stepLines drawing lines = .ok (step, after)) :
    after.lines.length + (if step.isSome then 1 else 0) ≤ lines.length := by
  induction lines generalizing replay with
  | nil =>
      cases stepped
      exact le_rfl
  | cons line lines ih =>
      cases line with
      | error error => cases stepped
      | ok event =>
          rw [Replay.stepLines] at stepped
          cases read : replay.readEvent drawing event with
          | error error =>
              rw [read] at stepped
              cases stepped
          | ok result =>
              rcases result with ⟨said, replay⟩
              rw [read] at stepped
              cases said with
              | some said =>
                  cases stepped
                  exact le_rfl
              | none => exact (ih stepped).trans (Nat.le_succ _)

theorem showFrame_left {at' : Nat} {frame : SpanFrame}
    (shown : playback.showFrame drawing at' frame = .ok next) :
    next.replay.lines = playback.replay.lines ∧ next.finished = playback.finished := by
  unfold showFrame Replay.captured Replay.decode readable at shown
  simp only [Checks.bind_eq_ok, Checks.pure_eq_ok] at shown
  rcases shown with ⟨⟨picture, replay⟩, captured, rfl⟩
  split at captured
  · cases captured
  · rename_i value same
    simp only [Checks.bind_eq_ok, Checks.pure_eq_ok] at same
    rcases same with ⟨_, ⟨_, _, rfl⟩, rfl⟩
    cases captured
    exact ⟨rfl, rfl⟩

theorem begin_left {t : Nat} (begun : playback.begin drawing t = .ok next) :
    next.replay.lines = playback.replay.lines ∧ next.finished = playback.finished := by
  unfold begin at begun
  cases kept : playback.before with
  | none =>
      simp only [kept, Except.ok.injEq] at begun
      rw [← begun]
      exact ⟨rfl, rfl⟩
  | some frame =>
      simp only [kept] at begun
      have shown := showFrame_left begun
      exact shown

theorem frameFrom_left {start t : Nat} (shown : playback.frameFrom drawing start t = .ok next) :
    next.replay.lines = playback.replay.lines ∧ next.finished = playback.finished := by
  unfold frameFrom at shown
  cases current : playback.replay.frame with
  | none =>
      rw [current] at shown
      cases shown
  | some frame =>
      rw [current] at shown
      exact showFrame_left shown

theorem frame_left {t : Nat} (shown : playback.frame drawing t = .ok next) :
    next.replay.lines = playback.replay.lines ∧ next.finished = playback.finished := by
  unfold frame at shown
  cases started : playback.start with
  | some start =>
      rw [started] at shown
      exact frameFrom_left shown
  | none =>
      rw [started] at shown
      cases past : playback.beyond t with
      | none =>
          rw [past] at shown
          cases shown
          exact ⟨rfl, rfl⟩
      | some start =>
          rw [past] at shown
          simp only [Checks.bind_eq_ok] at shown
          rcases shown with ⟨begun, first, then_⟩
          have kept := begin_left first
          have kept' := frameFrom_left then_
          exact ⟨kept'.1.trans kept.1, kept'.2.trans kept.2⟩

theorem reachStart_left {stop : Nat} (begun : playback.reachStart drawing stop = .ok next) :
    next.replay.lines = playback.replay.lines ∧ next.finished = playback.finished := by
  unfold reachStart at begun
  split at begun
  · cases begun
    exact ⟨rfl, rfl⟩
  · split_ifs at begun
    exact begin_left begun
  · cases begun
  · cases begun

theorem finish_left {stop : Option Nat} (finished : playback.finish drawing stop = .ok next) :
    next.replay.lines = playback.replay.lines ∧ next.finished = true := by
  unfold finish at finished
  simp only [Checks.bind_eq_ok] at finished
  rcases finished with ⟨begun, first, last⟩
  have kept := reachStart_left first
  split at last
  · rw [Checks.pure_eq_ok] at last
    rw [← last]
    exact kept
  · cases last

theorem left_of_turn (playing : playback.finished = false)
    (turned : playback.turn drawing = .ok next) : next.left < playback.left := by
  unfold turn readable at turned
  simp only [Checks.bind_eq_ok] at turned
  rcases turned with ⟨⟨step, replay⟩, stepped, turned⟩
  have read : playback.replay.step drawing = .ok (step, replay) := by
    split at stepped
    · cases stepped
    · rename_i value same
      cases stepped
      exact same
  have consumed := lines_of_stepLines read
  unfold left
  rw [playing]
  cases step with
  | none =>
      have done := finish_left turned
      rw [done.1, done.2]
      simp only [Option.isSome_none, Bool.false_eq_true, if_false, if_true] at consumed ⊢
      omega
  | some step =>
      simp only [Option.isSome_some, if_true, Bool.false_eq_true, if_false] at consumed ⊢
      have kept : next.replay.lines = replay.lines := by
        cases step with
        | frame t =>
            have shown := frame_left turned
            exact shown.1
        | mark t label =>
            simp only at turned
            split_ifs at turned
            · have begun := begin_left turned
              exact begun.1
            · cases turned
              rfl
        | metaEvent t about =>
            cases turned
            rfl
        | finish ending =>
            have done := finish_left turned
            exact done.1
      rw [kept]
      split_ifs <;> omega

/-- The next cue, or `none` once the recording has been played to its end. -/
def nextCue (drawing : Drawing C) (playback : Playback M C) :
    Except PlayError (Option (Cue C) × Playback M C) :=
  match playback.cues with
  | cue :: cues => .ok (some cue, { playback with cues })
  | [] =>
      if playing : playback.finished then .ok (none, playback)
      else match turned : playback.turn drawing with
      | .error error => .error error
      | .ok next =>
          have : next.left < playback.left := left_of_turn (Bool.not_eq_true _ ▸ playing) turned
          nextCue drawing next
termination_by playback.left

inductive Plays (drawing : Drawing C) :
    Playback M C → List (Cue C) → Option PlayError → Prop
  | ended {playback last : Playback M C} (none_left : playback.nextCue drawing = .ok (none, last)) :
      Plays drawing playback [] none
  | failed {playback : Playback M C} {error : PlayError}
      (failed : playback.nextCue drawing = .error error) : Plays drawing playback [] (some error)
  | cue {playback next : Playback M C} {cue : Cue C} {cues : List (Cue C)}
      {error : Option PlayError} (first : playback.nextCue drawing = .ok (some cue, next))
      (rest : Plays drawing next cues error) : Plays drawing playback (cue :: cues) error

end Playback

end Rozi.Recording
