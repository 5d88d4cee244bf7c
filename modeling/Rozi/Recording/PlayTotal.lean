import Rozi.Recording.SeekWatch

/-!
A playback comes to an end and never panics, whatever the file it plays.
-/

namespace Rozi.Recording

variable {M C : Type} {drawing : Drawing C}

def Cue.Shows : Cue C → Prop
  | .show _ _ => True
  | .hold _ => False

namespace Replay

theorem stepLines_frame {lines : List (Except String (FileEvent M))} {replay next : Replay M}
    {t : Nat} (stepped : stepLines drawing lines replay = .ok (some (.frame t), next)) :
    ∃ frame, next.frame = some frame := by
  induction lines generalizing replay with
  | nil => cases stepped
  | cons line lines ih =>
      cases line with
      | error error => cases stepped
      | ok event =>
          rw [stepLines] at stepped
          cases read : replay.readEvent drawing event with
          | error error =>
              rw [read] at stepped
              cases stepped
          | ok result =>
              rcases result with ⟨said, after⟩
              rw [read] at stepped
              cases said with
              | none => exact ih stepped
              | some said =>
                  cases stepped
                  rcases readEvent_frame read with ⟨frame, current⟩
                  exact ⟨frame, current⟩

end Replay

namespace Playback

variable {playback next : Playback M C} {error : PlayError}

def Aimed (playback : Playback M C) : Prop := playback.start = none → playback.seek ≠ none

def due (playback : Playback M C) : Nat :=
  playback.cues.length + (if playback.start.isNone then 1 else 0) + playback.replay.lines.length

structure GoesOn (playback next : Playback M C) : Prop where
  aimed : next.Aimed
  shows : ∀ cue ∈ next.cues, cue.Shows
  due : next.due ≤ playback.due
  playing : next.finished = false

theorem showFrame_ok {at' : Nat} {frame : SpanFrame}
    (shown : playback.showFrame drawing at' frame = .ok next) :
    ∃ picture, next.cues = playback.cues ++ [.show at' picture] ∧ next.start = playback.start ∧
      next.seek = playback.seek ∧ next.finished = playback.finished ∧
      next.replay.lines = playback.replay.lines ∧ next.replay.frame = playback.replay.frame := by
  have left := showFrame_left shown
  unfold showFrame at shown
  simp only [Checks.bind_eq_ok, Checks.pure_eq_ok] at shown
  rcases shown with ⟨⟨picture, replay⟩, captured, rfl⟩
  refine ⟨picture, rfl, rfl, rfl, rfl, left.1, ?_⟩
  unfold readable Replay.captured Replay.decode at captured
  split at captured
  · cases captured
  · rename_i same
    simp only [Checks.bind_eq_ok, Checks.pure_eq_ok] at same
    rcases same with ⟨_, ⟨_, _, rfl⟩, rfl⟩
    cases captured
    rfl

theorem readable_failed {α : Type} {result : Except String α} {ε : PlayError}
    (failed : readable result = .error ε) : ε ≠ .panicked := by
  cases result with
  | ok value => cases failed
  | error error =>
      cases failed
      rintro ⟨⟩

theorem showFrame_failed {at' : Nat} {frame : SpanFrame}
    (failed : playback.showFrame drawing at' frame = .error error) : error ≠ .panicked := by
  unfold showFrame at failed
  cases captured : readable (playback.replay.captured drawing frame) with
  | ok result =>
      rw [captured] at failed
      cases failed
  | error error' =>
      rw [captured] at failed
      cases failed
      exact readable_failed captured

theorem begin_ok {t : Nat} (begun : playback.begin drawing t = .ok next) :
    ∃ front : List (Cue C), next.cues = playback.cues ++ front ∧ front.length ≤ 1 ∧
      (∀ cue ∈ front, cue.Shows) ∧ next.start = some t ∧ next.seek = playback.seek ∧
      next.finished = playback.finished ∧ next.replay.lines = playback.replay.lines ∧
      next.replay.frame = playback.replay.frame := by
  unfold begin at begun
  cases kept : playback.before with
  | none =>
      simp only [kept, Except.ok.injEq] at begun
      subst begun
      exact ⟨[], (List.append_nil _).symm, Nat.zero_le _, by simp, rfl, rfl, rfl, rfl, rfl⟩
  | some frame =>
      simp only [kept] at begun
      rcases showFrame_ok begun with ⟨picture, cues, start, seek, finished, lines, kept'⟩
      refine ⟨[.show 0 picture], cues, le_rfl, ?_, start, seek, finished, lines, kept'⟩
      intro cue member
      rw [List.mem_singleton.mp member]
      trivial

theorem begin_failed {t : Nat} (failed : playback.begin drawing t = .error error) :
    error ≠ .panicked := by
  unfold begin at failed
  cases kept : playback.before with
  | none =>
      simp only [kept] at failed
      cases failed
  | some frame =>
      simp only [kept] at failed
      exact showFrame_failed failed

inductive TurnsTo (playback : Playback M C) : Except PlayError (Playback M C) → Prop
  | fails {error : PlayError} (meant : error ≠ .panicked) : TurnsTo playback (.error error)
  | goesOn {next : Playback M C} (on : GoesOn playback next) : TurnsTo playback (.ok next)
  | ends {next : Playback M C} (shown : List (Cue C)) (stop : Nat) (done : next.finished = true)
      (cues : next.cues = shown ++ [.hold stop]) (shows : ∀ cue ∈ shown, cue.Shows)
      (due : shown.length ≤ playback.due) : TurnsTo playback (.ok next)

section turns

variable {after : Playback M C}

structure Stepped (playback after : Playback M C) : Prop where
  cues : after.cues = []
  start : after.start = playback.start
  seek : after.seek = playback.seek
  playing : after.finished = false
  lines : after.replay.lines.length ≤ playback.replay.lines.length

theorem frameFrom_turns {begun : Playback M C} {start : Nat} (t : Nat) (current : ∃ frame, begun.replay.frame = some frame)
    (shows : ∀ cue ∈ begun.cues, cue.Shows) (begins : begun.start = some start)
    (playing : begun.finished = false)
    (due : begun.cues.length + 1 + begun.replay.lines.length ≤ playback.due) :
    TurnsTo playback (begun.frameFrom drawing start t) := by
  rcases current with ⟨frame, current⟩
  unfold frameFrom
  simp only [current]
  cases shown : begun.showFrame drawing (t - start) frame with
  | error error => exact .fails (showFrame_failed shown)
  | ok next =>
      rcases showFrame_ok shown with ⟨picture, cues, start', seek, finished, lines, _⟩
      refine .goesOn ⟨?_, ?_, ?_, finished.trans playing⟩
      · intro none'
        rw [start', begins] at none'
        cases none'
      · intro cue member
        rw [cues] at member
        rcases List.mem_append.mp member with before | last
        · exact shows cue before
        · rw [List.mem_singleton.mp last]
          trivial
      · unfold Playback.due at due ⊢
        rw [cues, lines, start', begins, List.length_append]
        simp only [Option.isNone_some, Bool.false_eq_true, if_false, List.length_singleton]
        omega

theorem frame_turns (aimed : playback.Aimed) (stepped : Stepped playback after) (t : Nat)
    (current : ∃ frame, after.replay.frame = some frame)
    (consumed : after.replay.lines.length + 1 ≤ playback.replay.lines.length) :
    TurnsTo playback (after.frame drawing t) := by
  unfold Playback.frame
  cases started : after.start with
  | some start =>
      refine frameFrom_turns t current ?_ started stepped.playing ?_
      · rw [stepped.cues]
        simp
      · unfold Playback.due
        rw [stepped.cues]
        simp only [List.length_nil]
        omega
  | none =>
      have unstarted : playback.start = none := stepped.start.symm.trans started
      have room : 1 + playback.replay.lines.length ≤ playback.due := by
        unfold Playback.due
        rw [unstarted]
        simp only [Option.isNone_none, if_true]
        omega
      cases past : after.beyond t with
      | none =>
          refine .goesOn ⟨?_, ?_, ?_, stepped.playing⟩
          · intro _
            show after.seek ≠ none
            rw [stepped.seek]
            exact aimed unstarted
          · show ∀ cue ∈ after.cues, cue.Shows
            rw [stepped.cues]
            simp
          · refine le_trans ?_ room
            unfold Playback.due
            simp only [stepped.cues, List.length_nil, Option.isNone_none, if_true]
            omega
      | some start =>
          simp only
          cases begun : after.begin drawing start with
          | error error => exact .fails (begin_failed begun)
          | ok begun' =>
              rcases begin_ok begun with
                ⟨front, cues, few, shows, start', seek, finished, lines, kept⟩
              rw [stepped.cues, List.nil_append] at cues
              refine frameFrom_turns t ?_ ?_ start' (finished.trans stepped.playing) ?_
              · rw [kept]
                exact current
              · rw [cues]
                exact shows
              · rw [cues, lines]
                omega

theorem reachStart_ok {stop : Nat} (begun : playback.reachStart drawing stop = .ok next) :
    ∃ front : List (Cue C), next.cues = playback.cues ++ front ∧ (∀ cue ∈ front, cue.Shows) ∧
      front.length ≤ (if playback.start.isNone then 1 else 0) ∧ next.start.isSome ∧
      next.finished = playback.finished := by
  unfold reachStart at begun
  split at begun
  · rename_i start started
    cases begun
    exact ⟨[], (List.append_nil _).symm, by simp, Nat.zero_le _, by simp [started], rfl⟩
  · rename_i start unstarted sought
    split_ifs at begun
    rcases begin_ok begun with ⟨front, cues, few, shows, begins, _, finished, _⟩
    refine ⟨front, cues, shows, ?_, by rw [begins]; rfl, finished⟩
    rw [unstarted]
    exact few
  · cases begun
  · cases begun

theorem reachStart_failed (aimed : playback.Aimed) {stop : Nat}
    (failed : playback.reachStart drawing stop = .error error) : error ≠ .panicked := by
  unfold reachStart at failed
  split at failed
  · cases failed
  · split_ifs at failed
    · exact begin_failed failed
    · cases failed
      rintro ⟨⟩
  · cases failed
    rintro ⟨⟩
  · rename_i unstarted unsought
    exact absurd unsought (aimed unstarted)

/-- Ending begins a playback that has not begun, and holds the last screen. -/
theorem finish_turns (aimed : playback.Aimed) (stepped : Stepped playback after)
    (stop : Option Nat) : TurnsTo playback (after.finish drawing stop) := by
  have aimed' : ({ after with finished := true } : Playback M C).Aimed := by
    intro unstarted
    show after.seek ≠ none
    rw [stepped.seek]
    exact aimed (stepped.start.symm.trans unstarted)
  cases reached : ({ after with finished := true } : Playback M C).reachStart drawing
      (stop.getD after.replay.lastT) with
  | error error =>
      have failed : after.finish drawing stop = .error error := by
        unfold finish
        simp only [reached]
        rfl
      rw [failed]
      exact .fails (reachStart_failed aimed' reached)
  | ok begun =>
      rcases reachStart_ok reached with ⟨front, cues, shows, few, begins, finished⟩
      rcases Option.isSome_iff_exists.mp begins with ⟨start, begins⟩
      rw [finish_begun reached begins]
      rw [stepped.cues, List.nil_append] at cues
      refine .ends front (stop.getD after.replay.lastT - start) finished (by rw [cues]) shows ?_
      refine few.trans ?_
      show (if after.start.isNone then 1 else 0) ≤ playback.due
      rw [stepped.start]
      unfold Playback.due
      omega

theorem turn_turns (aimed : playback.Aimed) (empty : playback.cues = [])
    (playing : playback.finished = false) : TurnsTo playback (playback.turn drawing) := by
  cases read : playback.replay.step drawing with
  | error error =>
      have failed : playback.turn drawing = .error (.unreadable error) := by
        unfold turn readable
        rw [read]
        rfl
      rw [failed]
      exact .fails (by rintro ⟨⟩)
  | ok result =>
      rcases result with ⟨step, replay⟩
      rw [turn_eq read]
      have consumed := lines_of_stepLines read
      have stepped : Stepped playback { playback with replay } :=
        ⟨empty, rfl, rfl, playing, le_trans (Nat.le_add_right _ _) consumed⟩
      have onward : TurnsTo playback (.ok { playback with replay }) := by
        refine .goesOn ⟨aimed, ?_, ?_, playing⟩
        · show ∀ cue ∈ playback.cues, cue.Shows
          rw [empty]
          simp
        · have fewer := stepped.lines
          unfold Playback.due
          simp only at fewer ⊢
          omega
      cases step with
      | none => exact finish_turns aimed stepped none
      | some said =>
          cases said with
          | frame t =>
              exact frame_turns aimed stepped t (Replay.stepLines_frame read) consumed
          | metaEvent t about => exact onward
          | finish ending => exact finish_turns aimed stepped (some ending.t)
          | mark t label =>
              unfold obey
              simp only
              split_ifs with wanted
              · rw [Bool.and_eq_true] at wanted
                cases begun : ({ playback with replay } : Playback M C).begin drawing t with
                | error error => exact .fails (begin_failed begun)
                | ok next =>
                    rcases begin_ok begun with
                      ⟨front, cues, few, shows, begins, seek, finished, lines, _⟩
                    simp only [empty, List.nil_append] at cues
                    refine .goesOn ⟨?_, ?_, ?_, finished.trans playing⟩
                    · intro unstarted
                      rw [begins] at unstarted
                      cases unstarted
                    · rw [cues]
                      exact shows
                    · have unstarted : playback.start.isNone = true := wanted.1
                      have fewer := stepped.lines
                      unfold Playback.due
                      rw [cues, begins, lines]
                      simp only [Option.isNone_some, Bool.false_eq_true, if_false, unstarted,
                        if_true] at fewer ⊢
                      omega
              · exact onward

end turns

structure Ends (drawing : Drawing C) (playback : Playback M C) (due : Nat) (cues : List (Cue C))
    (error : Option PlayError) : Prop where
  plays : Plays drawing playback cues error
  meant : error ≠ some .panicked
  screens : ∃ shown : List (Cue C), (∀ cue ∈ shown, cue.Shows) ∧ shown.length ≤ due ∧
    ((error = none ∧ ∃ stop, cues = shown ++ [.hold stop]) ∨ (error.isSome ∧ cues = shown))

theorem Ends.queued {queued cues : List (Cue C)} {error : Option PlayError} {due : Nat}
    (ends : Ends drawing { playback with cues := [] } due cues error)
    (has : playback.cues = queued) (shows : ∀ cue ∈ queued, cue.Shows) :
    Ends drawing playback (queued.length + due) (queued ++ cues) error := by
  rcases ends.screens with ⟨shown, screens, few, last⟩
  refine ⟨plays_queued has ends.plays, ends.meant, queued ++ shown, ?_, ?_, ?_⟩
  · intro cue member
    exact (List.mem_append.mp member).elim (shows cue) (screens cue)
  · rw [List.length_append]
    exact Nat.add_le_add_left few _
  · rcases last with ⟨well, stop, rfl⟩ | ⟨failed, rfl⟩
    · exact .inl ⟨well, stop, (List.append_assoc _ _ _).symm⟩
    · exact .inr ⟨failed, rfl⟩

theorem ends_of_aimed (aimed : playback.Aimed) (empty : playback.cues = [])
    (playing : playback.finished = false) :
    ∃ cues error, Ends drawing playback playback.due cues error := by
  induction left : playback.left using Nat.strong_induction_on generalizing playback with
  | h n ih =>
      have turns : TurnsTo playback (playback.turn drawing) := turn_turns aimed empty playing
      cases turned : playback.turn drawing with
      | error error =>
          rw [turned] at turns
          cases turns with
          | fails meant =>
              exact ⟨[], some error, plays_failed empty playing turned,
                fun same => meant (Option.some.inj same), [], by simp, Nat.zero_le _,
                .inr ⟨rfl, rfl⟩⟩
      | ok next =>
          have fewer := left_of_turn playing turned
          rw [turned] at turns
          cases turns with
          | goesOn on =>
              have rest := @ih { next with cues := [] }.left (left ▸ fewer) { next with cues := [] }
                on.aimed rfl on.playing rfl
              rcases rest with ⟨cues, error, ends⟩
              have whole := ends.queued rfl on.shows
              refine ⟨_, error, plays_of_turn empty playing turned whole.plays, whole.meant, ?_⟩
              rcases whole.screens with ⟨shown, screens, few, last⟩
              refine ⟨shown, screens, few.trans (le_trans ?_ on.due), last⟩
              unfold Playback.due
              simp only [List.length_nil]
              omega
          | ends shown stop done cues shows few =>
              exact ⟨_, none, plays_of_turn empty playing turned (plays_last cues done),
                by rintro ⟨⟩, shown, shows, few, .inl ⟨rfl, stop, rfl⟩⟩

/-- Playback of any file, from any starting point, comes to one end: it shows no more frames than
the file has lines, and one more, and then either holds the last screen or fails with a message. It
never panics. -/
theorem playback_ends (drawing : Drawing C) (replay : Replay M) (seek : Option Seek) :
    ∃ cues error, Course drawing (new replay seek) cues error ∧ error ≠ some .panicked ∧
      ∃ shown : List (Cue C), (∀ cue ∈ shown, cue.Shows) ∧
        shown.length ≤ replay.lines.length + 1 ∧
        ((error = none ∧ ∃ stop, cues = shown ++ [.hold stop]) ∨
          (error.isSome ∧ cues = shown)) := by
  have aimed : (new (C := C) replay seek).Aimed := by
    intro unstarted sought
    cases seek with
    | none => cases unstarted
    | some seek => cases sought
  have ended : ∃ cues error, Ends drawing (new replay seek) _ cues error :=
    ends_of_aimed aimed rfl rfl
  rcases ended with ⟨cues, error, ends⟩
  rcases ends.screens with ⟨shown, shows, few, last⟩
  refine ⟨cues, error, ends.plays.course, ends.meant, shown, shows, few.trans ?_, last⟩
  unfold Playback.due
  show 0 + (if (new (C := C) replay seek).start.isNone then 1 else 0) + replay.lines.length ≤ _
  split_ifs <;> omega

end Playback

end Rozi.Recording
