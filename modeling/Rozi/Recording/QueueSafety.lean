import Rozi.Recording.Queue

/-!
The recorder never gives up the screen an event happened on, and accounts for every frame it gave
up.
-/

namespace Rozi.Recording

open Yielding

namespace Recorder

variable {F E S : Type} {recorder : Recorder F E S}

theorem eq_frame {job : Job F E S} (frame : job.isFrame = true) : ∃ shown, job = .frame shown := by
  cases job with
  | frame shown => exact ⟨shown, rfl⟩
  | event event => cases frame
  | finish stop => cases frame

theorem victim_eq_some {at' : Nat} (found : recorder.victim = some at') :
    ∃ (front back : List (Job F E S)) (frame next : F),
      recorder.jobs = front ++ .frame frame :: .frame next :: back ∧
      front.length = at' := by
  have frames := List.find?_some found
  simp only [Bool.and_eq_true] at frames
  rcases frames with ⟨first, second⟩
  cases given : recorder.jobs[at']? with
  | none =>
      rw [given] at first
      cases first
  | some job =>
      cases behind : recorder.jobs[at' + 1]? with
      | none =>
          rw [behind] at second
          cases second
      | some next =>
          rw [given] at first
          rw [behind] at second
          rcases eq_frame first with ⟨frame, same⟩
          rcases eq_frame second with ⟨shown, same'⟩
          rcases List.getElem?_eq_some_iff.mp given with ⟨inside, here⟩
          rcases List.getElem?_eq_some_iff.mp behind with ⟨inside', there⟩
          refine ⟨recorder.jobs.take at', recorder.jobs.drop (at' + 2), frame, shown, ?_,
            List.length_take_of_le (Nat.le_of_lt inside)⟩
          rw [← same, ← same', ← here, ← there, ← List.drop_eq_getElem_cons inside',
            ← List.drop_eq_getElem_cons inside, List.take_append_drop]

inductive Placed (recorder : Recorder F E S) (job : Job F E S) (last : Bool) :
    Recorder F E S × Bool → Prop
  | room (space : recorder.frames < queueFrames) :
      Placed recorder job last
        ({ recorder with jobs := recorder.jobs ++ [job], frames := recorder.frames + 1 }, true)
  | replaced {front : List (Job F E S)} {frame : F}
      (full : queueFrames ≤ recorder.frames) (whole : recorder.jobs = front ++ [.frame frame]) :
      Placed recorder job last
        ({ recorder with jobs := front ++ [job], dropped := recorder.dropped + 1 }, true)
  | moved {front back : List (Job F E S)} {frame next : F} (full : queueFrames ≤ recorder.frames)
      (whole : recorder.jobs = front ++ .frame frame :: .frame next :: back) :
      Placed recorder job last
        ({ recorder with
            jobs := front ++ .frame next :: back ++ [job], dropped := recorder.dropped + 1 }, true)
  | extra (ending : last = true) (full : recorder.frames = queueFrames) :
      Placed recorder job last
        ({ recorder with jobs := recorder.jobs ++ [job], frames := recorder.frames + 1 }, true)
  | refused : Placed recorder job last (recorder, false)

theorem placeFrame_placed (recorder : Recorder F E S) (job : Job F E S) (last : Bool) :
    Placed recorder job last (recorder.placeFrame job last) := by
  unfold placeFrame
  by_cases space : recorder.frames < queueFrames
  · rw [if_pos space]
    exact .room space
  · have full := Nat.le_of_not_lt space
    rw [if_neg space]
    by_cases back : recorder.jobs.getLast?.any Job.isFrame = true
    · rw [if_pos back]
      cases ends : recorder.jobs.getLast? with
      | none =>
          rw [ends] at back
          cases back
      | some newest =>
          rw [ends] at back
          rcases eq_frame back with ⟨frame, same⟩
          have whole : recorder.jobs = recorder.jobs.dropLast ++ [.frame frame] := by
            rw [← same]
            exact (List.dropLast_append_getLast? newest ends).symm
          exact .replaced full whole
    · rw [if_neg back]
      cases found : recorder.victim with
      | some at' =>
          rcases victim_eq_some found with ⟨front, back, frame, next, whole, here⟩
          have erased : recorder.jobs.eraseIdx at' = front ++ .frame next :: back := by
            rw [whole, ← here, List.eraseIdx_append_of_length_le (Nat.le_refl _)]
            simp
          simp only [erased]
          exact .moved full whole
      | none =>
          simp only
          split_ifs with ending
          · simp only [Bool.and_eq_true, beq_iff_eq] at ending
            exact .extra ending.1 ending.2
          · exact .refused

section placed

variable {next : Recorder F E S} {frame : F} {last : Bool}

/-- A placed frame is added at the end, and what it took the place of is a frame no event
follows. -/
theorem Placed.grows (placed : Placed recorder (.frame frame) last (next, true))
    (written events : List (Job F E S)) :
    ∃ lost, Grows Job.isFrame (written ++ recorder.jobs) lost (.frame frame :: events)
        (written ++ (next.jobs ++ events)) ∧
      next.dropped = recorder.dropped + lost.length := by
  cases placed with
  | room space =>
      refine ⟨[], ?_, rfl⟩
      have grown : Grows Job.isFrame (written ++ recorder.jobs) [] (.frame frame :: events)
          (written ++ recorder.jobs ++ .frame frame :: events) := .keep _
      simpa using grown
  | extra ending full =>
      refine ⟨[], ?_, rfl⟩
      have grown : Grows Job.isFrame (written ++ recorder.jobs) [] (.frame frame :: events)
          (written ++ recorder.jobs ++ .frame frame :: events) := .keep _
      simpa using grown
  | @replaced front old full whole =>
      refine ⟨[.frame old], ?_, rfl⟩
      have split : written ++ recorder.jobs = (written ++ front) ++ .frame old :: [] := by
        rw [whole, List.append_assoc]
      have grown : Grows Job.isFrame (written ++ recorder.jobs) [.frame old]
          (.frame frame :: events) ((written ++ front) ++ [] ++ .frame frame :: events) :=
        .give split rfl (fun next none => by cases none) rfl
      simpa using grown
  | @moved front back old later full whole =>
      refine ⟨[.frame old], ?_, rfl⟩
      have split : written ++ recorder.jobs =
          (written ++ front) ++ .frame old :: (.frame later :: back) := by
        rw [whole, List.append_assoc]
      have followed : ∀ next ∈ ((Job.frame later :: back : List (Job F E S))).head?,
          next.isFrame = true := by
        intro next same
        cases same
        rfl
      have grown : Grows Job.isFrame (written ++ recorder.jobs) [.frame old]
          (.frame frame :: events)
          ((written ++ front) ++ (.frame later :: back) ++ .frame frame :: events) :=
        .give split rfl followed rfl
      simpa using grown

theorem Placed.closed {placed : Bool} (outcome : Placed recorder (.frame frame) last
    (next, placed)) : next.closed = recorder.closed := by
  cases outcome <;> rfl

theorem Placed.counted {placed : Bool} (outcome : Placed recorder (.frame frame) last
    (next, placed)) (counted : recorder.frames = recorder.jobs.countP Job.isFrame) :
    next.frames = next.jobs.countP Job.isFrame := by
  cases outcome with
  | refused => exact counted
  | room space => simp [counted, Job.isFrame]
  | extra ending full => simp [counted, Job.isFrame]
  | replaced full whole => simp [counted, whole, Job.isFrame]
  | moved full whole =>
      simp only [counted, whole, List.countP_append, List.countP_cons, List.countP_nil,
        Job.isFrame, if_true]
      omega

theorem Placed.bound {placed : Bool} (outcome : Placed recorder (.frame frame) last
    (next, placed)) :
    next.frames ≤ recorder.frames ∨ next.frames ≤ queueFrames ∨
      last = true ∧ placed = true ∧ next.frames ≤ queueFrames + 1 := by
  cases outcome with
  | refused => exact .inl (Nat.le_refl _)
  | room space => exact .inr (.inl space)
  | replaced full whole => exact .inl (Nat.le_refl _)
  | moved full whole => exact .inl (Nat.le_refl _)
  | extra ending full => exact .inr (.inr ⟨ending, rfl, by simp [full]⟩)

end placed

end Recorder

namespace Run

variable {F E S : Type} {run next : Run F E S}

structure Advance (run next : Run F E S) (lost added : List (Job F E S)) : Prop where
  grows : Grows Job.isFrame run.reaching lost added next.reaching
  accepted : next.accepted = run.accepted ++ added
  dropped : next.recorder.dropped + run.countedMetas =
    run.recorder.dropped + lost.length + next.countedMetas
  closed : run.recorder.closed = true → next.recorder.closed = true ∧ added = [] ∧ lost = []
  opened : run.recorder.closed = false →
    (next.recorder.closed = false ∧ ∀ job ∈ added, job.isFinish = false) ∨
      next.recorder.closed = true ∧ lost = [] ∧ ∃ stop, added = [.finish stop]
  counted : run.recorder.frames = run.recorder.jobs.countP Job.isFrame →
    next.recorder.frames = next.recorder.jobs.countP Job.isFrame
  bound : next.recorder.frames ≤ run.recorder.frames ∨ next.recorder.frames ≤ queueFrames ∨
    next.lastFrame = true ∧ next.recorder.frames ≤ queueFrames + 1
  lastFrame : run.lastFrame = true → next.lastFrame = true

theorem Advance.still (reaching : next.reaching = run.reaching)
    (accepted : next.accepted = run.accepted)
    (dropped : next.recorder.dropped + run.countedMetas =
      run.recorder.dropped + next.countedMetas)
    (closed : next.recorder.closed = run.recorder.closed)
    (counted : run.recorder.frames = run.recorder.jobs.countP Job.isFrame →
      next.recorder.frames = next.recorder.jobs.countP Job.isFrame)
    (bound : next.recorder.frames ≤ run.recorder.frames)
    (lastFrame : next.lastFrame = run.lastFrame) : Advance run next [] [] where
  grows := by
    have grown : Grows Job.isFrame run.reaching [] [] (run.reaching ++ []) := .keep []
    rw [List.append_nil] at grown
    rw [reaching]
    exact grown
  accepted := by rw [accepted, List.append_nil]
  dropped := dropped
  closed := fun ended => ⟨closed.trans ended, rfl, rfl⟩
  opened := fun ongoing => .inl ⟨closed.trans ongoing, fun _ none => absurd none List.not_mem_nil⟩
  counted := counted
  bound := .inl bound
  lastFrame := fun set => lastFrame.trans set

theorem Advance.rfl' (run : Run F E S) : Advance run run [] [] :=
  .still rfl rfl rfl rfl id (Nat.le_refl _) rfl

theorem Advance.placed {frame : F} {last : Bool} {placed : Recorder F E S} (events : List E)
    (ongoing : run.recorder.closed = false)
    (outcome : Recorder.Placed run.recorder (.frame frame) last (placed, true)) :
    ∃ lost, Advance run
      { run with
        recorder := { placed with jobs := placed.jobs ++ events.map Job.event }
        accepted := run.accepted ++ .frame frame :: events.map Job.event
        lastFrame := run.lastFrame || last } lost (.frame frame :: events.map Job.event) := by
  rcases outcome.grows run.written (events.map Job.event) with ⟨lost, grows, dropped⟩
  refine ⟨lost, ?_⟩
  constructor
  · exact grows
  · rfl
  · simp only [dropped]
  · intro ended
    rw [ongoing] at ended
    cases ended
  · intro _
    refine .inl ⟨outcome.closed.trans ongoing, ?_⟩
    intro job member
    rcases List.mem_cons.mp member with same | event
    · rw [same]
      rfl
    · rcases List.mem_map.mp event with ⟨event, _, same⟩
      rw [← same]
      rfl
  · intro counted
    have placedCount := outcome.counted counted
    simp only [List.countP_append, placedCount]
    simp [Job.isFrame, Function.comp_def]
  · rcases outcome.bound with kept | inside | ⟨ending, _, extra⟩
    · exact .inl kept
    · exact .inr (.inl inside)
    · refine .inr (.inr ⟨?_, extra⟩)
      simp only [ending, Bool.or_true]
  · intro set
    simp only [set, Bool.true_or]

theorem push_advances (frame : F) (last : Bool) :
    ∃ lost added, Advance run (run.pushed [.frame frame] last (run.recorder.push frame last)) lost
      added := by
  unfold Recorder.push
  cases ongoing : run.recorder.closed with
  | true => exact ⟨[], [], .rfl' run⟩
  | false =>
      have outcome := Recorder.placeFrame_placed run.recorder (.frame frame) last
      simp only [Bool.false_eq_true, if_false]
      generalize run.recorder.placeFrame (.frame frame) last = result at outcome
      rcases result with ⟨placed, queued⟩
      cases queued with
      | true =>
          rcases Advance.placed [] ongoing outcome with ⟨lost, advance⟩
          refine ⟨lost, [.frame frame], ?_⟩
          simpa [pushed] using advance
      | false =>
          cases outcome
          exact ⟨[], [], .rfl' run⟩

theorem pushFrameWith_advances (frame : F) (events : List E) (last : Bool) :
    ∃ lost added, Advance run (run.pushed (.frame frame :: events.map Job.event) last
      (run.recorder.pushFrameWith frame events last)) lost added := by
  unfold Recorder.pushFrameWith
  split_ifs with refused
  · exact ⟨[], [], .rfl' run⟩
  · simp only [Bool.or_eq_true, not_or, Bool.not_eq_true] at refused
    have outcome := Recorder.placeFrame_placed run.recorder (.frame frame) last
    generalize run.recorder.placeFrame (.frame frame) last = result at outcome
    rcases result with ⟨placed, queued⟩
    cases queued with
    | true =>
        rcases Advance.placed events refused.1 outcome with ⟨lost, advance⟩
        exact ⟨lost, .frame frame :: events.map Job.event, advance⟩
    | false =>
        cases outcome
        exact ⟨[], [], .rfl' run⟩

theorem event_advances (event : E) (queued : run.recorder.closed = false) :
    Advance run
      { run with
        recorder := { run.recorder with jobs := run.recorder.jobs ++ [.event event] }
        accepted := run.accepted ++ [.event event] } [] [.event event] where
  grows := by
    have grown : Grows Job.isFrame run.reaching [] [.event event]
      (run.reaching ++ [.event event]) := .keep _
    simpa [reaching] using grown
  accepted := rfl
  dropped := rfl
  closed := fun ended => by rw [queued] at ended; cases ended
  opened := fun _ => .inl ⟨queued, fun job member => by rw [List.mem_singleton.mp member]; rfl⟩
  counted := fun counted => by simp [counted, Job.isFrame]
  bound := .inl (Nat.le_refl _)
  lastFrame := id

theorem pushEvent_advances (event : E) :
    ∃ lost added, Advance run (run.pushed [.event event] false (run.recorder.pushEvent event))
      lost added := by
  unfold Recorder.pushEvent
  split_ifs with refused
  · exact ⟨[], [], .rfl' run⟩
  · simp only [Bool.or_eq_true, not_or, Bool.not_eq_true] at refused
    refine ⟨[], [.event event], ?_⟩
    simpa [pushed] using event_advances event refused.1

theorem after_advances (run : Run F E S) (call : Call F E S) :
    ∃ lost added, Advance run (run.after call) lost added := by
  cases call with
  | pushFrame frame => exact push_advances frame false
  | pushLastFrame frame => exact push_advances frame true
  | pushFrameWith frame events last => exact pushFrameWith_advances frame events last
  | mark event => exact pushEvent_advances event
  | metaEvent event =>
      simp only [after]
      split_ifs with queued
      · exact pushEvent_advances event
      · exact ⟨[], [], .still rfl rfl rfl rfl id (Nat.le_refl _) rfl⟩
  | countMeta =>
      simp only [after]
      by_cases none : run.refusedMetas = 0
      · rw [if_pos none]
        exact ⟨[], [], .rfl' run⟩
      · rw [if_neg none]
        refine ⟨[], [], ?_⟩
        unfold Recorder.countMeta
        by_cases ended : run.recorder.closed = true
        · simp only [if_pos ended]
          exact .still rfl rfl rfl rfl id (Nat.le_refl _) rfl
        · simp only [if_neg ended]
          refine .still rfl rfl ?_ rfl id (Nat.le_refl _) rfl
          simp only
          omega
  | finish stop =>
      simp only [after, Recorder.finish]
      cases ongoing : run.recorder.closed with
      | true => exact ⟨[], [], .still rfl rfl rfl rfl id (Nat.le_refl _) rfl⟩
      | false =>
          refine ⟨[], [.finish stop], ?_⟩
          simp only [Bool.false_eq_true, if_false]
          constructor
          · have grown : Grows Job.isFrame run.reaching [] [.finish stop]
              (run.reaching ++ [.finish stop]) := .keep _
            simpa [reaching] using grown
          · rfl
          · rfl
          · intro ended
            rw [ongoing] at ended
            cases ended
          · exact fun _ => .inr ⟨rfl, rfl, stop, rfl⟩
          · intro counted
            simp [counted, Job.isFrame]
          · exact .inl (Nat.le_refl _)
          · exact id
  | pop =>
      simp only [after, Recorder.pop]
      cases waiting : run.recorder.jobs with
      | nil => exact ⟨[], [], .rfl' run⟩
      | cons job jobs =>
          refine ⟨[], [], .still ?_ rfl rfl rfl ?_ ?_ rfl⟩
          · simp [reaching, waiting]
          · intro counted
            cases frame : job.isFrame with
            | true => simp [counted, waiting, frame]
            | false => simp [counted, waiting, frame]
          · simp only
            split_ifs
            · exact Nat.sub_le _ _
            · exact Nat.le_refl _

structure Kept (run : Run F E S) : Prop where
  frames : run.recorder.frames = run.recorder.jobs.countP Job.isFrame
  bound : run.recorder.frames ≤ queueFrames + if run.lastFrame then 1 else 0
  accounted : ∃ lost, Accounted Job.isFrame run.accepted run.reaching lost ∧
    run.recorder.dropped = lost.length + run.countedMetas
  ongoing : run.recorder.closed = false → ∀ job ∈ run.accepted, job.isFinish = false
  ended : run.recorder.closed = true →
    ∃ (front : List (Job F E S)) (stop : S) (left : List (Job F E S)),
      run.accepted = front ++ [.finish stop] ∧ run.reaching = left ++ [.finish stop] ∧
      ∀ job ∈ front, job.isFinish = false

theorem Kept.advance (kept : run.Kept) {lost added : List (Job F E S)}
    (advance : Advance run next lost added) : next.Kept := by
  refine ⟨advance.counted kept.frames, ?_, ?_, ?_, ?_⟩
  · have bound := kept.bound
    rcases advance.bound with same | inside | ⟨last, extra⟩
    · cases ended : run.lastFrame with
      | true =>
          rw [advance.lastFrame ended]
          rw [ended] at bound
          exact Nat.le_trans same bound
      | false =>
          rw [ended] at bound
          exact Nat.le_trans (Nat.le_trans same bound) (by simp)
    · exact Nat.le_trans inside (Nat.le_add_right _ _)
    · rw [last]
      exact extra
  · rcases kept.accounted with ⟨given, accounted, dropped⟩
    refine ⟨given ++ lost, ?_, ?_⟩
    · rw [advance.accepted]
      exact accounted.grow advance.grows
    · have counts := advance.dropped
      simp only [List.length_append]
      omega
  · intro ongoing
    cases before : run.recorder.closed with
    | true =>
        have ended := (advance.closed before).1
        rw [ongoing] at ended
        cases ended
    | false =>
        rcases advance.opened before with ⟨_, unfinished⟩ | ⟨ended, _⟩
        · intro job member
          rw [advance.accepted] at member
          rcases List.mem_append.mp member with old | new
          · exact kept.ongoing before job old
          · exact unfinished job new
        · rw [ongoing] at ended
          cases ended
  · intro ended
    cases before : run.recorder.closed with
    | true =>
        rcases kept.ended before with ⟨front, stop, left, accepted, reaching, unfinished⟩
        rcases advance.closed before with ⟨_, none, nothing⟩
        cases none
        cases nothing
        have same : next.reaching = run.reaching :=
          advance.grows.eq_append.trans (List.append_nil _)
        exact ⟨front, stop, left, by rw [advance.accepted, List.append_nil, accepted],
          same.trans reaching, unfinished⟩
    | false =>
        rcases advance.opened before with ⟨ongoing, _⟩ | ⟨_, nothing, stop, only⟩
        · rw [ended] at ongoing
          cases ongoing
        · cases only
          cases nothing
          exact ⟨run.accepted, stop, run.reaching, advance.accepted, advance.grows.eq_append,
            kept.ongoing before⟩

theorem kept_of_run (reached : runs.Reachable run) : run.Kept := by
  refine reached.invariant ?_ ?_
  · intro run begins
    rw [begins]
    exact
      { frames := rfl
        bound := by simp
        accounted := ⟨[], .nil, rfl⟩
        ongoing := fun _ => fun _ none => absurd none List.not_mem_nil
        ended := fun ended => by cases ended }
  · intro run call next kept moved
    rcases after_advances run call with ⟨lost, added, advance⟩
    rw [moved]
    exact kept.advance advance

structure Faithful (run : Run F E S) : Prop where
  frames : run.recorder.frames = run.recorder.jobs.countP Job.isFrame
  bound : run.recorder.frames ≤ queueFrames ∨
    run.lastFrame = true ∧ run.recorder.frames = queueFrames + 1
  order : run.reaching.Sublist run.accepted
  lost : ∃ lost : List (Job F E S), (run.reaching ++ lost).Perm run.accepted ∧
    run.recorder.dropped = lost.length + run.countedMetas ∧
    ∀ victim ∈ lost, victim.isFrame = true ∧
      ∃ later ∈ run.reaching, later.isFrame = true ∧ [victim, later].Sublist run.accepted
  paired : ∀ (front : List (Job F E S)) (frame : F) (event : E) (back : List (Job F E S)),
    run.recorder.jobs = front ++ .frame frame :: .event event :: back →
    ∀ calls : List (Call F E S), ∃ front' back' : List (Job F E S),
      (calls.foldl after run).reaching = front' ++ .frame frame :: .event event :: back' ∧
        front'.Sublist (run.written ++ front)
  together : ∀ frame events last,
    run.recorder.pushFrameWith frame events last = (run.recorder, false) ∨
      ∃ kept, (run.recorder.pushFrameWith frame events last).2 = true ∧
        (run.recorder.pushFrameWith frame events last).1.jobs =
          kept ++ .frame frame :: events.map Job.event
  ended : run.recorder.closed = true →
    (∃ left stop, run.reaching = left ++ [.finish stop]) ∧
      ∀ calls : List (Call F E S), (calls.foldl after run).accepted = run.accepted

theorem foldl_adjacent (calls : List (Call F E S)) {front back : List (Job F E S)} {frame : F}
    {event : E} (pair : run.reaching = front ++ .frame frame :: .event event :: back) :
    ∃ front' back' : List (Job F E S),
      (calls.foldl after run).reaching = front' ++ .frame frame :: .event event :: back' ∧
        front'.Sublist front := by
  induction calls generalizing run front back with
  | nil => exact ⟨front, back, pair, List.Sublist.refl _⟩
  | cons call calls ih =>
      rcases after_advances run call with ⟨lost, added, advance⟩
      rcases advance.grows.adjacent pair rfl with ⟨nearer, behind, still, fewer⟩
      rcases ih still with ⟨front', back', later, fewer'⟩
      exact ⟨front', back', later, fewer'.trans fewer⟩

theorem foldl_closed (calls : List (Call F E S)) (ended : run.recorder.closed = true) :
    (calls.foldl after run).accepted = run.accepted := by
  induction calls generalizing run with
  | nil => rfl
  | cons call calls ih =>
      rcases after_advances run call with ⟨lost, added, advance⟩
      rcases advance.closed ended with ⟨still, none, _⟩
      calc
        _ = (run.after call).accepted := ih still
        _ = run.accepted := by rw [advance.accepted, none, List.append_nil]

theorem pushFrameWith_together (recorder : Recorder F E S) (frame : F) (events : List E)
    (last : Bool) :
    recorder.pushFrameWith frame events last = (recorder, false) ∨
      ∃ kept, (recorder.pushFrameWith frame events last).2 = true ∧
        (recorder.pushFrameWith frame events last).1.jobs =
          kept ++ .frame frame :: events.map Job.event := by
  unfold Recorder.pushFrameWith
  split_ifs with refused
  · exact .inl rfl
  · have outcome := Recorder.placeFrame_placed recorder (.frame frame) last
    generalize recorder.placeFrame (.frame frame) last = result at outcome
    cases outcome with
    | room space => exact .inr ⟨recorder.jobs, rfl, by simp⟩
    | @replaced front old full whole => exact .inr ⟨front, rfl, by simp⟩
    | @moved front back old next full whole =>
        exact .inr ⟨front ++ .frame next :: back, rfl, by simp⟩
    | extra ending full => exact .inr ⟨recorder.jobs, rfl, by simp⟩
    | refused => exact .inl rfl

/-- However producers and the writer interleave, no screen an event happened on is given up, and
every frame that was is accounted for. -/
theorem recorder_faithful (run : Run F E S) (reached : runs.Reachable run) : run.Faithful := by
  have kept := kept_of_run reached
  refine ⟨kept.frames, ?_, ?_, ?_, ?_, pushFrameWith_together run.recorder, ?_⟩
  · have bound := kept.bound
    cases last : run.lastFrame with
    | true =>
        rw [last] at bound
        rcases Nat.lt_or_eq_of_le bound with less | full
        · exact .inl (Nat.le_of_lt_succ less)
        · exact .inr ⟨rfl, full⟩
    | false =>
        rw [last] at bound
        exact .inl bound
  · rcases kept.accounted with ⟨lost, accounted, _⟩
    exact accounted.order
  · rcases kept.accounted with ⟨lost, accounted, dropped⟩
    exact ⟨lost, accounted.total, dropped, accounted.superseded⟩
  · intro front frame event back pair calls
    apply foldl_adjacent calls
    rw [reaching, pair, List.append_assoc]
  · intro ended
    rcases kept.ended ended with ⟨_, stop, left, _, reaching, _⟩
    exact ⟨⟨left, stop, reaching⟩, fun calls => foldl_closed calls ended⟩

def overloaded : List (Call Nat String Unit) :=
  ((List.range 9).map Call.pushFrame : List (Call Nat String Unit)) ++
    ([.mark "here", .finish (), .pop, .pop] : List (Call Nat String Unit))

theorem recorder_faithful_overloaded :
    (overloaded.foldl after {}).recorder.dropped = 1 ∧ (overloaded.foldl after {}).Faithful := by
  have reached : ∀ (calls : List (Call Nat String Unit)) {run : Run Nat String Unit},
      runs.Reachable run → runs.Reachable (calls.foldl after run) := by
    intro calls
    induction calls with
    | nil => exact fun reached => reached
    | cons call calls ih => exact fun reached => ih (reached.next call rfl)
  exact ⟨by decide +kernel, recorder_faithful _ (reached overloaded (.begin rfl))⟩

end Run

end Rozi.Recording
