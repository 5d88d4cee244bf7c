import Rozi.Agent.Reading

/-!
What the three stages of one reading do.
-/

universe u

namespace Rozi

variable {ι : Type u} {scratch next : AgentScratch} {reading : ScreenReading} {sweep : Sweep}
  {state : DetectedAgentState}

def AgentHold.alive (now : Nat) (held : AgentHold) : Bool := now - held.observedAt < agentHoldMax

structure Stages (scratch : AgentScratch) (reading : ScreenReading) (sweep : Sweep)
    (next : AgentScratch) : Prop where
  asRead : sweep.toScreenReading = reading
  positive : ∀ state, reading.shown = some state →
    sweep.resolved = state ∧ next.hold = some { state, observedAt := reading.now }
  silent : reading.shown = none →
    sweep.resolved = ((scratch.hold.filter (AgentHold.alive reading.now)).map AgentHold.state).getD
        .idle ∧
      next.hold = scratch.hold.filter (AgentHold.alive reading.now)
  running : scratch.startup = none → sweep.passed = sweep.resolved ∧ next.startup = none
  ready : ∀ phase, scratch.startup = some phase →
    (phase.ready sweep.resolved reading.now).1 = true →
      sweep.passed = sweep.resolved ∧ next.startup = none
  starting : ∀ phase, scratch.startup = some phase →
    (phase.ready sweep.resolved reading.now).1 = false →
      sweep.passed = .idle ∧ next.startup = some (phase.ready sweep.resolved reading.now).2
  held : ∀ held since, scratch.settled = some (held, since) →
    attentionRank sweep.passed < attentionRank held → reading.now - since < stateSettleGrace →
      sweep.reported = held ∧ next.settled = scratch.settled
  fresh : (∀ held since, scratch.settled = some (held, since) →
      attentionRank sweep.passed < attentionRank held → stateSettleGrace ≤ reading.now - since) →
    sweep.reported = sweep.passed ∧
      next.settled = if 0 < attentionRank sweep.passed then some (sweep.passed, reading.now) else none

theorem resolveDetectedAgent_spec (agent : ι) (shown : Option DetectedAgentState)
    (hold : Option AgentHold) (now : Nat) :
    ∃ state after,
      resolveDetectedAgent (some { agent, state := shown }) hold now =
        (some { agent, state }, after) ∧
      (∀ own, shown = some own → state = own ∧ after = some { state := own, observedAt := now }) ∧
      (shown = none →
        state = ((hold.filter (AgentHold.alive now)).map AgentHold.state).getD .idle ∧
        after = hold.filter (AgentHold.alive now)) := by
  cases shown with
  | some own => exact ⟨own, _, rfl, by rintro _ ⟨⟩; exact ⟨rfl, rfl⟩, by simp⟩
  | none =>
      cases kept : hold.filter (AgentHold.alive now) with
      | none =>
          refine ⟨.idle, none, ?_, by simp, fun _ => ⟨rfl, rfl⟩⟩
          unfold AgentHold.alive at kept
          simp [resolveDetectedAgent, kept]
      | some held =>
          have whole := (Option.filter_eq_some_iff.mp kept).1
          refine ⟨held.state, some held, ?_, by simp, fun _ => ⟨rfl, rfl⟩⟩
          unfold AgentHold.alive at kept
          simp only [resolveDetectedAgent]
          rw [kept, whole]

theorem holdBackStartupWork_spec (agent : ι) (resolved : DetectedAgentState)
    (startup : Option AgentStartup) (now : Nat) :
    ∃ state after,
      holdBackStartupWork (some { agent, state := resolved }) startup now =
        (some { agent, state }, after) ∧
      (startup = none → state = resolved ∧ after = none) ∧
      (∀ phase, startup = some phase → (phase.ready resolved now).1 = true →
        state = resolved ∧ after = none) ∧
      (∀ phase, startup = some phase → (phase.ready resolved now).1 = false →
        state = .idle ∧ after = some (phase.ready resolved now).2) := by
  cases startup with
  | none => exact ⟨resolved, none, rfl, fun _ => ⟨rfl, rfl⟩, by simp, by simp⟩
  | some phase =>
      cases ready : (phase.ready resolved now).1 with
      | true =>
          refine ⟨resolved, none, ?_, by simp, ?_, ?_⟩
          · simp [holdBackStartupWork, ready]
          · exact fun _ _ _ => ⟨rfl, rfl⟩
          · rintro _ ⟨⟩ notReady
            simp [ready] at notReady
      | false =>
          refine ⟨.idle, some (phase.ready resolved now).2, ?_, by simp, ?_, ?_⟩
          · simp [holdBackStartupWork, ready]
          · rintro _ ⟨⟩ isReady
            simp [ready] at isReady
          · rintro _ ⟨⟩ _
            exact ⟨rfl, rfl⟩

theorem settleStateFlicker_spec (agent : ι) (passed : DetectedAgentState)
    (settled : Option (DetectedAgentState × Nat)) (now : Nat) :
    ∃ state after,
      settleStateFlicker (some { agent, state := passed }) settled now =
        (some { agent, state }, after) ∧
      (∀ held since, settled = some (held, since) → attentionRank passed < attentionRank held →
        now - since < stateSettleGrace → state = held ∧ after = settled) ∧
      ((∀ held since, settled = some (held, since) → attentionRank passed < attentionRank held →
          stateSettleGrace ≤ now - since) →
        state = passed ∧ after = if 0 < attentionRank passed then some (passed, now) else none) := by
  cases settled with
  | none =>
      refine ⟨passed, _, rfl, by simp, fun _ => ⟨rfl, rfl⟩⟩
  | some pair =>
      rcases pair with ⟨own, began⟩
      by_cases holds : attentionRank passed < attentionRank own ∧ now - began < stateSettleGrace
      · refine ⟨own, some (own, began), ?_, ?_, ?_⟩
        · simp [settleStateFlicker, Option.filter_some, holds]
        · rintro _ _ ⟨⟩ _ _
          exact ⟨rfl, rfl⟩
        · intro lapsed
          exact absurd (lapsed own began rfl holds.1) (Nat.not_le.mpr holds.2)
      · refine ⟨passed, _, ?_, ?_, fun _ => ⟨rfl, rfl⟩⟩
        · simp [settleStateFlicker, Option.filter_some, holds]
        · rintro _ _ ⟨⟩ quieter recent
          exact absurd ⟨quieter, recent⟩ holds

theorem read_stages (agent : ι) (scratch : AgentScratch) (reading : ScreenReading) :
    ∃ sweep next, scratch.read agent reading = some (sweep, next) ∧
      Stages scratch reading sweep next := by
  rcases resolveDetectedAgent_spec agent reading.shown scratch.hold reading.now with
    ⟨resolved, hold, resolves, positive, silent⟩
  rcases holdBackStartupWork_spec agent resolved scratch.startup reading.now with
    ⟨passed, startup, passes, running, ready, starting⟩
  rcases settleStateFlicker_spec agent passed scratch.settled reading.now with
    ⟨reported, settled, settles, held, fresh⟩
  refine ⟨{ reading with resolved, passed, reported }, { hold, startup, settled }, ?_, ?_⟩
  · simp [AgentScratch.read, resolves, passes, settles]
  · exact { asRead := rfl, positive, silent, running, ready, starting, held, fresh }

theorem eq_idle_of_rank (quiet : ¬0 < attentionRank state) : state = .idle := by
  cases state with
  | idle => rfl
  | working => exact absurd (by decide) quiet
  | blocked => exact absurd (by decide) quiet

namespace Stages

variable (stages : Stages scratch reading sweep next)

include stages

theorem now_eq : sweep.now = reading.now := by rw [← stages.asRead]

theorem shown_eq : sweep.shown = reading.shown := by rw [← stages.asRead]

theorem settle_cases :
    (∃ held since, scratch.settled = some (held, since) ∧
      attentionRank sweep.passed < attentionRank held ∧ reading.now - since < stateSettleGrace ∧
      sweep.reported = held ∧ next.settled = scratch.settled) ∨
    ((∀ held since, scratch.settled = some (held, since) →
        attentionRank sweep.passed < attentionRank held →
        stateSettleGrace ≤ reading.now - since) ∧
      sweep.reported = sweep.passed ∧
      next.settled =
        if 0 < attentionRank sweep.passed then some (sweep.passed, reading.now) else none) := by
  by_cases holds : ∃ held since, scratch.settled = some (held, since) ∧
      attentionRank sweep.passed < attentionRank held ∧ reading.now - since < stateSettleGrace
  · rcases holds with ⟨held, since, settled, quieter, recent⟩
    have kept := stages.held held since settled quieter recent
    exact .inl ⟨held, since, settled, quieter, recent, kept.1, kept.2⟩
  · have lapsed : ∀ held since, scratch.settled = some (held, since) →
        attentionRank sweep.passed < attentionRank held →
        stateSettleGrace ≤ reading.now - since := by
      intro held since settled quieter
      by_contra recent
      exact holds ⟨held, since, settled, quieter, Nat.lt_of_not_le recent⟩
    exact .inr ⟨lapsed, (stages.fresh lapsed).1, (stages.fresh lapsed).2⟩

theorem passed_cases : sweep.passed = sweep.resolved ∨ sweep.passed = .idle := by
  cases startup : scratch.startup with
  | none => exact .inl (stages.running startup).1
  | some phase =>
      cases ready : (phase.ready sweep.resolved reading.now).1 with
      | true => exact .inl (stages.ready phase startup ready).1
      | false => exact .inr (stages.starting phase startup ready).1

theorem passed_of_ready (ready : next.startup = none) : sweep.passed = sweep.resolved := by
  cases startup : scratch.startup with
  | none => exact (stages.running startup).1
  | some phase =>
      cases isReady : (phase.ready sweep.resolved reading.now).1 with
      | true => exact (stages.ready phase startup isReady).1
      | false =>
          rw [(stages.starting phase startup isReady).2] at ready
          cases ready

theorem passed_of_idle (idle : sweep.resolved = .idle) : sweep.passed = .idle := by
  rcases stages.passed_cases with same | quiet
  · exact same.trans idle
  · exact quiet

theorem rested (settled : next.settled = none) : sweep.reported = .idle := by
  rcases stages.settle_cases with ⟨own, began, was, _, _, _, kept⟩ | ⟨_, reported, fresh⟩
  · rw [kept, was] at settled
    cases settled
  · rw [fresh] at settled
    split at settled
    · cases settled
    · rename_i quiet
      rw [reported]
      exact eq_idle_of_rank quiet

theorem passed_le : attentionRank sweep.passed ≤ attentionRank sweep.resolved := by
  rcases stages.passed_cases with same | idle
  · exact Nat.le_of_eq (congrArg attentionRank same)
  · rw [idle]
    exact Nat.zero_le _

end Stages

end Rozi
