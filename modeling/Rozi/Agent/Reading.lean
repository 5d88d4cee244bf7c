import Mathlib.Data.List.Basic

/-!
What a pane's screen says about the agent in it: one detection sweep resolved against the state held
from earlier ones, work held back while the agent starts, and the state kept steady across a screen
that went quiet for a moment.

What a screen shows is an input. Times are of the monotone clock, in nanoseconds.
-/

universe u

namespace Rozi

def stateSettleGrace : Nat := 2 * 1000000000

def agentStartupGrace : Nat := 8 * 1000000000

def agentHoldMax : Nat := 15 * 60 * 1000000000

inductive DetectedAgentState where
  | idle | working | blocked
  deriving DecidableEq, Repr

def attentionRank : DetectedAgentState → Nat
  | .blocked => 2
  | .working => 1
  | .idle => 0

structure AgentObservation (ι : Type u) where
  agent : ι
  state : Option DetectedAgentState
  deriving Repr

structure DetectedAgent (ι : Type u) where
  agent : ι
  state : DetectedAgentState
  deriving Repr

structure AgentHold where
  state : DetectedAgentState
  observedAt : Nat
  deriving DecidableEq, Repr

structure AgentStartup where
  since : Nat
  loadingSeen : Bool := false
  quietSince : Option Nat := none
  deriving DecidableEq, Repr

variable {ι : Type u}

def resolveDetectedAgent (observed : Option (AgentObservation ι)) (hold : Option AgentHold)
    (now : Nat) : Option (DetectedAgent ι) × Option AgentHold :=
  match observed with
  | none => (none, none)
  | some observed =>
      match observed.state with
      | some state =>
          (some { agent := observed.agent, state }, some { state, observedAt := now })
      | none =>
          match hold.filter fun held => now - held.observedAt < agentHoldMax with
          | some held => (some { agent := observed.agent, state := held.state }, hold)
          | none => (some { agent := observed.agent, state := .idle }, none)

def AgentStartup.ready (phase : AgentStartup) (state : DetectedAgentState) (now : Nat) :
    Bool × AgentStartup :=
  if agentStartupGrace ≤ now - phase.since then (true, phase)
  else
    match state with
    | .blocked => (true, phase)
    | .working => (false, { phase with loadingSeen := true, quietSince := none })
    | .idle =>
        let quietSince := phase.quietSince.getD now
        (phase.loadingSeen && decide (stateSettleGrace ≤ now - quietSince),
          { phase with quietSince := some quietSince })

/-- `hold_back_startup_work`: a launch that is not ready reads as idle. -/
def holdBackStartupWork (resolved : Option (DetectedAgent ι)) (startup : Option AgentStartup)
    (now : Nat) : Option (DetectedAgent ι) × Option AgentStartup :=
  match resolved, startup with
  | some detected, some phase =>
      let (ready, phase) := phase.ready detected.state now
      if ready then (some detected, none) else (some { detected with state := .idle }, some phase)
  | resolved, startup => (resolved, startup)

/-- `settle_state_flicker`: a state holds against a quieter one for the grace. -/
def settleStateFlicker (resolved : Option (DetectedAgent ι))
    (settled : Option (DetectedAgentState × Nat)) (now : Nat) :
    Option (DetectedAgent ι) × Option (DetectedAgentState × Nat) :=
  match resolved with
  | none => (none, none)
  | some detected =>
      let held := settled.filter fun (held, since) =>
        attentionRank detected.state < attentionRank held ∧ now - since < stateSettleGrace
      match held with
      | some (held, _) => (some { detected with state := held }, settled)
      | none =>
          (some detected,
            if 0 < attentionRank detected.state then some (detected.state, now) else none)

structure AgentScratch where
  hold : Option AgentHold := none
  startup : Option AgentStartup := none
  settled : Option (DetectedAgentState × Nat) := none
  deriving DecidableEq, Repr

structure ScreenReading where
  now : Nat
  shown : Option DetectedAgentState
  deriving DecidableEq, Repr

structure Sweep extends ScreenReading where
  resolved : DetectedAgentState
  passed : DetectedAgentState
  reported : DetectedAgentState
  deriving DecidableEq, Repr

namespace AgentScratch

def launched (launch : Option Nat) : AgentScratch :=
  { startup := launch.map fun since => { since } }

def read (agent : ι) (scratch : AgentScratch) (reading : ScreenReading) :
    Option (Sweep × AgentScratch) := do
  let observed : AgentObservation ι := { agent, state := reading.shown }
  let (resolved, hold) := resolveDetectedAgent (some observed) scratch.hold reading.now
  let (passed, startup) := holdBackStartupWork resolved scratch.startup reading.now
  let (reported, settled) := settleStateFlicker passed scratch.settled reading.now
  let resolved ← resolved.map DetectedAgent.state
  let passed ← passed.map DetectedAgent.state
  let reported ← reported.map DetectedAgent.state
  return ({ reading with resolved, passed, reported }, { hold, startup, settled })

def follow (agent : ι) : AgentScratch → List ScreenReading → Option (List Sweep)
  | _, [] => some []
  | scratch, reading :: rest => do
      let (sweep, scratch) ← read agent scratch reading
      let sweeps ← follow agent scratch rest
      return sweep :: sweeps

end AgentScratch

end Rozi
