import Rozi.Agent.Reading

/-!
What a sequence of readings says by itself, and what a launch that is not ready knows of it.
-/

namespace Rozi

def lastShown (readings : List ScreenReading) : Option AgentHold :=
  (readings.filterMap fun reading =>
    reading.shown.map fun state => { state, observedAt := reading.now }).getLast?

/-- A silent agent has the state it last showed, until that is too long ago. -/
def silentState (before : List ScreenReading) (now : Nat) : DetectedAgentState :=
  match lastShown before with
  | some held => if now < held.observedAt + agentHoldMax then held.state else .idle
  | none => .idle

/-- The state a reading stands for after others. -/
def ScreenReading.standsFor (before : List ScreenReading) (reading : ScreenReading) :
    DetectedAgentState :=
  reading.shown.getD (silentState before reading.now)

structure Heard extends ScreenReading where
  stands : DetectedAgentState
  deriving DecidableEq, Repr

def hearAfter (before : List ScreenReading) : List ScreenReading → List Heard
  | [] => []
  | reading :: rest =>
      { reading with stands := reading.standsFor before } :: hearAfter (before ++ [reading]) rest

def hear (readings : List ScreenReading) : List Heard := hearAfter [] readings

/-- The screen was quiet for the settle grace after it had shown work. -/
def QuietAfterLoading (heard : List Heard) : Prop :=
  ∃ (loaded : List Heard) (first : Heard) (quiet : List Heard) (last : Heard) (rest : List Heard),
    heard = loaded ++ first :: quiet ++ rest ∧
    (∃ past ∈ loaded, past.stands = .working) ∧
    (∀ past ∈ first :: quiet, past.stands = .idle) ∧
    (first :: quiet).getLast? = some last ∧ first.now + stateSettleGrace ≤ last.now

/-- The launch is ready: it was none, its grace is over, it showed a dialog, or it went quiet. -/
def LaunchReady (launch : Option Nat) (heard : List Heard) : Prop :=
  (∀ since, launch = some since → ∃ past ∈ heard, since + agentStartupGrace ≤ past.now) ∨
  (∃ past ∈ heard, past.stands = .blocked) ∨
  QuietAfterLoading heard

/-- A reading of the sequence stands for work, and the launch is ready by then. -/
def AtWork (launch : Option Nat) (readings : List ScreenReading) (work : ScreenReading) : Prop :=
  ∃ before after, readings = before ++ work :: after ∧ work.standsFor before = .working ∧
    LaunchReady launch (hear (before ++ [work]))

theorem lastShown_snoc (before : List ScreenReading) (reading : ScreenReading) :
    lastShown (before ++ [reading]) =
      (reading.shown.map fun state => { state, observedAt := reading.now }).or
        (lastShown before) := by
  simp only [lastShown, List.filterMap_append, List.getLast?_append]
  congr 1
  cases shown : reading.shown with
  | none => simp [shown]
  | some state => simp [shown]

theorem hearAfter_append (before readings more : List ScreenReading) :
    hearAfter before (readings ++ more) =
      hearAfter before readings ++ hearAfter (before ++ readings) more := by
  induction readings generalizing before with
  | nil => simp [hearAfter]
  | cons reading rest ih =>
      rw [List.cons_append, hearAfter, hearAfter, ih, List.append_assoc, List.cons_append]
      rfl

theorem hear_snoc (before : List ScreenReading) (reading : ScreenReading) :
    hear (before ++ [reading]) =
      hear before ++ [{ reading with stands := reading.standsFor before }] :=
  hearAfter_append [] before [reading]

variable {launch : Option Nat} {before : List Heard} {now : Nat} {state : DetectedAgentState}
  {phase : AgentStartup}

theorem QuietAfterLoading.snoc (quiet : QuietAfterLoading before) (heard : Heard) :
    QuietAfterLoading (before ++ [heard]) := by
  rcases quiet with ⟨loaded, first, middle, last, rest, whole, loads, idles, ends, long⟩
  refine ⟨loaded, first, middle, last, rest ++ [heard], ?_, loads, idles, ends, long⟩
  simp [whole]

theorem LaunchReady.snoc (ready : LaunchReady launch before) (heard : Heard) :
    LaunchReady launch (before ++ [heard]) := by
  rcases ready with lapsed | ⟨dialog, member, blocked⟩ | quiet
  · left
    intro since began
    rcases lapsed since began with ⟨late, member, passed⟩
    exact ⟨late, List.mem_append_left _ member, passed⟩
  · exact .inr (.inl ⟨dialog, List.mem_append_left _ member, blocked⟩)
  · exact .inr (.inr (quiet.snoc heard))

/-- What one more reading adds to a screen that had not been quiet for long enough. -/
theorem QuietAfterLoading.of_snoc {heard : Heard} (quiet : QuietAfterLoading (before ++ [heard]))
    (unquiet : ¬QuietAfterLoading before) :
    ∃ (loaded : List Heard) (first : Heard) (middle : List Heard),
      before = loaded ++ first :: middle ∧ (∃ past ∈ loaded, past.stands = .working) ∧
      (∀ past ∈ first :: middle, past.stands = .idle) ∧ heard.stands = .idle ∧
      first.now + stateSettleGrace ≤ heard.now := by
  rcases quiet with ⟨loaded, first, middle, last, rest, whole, loads, idles, ends, long⟩
  have positive : 0 < stateSettleGrace := by decide
  rcases List.eq_nil_or_concat' rest with rfl | ⟨rest, other, rfl⟩
  · rw [List.append_nil] at whole
    rcases List.eq_nil_or_concat' middle with rfl | ⟨middle, other, rfl⟩
    · -- a stretch of one reading has no length
      have own : first = last := Option.some.inj ends
      rw [own] at long
      omega
    · have split : before ++ [heard] = (loaded ++ first :: middle) ++ [other] := by
        rw [whole]
        simp
      rcases List.append_inj' split rfl with ⟨same, own⟩
      cases own
      rw [← List.cons_append, List.getLast?_concat] at ends
      cases ends
      refine ⟨loaded, first, middle, same, loads, ?_, ?_, long⟩
      · intro past member
        refine idles past ?_
        rw [← List.cons_append]
        exact List.mem_append_left _ member
      · exact idles heard (by simp)
  · have split : before ++ [heard] = (loaded ++ first :: middle ++ rest) ++ [other] := by
      rw [whole]
      simp
    exact absurd ⟨loaded, first, middle, last, rest, (List.append_inj' split rfl).1, loads, idles,
      ends, long⟩ unquiet

theorem atWork_snoc_iff {readings : List ScreenReading} {reading work : ScreenReading} :
    AtWork launch (readings ++ [reading]) work ↔
      AtWork launch readings work ∨
        (work = reading ∧ reading.standsFor readings = .working ∧
          LaunchReady launch (hear (readings ++ [reading]))) := by
  constructor
  · rintro ⟨before, after, split, stands, ready⟩
    rcases List.eq_nil_or_concat' after with rfl | ⟨after, last, rfl⟩
    · rcases List.append_inj' split rfl with ⟨rfl, same⟩
      cases same
      exact .inr ⟨rfl, stands, ready⟩
    · have shifted : readings ++ [reading] = (before ++ work :: after) ++ [last] := by
        rw [split]
        simp
      exact .inl ⟨before, after, (List.append_inj' shifted rfl).1, stands, ready⟩
  · rintro (⟨before, after, rfl, stands, ready⟩ | ⟨rfl, stands, ready⟩)
    · exact ⟨before, after ++ [reading], by simp, stands, ready⟩
    · exact ⟨readings, [], rfl, stands, ready⟩

theorem AtWork.eq_working {readings : List ScreenReading} {work : ScreenReading}
    (atWork : AtWork launch readings work) (shown : work.shown = some state) :
    state = .working := by
  rcases atWork with ⟨before, _, _, stands, _⟩
  rwa [ScreenReading.standsFor, shown] at stands

theorem AtWork.heard {readings : List ScreenReading} {work : ScreenReading}
    (atWork : AtWork launch readings work) :
    ∃ heard ∈ hear readings, heard.toScreenReading = work ∧ heard.stands = .working := by
  rcases atWork with ⟨before, after, rfl, stands, _⟩
  refine ⟨{ work with stands := work.standsFor before }, ?_, rfl, stands⟩
  have split : hear (before ++ work :: after) = hear before ++ hearAfter before (work :: after) :=
    hearAfter_append [] before (work :: after)
  rw [split, hearAfter]
  exact List.mem_append_right _ List.mem_cons_self

/-! A launch that is not ready. -/

theorem AgentStartup.ready_iff : (phase.ready state now).1 = true ↔
    agentStartupGrace ≤ now - phase.since ∨ state = .blocked ∨
      (state = .idle ∧ phase.loadingSeen = true ∧
        stateSettleGrace ≤ now - phase.quietSince.getD now) := by
  unfold AgentStartup.ready
  by_cases lapsed : agentStartupGrace ≤ now - phase.since
  · rw [if_pos lapsed]
    exact iff_of_true rfl (.inl lapsed)
  · rw [if_neg lapsed]
    cases state with
    | blocked => simp
    | working => simp [lapsed]
    | idle => simp [lapsed]

theorem AgentStartup.ready_false (ready : (phase.ready state now).1 = false) :
    (state = .working ∧
      (phase.ready state now).2 = { phase with loadingSeen := true, quietSince := none }) ∨
    (state = .idle ∧
      (phase.ready state now).2 = { phase with quietSince := some (phase.quietSince.getD now) }) := by
  unfold AgentStartup.ready at ready ⊢
  split at ready
  · cases ready
  · rename_i young
    rw [if_neg young]
    cases state with
    | blocked => cases ready
    | working => exact .inl ⟨rfl, rfl⟩
    | idle => exact .inr ⟨rfl, rfl⟩

def EndsQuiet (before loaded : List Heard) (first : Heard) : Prop :=
  ∃ rest, before = loaded ++ first :: rest ∧ ∀ past ∈ first :: rest, past.stands = .idle

structure PhaseKnows (launch : Option Nat) (before : List Heard) (phase : AgentStartup) :
    Prop where
  since : launch = some phase.since
  unready : ¬LaunchReady launch before
  loading : phase.loadingSeen = true ↔ ∃ past ∈ before, past.stands = .working
  stretch : ∀ began, phase.quietSince = some began → ∃ loaded first,
    EndsQuiet before loaded first ∧ first.now = began ∧
      (phase.loadingSeen = true → ∃ past ∈ loaded, past.stands = .working)
  began : ∀ loaded first, EndsQuiet before loaded first →
    ∃ began, phase.quietSince = some began ∧ began ≤ first.now

theorem EndsQuiet.snoc {loaded : List Heard} {first heard : Heard}
    (ends : EndsQuiet before loaded first) (idle : heard.stands = .idle) :
    EndsQuiet (before ++ [heard]) loaded first := by
  rcases ends with ⟨rest, whole, idles⟩
  refine ⟨rest ++ [heard], by simp [whole], ?_⟩
  intro past member
  rw [← List.cons_append, List.mem_append, List.mem_singleton] at member
  rcases member with earlier | rfl
  · exact idles past earlier
  · exact idle

/-- A stretch that ends with the last reading is that reading alone, or began before it. -/
theorem EndsQuiet.of_snoc {loaded : List Heard} {first heard : Heard}
    (ends : EndsQuiet (before ++ [heard]) loaded first) :
    heard.stands = .idle ∧ ((loaded = before ∧ first = heard) ∨ EndsQuiet before loaded first) := by
  rcases ends with ⟨rest, whole, idles⟩
  rcases List.eq_nil_or_concat' rest with rfl | ⟨rest, last, rfl⟩
  · rcases List.append_inj' whole rfl with ⟨rfl, same⟩
    cases same
    exact ⟨idles _ List.mem_cons_self, .inl ⟨rfl, rfl⟩⟩
  · have split : before ++ [heard] = (loaded ++ first :: rest) ++ [last] := by
      rw [whole]
      simp
    rcases List.append_inj' split rfl with ⟨same, own⟩
    cases own
    refine ⟨idles heard (by simp), .inr ⟨rest, same, ?_⟩⟩
    intro past member
    refine idles past ?_
    rw [← List.cons_append]
    exact List.mem_append_left _ member

namespace PhaseKnows

theorem nil (since : Nat) : PhaseKnows (some since) [] { since } where
  since := rfl
  unready := by
    rintro (lapsed | ⟨_, member, _⟩ | ⟨loaded, first, quiet, _, rest, whole, _⟩)
    · rcases lapsed since rfl with ⟨_, member, _⟩
      cases member
    · cases member
    · simp at whole
  loading := by simp
  stretch := by simp
  began := by
    rintro loaded first ⟨rest, whole, _⟩
    simp at whole

variable (knows : PhaseKnows launch before phase) (heard : Heard)

include knows

theorem ready_iff : (phase.ready heard.stands heard.now).1 = true ↔
    LaunchReady launch (before ++ [heard]) := by
  have unready := knows.unready
  rw [AgentStartup.ready_iff]
  constructor
  · rintro (lapsed | dialog | ⟨idle, loading, quiet⟩)
    · left
      intro since began
      have same : since = phase.since := Option.some.inj (began.symm.trans knows.since)
      have positive : 0 < agentStartupGrace := by decide
      refine ⟨heard, by simp, ?_⟩
      rw [same]
      omega
    · exact .inr (.inl ⟨heard, by simp, dialog⟩)
    · right
      right
      have positive : 0 < stateSettleGrace := by decide
      cases since : phase.quietSince with
      | none =>
          -- the screen has only just gone quiet
          rw [since, Option.getD_none, Nat.sub_self] at quiet
          omega
      | some began =>
          rcases knows.stretch began since with ⟨loaded, first, ends, start, loads⟩
          rcases ends with ⟨rest, whole, idles⟩
          rw [since, Option.getD_some] at quiet
          refine ⟨loaded, first, rest ++ [heard], heard, [], by simp [whole], loads loading, ?_, ?_,
            ?_⟩
          · intro past member
            rw [← List.cons_append, List.mem_append, List.mem_singleton] at member
            rcases member with inside | rfl
            · exact idles past inside
            · exact idle
          · rw [← List.cons_append, List.getLast?_concat]
          · omega
  · rintro (lapsed | ⟨dialog, member, blocked⟩ | quiet)
    · left
      rcases lapsed phase.since knows.since with ⟨late, member, passed⟩
      rcases List.mem_append.mp member with earlier | own
      · refine absurd (.inl fun since began => ⟨late, earlier, ?_⟩) unready
        cases began.symm.trans knows.since
        exact passed
      · rw [List.mem_singleton.mp own] at passed
        omega
    · rcases List.mem_append.mp member with earlier | own
      · exact absurd (.inr (.inl ⟨dialog, earlier, blocked⟩)) unready
      · rw [List.mem_singleton.mp own] at blocked
        exact .inr (.inl blocked)
    · right
      right
      rcases quiet.of_snoc fun quiet => unready (.inr (.inr quiet)) with
        ⟨loaded, first, middle, whole, ⟨past, member, working⟩, idles, idle, long⟩
      rcases knows.began loaded first ⟨middle, whole, idles⟩ with ⟨began, since, order⟩
      refine ⟨idle, knows.loading.mpr ⟨past, ?_, working⟩, ?_⟩
      · rw [whole]
        exact List.mem_append_left _ member
      · rw [since, Option.getD_some]
        omega

/-- What a launch that is still not ready knows after one more reading. -/
theorem snoc (later : ∀ past ∈ before, past.now ≤ heard.now)
    (notReady : (phase.ready heard.stands heard.now).1 = false) :
    PhaseKnows launch (before ++ [heard]) (phase.ready heard.stands heard.now).2 := by
  have unready : ¬LaunchReady launch (before ++ [heard]) := by
    rw [← knows.ready_iff heard, notReady]
    exact Bool.false_ne_true
  rcases AgentStartup.ready_false notReady with ⟨working, shape⟩ | ⟨idle, shape⟩
  · rw [shape]
    refine ⟨knows.since, unready, ?_, by simp, ?_⟩
    · exact iff_of_true rfl ⟨heard, by simp, working⟩
    · intro loaded first ends
      rw [ends.of_snoc.1] at working
      cases working
  · rw [shape]
    have heardWork : (∃ past ∈ before ++ [heard], past.stands = .working) ↔
        ∃ past ∈ before, past.stands = .working := by
      constructor
      · rintro ⟨past, member, working⟩
        rcases List.mem_append.mp member with earlier | own
        · exact ⟨past, earlier, working⟩
        · rw [List.mem_singleton.mp own, idle] at working
          cases working
      · rintro ⟨past, member, working⟩
        exact ⟨past, List.mem_append_left _ member, working⟩
    refine ⟨knows.since, unready, knows.loading.trans heardWork.symm, ?_, ?_⟩
    · intro began since
      cases known : phase.quietSince with
      | none =>
          rw [known, Option.getD_none] at since
          refine ⟨before, heard, ⟨[], rfl, by simpa using idle⟩, Option.some.inj since, ?_⟩
          exact knows.loading.mp
      | some first =>
          rw [known, Option.getD_some] at since
          rcases knows.stretch first known with ⟨loaded, start, ends, starts, loads⟩
          exact ⟨loaded, start, ends.snoc idle, starts.trans (Option.some.inj since), loads⟩
    · intro loaded first ends
      refine ⟨phase.quietSince.getD heard.now, rfl, ?_⟩
      rcases ends.of_snoc.2 with ⟨rfl, rfl⟩ | earlier
      · cases known : phase.quietSince with
        | none => exact Nat.le_refl _
        | some began =>
            rcases knows.stretch began known with ⟨_, start, ⟨rest, whole, _⟩, starts, _⟩
            rw [Option.getD_some, ← starts]
            exact later start (by simp [whole])
      · rcases knows.began loaded first earlier with ⟨began, known, order⟩
        rw [known]
        exact order

end PhaseKnows

end Rozi
