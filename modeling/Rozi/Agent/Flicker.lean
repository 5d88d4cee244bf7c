import Rozi.Agent.History
import Rozi.Agent.Stages
import Rozi.Library.Justified

/-!
A run does not end on a flicker: the state reported for an agent is held against quieter screens for
the settle grace. Two ways in which it is not are found here, with the exact condition on the readings
and their times under which neither is taken.
-/

namespace Rozi

universe u

variable {ι : Type u} {scratch next : AgentScratch} {reading : ScreenReading} {sweep : Sweep}
  {before : List Sweep} {launch : Option Nat}

/-! ### What a sequence of readings promises -/

/-- The screen showed the state at this reading, and the startup did not hold it back. -/
def Sweep.Showed (sweep : Sweep) (state : DetectedAgentState) : Prop :=
  sweep.shown = some state ∧ sweep.passed = state

def Sweep.heard (sweep : Sweep) : Heard := { sweep.toScreenReading with stands := sweep.resolved }

structure Steady (launch : Option Nat) (before : List Sweep) (sweep : Sweep) : Prop where
  neverQuieter : ∀ past ∈ before ++ [sweep], ∀ state, past.Showed state →
    sweep.now < past.now + stateSettleGrace → attentionRank state ≤ attentionRank sweep.reported
  louderOnlyRecent : attentionRank sweep.resolved < attentionRank sweep.reported →
    ∃ past ∈ before, past.Showed sweep.reported ∧ sweep.now < past.now + stateSettleGrace
  louderAtOnce : (∀ last, before.getLast? = some last →
    attentionRank last.reported < attentionRank sweep.passed) → sweep.reported = sweep.passed
  readyFirst : sweep.reported = .working →
    LaunchReady launch ((before ++ [sweep]).map Sweep.heard)
  silentHolds : sweep.shown = none →
    sweep.resolved = silentState (before.map Sweep.toScreenReading) sweep.now

/-- Readings at which neither slip is taken. No work is shown in the grace before a quiet screen, if
only at this reading the grace of every dialog is over; and what a silent reading stood for was also
shown in the grace before a screen that is quieter. -/
structure Spaced (launch : Option Nat) (before : List ScreenReading) (reading : ScreenReading) :
    Prop where
  dialogOver : reading.standsFor before = .idle →
    (∃ dialog ∈ hear before, dialog.stands = .blocked ∧
      ∀ past ∈ before, past.now < dialog.now + stateSettleGrace) →
    (∀ dialog ∈ hear before, dialog.stands = .blocked →
      dialog.now + stateSettleGrace ≤ reading.now) →
    ∀ past ∈ before, past.shown = some .working → past.now + stateSettleGrace ≤ reading.now
  silentDialog : reading.standsFor before ≠ .blocked →
    ∀ dialog ∈ hear before, dialog.stands = .blocked → dialog.shown = none →
      reading.now < dialog.now + stateSettleGrace →
      ∃ past ∈ before, past.shown = some .blocked ∧ reading.now < past.now + stateSettleGrace
  silentWork : reading.standsFor before = .idle →
    ∀ work, AtWork launch before work → work.shown = none →
      reading.now < work.now + stateSettleGrace →
      (∀ dialog ∈ hear before, dialog.stands = .blocked →
        dialog.now + stateSettleGrace ≤ work.now) →
      ∃ past, AtWork launch before past ∧ past.shown = some .working ∧
        reading.now < past.now + stateSettleGrace

/-! ### What the scratch knows of the readings before -/

def HoldKnows (before : List ScreenReading) (hold : Option AgentHold) : Prop :=
  ∀ now, (∀ past ∈ before, past.now ≤ now) →
    hold.filter (AgentHold.alive now) = (lastShown before).filter (AgentHold.alive now)

theorem AgentHold.alive_of_later {held : AgentHold} {now later : Nat} (order : now ≤ later)
    (still : held.alive later = true) : held.alive now = true := by
  simp only [AgentHold.alive, decide_eq_true_eq] at still ⊢
  exact Nat.lt_of_le_of_lt (Nat.sub_le_sub_right order _) still

def DialogsOver (before : List Sweep) (now : Nat) : Prop :=
  ∀ dialog ∈ before, dialog.resolved = .blocked → dialog.now + stateSettleGrace ≤ now

structure Read (launch : Option Nat) (before : List Sweep) (scratch : AgentScratch) : Prop where
  hold : HoldKnows (before.map Sweep.toScreenReading) scratch.hold
  heard : before.map Sweep.heard = hear (before.map Sweep.toScreenReading)
  launched : scratch.startup = none → LaunchReady launch (before.map Sweep.heard)
  starting : ∀ phase, scratch.startup = some phase →
    PhaseKnows launch (before.map Sweep.heard) phase ∧
      (∀ past ∈ before, past.passed = .idle) ∧ scratch.settled = none
  positive : ∀ past ∈ before, ∀ state, past.shown = some state → past.resolved = state
  blocked : ∀ past ∈ before, past.resolved = .blocked → past.passed = .blocked
  passed : ∀ past ∈ before, past.passed = past.resolved ∨
    ∀ dialog ∈ before, dialog.resolved = .blocked → past.now ≤ dialog.now
  atWork : ∀ reading, AtWork launch (before.map Sweep.toScreenReading) reading ↔
    ∃ past ∈ before, past.toScreenReading = reading ∧ past.passed = .working

structure Settles (before : List Sweep) (settled : Option (DetectedAgentState × Nat)) : Prop where
  reported : ∀ held since, settled = some (held, since) →
    0 < attentionRank held ∧ ∃ last, before.getLast? = some last ∧ last.reported = held
  rested : settled = none → ∀ last, before.getLast? = some last → last.reported = .idle
  dialog : ∀ since, settled = some (.blocked, since) →
    (∃ dialog ∈ before, dialog.resolved = .blocked ∧ dialog.now = since) ∧
      ∀ past ∈ before, past.now < since + stateSettleGrace
  work : ∀ since, settled = some (.working, since) →
    (∃ work ∈ before, work.passed = .working ∧ work.now = since) ∧ DialogsOver before since
  dialogKept : ∀ dialog ∈ before, dialog.resolved = .blocked →
    (∃ since, settled = some (.blocked, since) ∧ dialog.now ≤ since) ∨
      ∃ later ∈ before, dialog.now + stateSettleGrace ≤ later.now
  workKept : ∀ work ∈ before, work.passed = .working → DialogsOver before work.now →
    (∃ held since, settled = some (held, since) ∧ work.now ≤ since) ∨
      ∃ later ∈ before, work.now + stateSettleGrace ≤ later.now

namespace Read

theorem nil (launch : Option Nat) : Read launch [] (AgentScratch.launched launch) where
  hold := fun _ _ => rfl
  heard := rfl
  launched := by
    intro ready
    cases launch with
    | none => exact .inl (by simp)
    | some since => cases ready
  starting := by
    intro phase starting
    rcases Option.map_eq_some_iff.mp starting with ⟨since, rfl, rfl⟩
    exact ⟨PhaseKnows.nil since, by simp, rfl⟩
  positive := by simp
  blocked := by simp
  passed := by simp
  atWork := by simp [AtWork]

variable (read : Read launch before scratch) (stages : Stages scratch reading sweep next)
  (later : ∀ past ∈ before, past.now ≤ reading.now)

include read stages

theorem hold_snoc : HoldKnows ((before ++ [sweep]).map Sweep.toScreenReading) next.hold := by
  intro now order
  rw [List.map_append, List.map_singleton] at order ⊢
  rw [lastShown_snoc, stages.shown_eq, stages.now_eq]
  cases shown : reading.shown with
  | some state =>
      rw [(stages.positive state shown).2]
      rfl
  | none =>
      have now_le : reading.now ≤ now := by
        have own := order sweep.toScreenReading (by simp)
        rwa [stages.now_eq] at own
      have same := read.hold now fun past member => order past (List.mem_append_left _ member)
      rw [(stages.silent shown).2, Option.filter_filter]
      have both : scratch.hold.filter (fun held => held.alive reading.now && held.alive now) =
          scratch.hold.filter (AgentHold.alive now) := by
        cases scratch.hold with
        | none => rfl
        | some held =>
            cases still : held.alive now with
            | false => simp [Option.filter_some, still]
            | true => simp [Option.filter_some, still, AgentHold.alive_of_later now_le still]
      simp only [Option.map_none, Option.none_or]
      rw [← same, both]

theorem startup_iff : next.startup = none ↔
    LaunchReady launch ((before ++ [sweep]).map Sweep.heard) := by
  rw [List.map_append, List.map_singleton]
  cases startup : scratch.startup with
  | none => exact iff_of_true (stages.running startup).2 ((read.launched startup).snoc sweep.heard)
  | some phase =>
      have ready : (phase.ready sweep.resolved reading.now).1 = true ↔
          LaunchReady launch (before.map Sweep.heard ++ [sweep.heard]) := by
        rw [← stages.now_eq]
        exact (read.starting phase startup).1.ready_iff sweep.heard
      rw [← ready]
      cases isReady : (phase.ready sweep.resolved reading.now).1 with
      | true => exact iff_of_true (stages.ready phase startup isReady).2 rfl
      | false =>
          rw [(stages.starting phase startup isReady).2]
          exact iff_of_false (Option.some_ne_none _) Bool.false_ne_true

include later

theorem resolved_eq :
    sweep.resolved = reading.standsFor (before.map Sweep.toScreenReading) := by
  unfold ScreenReading.standsFor
  cases shown : reading.shown with
  | some state => exact (stages.positive state shown).1
  | none =>
      have past : ∀ past ∈ before.map Sweep.toScreenReading, past.now ≤ reading.now := by
        simpa using later
      have positive : 0 < agentHoldMax := by decide
      rw [(stages.silent shown).1, read.hold reading.now past, Option.getD_none, silentState]
      cases lastShown (before.map Sweep.toScreenReading) with
      | none => rfl
      | some held =>
          by_cases alive : reading.now < held.observedAt + agentHoldMax
          · have still : held.alive reading.now = true := decide_eq_true (by omega)
            simp [Option.filter_some, still, alive]
          · have lapsed : held.alive reading.now = false := decide_eq_false (by omega)
            simp [Option.filter_some, lapsed, alive]

theorem heard_snoc : (before ++ [sweep]).map Sweep.heard =
    hear ((before ++ [sweep]).map Sweep.toScreenReading) := by
  rw [List.map_append, List.map_append, List.map_singleton, List.map_singleton, hear_snoc,
    read.heard, Sweep.heard, read.resolved_eq stages later, stages.asRead]

theorem starting_snoc (phase : AgentStartup) (still : next.startup = some phase) :
    PhaseKnows launch ((before ++ [sweep]).map Sweep.heard) phase ∧
      (∀ past ∈ before ++ [sweep], past.passed = .idle) ∧ next.settled = none := by
  cases startup : scratch.startup with
  | none =>
      rw [(stages.running startup).2] at still
      cases still
  | some old =>
      rcases read.starting old startup with ⟨phaseKnows, quiet, rested⟩
      cases isReady : (old.ready sweep.resolved reading.now).1 with
      | true =>
          rw [(stages.ready old startup isReady).2] at still
          cases still
      | false =>
          rcases stages.starting old startup isReady with ⟨idle, kept⟩
          have fresh := stages.fresh (by simp [rested])
          refine ⟨?_, ?_, by rw [fresh.2, idle]; rfl⟩
          · rw [kept] at still
            rw [← Option.some.inj still, ← stages.now_eq, List.map_append, List.map_singleton]
            refine phaseKnows.snoc sweep.heard ?_ (by rwa [← stages.now_eq] at isReady)
            intro past member
            rcases List.mem_map.mp member with ⟨other, inside, rfl⟩
            exact Nat.le_trans (later other inside) (Nat.le_of_eq stages.now_eq.symm)
          · intro past member
            rcases List.mem_append.mp member with earlier | own
            · exact quiet past earlier
            · rw [List.mem_singleton.mp own]
              exact idle

omit later in
theorem passed_of_blocked (blocked : sweep.resolved = .blocked) : sweep.passed = .blocked := by
  have ready : next.startup = none := by
    rw [read.startup_iff stages]
    exact .inr (.inl ⟨sweep.heard, List.mem_map_of_mem (by simp), blocked⟩)
  exact (stages.passed_of_ready ready).trans blocked

theorem passed_snoc (past : Sweep) (member : past ∈ before ++ [sweep]) :
    past.passed = past.resolved ∨
      ∀ dialog ∈ before ++ [sweep], dialog.resolved = .blocked → past.now ≤ dialog.now := by
  rcases List.mem_append.mp member with earlier | own
  · rcases read.passed past earlier with same | first
    · exact .inl same
    · right
      intro dialog inside blocked
      rcases List.mem_append.mp inside with before' | last
      · exact first dialog before' blocked
      · rw [List.mem_singleton.mp last, stages.now_eq]
        exact later past earlier
  · rw [List.mem_singleton.mp own]
    cases startup : scratch.startup with
    | none => exact .inl (stages.running startup).1
    | some phase =>
        right
        intro dialog inside blocked
        rcases List.mem_append.mp inside with before' | last
        · refine absurd ?_ (read.starting phase startup).1.unready
          exact .inr (.inl ⟨dialog.heard, List.mem_map_of_mem before', blocked⟩)
        · exact Nat.le_of_eq (by rw [List.mem_singleton.mp last])

theorem atWork_snoc (work : ScreenReading) :
    AtWork launch ((before ++ [sweep]).map Sweep.toScreenReading) work ↔
      ∃ past ∈ before ++ [sweep], past.toScreenReading = work ∧ past.passed = .working := by
  have own : sweep.passed = .working ↔ sweep.resolved = .working ∧ next.startup = none := by
    constructor
    · intro working
      have ready : next.startup = none := by
        by_contra still
        rcases Option.ne_none_iff_exists'.mp still with ⟨phase, starting⟩
        have quiet := (read.starting_snoc stages later phase starting).2.1 sweep (by simp)
        rw [working] at quiet
        cases quiet
      exact ⟨(stages.passed_of_ready ready).symm.trans working, ready⟩
    · rintro ⟨working, ready⟩
      exact (stages.passed_of_ready ready).trans working
  have heard := read.heard_snoc stages later
  have ready := read.startup_iff stages
  rw [heard, List.map_append, List.map_singleton, stages.asRead] at ready
  rw [List.map_append, List.map_singleton, stages.asRead, atWork_snoc_iff, read.atWork,
    ← read.resolved_eq stages later, ← ready, ← own]
  simp only [List.mem_append, List.mem_singleton, or_and_right, exists_or, exists_eq_left,
    stages.asRead, @eq_comm _ work reading]

theorem snoc : Read launch (before ++ [sweep]) next where
  hold := read.hold_snoc stages
  heard := read.heard_snoc stages later
  launched := (read.startup_iff stages).mp
  starting := read.starting_snoc stages later
  positive := by
    intro past member state shown
    rcases List.mem_append.mp member with earlier | own
    · exact read.positive past earlier state shown
    · rw [List.mem_singleton.mp own] at shown ⊢
      exact (stages.positive state (stages.shown_eq ▸ shown)).1
  blocked := by
    intro past member blocked
    rcases List.mem_append.mp member with earlier | own
    · exact read.blocked past earlier blocked
    · rw [List.mem_singleton.mp own] at blocked ⊢
      exact read.passed_of_blocked stages blocked
  passed := read.passed_snoc stages later
  atWork := read.atWork_snoc stages later

omit later in
/-- While a state is held the launch is ready, so the reading is passed on. -/
theorem passed_of_settled {held : DetectedAgentState} {since : Nat}
    (settled : scratch.settled = some (held, since)) : sweep.passed = sweep.resolved := by
  cases startup : scratch.startup with
  | none => exact (stages.running startup).1
  | some phase =>
      rw [(read.starting phase startup).2.2] at settled
      cases settled

end Read

namespace Settles

theorem nil : Settles [] none where
  reported := by simp
  rested := by simp
  dialog := by simp
  work := by simp
  dialogKept := by simp
  workKept := by simp

variable (settles : Settles before scratch.settled) (read : Read launch before scratch)
  (stages : Stages scratch reading sweep next) (later : ∀ past ∈ before, past.now ≤ reading.now)

include settles stages

theorem reported_snoc (held : DetectedAgentState) (since : Nat)
    (settled : next.settled = some (held, since)) :
    0 < attentionRank held ∧ sweep.reported = held := by
  rcases stages.settle_cases with ⟨own, began, was, _, _, reported, kept⟩ | ⟨_, reported, fresh⟩
  · rw [kept, was] at settled
    cases settled
    exact ⟨(settles.reported _ _ was).1, reported⟩
  · rw [fresh] at settled
    split at settled
    · cases settled
      exact ⟨‹_›, reported⟩
    · cases settled

include read later

omit read in
theorem dialog_snoc (since : Nat) (settled : next.settled = some (.blocked, since)) :
    (∃ dialog ∈ before ++ [sweep], dialog.resolved = .blocked ∧ dialog.now = since) ∧
      ∀ past ∈ before ++ [sweep], past.now < since + stateSettleGrace := by
  have positive : 0 < stateSettleGrace := by decide
  rcases stages.settle_cases with ⟨held, began, was, _, recent, _, kept⟩ | ⟨_, _, fresh⟩
  · rw [kept] at settled
    cases was.symm.trans settled
    rcases settles.dialog since was with ⟨⟨dialog, member, blocked, began⟩, close⟩
    refine ⟨⟨dialog, List.mem_append_left _ member, blocked, began⟩, ?_⟩
    intro past inside
    rcases List.mem_append.mp inside with earlier | own
    · exact close past earlier
    · rw [List.mem_singleton.mp own, stages.now_eq]
      omega
  · rw [fresh, Option.ite_none_right_eq_some] at settled
    rcases settled with ⟨_, same⟩
    rcases Prod.mk.inj (Option.some.inj same) with ⟨blocked, rfl⟩
    have resolved : sweep.resolved = .blocked := by
      rcases stages.passed_cases with same | quiet
      · exact same.symm.trans blocked
      · cases quiet.symm.trans blocked
    refine ⟨⟨sweep, by simp, resolved, stages.now_eq⟩, ?_⟩
    intro past inside
    rcases List.mem_append.mp inside with earlier | own
    · have order := later past earlier
      omega
    · rw [List.mem_singleton.mp own, stages.now_eq]
      omega

/-- A dialog stays remembered for the grace, whatever the screens after it show. -/
theorem dialogKept_snoc (dialog : Sweep) (member : dialog ∈ before ++ [sweep])
    (blocked : dialog.resolved = .blocked) :
    (∃ since, next.settled = some (.blocked, since) ∧ dialog.now ≤ since) ∨
      ∃ after ∈ before ++ [sweep], dialog.now + stateSettleGrace ≤ after.now := by
  have positive : 0 < stateSettleGrace := by decide
  rcases List.mem_append.mp member with earlier | own
  · rcases settles.dialogKept dialog earlier blocked with
      ⟨since, settled, order⟩ | ⟨after, inside, lapsed⟩
    · rcases stages.settle_cases with ⟨held, began, was, _, _, _, kept⟩ | ⟨lapsed, _, fresh⟩
      · exact .inl ⟨since, kept.trans settled, order⟩
      · by_cases again : sweep.passed = .blocked
        · left
          refine ⟨reading.now, ?_, later dialog earlier⟩
          rw [fresh, again]
          rfl
        · right
          have quieter : attentionRank sweep.passed < attentionRank .blocked := by
            cases state : sweep.passed with
            | idle => decide
            | working => decide
            | blocked => exact absurd state again
          have ended := lapsed .blocked since settled quieter
          refine ⟨sweep, by simp, ?_⟩
          rw [stages.now_eq]
          omega
    · exact .inr ⟨after, List.mem_append_left _ inside, lapsed⟩
  · rw [List.mem_singleton.mp own] at blocked ⊢
    left
    have passed := read.passed_of_blocked stages blocked
    rcases stages.settle_cases with ⟨held, began, was, quieter, _, _, _⟩ | ⟨_, _, fresh⟩
    · rw [passed] at quieter
      cases held <;> simp [attentionRank] at quieter
    · refine ⟨reading.now, ?_, Nat.le_of_eq stages.now_eq⟩
      rw [fresh, passed]
      rfl

omit read stages in
/-- Once nothing is held against a reading, the dialogs before it are over. -/
theorem dialogsOver (lapsed : ∀ held since, scratch.settled = some (held, since) →
      attentionRank sweep.passed < attentionRank held → stateSettleGrace ≤ reading.now - since)
    (quieter : sweep.passed ≠ .blocked) : DialogsOver before reading.now := by
  have positive : 0 < stateSettleGrace := by decide
  intro dialog member blocked
  rcases settles.dialogKept dialog member blocked with
    ⟨since, settled, order⟩ | ⟨after, inside, expired⟩
  · have below : attentionRank sweep.passed < attentionRank .blocked := by
      cases state : sweep.passed with
      | idle => decide
      | working => decide
      | blocked => exact absurd state quieter
    have ended := lapsed .blocked since settled below
    omega
  · exact Nat.le_trans expired (later after inside)

theorem work_snoc (since : Nat) (settled : next.settled = some (.working, since)) :
    (∃ work ∈ before ++ [sweep], work.passed = .working ∧ work.now = since) ∧
      DialogsOver (before ++ [sweep]) since := by
  rcases stages.settle_cases with ⟨held, began, was, quieter, _, _, kept⟩ | ⟨lapsed, _, fresh⟩
  · rw [kept] at settled
    cases was.symm.trans settled
    rcases settles.work since was with ⟨⟨work, member, working, began⟩, expired⟩
    refine ⟨⟨work, List.mem_append_left _ member, working, began⟩, ?_⟩
    intro dialog inside blocked
    rcases List.mem_append.mp inside with earlier | own
    · exact expired dialog earlier blocked
    · rw [List.mem_singleton.mp own] at blocked
      rw [read.passed_of_blocked stages blocked] at quieter
      simp [attentionRank] at quieter
  · rw [fresh, Option.ite_none_right_eq_some] at settled
    rcases settled with ⟨_, same⟩
    rcases Prod.mk.inj (Option.some.inj same) with ⟨working, rfl⟩
    refine ⟨⟨sweep, by simp, working, stages.now_eq⟩, ?_⟩
    have expired := settles.dialogsOver later lapsed (by rw [working]; decide)
    intro dialog inside blocked
    rcases List.mem_append.mp inside with earlier | own
    · exact expired dialog earlier blocked
    · rw [List.mem_singleton.mp own] at blocked
      cases working.symm.trans (read.passed_of_blocked stages blocked)

omit read in
/-- Such work stays remembered for the grace, or a dialog after it does. -/
theorem workKept_snoc (work : Sweep) (member : work ∈ before ++ [sweep])
    (working : work.passed = .working) (expired : DialogsOver (before ++ [sweep]) work.now) :
    (∃ held since, next.settled = some (held, since) ∧ work.now ≤ since) ∨
      ∃ after ∈ before ++ [sweep], work.now + stateSettleGrace ≤ after.now := by
  have positive : 0 < stateSettleGrace := by decide
  have overBefore : DialogsOver before work.now :=
    fun dialog inside => expired dialog (List.mem_append_left _ inside)
  rcases List.mem_append.mp member with earlier | own
  · rcases settles.workKept work earlier working overBefore with
      ⟨held, since, settled, order⟩ | ⟨after, inside, lapsed⟩
    · rcases stages.settle_cases with ⟨_, _, _, _, _, _, kept⟩ | ⟨lapsed, _, fresh⟩
      · exact .inl ⟨held, since, kept.trans settled, order⟩
      · by_cases loud : 0 < attentionRank sweep.passed
        · rw [if_pos loud] at fresh
          exact .inl ⟨_, _, fresh, later work earlier⟩
        · right
          have ended := lapsed held since settled
            (by rw [eq_idle_of_rank loud]; exact (settles.reported held since settled).1)
          refine ⟨sweep, by simp, ?_⟩
          rw [stages.now_eq]
          omega
    · exact .inr ⟨after, List.mem_append_left _ inside, lapsed⟩
  · have own := List.mem_singleton.mp own
    left
    rcases stages.settle_cases with ⟨held, since, was, quieter, recent, _, _⟩ | ⟨_, _, fresh⟩
    · -- only a dialog is held against work, and its grace is not expired
      rw [← own, working] at quieter
      cases held with
      | idle => simp [attentionRank] at quieter
      | working => simp [attentionRank] at quieter
      | blocked =>
          rcases (settles.dialog since was).1 with ⟨dialog, inside, blocked, began⟩
          have ended := overBefore dialog inside blocked
          rw [own, stages.now_eq] at ended
          omega
    · rw [own] at working ⊢
      rw [working] at fresh
      exact ⟨_, _, fresh, Nat.le_of_eq stages.now_eq⟩

theorem snoc : Settles (before ++ [sweep]) next.settled where
  reported := by
    intro held since settled
    rcases settles.reported_snoc stages held since settled with ⟨loud, reported⟩
    exact ⟨loud, sweep, by simp, reported⟩
  rested := by
    intro settled last final
    have own : last = sweep := by simpa using final.symm
    rw [own]
    exact stages.rested settled
  dialog := settles.dialog_snoc stages later
  work := settles.work_snoc read stages later
  dialogKept := settles.dialogKept_snoc read stages later
  workKept := settles.workKept_snoc stages later

end Settles

def WorkKept (before : List Sweep) (settled : Option (DetectedAgentState × Nat)) : Prop :=
  ∀ past ∈ before, past.Showed .working →
    (∃ held since, settled = some (held, since) ∧ (past.now ≤ since ∨ held = .blocked)) ∨
      ∃ later ∈ before, past.now + stateSettleGrace ≤ later.now

section step

variable (settles : Settles before scratch.settled) (read : Read launch before scratch)
  (stages : Stages scratch reading sweep next) (later : ∀ past ∈ before, past.now ≤ reading.now)

omit settles stages later in
theorem Read.over_iff (read : Read launch before scratch) {now : Nat} :
    (∀ dialog ∈ hear (before.map Sweep.toScreenReading), dialog.stands = .blocked →
        dialog.now + stateSettleGrace ≤ now) ↔ DialogsOver before now := by
  rw [← read.heard, List.forall_mem_map]
  exact Iff.rfl

include settles read stages later

theorem WorkKept.snoc (kept : WorkKept before scratch.settled)
    (spaced : Spaced launch (before.map Sweep.toScreenReading) reading) :
    WorkKept (before ++ [sweep]) next.settled := by
  intro past member showed
  rcases stages.settle_cases with ⟨held, since, was, quieter, _, _, same⟩ | ⟨lapsed, _, fresh⟩
  · rcases List.mem_append.mp member with earlier | own
    · rcases kept past earlier showed with ⟨own, began, settled, order⟩ | ⟨after, inside, gone⟩
      · exact .inl ⟨own, began, same.trans settled, order⟩
      · exact .inr ⟨after, List.mem_append_left _ inside, gone⟩
    · -- work shown while a dialog is held
      rw [List.mem_singleton.mp own] at showed
      left
      refine ⟨held, since, same.trans was, .inr ?_⟩
      rw [showed.2] at quieter
      cases held with
      | idle => simp [attentionRank] at quieter
      | working => simp [attentionRank] at quieter
      | blocked => rfl
  · by_cases loud : 0 < attentionRank sweep.passed
    · rw [if_pos loud] at fresh
      left
      refine ⟨sweep.passed, reading.now, fresh, .inl ?_⟩
      rcases List.mem_append.mp member with earlier | own
      · exact later past earlier
      · rw [List.mem_singleton.mp own]
        exact Nat.le_of_eq stages.now_eq
    · right
      have idle := eq_idle_of_rank loud
      rcases List.mem_append.mp member with earlier | own
      · rcases kept past earlier showed with ⟨own, began, settled, order⟩ | ⟨after, inside, gone⟩
        · have loudOwn := (settles.reported own began settled).1
          have ended := lapsed own began settled (by rw [idle]; exact loudOwn)
          have positive : 0 < stateSettleGrace := by decide
          refine ⟨sweep, by simp, ?_⟩
          rw [stages.now_eq]
          rcases order with order | blocked
          · omega
          · rw [blocked] at settled
            rcases settles.dialog began settled with ⟨⟨dialog, inside, stood, began'⟩, close⟩
            have resolved := (read.passed_of_settled stages settled).symm.trans idle
            refine spaced.dialogOver ((read.resolved_eq stages later).symm.trans resolved)
              ⟨dialog.heard, ?_, stood, ?_⟩ (read.over_iff.mpr ?_) past.toScreenReading
              (List.mem_map_of_mem earlier) showed.1
            · rw [← read.heard]
              exact List.mem_map_of_mem inside
            · rw [List.forall_mem_map]
              intro other there
              have soon := close other there
              rwa [← began'] at soon
            · exact settles.dialogsOver later lapsed (by rw [idle]; decide)
        · exact ⟨after, List.mem_append_left _ inside, gone⟩
      · rw [List.mem_singleton.mp own] at showed
        cases idle.symm.trans showed.2

theorem neverQuieter (kept : WorkKept before scratch.settled)
    (spaced : Spaced launch (before.map Sweep.toScreenReading) reading) (past : Sweep)
    (member : past ∈ before ++ [sweep]) (state : DetectedAgentState) (showed : past.Showed state)
    (recent : sweep.now < past.now + stateSettleGrace) :
    attentionRank state ≤ attentionRank sweep.reported := by
  have after := kept.snoc settles read stages later spaced
  have whole := settles.snoc read stages later
  -- a reading after this one cannot be: this one is the last
  have last : ∀ after ∈ before ++ [sweep], after.now ≤ sweep.now := by
    intro after inside
    rw [stages.now_eq]
    rcases List.mem_append.mp inside with earlier | own
    · exact later after earlier
    · rw [List.mem_singleton.mp own]
      exact Nat.le_of_eq stages.now_eq
  have report : ∀ held since, next.settled = some (held, since) → sweep.reported = held :=
    fun held since settled => (settles.reported_snoc stages held since settled).2
  cases state with
  | idle => exact Nat.zero_le _
  | working =>
      rcases after past member showed with ⟨held, since, settled, _⟩ | ⟨after, inside, lapsed⟩
      · rw [report held since settled]
        exact (whole.reported held since settled).1
      · have order := last after inside
        omega
  | blocked =>
      have blocked := (read.snoc stages later).positive past member .blocked showed.1
      rcases whole.dialogKept past member blocked with ⟨since, settled, _⟩ | ⟨after, inside, lapsed⟩
      · exact Nat.le_of_eq (congrArg attentionRank (report .blocked since settled).symm)
      · have order := last after inside
        omega

theorem louderOnlyRecent (spaced : Spaced launch (before.map Sweep.toScreenReading) reading)
    (louder : attentionRank sweep.resolved < attentionRank sweep.reported) :
    ∃ past ∈ before, past.Showed sweep.reported ∧ sweep.now < past.now + stateSettleGrace := by
  have stands := read.resolved_eq stages later
  have passed := stages.passed_le
  rw [stages.now_eq]
  rcases stages.settle_cases with ⟨held, since, was, _, recent, reported, _⟩ | ⟨_, reported, _⟩
  · rw [reported] at louder ⊢
    have within : reading.now < since + stateSettleGrace := by omega
    cases held with
    | idle => simp [attentionRank] at louder
    | working =>
        rcases settles.work since was with ⟨⟨work, member, working, rfl⟩, expired⟩
        have atWork := (read.atWork work.toScreenReading).mpr ⟨work, member, rfl, working⟩
        cases shown : work.shown with
        | some state =>
            rw [atWork.eq_working shown] at shown
            exact ⟨work, member, ⟨shown, working⟩, within⟩
        | none =>
            have quiet : sweep.resolved = .idle := by
              refine eq_idle_of_rank fun above => ?_
              exact Nat.not_lt.mpr above louder
            rcases spaced.silentWork (stands.symm.trans quiet) work.toScreenReading atWork shown
              within (read.over_iff.mpr expired) with ⟨past, there, showed, soon⟩
            rcases (read.atWork past).mp there with ⟨again, inside, rfl, passed⟩
            exact ⟨again, inside, ⟨showed, passed⟩, soon⟩
    | blocked =>
        rcases (settles.dialog since was).1 with ⟨dialog, member, blocked, rfl⟩
        cases shown : dialog.shown with
        | some state =>
            have same := read.positive dialog member state shown
            rw [← same, blocked] at shown
            exact ⟨dialog, member, ⟨shown, read.blocked dialog member blocked⟩, within⟩
        | none =>
            have quiet : reading.standsFor (before.map Sweep.toScreenReading) ≠ .blocked := by
              rw [← stands]
              intro blocked
              rw [blocked] at louder
              exact absurd louder (Nat.lt_irrefl _)
            have inside : dialog.heard ∈ hear (before.map Sweep.toScreenReading) := by
              rw [← read.heard]
              exact List.mem_map_of_mem member
            rcases spaced.silentDialog quiet dialog.heard inside blocked shown within with
              ⟨past, there, showed, soon⟩
            rcases List.mem_map.mp there with ⟨again, inside, rfl⟩
            have stood := read.positive again inside .blocked showed
            exact ⟨again, inside, ⟨showed, read.blocked again inside stood⟩, soon⟩
  · rw [reported] at louder
    omega

theorem Spaced.steady (kept : WorkKept before scratch.settled)
    (spaced : Spaced launch (before.map Sweep.toScreenReading) reading) :
    Steady launch before sweep where
  neverQuieter := neverQuieter settles read stages later kept spaced
  louderOnlyRecent := louderOnlyRecent settles read stages later spaced
  louderAtOnce := by
    intro louder
    rcases stages.settle_cases with ⟨held, since, was, quieter, _, _, _⟩ | ⟨_, reported, _⟩
    · rcases (settles.reported held since was).2 with ⟨last, final, reported⟩
      have above := louder last final
      rw [reported] at above
      omega
    · exact reported
  readyFirst := by
    intro working
    refine (read.startup_iff stages).mp ?_
    by_contra still
    rcases Option.ne_none_iff_exists'.mp still with ⟨phase, starting⟩
    rw [stages.rested (read.starting_snoc stages later phase starting).2.2] at working
    cases working
  silentHolds := by
    intro silent
    rw [read.resolved_eq stages later, ScreenReading.standsFor, ← stages.asRead, silent,
      Option.getD_none]

omit read in
theorem dialog_reported {dialog : Sweep} (member : dialog ∈ before)
    (blocked : dialog.resolved = .blocked) (quieter : sweep.passed ≠ .blocked)
    (recent : reading.now < dialog.now + stateSettleGrace) : sweep.reported = .blocked := by
  rcases stages.settle_cases with ⟨held, began, was, _, _, reported, _⟩ | ⟨lapsed, _, _⟩
  · rcases settles.dialogKept dialog member blocked with
      ⟨since, settled, _⟩ | ⟨after, inside, expired⟩
    · cases was.symm.trans settled
      exact reported
    · have order := later after inside
      omega
  · have expired := settles.dialogsOver later lapsed quieter dialog member blocked
    omega

omit read in
theorem work_reported {work : Sweep} (member : work ∈ before) (working : work.passed = .working)
    (expired : DialogsOver before work.now) (quiet : sweep.passed = .idle)
    (recent : reading.now < work.now + stateSettleGrace) : sweep.reported = .working := by
  have positive : 0 < stateSettleGrace := by decide
  rcases settles.workKept work member working expired with
    ⟨held, since, settled, order⟩ | ⟨after, inside, lapsed⟩
  · have loud := (settles.reported held since settled).1
    rw [(stages.held held since settled (by rw [quiet]; exact loud) (by omega)).1]
    cases held with
    | idle => simp [attentionRank] at loud
    | working => rfl
    | blocked =>
        rcases (settles.dialog since settled).1 with ⟨dialog, inside, blocked, rfl⟩
        have ended := expired dialog inside blocked
        omega
  · have order := later after inside
    omega

theorem Steady.spaced (steady : Steady launch before sweep) :
    Spaced launch (before.map Sweep.toScreenReading) reading where
  dialogOver := by
    rintro quiet ⟨dialog, there, blocked, close⟩ expired past showing showed
    rw [← read.resolved_eq stages later] at quiet
    rw [read.over_iff] at expired
    rw [← read.heard] at there
    rcases List.mem_map.mp there with ⟨dialog, member, rfl⟩
    rcases List.mem_map.mp showing with ⟨past, inside, rfl⟩
    have idle := stages.passed_of_idle quiet
    have ended := expired dialog member blocked
    by_contra recent
    have passed : past.passed = .working := by
      rcases read.passed past inside with same | first
      · exact same.trans (read.positive past inside .working showed)
      · have order := first dialog member blocked
        omega
    have bound := steady.neverQuieter past (List.mem_append_left _ inside) .working
      ⟨showed, passed⟩ (by rw [stages.now_eq]; omega)
    rcases stages.settle_cases with ⟨held, began, was, _, within, _, _⟩ | ⟨_, reported, _⟩
    · rcases settles.dialogKept dialog member blocked with
        ⟨since, settled, _⟩ | ⟨after, there, lapsed⟩
      · cases was.symm.trans settled
        rcases (settles.dialog began was).1 with ⟨last, there, stood, rfl⟩
        have lapsed := expired last there stood
        omega
      · have soon := close after.toScreenReading (List.mem_map_of_mem there)
        have soon : after.now < dialog.now + stateSettleGrace := soon
        omega
    · rw [reported, idle] at bound
      exact absurd bound (by decide)
  silentDialog := by
    intro quieter dialog there blocked _ recent
    rw [← read.resolved_eq stages later] at quieter
    rw [← read.heard] at there
    rcases List.mem_map.mp there with ⟨dialog, member, rfl⟩
    have passed : sweep.passed ≠ .blocked := by
      rcases stages.passed_cases with same | idle
      · rwa [same]
      · rw [idle]
        decide
    have reported := dialog_reported settles stages later member blocked passed recent
    have louder : attentionRank sweep.resolved < attentionRank sweep.reported := by
      rw [reported]
      cases state : sweep.resolved with
      | idle => decide
      | working => decide
      | blocked => exact absurd state quieter
    rcases steady.louderOnlyRecent louder with ⟨past, inside, showed, soon⟩
    rw [reported] at showed
    rw [stages.now_eq] at soon
    exact ⟨past.toScreenReading, List.mem_map_of_mem inside, showed.1, soon⟩
  silentWork := by
    intro quiet work atWork _ recent expired
    rw [← read.resolved_eq stages later] at quiet
    rw [read.over_iff] at expired
    rcases (read.atWork work).mp atWork with ⟨work, member, rfl, working⟩
    have reported := work_reported settles stages later member working expired
      (stages.passed_of_idle quiet) recent
    have louder : attentionRank sweep.resolved < attentionRank sweep.reported := by
      rw [reported, quiet]
      decide
    rcases steady.louderOnlyRecent louder with ⟨past, inside, showed, soon⟩
    rw [reported] at showed
    rw [stages.now_eq] at soon
    exact ⟨past.toScreenReading, (read.atWork _).mpr ⟨past, inside, rfl, showed.2⟩, showed.1, soon⟩

end step

/-- Every further reading is answered, and the ones that keep the promise are the ones that take
neither slip. -/
theorem follow_spec (agent : ι) {readings : List ScreenReading} {before : List Sweep}
    {scratch : AgentScratch} (settles : Settles before scratch.settled)
    (read : Read launch before scratch)
    (ordered : readings.Pairwise fun first second => first.now ≤ second.now)
    (later : ∀ past ∈ before, ∀ reading ∈ readings, past.now ≤ reading.now) :
    ∃ sweeps, scratch.follow agent readings = some sweeps ∧
      sweeps.map Sweep.heard = hearAfter (before.map Sweep.toScreenReading) readings ∧
      (Justified.After (Steady launch) before sweeps →
        Justified.After (Spaced launch) (before.map Sweep.toScreenReading) readings) ∧
      (WorkKept before scratch.settled →
        Justified.After (Spaced launch) (before.map Sweep.toScreenReading) readings →
        Justified.After (Steady launch) before sweeps) := by
  induction readings generalizing before scratch with
  | nil =>
      refine ⟨[], rfl, rfl, ?_, ?_⟩
      · exact fun _ => Justified.nil
      · exact fun _ _ => Justified.nil
  | cons reading readings ih =>
      rcases read_stages agent scratch reading with ⟨sweep, next, answered, stages⟩
      rw [List.pairwise_cons] at ordered
      have earlier : ∀ past ∈ before, past.now ≤ reading.now :=
        fun past member => later past member reading List.mem_cons_self
      have after : ∀ past ∈ before ++ [sweep], ∀ reading ∈ readings, past.now ≤ reading.now := by
        intro past member other inside
        rcases List.mem_append.mp member with old | own
        · exact later past old other (List.mem_cons_of_mem reading inside)
        · rw [List.mem_singleton.mp own, stages.now_eq]
          exact ordered.1 other inside
      rcases ih (settles.snoc read stages earlier) (read.snoc stages earlier) ordered.2 after with
        ⟨sweeps, followed, same, onward, back⟩
      rw [List.map_append, List.map_singleton, stages.asRead] at same onward back
      refine ⟨sweep :: sweeps, ?_, ?_, ?_, ?_⟩
      · simp [AgentScratch.follow, answered, followed]
      · rw [List.map_cons, same, hearAfter, Sweep.heard, stages.asRead,
          read.resolved_eq stages earlier]
      · rw [Justified.after_cons_iff, Justified.after_cons_iff]
        rintro ⟨steady, rest⟩
        exact ⟨steady.spaced settles read stages earlier, onward rest⟩
      · rw [Justified.after_cons_iff, Justified.after_cons_iff]
        rintro kept ⟨spaced, rest⟩
        exact ⟨spaced.steady settles read stages earlier kept,
          back (kept.snoc settles read stages earlier spaced) rest⟩

/-- A run does not end on a flicker, at any reading of any sequence, exactly when the readings are
spaced so that neither slip is taken: a dialog held past its grace dropped for a quiet screen while
work was shown within the grace, and a state held on the strength of a silent reading. -/
theorem no_run_ends_on_a_flicker_iff (agent : ι) (launch : Option Nat)
    (readings : List ScreenReading)
    (ordered : readings.Pairwise fun first second => first.now ≤ second.now) :
    ∃ sweeps, (AgentScratch.launched launch).follow agent readings = some sweeps ∧
      sweeps.map Sweep.heard = hear readings ∧
      (Justified (Steady launch) sweeps ↔ Justified (Spaced launch) readings) := by
  rcases follow_spec agent Settles.nil (Read.nil launch) ordered (by simp) with
    ⟨sweeps, followed, same, onward, back⟩
  refine ⟨sweeps, followed, same, onward, back ?_⟩
  intro past member
  cases member

/-- Readings are spaced where the silent ones before stood for rest, and a quiet screen comes after
readings past the grace of every dialog. -/
theorem Spaced.of_shown {before : List ScreenReading}
    (resting : ∀ heard ∈ hear before, heard.shown = none → heard.stands = .idle)
    (busy : reading.standsFor before = .idle → ∀ dialog ∈ hear before, dialog.stands = .blocked →
      ∃ past ∈ before, dialog.now + stateSettleGrace ≤ past.now) :
    Spaced launch before reading where
  dialogOver := by
    rintro quiet ⟨dialog, member, blocked, close⟩
    rcases busy quiet dialog member blocked with ⟨past, inside, expired⟩
    exact absurd (close past inside) (Nat.not_lt.mpr expired)
  silentDialog := by
    intro _ dialog member blocked silent
    cases blocked.symm.trans (resting dialog member silent)
  silentWork := by
    intro _ work atWork silent
    rcases atWork.heard with ⟨heard, member, rfl, working⟩
    cases working.symm.trans (resting heard member silent)

def tornAfterTurn : List ScreenReading :=
  [{ now := 0, shown := some .blocked },
    { now := 1000000000, shown := some .working },
    { now := 2500000000, shown := some .working },
    { now := 3000000000, shown := some .idle },
    { now := 3500000000, shown := none },
    { now := 5000000000, shown := some .idle }]

theorem no_run_ends_on_a_flicker_iff_torn :
    ∃ sweeps, (AgentScratch.launched none).follow () tornAfterTurn = some sweeps ∧
      sweeps.map Sweep.heard = hear tornAfterTurn ∧ Justified (Steady none) sweeps ∧
      sweeps.map Sweep.reported = [.blocked, .blocked, .working, .working, .working, .idle] := by
  rcases no_run_ends_on_a_flicker_iff () none tornAfterTurn (by decide) with
    ⟨sweeps, followed, heard, steady⟩
  refine ⟨sweeps, followed, heard, steady.mpr ?_, ?_⟩
  · rw [← Justified.after_nil_iff, tornAfterTurn]
    simp only [Justified.after_cons_iff, List.nil_append, List.cons_append]
    refine ⟨?_, ?_, ?_, ?_, ?_, ?_, Justified.nil⟩
    all_goals exact .of_shown (by decide) (by decide)
  · cases followed
    rfl

def tornAfterDialog : List ScreenReading :=
  [{ now := 0, shown := some .blocked },
    { now := 1900000000, shown := some .working },
    { now := 2000000000, shown := some .idle }]

/-- The torn frame ends the run a tenth of a second after the screen showed work: the work that was
shown while the dialog was held has been forgotten. -/
theorem torn_frame_ends_the_run :
    ∃ sweeps, (AgentScratch.launched none).follow () tornAfterDialog = some sweeps ∧
      ¬Justified (Steady none) sweeps := by
  refine ⟨_, rfl, ?_⟩
  intro steady
  have last := steady [_, _] _ [] rfl
  have bound := last.neverQuieter _ (List.mem_cons_of_mem _ List.mem_cons_self) .working
    ⟨rfl, rfl⟩ (by decide)
  exact absurd bound (by decide)

end Rozi
