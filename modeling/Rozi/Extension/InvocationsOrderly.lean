import Rozi.Extension.InvocationsSound

/-!
The calls of a session server stay bounded and answered, in any interleaving.
-/

namespace Rozi.Calls

variable {J : Type} {world next last : World J}

/-- The label takes the credential of the call that runs under `id`. -/
def World.Kills (world : World J) (id : String) (running : Running) : Label J → Prop
  | .cancel other => other = id
  | .cancelAttached _ _ first => first = some id
  | .abandonClient client => running.calledBy client = true
  | .retireExtension extension generation =>
      running.extension = extension ∧ running.info.generation = generation
  | .drain => id ∈ world.reported
  | .stopAll => True
  | _ => False

structure Orderly (world : World J) : Prop where
  few : world.values.length ≤ maxRunning
  alone : world.calls.Pairwise world.Alone
  /-- A cancelled call that has not ended still counts. -/
  single : ∀ action, (∀ call ∈ world.calls, call.action = action → call.singleton = true) →
    (world.values.filter fun running => running.info.action = action).length ≤ 1
  shallow : ∀ call ∈ world.calls, call.depth ≤ maxDepth
  top : ∀ call ∈ world.calls, call.parent = none → call.depth = 1
  within : ∀ call ∈ world.calls, ∀ id, call.parent = some id →
    ∃ caller ∈ world.calls, caller.id = id ∧ call.IsWithin caller
  /-- Every caller waits, was handed out or has gone, in one way and once. -/
  owes : (world.waiting ++ world.handed ++ world.abandoned).Perm (world.calls.map Call.owed)
  once : ((world.waiting ++ world.handed ++ world.abandoned).map Prod.fst).Nodup
  /-- The calls that run are those whose worker works, and those whose report is not read yet. -/
  slots : world.running.keys.Perm (world.working ++ world.reported)
  workers : (world.working ++ world.reported).Nodup

namespace Sound

/-- Two running calls of an action all of whose calls are singletons are one. -/
theorem one_call (sound : Sound world) {action : String}
    (declared : ∀ call ∈ world.calls, call.action = action → call.singleton = true)
    {call other : Call} (listed : call ∈ world.calls) (listed' : other ∈ world.calls)
    (runs : (world.lookup call.id).isSome) (runs' : (world.lookup other.id).isSome)
    (acts : call.action = action) (acts' : other.action = action) : call = other := by
  let Apart : Call → Call → Prop := fun call other =>
    ¬((world.lookup call.id).isSome ∧ (world.lookup other.id).isSome ∧
      call.action = action ∧ other.action = action)
  have symmetric : Std.Symm Apart :=
    ⟨fun _ _ apart together =>
      apart ⟨together.2.1, together.1, together.2.2.2, together.2.2.1⟩⟩
  have pairwise : world.calls.Pairwise Apart := by
    refine sound.single.imp_of_mem fun {earlier later} _ listed alone together => ?_
    rcases together with ⟨first, second, acts, acts'⟩
    have loose := alone first second (acts.trans acts'.symm)
    rw [declared later listed acts'] at loose
    cases loose
  by_contra different
  exact pairwise.forall listed listed' different ⟨runs, runs', acts, acts'⟩

theorem same_record (sound : Sound world) {action : String}
    (declared : ∀ call ∈ world.calls, call.action = action → call.singleton = true)
    {id other : String} {running second : Running} (found : world.lookup id = some running)
    (found' : world.lookup other = some second) (acts : running.info.action = action)
    (acts' : second.info.action = action) : id = other := by
  rcases sound.records id running found with ⟨call, listed, records⟩
  rcases sound.records other second found' with ⟨call', listed', records'⟩
  have runs : (world.lookup call.id).isSome := by
    rw [records.name, found]
    rfl
  have runs' : (world.lookup call'.id).isSome := by
    rw [records'.name, found']
    rfl
  have same : call = call' :=
    sound.one_call declared listed listed' runs runs' (records.action.symm.trans acts)
      (records'.action.symm.trans acts')
  rw [← records.name, ← records'.name, same]

theorem single_action (sound : Sound world) {action : String}
    (declared : ∀ call ∈ world.calls, call.action = action → call.singleton = true) :
    (world.values.filter fun running => running.info.action = action).length ≤ 1 := by
  have listed : (world.values.filter fun running => running.info.action = action) =
      (world.running.entries.filter fun entry => entry.2.info.action = action).map Sigma.snd := by
    rw [World.values, Invocations.values, List.filter_map]
    rfl
  have nodup : (world.running.entries.filter fun entry => entry.2.info.action = action).Nodup :=
    world.running.nodupKeys.nodup.filter _
  have one : ∀ entry ∈ world.running.entries, ∀ other ∈ world.running.entries,
      entry.2.info.action = action → other.2.info.action = action → entry = other := by
    rintro ⟨id, running⟩ there ⟨other, second⟩ there' acts acts'
    have found : world.lookup id = some running := AList.mem_lookup_iff.mpr there
    have found' : world.lookup other = some second := AList.mem_lookup_iff.mpr there'
    have same := sound.same_record declared found found' acts acts'
    subst same
    rw [found, Option.some.injEq] at found'
    rw [found']
  rw [listed, List.length_map]
  cases picked : world.running.entries.filter fun entry => entry.2.info.action = action with
  | nil => exact Nat.zero_le _
  | cons first rest =>
      rw [picked, List.nodup_cons] at nodup
      have among : ∀ entry ∈ first :: rest,
          entry ∈ world.running.entries ∧ entry.2.info.action = action := by
        intro entry member
        rw [← picked, List.mem_filter, decide_eq_true_eq] at member
        exact member
      have alone : rest = [] := by
        refine List.eq_nil_iff_forall_not_mem.mpr fun second later => nodup.1 ?_
        rcases among first List.mem_cons_self with ⟨there, acts⟩
        rcases among second (List.mem_cons_of_mem _ later) with ⟨there', acts'⟩
        rw [one first there second there' acts acts']
        exact later
      rw [alone]
      exact le_rfl

theorem orderly (sound : Sound world) : Orderly world where
  few := sound.few
  alone := sound.single
  single := fun _ declared => sound.single_action declared
  shallow := fun call listed => (sound.nested call listed).1
  top := by
    intro call listed top
    have nested := (sound.nested call listed).2
    rw [top] at nested
    exact nested
  within := by
    intro call listed id parent
    have nested := (sound.nested call listed).2
    rw [parent] at nested
    exact nested
  owes := sound.owes
  once := by
    rw [(sound.owes.map Prod.fst).nodup_iff, List.map_map]
    exact sound.credentials
  slots := sound.slots
  workers := sound.slots.nodup_iff.mp world.running.nodupKeys

theorem unknown (sound : Sound world) {credential : String} (dead : credential ∈ world.dead) :
    world.invocations.knowsCredential credential = false := by
  rw [Invocations.knowsCredential, Option.isSome_eq_false_iff, Option.isNone_iff_eq_none]
  rw [Option.eq_none_iff_forall_ne_some]
  intro running holds
  rcases Invocations.byCredential_some holds with ⟨id, found, same, live⟩
  have cancelled := (sound.dead credential dead).2 id running found same
  rw [live] at cancelled
  cases cancelled

end Sound

/-! Credentials die with the steps that take them, and for ever. -/

namespace World

theorem serve_dead {label : Label J} (moved : world.serve label = some next) :
    world.dead ⊆ next.dead := by
  cases label with
  | start target request grant =>
      change world.start target request grant = some next at moved
      unfold World.start at moved
      split at moved
      · exact Option.some.inj moved ▸ List.Subset.refl _
      · split_ifs at moved
        exact Option.some.inj moved ▸ List.Subset.refl _
  | cancelAttached client requestId first =>
      simp only [World.serve] at moved
      split_ifs at moved
      exact Option.some.inj moved ▸ List.subset_append_left _ _
  | complete _ => cases moved
  | receive => cases moved
  | stopped => cases moved
  | _ => exact Option.some.inj moved ▸ List.subset_append_left _ _

theorem wait_dead {label : Label J} (moved : world.wait label = some next) :
    next.dead = world.dead := by
  cases label with
  | receive =>
      simp only [World.wait] at moved
      split_ifs at moved
      exact Option.some.inj moved ▸ rfl
  | stopped => exact Option.some.inj moved ▸ rfl
  | _ => cases moved

theorem perform_dead {label : Label J} (moved : world.perform label = some next) :
    world.dead ⊆ next.dead := by
  rcases perform_cases moved with ⟨finished, _, rfl⟩ | ⟨_, waited⟩ | ⟨_, served⟩
  · exact List.Subset.refl _
  · rw [wait_dead waited]
    exact List.Subset.refl _
  · exact serve_dead served

theorem run_dead {labels : List (Label J)} (run : labels.foldlM perform world = some last) :
    world.dead ⊆ last.dead := by
  induction labels generalizing world with
  | nil => exact Option.some.inj run ▸ List.Subset.refl _
  | cons label labels ih =>
      rw [List.foldlM_cons, Option.bind_eq_bind, Option.bind_eq_some_iff] at run
      rcases run with ⟨next, first, rest⟩
      exact List.Subset.trans (perform_dead first) (ih rest)

theorem mem_credentials {test : Running → Bool} {id : String} {running : Running}
    (found : world.lookup id = some running) (passed : test running = true) :
    running.credential ∈ world.credentials test :=
  List.mem_map_of_mem
    (List.mem_filter.mpr ⟨Invocations.mem_values.mpr ⟨id, found⟩, passed⟩)

theorem mem_credentialOf {id : String} {running : Running}
    (found : world.lookup id = some running) : running.credential ∈ world.credentialOf id := by
  rw [credentialOf, found]
  exact List.mem_singleton.mpr rfl

theorem drained_of_reported {reports : List (Finished J)}
    {records : AList fun _ : String => Running} {id : String} {running : Running}
    (found : records.lookup id = some running) (reported : id ∈ reports.map Finished.id) :
    ∃ finished, Invocations.ended finished running ∈ (Invocations.drainReports reports records).1 := by
  induction reports generalizing records with
  | nil => cases reported
  | cons finished rest ih =>
      by_cases same : id = finished.id
      · rw [same] at found
        rw [Invocations.drainReports_cons_of_lookup found]
        exact ⟨finished, List.mem_cons_self⟩
      · have later : id ∈ rest.map Finished.id := (List.mem_cons.mp reported).resolve_left same
        cases first : records.lookup finished.id with
        | none =>
            rw [Invocations.drainReports_cons_of_none first]
            exact ih found later
        | some record =>
            rw [Invocations.drainReports_cons_of_lookup first]
            have stays : (records.erase finished.id).lookup id = some running := by
              rw [AList.lookup_erase_eq, if_neg same, found]
            rcases ih stays later with ⟨report, listed⟩
            exact ⟨report, List.mem_cons_of_mem _ listed⟩

theorem kills_dead {label : Label J} (moved : world.perform label = some next) {id : String}
    {running : Running} (found : world.lookup id = some running)
    (kills : world.Kills id running label) : running.credential ∈ next.dead := by
  rcases perform_cases moved with ⟨finished, same, rfl⟩ | ⟨_, waited⟩ | ⟨_, served⟩
  · rw [same.1] at kills
    cases kills
  · cases label with
    | receive => cases kills
    | stopped => cases kills
    | _ => cases waited
  · cases label with
    | cancel other =>
        have same : other = id := kills
        exact Option.some.inj served ▸ List.mem_append_right _ (same ▸ mem_credentialOf found)
    | cancelAttached client requestId first =>
        have same : first = some id := kills
        simp only [World.serve] at served
        split_ifs at served
        refine Option.some.inj served ▸ List.mem_append_right _ ?_
        rw [same, Option.toList_some, List.flatMap_singleton]
        exact mem_credentialOf found
    | abandonClient client =>
        exact Option.some.inj served ▸ List.mem_append_right _ (mem_credentials found kills)
    | retireExtension extension generation =>
        have mine : Invocations.ofGeneration extension generation running = true := by
          rw [Invocations.ofGeneration, Bool.and_eq_true, decide_eq_true_eq, decide_eq_true_eq]
          exact kills
        exact Option.some.inj served ▸ List.mem_append_right _ (mem_credentials found mine)
    | drain =>
        rcases drained_of_reported found kills with ⟨finished, ended⟩
        exact Option.some.inj served ▸ List.mem_append_right _
          (List.mem_map_of_mem (f := EndedCall.credential) ended)
    | stopAll =>
        exact Option.some.inj served ▸ List.mem_append_right _ (mem_credentials found rfl)
    | start _ _ _ => cases kills
    | complete _ => cases kills
    | receive => cases kills
    | stopped => cases kills

end World

/-! The run. -/

theorem Sound.owed_of_not_waiting (sound : Sound world) {call : Call} (listed : call ∈ world.calls)
    (left : call.owed ∉ world.waiting) : call.owed ∈ world.handed ++ world.abandoned := by
  have there : call.owed ∈ world.waiting ++ world.handed ++ world.abandoned :=
    sound.owes.mem_iff.mpr (List.mem_map_of_mem listed)
  rw [List.append_assoc] at there
  exact (List.mem_append.mp there).resolve_left left

theorem Sound.runs_of_waiting (sound : Sound world) {call : Call} (listed : call ∈ world.calls)
    (waits : call.owed ∈ world.waiting) : call.id ∈ world.running.keys := by
  rcases List.mem_filterMap.mp waits with ⟨running, there, owed⟩
  rcases Option.map_eq_some_iff.mp owed with ⟨caller, _, same⟩
  rcases Invocations.mem_values.mp there with ⟨id, found⟩
  rcases sound.records id running found with ⟨other, started, records⟩
  have one : other = call := by
    refine List.inj_on_of_nodup_map sound.credentials started listed ?_
    rw [← records.credential]
    exact congrArg Prod.fst same
  rw [← one, records.name, ← AList.mem_keys, ← AList.lookup_isSome]
  exact Option.isSome_iff_exists.mpr ⟨running, found⟩

/-- Calls stay bounded and nested, every caller is handed out once unless it departed, a call that
was killed is never known again, and what a worker has reported is removed when it is read. -/
theorem calls_orderly (reached : (system J).Reachable world) :
    Orderly world ∧
      (∀ label next, world.perform label = some next → ∀ id running,
        world.lookup id = some running → world.Kills id running label →
          ∀ (labels : List (Label J)) (last : World J),
            labels.foldlM World.perform next = some last →
              last.invocations.knowsCredential running.credential = false) ∧
      (∀ next, world.perform .drain = some next →
        next.running.keys.Perm next.working ∧
          ∀ call ∈ next.calls, call.id ∉ next.working →
            call.owed ∈ next.handed ++ next.abandoned) ∧
      (∀ next, world.perform .stopAll = some next →
        ∀ call ∈ next.calls, call.owed ∈ next.handed ++ next.abandoned) ∧
      ∀ finished rest next, world.invocations.finished = finished :: rest →
        world.perform .receive = some next → next.running = world.running.erase finished.id := by
  have sound := Sound.reachable reached
  refine ⟨sound.orderly, ?_, ?_, ?_, ?_⟩
  · intro label next moved id running found kills labels last run
    have after : (system J).Reachable last :=
      (reached.next label moved).performed (fun _ _ _ stepped => stepped) run
    exact (Sound.reachable after).unknown (World.run_dead run (World.kills_dead moved found kills))
  · intro next moved
    have after := sound.step moved
    have left : next.running.keys.Perm next.working := by
      rcases World.perform_cases moved with ⟨_, ⟨other, _⟩, _⟩ | ⟨_, waited⟩ | ⟨_, served⟩
      · cases other
      · cases waited
      · exact Option.some.inj served ▸ sound.keys_drain
    refine ⟨left, fun call listed reported => after.owed_of_not_waiting listed fun waits => ?_⟩
    exact reported (left.mem_iff.mp (after.runs_of_waiting listed waits))
  · intro next moved call listed
    have after := sound.step moved
    have stops : next.stopping = true := by
      rcases World.perform_cases moved with ⟨_, ⟨other, _⟩, _⟩ | ⟨_, waited⟩ | ⟨_, served⟩
      · cases other
      · cases waited
      · exact Option.some.inj served ▸ rfl
    refine after.owed_of_not_waiting listed ?_
    rw [after.still stops]
    exact List.not_mem_nil
  · intro finished rest next read moved
    rcases World.perform_cases moved with ⟨_, ⟨other, _⟩, _⟩ | ⟨_, waited⟩ | ⟨_, served⟩
    · cases other
    · simp only [World.wait] at waited
      split_ifs at waited
      rw [← Option.some.inj waited, World.running, Invocations.shutDownRound, read]
      rfl
    · cases served

/-- A singleton calls an action that is then cancelled, reports and is drained; the first call goes
with the session. -/
def sampleLabels : List (Label Nat) :=
  let build : ActionInfo := { id := "build", deadlineMs := 5000, concurrency := .singleton }
  let lint : ActionInfo := { id := "lint", deadlineMs := 9000, concurrency := .parallel }
  let grant (now : Nat) (id credential : String) : Grant :=
    { now, wall := now, issued := .ok (id, credential), spawned := .ok () }
  [.start { extension := "tools", generation := 1, action := build }
      { client := 1, reply := .headless, args := .ok [], timeoutMs := none,
        callerCredential := none } (grant 0 "a" "secret-a"),
    .start { extension := "tools", generation := 1, action := lint }
      { client := 2, reply := .attached 7, args := .ok [], timeoutMs := some 100,
        callerCredential := some "secret-a" } (grant 10 "b" "secret-b"),
    .start { extension := "tools", generation := 1, action := build }
      { client := 3, reply := .headless, args := .ok [], timeoutMs := none,
        callerCredential := none } (grant 20 "c" "secret-c"),
    .cancelAttached 2 7 (some "b"),
    .complete { id := "b", result := .ok 5 },
    .drain,
    .stopAll]

def sampleWorld : World Nat := (sampleLabels.foldlM World.perform {}).getD {}

theorem sampleWorld_reached : (system Nat).Reachable sampleWorld := by
  have run : sampleLabels.foldlM World.perform {} = some sampleWorld := rfl
  exact (Transition.Reachable.begin rfl).performed (fun _ _ _ stepped => stepped) run

theorem calls_orderly_sample : sampleWorld.handed =
      [("secret-b", (2, .attached 7)), ("secret-a", (1, .headless))] ∧ Orderly sampleWorld :=
  ⟨rfl, (calls_orderly sampleWorld_reached).1⟩

end Rozi.Calls
