import Rozi.Extension.InvocationsSafety

/-!
The invariant of a session server's calls, kept by every step.
-/

namespace Rozi.Calls

variable {J : Type}

namespace Call

def owed (call : Call) : String × (ClientId × ReplyTo) := (call.credential, call.caller)

structure Records (call : Call) (name : String) (running : Running) : Prop where
  name : call.id = name
  id : running.info.invocationId = call.id
  credential : running.credential = call.credential
  action : running.info.action = call.action
  depth : running.info.depth = call.depth
  deadline : running.deadline = call.deadline

def IsWithin (call caller : Call) : Prop :=
  call.depth = caller.depth + 1 ∧ call.deadline ≤ caller.deadline

def IsNested (calls : List Call) (call : Call) : Prop :=
  call.depth ≤ maxDepth ∧
    match call.parent with
    | none => call.depth = 1
    | some id => ∃ caller ∈ calls, caller.id = id ∧ call.IsWithin caller

theorem Records.tame {call : Call} {name : String} {before after : Running}
    (records : call.Records name before) (tame : Tame before after) :
    call.Records name after where
  name := records.name
  id := (congrArg InvocationInfo.invocationId tame.info).trans records.id
  credential := tame.credential.trans records.credential
  action := (congrArg InvocationInfo.action tame.info).trans records.action
  depth := (congrArg InvocationInfo.depth tame.info).trans records.depth
  deadline := tame.deadline.trans records.deadline

theorem IsNested.more {calls : List Call} {call : Call} (nested : IsNested calls call)
    (later : Call) : IsNested (calls ++ [later]) call := by
  rcases nested with ⟨shallow, from_parent⟩
  refine ⟨shallow, ?_⟩
  cases parent : call.parent with
  | none =>
      rw [parent] at from_parent
      exact from_parent
  | some id =>
      rw [parent] at from_parent
      rcases from_parent with ⟨caller, listed, named, within⟩
      exact ⟨caller, List.mem_append_left _ listed, named, within⟩

end Call

namespace World

/-- Two calls of one action never run together when the later one is a singleton. -/
def Alone (world : World J) (earlier later : Call) : Prop :=
  (world.lookup earlier.id).isSome → (world.lookup later.id).isSome →
    earlier.action = later.action → later.singleton = false

/-- A dead credential belongs to a call that was started, and is cancelled if it still runs. -/
def IsDead (world : World J) (credential : String) : Prop :=
  (∃ call ∈ world.calls, call.credential = credential) ∧
    ∀ id running, world.lookup id = some running → running.credential = credential →
      running.cancel = true

def reported (world : World J) : List String := world.invocations.finished.map Finished.id

end World

structure Sound (world : World J) : Prop where
  ids : (world.calls.map Call.id).Nodup
  credentials : (world.calls.map Call.credential).Nodup
  records : ∀ id running, world.lookup id = some running →
    ∃ call ∈ world.calls, call.Records id running
  few : world.values.length ≤ maxRunning
  single : world.calls.Pairwise world.Alone
  nested : ∀ call ∈ world.calls, call.IsNested world.calls
  owes : (world.waiting ++ world.handed ++ world.abandoned).Perm (world.calls.map Call.owed)
  dead : ∀ credential ∈ world.dead, world.IsDead credential
  slots : world.running.keys.Perm (world.working ++ world.reported)
  still : world.stopping = true → world.waiting = []

namespace Sound

variable {world next : World J}

theorem initially : Sound ({} : World J) where
  ids := List.nodup_nil
  credentials := List.nodup_nil
  records := fun _ _ found => by cases found
  few := Nat.zero_le _
  single := List.Pairwise.nil
  nested := fun _ listed => by cases listed
  owes := .refl _
  dead := fun _ listed => by cases listed
  slots := .refl _
  still := fun stopping => by cases stopping

theorem same_id (sound : Sound world) {id other : String} {running second : Running}
    (found : world.lookup id = some running) (there : world.lookup other = some second)
    (same : running.credential = second.credential) : id = other := by
  rcases sound.records id running found with ⟨call, listed, records⟩
  rcases sound.records other second there with ⟨call', listed', records'⟩
  have one : call = call' := by
    refine List.inj_on_of_nodup_map sound.credentials listed listed' ?_
    rw [← records.credential, ← records'.credential, same]
  rw [← records.name, ← records'.name, one]

/-- A step after which the records are some of those before keeps what is about the calls. What
else it must say is who is answered, which credentials die, and whose reports are read. -/
theorem shrink (sound : Sound world)
    (shrinks : Shrinks world.invocations next.invocations) (calls : next.calls = world.calls)
    {gone : List String}
    (dead : next.dead = world.dead ++ gone)
    (dying : ∀ credential ∈ gone, ∃ id running, world.lookup id = some running ∧
      running.credential = credential ∧
      ∀ after, next.lookup id = some after → after.cancel = true)
    (owes : (next.waiting ++ next.handed ++ next.abandoned).Perm
      (world.waiting ++ world.handed ++ world.abandoned))
    (slots : next.running.keys.Perm (next.working ++ next.reported))
    (still : next.stopping = true → next.waiting = []) : Sound next where
  ids := calls ▸ sound.ids
  credentials := calls ▸ sound.credentials
  records := by
    intro id running found
    rcases shrinks.kept id running found with ⟨earlier, there, tame⟩
    rcases sound.records id earlier there with ⟨call, listed, records⟩
    exact ⟨call, calls ▸ listed, records.tame tame⟩
  few := shrinks.fewer.trans sound.few
  single := by
    have earlier : ∀ id, (next.lookup id).isSome → (world.lookup id).isSome := by
      intro id there
      rcases Option.isSome_iff_exists.mp there with ⟨running, found⟩
      rcases shrinks.kept id running found with ⟨before, found, _⟩
      exact Option.isSome_iff_exists.mpr ⟨before, found⟩
    rw [calls]
    exact sound.single.imp fun alone first second => alone (earlier _ first) (earlier _ second)
  nested := by
    rw [calls]
    exact sound.nested
  owes := by
    rw [calls]
    exact owes.trans sound.owes
  dead := by
    intro credential listed
    rw [dead, List.mem_append] at listed
    unfold World.IsDead
    rw [calls]
    rcases listed with before | now
    · rcases sound.dead credential before with ⟨started, cancelled⟩
      refine ⟨started, fun id running found same => ?_⟩
      rcases shrinks.kept id running found with ⟨earlier, there, tame⟩
      exact tame.cancel (cancelled id earlier there (tame.credential.symm.trans same))
    · rcases dying credential now with ⟨id, running, found, same, cancelled⟩
      constructor
      · rcases sound.records id running found with ⟨call, listed, records⟩
        exact ⟨call, listed, records.credential.symm.trans same⟩
      · intro other after there again
        rcases shrinks.kept other after there with ⟨earlier, before, tame⟩
        have one : id = other :=
          sound.same_id found before (same.trans (again.symm.trans tame.credential))
        exact cancelled after (one ▸ there)
  slots := slots
  still := still

end Sound

/-! What an admitted call is given. -/

namespace Invocations

variable {invocations : Invocations J} {target : CallTarget} {request : CallRequest} {grant : Grant}
  {id : String} {running : Running}

theorem checkCapacity_ok {action : ActionInfo} {done : Unit}
    (passed : invocations.checkCapacity action = .ok done) :
    invocations.values.length < maxRunning ∧
      (action.concurrency = .singleton →
        ∀ running ∈ invocations.values, running.info.action ≠ action.id) := by
  unfold checkCapacity at passed
  split_ifs at passed with full busy
  refine ⟨not_le.mp full, fun singleton running listed same => busy ⟨singleton, ?_⟩⟩
  exact List.any_eq_true.mpr ⟨running, listed, decide_eq_true same⟩

theorem nestingDepth_ok {parent : Option Running} {depth : Nat}
    (passed : nestingDepth parent = .ok depth) :
    depth ≤ maxDepth ∧ depth = parent.elim 1 fun parent => parent.info.depth + 1 := by
  unfold nestingDepth at passed
  simp only at passed
  split_ifs at passed with deep
  have same := Except.ok.inj passed
  cases parent with
  | none =>
      rw [Option.elim_none] at same deep ⊢
      omega
  | some parent =>
      rw [Option.elim_some] at same deep ⊢
      unfold maxDepth at deep ⊢
      omega

theorem timeAllowed_ok {action : ActionInfo} {timeoutMs : Option Nat} {parent : Running}
    {now allowed : Nat} (passed : timeAllowed action timeoutMs (some parent) now = .ok allowed) :
    now + allowed ≤ parent.deadline := by
  unfold timeAllowed at passed
  simp only at passed
  split_ifs at passed with late
  have same := Except.ok.inj passed
  omega

structure Admitted (invocations : Invocations J) (target : CallTarget) (request : CallRequest)
    (id : String) (running : Running) : Prop where
  room : invocations.values.length < maxRunning
  alone : target.action.concurrency = .singleton →
    ∀ running ∈ invocations.values, running.info.action ≠ target.action.id
  shallow : running.info.depth ≤ maxDepth
  depth : running.info.depth =
    (invocations.parentOf request).elim 1 fun parent => parent.info.depth + 1
  deadline : ∀ parent, invocations.parentOf request = some parent →
    running.deadline ≤ parent.deadline
  id : running.info.invocationId = id
  action : running.info.action = target.action.id
  caller : running.caller = some (request.client, request.reply)

theorem admit_ok (admitted : invocations.admitCall target request grant = .ok (id, running)) :
    invocations.Admitted target request id running := by
  unfold admitCall at admitted
  simp only [Checks.bind_eq_ok, Checks.pure_eq_ok, Prod.mk.injEq] at admitted
  rcases admitted with ⟨depth, deep, allowed, due, _, room, _, _, ⟨issued, secret⟩, _, _, _, same,
    record⟩
  rcases checkCapacity_ok room with ⟨room, alone⟩
  rcases nestingDepth_ok deep with ⟨shallow, nested⟩
  subst same record
  refine ⟨room, alone, shallow, nested, ?_, rfl, rfl, rfl⟩
  intro parent calling
  rw [calling] at due
  exact timeAllowed_ok due

theorem byCredential_some {credential : String} {parent : Running}
    (found : invocations.byCredential credential = some parent) :
    ∃ id, invocations.running.lookup id = some parent ∧ parent.credential = credential ∧
      parent.cancel = false := by
  unfold byCredential at found
  have passed := List.find?_some found
  rw [Bool.and_eq_true, decide_eq_true_eq, Bool.not_eq_true'] at passed
  rcases mem_values.mp (List.mem_of_find?_eq_some found) with ⟨id, there⟩
  exact ⟨id, there, passed⟩

end Invocations

/-! The steps. -/

theorem World.perform_cases {world next : World J} {label : Label J}
    (moved : world.perform label = some next) :
    (∃ finished, (label = .complete finished ∧ finished.id ∈ world.working) ∧
      { world with
        invocations :=
          { world.invocations with finished := world.invocations.finished ++ [finished] }
        working := world.working.erase finished.id } = next) ∨
      (world.stopping = true ∧ world.wait label = some next) ∨
      (world.stopping = false ∧ world.serve label = some next) := by
  by_cases report : ∃ finished, label = .complete finished
  · rcases report with ⟨finished, rfl⟩
    simp only [World.perform] at moved
    split_ifs at moved with works
    exact .inl ⟨finished, ⟨rfl, works⟩, Option.some.inj moved⟩
  · have rest : (if world.stopping then world.wait label else world.serve label) = some next := by
      cases label with
      | complete finished => exact absurd ⟨finished, rfl⟩ report
      | _ => exact moved
    split_ifs at rest with stops
    · exact .inr (.inl ⟨stops, rest⟩)
    · exact .inr (.inr ⟨Bool.eq_false_iff.mpr stops, rest⟩)

namespace Sound

variable {world next : World J}

theorem start (sound : Sound world) {target : CallTarget} {request : CallRequest}
    {id : String} {running : Running}
    (admitted : world.invocations.Admitted target request id running)
    (fresh : world.IsFresh id running.credential) (serves : world.stopping = false) :
    Sound (world.started target request id running) := by
  rcases fresh with ⟨new, unused⟩
  have missing : world.lookup id = none := by
    rw [Option.eq_none_iff_forall_ne_some]
    intro there found
    rcases sound.records id there found with ⟨call, listed, records⟩
    exact new call listed records.name
  have gone : world.running.erase id = world.running := AList.erase_of_lookup_none missing
  have looked : ∀ other, (world.started target request id running).lookup other =
      if other = id then some running else world.lookup other :=
    fun other => AList.lookup_insert_eq
  have known : ∀ call ∈ world.calls, (world.started target request id running).lookup call.id =
      world.lookup call.id := by
    intro call listed
    rw [looked, if_neg (new call listed)]
  have values : (world.started target request id running).values = running :: world.values := by
    change (AList.insert id running world.running).entries.map Sigma.snd = _
    rw [AList.entries_insert]
    change running :: (world.running.erase id).entries.map Sigma.snd = _
    rw [gone]
    rfl
  constructor
  case ids =>
    rw [World.started, List.map_append, List.nodup_append_comm, List.map_singleton,
      List.singleton_append, List.nodup_cons]
    refine ⟨fun listed => ?_, sound.ids⟩
    rcases List.mem_map.mp listed with ⟨call, listed, same⟩
    exact new call listed same
  case credentials =>
    rw [World.started, List.map_append, List.nodup_append_comm, List.map_singleton,
      List.singleton_append, List.nodup_cons]
    refine ⟨fun listed => ?_, sound.credentials⟩
    rcases List.mem_map.mp listed with ⟨call, listed, same⟩
    exact unused call listed same
  case records =>
    intro other record found
    rw [looked] at found
    split_ifs at found with same
    · refine ⟨_, List.mem_append_right _ (List.mem_singleton.mpr rfl), ?_⟩
      subst same
      cases found
      exact ⟨rfl, admitted.id, rfl, admitted.action, rfl, rfl⟩
    · rcases sound.records other record found with ⟨call, listed, records⟩
      exact ⟨call, List.mem_append_left _ listed, records⟩
  case few =>
    rw [values, List.length_cons]
    exact admitted.room
  case single =>
    rw [World.started, List.pairwise_append]
    refine ⟨?_, List.pairwise_singleton _ _, ?_⟩
    · refine sound.single.imp_of_mem fun {earlier later} first second alone => ?_
      unfold World.Alone
      have one := known earlier first
      have two := known later second
      rw [World.started] at one two
      rw [one, two]
      exact alone
    · intro earlier listed later last there _ same
      rw [List.mem_singleton] at last
      subst last
      have one := known earlier listed
      rw [World.started] at one
      rw [one] at there
      rcases Option.isSome_iff_exists.mp there with ⟨record, found⟩
      rcases sound.records earlier.id record found with ⟨call, started, records⟩
      have is : call = earlier := List.inj_on_of_nodup_map sound.ids started listed records.name
      by_contra single
      rw [Bool.not_eq_false] at single
      refine admitted.alone (of_decide_eq_true single) record
        (Invocations.mem_values.mpr ⟨earlier.id, found⟩) ?_
      rw [records.action, is, same]
      rfl
  case nested =>
    intro call listed
    rcases List.mem_append.mp listed with before | last
    · exact (sound.nested call before).more _
    · rw [List.mem_singleton] at last
      subst last
      refine ⟨admitted.shallow, ?_⟩
      cases parent : world.invocations.parentOf request with
      | none =>
          have depth := admitted.depth
          rw [parent] at depth
          simp only [World.callOf, Option.map_none]
          exact depth
      | some from_call =>
          have depth := admitted.depth
          have due := admitted.deadline from_call parent
          rw [parent] at depth
          rcases Option.bind_eq_some_iff.mp parent with ⟨credential, _, holds⟩
          rcases Invocations.byCredential_some holds with ⟨other, found, _⟩
          rcases sound.records other from_call found with ⟨caller, started, records⟩
          simp only [World.callOf, Option.map_some]
          refine ⟨caller, List.mem_append_left _ started, records.id.symm, ?_, ?_⟩
          · rw [← records.depth]
            exact depth
          · rw [← records.deadline]
            exact due
  case owes =>
    have waits : (world.started target request id running).waiting =
        (running.credential, (request.client, request.reply)) :: world.waiting := by
      unfold World.waiting
      rw [values]
      exact List.filterMap_cons_some (by rw [World.waiter, admitted.caller]; rfl)
    rw [waits, World.started, List.map_append]
    refine (sound.owes.cons _).trans ?_
    exact (List.perm_append_singleton _ _).symm
  case dead =>
    intro credential listed
    rcases sound.dead credential listed with ⟨⟨call, started, same⟩, cancelled⟩
    refine ⟨⟨call, List.mem_append_left _ started, same⟩, ?_⟩
    intro other record found again
    rw [looked] at found
    split_ifs at found
    · cases found
      exact absurd (same.trans again.symm) (unused call started)
    · exact cancelled other record found again
  case slots =>
    change (AList.insert id running world.running).entries.keys.Perm
      (id :: (world.working ++ world.reported))
    rw [AList.entries_insert]
    change (id :: (world.running.erase id).entries.keys).Perm _
    rw [gone]
    exact sound.slots.cons id
  case still =>
    intro stopping
    change world.stopping = true at stopping
    rw [serves] at stopping
    cases stopping

theorem update (sound : Sound world) {change : String → Running → Running}
    (tame : ∀ id running, Tame running (change id running))
    (invocations : next.invocations = world.invocations.update change)
    (calls : next.calls = world.calls) (working : next.working = world.working)
    {gone : List String} (dead : next.dead = world.dead ++ gone)
    (dying : ∀ credential ∈ gone, ∃ id running, world.lookup id = some running ∧
      running.credential = credential ∧ (change id running).cancel = true)
    (owes : (next.waiting ++ next.handed ++ next.abandoned).Perm
      (world.waiting ++ world.handed ++ world.abandoned))
    (still : next.stopping = true → next.waiting = []) : Sound next := by
  refine sound.shrink (invocations ▸ .update tame) calls dead ?_ owes ?_ still
  · intro credential listed
    rcases dying credential listed with ⟨id, running, found, same, cancelled⟩
    refine ⟨id, running, found, same, fun after there => ?_⟩
    rw [World.lookup, World.running, invocations, Invocations.lookup_update] at there
    rw [World.lookup, World.running] at found
    rw [found] at there
    exact Option.some.inj there ▸ cancelled
  · have keys : next.running.keys = world.running.keys := by
      rw [World.running, invocations, AList.keys, Invocations.update, AList.entries_retain_some]
      exact List.map_map
    have reported : next.reported = world.reported := by
      rw [World.reported, invocations]
      rfl
    rw [keys, working, reported]
    exact sound.slots

theorem stopOne (sound : Sound world) {id : String}
    (invocations : next.invocations = world.invocations.stopOne id)
    (calls : next.calls = world.calls) (working : next.working = world.working)
    (dead : next.dead = world.dead ++ world.credentialOf id)
    (handed : next.handed = world.handed) (abandoned : next.abandoned = world.abandoned)
    (stopping : next.stopping = world.stopping) : Sound next := by
  have waiting : next.waiting = world.waiting := by
    unfold World.waiting World.values
    rw [invocations]
    exact World.waitersOf_stopOne id
  refine sound.update (fun other running => ?_) invocations calls working dead ?_ ?_ ?_
  · split_ifs
    · exact .stop running
    · exact .refl running
  · intro credential listed
    rw [World.credentialOf, Option.mem_toList, Option.map_eq_some_iff] at listed
    rcases listed with ⟨running, found, same⟩
    refine ⟨id, running, found, same, ?_⟩
    rw [if_pos rfl]
    rfl
  · rw [waiting, handed, abandoned]
  · rw [waiting, stopping]
    exact sound.still

theorem cancel (sound : Sound world) (id : String) :
    Sound { world with
      invocations := (world.invocations.cancel id).2
      dead := world.dead ++ world.credentialOf id } := by
  cases found : world.lookup id with
  | none =>
      have same : (world.invocations.cancel id).2 = world.invocations := by
        rw [World.lookup, World.running] at found
        rw [Invocations.cancel, found]
      have nobody : world.credentialOf id = [] := by
        rw [World.credentialOf, found]
        rfl
      rw [same, nobody, List.append_nil]
      exact sound
  | some running =>
      refine sound.stopOne ?_ rfl rfl rfl rfl rfl rfl
      rw [World.lookup, World.running] at found
      simp only [Invocations.cancel, found]

theorem cancelAttached (sound : Sound world) {client : ClientId} {requestId : Nat}
    {first : Option String} (isFirst : world.IsFirst client requestId first) :
    Sound { world with
      invocations := world.invocations.cancelAttached client requestId first
      dead := world.dead ++ first.toList.flatMap world.credentialOf } := by
  cases first with
  | none =>
      rw [Option.toList_none, List.flatMap_nil, List.append_nil]
      exact sound
  | some id =>
      cases found : world.lookup id with
      | none =>
          rw [World.IsFirst, found] at isFirst
          cases isFirst
      | some running =>
          rw [World.IsFirst, found] at isFirst
          refine @stopOne _ world _ sound id ?_ rfl rfl ?_ rfl rfl rfl
          · rw [World.lookup, World.running] at found
            rw [Option.any_some] at isFirst
            simp only [Invocations.cancelAttached, found, isFirst, if_true]
          · simp only [Option.toList_some, List.flatMap_singleton]

theorem perm_left {α : Type} [DecidableEq α] {waiting left answered departed : List α}
    (split : waiting.Perm (left ++ answered ++ departed)) (handed abandoned : List α) :
    (left ++ (handed ++ answered) ++ (abandoned ++ departed)).Perm
      (waiting ++ handed ++ abandoned) := by
  rw [List.perm_iff_count] at split ⊢
  intro one
  have counted := split one
  simp only [List.count_append] at counted ⊢
  omega

theorem abandonClient (sound : Sound world) (client : ClientId)
    (serves : world.stopping = false) :
    Sound { world with
      invocations := world.invocations.abandonClient client
      abandoned := world.abandoned ++
        (world.values.filter (·.calledBy client)).filterMap World.waiter
      dead := world.dead ++ world.credentials (·.calledBy client) } := by
  refine sound.update (fun _ running => .abandoned client running) rfl rfl rfl rfl ?_ ?_ ?_
  · intro credential listed
    rcases List.mem_map.mp listed with ⟨running, departed, same⟩
    rcases List.mem_filter.mp departed with ⟨there, mine⟩
    rcases Invocations.mem_values.mp there with ⟨id, found⟩
    refine ⟨id, running, found, same, ?_⟩
    rw [Invocations.abandoned, mine]
    rfl
  · have split : (World.waitersOf world.invocations.values).Perm _ :=
      World.waitersOf_abandonClient client
    rw [← List.append_nil (World.waitersOf (world.invocations.abandonClient client).values)] at split
    have moved := perm_left split world.handed world.abandoned
    rw [List.append_nil] at moved
    exact moved
  · intro stopping
    exact absurd stopping (Bool.eq_false_iff.mp serves)

theorem retireExtension (sound : Sound world) (extension : String) (generation : Nat) :
    Sound { world with
      invocations := (world.invocations.retireExtension extension generation).2
      dead := world.dead ++ (world.invocations.retireExtension extension generation).1 } := by
  have waits : World.waitersOf (world.invocations.retireExtension extension generation).2.values =
      world.waiting := World.waitersOf_retireExtension extension generation
  refine sound.update (fun _ running => ?_) rfl rfl rfl rfl ?_ ?_ ?_
  · split_ifs
    · exact .stop running
    · exact .refl running
  · intro credential listed
    rcases List.mem_map.mp listed with ⟨running, retired, same⟩
    rcases List.mem_filter.mp retired with ⟨there, mine⟩
    rcases Invocations.mem_values.mp there with ⟨id, found⟩
    refine ⟨id, running, found, same, ?_⟩
    rw [if_pos mine]
    rfl
  · exact .append_right _ (.append_right _ (.of_eq waits))
  · intro stopping
    exact waits.trans (sound.still stopping)

theorem stopAll (sound : Sound world) :
    Sound { world with
      invocations := world.invocations.takeCallers.2
      handed := world.handed ++ world.credited world.invocations.takeCallers.1
      dead := world.dead ++ world.credentials fun _ => true
      stopping := true } := by
  have nobody : World.waitersOf world.invocations.takeCallers.2.values = [] :=
    World.waitersOf_takeCallers
  refine sound.update (fun _ running => .depart running) rfl rfl rfl rfl ?_ ?_ fun _ => nobody
  · intro credential listed
    rcases List.mem_map.mp listed with ⟨running, there, same⟩
    rcases Invocations.mem_values.mp (List.mem_filter.mp there).1 with ⟨id, found⟩
    exact ⟨id, running, found, same, rfl⟩
  · change (World.waitersOf world.invocations.takeCallers.2.values ++ _ ++ _).Perm _
    rw [nobody, List.nil_append, World.credited_takeCallers]
    exact List.perm_append_comm.append_right _

theorem mem_drainReports {reports : List (Finished J)}
    {running : AList fun _ : String => Running} {call : EndedCall J}
    (listed : call ∈ (Invocations.drainReports reports running).1) :
    ∃ finished ∈ reports, ∃ record, running.lookup finished.id = some record ∧
      call = Invocations.ended finished record := by
  induction reports generalizing running with
  | nil => cases listed
  | cons finished rest ih =>
      cases found : running.lookup finished.id with
      | none =>
          rw [Invocations.drainReports_cons_of_none found] at listed
          rcases ih listed with ⟨report, there, record, found, same⟩
          exact ⟨report, List.mem_cons_of_mem _ there, record, found, same⟩
      | some record =>
          rw [Invocations.drainReports_cons_of_lookup found] at listed
          rcases List.mem_cons.mp listed with first | later
          · exact ⟨finished, List.mem_cons_self, record, found, first⟩
          · rcases ih later with ⟨report, there, other, found, same⟩
            exact ⟨report, List.mem_cons_of_mem _ there, other, (AList.lookup_erase_some found).2,
              same⟩

theorem keys_drain (sound : Sound world) :
    world.invocations.drain.2.running.keys.Perm world.working := by
  have nodup : (world.working ++ world.reported).Nodup :=
    sound.slots.nodup_iff.mp world.running.nodupKeys
  rcases List.nodup_append'.mp nodup with ⟨workers, _, apart⟩
  refine (List.perm_ext_iff_of_nodup (AList.nodupKeys _) workers).mpr fun id => ?_
  change id ∈ (Invocations.drainReports world.invocations.finished world.running).2 ↔ _
  rw [← AList.lookup_isSome, Invocations.lookup_drainReports]
  have holds : (world.running.lookup id).isSome ↔ id ∈ world.working ∨ id ∈ world.reported := by
    rw [AList.lookup_isSome, AList.mem_keys, sound.slots.mem_iff, List.mem_append]
  split_ifs with read
  · have beyond : id ∉ world.working := fun works => apart works read
    simp [beyond]
  · rw [holds]
    exact ⟨fun either => either.resolve_right read, .inl⟩

theorem drain (sound : Sound world) (serves : world.stopping = false) :
    Sound { world with
      invocations := world.invocations.drain.2
      handed := world.handed ++ world.invocations.drain.1.filterMap World.answered
      dead := world.dead ++ world.invocations.drain.1.map EndedCall.credential } := by
  refine sound.shrink .drain rfl rfl ?_ ?_ ?_ fun stopping => ?_
  · intro credential listed
    rcases List.mem_map.mp listed with ⟨call, ended, same⟩
    rcases mem_drainReports ended with ⟨finished, there, record, found, rfl⟩
    refine ⟨finished.id, record, found, same, fun after still => ?_⟩
    change (Invocations.drainReports world.invocations.finished world.running).2.lookup _ = _
      at still
    rw [Invocations.lookup_drainReports, if_pos (List.mem_map_of_mem there)] at still
    cases still
  · have split : world.waiting.Perm (World.waitersOf world.invocations.drain.2.values ++
        world.invocations.drain.1.filterMap World.answered ++ []) := by
      rw [List.append_nil]
      exact World.waitersOf_drainReports world.invocations.finished world.running
    have moved := perm_left split world.handed world.abandoned
    rw [List.append_nil world.abandoned] at moved
    exact moved
  · change List.Perm _ (world.working ++ [])
    rw [List.append_nil]
    exact sound.keys_drain
  · exact absurd stopping (Bool.eq_false_iff.mp serves)

theorem quiet {before after : Invocations J} (shrinks : Shrinks before after)
    (nobody : World.waitersOf before.values = []) : World.waitersOf after.values = [] := by
  refine List.filterMap_eq_nil_iff.mpr fun running listed => ?_
  rcases Invocations.mem_values.mp listed with ⟨id, found⟩
  rcases shrinks.kept id running found with ⟨earlier, there, tame⟩
  have alone := List.filterMap_eq_nil_iff.mp nobody earlier (Invocations.mem_values.mpr ⟨id, there⟩)
  rw [World.waiter, Option.map_eq_none_iff] at alone ⊢
  rcases tame.caller with same | left
  · exact same.trans alone
  · exact left

theorem receive (sound : Sound world) (stopping : world.stopping = true) :
    Sound { world with invocations := world.invocations.shutDownRound } := by
  have before : world.waiting = [] := sound.still stopping
  have after : World.waitersOf world.invocations.shutDownRound.values = [] :=
    quiet .shutDownRound before
  have gone : world.dead = world.dead ++ [] := (List.append_nil _).symm
  refine sound.shrink .shutDownRound rfl gone (fun _ listed => by cases listed) ?_ ?_ fun _ => after
  · exact .append_right _ (.append_right _ (.of_eq (after.trans before.symm)))
  · have slots := sound.slots
    change world.invocations.shutDownRound.running.keys.Perm
      (world.working ++ world.invocations.shutDownRound.finished.map Finished.id)
    unfold World.reported at slots
    unfold Invocations.shutDownRound
    split
    · exact slots
    · rename_i finished rest read
      rw [read, List.map_cons] at slots
      rw [AList.keys_erase]
      have erased := (slots.trans List.perm_middle).erase finished.id
      rw [List.erase_cons_head] at erased
      exact erased

theorem complete (sound : Sound world) {finished : Finished J}
    (works : finished.id ∈ world.working) :
    Sound { world with
      invocations :=
        { world.invocations with finished := world.invocations.finished ++ [finished] }
      working := world.working.erase finished.id } := by
  have gone : world.dead = world.dead ++ [] := (List.append_nil _).symm
  refine sound.shrink ⟨le_rfl, fun _ running found => ⟨running, found, .refl running⟩⟩ rfl gone
    (fun _ listed => by cases listed) (.refl _) ?_ sound.still
  refine sound.slots.trans ?_
  change (world.working ++ world.reported).Perm (world.working.erase finished.id ++
    (world.invocations.finished ++ [finished]).map Finished.id)
  rw [List.map_append, ← List.append_assoc]
  refine ((List.perm_cons_erase works).append_right _).trans ?_
  exact (List.perm_append_singleton _ _).symm

theorem serve (sound : Sound world) (serves : world.stopping = false) {label : Label J}
    (moved : world.serve label = some next) : Sound next := by
  cases label with
  | start target request grant =>
      change world.start target request grant = some next at moved
      unfold World.start at moved
      split at moved
      · exact Option.some.inj moved ▸ sound
      · rename_i id running admitted
        split_ifs at moved with fresh
        exact Option.some.inj moved ▸ sound.start (Invocations.admit_ok admitted) fresh serves
  | cancel id => exact Option.some.inj moved ▸ sound.cancel id
  | cancelAttached client requestId first =>
      simp only [World.serve] at moved
      split_ifs at moved with isFirst
      exact Option.some.inj moved ▸ sound.cancelAttached isFirst
  | abandonClient client => exact Option.some.inj moved ▸ sound.abandonClient client serves
  | retireExtension extension generation =>
      exact Option.some.inj moved ▸ sound.retireExtension extension generation
  | drain => exact Option.some.inj moved ▸ sound.drain serves
  | stopAll => exact Option.some.inj moved ▸ sound.stopAll
  | complete _ => cases moved
  | receive => cases moved
  | stopped => cases moved

theorem wait (sound : Sound world) (stopping : world.stopping = true) {label : Label J}
    (moved : world.wait label = some next) : Sound next := by
  cases label with
  | receive =>
      simp only [World.wait] at moved
      split_ifs at moved
      exact Option.some.inj moved ▸ sound.receive stopping
  | stopped =>
      have gone : world.dead = world.dead ++ [] := (List.append_nil _).symm
      refine Option.some.inj moved ▸ sound.shrink (.refl _) rfl gone (fun _ listed => ?_)
        (.refl _) sound.slots fun stops => ?_
      · cases listed
      · cases stops
  | _ => cases moved

theorem step (sound : Sound world) {label : Label J} (moved : world.perform label = some next) :
    Sound next := by
  rcases World.perform_cases moved with ⟨finished, works, rfl⟩ | ⟨stops, waited⟩ | ⟨serves, served⟩
  · exact sound.complete works.2
  · exact sound.wait stops waited
  · exact sound.serve serves served

theorem reachable (reached : (system J).Reachable world) : Sound world :=
  reached.invariant (fun _ begins => begins ▸ initially) fun _ _ _ sound moved => sound.step moved

end Sound

end Rozi.Calls
