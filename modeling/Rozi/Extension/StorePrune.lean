import Rozi.Extension.StoreSafety

/-!
A prune removes no bundle that a lease claims and no file of a live lease, however the steps of the
runtimes fall among its own.
-/

namespace Rozi

namespace BundleStore

variable {cache next : Cache} {log events : List Event} {runtime : RuntimeId}

section pruning

variable {keep live : List Digest} {entries : List String} {id : String}

theorem Sound.unlocked_id (sound : Sound cache log) (free : cache.Unlocked id) {other : RuntimeId}
    {lease : Lease} (held : (cache.runtimes other).lease = some lease) : lease.id ≠ id := by
  rintro rfl
  exact free other ((sound.holds other).owned lease held).locked

theorem Covered.tail (covered : Covered cache (id :: entries) live)
    (done : ∀ other lease, (cache.runtimes other).lease = some lease → lease.id = id →
      ∀ digest ∈ lease.recorded, digest ∈ live) : Covered cache entries live := by
  intro other lease held digest member
  rcases covered other lease held digest member with listed | read
  · rcases List.mem_cons.mp listed with same | later
    · exact .inr (done other lease held same digest member)
    · exact .inl later
  · exact .inr read

theorem Sound.clear {phase : PrunePhase} (sound : Sound cache log)
    (held : cache.guard = some runtime) (free : cache.Unlocked id)
    (lockFiles : ∀ other : String, other ≠ id → other ∈ cache.lockFiles → other ∈ next.lockFiles)
    (digestFiles : ∀ other : String, other ≠ id →
      next.digestFiles.lookup other = cache.digestFiles.lookup other)
    (locked : next.locked = cache.locked) (bundles : next.bundles = cache.bundles)
    (guard : next.guard = some runtime)
    (runtimes : next.runtimes = (cache.setTask runtime (.pruning keep phase)).runtimes)
    (here : PruneHolds next (log ++ [.cleared runtime id]) runtime keep phase) :
    Sound next (log ++ [.cleared runtime id]) := by
  have own : next.runtimes runtime = { cache.runtimes runtime with task := .pruning keep phase } := by
    rw [runtimes]
    simp [Cache.setTask, Cache.setRuntime]
  have spared : justifies log (.cleared runtime id) := by
    intro other lease known
    exact sound.unlocked_id free ((sound.holds other).lease.symm.trans known)
  refine sound.framed runtime ⟨?_, ?_, ?_, ?_, ?_, ?_, ?_, ?_, by simp [Event.runtime]⟩
    (sound.justified.snoc spared) ⟨?_, ?_, ?_, ?_⟩
  · intro other different
    rw [runtimes]
    simp [Cache.setTask, Cache.setRuntime, Function.update_of_ne different]
  · exact fun other different taken => guard_other held different taken
  · exact fun _ _ => .inr held
  · intro other owner _ member
    rw [locked]
    exact member
  · intro other owner member
    rw [locked] at member
    exact .inl member
  · intro other member
    by_cases same : other = id
    · exact .inr (.inr ⟨held, same ▸ free⟩)
    · exact .inl (lockFiles other same member)
  · intro other
    by_cases same : other = id
    · exact .inr (.inr ⟨held, same ▸ free⟩)
    · exact .inl (digestFiles other same)
  · intro digest member
    rw [bundles] at member
    exact .inl member
  · rw [leaseAt_append, own]
    exact (sound.holds runtime).lease
  · exact fun _ => guard
  · intro lease has
    rw [own] at has
    rcases (sound.holds runtime).owned lease has with ⟨owned, file, digests, text⟩
    have apart := sound.unlocked_id free has
    refine ⟨locked ▸ owned, lockFiles _ apart file, digests, ?_⟩
    rw [digestFiles _ apart]
    exact text
  · rw [own]
    exact here

theorem Sound.leasedStep {phase : PrunePhase} (sound : Sound cache log)
    (shown : (cache.runtimes runtime).task = .pruning keep phase)
    (stepped : cache.leasedStep runtime keep phase = some (events, next)) :
    Sound next (log ++ events) := by
  have held := sound.guard_of shown trivial
  have task := sound.task_of shown
  have same : ∀ {phase : PrunePhase} other,
      ((cache.setTask runtime (.pruning keep phase)).runtimes other).lease =
        (cache.runtimes other).lease := fun _ => retask_lease
  unfold Cache.leasedStep at stepped
  split at stepped
  · next id entries live =>
      cases stepped
      rw [List.append_nil]
      refine sound.setTask (fun _ => held) ?_
      have covered : Covered cache (id :: entries) live := task
      by_cases absent : id ∉ cache.lockFiles
      · rw [if_pos absent]
        refine (covered.tail ?_).sameLeases same
        intro other lease has named
        exact absurd (named ▸ ((sound.holds other).owned lease has).lockFile) absent
      rw [if_neg absent]
      by_cases locked : (cache.locked.any (·.1 = id)) = true
      · rw [if_pos locked]
        exact covered.sameLeases same
      · rw [if_neg locked]
        have free : cache.Unlocked id := by
          intro owner member
          exact locked (List.any_eq_true.mpr ⟨_, member, by simp⟩)
        refine ⟨(covered.tail ?_).sameLeases same, free⟩
        intro other lease has named
        exact absurd named (sound.unlocked_id free has)
  · next id entries live =>
      cases stepped
      rw [List.append_nil]
      refine sound.setTask (fun _ => held) ?_
      have covered : Covered cache (id :: entries) live := task
      have wider : Covered cache (id :: entries)
          (live ++ namedDigests ((cache.digestFiles.lookup id).getD [])) := by
        intro other lease has digest member
        exact (covered other lease has digest member).imp_right (List.mem_append_left _)
      refine (wider.tail ?_).sameLeases same
      -- A live lease's file has each of its claims on a whole line.
      rintro other lease has rfl digest member
      rcases (sound.holds other).owned lease has with ⟨_, _, digests, torn, text, _⟩
      rw [text]
      exact List.mem_append_right _ (mem_namedDigests digests member torn)
  · next id entries live =>
      cases stepped
      rcases task with ⟨covered, free⟩
      refine sound.clear held free (fun _ _ member => member) ?_ rfl rfl held rfl
        ⟨covered.sameLeases same, free⟩
      exact fun other different => AList.lookup_erase_ne different
  · next id entries live =>
      cases stepped
      rcases task with ⟨covered, free⟩
      refine sound.clear held free ?_ (fun _ _ => rfl) rfl rfl held rfl
        (covered.sameLeases same)
      exact fun other different member => (List.mem_erase_of_ne different).mpr member
  · cases stepped

theorem Sound.listLeases (sound : Sound cache log)
    (shown : (cache.runtimes runtime).task = .pruning keep .listLeases)
    (listed : entries.Perm cache.lockFiles) :
    Sound (cache.setTask runtime (.pruning keep (.leases entries []))) log := by
  refine sound.setTask (fun _ => sound.guard_of shown trivial) ?_
  have covered : Covered cache entries [] := by
    intro other lease has digest member
    exact .inl (listed.mem_iff.mpr ((sound.holds other).owned lease has).lockFile)
  exact covered.sameLeases fun _ => retask_lease

theorem Sound.listBundles {entries : List Entry} (sound : Sound cache log)
    (shown : (cache.runtimes runtime).task = .pruning keep (.leases [] live))
    (listed : entries.Perm
      (cache.bundles.keys.map Entry.bundle ++ cache.staging.keys.map Entry.staging)) :
    Sound (cache.setTask runtime (.pruning keep (.scan entries [] live)))
      (log ++ [.scanned runtime]) := by
  have covered : Covered cache [] live := sound.task_of shown
  have held := sound.guard_of shown trivial
  refine sound.retask ⟨rfl, rfl, rfl⟩ rfl (.inl rfl) (fun _ => held) (fun _ member => .inl member)
    (by simp [Event.runtime]) (by simp [leaseAt_append, leaseAfter])
    (sound.justified.snoc trivial) ?_
  refine ⟨covered.sameLeases fun _ => retask_lease, by simp, ?_⟩
  intro digest present _
  have entry : Entry.bundle digest ∈ entries :=
    listed.mem_iff.mpr (List.mem_append_left _ (List.mem_map_of_mem present))
  have name : digest ∈ bundleNames entries := List.mem_filterMap.mpr ⟨_, entry, rfl⟩
  exact .inr (.inr (.inl (List.mem_append_left _ name)))

theorem Accounted.mono {listed longer : List Digest}
    (accounted : Accounted cache log runtime keep live listed)
    (bundles : ∀ digest ∈ next.bundles, digest ∈ cache.bundles)
    (more : ∀ digest ∈ next.bundles, digest ∈ listed → isDigest digest = true →
      digest ∈ keep ∨ digest ∈ live ∨ digest ∈ longer) :
    Accounted next log runtime keep live longer := by
  intro digest present named
  rcases accounted digest (bundles digest present) named with kept | leased | found | installed
  · exact .inl kept
  · exact .inr (.inl leased)
  · rcases more digest present found named with kept | leased | listed
    · exact .inl kept
    · exact .inr (.inl leased)
    · exact .inr (.inr (.inl listed))
  · exact .inr (.inr (.inr installed))

theorem byRecency_perm (found : List (Nat × Digest)) :
    (Cache.byRecency found).Perm (found.map Prod.snd) :=
  (List.mergeSort_perm _ _).map _

theorem Sound.sweepStep {phase : PrunePhase} (sound : Sound cache log)
    (shown : (cache.runtimes runtime).task = .pruning keep phase)
    (stepped : cache.sweepStep runtime keep phase = some (events, next)) :
    Sound next (log ++ events) := by
  have held := sound.guard_of shown trivial
  have task := sound.task_of shown
  unfold Cache.sweepStep at stepped
  split at stepped
  · next suffix entries found live =>
      cases stepped
      rcases task with ⟨covered, spared, accounted⟩
      refine sound.retask ⟨rfl, rfl, rfl⟩ rfl (.inl rfl) (fun _ => held)
        (fun _ member => .inl member) (by simp) (by simp) (by simpa using sound.justified) ?_
      rw [List.append_nil]
      exact ⟨covered.sameLeases fun _ => retask_lease, spared,
        accounted.mono (fun _ member => member) fun _ _ listed _ => .inr (.inr listed)⟩
  · next name entries found live =>
      cases stepped
      rcases task with ⟨covered, spared, accounted⟩
      rw [List.append_nil]
      refine sound.setTask (fun _ => held) ?_
      by_cases skipped : (!isDigest name || keep.contains name || live.contains name) = true
      · simp only [skipped, if_true]
        refine ⟨covered.sameLeases fun _ => retask_lease, spared,
          accounted.mono (fun _ member => member) ?_⟩
        intro digest _ listed named
        by_cases same : digest = name
        · subst same
          simp only [named, Bool.not_true, Bool.false_or, Bool.or_eq_true,
            List.contains_iff_mem] at skipped
          exact skipped.imp_right .inl
        · refine .inr (.inr ?_)
          simpa [bundleNames, same] using listed
      · simp only [skipped, Bool.false_eq_true, if_false]
        refine ⟨covered.sameLeases fun _ => retask_lease, ?_,
          accounted.mono (fun _ member => member) ?_⟩
        · intro entry member
          rcases List.mem_append.mp member with old | new
          · exact spared entry old
          · cases List.mem_singleton.mp new
            simp only [Bool.or_eq_true, not_or, List.contains_iff_mem] at skipped
            exact ⟨skipped.1.2, skipped.2⟩
        · intro digest _ listed _
          refine .inr (.inr ?_)
          simp only [bundleNames, List.filterMap_cons, List.cons_append, List.mem_cons,
            List.map_append, List.map_cons, List.map_nil, List.mem_append] at listed ⊢
          tauto
  · next found live =>
      cases stepped
      rcases task with ⟨covered, spared, accounted⟩
      rw [List.append_nil]
      refine sound.setTask (fun _ => held) ?_
      have ordered := byRecency_perm found
      refine ⟨covered.sameLeases fun _ => retask_lease, ?_, List.length_take_le _ _,
        accounted.mono (fun _ member => member) ?_⟩
      · intro digest member
        rcases List.mem_map.mp (ordered.mem_iff.mp (List.mem_of_mem_drop member)) with
          ⟨entry, found, rfl⟩
        exact spared entry found
      · intro digest _ listed _
        have whole : digest ∈ Cache.byRecency found := ordered.mem_iff.mpr (by
          simpa [bundleNames] using listed)
        rw [← List.take_append_drop retainedBundles (Cache.byRecency found)] at whole
        exact .inr (.inr (List.mem_append.mpr (List.mem_append.mp whole).symm))
  · next digest doomed spared live =>
      cases stepped
      rcases task with ⟨covered, unclaimed, few, accounted⟩
      -- Every claim is among the digests read, and what is doomed is not.
      have free : justifies log (.swept runtime digest) := by
        intro other lease known member
        have has := (sound.holds other).lease.symm.trans known
        rcases covered other lease has digest member with listed | read
        · cases listed
        · exact (unclaimed digest (by simp)).2 read
      refine sound.retask ⟨rfl, rfl, rfl⟩ rfl (.inl rfl) (fun _ => held) ?_
        (by simp [Event.runtime]) (by simp [leaseAt_append, leaseAfter])
        (sound.justified.snoc free) ?_
      · exact fun _ member => .inl (AList.mem_erase.mp member).2
      · have kept : Accounted cache (log ++ [.swept runtime digest]) runtime keep live
            (digest :: doomed ++ spared) := by
          intro other present named
          simpa [installedSince_append, installedAfter] using accounted other present named
        refine ⟨covered.sameLeases fun _ => retask_lease,
          fun other member => unclaimed other (List.mem_cons_of_mem _ member), few,
          kept.mono (fun _ member => (AList.mem_erase.mp member).2) ?_⟩
        intro other present listed _
        refine .inr (.inr ?_)
        rcases List.mem_cons.mp listed with same | later
        · exact absurd same (AList.mem_erase.mp present).1
        · exact later
  · cases stepped
    refine sound.retask ⟨rfl, rfl, rfl⟩ rfl (.inr (.inr held)) (fun guarded => guarded.elim)
      (fun _ member => .inl member) (by simp) (by simp) (by simpa using sound.justified) trivial
  · cases stepped

end pruning

section staging

variable {digest : Digest} {passes : Bool}

theorem verified_outcome (cache : Cache) (digest : Digest) (passes : Bool) :
    ∃ bundles event, (cache.verified digest passes).2 =
        (Option.toList event, { cache with bundles }) ∧
      (∀ other ∈ bundles, other ∈ cache.bundles) ∧
      ∀ found ∈ event, Event.runtime found = none := by
  unfold Cache.verified
  split_ifs with absent
  · exact ⟨cache.bundles, none, rfl, fun _ member => member, by simp⟩
  · refine ⟨_, none, rfl, ?_, by simp⟩
    intro other member
    rcases (AList.mem_insert cache.bundles).mp member with same | old
    · rw [same, ← AList.lookup_isSome]
      simpa [Option.isNone_iff_eq_none, ← Option.isSome_iff_ne_none] using absent
    · exact old
  · exact ⟨_, some (.discarded digest), rfl, fun _ member => (AList.mem_erase.mp member).2,
      by simp [Event.runtime]⟩

theorem justifies_of_nobody {event : Event} (about : event.runtime = none) :
    justifies log event := by
  cases event <;> simp_all [Event.runtime, justifies]

def Task.Free : Task → Prop
  | .idle | .staging .. => True
  | _ => False

/-- A step outside the guard that changes bundles and staging directories only. -/
theorem Sound.aside (sound : Sound cache log) (task : Task) (event : Option Event)
    (free : task.Free) (files : SameFiles cache next)
    (runtimes : next.runtimes =
      Function.update cache.runtimes runtime { cache.runtimes runtime with task })
    (guard : next.guard = cache.guard)
    (bundles : ∀ digest ∈ next.bundles, digest ∈ cache.bundles ∨ event = some (.installed digest))
    (about : ∀ found ∈ event, Event.runtime found = none) :
    Sound next (log ++ event.toList) := by
  have others : ∀ found ∈ event.toList, found.runtime ≠ some runtime := by
    intro found member
    simp [about found (Option.mem_toList.mp member)]
  refine sound.retask files runtimes (.inl guard) ?_ ?_ ?_ (leaseAt_others others) ?_ ?_
  · intro guarded
    cases task <;> simp_all [Task.Free, Guarded]
  · intro digest member
    exact (bundles digest member).imp_right fun same => by simp [same]
  · intro found member owner same
    rw [about found (Option.mem_toList.mp member)] at same
    cases same
  · cases event with
    | none => simpa using sound.justified
    | some found => exact sound.justified.snoc (justifies_of_nobody (about found rfl))
  · cases task <;> simp_all [Task.Free, TaskHolds]

theorem Sound.stageStep {suffix : Nat} {phase : StagePhase} (sound : Sound cache log)
    (stepped : cache.stageStep runtime digest suffix phase = some (events, next)) :
    Sound next (log ++ events) := by
  have aside : ∀ {task : Task} (staging : AList fun _ : Nat => Nat), task.Free →
      Sound { cache.setTask runtime task with staging } (log ++ []) := by
    intro task staging free
    exact sound.aside task none free ⟨rfl, rfl, rfl⟩ rfl rfl (fun _ member => .inl member)
      (by simp)
  unfold Cache.stageStep at stepped
  split at stepped
  · split_ifs at stepped
    · cases stepped
      exact aside _ trivial
    · cases stepped
      exact aside _ trivial
  · cases stepped
    refine aside cache.staging ?_
    split_ifs <;> trivial
  · split at stepped
    · cases stepped
      refine sound.aside .idle (some (.installed digest)) trivial ⟨rfl, rfl, rfl⟩ rfl rfl ?_
        (by simp [Event.runtime])
      intro other member
      rcases (AList.mem_insert cache.bundles).mp member with same | old
      · exact .inr (by rw [same])
      · exact .inl old
    · cases stepped
      exact aside _ trivial
  · cases stepped

theorem Sound.stageVerify {suffix : Nat} {phase : StagePhase} (sound : Sound cache log)
    (stepped : cache.stageVerify runtime digest suffix passes phase = some (events, next)) :
    Sound next (log ++ events) := by
  rcases verified_outcome cache digest passes with ⟨bundles, event, outcome, fewer, about⟩
  have aside : ∀ {task : Task} (staging : AList fun _ : Nat => Nat), task.Free →
      Sound { Cache.setTask { cache with bundles } runtime task with staging }
        (log ++ event.toList) := by
    intro task staging free
    exact sound.aside task event free ⟨rfl, rfl, rfl⟩ rfl rfl
      (fun other member => .inl (fewer other member)) about
  cases ok : (cache.verified digest passes).1 with
  | true =>
      have whole : cache.verified digest passes = (true, event.toList, { cache with bundles }) :=
        Prod.ext ok outcome
      cases phase <;> simp only [Cache.stageVerify, whole, if_true] at stepped <;> cases stepped
      · exact aside cache.staging trivial
      · exact aside _ trivial
      · exact aside cache.staging trivial
  | false =>
      have whole : cache.verified digest passes = (false, event.toList, { cache with bundles }) :=
        Prod.ext ok outcome
      cases phase <;> simp only [Cache.stageVerify, whole, Bool.false_eq_true, if_false]
        at stepped <;> cases stepped
      · exact aside cache.staging trivial
      · exact aside cache.staging trivial
      · exact aside cache.staging trivial

theorem Sound.verified (sound : Sound cache log) (idle : (cache.runtimes runtime).task = .idle) :
    Sound (cache.verified digest passes).2.2 (log ++ (cache.verified digest passes).2.1) := by
  rcases verified_outcome cache digest passes with ⟨bundles, event, outcome, fewer, about⟩
  rw [outcome]
  have same : Function.update cache.runtimes runtime
      { cache.runtimes runtime with task := .idle } = cache.runtimes := by
    rw [← idle, Function.update_eq_self]
  exact sound.aside .idle event trivial ⟨rfl, rfl, rfl⟩ same.symm rfl
    (fun other member => .inl (fewer other member)) about

end staging

section act

theorem Sound.act {action : Action} (sound : Sound cache log)
    (fresh : action = .step → ∀ id, (cache.runtimes runtime).task = .leasing id .openLock →
      cache.Unused id)
    (acted : cache.act runtime action = some (events, next)) : Sound next (log ++ events) := by
  unfold Cache.act at acted
  split at acted
  · cases acted
  · cases acted
    exact sound.die
  · split_ifs at acted with leased
    refine sound.enter acted ?_
    intro after runtimes
    unfold TaskHolds
    rw [runtimes, retask_lease]
    simpa using leased
  · next shown => exact sound.record shown acted
  · exact sound.enter acted fun _ _ => trivial
  · rcases Option.map_eq_some_iff.mp acted with ⟨lease, has, made⟩
    cases made
    exact sound.drop has
  · next shown =>
      split_ifs at acted
      · cases acted
        simpa using sound
      · cases acted
        exact sound.verified shown
  · split_ifs at acted
    · cases acted
      simpa using sound
    · cases acted
      rw [List.append_nil]
      exact sound.setTask (fun guarded => guarded.elim) trivial
  · next id phase shown =>
      refine sound.leaseStep shown ?_ acted
      rintro rfl
      exact fresh rfl id shown
  · next shown => exact sound.append shown acted
  · next shown =>
      split_ifs at acted with listed
      cases acted
      rw [List.append_nil]
      exact sound.listLeases shown listed
  · next shown =>
      split_ifs at acted with listed
      cases acted
      exact sound.listBundles shown listed
  · next shown => exact sound.sweepStep shown acted
  · next shown => exact sound.sweepStep shown acted
  · next shown => exact sound.leasedStep shown acted
  · next shown =>
      cases acted
      exact sound.dropStep shown
  · exact sound.stageStep acted
  · exact sound.stageVerify acted
  · cases acted

end act


section runs

theorem Sound.clock (sound : Sound cache log) (now : Nat) :
    Sound { cache with clock := now } log where
  justified := sound.justified
  exclusive := sound.exclusive
  holds := by
    intro runtime
    have holds := sound.holds runtime
    refine ⟨holds.lease, holds.guard, ?_, holds.task⟩
    exact fun lease has => (holds.owned lease has).sameFiles ⟨rfl, rfl, rfl⟩

theorem sound_of_reachable {run : Run}
    (reached : cacheRuns.ReachableWhen (fun run label => label.fresh run) run) :
    Sound run.cache run.log := by
  apply reached.invariant
  · rintro ⟨cache, log⟩ ⟨begun, unlocked, _, idle⟩
    simp only at begun unlocked idle
    subst begun
    refine ⟨.nil, ?_, ?_⟩
    · intro id first second locked
      rw [unlocked] at locked
      cases locked
    · intro runtime
      refine ⟨?_, ?_, ?_, ?_⟩ <;> rw [idle runtime]
      · rfl
      · exact fun guarded => guarded.elim
      · intro lease has
        cases has
      · trivial
  · intro run label after sound fresh moved
    cases label with
    | clock now =>
        cases moved
        exact sound.clock now
    | act runtime action =>
        rcases Option.map_eq_some_iff.mp moved with ⟨⟨events, cache⟩, acted, rfl⟩
        refine sound.act ?_ acted
        rintro rfl
        exact fresh

theorem sweepStep_spares {keep : List Digest} {phase : PrunePhase}
    (holds : PruneHolds cache log runtime keep phase)
    (stepped : cache.sweepStep runtime keep phase = some (events, next)) {other : RuntimeId}
    {lease : Lease} (has : (cache.runtimes other).lease = some lease) {digest : Digest}
    (claimed : digest ∈ lease.recorded) (present : digest ∈ cache.bundles) :
    digest ∈ next.bundles := by
  unfold Cache.sweepStep at stepped
  split at stepped
  · cases stepped
    exact present
  · cases stepped
    exact present
  · cases stepped
    exact present
  · next first doomed spared live =>
      cases stepped
      rcases holds with ⟨covered, unclaimed, _, _⟩
      refine AList.mem_erase.mpr ⟨?_, present⟩
      rintro rfl
      rcases covered other lease has digest claimed with listed | read
      · cases listed
      · exact (unclaimed digest (by simp)).2 read
  · cases stepped
    exact present
  · cases stepped

theorem Sound.prune_spares (sound : Sound cache log) {keep : List Digest} {phase : PrunePhase}
    (shown : (cache.runtimes runtime).task = .pruning keep phase) {action : Action}
    (acted : cache.act runtime action = some (events, next)) {other : RuntimeId} {lease : Lease}
    (has : (cache.runtimes other).lease = some lease) {digest : Digest}
    (claimed : digest ∈ lease.recorded) (present : digest ∈ cache.bundles) :
    digest ∈ next.bundles := by
  have task : PruneHolds cache log runtime keep phase := sound.task_of shown
  unfold Cache.act at acted
  rw [shown] at acted
  cases action with
  | die =>
      cases acted
      exact present
  | step =>
      cases phase with
      | scan | sweep => exact sweepStep_spares task acted has claimed present
      | listLeases => cases acted
      | leases entries =>
          cases entries with
          | nil => cases acted
          | cons =>
              cases acted
              exact present
      | readDigests | removeDigests | removeLock =>
          cases acted
          exact present
  | listLeases =>
      cases phase with
      | listLeases =>
          simp only at acted
          split_ifs at acted
          cases acted
          exact present
      | _ => cases acted
  | listBundles =>
      cases phase with
      | leases entries =>
          cases entries with
          | nil =>
              simp only at acted
              split_ifs at acted
              cases acted
              exact present
          | cons => cases acted
      | _ => cases acted
  | _ => cases acted

end runs

/-- What runs keep of the cache. `justified` says that a prune removes nothing a lease claims and no
file of a live lease, and that a lease whose append failed claims nothing new. -/
structure CacheKept (run : Run) : Prop where
  justified : Justified justifies run.log
  claims : ∀ runtime, leaseAt runtime run.log = (run.cache.runtimes runtime).lease
  files : ∀ runtime lease, (run.cache.runtimes runtime).lease = some lease →
    lease.id ∈ run.cache.lockFiles ∧ ∃ text, run.cache.digestFiles.lookup lease.id = some text ∧
      ∀ digest ∈ lease.recorded, digest ∈ namedDigests text
  spares : ∀ runtime keep phase action next, (run.cache.runtimes runtime).task = .pruning keep phase →
    run.perform (.act runtime action) = some next → ∀ other lease,
      (run.cache.runtimes other).lease = some lease → ∀ digest ∈ lease.recorded,
        digest ∈ run.cache.bundles → digest ∈ next.cache.bundles
  retained : ∀ runtime keep spared live,
    (run.cache.runtimes runtime).task = .pruning keep (.sweep [] spared live) →
      spared.length ≤ retainedBundles ∧
      ∀ digest ∈ run.cache.bundles, isDigest digest = true →
        digest ∈ keep ∨ digest ∈ live ∨ digest ∈ spared ∨ digest ∈ installedSince runtime run.log

theorem claimed_never_pruned {run : Run}
    (reached : cacheRuns.ReachableWhen (fun run label => label.fresh run) run) :
    CacheKept run := by
  have sound := sound_of_reachable reached
  refine ⟨sound.justified, fun runtime => (sound.holds runtime).lease, ?_, ?_, ?_⟩
  · intro runtime lease has
    rcases (sound.holds runtime).owned lease has with ⟨_, file, digests, torn, text, _⟩
    exact ⟨file, _, text, fun digest member => mem_namedDigests digests member torn⟩
  · intro runtime keep phase action next shown performed other lease has digest claimed present
    rcases Option.map_eq_some_iff.mp performed with ⟨⟨events, cache⟩, acted, rfl⟩
    exact sound.prune_spares shown acted has claimed present
  · intro runtime keep spared live shown
    rcases sound.task_of shown with ⟨_, _, few, accounted⟩
    refine ⟨few, ?_⟩
    intro digest present named
    simpa using accounted digest present named

section leased

def Run.opens (run : Run) : Label → Bool
  | .act runtime .step =>
      match (run.cache.runtimes runtime).task with
      | .leasing _ .openLock => true
      | _ => false
  | _ => false

def Run.follow : List Label → Run → Option Run
  | [], run => some run
  | label :: rest, run => if run.opens label then none else (run.perform label).bind (follow rest)

theorem Run.fresh_of_opens {run : Run} {label : Label} (closed : run.opens label = false) :
    label.fresh run := by
  cases label with
  | clock => trivial
  | act runtime action =>
      cases action with
      | step =>
          intro id shown
          simp [Run.opens, shown] at closed
      | _ => trivial

theorem reached_follow {run next : Run} {labels : List Label}
    (reached : cacheRuns.ReachableWhen (fun run label => label.fresh run) run)
    (followed : run.follow labels = some next) :
    cacheRuns.ReachableWhen (fun run label => label.fresh run) next := by
  induction labels generalizing run with
  | nil =>
      cases followed
      exact reached
  | cons label rest ih =>
      rw [Run.follow] at followed
      split_ifs at followed with opens
      rcases Option.bind_eq_some_iff.mp followed with ⟨after, performed, later⟩
      exact ih (reached.next label (Run.fresh_of_opens (Bool.not_eq_true _ ▸ opens)) performed) later

theorem byRecency_of_sorted {found : List (Nat × Digest)}
    (sorted : found.Pairwise fun first second => second.1 ≤ first.1) :
    Cache.byRecency found = found.map Prod.snd := by
  unfold Cache.byRecency
  rw [List.mergeSort_of_pairwise (by simpa using sorted)]

def leasedDigest : Digest := List.replicate 64 'a'

def olderDigest (number : Nat) : Digest :=
  [Char.ofNat (48 + number % 10), Char.ofNat (48 + number / 10)] ++ List.replicate 62 'b'

def olderBundles : AList fun _ : Digest => Nat :=
  (List.range 17).foldl (fun bundles number => bundles.insert (olderDigest number) (100 - number)) ∅

def leasingRun : Run :=
  (Run.perform { cache := { bundles := olderBundles } } (.act 1 (.lease "one"))).getD { cache := {} }

/-- The lease is made, a bundle claimed and installed. Another runtime prunes: it reads the lease,
and lists the bundles. -/
def listingLabels : List Label :=
  [.act 1 .step, .act 1 .step, .act 1 (.record leasedDigest), .act 1 (.append none),
    .act 1 (.stage leasedDigest 3), .act 1 (.verify false), .act 1 .step, .act 1 .step,
    .act 1 (.verify false), .act 1 .step,
    .act 2 (.prune []), .act 2 (.listLeases ["one"]), .act 2 .step, .act 2 .step,
    .act 2 (.listBundles (((List.range 17).map fun number => .bundle (olderDigest number)) ++
      [.bundle leasedDigest]))] ++ List.replicate 18 (.act 2 .step)

def listedRun : Run :=
  ((leasingRun.perform (.act 1 .step)).bind (Run.follow listingLabels)).getD { cache := {} }

def doomedRun : Run :=
  { listedRun with
    cache := listedRun.cache.setTask 2 (.pruning []
      (.sweep [olderDigest 16] ((List.range 16).map olderDigest) [leasedDigest])) }

def prunedRun : Run :=
  (doomedRun.follow [.act 2 .step, .act 2 .step]).getD { cache := {} }

theorem listedRun_scanned : ((leasingRun.perform (.act 1 .step)).bind (Run.follow listingLabels)).isSome = true ∧
    (listedRun.cache.runtimes 2).task = .pruning [] (.scan []
      ((List.range 17).map fun number => (100 - number, olderDigest number)) [leasedDigest]) := by
  decide +kernel

theorem listedRun_reached :
    cacheRuns.ReachableWhen (fun run label => label.fresh run) listedRun := by
  have begun : cacheRuns.ReachableWhen (fun run label => label.fresh run)
      { cache := { bundles := olderBundles } } := .initial ⟨rfl, rfl, rfl, fun _ => rfl⟩
  have entered : cacheRuns.ReachableWhen (fun run label => label.fresh run) leasingRun :=
    begun.next (.act 1 (.lease "one")) trivial rfl
  have unused : Label.fresh leasingRun (.act 1 .step) := by
    intro id shown
    cases shown
    exact ⟨by decide, rfl, fun owner locked => by cases locked⟩
  rcases Option.isSome_iff_exists.mp listedRun_scanned.1 with ⟨listed, followed⟩
  rw [listedRun, followed, Option.getD_some]
  rcases Option.bind_eq_some_iff.mp followed with ⟨opened, performed, later⟩
  exact reached_follow (entered.next (.act 1 .step) unused performed) later

theorem doomedRun_reached :
    cacheRuns.ReachableWhen (fun run label => label.fresh run) doomedRun := by
  have scanned := listedRun_scanned.2
  have sorted : ((List.range 17).map fun number => (100 - number, olderDigest number)).Pairwise
      fun first second => second.1 ≤ first.1 := by
    decide +kernel
  refine listedRun_reached.next (.act 2 .step) (Run.fresh_of_opens ?_) ?_
  · simp only [Run.opens, scanned]
  · have kept : (((List.range 17).map fun number => (100 - number, olderDigest number)).map
        Prod.snd).take retainedBundles = (List.range 16).map olderDigest := by decide +kernel
    have doomed : (((List.range 17).map fun number => (100 - number, olderDigest number)).map
        Prod.snd).drop retainedBundles = [olderDigest 16] := by decide +kernel
    show listedRun.perform (.act 2 .step) = some doomedRun
    simp only [Run.perform, Cache.act, scanned, Cache.sweepStep, byRecency_of_sorted sorted, kept,
      doomed, Option.map_some, List.append_nil, doomedRun]

theorem claimed_never_pruned_leased :
    CacheKept prunedRun ∧ leasedDigest ∈ prunedRun.cache.bundles ∧
      olderDigest 16 ∉ prunedRun.cache.bundles ∧ (prunedRun.cache.runtimes 2).task = .idle := by
  have pruned : (doomedRun.follow [.act 2 .step, .act 2 .step]).isSome = true ∧
      leasedDigest ∈ prunedRun.cache.bundles ∧ olderDigest 16 ∉ prunedRun.cache.bundles ∧
        (prunedRun.cache.runtimes 2).task = .idle := by
    decide +kernel
  have reached : cacheRuns.ReachableWhen (fun run label => label.fresh run) prunedRun := by
    rcases Option.isSome_iff_exists.mp pruned.1 with ⟨after, followed⟩
    rw [prunedRun, followed, Option.getD_some]
    exact reached_follow doomedRun_reached followed
  exact ⟨claimed_never_pruned reached, pruned.2⟩

end leased

end BundleStore

end Rozi
