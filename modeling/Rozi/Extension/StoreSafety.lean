import Rozi.Extension.StoreRun

/-!
Making a lease, recording, dropping a lease and dying keep the cache sound.
-/

namespace Rozi

namespace BundleStore

section lines

variable {word line text rest : List Char}

theorem stripReturn_of_notMem (plain : '\r' ∉ word) : stripReturn word = word := by
  induction word with
  | nil => rfl
  | cons c rest ih =>
      rw [List.mem_cons, not_or] at plain
      unfold stripReturn
      split
      · contradiction
      · next same =>
          cases same
          exact absurd rfl plain.1
      · next same =>
          cases same
          rw [ih plain.2]

theorem linesFrom_line (plain : '\n' ∉ word) :
    linesFrom line (word ++ '\n' :: rest) = stripReturn (line ++ word) :: linesFrom [] rest := by
  induction word generalizing line with
  | nil => simp [linesFrom]
  | cons c word ih =>
      rw [List.mem_cons, not_or] at plain
      rw [List.cons_append, linesFrom, if_neg (Ne.symm plain.1), ih plain.2]
      simp

theorem isDigest_plain {digest : Digest} (named : isDigest digest = true) :
    '\n' ∉ digest ∧ '\r' ∉ digest := by
  simp only [isDigest, Bool.and_eq_true, List.all_eq_true] at named
  constructor
  · intro member
    exact absurd (named.2 _ member) (by decide)
  · intro member
    exact absurd (named.2 _ member) (by decide)

/-- The digests on whole lines are read back, whatever stands behind them. -/
theorem mem_namedDigests {recorded : List Digest} {digest : Digest}
    (named : ∀ digest ∈ recorded, isDigest digest = true) (member : digest ∈ recorded)
    (torn : List Char) : digest ∈ namedDigests (recorded.flatMap digestLine ++ torn) := by
  have whole : recorded ⊆ textLines (recorded.flatMap digestLine ++ torn) := by
    clear member
    induction recorded with
    | nil => simp
    | cons first recorded ih =>
        have plain := isDigest_plain (named first (by simp))
        have rest := ih fun other member => named other (List.mem_cons_of_mem _ member)
        have split : (first :: recorded).flatMap digestLine ++ torn =
            first ++ '\n' :: (recorded.flatMap digestLine ++ torn) := by
          simp [digestLine]
        rw [split, textLines, linesFrom_line plain.1, List.nil_append,
          stripReturn_of_notMem plain.2]
        exact List.cons_subset_cons first rest
  exact List.mem_filter.mpr ⟨whole member, named digest member⟩

end lines

variable {cache next : Cache} {log events : List Event} {runtime : RuntimeId}

structure SameFiles (cache next : Cache) : Prop where
  lockFiles : next.lockFiles = cache.lockFiles
  digestFiles : next.digestFiles = cache.digestFiles
  locked : next.locked = cache.locked

theorem Owned.sameFiles {lease : Lease} (owned : Owned cache runtime lease)
    (files : SameFiles cache next) : Owned next runtime lease :=
  ⟨files.locked ▸ owned.locked, files.lockFiles ▸ owned.lockFile, owned.digests,
    files.digestFiles ▸ owned.text⟩

theorem Covered.sameLeases {entries : List String} {live : List Digest}
    (covered : Covered cache entries live)
    (same : ∀ other, (next.runtimes other).lease = (cache.runtimes other).lease) :
    Covered next entries live := by
  intro other lease held
  exact covered other lease ((same other).symm.trans held)

def GuardStep (runtime : RuntimeId) (cache next : Cache) : Prop :=
  next.guard = cache.guard ∨ cache.guard = none ∨ cache.guard = some runtime

/-- A step that only moves its runtime on, with what it does to bundles and staging directories. -/
theorem Sound.retask {task : Task} (sound : Sound cache log) (files : SameFiles cache next)
    (runtimes : next.runtimes =
      Function.update cache.runtimes runtime { cache.runtimes runtime with task })
    (guard : GuardStep runtime cache next) (guarded : Guarded task → next.guard = some runtime)
    (bundles : ∀ digest ∈ next.bundles, digest ∈ cache.bundles ∨ Event.installed digest ∈ events)
    (about : ∀ event ∈ events, ∀ other, event.runtime = some other → other = runtime)
    (lease : leaseAt runtime (log ++ events) = leaseAt runtime log)
    (justified : Justified justifies (log ++ events))
    (here : TaskHolds next (log ++ events) runtime task) : Sound next (log ++ events) := by
  have own : next.runtimes runtime = { cache.runtimes runtime with task } := by
    rw [runtimes, Function.update_self]
  refine sound.framed runtime ⟨?_, ?_, ?_, ?_, ?_, ?_, ?_, bundles, about⟩ justified ⟨?_, ?_, ?_, ?_⟩
  · intro other different
    rw [runtimes, Function.update_of_ne different]
  · intro other different held
    rcases guard with same | free | mine
    · rw [same, held]
    · rw [free] at held
      cases held
    · exact absurd (Option.some.inj (held.symm.trans mine)) different
  · intro lease held
    rw [own] at held
    exact .inl held
  · intro id other _ locked
    rw [files.locked]
    exact locked
  · intro id other locked
    rw [files.locked] at locked
    exact .inl locked
  · intro id member
    rw [files.lockFiles]
    exact .inl member
  · intro id
    rw [files.digestFiles]
    exact .inl rfl
  · rw [lease, (sound.holds runtime).lease, own]
  · rw [own]
    exact guarded
  · rw [own]
    exact fun lease held => ((sound.holds runtime).owned lease held).sameFiles files
  · rw [own]
    exact here

/-- The leases are as they were after a step that only moves its runtime on. -/
theorem retask_lease {task : Task} {other : RuntimeId} :
    ((cache.setTask runtime task).runtimes other).lease = (cache.runtimes other).lease := by
  by_cases same : other = runtime
  · subst same
    simp [Cache.setTask, Cache.setRuntime]
  · simp [Cache.setTask, Cache.setRuntime, Function.update_of_ne same]

section guard

variable {task : Task}

theorem Sound.setTask (sound : Sound cache log)
    (guarded : Guarded task → cache.guard = some runtime)
    (here : TaskHolds (cache.setTask runtime task) log runtime task) :
    Sound (cache.setTask runtime task) log := by
  have moved := @Sound.retask cache (cache.setTask runtime task) log [] runtime task sound
    ⟨rfl, rfl, rfl⟩ rfl (.inl rfl) guarded (fun _ member => .inl member) (by simp) (by simp)
    (by simpa using sound.justified) (by simpa using here)
  simpa using moved

theorem Sound.enter (sound : Sound cache log) (entered : cache.enter runtime task = some (events, next))
    (here : ∀ after : Cache, after.runtimes = (cache.setTask runtime task).runtimes →
      TaskHolds after log runtime task) :
    Sound next (log ++ events) := by
  unfold Cache.enter at entered
  split_ifs at entered with free
  cases entered
  refine sound.retask ⟨rfl, rfl, rfl⟩ rfl (.inr (.inl (by simpa using free))) (fun _ => rfl)
    (fun _ member => .inl member) (by simp) (by simp) (by simpa using sound.justified) ?_
  rw [List.append_nil]
  exact here _ rfl

end guard

section records

theorem Sound.record {digest : Digest} (sound : Sound cache log)
    (idle : (cache.runtimes runtime).task = .idle)
    (recorded : cache.record runtime digest = some (events, next)) : Sound next (log ++ events) := by
  unfold Cache.record at recorded
  cases held : (cache.runtimes runtime).lease with
  | none => simp [held] at recorded
  | some lease =>
      simp only [held] at recorded
      by_cases named : isDigest digest = true
      · simp only [named, Bool.not_true, Bool.false_eq_true, if_false] at recorded
        by_cases known : lease.recorded.contains digest = true
        · simp only [known, if_true, Option.some.injEq, Prod.mk.injEq] at recorded
          rcases recorded with ⟨rfl, rfl⟩
          have member : digest ∈ lease.recorded := List.contains_iff_mem.mp known
          have before := ((sound.holds runtime).lease).trans held
          have same : Function.update cache.runtimes runtime
              { cache.runtimes runtime with task := .idle } = cache.runtimes := by
            rw [← idle, Function.update_eq_self]
          refine sound.retask ⟨rfl, rfl, rfl⟩ same.symm (.inl rfl) (fun guarded => guarded.elim)
            (fun _ member => .inl member) (by simp [Event.runtime]) ?_
            (sound.justified.snoc ⟨lease, before, fun _ => member⟩) trivial
          rw [leaseAt_append, before]
          simp [leaseAfter, Lease.claim, member]
        · simp only [known, Bool.false_eq_true, if_false] at recorded
          cases spoiled : lease.poisoned with
          | true =>
              simp only [spoiled, if_true, Option.some.injEq, Prod.mk.injEq] at recorded
              rcases recorded with ⟨rfl, rfl⟩
              simpa using sound
          | false =>
              simp only [spoiled, Bool.false_eq_true, if_false] at recorded
              refine sound.enter recorded ?_
              intro after runtimes
              refine ⟨named, lease, ?_, spoiled, by simpa using known⟩
              rw [runtimes, retask_lease, held]
      · simp only [named, Bool.not_false, if_true, Option.some.injEq, Prod.mk.injEq] at recorded
        rcases recorded with ⟨rfl, rfl⟩
        simpa using sound

end records

section leases

theorem Sound.guard_of (sound : Sound cache log) {task : Task}
    (shown : (cache.runtimes runtime).task = task) (guarded : Guarded task) :
    cache.guard = some runtime :=
  (sound.holds runtime).guard (shown ▸ guarded)

theorem Sound.task_of (sound : Sound cache log) {task : Task}
    (shown : (cache.runtimes runtime).task = task) : TaskHolds cache log runtime task :=
  shown ▸ (sound.holds runtime).task

theorem guard_other {other : RuntimeId} {guard : Option RuntimeId}
    (held : cache.guard = some runtime) (different : other ≠ runtime)
    (taken : cache.guard = some other) : guard = some other :=
  absurd (Option.some.inj (taken.symm.trans held)) different

theorem Sound.leaseStep {id : String} {phase : LeasePhase} (sound : Sound cache log)
    (shown : (cache.runtimes runtime).task = .leasing id phase)
    (fresh : phase = .openLock → cache.Unused id)
    (stepped : cache.leaseStep runtime id phase = some (events, next)) :
    Sound next (log ++ events) := by
  have held := sound.guard_of shown trivial
  have task := sound.task_of shown
  have own := (sound.holds runtime).lease
  cases phase with
  | openLock =>
      cases stepped
      rcases fresh rfl with ⟨_, unnamed, free⟩
      refine sound.framed runtime ⟨?_, ?_, ?_, ?_, ?_, ?_, ?_, ?_, by simp⟩
        (by simpa using sound.justified) ⟨?_, ?_, ?_, ?_⟩
      · intro other different
        simp [Cache.setTask, Cache.setRuntime, Function.update_of_ne different]
      · exact fun other different taken => guard_other held different taken
      · exact fun lease kept => .inr held
      · exact fun _ _ _ locked => locked
      · exact fun _ _ locked => .inl locked
      · intro other member
        by_cases same : other = id
        · exact .inl (same ▸ List.mem_cons_self)
        · exact .inl (List.mem_cons_of_mem _ ((List.mem_erase_of_ne same).mpr member))
      · exact fun _ => .inl rfl
      · exact fun _ member => .inl member
      · simpa [Cache.setTask, Cache.setRuntime] using own
      · exact fun _ => held
      · intro lease kept
        have none : (cache.runtimes runtime).lease = none := task
        simp [Cache.setTask, Cache.setRuntime, none] at kept
      · have none : (cache.runtimes runtime).lease = none := task
        simp only [Cache.setTask, Cache.setRuntime, Function.update_self]
        exact ⟨by simpa using none, List.mem_cons_self, unnamed, free⟩
  | lock =>
      rcases task with ⟨none, file, unnamed, free⟩
      simp only [Cache.leaseStep] at stepped
      split_ifs at stepped
      cases stepped
      refine sound.framed runtime ⟨?_, ?_, ?_, ?_, ?_, ?_, ?_, ?_, by simp⟩
        (by simpa using sound.justified) ⟨?_, ?_, ?_, ?_⟩
      · intro other different
        simp [Cache.setTask, Cache.setRuntime, Function.update_of_ne different]
      · exact fun other different taken => guard_other held different taken
      · exact fun lease kept => .inr held
      · exact fun _ _ _ locked => List.mem_cons_of_mem _ locked
      · intro other owner locked
        rcases List.mem_cons.mp locked with same | old
        · cases same
          exact .inr ⟨rfl, held, free⟩
        · exact .inl old
      · exact fun _ member => .inl member
      · exact fun _ => .inl rfl
      · exact fun _ member => .inl member
      · simpa [Cache.setTask, Cache.setRuntime] using own
      · exact fun _ => held
      · intro lease kept
        simp [Cache.setTask, Cache.setRuntime, none] at kept
      · simp only [Cache.setTask, Cache.setRuntime, Function.update_self]
        exact ⟨by simpa using none, file, unnamed, List.mem_cons_self⟩
  | openDigests =>
      rcases task with ⟨none, file, unnamed, locked⟩
      cases stepped
      have before : leaseAt runtime log = .none := own.trans none
      refine sound.framed runtime ⟨?_, ?_, ?_, ?_, ?_, ?_, ?_, ?_, by simp [Event.runtime]⟩
        (sound.justified.snoc before) ⟨?_, ?_, ?_, ?_⟩
      · intro other different
        simp [Cache.leave, Cache.setRuntime, Function.update_of_ne different]
      · exact fun other different taken => guard_other held different taken
      · exact fun lease kept => .inr held
      · exact fun _ _ _ locked => locked
      · exact fun _ _ locked => .inl locked
      · exact fun _ member => .inl member
      · intro other
        by_cases same : other = id
        · exact .inr (.inl (same ▸ locked))
        · exact .inl (AList.lookup_insert_ne same)
      · exact fun _ member => .inl member
      · simp [leaseAt_append, leaseAfter, Cache.leave, Cache.setRuntime]
      · intro guarded
        simp [Cache.leave, Cache.setRuntime, Guarded] at guarded
      · intro lease made
        simp only [Cache.leave, Cache.setRuntime, Function.update_self, Option.some.injEq] at made
        subst made
        refine ⟨locked, file, by simp, [], ?_, fun _ => rfl⟩
        simp [unnamed]
      · simp [Cache.leave, Cache.setRuntime, TaskHolds]

theorem Sound.append {digest : Digest} {written : Option Nat} (sound : Sound cache log)
    (shown : (cache.runtimes runtime).task = .recording digest)
    (appended : cache.append runtime digest written = some (events, next)) :
    Sound next (log ++ events) := by
  have held := sound.guard_of shown trivial
  rcases sound.task_of shown with ⟨named, lease, has, clean, unclaimed⟩
  have before : leaseAt runtime log = some lease := (sound.holds runtime).lease.trans has
  rcases (sound.holds runtime).owned lease has with ⟨locked, file, digests, torn, text, whole⟩
  rw [whole clean, List.append_nil] at text
  have outcome : ∃ event after more, events = [event] ∧
      next = { cache.leave runtime { lease := some after } with
        digestFiles := cache.digestFiles.insert lease.id (lease.recorded.flatMap digestLine ++ more) } ∧
      event.runtime = some runtime ∧ justifies log event ∧
      leaseAfter runtime (some lease) event = some after ∧ after.id = lease.id ∧
      (∀ digest ∈ after.recorded, isDigest digest = true) ∧
      ∃ torn, lease.recorded.flatMap digestLine ++ more =
        after.recorded.flatMap digestLine ++ torn ∧ (after.poisoned = false → torn = []) := by
    unfold Cache.append at appended
    simp only [has, text] at appended
    cases written with
    | none =>
        cases appended
        refine ⟨_, _, _, rfl, rfl, rfl, ⟨lease, before, by simp [clean]⟩, ?_, rfl, ?_, [], ?_,
          fun _ => rfl⟩
        · simp [leaseAfter, Lease.claim, unclaimed]
        · intro other member
          rcases List.mem_append.mp member with old | new
          · exact digests other old
          · exact List.mem_singleton.mp new ▸ named
        · simp
    | some count =>
        cases appended
        refine ⟨_, _, _, rfl, rfl, rfl, ⟨lease, before⟩, ?_, rfl, digests, _, rfl, ?_⟩
        · simp [leaseAfter]
        · intro clean
          cases clean
  rcases outcome with ⟨event, after, more, rfl, rfl, about, here, later, id, digests, content⟩
  refine sound.framed runtime ⟨?_, ?_, ?_, ?_, ?_, ?_, ?_, ?_, ?_⟩ (sound.justified.snoc here)
    ⟨?_, ?_, ?_, ?_⟩
  · intro other different
    simp [Cache.leave, Cache.setRuntime, Function.update_of_ne different]
  · exact fun other different taken => guard_other held different taken
  · exact fun _ _ => .inr held
  · exact fun _ _ _ locked => locked
  · exact fun _ _ locked => .inl locked
  · exact fun _ member => .inl member
  · intro other
    by_cases same : other = lease.id
    · exact .inr (.inl (same ▸ locked))
    · exact .inl (AList.lookup_insert_ne same)
  · exact fun _ member => .inl member
  · intro other member owner same
    rw [List.mem_singleton.mp member, about] at same
    exact (Option.some.inj same).symm
  · rw [leaseAt_append, before]
    simpa [Cache.leave, Cache.setRuntime] using later
  · intro guarded
    simp [Cache.leave, Cache.setRuntime, Guarded] at guarded
  · intro other made
    simp only [Cache.leave, Cache.setRuntime, Function.update_self, Option.some.injEq] at made
    subst made
    rcases content with ⟨torn, same, whole⟩
    refine ⟨id ▸ locked, id ▸ file, digests, torn, ?_, whole⟩
    rw [id, AList.lookup_insert, same]
  · simp [Cache.leave, Cache.setRuntime, TaskHolds]

end leases

section endings

theorem Sound.drop {lease : Lease} (sound : Sound cache log)
    (has : (cache.runtimes runtime).lease = some lease) :
    Sound (cache.setRuntime runtime { task := .dropping lease.id .removeDigests })
      (log ++ [.ended runtime]) := by
  have owned := (sound.holds runtime).owned lease has
  refine sound.framed runtime ⟨?_, ?_, ?_, ?_, ?_, ?_, ?_, ?_, by simp [Event.runtime]⟩
    (sound.justified.snoc trivial) ⟨?_, ?_, ?_, ?_⟩
  · intro other different
    simp [Cache.setRuntime, Function.update_of_ne different]
  · exact fun _ _ taken => taken
  · intro other kept
    simp [Cache.setRuntime] at kept
  · exact fun _ _ _ locked => locked
  · exact fun _ _ locked => .inl locked
  · exact fun _ member => .inl member
  · exact fun _ => .inl rfl
  · exact fun _ member => .inl member
  · simp [leaseAt_append, leaseAfter, Cache.setRuntime]
  · intro guarded
    simp [Cache.setRuntime, Guarded] at guarded
  · intro other kept
    simp [Cache.setRuntime] at kept
  · simp only [Cache.setRuntime, Function.update_self]
    exact ⟨by simp, owned.locked⟩

theorem Sound.dropStep {id : String} {phase : DropPhase} (sound : Sound cache log)
    (shown : (cache.runtimes runtime).task = .dropping id phase) :
    Sound (cache.dropStep runtime id phase) (log ++ []) := by
  rcases sound.task_of shown with ⟨none, locked⟩
  have own := (sound.holds runtime).lease
  have runtimes : ∀ other, other ≠ runtime →
      (cache.dropStep runtime id phase).runtimes other = cache.runtimes other := by
    intro other different
    cases phase <;>
      simp [Cache.dropStep, Cache.setTask, Cache.setRuntime, Function.update_of_ne different]
  have unleased : ((cache.dropStep runtime id phase).runtimes runtime).lease = .none := by
    cases phase <;> simpa [Cache.dropStep, Cache.setTask, Cache.setRuntime] using none
  have guard : (cache.dropStep runtime id phase).guard = cache.guard := by cases phase <;> rfl
  refine sound.framed runtime ⟨runtimes, ?_, ?_, ?_, ?_, ?_, ?_, ?_, by simp⟩
    (by simpa using sound.justified) ⟨?_, ?_, ?_, ?_⟩
  · intro _ _ taken
    rw [guard, taken]
  · intro lease kept
    rw [unleased] at kept
    cases kept
  · intro other owner different held
    cases phase with
    | unlock =>
        refine (List.mem_erase_of_ne ?_).mpr held
        intro same
        cases same
        exact different rfl
    | _ => exact held
  · intro other owner held
    cases phase with
    | unlock => exact .inl (List.mem_of_mem_erase held)
    | _ => exact .inl held
  · intro other member
    by_cases same : other = id
    · exact .inr (.inl (same ▸ locked))
    · cases phase with
      | removeLock => exact .inl ((List.mem_erase_of_ne same).mpr member)
      | _ => exact .inl member
  · intro other
    by_cases same : other = id
    · exact .inr (.inl (same ▸ locked))
    · cases phase with
      | removeDigests => exact .inl (AList.lookup_erase_ne same)
      | _ => exact .inl rfl
  · intro digest member
    cases phase <;> exact .inl member
  · rw [List.append_nil, unleased, own, none]
  · intro guarded
    cases phase <;> simp [Cache.dropStep, Cache.setTask, Cache.setRuntime, Guarded] at guarded
  · intro lease kept
    rw [unleased] at kept
    cases kept
  · cases phase with
    | unlock => simp [Cache.dropStep, Cache.setTask, Cache.setRuntime, TaskHolds]
    | removeDigests | removeLock =>
        simp only [Cache.dropStep, Cache.setTask, Cache.setRuntime, Function.update_self]
        exact ⟨by simpa using none, locked⟩

theorem Sound.die (sound : Sound cache log) :
    Sound (cache.die runtime) (log ++ [.ended runtime]) := by
  refine sound.framed runtime ⟨?_, ?_, ?_, ?_, ?_, ?_, ?_, ?_, by simp [Event.runtime]⟩
    (sound.justified.snoc trivial) ⟨?_, ?_, ?_, ?_⟩
  · intro other different
    simp [Cache.die, Cache.setRuntime, Function.update_of_ne different]
  · intro other different taken
    simp [Cache.die, taken, different]
  · intro lease kept
    simp [Cache.die, Cache.setRuntime] at kept
  · intro id other different locked
    exact List.mem_filter.mpr ⟨locked, by simpa using different⟩
  · exact fun _ _ locked => .inl (List.mem_of_mem_filter locked)
  · exact fun _ member => .inl member
  · exact fun _ => .inl rfl
  · exact fun _ member => .inl member
  · simp [leaseAt_append, leaseAfter, Cache.die, Cache.setRuntime]
  · intro guarded
    simp [Cache.die, Cache.setRuntime, Guarded] at guarded
  · intro lease kept
    simp [Cache.die, Cache.setRuntime] at kept
  · simp [Cache.die, Cache.setRuntime, TaskHolds]

end endings

end BundleStore

end Rozi
