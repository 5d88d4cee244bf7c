import Rozi.Extension.Store
import Rozi.Library.Justified
import Rozi.Library.Transition

/-!
Runs of the runtimes that share a bundle cache, with a log of what was claimed and removed. A step of
one runtime is framed once: what another runtime holds of the cache is left to it.
-/

namespace Rozi

namespace BundleStore

inductive Label where
  | act (runtime : RuntimeId) (action : Action)
  | clock (now : Nat)

structure Run where
  cache : Cache
  log : List Event := []

def Run.perform (run : Run) : Label → Option Run
  | .act runtime action =>
      (run.cache.act runtime action).map fun (events, cache) =>
        { cache, log := run.log ++ events }
  | .clock now => some { run with cache := { run.cache with clock := now } }

/-- The files of a lease are its own: no file or lock of that name is left when its lock file is
made. -/
def Cache.Unused (cache : Cache) (id : String) : Prop :=
  id ∉ cache.lockFiles ∧ cache.digestFiles.lookup id = none ∧ ∀ owner, (id, owner) ∉ cache.locked

def Label.fresh (run : Run) : Label → Prop
  | .act runtime .step => ∀ id, (run.cache.runtimes runtime).task = .leasing id .openLock →
      run.cache.Unused id
  | _ => True

def cacheRuns : Transition Run Label where
  initial := fun run => run.log = [] ∧ run.cache.locked = [] ∧ run.cache.guard = none ∧
    ∀ runtime, run.cache.runtimes runtime = {}
  step := fun run label next => run.perform label = some next

def Lease.claim (lease : Lease) (digest : Digest) : Lease :=
  if digest ∈ lease.recorded then lease
  else { lease with recorded := lease.recorded ++ [digest] }

def leaseAfter (runtime : RuntimeId) (lease : Option Lease) : Event → Option Lease
  | .leased other id => if other = runtime then some { id } else lease
  | .claimed other digest => if other = runtime then lease.map (·.claim digest) else lease
  | .failed other _ => if other = runtime then lease.map ({ · with poisoned := true }) else lease
  | .ended other => if other = runtime then none else lease
  | _ => lease

/-- The lease a runtime holds after the log: what `record` has answered for it and whether an append
failed, from its making until it is dropped or the runtime dies. -/
def leaseAt (runtime : RuntimeId) (log : List Event) : Option Lease :=
  log.foldl (leaseAfter runtime) none

def installedAfter (runtime : RuntimeId) (installed : List Digest) : Event → List Digest
  | .scanned other => if other = runtime then [] else installed
  | .installed digest => digest :: installed
  | _ => installed

def installedSince (runtime : RuntimeId) (log : List Event) : List Digest :=
  log.foldl (installedAfter runtime) []

/-- What must have happened before an event: a prune removes no bundle a lease claims and no file of
a lease, and a lease whose append failed claims only what it had claimed. -/
def justifies (before : List Event) : Event → Prop
  | .leased runtime _ => leaseAt runtime before = none
  | .claimed runtime digest => ∃ lease, leaseAt runtime before = some lease ∧
      (lease.poisoned → digest ∈ lease.recorded)
  | .failed runtime _ => ∃ lease, leaseAt runtime before = some lease
  | .swept _ digest => ∀ runtime lease, leaseAt runtime before = some lease →
      digest ∉ lease.recorded
  | .cleared _ id => ∀ runtime lease, leaseAt runtime before = some lease → lease.id ≠ id
  | _ => True

section holds

variable (cache : Cache) (log : List Event) (runtime : RuntimeId)

def Guarded : Task → Prop
  | .leasing .. | .recording _ | .pruning .. => True
  | _ => False

def Cache.Unlocked (id : String) : Prop := ∀ owner, (id, owner) ∉ cache.locked

/-- The files of a lease name every claim on a line of its own; after a failed append a part of a
line may follow. -/
structure Owned (lease : Lease) : Prop where
  locked : (lease.id, runtime) ∈ cache.locked
  lockFile : lease.id ∈ cache.lockFiles
  digests : ∀ digest ∈ lease.recorded, isDigest digest = true
  text : ∃ torn, cache.digestFiles.lookup lease.id =
      some (lease.recorded.flatMap digestLine ++ torn) ∧ (lease.poisoned = false → torn = [])

/-- Every claim is in a lease still to be read or among the digests read. -/
def Covered (entries : List String) (live : List Digest) : Prop :=
  ∀ other lease, (cache.runtimes other).lease = some lease → ∀ digest ∈ lease.recorded,
    lease.id ∈ entries ∨ digest ∈ live

/-- Every bundle is kept, leased, accounted for by the prune, or installed since it began. -/
def Accounted (keep live listed : List Digest) : Prop :=
  ∀ digest ∈ cache.bundles, isDigest digest = true →
    digest ∈ keep ∨ digest ∈ live ∨ digest ∈ listed ∨ digest ∈ installedSince runtime log

def bundleNames (entries : List Entry) : List Digest :=
  entries.filterMap fun
    | .bundle name => some name
    | .staging _ => none

def PruneHolds (keep : List Digest) : PrunePhase → Prop
  | .listLeases => True
  | .leases entries live => Covered cache entries live
  | .readDigests id entries live => Covered cache (id :: entries) live
  | .removeDigests id entries live | .removeLock id entries live =>
      Covered cache entries live ∧ cache.Unlocked id
  | .scan entries found live => Covered cache [] live ∧
      (∀ entry ∈ found, entry.2 ∉ keep ∧ entry.2 ∉ live) ∧
      Accounted cache log runtime keep live (bundleNames entries ++ found.map Prod.snd)
  | .sweep doomed spared live => Covered cache [] live ∧
      (∀ digest ∈ doomed, digest ∉ keep ∧ digest ∉ live) ∧ spared.length ≤ retainedBundles ∧
      Accounted cache log runtime keep live (doomed ++ spared)

def TaskHolds : Task → Prop
  | .idle | .staging .. => True
  | .recording digest => isDigest digest = true ∧ ∃ lease,
      (cache.runtimes runtime).lease = some lease ∧ lease.poisoned = false ∧
        digest ∉ lease.recorded
  | .leasing _ .openLock | .dead => (cache.runtimes runtime).lease = none
  | .leasing id .lock => (cache.runtimes runtime).lease = none ∧ id ∈ cache.lockFiles ∧
      cache.digestFiles.lookup id = none ∧ cache.Unlocked id
  | .leasing id .openDigests => (cache.runtimes runtime).lease = none ∧ id ∈ cache.lockFiles ∧
      cache.digestFiles.lookup id = none ∧ (id, runtime) ∈ cache.locked
  | .dropping id _ => (cache.runtimes runtime).lease = none ∧ (id, runtime) ∈ cache.locked
  | .pruning keep phase => PruneHolds cache log runtime keep phase

structure Holds : Prop where
  lease : leaseAt runtime log = (cache.runtimes runtime).lease
  guard : Guarded (cache.runtimes runtime).task → cache.guard = some runtime
  owned : ∀ lease, (cache.runtimes runtime).lease = some lease → Owned cache runtime lease
  task : TaskHolds cache log runtime (cache.runtimes runtime).task

def Cache.Exclusive : Prop :=
  ∀ id first second, (id, first) ∈ cache.locked → (id, second) ∈ cache.locked → first = second

end holds

structure Sound (cache : Cache) (log : List Event) : Prop where
  justified : Justified justifies log
  exclusive : cache.Exclusive
  holds : ∀ runtime, Holds cache log runtime

def Event.runtime : Event → Option RuntimeId
  | .leased runtime _ | .claimed runtime _ | .failed runtime _ | .ended runtime |
    .scanned runtime | .swept runtime _ | .cleared runtime _ => some runtime
  | .installed _ | .discarded _ => none

/-- The files a runtime may write: those it has locked and, under the guard, those nobody has. -/
def Writes (cache : Cache) (runtime : RuntimeId) (id : String) : Prop :=
  (id, runtime) ∈ cache.locked ∨ cache.guard = some runtime ∧ cache.Unlocked id

structure Frame (runtime : RuntimeId) (cache next : Cache) (events : List Event) : Prop where
  runtimes : ∀ other, other ≠ runtime → next.runtimes other = cache.runtimes other
  guard : ∀ other, other ≠ runtime → cache.guard = some other → next.guard = some other
  lease : ∀ lease, (next.runtimes runtime).lease = some lease →
    (cache.runtimes runtime).lease = some lease ∨ cache.guard = some runtime
  lockedKept : ∀ id other, other ≠ runtime → (id, other) ∈ cache.locked → (id, other) ∈ next.locked
  lockedFrom : ∀ id other, (id, other) ∈ next.locked → (id, other) ∈ cache.locked ∨
    other = runtime ∧ cache.guard = some runtime ∧ cache.Unlocked id
  lockFiles : ∀ id ∈ cache.lockFiles, id ∈ next.lockFiles ∨ Writes cache runtime id
  digestFiles : ∀ id, next.digestFiles.lookup id = cache.digestFiles.lookup id ∨
    Writes cache runtime id
  bundles : ∀ digest ∈ next.bundles, digest ∈ cache.bundles ∨ Event.installed digest ∈ events
  events : ∀ event ∈ events, ∀ other, event.runtime = some other → other = runtime

section log

variable {runtime : RuntimeId} {log : List Event} {event : Event}

theorem leaseAt_append (more : List Event) :
    leaseAt runtime (log ++ more) = more.foldl (leaseAfter runtime) (leaseAt runtime log) :=
  List.foldl_append

theorem installedSince_append (more : List Event) : installedSince runtime (log ++ more) =
    more.foldl (installedAfter runtime) (installedSince runtime log) :=
  List.foldl_append

theorem leaseAfter_other (lease : Option Lease) (about : event.runtime ≠ some runtime) :
    leaseAfter runtime lease event = lease := by
  cases event <;> simp_all [leaseAfter, Event.runtime]

theorem leaseAt_others {events : List Event}
    (about : ∀ event ∈ events, event.runtime ≠ some runtime) :
    leaseAt runtime (log ++ events) = leaseAt runtime log := by
  rw [leaseAt_append]
  generalize leaseAt runtime log = lease
  induction events with
  | nil => rfl
  | cons event events ih =>
      rw [List.foldl_cons, leaseAfter_other lease (about event (by simp))]
      exact ih fun other member => about other (List.mem_cons_of_mem _ member)

theorem installedAfter_other {installed : List Digest} {digest : Digest}
    (about : event.runtime ≠ some runtime)
    (known : digest ∈ installed ∨ event = .installed digest) :
    digest ∈ installedAfter runtime installed event := by
  cases event <;> simp_all [installedAfter, Event.runtime]
  tauto

theorem mem_installedSince {events : List Event} {digest : Digest}
    (about : ∀ event ∈ events, event.runtime ≠ some runtime)
    (known : digest ∈ installedSince runtime log ∨ Event.installed digest ∈ events) :
    digest ∈ installedSince runtime (log ++ events) := by
  rw [installedSince_append]
  generalize installedSince runtime log = installed at known
  induction events generalizing installed with
  | nil => simpa using known
  | cons event events ih =>
      have rest := fun other member => about other (List.mem_cons_of_mem event member)
      rw [List.foldl_cons]
      refine ih rest _ ?_
      rcases known with early | now
      · exact .inl (installedAfter_other (about event (by simp)) (.inl early))
      · rcases List.mem_cons.mp now with same | later
        · exact .inl (installedAfter_other (about event (by simp)) (.inr same.symm))
        · exact .inr later

end log

section frame

variable {runtime other : RuntimeId} {cache next : Cache} {log events : List Event}

theorem Frame.exclusive (frame : Frame runtime cache next events) (exclusive : cache.Exclusive) :
    next.Exclusive := by
  intro id first second one two
  rcases frame.lockedFrom id first one with one | ⟨rfl, _, free⟩
  · rcases frame.lockedFrom id second two with two | ⟨rfl, _, free⟩
    · exact exclusive id first second one two
    · exact absurd one (free first)
  · rcases frame.lockedFrom id second two with two | ⟨rfl, _, _⟩
    · exact absurd two (free second)
    · rfl

theorem Writes.not_locked (exclusive : cache.Exclusive) (different : other ≠ runtime) {id : String}
    (locked : (id, other) ∈ cache.locked) : ¬ Writes cache runtime id := by
  rintro (own | ⟨_, free⟩)
  · exact different (exclusive id other runtime locked own)
  · exact free other locked

theorem Owned.frame {lease : Lease} (owned : Owned cache other lease)
    (frame : Frame runtime cache next events) (exclusive : cache.Exclusive)
    (different : other ≠ runtime) : Owned next other lease := by
  have apart := Writes.not_locked exclusive different owned.locked
  have kept := (frame.digestFiles lease.id).resolve_right apart
  refine ⟨frame.lockedKept _ _ different owned.locked,
    (frame.lockFiles _ owned.lockFile).resolve_right apart, owned.digests, ?_⟩
  rw [kept]
  exact owned.text

theorem Covered.frame {entries : List String} {live : List Digest}
    (covered : Covered cache entries live) (frame : Frame runtime cache next events)
    (guarded : cache.guard ≠ some runtime) : Covered next entries live := by
  intro third lease held
  by_cases same : third = runtime
  · subst same
    exact covered third lease ((frame.lease lease held).resolve_right guarded)
  · rw [frame.runtimes third same] at held
    exact covered third lease held

theorem Unlocked.frame {id : String} (free : cache.Unlocked id)
    (frame : Frame runtime cache next events) (guarded : cache.guard ≠ some runtime) :
    next.Unlocked id := by
  intro owner locked
  rcases frame.lockedFrom id owner locked with old | ⟨_, held, _⟩
  · exact free owner old
  · exact guarded held

theorem Frame.about (frame : Frame runtime cache next events) (different : other ≠ runtime) :
    ∀ event ∈ events, event.runtime ≠ some other :=
  fun event member same => different (frame.events event member other same)

theorem Accounted.frame {keep live listed : List Digest}
    (accounted : Accounted cache log other keep live listed)
    (frame : Frame runtime cache next events) (different : other ≠ runtime) :
    Accounted next (log ++ events) other keep live listed := by
  intro digest present named
  have since := @mem_installedSince other log events digest (frame.about different)
  rcases frame.bundles digest present with old | new
  · have known := accounted digest old named
    exact known.imp_right fun known => known.imp_right fun known =>
      known.imp_right fun known => since (.inl known)
  · exact .inr (.inr (.inr (since (.inr new))))

theorem PruneHolds.frame {keep : List Digest} {phase : PrunePhase}
    (holds : PruneHolds cache log other keep phase) (frame : Frame runtime cache next events)
    (different : other ≠ runtime) (guarded : cache.guard ≠ some runtime) :
    PruneHolds next (log ++ events) other keep phase := by
  cases phase with
  | listLeases => trivial
  | leases entries live => exact Covered.frame holds frame guarded
  | readDigests id entries live => exact Covered.frame holds frame guarded
  | removeDigests id entries live | removeLock id entries live =>
      exact ⟨holds.1.frame frame guarded, Unlocked.frame holds.2 frame guarded⟩
  | scan entries found live =>
      exact ⟨holds.1.frame frame guarded, holds.2.1, holds.2.2.frame frame different⟩
  | sweep doomed spared live =>
      exact ⟨holds.1.frame frame guarded, holds.2.1, holds.2.2.1, holds.2.2.2.frame frame different⟩

theorem Holds.frame (holds : Holds cache log other) (frame : Frame runtime cache next events)
    (exclusive : cache.Exclusive) (different : other ≠ runtime) :
    Holds next (log ++ events) other := by
  have same := frame.runtimes other different
  have excluded : Guarded (cache.runtimes other).task → cache.guard ≠ some runtime := by
    intro guarded held
    exact different (Option.some.inj ((holds.guard guarded).symm.trans held))
  have apart : ∀ {id}, (id, other) ∈ cache.locked → ¬ Writes cache runtime id :=
    Writes.not_locked exclusive different
  refine ⟨?_, ?_, ?_, ?_⟩
  · rw [leaseAt_others (frame.about different), same]
    exact holds.lease
  · rw [same]
    exact fun guarded => frame.guard other different (holds.guard guarded)
  · rw [same]
    exact fun lease held => (holds.owned lease held).frame frame exclusive different
  · have task := holds.task
    rw [same]
    cases shown : (cache.runtimes other).task with
    | idle | staging => trivial
    | dead =>
        rw [shown] at task
        unfold TaskHolds at task ⊢
        rw [same]
        exact task
    | recording digest =>
        rw [shown] at task
        unfold TaskHolds at task ⊢
        rw [same]
        exact task
    | dropping id phase =>
        rw [shown] at task
        unfold TaskHolds at task ⊢
        rw [same]
        exact ⟨task.1, frame.lockedKept _ _ different task.2⟩
    | leasing id phase =>
        have guarded := excluded (by rw [shown]; trivial)
        rw [shown] at task
        cases phase with
        | openLock =>
            unfold TaskHolds at task ⊢
            rw [same]
            exact task
        | lock =>
            rcases task with ⟨none, file, fresh, free⟩
            have unwritten : ¬ Writes cache runtime id := by
              rintro (own | ⟨held, _⟩)
              · exact free runtime own
              · exact guarded held
            refine ⟨by rw [same]; exact none, (frame.lockFiles id file).resolve_right unwritten,
              ?_, Unlocked.frame free frame guarded⟩
            rw [(frame.digestFiles id).resolve_right unwritten]
            exact fresh
        | openDigests =>
            rcases task with ⟨none, file, fresh, locked⟩
            refine ⟨by rw [same]; exact none, (frame.lockFiles id file).resolve_right (apart locked),
              ?_, frame.lockedKept _ _ different locked⟩
            rw [(frame.digestFiles id).resolve_right (apart locked)]
            exact fresh
    | pruning keep phase =>
        have guarded := excluded (by rw [shown]; trivial)
        rw [shown] at task
        exact PruneHolds.frame task frame different guarded

theorem Sound.framed (sound : Sound cache log) (runtime : RuntimeId)
    (frame : Frame runtime cache next events)
    (justified : Justified justifies (log ++ events)) (own : Holds next (log ++ events) runtime) :
    Sound next (log ++ events) where
  justified := justified
  exclusive := frame.exclusive sound.exclusive
  holds := by
    intro other
    by_cases same : other = runtime
    · exact same ▸ own
    · exact (sound.holds other).frame frame sound.exclusive same

end frame

end BundleStore

end Rozi
