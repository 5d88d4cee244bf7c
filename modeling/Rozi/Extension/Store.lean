import Mathlib.Data.List.AList
import Mathlib.Logic.Function.Basic

/-!
The bundle cache that the extension runtimes of one host share. A runtime claims the bundles it
uses in the digest file of its lease; a prune spares what the leases whose lock is held name. The
guard is taken to make a lease, to record a claim and to prune; staging, verifying and dropping a
lease go without it.
-/

namespace Rozi

namespace BundleStore

abbrev Digest := List Char

abbrev RuntimeId := Nat

def retainedBundles : Nat := 16

def abandonedStaging : Nat := 3600

def isDigest (value : List Char) : Bool :=
  value.length = 64 && value.all fun c => c.isDigit || ('a' ≤ c && c ≤ 'f')

def stripReturn : List Char → List Char
  | [] => []
  | ['\r'] => []
  | c :: rest => c :: stripReturn rest

def linesFrom (line : List Char) : List Char → List (List Char)
  | [] => if line.isEmpty then [] else [line]
  | c :: rest =>
      if c = '\n' then stripReturn line :: linesFrom [] rest else linesFrom (line ++ [c]) rest

def textLines (text : List Char) : List (List Char) := linesFrom [] text

/-- The digests a digest file names; a line still being appended is none. -/
def namedDigests (text : List Char) : List Digest := (textLines text).filter isDigest

def digestLine (digest : Digest) : List Char := digest ++ ['\n']

structure Lease where
  id : String
  recorded : List Digest := []
  poisoned : Bool := false
  deriving DecidableEq, Repr

inductive Entry where
  | bundle (name : Digest)
  | staging (suffix : Nat)
  deriving DecidableEq, Repr

inductive LeasePhase where
  | openLock | lock | openDigests
  deriving DecidableEq, Repr

/-- Where a prune is: `live` are the digests of the leases read so far, `found` the bundles it may
discard with the times they were last used. -/
inductive PrunePhase where
  | listLeases
  | leases (entries : List String) (live : List Digest)
  | readDigests (id : String) (entries : List String) (live : List Digest)
  | removeDigests (id : String) (entries : List String) (live : List Digest)
  | removeLock (id : String) (entries : List String) (live : List Digest)
  | scan (entries : List Entry) (found : List (Nat × Digest)) (live : List Digest)
  | sweep (doomed spared live : List Digest)
  deriving DecidableEq, Repr

inductive DropPhase where
  | removeDigests | removeLock | unlock
  deriving DecidableEq, Repr

inductive StagePhase where
  | check
  | create
  | write
  | recheck
  | install
  | lastCheck
  deriving DecidableEq, Repr

inductive Task where
  | idle
  | leasing (id : String) (phase : LeasePhase)
  | recording (digest : Digest)
  | pruning (keep : List Digest) (phase : PrunePhase)
  | dropping (id : String) (phase : DropPhase)
  | staging (digest : Digest) (suffix : Nat) (phase : StagePhase)
  | dead
  deriving DecidableEq, Repr

structure Runtime where
  lease : Option Lease := none
  task : Task := .idle
  deriving DecidableEq, Repr

/-- The cache on disk, the locks the system holds on its files, and the runtimes that use it. The
name of a lease file names one file for good: no two leases share an id. -/
structure Cache where
  bundles : AList (fun _ : Digest => Nat) := ∅
  staging : AList (fun _ : Nat => Nat) := ∅
  lockFiles : List String := []
  digestFiles : AList (fun _ : String => List Char) := ∅
  locked : List (String × RuntimeId) := []
  guard : Option RuntimeId := none
  clock : Nat := 0
  runtimes : RuntimeId → Runtime := fun _ => {}

inductive Action where
  | lease (id : String)
  | record (digest : Digest)
  | append (written : Option Nat)
  | prune (keep : List Digest)
  | listLeases (entries : List String)
  | listBundles (entries : List Entry)
  | drop
  | verified (digest : Digest) (passes : Bool)
  | stage (digest : Digest) (suffix : Nat)
  | verify (passes : Bool)
  | step
  | die
  deriving DecidableEq, Repr

/-- What a step leaves for the record: `claimed` is a `record` that returned `Ok`, `failed` one whose
append failed, `swept` a bundle a prune removed and `cleared` a lease's files it removed. -/
inductive Event where
  | leased (runtime : RuntimeId) (id : String)
  | claimed (runtime : RuntimeId) (digest : Digest)
  | failed (runtime : RuntimeId) (digest : Digest)
  | ended (runtime : RuntimeId)
  | installed (digest : Digest)
  | discarded (digest : Digest)
  | scanned (runtime : RuntimeId)
  | swept (runtime : RuntimeId) (digest : Digest)
  | cleared (runtime : RuntimeId) (id : String)
  deriving DecidableEq, Repr

abbrev Outcome := Option (List Event × Cache)

namespace Cache

variable (cache : Cache) (runtime : RuntimeId)

def setRuntime (value : Runtime) : Cache :=
  { cache with runtimes := Function.update cache.runtimes runtime value }

def setTask (task : Task) : Cache :=
  cache.setRuntime runtime { cache.runtimes runtime with task }

/-- Take the guard for a task. Nothing happens while another runtime holds it. -/
def enter (task : Task) : Outcome :=
  if cache.guard.isNone then some ([], { cache.setTask runtime task with guard := some runtime })
  else none

def leave (value : Runtime) : Cache :=
  { cache.setRuntime runtime value with guard := none }

/-- `BundleStore::lease`. The lock file is made under the guard: an unlocked lock file is what a
prune takes for a dead runtime's lease. -/
def leaseStep (id : String) : LeasePhase → Outcome
  | .openLock =>
      some ([], { cache.setTask runtime (.leasing id .lock) with
        lockFiles := id :: cache.lockFiles.erase id })
  | .lock =>
      if cache.locked.any (·.1 = id) then none
      else some ([], { cache.setTask runtime (.leasing id .openDigests) with
        locked := (id, runtime) :: cache.locked })
  | .openDigests =>
      let text := (cache.digestFiles.lookup id).getD []
      some ([.leased runtime id], { cache.leave runtime { lease := some { id } } with
        digestFiles := cache.digestFiles.insert id text })

def record (digest : Digest) : Outcome :=
  match (cache.runtimes runtime).lease with
  | none => none
  | some lease =>
      if !isDigest digest then some ([], cache)
      else if lease.recorded.contains digest then some ([.claimed runtime digest], cache)
      else if lease.poisoned then some ([], cache)
      else cache.enter runtime (.recording digest)

def append (digest : Digest) (written : Option Nat) : Outcome :=
  match (cache.runtimes runtime).lease with
  | none => none
  | some lease =>
      let line := digestLine digest
      let extend (more : List Char) : AList fun _ : String => List Char :=
        match cache.digestFiles.lookup lease.id with
        | none => cache.digestFiles
        | some text => cache.digestFiles.insert lease.id (text ++ more)
      match written with
      | none =>
          let lease := { lease with recorded := lease.recorded ++ [digest] }
          some ([.claimed runtime digest],
            { cache.leave runtime { lease := some lease } with digestFiles := extend line })
      | some count =>
          let lease := { lease with poisoned := true }
          some ([.failed runtime digest],
            { cache.leave runtime { lease := some lease } with
              digestFiles := extend (line.take count) })

def leasedStep (keep : List Digest) : PrunePhase → Outcome
  | .leases (id :: entries) live =>
      let phase : PrunePhase :=
        if id ∉ cache.lockFiles then .leases entries live
        else if cache.locked.any (·.1 = id) then .readDigests id entries live
        else .removeDigests id entries live
      some ([], cache.setTask runtime (.pruning keep phase))
  | .readDigests id entries live =>
      let text := (cache.digestFiles.lookup id).getD []
      some ([], cache.setTask runtime (.pruning keep (.leases entries (live ++ namedDigests text))))
  | .removeDigests id entries live =>
      some ([.cleared runtime id],
        { cache.setTask runtime (.pruning keep (.removeLock id entries live)) with
          digestFiles := cache.digestFiles.erase id })
  | .removeLock id entries live =>
      some ([.cleared runtime id],
        { cache.setTask runtime (.pruning keep (.leases entries live)) with
          lockFiles := cache.lockFiles.erase id })
  | _ => none

/-- Whether a staging directory is too old to be one another runtime still writes. -/
def abandoned (suffix : Nat) : Bool :=
  (cache.staging.lookup suffix).any fun modified =>
    modified ≤ cache.clock && abandonedStaging < cache.clock - modified

def byRecency (found : List (Nat × Digest)) : List Digest :=
  (found.mergeSort fun first second => second.1 ≤ first.1).map Prod.snd

def sweepStep (keep : List Digest) : PrunePhase → Outcome
  | .scan (.staging suffix :: entries) found live =>
      some ([], { cache.setTask runtime (.pruning keep (.scan entries found live)) with
        staging := if cache.abandoned suffix then cache.staging.erase suffix else cache.staging })
  | .scan (.bundle name :: entries) found live =>
      let found :=
        if !isDigest name || keep.contains name || live.contains name then found
        else found ++ [((cache.bundles.lookup name).getD 0, name)]
      some ([], cache.setTask runtime (.pruning keep (.scan entries found live)))
  | .scan [] found live =>
      let ordered := byRecency found
      some ([], cache.setTask runtime (.pruning keep
        (.sweep (ordered.drop retainedBundles) (ordered.take retainedBundles) live)))
  | .sweep (digest :: doomed) spared live =>
      some ([.swept runtime digest],
        { cache.setTask runtime (.pruning keep (.sweep doomed spared live)) with
          bundles := cache.bundles.erase digest })
  | .sweep [] _ _ =>
      some ([], cache.leave runtime { cache.runtimes runtime with task := .idle })
  | _ => none

/-- `Drop for Lease`, which takes no guard. The lock is held to the end. -/
def dropStep (id : String) : DropPhase → Cache
  | .removeDigests =>
      { cache.setTask runtime (.dropping id .removeLock) with
        digestFiles := cache.digestFiles.erase id }
  | .removeLock =>
      { cache.setTask runtime (.dropping id .unlock) with
        lockFiles := cache.lockFiles.erase id }
  | .unlock =>
      { cache.setTask runtime .idle with locked := cache.locked.erase (id, runtime) }

/-- `BundleStore::verified`: a bundle that fails is discarded, one that passes is the newest. -/
def verified (digest : Digest) (passes : Bool) : Bool × List Event × Cache :=
  if (cache.bundles.lookup digest).isNone then (false, [], cache)
  else if passes then
    (true, [], { cache with bundles := cache.bundles.insert digest cache.clock })
  else (false, [.discarded digest], { cache with bundles := cache.bundles.erase digest })

/-- A step of `BundleStore::stage` that does not verify the bundle under its name. -/
def stageStep (digest : Digest) (suffix : Nat) : StagePhase → Outcome
  | .create =>
      if suffix ∈ cache.staging then
        some ([], { cache.setTask runtime .idle with staging := cache.staging.erase suffix })
      else some ([], { cache.setTask runtime (.staging digest suffix .write) with
        staging := cache.staging.insert suffix cache.clock })
  | .write =>
      let task : Task :=
        if suffix ∈ cache.staging then .staging digest suffix .recheck else .idle
      some ([], cache.setTask runtime task)
  | .install =>
      match cache.staging.lookup suffix, cache.bundles.lookup digest with
      | some modified, none =>
          some ([.installed digest], { cache.setTask runtime .idle with
            bundles := cache.bundles.insert digest modified
            staging := cache.staging.erase suffix })
      | _, _ =>
          some ([], { cache.setTask runtime (.staging digest suffix .lastCheck) with
            staging := cache.staging.erase suffix })
  | _ => none

/-- A step of `stage` that verifies the bundle under its name. -/
def stageVerify (digest : Digest) (suffix : Nat) (passes : Bool) : StagePhase → Outcome
  | .check =>
      let (ok, events, cache) := cache.verified digest passes
      let task : Task := if ok then .idle else .staging digest suffix .create
      some (events, cache.setTask runtime task)
  | .recheck =>
      let (ok, events, cache) := cache.verified digest passes
      if ok then
        some (events, { cache.setTask runtime .idle with staging := cache.staging.erase suffix })
      else some (events, cache.setTask runtime (.staging digest suffix .install))
  | .lastCheck =>
      let (_, events, cache) := cache.verified digest passes
      some (events, cache.setTask runtime .idle)
  | _ => none

def die : Cache :=
  { cache.setRuntime runtime { task := .dead } with
    guard := if cache.guard = some runtime then none else cache.guard
    locked := cache.locked.filter (·.2 ≠ runtime) }

/-- One step of a runtime; `none` is a step it cannot take now. -/
def act (action : Action) : Outcome :=
  match (cache.runtimes runtime).task, action with
  | .dead, _ => none
  | _, .die => some ([.ended runtime], cache.die runtime)
  | .idle, .lease id =>
      if (cache.runtimes runtime).lease.isSome then none
      else cache.enter runtime (.leasing id .openLock)
  | .idle, .record digest => cache.record runtime digest
  | .idle, .prune keep => cache.enter runtime (.pruning keep .listLeases)
  | .idle, .drop =>
      (cache.runtimes runtime).lease.map fun lease => ([.ended runtime],
        cache.setRuntime runtime { task := .dropping lease.id .removeDigests })
  | .idle, .verified digest passes =>
      if !isDigest digest then some ([], cache)
      else
        let (_, events, next) := cache.verified digest passes
        some (events, next)
  | .idle, .stage digest suffix =>
      if !isDigest digest then some ([], cache)
      else some ([], cache.setTask runtime (.staging digest suffix .check))
  | .leasing id phase, .step => cache.leaseStep runtime id phase
  | .recording digest, .append written => cache.append runtime digest written
  | .pruning keep .listLeases, .listLeases entries =>
      if entries.Perm cache.lockFiles then
        some ([], cache.setTask runtime (.pruning keep (.leases entries [])))
      else none
  | .pruning keep (.leases [] live), .listBundles entries =>
      if entries.Perm
          (cache.bundles.keys.map Entry.bundle ++ cache.staging.keys.map Entry.staging) then
        some ([.scanned runtime], cache.setTask runtime (.pruning keep (.scan entries [] live)))
      else none
  | .pruning keep (.scan entries found live), .step =>
      cache.sweepStep runtime keep (.scan entries found live)
  | .pruning keep (.sweep doomed spared live), .step =>
      cache.sweepStep runtime keep (.sweep doomed spared live)
  | .pruning keep phase, .step => cache.leasedStep runtime keep phase
  | .dropping id phase, .step => some ([], cache.dropStep runtime id phase)
  | .staging digest suffix phase, .step => cache.stageStep runtime digest suffix phase
  | .staging digest suffix phase, .verify passes =>
      cache.stageVerify runtime digest suffix passes phase
  | _, _ => none

end Cache

end BundleStore

end Rozi
