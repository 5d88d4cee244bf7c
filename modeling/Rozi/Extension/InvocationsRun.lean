import Rozi.Extension.Invocations
import Rozi.Library.Transition

/-!
A session server's calls in any interleaving of what its clients, its deployments and the workers
do. What was started, answered, abandoned and revoked is kept beside them.
-/

namespace Rozi.Calls

structure Call where
  id : String
  credential : String
  /-- The live call it was made from. -/
  parent : Option String
  action : String
  singleton : Bool
  extension : String
  generation : Nat
  depth : Nat
  deadline : Nat
  caller : ClientId × ReplyTo
  deriving DecidableEq, Repr

structure World (J : Type) where
  invocations : Invocations J := {}
  /-- The calls whose worker has not reported. -/
  working : List String := []
  /-- The server waits for reports in `shut_down`. -/
  stopping : Bool := false
  calls : List Call := []
  /-- Who was handed out to be answered, with the credential of the call. -/
  handed : List (String × (ClientId × ReplyTo)) := []
  /-- Who departed, with the credential of the call. -/
  abandoned : List (String × (ClientId × ReplyTo)) := []
  /-- The credentials of the calls that were cancelled, abandoned, retired or drained. -/
  dead : List String := []

/-- A report comes, a round of the loop of `shut_down` reads one (`receive`), and the loop ends
(`stopped`): the rest is what is done to a server that is not in `shut_down`. -/
inductive Label (J : Type) where
  | start (target : CallTarget) (request : CallRequest) (grant : Grant)
  | cancel (id : String)
  | cancelAttached (client : ClientId) (requestId : Nat) (first : Option String)
  | abandonClient (client : ClientId)
  | retireExtension (extension : String) (generation : Nat)
  | complete (finished : Finished J)
  | drain
  | stopAll
  | receive
  | stopped

namespace World

variable {J : Type} (world : World J)

def running : AList fun _ : String => Running := world.invocations.running

def lookup (id : String) : Option Running := world.running.lookup id

def values : List Running := world.invocations.values

def credentials (test : Running → Bool) : List String :=
  (world.values.filter test).map Running.credential

def waiter (running : Running) : Option (String × (ClientId × ReplyTo)) :=
  running.caller.map fun caller => (running.credential, caller)

def waiting : List (String × (ClientId × ReplyTo)) := world.values.filterMap waiter

def IsFresh (id credential : String) : Prop :=
  (∀ call ∈ world.calls, call.id ≠ id) ∧ ∀ call ∈ world.calls, call.credential ≠ credential

instance (id credential : String) : Decidable (world.IsFresh id credential) :=
  inferInstanceAs (Decidable (_ ∧ _))

def callOf (target : CallTarget) (request : CallRequest) (parent : Option Running) (id : String)
    (running : Running) : Call :=
  { id
    credential := running.credential
    parent := parent.map fun parent => parent.info.invocationId
    action := target.action.id
    singleton := target.action.concurrency = .singleton
    extension := target.extension
    generation := target.generation
    depth := running.info.depth
    deadline := running.deadline
    caller := (request.client, request.reply) }

def started (target : CallTarget) (request : CallRequest) (id : String) (running : Running) :
    World J :=
  { world with
    invocations :=
      { world.invocations with running := world.invocations.running.insert id running }
    working := id :: world.working
    calls := world.calls ++
      [callOf target request (world.invocations.parentOf request) id running] }

def start (target : CallTarget) (request : CallRequest) (grant : Grant) : Option (World J) :=
  match world.invocations.admitCall target request grant with
  | .error _ => some world
  | .ok (id, running) =>
      if world.IsFresh id running.credential then some (world.started target request id running)
      else none

/-- The one the map comes to first is one of those that match, if any does. -/
def IsFirst (client : ClientId) (requestId : Nat) : Option String → Prop
  | none => ∀ running ∈ world.values, running.startedAs client requestId = false
  | some id => (world.lookup id).any (·.startedAs client requestId)

instance (client : ClientId) (requestId : Nat) (first : Option String) :
    Decidable (world.IsFirst client requestId first) := by
  cases first <;> unfold IsFirst <;> infer_instance

def credited (callers : List (ClientId × ReplyTo)) : List (String × (ClientId × ReplyTo)) :=
  callers.mapIdx fun place caller => ((world.waiting.map Prod.fst).getD place "", caller)

def credentialOf (id : String) : List String := ((world.lookup id).map Running.credential).toList

def serve : Label J → Option (World J)
  | .start target request grant => world.start target request grant
  | .cancel id =>
      some { world with
        invocations := (world.invocations.cancel id).2
        dead := world.dead ++ world.credentialOf id }
  | .cancelAttached client requestId first =>
      if world.IsFirst client requestId first then
        some { world with
          invocations := world.invocations.cancelAttached client requestId first
          dead := world.dead ++ first.toList.flatMap world.credentialOf }
      else none
  | .abandonClient client =>
      some { world with
        invocations := world.invocations.abandonClient client
        abandoned := world.abandoned ++
          (world.values.filter (·.calledBy client)).filterMap waiter
        dead := world.dead ++ world.credentials (·.calledBy client) }
  | .retireExtension extension generation =>
      let (revoked, invocations) := world.invocations.retireExtension extension generation
      some { world with invocations, dead := world.dead ++ revoked }
  | .drain =>
      let (ended, invocations) := world.invocations.drain
      some { world with
        invocations
        handed := world.handed ++
          ended.filterMap fun call => call.caller.map fun caller => (call.credential, caller)
        dead := world.dead ++ ended.map EndedCall.credential }
  | .stopAll =>
      let (callers, invocations) := world.invocations.takeCallers
      some { world with
        invocations
        handed := world.handed ++ world.credited callers
        dead := world.dead ++ world.credentials fun _ => true
        stopping := true }
  | _ => none

def wait : Label J → Option (World J)
  | .receive =>
      if world.values = [] then none
      else some { world with invocations := world.invocations.shutDownRound }
  -- no record is left, or the time is up
  | .stopped => some { world with stopping := false }
  | _ => none

def perform : Label J → Option (World J)
  | .complete finished =>
      if finished.id ∈ world.working then
        some { world with
          invocations :=
            { world.invocations with finished := world.invocations.finished ++ [finished] }
          working := world.working.erase finished.id }
      else none
  | label => if world.stopping then world.wait label else world.serve label

end World

def system (J : Type) : Transition (World J) (Label J) where
  initial world := world = {}
  step world label next := world.perform label = some next

end Rozi.Calls
