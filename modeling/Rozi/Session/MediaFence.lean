import Rozi.Library.Exchange
import Rozi.Session.MediaStream

/-!
The fence keeps each client's controls in order: what is not executed at once waits in the ingress,
is counted, and is executed before anything its client sends later.
-/

namespace Rozi

open Lanes

namespace Occurrence

def receipt : Lanes Occurrence ClientId Ingress.ClientMessage where
  lane
    | received client message => if message.isPong then none else some client
    | _ => none
  text
    | received _ message => [message]
    | _ => []

def execution : Lanes Occurrence ClientId Ingress.ClientMessage where
  lane
    | executed client message _ _ _ => if message.isPong then none else some client
    | _ => none
  text
    | executed _ message _ _ _ => [message]
    | _ => []

end Occurrence

namespace IngressRun

open Ingress

def barrierCount (count : Nat) : Option Nat := if count = 0 then none else some count

/-- The fence, while `pending` holds the control a client is about to have executed and `held`
counts the controls taken from the queue and not yet released. -/
structure Fence (pending : ClientId → List ClientMessage) (held : ClientId → Nat)
    (run : IngressRun) : Prop where
  order : ∀ client, .removed client ∉ run.trace →
    Occurrence.execution.transcript client run.trace ++ pending client ++
        ServerEvent.fenced.transcript client run.server.events.values =
      Occurrence.receipt.transcript client run.trace
  once : ∀ client, (Occurrence.execution.transcript client run.trace ++ pending client).Sublist
    (Occurrence.receipt.transcript client run.trace)
  counted : ∀ client, .removed client ∉ run.trace →
    run.server.media.clientBarriers client = barrierCount
      ((ServerEvent.fenced.transcript client run.server.events.values).length + held client)
  gone : ∀ client, .removed client ∈ run.trace →
    run.server.media.clientBarriers client = none ∧ ¬ run.server.connected client
  attached : ∀ client, .removed client ∉ run.trace →
    run.server.media.clientBarriers client ≠ none → run.server.clientAttached client
  distinct : (run.server.clients.map MediaClient.id).Nodup
  fresh : ∀ client, run.server.connected client ∨ .removed client ∈ run.trace →
    client < run.server.nextClientId
  apart : ∀ client message key active,
    .executed client message true (some key) active ∈ run.trace → active ≠ some key

end IngressRun

namespace Ingress

variable {server : Ingress}

theorem connected_iff {client : ClientId} :
    server.connected client = true ↔ ∃ conn ∈ server.clients, conn.id = client := by
  simp [connected]

theorem clientAttached_iff {client : ClientId} :
    server.clientAttached client = true ↔
      ∃ conn ∈ server.clients, conn.id = client ∧ conn.attached = true := by
  simp [clientAttached]

theorem connected_of_attached {client : ClientId} (attached : server.clientAttached client = true) :
    server.connected client = true := by
  rcases clientAttached_iff.mp attached with ⟨conn, member, same, _⟩
  exact connected_iff.mpr ⟨conn, member, same⟩

/-- A control that needs no fence mutates no stream a job is active on. -/
theorem mediaBarrierKey_none {client : ClientId} {message : ClientMessage}
    (attached : server.clientAttached client = true)
    (clear : server.mediaBarrierKey client message = none) (key : MediaKey)
    (mutates : server.mutatedStream client message = some key) :
    server.media.active ≠ some key := by
  intro active
  simp [mediaBarrierKey, attached, active, mutates] at clear

theorem mutatedStream_opens {client : ClientId} {message : ClientMessage}
    (opens : message.opensConnection = true) : server.mutatedStream client message = none := by
  cases message <;> first | rfl | cases opens

structure Aside (server : Ingress) (outcome : Occurring) : Prop where
  nextClientId : outcome.1.nextClientId = server.nextClientId
  clients : outcome.1.clients = server.clients
  barriers : outcome.1.media.clientBarriers = server.media.clientBarriers
  fenced : ∀ client, ServerEvent.fenced.transcript client outcome.1.events.values =
    ServerEvent.fenced.transcript client server.events.values
  receives : ∀ occurrence ∈ outcome.2, Occurrence.receipt.lane occurrence = none
  executes : ∀ client message accepted stream active,
    .executed client message accepted stream active ∉ outcome.2
  removes : ∀ client, .removed client ∉ outcome.2

theorem Aside.silent {after : Ingress} (nextClientId : after.nextClientId = server.nextClientId)
    (clients : after.clients = server.clients)
    (barriers : after.media.clientBarriers = server.media.clientBarriers)
    (events : after.events = server.events) : Aside server (after, []) where
  nextClientId := nextClientId
  clients := clients
  barriers := barriers
  fenced := fun client => by rw [events]
  receives := fun _ none => nomatch none
  executes := fun _ _ _ _ _ none => nomatch none
  removes := fun _ none => nomatch none

theorem stageOutput_barriers (media : MediaPipeline) (key : MediaKey)
    (transactions : List TerminalOutputTransaction) :
    (media.stageOutput key transactions).2.clientBarriers = media.clientBarriers := by
  unfold MediaPipeline.stageOutput
  split_ifs <;> rfl

theorem discardCompleted_barriers (media : MediaPipeline) (key : MediaKey) :
    (media.discardCompleted key).clientBarriers = media.clientBarriers := by
  unfold MediaPipeline.discardCompleted
  split_ifs <;> rfl

theorem takeReady_barriers (media : MediaPipeline) (key : MediaKey) :
    (media.takeReady key).2.clientBarriers = media.clientBarriers := by
  unfold MediaPipeline.takeReady
  split_ifs
  · rfl
  · cases media.ready <;> rfl

theorem outputBatch_barriers {media after : MediaPipeline} {key : MediaKey}
    {batch : List TerminalOutputTransaction} {continuation : Bool}
    (emitted : media.outputBatch = some (key, batch, continuation, after)) :
    after.clientBarriers = media.clientBarriers := by
  unfold MediaPipeline.outputBatch at emitted
  cases output : media.output with
  | none => simp [output] at emitted
  | some pending =>
      cases active : media.active with
      | none => simp [output, active] at emitted
      | some owner =>
          simp only [output, active] at emitted
          split_ifs at emitted
          · simp only [Option.some.injEq, Prod.mk.injEq] at emitted
            rw [← emitted.2.2.2]
          · simp only [Option.some.injEq, Prod.mk.injEq] at emitted
            rw [← emitted.2.2.2]

theorem poll_barriers (media : MediaPipeline) (relay : GraphicsRelayPolicy) (accepts : Bool)
    (consumes : Consumes) :
    (media.poll relay accepts consumes).clientBarriers = media.clientBarriers := by
  have kept : ∀ worker prepared,
      (media.keepResult worker prepared relay accepts consumes).clientBarriers =
        media.clientBarriers := by
    intro worker prepared
    unfold MediaPipeline.keepResult
    split_ifs <;> rfl
  unfold MediaPipeline.poll
  split_ifs
  · rfl
  · split
    · rfl
    · split
      · exact kept _ _
      · exact kept _ _
      · rfl

theorem aside_emitMediaBatch : Aside server server.emitMediaBatch := by
  unfold emitMediaBatch
  cases emitted : server.media.outputBatch with
  | none => exact .silent rfl rfl rfl rfl
  | some batch =>
      exact {
        nextClientId := rfl, clients := rfl, barriers := outputBatch_barriers emitted
        fenced := fun _ => rfl, receives := by simp [Occurrence.receipt], executes := by simp
        removes := by simp }

theorem aside_sendParsedOutput (key : MediaKey) (transactions : List TerminalOutputTransaction) :
    Aside server (server.sendParsedOutput key transactions) := by
  unfold sendParsedOutput
  split_ifs
  · have barriers := stageOutput_barriers server.media key transactions
    rcases answer : server.media.stageOutput key transactions with ⟨staged, media⟩
    rw [answer] at barriers
    cases staged with
    | true =>
        exact {
          nextClientId := rfl, clients := rfl, barriers := barriers, fenced := fun _ => rfl
          receives := by simp [Occurrence.receipt], executes := by simp, removes := by simp }
    | false => exact .silent rfl rfl barriers rfl
  · exact .silent rfl rfl rfl rfl

end Ingress

namespace IngressRun

open Ingress

variable {run : IngressRun} {pending : ClientId → List ClientMessage} {held : ClientId → Nat}
  {client : ClientId} {message : ClientMessage}

namespace Fence

theorem aside (fence : Fence pending held run) {outcome : Occurring}
    (aside : Aside run.server outcome) : Fence pending held (run.extend outcome) := by
  have removed : ∀ client, .removed client ∈ (run.extend outcome).trace ↔
      .removed client ∈ run.trace := by
    intro client
    simp [extend, aside.removes client]
  have receipts : ∀ client, Occurrence.receipt.transcript client (run.extend outcome).trace =
      Occurrence.receipt.transcript client run.trace := by
    intro client
    have none : Occurrence.receipt.transcript client outcome.2 = [] :=
      transcript_apart fun occurrence member => by rw [aside.receives occurrence member]; simp
    simp [extend, none]
  have executions : ∀ client, Occurrence.execution.transcript client (run.extend outcome).trace =
      Occurrence.execution.transcript client run.trace := by
    intro client
    have none : Occurrence.execution.transcript client outcome.2 = [] := by
      apply transcript_apart
      intro occurrence member
      cases occurrence with
      | executed other message accepted stream active =>
          exact absurd member (aside.executes other message accepted stream active)
      | _ => simp [Occurrence.execution]
    simp [extend, none]
  have connected : ∀ client, (run.extend outcome).server.connected client =
      run.server.connected client := by
    intro client
    simp only [extend, Ingress.connected, aside.clients]
  refine ⟨?_, ?_, ?_, ?_, ?_, ?_, ?_, ?_⟩
  · intro client here
    rw [receipts, executions]
    simp only [extend, aside.fenced]
    exact fence.order client (fun gone => here ((removed client).mpr gone))
  · intro client
    rw [receipts, executions]
    exact fence.once client
  · intro client here
    simp only [extend, aside.fenced, aside.barriers]
    exact fence.counted client (fun gone => here ((removed client).mpr gone))
  · intro client there
    rw [connected]
    simp only [extend, aside.barriers]
    exact fence.gone client ((removed client).mp there)
  · intro client here fenced
    simp only [extend, aside.barriers, clientAttached, aside.clients] at fenced ⊢
    exact fence.attached client (fun gone => here ((removed client).mpr gone)) fenced
  · simp only [extend, aside.clients]
    exact fence.distinct
  · intro client known
    rw [connected, removed] at known
    simp only [extend, aside.nextClientId]
    exact fence.fresh client known
  · intro client message key active member
    rcases List.mem_append.mp member with before | now
    · exact fence.apart client message key active before
    · exact absurd now (aside.executes client message true (some key) active)

theorem unfenced (fence : Fence pending held run) {client : ClientId}
    (away : ¬ run.server.connected client = true) :
    run.server.media.clientBarriers client = none := by
  by_cases removed : .removed client ∈ run.trace
  · exact (fence.gone client removed).1
  · by_contra fenced
    exact away (connected_of_attached (fence.attached client removed fenced))

theorem removeClient (fence : Fence pending held run) (client : ClientId) :
    Fence pending held (run.extend (run.server.removeClient client)) := by
  unfold Ingress.removeClient
  simp only
  by_cases here : (run.server.forgetMediaBarriers client).connected client = true
  · rw [if_pos here]
    have removed : ∀ other, .removed other ∈ run.trace ++ [.removed client] ↔
        .removed other ∈ run.trace ∨ other = client := by simp
    have left := mem_eraseP_key fence.distinct client
    have executions : ∀ other, Occurrence.execution.transcript other
        (run.trace ++ [.removed client]) = Occurrence.execution.transcript other run.trace := by
      simp [said, Occurrence.execution]
    have receipts : ∀ other, Occurrence.receipt.transcript other
        (run.trace ++ [.removed client]) = Occurrence.receipt.transcript other run.trace := by
      simp [said, Occurrence.receipt]
    refine ⟨?_, ?_, ?_, ?_, ?_, ?_, ?_, ?_⟩
    · intro other still
      simp only [extend, executions, receipts]
      exact fence.order other fun gone => still ((removed other).mpr (.inl gone))
    · intro other
      simp only [extend, executions, receipts]
      exact fence.once other
    · intro other still
      have apart : other ≠ client := fun same => still ((removed other).mpr (.inr same))
      simp only [extend, forgetMediaBarriers, Function.update_of_ne apart]
      exact fence.counted other fun gone => still ((removed other).mpr (.inl gone))
    · intro other gone
      have earlier := (removed other).mp gone
      constructor
      · rcases earlier with before | rfl
        · by_cases same : other = client
          · simp [extend, forgetMediaBarriers, same]
          · simp only [extend, forgetMediaBarriers, Function.update_of_ne same]
            exact (fence.gone other before).1
        · simp [extend, forgetMediaBarriers]
      · intro still
        rcases connected_iff.mp still with ⟨conn, member, same⟩
        rcases (left conn).mp member with ⟨present, apart⟩
        rcases earlier with before | rfl
        · exact (fence.gone other before).2 (connected_iff.mpr ⟨conn, present, same⟩)
        · exact apart same
    · intro other still fenced
      have apart : other ≠ client := fun same => still ((removed other).mpr (.inr same))
      simp only [extend, forgetMediaBarriers, Function.update_of_ne apart] at fenced
      have before := fence.attached other
        (fun gone => still ((removed other).mpr (.inl gone))) fenced
      rcases clientAttached_iff.mp before with ⟨conn, member, same, attached⟩
      have stays := (left conn).mpr ⟨member, fun target => apart (same.symm.trans target)⟩
      exact clientAttached_iff.mpr ⟨conn, stays, same, attached⟩
    · exact fence.distinct.sublist (List.eraseP_sublist.map MediaClient.id)
    · rintro other (still | gone)
      · rcases connected_iff.mp still with ⟨conn, member, same⟩
        have present := ((left conn).mp member).1
        exact fence.fresh other (.inl (connected_iff.mpr ⟨conn, present, same⟩))
      · rcases (removed other).mp gone with before | rfl
        · exact fence.fresh other (.inr before)
        · exact fence.fresh other (.inl here)
    · intro other message key active member
      rcases List.mem_append.mp member with before | now
      · exact fence.apart other message key active before
      · cases List.mem_singleton.mp now
  · rw [if_neg here]
    have same : (run.server.forgetMediaBarriers client).media.clientBarriers =
        run.server.media.clientBarriers := by
      apply Function.update_eq_self_iff.mpr
      exact (fence.unfenced here).symm
    exact fence.aside (.silent rfl rfl same rfl)

theorem roster (fence : Fence pending held run) (change : MediaClient → MediaClient)
    (named : ∀ conn, (change conn).id = conn.id)
    (kept : ∀ conn, conn.attached = true → (change conn).attached = true) :
    Fence pending held
      (run.extend ({ run.server with clients := run.server.clients.map change }, [])) := by
  have connected : ∀ client, Ingress.connected { run.server with
      clients := run.server.clients.map change } client = run.server.connected client := by
    intro client
    simp only [Ingress.connected, List.any_map, Function.comp_def, named]
  have attached : ∀ client, run.server.clientAttached client = true →
      Ingress.clientAttached { run.server with
        clients := run.server.clients.map change } client = true := by
    intro client before
    rcases clientAttached_iff.mp before with ⟨conn, member, same, attached⟩
    exact clientAttached_iff.mpr ⟨change conn, List.mem_map.mpr ⟨conn, member, rfl⟩,
      (named conn).trans same, kept conn attached⟩
  have ids : (run.server.clients.map change).map MediaClient.id =
      run.server.clients.map MediaClient.id := by
    simp [Function.comp_def, named]
  refine ⟨?_, ?_, ?_, ?_, ?_, ?_, ?_, ?_⟩
  all_goals simp only [extend, List.append_nil]
  · exact fence.order
  · exact fence.once
  · exact fence.counted
  · intro client gone
    rw [connected]
    exact fence.gone client gone
  · exact fun client still fenced => attached client (fence.attached client still fenced)
  · rw [ids]
    exact fence.distinct
  · intro client known
    rw [connected] at known
    exact fence.fresh client known
  · exact fence.apart

theorem apply (fence : Fence pending held run) (effect : Effect) :
    Fence pending held (run.extend (run.server.apply effect)) := by
  cases effect with
  | attach client =>
      apply fence.roster
      · intro conn
        split_ifs <;> rfl
      · intro conn attached
        split_ifs
        · rfl
        · exact attached
  | remove client => exact fence.removeClient client
  | setPane owner pane generation => exact fence.aside (.silent rfl rfl rfl rfl)
  | emitMedia => exact fence.aside aside_emitMediaBatch
  | stageOutput key transactions => exact fence.aside (aside_sendParsedOutput key transactions)
  | discardCompleted key =>
      exact fence.aside (.silent rfl rfl (discardCompleted_barriers run.server.media key) rfl)

theorem applyAll (fence : Fence pending held run) (effects : List Effect) :
    Fence pending held (run.extend (run.server.applyAll effects)) := by
  induction effects generalizing run with
  | nil => exact fence.aside (.silent rfl rfl rfl rfl)
  | cons effect effects ih =>
      simp only [Ingress.applyAll, extend_andThen]
      exact ih (fence.apply effect)

def settled : ClientId → List ClientMessage := fun _ => []

def due (client : ClientId) (message : ClientMessage) : ClientId → List ClientMessage :=
  fun other => Occurrence.receipt.said other (.received client message)

theorem executed (fence : Fence (due client message) held run) (accepted : Bool)
    (stream active : Option MediaKey)
    (clear : accepted = true → ∀ key, stream = some key → active ≠ some key) :
    Fence settled held
      (run.extend (run.server, [.executed client message accepted stream active])) := by
  have removed : ∀ other, .removed other ∈
      run.trace ++ [.executed client message accepted stream active] ↔
        .removed other ∈ run.trace := by simp
  have moved : ∀ other, Occurrence.execution.transcript other
      (run.trace ++ [.executed client message accepted stream active]) ++ settled other =
      Occurrence.execution.transcript other run.trace ++ due client message other := by
    intro other
    rw [transcript_append, transcript_cons, transcript_nil]
    simp only [settled, List.append_nil]
    rfl
  have receipts : ∀ other, Occurrence.receipt.transcript other
      (run.trace ++ [.executed client message accepted stream active]) =
      Occurrence.receipt.transcript other run.trace := by
    simp [said, Occurrence.receipt]
  refine ⟨?_, ?_, ?_, ?_, ?_, fence.distinct, ?_, ?_⟩
  all_goals simp only [extend, removed, moved, receipts]
  · exact fence.order
  · exact fence.once
  · exact fence.counted
  · exact fence.gone
  · exact fence.attached
  · exact fence.fresh
  · intro other said key shown member
    rcases List.mem_append.mp member with before | now
    · exact fence.apart other said key shown before
    · cases List.mem_singleton.mp now
      exact clear rfl key rfl

theorem processClientControlNow (fence : Fence (due client message) held run)
    (clear : run.server.mediaBarrierKey client message = none) (effects : List Effect) :
    Fence settled held
      (run.extend (run.server.processClientControlNow client message effects)) := by
  have called := fence.executed (run.server.acceptsClientControl client message)
    (run.server.mutatedStream client message) run.server.media.active (by
      intro accepted key mutates
      rcases Bool.or_eq_true_iff.mp accepted with opens | attached
      · rw [mutatedStream_opens opens] at mutates
        cases mutates
      · exact mediaBarrierKey_none attached clear key mutates)
  unfold Ingress.processClientControlNow
  simp only
  by_cases refused : (!run.server.acceptsClientControl client message) = true
  · rw [if_pos refused]
    exact called
  · rw [if_neg refused, extend_andThen, extend_andThen]
    have applied := called.applyAll effects
    split_ifs
    · exact applied.removeClient client
    · exact applied.aside (.silent rfl rfl rfl rfl)

def one (client : ClientId) : ClientId → Nat := fun other => if other = client then 1 else 0

def zero : ClientId → Nat := fun _ => 0

theorem barrierCount_succ (count : Nat) : barrierCount (count + 1) = some (count + 1) := rfl

theorem releaseCount (fence : Fence settled (one client) run) :
    Fence settled zero (run.extend (run.server.releaseCount client, [])) := by
  have others : ∀ other, other ≠ client →
      (run.server.releaseCount client).media.clientBarriers other =
        run.server.media.clientBarriers other := by
    intro other apart
    simp only [Ingress.releaseCount]
    cases run.server.media.clientBarriers client with
    | none => rfl
    | some remaining => simp only [Function.update_of_ne apart]
  refine ⟨?_, ?_, ?_, ?_, ?_, fence.distinct, ?_, ?_⟩
  all_goals simp only [extend, List.append_nil]
  · exact fence.order
  · exact fence.once
  · intro other still
    have before := fence.counted other still
    by_cases apart : other = client
    · subst apart
      simp only [one, if_true] at before
      rw [barrierCount_succ] at before
      simp only [Ingress.releaseCount, before, Function.update_self, Nat.add_sub_cancel, zero,
        Nat.add_zero]
      rfl
    · rw [others other apart, before]
      simp [one, zero, apart, Ingress.releaseCount]
  · intro other removed
    rcases fence.gone other removed with ⟨none, away⟩
    refine ⟨?_, away⟩
    by_cases apart : other = client
    · subst apart
      simp [Ingress.releaseCount, none]
    · rw [others other apart, none]
  · intro other still fenced
    by_cases apart : other = client
    · subst apart
      apply fence.attached other still
      intro none
      simp [Ingress.releaseCount, none] at fenced
    · rw [others other apart] at fenced
      exact fence.attached other still fenced
  · exact fence.fresh
  · exact fence.apart

theorem releaseMediaBarrier (fence : Fence settled (one client) run) :
    Fence settled zero (run.extend (run.server.releaseMediaBarrier client)) := by
  have released := fence.releaseCount
  have removed : Fence settled zero
      (run.extend ((run.server.releaseCount client).removeClient client)) := by
    simpa only [extend, List.append_nil] using released.removeClient client
  unfold Ingress.releaseMediaBarrier
  simp only
  split_ifs
  · exact removed
  · exact released

theorem applyPty (fence : Fence pending held run) (key : MediaKey) (event : TerminalPtyEvent)
    (prepared : Option TerminalPreparedInput) (handling : Handling) :
    Fence pending held (run.extend (run.server.applyPty key event prepared handling)) := by
  have sends : Fence pending held
      (run.extend ((run.server.sendParsedOutput key handling.transactions).andThen
        fun server => server.applyAll handling.effects)) := by
    rw [extend_andThen]
    exact (fence.apply (.stageOutput key handling.transactions)).applyAll handling.effects
  unfold Ingress.applyPty
  by_cases gone : run.server.panes key.owner key.pane ≠ some key.generation
  · rw [if_pos gone]
    exact fence.aside (.silent rfl rfl rfl rfl)
  · rw [if_neg gone]
    cases event with
    | output bytes =>
        by_cases failed : (prepared.isSome && !handling.parses) = true
        · simp only [if_pos failed]
          exact fence.apply (.discardCompleted key)
        · simp only [if_neg failed]
          exact sends
    | exited code => exact sends
    | error message => exact fence.applyAll handling.effects

theorem handlePty (fence : Fence pending held run) (key : MediaKey) (event : TerminalPtyEvent)
    (handling : Handling) :
    Fence pending held (run.extend (run.server.handlePty key event handling)) := by
  have barriers := takeReady_barriers run.server.media key
  unfold Ingress.handlePty
  rcases taken : run.server.media.takeReady key with ⟨prepared, media⟩
  rw [taken] at barriers
  simp only [extend_andThen]
  refine Fence.applyPty ?_ key event prepared handling
  cases event with
  | output bytes =>
      exact fence.aside {
        nextClientId := rfl, clients := rfl, barriers := barriers, fenced := fun _ => rfl
        receives := by simp [Occurrence.receipt], executes := by simp, removes := by simp }
  | exited code => exact fence.aside (.silent rfl rfl barriers rfl)
  | error message => exact fence.aside (.silent rfl rfl barriers rfl)

theorem receive (fence : Fence settled zero run)
    (clear : message.isPong = true ∨ run.server.media.clientBarriers client = none) :
    Fence (due client message) zero (run.extend (run.server, [.received client message])) := by
  have removed : ∀ other, .removed other ∈ run.trace ++ [.received client message] ↔
      .removed other ∈ run.trace := by simp
  have executions : ∀ other, Occurrence.execution.transcript other
      (run.trace ++ [.received client message]) =
      Occurrence.execution.transcript other run.trace := by
    simp [said, Occurrence.execution]
  have receipts : ∀ other, Occurrence.receipt.transcript other
      (run.trace ++ [.received client message]) =
      Occurrence.receipt.transcript other run.trace ++ due client message other := by
    intro other
    rw [transcript_append, transcript_cons, transcript_nil, List.append_nil]
    rfl
  refine ⟨?_, ?_, ?_, ?_, ?_, fence.distinct, ?_, ?_⟩
  all_goals simp only [extend, removed, executions, receipts]
  · intro other still
    have before := fence.order other still
    simp only [settled, List.append_nil] at before
    have commutes : due client message other ++
        ServerEvent.fenced.transcript other run.server.events.values =
        ServerEvent.fenced.transcript other run.server.events.values ++
          due client message other := by
      by_cases same : other = client
      · subst same
        rcases clear with pong | free
        · simp [due, said, Occurrence.receipt, pong]
        · rw [fence.counted other still] at free
          have empty : ServerEvent.fenced.transcript other run.server.events.values = [] := by
            unfold barrierCount at free
            split_ifs at free with none
            exact List.eq_nil_of_length_eq_zero none
          rw [empty, List.append_nil, List.nil_append]
      · have nothing : due client message other = [] := by
          apply said_off
          cases pong : message.isPong <;> simp [Occurrence.receipt, pong, Ne.symm same]
        rw [nothing, List.append_nil, List.nil_append]
    rw [List.append_assoc, commutes, ← List.append_assoc, before]
  · intro other
    have before := fence.once other
    rw [settled, List.append_nil] at before
    exact before.append (List.Sublist.refl _)
  · exact fence.counted
  · exact fence.gone
  · exact fence.attached
  · exact fence.fresh
  · intro other said key shown member
    rcases List.mem_append.mp member with before | now
    · exact fence.apart other said key shown before
    · cases List.mem_singleton.mp now

theorem not_attached (fence : Fence pending held run)
    (removed : .removed client ∈ run.trace) : run.server.clientAttached client = false := by
  cases attached : run.server.clientAttached client with
  | false => rfl
  | true => exact absurd (connected_of_attached attached) (fence.gone client removed).2

theorem defer (fence : Fence settled zero run) {events : ByteQueue ServerEvent} {bytes : Nat}
    (fenced : ¬ (message.isPong = true ∨ (run.server.media.clientBarriers client = none ∧
      run.server.mediaBarrierKey client message = none)))
    (pushed : run.server.events.tryPush (.mediaBarrier client message) bytes = .ok events) :
    Fence settled zero (run.extend
      ({ run.server with
        events
        media := { run.server.media with
          clientBarriers := Function.update run.server.media.clientBarriers client
            (some ((run.server.media.clientBarriers client).getD 0 + 1)) } },
        [.received client message])) := by
  rcases not_or.mp fenced with ⟨beating, held⟩
  have spoken : message.isPong = false := by simpa using beating
  have removed : ∀ other, .removed other ∈ run.trace ++ [.received client message] ↔
      .removed other ∈ run.trace := by simp
  have executions : ∀ other, Occurrence.execution.transcript other
      (run.trace ++ [.received client message]) =
      Occurrence.execution.transcript other run.trace := by
    simp [said, Occurrence.execution]
  have receipts : ∀ other, Occurrence.receipt.transcript other
      (run.trace ++ [.received client message]) =
      Occurrence.receipt.transcript other run.trace ++
        ServerEvent.fenced.said other (.mediaBarrier client message) := by
    intro other
    simp [said, Occurrence.receipt, ServerEvent.fenced, spoken]
  have queue : ∀ other, ServerEvent.fenced.transcript other events.values =
      ServerEvent.fenced.transcript other run.server.events.values ++
        ServerEvent.fenced.said other (.mediaBarrier client message) := by
    intro other
    simp [tryPush_values pushed]
  have others : ∀ other, other ≠ client →
      ServerEvent.fenced.said other (.mediaBarrier client message) = [] := by
    intro other apart
    exact said_off (by simpa [ServerEvent.fenced] using Ne.symm apart)
  have attached : run.server.clientAttached client = true := by
    by_contra away
    have clear : run.server.mediaBarrierKey client message = none := by
      simp [mediaBarrierKey, away]
    have counted : run.server.media.clientBarriers client ≠ none := fun free => held ⟨free, clear⟩
    have still : .removed client ∉ run.trace := fun gone => counted (fence.gone client gone).1
    exact away (fence.attached client still counted)
  have here : .removed client ∉ run.trace :=
    fun gone => (fence.gone client gone).2 (connected_of_attached attached)
  refine ⟨?_, ?_, ?_, ?_, ?_, fence.distinct, ?_, ?_⟩
  all_goals simp only [extend, removed, executions, receipts, queue]
  · intro other still
    rw [← List.append_assoc, fence.order other still]
  · exact fun other => (fence.once other).trans (List.sublist_append_left _ _)
  · intro other still
    have before := fence.counted other still
    by_cases same : other = client
    · subst same
      have count : (barrierCount
          (ServerEvent.fenced.transcript other run.server.events.values).length).getD 0 =
          (ServerEvent.fenced.transcript other run.server.events.values).length := by
        unfold barrierCount
        split_ifs with none
        · exact none.symm
        · rfl
      rw [zero, Nat.add_zero] at before
      rw [Function.update_self, before, count, zero, Nat.add_zero, List.length_append,
        said_on rfl]
      rfl
    · rw [Function.update_of_ne same, before, others other same, List.append_nil]
  · intro other gone
    have apart : other ≠ client := fun same => here (same ▸ gone)
    rw [Function.update_of_ne apart]
    exact fence.gone other gone
  · intro other still counted
    by_cases same : other = client
    · rw [same]
      exact attached
    · rw [Function.update_of_ne same] at counted
      exact fence.attached other still counted
  · exact fence.fresh
  · intro other said key shown member
    rcases List.mem_append.mp member with before | now
    · exact fence.apart other said key shown before
    · cases List.mem_singleton.mp now

theorem processClientFrame (fence : Fence settled zero run) (size : ClientMessage → Nat)
    (effects : List Effect)
    (room : (run.server.deferMediaBarrier size client message).1 ≠ .error mediaBusy) :
    Fence settled zero (run.extend (run.server.processClientFrame size client message effects)) := by
  unfold Ingress.processClientFrame
  rw [extend_andThen]
  simp only
  unfold deferMediaBarrier at room ⊢
  by_cases free : message.isPong = true ∨ (run.server.media.clientBarriers client = none ∧
      run.server.mediaBarrierKey client message = none)
  · rw [if_pos free]
    have received : Fence (due client message) zero
        (run.extend (run.server, [.received client message])) := by
      apply fence.receive
      rcases free with pong | ⟨free, _⟩
      · exact .inl pong
      · exact .inr free
    apply received.processClientControlNow
    rcases free with pong | ⟨_, clear⟩
    · have streamless : run.server.mutatedStream client message = none := by
        cases message <;> first | rfl | cases pong
      simp [extend, mediaBarrierKey, streamless]
    · exact clear
  · rw [if_neg free] at room ⊢
    cases pushed : run.server.events.tryPush (.mediaBarrier client message) (size message) with
    | error refusal => simp [pushed] at room
    | ok events =>
        have deferred := fence.defer free pushed
        simpa only [extend, List.append_nil] using deferred

theorem accepted_barriers {server : Ingress} {commitMedia accepted : Bool} {scan next : PhaseScan}
    {event : ServerEvent} (answer : Answer server commitMedia scan event (accepted, next)) :
    next.media.clientBarriers = scan.media.clientBarriers := by
  cases answer <;> rfl

theorem passes_barriers {server : Ingress} {commitMedia : Bool} {preparing : Preparing}
    {scan before : PhaseScan} {front : List ServerEvent}
    (passes : Scan.Passes (server.eventReady commitMedia preparing) scan front before) :
    before.media.clientBarriers = scan.media.clientBarriers := by
  induction passes with
  | nil => rfl
  | @cons scan next last event rest refused _ ih =>
      have answer := eventReady_answer server commitMedia preparing scan event
      rw [refused] at answer
      exact ih.trans (accepted_barriers answer)

theorem queued_spoken (fence : Fence settled held run) {rest : List ClientMessage}
    (here : .removed client ∉ run.trace)
    (queued : ServerEvent.fenced.transcript client run.server.events.values = message :: rest) :
    message.isPong = false := by
  have order := fence.order client here
  have member : message ∈ Occurrence.receipt.transcript client run.trace := by
    rw [← order, queued]
    simp
  rcases List.mem_flatMap.mp member with ⟨occurrence, _, spoke⟩
  cases occurrence with
  | received other frame =>
      cases pong : frame.isPong with
      | true => simp [said, Occurrence.receipt, pong] at spoke
      | false =>
          unfold Lanes.said at spoke
          split_ifs at spoke with same
          · rw [List.mem_singleton.mp spoke]
            exact pong
          · cases spoke
  | _ => simp [said, Occurrence.receipt] at spoke

theorem take (fence : Fence settled zero run) {after : Ingress}
    (clients : after.clients = run.server.clients)
    (ids : after.nextClientId = run.server.nextClientId)
    (barriers : after.media.clientBarriers = run.server.media.clientBarriers)
    (pop : ∀ other, ServerEvent.fenced.transcript other run.server.events.values =
      ServerEvent.fenced.said other (.mediaBarrier client message) ++
        ServerEvent.fenced.transcript other after.events.values) :
    (after.clientAttached client = true →
        Fence (due client message) (one client) (run.extend (after, []))) ∧
      (after.clientAttached client = false →
        Fence settled (one client) (run.extend (after, []))) := by
  have own : ServerEvent.fenced.transcript client run.server.events.values =
      message :: ServerEvent.fenced.transcript client after.events.values := by
    rw [pop client, said_on rfl]
    rfl
  have others : ∀ other, other ≠ client →
      ServerEvent.fenced.transcript other run.server.events.values =
        ServerEvent.fenced.transcript other after.events.values := by
    intro other apart
    have silent : ServerEvent.fenced.said other (.mediaBarrier client message) = [] :=
      said_off (by simpa [ServerEvent.fenced] using Ne.symm apart)
    rw [pop other, silent, List.nil_append]
  have connected : ∀ other, after.connected other = run.server.connected other := by
    intro other
    simp only [Ingress.connected, clients]
  have attached : ∀ other, after.clientAttached other = run.server.clientAttached other := by
    intro other
    simp only [Ingress.clientAttached, clients]
  -- all but the order: it is the same whoever the control goes to
  have rest : ∀ pending : ClientId → List ClientMessage,
      (∀ other, .removed other ∉ run.trace →
        Occurrence.execution.transcript other run.trace ++ pending other ++
          ServerEvent.fenced.transcript other after.events.values =
        Occurrence.receipt.transcript other run.trace) →
      (∀ other, (Occurrence.execution.transcript other run.trace ++ pending other).Sublist
        (Occurrence.receipt.transcript other run.trace)) →
      Fence pending (one client) (run.extend (after, [])) := by
    intro pending order once
    refine ⟨?_, ?_, ?_, ?_, ?_, ?_, ?_, ?_⟩
    all_goals simp only [extend, List.append_nil, barriers, connected, attached, clients, ids]
    · exact order
    · exact once
    · intro other still
      rw [fence.counted other still]
      by_cases same : other = client
      · subst same
        simp [own, one, zero]
      · simp [others other same, one, zero, same]
    · exact fence.gone
    · exact fence.attached
    · exact fence.distinct
    · exact fence.fresh
    · exact fence.apart
  constructor
  · intro here
    rw [attached] at here
    have still : .removed client ∉ run.trace := by
      intro gone
      rw [fence.not_attached gone] at here
      cases here
    have spoken := fence.queued_spoken still own
    have dues : due client message client = [message] := by
      simp [due, said, Occurrence.receipt, spoken]
    have undue : ∀ other, other ≠ client → due client message other = [] := by
      intro other apart
      apply said_off
      simpa [Occurrence.receipt, spoken] using Ne.symm apart
    have order : ∀ other, .removed other ∉ run.trace →
        Occurrence.execution.transcript other run.trace ++ due client message other ++
          ServerEvent.fenced.transcript other after.events.values =
        Occurrence.receipt.transcript other run.trace := by
      intro other present
      have before := fence.order other present
      rw [settled, List.append_nil] at before
      by_cases same : other = client
      · subst same
        rw [← before, own, dues, List.append_assoc]
        rfl
      · rw [undue other same, List.append_nil, ← others other same, before]
    apply rest _ order
    intro other
    by_cases same : other = client
    · subst same
      rw [← order other still]
      exact List.sublist_append_left _ _
    · rw [undue other same]
      exact fence.once other
  · intro away
    rw [attached] at away
    have gone : .removed client ∈ run.trace := by
      by_contra still
      have counted : run.server.media.clientBarriers client ≠ none := by
        rw [fence.counted client still, own]
        simp [barrierCount]
      rw [fence.attached client still counted] at away
      cases away
    refine rest settled ?_ fence.once
    intro other present
    have apart : other ≠ client := fun same => present (same ▸ gone)
    rw [← others other apart]
    exact fence.order other present

theorem nextReady (fence : Fence settled zero run) (commitMedia : Bool) (preparing : Preparing)
    (handling : Handling) (size : ClientMessage → Nat) :
    Fence settled zero
      (run.extend (run.server.after size (.nextReady commitMedia preparing handling))) := by
  simp only [Ingress.after]
  rcases popped : run.server.nextReadyEventPhase commitMedia preparing with ⟨event | event, after⟩
  · rcases nextReadyEventPhase_none popped with ⟨scan, passes, rfl⟩
    exact fence.aside (.silent rfl rfl (passes_barriers passes) rfl)
  · rcases nextReadyEventPhase_taken popped with ⟨taken⟩
    have barriers : after.media.clientBarriers = run.server.media.clientBarriers := by
      have media : after.media = taken.scan.media := congrArg Ingress.media taken.same
      rw [media]
      exact (accepted_barriers taken.accepted).trans (passes_barriers taken.passes)
    have clients : after.clients = run.server.clients := by
      simpa using congrArg Ingress.clients taken.same
    have ids : after.nextClientId = run.server.nextClientId := by
      simpa using congrArg Ingress.nextClientId taken.same
    have pop := taken.transcript_fenced
    have aside : (∀ client, ServerEvent.fenced.said client event = []) →
        Fence settled zero (run.extend (after, [])) := by
      intro silent
      apply fence.aside
      exact {
        nextClientId := ids, clients := clients, barriers := barriers
        fenced := fun client => by rw [pop client, silent client, List.nil_append]
        receives := by rintro _ ⟨⟩
        executes := by rintro _ _ _ _ _ ⟨⟩
        removes := by rintro _ ⟨⟩ }
    cases event with
    | browse client listing =>
        have handled := (aside fun _ => rfl).applyAll handling.effects
        simpa only [Ingress.handleEvent, extend, List.append_nil] using handled
    | pty key event =>
        have handled := (aside fun _ => rfl).handlePty key event handling
        simpa only [Ingress.handleEvent, extend, List.append_nil] using handled
    | mediaBarrier client message =>
        rcases fence.take clients ids barriers pop with ⟨present, absent⟩
        simp only [Ingress.handleEvent, extend_andThen]
        cases here : after.clientAttached client with
        | false =>
            simp only [Bool.false_eq_true, if_false]
            exact (absent here).releaseMediaBarrier
        | true =>
            have executed := (present here).processClientControlNow taken.clear handling.effects
            simp only [if_true]
            simpa only [extend, List.append_nil] using executed.releaseMediaBarrier

theorem pushed (fence : Fence pending held run) {event : ServerEvent} {bytes : Nat}
    {events : ByteQueue ServerEvent} {occurrences : List Occurrence}
    (silent : ∀ client, ServerEvent.fenced.said client event = [])
    (quiet : ∀ occurrence ∈ occurrences, ∃ key bytes, occurrence = .delivered key bytes)
    (pushed : run.server.events.pushBlockingWith event bytes ServerEvent.coalesceOutput =
      .ok events) :
    Fence pending held (run.extend ({ run.server with events }, occurrences)) := by
  apply fence.aside
  refine ⟨rfl, rfl, rfl, ?_, ?_, ?_, ?_⟩
  · intro client
    simp [(push_transcript pushed).2 client, silent client]
  · intro occurrence member
    rcases quiet occurrence member with ⟨key, bytes, rfl⟩
    rfl
  · intro client message accepted stream active member
    rcases quiet _ member with ⟨key, bytes, same⟩
    cases same
  · intro client member
    rcases quiet _ member with ⟨key, bytes, same⟩
    cases same

theorem deliver (fence : Fence pending held run) (key : MediaKey) (event : TerminalPtyEvent) :
    Fence pending held (run.extend (run.server.deliver key event)) := by
  unfold Ingress.deliver
  cases pushed : run.server.events.pushBlockingWith (.pty key event) (ptyBytes event)
      ServerEvent.coalesceOutput with
  | error refusal =>
      simp only [(ByteQueue.pushBlockingWith_refused pushed).1]
      exact fence.aside (.silent rfl rfl rfl rfl)
  | ok events =>
      refine fence.pushed (fun _ => rfl) ?_ pushed
      cases event with
      | output bytes => exact fun occurrence member => ⟨key, bytes, List.mem_singleton.mp member⟩
      | exited code => exact fun _ none => nomatch none
      | error message => exact fun _ none => nomatch none

theorem browse (fence : Fence pending held run) (client : ClientId) (listing : String)
    (bytes : Nat) : Fence pending held (run.extend (run.server.browse client listing bytes, [])) := by
  unfold Ingress.browse
  cases pushed : run.server.events.pushBlockingWith (.browse client listing) bytes
      ServerEvent.coalesceOutput with
  | error refusal =>
      simp only [(ByteQueue.pushBlockingWith_refused pushed).1]
      exact fence.aside (.silent rfl rfl rfl rfl)
  | ok events => exact fence.pushed (fun _ => rfl) (fun _ none => nomatch none) pushed

theorem acceptNew (fence : Fence pending held run) :
    Fence pending held (run.extend (run.server.acceptNew, [])) := by
  have connected : ∀ client, run.server.acceptNew.connected client =
      (run.server.connected client || decide (client = run.server.nextClientId)) := by
    intro client
    simp [Ingress.connected, Ingress.acceptNew, eq_comm]
  have unknown : ¬ run.server.connected run.server.nextClientId = true :=
    fun known => Nat.lt_irrefl _ (fence.fresh _ (.inl known))
  refine ⟨?_, ?_, ?_, ?_, ?_, ?_, ?_, ?_⟩
  all_goals simp only [extend, List.append_nil]
  · exact fence.order
  · exact fence.once
  · exact fence.counted
  · intro client gone
    have old := fence.fresh client (.inr gone)
    refine ⟨(fence.gone client gone).1, ?_⟩
    rw [connected]
    simp [(fence.gone client gone).2, Nat.ne_of_lt old]
  · intro client still fenced
    rcases clientAttached_iff.mp (fence.attached client still fenced) with ⟨conn, member, same⟩
    exact clientAttached_iff.mpr ⟨conn, List.mem_append_left _ member, same⟩
  · have ids : run.server.acceptNew.clients.map MediaClient.id =
        run.server.clients.map MediaClient.id ++ [run.server.nextClientId] := by
      simp [Ingress.acceptNew]
    rw [ids, List.nodup_append]
    refine ⟨fence.distinct, List.nodup_singleton _, ?_⟩
    intro id member new same
    rw [List.mem_singleton] at same
    rintro rfl
    rcases List.mem_map.mp member with ⟨conn, present, named⟩
    exact unknown (connected_iff.mpr ⟨conn, present, named.trans same⟩)
  · intro client known
    have next : run.server.acceptNew.nextClientId = run.server.nextClientId + 1 := rfl
    rw [connected, next] at *
    rcases known with known | gone
    · rcases Bool.or_eq_true_iff.mp known with old | new
      · exact Nat.lt_succ_of_lt (fence.fresh client (.inl old))
      · exact Nat.lt_succ_of_le (Nat.le_of_eq (of_decide_eq_true new))
    · exact Nat.lt_succ_of_lt (fence.fresh client (.inr gone))
  · exact fence.apart

theorem pollMedia (fence : Fence pending held run) (relay : GraphicsRelayPolicy) (accepts : Bool)
    (consumes : Consumes) :
    Fence pending held (run.extend (run.server.pollMedia relay accepts consumes, [])) := by
  have polled : Fence pending held (run.extend ({ run.server with
      media := run.server.media.poll relay accepts consumes }, [])) :=
    fence.aside (.silent rfl rfl (poll_barriers run.server.media relay accepts consumes) rfl)
  unfold Ingress.pollMedia
  simp only
  cases active : (run.server.media.poll relay accepts consumes).active with
  | none => exact polled
  | some key =>
      simp only
      split_ifs
      · exact polled
      · simpa only [Ingress.apply, extend, List.append_nil] using polled.apply (.discardCompleted key)

theorem disconnectAfterControls (fence : Fence pending held run) (client : ClientId) :
    Fence pending held (run.extend (run.server.disconnectAfterControls client)) := by
  unfold Ingress.disconnectAfterControls
  split_ifs
  · apply fence.roster
    · intro conn
      split_ifs <;> rfl
    · intro conn attached
      split_ifs <;> exact attached
  · exact fence.removeClient client

end Fence

/-- The action is no control whose deferral finds the ingress full. -/
def Roomy (size : ClientMessage → Nat) (run : IngressRun) : IngressAction → Prop
  | .control client message _ =>
      (run.server.deferMediaBarrier size client message).1 ≠ .error mediaBusy
  | _ => True

theorem Fence.after (fence : Fence Fence.settled Fence.zero run) (size : ClientMessage → Nat)
    (action : IngressAction) (roomy : Roomy size run action) :
    Fence Fence.settled Fence.zero (run.after size action) := by
  cases action with
  | acceptNew => exact fence.acceptNew
  | deliver key event => exact fence.deliver key event
  | browse client listing bytes => exact fence.browse client listing bytes
  | control client message effects => exact fence.processClientFrame size effects roomy
  | nextReady commitMedia preparing handling =>
      exact fence.nextReady commitMedia preparing handling size
  | poll relay accepts consumes => exact fence.pollMedia relay accepts consumes
  | finishJob consumes => exact fence.aside (.silent rfl rfl rfl rfl)
  | disconnect client => exact fence.disconnectAfterControls client
  | effect effect => exact fence.apply effect

theorem reachable_fence {size : ClientMessage → Nat}
    (reached : (runs size).ReachableWhen (Roomy size) run) :
    Fence Fence.settled Fence.zero run := by
  have begins : ∀ run, (runs size).initial run → Fence Fence.settled Fence.zero run := by
    rintro run rfl
    refine ⟨fun _ _ => rfl, fun _ => .slnil, fun _ _ => rfl, ?_, ?_, .nil, ?_, ?_⟩
    · exact fun _ none => nomatch none
    · exact fun _ _ fenced => absurd rfl fenced
    · rintro client (none | none)
      · cases none
      · cases none
    · exact fun _ _ _ _ none => nomatch none
  have kept : ∀ run action next, Fence Fence.settled Fence.zero run → Roomy size run action →
      (runs size).step run action next → Fence Fence.settled Fence.zero next := by
    rintro run action next fence roomy rfl
    exact fence.after size action roomy
  exact reached.invariant begins kept

/-- As long as no deferral finds the ingress full, the controls of a client are executed in the
order they were received, each once, until the client is removed; the fence counts exactly the
controls a connected client has queued; and no control mutates the stream of the active job. -/
theorem fence_keeps_order {size : ClientMessage → Nat}
    (reached : (runs size).ReachableWhen (Roomy size) run) :
    (∀ client, (.removed client ∉ run.trace →
        Occurrence.execution.transcript client run.trace ++
            ServerEvent.fenced.transcript client run.server.events.values =
          Occurrence.receipt.transcript client run.trace) ∧
      (Occurrence.execution.transcript client run.trace).Sublist
        (Occurrence.receipt.transcript client run.trace)) ∧
    (∀ client, run.server.connected client = true →
      run.server.media.clientBarriers client = barrierCount
        (ServerEvent.fenced.transcript client run.server.events.values).length) ∧
    ∀ client message key active,
      .executed client message true (some key) active ∈ run.trace → active ≠ some key := by
  have fence := reachable_fence reached
  refine ⟨fun client => ⟨fun here => ?_, ?_⟩, ?_, fence.apart⟩
  · have order := fence.order client here
    rwa [Fence.settled, List.append_nil] at order
  · have once := fence.once client
    rwa [Fence.settled, List.append_nil] at once
  · intro client connected
    exact fence.counted client fun gone => (fence.gone client gone).2 connected

instance (size : ClientMessage → Nat) (run : IngressRun) :
    (action : IngressAction) → Decidable (Roomy size run action)
  | .control client message _ => inferInstanceAs (Decidable
      ((run.server.deferMediaBarrier size client message).1 ≠ .error mediaBusy))
  | .acceptNew | .deliver .. | .browse .. | .nextReady .. | .poll .. | .finishJob .. | .disconnect ..
  | .effect .. => inferInstanceAs (Decidable True)

def AllRoomy (size : ClientMessage → Nat) : IngressRun → List IngressAction → Prop
  | _, [] => True
  | run, action :: actions =>
      Roomy size run action ∧ AllRoomy size (run.after size action) actions

instance decidableAllRoomy (size : ClientMessage → Nat) :
    (run : IngressRun) → (actions : List IngressAction) → Decidable (AllRoomy size run actions)
  | _, [] => inferInstanceAs (Decidable True)
  | run, action :: actions =>
      have := decidableAllRoomy size (run.after size action) actions
      inferInstanceAs (Decidable (_ ∧ _))

theorem reachable_of_roomy {size : ClientMessage → Nat}
    (reached : (runs size).ReachableWhen (Roomy size) run) (actions : List IngressAction)
    (roomy : AllRoomy size run actions) :
    (runs size).ReachableWhen (Roomy size) (actions.foldl (after size) run) := by
  induction actions generalizing run with
  | nil => exact reached
  | cons action actions ih => exact ih (reached.next action roomy.1 rfl) roomy.2

def fencedActions : List IngressAction :=
  let key : MediaKey := { owner := none, pane := 7, generation := 1 }
  let prepares : Preparing := { prepareMediaInput := fun _ _ => some .all }
  [.acceptNew, .effect (.attach 1), .effect (.setPane none 7 (some 1)),
    .deliver key (.output [1, 2, 3]), .nextReady false prepares {},
    .control 1 (.resize 7 false 1 "80x24") [], .control 1 (.other "layout") [],
    .control 1 (.pong 4) [], .nextReady false prepares {}, .effect (.discardCompleted key),
    .finishJob fun work => Fin.ofNat (work.source.length + 1) 3,
    .poll .all true fun work => Fin.ofNat (work.source.length + 1) 3,
    .nextReady true prepares {}, .nextReady true prepares {}, .nextReady true {} {}]

theorem fence_keeps_order_resize :
    let run := following (fun _ => 0) fencedActions
    Occurrence.execution.transcript 1 run.trace =
        [.resize 7 false 1 "80x24", .other "layout"] ∧
      run.server.media.clientBarriers 1 = none := by
  intro run
  have roomy : AllRoomy (fun _ => 0) {} fencedActions := by decide +kernel
  have reached : (runs fun _ => 0).ReachableWhen (Roomy fun _ => 0) run :=
    reachable_of_roomy (.initial rfl) fencedActions roomy
  have fence := fence_keeps_order reached
  have order := (fence.1 1).1 (by decide +kernel)
  have queued : ServerEvent.fenced.transcript 1 run.server.events.values = [] := by
    decide +kernel
  have received : Occurrence.receipt.transcript 1 run.trace =
      [.resize 7 false 1 "80x24", .other "layout"] := by decide +kernel
  have counted := fence.2.1 1 (by decide +kernel)
  rw [queued, List.append_nil, received] at order
  rw [queued] at counted
  exact ⟨order, counted⟩

end IngressRun

end Rozi
