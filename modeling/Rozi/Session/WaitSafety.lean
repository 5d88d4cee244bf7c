import Rozi.Library.Checks
import Rozi.Session.WaitRun

/-!
Every step keeps the server's waits in agreement with what the log says of them.
-/

namespace Rozi

namespace AgentWaits

variable {server next : Server} {log : List Event} {key : WaitKey}

section steps

theorem Sound.update (sound : Sound server log) (key : WaitKey) {event : Event}
    (here : justifies log event) (kept : next.agentWaits.lookup key = none →
      heldAt key (log ++ [event]) = none)
    (tracked : ∀ wait, next.agentWaits.lookup key = some wait →
      ∃ held, heldAt key (log ++ [event]) = some held ∧ Agrees key held wait)
    (others : ∀ other, other ≠ key →
      next.agentWaits.lookup other = server.agentWaits.lookup other ∧
        heldAt other (log ++ [event]) = heldAt other log) :
    Sound next (log ++ [event]) where
  justified := sound.justified.snoc here
  tracked := by
    intro other
    by_cases same : other = key
    · subst same
      cases shown : next.agentWaits.lookup other with
      | none => exact kept shown
      | some wait => exact tracked wait shown
    · rw [(others other same).1, (others other same).2]
      exact sound.tracked other

theorem Sound.held (sound : Sound server log) {wait : PendingAgentWait}
    (shown : server.agentWaits.lookup key = some wait) :
    ∃ held, heldAt key log = some held ∧ Agrees key held wait := by
  have tracked := sound.tracked key
  rw [shown] at tracked
  exact tracked

theorem Sound.unheld (sound : Sound server log) (free : key ∉ server.agentWaits) :
    heldAt key log = none := by
  have tracked := sound.tracked key
  rw [AList.lookup_eq_none.mpr free] at tracked
  exact tracked

theorem Sound.change (sound : Sound server log) (panes : PaneMap) :
    Sound { server with panes } log :=
  ⟨sound.justified, sound.tracked⟩

theorem Sound.register (sound : Sound server log) (free : key ∉ server.agentWaits)
    {asked : Asked} {wait : PendingAgentWait} (meets : Meets server.panes asked wait)
    (agrees : Agrees key (.begin wait server.panes) wait) :
    Sound { server with agentWaits := server.agentWaits.insert key wait }
      (log ++ [.registered key asked wait server.panes]) := by
  refine sound.update key ⟨sound.unheld free, meets⟩ ?_ ?_ ?_
  · simp
  · intro other shown
    simp only [AList.lookup_insert, Option.some.injEq] at shown
    subst shown
    exact ⟨_, by simp [heldAt_snoc, Held.after], agrees⟩
  · intro other different
    exact ⟨AList.lookup_insert_ne different,
      by simp [heldAt_snoc, Held.after, Ne.symm different]⟩

theorem Sound.evaluate (sound : Sound server log) {wait : PendingAgentWait}
    (shown : server.agentWaits.lookup key = some wait) :
    Sound { server with agentWaits := server.agentWaits.insert key (wait.review server.panes).1 }
      (log ++ [.evaluated key server.panes]) := by
  rcases sound.held shown with ⟨held, known, agrees⟩
  refine sound.update key ?_ ?_ ?_ ?_
  · simp [justifies, known]
  · simp
  · intro other found
    simp only [AList.lookup_insert, Option.some.injEq] at found
    subst found
    exact ⟨held.evaluate server.panes, by simp [heldAt_snoc, Held.after, known],
      agrees.review server.panes⟩
  · intro other different
    exact ⟨AList.lookup_insert_ne different,
      by simp [heldAt_snoc, Held.after, Ne.symm different]⟩

theorem Sound.close (sound : Sound server log) (key : WaitKey) {event : Event} (here : justifies log event)
    (closes : ∀ other held, Held.after other held event = if key = other then none else held) :
    Sound { server with agentWaits := server.agentWaits.erase key } (log ++ [event]) := by
  refine sound.update key here ?_ ?_ ?_
  · intro _
    simp [heldAt_snoc, closes]
  · intro wait shown
    simp at shown
  · intro other different
    exact ⟨AList.lookup_erase_ne different, by simp [heldAt_snoc, closes, Ne.symm different]⟩

end steps

section removal

theorem lookup_removeAgentWaits (client : ClientId) (key : WaitKey) :
    (server.removeAgentWaits client).agentWaits.lookup key =
      if key.1 = client then none else server.agentWaits.lookup key := by
  have member : ∀ wait, (server.removeAgentWaits client).agentWaits.lookup key = some wait ↔
      key.1 ≠ client ∧ server.agentWaits.lookup key = some wait := by
    intro wait
    rw [← Option.mem_def, ← Option.mem_def, AList.mem_lookup_iff, AList.mem_lookup_iff]
    simp [Server.removeAgentWaits, and_comm]
  split_ifs with same
  · cases shown : (server.removeAgentWaits client).agentWaits.lookup key with
    | none => rfl
    | some wait => exact absurd same ((member wait).mp shown).1
  · ext wait
    exact (member wait).trans (and_iff_right same)

theorem Sound.remove (sound : Sound server log) (client : ClientId) :
    Sound (server.removeAgentWaits client) (log ++ [.removed client]) where
  justified := sound.justified.snoc trivial
  tracked := by
    intro key
    rw [lookup_removeAgentWaits, heldAt_snoc]
    by_cases same : key.1 = client
    · simp [Held.after, same, Tracked]
    · simp only [Held.after, same, if_false]
      exact sound.tracked key

end removal

def Completed (server : Server) (log : List Event) (completed : WaitKey × WaitEvaluation) : Prop :=
  ∃ wait held, server.agentWaits.lookup completed.1 = some wait ∧
    heldAt completed.1 log = some held ∧ Agrees completed.1 held wait ∧
    Due server.panes held completed.2

section resolve

structure Untouched (server next : Server) (log more : List Event) (key : WaitKey) : Prop where
  waits : next.agentWaits.lookup key = server.agentWaits.lookup key
  held : heldAt key more = heldAt key log

theorem Completed.untouched {completed : WaitKey × WaitEvaluation} {more : List Event}
    (due : Completed server log completed) (panes : next.panes = server.panes)
    (same : Untouched server next log more completed.1) : Completed next more completed := by
  rcases due with ⟨wait, held, shown, known, agrees, due⟩
  exact ⟨wait, held, same.waits.trans shown, same.held.trans known, agrees, panes ▸ due⟩

structure Reviewed (server next : Server) (log more : List Event) (keys : List WaitKey)
    (completed : List (WaitKey × WaitEvaluation)) : Prop where
  sound : Sound next more
  panes : next.panes = server.panes
  ordered : (completed.map Prod.fst).Sublist keys
  due : ∀ entry ∈ completed, Completed next more entry
  others : ∀ other, other ∉ keys → Untouched server next log more other

theorem Sound.reviewWait (sound : Sound server log) (present : key ∈ server.agentWaits) :
    Reviewed server (server.reviewWait key).2 log (log ++ [.evaluated key server.panes]) [key]
      (server.reviewWait key).1 := by
  rcases Option.isSome_iff_exists.mp (AList.lookup_isSome.mpr present) with ⟨wait, shown⟩
  rcases sound.held shown with ⟨held, known, agrees⟩
  have evaluated := sound.evaluate shown
  simp only [Server.reviewWait, shown]
  refine ⟨evaluated, rfl, ?_, ?_, ?_⟩
  · split_ifs <;> simp
  · intro entry member
    split_ifs at member with pending
    · cases member
    · cases List.mem_singleton.mp member
      exact ⟨(wait.review server.panes).1, held.evaluate server.panes, AList.lookup_insert _,
        by simp [heldAt_snoc, Held.after, known], agrees.review _, agrees.due pending⟩
  · intro other different
    have apart : other ≠ key := by simpa using different
    exact ⟨AList.lookup_insert_ne apart, by simp [heldAt_snoc, Held.after, Ne.symm apart]⟩

theorem Sound.reviewWaits {keys : List WaitKey} (sound : Sound server log) (distinct : keys.Nodup)
    (present : ∀ key ∈ keys, key ∈ server.agentWaits) :
    Reviewed server (server.reviewWaits keys).2 log
      (log ++ keys.map (Event.evaluated · server.panes)) keys (server.reviewWaits keys).1 := by
  induction keys generalizing server log with
  | nil =>
      refine ⟨by simpa [Server.reviewWaits] using sound, rfl, List.Sublist.refl _, ?_, ?_⟩
      · intro entry member
        cases member
      · intro other _
        exact ⟨rfl, by simp⟩
  | cons key keys ih =>
      have first := sound.reviewWait (present key (by simp))
      have distinct := List.nodup_cons.mp distinct
      have still : ∀ other ∈ keys, other ∈ (server.reviewWait key).2.agentWaits := by
        intro other member
        have apart : other ∉ [key] := by
          intro same
          cases List.mem_singleton.mp same
          exact distinct.1 member
        rw [← AList.lookup_isSome, (first.others other apart).waits, AList.lookup_isSome]
        exact present other (List.mem_cons_of_mem _ member)
      have rest := ih first.sound distinct.2 still
      have events : log ++ (key :: keys).map (Event.evaluated · server.panes) =
          log ++ [.evaluated key server.panes] ++
            keys.map (Event.evaluated · (server.reviewWait key).2.panes) := by
        simp [first.panes]
      rw [events]
      simp only [Server.reviewWaits]
      refine ⟨rest.sound, rest.panes.trans first.panes, ?_, ?_, ?_⟩
      · rw [List.map_append]
        exact first.ordered.append rest.ordered
      · intro entry member
        rcases List.mem_append.mp member with early | late
        · have named : entry.1 = key :=
            List.mem_singleton.mp (first.ordered.subset (List.mem_map_of_mem early))
          exact (first.due entry early).untouched rest.panes
            (rest.others entry.1 (named ▸ distinct.1))
        · exact rest.due entry late
      · intro other apart
        have early := first.others other fun same =>
          apart (List.mem_cons.mpr (.inl (List.mem_singleton.mp same)))
        have late := rest.others other fun member => apart (List.mem_cons_of_mem _ member)
        exact ⟨late.waits.trans early.waits, late.held.trans early.held⟩

end resolve

section finish

theorem agentWaitResponse_answers {panes : PaneMap} (condition : AgentWaitCondition)
    {agent : Option AgentRuntime} (render : Option CaptureRender) (reference : Option AgentRef)
    (present : ∀ runtime, agent = some runtime → Present panes runtime) :
    ∃ response, agentWaitResponse panes condition agent render reference = some response ∧
      ∀ answer, response = .ok answer → ∃ result, answer = .waited result ∧
        result.condition = condition ∧ result.agent = agent ∧ result.reference = reference := by
  unfold agentWaitResponse
  split
  · next render runtime =>
      rcases present runtime rfl with ⟨pane, shown, _⟩
      simp only [shown, Option.map_some, Option.some.injEq, exists_eq_left']
      intro answer given
      cases drawn : pane.captureScreen render with
      | error => simp [drawn, bind, Except.bind] at given
      | ok content =>
          simp only [drawn, bind, Except.bind, pure, Except.pure, Except.ok.injEq] at given
          exact ⟨_, given.symm, rfl, rfl, rfl⟩
  · refine ⟨_, rfl, ?_⟩
    intro answer given
    cases given
    exact ⟨_, rfl, rfl, rfl, rfl⟩

theorem Completed.answers {completed : WaitKey × WaitEvaluation}
    (due : Completed server log completed) :
    ∃ wait response, server.agentWaits.lookup completed.1 = some wait ∧
      server.completedResponse wait completed.2 = some (some response) ∧
      wait.reply.holdId = completed.1.2 ∧
      justifies log (.answered completed.1 server.panes response) := by
  rcases completed with ⟨key, evaluation⟩
  rcases due with ⟨wait, held, shown, known, agrees, due⟩
  cases evaluation with
  | pending => exact due.elim
  | error code message =>
      exact ⟨wait, refuse code message, shown, rfl, agrees.reply, held, known, trivial⟩
  | ready agent =>
      have present : ∀ runtime, agent = some runtime → Present server.panes runtime := by
        intro runtime here
        have about := due ⟨held.subject.reference, held.condition, none, agent⟩ rfl rfl rfl
        exact (about.1.accepted runtime here).2.1
      rcases agentWaitResponse_answers wait.until_ wait.capture wait.subject.reference present with
        ⟨response, given, answered⟩
      refine ⟨wait, response, shown, by simp [Server.completedResponse, given], agrees.reply,
        held, known, ?_⟩
      cases response with
      | error => trivial
      | ok answer =>
          rcases answered answer rfl with ⟨result, rfl, asked, about, named⟩
          exact due result (asked.trans agrees.condition) about
            (named.trans (congrArg WaitSubject.reference agrees.subject))

theorem Sound.finishAgentWaits {completed : List (WaitKey × WaitEvaluation)}
    (sound : Sound server log) (distinct : (completed.map Prod.fst).Nodup)
    (due : ∀ entry ∈ completed, Completed server log entry) :
    ∃ answers next, server.finishAgentWaits completed = some (answers, next) ∧
      Sound next (log ++ answers.map (answerEvent server.panes)) ∧ next.panes = server.panes := by
  induction completed generalizing server log with
  | nil => exact ⟨[], server, rfl, by simpa using sound, rfl⟩
  | cons entry completed ih =>
      rcases (due entry (by simp)).answers with ⟨wait, response, shown, given, reply, here⟩
      rcases entry with ⟨key, evaluation⟩
      have distinct := List.nodup_cons.mp distinct
      have closed := sound.close key here fun _ _ => rfl
      have rest : ∀ other ∈ completed,
          Completed { server with agentWaits := server.agentWaits.erase key }
            (log ++ [.answered key server.panes response]) other := by
        intro other member
        have apart : other.1 ≠ key := by
          intro same
          exact distinct.1 (List.mem_map.mpr ⟨other, member, same⟩)
        exact (due other (List.mem_cons_of_mem _ member)).untouched rfl
          ⟨AList.lookup_erase_ne apart, by simp [heldAt_snoc, Held.after, Ne.symm apart]⟩
      rcases ih closed distinct.2 rest with ⟨answers, next, finished, sound, panes⟩
      let answer : HeldAnswer := { client := key.1, reply := wait.reply, response }
      have event : answerEvent server.panes answer = .answered key server.panes response := by
        simp only at reply
        simp [answerEvent, answer, reply]
      refine ⟨answer :: answers, next, ?_, ?_, panes⟩
      · simp only at shown given
        simp [Server.finishAgentWaits, shown, given, finished, answer]
      · simpa [event] using sound

theorem Sound.resolve {keys : List WaitKey} (sound : Sound server log)
    (iterated : keys.Perm server.agentWaits.keys) :
    ∃ answers next, server.resolveAgentWaits keys = some (answers, next) ∧
      Sound next (log ++ keys.map (Event.evaluated · server.panes) ++
        answers.map (answerEvent next.panes)) := by
  have distinct : keys.Nodup := iterated.nodup_iff.mpr (AList.keys_nodup _)
  have reviewed := sound.reviewWaits distinct fun key member =>
    AList.mem_keys.mpr (iterated.mem_iff.mp member)
  rcases reviewed.sound.finishAgentWaits (reviewed.ordered.nodup distinct) reviewed.due with
    ⟨answers, next, finished, sound, panes⟩
  refine ⟨answers, next, finished, ?_⟩
  rw [panes]
  exact sound

theorem expired_keys (now : Instant) (keys : List WaitKey) :
    ((server.expired now keys).map Prod.fst).Sublist keys := by
  induction keys with
  | nil => exact List.Sublist.refl _
  | cons key keys ih =>
      unfold Server.expired at ih ⊢
      rw [List.filterMap_cons]
      split
      · exact ih.cons _
      · next entry found =>
          cases shown : server.agentWaits.lookup key with
          | none => simp [shown] at found
          | some wait =>
              simp only [shown, Option.bind_eq_bind, Option.bind_some] at found
              split_ifs at found
              cases found
              exact ih.cons_cons key

theorem Sound.expire {keys : List WaitKey} (sound : Sound server log) (now : Instant)
    (iterated : keys.Perm server.agentWaits.keys) :
    ∃ answers next, server.expireAgentWaits now keys = some (answers, next) ∧
      Sound next (log ++ answers.map (answerEvent next.panes)) := by
  have distinct : keys.Nodup := iterated.nodup_iff.mpr (AList.keys_nodup _)
  have due : ∀ entry ∈ server.expired now keys, Completed server log entry := by
    intro entry member
    rcases List.mem_filterMap.mp member with ⟨key, _, found⟩
    cases shown : server.agentWaits.lookup key with
    | none => simp [shown] at found
    | some wait =>
        simp only [shown, Option.bind_eq_bind, Option.bind_some] at found
        split_ifs at found
        cases found
        rcases sound.held shown with ⟨held, known, agrees⟩
        exact ⟨wait, held, shown, known, agrees, trivial⟩
  rcases sound.finishAgentWaits ((expired_keys now keys).nodup distinct) due with
    ⟨answers, next, finished, sound, panes⟩
  exact ⟨answers, next, finished, panes ▸ sound⟩

end finish

section requests

variable (now : Instant) (client : ClientId) (condition : AgentWaitCondition)
  (timeoutMs : Option Nat) (reply : ReplyTo)

/-- What a request for a wait comes to: a response that speaks of the agent it asked for, with
nothing held, or a wait for it that is held. -/
def Requested (server : Server) (key : WaitKey) (asked : Asked) :
    Option Response × Server → Prop
  | (some response, next) => next = server ∧ justifies [] (.replied asked server.panes response)
  | (none, next) => ∃ wait, Meets server.panes asked wait ∧ wait.reply.holdId = key.2 ∧
      next = { server with agentWaits := server.agentWaits.insert key wait }

variable {target : AgentTarget}

/-- `named` says that the subject is still what the target names once it was evaluated. -/
theorem registerSubject_requested {subject : WaitSubject}
    (named : target.Names server.panes (evaluateWaitSubject server.panes subject condition).1) :
    Requested server (client, reply.holdId) ⟨target, condition, false⟩
      (server.registerSubject now client subject condition timeoutMs reply) := by
  simp only [Server.registerSubject]
  split
  · next agent ready =>
      exact ⟨rfl, _, named, evaluateWaitSubject_ready _ ready ⟨rfl, rfl, rfl⟩⟩
  · exact ⟨rfl, trivial⟩
  · exact ⟨_, ⟨named, rfl, rfl⟩, rfl, rfl⟩

theorem resolveAgentWaitTarget_ref {panes : PaneMap} {instanceId : String}
    {reference resolved : AgentRef}
    (found : resolveAgentWaitTarget panes instanceId (.ref reference) = .ok resolved) :
    resolved = reference := by
  unfold resolveAgentWaitTarget at found
  simp only at found
  by_cases foreign : reference.pane.sessionInstance ≠ instanceId
  · rw [if_pos foreign] at found
    cases found
  rw [if_neg foreign] at found
  cases shown : panes.lookup reference.pane.paneId with
  | none =>
      rw [shown] at found
      cases found
  | some pane =>
      simp only [shown] at found
      by_cases replaced : pane.generation ≠ reference.pane.generation
      · rw [if_pos replaced] at found
        cases found
      rw [if_neg replaced] at found
      cases named : runtimeOf pane reference with
      | none =>
          rw [named] at found
          cases found
      | some runtime =>
          simp only [named, Except.ok.injEq] at found
          exact found.symm.trans (runtimeOf_eq_some named).2

theorem resolveAgentWaitTarget_names {panes : PaneMap} {instanceId : String}
    {resolved : AgentRef}
    (found : resolveAgentWaitTarget panes instanceId target = .ok resolved) :
    target.Names panes (.agent resolved) := by
  cases target with
  | ref reference => exact congrArg WaitSubject.agent (resolveAgentWaitTarget_ref found)
  | pane paneId =>
      unfold resolveAgentWaitTarget at found
      simp only at found
      cases shown : panes.lookup paneId with
      | none =>
          rw [shown] at found
          cases found
      | some pane =>
          simp only [shown] at found
          cases one : paneAgent pane.runtimes pane.rows with
          | one runtime =>
              simp only [one, Except.ok.injEq] at found
              exact ⟨pane, shown, .inl ⟨runtime, one, by rw [found]⟩⟩
          | missing =>
              rw [one] at found
              cases found
          | noneOnScreen =>
              rw [one] at found
              cases found

theorem paneAwaitsAgent_names {panes : PaneMap} {paneId : PaneId}
    (waiting : paneAwaitsAgent panes paneId = true) :
    ∃ generation, (panes.lookup paneId).elim 0 ServerPane.generation = generation ∧
      AgentTarget.Names panes (.pane paneId) (.pane paneId generation) ∧
      (evaluateWaitSubject panes (.pane paneId generation) condition).1 =
        .pane paneId generation := by
  unfold paneAwaitsAgent at waiting
  cases shown : panes.lookup paneId with
  | none =>
      rw [shown] at waiting
      cases waiting
  | some pane =>
      simp only [shown, Option.any_some, Bool.and_eq_true, Option.isNone_iff_eq_none,
        List.isEmpty_iff] at waiting
      refine ⟨pane.generation, rfl, ⟨pane, shown, .inr ⟨waiting.1, waiting.2, rfl⟩⟩, ?_⟩
      have kept : (some pane).filter (fun other : ServerPane =>
          decide (other.generation = pane.generation) && other.exited.isNone) = some pane := by
        simp [Option.filter, waiting.1]
      have none' : paneAgent pane.runtimes pane.rows = .missing := by
        simp [paneAgent, waiting.2]
      simp only [evaluateWaitSubject, shown, kept, none']

theorem registerAgentWait_requested (target : AgentTarget) :
    Requested server (client, reply.holdId) ⟨target, condition, false⟩
      (server.registerAgentWait now client target condition timeoutMs reply) := by
  have resolved : ∀ reference,
      resolveAgentWaitTarget server.panes server.instanceId target = .ok reference →
      Requested server (client, reply.holdId) ⟨target, condition, false⟩
        (server.registerSubject now client (.agent reference) condition timeoutMs reply) :=
    fun reference found => registerSubject_requested now client condition timeoutMs reply
      (resolveAgentWaitTarget_names found)
  unfold Server.registerAgentWait
  by_cases turn : condition = .turn
  · rw [if_pos turn]
    exact ⟨rfl, trivial⟩
  rw [if_neg turn]
  cases target with
  | ref reference =>
      by_cases gone : condition = .gone
      · simp only [gone, if_true]
        by_cases foreign : reference.pane.sessionInstance ≠ server.instanceId
        · rw [if_pos foreign]
          exact ⟨rfl, trivial⟩
        · rw [if_neg foreign]
          exact registerSubject_requested now client .gone timeoutMs reply rfl
      · simp only [gone, if_false]
        cases found : resolveAgentWaitTarget server.panes server.instanceId (.ref reference) with
        | ok reference => exact resolved reference found
        | error error => exact ⟨rfl, trivial⟩
  | pane paneId =>
      by_cases waiting : paneAwaitsAgent server.panes paneId = true
      · rcases paneAwaitsAgent_names condition waiting with ⟨generation, same, names, stays⟩
        simp only [waiting, if_true]
        by_cases gone : condition = .gone
        · rw [if_pos gone]
          refine ⟨rfl, .pane paneId generation, names, rfl, rfl, ?_, ?_⟩
          · simp
          · exact fun _ => ⟨gone, by simp⟩
        · rw [if_neg gone, same]
          refine registerSubject_requested now client condition timeoutMs reply ?_
          rw [stays]
          exact names
      · simp only [waiting, Bool.false_eq_true, if_false]
        cases found : resolveAgentWaitTarget server.panes server.instanceId (.pane paneId) with
        | ok reference => exact resolved reference found
        | error error => exact ⟨rfl, trivial⟩

/-- Registration after a prompt starts from what it finds: refuted, or in a state to depart from. -/
theorem registerPostPromptWait_agrees {reference : AgentRef} {capture : Option CaptureRender}
    (registered : server.registerPostPromptWait now client reference condition timeoutMs capture
      reply = .ok next) :
    ∃ wait, (wait.subject = .agent reference ∧ wait.until_ = condition ∧
        wait.requireTransition = true) ∧
      next = { server with agentWaits := server.agentWaits.insert (client, reply.holdId) wait } ∧
      Agrees (client, reply.holdId) (.begin wait server.panes) wait := by
  unfold Server.registerPostPromptWait at registered
  simp only at registered
  cases evaluated : evaluateAgentWait server.panes reference condition with
  | error code message =>
      rw [evaluated] at registered
      cases registered
  | pending =>
      simp only [evaluated, Except.ok.injEq] at registered
      refine ⟨_, ⟨rfl, rfl, rfl⟩, registered.symm, rfl, rfl, rfl, rfl, ?_, ?_⟩
      · intro _ _
        simp [Held.begin, evaluateWaitSubject, evaluated]
      · intro _
        exact .inl (by simp [Held.begin, evaluateWaitSubject, evaluated])
  | ready agent =>
      simp only [evaluated, Except.ok.injEq] at registered
      refine ⟨_, ⟨rfl, rfl, rfl⟩, registered.symm, rfl, rfl, rfl, rfl, ?_, ?_⟩
      · intro _ armed
        cases armed
      · intro _
        refine .inr ?_
        intro turn
        rcases evaluateAgentWait_ready evaluated with
          ⟨runtime, rfl, _, _, _, shown⟩ | ⟨_, gone, _⟩
        · exact ⟨runtime.state, rfl, shown⟩
        · exact absurd (turn.symm.trans gone) (by decide)

end requests

section runs

theorem Sound.heldEvent (sound : Sound server log) (free : key ∉ server.agentWaits)
    {asked : Asked} {wait : PendingAgentWait} (meets : Meets server.panes asked wait)
    (agrees : Agrees key (.begin wait server.panes) wait) :
    Sound { server with agentWaits := server.agentWaits.insert key wait }
      (log ++ heldEvent
        { server with agentWaits := server.agentWaits.insert key wait } key asked) := by
  have registered := sound.register free meets agrees
  simpa [AgentWaits.heldEvent] using registered

theorem Sound.requested (sound : Sound server log) (free : key ∉ server.agentWaits)
    {target : AgentTarget} {condition : AgentWaitCondition} {outcome : Option Response × Server}
    (requested : Requested server key ⟨target, condition, false⟩ outcome) :
    Sound outcome.2 (log ++ waitEvents outcome.2 key ⟨target, condition, false⟩ outcome.1) := by
  rcases outcome with ⟨response, next⟩
  cases response with
  | some response =>
      rcases requested with ⟨rfl, here⟩
      refine ⟨sound.justified.snoc here, ?_⟩
      intro other
      rw [waitEvents, heldAt_snoc]
      exact sound.tracked other
  | none =>
      rcases requested with ⟨wait, meets, held, rfl⟩
      refine sound.heldEvent free meets ⟨rfl, rfl, rfl, held, ?_, ?_⟩ <;>
        simp [Held.begin, meets.prompted]

theorem prepareAgentPrompt_ok {request : AgentPrompt} {outcomes : PromptOutcomes}
    {reference : AgentRef} (prepared : server.prepareAgentPrompt request outcomes = .ok reference) :
    request.target.Names server.panes (.agent reference) := by
  unfold Server.prepareAgentPrompt at prepared
  simp only [Checks.bind_eq_ok] at prepared
  rcases prepared with ⟨_, _, checked⟩
  split_ifs at checked
  · cases checked
  simp only [Checks.bind_eq_ok] at checked
  rcases checked with ⟨_, _, resolved, found, _, _, rest⟩
  have same : resolved = reference := by
    cases shown : server.panes.lookup resolved.pane.paneId with
    | none =>
        rw [shown] at rest
        cases rest
    | some pane =>
        simp only [shown] at rest
        cases named : runtimeOf pane resolved with
        | none =>
            rw [named] at rest
            cases rest
        | some runtime =>
            simp only [named, Checks.bind_eq_ok, Checks.pure_eq_ok] at rest
            rcases rest with ⟨_, _, same⟩
            exact same
  exact same ▸ resolveAgentWaitTarget_names found

theorem armAgentPrompt_ok {now : Instant} {client : ClientId} {request : AgentPrompt}
    {outcomes : PromptOutcomes} {reply : ReplyTo} {reference : AgentRef}
    (armed : server.armAgentPrompt now client request outcomes reply = .ok (reference, next)) :
    request.target.Names server.panes (.agent reference) ∧
      server.armPromptWait now client reference request reply = .ok next := by
  unfold Server.armAgentPrompt at armed
  simp only [bind, Except.bind, pure, Except.pure] at armed
  cases prepared : server.prepareAgentPrompt request outcomes with
  | error =>
      rw [prepared] at armed
      cases armed
  | ok resolved =>
      simp only [prepared] at armed
      cases dialog : outcomes.dialog with
      | error =>
          rw [dialog] at armed
          cases armed
      | ok =>
          simp only [dialog] at armed
          cases encoded : outcomes.encoded with
          | error =>
              rw [encoded] at armed
              cases armed
          | ok =>
              simp only [encoded] at armed
              cases held : server.armPromptWait now client resolved request reply with
              | error =>
                  rw [held] at armed
                  cases armed
              | ok holding =>
                  simp only [held, Except.ok.injEq, Prod.mk.injEq] at armed
                  rcases armed with ⟨rfl, rfl⟩
                  exact ⟨prepareAgentPrompt_ok prepared, held⟩

theorem Sound.prompt (sound : Sound server log) (now : Instant) (client : ClientId)
    (request : AgentPrompt) (outcomes : PromptOutcomes) (reply : ReplyTo)
    (free : (client, reply.holdId) ∉ server.agentWaits) :
    Sound (server.registerAgentPrompt now client request outcomes reply).2
      (log ++ promptEvents (client, reply.holdId) request outcomes.written
        (server.armAgentPrompt now client request outcomes reply)) := by
  unfold Server.registerAgentPrompt
  cases armed : server.armAgentPrompt now client request outcomes reply with
  | error => simpa [promptEvents] using sound
  | ok outcome =>
      rcases outcome with ⟨reference, holding⟩
      rcases armAgentPrompt_ok armed with ⟨names, held⟩
      unfold Server.armPromptWait at held
      cases asked : request.wait with
      | none =>
          simp only [asked, Except.ok.injEq] at held
          subst held
          cases outcomes.written with
          | ok => simpa [promptEvents, asked] using sound
          | error =>
              -- Nothing is held under the key, so there is nothing to take back.
              have same : server.agentWaits.erase (client, reply.holdId) = server.agentWaits := by
                apply AList.ext
                exact List.kerase_of_notMem_keys free
              simpa [promptEvents, asked, same] using sound
      | some condition =>
          simp only [asked] at held
          rcases registerPostPromptWait_agrees now client condition _ reply held with
            ⟨wait, ⟨subject, until', prompted⟩, rfl, agrees⟩
          have meets : Meets server.panes ⟨request.target, condition, true⟩ wait :=
            ⟨subject ▸ names, until', prompted⟩
          have registered := sound.heldEvent free meets agrees
          cases outcomes.written with
          | ok => simpa [promptEvents, asked] using registered
          | error =>
              have known : heldAt (client, reply.holdId) (log ++ AgentWaits.heldEvent
                  { server with
                    agentWaits := server.agentWaits.insert (client, reply.holdId) wait }
                  (client, reply.holdId) ⟨request.target, condition, true⟩) = some (.begin wait server.panes) := by
                simp [AgentWaits.heldEvent, heldAt_snoc, Held.after]
              have taken : justifies (log ++ AgentWaits.heldEvent
                  { server with
                    agentWaits := server.agentWaits.insert (client, reply.holdId) wait }
                  (client, reply.holdId) ⟨request.target, condition, true⟩) (.withdrawn (client, reply.holdId)) :=
                ⟨_, known, prompted⟩
              have withdrawn := registered.close (client, reply.holdId) taken fun _ _ => rfl
              simpa [promptEvents, asked] using withdrawn

theorem Sound.perform {run : Run} (sound : Sound run.server run.log) {label : Label}
    (iterated : label.iterates run) (fresh : label.fresh run) :
    ∃ after, run.perform label = some after ∧ Sound after.server after.log := by
  cases label with
  | change panes => exact ⟨_, rfl, sound.change panes⟩
  | wait now client target condition timeoutMs reply =>
      exact ⟨_, rfl, sound.requested fresh
        (registerAgentWait_requested now client condition timeoutMs reply target)⟩
  | prompt now client request outcomes reply =>
      exact ⟨_, rfl, sound.prompt now client request outcomes reply fresh⟩
  | resolve keys =>
      rcases sound.resolve iterated with ⟨answers, next, finished, kept⟩
      refine ⟨⟨next, _⟩, ?_, kept⟩
      simp [Run.perform, finished]
  | expire now keys =>
      rcases sound.expire now iterated with ⟨answers, next, finished, kept⟩
      refine ⟨⟨next, _⟩, ?_, kept⟩
      simp [Run.perform, finished]
  | remove client => exact ⟨_, rfl, sound.remove client⟩

theorem sound_of_reachable {run : Run}
    (reached : waitRuns.ReachableWhen (fun run label => label.fresh run) run) :
    Sound run.server run.log := by
  apply reached.invariant
  · rintro ⟨server, log⟩ ⟨none, rfl⟩
    refine ⟨Justified.nil, ?_⟩
    intro key
    simp only at none
    rw [none]
    rfl
  · rintro run label next sound fresh ⟨iterated, moved⟩
    rcases sound.perform iterated fresh with ⟨after, performed, kept⟩
    cases moved.symm.trans performed
    exact kept

end runs

end AgentWaits

end Rozi
