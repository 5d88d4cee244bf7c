import Rozi.Session.BrowseInvariant

/-!
A listing is never older than the request it answers, whatever becomes of the requests of a key
between the map, the worker and its results.
-/

namespace Rozi.Browse

variable {E F : Type} {encodes : ServerMessage E F → Bool} {server : Server E F}

section request

variable {request : BrowseRequest}

theorem Server.Sound.hire (sound : server.Sound encodes) (fresh : BrowseWorker)
    (empty : fresh.jobs = [] ∧ fresh.running = none) :
    ({ server with browseWorker := some (server.browseWorker.getD fresh) } : Server E F).Sound
      encodes := by
  cases working : server.browseWorker with
  | some worker =>
      have same : ({ server with browseWorker := some ((some worker).getD fresh) } : Server E F) =
          server := by
        rw [Option.getD_some, ← working]
      rw [same]
      exact sound
  | none =>
      have absent : ∀ key, server.browseInFlight.lookup key = none := by
        intro key
        cases found : server.browseInFlight.lookup key with
        | none => rfl
        | some state =>
            rcases sound.started key state found with ⟨worker, same, _⟩
            rw [working] at same
            cases same
      have jobs : ({ server with browseWorker := some fresh } : Server E F).outstanding =
          server.outstanding := by
        simp [Server.outstanding, working, empty.1, empty.2]
      refine ⟨{ sound.toSteady with started := ?_, given := ?_ }, ?_⟩
      · intro key state found
        rw [absent key] at found
        cases found
      · intro number member
        rcases sound.given number member with ⟨worker, same, _⟩
        rw [working] at same
        cases same
      · intro key
        refine (sound.tracks key).frame rfl ?_ .inl (List.append_nil _).symm
          fun _ member => absurd member List.not_mem_nil
        rw [Option.getD_none, Server.jobsFor, jobs]
        exact List.Perm.refl _

theorem Server.Sound.again (sound : server.Sound encodes) {state : BrowseState}
    (found : server.browseInFlight.lookup request.key = some state)
    (out : state.submitted = true) :
    ((server.log (.accepted request)).put request.key
      { state with rerun := some request }).Sound encodes := by
  have answers : Answers encodes server.history (.accepted request) := trivial
  have steady := sound.toSteady.log answers nofun rfl
  have tracks := sound.tracks request.key
  unfold Server.Tracks at tracks
  rw [found] at tracks
  rcases tracks with ⟨own, _, member, _, jobs⟩
  refine ⟨{ steady with started := ?_, within := sound.within.replace found rfl }, ?_⟩
  · intro other held kept
    rw [put_lookup] at kept
    split_ifs at kept with same
    · exact sound.started request.key state found
    · exact sound.started other held kept
  · intro other
    by_cases same : other = request.key
    · unfold Server.Tracks
      rw [put_lookup, if_pos same, same]
      refine ⟨own, ?_, member.imp id (List.mem_append_left _), ?_, ?_⟩
      · intro again member
        cases member
        rfl
      · intro _
        change latest request.key (server.history ++ [.accepted request]) = some request
        rw [latest_snoc]
        exact if_pos rfl
      · rw [if_pos out] at jobs ⊢
        rcases jobs with ⟨job, only, named, _⟩
        exact ⟨job, only, named, fun _ none => absurd none (by simp)⟩
    · refine (sound.tracks other).frame ?_ (List.Perm.refl _) .inl rfl ?_
      · rw [put_lookup, if_neg same]
        rfl
      · intro happened member own
        rw [List.mem_singleton.mp member] at own
        exact same own.symm

theorem Server.Sound.requestBrowse (sound : server.Sound encodes) (starts : Bool)
    (attached : server.clientAttached request.clientId = true) :
    (server.requestBrowse starts request).2.Sound encodes := by
  have member : server.clientAttached request.key.clientId = true := by
    rw [BrowseRequest.key_clientId]
    exact attached
  unfold Server.requestBrowse
  by_cases long : maxBrowsePathBytes < request.pathLen
  · rw [if_pos long]
    exact sound
  · rw [if_neg long]
    cases found : server.browseInFlight.lookup request.key with
    | some state =>
        simp only
        by_cases out : state.submitted = true
        · rw [if_pos out]
          exact sound.again found out
        · have waits : state.submitted = false := by simpa using out
          rcases sound.apart_of_waiting found waits with ⟨apart, own, single, _⟩
          rcases apart.accept (rfl : request.key = request.key) with ⟨apart, asks⟩
          have shape : { state with request } = (⟨request, none, false⟩ : BrowseState) := by
            rw [← single, ← waits]
          rw [if_neg out, shape]
          refine apart.wait rfl ?_ ?_ (.inl member) fun _ => asks
          · exact sound.started request.key state found
          · refine sound.within.replace found ?_
            rw [← BrowseRequest.key_clientId, ← BrowseRequest.key_clientId, own]
    | none =>
        simp only
        by_cases full : maxBrowsePending ≤ server.browseInFlight.entries.length
        · rw [if_pos full]
          exact sound
        rw [if_neg full]
        by_cases crowded : maxBrowsePendingPerClient ≤ (server.browseInFlight.entries.filter
            fun entry => entry.2.request.clientId == request.clientId).length
        · rw [if_pos crowded]
          exact sound
        rw [if_neg crowded]
        have hired := sound.hire { started := starts } ⟨rfl, rfl⟩
        have apart := hired.apart_of_absent found
        rcases apart.accept (rfl : request.key = request.key) with ⟨apart, asks⟩
        have within : ∀ submitted, Within (server.browseInFlight.insert request.key
            ⟨request, none, submitted⟩) := fun _ =>
          sound.within.add found (Nat.lt_of_not_le full) (Nat.lt_of_not_le crowded)
        cases taken : (server.browseWorker.getD { started := starts }).trySubmit request with
        | ok given => exact apart.give rfl rfl taken (within true) (.inl member) fun _ => asks
        | error error =>
            have kind := trySubmit_error taken
            split_ifs at kind with working
            · rw [kind]
              exact apart.wait rfl ⟨_, rfl, working⟩ (within false) (.inl member) fun _ => asks
            · rw [kind]
              exact hired

theorem Server.Sound.processRequest (sound : server.Sound encodes) (starts : Bool)
    (room : ClientId → Bool) (request : BrowseRequest) :
    (server.processRequest encodes starts room request).Sound encodes := by
  unfold Server.processRequest
  split_ifs with stranger
  · exact sound.refuse room _ _
  · have asked := sound.requestBrowse starts (by simpa using stranger)
    cases answered : server.requestBrowse starts request with
    | mk message next =>
        rw [answered] at asked
        cases message with
        | none => exact asked
        | some message => exact asked.refuse room _ _

end request

section retry

def Server.Waits (server : Server E F) (keys : List BrowseRequestKey) : Prop :=
  ∀ key ∈ keys, ∀ state, server.browseInFlight.lookup key = some state → state.submitted = false

theorem Server.Sound.retryBrowseRequest (sound : server.Sound encodes) (room : ClientId → Bool)
    {key : BrowseRequestKey}
    (waits : ∀ state, server.browseInFlight.lookup key = some state → state.submitted = false) :
    (server.retryBrowseRequest encodes room key).2.Sound encodes ∧
      ∀ other, other ≠ key →
        (server.retryBrowseRequest encodes room key).2.browseInFlight.lookup other =
          server.browseInFlight.lookup other := by
  unfold Server.retryBrowseRequest
  cases found : server.browseInFlight.lookup key with
  | none => exact ⟨sound, fun _ _ => rfl⟩
  | some state =>
      rcases sound.apart_of_waiting found (waits state found) with
        ⟨apart, own, single, member, asks⟩
      have client : state.request.clientId = key.clientId := by
        rw [← own, BrowseRequest.key_clientId]
      simp only
      rw [client]
      by_cases attached : server.clientAttached key.clientId = true
      · rw [attached, Bool.not_true, if_neg Bool.false_ne_true]
        rcases sound.started key state found with ⟨worker, working, started⟩
        rw [working]
        simp only
        cases taken : worker.trySubmit state.request with
        | ok given =>
            have shape : { state with submitted := true } =
                (⟨state.request, none, true⟩ : BrowseState) := by rw [← single]
            simp only
            rw [shape]
            refine ⟨apart.give own working taken ?_ member asks, ?_⟩
            · exact sound.within.replace found rfl
            · intro other different
              rw [put_lookup, if_neg different]
              rfl
        | error error =>
            have kind := trySubmit_error taken
            rw [if_pos started] at kind
            have shape : state = ⟨state.request, none, false⟩ := by
              rw [← single, ← waits state found]
            rw [kind]
            simp only
            refine ⟨?_, ?_⟩
            · have same := apart.wait own ⟨worker, working, started⟩
                (sound.within.replace found rfl) member asks
              rw [← shape] at same
              exact same
            · intro other different
              rw [put_lookup, if_neg different]
      · have gone := member.resolve_left attached
        have stranger : (!server.clientAttached key.clientId) = true := by simpa using attached
        rw [if_pos stranger]
        refine ⟨apart.forget (sound.within.erase key) (absurd gone), ?_⟩
        intro other different
        simp only [AList.lookup_erase_eq, if_neg different]

theorem Server.Sound.retryBrowseRequests (room : ClientId → Bool) {keys : List BrowseRequestKey}
    (distinct : keys.Nodup) (sound : server.Sound encodes) (waits : server.Waits keys) :
    (server.retryBrowseRequests encodes room keys).Sound encodes := by
  induction keys generalizing server with
  | nil => exact sound
  | cons key keys ih =>
      rw [List.nodup_cons] at distinct
      rcases sound.retryBrowseRequest room (waits key List.mem_cons_self) with ⟨next, others⟩
      rw [Server.retryBrowseRequests]
      cases round : server.retryBrowseRequest encodes room key with
      | mk goes after =>
          rw [round] at next others
          cases goes with
          | false => exact next
          | true =>
              refine ih distinct.2 next ?_
              intro other member state found
              have different : other ≠ key := fun same => distinct.1 (same ▸ member)
              exact waits other (List.mem_cons_of_mem _ member) state
                ((others other different).symm.trans found)

theorem pendingBrowse_waits (server : Server E F) :
    server.pendingBrowse.Nodup ∧ server.Waits server.pendingBrowse := by
  constructor
  · exact List.Nodup.sublist (List.filter_sublist.map _) server.browseInFlight.nodupKeys
  · intro key member state found
    rcases List.mem_map.mp member with ⟨entry, listed, same⟩
    rcases List.mem_filter.mp listed with ⟨listed, waiting⟩
    have held : server.browseInFlight.lookup key = some entry.2 := by
      refine AList.mem_lookup_iff.mpr ?_
      rw [← same]
      exact listed
    rw [found] at held
    cases held
    simpa using waiting

end retry

section results

theorem encodes_encodable {message : ServerMessage E F}
    (errors : encodes (.error "browse-result-encode-failed" "browse result could not be encoded")
      = true) : encodes (Server.encodable encodes message) = true := by
  unfold Server.encodable
  split_ifs with whole emptied
  · exact whole
  · exact emptied
  · exact errors

def Server.without (server : Server E F) (index : Nat) : Server E F :=
  { server with events := server.events.eraseIdx index }

variable {job : Job} {event : ServerEvent E F} {index : Nat}

theorem without_outstanding (pushed : server.events[index]? = some (job, event)) :
    server.outstanding.Perm (job :: (server.without index).outstanding) := by
  rcases List.getElem?_eq_some_iff.mp pushed with ⟨inside, same⟩
  have moved := (List.getElem_cons_eraseIdx_perm inside).symm.map Prod.fst
  rw [same, List.map_cons] at moved
  exact (moved.append_left _).trans List.perm_middle

/-- A job that came back was the only one of its key, which has nothing out any more. -/
theorem Server.Sound.back (sound : server.Sound encodes)
    (pushed : server.events[index]? = some (job, event)) :
    (server.without index).Apart encodes job.request.key ∧
      ∃ state, server.browseInFlight.lookup job.request.key = some state ∧
        state.request = job.request ∧ (∀ request ∈ state.rerun, request.key = job.request.key) ∧
        (server.clientAttached job.request.key.clientId = true ∨
          server.Gone job.request.key.clientId) ∧
        (¬ server.Gone job.request.key.clientId →
          latest job.request.key server.history = some (state.rerun.getD state.request)) ∧
        (¬ server.Gone job.request.key.clientId → state.rerun = none →
          Fresh server.history job) := by
  have outstanding := without_outstanding pushed
  have jobs : (server.jobsFor job.request.key).Perm
      (job :: (server.without index).jobsFor job.request.key) := by
    refine (outstanding.filter _).trans ?_
    rw [List.filter_cons_of_pos (by simp)]
    exact List.Perm.refl _
  have tracks := sound.tracks job.request.key
  unfold Server.Tracks at tracks
  cases found : server.browseInFlight.lookup job.request.key with
  | none =>
      rw [found] at tracks
      rw [tracks.1] at jobs
      exact absurd jobs.symm.eq_nil (List.cons_ne_nil _ _)
  | some state =>
      rw [found] at tracks
      rcases tracks with ⟨own, again, member, asks, out⟩
      split_ifs at out with submitted
      · rcases out with ⟨other, only, same, fresh⟩
        rw [only] at jobs
        have whole := List.singleton_perm.mp jobs
        rcases List.cons.inj whole with ⟨named, idle⟩
        rw [named] at same fresh
        refine ⟨⟨⟨sound.distinct, sound.below, sound.departed, sound.started, sound.told, ?_, ?_,
          sound.numbered, sound.given, sound.within⟩, ?_, idle.symm⟩, state, rfl, same.symm, again,
          member, asks, fresh⟩
        · exact fun pair member => sound.finished pair (List.mem_of_mem_eraseIdx member)
        · exact fun pair member => sound.keyed pair (List.mem_of_mem_eraseIdx member)
        · intro key different
          refine (sound.tracks key).frame rfl ?_ .inl (List.append_nil _).symm
            fun _ member => absurd member List.not_mem_nil
          refine List.Perm.symm ((outstanding.filter _).trans ?_)
          rw [List.filter_cons_of_neg (by simpa using fun here => different here.symm)]
          exact List.Perm.refl _
      · rw [out.1] at jobs
        exact absurd jobs.symm.eq_nil (List.cons_ne_nil _ _)

theorem Server.Apart.answer {key : BrowseRequestKey} (apart : server.Apart encodes key)
    (absent : server.browseInFlight.lookup key = none) (room : ClientId → Bool)
    (errors : encodes (.error "browse-result-encode-failed" "browse result could not be encoded")
      = true) (own : job.request.key = key)
    (attached : server.clientAttached key.clientId = true) (fresh : Fresh server.history job)
    (finished : .finished job event ∈ server.history) :
    (server.enqueueBrowseResponse encodes room key.clientId event.message (some job)).Sound
        encodes := by
  have reaches : server.clients.any (Target.client key.clientId).reaches = true := attached
  have client : key.clientId = job.request.clientId := by
    rw [← own, BrowseRequest.key_clientId]
  have answers : Answers encodes server.history
      (.sent key.clientId (Server.encodable encodes event.message) (some job)) := by
    refine ⟨apart.attached attached, ?_⟩
    intro done member
    cases member
    exact ⟨client, fresh, event, finished, rfl⟩
  have logged : (server.log (.sent key.clientId (Server.encodable encodes event.message)
      (some job))).Sound encodes := by
    have steady := apart.toSteady.log answers nofun rfl
    refine Server.Apart.settle ⟨steady, ?_, apart.idle⟩ absent ?_
    · intro other different
      exact (apart.tracks other different).log fun same => different (same.symm.trans own)
    · intro _
      rw [Server.log, latest_snoc]
      exact if_pos own
  unfold Server.enqueueBrowseResponse Server.enqueue
  rw [attached, Bool.not_true, if_neg Bool.false_ne_true, encodes_encodable errors, reaches,
    Bool.and_true, if_pos rfl]
  simp only
  split_ifs
  · exact logged
  · exact logged.remove _

theorem Server.Sound.listed (sound : server.Sound encodes) (room : ClientId → Bool)
    (errors : encodes (.error "browse-result-encode-failed" "browse result could not be encoded")
      = true) (pushed : server.events[index]? = some (job, event)) :
    ((server.without index).listed encodes room job.request.key event.message job).Sound
      encodes := by
  rcases sound.back pushed with ⟨apart, state, found, same, again, member, asks, fresh⟩
  have erased := apart.erase (sound.within.erase job.request.key)
  have absent : (server.browseInFlight.erase job.request.key).lookup job.request.key = none :=
    AList.lookup_erase _ _
  have held : (server.without index).browseInFlight.lookup job.request.key = some state := found
  unfold Server.listed
  rw [held]
  simp only
  split_ifs with attached
  · have here := sound.attached attached
    cases rerun : state.rerun with
    | some request =>
        have own := again request rerun
        rw [rerun] at asks
        rw [Option.bind_some, rerun]
        refine erased.wait own (sound.started _ state found) ?_ (.inl attached) asks
        refine sound.within.replace_erased found ?_
        rw [same, ← BrowseRequest.key_clientId, ← BrowseRequest.key_clientId, own]
    | none =>
        rw [Option.bind_some, rerun]
        have finished := sound.finished _ (List.mem_of_getElem? pushed)
        exact erased.answer absent room errors rfl attached (fresh here rerun) finished
  · exact erased.settle absent (absurd (member.resolve_left attached))

theorem handleEvent_eq_listed (server : Server E F) (room : ClientId → Bool) :
    server.handleEvent encodes room job event =
      server.listed encodes room event.key event.message job := by
  cases event with
  | directoryListing clientId path showHidden entries error => rfl
  | changeListing clientId root changes error => rfl

theorem Server.Sound.handle (sound : server.Sound encodes) (room : ClientId → Bool)
    (errors : encodes (.error "browse-result-encode-failed" "browse result could not be encoded")
      = true) (pushed : server.events[index]? = some (job, event)) :
    ((server.without index).handleEvent encodes room job event).Sound encodes := by
  have keyed : event.key = job.request.key := sound.keyed _ (List.mem_of_getElem? pushed)
  rw [handleEvent_eq_listed, keyed]
  exact sound.listed room errors pushed

end results

section worker

theorem Server.Steady.work (steady : server.Steady encodes) {worker moved : BrowseWorker}
    (working : server.browseWorker = some worker) (started : moved.started = worker.started)
    (given : moved.given = worker.given) :
    ({ server with browseWorker := some moved } : Server E F).Steady encodes :=
  { steady with
    started := by
      intro key state found
      rcases steady.started key state found with ⟨other, shown, runs⟩
      rw [working] at shown
      cases shown
      exact ⟨moved, rfl, started.trans runs⟩
    given := by
      intro number member
      rcases steady.given number member with ⟨other, shown, below⟩
      rw [working] at shown
      cases shown
      exact ⟨moved, rfl, given ▸ below⟩ }

theorem Server.Sound.take (sound : server.Sound encodes) {next : Server E F}
    (took : server.take = some next) : next.Sound encodes := by
  unfold Server.take at took
  cases working : server.browseWorker with
  | none =>
      rw [working] at took
      cases took
  | some worker =>
      rw [working, Option.bind_eq_bind, Option.bind_some] at took
      split_ifs at took with busy
      have idle : worker.running = none := by simpa using busy
      rcases jobs : worker.jobs with _ | ⟨job, waiting⟩
      · rw [jobs] at took
        cases took
      · rw [jobs] at took
        cases took
        refine ⟨sound.toSteady.work working rfl rfl, ?_⟩
        intro key
        refine (sound.tracks key).frame rfl ?_ .inl (List.append_nil _).symm
          fun _ member => absurd member List.not_mem_nil
        refine List.Perm.filter _ ?_
        simp only [Server.outstanding, working, Option.elim_some, idle, jobs, List.tail_cons,
          Option.toList_some, Option.toList_none, List.append_nil]
        exact List.Perm.append_right _ List.perm_append_comm

theorem run_key (request : BrowseRequest) (filesystem : Filesystem E F) :
    (request.run filesystem).key = request.key := by
  cases request with
  | directory clientId path showHidden => rfl
  | changes clientId root => rfl

theorem intoError_key (event : ServerEvent E F) (error : String) :
    (event.intoError error).key = event.key := by
  cases event with
  | directoryListing clientId path showHidden entries error => rfl
  | changeListing clientId root changes error => rfl

theorem Server.Sound.push (sound : server.Sound encodes) {worker : BrowseWorker} {job : Job}
    (working : server.browseWorker = some worker) (running : worker.running = some job)
    {event : ServerEvent E F} (keyed : event.key = job.request.key) :
    ({ server with
      browseWorker := some { worker with running := none }
      events := server.events ++ [(job, event)] }.log (.finished job event)).Sound encodes := by
  have answers : Answers encodes server.history (.finished job event) := trivial
  have steady := (sound.toSteady.work working (rfl : ({ worker with running := none } : BrowseWorker).started =
    worker.started) rfl).log answers nofun rfl
  refine ⟨{ steady with finished := ?_, keyed := ?_ }, ?_⟩
  · intro pair member
    rcases List.mem_append.mp member with member | member
    · exact List.mem_append_left _ (sound.finished pair member)
    · rw [List.mem_singleton.mp member]
      exact List.mem_append_right _ List.mem_cons_self
  · intro pair member
    rcases List.mem_append.mp member with member | member
    · exact sound.keyed pair member
    · rw [List.mem_singleton.mp member]
      exact keyed
  · intro key
    refine (sound.tracks key).frame rfl ?_ .inl rfl ?_
    · refine List.Perm.filter _ ?_
      simp only [Server.outstanding, Server.log, working, Option.elim_some, running,
        Option.toList_some, Option.toList_none, List.append_nil, List.map_append, List.map_cons,
        List.map_nil, List.append_assoc]
      exact List.Perm.append_left _ List.perm_append_comm
    · intro happened member
      rw [List.mem_singleton.mp member]
      exact not_false

theorem Server.Sound.finish (sound : server.Sound encodes) {filesystem : Filesystem E F}
    {fits : Bool} {next : Server E F} (done : server.finish filesystem fits = some next) :
    next.Sound encodes := by
  unfold Server.finish at done
  cases working : server.browseWorker with
  | none =>
      rw [working] at done
      cases done
  | some worker =>
      rw [working, Option.bind_eq_bind, Option.bind_some] at done
      cases running : worker.running with
      | none =>
          rw [running] at done
          cases done
      | some job =>
          rw [running, Option.bind_eq_bind, Option.bind_some] at done
          cases done
          refine sound.push working running ?_
          split_ifs
          · exact run_key _ _
          · exact (intoError_key _ _).trans (run_key _ _)

end worker

section runs

theorem Server.Sound.join (sound : server.Sound encodes) {clients : List Client}
    {nextClientId : ClientId} (distinct : (clients.map Client.id).Nodup)
    (below : ∀ client ∈ clients, client.id < nextClientId)
    (departed : ∀ id, server.Gone id → id < nextClientId ∧ id ∉ clients.map Client.id)
    (stays : ∀ id, server.clientAttached id = true →
      ({ server with clients, nextClientId } : Server E F).clientAttached id = true) :
    ({ server with clients, nextClientId } : Server E F).Sound encodes :=
  ⟨{ sound.toSteady with distinct := distinct, below := below, departed := departed },
    fun key => (sound.tracks key).frame rfl (List.Perm.refl _)
      (fun attached => .inl (stays key.clientId attached)) (List.append_nil _).symm
      fun _ member => absurd member List.not_mem_nil⟩

theorem Server.Sound.connect (sound : server.Sound encodes) : server.connect.Sound encodes := by
  have listed : ∀ id ∈ server.clients.map Client.id, id < server.nextClientId := by
    intro id member
    rcases List.mem_map.mp member with ⟨client, member, same⟩
    exact same ▸ sound.below client member
  refine sound.join ?_ ?_ ?_ ?_
  · rw [List.map_append]
    refine List.nodup_append.mpr ⟨sound.distinct, List.nodup_singleton _, ?_⟩
    intro id member other last
    rw [List.mem_singleton.mp last]
    exact (listed id member).ne
  · intro client member
    rcases List.mem_append.mp member with member | member
    · exact (sound.below client member).trans (Nat.lt_succ_self _)
    · rw [List.mem_singleton.mp member]
      exact Nat.lt_succ_self _
  · intro id gone
    rcases sound.departed id gone with ⟨below, absent⟩
    refine ⟨below.trans (Nat.lt_succ_self _), ?_⟩
    rw [List.map_append, List.mem_append]
    rintro (member | member)
    · exact absent member
    · exact below.ne (List.mem_singleton.mp member)
  · intro id attached
    rcases clientAttached_iff.mp attached with ⟨client, member, same⟩
    exact clientAttached_iff.mpr ⟨client, List.mem_append_left _ member, same⟩

theorem Server.Sound.attach (sound : server.Sound encodes) (id : ClientId) :
    (server.attach id).Sound encodes := by
  have ids : (server.attach id).clients.map Client.id = server.clients.map Client.id := by
    unfold Server.attach
    rw [List.map_map]
    apply List.map_congr_left
    intro client _
    rw [Function.comp_apply]
    split_ifs
    · rfl
    · rfl
  have below : ∀ client ∈ (server.attach id).clients, client.id < server.nextClientId := by
    intro client member
    have listed : client.id ∈ server.clients.map Client.id :=
      ids ▸ List.mem_map.mpr ⟨client, member, rfl⟩
    rcases List.mem_map.mp listed with ⟨other, member, same⟩
    exact same ▸ sound.below other member
  refine sound.join (ids.symm ▸ sound.distinct) below ?_ ?_
  · intro other gone
    have departed := sound.departed other gone
    rw [← ids] at departed
    exact departed
  · intro other attached
    rcases clientAttached_iff.mp attached with ⟨client, member, same, attached⟩
    refine clientAttached_iff.mpr ⟨_, List.mem_map.mpr ⟨client, member, rfl⟩, ?_⟩
    split_ifs
    · exact ⟨same, rfl⟩
    · exact ⟨same, attached⟩

theorem Server.Sound.retry (sound : server.Sound encodes) (room : ClientId → Bool)
    {keys : List BrowseRequestKey} (order : keys.Perm server.pendingBrowse) :
    (server.retryBrowseRequests encodes room keys).Sound encodes := by
  rcases pendingBrowse_waits server with ⟨distinct, waits⟩
  refine Server.Sound.retryBrowseRequests room (order.nodup_iff.mpr distinct) sound ?_
  exact fun key member => waits key (order.subset member)

theorem Server.Sound.perform (sound : server.Sound encodes)
    (errors : encodes (.error "browse-result-encode-failed" "browse result could not be encoded")
      = true) {label : Label E F} {next : Server E F}
    (stepped : server.perform encodes label = some next) : next.Sound encodes := by
  cases label with
  | connect =>
      cases stepped
      exact sound.connect
  | attach client =>
      cases stepped
      exact sound.attach client
  | remove client =>
      cases stepped
      exact sound.remove client
  | request starts room request =>
      cases stepped
      exact sound.processRequest starts room request
  | take => exact sound.take stepped
  | finish filesystem fits => exact sound.finish stepped
  | handle room index keys =>
      rw [Server.perform, Option.bind_eq_bind, Option.bind_eq_some_iff] at stepped
      rcases stepped with ⟨⟨job, event⟩, pushed, stepped⟩
      simp only at stepped
      split_ifs at stepped with order
      cases stepped
      exact (sound.handle room errors pushed).retry room order
  | retry room keys =>
      rw [Server.perform] at stepped
      split_ifs at stepped with order
      cases stepped
      exact sound.retry room order

theorem empty_sound : ({} : Server E F).Sound encodes where
  distinct := List.nodup_nil
  below := fun _ member => absurd member List.not_mem_nil
  departed := fun _ gone => absurd gone List.not_mem_nil
  started := by
    intro key state found
    cases found
  told := Justified.nil
  finished := fun _ member => absurd member List.not_mem_nil
  keyed := fun _ member => absurd member List.not_mem_nil
  numbered := List.nodup_nil
  given := fun _ member => absurd member List.not_mem_nil
  within := ⟨Nat.zero_le _, fun _ => Nat.zero_le _⟩
  tracks := fun _ => ⟨rfl, fun _ => rfl⟩

theorem sound_of_reachable
    (errors : encodes (.error "browse-result-encode-failed" "browse result could not be encoded")
      = true) (reached : (browseRuns encodes).Reachable server) : server.Sound encodes := by
  refine Transition.Reachable.invariant ?_ ?_ reached
  · intro state begins
    rw [show state = {} from begins]
    exact empty_sound
  · intro state label next sound stepped
    exact sound.perform errors stepped

inductive Server.Holds (server : Server E F) (request : BrowseRequest) : Prop where
  | running (state : BrowseState) (job : Job)
      (found : server.browseInFlight.lookup request.key = some state)
      (submitted : state.submitted = true) (single : state.rerun = none)
      (same : state.request = request) (out : job ∈ server.outstanding)
      (named : job.request = request)
  | waiting (state : BrowseState)
      (found : server.browseInFlight.lookup request.key = some state)
      (waits : state.submitted = false) (same : state.request = request)
  | stored (state : BrowseState)
      (found : server.browseInFlight.lookup request.key = some state)
      (submitted : state.submitted = true) (again : state.rerun = some request)

theorem Server.Sound.holds (sound : server.Sound encodes) {request : BrowseRequest}
    (attached : server.clientAttached request.clientId = true)
    (unanswered : Unanswered server.history request) : server.Holds request := by
  have asked := latest_of_unanswered unanswered
  have client : server.clientAttached request.key.clientId = true := by
    rw [BrowseRequest.key_clientId]
    exact attached
  have here := sound.attached client
  have tracks := sound.tracks request.key
  unfold Server.Tracks at tracks
  cases found : server.browseInFlight.lookup request.key with
  | none =>
      rw [found] at tracks
      rw [tracks.2 here] at asked
      cases asked
  | some state =>
      rw [found] at tracks
      rcases tracks with ⟨_, _, _, asks, out⟩
      have current := asks here
      rw [asked] at current
      have named := Option.some.inj current
      split_ifs at out with submitted
      · rcases out with ⟨job, only, same, _⟩
        cases rerun : state.rerun with
        | none =>
            rw [rerun] at named
            have member : job ∈ server.jobsFor request.key := only ▸ List.mem_singleton.mpr rfl
            exact .running state job found submitted rerun named.symm
              (List.mem_of_mem_filter member) (same.trans named.symm)
        | some again =>
            rw [rerun] at named
            exact .stored state found submitted (rerun.trans (congrArg some named.symm))
      · rw [out.2] at named
        exact .waiting state found (by simpa using submitted) named.symm

theorem Server.Sound.few (sound : server.Sound encodes) (key : BrowseRequestKey) :
    (server.jobsFor key).length ≤ 1 := by
  have tracks := sound.tracks key
  unfold Server.Tracks at tracks
  cases found : server.browseInFlight.lookup key with
  | none =>
      rw [found] at tracks
      rw [tracks.1]
      exact Nat.zero_le _
  | some state =>
      rw [found] at tracks
      rcases tracks with ⟨_, _, _, _, out⟩
      split_ifs at out
      · rcases out with ⟨job, only, _⟩
        rw [only]
        exact le_rfl
      · rw [out.1]
        exact Nat.zero_le _

/-- A key belongs to the client of its request, so no client has more keys than it may. -/
theorem Server.Sound.each (sound : server.Sound encodes) (id : ClientId) :
    (server.browseInFlight.keys.filter fun key => key.clientId == id).length ≤
      maxBrowsePendingPerClient := by
  have count := AList.length_filter_eq_total
    (fun state : BrowseState => state.request.clientId == id) server.browseInFlight
  have same : ∀ entry ∈ server.browseInFlight.entries,
      (entry.1.clientId == id) = (entry.2.request.clientId == id) := by
    intro entry member
    have tracks := sound.tracks entry.1
    unfold Server.Tracks at tracks
    rw [AList.mem_lookup_iff.mpr member] at tracks
    rw [← tracks.1, BrowseRequest.key_clientId]
  have keys : (server.browseInFlight.keys.filter fun key => key.clientId == id).length =
      (server.browseInFlight.entries.filter fun entry =>
        entry.2.request.clientId == id).length := by
    rw [AList.keys, List.keys, List.filter_map, List.length_map]
    exact congrArg List.length (List.filter_congr same)
  rw [keys, count]
  exact sound.within.each id

/-- No listing is older than the request it answers. A key has one job out at most; a request of an
attached client that is not answered yet is where its answer will come from; every message goes to a
client that is there, and a listing is for the latest request of its key. -/
structure Server.Timely (encodes : ServerMessage E F → Bool) (server : Server E F) : Prop where
  single : ∀ key, (server.jobsFor key).length ≤ 1
  held : ∀ request, server.clientAttached request.clientId = true →
    Unanswered server.history request → server.Holds request
  told : Justified (Answers encodes) server.history
  numbered : (submissions server.history).Nodup
  all : server.browseInFlight.keys.length ≤ maxBrowsePending
  each : ∀ id, (server.browseInFlight.keys.filter fun key => key.clientId == id).length ≤
    maxBrowsePendingPerClient

theorem listing_never_stale (encodes : ServerMessage E F → Bool)
    (errors : encodes (.error "browse-result-encode-failed" "browse result could not be encoded")
      = true) (server : Server E F) (reached : (browseRuns encodes).Reachable server) :
    server.Timely encodes := by
  have sound := sound_of_reachable errors reached
  have all : server.browseInFlight.keys.length ≤ maxBrowsePending := by
    rw [AList.keys, List.keys, List.length_map]
    exact sound.within.all
  exact ⟨sound.few, fun request => sound.holds, sound.told, sound.numbered, all, sound.each⟩

/-- A client asks again with other options while its job is with the worker. -/
def sampleLabels : List (Label Nat Nat) :=
  let room := fun _ : ClientId => true
  let filesystem : Filesystem Nat Nat :=
    { listDirectory := fun _ showHidden => (if showHidden then [1, 2] else [1], none)
      listChanges := fun _ => ([], none) }
  [.connect, .attach 1, .request true room (.directory 1 "/tmp" false), .take,
    .request true room (.directory 1 "/tmp" true), .finish filesystem true,
    .handle room 0 [.directory 1 "/tmp"], .take, .finish filesystem true, .handle room 0 []]

def sampleServer : Server Nat Nat :=
  (sampleLabels.foldlM (Server.perform · fun _ => true) {}).getD {}

theorem sampleServer_reached : (browseRuns (E := Nat) (F := Nat) fun _ => true).Reachable
    sampleServer := by
  have performed : sampleLabels.foldlM (Server.perform · fun _ => true) {} = some sampleServer :=
    rfl
  exact (Transition.Reachable.begin rfl).performed (fun _ _ _ stepped => stepped) performed

theorem listing_never_stale_again : sampleServer.Timely fun _ => true :=
  listing_never_stale _ rfl sampleServer sampleServer_reached

end runs

end Rozi.Browse
