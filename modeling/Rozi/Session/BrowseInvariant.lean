import Rozi.Session.BrowseHistory

/-!
The invariant of browsing: what the map says of each key agrees with the jobs that are out and with
what was asked. A key is changed while it stands apart, its job taken back.
-/

namespace Rozi.Browse

variable {E F : Type}

def Server.outstanding (server : Server E F) : List Job :=
  server.browseWorker.elim [] (fun worker => worker.jobs ++ worker.running.toList) ++
    server.events.map Prod.fst

def Server.jobsFor (server : Server E F) (key : BrowseRequestKey) : List Job :=
  server.outstanding.filter fun job => job.request.key = key

def Server.Gone (server : Server E F) (id : ClientId) : Prop := .left id ∈ server.history

/-- What the map says of a key agrees with the jobs that are out and with what was asked. -/
def Server.Tracks (server : Server E F) (key : BrowseRequestKey) : Prop :=
  match server.browseInFlight.lookup key with
  | none => server.jobsFor key = [] ∧
      (¬ server.Gone key.clientId → latest key server.history = none)
  | some state => state.request.key = key ∧ (∀ request ∈ state.rerun, request.key = key) ∧
      (server.clientAttached key.clientId = true ∨ server.Gone key.clientId) ∧
      (¬ server.Gone key.clientId →
        latest key server.history = some (state.rerun.getD state.request)) ∧
      if state.submitted then
        ∃ job, server.jobsFor key = [job] ∧ job.request = state.request ∧
          (¬ server.Gone key.clientId → state.rerun = none → Fresh server.history job)
      else server.jobsFor key = [] ∧ state.rerun = none

theorem Server.Tracks.frame {server next : Server E F} {key : BrowseRequestKey}
    (tracks : server.Tracks key)
    (entry : next.browseInFlight.lookup key = server.browseInFlight.lookup key)
    (jobs : (next.jobsFor key).Perm (server.jobsFor key))
    (attached : server.clientAttached key.clientId = true →
      next.clientAttached key.clientId = true ∨ next.Gone key.clientId)
    {more : List (Happened E F)} (history : next.history = server.history ++ more)
    (quiet : ∀ happened ∈ more, ¬ happened.Concerns key) : next.Tracks key := by
  have gone : server.Gone key.clientId → next.Gone key.clientId := by
    intro gone
    rw [Gone, history]
    exact List.mem_append_left _ gone
  have asked : latest key next.history = latest key server.history := by
    rw [history, latest_append quiet]
  unfold Tracks at tracks ⊢
  rw [entry]
  cases held : server.browseInFlight.lookup key with
  | none =>
      rw [held] at tracks
      rcases tracks with ⟨none, silent⟩
      refine ⟨List.Perm.eq_nil (none ▸ jobs), ?_⟩
      intro here
      rw [asked]
      exact silent fun there => here (gone there)
  | some state =>
      rw [held] at tracks
      rcases tracks with ⟨own, again, member, asks, out⟩
      refine ⟨own, again, ?_, ?_, ?_⟩
      · rcases member with member | left
        · exact attached member
        · exact .inr (gone left)
      · intro here
        rw [asked]
        exact asks fun there => here (gone there)
      · split_ifs at out ⊢ with submitted
        · rcases out with ⟨job, only, same, fresh⟩
          refine ⟨job, List.perm_singleton.mp (only ▸ jobs), same, ?_⟩
          intro here single
          rw [history]
          refine (fresh (fun there => here (gone there)) single).append ?_
          rw [same, own]
          exact quiet
        · exact ⟨List.Perm.eq_nil (out.1 ▸ jobs), out.2⟩

def share (id : ClientId) (state : BrowseState) : Nat := if state.request.clientId == id then 1 else 0

structure Within (inFlight : AList fun _ : BrowseRequestKey => BrowseState) : Prop where
  all : inFlight.entries.length ≤ maxBrowsePending
  each : ∀ id, AList.total (share id) inFlight ≤ maxBrowsePendingPerClient

structure Server.Steady (encodes : ServerMessage E F → Bool) (server : Server E F) : Prop where
  distinct : (server.clients.map Client.id).Nodup
  below : ∀ client ∈ server.clients, client.id < server.nextClientId
  departed : ∀ id, server.Gone id →
    id < server.nextClientId ∧ id ∉ server.clients.map Client.id
  started : ∀ key state, server.browseInFlight.lookup key = some state →
    ∃ worker, server.browseWorker = some worker ∧ worker.started = true
  told : Justified (Answers encodes) server.history
  finished : ∀ pair ∈ server.events, .finished pair.1 pair.2 ∈ server.history
  keyed : ∀ pair ∈ server.events, pair.2.key = pair.1.request.key
  numbered : (submissions server.history).Nodup
  given : ∀ number ∈ submissions server.history,
    ∃ worker, server.browseWorker = some worker ∧ number < worker.given
  within : Within server.browseInFlight

structure Server.Sound (encodes : ServerMessage E F → Bool) (server : Server E F) : Prop
    extends server.Steady encodes where
  tracks : ∀ key, server.Tracks key

structure Server.Apart (encodes : ServerMessage E F → Bool) (server : Server E F)
    (key : BrowseRequestKey) : Prop extends server.Steady encodes where
  tracks : ∀ other, other ≠ key → server.Tracks other
  idle : server.jobsFor key = []

variable {encodes : ServerMessage E F → Bool} {server : Server E F}

theorem clientAttached_iff {id : ClientId} :
    server.clientAttached id = true ↔ ∃ client ∈ server.clients, client.id = id ∧
      client.attached = true := by
  simp [Server.clientAttached]

theorem Server.Steady.present (steady : server.Steady encodes) {id : ClientId}
    (member : id ∈ server.clients.map Client.id) : ¬ server.Gone id :=
  fun gone => (steady.departed id gone).2 member

theorem Server.Steady.attached (steady : server.Steady encodes) {id : ClientId}
    (attached : server.clientAttached id = true) : ¬ server.Gone id := by
  rcases clientAttached_iff.mp attached with ⟨client, member, same, _⟩
  exact steady.present (List.mem_map.mpr ⟨client, member, same⟩)

section logging

theorem submissions_snoc (history : List (Happened E F)) (happened : Happened E F) :
    submissions (history ++ [happened]) = submissions history ++ submissions [happened] := by
  rw [submissions, List.filterMap_append]
  rfl

/-- Nothing is lost by noting what happened, if that was right, and is no departure or new job. -/
theorem Server.Steady.log (steady : server.Steady encodes) {happened : Happened E F}
    (right : Answers encodes server.history happened) (stays : ∀ id, happened ≠ .left id)
    (old : submissions [happened] = []) : (server.log happened).Steady encodes where
  distinct := steady.distinct
  below := steady.below
  departed := by
    intro id gone
    rcases List.mem_append.mp gone with gone | gone
    · exact steady.departed id gone
    · exact absurd (List.mem_singleton.mp gone).symm (stays id)
  started := steady.started
  told := steady.told.snoc right
  finished := fun pair member => List.mem_append_left _ (steady.finished pair member)
  keyed := steady.keyed
  numbered := by
    rw [Server.log, submissions_snoc, old, List.append_nil]
    exact steady.numbered
  given := by
    intro number
    rw [Server.log, submissions_snoc, old, List.append_nil]
    exact steady.given number
  within := steady.within

theorem Server.Tracks.log {key : BrowseRequestKey} (tracks : server.Tracks key)
    {happened : Happened E F} (quiet : ¬ happened.Concerns key) :
    (server.log happened).Tracks key := by
  refine tracks.frame rfl (List.Perm.refl _) .inl rfl ?_
  intro other member
  rwa [List.mem_singleton.mp member]

end logging

section removal

theorem Within.retain {inFlight : AList fun _ : BrowseRequestKey => BrowseState}
    (within : Within inFlight) (id : ClientId) : Within (inFlight.retain (Server.keptWithout id)) := by
  have same : ∀ key state kept, Server.keptWithout id key state = some kept →
      kept.request = state.request := by
    intro key state kept shown
    unfold Server.keptWithout at shown
    split_ifs at shown
    · cases shown
      rfl
    · cases shown
      rfl
  constructor
  · rw [AList.length_eq_total]
    refine (AList.total_retain_le (fun _ _ _ _ => le_rfl) _).trans ?_
    rw [← AList.length_eq_total]
    exact within.all
  · intro other
    refine (AList.total_retain_le ?_ _).trans (within.each other)
    intro key state kept shown
    unfold share
    rw [same key state kept shown]

theorem Server.Steady.clear (steady : server.Steady encodes) (id : ClientId) :
    (server.clearBrowseRequests id).Steady encodes where
  distinct := steady.distinct
  below := steady.below
  departed := steady.departed
  started := by
    intro key state found
    rw [Server.clearBrowseRequests, AList.lookup_retain, Option.bind_eq_some_iff] at found
    rcases found with ⟨before, found, _⟩
    exact steady.started key before found
  told := steady.told
  finished := steady.finished
  keyed := steady.keyed
  numbered := steady.numbered
  given := steady.given
  within := steady.within.retain id

theorem erased_not_mem {clients : List Client} (distinct : (clients.map Client.id).Nodup)
    (id : ClientId) : id ∉ (clients.eraseP (·.id == id)).map Client.id := by
  induction clients with
  | nil => exact List.not_mem_nil
  | cons client clients ih =>
      rw [List.map_cons, List.nodup_cons] at distinct
      by_cases same : client.id = id
      · rw [List.eraseP_cons_of_pos (by simpa using same), ← same]
        exact distinct.1
      · rw [List.eraseP_cons_of_neg (by simpa using same), List.map_cons, List.mem_cons]
        rintro (here | there)
        · exact same here.symm
        · exact ih distinct.2 there

theorem Server.Steady.remove (steady : server.Steady encodes) (id : ClientId) :
    (server.removeClient id).Steady encodes := by
  have cleared := steady.clear id
  unfold Server.removeClient
  simp only
  split_ifs with present
  · rcases List.any_eq_true.mp present with ⟨client, member, same⟩
    have here : id ∈ server.clients.map Client.id :=
      List.mem_map.mpr ⟨client, member, by simpa using same⟩
    have fewer : ((server.clients.eraseP (·.id == id)).map Client.id).Sublist
        (server.clients.map Client.id) := List.eraseP_sublist.map _
    have erased := erased_not_mem steady.distinct id
    exact
      { cleared with
        distinct := steady.distinct.sublist fewer
        below := fun other member => steady.below other (List.mem_of_mem_eraseP member)
        departed := by
          intro other gone
          rcases List.mem_append.mp gone with gone | gone
          · rcases steady.departed other gone with ⟨below, absent⟩
            exact ⟨below, fun member => absent (fewer.subset member)⟩
          · cases List.mem_singleton.mp gone
            refine ⟨?_, erased⟩
            rcases List.mem_map.mp here with ⟨client, member, same⟩
            exact same ▸ steady.below client member
        told := steady.told.snoc trivial
        finished := fun pair member => List.mem_append_left _ (steady.finished pair member)
        numbered := by
          rw [Server.log, submissions_snoc]
          exact (List.append_nil _).symm ▸ steady.numbered
        given := by
          intro number
          rw [Server.log, submissions_snoc]
          exact (List.append_nil _).symm ▸ steady.given number }
  · exact cleared

theorem removeClient_history (server : Server E F) (id : ClientId) :
    (server.removeClient id).history = server.history ∧ id ∉ server.clients.map Client.id ∨
      (server.removeClient id).history = server.history ++ [.left id] := by
  unfold Server.removeClient
  simp only
  split_ifs with present
  · exact .inr rfl
  · refine .inl ⟨rfl, ?_⟩
    intro member
    rcases List.mem_map.mp member with ⟨client, member, same⟩
    exact present (List.any_eq_true.mpr ⟨client, member, by simpa using same⟩)

theorem removeClient_lookup (id : ClientId) (key : BrowseRequestKey) :
    (server.removeClient id).browseInFlight.lookup key =
      (server.browseInFlight.lookup key).bind (Server.keptWithout id key) := by
  have cleared : (server.clearBrowseRequests id).browseInFlight.lookup key = _ :=
    AList.lookup_retain (Server.keptWithout id)
  unfold Server.removeClient
  simp only
  split_ifs
  · exact cleared
  · exact cleared

theorem removeClient_jobsFor (id : ClientId) (key : BrowseRequestKey) :
    (server.removeClient id).jobsFor key = server.jobsFor key := by
  unfold Server.removeClient
  simp only
  split_ifs
  · rfl
  · rfl

theorem removeClient_attached {id other : ClientId} (different : other ≠ id)
    (attached : server.clientAttached other = true) :
    (server.removeClient id).clientAttached other = true := by
  rcases clientAttached_iff.mp attached with ⟨client, member, same, attached⟩
  unfold Server.removeClient
  simp only
  split_ifs
  · refine clientAttached_iff.mpr ⟨client, ?_, same, attached⟩
    refine (List.mem_eraseP_of_neg ?_).mpr member
    rw [same]
    simpa using different
  · exact clientAttached_iff.mpr ⟨client, member, same, attached⟩

/-- A client that goes takes its waiting requests along; a job of its own that is out comes back
to nothing. -/
theorem Server.Sound.remove (sound : server.Sound encodes) (id : ClientId) :
    (server.removeClient id).Sound encodes := by
  refine ⟨sound.toSteady.remove id, ?_⟩
  intro key
  have tracks := sound.tracks key
  have quiet : ∀ happened ∈ [(.left id : Happened E F)], ¬ happened.Concerns key := by
    intro happened member
    rw [List.mem_singleton.mp member]
    exact not_false
  by_cases own : key.clientId = id
  · have kept : ∀ state, server.browseInFlight.lookup key = some state →
        (server.removeClient id).Gone key.clientId := by
      intro state found
      unfold Server.Tracks at tracks
      rw [found] at tracks
      rcases removeClient_history server id with ⟨same, absent⟩ | left
      · rcases tracks.2.2.1 with attached | gone
        · rcases clientAttached_iff.mp attached with ⟨client, member, same, _⟩
          exact absurd (List.mem_map.mpr ⟨client, member, same.trans own⟩) absent
        · rwa [Server.Gone, same]
      · rw [Server.Gone, left, own]
        exact List.mem_append_right _ List.mem_cons_self
    unfold Server.Tracks at tracks ⊢
    rw [removeClient_lookup, removeClient_jobsFor]
    cases found : server.browseInFlight.lookup key with
    | none =>
        rw [found] at tracks
        refine ⟨tracks.1, ?_⟩
        intro here
        rcases removeClient_history server id with ⟨same, _⟩ | left
        · rw [Server.Gone, same] at here
          rw [same]
          exact tracks.2 here
        · rw [Server.Gone, left, own] at here
          exact absurd (List.mem_append_right _ List.mem_cons_self) here
    | some state =>
        have gone := kept state found
        rw [found] at tracks
        rcases tracks with ⟨same, again, _, _, out⟩
        rw [Option.bind_some, Server.keptWithout, if_neg (not_not_intro own)]
        split_ifs at out ⊢ with submitted
        · rcases out with ⟨job, only, request, _⟩
          refine ⟨same, fun _ none => absurd none (by simp), .inr gone, absurd gone, ?_⟩
          rw [if_pos submitted]
          exact ⟨job, only, request, absurd gone⟩
        · exact ⟨out.1, absurd gone⟩
  · have entry : (server.removeClient id).browseInFlight.lookup key =
        server.browseInFlight.lookup key := by
      rw [removeClient_lookup]
      cases server.browseInFlight.lookup key with
      | none => rfl
      | some state => exact if_pos own
    have attached : server.clientAttached key.clientId = true →
        (server.removeClient id).clientAttached key.clientId = true ∨
          (server.removeClient id).Gone key.clientId :=
      fun attached => .inl (removeClient_attached own attached)
    have jobs : ((server.removeClient id).jobsFor key).Perm (server.jobsFor key) := by
      rw [removeClient_jobsFor]
    rcases removeClient_history server id with ⟨same, _⟩ | left
    · exact tracks.frame entry jobs attached (same.trans (List.append_nil _).symm)
        fun _ member => absurd member List.not_mem_nil
    · exact tracks.frame entry jobs attached left quiet

theorem Server.Steady.reached (steady : server.Steady encodes) {target : Target}
    (reaches : server.clients.any target.reaches = true) : ¬ server.Gone target.id := by
  rcases List.any_eq_true.mp reaches with ⟨client, member, reached⟩
  refine steady.present (List.mem_map.mpr ⟨client, member, ?_⟩)
  cases target with
  | sender id => exact beq_iff_eq.mp reached
  | client id => exact beq_iff_eq.mp (Bool.and_eq_true_iff.mp reached).1

theorem Server.Sound.refuse (sound : server.Sound encodes) (room : ClientId → Bool)
    (target : Target) (message : ServerMessage E F) :
    (server.enqueue encodes room target message none).Sound encodes := by
  unfold Server.enqueue
  by_cases sent : (encodes message && server.clients.any target.reaches) = true
  · have here := sound.reached (Bool.and_eq_true_iff.mp sent).2
    have logged : (server.log (.sent target.id message none)).Sound encodes :=
      ⟨sound.toSteady.log ⟨here, nofun⟩ nofun rfl, fun key => (sound.tracks key).log not_false⟩
    rw [if_pos sent]
    simp only
    split_ifs
    · exact logged
    · exact logged.remove target.id
  · rw [if_neg sent]
    exact sound

end removal

section apart

variable {key : BrowseRequestKey}

theorem Server.Sound.apart_of_absent (sound : server.Sound encodes)
    (absent : server.browseInFlight.lookup key = none) : server.Apart encodes key := by
  have tracks := sound.tracks key
  unfold Server.Tracks at tracks
  rw [absent] at tracks
  exact ⟨sound.toSteady, fun other _ => sound.tracks other, tracks.1⟩

theorem Server.Sound.apart_of_waiting (sound : server.Sound encodes) {state : BrowseState}
    (found : server.browseInFlight.lookup key = some state) (waits : state.submitted = false) :
    server.Apart encodes key ∧ state.request.key = key ∧ state.rerun = none ∧
      (server.clientAttached key.clientId = true ∨ server.Gone key.clientId) ∧
      (¬ server.Gone key.clientId → latest key server.history = some state.request) := by
  have tracks := sound.tracks key
  unfold Server.Tracks at tracks
  rw [found] at tracks
  rcases tracks with ⟨own, _, member, asks, out⟩
  rw [if_neg (by rw [waits]; exact Bool.false_ne_true)] at out
  rw [out.2] at asks
  exact ⟨⟨sound.toSteady, fun other _ => sound.tracks other, out.1⟩, own, out.2, member, asks⟩

theorem Server.Apart.accept (apart : server.Apart encodes key) {request : BrowseRequest}
    (own : request.key = key) :
    (server.log (.accepted request)).Apart encodes key ∧
      latest key (server.log (.accepted request)).history = some request := by
  refine ⟨⟨apart.toSteady.log trivial nofun rfl, ?_, apart.idle⟩, ?_⟩
  · intro other different
    exact (apart.tracks other different).log fun same => different (same.symm.trans own)
  · rw [Server.log, latest_snoc]
    exact if_pos own

theorem put_lookup (state : BrowseState) (other : BrowseRequestKey) :
    (server.put key state).browseInFlight.lookup other =
      if other = key then some state else server.browseInFlight.lookup other :=
  AList.lookup_insert_eq

theorem Server.Apart.wait (apart : server.Apart encodes key) {request : BrowseRequest}
    (own : request.key = key)
    (started : ∃ worker, server.browseWorker = some worker ∧ worker.started = true)
    (within : Within (server.browseInFlight.insert key ⟨request, none, false⟩))
    (member : server.clientAttached key.clientId = true ∨ server.Gone key.clientId)
    (asks : ¬ server.Gone key.clientId → latest key server.history = some request) :
    (server.put key ⟨request, none, false⟩).Sound encodes := by
  refine ⟨{ apart.toSteady with started := ?_, within := within }, ?_⟩
  · intro other state found
    rw [put_lookup] at found
    split_ifs at found
    · exact started
    · exact apart.started other state found
  · intro other
    by_cases same : other = key
    · unfold Server.Tracks
      rw [put_lookup, if_pos same, same]
      exact ⟨own, nofun, member, asks, apart.idle, rfl⟩
    · refine (apart.tracks other same).frame ?_ (List.Perm.refl _) .inl
        (List.append_nil _).symm fun _ member => absurd member List.not_mem_nil
      rw [put_lookup, if_neg same]

theorem trySubmit_ok {worker next : BrowseWorker} {request : BrowseRequest} {job : Job}
    (took : worker.trySubmit request = .ok (job, next)) :
    worker.started = true ∧ job = ⟨worker.given, request⟩ ∧
      next = { worker with jobs := worker.jobs ++ [job], given := worker.given + 1 } := by
  unfold BrowseWorker.trySubmit at took
  split_ifs at took with stopped room
  cases took
  exact ⟨by simpa using stopped, rfl, rfl⟩

theorem trySubmit_error {worker : BrowseWorker} {request : BrowseRequest} {error : TrySendError}
    (refused : worker.trySubmit request = .error error) :
    error = if worker.started then .full request else .disconnected request := by
  unfold BrowseWorker.trySubmit at refused
  split_ifs at refused with stopped room
  · cases refused
    rw [if_neg (by simpa using stopped)]
  · cases refused
    rw [if_pos (by simpa using stopped)]

theorem gave_outstanding {worker next : BrowseWorker} {request : BrowseRequest} {job : Job}
    (working : server.browseWorker = some worker)
    (took : worker.trySubmit request = .ok (job, next)) :
    ((server.gave job next).outstanding).Perm (job :: server.outstanding) := by
  rcases trySubmit_ok took with ⟨_, _, shape⟩
  have before : server.outstanding =
      worker.jobs ++ (worker.running.toList ++ server.events.map Prod.fst) := by
    rw [Server.outstanding, working, Option.elim_some, List.append_assoc]
  have after : (server.gave job next).outstanding =
      worker.jobs ++ job :: (worker.running.toList ++ server.events.map Prod.fst) := by
    rw [shape]
    simp [Server.outstanding, Server.gave, Server.log]
  rw [before, after]
  exact List.perm_middle

theorem Server.Apart.erase (apart : server.Apart encodes key)
    (within : Within (server.browseInFlight.erase key)) :
    ({ server with browseInFlight := server.browseInFlight.erase key } : Server E F).Apart
      encodes key := by
  refine ⟨{ apart.toSteady with started := ?_, within := within }, ?_, apart.idle⟩
  · intro other state found
    exact apart.started other state (AList.lookup_erase_some found).2
  · intro other different
    refine (apart.tracks other different).frame ?_ (List.Perm.refl _) .inl
      (List.append_nil _).symm fun _ member => absurd member List.not_mem_nil
    simp only [AList.lookup_erase_eq, if_neg different]

theorem Server.Apart.settle (apart : server.Apart encodes key)
    (absent : server.browseInFlight.lookup key = none)
    (silent : ¬ server.Gone key.clientId → latest key server.history = none) :
    server.Sound encodes := by
  refine ⟨apart.toSteady, ?_⟩
  intro other
  by_cases same : other = key
  · unfold Server.Tracks
    rw [same, absent]
    exact ⟨apart.idle, silent⟩
  · exact apart.tracks other same

theorem Server.Apart.forget (apart : server.Apart encodes key)
    (within : Within (server.browseInFlight.erase key))
    (silent : ¬ server.Gone key.clientId → latest key server.history = none) :
    ({ server with browseInFlight := server.browseInFlight.erase key } : Server E F).Sound
      encodes :=
  (apart.erase within).settle (AList.lookup_erase _ _) silent

theorem Server.Apart.give (apart : server.Apart encodes key) {request : BrowseRequest}
    (own : request.key = key) {worker next : BrowseWorker} {job : Job}
    (working : server.browseWorker = some worker)
    (took : worker.trySubmit request = .ok (job, next))
    (within : Within (server.browseInFlight.insert key ⟨request, none, true⟩))
    (member : server.clientAttached key.clientId = true ∨ server.Gone key.clientId)
    (asks : ¬ server.Gone key.clientId → latest key server.history = some request) :
    ((server.gave job next).put key ⟨request, none, true⟩).Sound encodes := by
  have outstanding := gave_outstanding working took
  rcases trySubmit_ok took with ⟨started, named, shape⟩
  have requested : job.request = request := by rw [named]
  have numbers : submissions (server.history ++ [.submitted job]) =
      submissions server.history ++ [worker.given] := by
    rw [submissions_snoc, named]
    rfl
  have below : ∀ number ∈ submissions server.history, number < worker.given := by
    intro number member
    rcases apart.given number member with ⟨other, same, below⟩
    rw [working] at same
    cases same
    exact below
  have left : ∀ id, (.left id : Happened E F) ∈ server.history ++ [.submitted job] →
      server.Gone id := by
    intro id gone
    rcases List.mem_append.mp gone with gone | gone
    · exact gone
    · cases List.mem_singleton.mp gone
  refine ⟨{ apart.toSteady with
    departed := fun id gone => apart.departed id (left id gone)
    started := ?_
    told := apart.told.snoc trivial
    finished := fun pair member => List.mem_append_left _ (apart.finished pair member)
    numbered := ?_
    given := ?_
    within := within }, ?_⟩
  · intro other state found
    exact ⟨next, rfl, by rw [shape]; exact started⟩
  · change (submissions (server.history ++ [.submitted job])).Nodup
    rw [numbers]
    refine List.nodup_append.mpr ⟨apart.numbered, List.nodup_singleton _, ?_⟩
    intro number member other last
    rw [List.mem_singleton.mp last]
    exact (below number member).ne
  · intro number member
    change number ∈ submissions (server.history ++ [.submitted job]) at member
    rw [numbers] at member
    refine ⟨next, rfl, ?_⟩
    rw [shape]
    rcases List.mem_append.mp member with member | member
    · exact (below number member).trans (Nat.lt_succ_self _)
    · rw [List.mem_singleton.mp member]
      exact Nat.lt_succ_self _
  · intro other
    by_cases same : other = key
    · have only : ((server.gave job next).jobsFor key).Perm [job] := by
        refine (outstanding.filter _).trans ?_
        rw [List.filter_cons_of_pos (by simpa [requested] using own)]
        exact List.Perm.of_eq (congrArg (job :: ·) apart.idle)
      unfold Server.Tracks
      rw [put_lookup, if_pos same, same]
      refine ⟨own, nofun, member.imp id (List.mem_append_left _), ?_, ?_⟩
      · intro here
        change latest key (server.history ++ [.submitted job]) = some request
        rw [latest_snoc]
        exact asks fun gone => here (List.mem_append_left _ gone)
      · refine ⟨job, List.perm_singleton.mp only, requested, fun here _ => ?_⟩
        refine fresh_of_latest (asks ?_ |>.trans ?_)
        · exact fun gone => here (List.mem_append_left _ gone)
        · rw [requested]
    · refine (apart.tracks other same).frame ?_ ?_ .inl rfl ?_
      · rw [put_lookup, if_neg same]
        rfl
      · refine (outstanding.filter _).trans ?_
        rw [List.filter_cons_of_neg]
        · exact List.Perm.refl _
        · rw [requested, own]
          simpa using fun here => same here.symm
      · intro happened member
        rw [List.mem_singleton.mp member]
        exact not_false

end apart

section limits

variable {inFlight : AList fun _ : BrowseRequestKey => BrowseState} {key : BrowseRequestKey}

theorem Within.erase (within : Within inFlight) (key : BrowseRequestKey) :
    Within (inFlight.erase key) := by
  constructor
  · rw [AList.length_eq_total]
    have all := within.all
    rw [AList.length_eq_total, AList.total_split _ _ key] at all
    exact (Nat.le_add_left _ _).trans all
  · intro id
    have each := within.each id
    rw [AList.total_split _ _ key] at each
    exact (Nat.le_add_left _ _).trans each

theorem Within.replace (within : Within inFlight) {old new : BrowseState}
    (found : inFlight.lookup key = some old)
    (same : new.request.clientId = old.request.clientId) : Within (inFlight.insert key new) := by
  constructor
  · have all := within.all
    rw [AList.length_eq_total, AList.total_split _ _ key, found] at all
    rw [AList.length_eq_total, AList.total_insert]
    exact all
  · intro id
    have each := within.each id
    rw [AList.total_split _ _ key, found] at each
    rw [AList.total_insert, share, same]
    exact each

theorem Within.replace_erased (within : Within inFlight) {old new : BrowseState}
    (found : inFlight.lookup key = some old)
    (same : new.request.clientId = old.request.clientId) :
    Within ((inFlight.erase key).insert key new) := by
  have twice : (inFlight.erase key).erase key = inFlight.erase key :=
    AList.erase_of_lookup_none (by rw [AList.lookup_erase_eq, if_pos rfl])
  have replaced := within.replace found same
  constructor
  · have all := replaced.all
    rw [AList.length_eq_total, AList.total_insert] at all ⊢
    rwa [twice]
  · intro id
    have each := replaced.each id
    rw [AList.total_insert] at each ⊢
    rwa [twice]

theorem Within.add (within : Within inFlight) {new : BrowseState}
    (absent : inFlight.lookup key = none) (room : inFlight.entries.length < maxBrowsePending)
    (own : (inFlight.entries.filter fun entry =>
      entry.2.request.clientId == new.request.clientId).length < maxBrowsePendingPerClient) :
    Within (inFlight.insert key new) := by
  have none := AList.erase_of_lookup_none absent
  constructor
  · rw [AList.length_eq_total] at room ⊢
    rw [AList.total_insert, none, Nat.add_comm]
    exact room
  · intro id
    rw [AList.total_insert, none]
    by_cases same : new.request.clientId = id
    · have count := AList.length_filter_eq_total
        (fun state : BrowseState => state.request.clientId == id) inFlight
      rw [same, count] at own
      have one : share id new = 1 := by
        rw [share, if_pos (by simpa using same)]
      rw [one, Nat.add_comm]
      exact own
    · have nothing : share id new = 0 := by
        rw [share, if_neg (by simpa using same)]
      rw [nothing, Nat.zero_add]
      exact within.each id

end limits

end Rozi.Browse
