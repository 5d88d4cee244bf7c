import Rozi.Library.Custody
import Rozi.Library.Exchange
import Rozi.Session.Lease

/-!
Safety of the layout-control lease. The roster is sound in every run; the lease is safe in every
run whose accepted attaches are sound, and an attach that is not sound breaks it at once.
-/

namespace Rozi

def ClientConn.entitled (client : ClientConn) : Bool :=
  client.attached && !client.readOnly && !client.parked

namespace SessionServer

def Entitled (server : SessionServer) (id : ClientId) : Prop :=
  ∃ client ∈ server.clients, client.id = id ∧ client.entitled = true

structure LeaseSafe (server : SessionServer) : Prop where
  custody : Custody server.controller server.Entitled
  settled : ∀ client ∈ server.clients, server.controller = some client.id →
    client.requestingControl = false

structure RosterSound (server : SessionServer) : Prop where
  unique : (server.clients.map ClientConn.id).Nodup
  issued : ∀ client ∈ server.clients, client.id < server.nextClientId

variable {server : SessionServer} {id : ClientId}

section roster

theorem RosterSound.eq_of_id (sound : server.RosterSound) {first second : ClientConn}
    (hfirst : first ∈ server.clients) (hsecond : second ∈ server.clients)
    (same : first.id = second.id) : first = second :=
  List.inj_on_of_nodup_map sound.unique hfirst hsecond same

theorem mem_updateClient (server : SessionServer) (id : ClientId)
    (change : ClientConn → ClientConn) (client : ClientConn) :
    client ∈ (server.updateClient id change).clients ↔
      ∃ old ∈ server.clients, (if old.id = id then change old else old) = client := by
  simp [updateClient]

@[simp] theorem updateClient_controller (change : ClientConn → ClientConn) :
    (server.updateClient id change).controller = server.controller := rfl

theorem RosterSound.updateClient (sound : server.RosterSound) (id : ClientId)
    (change : ClientConn → ClientConn) (keepsId : ∀ client, (change client).id = client.id) :
    (server.updateClient id change).RosterSound := by
  have sameIds : (server.updateClient id change).clients.map ClientConn.id =
      server.clients.map ClientConn.id := by
    simp only [SessionServer.updateClient, List.map_map]
    apply List.map_congr_left
    intro client _
    by_cases target : client.id = id
    · simp [target, keepsId]
    · simp [target]
  constructor
  · rw [sameIds]
    exact sound.unique
  · intro client member
    have listed : client.id ∈ server.clients.map ClientConn.id :=
      sameIds ▸ List.mem_map_of_mem member
    obtain ⟨old, present, same⟩ := List.mem_map.mp listed
    exact same ▸ sound.issued old present

theorem client_eq_some (sound : server.RosterSound) (client : ClientConn) :
    server.client id = some client ↔ client ∈ server.clients ∧ client.id = id := by
  unfold SessionServer.client
  constructor
  · intro found
    exact ⟨List.mem_of_find?_eq_some found, by simpa using List.find?_some found⟩
  · intro present
    cases found : server.clients.find? (·.id == id) with
    | none =>
        have absent := List.find?_eq_none.mp found client present.1
        simp [present.2] at absent
    | some other =>
        have same : other = client := by
          apply sound.eq_of_id (List.mem_of_find?_eq_some found) present.1
          have matched := List.find?_some found
          simp only [beq_iff_eq] at matched
          rw [matched, present.2]
        rw [same]

theorem clientReadOnly_eq_false (sound : server.RosterSound) {client : ClientConn}
    (present : client ∈ server.clients) (attached : client.attached = true) :
    server.clientReadOnly client.id = client.readOnly := by
  unfold clientReadOnly
  cases found : server.clients.find? fun other => other.id == client.id && other.attached with
  | none =>
      have absent := List.find?_eq_none.mp found client present
      simp [attached] at absent
  | some other =>
      have matched := List.find?_some found
      simp only [Bool.and_eq_true, beq_iff_eq] at matched
      rw [sound.eq_of_id (List.mem_of_find?_eq_some found) present matched.1]

theorem writer_of_clientReadOnly (writes : server.clientReadOnly id = false) :
    ∃ client ∈ server.clients, client.id = id ∧ client.attached = true ∧
      client.readOnly = false := by
  unfold clientReadOnly at writes
  cases found : server.clients.find? fun client => client.id == id && client.attached with
  | none => simp [found] at writes
  | some client =>
      have matched := List.find?_some found
      simp only [Bool.and_eq_true, beq_iff_eq] at matched
      rw [found] at writes
      exact ⟨client, List.mem_of_find?_eq_some found, matched.1, matched.2, writes⟩

theorem entitled_of_checks (writes : server.clientReadOnly id = false)
    (uses : server.clientParked id = false) : server.Entitled id := by
  obtain ⟨client, present, named, attached, writable⟩ := writer_of_clientReadOnly writes
  have unparked : client.parked = false := by
    have all := List.any_eq_false.mp uses client present
    simpa [named, attached] using all
  exact ⟨client, present, named, by simp [ClientConn.entitled, attached, writable, unparked]⟩

end roster

section lease

/-- Changing one connection keeps the lease safe when it leaves the holder entitled and settled,
and entitles nobody new while the lease is free. -/
theorem LeaseSafe.updateClient (safe : server.LeaseSafe) {change : ClientConn → ClientConn}
    (keepsId : ∀ client, (change client).id = client.id)
    (holder : ∀ client ∈ server.clients, client.id = id → server.controller = some id →
      client.requestingControl = false →
      (change client).requestingControl = false ∧ (client.entitled → (change client).entitled))
    (nobody : ∀ client ∈ server.clients, client.id = id → server.controller = none →
      (change client).entitled → client.entitled) :
    (server.updateClient id change).LeaseSafe := by
  constructor
  · apply safe.custody.change
    · intro party holds entitled
      obtain ⟨client, present, named, entitled⟩ := entitled
      refine ⟨if client.id = id then change client else client,
        (mem_updateClient server id change _).mpr ⟨client, present, rfl⟩, ?_, ?_⟩
      · split
        · rw [keepsId, named]
        · exact named
      · split
        · rename_i target
          have held : server.controller = some id := by rw [holds, ← named, target]
          have quiet := safe.settled client present (by rw [holds, named])
          exact (holder client present target held quiet).2 entitled
        · exact entitled
    · intro idle party entitled
      obtain ⟨client, present, named, entitled⟩ := entitled
      obtain ⟨old, member, rfl⟩ := (mem_updateClient server id change client).mp present
      by_cases target : old.id = id
      · rw [if_pos target] at named entitled
        exact ⟨old, member, by rw [← keepsId old, named], nobody old member target idle entitled⟩
      · rw [if_neg target] at named entitled
        exact ⟨old, member, named, entitled⟩
  · intro client present holds
    obtain ⟨old, member, rfl⟩ := (mem_updateClient server id change client).mp present
    by_cases target : old.id = id
    · rw [if_pos target] at holds ⊢
      rw [updateClient_controller, keepsId, target] at holds
      have quiet := safe.settled old member (by rw [holds, target])
      exact (holder old member target holds quiet).1
    · rw [if_neg target] at holds ⊢
      exact safe.settled old member holds

theorem entitled_clearRequest (party : ClientId) :
    (server.clearRequest id).Entitled party ↔ server.Entitled party := by
  constructor
  · rintro ⟨client, present, named, entitled⟩
    obtain ⟨old, member, rfl⟩ := (mem_updateClient _ id _ client).mp present
    refine ⟨old, member, ?_, ?_⟩
    · by_cases target : old.id = id <;> simpa [target] using named
    · by_cases target : old.id = id <;> simpa [target, ClientConn.entitled] using entitled
  · rintro ⟨client, present, named, entitled⟩
    refine ⟨_, (mem_updateClient _ id _ _).mpr ⟨client, present, rfl⟩, ?_, ?_⟩
    · by_cases target : client.id = id <;> simpa [target] using named
    · by_cases target : client.id = id <;> simpa [target, ClientConn.entitled] using entitled

theorem RosterSound.handTo (sound : server.RosterSound) (id : ClientId) :
    ({ server with controller := some id }.clearRequest id).RosterSound :=
  have retained : ({ server with controller := some id } : SessionServer).RosterSound :=
    ⟨sound.unique, sound.issued⟩
  retained.updateClient id _ fun _ => rfl

theorem handTo_safe (worthy : server.Entitled id) :
    ({ server with controller := some id }.clearRequest id).LeaseSafe := by
  constructor
  · apply Custody.handTo
    exact (entitled_clearRequest id).mpr worthy
  · intro client present holds
    obtain ⟨old, _, rfl⟩ := (mem_updateClient _ id _ client).mp present
    by_cases target : old.id = id
    · simp [target]
    · rw [if_neg target] at holds
      exact absurd (Option.some.inj holds).symm target

theorem promotionCandidate_some (found : server.promotionCandidate = some id) :
    server.Entitled id := by
  have member := List.min?_mem found
  obtain ⟨client, present, named⟩ := List.mem_map.mp member
  obtain ⟨present, entitled⟩ := List.mem_filter.mp present
  exact ⟨client, present, named, entitled⟩

theorem promotionCandidate_none (missing : server.promotionCandidate = none) (id : ClientId) :
    ¬ server.Entitled id := by
  rintro ⟨client, present, _, entitled⟩
  have empty := List.min?_eq_none_iff.mp missing
  have listed : client ∈ server.clients.filter fun client =>
      client.attached && !client.readOnly && !client.parked :=
    List.mem_filter.mpr ⟨present, entitled⟩
  rw [List.map_eq_nil_iff.mp empty] at listed
  exact List.not_mem_nil listed

theorem promote_safe (server : SessionServer) : server.promote.LeaseSafe := by
  unfold promote
  cases found : server.promotionCandidate with
  | none =>
      constructor
      · exact ⟨by simp, fun _ => promotionCandidate_none found⟩
      · simp
  | some id => exact handTo_safe (promotionCandidate_some found)

theorem RosterSound.promote (sound : server.RosterSound) : server.promote.RosterSound := by
  unfold SessionServer.promote
  cases server.promotionCandidate with
  | none => exact ⟨sound.unique, sound.issued⟩
  | some id => exact sound.handTo id

theorem setCloseAfterFlush_safe (safe : server.LeaseSafe) (id : ClientId) :
    (server.setCloseAfterFlush id).LeaseSafe :=
  safe.updateClient (fun _ => rfl) (fun _ _ _ _ quiet => ⟨quiet, fun entitled => entitled⟩)
    (fun _ _ _ _ entitled => entitled)

end lease

structure LeaseInv (server : SessionServer) : Prop extends RosterSound server, LeaseSafe server

section handlers

theorem RosterSound.assign (sound : server.RosterSound) (worthy : server.Entitled id)
    (reason : ControllerChangeReason) : (server.assignController id reason).1.LeaseInv :=
  ⟨sound.handTo id, handTo_safe worthy⟩

theorem LeaseInv.setCloseAfterFlush (inv : server.LeaseInv) (id : ClientId) :
    (server.setCloseAfterFlush id).LeaseInv :=
  ⟨inv.toRosterSound.updateClient _ _ fun _ => rfl, setCloseAfterFlush_safe inv.toLeaseSafe id⟩

theorem LeaseInv.handleRequestControl (inv : server.LeaseInv) (now : Instant) (id : ClientId) :
    (server.handleRequestControl now id).1.LeaseInv := by
  unfold SessionServer.handleRequestControl
  by_cases refused : (server.clientReadOnly id || !server.clientAttached id ||
      server.clientParked id) = true
  · simpa [refused] using inv
  simp only [refused, if_false, Bool.false_eq_true]
  simp only [Bool.or_eq_true, Bool.not_eq_true', not_or, Bool.not_eq_true] at refused
  have worthy := entitled_of_checks refused.1.1 refused.2
  by_cases holds : server.controller = some id
  · simpa [holds] using inv
  simp only [beq_iff_eq, holds, if_false]
  cases present : server.controller with
  | none => exact inv.toRosterSound.assign worthy .granted
  | some holder =>
      by_cases takeover : server.allowTakeover = true
      · simpa only [takeover, if_true] using inv.toRosterSound.assign worthy .granted
      · simp only [takeover, if_false, Bool.false_eq_true]
        cases server.client id with
        | none => exact inv
        | some client =>
            refine ⟨inv.toRosterSound.updateClient _ _ fun _ => rfl,
              inv.toLeaseSafe.updateClient (fun _ => rfl) ?_ ?_⟩
            · exact fun _ _ _ held => absurd held holds
            · intro _ _ _ idle
              rw [present] at idle
              cases idle

theorem LeaseInv.handleSetParked (inv : server.LeaseInv) (id : ClientId) (parked : Bool) :
    (server.handleSetParked id parked).1.LeaseInv := by
  unfold SessionServer.handleSetParked
  cases found : (server.client id).filter fun client => client.parked != parked with
  | none => exact inv
  | some client =>
      have changes := Option.filter_eq_some_iff.mp found
      obtain ⟨present, named⟩ := (client_eq_some inv.toRosterSound client).mp changes.1
      have differs : client.parked ≠ parked := by simpa using changes.2
      have only : ∀ other ∈ server.clients, other.id = id → other = client :=
        fun other member same => inv.toRosterSound.eq_of_id member present (same.trans named.symm)
      have sound := inv.toRosterSound.updateClient id
        (fun client => { client with parked }) fun _ => rfl
      simp only [updateClient_controller]
      cases parked with
      | true =>
          by_cases holds : server.controller = some id
          · simp only [holds, Bool.true_and, beq_self_eq_true, if_true]
            exact ⟨sound.promote, promote_safe _⟩
          · simp only [Bool.true_and, beq_iff_eq, holds, if_false, Bool.not_true, Bool.false_and,
              Bool.false_eq_true]
            refine ⟨sound, inv.toLeaseSafe.updateClient (fun _ => rfl) ?_ ?_⟩
            · exact fun _ _ _ held => absurd held holds
            · intro _ _ _ _ entitled
              simp [ClientConn.entitled] at entitled
      | false =>
          have wasParked : client.parked = true := by simpa using differs
          have notHolder : server.controller ≠ some id := by
            intro holds
            obtain ⟨holder, member, same, entitled⟩ := inv.custody.held id holds
            rw [only holder member same] at entitled
            simp [ClientConn.entitled, wasParked] at entitled
          simp only [Bool.false_and, Bool.not_false, Bool.true_and, Bool.false_eq_true, if_false]
          by_cases claims : (server.controller.isNone && !(server.updateClient id
              fun client => { client with parked := false }).clientReadOnly id) = true
          · rw [if_pos claims]
            simp only [Bool.and_eq_true, Bool.not_eq_true'] at claims
            apply sound.assign
            apply entitled_of_checks claims.2
            apply List.any_eq_false.mpr
            intro other member
            obtain ⟨old, _, rfl⟩ := (mem_updateClient _ id _ other).mp member
            by_cases target : old.id = id <;> simp [target]
          · rw [if_neg claims]
            refine ⟨sound, inv.toLeaseSafe.updateClient (fun _ => rfl) ?_ ?_⟩
            · exact fun _ _ _ held => absurd held notHolder
            · intro other member same idle entitled
              simp only [ClientConn.entitled, Bool.and_eq_true, Bool.not_eq_true'] at entitled
              have updated := (mem_updateClient server id
                (fun client => { client with parked := false }) _).mpr
                ⟨other, member, if_pos same⟩
              have reads := clientReadOnly_eq_false sound updated entitled.1.1
              simp only [same] at reads
              simp [idle, reads, entitled.1.2] at claims

theorem LeaseInv.handleGrantControl (inv : server.LeaseInv) (id recipient : ClientId) :
    (server.handleGrantControl id recipient).1.LeaseInv := by
  unfold SessionServer.handleGrantControl
  split
  · exact inv
  · rename_i passed
    simp only [Bool.or_eq_true, Bool.not_eq_true', not_or, Bool.not_eq_true] at passed
    exact inv.toRosterSound.assign (entitled_of_checks passed.1.2 passed.2) .granted

theorem LeaseInv.handleSetControlTakeover (inv : server.LeaseInv) (id : ClientId)
    (allowed : Bool) : (server.handleSetControlTakeover id allowed).1.LeaseInv := by
  unfold SessionServer.handleSetControlTakeover
  split
  · exact inv
  · exact ⟨⟨inv.unique, inv.issued⟩, ⟨inv.custody, inv.settled⟩⟩

theorem LeaseInv.handleDeclineControl (inv : server.LeaseInv) (id recipient : ClientId) :
    (server.handleDeclineControl id recipient).1.LeaseInv := by
  unfold SessionServer.handleDeclineControl
  split
  · exact inv
  · cases (server.client recipient).filter ClientConn.requestingControl with
    | none => exact inv
    | some client =>
        refine ⟨inv.toRosterSound.updateClient _ _ fun _ => rfl,
          inv.toLeaseSafe.updateClient (fun _ => rfl) ?_ ?_⟩
        · exact fun _ _ _ _ _ => ⟨rfl, fun entitled => entitled⟩
        · exact fun _ _ _ _ entitled => entitled

theorem LeaseInv.handleEvictClient (inv : server.LeaseInv) (id target : ClientId) :
    (server.handleEvictClient id target).1.LeaseInv := by
  unfold SessionServer.handleEvictClient
  split
  · exact inv
  · exact inv.setCloseAfterFlush target

theorem LeaseInv.removeClientWithReason (inv : server.LeaseInv) (id : ClientId)
    (reason : ControllerChangeReason) : (server.removeClientWithReason id reason).1.LeaseInv := by
  unfold SessionServer.removeClientWithReason
  cases found : server.client id with
  | none => exact inv
  | some removed =>
      obtain ⟨present, named⟩ := (client_eq_some inv.toRosterSound removed).mp found
      have remaining := mem_eraseP_key inv.unique id
      have sound : (SessionServer.RosterSound { server with
          clients := server.clients.eraseP (·.id == id)
          localPanes := ⟨server.localPanes.entries.filter fun entry => entry.1.1 != id,
            server.localPanes.nodupKeys.sublist List.filter_sublist⟩ }) := by
        constructor
        · exact inv.unique.sublist (List.eraseP_sublist.map ClientConn.id)
        · exact fun client member => inv.issued client ((remaining client).mp member).1
      by_cases holds : server.controller = some id
      · have attached : removed.attached = true := by
          obtain ⟨holder, member, same, entitled⟩ := inv.custody.held id holds
          rw [inv.toRosterSound.eq_of_id member present (same.trans named.symm)] at entitled
          simp only [ClientConn.entitled, Bool.and_eq_true] at entitled
          exact entitled.1.1
        simp only [attached, Bool.not_true, Bool.false_eq_true, if_false, holds,
          beq_self_eq_true, if_true]
        exact ⟨sound.promote, promote_safe _⟩
      · have safe : (SessionServer.LeaseSafe { server with
            clients := server.clients.eraseP (·.id == id)
            localPanes := ⟨server.localPanes.entries.filter fun entry => entry.1.1 != id,
              server.localPanes.nodupKeys.sublist List.filter_sublist⟩ }) := by
          constructor
          · apply inv.custody.change
            · intro party held entitled
              obtain ⟨client, member, same, entitled⟩ := entitled
              have other : client.id ≠ id := fun target => holds (by rw [held, ← same, target])
              exact ⟨client, (remaining client).mpr ⟨member, other⟩, same, entitled⟩
            · intro _ party entitled
              obtain ⟨client, member, same, entitled⟩ := entitled
              exact ⟨client, ((remaining client).mp member).1, same, entitled⟩
          · exact fun client member => inv.settled client ((remaining client).mp member).1
        simp only [beq_iff_eq, holds, if_false]
        split
        · exact ⟨sound, safe⟩
        · exact ⟨sound, safe⟩

theorem LeaseInv.dropClients (inv : server.LeaseInv) (full : List ClientId) :
    (server.dropClients full).LeaseInv := by
  unfold SessionServer.dropClients
  induction full generalizing server with
  | nil => exact inv
  | cons id rest ih => exact ih (inv.removeClientWithReason id .granted)

theorem LeaseInv.acceptNew (inv : server.LeaseInv) : server.acceptNew.LeaseInv := by
  have fresh : ∀ client ∈ server.clients, client.id ≠ server.nextClientId :=
    fun client member => Nat.ne_of_lt (inv.issued client member)
  constructor
  · constructor
    · simp only [SessionServer.acceptNew, List.map_append, List.map_cons, List.map_nil]
      apply List.Nodup.append inv.unique (List.nodup_singleton _)
      intro id old new
      obtain ⟨client, member, rfl⟩ := List.mem_map.mp old
      exact fresh client member (List.mem_singleton.mp new)
    · intro client member
      rcases List.mem_append.mp member with old | new
      · exact Nat.lt_succ_of_lt (inv.issued client old)
      · rw [List.mem_singleton.mp new]
        exact Nat.lt_succ_self _
  · constructor
    · apply inv.custody.change
      · intro party _ entitled
        obtain ⟨client, member, same, entitled⟩ := entitled
        exact ⟨client, List.mem_append_left _ member, same, entitled⟩
      · intro _ party entitled
        obtain ⟨client, member, same, entitled⟩ := entitled
        rcases List.mem_append.mp member with old | new
        · exact ⟨client, old, same, entitled⟩
        · rw [List.mem_singleton.mp new] at entitled
          simp [ClientConn.entitled] at entitled
    · intro client member holds
      rcases List.mem_append.mp member with old | new
      · exact inv.settled client old holds
      · rw [List.mem_singleton.mp new]

end handlers

section attach

/-- What an accepted attach must be for the lease: the holder does not come back read-only, and a
free lease goes to a connection of the roster that is neither parked nor still asking for it. -/
def AttachSound (server : SessionServer) (id : ClientId) (request : AttachRequest) : Prop :=
  (server.controller = some id → request.readOnly = false) ∧
    (server.controller = none → request.readOnly = false →
      ∃ client ∈ server.clients, client.id = id ∧ client.parked = false ∧
        client.requestingControl = false)

theorem RosterSound.joinReader (sound : server.RosterSound) (id : ClientId)
    (request : AttachRequest) (effective : Nat) :
    (server.joinReader id request effective).1.RosterSound := by
  unfold SessionServer.joinReader
  simp only
  have updated := sound.updateClient id (fun client =>
    { client with
      attached := true
      label := some request.label
      readOnly := request.readOnly
      sharesFilesystem := request.sharesFilesystem
      effectiveProtocol := effective }) fun _ => rfl
  split
  · exact ⟨updated.unique, updated.issued⟩
  · exact updated

theorem mem_joinReader (server : SessionServer) (id : ClientId) (request : AttachRequest)
    (effective : Nat) (client : ClientConn) :
    client ∈ (server.joinReader id request effective).1.clients ↔
      ∃ old ∈ server.clients, (if old.id = id then
        { old with
          attached := true
          label := some request.label
          readOnly := request.readOnly
          sharesFilesystem := request.sharesFilesystem
          effectiveProtocol := effective } else old) = client := by
  unfold SessionServer.joinReader
  simp only
  split <;> exact mem_updateClient _ id _ client

theorem joinReader_controller (server : SessionServer) (id : ClientId) (request : AttachRequest)
    (effective : Nat) :
    (server.joinReader id request effective).1.controller =
      if server.controller = none ∧ request.readOnly = false then some id
      else server.controller := by
  unfold SessionServer.joinReader
  cases held : server.controller <;> cases request.readOnly <;> simp [held]

theorem AttachSound.joinReader (sound : AttachSound server id request) (inv : server.LeaseInv)
    (effective : Nat) : (server.joinReader id request effective).1.LeaseSafe := by
  have controller := joinReader_controller server id request effective
  have mem := mem_joinReader server id request effective
  by_cases granted : server.controller = none ∧ request.readOnly = false
  · rw [if_pos granted] at controller
    obtain ⟨own, present, named, unparked, quiet⟩ := sound.2 granted.1 granted.2
    constructor
    · rw [controller]
      apply Custody.handTo
      refine ⟨_, (mem _).mpr ⟨own, present, rfl⟩, ?_, ?_⟩
      · simp [named]
      · simp [named, ClientConn.entitled, granted.2, unparked]
    · intro client member holds
      rw [controller] at holds
      obtain ⟨old, present', rfl⟩ := (mem client).mp member
      have target : old.id = id := by
        by_contra other
        rw [if_neg other] at holds
        exact other (Option.some.inj holds).symm
      rw [if_pos target]
      rw [inv.toRosterSound.eq_of_id present' present (target.trans named.symm)]
      exact quiet
  · rw [if_neg granted] at controller
    constructor
    · rw [controller]
      apply inv.custody.change
      · intro party holds entitled
        obtain ⟨client, present, named, entitled⟩ := entitled
        refine ⟨_, (mem _).mpr ⟨client, present, rfl⟩, ?_, ?_⟩
        · split <;> exact named
        · split
          · rename_i target
            have writes := sound.1 (by rw [holds, ← named, target])
            simp only [ClientConn.entitled, Bool.and_eq_true, Bool.not_eq_true'] at entitled
            simp [ClientConn.entitled, writes, entitled.2]
          · exact entitled
      · intro idle party entitled
        obtain ⟨client, member, named, entitled⟩ := entitled
        obtain ⟨old, present, rfl⟩ := (mem client).mp member
        by_cases target : old.id = id
        · rw [if_pos target] at entitled
          simp only [ClientConn.entitled, Bool.and_eq_true, Bool.not_eq_true'] at entitled
          exact absurd ⟨idle, entitled.1.2⟩ granted
        · rw [if_neg target] at named entitled
          exact ⟨old, present, named, entitled⟩
    · intro client member holds
      rw [controller] at holds
      obtain ⟨old, present, rfl⟩ := (mem client).mp member
      by_cases target : old.id = id
      · rw [if_pos target] at holds ⊢
        exact inv.settled old present holds
      · rw [if_neg target] at holds ⊢
        exact inv.settled old present holds

/-- An attach that is not sound leaves the lease unsafe the moment it registers. -/
theorem joinReader_safe_iff (inv : server.LeaseInv) (request : AttachRequest) (effective : Nat) :
    (server.joinReader id request effective).1.LeaseSafe ↔ AttachSound server id request := by
  constructor
  · intro safe
    have controller := joinReader_controller server id request effective
    have mem := mem_joinReader server id request effective
    constructor
    · intro holds
      have still : (server.joinReader id request effective).1.controller = some id := by
        rw [controller, holds]
        simp
      obtain ⟨client, member, named, entitled⟩ := safe.custody.held id still
      obtain ⟨old, _, rfl⟩ := (mem client).mp member
      have target : old.id = id := by
        by_contra other
        rw [if_neg other] at named
        exact other named
      rw [if_pos target] at entitled
      simp only [ClientConn.entitled, Bool.and_eq_true, Bool.not_eq_true'] at entitled
      exact entitled.1.2
    · intro idle writes
      have granted : (server.joinReader id request effective).1.controller = some id := by
        rw [controller, if_pos ⟨idle, writes⟩]
      obtain ⟨client, member, named, entitled⟩ := safe.custody.held id granted
      have quiet := safe.settled client member (by rw [granted, named])
      obtain ⟨old, present, rfl⟩ := (mem client).mp member
      have target : old.id = id := by
        by_contra other
        rw [if_neg other] at named
        exact other named
      rw [if_pos target] at entitled quiet
      simp only [ClientConn.entitled, Bool.and_eq_true, Bool.not_eq_true'] at entitled
      exact ⟨old, present, target, entitled.2, quiet⟩
  · exact fun sound => sound.joinReader inv effective

theorem LeaseInv.handleAttach (inv : server.LeaseInv) (request : AttachRequest)
    (mediaFull greetingFull : List ClientId)
    (sound : ∀ effective, server.checkAttach request = .ok effective →
      AttachSound (server.dropClients mediaFull) id request) :
    (server.handleAttach id request mediaFull greetingFull).1.LeaseInv := by
  unfold SessionServer.handleAttach
  cases checked : server.checkAttach request with
  | error refusal => exact inv
  | ok effective =>
      have before := inv.dropClients mediaFull
      have joined : (((server.dropClients mediaFull).joinReader id request effective).1).LeaseInv :=
        ⟨before.toRosterSound.joinReader id request effective,
          (sound effective checked).joinReader before effective⟩
      exact joined.dropClients greetingFull

end attach

/-- The condition on one step of the lease: an attach that passes its checks is sound when it
registers, after the sends before it dropped the connections they found full. -/
def LeaseSound (server : SessionServer) : LeaseLabel → Prop
  | .control _ id (.attach request) full =>
      let server := server.dropClients full.events
      ∀ effective, server.checkAttach request = .ok effective →
        AttachSound (server.dropClients full.media) id request
  | _ => True

section run

theorem LeaseInv.handleMessage (inv : server.LeaseInv) (now : Instant) (message : ClientMessage)
    (full : FullOutboxes)
    (sound : ∀ request, message = .attach request → ∀ effective,
      server.checkAttach request = .ok effective →
        AttachSound (server.dropClients full.media) id request) :
    (server.handleMessage now id message full).1.LeaseInv := by
  cases message with
  | attach request => exact inv.handleAttach request full.media full.greeting (sound request rfl)
  | detach => exact inv
  | other query => exact inv
  | setParked parked => exact inv.handleSetParked id parked
  | requestControl => exact inv.handleRequestControl now id
  | grantControl recipient => exact inv.handleGrantControl id recipient
  | declineControl recipient => exact inv.handleDeclineControl id recipient
  | setControlTakeover allowed => exact inv.handleSetControlTakeover id allowed
  | evictClient target => exact inv.handleEvictClient id target

theorem LeaseInv.processClientControlNow (inv : server.LeaseInv) (now : Instant)
    (message : ClientMessage) (full : FullOutboxes)
    (sound : server.LeaseSound (.control now id message full)) :
    (server.processClientControlNow now id message full).LeaseInv := by
  unfold SessionServer.processClientControlNow
  generalize entered : (if message.isAttach = true then server.dropClients full.events
    else server) = entry
  have begun : entry.LeaseInv := by
    rw [← entered]
    split
    · exact inv.dropClients full.events
    · exact inv
  simp only
  split
  · exact (begun.dropClients full.responses).setCloseAfterFlush id
  · have handled : (entry.handleMessage now id message full).1.LeaseInv := by
      apply begun.handleMessage
      intro request same effective checked
      subst same
      simp only [ClientMessage.isAttach, if_true] at entered
      subst entered
      exact sound effective checked
    have answered := handled.dropClients full.responses
    have closed : ∀ {server : SessionServer} (condition : Bool), server.LeaseInv →
        (if condition then server.setCloseAfterFlush id else server).LeaseInv := by
      intro server condition inv
      split
      · exact inv.setCloseAfterFlush id
      · exact inv
    split
    · exact (closed _ (closed _ answered)).removeClientWithReason id .granted
    · exact closed _ (closed _ answered)

theorem LeaseInv.leaseStep (inv : server.LeaseInv) (label : LeaseLabel)
    (sound : server.LeaseSound label) : (server.leaseStep label).LeaseInv := by
  cases label with
  | accept => exact inv.acceptNew
  | control now id message full => exact inv.processClientControlNow now message full sound
  | lost id reason => exact inv.removeClientWithReason id reason

theorem Unattended.leaseInv (unattended : server.Unattended) : server.LeaseInv := by
  obtain ⟨empty, free⟩ := unattended
  constructor
  · constructor <;> simp [empty]
  · constructor
    · constructor
      · simp [free]
      · rintro _ party ⟨client, member, _⟩
        simp [empty] at member
    · simp [empty]

theorem leaseInv_of_run (reached : leaseRuns.ReachableWhen LeaseSound server) :
    server.LeaseInv := by
  apply reached.invariant
  · exact fun _ unattended => unattended.leaseInv
  · rintro state label next inv sound rfl
    exact inv.leaseStep label sound

/-- In every run whose attaches are sound, the holder of the lease is an attached, writing, unparked
client of the roster with no request pending, and a free lease means nobody could hold it. -/
theorem lease_safe (server : SessionServer)
    (reached : leaseRuns.ReachableWhen LeaseSound server) : server.LeaseSafe :=
  (leaseInv_of_run reached).toLeaseSafe

/-- An attach to the session `work` over the protocol the server speaks. -/
def attachWork (readOnly : Bool) : ClientMessage :=
  .attach {
    session := "work", protocolVersion, minProtocolVersion := minSupportedProtocol
    label := "laptop", readOnly, sharesFilesystem := true, expectedServerNonce := none }

/-- The session `work` after its first client attached, able to write. -/
def firstAttached : SessionServer :=
  (acceptNew { sessionName := "work" }).leaseStep (.control 0 1 (attachWork false) {})

theorem lease_safe_firstAttached : firstAttached.LeaseSafe := by
  have start : leaseRuns.ReachableWhen LeaseSound { sessionName := "work" } := .initial ⟨rfl, rfl⟩
  have accepted : leaseRuns.ReachableWhen LeaseSound (acceptNew { sessionName := "work" }) :=
    start.next .accept trivial rfl
  apply lease_safe
  apply accepted.next (.control 0 1 (attachWork false) {})
  · intro effective _
    refine ⟨fun _ => rfl, fun _ _ => ?_⟩
    exact ⟨{ id := 1 }, by decide, rfl, rfl, rfl⟩
  · rfl

/-- The holder of the lease attaches again, read-only this time, and keeps the lease. -/
theorem lease_unsafe_after_read_only_reattach :
    ¬ ∀ server : SessionServer, leaseRuns.Reachable server → server.LeaseSafe := by
  intro safe
  have start : leaseRuns.Reachable { sessionName := "work" } := .begin ⟨rfl, rfl⟩
  have accepted : leaseRuns.Reachable (acceptNew { sessionName := "work" }) :=
    start.next .accept rfl
  have attached : leaseRuns.Reachable firstAttached :=
    accepted.next (.control 0 1 (attachWork false) {}) rfl
  have again := safe _ (attached.next (.control 1 1 (attachWork true) {}) rfl)
  obtain ⟨client, member, named, entitled⟩ := again.custody.held 1 (by decide)
  have reader : ∀ client ∈ (firstAttached.leaseStep
      (.control 1 1 (attachWork true) {})).clients, client.entitled = false := by decide
  rw [reader client member] at entitled
  cases entitled

end run

end SessionServer

end Rozi
