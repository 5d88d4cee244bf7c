import Rozi.Extension.InvocationsRun

/-!
What holds of the calls of a session server in every run: how many run and how deep, who waits for
an answer, whose credential is dead, and which records stay.
-/

namespace Rozi.Calls

variable {J : Type}

namespace Invocations

variable {invocations : Invocations J}

theorem lookup_update {change : String → Running → Running} (id : String) :
    (invocations.update change).running.lookup id =
      (invocations.running.lookup id).map (change id) := by
  unfold update
  rw [AList.lookup_retain]
  cases invocations.running.lookup id <;> rfl

theorem values_update {change : String → Running → Running} :
    (invocations.update change).values =
      invocations.running.entries.map fun entry => change entry.1 entry.2 := by
  unfold values update
  rw [AList.entries_retain_some, List.map_map]
  rfl

theorem values_update_const {change : Running → Running} :
    (invocations.update fun _ => change).values = invocations.values.map change := by
  rw [values_update]
  unfold values
  rw [List.map_map]
  rfl

theorem length_update {change : String → Running → Running} :
    (invocations.update change).values.length = invocations.values.length := by
  rw [values_update, values, List.length_map, List.length_map]

theorem mem_values {running : Running} :
    running ∈ invocations.values ↔ ∃ id, invocations.running.lookup id = some running := by
  constructor
  · intro listed
    rcases List.mem_map.mp listed with ⟨⟨id, record⟩, entry, same⟩
    exact ⟨id, AList.mem_lookup_iff.mpr (same ▸ entry)⟩
  · rintro ⟨id, found⟩
    exact List.mem_map.mpr ⟨⟨id, running⟩, AList.mem_lookup_iff.mp found, rfl⟩

theorem drainReports_cons_of_lookup {finished : Finished J} {rest : List (Finished J)}
    {running : AList fun _ : String => Running} {record : Running}
    (found : running.lookup finished.id = some record) :
    drainReports (finished :: rest) running =
      (ended finished record :: (drainReports rest (running.erase finished.id)).1,
        (drainReports rest (running.erase finished.id)).2) := by
  rw [drainReports, found]

theorem drainReports_cons_of_none {finished : Finished J} {rest : List (Finished J)}
    {running : AList fun _ : String => Running}
    (missing : running.lookup finished.id = none) :
    drainReports (finished :: rest) running = drainReports rest running := by
  rw [drainReports, missing]

/-- What is left after the reports were read are the records no report is of. -/
theorem lookup_drainReports (reports : List (Finished J))
    (running : AList fun _ : String => Running) (id : String) :
    (drainReports reports running).2.lookup id =
      if id ∈ reports.map Finished.id then none else running.lookup id := by
  induction reports generalizing running with
  | nil => rfl
  | cons finished rest ih =>
      simp only [List.map_cons, List.mem_cons]
      cases found : running.lookup finished.id with
      | none =>
          rw [drainReports_cons_of_none found, ih]
          by_cases same : id = finished.id
          · have gone : running.lookup id = none := same ▸ found
            simp only [gone, ite_self]
          · simp only [same, false_or]
      | some record =>
          rw [drainReports_cons_of_lookup found]
          simp only [ih, AList.lookup_erase_eq]
          by_cases same : id = finished.id
          · simp [same]
          · simp [same]

end Invocations

/-- What may become of a record: its call can lose its caller and its credential. -/
structure Tame (before after : Running) : Prop where
  info : after.info = before.info
  extension : after.extension = before.extension
  deadline : after.deadline = before.deadline
  credential : after.credential = before.credential
  caller : after.caller = before.caller ∨ after.caller = none
  cancel : before.cancel = true → after.cancel = true

namespace Tame

theorem refl (running : Running) : Tame running running :=
  ⟨rfl, rfl, rfl, rfl, .inl rfl, fun cancelled => cancelled⟩

theorem stop (running : Running) : Tame running running.stop :=
  ⟨rfl, rfl, rfl, rfl, .inl rfl, fun _ => rfl⟩

theorem depart (running : Running) : Tame running { running.stop with caller := none } :=
  ⟨rfl, rfl, rfl, rfl, .inr rfl, fun _ => rfl⟩

theorem abandoned (client : ClientId) (running : Running) :
    Tame running (Invocations.abandoned client running) := by
  unfold Invocations.abandoned
  split_ifs
  · exact depart running
  · exact refl running

end Tame

/-- The records after are some of those before, changed tamely. -/
structure Shrinks (before after : Invocations J) : Prop where
  fewer : after.values.length ≤ before.values.length
  kept : ∀ id running, after.running.lookup id = some running →
    ∃ earlier, before.running.lookup id = some earlier ∧ Tame earlier running

namespace Shrinks

variable {invocations : Invocations J}

theorem refl (invocations : Invocations J) : Shrinks invocations invocations :=
  ⟨le_rfl, fun _ running found => ⟨running, found, .refl running⟩⟩

theorem update {change : String → Running → Running}
    (tame : ∀ id running, Tame running (change id running)) :
    Shrinks invocations (invocations.update change) where
  fewer := Invocations.length_update.le
  kept := by
    intro id running found
    rw [Invocations.lookup_update, Option.map_eq_some_iff] at found
    rcases found with ⟨earlier, found, same⟩
    exact ⟨earlier, found, same ▸ tame id earlier⟩

theorem length_drainReports_le (reports : List (Finished J))
    (running : AList fun _ : String => Running) :
    (Invocations.drainReports reports running).2.entries.length ≤ running.entries.length := by
  induction reports generalizing running with
  | nil => exact le_rfl
  | cons finished rest ih =>
      cases found : running.lookup finished.id with
      | none =>
          rw [Invocations.drainReports_cons_of_none found]
          exact ih running
      | some record =>
          rw [Invocations.drainReports_cons_of_lookup found]
          have split := (AList.entries_perm_of_lookup found).length_eq
          rw [List.length_cons] at split
          have shorter := ih (running.erase finished.id)
          simp only at shorter ⊢
          omega

theorem drain : Shrinks invocations invocations.drain.2 where
  fewer := by
    unfold Invocations.values
    rw [List.length_map, List.length_map]
    exact length_drainReports_le _ _
  kept := by
    intro id running found
    change (Invocations.drainReports _ _).2.lookup id = _ at found
    rw [Invocations.lookup_drainReports] at found
    split_ifs at found
    exact ⟨running, found, .refl running⟩

theorem shutDownRound : Shrinks invocations invocations.shutDownRound := by
  unfold Invocations.shutDownRound
  split
  · exact .refl invocations
  · rename_i finished rest _
    constructor
    · unfold Invocations.values
      rw [List.length_map, List.length_map]
      cases found : invocations.running.lookup finished.id with
      | none => rw [AList.erase_of_lookup_none found]
      | some record =>
          have split := (AList.entries_perm_of_lookup found).length_eq
          rw [List.length_cons] at split
          exact (Nat.le_succ _).trans split.ge
    · intro id running found
      exact ⟨running, (AList.lookup_erase_some found).2, .refl running⟩

end Shrinks

/-! Who waits, before and after. -/

namespace World

def waitersOf (values : List Running) : List (String × (ClientId × ReplyTo)) :=
  values.filterMap waiter

variable {invocations : Invocations J}

theorem waitersOf_update {change : String → Running → Running}
    (same : ∀ id running, waiter (change id running) = waiter running) :
    waitersOf (invocations.update change).values = waitersOf invocations.values := by
  rw [waitersOf, waitersOf, Invocations.values_update, Invocations.values, List.filterMap_map,
    List.filterMap_map]
  exact List.filterMap_congr fun entry _ => same entry.1 entry.2

theorem waitersOf_stopOne (id : String) :
    waitersOf (invocations.stopOne id).values = waitersOf invocations.values := by
  refine waitersOf_update fun other running => ?_
  split_ifs <;> rfl

theorem waitersOf_retireExtension (extension : String) (generation : Nat) :
    waitersOf (invocations.retireExtension extension generation).2.values =
      waitersOf invocations.values := by
  refine waitersOf_update fun _ running => ?_
  split_ifs <;> rfl

theorem credited_takeCallers (world : World J) :
    world.credited world.invocations.takeCallers.1 = world.waiting := by
  have callers : world.invocations.takeCallers.1 = world.waiting.map Prod.snd := by
    unfold Invocations.takeCallers waiting values
    rw [List.map_filterMap]
    refine List.filterMap_congr fun running _ => ?_
    rw [waiter, Option.map_map]
    exact (Option.map_id' (x := running.caller)).symm
  rw [credited, callers]
  refine List.ext_getElem (by simp) fun place inside _ => ?_
  rw [List.length_mapIdx, List.length_map] at inside
  simp [inside]

theorem waitersOf_takeCallers : waitersOf invocations.takeCallers.2.values = [] := by
  unfold Invocations.takeCallers waitersOf
  rw [Invocations.values_update_const, List.filterMap_map]
  exact List.filterMap_eq_nil_iff.mpr fun _ _ => rfl

theorem waitersOf_abandonClient (client : ClientId) :
    (waitersOf invocations.values).Perm
      (waitersOf (invocations.abandonClient client).values ++
        waitersOf (invocations.values.filter (·.calledBy client))) := by
  unfold Invocations.abandonClient waitersOf
  rw [Invocations.values_update_const]
  induction invocations.values with
  | nil => exact .refl _
  | cons running values ih =>
      rw [List.map_cons]
      cases called : running.calledBy client with
      | false =>
          have stays : Invocations.abandoned client running = running := by
            rw [Invocations.abandoned, called]
            rfl
          rw [stays, List.filter_cons_of_neg (by rw [called]; decide)]
          cases waits : waiter running with
          | none =>
              rw [List.filterMap_cons_none waits, List.filterMap_cons_none waits]
              exact ih
          | some pair =>
              rw [List.filterMap_cons_some waits, List.filterMap_cons_some waits]
              exact ih.cons pair
      | true =>
          have leaves : waiter (Invocations.abandoned client running) = none := by
            rw [Invocations.abandoned, called]
            rfl
          rw [List.filterMap_cons_none leaves, List.filter_cons_of_pos (by rw [called])]
          cases waits : waiter running with
          | none =>
              rw [List.filterMap_cons_none waits, List.filterMap_cons_none waits]
              exact ih
          | some pair =>
              rw [List.filterMap_cons_some waits, List.filterMap_cons_some waits]
              exact (ih.cons pair).trans List.perm_middle.symm

def answered (call : EndedCall J) : Option (String × (ClientId × ReplyTo)) :=
  call.caller.map fun caller => (call.credential, caller)

theorem answered_ended (finished : Finished J) (running : Running) :
    answered (Invocations.ended finished running) = waiter running := rfl

theorem waitersOf_drainReports (reports : List (Finished J))
    (running : AList fun _ : String => Running) :
    (waitersOf (running.entries.map Sigma.snd)).Perm
      (waitersOf ((Invocations.drainReports reports running).2.entries.map Sigma.snd) ++
        (Invocations.drainReports reports running).1.filterMap answered) := by
  induction reports generalizing running with
  | nil =>
      rw [Invocations.drainReports, List.filterMap_nil, List.append_nil]
  | cons finished rest ih =>
      cases found : running.lookup finished.id with
      | none =>
          rw [Invocations.drainReports_cons_of_none found]
          exact ih running
      | some record =>
          rw [Invocations.drainReports_cons_of_lookup found]
          have split : (running.entries.map Sigma.snd).Perm
              (record :: (running.erase finished.id).entries.map Sigma.snd) :=
            (AList.entries_perm_of_lookup found).map Sigma.snd
          refine (split.filterMap waiter).trans ?_
          cases waits : waiter record with
          | none =>
              rw [waitersOf, List.filterMap_cons_none waits,
                List.filterMap_cons_none (by rw [answered_ended, waits])]
              exact ih _
          | some pair =>
              rw [waitersOf, List.filterMap_cons_some waits,
                List.filterMap_cons_some (by rw [answered_ended, waits])]
              exact ((ih _).cons pair).trans List.perm_middle.symm

end World

end Rozi.Calls
