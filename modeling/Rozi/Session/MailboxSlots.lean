import Rozi.Session.MailboxOrder

/-!
Where what comes out of a mailbox stood among what was fed.
-/

namespace Rozi.Inbound

open Lanes ByteQueue ReplacementQueue

/-- No event fed between two positions ends the replacements of the key. -/
def Clear (fed : List InboundEvent) (key : ReplacementKey) (after before : Nat) : Prop :=
  ∀ position event, after < position → position < before → fed[position]? = some event →
    invalidates key event = false

structure Slot where
  placed : Nat
  parts : List Nat
  value : InboundEvent
  deriving DecidableEq, Repr

/-- How a slot may have come to its value. Output merges into it past other output alone, and a
frame replaces one of its key where nothing fed since the place was taken ends that. -/
inductive Sound (fed : List InboundEvent) : Slot → Prop
  | kept {position : Nat} {event : InboundEvent} (there : fed[position]? = some event) :
      Sound fed ⟨position, [position], event⟩
  | merged {placed position : Nat} {parts : List Nat} {stream : PresentationKey}
      {metadata last : OutputMetadata} {bytes more : Bytes}
      (sound : Sound fed ⟨placed, parts, .frame (.paneOutput stream metadata none bytes)⟩)
      (first : isOrdered metadata = true)
      (there : fed[position]? = some (.frame (.paneOutput stream last none more)))
      (second : isOrdered last = true) (later : ∀ part ∈ parts, part < position)
      (between : ∀ other event, placed < other → other < position → fed[other]? = some event →
        isOutput event = true) :
      Sound fed ⟨placed, parts ++ [position], .frame (.paneOutput stream last none (bytes ++ more))⟩
  | replaced {placed position : Nat} {parts : List Nat} {value event : InboundEvent}
      {key : ReplacementKey} (sound : Sound fed ⟨placed, parts, value⟩)
      (queued : eventKey value = some key) (there : fed[position]? = some event)
      (keyed : eventKey event = some key) (later : placed < position)
      (clear : Clear fed key placed position) :
      Sound fed ⟨placed, [position], event⟩

/-- A fed event is part of a slot, or gave way to a later one of its key. -/
def Accounted (fed : List InboundEvent) (slots : List Slot) (position : Nat)
    (event : InboundEvent) : Prop :=
  (∃ slot ∈ slots, position ∈ slot.parts) ∨
    ∃ key later new, eventKey event = some key ∧ position < later ∧ fed[later]? = some new ∧
      eventKey new = some key ∧ Clear fed key position later

section sound

variable {fed : List InboundEvent} {slot : Slot} {key : ReplacementKey}

theorem fed_extended {position : Nat} {event : InboundEvent} (more : List InboundEvent)
    (there : fed[position]? = some event) : (fed ++ more)[position]? = some event := by
  have bound : position < fed.length := (List.getElem?_eq_some_iff.mp there).1
  rwa [List.getElem?_append_left bound]

theorem fed_cut {position : Nat} {event : InboundEvent} {more : List InboundEvent}
    (bound : position < fed.length) (there : (fed ++ more)[position]? = some event) :
    fed[position]? = some event := by
  rwa [List.getElem?_append_left bound] at there

theorem Clear.extended {after before : Nat} (clear : Clear fed key after before)
    (bound : before ≤ fed.length) (more : List InboundEvent) :
    Clear (fed ++ more) key after before := by
  intro position event later earlier there
  exact clear position event later earlier (fed_cut (by omega) there)

theorem Clear.grown {after : Nat} {event : InboundEvent} (clear : Clear fed key after fed.length)
    (spared : invalidates key event = false) :
    Clear (fed ++ [event]) key after (fed ++ [event]).length := by
  intro position other later earlier there
  by_cases old : position < fed.length
  · exact clear position other later old (fed_cut old there)
  · have last : position = fed.length := by
      rw [List.length_append, List.length_singleton] at earlier
      omega
    subst last
    rw [List.getElem?_concat_length] at there
    cases there
    exact spared

theorem Sound.extended (sound : Sound fed slot) (more : List InboundEvent) :
    Sound (fed ++ more) slot := by
  induction sound with
  | kept there => exact .kept (fed_extended more there)
  | merged sound first there second later between ih =>
      have bound := (List.getElem?_eq_some_iff.mp there).1
      refine .merged ih first (fed_extended more there) second later ?_
      intro other event after before present
      exact between other event after before (fed_cut (before.trans bound) present)
  | replaced sound queued there keyed later clear ih =>
      have bound := (List.getElem?_eq_some_iff.mp there).1
      exact .replaced ih queued (fed_extended more there) keyed later
        (clear.extended bound.le more)

theorem Sound.bounds (sound : Sound fed slot) :
    slot.placed < fed.length ∧ slot.parts ≠ [] ∧
      ∀ part ∈ slot.parts, slot.placed ≤ part ∧ part < fed.length := by
  induction sound with
  | kept there =>
      have bound := (List.getElem?_eq_some_iff.mp there).1
      exact ⟨bound, by simp, by simpa using bound⟩
  | @merged placed position parts _ _ _ _ _ sound first there second later between ih =>
      have bound := (List.getElem?_eq_some_iff.mp there).1
      rcases ih with ⟨inside, filled, spread⟩
      have after : placed < position := by
        rcases List.exists_mem_of_ne_nil parts filled with ⟨part, member⟩
        have start : placed ≤ part := (spread part member).1
        have reach := later part member
        omega
      refine ⟨inside, by simp, fun part member => ?_⟩
      rcases List.mem_append.mp member with member | member
      · exact spread part member
      · rw [List.mem_singleton.mp member]
        exact ⟨after.le, bound⟩
  | replaced sound queued there keyed later clear ih =>
      have bound := (List.getElem?_eq_some_iff.mp there).1
      refine ⟨ih.1, by simp, fun part member => ?_⟩
      rw [List.mem_singleton.mp member]
      exact ⟨later.le, bound⟩

theorem merges_unkeyed {stream : PresentationKey} {metadata : OutputMetadata} {bytes : Bytes}
    (plain : isOrdered metadata = true) :
    eventKey (.frame (.paneOutput stream metadata none bytes)) = none := by
  rw [Option.eq_none_iff_forall_ne_some]
  intro key keyed
  rcases eventKey_isSome keyed with ⟨_, _, _, _, same, independent⟩
  cases same
  rw [independent_unordered independent] at plain
  cases plain

theorem Sound.keyed (sound : Sound fed slot) (keyed : eventKey slot.value = some key) :
    ∃ position, slot.parts = [position] ∧ slot.placed ≤ position ∧
      fed[position]? = some slot.value := by
  cases sound with
  | kept there => exact ⟨_, rfl, le_rfl, there⟩
  | merged sound first there second later between =>
      rw [merges_unkeyed second] at keyed
      cases keyed
  | replaced sound queued there keyed later clear => exact ⟨_, rfl, later.le, there⟩

theorem eventKey_output {event : InboundEvent} (keyed : eventKey event = some key) :
    isOutput event = true := by
  rcases eventKey_isSome keyed with ⟨stream, metadata, media, bytes, rfl, independent⟩
  rfl

theorem Sound.outputs (sound : Sound fed slot) :
    (∃ position event, slot = ⟨position, [position], event⟩ ∧ fed[position]? = some event) ∨
      ∀ part ∈ slot.parts, ∀ event, fed[part]? = some event → isOutput event = true := by
  induction sound with
  | kept there => exact .inl ⟨_, _, rfl, there⟩
  | @merged _ _ parts _ _ _ _ _ sound first there second later between ih =>
      have earlier : ∀ part ∈ parts, ∀ event, fed[part]? = some event →
          isOutput event = true := by
        rcases ih with ⟨position, event, same, present⟩ | outputs
        · cases same
          intro part member other at'
          rw [List.mem_singleton.mp member, present] at at'
          cases at'
          rfl
        · exact outputs
      refine .inr fun part member event present => ?_
      rcases List.mem_append.mp member with member | member
      · exact earlier part member event present
      · rw [List.mem_singleton.mp member, there] at present
        cases present
        rfl
  | replaced sound queued there keyed later clear ih =>
      refine .inr fun part member value present => ?_
      rw [List.mem_singleton.mp member, there] at present
      cases present
      exact eventKey_output keyed

theorem Sound.plain (sound : Sound fed slot) {position : Nat} {event : InboundEvent}
    (member : position ∈ slot.parts) (there : fed[position]? = some event)
    (plain : isOutput event = false) : slot = ⟨position, [position], event⟩ := by
  rcases sound.outputs with ⟨other, value, rfl, present⟩ | outputs
  · rw [List.mem_singleton.mp member] at there ⊢
    rw [there] at present
    cases present
    rfl
  · have output := outputs position member event there
    rw [plain] at output
    cases output

theorem Accounted.extended {slots : List Slot} {position : Nat} {event : InboundEvent}
    (accounted : Accounted fed slots position event) (more : List InboundEvent) :
    Accounted (fed ++ more) slots position event := by
  rcases accounted with part | ⟨key, later, new, keyed, after, there, newKeyed, clear⟩
  · exact .inl part
  · have bound := (List.getElem?_eq_some_iff.mp there).1
    exact .inr ⟨key, later, new, keyed, after, fed_extended more there, newKeyed,
      clear.extended bound.le more⟩

end sound

structure Arranged (run : Run) (gone live : List Slot) : Prop where
  popped : gone.map Slot.value = run.popped
  queued : live.map Slot.value = run.queue.values
  placed : ((gone ++ live).map Slot.placed).Pairwise (· < ·)
  sound : ∀ slot ∈ gone ++ live, Sound run.fed slot
  complete : ∀ position event, run.fed[position]? = some event →
    Accounted run.fed (gone ++ live) position event
  keyed : ∀ entry ∈ run.queue.entries, entry.replacement = eventKey entry.value
  index : ∀ key position, run.queue.replacements key = some position →
    ∃ offset slot, position = run.queue.base + offset ∧ live[offset]? = some slot ∧
      eventKey slot.value = some key ∧ Clear run.fed key slot.placed run.fed.length

section arranged

variable {size : ServerMessage → Nat} {run : Run} {next : ByteQueue InboundEvent}
  {gone live front back : List Slot} {slot new : Slot} {event : InboundEvent}

theorem Accounted.mono {fed : List InboundEvent} {some more : List Slot} {position : Nat}
    (accounted : Accounted fed some position event) (held : ∀ slot ∈ some, slot ∈ more) :
    Accounted fed more position event := by
  rcases accounted with ⟨slot, member, part⟩ | superseded
  · exact .inl ⟨slot, held slot member, part⟩
  · exact .inr superseded

theorem Arranged.added (arranged : Arranged run gone live) (entry : QueueEntry InboundEvent)
    (carries : entry.value = event) (replacement : entry.replacement = eventKey event)
    (base : next.base = run.queue.base) (entries : next.entries = run.queue.entries ++ [entry])
    (index : ∀ key position, next.replacements key = some position →
      (run.queue.replacements key = some position ∧ invalidates key event = false) ∨
        (eventKey event = some key ∧
          position = run.queue.base + run.queue.entries.length)) :
    Arranged { run with queue := next, fed := run.fed ++ [event] } gone
      (live ++ [⟨run.fed.length, [run.fed.length], event⟩]) := by
  have newest : (run.fed ++ [event])[run.fed.length]? = some event := List.getElem?_concat_length
  have lengths : live.length = run.queue.entries.length := by
    have same := congrArg List.length arranged.queued
    simpa [values] using same
  refine ⟨arranged.popped, ?_, ?_, ?_, ?_, ?_, ?_⟩
  · simp [values, entries, carries, arranged.queued]
  · rw [← List.append_assoc, List.map_append, List.pairwise_append]
    refine ⟨arranged.placed, by simp, fun placed member other last => ?_⟩
    rcases List.mem_map.mp member with ⟨slot, held, rfl⟩
    rw [List.map_singleton, List.mem_singleton] at last
    rw [last]
    exact (arranged.sound slot held).bounds.1
  · intro slot member
    rw [← List.append_assoc] at member
    rcases List.mem_append.mp member with member | member
    · exact (arranged.sound slot member).extended [event]
    · rw [List.mem_singleton.mp member]
      exact .kept newest
  · intro position other there
    by_cases old : position < run.fed.length
    · have accounted := arranged.complete position other (fed_cut old there)
      refine (accounted.extended [event]).mono fun slot member => ?_
      rw [← List.append_assoc]
      exact List.mem_append_left _ member
    · have last : position = run.fed.length := by
        have bound := (List.getElem?_eq_some_iff.mp there).1
        rw [List.length_append, List.length_singleton] at bound
        omega
      exact .inl ⟨⟨run.fed.length, [run.fed.length], event⟩, by simp, by simp [last]⟩
  · intro old member
    simp only [entries, List.mem_append, List.mem_singleton] at member
    rcases member with member | rfl
    · exact arranged.keyed old member
    · rw [replacement, carries]
  · intro key position found
    rcases index key position found with ⟨found, spared⟩ | ⟨keyed, rfl⟩
    · rcases arranged.index key position found with ⟨offset, slot, same, there, keyed, clear⟩
      have bound := (List.getElem?_eq_some_iff.mp there).1
      refine ⟨offset, slot, by rw [same, base], ?_, keyed, clear.grown spared⟩
      rwa [List.getElem?_append_left bound]
    · refine ⟨run.queue.entries.length, ⟨run.fed.length, [run.fed.length], event⟩, by rw [base],
        ?_, keyed, ?_⟩
      · rw [← lengths, List.getElem?_concat_length]
      · intro position other later earlier there
        simp only [List.length_append, List.length_singleton] at later earlier
        omega

theorem Arranged.exchanged (arranged : Arranged run gone (front ++ slot :: back))
    {before after : List (QueueEntry InboundEvent)} {entry grown : QueueEntry InboundEvent}
    (whole : run.queue.entries = before ++ entry :: after)
    (entries : next.entries = before ++ grown :: after) (base : next.base = run.queue.base)
    (sound : Sound (run.fed ++ [event]) new) (fresh : run.fed.length ∈ new.parts)
    (ahead : front.map Slot.value = before.map QueueEntry.value)
    (behind : back.map Slot.value = after.map QueueEntry.value)
    (value : new.value = grown.value) (replacement : grown.replacement = eventKey grown.value)
    (placed : new.placed = slot.placed)
    (lost : ∀ part ∈ slot.parts, ∀ old, run.fed[part]? = some old →
      Accounted (run.fed ++ [event]) [new] part old)
    (stays : ∀ key, eventKey slot.value = some key → eventKey new.value = some key)
    (index : ∀ key position, next.replacements key = some position →
      run.queue.replacements key = some position ∧ invalidates key event = false) :
    Arranged { run with queue := next, fed := run.fed ++ [event] } gone
      (front ++ new :: back) := by
  refine ⟨arranged.popped, ?_, ?_, ?_, ?_, ?_, ?_⟩
  · simp [values, entries, ahead, behind, value]
  · have sorted := arranged.placed
    simp only [List.map_append, List.map_cons] at sorted ⊢
    rwa [placed]
  · intro other member
    by_cases same : other = new
    · rwa [same]
    · apply (arranged.sound other ?_).extended
      simp only [List.mem_append, List.mem_cons] at member ⊢
      tauto
  · intro position other there
    by_cases old : position < run.fed.length
    · have present := fed_cut old there
      rcases arranged.complete position other present with ⟨holder, member, part⟩ | superseded
      · by_cases same : holder = slot
        · apply (lost position (same ▸ part) other present).mono
          simp
        · refine .inl ⟨holder, ?_, part⟩
          simp only [List.mem_append, List.mem_cons] at member ⊢
          tauto
      · have accounted : Accounted run.fed [new] position other := .inr superseded
        apply (accounted.extended [event]).mono
        simp
    · have last : position = run.fed.length := by
        have bound := (List.getElem?_eq_some_iff.mp there).1
        rw [List.length_append, List.length_singleton] at bound
        omega
      exact .inl ⟨new, by simp, last ▸ fresh⟩
  · intro other member
    simp only [entries, List.mem_append, List.mem_cons] at member
    have kept : other ∈ run.queue.entries → other.replacement = eventKey other.value :=
      arranged.keyed other
    simp only [whole, List.mem_append, List.mem_cons] at kept
    rcases member with member | rfl | member
    · exact kept (.inl member)
    · exact replacement
    · exact kept (.inr (.inr member))
  · intro key position found
    rcases index key position found with ⟨found, spared⟩
    rcases arranged.index key position found with ⟨offset, holder, rfl, there, keyed, clear⟩
    by_cases here : offset = front.length
    · subst here
      rw [List.getElem?_append_right le_rfl, Nat.sub_self] at there
      cases there
      refine ⟨front.length, new, by rw [base], by simp, stays key keyed, ?_⟩
      rw [placed]
      exact clear.grown spared
    · refine ⟨offset, holder, by rw [base], ?_, keyed, clear.grown spared⟩
      have moved : (front ++ new :: back) = (front ++ slot :: back).set front.length new := by simp
      rw [moved, List.getElem?_set_ne (Ne.symm here)]
      exact there

theorem Arranged.aligned (arranged : Arranged run gone live)
    {before after : List (QueueEntry InboundEvent)} {entry : QueueEntry InboundEvent}
    (whole : run.queue.entries = before ++ entry :: after) :
    ∃ (front : List Slot) (slot : Slot) (back : List Slot), live = front ++ slot :: back ∧
      front.map Slot.value = before.map QueueEntry.value ∧ slot.value = entry.value ∧
      back.map Slot.value = after.map QueueEntry.value := by
  have queued := arranged.queued
  rw [values, whole, List.map_append, List.map_cons, List.map_eq_append_iff] at queued
  rcases queued with ⟨front, rest, rfl, ahead, queued⟩
  rcases List.map_eq_cons_iff.mp queued with ⟨slot, back, rfl, value, behind⟩
  exact ⟨front, slot, back, rfl, ahead, value, behind⟩

/-- Whatever was fed behind a slot that ordered output alone stands behind was output. -/
theorem Arranged.outputs_behind (arranged : Arranged run gone (front ++ slot :: back))
    (behind : ∀ later ∈ back, isOutput later.value = true) {position : Nat} {other : InboundEvent}
    (after : slot.placed < position) (there : run.fed[position]? = some other) :
    isOutput other = true := by
  by_contra no
  have plain : isOutput other = false := by simpa using no
  rcases arranged.complete position other there with ⟨holder, member, part⟩ | superseded
  · have alone := (arranged.sound holder member).plain part there plain
    have sorted := arranged.placed
    rw [← List.append_assoc, List.map_append, List.map_cons, List.pairwise_append] at sorted
    rw [← List.append_assoc] at member
    rcases List.mem_append.mp member with member | member
    · have before := sorted.2.2 holder.placed (List.mem_map_of_mem member) slot.placed
        List.mem_cons_self
      rw [alone] at before
      exact absurd before (by simp only; omega)
    · rcases List.mem_cons.mp member with rfl | member
      · rw [alone] at after
        exact absurd after (lt_irrefl position)
      · have output := behind holder member
        rw [alone] at output
        exact no output
  · rcases superseded with ⟨key, later, new, keyed, _⟩
    exact no (eventKey_output keyed)

theorem Arranged.enqueued {frame : Frame} (arranged : Arranged run gone live)
    (enqueued : Enqueued run.queue frame next) :
    ∃ live, Arranged { run with queue := next, fed := run.fed ++ [.frame frame] } gone live := by
  have newest : (run.fed ++ [.frame frame])[run.fed.length]? = some (.frame frame) :=
    List.getElem?_concat_length
  cases enqueued with
  | added entry carries replacement base entries index =>
      exact ⟨_, arranged.added entry carries replacement base entries index⟩
  | @merged before after entry grown adjacent whole passed merges kept base entries index =>
      rcases arranged.aligned whole with ⟨front, slot, back, rfl, ahead, value, behind⟩
      rcases coalesce_merged merges with
        ⟨stream, metadata, bytes, more, last, queued, first, same, second, made⟩
      cases same
      have held : slot ∈ gone ++ (front ++ slot :: back) := by simp
      have passes : ∀ later ∈ back, isOutput later.value = true := by
        intro later member
        have among : later.value ∈ back.map Slot.value := List.mem_map_of_mem member
        rw [behind] at among
        rcases List.mem_map.mp among with ⟨skipped, member, same⟩
        rcases passed skipped member with ⟨asked, continues⟩
        rcases coalesce_continues continues with ⟨_, _, _, _, _, _, shape, _⟩
        rw [← same, shape]
        rfl
      have formed : slot =
          ⟨slot.placed, slot.parts, .frame (.paneOutput stream metadata none bytes)⟩ := by
        rw [← queued, ← value]
      have sound := (arranged.sound slot held).extended [.frame (.paneOutput stream last none more)]
      rw [formed] at sound
      have joined := sound.merged first newest second
        (fun part member => ((arranged.sound slot held).bounds.2.2 part member).2)
        (fun other event later earlier there =>
          arranged.outputs_behind passes later (fed_cut earlier there))
      have replacement : grown.replacement = eventKey grown.value := by
        rw [kept, arranged.keyed entry (by simp [whole]), queued, made, merges_unkeyed first,
          merges_unkeyed second]
      refine ⟨_, arranged.exchanged whole entries base joined (by simp) ahead behind made.symm
        replacement rfl ?_ ?_ index⟩
      · intro part member old there
        exact .inl ⟨_, List.mem_singleton_self _, List.mem_append_left _ member⟩
      · intro key keyed
        rw [value, queued, merges_unkeyed first] at keyed
        cases keyed
  | @replaced before after entry new key keyed whole indexed carries replacement base entries
      index =>
      rcases arranged.aligned whole with ⟨front, slot, back, rfl, ahead, value, behind⟩
      have lengths : front.length = before.length := by
        simpa using congrArg List.length ahead
      rcases arranged.index key _ indexed with ⟨offset, holder, same, there, queued, clear⟩
      have place : offset = front.length := by omega
      subst place
      rw [List.getElem?_append_right le_rfl, Nat.sub_self] at there
      cases there
      have held : slot ∈ gone ++ (front ++ slot :: back) := by simp
      have sound := arranged.sound slot held
      have taken : Sound (run.fed ++ [.frame frame])
          ⟨slot.placed, [run.fed.length], .frame frame⟩ :=
        (sound.extended _).replaced queued newest keyed sound.bounds.1 (clear.extended le_rfl _)
      refine ⟨_, arranged.exchanged whole entries base taken (by simp) ahead behind carries.symm
        (by rw [replacement, carries, keyed]) rfl ?_ ?_ ?_⟩
      · intro part member old there
        rcases sound.keyed queued with ⟨position, parts, after, present⟩
        rw [parts, List.mem_singleton] at member
        subst member
        rw [present] at there
        cases there
        have bound := (List.getElem?_eq_some_iff.mp present).1
        refine .inr ⟨key, run.fed.length, .frame frame, queued, bound, newest, keyed, ?_⟩
        intro other event later earlier there
        exact clear.extended le_rfl _ other event (by omega) earlier there
      · intro other shown
        rw [queued] at shown
        rw [← shown]
        exact keyed
      · intro other position found
        exact ⟨index other position found, keyed_spares keyed other⟩

theorem Arranged.popped_front (arranged : Arranged run gone live) {entry : QueueEntry InboundEvent}
    {entries : List (QueueEntry InboundEvent)} (whole : run.queue.entries = entry :: entries) :
    ∃ gone live, Arranged
      { run with
        queue := { (run.queue.removeFrontIndex entry).subtractEntryWeight entry with entries }
        popped := run.popped ++ [entry.value] } gone live := by
  have split : run.queue.entries = [] ++ entry :: entries := whole
  rcases arranged.aligned split with ⟨front, slot, back, rfl, ahead, value, behind⟩
  have first : front = [] := by simpa using ahead
  subst first
  refine ⟨gone ++ [slot], back, ?_, behind, ?_, ?_, ?_, ?_, ?_⟩
  · simp [arranged.popped, value]
  · simpa using arranged.placed
  · simpa using arranged.sound
  · simpa using arranged.complete
  · intro other member
    exact arranged.keyed other (by rw [whole]; exact List.mem_cons_of_mem _ member)
  · intro key position found
    have replacement := arranged.keyed entry (by simp [whole])
    rcases releaseEntry_eq_some found with ⟨kept, apart⟩
    rcases arranged.index key position kept with ⟨offset, holder, rfl, there, keyed, clear⟩
    cases offset with
    | zero =>
        cases there
        rw [value] at keyed
        exact absurd ⟨replacement.trans keyed, rfl⟩ apart
    | succ offset =>
        refine ⟨offset, holder, ?_, there, keyed, clear⟩
        change run.queue.base + (offset + 1) = run.queue.base + 1 + offset
        omega

theorem Arranged.replaced_keyed (arranged : Arranged run gone live)
    {before after : List (QueueEntry InboundEvent)} {entry : QueueEntry InboundEvent}
    {key : ReplacementKey} (whole : run.queue.entries = before ++ entry :: after)
    (indexed : run.queue.replacements key = some (run.queue.base + before.length)) :
    eventKey entry.value = some key := by
  rcases arranged.aligned whole with ⟨front, slot, back, rfl, ahead, value, behind⟩
  rcases arranged.index key _ indexed with ⟨offset, holder, same, there, queued, clear⟩
  have place : offset = front.length := by
    have lengths := congrArg List.length ahead
    simp only [List.length_map] at lengths
    omega
  subst place
  rw [List.getElem?_append_right le_rfl, Nat.sub_self] at there
  cases there
  rwa [value] at queued

end arranged

structure Kept (run : Run) : Prop where
  streams : ∀ stream, ordered.transcript stream run.outgoing = ordered.transcript stream run.fed
  alone : run.outgoing.filter standsAlone = run.fed.filter standsAlone

section kept

variable {run : Run} {next : ByteQueue InboundEvent} {gone live : List Slot} {event : InboundEvent}

theorem Kept.added (kept : Kept run) (entry : QueueEntry InboundEvent)
    (carries : entry.value = event) (entries : next.entries = run.queue.entries ++ [entry]) :
    Kept { run with queue := next, fed := run.fed ++ [event] } := by
  have outgoing : { run with queue := next, fed := run.fed ++ [event] }.outgoing =
      run.outgoing ++ [event] := by
    simp [Run.outgoing, values, entries, carries]
  constructor
  · intro stream
    rw [outgoing, transcript_append, kept.streams, ← transcript_append]
  · rw [outgoing, List.filter_append, kept.alone, ← List.filter_append]

theorem ordered_keyed {key : ReplacementKey} (keyed : eventKey event = some key) :
    (∀ stream, ordered.said stream event = []) ∧ standsAlone event = false := by
  rcases eventKey_isSome keyed with ⟨own, metadata, media, bytes, rfl, independent⟩
  constructor
  · intro stream
    apply said_off
    simp [ordered, independent_unordered independent]
  · simp [standsAlone, independent]

theorem Run.outgoing_split {run : Run} {before after : List (QueueEntry InboundEvent)}
    {entry : QueueEntry InboundEvent} (whole : run.queue.entries = before ++ entry :: after) :
    run.outgoing = (run.popped ++ before.map QueueEntry.value) ++
      entry.value :: after.map QueueEntry.value := by
  simp [Run.outgoing, values, whole]

theorem Kept.enqueued {frame : Frame} (kept : Kept run) (arranged : Arranged run gone live)
    (enqueued : Enqueued run.queue frame next) :
    Kept { run with queue := next, fed := run.fed ++ [.frame frame] } := by
  cases enqueued with
  | added entry carries replacement base entries index => exact kept.added entry carries entries
  | @merged before after entry grown adjacent whole passed merges same base entries index =>
      rcases coalesce_merged merges with
        ⟨stream, metadata, bytes, more, last, queued, first, pushed, second, made⟩
      cases pushed
      have old := Run.outgoing_split whole
      have apart : Apart ordered entry.value (after.map QueueEntry.value) := by
        intro value member _
        rcases List.mem_map.mp member with ⟨skipped, held, rfl⟩
        rcases passed skipped held with ⟨asked, continues⟩
        rcases coalesce_continues continues with ⟨_, _, _, _, _, _, shape, plain, next, other⟩
        cases next
        simpa [ordered, shape, plain, queued, first] using other
      constructor
      · intro other
        have merged : ordered.transcript other
            ((run.popped ++ before.map QueueEntry.value) ++
              grown.value :: after.map QueueEntry.value) =
            ordered.transcript other
              ((run.popped ++ before.map QueueEntry.value) ++
                entry.value :: after.map QueueEntry.value ++
                [.frame (.paneOutput stream last none more)]) := by
          apply transcript_merge _ _ _ _ apart
          · simp [ordered, queued, first, second]
          · simp [ordered, made, queued, first, second]
          · simp [ordered, made, queued]
        rw [Run.outgoing_split entries, merged, ← old, transcript_append, kept.streams,
          ← transcript_append]
      · have passing : standsAlone entry.value = false ∧ standsAlone grown.value = false := by
          simp [queued, made, standsAlone, first, second]
        have fresh : standsAlone (.frame (.paneOutput stream last none more)) = false := by
          simp [standsAlone, second]
        have alone := kept.alone
        rw [old] at alone
        rw [Run.outgoing_split entries]
        simpa [passing, fresh] using alone
  | @replaced before after entry new key keyed whole indexed carries replacement base entries
      index =>
      rcases ordered_keyed (arranged.replaced_keyed whole indexed) with ⟨unsaid, passing⟩
      rcases ordered_keyed keyed with ⟨unsaid', passing'⟩
      have streams := kept.streams
      have alone := kept.alone
      rw [Run.outgoing_split whole] at alone streams
      constructor
      · intro stream
        rw [Run.outgoing_split entries, carries]
        simpa [unsaid, unsaid'] using streams stream
      · rw [Run.outgoing_split entries, carries]
        simpa [passing, passing'] using alone

end kept

/-- What a finished or refused push leaves out of the index changes nothing else. -/
theorem Arranged.forgets {run : Run} {gone live : List Slot} {queue : ByteQueue InboundEvent}
    (arranged : Arranged run gone live) (entries : queue.entries = run.queue.entries)
    (base : queue.base = run.queue.base)
    (index : ∀ key position, queue.replacements key = some position →
      run.queue.replacements key = some position) :
    Arranged { run with queue } gone live := by
  refine ⟨arranged.popped, ?_, arranged.placed, arranged.sound, arranged.complete, ?_, ?_⟩
  · rw [arranged.queued, values, values, entries]
  · intro entry member
    exact arranged.keyed entry (entries ▸ member)
  · intro key position found
    rw [base]
    exact arranged.index key position (index key position found)

theorem Kept.forgets {run : Run} {queue : ByteQueue InboundEvent} (kept : Kept run)
    (entries : queue.entries = run.queue.entries) : Kept { run with queue } := by
  have outgoing : { run with queue }.outgoing = run.outgoing := by
    simp [Run.outgoing, values, entries]
  exact ⟨fun stream => outgoing ▸ kept.streams stream, outgoing ▸ kept.alone⟩

namespace Run

variable {size : ServerMessage → Nat} {run : Run}

theorem arranged_after {gone live : List Slot} (kept : Kept run) (arranged : Arranged run gone live)
    (action : Action) :
    Kept (run.after size action) ∧ ∃ gone live, Arranged (run.after size action) gone live := by
  cases action with
  | enqueue frame =>
      cases pushed : enqueueInboundFrame size run.queue frame with
      | error refused =>
          have left := enqueueInboundFrame_refused pushed
          rcases invalidate_spec run.queue frame with ⟨entries, base, spared⟩
          rw [← left] at entries base spared
          simp only [after, pushed]
          exact ⟨kept.forgets entries, gone, live,
            arranged.forgets entries base fun key position found => (spared key position found).1⟩
      | ok next =>
          have enqueued := enqueueInboundFrame_spec pushed
          simp only [after, pushed]
          exact ⟨kept.enqueued arranged enqueued, gone, arranged.enqueued enqueued⟩
  | finish failed =>
      have ended : ∀ event, eventKey event = none → (∀ key, invalidates key event = false) →
          ∀ next, run.queue.tryPush event 0 = .ok next →
            Kept { run with queue := next, fed := run.fed ++ [event] } ∧
              ∃ gone live, Arranged { run with queue := next, fed := run.fed ++ [event] } gone
                live := by
        intro event unkeyed spares next pushed
        have left := tryPush_eq_ok pushed
        have entries : next.entries = run.queue.entries ++ [{ value := event, bytes := 0 }] := by
          rw [left]
          rfl
        refine ⟨kept.added _ rfl entries, gone, _,
          arranged.added _ rfl unkeyed.symm (by rw [left]; rfl) entries ?_⟩
        intro key position found
        rw [left] at found
        exact .inl ⟨found, spares key⟩
      cases failed with
      | some message =>
          simp only [after]
          split
          · rename_i next pushed
            exact ended _ rfl (fun _ => rfl) next pushed
          · rename_i error next refused
            rw [(tryPushWith_refused refused).1]
            exact ⟨kept, gone, live, arranged⟩
      | none =>
          simp only [after]
          split
          · rename_i next pushed
            exact ended _ rfl (fun _ => rfl) next pushed
          · rename_i error next refused
            rw [(tryPushWith_refused refused).1]
            exact ⟨kept, gone, live, arranged⟩
  | pop =>
      cases whole : run.queue.entries with
      | nil =>
          simp only [after, tryPopWithBytesAndMore, whole]
          exact ⟨kept, gone, live, arranged⟩
      | cons entry entries =>
          simp only [after, tryPopWithBytesAndMore, whole]
          refine ⟨?_, arranged.popped_front whole⟩
          have streams := kept.streams
          have alone := kept.alone
          simp only [outgoing, values, whole, List.map_cons] at streams alone
          constructor
          · intro stream
            simpa [outgoing, values] using streams stream
          · simpa [outgoing, values] using alone
  | close => exact ⟨kept.forgets rfl, gone, live, arranged.forgets rfl rfl fun _ _ => id⟩

theorem arranged_reachable (reached : (runs size).Reachable run) :
    Kept run ∧ ∃ gone live, Arranged run gone live := by
  apply reached.invariant
  · rintro state rfl
    refine ⟨⟨fun _ => rfl, rfl⟩, [], [], rfl, rfl, .nil, ?_, ?_, ?_, ?_⟩
    · intro slot member
      cases member
    · intro position event there
      cases there
    · intro entry member
      cases member
    · intro key position found
      cases found
  · rintro state action next ⟨kept, gone, live, arranged⟩ rfl
    exact arranged_after kept arranged action

/-- What comes out of a mailbox, popped and still queued, against what was fed. Every stream's
ordered output is whole and in order, and so is what may neither merge nor be replaced. Each value
has a place in the order fed: output joins it past output alone, and only a frame of its key may
take it, with nothing fed since that ends replacement. What does not come out gave way so. -/
theorem mailbox_keeps_transcripts (size : ServerMessage → Nat) {run : Run}
    (reached : (runs size).Reachable run) :
    (∀ stream, ordered.transcript stream run.outgoing = ordered.transcript stream run.fed) ∧
      run.outgoing.filter standsAlone = run.fed.filter standsAlone ∧
      ∃ slots : List Slot, slots.map Slot.value = run.outgoing ∧
        (slots.map Slot.placed).Pairwise (· < ·) ∧ (∀ slot ∈ slots, Sound run.fed slot) ∧
        ∀ position event, run.fed[position]? = some event →
          Accounted run.fed slots position event := by
  rcases arranged_reachable reached with ⟨kept, gone, live, arranged⟩
  refine ⟨kept.streams, kept.alone, gone ++ live, ?_, arranged.placed, arranged.sound,
    arranged.complete⟩
  rw [List.map_append, arranged.popped, arranged.queued, outgoing]

def making (size : ServerMessage → Nat) (actions : List Action) : Run :=
  actions.foldl (after size) {}

theorem making_reachable (size : ServerMessage → Nat) (actions : List Action) :
    (runs size).Reachable (making size actions) := by
  have onward : ∀ run, (runs size).Reachable run →
      (runs size).Reachable (actions.foldl (after size) run) := by
    induction actions with
    | nil => exact fun run reached => reached
    | cons action rest ih => exact fun run reached => ih _ (reached.next action rfl)
  exact onward {} (.begin rfl)

def shown (generation : Nat) (outputClass : OutputClass) (media : Option OutputMedia)
    (content : UInt8) : Frame :=
  .paneOutput ⟨1, generation, false⟩ ⟨0, 0, outputClass⟩ media [content]

def mergedActions : List Action :=
  [.enqueue (shown 1 .ordered none 97), .enqueue (shown 2 .ordered none 98),
    .enqueue (shown 1 .ordered none 99), .pop]

theorem mailbox_keeps_transcripts_merged :
    let run := making (fun _ => 2) mergedActions
    run.popped = [.frame (.paneOutput ⟨1, 1, false⟩ ⟨0, 0, .ordered⟩ none [97, 99])] ∧
      ordered.transcript ⟨1, 1, false⟩ run.fed = [97, 99] := by
  intro run
  have popped : run.popped =
      [.frame (.paneOutput ⟨1, 1, false⟩ ⟨0, 0, .ordered⟩ none [97, 99])] := by decide +kernel
  have kept := (mailbox_keeps_transcripts _ (making_reachable (fun _ => 2) mergedActions)).1
    ⟨1, 1, false⟩
  have outgoing : ordered.transcript ⟨1, 1, false⟩ run.outgoing = [97, 99] := by decide +kernel
  exact ⟨popped, kept.symm.trans outgoing⟩

/-- A graphics frame with media, queued before a control message, and the frame that replaces it. -/
def overtakingActions : List Action :=
  let graphics (content : UInt8) := shown 1 (.independentGraphics 1 1 0)
    (some { acquisitionSequence := 0, files := [1] }) content
  [.enqueue (graphics 97), .enqueue (.control (.other "Pong")), .enqueue (graphics 98), .pop, .pop]

/-- The frame overtakes the control message. -/
theorem media_overtakes_control :
    ∃ run, (runs fun _ => 2).Reachable run ∧ run.queue.entries = [] ∧
      (∀ event ∈ run.fed, event = .frame (.control (.other "Pong")) ∨
        ∃ stream metadata media bytes,
          event = .frame (.paneOutput stream metadata (some media) bytes)) ∧
      ¬ run.popped.Sublist run.fed := by
  refine ⟨making (fun _ => 2) overtakingActions, making_reachable _ _, by decide +kernel, ?_,
    by decide +kernel⟩
  have fed : (making (fun _ => 2) overtakingActions).fed =
      [.frame (shown 1 (.independentGraphics 1 1 0)
          (some { acquisitionSequence := 0, files := [1] }) 97),
        .frame (.control (.other "Pong")),
        .frame (shown 1 (.independentGraphics 1 1 0)
          (some { acquisitionSequence := 0, files := [1] }) 98)] := by
    decide +kernel
  intro event member
  simp only [fed, shown, List.mem_cons, List.not_mem_nil, or_false] at member
  rcases member with rfl | rfl | rfl
  · exact .inr ⟨_, _, _, _, rfl⟩
  · exact .inl rfl
  · exact .inr ⟨_, _, _, _, rfl⟩

end Run

end Rozi.Inbound
