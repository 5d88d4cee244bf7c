import Rozi.Library.Numbered
import Mathlib.Algebra.GroupWithZero.Nat

/-!
The events a session server records, and the buffer of the most recent ones that a subscriber can
resume from.
-/

namespace Rozi.Events

inductive EventKind where
  | paneSpawned
  | paneExited
  | paneStatusChanged
  | paneTitleChanged
  | paneCwdChanged
  | agentStateChanged
  | foregroundChanged
  | bell
  | sessionNotification
  | focusChanged
  | workspaceSwitched
  | layoutChanged
  | sessionAttached
  | sessionDetached
  | sessionRenamed
  | sessionCreated
  | controllerChanged
  | clientJoined
  | clientLeft
  | profileLoaded
  | profileApplied
  | profileSaved
  | configReloaded
  deriving DecidableEq, Repr

namespace EventKind

def all : List EventKind :=
  [paneSpawned, paneExited, paneStatusChanged, paneTitleChanged, paneCwdChanged,
    agentStateChanged, foregroundChanged, bell, sessionNotification, focusChanged,
    workspaceSwitched, layoutChanged, sessionAttached, sessionDetached, sessionRenamed,
    sessionCreated, controllerChanged, clientJoined, clientLeft, profileLoaded, profileApplied,
    profileSaved, configReloaded]

def id : EventKind → String
  | paneSpawned => "pane-spawned"
  | paneExited => "pane-exited"
  | paneStatusChanged => "pane-status-changed"
  | paneTitleChanged => "pane-title-changed"
  | paneCwdChanged => "pane-cwd-changed"
  | agentStateChanged => "agent-state-changed"
  | foregroundChanged => "foreground-changed"
  | bell => "bell"
  | sessionNotification => "session-notification"
  | focusChanged => "focus-changed"
  | workspaceSwitched => "workspace-switched"
  | layoutChanged => "layout-changed"
  | sessionAttached => "session-attached"
  | sessionDetached => "session-detached"
  | sessionRenamed => "session-renamed"
  | sessionCreated => "session-created"
  | controllerChanged => "controller-changed"
  | clientJoined => "client-joined"
  | clientLeft => "client-left"
  | profileLoaded => "profile-loaded"
  | profileApplied => "profile-applied"
  | profileSaved => "profile-saved"
  | configReloaded => "config-reloaded"

def parse (value : String) : Option EventKind := all.find? fun kind => kind.id == value

/-- Whether a session server raises this event, rather than one UI about itself. -/
def isSessionOwned : EventKind → Bool
  | paneSpawned | paneExited | paneStatusChanged | paneTitleChanged | paneCwdChanged
  | agentStateChanged | foregroundChanged | bell | sessionNotification | layoutChanged
  | sessionRenamed | controllerChanged | clientJoined | clientLeft => true
  | focusChanged | workspaceSwitched | sessionAttached | sessionDetached | sessionCreated
  | profileLoaded | profileApplied | profileSaved | configReloaded => false

theorem parse_id (kind : EventKind) : parse kind.id = some kind := by
  cases kind <;> decide +kernel

end EventKind

abbrev EventFields := List (String × String)

def insertField (data : EventFields) (field : String × String) : EventFields :=
  match data with
  | [] => [field]
  | first :: rest =>
      if field.1 < first.1 then field :: first :: rest
      else if first.1 = field.1 then field :: rest
      else first :: insertField rest field

structure SessionEvent where
  sessionInstance : String
  seq : Nat
  kind : EventKind
  data : EventFields
  deriving DecidableEq, Repr

def SessionEvent.byteLen (event : SessionEvent) : Nat :=
  event.kind.id.utf8ByteSize + event.sessionInstance.utf8ByteSize +
    (event.data.map fun field => field.1.utf8ByteSize + field.2.utf8ByteSize).sum

structure CursorExpired where
  currentInstance : String
  oldestSeq : Option Nat
  latestSeq : Nat
  deriving DecidableEq, Repr

def CursorExpired.message (expired : CursorExpired) : String :=
  s!"cursor expired: current instance is {expired.currentInstance}, " ++
    (match expired.oldestSeq with
      | some oldest => s!"oldest retained seq is {oldest}, "
      | none => "no events are retained, ") ++
    s!"latest seq is {expired.latestSeq}"

/-- The recent events, bounded in number and in bytes. What is retained is in memory, so its bytes
are summed without a limit. -/
structure SessionEventBuffer where
  sessionInstance : String
  events : List SessionEvent := []
  totalBytes : Nat := 0
  latestSeq : Nat := 0
  maxEvents : Nat
  maxBytes : Nat
  deriving DecidableEq, Repr

def maxU64 : Nat := 2 ^ 64 - 1

namespace SessionEventBuffer

variable (buffer : SessionEventBuffer)

def oldestSeq : Option Nat := buffer.events.head?.map SessionEvent.seq

def cursorExpired : CursorExpired :=
  { currentInstance := buffer.sessionInstance
    oldestSeq := buffer.oldestSeq
    latestSeq := buffer.latestSeq }

/-- The loop of `record`: drop the oldest events until one of `entryBytes` has room. -/
def evict (maxEvents maxBytes entryBytes : Nat) : List SessionEvent → Nat → List SessionEvent × Nat
  | [], totalBytes => ([], totalBytes)
  | evicted :: rest, totalBytes =>
      if maxEvents ≤ rest.length + 1 ∨ maxBytes < totalBytes + entryBytes then
        evict maxEvents maxBytes entryBytes rest (totalBytes - evicted.byteLen)
      else (evicted :: rest, totalBytes)

def next (kind : EventKind) (fields : EventFields) : SessionEvent :=
  { sessionInstance := buffer.sessionInstance
    seq := min (buffer.latestSeq + 1) maxU64
    kind
    data := fields.foldl insertField [] }

def record (kind : EventKind) (fields : EventFields) : SessionEvent × SessionEventBuffer :=
  let event := buffer.next kind fields
  let buffer := { buffer with latestSeq := event.seq }
  let entryBytes := event.byteLen
  if buffer.maxEvents = 0 ∨ buffer.maxBytes < entryBytes then
    (event, { buffer with events := [], totalBytes := 0 })
  else
    let (kept, keptBytes) :=
      evict buffer.maxEvents buffer.maxBytes entryBytes buffer.events buffer.totalBytes
    (event, { buffer with events := kept ++ [event], totalBytes := keptBytes + entryBytes })

def after (named : String) (seq : Nat) : Except CursorExpired (List SessionEvent) :=
  if named ≠ buffer.sessionInstance ∨ buffer.latestSeq < seq then .error buffer.cursorExpired
  else if seq = buffer.latestSeq then .ok []
  else match buffer.oldestSeq with
  | none => .error buffer.cursorExpired
  | some oldestSeq =>
      if min (seq + 1) maxU64 < oldestSeq then .error buffer.cursorExpired
      else .ok (buffer.events.drop (min (seq + 1) maxU64 - oldestSeq))

end SessionEventBuffer

/-! What the buffer holds of everything recorded. -/

structure SessionEventBuffer.Retains (buffer : SessionEventBuffer)
    (recorded : List SessionEvent) : Prop where
  numbered : recorded.Numbered SessionEvent.seq
  latest : buffer.latestSeq = recorded.length
  instances : ∀ event ∈ recorded, event.sessionInstance = buffer.sessionInstance
  suffix : buffer.events <:+ recorded
  total : buffer.totalBytes = (buffer.events.map SessionEvent.byteLen).sum
  few : buffer.events.length ≤ buffer.maxEvents
  small : buffer.totalBytes ≤ buffer.maxBytes
  /-- Nothing is retained only when nothing can be. -/
  last : ∀ event, recorded.getLast? = some event → buffer.events = [] →
    buffer.maxEvents = 0 ∨ buffer.maxBytes < event.byteLen

namespace SessionEventBuffer

variable {buffer : SessionEventBuffer} {recorded : List SessionEvent}

theorem retains_nil (named : String) (maxEvents maxBytes : Nat) :
    Retains { sessionInstance := named, maxEvents, maxBytes } [] where
  numbered := List.numbered_nil
  latest := rfl
  instances := by
    intro event member
    cases member
  suffix := List.suffix_rfl
  total := rfl
  few := Nat.zero_le _
  small := Nat.zero_le _
  last := by
    intro event ends
    cases ends

/-- What one pass of the eviction loop leaves. -/
structure Evicted (maxEvents maxBytes entryBytes : Nat) (events : List SessionEvent)
    (left : List SessionEvent × Nat) : Prop where
  suffix : left.1 <:+ events
  total : left.2 = (left.1.map SessionEvent.byteLen).sum
  few : left.1.length + 1 ≤ maxEvents
  small : left.2 + entryBytes ≤ maxBytes

theorem evict_spec {maxEvents maxBytes entryBytes : Nat} (some_events : maxEvents ≠ 0)
    (fits : entryBytes ≤ maxBytes) (events : List SessionEvent) :
    Evicted maxEvents maxBytes entryBytes events
      (evict maxEvents maxBytes entryBytes events (events.map SessionEvent.byteLen).sum) := by
  induction events with
  | nil =>
      refine ⟨List.suffix_rfl, rfl, ?_, ?_⟩
      · exact Nat.one_le_iff_ne_zero.mpr some_events
      · simpa [evict] using fits
  | cons evicted rest ih =>
      unfold evict
      split_ifs with full
      · have freed : ((evicted :: rest).map SessionEvent.byteLen).sum - evicted.byteLen =
            (rest.map SessionEvent.byteLen).sum := by
          rw [List.map_cons, List.sum_cons, Nat.add_sub_cancel_left]
        rw [freed]
        exact ⟨ih.suffix.trans (List.suffix_cons _ _), ih.total, ih.few, ih.small⟩
      · rw [not_or, Nat.not_le, Nat.not_lt] at full
        exact ⟨List.suffix_rfl, rfl, full.1, full.2⟩

theorem next_seq (room : buffer.latestSeq + 1 < 2 ^ 64) (kind : EventKind) (fields : EventFields) :
    (buffer.next kind fields).seq = buffer.latestSeq + 1 := by
  unfold next maxU64
  simp only
  omega

@[simp] theorem record_event (kind : EventKind) (fields : EventFields) :
    (buffer.record kind fields).1 = buffer.next kind fields := by
  unfold record
  simp only
  split_ifs <;> rfl

@[simp] theorem record_sessionInstance (kind : EventKind) (fields : EventFields) :
    (buffer.record kind fields).2.sessionInstance = buffer.sessionInstance := by
  unfold record
  simp only
  split_ifs <;> rfl

theorem Retains.record (retains : buffer.Retains recorded)
    (room : buffer.latestSeq + 1 < 2 ^ 64) (kind : EventKind) (fields : EventFields) :
    (buffer.record kind fields).2.Retains (recorded ++ [buffer.next kind fields]) := by
  have seq := next_seq room kind fields
  have numbered : (recorded ++ [buffer.next kind fields]).Numbered SessionEvent.seq := by
    rw [List.numbered_snoc, seq, retains.latest]
    exact ⟨retains.numbered, rfl⟩
  have latest : (buffer.next kind fields).seq =
      (recorded ++ [buffer.next kind fields]).length := by
    rw [seq, retains.latest, List.length_append, List.length_singleton]
  have instances : ∀ event ∈ recorded ++ [buffer.next kind fields],
      event.sessionInstance = buffer.sessionInstance := by
    intro event member
    rcases List.mem_append.mp member with before | new
    · exact retains.instances event before
    · rw [List.mem_singleton.mp new]
      rfl
  unfold SessionEventBuffer.record
  simp only
  split_ifs with refused
  · refine ⟨numbered, latest, instances, List.nil_suffix, rfl, Nat.zero_le _, Nat.zero_le _, ?_⟩
    intro event ends _
    rw [List.getLast?_concat] at ends
    rw [← Option.some.inj ends]
    exact refused
  · rw [not_or, Nat.not_lt] at refused
    have left := evict_spec refused.1 refused.2 buffer.events
    rw [← retains.total] at left
    refine ⟨numbered, latest, instances, ?_, ?_, ?_, ?_, ?_⟩
    · rcases left.suffix.trans retains.suffix with ⟨before, whole⟩
      exact ⟨before, by rw [← List.append_assoc, whole]⟩
    · simp only [List.map_append, List.sum_append, List.map_singleton, List.sum_singleton,
        left.total]
    · simpa using left.few
    · exact left.small
    · intro event _ empty
      simp at empty

/-- Every event after `seq` is still retained. -/
def Holds (buffer : SessionEventBuffer) (recorded : List SessionEvent) (seq : Nat) : Prop :=
  ∀ event ∈ recorded, seq < event.seq → event ∈ buffer.events

theorem Retains.exists_next (retains : buffer.Retains recorded) {seq : Nat}
    (behind : seq < buffer.latestSeq) : ∃ event ∈ recorded, event.seq = seq + 1 := by
  have named : seq + 1 ∈ recorded.map SessionEvent.seq := by
    rw [retains.numbered, List.mem_range'_1, ← retains.latest]
    omega
  exact List.mem_map.mp named

/-- A cursor is answered with everything recorded after it, when all of that is retained; any other
cursor is refused. -/
theorem Retains.after_eq_ok (retains : buffer.Retains recorded)
    (room : buffer.latestSeq < 2 ^ 64) (named : String) (seq : Nat) (events : List SessionEvent) :
    buffer.after named seq = .ok events ↔
      named = buffer.sessionInstance ∧ seq ≤ buffer.latestSeq ∧ buffer.Holds recorded seq ∧
        events = recorded.drop seq := by
  unfold after
  split_ifs with foreign caught
  · simp only [false_iff]
    rintro ⟨same, within, _⟩
    rcases foreign with other | ahead
    · exact other same
    · omega
  · rw [not_or, not_not, Nat.not_lt] at foreign
    have none_left : recorded.drop seq = [] :=
      List.drop_eq_nil_of_le (by rw [caught, retains.latest])
    have held : buffer.Holds recorded seq := by
      intro event member after
      have within := retains.numbered.le_length member
      rw [← retains.latest, ← caught] at within
      omega
    rw [none_left, Except.ok.injEq]
    constructor
    · intro empty
      exact ⟨foreign.1, foreign.2, held, empty.symm⟩
    · rintro ⟨_, _, _, empty⟩
      exact empty.symm
  · rw [not_or, not_not, Nat.not_lt] at foreign
    have behind : seq < buffer.latestSeq := lt_of_le_of_ne foreign.2 caught
    have next : min (seq + 1) maxU64 = seq + 1 := by
      unfold maxU64
      omega
    rw [next]
    rcases retains.exists_next behind with ⟨event, member, number⟩
    have suffix := retains.suffix
    unfold oldestSeq Holds
    cases kept : buffer.events with
    | nil =>
        simp only [List.head?_nil, Option.map_none, reduceCtorEq, false_iff]
        rintro ⟨_, _, held, _⟩
        cases held event member (by omega)
    | cons oldest rest =>
        rw [kept] at suffix
        simp only [List.head?_cons, Option.map_some]
        split_ifs with expired
        · simp only [false_iff]
          rintro ⟨_, _, held, _⟩
          have first := retains.numbered.first_kept_le suffix (held event member (by omega))
          omega
        · rw [Nat.not_lt] at expired
          have answer := retains.numbered.kept_after suffix expired
          rw [answer, Except.ok.injEq]
          have held : ∀ event ∈ recorded, seq < event.seq → event ∈ oldest :: rest := by
            intro event member after
            have left := retains.numbered.mem_drop.mpr ⟨member, after⟩
            rw [← answer] at left
            exact List.mem_of_mem_drop left
          constructor
          · intro same
            exact ⟨foreign.1, foreign.2, held, same.symm⟩
          · rintro ⟨_, _, _, same⟩
            exact same.symm

end SessionEventBuffer

end Rozi.Events
