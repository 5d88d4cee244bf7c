import Rozi.Library.Exchange
import Rozi.Session.Mailbox

/-!
What comes out of a mailbox against what went in. Ordered output joins the newest entry of its
stream; an independent graphics frame may take the place of an older one of its key.
-/

namespace Rozi.Inbound

open Lanes ByteQueue ReplacementQueue

def eventKey : InboundEvent → Option ReplacementKey
  | .frame frame => inboundReplacementKey frame
  | .disconnected | .failed _ => none

def isOutput : InboundEvent → Bool
  | .frame (.paneOutput ..) => true
  | _ => false

def ordered : Lanes InboundEvent PresentationKey UInt8 where
  lane
    | .frame (.paneOutput stream metadata _ _) => if isOrdered metadata then some stream else none
    | _ => none
  text
    | .frame (.paneOutput _ _ _ bytes) => bytes
    | _ => []

/-- Whether an event may neither be merged nor replaced: a control, dependent graphics, ordered
output with media, and all that is no output. -/
def standsAlone : InboundEvent → Bool
  | .frame (.paneOutput _ metadata media _) =>
      !isIndependent metadata && (!isOrdered metadata || media.isSome)
  | _ => true

/-- Whether an event ends the replacements of a key. -/
def invalidates (key : ReplacementKey) : InboundEvent → Bool
  | .frame (.control (.attached _)) | .frame (.control (.inputMarked _)) => true
  | .frame (.control (.paneReset paneId _)) => key.pane = paneId && !key.isLocal
  | .frame (.control (.resized paneId isLocal _))
  | .frame (.control (.exited paneId isLocal _))
  | .frame (.control (.spawnResult paneId isLocal _)) => key.pane = paneId && key.isLocal = isLocal
  | .frame (.paneOutput stream metadata _ _) =>
      !isIndependent metadata && key.pane = stream.paneId && key.isLocal = stream.isLocal
  | _ => false

section frames

variable {event queued next merged : InboundEvent} {adjacent : Bool}

theorem eventKey_isSome {key : ReplacementKey} (keyed : eventKey event = some key) :
    ∃ stream metadata media bytes, event = .frame (.paneOutput stream metadata media bytes) ∧
      isIndependent metadata = true := by
  unfold eventKey at keyed
  split at keyed
  · rename_i frame
    cases frame with
    | paneOutput stream metadata media bytes =>
        refine ⟨stream, metadata, media, bytes, rfl, ?_⟩
        cases shown : metadata.outputClass with
        | ordered => simp [inboundReplacementKey, OutputMetadata.replacementKey, shown] at keyed
        | dependentGraphics image incarnation revision =>
            simp [inboundReplacementKey, OutputMetadata.replacementKey, shown] at keyed
        | independentGraphics image incarnation revision => simp [isIndependent, shown]
    | _ => cases keyed
  · cases keyed
  · cases keyed

theorem independent_unordered {metadata : OutputMetadata}
    (independent : isIndependent metadata = true) : isOrdered metadata = false := by
  cases shown : metadata.outputClass with
  | ordered => simp [isIndependent, shown] at independent
  | dependentGraphics image incarnation revision => simp [isIndependent, shown] at independent
  | independentGraphics image incarnation revision => simp [isOrdered, shown]

theorem keyed_spares {key : ReplacementKey} (keyed : eventKey event = some key)
    (other : ReplacementKey) : invalidates other event = false := by
  rcases eventKey_isSome keyed with ⟨stream, metadata, media, bytes, rfl, independent⟩
  simp [invalidates, independent]

theorem coalesce_merged
    (merges : coalesceInboundSegment queued next adjacent = .merged merged) :
    ∃ stream metadata bytes more last, queued = .frame (.paneOutput stream metadata none bytes) ∧
      isOrdered metadata = true ∧ next = .frame (.paneOutput stream last none more) ∧
      isOrdered last = true ∧
      merged = .frame (.paneOutput stream last none (bytes ++ more)) := by
  unfold coalesceInboundSegment at merges
  split at merges
  · rename_i stream metadata bytes nextStream last more
    split_ifs at merges with classes apart large
    cases merges
    simp only [Bool.or_eq_true, Bool.not_eq_true', not_or, Bool.not_eq_false] at classes
    have same : stream = nextStream := not_not.mp apart
    exact ⟨stream, metadata, bytes, more, last, rfl, classes.1, by rw [same], classes.2, rfl⟩
  · cases merges

/-- Ordered output without media is passed by for output of another stream. -/
theorem coalesce_continues (passes : coalesceInboundSegment queued next adjacent = .continues) :
    ∃ stream metadata bytes other last more,
      queued = .frame (.paneOutput stream metadata none bytes) ∧ isOrdered metadata = true ∧
      next = .frame (.paneOutput other last none more) ∧ stream ≠ other := by
  unfold coalesceInboundSegment at passes
  split at passes
  · rename_i stream metadata bytes nextStream last more
    split_ifs at passes with classes apart large
    simp only [Bool.or_eq_true, Bool.not_eq_true', not_or, Bool.not_eq_false] at classes
    exact ⟨stream, metadata, bytes, nextStream, last, more, rfl, classes.1, rfl, apart⟩
  · cases passes

theorem invalidate_spec (queue : ByteQueue InboundEvent) (frame : Frame) :
    (invalidateInboundReplacements queue frame).entries = queue.entries ∧
      (invalidateInboundReplacements queue frame).base = queue.base ∧
      ∀ key position,
        (invalidateInboundReplacements queue frame).replacements key = some position →
          queue.replacements key = some position ∧ invalidates key (.frame frame) = false := by
  have panes : ∀ paneId isLocal key position,
      (queue.invalidateReplacements paneId isLocal).replacements key = some position →
        queue.replacements key = some position ∧
          (key.pane = paneId → key.isLocal ≠ isLocal) := by
    intro paneId isLocal key position found
    simp only [invalidateReplacements] at found
    split_ifs at found with other
    exact ⟨found, fun pane => other.resolve_left (not_not_intro pane)⟩
  refine ⟨?_, ?_, fun key position found => ?_⟩
  · unfold invalidateInboundReplacements
    split <;> try rfl
    split_ifs <;> rfl
  · unfold invalidateInboundReplacements
    split <;> try rfl
    split_ifs <;> rfl
  · cases frame with
    | control message =>
        cases message with
        | attached content => cases found
        | inputMarked token => cases found
        | paneReset paneId content =>
            rcases panes paneId false key position found with ⟨kept, apart⟩
            exact ⟨kept, by simpa [invalidates] using apart⟩
        | resized paneId isLocal content =>
            rcases panes paneId isLocal key position found with ⟨kept, apart⟩
            exact ⟨kept, by simpa [invalidates] using apart⟩
        | exited paneId isLocal content =>
            rcases panes paneId isLocal key position found with ⟨kept, apart⟩
            exact ⟨kept, by simpa [invalidates] using apart⟩
        | spawnResult paneId isLocal content =>
            rcases panes paneId isLocal key position found with ⟨kept, apart⟩
            exact ⟨kept, by simpa [invalidates] using apart⟩
        | other content => exact ⟨found, rfl⟩
    | paneOutput stream metadata media bytes =>
        simp only [invalidateInboundReplacements] at found
        split_ifs at found with independent
        · exact ⟨found, by simp [invalidates, independent]⟩
        · rcases panes stream.paneId stream.isLocal key position found with ⟨kept, apart⟩
          refine ⟨kept, ?_⟩
          simpa [invalidates, independent] using apart
    | presentationAcks acks => exact ⟨found, rfl⟩
    | acquisitionAcks acks => exact ⟨found, rfl⟩
    | presentationInterest interest => exact ⟨found, rfl⟩
    | paneBytes stream bytes => exact ⟨found, rfl⟩

end frames

/-- What a push of a frame leaves: the frame behind all others, merged into an entry no other than
mergeable ones stand behind, or in the place of an entry of its key. -/
inductive Enqueued (queue : ByteQueue InboundEvent) (frame : Frame) :
    ByteQueue InboundEvent → Prop
  | added {next : ByteQueue InboundEvent} (entry : QueueEntry InboundEvent)
      (carries : entry.value = .frame frame)
      (replacement : entry.replacement = eventKey (.frame frame))
      (base : next.base = queue.base) (entries : next.entries = queue.entries ++ [entry])
      (index : ∀ key position, next.replacements key = some position →
        (queue.replacements key = some position ∧ invalidates key (.frame frame) = false) ∨
          (eventKey (.frame frame) = some key ∧
            position = queue.base + queue.entries.length)) :
      Enqueued queue frame next
  | merged {next : ByteQueue InboundEvent} {front back : List (QueueEntry InboundEvent)}
      {entry grown : QueueEntry InboundEvent} {adjacent : Bool}
      (whole : queue.entries = front ++ entry :: back)
      (passed : ∀ later ∈ back, ∃ adjacent,
        coalesceInboundSegment later.value (.frame frame) adjacent = .continues)
      (merges : coalesceInboundSegment entry.value (.frame frame) adjacent = .merged grown.value)
      (kept : grown.replacement = entry.replacement) (base : next.base = queue.base)
      (entries : next.entries = front ++ grown :: back)
      (index : ∀ key position, next.replacements key = some position →
        queue.replacements key = some position ∧ invalidates key (.frame frame) = false) :
      Enqueued queue frame next
  | replaced {next : ByteQueue InboundEvent} {front back : List (QueueEntry InboundEvent)}
      {entry new : QueueEntry InboundEvent} {key : ReplacementKey}
      (keyed : eventKey (.frame frame) = some key)
      (whole : queue.entries = front ++ entry :: back)
      (indexed : queue.replacements key = some (queue.base + front.length))
      (carries : new.value = .frame frame) (replacement : new.replacement = some key)
      (base : next.base = queue.base) (entries : next.entries = front ++ new :: back)
      (index : ∀ other position, next.replacements other = some position →
        queue.replacements other = some position) :
      Enqueued queue frame next

theorem enqueueInboundFrame_spec {size : ServerMessage → Nat} {queue next : ByteQueue InboundEvent}
    {frame : Frame} (pushed : enqueueInboundFrame size queue frame = .ok next) :
    Enqueued queue frame next := by
  rcases invalidate_spec queue frame with ⟨entries, base, spared⟩
  simp only [enqueueInboundFrame] at pushed
  cases keyed : inboundReplacementKey frame with
  | some key =>
      rw [keyed] at pushed
      rcases tryPushLatestMedia_spec pushed with
        ⟨base', ⟨index, entry, indexed, there, entries', index'⟩ | ⟨entries', index'⟩⟩
      · rcases replacementIndex_eq_some indexed with ⟨position, found, reached⟩
        rw [base] at reached
        rw [entries] at there entries'
        have bound : index < queue.entries.length := (List.getElem?_eq_some_iff.mp there).1
        have whole : queue.entries =
            queue.entries.take index ++ entry :: queue.entries.drop (index + 1) := by
          rw [← (List.getElem?_eq_some_iff.mp there).2, List.cons_getElem_drop_succ,
            List.take_append_drop]
        rw [List.set_eq_take_append_cons_drop, if_pos bound] at entries'
        have front : queue.base + (queue.entries.take index).length = position := by
          rw [List.length_take_of_le bound.le, reached]
        refine .replaced keyed whole ?_ ?_ ?_ (base'.trans base) entries' fun other place taken => ?_
        · rw [front]
          exact (spared key position found).1
        · rfl
        · rfl
        · rw [index'] at taken
          exact (spared other place taken).1
      · rw [base, entries] at index'
        rw [entries] at entries'
        refine .added _ rfl keyed.symm (base'.trans base) entries' fun other position found => ?_
        rw [index', insertKey] at found
        split_ifs at found with same
        · cases found
          exact .inr ⟨keyed.trans (by rw [same]), rfl⟩
        · exact .inl (spared other position found)
  | none =>
      rw [keyed] at pushed
      rcases pushBlockingWithinSegmentMedia_pushed pushed with ⟨outcome, base', index'⟩
      rw [entries] at outcome
      generalize left : next.entries = after at outcome
      cases outcome with
      | added entry carries plain =>
          refine .added entry carries (plain.trans keyed.symm) (base'.trans base) left
            fun other position found => ?_
          rw [index'] at found
          exact .inl (spared other position found)
      | merged whole passed merges kept =>
          refine .merged whole passed merges kept (base'.trans base) left
            fun other position found => ?_
          rw [index'] at found
          exact spared other position found

theorem enqueueInboundFrame_refused {size : ServerMessage → Nat}
    {queue next : ByteQueue InboundEvent} {frame : Frame} {error : PushError InboundEvent}
    (refused : enqueueInboundFrame size queue frame = .error (error, next)) :
    next = invalidateInboundReplacements queue frame := by
  simp only [enqueueInboundFrame] at refused
  cases keyed : inboundReplacementKey frame with
  | some key =>
      rw [keyed] at refused
      exact (tryPushLatestMedia_refused refused).1
  | none =>
      rw [keyed] at refused
      exact (pushSegment_refused refused).1

end Rozi.Inbound
