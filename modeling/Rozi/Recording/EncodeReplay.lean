import Rozi.Recording.Encode
import Rozi.Recording.RowDiff
import Mathlib.Algebra.GroupWithZero.Nat

/-!
Replaying the events of a recording against the frames it was made from.
-/

namespace Rozi.Recording

open Stretch

structure FormedFrame (seg : Segmentation) (Glyph : Text → Prop) (frame : SpanFrame) : Prop where
  format : frame.format = spanFrameFormat
  version : frame.version = spanFrameVersion
  height : frame.rows.length = frame.height
  rows : ∀ row ∈ frame.rows, Formed seg Glyph frame.width row

def FrameEncoder.cuts (seg : Segmentation) (encoder : FrameEncoder) (t : Nat)
    (frame : SpanFrame) : Bool :=
  match encoder.previous with
  | none => false
  | some previous =>
      previous.width = frame.width && previous.height = frame.height && !encoder.keyframeDue t &&
        (previous.rows.zip frame.rows).any fun (old, new) => severs seg old new frame.width

section delta

variable {seg : Segmentation} {Glyph : Text → Prop} {previous next : SpanFrame}

theorem foldlM_applyRow {frame : SpanFrame} {width y : Nat} {row : List SpanRun}
    (changes : List RowChange) (there : frame.rows[y]? = some row)
    (own : ∀ change ∈ changes, change.y = y) :
    changes.foldlM (applyRow seg width) frame = .ok { frame with
      rows := frame.rows.set y
        (changes.foldl (fun row change => apply seg row change width) row) } := by
  induction changes generalizing frame row with
  | nil =>
      rcases List.getElem?_eq_some_iff.mp there with ⟨inside, rfl⟩
      simp [List.set_getElem_self, pure, Except.pure]
  | cons change changes ih =>
      have inside : y < frame.rows.length := (List.getElem?_eq_some_iff.mp there).1
      have here := own change List.mem_cons_self
      have first : applyRow seg width frame change =
          .ok { frame with rows := frame.rows.set y (apply seg row change width) } := by
        simp only [applyRow, here, there]
      have others : ∀ other ∈ changes, other.y = y :=
        fun other member => own other (List.mem_cons_of_mem _ member)
      have changed : (frame.rows.set y (apply seg row change width))[y]? =
          some (apply seg row change width) := by simp [inside]
      have later : changes.foldlM (applyRow seg width)
          { frame with rows := frame.rows.set y (apply seg row change width) } = _ :=
        ih changed others
      rw [List.foldlM_cons, first, List.foldl_cons]
      simp only [List.set_set] at later
      exact later

theorem diff_rows (y : Nat) (old new : List SpanRun) (width : Nat) :
    ∀ change ∈ diff seg y old new width, change.y = y := by
  intro change member
  simp only [diff] at member
  split_ifs at member
  · cases member
  · rw [List.mem_singleton.mp member]
  · rw [List.mem_singleton.mp member]
  · rcases List.mem_map.mp member with ⟨span, _, rfl⟩
    rfl

/-- The changes of a row leave its new version, if they apply, and all other rows. -/
theorem foldlM_rowChanges {frame : SpanFrame} {done olds : List (List SpanRun)}
    {old new : List SpanRun} {width : Nat} (rows : frame.rows = done ++ old :: olds)
    (there : previous.rows[done.length]? = some old)
    (applies : (diff seg done.length old new width).foldl
      (fun row change => apply seg row change width) old = new) :
    (rowChanges seg previous width done.length new).foldlM (applyRow seg width) frame =
      .ok { frame with rows := done ++ new :: olds } := by
  have present : frame.rows[done.length]? = some old := by simp [rows]
  simp only [rowChanges, there]
  split_ifs with same
  · rw [← same, ← rows]
    rfl
  · rw [foldlM_applyRow _ present (diff_rows _ _ _ _), applies, rows]
    simp

theorem foldlM_rows {frame : SpanFrame} {done olds news : List (List SpanRun)} {width : Nat}
    (rows : frame.rows = done ++ olds) (lengths : olds.length = news.length)
    (there : ∀ i : Nat, previous.rows[done.length + i]? = olds[i]?)
    (applies : ∀ y, ∀ pair ∈ olds.zip news, (diff seg y pair.1 pair.2 width).foldl
      (fun row change => apply seg row change width) pair.1 = pair.2) :
    ((news.zipIdx done.length).flatMap fun (row, y) => rowChanges seg previous width y row).foldlM
      (applyRow seg width) frame = .ok { frame with rows := done ++ news } := by
  induction news generalizing frame done olds with
  | nil =>
      rw [List.length_nil, List.length_eq_zero_iff] at lengths
      rw [lengths] at rows
      rw [← rows]
      rfl
  | cons new news ih =>
      cases olds with
      | nil => cases lengths
      | cons old olds =>
          have first : (rowChanges seg previous width done.length new).foldlM (applyRow seg width)
              frame = _ :=
            foldlM_rowChanges rows (there 0) (applies done.length (old, new) (by simp))
          rw [List.zipIdx_cons, List.flatMap_cons, List.foldlM_append, first]
          have next : ({ frame with rows := done ++ new :: olds } : SpanFrame).rows =
              (done ++ [new]) ++ olds := by simp
          have length : (done ++ [new]).length = done.length + 1 := by simp
          have later := ih next (by simpa using lengths) (by
            intro i
            rw [length, Nat.add_assoc, Nat.add_comm 1]
            exact there (i + 1)) fun y pair member =>
              applies y pair (by rw [List.zip_cons_cons]; exact List.mem_cons_of_mem _ member)
          rw [length] at later
          simp only [List.append_assoc, List.singleton_append] at later
          exact later

theorem changed_getD {α : Type} [DecidableEq α] (old new : α) :
    (if old ≠ new then some new else none).getD old = new := by
  split_ifs with same
  · rfl
  · exact not_not.mp same

theorem applyDelta_frameDiff (lawful : Resegments seg Glyph)
    (before : FormedFrame seg Glyph previous) (after : FormedFrame seg Glyph next)
    (width : previous.width = next.width) (height : previous.height = next.height)
    (unsevered : ∀ pair ∈ previous.rows.zip next.rows,
      severs seg pair.1 pair.2 next.width = false) (t : Nat) :
    applyDelta seg previous (frameDiff seg previous next t) = .ok next := by
  have lengths : previous.rows.length = next.rows.length := by
    rw [before.height, after.height, height]
  have rows : (frameDiff seg previous next t).rows.foldlM (applyRow seg previous.width) previous =
      .ok { previous with rows := next.rows } := by
    have changes : (frameDiff seg previous next t).rows =
        (next.rows.zipIdx ([] : List (List SpanRun)).length).flatMap fun (row, y) =>
          rowChanges seg previous previous.width y row := by
      rw [width]
      rfl
    rw [changes]
    refine foldlM_rows (List.nil_append _).symm lengths (by simp) fun y pair member => ?_
    rcases List.of_mem_zip member with ⟨old, new⟩
    rw [width]
    exact diff_applies lawful (width ▸ before.rows pair.1 old) (after.rows pair.2 new)
      (unsevered pair member) y
  have same : ({ previous with
      rows := next.rows, cursor := next.cursor, images := next.images, palette := next.palette } :
      SpanFrame) = next := by
    rcases previous with ⟨⟩
    rcases next with ⟨⟩
    simp only [SpanFrame.mk.injEq, and_true]
    exact ⟨before.format.trans after.format.symm, before.version.trans after.version.symm, width,
      height⟩
  calc
    applyDelta seg previous (frameDiff seg previous next t) = .ok { previous with
        rows := next.rows
        cursor := (if previous.cursor ≠ next.cursor then some next.cursor else none).getD
          previous.cursor
        images := (if previous.images ≠ next.images then some next.images else none).getD
          previous.images
        palette := (if previous.palette ≠ next.palette then some next.palette else none).getD
          previous.palette } := by
      rw [applyDelta, rows]
      rfl
    _ = .ok next := by rw [changed_getD, changed_getD, changed_getD, same]

end delta

def recordings (seg : Segmentation) (Glyph : Text → Prop) :
    Transition EncodeRun (Nat × SpanFrame) where
  initial := fun run => ∃ keyframeIntervalMs, run = { encoder := { keyframeIntervalMs } }
  step := fun run (t, frame) next => FormedFrame seg Glyph frame ∧ next = run.after seg t frame

namespace EncodeRun

variable {seg : Segmentation} {Glyph : Text → Prop} {run : EncodeRun}

def Whole (seg : Segmentation) (run : EncodeRun) (step : Nat × SpanFrame) : Prop :=
  run.encoder.cuts seg step.1 step.2 = false

theorem encode_spec (lawful : Resegments seg Glyph) {encoder : FrameEncoder} {t : Nat}
    {frame : SpanFrame} (before : ∀ previous, encoder.previous = some previous →
      FormedFrame seg Glyph previous)
    (after : FormedFrame seg Glyph frame) (whole : encoder.cuts seg t frame = false) :
    replay seg encoder.previous (encoder.encode seg t frame).2 = .ok (some frame) ∧
      (encoder.encode seg t frame).1.previous = some frame := by
  unfold FrameEncoder.encode
  cases shown : encoder.previous with
  | none => exact ⟨rfl, rfl⟩
  | some previous =>
      simp only
      split_ifs with same size due
      · exact ⟨by rw [same]; rfl, by rw [← same]; exact shown⟩
      · exact ⟨rfl, rfl⟩
      · exact ⟨rfl, rfl⟩
      · rw [not_not, Prod.mk.injEq] at size
        have unsevered : ∀ pair ∈ previous.rows.zip frame.rows,
            severs seg pair.1 pair.2 frame.width = false := by
          simpa [FrameEncoder.cuts, shown, size, due] using whole
        have applied := applyDelta_frameDiff lawful (before previous shown) after size.1 size.2
          unsevered t
        refine ⟨?_, rfl⟩
        simp only [replay, List.foldlM_cons, List.foldlM_nil, playEvent, applied]
        rfl

structure Followed (seg : Segmentation) (Glyph : Text → Prop) (run : EncodeRun) : Prop where
  shown : replay seg none run.events = .ok run.encoder.previous
  last : run.last = run.encoder.previous
  formed : ∀ previous, run.encoder.previous = some previous → FormedFrame seg Glyph previous

theorem Followed.after (lawful : Resegments seg Glyph) (followed : Followed seg Glyph run) {t : Nat}
    {frame : SpanFrame} (formed : FormedFrame seg Glyph frame) (whole : run.Whole seg (t, frame)) :
    Followed seg Glyph (run.after seg t frame) := by
  rcases encode_spec lawful followed.formed formed whole with ⟨events, previous⟩
  refine ⟨?_, ?_, ?_⟩
  · have both : replay seg none (run.events ++ (run.encoder.encode seg t frame).2) =
        .ok (some frame) := by
      rw [replay, List.foldlM_append, ← replay, followed.shown]
      exact events
    rw [EncodeRun.after, both, previous]
  · simp [EncodeRun.after, EncodeRun.last, previous]
  · intro other same
    rw [EncodeRun.after, previous] at same
    cases same
    exact formed

theorem followed_of_run (lawful : Resegments seg Glyph)
    (reached : (recordings seg Glyph).ReachableWhen (EncodeRun.Whole seg) run) :
    Followed seg Glyph run := by
  apply reached.invariant
  · rintro state ⟨interval, rfl⟩
    exact ⟨rfl, rfl, fun previous none => by cases none⟩
  · rintro state ⟨t, frame⟩ next followed whole ⟨formed, rfl⟩
    exact followed.after lawful formed whole

theorem replay_from_keyframe {events front back : List RecordingEvent} {t : Nat} {frame : SpanFrame}
    {shown : Option SpanFrame} (whole : events = front ++ .keyframe t frame :: back)
    (replayed : replay seg none events = .ok shown) :
    replay seg none (.keyframe t frame :: back) = .ok shown := by
  rw [whole, replay, List.foldlM_append] at replayed
  cases early : front.foldlM (playEvent seg) none with
  | error message =>
      rw [early] at replayed
      cases replayed
  | ok state =>
      rw [early] at replayed
      exact replayed

/-- A recording whose changes never cut a glyph of the row they replace reproduces every frame,
from its start and from every keyframe. -/
theorem recording_reproduces (lawful : Resegments seg Glyph)
    (reached : (recordings seg Glyph).ReachableWhen (EncodeRun.Whole seg) run) :
    replay seg none run.events = .ok run.last ∧
      ∀ front t frame back, run.events = front ++ .keyframe t frame :: back →
        replay seg none (.keyframe t frame :: back) = .ok run.last := by
  have followed := followed_of_run lawful reached
  have shown : replay seg none run.events = .ok run.last := by rw [followed.last, followed.shown]
  exact ⟨shown, fun front t frame back whole => replay_from_keyframe whole shown⟩

end EncodeRun

/-!
Hangul: leading consonants join with what follows them to one grapheme, two columns wide for each.
-/

namespace Jamo

def leading : Char := 'ᄀ'

def vowel : Char := 'ᅡ'

def joins (char next : Char) : Bool := char = leading && (next = leading || next = vowel)

def clusters : Text → List Text
  | [] => []
  | char :: rest =>
      match clusters rest with
      | (next :: cluster) :: more =>
          if joins char next then (char :: next :: cluster) :: more
          else [char] :: (next :: cluster) :: more
      | more => [char] :: more

def charWidth (char : Char) : Nat := if char = leading then 2 else if char = vowel then 0 else 1

def segmentation : Segmentation where
  graphemes := clusters
  width := fun text => (text.map charWidth).sum

def Glyph (text : Text) : Prop :=
  clusters text = [text] ∧ text.getLast? ≠ some leading ∧
    (text = [' '] ∨ text.getLast? ≠ some ' ')

instance : DecidablePred Glyph := fun text =>
  inferInstanceAs (Decidable (clusters text = [text] ∧ text.getLast? ≠ some leading ∧
    (text = [' '] ∨ text.getLast? ≠ some ' ')))

theorem flatten_clusters (text : Text) : (clusters text).flatten = text := by
  induction text with
  | nil => rfl
  | cons char rest ih =>
      rw [clusters]
      split
      · rename_i next cluster more same
        rw [same] at ih
        split_ifs <;> simpa using ih
      · simpa using ih

theorem clusters_cons {char next : Char} (rest : Text) (apart : joins char next = false) :
    clusters (char :: next :: rest) = [char] :: clusters (next :: rest) := by
  have text := flatten_clusters (next :: rest)
  rw [clusters]
  split
  · rename_i first cluster more same
    rw [same] at text ⊢
    simp only [List.flatten_cons, List.cons_append, List.cons.injEq] at text
    rw [text.1, apart]
    rfl
  · rfl

theorem clusters_append {glyph : Text} (whole : clusters glyph = [glyph])
    (plain : glyph.getLast? ≠ some leading) (rest : Text) :
    clusters (glyph ++ rest) = glyph :: clusters rest := by
  induction glyph with
  | nil => cases whole
  | cons char glyph ih =>
      cases glyph with
      | nil =>
          cases rest with
          | nil => rfl
          | cons next rest =>
              have apart : joins char next = false := by
                have other : char ≠ leading := by simpa using plain
                simp [joins, other]
              exact clusters_cons rest apart
      | cons second glyph =>
          have text := flatten_clusters (second :: glyph)
          cases joined : joins char second with
          | false =>
              rw [clusters_cons glyph joined] at whole
              cases whole
          | true =>
              have inner : clusters (second :: glyph) = [second :: glyph] := by
                rw [clusters] at whole
                split at whole
                · rename_i first cluster more same
                  rw [same] at text ⊢
                  simp only [List.flatten_cons, List.cons_append, List.cons.injEq] at text
                  rw [text.1, joined, if_pos rfl] at whole
                  simp only [List.cons.injEq, true_and] at whole
                  rw [text.1, whole.1, whole.2]
                · simp at whole
              have last : (second :: glyph).getLast? ≠ some leading := by
                simpa using plain
              have tail := ih inner last
              rw [List.cons_append, clusters, tail]
              simp only
              rw [joined, if_pos rfl]

theorem clusters_flatten {glyphs : List Text} (known : ∀ glyph ∈ glyphs, Glyph glyph) :
    clusters glyphs.flatten = glyphs := by
  induction glyphs with
  | nil => rfl
  | cons glyph glyphs ih =>
      rcases known glyph List.mem_cons_self with ⟨whole, plain, _⟩
      rw [List.flatten_cons, clusters_append whole plain,
        ih fun other member => known other (List.mem_cons_of_mem _ member)]

theorem flatten_trimmed {glyphs : List Text} (known : ∀ glyph ∈ glyphs, Glyph glyph) :
    glyphs.flatten.rdropWhile (· = ' ') = (glyphs.rdropWhile (· = [' '])).flatten := by
  induction glyphs using List.reverseRecOn with
  | nil => rfl
  | append_singleton glyphs glyph ih =>
      have others := ih fun other member => known other (List.mem_append_left _ member)
      rcases known glyph (by simp) with ⟨whole, _, blank | ended⟩
      · subst blank
        rw [List.flatten_append, List.flatten_singleton, List.rdropWhile_concat_pos _ _ _ (by simp),
          List.rdropWhile_concat_pos _ _ _ (by simp), others]
      · have other : glyph ≠ [' '] := by
          rintro rfl
          exact ended rfl
        have filled : glyph ≠ [] := by
          rintro rfl
          cases whole
        have kept : glyph.rdropWhile (· = ' ') = glyph := by
          rw [List.rdropWhile_eq_self_iff]
          intro some space
          apply ended
          rw [List.getLast?_eq_getLast_of_ne_nil some]
          simpa using space
        rw [List.flatten_append, List.flatten_singleton, rdropWhile_append, kept, if_neg filled,
          List.rdropWhile_concat_neg _ _ _ (by simpa using other)]
        simp

theorem resegments : Resegments segmentation Glyph where
  blank_known := by decide
  blank_width := by decide
  text := flatten_clusters
  whole := fun _ known => clusters_flatten known
  trimmed := fun glyphs known => by
    rw [flatten_trimmed known]
    apply clusters_flatten
    intro glyph member
    exact known glyph ((List.rdropWhile_prefix _ _).subset member)

def frameOf (glyphs : List Text) : SpanFrame where
  width := extent segmentation glyphs
  height := 1
  palette := { foreground := "#ffffff", background := "#000000", ansi := [] }
  cursor := none
  rows := [spanRow (place segmentation 0 [⟨{}, glyphs⟩])]
  images := []

theorem frameOf_formed {glyphs : List Text} (filled : glyphs ≠ [])
    (known : ∀ glyph ∈ glyphs, Glyph glyph) : FormedFrame segmentation Glyph (frameOf glyphs) where
  format := rfl
  version := rfl
  height := rfl
  rows := by
    intro row member
    rw [List.mem_singleton.mp member]
    refine ⟨[⟨{}, glyphs⟩], ?_, ?_, rfl⟩
    · intro stretch member
      rw [List.mem_singleton.mp member]
      exact ⟨filled, known⟩
    · simp [length_expand_stretch, frameOf]

def syllable (leadings : Nat) : Text := List.replicate leadings leading ++ [vowel]

def letters (text : List Char) : List Text := text.map ([·])

def pair (first second : List Text) : EncodeRun :=
  ((({ encoder := { keyframeIntervalMs := 10000 } } : EncodeRun).after segmentation 0
    (frameOf first)).after segmentation 1 (frameOf second))

def before : List Text := syllable 6 :: letters ['b']

def after : List Text := syllable 4 :: letters ['c', 'd', 'e', 'f', 'b']

def changed : List Text := syllable 4 :: letters ['c', 'x', 'e', 'f', 'b']

theorem pair_reachable {first second : List Text} (begins : first ≠ []) (follows : second ≠ [])
    (known : ∀ glyph ∈ first, Glyph glyph) (known' : ∀ glyph ∈ second, Glyph glyph)
    (whole : EncodeRun.Whole segmentation
      (({ encoder := { keyframeIntervalMs := 10000 } } : EncodeRun).after segmentation 0
        (frameOf first)) (1, frameOf second)) :
    (recordings segmentation Glyph).ReachableWhen (EncodeRun.Whole segmentation)
      (pair first second) := by
  have start : (recordings segmentation Glyph).ReachableWhen (EncodeRun.Whole segmentation)
      { encoder := { keyframeIntervalMs := 10000 } } := .initial ⟨10000, rfl⟩
  have middle := start.next (0, frameOf first) rfl ⟨frameOf_formed begins known, rfl⟩
  exact middle.next (1, frameOf second) whole ⟨frameOf_formed follows known', rfl⟩

end Jamo

namespace EncodeRun

open Jamo

theorem recording_reproduces_changed :
    replay segmentation none (pair Jamo.after changed).events = .ok (some (frameOf changed)) ∧
      (pair Jamo.after changed).events.length = 2 := by
  have reached : (recordings segmentation Glyph).ReachableWhen (EncodeRun.Whole segmentation)
      (pair Jamo.after changed) :=
    pair_reachable (by decide) (by decide) (by decide) (by decide) (by
      unfold EncodeRun.Whole
      decide +kernel)
  have reproduced := (recording_reproduces resegments reached).1
  have last : (pair Jamo.after changed).last = some (frameOf changed) := rfl
  exact ⟨last ▸ reproduced, by decide +kernel⟩

/-- A wide glyph cut by two changes takes what stands behind it along. -/
theorem recording_loses_text :
    ∃ run, (recordings segmentation Glyph).Reachable run ∧
      replay segmentation none run.events ≠ .ok run.last := by
  have start : (recordings segmentation Glyph).Reachable
      { encoder := { keyframeIntervalMs := 10000 } } := .begin ⟨10000, rfl⟩
  have middle := start.next (0, frameOf before) ⟨frameOf_formed (by decide) (by decide), rfl⟩
  have reached := middle.next (1, frameOf Jamo.after) ⟨frameOf_formed (by decide) (by decide), rfl⟩
  refine ⟨_, reached, fun reproduced => ?_⟩
  have shown : (replay segmentation none (pair before Jamo.after).events).toOption ≠
      some (pair before Jamo.after).last := by decide +kernel
  exact shown (congrArg Except.toOption reproduced)

end EncodeRun

end Rozi.Recording
