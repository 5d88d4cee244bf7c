import Rozi.Recording.EncodeReplay
import Rozi.Recording.PlaySeek

/-!
Seeking agrees with watching: playback from a time or a mark shows what playback from the beginning
shows from there on, after the last frame before it.
-/

namespace Rozi.Recording

namespace Playback

variable {M C : Type} {drawing : Drawing C} {replay : Replay M} {events : List (FileEvent M)}

def Course (drawing : Drawing C) (playback : Playback M C) (cues : List (Cue C))
    (error : Option PlayError) : Prop :=
  ∀ cues' error', Plays drawing playback cues' error' ↔ cues' = cues ∧ error' = error

theorem Plays.course {playback : Playback M C} {cues : List (Cue C)} {error : Option PlayError}
    (plays : Plays drawing playback cues error) : Course drawing playback cues error := by
  intro cues' error'
  constructor
  · intro other
    exact other.unique plays
  · rintro ⟨rfl, rfl⟩
    exact plays

structure Opened (drawing : Drawing C) (events : List (FileEvent M)) (replay : Replay M) :
    Prop where
  legible : Replay.Legible drawing events replay
  lines : replay.lines = events.map .ok
  genuine : replay.Genuine drawing replay.decoded

theorem Opened.reading (opened : Opened drawing events replay) (seek : Option Seek) :
    Reading drawing replay events (new (C := C) replay seek) :=
  ⟨rfl, rfl, replay.decoded, by rw [← opened.lines]; rfl, opened.genuine⟩

theorem Opened.seeking (opened : Opened drawing events replay) {seek : Seek}
    (ahead : (new (C := C) replay (some seek)).start = none) :
    Seeking drawing replay events seek (new (C := C) replay (some seek)) :=
  ⟨opened.reading _, ahead, rfl, by simp [new]⟩

/-- Playback from the beginning shows every frame at its time. From a time it shows the last frame
at or before that, and those after it; from a mark, the last frame written before the mark, and
those written after it. It fails where the recording is shorter, or has no such mark. -/
theorem seek_agrees_with_watch (opened : Opened drawing events replay) :
    ∃ moments stop, replay.watch drawing events = (moments, stop) ∧
      Course drawing (new replay none) (cuesFrom 0 stop (shows moments)) none ∧
      Course drawing (new replay (some (.time 0))) (cuesFrom 0 stop (shows moments)) none ∧
      (∀ T, 0 < T → T ≤ stop → Course drawing (new replay (some (.time T)))
        (opening (lastUntil T none (shows moments)) ++
          cuesFrom T stop (after' T (shows moments))) none) ∧
      (∀ T, stop < T →
        Course drawing (new replay (some (.time T))) [] (some (.shorter stop T))) ∧
      (∀ label front t back, moments = front ++ .marked t label :: back →
        (∀ t', .marked t' label ∉ front) → Course drawing (new replay (some (.mark label)))
          (opening (lastOf none (shows front)) ++ cuesFrom t stop (shows back)) none) ∧
      (∀ label, (∀ t, .marked t label ∉ moments) →
        Course drawing (new replay (some (.mark label))) [] (some (.noMark label))) := by
  have timed : ∀ T, 0 < T → SeekingTime drawing T none (new replay (some (.time T)))
      (replay.watch drawing events) := by
    intro T later
    have ahead : (new (C := C) replay (some (.time T))).start = none := by
      cases T with
      | zero => cases later
      | succ T => rfl
    exact plays_seeking_time opened.legible (opened.seeking ahead)
  have marked : ∀ label, SeekingMark drawing label none (new replay (some (.mark label)))
      (replay.watch drawing events) := fun label =>
    plays_seeking_mark opened.legible (opened.seeking rfl)
  refine ⟨_, _, rfl, ?_, ?_, ?_, ?_, ?_, ?_⟩
  · exact (plays_begun opened.legible (opened.reading none) rfl).course
  · exact (plays_begun opened.legible (opened.reading _) rfl).course
  · exact fun T later within => ((timed T later).1 within).course
  · exact fun T past => ((timed T (Nat.zero_lt_of_lt past)).2 past).course
  · exact fun label front t back same first => ((marked label).1 front t back same first).course
  · exact fun label never => ((marked label).2 never).course

/-! Two frames written at one time, with a mark after the first, that show one image. -/

def whitePixel : DecodedImage := ⟨1, 1, [255, 255, 255, 255]⟩

def plainDrawing : Drawing (SpanFrame × List (Option DecodedImage)) where
  segmentation := Jamo.segmentation
  fromPng := fun _ _ => .ok whitePixel
  capturedFrame := fun frame pixels => (frame, frame.imageIds.map pixels)

def dot : RecordedImage := ⟨5, "dot", 1, 1, "iVBORw0KGgo="⟩

def dotted (text : List Char) : SpanFrame :=
  { Jamo.frameOf (Jamo.letters text) with
    images := [{
      x := 0, y := 0, width := 1, height := 1, pixelWidth := 1, pixelHeight := 1
      fillCellBox := false, zIndex := 0, underlyingCells := [], visible := none
      pngBase64 := none, id := some "dot" }] }

def pictured (text : List Char) : SpanFrame × List (Option DecodedImage) :=
  (dotted text, [some whitePixel])

def twoAtOnce : List (FileEvent Unit) :=
  [.image dot, .encoded (.keyframe 5 (dotted ['a'])), .mark 5 "here",
    .encoded (.keyframe 5 (dotted ['b'])), .finish ⟨9, .stopped, {}⟩]

def replayed (events : List (FileEvent Unit)) : Replay Unit := { lines := events.map .ok }

theorem legible_keyframe {t : Nat} {frame : SpanFrame} {replay : Replay Unit}
    {events : List (FileEvent Unit)} (timely : replay.lastT ≤ t)
    (small : checkFrame frame = .ok ())
    (kept : ∀ id ∈ frame.imageIds, (replay.images.lookup id).isSome = true)
    (fits : (frame.imageIds.dedup.map (replay.weight plainDrawing)).sum ≤ replay.decodedBudget) :
    replay.LegibleEvent plainDrawing (.encoded (.keyframe t frame)) events (some (.frame t))
      { replay.noteTime (.encoded (.keyframe t frame)) with frame := some frame } where
  reads := by
    unfold Replay.readEvent
    simp only [small]
    rfl
  timely := by
    rintro _ ⟨⟩
    exact timely
  room := by rintro _ ⟨⟩
  drawable := by
    rintro _ _ ⟨⟩ ⟨⟩
    exact ⟨fun _ _ _ _ => ⟨whitePixel, rfl⟩, fits⟩
  named := by
    rintro _ _ image ⟨⟩ ⟨⟩ _
    exact kept image.id

theorem legible_quiet {event : FileEvent Unit} {step : Option (ReplayStep Unit)}
    {replay next : Replay Unit} {events : List (FileEvent Unit)}
    (reads : replay.readEvent plainDrawing event = .ok (step, next))
    (timely : ∀ t, event.time = some t → replay.lastT ≤ t) (bare : ∀ image, event ≠ .image image)
    (still : ∀ t, step ≠ some (.frame t)) :
    replay.LegibleEvent plainDrawing event events step next where
  reads := reads
  timely := timely
  room := fun image same => absurd same (bare image)
  drawable := fun t _ same => absurd same (still t)
  named := fun t _ _ same => absurd same (still t)

theorem legible_image {image : RecordedImage} {replay next : Replay Unit}
    {events : List (FileEvent Unit)}
    (reads : replay.readEvent plainDrawing (.image image) = .ok (none, next))
    (timely : replay.lastT ≤ image.t)
    (room : replay.imageBytes + retainedCost image ≤ replay.imageBudget) :
    replay.LegibleEvent plainDrawing (.image image) events none next where
  reads := reads
  timely := by
    rintro _ ⟨⟩
    exact timely
  room := by
    rintro _ ⟨⟩ _
    exact room
  drawable := by rintro _ _ ⟨⟩
  named := by rintro _ _ _ ⟨⟩

theorem opened_twoAtOnce : Opened plainDrawing twoAtOnce (replayed twoAtOnce) where
  legible := by
    refine ⟨_, _, legible_image rfl (by decide) (by decide), ?_⟩
    refine ⟨_, _, legible_keyframe (by decide) (by decide) (by decide) (by decide), ?_⟩
    refine ⟨_, _, legible_quiet rfl (by decide) (by simp) (by simp), ?_⟩
    refine ⟨_, _, legible_keyframe (by decide) (by decide) (by decide) (by decide), ?_⟩
    refine ⟨_, _, legible_quiet rfl (by decide) (by simp) (by simp), ?_⟩
    exact trivial
  lines := rfl
  genuine := fun _ _ found => by cases found

theorem seek_agrees_with_watch_twoAtOnce :
    Course plainDrawing (new (replayed twoAtOnce) (some (.mark "here")))
      [.show 0 (pictured ['a']), .show 0 (pictured ['b']), .hold 4] none := by
  rcases seek_agrees_with_watch opened_twoAtOnce with
    ⟨moments, stop, watched, _, _, _, _, marked, _⟩
  cases watched
  exact marked "here" [.shown 5 (pictured ['a'])] 5 [.shown 5 (pictured ['b'])] rfl (by simp)

/-- Playback from the beginning shows both frames, playback from their time only the last. -/
theorem frame_at_start_skipped :
    Course plainDrawing (new (replayed twoAtOnce) none)
      [.show 5 (pictured ['a']), .show 5 (pictured ['b']), .hold 9] none ∧
      ¬ Plays plainDrawing (new (replayed twoAtOnce) (some (.time 5)))
        [.show 0 (pictured ['a']), .show 0 (pictured ['b']), .hold 4] none := by
  have opened := opened_twoAtOnce
  have reading := opened.reading (C := SpanFrame × List (Option DecodedImage)) none
  refine ⟨(plays_begun opened.legible reading rfl).course, ?_⟩
  have seeking : Seeking plainDrawing (replayed twoAtOnce) twoAtOnce (.time 5)
      (new (replayed twoAtOnce) (some (.time 5))) := opened.seeking rfl
  have sought := (plays_seeking_time opened.legible seeking).1 (by decide)
  intro both
  exact absurd (both.unique sought).1 (by decide)

end Playback

end Rozi.Recording
