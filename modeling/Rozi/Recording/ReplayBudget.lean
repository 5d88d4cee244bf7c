import Rozi.Library.Transition
import Rozi.Recording.Read

/-!
What a replay keeps of a recording's images stays within its budgets, whatever the file says.
-/

namespace Rozi.Recording

namespace Replay

variable {M C : Type} {drawing : Drawing C}

structure Fresh (imageBudget decodedBudget : Nat) (replay : Replay M) : Prop where
  images : replay.images = ∅
  imageOrder : replay.imageOrder = []
  imageBytes : replay.imageBytes = 0
  decoded : replay.decoded = ∅
  imageBudget : replay.imageBudget = imageBudget
  decodedBudget : replay.decodedBudget = decodedBudget

def arrival (replay : Replay M) : FileEvent M → List String
  | .image image => if (replay.images.lookup image.id).isSome then [] else [image.id]
  | _ => []

/-- The images that arrive in one step, which reads until an event says something. -/
def arrivals (drawing : Drawing C) :
    List (Except String (FileEvent M)) → Replay M → List String
  | .ok event :: lines, replay =>
      replay.arrival event ++ match replay.readEvent drawing event with
        | .ok (none, next) => arrivals drawing lines next
        | _ => []
  | _, _ => []

structure History (M : Type) where
  replay : Replay M
  arrived : List String := []

inductive Use where
  | step
  | draw (frame : SpanFrame)

def uses (drawing : Drawing C) (imageBudget decodedBudget : Nat) :
    Transition (History M) Use where
  initial history := history.replay.Fresh imageBudget decodedBudget ∧ history.arrived = []
  step history use next :=
    match use with
    | .step => (∃ said, history.replay.step drawing = .ok (said, next.replay)) ∧
        next.arrived = history.arrived ++ arrivals drawing history.replay.lines history.replay
    | .draw frame => (∃ picture, history.replay.captured drawing frame = .ok (picture, next.replay)) ∧
        next.arrived = history.arrived

/-- The order lists just the images that are kept, the bytes are theirs, and only images that are
kept are decoded. -/
structure Counted (order : List String) (replay : Replay M) : Prop where
  order : order.Perm replay.images.keys
  bytes : replay.imageBytes = replay.images.total retainedCost
  small : ∀ id image, replay.images.lookup id = some image →
    id.utf8ByteSize ≤ maxImageIdLen ∧ image.declared ≤ maxImageBytes
  drawn : ∀ id pixels, replay.decoded.lookup id = some pixels → (replay.images.lookup id).isSome
  used : used replay.decoded ≤ replay.decodedBudget

structure Within (imageBudget decodedBudget : Nat) (replay : Replay M) : Prop where
  counted : replay.Counted replay.imageOrder
  fits : replay.imageBytes ≤ replay.imageBudget
  imageBudget : replay.imageBudget = imageBudget
  decodedBudget : replay.decodedBudget = decodedBudget

variable {imageBudget decodedBudget : Nat} {replay next : Replay M}

theorem within_fresh (fresh : Fresh imageBudget decodedBudget replay) :
    replay.Within imageBudget decodedBudget := by
  refine ⟨⟨?_, ?_, ?_, ?_, ?_⟩, ?_, fresh.imageBudget, fresh.decodedBudget⟩
  · rw [fresh.imageOrder, fresh.images]
    exact .nil
  · rw [fresh.imageBytes, fresh.images, AList.total_empty]
  · intro id image found
    rw [fresh.images] at found
    cases found
  · intro id pixels found
    rw [fresh.decoded] at found
    cases found
  · rw [fresh.decoded]
    exact Nat.zero_le _
  · rw [fresh.imageBytes]
    exact Nat.zero_le _

theorem Counted.forgotten {oldest : String} {order : List String}
    (counted : replay.Counted (oldest :: order)) :
    ∃ image, replay.images.lookup oldest = some image ∧
      Counted order { replay with
        images := replay.images.erase oldest
        imageBytes := replay.imageBytes - retainedCost image
        decoded := replay.decoded.erase oldest } := by
  have kept : oldest ∈ replay.images.keys := counted.order.subset List.mem_cons_self
  rcases Option.isSome_iff_exists.mp (AList.lookup_isSome.mpr kept) with ⟨image, found⟩
  refine ⟨image, found, ?_, ?_, ?_, ?_, ?_⟩
  · have rest := List.cons_perm_iff_perm_erase.mp counted.order
    rw [AList.keys_erase]
    exact rest.2
  · show replay.imageBytes - retainedCost image = _
    rw [counted.bytes, AList.total_erase_of_lookup found]
  · intro id other found
    rw [AList.lookup_erase_eq] at found
    split_ifs at found
    exact counted.small id other found
  · intro id pixels found
    rw [AList.lookup_erase_eq] at found ⊢
    split_ifs at found ⊢
    exact counted.drawn id pixels found
  · have split := AList.total_split (fun image : DecodedImage => image.rgba.length)
      replay.decoded oldest
    have before := counted.used
    unfold Replay.used at before ⊢
    simp only
    omega

theorem Counted.forget {order : List String} (counted : replay.Counted order) :
    (forget order replay).Within replay.imageBudget replay.decodedBudget := by
  induction order generalizing replay with
  | nil =>
      refine ⟨⟨counted.order, counted.bytes, counted.small, counted.drawn, counted.used⟩, ?_, rfl,
        rfl⟩
      have empty : replay.images.entries = [] :=
        List.map_eq_nil_iff.mp (List.nil_perm.mp counted.order)
      show replay.imageBytes ≤ replay.imageBudget
      rw [counted.bytes, AList.total, empty]
      exact Nat.zero_le _
  | cons oldest order ih =>
      rw [Replay.forget]
      split_ifs with fits
      · exact ⟨⟨counted.order, counted.bytes, counted.small, counted.drawn, counted.used⟩, fits,
          rfl, rfl⟩
      · rcases counted.forgotten with ⟨image, found, rest⟩
        simp only [found]
        exact ih rest

theorem Within.store (within : replay.Within imageBudget decodedBudget) {image : RecordedImage}
    (stored : replay.store image = .ok next) : next.Within imageBudget decodedBudget := by
  unfold Replay.store at stored
  split_ifs at stored with long large known
  · cases stored
    exact within
  · cases stored
    have missing : replay.images.lookup image.id = none := by simpa using known
    have absent : image.id ∉ replay.images := AList.lookup_eq_none.mp missing
    have counted : Counted (replay.imageOrder ++ [image.id]) { replay with
        images := replay.images.insert image.id image
        imageBytes := replay.imageBytes + retainedCost image } := by
      refine ⟨?_, ?_, ?_, ?_, within.counted.used⟩
      · rw [AList.keys_insert, List.erase_of_not_mem absent]
        exact (List.perm_append_singleton _ _).trans (within.counted.order.cons _)
      · rw [AList.total_insert, AList.erase_of_lookup_none missing, ← within.counted.bytes,
          Nat.add_comm]
      · intro id other found
        rw [AList.lookup_insert_eq] at found
        split_ifs at found with same
        · cases found
          exact ⟨same ▸ Nat.not_lt.mp long, Nat.not_lt.mp large⟩
        · exact within.counted.small id other found
      · intro id pixels found
        have before := within.counted.drawn id pixels found
        rw [AList.lookup_insert_eq]
        split_ifs
        · rfl
        · exact before
    rw [← within.imageBudget, ← within.decodedBudget]
    exact counted.forget

theorem Within.readEvent (within : replay.Within imageBudget decodedBudget)
    {event : FileEvent M} {said : Option (ReplayStep M)}
    (reads : replay.readEvent drawing event = .ok (said, next)) :
    next.Within imageBudget decodedBudget := by
  have noted : (replay.noteTime event).Within imageBudget decodedBudget := by
    unfold noteTime
    cases event.time with
    | none => exact within
    | some t =>
        exact ⟨⟨within.counted.order, within.counted.bytes, within.counted.small,
          within.counted.drawn, within.counted.used⟩, within.fits, within.imageBudget,
          within.decodedBudget⟩
  have shown : ∀ frame, ({ replay.noteTime event with frame := some frame } : Replay M).Within
      imageBudget decodedBudget := fun frame =>
    ⟨⟨noted.counted.order, noted.counted.bytes, noted.counted.small, noted.counted.drawn,
      noted.counted.used⟩, noted.fits, noted.imageBudget, noted.decodedBudget⟩
  unfold Replay.readEvent at reads
  cases event with
  | encoded event =>
      cases event with
      | keyframe t frame =>
          simp only [Checks.bind_eq_ok, Checks.pure_eq_ok, Prod.mk.injEq] at reads
          rcases reads with ⟨_, _, _, rfl⟩
          exact shown frame
      | delta delta =>
          simp only [Checks.bind_eq_ok, Checks.pure_eq_ok, Prod.mk.injEq] at reads
          rcases reads with ⟨frame, _, _, rfl⟩
          exact shown frame
      | resize t width height =>
          cases reads
          exact noted
  | image image =>
      simp only [Checks.bind_eq_ok, Checks.pure_eq_ok, Prod.mk.injEq] at reads
      rcases reads with ⟨_, stored, _, rfl⟩
      exact noted.store stored
  | mark t label | metaEvent t about | finish ending | unknown =>
      cases reads
      exact noted

theorem Within.stepLines (within : replay.Within imageBudget decodedBudget)
    {lines : List (Except String (FileEvent M))} {said : Option (ReplayStep M)}
    (stepped : stepLines drawing lines replay = .ok (said, next)) :
    next.Within imageBudget decodedBudget := by
  have relined : ∀ {replay : Replay M} (lines : List (Except String (FileEvent M))),
      replay.Within imageBudget decodedBudget →
      ({ replay with lines } : Replay M).Within imageBudget decodedBudget :=
    fun _ within => ⟨⟨within.counted.order, within.counted.bytes, within.counted.small,
      within.counted.drawn, within.counted.used⟩, within.fits, within.imageBudget,
      within.decodedBudget⟩
  induction lines generalizing replay with
  | nil =>
      cases stepped
      exact relined [] within
  | cons line lines ih =>
      cases line with
      | error error => cases stepped
      | ok event =>
          rw [Replay.stepLines] at stepped
          cases read : replay.readEvent drawing event with
          | error error =>
              rw [read] at stepped
              cases stepped
          | ok result =>
              rcases result with ⟨said, after⟩
              rw [read] at stepped
              have after' := within.readEvent read
              cases said with
              | some said =>
                  cases stepped
                  exact relined lines after'
              | none => exact ih after' stepped

theorem decodeEach_within {ids attempted : List String}
    {decoded result : AList fun _ : String => DecodedImage}
    (drawn : ∀ id pixels, decoded.lookup id = some pixels → (replay.images.lookup id).isSome)
    (fits : used decoded ≤ replay.decodedBudget)
    (decodes : replay.decodeEach drawing ids attempted decoded (used decoded) = .ok result) :
    (∀ id pixels, result.lookup id = some pixels → (replay.images.lookup id).isSome) ∧
      used result ≤ replay.decodedBudget := by
  induction ids generalizing attempted decoded with
  | nil =>
      cases decodes
      exact ⟨drawn, fits⟩
  | cons id ids ih =>
      rw [decodeEach] at decodes
      split_ifs at decodes with known held
      · exact ih drawn fits decodes
      · exact ih drawn fits decodes
      · cases found : replay.images.lookup id with
        | none =>
            simp only [found] at decodes
            exact ih drawn fits decodes
        | some image =>
            simp only [found] at decodes
            split_ifs at decodes with large
            · exact ih drawn fits decodes
            · cases png : drawing.fromPng image.pngBase64 maxImageBytes with
              | error error =>
                  rw [png] at decodes
                  cases decodes
              | ok pixels =>
                  simp only [png] at decodes
                  split_ifs at decodes with past
                  · exact ih drawn fits decodes
                  · have missing : decoded.lookup id = none := by simpa using held
                    have grown : used (decoded.insert id pixels) =
                        used decoded + pixels.rgba.length := by
                      unfold used
                      exact AList.total_insert_grown (by rw [missing]; simp)
                    rw [← grown] at decodes past
                    refine ih ?_ (Nat.not_lt.mp past) decodes
                    intro other value there
                    rw [AList.lookup_insert_eq] at there
                    split_ifs at there with same
                    · rw [same, found]
                      rfl
                    · exact drawn other value there

theorem Within.captured (within : replay.Within imageBudget decodedBudget) {frame : SpanFrame}
    {picture : C} (captured : replay.captured drawing frame = .ok (picture, next)) :
    next.Within imageBudget decodedBudget := by
  unfold Replay.captured Replay.decode at captured
  simp only [Checks.bind_eq_ok, Checks.pure_eq_ok, Prod.mk.injEq] at captured
  rcases captured with ⟨_, ⟨decoded, decodes, rfl⟩, _, rfl⟩
  have wanted : ∀ id pixels, (replay.decoded.retain fun id image =>
      if id ∈ frame.imageIds then some image else none).lookup id = some pixels →
      (replay.images.lookup id).isSome := by
    intro id pixels found
    rw [AList.lookup_retain, Option.bind_eq_some_iff] at found
    rcases found with ⟨value, held, _⟩
    exact within.counted.drawn id value held
  have fewer : used (replay.decoded.retain fun id image =>
      if id ∈ frame.imageIds then some image else none) ≤ replay.decodedBudget := by
    refine le_trans (AList.total_retain_le ?_ replay.decoded) within.counted.used
    intro id value kept chosen
    split_ifs at chosen
    cases chosen
    exact le_rfl
  rcases decodeEach_within wanted fewer decodes with ⟨drawn, fits⟩
  exact ⟨⟨within.counted.order, within.counted.bytes, within.counted.small, drawn, fits⟩,
    within.fits, within.imageBudget, within.decodedBudget⟩

/-! The order of arrival. -/

theorem suffix_append {newest all : List String} (suffix : newest <:+ all) (more : List String) :
    newest ++ more <:+ all ++ more := by
  rcases suffix with ⟨front, rfl⟩
  exact ⟨front, (List.append_assoc _ _ _).symm⟩

theorem forget_suffix (order : List String) (replay : Replay M) :
    (forget order replay).imageOrder <:+ order := by
  induction order generalizing replay with
  | nil => exact List.suffix_refl _
  | cons oldest order ih =>
      rw [forget]
      split_ifs
      · exact List.suffix_refl _
      · split
        · exact (ih _).trans (List.suffix_cons _ _)
        · exact (ih _).trans (List.suffix_cons _ _)

/-- What is kept after an event are the newest of what was kept and what it brings. -/
theorem readEvent_suffix {event : FileEvent M} {said : Option (ReplayStep M)}
    (reads : replay.readEvent drawing event = .ok (said, next)) :
    next.imageOrder <:+ replay.imageOrder ++ replay.arrival event := by
  have noted : (replay.noteTime event).imageOrder = replay.imageOrder ∧
      (replay.noteTime event).images = replay.images := by
    unfold noteTime
    split
    · exact ⟨rfl, rfl⟩
    · exact ⟨rfl, rfl⟩
  unfold Replay.readEvent at reads
  cases event with
  | encoded event =>
      show _ <:+ replay.imageOrder ++ []
      rw [List.append_nil, ← noted.1]
      cases event with
      | keyframe t frame =>
          simp only [Checks.bind_eq_ok, Checks.pure_eq_ok, Prod.mk.injEq] at reads
          rcases reads with ⟨_, _, _, rfl⟩
          exact List.suffix_refl _
      | delta delta =>
          simp only [Checks.bind_eq_ok, Checks.pure_eq_ok, Prod.mk.injEq] at reads
          rcases reads with ⟨frame, _, _, rfl⟩
          exact List.suffix_refl _
      | resize t width height =>
          cases reads
          exact List.suffix_refl _
  | image image =>
      simp only [Checks.bind_eq_ok, Checks.pure_eq_ok, Prod.mk.injEq] at reads
      rcases reads with ⟨_, stored, _, rfl⟩
      unfold Replay.store at stored
      rw [noted.1, noted.2] at stored
      rw [arrival]
      split_ifs at stored ⊢
      · cases stored
        simp only [List.append_nil, noted.1, List.suffix_refl]
      · cases stored
        exact forget_suffix _ _
  | mark t label | metaEvent t about | finish ending | unknown =>
      cases reads
      show _ <:+ replay.imageOrder ++ []
      simp only [List.append_nil, noted.1, List.suffix_refl]

theorem stepLines_suffix {lines : List (Except String (FileEvent M))}
    {said : Option (ReplayStep M)} (stepped : stepLines drawing lines replay = .ok (said, next)) :
    next.imageOrder <:+ replay.imageOrder ++ arrivals drawing lines replay := by
  induction lines generalizing replay with
  | nil =>
      cases stepped
      show _ <:+ replay.imageOrder ++ []
      simp only [List.append_nil, List.suffix_refl]
  | cons line lines ih =>
      cases line with
      | error error => cases stepped
      | ok event =>
          rw [Replay.stepLines] at stepped
          rw [arrivals]
          cases read : replay.readEvent drawing event with
          | error error =>
              rw [read] at stepped
              cases stepped
          | ok result =>
              rcases result with ⟨said, after⟩
              rw [read] at stepped
              have first := readEvent_suffix read
              cases said with
              | some said =>
                  cases stepped
                  rw [List.append_nil]
                  exact first
              | none =>
                  rw [← List.append_assoc]
                  exact (ih stepped).trans (suffix_append first _)

structure History.Kept (imageBudget decodedBudget : Nat) (history : History M) : Prop where
  within : history.replay.Within imageBudget decodedBudget
  newest : history.replay.imageOrder <:+ history.arrived

theorem captured_order {frame : SpanFrame} {picture : C}
    (captured : replay.captured drawing frame = .ok (picture, next)) :
    next.imageOrder = replay.imageOrder := by
  unfold Replay.captured Replay.decode at captured
  simp only [Checks.bind_eq_ok, Checks.pure_eq_ok, Prod.mk.injEq] at captured
  rcases captured with ⟨_, ⟨decoded, _, rfl⟩, _, rfl⟩
  rfl

/-- However a file is read and drawn, the images that are kept are the newest that arrived, in that
order, they are counted rightly and fit, and so do the pixels of those that are decoded. -/
theorem replay_within_budgets {history : History M}
    (reached : (uses drawing imageBudget decodedBudget).Reachable history) :
    history.replay.imageOrder <:+ history.arrived ∧
      history.replay.imageOrder.Perm history.replay.images.keys ∧
      history.replay.imageBytes = history.replay.images.total retainedCost ∧
      history.replay.images.total retainedCost ≤ imageBudget ∧
      (∀ id image, history.replay.images.lookup id = some image →
        id.utf8ByteSize ≤ maxImageIdLen ∧ image.declared ≤ maxImageBytes) ∧
      (∀ id pixels, history.replay.decoded.lookup id = some pixels →
        (history.replay.images.lookup id).isSome) ∧
      used history.replay.decoded ≤ decodedBudget := by
  have kept : history.Kept imageBudget decodedBudget := by
    refine reached.invariant ?_ ?_
    · rintro history ⟨fresh, none'⟩
      refine ⟨within_fresh fresh, ?_⟩
      simp only [fresh.imageOrder, none', List.suffix_refl]
    · intro history use next before moved
      rcases before with ⟨within, newest⟩
      cases use with
      | step =>
          rcases moved with ⟨⟨said, stepped⟩, arrived⟩
          refine ⟨within.stepLines stepped, ?_⟩
          rw [arrived]
          exact (stepLines_suffix stepped).trans (suffix_append newest _)
      | draw frame =>
          rcases moved with ⟨⟨picture, captured⟩, arrived⟩
          refine ⟨within.captured captured, ?_⟩
          rw [arrived, captured_order captured]
          exact newest
  rcases kept with ⟨within, newest⟩
  have counted := within.counted
  refine ⟨newest, counted.order, counted.bytes, ?_, counted.small, counted.drawn, ?_⟩
  · rw [← counted.bytes, ← within.imageBudget]
    exact within.fits
  · rw [← within.decodedBudget]
    exact counted.used

def blankDrawing : Drawing Unit where
  segmentation := ⟨fun text => text.map ([·]), List.length⟩
  fromPng := fun _ _ => .error "nothing to decode with"
  capturedFrame := fun _ _ => ()

def crowded : Replay Unit where
  lines := [.ok (.image ⟨0, "a", 1, 1, "iVBO"⟩), .ok (.image ⟨0, "b", 1, 1, "iVBO"⟩),
    .ok (.image ⟨0, "a", 1, 1, "iVBO"⟩), .ok (.image ⟨0, "c", 1, 1, "iVBO"⟩)]
  imageBudget := 600

def crowdedRead : Replay Unit :=
  match crowded.step blankDrawing with
  | .ok (_, next) => next
  | .error _ => crowded

theorem replay_within_budgets_crowded :
    crowdedRead.imageOrder = ["b", "c"] ∧ crowdedRead.imageOrder <:+ ["a", "b", "c"] ∧
      crowdedRead.images.total retainedCost ≤ 600 := by
  have fresh : crowded.Fresh 600 maxDecodedFrameBytes := ⟨rfl, rfl, rfl, rfl, rfl, rfl⟩
  have begun : (uses blankDrawing 600 maxDecodedFrameBytes).Reachable ⟨crowded, []⟩ :=
    .begin ⟨fresh, rfl⟩
  have read : (uses blankDrawing 600 maxDecodedFrameBytes).Reachable
      ⟨crowdedRead, ["a", "b", "c"]⟩ :=
    begun.next .step ⟨⟨none, by rfl⟩, by decide +kernel⟩
  have kept := replay_within_budgets read
  exact ⟨by decide +kernel, kept.1, kept.2.2.2.1⟩

end Replay

end Rozi.Recording
