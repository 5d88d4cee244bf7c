import Rozi.Recording.Read
import Mathlib.Algebra.GroupWithZero.Nat

/-!
What a recording shows when it is read from its beginning: its frames and marks, each at its time,
and its length. A recording that can be read draws every frame the same way, whenever it is drawn.
-/

namespace Rozi.Recording

inductive Moment (C : Type) where
  | shown (t : Nat) (picture : C)
  | marked (t : Nat) (label : String)

namespace Replay

variable {M C : Type} (drawing : Drawing C) (replay : Replay M)

def pixels (id : String) : Option DecodedImage :=
  (replay.images.lookup id).bind fun image =>
    (drawing.fromPng image.pngBase64 maxImageBytes).toOption

def picture (frame : SpanFrame) : C :=
  drawing.capturedFrame frame fun id =>
    if id ∈ frame.imageIds then replay.pixels drawing id else none

def weight (id : String) : Nat :=
  match replay.images.lookup id with
  | some image => max image.declared
      ((replay.pixels drawing id).elim 0 fun pixels => pixels.rgba.length)
  | none => 0

structure Drawable (frame : SpanFrame) : Prop where
  decodes : ∀ id ∈ frame.imageIds, ∀ image, replay.images.lookup id = some image →
    ∃ pixels, drawing.fromPng image.pngBase64 maxImageBytes = .ok pixels
  fits : (frame.imageIds.dedup.map (replay.weight drawing)).sum ≤ replay.decodedBudget

/-- One event of a recording that can be read, with what it says and the replay after it. Time does
not go back, an image that is stored has room, and a frame names images that are stored before it,
if at all. -/
structure LegibleEvent (event : FileEvent M) (events : List (FileEvent M))
    (step : Option (ReplayStep M)) (next : Replay M) : Prop where
  reads : replay.readEvent drawing event = .ok (step, next)
  timely : ∀ t, event.time = some t → replay.lastT ≤ t
  room : ∀ image, event = .image image → replay.images.lookup image.id = none →
    replay.imageBytes + retainedCost image ≤ replay.imageBudget
  drawable : ∀ t frame, step = some (.frame t) → next.frame = some frame →
    next.Drawable drawing frame
  named : ∀ t frame image, step = some (.frame t) → next.frame = some frame →
    .image image ∈ events → image.id ∈ frame.imageIds → (next.images.lookup image.id).isSome

def Legible : List (FileEvent M) → Replay M → Prop
  | [], _ => True
  | event :: events, replay => ∃ step next,
      replay.LegibleEvent drawing event events step next ∧ Legible events next

def watch : List (FileEvent M) → Replay M → List (Moment C) × Nat
  | [], replay => ([], replay.lastT)
  | event :: events, replay =>
      match replay.readEvent drawing event with
      | .error _ => ([], replay.lastT)
      | .ok (step, next) =>
          match step, next.frame with
          | some (.finish ending), _ => ([], ending.t)
          | some (.frame t), some frame =>
              let (moments, stop) := watch events next
              (.shown t (next.picture drawing frame) :: moments, stop)
          | some (.mark t label), _ =>
              let (moments, stop) := watch events next
              (.marked t label :: moments, stop)
          | _, _ => watch events next

/-! Drawing. -/

variable {drawing replay}

def Genuine (replay : Replay M) (drawing : Drawing C)
    (decoded : AList fun _ : String => DecodedImage) : Prop :=
  ∀ id pixels, decoded.lookup id = some pixels → replay.pixels drawing id = some pixels

theorem fromPng_of_pixels {id : String} {image : RecordedImage} {pixels : DecodedImage}
    (found : replay.images.lookup id = some image)
    (decodes : drawing.fromPng image.pngBase64 maxImageBytes = .ok pixels) :
    replay.pixels drawing id = some pixels := by
  unfold Replay.pixels
  rw [found, Option.bind_some, decodes]
  rfl

structure Attempted (replay : Replay M) (drawing : Drawing C) (all attempted : List String)
    (decoded : AList fun _ : String => DecodedImage) : Prop where
  genuine : replay.Genuine drawing decoded
  among : ∀ id pixels, decoded.lookup id = some pixels → id ∈ all
  done : ∀ id ∈ attempted, decoded.lookup id = replay.pixels drawing id

theorem Attempted.cons {all attempted : List String} {id : String}
    {decoded : AList fun _ : String => DecodedImage}
    (tried : replay.Attempted drawing all attempted decoded)
    (done : decoded.lookup id = replay.pixels drawing id) :
    replay.Attempted drawing all (id :: attempted) decoded := by
  refine ⟨tried.genuine, tried.among, ?_⟩
  intro other member
  rcases List.mem_cons.mp member with same | before
  · rw [same]
    exact done
  · exact tried.done other before

theorem Attempted.room {frame : SpanFrame} {attempted : List String} {id : String}
    {decoded : AList fun _ : String => DecodedImage}
    (tried : replay.Attempted drawing frame.imageIds attempted decoded)
    (drawable : replay.Drawable drawing frame) (member : id ∈ frame.imageIds)
    (missing : decoded.lookup id = none) :
    used decoded + replay.weight drawing id ≤ replay.decodedBudget := by
  refine le_trans (AList.total_add_le_sum (fun other pixels found => ?_) missing member)
    drawable.fits
  have genuine := tried.genuine other pixels found
  refine ⟨tried.among other pixels found, ?_⟩
  unfold weight
  cases kept : replay.images.lookup other with
  | none =>
      unfold Replay.pixels at genuine
      rw [kept] at genuine
      cases genuine
  | some image =>
      rw [genuine]
      exact le_max_right _ _

theorem decodeEach_ok {frame : SpanFrame} (drawable : replay.Drawable drawing frame)
    {ids attempted : List String} {decoded : AList fun _ : String => DecodedImage}
    (within : ∀ id ∈ ids, id ∈ frame.imageIds)
    (tried : replay.Attempted drawing frame.imageIds attempted decoded) :
    ∃ result, replay.decodeEach drawing ids attempted decoded (used decoded) = .ok result ∧
      replay.Attempted drawing frame.imageIds (ids.reverse ++ attempted) result := by
  induction ids generalizing attempted decoded with
  | nil => exact ⟨decoded, rfl, tried⟩
  | cons id ids ih =>
      have later : ∀ other ∈ ids, other ∈ frame.imageIds := fun other member =>
        within other (List.mem_cons_of_mem _ member)
      have here := within id List.mem_cons_self
      rw [decodeEach, List.reverse_cons, List.append_assoc, List.singleton_append]
      have skipped : decoded.lookup id = replay.pixels drawing id →
          ∃ result, replay.decodeEach drawing ids (id :: attempted) decoded (used decoded) =
            .ok result ∧
            replay.Attempted drawing frame.imageIds (ids.reverse ++ id :: attempted) result :=
        fun done => ih later (tried.cons done)
      by_cases known : id ∈ attempted
      · rw [if_pos known]
        rcases ih later tried with ⟨result, decodes, done⟩
        refine ⟨result, decodes, done.genuine, done.among, ?_⟩
        intro other member
        refine done.done other ?_
        rcases List.mem_append.mp member with new | old
        · exact List.mem_append_left _ new
        · rcases List.mem_cons.mp old with same | old
          · exact List.mem_append_right _ (same ▸ known)
          · exact List.mem_append_right _ old
      · rw [if_neg known]
        cases held : decoded.lookup id with
        | some pixels =>
            rw [Option.isSome_some, if_pos rfl]
            exact skipped (held.trans (tried.genuine id pixels held).symm)
        | none =>
            rw [if_neg (by simp)]
            cases found : replay.images.lookup id with
            | none =>
                refine skipped ?_
                unfold Replay.pixels
                rw [held, found]
                rfl
            | some image =>
                rcases drawable.decodes id here image found with ⟨pixels, decodes⟩
                have genuine := fromPng_of_pixels found decodes
                have room := tried.room drawable here held
                unfold weight at room
                rw [found, genuine] at room
                simp only [Option.elim_some] at room
                have declared : ¬ replay.decodedBudget < used decoded + image.declared := by omega
                have actual : ¬ replay.decodedBudget < used decoded + pixels.rgba.length := by
                  omega
                have total : used (decoded.insert id pixels) =
                    used decoded + pixels.rgba.length := by
                  unfold used
                  exact AList.total_insert_grown (by rw [held]; simp)
                simp only [if_neg declared, decodes, if_neg actual]
                rw [← total]
                refine ih later ⟨?_, ?_, ?_⟩
                · intro other value found
                  rw [AList.lookup_insert_eq] at found
                  split_ifs at found with same
                  · rw [same, ← Option.some.inj found]
                    exact genuine
                  · exact tried.genuine other value found
                · intro other value found
                  rw [AList.lookup_insert_eq] at found
                  split_ifs at found with same
                  · rw [same]
                    exact here
                  · exact tried.among other value found
                · intro other member
                  rw [AList.lookup_insert_eq]
                  rcases List.mem_cons.mp member with same | before
                  · rw [if_pos same, same, genuine]
                  · have other_id : other ≠ id := by
                      rintro rfl
                      exact known before
                    rw [if_neg other_id]
                    exact tried.done other before

theorem captured_ok {frame : SpanFrame} (drawable : replay.Drawable drawing frame)
    (genuine : replay.Genuine drawing replay.decoded) :
    ∃ decoded, replay.captured drawing frame =
        .ok (replay.picture drawing frame, { replay with decoded }) ∧
      replay.Genuine drawing decoded := by
  have kept : ∀ id pixels, (replay.decoded.retain fun id image =>
      if id ∈ frame.imageIds then some image else none).lookup id = some pixels →
      id ∈ frame.imageIds ∧ replay.decoded.lookup id = some pixels := by
    intro id pixels found
    rw [AList.lookup_retain, Option.bind_eq_some_iff] at found
    rcases found with ⟨value, held, wanted⟩
    split_ifs at wanted with member
    exact ⟨member, held.trans wanted⟩
  have start : replay.Attempted drawing frame.imageIds [] (replay.decoded.retain fun id image =>
      if id ∈ frame.imageIds then some image else none) := by
    refine ⟨?_, ?_, ?_⟩
    · intro id pixels found
      exact genuine id pixels (kept id pixels found).2
    · intro id pixels found
      exact (kept id pixels found).1
    · intro id member
      cases member
  rcases decodeEach_ok drawable (fun id member => member) start with ⟨result, decodes, done⟩
  refine ⟨result, ?_, done.genuine⟩
  have drawn : (fun id => result.lookup id) = fun id =>
      if id ∈ frame.imageIds then replay.pixels drawing id else none := by
    funext id
    split_ifs with member
    · exact done.done id (List.mem_append_left _ (List.mem_reverse.mpr member))
    · cases found : result.lookup id with
      | none => rfl
      | some pixels => exact absurd (done.among id pixels found) member
  unfold captured decode picture
  simp only [decodes, bind, Except.bind, pure, Except.pure]
  rw [drawn]

/-! Reading on. Nothing that is drawn meanwhile matters to it. -/

variable {event : FileEvent M} {events : List (FileEvent M)} {step : Option (ReplayStep M)}
variable {next : Replay M}

theorem forget_fits {oldest : String} {order : List String}
    (fits : replay.imageBytes ≤ replay.imageBudget) :
    forget (oldest :: order) replay = { replay with imageOrder := oldest :: order } := by
  rw [forget, if_pos fits]

def keepImage (replay : Replay M) (image : RecordedImage) : Replay M :=
  if (replay.images.lookup image.id).isSome then replay
  else { replay with
    images := replay.images.insert image.id image
    imageOrder := replay.imageOrder ++ [image.id]
    imageBytes := replay.imageBytes + retainedCost image }

theorem store_eq_ok {image : RecordedImage}
    (room : replay.images.lookup image.id = none →
      replay.imageBytes + retainedCost image ≤ replay.imageBudget) :
    replay.store image = .ok next ↔ image.id.utf8ByteSize ≤ maxImageIdLen ∧
      image.declared ≤ maxImageBytes ∧ next = replay.keepImage image := by
  unfold store keepImage
  by_cases long : maxImageIdLen < image.id.utf8ByteSize
  · rw [if_pos long]
    simp [long]
  · by_cases large : maxImageBytes < image.declared
    · rw [if_neg long, if_pos large]
      simp [large]
    · rw [if_neg long, if_neg large]
      have fits := And.intro (Nat.not_lt.mp long) (Nat.not_lt.mp large)
      cases known : replay.images.lookup image.id with
      | some kept => simp [fits, eq_comm]
      | none =>
          have forgotten : forget (replay.imageOrder ++ [image.id]) { replay with
              images := replay.images.insert image.id image
              imageBytes := replay.imageBytes + retainedCost image } = { replay with
              images := replay.images.insert image.id image
              imageOrder := replay.imageOrder ++ [image.id]
              imageBytes := replay.imageBytes + retainedCost image } := by
            cases replay.imageOrder with
            | nil => exact forget_fits (room known)
            | cons oldest rest => exact forget_fits (room known)
          rw [forgotten]
          simp [fits, eq_comm]

theorem noteTime_eq : replay.noteTime event =
    { replay with lastT := event.time.elim replay.lastT (max replay.lastT) } := by
  unfold noteTime
  cases event.time <;> rfl

theorem readEvent_alike
    (room : ∀ image, event = .image image → replay.images.lookup image.id = none →
      replay.imageBytes + retainedCost image ≤ replay.imageBudget)
    (reads : replay.readEvent drawing event = .ok (step, next))
    (lines : List (Except String (FileEvent M))) (decoded : AList fun _ : String => DecodedImage) :
    ({ replay with lines, decoded } : Replay M).readEvent drawing event =
      .ok (step, { next with lines, decoded }) := by
  unfold readEvent at reads ⊢
  rw [noteTime_eq] at reads ⊢
  cases event with
  | encoded event =>
      cases event with
      | keyframe t frame =>
          simp only [Checks.bind_eq_ok, Checks.pure_eq_ok, Prod.mk.injEq] at reads ⊢
          rcases reads with ⟨checked, passed, rfl, rfl⟩
          exact ⟨checked, passed, rfl, rfl⟩
      | delta delta =>
          simp only [Checks.bind_eq_ok, Checks.pure_eq_ok, Prod.mk.injEq] at reads ⊢
          rcases reads with ⟨frame, patched, rfl, rfl⟩
          exact ⟨frame, patched, rfl, rfl⟩
      | resize t width height =>
          rw [Except.ok.injEq, Prod.mk.injEq] at reads
          rcases reads with ⟨rfl, rfl⟩
          rfl
  | image image =>
      simp only [Checks.bind_eq_ok, Checks.pure_eq_ok, Prod.mk.injEq] at reads ⊢
      rcases reads with ⟨kept, stored, rfl, rfl⟩
      rw [store_eq_ok (by exact room image rfl)] at stored
      rcases stored with ⟨short, small, rfl⟩
      refine ⟨_, (store_eq_ok (by exact room image rfl)).mpr ⟨short, small, rfl⟩, rfl, ?_⟩
      unfold keepImage
      simp only
      split_ifs <;> rfl
  | mark t label =>
      rw [Except.ok.injEq, Prod.mk.injEq] at reads
      rcases reads with ⟨rfl, rfl⟩
      rfl
  | metaEvent t about =>
      rw [Except.ok.injEq, Prod.mk.injEq] at reads
      rcases reads with ⟨rfl, rfl⟩
      rfl
  | finish ending =>
      rw [Except.ok.injEq, Prod.mk.injEq] at reads
      rcases reads with ⟨rfl, rfl⟩
      rfl
  | unknown =>
      rw [Except.ok.injEq, Prod.mk.injEq] at reads
      rcases reads with ⟨rfl, rfl⟩
      rfl

theorem keepImage_lookup {image : RecordedImage} {id : String}
    (known : image.id = id → (replay.images.lookup id).isSome) :
    (replay.keepImage image).images.lookup id = replay.images.lookup id := by
  unfold keepImage
  split_ifs with kept
  · rfl
  · refine AList.lookup_insert_ne fun same => kept ?_
    rw [← same]
    exact known same.symm

theorem readEvent_images
    (room : ∀ image, event = .image image → replay.images.lookup image.id = none →
      replay.imageBytes + retainedCost image ≤ replay.imageBudget)
    (reads : replay.readEvent drawing event = .ok (step, next)) :
    (next.images = replay.images ∨
      ∃ image, event = .image image ∧ next.images = (replay.keepImage image).images) ∧
      next.decodedBudget = replay.decodedBudget := by
  unfold readEvent at reads
  rw [noteTime_eq] at reads
  cases event with
  | encoded event =>
      cases event with
      | keyframe t frame =>
          simp only [Checks.bind_eq_ok, Checks.pure_eq_ok, Prod.mk.injEq] at reads
          rcases reads with ⟨_, _, _, rfl⟩
          exact ⟨.inl rfl, rfl⟩
      | delta delta =>
          simp only [Checks.bind_eq_ok, Checks.pure_eq_ok, Prod.mk.injEq] at reads
          rcases reads with ⟨_, _, _, rfl⟩
          exact ⟨.inl rfl, rfl⟩
      | resize t width height =>
          cases reads
          exact ⟨.inl rfl, rfl⟩
  | image image =>
      simp only [Checks.bind_eq_ok, Checks.pure_eq_ok, Prod.mk.injEq] at reads
      rcases reads with ⟨kept, stored, _, rfl⟩
      rw [store_eq_ok (by exact room image rfl)] at stored
      rw [stored.2.2]
      refine ⟨.inr ⟨image, rfl, ?_⟩, ?_⟩
      · unfold keepImage
        split_ifs <;> rfl
      · unfold keepImage
        split_ifs <;> rfl
  | mark t label | metaEvent t about | finish ending | unknown =>
      cases reads
      exact ⟨.inl rfl, rfl⟩

/-- Reading an event changes the image of no id, other than one that had none. -/
theorem LegibleEvent.lookup {id : String}
    (legible : replay.LegibleEvent drawing event events step next)
    (known : ∀ image, event = .image image → image.id = id →
      (replay.images.lookup id).isSome) :
    next.images.lookup id = replay.images.lookup id := by
  rcases (readEvent_images legible.room legible.reads).1 with same | ⟨image, rfl, kept⟩
  · rw [same]
  · rw [kept]
    exact keepImage_lookup (known image rfl)

theorem LegibleEvent.budget (legible : replay.LegibleEvent drawing event events step next) :
    next.decodedBudget = replay.decodedBudget :=
  (readEvent_images legible.room legible.reads).2

theorem pixels_congr {id : String} (same : next.images.lookup id = replay.images.lookup id) :
    next.pixels drawing id = replay.pixels drawing id := by
  unfold Replay.pixels
  rw [same]

theorem weight_congr {id : String} (same : next.images.lookup id = replay.images.lookup id) :
    next.weight drawing id = replay.weight drawing id := by
  unfold weight
  rw [same, pixels_congr same]

/-- What was decoded stays genuine: an image that is kept is not replaced. -/
theorem LegibleEvent.genuine {decoded : AList fun _ : String => DecodedImage}
    (legible : replay.LegibleEvent drawing event events step next)
    (genuine : replay.Genuine drawing decoded) : next.Genuine drawing decoded := by
  intro id pixels found
  have before := genuine id pixels found
  have known : (replay.images.lookup id).isSome := by
    unfold Replay.pixels at before
    rw [Option.bind_eq_some_iff] at before
    rcases before with ⟨image, kept, _⟩
    rw [kept]
    rfl
  have same := legible.lookup fun image _ (_ : image.id = id) => known
  rw [pixels_congr same]
  exact before

/-- A frame can be drawn as before, when no image it names comes only later. -/
theorem LegibleEvent.still_drawable {frame : SpanFrame}
    (legible : replay.LegibleEvent drawing event events step next)
    (drawable : replay.Drawable drawing frame)
    (named : ∀ image, event = .image image → image.id ∈ frame.imageIds →
      (replay.images.lookup image.id).isSome) :
    next.Drawable drawing frame ∧ next.picture drawing frame = replay.picture drawing frame := by
  have same : ∀ id ∈ frame.imageIds, next.images.lookup id = replay.images.lookup id := by
    intro id member
    refine legible.lookup ?_
    rintro image rfl rfl
    exact named image rfl member
  refine ⟨⟨?_, ?_⟩, ?_⟩
  · intro id member image found
    exact drawable.decodes id member image ((same id member).symm.trans found)
  · have weights : frame.imageIds.dedup.map (next.weight drawing) =
        frame.imageIds.dedup.map (replay.weight drawing) :=
      List.map_congr_left fun id member => weight_congr (same id (List.mem_dedup.mp member))
    rw [weights, legible.budget]
    exact drawable.fits
  · unfold picture
    congr 1
    funext id
    split_ifs with member
    · exact pixels_congr (same id member)
    · rfl

end Replay

end Rozi.Recording
