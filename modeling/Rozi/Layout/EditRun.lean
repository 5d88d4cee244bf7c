import Rozi.Layout.Canvas
import Rozi.Layout.Settled
import Rozi.Library.Transition

/-!
Runs of edits on one document. An edit that is refused is one made to a copy, so it leaves the
document as it was.
-/

namespace Rozi

open SerializedTree

structure FloatRect.Sound (rect : FloatRect) : Prop where
  x : rect.x.isFinite = true
  y : rect.y.isFinite = true
  w : rect.w.Positive
  h : rect.h.Positive

structure FracRect.Sound (rect : FracRect) : Prop where
  x : rect.x.isFinite = true
  y : rect.y.isFinite = true
  w : rect.w.Positive
  h : rect.h.Positive

namespace SharedLayout

def retainPanes (layout : SharedLayout) (known : List PaneId) : SharedLayout :=
  { layout with
    workspaces := layout.workspaces.map fun workspace =>
      let retained := { workspace with
        panes := workspace.panes.filter fun pane => known.contains pane.paneId }
      if workspace.panes.length ≠ retained.panes.length then retained.settleTree else retained }

end SharedLayout

inductive DocumentEdit where
  | editPane (id : PaneId) (edit : PaneEdit) (floatRect : Option FracRect)
  | movePane (id : PaneId) (target : Nat)
  | swapPanes (id other : PaneId)
  | removePane (id : PaneId)
  | setPinned (id : PaneId) (pinned : Bool)
  | setFloatPlacement (id : PaneId) (rect : Option FloatRect)
  | setLayoutKind (index : Nat) (kind : LayoutKind)
  | setMasterRatio (index : Nat) (ratio : F32)
  | retainPanes (known : List PaneId)

namespace DocumentEdit

/-- The arguments an edit of `layout` may be given. A side so short that the division by the canvas
rounds it to zero is left out. -/
def Permitted (arith : Arithmetic) (layout : SharedLayout) : DocumentEdit → Prop
  | movePane _ target => target < workspaceCount
  | setFloatPlacement _ rect => ∀ wanted ∈ rect,
      (floatRectToFrac arith wanted layout.canvasCols layout.canvasRows).Sound
  | setLayoutKind index _ => index < workspaceCount
  | setMasterRatio index ratio => index < workspaceCount ∧ ratio.Proper
  | _ => True

/-- Whether the document still places a pane it placed before the edit. -/
def keeps : DocumentEdit → PaneId → Bool
  | removePane id => (· != id)
  | retainPanes known => (known.contains ·)
  | _ => fun _ => true

end DocumentEdit

namespace SharedLayout

def applyEdit (arith : Arithmetic) (layout : SharedLayout) :
    DocumentEdit → Except SharedEditError SharedLayout
  | .editPane id edit floatRect => (layout.editPane id edit floatRect).map Prod.fst
  | .movePane id target => (layout.movePane id target).map Prod.fst
  | .swapPanes id other => (layout.swapPanes id other).map Prod.fst
  | .removePane id => .ok ((layout.removePane id).elim layout Prod.fst)
  | .setPinned id pinned => .ok (layout.setPinned id pinned).1
  | .setFloatPlacement id rect =>
      .ok (layout.setFloatPlacement id (rect.map fun rect =>
        floatRectToFrac arith rect layout.canvasCols layout.canvasRows))
  | .setLayoutKind index kind => .ok (layout.setLayoutKind index kind).1
  | .setMasterRatio index ratio => .ok (layout.setMasterRatio index ratio).1
  | .retainPanes known => .ok (layout.retainPanes known)

def edited (arith : Arithmetic) (layout : SharedLayout) (edit : DocumentEdit) : SharedLayout :=
  match layout.applyEdit arith edit with
  | .ok next => next
  | .error _ => layout

def OneFullscreen (layout : SharedLayout) : Prop :=
  ∀ workspace ∈ layout.workspaces, workspace.fullscreens ≤ 1

def edits (arith : Arithmetic) : Transition SharedLayout DocumentEdit where
  initial := fun layout => layout.validate = .ok () ∧ layout.OneFullscreen
  step := fun layout edit next => edit.Permitted arith layout ∧ next = layout.edited arith edit

/-- Every workspace is settled, or held the same tiled panes before and has lost none. -/
def Settles (layout next : SharedLayout) : Prop :=
  ∀ after ∈ next.workspaces, after.Settled ∨ ∃ before ∈ layout.workspaces,
    before.index = after.index ∧ before.Kept after

variable {layout next : SharedLayout}

theorem paneIds_unique (valid : layout.Valid) {workspace : SharedWorkspace}
    (member : workspace ∈ layout.workspaces) : workspace.paneIds.Nodup := by
  have ids := valid.ids
  rw [paneIds_eq_flatMap] at ids
  exact (List.nodup_flatMap.mp ids).1 workspace member

section inPlace

variable {before after : List SharedWorkspace}

theorem edited_panes (all : List.Forall₂ SharedWorkspace.Edited before after) :
    (after.flatMap SharedWorkspace.paneIds).Sublist (before.flatMap SharedWorkspace.paneIds) := by
  induction all with
  | nil => exact List.Sublist.refl _
  | cons here _ ih => exact here.panes.append ih

theorem edited_indexes (all : List.Forall₂ SharedWorkspace.Edited before after) :
    after.map SharedWorkspace.index = before.map SharedWorkspace.index := by
  induction all with
  | nil => rfl
  | cons here _ ih => rw [List.map_cons, List.map_cons, here.index, ih]

theorem edited_mem (all : List.Forall₂ SharedWorkspace.Edited before after)
    {workspace : SharedWorkspace} (member : workspace ∈ after) :
    ∃ old ∈ before, old.Edited workspace := by
  induction all with
  | nil => cases member
  | @cons first changed _ _ here _ ih =>
      rcases List.mem_cons.mp member with rfl | rest
      · exact ⟨first, List.mem_cons_self, here⟩
      · rcases ih rest with ⟨old, held, edited⟩
        exact ⟨old, List.mem_cons_of_mem _ held, edited⟩

variable {workspaces : List SharedWorkspace}

theorem Valid.edited (valid : layout.Valid)
    (all : List.Forall₂ SharedWorkspace.Edited layout.workspaces workspaces) :
    Valid { layout with workspaces } where
  version := valid.version
  canvas := valid.canvas
  geometry := valid.geometry
  workspaces := fun after member => by
    rcases edited_mem all member with ⟨before, _, edited⟩
    exact edited.valid
  indexes := by
    have indexes := valid.indexes
    rw [← edited_indexes all] at indexes
    exact indexes
  ids := by
    have ids := valid.ids
    rw [paneIds_eq_flatMap] at ids ⊢
    exact ids.sublist (edited_panes all)

theorem OneFullscreen.edited (one : layout.OneFullscreen)
    (all : List.Forall₂ SharedWorkspace.Edited layout.workspaces workspaces) :
    OneFullscreen { layout with workspaces } := by
  intro after member
  rcases edited_mem all member with ⟨before, held, edited⟩
  exact edited.fullscreen (one before held)

theorem Settles.edited (all : List.Forall₂ SharedWorkspace.Edited layout.workspaces workspaces) :
    Settles layout { layout with workspaces } := by
  intro after member
  rcases edited_mem all member with ⟨before, held, edited⟩
  exact edited.settled.imp_right fun kept => ⟨before, held, edited.index.symm, kept⟩

theorem updateWorkspace_edited (valid : layout.Valid) {position : Nat}
    {change : SharedWorkspace → SharedWorkspace}
    (here : ∀ workspace, layout.workspaces[position]? = some workspace →
      workspace.Edited (change workspace)) :
    List.Forall₂ SharedWorkspace.Edited layout.workspaces
      (layout.updateWorkspace position change).workspaces := by
  have refl : ∀ workspace ∈ layout.workspaces, workspace.Edited workspace :=
    fun workspace member => .refl (valid.workspaces workspace member)
  cases present : layout.workspaces[position]? with
  | none =>
      rw [updateWorkspace, List.modify_eq_self (List.getElem?_eq_none_iff.mp present)]
      exact List.forall₂_same.mpr refl
  | some workspace =>
      exact (updateWorkspace_exchanged change present).forall₂ refl (here workspace present)

end inPlace

/-- What an edit leaves of a document: it is valid, with one fullscreen pane a workspace at most, and
its changed workspaces are settled. -/
structure Sound (layout next : SharedLayout) : Prop where
  valid : next.Valid
  one : next.OneFullscreen
  settles : Settles layout next

theorem Sound.of_edited (valid : layout.Valid) (one : layout.OneFullscreen)
    {workspaces : List SharedWorkspace}
    (all : List.Forall₂ SharedWorkspace.Edited layout.workspaces workspaces) :
    Sound layout { layout with workspaces } :=
  ⟨valid.edited all, one.edited all, Settles.edited all⟩

theorem Sound.refl (valid : layout.Valid) (one : layout.OneFullscreen) : Sound layout layout :=
  ⟨valid, one, fun after member => .inr ⟨after, member, rfl, .refl after⟩⟩

section each

theorem setPinned_edited (valid : layout.Valid) (id : PaneId) (pinned : Bool) :
    List.Forall₂ SharedWorkspace.Edited layout.workspaces
      (layout.setPinned id pinned).1.workspaces := by
  unfold setPinned
  split
  · exact List.forall₂_same.mpr fun workspace member => .refl (valid.workspaces workspace member)
  · apply updateWorkspace_edited valid
    intro workspace present
    have own := valid.workspaces workspace (List.mem_of_getElem? present)
    apply SharedWorkspace.Edited.updatePane id own
    · exact fun _ => rfl
    · exact fun _ => rfl
    · intro pane sound
      refine ⟨sound.unreserved, sound.generation, sound.width, sound.rect, ?_⟩
      intro pin
      simp only [Bool.and_eq_true] at pin
      exact ⟨pin.2, by simp [pin]⟩
    · intro pane shown
      simp only [Bool.and_eq_true] at shown
      exact shown.1

theorem setPinned_layout (layout : SharedLayout) (id : PaneId) (pinned : Bool) :
    (layout.setPinned id pinned).1 =
      { layout with workspaces := (layout.setPinned id pinned).1.workspaces } := by
  unfold setPinned
  split <;> rfl

theorem setPinned_sound (valid : layout.Valid) (one : layout.OneFullscreen) (id : PaneId)
    (pinned : Bool) : Sound layout (layout.setPinned id pinned).1 := by
  rw [setPinned_layout]
  exact .of_edited valid one (setPinned_edited valid id pinned)

theorem floatPane_valid {rect : Option FracRect} {pane : SharedPane} (valid : pane.Valid)
    (sound : ∀ wanted ∈ rect, wanted.Sound) : (floatPane rect pane).Valid := by
  refine ⟨valid.unreserved, valid.generation, valid.width, ?_, ?_⟩
  · unfold SharedPane.RectSound floatPane
    cases rect with
    | none => simp
    | some wanted =>
        rcases sound wanted rfl with ⟨x, y, w, h⟩
        simp only [Option.isSome_some, if_true]
        exact ⟨wanted, rfl, x, y, w, h⟩
  · intro pin
    simp only [floatPane, Bool.and_eq_true] at pin ⊢
    exact ⟨pin.2, (valid.pin pin.1).2⟩

def placedFor (id : PaneId) (rect : Option FracRect) (workspace : SharedWorkspace) :
    SharedWorkspace :=
  let placed := workspace.updatePane id (floatPane rect)
  if (workspace.panes.find? (·.paneId == id)).any (·.floating != rect.isSome) then
    placed.settleTree
  else placed

theorem placedFor_reshaped {workspace : SharedWorkspace} (proper : workspace.TreeProper)
    (unique : workspace.paneIds.Nodup) (id : PaneId) (rect : Option FracRect) :
    workspace.Reshaped (placedFor id rect workspace) := by
  have named : ∀ pane, (floatPane rect pane).paneId = pane.paneId := fun _ => rfl
  have fewer : ∀ pane, (floatPane rect pane).fullscreen = true → pane.fullscreen = true :=
    fun _ shown => shown
  have ids : (workspace.updatePane id (floatPane rect)).paneIds = workspace.paneIds :=
    SharedWorkspace.updatePane_paneIds id named
  have shown : workspace.fullscreens ≤ 1 →
      (workspace.updatePane id (floatPane rect)).fullscreens ≤ 1 :=
    Nat.le_trans (SharedWorkspace.updatePane_fullscreens_le id fewer)
  have unique' : (workspace.updatePane id (floatPane rect)).paneIds.Nodup := ids ▸ unique
  have same : (workspace.updatePane id (floatPane rect)).paneIds.Sublist workspace.paneIds :=
    ids ▸ List.Sublist.refl _
  have proper' : (workspace.updatePane id (floatPane rect)).TreeProper := proper
  unfold placedFor
  simp only
  split_ifs with retile
  · refine ⟨rfl, same, shown, ?_, .inl ?_⟩
    · exact SharedWorkspace.settleTree_proper proper' unique'
    · exact SharedWorkspace.settleTree_settled proper' unique'
  · refine ⟨rfl, same, shown, proper', .inr ⟨?_, ?_⟩⟩
    · apply SharedWorkspace.updatePane_tiledIds id named
      intro pane found
      simp only [found, Option.any_some, bne_iff_ne, ne_eq, not_not] at retile
      exact retile.symm
    · rw [ids]
      exact fun _ member => member

theorem placedFor_edited {workspace : SharedWorkspace} (valid : workspace.Valid)
    (unique : workspace.paneIds.Nodup) (id : PaneId) {rect : Option FracRect}
    (sound : ∀ wanted ∈ rect, wanted.Sound) :
    workspace.Edited (placedFor id rect workspace) := by
  refine ⟨placedFor_reshaped valid.treeProper unique id rect, ?_⟩
  have named : ∀ pane, (floatPane rect pane).paneId = pane.paneId := fun _ => rfl
  have ids : (workspace.updatePane id (floatPane rect)).paneIds = workspace.paneIds :=
    SharedWorkspace.updatePane_paneIds id named
  have panes := SharedWorkspace.updatePane_panes id valid
    fun pane own => floatPane_valid own sound
  have proper' : (workspace.updatePane id (floatPane rect)).TreeProper := valid.treeProper
  unfold placedFor
  simp only
  split_ifs with retile
  · exact SharedWorkspace.settleTree_valid valid.index panes valid.ratios proper' (ids ▸ unique)
  · refine ⟨valid.index, panes, valid.ratios, ?_⟩
    intro tree stored
    rw [ids]
    exact valid.tree tree stored

theorem setFloatPlacement_edited (valid : layout.Valid) (id : PaneId) {rect : Option FracRect}
    (sound : ∀ wanted ∈ rect, wanted.Sound) :
    List.Forall₂ SharedWorkspace.Edited layout.workspaces
      (layout.setFloatPlacement id rect).workspaces := by
  unfold setFloatPlacement
  split
  · exact List.forall₂_same.mpr fun workspace member => .refl (valid.workspaces workspace member)
  · apply updateWorkspace_edited valid
    intro workspace present
    have member := List.mem_of_getElem? present
    exact placedFor_edited (valid.workspaces workspace member) (paneIds_unique valid member) id
      sound

/-- In exact arithmetic every rectangle with a finite corner and positive sides may be asked for. -/
theorem setFloatPlacement_permitted (layout : SharedLayout) (id : PaneId) {rect : FloatRect}
    (sound : rect.Sound) :
    (DocumentEdit.setFloatPlacement id (some rect)).Permitted .exact layout := by
  have scale : ∀ n : Nat, (0 : Rat) < ((max n 1 : Nat) : Rat) := by
    intro n
    have positive : 0 < max n 1 := by omega
    exact_mod_cast positive
  have finite : ∀ (value : F32) (n : Nat), value.isFinite = true →
      (Arithmetic.exact.div value (Arithmetic.exact.ofNat (max n 1))).isFinite = true := by
    intro value n whole
    cases value with
    | finite value =>
        simp only [Arithmetic.exact, F32.div, if_neg (scale n).ne']
        rfl
    | posInfinity => cases whole
    | negInfinity => cases whole
    | nan => cases whole
  have positive : ∀ (value : F32) (n : Nat), value.Positive →
      (Arithmetic.exact.div value (Arithmetic.exact.ofNat (max n 1))).Positive := by
    rintro _ n ⟨value, rfl, above⟩
    refine ⟨value / ((max n 1 : Nat) : Rat), ?_, div_pos above (scale n)⟩
    simp only [Arithmetic.exact, F32.div, if_neg (scale n).ne']
  intro wanted same
  cases same
  exact ⟨finite _ _ sound.x, finite _ _ sound.y, positive _ _ sound.w, positive _ _ sound.h⟩

theorem setFloatPlacement_sound (valid : layout.Valid) (one : layout.OneFullscreen) (id : PaneId)
    {rect : Option FracRect} (sound : ∀ wanted ∈ rect, wanted.Sound) :
    Sound layout (layout.setFloatPlacement id rect) := by
  have all := setFloatPlacement_edited valid id sound
  have whole := Sound.of_edited valid one all
  unfold setFloatPlacement at whole ⊢
  split at whole
  · exact whole
  · exact whole

end each

end SharedLayout

end Rozi
