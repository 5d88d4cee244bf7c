import Rozi.Layout.LivePlacement
import Rozi.Layout.Validate
import Rozi.Layout.WorktreeSeed

/-!
A profile that is saved and opened again.
-/

namespace Rozi

open SerializedTree

/-! The projection of a session, which says what a session in good order is. -/

def F32.same (a b : F32) : Bool := a.le b && b.le a

def FloatRect.same (a b : FloatRect) : Bool :=
  a.x.same b.x && a.y.same b.y && a.w.same b.w && a.h.same b.h

def SharedLayout.rects (layout : SharedLayout) : AList fun _ : PaneId × Nat => FracRect :=
  AList.collect (layout.panes.filterMap fun pane =>
    pane.rect.map fun rect => ((pane.paneId, pane.generation), rect))

/-- A projected float keeps its fractions until its rectangle changes. -/
def preserveRect (arith : Arithmetic) (cols rows : Nat) (previous : SharedLayout)
    (panes : List Pane) (pane : SharedPane) : SharedPane :=
  match previous.rects.lookup (pane.paneId, pane.generation),
      panes.find? (·.id == pane.paneId) with
  | some rect, some local' =>
      if local'.floating && local'.floatingRect.same (fracRectToFloat arith rect cols rows) then
        { pane with rect := some rect }
      else pane
  | _, _ => pane

/-- `preserve_projected_rects`, after the last layout that was committed. -/
def preserveProjectedRects (arith : Arithmetic) (panes : List Pane) (previous : Option SharedLayout)
    (layout : SharedLayout) : SharedLayout :=
  match previous with
  | none => layout
  | some previous =>
      if previous.canvasCols ≠ layout.canvasCols ∨ previous.canvasRows ≠ layout.canvasRows then
        layout
      else { layout with workspaces := layout.workspaces.map fun workspace => { workspace with
          panes := workspace.panes.map
            (preserveRect arith layout.canvasCols layout.canvasRows previous panes) } }

def sharedLayoutFromState (arith : Arithmetic) (geometry : SharedPaneGeometry)
    (attachment : Attachment) (previous : Option SharedLayout) (cols rows : Nat) : SharedLayout :=
  preserveProjectedRects arith (attachment.workspaces.flatMap Workspace.panes) previous {
    canvasCols := max cols 1
    canvasRows := max rows 1
    paneGeometry := geometry
    workspaces := attachment.workspaces.mapIdx fun index workspace =>
      sharedWorkspaceFromState arith index workspace (max cols 1) (max rows 1) }

section projection

variable (arith : Arithmetic) (geometry : SharedPaneGeometry) (attachment : Attachment)
variable (previous : Option SharedLayout) (cols rows : Nat)

theorem preserveRect_fields (cols rows : Nat) (previous : SharedLayout) (panes : List Pane)
    (pane : SharedPane) :
    (preserveRect arith cols rows previous panes pane).paneId = pane.paneId ∧
      (preserveRect arith cols rows previous panes pane).pinned = pane.pinned ∧
      (preserveRect arith cols rows previous panes pane).floating = pane.floating ∧
      (preserveRect arith cols rows previous panes pane).fullscreen = pane.fullscreen := by
  unfold preserveRect
  split
  · split_ifs <;> exact ⟨rfl, rfl, rfl, rfl⟩
  · exact ⟨rfl, rfl, rfl, rfl⟩

theorem mem_sharedLayoutFromState {index : Nat} {workspace : Workspace}
    (there : attachment.workspaces[index]? = some workspace) :
    ∃ shared ∈ (sharedLayoutFromState arith geometry attachment previous cols rows).workspaces,
      shared.index = index ∧ ∃ change : SharedPane → SharedPane,
        shared.panes = workspace.livePanes.map
          (change ∘ sharedPaneFromState arith (max cols 1) (max rows 1)) ∧
        ∀ pane, (change pane).paneId = pane.paneId ∧ (change pane).pinned = pane.pinned ∧
          (change pane).floating = pane.floating ∧ (change pane).fullscreen = pane.fullscreen := by
  have projected : sharedWorkspaceFromState arith index workspace (max cols 1) (max rows 1) ∈
      attachment.workspaces.mapIdx fun index workspace =>
        sharedWorkspaceFromState arith index workspace (max cols 1) (max rows 1) := by
    refine List.mem_iff_getElem?.mpr ⟨index, ?_⟩
    rw [List.getElem?_mapIdx, there]
    rfl
  unfold sharedLayoutFromState preserveProjectedRects
  cases previous with
  | none => exact ⟨_, projected, rfl, id, rfl, fun _ => ⟨rfl, rfl, rfl, rfl⟩⟩
  | some previous =>
      simp only
      split_ifs with other
      · exact ⟨_, projected, rfl, id, rfl, fun _ => ⟨rfl, rfl, rfl, rfl⟩⟩
      · refine ⟨_, List.mem_map_of_mem projected, rfl, preserveRect arith (max cols 1) (max rows 1)
          previous (attachment.workspaces.flatMap Workspace.panes), ?_,
          preserveRect_fields arith _ _ _ _⟩
        rw [← List.map_map]
        rfl

/-- A session whose projection is in good order: a workspace has a place among the nine, its panes
have ids of their own, and a pinned pane floats. -/
theorem projection_valid
    (valid : (sharedLayoutFromState arith geometry attachment previous cols rows).validate = .ok ())
    {index : Nat} {workspace : Workspace}
    (there : attachment.workspaces[index]? = some workspace) :
    index < workspaceCount ∧ (workspace.livePanes.map Pane.id).Nodup ∧
      ∀ pane ∈ workspace.livePanes, pane.pinned = true →
        pane.floating = true ∧ pane.fullscreen = false := by
  have valid := (SharedLayout.validate_iff _ _).mp valid
  rcases mem_sharedLayoutFromState arith geometry attachment previous cols rows there with
    ⟨shared, member, here, change, panes, kept⟩
  have sound := valid.workspaces shared member
  have ids : shared.paneIds = workspace.livePanes.map Pane.id := by
    rw [SharedWorkspace.paneIds, panes, List.map_map]
    refine List.map_congr_left fun pane _ => ?_
    exact (kept _).1
  refine ⟨here ▸ sound.index, ?_, ?_⟩
  · rw [← ids]
    have unique := valid.ids
    rw [paneIds_eq_flatMap] at unique
    exact (List.nodup_flatMap.mp unique).1 shared member
  · intro pane live pinned
    have listed : (change ∘ sharedPaneFromState arith (max cols 1) (max rows 1)) pane ∈
        shared.panes := by
      rw [panes]
      exact List.mem_map_of_mem live
    have pin := (sound.panes _ listed).pin
    rcases kept (sharedPaneFromState arith (max cols 1) (max rows 1) pane) with
      ⟨_, samePinned, sameFloating, sameFullscreen⟩
    simp only [Function.comp_apply, samePinned, sameFloating, sameFullscreen] at pin
    exact pin pinned

end projection

section entries

variable (config : ProfileConfig) (terminals : Terminals)

/-- Entries that say which pane they are of are opened again under its id. -/
theorem restorePanes_known (next : PaneId) {profiles : List PaneProfile}
    (known : ∀ profile ∈ profiles, profile.paneId.isSome) :
    (restorePanes config next profiles).1 = profiles.map fun profile =>
      (profile.id, restorePane config (profile.paneId.getD 0) profile) := by
  induction profiles generalizing next with
  | nil => rfl
  | cons profile rest ih =>
      have others := ih (max next (nextPaneIdAfter (profile.paneId.getD next)))
        fun other member => known other (List.mem_cons_of_mem _ member)
      rcases Option.isSome_iff_exists.mp (known profile List.mem_cons_self) with ⟨id, named⟩
      rw [restorePanes, List.map_cons, ← others]
      simp only [named, Option.getD_some]

def reopened (pane : Pane) : Pane :=
  restorePane config pane.id (paneProfileFromState terminals 0 pane)

/-- What the panes of a saved workspace are opened again as, under their positions. -/
theorem restorePanes_saved (next : PaneId) (index : Nat) (workspace : Workspace) :
    (restorePanes config next (workspaceProfileFromState terminals index workspace).panes).1 =
      workspace.livePanes.mapIdx fun place pane => (place, reopened config terminals pane) := by
  rw [restorePanes_known]
  · refine List.ext_getElem? fun place => ?_
    simp only [workspaceProfileFromState, List.getElem?_map, List.getElem?_mapIdx, Option.map_map]
    rfl
  · intro profile member
    rcases List.mem_mapIdx.mp member with ⟨place, inside, rfl⟩
    rfl

variable {workspaces : List Workspace} {profiles : List WorkspaceProfile} {index : Nat}

theorem restoreWorkspaces_skipped (next : PaneId)
    (absent : index ∉ profiles.map WorkspaceProfile.index) :
    (restoreWorkspaces config workspaces next profiles).1[index]? = workspaces[index]? := by
  induction profiles generalizing workspaces next with
  | nil => rfl
  | cons profile rest ih =>
      have other : profile.index ≠ index := fun same => absent (by simp [same])
      have later : index ∉ rest.map WorkspaceProfile.index := fun member =>
        absent (List.mem_cons_of_mem _ member)
      rw [restoreWorkspaces]
      split_ifs
      · exact ih next later
      · rw [ih _ later, List.getElem?_modify_ne _ _ other]

theorem restoreWorkspaces_named (next : PaneId) {profile : WorkspaceProfile}
    (distinct : (profiles.map WorkspaceProfile.index).Nodup) (member : profile ∈ profiles)
    (inside : profile.index < workspaceCount) :
    ∃ next', (restoreWorkspaces config workspaces next profiles).1[profile.index]? =
      workspaces[profile.index]?.map
        (restoreWorkspace profile (restorePanes config next' profile.panes).1) := by
  induction profiles generalizing workspaces next with
  | nil => cases member
  | cons first rest ih =>
      rw [List.map_cons, List.nodup_cons] at distinct
      rw [restoreWorkspaces]
      rcases List.mem_cons.mp member with rfl | later
      · rw [if_neg (Nat.not_le.mpr inside)]
        refine ⟨next, ?_⟩
        rw [restoreWorkspaces_skipped config _ distinct.1, List.getElem?_modify_eq]
        rfl
      · have other : first.index ≠ profile.index := fun same =>
          distinct.1 (same ▸ List.mem_map_of_mem later)
        split_ifs
        · exact ih next distinct.2 later
        · rcases ih _ distinct.2 later with ⟨next', restored⟩
          refine ⟨next', ?_⟩
          rw [restored, List.getElem?_modify_ne _ _ other]

end entries

section reopens

structure Pane.Reopens (pane again : Pane) : Prop where
  id : again.id = pane.id
  title : again.identity.customTitle = pane.identity.customTitle.or pane.identity.profileName
  profileName : again.identity.profileName = pane.identity.customTitle.or pane.identity.profileName
  floating : again.floating = pane.floating
  fullscreen : again.fullscreen = pane.fullscreen
  pinned : again.pinned = pane.pinned
  rect : pane.floating = true → again.floatingRect = pane.floatingRect
  width : again.scrollableWidth = sanitizeScrollableWidth pane.scrollableWidth
  live : again.closing = false

theorem reopened_reopens (config : ProfileConfig) (terminals : Terminals) {pane : Pane}
    (pin : pane.pinned = true → pane.floating = true ∧ pane.fullscreen = false) :
    pane.Reopens (reopened config terminals pane) where
  id := rfl
  title := by
    unfold reopened restorePane paneProfileFromState
    cases pane.identity.customTitle <;> cases pane.identity.profileName <;> rfl
  profileName := by
    unfold reopened restorePane paneProfileFromState
    cases pane.identity.customTitle <;> cases pane.identity.profileName <;> rfl
  floating := rfl
  fullscreen := rfl
  pinned := by
    show (pane.pinned && pane.floating && !pane.fullscreen) = pane.pinned
    cases pinned : pane.pinned with
    | false => rfl
    | true => simp [pin pinned]
  rect := fun floating => by
    show (if pane.floating then some pane.floatingRect else none).getD ProfileRect.standard = _
    rw [if_pos floating, Option.getD_some]
  width := by
    show sanitizeScrollableWidth ((if sanitizeScrollableWidth pane.scrollableWidth !=
      defaultScrollableWidth then some (sanitizeScrollableWidth pane.scrollableWidth)
      else none).getD defaultScrollableWidth) = _
    split_ifs with changed
    · exact sanitizeScrollableWidth_idem _
    · have standard : sanitizeScrollableWidth pane.scrollableWidth = defaultScrollableWidth := by
        simpa using changed
      rw [Option.getD_none, ← standard, sanitizeScrollableWidth_idem]
  live := rfl

section tree

variable {L : Type} {save : PaneId → Option L} {load : L → Option PaneId}

theorem tree_reopens {tree : DwindleTree}
    (found : ∀ id ∈ tree.leaves, ∃ place, save id = some place ∧ load place = some id) :
    (fromDwindle save tree).bind (toDwindle load false) = some tree := by
  induction tree with
  | leaf pane =>
      rcases found pane (by simp [leaves]) with ⟨place, saved, loaded⟩
      simp [fromDwindle, toDwindle, saved, loaded]
  | split axis ratio first second hfirst hsecond =>
      have before := hfirst fun id member => found id (by simp [leaves, member])
      have behind := hsecond fun id member => found id (by simp [leaves, member])
      rcases Option.bind_eq_some_iff.mp before with ⟨saved, wrote, read⟩
      rcases Option.bind_eq_some_iff.mp behind with ⟨saved', wrote', read'⟩
      simp [fromDwindle, toDwindle, wrote, wrote', read, read']

theorem tree_lost {tree : DwindleTree} {id : PaneId} (member : id ∈ tree.leaves)
    (lost : save id = none) : fromDwindle save tree = none := by
  induction tree with
  | leaf pane =>
      obtain rfl : id = pane := by simpa [leaves] using member
      simp [fromDwindle, lost]
  | split axis ratio first second hfirst hsecond =>
      rcases List.mem_append.mp member with before | behind
      · simp [fromDwindle, hfirst before]
      · simp only [fromDwindle, hsecond behind]
        cases fromDwindle save first <;> rfl

end tree

section places

variable {workspace : Workspace} (distinct : (workspace.livePanes.map Pane.id).Nodup)

def Workspace.placedIds (workspace : Workspace) : AList fun _ : PaneId => PaneId :=
  AList.collect (workspace.livePanes.mapIdx fun place pane => (place, pane.id))

theorem placedIds_lookup {place : Nat} {pane : Pane}
    (there : workspace.livePanes[place]? = some pane) :
    workspace.placedIds.lookup place = some pane.id := by
  refine AList.lookup_collect_of_mem ?_ (List.mem_iff_getElem?.mpr ⟨place, ?_⟩)
  · have places : (workspace.livePanes.mapIdx fun place pane => (place, pane.id)).map Prod.fst =
        List.range workspace.livePanes.length := by
      refine List.ext_getElem? fun place => ?_
      simp only [List.getElem?_map, List.getElem?_mapIdx, Option.map_map]
      by_cases inside : place < workspace.livePanes.length
      · simp [inside]
      · simp [inside]
    rw [places]
    exact List.nodup_range
  · rw [List.getElem?_mapIdx, there]
    rfl

include distinct in
theorem paneIndices_lookup {place : Nat} {pane : Pane}
    (there : workspace.livePanes[place]? = some pane) :
    workspace.paneIndices.lookup pane.id = some place := by
  refine AList.lookup_collect_of_mem ?_ (List.mem_iff_getElem?.mpr ⟨place, ?_⟩)
  · have ids : (workspace.livePanes.mapIdx fun place pane => (pane.id, place)).map Prod.fst =
        workspace.livePanes.map Pane.id := by
      refine List.ext_getElem? fun place => ?_
      simp only [List.getElem?_map, List.getElem?_mapIdx, Option.map_map]
      rfl
    rw [ids]
    exact distinct
  · rw [List.getElem?_mapIdx, there]
    rfl

theorem paneIndices_missing {id : PaneId} (gone : id ∉ workspace.livePanes.map Pane.id) :
    workspace.paneIndices.lookup id = none := by
  refine AList.lookup_collect_of_notMem fun member => gone ?_
  rcases List.mem_map.mp member with ⟨entry, listed, rfl⟩
  rcases List.mem_mapIdx.mp listed with ⟨place, inside, rfl⟩
  exact List.mem_map_of_mem (List.getElem_mem inside)

include distinct in
theorem found_again {id : PaneId} (live : id ∈ workspace.livePanes.map Pane.id) :
    ∃ place, workspace.paneIndices.lookup id = some place ∧
      workspace.placedIds.lookup place = some id := by
  rcases List.mem_map.mp live with ⟨pane, listed, rfl⟩
  rcases List.mem_iff_getElem?.mp listed with ⟨place, there⟩
  exact ⟨place, paneIndices_lookup distinct there, placedIds_lookup there⟩

end places

end reopens

end Rozi
