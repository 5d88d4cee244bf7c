import Rozi.Session.Headless

/-!
What a headless command that passed its checks does: it starts from the document that stands, it is
only allowed while nobody controls the session, and the document it commits is valid.
-/

namespace Rozi

open Checks

namespace SessionServer

variable {server : SessionServer}

structure StartsFrom (server : SessionServer) (before : SharedLayout) : Prop where
  free : server.controller = none
  document : server.layout = some before ∨
    server.layout = none ∧ server.panes.entries = [] ∧ before = emptyLayout

theorem emptyLayout_valid : emptyLayout.Valid where
  version := rfl
  canvas := ⟨by decide, by decide⟩
  geometry := rfl
  workspaces := fun _ none => absurd none List.not_mem_nil
  indexes := List.nodup_nil
  ids := List.nodup_nil

theorem layoutForHeadlessWrite_eq_ok {ifRevision : Option Nat} {before : SharedLayout}
    (allowed : server.layoutForHeadlessWrite ifRevision = .ok before) :
    server.StartsFrom before := by
  unfold layoutForHeadlessWrite at allowed
  split at allowed
  · cases allowed
  · rename_i free
    simp only [bind_eq_ok] at allowed
    rcases allowed with ⟨_, _, rest⟩
    split at rest
    · rename_i layout present
      cases rest
      exact ⟨free, .inl present⟩
    · rename_i absent
      split_ifs at rest with empty
      · cases rest
        exact ⟨free, .inr ⟨absent, by simpa using empty, rfl⟩⟩
      · cases rest

inductive AppliedTo (before : SharedLayout) : ControlCommand → SharedLayout × Bool → Prop
  | layoutSet {workspace : Nat} {layout : Option LayoutKind} {masterRatio : Option F32}
      {ifRevision : Option Nat} {edit : LayoutEdit}
      (sound : LayoutEdit.validate layout masterRatio = .ok edit) :
      AppliedTo before (.layoutSet workspace layout masterRatio ifRevision)
        (setLayout before (workspace - 1) edit)
  | paneSet {target : PaneId} {floating fullscreen : Option Bool} {rect : Option CellRect}
      {rectFraction : Option FractionRect} {splitRatio widthRatio : Option F32}
      {ifRevision : Option Nat} {edit : PaneEdit} {floatRect : Option FracRect}
      {edited : SharedLayout × Bool}
      (sound : PaneEdit.validate floating fullscreen rect rectFraction splitRatio widthRatio =
        .ok edit)
      (applied : before.editPane target edit floatRect = .ok edited) :
      AppliedTo before
        (.paneSet target floating fullscreen rect rectFraction splitRatio widthRatio ifRevision)
        edited
  | paneMove {target : PaneId} {workspace : Nat} {ifRevision : Option Nat}
      {edited : SharedLayout × Bool}
      (applied : before.movePane target (workspace - 1) = .ok edited) :
      AppliedTo before (.paneMove target workspace ifRevision) edited
  | paneSwap {target other : PaneId} {ifRevision : Option Nat} {edited : SharedLayout × Bool}
      (applied : before.swapPanes target other = .ok edited) :
      AppliedTo before (.paneSwap target other ifRevision) edited

/-- An edit keeps the panes where their processes are, keeps a valid document valid, and has the
workspace it reports when it changed something. -/
structure EditOf (before : SharedLayout) (command : ControlCommand)
    (edited : SharedLayout × Bool) (index : Nat) : Prop where
  applied : AppliedTo before command edited
  rearranged : before.Rearranged edited.1
  valid : before.Valid → edited.1.Valid
  described : edited.2 = true → edited.1.HasWorkspace index

theorem validateLayoutWorkspace_eq_ok {workspace : Nat} {result : Unit}
    (passed : validateLayoutWorkspace workspace = .ok result) :
    workspace - 1 < workspaceCount := by
  unfold validateLayoutWorkspace at passed
  split_ifs at passed with inside
  · omega
  · cases passed

theorem setLayout_rearranged (before : SharedLayout) (index : Nat) (edit : LayoutEdit) :
    before.Rearranged (setLayout before index edit).1 := by
  unfold setLayout
  cases edit.kind with
  | none =>
      cases edit.masterRatio with
      | none => exact .rfl' before
      | some ratio => exact before.setMasterRatio_rearranged index ratio
  | some kind =>
      cases edit.masterRatio with
      | none => exact before.setLayoutKind_rearranged index kind
      | some ratio =>
          exact (before.setLayoutKind_rearranged index kind).trans
            (SharedLayout.setMasterRatio_rearranged _ index ratio)

theorem setLayout_valid {before : SharedLayout} {index : Nat} (inside : index < workspaceCount)
    {edit : LayoutEdit} (proper : ∀ ratio ∈ edit.masterRatio, ratio.Proper)
    (valid : before.Valid) : (setLayout before index edit).1.Valid := by
  unfold setLayout
  cases edit.kind with
  | none =>
      cases share : edit.masterRatio with
      | none => exact valid
      | some ratio => exact valid.setMasterRatio inside (proper ratio share)
  | some kind =>
      cases share : edit.masterRatio with
      | none => exact valid.setLayoutKind inside kind
      | some ratio =>
          exact (valid.setLayoutKind inside kind).setMasterRatio inside (proper ratio share)

theorem setLayout_described (before : SharedLayout) (index : Nat) (edit : LayoutEdit)
    (changed : (setLayout before index edit).2 = true) :
    (setLayout before index edit).1.HasWorkspace index := by
  unfold setLayout at changed ⊢
  cases kinded : edit.kind with
  | none =>
      cases shared : edit.masterRatio with
      | none =>
          rw [kinded, shared] at changed
          cases changed
      | some ratio => exact .setMasterRatio before ratio
  | some kind =>
      cases edit.masterRatio with
      | none => exact .setLayoutKind before kind
      | some ratio => exact .setMasterRatio _ ratio

theorem sessionLayoutSet_edits {workspace : Nat} {layout : Option LayoutKind}
    {masterRatio : Option F32} {ifRevision : Option Nat} {edited : SharedLayout × Bool}
    {index : Nat} (passed : server.sessionLayoutSet workspace layout masterRatio ifRevision =
      .ok (edited, index)) : ∃ before, server.StartsFrom before ∧
      EditOf before (.layoutSet workspace layout masterRatio ifRevision) edited index := by
  simp only [sessionLayoutSet, bind_eq_ok, pure_eq_ok] at passed
  rcases passed with ⟨edit, sound, _, inside, before, allowed, _, _, same⟩
  cases same
  refine ⟨before, layoutForHeadlessWrite_eq_ok allowed, ?_⟩
  exact
    { applied := .layoutSet sound
      rearranged := setLayout_rearranged before _ edit
      valid := setLayout_valid (validateLayoutWorkspace_eq_ok inside)
        (LayoutEdit.validate_proper sound)
      described := setLayout_described before _ edit }

theorem position_hasWorkspace {layout : SharedLayout} {id : PaneId} {workspace : SharedWorkspace}
    (placed : (layout.workspacePositionOf id).bind (layout.workspaces[·]?) = some workspace) :
    layout.HasWorkspace workspace.index := by
  rcases Option.bind_eq_some_iff.mp placed with ⟨position, _, present⟩
  exact SharedLayout.hasWorkspace_of_position present

theorem sessionPaneSet_edits {geometry : FloatGeometry} {target : PaneId}
    {floating fullscreen : Option Bool} {rect : Option CellRect}
    {rectFraction : Option FractionRect} {splitRatio widthRatio : Option F32}
    {ifRevision : Option Nat} {edited : SharedLayout × Bool} {index : Nat}
    (passed : server.sessionPaneSet geometry target
      (PaneEdit.validate floating fullscreen rect rectFraction splitRatio widthRatio) ifRevision =
        .ok (edited, index)) :
    ∃ before, server.StartsFrom before ∧
      EditOf before (.paneSet target floating fullscreen rect rectFraction splitRatio widthRatio
        ifRevision) edited index := by
  simp only [sessionPaneSet, bind_eq_ok] at passed
  rcases passed with ⟨edit, sound, before, allowed, rest⟩
  split at rest
  · cases rest
  · rename_i workspace placed
    simp only [bind_eq_ok] at rest
    rcases rest with ⟨_, _, _, _, rest⟩
    split at rest
    · rename_i result applied
      cases rest
      refine ⟨before, layoutForHeadlessWrite_eq_ok allowed, ?_⟩
      rcases (bind_eq_ok _ _ _).mp applied with ⟨fields, _, checked⟩
      exact
        { applied := .paneSet sound applied
          rearranged := SharedLayout.editPane_rearranged applied
          valid := fun _ => SharedLayout.checked_valid checked
          described := fun _ => (position_hasWorkspace placed).editPane applied }
    · cases rest

theorem refusing_eq_ok {edit : Edited} {edited : SharedLayout × Bool}
    (passed : server.refusing edit = .ok edited) : edit = .ok edited := by
  cases edit with
  | error error => cases passed
  | ok result =>
      cases passed
      rfl

theorem sessionPaneMove_edits {target : PaneId} {workspace : Nat} {ifRevision : Option Nat}
    {edited : SharedLayout × Bool} {index : Nat}
    (passed : server.sessionPaneMove target workspace ifRevision = .ok (edited, index)) :
    ∃ before, server.StartsFrom before ∧
      EditOf before (.paneMove target workspace ifRevision) edited index := by
  simp only [sessionPaneMove, bind_eq_ok, pure_eq_ok] at passed
  rcases passed with ⟨_, inside, before, allowed, result, refusal, same⟩
  cases same
  have moved := refusing_eq_ok refusal
  refine ⟨before, layoutForHeadlessWrite_eq_ok allowed, ?_⟩
  rcases (bind_eq_ok _ _ _).mp moved with ⟨fields, _, checked⟩
  exact
    { applied := .paneMove moved
      rearranged := SharedLayout.movePane_rearranged moved
      valid := fun _ => SharedLayout.checked_valid checked
      described := fun _ => .movePane moved }

theorem sessionPaneSwap_edits {target other : PaneId} {ifRevision : Option Nat}
    {edited : SharedLayout × Bool} {index : Nat}
    (passed : server.sessionPaneSwap target other ifRevision = .ok (edited, index)) :
    ∃ before, server.StartsFrom before ∧
      EditOf before (.paneSwap target other ifRevision) edited index := by
  simp only [sessionPaneSwap, bind_eq_ok] at passed
  rcases passed with ⟨before, allowed, result, refusal, rest⟩
  split at rest
  · cases rest
  · rename_i workspace placed
    cases rest
    have swapped := refusing_eq_ok refusal
    refine ⟨before, layoutForHeadlessWrite_eq_ok allowed, ?_⟩
    rcases (bind_eq_ok _ _ _).mp swapped with ⟨fields, _, checked⟩
    exact
      { applied := .paneSwap swapped
        rearranged := SharedLayout.swapPanes_rearranged swapped
        valid := fun _ => SharedLayout.checked_valid checked
        described := fun _ => (position_hasWorkspace placed).swapPanes swapped }

structure ClosingOf (server : SessionServer) (target : PaneId)
    (left : Option (SharedLayout × Nat)) : Prop where
  free : server.controller = none
  present : ∃ pane, server.panes.lookup target = some pane
  document : server.layout.bind (SharedLayout.removePane · target) = left
  valid : ∀ kept ∈ left, kept.1.Valid

theorem closing_eq_ok {target : PaneId} {ifRevision : Option Nat}
    {left : Option (SharedLayout × Nat)} (passed : server.closing target ifRevision = .ok left) :
    server.ClosingOf target left := by
  unfold closing at passed
  split at passed
  · cases passed
  · rename_i free
    simp only [bind_eq_ok] at passed
    rcases passed with ⟨_, _, rest⟩
    split_ifs at rest with absent
    · have present : ∃ pane, server.panes.lookup target = some pane := by
        apply Option.isSome_iff_exists.mp
        apply Option.ne_none_iff_isSome.mp
        simpa using absent
      split at rest
      · rename_i unplaced
        cases rest
        exact ⟨free, present, unplaced, fun _ none => by cases none⟩
      · rename_i layout index removed
        split at rest
        · rename_i valid
          cases rest
          refine ⟨free, present, removed, ?_⟩
          intro kept same
          cases same
          exact (SharedLayout.validate_iff layout _).mp valid
        · cases rest

def usedIds (server : SessionServer) : List PaneId :=
  server.panes.keys ++ server.localPanes.keys.map Prod.snd ++
    server.layout.elim [] SharedLayout.paneIds

theorem nextHeadlessPaneId_fresh {id : PaneId} (next : server.nextHeadlessPaneId = some id) :
    id ≠ popupPaneId ∧ server.panes.lookup id = none ∧
      ∀ layout, server.layout = some layout → id ∉ layout.paneIds := by
  have above : ∀ used ∈ server.usedIds, used ≤ (server.usedIds.max?).getD 0 :=
    fun used member => List.le_max?_getD_of_mem member
  have free : (server.usedIds.max?).getD 0 + 1 < popupPaneId ∧
      id = (server.usedIds.max?).getD 0 + 1 := by
    change (if (server.usedIds.max?).getD 0 + 1 < popupPaneId then
      some ((server.usedIds.max?).getD 0 + 1) else none) = some id at next
    split_ifs at next with free
    cases next
    exact ⟨free, rfl⟩
  rcases free with ⟨low, rfl⟩
  refine ⟨Nat.ne_of_lt low, ?_, ?_⟩
  · by_contra used
    have held : (server.usedIds.max?).getD 0 + 1 ∈ server.panes :=
      AList.lookup_isSome.mp (Option.ne_none_iff_isSome.mp used)
    have bound := above _ (List.mem_append_left _ (List.mem_append_left _ held))
    exact Nat.not_succ_le_self _ bound
  · intro layout present used
    have bound := above _ (List.mem_append_right _ (by rw [present]; exact used))
    exact Nat.not_succ_le_self _ bound

theorem addPane_placements (pane : SharedPane) (workspace : SharedWorkspace) :
    (addPane pane workspace).placements =
      workspace.placements ++ [(pane.paneId, pane.generation)] := by
  unfold addPane SharedWorkspace.placements
  simp only [List.map_append, List.map_cons, List.map_nil]
  congr 1
  split_ifs
  · simp [Function.comp_def]
  · rfl

theorem layoutWithPane_placements (layout : SharedLayout) (index : Nat) (pane : SharedPane) :
    (layoutWithPane layout index pane).placements.Perm
      (layout.placements ++ [(pane.paneId, pane.generation)]) := by
  unfold layoutWithPane
  cases present : layout.workspaceAt index with
  | none =>
      simp [SharedLayout.placements_eq, SharedWorkspace.placements]
  | some workspace =>
      have exchange := (SharedLayout.updateWorkspaceAt_exchanged (addPane pane) present).flatMap
        SharedWorkspace.placements
      simp only [Option.isSome_some, if_true]
      rw [SharedLayout.placements_eq, SharedLayout.placements_eq]
      rw [addPane_placements] at exchange
      apply List.perm_iff_count.mpr
      intro entry
      have counted := exchange.count_eq entry
      simp only [List.count_append] at counted ⊢
      omega

structure PreparedOf (server : SessionServer) (prepared : PreparedSpawn) : Prop where
  free : server.controller = none
  unowned : prepared.request.owner = none
  named : prepared.request.paneId ≠ popupPaneId
  fresh : server.panes.lookup prepared.request.paneId = none
  current : prepared.placement.baseRev = server.layoutRev
  valid : prepared.placement.layout.Valid
  document : ∃ before, server.StartsFrom before ∧ prepared.request.paneId ∉ before.paneIds ∧
    ∃ index pane, prepared.placement.layout = layoutWithPane before index pane ∧
      (pane.paneId, pane.generation) = (prepared.request.paneId, prepared.request.generation)

theorem prepareNewPane_eq_ok {rules : PlacementRules} {spawn : SessionSpawn}
    {prepared : PreparedSpawn} (passed : server.prepareNewPane rules spawn = .ok prepared) :
    server.PreparedOf prepared := by
  unfold prepareNewPane at passed
  split_ifs at passed with focused unplaced
  · cases passed
  · split at passed
    · cases passed
    · simp only [bind_eq_ok] at passed
      rcases passed with ⟨_, _, _, _, _, _, rest⟩
      cases rest
  · split at passed
    · cases passed
    · rename_i free
      simp only [bind_eq_ok] at passed
      rcases passed with ⟨_, _, launch, _, workspace, _, rest⟩
      split at rest
      · cases rest
      · rename_i id next
        split_ifs at rest with invalid
        · cases rest
        · cases rest
          rcases nextHeadlessPaneId_fresh next with ⟨named, fresh, unlisted⟩
          have starts : server.StartsFrom (server.layout.getD emptyLayout) := by
            refine ⟨free, ?_⟩
            cases present : server.layout with
            | some layout => exact .inl rfl
            | none => exact .inr ⟨rfl, by simpa [present] using unplaced, rfl⟩
          have absent : id ∉ (server.layout.getD emptyLayout).paneIds := by
            cases present : server.layout with
            | some layout => exact unlisted layout present
            | none => exact List.not_mem_nil
          exact
            { free
              unowned := rfl
              named
              fresh
              current := rfl
              valid := SharedLayout.validate_isOk.mp (by simpa using invalid)
              document := ⟨_, starts, absent, _, _, rfl, rfl⟩ }

end SessionServer

end Rozi
