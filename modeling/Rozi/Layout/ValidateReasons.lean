import Rozi.Layout.Validate

/-!
The reasons for which a document is refused are its own.
-/

namespace Rozi

open SerializedTree Checks

def SharedPane.RectFault (pane : SharedPane) (reason : String) : Prop :=
  if pane.floating then
    ∃ rect, pane.rect = some rect ∧
      (reason = "coordinates must be finite" ∧
          ¬ (rect.x.isFinite ∧ rect.y.isFinite ∧ rect.w.isFinite ∧ rect.h.isFinite) ∨
        reason = "dimensions must be positive" ∧ ¬ (rect.w.Positive ∧ rect.h.Positive))
  else pane.rect.isSome ∧ reason = "non-floating pane must not carry a floating rect"

def SharedLayoutValidationError.Tells (layout : SharedLayout) : SharedLayoutValidationError → Prop
  | unsupportedVersion version => layout.version = version ∧ version ≠ sharedLayoutVersion
  | zeroCanvasDimensions => layout.canvasCols = 0 ∨ layout.canvasRows = 0
  | invalidPaneGeometry => layout.paneGeometry.invalid = true
  | duplicateWorkspaceIndex index => 2 ≤ (layout.workspaces.map SharedWorkspace.index).count index
  | invalidWorkspaceIndex index =>
      index ∈ layout.workspaces.map SharedWorkspace.index ∧ workspaceCount ≤ index
  | reservedPaneId id => id ∈ layout.paneIds ∧ id = popupPaneId
  | duplicatePaneId id => 2 ≤ layout.paneIds.count id
  | treeLeafNotInWorkspace index id => ∃ workspace ∈ layout.workspaces, workspace.index = index ∧
      ∃ tree ∈ workspace.tree, id ∈ tree.leaves ∧ id ∉ workspace.paneIds
  | duplicateTreeLeaf index id => ∃ workspace ∈ layout.workspaces, workspace.index = index ∧
      ∃ tree ∈ workspace.tree, 2 ≤ tree.leaves.count id
  | invalidSplitRatio index => ∃ workspace ∈ layout.workspaces, workspace.index = index ∧
      ∃ ratio ∈ workspace.splitRatios, ¬ ratio.Proper
  | invalidTreeSplitRatio index => ∃ workspace ∈ layout.workspaces, workspace.index = index ∧
      ∃ tree ∈ workspace.tree, ¬ tree.RatiosProper
  | missingFloatingRect id => ∃ pane ∈ layout.panes, pane.paneId = id ∧
      pane.floating = true ∧ pane.rect = none
  | invalidPin id => ∃ pane ∈ layout.panes, pane.paneId = id ∧
      pane.pinned = true ∧ (pane.floating = false ∨ pane.fullscreen = true)
  | invalidFloatingRect id reason => ∃ pane ∈ layout.panes, pane.paneId = id ∧
      pane.RectFault reason
  | invalidScrollableWidth id => ∃ pane ∈ layout.panes, pane.paneId = id ∧
      ¬ pane.scrollableWidth.Positive
  | invalidGeneration id generation => ∃ pane ∈ layout.panes, pane.paneId = id ∧
      pane.generation = generation ∧ generation = 0

def SharedPane.Refused (seen : List PaneId) (pane : SharedPane) :
    SharedLayoutValidationError → Prop
  | .reservedPaneId id => pane.paneId = id ∧ id = popupPaneId
  | .duplicatePaneId id => pane.paneId = id ∧ id ∈ seen
  | .missingFloatingRect id => pane.paneId = id ∧ pane.floating = true ∧ pane.rect = none
  | .invalidPin id => pane.paneId = id ∧ pane.pinned = true ∧
      (pane.floating = false ∨ pane.fullscreen = true)
  | .invalidFloatingRect id reason => pane.paneId = id ∧ pane.RectFault reason
  | .invalidScrollableWidth id => pane.paneId = id ∧ ¬ pane.scrollableWidth.Positive
  | .invalidGeneration id generation =>
      pane.paneId = id ∧ pane.generation = generation ∧ generation = 0
  | _ => False

def SharedWorkspace.Refused (workspace : SharedWorkspace) : SharedLayoutValidationError → Prop
  | .treeLeafNotInWorkspace index id => workspace.index = index ∧
      ∃ tree ∈ workspace.tree, id ∈ tree.leaves ∧ id ∉ workspace.paneIds
  | .duplicateTreeLeaf index id => workspace.index = index ∧
      ∃ tree ∈ workspace.tree, 2 ≤ tree.leaves.count id
  | .invalidSplitRatio index => workspace.index = index ∧
      ∃ ratio ∈ workspace.splitRatios, ¬ ratio.Proper
  | .invalidTreeSplitRatio index => workspace.index = index ∧
      ∃ tree ∈ workspace.tree, ¬ tree.RatiosProper
  | _ => False

variable {error : SharedLayoutValidationError}

theorem validateRect_error {pane : SharedPane} (refused : validateRect pane = .error error)
    (seen : List PaneId) : pane.Refused seen error := by
  unfold validateRect at refused
  by_cases floating : pane.floating = true
  · rw [if_pos floating] at refused
    cases found : pane.rect with
    | none =>
        rw [found] at refused
        cases refused
        exact ⟨rfl, floating, found⟩
    | some rect =>
        rw [found] at refused
        simp only [bind_eq_error, refuseIf_eq_error] at refused
        rcases refused with ⟨infinite, rfl⟩ | ⟨_, _, flat, rfl⟩
        · refine ⟨rfl, ?_⟩
          rw [SharedPane.RectFault, if_pos floating]
          refine ⟨rect, found, .inl ⟨rfl, ?_⟩⟩
          rintro ⟨x, y, w, h⟩
          simp [x, y, w, h] at infinite
        · refine ⟨rfl, ?_⟩
          rw [SharedPane.RectFault, if_pos floating]
          refine ⟨rect, found, .inr ⟨rfl, ?_⟩⟩
          rintro ⟨wide, high⟩
          rcases Bool.or_eq_true_iff.mp flat with thin | low
          · exact (F32.not_positive_iff rect.w).mp (Bool.or_eq_true_iff.mpr (.inr thin)) wide
          · exact (F32.not_positive_iff rect.h).mp (Bool.or_eq_true_iff.mpr (.inr low)) high
  · rw [if_neg floating, refuseIf_eq_error] at refused
    rcases refused with ⟨carried, rfl⟩
    refine ⟨rfl, ?_⟩
    rw [SharedPane.RectFault, if_neg floating]
    exact ⟨carried, rfl⟩

theorem validatePane_error {seen : List PaneId} {pane : SharedPane}
    (refused : validatePane seen pane = .error error) : pane.Refused seen error := by
  simp only [validatePane, bind_eq_error, refuseIf_eq_error, refuseIf_eq_ok] at refused
  rcases refused with ⟨reserved, rfl⟩ | ⟨_, _, ⟨again, rfl⟩ | ⟨_, _, ⟨zero, rfl⟩ | ⟨_, _,
    ⟨width, rfl⟩ | ⟨_, _, rect | ⟨_, _, ⟨pin, rfl⟩ | ⟨_, _, passed⟩⟩⟩⟩⟩⟩
  · exact ⟨rfl, by simpa using reserved⟩
  · exact ⟨rfl, by simpa using again⟩
  · exact ⟨rfl, rfl, by simpa using zero⟩
  · exact ⟨rfl, (F32.not_positive_iff _).mp width⟩
  · exact validateRect_error rect seen
  · rw [Bool.and_eq_true, Bool.or_eq_true, Bool.not_eq_true'] at pin
    exact ⟨rfl, pin⟩
  · cases passed

theorem validateSharedTree_error {index : Nat} {panes seen : List PaneId}
    {tree : SerializedTree PaneId}
    (refused : validateSharedTree index panes seen tree = .error error) :
    (∃ id, error = .treeLeafNotInWorkspace index id ∧ id ∈ tree.leaves ∧ id ∉ panes) ∨
      (∃ id, error = .duplicateTreeLeaf index id ∧ 2 ≤ (seen ++ tree.leaves).count id ∧
        id ∈ tree.leaves) ∨
      (error = .invalidTreeSplitRatio index ∧ ¬ tree.RatiosProper) := by
  induction tree generalizing seen with
  | leaf pane =>
      simp only [validateSharedTree, bind_eq_error, refuseIf_eq_error] at refused
      rcases refused with ⟨absent, rfl⟩ | ⟨_, _, ⟨again, rfl⟩ | ⟨_, _, passed⟩⟩
      · exact .inl ⟨pane, rfl, by simp [leaves], by simpa using absent⟩
      · have before : 0 < seen.count pane := List.count_pos_iff.mpr (by simpa using again)
        refine .inr (.inl ⟨pane, rfl, ?_, by simp [leaves]⟩)
        rw [List.count_append, leaves, List.count_singleton_self]
        omega
      · cases passed
  | split axis ratio first second hfirst hsecond =>
      simp only [validateSharedTree, bind_eq_error, refuseIf_eq_error] at refused
      rcases refused with ⟨ratio', rfl⟩ | ⟨_, _, before | ⟨carried, passed, behind⟩⟩
      · refine .inr (.inr ⟨rfl, fun proper => ?_⟩)
        rw [(invalidRatio_eq_false ratio).mpr proper.1] at ratio'
        cases ratio'
      · rcases hfirst before with ⟨id, rfl, listed, absent⟩ | ⟨id, rfl, twice, listed⟩ | ⟨rfl, bad⟩
        · exact .inl ⟨id, rfl, List.mem_append_left _ listed, absent⟩
        · refine .inr (.inl ⟨id, rfl, ?_, List.mem_append_left _ listed⟩)
          rw [leaves, ← List.append_assoc, List.count_append]
          omega
        · exact .inr (.inr ⟨rfl, fun proper => bad proper.2.1⟩)
      · have counted := ((validateSharedTree_iff index panes first seen carried).mp passed).2
        rw [counted] at behind
        rcases hsecond behind with ⟨id, rfl, listed, absent⟩ | ⟨id, rfl, twice, listed⟩ | ⟨rfl, bad⟩
        · exact .inl ⟨id, rfl, List.mem_append_right _ listed, absent⟩
        · refine .inr (.inl ⟨id, rfl, ?_, List.mem_append_right _ listed⟩)
          rwa [leaves, ← List.append_assoc]
        · exact .inr (.inr ⟨rfl, fun proper => bad proper.2.2⟩)

theorem validateTree_error {workspace : SharedWorkspace}
    (refused : validateTree workspace = .error error) : workspace.Refused error := by
  unfold validateTree at refused
  cases stored : workspace.tree with
  | none =>
      rw [stored] at refused
      cases refused
  | some tree =>
      rw [stored] at refused
      simp only [bind_eq_error] at refused
      rcases refused with tree' | ⟨_, _, passed⟩
      · rcases validateSharedTree_error tree' with ⟨id, rfl, listed, absent⟩ | ⟨id, rfl, twice, _⟩ |
          ⟨rfl, bad⟩
        · exact ⟨rfl, tree, stored, listed, absent⟩
        · exact ⟨rfl, tree, stored, by simpa using twice⟩
        · exact ⟨rfl, tree, stored, bad⟩
      · cases passed

theorem validateSplitRatios_error {workspace : SharedWorkspace}
    (refused : scan (validateSplitRatio workspace.index) () workspace.splitRatios =
      .error error) : workspace.Refused error := by
  have rounds : ∀ (seen : Unit) (ratio : F32) (result : Unit),
      validateSplitRatio workspace.index seen ratio = .ok result → result = () := fun _ _ _ _ => rfl
  rcases scan_eq_error rounds refused with ⟨front, ratio, back, split, bad⟩
  rw [validateSplitRatio, refuseIf_eq_error] at bad
  rcases bad with ⟨improper, rfl⟩
  refine ⟨rfl, ratio, by rw [split]; simp, fun proper => ?_⟩
  rw [(invalidRatio_eq_false ratio).mpr proper] at improper
  cases improper

theorem validatePanes_error {seen : List PaneId} {panes : List SharedPane}
    (refused : scan validatePane seen panes = .error error) :
    ∃ front pane back, panes = front ++ pane :: back ∧
      pane.Refused (seen ++ front.map SharedPane.paneId) error := by
  have rounds : ∀ (seen : List PaneId) (pane : SharedPane) (result : List PaneId),
      validatePane seen pane = .ok result → result = seen ++ [pane.paneId] :=
    fun seen pane result passed => ((validatePane_iff seen pane result).mp passed).2
  rcases scan_eq_error rounds refused with ⟨front, pane, back, split, bad⟩
  rw [seenPanes_after] at bad
  exact ⟨front, pane, back, split, validatePane_error bad⟩

theorem validateWorkspace_error {seen : List Nat × List PaneId} {workspace : SharedWorkspace}
    (refused : validateWorkspace seen workspace = .error error) :
    (error = .invalidWorkspaceIndex workspace.index ∧ workspaceCount ≤ workspace.index) ∨
      (error = .duplicateWorkspaceIndex workspace.index ∧ workspace.index ∈ seen.1) ∨
      (∃ front pane back, workspace.panes = front ++ pane :: back ∧
        pane.Refused (seen.2 ++ front.map SharedPane.paneId) error) ∨
      workspace.Refused error := by
  simp only [validateWorkspace, bind_eq_error, refuseIf_eq_error] at refused
  rcases refused with ⟨outside, rfl⟩ | ⟨_, _, ⟨again, rfl⟩ | ⟨_, _, panes | ⟨_, _, ratios |
    ⟨_, _, tree | ⟨_, _, passed⟩⟩⟩⟩⟩
  · exact .inl ⟨rfl, by simpa using outside⟩
  · exact .inr (.inl ⟨rfl, by simpa using again⟩)
  · exact .inr (.inr (.inl (validatePanes_error panes)))
  · exact .inr (.inr (.inr (validateSplitRatios_error ratios)))
  · exact .inr (.inr (.inr (validateTree_error tree)))
  · cases passed

section tells

variable {layout : SharedLayout} {front back : List SharedWorkspace} {workspace : SharedWorkspace}

theorem SharedWorkspace.Refused.tells (listed : workspace ∈ layout.workspaces)
    (refused : workspace.Refused error) : error.Tells layout := by
  cases error with
  | treeLeafNotInWorkspace index id => exact ⟨workspace, listed, refused⟩
  | duplicateTreeLeaf index id => exact ⟨workspace, listed, refused⟩
  | invalidSplitRatio index => exact ⟨workspace, listed, refused⟩
  | invalidTreeSplitRatio index => exact ⟨workspace, listed, refused⟩
  | _ => exact refused.elim

theorem SharedPane.Refused.tells (split : layout.workspaces = front ++ workspace :: back)
    {before after : List SharedPane} {pane : SharedPane}
    (split' : workspace.panes = before ++ pane :: after)
    (refused : pane.Refused (front.flatMap SharedWorkspace.paneIds ++
      before.map SharedPane.paneId) error) : error.Tells layout := by
  have listed : pane ∈ layout.panes := by
    refine List.mem_flatMap.mpr ⟨workspace, ?_, ?_⟩
    · rw [split]
      exact List.mem_append_right _ List.mem_cons_self
    · rw [split']
      exact List.mem_append_right _ List.mem_cons_self
  cases error with
  | reservedPaneId id =>
      rcases refused with ⟨rfl, reserved⟩
      exact ⟨List.mem_map_of_mem listed, reserved⟩
  | duplicatePaneId id =>
      rcases refused with ⟨rfl, again⟩
      have earlier := List.count_pos_iff.mpr again
      have ids : layout.paneIds = (front.flatMap SharedWorkspace.paneIds ++
          before.map SharedPane.paneId) ++ pane.paneId :: (after.map SharedPane.paneId ++
            back.flatMap SharedWorkspace.paneIds) := by
        rw [paneIds_eq_flatMap, split, List.flatMap_append, List.flatMap_cons,
          SharedWorkspace.paneIds, split', List.map_append, List.map_cons]
        simp only [List.append_assoc, List.cons_append]
      show 2 ≤ layout.paneIds.count pane.paneId
      rw [ids, List.count_append, List.count_cons_self]
      omega
  | missingFloatingRect id => exact ⟨pane, listed, refused⟩
  | invalidPin id => exact ⟨pane, listed, refused⟩
  | invalidFloatingRect id reason => exact ⟨pane, listed, refused⟩
  | invalidScrollableWidth id => exact ⟨pane, listed, refused⟩
  | invalidGeneration id generation => exact ⟨pane, listed, refused⟩
  | _ => exact refused.elim

theorem validate_error_tells (refused : layout.validate = .error error) : error.Tells layout := by
  simp only [SharedLayout.validate, bind_eq_error, refuseIf_eq_error] at refused
  rcases refused with ⟨version, rfl⟩ | ⟨_, _, ⟨canvas, rfl⟩ | ⟨_, _, ⟨geometry, rfl⟩ | ⟨_, _,
    workspaces | ⟨_, _, passed⟩⟩⟩⟩
  · exact ⟨rfl, by simpa using version⟩
  · rw [Bool.or_eq_true, beq_iff_eq, beq_iff_eq] at canvas
    exact canvas
  · exact geometry
  · have rounds : ∀ (seen : List Nat × List PaneId) (workspace : SharedWorkspace)
        (result : List Nat × List PaneId), validateWorkspace seen workspace = .ok result →
        result = (seen.1 ++ [workspace.index], seen.2 ++ workspace.paneIds) :=
      fun seen workspace result passed =>
        ((validateWorkspace_iff seen workspace result).mp passed).2
    rcases scan_eq_error rounds workspaces with ⟨front, workspace, back, split, bad⟩
    have listed : workspace ∈ layout.workspaces := by
      rw [split]
      exact List.mem_append_right _ List.mem_cons_self
    rw [seen_after, List.nil_append, List.nil_append] at bad
    rcases validateWorkspace_error bad with ⟨rfl, outside⟩ | ⟨rfl, again⟩ |
      ⟨before, pane, after, split', pane'⟩ | own
    · exact ⟨List.mem_map_of_mem listed, outside⟩
    · have earlier : 0 < (front.map SharedWorkspace.index).count workspace.index :=
        List.count_pos_iff.mpr again
      show 2 ≤ (layout.workspaces.map SharedWorkspace.index).count workspace.index
      rw [split, List.map_append, List.map_cons, List.count_append, List.count_cons_self]
      omega
    · exact pane'.tells split split'
    · exact own.tells listed
  · cases passed

theorem SharedPane.RectFault.not_sound {pane : SharedPane} {reason : String}
    (fault : pane.RectFault reason) : ¬ pane.RectSound := by
  intro sound
  unfold SharedPane.RectFault at fault
  unfold SharedPane.RectSound at sound
  by_cases floating : pane.floating = true
  · rw [if_pos floating] at fault sound
    rcases sound with ⟨rect, found, x, y, ⟨w, wide, _⟩, ⟨h, high, _⟩⟩
    rcases fault with ⟨_, same, fault⟩
    rw [found, Option.some.injEq] at same
    subst same
    rcases fault with ⟨_, infinite⟩ | ⟨_, flat⟩
    · exact infinite ⟨x, y, by rw [wide]; rfl, by rw [high]; rfl⟩
    · exact flat ⟨⟨w, wide, ‹_›⟩, ⟨h, high, ‹_›⟩⟩
  · rw [if_neg floating] at fault sound
    rw [sound] at fault
    cases fault.1

theorem SharedLayoutValidationError.Tells.not_valid (told : error.Tells layout) :
    ¬ layout.Valid := by
  intro valid
  have panes : ∀ pane ∈ layout.panes, pane.Valid := by
    intro pane member
    rcases List.mem_flatMap.mp member with ⟨workspace, listed, inside⟩
    exact (valid.workspaces workspace listed).panes pane inside
  have once : ∀ {ids : List Nat} {id : Nat}, ids.Nodup → ¬ 2 ≤ ids.count id :=
    fun distinct => Nat.not_le.mpr (Nat.lt_succ_of_le (List.nodup_iff_count_le_one.mp distinct _))
  cases error with
  | unsupportedVersion version => exact told.2 (told.1.symm.trans valid.version)
  | zeroCanvasDimensions =>
      rcases told with cols | rows
      · exact valid.canvas.1.ne' cols
      · exact valid.canvas.2.ne' rows
  | invalidPaneGeometry => exact Bool.false_ne_true (valid.geometry.symm.trans told)
  | duplicateWorkspaceIndex index => exact once valid.indexes told
  | invalidWorkspaceIndex index =>
      rcases told with ⟨listed, outside⟩
      rcases List.mem_map.mp listed with ⟨workspace, member, rfl⟩
      exact Nat.not_le.mpr (valid.workspaces workspace member).index outside
  | reservedPaneId id =>
      rcases told with ⟨listed, rfl⟩
      rcases List.mem_map.mp listed with ⟨pane, member, same⟩
      exact (panes pane member).unreserved same
  | duplicatePaneId id => exact once valid.ids told
  | treeLeafNotInWorkspace index id =>
      rcases told with ⟨workspace, member, _, tree, stored, listed, absent⟩
      exact absent (((valid.workspaces workspace member).tree tree stored).placed id listed)
  | duplicateTreeLeaf index id =>
      rcases told with ⟨workspace, member, _, tree, stored, twice⟩
      exact once ((valid.workspaces workspace member).tree tree stored).unique twice
  | invalidSplitRatio index =>
      rcases told with ⟨workspace, member, _, ratio, listed, improper⟩
      exact improper ((valid.workspaces workspace member).ratios ratio listed)
  | invalidTreeSplitRatio index =>
      rcases told with ⟨workspace, member, _, tree, stored, improper⟩
      exact improper ((valid.workspaces workspace member).tree tree stored).ratios
  | missingFloatingRect id =>
      rcases told with ⟨pane, member, _, floating, missing⟩
      have sound := (panes pane member).rect
      rw [SharedPane.RectSound, if_pos floating, missing] at sound
      rcases sound with ⟨_, found, _⟩
      cases found
  | invalidPin id =>
      rcases told with ⟨pane, member, _, pinned, tiled | full⟩
      · exact Bool.false_ne_true (tiled.symm.trans ((panes pane member).pin pinned).1)
      · exact Bool.false_ne_true (((panes pane member).pin pinned).2.symm.trans full)
  | invalidFloatingRect id reason =>
      rcases told with ⟨pane, member, _, fault⟩
      exact fault.not_sound (panes pane member).rect
  | invalidScrollableWidth id =>
      rcases told with ⟨pane, member, _, flat⟩
      exact flat (panes pane member).width
  | invalidGeneration id generation =>
      rcases told with ⟨pane, member, _, own, zero⟩
      exact (panes pane member).generation (own.trans zero)

/-- A document that is refused has the fault the error names, where the error places it, and a
document with any of these faults is refused. -/
theorem refusal_tells (layout : SharedLayout) :
    (∀ error, layout.validate = .error error → error.Tells layout) ∧
      ∀ error : SharedLayoutValidationError, error.Tells layout →
        ∃ other, layout.validate = .error other := by
  refine ⟨fun error refused => validate_error_tells refused, fun error told => ?_⟩
  cases validated : layout.validate with
  | ok passed => exact absurd ((layout.validate_iff passed).mp validated) told.not_valid
  | error other => exact ⟨other, rfl⟩

end tells

def placedTwice : SharedLayout where
  canvasCols := 80
  canvasRows := 24
  workspaces := [
    { index := 0, panes := [{ paneId := 5, generation := 1 }] },
    { index := 3, panes := [{ paneId := 4, generation := 1 }, { paneId := 5, generation := 2 }] }]

theorem refusal_tells_placedTwice :
    SharedLayoutValidationError.Tells placedTwice (.duplicatePaneId 5) ∧
      ∃ other, placedTwice.validate = .error other := by
  have told : SharedLayoutValidationError.Tells placedTwice (.duplicatePaneId 5) :=
    (refusal_tells placedTwice).1 _ (by decide +kernel)
  exact ⟨told, (refusal_tells placedTwice).2 _ told⟩

end Rozi
