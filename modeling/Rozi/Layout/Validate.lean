import Mathlib.Data.List.Induction
import Rozi.Layout.Shared

namespace Rozi

open SerializedTree Checks

theorem invalidRatio_eq_false (ratio : F32) : invalidRatio ratio = false ↔ ratio.Proper := by
  rw [← Bool.not_eq_true, invalidRatio, F32.not_proper_iff, not_not]

theorem validateRect_iff (pane : SharedPane) (result : Unit) :
    validateRect pane = .ok result ↔ pane.RectSound := by
  unfold validateRect SharedPane.RectSound
  by_cases floating : pane.floating
  · cases found : pane.rect with
    | none => simp [floating]
    | some rect =>
        have width := F32.not_positive_iff rect.w
        have height := F32.not_positive_iff rect.h
        simp only [floating, if_true, bind_eq_ok, refuseIf_eq_ok, Option.some.injEq,
          exists_eq_left', Bool.or_eq_false_iff, Bool.not_eq_false', exists_const]
        simp only [Bool.or_eq_true, Bool.not_eq_true'] at width height
        rw [← not_iff_not, not_or] at width height
        simp only [not_not, Bool.not_eq_true, Bool.not_eq_false] at width height
        rw [← width, ← height]
        tauto
  · simp [floating]

theorem validatePane_iff (seenPanes : List PaneId) (pane : SharedPane)
    (result : List PaneId) : validatePane seenPanes pane = .ok result ↔
      (pane.Valid ∧ pane.paneId ∉ seenPanes) ∧ result = seenPanes ++ [pane.paneId] := by
  have width := F32.not_positive_iff pane.scrollableWidth
  have widthSound : (!pane.scrollableWidth.isFinite ||
      pane.scrollableWidth.le (.finite 0)) = false ↔ pane.scrollableWidth.Positive := by
    rw [← Bool.not_eq_true, width, not_not]
  have pinSound : (pane.pinned && (!pane.floating || pane.fullscreen)) = false ↔
      (pane.pinned = true → pane.floating = true ∧ pane.fullscreen = false) := by
    cases pane.pinned <;> cases pane.floating <;> cases pane.fullscreen <;> simp
  simp only [validatePane, bind_eq_ok, refuseIf_eq_ok, pure_eq_ok, exists_const, widthSound,
    validateRect_iff, pinSound, beq_eq_false_iff_ne, ne_eq]
  constructor
  · rintro ⟨unreserved, fresh, generation, width, rect, pin, rfl⟩
    exact ⟨⟨⟨unreserved, generation, width, rect, pin⟩, by simpa using fresh⟩, rfl⟩
  · rintro ⟨⟨valid, fresh⟩, rfl⟩
    exact ⟨valid.unreserved, by simpa using fresh, valid.generation, valid.width, valid.rect,
      valid.pin, rfl⟩

theorem seenPanes_after (front : List SharedPane) (seen : List PaneId) :
    front.foldl (fun seen pane => seen ++ [pane.paneId]) seen =
      seen ++ front.map SharedPane.paneId := by
  induction front generalizing seen with
  | nil => simp
  | cons head rest ih => simp [ih]

theorem validatePanes_iff (seenPanes : List PaneId) (panes : List SharedPane)
    (result : List PaneId) : scan validatePane seenPanes panes = .ok result ↔
      ((∀ pane ∈ panes, pane.Valid) ∧ (panes.map SharedPane.paneId).Nodup ∧
        ∀ pane ∈ panes, pane.paneId ∉ seenPanes) ∧
      result = seenPanes ++ panes.map SharedPane.paneId := by
  rw [scan_eq_ok validatePane (fun seen pane => seen ++ [pane.paneId])
    (fun seen pane => pane.Valid ∧ pane.paneId ∉ seen) validatePane_iff, seenPanes_after,
    ← fresh_iff SharedPane.paneId]
  refine and_congr_left fun _ => ?_
  constructor
  · intro all
    refine ⟨?_, fun front pane back split => seenPanes_after front seenPanes ▸
      (all front pane back split).2⟩
    intro pane member
    obtain ⟨front, back, split⟩ := List.append_of_mem member
    exact (all front pane back split).1
  · rintro ⟨valid, fresh⟩ front pane back split
    refine ⟨valid pane (by simp [split]), ?_⟩
    rw [seenPanes_after]
    exact fresh front pane back split

theorem validateSharedTree_iff (workspace : Nat) (panes : List PaneId)
    (tree : SerializedTree PaneId) (seenLeaves result : List PaneId) :
    validateSharedTree workspace panes seenLeaves tree = .ok result ↔
      (tree.RatiosProper ∧ (∀ id ∈ tree.leaves, id ∈ panes) ∧ tree.leaves.Nodup ∧
        ∀ id ∈ tree.leaves, id ∉ seenLeaves) ∧ result = seenLeaves ++ tree.leaves := by
  induction tree generalizing seenLeaves result with
  | leaf pane =>
      simp only [validateSharedTree, bind_eq_ok, refuseIf_eq_ok, pure_eq_ok, exists_const, leaves,
        RatiosProper, List.mem_singleton, forall_eq, List.nodup_singleton, true_and,
        Bool.not_eq_false', List.contains_eq_mem, decide_eq_false_iff_not, decide_eq_true_eq]
      rw [and_assoc, @eq_comm _ _ result]
  | split axis ratio first second hfirst hsecond =>
      simp only [validateSharedTree, bind_eq_ok, refuseIf_eq_ok, invalidRatio_eq_false,
        exists_const, hfirst, hsecond, leaves, RatiosProper, List.mem_append,
        List.nodup_append]
      constructor
      · rintro ⟨proper, _, ⟨⟨ratios, placed, unique, fresh⟩, rfl⟩,
          ⟨ratios', placed', unique', fresh'⟩, rfl⟩
        refine ⟨⟨⟨proper, ratios, ratios'⟩, ?_, ⟨unique, unique', ?_⟩, ?_⟩, by simp⟩
        · rintro id (member | member)
          · exact placed id member
          · exact placed' id member
        · rintro id member other member' rfl
          exact fresh' id member' (by simp [member])
        · rintro id (member | member)
          · exact fresh id member
          · exact fun old => fresh' id member (by simp [old])
      · rintro ⟨⟨⟨proper, ratios, ratios'⟩, placed, ⟨unique, unique', apart⟩, fresh⟩, rfl⟩
        refine ⟨proper, seenLeaves ++ first.leaves, ⟨⟨ratios, ?_, unique, ?_⟩, rfl⟩,
          ⟨ratios', ?_, unique', ?_⟩, by simp⟩
        · exact fun id member => placed id (.inl member)
        · exact fun id member => fresh id (.inl member)
        · exact fun id member => placed id (.inr member)
        · intro id member old
          rcases List.mem_append.mp old with old | old
          · exact fresh id (.inr member) old
          · exact apart id old id member rfl

theorem validateSplitRatios_iff (workspace : Nat) (ratios : List F32) (result : Unit) :
    scan (validateSplitRatio workspace) () ratios = .ok result ↔
      ∀ ratio ∈ ratios, ratio.Proper := by
  rw [scan_eq_ok (validateSplitRatio workspace) (fun _ _ => ()) (fun _ ratio => ratio.Proper)
    (fun _ ratio _ => by simp [validateSplitRatio, invalidRatio_eq_false])]
  constructor
  · rintro ⟨all, _⟩ ratio member
    obtain ⟨front, back, split⟩ := List.append_of_mem member
    exact all front ratio back split
  · exact fun all => ⟨fun front ratio back split => all ratio (by simp [split]), rfl⟩

theorem validateTree_iff (workspace : SharedWorkspace) (result : Unit) :
    validateTree workspace = .ok result ↔
      ∀ tree ∈ workspace.tree, TreeValid workspace.paneIds tree := by
  unfold validateTree
  cases workspace.tree with
  | none => simp
  | some tree =>
      simp only [bind_eq_ok, validateSharedTree_iff, Option.mem_def, Option.some.injEq, forall_eq']
      constructor
      · rintro ⟨_, ⟨⟨ratios, placed, unique, _⟩, _⟩, _⟩
        exact ⟨ratios, unique, placed⟩
      · exact fun valid => ⟨_, ⟨⟨valid.ratios, valid.placed, valid.unique, by simp⟩, rfl⟩, rfl⟩

theorem validateWorkspace_iff (seen : List Nat × List PaneId) (workspace : SharedWorkspace)
    (result : List Nat × List PaneId) : validateWorkspace seen workspace = .ok result ↔
      (workspace.Valid ∧ workspace.index ∉ seen.1 ∧ workspace.paneIds.Nodup ∧
        ∀ id ∈ workspace.paneIds, id ∉ seen.2) ∧
      result = (seen.1 ++ [workspace.index], seen.2 ++ workspace.paneIds) := by
  simp only [validateWorkspace, bind_eq_ok, refuseIf_eq_ok, validatePanes_iff, pure_eq_ok,
    validateSplitRatios_iff, validateTree_iff, exists_const, decide_eq_false_iff_not, not_le,
    List.contains_eq_mem]
  constructor
  · rintro ⟨index, fresh, _, ⟨⟨panes, distinct, apart⟩, rfl⟩, ratios, tree, rfl⟩
    exact ⟨⟨⟨index, panes, ratios, tree⟩, fresh, distinct, by simpa [SharedWorkspace.paneIds]⟩,
      rfl⟩
  · rintro ⟨⟨valid, fresh, distinct, apart⟩, rfl⟩
    exact ⟨valid.index, fresh, _, ⟨⟨valid.panes, distinct, by
      simpa [SharedWorkspace.paneIds] using apart⟩, rfl⟩, valid.ratios, valid.tree, rfl⟩

theorem paneIds_eq_flatMap (layout : SharedLayout) :
    layout.paneIds = layout.workspaces.flatMap SharedWorkspace.paneIds := by
  rw [SharedLayout.paneIds, SharedLayout.panes, List.map_flatMap]
  rfl

theorem seen_after (front : List SharedWorkspace) (seen : List Nat × List PaneId) :
    front.foldl (fun seen workspace =>
        (seen.1 ++ [workspace.index], seen.2 ++ workspace.paneIds)) seen =
      (seen.1 ++ front.map SharedWorkspace.index,
        seen.2 ++ front.flatMap SharedWorkspace.paneIds) := by
  induction front generalizing seen with
  | nil => simp
  | cons head rest ih => simp [ih]

theorem paneIds_nodup_iff (workspaces : List SharedWorkspace) :
    (workspaces.flatMap SharedWorkspace.paneIds).Nodup ↔
      ∀ (front : List SharedWorkspace) (workspace : SharedWorkspace) (back : List SharedWorkspace),
        workspaces = front ++ workspace :: back →
        workspace.paneIds.Nodup ∧
          ∀ id ∈ workspace.paneIds, id ∉ front.flatMap SharedWorkspace.paneIds := by
  constructor
  · rintro unique front workspace back rfl
    rw [List.flatMap_append, List.flatMap_cons, List.nodup_append, List.nodup_append] at unique
    obtain ⟨_, ⟨own, _⟩, apart⟩ := unique
    exact ⟨own, fun id member old => apart id old id (by simp [member]) rfl⟩
  · intro all
    induction workspaces using List.reverseRecOn with
    | nil => simp
    | append_singleton front workspace ih =>
        have last := all front workspace [] rfl
        have before := ih fun head item back split => all head item (back ++ [workspace])
          (by rw [split]; simp)
        rw [List.flatMap_append, List.nodup_append]
        refine ⟨before, by simpa using last.1, ?_⟩
        rintro id old other member rfl
        exact last.2 id (by simpa using member) old

theorem SharedLayout.validate_iff (layout : SharedLayout) (result : Unit) :
    layout.validate = .ok result ↔ layout.Valid := by
  simp only [SharedLayout.validate, bind_eq_ok, refuseIf_eq_ok, exists_const, pure_eq_ok,
    scan_eq_ok validateWorkspace _ _ validateWorkspace_iff, seen_after, List.nil_append]
  constructor
  · rintro ⟨version, canvas, geometry, _, ⟨all, _⟩, _⟩
    simp only [bne_eq_false_iff_eq] at version
    simp only [Bool.or_eq_false_iff, beq_eq_false_iff_ne] at canvas
    refine ⟨version, ⟨by omega, by omega⟩, geometry, ?_, ?_, ?_⟩
    · intro workspace member
      obtain ⟨front, back, split⟩ := List.append_of_mem member
      exact (all front workspace back split).1
    · refine ((fresh_iff SharedWorkspace.index [] layout.workspaces).mp ?_).1
      exact fun front workspace back split => (all front workspace back split).2.1
    · rw [paneIds_eq_flatMap, paneIds_nodup_iff]
      exact fun front workspace back split => (all front workspace back split).2.2
  · intro valid
    have indexes := (fresh_iff SharedWorkspace.index [] layout.workspaces).mpr
      ⟨valid.indexes, by simp⟩
    have ids := (paneIds_nodup_iff _).mp (paneIds_eq_flatMap layout ▸ valid.ids)
    refine ⟨by simpa using valid.version, ?_, valid.geometry, _, ⟨?_, rfl⟩, trivial⟩
    · obtain ⟨cols, rows⟩ := valid.canvas
      simp only [Bool.or_eq_false_iff, beq_eq_false_iff_ne]
      omega
    · intro front workspace back split
      exact ⟨valid.workspaces workspace (by simp [split]), indexes front workspace back split,
        ids front workspace back split⟩

theorem SharedLayout.validate_isOk {layout : SharedLayout} :
    layout.validate.isOk = true ↔ layout.Valid := by
  rw [← SharedLayout.validate_iff layout ()]
  cases layout.validate with
  | ok _ => simp [Except.isOk, Except.toBool]
  | error _ => simp [Except.isOk, Except.toBool]

end Rozi
