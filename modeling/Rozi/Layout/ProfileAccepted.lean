import Mathlib.Data.List.ReduceOption
import Rozi.Layout.EditRun
import Rozi.Layout.ProfileSeed
import Rozi.Layout.TreeRatios

/-!
When the layout a profile describes is one the session accepts.
-/

namespace Rozi

open SerializedTree

/-! The generations `spawn_state_panes_on_session` gives. -/

def nextGenerationAfter (generation : Nat) : Nat := min (generation + 1) (2 ^ 64 - 1)

def spawnPanes : Nat → List Pane → List Pane × Nat
  | next, [] => ([], next)
  | next, pane :: rest =>
      if pane.closing then
        let spawned := spawnPanes next rest
        (pane :: spawned.1, spawned.2)
      else
        let spawned := spawnPanes (nextGenerationAfter next) rest
        ({ pane with ptyGeneration := next } :: spawned.1, spawned.2)

def spawnWorkspaces : Nat → List Workspace → List Workspace
  | _, [] => []
  | next, workspace :: rest =>
      let spawned := spawnPanes next workspace.panes
      { workspace with panes := spawned.1 } :: spawnWorkspaces spawned.2 rest

def Attachment.spawned (next : Nat) (attachment : Attachment) : Attachment :=
  { attachment with workspaces := spawnWorkspaces next attachment.workspaces }

/-! What the session asks of a layout, and when that of a profile is such a one. -/

structure Attachment.Accepted (arith : Arithmetic) (geometry : SharedPaneGeometry)
    (cols rows next : Nat) (attachment : Attachment) : Prop where
  distinct : (attachment.workspaces.flatMap Workspace.paneIds).Nodup
  below : ∀ id ∈ attachment.workspaces.flatMap Workspace.paneIds, id < attachment.nextPaneId
  focused : ∀ workspace ∈ attachment.workspaces, ∀ id ∈ workspace.focusedPane,
    id ∈ workspace.paneIds
  leaves : ∀ workspace ∈ attachment.workspaces, ∀ id ∈ leavesOf workspace.tileTree,
    id ∈ workspace.paneIds
  validates : (sharedLayoutFromState arith geometry (attachment.spawned next) none cols
    rows).validate = .ok ()

/-- The tiled panes among those a tree may name; of several with one id the last is meant. -/
def WorkspaceProfile.tiles (entry : WorkspaceProfile) (leaf : PaneId) : Bool :=
  ((AList.collect (entry.panes.map fun pane => (pane.id, pane.floating))).lookup leaf) == some false

/-- For each id that is asked for, one more than it and the panes behind it that ask for none. -/
def risen : List (Option PaneId) → List PaneId
  | [] => []
  | none :: rest => risen rest
  | some id :: rest => (id + 1 + rest.count none) :: risen rest

/-- The id due behind `front` to a pane that asks for none, when `next` was due at its start: above
every id asked for there, and above all the panes there that ask for none. -/
def dueFrom (next : PaneId) (front : List (Option PaneId)) : PaneId :=
  (risen front).foldr max (next + front.count none)

/-- The entries whose ids are free: none is asked for twice or reserved, and the id due to a pane that
asks for none is neither reserved nor asked for behind it. -/
structure FreeIds (next : PaneId) (wanted : List (Option PaneId)) : Prop where
  distinct : wanted.reduceOption.Nodup
  unreserved : ∀ id, some id ∈ wanted → id < popupPaneId
  due : ∀ place, wanted[place]? = some none →
    dueFrom next (wanted.take place) < popupPaneId ∧
      some (dueFrom next (wanted.take place)) ∉ wanted.drop (place + 1)

/-- A float with a finite corner and positive sides, also when divided by a canvas of at least one
cell. -/
structure FloatRect.Fits (arith : Arithmetic) (cols rows : Nat) (rect : FloatRect) : Prop where
  x : (arith.div rect.x (arith.ofNat (max cols 1))).isFinite = true
  y : (arith.div rect.y (arith.ofNat (max rows 1))).isFinite = true
  w : (arith.div rect.w (arith.ofNat (max cols 1))).Positive
  h : (arith.div rect.h (arith.ofNat (max rows 1))).Positive

/-- A profile that asks for free ids, gives floats a proper size, and splits properly; of a tree, as
far as it is used. -/
structure Profile.Acceptable (arith : Arithmetic) (cols rows : Nat) (profile : Profile) : Prop where
  ids : FreeIds 1 profile.wanted
  rects : ∀ entry ∈ profile.placed, ∀ pane ∈ entry.panes, pane.floating = true →
    (pane.rect.getD ProfileRect.standard).Fits arith cols rows
  ratios : ∀ index, ∀ entry ∈ ((entriesOf index profile.workspaces).filter fun entry =>
    !entry.splitRatios.isEmpty).getLast?, ∀ ratio ∈ entry.splitRatios, ratio.Proper
  trees : ∀ index, ∀ entry ∈ (entriesOf index profile.workspaces).getLast?, ∀ tree ∈ entry.tree,
    (∀ leaf ∈ tree.leaves, leaf ∈ entry.panes.map PaneProfile.id) →
      (tree.leaves.filter entry.tiles).Nodup ∧ tree.RatiosProperWhere entry.tiles

section ids

variable {next : PaneId} {wanted : List (Option PaneId)}

theorem dueFrom_none (front : List (Option PaneId)) :
    dueFrom next (none :: front) = dueFrom (next + 1) front := by
  simp only [dueFrom, risen, List.count_cons_self]
  rw [Nat.add_right_comm, Nat.add_assoc]

theorem max_foldr_max (ids : List PaneId) (first second : PaneId) :
    max first (ids.foldr max second) = ids.foldr max (max first second) := by
  induction ids with
  | nil => rfl
  | cons id ids ih => rw [List.foldr_cons, List.foldr_cons, max_left_comm, ih]

theorem dueFrom_some (id : PaneId) (front : List (Option PaneId)) :
    dueFrom next (some id :: front) = dueFrom (max next (id + 1)) front := by
  have uncounted : (some id :: front).count none = front.count none := by simp
  simp only [dueFrom, risen, List.foldr_cons, uncounted]
  rw [max_foldr_max, max_comm, ← Nat.add_max_add_right]

theorem mem_idsFrom {id : PaneId} (member : id ∈ idsFrom next wanted) :
    some id ∈ wanted ∨ next ≤ id := by
  induction wanted generalizing next with
  | nil => cases member
  | cons first rest ih =>
      rcases List.mem_cons.mp member with rfl | later
      · cases first with
        | none => exact .inr le_rfl
        | some _ => exact .inl List.mem_cons_self
      · rcases ih later with asked | above
        · exact .inl (List.mem_cons_of_mem _ asked)
        · exact .inr ((le_max_left _ _).trans above)

theorem asked_mem_idsFrom {id : PaneId} (asked : some id ∈ wanted) : id ∈ idsFrom next wanted := by
  induction wanted generalizing next with
  | nil => cases asked
  | cons first rest ih =>
      rcases List.mem_cons.mp asked with rfl | later
      · exact List.mem_cons_self
      · exact List.mem_cons_of_mem _ (ih later)

theorem freeIds_none {rest : List (Option PaneId)} : FreeIds next (none :: rest) ↔
    next < popupPaneId ∧ some next ∉ rest ∧ FreeIds (next + 1) rest := by
  constructor
  · intro free
    have first := free.due 0 rfl
    refine ⟨first.1, first.2, free.distinct, ?_, ?_⟩
    · exact fun id asked => free.unreserved id (List.mem_cons_of_mem _ asked)
    · intro place unasked
      have due := free.due (place + 1) unasked
      rwa [List.take_succ_cons, dueFrom_none] at due
  · rintro ⟨below, unasked, free⟩
    refine ⟨free.distinct, ?_, ?_⟩
    · intro id asked
      rcases List.mem_cons.mp asked with none | later
      · cases none
      · exact free.unreserved id later
    · intro place unnamed
      cases place with
      | zero => exact ⟨below, unasked⟩
      | succ place =>
          rw [List.take_succ_cons, dueFrom_none]
          exact free.due place unnamed

theorem freeIds_some {id : PaneId} {rest : List (Option PaneId)} :
    FreeIds next (some id :: rest) ↔
      id < popupPaneId ∧ some id ∉ rest ∧ FreeIds (max next (id + 1)) rest := by
  have listed : id ∈ rest.reduceOption ↔ some id ∈ rest := List.reduceOption_mem_iff
  constructor
  · intro free
    have distinct := free.distinct
    rw [List.reduceOption_cons_of_some, List.nodup_cons, listed] at distinct
    refine ⟨free.unreserved id List.mem_cons_self, distinct.1, distinct.2, ?_, ?_⟩
    · exact fun id asked => free.unreserved id (List.mem_cons_of_mem _ asked)
    · intro place unasked
      have due := free.due (place + 1) unasked
      rwa [List.take_succ_cons, dueFrom_some] at due
  · rintro ⟨below, unasked, free⟩
    refine ⟨?_, ?_, ?_⟩
    · rw [List.reduceOption_cons_of_some, List.nodup_cons, listed]
      exact ⟨unasked, free.distinct⟩
    · intro other asked
      rcases List.mem_cons.mp asked with same | later
      · cases same
        exact below
      · exact free.unreserved other later
    · intro place unnamed
      cases place with
      | zero => cases unnamed
      | succ place =>
          rw [List.take_succ_cons, dueFrom_some]
          exact free.due place unnamed

/-- Panes get distinct ids below the reserved one just when the ids asked for leave them free. -/
theorem idsFrom_distinct_iff :
    ((idsFrom next wanted).Nodup ∧ ∀ id ∈ idsFrom next wanted, id < popupPaneId) ↔
      FreeIds next wanted := by
  induction wanted generalizing next with
  | nil =>
      have none' : ∀ id ∈ idsFrom next [], id < popupPaneId := fun id held => by cases held
      have free : FreeIds next [] := by
        refine ⟨List.nodup_nil, ?_, ?_⟩
        · rintro id ⟨⟩
        · rintro place ⟨⟩
      exact iff_of_true ⟨List.nodup_nil, none'⟩ free
  | cons first rest ih =>
      -- What is due next is above the id this pane got, so only an id asked for may be that again.
      have apart : first.getD next ∉ idsFrom (max next (first.getD next + 1)) rest ↔
          some (first.getD next) ∉ rest := by
        refine not_congr ⟨fun member => ?_, asked_mem_idsFrom⟩
        rcases mem_idsFrom member with asked | above
        · exact asked
        · exact absurd ((le_max_right _ _).trans above) (Nat.not_succ_le_self _)
      have step : first.getD next < popupPaneId →
          max next (nextPaneIdAfter (first.getD next)) = max next (first.getD next + 1) := by
        intro below
        rw [nextPaneIdAfter, min_eq_left below]
      have split : ((idsFrom next (first :: rest)).Nodup ∧
          ∀ id ∈ idsFrom next (first :: rest), id < popupPaneId) ↔
            first.getD next < popupPaneId ∧ some (first.getD next) ∉ rest ∧
              FreeIds (max next (first.getD next + 1)) rest := by
        rw [idsFrom, List.nodup_cons, List.forall_mem_cons, ← ih]
        constructor
        · rintro ⟨⟨fresh, distinct⟩, below, others⟩
          rw [step below] at fresh distinct others
          exact ⟨below, apart.mp fresh, distinct, others⟩
        · rintro ⟨below, unasked, distinct, others⟩
          rw [step below]
          exact ⟨⟨apart.mpr unasked, distinct⟩, below, others⟩
      rw [split]
      cases first with
      | none =>
          rw [freeIds_none]
          simp only [Option.getD_none]
          rw [max_eq_right (Nat.le_succ next)]
      | some id => exact freeIds_some.symm

end ids

section spawned

structure Workspace.Spawned (workspace spawned : Workspace) : Prop where
  panes : List.Forall₂ (fun pane spawned : Pane => ∃ generation,
    (pane.closing = false → 0 < generation) ∧
      spawned = { pane with ptyGeneration := generation }) workspace.panes spawned.panes
  same : spawned = { workspace with panes := spawned.panes }

theorem spawnPanes_spawned {next : Nat} (positive : 0 < next) (panes : List Pane) :
    List.Forall₂ (fun pane spawned : Pane => ∃ generation,
      (pane.closing = false → 0 < generation) ∧
        spawned = { pane with ptyGeneration := generation }) panes (spawnPanes next panes).1 ∧
      0 < (spawnPanes next panes).2 := by
  induction panes generalizing next with
  | nil => exact ⟨.nil, positive⟩
  | cons pane rest ih =>
      rw [spawnPanes]
      split_ifs with closing
      · refine ⟨.cons ⟨pane.ptyGeneration, ?_, rfl⟩ (ih positive).1, (ih positive).2⟩
        intro live
        rw [closing] at live
        cases live
      · have later : 0 < nextGenerationAfter next := lt_min (Nat.succ_pos _) (by norm_num)
        exact ⟨.cons ⟨next, fun _ => positive, rfl⟩ (ih later).1, (ih later).2⟩

theorem spawnWorkspaces_spawned {next : Nat} (positive : 0 < next) (workspaces : List Workspace) :
    List.Forall₂ Workspace.Spawned workspaces (spawnWorkspaces next workspaces) := by
  induction workspaces generalizing next with
  | nil => exact .nil
  | cons workspace rest ih =>
      rcases spawnPanes_spawned positive workspace.panes with ⟨panes, later⟩
      exact .cons ⟨panes, rfl⟩ (ih later)

variable {workspace spawned : Workspace}

theorem Workspace.Spawned.view {β : Type} (given : workspace.Spawned spawned) (view : Pane → β)
    (same : ∀ pane generation, view { pane with ptyGeneration := generation } = view pane)
    (test : Pane → Bool)
    (same' : ∀ pane generation, test { pane with ptyGeneration := generation } = test pane) :
    (spawned.panes.filter test).map view = (workspace.panes.filter test).map view := by
  have panes := given.panes
  generalize workspace.panes = before at panes ⊢
  generalize spawned.panes = after at panes ⊢
  induction panes with
  | nil => rfl
  | cons head _ ih =>
      rcases head with ⟨generation, _, rfl⟩
      rw [List.filter_cons, List.filter_cons, same']
      split_ifs
      · rw [List.map_cons, List.map_cons, same, ih]
      · exact ih

theorem Workspace.Spawned.activeTiledIds (given : workspace.Spawned spawned) :
    spawned.activeTiledIds = workspace.activeTiledIds :=
  given.view Pane.id (fun _ _ => rfl) _ fun _ _ => rfl

theorem Workspace.Spawned.liveIds (given : workspace.Spawned spawned) :
    spawned.livePanes.map Pane.id = workspace.livePanes.map Pane.id :=
  given.view Pane.id (fun _ _ => rfl) _ fun _ _ => rfl

theorem Workspace.Spawned.effectiveTileTree (given : workspace.Spawned spawned) :
    spawned.effectiveTileTree = workspace.effectiveTileTree := by
  have tiled := given.activeTiledIds
  have same := given.same
  unfold Workspace.effectiveTileTree TileSource.effectiveTileTree
  show Rozi.effectiveTileTree spawned.activeTiledIds spawned.tileTree spawned.startAxis
    spawned.splitRatios none = Rozi.effectiveTileTree workspace.activeTiledIds workspace.tileTree
      workspace.startAxis workspace.splitRatios none
  rw [tiled, same]

theorem forall₂_all_iff {α β : Type} {related : α → β → Prop} {items : List α} {others : List β}
    (corresponds : List.Forall₂ related items others) {p : α → Prop} {q : β → Prop}
    (alike : ∀ item other, related item other → (p item ↔ q other)) :
    (∀ item ∈ items, p item) ↔ ∀ other ∈ others, q other := by
  induction corresponds with
  | nil => simp
  | cons head _ ih => rw [List.forall_mem_cons, List.forall_mem_cons, alike _ _ head, ih]

structure Pane.Fit (arith : Arithmetic) (cols rows : Nat) (pane : Pane) : Prop where
  unreserved : pane.id ≠ popupPaneId
  rect : pane.floating = true → pane.floatingRect.Fits arith cols rows
  pin : pane.pinned = true → pane.floating = true ∧ pane.fullscreen = false

theorem sanitizeScrollableWidth_positive (width : F32) :
    (sanitizeScrollableWidth width).Positive := by
  have ordered : minSplitRatio ≤ maxSplitRatio := by norm_num [minSplitRatio, maxSplitRatio]
  have low : 0 < minSplitRatio := by norm_num [minSplitRatio]
  cases width with
  | finite value => exact ⟨_, F32.clamp_finite value ordered, lt_of_lt_of_le low (le_max_left _ _)⟩
  | posInfinity => exact defaultScrollableWidth_positive
  | negInfinity => exact defaultScrollableWidth_positive
  | nan => exact defaultScrollableWidth_positive

variable (arith : Arithmetic) (cols rows : Nat)

theorem sharedPane_valid_iff {pane : Pane} {generation : Nat} (positive : 0 < generation) :
    (sharedPaneFromState arith (max cols 1) (max rows 1)
      { pane with ptyGeneration := generation }).Valid ↔ pane.Fit arith cols rows := by
  have rect : (sharedPaneFromState arith (max cols 1) (max rows 1)
      { pane with ptyGeneration := generation }).RectSound ↔
        (pane.floating = true → pane.floatingRect.Fits arith cols rows) := by
    unfold SharedPane.RectSound sharedPaneFromState floatRectToFrac
    by_cases floating : pane.floating = true
    · simp only [floating, if_true, Option.some.injEq, exists_eq_left', true_imp_iff,
        max_eq_left (le_max_right cols 1), max_eq_left (le_max_right rows 1)]
      constructor
      · rintro ⟨x, y, w, h⟩
        exact ⟨x, y, w, h⟩
      · rintro ⟨x, y, w, h⟩
        exact ⟨x, y, w, h⟩
    · simp [floating]
  constructor
  · intro valid
    exact ⟨valid.unreserved, rect.mp valid.rect, valid.pin⟩
  · intro fit
    exact ⟨fit.unreserved, Nat.pos_iff_ne_zero.mp positive, sanitizeScrollableWidth_positive _,
      rect.mpr fit.rect, fit.pin⟩

structure Workspace.Fit (arith : Arithmetic) (cols rows : Nat) (workspace : Workspace) :
    Prop where
  panes : ∀ pane ∈ workspace.panes, pane.Fit arith cols rows
  ratios : ∀ ratio ∈ workspace.splitRatios, ratio.Proper
  tree : ∀ tree ∈ workspace.effectiveTileTree, TreeValid workspace.paneIds tree

theorem livePanes_all {workspace : Workspace}
    (live : ∀ pane ∈ workspace.panes, pane.closing = false) :
    workspace.livePanes = workspace.panes :=
  List.filter_eq_self.mpr fun pane member => by rw [live pane member]; rfl

theorem Workspace.Spawned.live (given : workspace.Spawned spawned)
    (live : ∀ pane ∈ workspace.panes, pane.closing = false) :
    ∀ pane ∈ spawned.panes, pane.closing = false := by
  refine (forall₂_all_iff given.panes ?_).mp live
  rintro pane _ ⟨generation, _, rfl⟩
  exact Iff.rfl

theorem projected_valid_iff (given : workspace.Spawned spawned)
    (live : ∀ pane ∈ workspace.panes, pane.closing = false) {index : Nat}
    (inside : index < workspaceCount) :
    (sharedWorkspaceFromState arith index spawned (max cols 1) (max rows 1)).Valid ↔
      workspace.Fit arith cols rows := by
  have ids : (sharedWorkspaceFromState arith index spawned (max cols 1) (max rows 1)).paneIds =
      workspace.paneIds := by
    rw [projected_paneIds, given.liveIds, livePanes_all live]
    rfl
  have tree : (sharedWorkspaceFromState arith index spawned (max cols 1) (max rows 1)).tree =
      workspace.effectiveTileTree := by
    rw [projected_tree, given.effectiveTileTree]
  have panes : (∀ pane ∈ (sharedWorkspaceFromState arith index spawned (max cols 1)
      (max rows 1)).panes, pane.Valid) ↔ ∀ pane ∈ workspace.panes, pane.Fit arith cols rows := by
    have both := (List.forall₂_and_left _ _).mpr ⟨live, given.panes⟩
    have listed : (sharedWorkspaceFromState arith index spawned (max cols 1) (max rows 1)).panes =
        spawned.panes.map (sharedPaneFromState arith (max cols 1) (max rows 1)) :=
      congrArg (List.map _) (livePanes_all (given.live live))
    rw [listed, List.forall_mem_map]
    symm
    refine forall₂_all_iff both ?_
    rintro pane _ ⟨open', generation, positive, rfl⟩
    exact (sharedPane_valid_iff arith cols rows (positive open')).symm
  have ratios : (sharedWorkspaceFromState arith index spawned (max cols 1)
      (max rows 1)).splitRatios = workspace.splitRatios := by
    show spawned.splitRatios = _
    rw [given.same]
  constructor
  · intro valid
    exact ⟨panes.mp valid.panes, ratios ▸ valid.ratios, ids ▸ tree ▸ valid.tree⟩
  · intro fit
    exact ⟨inside, panes.mpr fit.panes, ratios ▸ fit.ratios, by rw [ids, tree]; exact fit.tree⟩

end spawned

theorem mapIdx_flatMap {α β γ : Type} {change : Nat → α → β} {view : β → List γ}
    {plain : α → List γ} (same : ∀ index item, view (change index item) = plain item)
    (items : List α) : (items.mapIdx change).flatMap view = items.flatMap plain := by
  induction items generalizing change with
  | nil => rfl
  | cons item items ih =>
      rw [List.mapIdx_cons, List.flatMap_cons, List.flatMap_cons, same,
        ih fun index => same (index + 1)]

abbrev AllSpawned (before after : List Workspace) : Prop :=
  List.Forall₂ (fun workspace spawned : Workspace =>
    (∀ pane ∈ workspace.panes, pane.closing = false) ∧ workspace.Spawned spawned) before after

theorem spawned_liveIds {before after : List Workspace} (both : AllSpawned before after) :
    after.flatMap (fun workspace => workspace.livePanes.map Pane.id) =
      before.flatMap Workspace.paneIds := by
  induction both with
  | nil => rfl
  | cons head _ ih =>
      rw [List.flatMap_cons, List.flatMap_cons, ih, head.2.liveIds, livePanes_all head.1]
      rfl

theorem projected_all_iff (arith : Arithmetic) (cols rows : Nat) {before after : List Workspace}
    (both : AllSpawned before after) {first : Nat}
    (inside : first + after.length ≤ workspaceCount) :
    (∀ shared ∈ after.mapIdx fun index workspace => sharedWorkspaceFromState arith (first + index)
        workspace (max cols 1) (max rows 1), shared.Valid) ↔
      ∀ workspace ∈ before, workspace.Fit arith cols rows := by
  induction both generalizing first with
  | nil => simp
  | cons head _ ih =>
      rw [List.length_cons] at inside
      have here := projected_valid_iff arith cols rows head.2 head.1
        (show first < workspaceCount by omega)
      have rest := @ih (first + 1) (by omega)
      rw [List.mapIdx_cons, List.forall_mem_cons, List.forall_mem_cons, Nat.add_zero, here, ← rest]
      simp only [Nat.add_assoc, Nat.add_comm 1]

theorem validates_iff (arith : Arithmetic) (cols rows : Nat) {attachment : Attachment}
    {geometry : SharedPaneGeometry} {next : Nat} (positive : 0 < next) (proper : geometry.invalid = false)
    (nine : attachment.workspaces.length = workspaceCount)
    (live : ∀ workspace ∈ attachment.workspaces, ∀ pane ∈ workspace.panes,
      pane.closing = false) :
    (sharedLayoutFromState arith geometry (attachment.spawned next) none cols rows).validate =
        .ok () ↔
      (attachment.workspaces.flatMap Workspace.paneIds).Nodup ∧
        ∀ workspace ∈ attachment.workspaces, workspace.Fit arith cols rows := by
  have given := spawnWorkspaces_spawned positive attachment.workspaces
  have both := (List.forall₂_and_left _ _).mpr ⟨live, given⟩
  have many : (spawnWorkspaces next attachment.workspaces).length = workspaceCount :=
    given.length_eq.symm.trans nine
  have ids : (sharedLayoutFromState arith geometry (attachment.spawned next) none cols
      rows).paneIds = attachment.workspaces.flatMap Workspace.paneIds := by
    rw [paneIds_eq_flatMap]
    show ((spawnWorkspaces next attachment.workspaces).mapIdx fun index workspace =>
      sharedWorkspaceFromState arith index workspace (max cols 1) (max rows 1)).flatMap
        SharedWorkspace.paneIds = _
    rw [mapIdx_flatMap fun index workspace => projected_paneIds arith index workspace _ _]
    exact spawned_liveIds both
  have fits : (∀ workspace ∈ (sharedLayoutFromState arith geometry (attachment.spawned next) none
      cols rows).workspaces, workspace.Valid) ↔ ∀ workspace ∈ attachment.workspaces,
        workspace.Fit arith cols rows := by
    have all := @projected_all_iff arith cols rows _ _ both 0 (by rw [Nat.zero_add, many])
    simp only [Nat.zero_add] at all
    exact all
  rw [SharedLayout.validate_iff, ← ids, ← fits]
  constructor
  · exact fun valid => ⟨valid.ids, valid.workspaces⟩
  · rintro ⟨unique, sound⟩
    refine ⟨rfl, ⟨?_, ?_⟩, proper, sound, ?_, unique⟩
    · exact lt_of_lt_of_le Nat.zero_lt_one (le_max_right cols 1)
    · exact lt_of_lt_of_le Nat.zero_lt_one (le_max_right rows 1)
    · have places : ((spawnWorkspaces next attachment.workspaces).mapIdx fun index workspace =>
          sharedWorkspaceFromState arith index workspace (max cols 1) (max rows 1)).map
            SharedWorkspace.index =
          List.range (spawnWorkspaces next attachment.workspaces).length := by
        refine List.ext_getElem? fun place => ?_
        simp only [List.getElem?_map, List.getElem?_mapIdx, Option.map_map]
        by_cases inside : place < (spawnWorkspaces next attachment.workspaces).length
        · simp [inside, sharedWorkspaceFromState]
        · simp [inside]
      show (((spawnWorkspaces next attachment.workspaces).mapIdx fun index workspace =>
        sharedWorkspaceFromState arith index workspace (max cols 1) (max rows 1)).map
          SharedWorkspace.index).Nodup
      rw [places]
      exact List.nodup_range

end Rozi
