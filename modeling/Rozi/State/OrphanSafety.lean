import Rozi.State.Orphan

/-!
Orphan output is kept whole or refused whole: the counters are the sums of what is stored, and a
pane takes exactly the output that was inserted for it.
-/

namespace Rozi

namespace OrphanOutputStore

variable {byteLen : Nat → Nat} {store next other : OrphanOutputStore} {key : OrphanOutputKey}
  {bytes : Bytes} {media : List TerminalOutputMedia}

/-! ### Accounting -/

structure Balanced (byteLen : Nat → Nat) (store : OrphanOutputStore) : Prop where
  retained : store.retained = store.buffers.total List.length
  mediaBytes : store.retainedMediaBytes = store.media.total (orphanMediaBytes byteLen)
  mediaFiles : store.retainedMediaFiles = store.media.total List.length
  globalCap : store.retained ≤ orphanOutputGlobalCap
  mediaGlobalCap : store.retainedMediaBytes ≤ store.mediaGlobalCap
  mediaGlobalFileCap : store.retainedMediaFiles ≤ store.mediaGlobalFileCap
  cap : ∀ key, (store.stored key).length ≤ orphanOutputCap
  mediaCap : ∀ key, orphanMediaBytes byteLen (store.storedMedia key) ≤ store.mediaCap
  mediaFileCap : ∀ key, (store.storedMedia key).length ≤ store.mediaFileCap
  keyCap : store.buffers.entries.length ≤ orphanOutputKeyCap

structure Sound (byteLen : Nat → Nat) (store : OrphanOutputStore) : Prop
    extends Balanced byteLen store where
  nodup : store.order.Nodup
  listed : ∀ key, key ∈ store.order ↔ key ∈ store.buffers
  buffered : ∀ key, key ∈ store.media → key ∈ store.buffers

theorem orphanMediaBytes_append (front back : List TerminalOutputMedia) :
    orphanMediaBytes byteLen (front ++ back) =
      orphanMediaBytes byteLen front + orphanMediaBytes byteLen back := by
  simp [orphanMediaBytes]

theorem orphanMediaBytes_shift (offset : Nat) :
    orphanMediaBytes byteLen (media.map (TerminalOutputMedia.shift offset)) =
      orphanMediaBytes byteLen media := by
  simp [orphanMediaBytes, TerminalOutputMedia.shift, Function.comp_def]

theorem length_keys {κ ν : Type} (entries : AList fun _ : κ => ν) :
    entries.keys.length = entries.entries.length := by
  simp [AList.keys, List.keys]

theorem checkedSub_of_le {total removed : Nat} (within : removed ≤ total) :
    checkedSub total removed = some (total - removed) := if_pos within

theorem empty_sound (limits : OrphanLimits) :
    Sound byteLen (withMediaLimits limits) where
  retained := rfl
  mediaBytes := rfl
  mediaFiles := rfl
  globalCap := Nat.zero_le _
  mediaGlobalCap := Nat.zero_le _
  mediaGlobalFileCap := Nat.zero_le _
  cap := fun _ => Nat.zero_le _
  mediaCap := fun _ => Nat.zero_le _
  mediaFileCap := fun _ => Nat.zero_le _
  keyCap := Nat.zero_le _
  nodup := List.nodup_nil
  listed := fun _ => Iff.rfl
  buffered := fun _ member => member

/-! ### Removal -/

def withoutMedia (byteLen : Nat → Nat) (store : OrphanOutputStore) (key : OrphanOutputKey) :
    OrphanOutputStore :=
  { store with
    media := store.media.erase key
    retainedMediaBytes :=
      store.retainedMediaBytes - orphanMediaBytes byteLen (store.storedMedia key)
    retainedMediaFiles := store.retainedMediaFiles - (store.storedMedia key).length }

def withoutBytes (store : OrphanOutputStore) (key : OrphanOutputKey) : OrphanOutputStore :=
  { store with
    buffers := store.buffers.erase key
    retained := store.retained - (store.stored key).length }

theorem removeMediaForKey_eq (store : OrphanOutputStore) (key : OrphanOutputKey)
    (countedBytes : store.retainedMediaBytes = store.media.total (orphanMediaBytes byteLen))
    (countedFiles : store.retainedMediaFiles = store.media.total List.length) :
    store.removeMediaForKey byteLen key =
      some (store.storedMedia key, store.withoutMedia byteLen key) := by
  cases found : store.media.lookup key with
  | none =>
      have kept : store.media.erase key = store.media := AList.erase_of_lookup_none found
      simp [removeMediaForKey, withoutMedia, storedMedia, found, kept, orphanMediaBytes]
  | some removed =>
      have bytesWithin : orphanMediaBytes byteLen removed ≤ store.retainedMediaBytes := by
        rw [countedBytes]
        exact AList.weight_le_total found
      have filesWithin : removed.length ≤ store.retainedMediaFiles := by
        rw [countedFiles]
        exact AList.weight_le_total found
      simp [removeMediaForKey, withoutMedia, storedMedia, found, checkedSub_of_le bytesWithin,
        checkedSub_of_le filesWithin]

theorem total_erase_getD {ν : Type} (weight : List ν → Nat) (nothing : weight [] = 0)
    (entries : AList fun _ : OrphanOutputKey => List ν) :
    (entries.erase key).total weight =
      entries.total weight - weight ((entries.lookup key).getD []) := by
  rw [AList.total_split weight entries key]
  cases entries.lookup key with
  | none => simp [nothing]
  | some value => simp

theorem length_erase_le {κ ν : Type} [DecidableEq κ] (entries : AList fun _ : κ => ν) (key : κ) :
    (entries.erase key).entries.length ≤ entries.entries.length :=
  (List.kerase_sublist key entries.entries).length_le

theorem Balanced.withoutMedia (balanced : Balanced byteLen store) (key : OrphanOutputKey) :
    Balanced byteLen (store.withoutMedia byteLen key) where
  retained := balanced.retained
  mediaBytes := by
    simp only [OrphanOutputStore.withoutMedia, balanced.mediaBytes, storedMedia,
      total_erase_getD (orphanMediaBytes byteLen) rfl]
  mediaFiles := by
    simp only [OrphanOutputStore.withoutMedia, balanced.mediaFiles, storedMedia,
      total_erase_getD List.length rfl]
  globalCap := balanced.globalCap
  mediaGlobalCap := le_trans (Nat.sub_le _ _) balanced.mediaGlobalCap
  mediaGlobalFileCap := le_trans (Nat.sub_le _ _) balanced.mediaGlobalFileCap
  cap := balanced.cap
  mediaCap := by
    intro other
    by_cases same : other = key
    · subst same
      simp [storedMedia, OrphanOutputStore.withoutMedia, orphanMediaBytes]
    · have kept := balanced.mediaCap other
      simpa [storedMedia, OrphanOutputStore.withoutMedia, AList.lookup_erase_ne same] using kept
  mediaFileCap := by
    intro other
    by_cases same : other = key
    · subst same
      simp [storedMedia, OrphanOutputStore.withoutMedia]
    · have kept := balanced.mediaFileCap other
      simpa [storedMedia, OrphanOutputStore.withoutMedia, AList.lookup_erase_ne same] using kept
  keyCap := balanced.keyCap

theorem Balanced.withoutBytes (balanced : Balanced byteLen store) (key : OrphanOutputKey) :
    Balanced byteLen (store.withoutBytes key) where
  retained := by
    simp only [OrphanOutputStore.withoutBytes, balanced.retained, stored,
      total_erase_getD List.length rfl]
  mediaBytes := balanced.mediaBytes
  mediaFiles := balanced.mediaFiles
  globalCap := le_trans (Nat.sub_le _ _) balanced.globalCap
  mediaGlobalCap := balanced.mediaGlobalCap
  mediaGlobalFileCap := balanced.mediaGlobalFileCap
  cap := by
    intro other
    by_cases same : other = key
    · subst same
      simp [stored, OrphanOutputStore.withoutBytes]
    · have kept := balanced.cap other
      simpa [stored, OrphanOutputStore.withoutBytes, AList.lookup_erase_ne same] using kept
  mediaCap := balanced.mediaCap
  mediaFileCap := balanced.mediaFileCap
  keyCap := le_trans (length_erase_le store.buffers key) balanced.keyCap

structure Without (gone : OrphanOutputKey → Prop) [DecidablePred gone]
    (store next : OrphanOutputStore) : Prop where
  limits : next.toOrphanLimits = store.toOrphanLimits
  buffers : ∀ key, next.buffers.lookup key = if gone key then none else store.buffers.lookup key
  media : ∀ key, next.media.lookup key = if gone key then none else store.media.lookup key

theorem Without.refl (store : OrphanOutputStore) : Without (fun _ => False) store store where
  limits := rfl
  buffers := fun _ => by simp
  media := fun _ => by simp

section Without

variable {gone stale both : OrphanOutputKey → Prop} [DecidablePred gone] [DecidablePred stale]
  [DecidablePred both]

theorem Without.trans (first : Without gone store next) (second : Without stale next other)
    (covers : ∀ key, both key ↔ gone key ∨ stale key) : Without both store other where
  limits := second.limits.trans first.limits
  buffers := by
    intro key
    rw [second.buffers, first.buffers, if_congr (covers key) rfl rfl]
    by_cases isGone : gone key <;> simp [isGone]
  media := by
    intro key
    rw [second.media, first.media, if_congr (covers key) rfl rfl]
    by_cases isGone : gone key <;> simp [isGone]

theorem Without.congr (without : Without gone store next)
    (covers : ∀ key, both key ↔ gone key) : Without both store next where
  limits := without.limits
  buffers := fun key => by rw [without.buffers, if_congr (covers key) rfl rfl]
  media := fun key => by rw [without.media, if_congr (covers key) rfl rfl]

theorem Without.reorder (without : Without gone store next) (order : List OrphanOutputKey) :
    Without gone store { next with order } :=
  ⟨without.limits, without.buffers, without.media⟩

end Without

theorem withoutBoth_without (byteLen : Nat → Nat) (store : OrphanOutputStore) (key : OrphanOutputKey) :
    Without (· = key) store ((store.withoutBytes key).withoutMedia byteLen key) where
  limits := rfl
  buffers := fun _ => AList.lookup_erase_eq
  media := fun _ => AList.lookup_erase_eq

theorem dropKey_eq (balanced : Balanced byteLen store) (present : key ∈ store.buffers) :
    store.dropKey byteLen key = some ((store.withoutBytes key).withoutMedia byteLen key) := by
  rcases Option.isSome_iff_exists.mp (AList.lookup_isSome.mpr present) with ⟨removed, found⟩
  have within : removed.length ≤ store.retained := by
    rw [balanced.retained]
    exact AList.weight_le_total found
  have shape : ({ store with
      buffers := store.buffers.erase key
      retained := store.retained - removed.length } : OrphanOutputStore) =
        store.withoutBytes key := by
    simp [withoutBytes, stored, found]
  simp only [dropKey, found, checkedSub_of_le within, Option.bind_eq_bind, Option.bind_some]
  rw [shape, removeMediaForKey_eq _ key (balanced.withoutBytes key).mediaBytes
    (balanced.withoutBytes key).mediaFiles]
  rfl

theorem dropStale_spec (pane : PaneId) (generation : Nat) :
    ∀ {keys : List OrphanOutputKey} {store : OrphanOutputStore}, Balanced byteLen store →
      keys.Nodup → (∀ key ∈ keys, key ∈ store.buffers) →
      ∃ next, dropStale byteLen pane generation keys store =
          some (keys.filter fun key => ¬(key.pane = pane ∧ key.generation < generation), next) ∧
        Balanced byteLen next ∧
        Without (fun key => key ∈ keys ∧ key.pane = pane ∧ key.generation < generation)
          store next := by
  intro keys
  induction keys with
  | nil =>
      intro store balanced _ _
      refine ⟨store, rfl, balanced, ?_⟩
      exact (Without.refl store).congr (by simp)
  | cons key keys ih =>
      intro store balanced nodup present
      rw [List.nodup_cons] at nodup
      by_cases stale : key.pane = pane ∧ key.generation < generation
      · have dropped := dropKey_eq balanced (present key List.mem_cons_self)
        have first := withoutBoth_without byteLen store key
        have still : ∀ other ∈ keys,
            other ∈ ((store.withoutBytes key).withoutMedia byteLen key).buffers := by
          intro other member
          have different : other ≠ key := fun same => nodup.1 (same ▸ member)
          exact AList.mem_erase.mpr ⟨different, present other (List.mem_cons_of_mem key member)⟩
        rcases ih ((balanced.withoutBytes key).withoutMedia key) nodup.2 still with
          ⟨next, ran, after, second⟩
        refine ⟨next, ?_, after, first.trans second ?_⟩
        · rw [dropStale, if_pos stale, dropped]
          simpa [stale] using ran
        · intro other
          by_cases same : other = key
          · simp [same, stale]
          · simp [same]
      · rcases ih balanced nodup.2 fun other member =>
          present other (List.mem_cons_of_mem key member) with ⟨next, ran, after, second⟩
        refine ⟨next, ?_, after, second.congr ?_⟩
        · rw [dropStale, if_neg stale, ran, List.filter_cons, if_pos (decide_eq_true stale)]
          rfl
        · intro other
          by_cases same : other = key
          · simp [same, stale]
          · simp [same]

/-- A store whose keys are listed anew is sound if it was before, the lost keys apart. -/
theorem Sound.of_without {gone : OrphanOutputKey → Prop} [DecidablePred gone]
    {order : List OrphanOutputKey} (sound : Sound byteLen store)
    (balanced : Balanced byteLen next) (without : Without gone store next)
    (relisted : order = store.order.filter fun key => ¬gone key) :
    Sound byteLen { next with order } where
  retained := balanced.retained
  mediaBytes := balanced.mediaBytes
  mediaFiles := balanced.mediaFiles
  globalCap := balanced.globalCap
  mediaGlobalCap := balanced.mediaGlobalCap
  mediaGlobalFileCap := balanced.mediaGlobalFileCap
  cap := balanced.cap
  mediaCap := balanced.mediaCap
  mediaFileCap := balanced.mediaFileCap
  keyCap := balanced.keyCap
  nodup := by
    rw [relisted]
    exact sound.nodup.filter _
  listed := by
    intro key
    rw [relisted, List.mem_filter, sound.listed, ← AList.lookup_isSome, ← AList.lookup_isSome,
      without.buffers]
    by_cases isGone : gone key <;> simp [isGone]
  buffered := by
    intro key member
    have before := sound.buffered key
    rw [← AList.lookup_isSome] at member before ⊢
    rw [← AList.lookup_isSome] at before
    rw [without.media] at member
    rw [without.buffers]
    by_cases isGone : gone key
    · simp [isGone] at member
    · rw [if_neg isGone] at member ⊢
      exact before member

theorem Sound.length_order (sound : Sound byteLen store) :
    store.order.length = store.buffers.entries.length := by
  have same : store.order.Perm store.buffers.keys :=
    (List.perm_ext_iff_of_nodup sound.nodup store.buffers.keys_nodup).mpr fun key => by
      rw [sound.listed, AList.mem_keys]
  rw [same.length_eq, length_keys]

theorem take_spec (sound : Sound byteLen store) (key : OrphanOutputKey) :
    ∃ next, store.take byteLen key = some (store.buffers.lookup key, next) ∧
      Sound byteLen next ∧ Without (· = key) store next := by
  cases found : store.buffers.lookup key with
  | none =>
      have absent : key ∉ store.buffers := AList.lookup_eq_none.mp found
      have noMedia : store.media.lookup key = none :=
        AList.lookup_eq_none.mpr fun member => absent (sound.buffered key member)
      refine ⟨store, by simp [take, found], sound, ?_⟩
      refine { limits := rfl, buffers := ?_, media := ?_ }
      · intro other
        by_cases same : other = key
        · rw [if_pos same, same, found]
        · rw [if_neg same]
      · intro other
        by_cases same : other = key
        · rw [if_pos same, same, noMedia]
        · rw [if_neg same]
  | some bytes =>
      have without := withoutBoth_without byteLen store key
      have balanced := (sound.toBalanced.withoutBytes key).withoutMedia key
      have after : Sound byteLen
          { (store.withoutBytes key).withoutMedia byteLen key with
            order := store.order.filter (· ≠ key) } :=
        sound.of_without balanced without (by simp)
      have within : bytes.length ≤ store.retained := by
        rw [sound.retained]
        exact AList.weight_le_total found
      have removed := removeMediaForKey_eq
        { store with buffers := store.buffers.erase key } key sound.mediaBytes sound.mediaFiles
      refine ⟨_, ?_, after, without.reorder _⟩
      have left : (store.order.filter (· ≠ key)).length =
          (store.buffers.erase key).entries.length := after.length_order
      simp only [take, found, removed, Option.bind_eq_bind, Option.bind_some]
      simp only [withoutMedia, withoutBytes, checkedSub_of_le within, Option.bind_some]
      refine (if_pos left).trans ?_
      simp [stored, storedMedia, found]

theorem dropStale_order_spec (sound : Sound byteLen store) (pane : PaneId) (generation : Nat) :
    ∃ order next, dropStale byteLen pane generation store.order store = some (order, next) ∧
      Sound byteLen { next with order } ∧
      Without (fun key => key.pane = pane ∧ key.generation < generation) store
        { next with order } := by
  rcases dropStale_spec pane generation sound.toBalanced sound.nodup
    fun key member => (sound.listed key).mp member with ⟨next, ran, balanced, listed⟩
  -- a key that is not listed holds nothing to lose
  have without : Without (fun key => key.pane = pane ∧ key.generation < generation) store next := by
    refine { limits := listed.limits, buffers := ?_, media := ?_ }
    · intro key
      rw [listed.buffers]
      by_cases member : key ∈ store.order
      · simp [member]
      · have missing : store.buffers.lookup key = none :=
          AList.lookup_eq_none.mpr fun present => member ((sound.listed key).mpr present)
        simp [missing]
    · intro key
      rw [listed.media]
      by_cases member : key ∈ store.order
      · simp [member]
      · have missing : store.media.lookup key = none :=
          AList.lookup_eq_none.mpr fun present =>
            member ((sound.listed key).mpr (sound.buffered key present))
        simp [missing]
  exact ⟨_, next, ran, sound.of_without balanced without rfl, without.reorder _⟩

/-- `take_for_generation` answers what the key holds and forgets it and the older generations. -/
theorem takeForGeneration_spec (sound : Sound byteLen store) (key : OrphanOutputKey) :
    ∃ next, store.takeForGeneration byteLen key = some (store.buffers.lookup key, next) ∧
      Sound byteLen next ∧
      Without (fun other => other.pane = key.pane ∧ other.generation ≤ key.generation)
        store next := by
  rcases dropStale_order_spec sound key.pane key.generation with
    ⟨order, kept, dropped, after, stale⟩
  rcases take_spec after key with ⟨next, took, last, own⟩
  refine ⟨next, ?_, last, stale.trans own ?_⟩
  · have current := stale.buffers key
    simp only [Nat.lt_irrefl, and_false, if_false] at current
    simp only [takeForGeneration, dropped, Option.bind_eq_bind, Option.bind_some]
    rw [took, current]
  · intro other
    rcases other with ⟨pane, generation⟩
    rcases key with ⟨ownPane, ownGeneration⟩
    simp only [OrphanOutputKey.mk.injEq]
    rw [Nat.le_iff_lt_or_eq, and_or_left]

theorem takeOwnedForGeneration_spec (sound : Sound byteLen store) (key : OrphanOutputKey) :
    ∃ next, store.takeOwnedForGeneration byteLen key =
        some ((store.buffers.lookup key).map (·, store.storedMedia key), next) ∧
      Sound byteLen next ∧
      Without (fun other => other.pane = key.pane ∧ other.generation ≤ key.generation)
        store next := by
  have removed := removeMediaForKey_eq store key sound.mediaBytes sound.mediaFiles
  have after : Sound byteLen (store.withoutMedia byteLen key) :=
    { sound.toBalanced.withoutMedia key with
      nodup := sound.nodup
      listed := sound.listed
      buffered := fun other member => sound.buffered other (AList.mem_erase.mp member).2 }
  rcases takeForGeneration_spec after key with ⟨next, took, last, gone⟩
  refine ⟨next, ?_, last, ?_⟩
  · simp only [takeOwnedForGeneration, removed, took, Option.bind_eq_bind, Option.bind_some]
    rfl
  · refine { limits := gone.limits, buffers := gone.buffers, media := ?_ }
    intro other
    rw [gone.media]
    by_cases same : other = key
    · simp [same]
    · have kept : (store.withoutMedia byteLen key).media.lookup other = store.media.lookup other :=
        AList.lookup_erase_ne same
      rw [kept]

/-! ### Insertion -/

structure Grown (key : OrphanOutputKey) (bytes : Bytes) (media : List TerminalOutputMedia)
    (store next : OrphanOutputStore) : Prop where
  limits : next.toOrphanLimits = store.toOrphanLimits
  buffers : ∀ other, next.buffers.lookup other =
    if other = key then some (store.stored key ++ bytes) else store.buffers.lookup other
  media : ∀ other, next.storedMedia other =
    if other = key then
      store.storedMedia key ++ media.map (TerminalOutputMedia.shift (store.stored key).length)
    else store.storedMedia other

theorem refuses_eq_false_iff :
    store.refuses byteLen key bytes media = false ↔
      (store.stored key).length + bytes.length ≤ orphanOutputCap ∧
      store.retained + bytes.length ≤ orphanOutputGlobalCap ∧
      orphanMediaBytes byteLen (store.storedMedia key) + orphanMediaBytes byteLen media ≤
        store.mediaCap ∧
      store.retainedMediaBytes + orphanMediaBytes byteLen media ≤ store.mediaGlobalCap ∧
      (store.storedMedia key).length + media.length ≤ store.mediaFileCap ∧
      store.retainedMediaFiles + media.length ≤ store.mediaGlobalFileCap ∧
      (key ∉ store.buffers → store.buffers.entries.length < orphanOutputKeyCap) := by
  simp [refuses]

theorem elim_eq_getD {ν : Type} (weight : List ν → Nat) (nothing : weight [] = 0)
    (value : Option (List ν)) : value.elim 0 weight = weight (value.getD []) := by
  cases value with
  | none => exact nothing.symm
  | some value => rfl

theorem length_insert (entries : AList fun _ : OrphanOutputKey => Bytes) :
    (entries.insert key bytes).entries.length =
      entries.entries.length + if key ∈ entries then 0 else 1 := by
  rw [← length_keys, ← length_keys, AList.keys_insert, List.length_cons]
  by_cases member : key ∈ entries
  · have positive : 0 < entries.keys.length := List.length_pos_of_mem (AList.mem_keys.mp member)
    rw [List.length_erase_of_mem (AList.mem_keys.mp member), if_pos member]
    omega
  · rw [List.erase_of_not_mem (mt AList.mem_keys.mpr member), if_neg member]

theorem append_sound (sound : Sound byteLen store)
    (fits : store.refuses byteLen key bytes media = false) :
    Sound byteLen (store.append key bytes) := by
  rcases refuses_eq_false_iff.mp fits with ⟨cap, globalCap, _, _, _, _, keyCap⟩
  exact {
    retained := by
      have grown : List.length (store.stored key ++ bytes) =
          (store.buffers.lookup key).elim 0 List.length + bytes.length := by
        rw [List.length_append, elim_eq_getD List.length rfl]
        rfl
      simp only [append]
      rw [AList.total_insert_grown grown, sound.retained]
    mediaBytes := sound.mediaBytes
    mediaFiles := sound.mediaFiles
    globalCap := globalCap
    mediaGlobalCap := sound.mediaGlobalCap
    mediaGlobalFileCap := sound.mediaGlobalFileCap
    cap := by
      intro other
      by_cases same : other = key
      · subst same
        simpa [append, stored] using cap
      · simpa [append, stored, AList.lookup_insert_ne same] using sound.cap other
    mediaCap := sound.mediaCap
    mediaFileCap := sound.mediaFileCap
    keyCap := by
      simp only [append, length_insert]
      split_ifs with member
      · exact sound.keyCap
      · exact keyCap member
    nodup := by
      simp only [append]
      split_ifs with member
      · exact sound.nodup
      · refine List.nodup_append.mpr ⟨sound.nodup, List.nodup_singleton key, ?_⟩
        intro listed isListed other isKey same
        rw [List.mem_singleton.mp isKey] at same
        exact member ((sound.listed key).mp (same ▸ isListed))
    listed := by
      intro other
      simp only [append, AList.mem_insert]
      split_ifs with member
      · rw [sound.listed]
        constructor
        · exact Or.inr
        · rintro (same | present)
          · exact same ▸ member
          · exact present
      · rw [List.mem_append, List.mem_singleton, sound.listed]
        exact or_comm
    buffered := fun other member =>
      (AList.mem_insert _).mpr (.inr (sound.buffered other member)) }

theorem appendMedia_sound {offset : Nat} (sound : Sound byteLen store)
    (present : key ∈ store.buffers)
    (mediaCap : orphanMediaBytes byteLen (store.storedMedia key) + orphanMediaBytes byteLen media ≤
      store.mediaCap)
    (mediaGlobalCap : store.retainedMediaBytes + orphanMediaBytes byteLen media ≤
      store.mediaGlobalCap)
    (mediaFileCap : (store.storedMedia key).length + media.length ≤ store.mediaFileCap)
    (mediaGlobalFileCap : store.retainedMediaFiles + media.length ≤ store.mediaGlobalFileCap) :
    Sound byteLen (store.appendMedia byteLen key offset media) := by
  unfold appendMedia
  split_ifs with nothing
  · exact sound
  exact {
    retained := sound.retained
    mediaBytes := by
      have grown : orphanMediaBytes byteLen
          (store.storedMedia key ++ media.map (TerminalOutputMedia.shift offset)) =
            (store.media.lookup key).elim 0 (orphanMediaBytes byteLen) +
              orphanMediaBytes byteLen media := by
        rw [orphanMediaBytes_append, orphanMediaBytes_shift,
          elim_eq_getD (orphanMediaBytes byteLen) rfl]
        rfl
      simp only
      rw [AList.total_insert_grown grown, sound.mediaBytes]
    mediaFiles := by
      have grown : List.length
          (store.storedMedia key ++ media.map (TerminalOutputMedia.shift offset)) =
            (store.media.lookup key).elim 0 List.length + media.length := by
        rw [List.length_append, List.length_map, elim_eq_getD List.length rfl]
        rfl
      simp only
      rw [AList.total_insert_grown grown, sound.mediaFiles]
    globalCap := sound.globalCap
    mediaGlobalCap := mediaGlobalCap
    mediaGlobalFileCap := mediaGlobalFileCap
    cap := sound.cap
    mediaCap := by
      intro other
      by_cases same : other = key
      · subst same
        simpa [storedMedia, orphanMediaBytes_append, orphanMediaBytes_shift] using mediaCap
      · simpa [storedMedia, AList.lookup_insert_ne same] using sound.mediaCap other
    mediaFileCap := by
      intro other
      by_cases same : other = key
      · subst same
        simpa [storedMedia] using mediaFileCap
      · simpa [storedMedia, AList.lookup_insert_ne same] using sound.mediaFileCap other
    keyCap := sound.keyCap
    nodup := sound.nodup
    listed := sound.listed
    buffered := by
      intro other member
      rcases (AList.mem_insert _).mp member with same | before
      · exact same ▸ present
      · exact sound.buffered other before }

theorem grown_append_appendMedia (store : OrphanOutputStore) (key : OrphanOutputKey)
    (bytes : Bytes) (media : List TerminalOutputMedia) :
    Grown key bytes media store
      ((store.append key bytes).appendMedia byteLen key (store.stored key).length media) := by
  unfold appendMedia
  split_ifs with nothing
  · have noMedia : media = [] := List.isEmpty_iff.mp nothing
    refine { limits := rfl, buffers := fun _ => AList.lookup_insert_eq, media := ?_ }
    intro other
    by_cases same : other = key
    · subst same
      simp [noMedia, append, storedMedia]
    · simp [same, append, storedMedia]
  · refine { limits := rfl, buffers := fun _ => AList.lookup_insert_eq, media := ?_ }
    intro other
    by_cases same : other = key
    · subst same
      simp [append, storedMedia]
    · simp [same, append, storedMedia, AList.lookup_insert_ne same]

/-- A refused insert changes nothing; an accepted one appends its output. -/
theorem insertMedia_spec (sound : Sound byteLen store) (key : OrphanOutputKey) (bytes : Bytes)
    (media : List TerminalOutputMedia) :
    ∃ kept next, store.insertMedia byteLen key bytes media = (kept, next) ∧ Sound byteLen next ∧
      (kept = false → next = store) ∧
      (kept = true → bytes = [] → next = store) ∧
      (kept = true → bytes ≠ [] → Grown key bytes media store next) := by
  by_cases nothing : bytes = []
  · refine ⟨true, store, by simp [insertMedia, nothing], sound, ?_, fun _ _ => rfl, ?_⟩
    · simp
    · exact fun _ some => absurd nothing some
  · have some : bytes.isEmpty = false := List.isEmpty_eq_false_iff.mpr nothing
    cases fits : store.refuses byteLen key bytes media with
    | true =>
        exact ⟨false, store, by simp [insertMedia, some, fits], sound, fun _ => rfl, by simp,
          by simp⟩
    | false =>
        rcases refuses_eq_false_iff.mp fits with
          ⟨_, _, mediaCap, mediaGlobalCap, mediaFileCap, mediaGlobalFileCap, _⟩
        have appended := append_sound sound fits
        have present : key ∈ (store.append key bytes).buffers :=
          (AList.mem_insert _).mpr (.inl rfl)
        refine ⟨true, _, by simp only [insertMedia, some, fits]; rfl,
          appendMedia_sound appended present mediaCap mediaGlobalCap mediaFileCap
            mediaGlobalFileCap, by simp, ?_, ?_⟩
        · exact fun _ empty => absurd empty nothing
        · exact fun _ _ => grown_append_appendMedia store key bytes media

end OrphanOutputStore

end Rozi
