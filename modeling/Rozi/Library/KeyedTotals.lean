import Mathlib.Algebra.BigOperators.Group.List.Basic
import Mathlib.Algebra.Order.BigOperators.Group.List
import Mathlib.Algebra.Order.Group.Nat
import Mathlib.Data.List.AList
import Mathlib.Data.List.Dedup
import Mathlib.Data.List.Induction
import Mathlib.Algebra.GroupWithZero.Nat

/-!
Totals over the values of an association list, and how inserting and erasing a key moves them.
-/

universe u v

namespace AList

variable {κ : Type u} {ν : Type v}

def total (weight : ν → Nat) (store : AList fun _ : κ => ν) : Nat :=
  (store.entries.map fun entry => weight entry.2).sum

@[simp] theorem total_empty (weight : ν → Nat) : total weight (∅ : AList fun _ : κ => ν) = 0 := rfl

def keptEntry (keep : κ → ν → Option ν) (entry : Sigma fun _ : κ => ν) :
    Option (Sigma fun _ : κ => ν) :=
  (keep entry.1 entry.2).map fun value => ⟨entry.1, value⟩

theorem keys_keptEntry_sublist (keep : κ → ν → Option ν)
    (entries : List (Sigma fun _ : κ => ν)) :
    (entries.filterMap (keptEntry keep)).keys.Sublist entries.keys := by
  induction entries with
  | nil => exact .slnil
  | cons entry entries ih =>
      cases kept : keep entry.1 entry.2 with
      | none =>
          rw [List.filterMap_cons_none (by rw [keptEntry, kept]; rfl)]
          exact ih.cons _
      | some value =>
          rw [List.filterMap_cons_some (by rw [keptEntry, kept]; rfl)]
          exact ih.cons_cons _

/-- `retain` with a function that may change the values it keeps. -/
def retain (keep : κ → ν → Option ν) (store : AList fun _ : κ => ν) : AList fun _ : κ => ν where
  entries := store.entries.filterMap (keptEntry keep)
  nodupKeys := List.Nodup.sublist (keys_keptEntry_sublist keep _) store.nodupKeys

theorem total_retain_le {weight : ν → Nat} {keep : κ → ν → Option ν}
    (lighter : ∀ key value kept, keep key value = some kept → weight kept ≤ weight value)
    (store : AList fun _ : κ => ν) : total weight (store.retain keep) ≤ total weight store := by
  unfold total retain
  simp only
  induction store.entries with
  | nil => exact le_rfl
  | cons entry entries ih =>
      cases kept : keep entry.1 entry.2 with
      | none =>
          rw [List.filterMap_cons_none (by rw [keptEntry, kept]; rfl), List.map_cons,
            List.sum_cons]
          omega
      | some value =>
          have light := lighter _ _ _ kept
          rw [List.filterMap_cons_some (by rw [keptEntry, kept]; rfl), List.map_cons,
            List.map_cons, List.sum_cons, List.sum_cons]
          simp only
          omega

theorem length_filter_eq_total (test : ν → Bool) (store : AList fun _ : κ => ν) :
    (store.entries.filter fun entry => test entry.2).length =
      total (fun value => if test value then 1 else 0) store := by
  unfold total
  induction store.entries with
  | nil => rfl
  | cons entry entries ih =>
      rw [List.filter_cons, List.map_cons, List.sum_cons, ← ih]
      simp only
      split_ifs with passed
      · rw [List.length_cons, Nat.add_comm]
      · rw [Nat.zero_add]

theorem length_eq_total (store : AList fun _ : κ => ν) :
    store.entries.length = total (fun _ => 1) store := by
  unfold total
  rw [List.map_const', List.sum_replicate, Nat.nsmul_eq_mul, Nat.mul_one]

variable [DecidableEq κ] {weight : ν → Nat} {store : AList fun _ : κ => ν} {key other : κ}
  {value : ν}

theorem total_split (weight : ν → Nat) (store : AList fun _ : κ => ν) (key : κ) :
    total weight store = (store.lookup key).elim 0 weight + total weight (store.erase key) := by
  by_cases member : key ∈ store.entries.keys
  · rcases List.exists_of_kerase member with ⟨value, front, back, absent, whole, erased⟩
    have found : store.lookup key = some value := by
      refine mem_lookup_iff.mpr ?_
      simp [whole]
    have rest : (store.erase key).entries = front ++ back := erased
    rw [found]
    simp only [total, rest]
    rw [whole]
    simp only [List.map_append, List.map_cons, List.sum_append, List.sum_cons, Option.elim_some]
    omega
  · have missing : store.lookup key = none := lookup_eq_none.mpr member
    have rest : (store.erase key).entries = store.entries := List.kerase_of_notMem_keys member
    simp [total, missing, rest]

theorem total_insert :
    total weight (store.insert key value) = weight value + total weight (store.erase key) := by
  have entries : (store.erase key).entries = store.entries.kerase key := rfl
  simp [total, entries_insert, entries]

theorem total_erase_of_lookup (found : store.lookup key = some value) :
    total weight (store.erase key) = total weight store - weight value := by
  rw [total_split weight store key, found]
  simp

theorem weight_le_total (found : store.lookup key = some value) :
    weight value ≤ total weight store := by
  rw [total_split weight store key, found]
  exact Nat.le_add_right _ _

theorem total_insert_grown {added : Nat}
    (grown : weight value = (store.lookup key).elim 0 weight + added) :
    total weight (store.insert key value) = total weight store + added := by
  rw [total_insert, total_split weight store key, grown]
  omega

theorem lookup_insert_eq :
    (store.insert key value).lookup other =
      if other = key then some value else store.lookup other := by
  by_cases same : other = key
  · rw [if_pos same, same, lookup_insert]
  · rw [if_neg same, lookup_insert_ne same]

theorem lookup_erase_eq :
    (store.erase key).lookup other = if other = key then none else store.lookup other := by
  by_cases same : other = key
  · rw [if_pos same, same, lookup_erase]
  · rw [if_neg same, lookup_erase_ne same]

theorem lookup_insert_some {found : ν}
    (there : (store.insert key value).lookup other = some found) :
    other = key ∧ found = value ∨ other ≠ key ∧ store.lookup other = some found := by
  rw [lookup_insert_eq] at there
  split_ifs at there with same
  · exact .inl ⟨same, (Option.some.inj there).symm⟩
  · exact .inr ⟨same, there⟩

/-- What is left after an erasure was there, under another key. -/
theorem lookup_erase_some (found : (store.erase key).lookup other = some value) :
    other ≠ key ∧ store.lookup other = some value := by
  rw [lookup_erase_eq] at found
  split_ifs at found with same
  exact ⟨same, found⟩

theorem dlookup_keptEntry (keep : κ → ν → Option ν) {entries : List (Sigma fun _ : κ => ν)}
    (nodup : entries.NodupKeys) :
    List.dlookup key (entries.filterMap (keptEntry keep)) =
      (List.dlookup key entries).bind (keep key) := by
  induction entries with
  | nil => rfl
  | cons entry entries ih =>
      rcases entry with ⟨first, value⟩
      rcases List.nodupKeys_cons.mp nodup with ⟨fresh, nodup⟩
      by_cases same : key = first
      · rw [same, List.dlookup_cons_eq]
        cases kept : keep first value with
        | none =>
            have gone : first ∉ (entries.filterMap (keptEntry keep)).keys := fun member =>
              fresh ((keys_keptEntry_sublist keep entries).subset member)
            rw [List.filterMap_cons_none (by rw [keptEntry, kept]; rfl),
              List.dlookup_eq_none.mpr gone, Option.bind_some, kept]
        | some held =>
            rw [List.filterMap_cons_some (by rw [keptEntry, kept]; rfl), List.dlookup_cons_eq,
              Option.bind_some, kept]
      · rw [List.dlookup_cons_ne _ _ same]
        cases kept : keep first value with
        | none => rw [List.filterMap_cons_none (by rw [keptEntry, kept]; rfl), ih nodup]
        | some held =>
            rw [List.filterMap_cons_some (by rw [keptEntry, kept]; rfl),
              List.dlookup_cons_ne _ _ same, ih nodup]

theorem lookup_retain (keep : κ → ν → Option ν) :
    (store.retain keep).lookup key = (store.lookup key).bind (keep key) :=
  dlookup_keptEntry keep store.nodupKeys

/-- A store whose keys are among some, each within its bound, leaves the bound of a key it does not
hold. -/
theorem total_add_le_sum {bound : κ → Nat} {room : List κ}
    (within : ∀ key value, store.lookup key = some value → key ∈ room ∧ weight value ≤ bound key)
    (missing : store.lookup key = none) (member : key ∈ room) :
    total weight store + bound key ≤ (room.dedup.map bound).sum := by
  have held : ∀ entry ∈ store.entries, entry.1 ∈ room ∧ weight entry.2 ≤ bound entry.1 :=
    fun entry listed => within entry.1 entry.2 (mem_lookup_iff.mpr listed)
  have bounded : total weight store ≤ (store.keys.map bound).sum := by
    unfold total keys List.keys
    rw [List.map_map]
    exact List.sum_le_sum fun entry listed => (held entry listed).2
  have fresh : key ∉ store.keys := lookup_eq_none.mp missing
  have distinct : (key :: store.keys).Nodup := List.nodup_cons.mpr ⟨fresh, store.nodupKeys⟩
  have among : key :: store.keys ⊆ room.dedup := by
    intro other listed
    rw [List.mem_dedup]
    rcases List.mem_cons.mp listed with same | there
    · exact same ▸ member
    · rcases List.mem_map.mp there with ⟨entry, listed, same⟩
      exact same ▸ (held entry listed).1
  rcases List.subperm_of_subset distinct among with ⟨part, perm, sublist⟩
  calc
    total weight store + bound key ≤ bound key + (store.keys.map bound).sum := by omega
    _ = (part.map bound).sum := by
      rw [(perm.map bound).sum_eq, List.map_cons, List.sum_cons]
    _ ≤ (room.dedup.map bound).sum := (sublist.map bound).sum_le_sum fun _ _ => Nat.zero_le _

theorem erase_of_lookup_none (missing : store.lookup key = none) : store.erase key = store := by
  refine AList.ext ?_
  exact List.kerase_of_notMem_keys (lookup_eq_none.mp missing)

theorem entries_perm_of_lookup (found : store.lookup key = some value) :
    store.entries.Perm (⟨key, value⟩ :: (store.erase key).entries) := by
  change store.entries.dlookup key = some value at found
  change store.entries.Perm (⟨key, value⟩ :: store.entries.kerase key)
  generalize store.entries = entries at found
  induction entries with
  | nil => cases found
  | cons entry entries ih =>
      rcases entry with ⟨first, held⟩
      by_cases same : key = first
      · subst same
        rw [List.dlookup_cons_eq, Option.some.injEq] at found
        have gone : ((⟨key, value⟩ : Sigma fun _ : κ => ν) :: entries).kerase key = entries :=
          List.kerase_cons_eq rfl
        rw [found, gone]
      · rw [List.dlookup_cons_ne _ _ same] at found
        rw [List.kerase_cons_ne same]
        exact ((ih found).cons _).trans (.swap _ _ _)

omit [DecidableEq κ] in
theorem entries_retain_some (change : κ → ν → ν) :
    (store.retain fun key value => some (change key value)).entries =
      store.entries.map fun entry => ⟨entry.1, change entry.1 entry.2⟩ := by
  unfold retain
  simp only
  rw [← List.filterMap_eq_map]
  rfl

def collect (pairs : List (κ × ν)) : AList fun _ : κ => ν :=
  pairs.foldl (fun store pair => store.insert pair.1 pair.2) ∅

theorem lookup_foldl_insert (pairs : List (κ × ν)) (store : AList fun _ : κ => ν)
    (absent : key ∉ pairs.map Prod.fst) :
    (pairs.foldl (fun store pair => store.insert pair.1 pair.2) store).lookup key =
      store.lookup key := by
  induction pairs generalizing store with
  | nil => rfl
  | cons pair rest ih =>
      have other : key ≠ pair.1 := fun same => absent (by simp [same])
      rw [List.foldl_cons, ih _ fun member => absent (List.mem_cons_of_mem _ member),
        lookup_insert_ne other]

theorem lookup_collect_of_notMem {pairs : List (κ × ν)} (absent : key ∉ pairs.map Prod.fst) :
    (collect pairs).lookup key = none := by
  rw [collect, lookup_foldl_insert pairs ∅ absent]
  exact lookup_empty key

theorem lookup_collect_of_mem {pairs : List (κ × ν)} (distinct : (pairs.map Prod.fst).Nodup)
    (member : (key, value) ∈ pairs) : (collect pairs).lookup key = some value := by
  unfold collect
  generalize (∅ : AList fun _ : κ => ν) = store
  induction pairs generalizing store with
  | nil => cases member
  | cons pair rest ih =>
      rw [List.map_cons, List.nodup_cons] at distinct
      rw [List.foldl_cons]
      rcases List.mem_cons.mp member with rfl | later
      · rw [lookup_foldl_insert rest _ distinct.1]
        exact lookup_insert _
      · exact ih distinct.2 later _

theorem lookup_collect_map {μ : Type v} (change : ν → μ) (pairs : List (κ × ν)) :
    (collect (pairs.map fun pair => (pair.1, change pair.2))).lookup key =
      ((collect pairs).lookup key).map change := by
  have folded : ∀ (store : AList fun _ : κ => ν) (other : AList fun _ : κ => μ),
      (∀ key, other.lookup key = (store.lookup key).map change) →
      ((pairs.map fun pair => (pair.1, change pair.2)).foldl
        (fun store pair => store.insert pair.1 pair.2) other).lookup key =
      ((pairs.foldl (fun store pair => store.insert pair.1 pair.2) store).lookup key).map
        change := by
    induction pairs with
    | nil => exact fun store other same => same key
    | cons pair rest ih =>
        intro store other same
        rw [List.map_cons, List.foldl_cons, List.foldl_cons]
        refine ih _ _ fun name => ?_
        rw [lookup_insert_eq, lookup_insert_eq]
        split_ifs
        · rfl
        · exact same name
  exact folded ∅ ∅ fun _ => rfl

theorem mem_of_lookup_collect {pairs : List (κ × ν)} (found : (collect pairs).lookup key = some value) :
    (key, value) ∈ pairs := by
  induction pairs using List.reverseRecOn with
  | nil => cases found
  | append_singleton rest pair ih =>
      unfold collect at found ih
      rw [List.foldl_append, List.foldl_cons, List.foldl_nil, lookup_insert_eq] at found
      split_ifs at found with same
      · cases found
        rw [same]
        exact List.mem_append_right _ List.mem_cons_self
      · exact List.mem_append_left _ (ih found)

theorem lookup_collect_isSome {pairs : List (κ × ν)} :
    ((collect pairs).lookup key).isSome ↔ key ∈ pairs.map Prod.fst := by
  constructor
  · intro found
    rcases Option.isSome_iff_exists.mp found with ⟨value, found⟩
    exact List.mem_map.mpr ⟨_, mem_of_lookup_collect found, rfl⟩
  · intro member
    induction pairs using List.reverseRecOn with
    | nil => cases member
    | append_singleton rest pair ih =>
        unfold collect at ih ⊢
        rw [List.foldl_append, List.foldl_cons, List.foldl_nil, lookup_insert_eq]
        split_ifs with same
        · rfl
        · refine ih ?_
          rw [List.map_append, List.mem_append] at member
          refine member.resolve_right fun last => same ?_
          simpa using last

end AList
