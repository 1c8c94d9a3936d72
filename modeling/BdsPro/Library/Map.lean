import Mathlib.Data.Finmap

/-! Finite maps from keys to values: the non-dependent case of `Finmap`, with its lookup
laws stated by cases on the keys, a size, and the bulk operations `retain` and `mapVal`. -/

universe u v w

namespace BdsPro.Library

abbrev Map (K : Type u) (V : Type v) := Finmap fun _ : K => V

namespace Map

variable {K : Type u} {V : Type v} {W : Type w}

def size (m : Map K V) : Nat := m.keys.card

def retain (p : K → V → Bool) (m : Map K V) : Map K V where
  entries := m.entries.filter fun e => p e.1 e.2
  nodupKeys := by
    have h := m.nodupKeys
    revert h
    refine Quotient.inductionOn m.entries fun l h => ?_
    exact List.NodupKeys.sublist List.filter_sublist h

def mapVal (f : K → V → W) (m : Map K V) : Map K W where
  entries := m.entries.map fun e => ⟨e.1, f e.1 e.2⟩
  nodupKeys := by
    have h := m.nodupKeys
    revert h
    refine Quotient.inductionOn m.entries fun l h => ?_
    exact List.NodupKeys.map₂ f l h

def select (p : K → V → Bool) (m : Map K V) : Multiset (K × V) :=
  (m.entries.filter fun e => p e.1 e.2).map fun e => (e.1, e.2)

def values (m : Map K V) : Multiset V := m.entries.map fun e => e.2

@[simp] theorem values_empty : (∅ : Map K V).values = 0 := rfl

@[simp] theorem card_values (m : Map K V) : m.values.card = m.size := by
  simp [values, size, Finmap.keys, Multiset.keys]

@[simp] theorem size_empty : (∅ : Map K V).size = 0 := rfl

@[simp] theorem size_mapVal (f : K → V → W) (m : Map K V) : (m.mapVal f).size = m.size := by
  simp [size, mapVal, Finmap.keys, Multiset.keys]

variable [DecidableEq K]

def lookup (k : K) (m : Map K V) : Option V := Finmap.lookup k m

def insert (k : K) (v : V) (m : Map K V) : Map K V := Finmap.insert k v m

def erase (k : K) (m : Map K V) : Map K V := Finmap.erase k m

theorem lookup_eq_some_iff_mem {m : Map K V} {k : K} {v : V} :
    m.lookup k = some v ↔ (⟨k, v⟩ : Sigma fun _ => V) ∈ m.entries := Finmap.lookup_eq_some_iff

@[simp] theorem lookup_empty (k : K) : (∅ : Map K V).lookup k = none := rfl

theorem lookup_insert (m : Map K V) (k k' : K) (v : V) :
    (m.insert k v).lookup k' = if k' = k then some v else m.lookup k' := by
  split
  next h => exact h ▸ Finmap.lookup_insert m
  next h => exact Finmap.lookup_insert_of_ne m h

theorem lookup_erase (m : Map K V) (k k' : K) :
    (m.erase k).lookup k' = if k' = k then none else m.lookup k' := by
  split
  next h => exact h ▸ Finmap.lookup_erase k' m
  next h => exact Finmap.lookup_erase_ne h

@[simp] theorem lookup_insert_self (m : Map K V) (k : K) (v : V) :
    (m.insert k v).lookup k = some v := by rw [lookup_insert, if_pos rfl]

@[simp] theorem lookup_erase_self (m : Map K V) (k : K) : (m.erase k).lookup k = none := by
  rw [lookup_erase, if_pos rfl]

theorem lookup_of_erase {m : Map K V} {k k' : K} {v : V}
    (h : (m.erase k).lookup k' = some v) : k' ≠ k ∧ m.lookup k' = some v := by
  rw [lookup_erase] at h
  split at h
  · contradiction
  · exact ⟨‹_›, h⟩

theorem erase_of_none {m : Map K V} {k : K} (h : m.lookup k = none) : m.erase k = m := by
  refine Finmap.ext_lookup fun k' => (lookup_erase m k k').trans ?_
  split
  next hk => exact hk ▸ h.symm
  next => rfl

theorem lookup_retain {p : K → V → Bool} {m : Map K V} {k : K} {v : V} :
    (m.retain p).lookup k = some v ↔ m.lookup k = some v ∧ p k v = true := by
  simp [lookup_eq_some_iff_mem, retain, Multiset.mem_filter]

theorem lookup_mapVal (f : K → V → W) (m : Map K V) (k : K) :
    (m.mapVal f).lookup k = (m.lookup k).map (f k) := by
  apply Option.ext
  intro w
  simp only [lookup_eq_some_iff_mem, mapVal, Multiset.mem_map, Option.map_eq_some_iff]
  constructor
  · rintro ⟨⟨k', v⟩, hmem, heq⟩
    obtain ⟨rfl, hw⟩ := Sigma.mk.inj_iff.mp heq
    exact ⟨v, hmem, eq_of_heq hw⟩
  · rintro ⟨v, hmem, rfl⟩
    exact ⟨⟨k, v⟩, hmem, rfl⟩

theorem mem_select {p : K → V → Bool} {m : Map K V} {k : K} {v : V} :
    (k, v) ∈ m.select p ↔ m.lookup k = some v ∧ p k v = true := by
  simp only [select, lookup_eq_some_iff_mem, Multiset.mem_map, Multiset.mem_filter]
  constructor
  · rintro ⟨⟨k', v'⟩, hmem, heq⟩
    obtain ⟨rfl, rfl⟩ := Prod.mk.injEq .. ▸ heq
    exact hmem
  · intro h
    exact ⟨⟨k, v⟩, h, rfl⟩

omit [DecidableEq K] in
theorem nodup_select_fst (p : K → V → Bool) (m : Map K V) :
    ((m.select p).map Prod.fst).Nodup := by
  have hle : (m.select p).map Prod.fst ≤ m.keys.val := by
    rw [select, Multiset.map_map]
    exact Multiset.map_le_map (Multiset.filter_le _ m.entries)
  exact Multiset.nodup_of_le hle m.keys.nodup

theorem lookup_eq_none_of_size {m : Map K V} (h : m.size = 0) (k : K) : m.lookup k = none := by
  refine Finmap.lookup_eq_none.mpr fun hk => ?_
  have := Finmap.mem_keys.mpr hk
  rw [Finset.card_eq_zero.mp h] at this
  exact Finset.notMem_empty k this

theorem exists_lookup_of_size {m : Map K V} (h : m.size ≠ 0) : ∃ k v, m.lookup k = some v := by
  obtain ⟨k, hk⟩ := Finset.card_ne_zero.mp h
  exact ⟨k, Finmap.mem_iff.mp (Finmap.mem_keys.mp hk)⟩

theorem size_lt_size {m m' : Map K V} {k : K} {v : V}
    (hsub : ∀ k, m.lookup k = none → m'.lookup k = none) (hk : m.lookup k = some v)
    (hk' : m'.lookup k = none) : m'.size < m.size := by
  refine Finset.card_lt_card ⟨fun j hj => ?_, fun hle => ?_⟩
  · refine Finmap.mem_keys.mpr (Classical.byContradiction fun hnot => ?_)
    exact Finmap.lookup_eq_none.mp (hsub j (Finmap.lookup_eq_none.mpr hnot)) (Finmap.mem_keys.mp hj)
  · have hmem := hle (Finmap.mem_keys.mpr (Finmap.mem_of_lookup_eq_some hk))
    exact Finmap.lookup_eq_none.mp hk' (Finmap.mem_keys.mp hmem)

theorem exists_bound (m : Map K V) (f : V → Nat) : ∃ n, ∀ k v, m.lookup k = some v → f v < n := by
  refine ⟨(m.keys.sup fun k => (m.lookup k).elim 0 f) + 1, fun k v hk => Nat.lt_succ_of_le ?_⟩
  have hmem := Finmap.mem_keys.mpr (Finmap.mem_of_lookup_eq_some hk)
  have hle := Finset.le_sup (f := fun k => (m.lookup k).elim 0 f) hmem
  simpa only [hk, Option.elim_some] using hle

theorem keys_insert (m : Map K V) (k : K) (v : V) :
    (m.insert k v).keys = Insert.insert k m.keys := by
  ext k'
  simp [insert, Finmap.mem_keys]

theorem size_insert {m : Map K V} {k : K} {v : V} (h : m.lookup k = none) :
    (m.insert k v).size = m.size + 1 := by
  have hk : k ∉ m.keys := fun hk => Finmap.lookup_eq_none.mp h (Finmap.mem_keys.mp hk)
  rw [size, keys_insert, Finset.card_insert_of_notMem hk, size]

theorem size_insert_of_some {m : Map K V} {k : K} {v : V} (h : m.lookup k = some v) (v' : V) :
    (m.insert k v').size = m.size := by
  have hk : k ∈ m.keys := Finmap.mem_keys.mpr (Finmap.mem_of_lookup_eq_some h)
  rw [size, keys_insert, Finset.insert_eq_of_mem hk, size]

theorem size_insert_le (m : Map K V) (k : K) (v : V) : (m.insert k v).size ≤ m.size + 1 := by
  rw [size, keys_insert]
  exact Finset.card_insert_le _ _

theorem size_erase_le (m : Map K V) (k : K) : (m.erase k).size ≤ m.size := by
  have hkeys : (m.erase k).keys = m.keys.erase k := Finmap.keys_erase k m
  rw [size, hkeys]
  exact Finset.card_erase_le

theorem size_erase {m : Map K V} {k : K} {v : V} (h : m.lookup k = some v) :
    (m.erase k).size + 1 = m.size := by
  have hk : k ∈ m.keys := Finmap.mem_keys.mpr (Finmap.mem_of_lookup_eq_some h)
  have hkeys : (m.erase k).keys = m.keys.erase k := Finmap.keys_erase k m
  rw [size, hkeys, Finset.card_erase_add_one hk, size]

theorem length_le_size {m : Map K V} {l : List K} (hn : l.Nodup)
    (h : ∀ k ∈ l, ∃ v, m.lookup k = some v) : l.length ≤ m.size := by
  rw [← List.toFinset_card_of_nodup hn, size]
  refine Finset.card_le_card fun k hk => ?_
  obtain ⟨v, hv⟩ := h k (List.mem_toFinset.mp hk)
  exact Finmap.mem_keys.mpr (Finmap.mem_of_lookup_eq_some hv)

theorem size_le_length {m : Map K V} {l : List K}
    (h : ∀ k v, m.lookup k = some v → k ∈ l) : m.size ≤ l.length := by
  refine le_trans (Finset.card_le_card fun k hk => ?_) (List.toFinset_card_le l)
  obtain ⟨v, hv⟩ := Finmap.mem_iff.mp (Finmap.mem_keys.mp hk)
  exact List.mem_toFinset.mpr (h k v hv)

theorem values_insert {m : Map K V} {k : K} {v : V} (h : m.lookup k = none) :
    (m.insert k v).values = v ::ₘ m.values := by
  have hk : k ∉ m := Finmap.lookup_eq_none.mp h
  simp [values, insert, Finmap.entries_insert_of_notMem hk]

theorem insert_erase {m : Map K V} {k : K} {v : V} (h : m.lookup k = some v) :
    (m.erase k).insert k v = m := by
  refine Finmap.ext_lookup fun k' => (lookup_insert _ k k' v).trans ?_
  split
  next hk => exact hk ▸ h.symm
  next hk => exact (lookup_erase m k k').trans (if_neg hk)

theorem erase_insert (m : Map K V) (k : K) (v : V) : (m.insert k v).erase k = m.erase k := by
  refine Finmap.ext_lookup fun k' => (lookup_erase _ k k').trans ?_
  rw [lookup_insert]
  split
  next hk => exact hk ▸ (lookup_erase_self m k').symm
  next hk => exact ((lookup_erase m k k').trans (if_neg hk)).symm

theorem insert_eq_self_iff {m : Map K V} {k : K} {v : V} :
    m.insert k v = m ↔ m.lookup k = some v := by
  constructor
  · intro h
    rw [← h, lookup_insert_self]
  · intro h
    refine Finmap.ext_lookup fun k' => (lookup_insert m k k' v).trans ?_
    split
    next hk => exact hk ▸ h.symm
    next => rfl

theorem values_erase {m : Map K V} {k : K} {v : V} (h : m.lookup k = some v) :
    m.values = v ::ₘ (m.erase k).values := by
  rw [← values_insert (lookup_erase_self m k), insert_erase h]

theorem values_erase_le (m : Map K V) (k : K) : (m.erase k).values ≤ m.values := by
  cases h : m.lookup k with
  | none => rw [erase_of_none h]
  | some v => exact values_erase h ▸ Multiset.le_cons_self _ _

theorem values_insert_le (m : Map K V) (k : K) (v : V) :
    (m.insert k v).values ≤ v ::ₘ m.values := by
  have h : (m.insert k v).values = v ::ₘ (m.erase k).values := by
    rw [values_erase (lookup_insert_self m k v), erase_insert]
  rw [h]
  exact Multiset.cons_le_cons v (values_erase_le m k)

theorem sum_insert_add {m : Map K V} {k : K} {v : V} (f : V → Nat) (h : m.lookup k = some v)
    (v' : V) : ((m.insert k v').values.map f).sum + f v = (m.values.map f).sum + f v' := by
  rw [values_erase (lookup_insert_self m k v'), erase_insert, values_erase h]
  simp only [Multiset.map_cons, Multiset.sum_cons]
  omega

omit [DecidableEq K] in
theorem values_retain_le (p : K → V → Bool) (m : Map K V) : (m.retain p).values ≤ m.values :=
  Multiset.map_le_map (Multiset.filter_le _ m.entries)

theorem mem_values {m : Map K V} {v : V} : v ∈ m.values ↔ ∃ k, m.lookup k = some v := by
  simp only [values, Multiset.mem_map, lookup_eq_some_iff_mem]
  constructor
  · rintro ⟨⟨k, v⟩, hmem, rfl⟩
    exact ⟨k, hmem⟩
  · rintro ⟨k, hmem⟩
    exact ⟨⟨k, v⟩, hmem, rfl⟩

theorem values_map_nodup {m : Map K V} {f : V → K} (h : ∀ k v, m.lookup k = some v → f v = k) :
    (m.values.map f).Nodup := by
  have hkeys : m.values.map f = m.keys.val := by
    rw [values, Multiset.map_map]
    refine Multiset.map_congr rfl fun e he => ?_
    exact h e.1 e.2 (lookup_eq_some_iff_mem.mpr he)
  rw [hkeys]
  exact m.keys.nodup

theorem values_eq_zero {m : Map K V} (h : m.size = 0) : m.values = 0 := by
  refine Multiset.eq_zero_of_forall_notMem fun v hv => ?_
  obtain ⟨k, hk⟩ := mem_values.mp hv
  rw [lookup_eq_none_of_size h] at hk
  contradiction

end Map

end BdsPro.Library
