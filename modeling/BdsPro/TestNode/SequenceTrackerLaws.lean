import BdsPro.TestNode.SequenceTracker

namespace BdsPro.TestNode

open BdsPro.Library

namespace MissingSequenceTracker

def Spare (added : Finset Nat) : Prop := ∃ n, 0 < n ∧ n < 2 ^ 64 ∧ n ∉ added

theorem Spare.mono {s s' : Finset Nat} (h : Spare s') (hs : s ⊆ s') : Spare s := by
  obtain ⟨n, hpos, hlt, hn⟩ := h
  exact ⟨n, hpos, hlt, fun hmem => hn (hs hmem)⟩

theorem spare_iff {added : Finset Nat} (hm : FirstMissing added m) :
    Spare added ↔ m < 2 ^ 64 := by
  constructor
  · rintro ⟨n, hpos, hlt, hn⟩
    exact (hm.le hpos hn).trans_lt hlt
  · intro hlt
    exact ⟨m, hm.pos, hlt, hm.notMem⟩

structure Tracks (added : Finset Nat) (t : MissingSequenceTracker) : Prop where
  positive : ∀ n ∈ added, 0 < n
  seen : ∀ n, n ∈ t.seen ↔ n ∈ added ∧ t.lowestRemoved < n
  removed : ∀ n, 0 < n → n ≤ t.lowestRemoved → n ∈ added
  highest : ∀ n ∈ added, n ≤ t.highestSeen
  attained : t.highestSeen = 0 ∨ t.highestSeen ∈ added
  bounded : t.highestSeen < 2 ^ 64

theorem Tracks.new : Tracks ∅ new where
  positive _ h := absurd h (Finset.notMem_empty _)
  seen n := by simp [MissingSequenceTracker.new]
  removed _ hpos hle := absurd hle (Nat.not_le.mpr hpos)
  highest _ h := absurd h (Finset.notMem_empty _)
  attained := .inl rfl
  bounded := by decide

theorem Tracks.removed_le {t : MissingSequenceTracker} (h : Tracks added t) :
    t.lowestRemoved ≤ t.highestSeen := by
  by_cases hzero : t.lowestRemoved = 0
  · rw [hzero]
    exact Nat.zero_le _
  · exact h.highest _ (h.removed _ (Nat.pos_of_ne_zero hzero) le_rfl)

theorem Tracks.notMem_seen {t : MissingSequenceTracker} (h : Tracks added t) (hn : n ∉ added) :
    n ∉ t.seen := fun hmem => hn ((h.seen n).mp hmem).1

theorem Tracks.above {t : MissingSequenceTracker} (h : Tracks added t) (hpos : 0 < n)
    (hn : n ∉ added) : t.lowestRemoved < n := by
  by_contra hle
  exact hn (h.removed n hpos (Nat.not_lt.mp hle))

theorem Tracks.card_eq_iff {t : MissingSequenceTracker} (h : Tracks added t)
    (hm : FirstMissing added m) :
    t.seen.card = t.highestSeen - t.lowestRemoved ↔ t.highestSeen < m := by
  have hsubset : t.seen ⊆ Finset.Ioc t.lowestRemoved t.highestSeen := by
    intro n hn
    obtain ⟨hadded, hlt⟩ := (h.seen n).mp hn
    exact Finset.mem_Ioc.mpr ⟨hlt, h.highest n hadded⟩
  rw [← eq_Ioc_iff_card hsubset]
  constructor
  · intro heq
    refine hm.lt fun n hpos hle => ?_
    by_cases hremoved : n ≤ t.lowestRemoved
    · exact h.removed n hpos hremoved
    · have hseen : n ∈ t.seen := heq ▸ Finset.mem_Ioc.mpr ⟨Nat.not_le.mp hremoved, hle⟩
      exact ((h.seen n).mp hseen).1
  · intro hlt
    refine Finset.Subset.antisymm hsubset fun n hn => ?_
    obtain ⟨habove, hle⟩ := Finset.mem_Ioc.mp hn
    exact (h.seen n).mpr ⟨hm.mem_of_lt (Nat.zero_lt_of_lt habove) (hle.trans_lt hlt), habove⟩

theorem scan_eq {t : MissingSequenceTracker} (hn : n ∉ t.seen) (hlt : n < 2 ^ 64)
    (below : ∀ k, i + t.lowestRemoved ≤ k → k < n → k ∈ t.seen) (hi : i + t.lowestRemoved ≤ n)
    (hrounds : n < i + t.lowestRemoved + rounds) : t.scan rounds i = some n := by
  induction rounds generalizing i with
  | zero => omega
  | succ rounds ih =>
    rw [scan, Checked.add_eq_some (by omega), Option.bind_some]
    by_cases heq : i + t.lowestRemoved = n
    · rw [heq, if_neg hn]
    · rw [if_pos (below _ le_rfl (by omega))]
      exact ih (fun k hk => below k (by omega)) (by omega) (by omega)

theorem Tracks.first_le {t : MissingSequenceTracker} (h : Tracks added t)
    (hm : FirstMissing added m) : m ≤ t.highestSeen + 1 :=
  hm.le (Nat.succ_pos _) fun hmem => absurd (h.highest _ hmem) (Nat.not_succ_le_self _)

theorem Tracks.query_eq {t : MissingSequenceTracker} (h : Tracks added t)
    (hm : FirstMissing added m) : t.query = if m < 2 ^ 64 then some m else none := by
  have hremoved := h.removed_le
  have hbounded := h.bounded
  have habove : t.lowestRemoved < m := hm.lt h.removed
  rw [query, Checked.sub_eq_some hremoved, Option.bind_some]
  simp only [h.card_eq_iff hm]
  split
  next hlt =>
    have hfirst := h.first_le hm
    obtain rfl : m = t.highestSeen + 1 := by omega
    rfl
  next hge =>
    rw [if_pos (by omega)]
    refine scan_eq (h.notMem_seen hm.notMem) (by omega) (fun k hk hlt => ?_) (by omega) (by omega)
    exact (h.seen k).mpr ⟨hm.mem_of_lt (by omega) hlt, by omega⟩

theorem Tracks.drop {t : MissingSequenceTracker} (h : Tracks added t)
    (hm : FirstMissing added m) :
    Tracks added { t with seen := t.seen.filter (m < ·), lowestRemoved := m - 1 } where
  positive := h.positive
  seen n := by
    have hpos := hm.pos
    have habove := hm.lt h.removed
    simp only [Finset.mem_filter, h.seen]
    constructor
    · rintro ⟨⟨hadded, -⟩, hlt⟩
      exact ⟨hadded, by omega⟩
    · rintro ⟨hadded, hlt⟩
      have hne : n ≠ m := fun heq => hm.notMem (heq ▸ hadded)
      exact ⟨⟨hadded, by omega⟩, by omega⟩
  removed n hpos hle := hm.mem_of_lt hpos (Nat.lt_of_le_pred hm.pos hle)
  highest := h.highest
  attained := h.attained
  bounded := h.bounded

theorem Tracks.prune {t t' : MissingSequenceTracker} (h : Tracks added t)
    (hp : t.prune = some t') : Tracks added t' := by
  unfold MissingSequenceTracker.prune at hp
  split at hp
  next =>
    obtain ⟨m, hm⟩ := exists_firstMissing added
    simp only [h.query_eq hm, Option.bind_eq_some_iff, Option.map_eq_some_iff,
      Option.ite_none_right_eq_some, Option.some.injEq] at hp
    obtain ⟨_, ⟨-, rfl⟩, removed, hremoved, rfl⟩ := hp
    rw [Checked.sub_eq_some hm.pos] at hremoved
    exact Option.some.inj hremoved ▸ h.drop hm
  next => exact Option.some.inj hp ▸ h

theorem prune_of_query {t : MissingSequenceTracker} (hm : 0 < m) (hquery : t.query = some m) :
    ∃ t', t.prune = some t' := by
  unfold MissingSequenceTracker.prune
  split
  next =>
    rw [hquery, Option.bind_some, Checked.sub_eq_some hm]
    exact ⟨_, rfl⟩
  next => exact ⟨t, rfl⟩

theorem Tracks.exists_prune {t : MissingSequenceTracker} (h : Tracks added t)
    (spare : Spare added) : ∃ t', t.prune = some t' := by
  obtain ⟨m, hm⟩ := exists_firstMissing added
  exact prune_of_query hm.pos ((h.query_eq hm).trans (if_pos ((spare_iff hm).mp spare)))

theorem Tracks.insertNum {t : MissingSequenceTracker} (h : Tracks added t)
    (habove : t.lowestRemoved < n) (hlt : n < 2 ^ 64) :
    Tracks (insert n added) (t.insertNum n) where
  positive k hk := by
    obtain rfl | hk := Finset.mem_insert.mp hk
    · exact Nat.zero_lt_of_lt habove
    · exact h.positive k hk
  seen k := by
    simp only [MissingSequenceTracker.insertNum, Finset.mem_insert, h.seen]
    constructor
    · rintro (rfl | ⟨hadded, hk⟩)
      · exact ⟨.inl rfl, habove⟩
      · exact ⟨.inr hadded, hk⟩
    · rintro ⟨rfl | hadded, hk⟩
      · exact .inl rfl
      · exact .inr ⟨hadded, hk⟩
  removed k hpos hle := Finset.mem_insert_of_mem (h.removed k hpos hle)
  highest k hk := by
    simp only [MissingSequenceTracker.insertNum]
    obtain rfl | hk := Finset.mem_insert.mp hk
    · split <;> omega
    · have := h.highest k hk
      split <;> omega
  attained := by
    simp only [MissingSequenceTracker.insertNum]
    split
    next => exact .inr (Finset.mem_insert_self _ _)
    next => exact h.attained.imp_right Finset.mem_insert_of_mem
  bounded := by
    have := h.bounded
    simp only [MissingSequenceTracker.insertNum]
    split <;> omega

theorem add_eq_some {t t' : MissingSequenceTracker} (h : t.add n = some t') :
    0 < n ∧ n ∉ t.seen ∧ (t.insertNum n).prune = some t' := by
  obtain ⟨⟨hpos, hn⟩, hp⟩ := Option.ite_none_right_eq_some.mp h
  exact ⟨hpos, hn, hp⟩

theorem Tracks.exists_add {t : MissingSequenceTracker} (h : Tracks added t) (hpos : 0 < n)
    (hlt : n < 2 ^ 64) (hn : n ∉ added) (spare : Spare (insert n added)) :
    ∃ t', t.add n = some t' ∧ Tracks (insert n added) t' := by
  have hinsert := h.insertNum (h.above hpos hn) hlt
  obtain ⟨t', hp⟩ := hinsert.exists_prune spare
  refine ⟨t', ?_, hinsert.prune hp⟩
  rw [add, if_pos ⟨hpos, h.notMem_seen hn⟩, hp]

theorem notMem_insert_of_cons {added : Finset Nat} {l : List Nat} (hn : n ∉ l)
    (new : ∀ k ∈ n :: l, k ∉ added) : ∀ k ∈ l, k ∉ insert n added := by
  intro k hk hmem
  obtain rfl | hmem := Finset.mem_insert.mp hmem
  · exact hn hk
  · exact new k (List.mem_cons_of_mem n hk) hmem

theorem union_toFinset_cons (added : Finset Nat) (n : Nat) (l : List Nat) :
    added ∪ (n :: l).toFinset = insert n added ∪ l.toFinset := by
  rw [List.toFinset_cons, Finset.union_insert, Finset.insert_union]

theorem Tracks.exists_addAll {t : MissingSequenceTracker} {l : List Nat} (h : Tracks added t)
    (distinct : l.Nodup) (bounded : ∀ n ∈ l, 0 < n ∧ n < 2 ^ 64) (new : ∀ n ∈ l, n ∉ added)
    (spare : Spare (added ∪ l.toFinset)) : ∃ t', l.foldlM add t = some t' := by
  induction l generalizing t added with
  | nil => exact ⟨t, rfl⟩
  | cons n l ih =>
    obtain ⟨hn, distinct⟩ := List.nodup_cons.mp distinct
    obtain ⟨hpos, hlt⟩ := bounded n List.mem_cons_self
    rw [union_toFinset_cons] at spare
    obtain ⟨t', hadd, htracks⟩ := h.exists_add hpos hlt (new n List.mem_cons_self)
      (spare.mono Finset.subset_union_left)
    rw [List.foldlM_cons, hadd]
    exact ih htracks distinct (fun k hk => bounded k (List.mem_cons_of_mem n hk))
      (notMem_insert_of_cons hn new) spare

theorem Tracks.addAll {t t' : MissingSequenceTracker} {l : List Nat} (h : Tracks added t)
    (distinct : l.Nodup) (bounded : ∀ n ∈ l, n < 2 ^ 64) (new : ∀ n ∈ l, n ∉ added)
    (hs : l.foldlM add t = some t') : Tracks (added ∪ l.toFinset) t' := by
  induction l generalizing t added with
  | nil =>
    obtain rfl := Option.some.inj hs
    simpa using h
  | cons n l ih =>
    obtain ⟨hn, distinct⟩ := List.nodup_cons.mp distinct
    rw [List.foldlM_cons] at hs
    obtain ⟨s, hadd, hs⟩ := Option.bind_eq_some_iff.mp hs
    obtain ⟨hpos, -, hp⟩ := add_eq_some hadd
    have habove := h.above hpos (new n List.mem_cons_self)
    rw [union_toFinset_cons]
    exact ih ((h.insertNum habove (bounded n List.mem_cons_self)).prune hp) distinct
      (fun k hk => bounded k (List.mem_cons_of_mem n hk)) (notMem_insert_of_cons hn new) hs

theorem tracks_of_addAll {t : MissingSequenceTracker} {l : List Nat} (distinct : l.Nodup)
    (bounded : ∀ n ∈ l, n < 2 ^ 64) (hs : addAll l = some t) : Tracks l.toFinset t := by
  have htracks := Tracks.new.addAll distinct bounded (fun n _ => Finset.notMem_empty n) hs
  rwa [Finset.empty_union] at htracks

theorem exists_addAll {l : List Nat} (distinct : l.Nodup)
    (bounded : ∀ n ∈ l, 0 < n ∧ n < 2 ^ 64) (spare : Spare l.toFinset) :
    ∃ t, addAll l = some t := by
  rw [← Finset.empty_union l.toFinset] at spare
  exact Tracks.new.exists_addAll distinct bounded (fun n _ => Finset.notMem_empty n) spare

theorem exists_addAll_of_lt {l : List Nat} (distinct : l.Nodup)
    (bounded : ∀ n ∈ l, 0 < n ∧ n < 2 ^ 64 - 1) : ∃ t, addAll l = some t := by
  have hspare : 2 ^ 64 - 1 ∉ l.toFinset :=
    fun hn => Nat.lt_irrefl _ (bounded _ (List.mem_toFinset.mp hn)).2
  exact exists_addAll distinct
    (fun n hn => (bounded n hn).imp_right fun hlt => hlt.trans (by decide))
    ⟨2 ^ 64 - 1, by decide, by decide, hspare⟩

theorem Tracks.range {k : Nat} (hk : k < 2 ^ 64) :
    Tracks (Finset.Ioc 0 k) ⟨Finset.Ioc 0 k, k, 0⟩ where
  positive n hn := (Finset.mem_Ioc.mp hn).1
  seen n := by simp +contextual
  removed n hpos hle := absurd hle (Nat.not_le.mpr hpos)
  highest n hn := (Finset.mem_Ioc.mp hn).2
  attained := (Nat.eq_zero_or_pos k).imp_right fun hpos => Finset.mem_Ioc.mpr ⟨hpos, le_rfl⟩
  bounded := hk

theorem add_range (k : Nat) :
    add ⟨Finset.Ioc 0 k, k, 0⟩ (k + 1) =
      MissingSequenceTracker.prune ⟨Finset.Ioc 0 (k + 1), k + 1, 0⟩ := by
  have hseen : insert (k + 1) (Finset.Ioc 0 k) = Finset.Ioc 0 (k + 1) := by
    ext n
    simp only [Finset.mem_insert, Finset.mem_Ioc]
    omega
  rw [add, if_pos ⟨Nat.succ_pos k, by simp⟩]
  simp only [MissingSequenceTracker.insertNum, Nat.lt_succ_self, if_true, hseen]

theorem addAll_range {k : Nat} (hk : k ≤ 1000) :
    addAll (List.range' 1 (k + 1)) =
      MissingSequenceTracker.prune ⟨Finset.Ioc 0 (k + 1), k + 1, 0⟩ := by
  induction k with
  | zero => exact (bind_pure (add new 1)).trans (add_range 0)
  | succ k ih =>
    have hsmall : MissingSequenceTracker.prune ⟨Finset.Ioc 0 (k + 1), k + 1, 0⟩ =
        some ⟨Finset.Ioc 0 (k + 1), k + 1, 0⟩ := if_neg (by simp only [Nat.card_Ioc]; omega)
    have hrange : List.range' 1 (k + 2) = List.range' 1 (k + 1) ++ [k + 2] := by
      rw [List.range'_concat, Nat.one_mul, Nat.add_comm 1 (k + 1)]
    rw [addAll, hrange, List.foldlM_append, ← addAll, ih (by omega), hsmall]
    exact (bind_pure _).trans (add_range (k + 1))

theorem prune_range {k : Nat} (hk : 1000 < k) (hlt : k + 1 < 2 ^ 64) :
    MissingSequenceTracker.prune ⟨Finset.Ioc 0 k, k, 0⟩ = some ⟨∅, k, k⟩ ∧
      Tracks (Finset.Ioc 0 k) ⟨∅, k, k⟩ := by
  have htracks := Tracks.range (Nat.lt_of_succ_lt hlt)
  have hm := FirstMissing.Ioc k
  have hempty : (Finset.Ioc 0 k).filter (k + 1 < ·) = ∅ := by
    ext n
    simp only [Finset.mem_filter, Finset.mem_Ioc, Finset.notMem_empty, iff_false]
    omega
  refine ⟨?_, hempty ▸ htracks.drop hm⟩
  rw [MissingSequenceTracker.prune, if_pos (by simpa only [Nat.card_Ioc, Nat.sub_zero] using hk),
    htracks.query_eq hm, if_pos hlt, ← hempty]
  rfl

theorem nodup_gap : (List.range' 1 1001 ++ [1003]).Nodup := by
  refine List.nodup_append.mpr ⟨List.nodup_range', List.nodup_singleton 1003, ?_⟩
  rintro n hn _ hm rfl
  rw [List.mem_singleton.mp hm] at hn
  simp at hn

theorem addAll_pruned : addAll (List.range' 1 1001 ++ [1003]) = some ⟨{1003}, 1003, 1001⟩ := by
  obtain ⟨hprune, -⟩ := prune_range (k := 1001) (by decide) (by decide)
  have hadd : add ⟨∅, 1001, 1001⟩ 1003 = some ⟨{1003}, 1003, 1001⟩ := by decide
  rw [addAll, List.foldlM_append, ← addAll, addAll_range (k := 1000) le_rfl, hprune]
  exact (bind_pure _).trans hadd

theorem query_isLeast {l : List Nat} (distinct : l.Nodup)
    (positive : ∀ n ∈ l, 0 < n ∧ n < 2 ^ 64) (spare : ∃ n, 0 < n ∧ n < 2 ^ 64 ∧ n ∉ l) :
    ∃ t m, addAll l = some t ∧ t.query = some m ∧ IsLeast {n | 0 < n ∧ n ∉ l} m := by
  have hspare : Spare l.toFinset :=
    spare.imp fun n hn => ⟨hn.1, hn.2.1, List.mem_toFinset.not.mpr hn.2.2⟩
  obtain ⟨t, hadd⟩ := exists_addAll distinct positive hspare
  have htracks := tracks_of_addAll distinct (fun n hn => (positive n hn).2) hadd
  obtain ⟨m, hm⟩ := exists_firstMissing l.toFinset
  refine ⟨t, m, hadd, ?_, ?_⟩
  · rw [htracks.query_eq hm, if_pos ((spare_iff hm).mp hspare)]
  · simpa only [FirstMissing, List.mem_toFinset] using hm

theorem query_isLeast_pruned :
    ∃ t m, addAll (List.range' 1 1001 ++ [1003]) = some t ∧ t.lowestRemoved = 1001 ∧
      t.query = some m ∧ IsLeast {n | 0 < n ∧ n ∉ List.range' 1 1001 ++ [1003]} m := by
  obtain ⟨t, m, hadd, hquery, hleast⟩ := query_isLeast (l := List.range' 1 1001 ++ [1003])
    nodup_gap (by simp; omega) ⟨1002, by simp⟩
  obtain rfl := Option.some.inj (addAll_pruned.symm.trans hadd)
  exact ⟨_, m, hadd, rfl, hquery, hleast⟩

theorem Tracks.query_pruned {t : MissingSequenceTracker} (h : Tracks added t) (hpos : 0 < n)
    (hle : n ≤ t.lowestRemoved) (top : t.highestSeen + 1 < 2 ^ 64) :
    ∃ m, 0 < m ∧ { t with seen := insert n t.seen }.query = some m := by
  have hremoved := h.removed_le
  rw [query, Checked.sub_eq_some hremoved, Option.bind_some]
  split
  next => exact ⟨_, Nat.succ_pos _, Checked.add_eq_some top⟩
  next =>
    obtain ⟨m, hm⟩ := exists_firstMissing added
    have habove := hm.lt h.removed
    have hfirst := h.first_le hm
    refine ⟨m, hm.pos, scan_eq ?_ (by omega) (fun k hk hlt => ?_) ?_ ?_⟩
    · rw [Finset.mem_insert, not_or]
      exact ⟨by omega, h.notMem_seen hm.notMem⟩
    · refine Finset.mem_insert_of_mem ((h.seen k).mpr ?_)
      simp only at hk
      exact ⟨hm.mem_of_lt (by omega) hlt, by omega⟩
    · simp only
      omega
    · simp only
      omega

theorem Tracks.add_pruned {t : MissingSequenceTracker} (h : Tracks added t) (hpos : 0 < n)
    (hle : n ≤ t.lowestRemoved) (top : 2 ^ 64 - 1 ∉ added) : ∃ t', t.add n = some t' := by
  have hn : n ∉ t.seen := fun hmem => Nat.not_lt.mpr hle ((h.seen n).mp hmem).2
  have hremoved := h.removed_le
  have hbounded := h.bounded
  have htop : t.highestSeen ≠ 2 ^ 64 - 1 := fun heq =>
    h.attained.elim (fun hzero => by omega) fun hmem => top (heq ▸ hmem)
  have hinsert : t.insertNum n = { t with seen := insert n t.seen } := by
    rw [MissingSequenceTracker.insertNum, if_neg (by omega)]
  obtain ⟨m, hm, hquery⟩ := h.query_pruned hpos hle (by omega)
  rw [add, if_pos ⟨hpos, hn⟩, hinsert]
  exact prune_of_query hm hquery

end MissingSequenceTracker

namespace TrackerHistory

open MissingSequenceTracker (Tracks Spare)

theorem tracks_of_reaches {s : TrackerHistory} (h : machine.Reaches Kept s) :
    Tracks s.added s.tracker := by
  refine h.invariant (I := fun s => Tracks s.added s.tracker) Tracks.new ?_
  intro s n s' _ ih hkept hs
  obtain ⟨t, hadd, rfl⟩ := Option.map_eq_some_iff.mp hs
  obtain ⟨hpos, -, hp⟩ := MissingSequenceTracker.add_eq_some hadd
  have habove := hkept.2.resolve_left (Nat.ne_of_gt hpos)
  exact (ih.insertNum habove hkept.1).prune hp

theorem add_eq_none_iff {s : TrackerHistory} (htracks : Tracks s.added s.tracker)
    (kept : s.Kept n) (spare : Spare (insert n s.added)) :
    s.tracker.add n = none ↔ n = 0 ∨ n ∈ s.added := by
  constructor
  · intro hnone
    by_contra hnew
    obtain ⟨hne, hn⟩ := not_or.mp hnew
    obtain ⟨t, hadd, -⟩ := htracks.exists_add (Nat.pos_of_ne_zero hne) kept.1 hn spare
    rw [hadd] at hnone
    contradiction
  · intro hdup
    refine if_neg fun ⟨hpos, hn⟩ => hn ?_
    have hne := Nat.ne_of_gt hpos
    exact (htracks.seen n).mpr ⟨hdup.resolve_left hne, kept.2.resolve_left hne⟩

theorem duplicates_detected {s : TrackerHistory} (h : machine.Reaches Kept s) (hn : n < 2 ^ 64)
    (spare : ∃ m, 0 < m ∧ m < 2 ^ 64 ∧ m ≠ n ∧ m ∉ s.added) :
    (s.Kept n → (s.tracker.add n = none ↔ n = 0 ∨ n ∈ s.added)) ∧
      (¬s.Kept n → 2 ^ 64 - 1 ∉ s.added → ¬(s.tracker.add n = none ↔ n = 0 ∨ n ∈ s.added)) ∧
      ∃ m, s.tracker.query = some m ∧ IsLeast {k | 0 < k ∧ k ∉ s.added} m := by
  have htracks := tracks_of_reaches h
  have hspare : Spare (insert n s.added) := spare.imp fun m hm =>
    ⟨hm.1, hm.2.1, Finset.mem_insert.not.mpr (not_or.mpr hm.2.2)⟩
  obtain ⟨m, hm⟩ := exists_firstMissing s.added
  refine ⟨fun kept => add_eq_none_iff htracks kept hspare, fun pruned top hiff => ?_, m, ?_, hm⟩
  · obtain ⟨hne, hle⟩ := not_or.mp fun hor => pruned ⟨hn, hor⟩
    have hpos := Nat.pos_of_ne_zero hne
    have hle := Nat.not_lt.mp hle
    obtain ⟨t, hadd⟩ := htracks.add_pruned hpos hle top
    rw [hiff.mpr (.inr (htracks.removed n hpos hle))] at hadd
    contradiction
  · rw [htracks.query_eq hm, if_pos ((MissingSequenceTracker.spare_iff hm).mp
      (hspare.mono (Finset.subset_insert _ _)))]

theorem reaches_of_addAll {l : List Nat} {t : MissingSequenceTracker} (distinct : l.Nodup)
    (bounded : ∀ n ∈ l, n < 2 ^ 64) (hs : MissingSequenceTracker.addAll l = some t) :
    machine.Reaches Kept ⟨t, l.toFinset⟩ := by
  induction l using List.reverseRecOn generalizing t with
  | nil => exact Option.some.inj hs ▸ .init
  | append_singleton l n ih =>
    rw [MissingSequenceTracker.addAll, List.foldlM_append] at hs
    obtain ⟨t', hall, hadd⟩ := Option.bind_eq_some_iff.mp hs
    have hadd : t'.add n = some t := (bind_pure _).symm.trans hadd
    obtain ⟨hl, -, hn⟩ := List.nodup_append.mp distinct
    have hbounded : ∀ k ∈ l, k < 2 ^ 64 := fun k hk => bounded k (List.mem_append_left _ hk)
    have htracks := MissingSequenceTracker.tracks_of_addAll hl hbounded hall
    have hnew : n ∉ l.toFinset := fun hmem =>
      hn n (List.mem_toFinset.mp hmem) n List.mem_cons_self rfl
    have habove := htracks.above (MissingSequenceTracker.add_eq_some hadd).1 hnew
    refine .step (ih hl hbounded hall) (a := n) ⟨bounded n (by simp), .inr habove⟩ ?_
    have hset : (l ++ [n]).toFinset = insert n l.toFinset := by
      ext k
      simp
    rw [hset]
    exact congrArg (Option.map _) hadd

theorem duplicates_detected_pruned :
    ∃ s, machine.Reaches Kept s ∧ s.tracker.lowestRemoved = 1001 ∧ s.tracker.add 1003 = none := by
  have hs := reaches_of_addAll (l := List.range' 1 1001 ++ [1003])
    MissingSequenceTracker.nodup_gap (by simp; omega) MissingSequenceTracker.addAll_pruned
  obtain ⟨hrefused, -⟩ := duplicates_detected hs (n := 1003) (by decide) ⟨1002, by simp⟩
  exact ⟨_, hs, rfl, (hrefused ⟨by decide, .inr (by decide)⟩).mpr (.inr (by simp))⟩

/-- The numbers from 1 to 1001 are added, so that all of them are pruned, and then 5 again. -/
theorem pruned_duplicate_undetected :
    ¬∀ (l : List Nat) (t : MissingSequenceTracker) (n : Nat),
      MissingSequenceTracker.addAll l = some t → n < 2 ^ 64 →
      (t.add n = none ↔ n = 0 ∨ n ∈ l) := by
  intro h
  obtain ⟨hprune, htracks⟩ :=
    MissingSequenceTracker.prune_range (k := 1001) (by decide) (by decide)
  have hall := MissingSequenceTracker.addAll_range (k := 1000) le_rfl
  obtain ⟨t', hadd⟩ := htracks.add_pruned (n := 5) (by decide) (by decide) (by simp)
  have hdup := (h _ _ 5 (hall.trans hprune) (by decide)).mpr (.inr (by simp))
  rw [hadd] at hdup
  exact Option.some_ne_none t' hdup

end TrackerHistory

end BdsPro.TestNode
