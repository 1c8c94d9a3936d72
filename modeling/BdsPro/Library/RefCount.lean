import BdsPro.Library.Table
import Mathlib.Logic.Relation

/-! Reference counting.  A cell owns references to cells that were there before it, and hands
them on when its own last reference is given up.  So what is counted is what can be reached. -/

namespace BdsPro.Library

/-- `fields` are the references that the cell owns, `strong` counts the references to it. -/
structure Cell where
  fields : List Nat
  strong : Nat
  deriving DecidableEq

namespace Cell

def owned (c : Cell) : List Nat := if c.strong = 0 then [] else c.fields

theorem owned_of_pos {c : Cell} (h : 0 < c.strong) : c.owned = c.fields := if_neg h.ne'

end Cell

structure Heap where
  cells : List Cell
  deriving DecidableEq

namespace Heap

def empty : Heap := ⟨[]⟩

def strong (h : Heap) (i : Nat) : Nat := h.cells[i]?.elim 0 Cell.strong

def fields (h : Heap) (i : Nat) : List Nat := h.cells[i]?.elim [] Cell.fields

def alloc (h : Heap) (fields : List Nat) : Heap := ⟨h.cells ++ [⟨fields, 1⟩]⟩

def adjust (h : Heap) (i : Nat) (f : Nat → Nat) : Heap :=
  ⟨h.cells.modify i fun c => { c with strong := f c.strong }⟩

def clone (h : Heap) (i : Nat) : Heap := h.adjust i (· + 1)

def release (h : Heap) (i : Nat) : Heap := h.adjust i (· - 1)

def freed (h : Heap) (i : Nat) : List Nat := if h.strong i = 1 then h.fields i else []

def owned (h : Heap) : List Nat := h.cells.flatMap Cell.owned

structure Counted (roots : Multiset Nat) (h : Heap) : Prop where
  count : ∀ i, h.strong i = roots.count i + h.owned.count i
  down : ∀ i, ∀ j ∈ h.fields i, j < i

def Gone (h : Heap) (i : Nat) : Prop := i < h.cells.length ∧ h.strong i = 0

instance (h : Heap) (i : Nat) : Decidable (h.Gone i) := inferInstanceAs (Decidable (_ ∧ _))

def Owns (h : Heap) (i j : Nat) : Prop := j ∈ h.fields i

def Reached (h : Heap) (roots : Multiset Nat) (i : Nat) : Prop :=
  ∃ r ∈ roots, Relation.ReflTransGen h.Owns r i

variable {h : Heap} {roots : Multiset Nat} {fs : List Nat} {f : Nat → Nat} {i j k : Nat}

theorem row_of_pos (hi : 0 < h.strong i) :
    ∃ c, h.cells[i]? = some c ∧ c.strong = h.strong i ∧ c.fields = h.fields i := by
  unfold strong fields at *
  cases hc : h.cells[i]? with
  | none => simp [hc] at hi
  | some c => exact ⟨c, rfl, rfl, rfl⟩

theorem lt_of_pos (hi : 0 < h.strong i) : i < h.cells.length :=
  have ⟨_, hc, _⟩ := row_of_pos hi
  Table.lt_of_row hc

theorem strong_of_le (hi : h.cells.length ≤ i) : h.strong i = 0 := by
  rw [strong, List.getElem?_eq_none hi]
  rfl

theorem mem_owned : i ∈ h.owned ↔ ∃ j, 0 < h.strong j ∧ i ∈ h.fields j := by
  rw [owned, List.mem_flatMap]
  constructor
  · rintro ⟨c, hc, hi⟩
    obtain ⟨j, hj⟩ := List.mem_iff_getElem?.mp hc
    have hpos : 0 < c.strong := by
      refine Nat.pos_of_ne_zero fun hzero => ?_
      rw [Cell.owned, if_pos hzero] at hi
      exact List.not_mem_nil hi
    exact ⟨j, by simpa [strong, hj], by simpa [fields, hj] using Cell.owned_of_pos hpos ▸ hi⟩
  · rintro ⟨j, hj, hi⟩
    obtain ⟨c, hc, hstrong, hfields⟩ := row_of_pos hj
    refine ⟨c, List.mem_of_getElem? hc, ?_⟩
    rw [Cell.owned_of_pos (hstrong ▸ hj), hfields]
    exact hi

theorem length_alloc : (h.alloc fs).cells.length = h.cells.length + 1 := by
  simp [alloc]

theorem strong_alloc :
    (h.alloc fs).strong i = h.strong i + if i = h.cells.length then 1 else 0 := by
  split
  next hi =>
    rw [strong_of_le hi.ge, strong, alloc, hi, List.getElem?_concat_length]
    rfl
  next hi =>
    rw [strong, alloc, List.getElem?_append]
    split
    next => rfl
    next hlt =>
      rw [strong_of_le (Nat.le_of_not_lt hlt), List.getElem?_eq_none (by simp; omega)]
      rfl

theorem fields_alloc : (h.alloc fs).fields i = if i = h.cells.length then fs else h.fields i := by
  unfold fields alloc
  split
  next hi =>
    rw [hi, List.getElem?_concat_length]
    rfl
  next hi =>
    rw [List.getElem?_append]
    split
    next => rfl
    next hlt => rw [List.getElem?_eq_none (by simp; omega), List.getElem?_eq_none (by omega)]

theorem owned_alloc : (h.alloc fs).owned = h.owned ++ fs := by
  rw [owned, alloc, List.flatMap_append]
  exact congrArg _ (List.append_nil _)

@[simp]
theorem length_adjust : (h.adjust i f).cells.length = h.cells.length := by
  simp [adjust]

@[simp]
theorem fields_adjust : (h.adjust i f).fields j = h.fields j := by
  rw [fields, adjust, List.getElem?_modify, fields]
  cases h.cells[j]? with
  | none => rfl
  | some c => by_cases hij : i = j <;> simp [hij]

theorem owns_release : (h.release i).Owns j k ↔ h.Owns j k := by
  rw [Owns, release, fields_adjust, Owns]

theorem strong_adjust (hi : i < h.cells.length) :
    (h.adjust i f).strong j = if j = i then f (h.strong i) else h.strong j := by
  rw [strong, adjust, List.getElem?_modify, strong, strong]
  split
  next hij =>
    subst hij
    simp [List.getElem?_eq_getElem hi]
  next hij =>
    rw [if_neg (Ne.symm hij)]
    exact congrArg (Option.elim · 0 Cell.strong) Option.map_id_apply

theorem owned_adjust (hi : i < h.cells.length) :
    (h.adjust i f).owned.count j + (if h.strong i = 0 then [] else h.fields i).count j =
      h.owned.count j + (if f (h.strong i) = 0 then [] else h.fields i).count j := by
  have hc := List.getElem?_eq_getElem hi
  have hsum := Table.sum_set_add (fun c => c.owned.count j) hc
    { h.cells[i] with strong := f h.cells[i].strong }
  rw [← Table.modify_eq_set hc fun c => { c with strong := f c.strong }] at hsum
  simp only [owned, List.count_flatMap, strong, fields, hc]
  exact hsum

theorem strong_le_clone (hi : 0 < h.strong i) : h.strong j ≤ (h.clone i).strong j := by
  rw [clone, strong_adjust (lt_of_pos hi)]
  split
  next hj => exact hj ▸ Nat.le_succ _
  next => exact Nat.le_refl _

def cloneAll (h : Heap) (is : List Nat) : Heap := is.foldl clone h

theorem length_cloneAll {is : List Nat} : (h.cloneAll is).cells.length = h.cells.length := by
  induction is generalizing h with
  | nil => rfl
  | cons i is ih => exact ih.trans length_adjust

theorem fields_cloneAll {is : List Nat} : (h.cloneAll is).fields j = h.fields j := by
  induction is generalizing h with
  | nil => rfl
  | cons i is ih => exact ih.trans fields_adjust

theorem owns_cloneAll {is : List Nat} : (h.cloneAll is).Owns j k ↔ h.Owns j k := by
  rw [Owns, fields_cloneAll, Owns]

theorem strong_cloneAll {is : List Nat} (his : ∀ i ∈ is, 0 < h.strong i) :
    (h.cloneAll is).strong j = h.strong j + is.count j := by
  induction is generalizing h with
  | nil => rfl
  | cons i is ih =>
    obtain ⟨hi, hrest⟩ := List.forall_mem_cons.mp his
    refine (ih fun k hk => (hrest k hk).trans_le (strong_le_clone hi)).trans ?_
    rw [clone, strong_adjust (lt_of_pos hi), List.count_cons]
    by_cases hj : j = i
    · simp only [hj, if_true, BEq.rfl]
      omega
    · rw [if_neg hj, if_neg (by simpa using Ne.symm hj), Nat.add_zero]

theorem gone_alloc : (h.alloc fs).Gone i ↔ h.Gone i := by
  rw [Gone, Gone, length_alloc, strong_alloc]
  split
  next hi => simp [hi]
  next hi => rw [Nat.lt_succ_iff_lt_or_eq, or_iff_left hi, Nat.add_zero]

theorem gone_cloneAll {is : List Nat} (his : ∀ i ∈ is, 0 < h.strong i) :
    (h.cloneAll is).Gone j ↔ h.Gone j := by
  rw [Gone, Gone, length_cloneAll, strong_cloneAll his, Nat.add_eq_zero_iff, List.count_eq_zero]
  exact ⟨fun ⟨hj, hzero, _⟩ => ⟨hj, hzero⟩,
    fun ⟨hj, hzero⟩ => ⟨hj, hzero, fun hmem => (his j hmem).ne' hzero⟩⟩

theorem gone_release (hi : 0 < h.strong i) :
    (h.release i).Gone j ↔ h.Gone j ∨ j = i ∧ h.strong i = 1 := by
  rw [Gone, Gone, release, length_adjust, strong_adjust (lt_of_pos hi)]
  by_cases hj : j = i
  · subst hj
    simp only [lt_of_pos hi, hi.ne', if_true, true_and, and_false, false_or]
    omega
  · simp [hj]

namespace Counted

theorem empty : Counted 0 .empty := ⟨fun _ => rfl, nofun⟩

theorem pos_of_root (hc : Counted roots h) (hi : i ∈ roots) : 0 < h.strong i := by
  rw [hc.count]
  exact Nat.add_pos_left (Multiset.count_pos.mpr hi) _

theorem pos_of_owned (hc : Counted roots h) (hj : 0 < h.strong j) (hi : i ∈ h.fields j) :
    0 < h.strong i := by
  rw [hc.count]
  exact Nat.add_pos_right _ (List.count_pos_iff.mpr (mem_owned.mpr ⟨j, hj, hi⟩))

theorem reached_of_pos (hc : Counted roots h) (hi : 0 < h.strong i) : h.Reached roots i := by
  induction hn : h.cells.length - i using Nat.strong_induction_on generalizing i with
  | _ n ih =>
    by_cases hroot : i ∈ roots
    · exact ⟨i, hroot, .refl⟩
    · rw [hc.count, Multiset.count_eq_zero_of_notMem hroot, Nat.zero_add] at hi
      obtain ⟨j, hj, howned⟩ := mem_owned.mp (List.count_pos_iff.mp hi)
      have hlt := hc.down j i howned
      obtain ⟨r, hr, hpath⟩ := ih (h.cells.length - j) (by have := lt_of_pos hj; omega) hj rfl
      exact ⟨r, hr, hpath.tail howned⟩

theorem gone_of_owns (hc : Counted roots h) (hj : ¬0 < h.strong j) (howns : h.Owns i j) :
    h.Gone i := by
  refine ⟨?_, Nat.eq_zero_of_not_pos fun hi => hj (hc.pos_of_owned hi howns)⟩
  by_contra hi
  rw [Owns, fields, List.getElem?_eq_none (Nat.le_of_not_lt hi)] at howns
  exact List.not_mem_nil howns

theorem pos_iff_reached (hc : Counted roots h) : 0 < h.strong i ↔ h.Reached roots i := by
  refine ⟨hc.reached_of_pos, ?_⟩
  rintro ⟨r, hr, hpath⟩
  induction hpath with
  | refl => exact hc.pos_of_root hr
  | tail _ howned ih => exact hc.pos_of_owned ih howned

theorem alloc (hc : Counted (fs + roots) h) :
    Counted (h.cells.length ::ₘ roots) (h.alloc fs) where
  count i := by
    have hcount := hc.count i
    rw [Multiset.count_add, Multiset.coe_count] at hcount
    rw [strong_alloc, owned_alloc, List.count_append, Multiset.count_cons, hcount]
    omega
  down i j hj := by
    rw [fields_alloc] at hj
    split at hj
    next hi => exact hi ▸ lt_of_pos (hc.pos_of_root (Multiset.mem_add.mpr (.inl hj)))
    next => exact hc.down i j hj

theorem clone (hc : Counted roots h) (hi : 0 < h.strong i) : Counted (i ::ₘ roots) (h.clone i) where
  count j := by
    have hcount := hc.count j
    have howned := @owned_adjust h (· + 1) i j (lt_of_pos hi)
    rw [if_neg hi.ne', if_neg (Nat.succ_ne_zero _), Nat.add_right_cancel_iff] at howned
    rw [Heap.clone, strong_adjust (lt_of_pos hi), howned, Multiset.count_cons]
    split
    next hj =>
      subst hj
      omega
    next => omega
  down j k hk := hc.down j k (fields_adjust ▸ hk)

theorem cloneAll {is : List Nat} (hc : Counted roots h) (his : ∀ i ∈ is, 0 < h.strong i) :
    Counted (is + roots) (h.cloneAll is) := by
  induction is generalizing h roots with
  | nil =>
    rw [Multiset.coe_nil, zero_add]
    exact hc
  | cons i is ih =>
    obtain ⟨hi, hrest⟩ := List.forall_mem_cons.mp his
    have hall := ih (hc.clone hi) fun j hj => (hrest j hj).trans_le (strong_le_clone hi)
    rwa [Multiset.add_cons, ← Multiset.cons_add, Multiset.cons_coe] at hall

theorem release (hc : Counted (i ::ₘ roots) h) : Counted (h.freed i + roots) (h.release i) where
  count j := by
    have hi : 0 < h.strong i := hc.pos_of_root (Multiset.mem_cons_self i roots)
    have hcount := hc.count j
    have howned := @owned_adjust h (· - 1) i j (lt_of_pos hi)
    have hfreed : (if h.strong i - 1 = 0 then [] else h.fields i).count j + (h.freed i).count j =
        (h.fields i).count j := by
      unfold freed
      by_cases hlast : h.strong i = 1
      · rw [if_pos hlast, if_pos (Nat.sub_eq_zero_of_le hlast.le), List.count_nil, Nat.zero_add]
      · rw [if_neg hlast, if_neg (by omega), List.count_nil, Nat.add_zero]
    rw [if_neg hi.ne'] at howned
    rw [Multiset.count_cons] at hcount
    rw [Heap.release, strong_adjust (lt_of_pos hi), Multiset.count_add, Multiset.coe_count]
    split at hcount
    next hj =>
      subst hj
      rw [if_pos rfl]
      omega
    next hj =>
      rw [if_neg hj]
      omega
  down j k hk := hc.down j k (fields_adjust ▸ hk)

end Counted

end Heap

end BdsPro.Library
