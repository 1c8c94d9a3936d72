import Mathlib.Algebra.Order.Group.Multiset
import Mathlib.Data.List.Basic
import Mathlib.Tactic.Abel

/-! Lists read as tables: rows are addressed by position, added at the end and rewritten in
place.  A law of all rows, and the existence of a row, are carried over both. -/

universe u

namespace BdsPro.Library.Table

variable {α : Type u} {l : List α}

theorem lt_of_row {i : Nat} {a : α} (h : l[i]? = some a) : i < l.length :=
  (List.getElem?_eq_some_iff.mp h).1

theorem set_self {i : Nat} {a : α} (h : l[i]? = some a) (b : α) : (l.set i b)[i]? = some b :=
  List.getElem?_set_self (lt_of_row h)

theorem set_cases {i j : Nat} {a b : α} (h : (l.set i a)[j]? = some b) :
    (i = j ∧ b = a) ∨ (i ≠ j ∧ l[j]? = some b) := by
  by_cases hij : i = j
  · subst hij
    rw [List.getElem?_set] at h
    simp only [if_true, Option.ite_none_right_eq_some, Option.some.injEq] at h
    exact .inl ⟨rfl, h.2.symm⟩
  · exact .inr ⟨hij, List.getElem?_set_ne hij ▸ h⟩

theorem concat_cases {j : Nat} {a b : α} (h : (l ++ [a])[j]? = some b) :
    l[j]? = some b ∨ (j = l.length ∧ b = a) := by
  by_cases hj : j < l.length
  · exact .inl (List.getElem?_append_left hj ▸ h)
  · have hlt := lt_of_row h
    rw [List.length_append, List.length_singleton] at hlt
    obtain rfl : j = l.length := by omega
    rw [List.getElem?_concat_length] at h
    exact .inr ⟨rfl, (Option.some.inj h).symm⟩

theorem concat_of_row {j : Nat} {a b : α} (h : l[j]? = some b) : (l ++ [a])[j]? = some b := by
  rw [List.getElem?_append_left (lt_of_row h)]
  exact h

theorem modify_cases {i j : Nat} {f : α → α} {b : α} (h : (l.modify i f)[j]? = some b) :
    ∃ a, l[j]? = some a ∧ (i = j ∧ b = f a ∨ i ≠ j ∧ b = a) := by
  rw [List.getElem?_modify] at h
  obtain ⟨a, ha, rfl⟩ := Option.map_eq_some_iff.mp h
  refine ⟨a, ha, ?_⟩
  by_cases hij : i = j
  · exact .inl ⟨hij, if_pos hij⟩
  · exact .inr ⟨hij, if_neg hij⟩

theorem modify_eq_set {i : Nat} {a : α} (h : l[i]? = some a) (f : α → α) :
    l.modify i f = l.set i (f a) := by
  refine List.ext_getElem? fun j => ?_
  rw [List.getElem?_modify, List.getElem?_set]
  split
  next hij =>
    subst hij
    rw [h, if_pos (lt_of_row h)]
    rfl
  next => exact Option.map_id_apply

theorem forall_set {P : Nat → α → Prop} {i : Nat} {a : α} (h : ∀ j b, l[j]? = some b → P j b)
    (ha : P i a) {j : Nat} {b : α} (hb : (l.set i a)[j]? = some b) : P j b := by
  rcases set_cases hb with ⟨rfl, rfl⟩ | ⟨-, hb⟩
  · exact ha
  · exact h j b hb

theorem forall_concat {P : Nat → α → Prop} {a : α} (h : ∀ j b, l[j]? = some b → P j b)
    (ha : P l.length a) {j : Nat} {b : α} (hb : (l ++ [a])[j]? = some b) : P j b := by
  rcases concat_cases hb with hb | ⟨rfl, rfl⟩
  · exact h j b hb
  · exact ha

theorem forall_modify {P : Nat → α → Prop} {i : Nat} {f : α → α}
    (h : ∀ j b, l[j]? = some b → P j b) (hf : ∀ b, l[i]? = some b → P i b → P i (f b)) {j : Nat}
    {b : α} (hb : (l.modify i f)[j]? = some b) : P j b := by
  obtain ⟨a, ha, ⟨rfl, rfl⟩ | ⟨-, rfl⟩⟩ := modify_cases hb
  · exact hf a ha (h i a ha)
  · exact h j b ha

theorem exists_set {P : α → Prop} {i j : Nat} {a b : α} (h : ∃ a, l[j]? = some a ∧ P a)
    (ha : l[i]? = some a) (hb : i = j → P a → P b) : ∃ a, (l.set i b)[j]? = some a ∧ P a := by
  obtain ⟨c, hc, hP⟩ := h
  by_cases hij : i = j
  · subst hij
    rw [ha, Option.some.injEq] at hc
    exact ⟨b, set_self ha b, hb rfl (hc ▸ hP)⟩
  · exact ⟨c, (List.getElem?_set_ne hij).trans hc, hP⟩

theorem exists_set_iff {P : α → Prop} {i j : Nat} {a b : α} (ha : l[i]? = some a) :
    (∃ c, (l.set i b)[j]? = some c ∧ P c) ↔ if i = j then P b else ∃ c, l[j]? = some c ∧ P c := by
  split
  next hij => simp [← hij, set_self ha]
  next hij => rw [List.getElem?_set_ne hij]

theorem exists_concat_iff {P : α → Prop} {j : Nat} {b : α} (hb : ¬P b) :
    (∃ c, (l ++ [b])[j]? = some c ∧ P c) ↔ ∃ c, l[j]? = some c ∧ P c := by
  constructor
  · rintro ⟨c, hc, hP⟩
    rcases concat_cases hc with hc | ⟨-, rfl⟩
    · exact ⟨c, hc, hP⟩
    · exact absurd hP hb
  · rintro ⟨c, hc, hP⟩
    exact ⟨c, concat_of_row hc, hP⟩

theorem exists_modify {P : α → Prop} {i j : Nat} {f : α → α} (h : ∃ a, l[j]? = some a ∧ P a)
    (hf : i = j → ∀ a, l[j]? = some a → P a → P (f a)) :
    ∃ a, (l.modify i f)[j]? = some a ∧ P a := by
  obtain ⟨a, ha, hP⟩ := h
  rw [List.getElem?_modify, ha]
  refine ⟨_, rfl, ?_⟩
  split
  next hij => exact hf hij a ha hP
  next => exact hP

theorem exists_mapIdx {P : α → Prop} {j : Nat} {f : Nat → α → α}
    (h : ∃ a, l[j]? = some a ∧ P a) (hf : ∀ a, P a → P (f j a)) :
    ∃ a, (l.mapIdx f)[j]? = some a ∧ P a := by
  obtain ⟨a, ha, hP⟩ := h
  refine ⟨f j a, ?_, hf a hP⟩
  rw [List.getElem?_mapIdx, ha]
  rfl

theorem exists_concat {P : α → Prop} {j : Nat} {b : α} (h : ∃ a, l[j]? = some a ∧ P a) :
    ∃ a, (l ++ [b])[j]? = some a ∧ P a := by
  obtain ⟨a, ha, hP⟩ := h
  exact ⟨a, concat_of_row ha, hP⟩

theorem countP_set_add {i : Nat} {a : α} (p : α → Bool) (h : l[i]? = some a) (b : α) :
    (l.set i b).countP p + (p a).toNat = l.countP p + (p b).toNat := by
  obtain ⟨hi, rfl⟩ := List.getElem?_eq_some_iff.mp h
  have hpos : p l[i] = true → 0 < l.countP p :=
    fun hp => List.countP_pos_iff.mpr ⟨_, List.getElem_mem hi, hp⟩
  rw [List.countP_set hi]
  cases hp : p l[i] with
  | false => cases p b <;> simp
  | true =>
    have := hpos hp
    cases p b <;> simp <;> omega

theorem filterMap_concat {β : Type u} (f : α → Option β) (l : List α) (a : α) :
    (l ++ [a]).filterMap f = l.filterMap f ++ (f a).toList := by
  rw [List.filterMap_append, List.filterMap_cons, List.filterMap_nil]
  cases f a <;> rfl

theorem filterMap_sublist {β : Type u} {f g : α → Option β}
    (h : ∀ a b, f a = some b → g a = some b) : (l.filterMap f).Sublist (l.filterMap g) := by
  induction l with
  | nil => exact List.Sublist.refl _
  | cons a l ih =>
    rw [List.filterMap_cons, List.filterMap_cons]
    cases hf : f a with
    | none =>
      cases g a with
      | none => exact ih
      | some b => exact ih.cons b
    | some b =>
      rw [h a b hf]
      exact ih.cons_cons b

theorem filterMap_set_add {β : Type u} {i : Nat} {a : α} (f : α → Option β)
    (h : l[i]? = some a) (b : α) :
    ((l.set i b).filterMap f + (f a).toList : Multiset β) = l.filterMap f + (f b).toList := by
  obtain ⟨hi, rfl⟩ := List.getElem?_eq_some_iff.mp h
  have hl : l = l.take i ++ l[i] :: l.drop (i + 1) := by
    rw [← List.drop_eq_getElem_cons hi, List.take_append_drop]
  have hcons (c : α) : (l.take i ++ c :: l.drop (i + 1)).filterMap f =
      (l.take i).filterMap f ++ ((f c).toList ++ (l.drop (i + 1)).filterMap f) := by
    rw [List.filterMap_append, List.filterMap_cons]
    cases f c <;> rfl
  have hset : (l.set i b).filterMap f =
      (l.take i).filterMap f ++ ((f b).toList ++ (l.drop (i + 1)).filterMap f) := by
    rw [List.set_eq_take_append_cons_drop, if_pos hi, hcons]
  have hget : l.filterMap f =
      (l.take i).filterMap f ++ ((f l[i]).toList ++ (l.drop (i + 1)).filterMap f) := by
    rw [← hcons, ← hl]
  rw [hset, hget]
  simp only [← Multiset.coe_add]
  abel

theorem sum_set_add {i : Nat} {a : α} (f : α → Nat) (h : l[i]? = some a) (b : α) :
    ((l.set i b).map f).sum + f a = (l.map f).sum + f b := by
  induction l generalizing i with
  | nil => contradiction
  | cons c l ih =>
    cases i with
    | zero =>
      obtain rfl : c = a := Option.some.inj h
      simp only [List.set_cons_zero, List.map_cons, List.sum_cons]
      omega
    | succ i =>
      have hrest := ih (i := i) h
      simp only [List.set_cons_succ, List.map_cons, List.sum_cons]
      omega

theorem map_set_eq {β : Type u} {i : Nat} {a b : α} {f : α → β} (h : l[i]? = some a)
    (hf : f b = f a) : (l.set i b).map f = l.map f := by
  obtain ⟨hi, rfl⟩ := List.getElem?_eq_some_iff.mp h
  have hmap : i < (l.map f).length := (List.length_map f).symm ▸ hi
  calc (l.set i b).map f
    _ = (l.map f).set i (l.map f)[i] := by rw [List.map_set, hf, List.getElem_map]
    _ = l.map f := List.set_getElem_self hmap

theorem filterMap_set_eq {β : Type u} {i : Nat} {a b : α} {f : α → Option β}
    (h : l[i]? = some a) (hf : f b = f a) :
    ((l.set i b).filterMap f : Multiset β) = l.filterMap f := by
  have hadd := filterMap_set_add f h b
  rw [hf] at hadd
  exact add_right_cancel hadd

theorem filterMap_set_none {β : Type u} {i : Nat} {a b : α} {c : β} {f : α → Option β}
    (h : l[i]? = some a) (ha : f a = some c) (hb : f b = none) :
    (l.filterMap f : Multiset β) = (l.set i b).filterMap f + {c} := by
  have hadd := filterMap_set_add f h b
  rw [ha, hb] at hadd
  exact ((add_zero _).symm.trans hadd.symm)

end BdsPro.Library.Table
