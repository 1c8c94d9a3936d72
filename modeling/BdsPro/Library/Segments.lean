import Mathlib.Data.List.Flatten
import Mathlib.Data.List.Infix
import Mathlib.Data.List.TakeDrop

/-! Logs that are kept one after the other, of which only the last may still grow.  A reader
has a position in one of them, and never goes back to an earlier one. -/

universe u v

namespace BdsPro.Library.Segments

variable {α : Type u} {β : Type v}

inductive Grows : List (List α) → List (List α) → Prop
  | still : Grows l l
  | opened : Grows l (l ++ [[]])
  | extended (more : w <+: w') : Grows (l ++ [w]) (l ++ [w'])

variable {l l' : List (List α)}

def upTo (l : List (List α)) (k n : Nat) : List α := (l[k]?.getD []).take n

theorem Grows.take (h : Grows l l') (hk : k < l.length) : l'.take k = l.take k := by
  cases h with
  | still => rfl
  | opened => exact List.take_append_of_le_length hk.le
  | extended =>
    rw [List.length_append, List.length_singleton] at hk
    rw [List.take_append_of_le_length (by omega), List.take_append_of_le_length (by omega)]

theorem Grows.log (h : Grows l l') (k : Nat) : l[k]?.getD [] <+: l'[k]?.getD [] := by
  by_cases hk : k < l.length
  · cases h with
    | still => exact List.prefix_rfl
    | opened => rw [List.getElem?_append_left hk]
    | @extended w w' l more =>
      by_cases hlast : k < l.length
      · rw [List.getElem?_append_left hlast, List.getElem?_append_left hlast]
      · obtain rfl : k = l.length := by
          rw [List.length_append, List.length_singleton] at hk
          omega
        simpa using more
  · rw [List.getElem?_eq_none (Nat.not_lt.mp hk)]
    exact List.nil_prefix

theorem Grows.length (h : Grows l l') : l.length ≤ l'.length := by
  cases h with
  | still => exact Nat.le_refl _
  | opened | extended => simp

theorem Grows.upTo (h : Grows l l') (hn : n ≤ (l[k]?.getD []).length) :
    upTo l' k n = upTo l k n := by
  obtain ⟨more, hmore⟩ := h.log k
  rw [Segments.upTo, Segments.upTo, ← hmore, List.take_append_of_le_length hn]

theorem upTo_succ (h : (l[k]?.getD [])[n]? = some a) : upTo l k (n + 1) = upTo l k n ++ [a] := by
  rw [upTo, upTo, List.take_add_one, h, Option.toList_some]

theorem read_sublist {f : List α → List β} {before : List β} (hk : k < l.length)
    (hf : ∀ w n, (f (w.take n)).Sublist (f w)) (hbefore : before.Sublist ((l.take k).flatMap f))
    (n : Nat) : (before ++ f (upTo l k n)).Sublist ((l.take (k + 1)).flatMap f) := by
  rw [List.take_add_one, List.flatMap_append, upTo, List.getElem?_eq_getElem hk]
  refine hbefore.append ?_
  simpa using hf l[k] n

theorem take_sublist {f : List α → List β} (hkm : k ≤ m) :
    ((l.take k).flatMap f).Sublist ((l.take m).flatMap f) :=
  ((List.take_sublist_take_left hkm).flatMap f)

end BdsPro.Library.Segments
