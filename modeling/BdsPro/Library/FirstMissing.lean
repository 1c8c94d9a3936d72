import Mathlib.Data.Nat.Find
import Mathlib.Order.Bounds.Basic
import Mathlib.Order.Interval.Finset.Nat

/-! The least positive number that a finite set does not have. -/

namespace BdsPro.Library

def FirstMissing (s : Finset Nat) (m : Nat) : Prop := IsLeast {n | 0 < n ∧ n ∉ s} m

variable {s : Finset Nat}

theorem exists_firstMissing (s : Finset Nat) : ∃ m, FirstMissing s m := by
  classical
  have hex : ∃ n, 0 < n ∧ n ∉ s := by
    obtain ⟨n, hn⟩ := (insert 0 s).exists_notMem
    obtain ⟨hne, hn⟩ := not_or.mp (Finset.mem_insert.not.mp hn)
    exact ⟨n, Nat.pos_of_ne_zero hne, hn⟩
  exact ⟨Nat.find hex, Nat.find_spec hex, fun n hn => Nat.find_min' hex hn⟩

namespace FirstMissing

theorem pos (h : FirstMissing s m) : 0 < m := h.1.1

theorem notMem (h : FirstMissing s m) : m ∉ s := h.1.2

theorem le (h : FirstMissing s m) (hpos : 0 < n) (hn : n ∉ s) : m ≤ n := h.2 ⟨hpos, hn⟩

theorem mem_of_lt (h : FirstMissing s m) (hpos : 0 < n) (hlt : n < m) : n ∈ s := by
  by_contra hn
  exact Nat.not_le.mpr hlt (h.le hpos hn)

theorem lt (h : FirstMissing s m) (hk : ∀ n, 0 < n → n ≤ k → n ∈ s) : k < m := by
  by_contra hle
  exact h.notMem (hk m h.pos (Nat.not_lt.mp hle))

theorem Ioc (k : Nat) : FirstMissing (Finset.Ioc 0 k) (k + 1) := by
  refine ⟨⟨Nat.succ_pos k, by simp⟩, fun n hn => ?_⟩
  by_contra hle
  exact hn.2 (Finset.mem_Ioc.mpr ⟨hn.1, by omega⟩)

end FirstMissing

theorem eq_Ioc_iff_card (h : s ⊆ Finset.Ioc lo hi) : s = Finset.Ioc lo hi ↔ s.card = hi - lo := by
  constructor
  · intro heq
    rw [heq, Nat.card_Ioc]
  · intro hcard
    exact Finset.eq_of_subset_of_card_le h (by rw [Nat.card_Ioc, hcard])

end BdsPro.Library
