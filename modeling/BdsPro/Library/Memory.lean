import Mathlib.Data.List.Basic

/-! Blocks of memory, and copies from one to the start of another. -/

universe u

namespace BdsPro.Library

variable {α : Type u} {dest src : List α}

/-- There is no result where the copy reads or writes past the end of a block. -/
def memcpy (dest src : List α) (n : Nat) : Option (List α) :=
  if n ≤ dest.length ∧ n ≤ src.length then some (src.take n ++ dest.drop n) else none

theorem memcpy_all (h : src.length ≤ dest.length) :
    memcpy dest src src.length = some (src ++ dest.drop src.length) := by
  rw [memcpy, if_pos ⟨h, Nat.le_refl _⟩, List.take_length]

end BdsPro.Library
