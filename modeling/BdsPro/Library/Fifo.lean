import Mathlib.Data.List.Infix

/-! A first-in first-out passage that loses nothing: what has entered is what has left and
then what is inside, in one order. -/

universe u

namespace BdsPro.Library

variable {α : Type u} {entered left inside : List α} {a : α}

def Fifo (entered left inside : List α) : Prop := entered = left ++ inside

namespace Fifo

theorem empty : Fifo ([] : List α) [] [] := rfl

theorem enter (h : Fifo entered left inside) (a : α) :
    Fifo (entered ++ [a]) left (inside ++ [a]) := by
  rw [Fifo, ← List.append_assoc, ← h]

theorem leave (h : Fifo entered left (a :: inside)) : Fifo entered (left ++ [a]) inside := by
  rw [Fifo, List.append_assoc]
  exact h

theorem left_infix (h : Fifo entered left inside) : left <+: entered := ⟨inside, h.symm⟩

theorem filter (h : Fifo entered left inside) (p : α → Bool) :
    Fifo (entered.filter p) (left.filter p) (inside.filter p) := by
  rw [Fifo, h, List.filter_append]

theorem covers {before : List α} (h : Fifo entered left inside) (hb : before <+: entered)
    (length : before.length ≤ left.length) : before <+: left :=
  List.prefix_of_prefix_length_le hb h.left_infix length

end Fifo

end BdsPro.Library
