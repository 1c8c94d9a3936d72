import Mathlib.Algebra.Order.Group.Nat

/-! Arithmetic on unsigned numbers of `w` bits: there is no result where it leaves its range. -/

namespace BdsPro.Library.Checked

variable {w a b c : Nat}

def add (w a b : Nat) : Option Nat := if a + b < 2 ^ w then some (a + b) else none

def sub (a b : Nat) : Option Nat := if b ≤ a then some (a - b) else none

def mul (w a b : Nat) : Option Nat := if a * b < 2 ^ w then some (a * b) else none

theorem add_eq_some (h : a + b < 2 ^ w) : add w a b = some (a + b) := if_pos h

theorem sub_eq_some (h : b ≤ a) : sub a b = some (a - b) := if_pos h

theorem mul_eq_some (h : a * b < 2 ^ w) : mul w a b = some (a * b) := if_pos h

theorem of_add_eq_some (h : add w a b = some c) : a + b < 2 ^ w ∧ a + b = c := by
  simpa [add] using h

theorem of_sub_eq_some (h : sub a b = some c) : b ≤ a ∧ a - b = c := by
  simpa [sub] using h

theorem mapM_eq_some {α β : Type} {f : α → Option β} {g : α → β} {l : List α}
    (h : ∀ x ∈ l, f x = some (g x)) : l.mapM f = some (l.map g) := by
  induction l with
  | nil => rfl
  | cons x l ih =>
    rw [List.mapM_cons, h x List.mem_cons_self, ih fun y hy => h y (List.mem_cons_of_mem _ hy)]
    rfl

end BdsPro.Library.Checked
