import Mathlib.Algebra.Order.Floor.Div

/-! A loop that runs its body at the ticks of an interval until a bound has passed. -/

universe u

namespace BdsPro.Library.Ticker

variable {σ : Type u} {period bound rounds k : Nat}

/-- When the ticks come: the first at once, and then one after each period, which is not zero. -/
def interval (period : Nat) : Option (Nat → Nat) :=
  if period = 0 then none else some (· * period)

def loop (ticks : Nat → Nat) (bound : Nat) (body : Nat → σ → Option σ) :
    (rounds k : Nat) → σ → Option σ
  | 0, _, _ => none
  | rounds + 1, k, s =>
    if bound ≤ ticks k then some s
    else (body k s).bind (loop ticks bound body rounds (k + 1))

theorem interval_eq_some (h : period ≠ 0) : interval period = some (· * period) := if_neg h

theorem bound_le_iff (h : 0 < period) : bound ≤ k * period ↔ bound ⌈/⌉ period ≤ k := by
  rw [ceilDiv_le_iff_le_mul h, Nat.mul_comm]

theorem loop_eq {body : Nat → σ → Option σ} (h : 0 < period) (s : σ)
    (hk : k ≤ bound ⌈/⌉ period) (hrounds : bound ⌈/⌉ period < k + rounds) :
    loop (· * period) bound body rounds k s =
      (List.range' k (bound ⌈/⌉ period - k)).foldlM (fun s k => body k s) s := by
  induction rounds generalizing k s with
  | zero => omega
  | succ rounds ih =>
    rw [loop]
    simp only [bound_le_iff h]
    split
    next hle =>
      rw [Nat.sub_eq_zero_of_le hle]
      rfl
    next hlt =>
      have hsub : bound ⌈/⌉ period - k = bound ⌈/⌉ period - (k + 1) + 1 := by omega
      rw [hsub, List.range'_succ, List.foldlM_cons]
      refine congrArg (Option.bind (body k s)) (funext fun t => ?_)
      exact ih t (by omega) (by omega)

end BdsPro.Library.Ticker
