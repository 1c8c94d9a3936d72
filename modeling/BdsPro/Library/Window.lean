import BdsPro.Library.Machine

/-! A window of credits.  A credit is free, reserved by a caller that has not used it yet,
or occupied until it is released. -/

namespace BdsPro.Library

structure Window where
  free : Nat
  reserved : Nat
  occupied : Nat
  deriving DecidableEq

namespace Window

inductive Action
  | reserve | occupy | release

def step (w : Window) : Action → Option Window
  | .reserve => match w.free with
    | 0 => none
    | f + 1 => some { w with free := f, reserved := w.reserved + 1 }
  | .occupy => match w.reserved with
    | 0 => none
    | r + 1 => some { w with reserved := r, occupied := w.occupied + 1 }
  | .release => match w.occupied with
    | 0 => none
    | o + 1 => some { w with free := w.free + 1, occupied := o }

def machine (size : Nat) : Machine Window Action := ⟨⟨size, 0, 0⟩, step⟩

theorem step_reserve {w w' : Window} (hf : w.free = w'.free + 1)
    (hr : w'.reserved = w.reserved + 1) (ho : w'.occupied = w.occupied) :
    w.step .reserve = some w' := by
  obtain ⟨f, r, o⟩ := w
  obtain ⟨f', r', o'⟩ := w'
  simp only at hf hr ho
  subst hf hr ho
  rfl

theorem step_occupy {w w' : Window} (hf : w'.free = w.free)
    (hr : w.reserved = w'.reserved + 1) (ho : w'.occupied = w.occupied + 1) :
    w.step .occupy = some w' := by
  obtain ⟨f, r, o⟩ := w
  obtain ⟨f', r', o'⟩ := w'
  simp only at hf hr ho
  subst hf hr ho
  rfl

theorem step_release {w w' : Window} (hf : w'.free = w.free + 1)
    (hr : w'.reserved = w.reserved) (ho : w.occupied = w'.occupied + 1) :
    w.step .release = some w' := by
  obtain ⟨f, r, o⟩ := w
  obtain ⟨f', r', o'⟩ := w'
  simp only at hf hr ho
  subst hf hr ho
  rfl

def total (w : Window) : Nat := w.free + w.reserved + w.occupied

theorem step_total {w w' : Window} {a : Action} (h : w.step a = some w') :
    w'.total = w.total := by
  cases a with
  | reserve | occupy | release =>
    simp only [step] at h
    split at h
    · contradiction
    next heq =>
      rw [← Option.some.inj h]
      simp only [total, heq]
      omega

theorem total_eq_size {size : Nat} {w : Window} (h : (machine size).Reachable w) :
    w.total = size := by
  apply h.invariant
  · simp [machine, total]
  · intro s a t _ ih _ hs
    rw [step_total hs, ih]

theorem occupied_le {size : Nat} {w : Window} (h : (machine size).Reachable w) :
    w.occupied ≤ size := by
  have := total_eq_size h
  simp only [total] at this
  omega

theorem free_eq_size {size : Nat} {w : Window} (h : (machine size).Reachable w)
    (hr : w.reserved = 0) (ho : w.occupied = 0) : w.free = size := by
  have := total_eq_size h
  simp only [total] at this
  omega

end Window

end BdsPro.Library
