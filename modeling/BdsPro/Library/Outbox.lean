import Mathlib.Algebra.Order.Group.Multiset
import Mathlib.Logic.Relation

/-! An outbox: what was submitted waits until it is sent, and what was sent is outstanding
until it is acknowledged or given back. -/

universe u

namespace BdsPro.Library

@[ext] structure Outbox (α : Type u) where
  submitted : Multiset α
  pending : Multiset α
  outstanding : Multiset α
  acked : Multiset α

namespace Outbox

variable {α : Type u}

inductive Step : Outbox α → Outbox α → Prop
  | submit (a : α) : Step ⟨s, p, o, k⟩ ⟨a ::ₘ s, a ::ₘ p, o, k⟩
  | send (a : α) : Step ⟨s, a ::ₘ p, o, k⟩ ⟨s, p, a ::ₘ o, k⟩
  | acknowledge (a : α) : Step ⟨s, p, a ::ₘ o, k⟩ ⟨s, p, o, a ::ₘ k⟩
  | giveBack (a : α) : Step ⟨s, p, a ::ₘ o, k⟩ ⟨s, a ::ₘ p, o, k⟩

abbrev Steps : Outbox α → Outbox α → Prop := Relation.ReflTransGen Step

def Balanced (b : Outbox α) : Prop := b.submitted = b.pending + b.outstanding + b.acked

theorem Balanced.step {b b' : Outbox α} (h : b.Balanced) (hs : Step b b') : b'.Balanced := by
  cases hs with
  | submit a => simpa only [Balanced, Multiset.cons_add] using congrArg (a ::ₘ ·) h
  | send a => simpa only [Balanced, Multiset.cons_add, Multiset.add_cons] using h
  | acknowledge a => simpa only [Balanced, Multiset.cons_add, Multiset.add_cons] using h
  | giveBack a => simpa only [Balanced, Multiset.cons_add, Multiset.add_cons] using h

theorem Balanced.steps {b b' : Outbox α} (h : b.Balanced) (hs : Steps b b') : b'.Balanced := by
  induction hs with
  | refl => exact h
  | tail _ hs ih => exact ih.step hs

theorem steps_of_eq {b b' : Outbox α} (h : b = b') : Steps b b' := h ▸ .refl

theorem steps_submit {b b' : Outbox α} (hs : b'.submitted = a ::ₘ b.submitted)
    (hp : b'.pending = a ::ₘ b.pending) (ho : b'.outstanding = b.outstanding)
    (hk : b'.acked = b.acked) : Steps b b' := by
  cases b
  cases b'
  simp only at hs hp ho hk
  subst hs hp ho hk
  exact .single (.submit a)

theorem steps_send {b b' : Outbox α} (hs : b'.submitted = b.submitted)
    (hp : b.pending = a ::ₘ b'.pending) (ho : b'.outstanding = a ::ₘ b.outstanding)
    (hk : b'.acked = b.acked) : Steps b b' := by
  cases b
  cases b'
  simp only at hs hp ho hk
  subst hs hp ho hk
  exact .single (.send a)

theorem steps_acknowledge {b b' : Outbox α} (hs : b'.submitted = b.submitted)
    (hp : b'.pending = b.pending) (ho : b.outstanding = a ::ₘ b'.outstanding)
    (hk : b'.acked = a ::ₘ b.acked) : Steps b b' := by
  cases b
  cases b'
  simp only at hs hp ho hk
  subst hs hp ho hk
  exact .single (.acknowledge a)

theorem steps_giveBack {b b' : Outbox α} (hs : b'.submitted = b.submitted)
    (hp : b'.pending = a ::ₘ b.pending) (ho : b.outstanding = a ::ₘ b'.outstanding)
    (hk : b'.acked = b.acked) : Steps b b' := by
  cases b
  cases b'
  simp only at hs hp ho hk
  subst hs hp ho hk
  exact .single (.giveBack a)

theorem coe_concat (l : List α) (a : α) : ((l ++ [a] : List α) : Multiset α) = a ::ₘ l :=
  Quotient.sound (List.perm_append_singleton a l)

end Outbox

end BdsPro.Library
