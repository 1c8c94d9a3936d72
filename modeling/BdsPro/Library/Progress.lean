import BdsPro.Library.Machine
import Mathlib.Order.WellFounded

/-! What a machine comes to however it goes on, as long as it takes steps of a given kind. -/

universe u v w

namespace BdsPro.Library.Machine

variable {σ : Type u} {α : Type v} {β : Type w}

/-- As long as `P` does not hold there is a step that meets `C`, and all runs of such steps
come to a state in which it holds. -/
inductive Inevitably (M : Machine σ α) (C : σ → α → Prop) (P : σ → Prop) : σ → Prop
  | now : P s → Inevitably M C P s
  | later (enabled : ∃ a t, C s a ∧ M.step s a = some t)
      (next : ∀ a t, C s a → M.step s a = some t → Inevitably M C P t) : Inevitably M C P s

/-- The variant rule: where `I` holds a step is enabled, and every step comes to `P`, or keeps
`I` and lowers the variant. -/
theorem Inevitably.of_variant [Preorder β] [WellFoundedLT β] {M : Machine σ α}
    {C : σ → α → Prop} {P I : σ → Prop} (variant : σ → β)
    (enabled : ∀ s, I s → ∃ a t, C s a ∧ M.step s a = some t)
    (step : ∀ s a t, I s → C s a → M.step s a = some t → P t ∨ I t ∧ variant t < variant s)
    (h : I s) : M.Inevitably C P s := by
  induction hv : variant s using WellFoundedLT.induction generalizing s with
  | ind v ih =>
    subst hv
    refine .later (enabled s h) fun a t hC hs => ?_
    rcases step s a t h hC hs with hP | ⟨hI, hlt⟩
    · exact .now hP
    · exact ih _ hlt hI rfl

/-- The trap rule: from where `I` holds the machine can go on without ever coming to `P`. -/
theorem not_inevitably_of_trap {M : Machine σ α} {C : σ → α → Prop} {P I : σ → Prop}
    (avoid : ∀ s, I s → ¬P s) (stay : ∀ s, I s → ∃ a t, C s a ∧ M.step s a = some t ∧ I t)
    (h : I s) : ¬M.Inevitably C P s := by
  intro hP
  induction hP with
  | now hP => exact avoid _ h hP
  | later _ _ ih =>
    obtain ⟨a, t, hC, hs, hI⟩ := stay _ h
    exact ih a t hC hs hI

/-- However the machine goes on with steps that meet `C`, `P` holds. -/
def Always (M : Machine σ α) (C : σ → α → Prop) (P : σ → Prop) (s : σ) : Prop :=
  ∀ t, (M.resume s).Reaches C t → P t

theorem Always.now {M : Machine σ α} {C : σ → α → Prop} {P : σ → Prop} (h : M.Always C P s) :
    P s := h s .init

theorem Always.step {M : Machine σ α} {C : σ → α → Prop} {P : σ → Prop} (h : M.Always C P s)
    (hC : C s a) (hs : M.step s a = some t) : P t := h t (.step .init hC hs)

/-- The standstill rule: no step that meets `C` is enabled. -/
theorem Always.of_still {M : Machine σ α} {C : σ → α → Prop} {P : σ → Prop}
    (still : ∀ a, C s a → M.step s a = none) (hP : P s) : M.Always C P s := by
  intro t ht
  have heq : t = s := by
    refine ht.invariant (I := fun t => t = s) rfl ?_
    rintro _ a u - rfl hC hs
    exact absurd ((still a hC).symm.trans hs) nofun
  exact heq ▸ hP

end BdsPro.Library.Machine
