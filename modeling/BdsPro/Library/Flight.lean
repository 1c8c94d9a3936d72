import Mathlib.Algebra.Order.Group.Multiset
import Mathlib.Data.Multiset.UnionInter

/-! Keys on their way around a loop, and the keys whose return is expected.  A key is launched
when it is not expected, may be lost on its way, and comes back at most once. -/

universe u

namespace BdsPro.Library

structure Flight (κ : Type u) where
  inFlight : Multiset κ
  expected : κ → Prop

namespace Flight

variable {κ : Type u}

structure Sound (f : Flight κ) : Prop where
  once : f.inFlight.Nodup
  awaited : ∀ k ∈ f.inFlight, f.expected k

theorem Sound.lose {f f' : Flight κ} (hf : f.Sound) (hin : f'.inFlight ≤ f.inFlight)
    (hex : ∀ k, f.expected k → f'.expected k) : f'.Sound where
  once := Multiset.nodup_of_le hin hf.once
  awaited k hk := hex k (hf.awaited k (Multiset.mem_of_le hin hk))

theorem Sound.launch {f f' : Flight κ} (hf : f.Sound) (hfresh : ¬f.expected k)
    (hin : f'.inFlight ≤ k ::ₘ f.inFlight) (hk : f'.expected k)
    (hex : ∀ k, f.expected k → f'.expected k) : f'.Sound where
  once := Multiset.nodup_of_le hin
    (Multiset.nodup_cons.mpr ⟨fun hmem => hfresh (hf.awaited k hmem), hf.once⟩)
  awaited k' hk' := by
    cases Multiset.mem_cons.mp (Multiset.mem_of_le hin hk') with
    | inl heq => exact heq ▸ hk
    | inr hmem => exact hex k' (hf.awaited k' hmem)

theorem Sound.answer {f f' : Flight κ} (hf : f.Sound) (hin : k ::ₘ f'.inFlight ≤ f.inFlight)
    (hex : ∀ k', f.expected k' → k' ≠ k → f'.expected k') : f'.Sound := by
  have hnodup := Multiset.nodup_cons.mp (Multiset.nodup_of_le hin hf.once)
  refine ⟨hnodup.2, fun k' hk' => hex k' ?_ ?_⟩
  · exact hf.awaited k' (Multiset.mem_of_le hin (Multiset.mem_cons_of_mem hk'))
  · rintro rfl
    exact hnodup.1 hk'

end Flight

end BdsPro.Library
