import Mathlib.Logic.Relation

/-! Guarded, executable transition machines.  One step function serves replay of a
concrete run, reachability under a condition on the steps taken, and refinement. -/

universe u v w x

namespace BdsPro.Library

structure Machine (σ : Type u) (α : Type v) where
  init : σ
  step : σ → α → Option σ

namespace Machine

variable {σ : Type u} {α : Type v} {τ : Type w} {β : Type x}

/-- The states reached by runs all of whose steps meet `C`. -/
inductive Reaches (M : Machine σ α) (C : σ → α → Prop) : σ → Prop
  | init : Reaches M C M.init
  | step : Reaches M C s → C s a → M.step s a = some t → Reaches M C t

abbrev Reachable (M : Machine σ α) : σ → Prop := M.Reaches fun _ _ => True

theorem Reaches.mono {M : Machine σ α} {C D : σ → α → Prop}
    (h : M.Reaches C s) (hCD : ∀ s a, C s a → D s a) : M.Reaches D s := by
  induction h with
  | init => exact .init
  | step _ hC hs ih => exact .step ih (hCD _ _ hC) hs

theorem Reaches.reachable {M : Machine σ α} {C : σ → α → Prop} (h : M.Reaches C s) :
    M.Reachable s := h.mono fun _ _ _ => trivial

/-- The invariant rule: what holds initially and is kept by every permitted step holds
in every state reached.  The source state of the step is known to be reached itself, so
invariants established earlier can be used. -/
theorem Reaches.invariant {M : Machine σ α} {C : σ → α → Prop} {I : σ → Prop}
    (h : M.Reaches C s) (init : I M.init)
    (step : ∀ s a t, M.Reaches C s → I s → C s a → M.step s a = some t → I t) : I s := by
  induction h with
  | init => exact init
  | step hr hC hs ih => exact step _ _ _ hr ih hC hs

def resume (M : Machine σ α) (s : σ) : Machine σ α := { M with init := s }

theorem Reaches.resume {M : Machine σ α} {C : σ → α → Prop} (h : M.Reaches C s)
    (ht : (M.resume s).Reaches C t) : M.Reaches C t := by
  induction ht with
  | init => exact h
  | step _ hC hs ih => exact .step ih hC hs

def Leads (M : Machine σ α) (C : σ → α → Prop) (s t : σ) : Prop := (M.resume s).Reaches C t

theorem Leads.refl {M : Machine σ α} {C : σ → α → Prop} : M.Leads C s s := .init

theorem Leads.single {M : Machine σ α} {C : σ → α → Prop} (hC : C s a)
    (hs : M.step s a = some t) : M.Leads C s t := .step .init hC hs

theorem Leads.trans {M : Machine σ α} {C : σ → α → Prop} (h : M.Leads C s t)
    (h' : M.Leads C t u) : M.Leads C s u := Reaches.resume h h'

theorem Leads.mono {M : Machine σ α} {C D : σ → α → Prop} (h : M.Leads C s t)
    (hCD : ∀ s a, C s a → D s a) : M.Leads D s t := Reaches.mono h hCD

theorem Reaches.leads {M : Machine σ α} {C D : σ → α → Prop} (h : M.Reaches C s)
    (h' : M.Leads D s t) (hDC : ∀ s a, D s a → C s a) : M.Reaches C t := h.resume (h'.mono hDC)

theorem Leads.invariant {M : Machine σ α} {C : σ → α → Prop} {I : σ → Prop} (h : M.Leads C s t)
    (start : I s) (step : ∀ s a t, I s → C s a → M.step s a = some t → I t) : I t :=
  Reaches.invariant h start fun s a t _ => step s a t

theorem Leads.embed {M : Machine σ α} {N : Machine τ β} {C : σ → α → Prop} {D : τ → β → Prop}
    {f : σ → τ} {g : α → β} (h : M.Leads C s t)
    (step : ∀ s a t, C s a → M.step s a = some t →
      D (f s) (g a) ∧ N.step (f s) (g a) = some (f t)) : N.Leads D (f s) (f t) := by
  refine h.invariant (I := fun t => N.Leads D (f s) (f t)) .refl fun t a u ih hC hs => ?_
  obtain ⟨hD, hstep⟩ := step t a u hC hs
  exact ih.trans (.single hD hstep)

/-- The variant rule: unless `Q` holds, a run leads on to where the variant is lower. -/
theorem Leads.of_variant {M : Machine σ α} {C : σ → α → Prop} {P Q : σ → Prop}
    (variant : σ → Nat)
    (next : ∀ s, P s → Q s ∨ ∃ t, M.Leads C s t ∧ P t ∧ variant t < variant s) (h : P s) :
    ∃ t, M.Leads C s t ∧ P t ∧ Q t := by
  induction hv : variant s using Nat.strongRecOn generalizing s with
  | ind v ih =>
    subst hv
    rcases next s h with hQ | ⟨t, ht, hP, hlt⟩
    · exact ⟨s, .refl, h, hQ⟩
    · obtain ⟨u, hu, hgoal⟩ := ih _ hlt hP rfl
      exact ⟨u, ht.trans hu, hgoal⟩

/-- Replay of a list of actions; `none` when one of them is disabled or breaks `C`. -/
def replay (M : Machine σ α) (C : σ → α → Prop) [∀ s a, Decidable (C s a)] :
    σ → List α → Option σ
  | s, [] => some s
  | s, a :: as => if C s a then (M.step s a).bind (M.replay C · as) else none

theorem replay_cons {M : Machine σ α} {C : σ → α → Prop} [∀ s a, Decidable (C s a)]
    {as : List α} (h : M.replay C s (a :: as) = some t) :
    C s a ∧ ∃ s', M.step s a = some s' ∧ M.replay C s' as = some t := by
  simp only [replay] at h
  split at h
  next hC => exact ⟨hC, Option.bind_eq_some_iff.mp h⟩
  next => contradiction

theorem Leads.of_replay {M : Machine σ α} {C : σ → α → Prop} [∀ s a, Decidable (C s a)]
    {as : List α} (h : M.replay C s as = some t) : M.Leads C s t := by
  induction as generalizing s with
  | nil =>
    simp only [Machine.replay, Option.some.injEq] at h
    exact h ▸ .refl
  | cons a as ih =>
    obtain ⟨hC, s', hstep, hrest⟩ := replay_cons h
    exact (Leads.single hC hstep).trans (ih hrest)

theorem Reaches.replay {M : Machine σ α} {C : σ → α → Prop} [∀ s a, Decidable (C s a)]
    (hs : M.Reaches C s) {as : List α} (h : M.replay C s as = some t) : M.Reaches C t :=
  hs.resume (Leads.of_replay h)

theorem reaches_of_replay {M : Machine σ α} {C : σ → α → Prop} [∀ s a, Decidable (C s a)]
    {as : List α} (h : M.replay C M.init as = some t) : M.Reaches C t := Reaches.init.replay h

theorem exists_reaches_of_replay {M : Machine σ α} {C : σ → α → Prop}
    [∀ s a, Decidable (C s a)] {P : σ → Prop} (as : List α)
    (h : ∃ t ∈ M.replay C M.init as, P t) : ∃ t, M.Reaches C t ∧ P t := by
  obtain ⟨t, ht, hP⟩ := h
  exact ⟨t, reaches_of_replay ht, hP⟩

/-- A forward simulation of `M`, restricted to steps meeting `C`, by `N`.  A concrete step
is matched by one abstract step or leaves the abstract state alone.  The simulation may
use that the concrete source state is reached. -/
structure Simulation (M : Machine σ α) (C : σ → α → Prop) (N : Machine τ β) where
  abs : σ → τ
  init : abs M.init = N.init
  step : ∀ {s a t}, M.Reaches C s → C s a → M.step s a = some t →
    abs t = abs s ∨ ∃ b, N.step (abs s) b = some (abs t)

theorem Simulation.reachable {M : Machine σ α} {C : σ → α → Prop} {N : Machine τ β}
    (S : M.Simulation C N) (h : M.Reaches C s) : N.Reachable (S.abs s) := by
  induction h with
  | init => rw [S.init]; exact .init
  | step hr hC hs ih =>
    rcases S.step hr hC hs with heq | ⟨b, hb⟩
    · rw [heq]; exact ih
    · exact .step ih trivial hb

def follow (M : Machine σ α) (s : σ) : Option α → Option σ
  | some a => M.step s a
  | none => some s

@[simp]
theorem follow_some (M : Machine σ α) (s : σ) (a : α) : M.follow s (some a) = M.step s a := rfl

@[simp]
theorem follow_none (M : Machine σ α) (s : σ) : M.follow s none = some s := rfl

theorem follow_cases {M : Machine σ α} (h : M.follow s a = some t) :
    a = none ∧ t = s ∨ ∃ b, a = some b ∧ M.step s b = some t := by
  cases a with
  | none => exact .inl ⟨rfl, (Option.some.inj h).symm⟩
  | some b => exact .inr ⟨b, rfl, h⟩

structure Part (M : Machine σ α) (N : Machine τ β) where
  state : τ → σ
  action : τ → β → Option α
  init : state N.init = M.init
  step : ∀ {s b t}, N.step s b = some t → M.follow (state s) (action s b) = some (state t)

def Part.Permits {M : Machine σ α} {N : Machine τ β} (P : Part M N) (C : σ → α → Prop) (s : τ)
    (b : β) : Prop := ∀ a ∈ P.action s b, C (P.state s) a

theorem Reaches.follow {M : Machine σ α} {C : σ → α → Prop} (h : M.Reaches C s)
    (hC : ∀ b ∈ a, C s b) (hs : M.follow s a = some t) : M.Reaches C t := by
  cases a with
  | none => exact Option.some.inj hs ▸ h
  | some b => exact .step h (hC b rfl) hs

theorem Part.reaches {M : Machine σ α} {N : Machine τ β} (P : Part M N) {C : σ → α → Prop}
    (h : N.Reaches (P.Permits C) s) : M.Reaches C (P.state s) := by
  induction h with
  | init => exact P.init ▸ .init
  | step _ hC hs ih => exact ih.follow hC (P.step hs)

end Machine

end BdsPro.Library
