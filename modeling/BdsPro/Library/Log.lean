import Mathlib.Data.List.Basic

/-! Logs: lists to which entries are only added at the end.  What an entry says may depend
on the log as it was before it, and on the last entry of some kind. -/

universe u

namespace BdsPro.Library.Log

variable {α : Type u} {log before after : List α}

theorem split_append {es : List α} {x : α} (h : log ++ es = before ++ x :: after) (hx : x ∉ es) :
    ∃ rest, log = before ++ x :: rest ∧ after = rest ++ es := by
  obtain ⟨mid, -, hes⟩ | ⟨mid, hlog, hafter⟩ := List.append_eq_append_iff.mp h
  · exact absurd (hes ▸ List.mem_append_right _ List.mem_cons_self) hx
  · cases mid with
    | nil => exact absurd (hafter.symm ▸ List.mem_cons_self : x ∈ [] ++ es) hx
    | cons y rest =>
      obtain ⟨rfl, rfl⟩ := List.cons.inj hafter
      exact ⟨rest, hlog, rfl⟩

theorem split_concat {e x : α} (h : log ++ [e] = before ++ x :: after) :
    (log = before ∧ e = x ∧ after = []) ∨
      ∃ rest, log = before ++ x :: rest ∧ after = rest ++ [e] := by
  cases List.eq_nil_or_concat after with
  | inl hnil =>
    subst hnil
    obtain ⟨hlog, he⟩ := List.append_inj' h rfl
    exact .inl ⟨hlog, (List.cons.inj he).1, rfl⟩
  | inr hconcat =>
    obtain ⟨rest, y, rfl⟩ := hconcat
    rw [List.concat_eq_append] at h ⊢
    rw [← List.cons_append, ← List.append_assoc] at h
    obtain ⟨hlog, he⟩ := List.append_inj' h rfl
    exact .inr ⟨rest, hlog, by rw [(List.cons.inj he).1]⟩

def Each (J : List α → α → Prop) (log : List α) : Prop :=
  ∀ before x after, log = before ++ x :: after → J before x

theorem Each.nil {J : List α → α → Prop} : Each J [] := by
  rintro before x after h
  simp at h

theorem Each.concat {J : List α → α → Prop} (h : Each J log) {e : α} (he : J log e) :
    Each J (log ++ [e]) := by
  intro before x after heq
  cases split_concat heq with
  | inl hend =>
    obtain ⟨rfl, rfl, -⟩ := hend
    exact he
  | inr hold =>
    obtain ⟨rest, hlog, -⟩ := hold
    exact h before x rest hlog

theorem Each.append {J : List α → α → Prop} (h : Each J log) {es : List α}
    (hes : ∀ e ∈ es, ∀ before, J before e) : Each J (log ++ es) := by
  induction es generalizing log with
  | nil => rwa [List.append_nil]
  | cons e es ih =>
    rw [List.append_cons]
    apply ih
    · exact h.concat (hes e List.mem_cons_self log)
    · exact fun e' he' => hes e' (List.mem_cons_of_mem _ he')

def Latest (p : α → Prop) (log : List α) (x : α) (after : List α) : Prop :=
  p x ∧ (∃ before, log = before ++ x :: after) ∧ ∀ y ∈ after, ¬p y

theorem exists_latest {p : α → Prop} (h : ∃ x ∈ log, p x) : ∃ x after, Latest p log x after := by
  induction log with
  | nil => simp at h
  | cons y log ih =>
    by_cases hlater : ∃ x ∈ log, p x
    · obtain ⟨x, after, hx, ⟨before, rfl⟩, hafter⟩ := ih hlater
      exact ⟨x, after, hx, ⟨y :: before, rfl⟩, hafter⟩
    · obtain ⟨x, hmem, hx⟩ := h
      obtain rfl | hmem := List.mem_cons.mp hmem
      · exact ⟨x, log, hx, ⟨[], rfl⟩, fun z hz hpz => hlater ⟨z, hz, hpz⟩⟩
      · exact absurd ⟨x, hmem, hx⟩ hlater

theorem Latest.of_append {p : α → Prop} {x : α} {es : List α} (h : Latest p (log ++ es) x after)
    (hes : ∀ e ∈ es, ¬p e) : ∃ rest, after = rest ++ es ∧ Latest p log x rest := by
  obtain ⟨hx, ⟨before, heq⟩, hafter⟩ := h
  obtain ⟨rest, hlog, rfl⟩ := split_append heq fun hmem => hes x hmem hx
  exact ⟨rest, rfl, hx, ⟨before, hlog⟩, fun y hy => hafter y (List.mem_append_left _ hy)⟩

theorem Latest.of_concat {p : α → Prop} {x e : α} (h : Latest p (log ++ [e]) x after) (he : p e) :
    x = e ∧ after = [] := by
  obtain ⟨-, ⟨before, heq⟩, hafter⟩ := h
  cases split_concat heq with
  | inl hend => exact ⟨hend.2.1.symm, hend.2.2⟩
  | inr hold =>
    obtain ⟨rest, -, rfl⟩ := hold
    exact absurd he (hafter e (List.mem_append_right _ (List.mem_singleton_self e)))

end BdsPro.Library.Log
