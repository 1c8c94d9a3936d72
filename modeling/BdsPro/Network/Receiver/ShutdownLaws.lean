import BdsPro.Network.Receiver.ServiceLaws
import BdsPro.Network.Receiver.Shutdown

namespace BdsPro.Network.Receiver

open BdsPro.Library

namespace Service

def Settled (l : List Grant) : Prop := ∀ (i : Nat) (g : Grant), l[i]? = some g → g.task ≠ .retrying

theorem Settled.modify {l : List Grant} {f : Grant → Grant} (h : Settled l) (i : Nat)
    (hf : ∀ g, g.task ≠ .retrying → (f g).task ≠ .retrying) : Settled (l.modify i f) := by
  intro _ _ hj
  exact Table.forall_modify (P := fun _ (g : Grant) => g.task ≠ .retrying) h (fun g _ => hf g) hj

theorem Settled.dropSender {l : List Grant} (h : Settled l) (o : Option Nat) :
    Settled (dropSender l o) := by
  cases o with
  | none => exact h
  | some i =>
    refine h.modify i fun g hg => ?_
    split
    · simp
    · exact hg

theorem Settled.set {l : List Grant} {i : Nat} (h : Settled l) (task : g.task ≠ .retrying) :
    Settled (l.set i g) :=
  fun _ _ hj => Table.forall_set (P := fun _ (g : Grant) => g.task ≠ .retrying) h task hj

theorem Settled.concat {l : List Grant} (h : Settled l) (task : g.task ≠ .retrying) :
    Settled (l ++ [g]) :=
  fun _ _ hj => Table.forall_concat (P := fun _ (g : Grant) => g.task ≠ .retrying) h task hj

theorem Settled.step {s t : Service} (h : Settled s.grants) (hs : Step s a t)
    (network : ∀ i, a ≠ .finish i .network) (closed : ∀ i, a ≠ .finish i .closedByOtherSide) :
    Settled t.grants := by
  cases hs with
  | grant k c r => exact h.concat (by simp)
  | answered j g _ entry | unanswered j g _ entry | connectChannel j g entry
  | established j g entry | failed j g entry | acceptStream j g _ entry | identified j g _ entry
  | refused j g _ entry | notRegistered j g _ entry | alreadyClosed _ _ g _ entry =>
    exact h.set (h _ g entry)
  | openChannel i g entry => exact (h.dropSender _).set (by simp)
  | delivered i j g _ _ entry =>
    have hset : Settled (s.grants.set i { g with stream := .delivered j }) := h.set (h i g entry)
    exact hset.modify j fun _ _ => by simp
  | finishOk | finishCancelled | abort | retry => exact h.set (by simp)
  | finishNetwork i => exact absurd rfl (network i)
  | finishClosed i => exact absurd rfl (closed i)
  | _ => exact h

theorem closed_of_step {s t : Service} (hs : Step s a t) (h : t.controlClosed = true) :
    s.controlClosed = true ∨ a = .shutdown := by
  cases hs with
  | shutdown => exact .inr rfl
  | _ => exact .inl h

theorem grants_of_shutdown {s t : Service} (hs : Step s .shutdown t) : t.grants = s.grants := by
  cases hs with
  | shutdown => rfl

theorem exists_retry {s : Service} {i : Nat} (closed : s.controlClosed = true)
    (entry : s.grants[i]? = some g) (task : g.task = .retrying) :
    ∃ t, s.step (.retry i) = some t := by
  simp [step, retry, entry, task, closed]

end Service

namespace ShutdownLedger

open Service (Step Settled step_sound closed_of_step grants_of_shutdown)

structure Calm (l : ShutdownLedger) : Prop where
  panicked : l.panicked = []
  settled : l.service.controlClosed = true → Settled l.service.grants

theorem Calm.panics_eq {l : ShutdownLedger} (h : l.Calm) (hs : Step l.service a t) :
    panics l.service a = [] := by
  cases hs with
  | abort i g entry task | retry i g entry task =>
    refine if_neg fun closed => ?_
    exact h.settled closed i g entry task
  | _ => rfl

theorem step_eq_some {l m : ShutdownLedger} (hs : l.step a = some m) :
    Step l.service a m.service ∧ m.panicked = l.panicked ++ panics l.service a := by
  obtain ⟨t, ht, rfl⟩ := Option.map_eq_some_iff.mp hs
  exact ⟨step_sound ht, rfl⟩

theorem Calm.panicked_eq {l m : ShutdownLedger} (h : l.Calm) (hs : l.step a = some m) :
    m.panicked = [] := by
  obtain ⟨hstep, hpanicked⟩ := step_eq_some hs
  rw [hpanicked, h.panicked, h.panics_eq hstep]
  rfl

theorem Calm.step {l m : ShutdownLedger} (h : l.Calm) (hC : l.Orderly a)
    (hs : l.step a = some m) : m.Calm := by
  have hstep := (step_eq_some hs).1
  refine ⟨h.panicked_eq hs, fun closed => ?_⟩
  rcases closed_of_step hstep closed with hclosed | rfl
  · refine (h.settled hclosed).step hstep ?_ ?_
    · rintro i rfl
      simp [Orderly, orders, hclosed] at hC
    · rintro i rfl
      simp [Orderly, orders, hclosed] at hC
  · intro i g entry
    rw [grants_of_shutdown hstep] at entry
    exact of_decide_eq_true (List.all_eq_true.mp hC g (List.mem_of_getElem? entry))

theorem calm_of_reaches {l : ShutdownLedger} (h : machine.Reaches Orderly l) : l.Calm := by
  refine h.invariant (I := Calm) ⟨rfl, nofun⟩ ?_
  exact fun l a m _ ih hC hs => ih.step hC hs

theorem exists_panic {l : ShutdownLedger} {i : Nat} (closed : l.service.controlClosed = true)
    (entry : l.service.grants[i]? = some g) (task : g.task = .retrying) :
    ∃ m, l.step (.retry i) = some m ∧ m.panicked = l.panicked ++ [i] := by
  obtain ⟨t, ht⟩ := Service.exists_retry closed entry task
  refine ⟨_, by rw [ShutdownLedger.step, ht, Option.map_some], ?_⟩
  simp [panics, closed]

theorem retrying_of_disorderly {l : ShutdownLedger} (hs : Step l.service a t)
    (disorderly : ¬l.Orderly a) :
    ∃ (i : Nat) (g : Grant),
      t.controlClosed = true ∧ t.grants[i]? = some g ∧ g.task = .retrying := by
  have hdisorderly := Bool.eq_false_iff.mpr disorderly
  cases hs with
  | shutdown =>
    obtain ⟨g, hg, htask⟩ := List.all_eq_false.mp hdisorderly
    obtain ⟨i, entry⟩ := List.getElem?_of_mem hg
    exact ⟨i, g, rfl, entry, by simpa using htask⟩
  | finishNetwork i g entry | finishClosed i g entry =>
    have hclosed : l.service.controlClosed = true := by simpa [orders] using hdisorderly
    exact ⟨i, _, hclosed, Table.set_self entry _, rfl⟩
  | _ => exact absurd rfl disorderly

theorem disorderly_panics {l m : ShutdownLedger} (h : l.Calm) (disorderly : ¬l.Orderly a)
    (hs : l.step a = some m) : ∃ i n, m.step (.retry i) = some n ∧ n.panicked = [i] := by
  obtain ⟨i, g, closed, entry, task⟩ := retrying_of_disorderly (step_eq_some hs).1 disorderly
  obtain ⟨n, hn, hpanicked⟩ := exists_panic closed entry task
  exact ⟨i, n, hn, by rw [hpanicked, h.panicked_eq hs]; rfl⟩

theorem shutdown_clean {l : ShutdownLedger} (h : machine.Reaches Orderly l) :
    l.panicked = [] ∧ ∀ a m, ¬l.Orderly a → l.step a = some m →
      ∃ i n, m.step (.retry i) = some n ∧ n.panicked = [i] :=
  ⟨(calm_of_reaches h).panicked,
    fun _ _ disorderly hs => disorderly_panics (calm_of_reaches h) disorderly hs⟩

theorem shutdown_clean_reopened :
    ∃ l, machine.Reaches Orderly l ∧ l.service.stopped = true ∧ l.service.grants ≠ [] ∧
      l.panicked = [] := by
  obtain ⟨l, hl, hstopped, hgrants⟩ := Machine.exists_reaches_of_replay (M := machine)
    (C := Orderly) (P := fun l => l.service.stopped = true ∧ l.service.grants ≠ [])
    [.registerChannel "c", .serve true, .connectControl "k", .channelRequest 0 "c",
      .openChannel 0, .answer 0 true, .connectChannel 0, .acceptStream 0, .identify true,
      .dispatch, .finish 0 .network, .retry 0, .shutdown, .serve true, .serve true] (by decide)
  exact ⟨l, hl, hstopped, hgrants, (shutdown_clean hl).1⟩

/-- The stream fails after the shutdown. -/
theorem active_channel_panics : ¬∀ l, machine.Reachable l → l.panicked = [] := by
  intro h
  obtain ⟨l, hl, hpanicked⟩ := Machine.exists_reaches_of_replay (M := machine)
    (C := fun _ _ => True) (P := fun l => l.panicked = [0])
    [.registerChannel "c", .serve true, .connectControl "k", .channelRequest 0 "c",
      .openChannel 0, .answer 0 true, .connectChannel 0, .acceptStream 0, .identify true,
      .dispatch, .shutdown, .finish 0 .network, .retry 0] (by decide)
  rw [h l hl] at hpanicked
  contradiction

end ShutdownLedger

end BdsPro.Network.Receiver
