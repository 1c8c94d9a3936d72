import BdsPro.Udp.SenderLaws

/-! The send window when callers choose the sequence numbers freely, with the number of entries
of `in_flight` that a later call under the same number has replaced. -/

namespace BdsPro.Udp

open BdsPro.Library

namespace UdpSender

theorem window_overwrite {s t : UdpSender} {a : Action} (ho : s.overwrites a = true)
    (hs : s.step a = some t) : t.window.total + 1 = s.window.total := by
  cases a with
  | track i now =>
    obtain ⟨c, hc, hp, rfl⟩ := track_eq_some hs
    obtain ⟨m, hm⟩ : ∃ m, s.inFlight.lookup c.seq = some m := by
      simpa [overwrites, callAt_eq_some.mpr ⟨hc, hp⟩, Option.isSome_iff_exists] using ho
    have hcount := countP_setPhase (p := .tracked) SendPhase.holding hc
    rw [hp] at hcount
    have hreserved : (s.setPhase i c .tracked).countP (fun c => c.phase.holding) + 1 =
        s.calls.countP fun c => c.phase.holding := hcount
    have hsize := Map.size_insert_of_some hm ⟨c.seq, c.data, now, 0⟩
    simp only [Window.total, window, hsize]
    omega
  | _ => contradiction

theorem total_step {s t : UdpSender} {a : Action} (ha : sendsSucceed a = true)
    (hs : s.step a = some t) : t.window.total + (s.overwrites a).toNat = s.window.total := by
  cases ho : s.overwrites a with
  | true => exact window_overwrite ho hs
  | false =>
    rcases window_step ho ha hs with heq | ⟨b, hb⟩
    · rw [heq]
      rfl
    · rw [Window.step_total hb]
      rfl

theorem Idle.countP_holding {s : UdpSender} (h : s.Idle) :
    s.calls.countP (fun c => c.phase.holding) = 0 := by
  refine List.countP_eq_zero.mpr fun c hc hholding => ?_
  have hover := h c hc
  cases hp : c.phase with
  | returned result =>
    rw [hp] at hholding
    contradiction
  | acquiring | acquired | stored | tracked | sent =>
    rw [hp] at hover
    contradiction

end UdpSender

/-- `overwritten` counts the entries that were replaced in `in_flight`. -/
structure WindowLedger where
  sender : UdpSender
  overwritten : Nat
  deriving DecidableEq

namespace WindowLedger

def step (l : WindowLedger) (a : UdpSender.Action) : Option WindowLedger :=
  (l.sender.step a).map fun s => ⟨s, l.overwritten + (l.sender.overwrites a).toNat⟩

def machine (config : FlowControlConfig) : Machine WindowLedger UdpSender.Action :=
  ⟨⟨.new config, 0⟩, step⟩

def SendsSucceed (_ : WindowLedger) (a : UdpSender.Action) : Prop :=
  UdpSender.sendsSucceed a = true

instance (l : WindowLedger) (a : UdpSender.Action) : Decidable (l.SendsSucceed a) :=
  inferInstanceAs (Decidable (_ = true))

theorem total_eq_size {config : FlowControlConfig} {l : WindowLedger}
    (h : (machine config).Reaches SendsSucceed l) :
    l.sender.window.total + l.overwritten = config.sendWindowSize := by
  apply h.invariant
  · rfl
  · intro l a l' _ ih ha hs
    obtain ⟨t, ht, rfl⟩ := Option.map_eq_some_iff.mp hs
    have := UdpSender.total_step ha ht
    simp only
    omega

theorem window_restored_iff {config : FlowControlConfig} {l : WindowLedger}
    (h : (machine config).Reaches SendsSucceed l) (idle : l.sender.Idle)
    (empty : l.sender.inFlight.size = 0) :
    l.sender.sendWindow = config.sendWindowSize ↔ l.overwritten = 0 := by
  have htotal := total_eq_size h
  simp only [Window.total, UdpSender.window, idle.countP_holding, empty] at htotal
  omega

theorem window_restored_iff_after_ack :
    ∃ l, (machine .default).Reaches SendsSucceed l ∧
      l.sender.calls.map SendCall.seq = [5, 5] ∧ l.sender.sendWindow = 10 := by
  obtain ⟨l, hl, hcalls, hidle, hempty, hnone⟩ := Machine.exists_reaches_of_replay
    (M := machine .default) (C := SendsSucceed)
    (P := fun l => l.sender.calls.map SendCall.seq = [5, 5] ∧ l.sender.Idle ∧
      l.sender.inFlight.size = 0 ∧ l.overwritten = 0)
    [.sendMessage 5 "a", .acquire 0, .store 0, .track 0 0, .transmit 0 true, .forget 0,
      .recvFrom (ackMessage 5), .enqueue, .handleEvent true,
      .sendMessage 5 "b", .acquire 1, .store 1, .track 1 0, .transmit 1 true, .forget 1,
      .recvFrom (ackMessage 5), .enqueue, .handleEvent true] (by decide)
  exact ⟨l, hl, hcalls, (window_restored_iff hl hidle hempty).mpr hnone⟩

/-- The number 5 is used a second time before its first message is acknowledged; both messages
are acknowledged afterwards. -/
theorem reused_number_leaks :
    ¬∀ (config : FlowControlConfig) (s : UdpSender),
      (UdpSender.machine config).Reaches (fun _ a => UdpSender.sendsSucceed a = true) s →
      s.Idle → s.inFlight.size = 0 → s.sendWindow = config.sendWindowSize := by
  intro h
  obtain ⟨s, hs, hidle, hempty, hwindow⟩ := Machine.exists_reaches_of_replay
    (M := UdpSender.machine .default) (C := fun _ a => UdpSender.sendsSucceed a = true)
    (P := fun s => s.Idle ∧ s.inFlight.size = 0 ∧ s.sendWindow = 9)
    [.sendMessage 5 "a", .acquire 0, .store 0, .track 0 0, .transmit 0 true, .forget 0,
      .sendMessage 5 "b", .acquire 1, .store 1, .track 1 0, .transmit 1 true, .forget 1,
      .recvFrom (ackMessage 5), .enqueue, .handleEvent true,
      .recvFrom (ackMessage 5), .enqueue, .handleEvent true] (by decide)
  have hfull := h .default s hs hidle hempty
  rw [hwindow] at hfull
  contradiction

end WindowLedger

end BdsPro.Udp
