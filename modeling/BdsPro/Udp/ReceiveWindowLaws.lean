import BdsPro.Library.Window
import BdsPro.Udp.ReceiverLaws

namespace BdsPro.Udp

open BdsPro.Library

namespace UdpReceiver

/-- The receive buffer as credits: free permits, calls that hold a permit and have not pushed
yet, and the buffered messages. -/
def window (r : UdpReceiver) : Window where
  free := r.bufferSemaphore
  reserved := r.calls.countP ReceiveCall.unpushed
  occupied := r.receiveBuffer.length

theorem window_of_set {r t : UdpReceiver} (h : r.calls[i]? = some call)
    (hcalls : t.calls = r.calls.set i call') (hsame : call'.unpushed = call.unpushed)
    (hfree : t.bufferSemaphore = r.bufferSemaphore) (hbuffer : t.receiveBuffer = r.receiveBuffer) :
    t.window = r.window := by
  have hcount := Table.countP_set_add ReceiveCall.unpushed h call'
  rw [hsame] at hcount
  simp only [window, hcalls, hfree, hbuffer, Nat.add_right_cancel hcount]

theorem window_step {r t : UdpReceiver} (ha : acksSucceed a = true) (hs : r.step a = some t) :
    t.window = r.window ∨ ∃ b, r.window.step b = some t.window := by
  cases a with
  | receiveMessage m =>
    rw [← Option.some.inj hs]
    obtain ⟨call, heq, hcall⟩ | ⟨-, hsem, heq⟩ := receiveMessage_cases r m
    · rw [heq]
      have hnot : call.unpushed = false := by
        obtain ⟨result, rfl⟩ | rfl := hcall <;> rfl
      exact .inl (by simp [window, hnot])
    · rw [heq]
      refine .inr ⟨.reserve, Window.step_reserve (Nat.succ_pred_eq_of_pos hsem).symm ?_ rfl⟩
      simp [window, ReceiveCall.unpushed]
  | reject i ok =>
    obtain ⟨hc, sent, result, -, rfl⟩ := reject_eq_some hs
    exact .inl (window_of_set hc rfl rfl rfl rfl)
  | record i =>
    obtain ⟨m, hc, rfl⟩ := record_eq_some hs
    exact .inl (window_of_set hc rfl rfl rfl rfl)
  | push i =>
    obtain ⟨m, hc, rfl⟩ := push_eq_some hs
    refine .inr ⟨.occupy, Window.step_occupy rfl ?_ (by simp [window])⟩
    exact (Table.countP_set_add ReceiveCall.unpushed hc (.pushed m)).symm
  | ack i ok =>
    obtain ⟨m, hc, ⟨-, rfl⟩ | ⟨hok, -⟩⟩ := ack_eq_some hs
    · exact .inl (window_of_set hc rfl rfl rfl rfl)
    · rw [hok] at ha
      contradiction
  | forget i =>
    obtain ⟨m, hc, rfl⟩ := forget_eq_some hs
    exact .inl (window_of_set hc rfl rfl rfl rfl)
  | receiveFromBuffer =>
    rw [← Option.some.inj hs]
    obtain heq | ⟨m, rest, hbuffer, heq⟩ := receiveFromBuffer_cases r
    · exact .inl (by rw [heq])
    · rw [heq]
      refine .inr ⟨.release, Window.step_release rfl rfl ?_⟩
      simp [window, hbuffer]
  | requestRetransmit seq ok =>
    rw [← Option.some.inj hs]
    exact .inl rfl

def windowSimulation (config : FlowControlConfig) :
    (machine config).Simulation AcksSent (Window.machine config.receiveBufferSize) where
  abs := window
  init := rfl
  step _ hC hs := window_step hC hs

theorem coherent_of_reaches {config : FlowControlConfig} {r : UdpReceiver}
    (h : (machine config).Reachable r) : r.Coherent fun _ => True :=
  h.invariant (Coherent.new config) fun _ _ _ _ ih _ hs => ih.step (fun _ _ _ => trivial) hs

theorem receive_buffer_accounting {config : FlowControlConfig} {r : UdpReceiver}
    (h : (machine config).Reaches AcksSent r) :
    r.bufferSemaphore + r.receiveBuffer.length + r.calls.countP ReceiveCall.unpushed =
        config.receiveBufferSize ∧
      r.receiveBuffer.length ≤ config.receiveBufferSize ∧
      r.pushed = r.handedOut ++ r.receiveBuffer ∧
      ∀ m ∈ r.pushed, m.typ = .data := by
  have hw := (windowSimulation config).reachable h
  have htotal := Window.total_eq_size hw
  have hc := coherent_of_reaches h.reachable
  refine ⟨?_, Window.occupied_le hw, hc.fifo.symm, fun m hm => (hc.pushed m hm).1⟩
  simp only [Window.total, windowSimulation, window] at htotal
  omega

theorem receive_buffer_accounting_early_pop :
    ∃ r, (machine { FlowControlConfig.default with receiveBufferSize := 1 }).Reaches AcksSent r ∧
      r.pushed.length = 2 ∧ r.bufferSemaphore = 0 ∧
      r.bufferSemaphore + r.receiveBuffer.length + r.calls.countP ReceiveCall.unpushed = 1 := by
  obtain ⟨r, hr, hpushed, hsem⟩ := Machine.exists_reaches_of_replay
    (M := machine { FlowControlConfig.default with receiveBufferSize := 1 }) (C := AcksSent)
    (P := fun r => r.pushed.length = 2 ∧ r.bufferSemaphore = 0)
    [.receiveMessage (dataMessage 1 "a"), .record 0, .push 0, .receiveFromBuffer,
      .receiveMessage (dataMessage 2 "b"), .ack 0 true, .record 1, .push 1, .forget 0]
    (by decide)
  exact ⟨r, hr, hpushed, hsem, (receive_buffer_accounting hr).1⟩

end UdpReceiver

end BdsPro.Udp
