import BdsPro.Udp.SendMessage

namespace BdsPro.Udp.UdpSender

open BdsPro.Library

theorem replay_sendSteps (s : UdpSender) (seq : Nat) (data : String) (sent : Bool) (now : Nat) :
    (machine config).replay (fun _ _ => True) s (s.sendSteps seq data sent now) =
      some { (s.sendMessageAlone seq data ⟨true, true, sent, now⟩).2 with
        calls := s.calls ++
          [⟨seq, data, .returned (s.sendMessageAlone seq data ⟨true, true, sent, now⟩).1⟩] } := by
  by_cases hwindow : s.sendWindow = 0
  · simp [sendSteps, sendMessageAlone, hwindow, Machine.replay, machine, step, sendMessage,
      sendTimeout, callAt, setPhase, Option.filter_some]
  · have hpos : 0 < s.sendWindow := Nat.pos_of_ne_zero hwindow
    cases sent <;>
    simp [sendSteps, sendMessageAlone, hwindow, Machine.replay, machine, step, sendMessage,
      acquire, store, track, transmit, forget, callAt, setPhase, hpos, saveMessage,
      Option.filter_some]

theorem sendMessageAlone_refused {s : UdpSender} {m : SendCircumstances}
    (h : m.windowOpen = false ∨ s.sendWindow = 0) (seq : Nat) (data : String) :
    ∃ e, s.sendMessageAlone seq data m = (.error e, s) := by
  unfold sendMessageAlone
  cases hopen : m.windowOpen with
  | false => exact ⟨.channelClosed, by simp⟩
  | true =>
    have hwindow : s.sendWindow = 0 := by simpa [hopen] using h
    exact ⟨.sendWindowFull, by simp [hwindow]⟩

theorem sendMessageAlone_ok {s : UdpSender} {m : SendCircumstances}
    (window : m.windowOpen = true) (permit : s.sendWindow ≠ 0) (encoded : m.encoded = true)
    (sent : m.sent = true) (seq : Nat) (data : String) :
    (s.sendMessageAlone seq data m).1 = .ok () := by
  simp [sendMessageAlone, window, permit, encoded, sent]

theorem sendMessageAlone_fails {s : UdpSender} {m : SendCircumstances}
    (window : m.windowOpen = true) (permit : s.sendWindow ≠ 0)
    (fails : ¬(m.encoded = true ∧ m.sent = true)) (seq : Nat) (data : String) :
    ∃ e, s.sendMessageAlone seq data m = (.error e, s.saveMessage seq data m.now) := by
  have hwindow : s.sendWindow - 1 + 1 = s.sendWindow := Nat.succ_pred_eq_of_ne_zero permit
  unfold sendMessageAlone
  rw [window, if_neg (by simp), if_neg permit]
  cases hencoded : m.encoded with
  | false => exact ⟨.serialization, by simp [saveMessage, hwindow]⟩
  | true =>
    have hsent : m.sent = false := by simpa [hencoded] using fails
    exact ⟨.io, by simp [saveMessage, hwindow, hsent]⟩

theorem sendMessage_atomic_iff (s : UdpSender) (seq : Nat) (data : String)
    (m : SendCircumstances) :
    s.Atomic seq data m ↔ m.windowOpen = false ∨ s.sendWindow = 0 ∨
      (m.encoded = true ∧ m.sent = true) ∨
      (s.sentMessages.lookup seq = some data ∧
        s.inFlight.lookup seq = some ⟨seq, data, m.now, 0⟩) := by
  constructor
  · intro h
    by_cases hopen : m.windowOpen = true
    · by_cases hwindow : s.sendWindow = 0
      · exact .inr (.inl hwindow)
      · by_cases hfails : m.encoded = true ∧ m.sent = true
        · exact .inr (.inr (.inl hfails))
        · obtain ⟨e, heq⟩ := sendMessageAlone_fails hopen hwindow hfails seq data
          obtain ⟨hsaved, htracked, -⟩ := h e _ heq
          exact .inr (.inr (.inr ⟨Map.insert_eq_self_iff.mp hsaved,
            Map.insert_eq_self_iff.mp htracked⟩))
    · exact .inl (Bool.eq_false_iff.mpr hopen)
  · intro hcases e t heq
    by_cases hrefused : m.windowOpen = false ∨ s.sendWindow = 0
    · obtain ⟨e', heq'⟩ := sendMessageAlone_refused hrefused seq data
      rw [heq'] at heq
      obtain rfl := (Prod.mk.inj heq).2
      exact ⟨rfl, rfl, rfl⟩
    · obtain ⟨hopen, hwindow⟩ := not_or.mp hrefused
      have hopen := Bool.eq_true_of_not_eq_false hopen
      by_cases hfails : m.encoded = true ∧ m.sent = true
      · have hok := sendMessageAlone_ok hopen hwindow hfails.1 hfails.2 seq data
        rw [heq] at hok
        contradiction
      · obtain ⟨e', heq'⟩ := sendMessageAlone_fails hopen hwindow hfails seq data
        have hsame : s.sentMessages.lookup seq = some data ∧
            s.inFlight.lookup seq = some ⟨seq, data, m.now, 0⟩ := by
          simpa [hopen, hwindow, hfails] using hcases
        rw [heq'] at heq
        obtain rfl := (Prod.mk.inj heq).2
        exact ⟨Map.insert_eq_self_iff.mpr hsame.1, Map.insert_eq_self_iff.mpr hsame.2, rfl⟩

/-- The timer retransmits the message of a failed call once its time is over. -/
theorem failed_send_expires {s : UdpSender} {m : SendCircumstances} (window : m.windowOpen = true)
    (permit : s.sendWindow ≠ 0) (fails : ¬(m.encoded = true ∧ m.sent = true)) {now : Nat}
    (time : s.flowControl.ackTimeout < now - m.now) :
    (seq, data) ∈ (s.sendMessageAlone seq data m).2.expired now := by
  obtain ⟨e, heq⟩ := sendMessageAlone_fails window permit fails seq data
  rw [heq]
  refine Multiset.mem_map.mpr ⟨(seq, ⟨seq, data, m.now, 0⟩), Map.mem_select.mpr ⟨?_, ?_⟩, rfl⟩
  · exact Map.lookup_insert_self _ _ _
  · exact decide_eq_true time

/-- The ACK of a failed call adds a permit. -/
theorem failed_send_acknowledged {s : UdpSender} {m : SendCircumstances}
    (window : m.windowOpen = true) (permit : s.sendWindow ≠ 0)
    (fails : ¬(m.encoded = true ∧ m.sent = true)) (seq : Nat) (data : String) :
    ((s.sendMessageAlone seq data m).2.acknowledge seq).sendWindow = s.sendWindow + 1 := by
  obtain ⟨e, heq⟩ := sendMessageAlone_fails window permit fails seq data
  have hentry : (s.saveMessage seq data m.now).inFlight.lookup seq = some ⟨seq, data, m.now, 0⟩ :=
    Map.lookup_insert_self _ _ _
  rw [heq]
  simp only [acknowledge, hentry]
  rfl

theorem failed_send_tracked :
    ¬∀ (s : UdpSender) (seq : Nat) (data : String) (m : SendCircumstances),
      s.Atomic seq data m := by
  intro h
  have htracked := (h (.new .default) 1 "a" ⟨true, true, false, 0⟩ .io
    ((new .default).saveMessage 1 "a" 0) rfl).2.1
  have hentry := congrArg (Map.lookup 1) htracked
  simp [saveMessage, new] at hentry

end BdsPro.Udp.UdpSender
