import BdsPro.Network.Sender.TrackingLaws

namespace BdsPro.Network.Sender

open BdsPro.Library

namespace ChannelHandler

theorem Step.size_le {h t : ChannelHandler} (hs : h.Step e t) :
    t.waitForAck.size ≤ h.waitForAck.size := by
  cases hs with
  | quiet quiet => rw [quiet.waitForAck]
  | ack phase entry | nack phase entry | putBack phase ready entry => exact Map.size_erase_le _ _
  | cancel | data | accept | block => exact Nat.le_refl _

theorem select_notPolled {h : ChannelHandler}
    (hp : (h.select task').phase = .selecting task .notPolled) :
    (h.select task').waitForAck.size < maxPendingAcks := by
  unfold select at hp ⊢
  split at hp
  next => contradiction
  next hc =>
    split at hp
    next => simp at hp
    next hw =>
      rw [if_neg hc, if_neg hw]
      exact Nat.lt_of_not_le fun hle => hw (.inr hle)

theorem notPolled_of_step {h t : ChannelHandler} (hs : h.step e = some t)
    (hp : t.phase = .selecting task .notPolled) :
    t.waitForAck.size < maxPendingAcks ∨
      (h.phase = .selecting task .notPolled ∧ t.waitForAck = h.waitForAck) := by
  have hnext := next_of_step hs
  rw [hp] at hnext
  generalize hq : h.phase = q at hnext
  cases hnext with
  | cancel =>
    rw [← Option.some.inj hs]
    exact .inr ⟨rfl, rfl⟩
  | select =>
    simp only [step, hq, Option.some.injEq] at hs
    rw [← hs, advance] at hp ⊢
    exact .inl (select_notPolled hp)
  | @flushed _ io =>
    simp only [step, hq] at hs
    obtain ⟨w, -, rfl⟩ := Option.map_eq_some_iff.mp hs
    cases io with
    | complete => exact .inl (select_notPolled hp)
    | blocked n =>
      rw [hq] at hp
      contradiction
    | failed n error => contradiction

structure Windowed (h : ChannelHandler) : Prop where
  size : h.waitForAck.size ≤ maxPendingAcks
  room : ∀ task, h.phase = .selecting task .notPolled → h.waitForAck.size < maxPendingAcks

theorem Windowed.step {h t : ChannelHandler} (hw : h.Windowed) (hs : h.step e = some t) :
    t.Windowed where
  size := by
    cases step_cases hs with
    | inl hs => exact hs.size_le.trans hw.size
    | inr hs =>
      obtain ⟨h', ⟨b, rest, phase, pending⟩, hs, -⟩ := hs
      have hroom := hw.room _ phase
      have hinsert := Map.size_insert_le h.waitForAck b.sequence b
      have hle := hs.size_le
      simp only at hle
      omega
  room task hp := by
    cases notPolled_of_step hs hp with
    | inl hlt => exact hlt
    | inr hsame => exact hsame.2 ▸ hw.room task hsame.1

end ChannelHandler

namespace ChannelRun

theorem windowed_of_reaches {r : ChannelRun} (h : machine.Reachable r) : r.handler.Windowed := by
  refine h.invariant (I := fun r => r.handler.Windowed) ?_
    fun r e t _ ih _ hs => ih.step (step_eq_some hs).1
  exact ⟨Nat.zero_le _, by rintro task ⟨⟩⟩

end ChannelRun

end BdsPro.Network.Sender
