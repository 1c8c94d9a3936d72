import BdsPro.Network.Sender.AckLedger
import BdsPro.Network.Sender.ChannelLaws

namespace BdsPro.Network.Sender

namespace ChannelHandler

inductive Cause (h : ChannelHandler) : Event → ChannelHandlerError → Prop
  | token (cancelled : h.cancelled = true) : Cause h e .cancelled
  | queueClosed : Cause h (.request none) .cancelled
  | endOfStream : Cause h (.response none) .closedByOtherSide
  | closeReceived : Cause h (.response (some (.ok .close))) .closedByOtherSide
  | terminated (phase : h.phase = .closing fed) : Cause h e .terminated
  | connectionLost : Cause h e (.connectionLost error)
  | unknownSeq (answer : answers e = some seq) (unknown : h.waitForAck.lookup seq = none) :
    Cause h e (.protocol error)

theorem Selected.cause {h t : ChannelHandler} (selected : h.Selected task t)
    (hp : t.phase = .ended err) : h.cancelled = true ∧ err = .cancelled := by
  obtain ⟨token, rfl⟩ := selected.dead (by simp only [live, hp])
  exact ⟨token, (Phase.ended.inj hp).symm⟩

theorem ended_cause {h t : ChannelHandler} (hs : h.step e = some t) (hp : t.phase = .ended err) :
    h.phase = .ended err ∨ h.Cause e err := by
  cases step_sound hs with
  | cancel | flushing => exact .inl hp
  | run _ selected =>
    obtain ⟨token, rfl⟩ := selected.cause hp
    exact .inr (.token token)
  | flushed _ _ selected =>
    obtain ⟨token, rfl⟩ := selected.cause hp
    exact .inr (.token token)
  | cancelled _ token => exact .inr (Phase.ended.inj hp ▸ .token token)
  | flushFailed | garbled => exact .inr (Phase.ended.inj hp ▸ .connectionLost)
  | endOfStream => exact .inr (Phase.ended.inj hp ▸ .endOfStream)
  | closeReceived => exact .inr (Phase.ended.inj hp ▸ .closeReceived)
  | queueClosed => exact .inr (Phase.ended.inj hp ▸ .queueClosed)
  | ackUnknown _ unknown | nackUnknown _ unknown =>
    exact .inr (Phase.ended.inj hp ▸ .unknownSeq rfl unknown)
  | terminated phase => exact .inr (Phase.ended.inj hp ▸ .terminated phase)
  | feed _ fed | start _ _ fed => exact absurd hp (live_iff.mp fed.live err)
  | flushDone | flushMore | ack | nack | data | flush | terminate | closing => contradiction

end ChannelHandler

theorem Trace.taken_record (tr : Trace) (h : ChannelHandler) (e : ChannelHandler.Event) :
    tr.taken ⊆ (tr.record h e).taken := by
  unfold Trace.record
  split
  · exact List.subset_append_left _ _
  · exact List.Subset.refl _
  · exact List.Subset.refl _
  · exact List.Subset.refl _

theorem Channel.drained_step {c t : Channel} (hs : c.step a = some t)
    (hclosed : c.queueOpen = false) (hqueue : c.queue = []) :
    t.queueOpen = false ∧ t.queue = [] := by
  cases a with
  | submit m =>
    obtain ⟨⟨hopen, -⟩, -⟩ := Option.ite_none_right_eq_some.mp hs
    rw [hclosed] at hopen
    contradiction
  | dropQueue =>
    rw [← Option.some.inj hs]
    exact ⟨rfl, hqueue⟩
  | establish r =>
    simp only [Channel.step, Channel.establish] at hs
    split at hs
    next => cases r <;> exact Option.some.inj hs ▸ ⟨hclosed, hqueue⟩
    next => contradiction
  | connect ok =>
    simp only [Channel.step, Channel.connect] at hs
    split at hs
    next => exact Option.some.inj hs ▸ ⟨hclosed, hqueue⟩
    next => contradiction
  | handler e =>
    obtain ⟨h, h', queue, -, -, -, ⟨-, rfl⟩ | ⟨-, rfl⟩, rfl⟩ := Channel.handler_eq_some hs
    · exact ⟨hclosed, hqueue ▸ List.tail_nil⟩
    · exact ⟨hclosed, hqueue⟩
  | finish =>
    simp only [Channel.step, Channel.finish] at hs
    split at hs
    next =>
      split at hs
      next => split at hs <;> exact Option.some.inj hs ▸ ⟨hclosed, hqueue⟩
      next => contradiction
    next => contradiction
  | retry ok =>
    simp only [Channel.step, Channel.retry] at hs
    split at hs
    next => exact Option.some.inj hs ▸ ⟨hclosed, hqueue⟩
    next => contradiction

theorem Channel.taken_step {c t : Channel} (hs : c.step a = some t) :
    c.trace.taken ⊆ t.trace.taken := by
  cases Channel.step_sound hs with
  | still _ trace | idle _ _ trace | finish _ _ _ _ trace => exact trace ▸ List.Subset.refl _
  | start => exact List.Subset.refl _
  | handler event =>
    obtain ⟨h, h', queue, -, -, -, -, rfl⟩ := Channel.handler_eq_some event
    exact Trace.taken_record _ _ _

end BdsPro.Network.Sender
