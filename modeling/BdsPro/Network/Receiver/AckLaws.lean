import BdsPro.Library.Table
import BdsPro.Network.Receiver.ChannelHandlerLaws

namespace BdsPro.Network

open BdsPro.Library

def DataChannelResponse.ackKey : DataChannelResponse → Option Sequence
  | .ackData seq => some seq
  | _ => none

namespace Receiver.ChannelHandler

def acks (h : ChannelHandler) : List Sequence :=
  h.writer.accepted.filterMap DataChannelResponse.ackKey

def unacked (h : ChannelHandler) : Option Sequence :=
  match h.phase with
  | .acking seq false => some seq
  | _ => none

def owing (h : ChannelHandler) : Option Sequence :=
  match h.phase with
  | .queueing b => some b.sequence
  | .acking seq false => some seq
  | _ => none

inductive AckStep (h : ChannelHandler) (e : Event) (t : ChannelHandler) : Prop
  | still (acks : t.acks = h.acks) (pushed : t.pushed = h.pushed)
      (owing : t.owing = none ∨ t.owing = h.owing)
      (unacked : t.unacked = none ∨ t.unacked = h.unacked)
  | read (b : TupleBuffer) (event : reads e = some b) (acks : t.acks = h.acks)
      (pushed : t.pushed = h.pushed) (owing : t.owing = some b.sequence)
      (unacked : t.unacked = none)
  | push (b : TupleBuffer) (acks : t.acks = h.acks) (pushed : t.pushed = h.pushed ++ [b])
      (owing : h.owing = some b.sequence) (owing' : t.owing = some b.sequence)
      (unacked : h.unacked = none) (unacked' : t.unacked = some b.sequence)
  | ack (seq : Sequence) (acks : t.acks = h.acks ++ [seq]) (pushed : t.pushed = h.pushed)
      (owing : h.owing = some seq) (owing' : t.owing = none) (unacked : h.unacked = some seq)
      (unacked' : t.unacked = none)

theorem acks_of_pollSend {h : ChannelHandler}
    (sent : h.writer.pollSend responseCodec (.ackData seq) fed io = some (w, sending)) :
    w.accepted.filterMap DataChannelResponse.ackKey = h.acks ∨
      fed = false ∧ sending = .pending true ∧
        w.accepted.filterMap DataChannelResponse.ackKey = h.acks ++ [seq] := by
  obtain ⟨-, ⟨hacc, -⟩ | ⟨hfed, hacc, hsending⟩⟩ := FramedWrite.pollSend_eq_some sent
  · exact .inl (by rw [hacc, acks])
  · refine .inr ⟨hfed, hsending, ?_⟩
    rw [hacc, Table.filterMap_concat, acks]
    rfl

theorem acks_of_close {h : ChannelHandler}
    (sent : h.writer.pollSend responseCodec .close fed io = some (w, sending)) :
    w.accepted.filterMap DataChannelResponse.ackKey = h.acks := by
  obtain ⟨-, ⟨hacc, -⟩ | ⟨-, hacc, -⟩⟩ := FramedWrite.pollSend_eq_some sent
  · rw [hacc, acks]
  · rw [hacc, Table.filterMap_concat, acks]
    exact List.append_nil _

theorem AckStep.acking {h : ChannelHandler} (phase : h.phase = .acking seq fed)
    (sent : h.writer.pollSend responseCodec (.ackData seq) fed io = some (w, .pending fed')) :
    AckStep h (.send io) { h with writer := w, phase := .acking seq fed' } := by
  rcases acks_of_pollSend sent with hacks | ⟨rfl, hsending, hacks⟩
  · cases fed' with
    | true => exact .still hacks rfl (.inl rfl) (.inl rfl)
    | false =>
      cases fed with
      | true => cases FramedWrite.pollSend_fed sent
      | false =>
        have howing : h.owing = some seq := by simp only [owing, phase]
        have hunacked : h.unacked = some seq := by simp only [unacked, phase]
        exact .still hacks rfl (.inr howing.symm) (.inr hunacked.symm)
  · cases hsending
    exact .ack seq hacks rfl (by simp only [owing, phase]) rfl (by simp only [unacked, phase]) rfl

theorem ackStep_of_step {h t : ChannelHandler} (ht : h.step e = some t) : AckStep h e t := by
  cases step_sound ht with
  | cancel | pop | closeQueue => exact .still rfl rfl (.inr rfl) (.inr rfl)
  | cancelled | lost | garbled | close | refused => exact .still rfl rfl (.inl rfl) (.inl rfl)
  | data => exact .read _ rfl rfl rfl rfl rfl
  | pushed phase =>
    exact .push _ rfl rfl (by simp only [owing, phase]) rfl (by simp only [unacked, phase]) rfl
  | acking phase sent => exact .acking phase sent
  | acked _ sent | ackFailed _ sent =>
    rcases acks_of_pollSend sent with hacks | ⟨-, hsending, -⟩
    · exact .still hacks rfl (.inl rfl) (.inl rfl)
    · cases hsending
  | closing _ sent | closed _ sent | closeFailed _ sent =>
    exact .still (acks_of_close sent) rfl (.inl rfl) (.inl rfl)

def Answered (h : ChannelHandler) : Prop :=
  (h.acks ++ h.unacked.toList).Sublist (h.pushed.map TupleBuffer.sequence)

theorem Answered.step {h t : ChannelHandler} (ha : h.Answered) (hs : AckStep h e t) :
    t.Answered := by
  unfold Answered at ha ⊢
  cases hs with
  | still acks pushed owing unacked =>
    rw [acks, pushed]
    cases unacked with
    | inl hnone =>
      rw [hnone, Option.toList_none, List.append_nil]
      exact (List.sublist_append_left _ _).trans ha
    | inr hsame => rwa [hsame]
  | read b event acks pushed owing unacked =>
    rw [acks, pushed, unacked, Option.toList_none, List.append_nil]
    exact (List.sublist_append_left _ _).trans ha
  | push b acks pushed owing owing' unacked unacked' =>
    rw [unacked, Option.toList_none, List.append_nil] at ha
    rw [acks, pushed, unacked', Option.toList_some, List.map_append]
    exact ha.append (List.Sublist.refl _)
  | ack seq acks pushed owing owing' unacked unacked' =>
    rw [unacked, Option.toList_some] at ha
    rw [acks, pushed, unacked', Option.toList_none, List.append_nil]
    exact ha

end Receiver.ChannelHandler

end BdsPro.Network
