import BdsPro.Library.Flight
import BdsPro.Network.DataConnectionLaws
import BdsPro.Network.Receiver.AckLaws
import BdsPro.Network.Sender.EndingLaws
import BdsPro.Network.Sender.LedgerLaws

namespace BdsPro.Network

open BdsPro.Library

namespace Sender.ChannelHandler

def unread (h : ChannelHandler) (n : Nat) : List TupleBuffer :=
  (h.writer.accepted.drop n).filterMap DataChannelRequest.buffer

/-- The numbers on their way from this handler's writer back to it, `back` being those that the
receiver has read.  An entry of `wait_for_ack` expects an answer once its send is over. -/
def flight (h : ChannelHandler) (n : Nat) (back : Multiset Sequence) : Flight Sequence where
  inFlight := (h.unread n).map TupleBuffer.sequence + back
  expected k := ∃ b, h.sentEntries.lookup k = some b

theorem unread_of_accepted {h t : ChannelHandler} (ht : t.writer.accepted = h.writer.accepted)
    (n : Nat) : t.unread n = h.unread n := by rw [unread, ht, unread]

theorem unread_concat {h t : ChannelHandler} {r : DataChannelRequest}
    (ht : t.writer.accepted = h.writer.accepted ++ [r]) (hn : n ≤ h.writer.accepted.length) :
    t.unread n = h.unread n ++ r.buffer.toList := by
  rw [unread, ht, List.drop_append_of_le_length hn, Table.filterMap_concat, unread]

theorem flight_start {h h' : ChannelHandler} (hs : h.Start h')
    (hc : h.collides (.sendPending io) = false) : h'.flight n back = h.flight n back := by
  have hentries := hs.sentEntries hc
  cases hs with
  | intro b rest phase pending => simp only [flight, hentries, unread]

theorem flight_answer {h t : ChannelHandler} (hf : (h.flight n back).Sound)
    (hback : seq ::ₘ back' ≤ back) (hacc : t.writer.accepted = h.writer.accepted)
    (ht : t.sentEntries = h.waitForAck.erase seq) : (t.flight n back').Sound := by
  refine hf.answer (k := seq) ?_ fun k hb hne => ?_
  · simp only [flight, unread_of_accepted hacc]
    rw [← Multiset.add_cons]
    exact add_le_add_right hback _
  · obtain ⟨b, hl⟩ := hb
    refine ⟨b, ?_⟩
    rw [ht, Map.lookup_erase, if_neg hne]
    exact entry_of_sent hl

theorem flight_accept {h t : ChannelHandler} (hf : (h.flight n back).Sound) (hk : h.Keyed)
    (hn : n ≤ h.writer.accepted.length) (hback : back' ≤ back) (hfeeding : h.feeding = some b)
    (hacc : t.writer.accepted = h.writer.accepted ++ [.data b])
    (ht : t.sentEntries = h.waitForAck) : (t.flight n back').Sound := by
  refine hf.launch (k := b.sequence) ?_ ?_ ⟨b, ht ▸ hk.current b hfeeding⟩ fun k hb => ?_
  · rintro ⟨b', hl⟩
    rw [sentEntries_of_feeding hfeeding, Map.lookup_erase_self] at hl
    contradiction
  · simp only [flight, unread_concat hacc hn]
    rw [List.map_append, ← Multiset.coe_add, add_right_comm, add_comm, ← Multiset.singleton_add]
    exact add_le_add_right (add_le_add_right hback _) _
  · obtain ⟨b', hl⟩ := hb
    exact ⟨b', ht ▸ entry_of_sent hl⟩

theorem answers_eq_some {e : Event} (he : answers e = some seq) :
    e = .response (some (.ok (.ackData seq))) ∨ e = .response (some (.ok (.nackData seq))) := by
  unfold answers at he
  split at he
  next => exact .inl (Option.some.inj he ▸ rfl)
  next => exact .inr (Option.some.inj he ▸ rfl)
  next => contradiction

theorem flight_step {h t : ChannelHandler} (hf : (h.flight n back).Sound) (hk : h.Keyed)
    (hn : n ≤ h.writer.accepted.length)
    (hback : (answers e).toList + back' ≤ (back : Multiset Sequence)) (hs : h.Step e t) :
    (t.flight n back').Sound := by
  have hle : back' ≤ back := (Multiset.le_add_left _ _).trans hback
  have hkept (hsame : t.writer.accepted = h.writer.accepted)
      (hex : ∀ k b, h.sentEntries.lookup k = some b → t.sentEntries.lookup k = some b) :
      (t.flight n back').Sound := by
    refine hf.lose ?_ fun k hb => hb.imp (hex k)
    simp only [flight, unread_of_accepted hsame]
    exact add_le_add_right hle _
  cases hs with
  | cancel => exact hkept rfl fun _ _ h => h
  | quiet quiet =>
    have hex : ∀ k b, h.sentEntries.lookup k = some b → t.sentEntries.lookup k = some b := by
      intro k b hl
      rw [sentEntries_of_none quiet.feeding, quiet.waitForAck]
      exact entry_of_sent hl
    cases quiet.accepted with
    | inl hsame => exact hkept hsame hex
    | inr hclose =>
      have hunread : t.unread n = h.unread n :=
        (unread_concat hclose hn).trans (List.append_nil _)
      refine hf.lose ?_ fun k hb => hb.imp (hex k)
      simp only [flight, hunread]
      exact add_le_add_right hle _
  | data phase => exact hkept rfl fun k b hl => entry_of_sent (h := h) hl
  | ack phase entry | nack phase entry => exact flight_answer hf hback rfl rfl
  | accept phase ready fed =>
    have hacc := (FramedWrite.startSend_eq_some fed).1
    rw [ready.accepted] at hacc
    exact flight_accept hf hk hn hle (feeding_of_phase phase) hacc rfl
  | block phase ready => exact hkept ready.accepted fun _ _ h => h
  | putBack phase ready entry =>
    refine hkept ready.accepted fun k b hl => ?_
    rw [sentEntries_of_feeding (feeding_of_phase phase)] at hl
    exact hl

end Sender.ChannelHandler

namespace Receiver.ChannelHandler

def unreadAcks (h : ChannelHandler) (n : Nat) : List Sequence :=
  (h.writer.accepted.drop n).filterMap DataChannelResponse.ackKey

def back (h : ChannelHandler) (n : Nat) : Multiset Sequence := h.owing.toList + h.unreadAcks n

theorem unreadAcks_concat {h t : ChannelHandler} (ht : h.step e = some t)
    (hn : n ≤ h.writer.wire.length) (ha : t.acks = h.acks ++ more) :
    t.unreadAcks n = h.unreadAcks n ++ more := by
  have hsplit (x : ChannelHandler) :
      x.acks = (x.writer.accepted.take n).filterMap DataChannelResponse.ackKey ++
        x.unreadAcks n := by
    rw [acks, unreadAcks, ← List.filterMap_append, List.take_append_drop]
  have htake : t.writer.accepted.take n = h.writer.accepted.take n := by
    obtain ⟨wire, hwire⟩ := (grows ht).2
    rw [FramedWrite.accepted, FramedWrite.accepted, ← hwire, List.append_assoc,
      List.take_append_of_le_length hn, List.take_append_of_le_length hn]
  rw [hsplit t, hsplit h, htake, List.append_assoc] at ha
  exact List.append_cancel_left ha

theorem back_le {h t : ChannelHandler} (ht : h.step e = some t) (hn : n ≤ h.writer.wire.length) :
    t.back n ≤ (reads e).toList.map TupleBuffer.sequence + h.back n := by
  have hstill (hacks : t.acks = h.acks) : t.unreadAcks n = h.unreadAcks n :=
    (unreadAcks_concat ht hn (hacks.trans (List.append_nil _).symm)).trans (List.append_nil _)
  cases ackStep_of_step ht with
  | still acks pushed owing unacked =>
    refine le_trans ?_ (Multiset.le_add_left _ _)
    rw [back, back, hstill acks]
    cases owing with
    | inl hnone =>
      rw [hnone, Option.toList_none, Multiset.coe_nil, zero_add]
      exact Multiset.le_add_left _ _
    | inr hsame => rw [hsame]
  | read b event acks pushed owing unacked =>
    rw [back, back, hstill acks, owing, event]
    exact add_le_add_right (Multiset.le_add_left _ _) _
  | push b acks pushed owing owing' unacked unacked' =>
    refine le_trans ?_ (Multiset.le_add_left _ _)
    rw [back, back, hstill acks, owing, owing']
  | ack seq acks pushed owing owing' unacked unacked' =>
    refine le_trans ?_ (Multiset.le_add_left _ _)
    rw [back, back, unreadAcks_concat ht hn acks, owing, owing', ← Multiset.coe_add]
    exact le_of_eq (by simp [add_comm])

end Receiver.ChannelHandler

namespace DataConnection

def flight (c : DataConnection) : Flight Sequence :=
  c.sender.handler.flight c.requestsRead (c.receiver.back c.responsesRead)

structure Agreed (c : DataConnection) : Prop where
  following : c.Following
  responses : c.responsesRead ≤ c.receiver.writer.wire.length
  keyed : c.sender.handler.Keyed
  flight : c.flight.Sound
  accepted : ∀ m, c.sender.handler.phase ≠ .ended (.protocol m)

theorem Following.unread {c : DataConnection} (h : c.Following) :
    c.received ++ c.sender.handler.unread c.requestsRead = c.sender.handler.acceptedData := by
  rw [received, ← List.take_append_of_le_length h.read, Sender.ChannelHandler.unread,
    ← List.filterMap_append]
  exact congrArg _ (List.take_append_drop _ _)

theorem Following.unread_step {c t : DataConnection} (h : c.Following)
    (hs : c.step (.receiver e) = some t) :
    c.sender.handler.unread c.requestsRead =
      (Receiver.ChannelHandler.reads e).toList ++ t.sender.handler.unread t.requestsRead := by
  obtain ⟨-, hsender, hreceived, -⟩ := receiver_eq_some hs
  have ht := (h.receiver_step hs).unread
  rw [hreceived, hsender, ← h.unread, List.append_assoc] at ht
  rw [hsender]
  exact (List.append_cancel_left ht).symm

theorem receiver_responsesRead {c t : DataConnection} (hs : c.step (.receiver e) = some t) :
    t.responsesRead = c.responsesRead := by
  simp only [step, Option.ite_none_right_eq_some, Option.map_eq_some_iff] at hs
  obtain ⟨-, r, -, rfl⟩ := hs
  rfl

theorem Agreed.receiver_step {c t : DataConnection} (h : c.Agreed)
    (hs : c.step (.receiver e) = some t) : t.Agreed := by
  obtain ⟨hstep, hsender, -, -⟩ := receiver_eq_some hs
  have hread := receiver_responsesRead hs
  have hgrows := (Receiver.ChannelHandler.grows hstep).2.length_le
  refine ⟨h.following.receiver_step hs, ?_, hsender ▸ h.keyed, ?_, hsender ▸ h.accepted⟩
  · rw [hread]
    exact h.responses.trans hgrows
  · refine h.flight.lose ?_ fun k hk => ?_
    · simp only [DataConnection.flight, Sender.ChannelHandler.flight, hread,
        h.following.unread_step hs, List.map_append, ← Multiset.coe_add]
      rw [add_assoc, add_left_comm]
      exact add_le_add_right (Receiver.ChannelHandler.back_le hstep h.responses) _
    · simp only [DataConnection.flight, Sender.ChannelHandler.flight, hsender]
      exact hk

theorem unreadAcks_of_next {h : Receiver.ChannelHandler} {r : DataChannelResponse}
    (hr : h.writer.wire[n]? = some r) :
    h.unreadAcks n = r.ackKey.toList ++ h.unreadAcks (n + 1) := by
  obtain ⟨rest, hacc⟩ := FramedWrite.wire_prefix_accepted h.writer
  have hnext : h.writer.accepted[n]? = some r := by
    rw [← hacc, List.getElem?_append_left (List.getElem?_eq_some_iff.mp hr).1, hr]
  rw [Receiver.ChannelHandler.unreadAcks, List.drop_eq_getElem?_toList_append, hnext,
    Option.toList_some, List.filterMap_append, Receiver.ChannelHandler.unreadAcks]
  rfl

theorem sender_responsesRead {c t : DataConnection} (hs : c.step (.sender e) = some t) :
    (t.responsesRead = c.responsesRead ∧ ∀ r, e ≠ .response (some (.ok r))) ∨
      ∃ r, e = .response (some (.ok r)) ∧ c.receiver.writer.wire[c.responsesRead]? = some r ∧
        t.responsesRead = c.responsesRead + 1 := by
  simp only [step, Option.ite_none_right_eq_some, Option.map_eq_some_iff] at hs
  obtain ⟨hreads, s, -, rfl⟩ := hs
  split
  next r => exact .inr ⟨r, rfl, of_decide_eq_true hreads, rfl⟩
  next hother => exact .inl ⟨rfl, fun r he => hother r he⟩

theorem Agreed.expected {c : DataConnection} (h : c.Agreed)
    (hr : c.receiver.writer.wire[c.responsesRead]? = some (.ackData seq)) :
    ∃ b, c.sender.handler.waitForAck.lookup seq = some b := by
  have hmem : seq ∈ c.flight.inFlight := by
    refine Multiset.mem_add.mpr (.inr (Multiset.mem_add.mpr (.inr ?_)))
    rw [unreadAcks_of_next hr]
    exact List.mem_append_left _ (List.mem_singleton_self _)
  obtain ⟨b, hl⟩ := h.flight.awaited seq hmem
  exact ⟨b, Sender.ChannelHandler.entry_of_sent hl⟩

theorem Agreed.no_nack {c : DataConnection} (h : c.Agreed) (seq : Sequence) :
    .nackData seq ∉ c.receiver.writer.wire := fun hmem =>
  h.following.served.responses _ ((FramedWrite.wire_prefix_accepted _).subset hmem)

theorem Agreed.back_step {c t : DataConnection} (h : c.Agreed)
    (hs : c.step (.sender e) = some t) :
    (Sender.ChannelHandler.answers e).toList + c.receiver.back t.responsesRead ≤
        c.receiver.back c.responsesRead ∧
      t.responsesRead ≤ c.receiver.writer.wire.length := by
  cases sender_responsesRead hs with
  | inl hs =>
    obtain ⟨hsame, hother⟩ := hs
    have hnone : Sender.ChannelHandler.answers e = none := by
      refine Option.eq_none_iff_forall_ne_some.mpr fun seq he => ?_
      exact (Sender.ChannelHandler.answers_eq_some he).elim (hother _) (hother _)
    rw [hnone, hsame]
    exact ⟨le_of_eq (zero_add _), h.responses⟩
  | inr hs =>
    obtain ⟨r, rfl, hnext, hread⟩ := hs
    rw [hread, Receiver.ChannelHandler.back, Receiver.ChannelHandler.back,
      unreadAcks_of_next hnext, ← Multiset.coe_add]
    refine ⟨?_, (List.getElem?_eq_some_iff.mp hnext).1⟩
    cases r with
    | ackData seq => exact le_of_eq (add_left_comm _ _ _)
    | nackData seq => exact absurd (List.mem_of_getElem? hnext) (h.no_nack seq)
    | close => exact le_of_eq (add_left_comm _ _ _)

theorem Agreed.accepted_step {c t : DataConnection} (h : c.Agreed)
    (hs : c.step (.sender e) = some t) (m : String) :
    t.sender.handler.phase ≠ .ended (.protocol m) := by
  intro hp
  obtain ⟨hreads, hsend, -, -⟩ := sender_eq_some hs
  have hstep := (Sender.ChannelRun.step_eq_some hsend).1
  cases Sender.ChannelHandler.ended_cause hstep hp with
  | inl hended => exact h.accepted m hended
  | inr hcause =>
    cases hcause with
    | unknownSeq answer unknown =>
      cases Sender.ChannelHandler.answers_eq_some answer with
      | inr he => exact h.no_nack _ (hreads _ he)
      | inl he =>
        cases sender_responsesRead hs with
        | inl hs => exact hs.2 _ he
        | inr hs =>
          obtain ⟨r, hr, hnext, -⟩ := hs
          cases he.symm.trans hr
          obtain ⟨b, hl⟩ := h.expected hnext
          rw [unknown] at hl
          contradiction

theorem Agreed.sender_step {c t : DataConnection} (h : c.Agreed)
    (hc : c.KeepsEntries (.sender e)) (hs : c.step (.sender e) = some t) : t.Agreed := by
  obtain ⟨-, hsend, hreceiver, hrequests⟩ := sender_eq_some hs
  obtain ⟨hback, hresponses⟩ := h.back_step hs
  have hstep := (Sender.ChannelRun.step_eq_some hsend).1
  have hn : c.requestsRead ≤ c.sender.handler.writer.accepted.length :=
    h.following.read.trans (FramedWrite.wire_prefix_accepted _).length_le
  have hflight : t.sender.handler.Keyed ∧
      (t.sender.handler.flight c.requestsRead (c.receiver.back t.responsesRead)).Sound := by
    cases Sender.ChannelHandler.step_cases hstep with
    | inl hs =>
      exact ⟨h.keyed.step hs, Sender.ChannelHandler.flight_step h.flight h.keyed hn hback hs⟩
    | inr hs =>
      obtain ⟨h', hstart, hs, io, rfl⟩ := hs
      have hk := h.keyed.start hstart
      have hf := h.flight
      rw [DataConnection.flight, ← Sender.ChannelHandler.flight_start hstart hc] at hf
      refine ⟨hk.step hs, Sender.ChannelHandler.flight_step hf hk ?_ hback hs⟩
      cases hstart with
      | intro b rest phase pending => exact hn
  refine ⟨h.following.sender_step hs, ?_, hflight.1, ?_, h.accepted_step hs⟩
  · rw [hreceiver]
    exact hresponses
  · rw [DataConnection.flight, hreceiver, hrequests]
    exact hflight.2

theorem agreed_of_reaches {c : DataConnection} (h : machine.Reaches KeepsEntries c) :
    c.Agreed := by
  refine h.invariant ?_ fun c a t _ ih hc hs => ?_
  · exact ⟨.new, Nat.le_refl _, ⟨by rintro k b ⟨⟩, by rintro b ⟨⟩⟩,
      ⟨Multiset.nodup_zero, by rintro k ⟨⟩⟩, by rintro m ⟨⟩⟩
  · cases a with
    | sender e => exact ih.sender_step hc hs
    | receiver e => exact ih.receiver_step hs

theorem sender_reaches {C : Sender.ChannelRun → Sender.ChannelHandler.Event → Prop}
    {c : DataConnection} (h : machine.Reaches (OnSender C) c) :
    Sender.ChannelRun.machine.Reaches C c.sender := by
  induction h with
  | init => exact .init
  | @step c a t _ hC hs ih =>
    cases a with
    | sender e => exact ih.step hC (sender_eq_some hs).2.1
    | receiver e =>
      rw [(receiver_eq_some hs).2.1]
      exact ih

theorem no_tracking_collision {c : DataConnection} (h : machine.Reaches KeepsEntries c) :
    (c.sender.trace.data : Multiset TupleBuffer) =
        c.sender.handler.pendingWrites + c.sender.handler.waitForAck.values +
          c.sender.trace.acked ∧
      (∀ k b, c.sender.handler.waitForAck.lookup k = some b → b.sequence = k) ∧
      (c.sender.handler.waitForAck.values.map TupleBuffer.sequence).Nodup ∧
      ∀ m, c.sender.handler.phase ≠ .ended (.protocol m) := by
  have hc := agreed_of_reaches h
  refine ⟨Sender.ChannelRun.balanced_of_reaches (sender_reaches h), hc.keyed.keyed, ?_,
    hc.accepted⟩
  exact Map.values_map_nodup hc.keyed.keyed

theorem no_tracking_collision_two_origins :
    ∃ c, machine.Reaches KeepsEntries c ∧ c.sender.trace.acked.length = 2 ∧
      (c.sender.trace.data : Multiset TupleBuffer) =
        c.sender.handler.pendingWrites + c.sender.handler.waitForAck.values +
          c.sender.trace.acked := by
  obtain ⟨c, hc, hacked⟩ := Machine.exists_reaches_of_replay (M := machine) (C := KeepsEntries)
    (P := fun c => c.sender.trace.acked.length = 2)
    [.sender .advance, .sender (.request (some (.data (exampleBuffer 1 [])))), .sender .advance,
      .sender (.sendPending .complete), .sender .advance, .sender (.request (some (.flush 7))),
      .sender .advance, .sender (.flush .complete),
      .receiver (.request (some (.ok (.data (exampleBuffer 1 []))))), .receiver .push,
      .receiver (.send .complete), .receiver (.send .complete),
      .sender (.response (some (.ok (.ackData (1, 0))))), .sender .advance, .sender .advance,
      .sender (.request (some (.data { exampleBuffer 1 [] with originId := 1 }))),
      .sender .advance, .sender (.sendPending .complete), .sender .advance,
      .sender (.request (some (.flush 8))), .sender .advance, .sender (.flush .complete),
      .receiver (.request (some (.ok (.data { exampleBuffer 1 [] with originId := 1 })))),
      .receiver .push, .receiver (.send .complete), .receiver (.send .complete),
      .sender (.response (some (.ok (.ackData (1, 0)))))] (by decide +kernel)
  exact ⟨c, hc, hacked, (no_tracking_collision hc).1⟩

/-- Both buffers are sent before the first ACK: the second replaces the first in
`wait_for_ack`, and the second ACK finds no entry. -/
theorem origins_share_entry :
    ∃ c, machine.Reaches Steady c ∧
      (c.sender.trace.data : Multiset TupleBuffer) ≠
        c.sender.handler.pendingWrites + c.sender.handler.waitForAck.values +
          c.sender.trace.acked ∧
      c.sender.handler.phase =
        .ended (.protocol (Sender.ChannelHandler.unknownSeq (1, 0))) :=
  Machine.exists_reaches_of_replay (M := machine) (C := Steady)
    [.sender .advance, .sender (.request (some (.data (exampleBuffer 1 [])))), .sender .advance,
      .sender (.sendPending .complete), .sender .advance,
      .sender (.request (some (.data { exampleBuffer 1 [] with originId := 1 }))),
      .sender .advance, .sender (.sendPending .complete), .sender .advance,
      .sender (.request (some (.flush 7))), .sender .advance, .sender (.flush .complete),
      .receiver (.request (some (.ok (.data (exampleBuffer 1 []))))), .receiver .push,
      .receiver (.send .complete), .receiver (.send .complete),
      .receiver (.request (some (.ok (.data { exampleBuffer 1 [] with originId := 1 })))),
      .receiver .push, .receiver (.send .complete), .receiver (.send .complete),
      .sender (.response (some (.ok (.ackData (1, 0))))), .sender .advance, .sender .advance,
      .sender (.response (some (.ok (.ackData (1, 0)))))] (by decide +kernel)

theorem keepsEntries_of_fresh {c : DataConnection} (h : machine.Reaches FreshKey c) :
    machine.Reaches KeepsEntries c := by
  have hfresh {c a} (hf : FreshKey c a) : OnSender Sender.ChannelRun.FreshKey c a := by
    cases a with
    | sender e =>
      intro b hb
      refine hf b ?_
      cases e with
      | request m => cases m <;> exact hb
      | _ => exact hb
    | receiver e => trivial
  induction h with
  | init => exact .init
  | @step c a t hr hf hs ih =>
    refine ih.step ?_ hs
    cases a with
    | receiver e => trivial
    | sender e =>
      have hrun := sender_reaches (hr.mono fun _ _ => hfresh)
      obtain ⟨hkeeps, hd⟩ := Sender.ChannelRun.keepsEntries_of_fresh hrun
      exact Sender.ChannelRun.keepsEntries_of_distinct
        (Sender.ChannelRun.keyed_of_reaches hrun.reachable)
        (Sender.ChannelRun.balanced_of_reaches hkeeps) hd e

theorem answered_of_reaches {c : DataConnection} (h : machine.Reachable c) :
    c.receiver.Answered := by
  refine h.invariant (I := fun c => c.receiver.Answered) (List.Sublist.refl _)
    fun c a t _ ih _ hs => ?_
  cases a with
  | sender e =>
    rw [(sender_eq_some hs).2.2.1]
    exact ih
  | receiver e => exact ih.step (Receiver.ChannelHandler.ackStep_of_step (receiver_eq_some hs).1)

theorem acks_agree {c : DataConnection} (h : machine.Reaches FreshKey c) :
    (∀ m, c.sender.handler.phase ≠ .ended (.protocol m)) ∧
      (∀ seq, c.receiver.writer.wire[c.responsesRead]? = some (.ackData seq) →
        ∃ b, c.sender.handler.waitForAck.lookup seq = some b) ∧
      c.receiver.acks.Nodup ∧
      ∀ seq ∈ c.receiver.acks, ∃ b ∈ c.receiver.pushed, b.sequence = seq := by
  have hagreed := agreed_of_reaches (keepsEntries_of_fresh h)
  have hsynced := synced_of_reaches h
  have hacks : c.receiver.acks.Sublist (c.receiver.pushed.map TupleBuffer.sequence) :=
    (List.sublist_append_left _ _).trans (answered_of_reaches h.reachable)
  refine ⟨hagreed.accepted, fun seq => hagreed.expected, ?_, fun seq hseq => ?_⟩
  · obtain ⟨popped, ho⟩ := hsynced.sender
    have hpushed : c.receiver.pushed.Sublist c.sender.trace.data := by
      rw [ho.data]
      exact (hsynced.pushed_sublist ho).trans (List.sublist_append_left _ _)
    exact hsynced.distinct.sublist (hacks.trans (hpushed.map _))
  · exact List.mem_map.mp (hacks.subset hseq)

theorem acks_agree_after_drop :
    ∃ c, machine.Reaches FreshKey c ∧ exampleBuffer 2 [] ∈ c.sender.handler.waitForAck.values ∧
      exampleBuffer 2 [] ∉ c.sender.handler.acceptedData ∧
      ∃ b, c.sender.handler.waitForAck.lookup (1, 0) = some b := by
  obtain ⟨c, hc, hstranded, haccepted, hwire⟩ := Machine.exists_reaches_of_replay (M := machine)
    (C := FreshKey) (P := fun c => exampleBuffer 2 [] ∈ c.sender.handler.waitForAck.values ∧
      exampleBuffer 2 [] ∉ c.sender.handler.acceptedData ∧
      c.receiver.writer.wire[c.responsesRead]? = some (.ackData (1, 0)))
    [.sender .advance,
      .sender (.request (some (.data (exampleBuffer 1 (List.replicate 2048 255))))),
      .sender .advance, .sender (.sendPending .complete), .sender .advance,
      .sender (.request (some (.data (exampleBuffer 2 [])))), .sender .advance,
      .sender (.sendPending (.failed 0 "broken pipe")), .sender .advance,
      .sender (.sendPending (.blocked 0)),
      .sender (.request (some (.data (exampleBuffer 3 [])))), .sender .advance,
      .sender (.sendPending .complete),
      .receiver (.request (some (.ok (.data (exampleBuffer 1 (List.replicate 2048 255)))))),
      .receiver .push, .receiver (.send .complete), .receiver (.send .complete)]
    (by decide +kernel)
  exact ⟨c, hc, hstranded, haccepted, (acks_agree hc).2.1 _ hwire⟩

end DataConnection

end BdsPro.Network
