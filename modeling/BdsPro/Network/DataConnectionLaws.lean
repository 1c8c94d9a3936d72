import BdsPro.Network.DataConnection
import BdsPro.Network.Receiver.ChannelHandlerLaws
import BdsPro.Network.Sender.DeliveryLaws
import BdsPro.Network.Sender.TrackingLaws

namespace BdsPro.Network

open BdsPro.Library

namespace DataConnection

def received (c : DataConnection) : List TupleBuffer :=
  (c.sender.handler.writer.wire.take c.requestsRead).filterMap DataChannelRequest.buffer

structure Following (c : DataConnection) : Prop where
  served : c.receiver.Served c.received
  read : c.requestsRead ≤ c.sender.handler.writer.wire.length

structure Synced (c : DataConnection) : Prop where
  distinct : (c.sender.trace.data.map TupleBuffer.sequence).Nodup
  sender : ∃ popped, c.sender.InOrder True (· ∈ c.receiver.pushed) popped
  receiver : c.receiver.Served c.received
  read : c.requestsRead ≤ c.sender.handler.writer.wire.length
  flush : c.sender.FlushLast

theorem sender_eq_some {c t : DataConnection} (hs : c.step (.sender e) = some t) :
    (∀ r, e = .response (some (.ok r)) → r ∈ c.receiver.writer.wire) ∧
      c.sender.step e = some t.sender ∧ t.receiver = c.receiver ∧
        t.requestsRead = c.requestsRead := by
  simp only [step, Option.ite_none_right_eq_some, Option.map_eq_some_iff] at hs
  obtain ⟨hreads, s, hs, rfl⟩ := hs
  refine ⟨?_, hs, rfl, rfl⟩
  rintro r rfl
  exact List.mem_of_getElem? (of_decide_eq_true hreads)

theorem receiver_eq_some {c t : DataConnection} (hs : c.step (.receiver e) = some t) :
    c.receiver.step e = some t.receiver ∧ t.sender = c.sender ∧
      t.received = c.received ++ (Receiver.ChannelHandler.reads e).toList ∧
      (c.requestsRead ≤ c.sender.handler.writer.wire.length →
        t.requestsRead ≤ c.sender.handler.writer.wire.length) := by
  simp only [step, Option.ite_none_right_eq_some, Option.map_eq_some_iff] at hs
  obtain ⟨hreads, r, hr, rfl⟩ := hs
  refine ⟨hr, rfl, ?_⟩
  split
  next q =>
    have hq := of_decide_eq_true hreads
    refine ⟨?_, fun _ => (List.getElem?_eq_some_iff.mp hq).1⟩
    simp only [received, List.take_add_one, hq, Option.toList_some]
    exact Table.filterMap_concat _ _ _
  next hother =>
    refine ⟨?_, id⟩
    have hnone : Receiver.ChannelHandler.reads e = none := by
      unfold Receiver.ChannelHandler.reads
      split
      next q => exact absurd rfl (hother q)
      next => rfl
    rw [hnone]
    exact (List.append_nil _).symm

theorem Following.sender_step {c t : DataConnection} (h : c.Following)
    (hs : c.step (.sender e) = some t) : t.Following := by
  obtain ⟨-, hsend, hreceiver, hread⟩ := sender_eq_some hs
  obtain ⟨more, hwire⟩ := Sender.ChannelHandler.wire_of_step
    (Sender.ChannelRun.step_eq_some hsend).1
  have hreceived : t.received = c.received := by
    simp only [received, ← hwire, hread, List.take_append_of_le_length h.read]
  constructor
  · rw [hreceived, hreceiver]
    exact h.served
  · rw [← hwire, hread, List.length_append]
    exact Nat.le_add_right_of_le h.read

theorem Following.receiver_step {c t : DataConnection} (h : c.Following)
    (hs : c.step (.receiver e) = some t) : t.Following := by
  obtain ⟨hstep, hsender, hreceived, hread⟩ := receiver_eq_some hs
  constructor
  · rw [hreceived]
    exact h.served.step hstep
  · rw [hsender]
    exact hread h.read

theorem Following.new : new.Following := ⟨.new, Nat.le_refl _⟩

theorem received_sublist (c : DataConnection) :
    c.received.Sublist c.sender.handler.acceptedData := by
  refine List.Sublist.filterMap _ ((List.take_sublist _ _).trans ?_)
  exact (FramedWrite.wire_prefix_accepted _).sublist

theorem Synced.pushed_sublist {c : DataConnection} (h : c.Synced)
    (ho : c.sender.InOrder True Q popped) : c.receiver.pushed.Sublist popped := by
  obtain ⟨lost, hl, -⟩ := h.receiver.read
  have hpushed : c.receiver.pushed.Sublist c.received := by
    rw [hl, List.append_assoc]
    exact List.sublist_append_left _ _
  exact (hpushed.trans c.received_sublist).trans ho.sublist

theorem Synced.acked {c : DataConnection} (h : c.Synced) (ho : c.sender.InOrder True Q popped)
    (hack : .ackData seq ∈ c.receiver.writer.wire) (hb : b ∈ popped) (hseq : b.sequence = seq) :
    b ∈ c.receiver.pushed := by
  have hacc := (FramedWrite.wire_prefix_accepted c.receiver.writer).subset hack
  obtain ⟨b', hb', hseq'⟩ := h.receiver.responses _ hacc
  have hmem {x} (hx : x ∈ popped) : x ∈ c.sender.trace.data :=
    ho.data ▸ List.mem_append_left _ hx
  have heq := List.inj_on_of_nodup_map h.distinct (hmem ((h.pushed_sublist ho).subset hb'))
    (hmem hb) (hseq'.trans hseq.symm)
  exact heq ▸ hb'

theorem data_record (tr : Sender.Trace) (h : Sender.ChannelHandler)
    (e : Sender.ChannelHandler.Event) :
    (tr.record h e).data = tr.data ++ (takes (.sender e)).toList := by
  have htakes : takes (.sender e) = Sender.ChannelHandler.takes e := by
    unfold takes Sender.ChannelHandler.takes
    cases e with
    | request m => cases m <;> rfl
    | _ => rfl
  rw [htakes]
  exact tr.data_record h e

theorem Synced.sender_step {c t : DataConnection} (h : c.Synced) (hf : c.FreshKey (.sender e))
    (hs : c.step (.sender e) = some t) : t.Synced := by
  obtain ⟨hreads, hsend, hreceiver, hread⟩ := sender_eq_some hs
  obtain ⟨hstep, htrace⟩ := Sender.ChannelRun.step_eq_some hsend
  obtain ⟨popped, ho⟩ := h.sender
  obtain ⟨hserved, hwire⟩ := Following.sender_step ⟨h.receiver, h.read⟩ hs
  have hack : ∀ seq, e = .response (some (.ok (.ackData seq))) →
      ∀ b ∈ popped, b.sequence = seq → b ∈ c.receiver.pushed :=
    fun seq he b hb hseq => h.acked ho (hreads _ he) hb hseq
  have hnack : ∀ seq, e ≠ .response (some (.ok (.nackData seq))) := fun seq he =>
    h.receiver.responses _ ((FramedWrite.wire_prefix_accepted _).subset (hreads _ he))
  refine ⟨?_, ?_, hserved, hwire, h.flush.step hsend⟩
  · rw [htrace, data_record]
    exact Sender.ChannelRun.distinct_append h.distinct hf
  · have ht : t.sender = ⟨t.sender.handler, c.sender.trace.record c.sender.handler e⟩ :=
      htrace ▸ rfl
    rw [ht, hreceiver]
    cases Sender.ChannelHandler.step_cases hstep with
    | inl hs => exact ho.step (fun _ => h.distinct) (fun _ => hack) hnack hs
    | inr hs =>
      obtain ⟨h', hstart, hs, io, rfl⟩ := hs
      obtain ⟨popped', ho'⟩ := ho.start (fun _ => h.distinct) hstart
      exact ho'.step (fun _ => h.distinct) (by rintro _ _ ⟨⟩) (by rintro _ ⟨⟩) hs

theorem Synced.receiver_step {c t : DataConnection} (h : c.Synced)
    (hs : c.step (.receiver e) = some t) : t.Synced := by
  obtain ⟨hstep, hsender, -, -⟩ := receiver_eq_some hs
  obtain ⟨popped, ho⟩ := h.sender
  obtain ⟨hserved, hwire⟩ := Following.receiver_step ⟨h.receiver, h.read⟩ hs
  have hpushed := (Receiver.ChannelHandler.grows hstep).1
  refine ⟨hsender ▸ h.distinct, ⟨popped, ?_⟩, hserved, hwire, hsender ▸ h.flush⟩
  rw [hsender]
  exact ho.mono fun b hb => hpushed.subset hb

theorem synced_of_reaches {c : DataConnection} (h : machine.Reaches FreshKey c) : c.Synced := by
  refine h.invariant ?_ fun c a t _ ih hf hs => ?_
  · exact ⟨List.nodup_nil, ⟨[], rfl, ⟨[], rfl, List.Sublist.refl _⟩, fun _ => nofun, nofun⟩, .new,
      Nat.le_refl _, nofun⟩
  · cases a with
    | sender e => exact ih.sender_step hf hs
    | receiver e => exact ih.receiver_step hs

theorem eq_of_sublist_of_subset {l l' : List α} (hs : l.Sublist l') (hn : l'.Nodup)
    (hsub : l' ⊆ l) : l = l' :=
  hs.eq_of_length_le (List.subperm_of_subset hn hsub).length_le

theorem signals_eq_some {h : Sender.ChannelHandler} (hs : h.signals e = some done) :
    h.phase = .head (.flush done) ∧ h.pendingWrites = [] ∧ h.waitForAck.size = 0 := by
  unfold Sender.ChannelHandler.signals at hs
  split at hs
  next hp =>
    simp only [Option.ite_none_right_eq_some, Option.some.injEq] at hs
    exact ⟨hs.2 ▸ hp, hs.1⟩
  next => contradiction

theorem flush_signalled_complete {c : DataConnection} (h : machine.Reaches FreshKey c)
    (hs : c.sender.handler.signals e = some done) :
    ∃ before, c.sender.trace.taken = before ++ [.flush done] ∧
      c.receiver.pushed = before.filterMap Sender.ChannelControlMessage.buffer := by
  have hc := synced_of_reaches h
  obtain ⟨hphase, hpending, hempty⟩ := signals_eq_some hs
  obtain ⟨before, htaken⟩ := hc.flush done (by rw [hphase]; rfl)
  obtain ⟨popped, ho⟩ := hc.sender
  have hdata : c.sender.trace.data = popped := by
    rw [ho.data, hpending, List.append_nil]
  have hdelivered : popped ⊆ c.receiver.pushed := fun b hb =>
    (ho.tracked trivial b hb).elim
      (fun hl => nomatch (Map.lookup_eq_none_of_size hempty b.sequence).symm.trans hl) id
  have hnodup : popped.Nodup := (hdata ▸ hc.distinct).of_map
  refine ⟨before, htaken, ?_⟩
  rw [eq_of_sublist_of_subset (hc.pushed_sublist ho) hnodup hdelivered, ← hdata]
  simp only [Sender.Trace.data, htaken, Table.filterMap_concat]
  exact List.append_nil _

theorem flush_signalled_complete_put_back :
    ∃ c, machine.Reaches FreshKey c ∧ c.sender.handler.signals .advance = some 7 ∧
      c.receiver.pushed = [exampleBuffer 1 (List.replicate 2048 255), exampleBuffer 2 []] := by
  obtain ⟨c, hc, hs, htaken⟩ := Machine.exists_reaches_of_replay (M := machine) (C := FreshKey)
    (P := fun c => c.sender.handler.signals .advance = some 7 ∧
      c.sender.trace.taken = [.data (exampleBuffer 1 (List.replicate 2048 255)),
        .data (exampleBuffer 2 [])] ++ [.flush 7])
    [.sender .advance,
      .sender (.request (some (.data (exampleBuffer 1 (List.replicate 2048 255))))),
      .sender .advance, .sender (.sendPending .complete), .sender .advance,
      .sender (.request (some (.data (exampleBuffer 2 [])))), .sender .advance,
      .sender (.sendPending (.failed 0 "interrupted")), .sender .advance,
      .sender (.sendPending .complete), .sender .advance, .sender (.request (some (.flush 7))),
      .sender .advance, .sender (.flush .complete),
      .receiver (.request (some (.ok (.data (exampleBuffer 1 (List.replicate 2048 255)))))),
      .receiver .push, .receiver (.send .complete), .receiver (.send .complete),
      .receiver (.request (some (.ok (.data (exampleBuffer 2 []))))), .receiver .push,
      .receiver (.send .complete), .receiver (.send .complete),
      .sender (.response (some (.ok (.ackData (1, 0))))), .sender .advance,
      .sender (.flush .complete), .sender (.response (some (.ok (.ackData (2, 0)))))]
    (by decide +kernel)
  obtain ⟨before, hbefore, hpushed⟩ := flush_signalled_complete hc hs
  rw [htaken] at hbefore
  refine ⟨c, hc, hs, ?_⟩
  rw [hpushed, ← List.append_cancel_right hbefore]
  rfl

end DataConnection

end BdsPro.Network
