import BdsPro.Udp.Channel
import BdsPro.Udp.ReceiverLaws
import BdsPro.Udp.SenderLaws

namespace BdsPro.Udp

open BdsPro.Library

def UdpSender.Sent (s : UdpSender) (m : Message) : Prop :=
  ∃ seq d, m = dataMessage seq d ∧ s.Issued seq d

def UdpReceiver.Stored (r : UdpReceiver) (n : Nat) : Prop := ∃ m ∈ r.pushed, m.seq = n

namespace UdpChannel

theorem sender_eq_some {c t : UdpChannel} (h : c.step (.sender a) = some t) :
    (∀ m, a = .recvFrom m → m ∈ c.receiver.socket) ∧
      ∃ s, c.sender.step a = some s ∧ t = { c with sender := s } := by
  simp only [step, Option.ite_none_right_eq_some, Option.map_eq_some_iff] at h
  obtain ⟨harr, s, hs, rfl⟩ := h
  refine ⟨?_, s, hs, rfl⟩
  rintro m rfl
  exact of_decide_eq_true harr

theorem receiver_eq_some {c t : UdpChannel} (h : c.step (.receiver a) = some t) :
    (∀ m, a ≠ .receiveMessage m) ∧
      ∃ r, c.receiver.step a = some r ∧ t = { c with receiver := r } := by
  simp only [step, Option.ite_none_right_eq_some, Option.map_eq_some_iff] at h
  obtain ⟨hint, r, hr, rfl⟩ := h
  refine ⟨?_, r, hr, rfl⟩
  rintro m rfl
  contradiction

theorem deliver_eq_some {c t : UdpChannel} (h : c.step (.deliver i) = some t) :
    ∃ m, c.sender.socket[i]? = some m ∧ t = { c with
      receiver := c.receiver.receiveMessage m
      delivered := c.delivered ++ [i] } := by
  obtain ⟨m, hm, rfl⟩ := Option.map_eq_some_iff.mp h
  exact ⟨m, hm, rfl⟩

structure Coherent (c : UdpChannel) : Prop where
  sender : c.sender.Coherent
  receiver : c.receiver.Coherent c.sender.Sent
  settled : c.sender.Settled c.receiver.Stored

theorem Coherent.step {c t : UdpChannel} (h : c.Coherent) (hf : c.FreshSeq a)
    (hs : c.step a = some t) : t.Coherent := by
  cases a with
  | sender a =>
    obtain ⟨harr, s, hsend, rfl⟩ := sender_eq_some hs
    refine ⟨h.sender.step hf hsend, h.receiver.mono fun m hm => ?_, h.settled.step ?_ hsend⟩
    · obtain ⟨seq, d, rfl, hi⟩ := hm
      exact ⟨seq, d, rfl, hi.step hsend⟩
    · exact fun m ha htyp => h.receiver.acks m (harr m ha) htyp
  | receiver a =>
    obtain ⟨hint, r, hr, rfl⟩ := receiver_eq_some hs
    refine ⟨h.sender, h.receiver.step (fun m ha => absurd ha (hint m)) hr, h.settled.mono ?_⟩
    rintro n ⟨m, hm, rfl⟩
    exact ⟨m, (UdpReceiver.grows hr).1.subset hm, rfl⟩
  | deliver i =>
    obtain ⟨m, hm, rfl⟩ := deliver_eq_some hs
    have hsent := h.sender.sent m (List.mem_of_getElem? hm)
    have hr : c.receiver.step (.receiveMessage m) = some (c.receiver.receiveMessage m) := rfl
    refine ⟨h.sender, h.receiver.receiveMessage fun _ => hsent, h.settled.mono ?_⟩
    rintro n ⟨m', hm', rfl⟩
    exact ⟨m', (UdpReceiver.grows hr).1.subset hm', rfl⟩

theorem coherent_of_reaches {sending receiving : FlowControlConfig} {c : UdpChannel}
    (h : (machine sending receiving).Reaches FreshSeq c) : c.Coherent :=
  h.invariant ⟨.new _, .new _, .new _⟩ fun _ _ _ _ ih hf hs => ih.step hf hs

theorem acknowledged_is_pushed {sending receiving : FlowControlConfig} {c : UdpChannel}
    (h : (machine sending receiving).Reaches FreshSeq c) :
    ∀ call ∈ c.sender.calls, call.phase.inserted = true →
      (c.sender.inFlight.lookup call.seq = none →
        call.seq ∈ c.receiver.receivedSeqs ∧
        ∃ m ∈ c.receiver.pushed, m.typ = .data ∧ m.seq = call.seq) ∧
      ∀ m ∈ c.receiver.pushed, m.seq = call.seq → m.data = some call.data := by
  have hc := coherent_of_reaches h
  intro call hcall hins
  refine ⟨fun hnone => ?_, fun m hm hseq => ?_⟩
  · obtain ⟨m, hm, hseq⟩ := hc.settled.calls call hcall hins hnone
    have hpushed := hc.receiver.pushed m hm
    exact ⟨hseq ▸ hpushed.2.2, m, hm, hpushed.1, hseq⟩
  · obtain ⟨-, ⟨seq, d, rfl, call', hcall', hseq', rfl⟩, -⟩ := hc.receiver.pushed m hm
    have := List.inj_on_of_nodup_map hc.sender.distinct hcall' hcall (hseq'.trans hseq)
    exact congrArg (some ·.data) this

theorem acknowledged_is_pushed_after_timeout :
    ∃ c, (machine .default .default).Reaches FreshSeq c ∧ 7 ∈ c.receiver.receivedSeqs := by
  obtain ⟨c, hc, call, hcall, hins, hseq, hnone⟩ := Machine.exists_reaches_of_replay
    (M := machine .default .default) (C := FreshSeq)
    (P := fun c => ∃ call ∈ c.sender.calls, call.phase.inserted = true ∧ call.seq = 7 ∧
      c.sender.inFlight.lookup call.seq = none)
    [.sender (.sendMessage 7 "a"), .sender (.acquire 0), .sender (.store 0),
      .sender (.track 0 0), .sender (.transmit 0 true), .sender (.tick 1001 [(7, "a")]),
      .sender (.retransmit true), .deliver 1, .receiver (.record 0), .receiver (.push 0),
      .receiver (.ack 0 true), .sender (.recvFrom (ackMessage 7)), .sender .enqueue,
      .sender (.handleEvent true)] (by decide)
  exact ⟨c, hc, hseq ▸ ((acknowledged_is_pushed hc call hcall hins).1 hnone).1⟩

def arrivals (c : UdpChannel) (n : Nat) : Nat :=
  c.delivered.countP fun i => c.sender.socket[i]?.any fun m => m.seq = n

theorem arrivals_mono {c : UdpChannel} {s : UdpSender} {sent : List Message}
    (h : s.socket = c.sender.socket ++ sent) (n : Nat) :
    c.arrivals n ≤ arrivals { c with sender := s } n := by
  refine List.countP_mono_left fun i _ hi => ?_
  obtain ⟨m, hm, hseq⟩ := (Option.any_eq_true _ _).mp hi
  have hlt := (List.getElem?_eq_some_iff.mp hm).1
  rw [h, List.getElem?_append_left hlt]
  exact (Option.any_eq_true _ _).mpr ⟨m, hm, hseq⟩

theorem arrivals_deliver {c : UdpChannel} {m : Message} (hm : c.sender.socket[i]? = some m)
    (r : UdpReceiver) (n : Nat) :
    arrivals { c with receiver := r, delivered := c.delivered ++ [i] } n =
      c.arrivals n + if m.seq = n then 1 else 0 := by
  simp [arrivals, List.countP_append, List.countP_singleton, hm]

theorem taken_le_arrivals {sending receiving : FlowControlConfig} {c : UdpChannel}
    (h : (machine sending receiving).Reachable c) (n : Nat) :
    c.receiver.taken n ≤ c.arrivals n := by
  refine h.invariant (I := fun c => c.receiver.taken n ≤ c.arrivals n) (Nat.le_refl 0)
    fun c a t _ ih _ hs => ?_
  cases a with
  | sender a =>
    obtain ⟨-, s, hsend, rfl⟩ := sender_eq_some hs
    obtain ⟨sent, hsent⟩ := UdpSender.grows hsend
    exact ih.trans (arrivals_mono hsent.symm n)
  | receiver a =>
    obtain ⟨hint, r, hr, rfl⟩ := receiver_eq_some hs
    exact (UdpReceiver.taken_step hint hr n).trans_le ih
  | deliver i =>
    obtain ⟨m, hm, rfl⟩ := deliver_eq_some hs
    rw [arrivals_deliver hm]
    exact (UdpReceiver.taken_receiveMessage c.receiver m n).trans (Nat.add_le_add_right ih _)

theorem countP_eq_countP_range (l : List α) (p : α → Bool) :
    l.countP p = (List.range l.length).countP fun i => l[i]?.any p := by
  have h : l.map some = (List.range l.length).map (l[·]?) := by
    apply List.ext_getElem (by simp)
    simp
  calc l.countP p = (l.map some).countP (Option.any p) := by simp [Function.comp_def]
    _ = _ := by rw [h, List.countP_map]; rfl

theorem countP_getElem?_le {l : List α} {is : List Nat} (h : is.Nodup) (p : α → Bool) :
    is.countP (fun i => l[i]?.any p) ≤ l.countP p := by
  rw [countP_eq_countP_range l p, List.countP_eq_length_filter, List.countP_eq_length_filter]
  refine (List.subperm_of_subset (h.filter _) fun i hi => ?_).length_le
  obtain ⟨-, hi⟩ := List.mem_filter.mp hi
  obtain ⟨a, ha, -⟩ := (Option.any_eq_true _ _).mp hi
  exact List.mem_filter.mpr ⟨List.mem_range.mpr (List.getElem?_eq_some_iff.mp ha).1, hi⟩

theorem pushes_le_arrivals {sending receiving : FlowControlConfig} {c : UdpChannel}
    (h : (machine sending receiving).Reaches FreshSeq c) (n : Nat) :
    c.receiver.handedOut.countP (fun m => m.seq = n) ≤
        c.receiver.pushed.countP (fun m => m.seq = n) ∧
      c.receiver.pushed.countP (fun m => m.seq = n) ≤ c.arrivals n ∧
      (c.delivered.Nodup →
        c.receiver.pushed.countP (fun m => m.seq = n) ≤
          c.sender.socket.countP fun m => m.seq = n) := by
  have htaken : c.receiver.pushed.countP (fun m => m.seq = n) ≤ c.arrivals n :=
    (Nat.le_add_right _ _).trans (taken_le_arrivals h.reachable n)
  refine ⟨?_, htaken, fun hnodup => htaken.trans (countP_getElem?_le hnodup _)⟩
  rw [← (coherent_of_reaches h).receiver.fifo, List.countP_append]
  exact Nat.le_add_right _ _

theorem pushes_le_arrivals_once :
    ∃ c, (machine .default .default).Reaches FreshSeq c ∧ c.receiver.pushed ≠ [] ∧
      c.receiver.pushed.countP (fun m => m.seq = 7) ≤ 1 := by
  obtain ⟨c, hc, hpushed, hnodup, hsocket⟩ := Machine.exists_reaches_of_replay
    (M := machine .default .default) (C := FreshSeq)
    (P := fun c => c.receiver.pushed ≠ [] ∧ c.delivered.Nodup ∧
      c.sender.socket.countP (fun m => m.seq = 7) = 1)
    [.sender (.sendMessage 7 "a"), .sender (.acquire 0), .sender (.store 0),
      .sender (.track 0 0), .sender (.transmit 0 true), .deliver 0, .receiver (.record 0),
      .receiver (.push 0), .receiver .receiveFromBuffer] (by decide)
  exact ⟨c, hc, hpushed, hsocket ▸ (pushes_le_arrivals hc 7).2.2 hnodup⟩

/-- The ACK of number 7 is lost, so the timer sends it again and it is pushed again. -/
theorem pushed_twice_after_lost_ack :
    ¬∀ c, (machine .default .default).Reaches FreshSeq c →
      ∀ n, c.receiver.pushed.countP (fun m => m.seq = n) ≤ 1 := by
  intro h
  obtain ⟨c, hc, htwice⟩ := Machine.exists_reaches_of_replay
    (M := machine .default .default) (C := FreshSeq)
    (P := fun c => c.receiver.pushed.countP (fun m => m.seq = 7) = 2)
    [.sender (.sendMessage 7 "a"), .sender (.acquire 0), .sender (.store 0),
      .sender (.track 0 0), .sender (.transmit 0 true), .deliver 0, .receiver (.record 0),
      .receiver (.push 0), .receiver (.ack 0 true), .sender (.tick 1001 [(7, "a")]),
      .sender (.retransmit true), .deliver 1, .receiver (.record 1), .receiver (.push 1)]
    (by decide)
  have := h c hc 7
  omega

end UdpChannel

end BdsPro.Udp
