import BdsPro.Udp.AutoSeqLaws
import BdsPro.Udp.Bin.AttemptLaws
import BdsPro.Udp.Bin.Exchange

namespace BdsPro.Udp.Bin

open BdsPro.Library

namespace Receiver

theorem Between.mono {r t : Receiver} (h : r.Between seq) (hsub : r.receivedSeqs ⊆ t.receivedSeqs) :
    t.Between seq := by
  obtain ⟨⟨lo, hlo, hlt⟩, hi, hhi, hgt⟩ := h
  exact ⟨⟨lo, hsub hlo, hlt⟩, hi, hsub hhi, hgt⟩

theorem received_of_step {r t : Receiver} (hr : r.WellRanged) (hs : Step r a t)
    (hn : n ∈ t.receivedSeqs) :
    n ∈ r.receivedSeqs ∨ ∃ m, a = .recvFrom (some m) ∧ m.seq = n := by
  cases hs with
  | record m data =>
    obtain ⟨min, max, counts, heq, -⟩ := record_eq hr m.seq
    rw [heq] at hn
    exact (Finset.mem_insert.mp hn).elim (fun heq => .inr ⟨m, rfl, heq.symm⟩) .inl
  | check now order phase timedOut =>
    obtain ⟨requests, counts, heq, -⟩ := retries_eq r (timedOut_nodup timedOut)
    rw [heq] at hn
    exact .inl hn
  | skip | ack | request | stopAck | stopRequest => exact .inl hn

structure Replying (r : Receiver) : Prop where
  acking : ∀ n, r.phase = .acking n → n ∈ r.receivedSeqs
  acks : ∀ m ∈ r.socket, m.typ = .ack → m.seq ∈ r.receivedSeqs
  requests : ∀ m ∈ r.socket, m.typ = .rqst → r.Between m.seq

theorem Replying.of_socket {r t : Receiver} (h : r.Replying)
    (hsub : r.receivedSeqs ⊆ t.receivedSeqs) {sent : List Message}
    (socket : t.socket = r.socket ++ sent)
    (acking : ∀ n, t.phase = .acking n → n ∈ t.receivedSeqs)
    (acks : ∀ m ∈ sent, m.typ = .ack → m.seq ∈ t.receivedSeqs)
    (requests : ∀ m ∈ sent, m.typ = .rqst → t.Between m.seq) : t.Replying where
  acking := acking
  acks m hm htyp := by
    rw [socket] at hm
    rcases List.mem_append.mp hm with hold | hnew
    · exact hsub (h.acks m hold htyp)
    · exact acks m hnew htyp
  requests m hm htyp := by
    rw [socket] at hm
    rcases List.mem_append.mp hm with hold | hnew
    · exact (h.requests m hold htyp).mono hsub
    · exact requests m hnew htyp

theorem Replying.step {r t : Receiver} (h : r.Replying) (hd : r.Detecting maxAttempts)
    (hs : Step r a t) : t.Replying := by
  have hsub := received_mono hd.tracked.range hs
  have hstill (socket : t.socket = r.socket) (hp : ∀ n, t.phase = .acking n → n ∈ t.receivedSeqs) :
      t.Replying :=
    h.of_socket hsub (socket.trans (List.append_nil _).symm) hp (by simp) (by simp)
  cases hs with
  | skip | stopAck | stopRequest => exact hstill rfl nofun
  | record m data =>
    obtain ⟨min, max, counts, heq, -⟩ := record_eq hd.tracked.range m.seq
    rw [heq] at hstill ⊢
    refine hstill rfl fun n hn => ?_
    cases hn
    exact Finset.mem_insert_self _ _
  | ack seq phase =>
    refine h.of_socket hsub rfl (fun n hn => ?_) (fun m hm _ => ?_) fun m hm htyp => ?_
    · have hnot : r.detect ≠ .acking n := by
        unfold detect
        split <;> exact nofun
      exact absurd hn hnot
    · rw [List.mem_singleton.mp hm]
      exact h.acking seq phase
    · rw [List.mem_singleton.mp hm] at htyp
      contradiction
  | request seq rest now phase =>
    refine h.of_socket hsub rfl nofun (fun m hm htyp => ?_) fun m hm _ => ?_
    · rw [List.mem_singleton.mp hm] at htyp
      contradiction
    · rw [List.mem_singleton.mp hm]
      exact ((hd.listed _ phase).missing seq List.mem_cons_self).2.1
  | check now order phase timedOut =>
    obtain ⟨requests, counts, heq, -⟩ := retries_eq r (timedOut_nodup timedOut)
    rw [heq] at hstill ⊢
    exact hstill rfl nofun

theorem replying_of_reachable {timeout maxAttempts : Nat} (hone : 1 ≤ maxAttempts) {r : Receiver}
    (h : (machine timeout maxAttempts).Reachable r) : r.Replying := by
  refine h.invariant (I := Replying) ⟨nofun, by simp [machine, new], by simp [machine, new]⟩ ?_
  exact fun s a t hr ih _ hs => ih.step (detecting_of_reaches hone hr) (step_sound hs)

end Receiver

namespace Exchange

variable {config : FlowControlConfig} {timeout maxAttempts : Nat}

theorem sender_eq_some {x y : Exchange} (h : x.step (.sender a) = some y) :
    (∀ m, a = .recvFrom m → m ∈ x.receiver.socket) ∧
      ∃ s, x.sender.step a = some s ∧ y = { x with sender := s } := by
  simp only [step, Option.ite_none_right_eq_some, Option.map_eq_some_iff] at h
  obtain ⟨harr, s, hs, rfl⟩ := h
  refine ⟨?_, s, hs, rfl⟩
  rintro m rfl
  exact of_decide_eq_true harr

theorem receiver_eq_some {x y : Exchange} (h : x.step (.receiver a) = some y) :
    (∀ packet, a ≠ .recvFrom packet) ∧
      ∃ r, x.receiver.step a = some r ∧ y = { x with receiver := r } := by
  simp only [step, Option.ite_none_right_eq_some, Option.map_eq_some_iff] at h
  obtain ⟨hint, r, hr, rfl⟩ := h
  refine ⟨?_, r, hr, rfl⟩
  rintro packet rfl
  contradiction

theorem deliver_eq_some {x y : Exchange} (h : x.step (.deliver i) = some y) :
    ∃ m, x.sender.socket[i]? = some m ∧
      ∃ r, x.receiver.step (.recvFrom m.fromSlice) = some r ∧ y = { x with receiver := r } := by
  obtain ⟨m, hm, h⟩ := Option.bind_eq_some_iff.mp h
  obtain ⟨r, hr, rfl⟩ := Option.map_eq_some_iff.mp h
  exact ⟨m, hm, r, hr, rfl⟩

def senderAction : Action → Option UdpSender.Action
  | .sender a => some a
  | _ => none

def receiverAction (x : Exchange) : Action → Option Receiver.Action
  | .receiver a => some a
  | .deliver i => x.sender.socket[i]?.map fun m => .recvFrom m.fromSlice
  | .sender _ => none

def senderPart (config : FlowControlConfig) (timeout maxAttempts : Nat) :
    Machine.Part (UdpSender.machine config) (machine config timeout maxAttempts) where
  state := sender
  action _ := senderAction
  init := rfl
  step {x a y} hs := by
    cases a with
    | sender a =>
      obtain ⟨-, s, hsend, rfl⟩ := sender_eq_some hs
      exact hsend
    | receiver a =>
      obtain ⟨-, r, -, rfl⟩ := receiver_eq_some hs
      rfl
    | deliver i =>
      obtain ⟨m, -, r, -, rfl⟩ := deliver_eq_some hs
      rfl

def receiverPart (config : FlowControlConfig) (timeout maxAttempts : Nat) :
    Machine.Part (Receiver.machine timeout maxAttempts) (machine config timeout maxAttempts) where
  state := receiver
  action := receiverAction
  init := rfl
  step {x a y} hs := by
    cases a with
    | sender a =>
      obtain ⟨-, s, -, rfl⟩ := sender_eq_some hs
      rfl
    | receiver a =>
      obtain ⟨-, r, hr, rfl⟩ := receiver_eq_some hs
      exact hr
    | deliver i =>
      obtain ⟨m, hm, r, hr, rfl⟩ := deliver_eq_some hs
      simp only [receiverAction, hm, Option.map_some, Machine.follow_some]
      exact hr

theorem sender_reaches {x : Exchange} (h : (machine config timeout maxAttempts).Reaches InTime x) :
    (UdpSender.machine config).Reaches UdpSender.InTime x.sender := by
  refine (senderPart config timeout maxAttempts).reaches (h.mono fun x a ha b hb => ?_)
  cases a with
  | sender a =>
    cases hb
    exact ha
  | receiver | deliver => contradiction

theorem sender_coherent {x : Exchange}
    (h : (machine config timeout maxAttempts).Reaches InTime x) : x.sender.Coherent :=
  UdpSender.coherent_of_reaches
    (UdpSender.freshSeq_of_autoSeq ((sender_reaches h).mono fun _ _ ha => ha.1))

theorem receiver_reachable {x : Exchange} (h : (machine config timeout maxAttempts).Reachable x) :
    (Receiver.machine timeout maxAttempts).Reachable x.receiver :=
  (receiverPart config timeout maxAttempts).reaches (h.mono fun _ _ _ _ _ => trivial)

structure Coherent (x : Exchange) : Prop where
  received : ∀ n ∈ x.receiver.receivedSeqs, n ∈ x.sender.calls.map SendCall.seq
  settled : x.sender.Settled (· ∈ x.receiver.receivedSeqs)

theorem Coherent.receiver_step {x : Exchange} {a : Receiver.Action} {r : Receiver}
    (h : x.Coherent) (hd : x.receiver.Detecting maxAttempts)
    (hread : ∀ m, a = .recvFrom (some m) → m.seq ∈ x.sender.calls.map SendCall.seq)
    (hs : x.receiver.step a = some r) : Coherent { x with receiver := r } where
  received n hn := by
    rcases Receiver.received_of_step hd.tracked.range (Receiver.step_sound hs) hn with
      hold | ⟨m, ha, rfl⟩
    · exact h.received n hold
    · exact hread m ha
  settled := h.settled.mono fun _ hn =>
    Receiver.received_mono hd.tracked.range (Receiver.step_sound hs) hn

theorem coherent_of_reaches (hone : 1 ≤ maxAttempts) {x : Exchange}
    (h : (machine config timeout maxAttempts).Reaches InTime x) : x.Coherent := by
  refine h.invariant (I := Coherent) ⟨by simp [machine, new, Receiver.new], .new config⟩
    fun x a y hr ih ha hs => ?_
  have hsender := sender_coherent hr
  have hreceiver := receiver_reachable hr.reachable
  have hd := Receiver.detecting_of_reaches hone hreceiver
  cases a with
  | sender a =>
    obtain ⟨harr, s, hsend, rfl⟩ := sender_eq_some hs
    refine ⟨fun n hn => ?_, ih.settled.step (fun m hm htyp => ?_) hsend⟩
    · obtain ⟨c, hc, rfl⟩ := List.mem_map.mp (ih.received n hn)
      obtain ⟨c', hc', hseq, -⟩ := UdpSender.Issued.step ⟨c, hc, rfl, rfl⟩ hsend
      exact List.mem_map.mpr ⟨c', hc', hseq⟩
    · exact (Receiver.replying_of_reachable hone hreceiver).acks m (harr m hm) htyp
  | receiver a =>
    obtain ⟨hint, r, hstep, rfl⟩ := receiver_eq_some hs
    exact ih.receiver_step hd (fun m ha => absurd ha (hint _)) hstep
  | deliver i =>
    obtain ⟨m, hm, r, hstep, rfl⟩ := deliver_eq_some hs
    refine ih.receiver_step hd (fun m' ha => ?_) hstep
    injection ha with hslice
    obtain ⟨seq, d, rfl, c, hc, rfl, -⟩ := hsender.sent m (List.mem_of_getElem? hm)
    rw [Message.fromSlice_eq_some hslice]
    exact List.mem_map_of_mem hc

theorem received_or_inFlight (hone : 1 ≤ maxAttempts) {x : Exchange}
    (h : (machine config timeout maxAttempts).Reaches InTime x) (hc : c ∈ x.sender.calls)
    (inserted : c.phase.inserted = true) :
    c.seq ∈ x.receiver.receivedSeqs ∨
      ∃ m, x.sender.inFlight.lookup c.seq = some m ∧ m.data = c.data := by
  have hsender := sender_coherent h
  cases hl : x.sender.inFlight.lookup c.seq with
  | none => exact .inl ((coherent_of_reaches hone h).settled.calls c hc inserted hl)
  | some m =>
    obtain ⟨c', hc', hseq, hdata, -⟩ := hsender.owned _ m hl
    cases List.inj_on_of_nodup_map hsender.distinct hc' hc hseq
    exact .inr ⟨m, rfl, hdata.symm⟩

/-- What the receiver asks for is the number of a call: the sender has its text, unless the call is
still about to save it, and what has been in flight stays there until it is received. -/
theorem requested_answerable (hone : 1 ≤ maxAttempts) {x : Exchange}
    (h : (machine config timeout maxAttempts).Reaches InTime x)
    (hn : rqstMessage n ∈ x.receiver.socket) :
    ∃ c ∈ x.sender.calls, c.seq = n ∧
      (c.phase.unsaved = true ∨ ∀ rest, x.sender.events = (.rqst, n) :: rest →
        ∃ s, x.sender.step (.handleEvent true) = some s ∧
          s.socket = x.sender.socket ++ [dataMessage n c.data]) ∧
      (c.phase.inserted = true → n ∈ x.receiver.receivedSeqs ∨
        ∃ m, x.sender.inFlight.lookup n = some m ∧ m.data = c.data) := by
  have hsender := sender_reaches h
  have hnumbered := UdpSender.numbered_of_reaches (hsender.mono fun _ _ ha => ha.1)
  have hcoherent := coherent_of_reaches hone h
  have hreplying := Receiver.replying_of_reachable hone (receiver_reachable h.reachable)
  -- The number lies between two that were sent, and the sender leaves none out.
  obtain ⟨⟨lo, hlo, hlt⟩, hi, hhi, hgt⟩ := hreplying.requests _ hn rfl
  have hlow := (hnumbered.mem_iff.mp (hcoherent.received lo hlo)).1
  have hhigh := (hnumbered.mem_iff.mp (hcoherent.received hi hhi)).2
  have hmem : n ∈ x.sender.calls.map SendCall.seq :=
    hnumbered.mem_iff.mpr ⟨hlow.trans hlt.le, hgt.trans hhigh⟩
  obtain ⟨c, hc, rfl⟩ := List.mem_map.mp hmem
  refine ⟨c, hc, rfl, ?_, received_or_inFlight hone h hc⟩
  refine (UdpSender.saved_of_reaches hsender c hc).imp_right fun hsaved rest he => ?_
  exact UdpSender.handleEvent_rqst he hsaved

def exampleSends : List Action :=
  [.sendMessageAutoSeq "a", .acquire 0, .store 0, .track 0 0, .transmit 0 true,
    .sendMessageAutoSeq "b", .acquire 1, .store 1, .track 1 0, .transmit 1 true,
    .sendMessageAutoSeq "c", .acquire 2, .store 2, .track 2 0, .transmit 2 true].map .sender

theorem requested_answerable_lost :
    ∃ x, (machine .default 2000 3).Reaches InTime x ∧ rqstMessage 2 ∈ x.receiver.socket ∧
      2 ∉ x.receiver.receivedSeqs ∧ ∃ c ∈ x.sender.calls, c.data = "b" ∧
        ∃ s, x.sender.step (.handleEvent true) = some s ∧
          s.socket = x.sender.socket ++ [dataMessage 2 c.data] := by
  obtain ⟨x, hx, hn, hmissing, hevents, hcalls⟩ := Machine.exists_reaches_of_replay
    (M := machine .default 2000 3) (C := InTime)
    (P := fun x => rqstMessage 2 ∈ x.receiver.socket ∧ 2 ∉ x.receiver.receivedSeqs ∧
      x.sender.events = [(.rqst, 2)] ∧
      ∀ c ∈ x.sender.calls, c.seq = 2 → c.data = "b" ∧ c.phase.unsaved = false)
    (exampleSends ++
      [.deliver 2, .receiver (.ack true), .receiver (.check 0 []), .deliver 0,
        .receiver (.ack true), .receiver (.request true 1),
        .sender (.recvFrom (rqstMessage 2)), .sender .enqueue]) (by decide)
  obtain ⟨c, hc, hseq, hanswer, -⟩ := requested_answerable (by decide) hx hn
  obtain ⟨hdata, hphase⟩ := hcalls c hc hseq
  rcases hanswer with hunsaved | hanswer
  · rw [hphase] at hunsaved
    contradiction
  · exact ⟨x, hx, hn, hmissing, c, hc, hdata, hanswer [] hevents⟩

end Exchange

end BdsPro.Udp.Bin
