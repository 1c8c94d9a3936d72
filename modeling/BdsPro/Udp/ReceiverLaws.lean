import BdsPro.Library.Table
import BdsPro.Udp.Receiver

namespace BdsPro.Udp

open BdsPro.Library

def ReceiveCall.carried : ReceiveCall → Option Message
  | .holding m | .recorded m | .pushed m | .acked m => some m
  | _ => none

def ReceiveCall.seen : ReceiveCall → Option Message
  | .recorded m | .pushed m | .acked m => some m
  | _ => none

def ReceiveCall.stored : ReceiveCall → Option Message
  | .pushed m | .acked m => some m
  | _ => none

def ReceiveCall.owes (n : Nat) : ReceiveCall → Bool
  | .holding m | .recorded m => m.seq = n
  | _ => false

namespace UdpReceiver

theorem receiveMessage_cases (r : UdpReceiver) (m : Message) :
    (∃ call, r.receiveMessage m = { r with calls := r.calls ++ [call] } ∧
      ((∃ result, call = .returned result) ∨ call = .rejecting)) ∨
    m.typ = .data ∧ 0 < r.bufferSemaphore ∧ r.receiveMessage m =
      { r with bufferSemaphore := r.bufferSemaphore - 1, calls := r.calls ++ [.holding m] } := by
  unfold receiveMessage
  split
  · exact .inl ⟨_, rfl, .inl ⟨_, rfl⟩⟩
  next m' hm =>
    have := Message.fromSlice_eq_some hm
    subst this
    split_ifs with htyp hsem
    · exact .inr ⟨htyp, hsem, rfl⟩
    · exact .inl ⟨_, rfl, .inr rfl⟩
    · exact .inl ⟨_, rfl, .inl ⟨_, rfl⟩⟩

theorem receiveMessage_eq (r : UdpReceiver) (m : Message) :
    ∃ b call, r.receiveMessage m =
        { r with bufferSemaphore := b, calls := r.calls ++ [call] } ∧
      ((∃ result, call = .returned result) ∨ call = .rejecting ∨
        m.typ = .data ∧ call = .holding m) := by
  obtain ⟨call, heq, hcall⟩ | ⟨htyp, -, heq⟩ := receiveMessage_cases r m
  · exact ⟨_, call, heq, hcall.imp_right .inl⟩
  · exact ⟨_, _, heq, .inr (.inr ⟨htyp, rfl⟩)⟩

theorem reject_eq_some {r t : UdpReceiver} (h : r.reject i ok = some t) :
    r.calls[i]? = some .rejecting ∧ ∃ sent result, (∀ m ∈ sent, m = bufferFullMessage) ∧
      t = { r with socket := r.socket ++ sent, calls := r.calls.set i (.returned result) } := by
  unfold reject at h
  split at h
  next hc =>
    refine ⟨hc, _, _, fun m hm => ?_, (Option.some.inj h).symm⟩
    split at hm
    · exact List.mem_singleton.mp hm
    · contradiction
  next => contradiction

theorem record_eq_some {r t : UdpReceiver} (h : r.record i = some t) :
    ∃ m, r.calls[i]? = some (.holding m) ∧
      t = { r with
        receivedSeqs := insert m.seq r.receivedSeqs
        calls := r.calls.set i (.recorded m) } := by
  unfold record at h
  split at h
  next m hc => exact ⟨m, hc, (Option.some.inj h).symm⟩
  next => contradiction

theorem push_eq_some {r t : UdpReceiver} (h : r.push i = some t) :
    ∃ m, r.calls[i]? = some (.recorded m) ∧
      t = { r with
        receiveBuffer := r.receiveBuffer ++ [m]
        calls := r.calls.set i (.pushed m)
        pushed := r.pushed ++ [m] } := by
  unfold push at h
  split at h
  next m hc => exact ⟨m, hc, (Option.some.inj h).symm⟩
  next => contradiction

theorem ack_eq_some {r t : UdpReceiver} (h : r.ack i ok = some t) :
    ∃ m, r.calls[i]? = some (.pushed m) ∧
      (ok = true ∧ t = { r with
        socket := r.socket ++ [ackMessage m.seq]
        calls := r.calls.set i (.acked m) } ∨
      ok = false ∧ t = { r with
        bufferSemaphore := r.bufferSemaphore + 1
        calls := r.calls.set i (.returned (.error .io)) }) := by
  unfold ack at h
  split at h
  next m hc =>
    refine ⟨m, hc, ?_⟩
    cases ok with
    | true => exact .inl ⟨rfl, (Option.some.inj h).symm⟩
    | false => exact .inr ⟨rfl, (Option.some.inj h).symm⟩
  next => contradiction

theorem forget_eq_some {r t : UdpReceiver} (h : r.forget i = some t) :
    ∃ m, r.calls[i]? = some (.acked m) ∧
      t = { r with calls := r.calls.set i (.returned (.ok (some m))) } := by
  unfold forget at h
  split at h
  next m hc => exact ⟨m, hc, (Option.some.inj h).symm⟩
  next => contradiction

theorem receiveFromBuffer_cases (r : UdpReceiver) :
    r.receiveFromBuffer = r ∨ ∃ m rest, r.receiveBuffer = m :: rest ∧ r.receiveFromBuffer =
      { r with
        receiveBuffer := rest
        bufferSemaphore := r.bufferSemaphore + 1
        handedOut := r.handedOut ++ [m] } := by
  unfold receiveFromBuffer
  split
  next => exact .inl rfl
  next m rest h => exact .inr ⟨m, rest, h, rfl⟩

structure Coherent (P : Message → Prop) (r : UdpReceiver) : Prop where
  carried : ∀ call ∈ r.calls, ∀ m ∈ call.carried, m.typ = .data ∧ P m
  seen : ∀ call ∈ r.calls, ∀ m ∈ call.seen, m.seq ∈ r.receivedSeqs
  stored : ∀ call ∈ r.calls, ∀ m ∈ call.stored, m ∈ r.pushed
  pushed : ∀ m ∈ r.pushed, m.typ = .data ∧ P m ∧ m.seq ∈ r.receivedSeqs
  acks : ∀ m ∈ r.socket, m.typ = .ack → ∃ m' ∈ r.pushed, m'.seq = m.seq
  fifo : r.handedOut ++ r.receiveBuffer = r.pushed

theorem Coherent.mono {r : UdpReceiver} (h : r.Coherent P) (hPQ : ∀ m, P m → Q m) :
    r.Coherent Q where
  carried call hcall m hm := ⟨(h.carried call hcall m hm).1, hPQ m (h.carried call hcall m hm).2⟩
  seen := h.seen
  stored := h.stored
  pushed m hm := ⟨(h.pushed m hm).1, hPQ m (h.pushed m hm).2.1, (h.pushed m hm).2.2⟩
  acks := h.acks
  fifo := h.fifo

theorem Coherent.move {r : UdpReceiver} {l : List ReceiveCall} {call : ReceiveCall}
    (h : r.Coherent P) (hcalls : ∀ c ∈ l, c ∈ r.calls ∨ c = call)
    (hcarried : ∀ m ∈ call.carried, m.typ = .data ∧ P m)
    (hseen : ∀ m ∈ call.seen, m.seq ∈ r.receivedSeqs)
    (hstored : ∀ m ∈ call.stored, m ∈ r.pushed) :
    Coherent P { r with calls := l } where
  carried c hc := (hcalls c hc).elim (h.carried c) fun hcall => hcall ▸ hcarried
  seen c hc := (hcalls c hc).elim (h.seen c) fun hcall => hcall ▸ hseen
  stored c hc := (hcalls c hc).elim (h.stored c) fun hcall => hcall ▸ hstored
  pushed := h.pushed
  acks := h.acks
  fifo := h.fifo

theorem Coherent.release {r : UdpReceiver} {l : List ReceiveCall} {call : ReceiveCall}
    (h : r.Coherent P) (hcalls : ∀ c ∈ l, c ∈ r.calls ∨ c = call) (hnone : call.carried = none) :
    Coherent P { r with calls := l } := by
  refine h.move hcalls (fun m hm => ?_) (fun m hm => ?_) fun m hm => ?_
  · rw [hnone] at hm
    contradiction
  · cases call <;> simp [ReceiveCall.carried, ReceiveCall.seen] at hnone hm
  · cases call <;> simp [ReceiveCall.carried, ReceiveCall.stored] at hnone hm

theorem Coherent.receiveMessage {r : UdpReceiver} (h : r.Coherent P)
    (hm : m.typ = .data → P m) : (r.receiveMessage m).Coherent P := by
  obtain ⟨b, call, heq, hcall⟩ := receiveMessage_eq r m
  rw [heq]
  have hcalls : ∀ c ∈ r.calls ++ [call], c ∈ r.calls ∨ c = call := fun c hc => by simpa using hc
  obtain ⟨result, rfl⟩ | rfl | ⟨htyp, rfl⟩ := hcall
  · exact { h.release hcalls rfl with }
  · exact { h.release hcalls rfl with }
  · refine { h.move hcalls ?_ (by rintro _ ⟨⟩) (by rintro _ ⟨⟩) with }
    rintro m ⟨⟩
    exact ⟨htyp, hm htyp⟩

theorem Coherent.transmit {r : UdpReceiver} {sent : List Message} (h : r.Coherent P)
    (hsent : ∀ m ∈ sent, m.typ = .ack → ∃ m' ∈ r.pushed, m'.seq = m.seq) :
    Coherent P { r with socket := r.socket ++ sent } :=
  { h with acks := fun m hm => (List.mem_append.mp hm).elim (h.acks m) (hsent m) }

theorem Coherent.step {r t : UdpReceiver} (h : r.Coherent P)
    (hm : ∀ m, a = .receiveMessage m → m.typ = .data → P m) (hs : r.step a = some t) :
    t.Coherent P := by
  cases a with
  | receiveMessage m =>
    rw [← Option.some.inj hs]
    exact h.receiveMessage (hm m rfl)
  | reject i ok =>
    obtain ⟨-, sent, result, hsent, rfl⟩ := reject_eq_some hs
    have hmove : Coherent P { r with calls := r.calls.set i (.returned result) } :=
      h.release (fun _ hc => List.mem_or_eq_of_mem_set hc) rfl
    refine { hmove.transmit fun m hm htyp => ?_ with }
    rw [hsent m hm] at htyp
    contradiction
  | record i =>
    obtain ⟨m, hc, rfl⟩ := record_eq_some hs
    have hmem := List.mem_of_getElem? hc
    have hinsert : Coherent P { r with receivedSeqs := insert m.seq r.receivedSeqs } :=
      { h with
        seen := fun c hc m hm => Finset.mem_insert_of_mem (h.seen c hc m hm)
        pushed := fun m hm => ⟨(h.pushed m hm).1, (h.pushed m hm).2.1,
          Finset.mem_insert_of_mem (h.pushed m hm).2.2⟩ }
    refine hinsert.move (fun _ hc => List.mem_or_eq_of_mem_set hc)
      (h.carried (.holding m) hmem) ?_ (by rintro _ ⟨⟩)
    rintro _ ⟨⟩
    exact Finset.mem_insert_self _ _
  | push i =>
    obtain ⟨m, hc, rfl⟩ := push_eq_some hs
    have hmem := List.mem_of_getElem? hc
    have hcarried := h.carried _ hmem m rfl
    have hpush : Coherent P
        { r with receiveBuffer := r.receiveBuffer ++ [m], pushed := r.pushed ++ [m] } :=
      { h with
        stored := fun c hc m hm => List.mem_append_left _ (h.stored c hc m hm)
        pushed := fun m' hm' => (List.mem_append.mp hm').elim (h.pushed m') fun hm' => by
          rw [List.mem_singleton.mp hm']
          exact ⟨hcarried.1, hcarried.2, h.seen _ hmem m rfl⟩
        acks := fun m hm htyp => (h.acks m hm htyp).imp fun m' hm' =>
          ⟨List.mem_append_left _ hm'.1, hm'.2⟩
        fifo := by rw [← h.fifo, List.append_assoc] }
    refine hpush.move (fun _ hc => List.mem_or_eq_of_mem_set hc)
      (h.carried (.recorded m) hmem) (h.seen (.recorded m) hmem) ?_
    rintro _ ⟨⟩
    exact List.mem_append_right _ (List.mem_singleton_self _)
  | ack i ok =>
    obtain ⟨m, hc, ⟨-, rfl⟩ | ⟨-, rfl⟩⟩ := ack_eq_some hs
    · have hmem := List.mem_of_getElem? hc
      have hmove : Coherent P { r with calls := r.calls.set i (.acked m) } :=
        h.move (fun _ hc => List.mem_or_eq_of_mem_set hc)
          (h.carried (.pushed m) hmem) (h.seen (.pushed m) hmem) (h.stored (.pushed m) hmem)
      refine hmove.transmit fun m' hm' _ => ?_
      rw [List.mem_singleton.mp hm']
      exact ⟨m, h.stored _ hmem m rfl, rfl⟩
    · have hmove : Coherent P { r with calls := r.calls.set i (.returned (.error .io)) } :=
        h.release (fun _ hc => List.mem_or_eq_of_mem_set hc) rfl
      exact { hmove with }
  | forget i =>
    obtain ⟨m, -, rfl⟩ := forget_eq_some hs
    exact h.release (fun _ hc => List.mem_or_eq_of_mem_set hc) rfl
  | receiveFromBuffer =>
    rw [← Option.some.inj hs]
    obtain heq | ⟨m, rest, hbuffer, heq⟩ := receiveFromBuffer_cases r
    · rw [heq]
      exact h
    · rw [heq]
      exact { h with fifo := by rw [← h.fifo, hbuffer, List.append_assoc, List.singleton_append] }
  | requestRetransmit seq ok =>
    rw [← Option.some.inj hs]
    refine h.transmit fun m hm htyp => ?_
    split at hm
    · rw [List.mem_singleton.mp hm] at htyp
      contradiction
    · contradiction

theorem Coherent.new (config : FlowControlConfig) : (UdpReceiver.new config).Coherent P where
  carried _ h := nomatch h
  seen _ h := nomatch h
  stored _ h := nomatch h
  pushed _ h := nomatch h
  acks _ h := nomatch h
  fifo := rfl

def taken (r : UdpReceiver) (n : Nat) : Nat :=
  r.pushed.countP (fun m => m.seq = n) + r.calls.countP (ReceiveCall.owes n)

theorem taken_set {r t : UdpReceiver} (hpushed : t.pushed = r.pushed)
    (hcalls : t.calls = r.calls.set i call') (hc : r.calls[i]? = some call)
    (h : call'.owes n = call.owes n) : t.taken n = r.taken n := by
  have hcount := Table.countP_set_add (ReceiveCall.owes n) hc call'
  rw [h] at hcount
  rw [taken, taken, hpushed, hcalls, Nat.add_right_cancel hcount]

theorem countP_set_pushed {l : List ReceiveCall} {m : Message} (hc : l[i]? = some (.recorded m)) :
    (l.set i (.pushed m)).countP (ReceiveCall.owes n) + (if m.seq = n then 1 else 0) =
      l.countP (ReceiveCall.owes n) := by
  have hcount := Table.countP_set_add (ReceiveCall.owes n) hc (.pushed m)
  by_cases hm : m.seq = n
  · simpa [ReceiveCall.owes, hm] using hcount
  · simpa [ReceiveCall.owes, hm] using hcount

theorem taken_receiveMessage (r : UdpReceiver) (m : Message) (n : Nat) :
    (r.receiveMessage m).taken n ≤ r.taken n + if m.seq = n then 1 else 0 := by
  obtain ⟨b, call, heq, hcall⟩ := receiveMessage_eq r m
  rw [heq]
  simp only [taken, List.countP_append, List.countP_singleton]
  obtain ⟨result, rfl⟩ | rfl | ⟨-, rfl⟩ := hcall
  · simp [ReceiveCall.owes]
  · simp [ReceiveCall.owes]
  · simp [ReceiveCall.owes]
    omega

theorem taken_step {r t : UdpReceiver} (ha : ∀ m, a ≠ .receiveMessage m)
    (hs : r.step a = some t) (n : Nat) : t.taken n = r.taken n := by
  cases a with
  | receiveMessage m => exact absurd rfl (ha m)
  | reject i ok =>
    obtain ⟨hc, sent, result, -, rfl⟩ := reject_eq_some hs
    exact taken_set rfl rfl hc rfl
  | record i =>
    obtain ⟨m, hc, rfl⟩ := record_eq_some hs
    exact taken_set rfl rfl hc rfl
  | push i =>
    obtain ⟨m, hc, rfl⟩ := push_eq_some hs
    have := countP_set_pushed (n := n) hc
    simp only [taken, List.countP_append, List.countP_singleton, decide_eq_true_eq]
    omega
  | ack i ok =>
    obtain ⟨m, hc, ⟨-, rfl⟩ | ⟨-, rfl⟩⟩ := ack_eq_some hs
    · exact taken_set rfl rfl hc rfl
    · exact taken_set rfl rfl hc rfl
  | forget i =>
    obtain ⟨m, hc, rfl⟩ := forget_eq_some hs
    exact taken_set rfl rfl hc rfl
  | receiveFromBuffer =>
    rw [← Option.some.inj hs]
    obtain heq | ⟨m, rest, -, heq⟩ := receiveFromBuffer_cases r
    · rw [heq]
    · rw [heq]
      rfl
  | requestRetransmit seq ok =>
    rw [← Option.some.inj hs]
    rfl

theorem grows {r t : UdpReceiver} (hs : r.step a = some t) :
    r.pushed <+: t.pushed ∧ r.socket <+: t.socket := by
  cases a with
  | receiveMessage m =>
    obtain ⟨b, call, heq, -⟩ := receiveMessage_eq r m
    rw [← Option.some.inj hs, heq]
    exact ⟨List.prefix_rfl, List.prefix_rfl⟩
  | reject i ok =>
    obtain ⟨-, sent, result, -, rfl⟩ := reject_eq_some hs
    exact ⟨List.prefix_rfl, List.prefix_append _ _⟩
  | record i =>
    obtain ⟨m, -, rfl⟩ := record_eq_some hs
    exact ⟨List.prefix_rfl, List.prefix_rfl⟩
  | push i =>
    obtain ⟨m, -, rfl⟩ := push_eq_some hs
    exact ⟨List.prefix_append _ _, List.prefix_rfl⟩
  | ack i ok =>
    obtain ⟨m, -, ⟨-, rfl⟩ | ⟨-, rfl⟩⟩ := ack_eq_some hs
    · exact ⟨List.prefix_rfl, List.prefix_append _ _⟩
    · exact ⟨List.prefix_rfl, List.prefix_rfl⟩
  | forget i =>
    obtain ⟨m, -, rfl⟩ := forget_eq_some hs
    exact ⟨List.prefix_rfl, List.prefix_rfl⟩
  | receiveFromBuffer =>
    rw [← Option.some.inj hs]
    obtain heq | ⟨m, rest, -, heq⟩ := receiveFromBuffer_cases r
    · rw [heq]
      exact ⟨List.prefix_rfl, List.prefix_rfl⟩
    · rw [heq]
      exact ⟨List.prefix_rfl, List.prefix_rfl⟩
  | requestRetransmit seq ok =>
    rw [← Option.some.inj hs]
    exact ⟨List.prefix_rfl, List.prefix_append _ _⟩

end UdpReceiver

end BdsPro.Udp
