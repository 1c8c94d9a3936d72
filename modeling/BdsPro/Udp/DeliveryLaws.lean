import BdsPro.Udp.ChannelLaws
import Mathlib.Algebra.Order.BigOperators.Group.List

namespace BdsPro.Udp

open BdsPro.Library

namespace UdpReceiver

inductive Moves (t : UdpReceiver) : ReceiveCall → ReceiveCall → Prop
  | rejected : Moves t .rejecting (.returned result)
  | recorded : Moves t (.holding m) (.recorded m)
  | pushed (pushed : m ∈ t.pushed) : Moves t (.recorded m) (.pushed m)
  | acked (acked : ackMessage m.seq ∈ t.socket) : Moves t (.pushed m) (.acked m)
  | returned : Moves t (.acked m) (.returned (.ok (some m)))

theorem call_set {r t : UdpReceiver} {i j : Nat} {call call' moved : ReceiveCall}
    (hcalls : t.calls = r.calls.set i moved) (hi : r.calls[i]? = some call)
    (hm : Moves t call moved) (hj : r.calls[j]? = some call') :
    ∃ next, t.calls[j]? = some next ∧ (next = call' ∨ Moves t call' next) := by
  rw [hcalls]
  by_cases hij : i = j
  · subst hij
    cases hi.symm.trans hj
    exact ⟨moved, Table.set_self hi _, .inr hm⟩
  · exact ⟨call', (List.getElem?_set_ne hij).trans hj, .inl rfl⟩

theorem call_step {r t : UdpReceiver} {j : Nat} (ha : acksSucceed a = true) (hs : r.step a = some t)
    (hj : r.calls[j]? = some call) :
    ∃ next, t.calls[j]? = some next ∧ (next = call ∨ Moves t call next) := by
  cases a with
  | receiveMessage m =>
    obtain ⟨b, new, heq, -⟩ := receiveMessage_eq r m
    rw [← Option.some.inj hs, heq]
    exact ⟨call, Table.concat_of_row hj, .inl rfl⟩
  | reject i ok =>
    obtain ⟨hi, sent, result, -, rfl⟩ := reject_eq_some hs
    exact call_set rfl hi .rejected hj
  | record i =>
    obtain ⟨m, hi, rfl⟩ := record_eq_some hs
    exact call_set rfl hi .recorded hj
  | push i =>
    obtain ⟨m, hi, rfl⟩ := push_eq_some hs
    exact call_set rfl hi (.pushed (List.mem_append_right _ (List.mem_singleton_self m))) hj
  | ack i ok =>
    obtain ⟨m, hi, ⟨-, rfl⟩ | ⟨hok, -⟩⟩ := ack_eq_some hs
    · exact call_set rfl hi (.acked (List.mem_append_right _ (List.mem_singleton_self _))) hj
    · rw [hok] at ha
      contradiction
  | forget i =>
    obtain ⟨m, hi, rfl⟩ := forget_eq_some hs
    exact call_set rfl hi .returned hj
  | receiveFromBuffer =>
    rw [← Option.some.inj hs]
    obtain heq | ⟨m, rest, -, heq⟩ := receiveFromBuffer_cases r
    · exact ⟨call, heq.symm ▸ hj, .inl rfl⟩
    · exact ⟨call, heq.symm ▸ hj, .inl rfl⟩
  | requestRetransmit seq ok =>
    rw [← Option.some.inj hs]
    exact ⟨call, hj, .inl rfl⟩

inductive Accepting (r : UdpReceiver) (m : Message) : ReceiveCall → Prop
  | holding : Accepting r m (.holding m)
  | recorded : Accepting r m (.recorded m)
  | pushed (pushed : m ∈ r.pushed) : Accepting r m (.pushed m)
  | acked (pushed : m ∈ r.pushed) (acked : ackMessage m.seq ∈ r.socket) :
    Accepting r m (.acked m)
  | returned (pushed : m ∈ r.pushed) (acked : ackMessage m.seq ∈ r.socket) :
    Accepting r m (.returned (.ok (some m)))

theorem Accepting.step {r t : UdpReceiver} {j : Nat} (h : Accepting r m call)
    (ha : acksSucceed a = true) (hs : r.step a = some t) (hj : r.calls[j]? = some call) :
    ∃ next, t.calls[j]? = some next ∧ Accepting t m next := by
  obtain ⟨next, hnext, hmove⟩ := call_step ha hs hj
  obtain ⟨hpushed, hsocket⟩ := grows hs
  refine ⟨next, hnext, ?_⟩
  cases hmove with
  | inl heq =>
    subst heq
    cases h with
    | holding => exact .holding
    | recorded => exact .recorded
    | pushed pushed => exact .pushed (hpushed.subset pushed)
    | acked pushed acked => exact .acked (hpushed.subset pushed) (hsocket.subset acked)
    | returned pushed acked => exact .returned (hpushed.subset pushed) (hsocket.subset acked)
  | inr hmove =>
    cases h with
    | holding =>
      cases hmove with
      | recorded => exact .recorded
    | recorded =>
      cases hmove with
      | pushed pushed => exact .pushed pushed
    | pushed pushed =>
      cases hmove with
      | acked acked => exact .acked (hpushed.subset pushed) acked
    | acked pushed acked =>
      cases hmove with
      | returned => exact .returned (hpushed.subset pushed) (hsocket.subset acked)
    | returned pushed acked => contradiction

theorem step_record {r : UdpReceiver} {i : Nat} (hi : r.calls[i]? = some (.holding m)) :
    r.step (.record i) = some { r with
      receivedSeqs := insert m.seq r.receivedSeqs
      calls := r.calls.set i (.recorded m) } := by
  simp only [step, record, hi]

theorem step_push {r : UdpReceiver} {i : Nat} (hi : r.calls[i]? = some (.recorded m)) :
    r.step (.push i) = some { r with
      receiveBuffer := r.receiveBuffer ++ [m]
      calls := r.calls.set i (.pushed m)
      pushed := r.pushed ++ [m] } := by
  simp only [step, push, hi]

theorem step_ack {r : UdpReceiver} {i : Nat} (hi : r.calls[i]? = some (.pushed m)) :
    r.step (.ack i true) = some { r with
      socket := r.socket ++ [ackMessage m.seq]
      calls := r.calls.set i (.acked m) } := by
  simp only [step, ack, hi, if_true]

theorem step_forget {r : UdpReceiver} {i : Nat} (hi : r.calls[i]? = some (.acked m)) :
    r.step (.forget i) = some { r with calls := r.calls.set i (.returned (.ok (some m))) } := by
  simp only [step, forget, hi]

theorem receiveMessage_fits {r : UdpReceiver} (hm : m.encodedLen ≤ recvBufferLen)
    (htyp : m.typ = .data) (hsem : 0 < r.bufferSemaphore) :
    r.receiveMessage m =
      { r with bufferSemaphore := r.bufferSemaphore - 1, calls := r.calls ++ [.holding m] } := by
  simp only [receiveMessage, Message.fromSlice, if_pos hm, if_pos htyp, if_pos hsem]

theorem receiveMessage_cut {r : UdpReceiver} (hm : ¬m.encodedLen ≤ recvBufferLen) :
    r.receiveMessage m =
      { r with calls := r.calls ++ [.returned (.error .serialization)] } := by
  simp only [receiveMessage, Message.fromSlice, if_neg hm]

end UdpReceiver

namespace UdpSender

def Transmitted (s : UdpSender) : Prop :=
  ∀ c ∈ s.calls, c.phase.transmitted = true → dataMessage c.seq c.data ∈ s.socket

theorem Transmitted.step {s t : UdpSender} (h : s.Transmitted) (hs : s.step a = some t) :
    t.Transmitted := by
  have hold {c : SendCall} (hc : c ∈ s.calls) (hp : c.phase.transmitted = true) :
      dataMessage c.seq c.data ∈ t.socket := (grows hs).subset (h c hc hp)
  have hmove {i c p} (hcalls : t.calls = s.setPhase i c p)
      (hsent : p.transmitted = true → dataMessage c.seq c.data ∈ t.socket) : t.Transmitted := by
    rw [Transmitted, hcalls]
    intro c' hc' hp
    cases mem_of_mem_setPhase hc' with
    | inl hc' => exact hold hc' hp
    | inr heq =>
      subst heq
      exact hsent hp
  cases callsStep_of_step hs with
  | still calls saved next =>
    rw [Transmitted, calls]
    exact fun c => hold
  | issue call phase number calls saved next =>
    rw [Transmitted, calls]
    intro c hc hp
    cases List.mem_append.mp hc with
    | inl hc => exact hold hc hp
    | inr hc =>
      rw [List.mem_singleton.mp hc, phase] at hp
      contradiction
  | move call calls saved next permit sent =>
    exact hmove calls fun hp => (sent hp).elim (hold (List.mem_of_getElem? call)) id
  | store call calls saved next => exact hmove calls nofun

end UdpSender

namespace UdpChannel

theorem reaches_receiver {c t : UdpChannel} {a : UdpReceiver.Action} {r : UdpReceiver}
    (h : c.onward.Reaches AcksSent t) (hint : internal a = true)
    (ha : UdpReceiver.acksSucceed a = true) (hs : t.receiver.step a = some r) :
    c.onward.Reaches AcksSent { t with receiver := r } := by
  refine h.step (a := Action.receiver a) ha ?_
  simp only [onward, step, hint, if_true, hs, Option.map_some]

theorem accepting_returns {c : UdpChannel} {j : Nat}
    (hj : c.receiver.calls[j]? = some (.holding m)) :
    ∃ t, c.onward.Reaches AcksSent t ∧
      t.receiver.calls[j]? = some (.returned (.ok (some m))) := by
  have hstart : c.onward.Reaches AcksSent c := .init
  have hrecord := reaches_receiver hstart rfl rfl (UdpReceiver.step_record hj)
  have hrecorded := Table.set_self hj (.recorded m)
  have hpush := reaches_receiver hrecord rfl rfl (UdpReceiver.step_push hrecorded)
  have hpushed := Table.set_self hrecorded (.pushed m)
  have hack := reaches_receiver hpush rfl rfl (UdpReceiver.step_ack hpushed)
  have hacked := Table.set_self hpushed (.acked m)
  have hforget := reaches_receiver hack rfl rfl (UdpReceiver.step_forget hacked)
  exact ⟨_, hforget, Table.set_self hacked _⟩

theorem accepting_of_reaches {c t : UdpChannel} {j : Nat}
    (hj : c.receiver.calls[j]? = some (.holding m)) (h : c.onward.Reaches AcksSent t) :
    ∃ call, t.receiver.calls[j]? = some call ∧ t.receiver.Accepting m call := by
  refine h.invariant (I := fun t => ∃ call, t.receiver.calls[j]? = some call ∧
    t.receiver.Accepting m call) ⟨_, hj, .holding⟩ fun t a t' _ ih ha hs => ?_
  obtain ⟨call, hcall, haccepting⟩ := ih
  cases a with
  | sender a =>
    obtain ⟨-, s, -, rfl⟩ := sender_eq_some hs
    exact ⟨call, hcall, haccepting⟩
  | receiver a =>
    obtain ⟨-, r, hr, rfl⟩ := receiver_eq_some hs
    exact haccepting.step ha hr hcall
  | deliver i =>
    obtain ⟨m', -, rfl⟩ := deliver_eq_some hs
    exact haccepting.step (a := .receiveMessage m') rfl rfl hcall

theorem delivers_iff {c : UdpChannel} {i : Nat} (hi : c.sender.socket[i]? = some m)
    (htyp : m.typ = .data) (hsem : 0 < c.receiver.bufferSemaphore) :
    c.Delivers i m ↔ m.encodedLen ≤ recvBufferLen := by
  have hstep : c.step (.deliver i) = some { c with
      receiver := c.receiver.receiveMessage m
      delivered := c.delivered ++ [i] } := by
    simp only [step, hi, Option.map_some]
  constructor
  · rintro ⟨c', hc', -, hall⟩
    refine Classical.byContradiction fun hcut => ?_
    rw [hstep, UdpReceiver.receiveMessage_cut hcut] at hc'
    have hcall : c'.receiver.calls[c.receiver.calls.length]? =
        some (.returned (.error .serialization)) := by
      rw [← Option.some.inj hc']
      exact List.getElem?_concat_length
    cases (hall c' .init _ hcall).1
  · intro hfits
    refine ⟨_, hstep, ?_⟩
    rw [UdpReceiver.receiveMessage_fits hfits htyp hsem]
    have hj : (c.receiver.calls ++ [ReceiveCall.holding m])[c.receiver.calls.length]? =
        some (.holding m) := List.getElem?_concat_length
    refine ⟨accepting_returns hj, fun t ht result hresult => ?_⟩
    obtain ⟨call, hcall, haccepting⟩ := accepting_of_reaches hj ht
    cases hresult.symm.trans hcall
    cases haccepting with
    | returned pushed acked => exact ⟨rfl, pushed, acked⟩

theorem transmitted_of_reaches {sending receiving : FlowControlConfig} {c : UdpChannel}
    (h : (machine sending receiving).Reachable c) : c.sender.Transmitted := by
  refine h.invariant (I := fun c => c.sender.Transmitted) (by rintro c ⟨⟩)
    fun c a t _ ih _ hs => ?_
  cases a with
  | sender a =>
    obtain ⟨-, s, hsend, rfl⟩ := sender_eq_some hs
    exact ih.step hsend
  | receiver a =>
    obtain ⟨-, r, -, rfl⟩ := receiver_eq_some hs
    exact ih
  | deliver i =>
    obtain ⟨m, -, rfl⟩ := deliver_eq_some hs
    exact ih

theorem accepted_delivered_iff {sending receiving : FlowControlConfig} {c : UdpChannel}
    (h : (machine sending receiving).Reachable c) (hcall : call ∈ c.sender.calls)
    (hok : call.phase = .returned (.ok ())) (hsem : 0 < c.receiver.bufferSemaphore) :
    (∃ i : Nat, c.sender.socket[i]? = some (dataMessage call.seq call.data)) ∧
      ∀ i : Nat, c.sender.socket[i]? = some (dataMessage call.seq call.data) →
        (c.Delivers i (dataMessage call.seq call.data) ↔
          (dataMessage call.seq call.data).encodedLen ≤ recvBufferLen) := by
  have hmem := transmitted_of_reaches h call hcall (by rw [hok]; rfl)
  exact ⟨List.mem_iff_getElem?.mp hmem, fun i hi => delivers_iff hi rfl hsem⟩

theorem accepted_delivered_iff_short :
    ∃ c i, (machine .default .default).Reachable c ∧ c.Delivers i (dataMessage 7 "a\n") := by
  obtain ⟨c, hc, call, hcall, hok, hsem, hseq, hdata⟩ := Machine.exists_reaches_of_replay
    (M := machine .default .default) (C := fun _ _ => True)
    (P := fun c => ∃ call ∈ c.sender.calls, call.phase = .returned (.ok ()) ∧
      0 < c.receiver.bufferSemaphore ∧ call.seq = 7 ∧ call.data = "a\n")
    [.sender (.sendMessage 7 "a\n"), .sender (.acquire 0), .sender (.store 0),
      .sender (.track 0 0), .sender (.transmit 0 true), .sender (.forget 0)] (by decide)
  obtain ⟨⟨i, hi⟩, hiff⟩ := accepted_delivered_iff hc hcall hok hsem
  rw [hseq, hdata] at hi hiff
  exact ⟨c, i, hc, (hiff i hi).mpr (by decide)⟩

theorem escapedLen_pos (c : Char) : 1 ≤ escapedLen c := by
  unfold escapedLen
  split_ifs
  · decide
  · decide
  · exact c.utf8Size_pos

theorem length_lt_encodedLen (seq : Nat) (data : String) :
    data.toList.length < (dataMessage seq data).encodedLen := by
  have hlen : data.toList.length ≤ (data.toList.map escapedLen).sum := by
    rw [← List.length_map escapedLen]
    refine List.length_le_sum_of_one_le _ fun n hn => ?_
    obtain ⟨c, -, rfl⟩ := List.mem_map.mp hn
    exact escapedLen_pos c
  simp only [Message.encodedLen, dataMessage, Option.elim_some, jsonStringLen]
  omega

/-- A text of 1024 characters is accepted and sent, but does not fit the receiver's buffer. -/
theorem accepted_not_delivered :
    ¬∀ c, (machine .default .default).Reachable c → ∀ call ∈ c.sender.calls,
      call.phase = .returned (.ok ()) → 0 < c.receiver.bufferSemaphore →
        ∀ i : Nat, c.sender.socket[i]? = some (dataMessage call.seq call.data) →
          c.Delivers i (dataMessage call.seq call.data) := by
  intro h
  have hrun (data : String) : ∃ c, (machine .default .default).Reachable c ∧
      c.sender.calls = [⟨7, data, .returned (.ok ())⟩] ∧ c.receiver.bufferSemaphore = 50 ∧
      c.sender.socket = [dataMessage 7 data] :=
    Machine.exists_reaches_of_replay (M := machine .default .default) (C := fun _ _ => True)
      [.sender (.sendMessage 7 data), .sender (.acquire 0), .sender (.store 0),
        .sender (.track 0 0), .sender (.transmit 0 true), .sender (.forget 0)]
      ⟨_, rfl, rfl, rfl, rfl⟩
  obtain ⟨c, hc, hcalls, hroom, hsocket⟩ := hrun (String.ofList (List.replicate 1024 'a'))
  have hi : c.sender.socket[0]? =
      some (dataMessage 7 (String.ofList (List.replicate 1024 'a'))) := by rw [hsocket]; rfl
  have hsem : 0 < c.receiver.bufferSemaphore := hroom ▸ by decide
  have hfits := (delivers_iff hi rfl hsem).mp
    (h c hc _ (hcalls ▸ List.mem_singleton_self _) rfl hsem 0 hi)
  have hlong := length_lt_encodedLen 7 (String.ofList (List.replicate 1024 'a'))
  rw [String.toList_ofList, List.length_replicate] at hlong
  exact Nat.lt_irrefl _ (Nat.lt_of_lt_of_le hlong hfits)

end UdpChannel

end BdsPro.Udp
