import BdsPro.Library.Table
import BdsPro.Library.Window
import BdsPro.Udp.Sender

namespace BdsPro.Udp

open BdsPro.Library

namespace UdpSender

theorem callAt_eq_some {s : UdpSender} :
    s.callAt i p = some c ↔ s.calls[i]? = some c ∧ c.phase = p := by
  simp [callAt, Option.filter_eq_some_iff]

theorem seq_setPhase {s : UdpSender} (h : s.calls[i]? = some c) :
    (s.setPhase i c p).map SendCall.seq = s.calls.map SendCall.seq := by
  obtain ⟨hi, rfl⟩ := List.getElem?_eq_some_iff.mp h
  apply List.ext_getElem? fun j => ?_
  simp only [setPhase, List.map_set, List.getElem?_set, List.getElem?_map, List.length_map]
  split
  next hij => subst hij; simp [hi]
  next => rfl

theorem mem_of_mem_setPhase {s : UdpSender} (h : c' ∈ s.setPhase i c p) :
    c' ∈ s.calls ∨ c' = { c with phase := p } := List.mem_or_eq_of_mem_set h

theorem exists_setPhase {s : UdpSender} (P : SendCall → Prop) (h : s.calls[i]? = some c)
    (hP : P c → P { c with phase := p }) (hex : ∃ c' ∈ s.calls, P c') :
    ∃ c' ∈ s.setPhase i c p, P c' := by
  obtain ⟨hi, hci⟩ := List.getElem?_eq_some_iff.mp h
  obtain ⟨c', hmem, hc'⟩ := hex
  obtain ⟨j, hj⟩ := List.mem_iff_getElem?.mp hmem
  by_cases hij : i = j
  · subst hij
    rw [h, Option.some.injEq] at hj
    subst hj
    exact ⟨_, List.mem_set hi _, hP hc'⟩
  · refine ⟨c', List.mem_iff_getElem?.mpr ⟨j, ?_⟩, hc'⟩
    rw [setPhase, List.getElem?_set_ne hij, hj]

theorem countP_setPhase {s : UdpSender} (q : SendPhase → Bool) (h : s.calls[i]? = some c) :
    (s.setPhase i c p).countP (fun c => q c.phase) + (q c.phase).toNat =
      s.calls.countP (fun c => q c.phase) + (q p).toNat :=
  Table.countP_set_add _ h _

theorem acquire_eq_some {s t : UdpSender} (h : s.acquire i = some t) :
    ∃ c, s.calls[i]? = some c ∧ c.phase = .acquiring ∧ 0 < s.sendWindow ∧
      t = { s with sendWindow := s.sendWindow - 1, calls := s.setPhase i c .acquired } := by
  simp only [acquire, Option.bind_eq_some_iff, callAt_eq_some, Option.ite_none_right_eq_some,
    Option.some.injEq] at h
  obtain ⟨c, ⟨hc, hp⟩, hw, rfl⟩ := h
  exact ⟨c, hc, hp, hw, rfl⟩

theorem sendTimeout_eq_some {s t : UdpSender} (h : s.sendTimeout i = some t) :
    ∃ c, s.calls[i]? = some c ∧ c.phase = .acquiring ∧
      t = { s with calls := s.setPhase i c (.returned (.error .sendWindowFull)) } := by
  simp only [sendTimeout, Option.map_eq_some_iff, callAt_eq_some] at h
  obtain ⟨c, ⟨hc, hp⟩, rfl⟩ := h
  exact ⟨c, hc, hp, rfl⟩

theorem store_eq_some {s t : UdpSender} (h : s.store i = some t) :
    ∃ c, s.calls[i]? = some c ∧ c.phase = .acquired ∧
      t = { s with
        sentMessages := s.sentMessages.insert c.seq c.data
        calls := s.setPhase i c .stored } := by
  simp only [store, Option.map_eq_some_iff, callAt_eq_some] at h
  obtain ⟨c, ⟨hc, hp⟩, rfl⟩ := h
  exact ⟨c, hc, hp, rfl⟩

theorem track_eq_some {s t : UdpSender} (h : s.track i now = some t) :
    ∃ c, s.calls[i]? = some c ∧ c.phase = .stored ∧
      t = { s with
        inFlight := s.inFlight.insert c.seq ⟨c.seq, c.data, now, 0⟩
        calls := s.setPhase i c .tracked } := by
  simp only [track, Option.map_eq_some_iff, callAt_eq_some] at h
  obtain ⟨c, ⟨hc, hp⟩, rfl⟩ := h
  exact ⟨c, hc, hp, rfl⟩

theorem transmit_eq_some {s t : UdpSender} (h : s.transmit i ok = some t) :
    ∃ c, s.calls[i]? = some c ∧ c.phase = .tracked ∧
      (ok = true ∧ t = { s with
        socket := s.socket ++ [dataMessage c.seq c.data]
        calls := s.setPhase i c .sent } ∨
      ok = false ∧ t = { s with
        sendWindow := s.sendWindow + 1
        calls := s.setPhase i c (.returned (.error .io)) }) := by
  simp only [transmit, Option.map_eq_some_iff, callAt_eq_some] at h
  obtain ⟨c, ⟨hc, hp⟩, rfl⟩ := h
  exact ⟨c, hc, hp, by cases ok <;> simp⟩

theorem forget_eq_some {s t : UdpSender} (h : s.forget i = some t) :
    ∃ c, s.calls[i]? = some c ∧ c.phase = .sent ∧
      t = { s with calls := s.setPhase i c (.returned (.ok ())) } := by
  simp only [forget, Option.map_eq_some_iff, callAt_eq_some] at h
  obtain ⟨c, ⟨hc, hp⟩, rfl⟩ := h
  exact ⟨c, hc, hp, rfl⟩

theorem recvFrom_eq_some {s t : UdpSender} (h : s.recvFrom m = some t) :
    t = s ∨ ∃ typ, (typ = .rqst ∨ typ = .ack) ∧ m.typ = typ ∧
      t = { s with received := some (typ, m.seq) } := by
  simp only [recvFrom, Option.ite_none_right_eq_some] at h
  obtain ⟨-, h⟩ := h
  split at h
  next heq =>
    have := Message.fromSlice_eq_some heq
    subst this
    exact .inr ⟨.rqst, .inl rfl, rfl, (Option.some.inj h).symm⟩
  next heq =>
    have := Message.fromSlice_eq_some heq
    subst this
    exact .inr ⟨.ack, .inr rfl, rfl, (Option.some.inj h).symm⟩
  next => exact .inl (Option.some.inj h).symm

theorem enqueue_eq_some {s t : UdpSender} (h : s.enqueue = some t) :
    ∃ e, s.received = some e ∧ t = { s with received := none, events := s.events ++ [e] } := by
  simp only [enqueue, Option.bind_eq_some_iff, Option.ite_none_right_eq_some,
    Option.some.injEq] at h
  obtain ⟨e, he, -, rfl⟩ := h
  exact ⟨e, he, rfl⟩

theorem resend_eq (s : UdpSender) (seq : Nat) (data : Option String) (ok : Bool) : ∃ sent,
    s.resend seq data ok = { s with socket := s.socket ++ sent } ∧
      ∀ m ∈ sent, ∃ d, data = some d ∧ m = dataMessage seq d := by
  cases data with
  | none => exact ⟨[], by simp [resend], by simp⟩
  | some d =>
    cases ok with
    | false => exact ⟨[], by simp [resend], by simp⟩
    | true => exact ⟨[dataMessage seq d], by simp [resend], by simp⟩

theorem handleEvent_eq_some {s t : UdpSender} (h : s.handleEvent ok = some t) :
    ∃ e rest, s.events = e :: rest ∧
      (e.1 = .ack ∧ t = { s with events := rest }.acknowledge e.2 ∨
      ∃ sent, t = { s with events := rest, socket := s.socket ++ sent } ∧
        ∀ m ∈ sent, ∃ d, s.sentMessages.lookup e.2 = some d ∧ m = dataMessage e.2 d) := by
  unfold handleEvent at h
  split at h
  next => contradiction
  next seq rest heq =>
    refine ⟨_, rest, heq, .inr ?_⟩
    obtain ⟨sent, hsent, hmem⟩ :=
      resend_eq { s with events := rest } seq (s.sentMessages.lookup seq) ok
    exact ⟨sent, (Option.some.inj h).symm.trans hsent, hmem⟩
  next seq rest heq => exact ⟨_, rest, heq, .inl ⟨rfl, (Option.some.inj h).symm⟩⟩
  next e rest _ _ heq =>
    exact ⟨e, rest, heq, .inr ⟨[], by simpa using (Option.some.inj h).symm, by simp⟩⟩

theorem tick_eq_some {s t : UdpSender} (h : s.tick now order = some t) :
    (∀ e ∈ order, ∃ m, s.inFlight.lookup e.1 = some m ∧ m.data = e.2) ∧
      ∃ f : InFlightMessage → InFlightMessage, (∀ m, (f m).data = m.data) ∧
        t = { s with toRetransmit := order, inFlight := s.inFlight.mapVal fun _ m => f m } := by
  simp only [tick, Option.ite_none_right_eq_some, Option.some.injEq] at h
  obtain ⟨⟨-, horder⟩, rfl⟩ := h
  refine ⟨fun e he => ?_, _, fun m => ?_, rfl⟩
  · have he' : e ∈ s.expired now := horder ▸ (Multiset.mem_coe.mpr he)
    obtain ⟨⟨k, m⟩, hm, rfl⟩ := Multiset.mem_map.mp he'
    exact ⟨m, (Map.mem_select.mp hm).1, rfl⟩
  · split <;> rfl

theorem retransmit_eq_some {s t : UdpSender} (h : s.retransmit ok = some t) :
    ∃ e rest sent, s.toRetransmit = e :: rest ∧
      t = { s with toRetransmit := rest, socket := s.socket ++ sent } ∧
        ∀ m ∈ sent, m = dataMessage e.1 e.2 := by
  unfold retransmit at h
  split at h
  next => contradiction
  next seq d rest heq =>
    obtain ⟨sent, hsent, hmem⟩ := resend_eq { s with toRetransmit := rest } seq (some d) ok
    refine ⟨_, rest, sent, heq, (Option.some.inj h).symm.trans hsent, fun m hm => ?_⟩
    obtain ⟨d', hd, rfl⟩ := hmem m hm
    rw [Option.some.inj hd]

def Issued (s : UdpSender) (seq : Nat) (data : String) : Prop :=
  ∃ c ∈ s.calls, c.seq = seq ∧ c.data = data

structure Coherent (s : UdpSender) : Prop where
  distinct : (s.calls.map SendCall.seq).Nodup
  stored : ∀ seq d, s.sentMessages.lookup seq = some d → s.Issued seq d
  owned : ∀ seq m, s.inFlight.lookup seq = some m →
    ∃ c ∈ s.calls, c.seq = seq ∧ c.data = m.data ∧ c.phase.inserted = true
  pending : ∀ e ∈ s.toRetransmit, s.Issued e.1 e.2
  sent : ∀ m ∈ s.socket, ∃ seq d, m = dataMessage seq d ∧ s.Issued seq d

theorem Issued.setPhase {s : UdpSender} (h : s.Issued seq d) (hc : s.calls[i]? = some c) :
    Issued { s with calls := s.setPhase i c p } seq d :=
  exists_setPhase (fun c => c.seq = seq ∧ c.data = d) hc id h

theorem Coherent.move {s : UdpSender} (h : s.Coherent) (hc : s.calls[i]? = some c)
    (hp : c.phase.inserted = true → p.inserted = true) :
    Coherent { s with calls := s.setPhase i c p } where
  distinct := by rw [seq_setPhase hc]; exact h.distinct
  stored seq d hd := (h.stored seq d hd).setPhase hc
  owned seq m hm := by
    refine exists_setPhase
      (fun c => c.seq = seq ∧ c.data = m.data ∧ c.phase.inserted = true) hc ?_ (h.owned seq m hm)
    exact fun ⟨h₁, h₂, h₃⟩ => ⟨h₁, h₂, hp h₃⟩
  pending e he := (h.pending e he).setPhase hc
  sent m hm := by
    obtain ⟨seq, d, rfl, hi⟩ := h.sent m hm
    exact ⟨seq, d, rfl, hi.setPhase hc⟩

theorem Coherent.call {s : UdpSender} (h : s.Coherent) (hnew : seq ∉ s.calls.map SendCall.seq) :
    (s.sendMessage seq d).Coherent where
  distinct := by
    rw [sendMessage, List.map_append, List.nodup_append]
    refine ⟨h.distinct, by simp, fun a ha b hb hab => ?_⟩
    rw [List.map_singleton, List.mem_singleton] at hb
    subst hb hab
    exact hnew ha
  stored seq d hd := by
    obtain ⟨c, hc, hcd⟩ := h.stored seq d hd
    exact ⟨c, List.mem_append_left _ hc, hcd⟩
  owned seq m hm := by
    obtain ⟨c, hc, hcd⟩ := h.owned seq m hm
    exact ⟨c, List.mem_append_left _ hc, hcd⟩
  pending e he := by
    obtain ⟨c, hc, hcd⟩ := h.pending e he
    exact ⟨c, List.mem_append_left _ hc, hcd⟩
  sent m hm := by
    obtain ⟨seq, d, rfl, c, hc, hcd⟩ := h.sent m hm
    exact ⟨seq, d, rfl, c, List.mem_append_left _ hc, hcd⟩

theorem Coherent.send {s : UdpSender} (h : s.Coherent)
    {l : List Message} (hl : ∀ m ∈ l, ∃ seq d, m = dataMessage seq d ∧ s.Issued seq d) :
    Coherent { s with socket := s.socket ++ l } where
  __ := h
  sent m hm := (List.mem_append.mp hm).elim (h.sent m) (hl m)

theorem Coherent.acknowledge {s : UdpSender} (h : s.Coherent) :
    (s.acknowledge seq).Coherent := by
  unfold UdpSender.acknowledge
  split
  · exact { h with owned := fun k m hm => h.owned k m (Map.lookup_of_erase hm).2 }
  · exact h

theorem issued_of_getElem? {s : UdpSender} {c : SendCall} {i : Nat} (hc : s.calls[i]? = some c) :
    s.Issued c.seq c.data := ⟨c, List.mem_of_getElem? hc, rfl, rfl⟩

theorem Coherent.step {s t : UdpSender} (h : s.Coherent) (hf : s.FreshSeq a)
    (hs : s.step a = some t) : t.Coherent := by
  cases a with
  | sendMessage seq d => exact Option.some.inj hs ▸ h.call (hf seq rfl)
  | sendMessageAutoSeq d =>
    have h' : Coherent { s with nextSeq := s.nextSeq + 1 } := { h with }
    exact Option.some.inj hs ▸ h'.call (hf s.nextSeq rfl)
  | acquire i =>
    obtain ⟨c, hc, hp, -, rfl⟩ := acquire_eq_some hs
    exact { h.move hc (p := .acquired) (by simp [hp, SendPhase.inserted]) with }
  | sendTimeout i =>
    obtain ⟨c, hc, hp, rfl⟩ := sendTimeout_eq_some hs
    exact h.move hc (by simp [hp, SendPhase.inserted])
  | store i =>
    obtain ⟨c, hc, hp, rfl⟩ := store_eq_some hs
    have hm := h.move hc (p := .stored) (by simp [hp, SendPhase.inserted])
    refine { hm with stored := fun seq d hd => ?_ }
    rw [Map.lookup_insert] at hd
    split at hd
    · subst_vars
      exact Option.some.inj hd ▸ (issued_of_getElem? hc).setPhase hc
    · exact hm.stored seq d hd
  | track i now =>
    obtain ⟨c, hc, hp, rfl⟩ := track_eq_some hs
    have hm := h.move hc (p := .tracked) (by simp [SendPhase.inserted])
    refine { hm with owned := fun seq m hd => ?_ }
    rw [Map.lookup_insert] at hd
    split at hd
    · subst_vars
      rw [Option.some.injEq] at hd
      subst hd
      exact ⟨_, List.mem_set (List.getElem?_eq_some_iff.mp hc).1 _, rfl, rfl, rfl⟩
    · exact hm.owned seq m hd
  | transmit i ok =>
    obtain ⟨c, hc, hp, ⟨-, rfl⟩ | ⟨-, rfl⟩⟩ := transmit_eq_some hs
    · refine (h.move hc (p := .sent) (by simp [SendPhase.inserted])).send fun m hm => ?_
      rw [List.mem_singleton] at hm
      exact ⟨c.seq, c.data, hm, (issued_of_getElem? hc).setPhase hc⟩
    · exact { h.move hc (p := .returned (.error .io)) (by simp [SendPhase.inserted]) with }
  | forget i =>
    obtain ⟨c, hc, hp, rfl⟩ := forget_eq_some hs
    exact h.move hc (by simp [SendPhase.inserted])
  | recvFrom m =>
    obtain rfl | ⟨typ, -, -, rfl⟩ := recvFrom_eq_some hs
    · exact h
    · exact { h with }
  | enqueue =>
    obtain ⟨e, -, rfl⟩ := enqueue_eq_some hs
    exact { h with }
  | handleEvent ok =>
    obtain ⟨e, rest, -, ⟨-, rfl⟩ | ⟨sent, rfl, hsent⟩⟩ := handleEvent_eq_some hs
    · exact Coherent.acknowledge (s := { s with events := rest }) { h with }
    · refine { h.send (l := sent) fun m hm => ?_ with }
      obtain ⟨d, hd, rfl⟩ := hsent m hm
      exact ⟨e.2, d, rfl, h.stored _ _ hd⟩
  | tick now order =>
    obtain ⟨horder, f, hf, rfl⟩ := tick_eq_some hs
    refine { h with owned := fun seq m hm => ?_, pending := fun e he => ?_ }
    · obtain ⟨m', hm', rfl⟩ := Option.map_eq_some_iff.mp ((Map.lookup_mapVal _ _ _).symm.trans hm)
      rw [hf m']
      exact h.owned seq m' hm'
    · obtain ⟨m, hm, hd⟩ := horder e he
      obtain ⟨c, hc, hseq, hdata, -⟩ := h.owned _ m hm
      exact ⟨c, hc, hseq, hdata.trans hd⟩
  | retransmit ok =>
    obtain ⟨e, rest, sent, hrest, rfl, hsent⟩ := retransmit_eq_some hs
    have he := h.pending e (hrest ▸ List.mem_cons_self)
    refine { h.send (l := sent) fun m hm => ⟨e.1, e.2, hsent m hm, he⟩ with
      pending := fun e' he' => h.pending e' (hrest ▸ List.mem_cons_of_mem _ he') }

theorem Coherent.new (config : FlowControlConfig) : (UdpSender.new config).Coherent where
  distinct := List.nodup_nil
  stored _ _ h := nomatch h
  owned _ _ h := nomatch h
  pending _ h := nomatch h
  sent _ h := nomatch h

theorem coherent_of_reaches {config : FlowControlConfig} {s : UdpSender}
    (h : (machine config).Reaches FreshSeq s) : s.Coherent :=
  h.invariant (Coherent.new config) fun _ _ _ _ ih hf hs => ih.step hf hs

theorem acknowledge_eq (s : UdpSender) (seq : Nat) :
    ∃ w, s.acknowledge seq = { s with inFlight := s.inFlight.erase seq, sendWindow := w } := by
  unfold acknowledge
  split
  · exact ⟨_, rfl⟩
  next h => exact ⟨s.sendWindow, by rw [Map.erase_of_none h]⟩

inductive CallsStep (s : UdpSender) (a : Action) (t : UdpSender) : Prop
  | still (calls : t.calls = s.calls) (saved : t.sentMessages = s.sentMessages)
      (next : t.nextSeq = s.nextSeq)
  | issue (call : SendCall) (phase : call.phase = .acquiring)
      (number : s.issues a = some call.seq) (calls : t.calls = s.calls ++ [call])
      (saved : t.sentMessages = s.sentMessages)
      (next : t.nextSeq = s.nextSeq + (autoSeq a).toNat)
  | move (call : s.calls[i]? = some c) (calls : t.calls = s.setPhase i c p)
      (saved : t.sentMessages = s.sentMessages) (next : t.nextSeq = s.nextSeq)
      (permit : p.unsaved = true ∨ c.phase.unsaved = false ∨ timesOut a = true)
      (sent : p.transmitted = true →
        c.phase.transmitted = true ∨ dataMessage c.seq c.data ∈ t.socket)
  | store (call : s.calls[i]? = some c) (calls : t.calls = s.setPhase i c .stored)
      (saved : t.sentMessages = s.sentMessages.insert c.seq c.data)
      (next : t.nextSeq = s.nextSeq)

theorem callsStep_of_step {s t : UdpSender} (hs : s.step a = some t) : CallsStep s a t := by
  cases a with
  | sendMessage seq d =>
    rw [← Option.some.inj hs]
    exact .issue ⟨seq, d, .acquiring⟩ rfl rfl rfl rfl rfl
  | sendMessageAutoSeq d =>
    rw [← Option.some.inj hs]
    exact .issue ⟨s.nextSeq, d, .acquiring⟩ rfl rfl rfl rfl rfl
  | acquire i =>
    obtain ⟨c, hc, -, -, rfl⟩ := acquire_eq_some hs
    exact .move hc rfl rfl rfl (.inl rfl) (by rintro ⟨⟩)
  | sendTimeout i =>
    obtain ⟨c, hc, -, rfl⟩ := sendTimeout_eq_some hs
    exact .move hc rfl rfl rfl (.inr (.inr rfl)) (by rintro ⟨⟩)
  | store i =>
    obtain ⟨c, hc, -, rfl⟩ := store_eq_some hs
    exact .store hc rfl rfl rfl
  | track i now =>
    obtain ⟨c, hc, hp, rfl⟩ := track_eq_some hs
    exact .move hc rfl rfl rfl (.inr (.inl (by rw [hp]; rfl))) (by rintro ⟨⟩)
  | transmit i ok =>
    obtain ⟨c, hc, hp, ⟨-, rfl⟩ | ⟨-, rfl⟩⟩ := transmit_eq_some hs
    · refine .move hc rfl rfl rfl (.inr (.inl (by rw [hp]; rfl))) fun _ => .inr ?_
      exact List.mem_append_right _ (List.mem_singleton_self _)
    · exact .move hc rfl rfl rfl (.inr (.inl (by rw [hp]; rfl))) (by rintro ⟨⟩)
  | forget i =>
    obtain ⟨c, hc, hp, rfl⟩ := forget_eq_some hs
    exact .move hc rfl rfl rfl (.inr (.inl (by rw [hp]; rfl))) fun _ => .inl (by rw [hp]; rfl)
  | recvFrom m =>
    obtain rfl | ⟨typ, -, -, rfl⟩ := recvFrom_eq_some hs
    · exact .still rfl rfl rfl
    · exact .still rfl rfl rfl
  | enqueue =>
    obtain ⟨e, -, rfl⟩ := enqueue_eq_some hs
    exact .still rfl rfl rfl
  | handleEvent ok =>
    obtain ⟨e, rest, -, ⟨-, rfl⟩ | ⟨sent, rfl, -⟩⟩ := handleEvent_eq_some hs
    · obtain ⟨w, heq⟩ := acknowledge_eq { s with events := rest } e.2
      rw [heq]
      exact .still rfl rfl rfl
    · exact .still rfl rfl rfl
  | tick now order =>
    obtain ⟨-, f, -, rfl⟩ := tick_eq_some hs
    exact .still rfl rfl rfl
  | retransmit ok =>
    obtain ⟨e, rest, sent, -, rfl, -⟩ := retransmit_eq_some hs
    exact .still rfl rfl rfl

theorem Issued.step {s t : UdpSender} (h : s.Issued seq d) (hs : s.step a = some t) :
    t.Issued seq d := by
  cases callsStep_of_step hs with
  | still calls saved next => exact h.imp fun _ hc => ⟨calls ▸ hc.1, hc.2⟩
  | issue call phase number calls saved next =>
    exact h.imp fun _ hc => ⟨calls ▸ List.mem_append_left _ hc.1, hc.2⟩
  | move call calls saved next permit sent | store call calls saved next =>
    exact (h.setPhase call).imp fun _ hc => ⟨calls ▸ hc.1, hc.2⟩

theorem grows {s t : UdpSender} (hs : s.step a = some t) : s.socket <+: t.socket := by
  cases a with
  | sendMessage seq d | sendMessageAutoSeq d => exact Option.some.inj hs ▸ List.prefix_rfl
  | acquire i =>
    obtain ⟨c, -, -, -, rfl⟩ := acquire_eq_some hs
    exact List.prefix_rfl
  | sendTimeout i =>
    obtain ⟨c, -, -, rfl⟩ := sendTimeout_eq_some hs
    exact List.prefix_rfl
  | store i =>
    obtain ⟨c, -, -, rfl⟩ := store_eq_some hs
    exact List.prefix_rfl
  | track i now =>
    obtain ⟨c, -, -, rfl⟩ := track_eq_some hs
    exact List.prefix_rfl
  | transmit i ok =>
    obtain ⟨c, -, -, ⟨-, rfl⟩ | ⟨-, rfl⟩⟩ := transmit_eq_some hs
    · exact List.prefix_append _ _
    · exact List.prefix_rfl
  | forget i =>
    obtain ⟨c, -, -, rfl⟩ := forget_eq_some hs
    exact List.prefix_rfl
  | recvFrom m =>
    obtain rfl | ⟨typ, -, -, rfl⟩ := recvFrom_eq_some hs
    · exact List.prefix_rfl
    · exact List.prefix_rfl
  | enqueue =>
    obtain ⟨e, -, rfl⟩ := enqueue_eq_some hs
    exact List.prefix_rfl
  | handleEvent ok =>
    obtain ⟨e, rest, -, ⟨-, rfl⟩ | ⟨sent, rfl, -⟩⟩ := handleEvent_eq_some hs
    · obtain ⟨w, heq⟩ := acknowledge_eq { s with events := rest } e.2
      rw [heq]
    · exact List.prefix_append _ _
  | tick now order =>
    obtain ⟨-, f, -, rfl⟩ := tick_eq_some hs
    exact List.prefix_rfl
  | retransmit ok =>
    obtain ⟨e, rest, sent, -, rfl, -⟩ := retransmit_eq_some hs
    exact List.prefix_append _ _

structure Settled (Q : Nat → Prop) (s : UdpSender) : Prop where
  received : ∀ e ∈ s.received, e.1 = .ack → Q e.2
  events : ∀ e ∈ s.events, e.1 = .ack → Q e.2
  calls : ∀ c ∈ s.calls, c.phase.inserted = true → s.inFlight.lookup c.seq = none → Q c.seq

theorem Settled.mono {s : UdpSender} (h : s.Settled Q) (hQR : ∀ n, Q n → R n) : s.Settled R where
  received e he ht := hQR _ (h.received e he ht)
  events e he ht := hQR _ (h.events e he ht)
  calls c hc hp hl := hQR _ (h.calls c hc hp hl)

theorem Settled.move {s : UdpSender} (h : s.Settled Q) (hc : s.calls[i]? = some c)
    (hp : p.inserted = true → c.phase.inserted = true) :
    Settled Q { s with calls := s.setPhase i c p } where
  received := h.received
  events := h.events
  calls c' hc' hp' hl := by
    obtain hc' | rfl := mem_of_mem_setPhase hc'
    · exact h.calls c' hc' hp' hl
    · exact h.calls c (List.mem_of_getElem? hc) (hp hp') hl

theorem Settled.call {s : UdpSender} (h : s.Settled Q) : (s.sendMessage seq d).Settled Q where
  received := h.received
  events := h.events
  calls c hc hp hl := by
    obtain hc | hc := List.mem_append.mp hc
    · exact h.calls c hc hp hl
    · rw [List.mem_singleton.mp hc] at hp
      contradiction

theorem Settled.step {s t : UdpSender} (h : s.Settled Q)
    (hm : ∀ m, a = .recvFrom m → m.typ = .ack → Q m.seq) (hs : s.step a = some t) :
    t.Settled Q := by
  cases a with
  | sendMessage seq d => exact Option.some.inj hs ▸ h.call
  | sendMessageAutoSeq d =>
    have h' : Settled Q { s with nextSeq := s.nextSeq + 1 } := { h with }
    exact Option.some.inj hs ▸ h'.call
  | acquire i =>
    obtain ⟨c, hc, hp, -, rfl⟩ := acquire_eq_some hs
    exact { h.move hc (p := .acquired) (by simp [SendPhase.inserted]) with }
  | sendTimeout i =>
    obtain ⟨c, hc, hp, rfl⟩ := sendTimeout_eq_some hs
    exact h.move hc (by simp [SendPhase.inserted])
  | store i =>
    obtain ⟨c, hc, hp, rfl⟩ := store_eq_some hs
    exact { h.move hc (p := .stored) (by simp [SendPhase.inserted]) with }
  | track i now =>
    obtain ⟨c, hc, hp, rfl⟩ := track_eq_some hs
    refine { h with calls := fun c' hc' hp' hl => ?_ }
    rw [Map.lookup_insert] at hl
    split at hl
    · contradiction
    · obtain hc' | rfl := mem_of_mem_setPhase hc'
      · exact h.calls c' hc' hp' hl
      · contradiction
  | transmit i ok =>
    obtain ⟨c, hc, hp, ⟨-, rfl⟩ | ⟨-, rfl⟩⟩ := transmit_eq_some hs
    · exact { h.move hc (p := .sent) (by simp [hp, SendPhase.inserted]) with }
    · exact { h.move hc (p := .returned (.error .io)) (by simp [hp, SendPhase.inserted]) with }
  | forget i =>
    obtain ⟨c, hc, hp, rfl⟩ := forget_eq_some hs
    exact h.move hc (by simp [hp, SendPhase.inserted])
  | recvFrom m =>
    obtain rfl | ⟨typ, -, htyp, rfl⟩ := recvFrom_eq_some hs
    · exact h
    · refine { h with received := ?_ }
      rintro _ ⟨⟩ rfl
      exact hm m rfl htyp
  | enqueue =>
    obtain ⟨e, he, rfl⟩ := enqueue_eq_some hs
    refine { h with received := by rintro _ ⟨⟩, events := fun e' he' ht => ?_ }
    obtain he' | he' := List.mem_append.mp he'
    · exact h.events e' he' ht
    · rw [List.mem_singleton.mp he'] at ht ⊢
      exact h.received e he ht
  | handleEvent ok =>
    obtain ⟨e, rest, he, hcase⟩ := handleEvent_eq_some hs
    have hrest : Settled Q { s with events := rest } :=
      { h with events := fun e' he' => h.events e' (he ▸ List.mem_cons_of_mem _ he') }
    obtain ⟨ht, rfl⟩ | ⟨sent, rfl, -⟩ := hcase
    · obtain ⟨w, heq⟩ := acknowledge_eq { s with events := rest } e.2
      rw [heq]
      refine { hrest with calls := fun c hc hp hl => ?_ }
      rw [Map.lookup_erase] at hl
      split at hl
      next hseq => exact hseq ▸ h.events e (he ▸ List.mem_cons_self) ht
      next => exact h.calls c hc hp hl
    · exact { hrest with }
  | tick now order =>
    obtain ⟨-, f, -, rfl⟩ := tick_eq_some hs
    refine { h with calls := fun c hc hp hl => h.calls c hc hp ?_ }
    exact Option.map_eq_none_iff.mp ((Map.lookup_mapVal _ _ _).symm.trans hl)
  | retransmit ok =>
    obtain ⟨e, rest, sent, -, rfl, -⟩ := retransmit_eq_some hs
    exact { h with }

theorem Settled.new (config : FlowControlConfig) : (UdpSender.new config).Settled Q where
  received _ h := nomatch h
  events _ h := nomatch h
  calls _ h := nomatch h

/-- The send window as credits: free permits, calls that hold a permit without an entry in
`in_flight`, and the entries of `in_flight`. -/
def window (s : UdpSender) : Window where
  free := s.sendWindow
  reserved := s.calls.countP fun c => c.phase.holding
  occupied := s.inFlight.size

def sendsSucceed : Action → Bool
  | .transmit _ ok => ok
  | _ => true

/-- All numbers are distinct and every `socket.send` of a call succeeds. -/
def Undisturbed (s : UdpSender) (a : Action) : Prop := s.FreshSeq a ∧ sendsSucceed a = true

instance (s : UdpSender) (a : Action) : Decidable (s.Undisturbed a) :=
  inferInstanceAs (Decidable (_ ∧ _))

theorem Coherent.lookup_eq_none {s : UdpSender} {c : SendCall} {i : Nat} (h : s.Coherent)
    (hc : s.calls[i]? = some c) (hp : c.phase.inserted = false) :
    s.inFlight.lookup c.seq = none := by
  cases hl : s.inFlight.lookup c.seq with
  | none => rfl
  | some m =>
    obtain ⟨c', hc', hseq, -, hp'⟩ := h.owned _ m hl
    have := List.inj_on_of_nodup_map h.distinct hc' (List.mem_of_getElem? hc) hseq
    subst this
    rw [hp] at hp'
    contradiction

theorem window_setPhase {s : UdpSender} {c : SendCall} {p : SendPhase} {i : Nat}
    (hc : s.calls[i]? = some c)
    (hp : c.phase.holding = p.holding) :
    (s.setPhase i c p).countP (fun c => c.phase.holding) =
      s.calls.countP fun c => c.phase.holding := by
  have := countP_setPhase (p := p) SendPhase.holding hc
  rw [hp] at this
  omega

theorem window_acknowledge (s : UdpSender) (seq : Nat) :
    (s.acknowledge seq).window = s.window ∨
      s.window.step .release = some (s.acknowledge seq).window := by
  unfold acknowledge
  split
  next m hm => exact .inr (Window.step_release rfl rfl (Map.size_erase hm).symm)
  next => exact .inl rfl

theorem Coherent.overwrites_eq_false {s t : UdpSender} {a : Action} (h : s.Coherent)
    (hs : s.step a = some t) : s.overwrites a = false := by
  cases a with
  | track i now =>
    obtain ⟨c, hc, hp, -⟩ := track_eq_some hs
    have hnone := h.lookup_eq_none hc (by rw [hp]; rfl)
    simp [overwrites, callAt_eq_some.mpr ⟨hc, hp⟩, hnone]
  | _ => rfl

theorem window_step {s t : UdpSender} {a : Action} (ho : s.overwrites a = false)
    (ha : sendsSucceed a = true) (hs : s.step a = some t) :
    t.window = s.window ∨ ∃ b, s.window.step b = some t.window := by
  cases a with
  | sendMessage seq d =>
    rw [← Option.some.inj hs]
    exact .inl (by simp [window, sendMessage, SendPhase.holding])
  | sendMessageAutoSeq d =>
    rw [← Option.some.inj hs]
    exact .inl (by simp [window, sendMessageAutoSeq, sendMessage, SendPhase.holding])
  | acquire i =>
    obtain ⟨c, hc, hp, hw, rfl⟩ := acquire_eq_some hs
    have hcount := countP_setPhase (p := .acquired) SendPhase.holding hc
    rw [hp] at hcount
    exact .inr ⟨.reserve, Window.step_reserve (Nat.succ_pred_eq_of_pos hw).symm hcount rfl⟩
  | sendTimeout i =>
    obtain ⟨c, hc, hp, rfl⟩ := sendTimeout_eq_some hs
    exact .inl (by simp only [window]; rw [window_setPhase hc (by rw [hp]; rfl)])
  | store i =>
    obtain ⟨c, hc, hp, rfl⟩ := store_eq_some hs
    exact .inl (by simp only [window]; rw [window_setPhase hc (by rw [hp]; rfl)])
  | track i now =>
    obtain ⟨c, hc, hp, rfl⟩ := track_eq_some hs
    have hcount := countP_setPhase (p := .tracked) SendPhase.holding hc
    have hnone : s.inFlight.lookup c.seq = none := by
      simpa [overwrites, callAt_eq_some.mpr ⟨hc, hp⟩] using ho
    rw [hp] at hcount
    exact .inr ⟨.occupy, Window.step_occupy rfl hcount.symm (Map.size_insert hnone)⟩
  | transmit i ok =>
    obtain ⟨c, hc, hp, ⟨-, rfl⟩ | ⟨hok, -⟩⟩ := transmit_eq_some hs
    · exact .inl (by simp only [window]; rw [window_setPhase hc (by rw [hp]; rfl)])
    · rw [hok] at ha
      contradiction
  | forget i =>
    obtain ⟨c, hc, hp, rfl⟩ := forget_eq_some hs
    exact .inl (by simp only [window]; rw [window_setPhase hc (by rw [hp]; rfl)])
  | recvFrom m =>
    obtain rfl | ⟨typ, -, -, rfl⟩ := recvFrom_eq_some hs
    · exact .inl rfl
    · exact .inl rfl
  | enqueue =>
    obtain ⟨e, -, rfl⟩ := enqueue_eq_some hs
    exact .inl rfl
  | handleEvent ok =>
    obtain ⟨e, rest, -, ⟨-, rfl⟩ | ⟨sent, rfl, -⟩⟩ := handleEvent_eq_some hs
    · exact (window_acknowledge { s with events := rest } e.2).imp_right fun h => ⟨_, h⟩
    · exact .inl rfl
  | tick now order =>
    obtain ⟨-, f, -, rfl⟩ := tick_eq_some hs
    exact .inl (by simp [window])
  | retransmit ok =>
    obtain ⟨e, rest, sent, -, rfl, -⟩ := retransmit_eq_some hs
    exact .inl rfl

def windowSimulation (config : FlowControlConfig) :
    (machine config).Simulation Undisturbed (Window.machine config.sendWindowSize) where
  abs := window
  init := rfl
  step hr hC hs :=
    have hc := coherent_of_reaches (hr.mono fun _ _ h => h.1)
    window_step (hc.overwrites_eq_false hs) hC.2 hs

theorem send_window_accounting {config : FlowControlConfig} {s : UdpSender}
    (h : (machine config).Reaches Undisturbed s) :
    s.sendWindow + s.inFlight.size + s.calls.countP (fun c => c.phase.holding) =
        config.sendWindowSize ∧
      s.inFlight.size ≤ config.sendWindowSize ∧
      (s.inFlight.size = 0 → s.calls.countP (fun c => c.phase.holding) = 0 →
        s.sendWindow = config.sendWindowSize) := by
  have hw := (windowSimulation config).reachable h
  have htotal := Window.total_eq_size hw
  have hle := Window.occupied_le hw
  refine ⟨?_, hle, fun ho hr => Window.free_eq_size hw hr ho⟩
  simp only [Window.total, windowSimulation, window] at htotal
  omega

theorem send_window_accounting_early_ack :
    ∃ s, (machine .default).Reaches Undisturbed s ∧ s.calls ≠ [] ∧ s.sendWindow = 10 := by
  obtain ⟨s, hs, hcalls, hempty, hnone⟩ := Machine.exists_reaches_of_replay
    (M := machine .default) (C := Undisturbed)
    (P := fun s => s.calls ≠ [] ∧ s.inFlight.size = 0 ∧
      s.calls.countP (fun c => c.phase.holding) = 0)
    [.sendMessage 7 "a", .acquire 0, .store 0, .track 0 0, .transmit 0 true,
      .recvFrom (ackMessage 7), .enqueue, .handleEvent true, .forget 0] (by decide)
  exact ⟨s, hs, hcalls, (send_window_accounting hs).2.2 hempty hnone⟩

end UdpSender

end BdsPro.Udp
