import BdsPro.Udp.AutoSeqLaws
import BdsPro.Udp.Bin.Exchange
import BdsPro.Udp.WindowReuseLaws

namespace BdsPro.Udp

open BdsPro.Library

namespace UdpSender

variable {config : FlowControlConfig}

def background : Action → Bool
  | .recvFrom _ | .enqueue | .handleEvent _ | .tick _ _ | .retransmit _ => true
  | _ => false

structure Attended (s t : UdpSender) : Prop where
  calls : t.calls = s.calls
  next : t.nextSeq = s.nextSeq
  inFlight : ∀ n m, t.inFlight.lookup n = some m →
    ∃ m', s.inFlight.lookup n = some m' ∧ m'.data = m.data

theorem Attended.refl (s : UdpSender) : s.Attended s := ⟨rfl, rfl, fun _ m hm => ⟨m, hm, rfl⟩⟩

theorem Attended.trans {s t u : UdpSender} (h : s.Attended t) (h' : t.Attended u) :
    s.Attended u where
  calls := h'.calls.trans h.calls
  next := h'.next.trans h.next
  inFlight n m hm := by
    obtain ⟨m', hm', hdata'⟩ := h'.inFlight n m hm
    obtain ⟨m'', hm'', hdata⟩ := h.inFlight n m' hm'
    exact ⟨m'', hm'', hdata.trans hdata'⟩

theorem Attended.settled {s t : UdpSender} (h : s.Attended t) (n : Nat)
    (hn : s.inFlight.lookup n = none) : t.inFlight.lookup n = none := by
  refine Option.eq_none_iff_forall_ne_some.mpr fun m hm => ?_
  obtain ⟨m', hm', -⟩ := h.inFlight n m hm
  rw [hn] at hm'
  contradiction

theorem attended_acknowledge (s : UdpSender) (seq : Nat) : s.Attended (s.acknowledge seq) := by
  obtain ⟨w, heq⟩ := acknowledge_eq s seq
  rw [heq]
  exact ⟨rfl, rfl, fun n m hm => ⟨m, (Map.lookup_of_erase hm).2, rfl⟩⟩

theorem attended_of_step {s t : UdpSender} (hb : background a = true) (hs : s.step a = some t) :
    s.Attended t := by
  cases a with
  | recvFrom m =>
    obtain rfl | ⟨typ, -, -, rfl⟩ := recvFrom_eq_some hs
    · exact .refl _
    · exact ⟨rfl, rfl, (Attended.refl s).inFlight⟩
  | enqueue =>
    obtain ⟨e, -, rfl⟩ := enqueue_eq_some hs
    exact ⟨rfl, rfl, (Attended.refl s).inFlight⟩
  | handleEvent ok =>
    obtain ⟨e, rest, -, ⟨-, rfl⟩ | ⟨sent, rfl, -⟩⟩ := handleEvent_eq_some hs
    · have h := attended_acknowledge { s with events := rest } e.2
      exact ⟨h.calls, h.next, h.inFlight⟩
    · exact ⟨rfl, rfl, (Attended.refl s).inFlight⟩
  | tick time order =>
    obtain ⟨-, f, hf, rfl⟩ := tick_eq_some hs
    refine ⟨rfl, rfl, fun n m hm => ?_⟩
    obtain ⟨m', hm', rfl⟩ := Option.map_eq_some_iff.mp ((Map.lookup_mapVal _ _ _).symm.trans hm)
    exact ⟨m', hm', (hf m').symm⟩
  | retransmit ok =>
    obtain ⟨e, rest, sent, -, rfl, -⟩ := retransmit_eq_some hs
    exact ⟨rfl, rfl, (Attended.refl s).inFlight⟩
  | _ => contradiction

def Attends (now : Nat) (Q : Message → Prop) (_ : UdpSender) : Action → Prop
  | .recvFrom m => Q m
  | .enqueue => True
  | .handleEvent ok | .retransmit ok => ok = true
  | .tick time _ => time = now
  | _ => False

theorem Attends.background {s : UdpSender} (hC : s.Attends now Q a) : background a = true := by
  cases a with
  | recvFrom | enqueue | handleEvent | tick | retransmit => rfl
  | _ => contradiction

theorem attended_of_leads {s t : UdpSender} (h : (machine config).Leads (Attends now Q) s t) :
    s.Attended t :=
  h.invariant (.refl s) fun _ _ _ ih hC hs => ih.trans (attended_of_step hC.background hs)

theorem socket_of_leads {s t : UdpSender} {C : UdpSender → Action → Prop}
    (h : (machine config).Leads C s t) : s.socket <+: t.socket :=
  h.invariant (I := fun t => s.socket <+: t.socket) List.prefix_rfl
    fun _ _ _ ih _ hs => ih.trans (grows hs)

theorem leads_of_step {s t : UdpSender} (hs : s.step a = some t) (hC : s.Attends now Q a) :
    (machine config).Leads (Attends now Q) s t := .single hC hs

theorem handleEvent_front {s : UdpSender} (he : s.events = e :: rest) :
    ∃ t, s.step (.handleEvent true) = some t ∧ t.events = rest ∧ t.received = s.received := by
  obtain ⟨t, ht⟩ : ∃ t, s.handleEvent true = some t := by
    unfold handleEvent
    rw [he]
    split
    next h => contradiction
    next => exact ⟨_, rfl⟩
    next => exact ⟨_, rfl⟩
    next => exact ⟨_, rfl⟩
  obtain ⟨e', rest', he', hcase⟩ := handleEvent_eq_some ht
  obtain ⟨rfl, rfl⟩ := List.cons.inj (he.symm.trans he')
  refine ⟨t, ht, ?_⟩
  obtain ⟨-, rfl⟩ | ⟨sent, rfl, -⟩ := hcase
  · obtain ⟨w, heq⟩ := acknowledge_eq { s with events := rest } e.2
    rw [heq]
    exact ⟨rfl, rfl⟩
  · exact ⟨rfl, rfl⟩

section

variable (config) (now : Nat)

theorem drain_events (Q : Message → Prop) (s : UdpSender) :
    ∃ t, (machine config).Leads (Attends now Q) s t ∧ t.received = s.received ∧ t.events = [] := by
  refine Machine.Leads.of_variant (P := fun t : UdpSender => t.received = s.received)
    (fun t : UdpSender => t.events.length) (fun t ht => ?_) rfl
  cases he : t.events with
  | nil => exact .inl rfl
  | cons e rest =>
    obtain ⟨u, hu, hevents, hreceived⟩ := handleEvent_front he
    refine .inr ⟨u, leads_of_step hu rfl, hreceived.trans ht, ?_⟩
    simp only [hevents, List.length_cons, Nat.lt_succ_self]

theorem drain_received (Q : Message → Prop) (s : UdpSender) :
    ∃ t, (machine config).Leads (Attends now Q) s t ∧ t.received = none ∧ t.events = [] := by
  obtain ⟨t, ht, -, hempty⟩ := drain_events config now Q s
  cases hr : t.received with
  | none => exact ⟨t, ht, hr, hempty⟩
  | some e =>
    have hstep : t.step .enqueue = some { t with received := none, events := t.events ++ [e] } := by
      simp only [step, enqueue, hr, hempty, Option.bind_some, List.length_nil, eventQueueLen]
      rfl
    obtain ⟨u, hu, hnone, hempty⟩ := drain_events config now Q
      { t with received := none, events := t.events ++ [e] }
    exact ⟨u, ht.trans (.trans (leads_of_step hstep trivial) hu), hnone, hempty⟩

theorem handle_ack {Q : Message → Prop} (hQ : Q (ackMessage n))
    (hfits : (ackMessage n).encodedLen ≤ recvBufferLen) (s : UdpSender) :
    ∃ t, (machine config).Leads (Attends now Q) s t ∧ t.inFlight.lookup n = none := by
  obtain ⟨t, ht, hnone, hempty⟩ := drain_received config now Q s
  have hread : t.step (.recvFrom (ackMessage n)) = some { t with received := some (.ack, n) } := by
    simp only [step, recvFrom, hnone, if_true, Message.fromSlice, if_pos hfits]
    rfl
  have hqueue : UdpSender.step { t with received := some (.ack, n) } .enqueue =
      some { t with received := none, events := t.events ++ [(.ack, n)] } := by
    simp only [step, enqueue, hempty, Option.bind_some, List.length_nil, eventQueueLen]
    rfl
  have hhandle : UdpSender.step { t with received := none, events := t.events ++ [(.ack, n)] }
      (.handleEvent true) =
        some ({ t with received := none, events := [] }.acknowledge n) := by
    simp only [step, handleEvent, hempty, List.nil_append]
  refine ⟨_, ht.trans (.trans (leads_of_step hread hQ) (.trans (leads_of_step hqueue trivial)
    (leads_of_step hhandle rfl))), ?_⟩
  obtain ⟨w, heq⟩ := acknowledge_eq { t with received := none, events := [] } n
  rw [heq]
  exact Map.lookup_erase_self _ _

theorem drain_timer (Q : Message → Prop) (s : UdpSender) :
    ∃ t, (machine config).Leads (Attends now Q) s t ∧ t.inFlight = s.inFlight ∧
      t.flowControl = s.flowControl ∧ t.toRetransmit = [] ∧
      ∀ e ∈ s.toRetransmit, dataMessage e.1 e.2 ∈ t.socket := by
  induction hl : s.toRetransmit generalizing s with
  | nil => exact ⟨s, .refl, rfl, rfl, hl, by simp⟩
  | cons e rest ih =>
    have hstep : s.step (.retransmit true) = some { s with
        toRetransmit := rest, socket := s.socket ++ [dataMessage e.1 e.2] } := by
      simp only [step, retransmit, hl, resend, if_true]
    obtain ⟨t, ht, hflight, hconfig, hempty, hsent⟩ := ih
      { s with toRetransmit := rest, socket := s.socket ++ [dataMessage e.1 e.2] } rfl
    refine ⟨t, .trans (leads_of_step hstep rfl) ht, hflight, hconfig, hempty, fun e' he' => ?_⟩
    rcases List.mem_cons.mp he' with rfl | he'
    · exact (socket_of_leads ht).subset (List.mem_append_right _ (List.mem_singleton_self _))
    · exact hsent e' he'

end

def Resent (s : UdpSender) : Prop :=
  ∀ n m, s.inFlight.lookup n = some m → dataMessage n m.data ∈ s.socket

theorem Resent.leads {s t : UdpSender} (h : s.Resent)
    (ht : (machine config).Leads (Attends now Q) s t) : t.Resent := by
  intro n m hm
  obtain ⟨m', hm', hdata⟩ := (attended_of_leads ht).inFlight n m hm
  exact (socket_of_leads ht).subset (hdata ▸ h n m' hm')

theorem resend_all (config : FlowControlConfig) {s : UdpSender} (Q : Message → Prop)
    (late : ∀ n m, s.inFlight.lookup n = some m → m.sentTime + s.flowControl.ackTimeout < now) :
    ∃ t, (machine config).Leads (Attends now Q) s t ∧ t.Resent := by
  obtain ⟨t, ht, hflight, hconfig, hempty, -⟩ := drain_timer config now Q s
  obtain ⟨t', htick, hticked, hcollected⟩ :
      ∃ t', t.step (.tick now (t.expired now).toList) = some t' ∧
        t'.inFlight = t.inFlight.mapVal (fun _ m => if t.timedOut now m then
          { m with sentTime := now, retransmitCount := m.retransmitCount + 1 } else m) ∧
        t'.toRetransmit = (t.expired now).toList :=
    ⟨_, if_pos ⟨hempty, Multiset.coe_toList _⟩, rfl, rfl⟩
  obtain ⟨u, hu, hsame, -, -, hsent⟩ := drain_timer config now Q t'
  refine ⟨u, ht.trans (.trans (leads_of_step htick rfl) hu), fun n m hm => ?_⟩
  rw [hsame, hticked, Map.lookup_mapVal] at hm
  obtain ⟨m', hm', rfl⟩ := Option.map_eq_some_iff.mp hm
  have hexpired : (n, m'.data) ∈ t.expired now := by
    refine Multiset.mem_map.mpr ⟨(n, m'), Map.mem_select.mpr ⟨hm', ?_⟩, rfl⟩
    have hlate := late n m' (hflight ▸ hm')
    simp only [timedOut, hconfig, decide_eq_true_eq]
    omega
  have hdata := hsent (n, m'.data) (hcollected ▸ Multiset.mem_toList.mpr hexpired)
  split <;> exact hdata

def Finishes (now : Nat) (_ : UdpSender) : Action → Prop
  | .acquire _ | .store _ | .forget _ => True
  | .track _ time => time = now
  | .transmit _ ok => ok = true
  | _ => False

theorem finishes_of_step {s t : UdpSender} (hs : s.step a = some t) (hC : s.Finishes now a) :
    (machine config).Leads (Finishes now) s t := .single hC hs

theorem callAt_of {s : UdpSender} {c : SendCall} {i : Nat} (hi : s.calls[i]? = some c)
    (hp : c.phase = p) : s.callAt i p = some c := callAt_eq_some.mpr ⟨hi, hp⟩

theorem getElem?_setPhase {s : UdpSender} {c : SendCall} {i : Nat} (hi : s.calls[i]? = some c)
    (p : SendPhase) : (s.setPhase i c p)[i]? = some { c with phase := p } := Table.set_self hi _

theorem setPhase_setPhase {s t : UdpSender} {c : SendCall} {i : Nat} {p : SendPhase}
    (h : t.calls = s.setPhase i c p) (q : SendPhase) :
    t.setPhase i { c with phase := p } q = s.setPhase i c q := by
  simp only [setPhase, h, List.set_set]

structure Finished (s : UdpSender) (i : Nat) (c : SendCall) (t : UdpSender) : Prop where
  calls : t.calls = s.setPhase i c (.returned (.ok ()))
  next : t.nextSeq = s.nextSeq
  sent : c.phase.transmitted = false → dataMessage c.seq c.data ∈ t.socket
  inFlight : ∀ n m, t.inFlight.lookup n = some m →
    s.inFlight.lookup n = some m ∨ dataMessage n m.data ∈ t.socket

theorem Finished.cons {s t u : UdpSender} {i : Nat} {c : SendCall} {p : SendPhase}
    (h : t.Finished i { c with phase := p } u) (calls : t.calls = s.setPhase i c p)
    (next : t.nextSeq = s.nextSeq)
    (sent : p.transmitted = true → dataMessage c.seq c.data ∈ u.socket)
    (inFlight : ∀ n m, t.inFlight.lookup n = some m → s.inFlight.lookup n = some m ∨
      p.transmitted = false ∧ dataMessage n m.data = dataMessage c.seq c.data) :
    s.Finished i c u where
  calls := h.calls.trans (setPhase_setPhase calls _)
  next := h.next.trans next
  sent _ := by
    cases hp : p.transmitted with
    | true => exact sent hp
    | false => exact h.sent hp
  inFlight n m hm := by
    rcases h.inFlight n m hm with hm | hmem
    · refine (inFlight n m hm).imp_right fun ⟨hp, heq⟩ => ?_
      exact heq ▸ h.sent hp
    · exact .inr hmem

section

variable (config) (now : Nat)

theorem finish_sent {s : UdpSender} {c : SendCall} {i : Nat} (hi : s.calls[i]? = some c)
    (hp : c.phase = .sent) :
    ∃ t, (machine config).Leads (Finishes now) s t ∧ s.Finished i c t := by
  have hs : s.step (.forget i) = some { s with calls := s.setPhase i c (.returned (.ok ())) } := by
    simp only [step, forget, callAt_of hi hp, Option.map_some]
  refine ⟨_, finishes_of_step hs trivial, rfl, rfl, fun hnot => ?_, fun _ _ => .inl⟩
  rw [hp] at hnot
  contradiction

theorem finish_tracked {s : UdpSender} {c : SendCall} {i : Nat} (hi : s.calls[i]? = some c)
    (hp : c.phase = .tracked) :
    ∃ t, (machine config).Leads (Finishes now) s t ∧ s.Finished i c t := by
  have hs : s.step (.transmit i true) = some { s with
      socket := s.socket ++ [dataMessage c.seq c.data], calls := s.setPhase i c .sent } := by
    simp only [step, transmit, callAt_of hi hp, Option.map_some, if_true]
  obtain ⟨t, ht, hfinished⟩ := finish_sent config now
    (s := { s with
      socket := s.socket ++ [dataMessage c.seq c.data], calls := s.setPhase i c .sent })
    (getElem?_setPhase hi .sent) rfl
  refine ⟨t, .trans (finishes_of_step hs rfl) ht,
    hfinished.cons rfl rfl (fun _ => ?_) fun _ _ => .inl⟩
  exact (socket_of_leads ht).subset (List.mem_append_right _ (List.mem_singleton_self _))

theorem finish_stored {s : UdpSender} {c : SendCall} {i : Nat} (hi : s.calls[i]? = some c)
    (hp : c.phase = .stored) :
    ∃ t, (machine config).Leads (Finishes now) s t ∧ s.Finished i c t := by
  have hs : s.step (.track i now) = some { s with
      inFlight := s.inFlight.insert c.seq ⟨c.seq, c.data, now, 0⟩
      calls := s.setPhase i c .tracked } := by
    simp only [step, track, callAt_of hi hp, Option.map_some]
  obtain ⟨t, ht, hfinished⟩ := finish_tracked config now
    (s := { s with
      inFlight := s.inFlight.insert c.seq ⟨c.seq, c.data, now, 0⟩
      calls := s.setPhase i c .tracked })
    (getElem?_setPhase hi .tracked) rfl
  refine ⟨t, .trans (finishes_of_step hs rfl) ht,
    hfinished.cons rfl rfl (by simp [SendPhase.transmitted]) fun n m hm => ?_⟩
  rw [Map.lookup_insert] at hm
  split at hm
  next heq => exact .inr ⟨rfl, by rw [heq, ← Option.some.inj hm]⟩
  next => exact .inl hm

theorem finish_acquired {s : UdpSender} {c : SendCall} {i : Nat} (hi : s.calls[i]? = some c)
    (hp : c.phase = .acquired) :
    ∃ t, (machine config).Leads (Finishes now) s t ∧ s.Finished i c t := by
  have hs : s.step (.store i) = some { s with
      sentMessages := s.sentMessages.insert c.seq c.data, calls := s.setPhase i c .stored } := by
    simp only [step, store, callAt_of hi hp, Option.map_some]
  obtain ⟨t, ht, hfinished⟩ := finish_stored config now
    (s := { s with
      sentMessages := s.sentMessages.insert c.seq c.data, calls := s.setPhase i c .stored })
    (getElem?_setPhase hi .stored) rfl
  exact ⟨t, .trans (finishes_of_step hs trivial) ht,
    hfinished.cons rfl rfl (by simp [SendPhase.transmitted]) fun _ _ => .inl⟩

theorem finish_acquiring {s : UdpSender} {c : SendCall} {i : Nat} (hi : s.calls[i]? = some c)
    (hp : c.phase = .acquiring) (hw : 0 < s.sendWindow) :
    ∃ t, (machine config).Leads (Finishes now) s t ∧ s.Finished i c t := by
  have hs : s.step (.acquire i) = some { s with
      sendWindow := s.sendWindow - 1, calls := s.setPhase i c .acquired } := by
    simp only [step, acquire, callAt_of hi hp, Option.bind_some, if_pos hw]
  obtain ⟨t, ht, hfinished⟩ := finish_acquired config now
    (s := { s with sendWindow := s.sendWindow - 1, calls := s.setPhase i c .acquired })
    (getElem?_setPhase hi .acquired) rfl
  exact ⟨t, .trans (finishes_of_step hs trivial) ht,
    hfinished.cons rfl rfl (by simp [SendPhase.transmitted]) fun _ _ => .inl⟩

theorem finish_call {s : UdpSender} {c : SendCall} {i : Nat} (hi : s.calls[i]? = some c)
    (going : c.phase.over = false) (hw : c.phase = .acquiring → 0 < s.sendWindow) :
    ∃ t, (machine config).Leads (Finishes now) s t ∧ s.Finished i c t := by
  cases hp : c.phase with
  | acquiring => exact finish_acquiring config now hi hp (hw hp)
  | acquired => exact finish_acquired config now hi hp
  | stored => exact finish_stored config now hi hp
  | tracked => exact finish_tracked config now hi hp
  | sent => exact finish_sent config now hi hp
  | returned result =>
    rw [hp] at going
    contradiction

end

theorem Finished.resent {s t : UdpSender} {i : Nat} {c : SendCall} (h : s.Finished i c t)
    (hs : s.Resent) (grows : s.socket <+: t.socket) : t.Resent := fun n m hm =>
  (h.inFlight n m hm).elim (fun hm => grows.subset (hs n m hm)) id

theorem size_le_total {s : UdpSender} (h : (machine config).Reaches FreshSeq s) :
    config.sendWindowSize ≤ s.window.total := by
  refine h.invariant (I := fun s => config.sendWindowSize ≤ s.window.total) ?_
    fun s a t hr ih hf hs => ?_
  · simp [machine, new, window, Window.total]
  · cases ha : sendsSucceed a with
    | true =>
      have htotal := total_step ha hs
      rw [(coherent_of_reaches hr).overwrites_eq_false hs] at htotal
      exact ih.trans_eq htotal.symm
    | false =>
      cases a with
      | transmit i ok =>
        obtain ⟨c, hc, hp, ⟨rfl, -⟩ | ⟨-, rfl⟩⟩ := transmit_eq_some hs
        · contradiction
        · have hreserved := window_setPhase (p := .returned (.error .io)) hc (by rw [hp]; rfl)
          simp only [Window.total, window] at ih hreserved ⊢
          omega
      | _ => contradiction

theorem calls_of_step {s t : UdpSender} (hs : s.step a = some t) (hc : c ∈ t.calls) :
    (∃ c' ∈ s.calls, c'.seq = c.seq ∧ c'.data = c.data) ∨
      s.message a = some (dataMessage c.seq c.data) := by
  have hmade {seq : Nat} {d : String} (hc : c ∈ s.calls ++ [⟨seq, d, .acquiring⟩]) :
      (∃ c' ∈ s.calls, c'.seq = c.seq ∧ c'.data = c.data) ∨
        some (dataMessage seq d) = some (dataMessage c.seq c.data) := by
    rcases List.mem_append.mp hc with hc | hc
    · exact .inl ⟨c, hc, rfl, rfl⟩
    · rw [List.mem_singleton.mp hc]
      exact .inr rfl
  cases a with
  | sendMessage seq d | sendMessageAutoSeq d =>
    rw [← Option.some.inj hs] at hc
    exact hmade hc
  | _ =>
    cases callsStep_of_step hs with
    | still calls saved next => exact .inl ⟨c, calls ▸ hc, rfl, rfl⟩
    | issue call phase number calls saved next => contradiction
    | move call calls saved next permit sent | store call calls saved next =>
      rcases mem_of_mem_setPhase (calls ▸ hc) with hold | rfl
      · exact .inl ⟨c, hold, rfl, rfl⟩
      · exact .inl ⟨_, List.mem_of_getElem? call, rfl, rfl⟩

theorem fits_of_reaches {s : UdpSender} (h : (machine config).Reaches Fitting s) :
    ∀ c ∈ s.calls, Fits (dataMessage c.seq c.data) := by
  refine h.invariant (I := fun s => ∀ c ∈ s.calls, Fits (dataMessage c.seq c.data))
    (by simp [machine, new]) fun s a t _ ih hC hs c hc => ?_
  rcases calls_of_step hs hc with ⟨c', hc', hseq, hdata⟩ | hnew
  · exact hseq ▸ hdata ▸ ih c' hc'
  · exact hC.2 _ hnew

theorem inserted_of_reaches {s : UdpSender} (h : (machine config).Reaches InTime s) :
    ∀ c ∈ s.calls, c.phase.over = true → c.phase.inserted = true := by
  refine h.invariant (I := fun s => ∀ c ∈ s.calls, c.phase.over = true → c.phase.inserted = true)
    (by simp [machine, new]) fun s a t _ ih hC hs => ?_
  have hmoved {i : Nat} {c : SendCall} {p : SendPhase}
      (hp : p.over = true → p.inserted = true) (c' : SendCall) (hc' : c' ∈ s.setPhase i c p) :
      c'.phase.over = true → c'.phase.inserted = true := by
    rcases mem_of_mem_setPhase hc' with hold | rfl
    · exact ih c' hold
    · exact hp
  have hs : s.step a = some t := hs
  cases a with
  | sendMessageAutoSeq d =>
    rw [← Option.some.inj hs]
    intro c hc
    rcases List.mem_append.mp hc with hc | hc
    · exact ih c hc
    · rw [List.mem_singleton.mp hc]
      exact nofun
  | acquire i =>
    obtain ⟨c, -, -, -, rfl⟩ := acquire_eq_some hs
    exact hmoved nofun
  | store i =>
    obtain ⟨c, -, -, rfl⟩ := store_eq_some hs
    exact hmoved nofun
  | track i now =>
    obtain ⟨c, -, -, rfl⟩ := track_eq_some hs
    exact hmoved nofun
  | transmit i ok =>
    obtain ⟨c, -, -, ⟨-, rfl⟩ | ⟨-, rfl⟩⟩ := transmit_eq_some hs
    · exact hmoved nofun
    · exact hmoved fun _ => rfl
  | forget i =>
    obtain ⟨c, -, -, rfl⟩ := forget_eq_some hs
    exact hmoved fun _ => rfl
  | sendMessage => exact absurd hC.1 nofun
  | sendTimeout => exact absurd hC.2 nofun
  | _ =>
    rw [(attended_of_step (by rfl) hs).calls]
    exact ih

end UdpSender

end BdsPro.Udp
