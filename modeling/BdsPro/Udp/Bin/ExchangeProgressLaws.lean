import BdsPro.Udp.Bin.ExchangeLaws
import BdsPro.Udp.SenderProgressLaws

namespace BdsPro.Udp.Bin

open BdsPro.Library

namespace Receiver

variable {timeout maxAttempts : Nat}

def Replies (now : Nat) (_ : Receiver) : Action → Prop
  | .ack ok => ok = true
  | .request ok time => ok = true ∧ time = now
  | .check time _ => time = now
  | .recvFrom _ => False

theorem replies_of_step {r t : Receiver} (hs : r.step a = some t) (hC : r.Replies now a) :
    (machine timeout maxAttempts).Leads (Replies now) r t := .single hC hs

theorem replied {r t : Receiver} (hC : r.Replies now a) (hs : r.step a = some t) :
    t.receivedSeqs = r.receivedSeqs ∧ r.socket <+: t.socket := by
  cases step_sound hs with
  | skip | record | stopAck | stopRequest => simp [Replies] at hC
  | ack | request => exact ⟨rfl, List.prefix_append _ _⟩
  | check now order phase timedOut =>
    obtain ⟨requests, counts, heq, -⟩ := retries_eq r (timedOut_nodup timedOut)
    rw [heq]
    exact ⟨rfl, List.prefix_rfl⟩

theorem replied_of_leads {r t : Receiver}
    (h : (machine timeout maxAttempts).Leads (Replies now) r t) :
    t.receivedSeqs = r.receivedSeqs ∧ r.socket <+: t.socket := by
  refine h.invariant (I := fun t => t.receivedSeqs = r.receivedSeqs ∧ r.socket <+: t.socket)
    ⟨rfl, List.prefix_rfl⟩ fun t a u ih hC hs => ?_
  obtain ⟨hreceived, hsocket⟩ := replied hC hs
  exact ⟨hreceived.trans ih.1, ih.2.trans hsocket⟩

theorem check_back (timeout maxAttempts now : Nat) {r : Receiver}
    (hp : r.phase = .requesting [] ∨ r.phase = .checking) :
    ∃ t, (machine timeout maxAttempts).Leads (Replies now) r t ∧ t.phase = .receiving := by
  have hs : r.step (.check now (r.timedOut now).toList) =
      some { (r.timedOut now).toList.foldl retry r with phase := .receiving } :=
    if_pos ⟨hp, Multiset.coe_toList _⟩
  exact ⟨_, replies_of_step hs rfl, rfl⟩

theorem request_back (timeout maxAttempts now : Nat) {r : Receiver} (hp : r.phase = .requesting l) :
    ∃ t, (machine timeout maxAttempts).Leads (Replies now) r t ∧ t.phase = .receiving := by
  induction l generalizing r with
  | nil => exact check_back timeout maxAttempts now (.inl hp)
  | cons seq rest ih =>
    have hs : r.step (.request true now) = some { r.track seq now with
        socket := r.socket ++ [rqstMessage seq], phase := .requesting rest } := by
      simp only [step, request, hp, if_true]
    obtain ⟨t, ht, hphase⟩ := ih (r := { r.track seq now with
      socket := r.socket ++ [rqstMessage seq], phase := .requesting rest }) rfl
    exact ⟨t, .trans (replies_of_step hs ⟨rfl, rfl⟩) ht, hphase⟩

theorem ack_back (timeout maxAttempts now : Nat) {r : Receiver} (hp : r.phase = .acking seq) :
    ∃ t, (machine timeout maxAttempts).Leads (Replies now) r t ∧ t.phase = .receiving ∧
      ackMessage seq ∈ t.socket := by
  have hs : r.step (.ack true) =
      some { r with socket := r.socket ++ [ackMessage seq], phase := r.detect } := by
    simp only [step, ack, hp, if_true]
  have hnext : ∃ t, (machine timeout maxAttempts).Leads (Replies now)
      { r with socket := r.socket ++ [ackMessage seq], phase := r.detect } t ∧
        t.phase = .receiving := by
    cases hd : r.detect with
    | requesting l => exact request_back timeout maxAttempts now rfl
    | checking => exact check_back timeout maxAttempts now (.inr rfl)
    | receiving | acking | stopped =>
      unfold detect at hd
      split at hd <;> contradiction
  obtain ⟨t, ht, hphase⟩ := hnext
  refine ⟨t, .trans (replies_of_step hs rfl) ht, hphase, ?_⟩
  exact (replied_of_leads ht).2.subset (List.mem_append_right _ (List.mem_singleton_self _))

theorem reads_again (timeout maxAttempts now : Nat) {r : Receiver} (running : r.phase ≠ .stopped) :
    ∃ t, (machine timeout maxAttempts).Leads (Replies now) r t ∧ t.phase = .receiving := by
  cases hp : r.phase with
  | receiving => exact ⟨r, .refl, hp⟩
  | acking seq =>
    obtain ⟨t, ht, hphase, -⟩ := ack_back timeout maxAttempts now hp
    exact ⟨t, ht, hphase⟩
  | requesting l => exact request_back timeout maxAttempts now hp
  | checking => exact check_back timeout maxAttempts now (.inr hp)
  | stopped => exact absurd hp running

end Receiver

namespace Exchange

variable {config : FlowControlConfig} {timeout maxAttempts : Nat}

theorem Quiet.fitting {x : Exchange} (h : x.Quiet now a) : x.Fitting a := by
  cases a with
  | sender a =>
    cases a with
    | sendMessage | sendMessageAutoSeq | sendTimeout => exact absurd h.1 nofun
    | _ => exact ⟨⟨rfl, rfl⟩, nofun⟩
  | receiver | deliver => trivial

theorem Fitting.inTime {x : Exchange} (h : x.Fitting a) : x.InTime a := by
  cases a with
  | sender a => exact h.1
  | receiver | deliver => trivial

theorem sender_fitting {x : Exchange}
    (h : (machine config timeout maxAttempts).Reaches Fitting x) :
    (UdpSender.machine config).Reaches UdpSender.Fitting x.sender := by
  refine (senderPart config timeout maxAttempts).reaches (h.mono fun x a ha b hb => ?_)
  cases a with
  | sender a =>
    cases hb
    exact ha
  | receiver | deliver => contradiction

theorem sender_leads {x : Exchange} {C : UdpSender → UdpSender.Action → Prop}
    (h : (UdpSender.machine config).Leads C x.sender s)
    (hC : ∀ s a, C s a → quiet (.sender a) = true ∧
      (∀ time ∈ reading (.sender a), time = now) ∧ ∀ m, a = .recvFrom m → m ∈ x.receiver.socket) :
    (machine config timeout maxAttempts).Leads (Quiet now) x { x with sender := s } := by
  refine h.embed (f := fun s => { x with sender := s }) (g := Action.sender) fun s a t ha hs => ?_
  obtain ⟨hquiet, hreading, hread⟩ := hC s a ha
  have harr : arrives { x with sender := s } a = true := by
    cases a with
    | recvFrom m => exact decide_eq_true (hread m rfl)
    | _ => rfl
  refine ⟨⟨hquiet, hreading⟩, ?_⟩
  have hstep : s.step a = some t := hs
  simp only [machine, step, harr, if_true, hstep, Option.map_some]

theorem attends_leads (timeout maxAttempts : Nat) {x : Exchange}
    (h : (UdpSender.machine config).Leads (UdpSender.Attends now (· ∈ x.receiver.socket))
      x.sender s) :
    (machine config timeout maxAttempts).Leads (Quiet now) x { x with sender := s } := by
  refine sender_leads h fun s a ha => ?_
  cases a with
  | recvFrom m => exact ⟨rfl, by simp [reading], fun m' hm' => by cases hm'; exact ha⟩
  | enqueue => exact ⟨rfl, by simp [reading], nofun⟩
  | handleEvent ok | retransmit ok => exact ⟨ha, by simp [reading], nofun⟩
  | tick time order => exact ⟨rfl, by simpa [reading, UdpSender.Attends] using ha, nofun⟩
  | _ => contradiction

theorem finishes_leads (timeout maxAttempts : Nat) {x : Exchange}
    (h : (UdpSender.machine config).Leads (UdpSender.Finishes now) x.sender s) :
    (machine config timeout maxAttempts).Leads (Quiet now) x { x with sender := s } := by
  refine sender_leads h fun s a ha => ?_
  cases a with
  | acquire | store | forget => exact ⟨rfl, by simp [reading], nofun⟩
  | track i time => exact ⟨rfl, by simpa [reading, UdpSender.Finishes] using ha, nofun⟩
  | transmit i ok => exact ⟨ha, by simp [reading], nofun⟩
  | _ => contradiction

theorem replies_leads (config : FlowControlConfig) {x : Exchange}
    (h : (Receiver.machine timeout maxAttempts).Leads (Receiver.Replies now) x.receiver r) :
    (machine config timeout maxAttempts).Leads (Quiet now) x { x with receiver := r } := by
  refine h.embed (f := fun r => { x with receiver := r }) (g := Action.receiver)
    fun r a t ha hs => ?_
  have hstep : r.step a = some t := hs
  have hwhole (hinternal : internal a = true) :
      (machine config timeout maxAttempts).step { x with receiver := r } (.receiver a) =
        some { x with receiver := t } := by
    simp only [machine, step, hinternal, if_true, hstep, Option.map_some]
  cases a with
  | recvFrom => contradiction
  | ack ok => exact ⟨⟨ha, by simp [reading]⟩, hwhole rfl⟩
  | request ok time => exact ⟨⟨ha.1, by simpa [reading] using ha.2⟩, hwhole rfl⟩
  | check time order =>
    exact ⟨⟨rfl, by simpa [reading, Receiver.Replies] using ha⟩, hwhole rfl⟩

structure Ready (config : FlowControlConfig) (timeout maxAttempts : Nat) (x : Exchange) :
    Prop where
  reaches : (machine config timeout maxAttempts).Reaches Fitting x
  receiving : x.receiver.phase = .receiving
  resent : x.sender.Resent

theorem Ready.leads {x y : Exchange} (h : x.Ready config timeout maxAttempts)
    (hy : (machine config timeout maxAttempts).Leads (Quiet now) x y)
    (receiving : y.receiver.phase = .receiving) (resent : y.sender.Resent) :
    y.Ready config timeout maxAttempts :=
  ⟨h.reaches.leads hy fun _ _ => Quiet.fitting, receiving, resent⟩

theorem ack_fits (h : UdpSender.Fits (dataMessage n d)) :
    (ackMessage n).encodedLen ≤ recvBufferLen := by
  have hlen : (Nat.toDigits 10 n).length ≤ 20 :=
    (Nat.length_toDigits_le_iff (by decide) (by decide)).mpr (h.1.trans (by decide))
  have hack : jsonStringLen (MessageType.text .ack) = 5 := by decide
  simp only [Message.encodedLen, ackMessage, hack, Option.elim_none, recvBufferLen]
  omega

theorem deliver_data (config : FlowControlConfig) (timeout maxAttempts now : Nat) {x : Exchange}
    (hp : x.receiver.phase = .receiving) (hm : dataMessage n d ∈ x.sender.socket)
    (hfits : UdpSender.Fits (dataMessage n d)) :
    (machine config timeout maxAttempts).Leads (Quiet now) x
      { x with receiver := x.receiver.record n } := by
  obtain ⟨i, hi⟩ := List.mem_iff_getElem?.mp hm
  refine .single (a := .deliver i) ⟨rfl, by simp [reading]⟩ ?_
  simp only [machine, step, hi, Option.bind_some, Message.fromSlice, if_pos hfits.2,
    Receiver.recvFrom, hp, if_true]
  rfl

theorem Ready.coherent {x : Exchange} (h : x.Ready config timeout maxAttempts) :
    x.sender.Coherent := sender_coherent (h.reaches.mono fun _ _ => Fitting.inTime)

theorem acknowledge_one (hone : 1 ≤ maxAttempts) (now : Nat) {x : Exchange}
    (h : x.Ready config timeout maxAttempts) (hl : x.sender.inFlight.lookup n = some m) :
    ∃ y, (machine config timeout maxAttempts).Leads (Quiet now) x y ∧
      y.Ready config timeout maxAttempts ∧ x.sender.Attended y.sender ∧
      y.sender.inFlight.lookup n = none := by
  have hd := Receiver.detecting_of_reaches hone (receiver_reachable h.reaches.reachable)
  obtain ⟨c, hc, rfl, hdata, -⟩ := h.coherent.owned n m hl
  have hfits := UdpSender.fits_of_reaches (sender_fitting h.reaches) c hc
  have hdeliver := deliver_data config timeout maxAttempts now h.receiving
    (h.resent c.seq m hl) (hdata ▸ hfits)
  obtain ⟨r, hr, hreceiving, hack⟩ :=
    Receiver.ack_back timeout maxAttempts now (hd.tracked.record c.seq).2
  have hreplied := replies_leads config
    (x := { x with receiver := x.receiver.record c.seq }) hr
  obtain ⟨s, hs, hnone⟩ := UdpSender.handle_ack config now (Q := (· ∈ r.socket)) hack
    (ack_fits hfits) x.sender
  have hacked := attends_leads timeout maxAttempts (x := { x with receiver := r }) hs
  have hy := hdeliver.trans (hreplied.trans hacked)
  exact ⟨_, hy, h.leads hy hreceiving (h.resent.leads hs), UdpSender.attended_of_leads hs, hnone⟩

theorem acknowledge_all (hone : 1 ≤ maxAttempts) (now : Nat) {x : Exchange}
    (h : x.Ready config timeout maxAttempts) :
    ∃ y, (machine config timeout maxAttempts).Leads (Quiet now) x y ∧
      (y.Ready config timeout maxAttempts ∧ x.sender.Attended y.sender) ∧
      y.sender.inFlight.size = 0 := by
  refine Machine.Leads.of_variant (fun y : Exchange => y.sender.inFlight.size)
    (P := fun y => y.Ready config timeout maxAttempts ∧ x.sender.Attended y.sender)
    (fun y hy => ?_) ⟨h, .refl _⟩
  by_cases hsize : y.sender.inFlight.size = 0
  · exact .inl hsize
  · obtain ⟨n, m, hl⟩ := Map.exists_lookup_of_size hsize
    obtain ⟨z, hz, hready, hattended, hnone⟩ := acknowledge_one hone now hy.1 hl
    exact .inr ⟨z, hz, ⟨hready, hy.2.trans hattended⟩, Map.size_lt_size hattended.settled hl hnone⟩

theorem exists_going {x : Exchange} (hwindow : 1 ≤ config.sendWindowSize)
    (h : x.Ready config timeout maxAttempts) (hsize : x.sender.inFlight.size = 0)
    (hgoing : ¬x.sender.Idle) :
    ∃ (i : Nat) (c : SendCall), x.sender.calls[i]? = some c ∧ c.phase.over = false ∧
      (c.phase = .acquiring → 0 < x.sender.sendWindow) := by
  by_cases hholding : ∃ c ∈ x.sender.calls, c.phase.holding = true
  · obtain ⟨c, hc, hp⟩ := hholding
    obtain ⟨i, hi⟩ := List.mem_iff_getElem?.mp hc
    refine ⟨i, c, hi, ?_, fun hacquiring => ?_⟩
    · cases hphase : c.phase with
      | returned result =>
        rw [hphase] at hp
        contradiction
      | _ => rfl
    · rw [hacquiring] at hp
      contradiction
  · -- No permit is held, so that they are all free.
    have hnone : x.sender.calls.countP (fun c => c.phase.holding) = 0 :=
      List.countP_eq_zero.mpr fun c hc hp => hholding ⟨c, hc, hp⟩
    have htotal := UdpSender.size_le_total (UdpSender.freshSeq_of_autoSeq
      ((sender_fitting h.reaches).mono fun _ _ ha => ha.1.1))
    simp only [Window.total, UdpSender.window, hnone, hsize] at htotal
    obtain ⟨c, hc, hp⟩ : ∃ c ∈ x.sender.calls, c.phase.over = false := by
      simpa [UdpSender.Idle] using hgoing
    obtain ⟨i, hi⟩ := List.mem_iff_getElem?.mp hc
    exact ⟨i, c, hi, hp, fun _ => hwindow.trans htotal⟩

theorem finish_all (hone : 1 ≤ maxAttempts) (hwindow : 1 ≤ config.sendWindowSize) (now : Nat)
    {x : Exchange} (h : x.Ready config timeout maxAttempts) :
    ∃ y, (machine config timeout maxAttempts).Leads (Quiet now) x y ∧
      (y.Ready config timeout maxAttempts ∧ y.sender.nextSeq = x.sender.nextSeq) ∧
      y.sender.Idle := by
  refine Machine.Leads.of_variant
    (fun y : Exchange => y.sender.calls.countP fun c => !c.phase.over)
    (P := fun y => y.Ready config timeout maxAttempts ∧ y.sender.nextSeq = x.sender.nextSeq)
    (fun y hy => ?_) ⟨h, rfl⟩
  by_cases hidle : y.sender.Idle
  · exact .inl hidle
  obtain ⟨z, hz, ⟨hready, hattended⟩, hsize⟩ := acknowledge_all hone now hy.1
  have hgoing : ¬z.sender.Idle := by rwa [UdpSender.Idle, hattended.calls]
  obtain ⟨i, c, hi, hp, hpermit⟩ := exists_going hwindow hready hsize hgoing
  obtain ⟨s, hs, hfinished⟩ := UdpSender.finish_call config now hi hp hpermit
  have hlead := finishes_leads timeout maxAttempts hs
  have hresent := hfinished.resent hready.resent (UdpSender.socket_of_leads hs)
  refine .inr ⟨_, hz.trans hlead, ⟨hready.leads hlead hready.receiving hresent, ?_⟩, ?_⟩
  · exact (hfinished.next.trans hattended.next).trans hy.2
  · have hcount := UdpSender.countP_setPhase (p := .returned (.ok ())) (fun p => !p.over) hi
    rw [hp] at hcount
    simp only [hfinished.calls, ← hattended.calls]
    have hover : (!SendPhase.over (.returned (.ok ()))).toNat = 0 := rfl
    simp only [hover, Bool.not_false, Bool.toNat_true] at hcount
    omega

theorem Ready.complete (hone : 1 ≤ maxAttempts) {x : Exchange}
    (h : x.Ready config timeout maxAttempts) (hidle : x.sender.Idle)
    (hsize : x.sender.inFlight.size = 0) : x.Complete x.sender.nextSeq := by
  have hintime := h.reaches.mono fun _ _ => Fitting.inTime
  have hsender := sender_reaches hintime
  have hnumbered := UdpSender.numbered_of_reaches (hsender.mono fun _ _ ha => ha.1)
  have hcoherent := coherent_of_reaches hone hintime
  have hd := Receiver.detecting_of_reaches hone (receiver_reachable h.reaches.reachable)
  have hnone := Map.lookup_eq_none_of_size hsize
  have hreceived (n : Nat) : n ∈ x.receiver.receivedSeqs ↔ 1 ≤ n ∧ n < x.sender.nextSeq := by
    refine ⟨fun hn => hnumbered.mem_iff.mp (hcoherent.received n hn), fun hn => ?_⟩
    obtain ⟨c, hc, rfl⟩ := List.mem_map.mp (hnumbered.mem_iff.mpr hn)
    have hinserted := UdpSender.inserted_of_reaches hsender c hc (hidle c hc)
    exact hcoherent.settled.calls c hc hinserted (hnone c.seq)
  refine ⟨hidle, rfl, hnone, hreceived, fun n => ?_⟩
  refine Option.eq_none_iff_forall_ne_some.mpr fun time htime => ?_
  obtain ⟨hnot, ⟨lo, hlo, hlt⟩, hi, hhi, hgt⟩ := hd.tracked.unreceived n time htime
  have hlow := ((hreceived lo).mp hlo).1
  have hhigh := ((hreceived hi).mp hhi).2
  exact hnot ((hreceived n).mpr ⟨hlow.trans hlt.le, hgt.trans hhigh⟩)

/-- Whatever has been lost and however late it is, without another call both sides can come to
have everything: each number that was used is received, and neither waits for the other. -/
theorem can_complete (hone : 1 ≤ maxAttempts) (hwindow : 1 ≤ config.sendWindowSize) {x : Exchange}
    (h : (machine config timeout maxAttempts).Reaches Fitting x)
    (running : x.receiver.phase ≠ .stopped) :
    ∃ late, ∀ now ≥ late, ∃ y, (machine config timeout maxAttempts).Leads (Quiet now) x y ∧
      y.Complete x.sender.nextSeq := by
  obtain ⟨late, hlate⟩ := Map.exists_bound x.sender.inFlight
    fun m => m.sentTime + x.sender.flowControl.ackTimeout
  refine ⟨late, fun now hnow => ?_⟩
  -- The receiver reads again, and the timer sends again whatever may have been lost.
  obtain ⟨r, hr, hreceiving⟩ := Receiver.reads_again timeout maxAttempts now running
  obtain ⟨s, hs, hresent⟩ := UdpSender.resend_all config (· ∈ r.socket)
    fun n m hm => (hlate n m hm).trans_le hnow
  have hx := (replies_leads config hr).trans
    (attends_leads timeout maxAttempts (x := { x with receiver := r }) hs)
  have hready : Ready config timeout maxAttempts ⟨s, r⟩ :=
    ⟨h.leads hx fun _ _ => Quiet.fitting, hreceiving, hresent⟩
  obtain ⟨y, hy, ⟨hready, hnext⟩, hidle⟩ := finish_all hone hwindow now hready
  obtain ⟨z, hz, ⟨hready, hattended⟩, hsize⟩ := acknowledge_all hone now hready
  refine ⟨z, hx.trans (hy.trans hz), ?_⟩
  have hidle : z.sender.Idle := by rwa [UdpSender.Idle, hattended.calls]
  have hissued : z.sender.nextSeq = x.sender.nextSeq :=
    hattended.next.trans (hnext.trans (UdpSender.attended_of_leads hs).next)
  exact hissued ▸ hready.complete hone hidle hsize

theorem can_complete_given_up :
    ∃ x, (machine .default 2000 1).Reaches Fitting x ∧ x.receiver.Stands 2 .exhausted ∧
      ∃ now y, (machine .default 2000 1).Leads (Quiet now) x y ∧ 2 ∈ y.receiver.receivedSeqs := by
  obtain ⟨x, hx, hrunning, hnext, hexhausted⟩ := Machine.exists_reaches_of_replay
    (M := machine .default 2000 1) (C := Fitting)
    (P := fun x => x.receiver.phase ≠ .stopped ∧ x.sender.nextSeq = 4 ∧
      2 ∉ x.receiver.receivedSeqs ∧ x.receiver.retransmissionRequests.lookup 2 = none ∧
      x.receiver.retransmissionAttempts.lookup 2 = some 1 ∧
      x.receiver.maxRetransmissionAttempts ≤ 1)
    (exampleSends ++
      [.deliver 2, .receiver (.ack true), .receiver (.check 0 []), .deliver 0,
        .receiver (.ack true), .receiver (.request true 1), .receiver (.check 1 []), .deliver 0,
        .receiver (.ack true), .receiver (.check 3000 [2])]) (by decide)
  obtain ⟨hnot, hnone, hattempts, hmost⟩ := hexhausted
  obtain ⟨late, hlate⟩ := can_complete (by decide) (by decide) hx hrunning
  obtain ⟨y, hy, hcomplete⟩ := hlate late (Nat.le_refl _)
  refine ⟨x, hx, ⟨hnot, hnone, 1, hattempts, hmost⟩, late, y, hy, ?_⟩
  exact (hcomplete.received 2).mpr ⟨by decide, hnext ▸ by decide⟩

end Exchange

end BdsPro.Udp.Bin
