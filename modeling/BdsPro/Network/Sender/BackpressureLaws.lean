import BdsPro.Network.Sender.IssueLaws
import BdsPro.Network.Sender.WindowLaws

/-! What the handlers of a channel hold, against what the application has submitted and the
receiver has acknowledged. -/

namespace BdsPro.Network.Sender

open BdsPro.Library

namespace ChannelHandler

theorem Step.held_le {h t : ChannelHandler} (hs : h.Step e t) (tr : Trace) :
    t.held + (tr.record h e).acked.length + tr.data.length ≤
      h.held + tr.acked.length + (tr.record h e).data.length := by
  have hmoved {seq : Sequence} {b : TupleBuffer} (hl : h.waitForAck.lookup seq = some b) :
      h.pendingWrites.length + 1 + (h.waitForAck.erase seq).size ≤ h.held := by
    have := Map.size_erase hl
    unfold held
    omega
  cases hs with
  | cancel | accept | block => exact Nat.le_refl _
  | quiet quiet =>
    obtain ⟨hdata, hacked, -⟩ := quiet.record tr
    rw [hdata, hacked, held, held, quiet.waitForAck, quiet.pendingWrites]
  | data phase =>
    rw [Trace.data_record]
    simp only [Trace.record, held, takes, ChannelControlMessage.buffer, Option.toList_some,
      List.length_append, List.length_singleton]
    omega
  | ack phase entry =>
    have := hmoved entry
    simp only [Trace.record, Trace.data, held, entry, Option.toList_some, List.length_append,
      List.length_singleton] at this ⊢
    omega
  | nack phase entry =>
    have := hmoved entry
    simp only [Trace.record, Trace.data, held, List.length_append, List.length_singleton] at this ⊢
    omega
  | putBack phase ready entry =>
    have := hmoved entry
    simp only [Trace.record, Trace.data, held, List.length_cons] at this ⊢
    omega

theorem Start.held_le {h h' : ChannelHandler} (hs : h.Start h') : h'.held ≤ h.held := by
  cases hs with
  | intro b rest phase pending =>
    have hinsert := Map.size_insert_le h.waitForAck b.sequence b
    simp only [held, pending, List.length_cons]
    omega

theorem held_of_step {h t : ChannelHandler} (hs : h.step e = some t) (tr : Trace) :
    t.held + (tr.record h e).acked.length + tr.data.length ≤
      h.held + tr.acked.length + (tr.record h e).data.length := by
  cases step_cases hs with
  | inl hs => exact hs.held_le tr
  | inr hs =>
    obtain ⟨h', hstart, hs, io, rfl⟩ := hs
    have hle := hs.held_le tr
    have := hstart.held_le
    simp only [Trace.record] at hle ⊢
    omega

theorem select_of_live {h : ChannelHandler} (hc : h.cancelled = false) (task : Task) :
    ∃ send, h.select task = { h with phase := .selecting task send } := by
  unfold ChannelHandler.select
  rw [if_neg (by simp [hc])]
  split
  next => exact ⟨_, rfl⟩
  next => exact ⟨_, rfl⟩

end ChannelHandler

theorem Trace.acked_grows (tr : Trace) (h : ChannelHandler) (e : ChannelHandler.Event) :
    tr.acked <+: (tr.record h e).acked := by
  unfold record
  split
  · exact List.prefix_rfl
  · exact List.prefix_append _ _
  · exact List.prefix_rfl
  · exact List.prefix_rfl

namespace Channel

def submittedData (c : Channel) : List TupleBuffer :=
  (c.trace.taken ++ c.queue).filterMap ChannelControlMessage.buffer

/-- The application submits a buffer only while fewer than `n` are unacknowledged. -/
def Paced (n : Nat) (c : Channel) : Action → Prop
  | .submit (.data _) => c.submittedData.length < n + c.trace.acked.length
  | _ => True

instance (n : Nat) (c : Channel) (a : Action) : Decidable (Paced n c a) := by
  unfold Paced
  split <;> infer_instance

def Silent (_ : Channel) (a : Action) : Prop := ∀ r, a ≠ .handler (.response r)

def backlog (c : Channel) : Nat :=
  match c.stage with
  | .running h => h.held
  | _ => 0

theorem backlog_idle {c : Channel} (hs : ∀ h, c.stage ≠ .running h) : c.backlog = 0 := by
  unfold backlog
  split
  next h heq => exact absurd heq (hs h)
  next => rfl

theorem backlog_running {c : Channel} (hs : c.stage = .running h) : c.backlog = h.held := by
  simp only [backlog, hs]

def Accounted (c : Channel) : Prop :=
  c.backlog + c.trace.acked.length ≤ c.trace.data.length

theorem Accounted.step {c t : Channel} (h : c.Accounted) (hs : Step c a t) : t.Accounted := by
  unfold Accounted at h ⊢
  cases hs with
  | still stage trace =>
    have hbacklog : t.backlog = c.backlog := by simp only [backlog, stage]
    rwa [hbacklog, trace]
  | idle _ target trace | finish _ _ _ target trace =>
    rw [backlog_idle target, trace]
    omega
  | start source => rwa [backlog_idle source] at h
  | handler event =>
    obtain ⟨r, r', queue, hstage, -, hstep, -, rfl⟩ := handler_eq_some event
    have hle := ChannelHandler.held_of_step hstep c.trace
    rw [backlog_running hstage] at h
    rw [backlog_running rfl]
    simp only
    omega

theorem accounted_of_reaches {C : Channel → Action → Prop} {c : Channel}
    (h : machine.Reaches C c) : c.Accounted :=
  h.invariant (I := Accounted) (Nat.zero_le _) fun _ _ _ _ ih _ hs => ih.step (step_sound hs)

theorem submittedData_of_step {c t : Channel} (hs : c.step a = some t) :
    t.submittedData = c.submittedData ++ (a.submitted.bind (·.buffer)).toList := by
  have hfifo : Fifo (c.trace.taken ++ c.queue ++ a.submitted.toList) t.trace.taken t.queue :=
    fifo_step rfl hs
  rw [submittedData, ← hfifo, List.filterMap_append, submittedData]
  cases a.submitted with
  | none => rfl
  | some m => cases m <;> rfl

theorem acked_of_step {c t : Channel} (hs : Step c a t) : c.trace.acked <+: t.trace.acked := by
  cases hs with
  | still _ trace | idle _ _ trace | finish _ _ _ _ trace => rw [trace]
  | start => exact List.prefix_rfl
  | @handler e _ event =>
    obtain ⟨r, r', queue, -, -, -, -, rfl⟩ := handler_eq_some event
    exact c.trace.acked_grows r e

theorem unacknowledged_of_paced {n : Nat} {c : Channel} (h : machine.Reaches (Paced n) c) :
    c.submittedData.length ≤ n + c.trace.acked.length := by
  refine h.invariant (I := fun c => c.submittedData.length ≤ n + c.trace.acked.length)
    (Nat.zero_le _) fun c a t _ ih hC hs => ?_
  have hacked := (acked_of_step (step_sound hs)).length_le
  rw [submittedData_of_step hs, List.length_append]
  cases a with
  | submit m =>
    cases m with
    | data b =>
      have hlt : c.submittedData.length < n + c.trace.acked.length := hC
      simp only [Action.submitted, Option.bind_some, ChannelControlMessage.buffer,
        Option.toList_some, List.length_singleton]
      omega
    | flush | terminate => exact ih.trans (Nat.add_le_add_left hacked n)
  | dropQueue | establish | connect | handler | finish | retry =>
    exact ih.trans (Nat.add_le_add_left hacked n)

theorem data_length_le (c : Channel) : c.trace.data.length ≤ c.submittedData.length := by
  rw [submittedData, List.filterMap_append, List.length_append, Trace.data]
  exact Nat.le_add_right _ _

theorem held_bounded {n : Nat} {c : Channel} (h : machine.Reaches (Paced n) c)
    (hs : c.stage = .running r) : r.pendingWrites.length + r.waitForAck.size ≤ n := by
  have haccounted := accounted_of_reaches h
  have hpaced := unacknowledged_of_paced h
  have hdata := c.data_length_le
  rw [Accounted, backlog_running hs, ChannelHandler.held] at haccounted
  omega

theorem queue_length_of_step {c t : Channel} (hs : c.step a = some t)
    (h : c.queue.length ≤ queueLen) : t.queue.length ≤ queueLen := by
  cases queueStep_sound hs with
  | submit m queue =>
    obtain ⟨⟨-, hroom⟩, -⟩ := Option.ite_none_right_eq_some.mp hs
    rw [queue, List.length_append]
    exact hroom
  | take m queue =>
    rw [queue] at h
    exact (Nat.le_succ _).trans h
  | handle queue | other queue => exact queue ▸ h

theorem held_of_unacknowledged {c : Channel} (h : machine.Reaches KeepsBuffers c)
    (hopen : c.closed = false) (hs : c.stage = .running r)
    (many : n + queueLen + c.trace.acked.length < c.submittedData.length) :
    n < r.pendingWrites.length + r.waitForAck.size := by
  have hqueue : c.queue.length ≤ queueLen := h.invariant (I := fun c => c.queue.length ≤ queueLen)
    (Nat.zero_le _) fun _ _ _ _ ih _ hs => queue_length_of_step hs ih
  have hdata := congrArg Multiset.card (kept_of_reaches h hopen).data_eq
  have hwaiting := List.length_filterMap_le ChannelControlMessage.buffer c.queue
  simp only [held, hs, Multiset.card_add, Multiset.coe_card, Map.card_values, Trace.data] at hdata
  rw [submittedData, List.filterMap_append, List.length_append] at many
  omega

theorem held_bounded_third : ∃ c r, machine.Reaches (Paced 2) c ∧ c.stage = .running r ∧
    c.submittedData.length = 3 ∧ r.pendingWrites.length + r.waitForAck.size ≤ 2 := by
  obtain ⟨c, hc, hsubmitted, hrunning⟩ := Machine.exists_reaches_of_replay (M := machine)
    (C := Paced 2) (P := fun c => c.submittedData.length = 3 ∧ c.backlog ≠ 0)
    [.submit (.data (exampleBuffer 1 [])), .submit (.data (exampleBuffer 2 [])), .establish .ok,
      .connect true, .handler .advance,
      .handler (.request (some (.data (exampleBuffer 1 [])))), .handler .advance,
      .handler (.sendPending .complete), .handler .advance,
      .handler (.request (some (.data (exampleBuffer 2 [])))), .handler .advance,
      .handler (.response (some (.ok (.ackData (1, 0))))),
      .submit (.data (exampleBuffer 3 [])), .handler .advance,
      .handler (.request (some (.data (exampleBuffer 3 []))))] (by decide)
  obtain ⟨r, hr⟩ : ∃ r, c.stage = .running r := by
    by_contra hnone
    exact hrunning (backlog_idle fun h hs => hnone ⟨h, hs⟩)
  exact ⟨c, r, hc, hr, hsubmitted, held_bounded hc hr⟩

/-- While nothing is answered the handler goes on taking Data messages, and the queue is empty
again whenever the next one is submitted. -/
theorem exists_silent_backlog (n : Nat) :
    ∃ c r, machine.Reaches Silent c ∧ c.stage = .running r ∧ c.queue = [] ∧ c.queueOpen = true ∧
      r.phase = .head .run ∧ r.cancelled = false ∧ r.pendingWrites.length = n := by
  induction n with
  | zero =>
    have hc : machine.Reaches Silent { new with stage := .running (.new false) } :=
      .step (.step .init (a := .establish .ok) nofun rfl) (a := .connect true) nofun rfl
    exact ⟨_, _, hc, rfl, rfl, rfl, rfl, rfl, rfl⟩
  | succ n ih =>
    obtain ⟨c, r, hc, hstage, hqueue, hopen, hphase, hcancelled, hpending⟩ := ih
    obtain ⟨send, hselect⟩ := ChannelHandler.select_of_live hcancelled .run
    have hsubmit : machine.step c (.submit (.data (exampleBuffer n []))) =
        some { c with queue := [.data (exampleBuffer n [])] } := by
      simp [machine, step, submit, hqueue, hopen, queueLen]
    have hadvance : machine.step { c with queue := [.data (exampleBuffer n [])] }
        (.handler .advance) = some { c with
          queue := [.data (exampleBuffer n [])]
          stage := .running { r with phase := .selecting .run send } } := by
      simp [machine, step, handler, hstage, offers, ChannelHandler.step, hphase,
        ChannelHandler.advance, hselect, Trace.record, closes]
    have htake : machine.step { c with
          queue := [.data (exampleBuffer n [])]
          stage := .running { r with phase := .selecting .run send } }
        (.handler (.request (some (.data (exampleBuffer n []))))) = some { c with
          queue := []
          stage := .running { r with
            pendingWrites := r.pendingWrites ++ [exampleBuffer n []], phase := .head .run }
          trace := { c.trace with taken := c.trace.taken ++ [.data (exampleBuffer n [])] } } := by
      simp [machine, step, handler, offers, ChannelHandler.step, ChannelHandler.request,
        ChannelHandler.handleRequest, Trace.record, closes]
    have hsubmitted := hc.step (by simp [Silent]) hsubmit
    have hselected := hsubmitted.step (by simp [Silent]) hadvance
    have htaken := hselected.step (by simp [Silent]) htake
    refine ⟨_, _, htaken, rfl, rfl, hopen, rfl, hcancelled, ?_⟩
    exact List.length_append.trans (congrArg (· + 1) hpending)

theorem held_unbounded :
    ¬∃ n, ∀ c r, machine.Reaches Silent c → c.stage = .running r →
      r.pendingWrites.length + r.waitForAck.size ≤ n := by
  rintro ⟨n, h⟩
  obtain ⟨c, r, hc, hstage, -, -, -, -, hpending⟩ := exists_silent_backlog (n + 1)
  have := h c r hc hstage
  omega

end Channel

end BdsPro.Network.Sender
