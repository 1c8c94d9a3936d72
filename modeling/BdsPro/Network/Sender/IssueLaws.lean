import BdsPro.Library.Fifo
import BdsPro.Network.Sender.DeliveryLaws
import BdsPro.Network.Sender.FlushLedgerLaws
import BdsPro.Network.Sender.TrackingLaws

/-! What the handlers of one channel issue on their data connections, one after the other, of
what they take from the control queue. -/

namespace BdsPro.Network.Sender

open BdsPro.Library

def streamData (frames : List DataChannelRequest) : List TupleBuffer :=
  frames.filterMap DataChannelRequest.buffer

theorem ChannelHandler.lost_of_step {h t : ChannelHandler} (hs : h.step e = some t)
    (hlive : h.live = true) (hp : t.phase = .ended err)
    (hresult : err.result = .connectionLost error) : h.BreaksOff e t := by
  obtain hbreaks | rfl | ⟨fed, phase⟩ :=
    ended_of_step hs hlive (by simp only [ChannelHandler.live, hp])
  · exact hbreaks
  · cases step_sound hs with
    | closeReceived =>
      obtain rfl := Phase.ended.inj hp
      contradiction
  · cases e with
    | close io =>
      cases step_sound hs with
      | closing => contradiction
      | terminated =>
        obtain rfl := Phase.ended.inj hp
        contradiction
    | cancel =>
      obtain rfl := Option.some.inj hs
      cases phase.symm.trans hp
    | advance | flush | cancelled | response | request | sendPending =>
      simp [ChannelHandler.step, phase] at hs

namespace Channel

def Action.takes : Action → Option ChannelControlMessage
  | .handler (.request (some m)) => some m
  | _ => none

theorem queue_of_step {c t : Channel} (hs : c.step a = some t) :
    c.queue ++ a.submitted.toList = a.takes.toList ++ t.queue := by
  cases a with
  | handler e =>
    obtain ⟨h, h', queue, -, hoffers, -, hqueue, rfl⟩ := handler_eq_some hs
    refine (List.append_nil _).trans ?_
    obtain ⟨⟨m, rfl⟩, rfl⟩ | ⟨hne, rfl⟩ := hqueue
    · cases m with
      | none =>
        have hempty : c.queue = [] := (of_decide_eq_true hoffers).1
        simp only [hempty, List.tail_nil, Action.takes, Option.toList_none, List.append_nil]
      | some m => exact List.eq_cons_of_mem_head? (of_decide_eq_true hoffers)
    · have hnone : (Action.handler e).takes = none := by
        unfold Action.takes
        split
        next m heq => exact absurd (Action.handler.inj heq) (hne _)
        next => rfl
      rw [hnone]
      rfl
  | submit m =>
    cases queueStep_sound hs with
    | submit m queue => exact queue.symm
    | other _ _ _ submitted => contradiction
  | dropQueue | establish | connect | finish | retry =>
    cases queueStep_sound hs with
    | other queue => exact (List.append_nil _).trans queue.symm

end Channel

theorem Trace.taken_concat (tr : Trace) (h : ChannelHandler) (e : ChannelHandler.Event) :
    (tr.record h e).taken = tr.taken ++ (Channel.Action.handler e).takes.toList := by
  unfold Trace.record Channel.Action.takes
  split <;> simp_all

namespace Channel

theorem taken_concat {c t : Channel} (hs : c.step a = some t) :
    t.trace.taken = c.trace.taken ++ a.takes.toList := by
  cases a with
  | handler e =>
    obtain ⟨h, h', queue, -, -, -, -, rfl⟩ := handler_eq_some hs
    exact c.trace.taken_concat h e
  | submit | dropQueue | establish | retry =>
    cases step_sound hs with
    | still _ trace | idle _ _ trace => exact trace ▸ (List.append_nil _).symm
  | connect =>
    cases step_sound hs with
    | still _ trace | idle _ _ trace => exact trace ▸ (List.append_nil _).symm
    | start => exact (List.append_nil _).symm
  | finish =>
    cases step_sound hs with
    | still _ trace | idle _ _ trace | finish _ _ _ _ trace =>
      exact trace ▸ (List.append_nil _).symm

theorem fifo_step {c t : Channel} (h : Fifo submitted c.trace.taken c.queue)
    (hs : c.step a = some t) : Fifo (submitted ++ a.submitted.toList) t.trace.taken t.queue := by
  rw [Fifo, taken_concat hs, List.append_assoc, ← queue_of_step hs, ← List.append_assoc, ← h]

theorem finished_of_step {c t : Channel} (hs : c.step a = some t) (hf : c.stage = .finished) :
    t.stage = .finished := by
  cases a with
  | submit m => exact Option.some.inj (Option.ite_none_right_eq_some.mp hs).2 ▸ hf
  | dropQueue => exact Option.some.inj hs ▸ hf
  | establish r => simp [Channel.step, establish, hf] at hs
  | connect ok => simp [Channel.step, connect, hf] at hs
  | handler e => simp [Channel.step, handler, hf] at hs
  | finish => simp [Channel.step, finish, hf] at hs
  | retry ok => simp [Channel.step, retry, hf] at hs

/-- `past` lists the buffers that went onto the streams of earlier handlers.  Of what has been
taken, `Q` holds if it has been delivered, and each handler but the first finds `P → Q`. -/
inductive Issued (P : Prop) (Q : TupleBuffer → Prop) (past : List TupleBuffer) (c : Channel) :
    Prop
  | idle (stage : ∀ h, c.stage ≠ .running h) (issued : past.Sublist c.trace.data)
      (delivered : P → c.stage ≠ .finished → ∀ b ∈ c.trace.data, Q b)
  | running (stage : c.stage = .running h) (data : c.trace.data = earlier ++ tr.data)
      (issued : past.Sublist earlier) (delivered : P → ∀ b ∈ earlier, Q b)
      (order : ChannelRun.InOrder P Q ⟨h, tr⟩ popped)
      (lost : P → ∀ err error, h.phase = .ended err → err.result = .connectionLost error →
        h.pendingWrites = [] ∧ h.waitForAck.size = 0)

def wireData (c : Channel) : List TupleBuffer :=
  match c.stage with
  | .running h => streamData h.writer.wire
  | _ => []

theorem Issued.mono {P : Prop} {Q R : TupleBuffer → Prop} {c : Channel} (h : c.Issued P Q past)
    (hQR : ∀ b, Q b → R b) : c.Issued P R past := by
  cases h with
  | idle stage issued delivered =>
    exact .idle stage issued fun hP hs b hb => hQR b (delivered hP hs b hb)
  | running stage data issued delivered order lost =>
    exact .running stage data issued (fun hP b hb => hQR b (delivered hP b hb)) (order.mono hQR)
      lost

theorem wireData_sublist {P : Prop} {h : ChannelHandler}
    (ho : ChannelRun.InOrder P Q ⟨h, tr⟩ popped) :
    (streamData h.writer.wire).Sublist tr.data := by
  refine List.Sublist.trans ?_ (ho.data ▸ List.sublist_append_left popped _)
  refine List.Sublist.trans ?_ ho.sublist
  exact (FramedWrite.wire_prefix_accepted _).sublist.filterMap _

theorem Issued.sublist {P : Prop} {Q : TupleBuffer → Prop} {c : Channel} (h : c.Issued P Q past) :
    (past ++ c.wireData).Sublist c.trace.data := by
  cases h with
  | idle stage issued =>
    have hnone : c.wireData = [] := by
      unfold wireData
      split
      next h hs => exact absurd hs (stage h)
      next => rfl
    rw [hnone, List.append_nil]
    exact issued
  | running stage data issued delivered order =>
    simp only [data, wireData, stage]
    exact issued.append (wireData_sublist order)

theorem Issued.handler {P : Prop} {Q : TupleBuffer → Prop} {c t : Channel}
    (h : c.Issued P Q past) (hd : P → (c.trace.data.map TupleBuffer.sequence).Nodup)
    (hack : P → ∀ seq, e = .response (some (.ok (.ackData seq))) →
      ∀ b ∈ c.trace.data, b.sequence = seq → Q b)
    (hnack : ∀ seq, e ≠ .response (some (.ok (.nackData seq))))
    (hkeeps : P → c.KeepsBuffers (.handler e)) (hs : c.handler e = some t) :
    t.Issued P Q past := by
  obtain ⟨s, s', queue, hstage, hoffers, hstep, -, rfl⟩ := handler_eq_some hs
  cases h with
  | idle stage => exact absurd hstage (stage s)
  | @running h earlier tr popped stage data issued delivered order lost =>
    obtain rfl := Stage.running.inj (stage.symm.trans hstage)
    have hnodup (hP : P) : (tr.data.map TupleBuffer.sequence).Nodup := by
      rw [data] at hd
      exact (hd hP).sublist ((List.sublist_append_right _ _).map _)
    have hpopped : popped ⊆ c.trace.data := fun b hb =>
      data ▸ List.mem_append_right _ (order.data ▸ List.mem_append_left _ hb)
    have hkept : ∃ popped', ChannelRun.InOrder P Q ⟨s', tr.record h e⟩ popped' := by
      cases ChannelHandler.step_cases hstep with
      | inl hs =>
        exact order.step hnodup (fun hP seq he b hb => hack hP seq he b (hpopped hb)) hnack hs
      | inr hs =>
        obtain ⟨h', hstart, hs, io, rfl⟩ := hs
        obtain ⟨popped', order'⟩ := order.start hnodup hstart
        exact order'.step hnodup (by rintro _ _ ⟨⟩) (by rintro _ ⟨⟩) hs
    obtain ⟨popped', order'⟩ := hkept
    refine .running rfl ?_ issued delivered order' fun hP err error hp hresult => ?_
    · rw [Trace.data_record, Trace.data_record, data, List.append_assoc]
    · cases hlive : h.live with
      | false =>
        rw [ChannelHandler.step_of_dead hstep hlive] at hoffers
        contradiction
      | true =>
        obtain ⟨hbreaks, hpending, hwait⟩ := ChannelHandler.lost_of_step hstep hlive hp hresult
        rw [hpending, hwait]
        exact (loses_running hstage (hkeeps hP)).1 hbreaks

theorem finish_eq_some {c t : Channel} (hs : c.finish = some t) :
    ∃ h err, c.stage = .running h ∧ h.phase = .ended err ∧ t.trace = c.trace ∧
      (t.stage = .finished ∨
        t.stage = .retrying ∧ ∃ error, err.result = .connectionLost error) := by
  unfold finish at hs
  split at hs
  next h stage =>
    split at hs
    next err phase =>
      refine ⟨h, err, stage, phase, ?_⟩
      split at hs
      next error lost => exact Option.some.inj hs ▸ ⟨rfl, .inr ⟨rfl, error, lost⟩⟩
      next => exact Option.some.inj hs ▸ ⟨rfl, .inl rfl⟩
      next => exact Option.some.inj hs ▸ ⟨rfl, .inl rfl⟩
    next => contradiction
  next => contradiction

theorem Issued.finish {P : Prop} {Q : TupleBuffer → Prop} {c t : Channel}
    (h : c.Issued P Q past) (hs : c.finish = some t) : t.Issued P Q (past ++ c.wireData) := by
  have hsublist := h.sublist
  obtain ⟨s, err, hstage, hphase, htrace, htarget⟩ := finish_eq_some hs
  have htidle : ∀ h, t.stage ≠ .running h := by
    obtain htarget | ⟨htarget, -⟩ := htarget <;> simp [htarget]
  refine .idle htidle (htrace ▸ hsublist) fun hP hunfinished b hb => ?_
  obtain ⟨-, error, hresult⟩ := htarget.resolve_left hunfinished
  cases h with
  | idle stage => exact absurd hstage (stage s)
  | running stage data issued delivered order lost =>
    obtain rfl := Stage.running.inj (stage.symm.trans hstage)
    obtain ⟨hpending, hwait⟩ := lost hP err error hphase hresult
    have horder := order.data
    rw [hpending, List.append_nil] at horder
    rw [htrace, data, horder] at hb
    obtain hb | hb := List.mem_append.mp hb
    · exact delivered hP b hb
    · obtain hentry | hQ := order.tracked hP b hb
      · exact nomatch (Map.lookup_eq_none_of_size hwait b.sequence).symm.trans hentry
      · exact hQ

theorem Issued.start {P : Prop} {Q : TupleBuffer → Prop} {c : Channel} (h : c.Issued P Q past)
    (hs : c.stage = .connecting) :
    Issued P Q past { c with stage := .running (.new false) } := by
  cases h with
  | idle stage issued delivered =>
    have order : ChannelRun.InOrder P Q ⟨.new false, .empty⟩ [] :=
      ⟨rfl, ⟨[], rfl, List.Sublist.refl _⟩, fun _ => nofun, nofun⟩
    exact .running rfl (List.append_nil _).symm issued (fun hP => delivered hP (by simp [hs]))
      order fun _ _ _ hp => nomatch hp
  | running stage => exact nomatch stage.symm.trans hs

theorem Issued.still {P : Prop} {Q : TupleBuffer → Prop} {c t : Channel} (h : c.Issued P Q past)
    (stage : t.stage = c.stage) (trace : t.trace = c.trace) : t.Issued P Q past := by
  cases h with
  | idle source issued delivered =>
    exact .idle (stage ▸ source) (trace ▸ issued) (trace ▸ stage ▸ delivered)
  | running source data issued delivered order lost =>
    exact .running (stage ▸ source) (trace ▸ data) issued delivered order lost

theorem Issued.turn {P : Prop} {Q : TupleBuffer → Prop} {c t : Channel} (h : c.Issued P Q past)
    (source : ∀ h, c.stage ≠ .running h) (target : ∀ h, t.stage ≠ .running h)
    (trace : t.trace = c.trace) (finished : c.stage = .finished → t.stage = .finished) :
    t.Issued P Q past := by
  cases h with
  | idle stage issued delivered =>
    refine .idle target (trace ▸ issued) fun hP hunfinished => trace ▸ delivered hP ?_
    exact fun hf => hunfinished (finished hf)
  | running stage => exact absurd stage (source _)

def leaves (c : Channel) : Action → List TupleBuffer
  | .finish => c.wireData
  | _ => []

theorem Issued.step {P : Prop} {Q : TupleBuffer → Prop} {c t : Channel} (h : c.Issued P Q past)
    (hd : P → (c.trace.data.map TupleBuffer.sequence).Nodup)
    (hack : P → ∀ seq, a = .handler (.response (some (.ok (.ackData seq)))) →
      ∀ b ∈ c.trace.data, b.sequence = seq → Q b)
    (hnack : ∀ seq, a ≠ .handler (.response (some (.ok (.nackData seq)))))
    (hkeeps : P → c.KeepsBuffers a) (hs : c.step a = some t) :
    t.Issued P Q (past ++ c.leaves a) := by
  cases a with
  | finish => exact h.finish hs
  | handler e =>
    refine (List.append_nil past).symm ▸
      h.handler hd (fun hP seq he => hack hP seq (he ▸ rfl)) ?_ hkeeps hs
    exact fun seq he => hnack seq (he ▸ rfl)
  | connect ok =>
    refine (List.append_nil past).symm ▸ ?_
    simp only [Channel.step, connect] at hs
    split at hs
    next stage =>
      cases ok with
      | true => exact Option.some.inj hs ▸ h.start stage
      | false =>
        exact Option.some.inj hs ▸ h.turn (by simp [stage]) (by simp) rfl (by simp [stage])
    next => contradiction
  | submit | dropQueue | establish | retry =>
    refine (List.append_nil past).symm ▸ ?_
    cases step_sound hs with
    | still stage trace => exact h.still stage trace
    | idle source target trace => exact h.turn source target trace (finished_of_step hs)

def FlushLast (c : Channel) : Prop :=
  ∀ h, c.stage = .running h → ChannelRun.FlushLast ⟨h, c.trace⟩

theorem FlushLast.step {c t : Channel} (h : c.FlushLast) (hs : c.step a = some t) :
    t.FlushLast := by
  cases step_sound hs with
  | still stage trace => exact fun s hrun => trace ▸ h s (stage ▸ hrun)
  | idle _ target | finish _ _ _ target => exact fun s hrun => absurd hrun (target s)
  | start =>
    rintro _ ⟨⟩
    exact fun _ => nofun
  | @handler e _ event =>
    obtain ⟨s, s', queue, hstage, -, hstep, -, rfl⟩ := handler_eq_some event
    rintro _ ⟨⟩
    refine (h s hstage).step (e := e) ?_
    simp only [ChannelRun.step, hstep]
    rfl

end Channel

end BdsPro.Network.Sender
