import BdsPro.TestNode.EngineLaws
import BdsPro.TestNode.NetworkSinkLaws
import BdsPro.TestNode.Pipeline
import BdsPro.TestNode.TransferLaws

namespace BdsPro.TestNode

open BdsPro.Library BdsPro.Network

namespace NetworkSink

structure Placing (s : NetworkSink) : Prop where
  forwarding : s.controlOpen = true → s.Forwarding
  placed : s.placedData <+: s.executed

def executes : Action → Option TupleBuffer
  | .execute data _ => some data
  | _ => none

theorem executed_of_step {s t : NetworkSink} (hs : Step s a t) :
    t.executed = s.executed ++ (executes a).toList := by
  cases hs with
  | drain data front rest =>
    exact ((drain_frame s data front rest).2.2).trans (List.append_nil _).symm
  | send data again => exact ((send_frame s data again).2.2).trans (List.append_nil _).symm
  | ignored | unregistered | direct | queued => rfl
  | _ => exact (List.append_nil _).symm

theorem placed_of_step {s t : NetworkSink} (hs : Step s a t) :
    ∃ m : Option Sender.ChannelControlMessage, t.placed = s.placed ++ m.toList ∧
      (a ≠ .receive → t.control = s.control ++ m.toList) ∧
      (m ≠ none → a = .forward ∨ a = .sendBlocking) := by
  have hnone {u : NetworkSink} (placed : u.placed = s.placed)
      (control : a ≠ .receive → u.control = s.control) :
      ∃ m : Option Sender.ChannelControlMessage, u.placed = s.placed ++ m.toList ∧
        (a ≠ .receive → u.control = s.control ++ m.toList) ∧
        (m ≠ none → a = .forward ∨ a = .sendBlocking) :=
    ⟨none, placed.trans (List.append_nil _).symm,
      fun ha => (control ha).trans (List.append_nil _).symm, absurd rfl⟩
  cases hs with
  | drain data front rest =>
    unfold NetworkSink.drain
    split
    · exact hnone rfl fun _ => rfl
    · exact hnone rfl fun _ => rfl
    · exact ⟨some (.data front), rfl, fun _ => rfl, fun _ => .inl rfl⟩
  | send data again =>
    unfold NetworkSink.send
    split
    · exact hnone rfl fun _ => rfl
    · exact hnone rfl fun _ => rfl
    · exact ⟨some (.data data), rfl, fun _ => rfl, fun _ => .inl rfl⟩
  | flush => exact ⟨some (.flush 0), rfl, fun _ => rfl, fun _ => .inr rfl⟩
  | terminate => exact ⟨some .terminate, rfl, fun _ => rfl, fun _ => .inr rfl⟩
  | receive rest => exact hnone rfl (absurd rfl)
  | _ => exact hnone rfl fun _ => rfl

theorem trySend_full {s : NetworkSink} (control : s.controlOpen = true) (sent : s.trySend ≠ .ok) :
    s.trySend = .full := by
  cases h : s.trySend with
  | ok => exact absurd h sent
  | full => rfl
  | closed => exact absurd h (trySend_open control)

theorem closed_of_step {s t : NetworkSink} (hs : Step s a t) (control : s.controlOpen = false) :
    t.controlOpen = false ∧ t.placedData = s.placedData := by
  have hclosed : s.trySend = .closed := by simp [trySend, control]
  cases hs with
  | drain data front rest =>
    refine ⟨(drain_frame s data front rest).1.trans control, ?_⟩
    simp only [NetworkSink.drain, hclosed]
    rfl
  | send data again =>
    refine ⟨(send_frame s data again).1.trans control, ?_⟩
    simp only [NetworkSink.send, hclosed]
    rfl
  | flush _ sent | terminate _ sent =>
    rw [hclosed] at sent
    contradiction
  | closeControl | closeFlush => exact ⟨rfl, rfl⟩
  | _ => exact ⟨control, rfl⟩

theorem Forwarding.placed {s : NetworkSink} (h : s.Forwarding)
    (placed : s.placedData <+: s.executed) (hs : Step s a t) : t.placedData <+: t.executed := by
  have horder := h.inOrder
  cases hs with
  | drain data front rest phase buffer =>
    have hfifo : Fifo s.executed s.placedData (front :: rest) := by
      simpa only [InOrder, phase, buffer] using horder
    unfold NetworkSink.drain
    split
    · exact placed
    · exact placed
    · have hleft : (s.place (.data front)).placedData <+: s.executed :=
        placedData_place s _ ▸ hfifo.leave.left_infix
      exact hleft
  | send data again phase =>
    obtain ⟨-, hfifo⟩ : s.buffer = [] ∧ Fifo s.executed s.placedData [data] := by
      simpa only [InOrder, phase] using horder
    unfold NetworkSink.send
    split
    · exact placed
    · exact placed
    · have hleft : (s.place (.data data)).placedData <+: s.executed :=
        placedData_place s _ ▸ hfifo.leave.left_infix
      exact hleft
  | ignored | unregistered | direct | queued => exact placed.trans (List.prefix_append _ _)
  | flush =>
    have hsame : (s.place (.flush 0)).placedData = s.placedData :=
      (placedData_place s _).trans (List.append_nil _)
    exact (show (s.place (.flush 0)).placedData <+: s.executed from hsame ▸ placed)
  | terminate =>
    have hsame : (s.place .terminate).placedData = s.placedData :=
      (placedData_place s _).trans (List.append_nil _)
    exact (show (s.place .terminate).placedData <+: s.executed from hsame ▸ placed)
  | _ => exact placed

theorem Placing.step {s t : NetworkSink} (h : s.Placing) (hC : s.Crowded a) (hs : Step s a t) :
    t.Placing := by
  cases control : s.controlOpen with
  | false =>
    obtain ⟨hclosed, hplaced⟩ := closed_of_step hs control
    refine ⟨fun hopen => absurd (hclosed.symm.trans hopen) (by simp), hplaced ▸ h.placed.trans ?_⟩
    exact executed_of_step hs ▸ List.prefix_append _ _
  | true =>
    have hforwarding := h.forwarding control
    refine ⟨fun hopen => hforwarding.step ⟨?_, ?_⟩ hs, hforwarding.placed h.placed hs⟩
    · rintro rfl
      cases hs with
      | closeControl | closeFlush => contradiction
    · exact fun ha hlast => trySend_full control (hC ha hlast)

theorem pastFlush_of_step {s t : NetworkSink} (hs : Step s a t)
    (past : s.phase.pastFlush = true) :
    t.phase.pastFlush = true ∧ t.executed = s.executed := by
  cases hs with
  | ignored phase | unregistered phase | direct _ phase | queued _ phase | drain _ _ _ phase
  | send _ _ phase | leave phase | close phase | flush phase =>
    rw [phase] at past
    contradiction
  | answered ok => cases ok <;> exact ⟨rfl, rfl⟩
  | terminate | refused | flushed | closeFlush => exact ⟨rfl, rfl⟩
  | receive | closeControl => exact ⟨past, rfl⟩

theorem placing_of_reaches {close : Option Bool} {s : NetworkSink}
    (h : (machine close).Reaches Crowded s) : s.Placing := by
  refine h.invariant (I := Placing) ⟨fun _ => ⟨rfl, fun _ => rfl, rfl⟩, List.prefix_rfl⟩ ?_
  exact fun s a t _ ih hC hs => ih.step hC (step_sound hs)

theorem stopping_of_reaches {close : Option Bool} {s : NetworkSink}
    (h : (machine close).Reaches StopsDrained s) : s.Stopping := by
  refine h.invariant (I := Stopping) ?_ fun s a t _ ih hC hs => ih.step hC (step_sound hs)
  exact ⟨.inr (List.Sublist.refl _), Log.Each.nil, fun _ => nofun, nofun⟩

theorem executed_before_flush {s : NetworkSink} (placing : s.Placing) (stopping : s.Stopping)
    (placed : s.placed = before ++ .flush done :: after) :
    s.executed = before.filterMap (·.buffer) := by
  have hsub := stopping.announced before _ after placed rfl
  have hprefix : before.filterMap (·.buffer) <+: s.executed := by
    refine List.IsPrefix.trans ?_ placing.placed
    rw [placedData, placed, List.filterMap_append]
    exact List.prefix_append _ _
  exact hsub.eq_of_length_le hprefix.length_le

end NetworkSink

namespace Pipeline

variable {w : Wiring} {p q : Pipeline}

theorem step_eq_some (hs : p.step w a = some q) :
    p.permits w a = true ∧
      QueryEngine.machine.follow p.upstream (upstreamAction a) = some q.upstream ∧
      (NetworkSink.machine w.shouldClose).follow p.sink (p.sinkAction w a) = some q.sink ∧
      Transfer.machine.follow p.transfer (p.transferAction a) = some q.transfer ∧
      QueryEngine.machine.follow p.downstream (p.downstreamAction w a) = some q.downstream := by
  obtain ⟨permits, hs⟩ := Option.ite_none_right_eq_some.mp hs
  obtain ⟨upstream, hupstream, hs⟩ := Option.bind_eq_some_iff.mp hs
  obtain ⟨sink, hsink, hs⟩ := Option.bind_eq_some_iff.mp hs
  obtain ⟨transfer, htransfer, hs⟩ := Option.bind_eq_some_iff.mp hs
  obtain ⟨downstream, hdownstream, hs⟩ := Option.bind_eq_some_iff.mp hs
  obtain rfl := Option.some.inj hs
  exact ⟨permits, hupstream, hsink, htransfer, hdownstream⟩

def upstreamPart (w : Wiring) : Machine.Part QueryEngine.machine (machine w) where
  state := upstream
  action _ := upstreamAction
  init := rfl
  step hs := (step_eq_some hs).2.1

def sinkPart (w : Wiring) : Machine.Part (NetworkSink.machine w.shouldClose) (machine w) where
  state := sink
  action := sinkAction w
  init := rfl
  step hs := (step_eq_some hs).2.2.1

def transferPart (w : Wiring) : Machine.Part Transfer.machine (machine w) where
  state := transfer
  action := transferAction
  init := rfl
  step hs := (step_eq_some hs).2.2.2.1

def downstreamPart (w : Wiring) : Machine.Part QueryEngine.machine (machine w) where
  state := downstream
  action := downstreamAction w
  init := rfl
  step hs := (step_eq_some hs).2.2.2.2

def inputs (w : Wiring) (tasks : List Task) : List TupleBuffer :=
  (tasks.filter (·.node = w.node)).map Task.input

def outputs (w : Wiring) (tasks : List Task) : List TupleBuffer :=
  (tasks.filter (·.source = some w.source)).map Task.input

theorem inputs_append (l k : List Task) : inputs w (l ++ k) = inputs w l ++ inputs w k := by
  simp [inputs]

theorem outputs_append (l k : List Task) : outputs w (l ++ k) = outputs w l ++ outputs w k := by
  simp [outputs]

def Fresh (w : Wiring) (p : Pipeline) (a : Action) : Prop :=
  ∀ task ∈ (upstreamAction a).bind p.upstream.made, task.node = w.node →
    task.input.sequence ∉ (inputs w p.upstream.emitted).map TupleBuffer.sequence

instance (w : Wiring) (p : Pipeline) (a : Action) : Decidable (p.Fresh w a) :=
  inferInstanceAs (Decidable (∀ _ ∈ _, _ → _ ∉ _))

def given (w : Wiring) (p : Pipeline) : Action → Option TupleBuffer
  | .execute _ => (p.sinkTask w).map Task.input
  | _ => none

theorem executes_sinkAction (permits : p.permits w a = true) :
    (p.sinkAction w a).bind NetworkSink.executes = p.given w a := by
  cases a with
  | upstream | downstream => rfl
  | execute ok =>
    simp only [sinkAction, given]
    cases p.sinkTask w <;> rfl
  | sink b =>
    cases b with
    | execute => contradiction
    | _ => rfl
  | transfer b =>
    unfold sinkAction
    split
    next => contradiction
    next => contradiction
    next => rfl
    next => split <;> rfl
    next => rfl

theorem executed_of_step (hs : p.step w a = some q) :
    q.sink.executed = p.sink.executed ++ (p.given w a).toList := by
  obtain ⟨permits, -, hsink, -⟩ := step_eq_some hs
  rw [← executes_sinkAction permits]
  obtain ⟨haction, hsame⟩ | ⟨b, haction, hstep⟩ := Machine.follow_cases hsink
  · rw [haction, hsame]
    exact (List.append_nil _).symm
  · rw [haction]
    exact NetworkSink.executed_of_step (NetworkSink.step_sound hstep)

structure Fed (w : Wiring) (P : Prop) (p : Pipeline) : Prop where
  taken : (p.sink.executed ++ inputs w p.upstream.queue).Sublist (inputs w p.upstream.emitted)
  all : P → p.sink.executed ++ inputs w p.upstream.queue = inputs w p.upstream.emitted
  distinct : ((inputs w p.upstream.emitted).map TupleBuffer.sequence).Nodup

theorem inputs_of_none {task : Task} (h : p.sinkTask w = none)
    (hqueue : p.upstream.queue = task :: rest) : inputs w p.upstream.queue = inputs w rest := by
  rw [sinkTask, hqueue, List.head?_cons, Option.filter_eq_none_iff] at h
  have hnode : task.node ≠ w.node := by simpa using h task rfl
  simp [hqueue, inputs, hnode]

theorem inputs_of_some (h : p.sinkTask w = some task) (hqueue : p.upstream.queue = first :: rest) :
    inputs w p.upstream.queue = task.input :: inputs w rest := by
  rw [sinkTask, hqueue, List.head?_cons, Option.filter_eq_some_iff] at h
  obtain ⟨hfirst, hnode⟩ := h
  obtain rfl := Option.some.inj hfirst
  simp [hqueue, inputs, of_decide_eq_true hnode]

theorem Fed.push {P : Prop} (h : Fed w P p) (task : Task)
    (hf : task.node = w.node →
      task.input.sequence ∉ (inputs w p.upstream.emitted).map TupleBuffer.sequence)
    (hroom : P → p.upstream.queue.length < QueryEngine.queueLen)
    (hupstream : q.upstream = p.upstream.push task) (hsink : q.sink.executed = p.sink.executed) :
    Fed w P q := by
  have hinputs (l : List Task) : inputs w (l ++ [task]) = inputs w l ++ inputs w [task] :=
    inputs_append l [task]
  rw [QueryEngine.push] at hupstream
  refine ⟨?_, fun hP => ?_, ?_⟩
  · rw [hsink, hupstream, hinputs]
    split
    · rw [hinputs, ← List.append_assoc]
      exact h.taken.append (List.Sublist.refl _)
    · exact h.taken.trans (List.sublist_append_left _ _)
  · rw [hsink, hupstream, if_pos (hroom hP), hinputs, hinputs, ← h.all hP, List.append_assoc]
  · rw [hupstream, hinputs]
    by_cases hnode : task.node = w.node
    · have hone : inputs w [task] = [task.input] := by simp [inputs, hnode]
      rw [hone, List.map_append]
      exact List.Nodup.concat (hf hnode) h.distinct |> (List.concat_eq_append ▸ ·)
    · have hone : inputs w [task] = [] := by simp [inputs, hnode]
      rw [hone, List.append_nil]
      exact h.distinct

theorem Fed.still {P : Prop} (h : Fed w P p)
    (queue : inputs w q.upstream.queue = inputs w p.upstream.queue)
    (emitted : q.upstream.emitted = p.upstream.emitted)
    (executed : q.sink.executed = p.sink.executed) : Fed w P q :=
  ⟨queue ▸ emitted ▸ executed ▸ h.taken, queue ▸ emitted ▸ executed ▸ h.all, emitted ▸ h.distinct⟩

theorem Fed.step {P : Prop} (h : Fed w P p) (hf : p.Fresh w a)
    (hroom : P → (upstreamPart w).Permits QueryEngine.Roomy p a) (hs : p.step w a = some q) :
    Fed w P q := by
  have hexecuted := executed_of_step hs
  obtain ⟨permits, hupstream, -⟩ := step_eq_some hs
  cases a with
  | upstream b =>
    have hsink : q.sink.executed = p.sink.executed := hexecuted.trans (List.append_nil _)
    obtain ⟨e, he, hstep⟩ : ∃ e, q.upstream = e ∧ QueryEngine.Step p.upstream b e :=
      ⟨_, rfl, QueryEngine.step_sound hupstream⟩
    cases hstep with
    | push task made =>
      refine h.push task (hf task made) (fun hP => ?_) he hsink
      exact (hroom hP b rfl).1 (Option.isSome_iff_exists.mpr ⟨task, made⟩)
    | pop task rest worker queue =>
      have hnone : p.sinkTask w = none := of_decide_eq_true permits
      exact h.still (he ▸ (inputs_of_none hnone queue).symm) (he ▸ rfl) hsink
    | _ => exact h.still (he ▸ rfl) (he ▸ rfl) hsink
  | execute ok =>
    obtain ⟨e, he, hstep⟩ : ∃ e, q.upstream = e ∧ QueryEngine.Step p.upstream .pop e :=
      ⟨_, rfl, QueryEngine.step_sound hupstream⟩
    cases hstep with
    | push task made => contradiction
    | pop task rest worker queue =>
      obtain ⟨next, hnext⟩ := Option.isSome_iff_exists.mp permits
      have htaken : q.sink.executed ++ inputs w q.upstream.queue =
          p.sink.executed ++ inputs w p.upstream.queue := by
        rw [hexecuted, given, hnext, inputs_of_some hnext queue, he, List.append_assoc]
        rfl
      have hemitted : q.upstream.emitted = p.upstream.emitted := he ▸ rfl
      exact ⟨htaken ▸ hemitted ▸ h.taken, htaken ▸ hemitted ▸ h.all, hemitted ▸ h.distinct⟩
  | sink | transfer | downstream =>
    have hsame : p.upstream = q.upstream := Option.some.inj hupstream
    exact h.still (hsame ▸ rfl) (hsame ▸ rfl) (hexecuted.trans (List.append_nil _))

structure Joined (w : Wiring) (p : Pipeline) : Prop where
  placed : p.transfer.submitted = p.sink.placed
  control : p.transfer.sender.queue = p.sink.control
  emitted : p.transfer.source.emitted = outputs w p.downstream.emitted

theorem Joined.still (h : Joined w p) (submitted : q.transfer.submitted = p.transfer.submitted)
    (queue : q.transfer.sender.queue = p.transfer.sender.queue)
    (emitted : q.transfer.source.emitted = p.transfer.source.emitted)
    (placed : q.sink.placed = p.sink.placed) (control : q.sink.control = p.sink.control)
    (outputs : outputs w q.downstream.emitted = outputs w p.downstream.emitted) : Joined w q :=
  ⟨submitted ▸ placed ▸ h.placed, queue ▸ control ▸ h.control, emitted ▸ outputs ▸ h.emitted⟩

theorem placed_of_sink (hs : p.step w (.sink b) = some q) :
    q.sink.placed = p.sink.placed ++ (p.submission b).toList ∧
      q.sink.control = p.sink.control ++ (p.submission b).toList := by
  obtain ⟨permits, -, hsink, -⟩ := step_eq_some hs
  have hsink : p.sink.step b = some q.sink := hsink
  obtain ⟨m, hplaced, hcontrol, -⟩ := NetworkSink.placed_of_step (NetworkSink.step_sound hsink)
  have hsubmission : p.submission b = m := by
    rw [submission, hsink, Option.bind_some, hplaced, List.drop_left]
    cases m <;> rfl
  exact hsubmission ▸ ⟨hplaced, hcontrol (by rintro rfl; contradiction)⟩

theorem Joined.sink (h : Joined w p) (hs : p.step w (.sink b) = some q) : Joined w q := by
  obtain ⟨hplaced, hcontrol⟩ := placed_of_sink hs
  obtain ⟨-, -, -, htransfer, hdownstream⟩ := step_eq_some hs
  have hdown : p.downstream = q.downstream := Option.some.inj hdownstream
  rw [transferAction] at htransfer
  cases hm : p.submission b with
  | none =>
    rw [hm] at htransfer hplaced hcontrol
    have hsame : p.transfer = q.transfer := Option.some.inj htransfer
    rw [Option.toList, List.append_nil] at hplaced hcontrol
    exact h.still (hsame ▸ rfl) (hsame ▸ rfl) (hsame ▸ rfl) hplaced hcontrol (hdown ▸ rfl)
  | some m =>
    rw [hm] at htransfer hplaced hcontrol
    have htransfer : p.transfer.step (.sender (.submit m)) = some q.transfer := htransfer
    obtain ⟨-, c, n, hstep, hq⟩ := Transfer.sender_eq_some htransfer
    have hqueue := Sender.Channel.queue_of_step hstep
    refine ⟨?_, ?_, ?_⟩
    · rw [hq, hplaced, ← h.placed]
      rfl
    · rw [hq, hcontrol, ← h.control]
      exact hqueue.symm
    · rw [hq, ← hdown]
      exact h.emitted

theorem outputs_of_engine (permits : p.permits w (.downstream b) = true)
    (hs : QueryEngine.machine.step p.downstream b = some e) :
    outputs w e.emitted = outputs w p.downstream.emitted := by
  cases QueryEngine.step_sound hs with
  | push task made =>
    have hsource : task.source ≠ some w.source := by
      cases b with
      | emit i buffer =>
        have hi : i ≠ w.source := of_decide_eq_true permits
        obtain ⟨⟨id, n⟩, -, rfl⟩ := Option.map_eq_some_iff.mp made
        simpa using hi
      | contextEmit data =>
        simp only [QueryEngine.made, QueryEngine.contextTask] at made
        split at made
        next =>
          obtain ⟨n, -, rfl⟩ := Option.map_eq_some_iff.mp made
          simp
        next => contradiction
      | _ => contradiction
    simp [QueryEngine.push, outputs, hsource]
  | _ => rfl

theorem emitted_of_source {s t : NetworkSource} (hs : NetworkSource.Step s c t) :
    t.emitted = s.emitted ∧ (c = .run → ∀ d, s.thread ≠ some (.emitting d)) ∨
      ∃ d, c = .run ∧ s.thread = some (.emitting d) ∧ t.emitted = s.emitted ++ [d] := by
  cases hs with
  | emit d thread => exact .inr ⟨d, rfl, thread, rfl⟩
  | check thread | receive _ _ thread | closed thread | wake thread | leave thread =>
    exact .inl ⟨rfl, fun _ => by simp [thread]⟩
  | _ => exact .inl ⟨rfl, nofun⟩

theorem control_of_sender
    (hs : (NetworkSink.machine w.shouldClose).follow p.sink
      (p.sinkAction w (.transfer (.sender c))) = some s)
    (control : p.sink.control = c.takes.toList ++ rest) :
    s.placed = p.sink.placed ∧ s.control = rest := by
  unfold sinkAction at hs
  split at hs
  next => contradiction
  next => contradiction
  next m heq =>
    obtain rfl := Transfer.Action.sender.inj (Action.transfer.inj heq)
    have hreceive : p.sink.receive = some s := hs
    have hcontrol : p.sink.control = m :: rest := control
    cases hserved : p.sink.served with
    | false => simp [NetworkSink.receive, hserved] at hreceive
    | true =>
      simp only [NetworkSink.receive, hserved, hcontrol] at hreceive
      obtain rfl := Option.some.inj hreceive
      exact ⟨rfl, rfl⟩
  next e hother heq =>
    obtain rfl := Transfer.Action.sender.inj (Action.transfer.inj heq)
    have htakes : (Sender.Channel.Action.handler e).takes = none := by
      unfold Sender.Channel.Action.takes
      split
      next m he => exact absurd (Sender.Channel.Action.handler.inj he ▸ rfl) (hother m)
      next => rfl
    rw [htakes] at control
    split at hs
    next hwaiting =>
      obtain ⟨-, htaken⟩ := hwaiting
      have hflushed : p.sink.flushed true = some s := hs
      rw [NetworkSink.flushed, if_pos htaken] at hflushed
      obtain rfl := Option.some.inj hflushed
      exact ⟨rfl, control⟩
    next => exact Option.some.inj hs ▸ ⟨rfl, control⟩
  next hhandler =>
    have htakes : c.takes = none := by
      unfold Sender.Channel.Action.takes
      split
      next => exact absurd rfl (hhandler _)
      next => rfl
    rw [htakes] at control
    exact Option.some.inj hs ▸ ⟨rfl, control⟩

theorem emission_eq_none (h : ∀ d, p.transfer.source.thread ≠ some (.emitting d)) :
    p.emission = none := by
  unfold emission
  split
  next d hd => exact absurd hd (h d)
  next => rfl

theorem Joined.transfer (h : Joined w p) (hs : p.step w (.transfer b) = some q) :
    Joined w q := by
  obtain ⟨permits, -, hsink, htransfer, hdownstream⟩ := step_eq_some hs
  have htransfer : p.transfer.step b = some q.transfer := htransfer
  cases b with
  | sender c =>
    have hdown : p.downstream = q.downstream := Option.some.inj hdownstream
    obtain ⟨-, s, n, hstep, hq⟩ := Transfer.sender_eq_some htransfer
    have hsubmitted : c.submitted = none := by
      cases c with
      | submit => contradiction
      | _ => rfl
    have hqueue := Sender.Channel.queue_of_step hstep
    rw [hsubmitted, Option.toList_none, List.append_nil, h.control] at hqueue
    obtain ⟨hplaced, hcontrol⟩ := control_of_sender hsink hqueue
    refine ⟨?_, ?_, ?_⟩
    · rw [hq, hplaced, ← h.placed, hsubmitted]
      exact List.append_nil _
    · rw [hq, hcontrol]
    · rw [hq, ← hdown]
      exact h.emitted
  | source c =>
    have hsame : p.sink = q.sink := Option.some.inj hsink
    obtain ⟨-, hstep, hsender, -, hsubmitted, -⟩ := Transfer.source_eq_some htransfer
    refine ⟨?_, ?_, ?_⟩
    · rw [hsubmitted, ← hsame]
      exact h.placed
    · rw [hsender, ← hsame]
      exact h.control
    · obtain ⟨hemitted, hidle⟩ | ⟨d, rfl, hthread, hemitted⟩ :=
        emitted_of_source (NetworkSource.step_sound hstep)
      · have hnone : p.downstreamAction w (.transfer (.source c)) = none := by
          cases c with
          | run =>
            rw [downstreamAction, emission_eq_none (hidle rfl)]
            rfl
          | _ => rfl
        rw [hnone] at hdownstream
        have hdown : p.downstream = q.downstream := Option.some.inj hdownstream
        rw [hemitted, ← hdown]
        exact h.emitted
      · have hemission : p.emission = some d := by rw [emission, hthread]
        rw [downstreamAction, hemission] at hdownstream
        obtain ⟨task, htask, hpush⟩ := Option.map_eq_some_iff.mp hdownstream
        obtain ⟨⟨id, n⟩, -, rfl⟩ := Option.map_eq_some_iff.mp htask
        rw [hemitted, ← hpush, QueryEngine.push, outputs_append, h.emitted]
        simp [outputs]
  | accept k =>
    have hdown : p.downstream = q.downstream := Option.some.inj hdownstream
    have hsame : p.sink = q.sink := Option.some.inj hsink
    obtain ⟨-, -, s, hconnect, hq⟩ := Transfer.accept_eq_some htransfer
    obtain ⟨hemitted, -⟩ | ⟨d, hrun, -⟩ :=
      emitted_of_source (NetworkSource.step_sound hconnect)
    · exact h.still (hq ▸ rfl) (hq ▸ rfl) (hq ▸ hemitted) (hsame ▸ rfl) (hsame ▸ rfl) (hdown ▸ rfl)
    · contradiction

theorem Joined.step (h : Joined w p) (hs : p.step w a = some q) : Joined w q := by
  obtain ⟨permits, -, hsink, htransfer, hdownstream⟩ := step_eq_some hs
  cases a with
  | sink => exact h.sink hs
  | transfer => exact h.transfer hs
  | upstream =>
    have hsame : p.transfer = q.transfer := Option.some.inj htransfer
    have hsink : p.sink = q.sink := Option.some.inj hsink
    have hdown : p.downstream = q.downstream := Option.some.inj hdownstream
    exact h.still (hsame ▸ rfl) (hsame ▸ rfl) (hsame ▸ rfl) (hsink ▸ rfl) (hsink ▸ rfl)
      (hdown ▸ rfl)
  | execute ok =>
    have hsame : p.transfer = q.transfer := Option.some.inj htransfer
    have hdown : p.downstream = q.downstream := Option.some.inj hdownstream
    obtain ⟨task, htask⟩ := Option.isSome_iff_exists.mp permits
    rw [sinkAction, htask] at hsink
    have hsink : p.sink.step (.execute task.input ok) = some q.sink := hsink
    obtain ⟨m, hplaced, hcontrol, hm⟩ :=
      NetworkSink.placed_of_step (NetworkSink.step_sound hsink)
    obtain rfl : m = none := by
      by_contra hne
      obtain ha | ha := hm hne <;> contradiction
    rw [Option.toList_none, List.append_nil] at hplaced hcontrol
    exact h.still (hsame ▸ rfl) (hsame ▸ rfl) (hsame ▸ rfl) hplaced (hcontrol nofun) (hdown ▸ rfl)
  | downstream =>
    have hsame : p.transfer = q.transfer := Option.some.inj htransfer
    have hsink : p.sink = q.sink := Option.some.inj hsink
    exact h.still (hsame ▸ rfl) (hsame ▸ rfl) (hsame ▸ rfl) (hsink ▸ rfl) (hsink ▸ rfl)
      (outputs_of_engine permits hdownstream)

theorem joined_of_reaches {C : Pipeline → Action → Prop} (h : (machine w).Reaches C p) :
    Joined w p :=
  h.invariant (I := Joined w) ⟨rfl, rfl, rfl⟩ fun _ _ _ _ ih _ hs => ih.step hs

theorem fed_of_reaches {P : Prop} (h : (machine w).Reaches
    (fun p a => p.Fresh w a ∧ (P → (upstreamPart w).Permits QueryEngine.Roomy p a)) p) :
    Fed w P p :=
  h.invariant (I := Fed w P) ⟨.refl _, fun _ => rfl, List.nodup_nil⟩
    fun _ _ _ _ ih hC hs => ih.step hC.1 hC.2 hs

/-- Buffers have numbers of their own, and the control queue has no room whenever the sink comes to
the last buffer of its overflow. -/
def Orderly (w : Wiring) (p : Pipeline) (a : Action) : Prop :=
  p.Fresh w a ∧ (sinkPart w).Permits NetworkSink.Crowded p a

instance (w : Wiring) (p : Pipeline) (a : Action) : Decidable (Orderly w p a) :=
  inferInstanceAs (Decidable (_ ∧ ∀ _ ∈ _, NetworkSink.Crowded _ _))

theorem placing_of_reaches (h : (machine w).Reaches (Orderly w) p) : p.sink.Placing :=
  NetworkSink.placing_of_reaches ((sinkPart w).reaches (h.mono fun _ _ hC => hC.2))

theorem placedData_nodup (h : (machine w).Reaches (Orderly w) p) :
    (p.sink.placedData.map TupleBuffer.sequence).Nodup := by
  have hfed : Fed w False p := fed_of_reaches (h.mono fun _ _ hC => ⟨hC.1, nofun⟩)
  have hexecuted := (List.sublist_append_left _ _).trans hfed.taken
  exact hfed.distinct.sublist (((placing_of_reaches h).placed.sublist.trans hexecuted).map _)

theorem fresh_of_step (h : (machine w).Reaches (Orderly w) p) (hC : Orderly w p a)
    (hs : p.step w a = some q) (hb : p.transferAction a = some b) : p.transfer.Fresh b := by
  have hjoined := joined_of_reaches h
  cases a with
  | sink c =>
    obtain ⟨m, hm, rfl⟩ := Option.map_eq_some_iff.mp hb
    obtain ⟨hplaced, -⟩ := placed_of_sink hs
    rw [hm] at hplaced
    cases m with
    | data d =>
      have hdata : q.sink.placedData = p.transfer.submittedData ++ [d] := by
        rw [NetworkSink.placedData, hplaced, List.filterMap_append, Transfer.submittedData,
          hjoined.placed]
        rfl
      have hnodup := placedData_nodup (.step h hC hs)
      rw [hdata, List.map_append] at hnodup
      have hnew := (List.nodup_append.mp hnodup).2.2
      refine decide_eq_true fun hmem => ?_
      exact hnew _ hmem _ List.mem_cons_self rfl
    | flush | terminate => rfl
  | transfer c =>
    obtain rfl := Option.some.inj hb
    obtain ⟨permits, -⟩ := step_eq_some hs
    cases c with
    | sender c =>
      cases c with
      | submit => contradiction
      | _ => rfl
    | source | accept => rfl
  | upstream | execute | downstream => contradiction

theorem transfer_reaches {P : Prop} (h : (machine w).Reaches (fun p a => Orderly w p a ∧
    (P → (transferPart w).Permits Transfer.KeepsBuffers p a)) p) :
    Transfer.machine.Reaches (fun c a => P → c.Fresh a ∧ c.KeepsBuffers a) p.transfer := by
  induction h with
  | init => exact .init
  | step hr hC hs ih =>
    refine ih.follow (fun b hb hP => ?_) ((transferPart w).step hs)
    exact ⟨fresh_of_step (hr.mono fun _ _ hC => hC.1) hC.1 hs hb, hC.2 hP b hb⟩

def exampleWiring : Wiring := ⟨.last 0, none, 0⟩

def exampleStart : List Action :=
  [.upstream (.startQuery [.last 0]), .downstream (.startQuery [.last 0]),
    .transfer (.source .start)]

def forwardTwice : List Action :=
  [.execute true, .sink .forward, .upstream .finish, .execute true, .sink .forward,
    .upstream .finish]

def connect : List Action :=
  [.transfer (.sender (.establish .ok)), .transfer (.sender (.connect true)),
    .transfer (.sender (.handler .advance))]

def reconnect : List Action :=
  [.transfer (.sender (.handler (.response (some (.error "reset"))))), .transfer (.sender .finish),
    .transfer (.sender (.retry true))] ++ connect

def takeBuffer (b : TupleBuffer) : List Action :=
  [.transfer (.sender (.handler (.request (some (.data b))))),
    .transfer (.sender (.handler .advance)),
    .transfer (.sender (.handler (.sendPending .complete))),
    .transfer (.sender (.handler .advance))]

def stopSink : List Action :=
  [.sink .stop, .sink .sendBlocking, .transfer (.sender (.handler (.request (some (.flush 0))))),
    .transfer (.sender (.handler .advance)), .transfer (.sender (.handler (.flush .complete))),
    .transfer (.accept 1)]

def pushBuffer (b : TupleBuffer) : List Action :=
  [.transfer (.source (.handle (.request (some (.ok (.data b)))))),
    .transfer (.source (.handle .push)), .transfer (.source (.handle (.send .complete))),
    .transfer (.source (.handle (.send .complete)))]

def executeNext : List Action :=
  [.transfer (.source .run), .transfer (.source .run), .transfer (.source .run),
    .transfer (.source .run), .downstream .pop, .downstream .finish]

def exampleLoss (b b' : TupleBuffer) : List Action :=
  forwardTwice ++ connect ++ takeBuffer b ++ reconnect ++ takeBuffer b' ++ stopSink ++
    pushBuffer b' ++ executeNext

/-- The first connection is lost before it carries anything.  Both buffers go over the next one,
and their ACKs are read. -/
def exampleFlush (b b' : TupleBuffer) : List Action :=
  forwardTwice ++ connect ++ reconnect ++ takeBuffer b ++ takeBuffer b' ++ stopSink ++
    pushBuffer b ++ pushBuffer b' ++
    [.transfer (.sender (.handler (.response (some (.ok (.ackData b.sequence)))))),
      .transfer (.sender (.handler .advance)), .transfer (.sender (.handler (.flush .complete))),
      .transfer (.sender (.handler (.response (some (.ok (.ackData b'.sequence))))))]

def exampleEmissions : List Action :=
  [.upstream (.emit 0 (exampleBuffer 1 [])), .upstream (.emit 0 (exampleBuffer 2 []))]

theorem pushed_sublist (h : (machine w).Reaches (Orderly w) p) :
    p.transfer.source.handler.pushed.Sublist p.sink.executed := by
  have htransfer : p.transfer.Ordered False :=
    Transfer.ordered_of_reaches (transfer_reaches (h.mono fun _ _ hC => ⟨hC, nofun⟩))
  have hpushed := htransfer.pushed_sublist.trans htransfer.data_sublist
  rw [Transfer.submittedData, (joined_of_reaches h).placed] at hpushed
  exact hpushed.trans (placing_of_reaches h).placed.sublist

theorem taken_sublist (h : (machine w).Reaches (Orderly w) p) :
    (outputs w (p.downstream.executed ++
      (p.downstream.worker.running ++ p.downstream.queue))).Sublist
        (inputs w p.upstream.emitted) := by
  have hjoined := joined_of_reaches h
  have hfed : Fed w False p := fed_of_reaches (h.mono fun _ _ hC => ⟨hC.1, nofun⟩)
  have htransfer : p.transfer.Ordered False :=
    Transfer.ordered_of_reaches (transfer_reaches (h.mono fun _ _ hC => ⟨hC, nofun⟩))
  have hdownstream : QueryEngine.machine.Reachable p.downstream :=
    (downstreamPart w).reaches (h.mono fun _ _ _ _ _ => trivial)
  have htaken : (outputs w (p.downstream.executed ++
      (p.downstream.worker.running ++ p.downstream.queue))).Sublist p.transfer.source.emitted := by
    rw [hjoined.emitted]
    exact ((QueryEngine.executed_sublist hdownstream).filter _).map _
  have hemitted : p.transfer.source.emitted.Sublist p.transfer.source.handler.pushed :=
    ((List.prefix_append _ _).trans htransfer.emitting.order.left_infix).sublist
  have hexecuted : p.sink.executed.Sublist (inputs w p.upstream.emitted) :=
    (List.sublist_append_left _ _).trans hfed.taken
  exact htaken.trans (hemitted.trans ((pushed_sublist h).trans hexecuted))

/-- Whatever the two queues refuse and the connections lose, the pipelines of the second node are
executed on buffers that were emitted to the sink of the first, in the order in which they were
emitted and on each at most once. -/
theorem delivered_in_order (h : (machine w).Reaches (Orderly w) p) :
    (outputs w p.downstream.executed).Sublist (inputs w p.upstream.emitted) ∧
      (outputs w p.downstream.executed).Nodup := by
  have hfed : Fed w False p := fed_of_reaches (h.mono fun _ _ hC => ⟨hC.1, nofun⟩)
  have hexecuted : (outputs w p.downstream.executed).Sublist (inputs w p.upstream.emitted) := by
    refine List.Sublist.trans ?_ (taken_sublist h)
    rw [outputs_append]
    exact List.sublist_append_left _ _
  exact ⟨hexecuted, hfed.distinct.of_map.sublist hexecuted⟩

theorem delivered_in_order_lost :
    ∃ p, (machine exampleWiring).Reaches (Orderly exampleWiring) p ∧
      inputs exampleWiring p.upstream.emitted = [exampleBuffer 1 [], exampleBuffer 2 []] ∧
      outputs exampleWiring p.downstream.executed = [exampleBuffer 2 []] ∧
      (outputs exampleWiring p.downstream.executed).Sublist
        (inputs exampleWiring p.upstream.emitted) := by
  obtain ⟨p, hp, hinputs, houtputs⟩ := Machine.exists_reaches_of_replay
    (M := machine exampleWiring) (C := Orderly exampleWiring)
    (P := fun p =>
      inputs exampleWiring p.upstream.emitted = [exampleBuffer 1 [], exampleBuffer 2 []] ∧
      outputs exampleWiring p.downstream.executed = [exampleBuffer 2 []])
    (exampleStart ++ exampleEmissions ++ exampleLoss (exampleBuffer 1 []) (exampleBuffer 2 []))
    (by decide)
  exact ⟨p, hp, hinputs, houtputs, (delivered_in_order hp).1⟩

/-- Besides, both queues have room for every task, no pipeline panics, the sink is stopped with
an empty overflow, and no handler ends while it holds a buffer. -/
def Careful (w : Wiring) (p : Pipeline) (a : Action) : Prop :=
  Orderly w p a ∧ (upstreamPart w).Permits QueryEngine.Roomy p a ∧
    (sinkPart w).Permits NetworkSink.StopsDrained p a ∧
    (transferPart w).Permits Transfer.KeepsBuffers p a ∧
    (downstreamPart w).Permits QueryEngine.Roomy p a

instance (w : Wiring) (p : Pipeline) (a : Action) : Decidable (Careful w p a) :=
  inferInstanceAs (Decidable (_ ∧ (∀ _ ∈ _, QueryEngine.Roomy _ _) ∧
    (∀ _ ∈ _, NetworkSink.StopsDrained _ _) ∧ (∀ _ ∈ _, Transfer.KeepsBuffers _ _) ∧
    ∀ _ ∈ _, QueryEngine.Roomy _ _))

theorem ordered_of_careful (h : (machine w).Reaches (Careful w) p) : p.transfer.Ordered True :=
  Transfer.ordered_of_reaches
    (transfer_reaches (h.mono fun _ _ hC => ⟨hC.1, fun _ => hC.2.2.2.1⟩))

structure Flushed (p : Pipeline) : Prop where
  executed : p.sink.executed = p.transfer.source.handler.pushed
  past : p.sink.phase.pastFlush = true

theorem flushed_of_signal (h : (machine w).Reaches (Careful w) p)
    (hs : p.transfer.signals e = some done) : p.Flushed := by
  have hplacing := placing_of_reaches (h.mono fun _ _ hC => hC.1)
  have hstopping := NetworkSink.stopping_of_reaches
    ((sinkPart w).reaches (h.mono fun _ _ hC => hC.2.2.1))
  obtain ⟨before, -, hsubmitted, hpushed⟩ := (ordered_of_careful h).flushed hs
  have hplaced : p.sink.placed = before ++ .flush done :: p.transfer.sender.queue := by
    rw [← (joined_of_reaches h).placed, hsubmitted, List.append_assoc]
    rfl
  constructor
  · exact (NetworkSink.executed_before_flush hplacing hstopping hplaced).trans hpushed.symm
  · by_contra hphase
    have hmem : Sender.ChannelControlMessage.flush done ∈ p.sink.placed :=
      hplaced ▸ List.mem_append_right _ List.mem_cons_self
    exact hstopping.onlyData (Bool.eq_false_iff.mpr hphase) _ hmem rfl

theorem Flushed.step (h : p.Flushed) (hq : (machine w).Reaches (Careful w) q)
    (hs : p.step w a = some q) : q.Flushed := by
  obtain ⟨-, -, hsink, htransfer, -⟩ := step_eq_some hs
  obtain ⟨hpast, hexecuted⟩ :
      q.sink.phase.pastFlush = true ∧ q.sink.executed = p.sink.executed := by
    obtain ⟨-, hsame⟩ | ⟨b, -, hstep⟩ := Machine.follow_cases hsink
    · rw [hsame]
      exact ⟨h.past, rfl⟩
    · exact NetworkSink.pastFlush_of_step (NetworkSink.step_sound hstep) h.past
  have hgrows : p.transfer.source.handler.pushed <+: q.transfer.source.handler.pushed := by
    obtain ⟨-, hsame⟩ | ⟨b, -, hstep⟩ := Machine.follow_cases htransfer
    · rw [hsame]
    · exact Transfer.pushed_grows hstep
  -- The source has pushed no less than before, and no more than the sink has executed.
  have hpushed := pushed_sublist (hq.mono fun _ _ hC => hC.1)
  rw [hexecuted, h.executed] at hpushed
  refine ⟨?_, hpast⟩
  rw [hexecuted, h.executed]
  exact hgrows.eq_of_length_le hpushed.length_le

theorem Flushed.source (h : p.Flushed) (hp : (machine w).Reaches (Careful w) p) :
    inputs w p.upstream.emitted =
      p.transfer.source.emitted ++ p.transfer.source.hand ++ p.transfer.source.handler.queue ++
        inputs w p.upstream.queue := by
  have hfed : Fed w True p := fed_of_reaches (hp.mono fun _ _ hC => ⟨hC.1.1, fun _ => hC.2.1⟩)
  rw [← hfed.all trivial, h.executed, (ordered_of_careful hp).emitting.order]

theorem emitted_of_careful (h : (machine w).Reaches (Careful w) p) :
    p.transfer.source.emitted =
      outputs w (p.downstream.executed ++ (p.downstream.worker.running ++ p.downstream.queue)) := by
  have hdownstream : p.downstream.Lossless := QueryEngine.lossless
    ((downstreamPart w).reaches (h.mono fun _ _ hC => hC.2.2.2.2))
  rw [(joined_of_reaches h).emitted, hdownstream]

/-- When the Flush of the sink is signalled, every buffer that was emitted to the sink and that
its engine has taken has reached the other node, once and in order: the source has it, or the
engine there has it in its queue, or executes or has executed it. -/
theorem flushed_end_to_end (h : (machine w).Reaches (Careful w) p)
    (hs : p.transfer.signals e = some done) :
    inputs w p.upstream.emitted =
      outputs w (p.downstream.executed ++ (p.downstream.worker.running ++ p.downstream.queue)) ++
        (p.transfer.source.hand ++ p.transfer.source.handler.queue) ++
        inputs w p.upstream.queue := by
  rw [(flushed_of_signal h hs).source h, emitted_of_careful h, List.append_assoc (outputs w _)]

theorem flushed_end_to_end_two :
    ∃ p, (machine exampleWiring).Reaches (Careful exampleWiring) p ∧
      p.transfer.signals .advance = some 0 ∧
      outputs exampleWiring p.downstream.executed = [exampleBuffer 1 []] ∧
      inputs exampleWiring p.upstream.emitted = [exampleBuffer 1 [], exampleBuffer 2 []] := by
  obtain ⟨p, hp, hsignals, hexecuted, hqueue, hsource, hupstream⟩ :=
    Machine.exists_reaches_of_replay (M := machine exampleWiring) (C := Careful exampleWiring)
      (P := fun p => p.transfer.signals .advance = some 0 ∧
        outputs exampleWiring p.downstream.executed = [exampleBuffer 1 []] ∧
        p.downstream.worker.running ++ p.downstream.queue = [] ∧
        p.transfer.source.hand ++ p.transfer.source.handler.queue = [exampleBuffer 2 []] ∧
        p.upstream.queue = [])
      (exampleStart ++ exampleEmissions ++
        exampleFlush (exampleBuffer 1 []) (exampleBuffer 2 []) ++ executeNext) (by decide)
  refine ⟨p, hp, hsignals, hexecuted, (flushed_end_to_end hp hsignals).trans ?_⟩
  rw [hqueue, List.append_nil, hexecuted, hsource, hupstream]
  rfl

end Pipeline

end BdsPro.TestNode
