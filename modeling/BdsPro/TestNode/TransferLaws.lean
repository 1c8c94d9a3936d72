import BdsPro.Network.DataConnectionLaws
import BdsPro.Network.Sender.IssueLaws
import BdsPro.TestNode.EmissionLaws
import BdsPro.TestNode.Transfer

namespace BdsPro.TestNode

open BdsPro.Library BdsPro.Network
open Sender (streamData)

namespace Transfer

def received (c : Transfer) : List TupleBuffer :=
  streamData (Segments.upTo c.streams (c.accepted - 1) c.requestsRead)

structure Carried (c : Transfer) : Prop where
  served : ∃ carried, carried.Sublist ((c.streams.take (c.accepted - 1)).flatMap streamData) ∧
    c.source.handler.Served (carried ++ c.received)
  accepted : c.accepted ≤ c.streams.length
  read : c.requestsRead ≤ (c.streams[c.accepted - 1]?.getD []).length
  unread : c.accepted = 0 → c.requestsRead = 0

theorem sender_eq_some {c t : Transfer} (hs : c.step (.sender a) = some t) :
    c.senderReads a = true ∧ ∃ s n, c.sender.step a = some s ∧ t = { c with
      sender := s
      past := c.past ++ dropped c.sender a
      responsesRead := n
      submitted := c.submitted ++ a.submitted.toList } := by
  simp only [step, Option.ite_none_right_eq_some, Option.map_eq_some_iff] at hs
  obtain ⟨hreads, s, hs, rfl⟩ := hs
  exact ⟨hreads, s, _, hs, rfl⟩

theorem live_running {c : Sender.Channel} (hs : c.stage = .running h) :
    live c = [h.writer.wire] := by simp only [live, hs]

theorem live_idle {c : Sender.Channel} (hs : ∀ h, c.stage ≠ .running h) : live c = [] := by
  unfold live
  split
  next h heq => exact absurd heq (hs h)
  next => rfl

theorem live_grows {c t : Sender.Channel} (hs : c.step a = some t)
    (past : List (List DataChannelRequest)) :
    Segments.Grows (past ++ live c) (past ++ dropped c a ++ live t) := by
  by_cases hfinish : a = .finish
  · subst hfinish
    obtain ⟨h, err, -, -, -, htarget⟩ := Sender.Channel.finish_eq_some hs
    have hidle : ∀ h, t.stage ≠ .running h := by
      obtain htarget | ⟨htarget, -⟩ := htarget <;> simp [htarget]
    rw [live_idle hidle, List.append_nil]
    exact .still
  · have hdropped : dropped c a = [] := by
      unfold dropped
      split
      next => contradiction
      next => rfl
    rw [hdropped, List.append_nil]
    cases Sender.Channel.step_sound hs with
    | still stage =>
      simp only [live, stage]
      exact .still
    | idle source target =>
      rw [live_idle source, live_idle target]
      exact .still
    | start source =>
      rw [live_idle source, List.append_nil]
      exact .opened
    | handler event =>
      obtain ⟨h, h', queue, hstage, -, hstep, -, rfl⟩ := Sender.Channel.handler_eq_some event
      rw [live_running hstage, live_running rfl]
      exact .extended (Sender.ChannelHandler.wire_of_step hstep)
    | finish => contradiction

theorem Carried.grow {c t : Transfer} (h : c.Carried) (hg : Segments.Grows c.streams t.streams)
    (hsource : t.source = c.source) (haccepted : t.accepted = c.accepted)
    (hread : t.requestsRead = c.requestsRead) : t.Carried := by
  obtain ⟨carried, hcarried, hserved⟩ := h.served
  have htake : t.streams.take (t.accepted - 1) = c.streams.take (c.accepted - 1) := by
    rw [haccepted]
    by_cases hzero : c.accepted = 0
    · simp [hzero]
    · exact hg.take (by have := h.accepted; omega)
  have hreceived : t.received = c.received := by
    rw [received, received, haccepted, hread, hg.upTo h.read]
  refine ⟨⟨carried, htake ▸ hcarried, ?_⟩, ?_, ?_, ?_⟩
  · rw [hreceived, hsource]
    exact hserved
  · exact haccepted ▸ h.accepted.trans hg.length
  · rw [haccepted, hread]
    exact h.read.trans (hg.log _).length_le
  · rw [haccepted, hread]
    exact h.unread

theorem streamData_take (w : List DataChannelRequest) (n : Nat) :
    (streamData (w.take n)).Sublist (streamData w) :=
  (List.take_sublist n w).filterMap _

theorem Carried.pushed_sublist {c : Transfer} (h : c.Carried) :
    c.source.handler.pushed.Sublist ((c.streams.take c.accepted).flatMap streamData) := by
  obtain ⟨carried, hcarried, hserved⟩ := h.served
  obtain ⟨lost, hl, -⟩ := hserved.read
  have hpushed : c.source.handler.pushed.Sublist (carried ++ c.received) := by
    rw [hl, List.append_assoc]
    exact List.sublist_append_left _ _
  refine hpushed.trans ?_
  rcases Nat.eq_zero_or_pos c.accepted with hzero | hpos
  · have hreceived : c.received = [] := by
      rw [received, h.unread hzero]
      rfl
    rw [hreceived, List.append_nil]
    simpa [hzero] using hcarried
  · have hk : c.accepted - 1 < c.streams.length := by have := h.accepted; omega
    have hread := Segments.read_sublist hk streamData_take hcarried c.requestsRead
    rwa [Nat.sub_add_cancel hpos] at hread

def reads : NetworkSource.Action → Option TupleBuffer
  | .handle e => Receiver.ChannelHandler.reads e
  | _ => none

theorem served_of_step {s t : NetworkSource} (hs : s.step a = some t) (ha : a ≠ .connect)
    (h : s.handler.Served l) : t.handler.Served (l ++ (reads a).toList) := by
  cases NetworkSource.step_sound hs with
  | connect => contradiction
  | handle _ handled => exact h.step handled
  | _ => exact (List.append_nil l).symm ▸ ⟨h.read, h.responses, h.acking⟩

theorem pushed_of_step {s t : NetworkSource} (hs : s.step a = some t) :
    s.handler.pushed <+: t.handler.pushed := by
  cases NetworkSource.step_sound hs with
  | handle _ handled => exact (Receiver.ChannelHandler.grows handled).1
  | _ => exact List.prefix_rfl

theorem reads_eq_some {a : NetworkSource.Action} (h : reads a = some b) :
    a = .handle (.request (some (.ok (.data b)))) := by
  unfold reads Receiver.ChannelHandler.reads at h
  split at h
  next e =>
    split at h
    next r =>
      cases r with
      | data => exact Option.some.inj h ▸ rfl
      | close => contradiction
    next => contradiction
  next => contradiction

theorem source_eq_some {c t : Transfer} (hs : c.step (.source a) = some t) :
    a ≠ .connect ∧ c.source.step a = some t.source ∧
      t.sender = c.sender ∧ t.past = c.past ∧ t.submitted = c.submitted ∧
      t.accepted = c.accepted ∧ t.received = c.received ++ (reads a).toList ∧
      (t.requestsRead = c.requestsRead ∨ 0 < c.accepted ∧
        t.requestsRead ≤ (c.streams[c.accepted - 1]?.getD []).length) := by
  simp only [step, Option.ite_none_right_eq_some, Option.map_eq_some_iff] at hs
  obtain ⟨hreads, s, hs, rfl⟩ := hs
  refine ⟨?_, hs, rfl, rfl, rfl, rfl, ?_⟩
  · rintro rfl
    contradiction
  · split
    next r =>
      obtain ⟨hpos, hr⟩ := of_decide_eq_true hreads
      refine ⟨?_, .inr ⟨hpos, (List.getElem?_eq_some_iff.mp hr).1⟩⟩
      have hread := congrArg streamData (Segments.upTo_succ hr)
      exact hread.trans (Table.filterMap_concat _ _ _)
    next hother =>
      have hnone : reads a = none := by
        refine Option.eq_none_iff_forall_ne_some.mpr fun b hb => ?_
        exact hother _ (reads_eq_some hb)
      rw [hnone]
      exact ⟨(List.append_nil _).symm, .inl rfl⟩

theorem Carried.source {c t : Transfer} (h : c.Carried) (hs : c.step (.source a) = some t) :
    t.Carried := by
  obtain ⟨hconnect, hstep, hsender, hpast, -, haccepted, hreceived, hread⟩ := source_eq_some hs
  obtain ⟨carried, hcarried, hserved⟩ := h.served
  have hstreams : t.streams = c.streams := by rw [streams, streams, hsender, hpast]
  refine ⟨⟨carried, ?_, ?_⟩, ?_, ?_, fun hzero => ?_⟩
  · rwa [hstreams, haccepted]
  · rw [hreceived, ← List.append_assoc]
    exact served_of_step hstep hconnect hserved
  · rw [hstreams, haccepted]
    exact h.accepted
  · rw [hstreams, haccepted]
    obtain hsame | ⟨-, hle⟩ := hread
    · exact hsame ▸ h.read
    · exact hle
  · obtain hsame | ⟨hpos, -⟩ := hread
    · exact hsame ▸ h.unread (haccepted ▸ hzero)
    · exact absurd (haccepted ▸ hzero) hpos.ne'

theorem accept_eq_some {c t : Transfer} (hs : c.step (.accept k) = some t) :
    c.accepted ≤ k ∧ k < c.streams.length ∧ ∃ s, c.source.step .connect = some s ∧ t = { c with
      source := s
      accepted := k + 1
      requestsRead := 0 } := by
  simp only [step, Option.ite_none_right_eq_some, Option.map_eq_some_iff] at hs
  obtain ⟨⟨hle, hlt⟩, s, hs, rfl⟩ := hs
  exact ⟨hle, hlt, s, hs, rfl⟩

theorem pushed_grows {c t : Transfer} (hs : c.step a = some t) :
    c.source.handler.pushed <+: t.source.handler.pushed := by
  cases a with
  | sender a =>
    obtain ⟨-, s, n, -, rfl⟩ := sender_eq_some hs
    exact List.prefix_rfl
  | source a => exact pushed_of_step (source_eq_some hs).2.1
  | accept k =>
    obtain ⟨-, -, s, hconnect, rfl⟩ := accept_eq_some hs
    exact pushed_of_step hconnect

theorem Carried.accept {c t : Transfer} (h : c.Carried) (hs : c.step (.accept k) = some t) :
    t.Carried := by
  obtain ⟨hle, hlt, s, hconnect, rfl⟩ := accept_eq_some hs
  obtain ⟨-, hconnect⟩ := Option.ite_none_right_eq_some.mp hconnect
  obtain rfl := Option.some.inj hconnect
  refine ⟨⟨c.source.handler.pushed, ?_, ?_⟩, hlt, Nat.zero_le _, nofun⟩
  · exact h.pushed_sublist.trans (Segments.take_sublist hle)
  · refine Receiver.ChannelHandler.Served.go ?_ nofun nofun
    simp only [received, Segments.upTo, List.take_zero]
    rfl

structure Ordered (P : Prop) (c : Transfer) : Prop where
  fifo : Fifo c.submitted c.sender.trace.taken c.sender.queue
  distinct : P → (c.submittedData.map TupleBuffer.sequence).Nodup
  issued : c.sender.Issued P (· ∈ c.source.handler.pushed) (c.past.flatMap streamData)
  flush : c.sender.FlushLast
  emitting : c.source.Emitting
  carried : c.Carried

theorem wireData_live (c : Sender.Channel) : (live c).flatMap streamData = c.wireData := by
  unfold live Sender.Channel.wireData
  cases c.stage <;> simp

theorem Ordered.data_sublist {P : Prop} {c : Transfer} (h : c.Ordered P) :
    c.sender.trace.data.Sublist c.submittedData :=
  h.fifo.left_infix.sublist.filterMap _

theorem Ordered.pushed_sublist {P : Prop} {c : Transfer} (h : c.Ordered P) :
    c.source.handler.pushed.Sublist c.sender.trace.data := by
  have hstreams : (c.streams.flatMap streamData).Sublist c.sender.trace.data := by
    rw [streams, List.flatMap_append, wireData_live]
    exact h.issued.sublist
  exact (h.carried.pushed_sublist.trans ((List.take_sublist _ _).flatMap streamData)).trans hstreams

theorem Ordered.acked {P : Prop} {c : Transfer} (h : c.Ordered P) (hP : P)
    (hack : .ackData seq ∈ c.source.handler.writer.wire) (hb : b ∈ c.sender.trace.data)
    (hseq : b.sequence = seq) : b ∈ c.source.handler.pushed := by
  obtain ⟨_, _, hserved⟩ := h.carried.served
  have hacc := (FramedWrite.wire_prefix_accepted c.source.handler.writer).subset hack
  obtain ⟨b', hb', hseq'⟩ := hserved.responses _ hacc
  have hmem : b' ∈ c.submittedData := h.data_sublist.subset (h.pushed_sublist.subset hb')
  have heq := List.inj_on_of_nodup_map (h.distinct hP) hmem (h.data_sublist.subset hb)
    (hseq'.trans hseq.symm)
  exact heq ▸ hb'

theorem response_of_reads {c : Transfer}
    (h : c.senderReads (.handler (.response (some (.ok r)))) = true) :
    r ∈ c.source.handler.writer.wire :=
  List.mem_of_getElem? (of_decide_eq_true h).2

theorem distinct_concat {c : Transfer} (h : (c.submittedData.map TupleBuffer.sequence).Nodup)
    (hf : c.Fresh (.sender a)) :
    (((c.submitted ++ a.submitted.toList).filterMap
      Sender.ChannelControlMessage.buffer).map TupleBuffer.sequence).Nodup := by
  have hdata : (c.submitted ++ a.submitted.toList).filterMap Sender.ChannelControlMessage.buffer =
      c.submittedData ++ (a.submitted.bind (·.buffer)).toList := by
    rw [List.filterMap_append]
    refine congrArg (c.submittedData ++ ·) ?_
    cases a.submitted with
    | none => rfl
    | some m => cases m <;> rfl
  rw [hdata]
  refine Sender.ChannelRun.distinct_append h ?_
  cases a with
  | submit m =>
    cases m with
    | data b =>
      rintro _ ⟨⟩
      exact of_decide_eq_true hf
    | flush | terminate => nofun
  | dropQueue | establish | connect | handler | finish | retry => nofun

theorem Ordered.sender {P : Prop} {c t : Transfer} (h : c.Ordered P)
    (hf : P → c.Fresh (.sender a)) (hkeeps : P → c.sender.KeepsBuffers a)
    (hs : c.step (.sender a) = some t) : t.Ordered P := by
  obtain ⟨hreads, s, n, hstep, rfl⟩ := sender_eq_some hs
  have hdistinct (hP : P) := (h.distinct hP).sublist (h.data_sublist.map _)
  refine ⟨Sender.Channel.fifo_step h.fifo hstep, fun hP => distinct_concat (h.distinct hP) (hf hP),
    ?_, h.flush.step hstep, h.emitting, h.carried.grow (live_grows hstep c.past) rfl rfl rfl⟩
  have hleaves : (dropped c.sender a).flatMap streamData = c.sender.leaves a := by
    unfold dropped Sender.Channel.leaves
    split <;> simp [wireData_live]
  rw [List.flatMap_append, hleaves]
  refine h.issued.step hdistinct ?_ ?_ hkeeps hstep
  · rintro hP seq rfl b hb hseq
    exact h.acked hP (response_of_reads hreads) hb hseq
  · rintro seq rfl
    obtain ⟨_, _, hserved⟩ := h.carried.served
    exact hserved.responses _
      ((FramedWrite.wire_prefix_accepted _).subset (response_of_reads hreads))

theorem Ordered.source {P : Prop} {c t : Transfer} (h : c.Ordered P)
    (hs : c.step (.source a) = some t) : t.Ordered P := by
  obtain ⟨-, hstep, hsender, hpast, hsubmitted, -⟩ := source_eq_some hs
  have hpushed := (pushed_of_step hstep).subset
  have hdata : t.submittedData = c.submittedData := by rw [submittedData, hsubmitted]; rfl
  refine ⟨?_, hdata ▸ h.distinct, ?_, hsender ▸ h.flush, h.emitting.step hstep,
    h.carried.source hs⟩
  · rw [hsubmitted, hsender]
    exact h.fifo
  · rw [hsender, hpast]
    exact h.issued.mono fun b hb => hpushed hb

theorem Ordered.accept {P : Prop} {c t : Transfer} (h : c.Ordered P)
    (hs : c.step (.accept k) = some t) : t.Ordered P := by
  have hcarried := h.carried.accept hs
  obtain ⟨-, -, s, hconnect, rfl⟩ := accept_eq_some hs
  have hemitting := h.emitting.step hconnect
  obtain ⟨-, hconnect⟩ := Option.ite_none_right_eq_some.mp hconnect
  obtain rfl := Option.some.inj hconnect
  exact ⟨h.fifo, h.distinct, h.issued, h.flush, hemitting, hcarried⟩

theorem ordered_of_reaches {P : Prop} {c : Transfer}
    (h : machine.Reaches (fun c a => P → c.Fresh a ∧ c.KeepsBuffers a) c) : c.Ordered P := by
  refine h.invariant ?_ fun c a t _ ih hC hs => ?_
  · refine ⟨rfl, fun _ => List.nodup_nil, .idle nofun (List.Sublist.refl _) nofun, nofun, ?_, ?_⟩
    · exact ⟨rfl, by decide, nofun, nofun⟩
    · exact ⟨⟨[], List.Sublist.refl _, .new⟩, Nat.le_refl _, Nat.le_refl _, fun _ => rfl⟩
  · cases a with
    | sender a => exact ih.sender (fun hP => (hC hP).1) (fun hP => (hC hP).2) hs
    | source a => exact ih.source hs
    | accept k => exact ih.accept hs

def exampleTransfer : List Action :=
  [.source .start, .sender (.submit (.data (exampleBuffer 1 []))), .sender (.submit (.flush 1)),
    .sender (.establish .ok), .sender (.connect true), .sender (.handler .advance),
    .sender (.handler (.request (some (.data (exampleBuffer 1 []))))),
    .sender (.handler .advance), .sender (.handler (.sendPending .complete)),
    .sender (.handler .advance), .sender (.handler (.request (some (.flush 1)))),
    .sender (.handler .advance), .sender (.handler (.flush .complete)), .accept 0,
    .source (.handle (.request (some (.ok (.data (exampleBuffer 1 [])))))),
    .source (.handle .push), .source (.handle (.send .complete)),
    .source (.handle (.send .complete))]

def secondTransfer : List Action :=
  [.sender (.retry true), .sender (.submit (.data (exampleBuffer 2 []))),
    .sender (.submit (.flush 2)), .sender (.establish .ok), .sender (.connect true),
    .sender (.handler .advance),
    .sender (.handler (.request (some (.data (exampleBuffer 2 []))))),
    .sender (.handler .advance), .sender (.handler (.sendPending .complete)),
    .sender (.handler .advance), .sender (.handler (.request (some (.flush 2)))),
    .sender (.handler .advance), .sender (.handler (.flush .complete)), .accept 1,
    .source (.handle (.request (some (.ok (.data (exampleBuffer 2 [])))))),
    .source (.handle .push), .source (.handle (.send .complete)),
    .source (.handle (.send .complete))]

theorem transferred_at_most_once {c : Transfer} (h : machine.Reachable c) :
    c.source.handler.pushed.Sublist c.submittedData ∧
      c.source.emitted <+: c.source.handler.pushed ∧
      ((c.submittedData.map TupleBuffer.sequence).Nodup → c.source.emitted.Nodup) := by
  have hc : c.Ordered False := ordered_of_reaches (h.mono fun _ _ _ => nofun)
  have hpushed := hc.pushed_sublist.trans hc.data_sublist
  have hemitted : c.source.emitted <+: c.source.handler.pushed :=
    (List.prefix_append _ _).trans hc.emitting.order.left_infix
  refine ⟨hpushed, hemitted, fun hdistinct => ?_⟩
  exact (hdistinct.of_map.sublist hpushed).sublist hemitted.sublist

theorem transferred_at_most_once_reconnected :
    ∃ c, machine.Reachable c ∧
      [exampleBuffer 1 [], exampleBuffer 2 []].Sublist c.submittedData ∧
      c.source.emitted <+: [exampleBuffer 1 [], exampleBuffer 2 []] ∧ c.source.emitted.Nodup := by
  obtain ⟨c, hc, hpushed, hdistinct⟩ := Machine.exists_reaches_of_replay (M := machine)
    (C := fun _ _ => True)
    (P := fun c => c.source.handler.pushed = [exampleBuffer 1 [], exampleBuffer 2 []] ∧
      (c.submittedData.map TupleBuffer.sequence).Nodup)
    (exampleTransfer ++
      [.sender (.handler (.response (some (.error "reset")))), .sender .finish,
        .source (.handle (.request none)), .source .giveBack] ++ secondTransfer) (by decide)
  obtain ⟨hsubmitted, hemitted, honce⟩ := transferred_at_most_once hc
  exact ⟨c, hc, hpushed ▸ hsubmitted, hpushed ▸ hemitted, honce hdistinct⟩

theorem signals_eq_some {c : Transfer} (hs : c.signals e = some done) :
    ∃ h, c.sender.stage = .running h ∧ h.phase = .head (.flush done) ∧
      h.pendingWrites = [] ∧ h.waitForAck.size = 0 := by
  unfold signals at hs
  split at hs
  next h stage => exact ⟨h, stage, DataConnection.signals_eq_some hs⟩
  next => contradiction

theorem Ordered.flushed {c : Transfer} (h : c.Ordered True) (hs : c.signals e = some done) :
    ∃ before, c.sender.trace.taken = before ++ [.flush done] ∧
      c.submitted = before ++ [.flush done] ++ c.sender.queue ∧
      c.source.handler.pushed = before.filterMap Sender.ChannelControlMessage.buffer := by
  obtain ⟨s, hstage, hphase, hpending, hempty⟩ := signals_eq_some hs
  obtain ⟨before, (htaken : c.sender.trace.taken = _)⟩ :=
    h.flush s hstage done (by rw [hphase]; rfl)
  have hdelivered : c.sender.trace.data ⊆ c.source.handler.pushed := by
    cases h.issued with
    | idle stage => exact absurd hstage (stage s)
    | running stage data _ delivered order =>
      obtain rfl := Sender.Stage.running.inj (stage.symm.trans hstage)
      have horder := order.data
      rw [hpending, List.append_nil] at horder
      intro b hb
      rw [data, horder] at hb
      obtain hb | hb := List.mem_append.mp hb
      · exact delivered trivial b hb
      · obtain hentry | hpushed := order.tracked trivial b hb
        · exact nomatch (Map.lookup_eq_none_of_size hempty b.sequence).symm.trans hentry
        · exact hpushed
  have hnodup := ((h.distinct trivial).sublist (h.data_sublist.map _)).of_map
  refine ⟨before, htaken, htaken ▸ h.fifo, ?_⟩
  rw [DataConnection.eq_of_sublist_of_subset h.pushed_sublist hnodup hdelivered]
  simp only [Sender.Trace.data, htaken, Table.filterMap_concat]
  exact List.append_nil _

/-- If no handler ends with a buffer in its hands, a Flush of a later one is signalled when all
that was submitted before it has been pushed, in order and exactly once, over the connections
up to then. -/
theorem transferred_exactly_once {c : Transfer}
    (h : machine.Reaches (fun c a => c.Fresh a ∧ c.KeepsBuffers a) c)
    (hs : c.signals e = some done) :
    ∃ before, c.sender.trace.taken = before ++ [.flush done] ∧
      c.submitted = before ++ [.flush done] ++ c.sender.queue ∧
      c.source.handler.pushed = before.filterMap Sender.ChannelControlMessage.buffer :=
  (ordered_of_reaches (h.mono fun _ _ hC _ => hC)).flushed hs

theorem transferred_exactly_once_reconnected :
    ∃ c before, machine.Reaches (fun c a => c.Fresh a ∧ c.KeepsBuffers a) c ∧
      c.sender.trace.taken = before ++ [.flush 2] ∧
      before.filterMap Sender.ChannelControlMessage.buffer =
        [exampleBuffer 1 [], exampleBuffer 2 []] := by
  obtain ⟨c, hc, hsignals, hpushed⟩ := Machine.exists_reaches_of_replay (M := machine)
    (C := fun c a => c.Fresh a ∧ c.KeepsBuffers a)
    (P := fun c => c.signals .advance = some 2 ∧
      c.source.handler.pushed = [exampleBuffer 1 [], exampleBuffer 2 []])
    (exampleTransfer ++
      [.sender (.handler (.response (some (.ok (.ackData (1, 0)))))), .sender (.handler .advance),
        .sender (.handler .advance), .sender (.handler (.response (some (.error "reset")))),
        .sender .finish, .source (.handle (.request none)), .source .giveBack] ++
      secondTransfer ++
      [.sender (.handler (.response (some (.ok (.ackData (2, 0))))))]) (by decide)
  obtain ⟨before, htaken, -, hbefore⟩ := transferred_exactly_once hc hsignals
  exact ⟨c, before, hc, htaken, hbefore ▸ hpushed⟩

end Transfer

end BdsPro.TestNode
