import BdsPro.Network.Receiver.ChannelHandlerLaws
import BdsPro.TestNode.NetworkSource

namespace BdsPro.TestNode

open BdsPro.Library BdsPro.Network BdsPro.Network.Receiver

def feeds (h : Receiver.ChannelHandler) : Bool :=
  match h.phase with
  | .queueing _ | .ended (.ok ()) | .ended (.error .cancelled) => true
  | _ => false

theorem queue_of_step {h t : Receiver.ChannelHandler} (hs : h.step e = some t) (pop : e ≠ .pop) :
    h.queue <+: t.queue ∧ (h.queueClosed = true → t.queueClosed = true) := by
  cases Receiver.ChannelHandler.step_sound hs with
  | pop => contradiction
  | pushed => exact ⟨List.prefix_append _ _, id⟩
  | close | closeQueue => exact ⟨List.prefix_rfl, fun _ => rfl⟩
  | _ => exact ⟨List.prefix_rfl, id⟩

theorem feeds_of_step {h t : Receiver.ChannelHandler} (hs : h.step e = some t)
    (hf : feeds h = true) : t.queue ≠ [] ∨ t.queueClosed = true ∨ feeds t = true := by
  cases Receiver.ChannelHandler.step_sound hs with
  | cancel | pop => exact .inr (.inr hf)
  | cancelled => exact .inr (.inr rfl)
  | refused _ closed => exact .inr (.inl closed)
  | pushed => exact .inl (by simp)
  | closeQueue => exact .inr (.inl rfl)
  | lost phase | garbled phase | data phase | close phase => simp [feeds, phase] at hf
  | acking phase | acked phase | ackFailed phase => simp [feeds, phase] at hf
  | closing phase | closed phase | closeFailed phase => simp [feeds, phase] at hf

theorem feeds_of_failed {h : Receiver.ChannelHandler} (phase : h.phase = .ended (.error e))
    (live : e ≠ .cancelled) : feeds h = false := by
  cases e with
  | cancelled => contradiction
  | closedByOtherSide | network _ => simp [feeds, phase]

def Closing (h : Receiver.ChannelHandler) : Prop :=
  ∀ fed, h.phase = .closing fed → h.queueClosed = true

theorem Closing.step {h t : Receiver.ChannelHandler} (hc : Closing h) (hs : h.step e = some t) :
    Closing t := by
  cases Receiver.ChannelHandler.step_sound hs with
  | cancel | pop => exact hc
  | refused _ closed => exact fun _ _ => closed
  | closing phase => exact fun _ _ => hc _ phase
  | closeQueue => exact fun _ _ => rfl
  | _ => exact nofun

namespace NetworkSource

def Fed (s : NetworkSource) : Prop :=
  s.handler.queue ≠ [] ∨ s.handler.queueClosed = true ∨
    s.holder = .handler ∧ feeds s.handler = true

instance (s : NetworkSource) : Decidable s.Fed := inferInstanceAs (Decidable (_ ∨ _))

/-- `stop` is not called while the thread waits for a buffer that nobody in the node has. -/
def timely (s : NetworkSource) : Action → Bool
  | .stop => s.stopping ≠ .idle ∨ s.thread ≠ some .receiving ∨ s.Fed
  | _ => true

def Timely (s : NetworkSource) (a : Action) : Prop := s.timely a = true

instance (s : NetworkSource) (a : Action) : Decidable (s.Timely a) :=
  inferInstanceAs (Decidable (_ = true))

structure Released (s : NetworkSource) : Prop where
  flag : s.stopping ≠ .idle → s.stopped = true
  fed : s.stopped = true → s.thread = some .receiving → s.Fed

theorem Fed.handle {s : NetworkSource} {h : Receiver.ChannelHandler} (hs : s.Fed)
    (holder : s.holder = .handler) (hh : s.handler.step e = some h) (pop : e ≠ .pop) :
    Fed { s with handler := h } := by
  obtain ⟨hqueue, hclosed⟩ := queue_of_step hh pop
  rcases hs with hne | hc | ⟨-, hf⟩
  · exact .inl fun hnil => hne (List.prefix_nil.mp (hnil ▸ hqueue))
  · exact .inr (.inl (hclosed hc))
  · exact (feeds_of_step hh hf).imp_right (Or.imp_right fun hf => ⟨holder, hf⟩)

inductive Step (s : NetworkSource) : Action → NetworkSource → Prop
  | start (thread : s.thread = none) :
    Step s .start { s with holder := .service, thread := some .checking }
  | check (thread : s.thread = some .checking) :
    Step s .run { s with thread := some (if s.stopped then .leaving else .receiving) }
  | receive (d : TupleBuffer) (rest : List TupleBuffer) (thread : s.thread = some .receiving)
      (queue : s.handler.queue = d :: rest) :
    Step s .run { s with
      handler := { s.handler with queue := rest }
      thread := some (.emitting d) }
  | closed (thread : s.thread = some .receiving) (queue : s.handler.queue = [])
      (closed : s.handler.queueClosed = true) :
    Step s .run { s with thread := some .finished }
  | emit (d : TupleBuffer) (thread : s.thread = some (.emitting d)) :
    Step s .run { s with emitted := s.emitted ++ [d], thread := some .sleeping }
  | wake (thread : s.thread = some .sleeping) : Step s .run { s with thread := some .checking }
  | leave (thread : s.thread = some .leaving) : Step s .run { s with
      handler := { s.handler with queueClosed := true }
      thread := some .finished }
  | untaken (untaken : s.stopping = .idle ∧ s.thread = none ∨ s.stopping = .returned) :
    Step s .stop s
  | take (stopping : s.stopping = .idle) (thread : s.thread ≠ none) :
    Step s .stop { s with stopped := true, stopping := .dropping }
  | joined (stopping : s.stopping ≠ .idle) (thread : s.thread = some .finished) :
    Step s .stop { s with stopping := .returned }
  | join (stopping : s.stopping = .dropping) (thread : s.thread ≠ some .finished) :
    Step s .stop { s with stopping := .joining }
  | connect (holder : s.holder = .service) : Step s .connect { s with
      holder := .handler
      handler := { s.handler with writer := .new, phase := .next } }
  | cancel : Step s (.handle .cancel) { s with handler := { s.handler with cancelled := true } }
  | handle (holder : s.holder = .handler) (handled : s.handler.step e = some h) (pop : e ≠ .pop) :
    Step s (.handle e) { s with handler := h }
  | drop (holder : s.holder = .handler)
      (phase : s.handler.phase = .ended (.ok ()) ∨ s.handler.phase = .ended (.error .cancelled)) :
    Step s .giveBack s.dropSender
  | reopen (holder : s.holder = .handler) (phase : s.handler.phase = .ended (.error e))
      (live : e ≠ .cancelled) :
    Step s .giveBack { s with holder := .service }
  | replaced (holder : s.holder = .service) : Step s .replaced s.dropSender

theorem Step.run {s t : NetworkSource} (hs : s.run = some t) : Step s .run t := by
  unfold NetworkSource.run at hs
  split at hs
  next thread => exact Option.some.inj hs ▸ .check thread
  next thread =>
    unfold recvBlocking at hs
    split at hs
    next d rest queue => exact Option.some.inj hs ▸ .receive d rest thread queue
    next queue =>
      obtain ⟨closed, hs⟩ := Option.ite_none_right_eq_some.mp hs
      exact Option.some.inj hs ▸ .closed thread queue closed
  next d thread => exact Option.some.inj hs ▸ .emit d thread
  next thread => exact Option.some.inj hs ▸ .wake thread
  next thread => exact Option.some.inj hs ▸ .leave thread
  next => contradiction
  next => contradiction

theorem Step.stop {s t : NetworkSource} (hs : s.stop = some t) : Step s .stop t := by
  unfold NetworkSource.stop at hs
  split at hs
  next stopping thread => exact Option.some.inj hs ▸ .untaken (.inl ⟨stopping, thread⟩)
  next stopping => exact Option.some.inj hs ▸ .untaken (.inr stopping)
  next stopping thread => exact Option.some.inj hs ▸ .take stopping (by simp [thread])
  next stopping thread => exact Option.some.inj hs ▸ .joined (by simp [stopping]) thread
  next stopping thread => exact Option.some.inj hs ▸ .joined (by simp [stopping]) thread
  next t hunfinished stopping thread =>
    have hthread : s.thread ≠ some .finished :=
      fun hfinished => hunfinished (Option.some.inj (thread.symm.trans hfinished))
    exact Option.some.inj hs ▸ .join stopping hthread
  next => contradiction

theorem Step.handled {s t : NetworkSource} (hs : s.handle e = some t) : Step s (.handle e) t := by
  unfold NetworkSource.handle at hs
  split at hs
  next => contradiction
  next => contradiction
  next => exact Option.some.inj hs ▸ .cancel
  next e hpop _ _ =>
    obtain ⟨holder, hs⟩ := Option.ite_none_right_eq_some.mp hs
    obtain ⟨h, handled, rfl⟩ := Option.map_eq_some_iff.mp hs
    exact .handle holder handled hpop

theorem Step.giveBack {s t : NetworkSource} (hs : s.giveBack = some t) : Step s .giveBack t := by
  unfold NetworkSource.giveBack at hs
  split at hs
  next holder phase => exact Option.some.inj hs ▸ .drop holder (.inl phase)
  next holder phase => exact Option.some.inj hs ▸ .drop holder (.inr phase)
  next holder phase => exact Option.some.inj hs ▸ .reopen holder phase (by simp)
  next holder phase => exact Option.some.inj hs ▸ .reopen holder phase (by simp)
  next => contradiction

theorem step_sound {s t : NetworkSource} (hs : s.step a = some t) : Step s a t := by
  cases a with
  | start =>
    obtain ⟨thread, hs⟩ := Option.ite_none_right_eq_some.mp hs
    exact Option.some.inj hs ▸ .start thread
  | run => exact .run hs
  | stop => exact .stop hs
  | connect =>
    obtain ⟨holder, hs⟩ := Option.ite_none_right_eq_some.mp hs
    exact Option.some.inj hs ▸ .connect holder
  | handle e => exact .handled hs
  | giveBack => exact .giveBack hs
  | replaced =>
    obtain ⟨holder, hs⟩ := Option.ite_none_right_eq_some.mp hs
    exact Option.some.inj hs ▸ .replaced holder

theorem Fed.of_queue {s : NetworkSource} (h : s.Fed)
    (fed : s.holder = .handler → feeds s.handler = false) :
    s.handler.queue ≠ [] ∨ s.handler.queueClosed = true := by
  rcases h with hqueue | hclosed | ⟨holder, hf⟩
  · exact .inl hqueue
  · exact .inr hclosed
  · rw [fed holder] at hf
    contradiction

theorem Released.step {s t : NetworkSource} (h : s.Released) (hC : s.Timely a)
    (hs : s.step a = some t) : t.Released := by
  cases step_sound hs with
  | start => exact ⟨h.flag, fun _ => by simp⟩
  | check =>
    refine ⟨h.flag, fun (hstopped : s.stopped = true) => ?_⟩
    simp [hstopped]
  | receive | closed | emit | wake | leave => exact ⟨h.flag, fun _ => by simp⟩
  | untaken => exact h
  | take stopping =>
    refine ⟨fun _ => rfl, fun _ thread => ?_⟩
    have hfed : s.stopping ≠ .idle ∨ s.thread ≠ some .receiving ∨ s.Fed := of_decide_eq_true hC
    exact (hfed.resolve_left (not_not.mpr stopping)).resolve_left (not_not.mpr thread)
  | joined stopping => exact ⟨fun _ => h.flag stopping, h.fed⟩
  | join stopping => exact ⟨fun _ => h.flag (by simp [stopping]), h.fed⟩
  | connect holder =>
    refine ⟨h.flag, fun hstopped thread => ?_⟩
    have hqueue := (h.fed hstopped thread).of_queue fun hh => absurd (holder.symm.trans hh) nofun
    exact hqueue.imp_right .inl
  | cancel => exact ⟨h.flag, h.fed⟩
  | handle holder handled pop =>
    exact ⟨h.flag, fun hstopped thread => (h.fed hstopped thread).handle holder handled pop⟩
  | drop | replaced => exact ⟨h.flag, fun _ _ => .inr (.inl rfl)⟩
  | reopen holder phase live =>
    refine ⟨h.flag, fun hstopped thread => ?_⟩
    have hqueue := (h.fed hstopped thread).of_queue fun _ => feeds_of_failed phase live
    exact hqueue.imp_right .inl

theorem released_of_reaches {s : NetworkSource} (h : machine.Reaches Timely s) : s.Released := by
  refine h.invariant (I := Released) ⟨fun h => absurd rfl h, nofun⟩ ?_
  exact fun s a t _ ih hC hs => ih.step hC hs

theorem exists_push {h : Receiver.ChannelHandler} (b : TupleBuffer) (queue : h.queue = []) :
    ∃ t, h.push b = some t ∧ (t.queue ≠ [] ∨ t.queueClosed = true) := by
  unfold ChannelHandler.push
  split
  next hclosed => exact ⟨_, rfl, .inr hclosed⟩
  next =>
    rw [if_pos (by rw [queue]; decide)]
    exact ⟨_, rfl, .inl (by simp)⟩

theorem exists_feed {s : NetworkSource} (holder : s.holder = .handler)
    (hf : feeds s.handler = true) (queue : s.handler.queue = []) :
    ∃ a t, s.Own a ∧ s.step a = some t ∧
      (t.handler.queue ≠ [] ∨ t.handler.queueClosed = true) := by
  unfold feeds at hf
  split at hf
  next b phase =>
    obtain ⟨h, hpush, hfilled⟩ := exists_push b queue
    refine ⟨.handle .push, { s with handler := h }, rfl, ?_, hfilled⟩
    simp [step, handle, holder, ChannelHandler.step, phase, hpush]
  next phase =>
    exact ⟨.giveBack, s.dropSender, rfl, by simp [step, giveBack, holder, phase], .inr rfl⟩
  next phase =>
    exact ⟨.giveBack, s.dropSender, rfl, by simp [step, giveBack, holder, phase], .inr rfl⟩
  next => contradiction

theorem not_deadlocked {s : NetworkSource} (hfed : s.Fed) : ¬s.Deadlocked := by
  rintro ⟨-, halways⟩
  obtain ⟨-, queue, hopen⟩ := halways.now
  rcases hfed with hne | hclosed | ⟨holder, hf⟩
  · exact hne queue
  · rw [hopen] at hclosed
    contradiction
  · obtain ⟨a, t, hown, hs, hfilled⟩ := exists_feed holder hf queue
    obtain ⟨-, hqueue, hopen⟩ := halways.step hown hs
    rcases hfilled with hne | hclosed
    · exact hne hqueue
    · rw [hopen] at hclosed
      contradiction

structure Starved (s : NetworkSource) : Prop where
  blocked : s.Blocked
  stopping : s.stopping = .dropping

theorem Starved.deadlocks {s : NetworkSource} (h : s.Starved) (holder : s.holder ≠ .handler) :
    ∃ t, s.step .stop = some t ∧ t.Deadlocked := by
  obtain ⟨⟨thread, queue, hopen⟩, stopping⟩ := h
  refine ⟨{ s with stopping := .joining }, by simp [step, stop, stopping, thread], rfl, ?_⟩
  refine .of_still (fun a hown => ?_) ⟨thread, queue, hopen⟩
  cases a with
  | start | connect | replaced => contradiction
  | run => simp [machine, step, run, recvBlocking, thread, queue, hopen]
  | stop => simp [machine, step, stop, thread]
  | giveBack => simp [machine, step, giveBack, holder]
  | handle e =>
    cases e with
    | push | cancelled | send => simp [machine, step, handle, holder]
    | cancel | request | pop | closeQueue => contradiction

def Doomed (s : NetworkSource) : Prop := ∃ t, (machine.resume s).Reachable t ∧ t.Deadlocked

theorem Doomed.of_step {s t : NetworkSource} (hs : s.step a = some t) (h : t.Doomed) :
    s.Doomed := by
  obtain ⟨u, hu, hdead⟩ := h
  have ht : (machine.resume s).Reachable t := .step .init trivial hs
  exact ⟨u, ht.resume hu, hdead⟩

theorem Starved.handler {s : NetworkSource} {h : Receiver.ChannelHandler} (hs : s.Starved)
    (queue : h.queue = s.handler.queue) (closed : h.queueClosed = s.handler.queueClosed) :
    Starved { s with handler := h } :=
  ⟨⟨hs.blocked.1, queue.trans hs.blocked.2.1, closed.trans hs.blocked.2.2⟩, hs.stopping⟩

theorem Starved.doomed {s : NetworkSource} (h : s.Starved) (holder : s.holder ≠ .handler) :
    s.Doomed := by
  obtain ⟨t, hs, hdead⟩ := h.deadlocks holder
  exact .of_step hs ⟨t, .init, hdead⟩

theorem Starved.doomed_failed {s : NetworkSource} (h : s.Starved)
    (phase : s.handler.phase = .ended (.error e)) (live : e ≠ .cancelled) : s.Doomed := by
  by_cases holder : s.holder = .handler
  · have hstarved : Starved { s with holder := .service } := ⟨h.blocked, h.stopping⟩
    refine .of_step (a := .giveBack) ?_ (hstarved.doomed nofun)
    cases e with
    | cancelled => contradiction
    | network _ | closedByOtherSide => simp [step, giveBack, holder, phase]
  · exact h.doomed holder

theorem Starved.doomed_next {s : NetworkSource} (h : s.Starved) (holder : s.holder = .handler)
    (phase : s.handler.phase = .next) : s.Doomed := by
  have hstarved := h.handler (h := s.handler.fail (.network "Connection Lost")) rfl rfl
  refine .of_step (a := .handle (.request none)) ?_ (hstarved.doomed_failed rfl (by simp))
  simp [step, handle, holder, ChannelHandler.step, phase, ChannelHandler.handleRequest]

theorem Starved.doomed_flushing {s : NetworkSource} (h : s.Starved)
    (holder : s.holder = .handler) (phase : s.handler.phase = .acking seq true) : s.Doomed := by
  let w : FramedWrite DataChannelResponse :=
    ⟨[], 0, s.handler.writer.wire ++ s.handler.writer.buffer⟩
  have hstarved := h.handler (h := { s.handler with writer := w, phase := .next }) rfl rfl
  refine .of_step (a := .handle (.send .complete)) ?_ (hstarved.doomed_next holder rfl)
  simp [w, step, handle, holder, ChannelHandler.step, phase, ChannelHandler.sendAck,
    FramedWrite.pollSend, FramedWrite.pollFlush, FramedWrite.flushed]

theorem Starved.doomed_feeding {s : NetworkSource} (h : s.Starved)
    (holder : s.holder = .handler) (phase : s.handler.phase = .acking seq false) : s.Doomed := by
  obtain ⟨w, hready⟩ := FramedWrite.pollReady_complete s.handler.writer responseCodec
  cases hstart : w.startSend responseCodec (.ackData seq) with
  | some w' =>
    have hstarved := h.handler
      (h := { s.handler with writer := w', phase := .acking seq true }) rfl rfl
    refine .of_step (a := .handle (.send .complete)) ?_ (hstarved.doomed_flushing holder rfl)
    simp [step, handle, holder, ChannelHandler.step, phase, ChannelHandler.sendAck,
      FramedWrite.pollSend, hready, hstart]
  | none =>
    have hstarved := h.handler
      (h := { s.handler with writer := w }.fail (.network "frame size too big")) rfl rfl
    refine .of_step (a := .handle (.send .complete)) ?_ (hstarved.doomed_failed rfl (by simp))
    simp [step, handle, holder, ChannelHandler.step, phase, ChannelHandler.sendAck,
      FramedWrite.pollSend, hready, hstart]

theorem closing_of_reachable {s : NetworkSource} (h : machine.Reachable s) :
    Closing s.handler := by
  refine h.invariant (I := fun s => Closing s.handler) nofun fun s a t _ ih _ hs => ?_
  cases step_sound hs with
  | start | check | closed | emit | wake | untaken | take | joined | join | reopen => exact ih
  | receive | cancel => exact ih
  | leave | drop | replaced => exact fun _ _ => rfl
  | connect => exact nofun
  | handle _ handled => exact ih.step handled

theorem Starved.doomed_unfed {s : NetworkSource} (h : s.Starved) (hc : Closing s.handler)
    (unfed : ¬s.Fed) : s.Doomed := by
  by_cases holder : s.holder = .handler
  · cases phase : s.handler.phase with
    | next => exact h.doomed_next holder phase
    | queueing b => exact absurd (.inr (.inr ⟨holder, by simp [feeds, phase]⟩)) unfed
    | acking seq fed =>
      cases fed with
      | true => exact h.doomed_flushing holder phase
      | false => exact h.doomed_feeding holder phase
    | closing fed => exact absurd (.inr (.inl (hc fed phase))) unfed
    | ended result =>
      cases result with
      | ok _ => exact absurd (.inr (.inr ⟨holder, by simp [feeds, phase]⟩)) unfed
      | error e =>
        cases e with
        | cancelled => exact absurd (.inr (.inr ⟨holder, by simp [feeds, phase]⟩)) unfed
        | closedByOtherSide | network _ => exact h.doomed_failed phase (by simp)
  · exact h.doomed holder

theorem doomed_of_untimely {s t : NetworkSource} (h : machine.Reachable s)
    (untimely : ¬s.Timely a) (hs : s.step a = some t) : t.Doomed := by
  cases a with
  | stop =>
    obtain ⟨idle, thread, unfed⟩ :
        s.stopping = .idle ∧ s.thread = some .receiving ∧ ¬s.Fed := by
      simpa [Timely, timely] using untimely
    have queue : s.handler.queue = [] := by_contra fun hne => unfed (.inl hne)
    have hopen : s.handler.queueClosed = false :=
      Bool.eq_false_iff.mpr fun hclosed => unfed (.inr (.inl hclosed))
    have hclosing := closing_of_reachable h
    have hstarved : Starved { s with stopped := true, stopping := .dropping } :=
      ⟨⟨thread, queue, hopen⟩, rfl⟩
    have htake : s.step .stop = some { s with stopped := true, stopping := .dropping } := by
      simp [step, stop, idle, thread]
    exact Option.some.inj (htake.symm.trans hs) ▸ hstarved.doomed_unfed hclosing unfed
  | _ => exact absurd rfl untimely

theorem stop_never_deadlocks {s : NetworkSource} (h : machine.Reaches Timely s) :
    ¬s.Deadlocked ∧ ∀ a t, ¬s.Timely a → s.step a = some t → t.Doomed := by
  refine ⟨fun hdead => ?_, fun a t => doomed_of_untimely h.reachable⟩
  have hreleased := released_of_reaches h
  have hstopped := hreleased.flag (by simp [hdead.1])
  exact not_deadlocked (hreleased.fed hstopped hdead.2.now.1) hdead

theorem stop_never_deadlocks_pushed :
    ∃ s, machine.Reaches Timely s ∧ s.stopping = .joining ∧ s.thread = some .receiving ∧
      ¬s.Deadlocked := by
  obtain ⟨s, hs, hstopping, hthread⟩ := Machine.exists_reaches_of_replay (M := machine)
    (C := Timely) (P := fun s => s.stopping = .joining ∧ s.thread = some .receiving)
    [.start, .run, .connect, .handle (.request (some (.ok (.data (exampleBuffer 0 []))))),
      .handle .push, .stop, .stop] (by decide)
  exact ⟨s, hs, hstopping, hthread, (stop_never_deadlocks hs).1⟩

/-- The channel has no connection when the source is stopped. -/
theorem unconnected_deadlocks : ¬∀ s, machine.Reachable s → ¬s.Deadlocked := by
  intro h
  obtain ⟨s, hs, hstarved, holder⟩ := Machine.exists_reaches_of_replay (M := machine)
    (C := fun _ _ => True) (P := fun s => s.Starved ∧ s.holder ≠ .handler)
    [.start, .run, .stop] ⟨_, rfl, ⟨⟨rfl, rfl, rfl⟩, rfl⟩, nofun⟩
  obtain ⟨t, ht, hdead⟩ := hstarved.doomed holder
  exact h t (hs.resume ht) hdead

end NetworkSource

end BdsPro.TestNode
