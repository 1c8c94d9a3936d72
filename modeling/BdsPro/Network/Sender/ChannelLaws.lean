import BdsPro.Network.Sender.Channel
import BdsPro.Network.Sender.ChannelHandlerLaws

namespace BdsPro.Network.Sender

open BdsPro.Library

namespace ChannelHandler

def outbox (h : ChannelHandler) (tr : Trace) : Outbox TupleBuffer where
  submitted := tr.data
  pending := h.pendingWrites
  outstanding := h.waitForAck.values
  acked := tr.acked

theorem Start.outbox {h h' : ChannelHandler} (hs : h.Start h')
    (hc : h.collides (.sendPending io) = false) : (h.outbox tr).Steps (h'.outbox tr) := by
  cases hs with
  | intro b rest phase pending =>
    simp only [collides, phase, pending, Option.isSome_eq_false_iff,
      Option.isNone_iff_eq_none] at hc
    refine Outbox.steps_send rfl ?_ (Map.values_insert hc) rfl
    simp only [ChannelHandler.outbox, pending, Multiset.cons_coe]

theorem Step.outbox {h t : ChannelHandler} (hs : h.Step e t) :
    (h.outbox tr).Steps (t.outbox (tr.record h e)) := by
  cases hs with
  | cancel => exact .refl
  | quiet quiet =>
    obtain ⟨hdata, hacked, -⟩ := quiet.record tr
    apply Outbox.steps_of_eq
    simp only [ChannelHandler.outbox, quiet.pendingWrites, quiet.waitForAck, hdata, hacked]
  | data phase =>
    refine Outbox.steps_submit ?_ (Outbox.coe_concat _ _) rfl rfl
    simp only [ChannelHandler.outbox, Trace.record, Trace.data, List.filterMap_append]
    exact Outbox.coe_concat _ _
  | ack phase entry =>
    refine Outbox.steps_acknowledge rfl rfl (Map.values_erase entry) ?_
    simp only [ChannelHandler.outbox, Trace.record, entry, Option.toList_some, Outbox.coe_concat]
  | nack phase entry =>
    exact Outbox.steps_giveBack rfl (Outbox.coe_concat _ _) (Map.values_erase entry) rfl
  | accept phase ready fed => exact .refl
  | block phase ready => exact .refl
  | putBack phase ready entry =>
    exact Outbox.steps_giveBack rfl (Multiset.cons_coe _ _).symm (Map.values_erase entry) rfl

theorem sendPending_live {h t : ChannelHandler} (hs : h.step (.sendPending io) = some t) :
    t.live = true := by
  have hnext := next_of_step hs
  refine live_iff.mpr fun err hp => ?_
  rw [hp] at hnext
  generalize h.phase = p at hnext
  cases hnext with
  | ended _ event => exact event io rfl

def BreaksOff (h : ChannelHandler) (e : Event) (t : ChannelHandler) : Prop :=
  h.breaks e = true ∧ t.pendingWrites = h.pendingWrites ∧ t.waitForAck = h.waitForAck

theorem ended_of_step {h t : ChannelHandler} (hs : h.step e = some t) (hlive : h.live = true)
    (hdead : t.live = false) :
    h.BreaksOff e t ∨ e = .response (some (.ok .close)) ∨ ∃ fed, h.phase = .closing fed := by
  cases step_sound hs with
  | cancel | flushing => exact Bool.noConfusion (hlive.symm.trans hdead)
  | run phase selected =>
    obtain ⟨token, rfl⟩ := selected.dead hdead
    exact .inl ⟨by simp [breaks, phase, token], rfl, rfl⟩
  | flushed phase _ selected =>
    obtain ⟨token, rfl⟩ := selected.dead hdead
    exact .inl ⟨by simpa [breaks, phase] using token, rfl, rfl⟩
  | flushFailed phase => exact .inl ⟨by simp [breaks, phase], rfl, rfl⟩
  | cancelled | endOfStream | garbled | queueClosed => exact .inl ⟨rfl, rfl, rfl⟩
  | ackUnknown _ unknown | nackUnknown _ unknown =>
    exact .inl ⟨by simp [breaks, unknown], rfl, rfl⟩
  | closeReceived => exact .inr (.inl rfl)
  | flushDone | flushMore | ack | nack | data | flush | terminate => exact Bool.noConfusion hdead
  | feed _ fed | start _ _ fed => exact Bool.noConfusion (fed.live.symm.trans hdead)
  | closing phase | terminated phase => exact .inr (.inr ⟨_, phase⟩)

end ChannelHandler

namespace Channel

def idleOutbox (tr : Trace) : Outbox TupleBuffer := ⟨tr.data, 0, 0, tr.acked⟩

def outbox (c : Channel) : Outbox TupleBuffer :=
  match c.stage with
  | .running h => h.outbox c.trace
  | _ => idleOutbox c.trace

theorem outbox_running {c : Channel} (hs : c.stage = .running h) :
    c.outbox = h.outbox c.trace := by simp only [outbox, hs]

structure Kept (c : Channel) : Prop where
  balanced : c.outbox.Balanced
  ended : ∀ h, c.stage = .running h → h.live = false →
    h.pendingWrites = [] ∧ h.waitForAck.size = 0
  closing : ∀ h fed, c.stage = .running h → h.phase ≠ .closing fed

theorem Kept.idle {c : Channel} (h : (idleOutbox c.trace).Balanced)
    (hs : ∀ h, c.stage ≠ .running h) : c.Kept where
  balanced := by
    unfold outbox
    split
    next h heq => exact absurd heq (hs h)
    next => exact h
  ended h heq := absurd heq (hs h)
  closing h fed heq := absurd heq (hs h)

theorem loses_running {c : Channel} (hs : c.stage = .running h)
    (hc : c.KeepsBuffers (.handler e)) :
    (h.breaks e = true → h.pendingWrites = [] ∧ h.waitForAck.size = 0) ∧
      h.collides e = false := by
  simp only [KeepsBuffers, loses, hs, Bool.or_eq_false_iff, Bool.and_eq_false_imp,
    decide_eq_false_iff_not, not_or, not_not] at hc
  exact hc

theorem outbox_step {h t : ChannelHandler} (hs : h.step e = some t)
    (hc : h.collides e = false) : (h.outbox tr).Steps (t.outbox (tr.record h e)) := by
  cases ChannelHandler.step_cases hs with
  | inl hs => exact hs.outbox
  | inr hs =>
    obtain ⟨h', hstart, hs, io, rfl⟩ := hs
    exact (hstart.outbox hc).trans hs.outbox

theorem handler_eq_some {c t : Channel} (hs : c.handler e = some t) :
    ∃ h h' queue, c.stage = .running h ∧ c.offers e = true ∧ h.step e = some h' ∧
      ((∃ m, e = .request m) ∧ queue = c.queue.tail ∨
        (∀ m, e ≠ .request m) ∧ queue = c.queue) ∧
      t = { c with
        queue := queue
        stage := .running h'
        trace := c.trace.record h e
        closed := c.closed || closes e } := by
  unfold handler at hs
  split at hs
  next h hstage =>
    simp only [Option.ite_none_right_eq_some, Option.map_eq_some_iff] at hs
    obtain ⟨hoffers, h', hstep, rfl⟩ := hs
    refine ⟨h, h', _, hstage, hoffers, hstep, ?_, rfl⟩
    split
    next m => exact .inl ⟨⟨m, rfl⟩, rfl⟩
    next hne => exact .inr ⟨hne, rfl⟩
  next => contradiction

theorem Kept.handler {c t : Channel} (hk : c.Kept) (hc : c.KeepsBuffers (.handler e))
    (hopen : t.closed = false) (hs : c.handler e = some t) : t.Kept := by
  obtain ⟨h, h', queue, hstage, hoffers, hstep, -, rfl⟩ := handler_eq_some hs
  obtain ⟨hempty, hcollides⟩ := loses_running hstage hc
  simp only [Bool.or_eq_false_iff] at hopen
  refine ⟨?_, ?_, ?_⟩
  · have hbal := hk.balanced
    rw [outbox_running hstage] at hbal
    rw [outbox_running rfl]
    exact hbal.steps (outbox_step hstep hcollides)
  · rintro _ ⟨⟩ hdead
    cases hlive : h.live with
    | false =>
      rw [ChannelHandler.step_of_dead hstep hlive] at hoffers
      contradiction
    | true =>
      obtain ⟨hbreaks, hpending, hwait⟩ | rfl | ⟨fed, hp⟩ :=
        ChannelHandler.ended_of_step hstep hlive hdead
      · rw [hpending, hwait]
        exact hempty hbreaks
      · exact Bool.noConfusion hopen.2
      · exact absurd hp (hk.closing h fed hstage)
  · rintro _ fed ⟨⟩ hp
    obtain ⟨fed', hp'⟩ | rfl := ChannelHandler.closing_of_step hstep hp
    · exact hk.closing h fed' hstage hp'
    · exact Bool.noConfusion hopen.2

theorem Kept.idle_balanced {c : Channel} (hk : c.Kept) (hidle : ∀ h, c.stage ≠ .running h) :
    (idleOutbox c.trace).Balanced := by
  have hbal := hk.balanced
  unfold outbox at hbal
  split at hbal
  next h heq => exact absurd heq (hidle h)
  next => exact hbal

theorem Kept.drop {c : Channel} (hk : c.Kept) (hs : c.stage = .running h) (hdead : h.live = false) :
    (idleOutbox c.trace).Balanced := by
  have hbal := hk.balanced
  obtain ⟨hpending, hwait⟩ := hk.ended h hs hdead
  simp only [outbox_running hs, ChannelHandler.outbox, hpending, Map.values_eq_zero hwait] at hbal
  exact hbal

inductive Step (c : Channel) : Action → Channel → Prop
  | still (stage : t.stage = c.stage) (trace : t.trace = c.trace) (closed : t.closed = c.closed) :
    Step c a t
  | idle (source : ∀ h, c.stage ≠ .running h) (target : ∀ h, t.stage ≠ .running h)
      (trace : t.trace = c.trace) (closed : t.closed = c.closed) : Step c a t
  | start (source : ∀ h, c.stage ≠ .running h) :
    Step c (.connect true) { c with stage := .running (.new false) }
  | handler (event : c.handler e = some t) : Step c (.handler e) t
  | finish (h : ChannelHandler) (source : c.stage = .running h) (dead : h.live = false)
      (target : ∀ h, t.stage ≠ .running h) (trace : t.trace = c.trace)
      (closed : t.closed = c.closed) : Step c .finish t

theorem Step.establish {c t : Channel} (hs : c.establish r = some t) :
    Step c (.establish r) t := by
  unfold Channel.establish at hs
  split at hs
  next hstage =>
    have hidle : ∀ h, c.stage ≠ .running h := by simp [hstage]
    cases r with
    | ok | cancelled => exact Option.some.inj hs ▸ .idle hidle (by simp) rfl rfl
    | channelReject | badConnection => exact Option.some.inj hs ▸ .still rfl rfl rfl
  next => contradiction

theorem Step.connect {c t : Channel} (hs : c.connect ok = some t) : Step c (.connect ok) t := by
  unfold Channel.connect at hs
  split at hs
  next hstage =>
    have hidle : ∀ h, c.stage ≠ .running h := by simp [hstage]
    cases ok with
    | false => exact Option.some.inj hs ▸ .idle hidle (by simp) rfl rfl
    | true => exact Option.some.inj hs ▸ .start hidle
  next => contradiction

theorem Step.ended {c t : Channel} (hs : c.finish = some t) : Step c .finish t := by
  unfold Channel.finish at hs
  split at hs
  next h hstage =>
    split at hs
    next e hp =>
      have hdead : h.live = false := by simp only [ChannelHandler.live, hp]
      split at hs
      · exact Option.some.inj hs ▸ .finish h hstage hdead (by simp) rfl rfl
      · exact Option.some.inj hs ▸ .finish h hstage hdead (by simp) rfl rfl
      · exact Option.some.inj hs ▸ .finish h hstage hdead (by simp) rfl rfl
    next => contradiction
  next => contradiction

theorem Step.retry {c t : Channel} (hs : c.retry ok = some t) : Step c (.retry ok) t := by
  unfold Channel.retry at hs
  split at hs
  next hstage =>
    have hidle : ∀ h, c.stage ≠ .running h := by simp [hstage]
    cases ok with
    | false | true => exact Option.some.inj hs ▸ .idle hidle (by simp) rfl rfl
  next => contradiction

theorem step_sound {c t : Channel} (hs : c.step a = some t) : Step c a t := by
  cases a with
  | submit m =>
    exact Option.some.inj (Option.ite_none_right_eq_some.mp hs).2 ▸ .still rfl rfl rfl
  | dropQueue => exact Option.some.inj hs ▸ .still rfl rfl rfl
  | establish r => exact .establish hs
  | connect ok => exact .connect hs
  | handler e => exact .handler hs
  | finish => exact .ended hs
  | retry ok => exact .retry hs

theorem closed_step {c t : Channel} (hs : Step c a t) (hopen : t.closed = false) :
    c.closed = false := by
  cases hs with
  | still _ _ closed | idle _ _ _ closed | finish _ _ _ _ _ closed => exact closed ▸ hopen
  | start => exact hopen
  | handler event =>
    obtain ⟨h, h', queue, -, -, -, -, rfl⟩ := handler_eq_some event
    exact (Bool.or_eq_false_iff.mp hopen).1

theorem Kept.step {c t : Channel} (hk : c.Kept) (hc : c.KeepsBuffers a)
    (hopen : t.closed = false) (hs : Step c a t) : t.Kept := by
  cases hs with
  | still stage trace =>
    have hbal : t.outbox = c.outbox := by simp only [outbox, stage, trace]
    exact ⟨hbal ▸ hk.balanced, stage ▸ hk.ended, stage ▸ hk.closing⟩
  | idle source target trace => exact .idle (trace ▸ hk.idle_balanced source) target
  | start source =>
    exact ⟨hk.idle_balanced source, by rintro h ⟨⟩ ⟨⟩, by rintro h fed ⟨⟩ ⟨⟩⟩
  | handler event => exact hk.handler hc hopen event
  | finish h source dead target trace => exact .idle (trace ▸ hk.drop source dead) target

theorem kept_of_reaches {c : Channel} (h : machine.Reaches KeepsBuffers c)
    (hopen : c.closed = false) : c.Kept := by
  refine h.invariant (I := fun c => c.closed = false → c.Kept) (fun _ => ?_)
    (fun c a t _ ih hc hs hopen => ?_) hopen
  · exact .idle rfl (by rintro h ⟨⟩)
  · have hs := step_sound hs
    exact (ih (closed_step hs hopen)).step hc hopen hs

theorem Kept.data_eq {c : Channel} (hk : c.Kept) :
    (c.trace.data : Multiset TupleBuffer) = c.held + c.trace.acked := by
  cases hstage : c.stage with
  | running h =>
    have hbal := hk.balanced
    rw [outbox_running hstage] at hbal
    simp only [held, hstage]
    exact hbal
  | registering | connecting | retrying | finished =>
    have hbal := hk.idle_balanced (by rw [hstage]; rintro h ⟨⟩)
    simp only [held, hstage]
    exact hbal

theorem taken_acked_or_held {c : Channel} (h : machine.Reaches KeepsBuffers c)
    (hopen : c.closed = false) :
    (c.trace.data : Multiset TupleBuffer) = c.held + c.trace.acked :=
  (kept_of_reaches h hopen).data_eq

theorem taken_acked_or_held_after_reconnect :
    ∃ c, machine.Reaches KeepsBuffers c ∧ c.trace.data = [exampleBuffer 1 []] ∧
      (c.trace.acked : Multiset TupleBuffer) = c.trace.data := by
  obtain ⟨c, hc, hopen, hheld, hdata⟩ := Machine.exists_reaches_of_replay
    (M := machine) (C := KeepsBuffers)
    (P := fun c => c.closed = false ∧ c.held = 0 ∧ c.trace.data = [exampleBuffer 1 []])
    [.submit (.data (exampleBuffer 1 [])), .establish .ok, .connect true, .handler .advance,
      .handler (.request (some (.data (exampleBuffer 1 [])))), .handler .advance,
      .handler (.sendPending .complete), .handler .advance,
      .handler (.response (some (.ok (.ackData (1, 0))))), .handler .advance,
      .handler (.response (some (.error "connection reset"))), .finish, .retry true,
      .establish .ok, .connect true] (by decide)
  have h := taken_acked_or_held hc hopen
  rw [hheld, zero_add] at h
  exact ⟨c, hc, hdata, h.symm⟩

/-- The connection is lost before the handler has sent what it has taken. -/
theorem connection_loss_loses_buffer :
    ¬∀ c, machine.Reachable c → c.closed = false →
      ∀ b ∈ c.trace.data, b ∈ c.trace.acked ∨ b ∈ c.held := by
  intro h
  obtain ⟨c, hc, hopen, hdata, hacked, hheld⟩ := Machine.exists_reaches_of_replay
    (M := machine) (C := fun _ _ => True)
    (P := fun c => c.closed = false ∧ c.trace.data = [exampleBuffer 1 []] ∧
      c.trace.acked = [] ∧ c.held = 0)
    [.submit (.data (exampleBuffer 1 [])), .establish .ok, .connect true, .handler .advance,
      .handler (.request (some (.data (exampleBuffer 1 [])))), .handler .advance,
      .handler (.response (some (.error "connection reset"))), .finish, .retry true,
      .establish .ok, .connect true] (by decide)
  have hlost := h c hc hopen (exampleBuffer 1 []) (hdata ▸ List.mem_singleton_self _)
  rw [hacked, hheld] at hlost
  exact hlost.elim (fun hmem => nomatch hmem) (Multiset.notMem_zero _)

end Channel

end BdsPro.Network.Sender
