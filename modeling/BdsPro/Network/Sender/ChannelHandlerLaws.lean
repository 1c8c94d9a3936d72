import BdsPro.Library.Outbox
import BdsPro.Network.Sender.ChannelHandler

namespace BdsPro.Network.Sender

open BdsPro.Library

namespace ChannelHandler

inductive Selected (h : ChannelHandler) (task : Task) : ChannelHandler → Prop
  | cancelled (token : h.cancelled = true) : Selected h task (h.fail .cancelled)
  | absent (idle : h.pendingWrites = [] ∨ maxPendingAcks ≤ h.waitForAck.size) :
    Selected h task { h with phase := .selecting task .absent }
  | notPolled (work : h.pendingWrites ≠ []) :
    Selected h task { h with phase := .selecting task .notPolled }

theorem selected (h : ChannelHandler) (task : Task) : h.Selected task (h.select task) := by
  unfold select
  split
  next token => exact .cancelled token
  next =>
    split
    next idle => exact .absent idle
    next work => exact .notPolled fun hnil => work (.inl hnil)

theorem Selected.dead {h t : ChannelHandler} (selected : h.Selected task t)
    (hdead : t.live = false) : h.cancelled = true ∧ t = h.fail .cancelled := by
  cases selected with
  | cancelled token => exact ⟨token, rfl⟩
  | absent | notPolled => exact Bool.noConfusion hdead

inductive Fed (h : ChannelHandler) (task : Task) (b : TupleBuffer) : Io → ChannelHandler → Prop
  | accepted (ready : h.writer.pollReady requestCodec .complete = some w)
      (sent : w.startSend requestCodec (.data b) = some w') :
    Fed h task b .complete { h with writer := w', phase := .head task }
  | blocked (ready : h.writer.pollReady requestCodec (.blocked n) = some w) :
    Fed h task b (.blocked n) { h with writer := w, phase := .selecting task (.feeding b) }
  | rejected (ready : h.writer.pollReady requestCodec io = some w)
      (refused : io = .complete → w.startSend requestCodec (.data b) = none)
      (ended : ∀ n, io ≠ .blocked n) (entry : h.waitForAck.lookup b.sequence = some write) :
    Fed h task b io
      { h with
        writer := w
        pendingWrites := write :: h.pendingWrites
        waitForAck := h.waitForAck.erase b.sequence
        phase := .head task }

theorem fed_of_feed {h t : ChannelHandler} (hs : h.feed task b io = some t) :
    h.Fed task b io t := by
  obtain ⟨w, hready, hs⟩ := Option.bind_eq_some_iff.mp hs
  cases io with
  | complete =>
    simp only at hs
    split at hs
    next hsent => exact Option.some.inj hs ▸ .accepted hready hsent
    next hsent =>
      obtain ⟨write, hentry, rfl⟩ := Option.map_eq_some_iff.mp hs
      exact .rejected hready (fun _ => hsent) nofun hentry
  | blocked n => exact Option.some.inj hs ▸ .blocked hready
  | failed n e =>
    obtain ⟨write, hentry, rfl⟩ := Option.map_eq_some_iff.mp hs
    exact .rejected hready nofun nofun hentry

theorem Fed.of_phase {h t : ChannelHandler} (fed : h.Fed task b io t) (p : Phase) :
    Fed { h with phase := p } task b io t := by
  cases fed with
  | accepted ready sent => exact .accepted ready sent
  | blocked ready => exact .blocked ready
  | rejected ready refused ended entry => exact .rejected ready refused ended entry

theorem Fed.live {h t : ChannelHandler} (fed : h.Fed task b io t) : t.live = true := by
  cases fed with
  | accepted | blocked | rejected => rfl

inductive Move (h : ChannelHandler) : Event → ChannelHandler → Prop
  | cancel : Move h .cancel { h with cancelled := true }
  | run (phase : h.phase = .head .run) (selected : h.Selected .run t) : Move h .advance t
  | flushDone (phase : h.phase = .head (.flush done))
      (empty : h.pendingWrites = [] ∧ h.waitForAck.size = 0) :
    Move h .advance { h with phase := .head .run }
  | flushMore (phase : h.phase = .head (.flush done))
      (work : ¬(h.pendingWrites = [] ∧ h.waitForAck.size = 0)) :
    Move h .advance { h with phase := .flushing done }
  | flushed (phase : h.phase = .flushing done)
      (flush : h.writer.pollFlush requestCodec .complete = some w)
      (selected : Selected { h with writer := w } (.flush done) t) : Move h (.flush .complete) t
  | flushing (phase : h.phase = .flushing done)
      (flush : h.writer.pollFlush requestCodec (.blocked n) = some w) :
    Move h (.flush (.blocked n)) { h with writer := w }
  | flushFailed (phase : h.phase = .flushing done)
      (flush : h.writer.pollFlush requestCodec (.failed n e) = some w) :
    Move h (.flush (.failed n e)) ({ h with writer := w }.fail (.connectionLost e))
  | cancelled (phase : h.phase = .selecting task send) (token : h.cancelled = true) :
    Move h .cancelled (h.fail .cancelled)
  | endOfStream (phase : h.phase = .selecting task send) :
    Move h (.response none) (h.fail .closedByOtherSide)
  | garbled (phase : h.phase = .selecting task send) :
    Move h (.response (some (.error e))) (h.fail (.connectionLost e))
  | closeReceived (phase : h.phase = .selecting task send) :
    Move h (.response (some (.ok .close))) (h.fail .closedByOtherSide)
  | ack (phase : h.phase = .selecting task send) (entry : h.waitForAck.lookup seq = some b) :
    Move h (.response (some (.ok (.ackData seq))))
      { h with waitForAck := h.waitForAck.erase seq, phase := .head task }
  | ackUnknown (phase : h.phase = .selecting task send) (unknown : h.waitForAck.lookup seq = none) :
    Move h (.response (some (.ok (.ackData seq)))) (h.fail (.protocol (unknownSeq seq)))
  | nack (phase : h.phase = .selecting task send) (entry : h.waitForAck.lookup seq = some b) :
    Move h (.response (some (.ok (.nackData seq))))
      { h with
        waitForAck := h.waitForAck.erase seq
        pendingWrites := h.pendingWrites ++ [b]
        phase := .head task }
  | nackUnknown (phase : h.phase = .selecting task send)
      (unknown : h.waitForAck.lookup seq = none) :
    Move h (.response (some (.ok (.nackData seq)))) (h.fail (.protocol (unknownSeq seq)))
  | queueClosed (phase : h.phase = .selecting .run send) :
    Move h (.request none) (h.fail .cancelled)
  | data (phase : h.phase = .selecting .run send) :
    Move h (.request (some (.data b)))
      { h with pendingWrites := h.pendingWrites ++ [b], phase := .head .run }
  | flush (phase : h.phase = .selecting .run send) :
    Move h (.request (some (.flush done))) { h with phase := .head (.flush done) }
  | terminate (phase : h.phase = .selecting .run send) :
    Move h (.request (some .terminate)) { h with phase := .closing false }
  | feed (phase : h.phase = .selecting task (.feeding b)) (fed : h.Fed task b io t) :
    Move h (.sendPending io) t
  | start (phase : h.phase = .selecting task .notPolled) (pending : h.pendingWrites = b :: rest)
      (fed : Fed { h with
        pendingWrites := rest
        waitForAck := h.waitForAck.insert b.sequence b
        phase := .selecting task (.feeding b) } task b io t) :
    Move h (.sendPending io) t
  | closing (phase : h.phase = .closing fed)
      (sent : h.writer.pollSend requestCodec .close fed io = some (w, .pending fed')) :
    Move h (.close io) { h with writer := w, phase := .closing fed' }
  | terminated (phase : h.phase = .closing fed)
      (sent : h.writer.pollSend requestCodec .close fed io = some (w, sending)) :
    Move h (.close io) ({ h with writer := w }.fail .terminated)

theorem Move.advance {h : ChannelHandler} (phase : h.phase = .head task) :
    Move h .advance (h.advance task) := by
  cases task with
  | run => exact .run phase (h.selected .run)
  | flush done =>
    simp only [ChannelHandler.advance]
    split
    next empty => exact .flushDone phase empty
    next work => exact .flushMore phase work

theorem Move.pollFlush {h : ChannelHandler} (phase : h.phase = .flushing done)
    (hs : h.flush done io = some t) : Move h (.flush io) t := by
  obtain ⟨w, flush, rfl⟩ := Option.map_eq_some_iff.mp hs
  cases io with
  | complete => exact .flushed phase flush (selected _ _)
  | blocked n => exact .flushing phase flush
  | failed n e => exact .flushFailed phase flush

theorem Move.respond {h : ChannelHandler} (phase : h.phase = .selecting task send)
    (r : Response) : Move h (.response r) (h.respond task r) := by
  cases r with
  | none => exact .endOfStream phase
  | some r =>
    cases r with
    | error e => exact .garbled phase
    | ok r =>
      cases r with
      | close => exact .closeReceived phase
      | ackData seq =>
        cases entry : h.waitForAck.lookup seq with
        | none =>
          simp only [ChannelHandler.respond, handleResponse, entry]
          exact .ackUnknown phase entry
        | some b =>
          simp only [ChannelHandler.respond, handleResponse, entry]
          exact .ack phase entry
      | nackData seq =>
        cases entry : h.waitForAck.lookup seq with
        | none =>
          simp only [ChannelHandler.respond, handleResponse, entry]
          exact .nackUnknown phase entry
        | some b =>
          simp only [ChannelHandler.respond, handleResponse, entry]
          exact .nack phase entry

theorem Move.request {h : ChannelHandler} (phase : h.phase = .selecting .run send)
    (m : Option ChannelControlMessage) : Move h (.request m) (h.request m) := by
  cases m with
  | none => exact .queueClosed phase
  | some m =>
    cases m with
    | data b => exact .data phase
    | flush done => exact .flush phase
    | terminate => exact .terminate phase

theorem Move.sendPending {h : ChannelHandler} (phase : h.phase = .selecting task send)
    (hs : h.sendPending task send io = some t) : Move h (.sendPending io) t := by
  unfold ChannelHandler.sendPending at hs
  split at hs
  next => exact .feed phase (fed_of_feed hs)
  next pending => exact .start phase pending ((fed_of_feed hs).of_phase _)
  next => contradiction

theorem Move.close {h : ChannelHandler} (phase : h.phase = .closing fed)
    (hs : h.close fed io = some t) : Move h (.close io) t := by
  simp only [ChannelHandler.close, Option.map_eq_some_iff, Prod.exists] at hs
  obtain ⟨w, sending, sent, rfl⟩ := hs
  cases sending with
  | pending fed' => exact .closing phase sent
  | done | failed _ => exact .terminated phase sent

theorem step_sound {h t : ChannelHandler} (hs : h.step e = some t) : Move h e t := by
  unfold step at hs
  split at hs
  next => exact Option.some.inj hs ▸ .cancel
  next phase => exact Option.some.inj hs ▸ .advance phase
  next phase => exact .pollFlush phase hs
  next phase =>
    obtain ⟨token, hs⟩ := Option.ite_none_right_eq_some.mp hs
    exact Option.some.inj hs ▸ .cancelled phase token
  next phase => exact Option.some.inj hs ▸ .respond phase _
  next phase => exact Option.some.inj hs ▸ .request phase _
  next phase => exact .sendPending phase hs
  next phase => exact .close phase hs
  next => contradiction

structure Quiet (h : ChannelHandler) (e : Event) (t : ChannelHandler) : Prop where
  pendingWrites : t.pendingWrites = h.pendingWrites
  waitForAck : t.waitForAck = h.waitForAck
  wire : h.writer.wire <+: t.writer.wire
  accepted : t.writer.accepted = h.writer.accepted ∨
    t.writer.accepted = h.writer.accepted ++ [.close]
  feeding : t.feeding = none
  dropped : h.feeding ≠ none → t.live = false ∨ ∃ m, e = .request (some m)
  record : ∀ tr : Trace, (tr.record h e).data = tr.data ∧
    (tr.record h e).acked = tr.acked ∧ (tr.record h e).nacked = tr.nacked

inductive Start : ChannelHandler → ChannelHandler → Prop
  | intro (b : TupleBuffer) (rest : List TupleBuffer)
      (phase : h.phase = .selecting task .notPolled) (pending : h.pendingWrites = b :: rest) :
    Start h { h with
      pendingWrites := rest
      waitForAck := h.waitForAck.insert b.sequence b
      phase := .selecting task (.feeding b) }

inductive Step : ChannelHandler → Event → ChannelHandler → Prop
  | cancel : Step h .cancel { h with cancelled := true }
  | quiet (quiet : Quiet h e t) : Step h e t
  | data (phase : h.phase = .selecting .run send) :
    Step h (.request (some (.data b)))
      { h with pendingWrites := h.pendingWrites ++ [b], phase := .head .run }
  | ack (phase : h.phase = .selecting task send) (entry : h.waitForAck.lookup seq = some b) :
    Step h (.response (some (.ok (.ackData seq))))
      { h with waitForAck := h.waitForAck.erase seq, phase := .head task }
  | nack (phase : h.phase = .selecting task send) (entry : h.waitForAck.lookup seq = some b) :
    Step h (.response (some (.ok (.nackData seq))))
      { h with
        waitForAck := h.waitForAck.erase seq
        pendingWrites := h.pendingWrites ++ [b]
        phase := .head task }
  | accept (phase : h.phase = .selecting task (.feeding b)) (ready : h.writer.Progress w)
      (fed : w.startSend requestCodec (.data b) = some w') :
    Step h (.sendPending io) { h with writer := w', phase := .head task }
  | block (phase : h.phase = .selecting task (.feeding b)) (ready : h.writer.Progress w) :
    Step h (.sendPending io) { h with writer := w }
  | putBack (phase : h.phase = .selecting task (.feeding b)) (ready : h.writer.Progress w)
      (entry : h.waitForAck.lookup b.sequence = some write) :
    Step h (.sendPending io)
      { h with
        writer := w
        pendingWrites := write :: h.pendingWrites
        waitForAck := h.waitForAck.erase b.sequence
        phase := .head task }

theorem Step.fail {h : ChannelHandler} (record : ∀ tr : Trace,
    (tr.record h e).data = tr.data ∧ (tr.record h e).acked = tr.acked ∧
      (tr.record h e).nacked = tr.nacked) : Step h e (h.fail error) :=
  .quiet ⟨rfl, rfl, List.prefix_rfl, .inl rfl, rfl, fun _ => .inl rfl, record⟩

theorem Step.turn {h : ChannelHandler} {w : FramedWrite DataChannelRequest} {p : Phase}
    (none : h.feeding = none) (wire : h.writer.wire <+: w.wire)
    (accepted : w.accepted = h.writer.accepted ∨ w.accepted = h.writer.accepted ++ [.close])
    (feeding : ({ h with writer := w, phase := p } : ChannelHandler).feeding = .none)
    (record : ∀ tr : Trace, (tr.record h e).data = tr.data ∧
      (tr.record h e).acked = tr.acked ∧ (tr.record h e).nacked = tr.nacked) :
    Step h e { h with writer := w, phase := p } :=
  .quiet ⟨rfl, rfl, wire, accepted, feeding, fun hsend => absurd none hsend, record⟩

theorem Step.selected {h : ChannelHandler} (none : h.feeding = none) (ready : h.writer.Progress w)
    (selected : Selected { h with writer := w } task t)
    (record : ∀ tr : Trace, (tr.record h e).data = tr.data ∧
      (tr.record h e).acked = tr.acked ∧ (tr.record h e).nacked = tr.nacked) : Step h e t := by
  cases selected with
  | cancelled | absent | notPolled =>
    exact .turn none ready.wire (.inl ready.accepted) rfl record

theorem Step.feed {h : ChannelHandler} (phase : h.phase = .selecting task (.feeding b))
    (fed : h.Fed task b io t) : Step h (.sendPending io) t := by
  cases fed with
  | accepted ready sent => exact .accept phase (FramedWrite.progress_pollReady ready) sent
  | blocked ready =>
    rw [← phase]
    exact .block phase (FramedWrite.progress_pollReady ready)
  | rejected ready _ _ entry => exact .putBack phase (FramedWrite.progress_pollReady ready) entry

theorem Step.closing {h : ChannelHandler} {p : Phase} (phase : h.phase = .closing fed)
    (sent : h.writer.pollSend requestCodec .close fed io = some (w, sending))
    (feeding : ({ h with writer := w, phase := p } : ChannelHandler).feeding = none) :
    Step h (.close io) { h with writer := w, phase := p } := by
  obtain ⟨wire, haccepted⟩ := FramedWrite.pollSend_eq_some sent
  have accepted := haccepted.imp And.left fun hacc => hacc.2.1
  exact .turn (by simp only [ChannelHandler.feeding, phase]) wire accepted feeding
    fun _ => ⟨rfl, rfl, rfl⟩

theorem step_cases {h t : ChannelHandler} (hs : h.step e = some t) :
    Step h e t ∨ ∃ h', Start h h' ∧ Step h' e t ∧ ∃ io, e = .sendPending io := by
  cases step_sound hs with
  | cancel => exact .inl .cancel
  | run phase selected =>
    have hnone : h.feeding = none := by simp only [feeding, phase]
    exact .inl (.selected hnone (.refl _) selected fun _ => ⟨rfl, rfl, rfl⟩)
  | flushDone phase | flushMore phase =>
    have hnone : h.feeding = none := by simp only [feeding, phase]
    exact .inl (.turn hnone List.prefix_rfl (.inl rfl) rfl fun _ => ⟨rfl, rfl, rfl⟩)
  | flushed phase flush selected =>
    have hnone : h.feeding = none := by simp only [feeding, phase]
    have hready := FramedWrite.progress_pollFlush flush
    exact .inl (.selected hnone hready selected fun _ => ⟨rfl, rfl, rfl⟩)
  | flushing phase flush =>
    have hnone : h.feeding = none := by simp only [feeding, phase]
    obtain ⟨accepted, wire⟩ := FramedWrite.progress_pollFlush flush
    exact .inl (.turn hnone wire (.inl accepted) hnone fun _ => ⟨rfl, rfl, rfl⟩)
  | flushFailed phase flush =>
    have hnone : h.feeding = none := by simp only [feeding, phase]
    obtain ⟨accepted, wire⟩ := FramedWrite.progress_pollFlush flush
    exact .inl (.turn hnone wire (.inl accepted) rfl fun _ => ⟨rfl, rfl, rfl⟩)
  | cancelled | endOfStream | garbled | closeReceived | queueClosed =>
    exact .inl (.fail fun _ => ⟨rfl, rfl, rfl⟩)
  | ack phase entry => exact .inl (.ack phase entry)
  | nack phase entry => exact .inl (.nack phase entry)
  | ackUnknown _ unknown =>
    exact .inl (.fail fun tr => ⟨rfl, by simp [Trace.record, unknown], rfl⟩)
  | nackUnknown _ unknown =>
    exact .inl (.fail fun tr => ⟨rfl, rfl, by simp [Trace.record, unknown]⟩)
  | data phase => exact .inl (.data phase)
  | flush | terminate =>
    exact .inl (.quiet ⟨rfl, rfl, List.prefix_rfl, .inl rfl, rfl, fun _ => .inr ⟨_, rfl⟩,
      fun tr => ⟨by simp [Trace.record, Trace.data, ChannelControlMessage.buffer], rfl, rfl⟩⟩)
  | feed phase fed => exact .inl (.feed phase fed)
  | start phase pending fed => exact .inr ⟨_, .intro _ _ phase pending, .feed rfl fed, _, rfl⟩
  | closing phase sent => exact .inl (.closing phase sent rfl)
  | terminated phase sent => exact .inl (.closing phase sent rfl)

inductive Next : Phase → Event → Phase → Prop
  | cancel : Next p .cancel p
  | select : Next (.head .run) .advance (.selecting .run send)
  | flushDone : Next (.head (.flush done)) .advance (.head .run)
  | flushMore : Next (.head (.flush done)) .advance (.flushing done)
  | flushing : Next (.flushing done) (.flush io) (.flushing done)
  | flushed : Next (.flushing done) (.flush io) (.selecting (.flush done) send)
  | response : Next (.selecting task send) (.response r) (.head task)
  | data : Next (.selecting .run send) (.request (some (.data b))) (.head .run)
  | flush : Next (.selecting .run send) (.request (some (.flush done))) (.head (.flush done))
  | terminate : Next (.selecting .run send) (.request (some .terminate)) (.closing false)
  | sent : Next (.selecting task send) (.sendPending io) (.head task)
  | feeding : Next (.selecting task send) (.sendPending io) (.selecting task (.feeding b))
  | closing : Next (.closing fed) (.close io) (.closing fed')
  | ended (live : ∀ e', p ≠ .ended e') (event : ∀ io, e ≠ .sendPending io) :
    Next p e (.ended error)

theorem Selected.next {h t : ChannelHandler} (selected : h.Selected task t)
    (select : ∀ send, Next p e (.selecting task send)) (live : ∀ e', p ≠ .ended e')
    (event : ∀ io, e ≠ .sendPending io) : Next p e t.phase := by
  cases selected with
  | cancelled => exact .ended live event
  | absent => exact select .absent
  | notPolled => exact select .notPolled

theorem Fed.next {h t : ChannelHandler} (fed : h.Fed task b io t) :
    Next (.selecting task send) (.sendPending io) t.phase := by
  cases fed with
  | accepted | rejected => exact .sent
  | blocked => exact .feeding

theorem next_of_step {h t : ChannelHandler} (hs : h.step e = some t) :
    Next h.phase e t.phase := by
  cases step_sound hs with
  | cancel => exact .cancel
  | run phase selected => exact phase ▸ selected.next (fun _ => .select) nofun nofun
  | flushDone phase => exact phase ▸ .flushDone
  | flushMore phase => exact phase ▸ .flushMore
  | flushed phase _ selected => exact phase ▸ selected.next (fun _ => .flushed) nofun nofun
  | flushing phase => exact phase.symm ▸ .flushing
  | flushFailed phase | cancelled phase => exact .ended (phase ▸ nofun) nofun
  | endOfStream phase | garbled phase | closeReceived phase => exact .ended (phase ▸ nofun) nofun
  | ackUnknown phase | nackUnknown phase | queueClosed phase => exact .ended (phase ▸ nofun) nofun
  | ack phase | nack phase => exact phase ▸ .response
  | data phase => exact phase ▸ .data
  | flush phase => exact phase ▸ .flush
  | terminate phase => exact phase ▸ .terminate
  | feed phase fed | start phase _ fed => exact phase ▸ fed.next
  | closing phase => exact phase ▸ .closing
  | terminated phase => exact .ended (phase ▸ nofun) nofun

theorem live_iff {h : ChannelHandler} : h.live = true ↔ ∀ e, h.phase ≠ .ended e := by
  unfold live
  split
  next e hp => simp [hp]
  next hp => exact ⟨fun _ => hp, fun _ => rfl⟩

theorem live_of_step {h t : ChannelHandler} (hs : h.step e = some t) (hlive : t.live = true) :
    h.live = true := by
  rw [live_iff] at hlive ⊢
  intro err hp
  have hnext := next_of_step hs
  rw [hp] at hnext
  generalize ht : t.phase = p at hnext
  cases hnext with
  | cancel => exact hlive err ht
  | ended live _ => exact live err rfl

theorem step_of_dead {h t : ChannelHandler} (hs : h.step e = some t) (hdead : h.live = false) :
    e = .cancel := by
  have hnext := next_of_step hs
  cases hp : h.phase with
  | ended err =>
    rw [hp] at hnext
    generalize t.phase = p at hnext
    cases hnext with
    | cancel => rfl
    | ended live _ => exact absurd rfl (live err)
  | _ =>
    simp only [live, hp] at hdead
    contradiction

theorem closing_of_step {h t : ChannelHandler} (hs : h.step e = some t)
    (hp : t.phase = .closing fed) :
    (∃ fed', h.phase = .closing fed') ∨ e = .request (some .terminate) := by
  have hnext := next_of_step hs
  rw [hp] at hnext
  generalize hq : h.phase = q at hnext
  cases hnext with
  | cancel => exact .inl ⟨fed, rfl⟩
  | terminate => exact .inr rfl
  | closing => exact .inl ⟨_, rfl⟩

structure Polls (h t : ChannelHandler) : Prop where
  token : t.cancelled = h.cancelled
  poll : FramedWrite.Poll requestCodec h.writer t.writer

theorem Selected.polls {h t : ChannelHandler} (selected : h.Selected task t) :
    t.cancelled = h.cancelled ∧ t.writer = h.writer := by
  cases selected with
  | cancelled | absent | notPolled => exact ⟨rfl, rfl⟩

theorem Fed.polls {h t : ChannelHandler} (fed : h.Fed task b io t) : h.Polls t := by
  cases fed with
  | accepted ready sent => exact ⟨rfl, .send ready sent⟩
  | blocked ready | rejected ready => exact ⟨rfl, .ready ready⟩

theorem polls_of_step {h t : ChannelHandler} (hs : h.step e = some t) (he : e ≠ .cancel) :
    h.Polls t := by
  cases step_sound hs with
  | cancel => exact absurd rfl he
  | run _ selected =>
    obtain ⟨token, writer⟩ := selected.polls
    exact ⟨token, writer ▸ .idle⟩
  | flushed _ flush selected =>
    obtain ⟨token, writer⟩ := selected.polls
    exact ⟨token, writer ▸ .flush flush⟩
  | flushing _ flush | flushFailed _ flush => exact ⟨rfl, .flush flush⟩
  | feed _ fed => exact fed.polls
  | start _ _ fed => exact ⟨fed.polls.token, fed.polls.poll⟩
  | closing _ sent | terminated _ sent => exact ⟨rfl, FramedWrite.poll_pollSend sent⟩
  | _ => exact ⟨rfl, .idle⟩

theorem sentEntries_of_feeding {h : ChannelHandler} (hf : h.feeding = some b) :
    h.sentEntries = h.waitForAck.erase b.sequence := by simp only [sentEntries, hf]

theorem sentEntries_of_none {h : ChannelHandler} (hf : h.feeding = none) :
    h.sentEntries = h.waitForAck := by simp only [sentEntries, hf]

theorem feeding_of_phase {h : ChannelHandler} (hp : h.phase = .selecting task (.feeding b)) :
    h.feeding = some b := by simp only [feeding, hp]

theorem acceptedData_of_progress {h t : ChannelHandler} (hw : h.writer.Progress t.writer) :
    t.acceptedData = h.acceptedData := by
  simp only [acceptedData, hw.accepted]

theorem acceptedData_of_startSend {h t : ChannelHandler} (hw : h.writer.Progress w)
    (hs : w.startSend requestCodec (.data b) = some t.writer) :
    t.acceptedData = h.acceptedData ++ [b] := by
  simp only [acceptedData, (FramedWrite.startSend_eq_some hs).1, hw.accepted,
    List.filterMap_append]
  rfl

theorem Quiet.acceptedData {h t : ChannelHandler} (hq : h.Quiet e t) :
    t.acceptedData = h.acceptedData := by
  cases hq.accepted with
  | inl heq => simp only [ChannelHandler.acceptedData, heq]
  | inr heq =>
    simp only [ChannelHandler.acceptedData, heq, List.filterMap_append]
    exact List.append_nil _

theorem Quiet.not_feeding {h t : ChannelHandler} (hq : h.Quiet e t) (hu : h.dropsSend e = false)
    (hlive : t.live = true) : h.feeding = none := by
  refine Classical.byContradiction fun hf => ?_
  cases hq.dropped hf with
  | inl hdead => exact Bool.noConfusion (hlive.symm.trans hdead)
  | inr hreq =>
    obtain ⟨m, rfl⟩ := hreq
    exact hf (Option.isNone_iff_eq_none.mp (by simpa [dropsSend] using hu))

theorem not_feeding_of_answer {h : ChannelHandler} (hl : h.waitForAck.lookup seq = some b)
    (hu : (h.feeding.isSome && (h.waitForAck.lookup seq).isSome) = false) : h.feeding = none := by
  simpa [hl] using hu

end ChannelHandler

namespace ChannelRun

theorem step_eq_some {r t : ChannelRun} (hs : r.step e = some t) :
    r.handler.step e = some t.handler ∧ t.trace = r.trace.record r.handler e := by
  simp only [step, Option.map_eq_some_iff] at hs
  obtain ⟨h, hh, rfl⟩ := hs
  exact ⟨hh, rfl⟩

/-- Every entry of `wait_for_ack` stands under its own number and, the send in progress
apart, for a frame that the writer has accepted and nothing has answered yet. -/
structure Accounted (r : ChannelRun) : Prop where
  keyed : ∀ k b, r.handler.waitForAck.lookup k = some b → b.sequence = k
  current : ∀ b, r.handler.feeding = some b → r.handler.waitForAck.lookup b.sequence = some b
  accepted : r.handler.sentEntries.values + r.trace.acked + r.trace.nacked ≤
    (r.handler.acceptedData : Multiset TupleBuffer)

theorem Accounted.start {h h' : ChannelHandler} (hr : Accounted ⟨h, tr⟩) (hs : h.Start h') :
    Accounted ⟨h', tr⟩ := by
  cases hs with
  | intro b rest phase pending =>
    have hnone : h.feeding = none := by simp only [ChannelHandler.feeding, phase]
    refine ⟨fun k b hb => ?_, ?_, ?_⟩
    · rw [Map.lookup_insert] at hb
      split at hb
      next hk => exact hk ▸ (Option.some.inj hb ▸ rfl)
      next => exact hr.keyed k b hb
    · rintro b ⟨⟩
      exact Map.lookup_insert_self _ _ _
    · have hle := hr.accepted
      rw [ChannelHandler.sentEntries_of_none hnone] at hle
      rw [ChannelHandler.sentEntries_of_feeding rfl, Map.erase_insert]
      exact le_trans (by gcongr; exact Map.values_erase_le _ _) hle

theorem Accounted.step {h t : ChannelHandler} (hr : Accounted ⟨h, tr⟩)
    (hu : h.dropsSend e = false) (hs : h.Step e t) (hlive : t.live = true) :
    Accounted ⟨t, tr.record h e⟩ := by
  cases hs with
  | cancel => exact { hr with }
  | quiet quiet =>
    obtain ⟨-, hacked, hnacked⟩ := quiet.record tr
    refine ⟨?_, fun b hb => ?_, ?_⟩
    · rw [quiet.waitForAck]
      exact hr.keyed
    · rw [quiet.feeding] at hb
      contradiction
    · have hle := hr.accepted
      rw [ChannelHandler.sentEntries_of_none (quiet.not_feeding hu hlive)] at hle
      rw [ChannelHandler.sentEntries_of_none quiet.feeding, quiet.waitForAck, hacked, hnacked,
        quiet.acceptedData]
      exact hle
  | data phase =>
    have hnone : h.feeding = none :=
      Option.isNone_iff_eq_none.mp (by simpa [ChannelHandler.dropsSend] using hu)
    have hle := hr.accepted
    rw [ChannelHandler.sentEntries_of_none hnone] at hle
    exact ⟨hr.keyed, by rintro b ⟨⟩, hle⟩
  | ack phase entry | nack phase entry =>
    have hle := hr.accepted
    rw [ChannelHandler.sentEntries_of_none (ChannelHandler.not_feeding_of_answer entry hu),
      Map.values_erase entry] at hle
    refine ⟨fun k b hb => hr.keyed k b (Map.lookup_of_erase hb).2, by rintro b ⟨⟩, ?_⟩
    simp only [Trace.record, entry, Option.toList_some, Outbox.coe_concat, Multiset.add_cons,
      Multiset.cons_add] at hle ⊢
    exact hle
  | accept phase ready fed =>
    have hfeed := ChannelHandler.feeding_of_phase phase
    have hle := hr.accepted
    rw [ChannelHandler.sentEntries_of_feeding hfeed] at hle
    refine ⟨hr.keyed, by rintro b ⟨⟩, ?_⟩
    rw [ChannelHandler.sentEntries_of_none rfl, Map.values_erase (hr.current _ hfeed),
      ChannelHandler.acceptedData_of_startSend ready fed, Outbox.coe_concat, Multiset.cons_add,
      Multiset.cons_add]
    exact Multiset.cons_le_cons _ hle
  | block phase ready =>
    refine { hr with accepted := ?_ }
    rw [ChannelHandler.acceptedData_of_progress ready]
    exact hr.accepted
  | putBack phase ready entry =>
    have hfeed := ChannelHandler.feeding_of_phase phase
    have hle := hr.accepted
    rw [ChannelHandler.sentEntries_of_feeding hfeed] at hle
    refine ⟨fun k b hb => hr.keyed k b (Map.lookup_of_erase hb).2, by rintro b ⟨⟩, ?_⟩
    rw [ChannelHandler.acceptedData_of_progress ready]
    exact hle

theorem accounted_of_reaches {r : ChannelRun} (h : machine.Reaches Uninterrupted r)
    (hlive : r.handler.live = true) : r.Accounted := by
  refine h.invariant (I := fun r => r.handler.live = true → r.Accounted) (fun _ => ?_)
    (fun r e t _ ih hu hs hlive => ?_) hlive
  · exact ⟨by rintro k b ⟨⟩, by rintro b ⟨⟩, Multiset.zero_le _⟩
  · obtain ⟨hstep, htrace⟩ := step_eq_some hs
    have hr := ih (ChannelHandler.live_of_step hstep hlive)
    have ht : t = ⟨t.handler, r.trace.record r.handler e⟩ := htrace ▸ rfl
    rw [ht]
    cases ChannelHandler.step_cases hstep with
    | inl hs => exact hr.step hu hs hlive
    | inr hs =>
      obtain ⟨h', hstart, hs, io, rfl⟩ := hs
      exact (hr.start hstart).step rfl hs hlive

theorem entry_accepted {r : ChannelRun} (hr : r.Accounted)
    (hl : r.handler.waitForAck.lookup k = some b) :
    b.sequence = k ∧ (r.handler.feeding = some b ∨ b ∈ r.handler.acceptedData) := by
  refine ⟨hr.keyed k b hl, ?_⟩
  have hmem : b ∈ r.handler.sentEntries.values → b ∈ r.handler.acceptedData := fun hb =>
    Multiset.mem_coe.mp (Multiset.mem_of_le hr.accepted
      (Multiset.mem_add.mpr (.inl (Multiset.mem_add.mpr (.inl hb)))))
  cases hf : r.handler.feeding with
  | none =>
    rw [ChannelHandler.sentEntries_of_none hf] at hmem
    exact .inr (hmem (Map.mem_values.mpr ⟨k, hl⟩))
  | some b' =>
    rw [ChannelHandler.sentEntries_of_feeding hf] at hmem
    by_cases hk : k = b'.sequence
    · rw [hk, hr.current b' hf] at hl
      exact .inl hl
    · refine .inr (hmem (Map.mem_values.mpr ⟨k, ?_⟩))
      rw [Map.lookup_erase, if_neg hk, hl]

theorem send_ends {r : ChannelRun} {t : ChannelHandler} (hr : r.Accounted)
    (hf : r.handler.feeding = some b) (hu : r.handler.dropsSend e = false)
    (hs : r.handler.Step e t) (hlive : t.live = true) :
    t.feeding = some b ∨ t.acceptedData = r.handler.acceptedData ++ [b] ∨
      b ∈ t.pendingWrites := by
  cases hs with
  | cancel => exact .inl hf
  | quiet quiet =>
    rw [quiet.not_feeding hu hlive] at hf
    contradiction
  | data phase =>
    rw [ChannelHandler.dropsSend, hf] at hu
    contradiction
  | ack phase entry | nack phase entry =>
    rw [ChannelHandler.not_feeding_of_answer entry hu] at hf
    contradiction
  | accept phase ready fed =>
    rw [ChannelHandler.feeding_of_phase phase, Option.some.injEq] at hf
    exact .inr (.inl (hf ▸ ChannelHandler.acceptedData_of_startSend ready fed))
  | block phase ready => exact .inl hf
  | putBack phase ready entry =>
    rw [ChannelHandler.feeding_of_phase phase, Option.some.injEq] at hf
    rw [hf, hr.current b (hf ▸ ChannelHandler.feeding_of_phase phase), Option.some.injEq] at entry
    exact .inr (.inr (entry ▸ List.mem_cons_self))

theorem entries_accepted_or_in_progress {r : ChannelRun}
    (h : machine.Reaches Uninterrupted r) (hlive : r.handler.live = true) :
    (∀ k b, r.handler.waitForAck.lookup k = some b →
      b.sequence = k ∧ (r.handler.feeding = some b ∨ b ∈ r.handler.acceptedData)) ∧
    r.handler.sentEntries.values + r.trace.acked + r.trace.nacked ≤
      (r.handler.acceptedData : Multiset TupleBuffer) ∧
    ∀ e t, r.Uninterrupted e → r.step e = some t → t.handler.live = true →
      ∀ b, r.handler.feeding = some b → t.handler.feeding = some b ∨
        t.handler.acceptedData = r.handler.acceptedData ++ [b] ∨
        b ∈ t.handler.pendingWrites := by
  have hr := accounted_of_reaches h hlive
  refine ⟨fun k b hl => entry_accepted hr hl, hr.accepted, fun e t hu hs hlive b hf => ?_⟩
  cases ChannelHandler.step_cases (step_eq_some hs).1 with
  | inl hs => exact send_ends hr hf hu hs hlive
  | inr hs =>
    obtain ⟨h', ⟨b', rest, phase, -⟩, -⟩ := hs
    simp only [ChannelHandler.feeding, phase] at hf
    contradiction

theorem entries_accepted_or_in_progress_after_wait :
    ∃ r, machine.Reaches Uninterrupted r ∧ exampleBuffer 2 [] ∈ r.handler.acceptedData := by
  obtain ⟨r, hr, hlive, hl, hf⟩ := Machine.exists_reaches_of_replay
    (M := machine) (C := Uninterrupted)
    (P := fun r => r.handler.live = true ∧
      r.handler.waitForAck.lookup (2, 0) = some (exampleBuffer 2 []) ∧ r.handler.feeding = none)
    [.advance, .request (some (.data (exampleBuffer 1 (List.replicate 2048 255)))), .advance,
      .sendPending .complete, .advance, .request (some (.data (exampleBuffer 2 []))), .advance,
      .sendPending (.blocked 0), .sendPending .complete] (by decide +kernel)
  refine ⟨r, hr, ?_⟩
  cases ((entries_accepted_or_in_progress hr hlive).1 _ _ hl).2 with
  | inl hfeeding => rw [hf] at hfeeding; contradiction
  | inr hmem => exact hmem

/-- The writer is at its backpressure boundary when another Data request arrives. -/
theorem request_strands_dropped_send :
    ¬∀ r, machine.Reachable r → r.handler.live = true →
      ∀ k b, r.handler.waitForAck.lookup k = some b →
        r.handler.feeding = some b ∨ b ∈ r.handler.acceptedData := by
  intro h
  obtain ⟨r, hr, hlive, hl, hf, hacc⟩ := Machine.exists_reaches_of_replay
    (M := machine) (C := fun _ _ => True)
    (P := fun r => r.handler.live = true ∧
      r.handler.waitForAck.lookup (2, 0) = some (exampleBuffer 2 []) ∧
      r.handler.feeding = none ∧ exampleBuffer 2 [] ∉ r.handler.acceptedData)
    [.advance, .request (some (.data (exampleBuffer 1 (List.replicate 2048 255)))), .advance,
      .sendPending .complete, .advance, .request (some (.data (exampleBuffer 2 []))), .advance,
      .sendPending (.blocked 0), .request (some (.data (exampleBuffer 3 [])))]
    (by decide +kernel)
  cases h r hr hlive _ _ hl with
  | inl hfeeding => rw [hf] at hfeeding; contradiction
  | inr hmem => exact hacc hmem

end ChannelRun

end BdsPro.Network.Sender
