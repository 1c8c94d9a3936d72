import BdsPro.Library.Progress
import BdsPro.Network.ProtocolLaws
import BdsPro.Network.Sender.ChannelHandlerLaws
import BdsPro.Network.Sender.FlushLedger
import BdsPro.Network.Sender.Progress

namespace BdsPro.Network.Sender

open BdsPro.Library

namespace ChannelHandler

structure AllFit (h : ChannelHandler) : Prop where
  pending : ∀ b ∈ h.pendingWrites, requestCodec.fits (.data b) = true
  entry : ∀ k b, h.waitForAck.lookup k = some b → requestCodec.fits (.data b) = true

theorem AllFit.start {h h' : ChannelHandler} (hf : h.AllFit) (hs : h.Start h') : h'.AllFit := by
  cases hs with
  | intro b rest phase pending =>
    have hb : requestCodec.fits (.data b) = true := hf.pending b (pending ▸ List.mem_cons_self)
    constructor
    · exact fun b' hb' => hf.pending b' (pending ▸ List.mem_cons_of_mem _ hb')
    · intro k b' hl
      rw [Map.lookup_insert] at hl
      split at hl
      · exact Option.some.inj hl ▸ hb
      · exact hf.entry k b' hl

theorem AllFit.concat {h t : ChannelHandler} (hf : h.AllFit)
    (hb : requestCodec.fits (.data b) = true) (pending : t.pendingWrites = h.pendingWrites ++ [b])
    (entry : ∀ k b, t.waitForAck.lookup k = some b → h.waitForAck.lookup k = some b) :
    t.AllFit where
  pending b' hb' := by
    rcases List.mem_append.mp (pending ▸ hb') with hb' | hb'
    · exact hf.pending b' hb'
    · exact List.mem_singleton.mp hb' ▸ hb
  entry k b' hl := hf.entry k b' (entry k b' hl)

theorem AllFit.step {h t : ChannelHandler} (hf : h.AllFit)
    (hC : ∀ b ∈ takes e, requestCodec.fits (.data b) = true) (hs : h.Step e t) : t.AllFit := by
  cases hs with
  | cancel | block | accept => exact ⟨hf.pending, hf.entry⟩
  | quiet quiet => exact ⟨quiet.pendingWrites ▸ hf.pending, quiet.waitForAck ▸ hf.entry⟩
  | data phase => exact hf.concat (hC _ rfl) rfl fun _ _ hl => hl
  | ack phase entry =>
    exact ⟨hf.pending, fun k b hl => hf.entry k b (Map.lookup_of_erase hl).2⟩
  | nack phase entry =>
    exact hf.concat (hf.entry _ _ entry) rfl fun _ _ hl => (Map.lookup_of_erase hl).2
  | putBack phase ready entry =>
    constructor
    · intro b hb
      rcases List.mem_cons.mp hb with rfl | hb
      · exact hf.entry _ _ entry
      · exact hf.pending b hb
    · exact fun k b hl => hf.entry k b (Map.lookup_of_erase hl).2

def Positioned (h : ChannelHandler) : Prop :=
  match h.phase with
  | .flushing _ => h.pendingWrites ≠ [] ∨ h.waitForAck.size ≠ 0
  | .selecting (.flush _) .absent => h.writer.buffer = [] ∧ h.waitForAck.size ≠ 0
  | .selecting _ .notPolled => h.pendingWrites ≠ []
  | _ => True

theorem Selected.positioned {h t : ChannelHandler} (selected : h.Selected task t)
    (flush : ∀ done, task = .flush done → h.writer.buffer = [] ∧
      (h.pendingWrites ≠ [] ∨ h.waitForAck.size ≠ 0)) : t.Positioned := by
  cases selected with
  | cancelled => trivial
  | notPolled work => cases task <;> exact work
  | absent idle =>
    cases task with
    | run => trivial
    | flush done =>
      obtain ⟨hbuffer, hwork⟩ := flush done rfl
      refine ⟨hbuffer, ?_⟩
      rcases idle with hnil | hfull
      · exact hwork.resolve_left (not_not_intro hnil)
      · exact (Nat.lt_of_lt_of_le (by decide) hfull).ne'

theorem Fed.positioned {h t : ChannelHandler} (fed : h.Fed task b io t) : t.Positioned := by
  cases fed with
  | accepted | rejected => trivial
  | blocked => cases task <;> trivial

theorem Positioned.step {h t : ChannelHandler} (hpos : h.Positioned) (hs : h.step e = some t) :
    t.Positioned := by
  cases step_sound hs with
  | cancel => exact hpos
  | run _ selected => exact selected.positioned nofun
  | flushMore _ work => exact Decidable.not_and_iff_or_not.mp work
  | flushed phase flush selected =>
    cases flush
    simp only [Positioned, phase] at hpos
    exact selected.positioned fun _ _ => ⟨rfl, hpos⟩
  | flushing phase =>
    simp only [Positioned, phase] at hpos ⊢
    exact hpos
  | feed _ fed | start _ _ fed => exact fed.positioned
  | _ => trivial

theorem Fed.accept {h t : ChannelHandler} (fed : h.Fed task b .complete t)
    (fit : requestCodec.fits (.data b) = true) :
    ∃ w, t = { h with writer := w, phase := .head task } ∧
      t.acceptedData = h.acceptedData ++ [b] := by
  cases fed with
  | accepted ready sent =>
    exact ⟨_, rfl, acceptedData_of_startSend (FramedWrite.progress_pollReady ready) sent⟩
  | rejected ready refused =>
    rw [FramedWrite.startSend, if_pos fit] at refused
    exact absurd (refused rfl) (Option.some_ne_none _)

theorem sendPending_cases {h t : ChannelHandler} (hs : h.step (.sendPending io) = some t) :
    ∃ task b, h.phase = .selecting task (.feeding b) ∧ h.Fed task b io t ∨
      h.phase = .selecting task .notPolled ∧ ∃ rest, h.pendingWrites = b :: rest ∧
        Fed { h with
          pendingWrites := rest
          waitForAck := h.waitForAck.insert b.sequence b
          phase := .selecting task (.feeding b) } task b io t := by
  cases step_sound hs with
  | feed phase fed => exact ⟨_, _, .inl ⟨phase, fed⟩⟩
  | start phase pending fed => exact ⟨_, _, .inr ⟨phase, _, pending, fed⟩⟩

end ChannelHandler

theorem Phase.waiter_selecting (task : Task) (send : SendPending) :
    (selecting task send).waiter = (head task).waiter := by
  cases task <;> rfl

namespace ChannelRun

structure Sound (r : ChannelRun) : Prop where
  accounted : r.handler.live = true → r.Accounted
  fit : r.handler.AllFit
  positioned : r.handler.Positioned

theorem sound {r : ChannelRun} (h : machine.Reaches Sendable r) : r.Sound where
  accounted := accounted_of_reaches (h.mono fun _ _ hC => hC.2.1)
  fit := by
    induction h with
    | init => exact ⟨nofun, nofun⟩
    | step _ hC hs ih =>
      cases ChannelHandler.step_cases (step_eq_some hs).1 with
      | inl hs => exact ih.step hC.1 hs
      | inr hs =>
        obtain ⟨h', hstart, hs, -⟩ := hs
        exact (ih.start hstart).step hC.1 hs
  positioned := by
    induction h with
    | init => trivial
    | step _ _ hs ih => exact ih.step (step_eq_some hs).1

theorem send_accepted {r t : ChannelRun} (hr : r.Sound)
    (hs : r.step (.sendPending .complete) = some t) :
    ∃ b task, t.handler.phase = .head task ∧
      t.handler.acceptedData = r.handler.acceptedData ++ [b] ∧
      (r.handler.phase = .selecting task (.feeding b) ∧
          t.handler.pendingWrites = r.handler.pendingWrites ∧
          t.handler.waitForAck = r.handler.waitForAck ∨
        r.handler.phase = .selecting task .notPolled ∧
          r.handler.pendingWrites = b :: t.handler.pendingWrites ∧
          t.handler.waitForAck = r.handler.waitForAck.insert b.sequence b) := by
  obtain ⟨task, b, ⟨hphase, fed⟩ | ⟨hphase, rest, hpending, fed⟩⟩ :=
    ChannelHandler.sendPending_cases (step_eq_some hs).1
  · have hlive : r.handler.live = true := by simp only [ChannelHandler.live, hphase]
    have hentry := (hr.accounted hlive).current b (ChannelHandler.feeding_of_phase hphase)
    obtain ⟨w, heq, haccepted⟩ := fed.accept (hr.fit.entry _ _ hentry)
    refine ⟨b, task, ?_, haccepted, .inl ⟨hphase, ?_, ?_⟩⟩ <;> rw [heq]
  · have hb := hr.fit.pending b (hpending ▸ List.mem_cons_self)
    obtain ⟨w, heq, haccepted⟩ := fed.accept hb
    refine ⟨b, task, ?_, haccepted, .inr ⟨hphase, ?_, ?_⟩⟩ <;> rw [heq]
    exact hpending

theorem acceptedData_step {r t : ChannelRun} (hs : r.step e = some t) :
    r.handler.acceptedData <+: t.handler.acceptedData := by
  have haccepted {h t : ChannelHandler} (hs : h.Step e t) :
      h.writer.accepted <+: t.writer.accepted := by
    cases hs with
    | quiet quiet =>
      rcases quiet.accepted with heq | heq
      · exact heq ▸ List.prefix_rfl
      · exact heq ▸ List.prefix_append _ _
    | accept phase ready fed =>
      have hfed := (FramedWrite.startSend_eq_some fed).1
      exact ⟨_, by rw [hfed, ready.accepted]⟩
    | block phase ready | putBack phase ready => exact ⟨[], by rw [ready.accepted, List.append_nil]⟩
    | _ => exact List.prefix_rfl
  cases ChannelHandler.step_cases (step_eq_some hs).1 with
  | inl hs => exact (haccepted hs).filterMap _
  | inr hs =>
    obtain ⟨h', ⟨_⟩, hs, -⟩ := hs
    exact (haccepted hs).filterMap _

theorem acceptedData_replay {r t : ChannelRun} (hr : machine.Reaches Sendable r)
    {es : List ChannelHandler.Event} (h : machine.replay Sendable r es = some t) :
    r.handler.acceptedData <+: t.handler.acceptedData ∧
      ∀ io, .sendPending io ∈ es → (∀ n, io ≠ .blocked n) →
        r.handler.acceptedData.length < t.handler.acceptedData.length := by
  induction es generalizing r with
  | nil =>
    obtain rfl := Option.some.inj h
    exact ⟨List.prefix_rfl, nofun⟩
  | cons e es ih =>
    obtain ⟨hC, r', hstep, hrest⟩ := Machine.replay_cons h
    obtain ⟨hextends, hmore⟩ := ih (hr.step hC hstep) hrest
    have hfirst := acceptedData_step hstep
    refine ⟨hfirst.trans hextends, fun io hmem hended => ?_⟩
    cases hmem with
    | head =>
      cases io with
      | complete =>
        obtain ⟨b, task, -, haccepted, -⟩ := send_accepted (sound hr) hstep
        have hlength := hextends.length_le
        rw [haccepted, List.length_append] at hlength
        exact hlength
      | blocked n => exact absurd rfl (hended n)
      | failed n err => exact absurd hC.2.2 Bool.true_eq_false.mp
    | tail _ hmem => exact Nat.lt_of_le_of_lt hfirst.length_le (hmore io hmem hended)

theorem step_of_handler {r : ChannelRun} (hs : r.handler.step e = some h) :
    ∃ t, r.step e = some t := ⟨_, by rw [step, hs]; rfl⟩

theorem unanswered_of_entry {r : ChannelRun} (hr : r.Accounted) (idle : r.handler.feeding = none)
    (buffer : r.handler.writer.buffer = []) (entry : r.handler.waitForAck.lookup k = some b) :
    r.Unanswered b := by
  have hle := Multiset.count_le_of_le b hr.accepted
  have hmem : b ∈ r.handler.waitForAck.values := Map.mem_values.mpr ⟨k, entry⟩
  have hpos := Multiset.count_pos.mpr hmem
  have hsent : r.handler.acceptedData = r.handler.sentData := by
    simp only [ChannelHandler.acceptedData, ChannelHandler.sentData, FramedWrite.accepted, buffer,
      List.append_nil]
  rw [ChannelHandler.sentEntries_of_none idle, hsent] at hle
  simp only [Multiset.count_add, Multiset.coe_count] at hle
  unfold Unanswered
  omega

theorem feed_enabled (h : ChannelHandler) (task : Task)
    (fit : requestCodec.fits (.data b) = true) : ∃ t, h.feed task b .complete = some t := by
  obtain ⟨w, hw⟩ := FramedWrite.pollReady_complete h.writer requestCodec
  refine ⟨{ h with
    writer := { w with buffer := w.buffer ++ [.data b] }, phase := .head task }, ?_⟩
  simp only [ChannelHandler.feed, hw, Option.bind_some, FramedWrite.startSend, fit, if_true]

theorem send_enabled {r : ChannelRun} (hr : r.Sound) (hp : r.handler.phase = .selecting task send)
    (hsend : send ≠ .absent) : ∃ t, r.step (.sendPending .complete) = some t := by
  cases send with
  | absent => contradiction
  | notPolled =>
    have hpos := hr.positioned
    obtain ⟨b, rest, hpending⟩ : ∃ b rest, r.handler.pendingWrites = b :: rest := by
      refine List.exists_cons_of_ne_nil ?_
      cases task <;> simpa only [ChannelHandler.Positioned, hp] using hpos
    have hfit := hr.fit.pending b (hpending ▸ List.mem_cons_self)
    obtain ⟨h', hs⟩ : ∃ h', r.handler.step (.sendPending .complete) = some h' := by
      simp only [ChannelHandler.step, hp, ChannelHandler.sendPending, hpending]
      exact feed_enabled _ task hfit
    exact step_of_handler hs
  | feeding b =>
    have hlive : r.handler.live = true := by simp only [ChannelHandler.live, hp]
    have hentry := (hr.accounted hlive).current b (ChannelHandler.feeding_of_phase hp)
    obtain ⟨h', hs⟩ : ∃ h', r.handler.step (.sendPending .complete) = some h' := by
      simp only [ChannelHandler.step, hp, ChannelHandler.sendPending]
      exact feed_enabled _ task (hr.fit.entry _ _ hentry)
    exact step_of_handler hs

theorem answer_enabled {r : ChannelRun} (hr : r.Sound)
    (hp : r.handler.phase = .selecting (.flush done) .absent) :
    ∃ e t, r.Serves e ∧ r.step e = some t := by
  have hlive : r.handler.live = true := by simp only [ChannelHandler.live, hp]
  have hidle : r.handler.feeding = none := by simp only [ChannelHandler.feeding, hp]
  have hpos := hr.positioned
  simp only [ChannelHandler.Positioned, hp] at hpos
  obtain ⟨hbuffer, hsize⟩ := hpos
  obtain ⟨k, b, hentry⟩ := Map.exists_lookup_of_size hsize
  have hs : r.handler.step (.response (some (.ok (.ackData k)))) =
      some (r.handler.respond (.flush done) (some (.ok (.ackData k)))) := by
    simp only [ChannelHandler.step, hp]
  obtain ⟨t, ht⟩ := step_of_handler hs
  have hunanswered := unanswered_of_entry (hr.accounted hlive) hidle hbuffer hentry
  exact ⟨_, t, .ack b hidle hentry hunanswered, ht⟩

theorem serves_enabled {r : ChannelRun} (hr : r.Sound)
    (waiter : r.handler.phase.waiter = some d) : ∃ e t, r.Serves e ∧ r.step e = some t := by
  cases hp : r.handler.phase with
  | head task =>
    have hs : r.handler.step .advance = some (r.handler.advance task) := by
      simp only [ChannelHandler.step, hp]
    obtain ⟨t, ht⟩ := step_of_handler hs
    exact ⟨_, t, .advance, ht⟩
  | flushing done =>
    obtain ⟨h', hs⟩ : ∃ h', r.handler.step (.flush .complete) = some h' := by
      simp only [ChannelHandler.step, hp, ChannelHandler.flush, FramedWrite.pollFlush]
      exact ⟨_, rfl⟩
    obtain ⟨t, ht⟩ := step_of_handler hs
    exact ⟨_, t, .flush, ht⟩
  | selecting task send =>
    cases send with
    | absent =>
      cases task with
      | run =>
        rw [hp] at waiter
        contradiction
      | flush done => exact answer_enabled hr hp
    | notPolled | feeding b =>
      obtain ⟨t, ht⟩ := send_enabled hr hp (by simp)
      exact ⟨_, t, .send, ht⟩
  | closing fed | ended err =>
    rw [hp] at waiter
    contradiction

theorem nearer_of_work {r t : ChannelRun} (waiter : t.handler.phase.waiter = some d)
    (h : 5 * t.handler.load + t.handler.phase.rank < 5 * r.handler.load + r.handler.phase.rank) :
    Nearer d r t := .inr ⟨waiter, Prod.Lex.toLex_lt_toLex.mpr (.inl h)⟩

theorem nearer_of_write {r t : ChannelRun} (waiter : t.handler.phase.waiter = some d)
    (work : 5 * t.handler.load + t.handler.phase.rank ≤ 5 * r.handler.load + r.handler.phase.rank)
    (taken : 0 < n) (hn : n < r.handler.writer.buffered requestCodec)
    (writer : t.handler.writer = r.handler.writer.write requestCodec n) : Nearer d r t := by
  refine .inr ⟨waiter, Prod.Lex.toLex_lt_toLex.mpr ?_⟩
  have hbuffered := FramedWrite.buffered_write hn
  rcases Nat.lt_or_eq_of_le work with hlt | heq
  · exact .inl hlt
  · refine .inr ⟨heq, ?_⟩
    simp only [writer]
    omega

theorem nearer_advance {r t : ChannelRun} (waiter : r.handler.phase.waiter = some d)
    (hs : r.handler.step .advance = some t.handler) : Nearer d r t := by
  obtain ⟨t, tr⟩ := t
  cases ChannelHandler.step_sound hs with
  | run phase =>
    rw [phase] at waiter
    contradiction
  | flushDone phase empty => exact .inl (.inl ⟨rfl, empty.1, empty.2⟩)
  | flushMore phase =>
    rw [phase] at waiter
    refine nearer_of_work waiter ?_
    rw [phase]
    exact Nat.lt_succ_self _

theorem nearer_flush {r t : ChannelRun} (waiter : r.handler.phase.waiter = some d)
    (hs : r.handler.step (.flush .complete) = some t.handler) : Nearer d r t := by
  obtain ⟨t, tr⟩ := t
  cases ChannelHandler.step_sound hs with
  | flushed phase _ selected =>
    rw [phase] at waiter
    cases selected with
    | cancelled => exact .inl (.inr rfl)
    | absent | notPolled =>
      refine nearer_of_work waiter ?_
      rw [phase]
      exact Nat.lt_succ_self _

theorem nearer_flushSome {r t : ChannelRun} (waiter : r.handler.phase.waiter = some d)
    (taken : 0 < n) (hs : r.handler.step (.flush (.blocked n)) = some t.handler) :
    Nearer d r t := by
  obtain ⟨t, tr⟩ := t
  cases ChannelHandler.step_sound hs with
  | flushing phase flush =>
    obtain ⟨hn, hw⟩ := Option.ite_none_right_eq_some.mp flush
    exact nearer_of_write waiter (Nat.le_refl _) taken hn (Option.some.inj hw).symm

theorem load_start {h t : ChannelHandler} (pending : h.pendingWrites = b :: t.pendingWrites)
    (entry : t.waitForAck = h.waitForAck.insert b.sequence b) : t.load + 1 ≤ h.load := by
  have hsize := Map.size_insert_le h.waitForAck b.sequence b
  simp only [ChannelHandler.load, pending, entry, List.length_cons]
  omega

theorem nearer_send {r t : ChannelRun} (hr : r.Sound) (waiter : r.handler.phase.waiter = some d)
    (hs : r.step (.sendPending .complete) = some t) : Nearer d r t := by
  obtain ⟨b, task, hhead, -, ⟨hp, hpending, hentries⟩ | ⟨hp, hpending, hentries⟩⟩ :=
    send_accepted hr hs
  · rw [hp, Phase.waiter_selecting, ← hhead] at waiter
    have hload : t.handler.load = r.handler.load := by
      simp only [ChannelHandler.load, hpending, hentries]
    refine nearer_of_work waiter ?_
    rw [hload, hhead, hp]
    exact Nat.lt_succ_self _
  · rw [hp, Phase.waiter_selecting, ← hhead] at waiter
    have hload := load_start hpending hentries
    refine nearer_of_work waiter ?_
    rw [hhead, hp]
    simp only [Phase.rank]
    omega

theorem feed_blocked {h t : ChannelHandler} (fed : h.Fed task b (.blocked n) t) :
    n < h.writer.buffered requestCodec ∧
      t = { h with
        writer := h.writer.write requestCodec n, phase := .selecting task (.feeding b) } := by
  cases fed with
  | blocked ready =>
    unfold FramedWrite.pollReady at ready
    split at ready
    · simp only [FramedWrite.pollFlush, Option.ite_none_right_eq_some, Option.some.injEq] at ready
      exact ⟨ready.1, ready.2 ▸ rfl⟩
    · contradiction
  | rejected _ _ ended => exact absurd rfl (ended n)

theorem nearer_sendSome {r t : ChannelRun} (waiter : r.handler.phase.waiter = some d)
    (taken : 0 < n) (hs : r.handler.step (.sendPending (.blocked n)) = some t.handler) :
    Nearer d r t := by
  obtain ⟨task, b, ⟨hp, fed⟩ | ⟨hp, rest, hpending, fed⟩⟩ :=
    ChannelHandler.sendPending_cases hs
  · obtain ⟨hn, ht⟩ := feed_blocked fed
    refine nearer_of_write ?_ ?_ taken hn ?_
    · rw [hp] at waiter
      rw [ht]
      exact waiter
    · rw [ht, hp]
      exact Nat.le_refl _
    · rw [ht]
  · obtain ⟨hn, ht⟩ := feed_blocked fed
    have hload : t.handler.load + 1 ≤ r.handler.load := by
      refine load_start (b := b) ?_ ?_
      · rw [ht, hpending]
      · rw [ht]
    refine nearer_of_write ?_ ?_ taken hn ?_
    · rw [hp, Phase.waiter_selecting] at waiter
      rw [ht, Phase.waiter_selecting]
      exact waiter
    · rw [hp, show t.handler.phase = .selecting task (.feeding b) by rw [ht]]
      simp only [Phase.rank]
      omega
    · rw [ht]

theorem nearer_ack {r t : ChannelRun} (waiter : r.handler.phase.waiter = some d)
    (entry : r.handler.waitForAck.lookup seq = some b)
    (hs : r.handler.step (.response (some (.ok (.ackData seq)))) = some t.handler) :
    Nearer d r t := by
  obtain ⟨t, tr⟩ := t
  cases ChannelHandler.step_sound hs with
  | ack phase =>
    rw [phase, Phase.waiter_selecting] at waiter
    have hsize := Map.size_erase entry
    refine nearer_of_work waiter ?_
    simp only [ChannelHandler.load, Phase.rank]
    omega
  | ackUnknown _ unknown =>
    rw [unknown] at entry
    contradiction

theorem Serves.nearer {r t : ChannelRun} (hr : r.Sound) (waiter : r.handler.phase.waiter = some d)
    (hC : r.Serves e) (hs : r.step e = some t) : Nearer d r t := by
  have hstep := (step_eq_some hs).1
  cases hC with
  | advance => exact nearer_advance waiter hstep
  | flush => exact nearer_flush waiter hstep
  | flushSome taken => exact nearer_flushSome waiter taken hstep
  | send => exact nearer_send hr waiter hs
  | sendSome taken => exact nearer_sendSome waiter taken hstep
  | ack b idle entry => exact nearer_ack waiter entry hstep

theorem Serves.sendable {r : ChannelRun} (hC : r.Serves e) : r.Sendable e := by
  cases hC with
  | ack b idle entry =>
    refine ⟨fun _ hb => absurd hb (Option.not_mem_none _), ?_, rfl⟩
    simp only [Uninterrupted, ChannelHandler.dropsSend, idle, Option.isSome_none, Bool.false_and]
  | _ => exact ⟨fun _ hb => absurd hb (Option.not_mem_none _), rfl, rfl⟩

theorem flush_inevitably_over {r : ChannelRun} (hr : machine.Reaches Sendable r)
    (waiter : r.handler.phase.waiter = some d) : machine.Inevitably Serves FlushOver r := by
  refine Machine.Inevitably.of_variant variant
    (I := fun r => machine.Reaches Sendable r ∧ r.handler.phase.waiter = some d) ?_ ?_ ⟨hr, waiter⟩
  · exact fun r hI => serves_enabled (sound hI.1) hI.2
  · intro r e t hI hC hs
    rcases hC.nearer (sound hI.1) hI.2 hs with hover | ⟨hwaiter, hlt⟩
    · exact .inl hover
    · exact .inr ⟨⟨hI.1.step hC.sendable hs, hwaiter⟩, hlt⟩

theorem never_wedged {r : ChannelRun} (hr : machine.Reaches Sendable r) :
    (∀ t, r.step (.sendPending .complete) = some t →
      ∃ b task, t.handler.phase = .head task ∧
        t.handler.acceptedData = r.handler.acceptedData ++ [b] ∧
        (r.handler.feeding = some b ∨ r.handler.pendingWrites = b :: t.handler.pendingWrites)) ∧
    (∀ es t, machine.replay Sendable r es = some t → t.handler = r.handler →
      ∀ io, .sendPending io ∈ es → ∃ n, io = .blocked n) ∧
    ∀ d, r.handler.phase.waiter = some d → machine.Inevitably Serves FlushOver r := by
  refine ⟨fun t hs => ?_, fun es t hrun hsame io hmem => ?_, fun d => flush_inevitably_over hr⟩
  · obtain ⟨b, task, hhead, haccepted, ⟨hp, -, -⟩ | ⟨-, hpending, -⟩⟩ :=
      send_accepted (sound hr) hs
    · exact ⟨b, task, hhead, haccepted, .inl (ChannelHandler.feeding_of_phase hp)⟩
    · exact ⟨b, task, hhead, haccepted, .inr hpending⟩
  · by_contra hended
    have hlt := (acceptedData_replay hr hrun).2 io hmem fun n heq => hended ⟨n, heq⟩
    rw [hsame] at hlt
    exact Nat.lt_irrefl _ hlt

theorem never_wedged_flush_pending : ∃ r, machine.Reaches Sendable r ∧
    r.handler.pendingWrites = [exampleBuffer 1 []] ∧ machine.Inevitably Serves FlushOver r := by
  obtain ⟨r, hr, hpending, hwaiter⟩ := Machine.exists_reaches_of_replay
    (M := machine) (C := Sendable)
    (P := fun r => r.handler.pendingWrites = [exampleBuffer 1 []] ∧
      r.handler.phase.waiter = some 7)
    [.advance, .request (some (.data (exampleBuffer 1 []))), .advance,
      .request (some (.flush 7))] (by decide +kernel)
  exact ⟨r, hr, hpending, (never_wedged hr).2.2 7 hwaiter⟩

def unsent (b : TupleBuffer) (phase : Phase) : ChannelRun where
  handler := ⟨false, [b], ∅, .new, phase⟩
  trace := ⟨[.data b, .flush 7], [], []⟩

theorem unsent_advance (b : TupleBuffer) :
    machine.step (unsent b (.head (.flush 7))) .advance =
    some (unsent b (.flushing 7)) := rfl

theorem unsent_flush (b : TupleBuffer) :
    machine.step (unsent b (.flushing 7)) (.flush .complete) =
    some (unsent b (.selecting (.flush 7) .notPolled)) := rfl

theorem unsent_send (reject : requestCodec.fits (.data b) = false) :
    machine.step (unsent b (.selecting (.flush 7) .notPolled)) (.sendPending .complete) =
      some (unsent b (.head (.flush 7))) := by
  have hready : (FramedWrite.new : FramedWrite DataChannelRequest).pollReady requestCodec
      .complete = some .new := rfl
  have hsend : (FramedWrite.new : FramedWrite DataChannelRequest).startSend requestCodec
      (.data b) = none := if_neg (by simp [reject])
  have hback : ((∅ : Map Sequence TupleBuffer).insert b.sequence b).erase b.sequence = ∅ := by
    rw [Map.erase_insert, Map.erase_of_none rfl]
  simp only [machine, step, unsent, ChannelHandler.step, ChannelHandler.sendPending,
    ChannelHandler.feed, hready, Option.bind_some, hsend, ChannelHandler.putBack,
    Map.lookup_insert_self, hback, Option.map_some, Trace.record]

theorem unsent_wedged (reject : requestCodec.fits (.data b) = false) :
    ¬machine.Inevitably Serves FlushOver (unsent b (.head (.flush 7))) := by
  refine Machine.not_inevitably_of_trap (I := fun r => r = unsent b (.head (.flush 7)) ∨
    r = unsent b (.flushing 7) ∨ r = unsent b (.selecting (.flush 7) .notPolled)) ?_ ?_ (.inl rfl)
  · rintro r (rfl | rfl | rfl) <;> simp [FlushOver, unsent]
  · rintro r (rfl | rfl | rfl)
    · exact ⟨_, _, .advance, unsent_advance b, .inr (.inl rfl)⟩
    · exact ⟨_, _, .flush, unsent_flush b, .inr (.inr rfl)⟩
    · exact ⟨_, _, .send, unsent_send reject, .inl rfl⟩

theorem unsent_reached (b : TupleBuffer) :
    machine.Reaches (fun r e => r.Uninterrupted e ∧ ChannelHandler.writeFails e = false)
      (unsent b (.head (.flush 7))) := by
  have hreplay : machine.replay (fun r e => r.Uninterrupted e ∧ ChannelHandler.writeFails e = false)
      machine.init [.advance, .request (some (.data b)), .advance, .request (some (.flush 7))] =
      some (unsent b (.head (.flush 7))) := rfl
  exact Machine.reaches_of_replay hreplay

def oversized : TupleBuffer := exampleBuffer 1 (List.replicate (8 * 1024 * 1024) 0)

theorem oversized_rejected : requestCodec.fits (.data oversized) = false := by
  refine Bool.eq_false_iff.mpr fun hfit => Nat.not_lt_of_le (fits_iff.mp hfit) ?_
  have hlength := data_length_lt_jsonLen oversized
  rwa [show oversized.data.length = 8 * 1024 * 1024 from List.length_replicate] at hlength

theorem oversized_wedges : ∃ r,
    machine.Reaches (fun r e => r.Uninterrupted e ∧ ChannelHandler.writeFails e = false) r ∧
      r.handler.phase.waiter = some 7 ∧ r.handler.pendingWrites = [oversized] ∧
      (∃ r', machine.step r .advance = some r' ∧
        ∃ r'', machine.step r' (.flush .complete) = some r'' ∧
          machine.step r'' (.sendPending .complete) = some r) ∧
      ¬machine.Inevitably Serves FlushOver r :=
  ⟨_, unsent_reached oversized, rfl, rfl,
    ⟨_, unsent_advance _, _, unsent_flush _, unsent_send oversized_rejected⟩,
    unsent_wedged oversized_rejected⟩

end ChannelRun

end BdsPro.Network.Sender
