import BdsPro.Network.ChannelStream
import BdsPro.Network.Receiver.ChannelHandlerLaws
import BdsPro.Network.Sender.EndingLaws

namespace BdsPro.Network

open BdsPro.Library

namespace ChannelStream

open Sender (ChannelHandlerError)

def Reason (c : ChannelStream) : ChannelHandlerError → Prop
  | .terminated => .terminate ∈ c.sender.trace.taken
  | .closedByOtherSide => .close ∈ c.stream.receiver.writer.wire
  | .cancelled => c.sender.queueOpen = false ∧ c.sender.queue = []
  | .connectionLost _ | .protocol _ => True

structure Explained (c : ChannelStream) : Prop where
  token : ∀ h, c.sender.stage = .running h → h.cancelled = false
  closing : ∀ h fed, c.sender.stage = .running h → h.phase = .closing fed →
    .terminate ∈ c.sender.trace.taken
  ended : ∀ h err, c.sender.stage = .running h → h.phase = .ended err → c.Reason err

structure Extends (c t : ChannelStream) : Prop where
  taken : c.sender.trace.taken ⊆ t.sender.trace.taken
  wire : c.stream.receiver.writer.wire ⊆ t.stream.receiver.writer.wire
  queue : c.sender.queueOpen = false → c.sender.queue = [] →
    t.sender.queueOpen = false ∧ t.sender.queue = []

theorem Reason.extend {c t : ChannelStream} (hr : c.Reason err) (h : c.Extends t) :
    t.Reason err := by
  cases err with
  | terminated => exact h.taken hr
  | closedByOtherSide => exact h.wire hr
  | cancelled => exact h.queue hr.1 hr.2
  | connectionLost | protocol => trivial

theorem Explained.extend {c t : ChannelStream} (hc : c.Explained) (h : c.Extends t)
    (hs : t.sender.stage = c.sender.stage) : t.Explained where
  token := hs ▸ hc.token
  closing s fed hrun hp := h.taken (hc.closing s fed (hs ▸ hrun) hp)
  ended s err hrun hp := (hc.ended s err (hs ▸ hrun) hp).extend h

theorem Explained.idle {c : ChannelStream} (h : ∀ s, c.sender.stage ≠ .running s) :
    c.Explained where
  token s hs := absurd hs (h s)
  closing s _ hs := absurd hs (h s)
  ended s _ hs := absurd hs (h s)

theorem sender_eq_some {c t : ChannelStream} (hs : c.step (.sender a) = some t) :
    c.senderReads a = true ∧ c.sender.step a = some t.sender ∧
      (a ≠ .connect true → t.stream.receiver = c.stream.receiver) := by
  simp only [step, Option.ite_none_right_eq_some, Option.map_eq_some_iff] at hs
  obtain ⟨hreads, s, hs, rfl⟩ := hs
  refine ⟨hreads, hs, fun hne => ?_⟩
  split
  next => exact absurd rfl hne
  next => rfl
  next => rfl

theorem Reason.of_cause {c : ChannelStream} (hc : c.Explained) (hs : c.sender.stage = .running h)
    (hopen : c.StaysOpen (.sender (.handler e))) (hreads : c.senderReads (.handler e) = true)
    (hoffers : c.sender.offers e = true) (hcause : h.Cause e err) : c.Reason err := by
  cases hcause with
  | token cancelled =>
    rw [hc.token h hs] at cancelled
    contradiction
  | queueClosed =>
    obtain ⟨hqueue, hclosed⟩ := of_decide_eq_true hoffers
    exact ⟨hclosed, hqueue⟩
  | endOfStream => contradiction
  | closeReceived => exact List.mem_of_getElem? (of_decide_eq_true hreads)
  | terminated phase => exact hc.closing h _ hs phase
  | connectionLost | unknownSeq => trivial

theorem extends_sender {c t : ChannelStream} (hs : c.step (.sender a) = some t)
    (ha : a ≠ .connect true) : c.Extends t := by
  obtain ⟨-, hstep, hreceiver⟩ := sender_eq_some hs
  refine ⟨Sender.Channel.taken_step hstep, ?_, Sender.Channel.drained_step hstep⟩
  rw [hreceiver ha]
  exact List.Subset.refl _

theorem Explained.handler {c t : ChannelStream} (hc : c.Explained)
    (hopen : c.StaysOpen (.sender (.handler e)))
    (hs : c.step (.sender (.handler e)) = some t) : t.Explained := by
  have hext := extends_sender hs (by simp)
  obtain ⟨hreads, hs, -⟩ := sender_eq_some hs
  obtain ⟨h, h', queue, hstage, hoffers, hstep, -, hsender⟩ :=
    Sender.Channel.handler_eq_some hs
  have hcancel : e ≠ .cancel := by
    rintro rfl
    contradiction
  have hrun : t.sender.stage = .running h' := hsender ▸ rfl
  refine ⟨?_, ?_, ?_⟩
  · rw [hrun]
    rintro _ ⟨⟩
    rw [(Sender.ChannelHandler.polls_of_step hstep hcancel).token, hc.token h hstage]
  · rw [hrun]
    rintro _ fed ⟨⟩ hp
    obtain ⟨fed', hp'⟩ | rfl := Sender.ChannelHandler.closing_of_step hstep hp
    · exact hext.taken (hc.closing h fed' hstage hp')
    · rw [hsender]
      exact List.mem_append_right _ (List.mem_singleton_self _)
  · rw [hrun]
    rintro _ err ⟨⟩ hp
    refine Reason.extend ?_ hext
    cases Sender.ChannelHandler.ended_cause hstep hp with
    | inl hp => exact hc.ended h err hstage hp
    | inr hcause => exact .of_cause hc hstage hopen hreads hoffers hcause

theorem Explained.start {c : ChannelStream}
    (h : c.sender.stage = .running (.new false)) : c.Explained where
  token s hs := by
    rw [h] at hs
    cases hs
    rfl
  closing s fed hs hp := by
    rw [h] at hs
    cases hs
    contradiction
  ended s err hs hp := by
    rw [h] at hs
    cases hs
    contradiction

theorem connect_stage {c t : Sender.Channel} (hs : c.step (.connect true) = some t) :
    t.stage = .running (.new false) := by
  simp only [Sender.Channel.step, Sender.Channel.connect] at hs
  split at hs
  next => exact Option.some.inj hs ▸ rfl
  next => contradiction

theorem Explained.sender {c t : ChannelStream} (hc : c.Explained)
    (hopen : c.StaysOpen (.sender a)) (hs : c.step (.sender a) = some t) : t.Explained := by
  obtain ⟨-, hstep, -⟩ := sender_eq_some hs
  by_cases ha : a = .connect true
  · subst ha
    exact .start (connect_stage hstep)
  · have hsound := Sender.Channel.step_sound hstep
    generalize hsender : t.sender = s at hsound
    cases hsound with
    | still stage => exact hc.extend (extends_sender hs ha) (hsender ▸ stage)
    | idle source target => exact .idle (hsender ▸ target)
    | start source => exact absurd rfl ha
    | handler event => exact hc.handler hopen hs
    | finish h source dead target => exact .idle (hsender ▸ target)

theorem Explained.step {c t : ChannelStream} (hc : c.Explained) (hopen : c.StaysOpen a)
    (hs : c.step a = some t) : t.Explained := by
  cases a with
  | sender a => exact hc.sender hopen hs
  | receiver e =>
    simp only [ChannelStream.step, Option.ite_none_right_eq_some, Option.map_eq_some_iff] at hs
    obtain ⟨-, r, hr, rfl⟩ := hs
    have hwire := (Receiver.ChannelHandler.grows hr).2.subset
    exact hc.extend ⟨List.Subset.refl _, hwire, fun hclosed hqueue => ⟨hclosed, hqueue⟩⟩ rfl
  | dispatch registered =>
    simp only [ChannelStream.step, dispatch, Option.ite_none_right_eq_some,
      Option.some.injEq] at hs
    rw [← hs.2]
    exact { hc with }
  | drop =>
    rw [← Option.some.inj hs]
    exact { hc with }

theorem explained_of_reaches {c : ChannelStream} (h : machine.Reaches StaysOpen c) :
    c.Explained :=
  h.invariant (.idle (by rintro s ⟨⟩)) fun _ _ _ _ ih hopen hs => ih.step hopen hs

theorem closed_after_agreement {c : ChannelStream} (h : machine.Reaches StaysOpen c)
    (hs : c.sender.stage = .running s) (hp : s.phase = .ended e) :
    (e.result = .closed → .terminate ∈ c.sender.trace.taken ∨
      .close ∈ c.stream.receiver.writer.wire) ∧
    (e.result = .cancelled → c.sender.queueOpen = false ∧ c.sender.queue = []) ∧
    (.terminate ∉ c.sender.trace.taken → .close ∉ c.stream.receiver.writer.wire →
      c.sender.queueOpen = true → ∃ m, e.result = .connectionLost m ∧
        c.step (.sender .finish) =
          some { c with sender := { c.sender with stage := .retrying } }) := by
  have hreason := (explained_of_reaches h).ended s e hs hp
  cases e with
  | terminated => exact ⟨fun _ => .inl hreason, by rintro ⟨⟩, fun hno => absurd hreason hno⟩
  | closedByOtherSide =>
    exact ⟨fun _ => .inr hreason, by rintro ⟨⟩, fun _ hno => absurd hreason hno⟩
  | cancelled =>
    refine ⟨by rintro ⟨⟩, fun _ => hreason, fun _ _ hopen => ?_⟩
    rw [hreason.1] at hopen
    contradiction
  | connectionLost m | protocol m =>
    refine ⟨by rintro ⟨⟩, by rintro ⟨⟩, fun _ _ _ => ⟨m, rfl, ?_⟩⟩
    simp only [ChannelStream.step, senderReads, if_true, Sender.Channel.step,
      Sender.Channel.finish, hs, hp, Sender.ChannelHandlerError.result, Option.map_some]

theorem closed_after_agreement_reset :
    ∃ c t, machine.Reaches StaysOpen c ∧ c.step (.sender .finish) = some t ∧
      t.sender.stage = .retrying := by
  obtain ⟨c, hc, ⟨s, hs, hp⟩, htaken, hwire, hopen⟩ := Machine.exists_reaches_of_replay
    (M := machine) (C := StaysOpen)
    (P := fun c => (∃ s, c.sender.stage = .running s ∧
        s.phase = .ended (.connectionLost "connection reset")) ∧
      .terminate ∉ c.sender.trace.taken ∧ .close ∉ c.stream.receiver.writer.wire ∧
      c.sender.queueOpen = true)
    [.sender (.establish .ok), .sender (.connect true), .dispatch true,
      .sender (.handler .advance),
      .sender (.handler (.response (some (.error "connection reset"))))]
    ⟨_, rfl, ⟨_, rfl, rfl⟩, by decide, by decide, rfl⟩
  obtain ⟨m, -, hfinish⟩ := (closed_after_agreement hc hs hp).2.2 htaken hwire hopen
  exact ⟨c, _, hc, hfinish, rfl⟩

/-- The receiver's handler is cancelled, and its stream is dropped without a Close. -/
theorem end_of_stream_abandons_channel :
    ¬∀ c, machine.Reachable c → ∀ s e, c.sender.stage = .running s → s.phase = .ended e →
      e.result = .closed →
        .terminate ∈ c.sender.trace.taken ∨ .close ∈ c.stream.receiver.writer.accepted := by
  intro h
  obtain ⟨c, hc, ⟨s, hs, hp⟩, htaken, hwire⟩ := Machine.exists_reaches_of_replay
    (M := machine) (C := fun _ _ => True)
    (P := fun c => (∃ s, c.sender.stage = .running s ∧ s.phase = .ended .closedByOtherSide) ∧
      .terminate ∉ c.sender.trace.taken ∧ .close ∉ c.stream.receiver.writer.accepted)
    [.sender (.establish .ok), .sender (.connect true), .dispatch true, .receiver .cancel,
      .receiver .cancelled, .drop, .sender (.handler .advance),
      .sender (.handler (.response none))]
    ⟨_, rfl, ⟨_, rfl, rfl⟩, by decide, by decide⟩
  cases h c hc s _ hs hp rfl with
  | inl hmem => exact htaken hmem
  | inr hmem => exact hwire hmem

end ChannelStream

end BdsPro.Network
