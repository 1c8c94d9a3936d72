import BdsPro.Library.Fifo
import BdsPro.Library.Log
import BdsPro.TestNode.NetworkSink

namespace BdsPro.TestNode

open BdsPro.Library BdsPro.Network BdsPro.Network.Sender

def SinkPhase.isDraining : SinkPhase → Bool
  | .draining _ => true
  | _ => false

def SinkPhase.pastFlush : SinkPhase → Bool
  | .waiting _ | .terminating | .stopped => true
  | _ => false

namespace NetworkSink

def placedData (s : NetworkSink) : List TupleBuffer := s.placed.filterMap (·.buffer)

def unplaced (s : NetworkSink) : List TupleBuffer :=
  if s.repeated then s.buffer.tail else s.buffer

@[simp] theorem placedData_place (s : NetworkSink) (m : ChannelControlMessage) :
    (s.place m).placedData = s.placedData ++ m.buffer.toList := by
  simp only [placedData, place, List.filterMap_append, List.filterMap_cons, List.filterMap_nil]
  cases m.buffer <;> rfl

inductive Step (s : NetworkSink) : Action → NetworkSink → Prop
  | ignored (phase : s.phase = .idle) (closed : s.closed = true) :
    Step s (.execute data ok) { s with executed := s.executed ++ [data] }
  | unregistered (phase : s.phase = .idle) :
    Step s (.execute data ok) { s with executed := s.executed ++ [data], phase := .panicked }
  | direct (data : TupleBuffer) (phase : s.phase = .idle) (closed : s.closed = false)
      (buffer : s.buffer = []) :
    Step s (.execute data ok) { s with
      executed := s.executed ++ [data], registered := true, phase := .sending data false }
  | queued (data : TupleBuffer) (phase : s.phase = .idle) (closed : s.closed = false)
      (buffer : s.buffer ≠ []) :
    Step s (.execute data ok) { s with
      executed := s.executed ++ [data], registered := true
      buffer := s.buffer ++ [data], phase := .draining data }
  | drain (data front : TupleBuffer) (rest : List TupleBuffer) (phase : s.phase = .draining data)
      (buffer : s.buffer = front :: rest) : Step s .forward (s.drain data front rest)
  | send (data : TupleBuffer) (again : Bool) (phase : s.phase = .sending data again) :
    Step s .forward (s.send data again)
  | leave (phase : s.phase = .idle) : Step s .stop { s with phase := .stopped }
  | close (phase : s.phase = .idle) (closed : s.closed = false) :
    Step s .stop { s with phase := if s.registered then .flushing else .panicked }
  | flush (phase : s.phase = .flushing) (sent : s.trySend = .ok) :
    Step s .sendBlocking { s.place (.flush 0) with phase := .waiting none }
  | terminate (phase : s.phase = .terminating) (sent : s.trySend = .ok) :
    Step s .sendBlocking { s.place .terminate with controlOpen := false, phase := .stopped }
  | refused (phase : s.phase = .flushing ∨ s.phase = .terminating) :
    Step s .sendBlocking { s with phase := .stopped }
  | flushed (ok : Bool) (taken : s.flushTaken = true) :
    Step s (.flushed ok) { s with phase := .waiting (some ok) }
  | answered (ok : Bool) (phase : s.phase = .waiting (some ok)) :
    Step s .blockingRecv { s with phase := if ok then .terminating else .stopped }
  | receive (m : ChannelControlMessage) (rest : List ChannelControlMessage)
      (served : s.served = true) (control : s.control = m :: rest) :
    Step s .receive { s with control := rest }
  | closeControl (untaken : s.flushTaken = false) :
    Step s .closeControl { s with controlOpen := false, served := false }
  | closeFlush (taken : s.flushTaken = true) :
    Step s .closeControl { s with
      controlOpen := false, served := false, phase := .waiting (some false) }

theorem phase_of_taken {s : NetworkSink} (taken : s.flushTaken = true) :
    s.phase = .waiting none := (of_decide_eq_true taken).1

theorem step_sound {s t : NetworkSink} (hs : s.step a = some t) : Step s a t := by
  cases a with
  | execute data ok =>
    simp only [step, execute] at hs
    obtain ⟨hphase, hs⟩ := Option.ite_none_right_eq_some.mp hs
    split at hs
    next hclosed => exact Option.some.inj hs ▸ .ignored hphase hclosed
    next hclosed =>
      have hclosed := Bool.eq_false_iff.mpr hclosed
      split at hs
      · exact Option.some.inj hs ▸ .unregistered hphase
      · split at hs
        next hbuffer => exact Option.some.inj hs ▸ .direct data hphase hclosed hbuffer
        next hbuffer => exact Option.some.inj hs ▸ .queued data hphase hclosed hbuffer
  | forward =>
    simp only [step, forward] at hs
    split at hs
    next hphase hbuffer => exact Option.some.inj hs ▸ .drain _ _ _ hphase hbuffer
    next hphase => exact Option.some.inj hs ▸ .send _ _ hphase
    next => contradiction
  | stop =>
    simp only [step, stop] at hs
    obtain ⟨hphase, hs⟩ := Option.ite_none_right_eq_some.mp hs
    split at hs
    · exact Option.some.inj hs ▸ .leave hphase
    · exact Option.some.inj hs ▸ .leave hphase
    · exact Option.some.inj hs ▸ .leave hphase
    · exact Option.some.inj hs ▸ .close hphase ‹_›
    · exact Option.some.inj hs ▸ .close hphase ‹_›
    · exact Option.some.inj hs ▸ .close hphase ‹_›
  | sendBlocking =>
    simp only [step, sendBlocking] at hs
    split at hs
    next hphase hsent => exact Option.some.inj hs ▸ .flush hphase hsent
    next hphase hsent => exact Option.some.inj hs ▸ .terminate hphase hsent
    next hphase _ => exact Option.some.inj hs ▸ .refused (.inl hphase)
    next hphase _ => exact Option.some.inj hs ▸ .refused (.inr hphase)
    next => contradiction
  | flushed ok =>
    obtain ⟨htaken, hs⟩ := Option.ite_none_right_eq_some.mp hs
    exact Option.some.inj hs ▸ .flushed ok htaken
  | blockingRecv =>
    simp only [step, blockingRecv] at hs
    split at hs
    next ok hphase => exact Option.some.inj hs ▸ .answered ok hphase
    next => contradiction
  | receive =>
    simp only [step, receive] at hs
    split at hs
    next m rest hserved hcontrol => exact Option.some.inj hs ▸ .receive m rest hserved hcontrol
    next => contradiction
  | closeControl =>
    obtain rfl := Option.some.inj hs
    unfold NetworkSink.closeControl
    split
    next htaken => exact .closeFlush htaken
    next htaken => exact .closeControl (Bool.eq_false_iff.mpr htaken)

def StaysOpen (_ : NetworkSink) (a : Action) : Prop := a ≠ .closeControl

def AtLast (s : NetworkSink) : Prop := s.phase.isDraining = true ∧ s.buffer.length = 1

/-- The loop does not place the last element. -/
def Crowded (s : NetworkSink) (a : Action) : Prop := a = .forward → s.AtLast → s.trySend ≠ .ok

/-- The control queue stays open, and is full whenever the loop comes to the last element. -/
def Congested (s : NetworkSink) (a : Action) : Prop :=
  a ≠ .closeControl ∧ (a = .forward → s.AtLast → s.trySend = .full)

def registers : Action → Bool
  | .execute _ ok => ok
  | _ => true

def Registers (_ : NetworkSink) (a : Action) : Prop := registers a = true

instance (s : NetworkSink) (a : Action) : Decidable (s.Registers a) :=
  inferInstanceAs (Decidable (_ = true))

instance (s : NetworkSink) (a : Action) : Decidable (s.StaysOpen a) :=
  inferInstanceAs (Decidable (_ ≠ _))

instance (s : NetworkSink) : Decidable s.AtLast := inferInstanceAs (Decidable (_ ∧ _))

instance (s : NetworkSink) (a : Action) : Decidable (s.Crowded a) :=
  inferInstanceAs (Decidable (_ → _ → _))

instance (s : NetworkSink) (a : Action) : Decidable (s.Congested a) :=
  inferInstanceAs (Decidable (_ ∧ (_ → _ → _)))

def Steady (s : NetworkSink) (a : Action) : Prop := s.Congested a ∧ s.Registers a

instance (s : NetworkSink) (a : Action) : Decidable (s.Steady a) :=
  inferInstanceAs (Decidable (_ ∧ _))

def InOrder (s : NetworkSink) : Prop :=
  match s.phase with
  | .idle | .draining _ => Fifo s.executed s.placedData s.buffer
  | .sending data _ => s.buffer = [] ∧ Fifo s.executed s.placedData [data]
  | _ => True

theorem trySend_open {s : NetworkSink} (h : s.controlOpen = true) : s.trySend ≠ .closed := by
  simp only [trySend, h, if_true]
  split <;> exact nofun

theorem drain_frame (s : NetworkSink) (data front : TupleBuffer) (rest : List TupleBuffer) :
    (s.drain data front rest).controlOpen = s.controlOpen ∧
      (s.drain data front rest).closed = s.closed ∧
      (s.drain data front rest).executed = s.executed := by
  unfold drain
  split <;> exact ⟨rfl, rfl, rfl⟩

theorem send_frame (s : NetworkSink) (data : TupleBuffer) (again : Bool) :
    (s.send data again).controlOpen = s.controlOpen ∧
      (s.trySend ≠ .closed → (s.send data again).closed = s.closed) ∧
      (s.send data again).executed = s.executed := by
  unfold send
  split
  · exact ⟨rfl, fun _ => rfl, rfl⟩
  · exact ⟨rfl, fun hne => absurd ‹_› hne, rfl⟩
  · exact ⟨rfl, fun _ => rfl, rfl⟩

theorem InOrder.execute {s : NetworkSink} (h : s.InOrder) (phase : s.phase = .idle)
    (b : TupleBuffer) : Fifo (s.executed ++ [b]) s.placedData (s.buffer ++ [b]) := by
  simp only [InOrder, phase] at h
  exact h.enter b

theorem InOrder.drain {s : NetworkSink} (h : s.InOrder) (control : s.controlOpen = true)
    (phase : s.phase = .draining data) (buffer : s.buffer = front :: rest)
    (last : s.AtLast → s.trySend = .full) : (s.drain data front rest).InOrder := by
  have hfifo : Fifo s.executed s.placedData s.buffer := by simpa only [InOrder, phase] using h
  cases hsend : s.trySend with
  | full =>
    simp only [NetworkSink.drain, hsend]
    exact hfifo
  | closed => exact absurd hsend (trySend_open control)
  | ok =>
    have hrest : rest ≠ [] := by
      rintro rfl
      have hfull := last ⟨by rw [phase]; rfl, by rw [buffer]; rfl⟩
      rw [hsend] at hfull
      contradiction
    rw [buffer] at hfifo
    have hplaced := placedData_place s (.data front)
    simp only [NetworkSink.drain, hsend, InOrder, if_neg hrest]
    exact hplaced ▸ hfifo.leave

theorem InOrder.send {s : NetworkSink} (h : s.InOrder) (control : s.controlOpen = true)
    (phase : s.phase = .sending data again) : (s.send data again).InOrder := by
  obtain ⟨hbuffer, hfifo⟩ : s.buffer = [] ∧ Fifo s.executed s.placedData [data] := by
    simpa only [InOrder, phase] using h
  cases hsend : s.trySend with
  | full =>
    simp only [NetworkSink.send, hsend, InOrder, hbuffer]
    exact hfifo
  | closed => exact absurd hsend (trySend_open control)
  | ok =>
    have hplaced := placedData_place s (.data data)
    have hleave := hfifo.leave
    simp only [NetworkSink.send, hsend, InOrder]
    exact hplaced ▸ hbuffer.symm ▸ hleave

structure Forwarding (s : NetworkSink) : Prop where
  inOrder : s.InOrder
  control : s.phase ≠ .stopped → s.controlOpen = true
  closed : s.closed = false

theorem Forwarding.step {s t : NetworkSink} (h : s.Forwarding) (hC : s.Congested a)
    (hs : Step s a t) : t.Forwarding := by
  cases hs with
  | ignored _ closed => exact absurd closed (Bool.eq_false_iff.mp h.closed)
  | unregistered phase => exact ⟨trivial, fun _ => h.control (by simp [phase]), h.closed⟩
  | direct data phase _ buffer =>
    have hfifo := h.inOrder.execute phase data
    rw [buffer] at hfifo
    exact ⟨⟨buffer, hfifo⟩, fun _ => h.control (by simp [phase]), h.closed⟩
  | queued data phase =>
    exact ⟨h.inOrder.execute phase _, fun _ => h.control (by simp [phase]), h.closed⟩
  | drain data front rest phase buffer =>
    have hcontrol := h.control (by simp [phase])
    obtain ⟨hopen, hclosed, -⟩ := drain_frame s data front rest
    exact ⟨h.inOrder.drain hcontrol phase buffer (hC.2 rfl), fun _ => hopen.trans hcontrol,
      hclosed.trans h.closed⟩
  | send data again phase =>
    have hcontrol := h.control (by simp [phase])
    obtain ⟨hopen, hclosed, -⟩ := send_frame s data again
    exact ⟨h.inOrder.send hcontrol phase, fun _ => hopen.trans hcontrol,
      (hclosed (trySend_open hcontrol)).trans h.closed⟩
  | leave => exact ⟨trivial, fun hne => absurd rfl hne, h.closed⟩
  | close phase =>
    refine ⟨?_, fun _ => h.control (by simp [phase]), h.closed⟩
    cases hr : s.registered <;> simp [InOrder]
  | flush phase => exact ⟨trivial, fun _ => h.control (by simp [phase]), h.closed⟩
  | terminate | refused => exact ⟨trivial, fun hne => absurd rfl hne, h.closed⟩
  | flushed ok taken =>
    exact ⟨trivial, fun _ => h.control (by simp [phase_of_taken taken]), h.closed⟩
  | answered ok phase =>
    refine ⟨?_, fun _ => h.control (by simp [phase]), h.closed⟩
    cases ok <;> trivial
  | receive => exact ⟨h.inOrder, h.control, h.closed⟩
  | closeControl | closeFlush => exact absurd rfl hC.1

theorem executed_forwarded {s : NetworkSink} {close : Option Bool}
    (h : (machine close).Reaches Congested s) (idle : s.phase = .idle) :
    s.placedData ++ s.buffer = s.executed := by
  have hforwarding : s.Forwarding := by
    clear idle
    induction h with
    | init => exact ⟨rfl, fun _ => rfl, rfl⟩
    | step _ hC hs ih => exact ih.step hC (step_sound hs)
  have hfifo := hforwarding.inOrder
  simp only [InOrder, idle] at hfifo
  exact hfifo.symm

structure Filled (s : NetworkSink) (n : Nat) : Prop where
  phase : s.phase = .idle
  closed : s.closed = false
  registered : 0 < n → s.registered = true
  buffer : s.buffer = []
  control : s.controlOpen = true
  served : s.served = true
  length : s.control.length = n
  placed : s.placedData.length = n
  executed : s.executed.length = n
  repeated : s.repeated = false

theorem Filled.execute (close : Option Bool) {s : NetworkSink} (h : s.Filled n)
    (hn : n < Channel.queueLen) (b : TupleBuffer) :
    ∃ t, (machine close).replay Steady s [.execute b true, .forward] = some t ∧
      t.Filled (n + 1) := by
  refine ⟨{ s with
    registered := true
    control := s.control ++ [.data b], executed := s.executed ++ [b],
    placed := s.placed ++ [.data b] }, ?_, ?_⟩
  · simp [Machine.replay, machine, step, NetworkSink.execute, forward, NetworkSink.send, trySend,
      place, Steady, Registers, registers, Congested, AtLast, SinkPhase.isDraining, h.phase,
      h.closed, h.buffer, h.control, h.length, hn]
  · have hplaced := congrArg List.length (placedData_place s (.data b))
    rw [List.length_append, h.placed] at hplaced
    exact ⟨h.phase, h.closed, fun _ => rfl, h.buffer, h.control, h.served, by simp [h.length],
      hplaced, by simp [h.executed], h.repeated⟩

theorem fills (close : Option Bool) {n : Nat} (hn : n ≤ Channel.queueLen) :
    ∃ s, (machine close).Reaches Steady s ∧ s.Filled n := by
  induction n with
  | zero => exact ⟨new close, .init, rfl, rfl, nofun, rfl, rfl, rfl, rfl, rfl, rfl, rfl⟩
  | succ n ih =>
    obtain ⟨s, hr, hfilled⟩ := ih (Nat.le_of_succ_le hn)
    obtain ⟨t, ht, hfilled'⟩ := hfilled.execute close hn (exampleBuffer n [])
    exact ⟨t, hr.replay ht, hfilled'⟩

structure Overflowing (s : NetworkSink) (b : TupleBuffer) : Prop where
  phase : s.phase = .idle
  closed : s.closed = false
  registered : s.registered = true
  buffer : s.buffer = [b]
  control : s.controlOpen = true
  served : s.served = true
  full : ∃ m₁ m₂ m₃ rest, s.control = m₁ :: m₂ :: m₃ :: rest ∧ rest.length = 97
  placed : s.placedData.length = 100
  executed : s.executed.length = 101

theorem overflows (close : Option Bool) (b : TupleBuffer) :
    ∃ s, (machine close).Reaches Steady s ∧ s.Overflowing b := by
  obtain ⟨s, hr, hfilled⟩ := fills close (le_refl Channel.queueLen)
  have hlength := hfilled.length
  have hfull : ∃ m₁ m₂ m₃ rest, s.control = m₁ :: m₂ :: m₃ :: rest ∧ rest.length = 97 := by
    rcases hcontrol : s.control with _ | ⟨m₁, _ | ⟨m₂, _ | ⟨m₃, rest⟩⟩⟩
    · simp [hcontrol, Channel.queueLen] at hlength
    · simp [hcontrol, Channel.queueLen] at hlength
    · simp [hcontrol, Channel.queueLen] at hlength
    · exact ⟨m₁, m₂, m₃, rest, rfl, by simpa [hcontrol, Channel.queueLen] using hlength⟩
  have hreplay : (machine close).replay Steady s [.execute b true, .forward] =
      some { s with registered := true, executed := s.executed ++ [b], buffer := [b] } := by
    simp [Machine.replay, machine, step, NetworkSink.execute, forward, NetworkSink.send, trySend,
      Steady, Registers, registers, Congested, AtLast, SinkPhase.isDraining, hfilled.phase,
      hfilled.closed, hfilled.buffer, hfilled.control, hfilled.length, hfilled.repeated]
  exact ⟨_, hr.replay hreplay, hfilled.phase, hfilled.closed, rfl, rfl, hfilled.control,
    hfilled.served, hfull, hfilled.placed, by simp [hfilled.executed, Channel.queueLen]⟩

theorem executed_forwarded_overflowing :
    ∃ s, (machine none).Reaches Congested s ∧ s.buffer = [exampleBuffer 2 []] ∧
      s.placedData ++ s.buffer = s.executed := by
  obtain ⟨s, hr, hover⟩ := overflows none (exampleBuffer 1 [])
  obtain ⟨m₁, m₂, m₃, rest, hcontrol, hrest⟩ := hover.full
  have hreplay : ∃ t, (machine none).replay Congested s
      [.receive, .execute (exampleBuffer 2 []) true, .forward, .forward] = some t ∧
      t.phase = .idle ∧ t.buffer = [exampleBuffer 2 []] := by
    simp [Machine.replay, machine, step, NetworkSink.execute, forward, receive,
      NetworkSink.drain, trySend, place, Congested, AtLast, SinkPhase.isDraining, hover.phase,
      hover.closed, hover.buffer, hover.control, hover.served, hcontrol, hrest, Channel.queueLen]
  obtain ⟨t, ht, hidle, hbuffer⟩ := hreplay
  have hcongested := hr.mono (D := Congested) fun _ _ hC => hC.1
  have ht' := hcongested.replay ht
  exact ⟨t, ht', hbuffer, executed_forwarded ht' hidle⟩

/-- Three messages are received: the next call empties the overflow and places its own buffer
twice. -/
theorem drained_placed_twice :
    ¬∀ s, (machine none).Reaches StaysOpen s → s.phase = .idle →
      s.placedData ++ s.buffer = s.executed := by
  intro h
  obtain ⟨s, hr, hover⟩ := overflows none (exampleBuffer 1 [])
  obtain ⟨m₁, m₂, m₃, rest, hcontrol, hrest⟩ := hover.full
  have hreplay : ∃ t, (machine none).replay StaysOpen s
      [.receive, .receive, .receive, .execute (exampleBuffer 2 []) true, .forward, .forward,
        .forward] = some t ∧ t.phase = .idle ∧ t.buffer = [] ∧
      t.executed = s.executed ++ [exampleBuffer 2 []] ∧
      t.placedData =
        s.placedData ++ [exampleBuffer 1 [], exampleBuffer 2 [], exampleBuffer 2 []] := by
    simp [Machine.replay, machine, step, NetworkSink.execute, forward, receive,
      NetworkSink.drain, NetworkSink.send, trySend, place, StaysOpen, hover.phase, hover.closed,
      hover.buffer, hover.control, hover.served, hcontrol, hrest, Channel.queueLen, placedData,
      ChannelControlMessage.buffer]
  obtain ⟨t, ht, hidle, hbuffer, hexecuted, hplaced⟩ := hreplay
  have hopen := hr.mono (D := StaysOpen) fun _ _ hC => hC.1.1
  have heq := congrArg List.length (h t (hopen.replay ht) hidle)
  simp [hbuffer, hexecuted, hplaced, hover.placed, hover.executed] at heq

def Announced (s : NetworkSink) : Prop :=
  Log.Each (fun before m => m.buffer = none → s.executed.Sublist (before.filterMap (·.buffer)))
    s.placed

/-- When `stop` is called on a sink that is not closed, the overflow holds nothing that is
still to be placed. -/
def StopsDrained (s : NetworkSink) (a : Action) : Prop :=
  a = .stop → s.closed = false → s.unplaced = []

instance (s : NetworkSink) (a : Action) : Decidable (s.StopsDrained a) :=
  inferInstanceAs (Decidable (_ → _ → _))

def Accepted (s : NetworkSink) : Prop :=
  match s.phase with
  | .idle => s.closed = true ∨ s.executed.Sublist (s.placedData ++ s.unplaced)
  | .draining _ => s.executed.Sublist (s.placedData ++ s.unplaced)
  | .sending data again => s.buffer = [] ∧
    s.executed.Sublist (s.placedData ++ if again then [] else [data])
  | .flushing | .waiting _ | .terminating => s.executed.Sublist s.placedData
  | .stopped | .panicked => True

theorem Announced.of_data {s : NetworkSink} (h : ∀ m ∈ s.placed, m.buffer ≠ none) :
    s.Announced := by
  intro before m after heq hnone
  exact absurd hnone (h m (heq ▸ List.mem_append_right _ List.mem_cons_self))

theorem onlyData_concat {l : List ChannelControlMessage} (h : ∀ m ∈ l, m.buffer ≠ none)
    (b : TupleBuffer) : ∀ m ∈ l ++ [.data b], m.buffer ≠ none := by
  intro m hm
  rcases List.mem_append.mp hm with hm | hm
  · exact h m hm
  · obtain rfl := List.mem_singleton.mp hm
    exact nofun

theorem Announced.place {s : NetworkSink} (h : s.Announced)
    (executed : s.executed.Sublist s.placedData) (m : ChannelControlMessage) :
    (s.place m).Announced := Log.Each.concat h fun _ => executed

structure Stopping (s : NetworkSink) : Prop where
  accepted : s.Accepted
  announced : s.Announced
  onlyData : s.phase.pastFlush = false → ∀ m ∈ s.placed, m.buffer ≠ none
  repeated : s.repeated = true → s.buffer ≠ []

theorem Stopping.idle {s : NetworkSink} (h : s.Stopping) (phase : s.phase = .idle)
    (closed : s.closed = false) :
    s.executed.Sublist (s.placedData ++ s.unplaced) ∧ ∀ m ∈ s.placed, m.buffer ≠ none := by
  have haccepted := h.accepted
  simp only [Accepted, phase, closed, Bool.false_eq_true, false_or] at haccepted
  exact ⟨haccepted, h.onlyData (by rw [phase]; rfl)⟩

theorem Stopping.direct {s : NetworkSink} (h : s.Stopping) (phase : s.phase = .idle)
    (closed : s.closed = false) (buffer : s.buffer = []) : Stopping { s with
      executed := s.executed ++ [data], registered := true, phase := .sending data false } := by
  obtain ⟨hexecuted, hdata⟩ := h.idle phase closed
  have hunplaced : s.unplaced = [] := by
    unfold unplaced
    split <;> simp [buffer]
  rw [hunplaced, List.append_nil] at hexecuted
  exact ⟨⟨buffer, hexecuted.append (List.Sublist.refl _)⟩, .of_data hdata, fun _ => hdata,
    h.repeated⟩

theorem Stopping.queued {s : NetworkSink} (h : s.Stopping) (phase : s.phase = .idle)
    (closed : s.closed = false) : Stopping { s with
      executed := s.executed ++ [data], registered := true
      buffer := s.buffer ++ [data], phase := .draining data } := by
  obtain ⟨hexecuted, hdata⟩ := h.idle phase closed
  have hunplaced : (if s.repeated then (s.buffer ++ [data]).tail else s.buffer ++ [data]) =
      s.unplaced ++ [data] := by
    unfold unplaced
    split
    next hrepeated => exact List.tail_append_of_ne_nil (h.repeated hrepeated)
    next => rfl
  refine ⟨?_, .of_data hdata, fun _ => hdata, fun _ => by simp⟩
  have happend := hexecuted.append (List.Sublist.refl [data])
  rw [List.append_assoc, ← hunplaced] at happend
  exact happend

theorem Stopping.drain {s : NetworkSink} (h : s.Stopping) (phase : s.phase = .draining data)
    (buffer : s.buffer = front :: rest) : (s.drain data front rest).Stopping := by
  have hdata := h.onlyData (by rw [phase]; rfl)
  have hexecuted : s.executed.Sublist (s.placedData ++ s.unplaced) := by
    simpa only [Accepted, phase] using h.accepted
  unfold NetworkSink.drain
  split
  · exact ⟨.inr hexecuted, .of_data hdata, fun _ => hdata, h.repeated⟩
  · exact ⟨trivial, .of_data hdata, fun _ => hdata, nofun⟩
  · have hplaced := onlyData_concat hdata front
    have hrest : s.unplaced.Sublist (front :: rest) := by
      unfold unplaced
      rw [buffer]
      split
      · exact List.sublist_cons_self _ _
      · exact List.Sublist.refl _
    have hexecuted' : s.executed.Sublist ((s.place (.data front)).placedData ++ rest) := by
      rw [placedData_place, List.append_assoc]
      exact hexecuted.trans (hrest.append_left _)
    refine ⟨?_, .of_data hplaced, fun _ => hplaced, nofun⟩
    split
    next hnil =>
      subst hnil
      exact ⟨rfl, hexecuted'⟩
    next => exact hexecuted'

theorem Stopping.send {s : NetworkSink} (h : s.Stopping) (phase : s.phase = .sending data again) :
    (s.send data again).Stopping := by
  have hdata := h.onlyData (by rw [phase]; rfl)
  obtain ⟨hbuffer, hexecuted⟩ : s.buffer = [] ∧
      s.executed.Sublist (s.placedData ++ if again then [] else [data]) := by
    simpa only [Accepted, phase] using h.accepted
  unfold NetworkSink.send
  split
  · refine ⟨.inr ?_, .of_data hdata, fun _ => hdata, fun _ => by simp⟩
    simp only [unplaced, hbuffer]
    exact hexecuted
  · exact ⟨.inl rfl, .of_data hdata, fun _ => hdata, h.repeated⟩
  · have hplaced := onlyData_concat hdata data
    refine ⟨.inr ?_, .of_data hplaced, fun _ => hplaced, h.repeated⟩
    have hsend : s.executed.Sublist (s.place (.data data)).placedData := by
      rw [placedData_place]
      refine hexecuted.trans (List.Sublist.append_left ?_ _)
      split
      · exact List.nil_sublist _
      · exact List.Sublist.refl _
    exact hsend.trans (List.sublist_append_left _ _)

theorem Stopping.step {s t : NetworkSink} (h : s.Stopping) (hC : s.StopsDrained a)
    (hs : Step s a t) : t.Stopping := by
  cases hs with
  | ignored phase closed =>
    have hdata := h.onlyData (by rw [phase]; rfl)
    refine ⟨?_, .of_data hdata, fun _ => hdata, h.repeated⟩
    simp only [Accepted, phase]
    exact .inl closed
  | unregistered phase =>
    have hdata := h.onlyData (by rw [phase]; rfl)
    exact ⟨trivial, .of_data hdata, fun _ => hdata, h.repeated⟩
  | direct data phase closed buffer => exact h.direct phase closed buffer
  | queued data phase closed => exact h.queued phase closed
  | drain data front rest phase buffer => exact h.drain phase buffer
  | send data again phase => exact h.send phase
  | leave phase =>
    exact ⟨trivial, h.announced, nofun, h.repeated⟩
  | close phase closed =>
    obtain ⟨hexecuted, hdata⟩ := h.idle phase closed
    rw [hC rfl closed, List.append_nil] at hexecuted
    refine ⟨?_, h.announced, fun _ => hdata, h.repeated⟩
    split
    · exact hexecuted
    · trivial
  | flush phase =>
    have hexecuted : s.executed.Sublist s.placedData := by
      simpa only [Accepted, phase] using h.accepted
    have hplaced : s.executed.Sublist (s.place (.flush 0)).placedData := by
      rw [placedData_place]
      exact hexecuted.trans (List.sublist_append_left _ _)
    exact ⟨hplaced, h.announced.place hexecuted (.flush 0), nofun, h.repeated⟩
  | terminate phase =>
    have hexecuted : s.executed.Sublist s.placedData := by
      simpa only [Accepted, phase] using h.accepted
    exact ⟨trivial, h.announced.place hexecuted .terminate, nofun, h.repeated⟩
  | refused =>
    exact ⟨trivial, h.announced, nofun, h.repeated⟩
  | flushed ok taken | closeFlush taken =>
    have hexecuted : s.executed.Sublist s.placedData := by
      simpa only [Accepted, phase_of_taken taken] using h.accepted
    exact ⟨hexecuted, h.announced, nofun, h.repeated⟩
  | answered ok phase =>
    have hexecuted : s.executed.Sublist s.placedData := by
      simpa only [Accepted, phase] using h.accepted
    cases ok with
    | true => exact ⟨hexecuted, h.announced, nofun, h.repeated⟩
    | false => exact ⟨trivial, h.announced, nofun, h.repeated⟩
  | receive | closeControl => exact ⟨h.accepted, h.announced, h.onlyData, h.repeated⟩

theorem stop_keeps {s : NetworkSink} {close : Option Bool}
    (h : (machine close).Reaches StopsDrained s) {before after : List ChannelControlMessage}
    {m : ChannelControlMessage} (placed : s.placed = before ++ m :: after)
    (control : m.buffer = none) : s.executed.Sublist (before.filterMap (·.buffer)) := by
  have hstopping : s.Stopping := by
    clear placed
    induction h with
    | init => exact ⟨.inr (List.Sublist.refl _), Log.Each.nil, fun _ => nofun, nofun⟩
    | step _ hC hs ih => exact ih.step hC (step_sound hs)
  exact hstopping.announced before m after placed control

theorem stop_keeps_drained : ∃ s b, (machine none).Reaches StopsDrained s ∧
    s.placed = [.data b, .flush 0, .terminate] ∧ s.executed.Sublist [b] := by
  obtain ⟨s, hr, hplaced⟩ := Machine.exists_reaches_of_replay (M := machine none)
    (C := StopsDrained)
    (P := fun s => s.placed = [.data (exampleBuffer 1 []), .flush 0, .terminate])
    [.execute (exampleBuffer 1 []) true, .forward, .stop, .sendBlocking, .receive, .receive,
      .flushed true, .blockingRecv, .sendBlocking]
    (by decide)
  exact ⟨s, exampleBuffer 1 [], hr, hplaced,
    @stop_keeps s none hr [.data (exampleBuffer 1 [])] [.terminate] (.flush 0) hplaced rfl⟩

theorem stop_of_open {s : NetworkSink} (phase : s.phase = .idle) (closed : s.closed = false) :
    s.stop = some { s with phase := if s.registered then .flushing else .panicked } := by
  unfold stop
  rw [if_pos phase, closed]
  split <;> simp_all

/-- `stop` is called while the overflow holds a buffer. -/
theorem stop_leaves_overflow : ¬∀ (s : NetworkSink) (before after : List ChannelControlMessage)
    (m : ChannelControlMessage), (machine none).Reaches StaysOpen s →
    s.placed = before ++ m :: after → m.buffer = none →
    s.executed.Sublist (before.filterMap (·.buffer)) := by
  intro h
  obtain ⟨s, hr, hover⟩ := overflows none (exampleBuffer 1 [])
  obtain ⟨m₁, m₂, m₃, rest, hcontrol, hrest⟩ := hover.full
  have hreplay : ∃ t, (machine none).replay StaysOpen s [.stop, .receive, .sendBlocking] = some t ∧
      t.placed = s.placed ++ [.flush 0] ∧ t.executed = s.executed := by
    simp [Machine.replay, machine, step, stop_of_open hover.phase hover.closed, sendBlocking,
      receive, trySend, place, StaysOpen, hover.registered, hover.control, hover.served, hcontrol,
      hrest, Channel.queueLen]
  obtain ⟨t, ht, hplaced, hexecuted⟩ := hreplay
  have hopen := hr.mono (D := StaysOpen) fun _ _ hC => hC.1.1
  have hsublist := (h t s.placed [] (.flush 0) (hopen.replay ht) hplaced rfl).length_le
  rw [hexecuted, hover.executed] at hsublist
  have := hover.placed
  simp only [placedData] at this
  omega

end NetworkSink

end BdsPro.TestNode
