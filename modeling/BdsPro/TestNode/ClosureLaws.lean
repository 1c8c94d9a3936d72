import BdsPro.Library.Progress
import BdsPro.TestNode.NetworkSinkLaws

/-! What the sink does when its channel is closed by the other side, and when it is stopped. -/

namespace BdsPro.TestNode

open BdsPro.Library BdsPro.Network BdsPro.Network.Sender

namespace NetworkSink

def flushQueued (s : NetworkSink) : Bool := s.phase = .waiting none ∧ .flush 0 ∈ s.control

/-- No `unwrap` or `panic!` lies ahead: the channel can be registered, `stop` has one to take
or returns before, and the queue of a channel is not closed while `execute` has an overflow to
work off, unless the sink knows.  Nor is it closed upon the Flush of `stop`. -/
def guards (s : NetworkSink) : Action → Bool
  | .execute _ ok => ok && (s.closed || s.controlOpen || s.buffer.isEmpty)
  | .stop => s.closed || s.registered
  | .closeControl => !s.phase.isDraining && !s.flushQueued
  | _ => true

def Guarded (s : NetworkSink) (a : Action) : Prop := s.guards a = true

instance (s : NetworkSink) (a : Action) : Decidable (s.Guarded a) :=
  inferInstanceAs (Decidable (_ = true))

def own : Action → Bool
  | .forward | .sendBlocking | .blockingRecv => true
  | _ => false

def Own (_ : NetworkSink) (a : Action) : Prop := own a = true

def Returned (s : NetworkSink) : Prop := s.phase = .idle ∨ s.phase = .stopped

theorem execute_phase {s t : NetworkSink} (hs : s.execute data true = some t) :
    t.phase ≠ .panicked := by
  simp only [execute] at hs
  obtain ⟨hphase, hs⟩ := Option.ite_none_right_eq_some.mp hs
  split at hs
  · obtain rfl := Option.some.inj hs
    simp [hphase]
  · simp only [Bool.not_true, Bool.and_false, Bool.false_eq_true, if_false] at hs
    split at hs
    · obtain rfl := Option.some.inj hs
      simp
    · obtain rfl := Option.some.inj hs
      simp

theorem drain_phase {s : NetworkSink} (h : s.trySend ≠ .closed) (data front : TupleBuffer)
    (rest : List TupleBuffer) : (s.drain data front rest).phase ≠ .panicked := by
  unfold drain
  split
  · exact nofun
  · exact absurd ‹_› h
  · simp only
    split <;> exact nofun

theorem send_phase (s : NetworkSink) (data : TupleBuffer) (again : Bool) :
    (s.send data again).phase = .idle := by
  unfold send
  split <;> rfl

structure Unpanicked (s : NetworkSink) : Prop where
  phase : s.phase ≠ .panicked
  control : s.phase.isDraining = true → s.controlOpen = true
  overflow : s.phase.isDraining = true → s.buffer ≠ []

theorem drain_overflow (s : NetworkSink) (data front : TupleBuffer) (rest : List TupleBuffer)
    (h : (s.drain data front rest).phase.isDraining = true) :
    (s.drain data front rest).buffer ≠ [] := by
  unfold drain at h ⊢
  split at h
  · contradiction
  · contradiction
  · simp only at h ⊢
    split at h
    · contradiction
    · assumption

theorem Unpanicked.of_phase {s : NetworkSink} (hp : s.phase ≠ .panicked)
    (hd : s.phase.isDraining = false) : s.Unpanicked :=
  ⟨hp, fun h => by rw [hd] at h; contradiction, fun h => by rw [hd] at h; contradiction⟩

theorem Unpanicked.step {s t : NetworkSink} (h : s.Unpanicked) (hC : s.Guarded a)
    (hs : s.step a = some t) : t.Unpanicked := by
  cases step_sound hs with
  | ignored => exact ⟨h.phase, h.control, h.overflow⟩
  | @unregistered data ok =>
    cases ok with
    | true => exact absurd rfl (execute_phase hs)
    | false => contradiction
  | direct => exact .of_phase nofun rfl
  | @queued ok data phase closed buffer =>
    have hopen : s.controlOpen = true := by
      simpa [Guarded, guards, closed, buffer] using And.right (Bool.and_eq_true_iff.mp hC)
    exact ⟨nofun, fun _ => hopen, fun _ => by simp⟩
  | drain data front rest phase buffer =>
    have hopen := h.control (by rw [phase]; rfl)
    exact ⟨drain_phase (trySend_open hopen) data front rest,
      fun _ => (drain_frame s data front rest).1.trans hopen, drain_overflow s data front rest⟩
  | send data again =>
    have hidle := send_phase s data again
    exact .of_phase (by simp [hidle]) (by rw [hidle]; rfl)
  | leave | flush | terminate | refused => exact .of_phase nofun rfl
  | close phase closed =>
    have hregistered : s.registered = true := by
      simpa [Guarded, guards, closed] using hC
    rw [if_pos hregistered]
    exact .of_phase nofun rfl
  | flushed | closeFlush => exact .of_phase nofun rfl
  | answered ok =>
    cases ok with
    | true => exact .of_phase nofun rfl
    | false => exact .of_phase nofun rfl
  | receive => exact ⟨h.phase, h.control, h.overflow⟩
  | closeControl =>
    obtain ⟨hdraining, -⟩ : s.phase.isDraining = false ∧ s.flushQueued = false := by
      simpa [Guarded, guards] using hC
    exact .of_phase h.phase hdraining

theorem unpanicked_of_reaches {s : NetworkSink} {close : Option Bool}
    (h : (machine close).Reaches Guarded s) : s.Unpanicked := by
  refine h.invariant (I := Unpanicked) (.of_phase nofun rfl) ?_
  exact fun s a t _ ih hC hs => ih.step hC hs

def Answered (s : NetworkSink) : Prop := s.controlOpen = false → s.phase ≠ .waiting none

theorem drain_waiting (s : NetworkSink) (data front : TupleBuffer) (rest : List TupleBuffer) :
    (s.drain data front rest).phase ≠ .waiting answer := by
  unfold drain
  split
  · exact nofun
  · exact nofun
  · simp only
    split <;> exact nofun

theorem open_of_sent {s : NetworkSink} (sent : s.trySend = .ok) : s.controlOpen = true := by
  by_contra hclosed
  simp [trySend, hclosed] at sent

theorem Answered.step {s t : NetworkSink} (h : s.Answered) (hC : s.Guarded a) (hs : Step s a t) :
    t.Answered := by
  cases hs with
  | ignored | receive => exact h
  | unregistered | direct | queued | leave | terminate | refused | flushed | closeFlush =>
    exact fun _ => nofun
  | drain data front rest => exact fun _ => drain_waiting s data front rest
  | send data again => exact fun _ => by simp [send_phase s data again]
  | close =>
    intro _
    simp only
    split <;> exact nofun
  | flush _ sent =>
    intro hclosed
    exact absurd ((open_of_sent sent).symm.trans hclosed) nofun
  | answered ok =>
    intro _
    simp only
    split <;> exact nofun
  | closeControl untaken =>
    obtain ⟨-, hqueued⟩ : s.phase.isDraining = false ∧ s.flushQueued = false := by
      simpa [Guarded, guards] using hC
    intro _ (hphase : s.phase = .waiting none)
    have hleft : .flush 0 ∈ s.control := by simpa [flushTaken, hphase] using untaken
    simp [flushQueued, hphase, hleft] at hqueued

theorem answered_of_reaches {s : NetworkSink} {close : Option Bool}
    (h : (machine close).Reaches Guarded s) : s.Answered := by
  refine h.invariant (I := Answered) (fun _ => nofun) ?_
  exact fun s a t _ ih hC hs => ih.step hC (step_sound hs)

theorem trySend_closed {s : NetworkSink} (control : s.controlOpen = false) :
    s.trySend = .closed := by
  simp [trySend, control]

theorem sendBlocking_closed {s t : NetworkSink} (control : s.controlOpen = false)
    (hs : s.sendBlocking = some t) :
    t.phase = .stopped ∧ t.placed = s.placed ∧ t.buffer = s.buffer := by
  simp only [sendBlocking, trySend_closed control] at hs
  split at hs
  · contradiction
  · contradiction
  · obtain rfl := Option.some.inj hs
    exact ⟨rfl, rfl, rfl⟩
  · obtain rfl := Option.some.inj hs
    exact ⟨rfl, rfl, rfl⟩
  · contradiction

theorem closed_frame {s t : NetworkSink} (h : s.Unpanicked) (control : s.controlOpen = false)
    (hC : s.Guarded a) (hs : s.step a = some t) : t.placed = s.placed ∧ t.buffer = s.buffer := by
  cases step_sound hs with
  | @queued ok data phase closed buffer =>
    simp [Guarded, guards, closed, buffer, control] at hC
  | drain data front rest phase =>
    rw [h.control (by rw [phase]; rfl)] at control
    contradiction
  | send data again =>
    simp only [send, trySend_closed control, and_self]
  | flush | terminate | refused => exact (sendBlocking_closed control hs).2
  | ignored | unregistered | direct | leave | close | flushed | answered | receive | closeControl
  | closeFlush => exact ⟨rfl, rfl⟩

def stepsLeft (s : NetworkSink) : Nat :=
  match s.phase with
  | .waiting _ => 2
  | .sending _ _ | .flushing | .terminating => 1
  | _ => 0

structure Closing (s : NetworkSink) : Prop where
  unpanicked : s.Unpanicked
  answered : s.Answered
  control : s.controlOpen = false
  running : ¬s.Returned

theorem Closing.enabled {s : NetworkSink} (h : s.Closing) :
    ∃ a t, s.Own a ∧ s.step a = some t := by
  have hclosed := trySend_closed h.control
  cases hp : s.phase with
  | idle => exact absurd (.inl hp) h.running
  | stopped => exact absurd (.inr hp) h.running
  | panicked => exact absurd hp h.unpanicked.phase
  | draining data =>
    have hopen := h.unpanicked.control (by rw [hp]; rfl)
    rw [h.control] at hopen
    contradiction
  | sending data again => exact ⟨.forward, _, rfl, by simp only [step, forward, hp]; rfl⟩
  | waiting answer =>
    cases answer with
    | none => exact absurd hp (h.answered h.control)
    | some ok => exact ⟨.blockingRecv, _, rfl, by simp only [step, blockingRecv, hp]; rfl⟩
  | flushing | terminating =>
    exact ⟨.sendBlocking, _, rfl, by simp only [step, sendBlocking, hp, hclosed]; rfl⟩

theorem Closing.step {s t : NetworkSink} (h : s.Closing) (ha : s.Own a)
    (hs : s.step a = some t) : t.Returned ∨ t.Closing ∧ t.stepsLeft < s.stepsLeft := by
  cases step_sound hs with
  | drain data front rest phase =>
    have hopen := h.unpanicked.control (by rw [phase]; rfl)
    rw [h.control] at hopen
    contradiction
  | send data again => exact .inl (.inl (send_phase s data again))
  | flush | terminate | refused =>
    exact .inl (.inr (sendBlocking_closed h.control hs).1)
  | answered ok phase =>
    cases ok with
    | false => exact .inl (.inr rfl)
    | true =>
      have hC : s.Guarded .blockingRecv := rfl
      have hreturned : ¬Returned { s with phase := .terminating } := by simp [Returned]
      refine .inr ⟨⟨h.unpanicked.step hC hs, fun _ => nofun, h.control, hreturned⟩, ?_⟩
      simp [stepsLeft, phase]
  | ignored | unregistered | direct | queued | leave | close | flushed | receive | closeControl
  | closeFlush => contradiction

theorem returns {s : NetworkSink} (close : Option Bool) (h : s.Unpanicked) (answered : s.Answered)
    (control : s.controlOpen = false) : (machine close).Inevitably Own Returned s := by
  by_cases hreturned : s.Returned
  · exact .now hreturned
  · have hclosing : s.Closing := ⟨h, answered, control, hreturned⟩
    exact .of_variant (I := Closing) stepsLeft (fun _ hi => hi.enabled)
      (fun _ _ _ hi ha hs => hi.step ha hs) hclosing

theorem never_panics {s : NetworkSink} {close : Option Bool}
    (h : (machine close).Reaches Guarded s) :
    s.phase ≠ .panicked ∧ (s.controlOpen = false →
      (∀ a t, s.Guarded a → s.step a = some t → t.placed = s.placed ∧ t.buffer = s.buffer) ∧
      (machine close).Inevitably Own Returned s) := by
  have hunpanicked := unpanicked_of_reaches h
  refine ⟨hunpanicked.phase, fun control => ⟨fun a t hC hs => ?_, ?_⟩⟩
  · exact closed_frame hunpanicked control hC hs
  · exact returns close hunpanicked (answered_of_reaches h) control

/-- The Flush that `stop` waits for lies in a queue without a Receiver. -/
structure Stranded (s : NetworkSink) : Prop where
  phase : s.phase = .waiting none
  flush : .flush 0 ∈ s.control
  served : s.served = false

theorem Stranded.step {s t : NetworkSink} (h : s.Stranded) (hs : Step s a t) : t.Stranded := by
  have hphase {p : SinkPhase} (phase : s.phase = p) : p = .waiting none := phase.symm.trans h.phase
  cases hs with
  | ignored phase | unregistered phase | direct _ phase | queued _ phase | drain _ _ _ phase
  | send _ _ phase | leave phase | close phase | flush phase | terminate phase | answered _ phase =>
    exact absurd (hphase phase) (by simp)
  | refused phase =>
    obtain phase | phase := phase
    · exact absurd (hphase phase) (by simp)
    · exact absurd (hphase phase) (by simp)
  | flushed ok taken => exact absurd h.flush (of_decide_eq_true taken).2
  | closeFlush taken => exact absurd h.flush (of_decide_eq_true taken).2
  | receive m rest served => exact absurd (served.symm.trans h.served) (by simp)
  | closeControl => exact ⟨h.phase, h.flush, rfl⟩

theorem Stranded.never_returns {s : NetworkSink} (h : s.Stranded) (close : Option Bool) :
    (machine close).Always (fun _ _ => True) (fun t => ¬t.Returned) s := by
  intro t ht
  have hstranded : t.Stranded :=
    ht.invariant (I := Stranded) h fun _ _ _ _ ih _ hs => ih.step (step_sound hs)
  simp [Returned, hstranded.phase]

theorem unguarded_fails {s t : NetworkSink} {close : Option Bool}
    (h : (machine close).Reaches Guarded s) (registered : s.Registers a) (unguarded : ¬s.Guarded a)
    (hs : s.step a = some t) :
    t.phase = .panicked ∨ (∃ u, t.step .forward = some u ∧ u.phase = .panicked) ∨
      (machine close).Always (fun _ _ => True) (fun u => ¬u.Returned) t := by
  have hforward {u : NetworkSink} {data : TupleBuffer} (control : u.controlOpen = false)
      (phase : u.phase = .draining data) (buffer : u.buffer ≠ []) :
      ∃ v, u.step .forward = some v ∧ v.phase = .panicked := by
    obtain ⟨front, rest, hbuffer⟩ := List.exists_cons_of_ne_nil buffer
    refine ⟨u.drain data front rest, by simp only [step, forward, phase, hbuffer], ?_⟩
    simp only [drain, trySend_closed control]
  have hunguarded := Bool.eq_false_iff.mpr unguarded
  cases step_sound hs with
  | @queued ok data phase closed buffer =>
    have hok : ok = true := registered
    have hcontrol : s.controlOpen = false := by
      simpa [guards, closed, buffer, hok] using hunguarded
    exact .inr (.inl (hforward hcontrol rfl (by simp)))
  | unregistered => exact .inl rfl
  | close phase closed =>
    have hregistered : s.registered = false := by simpa [guards, closed] using hunguarded
    exact .inl (by simp [hregistered])
  | closeControl =>
    by_cases hqueued : s.flushQueued = true
    · obtain ⟨hphase, hflush⟩ := of_decide_eq_true hqueued
      have hstranded : Stranded { s with controlOpen := false, served := false } :=
        ⟨hphase, hflush, rfl⟩
      exact .inr (.inr (hstranded.never_returns close))
    · have hdraining : s.phase.isDraining = true := by simpa [guards, hqueued] using hunguarded
      cases hp : s.phase with
      | draining data =>
        have hoverflow := (unpanicked_of_reaches h).overflow hdraining
        exact .inr (.inl (hforward rfl rfl hoverflow))
      | idle | sending | flushing | waiting | terminating | stopped | panicked =>
        rw [hp] at hdraining
        contradiction
  | closeFlush taken =>
    obtain ⟨hphase, hflush⟩ := of_decide_eq_true taken
    simp [guards, flushQueued, hphase, hflush, SinkPhase.isDraining] at hunguarded
  | @ignored data ok phase closed =>
    have hok : ok = true := registered
    simp [guards, closed, hok] at hunguarded
  | @direct ok data phase closed buffer =>
    have hok : ok = true := registered
    simp [guards, buffer, hok] at hunguarded
  | leave phase =>
    obtain ⟨hclosed, hregistered⟩ : s.closed = false ∧ s.registered = false := by
      simpa [guards] using hunguarded
    have hstop := stop_of_open phase hclosed
    rw [hregistered] at hstop
    exact .inl (congrArg NetworkSink.phase (Option.some.inj (hs.symm.trans hstop)))
  | drain | send | flush | terminate | refused | flushed | answered | receive =>
    exact absurd rfl unguarded

theorem never_panics_closed :
    ∃ s, (machine none).Reaches Guarded s ∧ s.controlOpen = false ∧
      s.executed.length = 2 ∧ s.phase ≠ .panicked ∧ (machine none).Inevitably Own Returned s := by
  obtain ⟨s, hr, hcontrol, hexecuted⟩ := Machine.exists_reaches_of_replay (M := machine none)
    (C := Guarded) (P := fun s => s.controlOpen = false ∧ s.executed.length = 2)
    [.execute (exampleBuffer 1 []) true, .forward, .closeControl,
      .execute (exampleBuffer 2 []) true] (by decide)
  obtain ⟨hphase, hclosed⟩ := never_panics hr
  exact ⟨s, hr, hcontrol, hexecuted, hphase, (hclosed hcontrol).2⟩

/-- The channel is closed while the overflow holds a buffer, and another one is executed. -/
theorem closed_under_congestion_panics :
    ¬∀ s, (machine none).Reaches Registers s → s.phase ≠ .panicked := by
  intro h
  obtain ⟨s, hr, hover⟩ := overflows none (exampleBuffer 1 [])
  have hreplay : ∃ t, (machine none).replay Registers s
      [.closeControl, .execute (exampleBuffer 2 []) true, .forward] = some t ∧
      t.phase = .panicked := by
    simp [Machine.replay, machine, step, execute, forward, drain, trySend, closeControl, flushTaken,
      Registers, registers, hover.phase, hover.closed, hover.registered, hover.buffer]
  obtain ⟨t, ht, hphase⟩ := hreplay
  have hregisters := hr.mono (D := Registers) fun _ _ hC => hC.2
  exact h t (hregisters.replay ht) hphase

/-- The channel is closed while the Flush of `stop` is in the control queue. -/
theorem closed_upon_flush_waits : ∃ s, (machine none).Reaches Registers s ∧
    s.controlOpen = false ∧ (machine none).Always (fun _ _ => True) (fun t => ¬t.Returned) s := by
  obtain ⟨s, hr, hcontrol, hphase, hflush, hserved⟩ := Machine.exists_reaches_of_replay
    (M := machine none) (C := Registers) (P := fun s => s.controlOpen = false ∧
      s.phase = .waiting none ∧ .flush 0 ∈ s.control ∧ s.served = false)
    [.execute (exampleBuffer 1 []) true, .forward, .receive, .stop, .sendBlocking, .closeControl]
    (by decide)
  exact ⟨s, hr, hcontrol, Stranded.never_returns ⟨hphase, hflush, hserved⟩ none⟩

/-- A sink that never executed a buffer is stopped. -/
theorem unused_stop_panics :
    ∃ s, (machine none).Reaches Registers s ∧ s.executed = [] ∧ s.phase = .panicked :=
  Machine.exists_reaches_of_replay [.stop] (by decide)

end NetworkSink

end BdsPro.TestNode
