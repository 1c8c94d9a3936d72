import BdsPro.Library.Fifo
import BdsPro.TestNode.Engine

namespace BdsPro.TestNode.QueryEngine

open BdsPro.Library BdsPro.Network

def made (e : QueryEngine) : Action → Option Task
  | .emit i buffer => e.sourceTask i buffer
  | .contextEmit data => e.contextTask data
  | _ => none

/-- Every task that is made finds room in the queue, and no pipeline panics. -/
def Roomy (e : QueryEngine) (a : Action) : Prop :=
  ((e.made a).isSome → e.queue.length < queueLen) ∧ a ≠ .abort

instance (e : QueryEngine) (a : Action) : Decidable (e.Roomy a) :=
  inferInstanceAs (Decidable (_ ∧ _))

inductive Step (e : QueryEngine) : Action → QueryEngine → Prop
  | startQuery (query : List Node) : Step e (.startQuery query) (e.startQuery query)
  | stopQuery (id : Nat) : Step e (.stopQuery id) (e.stopQuery id)
  | push (task : Task) (made : e.made a = some task) : Step e a (e.push task)
  | ignore (made : e.made (.contextEmit data) = none) : Step e (.contextEmit data) e
  | pop (task : Task) (rest : List Task) (worker : e.worker = .polling)
      (queue : e.queue = task :: rest) :
    Step e .pop { e with queue := rest, worker := .executing task }
  | finish (task : Task) (worker : e.worker = .executing task) :
    Step e .finish { e with worker := .polling, executed := e.executed ++ [task] }
  | abort (task : Task) (worker : e.worker = .executing task) :
    Step e .abort { e with worker := .ended }

theorem step_sound {e f : QueryEngine} (hs : e.step a = some f) : Step e a f := by
  cases a with
  | startQuery query => exact Option.some.inj hs ▸ .startQuery query
  | stopQuery id => exact Option.some.inj hs ▸ .stopQuery id
  | emit i buffer =>
    obtain ⟨task, htask, rfl⟩ := Option.map_eq_some_iff.mp hs
    exact .push task htask
  | contextEmit data =>
    simp only [step, contextEmit] at hs
    split at hs
    next =>
      obtain rfl := Option.some.inj hs
      cases hmade : e.contextTask data with
      | none => exact .ignore hmade
      | some task => exact .push task hmade
    next => contradiction
  | pop =>
    simp only [step, pop] at hs
    split at hs
    next task rest hworker hqueue => exact Option.some.inj hs ▸ .pop task rest hworker hqueue
    next => contradiction
  | finish =>
    simp only [step, finish] at hs
    split at hs
    next task hworker => exact Option.some.inj hs ▸ .finish task hworker
    next => contradiction
  | abort =>
    simp only [step, abort] at hs
    split at hs
    next task hworker => exact Option.some.inj hs ▸ .abort task hworker
    next => contradiction

def Lossless (e : QueryEngine) : Prop :=
  Fifo e.emitted e.executed (e.worker.running ++ e.queue)

theorem Lossless.push {e : QueryEngine} (h : e.Lossless) (room : e.queue.length < queueLen)
    (task : Task) : (e.push task).Lossless := by
  have henter := Fifo.enter h task
  rw [List.append_assoc] at henter
  simp only [Lossless, QueryEngine.push, if_pos room]
  exact henter

theorem Lossless.step {e f : QueryEngine} (h : e.Lossless) (hC : e.Roomy a) (hs : Step e a f) :
    f.Lossless := by
  cases hs with
  | startQuery | stopQuery | ignore => exact h
  | push task made => exact h.push (hC.1 (by simp [made])) task
  | pop task rest worker queue =>
    simp only [Lossless, worker, queue] at h ⊢
    exact h
  | finish task worker =>
    simp only [Lossless, worker] at h ⊢
    exact Fifo.leave h
  | abort => exact absurd rfl hC.2

theorem lossless {e : QueryEngine} (h : machine.Reaches Roomy e) : e.Lossless := by
  induction h with
  | init => exact Fifo.empty
  | step _ hC hs ih => exact ih.step hC (step_sound hs)

theorem executed_sublist {e : QueryEngine} (h : machine.Reachable e) :
    (e.executed ++ (e.worker.running ++ e.queue)).Sublist e.emitted := by
  refine h.invariant (I := fun e =>
    (e.executed ++ (e.worker.running ++ e.queue)).Sublist e.emitted) (List.Sublist.refl _) ?_
  intro e a f _ ih _ hs
  cases step_sound hs with
  | startQuery | stopQuery | ignore => exact ih
  | push task =>
    simp only [push]
    split
    next =>
      rw [← List.append_assoc, ← List.append_assoc, List.append_assoc e.executed]
      exact ih.append (List.Sublist.refl _)
    next => exact ih.trans (List.sublist_append_left _ _)
  | pop task rest worker queue =>
    simpa [worker, queue, Worker.running] using ih
  | finish task worker =>
    simpa [worker, Worker.running] using ih
  | abort task worker =>
    refine List.Sublist.trans ?_ ih
    exact (List.Sublist.refl _).append (List.sublist_append_right _ _)

theorem not_ended {e : QueryEngine} (h : machine.Reaches Roomy e) : e.worker ≠ .ended := by
  induction h with
  | init => exact nofun
  | step _ hC hs ih =>
    cases step_sound hs with
    | abort => exact absurd rfl hC.2
    | pop | finish => exact nofun
    | _ => exact ih

theorem worker_enabled {e : QueryEngine} (h : machine.Reaches Roomy e)
    (hne : e.executed ≠ e.emitted) : (e.step .pop).isSome ∨ (e.step .finish).isSome := by
  have hl := lossless h
  cases hworker : e.worker with
  | executing task => exact .inr (by simp [step, finish, hworker])
  | ended => exact absurd hworker (not_ended h)
  | polling =>
    cases hqueue : e.queue with
    | nil =>
      rw [Lossless, hworker, hqueue] at hl
      exact absurd (hl.trans (List.append_nil _)).symm hne
    | cons task rest => exact .inl (by simp [step, pop, hworker, hqueue])

theorem Step.counts {e f : QueryEngine} (hs : Step e a f) :
    e.emitted <+: f.emitted ∧
      f.executed.length = e.executed.length + if a = .finish then 1 else 0 := by
  cases hs with
  | push task made =>
    refine ⟨List.prefix_append _ _, ?_⟩
    rw [if_neg]
    · rfl
    · rintro rfl
      contradiction
  | finish task worker => exact ⟨List.prefix_rfl, by simp⟩
  | startQuery | stopQuery => exact ⟨List.prefix_rfl, rfl⟩
  | _ => exact ⟨List.prefix_rfl, by simp⟩

theorem counts_of_replay {e f : QueryEngine} {as : List Action}
    (h : machine.replay Roomy e as = some f) :
    e.emitted <+: f.emitted ∧ f.executed.length = e.executed.length + as.count .finish := by
  induction as generalizing e with
  | nil =>
    obtain rfl := Option.some.inj h
    exact ⟨List.prefix_rfl, rfl⟩
  | cons a as ih =>
    obtain ⟨-, e', hstep, hrest⟩ := Machine.replay_cons h
    obtain ⟨hemitted, hlength⟩ := (step_sound hstep).counts
    obtain ⟨hemitted', hlength'⟩ := ih hrest
    refine ⟨hemitted.trans hemitted', ?_⟩
    rw [hlength', hlength, List.count_cons, Nat.add_assoc, Nat.add_comm (List.count _ _)]
    congr 1
    simp

/-- Every task that was made is executed once, those of a source in the order in which it has
made them: the worker always goes on, and after as many returns of pipelines as there were
tasks left, all of these have been executed, whatever is emitted in the meantime. -/
theorem emitted_executed {e : QueryEngine} (h : machine.Reaches Roomy e) :
    Fifo e.emitted e.executed (e.worker.running ++ e.queue) ∧
    (∀ i, Fifo (e.emitted.filter (·.source = some i)) (e.executed.filter (·.source = some i))
      ((e.worker.running ++ e.queue).filter (·.source = some i))) ∧
    (e.executed ≠ e.emitted → (e.step .pop).isSome ∨ (e.step .finish).isSome) ∧
    ∀ (as : List Action) (f : QueryEngine), machine.replay Roomy e as = some f →
      e.emitted.length ≤ e.executed.length + as.count .finish → e.emitted <+: f.executed := by
  refine ⟨lossless h, fun i => (lossless h).filter _, worker_enabled h, ?_⟩
  intro as f hreplay hcount
  obtain ⟨hemitted, hlength⟩ := counts_of_replay hreplay
  exact (lossless (h.replay hreplay)).covers hemitted (hlength ▸ hcount)

theorem emitted_executed_two_nodes : ∃ e f, machine.Reaches Roomy e ∧ e.emitted.length = 3 ∧
    machine.replay Roomy e [.finish, .pop, .finish, .pop, .finish] = some f ∧
    e.emitted <+: f.executed := by
  obtain ⟨e, hr, hlength, hexecuted, hsome⟩ :=
    Machine.exists_reaches_of_replay (M := machine) (C := Roomy)
      (P := fun e => e.emitted.length = 3 ∧ e.executed.length = 0 ∧
        (machine.replay Roomy e [.finish, .pop, .finish, .pop, .finish]).isSome)
      [.startQuery [.before 0 (.last 1)], .emit 0 (exampleBuffer 1 []), .pop,
        .emit 0 (exampleBuffer 2 []), .contextEmit (exampleBuffer 3 [])]
      (by decide)
  obtain ⟨f, hf⟩ := Option.isSome_iff_exists.mp hsome
  refine ⟨e, f, hr, hlength, hf, (emitted_executed hr).2.2.2 _ f hf ?_⟩
  rw [hlength, hexecuted]
  decide

theorem queue_bounded {e : QueryEngine} (h : machine.Reaches C e) :
    e.queue.length ≤ queueLen := by
  induction h with
  | init => exact Nat.zero_le _
  | step _ _ hs ih =>
    cases step_sound hs with
    | push task =>
      simp only [push]
      split
      next hroom =>
        rw [List.length_append]
        exact hroom
      next => exact ih
    | pop task rest _ queue =>
      rw [queue] at ih
      exact Nat.le_of_succ_le ih
    | _ => exact ih

theorem emits (n : Nat) : ∃ e, machine.Reachable e ∧ e.worker = .polling ∧
    e.emitFns = [(0, .last 0)] ∧ e.executed = [] ∧ e.emitted.length = n := by
  induction n with
  | zero =>
    exact ⟨default.startQuery [.last 0], .step (a := .startQuery [.last 0]) .init trivial rfl,
      rfl, rfl, rfl, rfl⟩
  | succ n ih =>
    obtain ⟨e, hr, hworker, hfns, hexecuted, hlength⟩ := ih
    have hstep : machine.step e (.emit 0 (exampleBuffer n [])) =
        some (e.push ⟨0, exampleBuffer n [], .last 0, some 0⟩) := by
      simp [machine, step, emit, sourceTask, hfns]
    refine ⟨_, .step hr trivial hstep, hworker, hfns, hexecuted, ?_⟩
    simp [push, hlength]

/-- A source emits 1025 buffers while the worker takes none. -/
theorem fast_source_loses : ¬∀ e, machine.Reachable e →
    Fifo e.emitted e.executed (e.worker.running ++ e.queue) := by
  intro h
  obtain ⟨e, hr, hworker, -, hexecuted, hlength⟩ := emits (queueLen + 1)
  have heq : e.emitted = e.queue := by
    have := h e hr
    rwa [hworker, hexecuted] at this
  have hbound := queue_bounded hr
  rw [← heq, hlength] at hbound
  exact absurd hbound (Nat.not_succ_le_self _)

end BdsPro.TestNode.QueryEngine
