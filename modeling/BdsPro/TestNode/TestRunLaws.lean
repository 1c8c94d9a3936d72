import BdsPro.TestNode.PipelineLaws
import BdsPro.TestNode.PrintSinkLaws
import BdsPro.TestNode.TestRun

namespace BdsPro.TestNode

open BdsPro.Library BdsPro.Network

namespace GeneratorSource

theorem of_emitted (h : emitted n = some b) :
    b.sequenceNumber = n + 1 ∧ verifyTupleBuffer b = some true := by
  obtain ⟨children, hchildren, h⟩ := Option.bind_eq_some_iff.mp h
  obtain ⟨next, hnext, rfl⟩ := Option.map_eq_some_iff.mp h
  obtain ⟨-, rfl⟩ := Checked.of_add_eq_some hnext
  refine ⟨rfl, ?_⟩
  rw [verifyTupleBuffer_eq rfl hchildren, (childrenMatch_iff _ _).mpr rfl, Bool.and_true,
    decide_eq_true rfl]

theorem emitted_overflows : emitted (3 * 2 ^ 60 + 2) = none := by decide

end GeneratorSource

theorem PrintSink.errors_of_executeAll {s t : PrintSink} {l : List TupleBuffer}
    (valid : ∀ b ∈ l, verifyTupleBuffer b = some true) (h : s.executeAll l = some t) :
    t.errors = s.errors := by
  induction l generalizing s with
  | nil =>
    obtain rfl := Option.some.inj h
    rfl
  | cons b l ih =>
    rw [executeAll, List.foldlM_cons, execute, valid b List.mem_cons_self, Option.bind_some] at h
    obtain ⟨s', hs', h⟩ := Option.bind_eq_some_iff.mp h
    obtain ⟨tracker, -, rfl⟩ := Option.map_eq_some_iff.mp hs'
    exact (ih (fun b hb => valid b (List.mem_cons_of_mem _ hb)) h).trans (List.append_nil _)

namespace Pipeline

variable {w : Wiring} {p q : Pipeline}

def fed (w : Wiring) (p : Pipeline) (a : Action) : Option TupleBuffer :=
  (((upstreamAction a).bind p.upstream.made).filter (·.node = w.node)).map Task.input

theorem emitted_of_step (hs : p.step w a = some q) :
    inputs w q.upstream.emitted = inputs w p.upstream.emitted ++ (p.fed w a).toList := by
  obtain ⟨-, hupstream, -⟩ := step_eq_some hs
  obtain ⟨haction, hsame⟩ | ⟨b, haction, hupstream⟩ := Machine.follow_cases hupstream
  · rw [fed, haction, hsame]
    exact (List.append_nil _).symm
  · obtain ⟨e, he, hstep⟩ : ∃ e, q.upstream = e ∧ QueryEngine.Step p.upstream b e :=
      ⟨_, rfl, QueryEngine.step_sound hupstream⟩
    rw [fed, haction, he]
    cases hstep with
    | push task made =>
      rw [QueryEngine.push, inputs_append, Option.bind_some, made]
      by_cases hnode : task.node = w.node
      · simp [inputs, hnode, Option.filter]
      · simp [inputs, hnode, Option.filter]
    | ignore made =>
      rw [Option.bind_some, made]
      exact (List.append_nil _).symm
    | _ => exact (List.append_nil _).symm

end Pipeline

namespace TestRun

open Pipeline (inputs outputs exampleWiring)

variable {w : Wiring} {x y : TestRun}

theorem feeds_eq (p : Pipeline) (a : Pipeline.Action) :
    feeds w p a = (p.fed w a).isSome := by
  rw [Pipeline.fed, Option.isSome_map, Option.isSome_filter]
  cases a with
  | upstream b => cases b <;> rfl
  | _ => rfl

inductive Step (w : Wiring) (x : TestRun) : Action → TestRun → Prop
  | stop : Step w x .stop { x with generator := x.generator.stop }
  | thread (g : GeneratorSource) (emission : x.generator.emission = none)
      (counter : g.counter = x.generator.counter) : Step w x (.run i) { x with generator := g }
  | emit (b : TupleBuffer) (g : GeneratorSource) (p : Pipeline)
      (emission : x.generator.emission = some b)
      (emitted : GeneratorSource.emitted x.generator.counter = some b)
      (counter : g.counter = x.generator.counter + 1)
      (feeds : feeds w x.pipeline (.upstream (.emit i b)) = true)
      (step : x.pipeline.step w (.upstream (.emit i b)) = some p) : Step w x (.run i) ⟨g, p⟩
  | pipeline (p : Pipeline) (feeds : feeds w x.pipeline a = false)
      (step : x.pipeline.step w a = some p) : Step w x (.pipeline a) { x with pipeline := p }

theorem step_sound (hs : x.step w a = some y) : Step w x a y := by
  obtain ⟨permits, hs⟩ := Option.ite_none_right_eq_some.mp hs
  obtain ⟨g, hg, hs⟩ := Option.bind_eq_some_iff.mp hs
  obtain ⟨p, hp, hs⟩ := Option.bind_eq_some_iff.mp hs
  obtain rfl := Option.some.inj hs
  cases a with
  | stop =>
    obtain rfl := Option.some.inj hg
    obtain rfl := Option.some.inj hp
    exact .stop
  | pipeline a =>
    obtain rfl := Option.some.inj hg
    exact .pipeline p (by simpa [TestRun.permits] using permits) hp
  | run i =>
    have hg : x.generator.run = some g := hg
    simp only [TestRun.permits] at permits
    simp only [pipelineAction] at hp permits
    cases he : x.generator.emission with
    | none =>
      rw [he] at hp
      obtain rfl := Option.some.inj hp
      refine .thread g he ?_
      simp only [GeneratorSource.run] at hg
      split at hg
      next => exact Option.some.inj hg ▸ rfl
      next hphase =>
        rw [GeneratorSource.emission, hphase] at he
        obtain ⟨b, hb, -⟩ := Option.map_eq_some_iff.mp hg
        exact absurd (he.symm.trans hb) nofun
      next => exact Option.some.inj hg ▸ rfl
      next => contradiction
    | some b =>
      rw [he] at hp permits
      have hemitted : GeneratorSource.emitted x.generator.counter = some b ∧
          x.generator.phase = .emitting := by
        unfold GeneratorSource.emission at he
        split at he
        next hphase => exact ⟨he, hphase⟩
        next => contradiction
      rw [GeneratorSource.run, hemitted.2] at hg
      obtain ⟨-, -, rfl⟩ := Option.map_eq_some_iff.mp hg
      exact .emit b _ p he hemitted.1 rfl permits hp

def pipelinePart (w : Wiring) : Machine.Part (Pipeline.machine w) (machine w) where
  state := pipeline
  action := pipelineAction
  init := rfl
  step {x a y} hs := by
    cases step_sound hs with
    | stop | pipeline => first | rfl | assumption
    | thread g emission counter => rw [pipelineAction, emission]; rfl
    | emit b g p emission emitted counter feeds step => rw [pipelineAction, emission]; exact step

def Counted (w : Wiring) (x : TestRun) : Prop :=
  (inputs w x.pipeline.upstream.emitted).map some =
    (List.range x.generator.counter).map GeneratorSource.emitted

theorem fed_of_feeds (h : feeds w p a = false) : p.fed w a = none := by
  rwa [feeds_eq, Option.isSome_eq_false_iff, Option.isNone_iff_eq_none] at h

theorem fed_of_emit (h : feeds w p (.upstream (.emit i b)) = true) :
    p.fed w (.upstream (.emit i b)) = some b := by
  obtain ⟨d, hd⟩ := Option.isSome_iff_exists.mp (feeds_eq p _ ▸ h)
  obtain ⟨task, htask, rfl⟩ := Option.map_eq_some_iff.mp hd
  obtain ⟨hmade, -⟩ := Option.filter_eq_some_iff.mp htask
  obtain ⟨⟨id, n⟩, -, rfl⟩ := Option.map_eq_some_iff.mp hmade
  exact hd

theorem Counted.step (h : Counted w x) (hs : Step w x a y) : Counted w y := by
  cases hs with
  | stop => exact h
  | thread g emission counter =>
    rw [Counted, counter]
    exact h
  | emit b g p emission emitted counter feeds step =>
    rw [Counted, counter, Pipeline.emitted_of_step step, fed_of_emit feeds, List.map_append, h,
      List.range_succ, List.map_append, List.map_singleton, emitted]
    rfl
  | pipeline p feeds step =>
    rw [Counted, Pipeline.emitted_of_step step, fed_of_feeds feeds, Option.toList_none,
      List.append_nil]
    exact h

theorem counted_of_reaches {C : TestRun → Action → Prop} (h : (machine w).Reaches C x) :
    Counted w x :=
  h.invariant (I := Counted w) rfl fun _ _ _ _ ih _ hs => ih.step (step_sound hs)

theorem numbers_of_emitted {l : List TupleBuffer} {n : Nat}
    (h : l.map some = (List.range n).map GeneratorSource.emitted) :
    l.map TupleBuffer.sequenceNumber = List.range' 1 n := by
  induction n generalizing l with
  | zero => simpa using h
  | succ n ih =>
    rw [List.range_succ, List.map_append] at h
    obtain ⟨front, last, rfl, hfront, hlast⟩ := List.map_eq_append_iff.mp h
    obtain ⟨b, rfl, hb⟩ := List.map_eq_singleton_iff.mp hlast
    rw [List.map_append, ih hfront, List.range'_1_concat, List.map_singleton,
      (GeneratorSource.of_emitted hb.symm).1, Nat.add_comm]

theorem Counted.counter_le (h : Counted w x) : x.generator.counter ≤ 3 * 2 ^ 60 + 2 := by
  by_contra hlt
  have hmem : GeneratorSource.emitted (3 * 2 ^ 60 + 2) ∈
      (List.range x.generator.counter).map GeneratorSource.emitted :=
    List.mem_map_of_mem (List.mem_range.mpr (not_le.mp hlt))
  rw [GeneratorSource.emitted_overflows, ← h] at hmem
  obtain ⟨b, -, hb⟩ := List.mem_map.mp hmem
  contradiction

theorem Counted.verified (h : Counted w x) :
    ∀ b ∈ inputs w x.pipeline.upstream.emitted, verifyTupleBuffer b = some true := by
  intro b hb
  have hmem := List.mem_map_of_mem (f := some) hb
  rw [h] at hmem
  obtain ⟨n, -, hn⟩ := List.mem_map.mp hmem
  exact (GeneratorSource.of_emitted hn).2

theorem fresh_of_step (h : Counted w x) (hs : Step w x a y) :
    ∀ b ∈ x.pipelineAction a, x.pipeline.Fresh w b := by
  intro b hb task htask hnode
  have hfed : x.pipeline.fed w b = some task.input := by
    rw [Pipeline.fed, htask, Option.filter_some, if_pos (decide_eq_true hnode)]
    rfl
  cases hs with
  | stop => contradiction
  | thread g emission counter =>
    rw [pipelineAction, emission] at hb
    contradiction
  | emit d g p emission emitted counter feeds step =>
    rw [pipelineAction, emission] at hb
    obtain rfl := Option.some.inj hb
    rw [fed_of_emit feeds] at hfed
    obtain rfl := Option.some.inj hfed
    intro hmem
    obtain ⟨d', hd', hsame⟩ := List.mem_map.mp hmem
    have hnumber : d'.sequenceNumber ∈ List.range' 1 x.generator.counter :=
      numbers_of_emitted h ▸ List.mem_map_of_mem hd'
    have hlast := (GeneratorSource.of_emitted emitted).1
    have heq : d'.sequenceNumber = task.input.sequenceNumber := congrArg Prod.fst hsame
    have hlt := (List.mem_range'_1.mp hnumber).2
    omega
  | pipeline p feeds step =>
    obtain rfl := Option.some.inj hb
    rw [fed_of_feeds feeds] at hfed
    contradiction

theorem pipeline_reaches {C : Pipeline → Pipeline.Action → Prop}
    (h : (machine w).Reaches ((pipelinePart w).Permits C) x) :
    (Pipeline.machine w).Reaches (fun p a => p.Fresh w a ∧ C p a) x.pipeline := by
  induction h with
  | init => exact .init
  | step hr hC hs ih =>
    have hfresh := fresh_of_step (counted_of_reaches hr) (step_sound hs)
    exact ih.follow (fun b hb => ⟨hfresh b hb, hC b hb⟩) ((pipelinePart w).step hs)

theorem Counted.numbers_sublist (h : Counted w x) {l : List TupleBuffer}
    (hl : l.Sublist (inputs w x.pipeline.upstream.emitted)) :
    (l.map TupleBuffer.sequenceNumber).Sublist (List.range' 1 x.generator.counter) :=
  numbers_of_emitted h ▸ hl.map _

theorem Counted.executeAll (h : Counted w x) {l : List TupleBuffer}
    (hl : l.Sublist (inputs w x.pipeline.upstream.emitted)) (expected uncertainty : Option Nat) :
    ∃ s, (PrintSink.new expected uncertainty).executeAll l = some s ∧ s.errors = [] := by
  have hsub := h.numbers_sublist hl
  have hcounter := h.counter_le
  have hbounded : ∀ n ∈ l.map TupleBuffer.sequenceNumber, 0 < n ∧ n < 2 ^ 64 - 1 := by
    intro n hn
    have hrange := List.mem_range'_1.mp (hsub.subset hn)
    omega
  obtain ⟨tracker, hadd⟩ := MissingSequenceTracker.exists_addAll_of_lt
    (.sublist hsub List.nodup_range') hbounded
  have hvalid : ∀ b ∈ l, verifyTupleBuffer b = some true :=
    fun b hb => h.verified b (hl.subset hb)
  obtain ⟨s, hs⟩ := PrintSink.exists_executeAll_of_addAll
    (s := PrintSink.new expected uncertainty) (fun b hb => ⟨true, hvalid b hb⟩) hadd
  exact ⟨s, hs, PrintSink.errors_of_executeAll hvalid hs⟩

/-- The control queue has no room whenever the sink comes to the last buffer of its overflow. -/
def Crowded (w : Wiring) : TestRun → Action → Prop :=
  (pipelinePart w).Permits ((Pipeline.sinkPart w).Permits NetworkSink.Crowded)

instance (w : Wiring) (x : TestRun) (a : Action) : Decidable (Crowded w x a) :=
  inferInstanceAs (Decidable (∀ _ ∈ _, ∀ _ ∈ _, NetworkSink.Crowded _ _))

def firstBuffer : TupleBuffer := ⟨1, 1, 2, 1, 1, true, List.replicate 16 0, []⟩

def secondBuffer : TupleBuffer :=
  ⟨2, 1, 2, 1, 1, true, [1, 0, 0, 0, 0, 0, 0, 0, 1, 0, 0, 0, 0, 0, 0, 0],
    [[1, 0, 0, 0, 0, 0, 0, 0, 1, 0, 0, 0, 0, 0, 0, 0]]⟩

def exampleStart : List Action :=
  Pipeline.exampleStart.map .pipeline ++ [.run 0, .run 0, .run 0, .run 0, .run 0]

theorem no_false_alarm (h : (machine w).Reaches (Crowded w) x)
    (expected uncertainty : Option Nat) :
    ∃ s, (PrintSink.new expected uncertainty).executeAll (outputs w
        (x.pipeline.downstream.executed ++ x.pipeline.downstream.worker.running)) = some s ∧
      s.errors = [] ∧ s.counter ≤ x.generator.counter := by
  have hcounted := counted_of_reaches h
  have htaken := Pipeline.taken_sublist (pipeline_reaches h)
  have hl : (outputs w
      (x.pipeline.downstream.executed ++ x.pipeline.downstream.worker.running)).Sublist
        (inputs w x.pipeline.upstream.emitted) := by
    refine List.Sublist.trans ?_ htaken
    rw [← List.append_assoc, Pipeline.outputs_append (_ ++ _)]
    exact List.sublist_append_left _ _
  obtain ⟨s, hs, herrors⟩ := hcounted.executeAll hl expected uncertainty
  refine ⟨s, hs, herrors, ?_⟩
  obtain ⟨-, hcounter, -⟩ := PrintSink.executeAll_eq_some (Nat.two_pow_pos 64) hs
  have hlength := (hcounted.numbers_sublist hl).length_le
  rw [List.length_map, List.length_range'] at hlength
  calc s.counter ≤ 0 + _ := hcounter ▸ Nat.mod_le _ _
    _ ≤ x.generator.counter := (Nat.zero_add _).trans_le hlength

theorem no_false_alarm_lost :
    ∃ x s, (machine exampleWiring).Reaches (Crowded exampleWiring) x ∧ x.generator.counter = 2 ∧
      (PrintSink.new none none).executeAll [secondBuffer] = some s ∧ s.errors = [] ∧
      s.counter ≤ 2 := by
  obtain ⟨x, hx, houtputs, hcounter⟩ := Machine.exists_reaches_of_replay
    (M := machine exampleWiring) (C := Crowded exampleWiring)
    (P := fun x => outputs exampleWiring
        (x.pipeline.downstream.executed ++ x.pipeline.downstream.worker.running) =
        [secondBuffer] ∧ x.generator.counter = 2)
    (exampleStart ++ (Pipeline.exampleLoss firstBuffer secondBuffer).map .pipeline) (by decide)
  obtain ⟨s, hs, hrest⟩ := no_false_alarm hx none none
  exact ⟨x, s, hx, hcounter, houtputs ▸ hs, hcounter ▸ hrest⟩

/-- Moreover nothing is refused on the way, and no handler ends while it holds a buffer. -/
def Careful (w : Wiring) : TestRun → Action → Prop :=
  (pipelinePart w).Permits fun p a => (Pipeline.sinkPart w).Permits NetworkSink.Crowded p a ∧
    (Pipeline.upstreamPart w).Permits QueryEngine.Roomy p a ∧
    (Pipeline.sinkPart w).Permits NetworkSink.StopsDrained p a ∧
    (Pipeline.transferPart w).Permits Transfer.KeepsBuffers p a ∧
    (Pipeline.downstreamPart w).Permits QueryEngine.Roomy p a

instance (w : Wiring) (x : TestRun) (a : Action) : Decidable (Careful w x a) :=
  inferInstanceAs (Decidable (∀ _ ∈ _, (∀ _ ∈ _, NetworkSink.Crowded _ _) ∧
    (∀ _ ∈ _, QueryEngine.Roomy _ _) ∧ (∀ _ ∈ _, NetworkSink.StopsDrained _ _) ∧
    (∀ _ ∈ _, Transfer.KeepsBuffers _ _) ∧ ∀ _ ∈ _, QueryEngine.Roomy _ _))

structure Drained (w : Wiring) (p : Pipeline) : Prop where
  upstream : inputs w p.upstream.queue = []
  source : p.transfer.source.hand ++ p.transfer.source.handler.queue = []
  downstream : outputs w (p.downstream.worker.running ++ p.downstream.queue) = []

theorem stop_of_numbers {s : PrintSink} {l : List TupleBuffer} {n : Nat}
    (hs : (PrintSink.new expected uncertainty).executeAll l = some s)
    (numbers : l.map TupleBuffer.sequenceNumber = List.range' 1 n) (hn : n + 1 < 2 ^ 64)
    (bounds : ∀ e, expected = some e →
      uncertainty.getD 0 ≤ e ∧ e + uncertainty.getD 0 < 2 ^ 64) :
    ∃ report, s.stop = some report ∧ report.lastSequence = n ∧
      (report.error ≠ none ↔ ∃ e, expected = some e ∧
        (uncertainty.getD 0 : Int) < |(n : Int) - e|) := by
  obtain ⟨hall, hcounter, hexpected, huncertainty⟩ :=
    PrintSink.executeAll_eq_some (s := PrintSink.new expected uncertainty) (Nat.two_pow_pos 64) hs
  have hexpected : s.expectedMessages = expected := hexpected
  have hlength : l.length = n := by
    rw [← List.length_map TupleBuffer.sequenceNumber, numbers, List.length_range']
  have hcounter : s.counter = n := by
    rw [hcounter, hlength]
    exact (congrArg (· % 2 ^ 64) (Nat.zero_add n)).trans (Nat.mod_eq_of_lt (by omega))
  rw [numbers] at hall
  have htracks := MissingSequenceTracker.tracks_of_addAll List.nodup_range'
    (fun k hk => by have := List.mem_range'_1.mp hk; omega) hall
  have hmissing : FirstMissing (List.range' 1 n).toFinset (n + 1) := by
    have heq : (List.range' 1 n).toFinset = Finset.Ioc 0 n := by
      ext k
      simp only [List.mem_toFinset, List.mem_range'_1, Finset.mem_Ioc]
      omega
    exact heq ▸ FirstMissing.Ioc n
  obtain ⟨ok, hok⟩ := Option.isSome_iff_exists.mp
    ((PrintSink.receiveCheck_isSome_iff s).mpr fun e he => by
      rw [huncertainty]
      exact ⟨(bounds e (hexpected ▸ he)).1, .inr (bounds e (hexpected ▸ he)).2⟩)
  refine ⟨_, (PrintSink.stop_eq_some_iff htracks hmissing).mpr ⟨hn, ok, hok, rfl⟩, rfl, ?_⟩
  have hverdict := PrintSink.receiveCheck_eq_some hok
  rw [hexpected, huncertainty, hcounter] at hverdict
  refine Iff.trans ?_ hverdict
  cases ok <;> simp

theorem pipeline_careful (h : (machine w).Reaches (Careful w) x) :
    (Pipeline.machine w).Reaches (Pipeline.Careful w) x.pipeline :=
  (pipeline_reaches h).mono fun _ _ hC => ⟨⟨hC.1, hC.2.1⟩, hC.2.2⟩

theorem flushed_of_leads (h : (machine w).Reaches (Careful w) x) (hx : x.pipeline.Flushed)
    (later : (machine w).Leads (Careful w) x y) : y.pipeline.Flushed := by
  refine (later.invariant (I := fun y => (machine w).Reaches (Careful w) y ∧ y.pipeline.Flushed)
    ⟨h, hx⟩ fun y a z ⟨hr, hy⟩ hC hs => ?_).2
  have hz : (machine w).Reaches (Careful w) z := .step hr hC hs
  obtain ⟨-, hsame⟩ | ⟨b, -, hstep⟩ := Machine.follow_cases ((pipelinePart w).step hs)
  · have hsame : z.pipeline = y.pipeline := hsame
    exact ⟨hz, hsame ▸ hy⟩
  · exact ⟨hz, hy.step (pipeline_careful hz) hstep⟩

/-- Once the Flush of the sink has been signalled and nothing is on the way any more, the print
sink has got all that the generator emitted, and its verdict is about that number. -/
theorem verdict_exact (h : (machine w).Reaches (Careful w) x)
    (hs : x.pipeline.transfer.signals e = some done)
    (later : (machine w).Leads (Careful w) x y) (drained : Drained w y.pipeline)
    (bounds : ∀ e, expected = some e →
      uncertainty.getD 0 ≤ e ∧ e + uncertainty.getD 0 < 2 ^ 64) :
    ∃ s report, (PrintSink.new expected uncertainty).executeAll
        (outputs w y.pipeline.downstream.executed) = some s ∧ s.errors = [] ∧
      s.stop = some report ∧ report.lastSequence = y.generator.counter ∧
      (report.error ≠ none ↔ ∃ e, expected = some e ∧
        (uncertainty.getD 0 : Int) < |(y.generator.counter : Int) - e|) := by
  have hy : (machine w).Reaches (Careful w) y := h.leads later fun _ _ => id
  have hcareful := pipeline_careful hy
  have hflushed :=
    flushed_of_leads h (Pipeline.flushed_of_signal (pipeline_careful h) hs) later
  have hcounted := counted_of_reaches hy
  obtain ⟨hhand, hqueue⟩ := List.append_eq_nil_iff.mp drained.source
  have hall : outputs w y.pipeline.downstream.executed =
      inputs w y.pipeline.upstream.emitted := by
    rw [hflushed.source hcareful, Pipeline.emitted_of_careful hcareful,
      Pipeline.outputs_append, drained.downstream, drained.upstream, hhand, hqueue]
    simp only [List.append_nil]
  have hcounter := hcounted.counter_le
  obtain ⟨s, hexecuted, herrors⟩ := hcounted.executeAll
    (l := outputs w y.pipeline.downstream.executed) (hall ▸ .refl _) expected uncertainty
  obtain ⟨report, hreport⟩ :=
    stop_of_numbers hexecuted (hall ▸ numbers_of_emitted hcounted) (by omega) bounds
  exact ⟨s, report, hexecuted, herrors, hreport⟩

theorem verdict_exact_two :
    ∃ x s report, (machine exampleWiring).Reaches (Careful exampleWiring) x ∧
      (PrintSink.new (some 4) (some 1)).executeAll
        (outputs exampleWiring x.pipeline.downstream.executed) = some s ∧
      s.stop = some report ∧ report.lastSequence = 2 ∧ report.error ≠ none := by
  obtain ⟨x, hx, hsignals, y, hreplay, hupstream, hsource, hdownstream, hcounter⟩ :=
    Machine.exists_reaches_of_replay (M := machine exampleWiring) (C := Careful exampleWiring)
      (P := fun x => x.pipeline.transfer.signals .advance = some 0 ∧
        ∃ y ∈ (machine exampleWiring).replay (Careful exampleWiring) x
            (.pipeline (.transfer (.sender (.handler .advance))) ::
              (Pipeline.executeNext ++ Pipeline.executeNext).map .pipeline),
          inputs exampleWiring y.pipeline.upstream.queue = [] ∧
          y.pipeline.transfer.source.hand ++ y.pipeline.transfer.source.handler.queue = [] ∧
          outputs exampleWiring
            (y.pipeline.downstream.worker.running ++ y.pipeline.downstream.queue) = [] ∧
          y.generator.counter = 2)
      (exampleStart ++ (Pipeline.exampleFlush firstBuffer secondBuffer).map .pipeline)
      (by decide)
  have hlater : (machine exampleWiring).Leads (Careful exampleWiring) x y := .of_replay hreplay
  have hbounds : ∀ e, some 4 = some e → (some 1).getD 0 ≤ e ∧ e + (some 1).getD 0 < 2 ^ 64 := by
    decide
  obtain ⟨s, report, hs, -, hstop, hlast, herror⟩ :=
    verdict_exact hx hsignals hlater ⟨hupstream, hsource, hdownstream⟩ hbounds
  rw [hcounter] at hlast herror
  exact ⟨y, s, report, hx.leads hlater fun _ _ => id, hs, hstop, hlast,
    herror.mpr ⟨4, rfl, by decide⟩⟩

end TestRun

end BdsPro.TestNode
