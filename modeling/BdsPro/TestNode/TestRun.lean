import BdsPro.TestNode.Generator
import BdsPro.TestNode.Pipeline

/-! The test that two nodes run: a generator source feeds the sink of the first one, and a print
sink checks what the second one executes. -/

namespace BdsPro.TestNode

open BdsPro.Library BdsPro.Network

/-- The thread looks at its flag, makes and emits the next buffer, and sleeps. -/
inductive GeneratorPhase
  | checking | emitting | sleeping | ended
  deriving DecidableEq

structure GeneratorSource where
  counter : Nat
  stopped : Bool
  phase : GeneratorPhase
  deriving DecidableEq

namespace GeneratorSource

def new : GeneratorSource := ⟨0, false, .checking⟩

def stop (g : GeneratorSource) : GeneratorSource := { g with stopped := true }

def emission (g : GeneratorSource) : Option TupleBuffer :=
  match g.phase with
  | .emitting => emitted g.counter
  | _ => none

/-- What the thread does between two calls.  A panic while it makes a buffer is no step. -/
def run (g : GeneratorSource) : Option GeneratorSource :=
  match g.phase with
  | .checking => some { g with phase := if g.stopped then .ended else .emitting }
  | .emitting => (emitted g.counter).map fun _ =>
    { g with counter := g.counter + 1, phase := .sleeping }
  | .sleeping => some { g with phase := .checking }
  | .ended => none

end GeneratorSource

structure TestRun where
  generator : GeneratorSource
  pipeline : Pipeline

namespace TestRun

def new (w : Wiring) : TestRun := ⟨.new, .new w⟩

/-- `run` is a step of the generator's thread, which has the emit function of number `i`. -/
inductive Action
  | stop
  | run (i : Nat)
  | pipeline (a : Pipeline.Action)

def generatorStep (x : TestRun) : Action → Option GeneratorSource
  | .stop => some x.generator.stop
  | .run _ => x.generator.run
  | .pipeline _ => some x.generator

def pipelineAction (x : TestRun) : Action → Option Pipeline.Action
  | .stop => none
  | .run i => x.generator.emission.map fun b => .upstream (.emit i b)
  | .pipeline a => some a

def feeds (w : Wiring) (p : Pipeline) : Pipeline.Action → Bool
  | .upstream (.emit i b) => (p.upstream.sourceTask i b).any (·.node = w.node)
  | .upstream (.contextEmit b) => (p.upstream.contextTask b).any (·.node = w.node)
  | _ => false

def permits (w : Wiring) (x : TestRun) : Action → Bool
  | .stop => true
  | .run i => (x.pipelineAction (.run i)).all (feeds w x.pipeline)
  | .pipeline a => !feeds w x.pipeline a

def step (w : Wiring) (x : TestRun) (a : Action) : Option TestRun :=
  if x.permits w a then do
    let generator ← x.generatorStep a
    let pipeline ← (Pipeline.machine w).follow x.pipeline (x.pipelineAction a)
    return ⟨generator, pipeline⟩
  else none

def machine (w : Wiring) : Machine TestRun Action := ⟨new w, step w⟩

end TestRun

end BdsPro.TestNode
