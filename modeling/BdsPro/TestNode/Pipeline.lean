import BdsPro.TestNode.Engine
import BdsPro.TestNode.NetworkSink
import BdsPro.TestNode.Transfer

/-! Two nodes joined by a channel.  The engine of the first executes a network sink, which puts
its buffers into the control queue of the channel; the network source at the other end emits
them into the engine of the second. -/

namespace BdsPro.TestNode

open BdsPro.Library BdsPro.Network

/-- The node of the sink, how the sink is to end, and the number of the source among those of
its engine. -/
structure Wiring where
  node : Node
  shouldClose : Option Bool
  source : Nat

structure Pipeline where
  upstream : QueryEngine
  sink : NetworkSink
  transfer : Transfer
  downstream : QueryEngine

namespace Pipeline

def new (w : Wiring) : Pipeline := ⟨.default, .new w.shouldClose, .new, .default⟩

/-- `execute` is the worker that takes a task of the sink; `ok` is whether the registration of the
channel succeeds.  All other actions are those of the parts. -/
inductive Action
  | upstream (a : QueryEngine.Action)
  | execute (ok : Bool)
  | sink (a : NetworkSink.Action)
  | transfer (a : Transfer.Action)
  | downstream (a : QueryEngine.Action)

def sinkTask (w : Wiring) (p : Pipeline) : Option Task :=
  p.upstream.queue.head?.filter (·.node = w.node)

def executing (w : Wiring) (p : Pipeline) : Bool := p.upstream.worker.running.any (·.node = w.node)

def submission (p : Pipeline) (a : NetworkSink.Action) : Option Sender.ChannelControlMessage :=
  (p.sink.step a).bind fun s => (s.placed.drop p.sink.placed.length).head?

def emission (p : Pipeline) : Option TupleBuffer :=
  match p.transfer.source.thread with
  | some (.emitting d) => some d
  | _ => none

def upstreamAction : Action → Option QueryEngine.Action
  | .upstream a => some a
  | .execute _ => some .pop
  | _ => none

/-- The channel handler receives from the control queue, and signals the Flush of the sink. -/
def sinkAction (w : Wiring) (p : Pipeline) : Action → Option NetworkSink.Action
  | .execute ok => (p.sinkTask w).map fun task => .execute task.input ok
  | .sink a => some a
  | .transfer (.sender (.handler (.request (some _)))) => some .receive
  | .transfer (.sender (.handler e)) =>
    if p.transfer.signals e = some 0 ∧ p.sink.flushTaken then some (.flushed true) else none
  | _ => none

def transferAction (p : Pipeline) : Action → Option Transfer.Action
  | .sink a => (p.submission a).map (.sender <| .submit ·)
  | .transfer a => some a
  | _ => none

def downstreamAction (w : Wiring) (p : Pipeline) : Action → Option QueryEngine.Action
  | .downstream a => some a
  | .transfer (.source .run) => p.emission.map (.emit w.source)
  | _ => none

/-- What the parts do together none of them does alone.  `execute` of the sink ends with the
task, and the queue is closed by the end of the channel, or with the sink. -/
def permits (w : Wiring) (p : Pipeline) : Action → Bool
  | .upstream .pop => p.sinkTask w = none
  | .upstream .finish => !p.executing w || p.sink.phase = .idle
  | .upstream .abort => !p.executing w || p.sink.phase = .panicked
  | .upstream (.contextEmit _) => !p.executing w
  | .execute _ => (p.sinkTask w).isSome
  | .sink (.execute _ _) | .sink .receive | .sink (.flushed true) => false
  | .sink .closeControl => p.transfer.sender.stage = .finished
  | .transfer (.sender (.submit _)) => false
  | .transfer (.sender .dropQueue) => p.sink.phase = .stopped
  | .downstream (.emit i _) => i ≠ w.source
  | _ => true

def step (w : Wiring) (p : Pipeline) (a : Action) : Option Pipeline :=
  if p.permits w a then do
    let upstream ← QueryEngine.machine.follow p.upstream (upstreamAction a)
    let sink ← (NetworkSink.machine w.shouldClose).follow p.sink (p.sinkAction w a)
    let transfer ← Transfer.machine.follow p.transfer (p.transferAction a)
    let downstream ← QueryEngine.machine.follow p.downstream (p.downstreamAction w a)
    return ⟨upstream, sink, transfer, downstream⟩
  else none

def machine (w : Wiring) : Machine Pipeline Action := ⟨new w, step w⟩

end Pipeline

end BdsPro.TestNode
