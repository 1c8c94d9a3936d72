import BdsPro.Library.RefCount
import BdsPro.TestNode.Engine

/-! The references to the nodes of the query engine, and what is called on their pipelines.  A
node is dropped with its last reference: its pipeline is stopped, and then the reference to its
successor is given up. -/

namespace BdsPro.TestNode

open BdsPro.Library BdsPro.Network

namespace Node

def pipeline : Node → Nat
  | .last p => p
  | .before p _ => p

def pipelines : Node → List Nat
  | .last p => [p]
  | .before p successor => p :: successor.pipelines

def fields (n : Node) : List Nat := n.successor.toList.map pipeline

end Node

inductive Call
  | execute (pipeline : Nat)
  | stop (pipeline : Nat)
  | stopped (pipeline : Nat)
  deriving DecidableEq

/-- Whoever builds the queries holds `handles`; `emitFns` are the emit functions of the engine
that have not been dropped.  Threads are about to drop the references `pending` and the rest of
the nodes `stopping`.  `calls` is history. -/
structure Ownership where
  engine : QueryEngine
  heap : Heap
  handles : Multiset Node
  emitFns : List (Option Node)
  pending : Multiset Node
  stopping : Multiset Node
  calls : List Call

namespace Ownership

def default : Ownership := ⟨.default, .empty, 0, [], 0, 0, []⟩

def held (s : Ownership) : Multiset Node :=
  s.handles + s.engine.queries.values.bind Multiset.ofList + s.emitFns.filterMap id +
    (s.engine.worker.running ++ s.engine.queue).map Task.node + s.pending +
    s.stopping.filterMap Node.successor

def newNode (s : Ownership) (successor : Option Node) : Option Ownership :=
  if ↑successor.toList ≤ s.handles then
    let node := successor.elim (.last s.heap.cells.length) (.before s.heap.cells.length)
    some { s with
      heap := s.heap.alloc node.fields
      handles := node ::ₘ (s.handles - ↑successor.toList) }
  else none

def cloneNode (s : Ownership) (n : Node) : Option Ownership :=
  if n ∈ s.handles then
    some { s with heap := s.heap.clone n.pipeline, handles := n ::ₘ s.handles }
  else none

def dropNode (s : Ownership) (n : Node) : Option Ownership :=
  if n ∈ s.handles then
    some { s with handles := s.handles.erase n, pending := n ::ₘ s.pending }
  else none

def startQuery (s : Ownership) (query : List Node) : Option Ownership :=
  if ↑query ≤ s.handles then
    some { s with
      engine := s.engine.startQuery query
      heap := s.heap.cloneAll (query.map Node.pipeline)
      handles := s.handles - ↑query
      emitFns := s.emitFns ++ query.map some }
  else none

def stopQuery (s : Ownership) (id : Nat) : Ownership :=
  { s with
    engine := s.engine.stopQuery id
    pending := ↑((s.engine.queries.lookup id).getD []) + s.pending }

/-- A task that finds no room is dropped. -/
def push (s : Ownership) (task : Task) : Ownership :=
  { s with
    engine := s.engine.push task
    heap := s.heap.clone task.node.pipeline
    pending :=
      if s.engine.queue.length < QueryEngine.queueLen then s.pending else task.node ::ₘ s.pending }

def emit (s : Ownership) (i : Nat) (buffer : TupleBuffer) : Option Ownership :=
  match s.emitFns[i]? with
  | some (some _) => (s.engine.sourceTask i buffer).map s.push
  | _ => none

def endSource (s : Ownership) (i : Nat) : Option Ownership :=
  match s.emitFns[i]? with
  | some (some n) => some { s with emitFns := s.emitFns.set i none, pending := n ::ₘ s.pending }
  | _ => none

def contextEmit (s : Ownership) (data : TupleBuffer) : Option Ownership :=
  match s.engine.worker with
  | .executing _ => some ((s.engine.contextTask data).elim s s.push)
  | _ => none

def pop (s : Ownership) : Option Ownership :=
  s.engine.pop.map fun e => { s with
    engine := e
    calls := s.calls ++ e.worker.running.map (.execute ·.node.pipeline) }

def leave (s : Ownership) (e : QueryEngine) : Ownership :=
  { s with
    engine := e
    pending := ↑(s.engine.worker.running.map Task.node) + s.pending }

/-- `Drop for Arc`, which enters `Drop for Node` with the last reference. -/
def release (s : Ownership) (n : Node) : Option Ownership :=
  if n ∈ s.pending then
    if s.heap.strong n.pipeline = 1 then
      some { s with
        heap := s.heap.release n.pipeline
        pending := s.pending.erase n
        stopping := n ::ₘ s.stopping
        calls := s.calls ++ [.stop n.pipeline] }
    else some { s with heap := s.heap.release n.pipeline, pending := s.pending.erase n }
  else none

def stopReturns (s : Ownership) (n : Node) : Option Ownership :=
  if n ∈ s.stopping then
    some { s with
      stopping := s.stopping.erase n
      pending := ↑n.successor.toList + s.pending
      calls := s.calls ++ [.stopped n.pipeline] }
  else none

inductive Action
  | newNode (successor : Option Node)
  | cloneNode (n : Node)
  | dropNode (n : Node)
  | startQuery (query : List Node)
  | stopQuery (id : Nat)
  | emit (i : Nat) (buffer : TupleBuffer)
  | endSource (i : Nat)
  | contextEmit (data : TupleBuffer)
  | pop
  | finish
  | abort
  | release (n : Node)
  | stopReturns (n : Node)

def step (s : Ownership) : Action → Option Ownership
  | .newNode successor => s.newNode successor
  | .cloneNode n => s.cloneNode n
  | .dropNode n => s.dropNode n
  | .startQuery query => s.startQuery query
  | .stopQuery id => some (s.stopQuery id)
  | .emit i buffer => s.emit i buffer
  | .endSource i => s.endSource i
  | .contextEmit data => s.contextEmit data
  | .pop => s.pop
  | .finish => s.engine.finish.map s.leave
  | .abort => s.engine.abort.map s.leave
  | .release n => s.release n
  | .stopReturns n => s.stopReturns n

def machine : Machine Ownership Action := ⟨default, step⟩

end Ownership

end BdsPro.TestNode
