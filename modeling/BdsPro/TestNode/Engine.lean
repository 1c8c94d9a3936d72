import BdsPro.Library.Machine
import BdsPro.Library.Map
import BdsPro.Network.Protocol

/-! The query engine of the test node.  Sources and pipelines put their tasks into one bounded
queue, and one worker takes them out. -/

namespace BdsPro.TestNode

open BdsPro.Library BdsPro.Network

/-- A node by its pipeline, and the node that its output goes to. -/
inductive Node
  | last (pipeline : Nat)
  | before (pipeline : Nat) (successor : Node)
  deriving DecidableEq

def Node.successor : Node → Option Node
  | .last _ => none
  | .before _ successor => some successor

/-- A `Task::Compute`.  `source` is history: the source that has emitted the buffer, or none
for a `PipelineContext`. -/
structure Task where
  queryId : Nat
  input : TupleBuffer
  node : Node
  source : Option Nat
  deriving DecidableEq

/-- The worker polls the queue or executes a task; it ends when a pipeline panics. -/
inductive Worker
  | polling
  | executing (task : Task)
  | ended
  deriving DecidableEq

def Worker.running : Worker → List Task
  | .executing task => [task]
  | _ => []

/-- `emitFns` are the emit functions handed to sources, each for its query and the source's
successor.  `emitted` and `executed` are history. -/
structure QueryEngine where
  idCounter : Nat
  queue : List Task
  queries : Map Nat (List Node)
  emitFns : List (Nat × Node)
  worker : Worker
  emitted : List Task
  executed : List Task

namespace QueryEngine

def default : QueryEngine := ⟨0, [], ∅, [], .polling, [], []⟩

def queueLen : Nat := 1024

/-- `ArrayQueue::push`, whose result is discarded. -/
def push (e : QueryEngine) (task : Task) : QueryEngine :=
  { e with
    queue := if e.queue.length < queueLen then e.queue ++ [task] else e.queue
    emitted := e.emitted ++ [task] }

def startQuery (e : QueryEngine) (query : List Node) : QueryEngine :=
  { e with
    idCounter := e.idCounter + 1
    queries := e.queries.insert e.idCounter query
    emitFns := e.emitFns ++ query.map (e.idCounter, ·) }

def stopQuery (e : QueryEngine) (id : Nat) : QueryEngine :=
  { e with queries := e.queries.erase id }

def sourceTask (e : QueryEngine) (i : Nat) (buffer : TupleBuffer) : Option Task :=
  e.emitFns[i]?.map fun (id, successor) => ⟨id, buffer, successor, some i⟩

def contextTask (e : QueryEngine) (data : TupleBuffer) : Option Task :=
  match e.worker with
  | .executing task => task.node.successor.map fun successor =>
    ⟨task.queryId, data, successor, none⟩
  | _ => none

/-- The emit function of a source.  A source that was told to stop may still emit. -/
def emit (e : QueryEngine) (i : Nat) (buffer : TupleBuffer) : Option QueryEngine :=
  (e.sourceTask i buffer).map e.push

def contextEmit (e : QueryEngine) (data : TupleBuffer) : Option QueryEngine :=
  match e.worker with
  | .executing _ => some ((e.contextTask data).elim e e.push)
  | _ => none

def pop (e : QueryEngine) : Option QueryEngine :=
  match e.worker, e.queue with
  | .polling, task :: rest => some { e with queue := rest, worker := .executing task }
  | _, _ => none

def finish (e : QueryEngine) : Option QueryEngine :=
  match e.worker with
  | .executing task => some { e with worker := .polling, executed := e.executed ++ [task] }
  | _ => none

/-- The pipeline panics, which ends the loop of the worker. -/
def abort (e : QueryEngine) : Option QueryEngine :=
  match e.worker with
  | .executing _ => some { e with worker := .ended }
  | _ => none

inductive Action
  | startQuery (query : List Node)
  | stopQuery (id : Nat)
  | emit (i : Nat) (buffer : TupleBuffer)
  | contextEmit (data : TupleBuffer)
  | pop
  | finish
  | abort
  deriving DecidableEq

def step (e : QueryEngine) : Action → Option QueryEngine
  | .startQuery query => some (e.startQuery query)
  | .stopQuery id => some (e.stopQuery id)
  | .emit i buffer => e.emit i buffer
  | .contextEmit data => e.contextEmit data
  | .pop => e.pop
  | .finish => e.finish
  | .abort => e.abort

def machine : Machine QueryEngine Action := ⟨default, step⟩

end QueryEngine

end BdsPro.TestNode
