import BdsPro.Network.Sender.Channel

/-! The sink of the test node that forwards buffers to the control queue of a channel.  One
action is one operation on that queue, between which the channel handler may receive from it
or close it. -/

namespace BdsPro.TestNode

open BdsPro.Library BdsPro.Network BdsPro.Network.Sender

/-- Where the sink is: in `execute`, at an iteration of the loop over the overflow buffer or
at the last `try_send`, or in `stop`, at one of its blocking calls.  `again` is history: the
loop has placed this buffer already.  `answer` is what has become of the handle that `stop` waits
for: the channel has signalled or dropped it, or not yet. -/
inductive SinkPhase
  | idle
  | draining (data : TupleBuffer)
  | sending (data : TupleBuffer) (again : Bool)
  | flushing
  | waiting (answer : Option Bool)
  | terminating
  | stopped
  | panicked
  deriving DecidableEq

/-- `control` is the content of the control queue, and `served` is whether the channel still has a
Receiver of it.  `executed` and `placed` are history, and `repeated` says of the front of `buffer`
that it has been placed before. -/
structure NetworkSink where
  shouldClose : Option Bool
  closed : Bool
  registered : Bool
  buffer : List TupleBuffer
  control : List ChannelControlMessage
  controlOpen : Bool
  served : Bool
  phase : SinkPhase
  executed : List TupleBuffer
  placed : List ChannelControlMessage
  repeated : Bool
  deriving DecidableEq

namespace NetworkSink

def new (shouldClose : Option Bool) : NetworkSink where
  shouldClose := shouldClose
  closed := false
  registered := false
  buffer := []
  control := []
  controlOpen := true
  served := true
  phase := .idle
  executed := []
  placed := []
  repeated := false

inductive TrySend
  | ok | full | closed
  deriving DecidableEq

def trySend (s : NetworkSink) : TrySend :=
  if s.controlOpen then if s.control.length < Channel.queueLen then .ok else .full
  else .closed

def place (s : NetworkSink) (m : ChannelControlMessage) : NetworkSink :=
  { s with control := s.control ++ [m], placed := s.placed ++ [m] }

/-- `execute` up to its first `try_send`.  `ok` is whether `register_channel` succeeds. -/
def execute (s : NetworkSink) (data : TupleBuffer) (ok : Bool) : Option NetworkSink :=
  if s.phase = .idle then
    let s := { s with executed := s.executed ++ [data] }
    if s.closed then some s
    else if !s.registered && !ok then some { s with phase := .panicked }
    else
      let s := { s with registered := true }
      if s.buffer = [] then some { s with phase := .sending data false }
      else some { s with buffer := s.buffer ++ [data], phase := .draining data }
  else none

/-- One iteration of the loop over the overflow buffer.  Once the buffer is empty the loop
ends, and `execute` goes on. -/
def drain (s : NetworkSink) (data front : TupleBuffer) (rest : List TupleBuffer) :
    NetworkSink :=
  match s.trySend with
  | .full => { s with phase := .idle }
  | .closed => { s with buffer := rest, phase := .panicked, repeated := false }
  | .ok => { s.place (.data front) with
      buffer := rest
      phase := if rest = [] then .sending data true else .draining data
      repeated := false }

def send (s : NetworkSink) (data : TupleBuffer) (again : Bool) : NetworkSink :=
  match s.trySend with
  | .full => { s with buffer := s.buffer ++ [data], phase := .idle, repeated := again }
  | .closed => { s with closed := true, phase := .idle }
  | .ok => { s.place (.data data) with phase := .idle }

def forward (s : NetworkSink) : Option NetworkSink :=
  match s.phase, s.buffer with
  | .draining data, front :: rest => some (s.drain data front rest)
  | .sending data again, _ => some (s.send data again)
  | _, _ => none

def stop (s : NetworkSink) : Option NetworkSink :=
  if s.phase = .idle then
    match s.shouldClose, s.closed with
    | some true, true | some false, true | none, true => some { s with phase := .stopped }
    | some true, false | some false, false | none, false =>
      some { s with phase := if s.registered then .flushing else .panicked }
  else none

/-- `send_blocking` of `stop`, which waits while the queue is full.  After Terminate the queue
is closed. -/
def sendBlocking (s : NetworkSink) : Option NetworkSink :=
  match s.phase, s.trySend with
  | .flushing, .ok => some { s.place (.flush 0) with phase := .waiting none }
  | .terminating, .ok =>
    some { s.place .terminate with controlOpen := false, phase := .stopped }
  | .flushing, .closed | .terminating, .closed => some { s with phase := .stopped }
  | _, _ => none

/-- The handler of the channel has taken the Flush, whose handle it has neither signalled nor
dropped yet. -/
def flushTaken (s : NetworkSink) : Bool := s.phase = .waiting none ∧ .flush 0 ∉ s.control

/-- The handler signals the Flush, or drops it. -/
def flushed (s : NetworkSink) (ok : Bool) : Option NetworkSink :=
  if s.flushTaken then some { s with phase := .waiting (some ok) } else none

def blockingRecv (s : NetworkSink) : Option NetworkSink :=
  match s.phase with
  | .waiting (some ok) => some { s with phase := if ok then .terminating else .stopped }
  | _ => none

def receive (s : NetworkSink) : Option NetworkSink :=
  match s.served, s.control with
  | true, _ :: rest => some { s with control := rest }
  | _, _ => none

/-- The channel drops its last Receiver, and with its handler a Flush that this has taken. -/
def closeControl (s : NetworkSink) : NetworkSink :=
  { s with
    controlOpen := false
    served := false
    phase := if s.flushTaken then .waiting (some false) else s.phase }

inductive Action
  | execute (data : TupleBuffer) (ok : Bool)
  | forward
  | stop
  | sendBlocking
  | flushed (ok : Bool)
  | blockingRecv
  | receive
  | closeControl
  deriving DecidableEq

def step (s : NetworkSink) : Action → Option NetworkSink
  | .execute data ok => s.execute data ok
  | .forward => s.forward
  | .stop => s.stop
  | .sendBlocking => s.sendBlocking
  | .flushed ok => s.flushed ok
  | .blockingRecv => s.blockingRecv
  | .receive => s.receive
  | .closeControl => some s.closeControl

def machine (shouldClose : Option Bool) : Machine NetworkSink Action := ⟨new shouldClose, step⟩

end NetworkSink

end BdsPro.TestNode
