import BdsPro.Network.Sender.ChannelHandler

/-! One channel of the sender over all its data connections: the control queue outlives
the handlers, each of which starts on a connection of its own. -/

namespace BdsPro.Network.Sender

open BdsPro.Library

inductive ChannelHandlerResult
  | cancelled
  | connectionLost (e : String)
  | closed
  deriving DecidableEq

def ChannelHandlerError.result : ChannelHandlerError → ChannelHandlerResult
  | .terminated | .closedByOtherSide => .closed
  | .cancelled => .cancelled
  | .connectionLost e | .protocol e => .connectionLost e

inductive EstablishChannelResult
  | ok | channelReject | badConnection | cancelled
  deriving DecidableEq

/-- `registering` is the loop of `attempt_channel_registration`, `connecting` is
`create_channel`, and `retrying` the time until `RetryChannel` has been processed. -/
inductive Stage
  | registering
  | connecting
  | running (h : ChannelHandler)
  | retrying
  | finished
  deriving DecidableEq

/-- `closed` records that Terminate, or a Close from the receiver, has been processed. -/
structure Channel where
  queue : List ChannelControlMessage
  queueOpen : Bool
  stage : Stage
  trace : Trace
  closed : Bool
  deriving DecidableEq

namespace Channel

def new : Channel where
  queue := []
  queueOpen := true
  stage := .registering
  trace := .empty
  closed := false

def queueLen : Nat := 100

def submit (c : Channel) (m : ChannelControlMessage) : Option Channel :=
  if c.queueOpen ∧ c.queue.length < queueLen then some { c with queue := c.queue ++ [m] } else none

def establish (c : Channel) (r : EstablishChannelResult) : Option Channel :=
  match c.stage with
  | .registering =>
    match r with
    | .ok => some { c with stage := .connecting }
    | .channelReject | .badConnection => some c
    | .cancelled => some { c with stage := .finished }
  | _ => none

def connect (c : Channel) (ok : Bool) : Option Channel :=
  match c.stage with
  | .connecting => some { c with stage := if ok then .running (.new false) else .retrying }
  | _ => none

/-- What `recv` can yield on the control queue.  No one cancels the token of a channel. -/
def offers (c : Channel) : ChannelHandler.Event → Bool
  | .request (some m) => c.queue.head? = some m
  | .request none => c.queue = [] ∧ c.queueOpen = false
  | .cancel => false
  | _ => true

def closes : ChannelHandler.Event → Bool
  | .request (some .terminate) | .response (some (.ok .close)) => true
  | _ => false

def handler (c : Channel) (e : ChannelHandler.Event) : Option Channel :=
  match c.stage with
  | .running h =>
    if c.offers e then
      (h.step e).map fun h' => { c with
        queue := match e with
          | .request _ => c.queue.tail
          | _ => c.queue
        stage := .running h'
        trace := c.trace.record h e
        closed := c.closed || closes e }
    else none
  | _ => none

/-- `run` has returned: the handler is dropped, and only the queue goes on. -/
def finish (c : Channel) : Option Channel :=
  match c.stage with
  | .running h =>
    match h.phase with
    | .ended e =>
      match e.result with
      | .connectionLost _ => some { c with stage := .retrying }
      | .cancelled | .closed => some { c with stage := .finished }
    | _ => none
  | _ => none

/-- `RetryChannel` reaches the connection's handler, unless that is gone. -/
def retry (c : Channel) (ok : Bool) : Option Channel :=
  match c.stage with
  | .retrying => some { c with stage := if ok then .registering else .finished }
  | _ => none

inductive Action
  | submit (m : ChannelControlMessage)
  | dropQueue
  | establish (r : EstablishChannelResult)
  | connect (ok : Bool)
  | handler (e : ChannelHandler.Event)
  | finish
  | retry (ok : Bool)

def step (c : Channel) : Action → Option Channel
  | .submit m => c.submit m
  | .dropQueue => some { c with queueOpen := false }
  | .establish r => c.establish r
  | .connect ok => c.connect ok
  | .handler e => c.handler e
  | .finish => c.finish
  | .retry ok => c.retry ok

def machine : Machine Channel Action := ⟨new, step⟩

def held (c : Channel) : Multiset TupleBuffer :=
  match c.stage with
  | .running h => h.pendingWrites + h.waitForAck.values
  | _ => 0

end Channel

/-- The event ends the handler, other than by Terminate or a Close from the receiver. -/
def ChannelHandler.breaks (h : ChannelHandler) (e : Event) : Bool :=
  match e, h.phase with
  | .advance, .head .run => h.cancelled
  | .flush .complete, .flushing _ => h.cancelled
  | .flush (.failed _ _), .flushing _ => true
  | .cancelled, _ => true
  | .response none, _ | .response (some (.error _)), _ => true
  | .response (some (.ok (.ackData seq))), _ | .response (some (.ok (.nackData seq))), _ =>
    h.waitForAck.lookup seq = none
  | .request none, _ => true
  | _, _ => false

/-- The event is the first poll of a send whose buffer shares its number with an entry of
`wait_for_ack`. -/
def ChannelHandler.collides (h : ChannelHandler) (e : Event) : Bool :=
  match e, h.phase, h.pendingWrites with
  | .sendPending _, .selecting _ .notPolled, b :: _ => (h.waitForAck.lookup b.sequence).isSome
  | _, _, _ => false

/-- A handler ends while it holds a buffer, or a buffer replaces another one in
`wait_for_ack`. -/
def Channel.loses (c : Channel) (a : Channel.Action) : Bool :=
  match a, c.stage with
  | .handler e, .running h =>
    (h.breaks e && (h.pendingWrites ≠ [] ∨ h.waitForAck.size ≠ 0)) || h.collides e
  | _, _ => false

def Channel.KeepsBuffers (c : Channel) (a : Channel.Action) : Prop := c.loses a = false

instance (c : Channel) (a : Channel.Action) : Decidable (c.KeepsBuffers a) :=
  inferInstanceAs (Decidable (_ = false))

end BdsPro.Network.Sender
