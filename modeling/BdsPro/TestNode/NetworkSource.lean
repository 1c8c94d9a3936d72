import BdsPro.Library.Progress
import BdsPro.Network.Receiver.ChannelHandler

/-! The source of the test node that emits what arrives on a channel.  One action is one
operation of its thread, of a call of `stop`, or of the channel that fills the data queue. -/

namespace BdsPro.TestNode

open BdsPro.Library BdsPro.Network BdsPro.Network.Receiver

/-- Where the thread is: at the flag, in `recv_blocking`, with a buffer to emit, in `sleep`,
behind its loop, or at its end. -/
inductive SourceThread
  | checking
  | receiving
  | emitting (d : TupleBuffer)
  | sleeping
  | leaving
  | finished
  deriving DecidableEq

/-- Where `stop` is: not called, at the question whether the thread is finished, in `join`, or
at its end. -/
inductive StopPhase
  | idle
  | dropping
  | joining
  | returned
  deriving DecidableEq

/-- Who has the Sender of the data queue: the service as long as the channel has no connection,
a `channel_handler`, or nobody. -/
inductive QueueHolder
  | service
  | handler
  | nobody
  deriving DecidableEq

/-- `handler` is the handler of the last connection, with the data queue.  `emitted` is
history. -/
structure NetworkSource where
  holder : QueueHolder
  handler : Receiver.ChannelHandler
  thread : Option SourceThread
  stopped : Bool
  stopping : StopPhase
  emitted : List TupleBuffer
  deriving DecidableEq

namespace NetworkSource

def new : NetworkSource where
  holder := .nobody
  handler := .new
  thread := none
  stopped := false
  stopping := .idle
  emitted := []

def start (s : NetworkSource) : Option NetworkSource :=
  if s.thread = none then some { s with holder := .service, thread := some .checking } else none

def recvBlocking (s : NetworkSource) : Option NetworkSource :=
  match s.handler.queue with
  | d :: rest => some { s with
      handler := { s.handler with queue := rest }
      thread := some (.emitting d) }
  | [] => if s.handler.queueClosed then some { s with thread := some .finished } else none

def run (s : NetworkSource) : Option NetworkSource :=
  match s.thread with
  | some .checking =>
    some { s with thread := some (if s.stopped then .leaving else .receiving) }
  | some .receiving => s.recvBlocking
  | some (.emitting d) => some { s with emitted := s.emitted ++ [d], thread := some .sleeping }
  | some .sleeping => some { s with thread := some .checking }
  | some .leaving => some { s with
      handler := { s.handler with queueClosed := true }
      thread := some .finished }
  | some .finished | none => none

def stop (s : NetworkSource) : Option NetworkSource :=
  match s.stopping, s.thread with
  | .idle, none | .returned, _ => some s
  | .idle, some _ => some { s with stopped := true, stopping := .dropping }
  | .dropping, some .finished | .joining, some .finished => some { s with stopping := .returned }
  | .dropping, some _ => some { s with stopping := .joining }
  | _, _ => none

def connect (s : NetworkSource) : Option NetworkSource :=
  if s.holder = .service then some { s with
    holder := .handler
    handler := { s.handler with writer := .new, phase := .next } }
  else none

def dropSender (s : NetworkSource) : NetworkSource :=
  { s with holder := .nobody, handler := { s.handler with queueClosed := true } }

/-- What the task of the channel does with the Sender when its handler has ended. -/
def giveBack (s : NetworkSource) : Option NetworkSource :=
  match s.holder, s.handler.phase with
  | .handler, .ended (.ok ()) | .handler, .ended (.error .cancelled) => some s.dropSender
  | .handler, .ended (.error (.network _)) | .handler, .ended (.error .closedByOtherSide) =>
    some { s with holder := .service }
  | _, _ => none

def handle (s : NetworkSource) (e : Receiver.ChannelHandler.Event) : Option NetworkSource :=
  match e with
  | .pop | .closeQueue => none
  | .cancel => some { s with handler := { s.handler with cancelled := true } }
  | e => if s.holder = .handler then (s.handler.step e).map fun h => { s with handler := h }
    else none

/-- `replaced` is the service that gives up a channel without a connection, for another one. -/
inductive Action
  | start
  | run
  | stop
  | connect
  | handle (e : Receiver.ChannelHandler.Event)
  | giveBack
  | replaced

def step (s : NetworkSource) : Action → Option NetworkSource
  | .start => s.start
  | .run => s.run
  | .stop => s.stop
  | .connect => s.connect
  | .handle e => s.handle e
  | .giveBack => s.giveBack
  | .replaced => if s.holder = .service then some s.dropSender else none

def machine : Machine NetworkSource Action := ⟨new, step⟩

/-- The steps that the node takes by itself, while its application waits for `stop`: all but
what comes from the other end of the channel or is a call of the application. -/
def own : Action → Bool
  | .run | .stop | .giveBack => true
  | .handle (.push) | .handle .cancelled | .handle (.send _) => true
  | _ => false

def Own (_ : NetworkSource) (a : Action) : Prop := own a = true

def Blocked (s : NetworkSource) : Prop :=
  s.thread = some .receiving ∧ s.handler.queue = [] ∧ s.handler.queueClosed = false

def Deadlocked (s : NetworkSource) : Prop :=
  s.stopping = .joining ∧ machine.Always Own Blocked s

end NetworkSource

end BdsPro.TestNode
