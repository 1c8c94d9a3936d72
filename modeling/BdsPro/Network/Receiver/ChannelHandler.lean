import BdsPro.Library.Machine
import BdsPro.Network.Protocol

/-! The receiver's `channel_handler`, one step being what the task does between two of its
await points, together with the data queue that it shares with the application. -/

namespace BdsPro.Network.Receiver

open BdsPro.Library

inductive ChannelHandlerError
  | closedByOtherSide
  | cancelled
  | network (e : String)
  deriving DecidableEq

/-- The handler waits for a request, for room in the data queue, or for its writer to take
an ACK or a Close. -/
inductive Phase
  | next
  | queueing (b : TupleBuffer)
  | acking (seq : Sequence) (fed : Bool)
  | closing (fed : Bool)
  | ended (result : Except ChannelHandlerError Unit)
  deriving DecidableEq

/-- `pushed` lists every buffer that was ever put into the data queue. -/
structure ChannelHandler where
  cancelled : Bool
  queue : List TupleBuffer
  queueClosed : Bool
  writer : FramedWrite DataChannelResponse
  phase : Phase
  pushed : List TupleBuffer
  deriving DecidableEq

namespace ChannelHandler

def new : ChannelHandler where
  cancelled := false
  queue := []
  queueClosed := false
  writer := .new
  phase := .next
  pushed := []

def dataQueueLen : Nat := 10

def fail (h : ChannelHandler) (e : ChannelHandlerError) : ChannelHandler :=
  { h with phase := .ended (.error e) }

/-- What `reader.next()` yields: `none` is the end of the stream. -/
abbrev Request := Option (Except String DataChannelRequest)

def handleRequest (h : ChannelHandler) : Request → ChannelHandler
  | none => h.fail (.network "Connection Lost")
  | some (.error e) => h.fail (.network e)
  | some (.ok (.data b)) => { h with phase := .queueing b }
  | some (.ok .close) => { h with queueClosed := true }.fail .closedByOtherSide

/-- `queue.send` waits while the queue is full and fails once it is closed. -/
def push (h : ChannelHandler) (b : TupleBuffer) : Option ChannelHandler :=
  if h.queueClosed then some { h with phase := .closing false }
  else if h.queue.length < dataQueueLen then
    some { h with
      queue := h.queue ++ [b]
      phase := .acking b.sequence false
      pushed := h.pushed ++ [b] }
  else none

def sendAck (h : ChannelHandler) (seq : Sequence) (fed : Bool) (io : Io) : Option ChannelHandler :=
  (h.writer.pollSend responseCodec (.ackData seq) fed io).map fun (w, sending) =>
    match sending with
    | .pending fed => { h with writer := w, phase := .acking seq fed }
    | .done => { h with writer := w, phase := .next }
    | .failed e => { h with writer := w }.fail (.network e)

def sendClose (h : ChannelHandler) (fed : Bool) (io : Io) : Option ChannelHandler :=
  (h.writer.pollSend responseCodec .close fed io).map fun (w, sending) =>
    match sending with
    | .pending fed => { h with writer := w, phase := .closing fed }
    | .done => { h with writer := w, phase := .ended (.ok ()) }
    | .failed e => { h with writer := w }.fail (.network e)

/-- `pop` and `closeQueue` are the application's. -/
inductive Event
  | cancel
  | cancelled
  | request (r : Request)
  | push
  | send (io : Io)
  | pop
  | closeQueue

def live (h : ChannelHandler) : Bool :=
  match h.phase with
  | .ended _ => false
  | _ => true

def step (h : ChannelHandler) (e : Event) : Option ChannelHandler :=
  match e, h.phase with
  | .cancel, _ => some { h with cancelled := true }
  | .cancelled, _ => if h.live ∧ h.cancelled then some (h.fail .cancelled) else none
  | .request r, .next => some (h.handleRequest r)
  | .push, .queueing b => h.push b
  | .send io, .acking seq fed => h.sendAck seq fed io
  | .send io, .closing fed => h.sendClose fed io
  | .pop, _ => some { h with queue := h.queue.tail }
  | .closeQueue, _ => some { h with queueClosed := true }
  | _, _ => none

end ChannelHandler

end BdsPro.Network.Receiver
