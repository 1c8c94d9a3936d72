import BdsPro.Library.Machine
import BdsPro.Library.Map
import BdsPro.Network.Protocol

/-! The sender's `ChannelHandler`, one step being what the task does between two of its
await points.  `select!` polls the future of `send_pending` in any order with the other
branches and drops it when another branch completes. -/

namespace BdsPro.Network.Sender

open BdsPro.Library

def maxPendingAcks : Nat := 64

/-- `Flush` carries the identity of its completion handle. -/
inductive ChannelControlMessage
  | data (b : TupleBuffer)
  | flush (done : Nat)
  | terminate
  deriving DecidableEq

def ChannelControlMessage.buffer : ChannelControlMessage → Option TupleBuffer
  | .data b => some b
  | _ => none

inductive ChannelHandlerError
  | closedByOtherSide
  | connectionLost (e : String)
  | protocol (e : String)
  | cancelled
  | terminated
  deriving DecidableEq

inductive Task
  | run
  | flush (done : Nat)
  deriving DecidableEq

/-- The `send_pending` branch of a `select!`: there is none, it was not polled yet, or it
waits for the writer with the buffer it has moved to `wait_for_ack`. -/
inductive SendPending
  | absent
  | notPolled
  | feeding (b : TupleBuffer)
  deriving DecidableEq

inductive Phase
  | head (task : Task)
  | flushing (done : Nat)
  | selecting (task : Task) (send : SendPending)
  | closing (fed : Bool)
  | ended (e : ChannelHandlerError)
  deriving DecidableEq

structure ChannelHandler where
  cancelled : Bool
  pendingWrites : List TupleBuffer
  waitForAck : Map Sequence TupleBuffer
  writer : FramedWrite DataChannelRequest
  phase : Phase
  deriving DecidableEq

namespace ChannelHandler

def new (cancelled : Bool) : ChannelHandler where
  cancelled := cancelled
  pendingWrites := []
  waitForAck := ∅
  writer := .new
  phase := .head .run

def fail (h : ChannelHandler) (e : ChannelHandlerError) : ChannelHandler :=
  { h with phase := .ended e }

def handleRequest (h : ChannelHandler) : ChannelControlMessage → ChannelHandler
  | .data b => { h with pendingWrites := h.pendingWrites ++ [b], phase := .head .run }
  | .flush done => { h with phase := .head (.flush done) }
  | .terminate => { h with phase := .closing false }

def unknownSeq (seq : Sequence) : String :=
  "Protocol Error. Unknown Seq (" ++ toString seq.1 ++ ", " ++ toString seq.2 ++ ")"

def handleResponse (h : ChannelHandler) :
    DataChannelResponse → Except ChannelHandlerError ChannelHandler
  | .close => .error .closedByOtherSide
  | .nackData seq =>
    match h.waitForAck.lookup seq with
    | some write => .ok { h with
        waitForAck := h.waitForAck.erase seq
        pendingWrites := h.pendingWrites ++ [write] }
    | none => .error (.protocol (unknownSeq seq))
  | .ackData seq =>
    match h.waitForAck.lookup seq with
    | some _ => .ok { h with waitForAck := h.waitForAck.erase seq }
    | none => .error (.protocol (unknownSeq seq))

/-- What `reader.next()` yields: `none` is the end of the stream. -/
abbrev Response := Option (Except String DataChannelResponse)

def respond (h : ChannelHandler) (task : Task) : Response → ChannelHandler
  | none => h.fail .closedByOtherSide
  | some (.error e) => h.fail (.connectionLost e)
  | some (.ok r) =>
    match h.handleResponse r with
    | .ok h => { h with phase := .head task }
    | .error e => h.fail e

/-- What `queue.recv()` yields: `none` is a queue that is closed and empty. -/
def request (h : ChannelHandler) : Option ChannelControlMessage → ChannelHandler
  | none => h.fail .cancelled
  | some m => h.handleRequest m

/-- A failed `feed` puts its buffer back. -/
def putBack (h : ChannelHandler) (task : Task) (b : TupleBuffer) : Option ChannelHandler :=
  (h.waitForAck.lookup b.sequence).map fun write =>
    { h with
      pendingWrites := write :: h.pendingWrites
      waitForAck := h.waitForAck.erase b.sequence
      phase := .head task }

def feed (h : ChannelHandler) (task : Task) (b : TupleBuffer) (io : Io) : Option ChannelHandler :=
  (h.writer.pollReady requestCodec io).bind fun w =>
    match io with
    | .complete =>
      match w.startSend requestCodec (.data b) with
      | some w => some { h with writer := w, phase := .head task }
      | none => { h with writer := w }.putBack task b
    | .blocked _ => some { h with writer := w, phase := .selecting task (.feeding b) }
    | .failed _ _ => { h with writer := w }.putBack task b

def sendPending (h : ChannelHandler) (task : Task) (send : SendPending) (io : Io) :
    Option ChannelHandler :=
  match send, h.pendingWrites with
  | .feeding b, _ => h.feed task b io
  | .notPolled, b :: rest =>
    { h with pendingWrites := rest, waitForAck := h.waitForAck.insert b.sequence b }.feed task b io
  | _, _ => none

/-- The `select!` of both loops; only that of `run` receives control requests. -/
def select (h : ChannelHandler) (task : Task) : ChannelHandler :=
  if h.cancelled then h.fail .cancelled
  else if h.pendingWrites = [] ∨ maxPendingAcks ≤ h.waitForAck.size then
    { h with phase := .selecting task .absent }
  else { h with phase := .selecting task .notPolled }

/-- The heads of the loops of `run` and `flush`.  When `flush` is done, `run` goes on. -/
def advance (h : ChannelHandler) : Task → ChannelHandler
  | .run => h.select .run
  | .flush done =>
    if h.pendingWrites = [] ∧ h.waitForAck.size = 0 then { h with phase := .head .run }
    else { h with phase := .flushing done }

def flush (h : ChannelHandler) (done : Nat) (io : Io) : Option ChannelHandler :=
  (h.writer.pollFlush requestCodec io).map fun w =>
    match io with
    | .complete => { h with writer := w }.select (.flush done)
    | .blocked _ => { h with writer := w }
    | .failed _ e => { h with writer := w }.fail (.connectionLost e)

/-- `writer.send(Close)`, whose result is ignored. -/
def close (h : ChannelHandler) (fed : Bool) (io : Io) : Option ChannelHandler :=
  (h.writer.pollSend requestCodec .close fed io).map fun (w, sending) =>
    match sending with
    | .pending fed => { h with writer := w, phase := .closing fed }
    | .done | .failed _ => { h with writer := w }.fail .terminated

inductive Event
  | cancel
  | advance
  | flush (io : Io)
  | cancelled
  | response (r : Response)
  | request (m : Option ChannelControlMessage)
  | sendPending (io : Io)
  | close (io : Io)

def step (h : ChannelHandler) (e : Event) : Option ChannelHandler :=
  match e, h.phase with
  | .cancel, _ => some { h with cancelled := true }
  | .advance, .head task => some (h.advance task)
  | .flush io, .flushing done => h.flush done io
  | .cancelled, .selecting _ _ => if h.cancelled then some (h.fail .cancelled) else none
  | .response r, .selecting task _ => some (h.respond task r)
  | .request m, .selecting .run _ => some (h.request m)
  | .sendPending io, .selecting task send => h.sendPending task send io
  | .close io, .closing fed => h.close fed io
  | _, _ => none

def feeding (h : ChannelHandler) : Option TupleBuffer :=
  match h.phase with
  | .selecting _ (.feeding b) => some b
  | _ => none

/-- The entries of `wait_for_ack` without that of the send in progress. -/
def sentEntries (h : ChannelHandler) : Map Sequence TupleBuffer :=
  match h.feeding with
  | some b => h.waitForAck.erase b.sequence
  | none => h.waitForAck

def acceptedData (h : ChannelHandler) : List TupleBuffer :=
  h.writer.accepted.filterMap DataChannelRequest.buffer

/-- The event is a control request, or answers an entry of `wait_for_ack`, while a send is in
progress: the `select!` drops that send and the handler goes on. -/
def dropsSend (h : ChannelHandler) : Event → Bool
  | .response (some (.ok (.ackData seq))) | .response (some (.ok (.nackData seq))) =>
    h.feeding.isSome && (h.waitForAck.lookup seq).isSome
  | .request (some _) => h.feeding.isSome
  | _ => false

def live (h : ChannelHandler) : Bool :=
  match h.phase with
  | .ended _ => false
  | _ => true

def signals (h : ChannelHandler) (e : Event) : Option Nat :=
  match e, h.phase with
  | .advance, .head (.flush done) =>
    if h.pendingWrites = [] ∧ h.waitForAck.size = 0 then some done else none
  | _, _ => none

end ChannelHandler

structure Trace where
  taken : List ChannelControlMessage
  acked : List TupleBuffer
  nacked : List TupleBuffer
  deriving DecidableEq

def Trace.empty : Trace := ⟨[], [], []⟩

open ChannelHandler in
def Trace.record (t : Trace) (h : ChannelHandler) : Event → Trace
  | .request (some m) => { t with taken := t.taken ++ [m] }
  | .response (some (.ok (.ackData seq))) =>
    { t with acked := t.acked ++ (h.waitForAck.lookup seq).toList }
  | .response (some (.ok (.nackData seq))) =>
    { t with nacked := t.nacked ++ (h.waitForAck.lookup seq).toList }
  | _ => t

def Trace.data (t : Trace) : List TupleBuffer := t.taken.filterMap ChannelControlMessage.buffer

structure ChannelRun where
  handler : ChannelHandler
  trace : Trace
  deriving DecidableEq

namespace ChannelRun

def step (r : ChannelRun) (e : ChannelHandler.Event) : Option ChannelRun :=
  (r.handler.step e).map fun h => ⟨h, r.trace.record r.handler e⟩

/-- No `select!` drops a send that the writer has not accepted yet. -/
def Uninterrupted (r : ChannelRun) (e : ChannelHandler.Event) : Prop :=
  r.handler.dropsSend e = false

instance (r : ChannelRun) (e : ChannelHandler.Event) : Decidable (r.Uninterrupted e) :=
  inferInstanceAs (Decidable (_ = false))

def machine : Machine ChannelRun ChannelHandler.Event := ⟨⟨.new false, .empty⟩, step⟩

end ChannelRun

end BdsPro.Network.Sender
