import BdsPro.Network.Receiver.ChannelHandler
import BdsPro.Network.Sender.Channel

/-! One channel of the sender against the receiver.  The receiver's end of a data stream
belongs to the accept loop, which drops it or hands it to a `channel_handler`; who holds it
closes it by dropping it.  The sender reads the end of the stream once the other end has been
closed and every frame on its wire has been read. -/

namespace BdsPro.Network

open BdsPro.Library

inductive Holder
  | acceptLoop
  | channelHandler
  | nobody
  deriving DecidableEq

/-- The data stream of the sender's current handler, as far as the receiver is concerned. -/
structure DataStream where
  holder : Holder
  receiver : Receiver.ChannelHandler
  requestsRead : Nat
  responsesRead : Nat
  deriving DecidableEq

def DataStream.new : DataStream where
  holder := .acceptLoop
  receiver := .new
  requestsRead := 0
  responsesRead := 0

structure ChannelStream where
  sender : Sender.Channel
  stream : DataStream
  deriving DecidableEq

namespace ChannelStream

def new : ChannelStream := ⟨.new, .new⟩

/-- What the sender reads is the next frame of the receiver's wire, the end of the stream, or
an I/O error. -/
def senderReads (c : ChannelStream) : Sender.Channel.Action → Bool
  | .handler (.response (some (.ok r))) =>
    c.stream.receiver.writer.wire[c.stream.responsesRead]? = some r
  | .handler (.response none) =>
    c.stream.holder = .nobody ∧ c.stream.receiver.writer.written = 0 ∧
      c.stream.responsesRead = c.stream.receiver.writer.wire.length
  | _ => true

def receiverReads (c : ChannelStream) : Receiver.ChannelHandler.Event → Bool
  | .request (some (.ok r)) =>
    match c.sender.stage with
    | .running h => h.writer.wire[c.stream.requestsRead]? = some r
    | _ => false
  | _ => true

def dispatch (c : ChannelStream) (registered : Bool) : Option ChannelStream :=
  if c.stream.holder = .acceptLoop then
    some { c with stream :=
      { c.stream with holder := if registered then .channelHandler else .nobody } }
  else none

/-- `channel_handler` has returned, or the receiver is shut down. -/
def drop (c : ChannelStream) : ChannelStream :=
  { c with stream := { c.stream with holder := .nobody } }

inductive Action
  | sender (a : Sender.Channel.Action)
  | receiver (e : Receiver.ChannelHandler.Event)
  | dispatch (registered : Bool)
  | drop

def step (c : ChannelStream) : Action → Option ChannelStream
  | .sender a =>
    if c.senderReads a then
      (c.sender.step a).map fun s => {
        sender := s
        stream := match a with
          | .connect true => .new
          | .handler (.response (some (.ok _))) =>
            { c.stream with responsesRead := c.stream.responsesRead + 1 }
          | _ => c.stream }
    else none
  | .receiver e =>
    if c.stream.holder = .channelHandler ∧ c.receiverReads e then
      (c.stream.receiver.step e).map fun r => { c with stream :=
        { c.stream with
          receiver := r
          requestsRead := match e with
            | .request (some (.ok _)) => c.stream.requestsRead + 1
            | _ => c.stream.requestsRead } }
    else none
  | .dispatch registered => c.dispatch registered
  | .drop => some c.drop

def machine : Machine ChannelStream Action := ⟨new, step⟩

def readsEnd : Action → Bool
  | .sender (.handler (.response none)) => true
  | _ => false

def StaysOpen (_ : ChannelStream) (a : Action) : Prop := readsEnd a = false

instance (c : ChannelStream) (a : Action) : Decidable (c.StaysOpen a) :=
  inferInstanceAs (Decidable (_ = false))

end ChannelStream

end BdsPro.Network
