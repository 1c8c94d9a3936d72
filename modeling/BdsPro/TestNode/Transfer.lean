import BdsPro.Library.Segments
import BdsPro.Network.Sender.FlushLedger
import BdsPro.TestNode.NetworkSource

/-! A channel from the control queue of its sender to what the source of another node emits,
over all its data connections.  What a handler has written may still arrive when the sender has
given it up. -/

namespace BdsPro.TestNode

open BdsPro.Library BdsPro.Network

/-- `past` lists the frames on the data streams whose sending handlers are gone, in the order of
the streams, and `accepted` counts the streams that the source's handlers have come to.  Each
side has read so many frames of the other side's wire.  `submitted` is history. -/
structure Transfer where
  sender : Sender.Channel
  source : NetworkSource
  past : List (List DataChannelRequest)
  accepted : Nat
  requestsRead : Nat
  responsesRead : Nat
  submitted : List Sender.ChannelControlMessage

namespace Transfer

def new : Transfer where
  sender := .new
  source := .new
  past := []
  accepted := 0
  requestsRead := 0
  responsesRead := 0
  submitted := []

def live (c : Sender.Channel) : List (List DataChannelRequest) :=
  match c.stage with
  | .running h => [h.writer.wire]
  | _ => []

def dropped (c : Sender.Channel) : Sender.Channel.Action → List (List DataChannelRequest)
  | .finish => live c
  | _ => []

def streams (c : Transfer) : List (List DataChannelRequest) := c.past ++ live c.sender

def senderReads (c : Transfer) : Sender.Channel.Action → Bool
  | .handler (.response (some (.ok r))) =>
    c.accepted = c.past.length + 1 ∧ c.source.handler.writer.wire[c.responsesRead]? = some r
  | _ => true

def sourceReads (c : Transfer) : NetworkSource.Action → Bool
  | .connect => false
  | .handle (.request (some (.ok r))) =>
    0 < c.accepted ∧ (c.streams[c.accepted - 1]?.getD [])[c.requestsRead]? = some r
  | _ => true

inductive Action
  | sender (a : Sender.Channel.Action)
  | source (a : NetworkSource.Action)
  | accept (k : Nat)

/-- A stream is accepted after those that were opened before it, some of which may have been
refused or dropped. -/
def step (c : Transfer) : Action → Option Transfer
  | .sender a =>
    if c.senderReads a then
      (c.sender.step a).map fun s => { c with
        sender := s
        past := c.past ++ dropped c.sender a
        responsesRead := match a with
          | .connect true => 0
          | .handler (.response (some (.ok _))) => c.responsesRead + 1
          | _ => c.responsesRead
        submitted := c.submitted ++ a.submitted.toList }
    else none
  | .source a =>
    if c.sourceReads a then
      (c.source.step a).map fun s => { c with
        source := s
        requestsRead := match a with
          | .handle (.request (some (.ok _))) => c.requestsRead + 1
          | _ => c.requestsRead }
    else none
  | .accept k =>
    if c.accepted ≤ k ∧ k < c.streams.length then
      c.source.connect.map fun s => { c with
        source := s
        accepted := k + 1
        requestsRead := 0 }
    else none

def machine : Machine Transfer Action := ⟨new, step⟩

def submittedData (c : Transfer) : List TupleBuffer :=
  c.submitted.filterMap Sender.ChannelControlMessage.buffer

def signals (c : Transfer) (e : Sender.ChannelHandler.Event) : Option Nat :=
  match c.sender.stage with
  | .running h => h.signals e
  | _ => none

def fresh (c : Transfer) : Action → Bool
  | .sender (.submit (.data b)) => b.sequence ∉ c.submittedData.map TupleBuffer.sequence
  | _ => true

def Fresh (c : Transfer) (a : Action) : Prop := c.fresh a = true

instance (c : Transfer) (a : Action) : Decidable (c.Fresh a) :=
  inferInstanceAs (Decidable (_ = true))

/-- No handler of the sender ends while it holds a buffer. -/
def KeepsBuffers (c : Transfer) : Action → Prop
  | .sender a => c.sender.KeepsBuffers a
  | _ => True

instance (c : Transfer) : (a : Action) → Decidable (c.KeepsBuffers a)
  | .sender a => inferInstanceAs (Decidable (c.sender.KeepsBuffers a))
  | .source _ | .accept _ => inferInstanceAs (Decidable True)

end Transfer

end BdsPro.TestNode
