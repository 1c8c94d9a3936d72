import BdsPro.Network.Receiver.ChannelHandler
import BdsPro.Network.Sender.AckLedger

/-! The two handlers of a channel, joined by a data connection: each side reads the frames
that the other side's writer has put on the wire, in order and each once, until the
connection ends or fails. -/

namespace BdsPro.Network

open BdsPro.Library

/-- How many frames of the other side's wire each side has read. -/
structure DataConnection where
  sender : Sender.ChannelRun
  receiver : Receiver.ChannelHandler
  requestsRead : Nat
  responsesRead : Nat
  deriving DecidableEq

namespace DataConnection

def new : DataConnection where
  sender := ⟨.new false, .empty⟩
  receiver := .new
  requestsRead := 0
  responsesRead := 0

inductive Action
  | sender (e : Sender.ChannelHandler.Event)
  | receiver (e : Receiver.ChannelHandler.Event)

def senderReads (c : DataConnection) : Sender.ChannelHandler.Event → Bool
  | .response (some (.ok r)) => c.receiver.writer.wire[c.responsesRead]? = some r
  | _ => true

def receiverReads (c : DataConnection) : Receiver.ChannelHandler.Event → Bool
  | .request (some (.ok r)) => c.sender.handler.writer.wire[c.requestsRead]? = some r
  | _ => true

def step (c : DataConnection) : Action → Option DataConnection
  | .sender e =>
    if c.senderReads e then
      (c.sender.step e).map fun s => { c with
        sender := s
        responsesRead := match e with
          | .response (some (.ok _)) => c.responsesRead + 1
          | _ => c.responsesRead }
    else none
  | .receiver e =>
    if c.receiverReads e then
      (c.receiver.step e).map fun r => { c with
        receiver := r
        requestsRead := match e with
          | .request (some (.ok _)) => c.requestsRead + 1
          | _ => c.requestsRead }
    else none

def machine : Machine DataConnection Action := ⟨new, step⟩

def takes : Action → Option TupleBuffer
  | .sender (.request (some m)) => m.buffer
  | _ => none

/-- The Data messages that the sender takes from its queue have pairwise distinct numbers. -/
def FreshKey (c : DataConnection) (a : Action) : Prop :=
  ∀ b ∈ takes a, b.sequence ∉ c.sender.trace.data.map TupleBuffer.sequence

instance (c : DataConnection) (a : Action) : Decidable (c.FreshKey a) :=
  inferInstanceAs (Decidable (∀ b ∈ takes a, b.sequence ∉ _))

def OnSender (C : Sender.ChannelRun → Sender.ChannelHandler.Event → Prop) (c : DataConnection) :
    Action → Prop
  | .sender e => C c.sender e
  | .receiver _ => True

instance (C : Sender.ChannelRun → Sender.ChannelHandler.Event → Prop)
    [∀ r e, Decidable (C r e)] (c : DataConnection) (a : Action) : Decidable (OnSender C c a) :=
  match a with
  | .sender e => inferInstanceAs (Decidable (C c.sender e))
  | .receiver _ => inferInstanceAs (Decidable True)

abbrev KeepsEntries : DataConnection → Action → Prop := OnSender Sender.ChannelRun.KeepsEntries

/-- The connection breaks, a side is cancelled, or the application closes its queue. -/
def breaks : Action → Bool
  | .sender .cancel | .sender (.response none) | .sender (.response (some (.error _)))
  | .sender (.flush (.failed _ _)) | .sender (.sendPending (.failed _ _))
  | .sender (.close (.failed _ _)) | .sender (.request none) => true
  | .receiver .cancel | .receiver .closeQueue | .receiver (.request none)
  | .receiver (.request (some (.error _))) | .receiver (.send (.failed _ _)) => true
  | _ => false

/-- On an unbroken connection without dropped sends, Data messages arrive that differ in their
origin, sequence number or chunk number. -/
def Steady (c : DataConnection) (a : Action) : Prop :=
  breaks a = false ∧ OnSender Sender.ChannelRun.Uninterrupted c a ∧
    ∀ b ∈ takes a, b.identity ∉ c.sender.trace.data.map TupleBuffer.identity

instance (c : DataConnection) (a : Action) : Decidable (c.Steady a) :=
  inferInstanceAs (Decidable (_ ∧ _ ∧ ∀ b ∈ takes a, b.identity ∉ _))

end DataConnection

end BdsPro.Network
