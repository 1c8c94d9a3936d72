import BdsPro.Udp.Receiver
import BdsPro.Udp.Sender

/-! A sender and a receiver joined by a network that may lose, delay, duplicate and reorder
datagrams: every datagram a socket has accepted can be delivered at any later time, any
number of times or never. -/

namespace BdsPro.Udp

open BdsPro.Library

/-- `delivered` lists the positions, in the sender's socket, of the datagrams that the
receiver has read. -/
structure UdpChannel where
  sender : UdpSender
  receiver : UdpReceiver
  delivered : List Nat
  deriving DecidableEq

namespace UdpChannel

def new (sending receiving : FlowControlConfig) : UdpChannel where
  sender := UdpSender.new sending
  receiver := UdpReceiver.new receiving
  delivered := []

inductive Action
  | sender (a : UdpSender.Action)
  | receiver (a : UdpReceiver.Action)
  | deliver (i : Nat)

def arrives (c : UdpChannel) : UdpSender.Action → Bool
  | .recvFrom m => m ∈ c.receiver.socket
  | _ => true

def internal : UdpReceiver.Action → Bool
  | .receiveMessage _ => false
  | _ => true

def step (c : UdpChannel) : Action → Option UdpChannel
  | .sender a => if c.arrives a then (c.sender.step a).map fun s => { c with sender := s } else none
  | .receiver a =>
    if internal a then (c.receiver.step a).map fun r => { c with receiver := r } else none
  | .deliver i => c.sender.socket[i]?.map fun m =>
      { c with receiver := c.receiver.receiveMessage m, delivered := c.delivered ++ [i] }

def machine (sending receiving : FlowControlConfig) : Machine UdpChannel Action :=
  ⟨new sending receiving, step⟩

def FreshSeq (c : UdpChannel) : Action → Prop
  | .sender a => c.sender.FreshSeq a
  | _ => True

instance (c : UdpChannel) : (a : Action) → Decidable (c.FreshSeq a)
  | .sender a => inferInstanceAs (Decidable (c.sender.FreshSeq a))
  | .receiver _ | .deliver _ => inferInstanceAs (Decidable True)

def acksSucceed : Action → Bool
  | .receiver a => UdpReceiver.acksSucceed a
  | _ => true

def AcksSent (_ : UdpChannel) (a : Action) : Prop := acksSucceed a = true

def onward (c : UdpChannel) : Machine UdpChannel Action := ⟨c, step⟩

/-- The datagram at position `i` of the sender's socket arrives.  The call of
`receive_message` that reads it can return, and however it is interleaved with the other tasks
it returns `m`, which it has put into the receive buffer and acknowledged. -/
def Delivers (c : UdpChannel) (i : Nat) (m : Message) : Prop :=
  ∃ c', c.step (.deliver i) = some c' ∧
    (∃ t, c'.onward.Reaches AcksSent t ∧
      t.receiver.calls[c.receiver.calls.length]? = some (.returned (.ok (some m)))) ∧
    ∀ t, c'.onward.Reaches AcksSent t → ∀ result,
      t.receiver.calls[c.receiver.calls.length]? = some (.returned result) →
        result = .ok (some m) ∧ m ∈ t.receiver.pushed ∧ ackMessage m.seq ∈ t.receiver.socket

end UdpChannel

end BdsPro.Udp
