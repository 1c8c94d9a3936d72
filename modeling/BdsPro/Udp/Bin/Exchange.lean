import BdsPro.Udp.Bin.Receiver
import BdsPro.Udp.Sender

/-! The sender and the receiver program joined by a network that may lose, delay, duplicate and
reorder datagrams: what a socket has accepted can be delivered at any later time, any number of
times or never.  The receiver program hears from this sender only. -/

namespace BdsPro.Udp

open BdsPro.Library

namespace UdpSender

def message (s : UdpSender) : Action → Option Message
  | .sendMessage seq data => some (dataMessage seq data)
  | .sendMessageAutoSeq data => some (dataMessage s.nextSeq data)
  | _ => none

/-- A number of 64 bits, and a datagram that fits the buffers that the sockets read into. -/
def Fits (m : Message) : Prop := m.seq < 2 ^ 64 ∧ m.encodedLen ≤ recvBufferLen

instance (m : Message) : Decidable (Fits m) := inferInstanceAs (Decidable (_ ∧ _))

/-- Every call is one of `send_message_auto_seq`, gets its permit in time and sends what fits. -/
def Fitting (s : UdpSender) (a : Action) : Prop := s.InTime a ∧ ∀ m ∈ s.message a, Fits m

instance (s : UdpSender) (a : Action) : Decidable (s.Fitting a) :=
  inferInstanceAs (Decidable (_ ∧ _))

end UdpSender

namespace Bin

structure Exchange where
  sender : UdpSender
  receiver : Receiver
  deriving DecidableEq

namespace Exchange

def new (config : FlowControlConfig) (timeout maxAttempts : Nat) : Exchange where
  sender := UdpSender.new config
  receiver := Receiver.new timeout maxAttempts

/-- The receiver reads the datagram at position `i` of the sender's socket. -/
inductive Action
  | sender (a : UdpSender.Action)
  | receiver (a : Receiver.Action)
  | deliver (i : Nat)

def arrives (x : Exchange) : UdpSender.Action → Bool
  | .recvFrom m => m ∈ x.receiver.socket
  | _ => true

def internal : Receiver.Action → Bool
  | .recvFrom _ => false
  | _ => true

def step (x : Exchange) : Action → Option Exchange
  | .sender a =>
    if x.arrives a then (x.sender.step a).map fun s => { x with sender := s } else none
  | .receiver a =>
    if internal a then (x.receiver.step a).map fun r => { x with receiver := r } else none
  | .deliver i => x.sender.socket[i]?.bind fun m =>
      (x.receiver.recvFrom m.fromSlice).map fun r => { x with receiver := r }

def machine (config : FlowControlConfig) (timeout maxAttempts : Nat) : Machine Exchange Action :=
  ⟨new config timeout maxAttempts, step⟩

def InTime (x : Exchange) : Action → Prop
  | .sender a => x.sender.InTime a
  | _ => True

instance (x : Exchange) : (a : Action) → Decidable (x.InTime a)
  | .sender a => inferInstanceAs (Decidable (x.sender.InTime a))
  | .receiver _ | .deliver _ => inferInstanceAs (Decidable True)

def Fitting (x : Exchange) : Action → Prop
  | .sender a => x.sender.Fitting a
  | _ => True

instance (x : Exchange) : (a : Action) → Decidable (x.Fitting a)
  | .sender a => inferInstanceAs (Decidable (x.sender.Fitting a))
  | .receiver _ | .deliver _ => inferInstanceAs (Decidable True)

/-- The calls that have been made go on, and nobody makes another one.  The sockets accept what
they are given. -/
def quiet : Action → Bool
  | .sender (.sendMessage _ _) | .sender (.sendMessageAutoSeq _) | .sender (.sendTimeout _) => false
  | .sender (.transmit _ ok) | .sender (.handleEvent ok) | .sender (.retransmit ok) => ok
  | .receiver (.ack ok) | .receiver (.request ok _) => ok
  | _ => true

def reading : Action → Option Nat
  | .sender (.track _ now) | .sender (.tick now _) => some now
  | .receiver (.request _ now) | .receiver (.check now _) => some now
  | _ => none

def Quiet (now : Nat) (_ : Exchange) (a : Action) : Prop :=
  quiet a = true ∧ ∀ time ∈ reading a, time = now

structure Complete (next : Nat) (x : Exchange) : Prop where
  idle : x.sender.Idle
  issued : x.sender.nextSeq = next
  acknowledged : ∀ n, x.sender.inFlight.lookup n = none
  received : ∀ n, n ∈ x.receiver.receivedSeqs ↔ 1 ≤ n ∧ n < next
  requested : ∀ n, x.receiver.retransmissionRequests.lookup n = none

end Exchange

end Bin

end BdsPro.Udp
