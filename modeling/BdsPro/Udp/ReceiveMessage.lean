import BdsPro.Udp.Receiver

/-! One call of `receive_message` from its start to its return, with no other operation of the
receiver in between. -/

namespace BdsPro.Udp

open BdsPro.Library

/-- What the call meets: whether the socket yields a datagram, whether the answer to it can be
encoded, and whether the socket takes the answer. -/
structure ReceiveCircumstances where
  arrived : Bool
  encoded : Bool
  answered : Bool
  deriving DecidableEq

namespace UdpReceiver

def keepMessage (r : UdpReceiver) (m : Message) : UdpReceiver :=
  { r with
    receivedSeqs := insert m.seq r.receivedSeqs
    receiveBuffer := r.receiveBuffer ++ [m]
    pushed := r.pushed ++ [m] }

/-- `message` is what the datagram parses to.  The permit is dropped at every return but the
last, where it is forgotten. -/
def receiveMessageAlone (r : UdpReceiver) (message : Option Message) (c : ReceiveCircumstances) :
    Except UdpChannelError (Option Message) × UdpReceiver :=
  if !c.arrived then (.error .io, r)
  else match message with
  | none => (.error .serialization, r)
  | some m =>
    if m.typ = .data then
      if r.bufferSemaphore = 0 then
        if !c.encoded then (.error .serialization, r)
        else
          let sent := if c.answered then [bufferFullMessage] else []
          (.error .receiveBufferFull, { r with socket := r.socket ++ sent })
      else
        let r := { r with bufferSemaphore := r.bufferSemaphore - 1 }
        let r := r.keepMessage m
        if !c.encoded then
          (.error .serialization, { r with bufferSemaphore := r.bufferSemaphore + 1 })
        else if !c.answered then
          (.error .io, { r with bufferSemaphore := r.bufferSemaphore + 1 })
        else (.ok (some m), { r with socket := r.socket ++ [ackMessage m.seq] })
    else (.ok (some m), r)

def receiveSteps (r : UdpReceiver) (m : Message) (answered : Bool) : List Action :=
  let i := r.calls.length
  if m.fromSlice = some m ∧ m.typ = .data then
    if r.bufferSemaphore = 0 then [.receiveMessage m, .reject i answered]
    else [.receiveMessage m, .record i, .push i, .ack i answered] ++
      if answered then [.forget i] else []
  else [.receiveMessage m]

def Atomic (r : UdpReceiver) (message : Option Message) (c : ReceiveCircumstances) : Prop :=
  ∀ e t, r.receiveMessageAlone message c = (.error e, t) →
    t.receivedSeqs = r.receivedSeqs ∧ t.receiveBuffer = r.receiveBuffer ∧
      t.bufferSemaphore = r.bufferSemaphore

end UdpReceiver

end BdsPro.Udp
