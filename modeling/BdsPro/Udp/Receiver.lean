import BdsPro.Library.Machine
import BdsPro.Udp.Message
import Mathlib.Data.Finset.Insert

/-! The receiving side of the library: `receive_message` calls running concurrently with
`receive_from_buffer` and `request_retransmit`. -/

namespace BdsPro.Udp

open BdsPro.Library

/-- How far a `receive_message` call has come with the datagram it has read.  It holds a
buffer permit from `holding` until it is `returned`. -/
inductive ReceiveCall
  | rejecting
  | holding (m : Message)
  | recorded (m : Message)
  | pushed (m : Message)
  | acked (m : Message)
  | returned (result : Except UdpChannelError (Option Message))
  deriving DecidableEq

def ReceiveCall.unpushed : ReceiveCall → Bool
  | .holding _ | .recorded _ => true
  | _ => false

/-- `socket` lists the datagrams the socket has accepted, `pushed` every message that was
ever put into `receiveBuffer`, `handedOut` every message that was ever taken from it. -/
structure UdpReceiver where
  flowControl : FlowControlConfig
  receivedSeqs : Finset Nat
  receiveBuffer : List Message
  bufferSemaphore : Nat
  calls : List ReceiveCall
  socket : List Message
  pushed : List Message
  handedOut : List Message
  deriving DecidableEq

namespace UdpReceiver

def new (config : FlowControlConfig) : UdpReceiver where
  flowControl := config
  receivedSeqs := ∅
  receiveBuffer := []
  bufferSemaphore := config.receiveBufferSize
  calls := []
  socket := []
  pushed := []
  handedOut := []

def receiveMessage (r : UdpReceiver) (m : Message) : UdpReceiver :=
  match m.fromSlice with
  | none => { r with calls := r.calls ++ [.returned (.error .serialization)] }
  | some m =>
    if m.typ = .data then
      if 0 < r.bufferSemaphore then
        { r with bufferSemaphore := r.bufferSemaphore - 1, calls := r.calls ++ [.holding m] }
      else { r with calls := r.calls ++ [.rejecting] }
    else { r with calls := r.calls ++ [.returned (.ok (some m))] }

/-- A full buffer is reported to the sender; the result of `send_to` is ignored. -/
def reject (r : UdpReceiver) (i : Nat) (ok : Bool) : Option UdpReceiver :=
  match r.calls[i]? with
  | some .rejecting =>
    some { r with
      socket := r.socket ++ if ok then [bufferFullMessage] else []
      calls := r.calls.set i (.returned (.error .receiveBufferFull)) }
  | _ => none

def record (r : UdpReceiver) (i : Nat) : Option UdpReceiver :=
  match r.calls[i]? with
  | some (.holding m) =>
    some { r with
      receivedSeqs := insert m.seq r.receivedSeqs
      calls := r.calls.set i (.recorded m) }
  | _ => none

def push (r : UdpReceiver) (i : Nat) : Option UdpReceiver :=
  match r.calls[i]? with
  | some (.recorded m) =>
    some { r with
      receiveBuffer := r.receiveBuffer ++ [m]
      calls := r.calls.set i (.pushed m)
      pushed := r.pushed ++ [m] }
  | _ => none

/-- The ACK is sent.  An error returns from the call, which drops the permit it holds. -/
def ack (r : UdpReceiver) (i : Nat) (ok : Bool) : Option UdpReceiver :=
  match r.calls[i]? with
  | some (.pushed m) =>
    if ok then
      some { r with
        socket := r.socket ++ [ackMessage m.seq]
        calls := r.calls.set i (.acked m) }
    else
      some { r with
        bufferSemaphore := r.bufferSemaphore + 1
        calls := r.calls.set i (.returned (.error .io)) }
  | _ => none

def forget (r : UdpReceiver) (i : Nat) : Option UdpReceiver :=
  match r.calls[i]? with
  | some (.acked m) => some { r with calls := r.calls.set i (.returned (.ok (some m))) }
  | _ => none

def receiveFromBuffer (r : UdpReceiver) : UdpReceiver :=
  match r.receiveBuffer with
  | [] => r
  | m :: rest =>
    { r with
      receiveBuffer := rest
      bufferSemaphore := r.bufferSemaphore + 1
      handedOut := r.handedOut ++ [m] }

def requestRetransmit (r : UdpReceiver) (seq : Nat) (ok : Bool) : UdpReceiver :=
  { r with socket := r.socket ++ if ok then [rqstMessage seq] else [] }

inductive Action
  | receiveMessage (m : Message)
  | reject (i : Nat) (ok : Bool)
  | record (i : Nat)
  | push (i : Nat)
  | ack (i : Nat) (ok : Bool)
  | forget (i : Nat)
  | receiveFromBuffer
  | requestRetransmit (seq : Nat) (ok : Bool)

def step (r : UdpReceiver) : Action → Option UdpReceiver
  | .receiveMessage m => some (r.receiveMessage m)
  | .reject i ok => r.reject i ok
  | .record i => r.record i
  | .push i => r.push i
  | .ack i ok => r.ack i ok
  | .forget i => r.forget i
  | .receiveFromBuffer => some r.receiveFromBuffer
  | .requestRetransmit seq ok => some (r.requestRetransmit seq ok)

def machine (config : FlowControlConfig) : Machine UdpReceiver Action := ⟨new config, step⟩

def acksSucceed : Action → Bool
  | .ack _ ok => ok
  | _ => true

def AcksSent (_ : UdpReceiver) (a : Action) : Prop := acksSucceed a = true

instance (r : UdpReceiver) (a : Action) : Decidable (r.AcksSent a) :=
  inferInstanceAs (Decidable (_ = true))

end UdpReceiver

end BdsPro.Udp
