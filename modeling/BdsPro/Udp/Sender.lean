import BdsPro.Library.Machine
import BdsPro.Library.Map
import BdsPro.Udp.Message

/-! The sending side of the library: `send_message` calls running concurrently with the
three background tasks.  One action is what a task does between two of its await points. -/

namespace BdsPro.Udp

open BdsPro.Library

structure InFlightMessage where
  seq : Nat
  data : String
  sentTime : Nat
  retransmitCount : Nat
  deriving DecidableEq

/-- How far a `send_message` call has come.  It holds a window permit from `acquired` until
it is `returned`. -/
inductive SendPhase
  | acquiring | acquired | stored | tracked | sent
  | returned (result : Except UdpChannelError Unit)
  deriving DecidableEq

structure SendCall where
  seq : Nat
  data : String
  phase : SendPhase
  deriving DecidableEq

def SendPhase.inserted : SendPhase → Bool
  | .tracked | .sent | .returned (.ok ()) | .returned (.error .io) => true
  | _ => false

def SendPhase.holding : SendPhase → Bool
  | .acquired | .stored => true
  | _ => false

def SendPhase.unsaved : SendPhase → Bool
  | .acquiring | .acquired => true
  | _ => false

def SendPhase.transmitted : SendPhase → Bool
  | .sent | .returned (.ok ()) => true
  | _ => false

def SendPhase.over : SendPhase → Bool
  | .returned _ => true
  | _ => false

abbrev Event := MessageType × Nat

/-- `socket` lists the datagrams the socket has accepted.  `received` is the event the
first task is handing to the queue, `toRetransmit` what the timer has still to send. -/
structure UdpSender where
  flowControl : FlowControlConfig
  sentMessages : Map Nat String
  sendWindow : Nat
  inFlight : Map Nat InFlightMessage
  nextSeq : Nat
  calls : List SendCall
  received : Option Event
  events : List Event
  toRetransmit : List (Nat × String)
  socket : List Message
  deriving DecidableEq

namespace UdpSender

def new (config : FlowControlConfig) : UdpSender where
  flowControl := config
  sentMessages := ∅
  sendWindow := config.sendWindowSize
  inFlight := ∅
  nextSeq := 1
  calls := []
  received := none
  events := []
  toRetransmit := []
  socket := []

def eventQueueLen : Nat := 100

def sendMessage (s : UdpSender) (seq : Nat) (data : String) : UdpSender :=
  { s with calls := s.calls ++ [⟨seq, data, .acquiring⟩] }

def sendMessageAutoSeq (s : UdpSender) (data : String) : UdpSender :=
  { s with nextSeq := s.nextSeq + 1 }.sendMessage s.nextSeq data

def callAt (s : UdpSender) (i : Nat) (p : SendPhase) : Option SendCall :=
  s.calls[i]?.filter fun c => c.phase = p

def setPhase (s : UdpSender) (i : Nat) (c : SendCall) (p : SendPhase) : List SendCall :=
  s.calls.set i { c with phase := p }

def acquire (s : UdpSender) (i : Nat) : Option UdpSender :=
  (s.callAt i .acquiring).bind fun c =>
    if 0 < s.sendWindow then
      some { s with sendWindow := s.sendWindow - 1, calls := s.setPhase i c .acquired }
    else none

def sendTimeout (s : UdpSender) (i : Nat) : Option UdpSender :=
  (s.callAt i .acquiring).map fun c =>
    { s with calls := s.setPhase i c (.returned (.error .sendWindowFull)) }

def store (s : UdpSender) (i : Nat) : Option UdpSender :=
  (s.callAt i .acquired).map fun c =>
    { s with sentMessages := s.sentMessages.insert c.seq c.data, calls := s.setPhase i c .stored }

def track (s : UdpSender) (i now : Nat) : Option UdpSender :=
  (s.callAt i .stored).map fun c =>
    { s with
      inFlight := s.inFlight.insert c.seq ⟨c.seq, c.data, now, 0⟩
      calls := s.setPhase i c .tracked }

/-- `socket.send`.  An error returns from the call, which drops the permit it holds. -/
def transmit (s : UdpSender) (i : Nat) (ok : Bool) : Option UdpSender :=
  (s.callAt i .tracked).map fun c =>
    if ok then
      { s with socket := s.socket ++ [dataMessage c.seq c.data], calls := s.setPhase i c .sent }
    else
      { s with
        sendWindow := s.sendWindow + 1
        calls := s.setPhase i c (.returned (.error .io)) }

def forget (s : UdpSender) (i : Nat) : Option UdpSender :=
  (s.callAt i .sent).map fun c => { s with calls := s.setPhase i c (.returned (.ok ())) }

/-- The first task reads a datagram; it only passes RQST and ACK on. -/
def recvFrom (s : UdpSender) (m : Message) : Option UdpSender :=
  if s.received = none then
    match m.fromSlice with
    | some ⟨.rqst, seq, _⟩ => some { s with received := some (.rqst, seq) }
    | some ⟨.ack, seq, _⟩ => some { s with received := some (.ack, seq) }
    | _ => some s
  else none

def enqueue (s : UdpSender) : Option UdpSender :=
  s.received.bind fun e =>
    if s.events.length < eventQueueLen then
      some { s with received := none, events := s.events ++ [e] }
    else none

def resend (s : UdpSender) (seq : Nat) (data : Option String) (ok : Bool) : UdpSender :=
  match data with
  | some data => if ok then { s with socket := s.socket ++ [dataMessage seq data] } else s
  | none => s

def acknowledge (s : UdpSender) (seq : Nat) : UdpSender :=
  match s.inFlight.lookup seq with
  | some _ => { s with inFlight := s.inFlight.erase seq, sendWindow := s.sendWindow + 1 }
  | none => s

def handleEvent (s : UdpSender) (ok : Bool) : Option UdpSender :=
  match s.events with
  | [] => none
  | (.rqst, seq) :: rest =>
    some ({ s with events := rest }.resend seq (s.sentMessages.lookup seq) ok)
  | (.ack, seq) :: rest => some ({ s with events := rest }.acknowledge seq)
  | _ :: rest => some { s with events := rest }

def timedOut (s : UdpSender) (now : Nat) (m : InFlightMessage) : Bool :=
  s.flowControl.ackTimeout < now - m.sentTime

def expired (s : UdpSender) (now : Nat) : Multiset (Nat × String) :=
  (s.inFlight.select fun _ m => s.timedOut now m).map fun e => (e.1, e.2.data)

/-- The timer collects what has timed out, in any order of the map's entries. -/
def tick (s : UdpSender) (now : Nat) (order : List (Nat × String)) : Option UdpSender :=
  if s.toRetransmit = [] ∧ (order : Multiset (Nat × String)) = s.expired now then
    some { s with
      toRetransmit := order
      inFlight := s.inFlight.mapVal fun _ m =>
        if s.timedOut now m then
          { m with sentTime := now, retransmitCount := m.retransmitCount + 1 }
        else m }
  else none

def retransmit (s : UdpSender) (ok : Bool) : Option UdpSender :=
  match s.toRetransmit with
  | [] => none
  | (seq, data) :: rest => some ({ s with toRetransmit := rest }.resend seq (some data) ok)

inductive Action
  | sendMessage (seq : Nat) (data : String)
  | sendMessageAutoSeq (data : String)
  | acquire (i : Nat)
  | sendTimeout (i : Nat)
  | store (i : Nat)
  | track (i now : Nat)
  | transmit (i : Nat) (ok : Bool)
  | forget (i : Nat)
  | recvFrom (m : Message)
  | enqueue
  | handleEvent (ok : Bool)
  | tick (now : Nat) (order : List (Nat × String))
  | retransmit (ok : Bool)

def step (s : UdpSender) : Action → Option UdpSender
  | .sendMessage seq data => some (s.sendMessage seq data)
  | .sendMessageAutoSeq data => some (s.sendMessageAutoSeq data)
  | .acquire i => s.acquire i
  | .sendTimeout i => s.sendTimeout i
  | .store i => s.store i
  | .track i now => s.track i now
  | .transmit i ok => s.transmit i ok
  | .forget i => s.forget i
  | .recvFrom m => s.recvFrom m
  | .enqueue => s.enqueue
  | .handleEvent ok => s.handleEvent ok
  | .tick now order => s.tick now order
  | .retransmit ok => s.retransmit ok

def machine (config : FlowControlConfig) : Machine UdpSender Action := ⟨new config, step⟩

def issues (s : UdpSender) : Action → Option Nat
  | .sendMessage seq _ => some seq
  | .sendMessageAutoSeq _ => some s.nextSeq
  | _ => none

def FreshSeq (s : UdpSender) (a : Action) : Prop :=
  ∀ seq ∈ s.issues a, seq ∉ s.calls.map SendCall.seq

instance (s : UdpSender) (a : Action) : Decidable (s.FreshSeq a) :=
  inferInstanceAs (Decidable (∀ seq ∈ s.issues a, seq ∉ s.calls.map SendCall.seq))

def Idle (s : UdpSender) : Prop := ∀ c ∈ s.calls, c.phase.over = true

instance (s : UdpSender) : Decidable s.Idle :=
  inferInstanceAs (Decidable (∀ c ∈ s.calls, c.phase.over = true))

def autoSeq : Action → Bool
  | .sendMessage _ _ => false
  | _ => true

def timesOut : Action → Bool
  | .sendTimeout _ => true
  | _ => false

/-- The call puts its entry into `in_flight` in the place of one that is still there. -/
def overwrites (s : UdpSender) : Action → Bool
  | .track i _ => (s.callAt i .stored).any fun c => (s.inFlight.lookup c.seq).isSome
  | _ => false

def AutoSeq (_ : UdpSender) (a : Action) : Prop := autoSeq a = true

instance (s : UdpSender) (a : Action) : Decidable (s.AutoSeq a) :=
  inferInstanceAs (Decidable (_ = true))

/-- Every call is one of `send_message_auto_seq`, and gets its permit in time. -/
def InTime (s : UdpSender) (a : Action) : Prop := s.AutoSeq a ∧ timesOut a = false

instance (s : UdpSender) (a : Action) : Decidable (s.InTime a) :=
  inferInstanceAs (Decidable (_ ∧ _))

end UdpSender

end BdsPro.Udp
