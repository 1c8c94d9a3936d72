import BdsPro.Library.Machine
import BdsPro.Library.Map
import BdsPro.Udp.Message

/-! The receiver program, which detects gaps in the sequence numbers and requests what is
missing.  One step is what its only task does between two of its await points. -/

namespace BdsPro.Udp.Bin

open BdsPro.Library

/-- The task waits for a datagram, for its socket to take an ACK or the next RQST, or is about
to check for timeouts.  It has stopped after a panic or an error returned from `main`. -/
inductive Phase
  | receiving
  | acking (seq : Nat)
  | requesting (missing : List Nat)
  | checking
  | stopped
  deriving DecidableEq

/-- `socket` lists the datagrams the socket has accepted.  Times are in milliseconds. -/
structure Receiver where
  retransmissionTimeout : Nat
  maxRetransmissionAttempts : Nat
  receivedSeqs : Finset Nat
  minSeq : Option Nat
  maxSeq : Option Nat
  retransmissionRequests : Map Nat Nat
  retransmissionAttempts : Map Nat Nat
  socket : List Message
  phase : Phase
  deriving DecidableEq

namespace Receiver

/-- `main` sets 2000 and 3. -/
def new (timeout maxAttempts : Nat) : Receiver where
  retransmissionTimeout := timeout
  maxRetransmissionAttempts := maxAttempts
  receivedSeqs := ∅
  minSeq := none
  maxSeq := none
  retransmissionRequests := ∅
  retransmissionAttempts := ∅
  socket := []
  phase := .receiving

def attempts (r : Receiver) (seq : Nat) : Nat := (r.retransmissionAttempts.lookup seq).getD 0

def exceeded (r : Receiver) (seq : Nat) : Bool :=
  (r.retransmissionAttempts.lookup seq).any (r.maxRetransmissionAttempts ≤ ·)

/-- One bound without the other is `unreachable!()`. -/
def updateRange (r : Receiver) (seq : Nat) : Option Receiver :=
  match r.minSeq, r.maxSeq with
  | none, none => some { r with minSeq := some seq, maxSeq := some seq }
  | some min, some max => some { r with
      minSeq := if seq < min then some seq else some min
      maxSeq := if max < seq then some seq else some max }
  | _, _ => none

def settle (r : Receiver) (seq : Nat) : Receiver :=
  match r.retransmissionRequests.lookup seq with
  | some _ => { r with
      retransmissionRequests := r.retransmissionRequests.erase seq
      retransmissionAttempts := r.retransmissionAttempts.erase seq }
  | none => r

def insertSeq (r : Receiver) (seq : Nat) : Receiver :=
  { r with receivedSeqs := insert seq r.receivedSeqs }

def record (r : Receiver) (seq : Nat) : Receiver :=
  match (r.insertSeq seq).updateRange seq with
  | some r => { r.settle seq with phase := .acking seq }
  | none => { r.insertSeq seq with phase := .stopped }

/-- What `serde_json::from_slice` makes of a datagram: `none` does not parse. -/
abbrev Packet := Option Message

def recvFrom (r : Receiver) (packet : Packet) : Option Receiver :=
  if r.phase = .receiving then
    match packet with
    | some m => if m.typ = .data then some (r.record m.seq) else some { r with phase := .checking }
    | none => some { r with phase := .checking }
  else none

def missing (r : Receiver) (min max : Nat) : List Nat :=
  (List.range' min (max + 1 - min)).filter fun seq =>
    seq ∉ r.receivedSeqs ∧ r.retransmissionRequests.lookup seq = none ∧ r.exceeded seq = false

def detect (r : Receiver) : Phase :=
  match r.minSeq, r.maxSeq with
  | some min, some max => .requesting (r.missing min max)
  | _, _ => .checking

/-- An ACK that cannot be sent is a panic. -/
def ack (r : Receiver) (ok : Bool) : Option Receiver :=
  match r.phase with
  | .acking seq =>
    if ok then some { r with socket := r.socket ++ [ackMessage seq], phase := r.detect }
    else some { r with phase := .stopped }
  | _ => none

def track (r : Receiver) (seq now : Nat) : Receiver :=
  { r with
    retransmissionRequests := r.retransmissionRequests.insert seq now
    retransmissionAttempts := r.retransmissionAttempts.insert seq (r.attempts seq + 1) }

def request (r : Receiver) (ok : Bool) (now : Nat) : Option Receiver :=
  match r.phase with
  | .requesting (seq :: rest) =>
    if ok then some { r.track seq now with
      socket := r.socket ++ [rqstMessage seq]
      phase := .requesting rest }
    else some { r with phase := .stopped }
  | _ => none

def timedOut (r : Receiver) (now : Nat) : Multiset Nat :=
  (r.retransmissionRequests.select fun _ time => r.retransmissionTimeout < now - time).map Prod.fst

/-- A request that has timed out is only counted, as the sender's address is not known. -/
def retry (r : Receiver) (seq : Nat) : Receiver :=
  if r.attempts seq < r.maxRetransmissionAttempts then { r with
    retransmissionRequests := r.retransmissionRequests.erase seq
    retransmissionAttempts := r.retransmissionAttempts.insert seq (r.attempts seq + 1) }
  else { r with retransmissionRequests := r.retransmissionRequests.erase seq }

/-- `check_retransmission_timeouts`, which meets the entries of the map in any order. -/
def check (r : Receiver) (now : Nat) (order : List Nat) : Option Receiver :=
  if (r.phase = .requesting [] ∨ r.phase = .checking) ∧
      (order : Multiset Nat) = r.timedOut now then
    some { order.foldl retry r with phase := .receiving }
  else none

inductive Action
  | recvFrom (packet : Packet)
  | ack (ok : Bool)
  | request (ok : Bool) (now : Nat)
  | check (now : Nat) (order : List Nat)

def step (r : Receiver) : Action → Option Receiver
  | .recvFrom packet => r.recvFrom packet
  | .ack ok => r.ack ok
  | .request ok now => r.request ok now
  | .check now order => r.check now order

def machine (timeout maxAttempts : Nat) : Machine Receiver Action :=
  ⟨new timeout maxAttempts, step⟩

/-- `detect_and_request_missing_sequences` has run, and the timeouts are not checked yet. -/
def Detected (r : Receiver) : Prop := r.phase = .requesting []

instance (r : Receiver) : Decidable r.Detected := inferInstanceAs (Decidable (_ = _))

inductive Standing
  | received | pending | exhausted
  deriving DecidableEq

def Stands (r : Receiver) (seq : Nat) : Standing → Prop
  | .received => seq ∈ r.receivedSeqs
  | .pending => ∃ time, r.retransmissionRequests.lookup seq = some time
  | .exhausted => seq ∉ r.receivedSeqs ∧ r.retransmissionRequests.lookup seq = none ∧
      ∃ n, r.retransmissionAttempts.lookup seq = some n ∧ r.maxRetransmissionAttempts ≤ n

end Receiver

end BdsPro.Udp.Bin
