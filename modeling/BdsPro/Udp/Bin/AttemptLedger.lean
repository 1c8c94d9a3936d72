import BdsPro.Library.Log
import BdsPro.Udp.Bin.ReceiverLog

/-! The receiver program with its log, and with the numbers for which its bookkeeping of
attempts went a way of its own. -/

namespace BdsPro.Udp.Bin

open BdsPro.Library

/-- `skipped` lists the numbers for which an attempt was counted and no RQST was sent, `late`
those that arrived while attempts were counted for them and no request was pending. -/
structure AttemptLedger where
  run : ReceiverLog
  skipped : List Nat
  late : List Nat
  deriving DecidableEq

namespace AttemptLedger

open Receiver (Action)

def skips (r : Receiver) : Action → List Nat
  | .check _ order => order.filter fun seq => r.attempts seq < r.maxRetransmissionAttempts
  | _ => []

def arrivesLate (r : Receiver) : Action → List Nat
  | .recvFrom (some m) =>
    if m.typ = .data ∧ r.retransmissionRequests.lookup m.seq = none ∧
        (r.retransmissionAttempts.lookup m.seq).isSome then [m.seq] else []
  | _ => []

def step (l : AttemptLedger) (a : Action) : Option AttemptLedger :=
  (l.run.step a).map fun o =>
    ⟨o, l.skipped ++ skips l.run.receiver a, l.late ++ arrivesLate l.run.receiver a⟩

def machine (timeout maxAttempts : Nat) : Machine AttemptLedger Action :=
  ⟨⟨(ReceiverLog.machine timeout maxAttempts).init, [], []⟩, step⟩

def Clocked (l : AttemptLedger) (a : Action) : Prop := l.run.Clocked a

instance (l : AttemptLedger) (a : Action) : Decidable (l.Clocked a) :=
  inferInstanceAs (Decidable (l.run.Clocked a))

def LastTimedOut (timeout : Nat) (o : ReceiverLog) (seq : Nat) : Prop :=
  ∃ last rest now, Log.Latest (Entry.Requests seq) o.log (.requested seq last) rest ∧
    .dropped seq now ∈ rest ∧ last + timeout < now

def NeverRequested (M : Machine AttemptLedger Action) (l : AttemptLedger) (seq : Nat) : Prop :=
  ∀ t, (M.resume l).Reaches Clocked t → seq ∉ t.run.receiver.receivedSeqs →
    t.run.receiver.socket.count (rqstMessage seq) =
      l.run.receiver.socket.count (rqstMessage seq)

end AttemptLedger

end BdsPro.Udp.Bin
