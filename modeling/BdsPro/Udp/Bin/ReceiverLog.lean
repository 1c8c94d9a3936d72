import BdsPro.Udp.Bin.Receiver

/-! The receiver program with a log of what it has received, requested and given up, and
with the clock it reads. -/

namespace BdsPro.Udp.Bin

open BdsPro.Library

/-- A DATA packet that was received, an RQST that the socket has accepted, or a request that
the check at `time` has removed because it has timed out. -/
inductive Entry
  | received (seq : Nat)
  | requested (seq time : Nat)
  | dropped (seq time : Nat)
  deriving DecidableEq

def Entry.arrival : Entry → Option Nat
  | .received seq => some seq
  | _ => none

def Entry.Requests (seq : Nat) : Entry → Prop
  | .requested n _ => n = seq
  | _ => False

/-- `clock` is the last reading of the clock. -/
structure ReceiverLog where
  receiver : Receiver
  clock : Nat
  log : List Entry
  deriving DecidableEq

namespace ReceiverLog

open Receiver (Action)

def reading : Action → Option Nat
  | .request true now => some now
  | .check now _ => some now
  | _ => none

def entries (r : Receiver) : Action → List Entry
  | .recvFrom (some m) => if m.typ = .data then [.received m.seq] else []
  | .request true now =>
    match r.phase with
    | .requesting (seq :: _) => [.requested seq now]
    | _ => []
  | .check now order => order.map fun seq => .dropped seq now
  | _ => []

def step (o : ReceiverLog) (a : Action) : Option ReceiverLog :=
  (o.receiver.step a).map fun r =>
    ⟨r, (reading a).getD o.clock, o.log ++ entries o.receiver a⟩

def machine (timeout maxAttempts : Nat) : Machine ReceiverLog Action :=
  ⟨⟨.new timeout maxAttempts, 0, []⟩, step⟩

def Clocked (o : ReceiverLog) (a : Action) : Prop := ∀ now ∈ reading a, o.clock ≤ now

instance (o : ReceiverLog) (a : Action) : Decidable (o.Clocked a) :=
  inferInstanceAs (Decidable (∀ now ∈ reading a, o.clock ≤ now))

/-- Only DATA packets arrive, all sends succeed, and no request times out. -/
def undisturbed : Action → Bool
  | .recvFrom packet => packet.any fun m => m.typ = .data
  | .ack ok => ok
  | .request ok _ => ok
  | .check _ order => order = []

def Undisturbed (_ : ReceiverLog) (a : Action) : Prop := undisturbed a = true

instance (o : ReceiverLog) (a : Action) : Decidable (o.Undisturbed a) :=
  inferInstanceAs (Decidable (_ = true))

def arrivals (o : ReceiverLog) : List Nat := o.log.filterMap Entry.arrival

/-- The loop has processed the packets with the numbers `l`, undisturbed, and waits for the
next one. -/
def Processed (timeout maxAttempts : Nat) (l : List Nat) (o : ReceiverLog) : Prop :=
  (machine timeout maxAttempts).Reaches Undisturbed o ∧ o.receiver.phase = .receiving ∧
    o.arrivals = l

end ReceiverLog

end BdsPro.Udp.Bin
