import BdsPro.Network.Receiver.Service

/-! The receiver's service with the channel tasks that have panicked, until its runtime is torn
down. -/

namespace BdsPro.Network.Receiver

open BdsPro.Library

/-- `panicked` lists the tasks whose `expect` has failed. -/
structure ShutdownLedger where
  service : Service
  panicked : List Nat

namespace ShutdownLedger

open Service (Action)

def panics (s : Service) : Action → List Nat
  | .retry i => if s.controlClosed then [i] else []
  | _ => []

def step (l : ShutdownLedger) (a : Action) : Option ShutdownLedger :=
  (l.service.step a).map fun s => ⟨s, l.panicked ++ panics l.service a⟩

def machine : Machine ShutdownLedger Action := ⟨⟨.new, []⟩, step⟩

/-- The control queue is closed while no task waits to reopen its channel, and afterwards no
stream ends in a way that makes its task reopen the channel. -/
def orders (s : Service) : Action → Bool
  | .shutdown => s.grants.all fun g => g.task ≠ .retrying
  | .finish _ .network | .finish _ .closedByOtherSide => !s.controlClosed
  | _ => true

def Orderly (l : ShutdownLedger) (a : Action) : Prop := orders l.service a = true

instance (l : ShutdownLedger) (a : Action) : Decidable (l.Orderly a) :=
  inferInstanceAs (Decidable (_ = true))

end ShutdownLedger

end BdsPro.Network.Receiver
