import BdsPro.TestNode.Generator
import BdsPro.TestNode.SequenceTracker
import Mathlib.Algebra.Order.Group.Unbundled.Int

/-! The sink of the test node that checks what it receives and gives a verdict when it is
stopped.  A call that panics has no result. -/

namespace BdsPro.TestNode

open BdsPro.Library BdsPro.Network

/-- `errors` lists what `execute` has reported. -/
structure PrintSink where
  sequenceTracker : MissingSequenceTracker
  counter : Nat
  expectedMessages : Option Nat
  expectedMessagesUncertainty : Option Nat
  errors : List String
  deriving DecidableEq

structure StopReport where
  lastSequence : Nat
  error : Option String
  deriving DecidableEq

namespace PrintSink

def new (expected uncertainty : Option Nat) : PrintSink where
  sequenceTracker := .new
  counter := 0
  expectedMessages := expected
  expectedMessagesUncertainty := uncertainty
  errors := []

/-- `fetch_add` wraps around. -/
def execute (s : PrintSink) (data : TupleBuffer) : Option PrintSink :=
  (verifyTupleBuffer data).bind fun valid =>
    (s.sequenceTracker.add data.sequenceNumber).map fun tracker =>
      { s with
        sequenceTracker := tracker
        counter := (s.counter + 1) % 2 ^ 64
        errors := s.errors ++ if valid then [] else ["Invalid data received"] }

def executeAll (s : PrintSink) (l : List TupleBuffer) : Option PrintSink := l.foldlM execute s

/-- The upper bound is computed only where the lower one is met. -/
def receiveCheck (s : PrintSink) : Option Bool :=
  match s.expectedMessages with
  | none => some true
  | some expected =>
    let uncertainty := s.expectedMessagesUncertainty.getD 0
    (Checked.sub expected uncertainty).bind fun low =>
      if low ≤ s.counter then
        (Checked.add 64 expected uncertainty).map fun high => s.counter ≤ high
      else some false

def failure (s : PrintSink) : String :=
  let counter := s.counter
  let expected := s.expectedMessages.getD 0
  let uncertainty := s.expectedMessagesUncertainty.getD 0
  s!"Received {counter} messages, but expected {expected} messages (uncertainty: {uncertainty})"

def stop (s : PrintSink) : Option StopReport :=
  s.sequenceTracker.query.bind fun missing =>
    (Checked.sub missing 1).bind fun last =>
      s.receiveCheck.map fun ok => ⟨last, if ok then none else some s.failure⟩

def Reports (expected uncertainty : Option Nat) (numbers : List Nat) (report : StopReport) :
    Prop :=
  IsGreatest {n | ∀ k, 0 < k → k ≤ n → k ∈ numbers} report.lastSequence ∧
    (report.error ≠ none ↔ ∃ e, expected = some e ∧
      (uncertainty.getD 0 : Int) < |(numbers.length : Int) - e|)

end PrintSink

end BdsPro.TestNode
