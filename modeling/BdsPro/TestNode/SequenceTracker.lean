import BdsPro.Library.Checked
import BdsPro.Library.FirstMissing
import BdsPro.Library.Machine

/-! `MissingSequenceTracker` of the test node.  A call that panics has no result; the numbers
are unsigned with 64 bits, and leaving their range is a panic. -/

namespace BdsPro.TestNode

open BdsPro.Library

structure MissingSequenceTracker where
  seen : Finset Nat
  highestSeen : Nat
  lowestRemoved : Nat
  deriving DecidableEq

namespace MissingSequenceTracker

def new : MissingSequenceTracker where
  seen := ∅
  highestSeen := 0
  lowestRemoved := 0

/-- The loop of `query` from `i` on, with `rounds` left; it ends in `unreachable!()`. -/
def scan (t : MissingSequenceTracker) : (rounds i : Nat) → Option Nat
  | 0, _ => none
  | rounds + 1, i =>
    (Checked.add 64 i t.lowestRemoved).bind fun n =>
      if n ∈ t.seen then t.scan rounds (i + 1) else some n

def query (t : MissingSequenceTracker) : Option Nat :=
  (Checked.sub t.highestSeen t.lowestRemoved).bind fun n =>
    if t.seen.card = n then Checked.add 64 t.highestSeen 1 else t.scan t.highestSeen 1

def prune (t : MissingSequenceTracker) : Option MissingSequenceTracker :=
  if 1000 < t.seen.card then
    t.query.bind fun lowest =>
      (Checked.sub lowest 1).map fun removed =>
        { t with seen := t.seen.filter (lowest < ·), lowestRemoved := removed }
  else some t

def insertNum (t : MissingSequenceTracker) (num : Nat) : MissingSequenceTracker :=
  { t with
    highestSeen := if t.highestSeen < num then num else t.highestSeen
    seen := insert num t.seen }

def add (t : MissingSequenceTracker) (num : Nat) : Option MissingSequenceTracker :=
  if 0 < num ∧ num ∉ t.seen then (t.insertNum num).prune else none

def addAll (l : List Nat) : Option MissingSequenceTracker := l.foldlM add new

end MissingSequenceTracker

structure TrackerHistory where
  tracker : MissingSequenceTracker
  added : Finset Nat
  deriving DecidableEq

namespace TrackerHistory

def step (h : TrackerHistory) (num : Nat) : Option TrackerHistory :=
  (h.tracker.add num).map fun t => ⟨t, insert num h.added⟩

def machine : Machine TrackerHistory Nat := ⟨⟨.new, ∅⟩, step⟩

/-- The number does not lie in the stretch that the tracker has pruned. -/
def Kept (h : TrackerHistory) (num : Nat) : Prop :=
  num < 2 ^ 64 ∧ (num = 0 ∨ h.tracker.lowestRemoved < num)

instance (h : TrackerHistory) (num : Nat) : Decidable (h.Kept num) :=
  inferInstanceAs (Decidable (_ ∧ _))

end TrackerHistory

end BdsPro.TestNode
