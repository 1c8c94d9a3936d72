import BdsPro.Network.Sender.Channel

/-! Conditions on the runs of one handler, and the ledger of the Data requests that its writer
has accepted and that wait for an answer. -/

namespace BdsPro.Network.Sender

open BdsPro.Library

namespace ChannelHandler

def takes : Event → Option TupleBuffer
  | .request (some m) => m.buffer
  | _ => none

def answers : Event → Option Sequence
  | .response (some (.ok (.ackData seq))) | .response (some (.ok (.nackData seq))) => some seq
  | _ => none

def sentData (h : ChannelHandler) : List TupleBuffer :=
  h.writer.wire.filterMap DataChannelRequest.buffer

def held (h : ChannelHandler) : Nat := h.pendingWrites.length + h.waitForAck.size

end ChannelHandler

namespace ChannelRun

def FreshKey (r : ChannelRun) (e : ChannelHandler.Event) : Prop :=
  ∀ b ∈ ChannelHandler.takes e, b.sequence ∉ r.trace.data.map TupleBuffer.sequence

instance (r : ChannelRun) (e : ChannelHandler.Event) : Decidable (r.FreshKey e) :=
  inferInstanceAs (Decidable (∀ b ∈ ChannelHandler.takes e, b.sequence ∉ _))

/-- No send starts while its number has an entry in `wait_for_ack`. -/
def KeepsEntries (r : ChannelRun) (e : ChannelHandler.Event) : Prop :=
  r.handler.collides e = false

instance (r : ChannelRun) (e : ChannelHandler.Event) : Decidable (r.KeepsEntries e) :=
  inferInstanceAs (Decidable (_ = false))

end ChannelRun

/-- `unanswered` lists the Data requests that the writer has accepted and that no answer
processed since has named, each with its position among all accepted Data requests. -/
structure AckLedger where
  run : ChannelRun
  unanswered : List (TupleBuffer × Nat)
  deriving DecidableEq

namespace AckLedger

def record (l : AckLedger) (e : ChannelHandler.Event) (r : ChannelRun) :
    List (TupleBuffer × Nat) :=
  l.unanswered.filter (fun p => ChannelHandler.answers e ≠ some p.1.sequence) ++
    r.handler.acceptedData.zipIdx.drop l.run.handler.acceptedData.length

def step (l : AckLedger) (e : ChannelHandler.Event) : Option AckLedger :=
  (l.run.step e).map fun r => ⟨r, l.record e r⟩

def machine : Machine AckLedger ChannelHandler.Event := ⟨⟨ChannelRun.machine.init, []⟩, step⟩

def FreshKey (l : AckLedger) (e : ChannelHandler.Event) : Prop := l.run.FreshKey e

instance (l : AckLedger) (e : ChannelHandler.Event) : Decidable (l.FreshKey e) :=
  inferInstanceAs (Decidable (l.run.FreshKey e))

/-- The numbers are distinct, and no send is dropped before the writer has accepted it. -/
def Undisturbed (l : AckLedger) (e : ChannelHandler.Event) : Prop :=
  l.run.FreshKey e ∧ l.run.Uninterrupted e

instance (l : AckLedger) (e : ChannelHandler.Event) : Decidable (l.Undisturbed e) :=
  inferInstanceAs (Decidable (_ ∧ _))

def flushed (l : AckLedger) : List (TupleBuffer × Nat) :=
  l.unanswered.filter fun p => p.2 < l.run.handler.sentData.length

end AckLedger

end BdsPro.Network.Sender
