import Mathlib.Data.Prod.Lex
import BdsPro.Network.Sender.AckLedger
import BdsPro.Network.Sender.FlushLedger

/-! Conditions under which a handler goes on, and the steps that bring a flush to its end. -/

namespace BdsPro.Network.Sender

open BdsPro.Library

namespace ChannelHandler

def writeFails : Event → Bool
  | .sendPending (.failed _ _) => true
  | _ => false

def load (h : ChannelHandler) : Nat := 2 * h.pendingWrites.length + h.waitForAck.size

end ChannelHandler

def Phase.rank : Phase → Nat
  | .selecting _ (.feeding _) => 4
  | .head _ => 3
  | .flushing _ => 2
  | _ => 1

namespace ChannelRun

/-- The encoder accepts the frame of every buffer that is taken, no send is dropped before
the writer has accepted it, and the byte stream fails no send. -/
def Sendable (r : ChannelRun) (e : ChannelHandler.Event) : Prop :=
  (∀ b ∈ ChannelHandler.takes e, requestCodec.fits (.data b) = true) ∧ r.Uninterrupted e ∧
    ChannelHandler.writeFails e = false

instance (r : ChannelRun) (e : ChannelHandler.Event) : Decidable (r.Sendable e) :=
  inferInstanceAs (Decidable ((∀ b ∈ ChannelHandler.takes e, _) ∧ _))

def Unanswered (r : ChannelRun) (b : TupleBuffer) : Prop :=
  r.trace.acked.count b + r.trace.nacked.count b < r.handler.sentData.count b

/-- The handler goes on, the byte stream takes what it is offered, or some of it, and
transmitted buffers are acknowledged. -/
inductive Serves (r : ChannelRun) : ChannelHandler.Event → Prop
  | advance : Serves r .advance
  | flush : Serves r (.flush .complete)
  | flushSome (taken : 0 < n) : Serves r (.flush (.blocked n))
  | send : Serves r (.sendPending .complete)
  | sendSome (taken : 0 < n) : Serves r (.sendPending (.blocked n))
  | ack (b : TupleBuffer) (idle : r.handler.feeding = none)
      (entry : r.handler.waitForAck.lookup seq = some b) (unanswered : r.Unanswered b) :
    Serves r (.response (some (.ok (.ackData seq))))

/-- `flush` has returned: every buffer is sent and acknowledged and `run` goes on, or the token
was cancelled. -/
def FlushOver (r : ChannelRun) : Prop :=
  r.handler.phase = .head .run ∧ r.handler.pendingWrites = [] ∧ r.handler.waitForAck.size = 0 ∨
    r.handler.phase = .ended .cancelled

def variant (r : ChannelRun) : Nat ×ₗ Nat :=
  toLex (5 * r.handler.load + r.handler.phase.rank, r.handler.writer.buffered requestCodec)

def Nearer (done : Nat) (r t : ChannelRun) : Prop :=
  t.FlushOver ∨ t.handler.phase.waiter = some done ∧ t.variant < r.variant

end ChannelRun

end BdsPro.Network.Sender
