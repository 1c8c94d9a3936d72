import BdsPro.Network.Sender.Channel

/-! A channel with the completion handles of the Flush messages that its control queue has
accepted, and of those that were signalled or dropped since. -/

namespace BdsPro.Network.Sender

open BdsPro.Library

def ChannelControlMessage.handle : ChannelControlMessage → Option Nat
  | .flush done => some done
  | _ => none

def Phase.waiter : Phase → Option Nat
  | .head (.flush done) | .flushing done | .selecting (.flush done) _ => some done
  | _ => none

def ChannelHandler.Event.handle : ChannelHandler.Event → Option Nat
  | .request (some m) => m.handle
  | _ => none

namespace Channel

def waiter (c : Channel) : Option Nat :=
  match c.stage with
  | .running h => h.phase.waiter
  | _ => none

def waiting (c : Channel) : List Nat := c.queue.filterMap (·.handle)

def Action.submitted : Action → Option ChannelControlMessage
  | .submit m => some m
  | _ => none

def Action.taken : Action → Option Nat
  | .handler e => e.handle
  | _ => none

def ends (c : Channel) (a : Action) : Bool :=
  match a, c.stage with
  | .establish .cancelled, .registering | .retry false, .retrying => true
  | .finish, .running h =>
    match h.phase with
    | .ended e =>
      match e.result with
      | .connectionLost _ => false
      | .cancelled | .closed => true
    | _ => false
  | _, _ => false

end Channel

/-- `senders` is whether the application still has a Sender of the control queue.  `attempts` counts
the registration attempts that have not read yet that their channel is established. -/
structure FlushLedger where
  channel : Channel
  senders : Bool
  attempts : Nat
  accepted : List Nat
  released : List Nat
  deriving DecidableEq

namespace FlushLedger

def releases (c : Channel) (a : Channel.Action) (t : Channel) : List Nat :=
  if t.waiter = none then c.waiter.toList ++ a.taken.toList else []

/-- The channel has a Receiver of the control queue until it is finished, and so has each attempt
until it returns. -/
def received (l : FlushLedger) : Bool := l.channel.stage ≠ .finished ∨ l.attempts ≠ 0

def untold : Channel.Action → Nat
  | .establish .ok => 1
  | _ => 0

/-- The content of the queue is dropped once there is no Receiver and no Sender. -/
def settle (l : FlushLedger) : FlushLedger :=
  if l.received = false ∧ l.senders = false then
    { l with
      channel := { l.channel with queue := [] }
      released := l.released ++ l.channel.waiting }
  else l

/-- `attemptReturns` is `attempt_channel_registration` that reads Ok. -/
inductive Action
  | channel (a : Channel.Action)
  | attemptReturns
  | dropSenders

/-- The queue accepts messages as long as it has a Receiver.  The task of the channel is spawned
before the attempt is told. -/
def step (l : FlushLedger) : Action → Option FlushLedger
  | .channel a =>
    if a.submitted.isSome ∧ (l.received = false ∨ l.senders = false) then none
    else (l.channel.step a).map fun t => settle { l with
      channel := t
      attempts := l.attempts + untold a
      accepted := l.accepted ++ (a.submitted.bind (·.handle)).toList
      released := l.released ++ releases l.channel a t }
  | .attemptReturns =>
    match l.attempts with
    | n + 1 => some (settle { l with attempts := n })
    | 0 => none
  | .dropSenders =>
    some (settle { l with channel := { l.channel with queueOpen := false }, senders := false })

def machine : Machine FlushLedger Action := ⟨⟨.new, true, 0, [], []⟩, step⟩

/-- When the channel ends, no Flush is in its control queue, or neither a Sender nor the Receiver
of an attempt is left; and later on no Flush is put into it. -/
def FlushesTaken (l : FlushLedger) : Action → Prop
  | .channel a =>
    (l.channel.ends a = true → l.channel.waiting = [] ∨ l.senders = false ∧ l.attempts = 0) ∧
      (l.channel.stage = .finished → a.submitted.bind (·.handle) = none)
  | .attemptReturns | .dropSenders => True

instance (l : FlushLedger) : (a : Action) → Decidable (l.FlushesTaken a)
  | .channel _ => inferInstanceAs (Decidable ((_ → _ ∨ _ ∧ _) ∧ (_ → _)))
  | .attemptReturns | .dropSenders => inferInstanceAs (Decidable True)

end FlushLedger

end BdsPro.Network.Sender
