import BdsPro.Library.Map
import BdsPro.Network.Sender.ConnectionHandler

/-! The sender's service: the calls of `register_channel`, the dispatcher that reads them from one
queue, and the connection handlers it creates, one for each target. -/

namespace BdsPro.Network.Sender

open BdsPro.Library

/-- A call waits for room in the queue of the service, or for its control queue, or has
returned. -/
inductive CallPhase
  | sending | waiting | returned (ok : Bool)
  deriving DecidableEq

structure Call where
  connection : ConnectionIdentifier
  channel : ChannelIdentifier
  phase : CallPhase
  deriving DecidableEq

structure NetworkingServiceControlMessage where
  connection : ConnectionIdentifier
  channel : ChannelIdentifier
  call : Nat
  deriving DecidableEq

/-- The dispatcher receives, creates the handler for a message if there is none, sends the
registration to it, or has returned. -/
inductive Dispatcher
  | receiving
  | creating (m : NetworkingServiceControlMessage)
  | forwarding (m : NetworkingServiceControlMessage)
  | ended
  deriving DecidableEq

def Dispatcher.hand : Dispatcher → List NetworkingServiceControlMessage
  | .creating m | .forwarding m => [m]
  | _ => []

/-- The runtime has the tasks of the service.  `shutdown` takes it and cancels the token, and then
shuts it down. -/
inductive RuntimePhase
  | running | shuttingDown | gone
  deriving DecidableEq

/-- History: `submitted` lists the messages that came into the queue, and `forwarded` those that
went to a handler, each in its order. -/
structure NetworkService where
  runtime : RuntimePhase
  queue : List NetworkingServiceControlMessage
  dispatcher : Dispatcher
  connections : Map ConnectionIdentifier ConnectionHandler
  calls : List Call
  submitted : List NetworkingServiceControlMessage
  forwarded : List NetworkingServiceControlMessage

namespace NetworkService

def start : NetworkService where
  runtime := .running
  queue := []
  dispatcher := .receiving
  connections := ∅
  calls := []
  submitted := []
  forwarded := []

def queueLen : Nat := 5

def forwardedTo (s : NetworkService) (k : ConnectionIdentifier) :
    List NetworkingServiceControlMessage :=
  s.forwarded.filter (·.connection = k)

def registerChannel (s : NetworkService) (k : ConnectionIdentifier) (c : ChannelIdentifier) :
    NetworkService :=
  { s with calls := s.calls ++ [⟨k, c, .sending⟩] }

def send (s : NetworkService) (i : Nat) : Option NetworkService :=
  s.calls[i]?.bind fun call =>
    if call.phase = .sending then
      if s.dispatcher = .ended then
        some { s with calls := s.calls.set i { call with phase := .returned false } }
      else if s.queue.length < queueLen then some { s with
        calls := s.calls.set i { call with phase := .waiting }
        queue := s.queue ++ [⟨call.connection, call.channel, i⟩]
        submitted := s.submitted ++ [⟨call.connection, call.channel, i⟩] }
      else none
    else none

def receive (s : NetworkService) : Option NetworkService :=
  match s.dispatcher, s.queue with
  | .receiving, m :: rest => some { s with queue := rest, dispatcher := .creating m }
  | _, _ => none

def create (s : NetworkService) : Option NetworkService :=
  match s.dispatcher with
  | .creating m => some { s with
    dispatcher := .forwarding m
    connections := if (s.connections.lookup m.connection).isSome then s.connections
      else s.connections.insert m.connection .new }
  | _ => none

def forward (s : NetworkService) : Option NetworkService :=
  match s.dispatcher with
  | .forwarding m => do
    let handler ← s.connections.lookup m.connection
    let handler ← handler.register m.channel
    return { s with
      dispatcher := .receiving
      connections := s.connections.insert m.connection handler
      forwarded := s.forwarded ++ [m] }
  | _ => none

/-- The task of an attempt gives the control queue to the caller, which always waits for it. -/
def respond (s : NetworkService) (k : ConnectionIdentifier) (i : Nat) : Option NetworkService := do
  let handler ← s.connections.lookup k
  let attempt ← handler.attempts[i]?
  let handler ← handler.respond i true
  let m ← (s.forwardedTo k)[attempt.registration]?
  return { s with
    connections := s.connections.insert k handler
    calls := s.calls.modify m.call fun call => { call with phase := .returned true } }

def ownStep : ConnectionHandler.Action → Bool
  | .cancel | .register _ | .respond _ _ => false
  | _ => true

def connection (s : NetworkService) (k : ConnectionIdentifier) (a : ConnectionHandler.Action) :
    Option NetworkService :=
  if ownStep a then do
    let handler ← s.connections.lookup k
    let handler ← handler.step a
    return { s with connections := s.connections.insert k handler }
  else none

/-- `on_cancel`.  A message in hand is dropped. -/
def stop (s : NetworkService) : Option NetworkService :=
  if s.runtime = .shuttingDown ∧ s.dispatcher ≠ .ended then some { s with
    dispatcher := .ended
    connections := s.connections.mapVal fun _ handler => { handler with cancelled := true }
    calls := s.calls.mapIdx fun i call =>
      if i ∈ s.dispatcher.hand.map (·.call) then { call with phase := .returned false }
      else call }
  else none

def shutdown (s : NetworkService) : Option NetworkService :=
  if s.runtime = .running then some { s with runtime := .shuttingDown } else none

/-- `shutdown_timeout` drops the tasks, and with them what their queues hold.  The queue of the
service is closed, but the service itself keeps it. -/
def tearDown (s : NetworkService) : Option NetworkService :=
  if s.runtime = .shuttingDown then some { s with
    runtime := .gone
    dispatcher := .ended
    calls := s.calls.mapIdx fun i call =>
      if call.phase = .waiting ∧ i ∉ s.queue.map (·.call) then
        { call with phase := .returned false }
      else call }
  else none

inductive Action
  | registerChannel (k : ConnectionIdentifier) (c : ChannelIdentifier)
  | send (i : Nat)
  | receive
  | create
  | forward
  | respond (k : ConnectionIdentifier) (i : Nat)
  | connection (k : ConnectionIdentifier) (a : ConnectionHandler.Action)
  | stop
  | shutdown
  | tearDown

def task (s : NetworkService) (t : Option NetworkService) : Option NetworkService :=
  if s.runtime = .gone then none else t

def step (s : NetworkService) : Action → Option NetworkService
  | .registerChannel k c => some (s.registerChannel k c)
  | .send i => s.send i
  | .receive => s.task s.receive
  | .create => s.task s.create
  | .forward => s.task s.forward
  | .respond k i => s.task (s.respond k i)
  | .connection k a => s.task (s.connection k a)
  | .stop => s.stop
  | .shutdown => s.shutdown
  | .tearDown => s.tearDown

def machine : Machine NetworkService Action := ⟨start, step⟩

end NetworkService

end BdsPro.Network.Sender
