import BdsPro.Network.Sender.Channel

/-! The sender's `connection_handler` for one target: the loop over its control queue, the task
that keeps up a control connection, the task that establishes channels over it, and the tasks
of the channels.  One action is what one of them does between two of its await points. -/

namespace BdsPro.Network.Sender

open BdsPro.Library

/-- One call of `register_channel` for the target, by its position among them: it stands for the
control queue that is made for it and the token that belongs to it. -/
abbrev Registration := Nat

inductive NetworkingConnectionControlMessage
  | registerChannel (c : ChannelIdentifier) (r : Registration)
  | retryChannel (c : ChannelIdentifier) (r : Registration)
  deriving DecidableEq

def NetworkingConnectionControlMessage.registration :
    NetworkingConnectionControlMessage → Registration
  | .registerChannel _ r | .retryChannel _ r => r

inductive ControlChannelResponse
  | okChannelResponse
  | denyChannelResponse
  deriving DecidableEq

/-- A task that registers a channel has not given its control queue to the caller yet, waits for
room in `channel_tx` or for the result, has been sent the Ok, which it has not read yet, sleeps, or
has ended. -/
inductive AttemptPhase
  | responding | sending | waiting | granted | sleeping | ended
  deriving DecidableEq

structure Attempt where
  channel : ChannelIdentifier
  registration : Registration
  phase : AttemptPhase
  deriving DecidableEq

/-- `running` is the whole of `channel_handler`. -/
inductive ChannelTaskPhase
  | running | retrying | ended
  deriving DecidableEq

structure ChannelTask where
  channel : ChannelIdentifier
  registration : Registration
  phase : ChannelTaskPhase
  deriving DecidableEq

/-- The task with `create_connection`: it connects or sleeps after a failure, hands the
connection over, and waits until it is told to reconnect. -/
inductive Connector
  | connecting | offering | waiting | ended
  deriving DecidableEq

/-- The task with `establish_channel`, which waits for a connection or for an attempt, sends the
ChannelRequest of an attempt, or waits for the answer to it. -/
inductive Establisher
  | connecting
  | idle
  | requesting (attempt : Nat)
  | reading (attempt : Nat)
  | ended
  deriving DecidableEq

/-- `offered` is the content of the channel between the connector and the establisher, `channels`
the attempts in that of the establisher.  `requests` and `answers` are on the wire of the control
connection.  History: the channels that the other side has granted, and the registrations whose
caller was gone, whose channel has been closed, and that were dropped with the establisher. -/
structure ConnectionHandler where
  cancelled : Bool
  control : List NetworkingConnectionControlMessage
  attempts : List Attempt
  tasks : List ChannelTask
  connector : Connector
  offered : Bool
  establisher : Establisher
  channels : List Nat
  requests : List ChannelIdentifier
  answers : List ControlChannelResponse
  answersRead : Nat
  registrations : Nat
  granted : List ChannelIdentifier
  abandoned : List Registration
  closed : List Registration
  dropped : List Registration
  deriving DecidableEq

namespace ConnectionHandler

def new : ConnectionHandler where
  cancelled := false
  control := []
  attempts := []
  tasks := []
  connector := .connecting
  offered := false
  establisher := .connecting
  channels := []
  requests := []
  answers := []
  answersRead := 0
  registrations := 0
  granted := []
  abandoned := []
  closed := []
  dropped := []

def controlLen : Nat := 1024

def channelsLen : Nat := 10

def register (s : ConnectionHandler) (c : ChannelIdentifier) : Option ConnectionHandler :=
  if s.control.length < controlLen then
    some { s with
      control := s.control ++ [.registerChannel c s.registrations]
      registrations := s.registrations + 1 }
  else none

def serve (s : ConnectionHandler) : Option ConnectionHandler :=
  match s.control with
  | .registerChannel c r :: rest =>
    some { s with control := rest, attempts := s.attempts ++ [⟨c, r, .responding⟩] }
  | .retryChannel c r :: rest =>
    some { s with control := rest, attempts := s.attempts ++ [⟨c, r, .sending⟩] }
  | [] => none

def respond (s : ConnectionHandler) (i : Nat) (ok : Bool) : Option ConnectionHandler :=
  s.attempts[i]?.bind fun a =>
    if a.phase = .responding then
      if ok then some { s with attempts := s.attempts.set i { a with phase := .sending } }
      else some { s with
        attempts := s.attempts.set i { a with phase := .ended }
        abandoned := s.abandoned ++ [a.registration] }
    else none

def send (s : ConnectionHandler) (i : Nat) : Option ConnectionHandler :=
  s.attempts[i]?.bind fun a =>
    if a.phase = .sending then
      if s.establisher = .ended then some { s with
        attempts := s.attempts.set i { a with phase := .ended }
        dropped := s.dropped ++ [a.registration] }
      else if s.channels.length < channelsLen then some { s with
        attempts := s.attempts.set i { a with phase := .waiting }
        channels := s.channels ++ [i] }
      else none
    else none

/-- `rx.await` returns the Ok, or fails when the establisher has ended. -/
def await (s : ConnectionHandler) (i : Nat) : Option ConnectionHandler :=
  s.attempts[i]?.bind fun a =>
    match a.phase with
    | .granted => some { s with attempts := s.attempts.set i { a with phase := .ended } }
    | .waiting =>
      if s.establisher = .ended then some { s with
        attempts := s.attempts.set i { a with phase := .ended }
        dropped := s.dropped ++ [a.registration] }
      else none
    | _ => none

def wake (s : ConnectionHandler) (i : Nat) : Option ConnectionHandler :=
  s.attempts[i]?.bind fun a =>
    if a.phase = .sleeping then
      some { s with attempts := s.attempts.set i { a with phase := .sending } }
    else none

def createConnection (s : ConnectionHandler) (ok : Bool) : Option ConnectionHandler :=
  match s.connector with
  | .connecting => some { s with connector := if ok then .offering else .connecting }
  | _ => none

def connectCancelled (s : ConnectionHandler) : Option ConnectionHandler :=
  if s.connector = .connecting ∧ s.cancelled then some { s with connector := .ended } else none

def offer (s : ConnectionHandler) : Option ConnectionHandler :=
  if s.connector = .offering then
    if s.establisher = .ended then some { s with connector := .ended }
    else if s.offered then none
    else some { s with connector := .waiting, offered := true }
  else none

def reconnectDropped (s : ConnectionHandler) : Option ConnectionHandler :=
  if s.connector = .waiting ∧ s.establisher = .ended then some { s with connector := .ended }
  else none

def takeConnection (s : ConnectionHandler) : Option ConnectionHandler :=
  if s.establisher = .connecting then
    if s.offered then some { s with
      establisher := .idle
      offered := false
      requests := []
      answers := []
      answersRead := 0 }
    else if s.connector = .ended then some { s with establisher := .ended }
    else none
  else none

def takeChannel (s : ConnectionHandler) : Option ConnectionHandler :=
  match s.establisher, s.channels with
  | .idle, i :: rest => some { s with establisher := .requesting i, channels := rest }
  | _, _ => none

/-- `BadConnection`: the attempt is told, and the connector to reconnect. -/
def badConnection (s : ConnectionHandler) (i : Nat) : Option ConnectionHandler :=
  s.attempts[i]?.map fun a => { s with
    attempts := s.attempts.set i { a with phase := .sleeping }
    connector := .connecting
    establisher := .connecting }

def sendRequest (s : ConnectionHandler) (ok : Bool) : Option ConnectionHandler :=
  match s.establisher with
  | .requesting i =>
    if ok then s.attempts[i]?.map fun a => { s with
      establisher := .reading i
      requests := s.requests ++ [a.channel] }
    else s.badConnection i
  | _ => none

def answer (s : ConnectionHandler) (r : ControlChannelResponse) : Option ConnectionHandler :=
  s.requests[s.answers.length]?.map fun c => { s with
    answers := s.answers ++ [r]
    granted := match r with
      | .okChannelResponse => s.granted ++ [c]
      | .denyChannelResponse => s.granted }

/-- The establisher reads the next answer.  For an Ok it spawns the task of the channel and tells
the attempt, which keeps its own clone of the control queue until it has read the Ok. -/
def readAnswer (s : ConnectionHandler) : Option ConnectionHandler :=
  match s.establisher with
  | .reading i =>
    match s.answers[s.answersRead]?, s.attempts[i]? with
    | some .okChannelResponse, some a => some { s with
      attempts := s.attempts.set i { a with phase := .granted }
      tasks := s.tasks ++ [⟨a.channel, a.registration, .running⟩]
      establisher := .idle
      answersRead := s.answersRead + 1 }
    | some .denyChannelResponse, some a => some { s with
      attempts := s.attempts.set i { a with phase := .sleeping }
      establisher := .idle
      answersRead := s.answersRead + 1 }
    | _, _ => none
  | _ => none

def lose (s : ConnectionHandler) : Option ConnectionHandler :=
  match s.establisher with
  | .reading i => s.badConnection i
  | _ => none

def establishCancelled (s : ConnectionHandler) : Option ConnectionHandler :=
  match s.establisher with
  | .requesting _ | .reading _ =>
    if s.cancelled then some { s with establisher := .ended } else none
  | _ => none

def finish (s : ConnectionHandler) (i : Nat) (result : ChannelHandlerResult) :
    Option ConnectionHandler :=
  s.tasks[i]?.bind fun h =>
    if h.phase = .running then
      match result with
      | .connectionLost _ => some { s with tasks := s.tasks.set i { h with phase := .retrying } }
      | .cancelled | .closed => some { s with
        tasks := s.tasks.set i { h with phase := .ended }
        closed := s.closed ++ [h.registration] }
    else none

/-- The task sends `RetryChannel` when there is room. -/
def retry (s : ConnectionHandler) (i : Nat) : Option ConnectionHandler :=
  s.tasks[i]?.bind fun h =>
    if h.phase = .retrying ∧ s.control.length < controlLen then some { s with
      control := s.control ++ [.retryChannel h.channel h.registration]
      tasks := s.tasks.set i { h with phase := .ended } }
    else none

inductive Action
  | cancel
  | register (c : ChannelIdentifier)
  | serve
  | respond (i : Nat) (ok : Bool)
  | send (i : Nat)
  | await (i : Nat)
  | wake (i : Nat)
  | createConnection (ok : Bool)
  | connectCancelled
  | offer
  | reconnectDropped
  | takeConnection
  | takeChannel
  | sendRequest (ok : Bool)
  | answer (r : ControlChannelResponse)
  | readAnswer
  | lose
  | establishCancelled
  | finish (i : Nat) (result : ChannelHandlerResult)
  | retry (i : Nat)

def step (s : ConnectionHandler) : Action → Option ConnectionHandler
  | .cancel => some { s with cancelled := true }
  | .register c => s.register c
  | .serve => s.serve
  | .respond i ok => s.respond i ok
  | .send i => s.send i
  | .await i => s.await i
  | .wake i => s.wake i
  | .createConnection ok => s.createConnection ok
  | .connectCancelled => s.connectCancelled
  | .offer => s.offer
  | .reconnectDropped => s.reconnectDropped
  | .takeConnection => s.takeConnection
  | .takeChannel => s.takeChannel
  | .sendRequest ok => s.sendRequest ok
  | .answer r => s.answer r
  | .readAnswer => s.readAnswer
  | .lose => s.lose
  | .establishCancelled => s.establishCancelled
  | .finish i result => s.finish i result
  | .retry i => s.retry i

def machine : Machine ConnectionHandler Action := ⟨new, step⟩

end ConnectionHandler

end BdsPro.Network.Sender
