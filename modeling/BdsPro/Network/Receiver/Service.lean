import BdsPro.Library.Machine
import BdsPro.Library.Map
import BdsPro.Network.Protocol

/-! The receiver's service: the tables of registered and opened channels, and the tasks that
share them.  These are the control socket handlers, the channel tasks, the accept loop, the
loop over the service's control queue, and the application.  One action is what one of them
does between two of its await points. -/

namespace BdsPro.Network.Receiver

open BdsPro.Library

/-- One call of `register_channel`, by its position among all calls: it stands for the data
queue that the call makes and the cancellation token that belongs to it, which are always
handed on together. -/
abbrev Registration := Nat

/-- Whether the token is cancelled, by the close of a control connection or for another
reason, and whether the data queue is closed, by the application or by the service. -/
structure RegistrationState where
  cancelledByControl : Bool
  cancelledOtherwise : Bool
  closedByApplication : Bool
  closedByService : Bool
  deriving DecidableEq

def RegistrationState.new : RegistrationState := ⟨false, false, false, false⟩

def RegistrationState.cancelled (t : RegistrationState) : Bool :=
  t.cancelledByControl || t.cancelledOtherwise

def RegistrationState.closed (t : RegistrationState) : Bool :=
  t.closedByApplication || t.closedByService

inductive ServiceControl
  | registerChannel (c : ChannelIdentifier) (r : Registration)
  | retryChannel (c : ChannelIdentifier) (r : Registration)
  deriving DecidableEq

/-- The task of `create_channel_handler`: it has not yet put its sender into
`opened_channels`, waits for a stream, handles the stream, waits for room in the control
queue, or has ended. -/
inductive TaskPhase
  | spawned | parked | handling | retrying | ended
  deriving DecidableEq

/-- The attempt of the sender that gets the Ok: `create_channel` starts when the sender has
read the Ok, and returns a channel or an error. -/
inductive AttemptPhase
  | promised | answered | connecting | established | failed
  deriving DecidableEq

/-- The data stream of an attempt: in the backlog of the listener, being identified (refused
or told Ok), and then given to a channel task or dropped. -/
inductive Stream
  | absent | backlog | accepted | refused | identified
  | delivered (task : Nat)
  | dropped
  deriving DecidableEq

/-- What becomes of a ChannelRequest that was granted. -/
structure Grant where
  connection : ConnectionIdentifier
  channel : ChannelIdentifier
  registration : Registration
  task : TaskPhase
  attempt : AttemptPhase
  stream : Stream
  deriving DecidableEq

def Grant.key (g : Grant) : ConnectionIdentifier × ChannelIdentifier := (g.connection, g.channel)

/-- A handler reads requests, or sends its answer to one: Ok for a grant, or Deny. -/
inductive SocketPhase
  | reading
  | answering (grant : Option Nat)
  | ended
  deriving DecidableEq

structure ControlSocket where
  connection : ConnectionIdentifier
  activeConnectionChannels : List Registration
  phase : SocketPhase
  deriving DecidableEq

inductive AcceptLoop
  | accepting
  | identifying (grant : Nat)
  | dispatching (grant : Nat)
  deriving DecidableEq

inductive HandlerResult
  | ok | cancelled | network | closedByOtherSide
  deriving DecidableEq

/-- `newest` is history: the registration that was processed last for each channel. -/
structure Service where
  registeredChannels : Map ChannelIdentifier Registration
  openedChannels : Map (ConnectionIdentifier × ChannelIdentifier) Nat
  control : List ServiceControl
  controlClosed : Bool
  stopped : Bool
  sockets : List ControlSocket
  grants : List Grant
  acceptLoop : AcceptLoop
  registrations : List RegistrationState
  newest : Map ChannelIdentifier Registration

namespace Service

def new : Service where
  registeredChannels := ∅
  openedChannels := ∅
  control := []
  controlClosed := false
  stopped := false
  sockets := []
  grants := []
  acceptLoop := .accepting
  registrations := []
  newest := ∅

def controlLen : Nat := 10

def isCancelled (s : Service) (r : Registration) : Bool :=
  s.registrations[r]?.any RegistrationState.cancelled

def isClosed (s : Service) (r : Registration) : Bool :=
  s.registrations[r]?.any RegistrationState.closed

def registerChannel (s : Service) (c : ChannelIdentifier) : Option Service :=
  if s.controlClosed = false ∧ s.control.length < controlLen then
    some { s with
      control := s.control ++ [.registerChannel c s.registrations.length]
      registrations := s.registrations ++ [.new] }
  else none

def closeQueue (s : Service) (r : Registration) : Service :=
  { s with registrations := s.registrations.modify r fun t =>
      { t with closedByApplication := true } }

def connectControl (s : Service) (k : ConnectionIdentifier) : Option Service :=
  if s.acceptLoop = .accepting then some { s with sockets := s.sockets ++ [⟨k, [], .reading⟩] }
  else none

def retainActive (s : Service) (active : List Registration) : List Registration :=
  active.filter fun r => !s.isCancelled r

def channelRequest (s : Service) (i : Nat) (c : ChannelIdentifier) : Option Service :=
  match s.sockets[i]? with
  | some ⟨k, active, .reading⟩ =>
    match s.registeredChannels.lookup c with
    | none => some { s with
        sockets := s.sockets.set i ⟨k, s.retainActive active, .answering none⟩ }
    | some r => some { s with
        registeredChannels := s.registeredChannels.erase c
        sockets := s.sockets.set i
          ⟨k, s.retainActive active, .answering (some s.grants.length)⟩
        grants := s.grants ++ [⟨k, c, r, .spawned, .promised, .absent⟩] }
  | _ => none

/-- The answer is sent.  An error ends the handler without cancelling its channels. -/
def answer (s : Service) (i : Nat) (ok : Bool) : Option Service :=
  match s.sockets[i]? with
  | some ⟨k, active, .answering none⟩ =>
    some { s with sockets := s.sockets.set i ⟨k, active, if ok then .reading else .ended⟩ }
  | some ⟨k, active, .answering (some j)⟩ => s.grants[j]?.map fun g =>
    if ok then
      { s with
        sockets := s.sockets.set i ⟨k, active ++ [g.registration], .reading⟩
        grants := s.grants.set j { g with attempt := .answered } }
    else
      { s with
        sockets := s.sockets.set i ⟨k, active, .ended⟩
        grants := s.grants.set j { g with attempt := .failed } }
  | _ => none

/-- The control connection closes: the channels it has opened are cancelled. -/
def closeControl (s : Service) (i : Nat) : Option Service :=
  match s.sockets[i]? with
  | some ⟨k, active, .reading⟩ => some { s with
      sockets := s.sockets.set i ⟨k, active, .ended⟩
      registrations := s.registrations.mapIdx fun r t =>
        if r ∈ active then { t with cancelledByControl := true } else t }
  | _ => none

/-- A sender that leaves `opened_channels` is dropped, which ends the task that waits for it. -/
def dropSender (l : List Grant) : Option Nat → List Grant
  | none => l
  | some j => l.modify j fun g => if g.task = .parked then { g with task := .ended } else g

def openChannel (s : Service) (i : Nat) : Option Service :=
  s.grants[i]?.bind fun g =>
    if g.task = .spawned then
      some { s with
        openedChannels := s.openedChannels.insert g.key i
        grants := (dropSender s.grants (s.openedChannels.lookup g.key)).set i
          { g with task := .parked } }
    else none

def connectChannel (s : Service) (i : Nat) : Option Service :=
  s.grants[i]?.bind fun g =>
    if g.attempt = .answered then
      some { s with grants := s.grants.set i { g with attempt := .connecting, stream := .backlog } }
    else none

/-- `create_channel` of the sender returns: Ok needs the Ok of the identification. -/
def createChannel (s : Service) (i : Nat) (ok : Bool) : Option Service :=
  s.grants[i]?.bind fun g =>
    match ok, g.attempt, g.stream with
    | true, .connecting, .identified | true, .connecting, .delivered _
    | true, .connecting, .dropped =>
      some { s with grants := s.grants.set i { g with attempt := .established } }
    | false, .answered, _ | false, .connecting, _ =>
      some { s with grants := s.grants.set i { g with attempt := .failed } }
    | _, _, _ => none

def acceptStream (s : Service) (i : Nat) : Option Service :=
  s.grants[i]?.bind fun g =>
    if s.acceptLoop = .accepting ∧ g.stream = .backlog then
      some { s with
        acceptLoop := .identifying i
        grants := s.grants.set i { g with stream := .accepted } }
    else none

/-- `identify_connection` of a data stream, which answers Ok, or fails. -/
def identify (s : Service) (ok : Bool) : Option Service :=
  match s.acceptLoop with
  | .identifying i => s.grants[i]?.map fun g =>
    if ok then
      { s with
        acceptLoop := .dispatching i
        grants := s.grants.set i { g with stream := .identified } }
    else
      { s with
        acceptLoop := .accepting
        grants := s.grants.set i { g with stream := .refused } }
  | _ => none

def dispatch (s : Service) : Option Service :=
  match s.acceptLoop with
  | .dispatching i => s.grants[i]?.map fun g =>
    match s.openedChannels.lookup g.key with
    | none => { s with
        acceptLoop := .accepting
        grants := s.grants.set i { g with stream := .dropped } }
    | some j =>
      if s.grants[j]?.any (fun h => h.task = .parked) then { s with
        acceptLoop := .accepting
        openedChannels := s.openedChannels.erase g.key
        grants := (s.grants.set i { g with stream := .delivered j }).modify j fun h =>
          { h with task := .handling } }
      else { s with
        acceptLoop := .accepting
        openedChannels := s.openedChannels.erase g.key
        grants := s.grants.set i { g with stream := .dropped } }
  | _ => none

/-- `channel_handler` returns.  It ends with Ok when its data queue is closed. -/
def finish (s : Service) (i : Nat) (result : HandlerResult) : Option Service :=
  s.grants[i]?.bind fun g =>
    if g.task = .handling then
      match result with
      | .ok =>
        if s.isClosed g.registration then
          some { s with grants := s.grants.set i { g with task := .ended } }
        else none
      | .cancelled =>
        if s.isCancelled g.registration then
          some { s with grants := s.grants.set i { g with task := .ended } }
        else none
      | .network => some { s with grants := s.grants.set i { g with task := .retrying } }
      | .closedByOtherSide => some { s with
          grants := s.grants.set i { g with task := .retrying }
          registrations := s.registrations.modify g.registration fun t =>
            { t with closedByService := true } }
    else none

/-- A channel task reopens its channel; it panics when the control queue is closed. -/
def retry (s : Service) (i : Nat) : Option Service :=
  s.grants[i]?.bind fun g =>
    if g.task = .retrying then
      if s.controlClosed then some { s with grants := s.grants.set i { g with task := .ended } }
      else if s.control.length < controlLen then
        some { s with
          control := s.control ++ [.retryChannel g.channel g.registration]
          grants := s.grants.set i { g with task := .ended } }
      else none
    else none

/-- The loop over the control queue.  `ok` says whether the application still waits for the
response to its registration. -/
def serve (s : Service) (ok : Bool) : Option Service :=
  if s.stopped then none
  else match s.control with
    | .registerChannel c r :: rest => some { s with
        control := rest
        registeredChannels :=
          (s.registeredChannels.retain fun _ r => !s.isCancelled r).insert c r
        newest := s.newest.insert c r
        registrations :=
          if ok then s.registrations
          else s.registrations.modify r fun t => { t with cancelledOtherwise := true } }
    | .retryChannel c r :: rest => some { s with
        control := rest
        registeredChannels := s.registeredChannels.insert c r }
    | [] =>
      if s.controlClosed then
        some { s with
          stopped := true
          registrations := s.registrations.mapIdx fun r t =>
            if r ∈ s.registeredChannels.values then { t with cancelledOtherwise := true } else t }
      else none

def shutdown (s : Service) : Service := { s with controlClosed := true }

inductive Action
  | registerChannel (c : ChannelIdentifier)
  | closeQueue (r : Registration)
  | connectControl (k : ConnectionIdentifier)
  | channelRequest (i : Nat) (c : ChannelIdentifier)
  | answer (i : Nat) (ok : Bool)
  | closeControl (i : Nat)
  | openChannel (i : Nat)
  | connectChannel (i : Nat)
  | createChannel (i : Nat) (ok : Bool)
  | acceptStream (i : Nat)
  | identify (ok : Bool)
  | dispatch
  | finish (i : Nat) (result : HandlerResult)
  | retry (i : Nat)
  | serve (ok : Bool)
  | shutdown

def step (s : Service) : Action → Option Service
  | .registerChannel c => s.registerChannel c
  | .closeQueue r => some (s.closeQueue r)
  | .connectControl k => s.connectControl k
  | .channelRequest i c => s.channelRequest i c
  | .answer i ok => s.answer i ok
  | .closeControl i => s.closeControl i
  | .openChannel i => s.openChannel i
  | .connectChannel i => s.connectChannel i
  | .createChannel i ok => s.createChannel i ok
  | .acceptStream i => s.acceptStream i
  | .identify ok => s.identify ok
  | .dispatch => s.dispatch
  | .finish i result => s.finish i result
  | .retry i => s.retry i
  | .serve ok => s.serve ok
  | .shutdown => some s.shutdown

def machine : Machine Service Action := ⟨new, step⟩

end Service

end BdsPro.Network.Receiver
