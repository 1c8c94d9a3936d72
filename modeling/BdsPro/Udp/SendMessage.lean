import BdsPro.Udp.Sender

/-! One call of `send_message` from its start to its return, with no other operation of the
sender in between. -/

namespace BdsPro.Udp

open BdsPro.Library

/-- What the call meets: whether the semaphore of the window is open, whether the message can
be encoded, whether the socket takes the datagram, and the time. -/
structure SendCircumstances where
  windowOpen : Bool
  encoded : Bool
  sent : Bool
  now : Nat
  deriving DecidableEq

namespace UdpSender

def saveMessage (s : UdpSender) (seq : Nat) (data : String) (now : Nat) : UdpSender :=
  { s with
    sentMessages := s.sentMessages.insert seq data
    inFlight := s.inFlight.insert seq ⟨seq, data, now, 0⟩ }

/-- The permit is dropped at every return but the last, where it is forgotten. -/
def sendMessageAlone (s : UdpSender) (seq : Nat) (data : String) (m : SendCircumstances) :
    Except UdpChannelError Unit × UdpSender :=
  if !m.windowOpen then (.error .channelClosed, s)
  else if s.sendWindow = 0 then (.error .sendWindowFull, s)
  else
    let s := { s with sendWindow := s.sendWindow - 1 }
    let s := s.saveMessage seq data m.now
    if !m.encoded then (.error .serialization, { s with sendWindow := s.sendWindow + 1 })
    else if !m.sent then (.error .io, { s with sendWindow := s.sendWindow + 1 })
    else (.ok (), { s with socket := s.socket ++ [dataMessage seq data] })

def sendSteps (s : UdpSender) (seq : Nat) (data : String) (sent : Bool) (now : Nat) :
    List Action :=
  let i := s.calls.length
  if s.sendWindow = 0 then [.sendMessage seq data, .sendTimeout i]
  else [.sendMessage seq data, .acquire i, .store i, .track i now, .transmit i sent] ++
    if sent then [.forget i] else []

def Atomic (s : UdpSender) (seq : Nat) (data : String) (m : SendCircumstances) : Prop :=
  ∀ e t, s.sendMessageAlone seq data m = (.error e, t) →
    t.sentMessages = s.sentMessages ∧ t.inFlight = s.inFlight ∧ t.sendWindow = s.sendWindow

end UdpSender

end BdsPro.Udp
