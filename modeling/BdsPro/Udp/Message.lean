import Mathlib.Algebra.GroupWithZero.Nat

namespace BdsPro.Udp

/-- The strings that `typ` is compared with; `other` is any further text. -/
inductive MessageType
  | data | rqst | ack | flowControl
  | other (text : String)
  deriving DecidableEq

def MessageType.text : MessageType → String
  | .data => "DATA"
  | .rqst => "RQST"
  | .ack => "ACK"
  | .flowControl => "FLOW_CONTROL"
  | .other text => text

structure Message where
  typ : MessageType
  seq : Nat
  data : Option String
  deriving DecidableEq

def dataMessage (seq : Nat) (data : String) : Message := ⟨.data, seq, some data⟩
def ackMessage (seq : Nat) : Message := ⟨.ack, seq, none⟩
def rqstMessage (seq : Nat) : Message := ⟨.rqst, seq, none⟩
def bufferFullMessage : Message := ⟨.flowControl, 0, some "BUFFER_FULL"⟩

/-- Bytes that one character takes inside a JSON string: quote, backslash and the five
control characters with a short escape take two, the other control characters six. -/
def escapedLen (c : Char) : Nat :=
  if c.toNat ∈ [34, 92, 8, 9, 10, 12, 13] then 2
  else if c.toNat < 32 then 6
  else c.utf8Size

def jsonStringLen (s : String) : Nat := (s.toList.map escapedLen).sum + 2

def Message.encodedLen (m : Message) : Nat :=
  7 + jsonStringLen m.typ.text + 7 + (Nat.toDigits 10 m.seq).length + 8 +
    (m.data.elim 4 jsonStringLen) + 1

def recvBufferLen : Nat := 1024

/-- `serde_json::from_slice` on what `recv_from` left in the receive buffer.  A datagram
that does not fit is cut off, and a cut-off object does not parse. -/
def Message.fromSlice (m : Message) : Option Message :=
  if m.encodedLen ≤ recvBufferLen then some m else none

theorem Message.fromSlice_eq_some {m m' : Message} (h : m.fromSlice = some m') : m' = m := by
  simp only [fromSlice, Option.ite_none_right_eq_some, Option.some.injEq] at h
  exact h.2.symm

/-- The errors of `send_message` and `receive_message`, without the texts of the wrapped
I/O and JSON errors. -/
inductive UdpChannelError
  | io | serialization | channelClosed | sendWindowFull | receiveBufferFull
  deriving DecidableEq

structure FlowControlConfig where
  sendWindowSize : Nat
  receiveBufferSize : Nat
  ackTimeout : Nat
  sendTimeout : Nat
  deriving DecidableEq

/-- Times are in milliseconds. -/
def FlowControlConfig.default : FlowControlConfig where
  sendWindowSize := 10
  receiveBufferSize := 50
  ackTimeout := 1000
  sendTimeout := 5000

end BdsPro.Udp
