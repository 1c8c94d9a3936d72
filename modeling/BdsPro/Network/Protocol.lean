import BdsPro.Library.FramedWrite

namespace BdsPro.Network

open BdsPro.Library

abbrev ChannelIdentifier := String

abbrev ConnectionIdentifier := String

abbrev Sequence := Nat × Nat

structure TupleBuffer where
  sequenceNumber : Nat
  originId : Nat
  watermark : Nat
  chunkNumber : Nat
  numberOfTuples : Nat
  lastChunk : Bool
  data : List UInt8
  childBuffers : List (List UInt8)
  deriving DecidableEq

def TupleBuffer.sequence (b : TupleBuffer) : Sequence := (b.sequenceNumber, b.chunkNumber)

def TupleBuffer.identity (b : TupleBuffer) : Nat × Nat × Nat :=
  (b.originId, b.sequenceNumber, b.chunkNumber)

def exampleBuffer (n : Nat) (data : List UInt8) : TupleBuffer := ⟨n, 0, 0, 0, 0, true, data, []⟩

inductive DataChannelRequest
  | data (b : TupleBuffer)
  | close
  deriving DecidableEq

def DataChannelRequest.buffer : DataChannelRequest → Option TupleBuffer
  | .data b => some b
  | .close => none

inductive DataChannelResponse
  | ackData (seq : Sequence)
  | nackData (seq : Sequence)
  | close
  deriving DecidableEq

def jsonNatLen (n : Nat) : Nat := (Nat.toDigits 10 n).length

/-- Length of a compact JSON array or object whose members have the given lengths. -/
def jsonMembersLen (members : List Nat) : Nat := members.sum + (members.length - 1) + 2

def jsonFieldLen (key : String) (value : Nat) : Nat := key.length + 3 + value

def jsonBytesLen (bytes : List UInt8) : Nat :=
  jsonMembersLen (bytes.map fun b => jsonNatLen b.toNat)

def TupleBuffer.jsonLen (b : TupleBuffer) : Nat :=
  jsonMembersLen [jsonFieldLen "sequence_number" (jsonNatLen b.sequenceNumber),
    jsonFieldLen "origin_id" (jsonNatLen b.originId),
    jsonFieldLen "watermark" (jsonNatLen b.watermark),
    jsonFieldLen "chunk_number" (jsonNatLen b.chunkNumber),
    jsonFieldLen "number_of_tuples" (jsonNatLen b.numberOfTuples),
    jsonFieldLen "last_chunk" (if b.lastChunk then 4 else 5),
    jsonFieldLen "data" (jsonBytesLen b.data),
    jsonFieldLen "child_buffers" (jsonMembersLen (b.childBuffers.map jsonBytesLen))]

def Sequence.jsonLen (seq : Sequence) : Nat := jsonMembersLen [jsonNatLen seq.1, jsonNatLen seq.2]

def DataChannelRequest.jsonLen : DataChannelRequest → Nat
  | .data b => jsonMembersLen [jsonFieldLen "Data" b.jsonLen]
  | .close => 7

def DataChannelResponse.jsonLen : DataChannelResponse → Nat
  | .ackData seq => jsonMembersLen [jsonFieldLen "AckData" (Sequence.jsonLen seq)]
  | .nackData seq => jsonMembersLen [jsonFieldLen "NAckData" (Sequence.jsonLen seq)]
  | .close => 7

/-- `LengthDelimitedCodec` inside `FramedWrite`, both with their default settings. -/
def lengthDelimited (payloadLen : α → Nat) : Codec α where
  frameLen x := 4 + payloadLen x
  fits x := payloadLen x ≤ 8 * 1024 * 1024
  boundary := 8 * 1024

def requestCodec : Codec DataChannelRequest := lengthDelimited DataChannelRequest.jsonLen

def responseCodec : Codec DataChannelResponse := lengthDelimited DataChannelResponse.jsonLen

end BdsPro.Network
