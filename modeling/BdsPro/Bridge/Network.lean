import BdsPro.Network.Sender.Channel

/-! The Rust side of the bridge to C++: `send_channel` makes a tuple buffer of what it is
given, and `receive_buffer` passes a tuple buffer on to a builder of the C++ side. -/

namespace BdsPro.Bridge

open BdsPro.Network BdsPro.Network.Sender

inductive SendResult
  | ok | error | full
  deriving DecidableEq

/-- `usize` has 64 bits. -/
structure SerializedTupleBuffer where
  sequenceNumber : UInt64
  originId : UInt64
  chunkNumber : UInt64
  numberOfTuples : UInt64
  watermark : UInt64
  lastChunk : Bool
  deriving DecidableEq

inductive BuilderCall
  | setMetadata (metadata : SerializedTupleBuffer)
  | setData (data : List UInt8)
  | addChildBuffer (data : List UInt8)
  deriving DecidableEq

structure SenderChannel where
  dataQueue : List ChannelControlMessage
  closed : Bool
  deriving DecidableEq

structure ReceiverChannel where
  dataQueue : List TupleBuffer
  closed : Bool
  deriving DecidableEq

def SenderChannel.trySend (c : SenderChannel) (m : ChannelControlMessage) :
    SendResult × SenderChannel :=
  if c.closed then (.error, c)
  else if c.dataQueue.length < Channel.queueLen then
    (.ok, { c with dataQueue := c.dataQueue ++ [m] })
  else (.full, c)

def tupleBuffer (metadata : SerializedTupleBuffer) (data : List UInt8)
    (children : List (List UInt8)) : TupleBuffer where
  sequenceNumber := metadata.sequenceNumber.toNat
  originId := metadata.originId.toNat
  watermark := metadata.watermark.toNat
  chunkNumber := metadata.chunkNumber.toNat
  numberOfTuples := metadata.numberOfTuples.toNat
  lastChunk := metadata.lastChunk
  data := data
  childBuffers := children

def sendChannel (c : SenderChannel) (metadata : SerializedTupleBuffer) (data : List UInt8)
    (children : List (List UInt8)) : SendResult × SenderChannel :=
  c.trySend (.data (tupleBuffer metadata data children))

def serialized (b : TupleBuffer) : SerializedTupleBuffer where
  sequenceNumber := .ofNat b.sequenceNumber
  originId := .ofNat b.originId
  chunkNumber := .ofNat b.chunkNumber
  numberOfTuples := .ofNat b.numberOfTuples
  watermark := .ofNat b.watermark
  lastChunk := b.lastChunk

inductive Outcome
  | returned (delivered : Bool)
  | panicked
  deriving DecidableEq

def addChildBuffers : List (List UInt8) → Outcome × List BuilderCall
  | [] => (.returned true, [])
  | child :: children =>
    if child = [] then (.panicked, [])
    else ((addChildBuffers children).1, .addChildBuffer child :: (addChildBuffers children).2)

/-- `none` while the queue is empty and open: the call blocks. -/
def receiveBuffer (c : ReceiverChannel) : Option (Outcome × List BuilderCall × ReceiverChannel) :=
  match c.dataQueue with
  | [] => if c.closed then some (.returned false, [], c) else none
  | b :: rest => some ((addChildBuffers b.childBuffers).1,
      .setMetadata (serialized b) :: .setData b.data :: (addChildBuffers b.childBuffers).2,
      { c with dataQueue := rest })

end BdsPro.Bridge
