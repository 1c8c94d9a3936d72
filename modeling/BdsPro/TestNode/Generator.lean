import BdsPro.Library.Checked
import BdsPro.Library.Cursor
import BdsPro.Network.Protocol

/-! The content of the buffers that the generator source of the test node emits, and the check
that the sinks make of it. -/

namespace BdsPro.TestNode

open BdsPro.Library BdsPro.Network

def toLeBytes (n : Nat) : List UInt8 := (List.range 8).map fun i => .ofNat (n / 256 ^ i)

def cursorBuffer (counter size : Nat) : List UInt8 :=
  (Cursor.fill (toLeBytes counter) size (.new (List.replicate size 0))).inner

def childSize (counter idx : Nat) : Option Nat :=
  (Checked.add 64 idx 1).bind fun number =>
    (Checked.mul 64 10 counter).bind fun bytes =>
      (Checked.mul 64 number bytes).map (· % 16)

def childBuffers (counter : Nat) : Option (List (List UInt8)) :=
  (List.range (counter % 3)).mapM fun idx => (childSize counter idx).map (cursorBuffer counter)

namespace GeneratorSource

def emitted (counter : Nat) : Option TupleBuffer :=
  (childBuffers counter).bind fun children =>
    (Checked.add 64 counter 1).map fun next =>
      { sequenceNumber := next
        originId := 1
        watermark := 2
        chunkNumber := 1
        numberOfTuples := 1
        lastChunk := true
        data := cursorBuffer counter 16
        childBuffers := children }

end GeneratorSource

/-- The main buffer that is expected; `BytesMut::with_capacity(16)` has a capacity of 16. -/
def expectedBuffer (counter : Nat) : List UInt8 :=
  Cursor.fillUpTo 16 (toLeBytes counter) 16 []

def childrenMatch (received expected : List (List UInt8)) : Bool :=
  if received.length ≠ expected.length then false
  else (received.zip expected).all fun pair => pair.1 = pair.2

/-- There is no result where the numbers leave their range, which is a panic. -/
def verifyTupleBuffer (received : TupleBuffer) : Option Bool :=
  (Checked.sub received.sequenceNumber 1).bind fun counter =>
    if received.data ≠ expectedBuffer counter then some false
    else (childBuffers counter).map (childrenMatch received.childBuffers)

end BdsPro.TestNode
