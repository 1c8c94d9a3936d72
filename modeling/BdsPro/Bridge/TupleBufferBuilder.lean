import BdsPro.Bridge.Network
import BdsPro.Library.Memory

/-! The builder on the C++ side of the bridge, which writes what `receive_buffer` passes on into
a tuple buffer of the runtime. -/

namespace BdsPro.Bridge

open BdsPro.Library

structure RuntimeBuffer where
  metadata : SerializedTupleBuffer
  memory : List UInt8
  children : List (List UInt8)
  deriving DecidableEq

structure AbstractBufferProvider (π : Type) where
  getUnpooledBuffer : π → Nat → Option (List UInt8) × π

def AbstractBufferProvider.Allocates (P : AbstractBufferProvider π) : Prop :=
  ∀ p n, ∃ block, (P.getUnpooledBuffer p n).1 = some block ∧ n ≤ block.length

/-- An `INVARIANT` that fails, an exception, or a `memcpy` past the end of its destination. -/
inductive BuilderError
  | invariant (text : String)
  | cannotAllocateBuffer (text : String)
  | undefined
  deriving DecidableEq

structure TupleBufferBuilder (π : Type) where
  buffer : RuntimeBuffer
  bufferProvider : π

namespace TupleBufferBuilder

def setMetadata (b : TupleBufferBuilder π) (metadata : SerializedTupleBuffer) :
    TupleBufferBuilder π :=
  { b with buffer := { b.buffer with metadata := metadata } }

def copy (b : TupleBufferBuilder π) (src : List UInt8) (n : Nat) :
    Except BuilderError (TupleBufferBuilder π) :=
  match memcpy b.buffer.memory src n with
  | some memory => .ok { b with buffer := { b.buffer with memory := memory } }
  | none => .error .undefined

def setData (b : TupleBufferBuilder π) (data : List UInt8) :
    Except BuilderError (TupleBufferBuilder π) :=
  let internal := b.buffer.memory.length
  let external := data.length
  if external ≤ internal then b.copy data (min external internal)
  else .error (.invariant
    s!"Buffer size missmatch. Internal BufferSize: {internal} vs. External {external}")

/-- The destination of the copy is the tuple buffer itself, and the new buffer is dropped. -/
def addChildBuffer (P : AbstractBufferProvider π) (b : TupleBufferBuilder π)
    (child : List UInt8) : Except BuilderError (TupleBufferBuilder π) :=
  let (childBuffer, provider) := P.getUnpooledBuffer b.bufferProvider child.length
  let b := { b with bufferProvider := provider }
  match childBuffer with
  | none => .error (.cannotAllocateBuffer "allocating child buffer")
  | some block =>
    let internal := block.length
    let external := child.length
    if external ≤ internal then b.copy child (min external internal)
    else .error (.invariant
      s!"Unpooled Buffer size missmatch. Internal BufferSize: {internal} vs. External {external}")

def call (P : AbstractBufferProvider π) (b : TupleBufferBuilder π) :
    BuilderCall → Except BuilderError (TupleBufferBuilder π)
  | .setMetadata metadata => .ok (b.setMetadata metadata)
  | .setData data => b.setData data
  | .addChildBuffer child => addChildBuffer P b child

def build (P : AbstractBufferProvider π) (b : TupleBufferBuilder π) (data : List UInt8)
    (children : List (List UInt8)) : Except BuilderError (TupleBufferBuilder π) :=
  (.setData data :: children.map .addChildBuffer).foldlM (call P) b

def Holds (b t : TupleBufferBuilder π) (data : List UInt8) (children : List (List UInt8)) :
    Prop :=
  t.buffer.memory.take data.length = data ∧
    ∃ attached, t.buffer.children = b.buffer.children ++ attached ∧
      List.Forall₂ (fun block child => block.take child.length = child) attached children

end TupleBufferBuilder

end BdsPro.Bridge
