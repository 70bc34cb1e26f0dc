import Mathlib.Logic.Function.Basic
import Lssvc.Foundation.Words

set_option autoImplicit false

namespace Lssvc.Network

open Lssvc.Foundation

def kBufferOffset : Nat := 8
def kBufferDefaultLength : Nat := 2048

-- An allocation that throws, an assertion that does not hold, and a copy that
-- leaves the vector.
inductive BufferFault where
  | badAlloc
  | assertion
  | outOfBounds
deriving DecidableEq, Repr

structure MsgBuffer where
  head : Nat
  tail : Nat
  buffer : List UInt8
  cap : Nat
deriving DecidableEq, Repr

def MsgBuffer.readableBytes (b : MsgBuffer) : Nat := toUint64 ((b.tail : Int) - b.head)

def MsgBuffer.writableBytes (b : MsgBuffer) : Nat := toUint64 ((b.buffer.length : Int) - b.tail)

def MsgBuffer.readable (b : MsgBuffer) : List UInt8 := (b.buffer.drop b.head).take b.readableBytes

-- memcpy to beginWrite(), and tail_ moved behind it.
def MsgBuffer.write (b : MsgBuffer) (bytes : List UInt8) : Except BufferFault MsgBuffer :=
  if b.tail + bytes.length ≤ b.buffer.length then
    .ok { b with
      buffer := b.buffer.take b.tail ++ bytes ++ b.buffer.drop (b.tail + bytes.length)
      tail := b.tail + bytes.length }
  else .error .outOfBounds

def resize (buffer : List UInt8) (size : Nat) : List UInt8 :=
  buffer.take size ++ List.replicate (size - buffer.length) 0

def MsgBuffer.retrieveAll (b : MsgBuffer) : MsgBuffer :=
  let b := if b.buffer.length > toUint64 (b.cap * 2 : Nat) then { b with buffer := resize b.buffer b.cap } else b
  { b with tail := kBufferOffset, head := kBufferOffset }

def MsgBuffer.retrieve (b : MsgBuffer) (len : Nat) : MsgBuffer :=
  if len ≥ b.readableBytes then b.retrieveAll else { b with head := toUint64 (b.head + len : Nat) }

def MsgBuffer.hasWritten (b : MsgBuffer) (bytes : List UInt8) : Except BufferFault MsgBuffer :=
  if bytes.length ≤ b.writableBytes then b.write bytes else .error .assertion

def MsgBuffer.unWrite (b : MsgBuffer) (offset : Nat) : Except BufferFault MsgBuffer :=
  if b.readableBytes ≥ offset then .ok { b with tail := toUint64 ((b.tail : Int) - offset) } else .error .assertion

-- std::copy to kBufferOffset.
def MsgBuffer.compact (b : MsgBuffer) : MsgBuffer :=
  { b with
    buffer := b.buffer.take kBufferOffset ++ b.readable ++ b.buffer.drop (kBufferOffset + b.readable.length)
    tail := toUint64 (kBufferOffset + b.readableBytes : Nat)
    head := kBufferOffset }

section

-- The longest vector that can be had.
variable (limit : Nat)

def newMsgBuffer (len : Nat) : Except BufferFault MsgBuffer :=
  if toUint64 (len + kBufferOffset : Nat) ≤ limit then
    .ok { head := kBufferOffset
          tail := kBufferOffset
          buffer := List.replicate (toUint64 (len + kBufferOffset : Nat)) 0
          cap := len }
  else .error .badAlloc

def MsgBuffer.newLen (b : MsgBuffer) (len : Nat) : Nat :=
  if toUint64 (b.buffer.length * 2 : Nat) > toUint64 (kBufferOffset + b.readableBytes + len : Nat) then
    toUint64 (b.buffer.length * 2 : Nat)
  else toUint64 (kBufferOffset + b.readableBytes + len : Nat)

-- newbuffer.append(*this) calls ensureWriteableBytes of the new buffer, which
-- has the room: the fuel is never used up.
def MsgBuffer.ensureFuel : Nat → MsgBuffer → Nat → Except BufferFault MsgBuffer
  | 0, _, _ => .error .outOfBounds
  | fuel + 1, b, len =>
      if b.writableBytes ≥ len then .ok b
      else if toUint64 (b.head + b.writableBytes : Nat) ≥ toUint64 (len + kBufferOffset : Nat) then .ok b.compact
      else do
        let newbuffer ← newMsgBuffer limit (b.newLen len)
        let newbuffer ← newbuffer.ensureFuel fuel b.readableBytes
        newbuffer.write b.readable

def MsgBuffer.ensureWriteableBytes (b : MsgBuffer) (len : Nat) : Except BufferFault MsgBuffer :=
  b.ensureFuel limit 2 len

def MsgBuffer.append (b : MsgBuffer) (bytes : List UInt8) : Except BufferFault MsgBuffer := do
  let b ← b.ensureWriteableBytes limit bytes.length
  b.write bytes

def extBufferSize : Nat := 8192

-- iov_len of the first area goes through an int.
def MsgBuffer.firstArea (b : MsgBuffer) : Nat := toUint64 (toInt32 b.writableBytes)

def MsgBuffer.areas (b : MsgBuffer) : Nat :=
  b.firstArea + if b.writableBytes < extBufferSize then extBufferSize else 0

def MsgBuffer.readFd (b : MsgBuffer) (bytes : List UInt8) : Except BufferFault MsgBuffer :=
  if bytes.length ≤ b.writableBytes then b.write bytes
  else do
    let b' ← b.write (bytes.take b.writableBytes)
    b'.append limit (bytes.drop b.writableBytes)

inductive BufferOp where
  | build (i len : Nat)
  | append (i : Nat) (bytes : List UInt8)
  | appendBuffer (i j : Nat)
  | hasWritten (i : Nat) (bytes : List UInt8)
  | retrieve (i len : Nat)
  | retrieveAll (i : Nat)
  | ensureWriteableBytes (i len : Nat)
  | unWrite (i offset : Nat)
  | swap (i j : Nat)
  | readFd (i : Nat) (bytes : List UInt8)
deriving DecidableEq, Repr

-- appendBuffer may append a buffer to itself, whose bytes it then reads where
-- ensureWriteableBytes has put them.
def bufferOp (buffers : Nat → MsgBuffer) : BufferOp → Except BufferFault (Nat → MsgBuffer)
  | .build i len => (newMsgBuffer limit len).map (Function.update buffers i)
  | .append i bytes => ((buffers i).append limit bytes).map (Function.update buffers i)
  | .appendBuffer i j => do
      let b ← (buffers i).ensureWriteableBytes limit (buffers j).readableBytes
      (b.write (Function.update buffers i b j).readable).map (Function.update buffers i)
  | .hasWritten i bytes => ((buffers i).hasWritten bytes).map (Function.update buffers i)
  | .retrieve i len => .ok (Function.update buffers i ((buffers i).retrieve len))
  | .retrieveAll i => .ok (Function.update buffers i (buffers i).retrieveAll)
  | .ensureWriteableBytes i len => ((buffers i).ensureWriteableBytes limit len).map (Function.update buffers i)
  | .unWrite i offset => ((buffers i).unWrite offset).map (Function.update buffers i)
  | .swap i j => .ok (Function.update (Function.update buffers i (buffers j)) j (buffers i))
  | .readFd i bytes => ((buffers i).readFd limit bytes).map (Function.update buffers i)

end

end Lssvc.Network
