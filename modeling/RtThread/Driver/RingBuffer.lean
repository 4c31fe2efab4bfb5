import RtThread.Lib.Ring
import RtThread.Lib.Transducer

namespace RtThread.Driver

open RtThread.Lib

/-! `ringbuffer.c`.  An access outside of the buffer has no outcome. -/

abbrev Byte := BitVec 8

structure RingBuffer where
  bufferPtr : Nat → Byte
  readMirror : Bool
  readIndex : Nat
  writeMirror : Bool
  writeIndex : Nat
  bufferSize : Nat

structure Reply where
  returned : Nat
  data : List Byte
  deriving DecidableEq

inductive RingbufferState
  | empty
  | full
  | halffull
  deriving DecidableEq

namespace RingBuffer

/-- `RT_ALIGN_DOWN(size, RT_ALIGN_SIZE)` of a positive `rt_int16_t`. -/
def rtRingbufferInit (pool : Nat → Byte) (size : Nat) : RingBuffer where
  bufferPtr := pool
  readMirror := false
  readIndex := 0
  writeMirror := false
  writeIndex := 0
  bufferSize := size / 4 * 4

def rtRingbufferStatus (rb : RingBuffer) : RingbufferState :=
  if rb.readIndex = rb.writeIndex then
    if rb.readMirror = rb.writeMirror then .empty else .full
  else .halffull

def rtRingbufferDataLen (rb : RingBuffer) : Nat :=
  match rb.rtRingbufferStatus with
  | .empty => 0
  | .full => rb.bufferSize
  | .halffull =>
    if rb.writeIndex > rb.readIndex then rb.writeIndex - rb.readIndex
    else rb.bufferSize - (rb.readIndex - rb.writeIndex)

def rtRingbufferSpaceLen (rb : RingBuffer) : Nat :=
  rb.bufferSize - rb.rtRingbufferDataLen

def copyTo (rb : RingBuffer) (dst : Nat) (bytes : List Byte) : Option RingBuffer :=
  if dst + bytes.length ≤ rb.bufferSize then
    some { rb with bufferPtr := storeCells rb.bufferPtr dst bytes }
  else none

def copyFrom (rb : RingBuffer) (src length : Nat) : Option (List Byte) :=
  if src + length ≤ rb.bufferSize then some (loadCells rb.bufferPtr src length) else none

def rtRingbufferPut (rb : RingBuffer) (ptr : List Byte) (length : Nat) :
    Option (Reply × RingBuffer) :=
  let size := rb.rtRingbufferSpaceLen
  if size = 0 then some (⟨0, []⟩, rb)
  else
    let length := if size < length then size else length
    let rest := rb.bufferSize - rb.writeIndex
    if rest > length then
      (rb.copyTo rb.writeIndex (ptr.take length)).map fun rb =>
        (⟨length, []⟩, { rb with writeIndex := (rb.writeIndex + length) % 32768 })
    else
      (rb.copyTo rb.writeIndex (ptr.take rest)).bind fun rb =>
        (rb.copyTo 0 ((ptr.drop rest).take (length - rest))).map fun rb =>
          (⟨length, []⟩, { rb with writeMirror := !rb.writeMirror, writeIndex := length - rest })

def rtRingbufferGet (rb : RingBuffer) (length : Nat) : Option (Reply × RingBuffer) :=
  let size := rb.rtRingbufferDataLen
  if size = 0 then some (⟨0, []⟩, rb)
  else
    let length := if size < length then size else length
    let rest := rb.bufferSize - rb.readIndex
    if rest > length then
      (rb.copyFrom rb.readIndex length).map fun bytes =>
        (⟨length, bytes⟩, { rb with readIndex := (rb.readIndex + length) % 32768 })
    else
      (rb.copyFrom rb.readIndex rest).bind fun bytes =>
        (rb.copyFrom 0 (length - rest)).map fun more =>
          (⟨length, bytes ++ more⟩,
            { rb with readMirror := !rb.readMirror, readIndex := length - rest })

def rtRingbufferPutchar (rb : RingBuffer) (ch : Byte) : Option (Reply × RingBuffer) :=
  if rb.rtRingbufferSpaceLen = 0 then some (⟨0, []⟩, rb)
  else
    (rb.copyTo rb.writeIndex [ch]).map fun rb =>
      if rb.writeIndex = rb.bufferSize - 1 then
        (⟨1, []⟩, { rb with writeMirror := !rb.writeMirror, writeIndex := 0 })
      else (⟨1, []⟩, { rb with writeIndex := (rb.writeIndex + 1) % 32768 })

def rtRingbufferPutcharForce (rb : RingBuffer) (ch : Byte) : Option (Reply × RingBuffer) :=
  let oldState := rb.rtRingbufferStatus
  (rb.copyTo rb.writeIndex [ch]).map fun rb =>
    if rb.writeIndex = rb.bufferSize - 1 then
      let rb := { rb with writeMirror := !rb.writeMirror, writeIndex := 0 }
      if oldState = .full then
        (⟨1, []⟩, { rb with readMirror := !rb.readMirror, readIndex := rb.writeIndex })
      else (⟨1, []⟩, rb)
    else
      let rb := { rb with writeIndex := (rb.writeIndex + 1) % 32768 }
      if oldState = .full then (⟨1, []⟩, { rb with readIndex := rb.writeIndex }) else (⟨1, []⟩, rb)

def rtRingbufferGetchar (rb : RingBuffer) : Option (Reply × RingBuffer) :=
  if rb.rtRingbufferDataLen = 0 then some (⟨0, []⟩, rb)
  else
    (rb.copyFrom rb.readIndex 1).map fun ch =>
      if rb.readIndex = rb.bufferSize - 1 then
        (⟨1, ch⟩, { rb with readMirror := !rb.readMirror, readIndex := 0 })
      else (⟨1, ch⟩, { rb with readIndex := (rb.readIndex + 1) % 32768 })

def rtRingbufferReset (rb : RingBuffer) : RingBuffer :=
  { rb with readMirror := false, readIndex := 0, writeMirror := false, writeIndex := 0 }

end RingBuffer

inductive RingOp
  | put (ptr : List Byte) (length : Nat)
  | get (length : Nat)
  | putchar (ch : Byte)
  | putcharForce (ch : Byte)
  | getchar
  | reset
  deriving DecidableEq

def RingOp.Legal : RingOp → Prop
  | .put ptr length => length ≤ ptr.length ∧ length < 65536
  | .get length => length < 65536
  | _ => True

def ringBuffer : Transducer RingBuffer RingOp Reply where
  step rb
    | .put ptr length => rb.rtRingbufferPut ptr length
    | .get length => rb.rtRingbufferGet length
    | .putchar ch => rb.rtRingbufferPutchar ch
    | .putcharForce ch => rb.rtRingbufferPutcharForce ch
    | .getchar => rb.rtRingbufferGetchar
    | .reset => some (⟨0, []⟩, rb.rtRingbufferReset)

/-- What a ring buffer is for: a queue of bytes that holds at most `size` of them. -/
def byteFifo (size : Nat) : Transducer (List Byte) RingOp Reply where
  step content
    | .put ptr length =>
      let length := min length (size - content.length)
      some (⟨length, []⟩, content ++ ptr.take length)
    | .get length =>
      let length := min length content.length
      some (⟨length, content.take length⟩, content.drop length)
    | .putchar ch =>
      if content.length < size then some (⟨1, []⟩, content ++ [ch]) else some (⟨0, []⟩, content)
    | .putcharForce ch =>
      if content.length < size then some (⟨1, []⟩, content ++ [ch])
      else some (⟨1, []⟩, content.drop 1 ++ [ch])
    | .getchar => some (⟨min 1 content.length, content.take 1⟩, content.drop 1)
    | .reset => some (⟨0, []⟩, [])

end RtThread.Driver
