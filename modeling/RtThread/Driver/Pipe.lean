import RtThread.Driver.RingBufferFifo
import RtThread.Kernel.Thread
import RtThread.Lib.Transition

namespace RtThread.Driver

open Function RtThread.Lib

/-! The pipe of `pipe.c`.  What a call does while it holds `pipe->lock` is one step, and so is
the test that it makes before.  A call that waits on one of the wait queues of the pipe may
go on at any time. -/

/-- `flags & O_ACCMODE` -/
inductive AccMode
  | rdonly
  | wronly
  | rdwr
  deriving DecidableEq

def AccMode.reads : AccMode → Bool
  | .wronly => false
  | _ => true

def AccMode.writes : AccMode → Bool
  | .rdonly => false
  | _ => true

structure PipeFd where
  mode : AccMode
  nonblock : Bool
  deriving DecidableEq

inductive PipeCall
  | read (nonblock : Bool) (count : Nat)
  | write (nonblock : Bool) (buf : List Byte) (ret : Nat)
  deriving DecidableEq

abbrev eagain : Int := 11
abbrev epipe : Int := 32

/-- A pipe, its open descriptors and the calls under way.

History: `accepted` and `delivered` are the bytes put into the ring buffer and taken from it.  For
each read that returned 0, `ended` has the number of descriptors then open for writing and that of
the bytes accepted and not delivered. -/
structure Pipe where
  fifo : Option RingBuffer
  bufsz : Nat
  readers : Nat
  writers : Nat
  refCount : Nat
  fds : List PipeFd
  call : Tid → Option PipeCall
  result : Option Int
  accepted : List Byte
  delivered : List Byte
  ended : List (Nat × Nat)

def inc8 (n : Nat) : Nat := (n + 1) % 256

def dec8 (n : Nat) : Nat := if n = 0 then 255 else n - 1

/-- `rt_ringbuffer_create`, where the memory it gets is `pool`; an assertion excludes
sizes that are not positive as an `rt_int16_t`. -/
def rtRingbufferCreate (pool : Nat → Byte) (size : Nat) : Option RingBuffer :=
  if 0 < size / 4 * 4 ∧ size / 4 * 4 < 32768 then
    some (RingBuffer.rtRingbufferInit pool (size / 4 * 4))
  else none

namespace Pipe

def pipeFopsOpen (pool : Nat → Byte) (fd : PipeFd) (s : Pipe) : Option Pipe :=
  let counted : Pipe :=
    { s with
      readers := if fd.mode.reads then inc8 s.readers else s.readers
      writers := if fd.mode.writes then inc8 s.writers else s.writers
      refCount := inc8 s.refCount
      fds := s.fds ++ [fd]
      result := some 0 }
  if s.refCount = 0 then
    (rtRingbufferCreate pool s.bufsz).map fun fifo => { counted with fifo := some fifo }
  else some counted

def pipeFopsClose (i : Nat) (fd : PipeFd) (s : Pipe) : Pipe :=
  { s with
    readers := if fd.mode.reads then dec8 s.readers else s.readers
    writers := if fd.mode.writes then dec8 s.writers else s.writers
    fifo := if s.refCount = 1 then none else s.fifo
    refCount := dec8 s.refCount
    fds := s.fds.eraseIdx i
    result := some 0 }

def endOfFile (s : Pipe) : Pipe :=
  { s with
    result := some 0
    ended := s.ended ++
      [(s.fds.countP (·.mode.writes), s.accepted.length - s.delivered.length)] }

def pipeFopsRead (t : Tid) (fd : PipeFd) (count : Nat) (s : Pipe) : Pipe :=
  if s.writers = 0 then s.endOfFile
  else { s with call := update s.call t (some (.read fd.nonblock count)), result := none }

def readTurn (t : Tid) (nonblock : Bool) (count : Nat) (s : Pipe) : Option Pipe :=
  if s.writers = 0 then some { s with call := update s.call t none }.endOfFile
  else
    s.fifo.bind fun fifo => (fifo.rtRingbufferGet (count % 65536)).map fun (reply, fifo) =>
      if 0 < reply.returned then
        { s with
          fifo := some fifo
          call := update s.call t none
          result := some reply.returned
          delivered := s.delivered ++ reply.data }
      else if nonblock then
        { s with
          fifo := some fifo
          call := update s.call t none
          result := some (-eagain) }
      else { s with fifo := some fifo, result := none }

def pipeFopsWrite (t : Tid) (fd : PipeFd) (buf : List Byte) (s : Pipe) : Pipe :=
  if s.readers = 0 then { s with result := some (-epipe) }
  else if buf = [] then { s with result := some 0 }
  else { s with call := update s.call t (some (.write fd.nonblock buf 0)), result := none }

def writeTurn (t : Tid) (nonblock : Bool) (buf : List Byte) (ret : Nat) (s : Pipe) : Option Pipe :=
  if s.readers = 0 then
    some { s with
      call := update s.call t none
      result := some (if ret = 0 then -epipe else ret) }
  else
    s.fifo.bind fun fifo =>
      (fifo.rtRingbufferPut (buf.drop ret) ((buf.length - ret) % 65536)).map
        fun (reply, fifo) =>
          let s := { s with
            fifo := some fifo
            accepted := s.accepted ++ (buf.drop ret).take reply.returned }
          let ret := ret + reply.returned
          if ret = buf.length then
            { s with call := update s.call t none, result := some ret }
          else if nonblock then
            { s with
              call := update s.call t none
              result := some (if ret = 0 then -eagain else ret) }
          else
            { s with
              call := update s.call t (some (.write nonblock buf ret))
              result := none }

end Pipe

inductive PipeOp
  | opened (pool : Nat → Byte) (fd : PipeFd)
  | close (i : Nat)
  | read (t : Tid) (i count : Nat)
  | write (t : Tid) (i : Nat) (buf : List Byte)
  | turn (t : Tid)

def Pipe.exec (s : Pipe) : PipeOp → Option Pipe
  | .opened pool fd => s.pipeFopsOpen pool fd
  -- at least one descriptor stays open
  | .close i =>
    if s.fds.length = 1 then none else s.fds[i]?.map fun fd => s.pipeFopsClose i fd
  | .read t i count =>
    if s.call t = none ∧ 0 < count then s.fds[i]?.map fun fd => s.pipeFopsRead t fd count
    else none
  | .write t i buf =>
    if s.call t = none then s.fds[i]?.map fun fd => s.pipeFopsWrite t fd buf else none
  | .turn t =>
    match s.call t with
    | none => none
    | some (.read nonblock count) => s.readTurn t nonblock count
    | some (.write nonblock buf ret) => s.writeTurn t nonblock buf ret

structure Pipe.Initial (s : Pipe) : Prop where
  fifo : s.fifo = none
  bufsz : s.bufsz < 65535
  readers : s.readers = 0
  writers : s.writers = 0
  refCount : s.refCount = 0
  fds : s.fds = []
  call : ∀ t, s.call t = none
  accepted : s.accepted = []
  delivered : s.delivered = []
  ended : s.ended = []

def pipeMachine : Machine Pipe PipeOp where
  init := Pipe.Initial
  exec := Pipe.exec

end RtThread.Driver
