import RtThread.Ipc.WaitList
import RtThread.Kernel.Align
import RtThread.Lib.Deque
import RtThread.Lib.Transition

namespace RtThread.Ipc

open Function RtThread.Lib

/-! The message queues of `ipc.c`.  A call that passes a message has two sections
with the interrupts disabled and copies between them, so it is modelled as a
process that other processes may overtake at each boundary.  A process is a
thread or an interrupt handler; no signals are delivered. -/

inductive MqCall
  | idle
  -- `rt_mq_send` and `rt_mq_urgent`, before and after the copy into the block
  | taken (urgent : Bool) (msg : Nat) (buffer : List UInt8)
  | copied (urgent : Bool) (msg : Nat) (buffer : List UInt8)
  -- `rt_mq_recv` in `rt_schedule`, then before and after the copy from the block
  | waiting (size : Nat) (timeout : Int) (tickDelta : Nat)
  | unlinked (size msg ticket : Nat)
  | received (size msg ticket : Nat) (buffer : List UInt8)
  deriving DecidableEq

namespace MqCall

def block : MqCall → Option Nat
  | .idle => none
  | .taken _ msg _ => some msg
  | .copied _ msg _ => some msg
  | .waiting .. => none
  | .unlinked _ msg _ => some msg
  | .received _ msg _ _ => some msg

def ticket : MqCall → Option Nat
  | .unlinked _ _ ticket => some ticket
  | .received _ _ ticket _ => some ticket
  | _ => none

end MqCall

/-- What a call of `rt_mq_recv` with room for `size` bytes has handed out. -/
structure Delivery where
  ticket : Nat
  size : Nat
  buffer : List UInt8
  deriving DecidableEq

/-- One message queue and the processes that use it.  Blocks are numbered in pool
order; `next` is the header of a block and `data` the bytes behind it.

History: `sections` logs the linking and unlinking sections and the resets, with
the messages as the senders passed them, and `delivered` what has been received. -/
structure MqSystem extends WaitQueue where
  flag : IpcFlag
  msgSize : Nat
  maxMsgs : Nat
  entry : Nat
  msgQueueHead : Option Nat
  msgQueueTail : Option Nat
  msgQueueFree : Option Nat
  next : Nat → Option Nat
  data : Nat → List UInt8
  tick : Nat
  call : Tid → MqCall
  result : Option Int
  sections : List (DequeOp (List UInt8))
  delivered : List Delivery

def mqInitFree (s : MqSystem) : Nat → MqSystem
  | 0 => { s with msgQueueFree := none }
  | temp + 1 =>
    let s := mqInitFree s temp
    { s with
      next := update s.next temp s.msgQueueFree
      msgQueueFree := some temp }

/-- What `rt_mq_init` and `rt_mq_create` have in common: they differ in how
they find the number of messages. -/
def mqInit (msgSize maxMsgs alignSize : Nat) (flag : IpcFlag) (s : MqSystem) : MqSystem :=
  let s :=
    { s with
      flag := flag
      suspendThread := []
      msgSize := rtAlign msgSize alignSize % 65536
      maxMsgs := maxMsgs % 65536
      msgQueueHead := none
      msgQueueTail := none
      entry := 0 }
  mqInitFree s s.maxMsgs

def rtMqInit (msgSize poolSize alignSize : Nat) (flag : IpcFlag) (s : MqSystem) : MqSystem :=
  -- a block has a header of one pointer
  mqInit msgSize (poolSize / (rtAlign msgSize alignSize % 65536 + 4)) alignSize flag s

def rtMqCreate (msgSize maxMsgs alignSize : Nat) (flag : IpcFlag) (s : MqSystem) : MqSystem :=
  mqInit msgSize maxMsgs alignSize flag s

/-- `rt_mq_send` and `rt_mq_urgent` up to the end of their first section. -/
def mqTakeFree (urgent : Bool) (t : Tid) (buffer : List UInt8) (s : MqSystem) : MqSystem :=
  if s.msgSize < buffer.length then { s with result := some (-rtError) }
  else
    match s.msgQueueFree with
    | none => { s with result := some (-rtEfull) }
    | some msg =>
      { s with
        msgQueueFree := s.next msg
        call := update s.call t (.taken urgent msg buffer)
        result := none }

def rtMqSend (t : Tid) (buffer : List UInt8) (s : MqSystem) : MqSystem :=
  mqTakeFree false t buffer s

def rtMqUrgent (t : Tid) (buffer : List UInt8) (s : MqSystem) : MqSystem :=
  mqTakeFree true t buffer s

/-- The copy; only `rt_mq_send` ends the list before it. -/
def mqCopy (urgent : Bool) (t : Tid) (msg : Nat) (buffer : List UInt8) (s : MqSystem) : MqSystem :=
  { s with
    next := if urgent then s.next else update s.next msg none
    data := update s.data msg (buffer ++ (s.data msg).drop buffer.length)
    call := update s.call t (.copied urgent msg buffer)
    result := none }

/-- `rt_ipc_list_resume` when somebody waits. -/
def mqResume (s : MqSystem) : MqSystem :=
  match s.suspendThread with
  | [] => s
  | first :: _ => { s with toWaitQueue := s.toWaitQueue.resume first }

def mqLinkTail (msg : Nat) (s : MqSystem) : MqSystem :=
  { s with
    next :=
      match s.msgQueueTail with
      | none => s.next
      | some tail => update s.next tail (some msg)
    msgQueueTail := some msg
    msgQueueHead :=
      match s.msgQueueHead with
      | none => some msg
      | some head => some head
    entry := inc16 s.entry }

def mqLinkHead (msg : Nat) (s : MqSystem) : MqSystem :=
  { s with
    next := update s.next msg s.msgQueueHead
    msgQueueHead := some msg
    msgQueueTail :=
      match s.msgQueueTail with
      | none => some msg
      | some tail => some tail
    entry := inc16 s.entry }

def mqLink (urgent : Bool) (t : Tid) (msg : Nat) (buffer : List UInt8) (s : MqSystem) : MqSystem :=
  { mqResume (if urgent then mqLinkHead msg s else mqLinkTail msg s) with
    call := update s.call t .idle
    result := some rtEok
    sections := s.sections ++ [if urgent then .prepend buffer else .append buffer] }

/-- `rt_mq_recv` gets a block from the queue; undefined where it would follow a
null head. -/
def mqUnlink (t : Tid) (size : Nat) (s : MqSystem) : Option MqSystem :=
  match s.msgQueueHead with
  | none => none
  | some msg =>
    some { s with
      msgQueueHead := s.next msg
      msgQueueTail := if s.msgQueueTail = some msg then none else s.msgQueueTail
      entry := dec16 s.entry
      call := update s.call t (.unlinked size msg (s.sections.count .pop))
      result := none
      sections := s.sections ++ [.pop] }

/-- The body of the loop of `rt_mq_recv` up to `rt_schedule`, with its `return`. -/
def mqWait (t : Tid) (size : Nat) (timeout : Int) (s : MqSystem) : MqSystem :=
  if timeout = 0 then
    { s with
      toWaitQueue := (s.toWaitQueue.setError t rtEok).setError t (-rtEtimeout)
      call := update s.call t .idle
      result := some (-rtEtimeout) }
  else
    { s with
      toWaitQueue := (s.toWaitQueue.setError t rtEok).suspend s.flag t timeout
      call := update s.call t (.waiting size timeout s.tick)
      result := none }

def mqRecvLoop (t : Tid) (size : Nat) (timeout : Int) (s : MqSystem) : Option MqSystem :=
  if s.entry = 0 then some (mqWait t size timeout s) else mqUnlink t size s

def rtMqRecv (t : Tid) (size : Nat) (timeout : Int) (s : MqSystem) : Option MqSystem :=
  if s.entry = 0 ∧ timeout = 0 then some { s with result := some (-rtEtimeout) }
  else mqRecvLoop t size timeout s

/-- `timeout -= tick_delta` in 32 bits, and not below zero. -/
def mqRemaining (timeout : Int) (start now : Nat) : Int :=
  if 0 < timeout then
    max 0 (Int.bmod (timeout - ((now + (2 ^ 32 - start)) % 2 ^ 32 : Nat)) (2 ^ 32))
  else timeout

def mqWoken (t : Tid) (size : Nat) (timeout : Int) (tickDelta : Nat) (s : MqSystem) :
    Option MqSystem :=
  if (s.thread t).error ≠ rtEok then
    some { s with
      call := update s.call t .idle
      result := some (s.thread t).error }
  else mqRecvLoop t size (mqRemaining timeout tickDelta s.tick) s

def mqRecvCopy (t : Tid) (size msg ticket : Nat) (s : MqSystem) : MqSystem :=
  let buffer := (s.data msg).take (if s.msgSize < size then s.msgSize else size)
  { s with
    call := update s.call t (.received size msg ticket buffer)
    result := none }

def mqPutFree (t : Tid) (size msg ticket : Nat) (buffer : List UInt8) (s : MqSystem) : MqSystem :=
  { s with
    next := update s.next msg s.msgQueueFree
    msgQueueFree := some msg
    call := update s.call t .idle
    result := some rtEok
    delivered := ⟨ticket, size, buffer⟩ :: s.delivered }

/-- The loop of `rt_mq_control` that releases the messages, with `fuel` for its
iterations. -/
def mqReleaseAll : Nat → MqSystem → Option MqSystem
  | 0, s => if s.msgQueueHead = none then some s else none
  | fuel + 1, s =>
    match s.msgQueueHead with
    | none => some s
    | some msg =>
      mqReleaseAll fuel
        { s with
          msgQueueHead := s.next msg
          msgQueueTail := if s.msgQueueTail = some msg then none else s.msgQueueTail
          next := update s.next msg s.msgQueueFree
          msgQueueFree := some msg }

/-- `rt_mq_control` with `RT_IPC_CMD_RESET`. -/
def rtMqReset (s : MqSystem) : Option MqSystem := do
  let waiters ← s.toWaitQueue.resumeAll
  let s ← mqReleaseAll s.maxMsgs { s with toWaitQueue := waiters }
  return { s with
    entry := 0
    result := some rtEok
    sections := s.sections ++ [.clear] }

def mqTimeout (t : Tid) (s : MqSystem) : MqSystem :=
  { s with toWaitQueue := s.toWaitQueue.expire t, result := none }

def mqContinue (t : Tid) (s : MqSystem) : Option MqSystem :=
  match s.call t with
  | .idle => none
  | .taken urgent msg buffer => some (mqCopy urgent t msg buffer s)
  | .copied urgent msg buffer => some (mqLink urgent t msg buffer s)
  | .waiting size timeout tickDelta => mqWoken t size timeout tickDelta s
  | .unlinked size msg ticket => some (mqRecvCopy t size msg ticket s)
  | .received size msg ticket buffer => some (mqPutFree t size msg ticket buffer s)

inductive MqOp
  | send (t : Tid) (buffer : List UInt8)
  | urgent (t : Tid) (buffer : List UInt8)
  | recv (t : Tid) (size : Nat) (timeout : Int)
  | proceed (t : Tid)
  | timeout (t : Tid)
  | reset
  | tick
  deriving DecidableEq

/-- A process that runs and is in no call may begin one with a buffer that is not
empty, one in a call may go on; a timer that was started may expire. -/
def MqSystem.enabled (s : MqSystem) : MqOp → Bool
  | .send t buffer =>
    s.call t = .idle ∧ (s.thread t).stat = .ready ∧ buffer.length ≠ 0
  | .urgent t buffer =>
    s.call t = .idle ∧ (s.thread t).stat = .ready ∧ buffer.length ≠ 0
  | .recv t size _ => s.call t = .idle ∧ (s.thread t).stat = .ready ∧ size ≠ 0
  | .proceed t => s.call t ≠ .idle ∧ (s.thread t).stat = .ready
  | .timeout t => (s.thread t).stat = .suspend ∧ (s.thread t).timerActive
  | .reset => true
  | .tick => true

def MqSystem.exec (s : MqSystem) (op : MqOp) : Option MqSystem :=
  if s.enabled op then
    match op with
    | .send t buffer => some (rtMqSend t buffer s)
    | .urgent t buffer => some (rtMqUrgent t buffer s)
    | .recv t size timeout => rtMqRecv t size timeout s
    | .proceed t => mqContinue t s
    | .timeout t => some (mqTimeout t s)
    | .reset => rtMqReset s
    | .tick => some { s with tick := (s.tick + 1) % 2 ^ 32, result := none }
  else none

def MqSystem.Initial (s : MqSystem) : Prop :=
  ∃ msgSize alignSize flag before,
    ((∃ poolSize, s = rtMqInit msgSize poolSize alignSize flag before) ∨
      ∃ maxMsgs, s = rtMqCreate msgSize maxMsgs alignSize flag before) ∧
    (∀ t, (before.thread t).stat = .ready) ∧ (∀ t, before.call t = .idle) ∧
    (∀ b, (before.data b).length = rtAlign msgSize alignSize % 65536) ∧
    before.sections = [] ∧ before.delivered = []

end RtThread.Ipc
