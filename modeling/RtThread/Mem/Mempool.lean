import Mathlib.Algebra.Order.Ring.Nat
import RtThread.Kernel.Thread
import RtThread.Lib.Chain
import RtThread.Lib.Transition

namespace RtThread.Mem

open Function RtThread.Lib

/-! `mempool.c`.  A pointer to RT_NULL is `none`.  The word in front of a block points to
the next free block or, in a block that has been allocated, to the pool. -/

structure Mempool where
  startAddress : Nat
  size : Nat
  blockSize : Nat
  blockTotalCount : Nat
  blockFreeCount : Nat
  blockList : Option Nat
  header : Nat → Option Nat
  suspendThread : List Tid
  suspendThreadCount : Nat

namespace Mempool

def stride (mp : Mempool) : Nat := mp.blockSize + 4

def block (mp : Mempool) (offset : Nat) : Nat := mp.startAddress + offset * mp.stride

def linkBlocks (start stride : Nat) (header : Nat → Option Nat) : Nat → Nat → Option Nat
  | 0 => header
  | offset + 1 =>
    update (linkBlocks start stride header offset) (start + offset * stride)
      (some (start + (offset + 1) * stride))

def rtMpInit (start size blockSize : Nat) (memory : Nat → Option Nat) : Mempool :=
  let size := size / 4 * 4
  let blockSize := (blockSize + 3) / 4 * 4
  let stride := blockSize + 4
  let total := size / stride
  { startAddress := start
    size := size
    blockSize := blockSize
    blockTotalCount := total
    blockFreeCount := total
    blockList := some start
    header :=
      update (linkBlocks start stride memory total) (start + (total - 1) * stride) none
    suspendThread := []
    suspendThreadCount := 0 }

end Mempool

/-- The variables of a thread inside `rt_mp_alloc`. -/
structure MpCall where
  time : Int
  beforeSleep : Nat
  deriving DecidableEq

structure MpThread where
  stat : ThreadStat
  error : Int
  timerActive : Bool
  call : Option MpCall
  deriving DecidableEq

inductive MpCaller
  | thread (t : Tid)
  | isr
  deriving DecidableEq

/-- A pool and its users.  `listError` is the address of the `error` of the thread that the head of
`suspend_thread` is taken for; `live` are the blocks that have been handed out, and `returned` is
what the last step returned from `rt_mp_alloc`. -/
structure MpSystem where
  self : Nat
  listError : Nat
  pool : Mempool
  thread : Tid → MpThread
  irqErrno : Int
  tick : Nat
  live : List Nat
  returned : Option (MpCaller × Option Nat)

inductive MpOp
  | alloc (caller : MpCaller) (time : Int)
  | goOn (t : Tid)
  | free (block : Nat) (stray : ThreadStat)
  | expire (t : Tid)
  | delay (t : Tid)
  | tick
  deriving DecidableEq

namespace MpSystem

def setThread (s : MpSystem) (t : Tid) (thread : MpThread) : MpSystem :=
  { s with thread := update s.thread t thread }

def setErrno (s : MpSystem) (caller : MpCaller) (error : Int) : MpSystem :=
  match caller with
  | .thread t => s.setThread t { s.thread t with error := error }
  | .isr => { s with irqErrno := error }

def errno (s : MpSystem) : MpCaller → Int
  | .thread t => (s.thread t).error
  | .isr => s.irqErrno

def ret (s : MpSystem) (caller : MpCaller) (block : Option Nat) : MpSystem :=
  match caller with
  | .thread t =>
    { s.setThread t { s.thread t with call := none } with returned := some (caller, block) }
  | .isr => { s with returned := some (caller, block) }

def sleep (s : MpSystem) (t : Tid) (time : Int) : Option MpSystem :=
  if (s.thread t).stat ≠ .ready then none
  else
    some { s.setThread t
        { stat := .suspend
          error := rtEok
          timerActive := decide (0 < time)
          call := some { time := time, beforeSleep := s.tick } } with
      pool := { s.pool with
        suspendThread := t :: s.pool.suspendThread
        suspendThreadCount := s.pool.suspendThreadCount + 1 } }

def take (s : MpSystem) (caller : MpCaller) : Option MpSystem :=
  match s.pool.blockList with
  -- RT_ASSERT(block_ptr != RT_NULL)
  | none => none
  | some block =>
    some ({ s with
      pool := { s.pool with
        blockFreeCount := s.pool.blockFreeCount - 1
        blockList := s.pool.header block
        header := update s.pool.header block (some s.self) }
      live := block :: s.live }.ret caller (some block))

def tryAlloc (s : MpSystem) (caller : MpCaller) (time : Int) : Option MpSystem :=
  if s.pool.blockFreeCount = 0 then
    if time = 0 then some ((s.setErrno caller (-rtEtimeout)).ret caller none)
    else
      match caller with
      | .thread t => s.sleep t time
      -- RT_DEBUG_NOT_IN_INTERRUPT
      | .isr => none
  else s.take caller

/-- `time` after a sleep: `rt_int32_t` less a difference of `rt_tick_t`. -/
def remaining (s : MpSystem) (call : MpCall) : Int :=
  if 0 < call.time then
    max 0 (Int.bmod (call.time - ((s.tick : Int) - call.beforeSleep)) (2 ^ 32))
  else call.time

def goOn (s : MpSystem) (t : Tid) : Option MpSystem :=
  match (s.thread t).call with
  | none => none
  | some call =>
    if (s.thread t).stat ≠ .ready then none
    else if (s.thread t).error ≠ rtEok then some (s.ret (.thread t) none)
    else s.tryAlloc (.thread t) (s.remaining call)

def resume (s : MpSystem) (t : Tid) : MpSystem :=
  if (s.thread t).stat ≠ .suspend then s
  else
    { s.setThread t { s.thread t with stat := .ready, timerActive := false } with
      pool := { s.pool with suspendThread := s.pool.suspendThread.erase t } }

/-- `rt_mp_free`.  If the list is empty although the count is not 0, the list head is taken for
the `tlist` of a thread, whose `error` may lie in a block, and `stray` is what is found in the place
of its `stat`. -/
def free (s : MpSystem) (block : Nat) (stray : ThreadStat) : Option MpSystem :=
  if block ∈ s.live ∧ s.pool.header block = some s.self then
    let s := { s with
      pool := { s.pool with
        blockFreeCount := s.pool.blockFreeCount + 1
        header := update s.pool.header block s.pool.blockList
        blockList := some block }
      live := s.live.erase block }
    if 0 < s.pool.suspendThreadCount then
      match s.pool.suspendThread with
      | thread :: _ =>
        let s := (s.setThread thread { s.thread thread with error := rtEok }).resume thread
        some { s with
          pool := { s.pool with suspendThreadCount := s.pool.suspendThreadCount - 1 } }
      | [] =>
        if stray = .suspend then none
        else some { s with
          pool := { s.pool with
            -- `RT_EOK` is the word 0
            header := update s.pool.header s.listError none
            suspendThreadCount := s.pool.suspendThreadCount - 1 } }
    else some s
  else none

def expire (s : MpSystem) (t : Tid) : Option MpSystem :=
  if (s.thread t).stat = .suspend ∧ (s.thread t).timerActive = true then
    some { s.setThread t
        { s.thread t with stat := .ready, error := -rtEtimeout, timerActive := false } with
      pool := { s.pool with suspendThread := s.pool.suspendThread.erase t } }
  else none

def delay (s : MpSystem) (t : Tid) : Option MpSystem :=
  if (s.thread t).stat = .ready ∧ (s.thread t).call = none then
    some (s.setThread t { s.thread t with stat := .suspend, timerActive := true })
  else none

def exec (s : MpSystem) (op : MpOp) : Option MpSystem :=
  let s := { s with returned := none }
  match op with
  | .alloc (.thread t) time =>
    if (s.thread t).stat = .ready ∧ (s.thread t).call = none then s.tryAlloc (.thread t) time
    else none
  | .alloc .isr time => s.tryAlloc .isr time
  | .goOn t => s.goOn t
  | .free block stray => s.free block stray
  | .expire t => s.expire t
  | .delay t => s.delay t
  | .tick => some { s with tick := (s.tick + 1) % 2 ^ 32 }

end MpSystem

structure MpInitial (s : MpSystem) : Prop where
  pool : ∃ start size blockSize memory, s.pool = Mempool.rtMpInit start size blockSize memory
  some : 0 < s.pool.blockTotalCount
  live : s.live = []
  idle : ∀ t, (s.thread t).stat = .ready ∧ (s.thread t).call = none
  returned : s.returned = none

def mpMachine : Machine MpSystem MpOp where
  init := MpInitial
  exec := MpSystem.exec

end RtThread.Mem
