import RtThread.Ipc.WaitList
import RtThread.Lib.Transition

namespace RtThread.Driver

open Function RtThread.Ipc RtThread.Lib

/-! The data queue of `dataqueue.c`.  A push or a pop is a section with interrupts
disabled and, if it has to wait, further ones after each return from `rt_schedule`. -/

structure DataItem where
  dataPtr : Nat
  dataSize : Nat
  deriving DecidableEq

inductive DataCall
  | push (item : DataItem) (timeout : Int)
  | pop (timeout : Int)
  deriving DecidableEq

/-- One queue and the threads that use it.

History: `pushed` and `popped` are the items of the calls that succeeded. -/
structure DataQueue where
  size : Nat
  lwm : Nat
  getIndex : Nat
  putIndex : Nat
  queue : Nat → DataItem
  suspendedPushList : List Tid
  suspendedPopList : List Tid
  thread : Tid → Thread
  call : Tid → Option DataCall
  result : Option Int
  pushed : List DataItem
  popped : List DataItem

namespace DataQueue

def isFull (s : DataQueue) : Bool := (s.putIndex : Int) - s.getIndex = s.size

def isEmpty (s : DataQueue) : Bool := s.getIndex = s.putIndex

def setThread (s : DataQueue) (t : Tid) (thread : Thread) : DataQueue :=
  { s with thread := update s.thread t thread }

def suspend (s : DataQueue) (t : Tid) (call : DataCall) (timeout : Int) : DataQueue :=
  { s.setThread t { ({ s.thread t with error := rtEok }).suspend with timerActive := 0 < timeout } with
    call := update s.call t (some call)
    result := none }

def resumeFirst (s : DataQueue) : List Tid → DataQueue
  | [] => s
  | first :: _ =>
    if (s.thread first).stat = .suspend then
      { s.setThread first (s.thread first).resume with
        suspendedPushList := listRemove first s.suspendedPushList
        suspendedPopList := listRemove first s.suspendedPopList }
    else s

def rtDataQueuePush (t : Tid) (item : DataItem) (timeout : Int) (s : DataQueue) : DataQueue :=
  if s.isFull then
    if timeout = 0 then { s with result := some (-rtEtimeout) }
    else
      { s.suspend t (.push item timeout) timeout with
        suspendedPushList := s.suspendedPushList ++ [t] }
  else
    { s with
      queue := update s.queue (s.putIndex % s.size) item
      putIndex := inc16 s.putIndex
      result := some rtEok
      pushed := s.pushed ++ [item] }.resumeFirst s.suspendedPopList

def rtDataQueuePop (t : Tid) (timeout : Int) (s : DataQueue) : DataQueue :=
  if s.isEmpty then
    if timeout = 0 then { s with result := some (-rtEtimeout) }
    else
      { s.suspend t (.pop timeout) timeout with
        suspendedPopList := s.suspendedPopList ++ [t] }
  else
    let s :=
      { s with
        getIndex := inc16 s.getIndex
        result := some rtEok
        popped := s.popped ++ [s.queue (s.getIndex % s.size)] }
    if (s.putIndex : Int) - s.getIndex ≤ s.lwm then s.resumeFirst s.suspendedPushList else s

def proceed (t : Tid) (s : DataQueue) : Option DataQueue :=
  (s.call t).map fun call =>
    let s := { s with call := update s.call t none }
    if (s.thread t).error ≠ rtEok then { s with result := some (s.thread t).error }
    else
      match call with
      | .push item timeout => s.rtDataQueuePush t item timeout
      | .pop timeout => s.rtDataQueuePop t timeout

def expire (t : Tid) (s : DataQueue) : DataQueue :=
  { s.setThread t (s.thread t).expire with
    suspendedPushList := listRemove t s.suspendedPushList
    suspendedPopList := listRemove t s.suspendedPopList
    result := none }

end DataQueue

inductive DataOp
  | push (t : Tid) (item : DataItem) (timeout : Int)
  | pop (t : Tid) (timeout : Int)
  | proceed (t : Tid)
  | expire (t : Tid)
  deriving DecidableEq

def DataQueue.canCall (s : DataQueue) (t : Tid) (timeout : Int) : Prop :=
  timeout = 0 ∨ ((s.thread t).stat = .ready ∧ s.call t = none)

instance (s : DataQueue) (t : Tid) (timeout : Int) : Decidable (s.canCall t timeout) :=
  inferInstanceAs (Decidable (_ ∨ _))

def DataQueue.exec (s : DataQueue) : DataOp → Option DataQueue
  | .push t item timeout =>
    if s.canCall t timeout then some (s.rtDataQueuePush t item timeout) else none
  | .pop t timeout => if s.canCall t timeout then some (s.rtDataQueuePop t timeout) else none
  | .proceed t => if (s.thread t).stat = .ready then s.proceed t else none
  | .expire t =>
    if (s.thread t).stat = .suspend ∧ (s.thread t).timerActive then some (s.expire t) else none

/-- After `rt_data_queue_init` with any size and low-water mark. -/
structure DataQueue.Initial (s : DataQueue) : Prop where
  size_pos : 0 < s.size
  size_lt : s.size < 65536
  getIndex : s.getIndex = 0
  putIndex : s.putIndex = 0
  suspendedPushList : s.suspendedPushList = []
  suspendedPopList : s.suspendedPopList = []
  thread : ∀ t, (s.thread t).stat = .ready
  call : ∀ t, s.call t = none
  pushed : s.pushed = []
  popped : s.popped = []

def dataQueueMachine : Machine DataQueue DataOp where
  init := DataQueue.Initial
  exec := DataQueue.exec

end RtThread.Driver
