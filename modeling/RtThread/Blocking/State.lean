import RtThread.Ipc.WaitList
import RtThread.Scheduler.Live

namespace RtThread.Blocking

open Function RtThread.Ipc RtThread.Scheduler

/-! The IPC objects of `ipc.c` over the scheduler.

Every step is one section with `_cpus_lock` held.  Between joining a wait list and its
call of `rt_schedule` the blocked thread is still the current one of its CPU. -/

abbrev ObjId := Nat

/-- `parent.suspend_thread`, and `suspend_sender_thread` of a mailbox. -/
inductive Side
  | receiver
  | sender
  deriving DecidableEq

structure MutexState where
  value : Nat
  originalPriority : Nat
  hold : Nat
  owner : Option Tid
  deriving DecidableEq

/-- History: `sent` and `received` are the mails of the sends and receives that have
returned `RT_EOK`, oldest first, since the last reset. -/
structure Mailbox where
  size : Nat
  entry : Nat
  inOffset : Nat
  outOffset : Nat
  msgPool : Nat → Nat
  sent : List Nat
  received : List Nat

/-- The blocks of a message queue are the subject of `Ipc.MessageQueue`; its waiters
depend on the number of messages alone. -/
inductive IpcObject
  | semaphore (value : Nat)
  | mutex (mutex : MutexState)
  | event (set : BitVec 32)
  | mailbox (mb : Mailbox)
  | messageQueue (entry : Nat)

inductive Kind
  | semaphore
  | mutex
  | event
  | mailbox
  | messageQueue
  deriving DecidableEq

def IpcObject.kind : IpcObject → Kind
  | .semaphore _ => .semaphore
  | .mutex _ => .mutex
  | .event _ => .event
  | .mailbox _ => .mailbox
  | .messageQueue _ => .messageQueue

section Kind

variable (value entry : Nat) (mutex : MutexState) (set : BitVec 32) (mb : Mailbox)

@[simp] theorem kind_semaphore : (IpcObject.semaphore value).kind = .semaphore := rfl
@[simp] theorem kind_mutex : (IpcObject.mutex mutex).kind = .mutex := rfl
@[simp] theorem kind_event : (IpcObject.event set).kind = .event := rfl
@[simp] theorem kind_mailbox : (IpcObject.mailbox mb).kind = .mailbox := rfl
@[simp] theorem kind_messageQueue : (IpcObject.messageQueue entry).kind = .messageQueue := rfl

end Kind

inductive Request
  | semTake
  | mutexTake
  | eventRecv
  | mbSend (value : Nat)
  | mbRecv
  | mqRecv
  deriving DecidableEq

def Request.side : Request → Side
  | .mbSend _ => .sender
  | .semTake | .mutexTake | .eventRecv | .mbRecv | .mqRecv => .receiver

def Request.kind : Request → Kind
  | .semTake => .semaphore
  | .mutexTake => .mutex
  | .eventRecv => .event
  | .mbSend _ | .mbRecv => .mailbox
  | .mqRecv => .messageQueue

structure Wait where
  obj : ObjId
  request : Request
  timeout : Int
  tickDelta : Nat
  deriving DecidableEq

/-- Who has woken a thread: a release or a send, its timer, or a reset of the object. -/
inductive Waker
  | grant
  | expiry
  | reset
  deriving DecidableEq

/-- What a call returns: its code, and what it stores in `*value` or `*recved`. -/
structure Result where
  code : Int
  value : Option Nat
  deriving DecidableEq

/-- `wait t` is the call in which thread `t` waits or has waited, until it goes on.

History: `wakers` are the wake-ups of each thread since it last blocked, `granted` the
threads that a release or a send has woken and that have not gone on yet, and `arrival`
numbers the threads in the order in which they blocked. -/
structure System where
  kernel : Kernel
  flag : ObjId → IpcFlag
  object : ObjId → IpcObject
  list : ObjId → Side → List Tid
  wait : Tid → Option Wait
  eventSet : Tid → BitVec 32
  eventInfo : Tid → BitVec 8
  tick : Nat
  result : Option Result
  wakers : Tid → List Waker
  granted : ObjId → Side → List Tid
  arrival : Tid → Nat
  arrivals : Nat

namespace System

def stat (s : System) (t : Tid) : ThreadStat := (s.kernel.thread t).stat

def error (s : System) (t : Tid) : Int := (s.kernel.thread t).error

def timerActive (s : System) (t : Tid) : Bool := (s.kernel.thread t).timerActive

def priority (s : System) (t : Tid) : Nat := (s.kernel.thread t).currentPriority

def withKernel (s : System) (k : Kernel) : System :=
  { s with kernel := k, result := none }

def setError (s : System) (t : Tid) (error : Int) : System :=
  { s with kernel := s.kernel.setThread t { s.kernel.thread t with error := error } }

def setObject (s : System) (o : ObjId) (object : IpcObject) : System :=
  { s with object := update s.object o object }

def setEventSet (s : System) (t : Tid) (set : BitVec 32) : System :=
  { s with eventSet := update s.eventSet t set }

def setList (s : System) (o : ObjId) (side : Side) (list : List Tid) : System :=
  { s with list := update s.list o (update (s.list o) side list) }

def returns (s : System) (code : Int) : System :=
  { s with result := some ⟨code, none⟩ }

def CanCall (s : System) (c : Nat) (t : Tid) : Prop :=
  (s.kernel.cpu c).currentThread = some t ∧ s.stat t = .ready ∧ s.wait t = none

instance (s : System) (c : Nat) (t : Tid) : Decidable (s.CanCall c t) :=
  inferInstanceAs (Decidable (_ ∧ _ ∧ _))

/-- The current thread of CPU `c` blocks: `rt_ipc_list_suspend`, then the start of its
timer for a positive time.  What `rt_thread_suspend` returns is not looked at. -/
def block (cfg : Config) (c : Nat) (t : Tid) (o : ObjId) (request : Request)
    (timeout : Int) (s : System) : Option System :=
  -- RT_DEBUG_IN_THREAD_CONTEXT
  if s.CanCall c t then
    (rtThreadSuspend cfg c t s.kernel).map fun (_, k) =>
      let list := listSuspend (s.flag o) (fun u => (k.thread u).currentPriority) t
        (s.list o request.side)
      { s.setList o request.side list with
        kernel :=
          if 0 < timeout then k.setThread t { k.thread t with timerActive := true } else k
        wait := update s.wait t (some ⟨o, request, timeout, s.tick⟩)
        result := none
        wakers := update s.wakers t []
        arrival := update s.arrival t s.arrivals
        arrivals := s.arrivals + 1 }
  else none

def unlink (s : System) (t : Tid) : System :=
  { s with list := fun o side => listRemove t (s.list o side) }

def woken (s : System) (t : Tid) (waker : Waker) : System :=
  { s with wakers := update s.wakers t (s.wakers t ++ [waker]) }

def resume (cfg : Config) (c : Nat) (t : Tid) (waker : Waker) (s : System) : System :=
  if s.stat t ≠ .suspend then s
  else { (s.unlink t).woken t waker with kernel := (rtThreadResume cfg c t s.kernel).2 }

def grant (cfg : Config) (c : Nat) (o : ObjId) (side : Side) (t : Tid) (s : System) : System :=
  let granted := update (s.granted o) side (t :: s.granted o side)
  { s.resume cfg c t .grant with granted := update s.granted o granted }

def listResume (cfg : Config) (c : Nat) (o : ObjId) (side : Side) (s : System) : System :=
  match s.list o side with
  | [] => s
  | first :: _ => s.grant cfg c o side first

/-- The loop of `rt_ipc_list_resume_all`.  It ends only if each thread it resumes
leaves the list. -/
def resumeEach (cfg : Config) (c : Nat) : List Tid → System → Option System
  | [], s => some s
  | t :: rest, s =>
    if s.stat t = .suspend then
      resumeEach cfg c rest ((s.setError t (-rtError)).resume cfg c t .reset)
    else none

def listResumeAll (cfg : Config) (c : Nat) (o : ObjId) (side : Side) (s : System) : Option System :=
  resumeEach cfg c (s.list o side) s

def timeout (cfg : Config) (c : Nat) (t : Tid) (s : System) : Option System :=
  if s.timerActive t then
    -- RT_ASSERT((thread->stat & RT_THREAD_STAT_MASK) == RT_THREAD_SUSPEND)
    if s.stat t ≠ .suspend then none
    else
      let s := s.setError t (-rtEtimeout)
      let k := rtScheduleInsertThread cfg c t (s.kernel.unlink t)
      ((rtSchedule cfg c k).bind (·.landed c)).map fun k =>
        { (s.unlink t).woken t .expiry with
          kernel := k.setThread t { k.thread t with timerActive := false }
          result := none }
  else none

def changePriority (cfg : Config) (c : Nat) (t : Tid) (priority : Nat) (s : System) : System :=
  { s with kernel := rtThreadChangePriority cfg c t priority s.kernel }

/-- The call of `t` goes on after `rt_schedule`. -/
def finish (t : Tid) (s : System) : System :=
  { s with
    wait := update s.wait t none
    granted := fun o side => listRemove t (s.granted o side) }

end System

end RtThread.Blocking
