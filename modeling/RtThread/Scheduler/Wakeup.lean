import RtThread.Scheduler.Handover

namespace RtThread.Scheduler

open Function RtThread.Lib

/-! Who wakes a suspended thread: `rt_thread_resume` and the `thread_timer`.  Called
without `_cpus_lock`, `rt_thread_resume` tests `stat`, unlinks the thread and links
it again in three steps; the expiry of a timer is one, as `rt_timer_check` keeps
the lock. -/

/-- How far a call of `rt_thread_resume` is. -/
inductive ResumeStage
  | tested
  | unlinked
  deriving DecidableEq

/-- `waiting` says whose `tlist` is linked in the list of an IPC object, `calls` are
the calls of `rt_thread_resume` under way.

History: how often each thread was suspended and woken, and whether one was linked twice. -/
structure WakeSystem where
  kernel : Kernel
  waiting : Tid → Bool
  calls : List (Tid × ResumeStage)
  result : Option Int
  suspensions : Tid → Nat
  wakes : Tid → Nat
  relinked : Bool

namespace WakeSystem

def withKernel (s : WakeSystem) (k : Kernel) : WakeSystem :=
  { s with kernel := k, result := none }

def unlink (s : WakeSystem) (t : Tid) : WakeSystem :=
  { s with
    kernel := s.kernel.unlink t
    waiting := update s.waiting t false }

def timerStop (s : WakeSystem) (t : Tid) : WakeSystem :=
  { s with kernel := s.kernel.setThread t { s.kernel.thread t with timerActive := false } }

def isLinked (s : WakeSystem) (t : Tid) : Bool :=
  let thread := s.kernel.thread t
  s.waiting t || decide (t ∈ (s.kernel.queue thread.bindCpu).priorityTable thread.currentPriority)

def insertThread (cfg : Config) (c : Nat) (t : Tid) (s : WakeSystem) : WakeSystem :=
  { s with
    kernel := rtScheduleInsertThread cfg c t s.kernel
    wakes := update s.wakes t (s.wakes t + 1)
    relinked := s.relinked ||
      (decide ((s.kernel.thread t).oncpu = cfg.cpuDetached) && s.isLinked t) }

/-- The current thread of a CPU goes to sleep: `rt_thread_suspend`, then the list of
the object and the timer, as in `rt_thread_sleep` and in the IPC calls. -/
def suspend (cfg : Config) (c : Nat) (t : Tid) (onList timed : Bool) (s : WakeSystem) :
    Option WakeSystem :=
  (rtThreadSuspend cfg c t s.kernel).map fun (code, k) =>
    if code = rtEok then
      { s with
        kernel := k.setThread t { k.thread t with timerActive := timed }
        waiting := update s.waiting t onList
        suspensions := update s.suspensions t (s.suspensions t + 1)
        result := some code }
    else { s with result := some code }

def resumeTest (t : Tid) (s : WakeSystem) : WakeSystem :=
  if (s.kernel.thread t).stat ≠ .suspend then { s with result := some (-rtError) }
  else { s with calls := s.calls ++ [(t, .tested)], result := none }

def resumeContinue (cfg : Config) (c n : Nat) (s : WakeSystem) : Option WakeSystem :=
  match s.calls[n]? with
  | none => none
  | some (t, .tested) =>
    some { (s.unlink t).timerStop t with
      calls := s.calls.set n (t, .unlinked)
      result := none }
  | some (t, .unlinked) =>
    some { s.insertThread cfg c t with
      calls := s.calls.eraseIdx n
      result := some rtEok }

/-- `rt_thread_resume` of a caller that holds `_cpus_lock`. -/
def resumeLocked (cfg : Config) (c : Nat) (t : Tid) (s : WakeSystem) : WakeSystem :=
  if (s.kernel.thread t).stat ≠ .suspend then { s with result := some (-rtError) }
  else { ((s.unlink t).timerStop t).insertThread cfg c t with result := some rtEok }

def timeout (cfg : Config) (c : Nat) (t : Tid) (s : WakeSystem) : Option WakeSystem :=
  if (s.kernel.thread t).timerActive then
    -- RT_ASSERT((thread->stat & RT_THREAD_STAT_MASK) == RT_THREAD_SUSPEND)
    if (s.kernel.thread t).stat ≠ .suspend then none
    else
      let k := s.kernel.setThread t { s.kernel.thread t with error := -rtEtimeout }
      let s := (({ s with kernel := k }.unlink t).insertThread cfg c t)
      (rtSchedule cfg c s.kernel).map fun k =>
        { s with
          kernel := k.setThread t { k.thread t with timerActive := false }
          result := none }
  else none

end WakeSystem

inductive WakeOp
  | schedule (c : Nat)
  | doIrqSwitch (c : Nat)
  | ipiHandler (c : Nat)
  | interruptEnter (c : Nat)
  | interruptLeave (c : Nat)
  | suspend (c : Nat) (t : Tid) (onList timed : Bool)
  | resume (c : Nat) (t : Tid)
  | proceed (c n : Nat)
  | resumeLocked (c : Nat) (t : Tid)
  | timeout (c : Nat) (t : Tid)
  deriving DecidableEq

def WakeOp.cpu : WakeOp → Nat
  | .schedule c | .doIrqSwitch c | .ipiHandler c | .interruptEnter c | .interruptLeave c
  | .suspend c _ _ _ | .resume c _ | .proceed c _ | .resumeLocked c _ | .timeout c _ => c

def WakeOp.resumes : WakeOp → Bool
  | .resume .. | .proceed .. | .resumeLocked .. => true
  | _ => false

namespace WakeSystem

def exec (cfg : Config) (s : WakeSystem) (op : WakeOp) : Option WakeSystem :=
  if op.cpu < cfg.cpusNr then
    match op with
    | .schedule c => (rtSchedule cfg c s.kernel).map s.withKernel
    | .doIrqSwitch c => (rtSchedulerDoIrqSwitch cfg c s.kernel).map s.withKernel
    | .ipiHandler c => (rtSchedulerIpiHandler cfg c s.kernel).map s.withKernel
    | .interruptEnter c => some (s.withKernel (rtInterruptEnter c s.kernel))
    | .interruptLeave c => some (s.withKernel (rtInterruptLeave c s.kernel))
    | .suspend c t onList timed => s.suspend cfg c t onList timed
    | .resume _ t => some (s.resumeTest t)
    | .proceed c n => s.resumeContinue cfg c n
    | .resumeLocked c t => some (s.resumeLocked cfg c t)
    | .timeout c t => s.timeout cfg c t
  else none

structure Initial (cfg : Config) (s : WakeSystem) : Prop where
  placed : Placed cfg s.kernel
  unrepeated : s.kernel.Unrepeated
  awake : ∀ t, (s.kernel.thread t).stat ≠ .suspend ∧ s.waiting t = false ∧
    (s.kernel.thread t).timerActive = false
  calls : s.calls = []
  history : (∀ t, s.suspensions t = 0) ∧ (∀ t, s.wakes t = 0) ∧ s.relinked = false

end WakeSystem

def wakeMachine (cfg : Config) : Machine WakeSystem WakeOp where
  init := WakeSystem.Initial cfg
  exec := WakeSystem.exec cfg

end RtThread.Scheduler
