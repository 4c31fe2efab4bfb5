import RtThread.Scheduler.Schedule

namespace RtThread.Scheduler

open RtThread.Lib

/-! How threads end: `rt_thread_exit` and `rt_thread_delete` of `thread.c` put a
thread on `rt_thread_defunct`, and `rt_thread_idle_excute` of `idle.c` reclaims
it.  Each of them consists of several sections with `_cpus_lock` held and leaves
the lock in between, so a call is a process that other CPUs may overtake. -/

inductive EndCall
  | outside
  -- `rt_thread_exit` in front of its `rt_schedule`
  | exiting
  -- `rt_thread_delete` after each of its first three steps
  | removed (t : Tid)
  | detached (t : Tid)
  | closed (t : Tid)
  -- `rt_thread_idle_excute` in front of `RT_KERNEL_FREE`
  | reclaiming (t : Tid)
  deriving DecidableEq

def EndCall.target : EndCall → Option Tid
  | .removed t => some t
  | .detached t => some t
  | .closed t => some t
  | _ => none

/-- History: `reclaimed` logs every thread that was cleaned up or freed, with
whether some CPU still had it as its current thread. -/
structure EndSystem where
  kernel : Kernel
  rtThreadDefunct : List Tid
  systemObject : Tid → Bool
  cleanup : Tid → Bool
  freed : Tid → Bool
  call : Tid → EndCall
  reclaimed : List (Tid × Bool)

namespace EndSystem

def inUse (cfg : Config) (s : EndSystem) (t : Tid) : Bool :=
  (List.range cfg.cpusNr).any fun c => (s.kernel.cpu c).currentThread = some t

def setCall (s : EndSystem) (u : Tid) (call : EndCall) : EndSystem :=
  { s with call := Function.update s.call u call }

def reclaim (cfg : Config) (s : EndSystem) (t : Tid) : EndSystem :=
  { s with reclaimed := (t, s.inUse cfg t) :: s.reclaimed }

/-- `rt_schedule_remove_thread`, which takes the thread out of whichever list its
`tlist` is linked in. -/
def removeThread (cfg : Config) (s : EndSystem) (t : Tid) : EndSystem :=
  { s with
    kernel := rtScheduleRemoveThread cfg t s.kernel
    rtThreadDefunct := s.rtThreadDefunct.filter (· ≠ t) }

def setStatClose (s : EndSystem) (t : Tid) : EndSystem :=
  { s with kernel := s.kernel.setThread t { s.kernel.thread t with stat := .close } }

def timerDetach (s : EndSystem) (t : Tid) : EndSystem :=
  { s with kernel := s.kernel.setThread t { s.kernel.thread t with timerActive := false } }

def insertDefunct (s : EndSystem) (t : Tid) : EndSystem :=
  { s with rtThreadDefunct := t :: s.rtThreadDefunct }

end EndSystem

def rtThreadExit (cfg : Config) (t : Tid) (s : EndSystem) : EndSystem :=
  let s := ((s.removeThread cfg t).setStatClose t).timerDetach t
  let s := if s.systemObject t && !s.cleanup t then s else s.insertDefunct t
  s.setCall t .exiting

/-- The rest of `rt_thread_exit`; nowhere to return to if `rt_schedule` returns. -/
def exitSchedule (cfg : Config) (c : Nat) (t : Tid) (s : EndSystem) : Option EndSystem :=
  match rtSchedule cfg c s.kernel with
  | none => none
  | some k => if (k.cpu c).currentThread = some t then none else some { s with kernel := k }

/-- `rt_thread_delete` of `t` by thread `u` up to the end of
`rt_schedule_remove_thread`; the assertions want a thread that was created. -/
def rtThreadDelete (cfg : Config) (u t : Tid) (s : EndSystem) : Option EndSystem :=
  if s.systemObject t || s.freed t then none
  else if (s.kernel.thread t).stat ≠ .init then
    some ((s.removeThread cfg t).setCall u (.removed t))
  else some (s.setCall u (.removed t))

/-- The last section of `rt_thread_delete`; undefined for a node that is linked. -/
def deleteInsert (u t : Tid) (s : EndSystem) : Option EndSystem :=
  let thread := s.kernel.thread t
  if t ∈ (s.kernel.queue thread.bindCpu).priorityTable thread.currentPriority ∨
      t ∈ s.rtThreadDefunct ∨ s.freed t then none
  else some ((s.insertDefunct t).setCall u .outside)

/-- One round of the loop of `rt_thread_idle_excute`, run by thread `u`, up to the
end of its section. -/
def rtThreadIdleExcute (cfg : Config) (u : Tid) (s : EndSystem) : EndSystem :=
  match s.rtThreadDefunct with
  | [] => s
  | t :: rest =>
    let s := { s with rtThreadDefunct := rest }
    let s := if s.cleanup t then s.reclaim cfg t else s
    if s.systemObject t then s else s.setCall u (.reclaiming t)

def idleFree (cfg : Config) (u t : Tid) (s : EndSystem) : EndSystem :=
  { (s.reclaim cfg t).setCall u .outside with
    freed := Function.update s.freed t true }

def endContinue (cfg : Config) (c : Nat) (u : Tid) (s : EndSystem) : Option EndSystem :=
  match s.call u with
  | .outside => none
  | .exiting => exitSchedule cfg c u s
  | .removed t => some ((s.timerDetach t).setCall u (.detached t))
  | .detached t => some ((s.setStatClose t).setCall u (.closed t))
  | .closed t => deleteInsert u t s
  | .reclaiming t => some (idleFree cfg u t s)

/-- `c` is the CPU that makes the step.  A CPU may be rescheduled at any time, by
its thread or by an interrupt. -/
inductive EndOp
  | schedule (c : Nat)
  | doIrqSwitch (c : Nat)
  | ipiHandler (c : Nat)
  | interruptEnter (c : Nat)
  | interruptLeave (c : Nat)
  | exit (c : Nat)
  | delete (c : Nat) (t : Tid)
  | proceed (c : Nat)
  | idleExcute
  deriving DecidableEq

namespace EndOp

def cpu : EndOp → Nat
  | .schedule c | .doIrqSwitch c | .ipiHandler c | .interruptEnter c
  | .interruptLeave c | .exit c | .delete c _ | .proceed c => c
  | .idleExcute => 0

end EndOp

namespace EndSystem

/-- The thread that may make a call on CPU `c`. -/
def caller (s : EndSystem) (c : Nat) : Option Tid :=
  if (s.kernel.cpu c).irqNest = 0 then (s.kernel.cpu c).currentThread else none

def idleCaller (s : EndSystem) (c : Nat) : Option Tid :=
  (s.caller c).filter fun u => s.call u = .outside

def withKernel (s : EndSystem) (k : Kernel) : EndSystem := { s with kernel := k }

def exec (cfg : Config) (s : EndSystem) (op : EndOp) : Option EndSystem :=
  if op.cpu < cfg.cpusNr then
    match op with
    | .schedule c => (rtSchedule cfg c s.kernel).map s.withKernel
    | .doIrqSwitch c => (rtSchedulerDoIrqSwitch cfg c s.kernel).map s.withKernel
    | .ipiHandler c => (rtSchedulerIpiHandler cfg c s.kernel).map s.withKernel
    | .interruptEnter c => some (s.withKernel (rtInterruptEnter c s.kernel))
    | .interruptLeave c => some (s.withKernel (rtInterruptLeave c s.kernel))
    | .exit c => (s.idleCaller c).map fun t => rtThreadExit cfg t s
    | .delete c t => (s.idleCaller c).bind fun u => rtThreadDelete cfg u t s
    | .proceed c => (s.caller c).bind fun u => endContinue cfg c u s
    | .idleExcute => (s.idleCaller 0).map fun u => rtThreadIdleExcute cfg u s
  else none

structure Initial (cfg : Config) (s : EndSystem) : Prop where
  placed : Placed cfg s.kernel
  alive : ∀ t, (s.kernel.thread t).stat ≠ .close
  defunct : s.rtThreadDefunct = []
  outside : ∀ t, s.call t = .outside
  reclaimed : s.reclaimed = []

end EndSystem

def endMachine (cfg : Config) : Machine EndSystem EndOp where
  init := EndSystem.Initial cfg
  exec := EndSystem.exec cfg

end RtThread.Scheduler
