import RtThread.Kernel.Ffs
import RtThread.Scheduler.ReadyQueue
import RtThread.Lib.Transition

namespace RtThread.Scheduler

open RtThread.Lib

/-! The SMP build of `scheduler.c`, and `thread.c` on top of it.

Every function below runs between `rt_hw_interrupt_disable` and
`rt_hw_interrupt_enable`, that is with `_cpus_lock` held, so one call is one
step.  The pairs of lock and unlock inside a step cancel; only `rt_schedule`
and `rt_scheduler_do_irq_switch` read the counters in between, and there they
are explicit. -/

/-- `rt_ubase_t` arithmetic: `x - 1` for an unsigned `x`. -/
def ubasePred (x : Nat) : Nat := (x + (2 ^ 32 - 1)) % 2 ^ 32

def ReadyQueue.tableAt (cfg : Config) (q : ReadyQueue) (number : Nat) : BitVec 8 :=
  if number < 32 then q.readyTable number else cfg.strayByte

/-- The highest ready priority of one queue, an index past the table when the
queue is empty (`__rt_ffs` of 0 is 0, less one). -/
def ReadyQueue.highestReadyPriority (cfg : Config) (q : ReadyQueue) : Nat :=
  if cfg.twoLevel then
    let number := ubasePred (rtFfs q.priorityGroup)
    ubasePred (number * 8 + rtFfs ((q.tableAt cfg number).setWidth 32))
  else ubasePred (rtFfs q.priorityGroup)

/-- `rt_list_entry(table[priority].next, struct rt_thread, tlist)`: a thread
only if the priority lies in the table and its list is not empty. -/
def ReadyQueue.first (cfg : Config) (q : ReadyQueue) (priority : Nat) : Option Tid :=
  if priority < cfg.priorityMax then (q.priorityTable priority).head? else none

def getHighestPriorityThread (cfg : Config) (c : Nat) (k : Kernel) : Option (Tid × Nat) :=
  let global := k.queue cfg.cpusNr
  let pcpu := k.queue c
  if cfg.twoLevel ∧ global.priorityGroup = 0 ∧ pcpu.priorityGroup = 0 then
    -- only local IDLE is ready
    (k.cpu c).currentThread.map (fun t => (t, (k.thread t).currentPriority))
  else
    let highest := global.highestReadyPriority cfg
    let localHighest := pcpu.highestReadyPriority cfg
    if highest < localHighest then
      (global.first cfg highest).map (fun t => (t, highest))
    else (pcpu.first cfg localHighest).map (fun t => (t, localHighest))

/-- `highest_ready_priority`, which is known even if no thread has it. -/
def Kernel.highestReadyPriority (cfg : Config) (c : Nat) (k : Kernel) : Nat :=
  min ((k.queue cfg.cpusNr).highestReadyPriority cfg) ((k.queue c).highestReadyPriority cfg)

/-- `current_thread` gives up its CPU, and goes back to its queue if it is READY
and no better than the best thread found.  The second component is
`to_thread`. -/
def leaveCpu (cfg : Config) (c : Nat) (current highestThread : Tid)
    (highestReadyPriority : Nat) (k : Kernel) : Kernel × Tid :=
  let k := k.setThread current { k.thread current with oncpu := cfg.cpuDetached }
  if (k.thread current).stat = .ready then
    if (k.thread current).currentPriority < highestReadyPriority then (k, current)
    else (rtScheduleInsertThread cfg c current k, highestThread)
  else (k, highestThread)

/-- The part that `rt_schedule` and `rt_scheduler_do_irq_switch` share: choose
`to_thread` and take it out of its queue.  The result names `to_thread` when it
differs from `current_thread`. -/
def selectThread (cfg : Config) (c : Nat) (current : Tid) (k : Kernel) :
    Option (Kernel × Option Tid) :=
  if (k.queue cfg.cpusNr).priorityGroup ≠ 0 ∨ (k.queue c).priorityGroup ≠ 0 then
    match getHighestPriorityThread cfg c k with
    | none =>
      -- the head of an empty list is not touched if `current_thread` stays
      if (k.thread current).stat = .ready ∧
          (k.thread current).currentPriority < k.highestReadyPriority cfg c then
        some (k.setThread current { k.thread current with oncpu := c }, none)
      else none
    | some (highestThread, highestReadyPriority) =>
      let choice := leaveCpu cfg c current highestThread highestReadyPriority k
      let toThread := choice.2
      let k := choice.1.setThread toThread
        { choice.1.thread toThread with oncpu := c }
      if toThread ≠ current then
        let k := k.setCpu c
          { k.cpu c with currentPriority := highestReadyPriority % 256 }
        some (rtScheduleRemoveThread cfg toThread k, some toThread)
      else some (k, none)
  else some (k, none)

namespace Kernel

/-- `rt_cpus_lock` and `rt_cpus_unlock` on CPU `c`, as far as the counters of
the current thread are concerned. -/
def cpusLock (k : Kernel) (c : Nat) : Kernel :=
  match (k.cpu c).currentThread with
  | none => k
  | some t => k.setThread t (k.thread t).cpusLock

def cpusUnlock (k : Kernel) (c : Nat) : Kernel :=
  match (k.cpu c).currentThread with
  | none => k
  | some t => k.setThread t (k.thread t).cpusUnlock

/-- `rt_hw_context_switch` up to the first instruction of the thread switched
to.  `rt_cpus_lock_status_restore` makes it the current one; with `cpus_lock_nest`
set it was switched out inside `rt_schedule` and returns from there through
`rt_hw_interrupt_enable`. -/
def contextSwitch (k : Kernel) (c : Nat) (toThread : Tid) : Kernel :=
  let k := k.setCpu c { k.cpu c with currentThread := some toThread }
  if (k.thread toThread).cpusLockNest = 0 then k else k.cpusUnlock c

/-- The switch to a `to_thread` that `rt_list_entry` computed from the head of
an empty list.  What the CPU runs from here on is undefined; all the model
keeps is that it is no thread. -/
def stray (k : Kernel) (c : Nat) : Kernel :=
  k.setCpu c { k.cpu c with currentThread := none }

end Kernel

def rtSchedule (cfg : Config) (c : Nat) (k : Kernel) : Option Kernel :=
  match (k.cpu c).currentThread with
  | none => none
  | some current =>
    let k := k.cpusLock c
    if (k.cpu c).irqNest ≠ 0 then
      some ((k.setCpu c { k.cpu c with irqSwitchFlag := true }).cpusUnlock c)
    else if (k.thread current).schedulerLockNest = 1 then
      match selectThread cfg c current k with
      | none => some (k.stray c)
      | some (k, none) => some (k.cpusUnlock c)
      | some (k, some toThread) => some (k.contextSwitch c toThread)
    else some (k.cpusUnlock c)

def rtSchedulerDoIrqSwitch (cfg : Config) (c : Nat) (k : Kernel) : Option Kernel :=
  match (k.cpu c).currentThread with
  | none => none
  | some current =>
    let k := k.cpusLock c
    if (k.cpu c).irqSwitchFlag = false then some (k.cpusUnlock c)
    else if (k.thread current).schedulerLockNest = 1 ∧ (k.cpu c).irqNest = 0 then
      let k := k.setCpu c { k.cpu c with irqSwitchFlag := false }
      match selectThread cfg c current k with
      | none => some (k.stray c)
      | some (k, none) => some (k.cpusUnlock c)
      | some (k, some toThread) =>
        let k := k.setThread current
          { k.thread current with
            cpusLockNest := dec16 (k.thread current).cpusLockNest
            schedulerLockNest := dec16 (k.thread current).schedulerLockNest }
        some (k.contextSwitch c toThread)
    else some (k.cpusUnlock c)

/-- `rt_system_scheduler_start`; `rt_hw_context_switch_to` goes through
`rt_cpus_lock_status_restore` too. -/
def rtSystemSchedulerStart (cfg : Config) (c : Nat) (k : Kernel) : Kernel :=
  let k := k.setCpu c { k.cpu c with started := true }
  match getHighestPriorityThread cfg c k with
  | none => k.stray c
  | some (toThread, _) =>
    let k := k.setThread toThread { k.thread toThread with oncpu := c }
    (rtScheduleRemoveThread cfg toThread k).contextSwitch c toThread

def rtThreadSuspend (cfg : Config) (c : Nat) (t : Tid) (k : Kernel) : Option (Int × Kernel) :=
  if (k.thread t).stat ≠ .ready then some (-rtError, k)
  else if (k.cpu c).currentThread ≠ some t then none
  else
    let k := k.setThread t { k.thread t with stat := .suspend }
    let k := rtScheduleRemoveThread cfg t k
    some (rtEok, k.setThread t { k.thread t with timerActive := false })

def rtThreadResume (cfg : Config) (c : Nat) (t : Tid) (k : Kernel) : Int × Kernel :=
  if (k.thread t).stat ≠ .suspend then (-rtError, k)
  else
    let k := k.unlink t
    let k := k.setThread t { k.thread t with timerActive := false }
    (rtEok, rtScheduleInsertThread cfg c t k)

def rtThreadTimeout (cfg : Config) (c : Nat) (t : Tid) (k : Kernel) : Option Kernel :=
  if (k.thread t).stat ≠ .suspend then none
  else
    let k := k.setThread t { k.thread t with error := -rtEtimeout }
    rtSchedule cfg c (rtScheduleInsertThread cfg c t (k.unlink t))

def rtThreadStartup (cfg : Config) (c : Nat) (t : Tid) (k : Kernel) : Option Kernel :=
  if (k.thread t).stat ≠ .init then none
  else
    let k := k.setThread t
      { (k.thread t).setPriority cfg (k.thread t).initPriority with
        stat := .suspend }
    let k := (rtThreadResume cfg c t k).2
    match (k.cpu c).currentThread with
    | none => some k
    | some _ => rtSchedule cfg c k

def rtThreadChangePriority (cfg : Config) (c : Nat) (t : Tid) (priority : Nat)
    (k : Kernel) : Kernel :=
  if (k.thread t).stat = .ready then
    let k := rtScheduleRemoveThread cfg t k
    let k := k.setThread t ((k.thread t).setPriority cfg priority)
    rtScheduleInsertThread cfg c t k
  else k.setThread t ((k.thread t).setPriority cfg priority)

def rtThreadBindCpu (cfg : Config) (t : Tid) (cpu : Nat) (k : Kernel) : Int × Kernel :=
  if (k.thread t).stat ≠ .init then (rtError, k)
  else
    (rtEok, k.setThread t
      { k.thread t with
        bindCpu := if cpu % 256 > cfg.cpusNr then cfg.cpusNr else cpu % 256 })

def rtEnterCritical (c : Nat) (k : Kernel) : Option Kernel :=
  (k.cpu c).currentThread.map fun t =>
    k.setThread t
      { k.thread t with
        schedulerLockNest := inc16 (k.thread t).schedulerLockNest }

def rtExitCritical (cfg : Config) (c : Nat) (k : Kernel) : Option Kernel :=
  match (k.cpu c).currentThread with
  | none => none
  | some t =>
    let k := k.setThread t
      { k.thread t with
        schedulerLockNest := dec16 (k.thread t).schedulerLockNest }
    if (k.thread t).schedulerLockNest = 0 then rtSchedule cfg c k else some k

def rtInterruptEnter (c : Nat) (k : Kernel) : Kernel :=
  k.setCpu c { k.cpu c with irqNest := inc16 (k.cpu c).irqNest }

def rtInterruptLeave (c : Nat) (k : Kernel) : Kernel :=
  k.setCpu c { k.cpu c with irqNest := dec16 (k.cpu c).irqNest }

def rtSchedulerIpiHandler (cfg : Config) (c : Nat) (k : Kernel) : Option Kernel :=
  rtSchedule cfg c (k.setCpu c { k.cpu c with ipiPending := false })

/-- The calls of the scheduler machine.  `c` is the CPU that makes the call. -/
inductive Op
  | threadInit (t : Tid) (priority : Nat)
  | bindCpu (t : Tid) (cpu : Nat)
  | startup (c : Nat) (t : Tid)
  | schedulerStart (c : Nat)
  | insertThread (c : Nat) (t : Tid)
  | removeThread (t : Tid)
  | schedule (c : Nat)
  | doIrqSwitch (c : Nat)
  | suspend (c : Nat) (t : Tid)
  | resume (c : Nat) (t : Tid)
  | timeout (c : Nat) (t : Tid)
  | changePriority (c : Nat) (t : Tid) (priority : Nat)
  | enterCritical (c : Nat)
  | exitCritical (c : Nat)
  | interruptEnter (c : Nat)
  | interruptLeave (c : Nat)
  | ipiHandler (c : Nat)
  deriving DecidableEq

namespace Op

def caller : Op → Option Nat
  | .threadInit .. | .bindCpu .. | .removeThread .. => none
  | .startup c _ | .schedulerStart c | .insertThread c _ | .schedule c
  | .doIrqSwitch c | .suspend c _ | .resume c _ | .timeout c _
  | .changePriority c _ _ | .enterCritical c | .exitCritical c
  | .interruptEnter c | .interruptLeave c | .ipiHandler c => some c

end Op

def runOp (cfg : Config) (k : Kernel) : Op → Option Kernel
  | .threadInit t priority =>
    -- RT_ASSERT(priority < RT_THREAD_PRIORITY_MAX)
    if (k.thread t).stat = .init ∧ priority < cfg.priorityMax then
      some (k.setThread t (Thread.init cfg priority))
    else none
  | .bindCpu t cpu => some (rtThreadBindCpu cfg t cpu k).2
  | .startup c t => rtThreadStartup cfg c t k
  | .schedulerStart c =>
    -- `rt_thread_idle_init` has started a thread bound to every CPU before
    if (k.cpu c).started = false ∧ (k.cpu c).currentThread = none ∧
        ((k.queue cfg.cpusNr).priorityGroup ≠ 0 ∨ (k.queue c).priorityGroup ≠ 0) then
      some (rtSystemSchedulerStart cfg c k)
    else none
  | .insertThread c t =>
    -- not for applications: the kernel passes started threads that are
    -- running or whose `tlist` is linked nowhere
    if (k.thread t).stat ≠ .init ∧
        ((k.thread t).oncpu ≠ cfg.cpuDetached ∨
          t ∉ (k.queue (k.thread t).bindCpu).priorityTable
            (k.thread t).currentPriority) then
      some (rtScheduleInsertThread cfg c t k)
    else none
  | .removeThread t =>
    -- `rt_thread_detach` and `rt_thread_delete` skip threads never started
    if (k.thread t).stat ≠ .init then some (rtScheduleRemoveThread cfg t k)
    else none
  | .schedule c => rtSchedule cfg c k
  | .doIrqSwitch c => rtSchedulerDoIrqSwitch cfg c k
  | .suspend c t => (rtThreadSuspend cfg c t k).map Prod.snd
  | .resume c t => some (rtThreadResume cfg c t k).2
  | .timeout c t => rtThreadTimeout cfg c t k
  | .changePriority c t priority =>
    -- `priority_table` has no entry for any other priority
    if priority < cfg.priorityMax then
      some (rtThreadChangePriority cfg c t priority k)
    else none
  | .enterCritical c => rtEnterCritical c k
  | .exitCritical c => rtExitCritical cfg c k
  | .interruptEnter c => some (rtInterruptEnter c k)
  | .interruptLeave c => some (rtInterruptLeave c k)
  | .ipiHandler c => rtSchedulerIpiHandler cfg c k

/-- The state `rt_system_scheduler_init` leaves, with no thread started. -/
def initialKernel (cfg : Config) : Kernel where
  thread := fun _ => Thread.init cfg 0
  cpu := fun _ =>
    { currentThread := none
      started := false
      irqNest := 0
      irqSwitchFlag := false
      currentPriority := cfg.priorityMax - 1
      ipiPending := false }
  queue := fun _ => ReadyQueue.empty
  removalsAgree := true

def machine (cfg : Config) : Machine Kernel Op where
  init := fun k => k = initialKernel cfg
  exec := fun k op =>
    if op.caller.all (· < cfg.cpusNr) then runOp cfg k op else none

end RtThread.Scheduler
