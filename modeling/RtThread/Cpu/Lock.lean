import Mathlib.Algebra.Order.Ring.Nat
import RtThread.Kernel.Thread
import RtThread.Lib.Transition

namespace RtThread.Cpu

open Function RtThread.Lib

/-! The lock protocol of `cpu.c` and of the critical sections of `scheduler.c`.

A CPU runs its current thread or an interrupt handler on top of it.  A call
that has to wait for a spinlock is two steps: one up to the spin, one from the
moment the lock is free, and other CPUs run in between.  Which thread
`rt_schedule` picks is left open: any thread that is current nowhere. -/

/-- What goes on after `rt_hw_interrupt_disable` has returned. -/
inductive AfterLock
  | caller
  | schedule
  | irqSwitch
  deriving DecidableEq

/-- Where a CPU stands inside a call; `spin` tells whether the call has to take
the spinlock or passes it by. -/
inductive Phase
  | running
  | cpusLock (spin : Bool) (after : AfterLock)
  | enterCritical (spin : Bool) (level : Bool)
  deriving DecidableEq

/-- The vector code around a CPU's current thread: `handler` keeps the number of
calls that were open when the interrupt came, `irqExit` lies between
`rt_interrupt_leave` and the return from the interrupt. -/
inductive Context
  | thread
  | handler (locks criticals : Nat)
  | irqExit
  deriving DecidableEq

structure LockCpu where
  currentThread : Option Tid
  irqEnabled : Bool
  irqNest : Nat
  irqSwitchFlag : Bool
  context : Context
  phase : Phase

/-- The calls a thread has open: the `level` of each `rt_cpus_lock`, innermost
first, and the number of `rt_enter_critical`.  `savedIrq` is the interrupt mask
in its saved `cpsr`.  History: the outermost critical sections begun and ended, and
what was done to `_rt_critical_lock` for them. -/
structure Calls where
  levels : List Bool
  openCritical : Nat
  savedIrq : Bool
  begun : Nat
  ended : Nat
  acquired : Nat
  released : Nat

/-- What the code running on one CPU can touch.  `fault` records a spinlock that
was released by a CPU not holding it or awaited by the CPU holding it. -/
structure View where
  cpu : LockCpu
  thread : Thread
  calls : Calls
  cpusLock : Option Nat
  criticalLock : Option Nat
  fault : Bool

def rtCpusLock (c : Nat) (after : AfterLock) (v : View) : View :=
  let spin := decide (v.thread.cpusLockNest = 0)
  { v with
    cpu := { v.cpu with irqEnabled := false, phase := .cpusLock spin after }
    thread := v.thread.cpusLock
    calls := { v.calls with levels := v.cpu.irqEnabled :: v.calls.levels }
    fault := v.fault || (spin && decide (v.cpusLock = some c)) }

def rtCpusUnlock (c : Nat) (v : View) : Option View :=
  match v.calls.levels with
  | [] => none
  | level :: levels =>
    let thread := v.thread.cpusUnlock
    let release := decide (thread.cpusLockNest = 0)
    some
      { v with
        cpu := { v.cpu with irqEnabled := level, phase := .running }
        thread := thread
        calls := { v.calls with levels := levels }
        cpusLock := if release then none else v.cpusLock
        fault := v.fault || (release && decide (v.cpusLock ≠ some c)) }

def nestFlag (thread : Thread) : Nat := if thread.cpusLockNest = 0 then 0 else 1

def rtEnterCritical (c : Nat) (v : View) : View :=
  let spin := decide (v.thread.schedulerLockNest = nestFlag v.thread)
  { v with
    cpu :=
      { v.cpu with
        irqEnabled := false, phase := .enterCritical spin v.cpu.irqEnabled }
    fault := v.fault || (spin && decide (v.criticalLock = some c)) }

def enterCriticalEnd (c : Nat) (spin level : Bool) (v : View) : View :=
  { v with
    cpu := { v.cpu with irqEnabled := level, phase := .running }
    thread :=
      { v.thread with schedulerLockNest := inc16 v.thread.schedulerLockNest }
    calls :=
      { v.calls with
        openCritical := v.calls.openCritical + 1
        begun := if v.calls.openCritical = 0 then v.calls.begun + 1 else v.calls.begun
        acquired := if spin then v.calls.acquired + 1 else v.calls.acquired }
    criticalLock := if spin then some c else v.criticalLock }

/-- `rt_exit_critical`.  The `rt_schedule` it ends with when the scheduler is
unlocked again is a call of its own, since interrupts are enabled before. -/
def rtExitCritical (c : Nat) (v : View) : Option View :=
  if v.calls.openCritical = 0 then none
  else
    let thread :=
      { v.thread with schedulerLockNest := dec16 v.thread.schedulerLockNest }
    let release := decide (thread.schedulerLockNest = nestFlag thread)
    some
      { v with
        thread := thread
        calls :=
          { v.calls with
            openCritical := v.calls.openCritical - 1
            ended := if v.calls.openCritical = 1 then v.calls.ended + 1 else v.calls.ended
            released := if release then v.calls.released + 1 else v.calls.released }
        criticalLock := if release then none else v.criticalLock
        fault := v.fault || (release && decide (v.criticalLock ≠ some c)) }

/-- `rt_schedule` from the moment it holds `_cpus_lock`.  `target` is the thread
other than the current one that it finds, if any; the second component is the
thread to switch to. -/
def rtSchedule (c : Nat) (target : Option Tid) (v : View) : Option (View × Option Tid) :=
  if v.cpu.irqNest ≠ 0 then
    (rtCpusUnlock c { v with cpu := { v.cpu with irqSwitchFlag := true } }).map
      (fun v => (v, none))
  else if v.thread.schedulerLockNest = 1 ∧ target.isSome then
    some
      ({ v with
         cpu := { v.cpu with phase := .running }
         calls := { v.calls with savedIrq := v.cpu.irqEnabled } }, target)
  else (rtCpusUnlock c v).map (fun v => (v, none))

def irqReturn (v : View) : View :=
  { v with cpu := { v.cpu with irqEnabled := true, context := .thread } }

def rtSchedulerDoIrqSwitch (c : Nat) (target : Option Tid) (v : View) :
    Option (View × Option Tid) :=
  if v.cpu.irqSwitchFlag = false then
    (rtCpusUnlock c v).map (fun v => (irqReturn v, none))
  else if v.thread.schedulerLockNest = 1 ∧ v.cpu.irqNest = 0 then
    let v := { v with cpu := { v.cpu with irqSwitchFlag := false } }
    if target.isSome then
      some
        ({ v with
           cpu := { v.cpu with phase := .running, context := .thread }
           thread :=
             { v.thread with
               cpusLockNest := dec16 v.thread.cpusLockNest
               schedulerLockNest := dec16 v.thread.schedulerLockNest }
           -- the frame of this call is never returned to
           calls :=
             { v.calls with levels := v.calls.levels.tail, savedIrq := true } },
          target)
    else (rtCpusUnlock c v).map (fun v => (irqReturn v, none))
  else (rtCpusUnlock c v).map (fun v => (irqReturn v, none))

def proceed (c : Nat) (target : Option Tid) (v : View) : Option (View × Option Tid) :=
  match v.cpu.phase with
  | .running => none
  | .cpusLock spin after =>
    if spin ∧ v.cpusLock ≠ none then none
    else
      let v := { v with cpusLock := if spin then some c else v.cpusLock }
      match after with
      | .caller => some ({ v with cpu := { v.cpu with phase := .running } }, none)
      | .schedule => rtSchedule c target v
      | .irqSwitch => rtSchedulerDoIrqSwitch c target v
  | .enterCritical spin level =>
    if spin ∧ v.criticalLock ≠ none then none
    else some (enterCriticalEnd c spin level v, none)

/-- An interrupt, up to and including `rt_interrupt_enter`.  The pairs of
`rt_cpus_lock` and `rt_cpus_unlock` in there are calls of the handler. -/
def rtInterruptEnter (v : View) : Option View :=
  if v.cpu.irqEnabled then
    some
      { v with
        cpu :=
          { v.cpu with
            irqEnabled := false
            irqNest := inc16 v.cpu.irqNest
            context := .handler v.calls.levels.length v.calls.openCritical } }
  else none

def rtInterruptLeave (v : View) : Option View :=
  match v.cpu.context with
  | .handler locks criticals =>
    if v.calls.levels.length = locks ∧ v.calls.openCritical = criticals then
      some
        { v with
          cpu :=
            { v.cpu with irqNest := dec16 v.cpu.irqNest, context := .irqExit } }
    else none
  | _ => none

structure LockSystem where
  thread : Tid → Thread
  calls : Tid → Calls
  cpu : Nat → LockCpu
  cpusLock : Option Nat
  criticalLock : Option Nat
  fault : Bool

namespace LockSystem

def view (s : LockSystem) (c : Nat) (t : Tid) : View where
  cpu := s.cpu c
  thread := s.thread t
  calls := s.calls t
  cpusLock := s.cpusLock
  criticalLock := s.criticalLock
  fault := s.fault

def store (s : LockSystem) (c : Nat) (t : Tid) (v : View) : LockSystem where
  thread := update s.thread t v.thread
  calls := update s.calls t v.calls
  cpu := update s.cpu c v.cpu
  cpusLock := v.cpusLock
  criticalLock := v.criticalLock
  fault := v.fault

/-- `rt_cpus_lock_status_restore` on CPU `c`, and the return to where `t` was
switched out. -/
def restore (s : LockSystem) (c : Nat) (t : Tid) : LockSystem :=
  let release := decide ((s.thread t).cpusLockNest = 0)
  { s with
    cpu := update s.cpu c
      { s.cpu c with currentThread := some t, irqEnabled := (s.calls t).savedIrq }
    cpusLock := if release then none else s.cpusLock
    fault := s.fault || (release && decide (s.cpusLock ≠ some c)) }

def NotCurrent (cpusNr : Nat) (s : LockSystem) (t : Tid) : Prop :=
  ∀ c < cpusNr, (s.cpu c).currentThread ≠ some t

instance (cpusNr : Nat) (s : LockSystem) (t : Tid) : Decidable (s.NotCurrent cpusNr t) :=
  inferInstanceAs (Decidable (∀ c < cpusNr, (s.cpu c).currentThread ≠ some t))

def onCpu (s : LockSystem) (c : Nat) (call : View → Option View) : Option LockSystem :=
  (s.cpu c).currentThread.bind fun t =>
    (call (s.view c t)).map (s.store c t)

end LockSystem

inductive Op
  | start (c : Nat) (t : Tid)
  | lock (c : Nat)
  | unlock (c : Nat)
  | enterCritical (c : Nat)
  | exitCritical (c : Nat)
  | schedule (c : Nat)
  | interruptEnter (c : Nat)
  | interruptLeave (c : Nat)
  | doIrqSwitch (c : Nat)
  | proceed (c : Nat) (target : Option Tid)
  deriving DecidableEq

def Op.caller : Op → Nat
  | .start c _ | .lock c | .unlock c | .enterCritical c | .exitCritical c
  | .schedule c | .interruptEnter c | .interruptLeave c | .doIrqSwitch c
  | .proceed c _ => c

def atCall (call : View → Option View) (v : View) : Option View :=
  if v.cpu.phase = .running ∧ v.cpu.context ≠ .irqExit then call v else none

/-- `rt_scheduler_do_irq_switch` from the vector code. -/
def atIrqExit (call : View → Option View) (v : View) : Option View :=
  if v.cpu.phase = .running ∧ v.cpu.context = .irqExit then call v else none

def runOp (cpusNr : Nat) (s : LockSystem) : Op → Option LockSystem
  | .start c t =>
    -- the boot code spins for `_cpus_lock` before `rt_system_scheduler_start`
    if (s.cpu c).currentThread = none ∧ s.cpusLock = none ∧
        s.NotCurrent cpusNr t then
      some ({ s with cpusLock := some c }.restore c t)
    else none
  | .lock c => s.onCpu c (atCall fun v => some (rtCpusLock c .caller v))
  | .unlock c => s.onCpu c (atCall (rtCpusUnlock c))
  | .enterCritical c => s.onCpu c (atCall fun v => some (rtEnterCritical c v))
  | .exitCritical c => s.onCpu c (atCall (rtExitCritical c))
  | .schedule c => s.onCpu c (atCall fun v => some (rtCpusLock c .schedule v))
  | .interruptEnter c => s.onCpu c (atCall rtInterruptEnter)
  | .interruptLeave c => s.onCpu c (atCall rtInterruptLeave)
  | .doIrqSwitch c =>
    s.onCpu c (atIrqExit fun v => some (rtCpusLock c .irqSwitch v))
  | .proceed c target =>
    match (s.cpu c).currentThread with
    | none => none
    | some t =>
      match proceed c target (s.view c t) with
      | none => none
      | some (v, none) => some (s.store c t v)
      | some (v, some toThread) =>
        if s.NotCurrent cpusNr toThread then
          some ((s.store c t v).restore c toThread)
        else none

def initialSystem (cfg : Config) : LockSystem where
  thread := fun _ => Thread.init cfg 0
  calls := fun _ =>
    { levels := [], openCritical := 0, savedIrq := true
      begun := 0, ended := 0, acquired := 0, released := 0 }
  cpu := fun _ =>
    { currentThread := none, irqEnabled := false, irqNest := 0
      irqSwitchFlag := false, context := .thread, phase := .running }
  cpusLock := none
  criticalLock := none
  fault := false

def machine (cfg : Config) : Machine LockSystem Op where
  init := fun s => s = initialSystem cfg
  exec := fun s op =>
    if op.caller < cfg.cpusNr then runOp cfg.cpusNr s op else none

def Calls.nestDepth (calls : Calls) : Nat :=
  (if calls.levels = [] then 0 else 1) + calls.openCritical

def depthOk (s : LockSystem) (op : Op) : Bool :=
  (s.cpu op.caller).currentThread.all fun t =>
    match op with
    | .lock _ | .schedule _ | .doIrqSwitch _ =>
      decide ((s.calls t).levels.length + 1 < 2 ^ 16 ∧
        (s.calls t).openCritical + 1 < 2 ^ 16)
    | .enterCritical _ => decide ((s.calls t).nestDepth + 1 < 2 ^ 16)
    | _ => true

end RtThread.Cpu
