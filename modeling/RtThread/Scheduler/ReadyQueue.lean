import RtThread.Kernel.Thread
import RtThread.Lib.Bits

namespace RtThread.Scheduler

open Function

/-! The ready queues of `scheduler.c` and the two functions that link a thread
into them and unlink it again (SMP build).  Lists are kept by content, head
first: `rt_list_insert_before` on a list head appends, `rt_list_remove` takes
the node out of the one list it is linked in. -/

structure ReadyQueue where
  priorityTable : Nat → List Tid
  priorityGroup : BitVec 32
  readyTable : Nat → BitVec 8

namespace ReadyQueue

def empty : ReadyQueue where
  priorityTable := fun _ => []
  priorityGroup := 0
  readyTable := fun _ => 0

end ReadyQueue

/-- `currentThread` is `none` before the CPU has switched to its first thread,
and again once it has followed a `to_thread` pointer that is no thread;
`started` tells the two apart. -/
structure Cpu where
  currentThread : Option Tid
  started : Bool
  irqNest : Nat
  irqSwitchFlag : Bool
  currentPriority : Nat
  /-- A `RT_SCHEDULE_IPI_IRQ` sent to this CPU and not yet handled. -/
  ipiPending : Bool

/-- `queue` is indexed as `bind_cpu` is: `queue RT_CPUS_NR` is the global queue
(`rt_thread_priority_table`, `rt_thread_ready_priority_group` and
`rt_thread_ready_table`), `queue c` the one inside `rt_cpus[c]`.

History: `removalsAgree` says whether every removal so far left the group word right. -/
structure Kernel where
  thread : Tid → Thread
  cpu : Nat → Cpu
  queue : Nat → ReadyQueue
  removalsAgree : Bool

namespace Kernel

def setThread (k : Kernel) (t : Tid) (thread : Thread) : Kernel :=
  { k with thread := update k.thread t thread }

def setCpu (k : Kernel) (c : Nat) (cpu : Cpu) : Kernel :=
  { k with cpu := update k.cpu c cpu }

def setQueue (k : Kernel) (b : Nat) (queue : ReadyQueue) : Kernel :=
  { k with queue := update k.queue b queue }

def unlink (k : Kernel) (t : Tid) : Kernel :=
  { k with
    queue := fun b =>
      { k.queue b with
        priorityTable := fun p => ((k.queue b).priorityTable p).filter (· ≠ t) } }

/-- `rt_hw_ipi_send(RT_SCHEDULE_IPI_IRQ, mask)` -/
def ipiSend (k : Kernel) (mask : Nat → Bool) : Kernel :=
  { k with
    cpu := fun c => { k.cpu c with ipiPending := (k.cpu c).ipiPending || mask c } }

section Projections

variable (k : Kernel) (t : Tid) (thread : Thread) (b c : Nat)
  (queue : ReadyQueue) (cpu : Cpu) (mask : Nat → Bool)

@[simp] theorem setThread_thread : (k.setThread t thread).thread = update k.thread t thread := rfl
@[simp] theorem setThread_cpu : (k.setThread t thread).cpu = k.cpu := rfl
@[simp] theorem setThread_queue : (k.setThread t thread).queue = k.queue := rfl
@[simp] theorem setThread_removalsAgree :
    (k.setThread t thread).removalsAgree = k.removalsAgree := rfl

@[simp] theorem setCpu_thread : (k.setCpu c cpu).thread = k.thread := rfl
@[simp] theorem setCpu_cpu : (k.setCpu c cpu).cpu = update k.cpu c cpu := rfl
@[simp] theorem setCpu_queue : (k.setCpu c cpu).queue = k.queue := rfl
@[simp] theorem setCpu_removalsAgree : (k.setCpu c cpu).removalsAgree = k.removalsAgree := rfl

@[simp] theorem setQueue_thread : (k.setQueue b queue).thread = k.thread := rfl
@[simp] theorem setQueue_cpu : (k.setQueue b queue).cpu = k.cpu := rfl
@[simp] theorem setQueue_queue : (k.setQueue b queue).queue = update k.queue b queue := rfl
@[simp] theorem setQueue_removalsAgree : (k.setQueue b queue).removalsAgree = k.removalsAgree := rfl

@[simp] theorem unlink_thread : (k.unlink t).thread = k.thread := rfl
@[simp] theorem unlink_cpu : (k.unlink t).cpu = k.cpu := rfl
@[simp] theorem unlink_removalsAgree : (k.unlink t).removalsAgree = k.removalsAgree := rfl
@[simp] theorem unlink_priorityTable (p : Nat) :
    ((k.unlink t).queue b).priorityTable p = ((k.queue b).priorityTable p).filter (· ≠ t) := rfl
@[simp] theorem unlink_priorityGroup :
    ((k.unlink t).queue b).priorityGroup = (k.queue b).priorityGroup := rfl
@[simp] theorem unlink_readyTable :
    ((k.unlink t).queue b).readyTable = (k.queue b).readyTable := rfl

@[simp] theorem ipiSend_thread : (k.ipiSend mask).thread = k.thread := rfl
@[simp] theorem ipiSend_queue : (k.ipiSend mask).queue = k.queue := rfl
@[simp] theorem ipiSend_removalsAgree : (k.ipiSend mask).removalsAgree = k.removalsAgree := rfl
@[simp] theorem ipiSend_currentThread :
    ((k.ipiSend mask).cpu c).currentThread = (k.cpu c).currentThread := rfl
@[simp] theorem ipiSend_started : ((k.ipiSend mask).cpu c).started = (k.cpu c).started := rfl

end Projections

def Linked (k : Kernel) (t : Tid) : Prop :=
  ∃ b p, t ∈ (k.queue b).priorityTable p

end Kernel

/-- Threads run where they think they do, on one CPU at a time and out of the
queues, and the queues hold READY threads. -/
structure Placed (cfg : Config) (k : Kernel) : Prop where
  once : ∀ c < cfg.cpusNr, ∀ c' < cfg.cpusNr, ∀ t,
    (k.cpu c).currentThread = some t → (k.cpu c').currentThread = some t → c = c'
  free : ∀ c < cfg.cpusNr, ∀ t, (k.cpu c).currentThread = some t → ¬ k.Linked t
  ready : ∀ t, k.Linked t → (k.thread t).stat = .ready
  oncpu : ∀ c < cfg.cpusNr, ∀ t, (k.cpu c).currentThread = some t →
    (k.thread t).oncpu = c

def ReadyQueue.enqueue (cfg : Config) (thread : Thread) (t : Tid)
    (q : ReadyQueue) : ReadyQueue where
  priorityTable := update q.priorityTable thread.currentPriority
    (q.priorityTable thread.currentPriority ++ [t])
  priorityGroup := q.priorityGroup ||| thread.numberMask
  readyTable :=
    if cfg.twoLevel then
      update q.readyTable thread.number
        (q.readyTable thread.number ||| thread.highMask)
    else q.readyTable

def rtScheduleInsertThread (cfg : Config) (cpuId : Nat) (t : Tid)
    (k : Kernel) : Kernel :=
  let k := k.setThread t { k.thread t with stat := .ready }
  let thread := k.thread t
  if thread.oncpu ≠ cfg.cpuDetached then k
  else if thread.bindCpu = cfg.cpusNr then
    (k.setQueue cfg.cpusNr ((k.queue cfg.cpusNr).enqueue cfg thread t)).ipiSend
      (fun c => decide (c < cfg.cpusNr ∧ c ≠ cpuId))
  else
    let k := k.setQueue thread.bindCpu
      ((k.queue thread.bindCpu).enqueue cfg thread t)
    if cpuId ≠ thread.bindCpu then
      k.ipiSend (fun c => decide (c = thread.bindCpu))
    else k

/-- Clear the bits of an emptied priority list.  `tested` is the `ready_table`
byte that decides whether the group bit goes too. -/
def ReadyQueue.clearBits (cfg : Config) (thread : Thread) (tested : BitVec 8)
    (q : ReadyQueue) : ReadyQueue :=
  if cfg.twoLevel then
    { q with
      readyTable := update q.readyTable thread.number
        (q.readyTable thread.number &&& ~~~thread.highMask)
      priorityGroup :=
        if tested = 0 then q.priorityGroup &&& ~~~thread.numberMask
        else q.priorityGroup }
  else
    { q with priorityGroup := q.priorityGroup &&& ~~~thread.numberMask }

/-- Whether unlinking `t` leaves the group word of its queue right.  The branch
for bound threads consults the global `rt_thread_ready_table` instead of the
`ready_table` of the CPU, so the two have to agree on being empty. -/
def removalAgreesAt (cfg : Config) (t : Tid) (k : Kernel) : Bool :=
  let thread := k.thread t
  let own := (k.unlink t).queue thread.bindCpu
  let before := own.readyTable thread.number
  let after := before &&& ~~~thread.highMask
  !cfg.twoLevel || decide (thread.bindCpu = cfg.cpusNr) ||
    decide (own.priorityTable thread.currentPriority ≠ []) ||
    if (k.queue cfg.cpusNr).readyTable thread.number = 0 then
      decide (after = 0)
    else decide (before = 0 ∨ after ≠ 0)

def rtScheduleRemoveThread (cfg : Config) (t : Tid) (k : Kernel) : Kernel :=
  let agrees := removalAgreesAt cfg t k
  let thread := k.thread t
  let k : Kernel :=
    { k.unlink t with removalsAgree := k.removalsAgree && agrees }
  if thread.bindCpu = cfg.cpusNr then
    let q := k.queue cfg.cpusNr
    if q.priorityTable thread.currentPriority = [] then
      k.setQueue cfg.cpusNr
        (q.clearBits cfg thread
          (q.readyTable thread.number &&& ~~~thread.highMask))
    else k
  else
    let q := k.queue thread.bindCpu
    if q.priorityTable thread.currentPriority = [] then
      -- the source tests the global table here, not the one it just changed
      k.setQueue thread.bindCpu
        (q.clearBits cfg thread
          ((k.queue cfg.cpusNr).readyTable thread.number))
    else k

end RtThread.Scheduler
