import Mathlib.Logic.Function.Basic

namespace RtThread

/-! The thread control block, restricted to the fields the scheduler and the
IPC objects read.  Error codes keep their sign: `rt_err_t` is signed and the
kernel stores `-RT_ETIMEOUT`. -/

abbrev Tid := Nat

/-- The value of `stat & RT_THREAD_STAT_MASK`. -/
inductive ThreadStat
  | init
  | ready
  | suspend
  | close
  deriving DecidableEq

abbrev rtEok : Int := 0
abbrev rtError : Int := 1
abbrev rtEtimeout : Int := 2
abbrev rtEfull : Int := 3

structure Thread where
  stat : ThreadStat
  error : Int
  bindCpu : Nat
  oncpu : Nat
  schedulerLockNest : Nat
  cpusLockNest : Nat
  currentPriority : Nat
  initPriority : Nat
  number : Nat
  highMask : BitVec 8
  numberMask : BitVec 32
  /-- `RT_TIMER_FLAG_ACTIVATED` of `thread_timer`. -/
  timerActive : Bool

/-- The build options the scheduler depends on.  `strayByte` stands for the
byte that `ready_table[number]` reads when `number` lies outside the table. -/
structure Config where
  priorityMax : Nat
  cpusNr : Nat
  strayByte : BitVec 8
  priorityMax_pos : 0 < priorityMax
  priorityMax_le : priorityMax ≤ 256

namespace Config

def cpuDetached (cfg : Config) : Nat := cfg.cpusNr

/-- `RT_THREAD_PRIORITY_MAX > 32` selects the two-level bitmap. -/
def twoLevel (cfg : Config) : Bool := decide (32 < cfg.priorityMax)

def flat (cpusNr : Nat) : Config where
  priorityMax := 32
  cpusNr := cpusNr
  strayByte := 0
  priorityMax_pos := by decide
  priorityMax_le := by decide

end Config

def inc16 (n : Nat) : Nat := (n + 1) % 65536

def dec16 (n : Nat) : Nat := if n = 0 then 65535 else n - 1

namespace Thread

def init (cfg : Config) (priority : Nat) : Thread where
  stat := .init
  error := rtEok
  bindCpu := cfg.cpusNr
  oncpu := cfg.cpuDetached
  schedulerLockNest := 0
  cpusLockNest := 0
  currentPriority := priority
  initPriority := priority
  number := 0
  highMask := 0
  numberMask := 0
  timerActive := false

/-- The priority attributes that `rt_thread_startup` and `rt_thread_control`
recompute whenever they store a new current priority. -/
def setPriority (cfg : Config) (priority : Nat) (thread : Thread) : Thread :=
  if cfg.twoLevel then
    { thread with
      currentPriority := priority
      number := priority >>> 3
      numberMask := 1#32 <<< (priority >>> 3)
      highMask := 1#8 <<< (priority &&& 7) }
  else
    { thread with
      currentPriority := priority
      numberMask := 1#32 <<< priority }

/-- The counters of `rt_cpus_lock`, which is what `rt_hw_interrupt_disable`
expands to in the SMP build. -/
def cpusLock (thread : Thread) : Thread :=
  { thread with
    cpusLockNest := inc16 thread.cpusLockNest
    schedulerLockNest :=
      if thread.cpusLockNest = 0 then inc16 thread.schedulerLockNest
      else thread.schedulerLockNest }

def cpusUnlock (thread : Thread) : Thread :=
  { thread with
    cpusLockNest := dec16 thread.cpusLockNest
    schedulerLockNest :=
      if dec16 thread.cpusLockNest = 0 then dec16 thread.schedulerLockNest
      else thread.schedulerLockNest }

section Projections

variable (cfg : Config) (priority : Nat) (thread : Thread)

@[simp] theorem setPriority_currentPriority :
    (thread.setPriority cfg priority).currentPriority = priority := by
  unfold setPriority
  split <;> rfl

@[simp] theorem setPriority_stat : (thread.setPriority cfg priority).stat = thread.stat := by
  unfold setPriority
  split <;> rfl

@[simp] theorem setPriority_error : (thread.setPriority cfg priority).error = thread.error := by
  unfold setPriority
  split <;> rfl

@[simp] theorem setPriority_bindCpu :
    (thread.setPriority cfg priority).bindCpu = thread.bindCpu := by
  unfold setPriority
  split <;> rfl

@[simp] theorem setPriority_oncpu : (thread.setPriority cfg priority).oncpu = thread.oncpu := by
  unfold setPriority
  split <;> rfl

@[simp] theorem setPriority_cpusLockNest :
    (thread.setPriority cfg priority).cpusLockNest = thread.cpusLockNest := by
  unfold setPriority
  split <;> rfl

@[simp] theorem setPriority_initPriority :
    (thread.setPriority cfg priority).initPriority = thread.initPriority := by
  unfold setPriority
  split <;> rfl

end Projections

structure MasksOk (cfg : Config) (thread : Thread) : Prop where
  flat : cfg.twoLevel = false →
    thread.numberMask = 1#32 <<< thread.currentPriority
  number : cfg.twoLevel = true → thread.number = thread.currentPriority / 8
  numberMask : cfg.twoLevel = true → thread.numberMask = 1#32 <<< thread.number
  highMask : cfg.twoLevel = true →
    thread.highMask = 1#8 <<< (thread.currentPriority % 8)

theorem setPriority_masksOk (cfg : Config) (priority : Nat) (thread : Thread) :
    (thread.setPriority cfg priority).MasksOk cfg := by
  have hmod : priority &&& 7 = priority % 8 := Nat.and_two_pow_sub_one_eq_mod priority 3
  have hdiv : priority >>> 3 = priority / 8 := by
    simp [Nat.shiftRight_eq_div_pow]
  constructor <;> intro hlevel <;> simp [setPriority, hlevel, hmod, hdiv]

/-! What `rt_thread_suspend`, `rt_thread_resume` and `rt_thread_timeout` do to
the record of the thread itself.  The IPC objects see threads only through
these and through the priority change. -/

def suspend (thread : Thread) : Thread :=
  if thread.stat = .ready then
    { thread with stat := .suspend, timerActive := false }
  else thread

def resume (thread : Thread) : Thread :=
  if thread.stat = .suspend then
    { thread with stat := .ready, timerActive := false }
  else thread

/-- `rt_thread_timeout`, called by the one-shot `thread_timer` that has just
expired. -/
def expire (thread : Thread) : Thread :=
  { thread with stat := .ready, error := -rtEtimeout, timerActive := false }

section Projections

variable (thread : Thread)

@[simp] theorem suspend_currentPriority :
    thread.suspend.currentPriority = thread.currentPriority := by
  unfold suspend
  split <;> rfl

@[simp] theorem suspend_error : thread.suspend.error = thread.error := by
  unfold suspend
  split <;> rfl

@[simp] theorem suspend_cpusLockNest : thread.suspend.cpusLockNest = thread.cpusLockNest := by
  unfold suspend
  split <;> rfl

@[simp] theorem resume_currentPriority :
    thread.resume.currentPriority = thread.currentPriority := by
  unfold resume
  split <;> rfl

@[simp] theorem resume_error : thread.resume.error = thread.error := by
  unfold resume
  split <;> rfl

@[simp] theorem resume_cpusLockNest : thread.resume.cpusLockNest = thread.cpusLockNest := by
  unfold resume
  split <;> rfl

@[simp] theorem expire_currentPriority :
    thread.expire.currentPriority = thread.currentPriority := rfl

theorem suspend_stat (hready : thread.stat = .ready) : thread.suspend.stat = .suspend := by
  simp [suspend, hready]

theorem resume_stat (hsuspend : thread.stat = .suspend) : thread.resume.stat = .ready := by
  simp [resume, hsuspend]

end Projections

end Thread

end RtThread
