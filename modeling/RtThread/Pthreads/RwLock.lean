import Mathlib.Algebra.Order.Ring.Int
import RtThread.Ipc.WaitList
import RtThread.Lib.Transition

namespace RtThread.Pthreads

open Function RtThread.Ipc RtThread.Lib

/-! The locks of `pthread_rwlock.c` over the conditions of `pthread_cond.c`.

A step is a section with `rw_mutex` held, or what a thread or its timer does between two of them,
so `rw_mutex` is free in every state. -/

inductive Side
  | reader
  | writer
  deriving DecidableEq

abbrev ebusy : Int := 16
abbrev einval : Int := 22
abbrev etimedout : Int := 116

def intAdd (a b : Int) : Int := (a + b).bmod (2 ^ 32)

theorem intAdd_eq {a b : Int} (hnonneg : 0 ≤ a + b) (hroom : a + b < 2 ^ 31) : intAdd a b = a + b :=
  Int.bmod_eq_of_le (by omega) (by omega)

/-- Where a thread stands in `_pthread_cond_timedwait`: before `rt_sem_take`, in it, and behind it,
with `rw_mutex` still to be taken again. -/
inductive Stage
  | unlocked
  | blocked
  | granted
  | failed (result : Int)
  deriving DecidableEq

inductive Phase
  | outside
  | wait (side : Side) (timed : Bool) (stage : Stage)
  deriving DecidableEq

structure Cond where
  value : Nat
  suspendThread : List Tid
  deriving DecidableEq

namespace Cond

/-- `rt_sem_release` on the semaphore of a condition, with the thread that it resumes. -/
def release (cond : Cond) : Cond × Option Tid :=
  match cond.suspendThread with
  | [] => ({ cond with value := inc16 cond.value }, none)
  | t :: rest => ({ cond with suspendThread := rest }, some t)

/-- The loop of `pthread_cond_broadcast`, with the threads that it resumes. -/
def broadcast (value : Nat) : List Tid → Cond × List Tid
  | [] =>
    -- without a token it releases one first
    if value = 0 then (⟨1, []⟩, []) else (⟨inc16 (dec16 value), []⟩, [])
  | t :: rest =>
    if value = 0 then
      let (cond, resumed) := broadcast 0 rest
      (cond, t :: resumed)
    else (⟨dec16 value, rest⟩, [t])

end Cond

/-- `nwait` are `rw_nwaitreaders` and `rw_nwaitwriters`, `cond` are `rw_condreaders` and
`rw_condwriters`.

History: `held` are the threads that hold the lock on a side, once for each call that has returned
0, `returned` is the result of a call that the last step has ended. -/
structure RwLock where
  rwRefcount : Int
  nwait : Side → Int
  cond : Side → Cond
  phase : Tid → Phase
  held : Side → List Tid
  returned : Option (Tid × Int)

namespace RwLock

def setPhase (s : RwLock) (t : Tid) (phase : Phase) : RwLock :=
  { s with phase := update s.phase t phase }

def setCond (s : RwLock) (side : Side) (cond : Cond) : RwLock :=
  { s with cond := update s.cond side cond }

def addWaiter (s : RwLock) (side : Side) (n : Int) : RwLock :=
  { s with nwait := update s.nwait side (intAdd (s.nwait side) n) }

def grant (s : RwLock) (t : Tid) : RwLock :=
  match s.phase t with
  | .wait side timed _ => s.setPhase t (.wait side timed .granted)
  | .outside => s

def mustWait (s : RwLock) : Side → Bool
  | .reader => s.rwRefcount < 0 ∨ 0 < s.nwait .writer
  | .writer => s.rwRefcount ≠ 0

def acquire (t : Tid) (side : Side) (s : RwLock) : RwLock :=
  { s with
    rwRefcount :=
      match side with
      | .reader => intAdd s.rwRefcount 1
      | .writer => -1
    phase := update s.phase t .outside
    held := update s.held side (t :: s.held side)
    returned := some (t, 0) }

def giveUp (t : Tid) (result : Int) (s : RwLock) : RwLock :=
  { s.setPhase t .outside with returned := some (t, result) }

/-- The loop of the calls that wait, up to the point where `pthread_cond_wait` lets go of
`rw_mutex`. -/
def waitLoop (t : Tid) (side : Side) (timed : Bool) (s : RwLock) : RwLock :=
  if s.mustWait side then
    { (s.addWaiter side 1).setPhase t (.wait side timed .unlocked) with returned := none }
  else s.acquire t side

def tryLock (t : Tid) (side : Side) (s : RwLock) : RwLock :=
  if s.mustWait side then s.giveUp t ebusy else s.acquire t side

def pthreadRwlockRdlock (t : Tid) : RwLock → RwLock := waitLoop t .reader false

def pthreadRwlockTryrdlock (t : Tid) : RwLock → RwLock := tryLock t .reader

def pthreadRwlockTimedrdlock (t : Tid) : RwLock → RwLock := waitLoop t .reader true

def pthreadRwlockWrlock (t : Tid) : RwLock → RwLock := waitLoop t .writer false

def pthreadRwlockTrywrlock (t : Tid) : RwLock → RwLock := tryLock t .writer

def pthreadRwlockTimedwrlock (t : Tid) : RwLock → RwLock := waitLoop t .writer true

def pthreadCondSignal (side : Side) (s : RwLock) : RwLock :=
  let (cond, resumed) := (s.cond side).release
  let s := s.setCond side cond
  match resumed with
  | none => s
  | some t => s.grant t

def pthreadCondBroadcast (side : Side) (s : RwLock) : RwLock :=
  let (cond, resumed) := Cond.broadcast (s.cond side).value (s.cond side).suspendThread
  resumed.foldl grant (s.setCond side cond)

def dropLock (t : Tid) (s : RwLock) : RwLock :=
  if 0 < s.rwRefcount then
    { s with
      rwRefcount := s.rwRefcount - 1
      held := update s.held .reader ((s.held .reader).erase t) }
  else if s.rwRefcount = -1 then
    { s with
      rwRefcount := 0
      held := update s.held .writer ((s.held .writer).erase t) }
  else s

def pthreadRwlockUnlock (t : Tid) (s : RwLock) : RwLock :=
  let s := { s.dropLock t with returned := none }
  if 0 < s.nwait .writer then
    if s.rwRefcount = 0 then s.pthreadCondSignal .writer else s
  else if 0 < s.nwait .reader then s.pthreadCondBroadcast .reader
  else s

def semTake (t : Tid) (side : Side) (timed : Bool) (s : RwLock) : RwLock :=
  let cond := s.cond side
  if 0 < cond.value then
    (s.setCond side { cond with value := dec16 cond.value }).setPhase t (.wait side timed .granted)
  else
    (s.setCond side { cond with suspendThread := cond.suspendThread ++ [t] }).setPhase t
      (.wait side timed .blocked)

/-- A thread leaves `rt_sem_take` without a token: with a timeout, with another error, or with
none. -/
def semLeave (t : Tid) (side : Side) (timed : Bool) (stage : Stage) (s : RwLock) : RwLock :=
  let cond := s.cond side
  (s.setCond side { cond with suspendThread := listRemove t cond.suspendThread }).setPhase t
    (.wait side timed stage)

def waitEnd (t : Tid) (side : Side) (timed : Bool) (stage : Stage) (s : RwLock) : RwLock :=
  let s := s.addWaiter side (-1)
  match stage with
  | .failed result => s.giveUp t result
  | _ => s.waitLoop t side timed

end RwLock

inductive RwOp
  | rdlock (t : Tid)
  | tryrdlock (t : Tid)
  | timedrdlock (t : Tid)
  | wrlock (t : Tid)
  | trywrlock (t : Tid)
  | timedwrlock (t : Tid)
  | unlock (t : Tid)
  | semTake (t : Tid)
  | timeout (t : Tid)
  | error (t : Tid)
  | spurious (t : Tid)
  | waitEnd (t : Tid)
  deriving DecidableEq

namespace RwLock

def exec (s : RwLock) : RwOp → Option RwLock
  | .rdlock t => if s.phase t = .outside then some (s.pthreadRwlockRdlock t) else none
  | .tryrdlock t => if s.phase t = .outside then some (s.pthreadRwlockTryrdlock t) else none
  | .timedrdlock t => if s.phase t = .outside then some (s.pthreadRwlockTimedrdlock t) else none
  | .wrlock t => if s.phase t = .outside then some (s.pthreadRwlockWrlock t) else none
  | .trywrlock t => if s.phase t = .outside then some (s.pthreadRwlockTrywrlock t) else none
  | .timedwrlock t => if s.phase t = .outside then some (s.pthreadRwlockTimedwrlock t) else none
  -- only a thread that holds the lock gives it back
  | .unlock t =>
    if s.phase t = .outside ∧ (t ∈ s.held .reader ∨ t ∈ s.held .writer) then
      some (s.pthreadRwlockUnlock t)
    else none
  | .semTake t =>
    match s.phase t with
    | .wait side timed .unlocked => some { s.semTake t side timed with returned := none }
    | _ => none
  | .timeout t =>
    match s.phase t with
    | .wait side true .blocked =>
      some { s.semLeave t side true (.failed etimedout) with returned := none }
    -- a timeout of 0
    | .wait side true .unlocked =>
      if (s.cond side).value = 0 then
        some { s.semLeave t side true (.failed etimedout) with returned := none }
      else none
    | _ => none
  | .error t =>
    match s.phase t with
    | .wait side timed .blocked =>
      some { s.semLeave t side timed (.failed einval) with returned := none }
    | _ => none
  | .spurious t =>
    match s.phase t with
    | .wait side timed .blocked =>
      some { s.semLeave t side timed .granted with returned := none }
    | _ => none
  | .waitEnd t =>
    match s.phase t with
    | .wait side timed .granted => some (s.waitEnd t side timed .granted)
    | .wait side timed (.failed result) => some (s.waitEnd t side timed (.failed result))
    | _ => none

structure Initial (s : RwLock) : Prop where
  rwRefcount : s.rwRefcount = 0
  nwait : ∀ side, s.nwait side = 0
  cond : ∀ side, s.cond side = ⟨0, []⟩
  phase : ∀ t, s.phase t = .outside
  held : ∀ side, s.held side = []
  returned : s.returned = none

end RwLock

def rwMachine : Machine RwLock RwOp where
  init := RwLock.Initial
  exec := RwLock.exec

end RtThread.Pthreads
