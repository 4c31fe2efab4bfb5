import RtThread.Pthreads.RwLock

namespace RtThread.Pthreads

open RtThread.Ipc RtThread.Lib

/-! The conditions of `pthread_cond.c` by themselves.  The mutex is left out: threads come out of
`pthread_mutex_unlock`, `rt_sem_take` and `pthread_mutex_lock` in any order. -/

namespace Cond

def trytake (cond : Cond) : Option Cond :=
  if 0 < cond.value then some { cond with value := dec16 cond.value } else none

/-- The loop of `pthread_cond_broadcast` as it stands, with the threads that it resumes. -/
def broadcastLoop : Nat → Cond → Option (Cond × List Tid)
  | 0, _ => none
  | fuel + 1, cond =>
    match cond.trytake with
    | none =>
      let (cond, resumed) := cond.release
      (broadcastLoop fuel cond).map fun (cond, others) => (cond, resumed.toList ++ others)
    | some cond =>
      let (cond, resumed) := cond.release
      some (cond, resumed.toList)

end Cond

inductive CondPhase
  | outside
  | wait (timed : Bool) (stage : Stage)
  deriving DecidableEq

/-- A condition and where each thread stands in its wait.

History: `returned` is the result of the last wait that has ended, `onWay` are the threads that
have released the mutex and are still to call `rt_sem_take`.  `signalled` has these threads for each
signal that resumed nobody and has woken none of them yet, `broadcasted` those there at a broadcast.
`without` is the value of the semaphore without the signals and broadcasts that nobody waited
for. -/
structure CondVar where
  cond : Cond
  phase : Tid → CondPhase
  returned : Option (Tid × Int)
  onWay : List Tid
  signalled : List (List Tid)
  broadcasted : List Tid
  without : Nat

namespace CondVar

def setPhase (s : CondVar) (t : Tid) (phase : CondPhase) : CondVar :=
  { s with phase := Function.update s.phase t phase }

def grant (s : CondVar) (t : Tid) : CondVar :=
  match s.phase t with
  | .wait timed _ => s.setPhase t (.wait timed .granted)
  | .outside => s

def someWait (s : CondVar) : Bool := !s.onWay.isEmpty || !s.cond.suspendThread.isEmpty

def startWait (t : Tid) (timed : Bool) (s : CondVar) : CondVar :=
  { s.setPhase t (.wait timed .unlocked) with onWay := t :: s.onWay }

/-- What is left to be done for the threads on their way when one of them is woken. -/
def leaveWay (t : Tid) (s : CondVar) : CondVar :=
  { s with
    onWay := s.onWay.erase t
    signalled := s.signalled.filter fun waits => t ∉ waits
    broadcasted := s.broadcasted.erase t }

def semTake (t : Tid) (timed : Bool) (s : CondVar) : CondVar :=
  let cond := s.cond
  if 0 < cond.value then
    { (s.setPhase t (.wait timed .granted)).leaveWay t with
      cond := { cond with value := dec16 cond.value }
      without := dec16 s.without }
  else
    { (s.setPhase t (.wait timed .blocked)).leaveWay t with
      cond := { cond with suspendThread := cond.suspendThread ++ [t] } }

/-- A thread leaves `rt_sem_take` with a timeout. -/
def semLeave (t : Tid) (s : CondVar) : CondVar :=
  { (s.setPhase t (.wait true (.failed etimedout))).leaveWay t with
    cond := { s.cond with suspendThread := listRemove t s.cond.suspendThread } }

def pthreadCondSignal (s : CondVar) : CondVar :=
  let (cond, resumed) := s.cond.release
  match resumed with
  | some t => { s with cond := cond }.grant t
  | none =>
    { s with
      cond := cond
      signalled := if s.someWait then s.onWay :: s.signalled else s.signalled
      without := if s.someWait then inc16 s.without else s.without }

def pthreadCondBroadcast (s : CondVar) : CondVar :=
  let (cond, resumed) := Cond.broadcast s.cond.value s.cond.suspendThread
  resumed.foldl grant
    { s with
      cond := cond
      broadcasted := s.onWay
      without := if s.someWait then max s.without 1 else s.without }

def endWait (t : Tid) (result : Int) (s : CondVar) : CondVar :=
  { s.setPhase t .outside with returned := some (t, result) }

end CondVar

inductive CondOp
  | wait (t : Tid)
  | timedwait (t : Tid)
  | semTake (t : Tid)
  | timeout (t : Tid)
  | endWait (t : Tid)
  | signal
  | broadcast
  deriving DecidableEq

namespace CondVar

def exec (s : CondVar) : CondOp → Option CondVar
  | .wait t => if s.phase t = .outside then some (s.startWait t false) else none
  | .timedwait t => if s.phase t = .outside then some (s.startWait t true) else none
  | .semTake t =>
    match s.phase t with
    | .wait timed .unlocked => some (s.semTake t timed)
    | _ => none
  | .timeout t =>
    match s.phase t with
    | .wait true .blocked => some (s.semLeave t)
    -- a timeout of 0
    | .wait true .unlocked => if s.cond.value = 0 then some (s.semLeave t) else none
    | _ => none
  | .endWait t =>
    match s.phase t with
    | .wait _ .granted => some (s.endWait t 0)
    | .wait _ (.failed result) => some (s.endWait t result)
    | _ => none
  | .signal => some s.pthreadCondSignal
  | .broadcast => some s.pthreadCondBroadcast

structure Initial (s : CondVar) : Prop where
  cond : s.cond = ⟨0, []⟩
  phase : ∀ t, s.phase t = .outside
  onWay : s.onWay = []
  signalled : s.signalled = []
  broadcasted : s.broadcasted = []
  without : s.without = 0

end CondVar

def condMachine : Machine CondVar CondOp where
  init := CondVar.Initial
  exec := CondVar.exec

end RtThread.Pthreads
