import RtThread.Ipc.WaitList
import RtThread.Lib.Transition

namespace RtThread.Ipc

open RtThread.Lib

/-! The semaphores of `ipc.c`.  As with mutexes a take that has to wait is a
section with `_cpus_lock` held and, later, the return from `rt_schedule`; no
signals are delivered. -/

/-- One semaphore and the threads that use it.  `call t` says that thread `t` is
inside `rt_sem_take` past the point where it was suspended.

History: `resetValue` is the value of the last reset, `releases` and `returned`
count the releases and the takes that returned `RT_EOK` since.  `bound` holds the
threads resumed since whose take has still to return, `stale` those resumed before. -/
structure SemSystem extends WaitQueue where
  value : Nat
  flag : IpcFlag
  call : Tid → Bool
  result : Option Int
  resetValue : Nat
  releases : Nat
  returned : Nat
  bound : List Tid
  stale : List Tid

def semAvailable (s : SemSystem) : SemSystem :=
  { s with
    value := dec16 s.value
    result := some rtEok
    returned := s.returned + 1 }

def semSuspend (t : Tid) (time : Int) (s : SemSystem) : SemSystem :=
  { s with
    toWaitQueue := (s.toWaitQueue.setError t rtEok).suspend s.flag t time
    call := Function.update s.call t true
    result := none }

def rtSemTake (t : Tid) (time : Int) (s : SemSystem) : SemSystem :=
  if 0 < s.value then semAvailable s
  else if time = 0 then { s with result := some (-rtEtimeout) }
  else semSuspend t time s

def rtSemTrytake (t : Tid) (s : SemSystem) : SemSystem := rtSemTake t 0 s

def rtSemTakeEnd (t : Tid) (s : SemSystem) : SemSystem :=
  let error := (s.thread t).error
  { s with
    call := Function.update s.call t false
    result := some error
    returned :=
      if error = rtEok ∧ t ∉ s.stale then s.returned + 1 else s.returned
    bound := listRemove t s.bound
    stale := listRemove t s.stale }

def rtSemRelease (s : SemSystem) : SemSystem :=
  let s := { s with result := none, releases := s.releases + 1 }
  match s.suspendThread with
  | [] => { s with value := inc16 s.value }
  | first :: _ =>
    { s with toWaitQueue := s.toWaitQueue.resume first, bound := first :: s.bound }

/-- `rt_sem_control` with `RT_IPC_CMD_RESET`. -/
def rtSemReset (value : Nat) (s : SemSystem) : Option SemSystem :=
  s.toWaitQueue.resumeAll.map fun waiters =>
    { s with
      toWaitQueue := waiters
      value := value % 65536
      result := none
      resetValue := value % 65536
      releases := 0
      returned := 0
      bound := []
      stale := s.bound ++ s.stale }

def semTimeout (t : Tid) (s : SemSystem) : SemSystem :=
  { s with toWaitQueue := s.toWaitQueue.expire t, result := none }

inductive SemOp
  | take (t : Tid) (time : Int)
  | trytake (t : Tid)
  | takeEnd (t : Tid)
  | release
  | timeout (t : Tid)
  | reset (value : Nat)
  deriving DecidableEq

def SemSystem.exec (s : SemSystem) : SemOp → Option SemSystem
  | .take t time =>
    if (s.thread t).stat = .ready ∧ s.call t = false then
      some (rtSemTake t time s)
    else none
  -- also from an interrupt handler that runs on top of the thread
  | .trytake t => some (rtSemTrytake t s)
  | .takeEnd t =>
    if s.call t = true ∧ (s.thread t).stat = .ready then some (rtSemTakeEnd t s)
    else none
  | .release => some (rtSemRelease s)
  | .timeout t =>
    if (s.thread t).stat = .suspend ∧ (s.thread t).timerActive then
      some (semTimeout t s)
    else none
  | .reset value => rtSemReset value s

/-- `rt_sem_init` with some value that fits, and threads that all run. -/
structure SemSystem.Initial (s : SemSystem) : Prop where
  thread : ∀ t, (s.thread t).stat = .ready
  value : s.value ≤ 65535
  suspendThread : s.suspendThread = []
  call : ∀ t, s.call t = false
  resetValue : s.resetValue = s.value
  releases : s.releases = 0
  returned : s.returned = 0
  bound : s.bound = []
  stale : s.stale = []

def semMachine : Machine SemSystem SemOp where
  init := SemSystem.Initial
  exec := SemSystem.exec

def releaseBelow (s : SemSystem) : SemOp → Bool
  | .release => decide (s.value ≠ 65535)
  | _ => true

end RtThread.Ipc
