import RtThread.Ipc.WaitList
import RtThread.Lib.Transition

namespace RtThread.Ipc

open Function RtThread.Lib

/-! The mutexes of `ipc.c`.

`rt_mutex_take` consists of one section with `_cpus_lock` held and, when it has
to wait, of the return from `rt_schedule`.  `rt_schedule` returns to a suspended
thread only once another section has made it READY again.  Signals are left
out, so no wait ends with `-RT_EINTR`. -/

def inc8 (n : Nat) : Nat := (n + 1) % 256

def dec8 (n : Nat) : Nat := if n = 0 then 255 else n - 1

structure Mutex where
  value : Nat
  originalPriority : Nat
  hold : Nat
  owner : Option Tid
  suspendThread : List Tid
  flag : IpcFlag
  deriving DecidableEq

def rtMutexInit (flag : IpcFlag) : Mutex where
  value := 1
  originalPriority := 0xff
  hold := 0
  owner := none
  suspendThread := []
  flag := flag

inductive Returned
  | take (t : Tid) (m : Nat) (code : Int)
  | release (t : Tid) (m : Nat) (code : Int)
  deriving DecidableEq

/-- `call t` is the mutex that thread `t` waits for inside `rt_mutex_take`.

History: `returned` belongs to the last step, `taken` counts the takes of each
thread that succeeded and have no matching release yet (a take that waits succeeds
when the mutex is handed over), `base` holds the priorities the threads started with. -/
structure MutexSystem where
  thread : Tid → Thread
  mutex : Nat → Mutex
  call : Tid → Option Nat
  returned : Option Returned
  taken : Tid → Nat → Nat
  base : Tid → Nat

namespace MutexSystem

def priority (s : MutexSystem) (t : Tid) : Nat := (s.thread t).currentPriority

def setThread (s : MutexSystem) (t : Tid) (thread : Thread) : MutexSystem :=
  { s with thread := update s.thread t thread }

def setMutex (s : MutexSystem) (m : Nat) (mutex : Mutex) : MutexSystem :=
  { s with mutex := update s.mutex m mutex }

def setTaken (s : MutexSystem) (t : Tid) (m : Nat) (count : Nat) : MutexSystem :=
  { s with taken := update s.taken t (update (s.taken t) m count) }

def setReturned (s : MutexSystem) (returned : Returned) : MutexSystem :=
  { s with returned := some returned }

def unlink (s : MutexSystem) (t : Tid) : MutexSystem :=
  { s with
    mutex := fun m =>
      { s.mutex m with suspendThread := listRemove t (s.mutex m).suspendThread } }

/-- `rt_thread_control` with `RT_THREAD_CTRL_CHANGE_PRIORITY`. -/
def changePriority (cfg : Config) (s : MutexSystem) (t : Tid) (priority : Nat) : MutexSystem :=
  s.setThread t ((s.thread t).setPriority cfg priority)

end MutexSystem

def takeAvailable (t : Tid) (m : Nat) (s : MutexSystem) : MutexSystem :=
  ((s.setMutex m
    { s.mutex m with
      value := dec16 (s.mutex m).value
      owner := some t
      originalPriority := s.priority t
      hold := inc8 (s.mutex m).hold }).setTaken t m (s.taken t m + 1)).setReturned
    (.take t m rtEok)

def boostOwner (cfg : Config) (t owner : Tid) (s : MutexSystem) : MutexSystem :=
  if s.priority t < s.priority owner then s.changePriority cfg owner (s.priority t)
  else s

def suspendOn (t : Tid) (m : Nat) (time : Int) (s : MutexSystem) : MutexSystem :=
  let s := s.setThread t
    { (s.thread t).suspend with
      timerActive := if 0 < time then true else (s.thread t).suspend.timerActive }
  let s := s.setMutex m
    { s.mutex m with
      suspendThread := listSuspend (s.mutex m).flag s.priority t
        (s.mutex m).suspendThread }
  { s with call := update s.call t (some m), returned := none }

def takeAgain (t : Tid) (m : Nat) (s : MutexSystem) : MutexSystem :=
  ((s.setMutex m { s.mutex m with hold := inc8 (s.mutex m).hold }).setTaken
    t m (s.taken t m + 1)).setReturned (.take t m rtEok)

def rtMutexTake (cfg : Config) (t : Tid) (m : Nat) (time : Int) (s : MutexSystem) :
    Option MutexSystem :=
  let s := s.setThread t { s.thread t with error := rtEok }
  if (s.mutex m).owner = some t then some (takeAgain t m s)
  else if 0 < (s.mutex m).value then some (takeAvailable t m s)
  else if time = 0 then
    some ((s.setThread t { s.thread t with error := -rtEtimeout }).setReturned
      (.take t m (-rtEtimeout)))
  else
    match (s.mutex m).owner with
    | none => none
    | some owner => some (suspendOn t m time (boostOwner cfg t owner s))

def rtMutexTakeEnd (t : Tid) (m : Nat) (s : MutexSystem) : MutexSystem :=
  { s with
    call := update s.call t none
    returned := some (.take t m (s.thread t).error) }

def handOver (m : Nat) (next : Tid) (s : MutexSystem) : MutexSystem :=
  let s := (s.setMutex m
    { s.mutex m with
      owner := some next
      originalPriority := s.priority next
      hold := inc8 (s.mutex m).hold }).setTaken next m (s.taken next m + 1)
  (s.unlink next).setThread next (s.thread next).resume

def free (m : Nat) (s : MutexSystem) : MutexSystem :=
  s.setMutex m
    { s.mutex m with
      value := inc16 (s.mutex m).value
      owner := none
      originalPriority := 0xff }

def restorePriority (cfg : Config) (t : Tid) (m : Nat) (s : MutexSystem) : MutexSystem :=
  if (s.mutex m).originalPriority ≠ s.priority t then
    s.changePriority cfg t (s.mutex m).originalPriority
  else s

def releaseLast (cfg : Config) (t : Tid) (m : Nat) (s : MutexSystem) : MutexSystem :=
  let s := restorePriority cfg t m s
  match (s.mutex m).suspendThread with
  | [] => free m s
  | next :: _ => handOver m next s

def dropHold (t : Tid) (m : Nat) (s : MutexSystem) : MutexSystem :=
  (s.setMutex m { s.mutex m with hold := dec8 (s.mutex m).hold }).setTaken
    t m (s.taken t m - 1)

def rtMutexRelease (cfg : Config) (t : Tid) (m : Nat) (s : MutexSystem) : MutexSystem :=
  if (s.mutex m).owner ≠ some t then
    (s.setThread t { s.thread t with error := -rtError }).setReturned
      (.release t m (-rtError))
  else
    let s := dropHold t m s
    let s := if (s.mutex m).hold = 0 then releaseLast cfg t m s else s
    s.setReturned (.release t m rtEok)

def rtThreadTimeout (t : Tid) (s : MutexSystem) : MutexSystem :=
  { (s.unlink t).setThread t (s.thread t).expire with returned := none }

inductive MutexOp
  | take (t : Tid) (m : Nat) (time : Int)
  | takeEnd (t : Tid)
  | release (t : Tid) (m : Nat)
  | timeout (t : Tid)
  deriving DecidableEq

def MutexSystem.CanCall (s : MutexSystem) (t : Tid) : Prop :=
  (s.thread t).stat = .ready ∧ s.call t = none

instance (s : MutexSystem) (t : Tid) : Decidable (s.CanCall t) :=
  inferInstanceAs (Decidable (_ ∧ _))

def MutexSystem.exec (cfg : Config) (s : MutexSystem) : MutexOp → Option MutexSystem
  | .take t m time => if s.CanCall t then rtMutexTake cfg t m time s else none
  | .takeEnd t =>
    match s.call t with
    | none => none
    | some m =>
      if (s.thread t).stat = .ready then some (rtMutexTakeEnd t m s) else none
  | .release t m => if s.CanCall t then some (rtMutexRelease cfg t m s) else none
  | .timeout t =>
    if (s.thread t).stat = .suspend ∧ (s.thread t).timerActive then
      some (rtThreadTimeout t s)
    else none

/-- Mutexes as `rt_mutex_init` leaves them, threads that all run. -/
structure MutexSystem.Initial (s : MutexSystem) : Prop where
  mutex : ∀ m, s.mutex m = rtMutexInit (s.mutex m).flag
  thread : ∀ t, (s.thread t).stat = .ready
  call : ∀ t, s.call t = none
  returned : s.returned = none
  taken : ∀ t m, s.taken t m = 0
  base : ∀ t, s.base t = s.priority t

def MutexSystem.start (cfg : Config) (flag : IpcFlag) (priority : Tid → Nat) : MutexSystem where
  thread := fun t =>
    { (Thread.init cfg (priority t)).setPriority cfg (priority t) with stat := .ready }
  mutex := fun _ => rtMutexInit flag
  call := fun _ => none
  returned := none
  taken := fun _ _ => 0
  base := priority

theorem MutexSystem.start_initial (cfg : Config) (flag : IpcFlag)
    (priority : Tid → Nat) : (MutexSystem.start cfg flag priority).Initial where
  mutex := fun _ => rfl
  thread := fun _ => rfl
  call := fun _ => rfl
  returned := rfl
  taken := fun _ _ => rfl
  base := fun t => by simp [MutexSystem.start, MutexSystem.priority]

def mutexMachine (cfg : Config) : Machine MutexSystem MutexOp where
  init := MutexSystem.Initial
  exec := MutexSystem.exec cfg

end RtThread.Ipc
