import RtThread.Ipc.WaitList
import RtThread.Lib.Transition

namespace RtThread.Driver

open RtThread.Ipc RtThread.Lib

/-! The completion of `completion.c`.  A step is a section with interrupts disabled, the test of
the flag that `rt_completion_done` makes before its section, or the waiter's look at its
own error after `rt_schedule`. -/

abbrev rtUncompleted : Nat := 0
abbrev rtCompleted : Nat := 1

inductive WaitPhase
  | scheduled
  | looked (result : Int)
  deriving DecidableEq

inductive CompletionEvent
  | done (call : Nat)
  | wait (t : Tid) (result : Int)
  deriving DecidableEq

def CompletionEvent.isWait : CompletionEvent → Bool
  | .done _ => false
  | .wait _ _ => true

/-- A completion, its one waiter and the calls of `rt_completion_done` that have found it
uncompleted.

History: `log` has the calls that have come to their end. -/
structure Completion where
  flag : Nat
  suspendedList : List Tid
  thread : Tid → Thread
  waiter : Option (Tid × WaitPhase)
  entered : Nat → Bool
  log : List CompletionEvent

namespace Completion

def setThread (s : Completion) (t : Tid) (thread : Thread) : Completion :=
  { s with thread := Function.update s.thread t thread }

def record (s : Completion) (event : CompletionEvent) : Completion :=
  { s with log := s.log ++ [event] }

def rtCompletionWait (t : Tid) (timeout : Int) (s : Completion) : Option Completion :=
  if s.flag ≠ rtCompleted then
    if s.suspendedList ≠ [] then none
    else if timeout = 0 then some (s.record (.wait t (-rtEtimeout)))
    else
      some { s.setThread t
          { ({ s.thread t with error := rtEok }).suspend with timerActive := 0 < timeout } with
        suspendedList := s.suspendedList ++ [t]
        waiter := some (t, .scheduled) }
  else some ({ s with flag := rtUncompleted }.record (.wait t rtEok))

def look (t : Tid) (s : Completion) : Completion :=
  { s with waiter := some (t, .looked (s.thread t).error) }

def clear (t : Tid) (result : Int) (s : Completion) : Completion :=
  { s with flag := rtUncompleted, waiter := none }.record (.wait t result)

def doneTest (call : Nat) (s : Completion) : Completion :=
  if s.flag = rtCompleted then s.record (.done call)
  else { s with entered := Function.update s.entered call true }

def doneSet (call : Nat) (s : Completion) : Completion :=
  let s := { s with flag := rtCompleted, entered := Function.update s.entered call false }
  match s.suspendedList with
  | [] => s.record (.done call)
  | first :: _ =>
    if (s.thread first).stat = .suspend then
      { s.setThread first (s.thread first).resume with
        suspendedList := listRemove first s.suspendedList }.record (.done call)
    else s.record (.done call)

def expire (t : Tid) (s : Completion) : Completion :=
  { s.setThread t (s.thread t).expire with suspendedList := listRemove t s.suspendedList }

end Completion

inductive CompletionOp
  | wait (t : Tid) (timeout : Int)
  | look (t : Tid)
  | clear (t : Tid)
  | doneTest (call : Nat)
  | doneSet (call : Nat)
  | expire (t : Tid)
  deriving DecidableEq

def Completion.exec (s : Completion) : CompletionOp → Option Completion
  | .wait t timeout =>
    if s.waiter = none ∧ (s.thread t).stat = .ready then s.rtCompletionWait t timeout else none
  | .look t =>
    if s.waiter = some (t, .scheduled) ∧ (s.thread t).stat = .ready then some (s.look t) else none
  | .clear t =>
    match s.waiter with
    | some (u, .looked result) => if t = u then some (s.clear t result) else none
    | _ => none
  | .doneTest call => if s.entered call = false then some (s.doneTest call) else none
  | .doneSet call => if s.entered call = true then some (s.doneSet call) else none
  | .expire t =>
    if (s.thread t).stat = .suspend ∧ (s.thread t).timerActive then some (s.expire t) else none

structure Completion.Initial (s : Completion) : Prop where
  flag : s.flag = rtUncompleted
  suspendedList : s.suspendedList = []
  waiter : s.waiter = none
  entered : ∀ call, s.entered call = false
  log : s.log = []

def completionMachine : Machine Completion CompletionOp where
  init := Completion.Initial
  exec := Completion.exec

namespace Completion

def HasExpired (s : Completion) : Prop :=
  match s.waiter with
  | none => False
  | some (t, .scheduled) => (s.thread t).stat = .ready ∧ (s.thread t).error ≠ rtEok
  | some (_, .looked result) => result ≠ rtEok

instance (s : Completion) : Decidable s.HasExpired := by
  unfold HasExpired
  split <;> infer_instance

def SetsInTime (s : Completion) : CompletionOp → Prop
  | .doneSet _ => ¬ s.HasExpired
  | _ => True

instance (s : Completion) (op : CompletionOp) : Decidable (s.SetsInTime op) := by
  unfold SetsInTime
  split <;> infer_instance

/-- The wait under way will return `RT_EOK`: its thread was woken by a done. -/
def Served (s : Completion) (t : Tid) : Prop :=
  (s.waiter = some (t, .scheduled) ∧ (s.thread t).error = rtEok ∨
      s.waiter = some (t, .looked rtEok)) ∧
    (s.thread t).stat = .ready

/-- What a done leaves: either the wait under way is awake and the next one to return, with
`RT_EOK`, or the flag stays set until a wait returns `RT_EOK`. -/
def Kept (allowed : Completion → CompletionOp → Prop) (s : Completion) : Prop :=
  (∃ t, s.waiter.map Prod.fst = some t ∧
    ∀ s', Machine.Path completionMachine allowed s s' → ∃ new, s'.log = s.log ++ new ∧
      (new.find? CompletionEvent.isWait = some (.wait t rtEok) ∨
        new.find? CompletionEvent.isWait = none ∧
          s'.waiter.map Prod.fst = some t ∧ (s'.thread t).stat = .ready)) ∨
  ∀ s', Machine.Path completionMachine allowed s s' → ∃ new, s'.log = s.log ++ new ∧
    ((∃ t, .wait t rtEok ∈ new) ∨ s'.flag = rtCompleted)

/-- A done came to its end after the last wait that returned `RT_EOK`. -/
def DoneSince (log : List CompletionEvent) : Prop :=
  ∃ before call after, log = before ++ .done call :: after ∧ ∀ t, .wait t rtEok ∉ after

structure NoDoneLost (allowed : Completion → CompletionOp → Prop) (s : Completion) : Prop where
  kept : ∀ op s' call, allowed s op → completionMachine.exec s op = some s' →
    s'.log = s.log ++ [.done call] → s'.Kept allowed
  earned : ∀ before t after, s.log = before ++ .wait t rtEok :: after → DoneSince before

end Completion

end RtThread.Driver
