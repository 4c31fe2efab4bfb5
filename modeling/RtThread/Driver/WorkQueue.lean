import RtThread.Ipc.Semaphore

namespace RtThread.Driver

open RtThread.Ipc RtThread.Lib

/-! The work queue of `workqueue.c`.  A step is a section with interrupts disabled, or an
access outside of one: the worker's test of the list, the test that `rt_thread_resume`
makes of the worker's stat, one turn of the loop of `rt_workqueue_cancel_all_work`, which
only locks the scheduler. -/

abbrev Work := Nat

inductive WorkNode
  | head
  | work (w : Work)
  deriving DecidableEq

/-- `node->next`; a node that is not linked points at itself. -/
def WorkNode.next (list : List Work) : WorkNode → WorkNode
  | .head =>
    match list with
    | [] => .head
    | first :: _ => .work first
  | .work w =>
    match list.dropWhile (· ≠ w) with
    | [] => .work w
    | [_] => .head
    | _ :: following :: _ => .work following

def WorkNode.unlink (list : List Work) : WorkNode → List Work
  | .head => list
  | .work w => listRemove w list

inductive WorkerPhase
  | test
  | suspend
  | scheduled
  | take
  | running
  | clean
  | trytake
  | release
  deriving DecidableEq

/-- Where a call of `rt_workqueue_cancel_all_work` stands; `next` is read and not used yet.

History: `since` is the number of submissions before the call. -/
structure WorkCursor where
  node : WorkNode
  next : Option WorkNode
  since : Nat
  deriving DecidableEq

/-- One queue.  `toResume` calls have linked a work and go on to `rt_thread_resume`, `resuming` of
them have found the worker suspended.  `sem` has the threads that use the semaphore, and `stat` is
that of `work_thread`, which only tries it.

History: `stamp` has the position in `submissions` of the last submission of a work neither executed
nor cancelled since.  `executed` are the nodes that the worker took as works, each with its
submission; `finished` of them have come to an end.  A thread in `rt_workqueue_cancel_work_sync`
waits for the execution `awaited`; `returns` has, for each such call that returned, that execution
and the number finished.  `waiters` and `iterations` belong to the last
`_workqueue_work_completion`. -/
structure WorkQueue where
  workList : List Work
  workCurrent : Option WorkNode
  workThread : Tid
  sem : SemSystem
  stat : ThreadStat
  phase : WorkerPhase
  toResume : Nat
  resuming : Nat
  cancelling : List WorkCursor
  submissions : List Work
  stamp : Work → Option Nat
  executed : List (WorkNode × Option Nat)
  finished : Nat
  awaited : Tid → Nat
  returns : List (Nat × Nat)
  waiters : Nat
  iterations : Nat

namespace WorkQueue

/-- The section of `rt_workqueue_dowork` and of `rt_workqueue_critical_work`. -/
def submit (w : Work) (s : WorkQueue) : WorkQueue :=
  if s.workCurrent = some (.work w) then s
  else
    { s with
      workList := listRemove w s.workList ++ [w]
      toResume := if s.workCurrent = none then s.toResume + 1 else s.toResume
      submissions := s.submissions ++ [w]
      stamp := Function.update s.stamp w (some s.submissions.length) }

def rtWorkqueueDowork (w : Work) (s : WorkQueue) : WorkQueue := s.submit w

def rtWorkqueueCriticalWork (w : Work) (s : WorkQueue) : WorkQueue := s.submit w

/-- `rt_list_remove`; a submission is over with it. -/
def removeNode (node : WorkNode) (s : WorkQueue) : WorkQueue :=
  { s with
    workList := node.unlink s.workList
    stamp :=
      match node with
      | .head => s.stamp
      | .work w => Function.update s.stamp w none }

def rtWorkqueueCancelWork (w : Work) (s : WorkQueue) : WorkQueue :=
  if s.workCurrent = some (.work w) then s else s.removeNode (.work w)

/-- `rt_workqueue_cancel_work_sync`, up to the suspension of its thread if it has to wait;
the lock is held from the test on. -/
def rtWorkqueueCancelWorkSync (t : Tid) (w : Work) (s : WorkQueue) : WorkQueue :=
  if s.workCurrent = some (.work w) then
    let sem := rtSemTake t (-1) s.sem
    { s with
      sem := sem
      awaited := Function.update s.awaited t s.executed.length
      returns := if sem.call t then s.returns else s.returns ++ [(s.executed.length, s.finished)] }
  else s.removeNode (.work w)

def cancelWorkSyncEnd (t : Tid) (s : WorkQueue) : WorkQueue :=
  { s with
    sem := rtSemTakeEnd t s.sem
    returns := s.returns ++ [(s.awaited t, s.finished)] }

def cancelAllBegin (s : WorkQueue) : WorkQueue :=
  { s with
    cancelling := s.cancelling ++ [⟨WorkNode.head.next s.workList, none, s.submissions.length⟩] }

def cancelAllNext (i : Nat) (cursor : WorkCursor) (s : WorkQueue) : WorkQueue :=
  { s with
    cancelling := s.cancelling.set i { cursor with next := some (cursor.node.next s.workList) } }

def cancelAllRemove (i : Nat) (cursor : WorkCursor) (next : WorkNode) (s : WorkQueue) : WorkQueue :=
  { s.removeNode cursor.node with
    cancelling := s.cancelling.set i { cursor with node := next, next := none } }

def cancelAllEnd (i : Nat) (cursor : WorkCursor) (s : WorkQueue) : WorkQueue :=
  { s with
    cancelling := s.cancelling.eraseIdx i
    stamp := fun w => (s.stamp w).filter (cursor.since ≤ ·) }

def worker (s : WorkQueue) : Option WorkQueue :=
  match s.phase with
  | .test => some { s with phase := if s.workList = [] then .suspend else .take }
  | .suspend => some { s with stat := .suspend, phase := .scheduled }
  | .scheduled => if s.stat = .ready then some { s with phase := .take } else none
  | .take =>
    let node := WorkNode.head.next s.workList
    let submission :=
      match node with
      | .head => none
      | .work w => s.stamp w
    some { s.removeNode node with
      workCurrent := some node
      phase := .running
      executed := s.executed ++ [(node, submission)] }
  | .running =>
    -- the list head is no work, and what its `work_func` would do is not defined
    match s.workCurrent with
    | some (.work _) => some { s with finished := s.finished + 1, phase := .clean }
    | _ => none
  | .clean =>
    some { s with
      workCurrent := none
      phase := .trytake
      waiters := s.sem.suspendThread.length
      iterations := 0 }
  | .trytake =>
    let sem := rtSemTrytake s.workThread s.sem
    some { s with
      sem := sem
      phase := if sem.result = some (-rtEtimeout) then .release else .test
      iterations := s.iterations + 1 }
  | .release => some { s with sem := rtSemRelease s.sem, phase := .trytake }

end WorkQueue

inductive WorkOp
  | dowork (w : Work)
  | criticalWork (w : Work)
  | resumeTest
  | resumeInsert
  | cancelWork (w : Work)
  | cancelWorkSync (t : Tid) (w : Work)
  | cancelWorkSyncEnd (t : Tid)
  | cancelAllBegin
  | cancelAllNext (i : Nat)
  | cancelAllRemove (i : Nat)
  | cancelAllEnd (i : Nat)
  | worker
  deriving DecidableEq

def WorkQueue.exec (s : WorkQueue) : WorkOp → Option WorkQueue
  | .dowork w => some (s.rtWorkqueueDowork w)
  | .criticalWork w => some (s.rtWorkqueueCriticalWork w)
  | .resumeTest =>
    if 0 < s.toResume then
      some { s with
        toResume := s.toResume - 1
        resuming := if s.stat = .suspend then s.resuming + 1 else s.resuming }
    else none
  | .resumeInsert =>
    if 0 < s.resuming then some { s with resuming := s.resuming - 1, stat := .ready } else none
  | .cancelWork w => some (s.rtWorkqueueCancelWork w)
  -- in a work the call would wait for itself
  | .cancelWorkSync t w =>
    if t ≠ s.workThread ∧ (s.sem.thread t).stat = .ready ∧ s.sem.call t = false then
      some (s.rtWorkqueueCancelWorkSync t w)
    else none
  | .cancelWorkSyncEnd t =>
    if s.sem.call t = true ∧ (s.sem.thread t).stat = .ready then some (s.cancelWorkSyncEnd t)
    else none
  | .cancelAllBegin => some s.cancelAllBegin
  | .cancelAllNext i =>
    match s.cancelling[i]? with
    | some cursor =>
      if cursor.next = none ∧ cursor.node ≠ .head then some (s.cancelAllNext i cursor) else none
    | none => none
  | .cancelAllRemove i =>
    match s.cancelling[i]? with
    | some cursor =>
      match cursor.next with
      | some next => some (s.cancelAllRemove i cursor next)
      | none => none
    | none => none
  | .cancelAllEnd i =>
    match s.cancelling[i]? with
    | some cursor =>
      if cursor.next = none ∧ cursor.node = .head then some (s.cancelAllEnd i cursor) else none
    | none => none
  | .worker => s.worker

/-- After `rt_workqueue_create`, with works that have been initialised. -/
structure WorkQueue.Initial (s : WorkQueue) : Prop where
  workList : s.workList = []
  workCurrent : s.workCurrent = none
  sem : s.sem.Initial
  value : s.sem.value = 0
  flag : s.sem.flag = .fifo
  stat : s.stat = .ready
  phase : s.phase = .test
  toResume : s.toResume = 0
  resuming : s.resuming = 0
  cancelling : s.cancelling = []
  submissions : s.submissions = []
  stamp : ∀ w, s.stamp w = none
  executed : s.executed = []
  finished : s.finished = 0
  returns : s.returns = []
  iterations : s.iterations = 0

def workQueueMachine : Machine WorkQueue WorkOp where
  init := WorkQueue.Initial
  exec := WorkQueue.exec

namespace WorkQueue

def workQueueStart : WorkQueue where
  workList := []
  workCurrent := none
  workThread := 0
  sem :=
    { thread := fun _ => { Thread.init (.flat 1) 10 with stat := .ready }
      suspendThread := []
      value := 0
      flag := .fifo
      call := fun _ => false
      result := none
      resetValue := 0
      releases := 0
      returned := 0
      bound := []
      stale := [] }
  stat := .ready
  phase := .test
  toResume := 0
  resuming := 0
  cancelling := []
  submissions := []
  stamp := fun _ => none
  executed := []
  finished := 0
  awaited := fun _ => 0
  returns := []
  waiters := 0
  iterations := 0

theorem workQueueStart_initial : workQueueStart.Initial := by
  constructor <;> try simp [workQueueStart]
  constructor <;> simp

end WorkQueue

end RtThread.Driver
