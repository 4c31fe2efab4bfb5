import RtThread.Blocking.State
import RtThread.Ipc.MessageQueue
import RtThread.Ipc.Mutex

namespace RtThread.Blocking

open RtThread.Lib RtThread.Ipc RtThread.Scheduler

/-! The calls.  `t` is the current thread of CPU `c`; the calls that never block may
also come from an interrupt handler on top of it.  A call that has woken somebody ends
with `rt_schedule`, which is a step of its own.  No signals are delivered. -/

def hasAnd (option : BitVec 8) : Bool := decide (option &&& 1 ≠ 0)

def hasOr (option : BitVec 8) : Bool := decide (option &&& 2 ≠ 0)

def hasClear (option : BitVec 8) : Bool := decide (option &&& 4 ≠ 0)

def eventStatus (option : BitVec 8) (wanted set : BitVec 32) : Bool :=
  if hasAnd option then decide (wanted &&& set = wanted)
  else if hasOr option then decide (wanted &&& set ≠ 0)
  else false

def eventReceived (option : BitVec 8) (wanted set : BitVec 32) : BitVec 32 :=
  if hasAnd option then wanted else wanted &&& set

def eventLeft (option : BitVec 8) (received set : BitVec 32) : BitVec 32 :=
  if hasClear option then set &&& ~~~received else set

/-- `++ offset`, back to 0 at the end of the pool. -/
def nextOffset (size offset : Nat) : Nat :=
  if size ≤ inc16 offset then 0 else inc16 offset

def Mailbox.put (mb : Mailbox) (value : Nat) : Mailbox :=
  { mb with
    msgPool := Function.update mb.msgPool mb.inOffset value
    inOffset := nextOffset mb.size mb.inOffset
    entry := inc16 mb.entry
    sent := mb.sent ++ [value] }

def Mailbox.get (mb : Mailbox) : Mailbox :=
  { mb with
    outOffset := nextOffset mb.size mb.outOffset
    entry := dec16 mb.entry
    received := mb.received ++ [mb.msgPool mb.outOffset] }

namespace System

def rtSemTake (cfg : Config) (c : Nat) (t : Tid) (o : ObjId) (value : Nat) (time : Int)
    (s : System) : Option System :=
  if 0 < value then some ((s.setObject o (.semaphore (dec16 value))).returns rtEok)
  else if time = 0 then some (s.returns (-rtEtimeout))
  else (s.setError t rtEok).block cfg c t o .semTake time

def rtSemRelease (cfg : Config) (c : Nat) (o : ObjId) (value : Nat) (s : System) : System :=
  if s.list o .receiver ≠ [] then (s.listResume cfg c o .receiver).returns rtEok
  else (s.setObject o (.semaphore (inc16 value))).returns rtEok

/-- `rt_sem_control` with `RT_IPC_CMD_RESET`. -/
def rtSemReset (cfg : Config) (c : Nat) (o : ObjId) (value : Nat) (s : System) : Option System :=
  (s.listResumeAll cfg c o .receiver).map fun s =>
    (s.setObject o (.semaphore (value % 65536))).returns rtEok

def inheritPriority (cfg : Config) (c : Nat) (t owner : Tid) (s : System) : System :=
  if s.priority t < s.priority owner then s.changePriority cfg c owner (s.priority t)
  else s

def rtMutexTake (cfg : Config) (c : Nat) (t : Tid) (o : ObjId) (mutex : MutexState)
    (time : Int) (s : System) : Option System :=
  if s.CanCall c t then
    let s := s.setError t rtEok
    if mutex.owner = some t then
      some ((s.setObject o (.mutex { mutex with hold := inc8 mutex.hold })).returns rtEok)
    else if 0 < mutex.value then
      some ((s.setObject o (.mutex
        { value := dec16 mutex.value
          owner := some t
          originalPriority := s.priority t
          hold := inc8 mutex.hold })).returns rtEok)
    else if time = 0 then some ((s.setError t (-rtEtimeout)).returns (-rtEtimeout))
    else
      match mutex.owner with
      | none => none
      | some owner => (s.inheritPriority cfg c t owner).block cfg c t o .mutexTake time
  else none

def restorePriority (cfg : Config) (c : Nat) (t : Tid) (originalPriority : Nat)
    (s : System) : System :=
  if originalPriority ≠ s.priority t then s.changePriority cfg c t originalPriority
  else s

/-- The owner gives the mutex up: `hold` has gone down to 0. -/
def mutexRelease (cfg : Config) (c : Nat) (t : Tid) (o : ObjId) (mutex : MutexState)
    (s : System) : System :=
  let s := s.restorePriority cfg c t mutex.originalPriority
  match s.list o .receiver with
  | [] =>
    s.setObject o (.mutex
      { value := inc16 mutex.value
        owner := none
        originalPriority := 0xff
        hold := 0 })
  | next :: _ =>
    (s.setObject o (.mutex
      { value := mutex.value
        owner := some next
        originalPriority := s.priority next
        hold := inc8 0 })).listResume cfg c o .receiver

def rtMutexRelease (cfg : Config) (c : Nat) (t : Tid) (o : ObjId) (mutex : MutexState)
    (s : System) : Option System :=
  if s.CanCall c t then
    if mutex.owner ≠ some t then some ((s.setError t (-rtError)).returns (-rtError))
    else if dec8 mutex.hold = 0 then some ((s.mutexRelease cfg c t o mutex).returns rtEok)
    else
      some ((s.setObject o (.mutex { mutex with hold := dec8 mutex.hold })).returns rtEok)
  else none

def eventGrant (cfg : Config) (c : Nat) (o : ObjId) (t : Tid) (received left : BitVec 32)
    (s : System) : System :=
  ((s.setObject o (.event left)).setEventSet t received).grant cfg c o .receiver t

def eventSendEach (cfg : Config) (c : Nat) (o : ObjId) : List Tid → BitVec 32 → System → System
  | [], _, s => s
  | t :: rest, set, s =>
    if eventStatus (s.eventInfo t) (s.eventSet t) set then
      let received := eventReceived (s.eventInfo t) (s.eventSet t) set
      let left := eventLeft (s.eventInfo t) received set
      eventSendEach cfg c o rest left (s.eventGrant cfg c o t received left)
    else eventSendEach cfg c o rest set s

def rtEventSend (cfg : Config) (c : Nat) (o : ObjId) (old set : BitVec 32) (s : System) : System :=
  if set = 0 then s.returns (-rtError)
  else
    (eventSendEach cfg c o (s.list o .receiver) (old ||| set)
      (s.setObject o (.event (old ||| set)))).returns rtEok

def rtEventRecv (cfg : Config) (c : Nat) (t : Tid) (o : ObjId) (current set : BitVec 32)
    (option : BitVec 8) (timeout : Int) (s : System) : Option System :=
  if s.CanCall c t then
    if set = 0 then some (s.returns (-rtError))
    else if hasAnd option = false ∧ hasOr option = false then none
    else
      let s := s.setError t rtEok
      if eventStatus option set current then
        some { s.setObject o (.event (eventLeft option set current)) with
          result := some ⟨rtEok, some (current &&& set).toNat⟩ }
      else if timeout = 0 then some ((s.setError t (-rtEtimeout)).returns (-rtEtimeout))
      else
        { s with
          eventSet := Function.update s.eventSet t set
          eventInfo := Function.update s.eventInfo t option }.block cfg c t o .eventRecv timeout
  else none

/-- `rt_event_control` with `RT_IPC_CMD_RESET`. -/
def rtEventReset (cfg : Config) (c : Nat) (o : ObjId) (s : System) : Option System :=
  (s.listResumeAll cfg c o .receiver).map fun s => (s.setObject o (.event 0)).returns rtEok

def mbSendLoop (cfg : Config) (c : Nat) (t : Tid) (o : ObjId) (mb : Mailbox) (value : Nat)
    (timeout : Int) (s : System) : Option System :=
  if mb.entry = mb.size then
    let s := s.setError t rtEok
    if timeout = 0 then some (s.returns (-rtEfull))
    else s.block cfg c t o (.mbSend value) timeout
  else
    some (((s.setObject o (.mailbox (mb.put value))).listResume cfg c o .receiver).returns rtEok)

def rtMbSendWait (cfg : Config) (c : Nat) (t : Tid) (o : ObjId) (mb : Mailbox) (value : Nat)
    (timeout : Int) (s : System) : Option System :=
  if mb.entry = mb.size ∧ timeout = 0 then some (s.returns (-rtEfull))
  else s.mbSendLoop cfg c t o mb value timeout

def rtMbSend (cfg : Config) (c : Nat) (t : Tid) (o : ObjId) (mb : Mailbox) (value : Nat)
    (s : System) : Option System :=
  s.rtMbSendWait cfg c t o mb value 0

def mbRecvLoop (cfg : Config) (c : Nat) (t : Tid) (o : ObjId) (mb : Mailbox)
    (timeout : Int) (s : System) : Option System :=
  if mb.entry = 0 then
    let s := s.setError t rtEok
    if timeout = 0 then some ((s.setError t (-rtEtimeout)).returns (-rtEtimeout))
    else s.block cfg c t o .mbRecv timeout
  else
    some { (s.setObject o (.mailbox mb.get)).listResume cfg c o .sender with
      result := some ⟨rtEok, some (mb.msgPool mb.outOffset)⟩ }

def rtMbRecv (cfg : Config) (c : Nat) (t : Tid) (o : ObjId) (mb : Mailbox) (timeout : Int)
    (s : System) : Option System :=
  if mb.entry = 0 ∧ timeout = 0 then some (s.returns (-rtEtimeout))
  else s.mbRecvLoop cfg c t o mb timeout

/-- `rt_mb_control` with `RT_IPC_CMD_RESET`. -/
def rtMbReset (cfg : Config) (c : Nat) (o : ObjId) (mb : Mailbox) (s : System) : Option System := do
  let s ← s.listResumeAll cfg c o .receiver
  let s ← s.listResumeAll cfg c o .sender
  return (s.setObject o (.mailbox
    { mb with
      entry := 0
      inOffset := 0
      outOffset := 0
      sent := []
      received := [] })).returns rtEok

/-- The section of `rt_mq_send` and `rt_mq_urgent` that links a message. -/
def mqLink (cfg : Config) (c : Nat) (o : ObjId) (entry : Nat) (s : System) : System :=
  ((s.setObject o (.messageQueue (inc16 entry))).listResume cfg c o .receiver).returns rtEok

def mqRecvLoop (cfg : Config) (c : Nat) (t : Tid) (o : ObjId) (entry : Nat) (timeout : Int)
    (s : System) : Option System :=
  if entry = 0 then
    let s := s.setError t rtEok
    if timeout = 0 then some ((s.setError t (-rtEtimeout)).returns (-rtEtimeout))
    else s.block cfg c t o .mqRecv timeout
  else some ((s.setObject o (.messageQueue (dec16 entry))).returns rtEok)

def rtMqRecv (cfg : Config) (c : Nat) (t : Tid) (o : ObjId) (entry : Nat) (timeout : Int)
    (s : System) : Option System :=
  if entry = 0 ∧ timeout = 0 then some (s.returns (-rtEtimeout))
  else s.mqRecvLoop cfg c t o entry timeout

/-- `rt_mq_control` with `RT_IPC_CMD_RESET`. -/
def rtMqReset (cfg : Config) (c : Nat) (o : ObjId) (s : System) : Option System :=
  (s.listResumeAll cfg c o .receiver).map fun s =>
    (s.setObject o (.messageQueue 0)).returns rtEok

def resumeCall (cfg : Config) (c : Nat) (t : Tid) (wait : Wait) (s : System) : Option System :=
  let s := s.finish t
  if s.error t ≠ rtEok then some (s.returns (s.error t))
  else
    let timeout := mqRemaining wait.timeout wait.tickDelta s.tick
    match wait.request, s.object wait.obj with
    | .semTake, _ => some (s.returns rtEok)
    | .mutexTake, _ => some (s.returns rtEok)
    | .eventRecv, _ => some { s with result := some ⟨rtEok, some (s.eventSet t).toNat⟩ }
    | .mbSend value, .mailbox mb => s.mbSendLoop cfg c t wait.obj mb value timeout
    | .mbRecv, .mailbox mb => s.mbRecvLoop cfg c t wait.obj mb timeout
    | .mqRecv, .messageQueue entry => s.mqRecvLoop cfg c t wait.obj entry timeout
    | _, _ => none

end System

inductive Call
  | semTake (time : Int)
  | semRelease
  | semReset (value : Nat)
  | mutexTake (time : Int)
  | mutexRelease
  | eventSend (set : BitVec 32)
  | eventRecv (set : BitVec 32) (option : BitVec 8) (timeout : Int)
  | eventReset
  | mbSend (value : Nat)
  | mbSendWait (value : Nat) (timeout : Int)
  | mbRecv (timeout : Int)
  | mbReset
  | mqLink
  | mqRecv (timeout : Int)
  | mqReset
  deriving DecidableEq

inductive BlockOp
  | schedule (c : Nat)
  | doIrqSwitch (c : Nat)
  | ipiHandler (c : Nat)
  | interruptEnter (c : Nat)
  | interruptLeave (c : Nat)
  | call (c : Nat) (o : ObjId) (call : Call)
  | proceed (c : Nat)
  | timeout (c : Nat) (t : Tid)
  | changePriority (c : Nat) (t : Tid) (priority : Nat)
  | tick (c : Nat)
  deriving DecidableEq

def BlockOp.cpu : BlockOp → Nat
  | .schedule c | .doIrqSwitch c | .ipiHandler c | .interruptEnter c | .interruptLeave c
  | .call c _ _ | .proceed c | .timeout c _ | .changePriority c _ _ | .tick c => c

namespace System

def call (cfg : Config) (c : Nat) (t : Tid) (o : ObjId) (call : Call) (s : System) :
    Option System :=
  match s.object o, call with
  | .semaphore value, .semTake time => s.rtSemTake cfg c t o value time
  | .semaphore value, .semRelease => some (s.rtSemRelease cfg c o value)
  | .semaphore _, .semReset value => s.rtSemReset cfg c o value
  | .mutex mutex, .mutexTake time => s.rtMutexTake cfg c t o mutex time
  | .mutex mutex, .mutexRelease => s.rtMutexRelease cfg c t o mutex
  | .event old, .eventSend set => some (s.rtEventSend cfg c o old set)
  | .event current, .eventRecv set option timeout =>
    s.rtEventRecv cfg c t o current set option timeout
  | .event _, .eventReset => s.rtEventReset cfg c o
  | .mailbox mb, .mbSend value => s.rtMbSend cfg c t o mb value
  | .mailbox mb, .mbSendWait value timeout => s.rtMbSendWait cfg c t o mb value timeout
  | .mailbox mb, .mbRecv timeout => s.rtMbRecv cfg c t o mb timeout
  | .mailbox mb, .mbReset => s.rtMbReset cfg c o mb
  | .messageQueue entry, .mqLink => some (s.mqLink cfg c o entry)
  | .messageQueue entry, .mqRecv timeout => s.rtMqRecv cfg c t o entry timeout
  | .messageQueue _, .mqReset => s.rtMqReset cfg c o
  | _, _ => none

/-- The current thread of the CPU goes on with its call.  `rt_schedule` returns to a
suspended thread only once it is READY again. -/
def proceed (cfg : Config) (c : Nat) (s : System) : Option System :=
  match (s.kernel.cpu c).currentThread with
  | none => none
  | some t =>
    match s.wait t with
    | none => none
    | some wait => if s.stat t = .ready then s.resumeCall cfg c t wait else none

def exec (cfg : Config) (s : System) (op : BlockOp) : Option System :=
  if op.cpu < cfg.cpusNr then
    match op with
    | .schedule c => ((rtSchedule cfg c s.kernel).bind (·.landed c)).map s.withKernel
    | .doIrqSwitch c =>
      ((rtSchedulerDoIrqSwitch cfg c s.kernel).bind (·.landed c)).map s.withKernel
    | .ipiHandler c =>
      ((rtSchedulerIpiHandler cfg c s.kernel).bind (·.landed c)).map s.withKernel
    | .interruptEnter c => some (s.withKernel (rtInterruptEnter c s.kernel))
    | .interruptLeave c => some (s.withKernel (rtInterruptLeave c s.kernel))
    | .call c o call =>
      (s.kernel.cpu c).currentThread.bind fun t => s.call cfg c t o call
    | .proceed c => s.proceed cfg c
    | .timeout c t => s.timeout cfg c t
    | .changePriority c t priority =>
      -- `priority_table` has no entry for any other priority
      if priority < cfg.priorityMax then
        some { s.changePriority cfg c t priority with result := none }
      else none
    | .tick _ => some { s with tick := (s.tick + 1) % 2 ^ 32, result := none }
  else none

/-- Objects that nobody uses, as the initialisations leave them, and threads none of
which waits. -/
structure Initial (cfg : Config) (s : System) : Prop where
  live : Live cfg s.kernel
  awake : ∀ t, s.stat t ≠ .suspend ∧ s.timerActive t = false ∧ s.wait t = none
  lists : ∀ o side, s.list o side = [] ∧ s.granted o side = []
  mutex : ∀ o mutex, s.object o = .mutex mutex →
    mutex = { value := 1, originalPriority := 0xff, hold := 0, owner := none }
  mailbox : ∀ o mb, s.object o = .mailbox mb →
    mb.size ≤ 65535 ∧ mb.entry = 0 ∧ mb.inOffset = 0 ∧ mb.outOffset = 0 ∧
      mb.sent = [] ∧ mb.received = []

end System

def blockMachine (cfg : Config) : Machine System BlockOp where
  init := System.Initial cfg
  exec := System.exec cfg

/-- Two CPUs with idle threads 0 and 1, of which CPU 1 runs thread 2 instead, and one
object of each class. -/
def blockStart : System where
  kernel := busyKernel
  flag := fun _ => .prio
  object := fun o =>
    match o with
    | 0 => .semaphore 0
    | 1 => .mutex { value := 1, originalPriority := 0xff, hold := 0, owner := none }
    | 2 => .event 0
    | 3 => .mailbox
        { size := 1, entry := 0, inOffset := 0, outOffset := 0, msgPool := fun _ => 0,
          sent := [], received := [] }
    | _ => .messageQueue 0
  list := fun _ _ => []
  wait := fun _ => none
  eventSet := fun _ => 0
  eventInfo := fun _ => 0
  tick := 0
  result := none
  wakers := fun _ => []
  granted := fun _ _ => []
  arrival := fun _ => 0
  arrivals := 0

theorem blockStart_initial : blockStart.Initial (Config.flat 2) := by
  refine ⟨busyKernel_live, fun t => ⟨?_, ?_, rfl⟩, fun _ _ => ⟨rfl, rfl⟩,
    fun o mutex hmutex => ?_, fun o mb hmailbox => ?_⟩
  · simp only [blockStart, System.stat, busyKernel]
    split <;> simp
  · simp only [blockStart, System.timerActive, busyKernel, Thread.setPriority]
    split <;> rfl
  · simp only [blockStart] at hmutex
    split at hmutex <;> cases hmutex
    rfl
  · simp only [blockStart] at hmailbox
    split at hmailbox <;> cases hmailbox
    exact ⟨by decide, rfl, rfl, rfl, rfl, rfl⟩

end RtThread.Blocking
