import Mathlib.Data.List.AList
import RtThread.Clock.TimerCheck

namespace RtThread.Clock

open Function RtThread.Lib

/-! The thread that serves the soft timers, `rt_thread_timer_entry`, with calls of
`rt_timer_start` and `rt_timer_stop` made on other CPUs and in interrupts.  A step
is a section under the lock or one access outside of it. -/

/-- What calls `rt_timer_start`: a thread or an interrupt. -/
abbrev Context := Nat

abbrev timerThread : Context := 0

abbrev threadTimer : TimerId := 0

inductive StartPhase
  /-- The timer is removed from the list. -/
  | removed
  /-- Its `timeout_tick` is set. -/
  | timed
  /-- It is inserted, and the thread's `stat` is to be tested. -/
  | inserted
  /-- `rt_thread_resume` is called, -/
  | waking
  /-- has found the thread suspended, -/
  | resuming
  /-- and has stopped its timer. -/
  | stopped
  deriving DecidableEq

structure StartCall where
  timer : TimerId
  phase : StartPhase
  deriving DecidableEq

inductive EntryPhase
  | top
  /-- `next_timeout` is read. -/
  | decided (nextTimeout : Nat)
  /-- It calls `rt_thread_delay`. -/
  | delay (tick : Nat)
  /-- It has suspended itself. -/
  | asleep
  /-- It calls `rt_soft_timer_check`. -/
  | awake
  /-- At the test of the loop, with `current_tick` and `n`; `none` is the list head. -/
  | check (currentTick : Nat) (n : Option TimerId)
  /-- In `timeout_func` of a timer. -/
  | callback (t : TimerId) (n : Option TimerId)
  /-- In the `rt_timer_start` of a periodic timer. -/
  | restart (currentTick : Nat) (n : Option TimerId)
  deriving DecidableEq

/-- `calls` are the calls of `rt_timer_start` under way by their callers, `linking` the caller
between the removal and the insertion of a timer.

History: `time` and `due` are the ticks and the deadlines without wrap-around, `seen` is the
deadline that the thread has read last, `readAt` the time of its last `rt_tick_get`. -/
structure SoftSystem where
  sys : TimerSystem
  /-- `RT_TIMER_FLAG_PERIODIC` -/
  periodic : TimerId → Bool
  /-- `timer_thread.stat` is `RT_THREAD_READY`, not `RT_THREAD_SUSPEND`. -/
  ready : Bool
  entry : EntryPhase
  calls : AList fun _ : Context => StartCall
  linking : TimerId → Option Context
  time : Nat
  due : TimerId → Nat
  seen : Nat
  readAt : Nat

inductive SoftOp
  | startBegin (c : Context) (t : TimerId)
  | startDeadline (c : Context)
  | startInsert (c : Context)
  | startTest (c : Context)
  | resumeTest (c : Context)
  | resumeStop (c : Context)
  | resumeInsert (c : Context)
  | stop (t : TimerId)
  | control (t : TimerId) (cmd : TimerControl)
  | tick
  /-- The timer of the thread expires in `rt_timer_check`. -/
  | timeout (currentTick : Nat)
  | readTimeout
  | readTick
  | suspend
  | delay
  | resumed
  | checkBegin
  | checkDue
  | callbackReturn
  | restarted
  deriving DecidableEq

def TimerSystem.unlinkExpired (s : TimerSystem) (t : TimerId) : TimerSystem :=
  { rtTimerRemove t s with pending := s.pending.filter (· ≠ t) }

/-- `row->next` in the last row; the node of a timer that is not linked points to itself. -/
def TimerSystem.nextLinked (s : TimerSystem) (list : TimerList) (t : TimerId) : Option TimerId :=
  if t ∈ s.linked list then ((s.linked list).dropWhile (· ≠ t)).tail.head? else some t

def EntryPhase.inCallback : EntryPhase → Bool
  | .callback .. => true
  | _ => false

namespace SoftSystem

def softList (s : SoftSystem) : List TimerId := s.sys.linked .rtSoftTimerList

def starts (s : SoftSystem) (c : Context) : Option StartCall := s.calls.lookup c

def setStart (s : SoftSystem) (c : Context) (start : Option StartCall) : SoftSystem :=
  { s with
    calls :=
      match start with
      | some call => s.calls.insert c call
      | none => s.calls.erase c }

def setSys (s : SoftSystem) (sys : TimerSystem) : SoftSystem := { s with sys := sys }

def setEntry (s : SoftSystem) (entry : EntryPhase) : SoftSystem := { s with entry := entry }

/-- The first section of `rt_timer_start`.  That no two callers link one timer at the
same time is up to them; its node would be linked twice. -/
def startCall (c : Context) (t : TimerId) (s : SoftSystem) : Option SoftSystem :=
  if s.starts c = none ∧ (s.sys.timer t).isTimer = true ∧ (s.sys.timer t).softTimer = true ∧
      s.linking t = none then
    some { (s.setSys ((rtTimerRemove t s.sys).setActivated t false)).setStart c
        (some ⟨t, .removed⟩) with
      linking := update s.linking t (some c) }
  else none

def startDeadline (c : Context) (s : SoftSystem) : Option SoftSystem :=
  match s.starts c with
  | some ⟨t, .removed⟩ =>
    if (s.sys.timer t).initTick < rtTickMax / 2 then
      some { (s.setSys (s.sys.setTimer t
          { s.sys.timer t with
            timeoutTick := add32 s.sys.tick (s.sys.timer t).initTick })).setStart c
            (some ⟨t, .timed⟩) with
        due := update s.due t (s.time + (s.sys.timer t).initTick) }
    else none
  | _ => none

def startInsert (cfg : TimerConfig) (c : Context) (s : SoftSystem) : Option SoftSystem :=
  match s.starts c with
  | some ⟨t, .timed⟩ =>
    (insertTimer cfg t s.sys).map fun sys =>
      { (s.setSys sys).setStart c (some ⟨t, .inserted⟩) with
        linking := update s.linking t none }
  | _ => none

def startTest (c : Context) (s : SoftSystem) : Option SoftSystem :=
  match s.starts c with
  | some ⟨t, .inserted⟩ =>
    some (s.setStart c (if s.ready then none else some ⟨t, .waking⟩))
  | _ => none

def resumeTest (c : Context) (s : SoftSystem) : Option SoftSystem :=
  match s.starts c with
  | some ⟨t, .waking⟩ =>
    some (s.setStart c (if s.ready then none else some ⟨t, .resuming⟩))
  | _ => none

def resumeStop (c : Context) (s : SoftSystem) : Option SoftSystem :=
  match s.starts c with
  | some ⟨t, .resuming⟩ =>
    (rtTimerStop threadTimer s.sys).map fun sys =>
      (s.setSys sys).setStart c (some ⟨t, .stopped⟩)
  | _ => none

def resumeInsert (c : Context) (s : SoftSystem) : Option SoftSystem :=
  match s.starts c with
  | some ⟨_, .stopped⟩ => some { s.setStart c none with ready := true }
  | _ => none

def rtTimerControl (t : TimerId) (cmd : TimerControl) (s : SoftSystem) : Option SoftSystem :=
  if (s.sys.timer t).isTimer then
    match cmd with
    | .setTime time => some (s.setSys (s.sys.setTimer t { s.sys.timer t with initTick := time }))
    | .setOneshot => some { s with periodic := update s.periodic t false }
    | .setPeriodic => some { s with periodic := update s.periodic t true }
  else none

/-- `rt_timer_check` finds the thread's timer due and calls `rt_thread_timeout`, which
asserts that the thread is suspended.  `current_tick` was read before the lock was taken. -/
def timeout (currentTick : Nat) (s : SoftSystem) : Option SoftSystem :=
  if threadTimer ∈ s.sys.linked .rtTimerList ∧
      sub32 currentTick (s.sys.timer threadTimer).timeoutTick < rtTickMax / 2 ∧
      s.ready = false then
    some { s.setSys ((s.sys.unlinkExpired threadTimer).setActivated threadTimer false) with
      ready := true }
  else none

def rtThreadSuspend (s : SoftSystem) : Option SoftSystem :=
  if s.ready then
    (rtTimerStop threadTimer s.sys).map fun sys => { s.setSys sys with ready := false }
  else some s

/-- `rt_thread_delay` up to `rt_schedule`: `rt_thread_sleep` holds the lock. -/
def rtThreadDelay (cfg : TimerConfig) (tick : Nat) (s : SoftSystem) : Option SoftSystem := do
  let s ← s.rtThreadSuspend
  let sys ← rtTimerStart cfg threadTimer
    (s.sys.setTimer threadTimer { s.sys.timer threadTimer with initTick := tick })
  return { s.setSys sys with due := update s.due threadTimer (s.time + tick) }

def readTimeout (s : SoftSystem) : Option SoftSystem :=
  match s.entry with
  | .top =>
    match s.softList with
    | [] => some (s.setEntry (.decided rtTickMax))
    | t :: _ =>
      some { s.setEntry (.decided (s.sys.timer t).timeoutTick) with seen := s.due t }
  | _ => none

def readTick (s : SoftSystem) : Option SoftSystem :=
  match s.entry with
  | .decided nextTimeout =>
    if nextTimeout = rtTickMax then none
    else
      some { s.setEntry
          (if sub32 nextTimeout s.sys.tick < rtTickMax / 2 then
            .delay (sub32 nextTimeout s.sys.tick)
          else .awake) with
        readAt := s.time }
  | _ => none

def suspend (s : SoftSystem) : Option SoftSystem :=
  match s.entry with
  | .decided nextTimeout =>
    if nextTimeout = rtTickMax then s.rtThreadSuspend.map (·.setEntry .asleep) else none
  | _ => none

def delay (cfg : TimerConfig) (s : SoftSystem) : Option SoftSystem :=
  match s.entry with
  | .delay tick => (s.rtThreadDelay cfg tick).map (·.setEntry .asleep)
  | _ => none

def checkDue (s : SoftSystem) : Option SoftSystem :=
  match s.entry with
  | .check currentTick n =>
    match n with
    | none => some (s.setEntry .top)
    | some t =>
      if sub32 currentTick (s.sys.timer t).timeoutTick < rtTickMax / 2 then
        some ((s.setSys (s.sys.unlinkExpired t)).setEntry
          (.callback t (s.sys.nextLinked .rtSoftTimerList t)))
      else some (s.setEntry .top)
  | _ => none

def callbackReturn (s : SoftSystem) : Option SoftSystem :=
  match s.entry with
  | .callback t n =>
    if s.starts timerThread = none then
      if s.periodic t && (s.sys.timer t).activated then
        (s.startCall timerThread t).map (·.setEntry (.restart s.sys.tick n))
      else
        some ((s.setSys (s.sys.setActivated t false)).setEntry (.check s.sys.tick n))
    else none
  | _ => none

def exec (cfg : TimerConfig) (s : SoftSystem) : SoftOp → Option SoftSystem
  | .startBegin c t =>
    -- the timer thread itself starts timers in its callbacks only
    if c = timerThread → s.entry.inCallback = true then s.startCall c t else none
  | .startDeadline c => s.startDeadline c
  | .startInsert c => s.startInsert cfg c
  | .startTest c => s.startTest c
  | .resumeTest c => s.resumeTest c
  | .resumeStop c => s.resumeStop c
  | .resumeInsert c => s.resumeInsert c
  | .stop t =>
    if (s.sys.timer t).softTimer = true then (rtTimerStop t s.sys).map s.setSys else none
  | .control t cmd =>
    if (s.sys.timer t).softTimer = true then s.rtTimerControl t cmd else none
  | .tick =>
    some { s.setSys { s.sys with tick := add32 s.sys.tick 1, result := none } with
      time := s.time + 1 }
  | .timeout currentTick => s.timeout currentTick
  | .readTimeout => s.readTimeout
  | .readTick => s.readTick
  | .suspend => s.suspend
  | .delay => s.delay cfg
  | .resumed =>
    if s.entry = .asleep ∧ s.ready = true then some (s.setEntry .awake) else none
  | .checkBegin =>
    if s.entry = .awake then some (s.setEntry (.check s.sys.tick s.softList.head?)) else none
  | .checkDue => s.checkDue
  | .callbackReturn => s.callbackReturn
  | .restarted =>
    match s.entry with
    | .restart currentTick n =>
      if s.starts timerThread = none then some (s.setEntry (.check currentTick n)) else none
    | _ => none

/-- After `rt_system_timer_thread_init`, with any soft timers none of which has been
started. -/
def Initial (cfg : TimerConfig) (s : SoftSystem) : Prop :=
  TimerSystem.Initial cfg s.sys ∧ cfg.timerSoft = true ∧ s.ready = true ∧ s.entry = .top ∧
    s.calls = ∅ ∧ (∀ t, s.linking t = none) ∧
    (s.sys.timer threadTimer).softTimer = false ∧ s.sys.tick = s.time % 2 ^ 32

def Covers (s : SoftSystem) (t : TimerId) : Prop :=
  (s.sys.timer threadTimer).activated = true ∧
    threadTimer ∈ s.sys.linked .rtTimerList ∧ s.due threadTimer ≤ s.due t

/-- The purpose of the timer thread: while it is suspended, its own timer is active and
expires no later than any of the soft timers. -/
def NeverOversleeps (s : SoftSystem) : Prop :=
  s.ready = false → ∀ t ∈ s.softList, s.Covers t

end SoftSystem

def softMachine (cfg : TimerConfig) : Machine SoftSystem SoftOp where
  init := SoftSystem.Initial cfg
  exec := SoftSystem.exec cfg

end RtThread.Clock
