import RtThread.Kernel.Align
import RtThread.Kernel.Thread
import RtThread.Lib.SkipList
import RtThread.Lib.Transition

namespace RtThread.Clock

open Function RtThread.Lib

/-! The timers of `timer.c` on their two skip lists. -/

abbrev TimerId := Nat

abbrev rtTickMax : Nat := 0xffffffff

structure TimerConfig where
  /-- `RT_TIMER_SKIP_LIST_LEVEL` -/
  level : Nat
  /-- `RT_TIMER_SKIP_LIST_MASK` -/
  mask : Nat
  /-- `RT_USING_TIMER_SOFT` -/
  timerSoft : Bool
  level_pos : 0 < level

structure Timer where
  /-- The object type is `RT_Object_Class_Timer`. -/
  isTimer : Bool
  /-- `RT_TIMER_FLAG_ACTIVATED` -/
  activated : Bool
  /-- `RT_TIMER_FLAG_SOFT_TIMER` -/
  softTimer : Bool
  timeoutTick : Nat
  initTick : Nat
  deriving DecidableEq

inductive TimerList
  | rtTimerList
  | rtSoftTimerList
  deriving DecidableEq

/-- The rows of a list are given by the timers they link, the row of index 0 first.

History: `pending` are the timers started and since then neither stopped nor detached,
`starts` counts the calls of `rt_timer_start`, `order` has the last one of each timer. -/
structure TimerSystem where
  timer : TimerId → Timer
  rows : TimerList → List (List TimerId)
  tick : Nat
  randomNr : Nat
  result : Option Int
  pending : List TimerId
  starts : Nat
  order : TimerId → Nat

def TimerSystem.setTimer (s : TimerSystem) (t : TimerId) (timer : Timer) : TimerSystem :=
  { s with timer := update s.timer t timer }

def rtTimerRemove (t : TimerId) (s : TimerSystem) : TimerSystem :=
  { s with rows := fun list => SkipList.removeRows t (s.rows list) }

def rtTimerInit (t : TimerId) (time : Nat) (softTimer : Bool) (s : TimerSystem) : TimerSystem :=
  { s.setTimer t
      { isTimer := true
        activated := false
        softTimer := softTimer
        timeoutTick := 0
        initTick := time } with
    result := none }

/-- Whether the search of `rt_timer_start` passes a timer with deadline `timeout`. -/
def passes (newTimeout timeout : Nat) : Bool :=
  if sub32 timeout newTimeout = 0 then true
  else if sub32 timeout newTimeout < rtTickMax / 2 then false
  else true

/-- In how many of `rows` rows above the last one the timer is linked. -/
def extraRows (mask : Nat) : (rows tstNr : Nat) → Nat
  | 0, _ => 0
  | rows + 1, tstNr =>
    if tstNr &&& mask = 0 then extraRows mask rows (tstNr >>> ((mask + 1) >>> 1)) + 1
    else 0

def timerListOf (cfg : TimerConfig) (timer : Timer) : TimerList :=
  if cfg.timerSoft && timer.softTimer then .rtSoftTimerList else .rtTimerList

def rowHead (cfg : TimerConfig) (t : TimerId) (s : TimerSystem) : Option (List (Option TimerId)) :=
  SkipList.rowHeads (fun u => passes (s.timer t).timeoutTick (s.timer u).timeoutTick) none
    (s.rows (timerListOf cfg (s.timer t)))

def insertTimer (cfg : TimerConfig) (t : TimerId) (s : TimerSystem) : Option TimerSystem := do
  let rowHead ← rowHead cfg t s
  let randomNr := add32 s.randomNr 1
  let timerList := timerListOf cfg (s.timer t)
  return {
    timer := update s.timer t { s.timer t with activated := true }
    rows := update s.rows timerList
      (SkipList.insertRows t (1 + extraRows cfg.mask (cfg.level - 1) randomNr) rowHead
        (s.rows timerList))
    tick := s.tick
    randomNr := randomNr
    result := some rtEok
    pending := t :: s.pending.filter (· ≠ t)
    starts := s.starts + 1
    order := update s.order t s.starts }

/-- `rt_timer_start`; undefined where an assertion fails. -/
def rtTimerStart (cfg : TimerConfig) (t : TimerId) (s : TimerSystem) : Option TimerSystem :=
  if (s.timer t).isTimer then
    let s := (rtTimerRemove t s).setTimer t { s.timer t with activated := false }
    if (s.timer t).initTick < rtTickMax / 2 then
      insertTimer cfg t
        (s.setTimer t { s.timer t with timeoutTick := add32 s.tick (s.timer t).initTick })
    else none
  else none

def rtTimerStop (t : TimerId) (s : TimerSystem) : Option TimerSystem :=
  if (s.timer t).isTimer then
    if (s.timer t).activated then
      some { (rtTimerRemove t s).setTimer t { s.timer t with activated := false } with
        result := some rtEok
        pending := s.pending.filter (· ≠ t) }
    else some { s with result := some (-rtError) }
  else none

/-- `rt_timer_detach`; `rt_object_detach` resets the object type. -/
def rtTimerDetach (t : TimerId) (s : TimerSystem) : Option TimerSystem :=
  if (s.timer t).isTimer then
    some { (rtTimerRemove t s).setTimer t { s.timer t with isTimer := false } with
      result := some rtEok
      pending := s.pending.filter (· ≠ t) }
  else none

inductive TimerOp
  | init (t : TimerId) (time : Nat) (softTimer : Bool)
  | start (t : TimerId)
  | stop (t : TimerId)
  | detach (t : TimerId)
  | tick
  deriving DecidableEq

def TimerSystem.exec (cfg : TimerConfig) (s : TimerSystem) : TimerOp → Option TimerSystem
  | .init t time softTimer =>
    -- only memory that is not a timer may be made one
    if (s.timer t).isTimer then none else some (rtTimerInit t time softTimer s)
  | .start t => rtTimerStart cfg t s
  | .stop t => rtTimerStop t s
  | .detach t => rtTimerDetach t s
  | .tick => some { s with tick := add32 s.tick 1, result := none }

/-- After `rt_system_timer_init` and `rt_system_timer_thread_init`, with any timers
none of which has been started. -/
def TimerSystem.Initial (cfg : TimerConfig) (s : TimerSystem) : Prop :=
  (∀ list, s.rows list = List.replicate cfg.level []) ∧
    (∀ t, (s.timer t).activated = false) ∧ s.pending = [] ∧ s.starts = 0 ∧
    s.tick < 2 ^ 32

def timerMachine (cfg : TimerConfig) : Machine TimerSystem TimerOp where
  init := TimerSystem.Initial cfg
  exec := TimerSystem.exec cfg

end RtThread.Clock
