import RtThread.Clock.Timer

namespace RtThread.Clock

open Function RtThread.Lib

/-! `rt_timer_check` and the timeout callbacks of hard timers.  A callback is any
sequence of calls, made while the check that has called it is not over. -/

def TimerSystem.linked (s : TimerSystem) (list : TimerList) : List TimerId :=
  ((s.rows list).getLast?).getD []

inductive CheckPhase
  | idle
  /-- At the test of the loop, with its `current_tick`. -/
  | loop (currentTick : Nat)
  /-- In `timeout_func` of a timer. -/
  | callback (t : TimerId)
  deriving DecidableEq

inductive LastEvent
  | created
  | started
  | stopped
  | detached
  | expired
  deriving DecidableEq

structure CheckSystem where
  sys : TimerSystem
  /-- `RT_TIMER_FLAG_PERIODIC` -/
  periodic : TimerId → Bool
  phase : CheckPhase
  last : TimerId → LastEvent

inductive TimerControl
  | setTime (time : Nat)
  | setOneshot
  | setPeriodic
  deriving DecidableEq

inductive CheckOp
  | init (t : TimerId) (time : Nat) (softTimer periodic : Bool)
  | start (t : TimerId)
  | stop (t : TimerId)
  | detach (t : TimerId)
  | control (t : TimerId) (cmd : TimerControl)
  | tick
  /-- `rt_timer_check` up to its loop -/
  | check
  /-- the test of the loop, and the call of `timeout_func` if a timer is due -/
  | due
  /-- from the return of `timeout_func` to the end of the loop body -/
  | callbackReturn
  deriving DecidableEq

def TimerSystem.setActivated (s : TimerSystem) (t : TimerId) (activated : Bool) : TimerSystem :=
  s.setTimer t { s.timer t with activated := activated }

namespace CheckSystem

def setLast (s : CheckSystem) (t : TimerId) (event : LastEvent) : CheckSystem :=
  { s with last := update s.last t event }

/-- A call by a thread or by the running callback: while `rt_timer_check` is at its
own code it holds the lock. -/
def call (s : CheckSystem) (f : TimerSystem → Option TimerSystem) : Option CheckSystem :=
  match s.phase with
  | .loop _ => none
  | _ => (f s.sys).map fun sys => { s with sys := sys }

def rtTimerControl (t : TimerId) (cmd : TimerControl) (s : CheckSystem) : Option CheckSystem :=
  if (s.sys.timer t).isTimer then
    match cmd with
    | .setTime time =>
      s.call fun sys => some (sys.setTimer t { sys.timer t with initTick := time })
    | .setOneshot =>
      ({ s with periodic := update s.periodic t false }).call some
    | .setPeriodic =>
      ({ s with periodic := update s.periodic t true }).call some
  else none

def dueTimer (s : CheckSystem) (currentTick : Nat) : Option TimerId :=
  match s.sys.linked .rtTimerList with
  | [] => none
  | t :: _ =>
    if sub32 currentTick (s.sys.timer t).timeoutTick < rtTickMax / 2 then some t else none

/-- The loop of `rt_timer_check` up to the call of `timeout_func`.  The timer leaves
the list and keeps its flag. -/
def checkDue (s : CheckSystem) : Option CheckSystem :=
  match s.phase with
  | .loop currentTick =>
    match s.dueTimer currentTick with
    | none => some { s with phase := .idle }
    | some t =>
      some (({ s with
        sys := { rtTimerRemove t s.sys with pending := s.sys.pending.filter (· ≠ t) }
        phase := .callback t }).setLast t .expired)
  | _ => none

/-- The loop body from the return of `timeout_func` on. -/
def checkReturn (cfg : TimerConfig) (s : CheckSystem) : Option CheckSystem :=
  match s.phase with
  | .callback t =>
    if s.periodic t && (s.sys.timer t).activated then
      (rtTimerStart cfg t (s.sys.setActivated t false)).map fun sys =>
        { s with
          sys := sys
          phase := .loop s.sys.tick
          -- the next period of a timer that has not been touched
          last := update s.last t
            (if s.last t = .expired then .started else s.last t) }
    else
      some { s with
        sys := s.sys.setActivated t false
        phase := .loop s.sys.tick }
  | _ => none

def exec (cfg : TimerConfig) (s : CheckSystem) : CheckOp → Option CheckSystem
  | .init t time softTimer periodic =>
    if (s.sys.timer t).isTimer then none
    else
      ({ s with periodic := update s.periodic t periodic }.setLast t .created).call
        fun sys => some (rtTimerInit t time softTimer sys)
  | .start t => (s.setLast t .started).call (rtTimerStart cfg t)
  | .stop t => (s.setLast t .stopped).call (rtTimerStop t)
  | .detach t => (s.setLast t .detached).call (rtTimerDetach t)
  | .control t cmd => s.rtTimerControl t cmd
  | .tick => some { s with sys := { s.sys with tick := add32 s.sys.tick 1, result := none } }
  | .check =>
    match s.phase with
    | .idle => some { s with phase := .loop s.sys.tick }
    | _ => none
  | .due => s.checkDue
  | .callbackReturn => s.checkReturn cfg

def Initial (cfg : TimerConfig) (s : CheckSystem) : Prop :=
  TimerSystem.Initial cfg s.sys ∧ s.phase = .idle ∧ ∀ t, s.last t = .created

end CheckSystem

def checkMachine (cfg : TimerConfig) : Machine CheckSystem CheckOp where
  init := CheckSystem.Initial cfg
  exec := CheckSystem.exec cfg

end RtThread.Clock
