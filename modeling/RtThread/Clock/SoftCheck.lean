import Mathlib.Data.Finset.Card
import RtThread.Clock.SoftTimer

namespace RtThread.Clock

open Function RtThread.Lib

/-! `rt_soft_timer_check` with callbacks that start, stop and detach soft timers.  The scheduler is
unlocked while a callback runs, so other threads may do the same meanwhile; `rt_timer_start` is
three sections there, between which others run. -/

/-- How far a call of `rt_timer_start` has come with a timer. -/
inductive Starting
  | no
  /-- The timer is removed from the list. -/
  | removed
  /-- Its `timeout_tick` is set. -/
  | timed
  deriving DecidableEq

inductive SoftPhase
  | idle
  /-- At the test of the loop, with `current_tick` and `n`; `none` is the list head. -/
  | loop (currentTick : Nat) (n : Option TimerId)
  /-- In `timeout_func` of a timer. -/
  | callback (t : TimerId) (n : Option TimerId)
  /-- In the `rt_timer_start` of a periodic timer. -/
  | restart (currentTick : Nat) (t : TimerId) (n : Option TimerId)
  deriving DecidableEq

def SoftPhase.saved : SoftPhase → Option (Option TimerId)
  | .idle => none
  | .loop _ n => some n
  | .callback _ n => some n
  | .restart _ _ n => some n

def SoftPhase.running : SoftPhase → Option TimerId
  | .callback t _ => some t
  | .restart _ t _ => some t
  | _ => none

def SoftPhase.test : SoftPhase → Option (Nat × Option TimerId)
  | .loop currentTick n => some (currentTick, n)
  | _ => none

def SoftPhase.unlocked : SoftPhase → Bool
  | .idle => true
  | .callback .. => true
  | _ => false

/-- History: `time` and `due` are the ticks and the deadlines without wrap-around, `readAt` is the
time of `current_tick`.  Of the last check: `expired` are the timers it had to call, `touched` those
removed, stopped or detached by others meanwhile, `calls` those it has called, each with what had
happened last to it, and `moved` says whether others have removed the timer saved as `n`. -/
structure SoftCheckSystem where
  sys : TimerSystem
  /-- `RT_TIMER_FLAG_PERIODIC` -/
  periodic : TimerId → Bool
  starting : TimerId → Starting
  phase : SoftPhase
  last : TimerId → LastEvent
  time : Nat
  due : TimerId → Nat
  readAt : Nat
  expired : List TimerId
  touched : List TimerId
  calls : List (TimerId × LastEvent)
  moved : Bool

inductive SoftCheckOp
  | init (t : TimerId) (time : Nat) (periodic : Bool)
  | startRemove (t : TimerId)
  | startDeadline (t : TimerId)
  | startInsert (t : TimerId)
  | stop (t : TimerId)
  | detach (t : TimerId)
  | tick
  /-- `rt_soft_timer_check` up to its loop -/
  | check
  /-- the test of the loop, and the call of `timeout_func` if the timer is due -/
  | due
  /-- from the return of `timeout_func` to the call of `rt_timer_start` -/
  | callbackReturn
  | restarted
  deriving DecidableEq

namespace SoftCheckSystem

def softList (s : SoftCheckSystem) : List TimerId := s.sys.linked .rtSoftTimerList

def called (s : SoftCheckSystem) : List TimerId := s.calls.map Prod.fst

def setLast (s : SoftCheckSystem) (t : TimerId) (event : LastEvent) : SoftCheckSystem :=
  { s with last := update s.last t event }

/-- History: others take a timer off the list. -/
def touch (s : SoftCheckSystem) (t : TimerId) : SoftCheckSystem :=
  { s with
    touched := t :: s.touched
    moved := s.moved || decide (s.phase.saved = some (some t)) }

def Expired (s : SoftCheckSystem) (currentTick : Nat) (t : TimerId) : Prop :=
  sub32 currentTick (s.sys.timer t).timeoutTick < rtTickMax / 2

instance (s : SoftCheckSystem) (currentTick : Nat) (t : TimerId) :
    Decidable (s.Expired currentTick t) :=
  inferInstanceAs (Decidable (_ < _))

def startRemove (t : TimerId) (s : SoftCheckSystem) : SoftCheckSystem :=
  { s with
    sys := (rtTimerRemove t s.sys).setActivated t false
    starting := update s.starting t .removed }

def startDeadline (t : TimerId) (s : SoftCheckSystem) : Option SoftCheckSystem :=
  if s.starting t = .removed ∧ (s.sys.timer t).initTick < rtTickMax / 2 then
    some { s with
      sys := s.sys.setTimer t
        { s.sys.timer t with timeoutTick := add32 s.sys.tick (s.sys.timer t).initTick }
      due := update s.due t (s.time + (s.sys.timer t).initTick)
      starting := update s.starting t .timed }
  else none

def startInsert (cfg : TimerConfig) (t : TimerId) (s : SoftCheckSystem) : Option SoftCheckSystem :=
  if s.starting t = .timed then
    (insertTimer cfg t s.sys).map fun sys =>
      { s.setLast t .started with
        sys := sys
        starting := update s.starting t .no }
  else none

def stop (t : TimerId) (s : SoftCheckSystem) : Option SoftCheckSystem :=
  (rtTimerStop t s.sys).map fun sys =>
    if (s.sys.timer t).activated then { (s.touch t).setLast t .stopped with sys := sys }
    else { s with sys := sys }

def detach (t : TimerId) (s : SoftCheckSystem) : Option SoftCheckSystem :=
  (rtTimerDetach t s.sys).map fun sys =>
    { (s.touch t).setLast t .detached with sys := sys }

def check (s : SoftCheckSystem) : Option SoftCheckSystem :=
  match s.phase with
  | .idle =>
    some { s with
      phase := .loop s.sys.tick s.softList.head?
      readAt := s.time
      expired := s.softList.filter fun t => decide (s.Expired s.sys.tick t)
      touched := []
      calls := []
      moved := false }
  | _ => none

def checkDue (s : SoftCheckSystem) : Option SoftCheckSystem :=
  match s.phase with
  | .loop currentTick n =>
    match n with
    | none => some { s with phase := .idle }
    | some t =>
      if s.Expired currentTick t then
        some { s.setLast t .expired with
          sys := s.sys.unlinkExpired t
          phase := .callback t (s.sys.nextLinked .rtSoftTimerList t)
          calls := s.calls ++ [(t, s.last t)]
          moved := false }
      else some { s with phase := .idle }
  | _ => none

/-- The loop body from the return of `timeout_func` to the call of `rt_timer_start` -/
def callbackReturn (s : SoftCheckSystem) : Option SoftCheckSystem :=
  match s.phase with
  | .callback t n =>
    if s.periodic t && (s.sys.timer t).activated then
      some { s with
        sys := s.sys.setActivated t false
        phase := .restart s.sys.tick t n
        readAt := s.time }
    else
      some { s with
        sys := s.sys.setActivated t false
        phase := .loop s.sys.tick n
        readAt := s.time }
  | _ => none

/-- `rt_timer_start` of a periodic timer; undefined where its assertion fails. -/
def restarted (cfg : TimerConfig) (s : SoftCheckSystem) : Option SoftCheckSystem :=
  match s.phase with
  | .restart currentTick t n =>
    if (s.sys.timer t).isTimer then do
      let s ← (s.startRemove t).startDeadline t
      let s ← s.startInsert cfg t
      return { s with phase := .loop currentTick n }
    else none
  | _ => none

/-- That nobody detaches a timer or starts it again while it is being started is up to the
callers; `timers` are the timers that there are. -/
def exec (cfg : TimerConfig) (timers : Finset TimerId) (s : SoftCheckSystem) :
    SoftCheckOp → Option SoftCheckSystem
  | .init t time periodic =>
    if s.phase.unlocked = true ∧ (s.sys.timer t).isTimer = false ∧ t ∈ timers then
      some { s.setLast t .created with
        sys := rtTimerInit t time true s.sys
        periodic := update s.periodic t periodic }
    else none
  | .startRemove t =>
    if s.phase.unlocked = true ∧ (s.sys.timer t).isTimer = true ∧
        (s.sys.timer t).softTimer = true ∧ t ∈ timers ∧ s.starting t = .no then
      some ((s.touch t).startRemove t)
    else none
  | .startDeadline t => if s.phase.unlocked = true then s.startDeadline t else none
  | .startInsert t => if s.phase.unlocked = true then s.startInsert cfg t else none
  | .stop t =>
    if s.phase.unlocked = true ∧ (s.sys.timer t).softTimer = true then s.stop t else none
  | .detach t =>
    if s.phase.unlocked = true ∧ (s.sys.timer t).softTimer = true ∧ s.starting t = .no then
      s.detach t
    else none
  | .tick =>
    some { s with
      sys := { s.sys with tick := add32 s.sys.tick 1, result := none }
      time := s.time + 1 }
  | .check => s.check
  | .due => s.checkDue
  | .callbackReturn => s.callbackReturn
  | .restarted => s.restarted cfg

structure Initial (cfg : TimerConfig) (timers : Finset TimerId) (s : SoftCheckSystem) : Prop where
  soft : cfg.timerSoft = true
  nested : ∀ list, SkipList.Nested (s.sys.rows list)
  length : ∀ list, (s.sys.rows list).length = cfg.level
  home : ∀ list, ∀ t ∈ s.sys.linked list,
    timerListOf cfg (s.sys.timer t) = list ∧ (s.sys.timer t).isTimer = true
  sorted : s.softList.Pairwise fun t u => s.due t ≤ s.due u
  dated : ∀ t ∈ s.softList, (s.sys.timer t).timeoutTick = s.due t % 2 ^ 32 ∧
    s.due t < s.time + rtTickMax / 2
  member : ∀ t ∈ s.softList, t ∈ timers ∧ s.last t = .started
  period : ∀ t, (s.sys.timer t).activated = true → (s.sys.timer t).initTick < rtTickMax / 2
  tick : s.sys.tick = s.time % 2 ^ 32
  starting : ∀ t, s.starting t = .no
  phase : s.phase = .idle
  fresh : s.expired = [] ∧ s.calls = [] ∧ s.readAt ≤ s.time

/-- What every check does: it calls no timer stopped or detached before its turn, none twice, so no
more of them than there are timers, it can always go on, and at its end it has called each timer
that it had to call and that was not taken off the list before. -/
structure ChecksOk (cfg : TimerConfig) (timers : Finset TimerId) (s : SoftCheckSystem) : Prop where
  live : ∀ call ∈ s.calls, call.2 = .started
  once : s.called.Nodup
  bounded : s.calls.length ≤ timers.card
  goesOn : s.phase ≠ .idle → (s.checkDue.isSome ∨ s.callbackReturn.isSome ∨ (s.restarted cfg).isSome)
  complete : s.phase = .idle → ∀ t ∈ s.expired, t ∉ s.touched → t ∈ s.called

end SoftCheckSystem

def softCheckMachine (cfg : TimerConfig) (timers : Finset TimerId) :
    Machine SoftCheckSystem SoftCheckOp where
  init := SoftCheckSystem.Initial cfg timers
  exec := SoftCheckSystem.exec cfg timers

end RtThread.Clock
