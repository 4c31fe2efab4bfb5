import RtThread.Blocking.State

namespace RtThread.Blocking

open Function RtThread.Lib RtThread.Ipc

structure View where
  stat : ThreadStat
  error : Int
  timerActive : Bool
  priority : Nat
  deriving DecidableEq

structure Core where
  view : Tid → View
  flag : ObjId → IpcFlag
  object : ObjId → IpcObject
  list : ObjId → Side → List Tid
  wait : Tid → Option Wait
  eventSet : Tid → BitVec 32
  eventInfo : Tid → BitVec 8
  wakers : Tid → List Waker
  granted : ObjId → Side → List Tid
  arrival : Tid → Nat
  arrivals : Nat

def threadView (thread : Thread) : View where
  stat := thread.stat
  error := thread.error
  timerActive := thread.timerActive
  priority := thread.currentPriority

def System.core (s : System) : Core where
  view := fun t => threadView (s.kernel.thread t)
  flag := s.flag
  object := s.object
  list := s.list
  wait := s.wait
  eventSet := s.eventSet
  eventInfo := s.eventInfo
  wakers := s.wakers
  granted := s.granted
  arrival := s.arrival
  arrivals := s.arrivals

inductive Effect
  /-- A running thread sets its error code. -/
  | error (t : Tid) (code : Int)
  /-- It notes which events it wants. -/
  | request (t : Tid) (set : BitVec 32) (option : BitVec 8)
  | object (o : ObjId) (object : IpcObject)
  | block (t : Tid) (o : ObjId) (request : Request) (timeout : Int) (tick : Nat)
  /-- A release or a send resumes the thread. -/
  | grant (o : ObjId) (side : Side) (t : Tid) (received : BitVec 32)
  /-- A reset resumes it. -/
  | refuse (o : ObjId) (side : Side) (t : Tid)
  | expire (t : Tid)
  | priority (t : Tid) (priority : Nat)
  | finish (t : Tid)

namespace Core

def setView (x : Core) (t : Tid) (view : View) : Core :=
  { x with view := update x.view t view }

def setError (x : Core) (t : Tid) (code : Int) : Core :=
  x.setView t { x.view t with error := code }

def wake (x : Core) (t : Tid) (waker : Waker) : Core :=
  { x.setView t { x.view t with stat := .ready, timerActive := false } with
    list := fun o side => listRemove t (x.list o side)
    wakers := update x.wakers t (x.wakers t ++ [waker]) }

def block (x : Core) (t : Tid) (o : ObjId) (request : Request) (timeout : Int)
    (tick : Nat) : Core :=
  let list := listSuspend (x.flag o) (fun u => (x.view u).priority) t
    (x.list o request.side)
  { x.setView t { x.view t with stat := .suspend, timerActive := decide (0 < timeout) } with
    list := update x.list o (update (x.list o) request.side list)
    wait := update x.wait t (some ⟨o, request, timeout, tick⟩)
    wakers := update x.wakers t []
    arrival := update x.arrival t x.arrivals
    arrivals := x.arrivals + 1 }

def grant (x : Core) (o : ObjId) (side : Side) (t : Tid) (received : BitVec 32) : Core :=
  let granted := update (x.granted o) side (t :: x.granted o side)
  { x.wake t .grant with
    eventSet := update x.eventSet t received
    granted := update x.granted o granted }

def finish (x : Core) (t : Tid) : Core :=
  { x with
    wait := update x.wait t none
    granted := fun o side => listRemove t (x.granted o side) }

def apply (x : Core) : Effect → Core
  | .error t code => x.setError t code
  | .request t set option =>
    { x with
      eventSet := update x.eventSet t set
      eventInfo := update x.eventInfo t option }
  | .object o object => { x with object := update x.object o object }
  | .block t o request timeout tick => x.block t o request timeout tick
  | .grant o side t received => x.grant o side t received
  | .refuse _ _ t => (x.setError t (-rtError)).wake t .reset
  | .expire t => (x.setError t (-rtEtimeout)).wake t .expiry
  | .priority t priority => x.setView t { x.view t with priority := priority }
  | .finish t => x.finish t

def Idle (x : Core) (t : Tid) : Prop := (x.view t).stat = .ready ∧ x.wait t = none

instance (x : Core) (t : Tid) : Decidable (x.Idle t) := inferInstanceAs (Decidable (_ ∧ _))

def Enabled (x : Core) : Effect → Prop
  | .error t _ => x.Idle t
  | .request t _ _ => x.Idle t
  | .object o object => object.kind = (x.object o).kind
  | .block t o request _ _ =>
    x.Idle t ∧ (x.view t).error = rtEok ∧ request.kind = (x.object o).kind
  | .grant o side t _ => t ∈ x.list o side
  | .refuse o side t => t ∈ x.list o side
  | .expire t => (x.view t).stat = .suspend ∧ (x.view t).timerActive = true
  | .priority _ _ => True
  | .finish t => (x.view t).stat = .ready ∧ x.wait t ≠ none

instance (x : Core) : (e : Effect) → Decidable (x.Enabled e)
  | .error t _ => inferInstanceAs (Decidable (x.Idle t))
  | .request t _ _ => inferInstanceAs (Decidable (x.Idle t))
  | .object o object => inferInstanceAs (Decidable (object.kind = (x.object o).kind))
  | .block t o request _ _ => inferInstanceAs
      (Decidable (x.Idle t ∧ (x.view t).error = rtEok ∧ request.kind = (x.object o).kind))
  | .grant o side t _ => inferInstanceAs (Decidable (t ∈ x.list o side))
  | .refuse o side t => inferInstanceAs (Decidable (t ∈ x.list o side))
  | .expire t => inferInstanceAs
      (Decidable ((x.view t).stat = .suspend ∧ (x.view t).timerActive = true))
  | .priority _ _ => .isTrue trivial
  | .finish t => inferInstanceAs (Decidable ((x.view t).stat = .ready ∧ x.wait t ≠ none))

structure Initial (x : Core) : Prop where
  awake : ∀ t, (x.view t).stat ≠ .suspend ∧ (x.view t).timerActive = false ∧ x.wait t = none
  lists : ∀ o side, x.list o side = [] ∧ x.granted o side = []

end Core

def coreMachine : Machine Core Effect where
  init := Core.Initial
  exec := fun x e => if x.Enabled e then some (x.apply e) else none

theorem coreMachine_exec {x x' : Core} {e : Effect} (hexec : coreMachine.exec x e = some x') :
    x.Enabled e ∧ x' = x.apply e := by
  simp only [coreMachine] at hexec
  split at hexec
  next henabled =>
    cases hexec
    exact ⟨henabled, rfl⟩
  · cases hexec

end RtThread.Blocking
