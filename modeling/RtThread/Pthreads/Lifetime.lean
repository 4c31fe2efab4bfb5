import RtThread.Pthreads.RwLock

namespace RtThread.Pthreads

open RtThread.Lib

/-! The life of one thread of `pthread.c`: its creation, its end, the one call of `pthread_join` or
`pthread_detach` that another thread makes for it, and `rt_thread_idle_excute` of `idle.c`.

A step is a section or what is done between two of them.  `rt_thread_init` and `rt_thread_startup`
always succeed, so the branches of `pthread_create` behind them are left out, as are the cleanup
handlers and the thread-local storage. -/

abbrev enomem : Int := 12

inductive Resource
  | data
  | tcb
  | stack
  | sem
  deriving DecidableEq

/-- `stackBase` says that the caller gives the stack. -/
structure PthreadAttr where
  stackBase : Bool
  detached : Bool
  deriving DecidableEq

/-- The sections of `rt_thread_detach`, with what is done in front of each. -/
inductive DetachStage
  | removeThread
  -- and `stat` becomes `RT_THREAD_CLOSE`
  | timerDetach
  | objectDetach
  | insertDefunct
  deriving DecidableEq

inductive ThreadPc
  | unborn
  | entry
  -- in front of `rt_thread_exit`
  | returned
  -- in `pthread_exit`, with the value set
  | exited
  -- the thread is joinable
  | releasing
  | detaching (stage : DetachStage)
  -- in front of the last `rt_schedule`
  | scheduling
  | stopped
  deriving DecidableEq

/-- Where the other thread is in `pthread_join` or `pthread_detach`. -/
inductive CallPc
  | outside
  | taking
  | blocked
  | taken
  -- the thread was not closed
  | opening
  -- the thread was closed
  | deletingSem
  | detaching (stage : DetachStage)
  | freeingStack
  | freeingTcb
  | freeingData
  | returned (result : Int)
  deriving DecidableEq

inductive IdlePc
  | outside
  | freeingStack
  | deleting
  deriving DecidableEq

/-- The private data, the control block and the semaphore, and where the three parties are.
`systemObject` stands for the type of the control block, 0 once it is detached, and `defunct` for
its place in `rt_thread_defunct`.

History: `created` is the result of `pthread_create`, `given` what the thread returned or passed to
`pthread_exit`.  `released` has the releases with whether the thread had stopped and was joined or
detached, `stray` what was used or released without being allocated. -/
structure Lifetime where
  attr : PthreadAttr
  created : Option Int
  allocated : Resource → Bool
  detached : Bool
  returnValue : Nat
  joinableSem : Bool
  closed : Bool
  systemObject : Bool
  cleanup : Bool
  stackAddr : Bool
  defunct : Bool
  value : Nat
  thread : ThreadPc
  call : CallPc
  joining : Bool
  valuePtr : Option Nat
  idle : IdlePc
  given : Option Nat
  released : List (Resource × Bool)
  stray : List Resource

def CallPc.closing : CallPc → Bool
  | .deletingSem | .detaching _ | .freeingStack | .freeingTcb | .freeingData => true
  | .returned result => result = 0
  | _ => false

namespace Lifetime

/-- The thread has stopped running, and was joined or is detached; or it was never started. -/
def isOver (s : Lifetime) : Bool :=
  match s.thread with
  | .unborn => true
  | .stopped => s.detached || s.call.closing
  | _ => false

def use (resources : List Resource) (next : Lifetime → Option Lifetime) (s : Lifetime) :
    Option Lifetime :=
  match resources.find? fun r => !s.allocated r with
  | some r => some { s with stray := r :: s.stray }
  | none => next s

def allocate (r : Resource) (s : Lifetime) : Lifetime :=
  { s with allocated := Function.update s.allocated r true }

def release (r : Resource) (s : Lifetime) : Lifetime :=
  if s.allocated r then
    { s with
      allocated := Function.update s.allocated r false
      released := (r, s.isOver) :: s.released }
  else { s with stray := r :: s.stray }

def ground (s : Lifetime) : List Resource :=
  if s.attr.stackBase then [.tcb] else [.tcb, .stack]

/-- `pthread_create`; `memory` says which allocations succeed. -/
def pthreadCreate (attr : PthreadAttr) (memory : Resource → Bool) (s : Lifetime) : Lifetime :=
  let s := { s with attr := attr }
  if !memory .data then { s with created := some enomem }
  else
    let s := s.allocate .data
    if !attr.stackBase && !memory .stack then { s.release .data with created := some enomem }
    else
      let s := if attr.stackBase then s else s.allocate .stack
      if !memory .tcb then
        let s := if attr.stackBase then s else s.release .stack
        { s.release .data with created := some enomem }
      else
        let s := s.allocate .tcb
        if !attr.detached && !memory .sem then
          -- the test of `stack_base` is the other way round, and the control block stays
          let s := if attr.stackBase then s.release .stack else s
          { s.release .data with created := some enomem }
        else
          let s := if attr.detached then s else s.allocate .sem
          { s with
            created := some 0
            detached := attr.detached
            joinableSem := !attr.detached
            closed := false
            systemObject := true
            cleanup := true
            stackAddr := true
            value := 0
            thread := .entry }

def semRelease (s : Lifetime) : Lifetime :=
  if s.call = .blocked then { s with call := .taken } else { s with value := inc16 s.value }

def withSem (next : Lifetime → Option Lifetime) (s : Lifetime) : Option Lifetime :=
  s.use [.data] fun s => if s.joinableSem then s.use [.sem] next else none

/-- One section of `rt_thread_detach`, and the next one.  It is undefined for a control block that
is no object of the system, and for a node that is linked. -/
def rtThreadDetach (s : Lifetime) : DetachStage → Option (Lifetime × Option DetachStage)
  | .removeThread =>
    if s.systemObject then some ({ s with defunct := false }, some .timerDetach) else none
  | .timerDetach => some ({ s with closed := true }, some .objectDetach)
  | .objectDetach => some ({ s with systemObject := false }, some .insertDefunct)
  | .insertDefunct =>
    if s.cleanup then
      if s.defunct then none else some ({ s with defunct := true }, none)
    else some (s, none)

def rtThreadExit (s : Lifetime) : Lifetime :=
  let s := { s with defunct := false, closed := true, thread := .scheduling }
  if s.systemObject && !s.cleanup then { s with systemObject := false }
  else { s with defunct := true }

/-- What the thread does after it has returned from its entry or called `pthread_exit`. -/
def threadStep (s : Lifetime) : Option Lifetime :=
  match s.thread with
  | .returned => s.use s.ground fun s => some s.rtThreadExit
  | .exited =>
    s.use (.data :: s.ground) fun s =>
      some { s with thread := if s.detached then .detaching .removeThread else .releasing }
  | .releasing =>
    s.use s.ground <| withSem fun s =>
      some { s.semRelease with thread := .detaching .removeThread }
  | .detaching stage =>
    s.use s.ground fun s => (s.rtThreadDetach stage).map fun (s, next) =>
      { s with
        thread :=
          match next with
          | some stage => .detaching stage
          | none => .scheduling }
  | _ => none

def switchOut (s : Lifetime) : Option Lifetime :=
  if s.closed ∧ s.thread ≠ .stopped then s.use s.ground fun s => some { s with thread := .stopped }
  else none

def callReturn (result : Int) (s : Lifetime) : Lifetime :=
  { s with call := .returned (if s.joining then 0 else result) }

/-- `pthread_detach` up to the point where it has read `stat`. -/
def pthreadDetach (s : Lifetime) : Option Lifetime :=
  s.use [.tcb, .data] fun s =>
    if s.detached then some (s.callReturn einval)
    else if s.closed then some { s with call := .deletingSem }
    else some { s with call := .opening }

def pthreadJoin (s : Lifetime) : Option Lifetime :=
  s.use [.tcb, .data] fun s =>
    if s.detached then some { s with call := .returned einval }
    else some { s with call := .taking, joining := true }

def callStep (s : Lifetime) : Option Lifetime :=
  match s.call with
  | .taking =>
    s.withSem fun s =>
      if 0 < s.value then some { s with value := dec16 s.value, call := .taken }
      else some { s with call := .blocked }
  | .taken =>
    s.use [.data] fun s => pthreadDetach { s with valuePtr := some s.returnValue }
  | .opening =>
    s.withSem fun s =>
      let s := release .sem { s with detached := true }
      some (callReturn 0 { s with joinableSem := false })
  | .deletingSem =>
    s.use [.data] fun s =>
      some { (if s.joinableSem then s.release .sem else s) with call := .detaching .removeThread }
  | .detaching stage =>
    s.use [.data, .tcb] fun s => (s.rtThreadDetach stage).map fun (s, next) =>
      { s with
        call :=
          match next with
          | some stage => .detaching stage
          | none => .freeingStack }
  | .freeingStack =>
    s.use [.data, .tcb] fun s =>
      if s.attr.stackBase then some { s with stackAddr := false, call := .freeingTcb }
      else some { (if s.stackAddr then s.release .stack else s) with call := .freeingTcb }
  | .freeingTcb => s.use [.data] fun s => some { s.release .tcb with call := .freeingData }
  | .freeingData => some ((s.release .data).callReturn 0)
  | _ => none

/-- `_pthread_cleanup`; `pthread_detach` of a detached thread returns `EINVAL`. -/
def pthreadCleanup (s : Lifetime) : Option Lifetime :=
  s.use [.tcb, .data] fun s =>
    let s := { s with cleanup := false }
    if s.detached then some s else s.withSem fun s => some s.semRelease

/-- `rt_thread_idle_excute`, with the scheduler locked up to the end of the cleanup. -/
def rtThreadIdleExcute (s : Lifetime) : Option Lifetime :=
  match s.idle with
  | .outside =>
    if s.defunct then
      s.use [.tcb] fun s =>
        let s := { s with defunct := false }
        (if s.cleanup then s.pthreadCleanup else some s).map fun s =>
          -- if it's a system object, not delete it
          { s with idle := if s.systemObject then .outside else .freeingStack }
    else none
  | .freeingStack =>
    s.use [.tcb] fun s =>
      some { (if s.stackAddr then s.release .stack else s) with idle := .deleting }
  | .deleting => s.use [.tcb] fun s => some { s.release .tcb with idle := .outside }

end Lifetime

inductive LifeOp
  | create (attr : PthreadAttr) (memory : Resource → Bool)
  | ret (value : Nat)
  | exit (value : Nat)
  | thread
  | switchOut
  | join
  | detach
  | call
  | idle

namespace Lifetime

def exec (s : Lifetime) : LifeOp → Option Lifetime
  | .create attr memory => if s.created = none then some (s.pthreadCreate attr memory) else none
  | .ret value =>
    if s.thread = .entry then
      s.use (.data :: s.ground) fun s =>
        some { s with returnValue := value, given := some value, thread := .returned }
    else none
  | .exit value =>
    if s.thread = .entry then
      s.use (.data :: s.ground) fun s =>
        some { s with returnValue := value, given := some value, thread := .exited }
    else none
  | .thread => s.threadStep
  | .switchOut => s.switchOut
  | .join => if s.created = some 0 ∧ s.call = .outside then s.pthreadJoin else none
  | .detach => if s.created = some 0 ∧ s.call = .outside then s.pthreadDetach else none
  | .call => s.callStep
  | .idle => s.rtThreadIdleExcute

structure Initial (s : Lifetime) : Prop where
  created : s.created = none
  allocated : ∀ r, s.allocated r = false
  closed : s.closed = false
  defunct : s.defunct = false
  thread : s.thread = .unborn
  call : s.call = .outside
  joining : s.joining = false
  idle : s.idle = .outside
  given : s.given = none
  released : s.released = []
  stray : s.stray = []

end Lifetime

def lifeMachine : Machine Lifetime LifeOp where
  init := Lifetime.Initial
  exec := Lifetime.exec

end RtThread.Pthreads
