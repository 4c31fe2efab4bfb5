import Mathlib.Data.List.Nodup
import RtThread.Lib.Chain
import RtThread.Lib.Transducer

namespace RtThread.Pthreads

open Function RtThread.Lib

/-! The cleanup handlers of one thread: `pthread_cleanup_push`, `pthread_cleanup_pop` and the loop of
`pthread_exit`.  A handler may make these calls itself, so a call that runs one is two steps. -/

structure Handler where
  cleanupFunc : Nat
  parameter : Nat
  deriving DecidableEq

structure PthreadCleanup where
  handler : Handler
  next : Option Nat
  deriving DecidableEq

inductive CleanupFrame
  | popping
  | exiting
  deriving DecidableEq

/-- `cleanup` of `_pthread_data_t`, the blocks it leads to, and the handlers that run, the innermost
first, with the block of each. -/
structure CleanupData where
  cleanup : Option Nat
  heap : Nat → Option PthreadCleanup
  frames : List (CleanupFrame × Nat)
  exited : Bool

inductive CleanupCall
  -- with the block that `rt_malloc` gives
  | push (handler : Handler) (addr : Nat)
  | pop (execute : Int)
  -- the innermost handler returns
  | ret
  | exit
  deriving DecidableEq

inductive CleanupEvent
  | starts (handler : Handler)
  | returns
  | ends
  deriving DecidableEq

namespace CleanupData

def init : CleanupData := ⟨none, fun _ => none, [], false⟩

def start (frame : CleanupFrame) (addr : Nat) (s : CleanupData) :
    Option (CleanupEvent × CleanupData) :=
  (s.heap addr).map fun node =>
    (.starts node.handler, { s with cleanup := node.next, frames := (frame, addr) :: s.frames })

def pthreadCleanupPush (routine : Handler) (addr : Nat) (s : CleanupData) : CleanupData :=
  { s with
    heap := update s.heap addr (some ⟨routine, s.cleanup⟩)
    cleanup := some addr }

def pthreadCleanupPop (execute : Int) (s : CleanupData) : Option (CleanupEvent × CleanupData) :=
  if execute ≠ 0 then
    match s.cleanup with
    | some addr => s.start .popping addr
    | none => some (.returns, s)
  else some (.returns, s)

/-- The loop of `pthread_exit`, up to the next call of a handler. -/
def pthreadExit (s : CleanupData) : Option (CleanupEvent × CleanupData) :=
  match s.cleanup with
  | some addr => s.start .exiting addr
  | none => some (.ends, { s with exited := true })

def release (addr : Nat) (s : CleanupData) : Option CleanupData :=
  (s.heap addr).map fun _ => { s with heap := update s.heap addr none }

def handlerReturns (s : CleanupData) : Option (CleanupEvent × CleanupData) :=
  match s.frames with
  | [] => none
  | (.popping, addr) :: frames =>
    (release addr { s with frames := frames }).map fun s => (.returns, s)
  | (.exiting, addr) :: frames => (release addr { s with frames := frames }).bind pthreadExit

end CleanupData

def cleanupList : Transducer CleanupData CleanupCall CleanupEvent where
  step s call :=
    if s.exited then none
    else
      match call with
      | .push handler addr => some (.returns, s.pthreadCleanupPush handler addr)
      | .pop execute => s.pthreadCleanupPop execute
      | .ret => s.handlerReturns
      | .exit => s.pthreadExit

structure HandlerStack where
  stack : List Handler
  frames : List CleanupFrame
  exited : Bool
  deriving DecidableEq

namespace HandlerStack

def init : HandlerStack := ⟨[], [], false⟩

def pop (execute : Bool) (t : HandlerStack) : CleanupEvent × HandlerStack :=
  match t.stack with
  | [] => (.returns, t)
  | handler :: stack =>
    if execute then (.starts handler, { t with stack := stack, frames := .popping :: t.frames })
    else (.returns, { t with stack := stack })

def exit (t : HandlerStack) : CleanupEvent × HandlerStack :=
  match t.stack with
  | [] => (.ends, { t with exited := true })
  | handler :: stack => (.starts handler, { t with stack := stack, frames := .exiting :: t.frames })

def ret (t : HandlerStack) : Option (CleanupEvent × HandlerStack) :=
  match t.frames with
  | [] => none
  | .popping :: frames => some (.returns, { t with frames := frames })
  | .exiting :: frames => some (exit { t with frames := frames })

end HandlerStack

/-- What the calls are for: every pop removes the most recent handler, and the exit runs all. -/
def handlerStack : Transducer HandlerStack CleanupCall CleanupEvent where
  step t call :=
    if t.exited then none
    else
      match call with
      | .push handler _ => some (.returns, { t with stack := handler :: t.stack })
      | .pop execute => some (t.pop (execute ≠ 0))
      | .ret => t.ret
      | .exit => some t.exit

namespace CleanupData

def nextOf (s : CleanupData) (addr : Nat) : Option Nat := (s.heap addr).bind (·.next)

def handlerOf (s : CleanupData) (addr : Nat) : Option Handler := (s.heap addr).map (·.handler)

/-- The list from `cleanup` on holds the handlers of the stack, in blocks of their own. -/
structure Lists (s : CleanupData) (stack : List Handler) (nodes : List Nat) : Prop where
  chain : Chain s.nextOf s.cleanup nodes
  handlers : nodes.map s.handlerOf = stack.map some
  nodup : (nodes ++ s.frames.map Prod.snd).Nodup
  allocated : ∀ addr ∈ s.frames.map Prod.snd, s.heap addr ≠ none

structure Represents (s : CleanupData) (t : HandlerStack) : Prop where
  lists : ∃ nodes, s.Lists t.stack nodes
  frames : s.frames.map Prod.fst = t.frames
  exited : s.exited = t.exited
  empty : s.exited → s.cleanup = none

end CleanupData

/-- `rt_malloc` gives a block that is not in use. -/
def FreshBlock (s : CleanupData) : CleanupCall → Prop
  | .push _ addr => s.heap addr = none
  | _ => True

def PopExecutes (s : CleanupData) (call : CleanupCall) : Prop :=
  call = .pop 0 → s.cleanup = none

namespace CleanupData

variable {s : CleanupData} {stack : List Handler} {nodes : List Nat} {addr : Nat}

theorem Lists.push (hlists : s.Lists stack nodes) (hfree : s.heap addr = none) (handler : Handler) :
    (s.pthreadCleanupPush handler addr).Lists (handler :: stack) (addr :: nodes) := by
  have hallocated : ∀ node ∈ nodes, s.heap node ≠ none := by
    intro node hnode hnone
    have hmem : s.handlerOf node ∈ stack.map some := by
      rw [← hlists.handlers]
      exact List.mem_map_of_mem hnode
    obtain ⟨handler', -, heq⟩ := List.mem_map.mp hmem
    rw [handlerOf, hnone] at heq
    cases heq
  have hnew : addr ∉ nodes ++ s.frames.map Prod.snd := by
    intro hmem
    rcases List.mem_append.mp hmem with hmem | hmem
    · exact hallocated addr hmem hfree
    · exact hlists.allocated addr hmem hfree
  have hout : addr ∉ nodes := fun hmem => hnew (List.mem_append_left _ hmem)
  have hnext : (s.pthreadCleanupPush handler addr).nextOf = update s.nextOf addr s.cleanup := by
    funext other
    by_cases hother : other = addr
    · subst hother
      simp [nextOf, pthreadCleanupPush]
    · simp [nextOf, pthreadCleanupPush, hother]
  constructor
  · rw [hnext]
    exact hlists.chain.push hout
  · rw [List.map_cons, List.map_cons, ← hlists.handlers]
    refine congrArg₂ List.cons (by simp [handlerOf, pthreadCleanupPush]) ?_
    refine List.map_congr_left fun node hnode => ?_
    have hne : node ≠ addr := fun heq => hout (heq ▸ hnode)
    simp [handlerOf, pthreadCleanupPush, hne]
  · exact List.nodup_cons.mpr ⟨hnew, hlists.nodup⟩
  · intro node hnode
    show update s.heap addr _ node ≠ none
    by_cases hother : node = addr
    · subst hother
      simp
    · rw [update_of_ne hother]
      exact hlists.allocated node hnode

theorem Lists.cleanup_eq_none (hlists : s.Lists [] nodes) : s.cleanup = none := by
  have hnodes := hlists.handlers
  rw [List.map_nil, List.map_eq_nil_iff] at hnodes
  subst hnodes
  exact hlists.chain

theorem Lists.start {handler : Handler} (hlists : s.Lists (handler :: stack) nodes)
    (frame : CleanupFrame) :
    ∃ addr s', s.cleanup = some addr ∧ s.start frame addr = some (.starts handler, s') ∧
      s'.frames = (frame, addr) :: s.frames ∧ s'.exited = s.exited ∧
      ∃ nodes', s'.Lists stack nodes' := by
  obtain ⟨addr, rest, rfl⟩ : ∃ addr rest, nodes = addr :: rest := by
    cases nodes with
    | nil => cases hlists.handlers
    | cons addr rest => exact ⟨addr, rest, rfl⟩
  obtain ⟨hhandler, hrest⟩ := List.cons.inj hlists.handlers
  obtain ⟨node, hnode, rfl⟩ := Option.map_eq_some_iff.mp hhandler
  obtain ⟨hfirst, hchain⟩ := hlists.chain
  have hnodup : (addr :: (rest ++ s.frames.map Prod.snd)).Nodup := hlists.nodup
  refine ⟨addr, { s with cleanup := node.next, frames := (frame, addr) :: s.frames }, hfirst, ?_,
    rfl, rfl, rest, ?_⟩
  · unfold CleanupData.start
    rw [hnode]
    rfl
  · constructor
    · rw [nextOf, hnode] at hchain
      exact hchain
    · exact hrest
    · exact List.nodup_middle.mpr hnodup
    · intro other hother
      rcases List.mem_cons.mp hother with heq | hother
      · show s.heap other ≠ none
        rw [heq, hnode]
        exact Option.some_ne_none node
      · exact hlists.allocated other hother

theorem Lists.release {frame : CleanupFrame} {frames : List (CleanupFrame × Nat)}
    (hlists : s.Lists stack nodes) (hframes : s.frames = (frame, addr) :: frames) :
    ∃ s', CleanupData.release addr { s with frames := frames } = some s' ∧ s'.frames = frames ∧
      s'.exited = s.exited ∧ s'.Lists stack nodes := by
  have hallocated : s.heap addr ≠ none := hlists.allocated addr (by rw [hframes]; simp)
  obtain ⟨node, hnode⟩ := Option.ne_none_iff_exists'.mp hallocated
  have hnodup := hlists.nodup
  rw [hframes, List.map_cons, List.nodup_middle, List.nodup_cons] at hnodup
  obtain ⟨hout, hnodup⟩ := hnodup
  have hsame : ∀ other ∈ nodes ++ frames.map Prod.snd,
      update s.heap addr none other = s.heap other := fun other hother =>
    update_of_ne (fun heq : other = addr => hout (heq ▸ hother)) ..
  refine ⟨{ s with frames := frames, heap := update s.heap addr none }, ?_, rfl, rfl, ?_⟩
  · unfold CleanupData.release
    dsimp only
    rw [hnode]
    rfl
  · constructor
    · refine hlists.chain.congr fun other hother => ?_
      unfold nextOf
      dsimp only
      rw [hsame other (List.mem_append_left _ hother)]
    · rw [← hlists.handlers]
      refine List.map_congr_left fun other hother => ?_
      unfold handlerOf
      dsimp only
      rw [hsame other (List.mem_append_left _ hother)]
    · exact hnodup
    · intro other hother
      dsimp only
      rw [hsame other (List.mem_append_right _ hother)]
      refine hlists.allocated other ?_
      rw [hframes]
      exact List.mem_cons_of_mem _ hother

end CleanupData

namespace CleanupData.Represents

variable {s : CleanupData} {t : HandlerStack}

section

variable (hrep : s.Represents t)
include hrep

theorem push {addr : Nat} (hfree : s.heap addr = none)
    (hrunning : s.exited = false) (handler : Handler) :
    (s.pthreadCleanupPush handler addr).Represents { t with stack := handler :: t.stack } := by
  obtain ⟨⟨nodes, hlists⟩, hframes, hexited, -⟩ := hrep
  refine ⟨⟨addr :: nodes, hlists.push hfree handler⟩, hframes, hexited, fun hdone => ?_⟩
  exact absurd (hrunning.symm.trans hdone) Bool.false_ne_true

theorem start {handler : Handler} {stack : List Handler}
    (hstack : t.stack = handler :: stack) (hrunning : s.exited = false) (frame : CleanupFrame) :
    ∃ addr s', s.cleanup = some addr ∧ s.start frame addr = some (.starts handler, s') ∧
      s'.Represents { t with stack := stack, frames := frame :: t.frames } := by
  obtain ⟨⟨nodes, hlists⟩, hframes, hexited, -⟩ := hrep
  rw [hstack] at hlists
  obtain ⟨addr, s', hfirst, hstart, hframes', hexited', hlists'⟩ := hlists.start frame
  refine ⟨addr, s', hfirst, hstart, hlists', ?_, hexited'.trans hexited, fun hdone => ?_⟩
  · rw [hframes', List.map_cons, hframes]
  · rw [hexited', hrunning] at hdone
    cases hdone

theorem cleanup_eq_none (hstack : t.stack = []) : s.cleanup = none := by
  obtain ⟨nodes, hlists⟩ := hrep.lists
  rw [hstack] at hlists
  exact hlists.cleanup_eq_none

theorem exit (hrunning : s.exited = false) :
    ∃ s', s.pthreadExit = some (t.exit.1, s') ∧ s'.Represents t.exit.2 := by
  cases hstack : t.stack with
  | nil =>
    have hempty := hrep.cleanup_eq_none hstack
    have hexit : t.exit = (.ends, { t with exited := true }) := by
      unfold HandlerStack.exit
      rw [hstack]
    rw [hexit]
    refine ⟨{ s with exited := true }, ?_, ?_⟩
    · unfold pthreadExit
      split
      next hfirst =>
        rw [hempty] at hfirst
        cases hfirst
      · rfl
    · obtain ⟨nodes, hlists⟩ := hrep.lists
      refine ⟨⟨nodes, ?_⟩, hrep.frames, rfl, fun _ => hempty⟩
      exact ⟨hlists.chain, hlists.handlers, hlists.nodup, hlists.allocated⟩
  | cons handler stack =>
    obtain ⟨addr, s', hfirst, hstart, hrep'⟩ := hrep.start hstack hrunning .exiting
    rw [pthreadExit, hfirst]
    refine ⟨s', ?_, ?_⟩
    · rw [HandlerStack.exit, hstack]
      exact hstart
    · rw [HandlerStack.exit, hstack]
      exact hrep'

theorem pop (hrunning : s.exited = false) {execute : Int} (hexecute : execute ≠ 0) :
    ∃ s', s.pthreadCleanupPop execute = some ((t.pop true).1, s') ∧
      s'.Represents (t.pop true).2 := by
  unfold pthreadCleanupPop
  rw [if_pos hexecute]
  cases hstack : t.stack with
  | nil =>
    rw [hrep.cleanup_eq_none hstack]
    refine ⟨s, ?_, ?_⟩
    · rw [HandlerStack.pop, hstack]
    · rw [HandlerStack.pop, hstack]
      exact hrep
  | cons handler stack =>
    obtain ⟨addr, s', hfirst, hstart, hrep'⟩ := hrep.start hstack hrunning .popping
    rw [hfirst]
    refine ⟨s', ?_, ?_⟩
    · rw [HandlerStack.pop, hstack]
      exact hstart
    · rw [HandlerStack.pop, hstack]
      exact hrep'

theorem release {frame : CleanupFrame} {addr : Nat}
    {frames : List (CleanupFrame × Nat)} (hframes : s.frames = (frame, addr) :: frames)
    (hrunning : s.exited = false) :
    ∃ s', CleanupData.release addr { s with frames := frames } = some s' ∧ s'.exited = false ∧
      t.frames = frame :: frames.map Prod.fst ∧
      s'.Represents { t with frames := frames.map Prod.fst } := by
  obtain ⟨⟨nodes, hlists⟩, hframes', hexited, -⟩ := hrep
  obtain ⟨s', hrelease, hrest, hrunning', hlists'⟩ := hlists.release hframes
  rw [hframes] at hframes'
  refine ⟨s', hrelease, hrunning'.trans hrunning, hframes'.symm, ⟨nodes, hlists'⟩, ?_, ?_, ?_⟩
  · rw [hrest]
  · exact hrunning'.trans hexited
  · intro hdone
    rw [hrunning', hrunning] at hdone
    cases hdone

theorem handlerReturns (hrunning : s.exited = false) :
    cleanupList.Agrees handlerStack Represents s t .ret := by
  have hexited : t.exited = false := hrep.exited.symm.trans hrunning
  have himpl : cleanupList.step s .ret = s.handlerReturns := by
    unfold cleanupList
    dsimp only
    rw [hrunning]
    rfl
  have hspec : handlerStack.step t .ret = t.ret := by
    unfold handlerStack
    dsimp only
    rw [hexited]
    rfl
  unfold Transducer.Agrees
  rw [himpl, hspec, CleanupData.handlerReturns, HandlerStack.ret]
  cases hframes : s.frames with
  | nil =>
    have hnone := hrep.frames
    rw [hframes] at hnone
    rw [← hnone]
    trivial
  | cons top frames =>
    obtain ⟨frame, addr⟩ := top
    obtain ⟨s', hrelease, hrunning', htop, hrep'⟩ := hrep.release hframes hrunning
    rw [htop]
    cases frame with
    | popping =>
      dsimp only
      rw [hrelease]
      exact ⟨rfl, hrep'⟩
    | exiting =>
      dsimp only
      rw [hrelease]
      obtain ⟨s'', hexit, hrep''⟩ := hrep'.exit hrunning'
      rw [Option.bind_some, hexit]
      exact ⟨rfl, hrep''⟩

end

end CleanupData.Represents

section Law

variable {s : CleanupData} {t : HandlerStack}

theorem popExecutes_iff (hrep : s.Represents t) (hrunning : s.exited = false) :
    s.Represents (t.pop false).2 ↔ s.cleanup = none := by
  obtain ⟨nodes, hlists⟩ := hrep.lists
  unfold HandlerStack.pop
  cases hstack : t.stack with
  | nil => exact iff_of_true hrep (hrep.cleanup_eq_none hstack)
  | cons handler stack =>
    obtain ⟨addr, -, hfirst, -⟩ := hrep.start hstack hrunning .popping
    rw [hfirst]
    refine iff_of_false (fun hrep' => ?_) (Option.some_ne_none addr)
    -- the list of one thread stands for one stack only
    obtain ⟨nodes', hlists'⟩ := hrep'.lists
    have hsame := hlists.chain.unique hlists'.chain
    have hlength := congrArg List.length hlists.handlers
    have hlength' := congrArg List.length hlists'.handlers
    rw [hstack] at hlength
    rw [← hsame] at hlength'
    simp only [List.length_map, List.length_cons, Bool.false_eq_true, if_false] at hlength hlength'
    omega

theorem cleanup_agrees_iff (hrep : s.Represents t) (call : CleanupCall) (hfresh : FreshBlock s call) :
    cleanupList.Agrees handlerStack CleanupData.Represents s t call ↔ PopExecutes s call := by
  cases hdone : s.exited with
  | true =>
    have hexited : t.exited = true := hrep.exited.symm.trans hdone
    refine iff_of_true ?_ fun _ => hrep.empty hdone
    simp [Transducer.Agrees, cleanupList, handlerStack, hdone, hexited]
  | false =>
    have hexited : t.exited = false := hrep.exited.symm.trans hdone
    cases call with
    | push handler addr =>
      refine iff_of_true ?_ (by intro h; cases h)
      simpa [Transducer.Agrees, cleanupList, handlerStack, hdone, hexited] using
        hrep.push hfresh hdone handler
    | pop execute =>
      by_cases hexecute : execute = 0
      · subst hexecute
        have hreturns : (t.pop false).1 = .returns := by
          unfold HandlerStack.pop
          cases t.stack <;> rfl
        have hcond : PopExecutes s (.pop 0) ↔ s.cleanup = none :=
          ⟨fun h => h rfl, fun h _ => h⟩
        rw [hcond, ← popExecutes_iff hrep hdone]
        simp [Transducer.Agrees, cleanupList, handlerStack, hdone, hexited,
          CleanupData.pthreadCleanupPop, hreturns]
      · refine iff_of_true ?_ fun h => absurd (CleanupCall.pop.inj h) hexecute
        obtain ⟨s', hpop, hrep'⟩ := hrep.pop hdone hexecute
        simpa [Transducer.Agrees, cleanupList, handlerStack, hdone, hexited, hexecute, hpop] using
          hrep'
    | ret => exact iff_of_true (hrep.handlerReturns hdone) (by intro h; cases h)
    | exit =>
      refine iff_of_true ?_ (by intro h; cases h)
      obtain ⟨s', hexit, hrep'⟩ := hrep.exit hdone
      simpa [Transducer.Agrees, cleanupList, handlerStack, hdone, hexited, hexit] using hrep'

theorem init_represents : CleanupData.init.Represents .init :=
  ⟨⟨[], rfl, rfl, List.nodup_nil, fun _ hmem => absurd hmem List.not_mem_nil⟩, rfl, rfl,
    fun _ => rfl⟩

/-- The handlers form a stack in just those runs whose pops all execute, or find no handler. -/
theorem cleanup_follows_iff (calls : List CleanupCall)
    (hfresh : cleanupList.Along FreshBlock .init calls) :
    cleanupList.Follows handlerStack CleanupData.Represents .init .init calls ↔
      cleanupList.Along PopExecutes .init calls :=
  Transducer.follows_iff (fun _ _ call hrep hfirst => cleanup_agrees_iff hrep call hfirst)
    init_represents hfresh

theorem cleanup_follows_iff_nested : cleanupList.Follows handlerStack CleanupData.Represents
    .init .init [.push ⟨1, 10⟩ 100, .push ⟨2, 20⟩ 200, .exit, .pop 1, .ret, .ret] := by
  refine (cleanup_follows_iff _ ?_).mpr ?_
  · simp [Transducer.Along, FreshBlock, cleanupList, CleanupData.init, CleanupData.pthreadCleanupPush]
  · simp [Transducer.Along, PopExecutes]

/-- The handler that was popped runs in the exit. -/
theorem popped_handler_runs : ¬ cleanupList.Follows handlerStack CleanupData.Represents
    .init .init [.push ⟨1, 10⟩ 100, .pop 0, .exit] := by
  intro hfollows
  have hruns : ∃ s', cleanupList.run .init [.push ⟨1, 10⟩ 100, .pop 0, .exit] =
      some ([.returns, .returns, .starts ⟨1, 10⟩], s') := ⟨_, rfl⟩
  obtain ⟨s', hruns⟩ := hruns
  obtain ⟨t', hrun, -⟩ := hfollows.run init_represents hruns
  cases hrun

end Law

end RtThread.Pthreads
