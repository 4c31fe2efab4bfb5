import RtThread.Kernel.Thread
import RtThread.Lib.Chain
import RtThread.Lib.Transition

namespace RtThread.Signal

open Function RtThread.Lib

/-! `signal.c`, one step for each critical section.  Between its sections
`rt_thread_handle_sig` runs a handler, which may make any calls of its own. -/

abbrev rtEintr : Int := 9

abbrev rtEinval : Int := 10

abbrev rtSigMax : Nat := 32

abbrev siUser : Nat := 1

abbrev SigSet := BitVec 32

abbrev NodeId := Nat

def sigMaskOf (signo : Nat) : SigSet := 1#32 <<< signo

def sigValid (signo : Nat) : Bool := signo < rtSigMax

structure SigInfo where
  siSigno : Nat
  siCode : Nat
  deriving DecidableEq

/-- What `si_list` holds: the address of a node or of the list member in a node. -/
inductive SiPtr
  | null
  | node (n : NodeId)
  | list (n : NodeId)
  deriving DecidableEq

def SiPtr.first : SiPtr → Option NodeId
  | .null => none
  | .node n => some n
  | .list n => some n

/-- `rt_slist_entry` of a link -/
def SiPtr.ofLink : Option NodeId → SiPtr
  | none => .null
  | some n => .node n

inductive SigHandler
  /-- RT_NULL, from SIG_IGN -/
  | ignore
  /-- `_signal_default_handler` -/
  | default
  | user (handler : Nat)
  deriving DecidableEq

/-- A call of `rt_thread_handle_sig` while a handler runs.  History: `pinned` are the
nodes, with their contents, whose signal was pending and masked when the call began and
has been neither unmasked nor waited for by the handlers. -/
structure Activation where
  siNode : NodeId
  signo : Nat
  pinned : List (NodeId × SigInfo)
  deriving DecidableEq

/-- The loop of `rt_thread_free_sig`. -/
inductive Reap
  | idle
  /-- about to free the node -/
  | free (n : NodeId)
  /-- about to read `node->next` of the node it has freed -/
  | readNext (n : NodeId)
  deriving DecidableEq

def Reap.ofLink : Option NodeId → Reap
  | none => .idle
  | some n => .free n

/-- History: `freed` says that `rt_thread_free_sig` has begun, `resent` counts the
calls of `rt_thread_kill` that found the signal pending. -/
structure SigThread where
  sigPending : SigSet
  sigMask : SigSet
  siList : SiPtr
  sigVectors : Option (Nat → SigHandler)
  /-- `RT_THREAD_STAT_SIGNAL_WAIT` -/
  signalWait : Bool
  waitSet : SigSet
  /-- What the last `rt_signal_wait` returned, and its `si`. -/
  waitResult : Option (Int × Option SigInfo)
  error : Int
  /-- The innermost call first. -/
  activations : List Activation
  reap : Reap
  freed : Bool
  resent : Nat → Nat

/-- A call of `rt_thread_kill` between its sections. -/
structure Kill where
  tid : Tid
  sig : Nat
  siNode : Option NodeId
  deriving DecidableEq

/-- History: a handler was called, with the two sets at that moment. -/
structure Invocation where
  tid : Tid
  signo : Nat
  handler : SigHandler
  pending : SigSet
  mask : SigSet
  deriving DecidableEq

structure SigSystem where
  threads : List Tid
  thread : Tid → SigThread
  poolSize : Nat
  free : List NodeId
  si : NodeId → SigInfo
  next : NodeId → Option NodeId
  kills : List Kill
  invoked : List Invocation

namespace SigSystem

def setThread (s : SigSystem) (t : Tid) (thread : SigThread) : SigSystem :=
  { s with thread := update s.thread t thread }

def chain (s : SigSystem) (t : Tid) : List NodeId :=
  follow s.next s.poolSize (s.thread t).siList.first

def pending (s : SigSystem) (t : Tid) (signo : Nat) : Bool :=
  (s.thread t).sigPending.getLsbD signo

/-- In `sig_mask` a set bit means that the signal is not masked. -/
def unmasked (s : SigSystem) (t : Tid) (signo : Nat) : Bool :=
  (s.thread t).sigMask.getLsbD signo

def maskedNodes (s : SigSystem) (t : Tid) : List (NodeId × SigInfo) :=
  ((s.chain t).map fun n => (n, s.si n)).filter fun p =>
    s.pending t p.2.siSigno && !s.unmasked t p.2.siSigno

def unpin (s : SigSystem) (t : Tid) (signo : Nat) : SigSystem :=
  s.setThread t { s.thread t with
    activations := (s.thread t).activations.map fun a =>
      { a with pinned := a.pinned.filter fun p => p.2.siSigno ≠ signo } }

def rtMpFree (s : SigSystem) (n : NodeId) : SigSystem := { s with free := n :: s.free }

def rtSignalInstall (t : Tid) (signo : Nat) (handler : SigHandler) (s : SigSystem) : SigSystem :=
  if sigValid signo then
    let vectors := ((s.thread t).sigVectors).getD fun _ => .default
    s.setThread t { s.thread t with sigVectors := some (update vectors signo handler) }
  else s

def rtSignalMask (t : Tid) (signo : Nat) (s : SigSystem) : SigSystem :=
  s.setThread t { s.thread t with
    sigMask := (s.thread t).sigMask &&& ~~~sigMaskOf signo }

def rtSignalUnmask (t : Tid) (signo : Nat) (s : SigSystem) : SigSystem :=
  let s := s.unpin t signo
  s.setThread t { s.thread t with
    sigMask := (s.thread t).sigMask ||| sigMaskOf signo }

def addKill (s : SigSystem) (tid : Tid) (sig : Nat) : SigSystem :=
  { s with kills := { tid, sig, siNode := none } :: s.kills }

def countResent (s : SigSystem) (tid : Tid) (sig : Nat) : SigSystem :=
  s.setThread tid { s.thread tid with
    resent := update (s.thread tid).resent sig ((s.thread tid).resent sig + 1) }

/-- `rt_thread_kill` up to the allocation.  The walk over the nodes takes `si_list` for
the address of a list member; undefined when it is that of a node. -/
def killBegin (tid : Tid) (sig : Nat) (s : SigSystem) : Option SigSystem :=
  if tid ∈ s.threads then
    if sigValid sig then
      if (s.thread tid).sigPending &&& sigMaskOf sig ≠ 0 then
        match (s.thread tid).siList with
        | .null => some ((s.countResent tid sig).addKill tid sig)
        | .node _ => none
        | .list n =>
          match (follow s.next s.poolSize (some n)).find? fun m => (s.si m).siSigno = sig with
          | some m => some { s with
              si := update s.si m { siSigno := sig, siCode := siUser } }
          | none => some ((s.countResent tid sig).addKill tid sig)
      else
        some ((s.setThread tid { s.thread tid with
          sigPending := (s.thread tid).sigPending ||| sigMaskOf sig }).addKill tid sig)
    else some s
  else none

def killAlloc (i : Nat) (s : SigSystem) : Option SigSystem :=
  match s.kills[i]? with
  | some { tid, sig, siNode := none } =>
    match s.free with
    | [] => some { s with kills := s.kills.eraseIdx i }
    | n :: free => some { s with
        free := free
        si := update s.si n { siSigno := sig, siCode := siUser }
        next := update s.next n none
        kills := s.kills.set i { tid, sig, siNode := some n } }
  | _ => none

/-- The last section of `rt_thread_kill`; `rt_slist_append` takes `si_list` for the
address of a node. -/
def killLink (i : Nat) (s : SigSystem) : Option SigSystem :=
  match s.kills[i]? with
  | some { tid, sig := _, siNode := some n } =>
    let done := { s with kills := s.kills.eraseIdx i }
    match (s.thread tid).siList with
    | .null => some (done.setThread tid { s.thread tid with siList := .node n })
    | .list _ => none
    | .node head =>
      match (follow s.next s.poolSize (some head)).getLast? with
      | none => none
      | some last =>
        -- otherwise the walk does not end
        if s.next last = none then
          some { done with next :=
            Function.update (Function.update s.next last (some n)) n none }
        else none
  | _ => none

/-- The loop of `rt_thread_handle_sig` up to the next call of a handler or to its end. -/
def handleLoop (t : Tid) (pinned : List (NodeId × SigInfo))
    (s : SigSystem) : Option SigSystem :=
  let thread := s.thread t
  if thread.sigPending &&& thread.sigMask ≠ 0 then
    match thread.siList, thread.sigVectors with
    | .null, _ => some s
    | .node n, some vectors =>
      let signo := (s.si n).siSigno
      some ({ s.setThread t { thread with
          siList := .ofLink (s.next n)
          activations := { siNode := n, signo, pinned } :: thread.activations } with
        invoked := {
          tid := t
          signo := signo
          handler := vectors signo
          pending := thread.sigPending
          mask := thread.sigMask } :: s.invoked })
    -- `si_list` is no node, or `sig_vectors` is RT_NULL and indexed: no outcome
    | _, _ => none
  else some s

def handleBegin (t : Tid) (s : SigSystem) : Option SigSystem :=
  let thread := s.thread t
  if thread.sigPending &&& thread.sigMask ≠ 0 ∧ thread.signalWait = false then
    s.handleLoop t (s.maskedNodes t)
  else some s

/-- `rt_thread_handle_sig` from the return of a handler to the test of the loop. -/
def handleReturn (t : Tid) (a : Activation) (rest : List Activation) (s : SigSystem) : SigSystem :=
  (s.setThread t { s.thread t with
    sigPending := (s.thread t).sigPending &&& ~~~sigMaskOf a.signo
    error := -rtEintr
    activations := rest }).rtMpFree a.siNode

def handleNext (t : Tid) (s : SigSystem) : Option SigSystem :=
  match (s.thread t).signalWait, (s.thread t).activations with
  | false, a :: rest => (s.handleReturn t a rest).handleLoop t a.pinned
  | _, _ => none

/-- `rt_signal_wait` from `__done` on.  A search that finds no node goes on behind the
end of the list. -/
def takePending (t : Tid) (set : SigSet) (s : SigSystem) : Option SigSystem :=
  let thread := s.thread t
  match thread.siList with
  | .list _ => none
  | .null => some (s.setThread t { thread with waitResult := some (rtEok, none) })
  | .node head =>
    let nodes := follow s.next s.poolSize (some head)
    let misses := fun n => sigMaskOf (s.si n).siSigno &&& set = 0
    match nodes.dropWhile misses with
    | [] => none
    | n :: _ =>
      let signo := (s.si n).siSigno
      let s := s.unpin t signo
      let done := { s.thread t with
        sigPending := thread.sigPending &&& ~~~sigMaskOf signo
        waitResult := some (rtEok, some (s.si n)) }
      match (nodes.takeWhile misses).getLast? with
      | some siPrev =>
        some (({ s with next := update s.next siPrev (s.next n) }.setThread t
          done).rtMpFree n)
      | none =>
        -- the address of the list member of the next node
        let siList :=
          match s.next n with
          | none => .null
          | some m => .list m
        some ((s.setThread t { done with siList := siList }).rtMpFree n)

def waitBegin (t : Tid) (set : SigSet) (timeout : Int) (s : SigSystem) : Option SigSystem :=
  let thread := s.thread t
  if thread.signalWait then none
  else if set = 0 then
    some (s.setThread t { thread with waitResult := some (-rtEinval, none) })
  else if thread.sigPending &&& set ≠ 0 then s.takePending t set
  else if timeout = 0 then
    some (s.setThread t { thread with waitResult := some (-rtEtimeout, none) })
  else some (s.setThread t { thread with signalWait := true, waitSet := set })

def waitEnd (t : Tid) (timedOut : Bool) (s : SigSystem) : Option SigSystem :=
  let thread := s.thread t
  if thread.signalWait then
    let s := s.setThread t { thread with signalWait := false }
    if timedOut then
      some (s.setThread t { s.thread t with
        error := rtEok
        waitResult := some (-rtEtimeout, none) })
    else s.takePending t thread.waitSet
  else none

def freeBegin (t : Tid) (s : SigSystem) : Option SigSystem :=
  let thread := s.thread t
  let detached := { thread with
    siList := .null
    sigVectors := none
    activations := thread.activations.map fun a => { a with pinned := [] }
    freed := true }
  match thread.reap, thread.siList with
  | .idle, .null => some (s.setThread t detached)
  | .idle, .node n => some (s.setThread t { detached with reap := .free n })
  | _, _ => none

def freeNode (t : Tid) (s : SigSystem) : Option SigSystem :=
  match (s.thread t).reap with
  | .free n => some ((s.setThread t { s.thread t with reap := .readNext n }).rtMpFree n)
  | _ => none

def freeNext (t : Tid) (s : SigSystem) : Option SigSystem :=
  match (s.thread t).reap with
  | .readNext n =>
    some (s.setThread t { s.thread t with reap := .ofLink (s.next n) })
  | _ => none

end SigSystem

inductive SigOp
  | install (t : Tid) (signo : Nat) (handler : SigHandler)
  | mask (t : Tid) (signo : Nat)
  | unmask (t : Tid) (signo : Nat)
  | killBegin (tid : Tid) (sig : Nat)
  | killAlloc (i : Nat)
  | killLink (i : Nat)
  | handleBegin (t : Tid)
  | handleNext (t : Tid)
  | waitBegin (t : Tid) (set : SigSet) (timeout : Int)
  | waitEnd (t : Tid) (timedOut : Bool)
  | freeBegin (t : Tid)
  | freeNode (t : Tid)
  | freeNext (t : Tid)
  deriving DecidableEq

namespace SigSystem

def ifRunning (s s' : SigSystem) (t : Tid) : Option SigSystem :=
  if (s.thread t).signalWait then none else some s'

def exec (s : SigSystem) : SigOp → Option SigSystem
  | .install t signo handler => s.ifRunning (s.rtSignalInstall t signo handler) t
  | .mask t signo => s.ifRunning (s.rtSignalMask t signo) t
  | .unmask t signo => s.ifRunning (s.rtSignalUnmask t signo) t
  | .killBegin tid sig => s.killBegin tid sig
  | .killAlloc i => s.killAlloc i
  | .killLink i => s.killLink i
  | .handleBegin t => s.handleBegin t
  | .handleNext t => s.handleNext t
  | .waitBegin t set timeout => s.waitBegin t set timeout
  | .waitEnd t timedOut => s.waitEnd t timedOut
  | .freeBegin t => s.freeBegin t
  | .freeNode t => s.freeNode t
  | .freeNext t => s.freeNext t

structure Initial (s : SigSystem) : Prop where
  threads : s.threads.Nodup
  pool : s.free.Perm (List.range s.poolSize)
  kills : s.kills = []
  invoked : s.invoked = []
  thread : ∀ t, (s.thread t).sigPending = 0 ∧ (s.thread t).siList = .null ∧
    (s.thread t).activations = [] ∧ (s.thread t).reap = .idle ∧
    (s.thread t).freed = false ∧ ∀ sig, (s.thread t).resent sig = 0

end SigSystem

def sigMachine : Machine SigSystem SigOp where
  init := SigSystem.Initial
  exec := SigSystem.exec

end RtThread.Signal
