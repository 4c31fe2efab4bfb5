import RtThread.Lib.Transition

namespace RtThread.Dfs

open Function RtThread.Lib

/-! One call of `poll`, and wake-ups and other waiters on the wait queues.  Poll nodes are always
allocated; what the thread does while its call is blocked elsewhere is not looked at. -/

def rtTickPerSecond : Int32 := 100

def rtTickFromMillisecond (ms : Int32) : Int32 :=
  if ms < 0 then -1 else (rtTickPerSecond * ms + 999) / 1000

abbrev pollAlways : BitVec 32 := 0xc

abbrev pollNval : BitVec 32 := 0x10

abbrev pollMaskDefault : BitVec 32 := 0x3

/-- What `fd_get` finds for a descriptor: with a driver, the wait queues it calls `rt_poll_add` on
before it tests for readiness. -/
inductive PollFile
  | negative
  | unused
  | plain
  | driver (queues : List Nat)
  deriving DecidableEq

def PollFile.queues : PollFile → List Nat
  | .driver queues => queues
  | _ => []

structure PollFd where
  file : PollFile
  events : BitVec 16
  deriving DecidableEq

def PollFd.wanted (fd : PollFd) : BitVec 32 := fd.events.signExtend 32 ||| pollAlways

/-- `rt_poll_node`; `queue` is where it was added. -/
structure PollNode where
  id : Nat
  queue : Nat
  key : BitVec 32
  deriving DecidableEq

/-- What waits in a queue: a node of the call, or another waiter, whose key is none if its `wakeup`
is `__wqueue_default_wake`. -/
inductive WqEntry
  | own (node : PollNode)
  | other (id : Nat) (key : Option (BitVec 32))
  deriving DecidableEq

/-- `__wqueue_pollwake`: whether a key is one that the node waits for -/
def keyWakes (key nodeKey : BitVec 32) : Bool := key = 0 || key &&& nodeKey ≠ 0

/-- `entry->wakeup` gives 0. -/
def WqEntry.wakes (key : BitVec 32) : WqEntry → Bool
  | .own node => keyWakes key node.key
  | .other _ none => true
  | .other _ (some nodeKey) => keyWakes key nodeKey

inductive PollPc
  | begin
  | scan (n : Nat) (queues : List Nat)
  | scanned
  | waitTimeout
  | inWait
  | teardown
  | returned
  deriving DecidableEq

/-- The polling thread: suspended by `poll_wait_timeout`, or blocked elsewhere in the call. -/
inductive PollThread
  | running
  | suspended
  | blocked
  deriving DecidableEq

/-- The wait queues, the poll table and the locals of the call; `proc` says that `_proc` is
`_poll_add`.

History: whether a wake-up matched one of the nodes since the last scan of the descriptors
began. -/
structure Poll where
  queues : Nat → List WqEntry
  thread : PollThread
  pc : PollPc
  triggered : Bool
  nodes : List PollNode
  proc : Bool
  num : Nat
  istimeout : Bool
  revents : Nat → BitVec 16
  nextNode : Nat
  matched : Bool

namespace Poll

variable (fds : List PollFd)

def scanFrom (n : Nat) : PollPc :=
  match fds[n]? with
  | none => .scanned
  | some fd => .scan n fd.file.queues

def startScan (s : Poll) : Poll :=
  { s with num := 0, matched := false, pc := scanFrom fds 0 }

def pollAdd (queue : Nat) (key : BitVec 32) (s : Poll) : Poll :=
  if s.proc then
    let node : PollNode := ⟨s.nextNode, queue, key⟩
    { s with
      nodes := node :: s.nodes
      nextNode := s.nextNode + 1
      queues := update s.queues queue (s.queues queue ++ [.own node]) }
  else s

def testMask (fd : PollFd) (mask : BitVec 32) : BitVec 32 :=
  match fd.file with
  | .negative => 0
  | .unused => pollNval
  | .plain => pollMaskDefault &&& fd.wanted
  | .driver _ => mask &&& fd.wanted

def pollTest (n : Nat) (fd : PollFd) (mask : BitVec 32) (s : Poll) : Poll :=
  let mask := testMask fd mask
  let s := { s with revents := update s.revents n (mask.truncate 16), pc := scanFrom fds (n + 1) }
  if mask ≠ 0 then { s with num := s.num + 1, proc := false } else s

def endScan (s : Poll) : Poll :=
  { s with proc := false, pc := if s.num ≠ 0 || s.istimeout then .teardown else .waitTimeout }

def leaveWait (s : Poll) : Poll :=
  { s with istimeout := s.istimeout || !s.triggered, pc := .begin }

def enterWait (timeout : Int32) (s : Poll) : Poll :=
  if timeout ≠ 0 ∧ s.triggered = false then { s with thread := .suspended, pc := .inWait }
  else s.leaveWait

def wqueueRemove (node : PollNode) (s : Poll) : Poll :=
  { s with queues := fun queue => (s.queues queue).filter (· ≠ .own node) }

def teardown (s : Poll) : Poll :=
  match s.nodes with
  | [] => { s with pc := .returned }
  | node :: next => { s.wqueueRemove node with nodes := next }

/-- `rt_thread_resume`, which does nothing to a thread that is not suspended -/
def resume (s : Poll) : Poll := { s with thread := .running }

def hit (queue : Nat) (key : BitVec 32) (s : Poll) : Option WqEntry :=
  (s.queues queue).find? (·.wakes key)

def matchesNode (queue : Nat) (key : BitVec 32) (s : Poll) : Bool :=
  s.nodes.any fun node => node.queue = queue && keyWakes key node.key

def wqueueWakeup (queue : Nat) (key : BitVec 32) (s : Poll) : Poll :=
  let s := { s with matched := s.matched || s.matchesNode queue key }
  match s.hit queue key with
  | none => s
  | some entry =>
    let s :=
      match entry with
      | .own _ => { s with triggered := true }.resume
      | .other .. => s
    { s with queues := update s.queues queue ((s.queues queue).erase entry) }

end Poll

inductive PollOp
  | step (mask : BitVec 32)
  | expire
  | block
  | unblock
  | wakeup (queue : Nat) (key : BitVec 32)
  | otherAdd (queue : Nat) (id : Nat) (key : Option (BitVec 32))
  | otherRemove (queue : Nat) (id : Nat) (key : Option (BitVec 32))
  deriving DecidableEq

namespace Poll

/-- The next step of the call; `mask` is what a driver finds. -/
def step (fds : List PollFd) (msec : Int32) (mask : BitVec 32) (s : Poll) : Option Poll :=
  match s.pc with
  | .begin => some (s.startScan fds)
  | .scan n queues =>
    fds[n]?.map fun fd =>
      match queues with
      | queue :: rest => { s.pollAdd queue fd.wanted with pc := .scan n rest }
      | [] => s.pollTest fds n fd mask
  | .scanned => some s.endScan
  | .waitTimeout => some (s.enterWait (rtTickFromMillisecond msec))
  | .inWait => some s.leaveWait
  | .teardown => some s.teardown
  | .returned => none

def canBlock (s : Poll) : Bool :=
  match s.pc with
  | .scan .. => true
  | .teardown => true
  | _ => false

end Poll

structure Poll.Initial (msec : Int32) (s : Poll) : Prop where
  others : ∀ queue node, .own node ∉ s.queues queue
  thread : s.thread = .running
  pc : s.pc = .begin
  triggered : s.triggered = false
  nodes : s.nodes = []
  proc : s.proc = (msec ≠ 0 : Bool)
  istimeout : s.istimeout = (msec = 0 : Bool)
  matched : s.matched = false

def pollMachine (fds : List PollFd) (msec : Int32) : Machine Poll PollOp where
  init := Poll.Initial msec
  exec s
    | .step mask => if s.thread = .running then s.step fds msec mask else none
    | .expire =>
      if s.thread = .suspended ∧ rtTickFromMillisecond msec > 0 then some s.resume else none
    | .block => if s.thread = .running ∧ s.canBlock then some { s with thread := .blocked } else none
    | .unblock => if s.thread = .blocked then some { s with thread := .running } else none
    | .wakeup queue key => some (s.wqueueWakeup queue key)
    | .otherAdd queue id key =>
      some { s with
        queues := update s.queues queue (s.queues queue ++ [.other id key]) }
    | .otherRemove queue id key =>
      some { s with
        queues := update s.queues queue ((s.queues queue).erase (.other id key)) }

end RtThread.Dfs
