import RtThread.Lib.Transducer
import RtThread.Pthreads.RwLock

namespace RtThread.Pthreads

open Function RtThread.Lib

/-! Thread-specific data: `pthread_tls.c`, and the loop of `pthread_exit` over the keys.

A step is a call; in the loop it is the test of a key, or the read of its value with the call of the
destructor. -/

abbrev pthreadKeyMax : Nat := 8

abbrev eagain : Int := 11

structure PthreadKeyData where
  isUsed : Bool
  destructor : Nat
  deriving DecidableEq

/-- Where a thread is in the loop of `pthread_exit`. -/
inductive KeyPhase
  | running
  | testing (index : Nat)
  | reading (index : Nat)
  -- a destructor runs
  | calling (index : Nat)
  | gone
  deriving DecidableEq

/-- `_thread_keys`, and `tls` of each thread.  Pointers are numbers, with 0 for `NULL`.

History: `stored` has the last value that each thread stored under a key since the key was created,
or 0. -/
structure ThreadKeys where
  keys : Nat → PthreadKeyData
  tls : Nat → Option (Nat → Nat)
  phase : Nat → KeyPhase
  stored : Nat → Nat → Nat

inductive KeyCall
  | keyCreate (t : Nat) (destructor : Nat)
  | keyDelete (t : Nat) (key : Int)
  -- with the block that `rt_malloc` gives if it is called, and what it contains
  | setspecific (t : Nat) (key : Int) (value : Nat) (block : Option (Nat → Nat))
  | getspecific (t : Nat) (key : Int)
  | exit (t : Nat)
  -- the next step of the loop
  | walk (t : Nat)

inductive KeyEvent
  | created (key : Nat)
  | returns (result : Int)
  | value (value : Nat)
  | calls (destructor data : Nat)
  | proceeds
  -- memory outside the two tables is accessed
  | strays
  deriving DecidableEq

namespace ThreadKeys

/-- `pthread_key_system_init`, and threads that have called nothing yet. -/
def init : ThreadKeys := ⟨fun _ => ⟨false, 0⟩, fun _ => none, fun _ => .running, fun _ _ => 0⟩

/-- The test of a key, none if it reads outside `_thread_keys`. -/
def usedKey (key : Int) (s : ThreadKeys) : Option Bool :=
  if key < pthreadKeyMax then
    if key < 0 then none else some (s.keys key.toNat).isUsed
  else some false

def freeKey (s : ThreadKeys) : Option Nat :=
  (List.range pthreadKeyMax).find? fun index => !(s.keys index).isUsed

def setKey (index : Nat) (data : PthreadKeyData) (s : ThreadKeys) : ThreadKeys :=
  { s with keys := update s.keys index data }

def setPhase (t : Nat) (phase : KeyPhase) (s : ThreadKeys) : ThreadKeys :=
  { s with phase := update s.phase t phase }

def setTls (t : Nat) (table : Option (Nat → Nat)) (s : ThreadKeys) : ThreadKeys :=
  { s with tls := update s.tls t table }

def pthreadGetspecific (t : Nat) (key : Int) (s : ThreadKeys) : KeyEvent :=
  match s.tls t with
  | none => .value 0
  | some table =>
    match s.usedKey key with
    | none => .strays
    | some true => .value (table key.toNat)
    | some false => .value 0

def allocTls (t : Nat) (block : Option (Nat → Nat)) (s : ThreadKeys) : ThreadKeys :=
  match s.tls t with
  | none => s.setTls t block
  | some _ => s

def store (t index value : Nat) (table : Nat → Nat) (s : ThreadKeys) : ThreadKeys :=
  { s.setTls t (some (update table index value)) with
    stored := update s.stored t (update (s.stored t) index value) }

def pthreadSetspecific (t : Nat) (key : Int) (value : Nat) (block : Option (Nat → Nat))
    (s : ThreadKeys) : KeyEvent × ThreadKeys :=
  let s := s.allocTls t block
  match s.usedKey key with
  | none => (.strays, s)
  | some false => (.returns einval, s)
  | some true =>
    match s.tls t with
    | none => (.strays, s)
    | some table => (.returns 0, s.store t key.toNat value table)

def pthreadKeyCreate (destructor : Nat) (s : ThreadKeys) : KeyEvent × ThreadKeys :=
  match s.freeKey with
  | none => (.returns eagain, s)
  | some index =>
    (.created index,
      { s.setKey index ⟨true, destructor⟩ with
        stored := fun t => update (s.stored t) index 0 })

def pthreadKeyDelete (key : Int) (s : ThreadKeys) : KeyEvent × ThreadKeys :=
  if pthreadKeyMax ≤ key then (.returns einval, s)
  else if key < 0 then (.strays, s)
  else (.returns 0, s.setKey key.toNat ⟨false, 0⟩)

/-- `pthread_exit`, behind the cleanup handlers. -/
def pthreadExit (t : Nat) (s : ThreadKeys) : ThreadKeys :=
  match s.tls t with
  | none => s.setPhase t .gone
  | some _ => s.setPhase t (.testing 0)

def pthreadExitLoop (t : Nat) (s : ThreadKeys) : Option (KeyEvent × ThreadKeys) :=
  match s.phase t with
  | .testing index =>
    if index < pthreadKeyMax then
      if (s.keys index).isUsed then some (.proceeds, s.setPhase t (.reading index))
      else some (.proceeds, s.setPhase t (.testing (index + 1)))
    else some (.proceeds, (s.setTls t none).setPhase t .gone)
  | .reading index =>
    match s.tls t with
    | none => some (.strays, s)
    | some table =>
      if table index ≠ 0 then
        some (.calls (s.keys index).destructor (table index), s.setPhase t (.calling index))
      else some (.proceeds, s.setPhase t (.testing (index + 1)))
  | .calling index => some (.proceeds, s.setPhase t (.testing (index + 1)))
  | .running | .gone => none

def mayCall (t : Nat) (s : ThreadKeys) : Bool :=
  match s.phase t with
  | .running | .calling _ => true
  | _ => false

end ThreadKeys

def threadKeys : Transducer ThreadKeys KeyCall KeyEvent where
  step s
    | .keyCreate t destructor => if s.mayCall t then some (s.pthreadKeyCreate destructor) else none
    | .keyDelete t key => if s.mayCall t then some (s.pthreadKeyDelete key) else none
    | .setspecific t key value block =>
      if s.mayCall t then some (s.pthreadSetspecific t key value block) else none
    | .getspecific t key => if s.mayCall t then some (s.pthreadGetspecific t key, s) else none
    | .exit t => if s.mayCall t then some (.proceeds, s.pthreadExit t) else none
    | .walk t => s.pthreadExitLoop t

namespace ThreadKeys

def Live (key : Int) (s : ThreadKeys) : Prop := s.usedKey key = some true

instance (key : Int) (s : ThreadKeys) : Decidable (s.Live key) := inferInstanceAs (Decidable (_ = _))

/-- What `pthread_getspecific` is to return. -/
def expected (t : Nat) (key : Int) (s : ThreadKeys) : Nat :=
  if s.Live key then s.stored t key.toNat else 0

def ReadsRight (s : ThreadKeys) : Prop :=
  ∀ t, s.phase t ≠ .gone → ∀ key, 0 ≤ key →
    s.pthreadGetspecific t key = .value (s.expected t key)

end ThreadKeys

def KeyCall.EventRight (s : ThreadKeys) : KeyCall → KeyEvent → Prop
  | .setspecific t key _ block, event =>
    ∃ result, event = .returns result ∧
      (result ≠ 0 ↔ ¬ s.Live key ∨ s.tls t = none ∧ block = none)
  | .getspecific t key, event => event = .value (s.expected t key)
  | .walk t, .calls destructor data =>
    ∃ index < pthreadKeyMax, s.phase t = .reading index ∧ s.Live index ∧
      destructor = (s.keys index).destructor ∧ data ≠ 0 ∧ data = s.stored t index
  | _, event => event ≠ .strays

def KeyRight (s : ThreadKeys) (call : KeyCall) : Prop :=
  ∀ event s', threadKeys.step s call = some (event, s') →
    call.EventRight s event ∧ s'.ReadsRight

namespace ThreadKeys

/-- The key is not negative, and a table is allocated if there is none, without values for the other
live keys. -/
def SetFine (t : Nat) (key : Int) (block : Option (Nat → Nat)) (s : ThreadKeys) : Prop :=
  0 ≤ key ∧ (s.tls t = none →
    match block with
    | none => ¬ s.Live key
    | some table => ∀ index < pthreadKeyMax, (index : Int) ≠ key → s.Live index → table index = 0)

end ThreadKeys

/-- The calls that keep the law: a new table has no values in the live keys, a new key has none in
the tables, no key is negative, and a key is not deleted between its test and its destructor. -/
def KeyFine (s : ThreadKeys) : KeyCall → Prop
  | .keyCreate t _ => s.mayCall t → ∀ index, s.freeKey = some index →
      ∀ t' table, s.tls t' = some table → table index = 0
  | .keyDelete t key => s.mayCall t → 0 ≤ key
  | .setspecific t key _ block => s.mayCall t → s.SetFine t key block
  | .getspecific t key => s.mayCall t → 0 ≤ key ∨ s.tls t = none
  | .exit _ => True
  | .walk t => ∀ index table, s.phase t = .reading index → s.tls t = some table →
      table index ≠ 0 → s.Live index

end RtThread.Pthreads
