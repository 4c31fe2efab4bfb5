import Mathlib.Algebra.Order.Ring.Nat
import Mathlib.Data.List.Range
import RtThread.Lib.Transition

namespace RtThread.Pthreads

open RtThread.Lib

/-! The named semaphores of `semaphore.c`, with pointers of 32 bits, the low byte first.  Each call
holds `posix_sem_lock`. -/

abbrev rtNameMax : Nat := 8

/-- A `sem_t` at `addr`; `name` is in the semaphore that `sem` points to.

History: the numbers of the two allocations. -/
structure PosixSem where
  addr : Nat
  refcount : Nat
  unlinked : Bool
  sem : Nat
  name : List UInt8
  block : Nat
  object : Nat
  deriving DecidableEq

inductive SemErrno
  | eexist
  | enoent
  | enfile
  deriving DecidableEq

/-- `posix_sem_list`.

History: the handles that are open, the number of allocations, and those that were released. -/
structure SemSystem where
  list : List PosixSem
  handles : List Nat
  allocated : Nat
  released : List Nat
  deriving DecidableEq

def strncmpZero : Nat → List UInt8 → List UInt8 → Bool
  | 0, _, _ => true
  | count + 1, a :: as, b :: bs =>
    if a ≠ b then false
    else if a = 0 then true
    else strncmpZero count as bs
  | _, _, _ => false

def pointerBytes (pointer : Nat) : List UInt8 :=
  [.ofNat pointer, .ofNat (pointer / 2 ^ 8), .ofNat (pointer / 2 ^ 16), .ofNat (pointer / 2 ^ 24)]

def nextPointer : List PosixSem → Nat
  | [] => 0
  | psem :: _ => psem.addr

/-- `posix_sem_find`: the object is taken to be at `&(iter->sem)`, so that the pointers `sem` and
`next` are read as its name. -/
def posixSemFind (name : List UInt8) : List PosixSem → Option PosixSem
  | [] => none
  | iter :: rest =>
    if strncmpZero rtNameMax (pointerBytes iter.sem ++ pointerBytes (nextPointer rest)) (name ++ [0])
    then some iter
    else posixSemFind name rest

def removeSem (addr : Nat) : List PosixSem → List PosixSem
  | [] => []
  | iter :: rest => if iter.addr = addr then rest else iter :: removeSem addr rest

def storeSem (psem : PosixSem) (list : List PosixSem) : List PosixSem :=
  list.map fun iter => if iter.addr = psem.addr then psem else iter

namespace PosixSem

def blocks (psem : PosixSem) : List Nat := [psem.block, psem.object]

end PosixSem

namespace SemSystem

def posixSemInsert (psem : PosixSem) (s : SemSystem) : SemSystem := { s with list := psem :: s.list }

def posixSemDelete (psem : PosixSem) (s : SemSystem) : SemSystem :=
  { s with list := removeSem psem.addr s.list, released := psem.blocks ++ s.released }

def store (psem : PosixSem) (s : SemSystem) : SemSystem := { s with list := storeSem psem s.list }

/-- Where `sem_open` creates a semaphore; `block` and `object` are what `rt_malloc` and
`rt_sem_create` return. -/
def createSem (name : List UInt8) (block object : Option Nat) (s : SemSystem) :
    Except SemErrno Nat × SemSystem :=
  match block with
  | none => (.error .enfile, s)
  | some addr =>
    match object with
    | none =>
      -- create failed: release allocated memory
      (.error .enfile,
        { s with allocated := s.allocated + 1, released := s.allocated :: s.released })
    | some sem =>
      let psem := ⟨addr, 1, false, sem, name, s.allocated, s.allocated + 1⟩
      (.ok addr, { s with allocated := s.allocated + 2 }.posixSemInsert psem)

def semOpen (name : List UInt8) (creat excl : Bool) (block object : Option Nat) (s : SemSystem) :
    Except SemErrno Nat × SemSystem :=
  if creat then
    if excl && (posixSemFind name s.list).isSome then (.error .eexist, s)
    else s.createSem name block object
  else
    match posixSemFind name s.list with
    | none => (.error .enoent, s)
    | some psem =>
      (.ok psem.addr, s.store { psem with refcount := (psem.refcount + 1) % 2 ^ 16 })

def semClose (psem : PosixSem) (s : SemSystem) : SemSystem :=
  let psem := { psem with refcount := (psem.refcount + (2 ^ 16 - 1)) % 2 ^ 16 }
  if psem.refcount = 0 then
    if psem.unlinked then (s.store psem).posixSemDelete psem else s.store psem
  else s.store psem

def semUnlink (name : List UInt8) (s : SemSystem) : Except SemErrno Unit × SemSystem :=
  match posixSemFind name s.list with
  | none => (.error .enoent, s)
  | some psem =>
    let psem := { psem with unlinked := true }
    if psem.refcount = 0 then (.ok (), (s.store psem).posixSemDelete psem)
    else (.ok (), s.store psem)

end SemSystem

inductive SemOp
  | openSem (name : List UInt8) (creat excl : Bool) (block object : Option Nat)
  | close (addr : Nat)
  | unlink (name : List UInt8)
  deriving DecidableEq

inductive SemResult
  | handle (addr : Nat)
  | ok
  | error (errno : SemErrno)
  deriving DecidableEq

namespace SemSystem

def Fresh (s : SemSystem) (pointer : Option Nat) : Prop :=
  ∀ addr ∈ pointer, 0 < addr ∧ addr < 2 ^ 32 ∧ ∀ psem ∈ s.list, psem.addr ≠ addr ∧ psem.sem ≠ addr

instance (s : SemSystem) (pointer : Option Nat) : Decidable (s.Fresh pointer) :=
  inferInstanceAs (Decidable (∀ _ ∈ pointer, _ ∧ _ ∧ _))

def ValidName (name : List UInt8) : Prop := name.length < rtNameMax ∧ 0 ∉ name

instance (name : List UInt8) : Decidable (ValidName name) := inferInstanceAs (Decidable (_ ∧ _))

/-- A call with its result; `none` if the allocator or the caller breaks its contract, or if the
semaphore of a handle is no more. -/
def call (s : SemSystem) : SemOp → Option (SemResult × SemSystem)
  | .openSem name creat excl block object =>
    if ValidName name ∧ s.Fresh block ∧ s.Fresh object then
      match s.semOpen name creat excl block object with
      | (.ok addr, s) => some (.handle addr, { s with handles := addr :: s.handles })
      | (.error errno, s) => some (.error errno, s)
    else none
  | .close addr =>
    if addr ∈ s.handles then
      match s.list.find? fun psem => psem.addr = addr with
      | none => none
      | some psem =>
        some (.ok, s.semClose psem |> fun s => { s with handles := s.handles.erase addr })
    else none
  | .unlink name =>
    if ValidName name then
      match s.semUnlink name with
      | (.ok (), s) => some (.ok, s)
      | (.error errno, s) => some (.error errno, s)
    else none

end SemSystem

def semMachine : Machine SemSystem SemOp where
  init s := s = ⟨[], [], 0, []⟩
  exec s op := (s.call op).map Prod.snd

end RtThread.Pthreads
