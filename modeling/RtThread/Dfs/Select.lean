import RtThread.Dfs.Poll
import RtThread.Lib.Bits

namespace RtThread.Dfs

open Function RtThread.Lib

/-! `select` over `poll`.  The sets lie within `FD_SETSIZE`, an `fd_mask` has 32 bits, and the time
limit only decides how often `poll` looks. -/

abbrev FdSet := Nat → BitVec 32

namespace FdSet

def isset (fd : Nat) (set : FdSet) : Bool := set (fd / 32) &&& 1#32 <<< (fd % 32) ≠ 0#32

def set (fd : Nat) (set : FdSet) : FdSet :=
  update set (fd / 32) (set (fd / 32) ||| 1#32 <<< (fd % 32))

def fdszero (set : FdSet) (nfds : Nat) : FdSet :=
  (List.range ((nfds + 31) / 32)).foldl (fun set m => update set m 0) set

section Laws

variable (words : FdSet) (fd : Nat)

theorem isset_eq_getLsbD : isset fd words = (words (fd / 32)).getLsbD (fd % 32) := by
  have hbit : fd % 32 < 32 := Nat.mod_lt _ (by decide)
  rw [isset, Bool.eq_iff_iff, decide_eq_true_eq, ne_zero_iff_exists_bit]
  constructor
  · intro ⟨i, hi⟩
    rw [BitVec.getLsbD_and, getLsbD_mask hbit, Bool.and_eq_true, decide_eq_true_eq] at hi
    rw [← hi.2]
    exact hi.1
  · intro h
    refine ⟨fd % 32, ?_⟩
    rw [BitVec.getLsbD_and, getLsbD_mask hbit, h, decide_eq_true rfl]
    rfl

theorem isset_set (other : Nat) :
    isset fd (set other words) = (isset fd words || decide (fd = other)) := by
  rw [isset_eq_getLsbD, isset_eq_getLsbD, set]
  by_cases hword : fd / 32 = other / 32
  · rw [hword, update_self, getLsbD_or_mask _ (Nat.mod_lt _ (by decide))]
    have hsame : fd % 32 = other % 32 ↔ fd = other := by omega
    rw [decide_eq_decide.mpr hsame]
  · have hne : fd ≠ other := fun h => hword (congrArg (· / 32) h)
    rw [update_of_ne hword, decide_eq_false hne, Bool.or_false]

theorem isset_foldl_set (fds : List Nat) :
    isset fd (fds.foldl (fun set fd => FdSet.set fd set) words) =
      (isset fd words || decide (fd ∈ fds)) := by
  induction fds generalizing words with
  | nil => simp
  | cons other fds ih =>
    rw [List.foldl_cons, ih, isset_set, Bool.or_assoc, ← Bool.decide_or]
    simp only [List.mem_cons]

theorem foldl_update_zero (count m : Nat) :
    (List.range count).foldl (fun set m => update set m 0) words m =
      if m < count then 0 else words m := by
  induction count with
  | zero => rfl
  | succ count ih =>
    rw [List.range_succ, List.foldl_append, List.foldl_cons, List.foldl_nil]
    by_cases hm : m = count
    · rw [hm, update_self, if_pos (Nat.lt_succ_self _)]
    · rw [update_of_ne hm, ih]
      have hsame : m < count ↔ m < count + 1 := by omega
      rw [if_congr hsame rfl rfl]

theorem isset_fdszero {nfds : Nat} (hfd : fd < nfds) : isset fd (fdszero words nfds) = false := by
  have hword : fd / 32 < (nfds + 31) / 32 := by omega
  rw [isset_eq_getLsbD, fdszero, foldl_update_zero, if_pos hword]
  exact BitVec.getLsbD_zero

end Laws

end FdSet

abbrev pollIn : BitVec 16 := 0x1

abbrev pollOut : BitVec 16 := 0x2

abbrev pollErr : BitVec 16 := 0x4

abbrev pollHup : BitVec 16 := 0x8

structure Pollfd where
  fd : Nat
  events : BitVec 16
  revents : BitVec 16
  deriving DecidableEq

/-- What the descriptors stand for, and what the drivers find in the round after which `poll`
returns -/
structure PollRound where
  find : Nat → PollFile
  mask : Nat → BitVec 32

namespace PollRound

variable (round : PollRound)

def doPollfd (pollfd : Pollfd) : BitVec 32 :=
  Poll.testMask ⟨round.find pollfd.fd, pollfd.events⟩ (round.mask pollfd.fd)

def filled (pollfd : Pollfd) : Pollfd :=
  { pollfd with revents := (round.doPollfd pollfd).truncate 16 }

def poll (fds : List Pollfd) : List Pollfd × Nat :=
  (fds.map round.filled, fds.countP (round.doPollfd · ≠ 0))

def found (fd : Nat) : BitVec 16 :=
  match round.find fd with
  | .negative => 0
  | .unused => 0
  | .plain => pollMaskDefault.truncate 16
  | .driver _ => (round.mask fd).truncate 16

end PollRound

structure FdSets where
  readfds : Option FdSet
  writefds : Option FdSet
  exceptfds : Option FdSet

def inSet (fd : Nat) (set : Option FdSet) : Bool := set.any (FdSet.isset fd)

def pollEvents (read write : Bool) : BitVec 16 :=
  (if read then pollIn else 0) ||| (if write then pollOut else 0)

namespace FdSets

variable (sets : FdSets)

def asked (fd : Nat) : Bool :=
  inSet fd sets.readfds || inSet fd sets.writefds || inSet fd sets.exceptfds

def entry (fd : Nat) : Pollfd where
  fd := fd
  events := pollEvents (inSet fd sets.readfds) (inSet fd sets.writefds)
  revents := 0

def pollset (nfds : Nat) : List Pollfd :=
  ((List.range nfds).filter sets.asked).map sets.entry

def fdszero (nfds : Nat) : FdSets where
  readfds := sets.readfds.map (·.fdszero nfds)
  writefds := sets.writefds.map (·.fdszero nfds)
  exceptfds := sets.exceptfds.map (·.fdszero nfds)

end FdSets

def report (event : BitVec 16) (pollfd : Pollfd) (set : Option FdSet) (ret : Nat) :
    Option FdSet × Nat :=
  match set with
  | none => (none, ret)
  | some words =>
    if pollfd.revents &&& event ≠ 0 then (some (words.set pollfd.fd), ret + 1)
    else (some words, ret)

def convert (sets : FdSets × Nat) (pollfd : Pollfd) : FdSets × Nat :=
  let (readfds, ret) := report (pollIn ||| pollHup) pollfd sets.1.readfds sets.2
  let (writefds, ret) := report pollOut pollfd sets.1.writefds ret
  let (exceptfds, ret) := report pollErr pollfd sets.1.exceptfds ret
  (⟨readfds, writefds, exceptfds⟩, ret)

/-- `calloc` says whether the poll list can be allocated. -/
def select (calloc : Bool) (round : PollRound) (nfds : Int) (sets : FdSets) : Int × FdSets :=
  let pollset := sets.pollset nfds.toNat
  if pollset.length > 0 ∧ calloc = false then (-1, sets)
  else
    let (pollset, ret) := round.poll pollset
    let sets := sets.fdszero nfds.toNat
    if ret > 0 then
      let (sets, ret) := pollset.foldl convert (sets, 0)
      (ret, sets)
    else (ret, sets)

end RtThread.Dfs
