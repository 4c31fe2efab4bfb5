import Mathlib.Algebra.Order.Ring.Nat
import RtThread.Lib.CyclicOrder
import RtThread.Lib.Transition

namespace RtThread.Driver

open RtThread.Lib

/-! `ringblk_buf.c`.  A block is named by its place in `blk_set`, and `blk_list` is the list
of those that are linked. -/

inductive BlkStatus
  | unused
  | inited
  | put
  | get
  deriving DecidableEq

structure Blk where
  status : BlkStatus
  size : Nat
  buf : Nat
  deriving DecidableEq

structure Rbb where
  buf : Nat
  bufSize : Nat
  blkSet : Nat → Blk
  blkMaxNum : Nat
  blkList : List Nat

structure BlkQueue where
  blocks : Nat
  blkNum : Nat
  deriving DecidableEq

def sizeSub (a b : Nat) : Nat := (a + (2 ^ 32 - b % 2 ^ 32)) % 2 ^ 32

theorem sizeSub_of_le {a b : Nat} (hle : b ≤ a) (hlt : a < 2 ^ 32) : sizeSub a b = a - b := by
  unfold sizeSub
  omega

def sizeAdd (a b : Nat) : Nat := (a + b) % 2 ^ 32

namespace Rbb

def rtRbbInit (buf bufSize : Nat) (blockSet : Nat → Blk) (blkMaxNum : Nat) : Rbb where
  buf := buf
  bufSize := bufSize
  blkSet := fun i => { blockSet i with status := .unused }
  blkMaxNum := blkMaxNum
  blkList := []

def setBlk (rbb : Rbb) (i : Nat) (blk : Blk) : Rbb :=
  { rbb with blkSet := Function.update rbb.blkSet i blk }

def findEmptyBlkInSet (rbb : Rbb) : Option Nat :=
  (List.range rbb.blkMaxNum).find? fun i => (rbb.blkSet i).status = .unused

def append (rbb : Rbb) (new buf blkSize : Nat) : Rbb :=
  { rbb.setBlk new { status := .inited, size := blkSize, buf := buf } with
    blkList := rbb.blkList ++ [new] }

def rtRbbBlkAlloc (rbb : Rbb) (blkSize : Nat) : Option Nat × Rbb :=
  match rbb.findEmptyBlkInSet with
  | none => (none, rbb)
  | some new =>
    if rbb.blkList.length < rbb.blkMaxNum then
      match rbb.blkList.head?, rbb.blkList.getLast? with
      | some first, some last =>
        let head := rbb.blkSet first
        let tail := rbb.blkSet last
        if head.buf ≤ tail.buf then
          let empty1 := sizeSub (rbb.buf + rbb.bufSize) (tail.buf + tail.size)
          let empty2 := sizeSub head.buf rbb.buf
          if empty1 ≥ blkSize then
            (some new, rbb.append new (tail.buf + tail.size) blkSize)
          else if empty2 ≥ blkSize then (some new, rbb.append new rbb.buf blkSize)
          else (none, rbb)
        else
          let empty1 := sizeSub head.buf (tail.buf + tail.size)
          if empty1 ≥ blkSize then
            (some new, rbb.append new (tail.buf + tail.size) blkSize)
          else (none, rbb)
      -- the list is empty
      | _, _ => (some new, rbb.append new rbb.buf blkSize)
    else (none, rbb)

def setStatus (rbb : Rbb) (i : Nat) (status : BlkStatus) : Rbb :=
  rbb.setBlk i { rbb.blkSet i with status := status }

def rtRbbBlkPut (rbb : Rbb) (block : Nat) : Option Rbb :=
  if (rbb.blkSet block).status = .inited then some (rbb.setStatus block .put) else none

def rtRbbBlkGet (rbb : Rbb) : Option Nat × Rbb :=
  match rbb.blkList.find? fun i => (rbb.blkSet i).status = .put with
  | none => (none, rbb)
  | some block => (some block, rbb.setStatus block .get)

def remove (rbb : Rbb) (block : Nat) : Rbb := { rbb with blkList := rbb.blkList.erase block }

def rtRbbBlkFree (rbb : Rbb) (block : Nat) : Option Rbb :=
  if (rbb.blkSet block).status ≠ .unused then
    some ((rbb.remove block).setStatus block .unused)
  else none

/-- The loop of `rt_rbb_blk_queue_get`: the rest of the list, the last block taken, and the
queue and its length so far.  Unlinking a node does not touch its `next`. -/
def queueLoop (queueDataLen : Nat) :
    List Nat → Option Nat → BlkQueue → Nat → Rbb → Nat × BlkQueue × Rbb
  | [], _, queue, total, rbb => (total, queue, rbb)
  | node :: rest, none, queue, total, rbb =>
    if (rbb.blkSet node).status = .put then
      queueLoop queueDataLen rest (some node) ⟨node, 1⟩ (sizeAdd total (rbb.blkSet node).size)
        ((rbb.remove node).setStatus node .get)
    else queueLoop queueDataLen rest none queue total rbb
  | node :: rest, some last, queue, total, rbb =>
    if (rbb.blkSet node).status ≠ .put ∨ (rbb.blkSet last).buf > (rbb.blkSet node).buf ∨
        sizeAdd total (rbb.blkSet node).size > queueDataLen then
      (total, queue, rbb)
    else
      queueLoop queueDataLen rest (some node) { queue with blkNum := queue.blkNum + 1 }
        (sizeAdd total (rbb.blkSet node).size) ((rbb.remove node).setStatus node .get)

def rtRbbBlkQueueGet (rbb : Rbb) (queueDataLen : Nat) (blkQueue : BlkQueue) :
    Nat × BlkQueue × Rbb :=
  queueLoop queueDataLen rbb.blkList none blkQueue 0 rbb

def freeBlocks : Nat → Nat → Rbb → Option Rbb
  | _, 0, rbb => some rbb
  | block, n + 1, rbb =>
    if block < rbb.blkMaxNum then (rbb.rtRbbBlkFree block).bind (freeBlocks (block + 1) n)
    else none

def rtRbbBlkQueueFree (rbb : Rbb) (blkQueue : BlkQueue) : Option Rbb :=
  freeBlocks blkQueue.blocks blkQueue.blkNum rbb

end Rbb

inductive RbbOp
  | blkAlloc (blkSize : Nat)
  | blkPut (block : Nat)
  | blkGet
  | blkFree (block : Nat)
  | blkQueueGet (queueDataLen : Nat)
  | blkQueueFree (queue : BlkQueue)
  deriving DecidableEq

def rbbMachine (buf bufSize blkMaxNum : Nat) : Machine Rbb RbbOp where
  init rbb := buf + bufSize < 2 ^ 32 ∧
    ∃ blockSet, rbb = Rbb.rtRbbInit buf bufSize blockSet blkMaxNum
  exec rbb
    | .blkAlloc blkSize => if blkSize < 2 ^ 24 then some (rbb.rtRbbBlkAlloc blkSize).2 else none
    | .blkPut block => if block < rbb.blkMaxNum then rbb.rtRbbBlkPut block else none
    | .blkGet => some rbb.rtRbbBlkGet.2
    | .blkFree block => if block < rbb.blkMaxNum then rbb.rtRbbBlkFree block else none
    | .blkQueueGet queueDataLen => some (rbb.rtRbbBlkQueueGet queueDataLen ⟨0, 0⟩).2.2
    | .blkQueueFree queue => rbb.rtRbbBlkQueueFree queue

end RtThread.Driver
