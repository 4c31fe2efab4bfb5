import RtThread.Kernel.Align
import RtThread.Lib.ByteMemory
import RtThread.Lib.Transition

namespace RtThread.Mem

open RtThread.Lib

/-! The small memory allocator of `mem.c`, 32-bit build with `RT_MEM_STATS`.  The
heap is the byte array `heap_ptr[]`; headers, `lfree` and `heap_end` are given by
their offsets in it, pointers of clients by their address. -/

structure MemConfig where
  alignBits : Nat
  memtrace : Bool
  alignBits_le : alignBits ≤ 30

namespace MemConfig

def alignSize (cfg : MemConfig) : Nat := 2 ^ cfg.alignBits

def sizeofHeapMem (cfg : MemConfig) : Nat := if cfg.memtrace then 16 else 12

def sizeofStructMem (cfg : MemConfig) : Nat := rtAlign cfg.sizeofHeapMem cfg.alignSize

def minSizeAligned (cfg : MemConfig) : Nat := rtAlign 12 cfg.alignSize

end MemConfig

abbrev heapMagic : Nat := 0x1ea0

abbrev minSize : Nat := 12

def magicOf (heap : ByteMemory) (mem : Nat) : Nat := heap.readWord mem 2
def usedOf (heap : ByteMemory) (mem : Nat) : Nat := heap.readWord (mem + 2) 2
def nextOf (heap : ByteMemory) (mem : Nat) : Nat := heap.readWord (mem + 4) 4
def prevOf (heap : ByteMemory) (mem : Nat) : Nat := heap.readWord (mem + 8) 4

def setMagic (heap : ByteMemory) (mem value : Nat) : ByteMemory :=
  heap.writeWord mem 2 value
def setUsed (heap : ByteMemory) (mem value : Nat) : ByteMemory :=
  heap.writeWord (mem + 2) 2 value
def setNext (heap : ByteMemory) (mem value : Nat) : ByteMemory :=
  heap.writeWord (mem + 4) 4 value
def setPrev (heap : ByteMemory) (mem value : Nat) : ByteMemory :=
  heap.writeWord (mem + 8) 4 value

/-- A name cut or filled up with blanks to the four bytes of `thread`. -/
def fourChars (name : List UInt8) : List UInt8 :=
  (name.takeWhile (· ≠ 0) ++ [32, 32, 32, 32]).take 4

def rtMemSetname (cfg : MemConfig) (mem : Nat) (name : List UInt8) (heap : ByteMemory) :
    ByteMemory :=
  if cfg.memtrace then heap.writeBytes (mem + 12) (fourChars name) else heap

structure SmallMem where
  heap : ByteMemory
  heapPtr : Nat
  heapEnd : Nat
  lfree : Nat
  memSizeAligned : Nat
  usedMem : Nat
  maxMem : Nat

def plugForward (mem : Nat) (s : SmallMem) : SmallMem :=
  let nmem := nextOf s.heap mem
  if mem ≠ nmem ∧ usedOf s.heap nmem = 0 ∧ nmem ≠ s.heapEnd then
    let heap := setNext s.heap mem (nextOf s.heap nmem)
    { s with
      lfree := if s.lfree = nmem then mem else s.lfree
      heap := setPrev heap (nextOf heap nmem) mem }
  else s

def plugBackward (mem : Nat) (s : SmallMem) : SmallMem :=
  let pmem := prevOf s.heap mem
  if pmem ≠ mem ∧ usedOf s.heap pmem = 0 then
    let heap := setNext s.heap pmem (nextOf s.heap mem)
    { s with
      lfree := if s.lfree = mem then pmem else s.lfree
      heap := setPrev heap (nextOf heap mem) pmem }
  else s

def plugHoles (mem : Nat) (s : SmallMem) : Option SmallMem :=
  -- `RT_ASSERT`
  if mem < s.heapEnd ∧ usedOf s.heap mem = 0 then
    some (plugBackward mem (plugForward mem s))
  else none

def createMem2 (cfg : MemConfig) (mem mem2 : Nat) (heap : ByteMemory) : ByteMemory :=
  let heap := setMagic heap mem2 heapMagic
  let heap := setUsed heap mem2 0
  let heap := setNext heap mem2 (nextOf heap mem)
  let heap := setPrev heap mem2 mem
  rtMemSetname cfg mem2 [32, 32, 32, 32] heap

/-- The header behind `mem2` learns of it, unless it is the last one. -/
def relinkNext (cfg : MemConfig) (memSizeAligned mem2 : Nat) (heap : ByteMemory) : ByteMemory :=
  if nextOf heap mem2 ≠ memSizeAligned + cfg.sizeofStructMem then
    setPrev heap (nextOf heap mem2) mem2
  else heap

def countUsed (size : Nat) (s : SmallMem) : SmallMem :=
  let usedMem := add32 s.usedMem size
  { s with
    usedMem := usedMem
    maxMem := if s.maxMem < usedMem then usedMem else s.maxMem }

def mallocSplit (cfg : MemConfig) (size ptr : Nat) (s : SmallMem) : SmallMem :=
  let ptr2 := ptr + cfg.sizeofStructMem + size
  let heap := createMem2 cfg ptr ptr2 s.heap
  let heap := setUsed (setNext heap ptr ptr2) ptr 1
  countUsed (size + cfg.sizeofStructMem)
    { s with heap := relinkNext cfg s.memSizeAligned ptr2 heap }

def mallocWhole (ptr : Nat) (s : SmallMem) : SmallMem :=
  let heap := setUsed s.heap ptr 1
  countUsed (sub32 (nextOf heap ptr) ptr) { s with heap := heap }

/-- The loop that moves `lfree` on, with `fuel` for its iterations. -/
def findFree (heap : ByteMemory) (heapEnd : Nat) : Nat → Nat → Option Nat
  | 0, _ => none
  | fuel + 1, lfree =>
    if usedOf heap lfree ≠ 0 ∧ lfree ≠ heapEnd then
      findFree heap heapEnd fuel (nextOf heap lfree)
    else some lfree

/-- `lfree` after the block at `ptr` has been taken, with the test of `RT_ASSERT`. -/
def nextLfree (ptr : Nat) (s : SmallMem) : Option Nat :=
  if ptr = s.lfree then
    (findFree s.heap s.heapEnd (s.heapEnd + 1) s.lfree).filter fun lfree =>
      lfree = s.heapEnd ∨ usedOf s.heap lfree = 0
  else some s.lfree

/-- What `rt_malloc` does with the block it has found; `self` is the name of the
calling thread. -/
def mallocFound (cfg : MemConfig) (self : List UInt8) (size ptr : Nat) (s : SmallMem) :
    Option (Nat × SmallMem) := do
  let s :=
    if size + cfg.sizeofStructMem + cfg.minSizeAligned ≤
        sub32 (nextOf s.heap ptr) (ptr + cfg.sizeofStructMem) then
      mallocSplit cfg size ptr s
    else mallocWhole ptr s
  let s := { s with heap := rtMemSetname cfg ptr self (setMagic s.heap ptr heapMagic) }
  let lfree ← nextLfree ptr s
  -- `RT_ASSERT`
  if ptr + cfg.sizeofStructMem + size ≤ s.heapEnd ∧
      (s.heapPtr + ptr + cfg.sizeofStructMem) % cfg.alignSize = 0 ∧
      (s.heapPtr + ptr) &&& (cfg.alignSize - 1) = 0 then
    some (s.heapPtr + ptr + cfg.sizeofStructMem, { s with lfree := lfree })
  else none

def mallocLoop (cfg : MemConfig) (self : List UInt8) (size : Nat) (s : SmallMem) :
    Nat → Nat → Option (Nat × SmallMem)
  | 0, _ => none
  | fuel + 1, ptr =>
    if ptr < sub32 s.memSizeAligned size then
      if usedOf s.heap ptr = 0 ∧
          size ≤ sub32 (nextOf s.heap ptr) (ptr + cfg.sizeofStructMem) then
        mallocFound cfg self size ptr s
      else mallocLoop cfg self size s fuel (nextOf s.heap ptr)
    else some (0, s)

def rtMalloc (cfg : MemConfig) (self : List UInt8) (size : Nat) (s : SmallMem) :
    Option (Nat × SmallMem) :=
  if size = 0 then some (0, s)
  else
    let size := rtAlign size cfg.alignSize
    if s.memSizeAligned < size then some (0, s)
    else
      let size := if size < cfg.minSizeAligned then cfg.minSizeAligned else size
      mallocLoop cfg self size s (s.heapEnd + 1) s.lfree

def rtFree (cfg : MemConfig) (rmem : Nat) (s : SmallMem) : Option SmallMem :=
  if rmem = 0 then some s
  else
    let mem := rmem - cfg.sizeofStructMem - s.heapPtr
    -- `RT_ASSERT`
    if rmem &&& (cfg.alignSize - 1) = 0 ∧ s.heapPtr ≤ rmem ∧ rmem < s.heapPtr + s.heapEnd ∧
        usedOf s.heap mem ≠ 0 ∧ magicOf s.heap mem = heapMagic then
      let heap := setMagic (setUsed s.heap mem 0) mem heapMagic
      let heap := rtMemSetname cfg mem [32, 32, 32, 32] heap
      plugHoles mem
        { s with
          heap := heap
          lfree := if mem < s.lfree then mem else s.lfree
          usedMem := sub32 s.usedMem (sub32 (nextOf heap mem) mem) }
    else none

def reallocShrink (cfg : MemConfig) (ptr size newsize : Nat) (s : SmallMem) : Option SmallMem :=
  let ptr2 := ptr + cfg.sizeofStructMem + newsize
  let heap := setNext (createMem2 cfg ptr ptr2 s.heap) ptr ptr2
  plugHoles ptr2
    { s with
      heap := relinkNext cfg s.memSizeAligned ptr2 heap
      usedMem := sub32 s.usedMem (size - newsize) }

def reallocMove (cfg : MemConfig) (self : List UInt8) (rmem size newsize : Nat)
    (s : SmallMem) : Option (Nat × SmallMem) := do
  let (nmem, s) ← rtMalloc cfg self newsize s
  if nmem ≠ 0 then
    let count := if size < newsize then size else newsize
    let bytes := s.heap.readBytes (rmem - s.heapPtr) count
    let s ← rtFree cfg rmem { s with heap := s.heap.writeBytes (nmem - s.heapPtr) bytes }
    return (nmem, s)
  else return (nmem, s)

def rtRealloc (cfg : MemConfig) (self : List UInt8) (rmem newsize : Nat) (s : SmallMem) :
    Option (Nat × SmallMem) :=
  let newsize := rtAlign newsize cfg.alignSize
  if s.memSizeAligned < newsize then some (0, s)
  else if newsize = 0 then (rtFree cfg rmem s).map ((0, ·))
  else if rmem = 0 then rtMalloc cfg self newsize s
  else if rmem < s.heapPtr ∨ s.heapPtr + s.heapEnd ≤ rmem then some (rmem, s)
  else
    let ptr := rmem - cfg.sizeofStructMem - s.heapPtr
    let size := sub32 (nextOf s.heap ptr) (ptr + cfg.sizeofStructMem)
    if size = newsize then some (rmem, s)
    else if newsize + cfg.sizeofStructMem + minSize < size then
      (reallocShrink cfg ptr size newsize s).map ((rmem, ·))
    else reallocMove cfg self rmem size newsize s

def rtCalloc (cfg : MemConfig) (self : List UInt8) (count size : Nat) (s : SmallMem) :
    Option (Nat × SmallMem) := do
  let total := count * size % 2 ^ 32
  let (p, s) ← rtMalloc cfg self total s
  if p ≠ 0 then
    let zeros := List.replicate total 0
    return (p, { s with heap := s.heap.writeBytes (p - s.heapPtr) zeros })
  else return (p, s)

def rtSystemHeapInit (cfg : MemConfig) (beginAddr endAddr : Nat) (s : SmallMem) : SmallMem :=
  let beginAlign := rtAlign beginAddr cfg.alignSize
  let endAlign := rtAlignDown endAddr cfg.alignSize
  if 2 * cfg.sizeofStructMem < endAlign ∧
      beginAlign ≤ endAlign - 2 * cfg.sizeofStructMem then
    let memSizeAligned := endAlign - beginAlign - 2 * cfg.sizeofStructMem
    let heapEnd := memSizeAligned + cfg.sizeofStructMem
    let init := [73, 78, 73, 84]
    let heap := setNext (setMagic s.heap 0 heapMagic) 0 heapEnd
    let heap := rtMemSetname cfg 0 init (setUsed (setPrev heap 0 0) 0 0)
    let heap := setUsed (setMagic heap heapEnd heapMagic) heapEnd 1
    let heap := setPrev (setNext heap heapEnd heapEnd) heapEnd heapEnd
    { s with
      memSizeAligned := memSizeAligned
      heapPtr := beginAlign
      heapEnd := heapEnd
      heap := rtMemSetname cfg heapEnd init heap
      lfree := 0 }
  else s

/-- A pointer that a client has got and not given back, and the size it asked for. -/
structure Live where
  ptr : Nat
  size : Nat
  deriving DecidableEq

structure HeapSystem extends SmallMem where
  live : List Live
  result : Nat

inductive HeapOp
  | malloc (self : List UInt8) (size : Nat)
  | realloc (self : List UInt8) (rmem newsize : Nat)
  | free (rmem : Nat)
  -- a client stores a byte in the memory it has got
  | store (rmem index : Nat) (byte : UInt8)
  deriving DecidableEq

/-- A client passes `NULL` or a live pointer, does not ask for more than the size of
the heap, and keeps to what it has asked for. -/
def HeapSystem.enabled (s : HeapSystem) : HeapOp → Bool
  | .malloc _ size => size ≤ s.memSizeAligned
  | .realloc _ rmem newsize =>
    (rmem = 0 ∨ rmem ∈ s.live.map Live.ptr) ∧ newsize ≤ s.memSizeAligned
  | .free rmem => rmem = 0 ∨ rmem ∈ s.live.map Live.ptr
  | .store rmem index _ => ∃ x ∈ s.live, x.ptr = rmem ∧ index < x.size

def dropLive (rmem : Nat) (live : List Live) : List Live := live.filter (·.ptr ≠ rmem)

def HeapSystem.exec (cfg : MemConfig) (s : HeapSystem) (op : HeapOp) : Option HeapSystem :=
  if s.enabled op then
    match op with
    | .malloc self size =>
      (rtMalloc cfg self size s.toSmallMem).map fun (p, mem) =>
        { toSmallMem := mem
          live := if p = 0 then s.live else ⟨p, size⟩ :: s.live
          result := p }
    | .realloc self rmem newsize =>
      (rtRealloc cfg self rmem newsize s.toSmallMem).map fun (p, mem) =>
        { toSmallMem := mem
          live :=
            if newsize = 0 then dropLive rmem s.live
            else if p = 0 then s.live
            else ⟨p, newsize⟩ :: dropLive rmem s.live
          result := p }
    | .free rmem =>
      (rtFree cfg rmem s.toSmallMem).map fun mem =>
        { toSmallMem := mem, live := dropLive rmem s.live, result := 0 }
    | .store rmem index byte =>
      some { s with
        heap := s.heap.writeBytes (rmem - s.heapPtr + index) [byte], result := 0 }
  else none

/-- A heap that `rt_system_heap_init` has accepted, before any other call. -/
def HeapSystem.Initial (cfg : MemConfig) (s : HeapSystem) : Prop :=
  ∃ beginAddr endAddr before, endAddr < 2 ^ 32 ∧
    2 * cfg.sizeofStructMem < rtAlignDown endAddr cfg.alignSize ∧
    rtAlign beginAddr cfg.alignSize ≤ rtAlignDown endAddr cfg.alignSize - 2 * cfg.sizeofStructMem ∧
    s.toSmallMem = rtSystemHeapInit cfg beginAddr endAddr before ∧
    before.usedMem = 0 ∧ before.maxMem = 0 ∧ s.live = []

def heapMachine (cfg : MemConfig) : Machine HeapSystem HeapOp where
  init := HeapSystem.Initial cfg
  exec := HeapSystem.exec cfg

end RtThread.Mem
