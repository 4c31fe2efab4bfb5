import RtThread.Mem.SmallMem

namespace RtThread.Memheap

open RtThread.Lib RtThread.Mem

/-! The heap of `memheap.c`, 32-bit build.  All pointers are addresses of the byte memory, `NULL`
is 0, and a `struct rt_memheap_item` has 24 bytes. -/

/-- `RT_ALIGN_SIZE`, and the size of `struct rt_object`. -/
structure MemheapConfig where
  alignBits : Nat
  objectSize : Nat
  alignBits_le : alignBits ≤ 30

namespace MemheapConfig

def alignSize (cfg : MemheapConfig) : Nat := 2 ^ cfg.alignBits

def memheapSize (cfg : MemheapConfig) : Nat := rtAlign 24 cfg.alignSize

def freeHeaderOffset (cfg : MemheapConfig) : Nat := cfg.objectSize + 24

end MemheapConfig

abbrev memheapMagic : Nat := 0x1ea01ea0

abbrev memheapMask : Nat := 0xfffffffe

abbrev memheapUsed : Nat := 0x01

abbrev memheapMinialloc : Nat := 12

inductive ItemField
  | magic
  | poolPtr
  | next
  | prev
  | nextFree
  | prevFree
  deriving DecidableEq

def ItemField.offset : ItemField → Nat
  | .magic => 0
  | .poolPtr => 4
  | .next => 8
  | .prev => 12
  | .nextFree => 16
  | .prevFree => 20

def itemGet (field : ItemField) (memory : ByteMemory) (item : Nat) : Nat :=
  memory.readWord (item + field.offset) 4

def itemSet (field : ItemField) (item value : Nat) (memory : ByteMemory) : ByteMemory :=
  memory.writeWord (item + field.offset) 4 value

def isUsed (memory : ByteMemory) (item : Nat) : Bool :=
  itemGet .magic memory item &&& memheapUsed ≠ 0

def memitemSize (cfg : MemheapConfig) (memory : ByteMemory) (item : Nat) : Nat :=
  sub32 (sub32 (itemGet .next memory item) item) cfg.memheapSize

def initItem (heap item magic next prev nextFree prevFree : Nat) (memory : ByteMemory) :
    ByteMemory :=
  let memory := itemSet .magic item magic memory
  let memory := itemSet .poolPtr item heap memory
  let memory := itemSet .next item next memory
  let memory := itemSet .prev item prev memory
  let memory := itemSet .nextFree item nextFree memory
  itemSet .prevFree item prevFree memory

def makeItem (heap header item : Nat) (memory : ByteMemory) : ByteMemory :=
  let memory := itemSet .magic item memheapMagic memory
  let memory := itemSet .poolPtr item heap memory
  let memory := itemSet .prev item header memory
  let memory := itemSet .next item (itemGet .next memory header) memory
  let memory := itemSet .prev (itemGet .next memory header) item memory
  itemSet .next header item memory

def freeRemove (item : Nat) (memory : ByteMemory) : ByteMemory :=
  let memory := itemSet .prevFree (itemGet .nextFree memory item) (itemGet .prevFree memory item)
    memory
  itemSet .nextFree (itemGet .prevFree memory item) (itemGet .nextFree memory item) memory

def freeUnlink (item : Nat) (memory : ByteMemory) : ByteMemory :=
  let memory := freeRemove item memory
  let memory := itemSet .nextFree item 0 memory
  itemSet .prevFree item 0 memory

def freeInsert (freeList item : Nat) (memory : ByteMemory) : ByteMemory :=
  let memory := itemSet .nextFree item (itemGet .nextFree memory freeList) memory
  let memory := itemSet .prevFree item freeList memory
  let memory := itemSet .prevFree (itemGet .nextFree memory freeList) item memory
  itemSet .nextFree freeList item memory

/-- The members of `struct rt_memheap` that do not change, and its address. -/
structure MemheapPool where
  heap : Nat
  startAddr : Nat
  poolSize : Nat
  freeList : Nat
  deriving DecidableEq

def setUsed (item : Nat) (memory : ByteMemory) : ByteMemory :=
  itemSet .magic item (itemGet .magic memory item ||| memheapUsed) memory

/-- `struct rt_memheap` and the memory.

History: `available_size` at each release of the lock. -/
structure RtMemheap extends MemheapPool where
  memory : ByteMemory
  availableSize : Nat
  maxUsedSize : Nat
  released : List Nat

namespace RtMemheap

def release (s : RtMemheap) : RtMemheap := { s with released := s.availableSize :: s.released }

def edit (f : ByteMemory → ByteMemory) (s : RtMemheap) : RtMemheap := { s with memory := f s.memory }

def withAvailable (availableSize : Nat) (s : RtMemheap) : RtMemheap :=
  { s with
    availableSize := availableSize
    maxUsedSize :=
      if s.maxUsedSize < sub32 s.poolSize availableSize then sub32 s.poolSize availableSize
      else s.maxUsedSize }

end RtMemheap

def rtMemheapInit (cfg : MemheapConfig) (heap startAddr size : Nat) (memory : ByteMemory) :
    RtMemheap :=
  let poolSize := rtAlignDown size cfg.alignSize
  let availableSize := sub32 poolSize (2 * cfg.memheapSize)
  let freeList := heap + cfg.freeHeaderOffset
  let memory := initItem heap freeList memheapMagic 0 0 freeList freeList memory
  let memory := initItem heap startAddr memheapMagic 0 0 startAddr startAddr memory
  let memory := itemSet .next startAddr (startAddr + availableSize + cfg.memheapSize) memory
  let memory := itemSet .prev startAddr (itemGet .next memory startAddr) memory
  let memory := freeInsert freeList startAddr memory
  let tail := itemGet .next memory startAddr
  let memory := initItem heap tail (memheapMagic ||| memheapUsed) startAddr startAddr 0 0 memory
  { memory := memory
    heap := heap
    startAddr := startAddr
    poolSize := poolSize
    availableSize := availableSize
    maxUsedSize := sub32 poolSize availableSize
    freeList := freeList
    released := [availableSize] }

def allocatedSize (cfg : MemheapConfig) (size : Nat) : Nat :=
  let size := rtAlign size cfg.alignSize
  if size < memheapMinialloc then memheapMinialloc else size

def searchLoop (cfg : MemheapConfig) (memory : ByteMemory) (freeList size : Nat) :
    Nat → Nat → Nat → Option (Nat × Nat)
  | 0, _, _ => none
  | fuel + 1, header, freeSize =>
    if header ≠ freeList ∧ freeSize < size then
      let freeSize := memitemSize cfg memory header
      searchLoop cfg memory freeList size fuel
        (if freeSize < size then itemGet .nextFree memory header else header) freeSize
    else some (header, freeSize)

def takeItem (cfg : MemheapConfig) (header freeSize size : Nat) (s : RtMemheap) : RtMemheap :=
  let s :=
    if add32 (add32 size cfg.memheapSize) memheapMinialloc ≤ freeSize then
      let item := header + size + cfg.memheapSize
      let s := s.edit (makeItem s.heap header item)
      let s := s.edit (freeUnlink header)
      let s := s.edit (freeInsert s.freeList item)
      s.withAvailable (sub32 (sub32 s.availableSize size) cfg.memheapSize)
    else
      let s := s.withAvailable (sub32 s.availableSize freeSize)
      s.edit (freeUnlink header)
  s.edit (setUsed header)

def rtMemheapAlloc (cfg : MemheapConfig) (size : Nat) (s : RtMemheap) : Option (Nat × RtMemheap) :=
  let size := allocatedSize cfg size
  if size < s.availableSize then do
    let (header, freeSize) ← searchLoop cfg s.memory s.freeList size (s.poolSize + 2)
      (itemGet .nextFree s.memory s.freeList) 0
    if size ≤ freeSize then
      return (header + cfg.memheapSize, (takeItem cfg header freeSize size s).release)
    else return (0, s.release)
  else some (0, s)

def joinPrev (header : Nat) (memory : ByteMemory) : ByteMemory :=
  let memory := itemSet .next (itemGet .prev memory header) (itemGet .next memory header) memory
  itemSet .prev (itemGet .next memory header) (itemGet .prev memory header) memory

/-- Merges a block with its previous neighbor, if that one is free; `insert_header` comes out as
true if it is not. -/
def mergeLeft (cfg : MemheapConfig) (header : Nat) (s : RtMemheap) : Nat × Bool × RtMemheap :=
  if isUsed s.memory (itemGet .prev s.memory header) then (header, true, s)
  else
    let s := { s with availableSize := add32 s.availableSize cfg.memheapSize }
    let s := s.edit (joinPrev header)
    (itemGet .prev s.memory header, false, s)

def absorbNext (header : Nat) (memory : ByteMemory) : ByteMemory :=
  let item := itemGet .next memory header
  let memory := itemSet .prev (itemGet .next memory item) header memory
  let memory := itemSet .next header (itemGet .next memory item) memory
  freeRemove item memory

def mergeRight (cfg : MemheapConfig) (header : Nat) (s : RtMemheap) : RtMemheap :=
  if isUsed s.memory (itemGet .next s.memory header) then s
  else
    let s := { s with availableSize := add32 s.availableSize cfg.memheapSize }
    s.edit (absorbNext header)

def rtMemheapFree (cfg : MemheapConfig) (ptr : Nat) (s : RtMemheap) : Option RtMemheap :=
  if ptr = 0 then some s
  else
    let header := ptr - cfg.memheapSize
    let magic := itemGet .magic s.memory header
    -- `RT_ASSERT`; the pool pointer leads to this heap
    if magic &&& memheapMask = memheapMagic ∧ magic &&& memheapUsed ≠ 0 ∧
        itemGet .magic s.memory (itemGet .next s.memory header) &&& memheapMask = memheapMagic ∧
        itemGet .poolPtr s.memory header = s.heap then
      let s := s.edit (itemSet .magic header (magic &&& memheapMask))
      let s := { s with
        availableSize := add32 s.availableSize (memitemSize cfg s.memory header) }
      let (header, insertHeader, s) := mergeLeft cfg header s
      let s := mergeRight cfg header s
      let s := if insertHeader then s.edit (freeInsert s.freeList header) else s
      some s.release
    else none

def dropBlock (item : Nat) (memory : ByteMemory) : ByteMemory :=
  let memory := itemSet .prev (itemGet .next memory item) (itemGet .prev memory item) memory
  itemSet .next (itemGet .prev memory item) (itemGet .next memory item) memory

def reallocInPlace (cfg : MemheapConfig) (header oldsize newsize : Nat) (s : RtMemheap) : RtMemheap :=
  let s := s.withAvailable (sub32 s.availableSize (sub32 newsize oldsize))
  let next := itemGet .next s.memory header
  let s := s.edit (freeRemove next)
  let s := s.edit (dropBlock next)
  let item := add32 (header + cfg.memheapSize) newsize
  let s := s.edit (makeItem s.heap header item)
  s.edit (freeInsert s.freeList item)

def reallocMove (cfg : MemheapConfig) (ptr oldsize newsize : Nat) (s : RtMemheap) :
    Option (Nat × RtMemheap) := do
  let (new, s) ← rtMemheapAlloc cfg newsize s
  if new ≠ 0 then
    let count := if oldsize < newsize then oldsize else newsize
    let s ← rtMemheapFree cfg ptr
      (s.edit fun memory => memory.writeBytes new (memory.readBytes ptr count))
    return (new, s)
  else return (new, s)

def reallocShrink (cfg : MemheapConfig) (header newsize : Nat) (s : RtMemheap) : RtMemheap :=
  let item := header + newsize + cfg.memheapSize
  let s := s.edit (makeItem s.heap header item)
  let next := itemGet .next s.memory item
  let s :=
    if isUsed s.memory next then s
    else
      let s := { s with
        availableSize := sub32 s.availableSize (memitemSize cfg s.memory next) }
      s.edit (absorbNext item)
  let s := s.edit (freeInsert s.freeList item)
  { s with availableSize := add32 s.availableSize (memitemSize cfg s.memory item) }

def rtMemheapRealloc (cfg : MemheapConfig) (ptr newsize : Nat) (s : RtMemheap) :
    Option (Nat × RtMemheap) :=
  if newsize = 0 then (rtMemheapFree cfg ptr s).map ((0, ·))
  else
    let newsize := allocatedSize cfg newsize
    if ptr = 0 then rtMemheapAlloc cfg newsize s
    else
      let header := ptr - cfg.memheapSize
      let oldsize := memitemSize cfg s.memory header
      if oldsize < newsize then
        let next := itemGet .next s.memory header
        -- `RT_ASSERT`: header_ptr should not be the tail
        if header < next then
          if isUsed s.memory next = false ∧
              add32 newsize memheapMinialloc < add32 (memitemSize cfg s.memory next) oldsize then
            some (ptr, (reallocInPlace cfg header oldsize newsize s).release)
          else reallocMove cfg ptr oldsize newsize s.release
        else none
      -- don't split when there is less than one node space left
      else if oldsize ≤ add32 (add32 newsize cfg.memheapSize) memheapMinialloc then some (ptr, s)
      else some (ptr, (reallocShrink cfg header newsize s).release)

structure MemheapClient extends RtMemheap where
  live : List Live
  result : Nat

inductive MemheapOp
  | alloc (size : Nat)
  | realloc (ptr newsize : Nat)
  | free (ptr : Nat)
  -- a client stores a byte in the memory it has got
  | store (ptr index : Nat) (byte : UInt8)
  deriving DecidableEq

namespace MemheapClient

/-- A client passes `NULL` or a live pointer, does not ask for more than the size of the pool, and
keeps to what it has asked for. -/
def enabled (s : MemheapClient) : MemheapOp → Bool
  | .alloc size => size ≤ s.poolSize
  | .realloc ptr newsize => (ptr = 0 ∨ ptr ∈ s.live.map Live.ptr) ∧ newsize ≤ s.poolSize
  | .free ptr => ptr = 0 ∨ ptr ∈ s.live.map Live.ptr
  | .store ptr index _ => ∃ x ∈ s.live, x.ptr = ptr ∧ index < x.size

def exec (cfg : MemheapConfig) (s : MemheapClient) (op : MemheapOp) : Option MemheapClient :=
  if s.enabled op then
    match op with
    | .alloc size =>
      (rtMemheapAlloc cfg size s.toRtMemheap).map fun (p, heap) =>
        { toRtMemheap := heap
          live := if p = 0 then s.live else ⟨p, size⟩ :: s.live
          result := p }
    | .realloc ptr newsize =>
      (rtMemheapRealloc cfg ptr newsize s.toRtMemheap).map fun (p, heap) =>
        { toRtMemheap := heap
          live :=
            if newsize = 0 then dropLive ptr s.live
            else if p = 0 then s.live
            else ⟨p, newsize⟩ :: dropLive ptr s.live
          result := p }
    | .free ptr =>
      (rtMemheapFree cfg ptr s.toRtMemheap).map fun heap =>
        { toRtMemheap := heap, live := dropLive ptr s.live, result := 0 }
    | .store ptr index byte =>
      some { s with memory := s.memory.writeBytes (ptr + index) [byte], result := 0 }
  else none

/-- `rt_memheap_init` over a region that lies apart from the heap object. -/
def Initial (cfg : MemheapConfig) (s : MemheapClient) : Prop :=
  ∃ heap startAddr size memory, startAddr % cfg.alignSize = 0 ∧ 0 < startAddr ∧ 0 < heap ∧
    startAddr + size ≤ 2 ^ 32 ∧ heap + cfg.freeHeaderOffset + 24 ≤ 2 ^ 32 ∧
    (heap + cfg.freeHeaderOffset + 24 ≤ startAddr ∨ startAddr + size ≤ heap) ∧
    2 * cfg.memheapSize < size ∧ size < 2 ^ 32 ∧
    s.toRtMemheap = rtMemheapInit cfg heap startAddr size memory ∧ s.live = []

end MemheapClient

def memheapMachine (cfg : MemheapConfig) : Machine MemheapClient MemheapOp where
  init := MemheapClient.Initial cfg
  exec := MemheapClient.exec cfg

end RtThread.Memheap
