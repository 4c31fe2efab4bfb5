import RtThread.Kernel.Align
import RtThread.Lib.ByteMemory
import RtThread.Lib.Transition

namespace RtThread.Finsh

open RtThread.Lib

/-! The heap of `finsh_heap.c`, 32-bit build.  All pointers are addresses of the byte memory,
`NULL` is 0, and a `struct finsh_block_header` has 8 bytes. -/

abbrev finshHeapMax : Nat := 128

abbrev finshVariableMax : Nat := 8

def heapAlignSize (size : Nat) : Nat := rtAlign size 4

inductive FinshType
  | unknown
  | void
  | voidp
  | char
  | uchar
  | charp
  | short
  | ushort
  | shortp
  | int
  | uint
  | intp
  | long
  | ulong
  | longp
  deriving DecidableEq

/-- An entry of `global_variable`; `value` are the four bytes of the union. -/
structure FinshVar where
  type : FinshType
  value : Nat
  deriving DecidableEq

def lengthOf (memory : ByteMemory) (header : Nat) : Nat := memory.readWord header 4

def nextOf (memory : ByteMemory) (header : Nat) : Nat := memory.readWord (header + 4) 4

def setLength (memory : ByteMemory) (header value : Nat) : ByteMemory :=
  memory.writeWord header 4 value

def setNext (memory : ByteMemory) (header value : Nat) : ByteMemory :=
  memory.writeWord (header + 4) 4 value

def finshBlockGetHeader (data : Nat) : Nat := data - 8

def finshBlockGetData (header : Nat) : Nat := header + 8

abbrev heapFuel : Nat := finshHeapMax + 1

def insertLoop (memory : ByteMemory) (header : Nat) : Nat → Nat → Option Nat
  | 0, _ => none
  | fuel + 1, node =>
    if header < nextOf memory node then some node
    else if nextOf memory node = 0 then some node
    else insertLoop memory header fuel (nextOf memory node)

def finshBlockInsert (list header : Nat) (memory : ByteMemory) : Option (Nat × ByteMemory) :=
  if list = 0 then some (header, memory)
  else if header < list then some (header, setNext memory header list)
  else do
    let node ← insertLoop memory header heapFuel list
    -- the last node leaves `header->next` as it is
    let memory :=
      if nextOf memory node ≠ 0 then setNext memory header (nextOf memory node) else memory
    return (list, setNext memory node header)

def removeLoop (memory : ByteMemory) (header : Nat) : Nat → Nat → Option ByteMemory
  | 0, _ => none
  | fuel + 1, node =>
    if node = 0 then some memory
    else if nextOf memory node = header then some (setNext memory node (nextOf memory header))
    else removeLoop memory header fuel (nextOf memory node)

def finshBlockRemove (list header : Nat) (memory : ByteMemory) : Option (Nat × ByteMemory) :=
  if list = header then some (nextOf memory header, setNext memory header 0)
  else (removeLoop memory header heapFuel list).map ((list, ·))

def finshBlockSplit (header size : Nat) (memory : ByteMemory) : ByteMemory :=
  let next := header + 8 + size
  let memory := setLength memory next (sub32 (sub32 (lengthOf memory header) 8) size)
  let memory := setLength memory header size
  let memory := setNext memory next (nextOf memory header)
  setNext memory header next

def prevLoop (memory : ByteMemory) (header : Nat) : Nat → Nat → Option Nat
  | 0, _ => none
  | fuel + 1, node =>
    if node = 0 then some 0
    else if nextOf memory node = header then some node
    else prevLoop memory header fuel (nextOf memory node)

def blockEnd (memory : ByteMemory) (header : Nat) : Nat :=
  header + lengthOf memory header + 8

def mergeNodes (prevNode header nextNode : Nat) (memory : ByteMemory) : ByteMemory :=
  if prevNode ≠ 0 ∧ blockEnd memory prevNode = header then
    if nextNode ≠ 0 ∧ blockEnd memory header = nextNode then
      let memory := setLength memory prevNode
        (add32 (lengthOf memory prevNode)
          (lengthOf memory header + lengthOf memory nextNode + 2 * 8))
      setNext memory prevNode (nextOf memory nextNode)
    else
      let memory := setLength memory prevNode
        (add32 (lengthOf memory prevNode) (lengthOf memory header + 8))
      setNext memory prevNode (nextOf memory header)
  else if nextNode ≠ 0 ∧ blockEnd memory header = nextNode then
    let memory := setLength memory header
      (add32 (lengthOf memory header) (lengthOf memory nextNode + 8))
    setNext memory header (nextOf memory nextNode)
  else memory

def prevNodeOf (list header : Nat) (memory : ByteMemory) : Option Nat :=
  if list = header then some 0 else prevLoop memory header heapFuel list

def finshBlockMerge (list header : Nat) (memory : ByteMemory) : Option ByteMemory :=
  (prevNodeOf list header memory).map fun prevNode =>
    mergeNodes prevNode header (nextOf memory header) memory

structure FinshHeap where
  memory : ByteMemory
  freeList : Nat
  allocateList : Nat

def finshHeapInit (base : Nat) (memory : ByteMemory) : FinshHeap :=
  let memory := memory.writeBytes base (List.replicate finshHeapMax 0)
  let memory := setLength memory base (finshHeapMax - 8)
  { memory := setNext memory base 0, freeList := base, allocateList := 0 }

def finshHeapFree (ptr : Nat) (s : FinshHeap) : Option FinshHeap := do
  let header := finshBlockGetHeader ptr
  let (allocateList, memory) ← finshBlockRemove s.allocateList header s.memory
  let (freeList, memory) ← finshBlockInsert s.freeList header memory
  let memory ← finshBlockMerge freeList header memory
  return { memory, freeList, allocateList }

def referenced (globalVariable : Fin finshVariableMax → FinshVar) (header : Nat) : Bool :=
  ∃ i, (globalVariable i).type ≠ .unknown ∧ (globalVariable i).value = finshBlockGetData header

def gcLoop (globalVariable : Fin finshVariableMax → FinshVar) :
    Nat → Nat → FinshHeap → Option (List Nat × FinshHeap)
  | 0, _, _ => none
  | fuel + 1, header, s =>
    if header = 0 then some ([], s)
    else
      let next := nextOf s.memory header
      if referenced globalVariable header then gcLoop globalVariable fuel next s
      else do
        let s ← finshHeapFree (finshBlockGetData header) s
        let (freed, s) ← gcLoop globalVariable fuel next s
        return (finshBlockGetData header :: freed, s)

def finshHeapGc (globalVariable : Fin finshVariableMax → FinshVar) (s : FinshHeap) :
    Option (List Nat × FinshHeap) :=
  gcLoop globalVariable heapFuel s.allocateList s

/-- The loops of `finsh_heap_allocate`: the first block that is not too short, or `NULL`. -/
def firstFit (tooShort : Nat → Bool) (memory : ByteMemory) : Nat → Nat → Option Nat
  | 0, _ => none
  | fuel + 1, header =>
    if header ≠ 0 ∧ tooShort (lengthOf memory header) then
      firstFit tooShort memory fuel (nextOf memory header)
    else some header

def takeBlock (header size : Nat) (s : FinshHeap) : Option FinshHeap := do
  let memory := finshBlockSplit header size s.memory
  let (freeList, memory) ← finshBlockRemove s.freeList header memory
  let memory := setNext memory header 0
  let (allocateList, memory) ← finshBlockInsert s.allocateList header memory
  let memory := memory.writeBytes (finshBlockGetData header) (List.replicate size 0)
  return { memory, freeList, allocateList }

def takeFound (header size : Nat) (s : FinshHeap) : Option (Nat × FinshHeap) :=
  if header = 0 then some (0, s)
  else (takeBlock header size s).map ((finshBlockGetData header, ·))

def finshHeapAllocate (globalVariable : Fin finshVariableMax → FinshVar) (size : Nat)
    (s : FinshHeap) : Option (Nat × List Nat × FinshHeap) := do
  let size := heapAlignSize size
  let header ← firstFit (· ≤ add32 size 8) s.memory heapFuel s.freeList
  if header = 0 then
    let (freed, s) ← finshHeapGc globalVariable s
    let header ← firstFit (· < add32 size 8) s.memory heapFuel s.freeList
    let (ptr, s) ← takeFound header size s
    return (ptr, freed, s)
  else
    let (ptr, s) ← takeFound header size s
    return (ptr, [], s)

def mustCollect (size : Nat) (s : FinshHeap) : Bool :=
  firstFit (· ≤ add32 (heapAlignSize size) 8) s.memory heapFuel s.freeList = some 0

structure Live where
  ptr : Nat
  size : Nat
  deriving DecidableEq

/-- The heap, the variables, the pointers that have been neither freed nor collected, and what the
last call returned. -/
structure HeapClient extends FinshHeap where
  globalVariable : Fin finshVariableMax → FinshVar
  live : List Live
  result : Nat

inductive HeapOp
  | allocate (size : Nat)
  | free (ptr : Nat)
  | setVariable (i : Fin finshVariableMax) (value : FinshVar)
  -- a client stores a byte in the memory it has got
  | store (ptr index : Nat) (byte : UInt8)
  deriving DecidableEq

namespace HeapClient

/-- A client asks for no more than the heap has, frees what is live, and keeps to what it has asked
for. -/
def enabled (s : HeapClient) : HeapOp → Bool
  | .allocate size => size ≤ finshHeapMax
  | .free ptr => ptr ∈ s.live.map Live.ptr
  | .setVariable _ _ => true
  | .store ptr index _ => ∃ x ∈ s.live, x.ptr = ptr ∧ index < x.size

def exec (s : HeapClient) (op : HeapOp) : Option HeapClient :=
  if s.enabled op then
    match op with
    | .allocate size =>
      (finshHeapAllocate s.globalVariable size s.toFinshHeap).map fun (ptr, freed, heap) =>
        let live := s.live.filter fun x => x.ptr ∉ freed
        { toFinshHeap := heap
          globalVariable := s.globalVariable
          live := if ptr = 0 then live else ⟨ptr, size⟩ :: live
          result := ptr }
    | .free ptr =>
      (finshHeapFree ptr s.toFinshHeap).map fun heap =>
        { toFinshHeap := heap
          globalVariable := s.globalVariable
          live := s.live.filter fun x => x.ptr ≠ ptr
          result := 0 }
    | .setVariable i value =>
      some { s with globalVariable := Function.update s.globalVariable i value, result := 0 }
    | .store ptr index byte =>
      some { s with memory := s.memory.writeBytes (ptr + index) [byte], result := 0 }
  else none

/-- `finsh_heap_init` with `finsh_heap` at a valid address. -/
def Initial (base : Nat) (s : HeapClient) : Prop :=
  0 < base ∧ base + finshHeapMax ≤ 2 ^ 32 ∧ s.live = [] ∧
    ∃ memory, s.toFinshHeap = finshHeapInit base memory

end HeapClient

def finshHeapMachine (base : Nat) : Machine HeapClient HeapOp where
  init := HeapClient.Initial base
  exec := HeapClient.exec

end RtThread.Finsh
