import RtThread.Kernel.Align
import RtThread.Mem.PageConservation

namespace RtThread.Slab

open Function RtThread.Lib RtThread.Mem

/-! `rt_malloc`, `rt_realloc` and `rt_free` of `slab.c`, with pages of 4096 bytes and pointers of 32
bits.  Zones and page descriptors go by the number of their page, and a list of zones is the list of
these numbers.  `none` is a failed assertion, or a walk off a list. -/

inductive PageType
  | free
  | small
  | large
  deriving DecidableEq

structure Memusage where
  type : PageType
  size : Nat
  deriving DecidableEq

structure SlabZone where
  zMagic : Int
  zNfree : Nat
  zNmax : Nat
  zBaseptr : Nat
  zUindex : Nat
  zChunksize : Nat
  zZoneindex : Nat
  zFreechunk : List Nat

abbrev zallocSlabMagic : Int := 0x51ab51ab

abbrev zoneReleaseThresh : Nat := 2

structure SlabHeap where
  zoneSize : Nat
  pageList : List Run
  memusage : Nat → Memusage
  zone : Nat → SlabZone
  zoneArray : Nat → List Nat
  zoneFree : List Nat
  zoneFreeCnt : Nat
  usedMem : Nat

namespace SlabHeap

def zoneLimit (s : SlabHeap) : Nat := min (s.zoneSize / 4) (16 * 1024)

def zonePageCnt (s : SlabHeap) : Nat := s.zoneSize / 4096

def setPages (usage : Nat → Memusage) (z count : Nat) (f : Nat → Memusage) : Nat → Memusage :=
  fun page => if z ≤ page ∧ page < z + count then f (page - z) else usage page

end SlabHeap

def zoneSizeFor (limsize : Nat) : Nat :=
  if 2 * (32 * 1024) < limsize / 1024 then
    if 2 * (64 * 1024) < limsize / 1024 then 128 * 1024 else 64 * 1024
  else 32 * 1024

def rtSystemHeapInit (beginAddr endAddr : Nat) (memusage : Nat → Memusage) (zone : Nat → SlabZone) :
    Option SlabHeap :=
  let heapStart := rtAlign beginAddr 4096
  let heapEnd := rtAlignDown endAddr 4096
  if heapEnd ≤ heapStart then none
  else
    let limsize := heapEnd - heapStart
    let npages := limsize / 4096
    match rtPageInit (heapStart / 4096) npages with
    | none => none
    | some pageList =>
      match rtPageAlloc (rtAlign (npages * 4) 4096 / 4096) pageList with
      | (none, _) => none
      | (some _, pageList) =>
        some ⟨zoneSizeFor limsize, pageList, memusage, zone, fun _ => [], [], 0, 0⟩

def zoneindex (bytes : Nat) : Nat × Nat :=
  if bytes < 128 then (rtAlign bytes 8 / 8 - 1, rtAlign bytes 8)
  else if bytes < 256 then (rtAlign bytes 16 / 16 + 7, rtAlign bytes 16)
  else if bytes < 8192 then
    if bytes < 512 then (rtAlign bytes 32 / 32 + 15, rtAlign bytes 32)
    else if bytes < 1024 then (rtAlign bytes 64 / 64 + 23, rtAlign bytes 64)
    else if bytes < 2048 then (rtAlign bytes 128 / 128 + 31, rtAlign bytes 128)
    else if bytes < 4096 then (rtAlign bytes 256 / 256 + 39, rtAlign bytes 256)
    else (rtAlign bytes 512 / 512 + 47, rtAlign bytes 512)
  else if bytes < 16384 then (rtAlign bytes 1024 / 1024 + 55, rtAlign bytes 1024)
  else (0, bytes)

def chunkOff (size : Nat) : Nat :=
  if (size ||| (size - 1)) + 1 = 2 * size then rtAlign 36 size
  else rtAlign 36 8

def mallocLarge (size : Nat) (s : SlabHeap) : Nat × SlabHeap :=
  let size := rtAlign size 4096
  match rtPageAlloc (size / 4096) s.pageList with
  | (none, _) => (0, s)
  | (some page, pageList) =>
    (page * 4096, { s with
      pageList := pageList
      memusage := update s.memusage page ⟨.large, size / 4096⟩
      usedMem := s.usedMem + size })

def takeChunk (zi size z : Nat) (s : SlabHeap) : Option (Nat × SlabHeap) :=
  let zone := s.zone z
  if zone.zNfree = 0 then none
  else
    let zone := { zone with zNfree := zone.zNfree - 1 }
    let s := { s with
      zoneArray :=
        if zone.zNfree = 0 then update s.zoneArray zi (s.zoneArray zi).tail else s.zoneArray
      usedMem := s.usedMem + zone.zChunksize }
    if zone.zUindex + 1 ≠ zone.zNmax then
      let zone := { zone with zUindex := zone.zUindex + 1 }
      some (zone.zBaseptr + zone.zUindex * size, { s with zone := update s.zone z zone })
    else
      match zone.zFreechunk with
      | [] => none
      | chunk :: rest =>
        some (chunk, { s with zone := update s.zone z { zone with zFreechunk := rest } })

def takeZone (s : SlabHeap) : Option (Nat × SlabHeap) :=
  match s.zoneFree with
  | z :: rest => some (z, { s with zoneFree := rest, zoneFreeCnt := s.zoneFreeCnt - 1 })
  | [] =>
    match rtPageAlloc s.zonePageCnt s.pageList with
    | (none, _) => none
    | (some z, pageList) =>
      some (z, { s with
        pageList := pageList
        memusage := SlabHeap.setPages s.memusage z s.zonePageCnt fun off => ⟨.small, off⟩ })

def newZone (zi size z : Nat) (s : SlabHeap) : Nat × SlabHeap :=
  let off := chunkOff size
  let nmax := (s.zoneSize - off) / size
  let baseptr := z * 4096 + off
  (baseptr + 0 * size, { s with
    zone := update s.zone z ⟨zallocSlabMagic, nmax - 1, nmax, baseptr, 0, size, zi, []⟩
    zoneArray := update s.zoneArray zi (z :: s.zoneArray zi)
    usedMem := s.usedMem + size })

def rtMalloc (size : Nat) (s : SlabHeap) : Option (Nat × SlabHeap) :=
  if size = 0 then some (0, s)
  else if s.zoneLimit ≤ size then some (mallocLarge size s)
  else
    let (zi, size) := zoneindex size
    if 72 ≤ zi then none
    else
      match s.zoneArray zi with
      | z :: _ => takeChunk zi size z s
      | [] =>
        match takeZone s with
        | none => some (0, s)
        | some (z, s) => some (newZone zi size z s)

/-- A zone that is totally free goes to `zone_free`, and from there to the page allocator. -/
def releaseZone (zi z : Nat) (s : SlabHeap) : Option SlabHeap :=
  if z ∈ s.zoneArray zi then
    let s := { s with
      zoneArray := update s.zoneArray zi ((s.zoneArray zi).erase z)
      zone := update s.zone z { s.zone z with zMagic := -1 }
      zoneFree := z :: s.zoneFree
      zoneFreeCnt := s.zoneFreeCnt + 1 }
    if zoneReleaseThresh < s.zoneFreeCnt then
      let s := { s with
        zoneFree := s.zoneFree.tail
        zoneFreeCnt := s.zoneFreeCnt - 1
        memusage := SlabHeap.setPages s.memusage z s.zonePageCnt fun _ => ⟨.free, 0⟩ }
      (rtPageFree z s.zonePageCnt s.pageList).map fun pageList => { s with pageList := pageList }
    else some s
  else none

def freeChunk (ptr z : Nat) (s : SlabHeap) : SlabHeap :=
  let zone := s.zone z
  { s with
    zone := update s.zone z
      { zone with zFreechunk := ptr :: zone.zFreechunk, zNfree := zone.zNfree + 1 }
    zoneArray :=
      if zone.zNfree = 0 then update s.zoneArray zone.zZoneindex (z :: s.zoneArray zone.zZoneindex)
      else s.zoneArray
    usedMem := s.usedMem - zone.zChunksize }

def rtFree (ptr : Nat) (s : SlabHeap) : Option SlabHeap :=
  if ptr = 0 then some s
  else
    let page := ptr / 4096
    let kup := s.memusage page
    if kup.type = .large then
      if ptr % 4096 = 0 then
        (rtPageFree page kup.size s.pageList).map fun pageList =>
          { s with
            pageList := pageList
            memusage := update s.memusage page { kup with size := 0 }
            usedMem := s.usedMem - kup.size * 4096 }
      else none
    else
      let z := page - kup.size
      if (s.zone z).zMagic = zallocSlabMagic then
        let s := freeChunk ptr z s
        let zone := s.zone z
        -- z->z_next or another zone before it
        if zone.zNfree = zone.zNmax ∧ s.zoneArray zone.zZoneindex ≠ [z] then
          releaseZone zone.zZoneindex z s
        else some s
      else none

def moveBlock (ptr size : Nat) (s : SlabHeap) : Option (Nat × SlabHeap) :=
  (rtMalloc size s).bind fun (nptr, s) =>
    if nptr = 0 then some (0, s) else (rtFree ptr s).map (nptr, ·)

def rtRealloc (ptr size : Nat) (s : SlabHeap) : Option (Nat × SlabHeap) :=
  if ptr = 0 then rtMalloc size s
  else if size = 0 then (rtFree ptr s).map (0, ·)
  else
    let kup := s.memusage (ptr / 4096)
    match kup.type with
    | .large => moveBlock ptr size s
    | .small =>
      let zone := s.zone (ptr / 4096 - kup.size)
      if zone.zMagic = zallocSlabMagic then
        if zone.zChunksize = (zoneindex size).2 then some (ptr, s)
        else moveBlock ptr (zoneindex size).2 s
      else none
    | .free => some (0, s)

inductive Home
  | chunk (z : Nat)
  | pages (count : Nat)
  deriving DecidableEq

structure Area where
  ptr : Nat
  size : Nat
  home : Home
  deriving DecidableEq

structure SlabClient extends SlabHeap where
  live : List Area

inductive SlabOp
  | malloc (size : Nat)
  | realloc (ptr size : Nat)
  | free (ptr : Nat)
  deriving DecidableEq

def SlabHeap.home (s : SlabHeap) (ptr : Nat) : Home :=
  let page := ptr / 4096
  match (s.memusage page).type with
  | .large => .pages (s.memusage page).size
  | _ => .chunk (page - (s.memusage page).size)

def SlabHeap.area (s : SlabHeap) (ptr size : Nat) : Area := ⟨ptr, size, s.home ptr⟩

def dropLive (ptr : Nat) (live : List Area) : List Area := live.eraseP (·.ptr = ptr)

namespace SlabClient

def Held (s : SlabClient) (ptr : Nat) : Prop := ptr = 0 ∨ ptr ∈ s.live.map Area.ptr

instance (s : SlabClient) (ptr : Nat) : Decidable (s.Held ptr) :=
  inferInstanceAs (Decidable (_ ∨ _))

def call (s : SlabClient) : SlabOp → Option SlabClient
  | .malloc size =>
    if size < 2 ^ 32 then
      (rtMalloc size s.toSlabHeap).map fun (p, heap) =>
        ⟨heap, if p = 0 then s.live else heap.area p size :: s.live⟩
    else none
  | .realloc ptr size =>
    if s.Held ptr ∧ size < 2 ^ 32 then
      (rtRealloc ptr size s.toSlabHeap).map fun (p, heap) =>
        ⟨heap,
          if size = 0 then dropLive ptr s.live
          else if p = 0 then s.live
          else heap.area p size :: dropLive ptr s.live⟩
    else none
  | .free ptr =>
    if s.Held ptr then
      (rtFree ptr s.toSlabHeap).map fun heap => ⟨heap, dropLive ptr s.live⟩
    else none

end SlabClient

def slabMachine (beginAddr endAddr : Nat) : Machine SlabClient SlabOp where
  init s := s.live = [] ∧ ∃ memusage zone,
    rtSystemHeapInit beginAddr endAddr memusage zone = some s.toSlabHeap
  exec := SlabClient.call

end RtThread.Slab
