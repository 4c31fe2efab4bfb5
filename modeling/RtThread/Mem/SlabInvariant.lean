import Mathlib.Algebra.BigOperators.Group.List.Basic
import Mathlib.Data.List.Nodup
import RtThread.Mem.Slab

namespace RtThread.Slab

open RtThread.Lib RtThread.Mem

def chunkSize (zi : Nat) : Nat :=
  if zi < 16 then (zi + 1) * 8
  else if zi < 24 then (zi - 7) * 16
  else if zi < 32 then (zi - 15) * 32
  else if zi < 40 then (zi - 23) * 64
  else if zi < 48 then (zi - 31) * 128
  else if zi < 56 then (zi - 39) * 256
  else if zi < 64 then (zi - 47) * 512
  else (zi - 55) * 1024

section Sizes

variable {bytes zi k : Nat}

theorem rtAlign_eq (hk : k ≤ 32) (hfits : bytes + 2 ^ k ≤ 2 ^ 32) :
    rtAlign bytes (2 ^ k) = (bytes + (2 ^ k - 1)) / 2 ^ k * 2 ^ k := by
  have hpos := Nat.two_pow_pos k
  rw [rtAlign, Nat.mod_eq_of_lt (by omega), rtAlignDown_two_pow (by omega) hk]

theorem zoneindex_spec (hpos : 0 < bytes) (hlt : bytes < 16384) :
    (zoneindex bytes).2 = chunkSize (zoneindex bytes).1 ∧ (zoneindex bytes).1 < 72 ∧
      bytes ≤ (zoneindex bytes).2 ∧ (zoneindex bytes).2 < bytes + 1024 ∧
      (bytes ≤ 8192 → (zoneindex bytes).2 ≤ 8192) := by
  have h3 := @rtAlign_eq bytes 3 (by decide) (by omega)
  have h4 := @rtAlign_eq bytes 4 (by decide) (by omega)
  have h5 := @rtAlign_eq bytes 5 (by decide) (by omega)
  have h6 := @rtAlign_eq bytes 6 (by decide) (by omega)
  have h7 := @rtAlign_eq bytes 7 (by decide) (by omega)
  have h8 := @rtAlign_eq bytes 8 (by decide) (by omega)
  have h9 := @rtAlign_eq bytes 9 (by decide) (by omega)
  have h10 := @rtAlign_eq bytes 10 (by decide) (by omega)
  simp only [Nat.reducePow] at h3 h4 h5 h6 h7 h8 h9 h10
  unfold zoneindex
  repeat' split
  all_goals
    simp only [h3, h4, h5, h6, h7, h8, h9, h10]
    clear h3 h4 h5 h6 h7 h8 h9 h10
    refine ⟨?_, by omega⟩
    unfold chunkSize
    split_ifs <;> omega

theorem zoneindex_large (hlarge : 16384 ≤ bytes) : zoneindex bytes = (0, bytes) := by
  unfold zoneindex
  repeat' split
  all_goals first | omega | rfl

theorem chunkSize_spec (hzi : zi < 72) : 8 ≤ chunkSize zi ∧ chunkSize zi % 8 = 0 ∧
    36 ≤ chunkOff (chunkSize zi) ∧ chunkOff (chunkSize zi) % 8 = 0 ∧
    chunkOff (chunkSize zi) ≤ 64 + chunkSize zi ∧ chunkSize zi ≤ 16384 := by
  have hall : ∀ zi < 72, 8 ≤ chunkSize zi ∧ chunkSize zi % 8 = 0 ∧
      36 ≤ chunkOff (chunkSize zi) ∧ chunkOff (chunkSize zi) % 8 = 0 ∧
      chunkOff (chunkSize zi) ≤ 64 + chunkSize zi ∧ chunkSize zi ≤ 16384 := by
    decide +kernel
  exact hall zi hzi

end Sizes

namespace SlabHeap

def zoneRun (s : SlabHeap) (z : Nat) : Run := ⟨z, s.zonePageCnt⟩

def capacity (s : SlabHeap) (a : Area) : Nat :=
  match a.home with
  | .chunk z => (s.zone z).zChunksize
  | .pages count => count * 4096

end SlabHeap

theorem SlabHeap.capacity_congr {s s' : SlabHeap}
    (hsize : ∀ z, (s'.zone z).zChunksize = (s.zone z).zChunksize) : s'.capacity = s.capacity := by
  funext a
  unfold SlabHeap.capacity
  cases a.home with
  | chunk z => exact hsize z
  | pages count => rfl

def liveChunks (z : Nat) (live : List Area) : List Nat :=
  (live.filter (·.home = .chunk z)).map Area.ptr

def Area.run (a : Area) : Option Run :=
  match a.home with
  | .chunk _ => none
  | .pages count => some ⟨a.ptr / 4096, count⟩

/-- A zone in use.  The chunks that have ever been used are live or in `z_freechunk`. -/
structure ZoneOk (zoneSize z : Nat) (zone : SlabZone) (live : List Area) : Prop where
  magic : zone.zMagic = zallocSlabMagic
  index : zone.zZoneindex < 72
  chunksize : zone.zChunksize = chunkSize zone.zZoneindex
  room : 4 * zone.zChunksize ≤ zoneSize
  baseptr : zone.zBaseptr = z * 4096 + chunkOff zone.zChunksize
  nmax : zone.zNmax = (zoneSize - chunkOff zone.zChunksize) / zone.zChunksize
  uindex : zone.zUindex < zone.zNmax
  nfree : zone.zNfree + (zone.zUindex + 1) = zone.zNmax + zone.zFreechunk.length
  chunks : (liveChunks z live ++ zone.zFreechunk).Perm
    ((List.range (zone.zUindex + 1)).map fun i => zone.zBaseptr + i * zone.zChunksize)

def AreaOk (s : SlabHeap) (zones : List Nat) (a : Area) : Prop :=
  match a.home with
  | .chunk z => z ∈ zones ∧ a.size ≤ (s.zone z).zChunksize
  | .pages count => a.ptr % 4096 = 0 ∧ s.memusage (a.ptr / 4096) = ⟨.large, count⟩ ∧
      a.size ≤ count * 4096

structure Inv (whole table : Run) (zones : List Nat) (s : SlabHeap) (live : List Area) : Prop where
  size : s.zoneSize = 32768 ∨ s.zoneSize = 65536 ∨ s.zoneSize = 131072
  pages : PageInv whole
    ⟨s.pageList, table :: ((zones ++ s.zoneFree).map s.zoneRun ++ live.filterMap Area.run)⟩
  cnt : s.zoneFreeCnt = s.zoneFree.length
  usage : ∀ z ∈ zones ++ s.zoneFree, ∀ i < s.zonePageCnt, s.memusage (z + i) = ⟨.small, i⟩
  zone : ∀ z ∈ zones, ZoneOk s.zoneSize z (s.zone z) live
  array : ∀ zi z, z ∈ s.zoneArray zi ↔
    z ∈ zones ∧ (s.zone z).zZoneindex = zi ∧ (s.zone z).zNfree ≠ 0
  nodup : ∀ zi, (s.zoneArray zi).Nodup
  area : ∀ a ∈ live, AreaOk s zones a
  used : s.usedMem = (live.map s.capacity).sum

section Zone

variable {zoneSize z i : Nat} {zone : SlabZone} {live live' : List Area}

section

variable (hzone : ZoneOk zoneSize z zone live)
include hzone

theorem ZoneOk.chunk_bounds (hi : i < zone.zNmax) :
    z * 4096 + 36 ≤ zone.zBaseptr + i * zone.zChunksize ∧
      zone.zBaseptr + i * zone.zChunksize + zone.zChunksize ≤ z * 4096 + zoneSize := by
  obtain ⟨hmin, -, hheader, -, hoff, -⟩ := chunkSize_spec hzone.index
  rw [← hzone.chunksize] at hmin hheader hoff
  have hroom := hzone.room
  have hbase := hzone.baseptr
  have hpos : 0 < zone.zChunksize := by omega
  have hlast : (i + 1) * zone.zChunksize ≤ zoneSize - chunkOff zone.zChunksize := by
    rw [hzone.nmax] at hi
    exact (Nat.le_div_iff_mul_le hpos).mp hi
  rw [Nat.succ_mul] at hlast
  omega

theorem ZoneOk.chunk_inj {j : Nat}
    (heq : zone.zBaseptr + i * zone.zChunksize = zone.zBaseptr + j * zone.zChunksize) : i = j := by
  have hmin := (chunkSize_spec hzone.index).1
  rw [← hzone.chunksize] at hmin
  exact Nat.eq_of_mul_eq_mul_right (by omega) (Nat.add_left_cancel heq)

theorem ZoneOk.nodup : (liveChunks z live ++ zone.zFreechunk).Nodup := by
  refine hzone.chunks.nodup_iff.mpr (List.Nodup.map_on ?_ List.nodup_range)
  intro i _ j _ heq
  exact hzone.chunk_inj heq

theorem ZoneOk.length_live : (liveChunks z live).length + zone.zNfree = zone.zNmax := by
  have hlength := hzone.chunks.length_eq
  rw [List.length_append, List.length_map, List.length_range] at hlength
  have hnfree := hzone.nfree
  omega

theorem ZoneOk.mem_chunks {ptr : Nat} (hmem : ptr ∈ liveChunks z live ++ zone.zFreechunk) :
    ∃ i < zone.zNmax, ptr = zone.zBaseptr + i * zone.zChunksize := by
  obtain ⟨i, hi, rfl⟩ := List.mem_map.mp (hzone.chunks.mem_iff.mp hmem)
  have hlt := List.mem_range.mp hi
  have huindex := hzone.uindex
  exact ⟨i, by omega, rfl⟩

theorem ZoneOk.congr
    (hsame : (liveChunks z live').Perm (liveChunks z live)) : ZoneOk zoneSize z zone live' :=
  { hzone with chunks := (hsame.append_right _).trans hzone.chunks }

end

theorem liveChunks_perm (hperm : live.Perm live') (z : Nat) :
    (liveChunks z live).Perm (liveChunks z live') := (hperm.filter _).map _

theorem mem_liveChunks {a : Area} (hmem : a ∈ live) (hhome : a.home = .chunk z) :
    a.ptr ∈ liveChunks z live :=
  List.mem_map_of_mem (List.mem_filter.mpr ⟨hmem, decide_eq_true hhome⟩)

end Zone

section Heap

variable {whole table : Run} {zones zones' : List Nat} {s s' : SlabHeap} {live live' : List Area}
  {z : Nat} {a : Area}

section

variable (hinv : Inv whole table zones s live)
include hinv

theorem Inv.pageCnt : s.zoneSize = s.zonePageCnt * 4096 ∧ 8 ≤ s.zonePageCnt := by
  have hsize := hinv.size
  unfold SlabHeap.zonePageCnt
  omega

theorem Inv.perm (hperm : live.Perm live') : Inv whole table zones s live' where
  size := hinv.size
  pages := hinv.pages.perm (((hperm.filterMap _).append_left _).cons _)
  cnt := hinv.cnt
  usage := hinv.usage
  zone := fun z hz => (hinv.zone z hz).congr (liveChunks_perm hperm.symm z)
  array := hinv.array
  nodup := hinv.nodup
  area := fun a ha => hinv.area a (hperm.mem_iff.mpr ha)
  used := hinv.used.trans (hperm.map _).sum_eq

theorem Inv.area_chunk (ha : a ∈ live)
    (hhome : a.home = .chunk z) : z ∈ zones ∧ a.size ≤ (s.zone z).zChunksize := by
  have harea := hinv.area a ha
  unfold AreaOk at harea
  rwa [hhome] at harea

theorem Inv.page_of_chunk (hz : z ∈ zones) {i : Nat} (hi : i < (s.zone z).zNmax) :
    ∃ j < s.zonePageCnt, ((s.zone z).zBaseptr + i * (s.zone z).zChunksize) / 4096 = z + j := by
  have hzone := hinv.zone z hz
  obtain ⟨hfrom, hto⟩ := hzone.chunk_bounds hi
  obtain ⟨hmin, -⟩ := chunkSize_spec hzone.index
  rw [← hzone.chunksize] at hmin
  have hcnt := hinv.pageCnt.1
  refine ⟨((s.zone z).zBaseptr + i * (s.zone z).zChunksize) / 4096 - z, ?_, ?_⟩
  · omega
  · omega

theorem Inv.home_eq (ha : a ∈ live) : s.home a.ptr = a.home ∧ match a.home with
      | .chunk z => s.memusage (a.ptr / 4096) = ⟨.small, a.ptr / 4096 - z⟩ ∧
          z ≤ a.ptr / 4096
      | .pages count => s.memusage (a.ptr / 4096) = ⟨.large, count⟩ := by
  have harea := hinv.area a ha
  unfold AreaOk at harea
  cases hhome : a.home with
  | chunk z =>
    rw [hhome] at harea
    obtain ⟨hz, -⟩ := harea
    obtain ⟨i, hi, hptr⟩ := (hinv.zone z hz).mem_chunks
      (List.mem_append_left _ (mem_liveChunks ha hhome))
    obtain ⟨j, hj, hpage⟩ := hinv.page_of_chunk hz hi
    rw [← hptr] at hpage
    have husage := hinv.usage z (List.mem_append_left _ hz) j hj
    rw [← hpage] at husage
    unfold SlabHeap.home
    dsimp only
    rw [husage]
    refine ⟨congrArg Home.chunk ?_, congrArg (Memusage.mk .small) ?_, ?_⟩
    · dsimp only
      omega
    · omega
    · omega
  | pages count =>
    rw [hhome] at harea
    unfold SlabHeap.home
    dsimp only
    rw [harea.2.1]
    exact ⟨rfl, rfl⟩

end

end Heap

end RtThread.Slab
