import RtThread.Mem.SlabSteps

namespace RtThread.Slab

open Function RtThread.Lib RtThread.Mem

variable {whole table : Run} {zones : List Nat} {s s' : SlabHeap} {live rest : List Area}
  {z zi size : Nat} {a : Area}

theorem Inv.size_le (hinv : Inv whole table zones s live) (ha : a ∈ live) :
    a.size ≤ s.capacity a := by
  have harea := hinv.area a ha
  unfold AreaOk at harea
  unfold SlabHeap.capacity
  cases hhome : a.home with
  | chunk z =>
    rw [hhome] at harea
    exact harea.2
  | pages count =>
    rw [hhome] at harea
    exact harea.2.2

theorem Inv.resize (hinv : Inv whole table zones s (a :: rest)) (hfits : size ≤ s.capacity a) :
    Inv whole table zones s ({ a with size := size } :: rest) := by
  refine ⟨hinv.size, hinv.pages, hinv.cnt, hinv.usage, ?_, hinv.array, hinv.nodup, ?_, hinv.used⟩
  · intro z hz
    refine (hinv.zone z hz).congr (List.Perm.of_eq ?_)
    by_cases hhome : a.home = .chunk z
    · rw [liveChunks_cons_self hhome, liveChunks_cons_self (a := { a with size := size }) hhome]
    · simp [liveChunks, hhome]
  · intro b hb
    rcases List.mem_cons.mp hb with rfl | hb
    · have harea := hinv.area a List.mem_cons_self
      unfold AreaOk at harea ⊢
      unfold SlabHeap.capacity at hfits
      cases hhome : a.home with
      | chunk z =>
        rw [hhome] at harea hfits
        exact ⟨harea.1, hfits⟩
      | pages count =>
        rw [hhome] at harea hfits
        exact ⟨harea.1, harea.2.1, hfits⟩
    · exact hinv.area b (List.mem_cons_of_mem _ hb)

theorem Inv.ptr_ne_zero (hinv : Inv whole table zones s live) (ha : a ∈ live) : a.ptr ≠ 0 := by
  have harea := hinv.area a ha
  unfold AreaOk at harea
  cases hhome : a.home with
  | chunk z =>
    rw [hhome] at harea
    obtain ⟨i, hi, hptr⟩ := (hinv.zone z harea.1).mem_chunks
      (List.mem_append_left _ (mem_liveChunks ha hhome))
    have hbounds := ((hinv.zone z harea.1).chunk_bounds hi).1
    omega
  | pages count =>
    have hmem : (⟨a.ptr / 4096, count⟩ : Run) ∈
        table :: ((zones ++ s.zoneFree).map s.zoneRun ++ live.filterMap Area.run) :=
      List.mem_cons_of_mem _ (List.mem_append_right _
        (List.mem_filterMap.mpr ⟨a, ha, by rw [Area.run, hhome]⟩))
    have hpos := hinv.pages.pos _ hmem
    have hhas := (hinv.pages.covers (a.ptr / 4096)).mpr
      (.inr ⟨_, hmem, Nat.le_refl _, by unfold Run.stop; dsimp only at hpos ⊢; omega⟩)
    have hstart := hinv.pages.whole_pos.1
    unfold Run.Has at hhas
    omega

theorem Inv.takeChunk (hinv : Inv whole table zones s live) {others : List Nat}
    (hfirst : s.zoneArray zi = z :: others) (hsize : size ≤ chunkSize zi) :
    ∃ p s', takeChunk zi (chunkSize zi) z s = some (p, s') ∧ s'.zoneFree = s.zoneFree ∧
      (∃ i, p = z * 4096 + chunkOff (chunkSize zi) + i * chunkSize zi) ∧
      Inv whole table zones s' (⟨p, size, .chunk z⟩ :: live) := by
  obtain ⟨hz, hzi, hfree⟩ := (hinv.array zi z).mp (by rw [hfirst]; exact List.mem_cons_self)
  have hzone := hinv.zone z hz
  have hchunksize := hzone.chunksize
  have hbaseptr := hzone.baseptr
  rw [hzi] at hchunksize
  rw [hchunksize] at hbaseptr
  have hm : size ≤ (s.zone z).zChunksize := hchunksize.symm ▸ hsize
  unfold Slab.takeChunk
  dsimp only
  rw [if_neg hfree]
  by_cases hmore : (s.zone z).zUindex + 1 = (s.zone z).zNmax
  · rw [if_neg (not_not_intro hmore)]
    cases hchunks : (s.zone z).zFreechunk with
    | nil =>
      have hnfree := hzone.nfree
      rw [hchunks, List.length_nil] at hnfree
      exact absurd (by omega) hfree
    | cons chunk chunks =>
      obtain ⟨i, -, hchunk⟩ := hzone.mem_chunks
        (List.mem_append_right _ (hchunks ▸ List.mem_cons_self))
      rw [hbaseptr, hchunksize] at hchunk
      exact ⟨chunk, _, rfl, rfl, ⟨i, hchunk⟩,
        hinv.take hfirst (hzone.takeFree hchunks hfree) rfl rfl hm⟩
  · rw [if_pos hmore]
    have hok := hzone.takeNew hmore hfree (m := size)
    have hoff : ((s.zone z).zUindex + 1) * (s.zone z).zChunksize =
        ((s.zone z).zUindex + 1) * chunkSize zi := by
      rw [hchunksize]
    rw [hoff] at hok
    exact ⟨_, _, rfl, rfl, ⟨(s.zone z).zUindex + 1, by rw [hbaseptr]⟩,
      hinv.take hfirst hok rfl rfl hm⟩

def firstFit (npages : Nat) (pageList : List Run) : Option Nat :=
  if npages = 0 then none else (pageList.find? (npages ≤ ·.count)).map Run.start

def SlabHeap.servedFrom (size : Nat) (s : SlabHeap) : Option Nat :=
  if s.zoneLimit ≤ size then firstFit (rtAlign size 4096 / 4096) s.pageList
  else
    match s.zoneArray (zoneindex size).1, s.zoneFree with
    | z :: _, _ => some z
    | [], z :: _ => some z
    | [], [] => firstFit s.zonePageCnt s.pageList

theorem takePages_first {npages : Nat} {pageList : List Run} :
    (takePages npages pageList).1 = (pageList.find? (npages ≤ ·.count)).map Run.start := by
  induction pageList with
  | nil => rfl
  | cons b next ih =>
    unfold takePages
    by_cases hfits : npages ≤ b.count
    · rw [List.find?_cons_of_pos (by simpa using hfits)]
      split
      · rfl
      · rw [if_pos (by omega)]
        rfl
    · rw [List.find?_cons_of_neg (by simpa using hfits), if_neg (by omega), if_neg (by omega)]
      exact ih

theorem rtPageAlloc_first (npages : Nat) (pageList : List Run) :
    (rtPageAlloc npages pageList).1 = firstFit npages pageList := by
  unfold rtPageAlloc firstFit
  split
  · rfl
  · exact takePages_first

theorem rtAlign_wrap (hlt : size < 2 ^ 32) (hwrap : 2 ^ 32 < size + 4096) :
    rtAlign size 4096 = 0 := by
  have hround : rtAlign size (2 ^ 12) = (size + (2 ^ 12 - 1)) % 2 ^ 32 / 2 ^ 12 * 2 ^ 12 := by
    rw [rtAlign, rtAlignDown_two_pow (Nat.mod_lt _ (by decide)) (by decide)]
  refine hround.trans ?_
  clear hround
  omega

section

variable (hinv : Inv whole table zones s live)
include hinv

theorem Inv.mallocLarge (hlt : size < 2 ^ 32) :
    mallocLarge size s = (0, s) ∧ firstFit (rtAlign size 4096 / 4096) s.pageList = none ∨
      ∃ page s', mallocLarge size s = (page * 4096, s') ∧ page ≠ 0 ∧ s'.zoneFree = s.zoneFree ∧
        firstFit (rtAlign size 4096 / 4096) s.pageList = some page ∧
        ∃ home, Inv whole table zones s' (⟨page * 4096, size, home⟩ :: live) := by
  unfold Slab.mallocLarge
  dsimp only
  rw [← rtPageAlloc_first]
  rcases halloc : rtPageAlloc (rtAlign size 4096 / 4096) s.pageList with ⟨_ | page, pageList⟩
  · exact .inl ⟨rfl, rfl⟩
  · have hmod := rtAlign_mod size (k := 12) (by decide)
    simp only [Nat.reducePow] at hmod
    have hwhole : rtAlign size 4096 / 4096 * 4096 = rtAlign size 4096 := by omega
    have hfits : size ≤ rtAlign size 4096 / 4096 * 4096 := by
      by_cases hwrap : size + 4096 ≤ 2 ^ 32
      · have hround := @rtAlign_eq size 12 (by decide) hwrap
        simp only [Nat.reducePow] at hround
        omega
      · rw [rtAlign_wrap hlt (Nat.lt_of_not_le hwrap)] at halloc
        cases halloc
    obtain ⟨hzero, hinv'⟩ := hinv.addLarge halloc hfits
    rw [hwhole] at hinv'
    exact .inr ⟨page, _, rfl, hzero, rfl, rfl, _, hinv'⟩

theorem Inv.mallocSmall (hpos : 0 < size) (hsmall : size < s.zoneLimit) :
    ∃ p s', rtMalloc size s = some (p, s') ∧ s'.zoneFree.length ≤ s.zoneFree.length ∧
      (p = 0 ∧ s' = s ∧ s.servedFrom size = none ∨ ∃ page, s.servedFrom size = some page ∧
        (∃ i, p = page * 4096 + chunkOff (zoneindex size).2 + i * (zoneindex size).2) ∧
          ∃ zones home, Inv whole table zones s' (⟨p, size, home⟩ :: live)) := by
  have hlimit : s.zoneLimit ≤ 16384 := Nat.min_le_right _ _
  have hquarter : 4 * s.zoneLimit ≤ s.zoneSize := by
    have hmin : s.zoneLimit ≤ s.zoneSize / 4 := Nat.min_le_left _ _
    omega
  obtain ⟨hchunk, hzi, hfits, hround, hhalf⟩ := zoneindex_spec hpos (by omega)
  have hroom : 4 * chunkSize (zoneindex size).1 ≤ s.zoneSize := by
    have hmax := (chunkSize_spec hzi).2.2.2.2.2
    have hsize := hinv.size
    have hzero : s.zoneLimit = min (s.zoneSize / 4) (16 * 1024) := rfl
    rw [← hchunk] at hmax ⊢
    rcases hsize with hsize | hsize | hsize
    · rw [hsize] at hzero
      have hle := hhalf (by omega)
      omega
    · omega
    · omega
  rw [hchunk] at hfits ⊢
  unfold Slab.rtMalloc SlabHeap.servedFrom
  rw [if_neg (by omega), if_neg (by omega), if_neg (by omega)]
  dsimp only
  rw [if_neg (by omega), hchunk]
  cases harray : s.zoneArray (zoneindex size).1 with
  | cons z others =>
    obtain ⟨p, s', htake, hfree, hptr, hinv'⟩ := hinv.takeChunk harray hfits
    exact ⟨p, s', htake, Nat.le_of_eq (congrArg _ hfree), .inr ⟨z, rfl, hptr, zones, _, hinv'⟩⟩
  | nil =>
    dsimp only
    unfold takeZone
    cases hfirst : s.zoneFree with
    | cons z others =>
      have hinv' := hinv.openZone hfirst hzi hroom hfits
      refine ⟨_, _, rfl, Nat.le_succ _, .inr ⟨z, rfl, ⟨0, rfl⟩, z :: zones, .chunk z, ?_⟩⟩
      rw [Nat.zero_mul, Nat.add_zero]
      exact hinv'
    | nil =>
      dsimp only
      rw [← rtPageAlloc_first]
      rcases halloc : rtPageAlloc s.zonePageCnt s.pageList with ⟨_ | z, pageList⟩
      · exact ⟨0, s, rfl, by rw [hfirst], .inl ⟨rfl, rfl, rfl⟩⟩
      · have hpark := hinv.addZone halloc
        rw [hfirst] at hpark
        have hinv' := hpark.openZone rfl hzi hroom hfits
        refine ⟨_, _, rfl, Nat.le_refl _, .inr ⟨z, rfl, ⟨0, rfl⟩, z :: zones, .chunk z, ?_⟩⟩
        rw [Nat.zero_mul, Nat.add_zero]
        exact hinv'

theorem Inv.rtMalloc (hlt : size < 2 ^ 32) :
    ∃ p s', rtMalloc size s = some (p, s') ∧ s'.zoneFree.length ≤ s.zoneFree.length ∧
      (p = 0 ∧ s' = s ∨
        p ≠ 0 ∧ ∃ zones home, Inv whole table zones s' (⟨p, size, home⟩ :: live)) := by
  by_cases hzero : size = 0
  · exact ⟨0, s, if_pos hzero, Nat.le_refl _, .inl ⟨rfl, rfl⟩⟩
  by_cases hlarge : s.zoneLimit ≤ size
  · rw [Slab.rtMalloc, if_neg hzero, if_pos hlarge]
    rcases hinv.mallocLarge hlt with ⟨hcall, -⟩ | ⟨page, s', hcall, hpage, hfree, -, hinv'⟩
    · exact ⟨0, s, congrArg some hcall, Nat.le_refl _, .inl ⟨rfl, rfl⟩⟩
    · exact ⟨_, s', congrArg some hcall, Nat.le_of_eq (congrArg _ hfree),
        .inr ⟨by omega, zones, hinv'⟩⟩
  · obtain ⟨p, s', hcall, hfree, ⟨hp, hs', -⟩ | ⟨page, -, -, zones', home, hinv'⟩⟩ :=
      hinv.mallocSmall (Nat.pos_of_ne_zero hzero) (Nat.lt_of_not_le hlarge)
    · exact ⟨p, s', hcall, hfree, .inl ⟨hp, hs'⟩⟩
    · exact ⟨p, s', hcall, hfree, .inr ⟨hinv'.ptr_ne_zero List.mem_cons_self, zones', home, hinv'⟩⟩

theorem Inv.releaseZone (hz : z ∈ zones)
    (hfull : (s.zone z).zNfree = (s.zone z).zNmax) (hcnt : s.zoneFree.length ≤ zoneReleaseThresh) :
    ∃ s', releaseZone (s.zone z).zZoneindex z s = some s' ∧
      s'.zoneFree.length ≤ zoneReleaseThresh ∧ ∃ zones, Inv whole table zones s' live := by
  have huindex := (hinv.zone z hz).uindex
  have hlisted : z ∈ s.zoneArray (s.zone z).zZoneindex := (hinv.array _ z).mpr ⟨hz, rfl, by omega⟩
  have hretired := hinv.retire hz hfull
  have hlength := hinv.cnt
  unfold Slab.releaseZone
  rw [if_pos hlisted]
  dsimp only
  by_cases hmany : zoneReleaseThresh < s.zoneFreeCnt + 1
  · rw [if_pos hmany]
    obtain ⟨pageList, hfree, hinv'⟩ := hretired.dropZone rfl
    exact ⟨_, congrArg (Option.map _) hfree, hcnt, _, hinv'⟩
  · rw [if_neg hmany]
    refine ⟨_, rfl, ?_, _, hretired⟩
    rw [List.length_cons]
    omega

end

theorem Inv.rtFree (hinv : Inv whole table zones s (a :: rest))
    (hcnt : s.zoneFree.length ≤ zoneReleaseThresh) :
    ∃ s', rtFree a.ptr s = some s' ∧ s'.zoneFree.length ≤ zoneReleaseThresh ∧
      ∃ zones, Inv whole table zones s' rest := by
  have harea := hinv.area a List.mem_cons_self
  have hkup := (hinv.home_eq List.mem_cons_self).2
  unfold Slab.rtFree
  rw [if_neg (hinv.ptr_ne_zero List.mem_cons_self)]
  dsimp only
  unfold AreaOk at harea
  cases hhome : a.home with
  | chunk z =>
    rw [hhome] at harea hkup
    obtain ⟨hkup, hle⟩ := hkup
    have hput := hinv.putChunk hhome
    have hback : a.ptr / 4096 - (a.ptr / 4096 - z) = z := Nat.sub_sub_self hle
    rw [hkup, if_neg (by simp), hback, if_pos (hinv.zone z harea.1).magic]
    split
    next hfull => exact hput.releaseZone harea.1 hfull.1 hcnt
    · exact ⟨_, rfl, hcnt, zones, hput⟩
  | pages count =>
    rw [hhome] at harea hkup
    obtain ⟨pageList, hfree, hinv'⟩ := hinv.dropLarge hhome
    dsimp only at hkup
    rw [hkup, if_pos rfl, if_pos harea.1]
    exact ⟨_, congrArg (Option.map _) hfree, hcnt, zones, hinv'⟩

theorem Inv.moveBlock (hinv : Inv whole table zones s (a :: rest)) (hlt : size < 2 ^ 32)
    (hcnt : s.zoneFree.length ≤ zoneReleaseThresh) :
    ∃ p s', moveBlock a.ptr size s = some (p, s') ∧ s'.zoneFree.length ≤ zoneReleaseThresh ∧
      (p = 0 ∧ s' = s ∨
        p ≠ 0 ∧ ∃ zones home, Inv whole table zones s' (⟨p, size, home⟩ :: rest)) := by
  unfold Slab.moveBlock
  obtain ⟨p, s', hcall, hlength, ⟨hp, hs'⟩ | ⟨hp, zones', home, hinv'⟩⟩ := hinv.rtMalloc hlt
  · refine ⟨0, s, ?_, hcnt, .inl ⟨rfl, rfl⟩⟩
    rw [hcall, Option.bind_some]
    dsimp only
    rw [if_pos hp, hs']
  · obtain ⟨s'', hfree, hcnt', zones'', hinv''⟩ :=
      (hinv'.perm (List.Perm.swap _ _ _)).rtFree (hlength.trans hcnt)
    refine ⟨p, s'', ?_, hcnt', .inr ⟨hp, zones'', home, hinv''⟩⟩
    rw [hcall, Option.bind_some]
    dsimp only
    rw [if_neg hp, hfree]
    rfl

theorem zoneindex_le (hpos : 0 < size) (hlt : size < 2 ^ 32) :
    size ≤ (zoneindex size).2 ∧ (zoneindex size).2 < 2 ^ 32 := by
  by_cases hlarge : 16384 ≤ size
  · rw [zoneindex_large hlarge]
    exact ⟨Nat.le_refl _, hlt⟩
  · obtain ⟨-, -, hle, hround, -⟩ := zoneindex_spec hpos (Nat.lt_of_not_le hlarge)
    exact ⟨hle, by omega⟩

theorem Inv.rtRealloc (hinv : Inv whole table zones s (a :: rest)) (hpos : 0 < size)
    (hlt : size < 2 ^ 32) (hcnt : s.zoneFree.length ≤ zoneReleaseThresh) :
    ∃ p s', rtRealloc a.ptr size s = some (p, s') ∧ s'.zoneFree.length ≤ zoneReleaseThresh ∧
      (p = 0 ∧ s' = s ∨
        p ≠ 0 ∧ ∃ zones home, Inv whole table zones s' (⟨p, size, home⟩ :: rest)) := by
  have hne := hinv.ptr_ne_zero List.mem_cons_self
  have harea := hinv.area a List.mem_cons_self
  have hkup := (hinv.home_eq List.mem_cons_self).2
  unfold Slab.rtRealloc
  rw [if_neg hne, if_neg (Nat.pos_iff_ne_zero.mp hpos)]
  dsimp only
  unfold AreaOk at harea
  cases hhome : a.home with
  | chunk z =>
    rw [hhome] at harea hkup
    obtain ⟨hkup, hle⟩ := hkup
    obtain ⟨hrounded, hlt'⟩ := zoneindex_le hpos hlt
    have hback : a.ptr / 4096 - (a.ptr / 4096 - z) = z := Nat.sub_sub_self hle
    rw [hkup]
    dsimp only
    rw [hback, if_pos (hinv.zone z harea.1).magic]
    by_cases hsame : (s.zone z).zChunksize = (zoneindex size).2
    · rw [if_pos hsame]
      have hcapacity : s.capacity a = (zoneindex size).2 := by
        rw [SlabHeap.capacity, hhome]
        exact hsame
      have hinv' := hinv.resize (hcapacity.symm ▸ hrounded)
      exact ⟨a.ptr, s, rfl, hcnt, .inr ⟨hne, zones, _, hinv'⟩⟩
    · rw [if_neg hsame]
      obtain ⟨p, s', hcall, hcnt', hnone | ⟨hp, zones', home, hinv'⟩⟩ :=
        hinv.moveBlock hlt' hcnt
      · exact ⟨p, s', hcall, hcnt', .inl hnone⟩
      · have hfits := hrounded.trans (hinv'.size_le List.mem_cons_self)
        exact ⟨p, s', hcall, hcnt', .inr ⟨hp, zones', home, hinv'.resize hfits⟩⟩
  | pages count =>
    rw [hhome] at hkup
    dsimp only at hkup
    rw [hkup]
    exact hinv.moveBlock hlt hcnt

section Runs

variable {c c' : SlabClient}

def ClientInv (c : SlabClient) : Prop :=
  c.zoneFree.length ≤ zoneReleaseThresh ∧
    ∃ whole table zones, Inv whole table zones c.toSlabHeap c.live

theorem dropLive_perm {ptr : Nat} {live : List Area} (hmem : ptr ∈ live.map Area.ptr) :
    ∃ a, a.ptr = ptr ∧ live.Perm (a :: dropLive ptr live) := by
  obtain ⟨b, hb, hptr⟩ := List.mem_map.mp hmem
  obtain ⟨a, before, after, -, ha, hlive, herase⟩ :=
    List.exists_of_eraseP (p := (·.ptr = ptr)) hb (by simpa using hptr)
  refine ⟨a, by simpa using ha, ?_⟩
  rw [dropLive, herase, hlive]
  exact List.perm_middle

theorem dropLive_zero (hinv : Inv whole table zones s live) : dropLive 0 live = live :=
  List.eraseP_of_forall_not fun a ha => by simpa using hinv.ptr_ne_zero ha

theorem Inv.noted {p : Nat} {home : Home}
    (hinv : Inv whole table zones s (⟨p, size, home⟩ :: live)) :
    Inv whole table zones s (s.area p size :: live) := by
  have hhome := (hinv.home_eq List.mem_cons_self).1
  rw [SlabHeap.area, hhome]
  exact hinv

theorem ClientInv.malloc (hinv : ClientInv c) (hlt : size < 2 ^ 32) :
    ∃ c', c.call (.malloc size) = some c' ∧ ClientInv c' := by
  obtain ⟨hcnt, whole, table, zones, hinv⟩ := hinv
  dsimp only [SlabClient.call]
  rw [if_pos hlt]
  obtain ⟨p, s', hsome, hlength, ⟨hp, hs'⟩ | ⟨hp, zones', home, hinv'⟩⟩ := hinv.rtMalloc hlt
  · rw [hsome, Option.map_some]
    dsimp only
    rw [if_pos hp, hs']
    exact ⟨_, rfl, hcnt, whole, table, zones, hinv⟩
  · rw [hsome, Option.map_some]
    dsimp only
    rw [if_neg hp]
    exact ⟨_, rfl, hlength.trans hcnt, whole, table, zones', hinv'.noted⟩

theorem ClientInv.free {ptr : Nat} (hinv : ClientInv c) (hheld : c.Held ptr) :
    ∃ c', c.call (.free ptr) = some c' ∧ ClientInv c' := by
  obtain ⟨hcnt, whole, table, zones, hinv⟩ := hinv
  dsimp only [SlabClient.call]
  rw [if_pos hheld]
  rcases hheld with rfl | hmem
  · rw [Slab.rtFree, if_pos rfl, dropLive_zero hinv]
    exact ⟨_, rfl, hcnt, whole, table, zones, hinv⟩
  · obtain ⟨a, rfl, hperm⟩ := dropLive_perm hmem
    obtain ⟨s', hsome, hcnt', zones', hinv'⟩ := (hinv.perm hperm).rtFree hcnt
    rw [hsome, Option.map_some]
    exact ⟨_, rfl, hcnt', whole, table, zones', hinv'⟩

theorem ClientInv.realloc {ptr : Nat} (hinv : ClientInv c) (hheld : c.Held ptr)
    (hlt : size < 2 ^ 32) : ∃ c', c.call (.realloc ptr size) = some c' ∧ ClientInv c' := by
  by_cases hnull : ptr = 0
  · obtain ⟨c', hcall, hinv'⟩ := hinv.malloc hlt
    refine ⟨c', ?_, hinv'⟩
    obtain ⟨-, whole, table, zones, hinv⟩ := hinv
    rw [← hcall]
    dsimp only [SlabClient.call]
    rw [if_pos ⟨hheld, hlt⟩, if_pos hlt, hnull, dropLive_zero hinv, rtRealloc, if_pos rfl]
    by_cases hzero : size = 0
    · rw [Slab.rtMalloc, if_pos hzero, Option.map_some, Option.map_some]
      dsimp only
      rw [if_pos hzero, if_pos rfl]
    · simp only [if_neg hzero]
  · by_cases hzero : size = 0
    · obtain ⟨c', hcall, hinv'⟩ := hinv.free hheld
      refine ⟨c', ?_, hinv'⟩
      rw [← hcall]
      dsimp only [SlabClient.call]
      rw [if_pos ⟨hheld, hlt⟩, if_pos hheld, rtRealloc, if_neg hnull, if_pos hzero, Option.map_map]
      simp only [comp_def, if_pos hzero]
    · obtain ⟨hcnt, whole, table, zones, hinv⟩ := hinv
      obtain ⟨a, rfl, hperm⟩ := dropLive_perm (hheld.resolve_left hnull)
      obtain ⟨p, s', hsome, hcnt', ⟨hp, hs'⟩ | ⟨hp, zones', home, hinv'⟩⟩ :=
        (hinv.perm hperm).rtRealloc (Nat.pos_of_ne_zero hzero) hlt hcnt
      · dsimp only [SlabClient.call]
        rw [if_pos ⟨hheld, hlt⟩, hsome, Option.map_some]
        dsimp only
        rw [if_neg hzero, if_pos hp, hs']
        exact ⟨_, rfl, hcnt, whole, table, zones, hinv⟩
      · dsimp only [SlabClient.call]
        rw [if_pos ⟨hheld, hlt⟩, hsome, Option.map_some]
        dsimp only
        rw [if_neg hzero, if_neg hp]
        exact ⟨_, rfl, hcnt', whole, table, zones', hinv'.noted⟩

theorem ClientInv.call {op : SlabOp} (hinv : ClientInv c) (hcall : c.call op = some c') :
    ClientInv c' := by
  have hdone : (∃ c', c.call op = some c' ∧ ClientInv c') → ClientInv c' := by
    rintro ⟨c'', hcall', hinv'⟩
    rw [hcall] at hcall'
    cases hcall'
    exact hinv'
  cases op with
  | malloc size =>
    refine hdone (hinv.malloc ?_)
    by_contra hnot
    rw [SlabClient.call, if_neg hnot] at hcall
    cases hcall
  | realloc ptr size =>
    have hallowed : c.Held ptr ∧ size < 2 ^ 32 := by
      by_contra hnot
      rw [SlabClient.call, if_neg hnot] at hcall
      cases hcall
    exact hdone (hinv.realloc hallowed.1 hallowed.2)
  | free ptr =>
    refine hdone (hinv.free ?_)
    by_contra hnot
    rw [SlabClient.call, if_neg hnot] at hcall
    cases hcall

theorem ClientInv.init {beginAddr endAddr : Nat} (hinit : (slabMachine beginAddr endAddr).init c) :
    ClientInv c := by
  obtain ⟨heap, live⟩ := c
  obtain ⟨hlive, memusage, zone, hinit⟩ := hinit
  cases hlive
  unfold rtSystemHeapInit at hinit
  dsimp only at hinit
  split at hinit
  · cases hinit
  split at hinit
  · cases hinit
  next pageList hpages =>
    split at hinit
    · cases hinit
    next page pageList' halloc =>
      cases hinit
      have hwhole : PageInv ⟨rtAlign beginAddr 4096 / 4096,
          (rtAlignDown endAddr 4096 - rtAlign beginAddr 4096) / 4096⟩ ⟨pageList, []⟩ :=
        PageInv.init ⟨hpages, rfl⟩
      have hsize (limsize : Nat) : zoneSizeFor limsize = 32768 ∨ zoneSizeFor limsize = 65536 ∨
          zoneSizeFor limsize = 131072 := by
        unfold zoneSizeFor
        split_ifs <;> simp
      exact ⟨Nat.zero_le _, _, _, [], ⟨hsize _, hwhole.alloc halloc, rfl, by simp, by simp, by simp,
        fun _ => List.nodup_nil, by simp, rfl⟩⟩

theorem ClientInv.reachable {beginAddr endAddr : Nat}
    (hreach : (slabMachine beginAddr endAddr).Reachable (fun _ _ => True) c) : ClientInv c :=
  hreach.invariant ClientInv (fun _ hinit => .init hinit) fun _ _ _ hinv _ hexec => hinv.call hexec

end Runs

end RtThread.Slab
