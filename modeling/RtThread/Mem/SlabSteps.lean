import RtThread.Mem.SlabInvariant

namespace RtThread.Slab

open Function RtThread.Lib RtThread.Mem SlabHeap

variable {whole table : Run} {zones : List Nat} {s : SlabHeap} {live live' : List Area}
  {z zi : Nat} {a : Area}

section Pages

variable {run : Run} {usage : Nat → Memusage}

theorem Inv.usage_congr (hinv : Inv whole table zones s live)
    (hsame : ∀ page, ¬ run.Has page → usage page = s.memusage page) {zs : List Nat}
    (hzs : zs ⊆ zones ++ s.zoneFree) (hapart : ∀ z ∈ zs, run.Apart (s.zoneRun z)) :
    ∀ z ∈ zs, ∀ i < s.zonePageCnt, usage (z + i) = ⟨.small, i⟩ := by
  intro z hz i hi
  rw [hsame (z + i) fun hhas => (hapart z hz).not_has hhas ⟨by simp [zoneRun],
    by simpa [zoneRun, Run.stop] using hi⟩]
  exact hinv.usage z (hzs hz) i hi

theorem Inv.area_congr (hinv : Inv whole table zones s live)
    (hsame : ∀ page, ¬ run.Has page → usage page = s.memusage page) (hlive : live' ⊆ live)
    (hapart : ∀ run' ∈ live'.filterMap Area.run, run.Apart run') {pageList : List Run}
    {zoneFree : List Nat} {zoneFreeCnt usedMem : Nat} :
    ∀ a ∈ live', AreaOk { s with
      pageList := pageList, memusage := usage, zoneFree := zoneFree, zoneFreeCnt := zoneFreeCnt
      usedMem := usedMem } zones a := by
  intro a ha
  have harea := hinv.area a (hlive ha)
  unfold AreaOk at harea ⊢
  cases hhome : a.home with
  | chunk z =>
    rw [hhome] at harea
    exact harea
  | pages count =>
    rw [hhome] at harea
    obtain ⟨halign, husage, hsize⟩ := harea
    have hrun : (⟨a.ptr / 4096, count⟩ : Run) ∈ live'.filterMap Area.run :=
      List.mem_filterMap.mpr ⟨a, ha, by rw [Area.run, hhome]⟩
    have hpos := hinv.pages.pos ⟨a.ptr / 4096, count⟩ (List.mem_cons_of_mem _
      (List.mem_append_right _ (List.mem_filterMap.mpr ⟨a, hlive ha, by rw [Area.run, hhome]⟩)))
    dsimp only at hpos
    refine ⟨halign, ?_, hsize⟩
    dsimp only
    rw [hsame _ fun hhas => (hapart _ hrun).not_has hhas ⟨Nat.le_refl _,
      by unfold Run.stop; dsimp only; omega⟩]
    exact husage

theorem setPages_of_not (hpage : ¬ (s.zoneRun z).Has p) (f : Nat → Memusage) :
    setPages usage z s.zonePageCnt f p = usage p := if_neg hpage

theorem Inv.addLarge (hinv : Inv whole table zones s live) {page npages m : Nat}
    {pageList : List Run} (halloc : rtPageAlloc npages s.pageList = (some page, pageList))
    (hm : m ≤ npages * 4096) :
    page ≠ 0 ∧ Inv whole table zones { s with
      pageList := pageList
      memusage := update s.memusage page ⟨.large, npages⟩
      usedMem := s.usedMem + npages * 4096 } (⟨page * 4096, m, .pages npages⟩ :: live) := by
  have hpages := hinv.pages.alloc halloc
  obtain ⟨hfresh, -⟩ := List.pairwise_cons.mp hpages.apart
  have hpos := hpages.pos _ List.mem_cons_self
  have hsame : ∀ other, ¬ (⟨page, npages⟩ : Run).Has other →
      update s.memusage page ⟨.large, npages⟩ other = s.memusage other := by
    intro other hnot
    refine update_of_ne (fun heq => hnot ?_) _ _
    rw [heq]
    exact ⟨Nat.le_refl _, by unfold Run.stop; dsimp only at hpos ⊢; omega⟩
  have hzero : page ≠ 0 := by
    have hhas := (hpages.covers page).mpr
      (.inr ⟨_, List.mem_cons_self, Nat.le_refl _, by unfold Run.stop; dsimp only at hpos ⊢; omega⟩)
    have hstart := hinv.pages.whole_pos.1
    unfold Run.Has at hhas
    omega
  have hpage : page * 4096 / 4096 = page := Nat.mul_div_cancel _ (by decide)
  refine ⟨hzero, hinv.size, ?_, hinv.cnt, ?_, ?_, hinv.array, hinv.nodup, ?_, ?_⟩
  · refine PageInv.perm hpages ?_
    have hrun : Area.run ⟨page * 4096, m, .pages npages⟩ = some ⟨page, npages⟩ := by
      rw [Area.run, hpage]
    rw [List.filterMap_cons_some hrun]
    exact ((List.Perm.swap _ _ _).trans (List.perm_middle.symm.cons _))
  · exact hinv.usage_congr hsame (fun _ h => h) fun z hz => hfresh _ (List.mem_cons_of_mem _
      (List.mem_append_left _ (List.mem_map_of_mem hz)))
  · intro z hz
    exact (hinv.zone z hz).congr (List.Perm.of_eq (by simp [liveChunks]))
  · intro a ha
    rcases List.mem_cons.mp ha with rfl | ha
    · refine ⟨Nat.mul_mod_left _ _, ?_, hm⟩
      dsimp only
      rw [hpage, update_self]
    · exact hinv.area_congr hsame (fun _ h => h) (fun run hrun => hfresh _
        (List.mem_cons_of_mem _ (List.mem_append_right _ hrun))) a ha
  · rw [List.map_cons, List.sum_cons, Nat.add_comm]
    exact congrArg (npages * 4096 + ·) hinv.used

theorem PageInv.giveBack {pageList allocated others : List Run}
    (hpages : PageInv whole ⟨pageList, allocated⟩) (hperm : allocated.Perm (run :: others)) :
    (∃ pageList', rtPageFree run.start run.count pageList = some pageList' ∧
      PageInv whole ⟨pageList', others⟩) ∧ ∀ other ∈ others, run.Apart other := by
  have hpages' := PageInv.perm hpages hperm
  refine ⟨?_, (List.pairwise_cons.mp hpages'.apart).1⟩
  obtain ⟨pageList', hfree, hinv'⟩ := hpages'.free List.mem_cons_self
  rw [List.erase_cons_head] at hinv'
  exact ⟨pageList', hfree, hinv'⟩

theorem Inv.dropLarge {rest : List Area} {count : Nat}
    (hinv : Inv whole table zones s (a :: rest)) (hhome : a.home = .pages count) :
    ∃ pageList, rtPageFree (a.ptr / 4096) count s.pageList = some pageList ∧
      Inv whole table zones { s with
        pageList := pageList
        memusage := update s.memusage (a.ptr / 4096) ⟨.large, 0⟩
        usedMem := s.usedMem - count * 4096 } rest := by
  have hrun : a.run = some ⟨a.ptr / 4096, count⟩ := by
    rw [Area.run, hhome]
  have hperm : (table :: ((zones ++ s.zoneFree).map s.zoneRun ++
      (a :: rest).filterMap Area.run)).Perm (⟨a.ptr / 4096, count⟩ ::
        (table :: ((zones ++ s.zoneFree).map s.zoneRun ++ rest.filterMap Area.run))) := by
    rw [List.filterMap_cons_some hrun]
    exact (List.perm_middle.cons _).trans (List.Perm.swap _ _ _)
  have hpos := hinv.pages.pos _ (hperm.mem_iff.mpr List.mem_cons_self)
  obtain ⟨⟨pageList, hfree, hpages⟩, hfresh⟩ := PageInv.giveBack hinv.pages hperm
  have hsame : ∀ page, ¬ (⟨a.ptr / 4096, count⟩ : Run).Has page →
      update s.memusage (a.ptr / 4096) ⟨.large, 0⟩ page = s.memusage page := by
    intro page hnot
    refine update_of_ne (fun heq => hnot ?_) _ _
    rw [heq]
    exact ⟨Nat.le_refl _, by unfold Run.stop; dsimp only at hpos ⊢; omega⟩
  refine ⟨pageList, hfree, hinv.size, hpages, hinv.cnt, ?_, ?_, hinv.array, hinv.nodup, ?_, ?_⟩
  · exact hinv.usage_congr hsame (fun _ h => h) fun z hz => hfresh _ (List.mem_cons_of_mem _
      (List.mem_append_left _ (List.mem_map_of_mem hz)))
  · intro z hz
    exact (hinv.zone z hz).congr (List.Perm.of_eq (by simp [liveChunks, hhome]))
  · exact hinv.area_congr hsame (fun _ h => List.mem_cons_of_mem _ h) fun run hrun => hfresh _
      (List.mem_cons_of_mem _ (List.mem_append_right _ hrun))
  · have hused := hinv.used
    have hcapacity : s.capacity a = count * 4096 := by
      rw [capacity, hhome]
    rw [List.map_cons, List.sum_cons, hcapacity] at hused
    have hrest : s.usedMem - count * 4096 = (rest.map s.capacity).sum := by omega
    exact hrest

theorem Inv.addZone (hinv : Inv whole table zones s live) {pageList : List Run}
    (halloc : rtPageAlloc s.zonePageCnt s.pageList = (some z, pageList)) :
    Inv whole table zones { s with
      pageList := pageList
      memusage := setPages s.memusage z s.zonePageCnt fun off => ⟨.small, off⟩
      zoneFree := z :: s.zoneFree
      zoneFreeCnt := s.zoneFreeCnt + 1 } live := by
  have hpages := hinv.pages.alloc halloc
  obtain ⟨hfresh, -⟩ := List.pairwise_cons.mp hpages.apart
  have hsame : ∀ page, ¬ (s.zoneRun z).Has page → setPages s.memusage z s.zonePageCnt
      (fun off => ⟨.small, off⟩) page = s.memusage page := fun page hnot => setPages_of_not hnot _
  refine ⟨hinv.size, ?_, congrArg (· + 1) hinv.cnt, ?_, hinv.zone, hinv.array, hinv.nodup, ?_,
    hinv.used⟩
  · refine PageInv.perm hpages ((List.Perm.swap _ _ _).trans (List.Perm.cons _ ?_))
    dsimp only
    rw [List.map_append, List.map_append, List.map_cons, List.append_assoc, List.append_assoc]
    exact List.perm_middle.symm
  · intro other hother i hi
    have hmem : other = z ∨ other ∈ zones ++ s.zoneFree := by
      have hmem := List.perm_middle.mem_iff.mp hother
      exact List.mem_cons.mp hmem
    rcases hmem with rfl | hmem
    · have hin : other ≤ other + i ∧ other + i < other + s.zonePageCnt := by
        have hlt : i < s.zonePageCnt := hi
        omega
      dsimp only
      rw [setPages, if_pos hin, Nat.add_sub_cancel_left]
    · exact hinv.usage_congr hsame (fun _ h => h) (fun z hz => hfresh _ (List.mem_cons_of_mem _
        (List.mem_append_left _ (List.mem_map_of_mem hz)))) other hmem i hi
  · exact hinv.area_congr hsame (fun _ h => h) fun run hrun => hfresh _
      (List.mem_cons_of_mem _ (List.mem_append_right _ hrun))

theorem Inv.dropZone (hinv : Inv whole table zones s live) {rest : List Nat}
    (hfirst : s.zoneFree = z :: rest) :
    ∃ pageList, rtPageFree z s.zonePageCnt s.pageList = some pageList ∧
      Inv whole table zones { s with
        pageList := pageList
        memusage := setPages s.memusage z s.zonePageCnt fun _ => ⟨.free, 0⟩
        zoneFree := rest
        zoneFreeCnt := s.zoneFreeCnt - 1 } live := by
  have hperm : (table :: ((zones ++ s.zoneFree).map s.zoneRun ++ live.filterMap Area.run)).Perm
      (s.zoneRun z :: (table :: ((zones ++ rest).map s.zoneRun ++ live.filterMap Area.run))) := by
    rw [hfirst, List.map_append, List.map_append, List.map_cons, List.append_assoc,
      List.append_assoc]
    exact (List.perm_middle.cons _).trans (List.Perm.swap _ _ _)
  obtain ⟨⟨pageList, hfree, hpages⟩, hfresh⟩ := PageInv.giveBack hinv.pages hperm
  have hsame : ∀ page, ¬ (s.zoneRun z).Has page → setPages s.memusage z s.zonePageCnt
      (fun _ => ⟨.free, 0⟩) page = s.memusage page := fun page hnot => setPages_of_not hnot _
  have hcnt := hinv.cnt
  rw [hfirst, List.length_cons] at hcnt
  refine ⟨pageList, hfree, hinv.size, hpages, ?_, ?_, hinv.zone, hinv.array, hinv.nodup, ?_,
    hinv.used⟩
  · dsimp only
    omega
  · refine hinv.usage_congr hsame (fun other hother => ?_) fun z hz => hfresh _
      (List.mem_cons_of_mem _ (List.mem_append_left _ (List.mem_map_of_mem hz)))
    rw [hfirst]
    exact List.perm_middle.mem_iff.mpr (List.mem_cons_of_mem _ hother)
  · exact hinv.area_congr hsame (fun _ h => h) fun run hrun => hfresh _
      (List.mem_cons_of_mem _ (List.mem_append_right _ hrun))

end Pages

section Zones

variable {zone : SlabZone} {rest : List Area} {p m : Nat}

theorem nodup_update {array : Nat → List Nat} {list : List Nat} (hlist : list.Nodup)
    (harray : ∀ index, (array index).Nodup) (index : Nat) :
    (update array zi list index).Nodup := by
  by_cases hindex : index = zi
  · rwa [hindex, update_self]
  · rw [update_of_ne hindex]
    exact harray index

theorem liveChunks_cons_self (hhome : a.home = .chunk z) :
    liveChunks z (a :: live) = a.ptr :: liveChunks z live := by
  simp [liveChunks, hhome]

theorem liveChunks_cons_ne {other : Nat} (hhome : a.home = .chunk z) (hne : other ≠ z) :
    liveChunks other (a :: live) = liveChunks other live := by
  simp [liveChunks, hhome, hne.symm]

theorem ZoneOk.takeNew {zoneSize : Nat} (hzone : ZoneOk zoneSize z zone live)
    (hmore : zone.zUindex + 1 ≠ zone.zNmax) (hfree : zone.zNfree ≠ 0) :
    ZoneOk zoneSize z { zone with zNfree := zone.zNfree - 1, zUindex := zone.zUindex + 1 }
      (⟨zone.zBaseptr + (zone.zUindex + 1) * zone.zChunksize, m, .chunk z⟩ :: live) := by
  have huindex := hzone.uindex
  have hnfree := hzone.nfree
  refine { hzone with uindex := ?_, nfree := ?_, chunks := ?_ }
  · dsimp only
    omega
  · dsimp only
    omega
  · rw [liveChunks_cons_self rfl, List.range_succ, List.map_append]
    exact (hzone.chunks.cons _).trans (List.perm_append_singleton _ _).symm

theorem ZoneOk.takeFree {zoneSize : Nat} (hzone : ZoneOk zoneSize z zone live) {chunks : List Nat}
    (hchunks : zone.zFreechunk = p :: chunks) (hfree : zone.zNfree ≠ 0) :
    ZoneOk zoneSize z { zone with zNfree := zone.zNfree - 1, zFreechunk := chunks }
      (⟨p, m, .chunk z⟩ :: live) := by
  have hnfree := hzone.nfree
  rw [hchunks, List.length_cons] at hnfree
  have hperm := hzone.chunks
  rw [hchunks] at hperm
  refine { hzone with nfree := ?_, chunks := ?_ }
  · dsimp only
    omega
  · rw [liveChunks_cons_self rfl]
    exact List.perm_middle.symm.trans hperm

theorem ZoneOk.giveBack {zoneSize : Nat} (hzone : ZoneOk zoneSize z zone (a :: rest))
    (hhome : a.home = .chunk z) :
    ZoneOk zoneSize z
      { zone with zFreechunk := a.ptr :: zone.zFreechunk, zNfree := zone.zNfree + 1 } rest := by
  have hnfree := hzone.nfree
  have hperm := hzone.chunks
  rw [liveChunks_cons_self hhome] at hperm
  refine { hzone with nfree := ?_, chunks := List.perm_middle.trans hperm }
  dsimp only [List.length_cons]
  omega

theorem Inv.edit (hinv : Inv whole table zones s live) (hz : z ∈ zones)
    {array : Nat → List Nat} {usedMem : Nat} (hok : ZoneOk s.zoneSize z zone live')
    (hindex : zone.zZoneindex = (s.zone z).zZoneindex)
    (hchunks : ∀ other, other ≠ z → liveChunks other live' = liveChunks other live)
    (hruns : live'.filterMap Area.run = live.filterMap Area.run)
    (harray : ∀ index other, other ∈ array index ↔
      if other = z then zone.zZoneindex = index ∧ zone.zNfree ≠ 0 else other ∈ s.zoneArray index)
    (hnodup : ∀ index, (array index).Nodup)
    (harea : ∀ a ∈ live', a ∈ live ∨ a.home = .chunk z ∧ a.size ≤ zone.zChunksize)
    (hused : usedMem = (live'.map s.capacity).sum) :
    Inv whole table zones { s with
      zone := update s.zone z zone, zoneArray := array, usedMem := usedMem } live' := by
  have hsize : ∀ other, (update s.zone z zone other).zChunksize = (s.zone other).zChunksize := by
    intro other
    by_cases heq : other = z
    · rw [heq, update_self, hok.chunksize, hindex, (hinv.zone z hz).chunksize]
    · rw [update_of_ne heq]
  refine ⟨hinv.size, ?_, hinv.cnt, hinv.usage, ?_, ?_, hnodup, ?_, ?_⟩
  · rw [hruns]
    exact hinv.pages
  · intro other hother
    by_cases heq : other = z
    · dsimp only
      rw [heq, update_self]
      exact hok
    · dsimp only
      rw [update_of_ne heq]
      exact (hinv.zone other hother).congr (List.Perm.of_eq (hchunks other heq))
  · intro index other
    rw [harray]
    dsimp only
    by_cases heq : other = z
    · rw [if_pos heq, heq, update_self]
      exact ⟨fun h => ⟨hz, h⟩, And.right⟩
    · rw [if_neg heq, update_of_ne heq]
      exact hinv.array index other
  · intro a ha
    unfold AreaOk
    dsimp only
    rcases harea a ha with hold | ⟨hhome, hle⟩
    · have hok := hinv.area a hold
      unfold AreaOk at hok
      cases hhome : a.home with
      | chunk other =>
        rw [hhome] at hok
        exact ⟨hok.1, (hsize other).symm ▸ hok.2⟩
      | pages count =>
        rw [hhome] at hok
        exact hok
    · rw [hhome]
      dsimp only
      rw [update_self]
      exact ⟨hz, hle⟩
  · exact hused.trans (congrArg (fun f => (live'.map f).sum) (capacity_congr hsize).symm)

theorem Inv.take (hinv : Inv whole table zones s live) {others : List Nat}
    (hfirst : s.zoneArray zi = z :: others)
    (hok : ZoneOk s.zoneSize z zone (⟨p, m, .chunk z⟩ :: live))
    (hindex : zone.zZoneindex = (s.zone z).zZoneindex)
    (hnfree : zone.zNfree = (s.zone z).zNfree - 1) (hm : m ≤ (s.zone z).zChunksize) :
    Inv whole table zones { s with
      zone := update s.zone z zone
      zoneArray :=
        if (s.zone z).zNfree - 1 = 0 then update s.zoneArray zi (s.zoneArray zi).tail
        else s.zoneArray
      usedMem := s.usedMem + (s.zone z).zChunksize } (⟨p, m, .chunk z⟩ :: live) := by
  obtain ⟨hz, hzi, -⟩ := (hinv.array zi z).mp (by rw [hfirst]; exact List.mem_cons_self)
  have hnodup := hinv.nodup zi
  rw [hfirst, List.nodup_cons] at hnodup
  have hsize : zone.zChunksize = (s.zone z).zChunksize := by
    rw [hok.chunksize, hindex, (hinv.zone z hz).chunksize]
  refine hinv.edit hz hok hindex (fun other hne => liveChunks_cons_ne rfl hne)
    (List.filterMap_cons_none rfl) ?_ ?_ ?_ ?_
  · intro index other
    rw [hindex, hzi, hnfree]
    have hlisted := hinv.array index z
    by_cases hlast : (s.zone z).zNfree - 1 = 0
    · rw [if_pos hlast]
      by_cases heq : other = z
      · rw [if_pos heq, heq]
        refine ⟨fun hmem => ?_, fun h => absurd hlast h.2⟩
        by_cases hindex : index = zi
        · rw [hindex, update_self, hfirst] at hmem
          exact absurd hmem hnodup.1
        · rw [update_of_ne hindex, hlisted, hzi] at hmem
          exact absurd hmem.2.1.symm hindex
      · rw [if_neg heq]
        by_cases hindex : index = zi
        · rw [hindex, update_self, hfirst, List.tail_cons, List.mem_cons, or_iff_right heq]
        · rw [update_of_ne hindex]
    · rw [if_neg hlast]
      by_cases heq : other = z
      · rw [if_pos heq, heq, hlisted, hzi]
        exact ⟨fun h => ⟨h.2.1, hlast⟩, fun h => ⟨hz, h.1, by omega⟩⟩
      · rw [if_neg heq]
  · intro index
    split
    · exact nodup_update (by rw [hfirst]; exact hnodup.2) hinv.nodup index
    · exact hinv.nodup index
  · intro a ha
    rcases List.mem_cons.mp ha with rfl | ha
    · exact .inr ⟨rfl, hsize.symm ▸ hm⟩
    · exact .inl ha
  · rw [List.map_cons, List.sum_cons, hinv.used, Nat.add_comm]
    rfl

theorem Inv.putChunk (hinv : Inv whole table zones s (a :: rest)) (hhome : a.home = .chunk z) :
    Inv whole table zones (freeChunk a.ptr z s) rest := by
  have hz := (hinv.area_chunk List.mem_cons_self hhome).1
  have hok := (hinv.zone z hz).giveBack hhome
  have hnotin : (s.zone z).zNfree = 0 → ∀ index, z ∉ s.zoneArray index :=
    fun hnone index hmem => ((hinv.array index z).mp hmem).2.2 hnone
  have hrun : a.run = none := by
    rw [Area.run, hhome]
  refine hinv.edit hz hok rfl (fun other hne => (liveChunks_cons_ne hhome hne).symm)
    (List.filterMap_cons_none hrun).symm ?_ ?_ (fun a ha => .inl (List.mem_cons_of_mem _ ha)) ?_
  · intro index other
    have hlisted := hinv.array index z
    dsimp only
    by_cases hnone : (s.zone z).zNfree = 0
    · rw [if_pos hnone]
      by_cases hindex : index = (s.zone z).zZoneindex
      · rw [hindex, update_self, List.mem_cons]
        by_cases heq : other = z
        · simp [heq]
        · rw [if_neg heq, or_iff_right heq]
      · rw [update_of_ne hindex]
        by_cases heq : other = z
        · rw [if_pos heq, heq]
          exact ⟨fun hmem => absurd hmem (hnotin hnone index), fun h => absurd h.1.symm hindex⟩
        · rw [if_neg heq]
    · rw [if_neg hnone]
      by_cases heq : other = z
      · rw [if_pos heq, heq, hlisted]
        exact ⟨fun h => ⟨h.2.1, Nat.succ_ne_zero _⟩, fun h => ⟨hz, h.1, hnone⟩⟩
      · rw [if_neg heq]
  · intro index
    split
    next hnone =>
      exact nodup_update (List.nodup_cons.mpr ⟨hnotin hnone _, hinv.nodup _⟩) hinv.nodup index
    · exact hinv.nodup index
  · have hused := hinv.used
    have hcapacity : s.capacity a = (s.zone z).zChunksize := by
      rw [capacity, hhome]
    rw [List.map_cons, List.sum_cons, hcapacity] at hused
    omega

theorem Inv.zones_nodup (hinv : Inv whole table zones s live) : (zones ++ s.zoneFree).Nodup := by
  have happart := (List.pairwise_append.mp (List.pairwise_cons.mp hinv.pages.apart).2).1
  refine (List.pairwise_map.mp happart).imp fun {z z'} hapart heq => ?_
  have hcnt := hinv.pageCnt.2
  refine (heq ▸ hapart).not_has (p := z) ?_ ?_
  all_goals
    unfold Run.Has Run.stop zoneRun
    dsimp only
    omega

theorem two_le_nmax {zoneSize : Nat} (hzi : zi < 72) (hroom : 4 * chunkSize zi ≤ zoneSize)
    (hsize : 32768 ≤ zoneSize) : 2 ≤ (zoneSize - chunkOff (chunkSize zi)) / chunkSize zi := by
  obtain ⟨hmin, -, -, -, hoff, -⟩ := chunkSize_spec hzi
  rw [Nat.le_div_iff_mul_le (by omega)]
  omega

theorem Inv.openZone (hinv : Inv whole table zones s live) {others : List Nat}
    (hfirst : s.zoneFree = z :: others) (hzi : zi < 72) (hroom : 4 * chunkSize zi ≤ s.zoneSize)
    (hm : m ≤ chunkSize zi) :
    Inv whole table (z :: zones) (newZone zi (chunkSize zi) z
      { s with zoneFree := others, zoneFreeCnt := s.zoneFreeCnt - 1 }).2
      (⟨z * 4096 + chunkOff (chunkSize zi), m, .chunk z⟩ :: live) := by
  have hcnt := hinv.cnt
  rw [hfirst, List.length_cons] at hcnt
  have hnodup := List.perm_middle.nodup_iff.mp (hfirst ▸ hinv.zones_nodup)
  have hfresh : z ∉ zones := fun hmem =>
    (List.nodup_cons.mp hnodup).1 (List.mem_append_left _ hmem)
  have hunlisted : ∀ index, z ∉ s.zoneArray index :=
    fun index hmem => hfresh ((hinv.array index z).mp hmem).1
  have hhome : ∀ a ∈ live, a.home ≠ .chunk z := by
    intro a ha heq
    exact hfresh (hinv.area_chunk ha heq).1
  have hnone : liveChunks z live = [] := by
    rw [liveChunks, List.filter_eq_nil_iff.mpr fun a ha => by simpa using hhome a ha, List.map_nil]
  have htwo := two_le_nmax hzi hroom (by have hsize := hinv.size; omega)
  refine ⟨hinv.size, ?_, ?_, ?_, ?_, ?_, ?_, ?_, ?_⟩
  · refine hinv.pages.perm ((List.Perm.append ?_ (List.Perm.of_eq ?_)).cons _)
    · rw [hfirst]
      exact List.perm_middle.map _
    · rfl
  · dsimp only [newZone]
    omega
  · intro other hother
    exact hinv.usage other (by rw [hfirst]; exact List.perm_middle.mem_iff.mpr hother)
  · intro other hother
    dsimp only [newZone]
    by_cases heq : other = z
    · rw [heq, update_self]
      refine ⟨rfl, hzi, rfl, hroom, rfl, rfl, ?_, ?_, ?_⟩
      · dsimp only
        omega
      · dsimp only [List.length_nil]
        omega
      · rw [liveChunks_cons_self rfl, hnone]
        simp
    · rw [update_of_ne heq]
      exact (hinv.zone other ((List.mem_cons.mp hother).resolve_left heq)).congr
        (List.Perm.of_eq (liveChunks_cons_ne rfl heq))
  · intro index other
    dsimp only [newZone]
    have hlisted := hinv.array index other
    by_cases heq : other = z
    · rw [heq, update_self]
      dsimp only
      by_cases hindex : index = zi
      · rw [hindex, update_self]
        simp only [List.mem_cons, true_or, true_and, true_iff]
        omega
      · rw [update_of_ne hindex]
        exact ⟨fun hmem => absurd hmem (hunlisted index), fun h => absurd h.2.1.symm hindex⟩
    · rw [update_of_ne heq, List.mem_cons, or_iff_right heq]
      by_cases hindex : index = zi
      · rw [hindex, update_self, List.mem_cons, or_iff_right heq, ← hindex]
        exact hlisted
      · rw [update_of_ne hindex]
        exact hlisted
  · exact nodup_update (List.nodup_cons.mpr ⟨hunlisted _, hinv.nodup _⟩) hinv.nodup
  · intro a ha
    unfold AreaOk
    dsimp only [newZone]
    rcases List.mem_cons.mp ha with rfl | ha
    · dsimp only
      rw [update_self]
      exact ⟨List.mem_cons_self, hm⟩
    · have harea := hinv.area a ha
      have hne := hhome a ha
      unfold AreaOk at harea
      cases hhome : a.home with
      | chunk other =>
        rw [hhome] at harea hne
        dsimp only
        rw [update_of_ne fun heq => hne (congrArg _ heq)]
        exact ⟨List.mem_cons_of_mem _ harea.1, harea.2⟩
      | pages count =>
        rw [hhome] at harea
        exact harea
  · rw [List.map_cons, List.sum_cons]
    have hrest : live.map (capacity (newZone zi (chunkSize zi) z
        { s with zoneFree := others, zoneFreeCnt := s.zoneFreeCnt - 1 }).2) =
        live.map s.capacity := by
      refine List.map_congr_left fun a ha => ?_
      have hne := hhome a ha
      unfold capacity
      cases hhome : a.home with
      | chunk other =>
        rw [hhome] at hne
        dsimp only [newZone]
        rw [update_of_ne fun heq => hne (congrArg _ heq)]
      | pages count => rfl
    have hself : capacity (newZone zi (chunkSize zi) z
        { s with zoneFree := others, zoneFreeCnt := s.zoneFreeCnt - 1 }).2
        ⟨z * 4096 + chunkOff (chunkSize zi), m, .chunk z⟩ = chunkSize zi := by
      dsimp only [capacity, newZone]
      rw [update_self]
    rw [hrest, hself, ← hinv.used, Nat.add_comm]
    rfl

theorem Inv.retire (hinv : Inv whole table zones s live) (hz : z ∈ zones)
    (hfull : (s.zone z).zNfree = (s.zone z).zNmax) :
    Inv whole table (zones.erase z) { s with
      zoneArray := update s.zoneArray (s.zone z).zZoneindex
        ((s.zoneArray (s.zone z).zZoneindex).erase z)
      zone := update s.zone z { s.zone z with zMagic := -1 }
      zoneFree := z :: s.zoneFree
      zoneFreeCnt := s.zoneFreeCnt + 1 } live := by
  have hperm := List.perm_cons_erase hz
  have hnodup := (List.nodup_append.mp hinv.zones_nodup).1
  have hmem : ∀ other, other ∈ zones.erase z ↔ other ≠ z ∧ other ∈ zones :=
    fun other => hnodup.mem_erase_iff
  have hempty : liveChunks z live = [] := by
    refine List.length_eq_zero_iff.mp ?_
    have hlength := (hinv.zone z hz).length_live
    omega
  have hsize : ∀ other, (update s.zone z { s.zone z with zMagic := -1 } other).zChunksize =
      (s.zone other).zChunksize := by
    intro other
    by_cases heq : other = z
    · rw [heq, update_self]
    · rw [update_of_ne heq]
  refine ⟨hinv.size, ?_, congrArg (· + 1) hinv.cnt, ?_, ?_, ?_, ?_, ?_, ?_⟩
  · refine hinv.pages.perm ((List.Perm.append_right _ (List.Perm.map _ ?_)).cons _)
    exact (hperm.append_right _).trans List.perm_middle.symm
  · intro other hother
    refine hinv.usage other (((hperm.append_right _).trans List.perm_middle.symm).mem_iff.mpr ?_)
    exact hother
  · intro other hother
    obtain ⟨hne, hother⟩ := (hmem other).mp hother
    dsimp only
    rw [update_of_ne hne]
    exact hinv.zone other hother
  · intro index other
    dsimp only
    rw [hmem]
    have hlisted := hinv.array index other
    by_cases hindex : index = (s.zone z).zZoneindex
    · rw [hindex, update_self, (hinv.nodup _).mem_erase_iff, ← hindex, hlisted, and_assoc]
      refine and_congr_right fun hne => ?_
      rw [update_of_ne hne]
    · rw [update_of_ne hindex, hlisted]
      by_cases heq : other = z
      · rw [heq]
        exact ⟨fun h => absurd h.2.1.symm hindex, fun h => absurd rfl h.1.1⟩
      · rw [update_of_ne heq]
        simp [heq]
  · exact nodup_update ((hinv.nodup _).erase _) hinv.nodup
  · intro a ha
    have harea := hinv.area a ha
    unfold AreaOk at harea ⊢
    cases hhome : a.home with
    | chunk other =>
      rw [hhome] at harea
      refine ⟨(hmem other).mpr ⟨fun heq => ?_, harea.1⟩, (hsize other).symm ▸ harea.2⟩
      have hlive := mem_liveChunks ha (heq ▸ hhome)
      rw [hempty] at hlive
      cases hlive
    | pages count =>
      rw [hhome] at harea
      exact harea
  · exact hinv.used.trans
      (congrArg (fun f => (live.map f).sum) (capacity_congr hsize).symm)

end Zones

end RtThread.Slab
