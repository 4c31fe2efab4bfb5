import Mathlib.Data.List.Pairwise
import RtThread.Mem.SlabCalls

namespace RtThread.Slab

open RtThread.Lib SlabHeap

def bytes (run : Run) : Run := ⟨run.start * 4096, run.count * 4096⟩

def header (z : Nat) : Run := ⟨z * 4096, 36⟩

def SlabHeap.chunk (s : SlabHeap) (z i : Nat) : Run :=
  ⟨(s.zone z).zBaseptr + i * (s.zone z).zChunksize, (s.zone z).zChunksize⟩

def SlabHeap.span (s : SlabHeap) (a : Area) : Run := ⟨a.ptr, s.capacity a⟩

namespace SlabClient

def InUse (c : SlabClient) (z : Nat) : Prop :=
  (∃ zi, z ∈ c.zoneArray zi) ∨ ∃ a ∈ c.live, a.home = .chunk z

inductive Block (c : SlabClient) : Run → Prop
  | chunk (inUse : c.InUse z) (inside : i < (c.zone z).zNmax) : Block c (c.chunk z i)
  | pages (mem : a ∈ c.live) (large : a.run = some run) : Block c (bytes run)

end SlabClient

structure SlabOk (c : SlabClient) : Prop where
  counts : ∀ z, c.InUse z →
    (c.zone z).zNfree = ((c.zone z).zNmax - 1 - (c.zone z).zUindex) + (c.zone z).zFreechunk.length ∧
    (c.zone z).zNmax - (c.zone z).zNfree = (liveChunks z c.live).length
  linked : ∀ z, c.InUse z → ∀ zi, (c.zoneArray zi).count z =
    if zi = (c.zone z).zZoneindex ∧ 0 < (c.zone z).zNfree then 1 else 0
  zoneFree : ∀ z ∈ c.zoneFree, ¬ c.InUse z
  zoneFreeCnt : c.zoneFreeCnt = c.zoneFree.length ∧ c.zoneFreeCnt ≤ zoneReleaseThresh
  block : ∀ a ∈ c.live, c.Block (c.span a) ∧ a.size ≤ c.capacity a ∧
    ∀ block, c.Block block → block.Has a.ptr → block = c.span a
  apart : c.live.Pairwise fun a b => (c.span a).Apart (c.span b)
  headers : ∀ a ∈ c.live, ∀ z, c.InUse z ∨ z ∈ c.zoneFree → (header z).Apart (c.span a)
  pageList : ∀ a ∈ c.live, ∀ b ∈ c.pageList, (bytes b).Apart (c.span a)
  memusage : ∀ a ∈ c.live,
    match a.home with
    | .chunk z => z ≤ a.ptr / 4096 ∧ c.memusage (a.ptr / 4096) = ⟨.small, a.ptr / 4096 - z⟩
    | .pages count => c.memusage (a.ptr / 4096) = ⟨.large, count⟩
  usedMem : c.usedMem = (c.live.map c.capacity).sum

section Invariant

variable {whole table : Run} {zones : List Nat} {c : SlabClient} {z z' i j : Nat} {a b : Area}

theorem Inv.inUse_iff (hinv : Inv whole table zones c.toSlabHeap c.live) :
    c.InUse z ↔ z ∈ zones := by
  constructor
  · rintro (⟨zi, hmem⟩ | ⟨a, ha, hhome⟩)
    · exact ((hinv.array zi z).mp hmem).1
    · exact (hinv.area_chunk ha hhome).1
  · intro hz
    have hzone := hinv.zone z hz
    by_cases hfree : (c.zone z).zNfree = 0
    · have hlength := hzone.length_live
      have huindex := hzone.uindex
      obtain ⟨ptr, hptr⟩ := List.exists_mem_of_length_pos (l := liveChunks z c.live) (by omega)
      obtain ⟨a, ha, -⟩ := List.mem_map.mp hptr
      obtain ⟨ha, hhome⟩ := List.mem_filter.mp ha
      exact .inr ⟨a, ha, by simpa using hhome⟩
    · exact .inl ⟨_, (hinv.array _ z).mpr ⟨hz, rfl, hfree⟩⟩

theorem apart_of_ne {runs : List Run} (hpairwise : runs.Pairwise Run.Apart) {first second : Run}
    (hfirst : first ∈ runs) (hsecond : second ∈ runs) (hne : first ≠ second) :
    first.Apart second := by
  have hsymm : Std.Symm Run.Apart := ⟨fun _ _ => Run.Apart.symm⟩
  exact hpairwise.forall hfirst hsecond hne

theorem bytes_apart {first second : Run} (hapart : first.Apart second) :
    (bytes first).Apart (bytes second) := by
  unfold Run.Apart Run.stop bytes at *
  dsimp only
  omega

def Within (inner outer : Run) : Prop := outer.start ≤ inner.start ∧ inner.stop ≤ outer.stop

theorem Within.apart {inner outer inner' outer' : Run} (hin : Within inner outer)
    (hin' : Within inner' outer') (hapart : outer.Apart outer') : inner.Apart inner' := by
  unfold Run.Apart Within at *
  omega

theorem chunk_apart (hlt : i < j) : (c.chunk z i).Apart (c.chunk z j) := by
  have hle := Nat.mul_le_mul_right (c.zone z).zChunksize (Nat.succ_le_of_lt hlt)
  rw [Nat.succ_mul] at hle
  unfold Run.Apart Run.stop chunk
  dsimp only
  omega

variable (hinv : Inv whole table zones c.toSlabHeap c.live)

include hinv

theorem Inv.chunk_within (hz : z ∈ zones) (hi : i < (c.zone z).zNmax) :
    Within (c.chunk z i) (bytes (c.zoneRun z)) ∧ (header z).Apart (c.chunk z i) := by
  obtain ⟨hfrom, hto⟩ := (hinv.zone z hz).chunk_bounds hi
  have hcnt := hinv.pageCnt.1
  unfold Run.Apart Within Run.stop bytes header chunk zoneRun
  dsimp only
  omega

theorem Inv.header_within (z : Nat) : Within (header z) (bytes (c.zoneRun z)) := by
  have hcnt := hinv.pageCnt.2
  unfold Within Run.stop bytes header zoneRun
  dsimp only
  omega

theorem Inv.runs_apart :
    ((zones ++ c.zoneFree).map c.zoneRun ++ c.live.filterMap Area.run).Pairwise Run.Apart :=
  (List.pairwise_cons.mp hinv.pages.apart).2

theorem Inv.zone_apart (hz : z ∈ zones ++ c.zoneFree) (hz' : z' ∈ zones ++ c.zoneFree)
    (hne : z ≠ z') : (c.zoneRun z).Apart (c.zoneRun z') :=
  apart_of_ne (List.pairwise_append.mp hinv.runs_apart).1 (List.mem_map_of_mem hz)
    (List.mem_map_of_mem hz') fun heq => hne (congrArg Run.start heq)

theorem Inv.zone_run_apart {run : Run} (hz : z ∈ zones ++ c.zoneFree)
    (hrun : run ∈ c.live.filterMap Area.run) : (c.zoneRun z).Apart run :=
  (List.pairwise_append.mp hinv.runs_apart).2.2 _ (List.mem_map_of_mem hz) _ hrun

theorem Inv.chunk_run_apart {run : Run} (hz : z ∈ zones) (hi : i < (c.zone z).zNmax)
    (hrun : run ∈ c.live.filterMap Area.run) : (c.chunk z i).Apart (bytes run) :=
  (hinv.chunk_within hz hi).1.apart ⟨Nat.le_refl _, Nat.le_refl _⟩
    (bytes_apart (hinv.zone_run_apart (List.mem_append_left _ hz) hrun))

theorem Inv.chunks_apart (hz : z ∈ zones) (hz' : z' ∈ zones) (hi : i < (c.zone z).zNmax)
    (hj : j < (c.zone z').zNmax) (hne : z = z' → i ≠ j) :
    (c.chunk z i).Apart (c.chunk z' j) := by
  by_cases heq : z = z'
  · cases heq
    rcases Nat.lt_or_gt_of_ne (hne rfl) with hlt | hlt
    · exact chunk_apart hlt
    · exact (chunk_apart hlt).symm
  · exact (hinv.chunk_within hz hi).1.apart (hinv.chunk_within hz' hj).1 (bytes_apart
      (hinv.zone_apart (List.mem_append_left _ hz) (List.mem_append_left _ hz') heq))

theorem Inv.span_chunk (ha : a ∈ c.live) (hhome : a.home = .chunk z) :
    z ∈ zones ∧ ∃ i < (c.zone z).zNmax, c.span a = c.chunk z i := by
  have hz := hinv.inUse_iff.mp (.inr ⟨a, ha, hhome⟩)
  obtain ⟨i, hi, hptr⟩ := (hinv.zone z hz).mem_chunks
    (List.mem_append_left _ (mem_liveChunks ha hhome))
  refine ⟨hz, i, hi, ?_⟩
  rw [span, chunk, capacity, hhome, hptr]

theorem Inv.span_pages {count : Nat} (ha : a ∈ c.live) (hhome : a.home = .pages count) :
    c.span a = bytes ⟨a.ptr / 4096, count⟩ ∧
      (⟨a.ptr / 4096, count⟩ : Run) ∈ c.live.filterMap Area.run := by
  have harea := hinv.area a ha
  unfold AreaOk at harea
  rw [hhome] at harea
  have hptr : a.ptr / 4096 * 4096 = a.ptr := by
    omega
  refine ⟨?_, List.mem_filterMap.mpr ⟨a, ha, by rw [Area.run, hhome]⟩⟩
  rw [span, capacity, hhome, bytes]
  dsimp only
  rw [hptr]

theorem Inv.block_span (ha : a ∈ c.live) : c.Block (c.span a) := by
  cases hhome : a.home with
  | chunk z =>
    obtain ⟨hz, i, hi, hspan⟩ := hinv.span_chunk ha hhome
    rw [hspan]
    exact .chunk (hinv.inUse_iff.mpr hz) hi
  | pages count =>
    rw [(hinv.span_pages ha hhome).1]
    exact .pages ha (by rw [Area.run, hhome])

theorem Inv.blocks_apart {first second : Run} (hfirst : c.Block first) (hsecond : c.Block second)
    (hne : first ≠ second) : first.Apart second := by
  cases hfirst with
  | chunk hz hi =>
    cases hsecond with
    | chunk hz' hj =>
      refine hinv.chunks_apart (hinv.inUse_iff.mp hz) (hinv.inUse_iff.mp hz') hi hj ?_
      rintro rfl rfl
      exact hne rfl
    | pages hb hrun =>
      exact hinv.chunk_run_apart (hinv.inUse_iff.mp hz) hi (List.mem_filterMap.mpr ⟨_, hb, hrun⟩)
  | pages ha hrun =>
    cases hsecond with
    | chunk hz' hj =>
      exact (hinv.chunk_run_apart (hinv.inUse_iff.mp hz') hj
        (List.mem_filterMap.mpr ⟨_, ha, hrun⟩)).symm
    | pages hb hrun' =>
      exact bytes_apart (apart_of_ne (List.pairwise_append.mp hinv.runs_apart).2.1
        (List.mem_filterMap.mpr ⟨_, ha, hrun⟩) (List.mem_filterMap.mpr ⟨_, hb, hrun'⟩)
        fun heq => hne (congrArg bytes heq))

theorem Inv.span_has (ha : a ∈ c.live) : (c.span a).Has a.ptr := by
  refine ⟨Nat.le_refl _, Nat.lt_add_of_pos_right ?_⟩
  unfold span capacity
  cases hhome : a.home with
  | chunk z =>
    have hzone := hinv.zone z (hinv.span_chunk ha hhome).1
    have hmin := (chunkSize_spec hzone.index).1
    rw [← hzone.chunksize] at hmin
    exact Nat.lt_of_lt_of_le (by decide) hmin
  | pages count =>
    have hpos := hinv.pages.pos _ (List.mem_cons_of_mem _ (List.mem_append_right _
      (hinv.span_pages ha hhome).2))
    exact Nat.mul_pos hpos (by decide)

theorem Inv.block_eq {block : Run} (ha : a ∈ c.live) (hblock : c.Block block)
    (hhas : block.Has a.ptr) : block = c.span a := by
  by_contra hne
  exact (hinv.blocks_apart hblock (hinv.block_span ha) hne).not_has hhas (hinv.span_has ha)

theorem Inv.spans_apart : c.live.Pairwise fun a b => (c.span a).Apart (c.span b) := by
  rw [List.pairwise_iff_forall_sublist]
  intro a b hsublist
  have ha : a ∈ c.live := hsublist.subset List.mem_cons_self
  have hb : b ∈ c.live := hsublist.subset (List.mem_cons_of_mem _ List.mem_cons_self)
  cases hhome : a.home with
  | chunk z =>
    obtain ⟨hz, i, hi, hspan⟩ := hinv.span_chunk ha hhome
    cases hhome' : b.home with
    | chunk z' =>
      obtain ⟨hz', j, hj, hspan'⟩ := hinv.span_chunk hb hhome'
      rw [hspan, hspan']
      refine hinv.chunks_apart hz hz' hi hj ?_
      rintro rfl rfl
      have hpair : [a.ptr, b.ptr].Sublist (liveChunks z c.live) := by
        have hfilter := hsublist.filter (·.home = .chunk z)
        simp only [hhome, hhome', decide_true, List.filter_cons_of_pos, List.filter_nil]
          at hfilter
        exact hfilter.map Area.ptr
      have hnodup := (List.nodup_append.mp (hinv.zone z hz).nodup).1.sublist hpair
      have hsame : a.ptr = b.ptr := congrArg Run.start (hspan.trans hspan'.symm)
      simp [hsame] at hnodup
    | pages count =>
      rw [hspan, (hinv.span_pages hb hhome').1]
      exact hinv.chunk_run_apart hz hi (hinv.span_pages hb hhome').2
  | pages count =>
    rw [(hinv.span_pages ha hhome).1]
    cases hhome' : b.home with
    | chunk z =>
      obtain ⟨hz, j, hj, hspan⟩ := hinv.span_chunk hb hhome'
      rw [hspan]
      exact (hinv.chunk_run_apart hz hj (hinv.span_pages ha hhome).2).symm
    | pages count' =>
      rw [(hinv.span_pages hb hhome').1]
      refine bytes_apart ?_
      have hpairwise := (List.pairwise_append.mp hinv.runs_apart).2.1.sublist
        (hsublist.filterMap Area.run)
      simp only [List.filterMap_cons, Area.run, hhome, hhome', List.filterMap_nil] at hpairwise
      exact (List.pairwise_cons.mp hpairwise).1 _ List.mem_cons_self

theorem Inv.header_apart (ha : a ∈ c.live) (hz : z ∈ zones ++ c.zoneFree) :
    (header z).Apart (c.span a) := by
  cases hhome : a.home with
  | chunk z' =>
    obtain ⟨hz', i, hi, hspan⟩ := hinv.span_chunk ha hhome
    rw [hspan]
    by_cases heq : z = z'
    · rw [heq]
      exact (hinv.chunk_within hz' hi).2
    · exact (hinv.header_within z).apart (hinv.chunk_within hz' hi).1
        (bytes_apart (hinv.zone_apart hz (List.mem_append_left _ hz') heq))
  | pages count =>
    obtain ⟨hspan, hrun⟩ := hinv.span_pages ha hhome
    rw [hspan]
    exact (hinv.header_within z).apart ⟨Nat.le_refl _, Nat.le_refl _⟩
      (bytes_apart (hinv.zone_run_apart hz hrun))

theorem Inv.pageList_apart (ha : a ∈ c.live) {run : Run} (hrun : run ∈ c.pageList) :
    (bytes run).Apart (c.span a) := by
  have hfree := fun used hused => bytes_apart
    (hinv.pages.free_apart run hrun used (List.mem_cons_of_mem _ hused))
  cases hhome : a.home with
  | chunk z =>
    obtain ⟨hz, i, hi, hspan⟩ := hinv.span_chunk ha hhome
    rw [hspan]
    exact Within.apart ⟨Nat.le_refl _, Nat.le_refl _⟩ (hinv.chunk_within hz hi).1
      (hfree _ (List.mem_append_left _ (List.mem_map_of_mem (List.mem_append_left _ hz))))
  | pages count =>
    obtain ⟨hspan, hused⟩ := hinv.span_pages ha hhome
    rw [hspan]
    exact hfree _ (List.mem_append_right _ hused)

theorem Inv.slabOk (hcnt : c.zoneFree.length ≤ zoneReleaseThresh) : SlabOk c where
  counts := fun z hz => by
    have hzone := hinv.zone z (hinv.inUse_iff.mp hz)
    have hnfree := hzone.nfree
    have huindex := hzone.uindex
    have hlength := hzone.length_live
    omega
  linked := fun z hz zi => by
    have hmem := hinv.array zi z
    rw [(hinv.nodup zi).count]
    refine if_congr (hmem.trans ?_) rfl rfl
    rw [Nat.pos_iff_ne_zero, eq_comm (a := zi)]
    exact ⟨And.right, fun h => ⟨hinv.inUse_iff.mp hz, h⟩⟩
  zoneFree := fun z hz hused =>
    (List.nodup_append.mp hinv.zones_nodup).2.2 z (hinv.inUse_iff.mp hused) z hz rfl
  zoneFreeCnt := ⟨hinv.cnt, hinv.cnt.symm ▸ hcnt⟩
  block := fun a ha => ⟨hinv.block_span ha, hinv.size_le ha, fun _ => hinv.block_eq ha⟩
  apart := hinv.spans_apart
  headers := fun a ha z hz => hinv.header_apart ha
    (List.mem_append.mpr (hz.imp_left hinv.inUse_iff.mp))
  pageList := fun a ha b hb => hinv.pageList_apart ha hb
  memusage := fun a ha => by
    have hkup := (hinv.home_eq ha).2
    cases hhome : a.home with
    | chunk z =>
      rw [hhome] at hkup
      exact ⟨hkup.2, hkup.1⟩
    | pages count =>
      rw [hhome] at hkup
      exact hkup
  usedMem := hinv.used

end Invariant

/-- In every state that calls with live pointers lead to -/
theorem reachable_slabOk {beginAddr endAddr : Nat} {c : SlabClient}
    (hreach : (slabMachine beginAddr endAddr).Reachable (fun _ _ => True) c) : SlabOk c := by
  obtain ⟨hcnt, whole, table, zones, hinv⟩ := ClientInv.reachable hreach
  exact hinv.slabOk hcnt

def smallHeap : SlabClient :=
  ⟨⟨32768, [⟨2, 31⟩], fun _ => ⟨.free, 0⟩, fun _ => ⟨0, 0, 0, 0, 0, 0, 0, []⟩, fun _ => [], [], 0, 0⟩,
    []⟩

theorem smallHeap_init : (slabMachine 4096 (33 * 4096)).init smallHeap := ⟨rfl, _, _, rfl⟩

/-- Small and large areas, one of which moves to another zone. -/
theorem smallHeap_moved : ∃ c, (slabMachine 4096 (33 * 4096)).Reachable (fun _ _ => True) c ∧
    c.live.map Area.ptr = [53288, 40960] := by
  have hrun : ((slabMachine 4096 (33 * 4096)).run (fun _ _ => True) smallHeap [.malloc 24,
      .malloc 24, .malloc 10000, .free 8232, .realloc 8256 100]).map (fun c => c.live.map Area.ptr) =
        some [53288, 40960] := by decide +kernel
  exact Machine.exists_reachable_of_run smallHeap_init hrun

theorem reachable_slabOk_moved : ∃ c, (slabMachine 4096 (33 * 4096)).Reachable (fun _ _ => True) c ∧
    c.live.map Area.ptr = [53288, 40960] ∧ SlabOk c := by
  obtain ⟨c, hreach, hlive⟩ := smallHeap_moved
  exact ⟨c, hreach, hlive, reachable_slabOk hreach⟩

section Alignment

variable {whole table : Run} {zones : List Nat} {s : SlabHeap} {live : List Area}

theorem zoneindex_two_pow {k : Nat} (hk : k < 14) :
    2 ^ k ∣ (zoneindex (2 ^ k)).2 ∧ 2 ^ k ∣ chunkOff (zoneindex (2 ^ k)).2 := by
  have hall : ∀ k < 14, 2 ^ k ∣ (zoneindex (2 ^ k)).2 ∧ 2 ^ k ∣ chunkOff (zoneindex (2 ^ k)).2 := by
    decide +kernel
  exact hall k hk

theorem Inv.limit (hinv : Inv whole table zones s live) :
    8192 ≤ s.zoneLimit ∧ s.zoneLimit ≤ 2 ^ 14 := by
  have hsize := hinv.size
  unfold zoneLimit
  omega

end Alignment

/-- Where a zone or a run begins decides, and no more than a page is promised of that. -/
theorem malloc_aligned_iff {beginAddr endAddr : Nat} {c : SlabClient}
    (hreach : (slabMachine beginAddr endAddr).Reachable (fun _ _ => True) c) {size : Nat}
    (hlt : size < 2 ^ 32) :
    ∃ p heap, rtMalloc size c.toSlabHeap = some (p, heap) ∧ 8 ∣ p ∧ ∀ k, size = 2 ^ k →
      (size ∣ p ↔ size ≤ 4096 ∨ ∀ page ∈ c.servedFrom size, size ∣ page * 4096) := by
  obtain ⟨-, whole, table, zones, hinv⟩ := ClientInv.reachable hreach
  obtain ⟨hmin, hmax⟩ := hinv.limit
  by_cases hzero : size = 0
  · refine ⟨0, c.toSlabHeap, by rw [rtMalloc, if_pos hzero], Nat.dvd_zero _, fun k hk => ?_⟩
    have hpos := Nat.two_pow_pos k
    omega
  by_cases hlarge : c.zoneLimit ≤ size
  · have hcall : rtMalloc size c.toSlabHeap = some (mallocLarge size c.toSlabHeap) := by
      rw [rtMalloc, if_neg hzero, if_pos hlarge]
    have hserved : c.servedFrom size = firstFit (rtAlign size 4096 / 4096) c.pageList :=
      if_pos hlarge
    rw [hcall, hserved]
    rcases hinv.mallocLarge hlt with ⟨hnone, hfirst⟩ | ⟨page, heap, hsome, -, -, hfirst, -⟩
    · rw [hnone, hfirst]
      exact ⟨0, _, rfl, Nat.dvd_zero _, fun _ _ => by simp⟩
    · rw [hsome, hfirst]
      refine ⟨_, _, rfl, Dvd.dvd.mul_left (by decide) _, fun _ _ => ?_⟩
      simp only [Option.mem_def, Option.some.injEq, forall_eq']
      exact ⟨.inr, fun h => h.resolve_left (by omega)⟩
  · have hsmall := Nat.lt_of_not_le hlarge
    obtain ⟨p, heap, hcall, -, ⟨rfl, -, hnone⟩ | ⟨page, hsome, ⟨i, rfl⟩, -⟩⟩ :=
      hinv.mallocSmall (Nat.pos_of_ne_zero hzero) hsmall
    · rw [hnone]
      exact ⟨0, heap, hcall, Nat.dvd_zero _, fun _ _ => by simp⟩
    · refine ⟨_, heap, hcall, ?_, fun k hk => ?_⟩
      · obtain ⟨hchunk, hzi, -⟩ := zoneindex_spec (Nat.pos_of_ne_zero hzero) (by omega)
        obtain ⟨-, hmod, -, hoff, -⟩ := chunkSize_spec hzi
        rw [hchunk]
        exact Nat.dvd_add (Nat.dvd_add (Dvd.dvd.mul_left (by decide) _) (Nat.dvd_of_mod_eq_zero hoff))
          ((Nat.dvd_of_mod_eq_zero hmod).mul_left _)
      · have hexp : k < 14 := by
          rw [hk] at hsmall
          exact (Nat.pow_lt_pow_iff_right (by decide)).mp (Nat.lt_of_lt_of_le hsmall hmax)
        obtain ⟨hsize, hoff⟩ := zoneindex_two_pow hexp
        rw [← hk] at hsize hoff
        rw [hsome, Nat.dvd_add_left (hsize.mul_left i), Nat.dvd_add_left hoff]
        simp only [Option.mem_def, Option.some.injEq, forall_eq']
        refine ⟨.inr, fun h => h.elim (fun hle => Dvd.dvd.mul_left ?_ _) id⟩
        rw [hk] at hle ⊢
        exact Nat.pow_dvd_pow 2 ((Nat.pow_le_pow_iff_right (m := 12) (by decide)).mp hle)

theorem malloc_aligned_iff_page : ∃ p heap, rtMalloc 4096 smallHeap.toSlabHeap = some (p, heap) ∧
    8 ∣ p ∧ ∀ k, 4096 = 2 ^ k →
      (4096 ∣ p ↔ 4096 ≤ 4096 ∨ ∀ page ∈ smallHeap.servedFrom 4096, 4096 ∣ page * 4096) :=
  malloc_aligned_iff (.start smallHeap_init) (by decide)

/-- The first run of a heap begins behind the table of the descriptors. -/
theorem malloc_unaligned : ¬ ∀ beginAddr endAddr c,
    (slabMachine beginAddr endAddr).Reachable (fun _ _ => True) c → ∀ k, 2 ^ k < 2 ^ 32 →
      ∀ p heap, rtMalloc (2 ^ k) c.toSlabHeap = some (p, heap) → 2 ^ k ∣ p := by
  intro hall
  have hdvd := hall _ _ smallHeap (.start smallHeap_init) 14 (by decide) 8192 _ rfl
  revert hdvd
  decide

def SlabClient.Legal (c : SlabClient) : SlabOp → Prop
  | .malloc size => size < 2 ^ 32
  | .realloc ptr size => c.Held ptr ∧ size < 2 ^ 32
  | .free ptr => c.Held ptr

/-- No assertion fails as long as the clients pass `NULL` or what is live. -/
theorem reachable_call_isSome {beginAddr endAddr : Nat} {c : SlabClient}
    (hreach : (slabMachine beginAddr endAddr).Reachable (fun _ _ => True) c) {op : SlabOp}
    (hlegal : c.Legal op) : (c.call op).isSome := by
  have hinv := ClientInv.reachable hreach
  cases op with
  | malloc size =>
    obtain ⟨c', hcall, -⟩ := hinv.malloc hlegal
    exact hcall ▸ rfl
  | realloc ptr size =>
    obtain ⟨c', hcall, -⟩ := hinv.realloc hlegal.1 hlegal.2
    exact hcall ▸ rfl
  | free ptr =>
    obtain ⟨c', hcall, -⟩ := hinv.free hlegal
    exact hcall ▸ rfl

/-- A chunk is freed and a run of pages reallocated. -/
theorem reachable_call_isSome_live : ∃ c,
    (slabMachine 4096 (33 * 4096)).Reachable (fun _ _ => True) c ∧
      c.live.map Area.ptr = [53288, 40960] ∧ (c.call (.free 53288)).isSome ∧
        (c.call (.realloc 40960 20000)).isSome := by
  obtain ⟨c, hreach, hlive⟩ := smallHeap_moved
  have hheld {ptr : Nat} (hptr : ptr ∈ [53288, 40960]) : c.Held ptr := .inr (hlive ▸ hptr)
  exact ⟨c, hreach, hlive, reachable_call_isSome hreach (hheld (by decide)),
    reachable_call_isSome hreach ⟨hheld (by decide), by decide⟩⟩

theorem firstFit_eq_none_iff {npages : Nat} {pageList : List Run} :
    firstFit npages pageList = none ↔ npages = 0 ∨ ∀ run ∈ pageList, run.count < npages := by
  unfold firstFit
  split <;> simp_all

def SlabHeap.Exhausted (s : SlabHeap) (size : Nat) : Prop :=
  if s.zoneLimit ≤ size then 2 ^ 32 < size + 4096 ∨ ∀ run ∈ s.pageList, run.count * 4096 < size
  else s.zoneArray (zoneindex size).1 = [] ∧ s.zoneFree = [] ∧
    ∀ run ∈ s.pageList, run.count < s.zonePageCnt

theorem reachable_malloc_null_iff {beginAddr endAddr : Nat} {c : SlabClient}
    (hreach : (slabMachine beginAddr endAddr).Reachable (fun _ _ => True) c) {size : Nat}
    (hpos : 0 < size) (hlt : size < 2 ^ 32) :
    ∃ p heap, rtMalloc size c.toSlabHeap = some (p, heap) ∧ (p = 0 → heap = c.toSlabHeap) ∧
      (p = 0 ↔ c.Exhausted size) := by
  obtain ⟨-, whole, table, zones, hinv⟩ := ClientInv.reachable hreach
  unfold Exhausted
  split
  next hlarge =>
    have hnone : firstFit (rtAlign size 4096 / 4096) c.pageList = none ↔
        2 ^ 32 < size + 4096 ∨ ∀ run ∈ c.pageList, run.count * 4096 < size := by
      rw [firstFit_eq_none_iff]
      by_cases hwrap : 2 ^ 32 < size + 4096
      · exact iff_of_true (.inl (by rw [rtAlign_wrap hlt hwrap])) (.inl hwrap)
      · have hround : rtAlign size 4096 = (size + 4095) / 4096 * 4096 :=
          @rtAlign_eq size 12 (by decide) (by omega)
        rw [hround, Nat.mul_div_cancel _ (by decide)]
        refine or_congr (iff_of_false (by omega) hwrap) (forall₂_congr fun run _ => ?_)
        omega
    rw [← hnone, rtMalloc, if_neg (Nat.pos_iff_ne_zero.mp hpos), if_pos hlarge]
    rcases hinv.mallocLarge hlt with ⟨hcall, hfirst⟩ | ⟨page, heap, hcall, hpage, -, hfirst, -⟩
    · exact ⟨0, _, congrArg some hcall, fun _ => rfl, iff_of_true rfl hfirst⟩
    · exact ⟨_, heap, congrArg some hcall, fun hzero => by omega,
        iff_of_false (by omega) (by simp [hfirst])⟩
  next hsmall =>
    have hnone : c.servedFrom size = none ↔ c.zoneArray (zoneindex size).1 = [] ∧
        c.zoneFree = [] ∧ ∀ run ∈ c.pageList, run.count < c.zonePageCnt := by
      have hcnt := hinv.pageCnt.2
      unfold servedFrom
      rw [if_neg hsmall]
      split <;> simp_all [firstFit_eq_none_iff]
      omega
    obtain ⟨p, heap, hcall, -, ⟨rfl, rfl, hserved⟩ | ⟨page, hserved, ⟨i, rfl⟩, -⟩⟩ :=
      hinv.mallocSmall hpos (Nat.lt_of_not_le hsmall)
    · exact ⟨0, _, hcall, fun _ => rfl, iff_of_true rfl (hnone.mp hserved)⟩
    · have hlimit := hinv.limit.2
      obtain ⟨hchunk, hzi, -⟩ := zoneindex_spec hpos (by omega)
      have hoff := (chunkSize_spec hzi).2.2.1
      rw [← hchunk] at hoff
      refine ⟨_, heap, hcall, fun hzero => by omega, iff_of_false (by omega) fun hall => ?_⟩
      rw [hnone.mpr hall] at hserved
      cases hserved

theorem reachable_malloc_null_iff_full : ∃ p heap,
    rtMalloc 131072 smallHeap.toSlabHeap = some (p, heap) ∧ (p = 0 → heap = smallHeap.toSlabHeap) ∧
      (p = 0 ↔ smallHeap.Exhausted 131072) :=
  reachable_malloc_null_iff (.start smallHeap_init) (by decide) (by decide)

end RtThread.Slab
