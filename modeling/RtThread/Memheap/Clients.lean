import RtThread.Memheap.Realloc

namespace RtThread.Memheap

open RtThread.Lib RtThread.Mem MemheapClient

variable {cfg : MemheapConfig} {tiles tiles' kept : List Tile} {x t tile : Tile}

structure MemheapClient.Inv (cfg : MemheapConfig) (s : MemheapClient) (tiles : List Tile) :
    Prop where
  layout : ∃ frees, Layout cfg s.toRtMemheap tiles frees
  recorded : s.toRtMemheap.Recorded
  nodup : (s.live.map Live.ptr).Nodup
  live : ∀ y ∈ s.live, ∃ tile ∈ usedTiles tiles,
    y.ptr = tile.start + cfg.memheapSize ∧ y.size ≤ dataSize cfg tile

def RtMemheap.capacity (cfg : MemheapConfig) (s : RtMemheap) (ptr : Nat) : Nat :=
  memitemSize cfg s.memory (ptr - cfg.memheapSize)

def MemheapOp.target : MemheapOp → Nat
  | .alloc _ => 0
  | .realloc ptr _ => ptr
  | .free ptr => ptr
  | .store ptr _ _ => ptr

/-- A client takes what it has got for a block of `size` bytes. -/
def MemheapClient.receive (s : MemheapClient) (size : Nat) (answer : Nat × RtMemheap) :
    MemheapClient where
  toRtMemheap := answer.2
  live := if answer.1 = 0 then s.live else ⟨answer.1, size⟩ :: s.live
  result := answer.1

def MemheapClient.resize (s : MemheapClient) (ptr newsize : Nat) (answer : Nat × RtMemheap) :
    MemheapClient where
  toRtMemheap := answer.2
  live :=
    if newsize = 0 then dropLive ptr s.live
    else if answer.1 = 0 then s.live
    else ⟨answer.1, newsize⟩ :: dropLive ptr s.live
  result := answer.1

def MemheapClient.giveBack (s : MemheapClient) (ptr : Nat) (heap : RtMemheap) : MemheapClient where
  toRtMemheap := heap
  live := dropLive ptr s.live
  result := 0

def SameData (cfg : MemheapConfig) (s s' : RtMemheap) (ptr : Nat) : Prop :=
  ∀ i < s.capacity cfg ptr, s'.memory (ptr + i) = s.memory (ptr + i)

structure MemheapClient.StepOk (cfg : MemheapConfig) (s : MemheapClient) (op : MemheapOp)
    (s' : MemheapClient) : Prop where
  untouched : ∀ y ∈ s.live, y.ptr ≠ op.target →
    y ∈ s'.live ∧ SameData cfg s.toRtMemheap s'.toRtMemheap y.ptr
  resized : ∀ ptr newsize, op = .realloc ptr newsize → s'.result ≠ 0 → ptr ≠ 0 →
    ∀ i < min (s.capacity cfg ptr) newsize, s'.memory (s'.result + i) = s.memory (ptr + i)
  refused : ∀ ptr newsize, op = .realloc ptr newsize → newsize ≠ 0 → s'.result = 0 →
    ∀ y ∈ s.live, y ∈ s'.live ∧ SameData cfg s.toRtMemheap s'.toRtMemheap y.ptr

theorem Region.le_allocatedSize {pool : MemheapPool} (hregion : Region cfg pool) {size : Nat}
    (hsize : size ≤ pool.poolSize) :
    size ≤ allocatedSize cfg size ∧ allocatedSize cfg size + 12 < 2 ^ 32 := by
  have hbits := cfg.alignBits_le
  have hbelow := hregion.below
  have hmini : memheapMinialloc = 12 := rfl
  have hunit : pool.poolSize + 2 ^ cfg.alignBits ≤ 2 ^ 32 :=
    add_two_pow_le hregion.aligned (by omega) (by omega)
  have hlow : size ≤ rtAlign size cfg.alignSize := le_rtAlign (by omega) (by omega)
  have hhigh : rtAlign size cfg.alignSize ≤ pool.poolSize :=
    rtAlign_le (by omega) hsize hregion.aligned hunit
  unfold allocatedSize
  dsimp only
  split <;> omega

section Live

variable {s : MemheapClient} {mem : RtMemheap} {y : Live} {ptr : Nat}

theorem MemheapClient.Inv.capacity_eq (hinv : s.Inv cfg tiles) (ht : t ∈ tiles) :
    s.capacity cfg (t.start + cfg.memheapSize) = dataSize cfg t := by
  obtain ⟨frees, hlayout⟩ := hinv.layout
  unfold RtMemheap.capacity
  rw [Nat.add_sub_cancel]
  exact hlayout.shape.memitemSize_eq ht (hlayout.stop_lt ht)

theorem MemheapClient.Inv.ptr_pos (hinv : s.Inv cfg tiles) (hy : y ∈ s.live) : y.ptr ≠ 0 := by
  obtain ⟨tile, -, hptr, -⟩ := hinv.live y hy
  have hlen := twentyFour_le cfg
  omega

theorem MemheapClient.Inv.exists_tile (hinv : s.Inv cfg tiles)
    (hptr : ptr ∈ s.live.map Live.ptr) :
    ∃ tile ∈ usedTiles tiles, ptr = tile.start + cfg.memheapSize := by
  obtain ⟨y, hy, rfl⟩ := List.mem_map.mp hptr
  obtain ⟨tile, htile, heq, -⟩ := hinv.live y hy
  exact ⟨tile, htile, heq⟩

theorem mem_dropLive {live : List Live} : y ∈ dropLive ptr live ↔ y ∈ live ∧ y.ptr ≠ ptr := by
  simp [dropLive]

theorem dropLive_nodup {live : List Live} (hnodup : (live.map Live.ptr).Nodup) :
    ((dropLive ptr live).map Live.ptr).Nodup :=
  hnodup.sublist (List.filter_sublist.map _)

theorem MemheapClient.Inv.dropLive_zero (hinv : s.Inv cfg tiles) : dropLive 0 s.live = s.live := by
  refine List.filter_eq_self.mpr fun y hy => ?_
  simpa using hinv.ptr_pos hy

theorem MemheapClient.Inv.live_kept (hinv : s.Inv cfg tiles)
    (houtcome : Outcome cfg s.toRtMemheap mem kept tiles') (hy : y ∈ s.live)
    (hkept : ∀ tile ∈ usedTiles tiles, y.ptr = tile.start + cfg.memheapSize → tile ∈ kept) :
    (∃ tile ∈ usedTiles tiles', y.ptr = tile.start + cfg.memheapSize ∧
      y.size ≤ dataSize cfg tile) ∧ SameData cfg s.toRtMemheap mem y.ptr := by
  obtain ⟨tile, htile, hptr, hsize⟩ := hinv.live y hy
  obtain ⟨hmem, hbytes⟩ := houtcome.keeps tile (hkept tile htile hptr)
  obtain ⟨hin, hused⟩ := mem_usedTiles.mp htile
  refine ⟨⟨tile, mem_usedTiles.mpr ⟨hmem, hused⟩, hptr, hsize⟩, fun i hi => ?_⟩
  rw [hptr, hinv.capacity_eq hin, dataSize] at hi
  rw [hptr]
  exact hbytes _ (Nat.le_add_right ..) (by omega)

theorem MemheapClient.Inv.null (hinv : s.Inv cfg tiles)
    (houtcome : Outcome cfg s.toRtMemheap mem tiles tiles) :
    Inv cfg { toRtMemheap := mem, live := s.live, result := 0 } tiles ∧
      ∀ y ∈ s.live, SameData cfg s.toRtMemheap mem y.ptr := by
  have hall : ∀ y ∈ s.live, ∀ tile ∈ usedTiles tiles,
      y.ptr = tile.start + cfg.memheapSize → tile ∈ tiles :=
    fun _ _ tile htile _ => (mem_usedTiles.mp htile).1
  exact ⟨⟨houtcome.layout, houtcome.recorded, hinv.nodup,
    fun y hy => (hinv.live_kept houtcome hy (hall y hy)).1⟩,
    fun y hy => (hinv.live_kept houtcome hy (hall y hy)).2⟩

theorem MemheapClient.Inv.give (hinv : s.Inv cfg tiles)
    (houtcome : Outcome cfg s.toRtMemheap mem kept tiles') {live : List Live}
    (hlive : ∀ y ∈ live, y ∈ s.live)
    (hkept : ∀ y ∈ live, ∀ tile ∈ usedTiles tiles,
      y.ptr = tile.start + cfg.memheapSize → tile ∈ kept)
    (hnodup : (live.map Live.ptr).Nodup) (htile : tile ∈ usedTiles tiles')
    (hfresh : ∀ t ∈ kept, t.start ≠ tile.start) {size : Nat} (hroom : size ≤ dataSize cfg tile)
    (result : Nat) :
    Inv cfg
      { toRtMemheap := mem
        live := ⟨tile.start + cfg.memheapSize, size⟩ :: live
        result := result } tiles' := by
  refine ⟨houtcome.layout, houtcome.recorded, ?_, ?_⟩
  · refine List.nodup_cons.mpr ⟨fun hmem => ?_, hnodup⟩
    obtain ⟨y, hy, hptr⟩ := List.mem_map.mp hmem
    obtain ⟨t, ht, hyptr, -⟩ := hinv.live y (hlive y hy)
    refine hfresh t (hkept y hy t ht hyptr) ?_
    have heq := hyptr.symm.trans hptr
    dsimp only at heq
    omega
  · intro y hy
    rcases List.mem_cons.mp hy with rfl | hy
    · exact ⟨tile, htile, rfl, hroom⟩
    · exact (hinv.live_kept houtcome (hlive y hy) (hkept y hy)).1

end Live

section Calls

variable {s s' : MemheapClient}

theorem mem_used_of_ptr_ne {pre post : List Tile} {y : Live}
    (hne : y.ptr ≠ x.start + cfg.memheapSize) :
    ∀ tile ∈ usedTiles (pre ++ x :: post), y.ptr = tile.start + cfg.memheapSize →
      tile ∈ usedTiles (pre ++ post) := by
  intro tile htile hptr
  obtain ⟨hmem, hused⟩ := mem_usedTiles.mp htile
  refine mem_usedTiles.mpr ⟨mem_of_start_ne hmem fun heq => hne ?_, hused⟩
  rw [hptr, heq]

theorem MemheapClient.StepOk.of_null {s : MemheapClient} {op : MemheapOp} {mem : RtMemheap}
    (hsame : ∀ y ∈ s.live, SameData cfg s.toRtMemheap mem y.ptr) :
    s.StepOk cfg op { toRtMemheap := mem, live := s.live, result := 0 } :=
  ⟨fun y hy _ => ⟨hy, hsame y hy⟩, fun _ _ _ hresult => absurd rfl hresult,
    fun _ _ _ _ _ y hy => ⟨hy, hsame y hy⟩⟩

theorem rtMemheapRealloc_null {newsize : Nat} (hzero : newsize ≠ 0) {mem : RtMemheap} :
    rtMemheapRealloc cfg 0 newsize mem = rtMemheapAlloc cfg (allocatedSize cfg newsize) mem := by
  rw [rtMemheapRealloc, if_neg hzero]
  exact if_pos rfl

section

variable (hinv : s.Inv cfg tiles)
include hinv

theorem MemheapClient.Inv.give_alloc {size asked : Nat} (hle : size ≤ allocatedSize cfg asked) :
    (∃ mem, rtMemheapAlloc cfg asked s.toRtMemheap = some (0, mem) ∧
      Outcome cfg s.toRtMemheap mem tiles tiles) ∨
    ∃ mem p tiles', rtMemheapAlloc cfg asked s.toRtMemheap = some (p, mem) ∧ p ≠ 0 ∧
      Inv cfg { toRtMemheap := mem, live := ⟨p, size⟩ :: s.live, result := p } tiles' ∧
      ∀ y ∈ s.live, SameData cfg s.toRtMemheap mem y.ptr := by
  obtain ⟨frees, hlayout⟩ := hinv.layout
  rcases rtMemheapAlloc_spec hlayout hinv.recorded asked with
    ⟨mem, hcall, houtcome, -⟩ |
      ⟨pre, x, post, tile, rest, mem, rfl, hfree, hcarved, hcall, houtcome, -⟩
  · exact .inl ⟨mem, hcall, houtcome⟩
  · have hlen := twentyFour_le cfg
    have hall : ∀ y ∈ s.live, ∀ t ∈ usedTiles (pre ++ x :: post),
        y.ptr = t.start + cfg.memheapSize → t ∈ usedTiles (pre ++ x :: post) :=
      fun _ _ _ ht _ => ht
    refine .inr ⟨mem, _, pre ++ tile :: (rest ++ post), hcall, by omega, ?_,
      fun y hy => (hinv.live_kept houtcome hy (hall y hy)).2⟩
    refine hinv.give houtcome (fun _ hy => hy) hall hinv.nodup
      (mem_usedTiles.mpr ⟨by simp, hcarved.used⟩) (fun t ht => ?_)
      (Nat.le_trans hle hcarved.room) _
    rw [hcarved.start]
    exact hlayout.shape.start_ne (mem_usedTiles.mpr
      ⟨List.mem_append.mpr (mem_usedTiles_middle hfree ht), (mem_usedTiles.mp ht).2⟩)

theorem MemheapClient.Inv.alloc {size p : Nat}
    (hle : size ≤ allocatedSize cfg size) {mem : RtMemheap}
    (hcall : rtMemheapAlloc cfg size s.toRtMemheap = some (p, mem)) :
    (∃ tiles', (s.receive size (p, mem)).Inv cfg tiles') ∧
      s.StepOk cfg (.alloc size) (s.receive size (p, mem)) := by
  rcases hinv.give_alloc hle with
    ⟨mem', hnull, houtcome⟩ | ⟨mem', p', tiles', hfound, hp, hinv', hsame⟩
  · rw [hnull] at hcall
    cases hcall
    obtain ⟨hinv', hsame⟩ := hinv.null houtcome
    exact ⟨⟨tiles, hinv'⟩, .of_null hsame⟩
  · rw [hfound] at hcall
    cases hcall
    rw [receive, if_neg hp]
    exact ⟨⟨tiles', hinv'⟩, fun y hy _ => ⟨List.mem_cons_of_mem _ hy, hsame y hy⟩,
      fun _ _ hop => (by cases hop), fun _ _ hop => (by cases hop)⟩

theorem MemheapClient.Inv.free {ptr : Nat}
    (hptr : ptr = 0 ∨ ptr ∈ s.live.map Live.ptr) {mem : RtMemheap}
    (hcall : rtMemheapFree cfg ptr s.toRtMemheap = some mem) :
    (∃ tiles', (s.giveBack ptr mem).Inv cfg tiles') ∧
      s.StepOk cfg (.free ptr) (s.giveBack ptr mem) := by
  obtain ⟨frees, hlayout⟩ := hinv.layout
  rcases hptr with rfl | hlive
  · rw [rtMemheapFree, if_pos rfl] at hcall
    cases hcall
    obtain ⟨hinv', hsame⟩ := hinv.null (.unchanged hlayout hinv.recorded)
    rw [giveBack, hinv.dropLive_zero]
    exact ⟨⟨tiles, hinv'⟩, .of_null hsame⟩
  · obtain ⟨x, hx, rfl⟩ := hinv.exists_tile hlive
    obtain ⟨hmem, hused⟩ := mem_usedTiles.mp hx
    obtain ⟨pre, post, rfl⟩ := List.append_of_mem hmem
    obtain ⟨mem', tiles', hfree, houtcome, -⟩ := rtMemheapFree_spec hlayout hinv.recorded hused
    rw [hfree] at hcall
    cases hcall
    refine ⟨⟨tiles', houtcome.layout, houtcome.recorded, dropLive_nodup hinv.nodup,
      fun y hy => ?_⟩, fun y hy hne => ⟨mem_dropLive.mpr ⟨hy, hne⟩, ?_⟩,
      fun _ _ hop => (by cases hop), fun _ _ hop => (by cases hop)⟩
    · obtain ⟨hy, hne⟩ := mem_dropLive.mp hy
      exact (hinv.live_kept houtcome hy (mem_used_of_ptr_ne hne)).1
    · exact (hinv.live_kept houtcome hy (mem_used_of_ptr_ne hne)).2

theorem MemheapClient.Inv.write {y : Live} (hy : y ∈ s.live)
    {index : Nat} (hindex : index < y.size) (byte : UInt8) :
    ∃ pre x post, tiles = pre ++ x :: post ∧ y.ptr = x.start + cfg.memheapSize ∧
      Outcome cfg s.toRtMemheap
        { s.toRtMemheap with memory := s.memory.writeBytes (y.ptr + index) [byte] }
        (pre ++ post) tiles := by
  obtain ⟨x, hx, hptr, hroom⟩ := hinv.live y hy
  obtain ⟨frees, hlayout⟩ := hinv.layout
  obtain ⟨hmem, hused⟩ := mem_usedTiles.mp hx
  obtain ⟨pre, post, rfl⟩ := List.append_of_mem hmem
  have hdx : dataSize cfg x = x.stop - (x.start + cfg.memheapSize) := rfl
  obtain ⟨hwritten, hkept⟩ := hlayout.write
    (s.memory.writeBytes (y.ptr + index) [byte]) (by
      intro i hi
      apply ByteMemory.writeBytes_outside
      rw [List.length_singleton]
      omega)
  exact ⟨pre, x, post, rfl, hptr,
    ⟨rfl, ⟨frees, hwritten⟩, hinv.recorded, fun t ht => ⟨mem_middle_of_mem ht, hkept t ht⟩⟩⟩

theorem MemheapClient.Inv.store {y : Live} (hy : y ∈ s.live)
    {index : Nat} (hindex : index < y.size) (byte : UInt8) :
    (∃ tiles', Inv cfg
      { s with memory := s.memory.writeBytes (y.ptr + index) [byte], result := 0 } tiles') ∧
      s.StepOk cfg (.store y.ptr index byte)
        { s with memory := s.memory.writeBytes (y.ptr + index) [byte], result := 0 } := by
  obtain ⟨pre, x, post, rfl, hptr, houtcome⟩ := hinv.write hy hindex byte
  refine ⟨⟨pre ++ x :: post, houtcome.layout, hinv.recorded, hinv.nodup, hinv.live⟩,
    fun z hz hne => ⟨hz, ?_⟩, fun _ _ hop => (by cases hop), fun _ _ hop => (by cases hop)⟩
  have hne' : z.ptr ≠ x.start + cfg.memheapSize := fun heq => hne (heq.trans hptr.symm)
  exact (hinv.live_kept houtcome hz fun tile htile hz =>
    (mem_usedTiles.mp (mem_used_of_ptr_ne hne' tile htile hz)).1).2

theorem MemheapClient.Inv.realloc {ptr newsize p : Nat}
    (hptr : ptr = 0 ∨ ptr ∈ s.live.map Live.ptr) (hle : newsize ≤ allocatedSize cfg newsize)
    (hfit : allocatedSize cfg newsize + 12 < 2 ^ 32) {mem : RtMemheap}
    (hcall : rtMemheapRealloc cfg ptr newsize s.toRtMemheap = some (p, mem)) :
    (∃ tiles', (s.resize ptr newsize (p, mem)).Inv cfg tiles') ∧
      s.StepOk cfg (.realloc ptr newsize) (s.resize ptr newsize (p, mem)) := by
  have hlen := twentyFour_le cfg
  obtain ⟨frees, hlayout⟩ := hinv.layout
  by_cases hzero : newsize = 0
  · subst hzero
    rw [rtMemheapRealloc, if_pos rfl, Option.map_eq_some_iff] at hcall
    obtain ⟨mem', hfree, heq⟩ := hcall
    cases heq
    obtain ⟨hinv', hstep⟩ := hinv.free hptr hfree
    refine ⟨hinv', hstep.untouched, fun _ _ hop _ _ i hi => ?_, fun _ _ hop hne => ?_⟩
    · cases hop
      omega
    · cases hop
      exact absurd rfl hne
  · rcases hptr with rfl | hlive
    · -- `rt_memheap_alloc` rounds a second time
      rw [rtMemheapRealloc_null hzero] at hcall
      rcases hinv.give_alloc (Nat.le_trans hle (le_allocatedSize cfg newsize)) with
        ⟨mem', hnull, houtcome⟩ | ⟨mem', p', tiles', hfound, hp, hinv', hsame⟩
      · rw [hnull] at hcall
        cases hcall
        obtain ⟨hinv', hsame⟩ := hinv.null houtcome
        rw [resize, if_neg hzero, if_pos rfl]
        exact ⟨⟨tiles, hinv'⟩, .of_null hsame⟩
      · rw [hfound] at hcall
        cases hcall
        rw [resize, if_neg hzero, if_neg hp, hinv.dropLive_zero]
        refine ⟨⟨tiles', hinv'⟩, fun y hy _ => ⟨List.mem_cons_of_mem _ hy, hsame y hy⟩,
          fun _ _ hop _ hne => ?_, fun _ _ _ _ hresult => absurd hresult hp⟩
        cases hop
        exact absurd rfl hne
    · obtain ⟨x, hx, rfl⟩ := hinv.exists_tile hlive
      obtain ⟨hmem, hused⟩ := mem_usedTiles.mp hx
      obtain ⟨pre, post, rfl⟩ := List.append_of_mem hmem
      rcases rtMemheapRealloc_spec hlayout hinv.recorded hused hzero rfl hfit with
        ⟨mem', hnull, houtcome, -⟩ | ⟨mem', tiles', tile, hmoved, hresized, -⟩
      · rw [hnull] at hcall
        cases hcall
        obtain ⟨hinv', hsame⟩ := hinv.null houtcome
        rw [resize, if_neg hzero, if_pos rfl]
        exact ⟨⟨_, hinv'⟩, .of_null hsame⟩
      · have hnotNull : tile.start + cfg.memheapSize ≠ 0 := by omega
        rw [hmoved] at hcall
        cases hcall
        rw [resize, if_neg hzero, if_neg hnotNull]
        have houtcome := hresized.outcome
        refine ⟨⟨tiles', ?_⟩, fun y hy hne => ⟨?_, ?_⟩, fun _ _ hop _ _ i hi => ?_,
          fun _ _ _ _ hresult => absurd hresult hnotNull⟩
        · exact hinv.give houtcome (fun y hy => (mem_dropLive.mp hy).1)
            (fun y hy => mem_used_of_ptr_ne (mem_dropLive.mp hy).2) (dropLive_nodup hinv.nodup)
            hresized.mem hresized.fresh (Nat.le_trans hle hresized.room) _
        · exact List.mem_cons_of_mem _ (mem_dropLive.mpr ⟨hy, hne⟩)
        · exact (hinv.live_kept houtcome hy (mem_used_of_ptr_ne hne)).2
        · cases hop
          rw [hinv.capacity_eq hmem] at hi
          exact hresized.contents i (by omega)

end

theorem exec_cases {op : MemheapOp} (hexec : s.exec cfg op = some s') :
    (∃ size p mem, op = .alloc size ∧ size ≤ s.poolSize ∧
      rtMemheapAlloc cfg size s.toRtMemheap = some (p, mem) ∧ s' = s.receive size (p, mem)) ∨
    (∃ ptr newsize p mem, op = .realloc ptr newsize ∧
      (ptr = 0 ∨ ptr ∈ s.live.map Live.ptr) ∧ newsize ≤ s.poolSize ∧
      rtMemheapRealloc cfg ptr newsize s.toRtMemheap = some (p, mem) ∧
      s' = s.resize ptr newsize (p, mem)) ∨
    (∃ ptr mem, op = .free ptr ∧ (ptr = 0 ∨ ptr ∈ s.live.map Live.ptr) ∧
      rtMemheapFree cfg ptr s.toRtMemheap = some mem ∧ s' = s.giveBack ptr mem) ∨
    ∃ y ∈ s.live, ∃ index byte, op = .store y.ptr index byte ∧ index < y.size ∧
      s' = { s with memory := s.memory.writeBytes (y.ptr + index) [byte], result := 0 } := by
  have henabled : s.enabled op = true := by
    by_contra hnot
    simp only [exec, if_neg hnot] at hexec
    cases hexec
  simp only [exec, if_pos henabled] at hexec
  cases op with
  | alloc size =>
    obtain ⟨⟨p, mem⟩, hcall, rfl⟩ := Option.map_eq_some_iff.mp hexec
    exact .inl ⟨size, p, mem, rfl, of_decide_eq_true henabled, hcall, rfl⟩
  | realloc ptr newsize =>
    obtain ⟨hptr, hsize⟩ := of_decide_eq_true henabled
    obtain ⟨⟨p, mem⟩, hcall, rfl⟩ := Option.map_eq_some_iff.mp hexec
    exact .inr (.inl ⟨ptr, newsize, p, mem, rfl, hptr, hsize, hcall, rfl⟩)
  | free ptr =>
    obtain ⟨mem, hcall, rfl⟩ := Option.map_eq_some_iff.mp hexec
    exact .inr (.inr (.inl ⟨ptr, mem, rfl, of_decide_eq_true henabled, hcall, rfl⟩))
  | store ptr index byte =>
    obtain ⟨y, hy, rfl, hindex⟩ := of_decide_eq_true henabled
    cases hexec
    exact .inr (.inr (.inr ⟨y, hy, index, byte, rfl, hindex, rfl⟩))

theorem MemheapClient.Inv.step (hinv : s.Inv cfg tiles) {op : MemheapOp}
    (hexec : s.exec cfg op = some s') : (∃ tiles', s'.Inv cfg tiles') ∧ s.StepOk cfg op s' := by
  obtain ⟨frees, hlayout⟩ := hinv.layout
  rcases exec_cases hexec with ⟨size, p, mem, rfl, hsize, hcall, rfl⟩ |
    ⟨ptr, newsize, p, mem, rfl, hptr, hsize, hcall, rfl⟩ | ⟨ptr, mem, rfl, hptr, hcall, rfl⟩ |
    ⟨y, hy, index, byte, rfl, hindex, rfl⟩
  · exact hinv.alloc (hlayout.region.le_allocatedSize hsize).1 hcall
  · obtain ⟨hle, hfit⟩ := hlayout.region.le_allocatedSize hsize
    exact hinv.realloc hptr hle hfit hcall
  · exact hinv.free hptr hcall
  · exact hinv.store hy hindex byte

end Calls

end RtThread.Memheap
