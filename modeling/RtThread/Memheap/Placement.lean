import RtThread.Memheap.Invariant

namespace RtThread.Memheap

open RtThread.Lib RtThread.Mem

variable {cfg : MemheapConfig} {s s' : RtMemheap} {tiles tiles' : List Tile}

theorem Layout.unique {frees frees' : List Nat} (hlayout : Layout cfg s tiles frees)
    (hlayout' : Layout cfg s tiles' frees') : tiles = tiles' := by
  have hread : ∀ {tiles : List Tile} {frees : List Nat}, Layout cfg s tiles frees →
      ∀ t ∈ tiles, itemGet .next s.memory t.start = t.stop ∧
        isUsed s.memory t.start = t.used := by
    intro tiles frees hlayout t ht
    refine ⟨?_, hlayout.shape.isUsed_eq ht⟩
    obtain ⟨pre, post, rfl⟩ := List.append_of_mem ht
    exact hlayout.shape.next_eq
  exact hlayout.shape.tiling.unique hlayout'.shape.tiling
    (Nat.lt_of_lt_of_le (by decide) (twentyFour_le cfg)) (itemGet .next s.memory)
    (isUsed s.memory) (hread hlayout) (hread hlayout')

/-- The heap between two calls.  Its blocks are long enough, unless it is too small for any
request. -/
structure Neat (cfg : MemheapConfig) (s : RtMemheap) (tiles : List Tile) : Prop where
  layout : ∃ frees, Layout cfg s tiles frees
  recorded : s.Recorded
  long : Long cfg tiles ∨
    (∀ t ∈ tiles, t.used = false) ∧ s.availableSize < memheapMinialloc

/-- A call has left the heap `s'`; its items are in their places if `fit` holds. -/
def Leaves (cfg : MemheapConfig) (s' : RtMemheap) (tiles : List Tile) (fit : Prop) : Prop :=
  ∃ tiles', Neat cfg s' tiles' ∧ (Placed cfg tiles → fit → Placed cfg tiles')

/-- `rt_memheap_alloc` cuts off a block of `RT_MEMHEAP_MINIALLOC` bytes, which is no multiple
of `RT_ALIGN_SIZE`. -/
def RtMemheap.AllocMisplaces (cfg : MemheapConfig) (s : RtMemheap) (size : Nat) : Prop :=
  memheapMinialloc % cfg.alignSize ≠ 0 ∧ rtAlign size cfg.alignSize < memheapMinialloc ∧
    memheapMinialloc < s.availableSize ∧
    memheapMinialloc + cfg.memheapSize + memheapMinialloc ≤
      memitemSize cfg s.memory (itemGet .nextFree s.memory s.freeList)

/-- `rt_memheap_realloc` cuts a block down to so many bytes. -/
def RtMemheap.ReallocMisplaces (cfg : MemheapConfig) (s : RtMemheap) (ptr newsize : Nat) : Prop :=
  memheapMinialloc % cfg.alignSize ≠ 0 ∧ rtAlign newsize cfg.alignSize < memheapMinialloc ∧
    newsize ≠ 0 ∧ ptr ≠ 0 ∧
    memheapMinialloc + cfg.memheapSize + memheapMinialloc < s.capacity cfg ptr

theorem Neat.unchanged (hneat : Neat cfg s tiles) {kept : List Tile}
    (houtcome : Outcome cfg s s' kept tiles) (fit : Prop) : Leaves cfg s' tiles fit := by
  obtain ⟨frees, hlayout⟩ := hneat.layout
  obtain ⟨frees', hlayout'⟩ := houtcome.layout
  refine ⟨tiles, ⟨⟨frees', hlayout'⟩, houtcome.recorded, ?_⟩, fun hplaced _ => hplaced⟩
  rw [hlayout'.available, ← hlayout.available]
  exact hneat.long

theorem Neat.long_of_used (hneat : Neat cfg s tiles) {x : Tile} (hx : x ∈ tiles)
    (hused : x.used = true) : Long cfg tiles := by
  refine hneat.long.resolve_right fun h => ?_
  rw [h.1 x hx] at hused
  cases hused

theorem allocatedSize_eq_minialloc {size : Nat}
    (hmod : allocatedSize cfg size % cfg.alignSize ≠ 0) :
    allocatedSize cfg size = memheapMinialloc ∧
      rtAlign size cfg.alignSize < memheapMinialloc := by
  have hbits := cfg.alignBits_le
  unfold allocatedSize at hmod ⊢
  dsimp only at hmod ⊢
  split at hmod
  next hshort => exact ⟨if_pos hshort, hshort⟩
  · exact absurd (rtAlign_mod size (Nat.le_trans hbits (by decide))) hmod

theorem Neat.alloc (hneat : Neat cfg s tiles) {size p : Nat}
    (hcall : rtMemheapAlloc cfg size s = some (p, s')) :
    Leaves cfg s' tiles (¬ s.AllocMisplaces cfg size) := by
  obtain ⟨frees, hlayout⟩ := hneat.layout
  have hmin := twelve_le_allocatedSize cfg size
  have hmini : memheapMinialloc = 12 := rfl
  rcases rtMemheapAlloc_spec hlayout hneat.recorded size with
    ⟨mem, halloc, houtcome, -⟩ |
      ⟨pre, x, post, tile, rest, mem, rfl, hfree, hcarved, halloc, houtcome, hroom, hsplit, hfirst⟩
  · rw [halloc] at hcall
    cases hcall
    exact hneat.unchanged houtcome _
  · rw [halloc] at hcall
    cases hcall
    have hlong : Long cfg (pre ++ x :: post) := hneat.long.resolve_right fun h => by omega
    refine ⟨_, ⟨houtcome.layout, houtcome.recorded, .inl (hcarved.long hlong hmin hsplit)⟩,
      fun hplaced hfit => hcarved.placed hplaced ?_⟩
    by_contra hnot
    obtain ⟨hrest, hmod⟩ := not_or.mp hnot
    obtain ⟨hsize, hshort⟩ := allocatedSize_eq_minialloc hmod
    rw [hsize] at hmod hroom hsplit hfirst
    refine hfit ⟨hmod, hshort, hroom, ?_⟩
    rw [← hfirst hlong, hlayout.shape.memitemSize_eq (by simp) (hlayout.stop_lt (by simp))]
    exact hsplit hrest

theorem Neat.free (hneat : Neat cfg s tiles) {x : Tile} (hx : x ∈ usedTiles tiles)
    (hcall : rtMemheapFree cfg (x.start + cfg.memheapSize) s = some s') :
    Leaves cfg s' tiles True := by
  obtain ⟨frees, hlayout⟩ := hneat.layout
  obtain ⟨hmem, hused⟩ := mem_usedTiles.mp hx
  have hlong := hneat.long_of_used hmem hused
  obtain ⟨pre, post, rfl⟩ := List.append_of_mem hmem
  obtain ⟨mem, tiles', hfree, houtcome, hcoarser⟩ :=
    rtMemheapFree_spec hlayout hneat.recorded hused
  rw [hfree] at hcall
  cases hcall
  exact ⟨tiles', ⟨houtcome.layout, houtcome.recorded, .inl (hcoarser.long hlong)⟩,
    fun hplaced _ => hcoarser.placed hplaced⟩

theorem not_allocMisplaces_allocatedSize (newsize : Nat) :
    ¬ s.AllocMisplaces cfg (allocatedSize cfg newsize) := by
  intro h
  have hmin := twelve_le_allocatedSize cfg newsize
  have hle := allocatedSize_le_rtAlign cfg newsize
  have hmini : memheapMinialloc = 12 := rfl
  have hshort := h.2.1
  omega

theorem Neat.realloc (hneat : Neat cfg s tiles) {x : Tile} (hx : x ∈ usedTiles tiles)
    {newsize p : Nat} (hzero : newsize ≠ 0) (hfit : allocatedSize cfg newsize + 12 < 2 ^ 32)
    (hcall : rtMemheapRealloc cfg (x.start + cfg.memheapSize) newsize s = some (p, s')) :
    Leaves cfg s' tiles (¬ s.ReallocMisplaces cfg (x.start + cfg.memheapSize) newsize) := by
  have hlen := twentyFour_le cfg
  obtain ⟨frees, hlayout⟩ := hneat.layout
  obtain ⟨hmem, hused⟩ := mem_usedTiles.mp hx
  have hlong := hneat.long_of_used hmem hused
  have hcapacity : s.capacity cfg (x.start + cfg.memheapSize) = dataSize cfg x := by
    rw [RtMemheap.capacity, Nat.add_sub_cancel]
    exact hlayout.shape.memitemSize_eq hmem (hlayout.stop_lt hmem)
  obtain ⟨pre, post, rfl⟩ := List.append_of_mem hmem
  rcases rtMemheapRealloc_spec hlayout hneat.recorded hused hzero rfl hfit with
    ⟨mem, hrealloc, houtcome, -⟩ | ⟨mem, tiles', tile, hrealloc, hresized, htidy⟩
  · rw [hrealloc] at hcall
    cases hcall
    exact hneat.unchanged houtcome _
  · rw [hrealloc] at hcall
    cases hcall
    refine ⟨tiles', ⟨hresized.outcome.layout, hresized.outcome.recorded,
      .inl (htidy hlong).1⟩, fun hplaced hnot => (htidy hlong).2 hplaced ?_⟩
    by_contra hodd
    obtain ⟨hmod, hcut⟩ := not_or.mp hodd
    obtain ⟨hsize, hshort⟩ := allocatedSize_eq_minialloc hmod
    rw [hsize] at hmod hcut
    refine hnot ⟨hmod, hshort, hzero, by omega, ?_⟩
    rw [hcapacity]
    omega

section Clients

/-- A call that leaves an item where `RT_ALIGN_SIZE` does not want it. -/
def MemheapClient.Misplaces (cfg : MemheapConfig) (s : MemheapClient) : MemheapOp → Prop
  | .alloc size => s.AllocMisplaces cfg size
  | .realloc ptr newsize => s.ReallocMisplaces cfg ptr newsize
  | .free _ => False
  | .store _ _ _ => False

instance (cfg : MemheapConfig) (s : MemheapClient) (op : MemheapOp) :
    Decidable (s.Misplaces cfg op) :=
  match op with
  | .alloc _ => inferInstanceAs (Decidable (_ ≠ _ ∧ _ < _ ∧ _ < _ ∧ _ ≤ _))
  | .realloc _ _ => inferInstanceAs (Decidable (_ ≠ _ ∧ _ < _ ∧ _ ≠ _ ∧ _ ≠ _ ∧ _ < _))
  | .free _ | .store _ _ _ => instDecidableFalse

variable {s s' : MemheapClient}

theorem MemheapClient.Inv.neat_free (hinv : s.Inv cfg tiles) (hneat : Neat cfg s.toRtMemheap tiles)
    {ptr : Nat} (hptr : ptr = 0 ∨ ptr ∈ s.live.map Live.ptr) {mem : RtMemheap}
    (hcall : rtMemheapFree cfg ptr s.toRtMemheap = some mem) : Leaves cfg mem tiles True := by
  rcases hptr with rfl | hlive
  · rw [rtMemheapFree, if_pos rfl] at hcall
    cases hcall
    exact ⟨tiles, hneat, fun hplaced _ => hplaced⟩
  · obtain ⟨x, hx, rfl⟩ := hinv.exists_tile hlive
    exact hneat.free hx hcall

theorem MemheapClient.Inv.neat_realloc (hinv : s.Inv cfg tiles)
    (hneat : Neat cfg s.toRtMemheap tiles) {ptr newsize p : Nat}
    (hptr : ptr = 0 ∨ ptr ∈ s.live.map Live.ptr)
    (hfit : allocatedSize cfg newsize + 12 < 2 ^ 32) {mem : RtMemheap}
    (hcall : rtMemheapRealloc cfg ptr newsize s.toRtMemheap = some (p, mem)) :
    Leaves cfg mem tiles (¬ s.ReallocMisplaces cfg ptr newsize) := by
  by_cases hzero : newsize = 0
  · subst hzero
    rw [rtMemheapRealloc, if_pos rfl, Option.map_eq_some_iff] at hcall
    obtain ⟨mem', hfree, heq⟩ := hcall
    cases heq
    obtain ⟨tiles', hneat', hplaced⟩ := hinv.neat_free hneat hptr hfree
    exact ⟨tiles', hneat', fun h _ => hplaced h trivial⟩
  · rcases hptr with rfl | hlive
    · rw [rtMemheapRealloc_null hzero] at hcall
      obtain ⟨tiles', hneat', hplaced⟩ := hneat.alloc hcall
      exact ⟨tiles', hneat', fun h _ => hplaced h (not_allocMisplaces_allocatedSize newsize)⟩
    · obtain ⟨x, hx, rfl⟩ := hinv.exists_tile hlive
      exact hneat.realloc hx hzero hfit hcall

theorem MemheapClient.Inv.leaves (hinv : s.Inv cfg tiles) (hneat : Neat cfg s.toRtMemheap tiles)
    {op : MemheapOp} (hexec : s.exec cfg op = some s') :
    Leaves cfg s'.toRtMemheap tiles (¬ s.Misplaces cfg op) := by
  obtain ⟨frees, hlayout⟩ := hinv.layout
  rcases exec_cases hexec with ⟨size, p, mem, rfl, -, hcall, rfl⟩ |
    ⟨ptr, newsize, p, mem, rfl, hptr, hsize, hcall, rfl⟩ | ⟨ptr, mem, rfl, hptr, hcall, rfl⟩ |
    ⟨y, hy, index, byte, rfl, hindex, rfl⟩
  · exact hneat.alloc hcall
  · exact hinv.neat_realloc hneat hptr (hlayout.region.le_allocatedSize hsize).2 hcall
  · obtain ⟨tiles', hneat', hplaced⟩ := hinv.neat_free hneat hptr hcall
    exact ⟨tiles', hneat', fun h _ => hplaced h trivial⟩
  · obtain ⟨pre, x, post, -, -, houtcome⟩ := hinv.write hy hindex byte
    exact hneat.unchanged houtcome _

theorem MemheapClient.Inv.neat_step (hinv : s.Inv cfg tiles) (hneat : Neat cfg s.toRtMemheap tiles)
    {op : MemheapOp} (hexec : s.exec cfg op = some s') :
    ∃ tiles', s'.Inv cfg tiles' ∧ Neat cfg s'.toRtMemheap tiles' ∧
      (Placed cfg tiles → ¬ s.Misplaces cfg op → Placed cfg tiles') := by
  obtain ⟨tiles', hinv'⟩ := (hinv.step hexec).1
  obtain ⟨tiles'', hneat', hplaced⟩ := hinv.leaves hneat hexec
  obtain ⟨frees, hlayout⟩ := hinv'.layout
  obtain ⟨frees', hlayout'⟩ := hneat'.layout
  cases hlayout.unique hlayout'
  exact ⟨tiles', hinv', hneat', hplaced⟩

end Clients

end RtThread.Memheap
