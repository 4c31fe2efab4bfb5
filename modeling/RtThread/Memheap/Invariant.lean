import RtThread.Memheap.Clients

namespace RtThread.Memheap

open Function RtThread.Lib RtThread.Mem

variable {cfg : MemheapConfig} {tiles : List Tile}

section Init

def Items.initItem (heap item magic next prev nextFree prevFree : Nat) (items : Items) : Items :=
  let items := items.set .magic item magic
  let items := items.set .poolPtr item heap
  let items := items.set .next item next
  let items := items.set .prev item prev
  let items := items.set .nextFree item nextFree
  items.set .prevFree item prevFree

theorem Edited.initItem {sites : Set Nat} {memory memory' : ByteMemory} {items : Items}
    {heap item magic next prev nextFree prevFree : Nat}
    (hedited : Edited sites memory memory' items) (hsites : Sites sites) (hitem : item ∈ sites)
    (hheap : heap < 2 ^ 32) (hmagic : magic < 2 ^ 32) (hnext : next < 2 ^ 32) (hprev : prev < 2 ^ 32)
    (hnextFree : nextFree < 2 ^ 32) (hprevFree : prevFree < 2 ^ 32) :
    Edited sites memory (initItem heap item magic next prev nextFree prevFree memory')
      (items.initItem heap item magic next prev nextFree prevFree) :=
  (((((hedited.itemSet .magic hsites hitem hmagic).itemSet .poolPtr hsites hitem hheap).itemSet
    .next hsites hitem hnext).itemSet .prev hsites hitem hprev).itemSet .nextFree hsites hitem
    hnextFree).itemSet .prevFree hsites hitem hprevFree

variable {heap startAddr size : Nat}

def initPool (cfg : MemheapConfig) (heap startAddr size : Nat) : MemheapPool where
  heap := heap
  startAddr := startAddr
  poolSize := rtAlignDown size cfg.alignSize
  freeList := heap + cfg.freeHeaderOffset

theorem alignDown_bounds (cfg : MemheapConfig) (hlarge : 2 * cfg.memheapSize < size)
    (hsize : size < 2 ^ 32) :
    2 * cfg.memheapSize ≤ rtAlignDown size cfg.alignSize ∧ rtAlignDown size cfg.alignSize ≤ size ∧
      rtAlignDown size cfg.alignSize % cfg.alignSize = 0 := by
  have hbits := cfg.alignBits_le
  have hpos : 0 < cfg.alignSize := Nat.two_pow_pos _
  rw [MemheapConfig.alignSize, rtAlignDown_two_pow hsize (by omega)]
  refine ⟨?_, Nat.div_mul_le_self .., Nat.mul_mod_left ..⟩
  obtain ⟨units, hunits⟩ := Nat.dvd_of_mod_eq_zero (memheapSize_mod cfg)
  have hdouble : 2 * cfg.memheapSize = 2 * units * 2 ^ cfg.alignBits := by
    rw [hunits, MemheapConfig.alignSize]
    ring
  rw [hdouble] at hlarge ⊢
  exact Nat.mul_le_mul_right _ ((Nat.le_div_iff_mul_le hpos).mpr (Nat.le_of_lt hlarge))

theorem region_init (cfg : MemheapConfig) (hpos : 0 < startAddr) (hheap : 0 < heap) (hfits : startAddr + size ≤ 2 ^ 32)
    (hobject : heap + cfg.freeHeaderOffset + 24 ≤ 2 ^ 32)
    (hapart : heap + cfg.freeHeaderOffset + 24 ≤ startAddr ∨ startAddr + size ≤ heap)
    (hlarge : 2 * cfg.memheapSize < size) (hsize : size < 2 ^ 32) :
    Region cfg (initPool cfg heap startAddr size) := by
  have hlen := twentyFour_le cfg
  have hoffset : cfg.freeHeaderOffset = cfg.objectSize + 24 := rfl
  obtain ⟨hroom, hdown, haligned⟩ := alignDown_bounds cfg hlarge hsize
  constructor <;> dsimp only [initPool] <;> omega

def initTiles (cfg : MemheapConfig) (heap startAddr size : Nat) : List Tile :=
  [⟨startAddr, (initPool cfg heap startAddr size).tail cfg, false⟩]

def Items.init (pool : MemheapPool) (tail : Nat) (items : Items) : Items :=
  let items := items.initItem pool.heap pool.freeList memheapMagic 0 0 pool.freeList pool.freeList
  let items := items.initItem pool.heap pool.startAddr memheapMagic 0 0 pool.startAddr pool.startAddr
  let items := items.set .next pool.startAddr tail
  let items := items.set .prev pool.startAddr tail
  let items := items.freeInsert pool.freeList pool.startAddr
  items.initItem pool.heap tail (memheapMagic ||| memheapUsed) pool.startAddr pool.startAddr 0 0

theorem rtMemheapInit_eq (hregion : Region cfg (initPool cfg heap startAddr size))
    {sites : Set Nat} (hsites : Sites sites) (memory : ByteMemory)
    (hlist : (initPool cfg heap startAddr size).freeList ∈ sites) (hstart : startAddr ∈ sites)
    (htail : (initPool cfg heap startAddr size).tail cfg ∈ sites) :
    ∃ final, Edited sites memory final ((itemsOf memory).init (initPool cfg heap startAddr size)
        ((initPool cfg heap startAddr size).tail cfg)) ∧
      rtMemheapInit cfg heap startAddr size memory =
        { toMemheapPool := initPool cfg heap startAddr size
          memory := final
          availableSize := (initPool cfg heap startAddr size).poolSize - 2 * cfg.memheapSize
          maxUsedSize := 2 * cfg.memheapSize
          released := [(initPool cfg heap startAddr size).poolSize - 2 * cfg.memheapSize] } := by
  have hlen := twentyFour_le cfg
  have hroom := hregion.room
  have hbelow := hregion.below
  have hplace := hregion.tail_add
  have hobject := hregion.object
  have hsize : rtAlignDown size cfg.alignSize = (initPool cfg heap startAddr size).poolSize := rfl
  have hfree : heap + cfg.freeHeaderOffset = (initPool cfg heap startAddr size).freeList := rfl
  have hheap : heap < 2 ^ 32 := hregion.heap
  have hsame : (initPool cfg heap startAddr size).startAddr = startAddr := rfl
  have hheapEq : (initPool cfg heap startAddr size).heap = heap := rfl
  unfold rtMemheapInit Items.init
  dsimp only
  rw [hsize, hfree]
  rw [hsame] at hplace hobject
  generalize (initPool cfg heap startAddr size).tail cfg = tail at *
  generalize initPool cfg heap startAddr size = pool at *
  obtain ⟨heap', start', poolSize, freeList⟩ := pool
  dsimp only at *
  subst heap' start'
  have hne : freeList ≠ startAddr := by omega
  rw [sub32_eq hroom (by omega)]
  have htop : startAddr + (poolSize - 2 * cfg.memheapSize) + cfg.memheapSize = tail := by omega
  have hused : sub32 poolSize (poolSize - 2 * cfg.memheapSize) = 2 * cfg.memheapSize := by
    rw [sub32_eq (by omega) (by omega)]
    omega
  rw [htop, hused]
  have h1 := (Edited.refl _ memory).initItem hsites hlist hheap
    (show memheapMagic < 2 ^ 32 by decide) (Nat.two_pow_pos 32) (Nat.two_pow_pos 32)
    (hsites.lt hlist) (hsites.lt hlist)
  have h2 := h1.initItem hsites hstart hheap (show memheapMagic < 2 ^ 32 by decide)
    (Nat.two_pow_pos 32) (Nat.two_pow_pos 32) (hsites.lt hstart) (hsites.lt hstart)
  have h3 := h2.itemSet .next hsites hstart (hsites.lt htail)
  have hread := h3.shows .next startAddr hstart
  rw [Items.set_same, update_self] at hread
  have h4 := h3.itemSet .prev hsites hstart (hsites.lt htail)
  have h5 := h4.freeInsert hsites hlist hstart (by
    simp only [Items.initItem, Items.set_other, Items.set_same, ne_eq, reduceCtorEq,
      not_false_eq_true, update_of_ne hne, update_self]
    exact hlist) hne
  have hread' := h5.shows .next startAddr hstart
  rw [Items.freeInsert_blocks (by decide), Items.set_other (by decide), Items.set_same,
    update_self] at hread'
  have h6 := h5.initItem hsites htail hheap (show memheapMagic ||| memheapUsed < 2 ^ 32 by decide)
    (hsites.lt hstart) (hsites.lt hstart) (Nat.two_pow_pos 32) (Nat.two_pow_pos 32)
  rw [hread, hread']
  exact ⟨_, h6, rfl⟩

/-- The items that `rt_memheap_init` writes are in both lists. -/
structure Items.Fresh (pool : MemheapPool) (tail : Nat) (items : Items) : Prop where
  blocks : BlockImage pool.heap tail items [⟨pool.startAddr, tail, false⟩]
  free : LinkedRing (items .nextFree) (items .prevFree) [pool.freeList, pool.startAddr]

theorem Items.init_fresh (items : Items) (pool : MemheapPool) (tail : Nat)
    (hlist : pool.freeList ≠ pool.startAddr) (htail : pool.freeList ≠ tail)
    (hstart : pool.startAddr ≠ tail) :
    (items.init pool tail).Fresh pool tail := by
  have hnext : ∀ a, items.init pool tail .next a =
      if a = tail then pool.startAddr else if a = pool.startAddr then tail
      else if a = pool.freeList then 0 else items .next a := by
    intro a
    simp [init, initItem, freeInsert, set_other, update_apply]
  have hprev : ∀ a, items.init pool tail .prev a =
      if a = tail then pool.startAddr else if a = pool.startAddr then tail
      else if a = pool.freeList then 0 else items .prev a := by
    intro a
    simp [init, initItem, freeInsert, set_other, update_apply]
  have hnextFree : ∀ a, items.init pool tail .nextFree a =
      if a = tail then 0 else if a = pool.freeList then pool.startAddr
      else if a = pool.startAddr then pool.freeList else items .nextFree a := by
    intro a
    simp [init, initItem, freeInsert, set_other, update_apply, hlist]
    split_ifs <;> rfl
  have hprevFree : ∀ a, items.init pool tail .prevFree a =
      if a = tail then 0 else if a = pool.freeList then pool.startAddr
      else if a = pool.startAddr then pool.freeList else items .prevFree a := by
    intro a
    simp [init, initItem, freeInsert, set_other, update_apply, hlist]
    split_ifs <;> rfl
  refine ⟨⟨⟨?_, ?_⟩, fun t ht => ?_, ?_, fun t ht => ?_⟩, ⟨?_, ?_⟩⟩
  · simpa using hstart
  · exact .cons_cons ⟨by simp [hnext, hstart], by simp [hprev]⟩
      (.cons_cons ⟨by simp [hnext], by simp [hprev, hstart]⟩ (.singleton _))
  · rw [List.mem_singleton.mp ht]
    simp [init, initItem, freeInsert, set_other, update_apply, hstart, itemMagic]
  · simp [init, initItem, itemMagic, set_other]
  · rw [List.mem_singleton.mp ht]
    simp [init, initItem, freeInsert, set_other, update_apply, hstart]
  · simpa using hlist
  · exact .cons_cons ⟨by simp [hnextFree, htail], by simp [hprevFree, hstart, hlist.symm]⟩
      (.cons_cons ⟨by simp [hnextFree, hstart, hlist.symm], by simp [hprevFree, htail]⟩
        (.singleton _))

theorem layout_init (hregion : Region cfg (initPool cfg heap startAddr size))
    (memory : ByteMemory) :
    Layout cfg (rtMemheapInit cfg heap startAddr size memory) (initTiles cfg heap startAddr size)
        [startAddr] ∧
      (rtMemheapInit cfg heap startAddr size memory).Recorded := by
  have hlen := twentyFour_le cfg
  have hroom := hregion.room
  have hplace := hregion.tail_add
  have hobject := hregion.object
  have hsame : (initPool cfg heap startAddr size).startAddr = startAddr := rfl
  have htiling : Tiles cfg.memheapSize startAddr (initTiles cfg heap startAddr size)
      ((initPool cfg heap startAddr size).tail cfg) := by
    refine ⟨rfl, ?_, rfl⟩
    show startAddr + cfg.memheapSize ≤ (initPool cfg heap startAddr size).tail cfg
    omega
  have hsites := hregion.sites htiling
  obtain ⟨final, hedited, hstate⟩ := rtMemheapInit_eq hregion hsites memory (.inl rfl)
    (mem_sites_start (by simp [initTiles])) (mem_sites_start (by simp))
  rw [hstate]
  obtain ⟨hblocks, hfree⟩ := (itemsOf memory).init_fresh (initPool cfg heap startAddr size)
    ((initPool cfg heap startAddr size).tail cfg) (by omega) (by omega) (by omega)
  have hmem : ∀ a ∈ [startAddr], a ∈ (initTiles cfg heap startAddr size).map Tile.start :=
    fun a ha => ha
  refine ⟨⟨hregion, .of_edited hedited (fun _ h => h) htiling hblocks hfree hmem, .refl _,
    List.isChain_singleton _, ?_⟩, List.mem_singleton_self _, ⟨_, List.mem_singleton_self _, ?_⟩,
    fun r hr => ?_⟩
  · show _ = (initPool cfg heap startAddr size).tail cfg - (startAddr + cfg.memheapSize) + 0
    dsimp only
    omega
  · dsimp only
    omega
  · rw [List.mem_singleton.mp hr]
    dsimp only
    omega

end Init

theorem MemheapClient.Initial.inv {s : MemheapClient} (hinit : s.Initial cfg) :
    ∃ tiles, s.Inv cfg tiles := by
  obtain ⟨heap, startAddr, size, memory, -, hpos, hheap, hfits, hobject, hapart, hlarge, hsize, hmem,
    hlive⟩ := hinit
  have hregion := region_init cfg hpos hheap hfits hobject hapart hlarge hsize
  obtain ⟨hlayout, hrecorded⟩ := layout_init hregion memory
  rw [← hmem] at hlayout hrecorded
  exact ⟨_, ⟨_, hlayout⟩, hrecorded, by rw [hlive]; exact List.nodup_nil,
    fun y hy => by rw [hlive] at hy; cases hy⟩

theorem exists_inv_of_reachable {allowed : MemheapClient → MemheapOp → Prop} {s : MemheapClient}
    (hreach : (memheapMachine cfg).Reachable allowed s) : ∃ tiles, s.Inv cfg tiles := by
  refine hreach.invariant (fun s => ∃ tiles, s.Inv cfg tiles) (fun s hinit => MemheapClient.Initial.inv hinit)
    (fun s op s' hinv _ hexec => ?_)
  obtain ⟨tiles, hinv⟩ := hinv
  exact (hinv.step hexec).1

/-- The heap as it should be: `blocks` are the items before the tail, and `frees` those behind
`free_header`. -/
structure MemheapClient.WellFormed (cfg : MemheapConfig) (s : MemheapClient)
    (blocks frees : List Nat) : Prop where
  first : (blocks ++ [s.tail cfg]).head? = some s.startAddr
  ring : LinkedRing (itemsOf s.memory .next) (itemsOf s.memory .prev) (blocks ++ [s.tail cfg])
  increasing : (blocks ++ [s.tail cfg]).Pairwise (· < ·)
  header : ∀ b ∈ blocks, b + cfg.memheapSize ≤ itemGet .next s.memory b
  tailUsed : isUsed s.memory (s.tail cfg) = true
  free : LinkedRing (itemsOf s.memory .nextFree) (itemsOf s.memory .prevFree) (s.freeList :: frees)
  unused : ∀ b, b ∈ frees ↔ b ∈ blocks ∧ isUsed s.memory b = false
  coalesced : ∀ b ∈ blocks,
    isUsed s.memory b = true ∨ isUsed s.memory (itemGet .next s.memory b) = true
  available : s.availableSize = (frees.map (memitemSize cfg s.memory)).sum
  recorded : s.toRtMemheap.Recorded
  live : ∀ x ∈ s.live, ∃ b ∈ blocks, isUsed s.memory b = true ∧
    x.ptr = b + cfg.memheapSize ∧ x.size ≤ s.capacity cfg x.ptr
  apart : s.live.Pairwise fun x y =>
    x.ptr + s.capacity cfg x.ptr ≤ y.ptr ∨ y.ptr + s.capacity cfg y.ptr ≤ x.ptr
  headers : ∀ x ∈ s.live, ∀ b ∈ blocks ++ [s.tail cfg],
    x.ptr + s.capacity cfg x.ptr ≤ b ∨ b + cfg.memheapSize ≤ x.ptr

section WellFormed

variable {s : MemheapClient}

theorem MemheapClient.Inv.live_tile (hinv : s.Inv cfg tiles) {y : Live} (hy : y ∈ s.live) :
    ∃ t ∈ tiles, t.used = true ∧ y.ptr = t.start + cfg.memheapSize ∧
      y.ptr + s.capacity cfg y.ptr = t.stop ∧ y.size ≤ s.capacity cfg y.ptr := by
  obtain ⟨t, htile, hptr, hsize⟩ := hinv.live y hy
  obtain ⟨hmem, hused⟩ := mem_usedTiles.mp htile
  obtain ⟨frees, hlayout⟩ := hinv.layout
  have hbounds := hlayout.bounds hmem
  have hcapacity := hinv.capacity_eq hmem
  rw [← hptr] at hcapacity
  have hdata : dataSize cfg t = t.stop - (t.start + cfg.memheapSize) := rfl
  exact ⟨t, hmem, hused, hptr, by omega, by omega⟩

theorem Layout.coalesced_next {s : RtMemheap} {frees : List Nat} (hlayout : Layout cfg s tiles frees)
    {t : Tile} (ht : t ∈ tiles) :
    isUsed s.memory t.start = true ∨
      isUsed s.memory (itemGet .next s.memory t.start) = true := by
  obtain ⟨pre, post, rfl⟩ := List.append_of_mem ht
  have hnext : itemGet .next s.memory t.start = t.stop := hlayout.shape.next_eq
  obtain ⟨-, -, hpost⟩ := Tiles.middle_iff.mp hlayout.shape.tiling
  rw [hnext, hlayout.shape.isUsed_eq ht]
  cases post with
  | nil =>
    have hstop : t.stop = s.tail cfg := hpost
    rw [hstop]
    exact .inr hlayout.shape.isUsed_tail
  | cons r rest =>
    obtain ⟨-, -, -, hpair⟩ := coalesced_middle.mp hlayout.coalesced
    rw [← hpost.1, hlayout.shape.isUsed_eq (t := r) (by simp)]
    exact hpair r rfl

section

variable (hinv : s.Inv cfg tiles)
include hinv

theorem MemheapClient.Inv.wellFormed {frees : List Nat}
    (hlayout : Layout cfg s.toRtMemheap tiles frees) :
    s.WellFormed cfg (tiles.map Tile.start) frees := by
  have hlen := twentyFour_le cfg
  have hshape := hlayout.shape
  have htiling := hshape.tiling
  refine ⟨htiling.starts_head?, hshape.blocks.ring, htiling.starts_pairwise (by omega),
    fun b hb => ?_, hshape.isUsed_tail, hshape.free, fun b => ?_, fun b hb => ?_, ?_,
    hinv.recorded, fun y hy => ?_, ?_, fun y hy b hb => ?_⟩
  · obtain ⟨t, ht, rfl⟩ := List.mem_map.mp hb
    obtain ⟨pre, post, rfl⟩ := List.append_of_mem ht
    have hnext : itemGet .next s.memory t.start = t.stop := hshape.next_eq
    rw [hnext]
    exact (hlayout.bounds ht).2.1
  · rw [hlayout.frees.mem_iff, mem_freeStarts]
    constructor
    · rintro ⟨t, ht, hfree, rfl⟩
      exact ⟨List.mem_map_of_mem ht, by rw [hshape.isUsed_eq ht, hfree]⟩
    · rintro ⟨hb, hfree⟩
      obtain ⟨t, ht, rfl⟩ := List.mem_map.mp hb
      rw [hshape.isUsed_eq ht] at hfree
      exact ⟨t, ht, hfree, rfl⟩
  · obtain ⟨t, ht, rfl⟩ := List.mem_map.mp hb
    exact hlayout.coalesced_next ht
  · rw [hlayout.available, (hlayout.frees.map _).sum_nat, freeBytes, freeStarts, List.map_map]
    refine congrArg List.sum (List.map_congr_left fun t ht => ?_)
    have hmem : t ∈ tiles := List.mem_of_mem_filter ht
    exact (hshape.memitemSize_eq hmem (hlayout.stop_lt hmem)).symm
  · obtain ⟨t, ht, hused, hptr, -, hsize⟩ := hinv.live_tile hy
    exact ⟨t.start, List.mem_map_of_mem ht, by rw [hshape.isUsed_eq ht, hused], hptr, hsize⟩
  · refine List.Pairwise.imp_of_mem (fun {y z} hy hz hne => ?_) (List.pairwise_map.mp hinv.nodup)
    obtain ⟨t, ht, -, hptr, hstop, -⟩ := hinv.live_tile hy
    obtain ⟨u, hu, -, hptr', hstop', -⟩ := hinv.live_tile hz
    rcases htiling.eq_or_apart ht hu with rfl | hbefore | hafter
    · exact absurd (hptr.trans hptr'.symm) hne
    · exact .inl (by omega)
    · exact .inr (by omega)
  · obtain ⟨t, ht, -, hptr, hstop, -⟩ := hinv.live_tile hy
    rw [List.mem_append, List.mem_map, List.mem_singleton] at hb
    rcases hb with ⟨u, hu, rfl⟩ | rfl
    · have hbu := hlayout.bounds hu
      rcases htiling.eq_or_apart ht hu with rfl | hbefore | hafter
      · exact .inr (by omega)
      · exact .inl (by omega)
      · exact .inr (by omega)
    · have hbt := htiling.bounds ht
      exact .inl (by omega)

theorem MemheapClient.Inv.alloc_isSome (size : Nat) :
    (rtMemheapAlloc cfg size s.toRtMemheap).isSome := by
  obtain ⟨frees, hlayout⟩ := hinv.layout
  rcases rtMemheapAlloc_spec hlayout hinv.recorded size with
    ⟨mem, hcall, -⟩ | ⟨_, _, _, _, _, mem, -, -, -, hcall, -⟩ <;>
  · rw [hcall]
    rfl

theorem MemheapClient.Inv.free_isSome {ptr : Nat} (hptr : ptr = 0 ∨ ptr ∈ s.live.map Live.ptr) :
    (rtMemheapFree cfg ptr s.toRtMemheap).isSome := by
  obtain ⟨frees, hlayout⟩ := hinv.layout
  rcases hptr with rfl | hlive
  · rw [rtMemheapFree, if_pos rfl]
    rfl
  · obtain ⟨x, hx, rfl⟩ := hinv.exists_tile hlive
    obtain ⟨hmem, hused⟩ := mem_usedTiles.mp hx
    obtain ⟨pre, post, rfl⟩ := List.append_of_mem hmem
    obtain ⟨_, _, hcall, -⟩ := rtMemheapFree_spec hlayout hinv.recorded hused
    rw [hcall]
    rfl

theorem MemheapClient.Inv.realloc_isSome {ptr newsize : Nat}
    (hptr : ptr = 0 ∨ ptr ∈ s.live.map Live.ptr)
    (hfit : allocatedSize cfg newsize + 12 < 2 ^ 32) :
    (rtMemheapRealloc cfg ptr newsize s.toRtMemheap).isSome := by
  obtain ⟨frees, hlayout⟩ := hinv.layout
  by_cases hzero : newsize = 0
  · rw [rtMemheapRealloc, if_pos hzero, Option.isSome_map]
    exact hinv.free_isSome hptr
  · rcases hptr with rfl | hlive
    · rw [rtMemheapRealloc_null hzero]
      exact hinv.alloc_isSome _
    · obtain ⟨x, hx, rfl⟩ := hinv.exists_tile hlive
      obtain ⟨hmem, hused⟩ := mem_usedTiles.mp hx
      obtain ⟨pre, post, rfl⟩ := List.append_of_mem hmem
      rcases rtMemheapRealloc_spec hlayout hinv.recorded hused hzero rfl hfit with
        ⟨_, hcall, -⟩ | ⟨_, _, _, hcall, -⟩ <;>
      · rw [hcall]
        rfl

theorem MemheapClient.Inv.returns {op : MemheapOp}
    (henabled : s.enabled op) : (s.exec cfg op).isSome := by
  simp only [MemheapClient.exec, henabled, if_true]
  obtain ⟨frees, hlayout⟩ := hinv.layout
  cases op with
  | alloc size =>
    rw [Option.isSome_map]
    exact hinv.alloc_isSome size
  | realloc ptr newsize =>
    obtain ⟨hptr, hsize⟩ := of_decide_eq_true henabled
    rw [Option.isSome_map]
    exact hinv.realloc_isSome hptr (hlayout.region.le_allocatedSize hsize).2
  | free ptr =>
    rw [Option.isSome_map]
    exact hinv.free_isSome (of_decide_eq_true henabled)
  | store ptr index byte => rfl

end

end WellFormed

theorem reachable_memheapWellFormed {s : MemheapClient}
    (hreach : (memheapMachine cfg).Reachable (fun _ _ => True) s) :
    (∃ blocks frees, s.WellFormed cfg blocks frees) ∧
    (∀ op s', s.exec cfg op = some s' → s.StepOk cfg op s') ∧
    (∀ op, s.enabled op → (s.exec cfg op).isSome) := by
  obtain ⟨tiles, hinv⟩ := exists_inv_of_reachable hreach
  obtain ⟨frees, hlayout⟩ := hinv.layout
  exact ⟨⟨_, _, hinv.wellFormed hlayout⟩, fun op s' hexec => (hinv.step hexec).2,
    fun op henabled => hinv.returns henabled⟩

def smallMemheapConfig : MemheapConfig := ⟨2, 20, Nat.le_add_left 2 28⟩

def memheapStart : MemheapClient where
  toRtMemheap := rtMemheapInit smallMemheapConfig 4 1000 400 fun _ => 0
  live := []
  result := 0

theorem memheapStart_initial : memheapStart.Initial smallMemheapConfig :=
  ⟨4, 1000, 400, fun _ => 0, by decide, by decide, by decide, by decide, by decide, by decide,
    by decide, by decide, rfl, rfl⟩

def memheapRun : List MemheapOp :=
  [.alloc 20, .store 1024 3 7, .alloc 30, .realloc 1024 60, .free 1068, .realloc 1124 20]

theorem reachable_memheapWellFormed_memheapRun :
    ∃ s, (memheapMachine smallMemheapConfig).Reachable (fun _ _ => True) s ∧
      s.live.length = 1 ∧
      ∃ blocks frees, s.WellFormed smallMemheapConfig blocks frees := by
  have hrun : ((memheapMachine smallMemheapConfig).run (fun _ _ => True) memheapStart
      memheapRun).map (fun s => s.live.length) = some 1 := by
    decide +kernel
  obtain ⟨s, hreach, hvalue⟩ := Machine.exists_reachable_of_run memheapStart_initial hrun
  exact ⟨s, hreach, hvalue, (reachable_memheapWellFormed hreach).1⟩

end RtThread.Memheap
