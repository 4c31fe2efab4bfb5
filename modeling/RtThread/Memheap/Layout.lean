import RtThread.Memheap.BlockImage

namespace RtThread.Memheap

open Function RtThread.Lib Items Tile

theorem twentyFour_le (cfg : MemheapConfig) : 24 ≤ cfg.memheapSize := by
  have hbits := cfg.alignBits_le
  have hpow : 2 ^ cfg.alignBits ≤ 2 ^ 30 := Nat.pow_le_pow_right (by decide) hbits
  exact le_rtAlign (by omega) (by omega)

def MemheapPool.tail (cfg : MemheapConfig) (pool : MemheapPool) : Nat :=
  pool.startAddr + pool.poolSize - cfg.memheapSize

structure Region (cfg : MemheapConfig) (pool : MemheapPool) : Prop where
  pos : 0 < pool.startAddr
  room : 2 * cfg.memheapSize ≤ pool.poolSize
  fits : pool.startAddr + pool.poolSize ≤ 2 ^ 32
  object : pool.freeList + 24 ≤ pool.startAddr ∨ pool.startAddr + pool.poolSize ≤ pool.freeList
  objectFits : pool.freeList + 24 ≤ 2 ^ 32
  below : pool.poolSize + 48 ≤ 2 ^ 32
  heap : pool.heap < 2 ^ 32
  aligned : pool.poolSize % cfg.alignSize = 0

def sitesOf (cfg : MemheapConfig) (pool : MemheapPool) (tiles : List Tile) : Set Nat :=
  fun a => a = pool.freeList ∨ a ∈ tiles.map Tile.start ++ [pool.tail cfg]

structure Shape (cfg : MemheapConfig) (pool : MemheapPool) (memory : ByteMemory)
    (tiles : List Tile) (list : List Nat) : Prop where
  tiling : Tiles cfg.memheapSize pool.startAddr tiles (pool.tail cfg)
  blocks : BlockImage pool.heap (pool.tail cfg) (itemsOf memory) tiles
  free : LinkedRing (itemsOf memory .nextFree) (itemsOf memory .prevFree) (pool.freeList :: list)
  sub : ∀ a ∈ list, a ∈ tiles.map Tile.start

def Kept (cfg : MemheapConfig) (memory memory' : ByteMemory) (tile : Tile) : Prop :=
  ∀ i, tile.start + cfg.memheapSize ≤ i → i < tile.stop → memory' i = memory i

variable {cfg : MemheapConfig} {pool : MemheapPool} {memory memory' : ByteMemory} {items : Items}
  {tiles tiles' pre post : List Tile} {list list' l1 l2 : List Nat} {x y : Tile} {mid a : Nat}

theorem Kept.refl (cfg : MemheapConfig) (memory : ByteMemory) (tile : Tile) :
    Kept cfg memory memory tile := fun _ _ _ => rfl

theorem Kept.trans {memory'' : ByteMemory} {tile : Tile} (hfirst : Kept cfg memory memory' tile)
    (hsecond : Kept cfg memory' memory'' tile) : Kept cfg memory memory'' tile := by
  intro i hlow hhigh
  rw [hsecond i hlow hhigh, hfirst i hlow hhigh]

theorem Region.tail_add (hregion : Region cfg pool) :
    pool.tail cfg + cfg.memheapSize = pool.startAddr + pool.poolSize := by
  have hroom := hregion.room
  unfold MemheapPool.tail
  omega

theorem mem_sites_start (ha : a ∈ tiles.map start ++ [pool.tail cfg]) :
    a ∈ sitesOf cfg pool tiles := Or.inr ha

theorem mem_sites_free (hsub : ∀ a ∈ list, a ∈ tiles.map start)
    (ha : a ∈ pool.freeList :: list) : a ∈ sitesOf cfg pool tiles := by
  rcases List.mem_cons.mp ha with rfl | h
  · exact .inl rfl
  · exact .inr (List.mem_append_left _ (hsub a h))

theorem Region.place (hregion : Region cfg pool)
    (htiling : Tiles cfg.memheapSize pool.startAddr tiles (pool.tail cfg))
    (ha : a ∈ tiles.map start ++ [pool.tail cfg]) :
    pool.startAddr ≤ a ∧ a + cfg.memheapSize ≤ pool.startAddr + pool.poolSize := by
  have htail := hregion.tail_add
  have hle := htiling.le
  rw [List.mem_append, List.mem_map, List.mem_singleton] at ha
  rcases ha with ⟨t, ht, rfl⟩ | rfl
  · have hbounds := htiling.bounds ht
    omega
  · omega

theorem Region.sites (hregion : Region cfg pool)
    (htiling : Tiles cfg.memheapSize pool.startAddr tiles (pool.tail cfg)) :
    Sites (sitesOf cfg pool tiles) := by
  have hlen := twentyFour_le cfg
  have hobject := hregion.object
  have hobjectFits := hregion.objectFits
  have hfits := hregion.fits
  constructor
  · intro a ha b hb hne
    rcases ha with rfl | ha <;> rcases hb with rfl | hb
    · exact absurd rfl hne
    · have hplace := hregion.place htiling hb
      omega
    · have hplace := hregion.place htiling ha
      omega
    · rw [List.mem_append, List.mem_map, List.mem_singleton] at ha hb
      rcases ha with ⟨t, ht, rfl⟩ | rfl <;> rcases hb with ⟨u, hu, rfl⟩ | rfl
      · have hbt := htiling.bounds ht
        have hbu := htiling.bounds hu
        rcases htiling.eq_or_apart ht hu with rfl | h | h
        · exact absurd rfl hne
        · omega
        · omega
      · have hbt := htiling.bounds ht
        omega
      · have hbu := htiling.bounds hu
        omega
      · exact absurd rfl hne
  · intro a ha
    rcases ha with rfl | ha
    · exact hobjectFits
    · have hplace := hregion.place htiling ha
      omega

theorem Edited.kept (hregion : Region cfg pool)
    (htiling : Tiles cfg.memheapSize pool.startAddr tiles (pool.tail cfg))
    (hedited : Edited (sitesOf cfg pool tiles) memory memory' items) (hx : x ∈ tiles) :
    Kept cfg memory memory' x := by
  intro i hlow hhigh
  refine hedited.outside i fun a ha => ?_
  have hlen := twentyFour_le cfg
  have hobject := hregion.object
  have htail := hregion.tail_add
  have hbx := htiling.bounds hx
  rcases ha with rfl | ha
  · omega
  · rw [List.mem_append, List.mem_map, List.mem_singleton] at ha
    rcases ha with ⟨t, ht, rfl⟩ | rfl
    · have hbt := htiling.bounds ht
      rcases htiling.eq_or_apart ht hx with rfl | h | h <;> omega
    · omega

theorem Shape.of_edited {sites : Set Nat} (hedited : Edited sites memory memory' items)
    (hsites : ∀ a ∈ sitesOf cfg pool tiles', a ∈ sites)
    (htiling : Tiles cfg.memheapSize pool.startAddr tiles' (pool.tail cfg))
    (hblocks : BlockImage pool.heap (pool.tail cfg) items tiles')
    (hfree : LinkedRing (items .nextFree) (items .prevFree) (pool.freeList :: list'))
    (hsub : ∀ a ∈ list', a ∈ tiles'.map start) : Shape cfg pool memory' tiles' list' := by
  refine ⟨htiling, hblocks.congr fun field _ a ha => ?_, hfree.congr (fun a ha => ?_)
    (fun a ha => ?_), hsub⟩
  · exact hedited.shows field a (hsites a (mem_sites_start ha))
  · exact hedited.shows .nextFree a (hsites a (mem_sites_free hsub ha))
  · exact hedited.shows .prevFree a (hsites a (mem_sites_free hsub ha))

theorem start_mem_middle (pre post : List Tile) (x : Tile) (tail : Nat) :
    x.start ∈ (pre ++ x :: post).map start ++ [tail] := by simp

theorem start_mem_split {stop : Nat} {used : Bool}
    (ha : a ∈ (pre ++ x :: post).map start) :
    a ∈ (pre ++ ⟨x.start, mid, used⟩ :: ⟨mid, stop, false⟩ :: post).map start := by
  rw [List.map_append, List.map_cons] at ha
  rw [List.map_append, List.map_cons, List.map_cons, List.append_cons]
  refine mem_middle_of_mem ?_
  rwa [← List.append_cons]

theorem Shape.makeItem (mid : Nat) (hregion : Region cfg pool)
    (hshape : Shape cfg pool memory (pre ++ x :: post) list)
    (hlow : x.start + cfg.memheapSize ≤ mid) (hhigh : mid + cfg.memheapSize ≤ x.stop) :
    Shape cfg pool (makeItem pool.heap x.start mid memory)
        (pre ++ ⟨x.start, mid, x.used⟩ :: ⟨mid, x.stop, false⟩ :: post) list ∧
      ∀ t ∈ pre ++ ⟨x.start, mid, x.used⟩ :: ⟨mid, x.stop, false⟩ :: post,
        Kept cfg memory (Memheap.makeItem pool.heap x.start mid memory) t := by
  have hlen := twentyFour_le cfg
  obtain ⟨hpre, -, hpost⟩ := Tiles.middle_iff.mp hshape.tiling
  have htiling : Tiles cfg.memheapSize pool.startAddr
      (pre ++ ⟨x.start, mid, x.used⟩ :: ⟨mid, x.stop, false⟩ :: post) (pool.tail cfg) :=
    Tiles.middle_iff.mpr ⟨hpre, hlow, rfl, hhigh, hpost⟩
  have hsites := hregion.sites htiling
  have hsub : ∀ a ∈ (pre ++ x :: post).map start ++ [pool.tail cfg],
      a ∈ (pre ++ ⟨x.start, mid, x.used⟩ :: ⟨mid, x.stop, false⟩ :: post).map start ++
        [pool.tail cfg] := by
    intro a ha
    rcases List.mem_append.mp ha with h | h
    · exact List.mem_append_left _ (start_mem_split h)
    · exact List.mem_append_right _ h
  have hfresh : mid ∉ (pre ++ x :: post).map start ++ [pool.tail cfg] := by
    intro hmem
    rw [List.mem_append, List.mem_map, List.mem_singleton] at hmem
    have hx := hshape.tiling.bounds (show x ∈ pre ++ x :: post by simp)
    rcases hmem with ⟨t, ht, heq⟩ | heq
    · have hbt := hshape.tiling.bounds ht
      rcases hshape.tiling.eq_or_apart ht (show x ∈ pre ++ x :: post by simp) with rfl | h | h <;> omega
    · omega
  have hmid : mid ∈ sitesOf cfg pool
      (pre ++ ⟨x.start, mid, x.used⟩ :: ⟨mid, x.stop, false⟩ :: post) :=
    mem_sites_start (by simp)
  have hnext : itemsOf memory .next x.start ∈ (pre ++ x :: post).map start ++ [pool.tail cfg] :=
    hshape.blocks.ring.next_mem (start_mem_middle ..)
  have hedited := (Edited.refl _ memory).makeItem hsites (mem_sites_start (hsub _ (start_mem_middle ..)))
    hmid (mem_sites_start (hsub _ hnext)) hregion.heap (by omega : x.start ≠ mid)
  refine ⟨.of_edited hedited (fun _ h => h) htiling (hshape.blocks.split hfresh) ?_ fun a ha => ?_,
    fun t ht => hedited.kept hregion htiling ht⟩
  · rw [makeItem_free (by decide), makeItem_free (by decide)]
    exact hshape.free
  · exact start_mem_split (hshape.sub a ha)

theorem Shape.not_mem_inside (mid : Nat) (hshape : Shape cfg pool memory (pre ++ x :: post) list)
    (hlow : x.start < mid) (hhigh : mid < x.stop) : mid ∉ list := by
  intro hmem
  obtain ⟨t, ht, hstart⟩ := List.mem_map.mp (hshape.sub mid hmem)
  have hbt := hshape.tiling.bounds ht
  have hlen := twentyFour_le cfg
  rcases hshape.tiling.eq_or_apart ht (show x ∈ pre ++ x :: post by simp) with rfl | h | h <;> omega

theorem mem_list_start (hsub : ∀ b ∈ l1 ++ a :: l2, b ∈ tiles.map start) :
    ∀ b ∈ l1 ++ l2, b ∈ tiles.map start := by
  intro b hb
  exact hsub b (mem_middle_of_mem hb)

section

variable (hregion : Region cfg pool)
include hregion

theorem Shape.freeRemove (hshape : Shape cfg pool memory tiles (l1 ++ a :: l2)) :
    Shape cfg pool (freeRemove a memory) tiles (l1 ++ l2) ∧
      ∀ t ∈ tiles, Kept cfg memory (Memheap.freeRemove a memory) t := by
  have hsites := hregion.sites hshape.tiling
  have hin : ∀ b ∈ pool.freeList :: (l1 ++ a :: l2), b ∈ sitesOf cfg pool tiles :=
    fun b hb => mem_sites_free hshape.sub hb
  have ha : a ∈ pool.freeList :: (l1 ++ a :: l2) := by simp
  have hprev := hshape.free.prev_tail_mem
  have hne := hshape.free.next_tail_ne
  have hedited := (Edited.refl _ memory).freeRemove hsites (hin a ha)
    (hin _ (hshape.free.next_mem ha)) (hin _ hprev) hne
  refine ⟨.of_edited hedited (fun _ h => h) hshape.tiling ?_ ?_ (mem_list_start hshape.sub),
    fun t ht => hedited.kept hregion hshape.tiling ht⟩
  · exact hshape.blocks.congr fun field hfield b _ => by rw [freeRemove_blocks hfield]
  · rw [freeRemove_nextFree hne, freeRemove_prevFree]
    exact hshape.free.remove_tail

theorem Shape.forget (hshape : Shape cfg pool memory tiles list)
    (hstart : a ∈ tiles.map start) (hout : a ∉ pool.freeList :: list) :
    Shape cfg pool (itemSet .prevFree a 0 (itemSet .nextFree a 0 memory)) tiles list ∧
      ∀ t ∈ tiles, Kept cfg memory (itemSet .prevFree a 0 (itemSet .nextFree a 0 memory)) t := by
  have hsites := hregion.sites hshape.tiling
  have ha : a ∈ sitesOf cfg pool tiles := mem_sites_start (List.mem_append_left _ hstart)
  have hedited := ((Edited.refl _ memory).itemSet .nextFree hsites ha (Nat.two_pow_pos 32)).itemSet
    .prevFree hsites ha (Nat.two_pow_pos 32)
  refine ⟨.of_edited hedited (fun _ h => h) hshape.tiling ?_ ?_ hshape.sub,
    fun t ht => hedited.kept hregion hshape.tiling ht⟩
  · refine hshape.blocks.congr fun field hfield b _ => ?_
    rw [set_other hfield.2, set_other hfield.1]
  · have hne : ∀ b ∈ pool.freeList :: list, b ≠ a := fun b hb heq => hout (heq ▸ hb)
    refine hshape.free.congr (fun b hb => ?_) (fun b hb => ?_)
    · rw [set_other (by decide), set_same, update_of_ne (hne b hb)]
    · rw [set_same, update_of_ne (hne b hb), set_other (by decide)]

theorem Shape.freeUnlink (hshape : Shape cfg pool memory tiles (l1 ++ a :: l2)) :
    Shape cfg pool (freeUnlink a memory) tiles (l1 ++ l2) ∧
      ∀ t ∈ tiles, Kept cfg memory (Memheap.freeUnlink a memory) t := by
  obtain ⟨hremoved, hkept⟩ := hshape.freeRemove hregion
  have hout : a ∉ pool.freeList :: (l1 ++ l2) := by
    have hnodup : ((pool.freeList :: l1) ++ a :: l2).Nodup := hshape.free.1
    exact (List.nodup_cons.mp (List.nodup_middle.mp hnodup)).1
  obtain ⟨hforgot, hkept'⟩ := hremoved.forget hregion (hshape.sub a (by simp)) hout
  exact ⟨hforgot, fun t ht => (hkept t ht).trans (hkept' t ht)⟩

theorem Shape.freeInsert (hshape : Shape cfg pool memory tiles list)
    (hstart : a ∈ tiles.map start) (hout : a ∉ list) :
    Shape cfg pool (freeInsert pool.freeList a memory) tiles (a :: list) ∧
      ∀ t ∈ tiles, Kept cfg memory (Memheap.freeInsert pool.freeList a memory) t := by
  have hsites := hregion.sites hshape.tiling
  have ha : a ∈ sitesOf cfg pool tiles := mem_sites_start (List.mem_append_left _ hstart)
  have hne : pool.freeList ≠ a := by
    have hplace := hregion.place hshape.tiling (List.mem_append_left _ hstart)
    have hobject := hregion.object
    have hlen := twentyFour_le cfg
    omega
  have hfresh : a ∉ pool.freeList :: list := by
    rw [List.mem_cons, not_or]
    exact ⟨hne.symm, hout⟩
  have hnext : itemsOf memory .nextFree pool.freeList ∈ sitesOf cfg pool tiles :=
    mem_sites_free hshape.sub (hshape.free.next_mem List.mem_cons_self)
  have hedited := (Edited.refl _ memory).freeInsert hsites (.inl rfl) ha hnext hne
  refine ⟨.of_edited hedited (fun _ h => h) hshape.tiling ?_ ?_ fun b hb => ?_,
    fun t ht => hedited.kept hregion hshape.tiling ht⟩
  · exact hshape.blocks.congr fun field hfield b _ => by rw [freeInsert_blocks hfield]
  · rw [freeInsert_nextFree, freeInsert_prevFree hne]
    have hring : LinkedRing (itemsOf memory .nextFree) (itemsOf memory .prevFree)
        ([] ++ pool.freeList :: list) := hshape.free
    exact hring.insert hfresh
  · rcases List.mem_cons.mp hb with rfl | h
    · exact hstart
    · exact hshape.sub b h

theorem Shape.mark (hshape : Shape cfg pool memory (pre ++ x :: post) list) (used : Bool) :
    Shape cfg pool (itemSet .magic x.start (itemMagic used) memory)
        (pre ++ ⟨x.start, x.stop, used⟩ :: post) list ∧
      ∀ t ∈ pre ++ x :: post,
        Kept cfg memory (itemSet .magic x.start (itemMagic used) memory) t := by
  have hsites := hregion.sites hshape.tiling
  have hsame : (pre ++ ⟨x.start, x.stop, used⟩ :: post).map start =
      (pre ++ x :: post).map start := by simp
  have htiling : Tiles cfg.memheapSize pool.startAddr (pre ++ ⟨x.start, x.stop, used⟩ :: post)
      (pool.tail cfg) := by
    obtain ⟨hpre, hlen, hpost⟩ := Tiles.middle_iff.mp hshape.tiling
    exact Tiles.middle_iff.mpr ⟨hpre, hlen, hpost⟩
  have hvalue : itemMagic used < 2 ^ 32 := by cases used <;> decide
  have hedited := (Edited.refl _ memory).itemSet .magic hsites
    (mem_sites_start (start_mem_middle ..)) hvalue
  refine ⟨.of_edited hedited (fun b hb => ?_) htiling (hshape.blocks.mark used) ?_ fun b hb => ?_,
    fun t ht => hedited.kept hregion hshape.tiling ht⟩
  · unfold sitesOf at hb ⊢
    rwa [hsame] at hb
  · rw [set_other (by decide), set_other (by decide)]
    exact hshape.free
  · rw [hsame]
    exact hshape.sub b hb

end

theorem tiles_merge (htiling : Tiles cfg.memheapSize a (pre ++ x :: y :: post) mid) :
    Tiles cfg.memheapSize a (pre ++ ⟨x.start, y.stop, x.used⟩ :: post) mid := by
  obtain ⟨hpre, hx, hstart, hy, hpost⟩ := Tiles.middle_iff.mp htiling
  exact Tiles.middle_iff.mpr ⟨hpre, by dsimp only; omega, hpost⟩

theorem start_mem_merge {stop : Nat} {used : Bool} :
    a ∈ (pre ++ x :: y :: post).map start ↔
      a ∈ (pre ++ ⟨x.start, stop, used⟩ :: post).map start ∨ a = y.start := by
  simp only [List.map_append, List.map_cons, List.mem_append, List.mem_cons]
  tauto

theorem sites_merge (ha : a ∈ sitesOf cfg pool (pre ++ ⟨x.start, y.stop, x.used⟩ :: post)) :
    a ∈ sitesOf cfg pool (pre ++ x :: y :: post) := by
  rcases ha with h | h
  · exact .inl h
  · refine .inr ?_
    rcases List.mem_append.mp h with h | h
    · exact List.mem_append_left _ (start_mem_merge.mpr (.inl h))
    · exact List.mem_append_right _ h

theorem Shape.next_eq (hshape : Shape cfg pool memory (pre ++ x :: post) list) :
    itemGet .next memory x.start = x.stop := hshape.blocks.next_eq hshape.tiling

theorem Shape.merge_of_edited (hregion : Region cfg pool)
    (hshape : Shape cfg pool memory (pre ++ x :: y :: post) list)
    (hedited : Edited (sitesOf cfg pool (pre ++ x :: y :: post)) memory memory' items)
    (hnext : items .next = update (itemsOf memory .next) x.start y.stop)
    (hprev : items .prev = update (itemsOf memory .prev) y.stop x.start)
    (hmagic : items .magic = itemsOf memory .magic) (hpool : items .poolPtr = itemsOf memory .poolPtr)
    (hfree : LinkedRing (items .nextFree) (items .prevFree) (pool.freeList :: list'))
    (hsub : ∀ b ∈ list', b ∈ list ∧ b ≠ y.start) :
    Shape cfg pool memory' (pre ++ ⟨x.start, y.stop, x.used⟩ :: post) list' ∧
      ∀ t ∈ pre ++ x :: y :: post, Kept cfg memory memory' t := by
  have hstop : itemsOf memory .next y.start = y.stop := by
    have h : Shape cfg pool memory ((pre ++ [x]) ++ y :: post) list := by
      rwa [List.append_assoc]
    exact h.next_eq
  refine ⟨.of_edited hedited (fun _ => sites_merge) (tiles_merge hshape.tiling)
    (hshape.blocks.merge ?_ ?_ hmagic hpool) hfree fun b hb => ?_,
    fun t ht => hedited.kept hregion hshape.tiling ht⟩
  · rw [hstop, hnext]
  · rw [hstop, hprev]
  · obtain ⟨hin, hne⟩ := hsub b hb
    exact (start_mem_merge.mp (hshape.sub b hin)).resolve_right hne

theorem Shape.merge_sites (hshape : Shape cfg pool memory (pre ++ x :: y :: post) list) :
    x.start ∈ sitesOf cfg pool (pre ++ x :: y :: post) ∧
      y.start ∈ sitesOf cfg pool (pre ++ x :: y :: post) ∧
      y.stop ∈ sitesOf cfg pool (pre ++ x :: y :: post) ∧
      itemGet .next memory x.start = y.start ∧ itemGet .next memory y.start = y.stop ∧
      itemGet .prev memory y.start = x.start ∧ x.start ≠ y.start ∧ y.stop ≠ y.start := by
  have hlen := twentyFour_le cfg
  obtain ⟨-, hx, hstart, hy, -⟩ := Tiles.middle_iff.mp hshape.tiling
  have h : Shape cfg pool memory ((pre ++ [x]) ++ y :: post) list := by
    rwa [List.append_assoc]
  have hmem : y.start ∈ (pre ++ x :: y :: post).map start ++ [pool.tail cfg] := by simp
  have hstop := h.next_eq
  have hnext := hshape.blocks.ring.next_mem hmem
  have hnext' : itemsOf memory .next y.start = y.stop := hstop
  rw [hnext'] at hnext
  refine ⟨mem_sites_start (by simp), mem_sites_start hmem, mem_sites_start hnext, ?_, hstop,
    hshape.blocks.prev_eq, by omega, by omega⟩
  rw [hshape.next_eq, hstart]

theorem Shape.absorbNext (hregion : Region cfg pool)
    (hshape : Shape cfg pool memory (pre ++ x :: y :: post) (l1 ++ y.start :: l2)) :
    Shape cfg pool (absorbNext x.start memory) (pre ++ ⟨x.start, y.stop, x.used⟩ :: post)
        (l1 ++ l2) ∧
      ∀ t ∈ pre ++ x :: y :: post, Kept cfg memory (Memheap.absorbNext x.start memory) t := by
  have hsites := hregion.sites hshape.tiling
  obtain ⟨hx, hy, hstop, hxnext, hynext, -, hxy, hyne⟩ := hshape.merge_sites
  have hin : ∀ b ∈ pool.freeList :: (l1 ++ y.start :: l2),
      b ∈ sitesOf cfg pool (pre ++ x :: y :: post) := fun b hb => mem_sites_free hshape.sub hb
  have hmem : y.start ∈ pool.freeList :: (l1 ++ y.start :: l2) := by simp
  have hprev := hshape.free.prev_tail_mem
  have hne := hshape.free.next_tail_ne
  have h1 := (Edited.refl _ memory).itemSet .prev hsites hstop (hsites.lt hx)
  have hread := h1.shows .next y.start hy
  rw [set_other (by decide)] at hread
  have h2 := h1.itemSet .next hsites hx (hsites.lt hstop)
  have hsame : ∀ field, ¬ Blocks field → (((itemsOf memory).set .prev y.stop x.start).set
      .next x.start y.stop) field = itemsOf memory field := by
    intro field hfield
    cases field <;> first | exact absurd (by decide) hfield | rfl
  have h3 := h2.freeRemove hsites hy (by rw [hsame _ (by decide)]; exact hin _ (hshape.free.next_mem hmem))
    (by rw [hsame _ (by decide)]; exact hin _ hprev) (by rw [hsame _ (by decide)]; exact hne)
  have heq : Memheap.absorbNext x.start memory = Memheap.freeRemove y.start
      (itemSet .next x.start y.stop (itemSet .prev y.stop x.start memory)) := by
    unfold Memheap.absorbNext
    dsimp only
    rw [hxnext, hynext, hread]
    exact congrArg (fun n => Memheap.freeRemove y.start (itemSet .next x.start n
      (itemSet .prev y.stop x.start memory))) hynext
  rw [heq]
  refine hshape.merge_of_edited hregion h3 ?_ ?_ ?_ ?_ ?_ fun b hb => ⟨?_, ?_⟩
  · rw [freeRemove_blocks (by decide), set_same, set_other (by decide)]
  · rw [freeRemove_blocks (by decide), set_other (by decide), set_same]
  · rw [freeRemove_blocks (by decide), set_other (by decide), set_other (by decide)]
  · rw [freeRemove_blocks (by decide), set_other (by decide), set_other (by decide)]
  · rw [freeRemove_nextFree (by rw [hsame _ (by decide)]; exact hne),
      freeRemove_prevFree, hsame _ (by decide), hsame _ (by decide)]
    exact hshape.free.remove_tail
  · exact mem_middle_of_mem hb
  · have hnodup : ((pool.freeList :: l1) ++ y.start :: l2).Nodup := hshape.free.1
    have hout := (List.nodup_cons.mp (List.nodup_middle.mp hnodup)).1
    rintro rfl
    exact hout (List.mem_cons_of_mem _ hb)

theorem Shape.dropBlock (hregion : Region cfg pool)
    (hshape : Shape cfg pool memory (pre ++ x :: y :: post) list) (hout : y.start ∉ list) :
    Shape cfg pool (dropBlock y.start memory) (pre ++ ⟨x.start, y.stop, x.used⟩ :: post) list ∧
      ∀ t ∈ pre ++ x :: y :: post, Kept cfg memory (Memheap.dropBlock y.start memory) t := by
  have hsites := hregion.sites hshape.tiling
  obtain ⟨hx, hy, hstop, -, hynext, hyprev, -, hyne⟩ := hshape.merge_sites
  have h1 := (Edited.refl _ memory).itemSet .prev hsites hstop (hsites.lt hx)
  have hnext := h1.shows .next y.start hy
  have hprev := h1.shows .prev y.start hy
  have hynext' : itemsOf memory .next y.start = y.stop := hynext
  have hyprev' : itemsOf memory .prev y.start = x.start := hyprev
  rw [set_other (by decide), hynext'] at hnext
  rw [set_same, update_of_ne hyne.symm, hyprev'] at hprev
  have heq : Memheap.dropBlock y.start memory =
      itemSet .next x.start y.stop (itemSet .prev y.stop x.start memory) := by
    unfold Memheap.dropBlock
    dsimp only
    rw [hynext, hyprev, hnext, hprev]
  rw [heq]
  refine hshape.merge_of_edited hregion (h1.itemSet .next hsites hx (hsites.lt hstop)) ?_ ?_ ?_ ?_ ?_
    fun b hb => ⟨hb, fun h => hout (h ▸ hb)⟩
  · rw [set_same, set_other (by decide)]
  · rw [set_other (by decide), set_same]
  · rw [set_other (by decide), set_other (by decide)]
  · rw [set_other (by decide), set_other (by decide)]
  · exact hshape.free

theorem Shape.joinPrev (hregion : Region cfg pool)
    (hshape : Shape cfg pool memory (pre ++ x :: y :: post) list) (hout : y.start ∉ list) :
    (Shape cfg pool (joinPrev y.start memory) (pre ++ ⟨x.start, y.stop, x.used⟩ :: post) list ∧
      ∀ t ∈ pre ++ x :: y :: post, Kept cfg memory (Memheap.joinPrev y.start memory) t) ∧
      itemGet .prev (Memheap.joinPrev y.start memory) y.start = x.start := by
  have hsites := hregion.sites hshape.tiling
  obtain ⟨hx, hy, hstop, -, hynext, hyprev, hxy, hyne⟩ := hshape.merge_sites
  have h1 := (Edited.refl _ memory).itemSet .next hsites hx (hsites.lt hstop)
  have hnext := h1.shows .next y.start hy
  have hprev := h1.shows .prev y.start hy
  have hynext' : itemsOf memory .next y.start = y.stop := hynext
  have hyprev' : itemsOf memory .prev y.start = x.start := hyprev
  rw [set_same, update_of_ne hxy.symm, hynext'] at hnext
  rw [set_other (by decide), hyprev'] at hprev
  have heq : Memheap.joinPrev y.start memory =
      itemSet .prev y.stop x.start (itemSet .next x.start y.stop memory) := by
    unfold Memheap.joinPrev
    dsimp only
    rw [hynext, hyprev, hnext, hprev]
  have h2 := h1.itemSet .prev hsites hstop (hsites.lt hx)
  rw [heq]
  constructor
  · refine hshape.merge_of_edited hregion h2 ?_ ?_ ?_ ?_ ?_ fun b hb => ⟨hb, fun h => hout (h ▸ hb)⟩
    · rw [set_other (by decide), set_same]
    · rw [set_same, set_other (by decide)]
    · rw [set_other (by decide), set_other (by decide)]
    · rw [set_other (by decide), set_other (by decide)]
    · exact hshape.free
  · rw [h2.shows .prev y.start hy, set_same, update_of_ne hyne.symm, set_other (by decide), hyprev']

end RtThread.Memheap
