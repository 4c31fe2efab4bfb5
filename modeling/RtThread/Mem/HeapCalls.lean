import RtThread.Mem.HeapSteps

namespace RtThread.Mem

open RtThread.Lib SmallMem

variable {cfg : MemConfig} {s : SmallMem} {tiles pre post : List Tile} {x : Tile}

def others (x : Tile) (tiles : List Tile) : List Tile := (usedTiles tiles).filter (· ≠ x)

theorem mem_others {t : Tile} : t ∈ others x tiles ↔ t ∈ usedTiles tiles ∧ t ≠ x := by
  simp [others]

def SmallMem.payload (cfg : MemConfig) (s : SmallMem) (tile : Tile) : Nat :=
  s.heapPtr + tile.start + cfg.sizeofStructMem

theorem Layout.start_add_lt (hlayout : Layout cfg s tiles) (hmem : x ∈ tiles) :
    x.start + cfg.sizeofStructMem ≤ x.stop ∧ x.stop ≤ s.heapEnd ∧ s.heapEnd < 2 ^ 32 := by
  have hbounds := hlayout.image.tiling.bounds hmem
  exact ⟨hbounds.2.1, hbounds.2.2, hlayout.image.small⟩

theorem Layout.aligned_room (hlayout : Layout cfg s tiles) :
    s.memSizeAligned + cfg.alignSize ≤ 2 ^ 32 := by
  have hfits := hlayout.fits
  have hend := hlayout.heapEnd
  exact add_two_pow_le hlayout.sizeAligned (by omega) cfg.alignBits_le_word

theorem Layout.setHeap (hlayout : Layout cfg s tiles) {heap : ByteMemory}
    (himage : Image cfg heap s.heapEnd tiles) : Layout cfg { s with heap := heap } tiles :=
  ⟨himage, hlayout.coalesced, hlayout.lfree, hlayout.usedMem, hlayout.heapEnd,
    hlayout.sizeAligned, hlayout.base, hlayout.fits⟩

/-- How many bytes `rt_malloc` looks for. -/
def MemConfig.needed (cfg : MemConfig) (size : Nat) : Nat :=
  max (rtAlign size cfg.alignSize) cfg.minSizeAligned

theorem MemConfig.needed_mod (cfg : MemConfig) (size : Nat) :
    cfg.needed size % cfg.alignSize = 0 := by
  rcases Nat.le_total (rtAlign size cfg.alignSize) cfg.minSizeAligned with hle | hle
  · rw [needed, Nat.max_eq_right hle]
    exact cfg.minSizeAligned_mod
  · rw [needed, Nat.max_eq_left hle]
    exact rtAlign_mod _ cfg.alignBits_le_word

theorem rtMalloc_eq {size : Nat} (hpos : size ≠ 0)
    (hle : rtAlign size cfg.alignSize ≤ s.memSizeAligned) (self : List UInt8) :
    rtMalloc cfg self size s = mallocLoop cfg self (cfg.needed size) s (s.heapEnd + 1) s.lfree := by
  have hneeded : (if rtAlign size cfg.alignSize < cfg.minSizeAligned then cfg.minSizeAligned
      else rtAlign size cfg.alignSize) = cfg.needed size := by
    rw [MemConfig.needed]
    split <;> omega
  rw [rtMalloc, if_neg hpos]
  simp only
  rw [if_neg (Nat.not_lt_of_le hle), hneeded]

theorem Layout.lfree_row (hlayout : Layout cfg s tiles) : ∃ before rest,
    tiles = before ++ rest ∧ Tiles cfg.sizeofStructMem 0 before s.lfree ∧
      Tiles cfg.sizeofStructMem s.lfree rest s.heapEnd := by
  rcases hlayout.lfree with hend | ⟨t, hmem, ht, -⟩
  · exact ⟨tiles, [], by simp, hend ▸ hlayout.image.tiling, hend⟩
  · obtain ⟨before, after, rfl⟩ := List.append_of_mem hmem
    obtain ⟨hbefore, hfit, hafter⟩ := Tiles.middle_iff.mp hlayout.image.tiling
    exact ⟨before, t :: after, rfl, ht ▸ hbefore, ht, ht ▸ hfit, hafter⟩

theorem MemConfig.minSizeAligned_le (cfg : MemConfig) :
    cfg.minSizeAligned ≤ 2 ^ 30 ∧ cfg.sizeofStructMem ≤ 2 ^ 30 := by
  have hdvd : (2 : Nat) ^ 30 % 2 ^ cfg.alignBits = 0 :=
    Nat.mod_eq_zero_of_dvd (Nat.pow_dvd_pow 2 cfg.alignBits_le)
  have hfit : 2 ^ 30 + 2 ^ cfg.alignBits ≤ 2 ^ 32 := by
    have hle := cfg.alignSize_le
    rw [alignSize] at hle
    omega
  refine ⟨rtAlign_le cfg.alignBits_le_word (by decide) hdvd hfit,
    rtAlign_le cfg.alignBits_le_word ?_ hdvd hfit⟩
  rw [sizeofHeapMem]
  split <;> decide

/-- The loop of `rt_malloc` takes the first block it looks for, if there is one; in a heap
smaller than the smallest block it does not end. -/
theorem rtMalloc_searches (hlayout : Layout cfg s tiles) {size : Nat} (hpos : size ≠ 0)
    (hle : rtAlign size cfg.alignSize ≤ s.memSizeAligned) (self : List UInt8) :
    (rtMalloc cfg self size s = none ∧ s.memSizeAligned < cfg.minSizeAligned) ∨
      cfg.minSizeAligned ≤ s.memSizeAligned ∧
        (rtMalloc cfg self size s = some (0, s) ∧
            (∀ t ∈ tiles, s.lfree ≤ t.start → ¬ Searched cfg s (cfg.needed size) t) ∨
          ∃ before x after, tiles = before ++ x :: after ∧ s.lfree ≤ x.start ∧
            Searched cfg s (cfg.needed size) x ∧
            rtMalloc cfg self size s = mallocFound cfg self (cfg.needed size) x.start s) := by
  have hlen := cfg.twelve_le
  have hsmall := hlayout.image.small
  rw [rtMalloc_eq hpos hle]
  obtain ⟨before, rest, rfl, hbefore, hrest⟩ := hlayout.lfree_row
  by_cases hmin : cfg.minSizeAligned ≤ s.memSizeAligned
  · have hneeded : cfg.needed size ≤ s.memSizeAligned := Nat.max_le.mpr ⟨hle, hmin⟩
    have hcount := hrest.length_le (by omega)
    refine .inr ⟨hmin, ?_⟩
    have hfuel : rest.length < s.heapEnd + 1 := by omega
    rcases @mallocLoop_spec cfg s before rest self _ _ _ hlayout.image hlayout.heapEnd hneeded
      hrest hfuel with ⟨hnull, hnone⟩ | ⟨left, x, right, hsplit, hx, hfound⟩
    · refine .inl ⟨hnull, fun t ht hat => ?_⟩
      rcases List.mem_append.mp ht with hin | hin
      · have hbounds := hbefore.bounds hin
        omega
      · exact hnone t hin
    · exact .inr ⟨left, x, right, hsplit, (hrest.bounds hx).1, hfound.1, hfound.2⟩
  · have hlimit := cfg.minSizeAligned_le
    have hneeded : cfg.needed size = cfg.minSizeAligned := Nat.max_eq_right (by omega)
    refine .inl ⟨?_, by omega⟩
    rw [hneeded]
    exact mallocLoop_wraps hlayout.image hlayout.heapEnd (by omega) (by omega) hrest _

/-- `rt_malloc` returns `NULL` and changes nothing, or a block that was not in use.
Only a heap smaller than the smallest block makes it loop. -/
theorem rtMalloc_spec (hlayout : Layout cfg s tiles) {size : Nat}
    (hsize : size ≤ s.memSizeAligned) (self : List UInt8) :
    (rtMalloc cfg self size s = none ∧ s.memSizeAligned < cfg.minSizeAligned) ∨
      rtMalloc cfg self size s = some (0, s) ∨
      ∃ s' tiles' tile, rtMalloc cfg self size s = some (s.payload cfg tile, s') ∧
        Outcome cfg s s' (usedTiles tiles) tiles' ∧ tile ∈ usedTiles tiles' ∧
        (∀ t ∈ usedTiles tiles, t.start ≠ tile.start) ∧
        size ≤ tile.stop - (tile.start + cfg.sizeofStructMem) ∧
        cfg.minSizeAligned ≤ s.memSizeAligned ∧
        (UnusedFrom s.lfree tiles → UnusedFrom s'.lfree tiles') := by
  have hroom := hlayout.aligned_room
  have hle : rtAlign size cfg.alignSize ≤ s.memSizeAligned :=
    rtAlign_le cfg.alignBits_le_word hsize hlayout.sizeAligned hroom
  have hge : size ≤ rtAlign size cfg.alignSize := le_rtAlign cfg.alignBits_le_word (by
    rw [MemConfig.alignSize] at hroom
    omega)
  by_cases hzero : size = 0
  · exact .inr (.inl (by rw [rtMalloc, if_pos hzero]))
  rcases rtMalloc_searches hlayout hzero hle self with
    hnone | ⟨hmin, ⟨hnull, -⟩ | ⟨left, y, right, rfl, -, ⟨hunused, hfits, -⟩, hfound⟩⟩
  · exact .inl hnone
  · exact .inr (.inl hnull)
  · have hneeded : rtAlign size cfg.alignSize ≤ cfg.needed size := Nat.le_max_left ..
    obtain ⟨s', tiles', tile, hrun, houtcome, htile, hstart, hsizeTile, hfrom⟩ :=
      mallocFound_spec hlayout hunused (cfg.needed_mod size) (by omega) self
    refine .inr (.inr ⟨s', tiles', tile, ?_, houtcome, htile, ?_, by omega, hmin, hfrom⟩)
    · rw [hfound, hrun, payload, hstart]
    · rw [hstart]
      exact hlayout.image.start_ne (by simp) hunused

theorem rtFree_spec (hlayout : Layout cfg s tiles) (hx : x ∈ usedTiles tiles)
    (hpos : x.start + cfg.sizeofStructMem < x.stop) :
    ∃ s' tiles', rtFree cfg (s.payload cfg x) s = some s' ∧
      Outcome cfg s s' (others x tiles) tiles' ∧
      (∀ t ∈ usedTiles tiles', t.start ≠ x.start) ∧
      (UnusedFrom s.lfree tiles → UnusedFrom s'.lfree tiles') := by
  have hlen := cfg.twelve_le
  obtain ⟨hmem, hused⟩ := mem_usedTiles.mp hx
  obtain ⟨hfit, hle, hsmall⟩ := hlayout.start_add_lt hmem
  obtain ⟨pre, post, rfl⟩ := List.append_of_mem hmem
  have himage := hlayout.image
  obtain ⟨hcpre, hcpost, -, -⟩ := coalesced_middle.mp hlayout.coalesced
  have hheader := himage.header
  -- the header of the block once it is free
  have hfreed : headerOf (rtMemSetname cfg x.start [32, 32, 32, 32]
      (setMagic (setUsed s.heap x.start 0) x.start heapMagic)) x.start =
      ⟨heapMagic, (false : Bool).toNat, x.stop, lastStart 0 pre⟩ := by
    rw [headerOf_rtMemSetname, headerOf_setMagic (by decide), headerOf_setUsed (by decide), hheader]
    rfl
  have hsame : ∀ i, (i < x.start ∨ x.start + cfg.sizeofStructMem ≤ i) →
      rtMemSetname cfg x.start [32, 32, 32, 32]
        (setMagic (setUsed s.heap x.start 0) x.start heapMagic) i = s.heap i := by
    intro i hi
    rw [rtMemSetname_outside (by omega), setMagic_outside (by omega), setUsed_outside (by omega)]
  generalize hheap : rtMemSetname cfg x.start [32, 32, 32, 32]
      (setMagic (setUsed s.heap x.start 0) x.start heapMagic) = heap at hfreed hsame
  obtain ⟨hmark, hkept⟩ := himage.mark hfreed hsame
  have hnext : nextOf heap x.start = x.stop := congrArg Header.next hfreed
  have hlfree : LfreeOk (if x.start < s.lfree then x.start else s.lfree) s.heapEnd
      (pre ++ ⟨x.start, x.stop, false⟩ :: post) := by
    split
    · exact .inr ⟨_, List.mem_append_right pre List.mem_cons_self, rfl, rfl⟩
    · rcases hlayout.lfree with hend | ⟨t, ht, hstart, hunused⟩
      · exact .inl hend
      · refine .inr ⟨t, ?_, hstart, hunused⟩
        rw [List.mem_append, List.mem_cons] at ht ⊢
        rcases ht with hin | rfl | hin
        · exact .inl hin
        · rw [hused] at hunused
          cases hunused
        · exact .inr (.inr hin)
  obtain ⟨heap', lfree, tiles', hplug, himage', hlfree', hcoalesced, hsameUsed, hkept', hfrom⟩ :=
    plugHoles_spec
      (s := { s with
        heap := heap
        lfree := if x.start < s.lfree then x.start else s.lfree
        usedMem := sub32 s.usedMem (sub32 (nextOf heap x.start) x.start) })
      (m := ⟨x.start, x.stop, false⟩) hmark rfl hcpre hcpost hlfree
  have hmemEq : s.payload cfg x - cfg.sizeofStructMem - s.heapPtr = x.start := by
    rw [payload]
    omega
  have haddr : s.payload cfg x % cfg.alignSize = 0 := by
    rw [payload, Nat.add_mod, cfg.sizeofStructMem_mod, Nat.add_mod s.heapPtr,
      hlayout.base, himage.start_mod]
    simp
  have husedBytes : s.usedMem = usedBytes (pre ++ post) + (x.stop - x.start) := by
    rw [hlayout.usedMem, usedBytes_append, usedBytes_cons, usedBytes_append, hused, if_pos rfl]
    omega
  refine ⟨{ s with
      heap := heap'
      lfree := lfree
      usedMem := sub32 s.usedMem (sub32 (nextOf heap x.start) x.start) }, tiles', ?_, ?_, ?_,
      fun hold => hfrom ?_ (.inl ?_)⟩
  · rw [rtFree, if_neg (by rw [payload]; omega)]
    simp only [hmemEq, hheap]
    rw [if_pos, hplug]
    refine ⟨and_alignSize haddr, ?_, ?_, ?_, himage.magicOf_eq⟩
    · rw [payload]
      omega
    · rw [payload]
      omega
    · rw [himage.usedOf_eq, hused]
      decide
  · refine ⟨⟨himage', hcoalesced, hlfree', ?_, hlayout.heapEnd, hlayout.sizeAligned,
      hlayout.base, hlayout.fits⟩, rfl, rfl, ?_⟩
    · show sub32 s.usedMem (sub32 (nextOf heap x.start) x.start) = usedBytes tiles'
      have htotal := usedBytes_le himage.tiling
      rw [← hlayout.usedMem] at htotal
      have hlength : sub32 (nextOf heap x.start) x.start = x.stop - x.start := by
        rw [hnext, sub32_eq (by omega) (by omega)]
      rw [usedBytes_congr hsameUsed, hlength, sub32_eq (by omega) (by omega)]
      omega
    · intro t ht
      obtain ⟨hin, hne⟩ := mem_others.mp ht
      obtain ⟨hin, htused⟩ := mem_usedTiles.mp hin
      have hrest : t ∈ pre ++ post := by
        rw [List.mem_append, List.mem_cons] at hin
        rw [List.mem_append]
        rcases hin with hin | rfl | hin
        · exact .inl hin
        · exact absurd rfl hne
        · exact .inr hin
      have hfilter := mem_usedTiles.mpr ⟨hrest, htused⟩
      rw [← hsameUsed] at hfilter
      exact ⟨(mem_usedTiles.mp hfilter).1, (hkept t hin).trans (hkept' t hrest htused)⟩
  · intro t ht
    rw [hsameUsed] at ht
    obtain ⟨hrest, -⟩ := mem_usedTiles.mp ht
    exact himage.tiling.start_ne_middle (by omega) hrest
  · have hbound : (if x.start < s.lfree then x.start else s.lfree) ≤ s.lfree := by
      split <;> omega
    obtain ⟨hfromPre, hfromPost⟩ := unusedFrom_append.mp (hold.mono hbound)
    exact unusedFrom_append.mpr ⟨hfromPre, (unusedFrom_cons.mp hfromPost).2⟩
  · show (if x.start < s.lfree then x.start else s.lfree) ≤ x.start
    split <;> omega

theorem reallocShrink_spec (hlayout : Layout cfg s tiles) (hx : x ∈ usedTiles tiles)
    {newsize mid : Nat} (haligned : newsize % cfg.alignSize = 0)
    (hmid : x.start + cfg.sizeofStructMem + newsize = mid)
    (hroom : mid + cfg.sizeofStructMem ≤ x.stop) :
    ∃ s' tiles',
      reallocShrink cfg x.start (x.stop - (x.start + cfg.sizeofStructMem)) newsize s = some s' ∧
      Outcome cfg s s' (⟨x.start, mid, true⟩ :: others x tiles) tiles' ∧
      (UnusedFrom s.lfree tiles → s.lfree ≤ mid ∨ s.lfree = x.stop ∧ s.lfree ≠ s.heapEnd →
        UnusedFrom s'.lfree tiles') := by
  have hlen := cfg.twelve_le
  obtain ⟨hmem, hused⟩ := mem_usedTiles.mp hx
  obtain ⟨hfit, hle, hsmall⟩ := hlayout.start_add_lt hmem
  obtain ⟨pre, post, rfl⟩ := List.append_of_mem hmem
  have himage := hlayout.image
  obtain ⟨hcpre, hcpost, -, -⟩ := coalesced_middle.mp hlayout.coalesced
  have hmidAligned : mid % cfg.alignSize = 0 := by
    rw [← hmid, Nat.add_mod, haligned, Nat.add_mod x.start, himage.start_mod,
      cfg.sizeofStructMem_mod]
    simp
  have hfirst : headerOf (setNext (createMem2 cfg x.start mid s.heap) x.start mid) x.start =
      ⟨heapMagic, (true : Bool).toNat, mid, lastStart 0 pre⟩ := by
    rw [headerOf_setNext (by omega),
      headerOf_congr fun i _ hi => createMem2_outside (.inl (by omega)), himage.header, hused]
  have hsecond : headerOf (setNext (createMem2 cfg x.start mid s.heap) x.start mid) mid =
      ⟨heapMagic, 0, x.stop, x.start⟩ := by
    rw [headerOf_setNext_apart (.inl (by omega)), headerOf_createMem2 (by omega) (by omega),
      himage.nextOf_eq]
  have hsame : ∀ i, (i < x.start ∨ x.start + cfg.sizeofStructMem ≤ i) →
      (i < mid ∨ mid + cfg.sizeofStructMem ≤ i) →
      setNext (createMem2 cfg x.start mid s.heap) x.start mid i = s.heap i := by
    intro i hi hj
    rw [setNext_outside (by omega), createMem2_outside hj]
  obtain ⟨hsplit, hkept⟩ := himage.split (by omega) hroom hmidAligned hlayout.heapEnd
    hfirst hsecond hsame
  generalize hheap : relinkNext cfg s.memSizeAligned mid
      (setNext (createMem2 cfg x.start mid s.heap) x.start mid) = heap at hsplit hkept
  have hrow : Image cfg heap s.heapEnd
      ((pre ++ [⟨x.start, mid, true⟩]) ++ ⟨mid, x.stop, false⟩ :: post) := by
    simpa using hsplit
  have hlfree : LfreeOk s.lfree s.heapEnd
      ((pre ++ [⟨x.start, mid, true⟩]) ++ ⟨mid, x.stop, false⟩ :: post) := by
    rcases hlayout.lfree with hend | ⟨t, ht, hstart, hunused⟩
    · exact .inl hend
    · refine .inr ⟨t, ?_, hstart, hunused⟩
      rw [List.mem_append, List.mem_cons] at ht
      rcases ht with hin | rfl | hin
      · simp [hin]
      · rw [hused] at hunused
        cases hunused
      · simp [hin]
  have hcpre' : Coalesced (pre ++ [⟨x.start, mid, true⟩]) :=
    coalesced_middle.mpr ⟨hcpre, List.isChain_nil, fun _ _ => .inr rfl, fun _ _ => .inl rfl⟩
  obtain ⟨heap', lfree, tiles', hplug, himage', hlfree', hcoalesced, hsameUsed, hkept', hfrom⟩ :=
    plugHoles_spec
      (s := { s with
        heap := heap
        usedMem := sub32 s.usedMem
          (x.stop - (x.start + cfg.sizeofStructMem) - newsize) })
      (m := ⟨mid, x.stop, false⟩) hrow rfl hcpre' hcpost hlfree
  refine ⟨{ s with
      heap := heap'
      lfree := lfree
      usedMem := sub32 s.usedMem (x.stop - (x.start + cfg.sizeofStructMem) - newsize) },
    tiles', ?_, ⟨⟨himage', hcoalesced, hlfree', ?_, hlayout.heapEnd, hlayout.sizeAligned,
      hlayout.base, hlayout.fits⟩, rfl, rfl, ?_⟩, fun hold => hfrom ?_⟩
  · simp only [reallocShrink, hmid, hheap]
    exact hplug
  · show sub32 s.usedMem (x.stop - (x.start + cfg.sizeofStructMem) - newsize) = usedBytes tiles'
    have htotal := usedBytes_le himage.tiling
    rw [← hlayout.usedMem] at htotal
    have hbefore : s.usedMem = usedBytes pre + (x.stop - x.start) + usedBytes post := by
      rw [hlayout.usedMem, usedBytes_append, usedBytes_cons, hused, if_pos rfl]
      omega
    have hafter : usedBytes tiles' = usedBytes pre + (mid - x.start) + usedBytes post := by
      rw [usedBytes_congr hsameUsed, usedBytes_append, usedBytes_append, usedBytes_cons]
      rfl
    rw [sub32_eq (by omega) (by omega), hafter]
    omega
  · intro t ht
    have hpersist : t ∈ (pre ++ [⟨x.start, mid, true⟩]) ++ post ∧ t.used = true := by
      rcases List.mem_cons.mp ht with rfl | ht
      · simp
      · obtain ⟨hin, hne⟩ := mem_others.mp ht
        obtain ⟨hin, htused⟩ := mem_usedTiles.mp hin
        refine ⟨?_, htused⟩
        rw [List.mem_append, List.mem_cons] at hin
        rcases hin with hin | rfl | hin
        · simp [hin]
        · exact absurd rfl hne
        · simp [hin]
    obtain ⟨hin, htused⟩ := hpersist
    have hfilter := mem_usedTiles.mpr ⟨hin, htused⟩
    rw [← hsameUsed] at hfilter
    refine ⟨(mem_usedTiles.mp hfilter).1, (hkept t ?_).trans (hkept' t hin htused)⟩
    rw [List.mem_append, List.mem_append, List.mem_singleton] at hin
    rw [List.mem_append, List.mem_cons, List.mem_cons]
    rcases hin with (hin | heq) | hin
    · exact .inl hin
    · exact .inr (.inl heq)
    · exact .inr (.inr (.inr hin))
  · obtain ⟨hfromPre, hfromPost⟩ := unusedFrom_append.mp hold
    refine unusedFrom_append.mpr ⟨unusedFrom_append.mpr ⟨hfromPre, ?_⟩,
      (unusedFrom_cons.mp hfromPost).2⟩
    intro t ht hunused
    rw [List.mem_singleton] at ht
    rw [ht] at hunused
    cases hunused

/-- The client's block `x` is now `tile`. -/
structure Resized (cfg : MemConfig) (s s' : SmallMem) (tiles : List Tile) (x : Tile)
    (newsize : Nat) (tiles' : List Tile) (tile : Tile) : Prop where
  outcome : Outcome cfg s s' (others x tiles) tiles'
  mem : tile ∈ usedTiles tiles'
  fresh : ∀ t ∈ others x tiles, t.start ≠ tile.start
  room : newsize ≤ tile.stop - (tile.start + cfg.sizeofStructMem)
  bytes : ∀ i, i < min (x.stop - (x.start + cfg.sizeofStructMem)) newsize →
    s'.heap (tile.start + cfg.sizeofStructMem + i) = s.heap (x.start + cfg.sizeofStructMem + i)

theorem Layout.others_start_ne (hlayout : Layout cfg s tiles) (hx : x ∈ tiles) :
    ∀ t ∈ others x tiles, t.start ≠ x.start := by
  intro t ht heq
  obtain ⟨hin, hne⟩ := mem_others.mp ht
  have hpos : 0 < cfg.sizeofStructMem := Nat.lt_of_lt_of_le (by decide) cfg.twelve_le
  exact hne (hlayout.image.tiling.eq_of_start_eq hpos (mem_usedTiles.mp hin).1 hx heq)

theorem reallocMove_spec (hlayout : Layout cfg s tiles) (hx : x ∈ usedTiles tiles)
    (hpos : x.start + cfg.sizeofStructMem < x.stop) {newsize : Nat}
    (hsize : newsize ≤ s.memSizeAligned) (self : List UInt8) :
    (reallocMove cfg self (s.payload cfg x) (x.stop - (x.start + cfg.sizeofStructMem)) newsize s =
        none ∧ s.memSizeAligned < cfg.minSizeAligned) ∨
      reallocMove cfg self (s.payload cfg x) (x.stop - (x.start + cfg.sizeofStructMem)) newsize s =
        some (0, s) ∨
      ∃ s' tiles' tile,
        reallocMove cfg self (s.payload cfg x) (x.stop - (x.start + cfg.sizeofStructMem)) newsize
          s = some (s.payload cfg tile, s') ∧
        Resized cfg s s' tiles x newsize tiles' tile ∧
        (UnusedFrom s.lfree tiles → UnusedFrom s'.lfree tiles') := by
  have hlen := cfg.twelve_le
  rcases rtMalloc_spec hlayout hsize self with ⟨hnone, htiny⟩ | hnull |
    ⟨s1, tiles1, tile, hmalloc, houtcome, htile, hfresh, hroom, -, hfrom1⟩
  · refine .inl ⟨?_, htiny⟩
    simp only [reallocMove, hnone, Option.bind_eq_bind, Option.bind_none]
  · refine .inr (.inl ?_)
    simp only [reallocMove, hnull, Option.bind_eq_bind, Option.bind_some]
    rfl
  obtain ⟨htileMem, htileUsed⟩ := mem_usedTiles.mp htile
  obtain ⟨hxMem, hxKept⟩ := houtcome.keeps x hx
  have hxUsed : x ∈ usedTiles tiles1 := mem_usedTiles.mpr ⟨hxMem, (mem_usedTiles.mp hx).2⟩
  have hne : x.start ≠ tile.start := hfresh x hx
  generalize hcount : (if x.stop - (x.start + cfg.sizeofStructMem) < newsize then
      x.stop - (x.start + cfg.sizeofStructMem) else newsize) = count
  have hcountLe : count ≤ tile.stop - (tile.start + cfg.sizeofStructMem) ∧
      count = min (x.stop - (x.start + cfg.sizeofStructMem)) newsize := by
    rw [← hcount]
    constructor <;> split <;> omega
  -- the copy stays within the new block
  have hbounds := houtcome.layout.start_add_lt htileMem
  generalize hbytes : s1.heap.readBytes (x.start + cfg.sizeofStructMem) count = bytes
  have hlength : bytes.length = count := by
    rw [← hbytes, ByteMemory.length_readBytes]
  have hcopy : ∀ i, (i < tile.start + cfg.sizeofStructMem ∨ tile.stop ≤ i) →
      s1.heap.writeBytes (tile.start + cfg.sizeofStructMem) bytes i = s1.heap i := by
    intro i hi
    apply ByteMemory.writeBytes_outside
    omega
  obtain ⟨left, right, hsplit⟩ := List.append_of_mem htileMem
  have himage1 := houtcome.layout.image
  rw [hsplit] at himage1
  obtain ⟨hstore, hstoreKept⟩ := himage1.store hcopy
  rw [← hsplit] at hstore hstoreKept
  obtain ⟨s3, tiles3, hfree, houtcome3, -, hfrom3⟩ :=
    rtFree_spec (houtcome.layout.setHeap hstore) hxUsed hpos
  have hptr1 := houtcome.heapPtr
  have htileOther : tile ∈ others x tiles1 :=
    mem_others.mpr ⟨htile, fun heq => hne (by rw [heq])⟩
  obtain ⟨htile3, hkept3⟩ := houtcome3.keeps tile htileOther
  have hsrc : s.payload cfg x - s1.heapPtr = x.start + cfg.sizeofStructMem := by
    rw [payload, hptr1]
    omega
  have hdst : s.payload cfg tile - s1.heapPtr = tile.start + cfg.sizeofStructMem := by
    rw [payload, hptr1]
    omega
  have hpayload : payload cfg
      { s1 with heap := s1.heap.writeBytes (tile.start + cfg.sizeofStructMem) bytes } x =
      s.payload cfg x := by
    simp only [payload, hptr1]
  rw [hpayload] at hfree
  refine .inr (.inr ⟨s3, tiles3, tile, ?_,
    ⟨⟨houtcome3.layout, ?_, ?_, ?_⟩, ?_, ?_, hroom, ?_⟩, fun hold => hfrom3 (hfrom1 hold)⟩)
  · have hnotNull : s.payload cfg tile ≠ 0 := by
      rw [payload]
      omega
    simp only [reallocMove, hmalloc, Option.bind_eq_bind, Option.bind_some, hcount, hsrc, hdst,
      hbytes]
    rw [if_pos hnotNull, hfree]
    rfl
  · exact houtcome3.heapPtr.trans hptr1
  · exact houtcome3.memSizeAligned.trans houtcome.memSizeAligned
  · intro t ht
    obtain ⟨hin, hnex⟩ := mem_others.mp ht
    obtain ⟨hmem1, hkept1⟩ := houtcome.keeps t hin
    have htused := (mem_usedTiles.mp hin).2
    have hother : t ∈ others x tiles1 :=
      mem_others.mpr ⟨mem_usedTiles.mpr ⟨hmem1, htused⟩, hnex⟩
    obtain ⟨hmem3, hkeptEnd⟩ := houtcome3.keeps t hother
    have hnetile : t ≠ tile := fun heq => hfresh t hin (by rw [heq])
    exact ⟨hmem3, (hkept1.trans (hstoreKept t hmem1 hnetile)).trans hkeptEnd⟩
  · exact mem_usedTiles.mpr ⟨htile3, htileUsed⟩
  · intro t ht
    exact hfresh t (mem_others.mp ht).1
  · intro i hi
    have hstep3 := hkept3 (tile.start + cfg.sizeofStructMem + i) (by omega) (by omega)
    have hstep1 := hxKept (x.start + cfg.sizeofStructMem + i) (by omega) (by omega)
    have hi' : i < bytes.length := by omega
    rw [hstep3, ← hstep1]
    show s1.heap.writeBytes (tile.start + cfg.sizeofStructMem) bytes
      (tile.start + cfg.sizeofStructMem + i) = _
    rw [ByteMemory.writeBytes_inside hi']
    simp only [← hbytes, ByteMemory.readBytes, List.getElem_map, List.getElem_range]

/-- `rt_realloc` gives back the end of a block that lies before `lfree`, and this end is
not joined with the block at `lfree`. -/
def SmallMem.ShrinksBefore (cfg : MemConfig) (s : SmallMem) (rmem newsize : Nat) : Prop :=
  let newsize := rtAlign newsize cfg.alignSize
  let ptr := rmem - cfg.sizeofStructMem - s.heapPtr
  let size := sub32 (nextOf s.heap ptr) (ptr + cfg.sizeofStructMem)
  rmem ≠ 0 ∧ newsize ≠ 0 ∧ newsize + cfg.sizeofStructMem + minSize < size ∧
    ptr + cfg.sizeofStructMem + newsize < s.lfree ∧
    ¬ (nextOf s.heap ptr = s.lfree ∧ s.lfree ≠ s.heapEnd)

instance {cfg : MemConfig} {s : SmallMem} {rmem newsize : Nat} :
    Decidable (s.ShrinksBefore cfg rmem newsize) := inferInstanceAs (Decidable (_ ∧ _))

theorem rtRealloc_spec (hlayout : Layout cfg s tiles) (hx : x ∈ usedTiles tiles)
    (hpos : x.start + cfg.sizeofStructMem < x.stop) {newsize : Nat} (hnonzero : newsize ≠ 0)
    (hsize : newsize ≤ s.memSizeAligned) (self : List UInt8) :
    (rtRealloc cfg self (s.payload cfg x) newsize s = none ∧
        s.memSizeAligned < cfg.minSizeAligned) ∨
      rtRealloc cfg self (s.payload cfg x) newsize s = some (0, s) ∨
      ∃ s' tiles' tile,
        rtRealloc cfg self (s.payload cfg x) newsize s = some (s.payload cfg tile, s') ∧
        Resized cfg s s' tiles x newsize tiles' tile ∧
        (UnusedFrom s.lfree tiles → ¬ s.ShrinksBefore cfg (s.payload cfg x) newsize →
          UnusedFrom s'.lfree tiles') := by
  have hlen := cfg.twelve_le
  have hroom := hlayout.aligned_room
  obtain ⟨hmem, hused⟩ := mem_usedTiles.mp hx
  obtain ⟨hfit, hle, hsmall⟩ := hlayout.start_add_lt hmem
  have hupper : rtAlign newsize cfg.alignSize ≤ s.memSizeAligned :=
    rtAlign_le cfg.alignBits_le_word hsize hlayout.sizeAligned hroom
  have hlower : newsize ≤ rtAlign newsize cfg.alignSize := le_rtAlign cfg.alignBits_le_word (by
    rw [MemConfig.alignSize] at hroom
    omega)
  have haligned : rtAlign newsize cfg.alignSize % cfg.alignSize = 0 := rtAlign_mod _ cfg.alignBits_le_word
  generalize hnew : rtAlign newsize cfg.alignSize = size at hupper hlower haligned
  have hnext : nextOf s.heap x.start = x.stop := by
    obtain ⟨pre, post, rfl⟩ := List.append_of_mem hmem
    exact hlayout.image.nextOf_eq
  have hsub : sub32 (nextOf s.heap x.start) (x.start + cfg.sizeofStructMem) =
      x.stop - (x.start + cfg.sizeofStructMem) := by
    rw [hnext, sub32_eq (by omega) (by omega)]
  have hptr : s.payload cfg x - cfg.sizeofStructMem - s.heapPtr = x.start := by
    rw [payload]
    omega
  have hcall : rtRealloc cfg self (s.payload cfg x) newsize s =
      if x.stop - (x.start + cfg.sizeofStructMem) = size then some (s.payload cfg x, s)
      else if size + cfg.sizeofStructMem + minSize <
          x.stop - (x.start + cfg.sizeofStructMem) then
        (reallocShrink cfg x.start (x.stop - (x.start + cfg.sizeofStructMem)) size s).map
          ((s.payload cfg x, ·))
      else reallocMove cfg self (s.payload cfg x) (x.stop - (x.start + cfg.sizeofStructMem))
        size s := by
    simp only [rtRealloc, hnew, hptr, hsub]
    rw [if_neg (by omega), if_neg (by omega), if_neg (by rw [payload]; omega),
      if_neg (by rw [payload]; omega)]
  rw [hcall]
  split
  next heq =>
    refine .inr (.inr ⟨s, tiles, x, rfl, ⟨⟨hlayout, rfl, rfl, fun t ht => ?_⟩, hx,
      hlayout.others_start_ne hmem, by omega, fun _ _ => rfl⟩, fun hold _ => hold⟩)
    exact ⟨(mem_usedTiles.mp (mem_others.mp ht).1).1, Kept.refl _ _ _⟩
  · split
    next hshrink =>
      obtain ⟨s', tiles', hrun, houtcome, hfrom⟩ := reallocShrink_spec hlayout hx haligned rfl
        (by simp only [minSize] at hshrink; omega)
      refine .inr (.inr ⟨s', tiles', ⟨x.start, x.start + cfg.sizeofStructMem + size, true⟩, ?_,
        ⟨⟨houtcome.layout, houtcome.heapPtr, houtcome.memSizeAligned,
          fun t ht => houtcome.keeps t (List.mem_cons_of_mem _ ht)⟩, ?_, ?_, ?_, ?_⟩,
        fun hold hnot => hfrom hold ?_⟩)
      · rw [hrun]
        rfl
      · exact mem_usedTiles.mpr ⟨(houtcome.keeps _ List.mem_cons_self).1, rfl⟩
      · exact hlayout.others_start_ne hmem
      · simp only
        omega
      · intro i hi
        exact (houtcome.keeps _ List.mem_cons_self).2 _ (by simp only; omega)
          (by simp only; omega)
      · simp only [ShrinksBefore, hnew, hptr, hsub] at hnot
        rw [hnext] at hnot
        by_contra hbound
        have hnotNull : s.payload cfg x ≠ 0 := by
          rw [payload]
          omega
        exact hnot ⟨hnotNull, by omega, hshrink, by omega, fun hat => hbound (.inr ⟨hat.1.symm, hat.2⟩)⟩
    · rcases reallocMove_spec hlayout hx hpos hupper self with hnone | hnull |
        ⟨s', tiles', tile, hrun, hresized, hfrom⟩
      · exact .inl hnone
      · exact .inr (.inl hnull)
      · refine .inr (.inr ⟨s', tiles', tile, hrun, ⟨hresized.outcome, hresized.mem,
          hresized.fresh, Nat.le_trans hlower hresized.room, fun i hi => ?_⟩,
          fun hold _ => hfrom hold⟩)
        exact hresized.bytes i (by omega)

end RtThread.Mem
