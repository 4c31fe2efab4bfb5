import RtThread.Memheap.Steps

namespace RtThread.Memheap

open RtThread.Lib

variable {cfg : MemheapConfig} {s s' s'' : RtMemheap} {tiles tiles' pre post : List Tile}
  {frees l1 l2 : List Nat} {x r t tile : Tile} {size newsize : Nat}

/-- The block `tile` has come in place of `x`, which lay between `pre` and `post`. -/
structure Resized (cfg : MemheapConfig) (s s' : RtMemheap) (pre : List Tile) (x : Tile)
    (post : List Tile) (tile : Tile) (tiles' : List Tile) (size : Nat) : Prop where
  outcome : Outcome cfg s s' (usedTiles (pre ++ post)) tiles'
  mem : tile ∈ usedTiles tiles'
  room : size ≤ dataSize cfg tile
  fresh : ∀ t ∈ usedTiles (pre ++ post), t.start ≠ tile.start
  contents : ∀ i < min (dataSize cfg x) size,
    s'.memory (tile.start + cfg.memheapSize + i) = s.memory (x.start + cfg.memheapSize + i)

theorem Shape.start_ne {pool : MemheapPool} {memory : ByteMemory} {list : List Nat}
    (hshape : Shape cfg pool memory (pre ++ x :: post) list) (ht : t ∈ usedTiles (pre ++ post)) :
    t.start ≠ x.start := hshape.blocks.start_ne (mem_usedTiles.mp ht).1

theorem Resized.same (hlayout : Layout cfg s (pre ++ x :: post) frees) (hrecorded : s.Recorded)
    (hx : x.used = true) (hroom : size ≤ dataSize cfg x) :
    Resized cfg s s pre x post x (pre ++ x :: post) size := by
  refine ⟨⟨rfl, ⟨frees, hlayout⟩, hrecorded, fun t ht => ⟨?_, Kept.refl _ _ _⟩⟩,
    mem_usedTiles.mpr ⟨by simp, hx⟩, hroom, fun t ht => hlayout.shape.start_ne ht,
    fun i hi => rfl⟩
  exact mem_middle_of_mem (mem_usedTiles.mp ht).1

/-- The blocks stay long enough, and in their places if `fit` holds. -/
def Tidy (cfg : MemheapConfig) (old new : List Tile) (fit : Prop) : Prop :=
  Long cfg old → Long cfg new ∧ (Placed cfg old → fit → Placed cfg new)

theorem Tidy.refl (cfg : MemheapConfig) (tiles : List Tile) (fit : Prop) :
    Tidy cfg tiles tiles fit := fun hlong => ⟨hlong, fun hplaced _ => hplaced⟩

theorem Tidy.coarser {fit : Prop} (htidy : Tidy cfg tiles tiles' fit) {tiles'' : List Tile}
    (hcoarser : Coarser tiles' tiles'') : Tidy cfg tiles tiles'' fit := fun hlong =>
  ⟨hcoarser.long (htidy hlong).1, fun hplaced hfit =>
    hcoarser.placed ((htidy hlong).2 hplaced hfit)⟩

theorem tidy_cut {stop : Nat} (hsize : memheapMinialloc ≤ size)
    (hroom : x.start + cfg.memheapSize + size + cfg.memheapSize + memheapMinialloc ≤ stop) :
    Tidy cfg (pre ++ x :: post)
      (pre ++ ⟨x.start, x.start + cfg.memheapSize + size, true⟩ ::
        ⟨x.start + cfg.memheapSize + size, stop, false⟩ :: post)
      (size % cfg.alignSize = 0) := by
  refine fun hlong => ⟨?_, fun hplaced hmod => ?_⟩
  · refine @Long.replace cfg pre post x [_, _] hlong fun t ht => ?_
    rw [List.mem_cons, List.mem_singleton] at ht
    rcases ht with rfl | rfl
    · unfold dataSize
      dsimp only
      omega
    · unfold dataSize
      dsimp only
      omega
  · refine @Placed.replace cfg pre post x [_, _] hplaced fun t ht => ?_
    have hx := hplaced x (by simp)
    rw [List.mem_cons, List.mem_singleton] at ht
    rcases ht with rfl | rfl
    · exact hx
    · exact behind_mod hx hmod

theorem Layout.reallocInPlace
    (hlayout : Layout cfg s (pre ++ x :: r :: post) (l1 ++ r.start :: l2))
    (hrecorded : s.Recorded) (hx : x.used = true) (hr : r.used = false)
    (hmore : dataSize cfg x < size)
    (hroom : size + memheapMinialloc < dataSize cfg r + dataSize cfg x) :
    Resized cfg s (reallocInPlace cfg x.start (dataSize cfg x) size s).release pre x (r :: post)
      ⟨x.start, x.start + cfg.memheapSize + size, true⟩
      (pre ++ ⟨x.start, x.start + cfg.memheapSize + size, true⟩ ::
        ⟨x.start + cfg.memheapSize + size, r.stop, false⟩ :: post) size := by
  have hlen := twentyFour_le cfg
  have hbx := hlayout.bounds (t := x) (by simp)
  have hbr := hlayout.bounds (t := r) (by simp)
  obtain ⟨-, hxlen, hstart, -, -⟩ := Tiles.middle_iff.mp hlayout.shape.tiling
  have hdx : dataSize cfg x = x.stop - (x.start + cfg.memheapSize) := rfl
  have hdr : dataSize cfg r = r.stop - (r.start + cfg.memheapSize) := rfl
  have hnext : itemGet .next s.memory x.start = r.start := hstart ▸ hlayout.shape.next_eq
  obtain ⟨hshape1, hkept1⟩ := hlayout.shape.freeRemove hlayout.region
  have hout : r.start ∉ l1 ++ l2 := by
    have hnodup : ((s.freeList :: l1) ++ r.start :: l2).Nodup := hlayout.shape.free.1
    exact fun h => (List.nodup_cons.mp (List.nodup_middle.mp hnodup)).1
      (List.mem_cons_of_mem _ h)
  obtain ⟨hshape2, hkept2⟩ := hshape1.dropBlock hlayout.region hout
  have hmerged : dataSize cfg x < size ∧ x.start + cfg.memheapSize + size + cfg.memheapSize ≤
      r.stop := by omega
  obtain ⟨hshape3, hkept3⟩ := hshape2.makeItem (x.start + cfg.memheapSize + size)
    hlayout.region (Nat.le_add_right ..) hmerged.2
  have hfresh := hshape2.not_mem_inside (x.start + cfg.memheapSize + size)
    (by dsimp only; omega) (by dsimp only; omega)
  obtain ⟨hshape4, hkept4⟩ := hshape3.freeInsert hlayout.region
    (a := x.start + cfg.memheapSize + size) (by simp) hfresh
  rw [hx] at hshape3 hshape4 hkept3 hkept4
  have hrest : dataSize cfg ⟨x.start + cfg.memheapSize + size, r.stop, false⟩ =
      dataSize cfg r + dataSize cfg x - size := by
    show r.stop - (x.start + cfg.memheapSize + size + cfg.memheapSize) = _
    omega
  have hbytes := hlayout.available
  rw [freeBytes_append, freeBytes_cons_used hx, freeBytes_cons_free hr] at hbytes
  have hle := hlayout.available_le
  have hlt := hlayout.pool_lt
  have hsub : sub32 s.availableSize (sub32 size (dataSize cfg x)) =
      freeBytes cfg pre + (dataSize cfg ⟨x.start + cfg.memheapSize + size, r.stop, false⟩ +
        freeBytes cfg post) := by
    have hinner : sub32 size (dataSize cfg x) = size - dataSize cfg x :=
      sub32_eq (by omega) (by omega)
    rw [hinner, sub32_eq (by omega) (by omega), hrest]
    omega
  have hused : sub32 s.availableSize (sub32 size (dataSize cfg x)) ≤ s.poolSize := by
    rw [hsub, hrest]
    omega
  have hperm := hlayout.frees
  rw [freeStarts_append, freeStarts_cons_used hx, freeStarts_cons_free hr] at hperm
  obtain ⟨hpre, hpost, -⟩ := coalesced_middle.mp hlayout.coalesced
  obtain ⟨hright, hpost⟩ := coalesced_cons.mp hpost
  have htop := hlayout.stop_lt (t := r) (by simp)
  have hitem : add32 (x.start + cfg.memheapSize) size = x.start + cfg.memheapSize + size :=
    Nat.mod_eq_of_lt (by omega)
  have hstate : Memheap.reallocInPlace cfg x.start (dataSize cfg x) size s =
      { s.withAvailable (sub32 s.availableSize (sub32 size (dataSize cfg x))) with
        memory := freeInsert s.freeList (x.start + cfg.memheapSize + size) (makeItem s.heap x.start
          (x.start + cfg.memheapSize + size)
          (dropBlock r.start (freeRemove r.start s.memory))) } := by
    unfold Memheap.reallocInPlace RtMemheap.edit RtMemheap.withAvailable
    dsimp only
    rw [hnext, hitem]
  have hold : ∀ t ∈ usedTiles (pre ++ r :: post), t ∈ pre ++ post :=
    fun t ht => List.mem_append.mpr (mem_usedTiles_middle hr ht)
  rw [hstate]
  refine ⟨⟨rfl, ⟨_, hlayout.region, hshape4, ?_, ?_, ?_⟩, ?_, fun t ht => ?_⟩,
    mem_usedTiles.mpr ⟨by simp, rfl⟩, ?_, fun t ht => ?_, fun i hi => ?_⟩
  · rw [freeStarts_append, freeStarts_cons_used rfl, freeStarts_cons_free rfl]
    exact ((perm_middle_inv _ _ hperm).cons _).trans List.perm_middle.symm
  · refine Coalesced.used_middle hpre (coalesced_cons.mpr ⟨fun right hm => ?_, hpost⟩) rfl
    exact .inr ((hright right hm).resolve_left (by simp [hr]))
  · rw [freeBytes_append, freeBytes_cons_used rfl, freeBytes_cons_free rfl]
    exact hsub
  · exact Memheap.Recorded.used hrecorded hused hlt
  · have hin := hold t ht
    have hin1 : t ∈ pre ++ x :: r :: post := mem_middle_of_mem (mem_middle_of_mem hin)
    have hin3 : t ∈ pre ++ ⟨x.start, x.start + cfg.memheapSize + size, true⟩ ::
        ⟨x.start + cfg.memheapSize + size, r.stop, false⟩ :: post :=
      mem_middle_of_mem (mem_middle_of_mem hin)
    exact ⟨hin3, (((hkept1 t hin1).trans (hkept2 t hin1)).trans (hkept3 t hin3)).trans
      (hkept4 t hin3)⟩
  · show size ≤ x.start + cfg.memheapSize + size - (x.start + cfg.memheapSize)
    omega
  · exact hlayout.shape.start_ne ht
  · have hi' : i < dataSize cfg x := by omega
    have hin1 : x ∈ pre ++ x :: r :: post := by simp
    have hend : x.start + cfg.memheapSize + i < x.stop := by omega
    calc _ = _ := hkept4 ⟨x.start, x.start + cfg.memheapSize + size, true⟩ (by simp) _
          (Nat.le_add_right ..) (by dsimp only; omega)
      _ = _ := hkept3 ⟨x.start, x.start + cfg.memheapSize + size, true⟩ (by simp) _
          (Nat.le_add_right ..) (by dsimp only; omega)
      _ = _ := hkept2 x hin1 _ (Nat.le_add_right ..) hend
      _ = _ := hkept1 x hin1 _ (Nat.le_add_right ..) hend

theorem Layout.write (hlayout : Layout cfg s (pre ++ x :: post) frees) (memory : ByteMemory)
    (hsame : ∀ i, i < x.start + cfg.memheapSize ∨ x.stop ≤ i → memory i = s.memory i) :
    Layout cfg { s with memory := memory } (pre ++ x :: post) frees ∧
      ∀ t ∈ pre ++ post, Kept cfg s.memory memory t := by
  have hlen := twentyFour_le cfg
  have htiling := hlayout.shape.tiling
  have hx : x ∈ pre ++ x :: post := by simp
  have hbx := hlayout.bounds hx
  have hobject := hlayout.region.object
  have htail := hlayout.region.tail_add
  have hget : ∀ field, ∀ a ∈ sitesOf cfg s.toMemheapPool (pre ++ x :: post),
      itemGet field memory a = itemGet field s.memory a := by
    intro field a ha
    have hoffset := field.offset_le
    refine ByteMemory.readWord_congr fun i hlow hhigh => hsame i ?_
    rcases ha with rfl | ha
    · omega
    · rcases List.mem_append.mp ha with ha | ha
      · obtain ⟨t, ht, rfl⟩ := List.mem_map.mp ha
        have hbt := hlayout.bounds ht
        rcases htiling.eq_or_apart ht hx with rfl | h | h <;> omega
      · have heq := List.mem_singleton.mp ha
        omega
  refine ⟨⟨hlayout.region, ⟨htiling, ?_, ?_, hlayout.shape.sub⟩, hlayout.frees,
    hlayout.coalesced, hlayout.available⟩, fun t ht i hlow hhigh => hsame i ?_⟩
  · exact hlayout.shape.blocks.congr fun field _ a ha => hget field a (mem_sites_start ha)
  · exact hlayout.shape.free.congr
      (fun a ha => hget .nextFree a (mem_sites_free hlayout.shape.sub ha))
      (fun a ha => hget .prevFree a (mem_sites_free hlayout.shape.sub ha))
  · rcases htiling.eq_or_apart (mem_middle_of_mem ht) hx with rfl | h | h
    · exact absurd rfl (hlayout.shape.blocks.start_ne ht)
    · exact .inl (by omega)
    · exact .inr (by have hbt := hlayout.bounds (mem_middle_of_mem ht); omega)

theorem allocatedSize_le_rtAlign (cfg : MemheapConfig) (size : Nat) :
    allocatedSize cfg size ≤ rtAlign (allocatedSize cfg size) cfg.alignSize := by
  have hbits := cfg.alignBits_le
  have hpow : 2 ^ cfg.alignBits ≤ 2 ^ 30 := Nat.pow_le_pow_right (by decide) hbits
  refine le_rtAlign (by omega) ?_
  unfold allocatedSize
  dsimp only
  split
  · exact Nat.le_trans (Nat.add_le_add_left hpow _) (by decide)
  · refine add_two_pow_le (rtAlign_mod size (by omega)) ?_ (by omega)
    exact Nat.lt_of_le_of_lt Nat.and_le_left (Nat.mod_lt _ (by decide))

theorem le_allocatedSize (cfg : MemheapConfig) (size : Nat) :
    allocatedSize cfg size ≤ allocatedSize cfg (allocatedSize cfg size) := by
  have hle := allocatedSize_le_rtAlign cfg size
  show _ ≤ if rtAlign (allocatedSize cfg size) cfg.alignSize < memheapMinialloc then
    memheapMinialloc else rtAlign (allocatedSize cfg size) cfg.alignSize
  split <;> omega

theorem mem_of_start_ne (ht : t ∈ pre ++ x :: post) (hne : t.start ≠ x.start) : t ∈ pre ++ post := by
  rcases List.mem_append.mp ht with h | h
  · exact List.mem_append_left _ h
  · rcases List.mem_cons.mp h with rfl | h
    · exact absurd rfl hne
    · exact List.mem_append_right _ h

theorem Layout.reallocMove (hlayout : Layout cfg s (pre ++ x :: post) frees)
    (hrecorded : s.Recorded) (hx : x.used = true)
    (hsize : size ≤ allocatedSize cfg size) (hmore : dataSize cfg x < size) :
    (∃ s', reallocMove cfg (x.start + cfg.memheapSize) (dataSize cfg x) size s = some (0, s') ∧
      Outcome cfg s s' (pre ++ x :: post) (pre ++ x :: post) ∧
      (s.availableSize ≤ allocatedSize cfg size ∨
        ∀ t ∈ pre ++ x :: post, t.used = false → dataSize cfg t < allocatedSize cfg size)) ∨
    ∃ s' tiles' tile,
      reallocMove cfg (x.start + cfg.memheapSize) (dataSize cfg x) size s =
        some (tile.start + cfg.memheapSize, s') ∧
      Resized cfg s s' pre x post tile tiles' size ∧ Tidy cfg (pre ++ x :: post) tiles' True := by
  have hlen := twentyFour_le cfg
  unfold Memheap.reallocMove
  rcases rtMemheapAlloc_spec hlayout hrecorded size with
    ⟨s₁, halloc, houtcome, hnone⟩ | ⟨front, y, back, tile, rest, s₁, htiles, hy, hcarved, halloc,
      houtcome, -, hsplit₁, -⟩
  · left
    refine ⟨s₁, ?_, houtcome, hnone⟩
    simp [halloc]
  · right
    have hlayout' := hlayout
    rw [htiles] at hlayout'
    have hxy : ∀ t ∈ usedTiles (pre ++ x :: post), t.start ≠ tile.start := by
      intro t ht
      rw [htiles] at ht
      rw [hcarved.start]
      exact hlayout'.shape.blocks.start_ne (List.mem_append.mpr (mem_usedTiles_middle hy ht))
    have hxin : x ∈ usedTiles (pre ++ x :: post) := mem_usedTiles.mpr ⟨by simp, hx⟩
    obtain ⟨frees₁, hlayout₁⟩ := houtcome.layout
    obtain ⟨hx₁, hkeptx⟩ := houtcome.keeps x hxin
    have hnew : tile.start + cfg.memheapSize ≠ 0 := by omega
    have hroom : size ≤ dataSize cfg tile := Nat.le_trans hsize hcarved.room
    have htile : dataSize cfg tile = tile.stop - (tile.start + cfg.memheapSize) := rfl
    let bytes := s₁.memory.readBytes (x.start + cfg.memheapSize) (dataSize cfg x)
    have hlength : bytes.length = dataSize cfg x := ByteMemory.length_readBytes
    obtain ⟨hlayout₂, hkept₂⟩ := hlayout₁.write
      (s₁.memory.writeBytes (tile.start + cfg.memheapSize) bytes)
      fun i hi => ByteMemory.writeBytes_outside (by omega)
    have hx₂ := mem_of_start_ne hx₁ (hxy x hxin)
    obtain ⟨pre₂, post₂, hsplit⟩ := List.append_of_mem hx₁
    rw [hsplit] at hlayout₂
    obtain ⟨s₃, tiles₃, hfree, houtcome₃, hcoarser⟩ :=
      rtMemheapFree_spec hlayout₂ houtcome.recorded hx
    -- the request was long enough to be a multiple
    have htidy : Tidy cfg (pre ++ x :: post) (front ++ tile :: (rest ++ back)) True := by
      rw [htiles]
      refine fun hlong => ⟨hcarved.long hlong (twelve_le_allocatedSize cfg size) hsplit₁,
        fun hplaced _ => hcarved.placed hplaced (.inr (allocatedSize_mod cfg ?_))⟩
      have hdata : memheapMinialloc ≤ dataSize cfg x := hlong x (htiles ▸ (by simp))
      omega
    have hother : ∀ t ∈ usedTiles (front ++ tile :: (rest ++ back)), t.start ≠ x.start →
        t ∈ usedTiles (pre₂ ++ post₂) := by
      intro t ht hne
      obtain ⟨hmem, hused⟩ := mem_usedTiles.mp ht
      rw [hsplit] at hmem
      exact mem_usedTiles.mpr ⟨mem_of_start_ne hmem hne, hused⟩
    have htilein : tile ∈ usedTiles (front ++ tile :: (rest ++ back)) :=
      mem_usedTiles.mpr ⟨by simp, hcarved.used⟩
    obtain ⟨htile₃, hkepttile⟩ := houtcome₃.keeps tile (hother tile htilein (hxy x hxin).symm)
    refine ⟨s₃, tiles₃, tile, ?_, ⟨⟨houtcome₃.pool.trans houtcome.pool, houtcome₃.layout,
      houtcome₃.recorded, fun t ht => ?_⟩, mem_usedTiles.mpr ⟨htile₃, hcarved.used⟩, hroom,
      fun t ht => ?_, fun i hi => ?_⟩, (hsplit ▸ htidy).coarser hcoarser⟩
    · simp only [halloc, Option.bind_eq_bind, Option.bind_some, Option.pure_def, if_pos hnew,
        if_pos hmore]
      unfold RtMemheap.edit
      dsimp only
      rw [hfree]
      rfl
    · have hold : t ∈ usedTiles (pre ++ x :: post) := by
        obtain ⟨hmem, hused⟩ := mem_usedTiles.mp ht
        exact mem_usedTiles.mpr ⟨mem_middle_of_mem hmem, hused⟩
      obtain ⟨hmem, hkept⟩ := houtcome.keeps t hold
      have hin := mem_of_start_ne hmem (hxy t hold)
      obtain ⟨hmem₃, hkept₃⟩ := houtcome₃.keeps t
        (hother t (mem_usedTiles.mpr ⟨hmem, (mem_usedTiles.mp ht).2⟩) (hlayout.shape.start_ne ht))
      exact ⟨hmem₃, (hkept.trans (hkept₂ t hin)).trans hkept₃⟩
    · obtain ⟨hmem, hused⟩ := mem_usedTiles.mp ht
      exact hxy t (mem_usedTiles.mpr ⟨mem_middle_of_mem hmem, hused⟩)
    · have hi' : i < bytes.length := by omega
      have hdata : dataSize cfg x = x.stop - (x.start + cfg.memheapSize) := rfl
      calc s₃.memory (tile.start + cfg.memheapSize + i)
          = s₁.memory.writeBytes (tile.start + cfg.memheapSize) bytes
              (tile.start + cfg.memheapSize + i) :=
            hkepttile _ (Nat.le_add_right ..) (by omega)
        _ = bytes[i] := ByteMemory.writeBytes_inside hi'
        _ = s₁.memory (x.start + cfg.memheapSize + i) := by simp [bytes, ByteMemory.readBytes]
        _ = s.memory (x.start + cfg.memheapSize + i) :=
            hkeptx _ (Nat.le_add_right ..) (by omega)

theorem Layout.reallocShrink (hlayout : Layout cfg s (pre ++ x :: post) frees)
    (hrecorded : s.Recorded) (hx : x.used = true)
    (hroom : size + cfg.memheapSize < dataSize cfg x) :
    ∃ tiles', Resized cfg s (reallocShrink cfg x.start size s).release pre x post
        ⟨x.start, x.start + size + cfg.memheapSize, true⟩ tiles' size ∧
      (memheapMinialloc ≤ size → size + cfg.memheapSize + memheapMinialloc ≤ dataSize cfg x →
        Tidy cfg (pre ++ x :: post) tiles' (size % cfg.alignSize = 0)) := by
  have hlen := twentyFour_le cfg
  have hbx := hlayout.bounds (t := x) (by simp)
  have hdx : dataSize cfg x = x.stop - (x.start + cfg.memheapSize) := rfl
  let mid := x.start + size + cfg.memheapSize
  have hmid : mid = x.start + size + cfg.memheapSize := rfl
  obtain ⟨hshape, hkept⟩ := hlayout.shape.makeItem mid hlayout.region
    (show x.start + cfg.memheapSize ≤ mid by omega) (show mid + cfg.memheapSize ≤ x.stop by omega)
  have hfresh := hlayout.shape.not_mem_inside mid (by omega) (by omega)
  rw [hx] at hshape hkept
  -- the new block is counted as free from the beginning
  let s₁ : RtMemheap := { s with
    memory := makeItem s.heap x.start mid s.memory
    availableSize := s.availableSize + dataSize cfg ⟨mid, x.stop, false⟩ }
  have hbytes := hlayout.available
  rw [freeBytes_append, freeBytes_cons_used hx] at hbytes
  have hperm := hlayout.frees
  rw [freeStarts_append, freeStarts_cons_used hx] at hperm
  obtain ⟨hpre, hpost, -⟩ := coalesced_middle.mp hlayout.coalesced
  have hshape₁ : Shape cfg s₁.toMemheapPool s₁.memory
      ((pre ++ [⟨x.start, mid, true⟩]) ++ ⟨mid, x.stop, false⟩ :: post) frees := by
    rw [List.append_assoc]
    exact hshape
  have hfreeing : Freeing cfg s₁ (pre ++ [⟨x.start, mid, true⟩]) ⟨mid, x.stop, false⟩ post frees
      true := by
    refine ⟨hlayout.region, hshape₁, rfl, ?_, Coalesced.used_middle hpre .nil rfl, hpost, ?_⟩
    · rw [if_pos rfl, freeStarts_append, freeStarts_append, freeStarts_cons_used rfl,
        freeStarts_cons_free rfl]
      have hnil : freeStarts [] = [] := rfl
      rw [hnil, List.append_nil]
      exact (hperm.cons mid).trans List.perm_middle.symm
    · rw [freeBytes_append, freeBytes_append, freeBytes_cons_used rfl, freeBytes_cons_free rfl]
      have hnil : freeBytes cfg [] = 0 := rfl
      dsimp only [s₁]
      omega
  obtain ⟨h', post', frees', hstart, hfreeing', hright, hmerged, hcoarser, hcases⟩ :=
    hfreeing.mergeRight
  obtain ⟨frees'', hlayout', hmerged'⟩ := hfreeing'.finish
    (fun left hleft => by
      rw [List.getLast?_concat] at hleft
      cases hleft
      rfl) hright
  have hstart' : h'.start = mid := hstart
  simp only [if_true, hstart'] at hlayout' hmerged'
  have hsize := hlayout'.shape.memitemSize_eq (t := h') (by simp) (hlayout'.stop_lt (by simp))
  rw [hstart'] at hsize
  have hdata : dataSize cfg ⟨mid, x.stop, false⟩ = x.stop - (mid + cfg.memheapSize) := rfl
  have hlt := hlayout.pool_lt
  have hle := hlayout.available_le
  have hsum : s.availableSize + dataSize cfg ⟨mid, x.stop, false⟩ + cfg.memheapSize ≤
      s.poolSize := by
    have hfree : s.availableSize + dataSize cfg ⟨mid, x.stop, false⟩ = _ := hfreeing.available
    have hmost := freeBytes_le hfreeing.shape.tiling
    have htail : s.tail cfg + cfg.memheapSize = s.startAddr + s.poolSize := hlayout.region.tail_add
    have hpool : s₁.tail cfg = s.tail cfg ∧ s₁.startAddr = s.startAddr := ⟨rfl, rfl⟩
    have htiles := hlayout.shape.tiling.le
    rw [hfree]
    omega
  have heq : Memheap.reallocShrink cfg x.start size s =
      (mergeRight cfg mid s₁).edit (freeInsert (mergeRight cfg mid s₁).freeList mid) := by
    unfold Memheap.reallocShrink RtMemheap.edit
    dsimp only
    rcases hcases with ⟨hsame, -, hused⟩ | ⟨r, hr, hfree, hstop, hnext, hunused⟩
    · have hright : mergeRight cfg mid s₁ = s₁ := if_pos hused
      rw [hright] at hsize ⊢
      have hnew : memitemSize cfg (freeInsert s.freeList mid
          (makeItem s.heap x.start mid s.memory)) mid = dataSize cfg ⟨mid, x.stop, false⟩ := by
        rw [← hsame]
        exact hsize
      have hadd : add32 s.availableSize (dataSize cfg ⟨mid, x.stop, false⟩) =
          s.availableSize + dataSize cfg ⟨mid, x.stop, false⟩ := Nat.mod_eq_of_lt (by omega)
      dsimp only [s₁]
      rw [if_pos hused, hnew, hadd]
    · have hunused' : ¬ isUsed s₁.memory (itemGet .next s₁.memory mid) = true := by
        have hnext' : itemGet .next s₁.memory mid = r.start := hnext
        rw [hnext', hunused]
        decide
      have hright : mergeRight cfg mid s₁ = { s₁ with
          availableSize := add32 s₁.availableSize cfg.memheapSize
          memory := absorbNext mid s₁.memory } := if_neg hunused'
      rw [hright] at hsize ⊢
      have hnew : memitemSize cfg (freeInsert s.freeList mid (absorbNext mid
          (makeItem s.heap x.start mid s.memory))) mid = dataSize cfg h' := hsize
      have hold : memitemSize cfg (makeItem s.heap x.start mid s.memory)
          (itemGet .next (makeItem s.heap x.start mid s.memory) mid) = dataSize cfg r := by
        have hnext' : itemGet .next (makeItem s.heap x.start mid s.memory) mid = r.start := hnext
        rw [hnext']
        exact hshape.memitemSize_eq (t := r) (by simp [hr]) (hlayout.stop_lt (by simp [hr]))
      obtain ⟨-, -, hrstart, hrlen, -⟩ :=
        Tiles.middle_iff.mp (show Tiles _ _ (pre ++ x :: r :: post') _ from hr ▸ hlayout.shape.tiling)
      have hrdata : dataSize cfg r = r.stop - (r.start + cfg.memheapSize) := rfl
      have hhdata : dataSize cfg h' = r.stop - (mid + cfg.memheapSize) := by
        rw [dataSize, hstop, hstart']
      rw [hr, freeBytes_cons_free hfree] at hbytes
      have hsub : sub32 s.availableSize (dataSize cfg r) = s.availableSize - dataSize cfg r :=
        sub32_eq (by omega) (by omega)
      have hnewsum : add32 (s.availableSize - dataSize cfg r) (dataSize cfg h') =
          s.availableSize - dataSize cfg r + dataSize cfg h' := Nat.mod_eq_of_lt (by omega)
      have holdsum : add32 (s.availableSize + dataSize cfg ⟨mid, x.stop, false⟩) cfg.memheapSize =
          s.availableSize + dataSize cfg ⟨mid, x.stop, false⟩ + cfg.memheapSize :=
        Nat.mod_eq_of_lt (by omega)
      have hsums : s.availableSize - dataSize cfg r + dataSize cfg h' =
          s.availableSize + dataSize cfg ⟨mid, x.stop, false⟩ + cfg.memheapSize := by omega
      rw [if_neg hunused']
      dsimp only [s₁]
      rw [hold, hnew, hsub, hnewsum, holdsum, hsums]
  have hall := hmerged.trans hmerged'
  rw [heq]
  generalize (mergeRight cfg mid s₁).edit (freeInsert (mergeRight cfg mid s₁).freeList mid) = s₂
    at hlayout' hall
  have hin : ∀ t ∈ usedTiles ((pre ++ [⟨x.start, mid, true⟩]) ++ post),
      Kept cfg s.memory s₂.memory t ∧
        t ∈ usedTiles ((pre ++ [⟨x.start, mid, true⟩]) ++ h' :: post') := by
    intro t ht
    obtain ⟨hmem, hused⟩ := mem_usedTiles.mp ht
    obtain ⟨hmem', hkept'⟩ := hall.keeps t ht
    rw [List.append_assoc, List.singleton_append] at hmem
    have hold : t ∈ pre ++ ⟨x.start, mid, true⟩ :: ⟨mid, x.stop, false⟩ :: post := by
      rw [List.append_cons] at hmem ⊢
      exact mem_middle_of_mem hmem
    exact ⟨(hkept t hold).trans hkept', mem_usedTiles.mpr ⟨hmem', hused⟩⟩
  have hleft : (⟨x.start, mid, true⟩ : Tile) ∈ usedTiles ((pre ++ [⟨x.start, mid, true⟩]) ++ post) :=
    mem_usedTiles.mpr ⟨by simp, rfl⟩
  have hreleased : Layout cfg s₂.release ((pre ++ [⟨x.start, mid, true⟩]) ++ h' :: post') frees'' :=
    ⟨hlayout'.region, hlayout'.shape, hlayout'.frees, hlayout'.coalesced, hlayout'.available⟩
  refine ⟨_, ⟨⟨hall.pool, ⟨frees'', hreleased⟩, ?_, fun t ht => ?_⟩, (hin _ hleft).2, ?_,
    fun t ht => hlayout.shape.start_ne ht, fun i hi => ?_⟩, fun hsize hlong => ?_⟩
  · have hmore : s.availableSize ≤ _ := Nat.le_trans (Nat.le_add_right ..) hall.available
    have hrecorded' := Memheap.Recorded.freed hrecorded hmore
    have hsize : s₁.poolSize = _ := congrArg MemheapPool.poolSize hall.pool.symm
    have hmax : s₁.maxUsedSize = _ := hall.maxUsedSize.symm
    have hlist : s₁.released = _ := hall.released.symm
    dsimp only [s₁] at hsize hmax hlist
    rw [hsize, hmax, hlist] at hrecorded'
    exact hrecorded'
  · obtain ⟨hmem, hused⟩ := mem_usedTiles.mp ht
    have hold : t ∈ usedTiles ((pre ++ [⟨x.start, mid, true⟩]) ++ post) := by
      refine mem_usedTiles.mpr ⟨?_, hused⟩
      rw [List.append_assoc, List.singleton_append]
      exact mem_middle_of_mem hmem
    exact ⟨(mem_usedTiles.mp (hin t hold).2).1, (hin t hold).1⟩
  · show size ≤ x.start + size + cfg.memheapSize - (x.start + cfg.memheapSize)
    omega
  · exact (hin _ hleft).1 _ (Nat.le_add_right ..) (by dsimp only; omega)
  · have hcut := @tidy_cut cfg pre post x size x.stop hsize (by omega)
    rw [Nat.add_right_comm] at hcut
    rw [List.append_assoc, List.singleton_append] at hcoarser
    exact hcut.coarser hcoarser

theorem allocatedSize_lt (cfg : MemheapConfig) (size : Nat) : allocatedSize cfg size < 2 ^ 32 := by
  unfold allocatedSize
  dsimp only
  split
  · decide
  · exact Nat.lt_of_le_of_lt Nat.and_le_left (Nat.mod_lt _ (by decide))

theorem Layout.behind_free (hlayout : Layout cfg s (pre ++ x :: r :: post) frees)
    (hr : r.used = false) :
    isUsed s.memory x.stop = false ∧ add32 (memitemSize cfg s.memory x.stop) (dataSize cfg x) =
      dataSize cfg r + dataSize cfg x := by
  have hlen := twentyFour_le cfg
  have hstart : r.start = x.stop := (Tiles.middle_iff.mp hlayout.shape.tiling).2.2.1
  have hbx := hlayout.bounds (t := x) (by simp)
  have hbr := hlayout.bounds (t := r) (by simp)
  have hlt := hlayout.pool_lt
  have hdx : dataSize cfg x = x.stop - (x.start + cfg.memheapSize) := rfl
  have hdr : dataSize cfg r = r.stop - (r.start + cfg.memheapSize) := rfl
  rw [← hstart, hlayout.shape.isUsed_eq (t := r) (by simp),
    hlayout.shape.memitemSize_eq (t := r) (by simp) (hlayout.stop_lt (by simp))]
  exact ⟨hr, Nat.mod_eq_of_lt (by omega)⟩

theorem Layout.exists_behind (hlayout : Layout cfg s (pre ++ x :: post) frees)
    (hfree : isUsed s.memory x.stop = false) :
    ∃ r post', post = r :: post' ∧ r.start = x.stop ∧ r.used = false := by
  cases post with
  | nil =>
    have hstop : x.stop = s.tail cfg := (Tiles.middle_iff.mp hlayout.shape.tiling).2.2
    rw [hstop, hlayout.shape.isUsed_tail] at hfree
    cases hfree
  | cons r post =>
    have hstart : r.start = x.stop := (Tiles.middle_iff.mp hlayout.shape.tiling).2.2.1
    refine ⟨r, post, rfl, hstart, ?_⟩
    rw [← hlayout.shape.isUsed_eq (t := r) (by simp), hstart]
    exact hfree

/-- The size that is really allocated is `size`.  It gives nothing where the free block behind is
not long enough and no other one is found. -/
theorem rtMemheapRealloc_spec (hlayout : Layout cfg s (pre ++ x :: post) frees)
    (hrecorded : s.Recorded) (hx : x.used = true) (hzero : newsize ≠ 0)
    (hsize : size = allocatedSize cfg newsize) (hfit : size + 12 < 2 ^ 32) :
    (∃ s', rtMemheapRealloc cfg (x.start + cfg.memheapSize) newsize s = some (0, s') ∧
      Outcome cfg s s' (pre ++ x :: post) (pre ++ x :: post) ∧ dataSize cfg x < size ∧
      ∀ r post', post = r :: post' → r.used = false →
        dataSize cfg r + dataSize cfg x ≤ size + 12) ∨
    ∃ s' tiles' tile,
      rtMemheapRealloc cfg (x.start + cfg.memheapSize) newsize s =
        some (tile.start + cfg.memheapSize, s') ∧
      Resized cfg s s' pre x post tile tiles' size ∧
      Tidy cfg (pre ++ x :: post) tiles' (size % cfg.alignSize = 0 ∨
        dataSize cfg x ≤ size + cfg.memheapSize + memheapMinialloc) := by
  have hlen := twentyFour_le cfg
  have hmini : memheapMinialloc = 12 := rfl
  have hbx := hlayout.bounds (t := x) (by simp)
  have hdx : dataSize cfg x = x.stop - (x.start + cfg.memheapSize) := rfl
  have hold := hlayout.shape.memitemSize_eq (t := x) (by simp) (hlayout.stop_lt (by simp))
  have hnext : itemGet .next s.memory x.start = x.stop := hlayout.shape.next_eq
  have hidem : size ≤ allocatedSize cfg size := hsize ▸ le_allocatedSize cfg newsize
  have hadd : add32 size memheapMinialloc = size + 12 := Nat.mod_eq_of_lt hfit
  unfold rtMemheapRealloc
  rw [if_neg hzero]
  dsimp only
  rw [if_neg (by omega), Nat.add_sub_cancel, hold, hnext, ← hsize]
  by_cases hmore : dataSize cfg x < size
  · rw [if_pos hmore, if_pos (by omega)]
    have hreleased : Layout cfg s.release (pre ++ x :: post) frees :=
      ⟨hlayout.region, hlayout.shape, hlayout.frees, hlayout.coalesced, hlayout.available⟩
    have hrecorded' : s.release.Recorded := (Outcome.release hlayout hrecorded).recorded
    split
    next hplace =>
      right
      obtain ⟨r, post, rfl, hstart, hr⟩ := hlayout.exists_behind hplace.1
      have hmem : r.start ∈ frees :=
        hlayout.frees.mem_iff.mpr (mem_freeStarts.mpr ⟨r, by simp, hr, rfl⟩)
      obtain ⟨l1, l2, rfl⟩ := List.append_of_mem hmem
      rw [hadd, (hlayout.behind_free hr).2] at hplace
      refine ⟨_, _, ⟨x.start, x.start + cfg.memheapSize + size, true⟩, rfl,
        hlayout.reallocInPlace hrecorded hx hr hmore hplace.2, fun hlong => ?_⟩
      have hdata : memheapMinialloc ≤ dataSize cfg x := hlong x (by simp)
      have hbr := hlayout.bounds (t := r) (by simp)
      have hdr : dataSize cfg r = r.stop - (r.start + cfg.memheapSize) := rfl
      -- the free block behind and `x` are one block that is cut again
      have hmerge : Coarser (pre ++ x :: r :: post)
          (pre ++ ⟨x.start, r.stop, true⟩ :: post) := .merge rfl (by dsimp only; omega)
      have hcut := @tidy_cut cfg pre post ⟨x.start, r.stop, true⟩ size r.stop (by omega)
        (by dsimp only; omega)
      refine ⟨(hcut (hmerge.long hlong)).1, fun hplaced _ =>
        (hcut (hmerge.long hlong)).2 (hmerge.placed hplaced) ?_⟩
      rw [hsize]
      exact allocatedSize_mod cfg (by omega)
    next hplace =>
      rcases hreleased.reallocMove hrecorded' hx hidem hmore with
        ⟨s', hcall, houtcome, -⟩ | ⟨s', tiles', tile, hcall, hresized, htidy⟩
      · refine .inl ⟨s', hcall, ⟨houtcome.pool, houtcome.layout, houtcome.recorded,
          houtcome.keeps⟩, hmore, fun r post' hpost hr => ?_⟩
        subst hpost
        obtain ⟨hused, hsum⟩ := hlayout.behind_free hr
        rw [hadd, hsum] at hplace
        exact Nat.le_of_not_lt fun hlt => hplace ⟨hused, hlt⟩
      · have houtcome := hresized.outcome
        exact .inr ⟨s', tiles', tile, hcall, ⟨⟨houtcome.pool, houtcome.layout, houtcome.recorded,
          houtcome.keeps⟩, hresized.mem, hresized.room, hresized.fresh, hresized.contents⟩,
          fun hlong => ⟨(htidy hlong).1, fun hplaced _ => (htidy hlong).2 hplaced trivial⟩⟩
  · rw [if_neg hmore]
    have hlt := hlayout.pool_lt
    have hsum : add32 (add32 size cfg.memheapSize) memheapMinialloc =
        size + cfg.memheapSize + memheapMinialloc := by
      have hbelow := hlayout.region.below
      have hinner : add32 size cfg.memheapSize = size + cfg.memheapSize :=
        Nat.mod_eq_of_lt (by omega)
      rw [hinner]
      exact Nat.mod_eq_of_lt (by omega)
    rw [hsum]
    have hroom : size ≤ dataSize cfg x := Nat.le_of_not_lt hmore
    split
    · exact .inr ⟨s, _, x, rfl, .same hlayout hrecorded hx hroom, .refl _ _ _⟩
    next hlong =>
      have hlong' : size + cfg.memheapSize < dataSize cfg x := by omega
      obtain ⟨tiles', hresized, htidy⟩ := hlayout.reallocShrink hrecorded hx hlong'
      have htidy' := htidy (hsize ▸ twelve_le_allocatedSize cfg newsize) (by omega)
      refine .inr ⟨_, tiles', ⟨x.start, x.start + size + cfg.memheapSize, true⟩, rfl, hresized,
        fun hold => ⟨(htidy' hold).1, fun hplaced hfit => (htidy' hold).2 hplaced ?_⟩⟩
      exact hfit.resolve_right hlong

end RtThread.Memheap
