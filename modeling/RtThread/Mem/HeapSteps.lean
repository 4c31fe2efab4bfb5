import RtThread.Mem.HeapImage

namespace RtThread.Mem

open RtThread.Lib

/-- `lfree` is some free block, or the end. -/
def LfreeOk (lfree heapEnd : Nat) (tiles : List Tile) : Prop :=
  lfree = heapEnd ∨ ∃ tile ∈ tiles, tile.start = lfree ∧ tile.used = false

structure Layout (cfg : MemConfig) (s : SmallMem) (tiles : List Tile) : Prop where
  image : Image cfg s.heap s.heapEnd tiles
  coalesced : Coalesced tiles
  lfree : LfreeOk s.lfree s.heapEnd tiles
  usedMem : s.usedMem = usedBytes tiles
  heapEnd : s.heapEnd = s.memSizeAligned + cfg.sizeofStructMem
  sizeAligned : s.memSizeAligned % cfg.alignSize = 0
  base : s.heapPtr % cfg.alignSize = 0
  fits : s.heapPtr + s.heapEnd + cfg.sizeofStructMem < 2 ^ 32

section Plug

variable {cfg : MemConfig} {s : SmallMem} {pre post tiles : List Tile} {m : Tile}

section Plug

variable (cfg s pre post m)

/-- `plug_holes` and the block behind. -/
def PlugsForward : Prop :=
  ∃ heap lfree stop rest, plugForward m.start s = { s with heap := heap, lfree := lfree } ∧
    Image cfg heap s.heapEnd (pre ++ ⟨m.start, stop, false⟩ :: rest) ∧
    LfreeOk lfree s.heapEnd (pre ++ ⟨m.start, stop, false⟩ :: rest) ∧
    Coalesced (⟨m.start, stop, false⟩ :: rest) ∧ usedTiles rest = usedTiles post ∧
    (∀ tile ∈ pre ++ rest, Kept cfg s.heap heap tile) ∧
    (UnusedFrom s.lfree (pre ++ post) →
      s.lfree ≤ m.start ∨ s.lfree = m.stop ∧ s.lfree ≠ s.heapEnd →
      UnusedFrom lfree (pre ++ ⟨m.start, stop, false⟩ :: rest))

/-- `plug_holes` and the block before. -/
def PlugsBackward : Prop :=
  ∃ heap lfree tiles, plugBackward m.start s = { s with heap := heap, lfree := lfree } ∧
    Image cfg heap s.heapEnd tiles ∧ LfreeOk lfree s.heapEnd tiles ∧
    Coalesced tiles ∧ usedTiles tiles = usedTiles (pre ++ post) ∧
    (∀ tile ∈ pre ++ post, tile.used = true → Kept cfg s.heap heap tile) ∧
    (UnusedFrom s.lfree (pre ++ m :: post) → UnusedFrom lfree tiles)

end Plug

section

variable (himage : Image cfg s.heap s.heapEnd (pre ++ m :: post))
include himage

theorem plugForward_spec (hm : m.used = false) (hpost : Coalesced post)
    (hlfree : LfreeOk s.lfree s.heapEnd (pre ++ m :: post)) : PlugsForward cfg s pre post m := by
  have hself : (⟨m.start, m.stop, false⟩ : Tile) = m := by
    cases m
    cases hm
    rfl
  have hlen := cfg.twelve_le
  have hbounds := himage.stop_le
  -- nothing changes if the block behind is used or there is none
  have hskip : usedOf s.heap m.stop ≠ 0 → Coalesced (m :: post) →
      (s.lfree = m.stop → s.lfree ≠ s.heapEnd → False) →
      PlugsForward cfg s pre post m := by
    intro hused hcoalesced hbehind
    refine ⟨s.heap, s.lfree, m.stop, post, ?_, ?_, ?_, ?_, rfl, fun _ _ => Kept.refl _ _ _,
      fun hfrom hbound => ?_⟩
    · simp only [plugForward, himage.nextOf_eq]
      exact if_neg fun h => hused h.2.1
    · rw [hself]
      exact himage
    · rw [hself]
      exact hlfree
    · rw [hself]
      exact hcoalesced
    · obtain ⟨hfromPre, hfromPost⟩ := unusedFrom_append.mp hfrom
      refine unusedFrom_append.mpr ⟨hfromPre, unusedFrom_cons.mpr ⟨fun _ => ?_, hfromPost⟩⟩
      exact hbound.resolve_right fun h => hbehind h.1 h.2
  cases post with
  | nil =>
    obtain ⟨-, -, hend⟩ := Tiles.middle_iff.mp himage.tiling
    refine hskip ?_ (List.isChain_singleton m) (fun hat hne => hne (hat.trans hend))
    rw [hend, himage.usedOf_end]
    decide
  | cons n rest =>
    have hsecond : Image cfg s.heap s.heapEnd ((pre ++ [m]) ++ n :: rest) := by
      simpa using himage
    obtain ⟨-, -, hstart, hn, hrest⟩ := Tiles.middle_iff.mp himage.tiling
    have hle := hrest.le
    have hnused := hsecond.usedOf_eq
    rw [hstart] at hnused
    cases hcase : n.used with
    | true =>
      refine hskip ?_ ?_ (fun hat hne => ?_)
      · rw [hnused, hcase]
        decide
      · exact List.isChain_cons.mpr ⟨fun r hr => by
          cases hr
          exact .inr hcase, hpost⟩
      · obtain ⟨tile, hmem, htile, hunused⟩ := hlfree.resolve_left hne
        have hpos : 0 < cfg.sizeofStructMem := by omega
        have hsame : tile = n :=
          himage.tiling.eq_of_start_eq hpos hmem (by simp) (by omega)
        rw [hsame, hcase] at hunused
        cases hunused
    | false =>
      obtain ⟨hmerge, hkept⟩ := himage.merge
      have hnext : nextOf s.heap n.start = n.stop := hsecond.nextOf_eq
      rw [hm] at hmerge hkept
      refine ⟨_, if s.lfree = n.start then m.start else s.lfree, n.stop, rest, ?_,
        hmerge, ?_, ?_, ?_, ?_, fun hfrom hbound => ?_⟩
      · have hkeep : nextOf (setNext s.heap m.start n.stop) n.start = n.stop := by
          have happly : headerOf (setNext s.heap m.start n.stop) n.start =
              headerOf s.heap n.start := headerOf_setNext_apart (.inl (by omega))
          exact (congrArg Header.next happly).trans hnext
        simp only [plugForward, himage.nextOf_eq, ← hstart, hnext, hkeep]
        rw [if_pos]
        refine ⟨by omega, ?_, by omega⟩
        rw [hstart, hnused, hcase]
        rfl
      · by_cases hmoved : s.lfree = n.start
        · rw [if_pos hmoved]
          exact .inr ⟨_, List.mem_append_right pre List.mem_cons_self, rfl, rfl⟩
        · rw [if_neg hmoved]
          rcases hlfree with hend | ⟨tile, hmem, htile, hunused⟩
          · exact .inl hend
          · rw [List.mem_append, List.mem_cons, List.mem_cons] at hmem
            rcases hmem with hin | rfl | rfl | hin
            · exact .inr ⟨tile, List.mem_append_left _ hin, htile, hunused⟩
            · exact .inr ⟨_, List.mem_append_right pre List.mem_cons_self, htile, rfl⟩
            · exact absurd htile.symm hmoved
            · exact .inr ⟨tile, by simp [hin], htile, hunused⟩
      · obtain ⟨hhead, htail⟩ := List.isChain_cons.mp hpost
        refine List.isChain_cons.mpr ⟨fun r hr => ?_, htail⟩
        have hcases := hhead r hr
        rw [hcase] at hcases
        exact hcases
      · exact (usedTiles_cons_of_unused hcase).symm
      · intro tile hmem
        apply hkept
        rw [List.mem_append, List.mem_cons]
        rcases List.mem_append.mp hmem with hin | hin
        · exact .inl hin
        · exact .inr (.inr hin)
      · obtain ⟨hfromPre, hfromPost⟩ := unusedFrom_append.mp hfrom
        obtain ⟨hat, hfromRest⟩ := unusedFrom_cons.mp hfromPost
        have hn := hat hcase
        split
        next hmoved =>
          refine unusedFrom_append.mpr ⟨?_, unusedFrom_cons.mpr ⟨fun _ => Nat.le_refl _, ?_⟩⟩
          · exact hfromPre.mono (by omega)
          · exact hfromRest.mono (by omega)
        next hmoved =>
          refine unusedFrom_append.mpr ⟨hfromPre, unusedFrom_cons.mpr ⟨fun _ => ?_, hfromRest⟩⟩
          show s.lfree ≤ m.start
          omega

theorem plugBackward_spec
    (hm : m.used = false) (hpre : Coalesced pre) (hpost : Coalesced (m :: post))
    (hlfree : LfreeOk s.lfree s.heapEnd (pre ++ m :: post)) :
    PlugsBackward cfg s pre post m := by
  have hlen := cfg.twelve_le
  have hskip : (prevOf s.heap m.start = m.start ∨ usedOf s.heap (prevOf s.heap m.start) ≠ 0) →
      Coalesced (pre ++ m :: post) →
      PlugsBackward cfg s pre post m := by
    intro hcond hcoalesced
    refine ⟨s.heap, s.lfree, pre ++ m :: post, ?_, himage, hlfree, hcoalesced, ?_,
      fun _ _ _ => Kept.refl _ _ _, fun hfrom => hfrom⟩
    · simp only [plugBackward]
      refine if_neg fun h => ?_
      rcases hcond with heq | hused
      · exact h.1 heq
      · exact hused h.2
    · rw [usedTiles_append, usedTiles_append, usedTiles_cons_of_unused hm]
  rcases List.eq_nil_or_concat pre with rfl | ⟨before, p, rfl⟩
  · obtain ⟨hstart, -, -⟩ := himage.tiling
    refine hskip (.inl ?_) hpost
    rw [himage.prevOf_eq, hstart]
    rfl
  · rw [List.concat_eq_append] at *
    have hprev := himage.prevOf_eq
    rw [lastStart_concat] at hprev
    have hfirst : Image cfg s.heap s.heapEnd (before ++ p :: m :: post) := by
      simpa using himage
    have hpused := hfirst.usedOf_eq
    cases hcase : p.used with
    | true =>
      refine hskip (.inr ?_) ?_
      · rw [hprev, hpused, hcase]
        decide
      · refine coalesced_middle.mpr ⟨hpre, (List.isChain_cons.mp hpost).2, ?_,
          (List.isChain_cons.mp hpost).1⟩
        intro left hleft
        rw [List.getLast?_concat, Option.mem_some_iff] at hleft
        exact .inl (hleft ▸ hcase)
    | false =>
      obtain ⟨hmerge, hkept⟩ := hfirst.merge
      obtain ⟨-, hp, hstart, hmlen, hrest⟩ := Tiles.middle_iff.mp hfirst.tiling
      have hnext : nextOf s.heap m.start = m.stop := himage.nextOf_eq
      rw [hcase] at hmerge hkept
      refine ⟨_, if s.lfree = m.start then p.start else s.lfree,
        before ++ ⟨p.start, m.stop, false⟩ :: post, ?_, hmerge, ?_, ?_, ?_, ?_,
        fun hfrom => ?_⟩
      · have hkeep : nextOf (setNext s.heap p.start m.stop) m.start = m.stop := by
          have happly : headerOf (setNext s.heap p.start m.stop) m.start =
              headerOf s.heap m.start := headerOf_setNext_apart (.inl (by omega))
          exact (congrArg Header.next happly).trans hnext
        simp only [plugBackward, hprev, hnext, hkeep]
        rw [if_pos]
        refine ⟨by omega, ?_⟩
        rw [hpused, hcase]
        rfl
      · by_cases hmoved : s.lfree = m.start
        · rw [if_pos hmoved]
          exact .inr ⟨_, List.mem_append_right before List.mem_cons_self, rfl, rfl⟩
        · rw [if_neg hmoved]
          rcases hlfree with hend | ⟨tile, hmem, htile, hunused⟩
          · exact .inl hend
          · rw [List.mem_append, List.mem_append, List.mem_singleton, List.mem_cons] at hmem
            rcases hmem with (hin | rfl) | rfl | hin
            · exact .inr ⟨tile, List.mem_append_left _ hin, htile, hunused⟩
            · exact .inr ⟨_, List.mem_append_right before List.mem_cons_self, htile, rfl⟩
            · exact absurd htile.symm hmoved
            · exact .inr ⟨tile, by simp [hin], htile, hunused⟩
      · obtain ⟨hbefore, -, hlast, -⟩ := coalesced_middle.mp hpre
        obtain ⟨hhead, htail⟩ := List.isChain_cons.mp hpost
        refine coalesced_middle.mpr ⟨hbefore, htail, ?_, ?_⟩
        · intro left hleft
          have hcases := hlast left hleft
          rwa [hcase] at hcases
        · intro right hright
          have hcases := hhead right hright
          rwa [hm] at hcases
      · rw [usedTiles_append, usedTiles_append, usedTiles_append,
          usedTiles_cons_of_unused rfl, usedTiles_cons_of_unused hcase]
        simp [usedTiles]
      · intro tile hmem hused
        apply hkept
        rw [List.mem_append, List.mem_cons]
        rw [List.mem_append, List.mem_append, List.mem_singleton] at hmem
        rcases hmem with (hin | rfl) | hin
        · exact .inl hin
        · rw [hcase] at hused
          cases hused
        · exact .inr (.inr hin)
      · obtain ⟨hfromPre, hfromPost⟩ := unusedFrom_append.mp hfrom
        obtain ⟨hfromBefore, hfromHole⟩ := unusedFrom_append.mp hfromPre
        have hp := (unusedFrom_cons.mp hfromHole).1 hcase
        rw [if_neg (by omega)]
        exact unusedFrom_append.mpr ⟨hfromBefore,
          unusedFrom_cons.mpr ⟨fun _ => hp, (unusedFrom_cons.mp hfromPost).2⟩⟩

theorem plugHoles_spec (hm : m.used = false) (hpre : Coalesced pre) (hpost : Coalesced post)
    (hlfree : LfreeOk s.lfree s.heapEnd (pre ++ m :: post)) :
    ∃ heap lfree tiles, plugHoles m.start s = some { s with heap := heap, lfree := lfree } ∧
      Image cfg heap s.heapEnd tiles ∧ LfreeOk lfree s.heapEnd tiles ∧
      Coalesced tiles ∧ usedTiles tiles = usedTiles (pre ++ post) ∧
      (∀ tile ∈ pre ++ post, tile.used = true → Kept cfg s.heap heap tile) ∧
      (UnusedFrom s.lfree (pre ++ post) →
        s.lfree ≤ m.start ∨ s.lfree = m.stop ∧ s.lfree ≠ s.heapEnd →
        UnusedFrom lfree tiles) := by
  have hlen := cfg.twelve_le
  have hbounds := himage.stop_le
  have hused := himage.usedOf_eq
  rw [hm] at hused
  obtain ⟨heap, lfree, stop, rest, hforward, himage', hlfree', hcoalesced, hsame, hkept, hfrom⟩ :=
    plugForward_spec himage hm hpost hlfree
  obtain ⟨heap', lfree', tiles, hbackward, himage'', hlfree'', hcoalesced', hsame', hkept',
      hfrom'⟩ :=
    plugBackward_spec (s := { s with heap := heap, lfree := lfree }) himage' rfl hpre
      hcoalesced hlfree'
  refine ⟨heap', lfree', tiles, ?_, himage'', hlfree'', hcoalesced', ?_, ?_,
    fun hold hbound => hfrom' (hfrom hold hbound)⟩
  · rw [plugHoles, if_pos ⟨by omega, hused⟩, hforward]
    exact congrArg some hbackward
  · rw [hsame', usedTiles_append, usedTiles_append, hsame]
  · intro tile hmem htile
    have hin : tile ∈ pre ++ rest := by
      rw [List.mem_append] at hmem ⊢
      refine hmem.imp_right fun hin => ?_
      have hfilter := mem_usedTiles.mpr ⟨hin, htile⟩
      rw [← hsame] at hfilter
      exact (mem_usedTiles.mp hfilter).1
    exact (hkept tile hin).trans (hkept' tile hin htile)

end

end Plug

/-- What a call leaves: the blocks `tiles`, among them those of `kept` with their
bytes. -/
structure Outcome (cfg : MemConfig) (s s' : SmallMem) (kept tiles : List Tile) : Prop where
  layout : Layout cfg s' tiles
  heapPtr : s'.heapPtr = s.heapPtr
  memSizeAligned : s'.memSizeAligned = s.memSizeAligned
  keeps : ∀ tile ∈ kept, tile ∈ tiles ∧ Kept cfg s.heap s'.heap tile

section Malloc

variable {cfg : MemConfig} {s : SmallMem} {pre post tiles : List Tile} {x : Tile}
  {heap : ByteMemory} {heapEnd : Nat}

theorem Image.start_mod (himage : Image cfg heap heapEnd (pre ++ x :: post)) :
    x.start % cfg.alignSize = 0 := by
  rcases List.eq_nil_or_concat pre with rfl | ⟨before, p, rfl⟩
  · obtain ⟨hstart, -, -⟩ := himage.tiling
    rw [hstart]
    exact Nat.zero_mod _
  · rw [List.concat_eq_append, List.append_assoc] at himage
    obtain ⟨-, -, hstart, -, -⟩ := Tiles.middle_iff.mp himage.tiling
    rw [hstart]
    exact himage.aligned p (by simp)

theorem Image.start_ne (himage : Image cfg heap heapEnd tiles) (hx : x ∈ tiles)
    (hunused : x.used = false) : ∀ tile ∈ usedTiles tiles, tile.start ≠ x.start := by
  intro tile htile heq
  obtain ⟨hmem, hused⟩ := mem_usedTiles.mp htile
  have hsame := himage.tiling.eq_of_start_eq (Nat.lt_of_lt_of_le (by decide) cfg.twelve_le)
    hmem hx heq
  rw [hsame, hunused] at hused
  cases hused

theorem findFree_spec {rest : List Tile} {fuel ptr : Nat}
    (himage : Image cfg heap heapEnd (pre ++ rest))
    (hrest : Tiles cfg.sizeofStructMem ptr rest heapEnd) (hfuel : rest.length < fuel) :
    ∃ lfree, findFree heap heapEnd fuel ptr = some lfree ∧
      LfreeOk lfree heapEnd (pre ++ rest) ∧ (lfree = heapEnd ∨ usedOf heap lfree = 0) ∧
      UnusedFrom lfree rest := by
  have hlen := cfg.twelve_le
  induction rest generalizing pre fuel ptr with
  | nil =>
    obtain ⟨fuel, rfl⟩ := Nat.exists_eq_succ_of_ne_zero (Nat.ne_of_gt hfuel)
    refine ⟨ptr, ?_, .inl hrest, .inl hrest, fun _ hmem => by cases hmem⟩
    rw [findFree, if_neg fun h => h.2 hrest]
  | cons tile rest ih =>
    obtain ⟨fuel, rfl⟩ := Nat.exists_eq_succ_of_ne_zero (Nat.ne_of_gt (Nat.zero_lt_of_lt hfuel))
    obtain ⟨rfl, hfit, htail⟩ := hrest
    have hle := htail.le
    have hused := himage.usedOf_eq
    cases hcase : tile.used with
    | true =>
      have hnext : Image cfg heap heapEnd ((pre ++ [tile]) ++ rest) := by
        simpa using himage
      obtain ⟨lfree, hfind, hok, hfree, hfrom⟩ :=
        ih hnext htail (Nat.lt_of_succ_lt_succ hfuel)
      refine ⟨lfree, ?_, by simpa using hok, hfree, unusedFrom_cons.mpr ⟨fun h => ?_, hfrom⟩⟩
      rw [findFree, if_pos, himage.nextOf_eq]
      · exact hfind
      · rw [hused, hcase]
        exact ⟨by decide, by omega⟩
      · rw [hcase] at h
        cases h
    | false =>
      rw [hcase] at hused
      have hrow : Tiles cfg.sizeofStructMem tile.start (tile :: rest) heapEnd :=
        ⟨rfl, hfit, htail⟩
      refine ⟨tile.start, ?_, .inr ⟨tile, by simp, rfl, hcase⟩, .inr hused, hrow.unusedFrom⟩
      rw [findFree, if_neg fun h => h.1 hused]

theorem createMem2_outside {mem mem2 i : Nat}
    (hi : i < mem2 ∨ mem2 + cfg.sizeofStructMem ≤ i) :
    createMem2 cfg mem mem2 heap i = heap i := by
  have hlen := cfg.twelve_le
  simp only [createMem2]
  rw [rtMemSetname_outside (by omega), setPrev_outside (by omega), setNext_outside (by omega),
    setUsed_outside (by omega), setMagic_outside (by omega)]

theorem headerOf_createMem2 {mem mem2 : Nat} (hapart : mem + 12 ≤ mem2)
    (hmem : mem < 2 ^ 32) : headerOf (createMem2 cfg mem mem2 heap) mem2 =
      ⟨heapMagic, 0, nextOf heap mem, mem⟩ := by
  have hnext : nextOf (setUsed (setMagic heap mem2 heapMagic) mem2 0) mem = nextOf heap mem := by
    have happly : headerOf (setUsed (setMagic heap mem2 heapMagic) mem2 0) mem =
        headerOf heap mem := by
      rw [headerOf_setUsed_apart (.inr hapart), headerOf_setMagic_apart (.inr hapart)]
    exact congrArg Header.next happly
  have hlt : nextOf heap mem < 2 ^ 32 := ByteMemory.readWord_lt
  simp only [createMem2, headerOf_rtMemSetname, hnext]
  rw [headerOf_setPrev hmem, headerOf_setNext hlt, headerOf_setUsed (by decide),
    headerOf_setMagic (by decide)]

/-- The block at `x.start` is now used from its start on; `rest` follows it. -/
structure Taken (cfg : MemConfig) (s s' : SmallMem) (pre post : List Tile) (x : Tile)
    (size : Nat) (tile : Tile) (rest : List Tile) : Prop where
  start : tile.start = x.start
  used : tile.used = true
  room : size ≤ tile.stop - (tile.start + cfg.sizeofStructMem)
  image : Image cfg s'.heap s.heapEnd (pre ++ tile :: rest)
  coalesced : Coalesced (pre ++ tile :: rest)
  usedMem : s'.usedMem = usedBytes (pre ++ tile :: rest)
  keeps : ∀ t ∈ pre ++ post, t ∈ pre ++ rest ∧ Kept cfg s.heap s'.heap t
  lfree : s'.lfree = s.lfree
  heapEnd : s'.heapEnd = s.heapEnd
  heapPtr : s'.heapPtr = s.heapPtr
  memSizeAligned : s'.memSizeAligned = s.memSizeAligned

theorem add32_usedBytes (himage : Image cfg heap heapEnd tiles) {old size : Nat}
    (hsum : usedBytes tiles = old + size) : add32 old size = usedBytes tiles := by
  have hle := usedBytes_le himage.tiling
  have hsmall := himage.small
  rw [add32, ← hsum, Nat.mod_eq_of_lt (by omega)]

theorem mallocSplit_spec (hlayout : Layout cfg s (pre ++ x :: post)) (hx : x.used = false)
    {size : Nat} (haligned : size % cfg.alignSize = 0)
    (hroom : x.start + cfg.sizeofStructMem + size + cfg.sizeofStructMem ≤ x.stop) :
    ∃ tile rest, Taken cfg s (mallocSplit cfg size x.start s) pre post x size tile rest := by
  have himage := hlayout.image
  have hlen := cfg.twelve_le
  have hbounds := himage.stop_le
  have hsmall := himage.small
  have hheader := himage.header
  generalize hmid : x.start + cfg.sizeofStructMem + size = mid at hroom
  have hmidAligned : mid % cfg.alignSize = 0 := by
    rw [← hmid, Nat.add_mod, haligned, Nat.add_mod x.start, himage.start_mod,
      cfg.sizeofStructMem_mod]
    simp
  have hfirst : headerOf (setUsed (setNext (createMem2 cfg x.start mid s.heap) x.start mid)
      x.start 1) x.start = ⟨heapMagic, (true : Bool).toNat, mid, lastStart 0 pre⟩ := by
    rw [headerOf_setUsed (by decide), headerOf_setNext (by omega),
      headerOf_congr fun i _ hi => createMem2_outside (.inl (by omega)), hheader]
    rfl
  have hsecond : headerOf (setUsed (setNext (createMem2 cfg x.start mid s.heap) x.start mid)
      x.start 1) mid = ⟨heapMagic, 0, x.stop, x.start⟩ := by
    rw [headerOf_setUsed_apart (.inl (by omega)), headerOf_setNext_apart (.inl (by omega)),
      headerOf_createMem2 (by omega) (by omega), himage.nextOf_eq]
  have hsame : ∀ i, (i < x.start ∨ x.start + cfg.sizeofStructMem ≤ i) →
      (i < mid ∨ mid + cfg.sizeofStructMem ≤ i) →
      setUsed (setNext (createMem2 cfg x.start mid s.heap) x.start mid) x.start 1 i = s.heap i := by
    intro i hi hj
    rw [setUsed_outside (by omega), setNext_outside (by omega), createMem2_outside hj]
  obtain ⟨hsplit, hkept⟩ := himage.split (by omega) hroom hmidAligned hlayout.heapEnd
    hfirst hsecond hsame
  obtain ⟨hcpre, hcpost, -, hcright⟩ := coalesced_middle.mp hlayout.coalesced
  have hused : usedBytes (pre ++ ⟨x.start, mid, true⟩ :: ⟨mid, x.stop, false⟩ :: post) =
      s.usedMem + (size + cfg.sizeofStructMem) := by
    rw [hlayout.usedMem, usedBytes_append, usedBytes_cons, usedBytes_cons, usedBytes_append,
      usedBytes_cons, hx]
    simp only [if_true, Bool.false_eq_true, if_false]
    omega
  refine ⟨⟨x.start, mid, true⟩, ⟨mid, x.stop, false⟩ :: post, rfl, rfl, ?_, ?_, ?_, ?_, ?_,
    rfl, rfl, rfl, rfl⟩
  · simp only
    omega
  · simp only [mallocSplit, countUsed, hmid]
    exact hsplit
  · refine coalesced_middle.mpr ⟨hcpre, List.isChain_cons.mpr ⟨fun r hr => ?_, hcpost⟩,
      fun _ _ => .inr rfl, fun _ _ => .inl rfl⟩
    have hcases := hcright r hr
    rwa [hx] at hcases
  · simp only [mallocSplit, countUsed]
    exact add32_usedBytes hsplit hused
  · intro t ht
    rw [List.mem_append] at ht
    have hin : t ∈ pre ++ ⟨mid, x.stop, false⟩ :: post := by
      rw [List.mem_append]
      exact ht.imp_right (List.mem_cons_of_mem _)
    refine ⟨hin, ?_⟩
    simp only [mallocSplit, countUsed, hmid]
    apply hkept
    rw [List.mem_append] at hin ⊢
    exact hin.imp_right (List.mem_cons_of_mem _)

theorem mallocWhole_spec (hlayout : Layout cfg s (pre ++ x :: post)) (hx : x.used = false)
    {size : Nat} (hroom : size ≤ x.stop - (x.start + cfg.sizeofStructMem)) :
    ∃ tile rest, Taken cfg s (mallocWhole x.start s) pre post x size tile rest := by
  have himage := hlayout.image
  have hlen := cfg.twelve_le
  have hbounds := himage.stop_le
  have hsmall := himage.small
  have hheader : headerOf (setUsed s.heap x.start 1) x.start =
      ⟨heapMagic, (true : Bool).toNat, x.stop, lastStart 0 pre⟩ := by
    rw [headerOf_setUsed (by decide), himage.header]
    rfl
  have hnext : nextOf (setUsed s.heap x.start 1) x.start = x.stop :=
    congrArg Header.next hheader
  obtain ⟨hmark, hkept⟩ := himage.mark hheader
    fun i hi => setUsed_outside (by omega)
  obtain ⟨hcpre, hcpost, -, -⟩ := coalesced_middle.mp hlayout.coalesced
  have hused : usedBytes (pre ++ ⟨x.start, x.stop, true⟩ :: post) =
      s.usedMem + (x.stop - x.start) := by
    rw [hlayout.usedMem, usedBytes_append, usedBytes_cons, usedBytes_append, usedBytes_cons, hx]
    simp only [if_true, Bool.false_eq_true, if_false]
    omega
  refine ⟨⟨x.start, x.stop, true⟩, post, rfl, rfl, hroom, hmark, ?_, ?_, ?_, rfl, rfl, rfl, rfl⟩
  · exact coalesced_middle.mpr ⟨hcpre, hcpost, fun _ _ => .inr rfl, fun _ _ => .inl rfl⟩
  · simp only [mallocWhole, countUsed, hnext]
    rw [sub32_eq (by omega) (by omega)]
    exact add32_usedBytes hmark hused
  · intro t ht
    refine ⟨ht, hkept t ?_⟩
    rw [List.mem_append] at ht ⊢
    exact ht.imp_right (List.mem_cons_of_mem _)

theorem and_alignSize {a : Nat} (ha : a % cfg.alignSize = 0) : a &&& (cfg.alignSize - 1) = 0 := by
  rw [MemConfig.alignSize, Nat.and_two_pow_sub_one_eq_mod]
  exact ha

theorem mallocFound_spec (hlayout : Layout cfg s (pre ++ x :: post)) (hx : x.used = false)
    {size : Nat} (haligned : size % cfg.alignSize = 0)
    (hroom : size ≤ x.stop - (x.start + cfg.sizeofStructMem)) (self : List UInt8) :
    ∃ s' tiles tile,
      mallocFound cfg self size x.start s = some (s.heapPtr + x.start + cfg.sizeofStructMem, s') ∧
      Outcome cfg s s' (usedTiles (pre ++ x :: post)) tiles ∧ tile ∈ usedTiles tiles ∧
      tile.start = x.start ∧ size ≤ tile.stop - (tile.start + cfg.sizeofStructMem) ∧
      (UnusedFrom s.lfree (pre ++ x :: post) → UnusedFrom s'.lfree tiles) := by
  have hlen := cfg.twelve_le
  have hbounds := hlayout.image.stop_le
  have hsmall := hlayout.image.small
  have hpayload : sub32 (nextOf s.heap x.start) (x.start + cfg.sizeofStructMem) =
      x.stop - (x.start + cfg.sizeofStructMem) := by
    rw [hlayout.image.nextOf_eq, sub32_eq (by omega) (by omega)]
  obtain ⟨s1, tile, rest, hs1, htaken⟩ : ∃ s1 tile rest,
      (if size + cfg.sizeofStructMem + cfg.minSizeAligned ≤
          sub32 (nextOf s.heap x.start) (x.start + cfg.sizeofStructMem) then
        mallocSplit cfg size x.start s
      else mallocWhole x.start s) = s1 ∧ Taken cfg s s1 pre post x size tile rest := by
    split
    next hsplit =>
      rw [hpayload] at hsplit
      obtain ⟨tile, rest, htaken⟩ := mallocSplit_spec hlayout hx haligned (by omega)
      exact ⟨_, tile, rest, rfl, htaken⟩
    · obtain ⟨tile, rest, htaken⟩ := mallocWhole_spec hlayout hx hroom
      exact ⟨_, tile, rest, rfl, htaken⟩
  have hlfree1 := htaken.lfree
  have hend1 := htaken.heapEnd
  have hptr1 := htaken.heapPtr
  have hsize1 := htaken.memSizeAligned
  have hstart := htaken.start
  have htile : (⟨tile.start, tile.stop, true⟩ : Tile) = tile := by
    rw [← htaken.used]
  have hheader := htaken.image.header
  rw [htaken.used] at hheader
  have hnamed : headerOf (rtMemSetname cfg x.start self (setMagic s1.heap x.start heapMagic))
      tile.start = ⟨heapMagic, (true : Bool).toNat, tile.stop, lastStart 0 pre⟩ := by
    rw [hstart, headerOf_rtMemSetname, headerOf_setMagic (by decide), ← hstart, hheader]
  have hsame : ∀ i, (i < tile.start ∨ tile.start + cfg.sizeofStructMem ≤ i) →
      rtMemSetname cfg x.start self (setMagic s1.heap x.start heapMagic) i = s1.heap i := by
    intro i hi
    rw [rtMemSetname_outside (by omega), setMagic_outside (by omega)]
  generalize hheap : rtMemSetname cfg x.start self (setMagic s1.heap x.start heapMagic) = heap
    at hnamed hsame
  obtain ⟨himage, hkept⟩ := htaken.image.mark hnamed hsame
  rw [htile] at himage
  obtain ⟨hpre, htiles, hrest⟩ := Tiles.middle_iff.mp himage.tiling
  have hrow : Tiles cfg.sizeofStructMem x.start (tile :: rest) s.heapEnd :=
    ⟨hstart, hstart ▸ htiles, hrest⟩
  obtain ⟨lfree, hfind, hlfree, hfrom⟩ : ∃ lfree,
      nextLfree x.start { s1 with heap := heap } = some lfree ∧
      LfreeOk lfree s.heapEnd (pre ++ tile :: rest) ∧
      (UnusedFrom s.lfree (pre ++ x :: post) → UnusedFrom lfree (pre ++ tile :: rest)) := by
    simp only [nextLfree, hlfree1, hend1]
    split
    next heq =>
      have hcount := hrow.length_le (by omega)
      have hfuel : (tile :: rest).length < s.heapEnd + 1 := by omega
      obtain ⟨lfree, hfind, hok, hfree, hfromRow⟩ := findFree_spec himage hrow hfuel
      refine ⟨lfree, ?_, hok, fun hold => unusedFrom_append.mpr ⟨?_, hfromRow⟩⟩
      · rw [← heq, hfind, Option.filter_some, if_pos (by simpa using hfree)]
      · exact hpre.unusedFrom_of_le (by omega) (unusedFrom_append.mp hold).1 (by omega) lfree
    next hne =>
      refine ⟨s.lfree, rfl, ?_, fun hold => ?_⟩
      rotate_left
      · obtain ⟨hfromPre, hfromPost⟩ := unusedFrom_append.mp hold
        have hle := (unusedFrom_cons.mp hfromPost).1 hx
        exact unusedFrom_append.mpr ⟨hfromPre, hrow.unusedFrom.mono hle⟩
      rcases hlayout.lfree with hend | ⟨t, hmem, ht, hunused⟩
      · exact .inl hend
      · have hin : t ∈ pre ++ post := by
          rw [List.mem_append, List.mem_cons] at hmem
          rw [List.mem_append]
          rcases hmem with hin | rfl | hin
          · exact .inl hin
          · exact absurd ht hne
          · exact .inr hin
        refine .inr ⟨t, ?_, ht, hunused⟩
        have hkeep := (htaken.keeps t hin).1
        rw [List.mem_append] at hkeep ⊢
        exact hkeep.imp_right (List.mem_cons_of_mem _)
  have hbase := hlayout.base
  have hstartMod := hlayout.image.start_mod
  have haddr : (s.heapPtr + x.start) % cfg.alignSize = 0 := by
    rw [Nat.add_mod, hbase, hstartMod]
    simp
  have haddr' : (s.heapPtr + x.start + cfg.sizeofStructMem) % cfg.alignSize = 0 := by
    rw [Nat.add_mod, haddr, cfg.sizeofStructMem_mod]
    simp
  refine ⟨{ s1 with heap := heap, lfree := lfree }, pre ++ tile :: rest, tile, ?_, ?_, ?_,
    hstart, htaken.room, hfrom⟩
  · have hroom' := htaken.room
    simp only [mallocFound, hs1, hheap, hfind, Option.bind_eq_bind, Option.bind_some]
    rw [hend1, hptr1, if_pos ⟨by omega, haddr', and_alignSize haddr⟩]
  · refine ⟨⟨?_, htaken.coalesced, ?_, htaken.usedMem, ?_, ?_, ?_, ?_⟩, hptr1, hsize1, ?_⟩
    · simp only [hend1]
      exact himage
    · simp only [hend1]
      exact hlfree
    · simp only [hend1, hsize1]
      exact hlayout.heapEnd
    · simp only [hsize1]
      exact hlayout.sizeAligned
    · simp only [hptr1]
      exact hbase
    · simp only [hptr1, hend1]
      exact hlayout.fits
    · intro t ht
      obtain ⟨hmem, hused⟩ := mem_usedTiles.mp ht
      have hin : t ∈ pre ++ post := by
        rw [List.mem_append, List.mem_cons] at hmem
        rw [List.mem_append]
        rcases hmem with hin | rfl | hin
        · exact .inl hin
        · rw [hx] at hused
          cases hused
        · exact .inr hin
      obtain ⟨hkeep, hbytes⟩ := htaken.keeps t hin
      have hin' : t ∈ pre ++ tile :: rest := by
        rw [List.mem_append] at hkeep ⊢
        exact hkeep.imp_right (List.mem_cons_of_mem _)
      exact ⟨hin', hbytes.trans (hkept t hin')⟩
  · exact mem_usedTiles.mpr ⟨by simp, htaken.used⟩

/-- What the loop of `rt_malloc` takes: a free block that is large enough, if it starts
where the loop still looks. -/
def Searched (cfg : MemConfig) (s : SmallMem) (size : Nat) (tile : Tile) : Prop :=
  tile.used = false ∧ tile.start + cfg.sizeofStructMem + size ≤ tile.stop ∧
    tile.start + size < s.memSizeAligned

theorem mallocLoop_spec {rest : List Tile} {self : List UInt8} {size fuel ptr : Nat}
    (himage : Image cfg s.heap s.heapEnd (pre ++ rest))
    (hend : s.heapEnd = s.memSizeAligned + cfg.sizeofStructMem)
    (hsize : size ≤ s.memSizeAligned)
    (hrest : Tiles cfg.sizeofStructMem ptr rest s.heapEnd) (hfuel : rest.length < fuel) :
    (mallocLoop cfg self size s fuel ptr = some (0, s) ∧
        ∀ tile ∈ rest, ¬ Searched cfg s size tile) ∨
      ∃ before x after, pre ++ rest = before ++ x :: after ∧ x ∈ rest ∧
        Searched cfg s size x ∧
        mallocLoop cfg self size s fuel ptr = mallocFound cfg self size x.start s := by
  have hlen := cfg.twelve_le
  have hsmall := himage.small
  have hbound : sub32 s.memSizeAligned size = s.memSizeAligned - size :=
    sub32_eq hsize (by omega)
  induction rest generalizing pre fuel ptr with
  | nil =>
    obtain ⟨fuel, rfl⟩ := Nat.exists_eq_succ_of_ne_zero (Nat.ne_of_gt hfuel)
    have hptr : ptr = s.heapEnd := hrest
    refine .inl ⟨?_, fun _ hmem => by cases hmem⟩
    rw [mallocLoop, if_neg (by omega)]
  | cons tile rest ih =>
    obtain ⟨fuel, rfl⟩ := Nat.exists_eq_succ_of_ne_zero (Nat.ne_of_gt (Nat.zero_lt_of_lt hfuel))
    have hrow := hrest
    obtain ⟨rfl, hfit, htail⟩ := hrest
    have hle := htail.le
    simp only [mallocLoop, himage.nextOf_eq, himage.usedOf_eq, hbound]
    rw [sub32_eq (by omega) (by omega)]
    split
    next hlooks =>
      split
      next hfound =>
        refine .inr ⟨pre, tile, rest, rfl, List.mem_cons_self, ⟨?_, by omega, by omega⟩, rfl⟩
        cases hused : tile.used with
        | false => rfl
        | true =>
          rw [hused] at hfound
          exact absurd hfound.1 (by decide)
      next hnot =>
        have hnext : Image cfg s.heap s.heapEnd ((pre ++ [tile]) ++ rest) := by
          simpa using himage
        rcases ih hnext htail (Nat.lt_of_succ_lt_succ hfuel) with
          ⟨hnull, hnone⟩ | ⟨before, x, after, hsplit, hx, hfound⟩
        · refine .inl ⟨hnull, fun t ht hsearched => ?_⟩
          rcases List.mem_cons.mp ht with rfl | ht
          · obtain ⟨hunused, hroom, -⟩ := hsearched
            refine hnot ⟨?_, by omega⟩
            rw [hunused]
            rfl
          · exact hnone t ht hsearched
        · refine .inr ⟨before, x, after, ?_, List.mem_cons_of_mem _ hx, hfound⟩
          rw [← hsplit, List.append_assoc, List.singleton_append]
    next hlate =>
      -- the blocks behind start even later
      refine .inl ⟨rfl, fun t ht hsearched => ?_⟩
      have hbounds := hrow.bounds ht
      have hearly := hsearched.2.2
      omega

/-- The subtraction in the loop's condition wraps if the heap is smaller than what is
asked for; then the loop does not end. -/
theorem mallocLoop_wraps {rest : List Tile} {self : List UInt8} {size ptr : Nat}
    (himage : Image cfg s.heap s.heapEnd (pre ++ rest))
    (hend : s.heapEnd = s.memSizeAligned + cfg.sizeofStructMem)
    (hsize : s.memSizeAligned < size) (hlimit : size + cfg.sizeofStructMem < 2 ^ 32)
    (hrest : Tiles cfg.sizeofStructMem ptr rest s.heapEnd) (fuel : Nat) :
    mallocLoop cfg self size s fuel ptr = none := by
  have hsmall := himage.small
  have hbound : sub32 s.memSizeAligned size = s.memSizeAligned + (2 ^ 32 - size) := by
    rw [sub32, Nat.mod_eq_of_lt (by omega)]
  have hlooks : ptr < s.memSizeAligned + (2 ^ 32 - size) := by
    have hle := hrest.le
    omega
  induction fuel generalizing pre rest ptr with
  | zero => rfl
  | succ fuel ih =>
    cases rest with
    | nil =>
      have hptr : ptr = s.heapEnd := hrest
      rw [mallocLoop, hbound, if_pos hlooks, hptr, himage.usedOf_end, himage.nextOf_end,
        if_neg (fun h => absurd h.1 (by decide))]
      exact ih himage rfl (by omega)
    | cons tile rest =>
      obtain ⟨rfl, hfit, htail⟩ := hrest
      have hle := htail.le
      have hnext : Image cfg s.heap s.heapEnd ((pre ++ [tile]) ++ rest) := by
        simpa using himage
      rw [mallocLoop, hbound, if_pos hlooks, himage.nextOf_eq,
        sub32_eq (by omega) (by omega), if_neg (fun h => by omega)]
      exact ih hnext htail (by omega)

end Malloc

end RtThread.Mem
