import RtThread.Mem.HeapCalls

namespace RtThread.Mem

open RtThread.Lib HeapSystem SmallMem

variable {cfg : MemConfig} {tiles : List Tile}

structure HeapSystem.Inv (cfg : MemConfig) (s : HeapSystem) (tiles : List Tile) : Prop where
  layout : Layout cfg s.toSmallMem tiles
  nodup : (s.live.map Live.ptr).Nodup
  live : ∀ x ∈ s.live, 0 < x.size ∧ ∃ tile ∈ usedTiles tiles,
    x.ptr = s.payload cfg tile ∧
      x.size ≤ tile.stop - (tile.start + cfg.sizeofStructMem)

def SmallMem.byteAt (s : SmallMem) (address : Nat) : UInt8 := s.heap (address - s.heapPtr)

def SmallMem.payloadSize (cfg : MemConfig) (s : SmallMem) (rmem : Nat) : Nat :=
  let mem := rmem - cfg.sizeofStructMem - s.heapPtr
  nextOf s.heap mem - (mem + cfg.sizeofStructMem)

def HeapOp.target : HeapOp → Nat
  | .malloc .. => 0
  | .realloc _ rmem _ => rmem
  | .free rmem => rmem
  | .store rmem _ _ => rmem

structure HeapSystem.StepOk (cfg : MemConfig) (s : HeapSystem) (op : HeapOp)
    (s' : HeapSystem) : Prop where
  untouched : ∀ x ∈ s.live, x.ptr ≠ op.target → ∀ i < s.payloadSize cfg x.ptr,
    s'.byteAt (x.ptr + i) = s.byteAt (x.ptr + i)
  resized : ∀ self rmem newsize, op = .realloc self rmem newsize → s'.result ≠ 0 →
    rmem ≠ 0 → ∀ i < min (s.payloadSize cfg rmem) newsize,
      s'.byteAt (s'.result + i) = s.byteAt (rmem + i)

section Payloads

variable {s s' : SmallMem} {tile : Tile}

theorem payload_sub (s : SmallMem) (tile : Tile) (i : Nat) :
    s.payload cfg tile + i - s.heapPtr = tile.start + cfg.sizeofStructMem + i := by
  rw [payload]
  omega

theorem payload_congr (hptr : s'.heapPtr = s.heapPtr) :
    s'.payload cfg tile = s.payload cfg tile := by
  rw [payload, payload, hptr]

theorem payload_inj {other : Tile} (heq : s.payload cfg tile = s.payload cfg other) :
    tile.start = other.start := by
  rw [payload, payload] at heq
  omega

theorem Layout.nextOf_mem (hlayout : Layout cfg s tiles) (hmem : tile ∈ tiles) :
    nextOf s.heap tile.start = tile.stop := by
  obtain ⟨pre, post, rfl⟩ := List.append_of_mem hmem
  exact hlayout.image.nextOf_eq

theorem Layout.payloadSize_eq (hlayout : Layout cfg s tiles) (hmem : tile ∈ tiles) :
    s.payloadSize cfg (s.payload cfg tile) = tile.stop - (tile.start + cfg.sizeofStructMem) := by
  have hstart : s.payload cfg tile - cfg.sizeofStructMem - s.heapPtr = tile.start := by
    rw [payload]
    omega
  simp only [payloadSize, hstart, hlayout.nextOf_mem hmem]

theorem Kept.byteAt (hkept : Kept cfg s.heap s'.heap tile) (hptr : s'.heapPtr = s.heapPtr)
    {i : Nat} (hi : i < tile.stop - (tile.start + cfg.sizeofStructMem)) :
    s'.byteAt (s.payload cfg tile + i) = s.byteAt (s.payload cfg tile + i) := by
  simp only [SmallMem.byteAt, hptr, payload_sub]
  exact hkept _ (by omega) (by omega)

end Payloads

section Steps

variable {s : HeapSystem} {mem : SmallMem} {x : Tile} {kept tiles' : List Tile}

theorem HeapSystem.Inv.ptr_pos (hinv : s.Inv cfg tiles) {x : Live} (hx : x ∈ s.live) :
    x.ptr ≠ 0 := by
  obtain ⟨-, tile, -, hptr, -⟩ := hinv.live x hx
  have hlen := cfg.twelve_le
  rw [hptr, payload]
  omega

theorem HeapSystem.Inv.exists_tile (hinv : s.Inv cfg tiles) {rmem : Nat}
    (hmem : rmem ∈ s.live.map Live.ptr) :
    ∃ tile ∈ usedTiles tiles, rmem = s.payload cfg tile ∧
      tile.start + cfg.sizeofStructMem < tile.stop := by
  obtain ⟨x, hx, rfl⟩ := List.mem_map.mp hmem
  obtain ⟨hpos, tile, htile, hptr, hsize⟩ := hinv.live x hx
  exact ⟨tile, htile, hptr, by omega⟩

theorem mem_dropLive {y : Live} {rmem : Nat} {live : List Live} :
    y ∈ dropLive rmem live ↔ y ∈ live ∧ y.ptr ≠ rmem := by
  simp [dropLive]

theorem dropLive_nodup {rmem : Nat} {live : List Live} (hnodup : (live.map Live.ptr).Nodup) :
    ((dropLive rmem live).map Live.ptr).Nodup :=
  hnodup.sublist (List.filter_sublist.map _)

theorem HeapSystem.Inv.live_kept (hinv : s.Inv cfg tiles)
    (houtcome : Outcome cfg s.toSmallMem mem kept tiles') {y : Live} (hy : y ∈ s.live)
    (hkept : ∀ tile ∈ usedTiles tiles, y.ptr = s.payload cfg tile → tile ∈ kept) :
    (0 < y.size ∧ ∃ tile ∈ usedTiles tiles', y.ptr = mem.payload cfg tile ∧
      y.size ≤ tile.stop - (tile.start + cfg.sizeofStructMem)) ∧
    ∀ i < s.payloadSize cfg y.ptr, mem.byteAt (y.ptr + i) = s.byteAt (y.ptr + i) := by
  obtain ⟨hpos, tile, htile, hptr, hsize⟩ := hinv.live y hy
  obtain ⟨hmem, hbytes⟩ := houtcome.keeps tile (hkept tile htile hptr)
  obtain ⟨hin, hused⟩ := mem_usedTiles.mp htile
  refine ⟨⟨hpos, tile, mem_usedTiles.mpr ⟨hmem, hused⟩, ?_, hsize⟩, fun i hi => ?_⟩
  · rw [payload_congr houtcome.heapPtr]
    exact hptr
  · rw [hptr, hinv.layout.payloadSize_eq hin] at hi
    rw [hptr]
    exact hbytes.byteAt houtcome.heapPtr hi

theorem live_mem_others {y : Live} (hne : y.ptr ≠ s.payload cfg x) :
    ∀ tile ∈ usedTiles tiles, y.ptr = s.payload cfg tile → tile ∈ others x tiles := by
  intro tile htile hptr
  refine mem_others.mpr ⟨htile, fun heq => hne ?_⟩
  rw [hptr, heq]

section

variable (hinv : s.Inv cfg tiles)
include hinv

theorem HeapSystem.Inv.null :
    Inv cfg { s with result := 0 } tiles := ⟨hinv.layout, hinv.nodup, hinv.live⟩

theorem HeapSystem.Inv.give (houtcome : Outcome cfg s.toSmallMem mem kept tiles') {live : List Live}
    (hlive : ∀ y ∈ live, y ∈ s.live)
    (hkept : ∀ y ∈ live, ∀ tile ∈ usedTiles tiles, y.ptr = s.payload cfg tile → tile ∈ kept)
    (hnodup : (live.map Live.ptr).Nodup) {tile : Tile} (htile : tile ∈ usedTiles tiles')
    (hfresh : ∀ t ∈ kept, t.start ≠ tile.start) {size : Nat} (hpos : 0 < size)
    (hroom : size ≤ tile.stop - (tile.start + cfg.sizeofStructMem)) (result : Nat) :
    Inv cfg
      { toSmallMem := mem, live := ⟨s.payload cfg tile, size⟩ :: live, result := result }
      tiles' := by
  refine ⟨houtcome.layout, ?_, ?_⟩
  · refine List.nodup_cons.mpr ⟨fun hmem => ?_, hnodup⟩
    obtain ⟨y, hy, hptr⟩ := List.mem_map.mp hmem
    obtain ⟨-, t, ht, hyptr, -⟩ := hinv.live y (hlive y hy)
    apply hfresh t (hkept y hy t ht hyptr)
    exact payload_inj (hyptr.symm.trans hptr)
  · intro y hy
    rcases List.mem_cons.mp hy with rfl | hy
    · refine ⟨hpos, tile, htile, ?_, hroom⟩
      exact (payload_congr houtcome.heapPtr).symm
    · exact (hinv.live_kept houtcome (hlive y hy) (hkept y hy)).1

theorem HeapSystem.Inv.malloc {self : List UInt8} {size : Nat}
    {s' : HeapSystem} (hexec : s.exec cfg (.malloc self size) = some s') :
    (∃ tiles', s'.Inv cfg tiles') ∧ s.StepOk cfg (.malloc self size) s' := by
  have hsize : size ≤ s.memSizeAligned := by
    by_contra hnot
    simp [exec, enabled, hnot] at hexec
  simp only [exec, enabled, hsize, decide_true, if_true] at hexec
  rcases rtMalloc_spec hinv.layout hsize self with ⟨hnone, -⟩ | hnull |
    ⟨mem, tiles', tile, hmalloc, houtcome, htile, hfresh, hroom, -⟩
  · rw [hnone] at hexec
    cases hexec
  · rw [hnull] at hexec
    cases hexec
    exact ⟨⟨tiles, hinv.null⟩, fun _ _ _ _ _ => rfl, fun _ _ _ hop => by cases hop⟩
  · have hlen := cfg.twelve_le
    have hnotNull : s.payload cfg tile ≠ 0 := by
      rw [payload]
      omega
    have hpos : 0 < size := by
      apply Nat.pos_of_ne_zero
      intro hzero
      rw [rtMalloc, if_pos hzero] at hmalloc
      exact hnotNull (congrArg Prod.fst (Option.some.inj hmalloc)).symm
    rw [hmalloc] at hexec
    simp only [Option.map_some, if_neg hnotNull, Option.some.injEq] at hexec
    subst hexec
    have hkept : ∀ y ∈ s.live, ∀ t ∈ usedTiles tiles, y.ptr = s.payload cfg t →
        t ∈ usedTiles tiles := fun _ _ t ht _ => ht
    refine ⟨⟨tiles', ?_⟩, ?_, fun _ _ _ hop => by cases hop⟩
    · exact hinv.give houtcome (fun _ hy => hy) hkept hinv.nodup htile hfresh hpos hroom _
    · intro y hy _
      exact (hinv.live_kept houtcome hy (hkept y hy)).2

theorem dropLive_zero : dropLive 0 s.live = s.live := by
  refine List.filter_eq_self.mpr fun y hy => ?_
  simpa using hinv.ptr_pos hy

theorem HeapSystem.Inv.free {rmem : Nat} {s' : HeapSystem}
    (hexec : s.exec cfg (.free rmem) = some s') :
    (∃ tiles', s'.Inv cfg tiles') ∧ s.StepOk cfg (.free rmem) s' := by
  have henabled : rmem = 0 ∨ rmem ∈ s.live.map Live.ptr := by
    by_contra hnot
    simp only [exec, enabled, decide_eq_true_eq, if_neg hnot] at hexec
    cases hexec
  simp only [exec, enabled, decide_eq_true_eq, if_pos henabled] at hexec
  rcases henabled with rfl | hmem
  · rw [rtFree, if_pos rfl] at hexec
    cases hexec
    refine ⟨⟨tiles, ?_⟩, fun _ _ _ _ _ => rfl, fun _ _ _ hop => by cases hop⟩
    simp only [dropLive_zero hinv]
    exact hinv.null
  · obtain ⟨x, hx, rfl, hpos⟩ := hinv.exists_tile hmem
    obtain ⟨mem, tiles', hfree, houtcome, -⟩ := rtFree_spec hinv.layout hx hpos
    rw [hfree] at hexec
    cases hexec
    refine ⟨⟨tiles', houtcome.layout, dropLive_nodup hinv.nodup, fun y hy => ?_⟩, ?_,
      fun _ _ _ hop => by cases hop⟩
    · obtain ⟨hlive, hne⟩ := mem_dropLive.mp hy
      exact (hinv.live_kept houtcome hlive (live_mem_others hne)).1
    · intro y hy hne
      exact (hinv.live_kept houtcome hy (live_mem_others hne)).2

theorem HeapSystem.Inv.write {y : Live} (hy : y ∈ s.live)
    {index : Nat} {bytes : List UInt8} (hroom : index + bytes.length ≤ y.size) (result : Nat) :
    Inv cfg
        { s with
          heap := s.heap.writeBytes (y.ptr - s.heapPtr + index) bytes
          result := result } tiles ∧
      ∀ z ∈ s.live, z.ptr ≠ y.ptr → ∀ i < s.payloadSize cfg z.ptr,
        SmallMem.byteAt
            { s.toSmallMem with
              heap := s.heap.writeBytes (y.ptr - s.heapPtr + index) bytes } (z.ptr + i) =
          s.byteAt (z.ptr + i) := by
  obtain ⟨-, x, hx, hptr, hsize⟩ := hinv.live y hy
  obtain ⟨hmem, -⟩ := mem_usedTiles.mp hx
  have hplace : y.ptr - s.heapPtr + index = x.start + cfg.sizeofStructMem + index := by
    rw [hptr, payload]
    omega
  have hsame : ∀ i, (i < x.start + cfg.sizeofStructMem ∨ x.stop ≤ i) →
      s.heap.writeBytes (y.ptr - s.heapPtr + index) bytes i = s.heap i := by
    intro i hi
    apply ByteMemory.writeBytes_outside
    omega
  obtain ⟨pre, post, rfl⟩ := List.append_of_mem hmem
  obtain ⟨himage, hkept⟩ := hinv.layout.image.store hsame
  have houtcome : Outcome cfg s.toSmallMem
      { s.toSmallMem with
        heap := s.heap.writeBytes (y.ptr - s.heapPtr + index) bytes }
      (others x (pre ++ x :: post)) (pre ++ x :: post) := by
    refine ⟨hinv.layout.setHeap himage, rfl, rfl, fun t ht => ?_⟩
    obtain ⟨hin, hne⟩ := mem_others.mp ht
    have hin := (mem_usedTiles.mp hin).1
    exact ⟨hin, hkept t hin hne⟩
  refine ⟨⟨houtcome.layout, hinv.nodup, hinv.live⟩, fun z hz hne => ?_⟩
  have hne' : z.ptr ≠ s.payload cfg x := fun heq => hne (heq.trans hptr.symm)
  exact (hinv.live_kept houtcome hz (live_mem_others hne')).2

theorem HeapSystem.Inv.store {rmem index : Nat} {byte : UInt8}
    {s' : HeapSystem} (hexec : s.exec cfg (.store rmem index byte) = some s') :
    (∃ tiles', s'.Inv cfg tiles') ∧ s.StepOk cfg (.store rmem index byte) s' := by
  have henabled : ∃ x ∈ s.live, x.ptr = rmem ∧ index < x.size := by
    by_contra hnot
    simp only [exec, enabled, decide_eq_true_eq, if_neg hnot] at hexec
    cases hexec
  simp only [exec, enabled, decide_eq_true_eq, if_pos henabled] at hexec
  cases hexec
  obtain ⟨y, hy, rfl, hindex⟩ := henabled
  obtain ⟨hinv', hkept⟩ := @Inv.write _ _ _ hinv _ hy index [byte] hindex 0
  exact ⟨⟨tiles, hinv'⟩, hkept, fun _ _ _ hop => by cases hop⟩

end

theorem rtAlign_zero (cfg : MemConfig) : rtAlign 0 cfg.alignSize = 0 := by
  have hle : rtAlign 0 cfg.alignSize ≤ 0 := by
    apply rtAlign_le cfg.alignBits_le_word (Nat.le_refl 0) (Nat.zero_mod _)
    have halign := cfg.alignSize_le
    rw [MemConfig.alignSize] at halign
    omega
  omega

theorem rtRealloc_zero (self : List UInt8) (rmem : Nat) (mem : SmallMem) :
    rtRealloc cfg self rmem 0 mem = (rtFree cfg rmem mem).map ((0, ·)) := by
  rw [rtRealloc, rtAlign_zero, if_neg (Nat.not_lt_zero _), if_pos rfl]

theorem rtRealloc_null (hlayout : Layout cfg mem tiles) {newsize : Nat}
    (hnonzero : newsize ≠ 0) (hsize : newsize ≤ mem.memSizeAligned) (self : List UInt8) :
    rtRealloc cfg self 0 newsize mem = rtMalloc cfg self (rtAlign newsize cfg.alignSize) mem ∧
      newsize ≤ rtAlign newsize cfg.alignSize ∧
      rtAlign newsize cfg.alignSize ≤ mem.memSizeAligned := by
  have hroom := hlayout.aligned_room
  have hupper : rtAlign newsize cfg.alignSize ≤ mem.memSizeAligned :=
    rtAlign_le cfg.alignBits_le_word hsize hlayout.sizeAligned hroom
  have hlower : newsize ≤ rtAlign newsize cfg.alignSize := le_rtAlign cfg.alignBits_le_word (by
    rw [MemConfig.alignSize] at hroom
    omega)
  refine ⟨?_, hlower, hupper⟩
  rw [rtRealloc, if_neg (by omega), if_neg (by omega), if_pos rfl]

theorem HeapSystem.Inv.realloc (hinv : s.Inv cfg tiles) {self : List UInt8}
    {rmem newsize : Nat} {s' : HeapSystem}
    (hexec : s.exec cfg (.realloc self rmem newsize) = some s') :
    (∃ tiles', s'.Inv cfg tiles') ∧ s.StepOk cfg (.realloc self rmem newsize) s' := by
  have hlen := cfg.twelve_le
  have henabled : (rmem = 0 ∨ rmem ∈ s.live.map Live.ptr) ∧ newsize ≤ s.memSizeAligned := by
    by_contra hnot
    simp only [exec, enabled, decide_eq_true_eq, if_neg hnot] at hexec
    cases hexec
  obtain ⟨hptr, hsize⟩ := henabled
  simp only [exec, enabled, decide_eq_true_eq, if_pos (And.intro hptr hsize)] at hexec
  by_cases hzero : newsize = 0
  · subst hzero
    rw [rtRealloc_zero, Option.map_map] at hexec
    have hfree : s.exec cfg (.free rmem) = some s' := by
      simp only [exec, enabled, decide_eq_true_eq, if_pos hptr]
      exact hexec
    obtain ⟨hinv', hstep⟩ := hinv.free hfree
    refine ⟨hinv', hstep.untouched, fun _ _ _ hop _ _ i hi => ?_⟩
    cases hop
    omega
  · rcases hptr with rfl | hlive
    · obtain ⟨hcall, hlower, hupper⟩ := rtRealloc_null hinv.layout hzero hsize self
      rw [hcall] at hexec
      rcases rtMalloc_spec hinv.layout hupper self with ⟨hnone, -⟩ | hnull |
        ⟨mem, tiles', tile, hmalloc, houtcome, htile, hfresh, hroom, -⟩
      · rw [hnone] at hexec
        cases hexec
      · rw [hnull] at hexec
        simp only [Option.map_some, if_neg hzero, if_true, Option.some.injEq] at hexec
        subst hexec
        exact ⟨⟨tiles, hinv.null⟩, fun _ _ _ _ _ => rfl, fun _ _ _ _ hresult => absurd rfl hresult⟩
      · have hnotNull : s.payload cfg tile ≠ 0 := by
          rw [payload]
          omega
        rw [hmalloc] at hexec
        simp only [Option.map_some, if_neg hzero, if_neg hnotNull, dropLive_zero hinv,
          Option.some.injEq] at hexec
        subst hexec
        have hkept : ∀ y ∈ s.live, ∀ t ∈ usedTiles tiles, y.ptr = s.payload cfg t →
            t ∈ usedTiles tiles := fun _ _ t ht _ => ht
        refine ⟨⟨tiles', ?_⟩, ?_, fun _ _ _ hop _ hne => ?_⟩
        · exact hinv.give houtcome (fun _ hy => hy) hkept hinv.nodup htile hfresh
            (Nat.pos_of_ne_zero hzero) (Nat.le_trans hlower hroom) _
        · intro y hy _
          exact (hinv.live_kept houtcome hy (hkept y hy)).2
        · cases hop
          exact absurd rfl hne
    · obtain ⟨x, hx, rfl, hpos⟩ := hinv.exists_tile hlive
      have hxmem := (mem_usedTiles.mp hx).1
      rcases rtRealloc_spec hinv.layout hx hpos hzero hsize self with ⟨hnone, -⟩ | hnull |
        ⟨mem, tiles', tile, hrealloc, hresized, -⟩
      · rw [hnone] at hexec
        cases hexec
      · rw [hnull] at hexec
        simp only [Option.map_some, if_neg hzero, if_true, Option.some.injEq] at hexec
        subst hexec
        exact ⟨⟨tiles, hinv.null⟩, fun _ _ _ _ _ => rfl, fun _ _ _ _ hresult => absurd rfl hresult⟩
      · have hnotNull : s.payload cfg tile ≠ 0 := by
          rw [payload]
          omega
        rw [hrealloc] at hexec
        simp only [Option.map_some, if_neg hzero, if_neg hnotNull, Option.some.injEq] at hexec
        subst hexec
        have houtcome := hresized.outcome
        refine ⟨⟨tiles', ?_⟩, ?_, fun _ _ _ hop _ _ i hi => ?_⟩
        · refine hinv.give houtcome (fun y hy => (mem_dropLive.mp hy).1)
            (fun y hy => live_mem_others (mem_dropLive.mp hy).2) (dropLive_nodup hinv.nodup)
            hresized.mem hresized.fresh (Nat.pos_of_ne_zero hzero) hresized.room _
        · intro y hy hne
          exact (hinv.live_kept houtcome hy (live_mem_others hne)).2
        · cases hop
          rw [hinv.layout.payloadSize_eq hxmem] at hi
          have hbyte := hresized.bytes i hi
          simp only [SmallMem.byteAt, houtcome.heapPtr, payload_sub]
          exact hbyte

theorem HeapSystem.Inv.step (hinv : s.Inv cfg tiles) {op : HeapOp} {s' : HeapSystem}
    (hexec : s.exec cfg op = some s') : (∃ tiles', s'.Inv cfg tiles') ∧ s.StepOk cfg op s' := by
  cases op with
  | malloc self size => exact hinv.malloc hexec
  | realloc self rmem newsize => exact hinv.realloc hexec
  | free rmem => exact hinv.free hexec
  | store rmem index byte => exact hinv.store hexec

theorem HeapSystem.Inv.returns (hinv : s.Inv cfg tiles)
    (hroom : cfg.minSizeAligned ≤ s.memSizeAligned) {op : HeapOp} (henabled : s.enabled op) :
    (s.exec cfg op).isSome := by
  simp only [exec, henabled, if_true]
  have hmalloc : ∀ self size, size ≤ s.memSizeAligned →
      (rtMalloc cfg self size s.toSmallMem).isSome := by
    intro self size hsize
    rcases rtMalloc_spec hinv.layout hsize self with ⟨-, htiny⟩ | hnull | ⟨_, _, _, hrun, -⟩
    · exact absurd htiny (Nat.not_lt_of_le hroom)
    · rw [hnull]
      rfl
    · rw [hrun]
      rfl
  have hfree : ∀ rmem, rmem = 0 ∨ rmem ∈ s.live.map Live.ptr →
      (rtFree cfg rmem s.toSmallMem).isSome := by
    intro rmem hptr
    rcases hptr with rfl | hmem
    · rw [rtFree, if_pos rfl]
      rfl
    · obtain ⟨x, hx, rfl, hpos⟩ := hinv.exists_tile hmem
      obtain ⟨_, _, hrun, -⟩ := rtFree_spec hinv.layout hx hpos
      rw [hrun]
      rfl
  cases op with
  | malloc self size =>
    rw [Option.isSome_map]
    exact hmalloc self size (of_decide_eq_true henabled)
  | realloc self rmem newsize =>
    obtain ⟨hptr, hsize⟩ := of_decide_eq_true henabled
    rw [Option.isSome_map]
    by_cases hzero : newsize = 0
    · rw [hzero, rtRealloc_zero, Option.isSome_map]
      exact hfree rmem hptr
    · rcases hptr with rfl | hmem
      · obtain ⟨hcall, -, hupper⟩ := rtRealloc_null hinv.layout hzero hsize self
        rw [hcall]
        exact hmalloc self _ hupper
      · obtain ⟨x, hx, rfl, hpos⟩ := hinv.exists_tile hmem
        rcases rtRealloc_spec hinv.layout hx hpos hzero hsize self with ⟨-, htiny⟩ | hnull |
          ⟨_, _, _, hrun, -⟩
        · exact absurd htiny (Nat.not_lt_of_le hroom)
        · rw [hnull]
          rfl
        · rw [hrun]
          rfl
  | free rmem =>
    rw [Option.isSome_map]
    exact hfree rmem (of_decide_eq_true henabled)
  | store rmem index byte => rfl

end Steps

theorem rtAlignDown_mod (cfg : MemConfig) {size : Nat} (hsize : size < 2 ^ 32) :
    rtAlignDown size cfg.alignSize % cfg.alignSize = 0 := by
  rw [MemConfig.alignSize, rtAlignDown_two_pow hsize cfg.alignBits_le_word]
  exact Nat.mul_mod_left ..

theorem rtAlignDown_le (cfg : MemConfig) {size : Nat} (hsize : size < 2 ^ 32) :
    rtAlignDown size cfg.alignSize ≤ size := by
  rw [MemConfig.alignSize, rtAlignDown_two_pow hsize cfg.alignBits_le_word]
  exact Nat.div_mul_le_self ..

theorem image_init (heap : ByteMemory) {heapEnd : Nat} (name : List UInt8)
    (hlen : cfg.sizeofStructMem ≤ heapEnd) (hsmall : heapEnd < 2 ^ 32)
    (haligned : heapEnd % cfg.alignSize = 0) :
    Image cfg
      (rtMemSetname cfg heapEnd name (setPrev (setNext (setUsed (setMagic
        (rtMemSetname cfg 0 name (setUsed (setPrev (setNext (setMagic heap 0 heapMagic) 0
          heapEnd) 0 0) 0 0))
        heapEnd heapMagic) heapEnd 1) heapEnd heapEnd) heapEnd heapEnd))
      heapEnd [⟨0, heapEnd, false⟩] := by
  have htwelve := cfg.twelve_le
  have hapart : heapEnd + 12 ≤ 0 ∨ 0 + 12 ≤ heapEnd := .inr (by omega)
  refine ⟨⟨rfl, by simpa using hlen, rfl⟩, ⟨?_, trivial⟩, ?_, ?_, hsmall⟩
  · rw [headerOf_rtMemSetname_apart (.inr (by simp only; omega)), headerOf_setPrev_apart hapart,
      headerOf_setNext_apart hapart, headerOf_setUsed_apart hapart,
      headerOf_setMagic_apart hapart, headerOf_rtMemSetname, headerOf_setUsed (by decide),
      headerOf_setPrev (by decide), headerOf_setNext hsmall, headerOf_setMagic (by decide)]
    rfl
  · rw [endOf, headerOf_rtMemSetname, headerOf_setPrev hsmall, headerOf_setNext hsmall,
      headerOf_setUsed (by decide), headerOf_setMagic (by decide)]
  · intro tile htile
    rw [List.mem_singleton] at htile
    rw [htile]
    exact haligned

theorem HeapSystem.Initial.inv {s : HeapSystem} (hinit : s.Initial cfg) :
    ∃ tiles, s.Inv cfg tiles := by
  obtain ⟨beginAddr, endAddr, before, hend, hlarge, hroom, hmem, husedMem, -, hlive⟩ := hinit
  have hdown := rtAlignDown_le cfg hend
  have hbase : rtAlign beginAddr cfg.alignSize % cfg.alignSize = 0 := rtAlign_mod _ cfg.alignBits_le_word
  have hstop := rtAlignDown_mod cfg hend
  rw [rtSystemHeapInit, if_pos (And.intro hlarge hroom)] at hmem
  generalize rtAlign beginAddr cfg.alignSize = base at hroom hmem hbase
  generalize rtAlignDown endAddr cfg.alignSize = stop at hlarge hroom hmem hdown hstop
  have hsize : (stop - base - 2 * cfg.sizeofStructMem) % cfg.alignSize = 0 := by
    have hdvd := Nat.dvd_sub (Nat.dvd_sub (Nat.dvd_of_mod_eq_zero hstop)
      (Nat.dvd_of_mod_eq_zero hbase))
      (Nat.dvd_mul_left_of_dvd (Nat.dvd_of_mod_eq_zero cfg.sizeofStructMem_mod) 2)
    exact Nat.mod_eq_zero_of_dvd hdvd
  have hendMod : (stop - base - 2 * cfg.sizeofStructMem + cfg.sizeofStructMem) %
      cfg.alignSize = 0 := by
    rw [Nat.add_mod, hsize, cfg.sizeofStructMem_mod]
    simp
  have himage := image_init before.heap [73, 78, 73, 84] (Nat.le_add_left ..) (by omega) hendMod
  refine ⟨[⟨0, stop - base - 2 * cfg.sizeofStructMem + cfg.sizeofStructMem, false⟩],
    ⟨?_, by rw [hlive]; exact List.nodup_nil, fun x hx => by rw [hlive] at hx; cases hx⟩⟩
  rw [hmem]
  refine ⟨himage, List.isChain_singleton _, .inr ⟨_, List.mem_singleton_self _, rfl, rfl⟩,
    husedMem, rfl, hsize, hbase, ?_⟩
  show base + (stop - base - 2 * cfg.sizeofStructMem + cfg.sizeofStructMem) +
    cfg.sizeofStructMem < 2 ^ 32
  omega

theorem exists_inv_of_reachable {allowed : HeapSystem → HeapOp → Prop} {s : HeapSystem}
    (hreach : (heapMachine cfg).Reachable allowed s) : ∃ tiles, s.Inv cfg tiles := by
  refine hreach.invariant (fun s => ∃ tiles, s.Inv cfg tiles)
    (fun s hinit => Initial.inv hinit) (fun s op s' hinv _ hexec => ?_)
  obtain ⟨tiles, hinv⟩ := hinv
  exact (hinv.step hexec).1

/-- Following `next` from `p` visits `offsets` and comes to `e`. -/
def Visits (next : Nat → Nat) : Nat → List Nat → Nat → Prop
  | p, [], e => p = e
  | p, q :: rest, e => p = q ∧ Visits next (next q) rest e

/-- The heap as it should be; `offsets` are those of the blocks before `heap_end`. -/
structure HeapSystem.HeapOk (cfg : MemConfig) (s : HeapSystem) (offsets : List Nat) : Prop where
  walk : Visits (nextOf s.heap) 0 offsets s.heapEnd
  increasing : (offsets ++ [s.heapEnd]).Pairwise (· < ·)
  aligned : ∀ p ∈ offsets ++ [s.heapEnd],
    p % cfg.alignSize = 0 ∧ (s.heapPtr + p) % cfg.alignSize = 0
  prev : ∀ p ∈ offsets, nextOf s.heap p ≠ s.heapEnd → prevOf s.heap (nextOf s.heap p) = p
  coalesced : ∀ p ∈ offsets, nextOf s.heap p ≠ s.heapEnd →
    usedOf s.heap p ≠ 0 ∨ usedOf s.heap (nextOf s.heap p) ≠ 0
  live : ∀ x ∈ s.live, x.ptr % cfg.alignSize = 0 ∧ ∃! p, p ∈ offsets ∧
    usedOf s.heap p ≠ 0 ∧ x.ptr = s.heapPtr + p + cfg.sizeofStructMem ∧
    x.size ≤ s.payloadSize cfg x.ptr
  apart : s.live.Pairwise fun x y =>
    x.ptr + s.payloadSize cfg x.ptr ≤ y.ptr ∨ y.ptr + s.payloadSize cfg y.ptr ≤ x.ptr
  headers : ∀ x ∈ s.live, ∀ p ∈ offsets ++ [s.heapEnd],
    x.ptr + s.payloadSize cfg x.ptr ≤ s.heapPtr + p ∨
      s.heapPtr + p + cfg.sizeofStructMem ≤ x.ptr
  usedMem : s.usedMem =
    ((offsets.filter fun p => usedOf s.heap p ≠ 0).map fun p => nextOf s.heap p - p).sum

section HeapOk

variable {heap : ByteMemory} {heapEnd len a prev : Nat}

theorem visits_of_represents (htiles : Tiles len a tiles heapEnd)
    (hheaders : Represents heap prev tiles) :
    Visits (nextOf heap) a (tiles.map Tile.start) heapEnd := by
  induction tiles generalizing a prev with
  | nil => exact htiles
  | cons tile rest ih =>
    obtain ⟨rfl, -, hrest⟩ := htiles
    have hnext : nextOf heap tile.start = tile.stop := congrArg Header.next hheaders.1
    refine ⟨rfl, ?_⟩
    rw [hnext]
    exact ih hrest hheaders.2

theorem usedBytes_eq_sum (htiles : Tiles len a tiles heapEnd)
    (hheaders : Represents heap prev tiles) : usedBytes tiles =
      (((tiles.map Tile.start).filter fun p => usedOf heap p ≠ 0).map
        fun p => nextOf heap p - p).sum := by
  induction tiles generalizing a prev with
  | nil => rfl
  | cons tile rest ih =>
    obtain ⟨-, -, hrest⟩ := htiles
    have hnext : nextOf heap tile.start = tile.stop := congrArg Header.next hheaders.1
    have hused : usedOf heap tile.start = tile.used.toNat := congrArg Header.used hheaders.1
    rw [usedBytes_cons, ih hrest hheaders.2, List.map_cons, List.filter_cons]
    cases hcase : tile.used with
    | false =>
      rw [hcase] at hused
      simp [hused]
    | true =>
      rw [hcase] at hused
      simp [hused, hnext]

end HeapOk

theorem HeapSystem.Inv.heapOk {s : HeapSystem} (hinv : s.Inv cfg tiles) :
    s.HeapOk cfg (tiles.map Tile.start) := by
  have hlen := cfg.twelve_le
  have hlayout := hinv.layout
  have htiling := hlayout.image.tiling
  have hstart : ∀ tile ∈ tiles, tile.start % cfg.alignSize = 0 := by
    intro tile hmem
    obtain ⟨pre, post, rfl⟩ := List.append_of_mem hmem
    exact hlayout.image.start_mod
  have hend : s.heapEnd % cfg.alignSize = 0 := by
    rw [hlayout.heapEnd, Nat.add_mod, hlayout.sizeAligned, cfg.sizeofStructMem_mod]
    simp
  have hshift : ∀ p, p % cfg.alignSize = 0 → (s.heapPtr + p) % cfg.alignSize = 0 := by
    intro p hp
    rw [Nat.add_mod, hlayout.base, hp]
    simp
  -- a block and the one behind it
  have hpair : ∀ p ∈ tiles.map Tile.start, nextOf s.heap p ≠ s.heapEnd →
      prevOf s.heap (nextOf s.heap p) = p ∧
        (usedOf s.heap p ≠ 0 ∨ usedOf s.heap (nextOf s.heap p) ≠ 0) := by
    intro p hp hnext
    obtain ⟨tile, hmem, rfl⟩ := List.mem_map.mp hp
    obtain ⟨pre, post, rfl⟩ := List.append_of_mem hmem
    have hstop := hlayout.image.nextOf_eq
    obtain ⟨-, -, hpost⟩ := Tiles.middle_iff.mp htiling
    rw [hstop] at hnext ⊢
    cases post with
    | nil => exact absurd hpost hnext
    | cons right rest =>
      have himage : Image cfg s.heap s.heapEnd ((pre ++ [tile]) ++ right :: rest) := by
        simpa using hlayout.image
      obtain ⟨-, -, -, hcoalesced⟩ := coalesced_middle.mp hlayout.coalesced
      rw [← hpost.1, himage.prevOf_eq, lastStart_concat, himage.usedOf_eq, hlayout.image.usedOf_eq]
      refine ⟨rfl, (hcoalesced right rfl).imp (fun h => ?_) (fun h => ?_)⟩ <;>
      · rw [h]
        decide
  have hpayload : ∀ x ∈ s.live, ∃ tile ∈ usedTiles tiles, x.ptr = s.payload cfg tile ∧
      s.payloadSize cfg x.ptr = tile.stop - (tile.start + cfg.sizeofStructMem) ∧
      x.size ≤ s.payloadSize cfg x.ptr ∧ tile.start + cfg.sizeofStructMem ≤ tile.stop := by
    intro x hx
    obtain ⟨-, tile, htile, hptr, hsize⟩ := hinv.live x hx
    obtain ⟨hmem, -⟩ := mem_usedTiles.mp htile
    have heq : s.payloadSize cfg x.ptr = tile.stop - (tile.start + cfg.sizeofStructMem) := by
      rw [hptr, hlayout.payloadSize_eq hmem]
    exact ⟨tile, htile, hptr, heq, heq ▸ hsize, (htiling.bounds hmem).2.1⟩
  refine ⟨visits_of_represents htiling hlayout.image.headers, htiling.starts_pairwise (by omega),
    fun p hp => ?_, fun p hp hnext => (hpair p hp hnext).1,
    fun p hp hnext => (hpair p hp hnext).2, fun x hx => ?_, ?_, fun x hx p hp => ?_, ?_⟩
  · rw [List.mem_append, List.mem_map, List.mem_singleton] at hp
    rcases hp with ⟨tile, hmem, rfl⟩ | rfl
    · exact ⟨hstart tile hmem, hshift _ (hstart tile hmem)⟩
    · exact ⟨hend, hshift _ hend⟩
  · obtain ⟨tile, htile, hptr, -, hsize, -⟩ := hpayload x hx
    obtain ⟨hmem, hused⟩ := mem_usedTiles.mp htile
    constructor
    · rw [hptr, payload, Nat.add_mod, hshift _ (hstart tile hmem), cfg.sizeofStructMem_mod]
      simp
    · refine ⟨tile.start, ⟨List.mem_map_of_mem hmem, ?_, hptr, hsize⟩, fun q hq => ?_⟩
      · obtain ⟨pre, post, rfl⟩ := List.append_of_mem hmem
        rw [hlayout.image.usedOf_eq, hused]
        decide
      · have heq := hq.2.2.1
        rw [hptr, payload] at heq
        omega
  · refine List.Pairwise.imp_of_mem (fun {x y} hx hy hne => ?_) (List.pairwise_map.mp hinv.nodup)
    obtain ⟨tile, htile, hptr, hsize, -, hfit⟩ := hpayload x hx
    obtain ⟨tile', htile', hptr', hsize', -, hfit'⟩ := hpayload y hy
    rw [hsize, hsize', hptr, hptr', payload, payload]
    rcases htiling.eq_or_apart (mem_usedTiles.mp htile).1 (mem_usedTiles.mp htile').1 with
      heq | hbefore | hafter
    · exact absurd (by rw [hptr, hptr', heq]) hne
    · exact .inl (by omega)
    · exact .inr (by omega)
  · obtain ⟨tile, htile, hptr, hsize, -, hfit⟩ := hpayload x hx
    have hmem := (mem_usedTiles.mp htile).1
    rw [hsize, hptr, payload]
    rw [List.mem_append, List.mem_map, List.mem_singleton] at hp
    rcases hp with ⟨other, hother, rfl⟩ | rfl
    · rcases htiling.eq_or_apart hmem hother with rfl | hbefore | hafter
      · exact .inr (by omega)
      · exact .inl (by omega)
      · have hfit' := (htiling.bounds hother).2.1
        exact .inr (by omega)
    · have hbounds := htiling.bounds hmem
      exact .inl (by omega)
  · rw [hlayout.usedMem]
    exact usedBytes_eq_sum htiling hlayout.image.headers

/-- For every heap and every sequence of calls; besides, all calls return where the
heap is not smaller than the smallest block. -/
theorem reachable_heapOk {s : HeapSystem}
    (hreach : (heapMachine cfg).Reachable (fun _ _ => True) s) :
    (∃ offsets, s.HeapOk cfg offsets) ∧
    (∀ op s', s.exec cfg op = some s' → s.StepOk cfg op s') ∧
    (cfg.minSizeAligned ≤ s.memSizeAligned →
      ∀ op, s.enabled op → (s.exec cfg op).isSome) := by
  obtain ⟨tiles, hinv⟩ := exists_inv_of_reachable hreach
  exact ⟨⟨_, hinv.heapOk⟩, fun op s' hexec => (hinv.step hexec).2,
    fun hroom op henabled => hinv.returns hroom henabled⟩

def smallConfig : MemConfig := ⟨2, true, by decide⟩

def heapStart : HeapSystem where
  toSmallMem := rtSystemHeapInit smallConfig 4097 4608
    { heap := fun _ => 0
      heapPtr := 0
      heapEnd := 0
      lfree := 0
      memSizeAligned := 0
      usedMem := 0
      maxMem := 0 }
  live := []
  result := 0

theorem heapStart_initial : heapStart.Initial smallConfig :=
  ⟨4097, 4608, _, by decide, by decide +kernel, by decide +kernel, rfl, rfl, rfl, rfl⟩

def heapRun : List HeapOp :=
  [.malloc [97] 20, .store 4116 3 7, .realloc [97] 4116 60]

theorem reachable_heapOk_heapRun :
    ∃ s, (heapMachine smallConfig).Reachable (fun _ _ => True) s ∧
      s.live = [⟨4152, 60⟩] ∧ s.usedMem = 76 ∧ s.byteAt 4155 = 7 ∧
      ∃ offsets, s.HeapOk smallConfig offsets := by
  have hrun : ((heapMachine smallConfig).run (fun _ _ => True) heapStart heapRun).map
      (fun s => (s.live, s.usedMem, s.byteAt 4155)) = some ([⟨4152, 60⟩], 76, 7) := by
    decide +kernel
  obtain ⟨s, hreach, hvalue⟩ := Machine.exists_reachable_of_run heapStart_initial hrun
  simp only [Prod.mk.injEq] at hvalue
  exact ⟨s, hreach, hvalue.1, hvalue.2.1, hvalue.2.2, (reachable_heapOk hreach).1⟩

end RtThread.Mem
