import RtThread.Mem.Completeness

namespace RtThread.Mem

open RtThread.Lib HeapSystem

/-! What clients of `mem.c` get for sizes near the end of the address space. -/

/-- A client passes `NULL` or a live pointer, and any size of 32 bits. -/
def HeapSystem.May (s : HeapSystem) : HeapCall → Prop
  | .malloc _ size => size < 2 ^ 32
  | .calloc _ count size => count < 2 ^ 32 ∧ size < 2 ^ 32
  | .realloc _ rmem newsize => (rmem = 0 ∨ rmem ∈ s.live.map Live.ptr) ∧ newsize < 2 ^ 32
  | .free rmem => s.enabled (.free rmem)
  | .store rmem index byte => s.enabled (.store rmem index byte)

/-- There is a block that the loop of `rt_malloc` takes for `total` bytes. -/
def SmallMem.Takes (cfg : MemConfig) (s : SmallMem) (offsets : List Nat) (total : Nat) : Prop :=
  ∃ q ∈ offsets, s.lfree ≤ q ∧ s.Fits cfg (cfg.needed total) q ∧
    q + cfg.needed total < s.memSizeAligned

/-- `rt_malloc` is called with `total` where the client asks for `requested` bytes: it returns,
and if `requested` wraps it gets nothing. -/
def SmallMem.Serves (cfg : MemConfig) (s : SmallMem) (offsets : List Nat)
    (requested total : Nat) : Prop :=
  total = 0 ∨ s.memSizeAligned < rtAlign total cfg.alignSize ∨
    cfg.minSizeAligned ≤ s.memSizeAligned ∧
      (cfg.Rounds requested ∨ ¬ s.Takes cfg offsets total)

def HeapSystem.Answers (cfg : MemConfig) (s : HeapSystem) (offsets : List Nat) : HeapCall → Prop
  | .malloc _ size => s.Serves cfg offsets size size
  | .calloc _ count size => s.Serves cfg offsets (count * size) (count * size % 2 ^ 32)
  | .realloc _ rmem newsize =>
    if rmem = 0 then
      rtAlign newsize cfg.alignSize = 0 ∨ s.memSizeAligned < rtAlign newsize cfg.alignSize ∨
        cfg.minSizeAligned ≤ s.memSizeAligned
    else cfg.Rounds newsize
  | .free _ => True
  | .store _ _ _ => True

structure HeapSystem.CallRight (cfg : MemConfig) (s : HeapSystem) (call : HeapCall)
    (s' : HeapSystem) : Prop where
  heapOk : ∃ offsets, s'.HeapOk cfg offsets
  room : s'.result ≠ 0 → call.requested ≤ s'.payloadSize cfg s'.result
  zeroed : ∀ self count size, call = .calloc self count size → s'.result ≠ 0 →
    ∀ i < count * size, s'.byteAt (s'.result + i) = 0
  refused : ∀ self rmem newsize, call = .realloc self rmem newsize → newsize ≠ 0 →
    s'.result = 0 → ∀ y ∈ s.live, y ∈ s'.live ∧
      s'.payloadSize cfg y.ptr = s.payloadSize cfg y.ptr ∧
      ∀ i < s.payloadSize cfg y.ptr, s'.byteAt (y.ptr + i) = s.byteAt (y.ptr + i)

def HeapSystem.Right (cfg : MemConfig) (s : HeapSystem) (call : HeapCall) : Prop :=
  ∃ s', s.call cfg call = some s' ∧ s.CallRight cfg call s'

/-- `rt_memset` of what `rt_calloc` has got. -/
def SmallMem.zeroAt (mem : SmallMem) (p total : Nat) : SmallMem :=
  { mem with heap := mem.heap.writeBytes (p - mem.heapPtr) (List.replicate total 0) }

def HeapSystem.Roomy (cfg : MemConfig) (s : HeapSystem) : Prop :=
  s.live ≠ [] → cfg.minSizeAligned ≤ s.memSizeAligned

variable {cfg : MemConfig} {s s' : HeapSystem} {tiles tiles' : List Tile}

section Roomy

theorem dropLive_ne_nil {rmem : Nat} {live : List Live} (hne : dropLive rmem live ≠ []) : live ≠ [] := by
  rintro rfl
  exact hne rfl

theorem HeapSystem.Inv.roomy_step (hinv : s.Inv cfg tiles) (hroomy : s.Roomy cfg) {op : HeapOp}
    (hexec : s.exec cfg op = some s') : s'.Roomy cfg := by
  simp only [exec] at hexec
  split at hexec
  rotate_left
  · cases hexec
  rename_i henabled
  cases op with
  | malloc self size =>
    obtain ⟨⟨p, mem⟩, hmalloc, rfl⟩ := Option.map_eq_some_iff.mp hexec
    obtain ⟨hsame, hmin, -⟩ := rtMalloc_keeps hinv.layout (of_decide_eq_true henabled) hmalloc
    intro hne
    dsimp only at hne ⊢
    rw [hsame]
    split at hne
    · exact hroomy hne
    next hp => exact hmin hp
  | realloc self rmem newsize =>
    obtain ⟨hptr, hsize⟩ := of_decide_eq_true henabled
    obtain ⟨⟨p, mem⟩, hrealloc, rfl⟩ := Option.map_eq_some_iff.mp hexec
    obtain ⟨hsame, hmin, -⟩ := hinv.rtRealloc_keeps hptr hsize hrealloc
    intro hne
    dsimp only at hne ⊢
    rw [hsame]
    split at hne
    · exact hroomy (dropLive_ne_nil hne)
    · split at hne
      · exact hroomy hne
      next hp => exact hmin hroomy hp
  | free rmem =>
    obtain ⟨mem, hfree, rfl⟩ := Option.map_eq_some_iff.mp hexec
    intro hne
    dsimp only at hne ⊢
    rw [(hinv.rtFree_keeps (of_decide_eq_true henabled) hfree).1]
    exact hroomy (dropLive_ne_nil hne)
  | store rmem index byte =>
    cases hexec
    exact hroomy

theorem HeapSystem.Inv.roomy_call (hinv : s.Inv cfg tiles) (hroomy : s.Roomy cfg)
    {call : HeapCall} (hrounds : cfg.Rounds call.requested) (hcall : s.call cfg call = some s') :
    s'.Roomy cfg := by
  rcases call_cases hrounds hcall with rfl | ⟨op, hexec, -⟩ |
    ⟨self, size, s1, hexec, y, hy, bytes, hroom, rfl⟩
  · exact hroomy
  · exact hinv.roomy_step hroomy hexec
  · have hroomy1 : s1.Roomy cfg := hinv.roomy_step hroomy hexec
    exact hroomy1

theorem roomy_of_reachable
    (hreach : (callMachine cfg).Reachable (fun _ call => cfg.Rounds call.requested) s) :
    ∃ tiles, s.Inv cfg tiles ∧ s.Roomy cfg := by
  refine hreach.invariant (fun s => ∃ tiles, s.Inv cfg tiles ∧ s.Roomy cfg)
    (fun s hinit => ?_) (fun s call s' h hrounds hcall => ?_)
  · obtain ⟨tiles, hinv⟩ := Initial.inv hinit
    obtain ⟨_, _, _, -, -, -, -, -, -, hlive⟩ := hinit
    exact ⟨tiles, hinv, fun hne => absurd hlive hne⟩
  · obtain ⟨tiles, hinv, hroomy⟩ := h
    obtain ⟨tiles', hinv'⟩ := hinv.call hrounds hcall
    exact ⟨tiles', hinv', hinv.roomy_call hroomy hrounds hcall⟩

end Roomy

section Right

variable {self : List UInt8} {size total requested count rmem newsize p : Nat}

theorem sizeofStructMem_lt (cfg : MemConfig) :
    cfg.alignSize ≤ cfg.sizeofStructMem ∧ cfg.sizeofStructMem < 2 ^ 32 := by
  refine ⟨?_, Nat.lt_of_le_of_lt Nat.and_le_left (Nat.mod_lt _ (by decide))⟩
  exact Nat.le_of_dvd (Nat.lt_of_lt_of_le (by decide) cfg.twelve_le)
    (Nat.dvd_of_mod_eq_zero cfg.sizeofStructMem_mod)

theorem payloadSize_lt (mem : SmallMem) (rmem : Nat) :
    mem.payloadSize cfg rmem + cfg.sizeofStructMem < 2 ^ 32 := by
  have hnext : nextOf mem.heap (rmem - cfg.sizeofStructMem - mem.heapPtr) < 2 ^ 32 :=
    ByteMemory.readWord_lt
  have hsizeof := (sizeofStructMem_lt cfg).2
  rw [SmallMem.payloadSize]
  omega

theorem not_callRight {call : HeapCall} (hwraps : ¬ cfg.Rounds call.requested)
    (hresult : s'.result ≠ 0) : ¬ s.CallRight cfg call s' := by
  intro hright
  have hroom := hright.room hresult
  have hlt := @payloadSize_lt cfg s'.toSmallMem s'.result
  have halign := (sizeofStructMem_lt cfg).1
  rw [MemConfig.Rounds] at hwraps
  omega

theorem not_right_of_payloadSize {call : HeapCall} (p room : Nat)
    (hcall : (s.call cfg call).map (fun s' => (s'.result, s'.payloadSize cfg s'.result)) =
      some (p, room)) (hp : p ≠ 0) (hsmall : room < call.requested) : ¬ s.Right cfg call := by
  rintro ⟨s', hcalled, hright⟩
  rw [hcalled, Option.map_some, Option.some.injEq, Prod.mk.injEq] at hcall
  obtain ⟨rfl, rfl⟩ := hcall
  exact Nat.not_le_of_lt hsmall (hright.room hp)

theorem HeapSystem.Inv.callRight_null (hinv : s.Inv cfg tiles) (call : HeapCall) :
    s.CallRight cfg call { s with result := 0 } :=
  ⟨⟨_, hinv.null.heapOk⟩, fun hresult => absurd rfl hresult,
    fun _ _ _ _ hresult => absurd rfl hresult,
    fun _ _ _ _ _ _ _ hy => ⟨hy, rfl, fun _ _ => rfl⟩⟩

theorem HeapSystem.Inv.room (hinv : s.Inv cfg tiles) (hlive : ⟨p, size⟩ ∈ s.live) :
    size ≤ s.payloadSize cfg p := by
  obtain ⟨-, tile, htile, hptr, hsize⟩ := hinv.live _ hlive
  dsimp only at hptr hsize
  rw [hptr, hinv.layout.payloadSize_eq (mem_usedTiles.mp htile).1]
  exact hsize

theorem Layout.takes_iff {mem : SmallMem} (hlayout : Layout cfg mem tiles) :
    mem.Takes cfg (tiles.map Tile.start) total ↔
      ∃ t ∈ tiles, mem.lfree ≤ t.start ∧ Searched cfg mem (cfg.needed total) t := by
  constructor
  · intro h
    obtain ⟨q, hq, hfrom, hfits, hearly⟩ := h
    obtain ⟨t, ht, rfl⟩ := List.mem_map.mp hq
    exact ⟨t, ht, hfrom, (hlayout.searched_iff ht).mpr ⟨hfits, hearly⟩⟩
  · intro h
    obtain ⟨t, ht, hfrom, hsearched⟩ := h
    obtain ⟨hfits, hearly⟩ := (hlayout.searched_iff ht).mp hsearched
    exact ⟨t.start, List.mem_map_of_mem ht, hfrom, hfits, hearly⟩

theorem HeapSystem.Inv.serves_cases (hinv : s.Inv cfg tiles) (self : List UInt8)
    (requested total : Nat) :
    (¬ s.Serves cfg (tiles.map Tile.start) requested total ∧
        (rtMalloc cfg self total s.toSmallMem = none ∨
          ¬ cfg.Rounds requested ∧
            ∃ p mem, rtMalloc cfg self total s.toSmallMem = some (p, mem) ∧ p ≠ 0)) ∨
      s.Serves cfg (tiles.map Tile.start) requested total ∧
        (rtMalloc cfg self total s.toSmallMem = some (0, s.toSmallMem) ∨
          cfg.Rounds requested ∧
            ∃ p mem, rtMalloc cfg self total s.toSmallMem = some (p, mem) ∧ p ≠ 0) := by
  have hlayout := hinv.layout
  by_cases hzero : total = 0
  · exact .inr ⟨.inl hzero, .inl (by rw [rtMalloc, if_pos hzero])⟩
  by_cases hover : s.memSizeAligned < rtAlign total cfg.alignSize
  · exact .inr ⟨.inr (.inl hover), .inl (rtMalloc_over hover self)⟩
  rcases rtMalloc_searches hlayout hzero (Nat.le_of_not_lt hover) self with
    ⟨hnone, htiny⟩ | ⟨hmin, ⟨hnull, hnot⟩ | ⟨left, x, right, rfl, hfrom, hx, hcall⟩⟩
  · refine .inl ⟨fun h => ?_, .inl hnone⟩
    rcases h with h | h | ⟨hmin, -⟩
    · exact hzero h
    · exact hover h
    · omega
  · refine .inr ⟨.inr (.inr ⟨hmin, .inr fun h => ?_⟩), .inl hnull⟩
    obtain ⟨t, ht, hat, hsearched⟩ := hlayout.takes_iff.mp h
    exact hnot t ht hat hsearched
  · have hlen := cfg.twelve_le
    obtain ⟨hunused, hfits, -⟩ := id hx
    obtain ⟨mem, -, -, hrun, -⟩ := mallocFound_spec hlayout hunused (cfg.needed_mod total)
      (by omega) self
    have hgives : ∃ p mem, rtMalloc cfg self total s.toSmallMem = some (p, mem) ∧ p ≠ 0 :=
      ⟨_, mem, hcall.trans hrun, by omega⟩
    by_cases hrounds : cfg.Rounds requested
    · exact .inr ⟨.inr (.inr ⟨hmin, .inl hrounds⟩), .inr ⟨hrounds, hgives⟩⟩
    · refine .inl ⟨fun h => ?_, .inr ⟨hrounds, hgives⟩⟩
      rcases h with h | h | ⟨-, h | h⟩
      · exact hzero h
      · exact hover h
      · exact hrounds h
      · exact h (hlayout.takes_iff.mpr ⟨x, by simp, hfrom, hx⟩)

theorem HeapSystem.Inv.malloc_right_iff (hinv : s.Inv cfg tiles) (hsize : size < 2 ^ 32) :
    s.Right cfg (.malloc self size) ↔
      s.Answers cfg (tiles.map Tile.start) (.malloc self size) := by
  have hcall : s.call cfg (.malloc self size) =
      (rtMalloc cfg self size s.toSmallMem).map (HeapSystem.receive s.live size) := by
    simp only [HeapSystem.call, if_pos hsize]
  rcases hinv.serves_cases self size size with
    ⟨hnot, hnone | ⟨hwraps, p, mem, hmalloc, hp⟩⟩ | ⟨hserves, hnull | ⟨hrounds, p, mem, hmalloc, hp⟩⟩
  · refine iff_of_false ?_ hnot
    rintro ⟨s', hcall', -⟩
    rw [hcall, hnone] at hcall'
    cases hcall'
  · refine iff_of_false ?_ hnot
    rintro ⟨s', hcall', hright⟩
    rw [hcall, hmalloc] at hcall'
    cases hcall'
    exact not_callRight hwraps hp hright
  · refine iff_of_true ⟨{ s with result := 0 }, ?_, hinv.callRight_null _⟩ hserves
    rw [hcall, hnull]
    rfl
  · have hcalled : s.call cfg (.malloc self size) = some (.receive s.live size (p, mem)) := by
      rw [hcall, hmalloc, Option.map_some]
    have hrequested : cfg.Rounds (HeapCall.malloc self size).requested := hrounds
    obtain ⟨tiles', hinv'⟩ := hinv.call hrequested hcalled
    refine iff_of_true ⟨_, hcalled, ⟨_, hinv'.heapOk⟩, fun _ => hinv'.room ?_,
      fun _ _ _ h => (by cases h), fun _ _ _ h => (by cases h)⟩ hserves
    simp only [HeapSystem.receive, if_neg hp]
    exact List.mem_cons_self

theorem HeapSystem.Inv.calloc_right_iff (hinv : s.Inv cfg tiles) (hcount : count < 2 ^ 32)
    (hsize : size < 2 ^ 32) :
    s.Right cfg (.calloc self count size) ↔
      s.Answers cfg (tiles.map Tile.start) (.calloc self count size) := by
  have hcall : s.call cfg (.calloc self count size) =
      (rtCalloc cfg self count size s.toSmallMem).map
        (HeapSystem.receive s.live (count * size)) := by
    simp only [HeapSystem.call, if_pos (And.intro hcount hsize)]
  rcases hinv.serves_cases self (count * size) (count * size % 2 ^ 32) with
    ⟨hnot, hnone | ⟨hwraps, p, mem, hmalloc, hp⟩⟩ | ⟨hserves, hnull | ⟨hrounds, p, mem, hmalloc, hp⟩⟩
  · refine iff_of_false ?_ hnot
    rintro ⟨s', hcall', -⟩
    rw [hcall, rtCalloc, hnone] at hcall'
    cases hcall'
  · refine iff_of_false ?_ hnot
    rintro ⟨s', hcall', hright⟩
    rw [hcall, rtCalloc, hmalloc] at hcall'
    simp only [Option.bind_eq_bind, Option.bind_some, if_pos hp] at hcall'
    cases hcall'
    exact not_callRight hwraps hp hright
  · refine iff_of_true ⟨{ s with result := 0 }, ?_, hinv.callRight_null _⟩ hserves
    rw [hcall, rtCalloc, hnull]
    rfl
  · have hcalled : s.call cfg (.calloc self count size) = some (.receive s.live (count * size)
        (p, mem.zeroAt p (count * size % 2 ^ 32))) := by
      rw [hcall, rtCalloc, hmalloc]
      simp only [Option.bind_eq_bind, Option.bind_some, if_pos hp]
      rfl
    have hrequested : cfg.Rounds (HeapCall.calloc self count size).requested := hrounds
    obtain ⟨tiles', hinv'⟩ := hinv.call hrequested hcalled
    have hpos : 0 < cfg.alignSize := Nat.two_pow_pos _
    have htotal : count * size % 2 ^ 32 = count * size := by
      apply Nat.mod_eq_of_lt
      rw [MemConfig.Rounds] at hrounds
      omega
    have hlive : ⟨p, count * size⟩ ∈ (HeapSystem.receive s.live (count * size)
        (p, mem.zeroAt p (count * size % 2 ^ 32))).live := by
      simp only [HeapSystem.receive, if_neg hp]
      exact List.mem_cons_self
    refine iff_of_true ⟨_, hcalled, ⟨_, hinv'.heapOk⟩, fun _ => hinv'.room hlive,
      fun _ _ _ h _ i hi => ?_, fun _ _ _ h => (by cases h)⟩ hserves
    cases h
    obtain ⟨-, tile, -, hptr, -⟩ := hinv'.live _ hlive
    rw [SmallMem.payload] at hptr
    simp only [HeapSystem.receive, SmallMem.zeroAt] at hptr ⊢
    rw [SmallMem.byteAt]
    dsimp only
    have hplace : p + i - mem.heapPtr = p - mem.heapPtr + i := by omega
    rw [hplace, ByteMemory.writeBytes_inside (by rw [List.length_replicate]; omega)]
    exact List.getElem_replicate ..

theorem Visits.unique {next : Nat → Nat} {e : Nat} {offsets offsets' : List Nat}
    (hwalk : Visits next p offsets e) (hwalk' : Visits next p offsets' e)
    (hend : e ∉ offsets) (hend' : e ∉ offsets') : offsets = offsets' := by
  induction offsets generalizing p offsets' with
  | nil =>
    cases offsets' with
    | nil => rfl
    | cons q rest =>
      have hp : p = e := hwalk
      have hq : p = q := hwalk'.1
      exact absurd (hp.symm.trans hq) fun heq => hend' (heq ▸ List.mem_cons_self)
  | cons q rest ih =>
    obtain ⟨rfl, hrest⟩ := hwalk
    have hne : p ≠ e := fun heq => hend (heq ▸ List.mem_cons_self)
    obtain ⟨rest', rfl, hrest'⟩ := hwalk'.next hne
    rw [ih hrest hrest' (fun h => hend (List.mem_cons_of_mem _ h))
      fun h => hend' (List.mem_cons_of_mem _ h)]

theorem HeapSystem.HeapOk.end_notMem {offsets : List Nat} (hok : s.HeapOk cfg offsets) :
    s.heapEnd ∉ offsets := by
  intro hmem
  have hlt := (List.pairwise_append.mp hok.increasing).2.2 _ hmem _ (List.mem_singleton_self _)
  exact Nat.lt_irrefl _ hlt

theorem HeapSystem.HeapOk.used {offsets : List Nat} (hok : s.HeapOk cfg offsets)
    (hlayout : Layout cfg s.toSmallMem tiles) {y : Live} (hy : y ∈ s.live) :
    ∃ t ∈ usedTiles tiles, y.ptr = s.payload cfg t := by
  have hlen := cfg.twelve_le
  have htiling := hlayout.image.tiling
  have hend : s.heapEnd ∉ tiles.map Tile.start := by
    intro hmem
    have hlt := (List.pairwise_append.mp (htiling.starts_pairwise (by omega))).2.2 _ hmem _
      (List.mem_singleton_self _)
    exact Nat.lt_irrefl _ hlt
  have hsame := hok.walk.unique (visits_of_represents htiling hlayout.image.headers)
    hok.end_notMem hend
  obtain ⟨-, q, ⟨hq, hused, hptr, -⟩, -⟩ := hok.live y hy
  rw [hsame] at hq
  obtain ⟨t, ht, rfl⟩ := List.mem_map.mp hq
  refine ⟨t, mem_usedTiles.mpr ⟨ht, ?_⟩, hptr⟩
  by_contra hnot
  exact hused ((hlayout.usedOf_eq_zero ht).mpr (Bool.eq_false_of_not_eq_true hnot))

theorem call_realloc_eq (cfg : MemConfig) (hmay : s.May (.realloc self rmem newsize)) :
    s.call cfg (.realloc self rmem newsize) =
      (rtRealloc cfg self rmem newsize s.toSmallMem).map fun (p, mem) =>
        { toSmallMem := mem
          live :=
            if newsize = 0 then dropLive rmem s.live
            else if p = 0 then s.live
            else ⟨p, newsize⟩ :: dropLive rmem s.live
          result := p } := by
  simp only [call]
  exact if_pos hmay

section

variable (hinv : s.Inv cfg tiles)
include hinv

theorem HeapSystem.Inv.realloc_right
    (hmay : s.May (.realloc self rmem newsize)) (hrounds : cfg.Rounds newsize)
    {mem : SmallMem} (hrealloc : rtRealloc cfg self rmem newsize s.toSmallMem = some (p, mem))
    (hgiven : newsize = 0 ∨ p ≠ 0) : s.Right cfg (.realloc self rmem newsize) := by
  have hcalled := call_realloc_eq cfg hmay
  rw [hrealloc, Option.map_some] at hcalled
  have hrequested : cfg.Rounds (HeapCall.realloc self rmem newsize).requested := hrounds
  obtain ⟨tiles', hinv'⟩ := hinv.call hrequested hcalled
  refine ⟨_, hcalled, ⟨_, hinv'.heapOk⟩, fun hp => ?_, fun _ _ _ h => (by cases h),
    fun _ _ _ h hzero hp => ?_⟩
  · by_cases hzero : newsize = 0
    · dsimp only [HeapCall.requested]
      omega
    · refine hinv'.room ?_
      simp only [if_neg hzero, if_neg (hgiven.resolve_left hzero), HeapCall.requested]
      exact List.mem_cons_self
  · cases h
    exact absurd hp (hgiven.resolve_left hzero)

theorem HeapSystem.Inv.realloc_null_right
    (hmay : s.May (.realloc self rmem newsize)) (hzero : newsize ≠ 0)
    (hrealloc : rtRealloc cfg self rmem newsize s.toSmallMem = some (0, s.toSmallMem)) :
    s.Right cfg (.realloc self rmem newsize) := by
  refine ⟨{ s with result := 0 }, ?_, hinv.callRight_null _⟩
  rw [call_realloc_eq cfg hmay, hrealloc, Option.map_some]
  dsimp only
  rw [if_neg hzero]
  rfl

theorem HeapSystem.Inv.realloc_wraps
    (hmay : s.May (.realloc self rmem newsize)) (hlive : rmem ∈ s.live.map Live.ptr)
    (hzero : newsize ≠ 0) (hwraps : rtAlign newsize cfg.alignSize = 0) :
    ¬ s.Right cfg (.realloc self rmem newsize) := by
  rintro ⟨s', hcall, hright⟩
  obtain ⟨y, hy, hptr⟩ := List.mem_map.mp hlive
  obtain ⟨x, hx, hat, hpos⟩ := hinv.exists_tile hlive
  obtain ⟨mem, tiles', hfree, houtcome, hfreed, -⟩ := rtFree_spec hinv.layout hx hpos
  have hrealloc : rtRealloc cfg self rmem newsize s.toSmallMem = some (0, mem) := by
    rw [rtRealloc, hwraps, if_neg (Nat.not_lt_zero _), if_pos rfl, hat, hfree]
    rfl
  rw [call_realloc_eq cfg hmay, hrealloc, Option.map_some] at hcall
  dsimp only at hcall
  rw [if_neg hzero] at hcall
  cases hcall
  obtain ⟨hkept, -, -⟩ := hright.refused self rmem newsize rfl hzero rfl y hy
  obtain ⟨offsets, hok⟩ := hright.heapOk
  obtain ⟨t, ht, hsame⟩ := hok.used houtcome.layout hkept
  refine hfreed t ht ?_
  have hbase : mem.heapPtr = s.heapPtr := houtcome.heapPtr
  rw [hptr, hat] at hsame
  simp only [SmallMem.payload, hbase] at hsame
  omega

theorem HeapSystem.Inv.realloc_right_iff (hroomy : s.Roomy cfg)
    (hmay : s.May (.realloc self rmem newsize)) :
    s.Right cfg (.realloc self rmem newsize) ↔
      s.Answers cfg (tiles.map Tile.start) (.realloc self rmem newsize) := by
  obtain ⟨hptr, hsize⟩ := id hmay
  have hbits := cfg.alignBits_le_word
  have hlayout := hinv.layout
  rw [Answers]
  by_cases hzero : newsize = 0
  · -- `rt_free`
    subst hzero
    have hrounds : cfg.Rounds 0 := by
      have halign := sizeofStructMem_lt cfg
      rw [MemConfig.Rounds]
      omega
    have hright : s.Right cfg (.realloc self rmem 0) := by
      obtain ⟨mem, hfree⟩ : ∃ mem, rtFree cfg rmem s.toSmallMem = some mem := by
        rcases hptr with rfl | hlive
        · exact ⟨_, by rw [rtFree, if_pos rfl]⟩
        · obtain ⟨x, hx, rfl, hpos⟩ := hinv.exists_tile hlive
          obtain ⟨mem, -, hfree, -⟩ := rtFree_spec hlayout hx hpos
          exact ⟨mem, hfree⟩
      have hnull : rtRealloc cfg self rmem 0 s.toSmallMem = some (0, mem) := by
        rw [rtRealloc_zero, hfree]
        rfl
      exact hinv.realloc_right hmay hrounds hnull (.inl rfl)
    refine iff_of_true hright ?_
    split
    · exact .inl (rtAlign_zero cfg)
    · exact hrounds
  by_cases hover : s.memSizeAligned < rtAlign newsize cfg.alignSize
  · refine iff_of_true (hinv.realloc_null_right hmay hzero (rtRealloc_over hover self rmem)) ?_
    split
    · exact .inr (.inl hover)
    · by_contra hwraps
      rw [MemConfig.Rounds] at hwraps
      rw [MemConfig.alignSize, rtAlign_wraps hbits hsize (Nat.lt_of_not_le hwraps)] at hover
      omega
  have hle := Nat.le_of_not_lt hover
  by_cases hrounds : cfg.Rounds newsize
  · have hlower : newsize ≤ rtAlign newsize cfg.alignSize := le_rtAlign hbits hrounds
    by_cases hnull : rmem = 0
    · subst hnull
      rw [if_pos rfl]
      obtain ⟨hmalloc, -, -⟩ := rtRealloc_null hlayout hzero (Nat.le_trans hlower hle) self
      have hpos : rtAlign newsize cfg.alignSize ≠ 0 := by omega
      rcases hinv.serves_cases self newsize (rtAlign newsize cfg.alignSize) with
        ⟨hnot, hnone | ⟨hwraps, -⟩⟩ | ⟨hserves, h⟩
      · refine iff_of_false ?_ fun h => ?_
        · rintro ⟨s', hcall, -⟩
          rw [call_realloc_eq cfg hmay, hmalloc, hnone] at hcall
          cases hcall
        · rcases h with h | h | hmin
          · exact hpos h
          · exact hover h
          · exact hnot (.inr (.inr ⟨hmin, .inl hrounds⟩))
      · exact absurd hrounds hwraps
      · refine iff_of_true ?_ ?_
        · rcases h with hnull | ⟨-, p, mem, hgives, hp⟩
          · exact hinv.realloc_null_right hmay hzero (hmalloc.trans hnull)
          · exact hinv.realloc_right hmay hrounds (hmalloc.trans hgives) (.inr hp)
        · rcases hserves with h | h | ⟨hmin, -⟩
          · exact absurd h hpos
          · have hagain := rtAlign_le hbits hle hlayout.sizeAligned hlayout.aligned_room
            exact absurd hagain (Nat.not_le_of_lt h)
          · exact .inr (.inr hmin)
    · rw [if_neg hnull]
      refine iff_of_true ?_ hrounds
      have hlive := hptr.resolve_left hnull
      have hmin := hroomy (List.ne_nil_of_mem (List.mem_map.mp hlive).choose_spec.1)
      obtain ⟨x, hx, rfl, hpos⟩ := hinv.exists_tile hlive
      rcases rtRealloc_spec hlayout hx hpos hzero (Nat.le_trans hlower hle) self with
        ⟨-, htiny⟩ | hnull | ⟨mem, -, tile, hgives, -⟩
      · omega
      · exact hinv.realloc_null_right hmay hzero hnull
      · refine hinv.realloc_right hmay hrounds hgives (.inr ?_)
        have hlen := cfg.twelve_le
        rw [SmallMem.payload]
        omega
  · have hwraps : rtAlign newsize cfg.alignSize = 0 := by
      rw [MemConfig.Rounds] at hrounds
      exact rtAlign_wraps hbits hsize (Nat.lt_of_not_le hrounds)
    by_cases hnull : rmem = 0
    · subst hnull
      rw [if_pos rfl]
      refine iff_of_true (hinv.realloc_null_right hmay hzero ?_) (.inl hwraps)
      rw [rtRealloc, hwraps, if_neg (Nat.not_lt_zero _), if_pos rfl, rtFree, if_pos rfl]
      rfl
    · rw [if_neg hnull]
      exact iff_of_false (hinv.realloc_wraps hmay (hptr.resolve_left hnull) hzero hwraps) hrounds

theorem HeapSystem.Inv.exec_right {call : HeapCall}
    (hrequested : call.requested = 0) (hcalled : s.call cfg call = some s')
    (hresult : s'.result = 0)
    (hother : ∀ self rmem newsize, call ≠ .realloc self rmem newsize) : s.Right cfg call := by
  have hrounds : cfg.Rounds call.requested := by
    have halign := sizeofStructMem_lt cfg
    rw [MemConfig.Rounds, hrequested]
    omega
  obtain ⟨tiles', hinv'⟩ := hinv.call hrounds hcalled
  exact ⟨s', hcalled, ⟨_, hinv'.heapOk⟩, fun hne => absurd hresult hne,
    fun _ _ _ _ hne => absurd hresult hne, fun _ _ _ h => absurd h (hother _ _ _)⟩

theorem HeapSystem.Inv.right_iff (hroomy : s.Roomy cfg) {call : HeapCall} (hmay : s.May call) :
    s.Right cfg call ↔ s.Answers cfg (tiles.map Tile.start) call := by
  cases call with
  | malloc self size => exact hinv.malloc_right_iff hmay
  | calloc self count size => exact hinv.calloc_right_iff hmay.1 hmay.2
  | realloc self rmem newsize => exact hinv.realloc_right_iff hroomy hmay
  | free rmem =>
    have henabled : s.enabled (.free rmem) := hmay
    obtain ⟨mem, hfree⟩ : ∃ mem, rtFree cfg rmem s.toSmallMem = some mem := by
      rcases of_decide_eq_true henabled with rfl | hlive
      · exact ⟨_, by rw [rtFree, if_pos rfl]⟩
      · obtain ⟨x, hx, rfl, hpos⟩ := hinv.exists_tile hlive
        obtain ⟨mem, -, hfree, -⟩ := rtFree_spec hinv.layout hx hpos
        exact ⟨mem, hfree⟩
    have hcalled : s.call cfg (.free rmem) =
        some { toSmallMem := mem, live := dropLive rmem s.live, result := 0 } := by
      simp only [HeapSystem.call, HeapSystem.exec, henabled, if_true, hfree, Option.map_some]
    exact iff_of_true (hinv.exec_right rfl hcalled rfl fun _ _ _ h => by cases h) trivial
  | store rmem index byte =>
    have henabled : s.enabled (.store rmem index byte) := hmay
    have hcalled : s.call cfg (.store rmem index byte) = some { s with
        heap := s.heap.writeBytes (rmem - s.heapPtr + index) [byte], result := 0 } := by
      simp only [HeapSystem.call, HeapSystem.exec, henabled, if_true]
    exact iff_of_true (hinv.exec_right rfl hcalled rfl fun _ _ _ h => by cases h) trivial

end

theorem rounds_right
    (hreach : (callMachine cfg).Reachable (fun _ call => cfg.Rounds call.requested) s) :
    ∃ offsets, s.HeapOk cfg offsets ∧
      ∀ call, s.May call → (s.Right cfg call ↔ s.Answers cfg offsets call) := by
  obtain ⟨tiles, hinv, hroomy⟩ := roomy_of_reachable hreach
  exact ⟨_, hinv.heapOk, fun call hmay => hinv.right_iff hroomy hmay⟩

end Right

end RtThread.Mem
