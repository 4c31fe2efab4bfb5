import RtThread.Memheap.Placement

namespace RtThread.Memheap

open RtThread.Lib RtThread.Mem

/-- `rt_memheap_alloc` returns, and `NULL` only if no free block is large enough. -/
def RtMemheap.Complete (cfg : MemheapConfig) (s : RtMemheap) (frees : List Nat) (size : Nat) :
    Prop :=
  ∃ p s', rtMemheapAlloc cfg size s = some (p, s') ∧
    (p = 0 → ∀ b ∈ frees,
      memitemSize cfg s.memory b < max (rtAlign size cfg.alignSize) memheapMinialloc)

def RtMemheap.JustFits (cfg : MemheapConfig) (s : RtMemheap) (frees : List Nat) (need : Nat) :
    Prop :=
  s.availableSize = need ∧ ∃ b ∈ frees, need ≤ memitemSize cfg s.memory b

variable {cfg : MemheapConfig} {s : RtMemheap} {tiles : List Tile} {frees : List Nat}

theorem allocatedSize_eq_max (cfg : MemheapConfig) (size : Nat) :
    allocatedSize cfg size = max (rtAlign size cfg.alignSize) memheapMinialloc := by
  unfold allocatedSize
  dsimp only
  split
  next hshort => exact (Nat.max_eq_right (Nat.le_of_lt hshort)).symm
  next hlong => exact (Nat.max_eq_left (Nat.le_of_not_lt hlong)).symm

theorem Layout.memitemSize_le (hlayout : Layout cfg s tiles frees) {b : Nat} (hb : b ∈ frees) :
    memitemSize cfg s.memory b ≤ s.availableSize := by
  obtain ⟨t, ht, hfree, rfl⟩ := mem_freeStarts.mp (hlayout.frees.mem_iff.mp hb)
  rw [hlayout.shape.memitemSize_eq ht (hlayout.stop_lt ht), hlayout.available]
  obtain ⟨pre, post, rfl⟩ := List.append_of_mem ht
  rw [freeBytes_append, freeBytes_cons_free hfree]
  omega

theorem Layout.complete_iff (hlayout : Layout cfg s tiles frees) (hrecorded : s.Recorded)
    (size : Nat) :
    s.Complete cfg frees size ↔ ¬ s.JustFits cfg frees (allocatedSize cfg size) := by
  rw [RtMemheap.Complete, ← allocatedSize_eq_max]
  have hlen := twentyFour_le cfg
  rcases rtMemheapAlloc_spec hlayout hrecorded size with
    ⟨s', hcall, -, hfull⟩ | ⟨pre, x, post, tile, rest, s', rfl, -, -, hcall, -, hroom, -⟩
  · rw [hcall]
    constructor
    · rintro ⟨p, s', hsame, hempty⟩ ⟨-, b, hb, hle⟩
      cases hsame
      exact Nat.not_le_of_lt (hempty rfl b hb) hle
    · intro hnot
      refine ⟨0, s', rfl, fun _ b hb => ?_⟩
      by_contra hlong
      have hle := Nat.le_of_not_lt hlong
      rcases hfull with hfull | hshort
      · have hwhole := hlayout.memitemSize_le hb
        exact hnot ⟨by omega, b, hb, hle⟩
      · obtain ⟨t, ht, hfree, rfl⟩ := mem_freeStarts.mp (hlayout.frees.mem_iff.mp hb)
        rw [hlayout.shape.memitemSize_eq ht (hlayout.stop_lt ht)] at hlong
        exact hlong (hshort t ht hfree)
  · refine iff_of_true ⟨_, s', hcall, fun hzero => by omega⟩ fun h => ?_
    have hall := h.1
    omega

theorem Initial.neat {s : MemheapClient} (hinit : s.Initial cfg) :
    ∃ tiles, s.Inv cfg tiles ∧ Neat cfg s.toRtMemheap tiles ∧ Placed cfg tiles := by
  obtain ⟨tiles, hinv⟩ := MemheapClient.Initial.inv hinit
  obtain ⟨heap, startAddr, size, memory, haligned, hpos, hheap, hfits, hobject, hapart, hlarge,
    hsize, hmem, -⟩ := hinit
  have hregion := region_init cfg hpos hheap hfits hobject hapart hlarge hsize
  obtain ⟨hlayout, hrecorded⟩ := layout_init hregion memory
  rw [← hmem] at hlayout hrecorded
  obtain ⟨frees, hlayout'⟩ := hinv.layout
  cases hlayout'.unique hlayout
  refine ⟨_, hinv, ⟨⟨_, hlayout⟩, hrecorded, ?_⟩, fun t ht => ?_⟩
  · have havailable : s.availableSize =
        dataSize cfg ⟨startAddr, (initPool cfg heap startAddr size).tail cfg, false⟩ + 0 :=
      hlayout.available
    rcases Nat.lt_or_ge s.availableSize memheapMinialloc with hsmall | hlong
    · refine .inr ⟨fun t ht => ?_, hsmall⟩
      rw [List.mem_singleton.mp ht]
    · refine .inl fun t ht => ?_
      rw [List.mem_singleton.mp ht]
      omega
  · rw [List.mem_singleton.mp ht]
    exact haligned

theorem neat_of_reachable {allowed : MemheapClient → MemheapOp → Prop} {s : MemheapClient}
    (hreach : (memheapMachine cfg).Reachable allowed s) :
    ∃ tiles, s.Inv cfg tiles ∧ Neat cfg s.toRtMemheap tiles ∧
      ((∀ s op, allowed s op → ¬ s.Misplaces cfg op) → Placed cfg tiles) := by
  refine hreach.invariant (fun s => ∃ tiles, s.Inv cfg tiles ∧ Neat cfg s.toRtMemheap tiles ∧
    ((∀ s op, allowed s op → ¬ s.Misplaces cfg op) → Placed cfg tiles))
    (fun s hinit => ?_) (fun s op s' h hallowed hexec => ?_)
  · obtain ⟨tiles, hinv, hneat, hplaced⟩ := Initial.neat hinit
    exact ⟨tiles, hinv, hneat, fun _ => hplaced⟩
  · obtain ⟨tiles, hinv, hneat, hplaced⟩ := h
    obtain ⟨tiles', hinv', hneat', hkept⟩ := hinv.neat_step hneat hexec
    exact ⟨tiles', hinv', hneat', fun hall => hkept (hplaced hall) (hall s op hallowed)⟩

theorem MemheapClient.Inv.ptr_mod {s : MemheapClient} (hinv : s.Inv cfg tiles)
    (hplaced : Placed cfg tiles) {y : Live} (hy : y ∈ s.live) : y.ptr % cfg.alignSize = 0 := by
  obtain ⟨tile, htile, hptr, -⟩ := hinv.live y hy
  rw [hptr]
  exact Nat.mod_eq_zero_of_dvd (Nat.dvd_add
    (Nat.dvd_of_mod_eq_zero (hplaced tile (mem_usedTiles.mp htile).1))
    (Nat.dvd_of_mod_eq_zero (memheapSize_mod cfg)))

/-- For every pool: requests are found in every reachable state, and pointers are aligned in
every run without a call that misplaces an item. -/
theorem reachable_memheapComplete (cfg : MemheapConfig) :
    (∀ s, (memheapMachine cfg).Reachable (fun _ _ => True) s →
      ∃ blocks frees, s.WellFormed cfg blocks frees ∧
        ∀ size ≤ s.poolSize,
          s.Complete cfg frees size ↔ ¬ s.JustFits cfg frees (allocatedSize cfg size)) ∧
    ∀ s, (memheapMachine cfg).Reachable (fun s op => ¬ s.Misplaces cfg op) s →
      ∀ y ∈ s.live, y.ptr % cfg.alignSize = 0 := by
  refine ⟨fun s hreach => ?_, fun s hreach y hy => ?_⟩
  · obtain ⟨tiles, hinv⟩ := exists_inv_of_reachable hreach
    obtain ⟨frees, hlayout⟩ := hinv.layout
    exact ⟨_, frees, hinv.wellFormed hlayout, fun size _ => hlayout.complete_iff hinv.recorded size⟩
  · obtain ⟨tiles, hinv, -, hplaced⟩ := neat_of_reachable hreach
    exact hinv.ptr_mod (hplaced fun _ _ h => h) hy

def alignedMemheapConfig : MemheapConfig := ⟨3, 20, Nat.le_add_left 3 27⟩

def alignedMemheapStart : MemheapClient where
  toRtMemheap := rtMemheapInit alignedMemheapConfig 4 1000 400 fun _ => 0
  live := []
  result := 0

theorem alignedMemheapStart_initial : alignedMemheapStart.Initial alignedMemheapConfig :=
  ⟨4, 1000, 400, fun _ => 0, by decide, by decide, by decide, by decide, by decide, by decide,
    by decide, by decide, rfl, rfl⟩

theorem reachable_memheapComplete_moves :
    ∃ s, (memheapMachine alignedMemheapConfig).Reachable
        (fun s op => ¬ s.Misplaces alignedMemheapConfig op) s ∧
      s.live.map Live.ptr = [1064, 1176, 1112, 1024] ∧
      (∃ blocks frees, s.WellFormed alignedMemheapConfig blocks frees ∧
        ∀ size ≤ s.poolSize,
          s.Complete alignedMemheapConfig frees size ↔
            ¬ s.JustFits alignedMemheapConfig frees (allocatedSize alignedMemheapConfig size)) ∧
      ∀ y ∈ s.live, y.ptr % alignedMemheapConfig.alignSize = 0 := by
  have hrun : ((memheapMachine alignedMemheapConfig).run
      (fun s op => ¬ s.Misplaces alignedMemheapConfig op) alignedMemheapStart
      [.alloc 50, .realloc 1024 16, .alloc 24, .alloc 40, .realloc 1064 60, .alloc 9]).map
      (fun s => s.live.map Live.ptr) = some [1064, 1176, 1112, 1024] := by
    decide +kernel
  obtain ⟨s, hreach, hvalue⟩ :=
    Machine.exists_reachable_of_run alignedMemheapStart_initial hrun
  exact ⟨s, hreach, hvalue, (reachable_memheapComplete _).1 s (hreach.mono fun _ _ _ => trivial),
    (reachable_memheapComplete _).2 s hreach⟩

/-- Behind a block of twelve bytes the next one is not aligned to eight; and a new heap does not
give out the one block that it has. -/
theorem memheapComplete_fails :
    (∃ s, (memheapMachine alignedMemheapConfig).Reachable (fun _ _ => True) s ∧
      ∃ y ∈ s.live, y.ptr % alignedMemheapConfig.alignSize ≠ 0) ∧
    ∃ s blocks frees, (memheapMachine smallMemheapConfig).Reachable (fun _ _ => True) s ∧
      s.WellFormed smallMemheapConfig blocks frees ∧
      ∃ size ≤ s.poolSize, ¬ s.Complete smallMemheapConfig frees size := by
  constructor
  · have hrun : ((memheapMachine alignedMemheapConfig).run (fun _ _ => True)
        alignedMemheapStart [.alloc 4, .alloc 16]).map MemheapClient.live =
        some [⟨1060, 16⟩, ⟨1024, 4⟩] := by
      decide +kernel
    obtain ⟨s, hreach, hlive⟩ :=
      Machine.exists_reachable_of_run alignedMemheapStart_initial hrun
    exact ⟨s, hreach, ⟨1060, 16⟩, by simp [hlive], by decide⟩
  · have hreach : (memheapMachine smallMemheapConfig).Reachable (fun _ _ => True)
        memheapStart := .start memheapStart_initial
    obtain ⟨tiles, hinv⟩ := exists_inv_of_reachable hreach
    obtain ⟨frees, hlayout⟩ := hinv.layout
    have hwellFormed := hinv.wellFormed hlayout
    refine ⟨_, _, frees, hreach, hwellFormed, 352, by decide +kernel, ?_⟩
    rintro ⟨p, s', hcall, hempty⟩
    have hnull : (rtMemheapAlloc smallMemheapConfig 352 memheapStart.toRtMemheap).map Prod.fst =
        some 0 := by
      decide +kernel
    rw [hcall, Option.map_some, Option.some.injEq] at hnull
    have hfirst : 1000 ∈ tiles.map Tile.start := by
      have hhead := List.mem_of_head? hwellFormed.first
      refine (List.mem_append.mp hhead).resolve_right fun htail => ?_
      exact absurd (List.mem_singleton.mp htail) (by decide +kernel)
    have hshort := hempty hnull 1000
      ((hwellFormed.unused 1000).mpr ⟨hfirst, by decide +kernel⟩)
    exact absurd hshort (by decide +kernel)

end RtThread.Memheap
