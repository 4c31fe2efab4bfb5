import RtThread.Mem.Requests

namespace RtThread.Mem

open RtThread.Lib

def SmallMem.Fits (cfg : MemConfig) (s : SmallMem) (need p : Nat) : Prop :=
  usedOf s.heap p = 0 ∧ need ≤ nextOf s.heap p - (p + cfg.sizeofStructMem)

/-- `rt_malloc` returns, and `NULL` only if no block is large enough. -/
def SmallMem.Complete (cfg : MemConfig) (s : SmallMem) (offsets : List Nat) (size : Nat) : Prop :=
  ∀ self, ∃ p s', rtMalloc cfg self size s = some (p, s') ∧
    (p = 0 → ∀ q ∈ offsets, ¬ s.Fits cfg (cfg.needed size) q)

/-- `lfree` is the first unused block, or the end. -/
def SmallMem.LfreeLowest (s : SmallMem) (offsets : List Nat) : Prop :=
  (s.lfree = s.heapEnd ∨ s.lfree ∈ offsets ∧ usedOf s.heap s.lfree = 0) ∧
    ∀ p ∈ offsets, usedOf s.heap p = 0 → s.lfree ≤ p

def SmallMem.OnlyLastFits (cfg : MemConfig) (s : SmallMem) (offsets : List Nat) (need : Nat) :
    Prop :=
  ∃ p ∈ offsets, s.Fits cfg need p ∧ p + cfg.sizeofStructMem + need = s.heapEnd ∧
    ∀ q ∈ offsets, s.Fits cfg need q → q = p

variable {cfg : MemConfig} {s : SmallMem} {tiles : List Tile}

section Fits

variable {tile : Tile}

section

variable (hlayout : Layout cfg s tiles)
include hlayout

theorem Layout.usedOf_mem (hmem : tile ∈ tiles) : usedOf s.heap tile.start = tile.used.toNat := by
  obtain ⟨pre, post, rfl⟩ := List.append_of_mem hmem
  exact hlayout.image.usedOf_eq

theorem Layout.usedOf_eq_zero (hmem : tile ∈ tiles) :
    usedOf s.heap tile.start = 0 ↔ tile.used = false := by
  rw [hlayout.usedOf_mem hmem]
  cases tile.used <;> decide

theorem Layout.fits_iff (hmem : tile ∈ tiles) {need : Nat} : s.Fits cfg need tile.start ↔
      tile.used = false ∧ tile.start + cfg.sizeofStructMem + need ≤ tile.stop := by
  have hfit := (hlayout.start_add_lt hmem).1
  rw [SmallMem.Fits, hlayout.usedOf_eq_zero hmem, hlayout.nextOf_mem hmem]
  constructor
  · intro h
    exact ⟨h.1, by omega⟩
  · intro h
    exact ⟨h.1, by omega⟩

theorem Layout.fits_le (hmem : tile ∈ tiles) {need : Nat}
    (hfits : s.Fits cfg need tile.start) : tile.start + need ≤ s.memSizeAligned := by
  have hbounds := hlayout.start_add_lt hmem
  have hend := hlayout.heapEnd
  have hroom := ((hlayout.fits_iff hmem).mp hfits).2
  omega

theorem Layout.searched_iff (hmem : tile ∈ tiles) {need : Nat} : Searched cfg s need tile ↔
      s.Fits cfg need tile.start ∧ tile.start + need < s.memSizeAligned := by
  rw [hlayout.fits_iff hmem, Searched, and_assoc]

theorem Layout.lfreeLowest (hfrom : UnusedFrom s.lfree tiles) :
    s.LfreeLowest (tiles.map Tile.start) := by
  constructor
  · rcases hlayout.lfree with hend | ⟨tile, hmem, hstart, hunused⟩
    · exact .inl hend
    · rw [← hstart]
      exact .inr ⟨List.mem_map_of_mem hmem, (hlayout.usedOf_eq_zero hmem).mpr hunused⟩
  · intro p hp hunused
    obtain ⟨tile, hmem, rfl⟩ := List.mem_map.mp hp
    exact hfrom tile hmem ((hlayout.usedOf_eq_zero hmem).mp hunused)

end

end Fits

theorem Layout.onlyLastFits_iff (hlayout : Layout cfg s tiles) {need : Nat}
    (hnone : ∀ t ∈ tiles, ¬ Searched cfg s need t) :
    s.OnlyLastFits cfg (tiles.map Tile.start) need ↔
      ∃ p ∈ tiles.map Tile.start, s.Fits cfg need p := by
  have hend := hlayout.heapEnd
  have hlast : ∀ t ∈ tiles, s.Fits cfg need t.start → t.start + need = s.memSizeAligned := by
    intro t ht hfits
    have hle := hlayout.fits_le ht hfits
    have hnot : ¬ t.start + need < s.memSizeAligned := fun hlt =>
      hnone t ht ((hlayout.searched_iff ht).mpr ⟨hfits, hlt⟩)
    omega
  constructor
  · intro h
    obtain ⟨p, hp, hfits, -, -⟩ := h
    exact ⟨p, hp, hfits⟩
  · intro h
    obtain ⟨p, hp, hfits⟩ := h
    refine ⟨p, hp, hfits, ?_, fun q hq hfits' => ?_⟩
    · obtain ⟨t, ht, rfl⟩ := List.mem_map.mp hp
      have hat := hlast t ht hfits
      omega
    · obtain ⟨t, ht, rfl⟩ := List.mem_map.mp hp
      obtain ⟨t', ht', rfl⟩ := List.mem_map.mp hq
      have hat := hlast t ht hfits
      have hat' := hlast t' ht' hfits'
      omega

theorem Layout.complete_iff (hlayout : Layout cfg s tiles) (hfrom : UnusedFrom s.lfree tiles)
    {size : Nat} (hpos : size ≠ 0) :
    s.Complete cfg (tiles.map Tile.start) size ↔
      (cfg.minSizeAligned ≤ s.memSizeAligned ∨
        s.memSizeAligned < rtAlign size cfg.alignSize) ∧
      ¬ s.OnlyLastFits cfg (tiles.map Tile.start) (cfg.needed size) := by
  have hlen := cfg.twelve_le
  by_cases hover : s.memSizeAligned < rtAlign size cfg.alignSize
  · -- nothing can be large enough
    have hnone : ∀ q ∈ tiles.map Tile.start, ¬ s.Fits cfg (cfg.needed size) q := by
      intro q hq hfits
      obtain ⟨t, ht, rfl⟩ := List.mem_map.mp hq
      have hle := hlayout.fits_le ht hfits
      have hneeded : rtAlign size cfg.alignSize ≤ cfg.needed size := Nat.le_max_left ..
      omega
    refine iff_of_true (fun self => ⟨0, s, rtMalloc_over hover self, fun _ => hnone⟩)
      ⟨.inr hover, fun h => ?_⟩
    obtain ⟨p, hp, hfits, -, -⟩ := h
    exact hnone p hp hfits
  have hle : rtAlign size cfg.alignSize ≤ s.memSizeAligned := Nat.le_of_not_lt hover
  by_cases hmin : cfg.minSizeAligned ≤ s.memSizeAligned
  · by_cases hsearched : ∃ t ∈ tiles, Searched cfg s (cfg.needed size) t
    · obtain ⟨t, ht, hfound⟩ := hsearched
      refine iff_of_true (fun self => ?_) ⟨.inl hmin, fun h => ?_⟩
      · rcases rtMalloc_searches hlayout hpos hle self with
          ⟨-, htiny⟩ | ⟨-, ⟨-, hnone⟩ | ⟨left, x, right, rfl, -, hx, hcall⟩⟩
        · omega
        · exact absurd hfound (hnone t ht (hfrom t ht hfound.1))
        · obtain ⟨s', -, -, hrun, -⟩ := mallocFound_spec hlayout hx.1 (cfg.needed_mod size)
            (by have hroom := hx.2.1; omega) self
          exact ⟨_, s', hcall.trans hrun, fun hzero => by omega⟩
      · obtain ⟨p, -, -, hlast, hunique⟩ := h
        obtain ⟨hfits, hearly⟩ := (hlayout.searched_iff ht).mp hfound
        have hsame := hunique t.start (List.mem_map_of_mem ht) hfits
        have hend := hlayout.heapEnd
        omega
    · have hnone : ∀ t ∈ tiles, ¬ Searched cfg s (cfg.needed size) t :=
        fun t ht hfound => hsearched ⟨t, ht, hfound⟩
      have hnull : ∀ self, rtMalloc cfg self size s = some (0, s) := by
        intro self
        rcases rtMalloc_searches hlayout hpos hle self with
          ⟨-, htiny⟩ | ⟨-, ⟨hnull, -⟩ | ⟨left, x, right, rfl, -, hx, -⟩⟩
        · omega
        · exact hnull
        · exact absurd hx (hnone x (by simp))
      rw [hlayout.onlyLastFits_iff hnone]
      constructor
      · intro hcomplete
        obtain ⟨p, s', hcall, hempty⟩ := hcomplete []
        rw [hnull] at hcall
        cases hcall
        refine ⟨.inl hmin, fun h => ?_⟩
        obtain ⟨q, hq, hfits⟩ := h
        exact hempty rfl q hq hfits
      · intro h self
        exact ⟨0, s, hnull self, fun _ q hq hfits => h.2 ⟨q, hq, hfits⟩⟩
  · refine iff_of_false (fun hcomplete => ?_) (fun h => h.1.elim hmin hover)
    obtain ⟨p, s', hcall, -⟩ := hcomplete []
    rcases rtMalloc_searches hlayout hpos hle [] with ⟨hnone, -⟩ | ⟨hmin', -⟩
    · rw [hnone] at hcall
      cases hcall
    · exact hmin hmin'

theorem HeapSystem.Initial.lowest {s : HeapSystem} (hinit : s.Initial cfg) : s.Lowest cfg := by
  obtain ⟨tiles, hinv⟩ := HeapSystem.Initial.inv hinit
  refine ⟨tiles, hinv, fun tile _ _ => ?_⟩
  obtain ⟨beginAddr, endAddr, before, -, hlarge, hroom, hmem, -⟩ := hinit
  rw [rtSystemHeapInit, if_pos (And.intro hlarge hroom)] at hmem
  rw [hmem]
  exact Nat.zero_le _

theorem lowest_of_reachable {s : HeapSystem}
    (hreach : (callMachine cfg).Reachable
      (fun s call => cfg.Rounds call.requested ∧ ¬ s.Shrinks cfg call) s) : s.Lowest cfg :=
  hreach.invariant (fun s => s.Lowest cfg) (fun _ hinit => HeapSystem.Initial.lowest hinit)
    fun _ _ _ hlowest hallowed hcall => hlowest.call hallowed.1 hallowed.2 hcall

/-- In every run without a `rt_realloc` that leaves an unused block before `lfree`. -/
theorem reachable_mallocComplete {s : HeapSystem}
    (hreach : (callMachine cfg).Reachable
      (fun s call => cfg.Rounds call.requested ∧ ¬ s.Shrinks cfg call) s) :
    ∃ offsets, s.HeapOk cfg offsets ∧ s.LfreeLowest offsets ∧
      ∀ size, 0 < size → (s.Complete cfg offsets size ↔
        (cfg.minSizeAligned ≤ s.memSizeAligned ∨
          s.memSizeAligned < rtAlign size cfg.alignSize) ∧
        ¬ s.OnlyLastFits cfg offsets (cfg.needed size)) := by
  obtain ⟨tiles, hinv, hfrom⟩ := lowest_of_reachable hreach
  exact ⟨_, hinv.heapOk, hinv.layout.lfreeLowest hfrom,
    fun size hpos => hinv.layout.complete_iff hfrom (Nat.ne_of_gt hpos)⟩

/-- The second block shrinks and its rest joins the unused block at `lfree`. -/
theorem reachable_mallocComplete_joins :
    ∃ s, (callMachine smallConfig).Reachable
        (fun s call => smallConfig.Rounds call.requested ∧ ¬ s.Shrinks smallConfig call) s ∧
      s.live = [⟨4152, 8⟩, ⟨4116, 20⟩] ∧ s.lfree = 60 ∧
      ∃ offsets, s.HeapOk smallConfig offsets ∧ s.LfreeLowest offsets ∧
        ∀ size, 0 < size → (s.Complete smallConfig offsets size ↔
          (smallConfig.minSizeAligned ≤ s.memSizeAligned ∨
            s.memSizeAligned < rtAlign size smallConfig.alignSize) ∧
          ¬ s.OnlyLastFits smallConfig offsets (smallConfig.needed size)) := by
  have hrun : ((callMachine smallConfig).run
      (fun s call => smallConfig.Rounds call.requested ∧ ¬ s.Shrinks smallConfig call) heapStart
      [.calloc [97] 5 4, .malloc [98] 40, .realloc [98] 4152 8]).map
      (fun s => (s.live, s.lfree)) = some ([⟨4152, 8⟩, ⟨4116, 20⟩], 60) := by
    decide +kernel
  obtain ⟨s, hreach, hvalue⟩ := Machine.exists_reachable_of_run heapStart_initial hrun
  simp only [Prod.mk.injEq] at hvalue
  exact ⟨s, hreach, hvalue.1, hvalue.2, reachable_mallocComplete hreach⟩

theorem Visits.next {next : Nat → Nat} {p e : Nat} {offsets : List Nat}
    (hwalk : Visits next p offsets e) (hne : p ≠ e) :
    ∃ rest, offsets = p :: rest ∧ Visits next (next p) rest e := by
  cases offsets with
  | nil => exact absurd hwalk hne
  | cons q rest =>
    obtain ⟨rfl, hrest⟩ := hwalk
    exact ⟨rest, rfl, hrest⟩

theorem not_complete {offsets : List Nat} {size p : Nat} (hp : p ∈ offsets)
    (hfits : s.Fits cfg (cfg.needed size) p)
    (hnull : (rtMalloc cfg [] size s).map Prod.fst = some 0) : ¬ s.Complete cfg offsets size := by
  intro hcomplete
  obtain ⟨q, s', hcall, hempty⟩ := hcomplete []
  rw [hcall, Option.map_some, Option.some.injEq] at hnull
  exact hempty hnull p hp hfits

/-- A new heap cannot give out all it has; after a block has been shrunk below `lfree`
the rest of it is not found; in a heap of eight bytes `rt_malloc` does not return. -/
theorem mallocComplete_fails :
    (∃ s offsets, (callMachine smallConfig).Reachable (fun _ call => call.requested ≤ 2 ^ 31) s ∧
      s.HeapOk smallConfig offsets ∧ ¬ s.Complete smallConfig offsets 476) ∧
    (∃ s offsets, (callMachine smallConfig).Reachable (fun _ call => call.requested ≤ 2 ^ 31) s ∧
      s.HeapOk smallConfig offsets ∧ ¬ s.LfreeLowest offsets ∧
      ¬ s.Complete smallConfig offsets 4) ∧
    (∃ s : HeapSystem, s.Initial smallConfig ∧
      rtMalloc smallConfig [] 4 s.toSmallMem = none) := by
  have hrounds : ∀ (s : HeapSystem) (call : HeapCall), call.requested ≤ 2 ^ 31 →
      smallConfig.Rounds call.requested := by
    intro s call hle
    have halign : smallConfig.alignSize = 4 := by decide
    rw [MemConfig.Rounds, halign]
    omega
  refine ⟨?_, ?_, ?_⟩
  · have hreach : (callMachine smallConfig).Reachable
        (fun _ call => call.requested ≤ 2 ^ 31) heapStart := .start heapStart_initial
    obtain ⟨tiles, hinv⟩ := inv_of_reachable hrounds hreach
    obtain ⟨rest, hoffsets, -⟩ := hinv.heapOk.walk.next (by decide +kernel)
    have hmem : 0 ∈ tiles.map Tile.start := by
      rw [hoffsets]
      exact List.mem_cons_self
    exact ⟨heapStart, _, hreach, hinv.heapOk,
      not_complete hmem ⟨by decide +kernel, by decide +kernel⟩ (by decide +kernel)⟩
  · have hrun : ((callMachine smallConfig).run (fun _ call => call.requested ≤ 2 ^ 31) heapStart
        [.malloc [97] 460, .realloc [97] 4116 20]).map
        (fun s => (s.heapEnd, s.lfree, nextOf s.heap 0, usedOf s.heap 36, nextOf s.heap 36,
          (rtMalloc smallConfig [] 4 s.toSmallMem).map Prod.fst)) =
        some (492, 492, 36, 0, 492, some 0) := by
      decide +kernel
    obtain ⟨s, hreach, hvalue⟩ := Machine.exists_reachable_of_run heapStart_initial hrun
    simp only [Prod.mk.injEq] at hvalue
    obtain ⟨hend, hlfree, hnext, hused, hstop, hnull⟩ := hvalue
    obtain ⟨tiles, hinv⟩ := inv_of_reachable hrounds hreach
    obtain ⟨rest, hoffsets, hwalk⟩ := hinv.heapOk.walk.next (by omega)
    rw [hnext] at hwalk
    obtain ⟨rest', hrest, -⟩ := hwalk.next (by omega)
    have hmem : 36 ∈ tiles.map Tile.start := by
      rw [hoffsets, hrest]
      simp
    refine ⟨s, _, hreach, hinv.heapOk, fun hlowest => ?_, not_complete hmem ?_ hnull⟩
    · have hle := hlowest.2 36 hmem hused
      omega
    · refine ⟨hused, ?_⟩
      rw [hstop]
      decide
  · refine ⟨⟨rtSystemHeapInit smallConfig 4096 4136 heapStart.toSmallMem, [], 0⟩,
      ⟨4096, 4136, _, by decide, by decide +kernel, by decide +kernel, rfl, ?_, ?_, rfl⟩, ?_⟩
    · decide +kernel
    · decide +kernel
    · exact Option.isNone_iff_eq_none.mp (by decide +kernel)

end RtThread.Mem
