import RtThread.Memheap.Layout

namespace RtThread.Memheap

open RtThread.Lib

def freeTiles (tiles : List Tile) : List Tile := tiles.filter fun t => !t.used

def freeStarts (tiles : List Tile) : List Nat := (freeTiles tiles).map Tile.start

def dataSize (cfg : MemheapConfig) (t : Tile) : Nat := t.stop - (t.start + cfg.memheapSize)

def freeBytes (cfg : MemheapConfig) (tiles : List Tile) : Nat :=
  ((freeTiles tiles).map (dataSize cfg)).sum

structure Layout (cfg : MemheapConfig) (s : RtMemheap) (tiles : List Tile) (frees : List Nat) :
    Prop where
  region : Region cfg s.toMemheapPool
  shape : Shape cfg s.toMemheapPool s.memory tiles frees
  frees : frees.Perm (freeStarts tiles)
  coalesced : Coalesced tiles
  available : s.availableSize = freeBytes cfg tiles

structure Recorded (poolSize availableSize maxUsedSize : Nat) (released : List Nat) : Prop where
  current : availableSize ∈ released
  reached : ∃ r ∈ released, poolSize - r = maxUsedSize
  bound : ∀ r ∈ released, poolSize - r ≤ maxUsedSize

def RtMemheap.Recorded (s : RtMemheap) : Prop :=
  Memheap.Recorded s.poolSize s.availableSize s.maxUsedSize s.released

structure Outcome (cfg : MemheapConfig) (s s' : RtMemheap) (kept tiles' : List Tile) : Prop where
  pool : s'.toMemheapPool = s.toMemheapPool
  layout : ∃ frees', Layout cfg s' tiles' frees'
  recorded : s'.Recorded
  keeps : ∀ t ∈ kept, t ∈ tiles' ∧ Kept cfg s.memory s'.memory t

variable {cfg : MemheapConfig} {s s' : RtMemheap} {tiles pre post : List Tile} {frees : List Nat}
  {x t : Tile} {size a e : Nat}

@[simp] theorem freeStarts_append : freeStarts (pre ++ post) = freeStarts pre ++ freeStarts post := by
  simp [freeStarts, freeTiles]

theorem freeStarts_cons_free (hfree : t.used = false) :
    freeStarts (t :: tiles) = t.start :: freeStarts tiles := by
  simp [freeStarts, freeTiles, hfree]

theorem freeStarts_cons_used (hused : t.used = true) :
    freeStarts (t :: tiles) = freeStarts tiles := by
  simp [freeStarts, freeTiles, hused]

@[simp] theorem freeBytes_append :
    freeBytes cfg (pre ++ post) = freeBytes cfg pre + freeBytes cfg post := by
  simp [freeBytes, freeTiles]

theorem freeBytes_cons_free (hfree : t.used = false) :
    freeBytes cfg (t :: tiles) = dataSize cfg t + freeBytes cfg tiles := by
  simp [freeBytes, freeTiles, hfree]

theorem freeBytes_cons_used (hused : t.used = true) :
    freeBytes cfg (t :: tiles) = freeBytes cfg tiles := by
  simp [freeBytes, freeTiles, hused]

theorem freeBytes_le (htiling : Tiles cfg.memheapSize a tiles e) : freeBytes cfg tiles ≤ e - a := by
  induction tiles generalizing a with
  | nil => exact Nat.zero_le _
  | cons t tiles ih =>
    obtain ⟨rfl, hlen, hrest⟩ := htiling
    have hle := hrest.le
    have hbytes := ih hrest
    cases hused : t.used with
    | true =>
      rw [freeBytes_cons_used hused]
      omega
    | false =>
      rw [freeBytes_cons_free hused, dataSize]
      omega

theorem mem_freeStarts : a ∈ freeStarts tiles ↔ ∃ t ∈ tiles, t.used = false ∧ t.start = a := by
  simp [freeStarts, freeTiles, and_assoc]

section Rows

def Coarser (old new : List Tile) : Prop :=
  ∀ t ∈ new, ∃ u ∈ old, u.start = t.start ∧ u.stop ≤ t.stop

def Long (cfg : MemheapConfig) (tiles : List Tile) : Prop :=
  ∀ t ∈ tiles, memheapMinialloc ≤ dataSize cfg t

/-- All items are where `RT_ALIGN_SIZE` wants them. -/
def Placed (cfg : MemheapConfig) (tiles : List Tile) : Prop :=
  ∀ t ∈ tiles, t.start % cfg.alignSize = 0

variable {old mid new : List Tile}

theorem Coarser.refl (tiles : List Tile) : Coarser tiles tiles :=
  fun t ht => ⟨t, ht, rfl, Nat.le_refl _⟩

theorem Coarser.trans (hfirst : Coarser old mid) (hsecond : Coarser mid new) : Coarser old new := by
  intro t ht
  obtain ⟨u, hu, hstart, hstop⟩ := hsecond t ht
  obtain ⟨v, hv, hstart', hstop'⟩ := hfirst u hu
  exact ⟨v, hv, hstart'.trans hstart, Nat.le_trans hstop' hstop⟩

theorem Coarser.long (hcoarser : Coarser old new) (hlong : Long cfg old) : Long cfg new := by
  intro t ht
  obtain ⟨u, hu, hstart, hstop⟩ := hcoarser t ht
  have hdata := hlong u hu
  unfold dataSize at hdata ⊢
  omega

theorem Coarser.placed (hcoarser : Coarser old new) (hplaced : Placed cfg old) :
    Placed cfg new := by
  intro t ht
  obtain ⟨u, hu, hstart, -⟩ := hcoarser t ht
  rw [← hstart]
  exact hplaced u hu

theorem Coarser.middle {y : Tile} (hstart : x.start = y.start) (hstop : x.stop ≤ y.stop) :
    Coarser (pre ++ x :: post) (pre ++ y :: post) := by
  intro t ht
  rw [List.mem_append, List.mem_cons] at ht
  rcases ht with hin | rfl | hin
  · exact ⟨t, by simp [hin], rfl, Nat.le_refl _⟩
  · exact ⟨x, by simp, hstart, hstop⟩
  · exact ⟨t, by simp [hin], rfl, Nat.le_refl _⟩

theorem Coarser.merge {y z : Tile} (hstart : x.start = z.start) (hstop : x.stop ≤ z.stop) :
    Coarser (pre ++ x :: y :: post) (pre ++ z :: post) := by
  intro t ht
  rw [List.mem_append, List.mem_cons] at ht
  rcases ht with hin | rfl | hin
  · exact ⟨t, by simp [hin], rfl, Nat.le_refl _⟩
  · exact ⟨x, by simp, hstart, hstop⟩
  · exact ⟨t, by simp [hin], rfl, Nat.le_refl _⟩

end Rows

section Recorded

variable {poolSize availableSize availableSize' maxUsedSize : Nat} {released : List Nat}

theorem Recorded.used (hrecorded : Recorded poolSize availableSize maxUsedSize released)
    (hle : availableSize' ≤ poolSize) (hlt : poolSize < 2 ^ 32) :
    Recorded poolSize availableSize'
      (if maxUsedSize < sub32 poolSize availableSize' then sub32 poolSize availableSize'
        else maxUsedSize) (availableSize' :: released) := by
  rw [sub32_eq hle hlt]
  obtain ⟨r, hr, hreached⟩ := hrecorded.reached
  refine ⟨List.mem_cons_self, ?_, fun r' hr' => ?_⟩
  · split
    · exact ⟨availableSize', List.mem_cons_self, rfl⟩
    · exact ⟨r, List.mem_cons_of_mem _ hr, hreached⟩
  · rcases List.mem_cons.mp hr' with rfl | hr'
    · split <;> omega
    · have hbound := hrecorded.bound r' hr'
      split <;> omega

theorem Recorded.freed (hrecorded : Recorded poolSize availableSize maxUsedSize released)
    (hle : availableSize ≤ availableSize') :
    Recorded poolSize availableSize' maxUsedSize (availableSize' :: released) := by
  obtain ⟨r, hr, hreached⟩ := hrecorded.reached
  refine ⟨List.mem_cons_self, ⟨r, List.mem_cons_of_mem _ hr, hreached⟩, fun r' hr' => ?_⟩
  rcases List.mem_cons.mp hr' with rfl | hr'
  · have hbound := hrecorded.bound availableSize hrecorded.current
    omega
  · exact hrecorded.bound r' hr'

end Recorded

namespace Layout

section

variable (hlayout : Layout cfg s tiles frees)
include hlayout

theorem pool_lt : s.poolSize < 2 ^ 32 := by
  have hfits := hlayout.region.fits
  have hpos := hlayout.region.pos
  omega

theorem bounds (ht : t ∈ tiles) : s.startAddr ≤ t.start ∧ t.start + cfg.memheapSize ≤ t.stop ∧
      t.stop + cfg.memheapSize ≤ s.startAddr + s.poolSize := by
  have htail := hlayout.region.tail_add
  have hbounds := hlayout.shape.tiling.bounds ht
  omega

theorem stop_lt (ht : t ∈ tiles) : t.stop < 2 ^ 32 := by
  have hbounds := hlayout.bounds ht
  have hfits := hlayout.region.fits
  have hlen := twentyFour_le cfg
  omega

theorem available_le : s.availableSize + cfg.memheapSize ≤ s.poolSize := by
  have hle := freeBytes_le hlayout.shape.tiling
  have htail := hlayout.region.tail_add
  have hbounds := hlayout.shape.tiling.le
  rw [hlayout.available]
  omega

end

end Layout

theorem Shape.memitemSize_eq {pool : MemheapPool} {memory : ByteMemory} {list : List Nat}
    (hshape : Shape cfg pool memory tiles list) (ht : t ∈ tiles) (hlt : t.stop < 2 ^ 32) :
    memitemSize cfg memory t.start = dataSize cfg t := by
  obtain ⟨pre, post, rfl⟩ := List.append_of_mem ht
  have hlen := (hshape.tiling.bounds ht).2.1
  unfold memitemSize
  rw [hshape.next_eq, sub32_eq (by omega) hlt, sub32_eq (by omega) (by omega), dataSize]
  omega

theorem searchLoop_spec (cfg : MemheapConfig) {memory : ByteMemory} {freeList fuel freeSize p : Nat}
    {rest tail : List Nat} {prevFree : Nat → Nat}
    (hlinked : Linked (itemsOf memory .nextFree) prevFree (rest ++ [freeList]))
    (hfirst : rest ++ [freeList] = p :: tail) (hout : freeList ∉ rest)
    (hfuel : rest.length + 2 ≤ fuel) (hshort : freeSize < size) :
    (∃ freeSize', searchLoop cfg memory freeList size fuel p freeSize =
        some (freeList, freeSize') ∧ freeSize' < size ∧
          ∀ b ∈ rest, memitemSize cfg memory b < size) ∨
      ∃ l1 b l2, rest = l1 ++ b :: l2 ∧ size ≤ memitemSize cfg memory b ∧
        searchLoop cfg memory freeList size fuel p freeSize = some (b, memitemSize cfg memory b) ∧
        ∀ c ∈ l1, memitemSize cfg memory c < size := by
  induction rest generalizing fuel freeSize p tail with
  | nil =>
    cases hfirst
    obtain ⟨fuel, rfl⟩ : ∃ k, fuel = k + 1 := ⟨_, (Nat.succ_pred (by omega)).symm⟩
    refine .inl ⟨freeSize, ?_, hshort, fun b hb => absurd hb List.not_mem_nil⟩
    rw [searchLoop, if_neg (by simp)]
  | cons b rest ih =>
    obtain ⟨rfl, rfl⟩ := List.cons.inj hfirst
    rw [List.length_cons] at hfuel
    rw [List.mem_cons, not_or] at hout
    obtain ⟨fuel, rfl⟩ : ∃ k, fuel = k + 2 := ⟨fuel - 2, by omega⟩
    rw [searchLoop, if_pos ⟨Ne.symm hout.1, hshort⟩]
    dsimp only
    by_cases hlong : memitemSize cfg memory b < size
    · rw [if_pos hlong]
      obtain ⟨n, tail', hn⟩ : ∃ n tail', rest ++ [freeList] = n :: tail' := by
        cases rest with
        | nil => exact ⟨_, _, rfl⟩
        | cons c rest => exact ⟨_, _, rfl⟩
      have hlinked' : Linked (itemsOf memory .nextFree) prevFree (b :: n :: tail') := hn ▸ hlinked
      obtain ⟨⟨hnext, -⟩, hrest⟩ := List.isChain_cons_cons.mp hlinked'
      have hnext' : itemGet .nextFree memory b = n := hnext
      rw [hnext']
      rcases ih (hn ▸ hrest) hn hout.2 (show rest.length + 2 ≤ fuel + 1 by omega) hlong with
        ⟨freeSize', hloop, hshort', hall⟩ | ⟨l1, c, l2, rfl, hc, hloop, hbefore⟩
      · refine .inl ⟨freeSize', hloop, hshort', fun c hc => ?_⟩
        rcases List.mem_cons.mp hc with rfl | hc
        · exact hlong
        · exact hall c hc
      · refine .inr ⟨b :: l1, c, l2, rfl, hc, hloop, fun d hd => ?_⟩
        rcases List.mem_cons.mp hd with rfl | hd
        · exact hlong
        · exact hbefore d hd
    · refine .inr ⟨[], b, rest, rfl, by omega, ?_, fun d hd => absurd hd List.not_mem_nil⟩
      rw [if_neg hlong, searchLoop, if_neg (fun h => hlong h.2)]

section Take

variable {l1 l2 : List Nat} {tile : Tile} {rest : List Tile}

structure Carved (cfg : MemheapConfig) (x tile : Tile) (size : Nat) (rest : List Tile) : Prop where
  start : tile.start = x.start
  used : tile.used = true
  room : size ≤ dataSize cfg tile
  rest : rest = [] ∧ tile.stop = x.stop ∨
    rest = [⟨tile.stop, x.stop, false⟩] ∧ tile.stop = x.start + size + cfg.memheapSize

theorem Long.replace {new : List Tile} (hlong : Long cfg (pre ++ x :: post))
    (hnew : ∀ t ∈ new, memheapMinialloc ≤ dataSize cfg t) : Long cfg (pre ++ (new ++ post)) := by
  intro t ht
  rw [List.mem_append, List.mem_append] at ht
  rcases ht with hin | hin | hin
  · exact hlong t (by simp [hin])
  · exact hnew t hin
  · exact hlong t (by simp [hin])

theorem Placed.replace {new : List Tile} (hplaced : Placed cfg (pre ++ x :: post))
    (hnew : ∀ t ∈ new, t.start % cfg.alignSize = 0) : Placed cfg (pre ++ (new ++ post)) := by
  intro t ht
  rw [List.mem_append, List.mem_append] at ht
  rcases ht with hin | hin | hin
  · exact hplaced t (by simp [hin])
  · exact hnew t hin
  · exact hplaced t (by simp [hin])

theorem Carved.long (hcarved : Carved cfg x tile size rest)
    (hlong : Long cfg (pre ++ x :: post)) (hsize : memheapMinialloc ≤ size)
    (hsplit : rest ≠ [] → size + cfg.memheapSize + memheapMinialloc ≤ dataSize cfg x) :
    Long cfg (pre ++ tile :: (rest ++ post)) := by
  refine @Long.replace cfg pre post x (tile :: rest) hlong fun t ht => ?_
  rcases List.mem_cons.mp ht with rfl | ht
  · exact Nat.le_trans hsize hcarved.room
  · rcases hcarved.rest with ⟨rfl, -⟩ | ⟨rfl, hstop⟩
    · cases ht
    · have hroom := hsplit (List.cons_ne_nil _ _)
      rw [List.mem_singleton] at ht
      subst ht
      unfold dataSize at hroom ⊢
      dsimp only
      omega

theorem memheapSize_mod (cfg : MemheapConfig) : cfg.memheapSize % cfg.alignSize = 0 :=
  rtAlign_mod 24 (Nat.le_trans cfg.alignBits_le (by decide))

theorem behind_mod {start : Nat} (hstart : start % cfg.alignSize = 0)
    (hsize : size % cfg.alignSize = 0) : (start + cfg.memheapSize + size) % cfg.alignSize = 0 := by
  rw [Nat.add_mod, Nat.add_mod start, hstart, memheapSize_mod, hsize]
  simp

theorem Carved.placed (hcarved : Carved cfg x tile size rest)
    (hplaced : Placed cfg (pre ++ x :: post)) (hsize : rest = [] ∨ size % cfg.alignSize = 0) :
    Placed cfg (pre ++ tile :: (rest ++ post)) := by
  have hx := hplaced x (by simp)
  refine @Placed.replace cfg pre post x (tile :: rest) hplaced fun t ht => ?_
  rcases List.mem_cons.mp ht with rfl | ht
  · rw [hcarved.start]
    exact hx
  · rcases hcarved.rest with ⟨rfl, -⟩ | ⟨rfl, hstop⟩
    · cases ht
    · rw [List.mem_singleton] at ht
      subst ht
      have hmod := behind_mod hx (hsize.resolve_left (List.cons_ne_nil _ _))
      dsimp only
      rwa [hstop, Nat.add_right_comm]

theorem perm_middle_inv {β : Type} {b : β} (front front' : List β) {back back' : List β}
    (hperm : (front ++ b :: back).Perm (front' ++ b :: back')) :
    (front ++ back).Perm (front' ++ back') :=
  ((List.perm_middle.symm.trans hperm).trans List.perm_middle).cons_inv

theorem perm_freeStarts_middle (hfree : x.used = false)
    (hperm : (l1 ++ x.start :: l2).Perm (freeStarts (pre ++ x :: post))) :
    (l1 ++ l2).Perm (freeStarts pre ++ freeStarts post) := by
  rw [freeStarts_append, freeStarts_cons_free hfree] at hperm
  exact perm_middle_inv _ _ hperm

theorem mem_usedTiles_middle (hfree : x.used = false) (ht : t ∈ usedTiles (pre ++ x :: post)) :
    t ∈ pre ∨ t ∈ post := by
  obtain ⟨hmem, hused⟩ := mem_usedTiles.mp ht
  rcases List.mem_append.mp hmem with h | h
  · exact .inl h
  · rcases List.mem_cons.mp h with rfl | h
    · rw [hfree] at hused
      cases hused
    · exact .inr h

theorem coalesced_cons : Coalesced (t :: tiles) ↔
    (∀ right ∈ tiles.head?, t.used = true ∨ right.used = true) ∧ Coalesced tiles :=
  List.isChain_cons

theorem Coalesced.used_middle (hpre : Coalesced pre) (hpost : Coalesced post)
    (hused : t.used = true) : Coalesced (pre ++ t :: post) :=
  coalesced_middle.mpr ⟨hpre, hpost, fun _ _ => .inr hused, fun _ _ => .inl hused⟩

section

variable (hlayout : Layout cfg s (pre ++ x :: post) (l1 ++ x.start :: l2))
include hlayout

theorem Layout.takeWhole (hrecorded : s.Recorded) (hfree : x.used = false) : Outcome cfg s
      (((s.withAvailable (sub32 s.availableSize (dataSize cfg x))).edit
        (freeUnlink x.start)).edit (setUsed x.start)).release
      (usedTiles (pre ++ x :: post)) (pre ++ ⟨x.start, x.stop, true⟩ :: post) := by
  obtain ⟨hshape1, hkept1⟩ := hlayout.shape.freeUnlink hlayout.region
  obtain ⟨hshape2, hkept2⟩ := hshape1.mark hlayout.region true
  have hmagic : itemGet .magic (freeUnlink x.start s.memory) x.start ||| memheapUsed =
      itemMagic true := by
    have hold : itemGet .magic (freeUnlink x.start s.memory) x.start = itemMagic x.used :=
      hshape1.blocks.magic x (by simp)
    rw [hold, hfree]
    rfl
  have hbytes := hlayout.available
  rw [freeBytes_append, freeBytes_cons_free hfree] at hbytes
  have hle := hlayout.available_le
  have hlt := hlayout.pool_lt
  have hsub : sub32 s.availableSize (dataSize cfg x) = freeBytes cfg pre + freeBytes cfg post := by
    rw [sub32_eq (by omega) (by omega)]
    omega
  have hused : sub32 s.availableSize (dataSize cfg x) ≤ s.poolSize := by
    rw [hsub]
    omega
  refine ⟨rfl, ⟨l1 ++ l2, hlayout.region, ?_, ?_, ?_, ?_⟩, ?_, fun t ht => ?_⟩
  · rw [← hmagic] at hshape2
    exact hshape2
  · rw [freeStarts_append, freeStarts_cons_used rfl]
    exact perm_freeStarts_middle hfree hlayout.frees
  · obtain ⟨hpre, hpost, -⟩ := coalesced_middle.mp hlayout.coalesced
    exact Coalesced.used_middle hpre hpost rfl
  · rw [freeBytes_append, freeBytes_cons_used rfl]
    exact hsub
  · exact Memheap.Recorded.used hrecorded hused hlt
  · have hplace := mem_usedTiles_middle hfree ht
    have hin := (mem_usedTiles.mp ht).1
    refine ⟨mem_middle_of_mem (List.mem_append.mpr hplace), (hkept1 t hin).trans ?_⟩
    rw [← hmagic] at hkept2
    exact hkept2 t hin

theorem Layout.takeSplit (hrecorded : s.Recorded) (hfree : x.used = false)
    (hroom : size + cfg.memheapSize ≤ dataSize cfg x) :
    let mid := x.start + size + cfg.memheapSize
    Outcome cfg s
      ((((((s.edit (makeItem s.heap x.start mid)).edit (freeUnlink x.start)).edit
        (freeInsert s.freeList mid)).withAvailable
          (sub32 (sub32 s.availableSize size) cfg.memheapSize)).edit (setUsed x.start)).release)
      (usedTiles (pre ++ x :: post))
      (pre ++ ⟨x.start, mid, true⟩ :: ⟨mid, x.stop, false⟩ :: post) := by
  intro mid
  let memory := freeInsert s.freeList mid
    (freeUnlink x.start (makeItem s.heap x.start mid s.memory))
  have hmid : mid = x.start + size + cfg.memheapSize := rfl
  have hlen := twentyFour_le cfg
  have hx := hlayout.bounds (t := x) (by simp)
  have hdata : dataSize cfg x = x.stop - (x.start + cfg.memheapSize) := rfl
  obtain ⟨hshape1, hkept1⟩ := hlayout.shape.makeItem mid hlayout.region
    (show x.start + cfg.memheapSize ≤ mid by omega) (show mid + cfg.memheapSize ≤ x.stop by omega)
  obtain ⟨hshape2, hkept2⟩ := hshape1.freeUnlink hlayout.region
  have hfresh : mid ∉ l1 ++ l2 := fun hmem =>
    hlayout.shape.not_mem_inside mid (by omega) (by omega) (mem_middle_of_mem hmem)
  obtain ⟨hshape3, hkept3⟩ := hshape2.freeInsert hlayout.region (a := mid) (by simp) hfresh
  obtain ⟨hshape4, hkept4⟩ := hshape3.mark hlayout.region true
  have hmagic : itemGet .magic memory x.start ||| memheapUsed = itemMagic true := by
    have hold : itemGet .magic memory x.start = itemMagic x.used :=
      hshape3.blocks.magic ⟨x.start, mid, x.used⟩ (by simp)
    rw [hold, hfree]
    rfl
  have hbytes := hlayout.available
  rw [freeBytes_append, freeBytes_cons_free hfree] at hbytes
  have hle := hlayout.available_le
  have hlt := hlayout.pool_lt
  have hrest : dataSize cfg ⟨mid, x.stop, false⟩ = dataSize cfg x - size - cfg.memheapSize := by
    show x.stop - (mid + cfg.memheapSize) = _
    omega
  have hsub : sub32 (sub32 s.availableSize size) cfg.memheapSize =
      freeBytes cfg pre + (dataSize cfg ⟨mid, x.stop, false⟩ + freeBytes cfg post) := by
    have hinner : sub32 s.availableSize size = s.availableSize - size :=
      sub32_eq (by omega) (by omega)
    rw [hinner, sub32_eq (by omega) (by omega), hrest]
    omega
  have hused : sub32 (sub32 s.availableSize size) cfg.memheapSize ≤ s.poolSize := by
    rw [hsub, hrest]
    omega
  refine ⟨rfl, ⟨mid :: (l1 ++ l2), hlayout.region, ?_, ?_, ?_, ?_⟩, ?_, fun t ht => ?_⟩
  · rw [← hmagic] at hshape4
    exact hshape4
  · rw [freeStarts_append, freeStarts_cons_used rfl, freeStarts_cons_free rfl]
    exact ((perm_freeStarts_middle hfree hlayout.frees).cons mid).trans List.perm_middle.symm
  · obtain ⟨hpre, hpost, -, hright⟩ := coalesced_middle.mp hlayout.coalesced
    refine Coalesced.used_middle hpre (coalesced_cons.mpr ⟨fun right h => ?_, hpost⟩) rfl
    exact .inr ((hright right h).resolve_left (by simp [hfree]))
  · rw [freeBytes_append, freeBytes_cons_used rfl, freeBytes_cons_free rfl]
    exact hsub
  · exact Memheap.Recorded.used hrecorded hused hlt
  · have hplace := mem_usedTiles_middle hfree ht
    have hin : t ∈ pre ++ ⟨x.start, mid, x.used⟩ :: ⟨mid, x.stop, false⟩ :: post :=
      mem_middle_of_mem (mem_middle_of_mem (List.mem_append.mpr hplace))
    refine ⟨mem_middle_of_mem (mem_middle_of_mem (List.mem_append.mpr hplace)),
      (((hkept1 t hin).trans (hkept2 t hin)).trans (hkept3 t hin)).trans ?_⟩
    rw [← hmagic] at hkept4
    exact hkept4 t hin

theorem Layout.takeItem
    (hrecorded : s.Recorded) (hfree : x.used = false) (hroom : size ≤ dataSize cfg x) :
    ∃ tile rest, Carved cfg x tile size rest ∧
      Outcome cfg s (takeItem cfg x.start (dataSize cfg x) size s).release
        (usedTiles (pre ++ x :: post)) (pre ++ tile :: (rest ++ post)) ∧
      (rest ≠ [] → size + cfg.memheapSize + memheapMinialloc ≤ dataSize cfg x) := by
  have hx := hlayout.bounds (t := x) (by simp)
  have hdata : dataSize cfg x = x.stop - (x.start + cfg.memheapSize) := rfl
  have hbelow := hlayout.region.below
  have hadd : add32 (add32 size cfg.memheapSize) memheapMinialloc =
      size + cfg.memheapSize + memheapMinialloc := by
    have hmini : memheapMinialloc = 12 := rfl
    rw [add32, add32, Nat.mod_eq_of_lt (a := size + _) (by omega), Nat.mod_eq_of_lt (by omega)]
  unfold Memheap.takeItem
  rw [hadd]
  split
  next hsplit =>
    refine ⟨⟨x.start, x.start + size + cfg.memheapSize, true⟩, [⟨_, x.stop, false⟩],
      ⟨rfl, rfl, ?_, .inr ⟨rfl, rfl⟩⟩, hlayout.takeSplit hrecorded hfree (by omega),
      fun _ => hsplit⟩
    show size ≤ x.start + size + cfg.memheapSize - (x.start + cfg.memheapSize)
    omega
  · exact ⟨⟨x.start, x.stop, true⟩, [], ⟨rfl, rfl, hroom, .inl ⟨rfl, rfl⟩⟩,
      hlayout.takeWhole hrecorded hfree, fun hne => absurd rfl hne⟩

end

theorem twelve_le_allocatedSize (cfg : MemheapConfig) (size : Nat) :
    12 ≤ allocatedSize cfg size := by
  have hmini : memheapMinialloc = 12 := rfl
  unfold allocatedSize
  dsimp only
  split <;> omega

theorem allocatedSize_mod (cfg : MemheapConfig) (h : memheapMinialloc < allocatedSize cfg size) :
    allocatedSize cfg size % cfg.alignSize = 0 := by
  unfold allocatedSize at h ⊢
  dsimp only at h ⊢
  split at h
  · omega
  next hlong =>
    rw [if_neg hlong]
    exact rtAlign_mod size (Nat.le_trans cfg.alignBits_le (by decide))

theorem Outcome.release (hlayout : Layout cfg s tiles frees) (hrecorded : s.Recorded) :
    Outcome cfg s s.release tiles tiles :=
  ⟨rfl, ⟨frees, hlayout.region, hlayout.shape, hlayout.frees, hlayout.coalesced,
    hlayout.available⟩, Memheap.Recorded.freed hrecorded (Nat.le_refl _),
    fun _ ht => ⟨ht, Kept.refl _ _ _⟩⟩

theorem Outcome.unchanged (hlayout : Layout cfg s tiles frees) (hrecorded : s.Recorded) :
    Outcome cfg s s tiles tiles :=
  ⟨rfl, ⟨frees, hlayout⟩, hrecorded, fun _ ht => ⟨ht, Kept.refl _ _ _⟩⟩

theorem Layout.length_frees (hlayout : Layout cfg s tiles frees) : frees.length ≤ s.poolSize := by
  have hlen := twentyFour_le cfg
  have hcount := hlayout.shape.tiling.length_le (by omega)
  have htail := hlayout.region.tail_add
  have hle : (freeStarts tiles).length ≤ tiles.length := by
    rw [freeStarts, List.length_map]
    exact List.length_filter_le ..
  rw [hlayout.frees.length_eq]
  omega

theorem rtMemheapAlloc_spec (hlayout : Layout cfg s tiles frees) (hrecorded : s.Recorded)
    (size : Nat) :
    (∃ s', rtMemheapAlloc cfg size s = some (0, s') ∧ Outcome cfg s s' tiles tiles ∧
      (s.availableSize ≤ allocatedSize cfg size ∨
        ∀ t ∈ tiles, t.used = false → dataSize cfg t < allocatedSize cfg size)) ∨
    ∃ pre x post tile rest s', tiles = pre ++ x :: post ∧ x.used = false ∧
      Carved cfg x tile (allocatedSize cfg size) rest ∧
      rtMemheapAlloc cfg size s = some (tile.start + cfg.memheapSize, s') ∧
      Outcome cfg s s' (usedTiles tiles) (pre ++ tile :: (rest ++ post)) ∧
      allocatedSize cfg size < s.availableSize ∧
      (rest ≠ [] →
        allocatedSize cfg size + cfg.memheapSize + memheapMinialloc ≤ dataSize cfg x) ∧
      ((∀ t ∈ tiles, allocatedSize cfg size ≤ dataSize cfg t) →
        x.start = itemGet .nextFree s.memory s.freeList) := by
  have hmin := twelve_le_allocatedSize cfg size
  unfold rtMemheapAlloc
  dsimp only
  by_cases hroom : allocatedSize cfg size < s.availableSize
  · rw [if_pos hroom]
    have hring := hlayout.shape.free
    have hhead : (s.freeList :: frees).head? = some s.freeList := rfl
    have hlinked := hring.2
    rw [hhead, Option.toList_some, List.cons_append] at hlinked
    obtain ⟨p, tail, hp⟩ : ∃ p tail, frees ++ [s.freeList] = p :: tail := by
      cases frees with
      | nil => exact ⟨_, _, rfl⟩
      | cons a frees => exact ⟨_, _, rfl⟩
    rw [hp] at hlinked
    obtain ⟨⟨hnext, -⟩, hrest⟩ := List.isChain_cons_cons.mp hlinked
    have hfirst : itemGet .nextFree s.memory s.freeList = p := hnext
    rw [hfirst]
    have hlength := hlayout.length_frees
    rcases searchLoop_spec cfg (hp ▸ hrest) hp (List.nodup_cons.mp hring.1).1
        (show frees.length + 2 ≤ s.poolSize + 2 by omega)
        (show 0 < allocatedSize cfg size by omega) with
      ⟨freeSize, hloop, hshort, hall⟩ | ⟨l1, a, l2, rfl, hlong, hloop, hbefore⟩
    · refine .inl ⟨s.release, ?_, .release hlayout hrecorded, .inr fun t ht hfree => ?_⟩
      · simp only [hloop, Option.bind_eq_bind, Option.bind_some, Option.pure_def,
          if_neg (Nat.not_le_of_lt hshort)]
      · have hmem : t.start ∈ frees :=
          hlayout.frees.mem_iff.mpr (mem_freeStarts.mpr ⟨t, ht, hfree, rfl⟩)
        rw [← hlayout.shape.memitemSize_eq ht (hlayout.stop_lt ht)]
        exact hall t.start hmem
    · obtain ⟨x, hx, hfree, rfl⟩ := mem_freeStarts.mp (hlayout.frees.mem_iff.mp
        (show a ∈ l1 ++ a :: l2 by simp))
      rw [hlayout.shape.memitemSize_eq hx (hlayout.stop_lt hx)] at hlong hloop
      obtain ⟨pre, post, rfl⟩ := List.append_of_mem hx
      obtain ⟨tile, rest, hcarved, houtcome, hsplit⟩ := hlayout.takeItem hrecorded hfree hlong
      refine .inr ⟨pre, x, post, tile, rest, _, rfl, hfree, hcarved, ?_, houtcome, hroom, hsplit,
        fun hall => ?_⟩
      · simp only [hloop, Option.bind_eq_bind, Option.bind_some, Option.pure_def, if_pos hlong,
          hcarved.start]
      · cases l1 with
        | nil => exact (List.cons.inj hp).1
        | cons c l1 =>
          -- an earlier block of the list would have been taken
          obtain ⟨u, hu, -, rfl⟩ := mem_freeStarts.mp (hlayout.frees.mem_iff.mp
            (show c ∈ c :: l1 ++ x.start :: l2 by simp))
          have hshort := hbefore u.start List.mem_cons_self
          rw [hlayout.shape.memitemSize_eq hu (hlayout.stop_lt hu)] at hshort
          exact absurd hshort (Nat.not_lt_of_le (hall u hu))
  · rw [if_neg hroom]
    exact .inl ⟨s, rfl, .unchanged hlayout hrecorded, .inl (by omega)⟩

end Take

section Free

variable {h l r : Tile} {insert : Bool} {list l1 l2 : List Nat} {pool : MemheapPool}
  {memory : ByteMemory}

theorem isUsed_of_magic {item : Nat} {used : Bool}
    (hmagic : itemGet .magic memory item = itemMagic used) : isUsed memory item = used := by
  unfold isUsed
  rw [hmagic]
  cases used <;> rfl

theorem Shape.isUsed_eq (hshape : Shape cfg pool memory tiles list) (ht : t ∈ tiles) :
    isUsed memory t.start = t.used := isUsed_of_magic (hshape.blocks.magic t ht)

theorem Shape.isUsed_tail (hshape : Shape cfg pool memory tiles list) :
    isUsed memory (pool.tail cfg) = true := isUsed_of_magic hshape.blocks.tailMagic

theorem Shape.nodup_freeStarts (hshape : Shape cfg pool memory tiles list) :
    (freeStarts tiles).Nodup := by
  have hnodup := (List.nodup_append.mp hshape.blocks.ring.1).1
  exact hnodup.sublist (List.filter_sublist.map _)

/-- A heap with a free block `h` that may have free neighbours; `insert` says that it is not in
the free list yet. -/
structure Freeing (cfg : MemheapConfig) (s : RtMemheap) (pre : List Tile) (h : Tile)
    (post : List Tile) (frees : List Nat) (insert : Bool) : Prop where
  region : Region cfg s.toMemheapPool
  shape : Shape cfg s.toMemheapPool s.memory (pre ++ h :: post) frees
  free : h.used = false
  frees : ((if insert then [h.start] else []) ++ frees).Perm (freeStarts (pre ++ h :: post))
  left : Coalesced pre
  right : Coalesced post
  available : s.availableSize = freeBytes cfg (pre ++ h :: post)

theorem Freeing.not_mem (hfreeing : Freeing cfg s pre h post frees true) : h.start ∉ frees := by
  have hnodup := hfreeing.frees.nodup_iff.mpr hfreeing.shape.nodup_freeStarts
  rw [if_pos rfl] at hnodup
  exact (List.nodup_cons.mp hnodup).1

theorem Freeing.available_add (hfreeing : Freeing cfg s pre h post frees insert) :
    add32 s.availableSize cfg.memheapSize = s.availableSize + cfg.memheapSize := by
  have hle := freeBytes_le hfreeing.shape.tiling
  have htail := hfreeing.region.tail_add
  have hfits := hfreeing.region.fits
  have hbounds := hfreeing.shape.tiling.le
  have hpos := hfreeing.region.pos
  rw [add32, Nat.mod_eq_of_lt]
  rw [hfreeing.available]
  omega

structure Merged (cfg : MemheapConfig) (s s' : RtMemheap) (kept tiles' : List Tile) : Prop where
  pool : s'.toMemheapPool = s.toMemheapPool
  maxUsedSize : s'.maxUsedSize = s.maxUsedSize
  released : s'.released = s.released
  available : s.availableSize ≤ s'.availableSize
  keeps : ∀ t ∈ usedTiles kept, t ∈ tiles' ∧ Kept cfg s.memory s'.memory t

theorem Merged.refl (cfg : MemheapConfig) (s : RtMemheap) (tiles : List Tile) :
    Merged cfg s s tiles tiles :=
  ⟨rfl, rfl, rfl, Nat.le_refl _, fun _ ht => ⟨(mem_usedTiles.mp ht).1, Kept.refl _ _ _⟩⟩

theorem dataSize_merge (cfg : MemheapConfig) {left right : Tile}
    (hleft : left.start + cfg.memheapSize ≤ left.stop)
    (hstart : right.start = left.stop) (hright : right.start + cfg.memheapSize ≤ right.stop)
    (used : Bool) : dataSize cfg ⟨left.start, right.stop, used⟩ =
      dataSize cfg left + cfg.memheapSize + dataSize cfg right := by
  unfold dataSize
  dsimp only
  omega

theorem Freeing.mergeLeft (hfreeing : Freeing cfg s pre h post frees true) :
    ∃ pre' h' insert s', mergeLeft cfg h.start s = (h'.start, insert, s') ∧
      Freeing cfg s' pre' h' post frees insert ∧ (∀ left ∈ pre'.getLast?, left.used = true) ∧
      Merged cfg s s' (pre ++ post) (pre' ++ post) ∧
      Coarser (pre ++ h :: post) (pre' ++ h' :: post) := by
  have hshape := hfreeing.shape
  unfold Memheap.mergeLeft
  rcases List.eq_nil_or_concat' pre with rfl | ⟨front, l, rfl⟩
  · have hprev : itemGet .prev s.memory h.start = s.tail cfg := hshape.blocks.prev_first
    rw [hprev, hshape.isUsed_tail, if_pos rfl]
    exact ⟨[], h, true, s, rfl, hfreeing, (fun left hleft => by cases hleft), .refl .., .refl _⟩
  · rw [List.append_assoc, List.singleton_append] at hshape
    have hprev : itemGet .prev s.memory h.start = l.start := hshape.blocks.prev_eq
    rw [hprev, hshape.isUsed_eq (t := l) (by simp)]
    cases hused : l.used with
    | true =>
      rw [if_pos rfl]
      refine ⟨front ++ [l], h, true, s, rfl, hfreeing, fun left hleft => ?_, .refl .., .refl _⟩
      rw [List.getLast?_concat] at hleft
      cases hleft
      exact hused
    | false =>
      rw [if_neg (by decide)]
      obtain ⟨⟨hmerged, hkept⟩, hheader⟩ :=
        hshape.joinPrev hfreeing.region hfreeing.not_mem
      obtain ⟨-, hl, hstart, hh, -⟩ := Tiles.middle_iff.mp hshape.tiling
      have hdata := dataSize_merge cfg hl hstart (hstart ▸ hh) l.used
      have hfree : (⟨l.start, h.stop, l.used⟩ : Tile).used = false := hused
      have hperm := hfreeing.frees
      obtain ⟨hfront, -, hlast, -⟩ := coalesced_middle.mp hfreeing.left
      refine ⟨front, ⟨l.start, h.stop, l.used⟩, false, RtMemheap.edit (joinPrev h.start)
        { s with availableSize := add32 s.availableSize cfg.memheapSize }, ?_,
        ⟨hfreeing.region, hmerged, hused, ?_, hfront, hfreeing.right, ?_⟩, fun left hleft => ?_,
        ⟨rfl, rfl, rfl, ?_, fun t ht => ?_⟩, ?_⟩
      · show (itemGet .prev (joinPrev h.start s.memory) h.start, false, _) = _
        rw [hheader]
      · rw [if_neg (by decide), List.nil_append, freeStarts_append, freeStarts_cons_free hfree]
        rw [if_pos rfl, freeStarts_append, freeStarts_append, freeStarts_cons_free hused,
          freeStarts_cons_free hfreeing.free] at hperm
        have hcons := (hperm.trans List.perm_middle).cons_inv
        rwa [List.append_assoc] at hcons
      · have hbytes := hfreeing.available
        rw [freeBytes_append, freeBytes_append, freeBytes_cons_free hused,
          freeBytes_cons_free hfreeing.free] at hbytes
        have hnil : freeBytes cfg [] = 0 := rfl
        dsimp only [RtMemheap.edit]
        rw [hfreeing.available_add, freeBytes_append, freeBytes_cons_free hfree, hdata]
        omega
      · exact (hlast left hleft).resolve_right (by simp [hused])
      · dsimp only [RtMemheap.edit]
        rw [hfreeing.available_add]
        exact Nat.le_add_right ..
      · rw [List.append_assoc, List.singleton_append] at ht
        have hplace := mem_usedTiles_middle hused ht
        have hin : t ∈ front ++ l :: h :: post :=
          mem_middle_of_mem (mem_middle_of_mem (List.mem_append.mpr hplace))
        exact ⟨List.mem_append.mpr hplace, hkept t hin⟩
      · rw [List.append_assoc, List.singleton_append]
        exact .merge rfl (by dsimp only; omega)

theorem Freeing.mergeRight (hfreeing : Freeing cfg s pre h post frees insert) :
    ∃ h' post' frees', h'.start = h.start ∧
      Freeing cfg (mergeRight cfg h.start s) pre h' post' frees' insert ∧
      (∀ right ∈ post'.head?, right.used = true) ∧
      Merged cfg s (Memheap.mergeRight cfg h.start s) (pre ++ post) (pre ++ post') ∧
      Coarser (pre ++ h :: post) (pre ++ h' :: post') ∧
      (h' = h ∧ post' = post ∧ isUsed s.memory (itemGet .next s.memory h.start) = true ∨
        ∃ r, post = r :: post' ∧ r.used = false ∧ h'.stop = r.stop ∧
          itemGet .next s.memory h.start = r.start ∧ isUsed s.memory r.start = false) := by
  have hshape := hfreeing.shape
  have hnext : itemGet .next s.memory h.start = h.stop := hshape.next_eq
  unfold Memheap.mergeRight
  rw [hnext]
  cases post with
  | nil =>
    have hstop : h.stop = s.tail cfg := (Tiles.middle_iff.mp hshape.tiling).2.2
    rw [hstop, hshape.isUsed_tail, if_pos rfl]
    exact ⟨h, [], frees, rfl, hfreeing, (fun right hright => by cases hright), .refl .., .refl _,
      .inl ⟨rfl, rfl, rfl⟩⟩
  | cons r post =>
    obtain ⟨-, hh, hstart, hr, -⟩ := Tiles.middle_iff.mp hshape.tiling
    rw [← hstart, hshape.isUsed_eq (t := r) (by simp)]
    cases hused : r.used with
    | true =>
      rw [if_pos rfl]
      refine ⟨h, r :: post, frees, rfl, hfreeing, fun right hright => ?_, .refl .., .refl _,
        .inl ⟨rfl, rfl, rfl⟩⟩
      cases hright
      exact hused
    | false =>
      rw [if_neg (by decide)]
      have hperm := hfreeing.frees
      rw [freeStarts_append, freeStarts_cons_free hfreeing.free, freeStarts_cons_free hused]
        at hperm
      have hlen := twentyFour_le cfg
      have hin : r.start ∈ frees := by
        have hmem := hperm.mem_iff.mpr (show r.start ∈ _ by simp)
        rcases List.mem_append.mp hmem with hm | hm
        · split at hm
          · have heq := List.mem_singleton.mp hm
            omega
          · cases hm
        · exact hm
      obtain ⟨l1, l2, rfl⟩ := List.append_of_mem hin
      obtain ⟨hmerged, hkept⟩ := hshape.absorbNext hfreeing.region
      have hdata := dataSize_merge cfg hh hstart (hstart ▸ hr) h.used
      have hfree : (⟨h.start, r.stop, h.used⟩ : Tile).used = false := hfreeing.free
      obtain ⟨hright, hpost⟩ := coalesced_cons.mp hfreeing.right
      refine ⟨⟨h.start, r.stop, h.used⟩, post, l1 ++ l2, rfl,
        ⟨hfreeing.region, hmerged, hfreeing.free, ?_, hfreeing.left, hpost, ?_⟩,
        fun right hr => ?_, ⟨rfl, rfl, rfl, ?_, fun t ht => ?_⟩,
        .merge rfl (by dsimp only; omega),
        .inr ⟨r, rfl, hused, rfl, rfl, (hshape.isUsed_eq (t := r) (by simp)).trans hused⟩⟩
      · rw [freeStarts_append, freeStarts_cons_free hfree]
        have hinv := perm_middle_inv (_ ++ l1) (freeStarts pre ++ [h.start])
          (by simpa using hperm)
        simpa using hinv
      · have hbytes := hfreeing.available
        rw [freeBytes_append, freeBytes_cons_free hfreeing.free, freeBytes_cons_free hused]
          at hbytes
        dsimp only [RtMemheap.edit]
        rw [hfreeing.available_add, freeBytes_append, freeBytes_cons_free hfree, hdata]
        omega
      · exact (hright right hr).resolve_left (by simp [hused])
      · dsimp only [RtMemheap.edit]
        rw [hfreeing.available_add]
        exact Nat.le_add_right ..
      · have hplace := mem_usedTiles_middle hused ht
        have hin : t ∈ pre ++ h :: r :: post :=
          mem_middle_of_mem (mem_middle_of_mem (List.mem_append.mpr hplace))
        exact ⟨List.mem_append.mpr hplace, hkept t hin⟩

theorem Freeing.finish (hfreeing : Freeing cfg s pre h post frees insert)
    (hleft : ∀ left ∈ pre.getLast?, left.used = true)
    (hright : ∀ right ∈ post.head?, right.used = true) :
    ∃ frees', Layout cfg (if insert then s.edit (freeInsert s.freeList h.start) else s)
        (pre ++ h :: post) frees' ∧
      Merged cfg s (if insert then s.edit (freeInsert s.freeList h.start) else s)
        (pre ++ post) (pre ++ h :: post) := by
  have hcoalesced : Coalesced (pre ++ h :: post) :=
    coalesced_middle.mpr ⟨hfreeing.left, hfreeing.right, fun left hl => .inl (hleft left hl),
      fun right hr => .inr (hright right hr)⟩
  have hperm := hfreeing.frees
  have hin : ∀ t ∈ usedTiles (pre ++ post), t ∈ pre ++ h :: post :=
    fun t ht => mem_middle_of_mem (mem_usedTiles.mp ht).1
  cases insert with
  | true =>
    obtain ⟨hshape, hkept⟩ := hfreeing.shape.freeInsert hfreeing.region
      (show h.start ∈ (pre ++ h :: post).map Tile.start by simp) hfreeing.not_mem
    exact ⟨h.start :: frees, ⟨hfreeing.region, hshape, hperm, hcoalesced, hfreeing.available⟩,
      rfl, rfl, rfl, Nat.le_refl _, fun t ht => ⟨hin t ht, hkept t (hin t ht)⟩⟩
  | false =>
    exact ⟨frees, ⟨hfreeing.region, hfreeing.shape, hperm, hcoalesced, hfreeing.available⟩,
      rfl, rfl, rfl, Nat.le_refl _, fun t ht => ⟨hin t ht, Kept.refl _ _ _⟩⟩

theorem Merged.trans {s'' : RtMemheap} {kept tiles' tiles'' : List Tile}
    (hfirst : Merged cfg s s' kept tiles') (hsecond : Merged cfg s' s'' tiles' tiles'') :
    Merged cfg s s'' kept tiles'' := by
  refine ⟨hsecond.pool.trans hfirst.pool, hsecond.maxUsedSize.trans hfirst.maxUsedSize,
    hsecond.released.trans hfirst.released, Nat.le_trans hfirst.available hsecond.available,
    fun t ht => ?_⟩
  obtain ⟨hmem, hkept⟩ := hfirst.keeps t ht
  obtain ⟨hmem', hkept'⟩ :=
    hsecond.keeps t (mem_usedTiles.mpr ⟨hmem, (mem_usedTiles.mp ht).2⟩)
  exact ⟨hmem', hkept.trans hkept'⟩

theorem Layout.unmark (hlayout : Layout cfg s (pre ++ x :: post) frees) (hx : x.used = true) :
    let s₁ := s.edit (itemSet .magic x.start (itemMagic false))
    let s₂ := { s₁ with
      availableSize := add32 s₁.availableSize (memitemSize cfg s₁.memory x.start) }
    Freeing cfg s₂ pre ⟨x.start, x.stop, false⟩ post frees true ∧
      Merged cfg s s₂ (pre ++ post) (pre ++ post) := by
  intro s₁ s₂
  obtain ⟨hshape, hkept⟩ := hlayout.shape.mark hlayout.region false
  have hstop := hlayout.stop_lt (t := x) (by simp)
  have hsize : memitemSize cfg s₁.memory x.start = dataSize cfg x :=
    hshape.memitemSize_eq (t := ⟨x.start, x.stop, false⟩) (by simp) hstop
  obtain ⟨hpre, hpost, -⟩ := coalesced_middle.mp hlayout.coalesced
  have hbytes := freeBytes_le hshape.tiling
  have htail := hlayout.region.tail_add
  have hfits := hlayout.region.fits
  have hbounds := hshape.tiling.le
  have hlen := twentyFour_le cfg
  have hsame : dataSize cfg ⟨x.start, x.stop, false⟩ = dataSize cfg x := rfl
  rw [freeBytes_append, freeBytes_cons_free rfl, hsame] at hbytes
  have hold := hlayout.available
  rw [freeBytes_append, freeBytes_cons_used hx] at hold
  have hadd : s₂.availableSize = s.availableSize + dataSize cfg x := by
    show add32 s.availableSize (memitemSize cfg s₁.memory x.start) = _
    rw [hsize, add32, Nat.mod_eq_of_lt]
    omega
  have hperm := hlayout.frees
  rw [freeStarts_append, freeStarts_cons_used hx] at hperm
  refine ⟨⟨hlayout.region, hshape, rfl, ?_, hpre, hpost, ?_⟩, rfl, rfl, rfl, ?_, fun t ht => ?_⟩
  · rw [if_pos rfl, freeStarts_append, freeStarts_cons_free rfl]
    exact (hperm.cons _).trans List.perm_middle.symm
  · rw [hadd, freeBytes_append, freeBytes_cons_free rfl, hsame]
    omega
  · rw [hadd]
    exact Nat.le_add_right ..
  · have hmem := (mem_usedTiles.mp ht).1
    exact ⟨hmem, hkept t (mem_middle_of_mem hmem)⟩

theorem rtMemheapFree_spec (hlayout : Layout cfg s (pre ++ x :: post) frees)
    (hrecorded : s.Recorded) (hx : x.used = true) :
    ∃ s' tiles', rtMemheapFree cfg (x.start + cfg.memheapSize) s = some s' ∧
      Outcome cfg s s' (usedTiles (pre ++ post)) tiles' ∧ Coarser (pre ++ x :: post) tiles' := by
  have hlen := twentyFour_le cfg
  have hmagic : itemGet .magic s.memory x.start = itemMagic true :=
    hx ▸ hlayout.shape.blocks.magic x (by simp)
  have hnext : itemGet .magic s.memory (itemGet .next s.memory x.start) &&& memheapMask =
      memheapMagic := by
    have hmem := hlayout.shape.blocks.ring.next_mem (start_mem_middle pre post x (s.tail cfg))
    rcases List.mem_append.mp hmem with h | h
    · obtain ⟨t, ht, hstart⟩ := List.mem_map.mp h
      have hold : itemGet .magic s.memory t.start = itemMagic t.used := hlayout.shape.blocks.magic t ht
      rw [hstart] at hold
      exact hold ▸ (by cases t.used <;> rfl)
    · have hold : itemGet .magic s.memory (s.tail cfg) = itemMagic true :=
        hlayout.shape.blocks.tailMagic
      rw [← List.mem_singleton.mp h] at hold
      exact hold ▸ rfl
  have hpool : itemGet .poolPtr s.memory x.start = s.heap :=
    hlayout.shape.blocks.poolPtr x (by simp)
  obtain ⟨hfreeing, hmerged⟩ := hlayout.unmark hx
  obtain ⟨pre', h', insert, s₃, hleft, hfreeing₃, hused, hmerged₃, hcoarser₃⟩ :=
    hfreeing.mergeLeft
  obtain ⟨h'', post', frees', hstart, hfreeing₄, hused', hmerged₄, hcoarser₄, -⟩ :=
    hfreeing₃.mergeRight
  have hmark : Coarser (pre ++ x :: post) (pre ++ ⟨x.start, x.stop, false⟩ :: post) :=
    .middle rfl (Nat.le_refl _)
  have hcoarser := (hmark.trans hcoarser₃).trans hcoarser₄
  obtain ⟨frees'', hlayout', hmerged'⟩ := hfreeing₄.finish hused hused'
  rw [hstart] at hlayout' hmerged'
  have hall := ((hmerged.trans hmerged₃).trans hmerged₄).trans hmerged'
  unfold rtMemheapFree
  rw [if_neg (by omega)]
  dsimp only
  have hmask : itemMagic true &&& memheapMask = itemMagic false := by decide
  rw [Nat.add_sub_cancel, hmagic, hnext, hpool, if_pos ⟨by decide, by decide, rfl, rfl⟩, hmask]
  dsimp only at hleft
  rw [hleft]
  refine ⟨_, _, rfl, ⟨hall.pool, ⟨frees'', ?_⟩, ?_, fun t ht => hall.keeps t ht⟩, hcoarser⟩
  · exact ⟨hlayout'.region, hlayout'.shape, hlayout'.frees, hlayout'.coalesced, hlayout'.available⟩
  · have hrecorded' := Memheap.Recorded.freed hrecorded hall.available
    rw [← hall.released, ← hall.maxUsedSize] at hrecorded'
    have hsize : s.poolSize = _ := congrArg MemheapPool.poolSize hall.pool.symm
    rw [hsize] at hrecorded'
    exact hrecorded'

end Free

end RtThread.Memheap
