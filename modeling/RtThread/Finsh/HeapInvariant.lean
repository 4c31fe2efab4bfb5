import RtThread.Finsh.HeapClients

namespace RtThread.Finsh

open RtThread.Lib

structure SharesOut (base : Nat) (s : FinshHeap) (frees allocates : List Nat) : Prop where
  /-- Both lists end with `NULL`. -/
  freeList : ListAt s.memory s.freeList frees
  allocateList : ListAt s.memory s.allocateList allocates
  freeSorted : frees.Pairwise (· < ·)
  allocateSorted : allocates.Pairwise (· < ·)
  disjoint : ∀ header ∈ frees, header ∉ allocates
  apart : ∀ a ∈ frees ++ allocates, ∀ b ∈ frees ++ allocates, a ≠ b →
    blockEnd s.memory a ≤ b ∨ blockEnd s.memory b ≤ a
  inside : ∀ header ∈ frees ++ allocates,
    base ≤ header ∧ blockEnd s.memory header ≤ base + finshHeapMax
  covered : ∀ i, base ≤ i → i < base + finshHeapMax →
    ∃ header ∈ frees ++ allocates, header ≤ i ∧ i < blockEnd s.memory header

namespace HeapClient

/-- What a client has got are different blocks of the allocate list, long enough for it. -/
structure Granted (s : HeapClient) (allocates : List Nat) : Prop where
  live : ∀ x ∈ s.live, finshBlockGetHeader x.ptr ∈ allocates ∧
    x.size ≤ lengthOf s.memory (finshBlockGetHeader x.ptr)
  nodup : (s.live.map Live.ptr).Nodup

def WellFormed (base : Nat) (s : HeapClient) : Prop :=
  ∃ frees allocates, SharesOut base s.toFinshHeap frees allocates ∧ s.Granted allocates

structure Inv (base : Nat) (s : HeapClient) (tiles : List Tile) : Prop where
  ordered : Ordered base s.toFinshHeap tiles
  live : ∀ x ∈ s.live, ∃ tile ∈ usedTiles tiles,
    finshBlockGetData tile.start = x.ptr ∧ x.ptr + x.size ≤ tile.stop
  nodup : (s.live.map Live.ptr).Nodup

end HeapClient

variable {base a e i : Nat} {s s' : HeapClient} {tiles : List Tile}

theorem Tiles.covered {len : Nat} (htiles : Tiles len a tiles e) (hle : a ≤ i) (hlt : i < e) :
    ∃ tile ∈ tiles, tile.start ≤ i ∧ i < tile.stop := by
  induction tiles generalizing a with
  | nil =>
    have heq : a = e := htiles
    omega
  | cons tile rest ih =>
    obtain ⟨hstart, -, hrest⟩ := htiles
    by_cases hin : i < tile.stop
    · exact ⟨tile, List.mem_cons_self, by omega, hin⟩
    · obtain ⟨other, hother, hbounds⟩ := ih hrest (by omega)
      exact ⟨other, List.mem_cons_of_mem _ hother, hbounds⟩

theorem mem_both_starts {header : Nat} :
    header ∈ starts false tiles ++ starts true tiles ↔ ∃ tile ∈ tiles, tile.start = header := by
  rw [List.mem_append, mem_starts, mem_starts]
  constructor
  · rintro (⟨tile, htile, -, hstart⟩ | ⟨tile, htile, -, hstart⟩)
    · exact ⟨tile, htile, hstart⟩
    · exact ⟨tile, htile, hstart⟩
  · rintro ⟨tile, htile, hstart⟩
    cases hused : tile.used with
    | false => exact .inl ⟨tile, htile, hused, hstart⟩
    | true => exact .inr ⟨tile, htile, hused, hstart⟩

theorem Ordered.sharesOut {heap : FinshHeap} (hordered : Ordered base heap tiles) :
    SharesOut base heap (starts false tiles) (starts true tiles) := by
  have himage := hordered.image
  have hsorted : ∀ used, (starts used tiles).Pairwise (· < ·) := fun used =>
    (himage.starts_spaced used).pairwise.imp fun hle => by omega
  refine ⟨himage.lists false, himage.lists true, hsorted false, hsorted true,
    fun header hfree hused => ?_, fun a ha b hb hne => ?_, fun header hmem => ?_,
    fun i hle hlt => ?_⟩
  · exact (himage.apart_of_used hfree hused (by decide)).ne rfl
  · obtain ⟨tile, htile, rfl⟩ := mem_both_starts.mp ha
    obtain ⟨other, hother, rfl⟩ := mem_both_starts.mp hb
    rw [himage.ends tile htile, himage.ends other hother]
    rcases himage.tiling.eq_or_apart htile hother with rfl | hapart
    · exact absurd rfl hne
    · exact hapart
  · obtain ⟨tile, htile, rfl⟩ := mem_both_starts.mp hmem
    have hbounds := himage.tiling.bounds htile
    rw [himage.ends tile htile]
    exact ⟨hbounds.1, hbounds.2.2⟩
  · obtain ⟨tile, htile, hbegin, hend⟩ := Tiles.covered himage.tiling hle hlt
    exact ⟨tile.start, mem_both_starts.mpr ⟨tile, htile, rfl⟩, hbegin, by rwa [himage.ends tile htile]⟩

theorem HeapClient.Inv.wellFormed (hinv : s.Inv base tiles) : s.WellFormed base := by
  refine ⟨_, _, hinv.ordered.sharesOut, ⟨fun x hx => ?_, hinv.nodup⟩⟩
  obtain ⟨tile, htile, hptr, hroom⟩ := hinv.live x hx
  rw [mem_usedTiles] at htile
  have hheader : finshBlockGetHeader x.ptr = tile.start := by
    rw [← hptr]
    exact Nat.add_sub_cancel ..
  have hend := hinv.ordered.image.ends tile htile.1
  unfold blockEnd at hend
  unfold finshBlockGetData at hptr
  rw [hheader]
  exact ⟨mem_starts.mpr ⟨tile, htile.1, htile.2, rfl⟩, by omega⟩

namespace HeapClient

section

variable (hinv : s.Inv base tiles)
include hinv

theorem Inv.allocate {size : Nat} (hen : s.enabled (.allocate size) = true) :
    ∃ s' tiles', s.exec (.allocate size) = some s' ∧ s'.Inv base tiles' := by
  have hsize : size ≤ finshHeapMax := by simpa [enabled] using hen
  obtain ⟨ptr, freed, heap, tiles₁, tiles', hallocate, hordered, hswept, hallocated⟩ :=
    hinv.ordered.finshHeapAllocate s.globalVariable hsize
  have hkept : ∀ tile ∈ usedTiles tiles, finshBlockGetData tile.start ∉ freed →
      tile ∈ usedTiles tiles₁ := by
    intro tile htile hnot
    rcases hswept with ⟨-, -, rfl⟩ | ⟨-, hcollected⟩
    · exact htile
    · refine (hcollected.kept tile).mpr ⟨htile, fun hin => ?_⟩
      by_contra hunref
      exact hnot ((hcollected.freed _).mpr ⟨tile.start, hin, by simpa using hunref, rfl⟩)
  have hlive : ∀ x ∈ s.live.filter fun x => x.ptr ∉ freed, ∃ tile ∈ usedTiles tiles₁,
      finshBlockGetData tile.start = x.ptr ∧ x.ptr + x.size ≤ tile.stop := by
    intro x hx
    rw [List.mem_filter, decide_eq_true_eq] at hx
    obtain ⟨tile, htile, hptr, hroom⟩ := hinv.live x hx.1
    refine ⟨tile, hkept tile htile ?_, hptr, hroom⟩
    rw [hptr]
    exact hx.2
  have hnodup : ((s.live.filter fun x => x.ptr ∉ freed).map Live.ptr).Nodup :=
    hinv.nodup.sublist (List.filter_sublist.map _)
  have hold : ∀ tile ∈ usedTiles tiles₁, tile ∈ usedTiles tiles' := fun tile htile =>
    (hallocated.added tile).mpr (.inl htile)
  refine ⟨{ toFinshHeap := heap
            globalVariable := s.globalVariable
            live := if ptr = 0 then s.live.filter fun x => x.ptr ∉ freed
              else ⟨ptr, size⟩ :: s.live.filter fun x => x.ptr ∉ freed
            result := ptr }, tiles', ?_, ⟨hordered, fun x hx => ?_, ?_⟩⟩
  · unfold exec
    rw [if_pos hen]
    simp only [hallocate, Option.map_some]
  · dsimp only at hx
    split at hx
    · obtain ⟨tile, htile, hroom⟩ := hlive x hx
      exact ⟨tile, hold tile htile, hroom⟩
    next hsome =>
      rcases List.mem_cons.mp hx with rfl | hx
      · have hptr := hallocated.header hsome
        have hlong := (heapAlignSize_le hsize).1
        refine ⟨_, (hallocated.added _).mpr (.inr ⟨hsome, rfl⟩), ?_, ?_⟩
        · exact Nat.sub_add_cancel hptr
        · change ptr + size ≤ ptr + heapAlignSize size
          omega
      · obtain ⟨tile, htile, hroom⟩ := hlive x hx
        exact ⟨tile, hold tile htile, hroom⟩
  · dsimp only
    split
    · exact hnodup
    · refine List.nodup_cons.mpr ⟨fun hin => ?_, hnodup⟩
      obtain ⟨x, hx, hsame⟩ := List.mem_map.mp hin
      obtain ⟨tile, htile, hptr, -⟩ := hlive x hx
      exact hallocated.fresh tile htile (hptr.trans hsame)

theorem Inv.free {ptr : Nat} (hen : s.enabled (.free ptr) = true) :
    ∃ s' tiles', s.exec (.free ptr) = some s' ∧ s'.Inv base tiles' := by
  have hlive : ptr ∈ s.live.map Live.ptr := by simpa [enabled] using hen
  obtain ⟨x, hx, rfl⟩ := List.mem_map.mp hlive
  obtain ⟨tile, htile, hptr, hroom⟩ := hinv.live x hx
  rw [mem_usedTiles] at htile
  obtain ⟨pre, post, rfl⟩ := List.append_of_mem htile.1
  have hordered := hinv.ordered
  obtain ⟨heap, tiles', hfree, hordered', hsame⟩ := hordered.free htile.2
  rw [hptr] at hfree
  refine ⟨{ toFinshHeap := heap
            globalVariable := s.globalVariable
            live := s.live.filter fun y => y.ptr ≠ x.ptr
            result := 0 }, tiles', ?_, ⟨hordered', fun y hy => ?_,
    hinv.nodup.sublist (List.filter_sublist.map _)⟩⟩
  · unfold exec
    rw [if_pos hen]
    simp only [hfree, Option.map_some]
  · rw [List.mem_filter, decide_eq_true_eq] at hy
    obtain ⟨other, hother, hptr', hroom'⟩ := hinv.live y hy.1
    refine ⟨other, ?_, hptr', hroom'⟩
    rw [hsame, hordered.image.mem_usedTiles_without]
    refine ⟨hother, fun heq => hy.2 ?_⟩
    rw [← hptr, ← hptr', finshBlockGetData, finshBlockGetData, heq]

theorem Inv.setVariable {i : Fin finshVariableMax} {value : FinshVar} :
    ∃ s' tiles', s.exec (.setVariable i value) = some s' ∧ s'.Inv base tiles' :=
  ⟨_, tiles, rfl, ⟨hinv.ordered, hinv.live, hinv.nodup⟩⟩

theorem Inv.store {ptr index : Nat} {byte : UInt8}
    (hen : s.enabled (.store ptr index byte) = true) :
    ∃ s' tiles', s.exec (.store ptr index byte) = some s' ∧ s'.Inv base tiles' := by
  obtain ⟨x, hx, rfl, hindex⟩ : ∃ x ∈ s.live, x.ptr = ptr ∧ index < x.size := by
    simpa [enabled] using hen
  obtain ⟨tile, htile, hptr, hroom⟩ := hinv.live x hx
  unfold finshBlockGetData at hptr
  refine ⟨_, tiles, if_pos hen, ⟨⟨?_, hinv.ordered.ends⟩, hinv.live, hinv.nodup⟩⟩
  refine hinv.ordered.image.store (mem_usedTiles.mp htile).1 fun i hi => ?_
  apply ByteMemory.writeBytes_outside
  rw [List.length_singleton]
  omega

theorem Inv.exec {op : HeapOp} (hen : s.enabled op = true) :
    ∃ s' tiles', s.exec op = some s' ∧ s'.Inv base tiles' := by
  cases op with
  | allocate size => exact hinv.allocate hen
  | free ptr => exact hinv.free hen
  | setVariable i value => exact hinv.setVariable
  | store ptr index byte => exact hinv.store hen

end

theorem Initial.inv (hinit : s.Initial base) : s.Inv base [⟨base, base + finshHeapMax, false⟩] := by
  obtain ⟨hpos, hle, hlive, memory, hheap⟩ := hinit
  refine ⟨hheap ▸ Ordered.init hpos hle, fun x hx => ?_, ?_⟩
  · rw [hlive] at hx
    cases hx
  · rw [hlive]
    exact List.nodup_nil

theorem reachable_inv (hreach : (finshHeapMachine base).Reachable (fun _ _ => True) s) :
    ∃ tiles, s.Inv base tiles := by
  apply hreach.invariant fun s => ∃ tiles, s.Inv base tiles
  · intro s hinit
    exact ⟨_, hinit.inv⟩
  · rintro s op s' ⟨tiles, hinv⟩ - hexec
    have hen : s.enabled op = true := by
      by_contra hnot
      have hnone : s.exec op = none := if_neg hnot
      cases hnone.symm.trans hexec
    obtain ⟨s'', tiles', hexec', hinv'⟩ := hinv.exec hen
    cases hexec'.symm.trans hexec
    exact ⟨tiles', hinv'⟩

/-- The two lists share out the heap in every run, and no call gets stuck. -/
theorem reachable_wellFormed (hreach : (finshHeapMachine base).Reachable (fun _ _ => True) s) :
    s.WellFormed base ∧
      ∀ op, s.enabled op = true → ∃ s', s.exec op = some s' ∧ s'.WellFormed base := by
  obtain ⟨tiles, hinv⟩ := reachable_inv hreach
  refine ⟨hinv.wellFormed, fun op hen => ?_⟩
  obtain ⟨s', tiles', hexec, hinv'⟩ := hinv.exec hen
  exact ⟨s', hexec, hinv'.wellFormed⟩

def heapStart : HeapClient where
  toFinshHeap := finshHeapInit 4096 fun _ => 0xff
  globalVariable _ := ⟨.unknown, 0⟩
  live := []
  result := 0

theorem heapStart_initial : heapStart.Initial 4096 :=
  ⟨by decide, by decide, rfl, _, rfl⟩

def collectingRun : List HeapOp :=
  [.allocate 10, .allocate 20, .setVariable 3 ⟨.charp, 4124⟩, .store 4124 19 7, .allocate 30,
    .free 4104, .allocate 50]

theorem reachable_wellFormed_collectingRun :
    ∃ s, (finshHeapMachine 4096).Reachable (fun _ _ => True) s ∧
      s.live = [⟨4152, 50⟩, ⟨4124, 20⟩] ∧ s.WellFormed 4096 := by
  have hrun : ((finshHeapMachine 4096).run (fun _ _ => True) heapStart collectingRun).map
      HeapClient.live = some [⟨4152, 50⟩, ⟨4124, 20⟩] := by
    decide +kernel
  obtain ⟨s, hreach, hlive⟩ := Machine.exists_reachable_of_run heapStart_initial hrun
  exact ⟨s, hreach, hlive, (reachable_wellFormed hreach).1⟩

end HeapClient

end RtThread.Finsh
