import RtThread.Finsh.HeapBlocks

namespace RtThread.Finsh

open Function RtThread.Lib

variable {base size header : Nat} {memory memory' : ByteMemory} {list : Bool → Nat}
  {tile other : Tile} {tiles pre post : List Tile} {s s' : FinshHeap}
  {globalVariable : Fin finshVariableMax → FinshVar}

structure Ordered (base : Nat) (s : FinshHeap) (tiles : List Tile) : Prop where
  image : Image base s.memory s.list tiles
  ends : EndsFree tiles

theorem Ordered.init (hpos : 0 < base) (hle : base + finshHeapMax ≤ 2 ^ 32) :
    Ordered base (finshHeapInit base memory) [⟨base, base + finshHeapMax, false⟩] := by
  refine ⟨⟨⟨⟨rfl, ?_, rfl⟩, fun tile htile => ?_, hpos, hle⟩, fun used => ?_⟩, ⟨_, rfl, rfl⟩⟩
  · exact Nat.add_le_add_left (by decide) base
  · rw [List.mem_singleton] at htile
    rw [htile]
    unfold blockEnd finshHeapInit
    dsimp only
    rw [lengthOf_setNext (.inl rfl), lengthOf_setLength_self (by decide)]
    exact Nat.add_assoc base (finshHeapMax - 8) 8
  · cases used with
    | true => rfl
    | false =>
      refine ⟨toPtr_pos hpos, ?_⟩
      exact links_setNext_self (by decide)

theorem Ordered.free (hordered : Ordered base s (pre ++ tile :: post))
    (hused : tile.used = true) :
    ∃ s' tiles, finshHeapFree (finshBlockGetData tile.start) s = some s' ∧ Ordered base s' tiles ∧
      usedTiles tiles = usedTiles (pre ++ post) := by
  obtain ⟨allocateList, memory₁, hremove, hlimbo, -⟩ := hordered.image.remove
  rw [hused] at hremove hlimbo
  have hmore : starts false post ≠ [] := hordered.ends.starts_ne hused
  obtain ⟨freeList, memory₂, hinsert, himage⟩ :=
    hlimbo.insert false fun hnone => absurd hnone hmore
  have hends : EndsFree (pre ++ { tile with used := false } :: post) := hordered.ends.replace rfl
  obtain ⟨memory₃, tiles, hmerge, hmerged, hends', hsame⟩ := himage.merge rfl hends
  refine ⟨⟨memory₃, freeList, allocateList⟩, tiles, ?_, ⟨?_, hends'⟩, ?_⟩
  · have hheader : finshBlockGetHeader (finshBlockGetData tile.start) = tile.start :=
      Nat.add_sub_cancel ..
    have hremove' : finshBlockRemove s.allocateList tile.start s.memory =
        some (allocateList, memory₁) := hremove
    have hinsert' : finshBlockInsert s.freeList tile.start memory₁ =
        some (freeList, memory₂) := hinsert
    have hmerge' : finshBlockMerge freeList tile.start memory₂ = some memory₃ := hmerge
    unfold finshHeapFree
    simp only [hheader, hremove', hinsert', hmerge', Option.bind_eq_bind, Option.bind_some,
      Option.pure_def]
  · have hlists : FinshHeap.list ⟨memory₃, freeList, allocateList⟩ =
        update (update s.list true allocateList) false freeList := by
      funext used
      cases used <;> rfl
    rw [hlists]
    exact hmerged
  · rw [hsame]
    exact usedTiles_free rfl

theorem heapAlignSize_le (hsize : size ≤ finshHeapMax) :
    size ≤ heapAlignSize size ∧ heapAlignSize size ≤ finshHeapMax := by
  have hmax : size ≤ 128 := hsize
  constructor
  · exact le_rtAlign (k := 2) (by decide) (by omega)
  · exact rtAlign_le (k := 2) (by decide) hsize (by decide) (by decide)

theorem Image.split (himage : Image base memory list (pre ++ tile :: post))
    (hfree : tile.used = false) (hfit : tile.start + 8 + size + 8 ≤ tile.stop) :
    Image base (finshBlockSplit tile.start size memory) list
      (pre ++ ⟨tile.start, tile.start + 8 + size, false⟩ ::
        ⟨tile.start + 8 + size, tile.stop, false⟩ :: post) := by
  obtain ⟨hpre, hlen, hpost⟩ := Tiles.middle_iff.mp himage.tiling
  have hpreLe := hpre.le
  have hpostLe := hpost.le
  have hbase := himage.base_le
  have hself := himage.ends tile (by simp)
  unfold blockEnd at hself
  generalize hnext : tile.start + 8 + size = next at hfit ⊢
  have hnew : Apart next tile.start := .inr (by omega)
  have hout : ∀ other ∈ pre ++ post, Apart tile.start other.start ∧ Apart next other.start := by
    intro other hother
    rcases List.mem_append.mp hother with hin | hin
    · have hbounds := hpre.bounds hin
      exact ⟨.inr (by omega), .inr (by omega)⟩
    · have hbounds := hpost.bounds hin
      exact ⟨.inl (by omega), .inl (by omega)⟩
  obtain ⟨memory', hsplit⟩ : ∃ memory', finshBlockSplit tile.start size memory = memory' :=
    ⟨_, rfl⟩
  have hlengths : ∀ a, Apart tile.start a → Apart next a →
      lengthOf memory' a = lengthOf memory a ∧ links memory' a = links memory a := by
    intro a hstart hfar
    rw [← hsplit, finshBlockSplit, hnext, lengthOf_setNext (.inr hstart), lengthOf_setNext (.inr hfar),
      lengthOf_setLength_apart hstart, lengthOf_setLength_apart hfar, links_setNext_apart hstart,
      links_setNext_apart hfar, links, nextOf_setLength (.inr hstart),
      nextOf_setLength (.inr hfar)]
    exact ⟨rfl, rfl⟩
  have hstartLength : lengthOf memory' tile.start = size := by
    rw [← hsplit, finshBlockSplit, hnext, lengthOf_setNext (.inl rfl), lengthOf_setNext (.inr hnew),
      lengthOf_setLength_self (by omega)]
  have hnextLength : lengthOf memory' next = tile.stop - next - 8 := by
    rw [← hsplit, finshBlockSplit, hnext, lengthOf_setNext (.inr hnew.symm), lengthOf_setNext (.inl rfl),
      lengthOf_setLength_apart hnew.symm, sub32_eq (a := lengthOf memory tile.start) (by omega)
        (by omega), sub32_eq (by omega) (by omega), lengthOf_setLength_self (by omega)]
    omega
  have hstartLink : links memory' tile.start = some next := by
    rw [← hsplit, finshBlockSplit, hnext, links_setNext_self (by omega), toPtr_pos (by omega)]
  have hnextLink : links memory' next = links memory tile.start := by
    rw [← hsplit, finshBlockSplit, hnext, links_setNext_apart hnew.symm, links_setNext_self nextOf_lt,
      nextOf_setLength (.inl rfl), nextOf_setLength (.inr hnew)]
    rfl
  rw [hsplit]
  have hkept : ∀ used, ∀ a ∈ starts used pre ++ starts used post,
      Apart tile.start a ∧ Apart next a := by
    intro used a ha
    rw [List.mem_append, mem_starts, mem_starts] at ha
    rcases ha with ⟨other, hother, -, rfl⟩ | ⟨other, hother, -, rfl⟩
    · exact hout other (by simp [hother])
    · exact hout other (by simp [hother])
  refine ⟨⟨Tiles.middle_iff.mpr ⟨hpre, by change tile.start + 8 ≤ next; omega, rfl, ?_, hpost⟩,
    fun other hother => ?_, himage.base_pos, hbase⟩, fun used => ?_⟩
  · change next + 8 ≤ tile.stop
    exact hfit
  · simp only [List.mem_append, List.mem_cons] at hother
    have hold : other ∈ pre ++ post → blockEnd memory' other.start = other.stop := by
      intro hin
      obtain ⟨hstart, hfar⟩ := hout other hin
      unfold blockEnd
      rw [(hlengths _ hstart hfar).1]
      refine himage.ends other ?_
      simp only [List.mem_append, List.mem_cons] at hin ⊢
      tauto
    rcases hother with hin | rfl | rfl | hin
    · exact hold (by simp [hin])
    · change tile.start + lengthOf memory' tile.start + 8 = next
      rw [hstartLength]
      omega
    · change next + lengthOf memory' next + 8 = tile.stop
      rw [hnextLength]
      omega
    · exact hold (by simp [hin])
  · have hlist := himage.lists used
    cases used with
    | true =>
      rw [starts_append, starts_cons_other (by simp [hfree])] at hlist
      rw [starts_append, starts_cons_other (by simp), starts_cons_other (by simp)]
      refine hlist.frame fun a ha => ?_
      obtain ⟨hstart, hfar⟩ := hkept true a ha
      exact (hlengths a hstart hfar).2
    | false =>
      have hspaced := himage.starts_spaced false
      rw [starts_append, starts_cons, if_pos hfree] at hlist hspaced
      rw [starts_append, starts_cons, if_pos rfl, starts_cons, if_pos rfl]
      have hrow : Chain (links memory) (toPtr (list false))
          ((starts false pre ++ [tile.start]) ++ starts false post) := by
        rw [List.append_assoc]
        exact hlist
      have hnodup := hspaced.nodup
      rw [← List.append_assoc] at hnodup
      have hfresh : next ∉ (starts false pre ++ [tile.start]) ++ starts false post := by
        simp only [List.mem_append, List.mem_singleton, not_or]
        exact ⟨⟨fun h => (hkept false next (by simp [h])).2.ne rfl, hnew.ne⟩,
          fun h => (hkept false next (by simp [h])).2.ne rfl⟩
      have hlast : (starts false pre ++ [tile.start]).getLast? = some tile.start := by simp
      have hnewRow := hrow.insertAfter hnodup hlast hfresh
      rw [List.append_assoc] at hnewRow
      refine hnewRow.congr fun a ha => ?_
      simp only [List.singleton_append, List.mem_append, List.mem_cons] at ha
      have hother : a ∈ starts false pre ++ starts false post →
          links memory' a = update (update (links memory) next
            (links memory tile.start)) tile.start (some next) a := by
        intro hin
        obtain ⟨hstart, hfar⟩ := hkept false a hin
        rw [update_of_ne hstart.ne.symm, update_of_ne hfar.ne.symm]
        exact (hlengths a hstart hfar).2
      rcases ha with ha | rfl | rfl | ha
      · exact hother (by simp [ha])
      · rw [update_self, hstartLink]
      · rw [update_of_ne hnew.ne, update_self, hnextLink]
      · exact hother (by simp [ha])

theorem Image.store (himage : Image base memory list tiles) (htile : tile ∈ tiles)
    (hsame : ∀ i, i < tile.start + 8 ∨ tile.stop ≤ i → memory' i = memory i) :
    Image base memory' list tiles := by
  have hheader : ∀ other ∈ tiles, ∀ i, other.start ≤ i → i < other.start + 8 →
      memory' i = memory i := by
    intro other hother i hle hlt
    apply hsame
    have hbounds := himage.tiling.bounds hother
    rcases himage.tiling.eq_or_apart htile hother with rfl | happart | happart
    · exact .inl hlt
    · exact .inr (by omega)
    · exact .inl (by omega)
  refine ⟨himage.toBlocks.frame fun other hother => ?_, fun used => ?_⟩
  · apply ByteMemory.readWord_congr
    intro i hle hlt
    exact hheader other hother i hle (by omega)
  · refine (himage.lists used).frame fun a ha => ?_
    obtain ⟨other, hother, -, rfl⟩ := mem_starts.mp ha
    have hnext : nextOf memory' other.start = nextOf memory other.start := by
      apply ByteMemory.readWord_congr
      intro i hle hlt
      exact hheader other hother i (by omega) (by omega)
    rw [links, links, hnext]

theorem Ordered.takeBlock (hordered : Ordered base s (pre ++ tile :: post))
    (hfree : tile.used = false) (hfit : tile.start + 8 + size + 8 ≤ tile.stop) :
    ∃ s', takeBlock tile.start size s = some s' ∧
      Ordered base s' (pre ++ ⟨tile.start, tile.start + 8 + size, true⟩ ::
        ⟨tile.start + 8 + size, tile.stop, false⟩ :: post) := by
  have hsplit := hordered.image.split hfree hfit
  obtain ⟨freeList, memory₁, hremove, hlimbo, -⟩ := hsplit.remove
  have hlimbo' := hlimbo.setNext (v := 0)
  have hzero : nextOf (setNext memory₁ tile.start 0) tile.start = 0 :=
    toPtr_eq_none (links_setNext_self (by decide))
  obtain ⟨allocateList, memory₂, hinsert, himage⟩ := hlimbo'.insert true fun _ => hzero
  refine ⟨⟨memory₂.writeBytes (finshBlockGetData tile.start) (List.replicate size 0), freeList,
    allocateList⟩, ?_, ⟨?_, ?_⟩⟩
  · have hremove' : finshBlockRemove s.freeList tile.start
        (finshBlockSplit tile.start size s.memory) = some (freeList, memory₁) := hremove
    have hinsert' : finshBlockInsert s.allocateList tile.start (setNext memory₁ tile.start 0) =
        some (allocateList, memory₂) := hinsert
    unfold RtThread.Finsh.takeBlock
    simp only [hremove', hinsert', Option.bind_eq_bind, Option.bind_some, Option.pure_def]
  · have hlists : FinshHeap.list ⟨memory₂.writeBytes (finshBlockGetData tile.start)
        (List.replicate size 0), freeList, allocateList⟩ =
        update (update s.list false freeList) true allocateList := by
      funext used
      cases used <;> rfl
    rw [hlists]
    have hmem : (⟨tile.start, tile.start + 8 + size, true⟩ : Tile) ∈
        pre ++ ⟨tile.start, tile.start + 8 + size, true⟩ ::
          ⟨tile.start + 8 + size, tile.stop, false⟩ :: post := by simp
    refine himage.store hmem fun i hi => ?_
    apply ByteMemory.writeBytes_outside
    rw [List.length_replicate]
    exact hi
  · have hends : EndsFree ((pre ++ [⟨tile.start, tile.start + 8 + size, true⟩]) ++
        ⟨tile.start + 8 + size, tile.stop, false⟩ :: post) := hordered.ends.replace rfl
    rwa [List.append_assoc, List.singleton_append] at hends

theorem firstFit_spec (tooShort : Nat → Bool) {nodes : List Nat} {fuel first : Nat}
    (hlist : ListAt memory first nodes) (hfuel : nodes.length < fuel) :
    ∃ header, firstFit tooShort memory fuel first = some header ∧
      (header = 0 ∨ header ∈ nodes ∧ tooShort (lengthOf memory header) = false) := by
  induction nodes generalizing first fuel with
  | nil =>
    cases fuel with
    | zero => simp at hfuel
    | succ fuel =>
      have hzero : first = 0 := toPtr_eq_none hlist
      rw [firstFit, if_neg (by simp [hzero])]
      exact ⟨first, rfl, .inl hzero⟩
  | cons node rest ih =>
    obtain ⟨rfl, hrest⟩ := ListAt.eq_cons hlist
    cases fuel with
    | zero => simp at hfuel
    | succ fuel =>
      rw [firstFit]
      split
      · rw [List.length_cons, Nat.add_lt_add_iff_right] at hfuel
        obtain ⟨header, hfound, hheader⟩ := ih hrest hfuel
        refine ⟨header, hfound, hheader.imp_right fun h => ⟨List.mem_cons_of_mem _ h.1, h.2⟩⟩
      next hnot =>
        refine ⟨first, rfl, ?_⟩
        by_cases hzero : first = 0
        · exact .inl hzero
        · refine .inr ⟨List.mem_cons_self, ?_⟩
          simpa [hzero] using hnot

section Collect

variable {fuel : Nat} {visited rest : List Nat}

theorem starts_true : starts true tiles = (usedTiles tiles).map Tile.start := by
  simp [starts, usedTiles]

theorem mem_of_starts {a : Nat} (hmem : a ∈ starts true tiles) :
    ∃ pre tile post, tiles = pre ++ tile :: post ∧ tile.used = true ∧ tile.start = a := by
  obtain ⟨tile, htile, hused, hstart⟩ := mem_starts.mp hmem
  obtain ⟨pre, post, heq⟩ := List.append_of_mem htile
  exact ⟨pre, tile, post, heq, hused, hstart⟩

theorem Blocks.mem_usedTiles_without (hblocks : Blocks base memory (pre ++ tile :: post)) :
    other ∈ usedTiles (pre ++ post) ↔
      other ∈ usedTiles (pre ++ tile :: post) ∧ other.start ≠ tile.start := by
  obtain ⟨hleft, hright⟩ := hblocks.spaced_of_mem
  rw [mem_usedTiles, mem_usedTiles, List.mem_append, List.mem_append, List.mem_cons]
  constructor
  · rintro ⟨hin | hin, hused⟩
    · have hlt := hleft other.start (List.mem_map_of_mem hin)
      exact ⟨⟨.inl hin, hused⟩, by omega⟩
    · have hlt := hright other.start (List.mem_map_of_mem hin)
      exact ⟨⟨.inr (.inr hin), hused⟩, by omega⟩
  · rintro ⟨⟨hin | rfl | hin, hused⟩, hne⟩
    · exact ⟨.inl hin, hused⟩
    · exact absurd rfl hne
    · exact ⟨.inr hin, hused⟩

structure Collected (globalVariable : Fin finshVariableMax → FinshVar) (rest : List Nat)
    (tiles tiles' : List Tile) (freed : List Nat) : Prop where
  kept : ∀ tile, tile ∈ usedTiles tiles' ↔
    tile ∈ usedTiles tiles ∧ (tile.start ∈ rest → referenced globalVariable tile.start = true)
  freed : ∀ p, p ∈ freed ↔
    ∃ header ∈ rest, referenced globalVariable header = false ∧ p = finshBlockGetData header

theorem Ordered.gcLoop (hordered : Ordered base s tiles)
    (hstarts : starts true tiles = visited ++ rest) (hheader : toPtr header = rest.head?)
    (hfuel : rest.length < fuel) :
    ∃ freed s' tiles', gcLoop globalVariable fuel header s = some (freed, s') ∧
      Ordered base s' tiles' ∧ Collected globalVariable rest tiles tiles' freed := by
  induction rest generalizing s tiles visited header fuel with
  | nil =>
    cases fuel with
    | zero => simp at hfuel
    | succ fuel =>
      have hzero : header = 0 := toPtr_eq_none hheader
      refine ⟨[], s, tiles, if_pos hzero, hordered, ⟨fun tile => ?_, fun p => ?_⟩⟩
      · simp
      · simp
  | cons node rest ih =>
    obtain rfl : header = node := toPtr_eq_some hheader
    have hlist := hordered.image.lists true
    have hspaced := hordered.image.starts_spaced true
    rw [hstarts] at hlist hspaced
    have hpos := (hspaced.valid header (by simp)).1
    have hnext : toPtr (nextOf s.memory header) = rest.head? :=
      Chain.head?_eq hlist.behind
    have hnodup := hspaced.nodup
    cases fuel with
    | zero => simp at hfuel
    | succ fuel =>
      rw [List.length_cons, Nat.add_lt_add_iff_right] at hfuel
      rw [RtThread.Finsh.gcLoop, if_neg (by omega)]
      dsimp only
      split
      next href =>
        have hstarts' : starts true tiles = (visited ++ [header]) ++ rest := by
          rw [hstarts, List.append_assoc]
          rfl
        obtain ⟨freed, s', tiles', hloop, hordered', hcollected⟩ := ih hordered hstarts' hnext hfuel
        refine ⟨freed, s', tiles', hloop, hordered', ⟨fun tile => ?_, fun p => ?_⟩⟩
        · rw [hcollected.kept, List.mem_cons]
          refine and_congr_right fun _ => ⟨fun h hin => ?_, fun h hin => h (.inr hin)⟩
          rcases hin with heq | hin
          · rw [heq]
            exact href
          · exact h hin
        · rw [hcollected.freed]
          simp [href]
      next hnot =>
        have hmem : header ∈ starts true tiles := by
          rw [hstarts]
          simp
        obtain ⟨pre, tile, post, rfl, hused, rfl⟩ := mem_of_starts hmem
        obtain ⟨s₁, tiles₁, hfree, hordered₁, hsame⟩ := hordered.free hused
        have hpieces : starts true pre ++ tile.start :: starts true post =
            visited ++ tile.start :: rest := by
          rw [← hstarts, starts_append, starts_cons, if_pos hused]
          rfl
        have hpreFree : tile.start ∉ starts true pre := fun h =>
          absurd (hordered.image.spaced_of_mem.1 tile.start (starts_subset h)) (by omega)
        have hvisitedFree : tile.start ∉ visited := fun h =>
          absurd (hspaced.append_apart.1 tile.start h) (by omega)
        have hstarts₁ : starts true tiles₁ = visited ++ rest := by
          rw [starts_true, hsame, ← starts_true, starts_append]
          have herase := congrArg (fun l => l.erase tile.start) hpieces
          simpa [List.erase_append_right, hpreFree, hvisitedFree] using herase
        have hnext₁ : toPtr (nextOf s.memory tile.start) = rest.head? := hnext
        obtain ⟨freed, s', tiles', hloop, hordered', hcollected⟩ :=
          ih hordered₁ hstarts₁ hnext₁ hfuel
        refine ⟨finshBlockGetData tile.start :: freed, s', tiles', ?_, hordered',
          ⟨fun other => ?_, fun p => ?_⟩⟩
        · simp only [hfree, hloop, Option.bind_eq_bind, Option.bind_some, Option.pure_def]
        · rw [hcollected.kept, hsame, hordered.image.mem_usedTiles_without, List.mem_cons]
          constructor
          · rintro ⟨⟨hin, hne⟩, hkept⟩
            exact ⟨hin, fun h => hkept (h.resolve_left hne)⟩
          · rintro ⟨hin, hkept⟩
            refine ⟨⟨hin, fun heq => hnot ?_⟩, fun h => hkept (.inr h)⟩
            rw [← heq]
            exact hkept (.inl heq)
        · rw [List.mem_cons, hcollected.freed]
          simp [hnot]

theorem Ordered.gc (globalVariable : Fin finshVariableMax → FinshVar)
    (hordered : Ordered base s tiles) :
    ∃ freed s' tiles', finshHeapGc globalVariable s = some (freed, s') ∧
      Ordered base s' tiles' ∧ Collected globalVariable (starts true tiles) tiles tiles' freed := by
  have hlist := hordered.image.lists true
  have hstarts : starts true tiles = [] ++ starts true tiles := rfl
  exact hordered.gcLoop hstarts (Chain.head?_eq hlist)
    (hordered.image.length_starts true)

end Collect

section Requests

variable {ptr : Nat}

structure Allocated (size ptr : Nat) (tiles tiles' : List Tile) : Prop where
  added : ∀ tile, tile ∈ usedTiles tiles' ↔
    tile ∈ usedTiles tiles ∨ ptr ≠ 0 ∧ tile = ⟨finshBlockGetHeader ptr, ptr + size, true⟩
  fresh : ∀ tile ∈ usedTiles tiles, finshBlockGetData tile.start ≠ ptr
  header : ptr ≠ 0 → 8 ≤ ptr

theorem Ordered.takeFound (hordered : Ordered base s tiles)
    (hfound : header = 0 ∨ header ∈ starts false tiles ∧
      size + 8 ≤ lengthOf s.memory header) :
    ∃ ptr s' tiles', takeFound header size s = some (ptr, s') ∧ Ordered base s' tiles' ∧
      Allocated size ptr tiles tiles' := by
  have hbase := hordered.image.base_pos
  rcases hfound with rfl | ⟨hmem, hlong⟩
  · refine ⟨0, s, tiles, rfl, hordered, ⟨fun tile => by simp, fun tile _ => ?_, fun h => absurd rfl h⟩⟩
    unfold finshBlockGetData
    omega
  · obtain ⟨tile, htile, hfree, rfl⟩ := mem_starts.mp hmem
    obtain ⟨pre, post, rfl⟩ := List.append_of_mem htile
    have hend := hordered.image.ends tile htile
    have hbounds := hordered.image.tiling.bounds htile
    unfold blockEnd at hend
    have hfit : tile.start + 8 + size + 8 ≤ tile.stop := by omega
    obtain ⟨s', htake, hordered'⟩ := hordered.takeBlock hfree hfit
    refine ⟨finshBlockGetData tile.start, s', _, ?_, hordered', ⟨fun other => ?_, fun other hother => ?_,
      fun _ => Nat.le_add_left ..⟩⟩
    · rw [RtThread.Finsh.takeFound, if_neg (by omega), htake]
      rfl
    · have hpos : finshBlockGetData tile.start ≠ 0 := by
        unfold finshBlockGetData
        omega
      have hheader : finshBlockGetHeader (finshBlockGetData tile.start) = tile.start :=
        Nat.add_sub_cancel ..
      rw [mem_usedTiles, mem_usedTiles, hheader]
      simp only [List.mem_append, List.mem_cons]
      constructor
      · rintro ⟨hin | rfl | rfl | hin, hused⟩
        · exact .inl ⟨.inl hin, hused⟩
        · exact .inr ⟨hpos, rfl⟩
        · cases hused
        · exact .inl ⟨.inr (.inr hin), hused⟩
      · rintro (⟨hin | rfl | hin, hused⟩ | ⟨-, rfl⟩)
        · exact ⟨.inl hin, hused⟩
        · cases hfree.symm.trans hused
        · exact ⟨.inr (.inr (.inr hin)), hused⟩
        · exact ⟨.inr (.inl rfl), rfl⟩
    · rw [mem_usedTiles] at hother
      intro heq
      have hstart : other.start = tile.start := Nat.add_right_cancel heq
      have hsame := hordered.image.tiling.eq_of_start_eq (by decide) hother.1 htile hstart
      rw [hsame, hfree] at hother
      cases hother.2

def Swept (globalVariable : Fin finshVariableMax → FinshVar) (must : Bool)
    (tiles tiles' : List Tile) (freed : List Nat) : Prop :=
  must = false ∧ freed = [] ∧ tiles' = tiles ∨
    must = true ∧ Collected globalVariable (starts true tiles) tiles tiles' freed

theorem Ordered.finshHeapAllocate (globalVariable : Fin finshVariableMax → FinshVar)
    (hordered : Ordered base s tiles) (hsize : size ≤ finshHeapMax) :
    ∃ ptr freed s' tiles₁ tiles', finshHeapAllocate globalVariable size s = some (ptr, freed, s') ∧
      Ordered base s' tiles' ∧
      Swept globalVariable (mustCollect size s) tiles tiles₁ freed ∧
      Allocated (heapAlignSize size) ptr tiles₁ tiles' := by
  have halign : heapAlignSize size ≤ 128 := (heapAlignSize_le hsize).2
  have hadd : add32 (heapAlignSize size) 8 = heapAlignSize size + 8 :=
    Nat.mod_eq_of_lt (by omega)
  obtain ⟨header, hfirst, hfound⟩ := firstFit_spec (· ≤ add32 (heapAlignSize size) 8)
    (hordered.image.lists false) (hordered.image.length_starts false)
  have hfirst' : firstFit (· ≤ add32 (heapAlignSize size) 8) s.memory heapFuel s.freeList =
      some header := hfirst
  unfold RtThread.Finsh.finshHeapAllocate
  simp only [hfirst', Option.bind_eq_bind, Option.bind_some, Option.pure_def]
  split
  next hzero =>
    obtain ⟨freed, s₁, tiles₁, hgc, hordered₁, hcollected⟩ := hordered.gc globalVariable
    obtain ⟨header₁, hsecond, hfound₁⟩ :=
      firstFit_spec (· < add32 (heapAlignSize size) 8)
        (hordered₁.image.lists false) (hordered₁.image.length_starts false)
    have hsecond' : firstFit (· < add32 (heapAlignSize size) 8) s₁.memory heapFuel s₁.freeList =
        some header₁ := hsecond
    have hlong : header₁ = 0 ∨ header₁ ∈ starts false tiles₁ ∧
        heapAlignSize size + 8 ≤ lengthOf s₁.memory header₁ := by
      refine hfound₁.imp_right fun h => ⟨h.1, ?_⟩
      simpa [hadd] using h.2
    obtain ⟨ptr, s', tiles', htake, hordered', hallocated⟩ := hordered₁.takeFound hlong
    have hmust : mustCollect size s = true := by
      rw [mustCollect, hfirst', hzero]
      rfl
    refine ⟨ptr, freed, s', tiles₁, tiles', ?_, hordered', .inr ⟨hmust, hcollected⟩, hallocated⟩
    simp only [hgc, hsecond', htake, Option.bind_some]
  next hsome =>
    have hlong : header = 0 ∨ header ∈ starts false tiles ∧
        heapAlignSize size + 8 ≤ lengthOf s.memory header := by
      refine hfound.imp_right fun h => ⟨h.1, ?_⟩
      have hlt : ¬ lengthOf s.memory header ≤ heapAlignSize size + 8 := by simpa [hadd] using h.2
      omega
    obtain ⟨ptr, s', tiles', htake, hordered', hallocated⟩ := hordered.takeFound hlong
    have hmust : mustCollect size s = false := by
      rw [mustCollect, hfirst']
      simpa using hsome
    refine ⟨ptr, [], s', tiles, tiles', ?_, hordered', .inl ⟨hmust, rfl, rfl⟩, hallocated⟩
    simp only [htake, Option.bind_some]

end Requests

end RtThread.Finsh
