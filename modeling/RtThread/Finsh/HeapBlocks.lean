import RtThread.Finsh.HeapLists
import RtThread.Lib.Tiling

namespace RtThread.Finsh

open Function RtThread.Lib

def starts (used : Bool) (tiles : List Tile) : List Nat :=
  (tiles.filter fun tile => tile.used = used).map Tile.start

def FinshHeap.list (s : FinshHeap) : Bool → Nat
  | false => s.freeList
  | true => s.allocateList

structure Blocks (base : Nat) (memory : ByteMemory) (tiles : List Tile) : Prop where
  tiling : Tiles 8 base tiles (base + finshHeapMax)
  ends : ∀ tile ∈ tiles, blockEnd memory tile.start = tile.stop
  base_pos : 0 < base
  base_le : base + finshHeapMax ≤ 2 ^ 32

structure Image (base : Nat) (memory : ByteMemory) (list : Bool → Nat) (tiles : List Tile) :
    Prop extends Blocks base memory tiles where
  lists : ∀ used, ListAt memory (list used) (starts used tiles)

structure Limbo (base : Nat) (memory : ByteMemory) (list : Bool → Nat) (pre : List Tile)
    (tile : Tile) (post : List Tile) : Prop extends Blocks base memory (pre ++ tile :: post) where
  lists : ∀ used, ListAt memory (list used) (starts used pre ++ starts used post)

def EndsFree (tiles : List Tile) : Prop := ∃ last, tiles.getLast? = some last ∧ last.used = false

variable {base size v : Nat} {memory memory' : ByteMemory} {list list' : Bool → Nat} {used : Bool}
  {tile other : Tile} {tiles pre post : List Tile}

@[simp] theorem starts_append : starts used (pre ++ post) = starts used pre ++ starts used post := by
  simp [starts]

theorem starts_cons : starts used (tile :: tiles) =
    (if tile.used = used then [tile.start] else []) ++ starts used tiles := by
  unfold starts
  rw [List.filter_cons]
  split <;> simp_all

theorem starts_cons_self : starts tile.used (tile :: tiles) = tile.start :: starts tile.used tiles := by
  rw [starts_cons, if_pos rfl]
  rfl

theorem starts_cons_other (hne : tile.used ≠ used) :
    starts used (tile :: tiles) = starts used tiles := by
  rw [starts_cons, if_neg hne]
  rfl

theorem mem_starts {a : Nat} :
    a ∈ starts used tiles ↔ ∃ tile ∈ tiles, tile.used = used ∧ tile.start = a := by
  simp [starts, and_assoc]

theorem EndsFree.starts_ne (hends : EndsFree (pre ++ tile :: post)) (hused : tile.used = true) :
    starts false post ≠ [] := by
  obtain ⟨last, hlast, hfree⟩ := hends
  have hmem : last ∈ post := by
    cases post with
    | nil =>
      rw [List.getLast?_append_cons] at hlast
      cases hlast
      cases hfree.symm.trans hused
    | cons first rest =>
      rw [List.getLast?_append_cons, List.getLast?_cons_cons] at hlast
      exact List.mem_of_getLast? hlast
  exact List.ne_nil_of_mem (mem_starts.mpr ⟨last, hmem, hfree, rfl⟩)

namespace Blocks

theorem spaced (hblocks : Blocks base memory tiles) : Spaced (tiles.map Tile.start) := by
  have hpos := hblocks.base_pos
  have hle := hblocks.base_le
  refine ⟨?_, fun a ha => ?_⟩
  · refine List.pairwise_map.mpr (hblocks.tiling.pairwise.imp_of_mem fun hleft _ hstop => ?_)
    have hbounds := hblocks.tiling.bounds hleft
    omega
  · obtain ⟨tile, htile, rfl⟩ := List.mem_map.mp ha
    have hbounds := hblocks.tiling.bounds htile
    omega

theorem spaced_of_mem (hblocks : Blocks base memory (pre ++ tile :: post)) :
    (∀ a ∈ pre.map Tile.start, a + 8 ≤ tile.start) ∧
      ∀ a ∈ post.map Tile.start, tile.start + 8 ≤ a := by
  have hspaced := hblocks.spaced
  rw [List.map_append, List.map_cons] at hspaced
  exact hspaced.append_apart

section

variable (hblocks : Blocks base memory tiles)
include hblocks

theorem starts_spaced (used : Bool) : Spaced (starts used tiles) :=
  hblocks.spaced.sublist (List.filter_sublist.map _)

theorem apart (htile : tile ∈ tiles) (hother : other ∈ tiles) :
    tile.start = other.start ∨ Apart tile.start other.start := by
  by_cases heq : tile.start = other.start
  · exact .inl heq
  · exact .inr (hblocks.spaced.apart (List.mem_map_of_mem htile) (List.mem_map_of_mem hother) heq)

theorem apart_of_used {used' : Bool} {a b : Nat}
    (ha : a ∈ starts used tiles) (hb : b ∈ starts used' tiles) (hne : used ≠ used') :
    Apart a b := by
  obtain ⟨tile, htile, hused, rfl⟩ := mem_starts.mp ha
  obtain ⟨other, hother, hused', rfl⟩ := mem_starts.mp hb
  rcases hblocks.apart htile hother with heq | hapart
  · rw [hblocks.tiling.eq_of_start_eq (by decide) htile hother heq] at hused
    exact absurd (hused.symm.trans hused') hne
  · exact hapart

theorem length_starts (used : Bool) : (starts used tiles).length < heapFuel := by
  have hlength := hblocks.tiling.length_le (by decide)
  have hfilter : (starts used tiles).length ≤ tiles.length := by
    unfold starts
    rw [List.length_map]
    exact List.length_filter_le ..
  change (starts used tiles).length < finshHeapMax + 1
  omega

theorem frame (hsame : ∀ tile ∈ tiles, lengthOf memory' tile.start = lengthOf memory tile.start) :
    Blocks base memory' tiles := by
  refine ⟨hblocks.tiling, fun tile htile => ?_, hblocks.base_pos, hblocks.base_le⟩
  unfold blockEnd
  rw [hsame tile htile]
  exact hblocks.ends tile htile

theorem nextsOnly {nodes : List Nat}
    (honly : NextsOnly nodes memory memory') (hnodes : nodes ⊆ tiles.map Tile.start) :
    Blocks base memory' tiles := by
  refine hblocks.frame fun tile htile => honly.lengthOf_eq fun a ha => ?_
  obtain ⟨other, hother, rfl⟩ := List.mem_map.mp (hnodes ha)
  exact hblocks.apart hother htile

end

end Blocks

theorem starts_subset : starts used tiles ⊆ tiles.map Tile.start := by
  intro a ha
  obtain ⟨tile, htile, -, rfl⟩ := mem_starts.mp ha
  exact List.mem_map_of_mem htile

theorem Image.remove (himage : Image base memory list (pre ++ tile :: post)) :
    ∃ list' memory', finshBlockRemove (list tile.used) tile.start memory = some (list', memory') ∧
      Limbo base memory' (update list tile.used list') pre tile post ∧
      NextsOnly (tile.start :: starts tile.used pre) memory memory' := by
  have hlist := himage.lists tile.used
  rw [starts_append, starts_cons_self] at hlist
  have hspaced := himage.starts_spaced tile.used
  rw [starts_append, starts_cons_self] at hspaced
  have hlength := himage.length_starts tile.used
  rw [starts_append, List.length_append] at hlength
  obtain ⟨list', memory', hremove, hlist', honly⟩ :=
    finshBlockRemove_spec hlist hspaced (by omega)
  have hnodes : tile.start :: starts tile.used pre ⊆ (pre ++ tile :: post).map Tile.start := by
    intro a ha
    rcases List.mem_cons.mp ha with rfl | ha
    · exact List.mem_map_of_mem (by simp)
    · rw [List.map_append]
      exact List.mem_append_left _ (starts_subset ha)
  refine ⟨list', memory', hremove, ⟨himage.nextsOnly honly hnodes, fun used => ?_⟩, honly⟩
  rcases eq_or_ne used tile.used with rfl | hne
  · rw [update_self]
    exact hlist'
  · rw [update_of_ne hne]
    have hother := himage.lists used
    rw [starts_append, starts_cons_other hne.symm] at hother
    refine hother.frame fun a ha => honly.links_apart fun b hb => ?_
    have hin : b ∈ starts tile.used (pre ++ tile :: post) := by
      rw [starts_append, starts_cons_self]
      simp only [List.mem_cons, List.mem_append] at hb ⊢
      tauto
    refine himage.apart_of_used hin ?_ hne.symm
    rwa [starts_append, starts_cons_other hne.symm]

theorem Limbo.insert (hlimbo : Limbo base memory list pre tile post) (used : Bool)
    (hend : starts used post = [] → nextOf memory tile.start = 0) :
    ∃ list' memory', finshBlockInsert (list used) tile.start memory = some (list', memory') ∧
      Image base memory' (update list used list')
        (pre ++ { tile with used := used } :: post) := by
  have htiling : Tiles 8 base (pre ++ { tile with used := used } :: post)
      (base + finshHeapMax) := by
    have htiles := hlimbo.tiling
    rw [Tiles.middle_iff] at htiles ⊢
    exact htiles
  have hblocks : Blocks base memory (pre ++ { tile with used := used } :: post) := by
    refine ⟨htiling, fun other hother => ?_, hlimbo.base_pos, hlimbo.base_le⟩
    simp only [List.mem_append, List.mem_cons] at hother
    rcases hother with hin | rfl | hin
    · exact hlimbo.ends other (by simp [hin])
    · exact hlimbo.ends tile (by simp)
    · exact hlimbo.ends other (by simp [hin])
  have hstarts : starts used (pre ++ { tile with used := used } :: post) =
      starts used pre ++ tile.start :: starts used post := by
    rw [starts_append, starts_cons, if_pos rfl]
    rfl
  have hspaced := hblocks.starts_spaced used
  rw [hstarts] at hspaced
  have hlength := hblocks.length_starts used
  rw [hstarts, List.length_append] at hlength
  obtain ⟨list', memory', hinsert, hlist', honly⟩ :=
    finshBlockInsert_spec (hlimbo.lists used) hspaced (by omega) hend
  have hnodes : tile.start :: starts used pre ⊆ starts used (pre ++ { tile with used := used } :: post) := by
    rw [hstarts]
    intro a ha
    simp only [List.mem_cons, List.mem_append] at ha ⊢
    tauto
  refine ⟨list', memory', hinsert, ⟨hblocks.nextsOnly honly
    (fun a ha => starts_subset (hnodes ha)), fun used' => ?_⟩⟩
  rcases eq_or_ne used' used with rfl | hne
  · rw [update_self, hstarts]
    exact hlist'
  · have hother : starts used' (pre ++ { tile with used := used } :: post) =
        starts used' pre ++ starts used' post := by
      rw [starts_append, starts_cons, if_neg hne.symm]
      rfl
    rw [update_of_ne hne, hother]
    refine (hlimbo.lists used').frame fun a ha => honly.links_apart fun b hb => ?_
    refine hblocks.apart_of_used (hnodes hb) ?_ hne.symm
    rwa [hother]

theorem Limbo.setNext (hlimbo : Limbo base memory list pre tile post) :
    Limbo base (setNext memory tile.start v) list pre tile post := by
  refine ⟨hlimbo.nextsOnly setNext_nextsOnly ?_, fun used => ?_⟩
  · intro a ha
    rw [List.mem_singleton] at ha
    rw [ha]
    exact List.mem_map_of_mem (by simp)
  · refine (hlimbo.lists used).frame fun a ha => links_setNext_apart ?_
    obtain ⟨hleft, hright⟩ := hlimbo.spaced_of_mem
    rcases List.mem_append.mp ha with ha | ha
    · exact .inr (hleft a (starts_subset ha))
    · exact .inl (hright a (starts_subset ha))

section Merges

variable {mid : List Tile} {a e : Nat}

theorem starts_last (hlast : (starts used tiles).getLast? = some a) :
    ∃ pre tile post, tiles = pre ++ tile :: post ∧ tile.used = used ∧ tile.start = a ∧
      starts used post = [] := by
  induction tiles with
  | nil => cases hlast
  | cons head rest ih =>
    by_cases hnone : starts used rest = []
    · rw [starts_cons, hnone, List.append_nil] at hlast
      split at hlast
      next hused => exact ⟨[], head, rest, rfl, hused, Option.some.inj hlast, hnone⟩
      · cases hlast
    · rw [starts_cons, List.getLast?_append_of_ne_nil _ hnone] at hlast
      obtain ⟨pre, tile, post, rfl, hfound⟩ := ih hlast
      exact ⟨head :: pre, tile, post, rfl, hfound⟩

theorem starts_first (hfirst : (starts used tiles).head? = some a) :
    ∃ pre tile post, tiles = pre ++ tile :: post ∧ tile.used = used ∧ tile.start = a ∧
      starts used pre = [] := by
  induction tiles with
  | nil => cases hfirst
  | cons head rest ih =>
    by_cases hused : head.used = used
    · rw [starts_cons, if_pos hused] at hfirst
      exact ⟨[], head, rest, rfl, hused, Option.some.inj hfirst, rfl⟩
    · rw [starts_cons_other hused] at hfirst
      obtain ⟨pre, tile, post, rfl, hfound, hstart, hnone⟩ := ih hfirst
      exact ⟨head :: pre, tile, post, rfl, hfound, hstart, by rwa [starts_cons_other hused]⟩

theorem EndsFree.replace {pre' : List Tile} (hends : EndsFree (pre ++ tile :: post))
    (hfree : other.used = false) : EndsFree (pre' ++ other :: post) := by
  obtain ⟨last, hlast, hused⟩ := hends
  unfold EndsFree
  rw [List.getLast?_append_cons] at hlast ⊢
  cases post with
  | nil => exact ⟨other, rfl, hfree⟩
  | cons first rest =>
    rw [List.getLast?_cons_cons] at hlast ⊢
    exact ⟨last, hlast, hused⟩

theorem lengthOf_setLength_self (hv : v < 2 ^ 32) : lengthOf (setLength memory a v) a = v :=
  ByteMemory.readWord_writeWord hv

theorem lengthOf_setLength_apart {b : Nat} (hapart : Apart a b) :
    lengthOf (setLength memory a v) b = lengthOf memory b := by
  apply ByteMemory.readWord_writeWord_apart
  rcases hapart with h | h <;> omega

theorem nextOf_setLength {b : Nat} (hapart : a = b ∨ Apart a b) :
    nextOf (setLength memory a v) b = nextOf memory b := by
  apply ByteMemory.readWord_writeWord_apart
  rcases hapart with rfl | h | h <;> omega

theorem lengthOf_setNext {b : Nat} (hapart : a = b ∨ Apart a b) :
    lengthOf (setNext memory a v) b = lengthOf memory b := by
  refine setNext_nextsOnly.lengthOf_eq fun c hc => ?_
  rw [List.mem_singleton] at hc
  rwa [hc]

theorem Image.fuse (himage : Image base memory list (pre ++ tile :: (mid ++ post)))
    (hfree : tile.used = false) (hmid : ∀ other ∈ mid, other.used = false)
    (hspan : Tiles 8 tile.stop mid e) (hrest : Tiles 8 e post (base + finshHeapMax))
    (hv : ListAt memory v (starts false post)) (hbound : v < 2 ^ 32) :
    Image base
      (setNext (setLength memory tile.start (e - tile.start - 8)) tile.start v) list
      (pre ++ ⟨tile.start, e, false⟩ :: post) := by
  obtain ⟨hpre, hfit, -⟩ := Tiles.middle_iff.mp himage.tiling
  have hle := himage.base_le
  have hspanLe := hspan.le
  have hrestLe := hrest.le
  have hapart : ∀ other ∈ pre ++ post, Apart tile.start other.start := by
    intro other hother
    obtain ⟨hleft, hright⟩ := himage.spaced_of_mem
    rcases List.mem_append.mp hother with hin | hin
    · exact .inr (hleft _ (List.mem_map_of_mem hin))
    · exact .inl (hright _ (List.mem_map_of_mem (List.mem_append_right _ hin)))
  have hlinks : ∀ a, Apart tile.start a → links
      (setNext (setLength memory tile.start (e - tile.start - 8)) tile.start v) a =
        links memory a := by
    intro a ha
    rw [links_setNext_apart ha, links, links, nextOf_setLength (.inr ha)]
  have hused : ∀ b, starts b (mid ++ post) = (if b then [] else starts false mid) ++ starts b post := by
    intro b
    rw [starts_append]
    cases b with
    | false => rfl
    | true =>
      have hnone : starts true mid = [] := by
        rw [List.eq_nil_iff_forall_not_mem]
        intro a ha
        obtain ⟨other, hother, hused, -⟩ := mem_starts.mp ha
        cases hused.symm.trans (hmid other hother)
      rw [hnone]
      rfl
  refine ⟨⟨Tiles.middle_iff.mpr ⟨hpre, by change tile.start + 8 ≤ e; omega, hrest⟩,
    fun other hother => ?_, himage.base_pos, hle⟩, fun used => ?_⟩
  · simp only [List.mem_append, List.mem_cons] at hother
    have hkept : other ∈ pre ++ post → blockEnd
        (setNext (setLength memory tile.start (e - tile.start - 8)) tile.start v)
        other.start = other.stop := by
      intro hin
      have ha := hapart other hin
      unfold blockEnd
      rw [lengthOf_setNext (.inr ha), lengthOf_setLength_apart ha]
      refine himage.ends other ?_
      simp only [List.mem_append, List.mem_cons] at hin ⊢
      tauto
    rcases hother with hin | rfl | hin
    · exact hkept (by simp [hin])
    · unfold blockEnd
      dsimp only
      rw [lengthOf_setNext (.inl rfl), lengthOf_setLength_self (by omega)]
      omega
    · exact hkept (by simp [hin])
  · have hlist := himage.lists used
    cases used with
    | true =>
      rw [starts_append, starts_cons_other (by simp [hfree]), hused] at hlist
      rw [starts_append, starts_cons_other (by simp)]
      refine hlist.frame fun a ha => hlinks a ?_
      rw [List.mem_append] at ha
      rcases ha with ha | ha
      · obtain ⟨other, hother, -, rfl⟩ := mem_starts.mp ha
        exact hapart other (by simp [hother])
      · obtain ⟨other, hother, -, rfl⟩ := mem_starts.mp ha
        exact hapart other (by simp [hother])
    | false =>
      rw [starts_append, starts_cons, if_pos hfree] at hlist
      rw [starts_append, starts_cons, if_pos rfl]
      have hpreApart : ∀ a ∈ starts false pre, Apart tile.start a := by
        intro a ha
        obtain ⟨other, hother, -, rfl⟩ := mem_starts.mp ha
        exact hapart other (by simp [hother])
      have hpostApart : ∀ a ∈ starts false post, Apart tile.start a := by
        intro a ha
        obtain ⟨other, hother, -, rfl⟩ := mem_starts.mp ha
        exact hapart other (by simp [hother])
      refine Chain.congr (Chain.relink hlist hv (fun h => (hpreApart _ h).ne rfl)
        (fun h => (hpostApart _ h).ne rfl)) fun a ha => ?_
      rcases eq_or_ne a tile.start with rfl | hne
      · rw [update_self]
        exact links_setNext_self hbound
      · rw [update_of_ne hne]
        apply hlinks
        simp only [List.mem_append, List.mem_cons, List.not_mem_nil, or_false] at ha
        rcases ha with ha | ha | ha
        · exact hpreApart a ha
        · exact absurd ha hne
        · exact hpostApart a ha

theorem Image.prevNode (himage : Image base memory list (pre ++ tile :: post))
    (hfree : tile.used = false) :
    ∃ prev, prevNodeOf (list false) tile.start memory = some prev ∧
      (prev ≠ 0 → blockEnd memory prev = tile.start →
        ∃ pre' x, pre = pre' ++ [x] ∧ x.used = false ∧ x.start = prev) := by
  have hlist := himage.lists false
  rw [starts_append, starts_cons, if_pos hfree, List.singleton_append] at hlist
  have hspaced := himage.starts_spaced false
  rw [starts_append, starts_cons, if_pos hfree, List.singleton_append] at hspaced
  have hlength := himage.length_starts false
  rw [starts_append, List.length_append] at hlength
  cases hlast : (starts false pre).getLast? with
  | none =>
    rw [List.getLast?_eq_none_iff] at hlast
    rw [hlast] at hlist
    rw [prevNodeOf, if_pos (ListAt.eq_cons hlist).1]
    exact ⟨0, rfl, fun h => absurd rfl h⟩
  | some prev =>
    obtain ⟨pre', x, pre'', rfl, hused, rfl, hnone⟩ := starts_last hlast
    have hne : list false ≠ tile.start := by
      intro heq
      cases hfirst : starts false (pre' ++ x :: pre'') with
      | nil =>
        rw [hfirst] at hlast
        cases hlast
      | cons first rest =>
        rw [hfirst] at hlist hspaced
        have hlt := hspaced.append_apart.1 first List.mem_cons_self
        have hhead := (ListAt.eq_cons hlist).1
        omega
    rw [prevNodeOf, if_neg hne, prevLoop_eq hlist hspaced hlast (by omega)]
    refine ⟨x.start, rfl, fun _ hend => ⟨pre', x, ?_, hused, rfl⟩⟩
    -- there is no room for another block between the two
    rw [himage.ends x (by simp)] at hend
    obtain ⟨hpre, -, -⟩ := Tiles.middle_iff.mp himage.tiling
    obtain ⟨-, -, hbetween⟩ := Tiles.middle_iff.mp hpre
    have hcount := hbetween.length_le (by decide)
    have hzero : pre''.length = 0 := by omega
    rw [List.length_eq_zero_iff.mp hzero]

theorem Image.nextNode (himage : Image base memory list (pre ++ tile :: post))
    (hfree : tile.used = false) (hsome : nextOf memory tile.start ≠ 0)
    (hend : blockEnd memory tile.start = nextOf memory tile.start) :
    ∃ x post', post = x :: post' ∧ x.used = false ∧ x.start = nextOf memory tile.start := by
  have hlist := himage.lists false
  rw [starts_append, starts_cons, if_pos hfree, List.singleton_append] at hlist
  have hnext : toPtr (nextOf memory tile.start) = (starts false post).head? :=
    Chain.head?_eq hlist.behind
  rw [toPtr, if_neg hsome] at hnext
  obtain ⟨between, x, post', rfl, hused, hstart, hnone⟩ := starts_first hnext.symm
  rw [himage.ends tile (by simp)] at hend
  obtain ⟨-, -, hpost⟩ := Tiles.middle_iff.mp himage.tiling
  obtain ⟨hbetween, -, -⟩ := Tiles.middle_iff.mp hpost
  have hcount := hbetween.length_le (by decide)
  have hzero : between.length = 0 := by omega
  rw [List.length_eq_zero_iff.mp hzero]
  exact ⟨x, post', rfl, hused, hstart⟩

theorem usedTiles_free (hfree : tile.used = false) :
    usedTiles (pre ++ tile :: post) = usedTiles (pre ++ post) := by
  rw [usedTiles_append, usedTiles_cons_of_unused hfree, usedTiles_append]

theorem Image.merge (himage : Image base memory list (pre ++ tile :: post))
    (hfree : tile.used = false) (hends : EndsFree (pre ++ tile :: post)) :
    ∃ memory' tiles, finshBlockMerge (list false) tile.start memory = some memory' ∧
      Image base memory' list tiles ∧ EndsFree tiles ∧
      usedTiles tiles = usedTiles (pre ++ tile :: post) := by
  have hle := himage.base_le
  have hself := himage.ends tile (by simp)
  have htail : ListAt memory (nextOf memory tile.start) (starts false post) := by
    have hlist := himage.lists false
    rw [starts_append, starts_cons, if_pos hfree, List.singleton_append] at hlist
    exact hlist.behind
  obtain ⟨hpre, hfit, hpost⟩ := Tiles.middle_iff.mp himage.tiling
  have hpostLe := hpost.le
  obtain ⟨prev, hprev, hback⟩ := himage.prevNode hfree
  rw [finshBlockMerge, hprev, Option.map_some]
  -- what the neighbours behind the block look like in memory
  have hforth : nextOf memory tile.start ≠ 0 → blockEnd memory tile.start = nextOf memory tile.start →
      ∃ x post', post = x :: post' ∧ x.used = false ∧ x.start = nextOf memory tile.start ∧
        tile.stop + 8 ≤ x.stop ∧ Tiles 8 x.stop post' (base + finshHeapMax) ∧
        ListAt memory (nextOf memory x.start) (starts false post') := by
    intro hsome hend
    obtain ⟨x, post', rfl, hused, hstart⟩ := himage.nextNode hfree hsome hend
    obtain ⟨hbegin, hlen, hrest⟩ := hpost
    rw [starts_cons, if_pos hused, List.singleton_append] at htail
    exact ⟨x, post', rfl, hused, hstart, by omega, hrest, (ListAt.eq_cons htail).2⟩
  unfold mergeNodes
  split
  next hat =>
    obtain ⟨pre', x, rfl, hused, rfl⟩ := hback hat.1 hat.2
    rw [List.append_assoc, List.singleton_append] at himage hends
    have hx := himage.ends x (by simp)
    obtain ⟨hpre', hxfit, hxpost⟩ := Tiles.middle_iff.mp himage.tiling
    have hxstart : x.stop = tile.start := hxpost.1.symm
    split
    next hforward =>
      obtain ⟨y, post', rfl, hyused, hystart, hyfit, hrest, hrestList⟩ :=
        hforth hforward.1 hforward.2
      have hy := himage.ends y (by simp)
      have hybegin : y.start = tile.stop := hpost.1
      have hrestLe := hrest.le
      have hlength : add32 (lengthOf memory x.start)
          (lengthOf memory tile.start + lengthOf memory (nextOf memory tile.start) + 2 * 8) =
            y.stop - x.start - 8 := by
        unfold blockEnd at hx hself hy
        rw [← hystart, add32, Nat.mod_eq_of_lt (by omega)]
        omega
      have hrow : Image base memory list (pre' ++ x :: ([tile, y] ++ post')) := himage
      have hfused := hrow.fuse hused
        (by simp [hfree, hyused]) ⟨hxstart.symm, by omega, hybegin, by omega, rfl⟩ hrest
        hrestList nextOf_lt
      refine ⟨_, pre' ++ ⟨x.start, y.stop, false⟩ :: post', rfl, ?_, ?_, ?_⟩
      · rw [hlength]
        dsimp only
        rw [← hystart, nextOf_setLength (himage.apart (by simp) (by simp))]
        exact hfused
      · rw [show pre' ++ x :: tile :: y :: post' = (pre' ++ [x, tile]) ++ y :: post' by simp] at hends
        exact hends.replace rfl
      · rw [usedTiles_free rfl, List.append_assoc, List.singleton_append, usedTiles_append,
          usedTiles_append, usedTiles_cons_of_unused hused, usedTiles_cons_of_unused hfree,
          usedTiles_cons_of_unused hyused]
    · have hlength : add32 (lengthOf memory x.start) (lengthOf memory tile.start + 8) =
          tile.stop - x.start - 8 := by
        unfold blockEnd at hx hself
        rw [add32, Nat.mod_eq_of_lt (by omega)]
        omega
      have hrow : Image base memory list (pre' ++ x :: ([tile] ++ post)) := himage
      have hfused := hrow.fuse hused (by simp [hfree])
        ⟨hxstart.symm, by omega, rfl⟩ hpost htail nextOf_lt
      refine ⟨_, pre' ++ ⟨x.start, tile.stop, false⟩ :: post, rfl, ?_, ?_, ?_⟩
      · rw [hlength]
        dsimp only
        rw [nextOf_setLength (himage.apart (by simp) (by simp))]
        exact hfused
      · rw [show pre' ++ x :: tile :: post = (pre' ++ [x]) ++ tile :: post by simp] at hends
        exact hends.replace rfl
      · rw [usedTiles_free rfl, List.append_assoc, List.singleton_append, usedTiles_append,
          usedTiles_append, usedTiles_cons_of_unused hused, usedTiles_cons_of_unused hfree]
  · split
    next hforward =>
      obtain ⟨y, post', rfl, hyused, hystart, hyfit, hrest, hrestList⟩ :=
        hforth hforward.1 hforward.2
      have hy := himage.ends y (by simp)
      have hybegin : y.start = tile.stop := hpost.1
      have hrestLe := hrest.le
      have hlength : add32 (lengthOf memory tile.start)
          (lengthOf memory (nextOf memory tile.start) + 8) = y.stop - tile.start - 8 := by
        unfold blockEnd at hself hy
        rw [← hystart, add32, Nat.mod_eq_of_lt (by omega)]
        omega
      have hrow : Image base memory list (pre ++ tile :: ([y] ++ post')) := himage
      have hfused := hrow.fuse hfree (by simp [hyused])
        ⟨hybegin, by omega, rfl⟩ hrest hrestList nextOf_lt
      refine ⟨_, pre ++ ⟨tile.start, y.stop, false⟩ :: post', rfl, ?_, ?_, ?_⟩
      · rw [hlength]
        dsimp only
        rw [← hystart, nextOf_setLength (himage.apart (by simp) (by simp))]
        exact hfused
      · rw [show pre ++ tile :: y :: post' = (pre ++ [tile]) ++ y :: post' by simp] at hends
        exact hends.replace rfl
      · rw [usedTiles_free rfl, usedTiles_free hfree, usedTiles_free hyused]
    · exact ⟨memory, _, rfl, himage, hends, rfl⟩

end Merges

end RtThread.Finsh
