import RtThread.Lib.Tiling
import RtThread.Memheap.Items

namespace RtThread.Memheap

open Function RtThread.Lib

def itemMagic (used : Bool) : Nat := if used then memheapMagic ||| memheapUsed else memheapMagic

structure BlockImage (heap tail : Nat) (items : Items) (tiles : List Tile) : Prop where
  ring : LinkedRing (items .next) (items .prev) (tiles.map Tile.start ++ [tail])
  magic : ∀ t ∈ tiles, items .magic t.start = itemMagic t.used
  tailMagic : items .magic tail = itemMagic true
  poolPtr : ∀ t ∈ tiles, items .poolPtr t.start = heap

namespace BlockImage

variable {heap tail len a : Nat} {items items' : Items} {tiles pre post : List Tile} {x y : Tile}

theorem congr (himage : BlockImage heap tail items tiles)
    (hsame : ∀ field, Items.Blocks field → ∀ a ∈ tiles.map Tile.start ++ [tail],
      items' field a = items field a) : BlockImage heap tail items' tiles := by
  have hstart : ∀ t ∈ tiles, t.start ∈ tiles.map Tile.start ++ [tail] :=
    fun t ht => List.mem_append_left _ (List.mem_map_of_mem ht)
  refine ⟨himage.ring.congr (hsame .next (by decide)) (hsame .prev (by decide)), fun t ht => ?_, ?_,
    fun t ht => ?_⟩
  · rw [hsame .magic (by decide) _ (hstart t ht), himage.magic t ht]
  · rw [hsame .magic (by decide) _ (by simp), himage.tailMagic]
  · rw [hsame .poolPtr (by decide) _ (hstart t ht), himage.poolPtr t ht]

theorem map_middle (pre post : List Tile) (x : Tile) (tail : Nat) :
    (pre ++ x :: post).map Tile.start ++ [tail] =
      pre.map Tile.start ++ x.start :: (post.map Tile.start ++ [tail]) := by simp

theorem map_middle_cons (pre post : List Tile) (x y : Tile) (tail : Nat) :
    (pre ++ x :: y :: post).map Tile.start ++ [tail] =
      pre.map Tile.start ++ x.start :: y.start :: (post.map Tile.start ++ [tail]) := by simp

theorem start_ne (himage : BlockImage heap tail items (pre ++ x :: post)) {t : Tile}
    (ht : t ∈ pre ++ post) : t.start ≠ x.start := by
  have hnodup := himage.ring.1
  rw [map_middle] at hnodup
  intro heq
  have hmem : x.start ∈ pre.map Tile.start ++ (post.map Tile.start ++ [tail]) := by
    rw [← heq, ← List.append_assoc, ← List.map_append]
    exact List.mem_append_left _ (List.mem_map_of_mem ht)
  exact (List.nodup_middle.mp hnodup |> List.nodup_cons.mp).1 hmem

theorem start_ne_tail (himage : BlockImage heap tail items tiles) {t : Tile} (ht : t ∈ tiles) :
    t.start ≠ tail := by
  intro heq
  exact (List.nodup_append.mp himage.ring.1).2.2 t.start (List.mem_map_of_mem ht) tail
    List.mem_cons_self heq

theorem next_eq (himage : BlockImage heap tail items (pre ++ x :: post))
    (htiling : Tiles len a (pre ++ x :: post) tail) : items .next x.start = x.stop := by
  have hpost := (Tiles.middle_iff.mp htiling).2.2
  have hring := himage.ring
  rw [map_middle] at hring
  obtain ⟨n, rest, hrest⟩ := LinkedRing.exists_rest (pre.map Tile.start) x.start
    (post.map Tile.start ++ [tail])
  rw [((LinkedRing.iff_opened hrest).mp hring).2.next_eq]
  cases post with
  | nil =>
    cases hrest
    exact hpost.symm
  | cons y post =>
    cases hrest
    exact hpost.1

theorem prev_eq (himage : BlockImage heap tail items (pre ++ x :: y :: post)) :
    items .prev y.start = x.start := by
  have hring := himage.ring
  rw [map_middle_cons] at hring
  obtain ⟨n, rest, hrest⟩ := LinkedRing.exists_rest (pre.map Tile.start) x.start
    (y.start :: (post.map Tile.start ++ [tail]))
  cases hrest
  exact ((LinkedRing.iff_opened rfl).mp hring).2.prev_eq

theorem prev_first (himage : BlockImage heap tail items (y :: post)) :
    items .prev y.start = tail := by
  have hring : LinkedRing (items .next) (items .prev)
      ((y.start :: post.map Tile.start) ++ tail :: []) := himage.ring
  have hrest : [y.start] = [] ++ ((y.start :: post.map Tile.start) ++ [tail]).head?.toList := rfl
  exact ((LinkedRing.iff_opened hrest).mp hring).2.prev_eq

theorem split (himage : BlockImage heap tail items (pre ++ x :: post)) {mid : Nat}
    (hfresh : mid ∉ (pre ++ x :: post).map Tile.start ++ [tail]) :
    BlockImage heap tail (items.makeItem heap x.start mid)
      (pre ++ ⟨x.start, mid, x.used⟩ :: ⟨mid, x.stop, false⟩ :: post) := by
  have hall : ∀ t ∈ pre ++ x :: post, t.start ≠ mid := by
    intro t ht heq
    exact hfresh (List.mem_append_left _ (heq ▸ List.mem_map_of_mem ht))
  have hne : x.start ≠ mid := hall x (by simp)
  have htail : tail ≠ mid := fun heq => hfresh (by simp [heq])
  have hold : ∀ t ∈ pre ++ ⟨x.start, mid, x.used⟩ :: ⟨mid, x.stop, false⟩ :: post,
      t = ⟨mid, x.stop, false⟩ ∨ ∃ t' ∈ pre ++ x :: post, t'.start = t.start ∧ t'.used = t.used := by
    intro t ht
    rcases List.mem_append.mp ht with h | h
    · exact .inr ⟨t, List.mem_append_left _ h, rfl, rfl⟩
    · rcases List.mem_cons.mp h with rfl | h
      · exact .inr ⟨x, by simp, rfl, rfl⟩
      · rcases List.mem_cons.mp h with rfl | h
        · exact .inl rfl
        · exact .inr ⟨t, by simp [h], rfl, rfl⟩
  refine ⟨?_, fun t ht => ?_, ?_, fun t ht => ?_⟩
  · have hring := himage.ring
    rw [map_middle] at hring hfresh
    rw [Items.makeItem_next hne, Items.makeItem_prev hne, map_middle_cons]
    exact hring.insert hfresh
  · rw [Items.makeItem_magic]
    rcases hold t ht with rfl | ⟨t', ht', hstart, hused⟩
    · exact update_self ..
    · rw [← hstart, ← hused, update_of_ne (hall t' ht'), himage.magic t' ht']
  · rw [Items.makeItem_magic, update_of_ne htail, himage.tailMagic]
  · rw [Items.makeItem_poolPtr]
    rcases hold t ht with rfl | ⟨t', ht', hstart, -⟩
    · exact update_self ..
    · rw [← hstart, update_of_ne (hall t' ht'), himage.poolPtr t' ht']

theorem merge (himage : BlockImage heap tail items (pre ++ x :: y :: post))
    (hnext : items' .next = update (items .next) x.start (items .next y.start))
    (hprev : items' .prev = update (items .prev) (items .next y.start) x.start)
    (hmagic : items' .magic = items .magic) (hpool : items' .poolPtr = items .poolPtr) :
    BlockImage heap tail items' (pre ++ ⟨x.start, y.stop, x.used⟩ :: post) := by
  have hold : ∀ t ∈ pre ++ ⟨x.start, y.stop, x.used⟩ :: post,
      ∃ t' ∈ pre ++ x :: y :: post, t'.start = t.start ∧ t'.used = t.used := by
    intro t ht
    rcases List.mem_append.mp ht with h | h
    · exact ⟨t, List.mem_append_left _ h, rfl, rfl⟩
    · rcases List.mem_cons.mp h with rfl | h
      · exact ⟨x, by simp, rfl, rfl⟩
      · exact ⟨t, by simp [h], rfl, rfl⟩
  refine ⟨?_, fun t ht => ?_, ?_, fun t ht => ?_⟩
  · have hring := himage.ring
    rw [map_middle_cons] at hring
    have hremoved := hring.remove
    rw [himage.prev_eq] at hremoved
    rw [hnext, hprev, map_middle]
    exact hremoved
  · obtain ⟨t', ht', hstart, hused⟩ := hold t ht
    rw [hmagic, ← hstart, ← hused, himage.magic t' ht']
  · rw [hmagic, himage.tailMagic]
  · obtain ⟨t', ht', hstart, -⟩ := hold t ht
    rw [hpool, ← hstart, himage.poolPtr t' ht']

theorem mark (himage : BlockImage heap tail items (pre ++ x :: post)) (used : Bool) :
    BlockImage heap tail (items.set .magic x.start (itemMagic used))
      (pre ++ ⟨x.start, x.stop, used⟩ :: post) := by
  have hold : ∀ t ∈ pre ++ ⟨x.start, x.stop, used⟩ :: post,
      t = ⟨x.start, x.stop, used⟩ ∨ t ∈ pre ++ post := by
    intro t ht
    rcases List.mem_append.mp ht with h | h
    · exact .inr (List.mem_append_left _ h)
    · rcases List.mem_cons.mp h with rfl | h
      · exact .inl rfl
      · exact .inr (List.mem_append_right _ h)
  have hmem : ∀ t ∈ pre ++ post, t ∈ pre ++ x :: post := fun t ht => by
    rcases List.mem_append.mp ht with h | h
    · exact List.mem_append_left _ h
    · exact List.mem_append_right _ (List.mem_cons_of_mem x h)
  refine ⟨?_, fun t ht => ?_, ?_, fun t ht => ?_⟩
  · have hring := himage.ring
    rw [Items.set_other (by decide), Items.set_other (by decide), map_middle]
    rwa [map_middle] at hring
  · rw [Items.set_same]
    rcases hold t ht with rfl | h
    · exact update_self ..
    · rw [update_of_ne (himage.start_ne h), himage.magic t (hmem t h)]
  · have hne := himage.start_ne_tail (t := x) (by simp)
    rw [Items.set_same, update_of_ne hne.symm, himage.tailMagic]
  · rw [Items.set_other (by decide)]
    rcases hold t ht with rfl | h
    · exact himage.poolPtr x (by simp)
    · exact himage.poolPtr t (hmem t h)

end BlockImage

end RtThread.Memheap
