import Mathlib.Algebra.Order.Ring.Nat
import Mathlib.Data.List.Chain

namespace RtThread.Lib

/-! Intervals that follow one another without gaps, each of them used or not. -/

structure Tile where
  start : Nat
  stop : Nat
  used : Bool
  deriving DecidableEq

/-- `tiles` covers the numbers from `a` to `e`; no tile is shorter than `len`. -/
def Tiles (len : Nat) : Nat → List Tile → Nat → Prop
  | a, [], e => a = e
  | a, tile :: rest, e => tile.start = a ∧ a + len ≤ tile.stop ∧ Tiles len tile.stop rest e

def usedTiles (tiles : List Tile) : List Tile := tiles.filter (·.used)

def usedBytes (tiles : List Tile) : Nat :=
  ((usedTiles tiles).map fun tile => tile.stop - tile.start).sum

def Coalesced (tiles : List Tile) : Prop :=
  tiles.IsChain fun left right => left.used = true ∨ right.used = true

def UnusedFrom (bound : Nat) (tiles : List Tile) : Prop :=
  ∀ tile ∈ tiles, tile.used = false → bound ≤ tile.start

namespace Tiles

variable {len a e mid : Nat} {tile other : Tile} {tiles pre post : List Tile}

theorem append_iff : Tiles len a (pre ++ post) e ↔
    ∃ mid, Tiles len a pre mid ∧ Tiles len mid post e := by
  induction pre generalizing a with
  | nil => simp [Tiles]
  | cons tile rest ih =>
    simp only [List.cons_append, Tiles, ih]
    constructor
    · intro h
      obtain ⟨hstart, hlen, mid, hrest, hpost⟩ := h
      exact ⟨mid, ⟨hstart, hlen, hrest⟩, hpost⟩
    · intro h
      obtain ⟨mid, ⟨hstart, hlen, hrest⟩, hpost⟩ := h
      exact ⟨hstart, hlen, mid, hrest, hpost⟩

theorem middle_iff : Tiles len a (pre ++ tile :: post) e ↔
    Tiles len a pre tile.start ∧ tile.start + len ≤ tile.stop ∧
      Tiles len tile.stop post e := by
  rw [append_iff]
  constructor
  · intro h
    obtain ⟨mid, hpre, rfl, hlen, hpost⟩ := h
    exact ⟨hpre, hlen, hpost⟩
  · intro h
    exact ⟨tile.start, h.1, rfl, h.2.1, h.2.2⟩

section

variable (htiles : Tiles len a tiles e)
include htiles

theorem le : a ≤ e := by
  induction tiles generalizing a with
  | nil => exact Nat.le_of_eq htiles
  | cons tile rest ih =>
    have hrest := ih htiles.2.2
    have hlen := htiles.2.1
    omega

theorem length_le (hpos : 0 < len) : a + tiles.length ≤ e := by
  induction tiles generalizing a with
  | nil => exact Nat.le_of_eq htiles
  | cons tile rest ih =>
    have hrest := ih htiles.2.2
    have hlen := htiles.2.1
    rw [List.length_cons]
    omega

theorem bounds (hmem : tile ∈ tiles) :
    a ≤ tile.start ∧ tile.start + len ≤ tile.stop ∧ tile.stop ≤ e := by
  obtain ⟨pre, post, rfl⟩ := List.append_of_mem hmem
  obtain ⟨hpre, hlen, hpost⟩ := middle_iff.mp htiles
  exact ⟨hpre.le, hlen, hpost.le⟩

theorem pairwise : tiles.Pairwise fun left right => left.stop ≤ right.start := by
  induction tiles generalizing a with
  | nil => exact .nil
  | cons tile rest ih =>
    refine .cons (fun other hother => ?_) (ih htiles.2.2)
    exact (htiles.2.2.bounds hother).1

theorem starts_pairwise (hpos : 0 < len) : (tiles.map Tile.start ++ [e]).Pairwise (· < ·) := by
  induction tiles generalizing a with
  | nil => exact List.pairwise_singleton ..
  | cons tile rest ih =>
    obtain ⟨rfl, hlen, hrest⟩ := htiles
    rw [List.map_cons, List.cons_append]
    refine List.pairwise_cons.mpr ⟨fun p hp => ?_, ih hrest⟩
    rw [List.mem_append, List.mem_map, List.mem_singleton] at hp
    rcases hp with ⟨t, ht, rfl⟩ | rfl
    · have hbounds := hrest.bounds ht
      omega
    · have hle := hrest.le
      omega

theorem starts_head? : (tiles.map Tile.start ++ [e]).head? = some a := by
  cases tiles with
  | nil => exact congrArg some htiles.symm
  | cons tile rest => exact congrArg some htiles.1

end

theorem start_ne_middle (htiles : Tiles len a (pre ++ tile :: post) e) (hpos : 0 < len)
    (hother : other ∈ pre ++ post) : other.start ≠ tile.start := by
  obtain ⟨hpre, hlen, hpost⟩ := middle_iff.mp htiles
  rcases List.mem_append.mp hother with hin | hin
  · have hbounds := hpre.bounds hin
    omega
  · have hbounds := hpost.bounds hin
    omega

theorem eq_of_start_eq (htiles : Tiles len a tiles e) (hpos : 0 < len)
    (hmem : tile ∈ tiles) (hother : other ∈ tiles) (heq : tile.start = other.start) :
    tile = other := by
  obtain ⟨pre, post, rfl⟩ := List.append_of_mem hmem
  obtain ⟨hpre, hlen, hpost⟩ := middle_iff.mp htiles
  rcases List.mem_append.mp hother with hin | hin
  · have hbounds := hpre.bounds hin
    omega
  · rcases List.mem_cons.mp hin with rfl | hin
    · rfl
    · have hbounds := hpost.bounds hin
      omega

theorem eq_or_apart (htiles : Tiles len a tiles e) (hmem : tile ∈ tiles)
    (hother : other ∈ tiles) :
    tile = other ∨ tile.stop ≤ other.start ∨ other.stop ≤ tile.start := by
  obtain ⟨pre, post, rfl⟩ := List.append_of_mem hmem
  obtain ⟨hpre, hlen, hpost⟩ := middle_iff.mp htiles
  rcases List.mem_append.mp hother with hin | hin
  · exact .inr (.inr (hpre.bounds hin).2.2)
  · rcases List.mem_cons.mp hin with rfl | hin
    · exact .inl rfl
    · exact .inr (.inl (hpost.bounds hin).1)

/-- Where a tile ends and whether it is used may be read from its start; then there is only
one tiling. -/
theorem unique {tiles' : List Tile} (htiles : Tiles len a tiles e)
    (htiles' : Tiles len a tiles' e) (hpos : 0 < len) (stop : Nat → Nat) (used : Nat → Bool)
    (hread : ∀ t ∈ tiles, stop t.start = t.stop ∧ used t.start = t.used)
    (hread' : ∀ t ∈ tiles', stop t.start = t.stop ∧ used t.start = t.used) :
    tiles = tiles' := by
  induction tiles generalizing a tiles' with
  | nil =>
    cases tiles' with
    | nil => rfl
    | cons tile rest =>
      have hend : a = e := htiles
      obtain ⟨-, hlen, hrest⟩ := htiles'
      have hle := hrest.le
      omega
  | cons tile rest ih =>
    cases tiles' with
    | nil =>
      have hend : a = e := htiles'
      obtain ⟨-, hlen, hrest⟩ := htiles
      have hle := hrest.le
      omega
    | cons tile' rest' =>
      obtain ⟨hstart, -, hrest⟩ := htiles
      obtain ⟨hstart', -, hrest'⟩ := htiles'
      obtain ⟨hstop, hused⟩ := hread tile List.mem_cons_self
      obtain ⟨hstop', hused'⟩ := hread' tile' List.mem_cons_self
      have hsame : tile = tile' := by
        rw [hstart] at hstop hused
        rw [hstart'] at hstop' hused'
        calc tile = ⟨tile.start, tile.stop, tile.used⟩ := rfl
          _ = ⟨tile'.start, tile'.stop, tile'.used⟩ := by
            rw [hstart, hstart', ← hstop, ← hstop', ← hused, ← hused']
          _ = tile' := rfl
      subst hsame
      rw [ih hrest hrest' (fun t ht => hread t (List.mem_cons_of_mem _ ht))
        (fun t ht => hread' t (List.mem_cons_of_mem _ ht))]

end Tiles

theorem mem_middle_of_mem {α : Type u} {a b : α} {pre post : List α} (hmem : a ∈ pre ++ post) :
    a ∈ pre ++ b :: post := by
  rcases List.mem_append.mp hmem with h | h
  · exact List.mem_append_left _ h
  · exact List.mem_append_right _ (List.mem_cons_of_mem b h)

section UsedBytes

variable {len a e : Nat} {tile : Tile} {tiles pre post : List Tile}

theorem mem_usedTiles : tile ∈ usedTiles tiles ↔ tile ∈ tiles ∧ tile.used = true := by
  simp [usedTiles]

theorem usedTiles_append : usedTiles (pre ++ post) = usedTiles pre ++ usedTiles post :=
  List.filter_append ..

theorem usedTiles_cons_of_unused (hunused : tile.used = false) :
    usedTiles (tile :: tiles) = usedTiles tiles := by
  simp [usedTiles, hunused]

theorem usedBytes_congr (hsame : usedTiles pre = usedTiles post) :
    usedBytes pre = usedBytes post := by
  rw [usedBytes, usedBytes, hsame]

theorem usedBytes_cons : usedBytes (tile :: tiles) =
    (if tile.used then tile.stop - tile.start else 0) + usedBytes tiles := by
  simp only [usedBytes, usedTiles, List.filter_cons]
  split <;> simp

theorem usedBytes_append : usedBytes (pre ++ post) = usedBytes pre + usedBytes post := by
  simp [usedBytes, usedTiles_append]

theorem usedBytes_le (htiles : Tiles len a tiles e) : usedBytes tiles ≤ e - a := by
  induction tiles generalizing a with
  | nil => exact Nat.zero_le _
  | cons tile rest ih =>
    obtain ⟨rfl, hlen, hrest⟩ := htiles
    have hle := hrest.le
    have hused := ih hrest
    rw [usedBytes_cons]
    split <;> omega

end UsedBytes

section UnusedFrom

variable {len bound a e : Nat} {tile : Tile} {tiles pre post : List Tile}

theorem unusedFrom_append :
    UnusedFrom bound (pre ++ post) ↔ UnusedFrom bound pre ∧ UnusedFrom bound post := by
  simp only [UnusedFrom, List.mem_append, or_imp, forall_and]

theorem unusedFrom_cons : UnusedFrom bound (tile :: tiles) ↔
    (tile.used = false → bound ≤ tile.start) ∧ UnusedFrom bound tiles := by
  simp only [UnusedFrom, List.mem_cons, forall_eq_or_imp]

theorem UnusedFrom.mono {lower : Nat} (hfrom : UnusedFrom bound tiles) (hle : lower ≤ bound) :
    UnusedFrom lower tiles := fun tile hmem hunused => Nat.le_trans hle (hfrom tile hmem hunused)

theorem Tiles.unusedFrom (htiles : Tiles len a tiles e) : UnusedFrom a tiles :=
  fun _ hmem _ => (htiles.bounds hmem).1

theorem Tiles.unusedFrom_of_le (htiles : Tiles len a tiles e) (hpos : 0 < len)
    (hfrom : UnusedFrom bound tiles) (hle : e ≤ bound) (other : Nat) :
    UnusedFrom other tiles := by
  intro tile hmem hunused
  have hbounds := htiles.bounds hmem
  have hstart := hfrom tile hmem hunused
  omega

end UnusedFrom

theorem coalesced_middle {pre post : List Tile} {tile : Tile} :
    Coalesced (pre ++ tile :: post) ↔ Coalesced pre ∧ Coalesced post ∧
      (∀ left ∈ pre.getLast?, left.used = true ∨ tile.used = true) ∧
      ∀ right ∈ post.head?, tile.used = true ∨ right.used = true := by
  simp only [Coalesced, List.isChain_append, List.isChain_cons, List.head?_cons,
    Option.mem_some_iff, forall_eq']
  constructor
  · intro h
    exact ⟨h.1, h.2.1.2, h.2.2, h.2.1.1⟩
  · intro h
    exact ⟨h.1, ⟨h.2.2.2, h.2.1⟩, h.2.2.1⟩

end RtThread.Lib
