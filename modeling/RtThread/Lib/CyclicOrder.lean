import Mathlib.Data.List.Sublists

namespace RtThread.Lib

/-! Pieces of a buffer in the order in which they were cut off: upwards, and at most once
from its beginning again. -/

structure Piece where
  start : Nat
  stop : Nat
  start_le : start ≤ stop

def Piece.Before (first second : Piece) : Prop := first.stop ≤ second.start

def Piece.Apart (first second : Piece) : Prop :=
  ∀ x, first.start ≤ x ∧ x < first.stop → ¬ (second.start ≤ x ∧ x < second.stop)

theorem Piece.Before.apart {first second : Piece} (hbefore : first.Before second) :
    first.Apart second := by
  intro x hx hx'
  unfold Before at hbefore
  omega

theorem Piece.Apart.symm {first second : Piece} (hapart : first.Apart second) :
    second.Apart first := fun x hx hx' => hapart x hx' hx

/-- The pieces of `upper` are older than those of `lower`. -/
structure CyclicOrder (start stop : Nat) (upper lower : List Piece) : Prop where
  inside : ∀ piece ∈ upper ++ lower, start ≤ piece.start ∧ piece.stop ≤ stop
  upperOrder : upper.Pairwise Piece.Before
  lowerOrder : lower.Pairwise Piece.Before
  below : ∀ low ∈ lower, ∀ high ∈ upper, low.Before high ∧ low.start < high.start

namespace CyclicOrder

variable {start stop : Nat} {upper lower upper' lower' : List Piece} {piece : Piece}

theorem nil : CyclicOrder start stop [] [] :=
  ⟨by simp, .nil, .nil, by simp⟩

theorem pairwise_apart (horder : CyclicOrder start stop upper lower) :
    (upper ++ lower).Pairwise Piece.Apart := by
  rw [List.pairwise_append]
  exact ⟨horder.upperOrder.imp Piece.Before.apart, horder.lowerOrder.imp Piece.Before.apart,
    fun high hhigh low hlow => (horder.below low hlow high hhigh).1.apart.symm⟩

theorem sublist (horder : CyclicOrder start stop upper lower) (hupper : upper'.Sublist upper)
    (hlower : lower'.Sublist lower) : CyclicOrder start stop upper' lower' where
  inside := fun piece hmem => horder.inside piece ((hupper.append hlower).subset hmem)
  upperOrder := horder.upperOrder.sublist hupper
  lowerOrder := horder.lowerOrder.sublist hlower
  below := fun low hlow high hhigh =>
    horder.below low (hlower.subset hlow) high (hupper.subset hhigh)

theorem restart (horder : CyclicOrder start stop [] lower) : CyclicOrder start stop lower [] :=
  ⟨by simpa using horder.inside, horder.lowerOrder, .nil, by simp⟩

theorem stop_le_of_before {first second : Piece} (hbefore : first.Before second) :
    first.stop ≤ second.stop := hbefore.trans second.start_le

theorem before_of_last {pieces : List Piece} {last : Piece}
    (hpairwise : (pieces ++ [last]).Pairwise Piece.Before) (hpiece : last.Before piece) :
    ∀ earlier ∈ pieces ++ [last], earlier.Before piece := by
  intro earlier hmem
  rw [List.mem_append, List.mem_singleton] at hmem
  rcases hmem with hmem | rfl
  · have hbefore := (List.pairwise_append.mp hpairwise).2.2 earlier hmem last (by simp)
    exact (stop_le_of_before hbefore).trans hpiece
  · exact hpiece

theorem before_of_first {pieces : List Piece} {first : Piece}
    (hpairwise : (first :: pieces).Pairwise Piece.Before) (hpiece : piece.Before first) :
    ∀ later ∈ first :: pieces, piece.Before later ∧ first.start ≤ later.start := by
  intro later hmem
  rw [List.mem_cons] at hmem
  rcases hmem with rfl | hmem
  · exact ⟨hpiece, Nat.le_refl _⟩
  · have hbefore : first.Before later := (List.pairwise_cons.mp hpairwise).1 later hmem
    have hstarts : first.start ≤ later.start := first.start_le.trans hbefore
    exact ⟨Nat.le_trans hpiece hstarts, hstarts⟩

theorem pairwise_concat {pieces : List Piece} (hpairwise : pieces.Pairwise Piece.Before)
    (hlast : ∀ earlier ∈ pieces, earlier.Before piece) :
    (pieces ++ [piece]).Pairwise Piece.Before := by
  rw [List.pairwise_append]
  refine ⟨hpairwise, List.pairwise_singleton _ _, fun earlier hmem last hlast' => ?_⟩
  rw [List.mem_singleton.mp hlast']
  exact hlast earlier hmem

theorem append_upper {last : Piece} (horder : CyclicOrder start stop (upper ++ [last]) [])
    (hafter : last.Before piece) (hstop : piece.stop ≤ stop) :
    CyclicOrder start stop (upper ++ [last] ++ [piece]) [] := by
  have hlast := horder.inside last (by simp)
  refine ⟨fun other hmem => ?_, pairwise_concat horder.upperOrder (before_of_last horder.upperOrder hafter),
    .nil, by simp⟩
  rw [List.append_nil, List.mem_append, List.mem_singleton] at hmem
  rcases hmem with hmem | rfl
  · exact horder.inside other (by simpa using hmem)
  · exact ⟨hlast.1.trans (last.start_le.trans hafter), hstop⟩

theorem wrap {first : Piece} (horder : CyclicOrder start stop (first :: upper) [])
    (hstart : piece.start = start) (hpos : piece.start < piece.stop)
    (hbefore : piece.Before first) :
    CyclicOrder start stop (first :: upper) [piece] := by
  have hfirst := horder.inside first (by simp)
  refine ⟨fun other hmem => ?_, horder.upperOrder, List.pairwise_singleton _ _,
    fun low hlow high hhigh => ?_⟩
  · rw [List.mem_append, List.mem_singleton] at hmem
    rcases hmem with hmem | rfl
    · exact horder.inside other (by simpa using hmem)
    · exact ⟨Nat.le_of_eq hstart.symm, Nat.le_trans hbefore (first.start_le.trans hfirst.2)⟩
  · rw [List.mem_singleton.mp hlow]
    obtain ⟨hall, hle⟩ := before_of_first horder.upperOrder hbefore high hhigh
    exact ⟨hall, Nat.lt_of_lt_of_le hpos hall⟩

theorem append_lower {first last : Piece}
    (horder : CyclicOrder start stop (first :: upper) (lower ++ [last]))
    (hafter : last.Before piece) (hbefore : piece.Before first)
    (hstrict : piece.start < first.start) :
    CyclicOrder start stop (first :: upper) (lower ++ [last] ++ [piece]) := by
  have hfirst := horder.inside first (by simp)
  have hlast := horder.inside last (by simp)
  refine ⟨fun other hmem => ?_, horder.upperOrder,
    pairwise_concat horder.lowerOrder (before_of_last horder.lowerOrder hafter),
    fun low hlow high hhigh => ?_⟩
  · rw [← List.append_assoc, List.mem_append, List.mem_singleton] at hmem
    rcases hmem with hmem | rfl
    · exact horder.inside other hmem
    · exact ⟨hlast.1.trans (last.start_le.trans hafter),
        Nat.le_trans hbefore (first.start_le.trans hfirst.2)⟩
  · rw [List.mem_append, List.mem_singleton] at hlow
    rcases hlow with hlow | rfl
    · exact horder.below low hlow high hhigh
    · obtain ⟨hall, hle⟩ := before_of_first horder.upperOrder hbefore high hhigh
      exact ⟨hall, Nat.lt_of_lt_of_le hstrict hle⟩

end CyclicOrder

end RtThread.Lib
