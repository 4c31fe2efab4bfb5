import Mathlib.Algebra.Order.Ring.Nat
import Mathlib.Data.List.Basic

namespace RtThread.Lib

/-! Single-bit masks over fixed-width words. -/

theorem getLsbD_mask {w bit : Nat} (hbit : bit < w) (i : Nat) :
    (1#w <<< bit).getLsbD i = decide (i = bit) := by
  rw [BitVec.getLsbD_shiftLeft, BitVec.getLsbD_one, Bool.eq_iff_iff]
  simp only [Bool.and_eq_true, decide_eq_true_eq, Bool.not_eq_true', decide_eq_false_iff_not]
  omega

section Word

variable {w bit : Nat} (word : BitVec w)

theorem getLsbD_or_mask (hbit : bit < w) (i : Nat) :
    (word ||| 1#w <<< bit).getLsbD i = (word.getLsbD i || decide (i = bit)) := by
  rw [BitVec.getLsbD_or, getLsbD_mask hbit]

theorem getLsbD_and_not_mask (hbit : bit < w) (i : Nat) :
    (word &&& ~~~(1#w <<< bit)).getLsbD i = (word.getLsbD i && decide (i ≠ bit)) := by
  rw [BitVec.getLsbD_and, BitVec.getLsbD_not, getLsbD_mask hbit]
  by_cases hi : i < w
  · simp [hi]
  · simp [BitVec.getLsbD_of_ge word i (by omega)]

theorem ne_zero_iff_exists_bit : word ≠ 0#w ↔ ∃ i, word.getLsbD i = true := by
  constructor
  · intro hne
    by_contra hnone
    apply hne
    apply BitVec.eq_of_getLsbD_eq
    intro i _
    simpa using fun h => hnone ⟨i, h⟩
  · rintro ⟨i, hi⟩ rfl
    simp at hi

theorem or_mask_ne_zero (hbit : bit < w) : word ||| 1#w <<< bit ≠ 0#w := by
  rw [ne_zero_iff_exists_bit]
  exact ⟨bit, by simp [getLsbD_or_mask word hbit]⟩

end Word

end RtThread.Lib
