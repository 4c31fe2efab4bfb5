import Mathlib.Data.Nat.Bitwise

namespace RtThread

/-! Unsigned arithmetic of 32 bits -/

def add32 (a b : Nat) : Nat := (a + b) % 2 ^ 32

def sub32 (a b : Nat) : Nat := (a + (2 ^ 32 - b)) % 2 ^ 32

theorem sub32_eq {a b : Nat} (hle : b ≤ a) (hlt : a < 2 ^ 32) : sub32 a b = a - b := by
  have hsum : a + (2 ^ 32 - b) = (a - b) + 2 ^ 32 := by omega
  rw [sub32, hsum, Nat.add_mod_right, Nat.mod_eq_of_lt (by omega)]

/-! Rounding to a multiple of a power of two, in 32-bit arithmetic. -/

def rtAlignDown (size align : Nat) : Nat := size &&& (2 ^ 32 - 1 - (align - 1))

def rtAlign (size align : Nat) : Nat := rtAlignDown ((size + (align - 1)) % 2 ^ 32) align

theorem rtAlignDown_two_pow {size k : Nat} (hsize : size < 2 ^ 32) (hk : k ≤ 32) :
    rtAlignDown size (2 ^ k) = size / 2 ^ k * 2 ^ k := by
  have hpos := Nat.two_pow_pos k
  have hmask : 2 ^ 32 - 1 - (2 ^ k - 1) = (2 ^ (32 - k) - 1) * 2 ^ k := by
    rw [Nat.sub_one_mul, ← Nat.pow_add, Nat.sub_add_cancel hk]
    omega
  apply Nat.eq_of_testBit_eq
  intro i
  rw [rtAlignDown, hmask, Nat.testBit_and, Nat.testBit_mul_two_pow, Nat.testBit_mul_two_pow,
    Nat.testBit_two_pow_sub_one, Nat.testBit_div_two_pow]
  by_cases hlow : k ≤ i
  · have hback : i - k + k = i := Nat.sub_add_cancel hlow
    by_cases hhigh : i < 32
    · have hin : i - k < 32 - k := by omega
      simp [hlow, hin, hback]
    · have hclear : size.testBit i = false :=
        Nat.testBit_lt_two_pow (Nat.lt_of_lt_of_le hsize (Nat.pow_le_pow_right (by decide)
          (Nat.le_of_not_lt hhigh)))
      simp [hback, hclear]
  · simp [hlow]

theorem rtAlign_mod (size : Nat) {k : Nat} (hk : k ≤ 32) : rtAlign size (2 ^ k) % 2 ^ k = 0 := by
  rw [rtAlign, rtAlignDown_two_pow (Nat.mod_lt _ (by decide)) hk]
  exact Nat.mul_mod_left ..

theorem add_two_pow_le {bound k : Nat} (hbound : bound % 2 ^ k = 0) (hlt : bound < 2 ^ 32)
    (hk : k ≤ 32) : bound + 2 ^ k ≤ 2 ^ 32 := by
  obtain ⟨units, rfl⟩ := Nat.dvd_of_mod_eq_zero hbound
  have htop : 2 ^ 32 = 2 ^ k * 2 ^ (32 - k) := by
    rw [← Nat.pow_add, Nat.add_sub_of_le hk]
  rw [htop] at hlt ⊢
  have hunits : units < 2 ^ (32 - k) := Nat.lt_of_mul_lt_mul_left hlt
  calc 2 ^ k * units + 2 ^ k = 2 ^ k * (units + 1) := by rw [Nat.mul_succ]
    _ ≤ 2 ^ k * 2 ^ (32 - k) := Nat.mul_le_mul_left _ hunits

section Fits

variable {size bound k : Nat}

theorem le_rtAlign (hk : k ≤ 32) (hfit : size + 2 ^ k ≤ 2 ^ 32) : size ≤ rtAlign size (2 ^ k) := by
  have hpos := Nat.two_pow_pos k
  rw [rtAlign, Nat.mod_eq_of_lt (by omega), rtAlignDown_two_pow (by omega) hk]
  have hdiv := Nat.lt_div_mul_add (a := size + (2 ^ k - 1)) hpos
  omega

theorem rtAlign_le (hk : k ≤ 32) (hle : size ≤ bound) (hbound : bound % 2 ^ k = 0)
    (hfit : bound + 2 ^ k ≤ 2 ^ 32) : rtAlign size (2 ^ k) ≤ bound := by
  have hpos := Nat.two_pow_pos k
  obtain ⟨units, rfl⟩ := Nat.dvd_of_mod_eq_zero hbound
  rw [rtAlign, Nat.mod_eq_of_lt (by omega), rtAlignDown_two_pow (by omega) hk, Nat.mul_comm]
  apply Nat.mul_le_mul_left
  have hlt : size + (2 ^ k - 1) < (units + 1) * 2 ^ k := by
    rw [Nat.add_mul, Nat.mul_comm units]
    omega
  exact Nat.le_of_lt_succ ((Nat.div_lt_iff_lt_mul hpos).mpr hlt)

theorem rtAlign_lt_add (size : Nat) (hk : k ≤ 32) : rtAlign size (2 ^ k) < size + 2 ^ k := by
  have hpos := Nat.two_pow_pos k
  rw [rtAlign, rtAlignDown_two_pow (Nat.mod_lt _ (by decide)) hk]
  have hdiv := Nat.div_mul_le_self ((size + (2 ^ k - 1)) % 2 ^ 32) (2 ^ k)
  have hmod := Nat.mod_le (size + (2 ^ k - 1)) (2 ^ 32)
  omega

theorem rtAlign_wraps (hk : k ≤ 32) (hsize : size < 2 ^ 32) (hover : 2 ^ 32 < size + 2 ^ k) :
    rtAlign size (2 ^ k) = 0 := by
  have hpow : 2 ^ k ≤ 2 ^ 32 := Nat.pow_le_pow_right (by decide) hk
  have hsum : size + (2 ^ k - 1) = (size + 2 ^ k - 1 - 2 ^ 32) + 2 ^ 32 := by omega
  rw [rtAlign, hsum, Nat.add_mod_right, Nat.mod_eq_of_lt (by omega),
    rtAlignDown_two_pow (by omega) hk, Nat.div_eq_of_lt (by omega), Nat.zero_mul]

end Fits

end RtThread
