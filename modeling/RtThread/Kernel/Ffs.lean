import RtThread.Lib.Bits

namespace RtThread

/-! `__rt_ffs` of `kservice.c`: a 256-entry table and one branch per byte. -/

def lowestBitBitmap : List Nat :=
  [0, 0, 1, 0, 2, 0, 1, 0, 3, 0, 1, 0, 2, 0, 1, 0, 4, 0, 1, 0, 2, 0, 1, 0, 3, 0, 1, 0, 2, 0, 1, 0,
   5, 0, 1, 0, 2, 0, 1, 0, 3, 0, 1, 0, 2, 0, 1, 0,
   4, 0, 1, 0, 2, 0, 1, 0, 3, 0, 1, 0, 2, 0, 1, 0,
   6, 0, 1, 0, 2, 0, 1, 0, 3, 0, 1, 0, 2, 0, 1, 0,
   4, 0, 1, 0, 2, 0, 1, 0, 3, 0, 1, 0, 2, 0, 1, 0,
   5, 0, 1, 0, 2, 0, 1, 0, 3, 0, 1, 0, 2, 0, 1, 0,
   4, 0, 1, 0, 2, 0, 1, 0, 3, 0, 1, 0, 2, 0, 1, 0,
   7, 0, 1, 0, 2, 0, 1, 0, 3, 0, 1, 0, 2, 0, 1, 0,
   4, 0, 1, 0, 2, 0, 1, 0, 3, 0, 1, 0, 2, 0, 1, 0,
   5, 0, 1, 0, 2, 0, 1, 0, 3, 0, 1, 0, 2, 0, 1, 0,
   4, 0, 1, 0, 2, 0, 1, 0, 3, 0, 1, 0, 2, 0, 1, 0,
   6, 0, 1, 0, 2, 0, 1, 0, 3, 0, 1, 0, 2, 0, 1, 0,
   4, 0, 1, 0, 2, 0, 1, 0, 3, 0, 1, 0, 2, 0, 1, 0,
   5, 0, 1, 0, 2, 0, 1, 0, 3, 0, 1, 0, 2, 0, 1, 0,
   4, 0, 1, 0, 2, 0, 1, 0, 3, 0, 1, 0, 2, 0, 1, 0]

def lowestBit (byte : BitVec 32) : Nat := lowestBitBitmap.getD byte.toNat 0

def rtFfs (value : BitVec 32) : Nat :=
  if value = 0 then 0
  else if value &&& 0xff ≠ 0 then lowestBit (value &&& 0xff) + 1
  else if value &&& 0xff00 ≠ 0 then lowestBit ((value &&& 0xff00) >>> 8) + 9
  else if value &&& 0xff0000 ≠ 0 then
    lowestBit ((value &&& 0xff0000) >>> 16) + 17
  else lowestBit ((value &&& 0xff000000) >>> 24) + 25

private theorem lowestBitBitmap_spec :
    ∀ byte < 256, 0 < byte →
      lowestBitBitmap.getD byte 0 < 8 ∧
        byte.testBit (lowestBitBitmap.getD byte 0) = true ∧
        ∀ lower < lowestBitBitmap.getD byte 0, byte.testBit lower = false := by
  decide +kernel

/-- What `rtFfs value - 1` is: the index of the lowest set bit. -/
structure LowestSetBit (value : BitVec 32) (index : Nat) : Prop where
  lt : index < 32
  set : value.getLsbD index = true
  clear : ∀ lower < index, value.getLsbD lower = false

private theorem lowestSetBit_of_byte {value byte : BitVec 32} {k : Nat}
    (hk : k < 4) (hbyte : byte.toNat = value.toNat / 2 ^ (8 * k) % 256)
    (hne : byte ≠ 0) (hbelow : value.toNat % 2 ^ (8 * k) = 0) :
    LowestSetBit value (lowestBit byte + 8 * k) := by
  have hpos : 0 < byte.toNat := by
    rcases Nat.eq_zero_or_pos byte.toNat with hzero | hpos
    · exact absurd (BitVec.eq_of_toNat_eq (by simpa using hzero)) hne
    · exact hpos
  have hlt : byte.toNat < 256 := by omega
  obtain ⟨hbound, hset, hclear⟩ := lowestBitBitmap_spec byte.toNat hlt hpos
  have hbit : ∀ i < 8, value.getLsbD (i + 8 * k) = byte.toNat.testBit i := by
    intro i hi
    rw [hbyte, show (256 : Nat) = 2 ^ 8 from rfl, Nat.testBit_mod_two_pow,
      Nat.testBit_div_two_pow, BitVec.getLsbD]
    simp [hi]
  refine ⟨by unfold lowestBit; omega, ?_, ?_⟩
  · exact (hbit _ hbound).trans hset
  · intro lower hlower
    by_cases hbyteIndex : lower < 8 * k
    · have hzero : (value.toNat % 2 ^ (8 * k)).testBit lower = false := by
        simp [hbelow]
      rw [Nat.testBit_mod_two_pow] at hzero
      simpa [hbyteIndex, BitVec.getLsbD] using hzero
    · obtain ⟨i, rfl⟩ : ∃ i, lower = i + 8 * k := ⟨lower - 8 * k, by omega⟩
      unfold lowestBit at hlower
      rw [hbit i (by omega)]
      exact hclear i (by omega)

@[simp] theorem rtFfs_zero : rtFfs 0 = 0 := rfl

private theorem toNat_byte (value : BitVec 32) {mask : BitVec 32} {k : Nat}
    (hmask : ∀ i, mask.getLsbD i = decide (8 * k ≤ i ∧ i < 8 * k + 8)) :
    ((value &&& mask) >>> (8 * k)).toNat = value.toNat / 2 ^ (8 * k) % 256 := by
  apply Nat.eq_of_testBit_eq
  intro i
  rw [← BitVec.getLsbD, BitVec.getLsbD_ushiftRight, BitVec.getLsbD_and, hmask,
    show (256 : Nat) = 2 ^ 8 from rfl, Nat.testBit_mod_two_pow,
    Nat.testBit_div_two_pow, Nat.add_comm i, BitVec.getLsbD, Bool.and_comm]
  congr 1
  simp

private theorem byte_eq_zero_iff (value : BitVec 32) {mask : BitVec 32} {k : Nat}
    (hmask : ∀ i, mask.getLsbD i = decide (8 * k ≤ i ∧ i < 8 * k + 8)) :
    (value &&& mask) >>> (8 * k) = 0 ↔ value &&& mask = 0 := by
  constructor
  · intro hzero
    apply BitVec.eq_of_getLsbD_eq
    intro i _
    rw [BitVec.getLsbD_and, hmask]
    by_cases hi : 8 * k ≤ i ∧ i < 8 * k + 8
    · have hbit : ((value &&& mask) >>> (8 * k)).getLsbD (i - 8 * k) = false := by
        simp [hzero]
      rw [BitVec.getLsbD_ushiftRight, BitVec.getLsbD_and, hmask, Nat.add_sub_cancel' hi.1] at hbit
      simpa using hbit
    · simp [hi]
  · intro hzero
    simp [hzero]

private theorem getLsbD_byteMask (mask : BitVec 32) (k : Nat) (hk : k < 4)
    (hmask : ∀ i < 32, mask.getLsbD i = decide (8 * k ≤ i ∧ i < 8 * k + 8)) (i : Nat) :
    mask.getLsbD i = decide (8 * k ≤ i ∧ i < 8 * k + 8) := by
  by_cases hi : i < 32
  · exact hmask i hi
  · rw [BitVec.getLsbD_of_ge mask i (by omega)]
    symm
    simp only [decide_eq_false_iff_not]
    omega

theorem rtFfs_spec {value : BitVec 32} (hne : value ≠ 0) :
    ∃ index, rtFfs value = index + 1 ∧ LowestSetBit value index := by
  have m0 := getLsbD_byteMask 0xff 0 (by decide) (by decide)
  have m1 := getLsbD_byteMask 0xff00 1 (by decide) (by decide)
  have m2 := getLsbD_byteMask 0xff0000 2 (by decide) (by decide)
  have m3 := getLsbD_byteMask 0xff000000 3 (by decide) (by decide)
  -- a byte that the mask finds zero contributes nothing below the next one
  have z0 := toNat_byte value m0
  have z1 := toNat_byte value m1
  have z2 := toNat_byte value m2
  have z3 := toNat_byte value m3
  have e0 := byte_eq_zero_iff value m0
  have e1 := byte_eq_zero_iff value m1
  have e2 := byte_eq_zero_iff value m2
  have e3 := byte_eq_zero_iff value m3
  simp only [Nat.reduceMul, BitVec.ushiftRight_zero] at z0 z1 z2 z3 e0 e1 e2 e3
  unfold rtFfs
  rw [if_neg hne]
  split
  next h0 =>
    exact ⟨_, rfl, lowestSetBit_of_byte (k := 0) (by decide) z0 h0 (by omega)⟩
  next h0 =>
    rw [not_not] at h0
    rw [h0] at z0
    split
    next h1 =>
      exact ⟨_, rfl, lowestSetBit_of_byte (k := 1) (by decide) z1
        (fun h => h1 (e1.mp h)) (by simp at z0 ⊢; omega)⟩
    next h1 =>
      rw [not_not] at h1
      rw [e1.mpr h1] at z1
      split
      next h2 =>
        exact ⟨_, rfl, lowestSetBit_of_byte (k := 2) (by decide) z2
          (fun h => h2 (e2.mp h)) (by simp at z0 z1 ⊢; omega)⟩
      next h2 =>
        rw [not_not] at h2
        rw [e2.mpr h2] at z2
        have h3 : value &&& 0xff000000 ≠ 0 := by
          intro hzero
          rw [e3.mpr hzero] at z3
          apply hne
          apply BitVec.eq_of_toNat_eq
          have := value.isLt
          simp at z0 z1 z2 z3 ⊢
          omega
        exact ⟨_, rfl, lowestSetBit_of_byte (k := 3) (by decide) z3
          (fun h => h3 (e3.mp h)) (by simp at z0 z1 z2 ⊢; omega)⟩

theorem rtFfs_eq_iff (value : BitVec 32) (index : Nat) :
    rtFfs value = index + 1 ↔ LowestSetBit value index := by
  by_cases hzero : value = 0
  · subst hzero
    constructor
    · rw [rtFfs_zero]
      nofun
    · intro hindex
      simpa using hindex.set
  · obtain ⟨i, hi, hlow⟩ := rtFfs_spec hzero
    have hle {i j} (hi : LowestSetBit value i) (hj : LowestSetBit value j) : i ≤ j :=
      Nat.le_of_not_lt fun h => by simpa [hj.set] using hi.clear j h
    rw [hi, Nat.add_right_cancel_iff]
    constructor
    · rintro rfl
      exact hlow
    · intro hindex
      exact Nat.le_antisymm (hle hlow hindex) (hle hindex hlow)

end RtThread
