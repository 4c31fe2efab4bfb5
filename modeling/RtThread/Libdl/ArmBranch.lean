import Mathlib.Tactic.IntervalCases
import RtThread.Libdl.Elf

namespace RtThread.Libdl

/-! The displacements in the branches of the processor, and how `arch/arm.c` takes them apart and
puts them together. -/

/-- How far a branch of ARM goes: `imm24` in words. -/
def armOffset (instr : BitVec 32) : Int := 4 * (instr.extractLsb' 0 24).toInt

/-- `S:I1:I2:imm10:imm11:0` of a branch of Thumb, with `I1 = NOT(J1 EOR S)` and the same for `I2`. -/
def thumbField (upper lower : BitVec 16) : BitVec 25 :=
  let s := upper.getLsbD 10
  BitVec.ofBool s ++ BitVec.ofBool (!(lower.getLsbD 13 ^^ s)) ++
    BitVec.ofBool (!(lower.getLsbD 11 ^^ s)) ++ upper.extractLsb' 0 10 ++
    lower.extractLsb' 0 11 ++ 0#1

def thumbOffset (upper lower : BitVec 16) : Int := (thumbField upper lower).toInt

def thumbUpper (offset : BitVec 32) (upper : BitVec 16) : BitVec 16 :=
  let upper := upper.setWidth 32
  let sign := (offset >>> 24) &&& 1#32
  ((upper &&& 0xf800#32) ||| (sign <<< 10) ||| ((offset >>> 12) &&& 0x03ff#32)).setWidth 16

def thumbLower (offset : BitVec 32) (lower : BitVec 16) : BitVec 16 :=
  let lower := lower.setWidth 32
  let sign := (offset >>> 24) &&& 1#32
  let j1 := sign ^^^ (~~~(offset >>> 23) &&& 1#32)
  let j2 := sign ^^^ (~~~(offset >>> 22) &&& 1#32)
  ((lower &&& 0xd000#32) ||| (j1 <<< 13) ||| (j2 <<< 11) ||| ((offset >>> 1) &&& 0x07ff#32)).setWidth 16

structure LowHalf (offset : BitVec 32) (lower : BitVec 16) : Prop where
  j1 : lower.getLsbD 13 = (offset.getLsbD 24 ^^ !offset.getLsbD 23)
  j2 : lower.getLsbD 11 = (offset.getLsbD 24 ^^ !offset.getLsbD 22)
  imm : lower.extractLsb' 0 11 = offset.extractLsb' 1 11

theorem signExtend_addend (x : BitVec 32) :
    (if (x &&& 0x00ffffff#32) &&& 0x00800000#32 ≠ 0#32 then (x &&& 0x00ffffff#32) ||| 0xff000000#32
      else x &&& 0x00ffffff#32) = (x.extractLsb' 0 24).signExtend 32 := by
  have hsign : (x &&& 0x00ffffff#32) &&& 0x00800000#32 = 0#32 ↔ x[23] = false := by
    constructor
    · intro heq
      simpa using congrArg (BitVec.getLsbD · 23) heq
    · intro h
      ext i hi
      interval_cases i <;> simp [h]
  ext i hi
  rw [BitVec.getElem_signExtend]
  cases h : x[23] with
  | false =>
    rw [if_neg (not_not_intro (hsign.mpr h))]
    interval_cases i <;> simp [h, BitVec.msb, BitVec.getMsbD_eq_getLsbD]
  | true =>
    rw [if_pos fun heq => by rw [hsign.mp heq] at h; cases h]
    interval_cases i <;> simp [h, BitVec.msb, BitVec.getMsbD_eq_getLsbD]

theorem signExtend_offset (field : BitVec 25) :
    (if field.setWidth 32 &&& 0x01000000#32 ≠ 0#32 then field.setWidth 32 - 0x02000000#32
      else field.setWidth 32) = field.signExtend 32 := by
  have hsign : field.setWidth 32 &&& 0x01000000#32 = 0#32 ↔ field.msb = false := by
    rw [BitVec.msb_eq_getLsbD_last]
    constructor
    · intro heq
      simpa using congrArg (BitVec.getLsbD · 24) heq
    · intro h
      ext i hi
      interval_cases i <;> simp_all
  cases h : field.msb with
  | false =>
    rw [if_neg (not_not_intro (hsign.mpr h)), BitVec.signExtend_eq_setWidth_of_msb_false h]
  | true =>
    rw [if_pos fun heq => by rw [hsign.mp heq] at h; cases h]
    apply BitVec.eq_of_toInt_eq
    rw [BitVec.toInt_signExtend_of_le (by decide)]
    have hlarge := BitVec.msb_eq_true_iff_two_mul_ge.mp h
    have hlt := field.isLt
    rw [BitVec.toInt_eq_toNat_cond, BitVec.toInt_eq_toNat_cond, BitVec.toNat_sub, BitVec.toNat_setWidth]
    have hword : (0x02000000#32).toNat = 2 ^ 25 := rfl
    rw [hword]
    omega

theorem addend_eq (instr : BitVec 32) :
    (if (instr &&& 0x00ffffff#32) &&& 0x00800000#32 ≠ 0#32 then (instr &&& 0x00ffffff#32) ||| 0xff000000#32
      else instr &&& 0x00ffffff#32) <<< 2 = BitVec.ofInt 32 (armOffset instr) := by
  rw [signExtend_addend, armOffset, BitVec.signExtend]
  generalize (instr.extractLsb' 0 24).toInt = imm
  apply BitVec.eq_of_toNat_eq
  rw [BitVec.toNat_shiftLeft, BitVec.toNat_ofInt, BitVec.toNat_ofInt, Nat.shiftLeft_eq]
  omega

theorem getLsbD_thumbField (upper lower : BitVec 16) {i : Nat} (hi : i < 32) :
    (thumbField upper lower).getLsbD i =
      if i < 1 then false
      else if i < 12 then lower.getLsbD (i - 1)
      else if i < 22 then upper.getLsbD (i - 12)
      else if i < 23 then !(lower.getLsbD 11 ^^ upper.getLsbD 10)
      else if i < 24 then !(lower.getLsbD 13 ^^ upper.getLsbD 10)
      else decide (i = 24) && upper.getLsbD 10 := by
  unfold thumbField
  simp only [BitVec.getLsbD_append, BitVec.getLsbD_extractLsb', BitVec.getLsbD_ofBool, Nat.zero_add]
  interval_cases i <;> simp

theorem offset_bits (upper lower : BitVec 16) : let upper' := upper.setWidth 32
    let lower' := lower.setWidth 32
    let sign := (upper' >>> 10) &&& 1#32
    let j1 := (lower' >>> 13) &&& 1#32
    let j2 := (lower' >>> 11) &&& 1#32
    (sign <<< 24) ||| ((~~~(j1 ^^^ sign) &&& 1#32) <<< 23) |||
      ((~~~(j2 ^^^ sign) &&& 1#32) <<< 22) ||| ((upper' &&& 0x03ff#32) <<< 12) |||
      ((lower' &&& 0x07ff#32) <<< 1) = (thumbField upper lower).setWidth 32 := by
  intro upper' lower' sign j1 j2
  ext i hi
  rw [BitVec.getElem_setWidth, getLsbD_thumbField upper lower hi]
  simp only [sign, j1, j2, upper', lower']
  interval_cases i <;> simp

section Encode

variable {offset : BitVec 32} {upper lower : BitVec 16}

theorem getLsbD_thumbUpper {i : Nat} (hi : i < 16) :
    (thumbUpper offset upper).getLsbD i =
      if i < 10 then offset.getLsbD (i + 12)
      else if i < 11 then offset.getLsbD 24 else upper.getLsbD i := by
  unfold thumbUpper
  interval_cases i <;> simp

theorem getLsbD_thumbLower (offset : BitVec 32) (lower : BitVec 16) {i : Nat} (hi : i < 16) :
    (thumbLower offset lower).getLsbD i =
      if i < 11 then offset.getLsbD (i + 1)
      else if i = 11 then (offset.getLsbD 24 ^^ !offset.getLsbD 22)
      else if i = 13 then (offset.getLsbD 24 ^^ !offset.getLsbD 23) else lower.getLsbD i := by
  unfold thumbLower
  interval_cases i <;> simp

theorem LowHalf.getLsbD (hlow : LowHalf offset lower) {i : Nat} (hi : i < 11) :
    lower.getLsbD i = offset.getLsbD (i + 1) := by
  have hbit := congrArg (BitVec.getLsbD · i) hlow.imm
  simpa [hi, Nat.add_comm] using hbit

theorem thumbLower_eq_iff : thumbLower offset lower = lower ↔ LowHalf offset lower := by
  constructor
  · intro heq
    have hbit (i : Nat) (hi : i < 16) := getLsbD_thumbLower offset lower hi
    rw [heq] at hbit
    refine ⟨hbit 13 (by decide), hbit 11 (by decide), ?_⟩
    apply BitVec.eq_of_getLsbD_eq
    intro i hi
    have h := hbit i (by omega)
    rw [if_pos hi] at h
    simpa [hi, Nat.add_comm] using h
  · intro hlow
    apply BitVec.eq_of_getLsbD_eq
    intro i hi
    rw [getLsbD_thumbLower _ _ hi]
    split
    next hlt => exact (hlow.getLsbD hlt).symm
    split
    next h => rw [h, hlow.j2]
    split
    next h => rw [h, hlow.j1]
    rfl

theorem thumbField_eq_iff (offset : BitVec 32) (upper lower : BitVec 16) :
    thumbField (thumbUpper offset upper) lower = offset.extractLsb' 1 24 ++ 0#1 ↔
      LowHalf offset lower := by
  have hfield {i : Nat} (hi : i < 25) :
      (offset.extractLsb' 1 24 ++ 0#1).getLsbD i = if i < 1 then false else offset.getLsbD i := by
    rw [BitVec.getLsbD_append]
    interval_cases i <;> simp
  have hsign : (thumbUpper offset upper).getLsbD 10 = offset.getLsbD 24 :=
    getLsbD_thumbUpper (by decide)
  constructor
  · intro heq
    have hbit {i : Nat} (hi : i < 25) : (thumbField (thumbUpper offset upper) lower).getLsbD i =
        if i < 1 then false else offset.getLsbD i := by
      rw [heq]
      exact hfield hi
    have h23 := (getLsbD_thumbField _ lower (by decide)).symm.trans (hbit (i := 23) (by decide))
    have h22 := (getLsbD_thumbField _ lower (by decide)).symm.trans (hbit (i := 22) (by decide))
    simp only [Nat.reduceLT, if_true, if_false, hsign] at h23 h22
    refine ⟨by grind, by grind, BitVec.eq_of_getLsbD_eq fun i hi => ?_⟩
    have h := (getLsbD_thumbField _ lower (by omega)).symm.trans (hbit (i := i + 1) (by omega))
    rw [if_neg (by omega), if_pos (by omega), if_neg (by omega)] at h
    simpa [hi, Nat.add_comm] using h
  · intro hlow
    apply BitVec.eq_of_getLsbD_eq
    intro i hi
    rw [hfield hi, getLsbD_thumbField _ _ (by omega)]
    split
    · rfl
    next hpos =>
      split
      next hlt =>
        rw [hlow.getLsbD (by omega), Nat.sub_add_cancel (by omega)]
      split
      next hlt =>
        rw [getLsbD_thumbUpper (by omega), if_pos (by omega), Nat.sub_add_cancel (by omega)]
      split
      next hge hlt =>
        obtain rfl : i = 22 := by omega
        rw [hsign, hlow.j2]
        grind
      split
      next hge hlt =>
        obtain rfl : i = 23 := by omega
        rw [hsign, hlow.j1]
        grind
      next hge =>
        obtain rfl : i = 24 := by omega
        exact hsign

theorem toInt_field (hodd : offset.toInt % 2 = 1) (hlow : -2 ^ 24 < offset.toInt)
    (hhigh : offset.toInt < 2 ^ 24) :
    (offset.extractLsb' 1 24 ++ 0#1).toInt = offset.toInt - 1 := by
  have hlt := offset.isLt
  have hnat : (offset.extractLsb' 1 24 ++ 0#1).toNat = 2 * (offset.toNat / 2 % 2 ^ 24) := by
    rw [BitVec.toNat_append, BitVec.extractLsb'_toNat, Nat.shiftRight_eq_div_pow, Nat.shiftLeft_eq]
    simp [Nat.mul_comm]
  rw [BitVec.toInt_eq_toNat_cond] at hodd hlow hhigh ⊢
  rw [BitVec.toInt_eq_toNat_cond, hnat]
  omega

theorem thumbOffset_thumbUpper_iff (upper lower : BitVec 16) (hodd : offset.toInt % 2 = 1) (hlow : -2 ^ 24 < offset.toInt)
    (hhigh : offset.toInt < 2 ^ 24) :
    thumbOffset (thumbUpper offset upper) lower = offset.toInt - 1 ↔ LowHalf offset lower := by
  rw [← toInt_field hodd hlow hhigh, ← thumbField_eq_iff offset upper lower]
  exact BitVec.toInt_inj

theorem armOffset_store (instr tmp : BitVec 32) :
    armOffset ((instr &&& 0xff000000#32) ||| ((tmp >>> 2) &&& 0x00ffffff#32)) =
      4 * (tmp.extractLsb' 2 24).toInt := by
  have hfield : ((instr &&& 0xff000000#32) ||| ((tmp >>> 2) &&& 0x00ffffff#32)).extractLsb' 0 24 =
      tmp.extractLsb' 2 24 := by
    ext i hi
    interval_cases i <;> simp
  rw [armOffset, hfield]

theorem toInt_extract_iff (tmp : BitVec 32) :
    4 * (tmp.extractLsb' 2 24).toInt = tmp.toInt ↔
      tmp.toInt % 4 = 0 ∧ -2 ^ 25 ≤ tmp.toInt ∧ tmp.toInt < 2 ^ 25 := by
  have hlt := tmp.isLt
  have hnat : (tmp.extractLsb' 2 24).toNat = tmp.toNat / 4 % 2 ^ 24 := by
    rw [BitVec.extractLsb'_toNat, Nat.shiftRight_eq_div_pow]
  rw [BitVec.toInt_eq_toNat_cond, BitVec.toInt_eq_toNat_cond, hnat]
  omega

end Encode

end RtThread.Libdl
