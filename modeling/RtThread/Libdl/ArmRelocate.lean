import RtThread.Libdl.ArmBranch

namespace RtThread.Libdl

open RtThread.Lib ByteMemory

/-! `dlmodule_relocate` of `arch/arm.c`, with the value it returns. -/

section Access

variable (memory : ByteMemory) (a : BitVec 32)

def armWord : BitVec 32 := BitVec.ofNat 32 (memory.readWord a.toNat 4)

def armHalf : BitVec 16 := BitVec.ofNat 16 (memory.readWord a.toNat 2)

def setArmWord (value : BitVec 32) : ByteMemory := memory.writeWord a.toNat 4 value.toNat

def setArmHalf (value : BitVec 16) : ByteMemory := memory.writeWord a.toNat 2 value.toNat

end Access

def relocateArm (type : Nat) (memory : ByteMemory) (place symVal : BitVec 32) : Int × ByteMemory :=
  let word := armWord memory place
  match type with
  | 0 => (0, memory)
  | 2 => (0, setArmWord memory place (word + symVal))
  | 1 | 27 | 28 | 29 =>
    let addend := word &&& 0x00ffffff#32
    let addend := if addend &&& 0x00800000#32 ≠ 0#32 then addend ||| 0xff000000#32 else addend
    let tmp := symVal - place + (addend <<< 2)
    let tmp := tmp >>> 2
    (0, setArmWord memory place ((word &&& 0xff000000#32) ||| (tmp &&& 0x00ffffff#32)))
  | 3 => (0, setArmWord memory place (word + (symVal - place)))
  | 40 => (0, setArmWord memory place ((word &&& 0xf000000f#32) ||| 0x01a0f000#32))
  | 21 | 22 => (0, setArmWord memory place symVal)
  | 23 => (0, setArmWord memory place (symVal + word))
  | 10 | 30 =>
    let upper := (armHalf memory place).setWidth 32
    let lower := (armHalf memory (place + 2)).setWidth 32
    let sign := (upper >>> 10) &&& 1#32
    let j1 := (lower >>> 13) &&& 1#32
    let j2 := (lower >>> 11) &&& 1#32
    let offset := (sign <<< 24) ||| ((~~~(j1 ^^^ sign) &&& 1#32) <<< 23) |||
      ((~~~(j2 ^^^ sign) &&& 1#32) <<< 22) ||| ((upper &&& 0x03ff#32) <<< 12) |||
      ((lower &&& 0x07ff#32) <<< 1)
    let offset := if offset &&& 0x01000000#32 ≠ 0#32 then offset - 0x02000000#32 else offset
    let offset := offset + (symVal - place)
    if offset &&& 1#32 = 0#32 ∨ offset.toInt ≤ -0x01000000 ∨ offset.toInt ≥ 0x01000000 then (-1, memory)
    else
      let sign := (offset >>> 24) &&& 1#32
      let j1 := sign ^^^ (~~~(offset >>> 23) &&& 1#32)
      let j2 := sign ^^^ (~~~(offset >>> 22) &&& 1#32)
      let memory := setArmHalf memory place
        (((upper &&& 0xf800#32) ||| (sign <<< 10) ||| ((offset >>> 12) &&& 0x03ff#32)).setWidth 16)
      (0, setArmHalf memory (place + 8)
        (((lower &&& 0xd000#32) ||| (j1 <<< 13) ||| (j2 <<< 11) |||
          ((offset >>> 1) &&& 0x07ff#32)).setWidth 16))
  | _ => (-1, memory)

section Purpose

variable (type : Nat) (memory : ByteMemory) (place symVal : BitVec 32)

def fromPlace (addend : Int) : BitVec 32 := symVal + BitVec.ofInt 32 addend - place

def armDisplacement : BitVec 32 := fromPlace place symVal (armOffset (armWord memory place))

def thumbDisplacement : BitVec 32 :=
  fromPlace place symVal (thumbOffset (armHalf memory place) (armHalf memory (place + 2)))

/-- What a type of relocation asks for.  The last bit of a target stands for Thumb. -/
def Prescribed (memory' : ByteMemory) : Prop :=
  let word := armWord memory place
  let word' := armWord memory' place
  match type with
  | 2 | 23 => word' = symVal + word
  | 21 | 22 => word' = symVal
  | 3 => word' = symVal + word - place
  | 40 => word' &&& 0xf000000f#32 = word &&& 0xf000000f#32 ∧ word' &&& 0x0ffffff0#32 = 0x01a0f000
  | 1 | 27 | 28 | 29 =>
    armOffset word' = (armDisplacement memory place symVal).toInt ∧
      word' &&& 0xff000000#32 = word &&& 0xff000000#32
  | 10 | 30 =>
    thumbOffset (armHalf memory' place) (armHalf memory' (place + 2)) =
        (thumbDisplacement memory place symVal).toInt -
          (thumbDisplacement memory place symVal).toInt % 2 ∧
      armHalf memory' place &&& 0xf800#16 = armHalf memory place &&& 0xf800#16 ∧
      armHalf memory' (place + 2) &&& 0xd000#16 = armHalf memory (place + 2) &&& 0xd000#16
  | _ => word' = word

def InReach : Prop :=
  match type with
  | 1 | 27 | 28 | 29 =>
    (armDisplacement memory place symVal).toInt % 4 = 0 ∧
      -2 ^ 25 ≤ (armDisplacement memory place symVal).toInt ∧
      (armDisplacement memory place symVal).toInt < 2 ^ 25
  | 10 | 30 =>
    let offset := (thumbDisplacement memory place symVal).toInt
    offset - offset % 2 < 2 ^ 24 ∧ -2 ^ 24 ≤ offset - offset % 2
  | _ => True

/-- A relocation does what its type asks for, in the four bytes at its place, or fails and does
nothing. -/
structure RelocatesRight : Prop where
  only : (relocateArm type memory place symVal).1 = 0 →
    ∀ i, i < place.toNat ∨ place.toNat + 4 ≤ i →
      (relocateArm type memory place symVal).2 i = memory i
  value : (relocateArm type memory place symVal).1 = 0 →
    Prescribed type memory place symVal (relocateArm type memory place symVal).2
  reach : ¬ InReach type memory place symVal →
    (relocateArm type memory place symVal).1 ≠ 0 ∧ (relocateArm type memory place symVal).2 = memory

/-- A branch of ARM is in reach; the second half of a branch of Thumb that is in reach is right
before it is relocated, and the same half is two words after the place. -/
def Harmless : Prop :=
  match type with
  | 1 | 27 | 28 | 29 => InReach type memory place symVal
  | 10 | 30 =>
    (thumbDisplacement memory place symVal).toInt % 2 = 1 → InReach type memory place symVal →
      LowHalf (thumbDisplacement memory place symVal) (armHalf memory (place + 2)) ∧
        armHalf memory (place + 8) = armHalf memory (place + 2)
  | _ => True

end Purpose

section Stores

variable {type : Nat} {memory : ByteMemory} {place symVal : BitVec 32}

theorem armWord_setArmWord (value : BitVec 32) :
    armWord (setArmWord memory place value) place = value := by
  rw [armWord, setArmWord, readWord_writeWord value.isLt]
  exact BitVec.ofNat_toNat ..

theorem armHalf_setArmHalf (value : BitVec 16) :
    armHalf (setArmHalf memory place value) place = value := by
  rw [armHalf, setArmHalf, readWord_writeWord value.isLt]
  exact BitVec.ofNat_toNat ..

theorem armHalf_setArmHalf_apart {a : BitVec 32} (value : BitVec 16)
    (hapart : a.toNat + 2 ≤ place.toNat ∨ place.toNat + 2 ≤ a.toNat) :
    armHalf (setArmHalf memory place value) a = armHalf memory a := by
  rw [armHalf, setArmHalf, readWord_writeWord_apart hapart]
  rfl

theorem setArmHalf_armHalf (memory : ByteMemory) (place : BitVec 32) : setArmHalf memory place (armHalf memory place) = memory := by
  have hlt : memory.readWord place.toNat 2 < 2 ^ 16 := readWord_lt
  rw [setArmHalf, armHalf, BitVec.toNat_ofNat, Nat.mod_eq_of_lt hlt]
  exact writeWord_readWord

theorem setArmWord_outside (value : BitVec 32) {i : Nat}
    (hi : i < place.toNat ∨ place.toNat + 4 ≤ i) : setArmWord memory place value i = memory i :=
  writeWord_outside hi

theorem RelocatesRight.of_word {value : BitVec 32} (hreach : InReach type memory place symVal)
    (hstore : relocateArm type memory place symVal = ((0 : Int), setArmWord memory place value))
    (hvalue : Prescribed type memory place symVal (setArmWord memory place value)) :
    RelocatesRight type memory place symVal := by
  refine ⟨fun _ i hi => ?_, fun _ => ?_, fun h => absurd hreach h⟩
  · rw [hstore]
    exact setArmWord_outside value hi
  · rw [hstore]
    exact hvalue

theorem relocateArm_branch (memory : ByteMemory) (place symVal : BitVec 32)
    (htype : type = 1 ∨ type = 27 ∨ type = 28 ∨ type = 29) :
    relocateArm type memory place symVal = ((0 : Int), setArmWord memory place
      ((armWord memory place &&& 0xff000000#32) |||
        ((armDisplacement memory place symVal >>> 2) &&& 0x00ffffff#32))) := by
  have htmp : symVal - place + BitVec.ofInt 32 (armOffset (armWord memory place)) =
      armDisplacement memory place symVal := by
    rw [armDisplacement, fromPlace, BitVec.sub_eq_add_neg, BitVec.sub_eq_add_neg, BitVec.add_assoc,
      BitVec.add_assoc, BitVec.add_comm (-place)]
  rcases htype with rfl | rfl | rfl | rfl <;>
  · unfold relocateArm
    dsimp only
    rw [addend_eq, htmp]
    rfl

theorem signExtend_thumbField (memory : ByteMemory) (place symVal : BitVec 32) :
    (thumbField (armHalf memory place) (armHalf memory (place + 2))).signExtend 32 +
      (symVal - place) = thumbDisplacement memory place symVal := by
  rw [thumbDisplacement, fromPlace, thumbOffset, BitVec.signExtend, BitVec.sub_eq_add_neg,
    BitVec.sub_eq_add_neg, ← BitVec.add_assoc, BitVec.add_comm symVal]

theorem and_one_eq_zero_iff (x : BitVec 32) : x &&& 1#32 = 0#32 ↔ x.toInt % 2 = 0 := by
  rw [← BitVec.toNat_inj, BitVec.toNat_and]
  have hand : x.toNat &&& (1#32).toNat = x.toNat % 2 := Nat.and_one_is_mod x.toNat
  have hlt := x.isLt
  rw [hand, BitVec.toInt_eq_toNat_cond]
  have hzero : (0#32).toNat = 0 := rfl
  omega

theorem relocateArm_thumb (memory : ByteMemory) (place symVal : BitVec 32)
    (htype : type = 10 ∨ type = 30) :
    relocateArm type memory place symVal =
      if (thumbDisplacement memory place symVal).toInt % 2 = 0 ∨
          (thumbDisplacement memory place symVal).toInt ≤ -2 ^ 24 ∨
          (thumbDisplacement memory place symVal).toInt ≥ 2 ^ 24 then ((-1 : Int), memory)
      else ((0 : Int), setArmHalf (setArmHalf memory place
          (thumbUpper (thumbDisplacement memory place symVal) (armHalf memory place))) (place + 8)
            (thumbLower (thumbDisplacement memory place symVal) (armHalf memory (place + 2)))) := by
  rcases htype with rfl | rfl <;>
  · unfold relocateArm
    dsimp only
    rw [offset_bits, signExtend_offset, signExtend_thumbField]
    simp only [and_one_eq_zero_iff]
    rfl

end Stores

section Loader

variable {type : Nat} {memory : ByteMemory} {place symVal : BitVec 32}

theorem setWidth_armHalf (memory : ByteMemory) (hplace : place.toNat + 4 ≤ 2 ^ 32) :
    (armHalf memory place).setWidth 32 = armWord memory place &&& 0xffff#32 ∧
      (armHalf memory (place + 2)).setWidth 32 = armWord memory place >>> 16 := by
  have hsecond : (place + 2).toNat = place.toNat + 2 := by
    have htwo : (2 : BitVec 32).toNat = 2 := rfl
    rw [BitVec.toNat_add, htwo]
    omega
  have hlow : memory.readWord place.toNat 2 < 2 ^ 16 := readWord_lt
  have hhigh : memory.readWord (place.toNat + 2) 2 < 2 ^ 16 := readWord_lt
  have hword : memory.readWord place.toNat 4 =
      memory.readWord place.toNat 2 + 2 ^ 16 * memory.readWord (place.toNat + 2) 2 := by
    simp only [readWord, readBytes, List.range_succ, List.range_zero, leValue,
      List.map_cons, List.map_nil, List.nil_append, List.cons_append, Nat.add_zero, Nat.add_assoc,
      Nat.reduceAdd]
    omega
  have hmask : (0xffff#32).toNat = 2 ^ 16 - 1 := rfl
  constructor
  · apply BitVec.eq_of_toNat_eq
    rw [armHalf, armWord, BitVec.toNat_setWidth, BitVec.toNat_and, BitVec.toNat_ofNat,
      BitVec.toNat_ofNat, hmask, Nat.and_two_pow_sub_one_eq_mod]
    omega
  · apply BitVec.eq_of_toNat_eq
    rw [armHalf, armWord, BitVec.toNat_setWidth, BitVec.toNat_ushiftRight, BitVec.toNat_ofNat,
      BitVec.toNat_ofNat, Nat.shiftRight_eq_div_pow, hsecond]
    omega

theorem setArmHalf_setWidth (memory : ByteMemory) (a value : BitVec 32) :
    setArmHalf memory a (value.setWidth 16) = memory.writeWord a.toNat 2 value.toNat := by
  have hbyte (v : Nat) : UInt8.ofNat (v % 2 ^ 16) = UInt8.ofNat v := by
    apply UInt8.toNat_inj.mp
    rw [UInt8.toNat_ofNat', UInt8.toNat_ofNat']
    omega
  have hnext (v : Nat) : UInt8.ofNat (v % 2 ^ 16 / 256) = UInt8.ofNat (v / 256) := by
    apply UInt8.toNat_inj.mp
    rw [UInt8.toNat_ofNat', UInt8.toNat_ofNat']
    omega
  rw [setArmHalf, BitVec.toNat_setWidth, writeWord, writeWord]
  simp only [leBytes, hbyte, hnext]

theorem foldl_relocateThumb (memory : ByteMemory) (symVal : BitVec 32)
    (hplace : place.toNat + 4 ≤ 2 ^ 32) :
    (relocateThumb place (armWord memory place) symVal).foldl (fun memory stored =>
        memory.writeWord (place + BitVec.ofNat 32 stored.distance).toNat stored.width
          stored.value.toNat) memory =
      if (thumbDisplacement memory place symVal).toInt % 2 = 0 ∨
          (thumbDisplacement memory place symVal).toInt ≤ -2 ^ 24 ∨
          (thumbDisplacement memory place symVal).toInt ≥ 2 ^ 24 then memory
      else setArmHalf (setArmHalf memory place
          (thumbUpper (thumbDisplacement memory place symVal) (armHalf memory place))) (place + 8)
            (thumbLower (thumbDisplacement memory place symVal) (armHalf memory (place + 2))) := by
  obtain ⟨hupper, hlower⟩ := setWidth_armHalf memory hplace
  unfold relocateThumb thumbUpper thumbLower
  simp only [BitVec.ofNat_eq_ofNat, BitVec.natCast_eq_ofNat, ← hupper, ← hlower]
  have hbits := offset_bits (armHalf memory place) (armHalf memory (place + 2#32))
  dsimp only at hbits
  rw [hbits, signExtend_offset]
  have hoffset := signExtend_thumbField memory place symVal
  rw [BitVec.ofNat_eq_ofNat] at hoffset
  simp only [hoffset, and_one_eq_zero_iff, setArmHalf_setWidth]
  by_cases hfail : (thumbDisplacement memory place symVal).toInt % 2 = 0 ∨
      (thumbDisplacement memory place symVal).toInt ≤ -2 ^ 24 ∨
      (thumbDisplacement memory place symVal).toInt ≥ 2 ^ 24
  · rw [if_pos hfail]
    exact congrArg (List.foldl _ memory) (if_pos hfail)
  · rw [if_neg hfail]
    refine (congrArg (List.foldl _ memory) (if_neg hfail)).trans ?_
    simp only [List.foldl_cons, List.foldl_nil, BitVec.add_zero]

/-- The stores that the loader gets from `arm` leave the memory that `relocateArm` leaves. -/
theorem relocateArm_memory (hplace : place.toNat + 4 ≤ 2 ^ 32) :
    (relocateArm type memory place symVal).2 =
      (arm type place (armWord memory place) symVal).foldl (fun memory stored =>
        memory.writeWord (place + BitVec.ofNat 32 stored.distance).toNat stored.width
          stored.value.toNat) memory := by
  by_cases hthumb : type = 10 ∨ type = 30
  · have hfold := foldl_relocateThumb memory symVal hplace
    rw [relocateArm_thumb memory place symVal hthumb]
    rcases hthumb with rfl | rfl <;>
    · rw [arm, hfold]
      split <;> rfl
  · unfold relocateArm arm
    split
    any_goals simp only [List.foldl_cons, List.foldl_nil, BitVec.ofNat_eq_ofNat, BitVec.add_zero,
      setArmWord]
    all_goals simp at hthumb

end Loader

section Kinds

variable {type : Nat} {memory : ByteMemory} {place symVal : BitVec 32}

theorem InReach.of_word (harm : ¬ (type = 1 ∨ type = 27 ∨ type = 28 ∨ type = 29))
    (hthumb : ¬ (type = 10 ∨ type = 30)) : InReach type memory place symVal := by
  unfold InReach
  split <;> trivial

theorem relocatesRight_word (harm : ¬ (type = 1 ∨ type = 27 ∨ type = 28 ∨ type = 29))
    (hthumb : ¬ (type = 10 ∨ type = 30)) : RelocatesRight type memory place symVal := by
  have hreach : InReach type memory place symVal := .of_word harm hthumb
  by_cases hknown : type = 2 ∨ type = 3 ∨ type = 21 ∨ type = 22 ∨ type = 23 ∨ type = 40
  · rcases hknown with rfl | rfl | rfl | rfl | rfl | rfl
    · exact .of_word hreach rfl ((armWord_setArmWord _).trans (BitVec.add_comm ..))
    · refine .of_word hreach rfl ((armWord_setArmWord _).trans ?_)
      rw [BitVec.sub_eq_add_neg, BitVec.sub_eq_add_neg, ← BitVec.add_assoc, BitVec.add_comm symVal]
    · exact .of_word hreach rfl (armWord_setArmWord _)
    · exact .of_word hreach rfl (armWord_setArmWord _)
    · exact .of_word hreach rfl (armWord_setArmWord _)
    · refine .of_word hreach rfl ?_
      unfold Prescribed
      dsimp only
      rw [armWord_setArmWord]
      constructor
      · ext i hi
        interval_cases i <;> simp
      · ext i hi
        interval_cases i <;> simp
  · -- nothing is stored
    have hsame : (relocateArm type memory place symVal).2 = memory := by
      unfold relocateArm
      split <;> first | rfl | simp_all
    refine ⟨fun _ i _ => congrFun hsame i, fun _ => ?_, fun h => absurd hreach h⟩
    rw [hsame]
    unfold Prescribed
    split <;> first | rfl | simp_all

theorem relocatesRight_arm_iff (htype : type = 1 ∨ type = 27 ∨ type = 28 ∨ type = 29) :
    RelocatesRight type memory place symVal ↔ InReach type memory place symVal := by
  have hstore := relocateArm_branch memory place symVal htype
  constructor
  · intro hright
    by_contra hfar
    exact (hright.reach hfar).1 (by rw [hstore])
  · intro hreach
    refine .of_word hreach hstore ?_
    generalize hvalue : (armWord memory place &&& 0xff000000#32) |||
      ((armDisplacement memory place symVal >>> 2) &&& 0x00ffffff#32) = value
    have hoffset : armOffset (armWord (setArmWord memory place value) place) =
        (armDisplacement memory place symVal).toInt := by
      rw [armWord_setArmWord, ← hvalue, armOffset_store]
      apply (toInt_extract_iff _).mpr
      rcases htype with rfl | rfl | rfl | rfl <;> exact hreach
    have hkept : armWord (setArmWord memory place value) place &&& 0xff000000#32 =
        armWord memory place &&& 0xff000000#32 := by
      rw [armWord_setArmWord, ← hvalue]
      ext i hi
      interval_cases i <;> simp
    rcases htype with rfl | rfl | rfl | rfl <;> exact ⟨hoffset, hkept⟩

theorem thumbUpper_kept (offset : BitVec 32) (upper : BitVec 16) :
    thumbUpper offset upper &&& 0xf800#16 = upper &&& 0xf800#16 := by
  apply BitVec.eq_of_getLsbD_eq
  intro i hi
  rw [BitVec.getLsbD_and, BitVec.getLsbD_and, getLsbD_thumbUpper hi]
  interval_cases i <;> simp

theorem relocatesRight_thumb_iff (htype : type = 10 ∨ type = 30)
    (hplace : place.toNat + 4 ≤ 2 ^ 32) :
    RelocatesRight type memory place symVal ↔
      ((thumbDisplacement memory place symVal).toInt % 2 = 1 →
        InReach type memory place symVal →
        LowHalf (thumbDisplacement memory place symVal) (armHalf memory (place + 2)) ∧
          armHalf memory (place + 8) = armHalf memory (place + 2)) := by
  have hstore := relocateArm_thumb memory place symVal htype
  have hreach : InReach type memory place symVal ↔
      (thumbDisplacement memory place symVal).toInt -
          (thumbDisplacement memory place symVal).toInt % 2 < 2 ^ 24 ∧
        -2 ^ 24 ≤ (thumbDisplacement memory place symVal).toInt -
          (thumbDisplacement memory place symVal).toInt % 2 := by
    rcases htype with rfl | rfl <;> exact Iff.rfl
  have hprescribed (memory' : ByteMemory) : Prescribed type memory place symVal memory' ↔
      thumbOffset (armHalf memory' place) (armHalf memory' (place + 2)) =
          (thumbDisplacement memory place symVal).toInt -
            (thumbDisplacement memory place symVal).toInt % 2 ∧
        armHalf memory' place &&& 0xf800#16 = armHalf memory place &&& 0xf800#16 ∧
        armHalf memory' (place + 2) &&& 0xd000#16 = armHalf memory (place + 2) &&& 0xd000#16 := by
    rcases htype with rfl | rfl <;> exact Iff.rfl
  generalize thumbDisplacement memory place symVal = offset at hstore hreach hprescribed ⊢
  by_cases hfail : offset.toInt % 2 = 0 ∨ offset.toInt ≤ -2 ^ 24 ∨ offset.toInt ≥ 2 ^ 24
  · -- the relocation is refused
    rw [if_pos hfail] at hstore
    have hfailed : (relocateArm type memory place symVal).1 ≠ 0 := by
      rw [hstore]
      exact (by decide : (-1 : Int) ≠ 0)
    constructor
    · intro _ hodd hin
      rw [hreach] at hin
      omega
    · intro _
      exact ⟨fun h => absurd h hfailed, fun h => absurd h hfailed, fun _ => ⟨hfailed, by rw [hstore]⟩⟩
  · rw [if_neg hfail] at hstore
    have hodd : offset.toInt % 2 = 1 := by omega
    have hin : InReach type memory place symVal := hreach.mpr (by omega)
    have hdone : (relocateArm type memory place symVal).1 = 0 := by rw [hstore]
    have hmemory := congrArg Prod.snd hstore
    have hsecond : (place + 2).toNat = place.toNat + 2 := by
      have htwo : (2 : BitVec 32).toNat = 2 := rfl
      rw [BitVec.toNat_add, htwo]
      omega
    have hfar : (place + 8).toNat + 2 ≤ place.toNat ∨ place.toNat + 4 ≤ (place + 8).toNat := by
      have height : (8 : BitVec 32).toNat = 8 := rfl
      have hlt := place.isLt
      rw [BitVec.toNat_add, height]
      omega
    have hbits := thumbOffset_thumbUpper_iff (armHalf memory place) (armHalf memory (place + 2)) hodd
      (by omega) (by omega)
    rw [forall_prop_of_true hodd, forall_prop_of_true hin]
    have hfirst : armHalf (relocateArm type memory place symVal).2 place =
        thumbUpper offset (armHalf memory place) := by
      rw [hmemory, armHalf_setArmHalf_apart _ (by omega), armHalf_setArmHalf]
    have hkept : armHalf (relocateArm type memory place symVal).2 (place + 2) =
        armHalf memory (place + 2) := by
      rw [hmemory, armHalf_setArmHalf_apart _ (by omega), armHalf_setArmHalf_apart _ (by omega)]
    have hstray : armHalf (relocateArm type memory place symVal).2 (place + 8) =
        thumbLower offset (armHalf memory (place + 2)) := by
      rw [hmemory, armHalf_setArmHalf]
    have hvalue := hprescribed (relocateArm type memory place symVal).2
    rw [hfirst, hkept] at hvalue
    constructor
    · intro hright
      have hlow := hbits.mp (by
        rw [(hvalue.mp (hright.value hdone)).1, hodd])
      refine ⟨hlow, ?_⟩
      have hsame : armHalf (relocateArm type memory place symVal).2 (place + 8) =
          armHalf memory (place + 8) := by
        rw [armHalf, armHalf, readWord_congr fun i _ _ => hright.only hdone i (by omega)]
      rw [← hsame, hstray]
      exact thumbLower_eq_iff.mpr hlow
    · rintro ⟨hlow, hcopy⟩
      have hlower := thumbLower_eq_iff.mpr hlow
      have hfirstOnly : (relocateArm type memory place symVal).2 =
          setArmHalf memory place (thumbUpper offset (armHalf memory place)) := by
        rw [hmemory, hlower, ← hcopy]
        have hthere := setArmHalf_armHalf
          (setArmHalf memory place (thumbUpper offset (armHalf memory place))) (place + 8)
        rwa [armHalf_setArmHalf_apart _ (by omega)] at hthere
      refine ⟨fun _ i hi => ?_, fun _ => hvalue.mpr ⟨?_, thumbUpper_kept .., rfl⟩,
        fun h => absurd hin h⟩
      · rw [hfirstOnly]
        exact writeWord_outside (by omega)
      · rw [hbits.mpr hlow, hodd]

/-- A relocation is right just when a branch of ARM reaches its target, and a branch of Thumb, if
it does, has no need of its second half. -/
theorem relocatesRight_iff (type : Nat) (memory : ByteMemory) (place symVal : BitVec 32)
    (hplace : place.toNat + 4 ≤ 2 ^ 32) :
    RelocatesRight type memory place symVal ↔ Harmless type memory place symVal := by
  by_cases harm : type = 1 ∨ type = 27 ∨ type = 28 ∨ type = 29
  · rw [relocatesRight_arm_iff harm]
    rcases harm with rfl | rfl | rfl | rfl <;> exact Iff.rfl
  by_cases hthumb : type = 10 ∨ type = 30
  · rw [relocatesRight_thumb_iff hthumb hplace]
    rcases hthumb with rfl | rfl <;> exact Iff.rfl
  have hharmless : Harmless type memory place symVal := by
    unfold Harmless
    split <;> trivial
  exact iff_of_true (relocatesRight_word harm hthumb) hharmless

theorem relocatesRight_iff_call :
    RelocatesRight 28 (writeWord (fun _ => 0) 0x1000 4 0xebfffffe) 0x1000 0x2000 :=
  (relocatesRight_iff 28 _ _ _ (by decide)).mpr ⟨by decide +kernel, by decide +kernel, by decide +kernel⟩

/-- `bl` of Thumb from 0x20000000 to 0x20000100 changes the byte at 0x20000008. -/
theorem thumbCall_strays :
    ¬ RelocatesRight 10 (writeWord (fun _ => 0) 0x20000000 4 0xfffef7ff) 0x20000000
      0x20000101 := by
  intro hright
  have hbyte := hright.only (by decide +kernel) 0x20000008 (by decide)
  exact absurd hbyte (by decide +kernel)

end Kinds

end RtThread.Libdl
