import Mathlib.Data.Nat.Digits.Lemmas
import RtThread.Kservice.FormatText

namespace RtThread.Kservice

def numeral (large : Bool) (base num : Nat) : List UInt8 :=
  if num = 0 then [digitChar large 0]
  else (Nat.digits base num).reverse.map (digitChar large)

def divideBase (base : Nat) : Nat := if base = 10 then 10 else 16

section Digits

variable {large : Bool} {base room num digit : Nat}

theorem divide_eq (num base : Nat) :
    divide num base = (num % divideBase base, num / divideBase base) := by
  unfold divide divideBase
  split <;> rfl

theorem divideBase_gt (base : Nat) : 1 < divideBase base := by
  unfold divideBase
  split <;> decide

theorem putDigits_eq (large : Bool) (base : Nat) (hnum : num < divideBase base ^ room) :
    putDigits large base room num = (Nat.digits (divideBase base) num).map (digitChar large) := by
  have hbase := divideBase_gt base
  induction room generalizing num with
  | zero =>
    rw [Nat.pow_zero, Nat.lt_one_iff] at hnum
    subst hnum
    simp [putDigits]
  | succ room ih =>
    rw [putDigits]
    split
    next hzero => simp [hzero]
    next hne =>
      have hrest : num / divideBase base < divideBase base ^ room := by
        apply Nat.div_lt_of_lt_mul
        rwa [← Nat.pow_succ']
      rw [Nat.digits_def' hbase (Nat.pos_of_ne_zero hne), List.map_cons, divide_eq]
      dsimp only
      rw [ih hrest]

theorem reverse_numberDigits (large : Bool) (base : Nat) (hnum : num < 2 ^ 32) :
    (numberDigits large base num).reverse = numeral large (divideBase base) num := by
  have hroom : num < divideBase base ^ 16 := by
    refine Nat.lt_of_lt_of_le hnum ?_
    unfold divideBase
    split <;> decide
  unfold numberDigits numeral
  split
  · rfl
  · rw [putDigits_eq large base hroom, List.map_reverse]

theorem length_numeral_pos : 0 < (numeral large base num).length := by
  unfold numeral
  split
  · exact Nat.one_pos
  next hne =>
    rw [List.length_map, List.length_reverse]
    exact List.length_pos_iff.mpr (Nat.digits_ne_nil_iff_ne_zero.mpr hne)

theorem numeral_small {base' : Nat} (hbase : num < base)
    (hbase' : num < base') : numeral large base num = numeral large base' num := by
  unfold numeral
  split
  · rfl
  next hne => rw [Nat.digits_of_lt base num hne hbase, Nat.digits_of_lt base' num hne hbase']

def digitValue (c : UInt8) : Nat := if c.toNat < 58 then c.toNat - 48 else c.toNat - 87

theorem digitValue_digitChar (hdigit : digit < 16) : digitValue (digitChar false digit) = digit := by
  have hall : ∀ d < 16, digitValue (digitChar false d) = d := by decide
  exact hall digit hdigit

theorem digitChar_ne_space (hdigit : digit < 16) : digitChar false digit ≠ ' '.toUInt8 := by
  have hall : ∀ d < 16, digitChar false d ≠ ' '.toUInt8 := by decide
  exact hall digit hdigit

theorem numeral_ne_space (hlow : 1 < base) (hhigh : base ≤ 16) :
    ∀ c ∈ numeral false base num, c ≠ ' '.toUInt8 := by
  intro c hc
  unfold numeral at hc
  split at hc
  · rw [List.mem_singleton.mp hc]
    decide
  · obtain ⟨digit, hdigit, rfl⟩ := List.mem_map.mp hc
    have hlt := Nat.digits_lt_base hlow (List.mem_reverse.mp hdigit)
    exact digitChar_ne_space (Nat.lt_of_lt_of_le hlt hhigh)

theorem map_digitValue {digits : List Nat} (hdigits : ∀ d ∈ digits, d < 16) :
    (digits.map (digitChar false)).map digitValue = digits := by
  rw [List.map_map]
  calc
    digits.map (digitValue ∘ digitChar false) = digits.map id :=
      List.map_congr_left fun d hd => digitValue_digitChar (hdigits d hd)
    _ = digits := List.map_id _

theorem octal_ne_hex {zeros zeros' : Nat} (hnum : 8 ≤ num) :
    List.replicate zeros '0'.toUInt8 ++ numeral false 8 num ≠
      List.replicate zeros' '0'.toUInt8 ++ numeral false 16 num := by
  intro heq
  have hne : num ≠ 0 := by omega
  have hlt : ∀ d ∈ Nat.digits 8 num, d < 16 := fun d hd =>
    Nat.lt_trans (Nat.digits_lt_base (by decide) hd) (by decide)
  have hlt' : ∀ d ∈ Nat.digits 16 num, d < 16 := fun d hd => Nat.digits_lt_base (by decide) hd
  have hzero : digitValue '0'.toUInt8 = 0 := by decide
  -- the digits, the last one first
  have hdigits : Nat.digits 8 num ++ List.replicate zeros 0 =
      Nat.digits 16 num ++ List.replicate zeros' 0 := by
    have hvalues := congrArg (fun text : List UInt8 => (text.map digitValue).reverse) heq
    simpa [numeral, hne, List.map_reverse, map_digitValue hlt, map_digitValue hlt', hzero,
      -List.map_map] using hvalues
  have hoctal := congrArg (Nat.ofDigits 8) hdigits
  rw [Nat.ofDigits_append_replicate_zero, Nat.ofDigits_append_replicate_zero,
    Nat.ofDigits_digits, Nat.digits_def' (by decide) (Nat.pos_of_ne_zero hne),
    Nat.ofDigits_cons] at hoctal
  have hle := Nat.ofDigits_monotone (Nat.digits 16 (num / 16)) (show 8 ≤ 16 by decide)
  rw [Nat.ofDigits_digits] at hle
  have hlast := congrArg List.head? hdigits
  rw [Nat.digits_def' (by decide) (Nat.pos_of_ne_zero hne),
    Nat.digits_def' (by decide) (Nat.pos_of_ne_zero hne)] at hlast
  simp only [List.cons_append, List.head?_cons, Option.some.injEq] at hlast
  omega

end Digits

end RtThread.Kservice
