import RtThread.Kservice.Numeral

namespace RtThread.Kservice

open VaList

inductive FlagChar
  | minus
  | plus
  | space
  | zero
  | hash
  deriving DecidableEq

def FlagChar.char : FlagChar → UInt8
  | .minus => '-'.toUInt8
  | .plus => '+'.toUInt8
  | .space => ' '.toUInt8
  | .zero => '0'.toUInt8
  | .hash => '#'.toUInt8

/-- A width is an `int`; one that begins with 0 is a flag. -/
inductive Width
  | none
  | digits (w : Nat) (pos : 0 < w) (lt : w < 2 ^ 31)
  | star (word : BitVec 32)

inductive Precision
  | none
  | point
  | digits (p : Nat) (lt : p < 2 ^ 31)
  | star (word : BitVec 32)

inductive Conversion
  | d
  | i
  | u
  | x
  | X
  | o
  deriving DecidableEq

namespace Conversion

def char : Conversion → UInt8
  | d => 'd'.toUInt8
  | i => 'i'.toUInt8
  | u => 'u'.toUInt8
  | x => 'x'.toUInt8
  | X => 'X'.toUInt8
  | o => 'o'.toUInt8

def base : Conversion → Nat
  | d | i | u => 10
  | x | X => 16
  | o => 8

def signed : Conversion → Bool
  | d | i => true
  | u | x | X | o => false

end Conversion

structure IntegerDirective where
  flags : List FlagChar
  width : Width
  precision : Precision
  conversion : Conversion

def Width.text : Width → List UInt8
  | none => []
  | digits w _ _ => numeral false 10 w
  | star _ => ['*'.toUInt8]

def Width.words : Width → List (BitVec 32)
  | star word => [word]
  | _ => []

def Precision.text : Precision → List UInt8
  | none => []
  | point => ['.'.toUInt8]
  | digits p _ => '.'.toUInt8 :: numeral false 10 p
  | star _ => ['.'.toUInt8, '*'.toUInt8]

def Precision.words : Precision → List (BitVec 32)
  | star word => [word]
  | _ => []

def VaList.prepend (words : List (BitVec 32)) (rest : VaList) : VaList := fun i =>
  (words[i]?).getD (rest (i - words.length))

namespace IntegerDirective

def format (dir : IntegerDirective) : List UInt8 :=
  '%'.toUInt8 :: (dir.flags.map FlagChar.char ++
    (dir.width.text ++ (dir.precision.text ++ [dir.conversion.char])))

def args (dir : IntegerDirective) (value : BitVec 32) (rest : VaList) : VaList :=
  rest.prepend (dir.width.words ++ (dir.precision.words ++ [value]))

end IntegerDirective

/-- `field_width` as it should be: that of the smallest `int` has no room in an `int`. -/
def Width.size : Width → Int
  | none => -1
  | digits w _ _ => w
  | star word => word.toInt.natAbs

/-- A negative width gives the flag `-`. -/
def Width.left : Width → Bool
  | star word => decide (word.toInt < 0)
  | _ => false

def Precision.least : Precision → Nat
  | none => 0
  | point => 0
  | digits p _ => p
  | star word => word.toInt.toNat

def Precision.read : Precision → Int
  | none => -1
  | precision => precision.least

def IntegerDirective.readFlags (dir : IntegerDirective) : PrintFlags where
  zeropad := decide (.zero ∈ dir.flags)
  sign := false
  plus := decide (.plus ∈ dir.flags)
  space := decide (.space ∈ dir.flags)
  left := decide (.minus ∈ dir.flags) || dir.width.left
  special := decide (.hash ∈ dir.flags)
  large := false

section Reading

variable {rest : List UInt8} {args : VaList} {flags : PrintFlags}

@[simp] theorem VaList.prepend_nil : args.prepend [] = args := rfl

@[simp] theorem VaList.prepend_zero (word : BitVec 32) (words : List (BitVec 32)) :
    args.prepend (word :: words) 0 = word := rfl

@[simp] theorem VaList.next_prepend (word : BitVec 32) (words : List (BitVec 32)) :
    (args.prepend (word :: words)).next = args.prepend words := by
  funext i
  simp [next, prepend]

def NoDigit (rest : List UInt8) : Prop := ∀ c ∈ rest.head?, isdigit c = false

theorem isdigit_digitChar {digit : Nat} (hdigit : digit < 10) :
    isdigit (digitChar false digit) = true ∧ (digitChar false digit).toNat = 48 + digit := by
  have hall : ∀ d < 10, isdigit (digitChar false d) = true ∧
      (digitChar false d).toNat = 48 + d := by decide
  exact hall digit hdigit

theorem skipAtoi_digits {digits : List Nat} (hdigits : ∀ d ∈ digits, d < 10)
    (hrest : NoDigit rest) (i : Nat) :
    skipAtoi (int32 i) (digits.map (digitChar false) ++ rest) =
      (int32 (digits.foldl (fun n d => n * 10 + d) i : Nat), rest) := by
  induction digits generalizing i with
  | nil =>
    cases rest with
    | nil => rfl
    | cons c rest =>
      have hc : isdigit c = false := hrest c rfl
      simp [skipAtoi, hc]
  | cons d digits ih =>
    obtain ⟨hd, hdigits⟩ := List.forall_mem_cons.mp hdigits
    obtain ⟨hdigit, hvalue⟩ := isdigit_digitChar hd
    have hnext : int32 (int32 i * 10 + ((digitChar false d).toNat : Nat) - 48) =
        int32 ((i * 10 + d : Nat) : Int) := by
      rw [hvalue]
      simp only [int32]
      omega
    rw [List.map_cons, List.cons_append, skipAtoi, if_pos hdigit, hnext, ih hdigits,
      List.foldl_cons]

theorem foldl_digits (w : Nat) : (Nat.digits 10 w).reverse.foldl (fun n d => n * 10 + d) 0 = w := by
  rw [List.foldl_reverse]
  conv_rhs => rw [← Nat.ofDigits_digits 10 w, Nat.ofDigits_eq_foldr]
  congr 1
  funext d n
  rw [Nat.mul_comm, Nat.add_comm]
  rfl

theorem skipAtoi_numeral {w : Nat} (hw : w < 2 ^ 31) (hrest : NoDigit rest) :
    skipAtoi 0 (numeral false 10 w ++ rest) = ((w : Int), rest) := by
  have hzero : (0 : Int) = int32 (0 : Nat) := rfl
  have hint : int32 w = w := by
    simp only [int32]
    omega
  unfold numeral
  split
  next h =>
    have hread := skipAtoi_digits (show ∀ d ∈ [0], d < 10 by decide) hrest 0
    rw [hzero, h]
    exact hread
  · have hdigits : ∀ d ∈ (Nat.digits 10 w).reverse, d < 10 := fun d hd =>
      Nat.digits_lt_base (by decide) (List.mem_reverse.mp hd)
    rw [hzero, skipAtoi_digits hdigits hrest, foldl_digits, hint]

theorem numeral_head (w : Nat) : ∃ digit text, numeral false 10 w = digitChar false digit :: text ∧
    digit < 10 ∧ (0 < w → digit ≠ 0) := by
  unfold numeral
  split
  next h => exact ⟨0, [], rfl, by decide, fun hpos => by omega⟩
  next hne =>
    have hnil : Nat.digits 10 w ≠ [] := Nat.digits_ne_nil_iff_ne_zero.mpr hne
    have hlast := Nat.getLast_digit_ne_zero 10 hne
    have hmem := List.getLast_mem hnil
    refine ⟨(Nat.digits 10 w).getLast hnil,
      (Nat.digits 10 w).dropLast.reverse.map (digitChar false), ?_,
      Nat.digits_lt_base (by decide) hmem, fun _ => hlast⟩
    conv_lhs => rw [← List.dropLast_append_getLast hnil]
    rw [List.reverse_append, List.reverse_singleton, List.singleton_append, List.map_cons]

def NoFlag (rest : List UInt8) : Prop := ∀ c ∈ rest.head?, ∀ f : FlagChar, c ≠ f.char

theorem readFlags_map (fs : List FlagChar) (hrest : NoFlag rest) :
    readFlags flags (fs.map FlagChar.char ++ rest) =
      ({ flags with
          zeropad := flags.zeropad || decide (.zero ∈ fs)
          plus := flags.plus || decide (.plus ∈ fs)
          space := flags.space || decide (.space ∈ fs)
          left := flags.left || decide (.minus ∈ fs)
          special := flags.special || decide (.hash ∈ fs) }, rest) := by
  induction fs generalizing flags with
  | nil =>
    cases rest with
    | nil => simp [readFlags]
    | cons c rest =>
      have hc := hrest c rfl
      have hminus : c ≠ '-'.toUInt8 := hc .minus
      have hplus : c ≠ '+'.toUInt8 := hc .plus
      have hspace : c ≠ ' '.toUInt8 := hc .space
      have hzero : c ≠ '0'.toUInt8 := hc .zero
      have hhash : c ≠ '#'.toUInt8 := hc .hash
      simp [readFlags, hminus, hplus, hspace, hzero, hhash]
  | cons f fs ih =>
    rw [List.map_cons, List.cons_append]
    cases f <;> simp +decide [readFlags, ih]

theorem toInt_bounds (word : BitVec 32) : -2 ^ 31 ≤ word.toInt ∧ word.toInt < 2 ^ 31 := by
  have hle := word.le_two_mul_toInt
  have hlt := word.two_mul_toInt_lt
  omega

theorem readWidth_text (width : Width) (hrest : NoDigit rest)
    (hstar : rest.head? ≠ some '*'.toUInt8) :
    readWidth flags (width.text ++ rest) (args.prepend width.words) =
      (int32 width.size, { flags with left := flags.left || width.left }, rest, args) := by
  cases width with
  | none =>
    cases rest with
    | nil => simp [readWidth, Width.text, Width.words, Width.size, Width.left, int32]
    | cons c rest =>
      have hdigit : isdigit c = false := hrest c rfl
      have hne : c ≠ '*'.toUInt8 := fun h => hstar (by rw [h]; rfl)
      simp [readWidth, Width.text, Width.words, Width.size, Width.left, int32, hdigit, hne]
  | digits w hpos hlt =>
    obtain ⟨digit, text, htext, hdigit, -⟩ := numeral_head w
    have hread := skipAtoi_numeral hlt hrest
    have hint : int32 w = w := by
      simp only [int32]
      omega
    simp only [Width.text, Width.words, Width.size, Width.left, prepend_nil, Bool.or_false, hint]
    rw [htext] at hread ⊢
    rw [List.cons_append, readWidth, if_pos (isdigit_digitChar hdigit).1]
    rw [List.cons_append] at hread
    rw [hread]
  | star word =>
    have hbounds := toInt_bounds word
    have hdigit : isdigit '*'.toUInt8 = false := by decide
    simp only [Width.text, Width.words, Width.size, Width.left, List.singleton_append]
    rw [readWidth, hdigit]
    simp only [Bool.false_eq_true, if_false, if_true, prepend_zero, next_prepend, prepend_nil]
    split
    next hneg =>
      have habs : -word.toInt = word.toInt.natAbs := by omega
      simp [hneg, habs]
    next hpos =>
      have hint : int32 word.toInt.natAbs = word.toInt := by
        simp only [int32]
        omega
      rw [hint]
      simp [hpos]

theorem readPrecision_text (precision : Precision) (hrest : NoDigit rest)
    (hstar : rest.head? ≠ some '*'.toUInt8) (hpoint : rest.head? ≠ some '.'.toUInt8) :
    readPrecision (precision.text ++ rest) (args.prepend precision.words) =
      (precision.read, rest, args) := by
  cases precision with
  | none =>
    cases rest with
    | nil => rfl
    | cons c rest =>
      have hne : c ≠ '.'.toUInt8 := fun h => hpoint (by rw [h]; rfl)
      simp [readPrecision, Precision.text, Precision.words, Precision.read, hne]
  | point =>
    cases rest with
    | nil => simp [readPrecision, readDigits, Precision.text, Precision.words,
        Precision.read, Precision.least]
    | cons c rest =>
      have hdigit : isdigit c = false := hrest c rfl
      have hne : c ≠ '*'.toUInt8 := fun h => hstar (by rw [h]; rfl)
      simp [readPrecision, readDigits, Precision.text, Precision.words,
        Precision.read, Precision.least, hdigit, hne]
  | digits p hlt =>
    obtain ⟨digit, text, htext, hdigit, -⟩ := numeral_head p
    have hread := skipAtoi_numeral hlt hrest
    have hneg : ¬ (p : Int) < 0 := by omega
    simp only [Precision.text, Precision.words, prepend_nil, Precision.read,
      Precision.least, List.cons_append]
    rw [readPrecision, if_pos rfl]
    rw [htext, List.cons_append] at hread ⊢
    rw [readDigits, if_pos (isdigit_digitChar hdigit).1, hread]
    simp only [hneg, if_false]
  | star word =>
    have hdigit : isdigit '*'.toUInt8 = false := by decide
    simp only [Precision.text, Precision.words, Precision.read, Precision.least,
      List.cons_append, List.nil_append]
    rw [readPrecision, if_pos rfl, readDigits, hdigit]
    simp only [Bool.false_eq_true, if_false, if_true, prepend_zero, next_prepend, prepend_nil]
    congr 1
    split <;> omega

theorem VaList.prepend_append (xs ys : List (BitVec 32)) :
    args.prepend (xs ++ ys) = (args.prepend ys).prepend xs := by
  funext i
  unfold prepend
  rcases Nat.lt_or_ge i xs.length with hlt | hge
  · rw [List.getElem?_append_left hlt, List.getElem?_eq_getElem hlt]
    rfl
  · rw [List.getElem?_append_right hge, List.getElem?_eq_none hge, List.length_append,
      Option.getD_none, Nat.sub_sub]

theorem head_precision (precision : Precision) (conversion : Conversion) :
    (precision.text ++ [conversion.char]).head? = some '.'.toUInt8 ∨
      (precision.text ++ [conversion.char]).head? = some conversion.char := by
  cases precision with
  | none => exact .inr rfl
  | point => exact .inl rfl
  | digits p hlt => exact .inl rfl
  | star word => exact .inl rfl

theorem noDigit_precision (precision : Precision) (conversion : Conversion) :
    NoDigit (precision.text ++ [conversion.char]) := by
  intro c hc
  rcases head_precision precision conversion with h | h
  · rw [h] at hc
    cases hc
    decide
  · rw [h] at hc
    cases hc
    cases conversion <;> decide

theorem noFlag_width (width : Width) (precision : Precision) (conversion : Conversion) :
    NoFlag (width.text ++ (precision.text ++ [conversion.char])) := by
  intro c hc f
  cases width with
  | none =>
    rw [Width.text, List.nil_append] at hc
    rcases head_precision precision conversion with h | h
    · rw [h] at hc
      cases hc
      cases f <;> decide
    · rw [h] at hc
      cases hc
      cases conversion <;> cases f <;> decide
  | digits w hpos hlt =>
    obtain ⟨digit, text, htext, hdigit, hne⟩ := numeral_head w
    rw [Width.text, htext, List.cons_append] at hc
    cases hc
    have hall : ∀ d < 10, d ≠ 0 → ∀ f : FlagChar, digitChar false d ≠ f.char := by
      intro d hd hne f
      revert d
      cases f <;> decide
    exact hall digit hdigit (hne hpos) f
  | star word =>
    cases hc
    cases f <;> decide

theorem readDirective_format (dir : IntegerDirective) (value : BitVec 32) (rest : VaList) :
    readDirective dir.format.tail (dir.args value rest) =
      (⟨dir.readFlags, int32 dir.width.size, dir.precision.read, .none,
        some dir.conversion.char⟩, [], rest.prepend [value]) := by
  obtain ⟨flags, width, precision, conversion⟩ := dir
  have hwidth : (precision.text ++ [conversion.char]).head? ≠ some '*'.toUInt8 := by
    rcases head_precision precision conversion with h | h
    · rw [h]
      decide
    · rw [h]
      cases conversion <;> decide
  have hdigit : NoDigit [conversion.char] := noDigit_precision .none conversion
  have hstar : [conversion.char].head? ≠ some '*'.toUInt8 := by cases conversion <;> decide
  have hpoint : [conversion.char].head? ≠ some '.'.toUInt8 := by cases conversion <;> decide
  have hqualifier : readQualifier [conversion.char] = (.none, [conversion.char]) := by
    cases conversion <;> rfl
  unfold readDirective
  simp only [IntegerDirective.format, IntegerDirective.args, List.tail_cons,
    prepend_append, readFlags_map flags (noFlag_width width precision conversion),
    readWidth_text width (noDigit_precision precision conversion) hwidth,
    readPrecision_text precision hdigit hstar hpoint, hqualifier]
  simp [IntegerDirective.readFlags, noFlags]

end Reading

end RtThread.Kservice
