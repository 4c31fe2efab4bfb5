import RtThread.Kservice.Directive
import RtThread.Kservice.Truncation

namespace RtThread.Kservice

open NumberTail

def Width.value : Width → Nat
  | none => 0
  | digits w _ _ => w
  | star word => word.toInt.natAbs

def layout (left zeropad : Bool) (sign : Option UInt8) (special digits : List UInt8)
    (padding : Nat) : List UInt8 :=
  if left then sign.toList ++ (special ++ (digits ++ List.replicate padding ' '.toUInt8))
  else if zeropad then
    sign.toList ++ (special ++ (List.replicate padding '0'.toUInt8 ++ digits))
  else List.replicate padding ' '.toUInt8 ++ (sign.toList ++ (special ++ digits))

/-- How often `size` is counted down when no width is left: behind each loop, and at a sign. -/
def countdown (left zeropad : Bool) (sign : Option UInt8) : Nat :=
  sign.toList.length + (if left then 0 else if zeropad then 1 else 2)

namespace IntegerDirective

variable (cfg : FormatConfig) (dir : IntegerDirective) (value : BitVec 32)

def left : Bool := decide (.minus ∈ dir.flags) || dir.width.left

def zeropad : Bool := decide (.zero ∈ dir.flags) && !dir.left

def sign : Option UInt8 :=
  if dir.conversion.signed then
    if value.toInt < 0 then some '-'.toUInt8
    else if .plus ∈ dir.flags then some '+'.toUInt8
    else if .space ∈ dir.flags then some ' '.toUInt8
    else none
  else none

def magnitude : Nat := if dir.conversion.signed then value.toInt.natAbs else value.toNat

/-- The prefix, where `RT_PRINTF_SPECIAL` has `#` ask for one. -/
def special : List UInt8 :=
  if cfg.printfSpecial && decide (.hash ∈ dir.flags) then
    match dir.conversion with
    | .x => chars "0x"
    | .X => chars "0X"
    | .o => chars "0"
    | _ => []
  else []

def numeral : List UInt8 :=
  Kservice.numeral (dir.conversion == .X) dir.conversion.base (dir.magnitude value)

def digits : List UInt8 :=
  List.replicate (dir.precision.least - (dir.numeral value).length) '0'.toUInt8 ++ dir.numeral value

def unpadded : Nat :=
  (dir.sign value).toList.length + (dir.special cfg).length + (dir.digits value).length

def text : List UInt8 :=
  layout dir.left dir.zeropad (dir.sign value) (dir.special cfg) (dir.digits value)
    (dir.width.value - dir.unpadded cfg value)

def countdown : Nat := Kservice.countdown dir.left dir.zeropad (dir.sign value)

/-- `divide` knows no base 8, and `size` is an `int`. -/
def Exact : Prop :=
  (dir.conversion = .o → value.toNat < 8) ∧
    ((dir.special cfg).length + (dir.digits value).length + dir.countdown value : Int) ≤
      2 ^ 31 + dir.width.size

end IntegerDirective

def paddedText (left zeropad : Bool) (sign : Option UInt8) (special digits : List UInt8)
    (size : Int) : List UInt8 :=
  let c := if zeropad then '0'.toUInt8 else ' '.toUInt8
  let (size, before) :=
    if zeropad || left then (size, [])
    else padText ' '.toUInt8 0 (if sign.isSome ∧ 0 < size then size - 1 else size)
  before ++ (sign.toList ++
    NumberTail.text ⟨c, left, special, digits⟩ (if sign.isSome then int32 (size - 1) else size))

section Padding

variable {left zeropad : Bool} {sign : Option UInt8} {special digits : List UInt8} {size : Int}

theorem text_numberPiece (cfg : FormatConfig) (num : Int) (base : Nat) (s precision : Int)
    (type : PrintFlags) :
    (numberPiece cfg num base s precision type).text true =
      paddedText type.left (type.zeropad && !type.left) (numberSign type num).1
        (numberPrefix cfg type base)
        (preciseDigits type.large base ((numberSign type num).2 % 2 ^ 32).toNat precision)
        (numberSize s precision (numberPrefix cfg type base)
          (numberDigits type.large base ((numberSign type num).2 % 2 ^ 32).toNat)) := by
  unfold numberPiece paddedText
  generalize numberSign type num = signed
  obtain ⟨sign, num⟩ := signed
  cases sign with
  | none => rfl
  | some c => simp [Piece.text]

theorem length_layout (padding : Nat) :
    (layout left zeropad sign special digits padding).length =
      sign.toList.length + special.length + digits.length + padding := by
  unfold layout
  cases left <;> cases zeropad <;> simp <;> omega

theorem NumberTail.text_eq (tail : NumberTail) (hsize : size < 2 ^ 31)
    (hlow : tail.left = true ∨ -2 ^ 31 < size) :
    tail.text size = tail.special ++
      ((if tail.left then [] else List.replicate size.toNat tail.c) ++ (tail.digits ++
        if tail.left then List.replicate size.toNat ' '.toUInt8 else [])) := by
  unfold text padText
  cases hleft : tail.left with
  | true => simp
  | false =>
    have hlast : (int32 (min size 0 - 1)).toNat = 0 := by
      rw [hleft] at hlow
      have hlow := hlow.resolve_left Bool.false_ne_true
      simp only [int32]
      omega
    simp [hlast]

theorem paddedText_eq (hzero : zeropad = true → left = false)
    (hlow : -2 ^ 31 + (countdown left zeropad sign : Int) ≤ size) (hhigh : size < 2 ^ 31) :
    paddedText left zeropad sign special digits (int32 size) =
      layout left zeropad sign special digits (size - sign.toList.length).toNat := by
  have hint : int32 size = size := by
    simp only [int32]
    omega
  -- behind a sign
  have hless : sign.isSome → int32 (size - 1) = size - 1 := by
    intro hsign
    unfold countdown at hlow
    cases sign with
    | none => cases hsign
    | some c =>
      simp only [Option.toList_some, List.length_singleton] at hlow
      simp only [int32]
      omega
  rw [hint]
  unfold paddedText layout
  unfold countdown at hlow
  cases left with
  | true =>
    cases sign with
    | none => simp [text_eq ⟨_, true, special, digits⟩ hhigh (.inl rfl)]
    | some c =>
      have hnext : size - 1 < 2 ^ 31 := by omega
      simp [hless rfl, text_eq ⟨_, true, special, digits⟩ hnext (.inl rfl)]
  | false =>
    cases zeropad with
    | true =>
      cases sign with
      | none =>
        have hfrom : -2 ^ 31 < size := by
          simp only [Option.toList_none, List.length_nil, Bool.false_eq_true, if_false,
            if_true] at hlow
          omega
        simp [text_eq ⟨_, false, special, digits⟩ hhigh (.inr hfrom)]
      | some c =>
        have hfrom : -2 ^ 31 < size - 1 := by
          simp only [Option.toList_some, List.length_singleton, Bool.false_eq_true,
            if_false, if_true] at hlow
          omega
        have hnext : size - 1 < 2 ^ 31 := by omega
        simp [hless rfl, text_eq ⟨_, false, special, digits⟩ hnext (.inr hfrom)]
    | false =>
      cases sign with
      | none =>
        simp only [Option.toList_none, List.length_nil, Bool.false_eq_true, if_false]
          at hlow
        have hafter : int32 (min size 0 - 1) = min size 0 - 1 := by
          simp only [int32]
          omega
        have hnext : min size 0 - 1 < 2 ^ 31 := by omega
        have hfrom : -2 ^ 31 < min size 0 - 1 := by omega
        have hnone : (min size 0 - 1).toNat = 0 := by omega
        simp [padText, hafter, hnone, text_eq ⟨_, false, special, digits⟩ hnext (.inr hfrom)]
      | some c =>
        simp only [Option.toList_some, List.length_singleton, Bool.false_eq_true, if_false] at hlow
        -- the sign is taken out of the width first
        have hwidth : (if 0 < size then size - 1 else size).toNat = (size - 1).toNat := by
          split <;> omega
        have hafter : int32 (int32 (min (if 0 < size then size - 1 else size) 0 - 1) - 1) =
            min (if 0 < size then size - 1 else size) 0 - 2 := by
          simp only [int32]
          split <;> omega
        have hnext : min (if 0 < size then size - 1 else size) 0 - 2 < 2 ^ 31 := by
          omega
        have hfrom : -2 ^ 31 < min (if 0 < size then size - 1 else size) 0 - 2 := by
          split <;> omega
        have hnone : (min (if 0 < size then size - 1 else size) 0 - 2).toNat = 0 := by
          omega
        simp [padText, hwidth, hafter, hnone,
          text_eq ⟨_, false, special, digits⟩ hnext (.inr hfrom)]

theorem length_paddedText_lt (hzero : zeropad = true → left = false)
    (hlow : -2 ^ 31 - 2 ≤ size)
    (hwraps : size < -2 ^ 31 + (countdown left zeropad sign : Int)) :
    sign.toList.length + special.length + digits.length <
      (paddedText left zeropad sign special digits (int32 size)).length := by
  unfold paddedText countdown at *
  cases left with
  | true =>
    cases zeropad with
    | true => cases hzero rfl
    | false =>
      cases sign <;> simp [length_text, int32] at hwraps ⊢ <;> omega
  | false =>
    cases zeropad with
    | true =>
      cases sign <;> simp [length_text, int32] at hwraps ⊢ <;> omega
    | false =>
      cases sign <;> simp [length_text, padText, int32] at hwraps ⊢ <;> omega

theorem filter_digits (hdigits : ∀ c ∈ digits, c ≠ ' '.toUInt8) :
    digits.filter (· ≠ ' '.toUInt8) = digits :=
  List.filter_eq_self.mpr fun c hc => decide_eq_true (hdigits c hc)

theorem filter_spaces (n : Nat) : (List.replicate n ' '.toUInt8).filter (· ≠ ' '.toUInt8) = [] := by
  simp

theorem filter_zeros (n : Nat) :
    (List.replicate n '0'.toUInt8).filter (· ≠ ' '.toUInt8) = List.replicate n '0'.toUInt8 := by
  rw [List.filter_replicate, if_pos (by decide)]

theorem filter_paddedText (hspecial : ∀ c ∈ special, c ≠ ' '.toUInt8)
    (hdigits : ∀ c ∈ digits, c ≠ ' '.toUInt8) :
    ∃ k, (paddedText left zeropad none special digits size).filter (· ≠ ' '.toUInt8) =
      special ++ (List.replicate k '0'.toUInt8 ++ digits) := by
  unfold paddedText text padText
  cases left with
  | true =>
    refine ⟨0, ?_⟩
    cases zeropad <;> simp only [List.filter_append, filter_digits hspecial,
      filter_digits hdigits, filter_spaces] <;> simp
  | false =>
    cases zeropad with
    | true =>
      refine ⟨size.toNat, ?_⟩
      simp only [if_true, Bool.true_or, Bool.false_eq_true, if_false, List.filter_append,
        filter_digits hspecial, filter_digits hdigits, filter_spaces, filter_zeros]
      simp
    | false =>
      refine ⟨0, ?_⟩
      simp only [List.filter_append, filter_digits hspecial, filter_digits hdigits, filter_spaces]
      simp

theorem filter_layout (hspecial : ∀ c ∈ special, c ≠ ' '.toUInt8)
    (hdigits : ∀ c ∈ digits, c ≠ ' '.toUInt8) (padding : Nat) :
    ∃ k, (layout left zeropad none special digits padding).filter (· ≠ ' '.toUInt8) =
      special ++ (List.replicate k '0'.toUInt8 ++ digits) := by
  unfold layout
  cases left with
  | true =>
    refine ⟨0, ?_⟩
    simp only [List.filter_append, filter_digits hspecial, filter_digits hdigits, filter_spaces,
      if_true]
    simp
  | false =>
    cases zeropad with
    | true =>
      refine ⟨padding, ?_⟩
      simp only [List.filter_append, filter_digits hspecial, filter_digits hdigits,
        filter_zeros, if_true, Bool.false_eq_true, if_false]
      simp
    | false =>
      refine ⟨0, ?_⟩
      simp only [List.filter_append, filter_digits hspecial, filter_digits hdigits,
        filter_spaces, Bool.false_eq_true, if_false]
      simp

end Padding

namespace IntegerDirective

variable (cfg : FormatConfig) (string : BitVec 32 → List UInt8) (dir : IntegerDirective)
  (value : BitVec 32) (rest : VaList)

def printFlags : PrintFlags :=
  { dir.readFlags with sign := dir.conversion.signed, large := dir.conversion == .X }

theorem convertPiece_format (args : VaList) (width precision : Int) :
    convertPiece cfg string
        ⟨dir.readFlags, width, precision, .none, some dir.conversion.char⟩ args =
      (args.next, numberPiece cfg (args 0).toInt dir.conversion.base width precision
        dir.printFlags) := by
  obtain ⟨flags, w, p, conversion⟩ := dir
  cases conversion <;> rfl

theorem formatText_format :
    formatText cfg string dir.format (dir.args value rest) =
      (numberPiece cfg value.toInt dir.conversion.base (int32 dir.width.size) dir.precision.read
        dir.printFlags).text true := by
  have hread := readDirective_format dir value rest
  unfold formatText piecesOf
  rw [format] at hread ⊢
  rw [List.tail_cons] at hread
  rw [List.length_cons, formatPieces, if_pos rfl, hread]
  dsimp only
  rw [convertPiece_format]
  simp [formatPieces, piecesText]

theorem numberSign_printFlags :
    (numberSign dir.printFlags value.toInt).1 = dir.sign value ∧
      ((numberSign dir.printFlags value.toInt).2 % 2 ^ 32).toNat = dir.magnitude value := by
  have hbounds := toInt_bounds value
  have hunsigned : (value.toInt % 2 ^ 32).toNat = value.toNat := by
    rw [BitVec.toInt_eq_toNat_cond]
    have hlt := value.isLt
    split <;> omega
  unfold numberSign sign magnitude printFlags readFlags
  cases dir.conversion.signed with
  | false => exact ⟨rfl, hunsigned⟩
  | true =>
    simp only [if_true, decide_eq_true_eq]
    split
    · refine ⟨rfl, ?_⟩
      simp only [int32]
      omega
    · split
      · exact ⟨rfl, by omega⟩
      · split
        · exact ⟨rfl, by omega⟩
        · exact ⟨rfl, by omega⟩

theorem numberPrefix_printFlags :
    numberPrefix cfg dir.printFlags dir.conversion.base = dir.special cfg := by
  obtain ⟨flags, w, p, conversion⟩ := dir
  unfold numberPrefix special printFlags readFlags
  cases conversion <;> rfl

theorem magnitude_lt : dir.magnitude value < 2 ^ 32 := by
  have hbounds := toInt_bounds value
  have hlt := value.isLt
  unfold magnitude
  split
  · omega
  · exact hlt

def codeNumeral : List UInt8 :=
  Kservice.numeral (dir.conversion == .X) (divideBase dir.conversion.base) (dir.magnitude value)

def codeDigits : List UInt8 :=
  List.replicate (dir.precision.least - (dir.codeNumeral value).length) '0'.toUInt8 ++
    dir.codeNumeral value

theorem length_numberDigits_le (large : Bool) (base num : Nat) :
    (numberDigits large base num).length ≤ 16 := by
  have hput : ∀ room num, (putDigits large base room num).length ≤ room := by
    intro room
    induction room with
    | zero => exact fun _ => Nat.le_refl _
    | succ room ih =>
      intro num
      rw [putDigits]
      split
      · exact Nat.zero_le _
      · exact Nat.succ_le_succ (ih _)
  unfold numberDigits
  split
  · exact Nat.le_of_ble_eq_true rfl
  · exact hput 16 num

theorem length_codeNumeral_le : (dir.codeNumeral value).length ≤ 16 := by
  rw [codeNumeral, ← reverse_numberDigits _ _ (magnitude_lt dir value), List.length_reverse]
  exact length_numberDigits_le ..

theorem length_codeDigits :
    (dir.codeDigits value).length = max dir.precision.least (dir.codeNumeral value).length := by
  rw [codeDigits, List.length_append, List.length_replicate]
  omega

theorem precision_read (length : Nat) :
    (if dir.precision.read < (length : Int) then (length : Int) else dir.precision.read) =
      max dir.precision.least length := by
  cases dir.precision <;> simp only [Precision.read, Precision.least] <;> omega

theorem formatText_eq :
    formatText cfg string dir.format (dir.args value rest) =
      paddedText dir.left dir.zeropad (dir.sign value) (dir.special cfg) (dir.codeDigits value)
        (int32 (dir.width.size - (dir.special cfg).length - (dir.codeDigits value).length)) := by
  obtain ⟨hsign, hmagnitude⟩ := numberSign_printFlags dir value
  have hreverse := reverse_numberDigits (dir.conversion == .X) dir.conversion.base
    (magnitude_lt dir value)
  rw [formatText_format, text_numberPiece, hsign, hmagnitude, numberPrefix_printFlags]
  have hlarge : dir.printFlags.large = (dir.conversion == .X) := rfl
  have hleft : dir.printFlags.left = dir.left := rfl
  have hzeropad : (dir.printFlags.zeropad && !dir.left) = dir.zeropad := rfl
  rw [hlarge, hleft, hzeropad]
  have hlength : (numberDigits (dir.conversion == .X) dir.conversion.base
      (dir.magnitude value)).length = (dir.codeNumeral value).length := by
    rw [codeNumeral, ← hreverse, List.length_reverse]
  have hread := precision_read dir (dir.codeNumeral value).length
  have hdigits : preciseDigits (dir.conversion == .X) dir.conversion.base (dir.magnitude value)
      dir.precision.read = dir.codeDigits value := by
    unfold preciseDigits codeDigits
    dsimp only
    rw [hlength, hread, hreverse, ← codeNumeral]
    congr 2
    omega
  have hsize : numberSize (int32 dir.width.size) dir.precision.read (dir.special cfg)
      (numberDigits (dir.conversion == .X) dir.conversion.base (dir.magnitude value)) =
      int32 (dir.width.size - (dir.special cfg).length - (dir.codeDigits value).length) := by
    unfold numberSize
    dsimp only
    rw [hlength, hread, length_codeDigits]
    simp only [int32]
    omega
  rw [hdigits, hsize]

end IntegerDirective

end RtThread.Kservice
