import Mathlib.Tactic.Linarith
import RtThread.Kservice.Format

namespace RtThread.Kservice

open Sink

def padText (c : UInt8) (bound width : Int) : Int × List UInt8 :=
  (int32 (min width bound - 1), List.replicate (width - bound).toNat c)

structure NumberTail where
  c : UInt8
  left : Bool
  special : List UInt8
  digits : List UInt8

def NumberTail.text (tail : NumberTail) (size : Int) : List UInt8 :=
  let (size, padding) := if tail.left then (size, []) else padText tail.c 0 size
  tail.special ++ padding ++ tail.digits ++ (padText ' '.toUInt8 0 size).2

inductive Piece
  | plain (text : List UInt8)
  /-- `size` is what is left of the width before the sign. -/
  | signed (before : List UInt8) (sign : UInt8) (tail : NumberTail) (size : Int)

namespace Piece

def before : Piece → List UInt8
  | plain _ => []
  | signed before _ _ _ => before

def text (stored : Bool) : Piece → List UInt8
  | plain text => text
  | signed before sign tail size =>
    before ++ sign :: tail.text (if stored then int32 (size - 1) else size)

end Piece

def Sink.putPiece (out : Sink) : Piece → Sink
  | .plain text => out.putAll text
  | .signed before sign tail size =>
    let out := out.putAll before
    let stored := decide (out.str ≤ out.strEnd)
    (out.put sign).putAll (tail.text (if stored then int32 (size - 1) else size))

def preciseDigits (large : Bool) (base num : Nat) (precision : Int) : List UInt8 :=
  let tmp := numberDigits large base num
  let precision := if precision < tmp.length then (tmp.length : Int) else precision
  List.replicate (precision - tmp.length).toNat '0'.toUInt8 ++ tmp.reverse

def numberSize (s precision : Int) (special tmp : List UInt8) : Int :=
  let precision := if precision < tmp.length then (tmp.length : Int) else precision
  int32 (int32 (s - special.length) - precision)

def numberPiece (cfg : FormatConfig) (num : Int) (base : Nat) (s precision : Int)
    (type : PrintFlags) : Piece :=
  let zeropad := type.zeropad && !type.left
  let c := if zeropad then '0'.toUInt8 else ' '.toUInt8
  let (sign, num) := numberSign type num
  let special := numberPrefix cfg type base
  let num := (num % 2 ^ 32).toNat
  let size := numberSize s precision special (numberDigits type.large base num)
  let digits := preciseDigits type.large base num precision
  let (size, before) :=
    if zeropad || type.left then (size, [])
    else padText ' '.toUInt8 0 (if sign.isSome ∧ 0 < size then size - 1 else size)
  let tail : NumberTail := ⟨c, type.left, special, digits⟩
  match sign with
  | none => .plain (before ++ tail.text size)
  | some sign => .signed before sign tail size

def charText (d : Directive) (c : UInt8) : List UInt8 :=
  let width := int32 (d.fieldWidth - 1)
  let padding := List.replicate width.toNat ' '.toUInt8
  if d.flags.left then c :: padding
  else padding ++ c :: List.replicate (int32 (min width 0 - 1)).toNat ' '.toUInt8

def stringText (d : Directive) (s : List UInt8) : List UInt8 :=
  let len := int32 s.length
  let len := if 0 < d.precision ∧ d.precision < len then d.precision else len
  let (width, padding) :=
    if d.flags.left then (d.fieldWidth, []) else padText ' '.toUInt8 len d.fieldWidth
  padding ++ s.take len.toNat ++ (padText ' '.toUInt8 len width).2

def convertPiece (cfg : FormatConfig) (string : BitVec 32 → List UInt8) (d : Directive)
    (args : VaList) : VaList × Piece :=
  match d.conversion with
  | none => (args, .plain ['%'.toUInt8])
  | some c =>
    if c = 'c'.toUInt8 then
      (args.next, .plain (charText d (UInt8.ofBitVec ((args 0).setWidth 8))))
    else if c = 's'.toUInt8 then
      let s := if args 0 = 0 then chars "(NULL)" else string (args 0)
      (args.next, .plain (stringText d s))
    else if c = 'p'.toUInt8 then
      let (width, flags) :=
        if d.fieldWidth = -1 then (8, { d.flags with zeropad := true })
        else (d.fieldWidth, d.flags)
      (args.next, numberPiece cfg (args 0).toInt 16 width d.precision flags)
    else if c = '%'.toUInt8 then (args, .plain ['%'.toUInt8])
    else
      match integerConversion c d.flags with
      | none => (args, .plain ['%'.toUInt8, c])
      | some (base, flags) =>
        let num := readNumber d.qualifier flags.sign (args 0)
        (args.next, numberPiece cfg num.toInt base d.fieldWidth d.precision flags)

def formatPieces (cfg : FormatConfig) (string : BitVec 32 → List UInt8) :
    Nat → List UInt8 → VaList → Option (List Piece)
  | 0, _, _ => none
  | _ + 1, [], _ => some []
  | fuel + 1, c :: fmt, args =>
    if c = '%'.toUInt8 then
      let (d, fmt, args) := readDirective fmt args
      let (args, piece) := convertPiece cfg string d args
      (formatPieces cfg string fuel fmt args).map (piece :: ·)
    else (formatPieces cfg string fuel fmt args).map (.plain [c] :: ·)

/-- What the pieces print, from an offset on; `stored` tells at which offsets there is room. -/
def arrivingText (stored : Nat → Bool) : Nat → List Piece → List UInt8
  | _, [] => []
  | k, p :: ps =>
    let text := p.text (stored (k + p.before.length))
    text ++ arrivingText stored (k + text.length) ps

section Sink

variable {out : Sink} {c : UInt8} {text more : List UInt8}

@[simp] theorem Sink.putAll_nil : out.putAll [] = out := rfl

@[simp] theorem Sink.putAll_cons : out.putAll (c :: text) = (out.put c).putAll text := rfl

theorem Sink.putAll_append : out.putAll (text ++ more) = (out.putAll text).putAll more :=
  List.foldl_append ..

@[simp] theorem Sink.put_strEnd : (out.put c).strEnd = out.strEnd := by
  rw [put]
  split <;> rfl

@[simp] theorem Sink.put_str : (out.put c).str = add32 out.str 1 := rfl

@[simp] theorem Sink.putAll_strEnd : (out.putAll text).strEnd = out.strEnd := by
  induction text generalizing out with
  | nil => rfl
  | cons c text ih => rw [putAll_cons, ih, put_strEnd]

theorem Sink.putAll_str {base offset : Nat} (text : List UInt8) (hstr : out.str = (base + offset) % 2 ^ 32) :
    (out.putAll text).str = (base + (offset + text.length)) % 2 ^ 32 := by
  induction text generalizing out offset with
  | nil => exact hstr
  | cons c text ih =>
    have hnext : (out.put c).str = (base + (offset + 1)) % 2 ^ 32 := by
      rw [put_str, hstr, add32]
      omega
    rw [putAll_cons, ih hnext, List.length_cons]
    congr 2
    omega

theorem Sink.pad_eq {bound width : Int} :
    out.pad c bound width = ((padText c bound width).1, out.putAll (padText c bound width).2) :=
  rfl

@[simp] theorem Sink.putPiece_plain : out.putPiece (.plain text) = out.putAll text := rfl

end Sink

section Pieces

variable {cfg : FormatConfig} {string : BitVec 32 → List UInt8} {d : Directive} {args : VaList}
  {out : Sink}

theorem printNumber_eq (num : Int) (base : Nat) (s precision : Int) (type : PrintFlags) :
    printNumber cfg num base s precision type out =
      out.putPiece (numberPiece cfg num base s precision type) := by
  unfold printNumber numberPiece putPiece preciseDigits numberSize
  generalize numberSign type num = signed
  obtain ⟨sign, num⟩ := signed
  dsimp only
  cases sign with
  | none =>
    cases hleft : type.left <;> cases type.zeropad <;>
      simp [NumberTail.text, putAll_append, pad_eq]
  | some c =>
    cases hleft : type.left <;> cases type.zeropad <;>
      simp [NumberTail.text, putAll_append, pad_eq]

theorem printChar_eq (d : Directive) (c : UInt8) :
    printChar d c out = out.putAll (charText d c) := by
  unfold printChar charText
  cases d.flags.left <;> simp [putAll_append]

theorem printString_eq (d : Directive) (s : List UInt8) :
    printString d s out = out.putAll (stringText d s) := by
  unfold printString stringText
  cases d.flags.left <;> simp [putAll_append, pad_eq]

theorem convert_eq :
    convert cfg string d args out =
      ((convertPiece cfg string d args).1, out.putPiece (convertPiece cfg string d args).2) := by
  unfold convert convertPiece
  cases d.conversion with
  | none => rfl
  | some c =>
    dsimp only
    split
    · simp [printChar_eq]
    · split
      · simp [printString_eq]
      · split
        · simp only [printNumber_eq]
        · split
          · rfl
          · cases integerConversion c d.flags with
            | none => rfl
            | some conversion => simp only [printNumber_eq]

theorem formatLoop_eq {fuel : Nat} {fmt : List UInt8} :
    formatLoop cfg string fuel fmt args out =
      (formatPieces cfg string fuel fmt args).map (·.foldl putPiece out) := by
  induction fuel generalizing fmt args out with
  | zero => rfl
  | succ fuel ih =>
    cases fmt with
    | nil => rfl
    | cons c fmt =>
      simp only [formatLoop, formatPieces]
      split
      · rw [convert_eq, ih, Option.map_map]; rfl
      · rw [ih, Option.map_map]; rfl

end Pieces

theorem length_skipAtoi (i : Int) (s : List UInt8) : (skipAtoi i s).2.length ≤ s.length := by
  induction s generalizing i with
  | nil => exact Nat.le_refl _
  | cons c s ih =>
    rw [skipAtoi]
    split
    · exact Nat.le_succ_of_le (ih _)
    · exact Nat.le_refl _

theorem length_readFlags (flags : PrintFlags) (fmt : List UInt8) :
    (readFlags flags fmt).2.length ≤ fmt.length := by
  induction fmt generalizing flags with
  | nil => exact Nat.le_refl _
  | cons c fmt ih =>
    rw [readFlags]
    repeat' split
    all_goals first
      | exact Nat.le_succ_of_le (ih _)
      | exact Nat.le_refl _

theorem length_readWidth (flags : PrintFlags) (fmt : List UInt8) (args : VaList) :
    (readWidth flags fmt args).2.2.1.length ≤ fmt.length := by
  cases fmt with
  | nil => exact Nat.le_refl _
  | cons c rest =>
    rw [readWidth]
    split
    · exact length_skipAtoi 0 (c :: rest)
    · split
      · dsimp only
        split <;> exact Nat.le_succ _
      · exact Nat.le_refl _

theorem length_readDigits (fmt : List UInt8) (args : VaList) :
    (readDigits fmt args).2.1.length ≤ fmt.length := by
  cases fmt with
  | nil => exact Nat.le_refl _
  | cons c rest =>
    rw [readDigits]
    split
    · exact length_skipAtoi 0 (c :: rest)
    · split
      · exact Nat.le_succ _
      · exact Nat.le_refl _

theorem length_readPrecision (fmt : List UInt8) (args : VaList) :
    (readPrecision fmt args).2.1.length ≤ fmt.length := by
  cases fmt with
  | nil => exact Nat.le_refl _
  | cons c rest =>
    rw [readPrecision]
    split
    · exact Nat.le_succ_of_le (length_readDigits rest args)
    · exact Nat.le_refl _

theorem length_readQualifier (fmt : List UInt8) : (readQualifier fmt).2.length ≤ fmt.length := by
  cases fmt with
  | nil => exact Nat.le_refl _
  | cons c rest =>
    rw [readQualifier]
    repeat' split
    all_goals first
      | exact Nat.le_succ _
      | exact Nat.le_refl _

theorem length_readDirective (fmt : List UInt8) (args : VaList) :
    (readDirective fmt args).2.1.length ≤ fmt.length := by
  rw [readDirective]
  have hflags := length_readFlags noFlags fmt
  generalize readFlags noFlags fmt = read at hflags ⊢
  obtain ⟨flags, fmt₁⟩ := read
  have hwidth := length_readWidth flags fmt₁ args
  dsimp only at hflags ⊢
  generalize readWidth flags fmt₁ args = read at hwidth ⊢
  obtain ⟨width, flags, fmt₂, args⟩ := read
  have hprecision := length_readPrecision fmt₂ args
  dsimp only at hwidth ⊢
  generalize readPrecision fmt₂ args = read at hprecision ⊢
  obtain ⟨precision, fmt₃, args⟩ := read
  have hqualifier := length_readQualifier fmt₃
  dsimp only at hprecision ⊢
  rw [List.length_tail]
  omega

theorem formatPieces_isSome (cfg : FormatConfig) (string : BitVec 32 → List UInt8) {fuel : Nat}
    (fmt : List UInt8) (args : VaList) (hfuel : fmt.length < fuel) :
    ∃ pieces, formatPieces cfg string fuel fmt args = some pieces := by
  induction fuel generalizing fmt args with
  | zero => exact absurd hfuel (Nat.not_lt_zero _)
  | succ fuel ih =>
    cases fmt with
    | nil => exact ⟨[], rfl⟩
    | cons c fmt =>
      rw [List.length_cons] at hfuel
      simp only [formatPieces]
      split
      · have hread := length_readDirective fmt args
        obtain ⟨pieces, hpieces⟩ := ih (readDirective fmt args).2.1
          (convertPiece cfg string (readDirective fmt args).1 (readDirective fmt args).2.2).1
          (by omega)
        exact ⟨_, by rw [hpieces]; rfl⟩
      · obtain ⟨pieces, hpieces⟩ := ih fmt args (by omega)
        exact ⟨_, by rw [hpieces]; rfl⟩

section Bounded

variable {cfg : FormatConfig} {string : BitVec 32 → List UInt8} {args : VaList}

end Bounded

section Arrival

variable {out : Sink} {base offset : Nat}

theorem Sink.putPiece_eq (p : Piece) (hstr : out.str = (base + offset) % 2 ^ 32) :
    out.putPiece p = out.putAll (p.text
      (decide ((base + (offset + p.before.length)) % 2 ^ 32 ≤ out.strEnd))) := by
  cases p with
  | plain text => rfl
  | signed before sign tail size =>
    have hbefore := putAll_str before hstr
    simp only [putPiece, Piece.text, Piece.before, putAll_append, putAll_cons,
      putAll_strEnd, hbefore]
    rfl

theorem putPieces_eq (pieces : List Piece) (hstr : out.str = (base + offset) % 2 ^ 32) :
    pieces.foldl putPiece out =
      out.putAll (arrivingText
        (fun k => decide ((base + k) % 2 ^ 32 ≤ out.strEnd)) offset pieces) := by
  induction pieces generalizing out offset with
  | nil => rfl
  | cons p ps ih =>
    have hpiece := putPiece_eq p hstr
    have hnext := putAll_str (p.text
      (decide ((base + (offset + p.before.length)) % 2 ^ 32 ≤ out.strEnd))) hstr
    rw [List.foldl_cons, hpiece, ih hnext]
    simp only [arrivingText, putAll_append, putAll_strEnd]

end Arrival

end RtThread.Kservice
