import Mathlib.Data.Nat.ModEq
import RtThread.Finsh.Shell

namespace RtThread.Finsh

/-! Number literals: `token_proc_number` and `token_spec_number` of `finsh_token.c`. -/

def isDigit (ch : UInt8) : Bool := '0'.toUInt8 ≤ ch && ch ≤ '9'.toUInt8

def isAlpha (ch : UInt8) : Bool := (ch ||| 0x20).toUInt32 - 'a'.val < 26

def isOctal (ch : UInt8) : Bool := '0'.toUInt8 ≤ ch && ch ≤ '7'.toUInt8

inductive FinshTokenType
  | valueInt
  | valueLong
  | other (code : Nat)
  deriving DecidableEq

structure FinshToken where
  eof : Bool
  position : Nat
  currentToken : FinshTokenType
  /-- `value.int_value` -/
  value : UInt32
  line : Bytes
  deriving DecidableEq

def tokenNextChar (t : FinshToken) : UInt8 × FinshToken :=
  if t.eof then (0, t)
  else if t.position = t.line.length ∨ t.line[t.position]? = some '\n'.toUInt8 then
    (0, { t with eof := true, position := 0 })
  else ((t.line[t.position]?).getD 0, { t with position := t.position + 1 })

def tokenPrevChar (t : FinshToken) : FinshToken :=
  if t.eof then t
  else if t.position = 0 then t
  else { t with position := t.position - 1 }

/-- The number of bits that a digit of the base `b` has. -/
def digitShift (b : Nat) : UInt32 := if b = 16 then 4 else if b = 8 then 3 else 1

def specDigit (ch : UInt8) : UInt32 :=
  if 'a'.toUInt8 ≤ ch ∧ ch ≤ 'f'.toUInt8 then ch.toUInt32 - 'a'.val + 10
  else if 'A'.toUInt8 ≤ ch ∧ ch ≤ 'F'.toUInt8 then ch.toUInt32 - 'A'.val + 10
  else ch.toUInt32 - '0'.val

/-- One digit moves into the two words of `bn`. -/
def shiftDigit (shift : UInt32) (bn : UInt32 × UInt32) (ch : UInt8) : UInt32 × UInt32 :=
  ((bn.1 <<< shift) ||| specDigit ch, (bn.2 <<< shift) ||| (bn.1 >>> (32 - shift)))

def tokenSpecNumber (string : Bytes) (b : Nat) : UInt32 :=
  (string.foldl (shiftDigit (digitShift b)) (0, 0)).1

def scanWhile (test : UInt8 → Bool) : Nat → FinshToken → UInt8 → Bytes →
    Option (Bytes × UInt8 × FinshToken)
  | 0, _, _, _ => none
  | fuel + 1, t, ch, buf =>
    if test ch then
      let (next, t) := tokenNextChar t
      scanWhile test fuel t next (buf ++ [ch])
    else some (buf, ch, t)

def scanDecimal : Nat → FinshToken → UInt8 → UInt32 → Option (UInt32 × UInt8 × FinshToken)
  | 0, _, _, _ => none
  | fuel + 1, t, ch, value =>
    if isDigit ch then
      let (next, t) := tokenNextChar t
      scanDecimal fuel t next (value * 10 + (ch.toUInt32 - '0'.val))
    else some (value, ch, t)

def tokenSuffix (ch : UInt8) (t : FinshToken) : FinshToken :=
  if ch = 'l'.toUInt8 ∨ ch = 'L'.toUInt8 then { t with currentToken := .valueLong }
  else tokenPrevChar t

/-- The digits in `buf` become the value; `buf` has room for 127 of them. -/
def specNumber (b : Nat) : Bytes × UInt8 × FinshToken → Option FinshToken
  | (buf, ch, t) =>
    if buf.length < 128 then
      some (tokenSuffix ch { t with value := tokenSpecNumber buf b, currentToken := .valueInt })
    else none

def tokenProcNumber (t : FinshToken) : Option FinshToken :=
  let steps := t.line.length + 1
  let (ch, t) := tokenNextChar t
  if ch = '0'.toUInt8 then
    let (ch, t) := tokenNextChar t
    if ch = 'x'.toUInt8 ∨ ch = 'X'.toUInt8 then
      let (ch, t) := tokenNextChar t
      (scanWhile (fun ch => isDigit ch || isAlpha ch) steps t ch []).bind (specNumber 16)
    else if ch = 'b'.toUInt8 ∨ ch = 'B'.toUInt8 then
      let (ch, t) := tokenNextChar t
      (scanWhile (fun ch => ch == '0'.toUInt8 || ch == '1'.toUInt8) steps t ch []).bind
        (specNumber 2)
    else if isOctal ch then (scanWhile isOctal steps t ch []).bind (specNumber 8)
    else
      some { tokenPrevChar t with value := 0, currentToken := .valueInt }
  else
    (scanDecimal steps t ch 0).map fun (value, ch, t) =>
      tokenSuffix ch { t with value := value, currentToken := .valueInt }

def digitValue (ch : UInt8) : Nat :=
  if 'a'.toUInt8 ≤ ch then ch.toNat - 87 else if 'A'.toUInt8 ≤ ch then ch.toNat - 55
  else ch.toNat - 48

inductive Literal
  | decimal (digits : Bytes)
  | octal (digits : Bytes)
  | hex (upper : Bool) (digits : Bytes)
  | binary (upper : Bool) (digits : Bytes)

namespace Literal

def TakesSuffix : Literal → Prop
  | decimal digits => digits ≠ ['0'.toUInt8]
  | hex .. => False
  | _ => True

def digits : Literal → Bytes
  | decimal digits => digits
  | octal digits => digits
  | hex _ digits => digits
  | binary _ digits => digits

def radix : Literal → Nat
  | decimal _ => 10
  | octal _ => 8
  | hex .. => 16
  | binary .. => 2

def text : Literal → Bytes
  | decimal digits => digits
  | octal digits => '0'.toUInt8 :: digits
  | hex upper digits => '0'.toUInt8 :: (if upper then 'X'.toUInt8 else 'x'.toUInt8) :: digits
  | binary upper digits => '0'.toUInt8 :: (if upper then 'B'.toUInt8 else 'b'.toUInt8) :: digits

def IsDigit (radix : Nat) (ch : UInt8) : Prop :=
  (isDigit ch ∨ 'a'.toUInt8 ≤ ch ∧ ch ≤ 'f'.toUInt8 ∨ 'A'.toUInt8 ≤ ch ∧ ch ≤ 'F'.toUInt8) ∧
    digitValue ch < radix

structure WellFormed (literal : Literal) : Prop where
  nonempty : literal.digits ≠ []
  valid : ∀ ch ∈ literal.digits, IsDigit literal.radix ch
  first : literal.radix = 10 → literal.digits.head? = some '0'.toUInt8 →
    literal.digits = ['0'.toUInt8]

def value (literal : Literal) : Nat :=
  literal.digits.foldl (fun value ch => value * literal.radix + digitValue ch) 0

end Literal

def suffixText : Option Bool → Bytes
  | none => []
  | some false => ['l'.toUInt8]
  | some true => ['L'.toUInt8]

def Alphanumeric (ch : UInt8) : Prop :=
  '0'.toUInt8 ≤ ch ∧ ch ≤ '9'.toUInt8 ∨ 'a'.toUInt8 ≤ ch ∧ ch ≤ 'z'.toUInt8 ∨
    'A'.toUInt8 ≤ ch ∧ ch ≤ 'Z'.toUInt8

instance (ch : UInt8) : Decidable (Alphanumeric ch) := inferInstanceAs (Decidable (_ ∨ _ ∨ _))

instance (radix : Nat) (ch : UInt8) : Decidable (Literal.IsDigit radix ch) :=
  inferInstanceAs (Decidable (_ ∧ _))

def FinshToken.remaining (t : FinshToken) : Bytes :=
  if t.eof then [] else (t.line.drop t.position).takeWhile (· ≠ '\n'.toUInt8)

structure Yields (literal : Literal) (suffix : Option Bool) (after : Bytes) (t : FinshToken) :
    Prop where
  value : t.value.toNat = literal.value % 2 ^ 32
  long : t.currentToken = if suffix.isSome then .valueLong else .valueInt
  consumed : t.remaining = after.takeWhile (· ≠ '\n'.toUInt8)

section Characters

variable {ch : UInt8} {radix : Nat}

theorem forall_byte {p : UInt8 → Prop} (hall : ∀ n : Fin 256, p (UInt8.ofFin n)) (ch : UInt8) :
    p ch := by
  have hch := hall ch.toFin
  rwa [UInt8.ofFin_toFin] at hch

theorem isDigit_or_isAlpha : (isDigit ch || isAlpha ch) = decide (Alphanumeric ch) := by
  revert ch
  apply forall_byte
  decide +kernel

theorem specDigit_eq (hdigit : Literal.IsDigit 16 ch) : (specDigit ch).toNat = digitValue ch := by
  revert ch
  apply forall_byte
  decide +kernel

theorem decimalDigit_eq (hdigit : Literal.IsDigit 10 ch) :
    isDigit ch ∧ (ch.toUInt32 - '0'.val).toNat = digitValue ch := by
  revert ch
  apply forall_byte
  decide +kernel

theorem octalDigit (hdigit : Literal.IsDigit 8 ch) : isOctal ch := by
  revert ch
  apply forall_byte
  decide +kernel

theorem binaryDigit (hdigit : Literal.IsDigit 2 ch) :
    (ch == '0'.toUInt8 || ch == '1'.toUInt8) = true := by
  revert ch
  apply forall_byte
  decide +kernel

theorem alphanumeric_of_isDigit (hdigit : Literal.IsDigit 16 ch) : Alphanumeric ch := by
  revert ch
  apply forall_byte
  decide +kernel

theorem Literal.IsDigit.mono {other : Nat} (hdigit : Literal.IsDigit radix ch)
    (hle : radix ≤ other) : Literal.IsDigit other ch :=
  ⟨hdigit.1, Nat.lt_of_lt_of_le hdigit.2 hle⟩

end Characters

/-- `ch` has been read last; it is the first character of `text`, or the line is at its end. -/
inductive Stands (line : Bytes) : FinshToken → UInt8 → Bytes → Prop
  | char {k : Nat} {c : UInt8} {rest : Bytes} (type : FinshTokenType) (value : UInt32)
      (hdrop : line.drop k = c :: rest) (hc : c ≠ '\n'.toUInt8) :
      Stands line ⟨false, k + 1, type, value, line⟩ c (c :: rest)
  | ended {text : Bytes} (type : FinshTokenType) (value : UInt32)
      (hend : ∀ c, text.head? = some c → c = '\n'.toUInt8) :
      Stands line ⟨true, 0, type, value, line⟩ 0 text

section Reading

variable {line text rest after digits : Bytes} {t : FinshToken} {ch c : UInt8} {fuel k : Nat}
  {type : FinshTokenType} {value v d : UInt32} {suffix : Option Bool}

theorem tokenNextChar_stands (type : FinshTokenType) (value : UInt32)
    (hdrop : line.drop k = text) (hk : k ≤ line.length) :
    Stands line (tokenNextChar ⟨false, k, type, value, line⟩).2
      (tokenNextChar ⟨false, k, type, value, line⟩).1 text := by
  have hhead : (line)[k]? = text.head? := by rw [← hdrop, List.head?_drop]
  simp only [tokenNextChar, Bool.false_eq_true, if_false, hhead]
  cases text with
  | nil =>
    rw [if_pos (.inl (Nat.le_antisymm hk (List.drop_eq_nil_iff.mp hdrop)))]
    exact .ended type value fun _ hnone => nomatch hnone
  | cons c rest =>
    have hlength : k ≠ line.length := by
      rintro rfl
      rw [List.drop_length] at hdrop
      cases hdrop
    by_cases hc : c = '\n'.toUInt8
    · rw [if_pos (.inr (congrArg some hc))]
      exact .ended type value fun other hother => (Option.some.inj hother).symm.trans hc
    · rw [if_neg fun h => h.elim hlength fun h => hc (Option.some.inj h)]
      exact .char type value hdrop hc

theorem Stands.eq (hstands : Stands line t ch (c :: rest)) (hc : c ≠ '\n'.toUInt8) : ch = c := by
  cases hstands with
  | char => rfl
  | ended _ _ hend => exact absurd (hend c rfl) hc

theorem Stands.next (hstands : Stands line t ch (c :: rest)) (hc : c ≠ '\n'.toUInt8) :
    Stands line (tokenNextChar t).2 (tokenNextChar t).1 rest := by
  cases hstands with
  | ended _ _ hend => exact absurd (hend c rfl) hc
  | @char k _ _ type value hdrop _ =>
    have hlength := congrArg List.length hdrop
    rw [List.length_drop, List.length_cons] at hlength
    apply tokenNextChar_stands _ _ _ (by omega)
    rw [← List.drop_drop, hdrop]
    rfl

theorem Stands.update (hstands : Stands line t ch text) (type : FinshTokenType) (value : UInt32) :
    Stands line { t with value := value, currentToken := type } ch text := by
  cases hstands with
  | char _ _ hdrop hc => exact .char type value hdrop hc
  | ended _ _ hend => exact .ended type value hend

theorem Stands.prev (hstands : Stands line t ch text) :
    (tokenPrevChar t).remaining = text.takeWhile (· ≠ '\n'.toUInt8) := by
  cases hstands with
  | char _ _ hdrop _ => simp [tokenPrevChar, FinshToken.remaining, hdrop]
  | ended _ _ hend =>
    cases text with
    | nil => rfl
    | cons c rest => simp [tokenPrevChar, FinshToken.remaining, hend c rfl]

theorem Stands.remaining (hstands : Stands line t ch (c :: rest)) (hc : c ≠ '\n'.toUInt8) :
    t.remaining = rest.takeWhile (· ≠ '\n'.toUInt8) := by
  cases hstands with
  | ended _ _ hend => exact absurd (hend c rfl) hc
  | char _ _ hdrop _ =>
    rw [FinshToken.remaining, if_neg Bool.false_ne_true, ← List.drop_drop, hdrop]
    rfl

@[simp] theorem tokenPrevChar_value : (tokenPrevChar t).value = t.value := by
  unfold tokenPrevChar
  split
  · rfl
  · split <;> rfl

@[simp] theorem tokenPrevChar_currentToken : (tokenPrevChar t).currentToken = t.currentToken := by
  unfold tokenPrevChar
  split
  · rfl
  · split <;> rfl

theorem scanWhile_spec (test : UInt8 → Bool) (fuel : Nat) (buf : Bytes)
    (hstands : Stands line t ch (digits ++ after))
    (hdigits : ∀ c ∈ digits, test c = true ∧ c ≠ '\n'.toUInt8) (hnul : test 0 = false)
    (hafter : ∀ c, after.head? = some c → test c = false) (hfuel : digits.length < fuel) :
    ∃ ch' t', scanWhile test fuel t ch buf = some (buf ++ digits, ch', t') ∧
      Stands line t' ch' after := by
  induction digits generalizing t ch buf fuel with
  | nil =>
    obtain ⟨fuel, rfl⟩ : ∃ more, fuel = more + 1 := ⟨fuel - 1, by omega⟩
    have hstop : test ch = false := by
      cases hstands with
      | char => exact hafter ch rfl
      | ended => exact hnul
    refine ⟨ch, t, ?_, hstands⟩
    rw [scanWhile, hstop, List.append_nil]
    rfl
  | cons c digits ih =>
    rw [List.length_cons] at hfuel
    obtain ⟨fuel, rfl⟩ : ∃ more, fuel = more + 1 := ⟨fuel - 1, by omega⟩
    obtain ⟨htest, hc⟩ := hdigits c List.mem_cons_self
    obtain rfl : ch = c := hstands.eq hc
    obtain ⟨ch', t', hscan, hafter'⟩ := ih fuel (buf ++ [ch]) (hstands.next hc)
      (fun other hmem => hdigits other (List.mem_cons_of_mem _ hmem))
      (Nat.lt_of_succ_lt_succ hfuel)
    rw [List.append_assoc, List.singleton_append] at hscan
    exact ⟨ch', t', by rw [scanWhile, if_pos htest]; exact hscan, hafter'⟩

theorem foldl_digits_mod {radix modulus v w : Nat} (hmod : v ≡ w [MOD modulus]) :
    digits.foldl (fun value c => value * radix + digitValue c) v ≡
      digits.foldl (fun value c => value * radix + digitValue c) w [MOD modulus] := by
  induction digits generalizing v w with
  | nil => exact hmod
  | cons c digits ih => exact ih ((hmod.mul_right radix).add_right (digitValue c))

theorem scanDecimal_spec (value : UInt32) (hstands : Stands line t ch (digits ++ after))
    (hdigits : ∀ c ∈ digits, Literal.IsDigit 10 c)
    (hafter : ∀ c, after.head? = some c → isDigit c = false) (hfuel : digits.length < fuel) :
    ∃ value' ch' t', scanDecimal fuel t ch value = some (value', ch', t') ∧
      value'.toNat = digits.foldl (fun value c => value * 10 + digitValue c) value.toNat % 2 ^ 32 ∧
      Stands line t' ch' after := by
  induction digits generalizing t ch value fuel with
  | nil =>
    obtain ⟨fuel, rfl⟩ : ∃ more, fuel = more + 1 := ⟨fuel - 1, by omega⟩
    have hstop : isDigit ch = false := by
      cases hstands with
      | char => exact hafter ch rfl
      | ended => rfl
    refine ⟨value, ch, t, ?_, (Nat.mod_eq_of_lt value.toNat_lt).symm, hstands⟩
    rw [scanDecimal, hstop]
    rfl
  | cons c digits ih =>
    rw [List.length_cons] at hfuel
    obtain ⟨fuel, rfl⟩ : ∃ more, fuel = more + 1 := ⟨fuel - 1, by omega⟩
    obtain ⟨hdigit, hvalue⟩ := decimalDigit_eq (hdigits c List.mem_cons_self)
    have hc : c ≠ '\n'.toUInt8 := by
      rintro rfl
      exact absurd hdigit (by decide)
    obtain rfl : ch = c := hstands.eq hc
    obtain ⟨value', ch', t', hscan, hvalue', hafter'⟩ :=
      ih (value * 10 + (ch.toUInt32 - '0'.val)) (hstands.next hc)
      (fun other hmem => hdigits other (List.mem_cons_of_mem _ hmem))
      (Nat.lt_of_succ_lt_succ hfuel)
    refine ⟨value', ch', t', by rw [scanDecimal, if_pos hdigit]; exact hscan, ?_, hafter'⟩
    rw [hvalue', List.foldl_cons]
    apply foldl_digits_mod
    rw [UInt32.toNat_add, UInt32.toNat_mul, hvalue]
    exact (Nat.mod_modEq _ _).trans ((Nat.mod_modEq _ _).add_right _)

theorem shift_or (hk : k < 32) (hd : d.toNat < 2 ^ k) :
    ((v <<< UInt32.ofNat k) ||| d).toNat = (v.toNat * 2 ^ k + d.toNat) % 2 ^ 32 := by
  have hmod : (UInt32.ofNat k).toNat % 32 = k := by
    rw [UInt32.toNat_ofNat']
    omega
  rw [UInt32.toNat_or, UInt32.toNat_shiftLeft, hmod, ← Nat.shiftLeft_eq,
    Nat.shiftLeft_add_eq_or_of_lt hd, Nat.or_mod_two_pow, Nat.mod_eq_of_lt d.toNat_lt]

theorem foldl_shiftDigit {bn : UInt32 × UInt32} (hk : k ≤ 4)
    (hdigits : ∀ c ∈ digits, Literal.IsDigit (2 ^ k) c) :
    (digits.foldl (shiftDigit (UInt32.ofNat k)) bn).1.toNat =
      digits.foldl (fun value c => value * 2 ^ k + digitValue c) bn.1.toNat % 2 ^ 32 := by
  induction digits generalizing bn with
  | nil => exact (Nat.mod_eq_of_lt bn.1.toNat_lt).symm
  | cons c digits ih =>
    have hc := hdigits c List.mem_cons_self
    have hdigit := specDigit_eq (hc.mono (Nat.pow_le_pow_right (by decide) hk))
    rw [List.foldl_cons, ih fun other hmem => hdigits other (List.mem_cons_of_mem _ hmem),
      List.foldl_cons]
    apply foldl_digits_mod
    rw [shiftDigit, shift_or (by omega) (by rw [hdigit]; exact hc.2), hdigit]
    exact Nat.mod_modEq _ _

theorem tokenSpecNumber_eq {b : Nat} (hk : k ≤ 4) (hb : digitShift b = UInt32.ofNat k)
    (hdigits : ∀ c ∈ digits, Literal.IsDigit (2 ^ k) c) :
    (tokenSpecNumber digits b).toNat =
      digits.foldl (fun value c => value * 2 ^ k + digitValue c) 0 % 2 ^ 32 := by
  rw [tokenSpecNumber, hb]
  exact foldl_shiftDigit hk hdigits

theorem suffixText_ne_newline (hsuffix : suffixText suffix = c :: rest) :
    c ≠ '\n'.toUInt8 ∧ (c = 'l'.toUInt8 ∨ c = 'L'.toUInt8) ∧ rest = [] := by
  rcases suffix with _ | _ | _
  · cases hsuffix
  · cases hsuffix
    exact ⟨by decide, .inl rfl, rfl⟩
  · cases hsuffix
    exact ⟨by decide, .inr rfl, rfl⟩

theorem tokenSuffix_spec (value : UInt32)
    (hstands : Stands line t ch (suffixText suffix ++ after))
    (hafter : ∀ c, after.head? = some c → ¬ Alphanumeric c) :
    (tokenSuffix ch { t with value := value, currentToken := .valueInt }).value = value ∧
      (tokenSuffix ch { t with value := value, currentToken := .valueInt }).currentToken =
        (if suffix.isSome then .valueLong else .valueInt) ∧
      (tokenSuffix ch { t with value := value, currentToken := .valueInt }).remaining =
        after.takeWhile (· ≠ '\n'.toUInt8) := by
  have hupdate := hstands.update .valueInt value
  cases hsuffix : suffixText suffix with
  | nil =>
    have hnone : suffix = none := by
      rcases suffix with _ | _ | _ <;> first | rfl | cases hsuffix
    subst hnone
    have hch : ¬ (ch = 'l'.toUInt8 ∨ ch = 'L'.toUInt8) := by
      have hstands' : Stands line t ch after := hstands
      cases hstands' with
      | ended => decide
      | char =>
        have hnot := hafter ch rfl
        rintro (rfl | rfl) <;> exact hnot (by decide)
    rw [tokenSuffix, if_neg hch]
    exact ⟨tokenPrevChar_value, tokenPrevChar_currentToken, hupdate.prev⟩
  | cons c rest =>
    obtain ⟨hc, hl, rfl⟩ := suffixText_ne_newline hsuffix
    have hsome : suffix.isSome = true := by
      rcases suffix with _ | _ | _ <;> first | rfl | cases hsuffix
    rw [hsuffix] at hstands hupdate
    obtain rfl : ch = c := hstands.eq hc
    rw [tokenSuffix, if_pos hl, if_pos hsome]
    exact ⟨rfl, rfl, (hstands.update .valueLong value).remaining hc⟩

end Reading

section Literals

variable {line after digits : Bytes} {t : FinshToken} {ch : UInt8} {suffix : Option Bool}
  {literal : Literal}

theorem specNumber_yields {b k : Nat} (hk : k ≤ 4) (hb : digitShift b = UInt32.ofNat k)
    (hradix : literal.radix = 2 ^ k) (hliteral : literal.WellFormed)
    (hroom : literal.digits.length < 128)
    (hstands : Stands line t ch (suffixText suffix ++ after))
    (hafter : ∀ c, after.head? = some c → ¬ Alphanumeric c) :
    ∃ t', specNumber b (literal.digits, ch, t) = some t' ∧ Yields literal suffix after t' := by
  obtain ⟨hvalue, hlong, hremaining⟩ := tokenSuffix_spec (tokenSpecNumber literal.digits b)
    hstands hafter
  refine ⟨_, if_pos hroom, ?_, hlong, hremaining⟩
  rw [hvalue, Literal.value, hradix]
  exact tokenSpecNumber_eq hk hb (hradix ▸ hliteral.valid)

theorem head_suffix {test : UInt8 → Bool} (halpha : ∀ c, test c = true → Alphanumeric c)
    (hl : test 'l'.toUInt8 = false) (hL : test 'L'.toUInt8 = false)
    (hafter : ∀ c, after.head? = some c → ¬ Alphanumeric c) :
    ∀ c, (suffixText suffix ++ after).head? = some c → test c = false := by
  intro c hc
  rcases suffix with _ | _ | _
  · exact Bool.eq_false_iff.mpr fun htest => hafter c hc (halpha c htest)
  · cases hc
    exact hl
  · cases hc
    exact hL

theorem scan_yields (literal : Literal) (steps : Nat) {test : UInt8 → Bool} {b k : Nat} (hk : k ≤ 4)
    (hb : digitShift b = UInt32.ofNat k) (hradix : literal.radix = 2 ^ k)
    (hliteral : literal.WellFormed) (hroom : literal.digits.length < 128)
    (htest : ∀ c ∈ literal.digits, test c = true) (halpha : ∀ c, test c = true → Alphanumeric c)
    (hl : test 'l'.toUInt8 = false) (hL : test 'L'.toUInt8 = false)
    (hstands : Stands line t ch (literal.digits ++ (suffixText suffix ++ after)))
    (hafter : ∀ c, after.head? = some c → ¬ Alphanumeric c) (hsteps : literal.digits.length < steps) :
    ∃ t', (scanWhile test steps t ch []).bind (specNumber b) = some t' ∧
      Yields literal suffix after t' := by
  have hnul : test 0 = false := Bool.eq_false_iff.mpr fun h => absurd (halpha 0 h) (by decide)
  have hnewline : ∀ c ∈ literal.digits, test c = true ∧ c ≠ '\n'.toUInt8 := by
    intro c hmem
    refine ⟨htest c hmem, ?_⟩
    rintro rfl
    exact absurd (halpha _ (htest _ hmem)) (by decide)
  obtain ⟨ch', t', hscan, hstands'⟩ := scanWhile_spec test steps [] hstands hnewline hnul
    (head_suffix halpha hl hL hafter) hsteps
  rw [hscan, List.nil_append, Option.bind_some]
  exact specNumber_yields hk hb hradix hliteral hroom hstands' hafter

theorem alphanumeric_of_isOctal (c : UInt8) : isOctal c = true → Alphanumeric c := by
  revert c
  apply forall_byte
  decide +kernel

theorem alphanumeric_of_binary (c : UInt8) :
    (c == '0'.toUInt8 || c == '1'.toUInt8) = true → Alphanumeric c := by
  revert c
  apply forall_byte
  decide +kernel

theorem hex_yields (literal : Literal) (steps : Nat)
    (hradix : literal.radix = 16) (hliteral : literal.WellFormed)
    (hroom : literal.digits.length + 1 < 128)
    (hstands : Stands line t ch (literal.digits ++ (suffixText suffix ++ after)))
    (hafter : ∀ c, after.head? = some c → ¬ Alphanumeric c)
    (hsteps : literal.digits.length + 1 < steps) :
    ∃ t', (scanWhile (fun ch => isDigit ch || isAlpha ch) steps t ch []).bind (specNumber 16) =
        some t' ∧ (Yields literal suffix after t' ↔ suffix = none) := by
  have hsuffix : (suffixText suffix).length ≤ 1 := by
    rcases suffix with _ | _ | _ <;> decide
  have hall : ∀ c ∈ literal.digits ++ suffixText suffix, Alphanumeric c := by
    intro c hmem
    rcases List.mem_append.mp hmem with hdigit | hlast
    · exact alphanumeric_of_isDigit (hradix ▸ hliteral.valid c hdigit)
    · rcases suffix with _ | _ | _
      · cases hlast
      · rw [List.mem_singleton.mp hlast]
        decide
      · rw [List.mem_singleton.mp hlast]
        decide
  rw [← List.append_assoc] at hstands
  obtain ⟨ch', t', hscan, hstands'⟩ := scanWhile_spec (fun ch => isDigit ch || isAlpha ch) steps []
    hstands
    (fun c hmem => ⟨by rw [isDigit_or_isAlpha]; exact decide_eq_true (hall c hmem), by
      rintro rfl
      exact absurd (hall _ hmem) (by decide)⟩) (by decide)
    (fun c hc => by rw [isDigit_or_isAlpha]; exact decide_eq_false (hafter c hc))
    (by rw [List.length_append]; omega)
  have hnone : Stands line t' ch' (suffixText none ++ after) := hstands'
  rw [hscan, List.nil_append, Option.bind_some]
  rcases eq_or_ne suffix none with rfl | hsome
  · have hdigits : literal.digits ++ suffixText none = literal.digits := List.append_nil _
    rw [hdigits]
    obtain ⟨t'', hspec, hyields⟩ := specNumber_yields (b := 16) (k := 4) (by decide) rfl
      hradix hliteral (Nat.lt_of_succ_lt hroom) hnone hafter
    exact ⟨t'', hspec, iff_of_true hyields rfl⟩
  · obtain ⟨-, hlong, -⟩ := tokenSuffix_spec (tokenSpecNumber (literal.digits ++ suffixText suffix) 16)
      hnone hafter
    refine ⟨_, if_pos (by rw [List.length_append]; omega), iff_of_false (fun hyields => ?_) hsome⟩
    have hwanted := hyields.long
    rw [if_pos (Option.isSome_iff_ne_none.mpr hsome), hlong] at hwanted
    cases hwanted

theorem zero_yields {stop : FinshToken} (hstands : Stands line stop ch (suffixText suffix ++ after)) :
    Yields (.decimal ['0'.toUInt8]) suffix after
        { tokenPrevChar stop with value := 0, currentToken := .valueInt } ↔ suffix = none := by
  rcases eq_or_ne suffix none with rfl | hsome
  · exact iff_of_true ⟨rfl, rfl, hstands.prev⟩ rfl
  · refine iff_of_false (fun hyields => ?_) hsome
    have hwanted := hyields.long
    rw [if_pos (Option.isSome_iff_ne_none.mpr hsome)] at hwanted
    cases hwanted

theorem not_mark (hstands : Stands line t ch (suffixText suffix ++ after))
    (hafter : ∀ c, after.head? = some c → ¬ Alphanumeric c) :
    ¬ (ch = 'x'.toUInt8 ∨ ch = 'X'.toUInt8) ∧ ¬ (ch = 'b'.toUInt8 ∨ ch = 'B'.toUInt8) ∧
      ¬ isOctal ch = true := by
  generalize htext : suffixText suffix ++ after = text at hstands
  cases hstands with
  | ended => decide
  | @char k c rest =>
    have hhead : (suffixText suffix ++ after).head? = some ch := by rw [htext]; rfl
    rcases suffix with _ | _ | _
    · have hnot := hafter ch hhead
      refine ⟨?_, ?_, fun h => hnot (alphanumeric_of_isOctal ch h)⟩ <;>
        · rintro (rfl | rfl) <;> exact hnot (by decide)
    · cases hhead
      decide
    · cases hhead
      decide

/-- A number is read as it is written just when no suffix is overlooked: hexadecimal digits take
it with them, and after a zero that is alone it is not looked for. -/
theorem tokenProcNumber_iff (before after : Bytes) (literal : Literal) (suffix : Option Bool)
    (hliteral : literal.WellFormed) (hafter : ∀ c, after.head? = some c → ¬ Alphanumeric c)
    (type : FinshTokenType) (value : UInt32)
    (hfits : (before ++ (literal.text ++ (suffixText suffix ++ after))).length < finshCmdSize) :
    ∃ t', tokenProcNumber ⟨false, before.length, type, value,
        before ++ (literal.text ++ (suffixText suffix ++ after))⟩ = some t' ∧
      (Yields literal suffix after t' ↔ suffix = none ∨ literal.TakesSuffix) := by
  have hstart := tokenNextChar_stands type value
    (List.drop_left : List.drop before.length
      (before ++ (literal.text ++ (suffixText suffix ++ after))) = _) (by simp)
  generalize hline : before ++ (literal.text ++ (suffixText suffix ++ after)) = line at *
  have hlength : literal.text.length + (suffixText suffix).length ≤ line.length := by
    rw [← hline]
    simp only [List.length_append]
    omega
  have hcmd : line.length < 80 := hfits
  unfold tokenProcNumber
  generalize tokenNextChar ⟨false, before.length, type, value, line⟩ = first at *
  obtain ⟨ch, t⟩ := first
  dsimp only at hstart ⊢
  have hnewline : '0'.toUInt8 ≠ '\n'.toUInt8 := by decide
  cases literal with
  | decimal digits =>
    by_cases hzero : digits = ['0'.toUInt8]
    · subst hzero
      obtain rfl := hstart.eq hnewline
      have hnext := hstart.next hnewline
      rw [if_pos rfl]
      generalize tokenNextChar t = second at *
      obtain ⟨hhex, hbinary, hoctal⟩ := not_mark hnext hafter
      rw [if_neg hhex, if_neg hbinary, if_neg hoctal]
      refine ⟨_, rfl, (zero_yields hnext).trans (or_iff_left fun htakes => htakes rfl).symm⟩
    · obtain ⟨d, more, rfl⟩ := List.exists_cons_of_ne_nil hliteral.nonempty
      obtain ⟨hdigit, -⟩ := decimalDigit_eq (hliteral.valid d List.mem_cons_self)
      have hd : d ≠ '\n'.toUInt8 := by
        rintro rfl
        exact absurd hdigit (by decide)
      obtain rfl : ch = d := hstart.eq hd
      have hfirst : ch ≠ '0'.toUInt8 := by
        rintro rfl
        exact hzero (hliteral.first rfl rfl)
      obtain ⟨value', ch', t', hscan, hvalue, hstands⟩ := scanDecimal_spec 0 hstart hliteral.valid
        (head_suffix (fun c hc => .inl (by simpa [isDigit] using hc)) (by decide) (by decide)
          hafter) (Nat.lt_succ_of_le ((Nat.le_add_right _ _).trans hlength))
      obtain ⟨hvalue', hlong, hremaining⟩ := tokenSuffix_spec value' hstands hafter
      rw [if_neg hfirst, hscan]
      refine ⟨_, rfl, iff_of_true ⟨?_, hlong, hremaining⟩ (.inr hzero)⟩
      rw [hvalue', hvalue]
      rfl
  | octal digits =>
    obtain rfl := hstart.eq hnewline
    have hnext := hstart.next hnewline
    have hlong : digits.length + 1 + (suffixText suffix).length ≤ line.length := hlength
    rw [if_pos rfl]
    generalize tokenNextChar t = second at *
    obtain ⟨ch, t⟩ := second
    dsimp only at hnext ⊢
    obtain ⟨d, more, rfl⟩ := List.exists_cons_of_ne_nil hliteral.nonempty
    have hdigit := octalDigit (hliteral.valid d List.mem_cons_self)
    have hd : d ≠ '\n'.toUInt8 := by
      rintro rfl
      exact absurd hdigit (by decide)
    obtain rfl : ch = d := hnext.eq hd
    have hhex : ¬ (ch = 'x'.toUInt8 ∨ ch = 'X'.toUInt8) := by
      rintro (rfl | rfl) <;> exact absurd hdigit (by decide)
    have hbinary : ¬ (ch = 'b'.toUInt8 ∨ ch = 'B'.toUInt8) := by
      rintro (rfl | rfl) <;> exact absurd hdigit (by decide)
    obtain ⟨t', hscan, hyields⟩ := scan_yields (.octal (ch :: more)) (line.length + 1) (b := 8)
      (k := 3) (by decide) rfl rfl hliteral (by simp only [Literal.digits]; omega)
      (fun c hc => octalDigit (hliteral.valid c hc)) alphanumeric_of_isOctal (by decide)
      (by decide) hnext hafter (by simp only [Literal.digits]; omega)
    rw [if_neg hhex, if_neg hbinary, if_pos hdigit]
    exact ⟨t', hscan, iff_of_true hyields (.inr trivial)⟩
  | hex upper digits =>
    obtain rfl := hstart.eq hnewline
    have hnext := hstart.next hnewline
    have hlong : digits.length + 1 + 1 + (suffixText suffix).length ≤ line.length := hlength
    rw [if_pos rfl]
    generalize tokenNextChar t = second at *
    obtain ⟨ch, t⟩ := second
    dsimp only at hnext ⊢
    have hmark : ch = 'x'.toUInt8 ∨ ch = 'X'.toUInt8 := by
      cases upper with
      | false => exact .inl (hnext.eq (by decide))
      | true => exact .inr (hnext.eq (by decide))
    have hdigits := hnext.next (by cases upper <;> decide)
    obtain ⟨t', hscan, hyields⟩ := hex_yields (.hex upper digits) (line.length + 1) rfl hliteral
      (by simp only [Literal.digits]; omega) hdigits hafter
      (by simp only [Literal.digits]; omega)
    rw [if_pos hmark]
    exact ⟨t', hscan, hyields.trans (or_iff_left id).symm⟩
  | binary upper digits =>
    obtain rfl := hstart.eq hnewline
    have hnext := hstart.next hnewline
    have hlong : digits.length + 1 + 1 + (suffixText suffix).length ≤ line.length := hlength
    rw [if_pos rfl]
    generalize tokenNextChar t = second at *
    obtain ⟨ch, t⟩ := second
    dsimp only at hnext ⊢
    have hmark : ch = 'b'.toUInt8 ∨ ch = 'B'.toUInt8 := by
      cases upper with
      | false => exact .inl (hnext.eq (by decide))
      | true => exact .inr (hnext.eq (by decide))
    have hhex : ¬ (ch = 'x'.toUInt8 ∨ ch = 'X'.toUInt8) := by
      rcases hmark with rfl | rfl <;> decide
    have hdigits := hnext.next (by cases upper <;> decide)
    obtain ⟨t', hscan, hyields⟩ := scan_yields (.binary upper digits) (line.length + 1) (b := 2)
      (k := 1) (by decide) rfl rfl hliteral (by simp only [Literal.digits]; omega)
      (fun c hc => binaryDigit (hliteral.valid c hc)) alphanumeric_of_binary (by decide)
      (by decide) hdigits hafter (by simp only [Literal.digits]; omega)
    rw [if_neg hhex, if_pos hmark]
    exact ⟨t', hscan, iff_of_true hyields (.inr trivial)⟩

theorem tokenProcNumber_hex_long : ∃ t',
    tokenProcNumber ⟨false, 0, .other 0, 0,
        (Literal.hex false ['1'.toUInt8, '0'.toUInt8]).text ++ (suffixText (some true) ++
          [';'.toUInt8])⟩ = some t' ∧
      t'.currentToken = .valueInt ∧
      ¬ Yields (.hex false ['1'.toUInt8, '0'.toUInt8]) (some true) [';'.toUInt8] t' :=
  ⟨_, rfl, rfl, fun hyields => nomatch hyields.long⟩

theorem tokenProcNumber_iff_hex : ∃ t',
    tokenProcNumber ⟨false, 0, .other 0, 0,
        (Literal.hex false ['1'.toUInt8, 'f'.toUInt8]).text ++ (suffixText none ++
          [';'.toUInt8])⟩ = some t' ∧
      Yields (.hex false ['1'.toUInt8, 'f'.toUInt8]) none [';'.toUInt8] t' := by
  have hliteral : (Literal.hex false ['1'.toUInt8, 'f'.toUInt8]).WellFormed :=
    ⟨by decide, List.forall_mem_cons.mpr ⟨by decide, List.forall_mem_singleton.mpr (by decide)⟩,
      by decide⟩
  obtain ⟨t', hrun, hiff⟩ := tokenProcNumber_iff [] [';'.toUInt8] _ none hliteral
    (by simp only [List.head?_cons, Option.some.injEq]; rintro c rfl; decide) (.other 0) 0
    (by decide)
  exact ⟨t', hrun, hiff.mpr (.inl rfl)⟩

end Literals

end RtThread.Finsh
