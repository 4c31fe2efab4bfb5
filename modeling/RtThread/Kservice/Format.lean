import RtThread.Kernel.Align
import RtThread.Lib.ByteMemory

namespace RtThread.Kservice

open RtThread.Lib

/-! `rt_vsnprintf` as it is built here, with `RT_PRINTF_PRECISION` and without
`RT_PRINTF_LONGLONG`.  `int`, `long` and pointers have 32 bits and wrap around.  The format and
the strings of `%s` lie apart from the buffer. -/

structure FormatConfig where
  /-- `RT_PRINTF_SPECIAL` is defined. -/
  printfSpecial : Bool

/-- A value that is stored in an `int` or a `long`. -/
def int32 (x : Int) : Int := (x + 2 ^ 31) % 2 ^ 32 - 2 ^ 31

def chars (s : String) : List UInt8 := s.toList.map Char.toUInt8

/-- The words that `va_arg` reads. -/
abbrev VaList := Nat → BitVec 32

def VaList.next (args : VaList) : VaList := fun i => args (i + 1)

/-- `str`, `end` and the memory.

History: `written` are the addresses that were written to. -/
structure Sink where
  str : Nat
  strEnd : Nat
  memory : ByteMemory
  written : List Nat

namespace Sink

def store (address : Nat) (c : UInt8) (out : Sink) : Sink :=
  { out with
    memory := Function.update out.memory address c
    written := address :: out.written }

def put (c : UInt8) (out : Sink) : Sink :=
  let stored := if out.str ≤ out.strEnd then out.store out.str c else out
  { stored with str := add32 out.str 1 }

def putAll (text : List UInt8) (out : Sink) : Sink := text.foldl (fun out c => out.put c) out

def pad (c : UInt8) (bound width : Int) (out : Sink) : Int × Sink :=
  (int32 (min width bound - 1), out.putAll (List.replicate (width - bound).toNat c))

end Sink

structure PrintFlags where
  zeropad : Bool
  sign : Bool
  plus : Bool
  space : Bool
  left : Bool
  special : Bool
  large : Bool
  deriving DecidableEq

def divide (n base : Nat) : Nat × Nat :=
  if base = 10 then (n % 10, n / 10) else (n % 16, n / 16)

def digitChar (large : Bool) (digit : Nat) : UInt8 :=
  if digit < 10 then UInt8.ofNat (48 + digit)
  else if large then UInt8.ofNat (55 + digit)
  else UInt8.ofNat (87 + digit)

/-- `while (num != 0) tmp[i++] = digits[divide(&num, base)];`, in 16 characters. -/
def putDigits (large : Bool) (base : Nat) : Nat → Nat → List UInt8
  | 0, _ => []
  | room + 1, num =>
    if num = 0 then []
    else
      let (digit, num) := divide num base
      digitChar large digit :: putDigits large base room num

/-- `tmp`; `num` is taken to be unsigned. -/
def numberDigits (large : Bool) (base num : Nat) : List UInt8 :=
  if num = 0 then [digitChar large 0] else putDigits large base 16 num

def numberSign (type : PrintFlags) (num : Int) : Option UInt8 × Int :=
  if type.sign then
    if num < 0 then (some '-'.toUInt8, int32 (-num))
    else if type.plus then (some '+'.toUInt8, num)
    else if type.space then (some ' '.toUInt8, num)
    else (none, num)
  else (none, num)

def numberPrefix (cfg : FormatConfig) (type : PrintFlags) (base : Nat) : List UInt8 :=
  if cfg.printfSpecial && type.special then
    if base = 8 then ['0'.toUInt8]
    else if base = 16 then ['0'.toUInt8, if type.large then 'X'.toUInt8 else 'x'.toUInt8]
    else []
  else []

def printNumber (cfg : FormatConfig) (num : Int) (base : Nat) (s precision : Int)
    (type : PrintFlags) (out : Sink) : Sink :=
  let zeropad := type.zeropad && !type.left
  let c := if zeropad then '0'.toUInt8 else ' '.toUInt8
  let (sign, num) := numberSign type num
  let special := numberPrefix cfg type base
  let size := int32 (s - special.length)
  let tmp := numberDigits type.large base (num % 2 ^ 32).toNat
  let precision := if precision < tmp.length then (tmp.length : Int) else precision
  let size := int32 (size - precision)
  let (size, out) :=
    if zeropad || type.left then (size, out)
    else
      let size := if sign.isSome ∧ 0 < size then size - 1 else size
      out.pad ' '.toUInt8 0 size
  let (size, out) :=
    match sign with
    | none => (size, out)
    -- `size` counts the sign only if there is room for it
    | some sign => (if out.str ≤ out.strEnd then int32 (size - 1) else size, out.put sign)
  let out := out.putAll special
  let (size, out) := if type.left then (size, out) else out.pad c 0 size
  let out := out.putAll (List.replicate (precision - tmp.length).toNat '0'.toUInt8)
  let out := out.putAll tmp.reverse
  (out.pad ' '.toUInt8 0 size).2

def isdigit (c : UInt8) : Bool := 48 ≤ c.toNat && c.toNat - 48 < 10

def skipAtoi : Int → List UInt8 → Int × List UInt8
  | i, [] => (i, [])
  | i, c :: s => if isdigit c then skipAtoi (int32 (i * 10 + c.toNat - 48)) s else (i, c :: s)

def readFlags : PrintFlags → List UInt8 → PrintFlags × List UInt8
  | flags, [] => (flags, [])
  | flags, c :: fmt =>
    if c = '-'.toUInt8 then readFlags { flags with left := true } fmt
    else if c = '+'.toUInt8 then readFlags { flags with plus := true } fmt
    else if c = ' '.toUInt8 then readFlags { flags with space := true } fmt
    else if c = '#'.toUInt8 then readFlags { flags with special := true } fmt
    else if c = '0'.toUInt8 then readFlags { flags with zeropad := true } fmt
    else (flags, c :: fmt)

inductive Qualifier
  | none
  | short
  | long
  deriving DecidableEq

/-- A directive up to its conversion; `none` is the end of the format. -/
structure Directive where
  flags : PrintFlags
  fieldWidth : Int
  precision : Int
  qualifier : Qualifier
  conversion : Option UInt8
  deriving DecidableEq

def readWidth (flags : PrintFlags) (fmt : List UInt8) (args : VaList) :
    Int × PrintFlags × List UInt8 × VaList :=
  match fmt with
  | [] => (-1, flags, [], args)
  | c :: rest =>
    if isdigit c then
      let (width, rest) := skipAtoi 0 (c :: rest)
      (width, flags, rest, args)
    else if c = '*'.toUInt8 then
      let width := (args 0).toInt
      if width < 0 then (int32 (-width), { flags with left := true }, rest, args.next)
      else (width, flags, rest, args.next)
    else (-1, flags, c :: rest, args)

def readDigits (fmt : List UInt8) (args : VaList) : Int × List UInt8 × VaList :=
  match fmt with
  | [] => (-1, [], args)
  | c :: rest =>
    if isdigit c then
      let (precision, rest) := skipAtoi 0 (c :: rest)
      (precision, rest, args)
    else if c = '*'.toUInt8 then ((args 0).toInt, rest, args.next)
    else (-1, c :: rest, args)

def readPrecision (fmt : List UInt8) (args : VaList) : Int × List UInt8 × VaList :=
  match fmt with
  | [] => (-1, [], args)
  | c :: rest =>
    if c = '.'.toUInt8 then
      let (precision, rest, args) := readDigits rest args
      (if precision < 0 then 0 else precision, rest, args)
    else (-1, c :: rest, args)

def readQualifier : List UInt8 → Qualifier × List UInt8
  | [] => (.none, [])
  | c :: rest =>
    if c = 'h'.toUInt8 then (.short, rest)
    else if c = 'l'.toUInt8 then (.long, rest)
    else (.none, c :: rest)

def noFlags : PrintFlags := ⟨false, false, false, false, false, false, false⟩

def readDirective (fmt : List UInt8) (args : VaList) : Directive × List UInt8 × VaList :=
  let (flags, fmt) := readFlags noFlags fmt
  let (width, flags, fmt, args) := readWidth flags fmt args
  let (precision, fmt, args) := readPrecision fmt args
  let (qualifier, fmt) := readQualifier fmt
  (⟨flags, width, precision, qualifier, fmt.head?⟩, fmt.tail, args)

def integerConversion (c : UInt8) (flags : PrintFlags) : Option (Nat × PrintFlags) :=
  if c = 'o'.toUInt8 then some (8, flags)
  else if c = 'X'.toUInt8 then some (16, { flags with large := true })
  else if c = 'x'.toUInt8 then some (16, flags)
  else if c = 'd'.toUInt8 ∨ c = 'i'.toUInt8 then some (10, { flags with sign := true })
  else if c = 'u'.toUInt8 then some (10, flags)
  else none

def readNumber (qualifier : Qualifier) (sign : Bool) (word : BitVec 32) : BitVec 32 :=
  match qualifier with
  | .short =>
    if sign then (word.setWidth 16).signExtend 32 else (word.setWidth 16).setWidth 32
  | .none => word
  | .long => word

def printChar (d : Directive) (c : UInt8) (out : Sink) : Sink :=
  -- `while (--field_width > 0)`
  let width := d.fieldWidth
  let (width, out) :=
    if d.flags.left then (width, out)
    else
      let width := int32 (width - 1)
      (min width 0, out.putAll (List.replicate width.toNat ' '.toUInt8))
  let out := out.put c
  out.putAll (List.replicate (int32 (width - 1)).toNat ' '.toUInt8)

def printString (d : Directive) (s : List UInt8) (out : Sink) : Sink :=
  let len := int32 s.length
  let len := if 0 < d.precision ∧ d.precision < len then d.precision else len
  let (width, out) :=
    if d.flags.left then (d.fieldWidth, out) else out.pad ' '.toUInt8 len d.fieldWidth
  let out := out.putAll (s.take len.toNat)
  (out.pad ' '.toUInt8 len width).2

/-- The `switch` over the conversion; `string` gives the characters of the string at an
address. -/
def convert (cfg : FormatConfig) (string : BitVec 32 → List UInt8) (d : Directive)
    (args : VaList) (out : Sink) : VaList × Sink :=
  match d.conversion with
  | none => (args, out.put '%'.toUInt8)
  | some c =>
    if c = 'c'.toUInt8 then
      (args.next, printChar d (UInt8.ofBitVec ((args 0).setWidth 8)) out)
    else if c = 's'.toUInt8 then
      let s := if args 0 = 0 then chars "(NULL)" else string (args 0)
      (args.next, printString d s out)
    else if c = 'p'.toUInt8 then
      let (width, flags) :=
        if d.fieldWidth = -1 then (8, { d.flags with zeropad := true })
        else (d.fieldWidth, d.flags)
      (args.next, printNumber cfg (args 0).toInt 16 width d.precision flags out)
    else if c = '%'.toUInt8 then (args, out.put '%'.toUInt8)
    else
      match integerConversion c d.flags with
      | none => (args, (out.put '%'.toUInt8).put c)
      | some (base, flags) =>
        let num := readNumber d.qualifier flags.sign (args 0)
        (args.next, printNumber cfg num.toInt base d.fieldWidth d.precision flags out)

/-- The loop over the format; `none` if it does not end. -/
def formatLoop (cfg : FormatConfig) (string : BitVec 32 → List UInt8) :
    Nat → List UInt8 → VaList → Sink → Option Sink
  | 0, _, _, _ => none
  | _ + 1, [], _, out => some out
  | fuel + 1, c :: fmt, args, out =>
    if c = '%'.toUInt8 then
      let (d, fmt, args) := readDirective fmt args
      let (args, out) := convert cfg string d args out
      formatLoop cfg string fuel fmt args out
    else formatLoop cfg string fuel fmt args (out.put c)

def bufferEnd (buf size : Nat) : Nat :=
  let strEnd := sub32 (add32 buf size) 1
  if strEnd < buf then 2 ^ 32 - 1 else strEnd

def rtVsnprintf (cfg : FormatConfig) (string : BitVec 32 → List UInt8) (buf size : Nat)
    (fmt : List UInt8) (args : VaList) (memory : ByteMemory) : Option (Int × Sink) := do
  let out ← formatLoop cfg string (fmt.length + 1) fmt args
    ⟨buf, bufferEnd buf size, memory, []⟩
  let result := int32 (sub32 out.str buf)
  return (result, out.store (if out.str ≤ out.strEnd then out.str else out.strEnd) 0)

end RtThread.Kservice
