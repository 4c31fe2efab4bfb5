import Mathlib.Data.List.Basic

namespace RtThread.Lib

open Function

/-! Memory as characters, of which a program has one block. -/

def nul : Char := '\x00'

structure CharMemory where
  byte : Nat → Char
  low : Nat
  high : Nat
  /-- There was an access outside of the block. -/
  stray : Bool

namespace CharMemory

variable {m : CharMemory} {a b : Nat} {c : Char} {text other : List Char}

def touch (m : CharMemory) (a : Nat) : CharMemory :=
  { m with stray := m.stray || !decide (m.low ≤ a ∧ a < m.high) }

def read (m : CharMemory) (a : Nat) : Char × CharMemory := (m.byte a, m.touch a)

def write (m : CharMemory) (a : Nat) (c : Char) : CharMemory :=
  { m.touch a with byte := update m.byte a c }

def StringAt (m : CharMemory) : Nat → List Char → Prop
  | a, [] => m.byte a = nul
  | a, c :: text => m.byte a = c ∧ c ≠ nul ∧ m.StringAt (a + 1) text

def CharsAt (m : CharMemory) : Nat → List Char → Prop
  | _, [] => True
  | a, c :: text => m.byte a = c ∧ c ≠ nul ∧ m.CharsAt (a + 1) text

def WrittenFrom (m : CharMemory) (a : Nat) : List Char → Prop
  | [] => True
  | c :: text => m.byte (a + text.length) = c ∧ m.WrittenFrom a text

def store (byte : Nat → Char) (a : Nat) (text : List Char) : Nat → Char := fun i =>
  if a ≤ i then ((text ++ [nul])[i - a]?).getD (byte i) else byte i

@[simp] theorem write_low : (m.write a c).low = m.low := rfl
@[simp] theorem write_high : (m.write a c).high = m.high := rfl
@[simp] theorem write_byte_self : (m.write a c).byte a = c := update_self ..

theorem write_byte_of_ne (hne : b ≠ a) : (m.write a c).byte b = m.byte b :=
  update_of_ne hne ..

theorem touch_within (hlow : m.low ≤ a) (hhigh : a < m.high) : m.touch a = m := by
  simp [touch, hlow, hhigh]

theorem read_within (hlow : m.low ≤ a) (hhigh : a < m.high) : m.read a = (m.byte a, m) := by
  rw [read, touch_within hlow hhigh]

theorem write_stray (hlow : m.low ≤ a) (hhigh : a < m.high) : (m.write a c).stray = m.stray := by
  rw [write, touch_within hlow hhigh]

theorem touch_outside (hout : a < m.low ∨ m.high ≤ a) : (m.touch a).stray = true := by
  have hnot : ¬ (m.low ≤ a ∧ a < m.high) := by omega
  simp [touch, hnot]

theorem touch_of_stray (hstray : m.stray = true) : (m.touch a).stray = true := by
  simp [touch, hstray]

theorem write_of_stray (hstray : m.stray = true) : (m.write a c).stray = true :=
  touch_of_stray hstray

theorem StringAt.head (hstring : m.StringAt a (c :: text)) : m.byte a = c := hstring.1

theorem StringAt.ne (hstring : m.StringAt a (c :: text)) : c ≠ nul := hstring.2.1

theorem StringAt.tail (hstring : m.StringAt a (c :: text)) : m.StringAt (a + 1) text :=
  hstring.2.2

theorem StringAt.not_mem (hstring : m.StringAt a text) : nul ∉ text := by
  induction text generalizing a with
  | nil => exact List.not_mem_nil
  | cons c text ih =>
    rw [List.mem_cons, not_or]
    exact ⟨hstring.ne.symm, ih hstring.tail⟩

theorem StringAt.drop (hstring : m.StringAt a (text ++ other)) :
    m.StringAt (a + text.length) other := by
  induction text generalizing a with
  | nil => exact hstring
  | cons c text ih =>
    have htail := ih hstring.tail
    rwa [List.length_cons, Nat.add_comm text.length, ← Nat.add_assoc]

theorem StringAt.unique (hstring : m.StringAt a text) (hother : m.StringAt a other) :
    text = other := by
  induction text generalizing a other with
  | nil =>
    cases other with
    | nil => rfl
    | cons c other => exact absurd (hother.head.symm.trans hstring) hother.ne
  | cons c text ih =>
    cases other with
    | nil => exact absurd (hstring.head.symm.trans hother) hstring.ne
    | cons d other =>
      rw [← hstring.head, ← hother.head, ih hstring.tail hother.tail]

theorem StringAt.congr {m' : CharMemory} (hstring : m.StringAt a text)
    (hsame : ∀ i, a ≤ i → i ≤ a + text.length → m'.byte i = m.byte i) : m'.StringAt a text := by
  induction text generalizing a with
  | nil => exact (hsame a (Nat.le_refl _) (Nat.le_refl _)).trans hstring
  | cons c text ih =>
    refine ⟨(hsame a (Nat.le_refl _) (Nat.le_add_right _ _)).trans hstring.head, hstring.ne, ?_⟩
    apply ih hstring.tail
    intro i hle hge
    apply hsame i (by omega)
    rw [List.length_cons]
    omega

theorem StringAt.write (hstring : m.StringAt a text) (hout : b < a ∨ a + text.length < b) :
    (m.write b c).StringAt a text :=
  hstring.congr fun i _ _ => write_byte_of_ne (by omega)

theorem CharsAt.congr {m' : CharMemory} (hchars : m.CharsAt a text)
    (hsame : ∀ i, a ≤ i → i < a + text.length → m'.byte i = m.byte i) : m'.CharsAt a text := by
  induction text generalizing a with
  | nil => trivial
  | cons c text ih =>
    rw [List.length_cons] at hsame
    refine ⟨(hsame a (Nat.le_refl _) (by omega)).trans hchars.1, hchars.2.1, ?_⟩
    exact ih hchars.2.2 fun i hle hge => hsame i (by omega) (by omega)

theorem CharsAt.write (hchars : m.CharsAt a text) (hout : b < a ∨ a + text.length ≤ b) :
    (m.write b c).CharsAt a text :=
  hchars.congr fun i _ _ => write_byte_of_ne (by omega)

theorem CharsAt.stringAt (hchars : m.CharsAt a text) (hend : m.byte (a + text.length) = nul) :
    m.StringAt a text := by
  induction text generalizing a with
  | nil => exact hend
  | cons c text ih =>
    refine ⟨hchars.1, hchars.2.1, ih hchars.2.2 ?_⟩
    rwa [List.length_cons, Nat.add_comm text.length, ← Nat.add_assoc] at hend

theorem StringAt.charsAt (hstring : m.StringAt a (text ++ other)) : m.CharsAt a text := by
  induction text generalizing a with
  | nil => trivial
  | cons c text ih => exact ⟨hstring.head, hstring.ne, ih hstring.tail⟩

theorem StringAt.chars (hstring : m.StringAt a text) : m.CharsAt a text := by
  have hnil : m.StringAt a (text ++ []) := by rwa [List.append_nil]
  exact hnil.charsAt

theorem StringAt.byte_end (hstring : m.StringAt a text) : m.byte (a + text.length) = nul := by
  have hend : m.StringAt (a + text.length) [] := by
    apply StringAt.drop
    rwa [List.append_nil]
  exact hend

section

variable (hwritten : m.WrittenFrom a text)
include hwritten

theorem WrittenFrom.write (hbehind : a + text.length ≤ b) : (m.write b c).WrittenFrom a text := by
  induction text with
  | nil => trivial
  | cons d text ih =>
    rw [List.length_cons] at hbehind
    refine ⟨?_, ih hwritten.2 (by omega)⟩
    rw [write_byte_of_ne (by omega)]
    exact hwritten.1

theorem WrittenFrom.push : (m.write (a + text.length) c).WrittenFrom a (c :: text) :=
  ⟨write_byte_self, hwritten.write (Nat.le_refl _)⟩

theorem WrittenFrom.stringAt (hnul : nul ∉ text)
    (hstring : m.StringAt (a + text.length) other) : m.StringAt a (text.reverse ++ other) := by
  induction text generalizing other with
  | nil => exact hstring
  | cons c text ih =>
    rw [List.mem_cons, not_or] at hnul
    rw [List.reverse_cons, List.append_assoc]
    exact ih hwritten.2 hnul.2 ⟨hwritten.1, Ne.symm hnul.1, hstring⟩

theorem WrittenFrom.byte_ne (hnul : nul ∉ text) (hsome : text ≠ []) : m.byte a ≠ nul := by
  induction text with
  | nil => exact absurd rfl hsome
  | cons c text ih =>
    rw [List.mem_cons, not_or] at hnul
    cases text with
    | nil =>
      rw [show m.byte a = c from hwritten.1]
      exact Ne.symm hnul.1
    | cons d text => exact ih hwritten.2 hnul.2 (List.cons_ne_nil _ _)

end

theorem stringAt_store {byte : Nat → Char} {low high : Nat} {stray : Bool} (hnul : nul ∉ text) :
    (⟨store byte a text, low, high, stray⟩ : CharMemory).StringAt a text := by
  have hall : ∀ before text : List Char, nul ∉ text →
      (⟨store byte a (before ++ text), low, high, stray⟩ : CharMemory).StringAt
        (a + before.length) text := by
    intro before text hnul
    induction text generalizing before with
    | nil => simp [StringAt, store]
    | cons c text ih =>
      rw [List.mem_cons, not_or] at hnul
      refine ⟨by simp [store], Ne.symm hnul.1, ?_⟩
      have htail := ih (before ++ [c]) hnul.2
      rwa [List.append_assoc, List.length_append] at htail
  exact hall [] text hnul

end CharMemory

end RtThread.Lib
