import Mathlib.Data.List.Basic
import Mathlib.Tactic.Ring

namespace RtThread.Lib

open Function

/-! Memory as bytes, and little-endian words in it. -/

abbrev ByteMemory := Nat → UInt8

def leValue : List UInt8 → Nat
  | [] => 0
  | byte :: rest => byte.toNat + 256 * leValue rest

def leBytes : Nat → Nat → List UInt8
  | 0, _ => []
  | n + 1, value => UInt8.ofNat value :: leBytes n (value / 256)

@[simp] theorem length_leBytes (n value : Nat) : (leBytes n value).length = n := by
  induction n generalizing value with
  | zero => rfl
  | succ n ih => simp [leBytes, ih]

theorem leValue_leBytes {n value : Nat} (hlt : value < 256 ^ n) :
    leValue (leBytes n value) = value := by
  induction n generalizing value with
  | zero =>
    rw [Nat.pow_zero, Nat.lt_one_iff] at hlt
    rw [hlt]
    rfl
  | succ n ih =>
    have hrest : value / 256 < 256 ^ n := by
      apply Nat.div_lt_of_lt_mul
      rwa [← Nat.pow_succ']
    simp only [leBytes, leValue, ih hrest, UInt8.toNat_ofNat']
    omega

theorem leValue_lt (bytes : List UInt8) : leValue bytes < 256 ^ bytes.length := by
  induction bytes with
  | nil => exact Nat.one_pos
  | cons byte rest ih =>
    have hbyte := byte.toNat_lt
    rw [leValue, List.length_cons, Nat.pow_succ']
    omega

theorem leBytes_leValue (bytes : List UInt8) : leBytes bytes.length (leValue bytes) = bytes := by
  induction bytes with
  | nil => rfl
  | cons byte rest ih =>
    have hbyte := byte.toNat_lt
    have hdiv : leValue (byte :: rest) / 256 = leValue rest := by
      rw [leValue]
      omega
    rw [List.length_cons, leBytes, hdiv, ih, leValue]
    congr 1
    apply UInt8.toNat_inj.mp
    rw [UInt8.toNat_ofNat']
    omega

namespace ByteMemory

variable {m m' : ByteMemory} {a b i n k value : Nat} {bytes : List UInt8}

def readBytes (m : ByteMemory) (a n : Nat) : List UInt8 :=
  (List.range n).map fun i => m (a + i)

def writeBytes (m : ByteMemory) (a : Nat) (bytes : List UInt8) : ByteMemory := fun i =>
  if a ≤ i then (bytes[i - a]?).getD (m i) else m i

def readWord (m : ByteMemory) (a n : Nat) : Nat := leValue (m.readBytes a n)

def writeWord (m : ByteMemory) (a n value : Nat) : ByteMemory :=
  m.writeBytes a (leBytes n value)

@[simp] theorem length_readBytes : (m.readBytes a n).length = n := by
  simp [readBytes]

theorem readBytes_congr (hsame : ∀ i, a ≤ i → i < a + n → m' i = m i) :
    m'.readBytes a n = m.readBytes a n := by
  apply List.map_congr_left
  intro i hi
  rw [List.mem_range] at hi
  exact hsame (a + i) (by omega) (by omega)

theorem writeBytes_inside (hi : i < bytes.length) : m.writeBytes a bytes (a + i) = bytes[i] := by
  simp [writeBytes, hi]

theorem writeBytes_outside (hi : i < a ∨ a + bytes.length ≤ i) : m.writeBytes a bytes i = m i := by
  simp only [writeBytes]
  split
  next hle =>
    rw [List.getElem?_eq_none (by omega)]
    rfl
  · rfl

theorem readBytes_writeBytes : (m.writeBytes a bytes).readBytes a bytes.length = bytes := by
  apply List.ext_getElem
  · simp
  · intro i hread hbytes
    simp only [readBytes, List.getElem_map, List.getElem_range]
    exact writeBytes_inside hbytes

theorem readWord_lt : m.readWord a n < 256 ^ n := by
  have hlt := leValue_lt (m.readBytes a n)
  rwa [length_readBytes] at hlt

theorem readWord_congr (hsame : ∀ i, a ≤ i → i < a + n → m' i = m i) :
    m'.readWord a n = m.readWord a n := by
  rw [readWord, readWord, readBytes_congr hsame]

theorem readWord_writeWord (hlt : value < 256 ^ n) :
    (m.writeWord a n value).readWord a n = value := by
  have hread : (m.writeBytes a (leBytes n value)).readBytes a (leBytes n value).length = _ :=
    readBytes_writeBytes
  rw [length_leBytes] at hread
  rw [readWord, writeWord, hread, leValue_leBytes hlt]

theorem writeWord_readWord : m.writeWord a n (m.readWord a n) = m := by
  have hbytes := leBytes_leValue (m.readBytes a n)
  rw [length_readBytes] at hbytes
  rw [writeWord, readWord, hbytes]
  funext i
  simp only [writeBytes, readBytes, List.getElem?_map]
  split
  next hle =>
    by_cases hi : i - a < n
    · rw [List.getElem?_range hi, Option.map_some, Option.getD_some, Nat.add_sub_cancel' hle]
    · rw [List.getElem?_eq_none (by rw [List.length_range]; omega)]
      rfl
  · rfl

theorem writeWord_outside (hi : i < a ∨ a + n ≤ i) : m.writeWord a n value i = m i := by
  apply writeBytes_outside
  rwa [length_leBytes]

theorem readWord_writeWord_apart (hapart : b + k ≤ a ∨ a + n ≤ b) :
    (m.writeWord a n value).readWord b k = m.readWord b k := by
  apply readWord_congr
  intro i hle hlt
  apply writeWord_outside
  omega

def fill (m : ByteMemory) (a n : Nat) (byte : UInt8) : ByteMemory := fun i =>
  if a ≤ i ∧ i < a + n then byte else m i

def place (m source : ByteMemory) (a b n : Nat) : ByteMemory := fun i =>
  if a ≤ i ∧ i < a + n then source (b + (i - a)) else m i

variable {source source' : ByteMemory} {byte : UInt8}

@[simp] theorem fill_zero : m.fill a 0 byte = m := by
  funext i
  exact if_neg (by omega)

theorem fill_fill : (m.fill a n byte).fill (a + n) k byte = m.fill a (n + k) byte := by
  funext i
  simp only [fill]
  split_ifs <;> first | rfl | omega

theorem update_eq_fill : update m a byte = m.fill a 1 byte := by
  funext i
  rw [update_apply, fill]
  split_ifs <;> first | rfl | omega

theorem writeWord_eq_fill (hbytes : leBytes n value = List.replicate n byte) :
    m.writeWord a n value = m.fill a n byte := by
  funext i
  by_cases hi : a ≤ i ∧ i < a + n
  · obtain ⟨j, rfl⟩ := Nat.exists_eq_add_of_le hi.1
    have hj : j < (List.replicate n byte).length := by
      rw [List.length_replicate]
      omega
    rw [writeWord, hbytes, writeBytes_inside hj, List.getElem_replicate, fill, if_pos hi]
  · rw [writeWord_outside (by omega), fill, if_neg hi]

@[simp] theorem place_zero : m.place source a b 0 = m := by
  funext i
  exact if_neg (by omega)

theorem place_inside (hi : i < n) : m.place source a b n (a + i) = source (b + i) := by
  rw [place, if_pos ⟨Nat.le_add_right .., Nat.add_lt_add_left hi a⟩, Nat.add_sub_cancel_left]

theorem place_outside (hi : i < a ∨ a + n ≤ i) : m.place source a b n i = m i :=
  if_neg (by omega)

theorem place_place :
    (m.place source a b n).place source (a + n) (b + n) k = m.place source a b (n + k) := by
  funext i
  simp only [place]
  split_ifs <;> first | rfl | omega | (congr 1; omega)

theorem place_congr (hsame : ∀ i < n, source' (b + i) = source (b + i)) :
    m.place source' a b n = m.place source a b n := by
  funext i
  simp only [place]
  split
  next hi => exact hsame _ (by omega)
  · rfl

theorem update_eq_place : update m a (source b) = m.place source a b 1 := by
  funext i
  rw [update_apply, place]
  split_ifs <;> first | rfl | omega | (congr 1; omega)

theorem writeWord_eq_place : m.writeWord a n (source.readWord b n) = m.place source a b n := by
  have hbytes := leBytes_leValue (source.readBytes b n)
  rw [length_readBytes] at hbytes
  funext i
  by_cases hi : a ≤ i ∧ i < a + n
  · obtain ⟨j, rfl⟩ := Nat.exists_eq_add_of_le hi.1
    have hj : j < (source.readBytes b n).length := by
      rw [length_readBytes]
      omega
    rw [writeWord, readWord, hbytes, writeBytes_inside hj, place_inside (by omega)]
    simp [readBytes]
  · rw [writeWord_outside (by omega), place_outside (by omega)]

end ByteMemory

end RtThread.Lib
