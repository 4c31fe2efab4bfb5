import RtThread.Lib.ByteMemory

namespace RtThread.Lib

/-! A block of memory that is only read. -/

structure MemoryBlock where
  base : Nat
  bytes : List UInt8
  deriving DecidableEq

namespace MemoryBlock

def tail (m : MemoryBlock) (a : Nat) : Option (List UInt8) :=
  if m.base ≤ a ∧ a ≤ m.base + m.bytes.length then some (m.bytes.drop (a - m.base)) else none

def read (m : MemoryBlock) (a n : Nat) : Option (List UInt8) :=
  (m.tail a).bind fun rest => if n ≤ rest.length then some (rest.take n) else none

def word (m : MemoryBlock) (a : Nat) : Option Nat :=
  if a % 4 = 0 then (m.read a 4).map leValue else none

def string (m : MemoryBlock) (a : Nat) : Option (List UInt8) :=
  (m.tail a).bind fun rest => if 0 ∈ rest then some (rest.takeWhile (· ≠ 0)) else none

def At (m : MemoryBlock) (a : Nat) (bytes : List UInt8) : Prop :=
  ∃ before after, m.bytes = before ++ bytes ++ after ∧ a = m.base + before.length

variable {m : MemoryBlock} {a n : Nat} {bytes rest : List UInt8}

theorem At.self : m.At m.base m.bytes := ⟨[], [], by simp, by simp⟩

theorem At.left (hat : m.At a (bytes ++ rest)) : m.At a bytes := by
  obtain ⟨before, after, hbytes, ha⟩ := hat
  exact ⟨before, rest ++ after, by simpa using hbytes, ha⟩

theorem At.right (hat : m.At a (bytes ++ rest)) : m.At (a + bytes.length) rest := by
  obtain ⟨before, after, hbytes, ha⟩ := hat
  refine ⟨before ++ bytes, after, by simpa using hbytes, ?_⟩
  rw [ha, List.length_append, Nat.add_assoc]

theorem At.end_le (hat : m.At a bytes) : a + bytes.length ≤ m.base + m.bytes.length := by
  obtain ⟨before, after, hbytes, ha⟩ := hat
  rw [hbytes, ha]
  simp only [List.length_append]
  omega

theorem At.tail (hat : m.At a bytes) : ∃ after, m.tail a = some (bytes ++ after) := by
  obtain ⟨before, after, hbytes, ha⟩ := hat
  refine ⟨after, ?_⟩
  have hinside : m.base ≤ a ∧ a ≤ m.base + m.bytes.length := by
    rw [hbytes, ha]
    simp only [List.length_append]
    omega
  unfold MemoryBlock.tail
  rw [if_pos hinside, ha, Nat.add_sub_cancel_left, hbytes, List.append_assoc, List.drop_left]

theorem At.read (hat : m.At a bytes) : m.read a bytes.length = some bytes := by
  obtain ⟨after, htail⟩ := hat.tail
  unfold MemoryBlock.read
  rw [htail, Option.bind_some, if_pos (by simp), List.take_left]

theorem At.word {value : Nat} (hat : m.At a (leBytes 4 value)) (halign : a % 4 = 0)
    (hlt : value < 2 ^ 32) : m.word a = some value := by
  have hread := hat.read
  rw [length_leBytes] at hread
  unfold MemoryBlock.word
  rw [if_pos halign, hread, Option.map_some, leValue_leBytes (by omega)]

theorem At.string (hat : m.At a (bytes ++ 0 :: rest)) (hbytes : 0 ∉ bytes) :
    m.string a = some bytes := by
  obtain ⟨after, htail⟩ := hat.tail
  have hall : ∀ byte ∈ bytes, decide (byte ≠ 0) = true := by
    intro byte hbyte
    rw [decide_eq_true_eq]
    rintro rfl
    exact hbytes hbyte
  unfold MemoryBlock.string
  rw [htail, Option.bind_some, if_pos (by simp), List.append_assoc,
    List.takeWhile_append_of_pos hall]
  simp

end MemoryBlock

end RtThread.Lib
