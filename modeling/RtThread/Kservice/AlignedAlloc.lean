import RtThread.Kernel.Align
import RtThread.Lib.ByteMemory

namespace RtThread.Kservice

open RtThread.Lib

/-! `rt_malloc_align` and `rt_free_align` of `kservice.c`, over any `rt_malloc` and `rt_free`.
A pointer has four bytes. -/

/-- The size that `rt_malloc_align` asks `rt_malloc` for. -/
def alignSize (size align : Nat) : Nat := add32 (rtAlign size 4) (rtAlign align 4)

def rtMallocAlign (rtMalloc : Nat → ByteMemory → Nat × ByteMemory) (size align : Nat)
    (memory : ByteMemory) : Nat × ByteMemory :=
  let (ptr, memory) := rtMalloc (alignSize size align) memory
  let align := rtAlign align 4
  if ptr ≠ 0 then
    let alignPtr :=
      if ptr &&& sub32 align 1 = 0 then add32 ptr align
      else add32 ptr (sub32 align 1) &&& (2 ^ 32 - 1 - sub32 align 1)
    (alignPtr, memory.writeWord (sub32 alignPtr 4) 4 ptr)
  else (ptr, memory)

def rtFreeAlign (rtFree : Nat → ByteMemory → α) (ptr : Nat) (memory : ByteMemory) : α :=
  let realPtr := memory.readWord (sub32 ptr 4) 4
  rtFree realPtr memory

/-- What is given out, in a block of `total` bytes from `ptr` on. -/
structure AlignedIn (size align ptr total alignPtr : Nat) : Prop where
  aligned : alignPtr % align = 0
  front : ptr + 4 ≤ alignPtr
  behind : alignPtr + size ≤ ptr + total

section Sizes

variable {size align k ptr : Nat}

theorem rtAlign_four (hk : k ≤ 30) : rtAlign (2 ^ k) 4 = 2 ^ max k 2 := by
  have hfour : (4 : Nat) = 2 ^ 2 := rfl
  have hpow : 2 ^ max k 2 ≤ 2 ^ 30 := Nat.pow_le_pow_right (by decide) (by omega)
  have hmod : 2 ^ max k 2 % 2 ^ 2 = 0 :=
    Nat.mod_eq_zero_of_dvd (Nat.pow_dvd_pow 2 (Nat.le_max_right k 2))
  have hle : 2 ^ k ≤ 2 ^ max k 2 := Nat.pow_le_pow_right (by decide) (Nat.le_max_left k 2)
  refine Nat.le_antisymm ?_ ?_
  · rw [hfour]
    exact rtAlign_le (by decide) hle hmod (by omega)
  · rcases Nat.le_total k 2 with hsmall | hlarge
    · rw [Nat.max_eq_right hsmall]
      have hpos := Nat.two_pow_pos k
      have hdvd : 4 ∣ rtAlign (2 ^ k) 4 :=
        Nat.dvd_of_mod_eq_zero (rtAlign_mod (2 ^ k) (by decide : 2 ≤ 32))
      have hge : 2 ^ k ≤ rtAlign (2 ^ k) 4 := by
        rw [hfour]
        exact le_rtAlign (by decide) (by omega)
      exact Nat.le_of_dvd (by omega) hdvd
    · rw [Nat.max_eq_left hlarge, hfour]
      exact le_rtAlign (by decide) (by omega)

theorem alignSize_ge (hk : k ≤ 30) (hsize : size + 2 ^ k + 4 < 2 ^ 31) :
    size + 2 ^ max k 2 ≤ alignSize size (2 ^ k) := by
  have hfour : (4 : Nat) = 2 ^ 2 := rfl
  have hpos := Nat.two_pow_pos k
  have hpow : 2 ^ max k 2 ≤ 2 ^ 30 := Nat.pow_le_pow_right (by decide) (by omega)
  have hle : size ≤ rtAlign size 4 := by
    rw [hfour]
    exact le_rtAlign (by decide) (by omega)
  have hlt : rtAlign size 4 < size + 4 := by
    rw [hfour]
    exact rtAlign_lt_add size (by decide)
  rw [alignSize, rtAlign_four hk, add32, Nat.mod_eq_of_lt (by omega)]
  omega

theorem alignPtr_in (hlow : 2 ≤ k) (hk : k ≤ 30) {total : Nat} (hptr : ptr % 4 = 0)
    (hfits : ptr + total < 2 ^ 32) (htotal : size + 2 ^ k ≤ total) :
    AlignedIn size (2 ^ k) ptr total
      (if ptr &&& sub32 (2 ^ k) 1 = 0 then add32 ptr (2 ^ k)
      else add32 ptr (sub32 (2 ^ k) 1) &&& (2 ^ 32 - 1 - sub32 (2 ^ k) 1)) := by
  have hpos := Nat.two_pow_pos k
  have hpow : 2 ^ k ≤ 2 ^ 30 := Nat.pow_le_pow_right (by decide) hk
  have hdvd : 4 ∣ 2 ^ k := Nat.pow_dvd_pow 2 hlow
  have hfour : 4 ≤ 2 ^ k := Nat.le_of_dvd hpos hdvd
  rw [sub32_eq hpos (by omega), Nat.and_two_pow_sub_one_eq_mod]
  split
  next haligned =>
    rw [add32, Nat.mod_eq_of_lt (by omega)]
    refine ⟨?_, by omega, by omega⟩
    rw [Nat.add_mod_right, haligned]
  next hodd =>
    have hround : add32 ptr (2 ^ k - 1) &&& (2 ^ 32 - 1 - (2 ^ k - 1)) = rtAlign ptr (2 ^ k) := rfl
    rw [hround]
    have hmod : rtAlign ptr (2 ^ k) % 2 ^ k = 0 := rtAlign_mod ptr (by omega)
    have hle : ptr ≤ rtAlign ptr (2 ^ k) := le_rtAlign (by omega) (by omega)
    have hlt : rtAlign ptr (2 ^ k) < ptr + 2 ^ k := rtAlign_lt_add ptr (by omega)
    have hne : rtAlign ptr (2 ^ k) ≠ ptr := fun heq => hodd (heq ▸ hmod)
    have hword : rtAlign ptr (2 ^ k) % 4 = 0 :=
      Nat.mod_eq_zero_of_dvd (hdvd.trans (Nat.dvd_of_mod_eq_zero hmod))
    obtain ⟨words, hwords⟩ := hdvd
    exact ⟨hmod, by omega, by omega⟩

end Sizes

section RoundTrip

variable {rtMalloc : Nat → ByteMemory → Nat × ByteMemory} {size k : Nat}

/-- For every `rt_malloc` that gives a block aligned to a pointer and long enough: what
`rt_malloc_align` gives out lies in this block, and `rt_free_align` finds the block again. -/
theorem mallocAlign_roundTrip
    (hmalloc : ∀ total memory, (rtMalloc total memory).1 = 0 ∨
      (rtMalloc total memory).1 % 4 = 0 ∧ (rtMalloc total memory).1 + total < 2 ^ 32)
    (hsize : size + 2 ^ k + 4 < 2 ^ 31) (memory : ByteMemory) :
    let ptr := (rtMalloc (alignSize size (2 ^ k)) memory).1
    let answer := rtMallocAlign rtMalloc size (2 ^ k) memory
    (ptr = 0 ∧ answer.1 = 0) ∨
      AlignedIn size (2 ^ k) ptr (alignSize size (2 ^ k)) answer.1 ∧
        ∀ memory' : ByteMemory,
          (∀ i, ptr ≤ i → i < ptr + alignSize size (2 ^ k) →
            i < answer.1 ∨ answer.1 + size ≤ i → memory' i = answer.2 i) →
          ∀ {α : Type} (rtFree : Nat → ByteMemory → α),
            rtFreeAlign rtFree answer.1 memory' = rtFree ptr memory' := by
  have hk : k ≤ 30 := by
    by_contra hnot
    have hlarge : 2 ^ 31 ≤ 2 ^ k := Nat.pow_le_pow_right (by decide) (by omega)
    omega
  have hasked := alignSize_ge hk hsize
  generalize halloc : rtMalloc (alignSize size (2 ^ k)) memory = given
  obtain ⟨ptr, given⟩ := given
  have hblock := hmalloc (alignSize size (2 ^ k)) memory
  simp only [rtMallocAlign, halloc, rtAlign_four hk] at hblock ⊢
  rcases Nat.eq_zero_or_pos ptr with rfl | hpos
  · exact .inl ⟨rfl, by simp⟩
  · right
    have hnull : ptr ≠ 0 := Nat.ne_of_gt hpos
    obtain ⟨hword, hfits⟩ := hblock.resolve_left hnull
    have hin := alignPtr_in (Nat.le_max_right k 2) (by omega) hword hfits hasked
    rw [if_pos hnull]
    dsimp only
    generalize (if ptr &&& sub32 (2 ^ max k 2) 1 = 0 then add32 ptr (2 ^ max k 2)
      else add32 ptr (sub32 (2 ^ max k 2) 1) &&& (2 ^ 32 - 1 - sub32 (2 ^ max k 2) 1)) =
        alignPtr at hin ⊢
    obtain ⟨haligned, hfront, hbehind⟩ := hin
    refine ⟨⟨?_, hfront, hbehind⟩, fun memory' hsame α rtFree => ?_⟩
    · exact Nat.mod_eq_zero_of_dvd ((Nat.pow_dvd_pow 2 (Nat.le_max_left k 2)).trans
        (Nat.dvd_of_mod_eq_zero haligned))
    · have hsub : sub32 alignPtr 4 = alignPtr - 4 := sub32_eq (by omega) (by omega)
      rw [hsub] at hsame
      have hread : memory'.readWord (alignPtr - 4) 4 = ptr := by
        rw [ByteMemory.readWord_congr (fun i hlow hhigh =>
          hsame i (by omega) (by omega) (.inl (by omega))),
          ByteMemory.readWord_writeWord (by omega)]
      rw [rtFreeAlign, hsub, hread]

def givePage (total : Nat) (memory : ByteMemory) : Nat × ByteMemory :=
  (if total ≤ 4096 then 4100 else 0, memory)

/-- A block of 72 bytes for 61 bytes aligned to eight; the client fills what it has got. -/
theorem mallocAlign_roundTrip_givePage : let answer := rtMallocAlign givePage 61 (2 ^ 3) fun _ => 7
    AlignedIn 61 (2 ^ 3) 4100 72 answer.1 ∧
      rtFreeAlign (fun ptr _ => ptr) answer.1 (answer.2.fill answer.1 61 255) = 4100 := by
  intro answer
  have hmalloc : ∀ total memory, (givePage total memory).1 = 0 ∨
      (givePage total memory).1 % 4 = 0 ∧ (givePage total memory).1 + total < 2 ^ 32 := by
    intro total memory
    simp only [givePage]
    split <;> omega
  have hasked : alignSize 61 (2 ^ 3) = 72 := by decide
  have hgiven : (givePage 72 fun _ => 7).1 = 4100 := rfl
  rcases mallocAlign_roundTrip hmalloc (show 61 + 2 ^ 3 + 4 < 2 ^ 31 by decide) (fun _ => 7) with
    ⟨hnull, -⟩ | ⟨hin, hfree⟩
  · rw [hasked, hgiven] at hnull
    cases hnull
  · rw [hasked, hgiven] at hin hfree
    refine ⟨hin, hfree _ (fun i _ _ hout => ?_) _⟩
    change i < answer.1 ∨ answer.1 + 61 ≤ i at hout
    rw [ByteMemory.fill, if_neg (by omega)]

end RoundTrip

end RtThread.Kservice
