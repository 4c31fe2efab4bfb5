import Mathlib.Data.List.DropRight
import RtThread.Lib.Ring

namespace RtThread.Lib

open Function

/-! A ring that goes on over its oldest values when it is full. -/

variable {α : Type u} {pool : Nat → α} {size start count : Nat} {values rest : List α}

/-- Overwrites the cells from `start` on, around the ring. -/
def storeRing (pool : Nat → α) (size start : Nat) : List α → Nat → α
  | [] => pool
  | value :: values => storeRing (update pool (start % size) value) size (start + 1) values

theorem rtake_of_length_le {bound : Nat} (hle : values.length ≤ bound) :
    values.rtake bound = values := by
  rw [List.rtake, Nat.sub_eq_zero_of_le hle, List.drop_zero]

theorem length_rtake (values : List α) (bound : Nat) :
    (values.rtake bound).length = min bound values.length := by
  rw [List.rtake, List.length_drop]
  omega

theorem rtake_rtake_append (values rest : List α) (bound : Nat) :
    (values.rtake bound ++ rest).rtake bound = (values ++ rest).rtake bound := by
  rcases Nat.le_total values.length bound with hle | hle
  · rw [rtake_of_length_le hle]
  · have hlength : (values.drop (values.length - bound) ++ rest).length - bound = rest.length := by
      simp only [List.length_append, List.length_drop]
      omega
    have hboth : values.length + rest.length - bound = values.length - bound + rest.length := by omega
    rw [List.rtake, List.rtake, hlength, List.rtake, List.length_append, hboth, ← List.drop_drop,
      List.drop_append_of_le_length (Nat.sub_le ..)]

theorem rtake_append_rtake (values rest : List α) (bound : Nat) :
    (values ++ rest.rtake bound).rtake bound = (values ++ rest).rtake bound := by
  rcases Nat.le_total rest.length bound with hle | hle
  · rw [rtake_of_length_le hle]
  · have hkept : (rest.rtake bound).length = bound := by
      rw [length_rtake]
      omega
    have hfirst : values.length + bound - bound = values.length := by omega
    have hsecond : values.length + rest.length - bound = values.length + (rest.length - bound) := by
      omega
    rw [List.rtake, List.length_append, hkept, hfirst, List.drop_left, List.rtake, List.rtake,
      List.length_append, hsecond, ← List.drop_drop, List.drop_left]

theorem rtake_concat_of_full {bound : Nat} (hfull : values.length = bound) (hpos : 0 < bound)
    (value : α) : (values ++ [value]).rtake bound = values.tail ++ [value] := by
  obtain ⟨first, values, rfl⟩ := List.exists_cons_of_length_pos (hfull ▸ hpos)
  have hone : (first :: values ++ [value]).length - bound = 1 := by
    rw [← hfull]
    simp
  rw [List.rtake, hone]
  rfl

theorem storeRing_congr {a b : Nat} (hsame : a % size = b % size) :
    storeRing pool size a values = storeRing pool size b values := by
  induction values generalizing pool a b with
  | nil => rfl
  | cons value values ih =>
    have hnext : (a + 1) % size = (b + 1) % size := by rw [Nat.add_mod, hsame, ← Nat.add_mod]
    rw [storeRing, storeRing, hsame, ih hnext]

theorem storeRing_append {start : Nat} (values rest : List α) :
    storeRing pool size start (values ++ rest) =
      storeRing (storeRing pool size start values) size (start + values.length) rest := by
  induction values generalizing pool start with
  | nil => rfl
  | cons value values ih =>
    rw [List.cons_append, storeRing, storeRing, ih, List.length_cons, Nat.add_right_comm,
      Nat.add_assoc]

theorem storeCells_cons {start : Nat} (value : α) (values : List α) :
    storeCells pool start (value :: values) =
      storeCells (update pool start value) (start + 1) values := by
  funext i
  rcases Nat.lt_trichotomy i start with hlt | rfl | hgt
  · rw [storeCells_outside (.inl hlt), storeCells_outside (.inl (Nat.lt_succ_of_lt hlt)),
      update_of_ne (Nat.ne_of_lt hlt)]
  · rw [storeCells_outside (.inl (Nat.lt_succ_self i)), update_self]
    simp [storeCells]
  · obtain ⟨k, rfl⟩ : ∃ k, i = start + 1 + k := ⟨i - (start + 1), by omega⟩
    have hfirst : start ≤ start + 1 + k := by omega
    have hnext : start + 1 ≤ start + 1 + k := by omega
    have hindex : start + 1 + k - start = k + 1 := by omega
    have hindex' : start + 1 + k - (start + 1) = k := by omega
    unfold storeCells
    rw [if_pos hfirst, if_pos hnext, hindex, hindex', List.getD_cons_succ,
      update_of_ne (Nat.ne_of_gt hgt)]

theorem storeRing_eq_storeCells {start : Nat} (hfits : start + values.length ≤ size) :
    storeRing pool size start values = storeCells pool start values := by
  induction values generalizing pool start with
  | nil =>
    funext i
    simp [storeRing, storeCells]
  | cons value values ih =>
    rw [List.length_cons] at hfits
    rw [storeRing, storeCells_cons, Nat.mod_eq_of_lt (by omega), ih (by omega)]

theorem storeRing_eq_storeCells_wrap {start : Nat} (hends : start + values.length = size)
    (hfits : rest.length ≤ size) :
    storeRing pool size start (values ++ rest) = storeCells (storeCells pool start values) 0 rest := by
  rw [storeRing_append, storeRing_eq_storeCells hends.le, hends,
    storeRing_congr ((Nat.mod_self size).trans (Nat.zero_mod size).symm),
    storeRing_eq_storeCells (by omega)]

theorem ringContents_tail (hstart : start < size) (hcount : 0 < count) :
    (ringContents pool size start count).tail =
      ringContents pool size ((start + 1) % size) (count - 1) := by
  obtain ⟨count, rfl⟩ := Nat.exists_eq_succ_of_ne_zero hcount.ne'
  rw [Nat.succ_eq_add_one, ringContents_get hstart, List.tail_cons, Nat.add_sub_cancel]

theorem ringContents_drop {taken : Nat} (htaken : taken ≤ count) :
    (ringContents pool size start count).drop taken =
      ringContents pool size ((start + taken) % size) (count - taken) := by
  obtain ⟨left, rfl⟩ := Nat.exists_eq_add_of_le htaken
  rw [ringContents_add, List.drop_left' ringContents_length, Nat.add_sub_cancel_left]

theorem ringContents_take {taken : Nat} (htaken : taken ≤ count) :
    (ringContents pool size start count).take taken = ringContents pool size start taken := by
  obtain ⟨left, rfl⟩ := Nat.exists_eq_add_of_le htaken
  rw [ringContents_add, List.take_left' ringContents_length]

theorem ringContents_overwrite (hstart : start < size) (value : α) :
    ringContents (update pool (start % size) value) size ((start + 1) % size) size =
      (ringContents pool size start size).tail ++ [value] := by
  obtain ⟨count, rfl⟩ := Nat.exists_eq_succ_of_ne_zero (Nat.ne_zero_of_lt hstart)
  have hround : start % (count + 1) = ((start + 1) % (count + 1) + count) % (count + 1) := by
    rw [Nat.mod_add_mod, Nat.add_right_comm, Nat.add_assoc, Nat.add_mod_right]
  rw [ringContents_tail hstart (Nat.succ_pos _), Nat.succ_eq_add_one, Nat.add_sub_cancel, hround]
  exact ringContents_put (Nat.lt_succ_self _) value

theorem ringContents_storeRing (pool : Nat → α) (hstart : start < size) (hcount : count ≤ size) (values : List α) :
    ringContents (storeRing pool size (start + count) values) size
        ((start + (count + values.length - size)) % size) (min size (count + values.length)) =
      (ringContents pool size start count ++ values).rtake size := by
  induction values generalizing pool start count with
  | nil =>
    have hnone : count + 0 - size = 0 := by omega
    rw [List.length_nil, List.append_nil, hnone, Nat.add_zero, Nat.add_zero, Nat.mod_eq_of_lt hstart,
      Nat.min_eq_right hcount, rtake_of_length_le (by rw [ringContents_length]; exact hcount)]
    rfl
  | cons value values ih =>
    rw [List.length_cons, storeRing]
    rcases Nat.lt_or_ge count size with hroom | hfull
    · have hnext := ih (update pool ((start + count) % size) value) hstart
        (Nat.succ_le_of_lt hroom)
      rw [ringContents_put hroom, List.append_assoc, List.singleton_append] at hnext
      have hsum : count + 1 + values.length = count + (values.length + 1) := by omega
      rwa [Nat.succ_eq_add_one, hsum, ← Nat.add_assoc] at hnext
    · obtain rfl : count = size := by omega
      have hstart' : (start + 1) % count < count := Nat.mod_lt _ (by omega)
      have hnext := ih (update pool (start % count) value) hstart'
        (Nat.le_refl count)
      rw [ringContents_overwrite hstart] at hnext
      have hplace : (start + count + 1) % count = ((start + 1) % count + count) % count := by
        rw [Nat.add_mod_right, Nat.mod_mod, Nat.add_right_comm, Nat.add_mod_right]
      have hlast : (start + (count + (values.length + 1) - count)) % count =
          ((start + 1) % count + (count + values.length - count)) % count := by
        rw [Nat.mod_add_mod]
        congr 1
        omega
      have hmin : min count (count + (values.length + 1)) = min count (count + values.length) := by
        omega
      rw [Nat.add_mod_right, storeRing_congr hplace, hlast, hmin, hnext,
        ← rtake_concat_of_full ringContents_length (by omega) value, rtake_rtake_append,
        List.append_assoc, List.singleton_append]

end RtThread.Lib
