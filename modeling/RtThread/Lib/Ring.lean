import Mathlib.Data.Nat.ModEq

namespace RtThread.Lib

open Function

/-! What a ring of cells holds: `count` values from cell `start` on. -/

variable {α : Type u}

def ringContents (pool : Nat → α) (size start count : Nat) : List α :=
  (List.range count).map fun i => pool ((start + i) % size)

section Ring

variable {pool : Nat → α} {size start count : Nat}

theorem ringContents_zero : ringContents pool size start 0 = [] := rfl

theorem ring_index_ne {i j : Nat} (hij : i < j) (hj : j < i + size) :
    (start + i) % size ≠ (start + j) % size := by
  intro heq
  have hmod : i ≡ j [MOD size] := Nat.ModEq.add_left_cancel' start heq
  have hdvd : size ∣ j - i := (Nat.modEq_iff_dvd' hij.le).mp hmod
  have hle : size ≤ j - i := Nat.le_of_dvd (by omega) hdvd
  omega

theorem ringContents_put (hroom : count < size) (value : α) :
    ringContents (update pool ((start + count) % size) value) size start (count + 1) =
      ringContents pool size start count ++ [value] := by
  unfold ringContents
  rw [List.range_succ, List.map_append, List.map_singleton, update_self]
  congr 1
  refine List.map_congr_left fun i hi => ?_
  have hlt : i < count := List.mem_range.mp hi
  rw [update_of_ne (ring_index_ne hlt (by omega))]

theorem ringContents_get (hstart : start < size) :
    ringContents pool size start (count + 1) =
      pool start :: ringContents pool size ((start + 1) % size) count := by
  unfold ringContents
  rw [List.range_succ_eq_map, List.map_cons, List.map_map, Nat.add_zero, Nat.mod_eq_of_lt hstart]
  congr 1
  refine List.map_congr_left fun i _ => ?_
  rw [comp_apply, Nat.mod_add_mod]
  congr 2
  omega

theorem ringContents_length : (ringContents pool size start count).length = count := by
  simp [ringContents]

end Ring

def loadCells (pool : Nat → α) (start count : Nat) : List α :=
  (List.range count).map fun i => pool (start + i)

def storeCells (pool : Nat → α) (start : Nat) (values : List α) : Nat → α :=
  fun i => if start ≤ i then values.getD (i - start) (pool i) else pool i

section Cells

variable {pool : Nat → α} {size start count : Nat} {values : List α}

theorem storeCells_inside {i : Nat} (hi : i < values.length) :
    storeCells pool start values (start + i) = values[i] := by
  simp [storeCells, hi]

theorem storeCells_outside {i : Nat} (hi : i < start ∨ start + values.length ≤ i) :
    storeCells pool start values i = pool i := by
  unfold storeCells
  split
  next hle => rw [List.getD_eq_getElem?_getD, List.getElem?_eq_none (by omega), Option.getD_none]
  · rfl

theorem ringContents_add (first rest : Nat) :
    ringContents pool size start (first + rest) =
      ringContents pool size start first ++
        ringContents pool size ((start + first) % size) rest := by
  unfold ringContents
  rw [List.range_add, List.map_append, List.map_map]
  congr 1
  refine List.map_congr_left fun i _ => ?_
  rw [comp_apply, Nat.mod_add_mod, Nat.add_assoc]

theorem ringContents_eq_loadCells (hfits : start + count ≤ size) :
    ringContents pool size start count = loadCells pool start count := by
  refine List.map_congr_left fun i hi => ?_
  rw [Nat.mod_eq_of_lt]
  have hlt : i < count := List.mem_range.mp hi
  omega

theorem ringContents_eq_loadCells_wrap (hstart : start ≤ size) (hwraps : size ≤ start + count)
    (hcount : count ≤ size) :
    ringContents pool size start count =
      loadCells pool start (size - start) ++ loadCells pool 0 (count - (size - start)) := by
  obtain ⟨rest, hrest⟩ : ∃ rest, count = (size - start) + rest :=
    ⟨count - (size - start), by omega⟩
  have hround : (start + (size - start)) % size = 0 := by
    rw [Nat.add_sub_cancel' hstart, Nat.mod_self]
  rw [hrest, ringContents_add, ringContents_eq_loadCells (by omega), hround,
    ringContents_eq_loadCells (by omega), Nat.add_sub_cancel_left]

theorem ringContents_storeCells (hroom : count + values.length ≤ size)
    (hfits : (start + count) % size + values.length ≤ size) :
    ringContents (storeCells pool ((start + count) % size) values) size start
        (count + values.length) =
      ringContents pool size start count ++ values := by
  have hcell : ∀ k, k < values.length →
      (start + (count + k)) % size = (start + count) % size + k := by
    intro k hk
    rw [← Nat.add_assoc, Nat.add_mod, Nat.mod_eq_of_lt (by omega : k < size),
      Nat.mod_eq_of_lt (by omega)]
  unfold ringContents
  rw [List.range_add, List.map_append]
  congr 1
  · refine List.map_congr_left fun i hi => storeCells_outside ?_
    have hlt : i < count := List.mem_range.mp hi
    by_contra hinside
    obtain ⟨k, hk⟩ : ∃ k, (start + i) % size = (start + count) % size + k :=
      ⟨(start + i) % size - (start + count) % size, by omega⟩
    have hne : (start + i) % size ≠ (start + (count + k)) % size :=
      ring_index_ne (by omega) (by omega)
    exact hne (by rw [hk, hcell k (by omega)])
  · apply List.ext_getElem
    · simp
    · intro k hk _
      have hlt : k < values.length := by simpa using hk
      simp only [List.map_map, List.getElem_map, List.getElem_range, comp_apply]
      rw [hcell k hlt]
      exact storeCells_inside hlt

theorem ringContents_storeCells_wrap {tail : List α}
    (hroom : count + values.length + tail.length ≤ size)
    (hends : (start + count) % size + values.length = size) :
    ringContents (storeCells (storeCells pool ((start + count) % size) values) 0 tail) size start
        (count + values.length + tail.length) =
      ringContents pool size start count ++ values ++ tail := by
  have hround : (start + (count + values.length)) % size = 0 := by
    rw [← Nat.add_assoc, Nat.add_mod]
    rcases Nat.lt_or_ge values.length size with hlt | hge
    · rw [Nat.mod_eq_of_lt hlt, hends, Nat.mod_self]
    · have hfull : values.length = size := by omega
      rw [hfull, Nat.mod_self, Nat.add_zero, Nat.mod_mod]
      omega
  calc
    ringContents (storeCells (storeCells pool ((start + count) % size) values) 0 tail) size start
          (count + values.length + tail.length) =
        ringContents (storeCells (storeCells pool ((start + count) % size) values)
          ((start + (count + values.length)) % size) tail) size start
            (count + values.length + tail.length) := by rw [hround]
    _ = ringContents (storeCells pool ((start + count) % size) values) size start
          (count + values.length) ++ tail :=
      ringContents_storeCells hroom (by rw [hround]; omega)
    _ = ringContents pool size start count ++ values ++ tail := by
      rw [ringContents_storeCells (by omega) (by omega)]

end Cells

end RtThread.Lib
