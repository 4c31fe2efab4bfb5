import Mathlib.Algebra.Order.Ring.Nat
import Mathlib.Data.List.Nodup
import Mathlib.Data.List.Count

namespace RtThread.Lib

/-! Items spread over finitely many holders, each with a list of its own.  `count` of
the lists of all holders follows a change at one of them. -/

section Holdings

variable {ι : Type u} {β : Type v} [DecidableEq β]
  {holders : List ι} {own own' : ι → List β} {i : ι}

omit [DecidableEq β] in
theorem flatMap_congr_of_not_mem (hmem : i ∉ holders) (hother : ∀ j, j ≠ i → own' j = own j) :
    holders.flatMap own' = holders.flatMap own := by
  induction holders with
  | nil => rfl
  | cons j holders ih =>
    rw [List.mem_cons, not_or] at hmem
    rw [List.flatMap_cons, List.flatMap_cons, ih hmem.2, hother j fun h => hmem.1 h.symm]

theorem count_flatMap_of_eq (hmem : i ∈ holders) (hnodup : holders.Nodup)
    (hother : ∀ j, j ≠ i → own' j = own j) (b : β) :
    (holders.flatMap own').count b + (own i).count b =
      (holders.flatMap own).count b + (own' i).count b := by
  induction holders with
  | nil => cases hmem
  | cons j holders ih =>
    obtain ⟨hout, hrest⟩ := List.nodup_cons.mp hnodup
    rw [List.flatMap_cons, List.flatMap_cons, List.count_append, List.count_append]
    rcases eq_or_ne j i with rfl | hne
    · rw [flatMap_congr_of_not_mem hout hother]
      omega
    · have hi : i ∈ holders := (List.mem_cons.mp hmem).resolve_left fun h => hne h.symm
      have hih := ih hi hrest
      rw [hother j hne]
      omega

omit [DecidableEq β] in
theorem length_flatMap_eq_sum : (holders.flatMap own).length =
    (holders.map fun j => (own j).length).sum := by
  induction holders with
  | nil => rfl
  | cons j holders ih => simp [ih]

theorem count_le_count_flatMap (hmem : i ∈ holders) (b : β) :
    (own i).count b ≤ (holders.flatMap own).count b := by
  induction holders with
  | nil => cases hmem
  | cons j holders ih =>
    rw [List.flatMap_cons, List.count_append]
    rcases List.mem_cons.mp hmem with rfl | hmem
    · omega
    · have hih := ih hmem
      omega

theorem count_add_count_le {j : ι} (hi : i ∈ holders) (hj : j ∈ holders) (hne : i ≠ j)
    (b : β) : (own i).count b + (own j).count b ≤ (holders.flatMap own).count b := by
  induction holders with
  | nil => cases hi
  | cons k holders ih =>
    rw [List.flatMap_cons, List.count_append]
    have hle : ∀ l ∈ holders, (own l).count b ≤ (holders.flatMap own).count b :=
      fun l hl => count_le_count_flatMap hl b
    rcases List.mem_cons.mp hi with hik | hik
    · have hjk : j ∈ holders := (List.mem_cons.mp hj).resolve_left fun h => hne (hik.trans h.symm)
      have hjle := hle j hjk
      rw [hik]
      omega
    · rcases List.mem_cons.mp hj with hjk | hjk
      · have hile := hle i hik
        rw [hjk]
        omega
      · have hih := ih hik hjk
        omega

end Holdings

end RtThread.Lib
