import Mathlib.Data.List.Perm.Subperm

namespace RtThread.Lib

open Function

/-! Items that are either stored or in the hands of exactly one process. -/

/-- The items of `all` are partitioned among `stored` and the processes;
`own i` is the item that process `i` holds. -/
structure Custody (all : β → Prop) (stored : List β) (own : ι → Option β) : Prop where
  nodup : stored.Nodup
  unique : ∀ i j b, own i = some b → own j = some b → i = j
  apart : ∀ i b, own i = some b → b ∉ stored
  cover : ∀ b, all b ↔ b ∈ stored ∨ ∃ i, own i = some b

namespace Custody

variable {β : Type u} {ι : Type v} {all : β → Prop} {stored stored' : List β}
  {own : ι → Option β} {i : ι} {item : β}

theorem start (hnodup : stored.Nodup) (hempty : ∀ i, own i = none)
    (hall : ∀ b, all b ↔ b ∈ stored) : Custody all stored own where
  nodup := hnodup
  unique := fun i j b hi => by simp [hempty] at hi
  apart := fun i b hi => by simp [hempty] at hi
  cover := fun b => by simp [hempty, hall]

theorem perm (hcustody : Custody all stored own) (hperm : stored.Perm stored') :
    Custody all stored' own where
  nodup := hperm.nodup_iff.mp hcustody.nodup
  unique := hcustody.unique
  apart := fun j b hown => by
    rw [← hperm.mem_iff]
    exact hcustody.apart j b hown
  cover := fun b => by
    rw [← hperm.mem_iff]
    exact hcustody.cover b

theorem length_le {own : ι → Option Nat} {stored : List Nat} {n : Nat}
    (hcustody : Custody (· < n) stored own) : stored.length ≤ n := by
  have hsubset : stored ⊆ List.range n := by
    intro b hb
    rw [List.mem_range]
    exact (hcustody.cover b).mpr (.inl hb)
  have hlength := (List.subperm_of_subset hcustody.nodup hsubset).length_le
  rwa [List.length_range] at hlength

variable [DecidableEq ι]

theorem keep (hcustody : Custody all stored own) {held : Option β}
    (hheld : own i = held) : Custody all stored (update own i held) := by
  rw [← hheld, update_eq_self]
  exact hcustody

theorem create (hcustody : Custody all stored own) (hnew : ¬ all item)
    (hempty : own i = none) {all' : β → Prop} (hall : ∀ b, all' b ↔ all b ∨ b = item) :
    Custody all' stored (update own i (some item)) := by
  have hout : ∀ j, own j ≠ some item := fun j hown =>
    hnew ((hcustody.cover item).mpr (.inr ⟨j, hown⟩))
  have hstored : item ∉ stored := fun hmem => hnew ((hcustody.cover item).mpr (.inl hmem))
  refine ⟨hcustody.nodup, fun j k b hj hk => ?_, fun j b hj => ?_, fun b => ?_⟩
  · by_cases hji : j = i <;> by_cases hki : k = i <;>
      simp only [update_apply, hji, hki, if_true, if_false] at hj hk ⊢
    · cases hj
      exact absurd hk (hout k)
    · cases hk
      exact absurd hj (hout j)
    · exact hcustody.unique j k b hj hk
  · by_cases hji : j = i
    · subst hji
      rw [update_self] at hj
      cases hj
      exact hstored
    · rw [update_of_ne hji] at hj
      exact hcustody.apart j b hj
  · rw [hall, hcustody.cover]
    constructor
    · intro h
      rcases h with (hmem | ⟨j, hj⟩) | rfl
      · exact .inl hmem
      · refine .inr ⟨j, ?_⟩
        have hji : j ≠ i := by
          intro heq
          rw [heq, hempty] at hj
          cases hj
        rw [update_of_ne hji]
        exact hj
      · exact .inr ⟨i, update_self ..⟩
    · intro h
      rcases h with hmem | ⟨j, hj⟩
      · exact .inl (.inl hmem)
      · by_cases hji : j = i
        · subst hji
          rw [update_self] at hj
          exact .inr (Option.some.inj hj).symm
        · rw [update_of_ne hji] at hj
          exact .inl (.inr ⟨j, hj⟩)

theorem take (hcustody : Custody all (item :: stored) own) (hempty : own i = none) :
    Custody all stored (update own i (some item)) := by
  obtain ⟨hfree, hnodup⟩ := List.nodup_cons.mp hcustody.nodup
  have hrest : Custody (fun b => all b ∧ b ≠ item) stored own := by
    refine ⟨hnodup, hcustody.unique, fun j b hj hmem =>
      hcustody.apart j b hj (List.mem_cons_of_mem item hmem), fun b => ?_⟩
    rw [hcustody.cover, List.mem_cons]
    constructor
    · intro h
      obtain ⟨(rfl | hmem) | hown, hne⟩ := h
      · exact absurd rfl hne
      · exact .inl hmem
      · exact .inr hown
    · intro h
      rcases h with hmem | ⟨j, hj⟩
      · exact ⟨.inl (.inr hmem), fun heq => hfree (heq ▸ hmem)⟩
      · exact ⟨.inr ⟨j, hj⟩, fun heq =>
          hcustody.apart j b hj (heq ▸ List.mem_cons_self)⟩
  have hall : all item := (hcustody.cover item).mpr (.inl List.mem_cons_self)
  refine hrest.create (fun h => h.2 rfl) hempty (fun b => ?_)
  constructor
  · intro hb
    by_cases heq : b = item
    · exact .inr heq
    · exact .inl ⟨hb, heq⟩
  · intro h
    rcases h with h | rfl
    · exact h.1
    · exact hall

theorem put (hcustody : Custody all stored own) (hheld : own i = some item) :
    Custody all (item :: stored) (update own i none) := by
  refine ⟨List.nodup_cons.mpr ⟨hcustody.apart i item hheld, hcustody.nodup⟩,
    fun j k b hj hk => ?_, fun j b hj => ?_, fun b => ?_⟩
  · have hji : j ≠ i := fun heq => by simp [heq] at hj
    have hki : k ≠ i := fun heq => by simp [heq] at hk
    rw [update_of_ne hji] at hj
    rw [update_of_ne hki] at hk
    exact hcustody.unique j k b hj hk
  · have hji : j ≠ i := fun heq => by simp [heq] at hj
    rw [update_of_ne hji] at hj
    rw [List.mem_cons, not_or]
    refine ⟨fun heq => hji (hcustody.unique j i b hj (heq ▸ hheld)), ?_⟩
    exact hcustody.apart j b hj
  · rw [hcustody.cover, List.mem_cons]
    constructor
    · intro h
      rcases h with hmem | ⟨j, hj⟩
      · exact .inl (.inr hmem)
      · by_cases hji : j = i
        · subst hji
          exact .inl (.inl (Option.some.inj (hj.symm.trans hheld)))
        · refine .inr ⟨j, ?_⟩
          rw [update_of_ne hji]
          exact hj
    · intro h
      rcases h with (rfl | hmem) | ⟨j, hj⟩
      · exact .inr ⟨i, hheld⟩
      · exact .inl hmem
      · have hji : j ≠ i := fun heq => by simp [heq] at hj
        rw [update_of_ne hji] at hj
        exact .inr ⟨j, hj⟩

theorem length_lt {own : ι → Option Nat} {stored : List Nat} {n b : Nat}
    (hcustody : Custody (· < n) stored own) (hheld : own i = some b) :
    stored.length < n :=
  (hcustody.put hheld).length_le

end Custody

end RtThread.Lib
