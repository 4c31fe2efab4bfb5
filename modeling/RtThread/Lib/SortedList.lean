import Mathlib.Data.Prod.Lex
import Mathlib.Data.List.Basic

namespace RtThread.Lib

open Function

/-! Lists in strictly increasing order of a key, and what a change of one key does to
the order. -/

section SortedBy

variable {α : Type u} {κ : Type v} [LinearOrder κ]
variable {key key' : α → κ} {a : α} {k : κ} {list list' : List α}

def SortedBy (key : α → κ) (list : List α) : Prop :=
  list.Pairwise fun a b => key a < key b

theorem SortedBy.nil : SortedBy key [] := List.Pairwise.nil

theorem SortedBy.sublist (hsorted : SortedBy key list) (hsub : list'.Sublist list) :
    SortedBy key list' :=
  List.Pairwise.sublist hsub hsorted

theorem SortedBy.congr (hsorted : SortedBy key list) (hkey : ∀ b ∈ list, key' b = key b) :
    SortedBy key' list := by
  refine List.Pairwise.imp_of_mem (fun hb hc hlt => ?_) hsorted
  rw [hkey _ hb, hkey _ hc]
  exact hlt

theorem SortedBy.cons_iff :
    SortedBy key (a :: list) ↔ (∀ b ∈ list, key a < key b) ∧ SortedBy key list :=
  List.pairwise_cons

theorem SortedBy.append_cons_iff {before after : List α} :
    SortedBy key (before ++ a :: after) ↔
      SortedBy key (before ++ after) ∧ (∀ b ∈ before, key b < key a) ∧
        ∀ b ∈ after, key a < key b := by
  unfold SortedBy
  simp only [List.pairwise_append, List.pairwise_cons, List.mem_cons]
  constructor
  · rintro ⟨hbefore, ⟨hfirst, hafter⟩, hcross⟩
    exact ⟨⟨hbefore, hafter, fun b hb c hc => hcross b hb c (.inr hc)⟩,
      fun b hb => hcross b hb a (.inl rfl), hfirst⟩
  · rintro ⟨⟨hbefore, hafter, hcross⟩, hleft, hright⟩
    refine ⟨hbefore, ⟨hright, hafter⟩, fun b hb c hc => ?_⟩
    rcases hc with rfl | hc
    · exact hleft b hb
    · exact hcross b hb c hc

variable [DecidableEq α]

/-- With the key `k` in place of its own, `a` would pass nobody. -/
def KeepsPlaceIn (key : α → κ) (a : α) (k : κ) (list : List α) : Prop :=
  ∀ b ∈ list, b ≠ a → (key b < key a → key b < k) ∧ (key a < key b → k < key b)

instance (key : α → κ) (a : α) (k : κ) (list : List α) : Decidable (KeepsPlaceIn key a k list) :=
  inferInstanceAs (Decidable (∀ b ∈ list, _))

theorem SortedBy.update_iff (hsorted : SortedBy key list) (hmem : a ∈ list) :
    SortedBy (update key a k) list ↔ KeepsPlaceIn key a k list := by
  obtain ⟨before, after, rfl⟩ := List.append_of_mem hmem
  obtain ⟨hrest, hleft, hright⟩ := SortedBy.append_cons_iff.mp hsorted
  have hbefore : ∀ b ∈ before, b ≠ a := by
    rintro b hb rfl
    exact lt_irrefl _ (hleft b hb)
  have hafter : ∀ b ∈ after, b ≠ a := by
    rintro b hb rfl
    exact lt_irrefl _ (hright b hb)
  have hsame : ∀ b ∈ before ++ after, update key a k b = key b := by
    intro b hb
    apply update_of_ne
    rcases List.mem_append.mp hb with hb | hb
    · exact hbefore b hb
    · exact hafter b hb
  rw [SortedBy.append_cons_iff, update_self]
  constructor
  · rintro ⟨-, hnewLeft, hnewRight⟩ b hb hne
    simp only [List.mem_append, List.mem_cons] at hb
    rcases hb with hb | rfl | hb
    · refine ⟨fun _ => ?_, fun hlt => absurd (hleft b hb) (lt_asymm hlt)⟩
      simpa [hne] using hnewLeft b hb
    · exact absurd rfl hne
    · refine ⟨fun hlt => absurd (hright b hb) (lt_asymm hlt), fun _ => ?_⟩
      simpa [hne] using hnewRight b hb
  · intro hkeeps
    refine ⟨hrest.congr hsame, fun b hb => ?_, fun b hb => ?_⟩
    · rw [hsame b (List.mem_append_left _ hb)]
      exact (hkeeps b (by simp [hb]) (hbefore b hb)).1 (hleft b hb)
    · rw [hsame b (List.mem_append_right _ hb)]
      exact (hkeeps b (by simp [hb]) (hafter b hb)).2 (hright b hb)

end SortedBy

end RtThread.Lib
