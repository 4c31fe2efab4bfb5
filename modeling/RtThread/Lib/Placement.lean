import RtThread.Lib.ByteMemory

namespace RtThread.Lib

/-! Ranges that are placed one after another, some of which take no room from those that follow. -/

section

variable {α : Type u} (size : α → Nat) (floats : α → Bool)

def places : Nat → List α → List (α × Nat)
  | _, [] => []
  | offset, item :: rest =>
    (item, offset) :: places (if floats item then offset else offset + size item) rest

def Overlap (p q : α × Nat) : Prop :=
  ∃ i, (p.2 ≤ i ∧ i < p.2 + size p.1) ∧ q.2 ≤ i ∧ i < q.2 + size q.1

def Settled (items : List α) : Prop :=
  items.Pairwise fun item other => floats item = true → size item = 0 ∨ size other = 0

def room [DecidableEq α] (items : List α) (item : α) : Nat :=
  (((items.takeWhile (· ≠ item)).filter fun before => !floats before).map size).sum

end

section Laws

variable {α : Type u} {size : α → Nat} {floats : α → Bool} {items : List α} {offset bound : Nat}
  {p : α × Nat}

theorem map_fst_places : (places size floats offset items).map Prod.fst = items := by
  induction items generalizing offset with
  | nil => rfl
  | cons item rest ih => exact congrArg (item :: ·) ih

theorem le_of_mem_places (hmem : p ∈ places size floats offset items) : offset ≤ p.2 := by
  induction items generalizing offset with
  | nil => cases hmem
  | cons item rest ih =>
    rcases List.mem_cons.mp hmem with rfl | hmem
    · exact Nat.le_refl _
    · have hle := ih hmem
      split at hle
      · exact hle
      · omega

theorem end_le_of_mem_places (hmem : p ∈ places size floats offset items) :
    p.2 + size p.1 ≤ offset + (items.map size).sum := by
  induction items generalizing offset with
  | nil => cases hmem
  | cons item rest ih =>
    rw [List.map_cons, List.sum_cons]
    rcases List.mem_cons.mp hmem with rfl | hmem
    · dsimp only
      omega
    · have hle := ih hmem
      split at hle
      · omega
      · omega

theorem not_overlap_float_iff {item : α} : (∀ p ∈ places size floats offset items,
      ¬Overlap size (item, offset) p) ↔ ∀ other ∈ items, size item = 0 ∨ size other = 0 := by
  by_cases hitem : size item = 0
  · refine iff_of_true (fun p _ ⟨i, hi, _⟩ => ?_) fun _ _ => .inl hitem
    rw [hitem] at hi
    omega
  · induction items with
    | nil => exact iff_of_true (fun _ h => nomatch h) fun _ h => nomatch h
    | cons other rest ih =>
      have hother : ¬Overlap size (item, offset) (other, offset) ↔ size other = 0 := by
        constructor
        · intro h
          by_contra hne
          exact h ⟨offset, by dsimp only; omega, by dsimp only; omega⟩
        · intro h ⟨i, _, hi⟩
          dsimp only at hi
          omega
      rw [places, List.forall_mem_cons, List.forall_mem_cons, hother]
      have hleft : size item = 0 ∨ size other = 0 ↔ size other = 0 := or_iff_right hitem
      rw [hleft]
      refine and_congr_right fun hempty => ?_
      have hnext : (if floats other = true then offset else offset + size other) = offset := by
        rw [hempty, Nat.add_zero, ite_self]
      rw [hnext]
      exact ih

theorem places_apart_iff : (places size floats offset items).Pairwise (fun p q => ¬Overlap size p q) ↔
    Settled size floats items := by
  unfold Settled
  induction items generalizing offset with
  | nil => exact iff_of_true .nil .nil
  | cons item rest ih =>
    rw [places, List.pairwise_cons, List.pairwise_cons, ih]
    refine and_congr_left fun _ => ?_
    cases hfloats : floats item with
    | true =>
      rw [if_pos rfl, not_overlap_float_iff]
      exact ⟨fun h other hother _ => h other hother, fun h other hother => h other hother rfl⟩
    | false =>
      refine iff_of_true (fun p hp ⟨i, hi, hi'⟩ => ?_) fun _ _ h => nomatch h
      have hle := le_of_mem_places hp
      rw [if_neg Bool.false_ne_true] at hle
      dsimp only at hi
      omega

theorem Settled.sum_le (hsettled : Settled size floats items) (hoffset : offset ≤ bound)
    (hinside : ∀ p ∈ places size floats offset items, p.2 + size p.1 ≤ bound) :
    offset + (items.map size).sum ≤ bound := by
  induction items generalizing offset with
  | nil => exact hoffset
  | cons item rest ih =>
    obtain ⟨hitem, hrest⟩ := List.pairwise_cons.mp hsettled
    rw [places, List.forall_mem_cons] at hinside
    rw [List.map_cons, List.sum_cons]
    cases hfloats : floats item with
    | true =>
      rw [hfloats, if_pos rfl] at hinside
      rcases Nat.eq_zero_or_pos (size item) with hzero | hpos
      · have h := ih hrest hoffset hinside.2
        omega
      · have hsum : (rest.map size).sum = 0 := by
          rw [List.sum_eq_zero_iff_forall_eq_nat]
          intro n hn
          obtain ⟨other, hother, rfl⟩ := List.mem_map.mp hn
          exact (hitem other hother hfloats).resolve_left (Nat.ne_of_gt hpos)
        have h := hinside.1
        dsimp only at h
        omega
    | false =>
      rw [hfloats, if_neg Bool.false_ne_true] at hinside
      have hhead := hinside.1
      dsimp only at hhead
      have h := ih hrest hhead hinside.2
      omega

theorem mem_places_iff [DecidableEq α] (hnodup : items.Nodup) : p ∈ places size floats offset items ↔
    p.1 ∈ items ∧ p.2 = offset + room size floats items p.1 := by
  induction items generalizing offset with
  | nil => exact iff_of_false (fun h => nomatch h) fun h => nomatch h.1
  | cons item rest ih =>
    obtain ⟨hnot, hrest⟩ := List.nodup_cons.mp hnodup
    rw [places, List.mem_cons, List.mem_cons, ih hrest]
    by_cases hp : p.1 = item
    · -- the first place of the item is the only one
      have hroom : room size floats (item :: rest) p.1 = 0 := by
        rw [room, hp, List.takeWhile_cons_of_neg (by simp)]
        rfl
      rw [hroom, Nat.add_zero]
      constructor
      · intro h
        rcases h with rfl | h
        · exact ⟨.inl rfl, rfl⟩
        · exact absurd (hp ▸ h.1) hnot
      · intro h
        exact .inl (Prod.ext hp h.2)
    · have hroom : room size floats (item :: rest) p.1 =
          (if floats item = true then 0 else size item) + room size floats rest p.1 := by
        rw [room, List.takeWhile_cons_of_pos (by simpa using Ne.symm hp), List.filter_cons]
        cases floats item with
        | true => exact (Nat.zero_add _).symm
        | false => exact List.sum_cons
      have hne : p ≠ (item, offset) := fun h => hp (congrArg Prod.fst h)
      rw [or_iff_right hne, or_iff_right hp, hroom]
      refine and_congr_right fun _ => ?_
      split
      · rw [Nat.zero_add]
      · rw [Nat.add_assoc]

end Laws

section Memory

variable {α : Type u} {size : α → Nat} (contents : α → List UInt8)

def writeAll (m : ByteMemory) (placed : List (α × Nat)) : ByteMemory :=
  placed.foldl (fun m p => m.writeBytes p.2 (contents p.1)) m

variable {contents} {placed : List (α × Nat)} {p : α × Nat}
  (hlength : ∀ item, (contents item).length = size item)
include hlength

theorem writeAll_outside {m : ByteMemory} {i : Nat}
    (hi : ∀ p ∈ placed, ¬(p.2 ≤ i ∧ i < p.2 + size p.1)) : writeAll contents m placed i = m i := by
  induction placed generalizing m with
  | nil => rfl
  | cons first rest ih =>
    obtain ⟨hfirst, hrest⟩ := List.forall_mem_cons.mp hi
    rw [writeAll, List.foldl_cons]
    refine (ih hrest).trans (ByteMemory.writeBytes_outside ?_)
    rw [hlength]
    omega

theorem readBytes_writeAll {m : ByteMemory}
    (hapart : placed.Pairwise fun p q => ¬Overlap size p q) (hmem : p ∈ placed) :
    (writeAll contents m placed).readBytes p.2 (size p.1) = contents p.1 := by
  induction placed generalizing m with
  | nil => cases hmem
  | cons first rest ih =>
    obtain ⟨hfirst, hrest⟩ := List.pairwise_cons.mp hapart
    rw [writeAll, List.foldl_cons]
    rcases List.mem_cons.mp hmem with rfl | hmem
    · have hkept : (writeAll contents (m.writeBytes p.2 (contents p.1)) rest).readBytes p.2 (size p.1) =
          (m.writeBytes p.2 (contents p.1)).readBytes p.2 (size p.1) := by
        apply ByteMemory.readBytes_congr
        intro i hle hlt
        exact writeAll_outside hlength fun q hq hi => hfirst q hq ⟨i, ⟨hle, hlt⟩, hi⟩
      refine hkept.trans ?_
      rw [← hlength p.1]
      exact ByteMemory.readBytes_writeBytes
    · exact ih hrest hmem

end Memory

end RtThread.Lib
