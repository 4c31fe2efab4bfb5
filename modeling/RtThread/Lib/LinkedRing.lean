import Mathlib.Data.List.Chain
import Mathlib.Data.List.Nodup

namespace RtThread.Lib

open Function

/-! Circular lists in a store that gives each node its successor and its predecessor. -/

/-- Each node points to the one behind it, and that one back. -/
def Linked (next prev : β → β) (nodes : List β) : Prop :=
  nodes.IsChain fun x y => next x = y ∧ prev y = x

def LinkedRing (next prev : β → β) (nodes : List β) : Prop :=
  nodes.Nodup ∧ Linked next prev (nodes ++ nodes.head?.toList)

section Linked

variable {β : Type u} {next prev next' prev' : β → β} {p x n : β} {nodes pre post rest : List β}

theorem Linked.congr (hlinked : Linked next prev nodes)
    (hnext : ∀ a ∈ nodes.dropLast, next' a = next a)
    (hprev : ∀ a ∈ nodes.tail, prev' a = prev a) : Linked next' prev' nodes := by
  induction nodes with
  | nil => exact .nil
  | cons a rest ih =>
    cases rest with
    | nil => exact .singleton a
    | cons b rest =>
      obtain ⟨⟨hforth, hback⟩, hrest⟩ := List.isChain_cons_cons.mp hlinked
      refine .cons_cons ⟨?_, ?_⟩ (ih hrest ?_ ?_)
      · rw [hnext a List.mem_cons_self, hforth]
      · rw [hprev b List.mem_cons_self, hback]
      · exact fun c hc => hnext c (List.mem_cons_of_mem a hc)
      · exact fun c hc => hprev c (List.mem_cons_of_mem b hc)

theorem linked_split : Linked next prev (pre ++ p :: post) ↔
    Linked next prev (pre ++ [p]) ∧ Linked next prev (p :: post) :=
  List.isChain_split

theorem Linked.next_eq (hlinked : Linked next prev (pre ++ p :: n :: rest)) : next p = n :=
  (List.isChain_cons_cons.mp (linked_split.mp hlinked).2).1.1

theorem Linked.prev_eq (hlinked : Linked next prev (pre ++ p :: n :: rest)) : prev n = p :=
  (List.isChain_cons_cons.mp (linked_split.mp hlinked).2).1.2

variable [DecidableEq β]

/-- Two parts of a list when the last node of the first and the first one of the second get new
links; the first node of the list may come back as its last one. -/
theorem Linked.relink (hpre : Linked next prev (pre ++ [p])) (hrest : Linked next prev (n :: rest))
    (hfirst : (pre ++ p :: n :: rest).dropLast.Nodup)
    (hlast : (pre ++ p :: n :: rest).tail.Nodup) (y z : β) :
    Linked (update next p y) (update prev n z) (pre ++ [p]) ∧
      Linked (update next p y) (update prev n z) (n :: rest) := by
  rw [List.dropLast_append_of_ne_nil (List.cons_ne_nil _ _), List.dropLast_cons_cons] at hfirst
  obtain ⟨-, hp, hout⟩ := List.nodup_append.mp hfirst
  constructor
  · refine hpre.congr (fun a ha => ?_) (fun a ha => ?_)
    · rw [List.dropLast_concat] at ha
      exact update_of_ne (hout a ha p List.mem_cons_self) ..
    · refine update_of_ne (fun heq => ?_) ..
      rw [heq] at ha
      cases pre with
      | nil => cases ha
      | cons head tail =>
        have hsplit : (head :: tail ++ p :: n :: rest).tail = (tail ++ [p]) ++ n :: rest := by
          simp
        rw [hsplit] at hlast
        exact (List.nodup_append.mp hlast).2.2 n ha n List.mem_cons_self rfl
  · refine hrest.congr (fun a ha => ?_) (fun a ha => ?_)
    · refine update_of_ne (fun heq => ?_) ..
      exact (List.nodup_cons.mp hp).1 (heq ▸ ha)
    · refine update_of_ne (fun heq => ?_) ..
      have htail : (n :: rest).Nodup := by
        cases pre with
        | nil => exact hlast
        | cons head tail => exact (List.nodup_cons.mp (List.nodup_append.mp hlast).2.1).2
      exact (List.nodup_cons.mp htail).1 (heq ▸ ha)

end Linked

namespace LinkedRing

variable {β : Type u} {next prev next' prev' : β → β} {p x : β} {nodes pre post : List β}

theorem congr (hring : LinkedRing next prev nodes) (hnext : ∀ a ∈ nodes, next' a = next a)
    (hprev : ∀ a ∈ nodes, prev' a = prev a) : LinkedRing next' prev' nodes := by
  refine ⟨hring.1, hring.2.congr (fun a ha => hnext a ?_) (fun a ha => hprev a ?_)⟩
  · rcases List.mem_append.mp (List.dropLast_subset _ ha) with h | h
    · exact h
    · exact List.mem_of_mem_head? (Option.mem_toList.mp h)
  · rcases List.mem_append.mp (List.mem_of_mem_tail ha) with h | h
    · exact h
    · exact List.mem_of_mem_head? (Option.mem_toList.mp h)

theorem head?_middle (pre post : List β) (p : β) :
    (pre ++ p :: post).head? = (pre ++ [p]).head? := by
  cases pre <;> rfl

theorem exists_rest (pre : List β) (p : β) (post : List β) :
    ∃ n rest, n :: rest = post ++ (pre ++ [p]).head?.toList := by
  cases post with
  | nil => cases pre <;> exact ⟨_, _, rfl⟩
  | cons a post => exact ⟨a, _, rfl⟩

section Opened

variable {n : β} {rest : List β} (hrest : n :: rest = post ++ (pre ++ [p]).head?.toList)

include hrest

theorem opened_eq : pre ++ p :: post ++ (pre ++ p :: post).head?.toList = pre ++ p :: n :: rest := by
  rw [head?_middle, hrest, List.append_assoc, List.cons_append]

theorem iff_opened : LinkedRing next prev (pre ++ p :: post) ↔
    (pre ++ p :: post).Nodup ∧ Linked next prev (pre ++ p :: n :: rest) := by
  rw [LinkedRing, opened_eq hrest]

theorem dropLast_opened : (pre ++ p :: n :: rest).dropLast = pre ++ p :: post := by
  rw [← opened_eq hrest]
  cases pre <;> exact List.dropLast_concat

theorem tail_opened : (pre ++ p :: n :: rest).tail.Perm (pre ++ p :: post) := by
  rw [← opened_eq hrest]
  cases pre <;> exact List.perm_append_singleton ..

theorem mem_opened {a : β} (ha : a ∈ pre ++ p :: n :: rest) : a ∈ pre ++ p :: post := by
  rw [← opened_eq hrest, List.mem_append] at ha
  rcases ha with h | h
  · exact h
  · exact List.mem_of_mem_head? (Option.mem_toList.mp h)

end Opened

theorem next_mem (hring : LinkedRing next prev nodes) (hp : p ∈ nodes) : next p ∈ nodes := by
  obtain ⟨pre, post, rfl⟩ := List.append_of_mem hp
  obtain ⟨n, rest, hrest⟩ := exists_rest pre p post
  rw [((iff_opened hrest).mp hring).2.next_eq]
  exact mem_opened hrest (by simp)

section Tail

variable {head : β}

theorem prev_tail_mem (hring : LinkedRing next prev (head :: (pre ++ x :: post))) :
    prev x ∈ head :: (pre ++ x :: post) := by
  rcases List.eq_nil_or_concat' pre with rfl | ⟨front, p, rfl⟩
  · have hring' : LinkedRing next prev ([] ++ head :: x :: post) := hring
    obtain ⟨n, rest, hrest⟩ := exists_rest [] head (x :: post)
    cases hrest
    rw [((iff_opened rfl).mp hring').2.prev_eq]
    exact List.mem_cons_self
  · have hring' : LinkedRing next prev ((head :: front) ++ p :: x :: post) := by
      rw [List.append_assoc] at hring
      exact hring
    obtain ⟨n, rest, hrest⟩ := exists_rest (head :: front) p (x :: post)
    cases hrest
    rw [((iff_opened rfl).mp hring').2.prev_eq]
    simp

theorem next_tail_ne (hring : LinkedRing next prev (head :: (pre ++ x :: post))) : next x ≠ x := by
  obtain ⟨n, rest, hrest⟩ := exists_rest (head :: pre) x post
  have hring' : LinkedRing next prev ((head :: pre) ++ x :: post) := hring
  rw [((iff_opened hrest).mp hring').2.next_eq]
  rintro rfl
  have hmem : n ∈ post ++ [head] := by
    have h : n ∈ n :: rest := List.mem_cons_self
    rw [hrest] at h
    exact h
  obtain ⟨hhead, htail⟩ := List.nodup_cons.mp hring.1
  rcases List.mem_append.mp hmem with h | h
  · exact (List.nodup_cons.mp (List.nodup_append.mp htail).2.1).1 h
  · rw [List.mem_singleton.mp h] at hhead
    exact hhead (by simp)

end Tail

variable [DecidableEq β]

theorem insert (hring : LinkedRing next prev (pre ++ p :: post)) (hfresh : x ∉ pre ++ p :: post) :
    LinkedRing (update (update next x (next p)) p x)
      (update (update prev x p) (next p) x) (pre ++ p :: x :: post) := by
  obtain ⟨n, rest, hrest⟩ := exists_rest pre p post
  obtain ⟨hnodup, hlinked⟩ := (iff_opened hrest).mp hring
  have hne : ∀ a ∈ pre ++ p :: n :: rest, a ≠ x :=
    fun a ha heq => hfresh (heq ▸ mem_opened hrest ha)
  have hx : x ≠ p ∧ x ≠ n := ⟨(hne p (by simp)).symm, (hne n (by simp)).symm⟩
  have hbase : Linked (update next x n) (update prev x p)
      (pre ++ p :: n :: rest) := by
    refine hlinked.congr (fun a ha => ?_) (fun a ha => ?_)
    · exact update_of_ne (hne a (List.dropLast_subset _ ha)) ..
    · exact update_of_ne (hne a (List.mem_of_mem_tail ha)) ..
  obtain ⟨hpre, hpost⟩ := linked_split.mp hbase
  obtain ⟨hpre', hrest'⟩ := hpre.relink (List.isChain_cons_cons.mp hpost).2
    (dropLast_opened hrest ▸ hnodup) ((tail_opened hrest).nodup_iff.mpr hnodup) x x
  have hshape : x :: n :: rest = (x :: post) ++ (pre ++ [p]).head?.toList := by
    rw [hrest, List.cons_append]
  rw [hlinked.next_eq]
  refine (iff_opened hshape).mpr ⟨?_, linked_split.mpr
    ⟨hpre', .cons_cons ⟨?_, ?_⟩ (.cons_cons ⟨?_, ?_⟩ hrest')⟩⟩
  · have hperm : (pre ++ p :: x :: post).Perm (x :: (pre ++ p :: post)) := by
      have h : (pre ++ [p] ++ x :: post).Perm (x :: (pre ++ [p] ++ post)) := List.perm_middle
      rwa [List.append_assoc, List.append_assoc] at h
    exact hperm.nodup_iff.mpr (List.nodup_cons.mpr ⟨hfresh, hnodup⟩)
  · exact update_self ..
  · rw [update_of_ne hx.2, update_self]
  · rw [update_of_ne hx.1, update_self]
  · exact update_self ..

theorem remove (hring : LinkedRing next prev (pre ++ p :: x :: post)) :
    LinkedRing (update next (prev x) (next x)) (update prev (next x) (prev x))
      (pre ++ p :: post) := by
  obtain ⟨n, rest, hrest⟩ := exists_rest pre p post
  have hshape : x :: n :: rest = (x :: post) ++ (pre ++ [p]).head?.toList := by
    rw [hrest, List.cons_append]
  obtain ⟨hnodup, hlinked⟩ := (iff_opened hshape).mp hring
  have hnodup' : (pre ++ p :: post).Nodup :=
    hnodup.sublist (((List.sublist_cons_self x post).cons_cons p).append_left pre)
  obtain ⟨hpre, hpost⟩ := linked_split.mp hlinked
  obtain ⟨⟨-, hback⟩, hpost⟩ := List.isChain_cons_cons.mp hpost
  obtain ⟨⟨hforth, -⟩, hpost⟩ := List.isChain_cons_cons.mp hpost
  obtain ⟨hpre', hrest'⟩ := hpre.relink hpost (dropLast_opened hrest ▸ hnodup')
    ((tail_opened hrest).nodup_iff.mpr hnodup') n p
  rw [hback, hforth]
  refine (iff_opened hrest).mpr ⟨hnodup', linked_split.mpr ⟨hpre', .cons_cons ⟨?_, ?_⟩ hrest'⟩⟩
  · exact update_self ..
  · exact update_self ..

theorem remove_tail {head : β} (hring : LinkedRing next prev (head :: (pre ++ x :: post))) :
    LinkedRing (update next (prev x) (next x)) (update prev (next x) (prev x))
      (head :: (pre ++ post)) := by
  rcases List.eq_nil_or_concat' pre with rfl | ⟨front, p, rfl⟩
  · have hring' : LinkedRing next prev ([] ++ head :: x :: post) := hring
    exact hring'.remove
  · have hring' : LinkedRing next prev ((head :: front) ++ p :: x :: post) := by
      rw [List.append_assoc] at hring
      exact hring
    have hremoved := hring'.remove
    rw [List.append_assoc]
    exact hremoved

end LinkedRing

end RtThread.Lib
