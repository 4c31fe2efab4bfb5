import Mathlib.Data.List.Basic

namespace RtThread.Lib

open Function

/-! Singly linked lists in a store that gives each node its successor. -/

/-- Following `next` from the pointer `p` visits exactly `nodes` and then ends. -/
def Chain (next : β → Option β) : Option β → List β → Prop
  | p, [] => p = none
  | p, node :: rest => p = some node ∧ Chain next (next node) rest

def follow (next : β → Option β) : (fuel : Nat) → Option β → List β
  | 0, _ => []
  | _, none => []
  | fuel + 1, some node => node :: follow next fuel (next node)

namespace Chain

variable {β : Type u} {next : β → Option β} {p : Option β} {node : β} {nodes : List β}

theorem head?_eq (hchain : Chain next p nodes) : p = nodes.head? := by
  cases nodes with
  | nil => exact hchain
  | cons node rest => exact hchain.1

theorem eq_nil (hchain : Chain next none nodes) : nodes = [] := by
  cases nodes with
  | nil => rfl
  | cons node rest => cases hchain.1

theorem eq_cons (hchain : Chain next (some node) nodes) :
    ∃ rest, nodes = node :: rest ∧ Chain next (next node) rest := by
  cases nodes with
  | nil => cases hchain
  | cons head rest =>
    obtain ⟨hhead, hrest⟩ := hchain
    cases hhead
    exact ⟨rest, rfl, hrest⟩

theorem unique {nodes' : List β} (hchain : Chain next p nodes) (hchain' : Chain next p nodes') :
    nodes = nodes' := by
  induction nodes generalizing p nodes' with
  | nil =>
    cases hchain
    exact hchain'.eq_nil.symm
  | cons node rest ih =>
    obtain ⟨rfl, hrest⟩ := hchain
    obtain ⟨rest', rfl, hrest'⟩ := hchain'.eq_cons
    rw [ih hrest hrest']

theorem eq_none_iff (hchain : Chain next p nodes) : p = none ↔ nodes = [] := by
  rw [hchain.head?_eq, List.head?_eq_none_iff]

theorem congr {next' : β → Option β} (hchain : Chain next p nodes)
    (hsame : ∀ node ∈ nodes, next' node = next node) : Chain next' p nodes := by
  induction nodes generalizing p with
  | nil => exact hchain
  | cons node rest ih =>
    obtain ⟨hhead, hrest⟩ := hchain
    refine ⟨hhead, ?_⟩
    rw [hsame node List.mem_cons_self]
    exact ih hrest fun m hm => hsame m (List.mem_cons_of_mem node hm)

theorem follow_eq {fuel : Nat} (hchain : Chain next p nodes) (hfuel : nodes.length ≤ fuel) :
    follow next fuel p = nodes := by
  induction nodes generalizing p fuel with
  | nil =>
    cases hchain
    cases fuel <;> rfl
  | cons node rest ih =>
    obtain ⟨rfl, hrest⟩ := hchain
    cases fuel with
    | zero => simp at hfuel
    | succ fuel =>
      rw [List.length_cons, Nat.add_le_add_iff_right] at hfuel
      rw [follow, ih hrest hfuel]

theorem next_append {pre post : List β} {prev : β} (hchain : Chain next p (pre ++ post))
    (hprev : pre.getLast? = some prev) : next prev = post.head? := by
  induction pre generalizing p with
  | nil => cases hprev
  | cons head rest ih =>
    obtain ⟨-, hrest⟩ := hchain
    cases rest with
    | nil =>
      cases hprev
      exact hrest.head?_eq
    | cons second tail =>
      rw [List.getLast?_cons_cons] at hprev
      exact ih hrest hprev

theorem after {pre post : List β} (hchain : Chain next p (pre ++ node :: post)) :
    Chain next (next node) post := by
  induction pre generalizing p with
  | nil => exact hchain.2
  | cons head rest ih => exact ih hchain.2

section Update

variable [DecidableEq β]

theorem update (hchain : Chain next p nodes) (hfree : node ∉ nodes) (q : Option β) :
    Chain (Function.update next node q) p nodes := by
  induction nodes generalizing p with
  | nil => exact hchain
  | cons head rest ih =>
    obtain ⟨hhead, hrest⟩ := hchain
    rw [List.mem_cons, not_or] at hfree
    refine ⟨hhead, ?_⟩
    rw [update_of_ne (fun h => hfree.1 h.symm)]
    exact ih hrest hfree.2

theorem push (hchain : Chain next p nodes) (hfree : node ∉ nodes) :
    Chain (Function.update next node p) (some node) (node :: nodes) := by
  refine ⟨rfl, ?_⟩
  rw [Function.update_self]
  exact hchain.update hfree p

theorem snoc {last : β} (hchain : Chain next p nodes) (hnodup : nodes.Nodup)
    (hlast : nodes.getLast? = some last) (hfree : node ∉ nodes)
    (hend : next node = none) :
    Chain (Function.update next last (some node)) p (nodes ++ [node]) := by
  induction nodes generalizing p with
  | nil => cases hlast
  | cons head rest ih =>
    obtain ⟨hhead, hrest⟩ := hchain
    obtain ⟨hout, hdistinct⟩ := List.nodup_cons.mp hnodup
    rw [List.mem_cons, not_or] at hfree
    refine ⟨hhead, ?_⟩
    cases rest with
    | nil =>
      have heq : head = last := Option.some.inj hlast
      subst heq
      rw [Function.update_self]
      refine ⟨rfl, ?_⟩
      rw [update_of_ne hfree.1]
      exact hend
    | cons second tail =>
      rw [List.getLast?_cons_cons] at hlast
      have hne : head ≠ last := by
        intro heq
        exact hout (heq ▸ List.mem_of_getLast? hlast)
      rw [update_of_ne hne]
      exact ih hrest hdistinct hlast hfree.2

theorem unlink {prev : β} {pre post : List β} (hchain : Chain next p (pre ++ node :: post))
    (hnodup : (pre ++ node :: post).Nodup) (hprev : pre.getLast? = some prev) :
    Chain (Function.update next prev (next node)) p (pre ++ post) := by
  induction pre generalizing p with
  | nil => cases hprev
  | cons head rest ih =>
    obtain ⟨hhead, hrest⟩ := hchain
    obtain ⟨hout, hdistinct⟩ := List.nodup_cons.mp hnodup
    refine ⟨hhead, ?_⟩
    cases rest with
    | nil =>
      have heq : head = prev := Option.some.inj hprev
      subst heq
      obtain ⟨-, hpost⟩ := hrest
      rw [Function.update_self]
      exact hpost.update (fun h => hout (List.mem_cons_of_mem node h)) _
    | cons second tail =>
      rw [List.getLast?_cons_cons] at hprev
      have hne : head ≠ prev := by
        rintro rfl
        exact hout (List.mem_append_left _ (List.mem_of_getLast? hprev))
      rw [update_of_ne hne]
      exact ih hrest hdistinct hprev

theorem relink {q : Option β} {pre rest post : List β} (hchain : Chain next p (pre ++ node :: rest))
    (hpost : Chain next q post) (hpre : node ∉ pre) (hfree : node ∉ post) :
    Chain (Function.update next node q) p (pre ++ node :: post) := by
  induction pre generalizing p with
  | nil =>
    refine ⟨hchain.1, ?_⟩
    rw [Function.update_self]
    exact hpost.update hfree q
  | cons head tail ih =>
    obtain ⟨hhead, hrest⟩ := hchain
    rw [List.mem_cons, not_or] at hpre
    refine ⟨hhead, ?_⟩
    rw [update_of_ne (Ne.symm hpre.1)]
    exact ih hrest hpre.2

theorem insertAfter {prev : β} {pre post : List β} (hchain : Chain next p (pre ++ post))
    (hnodup : (pre ++ post).Nodup) (hprev : pre.getLast? = some prev) (hfree : node ∉ pre ++ post) :
    Chain (Function.update (Function.update next node (next prev)) prev (some node)) p
      (pre ++ node :: post) := by
  induction pre generalizing p with
  | nil => cases hprev
  | cons head rest ih =>
    obtain ⟨hhead, hrest⟩ := hchain
    obtain ⟨hout, hdistinct⟩ := List.nodup_cons.mp hnodup
    simp only [List.cons_append, List.mem_cons, not_or] at hfree
    refine ⟨hhead, ?_⟩
    cases rest with
    | nil =>
      have heq : head = prev := Option.some.inj hprev
      subst heq
      rw [Function.update_self]
      refine ⟨rfl, ?_⟩
      rw [update_of_ne hfree.1, Function.update_self]
      exact (hrest.update hfree.2 _).update hout _
    | cons second tail =>
      rw [List.getLast?_cons_cons] at hprev
      have hne : head ≠ prev := by
        rintro rfl
        exact hout (List.mem_append_left _ (List.mem_of_getLast? hprev))
      rw [update_of_ne hne, update_of_ne (Ne.symm hfree.1)]
      exact ih hrest hdistinct hprev hfree.2

end Update

end Chain

end RtThread.Lib
