import RtThread.Lib.LinkedRing

namespace RtThread.Lib

open Function

/-! Doubly linked lists whose head is a node as the others. -/

structure ListNodes (β : Type u) where
  next : β → β
  prev : β → β

namespace ListNodes

section Operations

variable {β : Type u} [DecidableEq β]

def init (l : β) (links : ListNodes β) : ListNodes β where
  next := Function.update links.next l l
  prev := Function.update links.prev l l

/-- `n` comes before `l`, which is at the end if `l` is the head. -/
def insertBefore (l n : β) (links : ListNodes β) : ListNodes β where
  next := Function.update (Function.update links.next (links.prev l) n) n l
  prev := Function.update (Function.update links.prev n (links.prev l)) l n

def remove (n : β) (links : ListNodes β) : ListNodes β where
  next := Function.update (Function.update links.next (links.prev n) (links.next n)) n n
  prev := Function.update (Function.update links.prev (links.next n) (links.prev n)) n n

end Operations

def walk [DecidableEq β] (links : ListNodes β) (head : β) : Nat → β → List β
  | 0, _ => []
  | fuel + 1, node => if node = head then [] else node :: walk links head fuel (links.next node)

def nodes [DecidableEq β] (links : ListNodes β) (head : β) (fuel : Nat) : List β :=
  links.walk head fuel (links.next head)

def Ring (links : ListNodes β) (head : β) (list : List β) : Prop :=
  LinkedRing links.next links.prev (head :: list)

def Same (links links' : ListNodes β) (node : β) : Prop :=
  links'.next node = links.next node ∧ links'.prev node = links.prev node

variable {β : Type u} {links links' : ListNodes β} {head node : β} {list pre post : List β}

theorem Ring.congr (hring : links.Ring head list)
    (hsame : ∀ node ∈ head :: list, links.Same links' node) : links'.Ring head list :=
  LinkedRing.congr hring (fun node hnode => (hsame node hnode).1) fun node hnode => (hsame node hnode).2

theorem Ring.nodup (hring : links.Ring head list) : (head :: list).Nodup := hring.1

theorem Ring.next_head (hring : links.Ring head list) :
    links.next head = (list ++ [head]).head (by simp) := by
  obtain ⟨-, hlinked⟩ := hring
  cases list with
  | nil => exact (List.isChain_cons_cons.mp hlinked).1.1
  | cons node rest => exact (List.isChain_cons_cons.mp hlinked).1.1

theorem Ring.next_head_eq (hring : links.Ring head list) : links.next head = head ↔ list = [] := by
  rw [hring.next_head]
  cases list with
  | nil => exact ⟨fun _ => rfl, fun _ => rfl⟩
  | cons node rest =>
    refine ⟨fun h => absurd ?_ (List.nodup_cons.mp hring.nodup).1, nofun⟩
    have heq : node = head := h
    rw [heq]
    exact List.mem_cons_self

section Walk

variable [DecidableEq β]

theorem walk_linked {fuel : Nat} (hlinked : Linked links.next links.prev (list ++ [head]))
    (hhead : head ∉ list) (hfuel : list.length < fuel) :
    links.walk head fuel ((list ++ [head]).head (by simp)) = list := by
  induction list generalizing fuel with
  | nil =>
    cases fuel with
    | zero => cases hfuel
    | succ fuel => exact if_pos rfl
  | cons node rest ih =>
    cases fuel with
    | zero => cases hfuel
    | succ fuel =>
      have hne : node ≠ head := fun h => hhead (h ▸ List.mem_cons_self)
      have hnext : links.next node = (rest ++ [head]).head (by simp) := by
        cases rest with
        | nil => exact (List.isChain_cons_cons.mp hlinked).1.1
        | cons a rest => exact (List.isChain_cons_cons.mp hlinked).1.1
      have hrest : Linked links.next links.prev (rest ++ [head]) := hlinked.tail
      show (if node = head then [] else node :: links.walk head fuel (links.next node)) = _
      rw [if_neg hne, hnext, ih hrest (fun h => hhead (List.mem_cons_of_mem _ h))
        (Nat.lt_of_succ_lt_succ hfuel)]

theorem Ring.nodes_eq {fuel : Nat} (hring : links.Ring head list) (hfuel : list.length < fuel) :
    links.nodes head fuel = list := by
  have hlinked : Linked links.next links.prev (list ++ [head]) := hring.2.tail
  rw [nodes, hring.next_head]
  exact walk_linked hlinked (List.nodup_cons.mp hring.nodup).1 hfuel

end Walk

section Remove

theorem Ring.prev_mem (hring : links.Ring head list) (hnode : node ∈ list) :
    links.prev node ∈ head :: list := by
  obtain ⟨pre, post, rfl⟩ := List.append_of_mem hnode
  exact LinkedRing.prev_tail_mem hring

theorem Ring.next_mem (hring : links.Ring head list) (hnode : node ∈ list) :
    links.next node ∈ head :: list := LinkedRing.next_mem hring (List.mem_cons_of_mem _ hnode)

variable [DecidableEq β]

theorem remove_self (links : ListNodes β) (node : β) :
    (links.remove node).next node = node ∧ (links.remove node).prev node = node :=
  ⟨update_self .., update_self ..⟩

theorem remove_same {other : β} (hne : other ≠ node) (hprev : other ≠ links.prev node)
    (hnext : other ≠ links.next node) : links.Same (links.remove node) other := by
  constructor
  · exact (update_of_ne hne ..).trans (update_of_ne hprev ..)
  · exact (update_of_ne hne ..).trans (update_of_ne hnext ..)

theorem remove_alone (hnext : links.next node = node) (hprev : links.prev node = node) :
    links.remove node = links := by
  have hforth : Function.update links.next node node = links.next :=
    update_eq_self_iff.mpr hnext.symm
  have hback : Function.update links.prev node node = links.prev :=
    update_eq_self_iff.mpr hprev.symm
  unfold remove
  rw [hnext, hprev, hforth, hback, hforth, hback]

theorem Ring.remove (hring : links.Ring head list) (hnode : node ∈ list) :
    (links.remove node).Ring head (list.filter (· ≠ node)) ∧
      ∀ other, other ∉ head :: list → links.Same (links.remove node) other := by
  have hsame (other : β) (hother : other ∉ head :: list) : links.Same (links.remove node) other := by
    refine remove_same ?_ ?_ ?_
    · exact fun h => hother (h ▸ List.mem_cons_of_mem _ hnode)
    · exact fun h => hother (h ▸ hring.prev_mem hnode)
    · exact fun h => hother (h ▸ hring.next_mem hnode)
  refine ⟨?_, hsame⟩
  obtain ⟨pre, post, rfl⟩ := List.append_of_mem hnode
  obtain ⟨hhead, hnodup⟩ := List.nodup_cons.mp hring.nodup
  obtain ⟨-, hpost, hdisjoint⟩ := List.nodup_append.mp hnodup
  have hpre : node ∉ pre := fun h => hdisjoint node h node List.mem_cons_self rfl
  have hfilter : (pre ++ node :: post).filter (· ≠ node) = pre ++ post := by
    have hkeep (part : List β) (hout : node ∉ part) : part.filter (· ≠ node) = part := by
      refine List.filter_eq_self.mpr fun a ha => decide_eq_true fun heq => hout ?_
      rwa [← heq]
    rw [List.filter_append, List.filter_cons_of_neg (by simp), hkeep pre hpre,
      hkeep post (List.nodup_cons.mp hpost).1]
  have hremoved := LinkedRing.remove_tail hring
  have hout : node ∉ head :: (pre ++ post) := by
    rw [List.mem_cons, List.mem_append, not_or, not_or]
    exact ⟨fun h => hhead (h ▸ hnode), hpre, (List.nodup_cons.mp hpost).1⟩
  rw [hfilter]
  have hother (a : β) (ha : a ∈ head :: (pre ++ post)) : a ≠ node := by
    rintro rfl
    exact hout ha
  refine LinkedRing.congr hremoved (fun a ha => ?_) fun a ha => ?_
  · exact update_of_ne (hother a ha) ..
  · exact update_of_ne (hother a ha) ..

end Remove

section Insert

theorem Ring.prev_head (hring : links.Ring head list) :
    links.prev head = (head :: list).getLast (by simp) := by
  obtain ⟨-, hlinked⟩ := hring
  rcases List.eq_nil_or_concat' list with rfl | ⟨front, node, rfl⟩
  · exact (List.isChain_cons_cons.mp hlinked).1.2
  · have hshape : head :: (front ++ [node]) ++ [head] = (head :: front) ++ node :: head :: [] := by
      simp
    have hlinked' : Linked links.next links.prev ((head :: front) ++ node :: head :: []) := by
      rw [← hshape]
      exact hlinked
    rw [hlinked'.prev_eq]
    simp

variable [DecidableEq β]

theorem Ring.insertBefore (hring : links.Ring head list) (hfresh : node ∉ head :: list) :
    (links.insertBefore head node).Ring head (list ++ [node]) ∧
      ∀ other, other ∉ head :: (list ++ [node]) → links.Same (links.insertBefore head node) other := by
  have hlast : links.prev head ∈ head :: list := by
    rw [hring.prev_head]
    exact List.getLast_mem _
  constructor
  · obtain ⟨pre, hpre⟩ : ∃ pre, head :: list = pre ++ [links.prev head] := by
      refine ⟨(head :: list).dropLast, ?_⟩
      rw [hring.prev_head]
      exact (List.dropLast_append_getLast _).symm
    have hnext : links.next (links.prev head) = head := by
      have hlinked : Linked links.next links.prev (head :: list ++ [head]) := hring.2
      rw [hpre, List.append_assoc] at hlinked
      exact hlinked.next_eq
    have hring' : LinkedRing links.next links.prev (pre ++ links.prev head :: []) := hpre ▸ hring
    have hinserted := hring'.insert (hpre ▸ hfresh)
    have hlist : head :: (list ++ [node]) = pre ++ links.prev head :: [node] := by
      rw [← List.cons_append, hpre, List.append_assoc]
      rfl
    have hne : links.prev head ≠ node := fun h => hfresh (h ▸ hlast)
    show LinkedRing _ _ (head :: (list ++ [node]))
    rw [hlist]
    rw [hnext, update_comm hne.symm] at hinserted
    exact hinserted
  · intro other hother
    have hne : other ≠ node := fun h => hother (h ▸ by simp)
    refine ⟨(update_of_ne hne ..).trans (update_of_ne ?_ ..),
      (update_of_ne ?_ ..).trans (update_of_ne hne ..)⟩
    · rintro rfl
      rcases List.mem_cons.mp hlast with h | h
      · exact hother (List.mem_cons.mpr (.inl h))
      · exact hother (List.mem_cons_of_mem _ (List.mem_append_left _ h))
    · rintro rfl
      exact hother List.mem_cons_self

end Insert

theorem ring_nil (hnext : links.next head = head) (hprev : links.prev head = head) :
    links.Ring head [] :=
  ⟨List.nodup_singleton head, .cons_cons ⟨hnext, hprev⟩ (.singleton head)⟩

structure Rings (links : ListNodes β) (heads : ι → β) (lists : ι → List β) : Prop where
  ring : ∀ i, links.Ring (heads i) (lists i)
  apart : ∀ i j, i ≠ j → ∀ node ∈ heads i :: lists i, node ∉ heads j :: lists j

namespace Rings

variable {ι : Type v} [DecidableEq ι] {heads : ι → β} {lists : ι → List β} {i : ι}

theorem update (hrings : links.Rings heads lists) {after : List β}
    (hring : links'.Ring (heads i) after)
    (hafter : ∀ node ∈ after, node ∈ lists i ∨ ∀ j, j ≠ i → node ∉ heads j :: lists j)
    (hsame : ∀ j, j ≠ i → ∀ node ∈ heads j :: lists j, links.Same links' node) :
    links'.Rings heads (Function.update lists i after) := by
  have hold (j : ι) (hne : j ≠ i) (node : β) (hnode : node ∈ heads i :: after) :
      node ∉ heads j :: lists j := by
    rcases List.mem_cons.mp hnode with rfl | h
    · exact hrings.apart i j hne.symm _ List.mem_cons_self
    · rcases hafter node h with h | h
      · exact hrings.apart i j hne.symm node (List.mem_cons_of_mem _ h)
      · exact h j hne
  refine ⟨fun j => ?_, fun j k hne node hnode => ?_⟩
  · by_cases hj : j = i
    · subst hj
      rw [update_self]
      exact hring
    · rw [update_of_ne hj]
      exact (hrings.ring j).congr (hsame j hj)
  · by_cases hj : j = i
    · subst hj
      rw [update_self] at hnode
      rw [update_of_ne hne.symm]
      exact hold k hne.symm node hnode
    · rw [update_of_ne hj] at hnode
      by_cases hk : k = i
      · subst hk
        rw [update_self]
        exact fun h => hold j hj node h hnode
      · rw [update_of_ne hk]
        exact hrings.apart j k hne node hnode

variable [DecidableEq β]

theorem remove (hrings : links.Rings heads lists) (hnode : node ∈ lists i) :
    (links.remove node).Rings heads (Function.update lists i ((lists i).filter (· ≠ node))) := by
  obtain ⟨hring, hsame⟩ := (hrings.ring i).remove hnode
  refine hrings.update hring (fun a ha => .inl (List.mem_of_mem_filter ha)) fun j hj a ha => ?_
  exact hsame a (hrings.apart j i hj a ha)

theorem insertBefore (hrings : links.Rings heads lists)
    (hfresh : ∀ j, node ∉ heads j :: lists j) :
    (links.insertBefore (heads i) node).Rings heads
      (Function.update lists i (lists i ++ [node])) := by
  obtain ⟨hring, hsame⟩ := (hrings.ring i).insertBefore (hfresh i)
  refine hrings.update hring (fun a ha => ?_) fun j hj a ha => hsame a fun h => ?_
  · rcases List.mem_append.mp ha with h | h
    · exact .inl h
    · rw [List.mem_singleton.mp h]
      exact .inr fun j _ => hfresh j
  · rw [← List.cons_append, List.mem_append] at h
    rcases h with h | h
    · exact hrings.apart j i hj a ha h
    · rw [List.mem_singleton.mp h] at ha
      exact hfresh j ha

end Rings

theorem Ring.init_nil [DecidableEq β] (hring : links.Ring head []) : links.init head = links := by
  have hforth : Function.update links.next head head = links.next :=
    update_eq_self_iff.mpr hring.next_head.symm
  have hback : Function.update links.prev head head = links.prev :=
    update_eq_self_iff.mpr hring.prev_head.symm
  unfold init
  rw [hforth, hback]

end ListNodes

end RtThread.Lib
