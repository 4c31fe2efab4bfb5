import Mathlib.Data.List.Pairwise
import RtThread.Finsh.Heap
import RtThread.Lib.Chain

namespace RtThread.Finsh

open Function RtThread.Lib

/-- A pointer, with `NULL` as `none`. -/
def toPtr (p : Nat) : Option Nat := if p = 0 then none else some p

def links (memory : ByteMemory) (header : Nat) : Option Nat := toPtr (nextOf memory header)

def Apart (a b : Nat) : Prop := a + 8 ≤ b ∨ b + 8 ≤ a

structure Spaced (nodes : List Nat) : Prop where
  pairwise : nodes.Pairwise fun a b => a + 8 ≤ b
  valid : ∀ a ∈ nodes, 0 < a ∧ a < 2 ^ 32

/-- Only `next` of some headers changes. -/
def NextsOnly (nodes : List Nat) (memory memory' : ByteMemory) : Prop :=
  ∀ i, (∀ a ∈ nodes, i < a + 4 ∨ a + 8 ≤ i) → memory' i = memory i

variable {memory memory' memory'' : ByteMemory} {a b p q v list header : Nat}
  {nodes nodes' before after : List Nat}

theorem toPtr_pos (hpos : 0 < p) : toPtr p = some p := if_neg (Nat.ne_of_gt hpos)

theorem toPtr_eq_some (hptr : toPtr p = some q) : p = q := by
  unfold toPtr at hptr
  split at hptr
  · cases hptr
  · exact Option.some.inj hptr

theorem toPtr_eq_none (hptr : toPtr p = none) : p = 0 := by
  unfold toPtr at hptr
  split at hptr
  next hzero => exact hzero
  · cases hptr

theorem Apart.symm (hapart : Apart a b) : Apart b a := Or.symm hapart

theorem Apart.ne (hapart : Apart a b) : a ≠ b := by
  rintro rfl
  rcases hapart with h | h <;> omega

theorem links_setNext_self (hv : v < 2 ^ 32) : links (setNext memory a v) a = toPtr v := by
  unfold links nextOf setNext
  rw [ByteMemory.readWord_writeWord hv]

theorem nextOf_setNext_apart (hapart : Apart a b) :
    nextOf (setNext memory a v) b = nextOf memory b := by
  apply ByteMemory.readWord_writeWord_apart
  rcases hapart with h | h <;> omega

theorem links_setNext_apart (hapart : Apart a b) :
    links (setNext memory a v) b = links memory b := by
  unfold links
  rw [nextOf_setNext_apart hapart]

theorem nextOf_lt : nextOf memory a < 2 ^ 32 := ByteMemory.readWord_lt

theorem setNext_nextsOnly : NextsOnly [a] memory (setNext memory a v) := by
  intro i hi
  have hout := hi a List.mem_cons_self
  exact ByteMemory.writeWord_outside (by omega)

theorem NextsOnly.refl : NextsOnly nodes memory memory := fun _ _ => rfl

theorem NextsOnly.trans (hfirst : NextsOnly nodes memory memory')
    (hsecond : NextsOnly nodes memory' memory'') : NextsOnly nodes memory memory'' :=
  fun i hi => (hsecond i hi).trans (hfirst i hi)

theorem NextsOnly.mono (honly : NextsOnly nodes memory memory') (hsub : nodes ⊆ nodes') :
    NextsOnly nodes' memory memory' :=
  fun i hi => honly i fun a ha => hi a (hsub ha)

theorem NextsOnly.links_apart (honly : NextsOnly nodes memory memory')
    (hapart : ∀ a ∈ nodes, Apart a b) : links memory' b = links memory b := by
  have hsame : nextOf memory' b = nextOf memory b := by
    apply ByteMemory.readWord_congr
    intro i hle hlt
    refine honly i fun a ha => ?_
    rcases hapart a ha with h | h <;> omega
  unfold links
  rw [hsame]

theorem NextsOnly.lengthOf_eq (honly : NextsOnly nodes memory memory')
    (hapart : ∀ a ∈ nodes, a = b ∨ Apart a b) : lengthOf memory' b = lengthOf memory b := by
  apply ByteMemory.readWord_congr
  intro i hle hlt
  refine honly i fun a ha => ?_
  rcases hapart a ha with rfl | h | h <;> omega

theorem Spaced.sublist (hspaced : Spaced nodes) (hsub : nodes'.Sublist nodes) : Spaced nodes' :=
  ⟨hspaced.pairwise.sublist hsub, fun a ha => hspaced.valid a (hsub.subset ha)⟩

theorem Spaced.nodup (hspaced : Spaced nodes) : nodes.Nodup :=
  hspaced.pairwise.imp fun hle heq => by omega

theorem Spaced.apart (hspaced : Spaced nodes) (ha : a ∈ nodes) (hb : b ∈ nodes) (hne : a ≠ b) :
    Apart a b := by
  have hpairwise : nodes.Pairwise Apart := hspaced.pairwise.imp Or.inl
  have hsymm : Std.Symm Apart := ⟨fun _ _ => Apart.symm⟩
  exact hpairwise.forall ha hb hne

theorem Spaced.append_apart (hspaced : Spaced (before ++ header :: after)) :
    (∀ a ∈ before, a + 8 ≤ header) ∧ ∀ a ∈ after, header + 8 ≤ a := by
  obtain ⟨-, hafter, hcross⟩ := List.pairwise_append.mp hspaced.pairwise
  exact ⟨fun a ha => hcross a ha header List.mem_cons_self, (List.pairwise_cons.mp hafter).1⟩

section Walks

variable {fuel node prev : Nat}

def ListAt (memory : ByteMemory) (list : Nat) (nodes : List Nat) : Prop :=
  Chain (links memory) (toPtr list) nodes

theorem ListAt.frame (hlist : ListAt memory list nodes)
    (hsame : ∀ a ∈ nodes, links memory' a = links memory a) : ListAt memory' list nodes :=
  Chain.congr hlist hsame

theorem ListAt.eq_cons (hlist : ListAt memory list (a :: nodes)) :
    list = a ∧ ListAt memory (nextOf memory a) nodes := ⟨toPtr_eq_some hlist.1, hlist.2⟩

theorem ListAt.behind (hlist : ListAt memory list (before ++ a :: after)) :
    ListAt memory (nextOf memory a) after := Chain.after hlist

theorem ListAt.nil_iff (hlist : ListAt memory list nodes) (hspaced : Spaced nodes) :
    list = 0 ↔ nodes = [] := by
  cases nodes with
  | nil => exact iff_of_true (toPtr_eq_none hlist) rfl
  | cons a nodes =>
    have hpos := (hspaced.valid a List.mem_cons_self).1
    rw [hlist.eq_cons.1]
    exact iff_of_false (by omega) (by simp)

theorem prevLoop_eq (hlist : ListAt memory node (before ++ header :: after))
    (hspaced : Spaced (before ++ header :: after)) (hlast : before.getLast? = some prev)
    (hfuel : before.length ≤ fuel) : prevLoop memory header fuel node = some prev := by
  induction before generalizing node fuel with
  | nil => cases hlast
  | cons a rest ih =>
    obtain ⟨rfl, hrest⟩ := ListAt.eq_cons hlist
    have hpos := (hspaced.valid node List.mem_cons_self).1
    cases fuel with
    | zero => simp at hfuel
    | succ fuel =>
      rw [prevLoop, if_neg (by omega)]
      cases rest with
      | nil =>
        rw [if_pos hrest.eq_cons.1]
        exact congrArg some (Option.some.inj hlast)
      | cons second tail =>
        have hne : nextOf memory node ≠ header := by
          rw [hrest.eq_cons.1]
          have hlt := hspaced.append_apart.1 second (by simp)
          omega
        rw [if_neg hne]
        rw [List.getLast?_cons_cons] at hlast
        simp only [List.length_cons, Nat.add_le_add_iff_right] at hfuel
        exact ih hrest (hspaced.sublist (List.sublist_cons_self ..)) hlast hfuel

theorem removeLoop_eq : removeLoop memory header fuel node =
    (prevLoop memory header fuel node).map fun prev =>
      if prev = 0 then memory else setNext memory prev (nextOf memory header) := by
  induction fuel generalizing node with
  | zero => rfl
  | succ fuel ih =>
    rw [removeLoop, prevLoop]
    split
    · rfl
    next hne =>
      split
      · exact congrArg some (if_neg hne).symm
      · exact ih

theorem insertLoop_eq (hlist : ListAt memory node (before ++ after))
    (hspaced : Spaced (before ++ after)) (hbefore : ∀ b ∈ before, b + 8 ≤ header)
    (hafter : ∀ b ∈ after, header + 8 ≤ b) (hlast : before.getLast? = some prev)
    (hfuel : before.length ≤ fuel) : insertLoop memory header fuel node = some prev := by
  induction before generalizing node fuel with
  | nil => cases hlast
  | cons a rest ih =>
    obtain ⟨rfl, hrest⟩ := ListAt.eq_cons hlist
    cases fuel with
    | zero => simp at hfuel
    | succ fuel =>
      rw [insertLoop]
      cases rest with
      | nil =>
        have heq : node = prev := Option.some.inj hlast
        rw [heq]
        split
        · rfl
        next hnot =>
          refine if_pos ?_
          cases after with
          | nil => exact heq ▸ toPtr_eq_none hrest
          | cons second tail =>
            have hnext := (ListAt.eq_cons hrest).1
            have hle := hafter second List.mem_cons_self
            rw [← heq] at hnot
            omega
      | cons second tail =>
        have hnext := (ListAt.eq_cons hrest).1
        have hle := hbefore second (by simp)
        have hpos := (hspaced.valid second (by simp)).1
        rw [if_neg (by omega), if_neg (by omega)]
        rw [List.getLast?_cons_cons] at hlast
        simp only [List.length_cons, Nat.add_le_add_iff_right] at hfuel
        exact ih hrest (hspaced.sublist (List.sublist_cons_self ..))
          (fun b hb => hbefore b (List.mem_cons_of_mem _ hb)) hlast hfuel

end Walks

theorem finshBlockRemove_spec (hlist : ListAt memory list (before ++ header :: after))
    (hspaced : Spaced (before ++ header :: after)) (hfuel : before.length ≤ heapFuel) :
    ∃ list' memory', finshBlockRemove list header memory = some (list', memory') ∧
      ListAt memory' list' (before ++ after) ∧ NextsOnly (header :: before) memory memory' := by
  have hvalid := hspaced.valid header (by simp)
  obtain ⟨hleft, hright⟩ := hspaced.append_apart
  cases hcase : before with
  | nil =>
    subst hcase
    obtain ⟨rfl, hrest⟩ := ListAt.eq_cons hlist
    refine ⟨_, _, if_pos rfl, hrest.frame fun a ha => ?_, setNext_nextsOnly⟩
    exact links_setNext_apart (.inl (hright a ha))
  | cons first tail =>
    obtain ⟨prev, hlast⟩ : ∃ prev, before.getLast? = some prev := by
      rw [hcase]
      exact ⟨_, List.getLast?_cons⟩
    have hprev : prev ∈ before := List.mem_of_getLast? hlast
    have hprevValid := hspaced.valid prev (List.mem_append_left _ hprev)
    have hne : list ≠ header := by
      rw [hcase] at hlist
      rw [(ListAt.eq_cons hlist).1]
      have hlt := hleft first (by simp [hcase])
      omega
    have hremove : finshBlockRemove list header memory =
        some (list, setNext memory prev (nextOf memory header)) := by
      rw [finshBlockRemove, if_neg hne, removeLoop_eq, prevLoop_eq hlist hspaced hlast hfuel]
      simp [Nat.ne_of_gt hprevValid.1]
    rw [← hcase]
    refine ⟨_, _, hremove, ?_, ?_⟩
    · refine Chain.congr (Chain.unlink hlist hspaced.nodup hlast) fun a ha => ?_
      rcases eq_or_ne a prev with rfl | hother
      · rw [update_self]
        exact links_setNext_self nextOf_lt
      · rw [update_of_ne hother]
        refine links_setNext_apart (hspaced.apart ?_ ?_ hother.symm)
        · exact List.mem_append_left _ hprev
        · simp only [List.mem_append, List.mem_cons] at ha ⊢
          exact ha.imp_right .inr
    · exact setNext_nextsOnly.mono (by simp [hprev])

theorem finshBlockInsert_spec (hlist : ListAt memory list (before ++ after))
    (hspaced : Spaced (before ++ header :: after)) (hfuel : before.length ≤ heapFuel)
    (hend : after = [] → nextOf memory header = 0) :
    ∃ list' memory', finshBlockInsert list header memory = some (list', memory') ∧
      ListAt memory' list' (before ++ header :: after) ∧
      NextsOnly (header :: before) memory memory' := by
  have hvalid := hspaced.valid header (by simp)
  obtain ⟨hleft, hright⟩ := hspaced.append_apart
  have hold : Spaced (before ++ after) :=
    hspaced.sublist ((List.sublist_cons_self header after).append_left before)
  cases hcase : before with
  | nil =>
    subst hcase
    cases after with
    | nil =>
      have hzero : list = 0 := (hlist.nil_iff hold).mpr rfl
      refine ⟨_, _, if_pos hzero, ⟨toPtr_pos hvalid.1, ?_⟩, .refl⟩
      change toPtr (nextOf memory header) = none
      rw [hend rfl]
      rfl
    | cons first tail =>
      obtain ⟨rfl, hrest⟩ := ListAt.eq_cons hlist
      have hle := hright list List.mem_cons_self
      have hbound := hspaced.valid list (by simp)
      refine ⟨header, setNext memory header list, ?_, ⟨toPtr_pos hvalid.1, ?_⟩, setNext_nextsOnly⟩
      · rw [finshBlockInsert, if_neg (by omega), if_pos (by omega)]
      · rw [links_setNext_self hbound.2]
        refine Chain.congr hlist fun a ha => ?_
        exact links_setNext_apart (.inl (hright a ha))
  | cons first tail =>
    obtain ⟨prev, hlast⟩ : ∃ prev, before.getLast? = some prev := by
      rw [hcase]
      exact ⟨_, List.getLast?_cons⟩
    have hprev : prev ∈ before := List.mem_of_getLast? hlast
    have hprevLeft := hleft prev hprev
    have hfirst : list = first := by
      rw [hcase] at hlist
      exact (ListAt.eq_cons hlist).1
    have hfirstLeft := hleft first (by simp [hcase])
    have hfirstPos := (hspaced.valid first (by simp [hcase])).1
    have hnext : links memory prev = after.head? := Chain.next_append hlist hlast
    have hapart : Apart header prev := .inr hprevLeft
    -- `header` gets the successor of the node, or has it already
    obtain ⟨memory₁, hmemory, hheader, honly⟩ : ∃ memory₁,
        (if nextOf memory prev ≠ 0 then setNext memory header (nextOf memory prev)
          else memory) = memory₁ ∧
        links memory₁ header = links memory prev ∧ NextsOnly [header] memory memory₁ := by
      split
      · exact ⟨_, rfl, links_setNext_self nextOf_lt, setNext_nextsOnly⟩
      next hzero =>
        have hprevZero : nextOf memory prev = 0 := by omega
        have hlastNode : after = [] := by
          rw [← List.head?_eq_none_iff, ← hnext, links, hprevZero]
          rfl
        refine ⟨_, rfl, ?_, .refl⟩
        rw [links, links, hend hlastNode, hprevZero]
    have hinsert : finshBlockInsert list header memory =
        some (list, setNext memory₁ prev header) := by
      rw [finshBlockInsert, if_neg (by omega), if_neg (by omega),
        insertLoop_eq hlist hold hleft hright hlast hfuel]
      simp only [Option.bind_eq_bind, Option.bind_some, hmemory]
      rfl
    rw [← hcase]
    refine ⟨_, _, hinsert, ?_, ?_⟩
    · have hfree : header ∉ before ++ after := by
        rw [List.mem_append, not_or]
        exact ⟨fun h => absurd (hleft header h) (by omega),
          fun h => absurd (hright header h) (by omega)⟩
      refine Chain.congr (Chain.insertAfter hlist hold.nodup hlast hfree) fun a ha => ?_
      rcases eq_or_ne a prev with rfl | hother
      · rw [update_self, links_setNext_self hvalid.2, toPtr_pos hvalid.1]
      · rw [update_of_ne hother]
        have hprevApart : Apart prev a :=
          hspaced.apart (List.mem_append_left _ hprev) ha hother.symm
        rw [links_setNext_apart hprevApart]
        rcases eq_or_ne a header with rfl | hne
        · rw [update_self, hheader]
        · rw [update_of_ne hne]
          refine honly.links_apart fun b hb => ?_
          rw [List.mem_singleton] at hb
          rw [hb]
          exact hspaced.apart (by simp) ha hne.symm
    · exact (honly.mono (by simp)).trans (setNext_nextsOnly.mono (by simp [hprev]))

end RtThread.Finsh
