import RtThread.Driver.RingBlock

namespace RtThread.Driver

open RtThread.Lib

namespace Rbb

def piece (rbb : Rbb) (i : Nat) : Piece :=
  ⟨(rbb.blkSet i).buf, (rbb.blkSet i).buf + (rbb.blkSet i).size, Nat.le_add_right _ _⟩

def Used (rbb : Rbb) (i : Nat) : Prop :=
  i < rbb.blkMaxNum ∧ (rbb.blkSet i).status ≠ .unused

instance (rbb : Rbb) (i : Nat) : Decidable (rbb.Used i) :=
  inferInstanceAs (Decidable (_ ∧ _))

structure LiveOk (rbb : Rbb) : Prop where
  inside : ∀ i, rbb.Used i →
    rbb.buf ≤ (rbb.blkSet i).buf ∧
      (rbb.blkSet i).buf + (rbb.blkSet i).size ≤ rbb.buf + rbb.bufSize
  apart : ∀ i j, rbb.Used i → rbb.Used j → i ≠ j → (rbb.piece i).Apart (rbb.piece j)

def Clear (rbb : Rbb) (start size : Nat) : Prop :=
  ∀ i < rbb.blkMaxNum, rbb.Used i → i ∉ rbb.blkList → size = 0 ∨ (rbb.blkSet i).size = 0 ∨
    (rbb.blkSet i).buf + (rbb.blkSet i).size ≤ start ∨ start + size ≤ (rbb.blkSet i).buf

instance (rbb : Rbb) (start size : Nat) : Decidable (rbb.Clear start size) :=
  inferInstanceAs (Decidable (∀ i < rbb.blkMaxNum, _ → _ → _))

def BehindOk (rbb : Rbb) (blkSize head tail behind : Nat) : Prop :=
  if head ≤ tail then
    if behind + blkSize ≤ rbb.buf + rbb.bufSize then rbb.Clear behind blkSize
    else rbb.buf + blkSize ≤ head → rbb.Clear rbb.buf blkSize
  else behind + blkSize ≤ head → rbb.Clear behind blkSize ∧ (blkSize = 0 → behind < head)

instance (rbb : Rbb) (blkSize head tail behind : Nat) :
    Decidable (rbb.BehindOk blkSize head tail behind) := by
  unfold BehindOk
  infer_instance

def AllocOk (rbb : Rbb) (blkSize : Nat) : Prop :=
  (rbb.blkList = [] → blkSize ≤ rbb.bufSize ∧ rbb.Clear rbb.buf blkSize) ∧
    ∀ first ∈ rbb.blkList.head?, ∀ last ∈ rbb.blkList.getLast?,
      rbb.BehindOk blkSize (rbb.blkSet first).buf (rbb.blkSet last).buf
        ((rbb.blkSet last).buf + (rbb.blkSet last).size)

instance (rbb : Rbb) (blkSize : Nat) : Decidable (rbb.AllocOk blkSize) :=
  inferInstanceAs (Decidable ((_ → _ ∧ rbb.Clear _ _) ∧
    ∀ first ∈ rbb.blkList.head?, ∀ last ∈ rbb.blkList.getLast?, _))

def RoomTrue (rbb : Rbb) : RbbOp → Prop
  | .blkAlloc blkSize => rbb.findEmptyBlkInSet ≠ none → rbb.AllocOk blkSize
  | _ => True

instance (rbb : Rbb) (op : RbbOp) : Decidable (rbb.RoomTrue op) :=
  match op with
  | .blkAlloc blkSize =>
    inferInstanceAs (Decidable (rbb.findEmptyBlkInSet ≠ none → rbb.AllocOk blkSize))
  | .blkPut _ | .blkGet | .blkFree _ | .blkQueueGet _ | .blkQueueFree _ => .isTrue trivial

structure Inv (rbb : Rbb) : Prop where
  fits : rbb.buf + rbb.bufSize < 2 ^ 32
  nodup : rbb.blkList.Nodup
  listed : ∀ i ∈ rbb.blkList, rbb.Used i
  order : ∃ upper lower, rbb.blkList = upper ++ lower ∧
    CyclicOrder rbb.buf (rbb.buf + rbb.bufSize) (upper.map rbb.piece) (lower.map rbb.piece)
  live : rbb.LiveOk

structure Shrinks (rbb rbb' : Rbb) : Prop where
  buf : rbb'.buf = rbb.buf
  bufSize : rbb'.bufSize = rbb.bufSize
  blkMaxNum : rbb'.blkMaxNum = rbb.blkMaxNum
  place : ∀ i, (rbb'.blkSet i).buf = (rbb.blkSet i).buf ∧
    (rbb'.blkSet i).size = (rbb.blkSet i).size
  list : rbb'.blkList.Sublist rbb.blkList
  used : ∀ i, rbb'.Used i → rbb.Used i
  listed : ∀ i ∈ rbb'.blkList, rbb.Used i → rbb'.Used i

section Shrinks

variable {rbb rbb' rbb'' : Rbb}

theorem Shrinks.refl : Shrinks rbb rbb :=
  ⟨rfl, rfl, rfl, fun _ => ⟨rfl, rfl⟩, List.Sublist.refl _, fun _ => id, fun _ _ => id⟩

theorem Shrinks.trans (hfirst : Shrinks rbb rbb') (hsecond : Shrinks rbb' rbb'') :
    Shrinks rbb rbb'' where
  buf := hsecond.buf.trans hfirst.buf
  bufSize := hsecond.bufSize.trans hfirst.bufSize
  blkMaxNum := hsecond.blkMaxNum.trans hfirst.blkMaxNum
  place := fun i => ⟨(hsecond.place i).1.trans (hfirst.place i).1,
    (hsecond.place i).2.trans (hfirst.place i).2⟩
  list := hsecond.list.trans hfirst.list
  used := fun i h => hfirst.used i (hsecond.used i h)
  listed := fun i hmem h =>
    hsecond.listed i hmem (hfirst.listed i (hsecond.list.subset hmem) h)

theorem Shrinks.piece (hshrinks : Shrinks rbb rbb') : rbb'.piece = rbb.piece := by
  funext i
  simp only [Rbb.piece, (hshrinks.place i).1, (hshrinks.place i).2]

theorem Inv.shrinks (hinv : rbb.Inv) (hshrinks : Shrinks rbb rbb') : rbb'.Inv where
  fits := by rw [hshrinks.buf, hshrinks.bufSize]; exact hinv.fits
  nodup := hinv.nodup.sublist hshrinks.list
  listed := fun i hmem =>
    hshrinks.listed i hmem (hinv.listed i (hshrinks.list.subset hmem))
  order := by
    obtain ⟨upper, lower, hlist, horder⟩ := hinv.order
    have hsublist := hshrinks.list
    rw [hlist, List.sublist_append_iff] at hsublist
    obtain ⟨upper', lower', hlist', hupper, hlower⟩ := hsublist
    refine ⟨upper', lower', hlist', ?_⟩
    rw [hshrinks.buf, hshrinks.bufSize, hshrinks.piece]
    exact horder.sublist (hupper.map _) (hlower.map _)
  live := by
    refine ⟨fun i hused => ?_, fun i j hi hj hne => ?_⟩
    · rw [(hshrinks.place i).1, (hshrinks.place i).2, hshrinks.buf, hshrinks.bufSize]
      exact hinv.live.inside i (hshrinks.used i hused)
    · rw [hshrinks.piece]
      exact hinv.live.apart i j (hshrinks.used i hi) (hshrinks.used j hj) hne

theorem Shrinks.setStatus {block : Nat} {status : BlkStatus}
    (hold : (rbb.blkSet block).status ≠ .unused) (hnew : status ≠ .unused) :
    Shrinks rbb (rbb.setStatus block status) where
  buf := rfl
  bufSize := rfl
  blkMaxNum := rfl
  place := fun i => by
    by_cases hi : i = block
    · subst hi
      simp [Rbb.setStatus, setBlk]
    · simp [Rbb.setStatus, setBlk, hi]
  list := List.Sublist.refl _
  used := fun i h => by
    by_cases hi : i = block
    · subst hi
      exact ⟨h.1, hold⟩
    · simpa [Used, Rbb.setStatus, setBlk, hi] using h
  listed := fun i _ h => by
    by_cases hi : i = block
    · subst hi
      exact ⟨h.1, by simpa [Rbb.setStatus, setBlk] using hnew⟩
    · simpa [Used, Rbb.setStatus, setBlk, hi] using h

theorem Shrinks.remove (block : Nat) : Shrinks rbb (rbb.remove block) :=
  ⟨rfl, rfl, rfl, fun _ => ⟨rfl, rfl⟩, List.erase_sublist, fun _ => id, fun _ _ => id⟩

theorem Shrinks.blkFree (hnodup : rbb.blkList.Nodup) {block : Nat}
    (hexec : rbb.rtRbbBlkFree block = some rbb') : Shrinks rbb rbb' := by
  unfold rtRbbBlkFree at hexec
  split at hexec
  · cases hexec
    refine ⟨rfl, rfl, rfl, fun i => ?_, List.erase_sublist, fun i h => ?_, fun i hmem h => ?_⟩
    · by_cases hi : i = block
      · subst hi
        simp [Rbb.setStatus, setBlk, Rbb.remove]
      · simp [Rbb.setStatus, setBlk, Rbb.remove, hi]
    · by_cases hi : i = block
      · subst hi
        simp [Used, Rbb.setStatus, setBlk] at h
      · simpa [Used, Rbb.setStatus, setBlk, Rbb.remove, hi] using h
    · have hi : i ≠ block := by
        rintro rfl
        exact hnodup.not_mem_erase hmem
      simpa [Used, Rbb.setStatus, setBlk, Rbb.remove, hi] using h
  · cases hexec

theorem Shrinks.queueLoop (queueDataLen : Nat) (nodes : List Nat) (last : Option Nat)
    (queue : BlkQueue) (total : Nat) :
    Shrinks rbb (Rbb.queueLoop queueDataLen nodes last queue total rbb).2.2 := by
  have htake : ∀ (rbb : Rbb) node, (rbb.blkSet node).status = .put →
      Shrinks rbb ((rbb.remove node).setStatus node .get) := by
    intro rbb node hput
    have hput' : ((rbb.remove node).blkSet node).status ≠ .unused := by
      rw [show (rbb.remove node).blkSet = rbb.blkSet from rfl, hput]
      simp
    exact (Shrinks.remove node).trans (.setStatus hput' (by simp))
  induction nodes generalizing last queue total rbb with
  | nil => cases last <;> exact .refl
  | cons node rest ih =>
    cases last with
    | none =>
      simp only [Rbb.queueLoop]
      split
      next hput => exact (htake rbb node hput).trans (ih _ _ _)
      · exact ih _ _ _
    | some last =>
      simp only [Rbb.queueLoop]
      split
      · exact .refl
      next hgoes =>
        simp only [not_or, not_not] at hgoes
        exact (htake rbb node hgoes.1).trans (ih _ _ _)

theorem Inv.freeBlocks (hinv : rbb.Inv) {block n : Nat}
    (hexec : Rbb.freeBlocks block n rbb = some rbb') : rbb'.Inv := by
  induction n generalizing block rbb with
  | zero =>
    cases hexec
    exact hinv
  | succ n ih =>
    simp only [Rbb.freeBlocks] at hexec
    split at hexec
    · obtain ⟨mid, hfree, hrest⟩ := Option.bind_eq_some_iff.mp hexec
      exact ih (hinv.shrinks (.blkFree hinv.nodup hfree)) hrest
    · cases hexec

end Shrinks

section Alloc

variable {rbb : Rbb} {new buf blkSize : Nat}

theorem findEmptyBlkInSet_spec (hnew : rbb.findEmptyBlkInSet = some new) :
    new < rbb.blkMaxNum ∧ (rbb.blkSet new).status = .unused := by
  have hmem := List.mem_range.mp (List.mem_of_find?_eq_some hnew)
  have hunused := List.find?_some hnew
  exact ⟨hmem, by simpa using hunused⟩

theorem Clear.apart (hclear : rbb.Clear buf blkSize) {i : Nat} (hused : rbb.Used i)
    (hgone : i ∉ rbb.blkList) :
    (rbb.piece i).Apart ⟨buf, buf + blkSize, Nat.le_add_right _ _⟩ := by
  intro x hx hx'
  have hcases := hclear i hused.1 hused hgone
  simp only [piece] at hx hx'
  omega

section

variable (hinv : rbb.Inv)
include hinv

theorem Inv.append (hnew : new < rbb.blkMaxNum) (hunused : (rbb.blkSet new).status = .unused)
    (horder : ∃ upper lower, rbb.blkList ++ [new] = upper ++ lower ∧
      CyclicOrder rbb.buf (rbb.buf + rbb.bufSize)
        (upper.map (rbb.append new buf blkSize).piece)
        (lower.map (rbb.append new buf blkSize).piece))
    (hclear : rbb.Clear buf blkSize) : (rbb.append new buf blkSize).Inv := by
  have hnotlisted : new ∉ rbb.blkList := fun hmem => (hinv.listed new hmem).2 hunused
  have hself : (rbb.append new buf blkSize).blkSet new =
      { status := .inited, size := blkSize, buf := buf } := by
    simp [Rbb.append, setBlk]
  have hother : ∀ i, i ≠ new →
      (rbb.append new buf blkSize).blkSet i = rbb.blkSet i := by
    intro i hi
    simp [Rbb.append, setBlk, hi]
  have hpiece : ∀ i, i ≠ new → (rbb.append new buf blkSize).piece i = rbb.piece i := by
    intro i hi
    simp only [piece, hother i hi]
  have hpieceNew : (rbb.append new buf blkSize).piece new =
      ⟨buf, buf + blkSize, Nat.le_add_right _ _⟩ := by
    simp only [piece, hself]
  have hused : ∀ i, i ≠ new → (rbb.append new buf blkSize).Used i → rbb.Used i := by
    intro i hi h
    exact ⟨h.1, by rw [← hother i hi]; exact h.2⟩
  obtain ⟨upper, lower, hlist, hcyclic⟩ := horder
  have hpairwise := hcyclic.pairwise_apart
  rw [← List.map_append, ← hlist, List.pairwise_map, List.pairwise_append] at hpairwise
  -- the new block against any other one
  have hapart : ∀ i, i ≠ new → (rbb.append new buf blkSize).Used i →
      ((rbb.append new buf blkSize).piece i).Apart ((rbb.append new buf blkSize).piece new) := by
    intro i hi h
    by_cases hmem : i ∈ rbb.blkList
    · exact hpairwise.2.2 i hmem new (by simp)
    · rw [hpiece i hi, hpieceNew]
      exact hclear.apart (hused i hi h) hmem
  refine ⟨hinv.fits, ?_, fun i hmem => ?_, ⟨upper, lower, hlist, hcyclic⟩, fun i h => ?_,
    fun i j hi hj hne => ?_⟩
  · rw [show (rbb.append new buf blkSize).blkList = rbb.blkList ++ [new] from rfl,
      List.nodup_append]
    refine ⟨hinv.nodup, List.nodup_singleton _, fun a ha b hb => ?_⟩
    rw [List.mem_singleton.mp hb]
    rintro rfl
    exact hnotlisted ha
  · rcases List.mem_append.mp hmem with hlisted | hlast
    · have hi : i ≠ new := fun h => hnotlisted (h ▸ hlisted)
      have hold := hinv.listed i hlisted
      exact ⟨hold.1, by rw [hother i hi]; exact hold.2⟩
    · rw [List.mem_singleton.mp hlast]
      exact ⟨hnew, by rw [hself]; simp⟩
  · by_cases hi : i = new
    · subst hi
      have hinside := hcyclic.inside ((rbb.append i buf blkSize).piece i) (by
        rw [← List.map_append, ← hlist]
        exact List.mem_map_of_mem (by simp))
      exact hinside
    · rw [hother i hi]
      exact hinv.live.inside i (hused i hi h)
  · by_cases hinew : i = new
    · subst hinew
      exact (hapart j hne.symm hj).symm
    · by_cases hjnew : j = new
      · subst hjnew
        exact hapart i hinew hi
      · rw [hpiece i hinew, hpiece j hjnew]
        exact hinv.live.apart i j (hused i hinew hi) (hused j hjnew hj) hne

theorem Inv.map_piece (hunused : (rbb.blkSet new).status = .unused)
    {blocks : List Nat} (hsub : ∀ i ∈ blocks, i ∈ rbb.blkList) :
    blocks.map (rbb.append new buf blkSize).piece = blocks.map rbb.piece := by
  refine List.map_congr_left fun i hmem => ?_
  have hi : i ≠ new := by
    rintro rfl
    exact (hinv.listed i (hsub i hmem)).2 hunused
  simp [piece, Rbb.append, setBlk, hi]

theorem Inv.layout {first last : Nat} (hfirst : rbb.blkList.head? = some first)
    (hlast : rbb.blkList.getLast? = some last) :
    ((rbb.blkSet first).buf ≤ (rbb.blkSet last).buf ∧
      CyclicOrder rbb.buf (rbb.buf + rbb.bufSize) (rbb.blkList.map rbb.piece) []) ∨
    ((rbb.blkSet last).buf < (rbb.blkSet first).buf ∧
      ∃ upper lower, rbb.blkList = (first :: upper) ++ (lower ++ [last]) ∧
        CyclicOrder rbb.buf (rbb.buf + rbb.bufSize) ((first :: upper).map rbb.piece)
          ((lower ++ [last]).map rbb.piece)) := by
  -- one ascending run
  have hascending : CyclicOrder rbb.buf (rbb.buf + rbb.bufSize) (rbb.blkList.map rbb.piece) [] →
      (rbb.blkSet first).buf ≤ (rbb.blkSet last).buf := by
    intro hcyclic
    obtain ⟨init, hinit⟩ := List.getLast?_eq_some_iff.mp hlast
    rw [hinit] at hfirst
    cases init with
    | nil =>
      cases hfirst
      exact Nat.le_refl _
    | cons head rest =>
      cases hfirst
      have hpairwise := hcyclic.upperOrder
      rw [hinit, List.map_append, List.map_cons, List.cons_append, List.pairwise_cons] at hpairwise
      have hbefore : (rbb.piece first).Before (rbb.piece last) := hpairwise.1 _ (by simp)
      exact Nat.le_trans (rbb.piece first).start_le hbefore
  obtain ⟨upper, lower, hlist, hcyclic⟩ := hinv.order
  cases upper with
  | nil =>
    have hrun : CyclicOrder rbb.buf (rbb.buf + rbb.bufSize) (rbb.blkList.map rbb.piece) [] := by
      rw [hlist, List.nil_append]
      exact hcyclic.restart
    exact .inl ⟨hascending hrun, hrun⟩
  | cons head upper =>
    rcases List.eq_nil_or_concat lower with rfl | ⟨lower, tail, rfl⟩
    · have hrun : CyclicOrder rbb.buf (rbb.buf + rbb.bufSize) (rbb.blkList.map rbb.piece) [] := by
        rw [hlist, List.append_nil]
        exact hcyclic
      exact .inl ⟨hascending hrun, hrun⟩
    · rw [List.concat_eq_append] at hlist hcyclic
      rw [hlist] at hfirst hlast
      cases hfirst
      rw [← List.append_assoc, List.getLast?_concat] at hlast
      cases hlast
      refine .inr ⟨?_, upper, lower, hlist, hcyclic⟩
      exact (hcyclic.below (rbb.piece last) (by simp) (rbb.piece first) (by simp)).2

theorem Inv.alloc_behind (hnew : new < rbb.blkMaxNum)
    (hunused : (rbb.blkSet new).status = .unused) {last : Nat}
    (hlast : rbb.blkList.getLast? = some last)
    (hcyclic : CyclicOrder rbb.buf (rbb.buf + rbb.bufSize) (rbb.blkList.map rbb.piece) [])
    (hfits : (rbb.blkSet last).buf + (rbb.blkSet last).size + blkSize ≤ rbb.buf + rbb.bufSize)
    (hclear : rbb.Clear ((rbb.blkSet last).buf + (rbb.blkSet last).size) blkSize) :
    (rbb.append new ((rbb.blkSet last).buf + (rbb.blkSet last).size) blkSize).Inv := by
  obtain ⟨init, hinit⟩ := List.getLast?_eq_some_iff.mp hlast
  refine hinv.append hnew hunused ⟨rbb.blkList ++ [new], [], by simp, ?_⟩ hclear
  rw [List.map_append, hinv.map_piece hunused fun i => id, hinit, List.map_append]
  rw [hinit, List.map_append] at hcyclic
  refine hcyclic.append_upper ?_ ?_
  · simp [Piece.Before, piece, Rbb.append, setBlk]
  · simpa [piece, Rbb.append, setBlk] using hfits

theorem Inv.alloc_wrap (hnew : new < rbb.blkMaxNum)
    (hunused : (rbb.blkSet new).status = .unused) {first : Nat}
    (hfirst : rbb.blkList.head? = some first)
    (hcyclic : CyclicOrder rbb.buf (rbb.buf + rbb.bufSize) (rbb.blkList.map rbb.piece) [])
    (hpos : 0 < blkSize) (hfits : rbb.buf + blkSize ≤ (rbb.blkSet first).buf)
    (hclear : rbb.Clear rbb.buf blkSize) : (rbb.append new rbb.buf blkSize).Inv := by
  obtain ⟨rest, hrest⟩ := List.head?_eq_some_iff.mp hfirst
  refine hinv.append hnew hunused ⟨rbb.blkList, [new], rfl, ?_⟩ hclear
  rw [hinv.map_piece hunused fun i => id, hrest, List.map_cons]
  rw [hrest, List.map_cons] at hcyclic
  refine hcyclic.wrap ?_ ?_ ?_
  · simp [piece, Rbb.append, setBlk]
  · simpa [piece, Rbb.append, setBlk] using hpos
  · simpa [Piece.Before, piece, Rbb.append, setBlk] using hfits

theorem Inv.alloc_between (hnew : new < rbb.blkMaxNum)
    (hunused : (rbb.blkSet new).status = .unused) {first last : Nat} {upper lower : List Nat}
    (hlist : rbb.blkList = (first :: upper) ++ (lower ++ [last]))
    (hcyclic : CyclicOrder rbb.buf (rbb.buf + rbb.bufSize) ((first :: upper).map rbb.piece)
      ((lower ++ [last]).map rbb.piece))
    (hfits : (rbb.blkSet last).buf + (rbb.blkSet last).size + blkSize ≤ (rbb.blkSet first).buf)
    (hzero : blkSize = 0 →
      (rbb.blkSet last).buf + (rbb.blkSet last).size < (rbb.blkSet first).buf)
    (hclear : rbb.Clear ((rbb.blkSet last).buf + (rbb.blkSet last).size) blkSize) :
    (rbb.append new ((rbb.blkSet last).buf + (rbb.blkSet last).size) blkSize).Inv := by
  refine hinv.append hnew hunused ⟨first :: upper, lower ++ [last] ++ [new], by simp [hlist], ?_⟩
    hclear
  have hupper : ∀ i ∈ first :: upper, i ∈ rbb.blkList := fun i hmem => by
    rw [hlist]
    exact List.mem_append_left _ hmem
  have hlower : ∀ i ∈ lower ++ [last], i ∈ rbb.blkList := fun i hmem => by
    rw [hlist]
    exact List.mem_append_right _ hmem
  rw [hinv.map_piece hunused hupper, List.map_append, hinv.map_piece hunused hlower,
    List.map_append]
  rw [List.map_append] at hcyclic
  refine hcyclic.append_lower ?_ ?_ ?_
  · simp [Piece.Before, piece, Rbb.append, setBlk]
  · simpa [Piece.Before, piece, Rbb.append, setBlk] using hfits
  · simp only [piece, Rbb.append, setBlk, Function.update_self]
    omega

theorem Inv.alloc (hok : rbb.findEmptyBlkInSet ≠ none → rbb.AllocOk blkSize) :
    (rbb.rtRbbBlkAlloc blkSize).2.Inv := by
  unfold rtRbbBlkAlloc
  split
  · exact hinv
  next new hfind =>
    obtain ⟨hnew, hunused⟩ := findEmptyBlkInSet_spec hfind
    have hallocOk := hok (by rw [hfind]; simp)
    have hend := hinv.fits
    split
    · split
      next first last hfirst hlast =>
        have hroom := hallocOk.2 first hfirst last hlast
        have hfirstIn := hinv.live.inside first
          (hinv.listed first (List.mem_of_mem_head? hfirst))
        have hlastIn := hinv.live.inside last
          (hinv.listed last (List.mem_of_mem_getLast? hlast))
        unfold BehindOk at hroom
        dsimp only
        rcases hinv.layout hfirst hlast with ⟨hle, hcyclic⟩ | ⟨hlt, upper, lower, hlist, hcyclic⟩
        · rw [if_pos hle] at hroom ⊢
          rw [sizeSub_of_le hlastIn.2 (by omega), sizeSub_of_le hfirstIn.1 (by omega)]
          split
          next hbehind =>
            rw [if_pos (by omega)] at hroom
            exact hinv.alloc_behind hnew hunused hlast hcyclic (by omega) hroom
          next hshort =>
            rw [if_neg (by omega)] at hroom
            split
            next hwraps =>
              exact hinv.alloc_wrap hnew hunused hfirst hcyclic (by omega) (by omega)
                (hroom (by omega))
            · exact hinv
        · rw [if_neg (by omega)] at hroom ⊢
          have hbelow : (rbb.blkSet last).buf + (rbb.blkSet last).size ≤ (rbb.blkSet first).buf :=
            (hcyclic.below (rbb.piece last) (by simp) (rbb.piece first) (by simp)).1
          rw [sizeSub_of_le hbelow (by omega)]
          split
          next hbetween =>
            obtain ⟨hclear, hzero⟩ := hroom (by omega)
            exact hinv.alloc_between hnew hunused hlist hcyclic (by omega) hzero hclear
          · exact hinv
      next hempty =>
        have hnil : rbb.blkList = [] := by
          cases hlist : rbb.blkList with
          | nil => rfl
          | cons first rest =>
            obtain ⟨last, hlast⟩ : ∃ last, (first :: rest).getLast? = some last :=
              Option.isSome_iff_exists.mp (by simp)
            exact (hempty first last (by rw [hlist]; rfl) (by rw [hlist]; exact hlast)).elim
        obtain ⟨hfits, hclear⟩ := hallocOk.1 hnil
        refine hinv.append hnew hunused ⟨[new], [], by simp [hnil], ?_⟩ hclear
        refine ⟨?_, List.pairwise_singleton _ _, .nil, by simp⟩
        simpa [piece, Rbb.append, setBlk] using hfits
    · exact hinv

end

end Alloc

theorem rtRbbInit_inv {buf bufSize blkMaxNum : Nat} {blockSet : Nat → Blk}
    (hfits : buf + bufSize < 2 ^ 32) : (rtRbbInit buf bufSize blockSet blkMaxNum).Inv := by
  have hunused : ∀ i, ¬ (rtRbbInit buf bufSize blockSet blkMaxNum).Used i :=
    fun i h => h.2 rfl
  exact ⟨hfits, List.nodup_nil, fun _ hmem => absurd hmem List.not_mem_nil,
    ⟨[], [], rfl, .nil⟩, ⟨fun i h => absurd h (hunused i), fun i _ h => absurd h (hunused i)⟩⟩

theorem Inv.exec {buf bufSize blkMaxNum : Nat} {rbb rbb' : Rbb} {op : RbbOp} (hinv : rbb.Inv)
    (hroom : rbb.RoomTrue op) (hexec : (rbbMachine buf bufSize blkMaxNum).exec rbb op = some rbb') :
    rbb'.Inv := by
  cases op with
  | blkAlloc blkSize =>
    simp only [rbbMachine] at hexec
    split at hexec
    · cases hexec
      exact hinv.alloc hroom
    · cases hexec
  | blkPut block =>
    simp only [rbbMachine, rtRbbBlkPut] at hexec
    split at hexec
    · split at hexec
      next hinited =>
        cases hexec
        exact hinv.shrinks (.setStatus (by rw [hinited]; simp) (by simp))
      · cases hexec
    · cases hexec
  | blkGet =>
    cases hexec
    unfold rtRbbBlkGet
    split
    · exact hinv
    next block hfind =>
      have hput := List.find?_some hfind
      rw [decide_eq_true_eq] at hput
      exact hinv.shrinks (.setStatus (by rw [hput]; simp) (by simp))
  | blkFree block =>
    simp only [rbbMachine] at hexec
    split at hexec
    · exact hinv.shrinks (.blkFree hinv.nodup hexec)
    · cases hexec
  | blkQueueGet queueDataLen =>
    cases hexec
    exact hinv.shrinks (.queueLoop queueDataLen _ _ _ _)
  | blkQueueFree queue => exact hinv.freeBlocks hexec

/-- Blocks in use never overlap in a run whose allocations find the room they take free. -/
theorem reachable_liveOk {buf bufSize blkMaxNum : Nat} {rbb : Rbb}
    (hreach : (rbbMachine buf bufSize blkMaxNum).Reachable (fun rbb op => rbb.RoomTrue op) rbb) :
    rbb.LiveOk := by
  have hinv := hreach.invariant Inv
    (by
      rintro rbb ⟨hfits, blockSet, rfl⟩
      exact rtRbbInit_inv hfits)
    (fun rbb op rbb' hinv hroom hexec => hinv.exec hroom hexec)
  exact hinv.live

/-- A queue is handed out while the next block goes behind the one that stays listed. -/
theorem reachable_liveOk_queue :
    ∃ rbb, (rbbMachine 0 16 4).Reachable (fun rbb op => rbb.RoomTrue op) rbb ∧
      rbb.blkList = [1, 2] ∧ rbb.Used 0 ∧ rbb.LiveOk := by
  have hrun : ((rbbMachine 0 16 4).run (fun rbb op => rbb.RoomTrue op)
      (rtRbbInit 0 16 (fun _ => ⟨.unused, 0, 0⟩) 4)
        [.blkAlloc 4, .blkAlloc 4, .blkPut 0, .blkQueueGet 16, .blkAlloc 8]).map
        (fun rbb => (rbb.blkList, decide (rbb.Used 0))) = some ([1, 2], true) := by
    decide +kernel
  have hinit : (rbbMachine 0 16 4).init (rtRbbInit 0 16 (fun _ => ⟨.unused, 0, 0⟩) 4) :=
    ⟨by decide, fun _ => ⟨.unused, 0, 0⟩, rfl⟩
  obtain ⟨rbb, hreach, hvalue⟩ := Machine.exists_reachable_of_run hinit hrun
  simp only [Prod.mk.injEq, decide_eq_true_eq] at hvalue
  exact ⟨rbb, hreach, hvalue.1, hvalue.2, reachable_liveOk hreach⟩

/-- The only block has been handed out by `rt_rbb_blk_queue_get`, and the next one gets its
bytes. -/
theorem liveOk_fails_after_queueGet :
    ∃ rbb, (rbbMachine 0 16 4).Reachable (fun _ _ => True) rbb ∧ ¬ rbb.LiveOk := by
  have hrun : ((rbbMachine 0 16 4).run (fun _ _ => True)
      (rtRbbInit 0 16 (fun _ => ⟨.unused, 0, 0⟩) 4)
        [.blkAlloc 4, .blkPut 0, .blkQueueGet 4, .blkAlloc 4]).map
        (fun rbb => (rbb.blkMaxNum, rbb.blkSet 0, rbb.blkSet 1)) =
      some (4, ⟨.get, 4, 0⟩, ⟨.inited, 4, 0⟩) := by decide +kernel
  have hinit : (rbbMachine 0 16 4).init (rtRbbInit 0 16 (fun _ => ⟨.unused, 0, 0⟩) 4) :=
    ⟨by decide, fun _ => ⟨.unused, 0, 0⟩, rfl⟩
  obtain ⟨rbb, hreach, hvalue⟩ := Machine.exists_reachable_of_run hinit hrun
  simp only [Prod.mk.injEq] at hvalue
  obtain ⟨hmax, hzero, hone⟩ := hvalue
  refine ⟨rbb, hreach, fun hok => ?_⟩
  refine hok.apart 0 1 ⟨by omega, by simp [hzero]⟩ ⟨by omega, by simp [hone]⟩ (by decide) 0 ?_ ?_
  · simp [piece, hzero]
  · simp [piece, hone]

end Rbb

end RtThread.Driver
