import Mathlib.Data.List.Nodup
import Mathlib.Data.List.Perm.Basic
import RtThread.Pthreads.NamedSem

namespace RtThread.Pthreads

open RtThread.Lib

namespace SemSystem

def lookup (s : SemSystem) (name : List UInt8) : Option PosixSem :=
  s.list.find? fun psem => psem.name = name ∧ psem.unlinked = false

def named (s : SemSystem) (name : List UInt8) : Option Nat := (s.lookup name).map PosixSem.addr

structure Coherent (s : SemSystem) : Prop where
  addresses : (s.list.map PosixSem.addr).Nodup
  unique : ∀ x ∈ s.list, ∀ y ∈ s.list, x.unlinked = false → y.unlinked = false →
    x.name = y.name → x.addr = y.addr
  counted : ∀ x ∈ s.list, x.refcount = s.handles.count x.addr
  range : ∀ x ∈ s.list, x.refcount < 2 ^ 16
  held : ∀ addr ∈ s.handles, ∃ x ∈ s.list, x.addr = addr
  kept : ∀ x ∈ s.list, x.unlinked = true → x.refcount ≠ 0
  once : (s.released ++ s.list.flatMap PosixSem.blocks).Perm (List.range s.allocated)

def Law (s : SemSystem) (op : SemOp) (result : SemResult) (s' : SemSystem) : Prop :=
  match op with
  | .openSem name creat excl block object =>
    (∀ other, other ≠ name → s'.named other = s.named other) ∧
    match s.lookup name with
    | some psem =>
      if creat = true ∧ excl = true then result = .error .eexist ∧ s' = s
      else result = .handle psem.addr ∧
        s'.lookup name = some { psem with refcount := psem.refcount + 1 }
    | none =>
      if creat = true then
        match block, object with
        | some addr, some _ => result = .handle addr ∧ s'.named name = some addr
        | _, _ => result = .error .enfile ∧ s'.named name = none
      else result = .error .enoent ∧ s' = s
  | .close _ => ∀ name, s'.named name = s.named name
  | .unlink name => s'.named name = none ∧ ∀ other, other ≠ name → s'.named other = s.named other

def withNext : List PosixSem → List (PosixSem × Nat)
  | [] => []
  | psem :: rest => (psem, nextPointer rest) :: withNext rest

/-- The first semaphore whose bytes from the field `sem` on spell the name. -/
def hit (s : SemSystem) (name : List UInt8) : Option PosixSem :=
  ((withNext s.list).find? fun item =>
    (name ++ [0]).isPrefixOf (pointerBytes item.1.sem ++ pointerBytes item.2)).map Prod.fst

def Resolves (s : SemSystem) : SemOp → Prop
  | .openSem name creat excl _ _ =>
    if creat = true then
      if excl = true then (s.hit name).isSome = (s.lookup name).isSome
      else s.lookup name = none
    else s.hit name = s.lookup name ∧ ∀ psem ∈ s.lookup name, psem.refcount < 2 ^ 16 - 1
  | .close _ => True
  | .unlink name =>
    match s.lookup name with
    | some psem => s.hit name = some psem
    | none => ∀ psem ∈ s.hit name, psem.unlinked = true

theorem strncmpZero_eq {name : List UInt8} {count : Nat} (hlength : name.length < count)
    (hzero : 0 ∉ name) (bytes : List UInt8) :
    strncmpZero count bytes (name ++ [0]) = (name ++ [0]).isPrefixOf bytes := by
  induction name generalizing count bytes with
  | nil =>
    cases count with
    | zero => cases hlength
    | succ count =>
      cases bytes with
      | nil => rfl
      | cons a as =>
        by_cases ha : a = 0
        · simp [strncmpZero, List.isPrefixOf, ha]
        · simp [strncmpZero, List.isPrefixOf, ha, Ne.symm ha]
  | cons b bs ih =>
    rw [List.mem_cons, not_or] at hzero
    cases count with
    | zero => cases hlength
    | succ count =>
      cases bytes with
      | nil => rfl
      | cons a as =>
        have hrest := ih (Nat.lt_of_succ_lt_succ hlength) hzero.2 as
        by_cases hab : a = b
        · subst hab
          simp [strncmpZero, Ne.symm hzero.1, hrest]
        · simp [strncmpZero, List.isPrefixOf, hab, Ne.symm hab]

theorem posixSemFind_eq (s : SemSystem) {name : List UInt8} (hvalid : ValidName name) :
    posixSemFind name s.list = s.hit name := by
  unfold hit
  induction s.list with
  | nil => rfl
  | cons psem rest ih =>
    rw [posixSemFind, strncmpZero_eq hvalid.1 hvalid.2, withNext, List.find?_cons]
    split
    next hspelled => rw [hspelled, Option.map_some]
    next hother =>
      rw [Bool.eq_false_iff.mpr hother]
      exact ih

section Lists

variable {list : List PosixSem} {psem x y : PosixSem} {addr : Nat}

theorem mem_of_posixSemFind {name : List UInt8} (hfind : posixSemFind name list = some psem) :
    psem ∈ list := by
  induction list with
  | nil => cases hfind
  | cons iter rest ih =>
    unfold posixSemFind at hfind
    split at hfind
    · cases hfind
      exact List.mem_cons_self
    · exact List.mem_cons_of_mem _ (ih hfind)

theorem mem_storeSem (hmem : x ∈ list) (haddr : psem.addr = x.addr) :
    y ∈ storeSem psem list ↔ y = psem ∨ y ∈ list ∧ y.addr ≠ x.addr := by
  unfold storeSem
  rw [List.mem_map, haddr]
  constructor
  · rintro ⟨iter, hiter, rfl⟩
    split
    · exact .inl rfl
    next hne => exact .inr ⟨hiter, hne⟩
  · rintro (rfl | ⟨hy, hne⟩)
    · exact ⟨x, hmem, if_pos rfl⟩
    · exact ⟨y, hy, if_neg hne⟩

theorem map_addr_storeSem (psem : PosixSem) (list : List PosixSem) :
    (storeSem psem list).map PosixSem.addr = list.map PosixSem.addr := by
  unfold storeSem
  rw [List.map_map]
  refine List.map_congr_left fun iter _ => ?_
  show (if iter.addr = psem.addr then psem else iter).addr = iter.addr
  split
  next heq => exact heq.symm
  · rfl

section

variable (hnodup : (list.map PosixSem.addr).Nodup)
include hnodup

theorem eq_of_addr (hx : x ∈ list) (hy : y ∈ list)
    (haddr : x.addr = y.addr) : x = y := List.inj_on_of_nodup_map hnodup hx hy haddr

theorem flatMap_blocks_storeSem (hmem : x ∈ list)
    (haddr : psem.addr = x.addr) (hblocks : psem.blocks = x.blocks) :
    (storeSem psem list).flatMap PosixSem.blocks = list.flatMap PosixSem.blocks := by
  unfold storeSem
  rw [List.flatMap_map]
  refine List.flatMap_congr fun iter hiter => ?_
  split
  next heq => rw [hblocks, eq_of_addr hnodup hiter hmem (heq.trans haddr)]
  · rfl

theorem perm_removeSem (hmem : x ∈ list) : list.Perm (x :: removeSem x.addr list) := by
  induction list with
  | nil => cases hmem
  | cons iter rest ih =>
    unfold removeSem
    by_cases haddr : iter.addr = x.addr
    · rw [if_pos haddr, eq_of_addr hnodup List.mem_cons_self hmem haddr]
    · rw [if_neg haddr]
      have hrest : x ∈ rest := (List.mem_cons.mp hmem).resolve_left fun h => haddr (by rw [h])
      exact ((ih (List.nodup_cons.mp hnodup).2 hrest).cons iter).trans (List.Perm.swap ..)

theorem mem_removeSem (hmem : x ∈ list) :
    y ∈ removeSem x.addr list ↔ y ∈ list ∧ y.addr ≠ x.addr := by
  have hperm := perm_removeSem hnodup hmem
  have hfresh := (hperm.map PosixSem.addr).nodup_iff.mp hnodup
  rw [hperm.mem_iff, List.mem_cons]
  constructor
  · intro h
    refine ⟨.inr h, fun haddr => (List.nodup_cons.mp hfresh).1 ?_⟩
    exact List.mem_map.mpr ⟨y, h, haddr⟩
  · rintro ⟨rfl | h, hne⟩
    · exact absurd rfl hne
    · exact h

end

end Lists

variable {s s' : SemSystem} {psem x y : PosixSem} {name : List UInt8}

theorem Coherent.lookup_iff (hcoherent : s.Coherent) :
    s.lookup name = some x ↔ x ∈ s.list ∧ x.name = name ∧ x.unlinked = false := by
  unfold lookup
  constructor
  · intro h
    exact ⟨List.mem_of_find?_eq_some h, by simpa using List.find?_some h⟩
  · rintro ⟨hmem, hname, hlinked⟩
    cases hfind : s.list.find? fun psem => psem.name = name ∧ psem.unlinked = false with
    | none =>
      have h := List.find?_eq_none.mp hfind x hmem
      exact absurd (decide_eq_true ⟨hname, hlinked⟩) h
    | some y =>
      have hy := List.mem_of_find?_eq_some hfind
      obtain ⟨hyname, hylinked⟩ : y.name = name ∧ y.unlinked = false := by
        simpa using List.find?_some hfind
      exact congrArg some (eq_of_addr hcoherent.addresses hy hmem
        (hcoherent.unique y hy x hmem hylinked hlinked (hyname.trans hname.symm)))

theorem Coherent.lookup_none_iff (hcoherent : s.Coherent) :
    s.lookup name = none ↔ ∀ x ∈ s.list, x.name = name → x.unlinked = true := by
  constructor
  · intro h x hmem hname
    by_contra hlinked
    have hsome := hcoherent.lookup_iff.mpr ⟨hmem, hname, Bool.eq_false_iff.mpr hlinked⟩
    rw [h] at hsome
    cases hsome
  · intro h
    cases hlookup : s.lookup name with
    | none => rfl
    | some x =>
      obtain ⟨hmem, hname, hlinked⟩ := hcoherent.lookup_iff.mp hlookup
      rw [h x hmem hname] at hlinked
      cases hlinked

theorem Coherent.named_iff (hcoherent : s.Coherent) {addr : Nat} : s.named name = some addr ↔
    ∃ x ∈ s.list, x.name = name ∧ x.unlinked = false ∧ x.addr = addr := by
  unfold named
  rw [Option.map_eq_some_iff]
  constructor
  · rintro ⟨x, hlookup, haddr⟩
    obtain ⟨hmem, hname, hlinked⟩ := hcoherent.lookup_iff.mp hlookup
    exact ⟨x, hmem, hname, hlinked, haddr⟩
  · rintro ⟨x, hmem, hname, hlinked, haddr⟩
    exact ⟨x, hcoherent.lookup_iff.mpr ⟨hmem, hname, hlinked⟩, haddr⟩

theorem Coherent.named_congr (hcoherent : s.Coherent) (hcoherent' : s'.Coherent)
    (hsame : ∀ addr, (∃ x ∈ s'.list, x.name = name ∧ x.unlinked = false ∧ x.addr = addr) ↔
      ∃ x ∈ s.list, x.name = name ∧ x.unlinked = false ∧ x.addr = addr) :
    s'.named name = s.named name := by
  refine Option.ext fun addr => ?_
  rw [hcoherent'.named_iff, hcoherent.named_iff]
  exact hsame addr

structure Replaced (s s' : SemSystem) (x psem : PosixSem) (stays : Bool) : Prop where
  was : x ∈ s.list
  addr : psem.addr = x.addr
  name : psem.name = x.name
  marked : x.unlinked = true → psem.unlinked = true
  mem : ∀ y, y ∈ s'.list ↔ stays = true ∧ y = psem ∨ y ∈ s.list ∧ y.addr ≠ x.addr
  count : ∀ addr, addr ≠ x.addr → s'.handles.count addr = s.handles.count addr
  counted : s'.handles.count x.addr = if stays then psem.refcount else 0

theorem Replaced.coherent {stays : Bool} (hreplaced : Replaced s s' x psem stays)
    (hcoherent : s.Coherent) (haddresses : (s'.list.map PosixSem.addr).Nodup)
    (hrange : psem.refcount < 2 ^ 16) (hkept : stays = true → psem.unlinked = true → psem.refcount ≠ 0)
    (honce : (s'.released ++ s'.list.flatMap PosixSem.blocks).Perm (List.range s'.allocated)) :
    s'.Coherent := by
  obtain ⟨hwas, haddr, hname, hmarked, hmem, hcount, hcounted⟩ := hreplaced
  have hlinked (y : PosixSem) (hy : y ∈ s'.list) (hfree : y.unlinked = false) :
      ∃ z ∈ s.list, z.unlinked = false ∧ z.name = y.name ∧ z.addr = y.addr := by
    rcases (hmem y).mp hy with ⟨-, rfl⟩ | ⟨hold, -⟩
    · refine ⟨x, hwas, ?_, hname.symm, haddr.symm⟩
      by_contra hnot
      rw [hmarked (by simpa using hnot)] at hfree
      cases hfree
    · exact ⟨y, hold, hfree, rfl, rfl⟩
  refine ⟨haddresses, fun y hy z hz hyfree hzfree hsame => ?_, fun y hy => ?_, fun y hy => ?_,
    fun addr haddrMem => ?_, fun y hy => ?_, honce⟩
  · obtain ⟨y', hy', hyfree', hyname, hyaddr⟩ := hlinked y hy hyfree
    obtain ⟨z', hz', hzfree', hzname, hzaddr⟩ := hlinked z hz hzfree
    rw [← hyaddr, ← hzaddr]
    exact hcoherent.unique y' hy' z' hz' hyfree' hzfree' (by rw [hyname, hzname, hsame])
  · rcases (hmem y).mp hy with ⟨hstays, rfl⟩ | ⟨hold, hne⟩
    · rw [haddr, hcounted, if_pos hstays]
    · rw [hcount _ hne, hcoherent.counted y hold]
  · rcases (hmem y).mp hy with ⟨-, rfl⟩ | ⟨hold, -⟩
    · exact hrange
    · exact hcoherent.range y hold
  · by_cases hx : addr = x.addr
    · subst hx
      have hpos := List.count_pos_iff.mpr haddrMem
      rw [hcounted] at hpos
      split at hpos
      next hstays => exact ⟨psem, (hmem psem).mpr (.inl ⟨hstays, rfl⟩), haddr⟩
      · omega
    · have hpos := List.count_pos_iff.mpr haddrMem
      rw [hcount _ hx] at hpos
      obtain ⟨y, hy, hyaddr⟩ := hcoherent.held addr (List.count_pos_iff.mp hpos)
      exact ⟨y, (hmem y).mpr (.inr ⟨hy, fun h => hx (hyaddr.symm.trans h)⟩), hyaddr⟩
  · rcases (hmem y).mp hy with ⟨hstays, rfl⟩ | ⟨hold, -⟩
    · exact hkept hstays
    · exact hcoherent.kept y hold

theorem Replaced.named_eq {stays : Bool} (hreplaced : Replaced s s' x psem stays)
    (hcoherent : s.Coherent) (hcoherent' : s'.Coherent)
    (hsame : x.name = name → (stays = true ∧ psem.unlinked = false ↔ x.unlinked = false)) :
    s'.named name = s.named name := by
  refine hcoherent.named_congr hcoherent' fun addr => ?_
  constructor
  · rintro ⟨y, hy, hyname, hyfree, hyaddr⟩
    rcases (hreplaced.mem y).mp hy with ⟨hstays, rfl⟩ | ⟨hold, -⟩
    · have hxname := hreplaced.name.symm.trans hyname
      exact ⟨x, hreplaced.was, hxname, (hsame hxname).mp ⟨hstays, hyfree⟩,
        hreplaced.addr.symm.trans hyaddr⟩
    · exact ⟨y, hold, hyname, hyfree, hyaddr⟩
  · rintro ⟨y, hy, hyname, hyfree, hyaddr⟩
    by_cases hx : y.addr = x.addr
    · obtain rfl := eq_of_addr hcoherent.addresses hy hreplaced.was hx
      obtain ⟨hstays, hfree⟩ := (hsame hyname).mpr hyfree
      exact ⟨psem, (hreplaced.mem psem).mpr (.inl ⟨hstays, rfl⟩), hreplaced.name.trans hyname, hfree,
        hreplaced.addr.trans hyaddr⟩
    · exact ⟨y, (hreplaced.mem y).mpr (.inr ⟨hy, hx⟩), hyname, hyfree, hyaddr⟩

theorem Replaced.named_none {stays : Bool} (hreplaced : Replaced s s' x psem stays)
    (hcoherent : s.Coherent) (hcoherent' : s'.Coherent) (hfree : x.unlinked = false)
    (hlost : ¬ (stays = true ∧ psem.unlinked = false)) : s'.named x.name = none := by
  refine Option.eq_none_iff_forall_ne_some.mpr fun addr hnamed => ?_
  obtain ⟨y, hy, hyname, hyfree, -⟩ := hcoherent'.named_iff.mp hnamed
  rcases (hreplaced.mem y).mp hy with ⟨hstays, rfl⟩ | ⟨hold, hne⟩
  · exact hlost ⟨hstays, hyfree⟩
  · exact hne (hcoherent.unique y hold x hreplaced.was hyfree hfree hyname)

theorem Coherent.replaced_store (psem : PosixSem) (handles : List Nat) (hcoherent : s.Coherent)
    (hmem : x ∈ s.list)
    (haddr : psem.addr = x.addr) (hname : psem.name = x.name)
    (hmarked : x.unlinked = true → psem.unlinked = true) (hblocks : psem.blocks = x.blocks)
    (hrange : psem.refcount < 2 ^ 16) (hkept : psem.unlinked = true → psem.refcount ≠ 0)
    (hcount : ∀ addr, addr ≠ x.addr → handles.count addr = s.handles.count addr)
    (hcounted : handles.count x.addr = psem.refcount) :
    Replaced s { s.store psem with handles := handles } x psem true ∧
      ({ s.store psem with handles := handles } : SemSystem).Coherent := by
  have hreplaced : Replaced s { s.store psem with handles := handles } x psem true := by
    refine ⟨hmem, haddr, hname, hmarked, fun y => ?_, hcount, hcounted⟩
    show y ∈ storeSem psem s.list ↔ true = true ∧ y = psem ∨ _
    rw [eq_self, true_and]
    exact mem_storeSem hmem haddr
  refine ⟨hreplaced, hreplaced.coherent hcoherent ?_ hrange (fun _ => hkept) ?_⟩
  · show ((storeSem psem s.list).map PosixSem.addr).Nodup
    rw [map_addr_storeSem]
    exact hcoherent.addresses
  · show (s.released ++ (storeSem psem s.list).flatMap PosixSem.blocks).Perm _
    rw [flatMap_blocks_storeSem hcoherent.addresses hmem haddr hblocks]
    exact hcoherent.once

theorem Coherent.replaced_delete (psem : PosixSem) (hcoherent : s.Coherent) (hmem : x ∈ s.list)
    (haddr : psem.addr = x.addr) (hname : psem.name = x.name)
    (hmarked : x.unlinked = true → psem.unlinked = true) (hblocks : psem.blocks = x.blocks)
    (hrange : psem.refcount < 2 ^ 16)
    {handles : List Nat} (hcount : ∀ addr, addr ≠ x.addr → handles.count addr = s.handles.count addr)
    (hcounted : handles.count x.addr = 0) :
    Replaced s { (s.store psem).posixSemDelete psem with handles := handles } x psem false ∧
      ({ (s.store psem).posixSemDelete psem with handles := handles } : SemSystem).Coherent := by
  have haddresses : ((storeSem psem s.list).map PosixSem.addr).Nodup := by
    rw [map_addr_storeSem]
    exact hcoherent.addresses
  have hstored : psem ∈ storeSem psem s.list := (mem_storeSem hmem haddr).mpr (.inl rfl)
  have hperm := perm_removeSem haddresses hstored
  have hreplaced : Replaced s { (s.store psem).posixSemDelete psem with handles := handles } x psem
      false := by
    refine ⟨hmem, haddr, hname, hmarked, fun y => ?_, hcount, hcounted⟩
    show y ∈ removeSem psem.addr (storeSem psem s.list) ↔ _
    rw [mem_removeSem haddresses hstored, mem_storeSem hmem haddr, haddr]
    constructor
    · rintro ⟨rfl | h, hne⟩
      · exact absurd haddr hne
      · exact .inr h
    · rintro (⟨hstays, -⟩ | h)
      · cases hstays
      · exact ⟨.inr h, h.2⟩
  refine ⟨hreplaced, hreplaced.coherent hcoherent ?_ hrange nofun ?_⟩
  · have hnodup := (hperm.map PosixSem.addr).nodup_iff.mp haddresses
    exact (List.nodup_cons.mp hnodup).2
  · have hblocksPerm : (s.list.flatMap PosixSem.blocks).Perm (psem.blocks ++
        (removeSem psem.addr (storeSem psem s.list)).flatMap PosixSem.blocks) := by
      rw [← flatMap_blocks_storeSem hcoherent.addresses hmem haddr hblocks]
      exact hperm.flatMap_right _
    show ((psem.blocks ++ s.released) ++
      (removeSem psem.addr (storeSem psem s.list)).flatMap PosixSem.blocks).Perm _
    refine List.Perm.trans ?_ hcoherent.once
    rw [List.append_assoc]
    exact (List.perm_append_comm_assoc ..).trans (hblocksPerm.symm.append_left _)

theorem Coherent.insert (hcoherent : s.Coherent) {addr : Nat} (hfresh : s.Fresh (some addr))
    (hnone : s.lookup name = none) (sem : Nat) :
    ({ s with
      list := ⟨addr, 1, false, sem, name, s.allocated, s.allocated + 1⟩ :: s.list
      handles := addr :: s.handles
      allocated := s.allocated + 2 } : SemSystem).Coherent := by
  obtain ⟨-, -, hother⟩ := hfresh addr rfl
  have hclosed : addr ∉ s.handles := fun h => by
    obtain ⟨x, hx, haddr⟩ := hcoherent.held addr h
    exact (hother x hx).1 haddr
  have hnamed := hcoherent.lookup_none_iff.mp hnone
  refine ⟨?_, fun x hx y hy hxfree hyfree hsame => ?_, fun x hx => ?_, fun x hx => ?_,
    fun a ha => ?_, fun x hx => ?_, ?_⟩
  · refine List.nodup_cons.mpr ⟨fun h => ?_, hcoherent.addresses⟩
    obtain ⟨x, hx, haddr⟩ := List.mem_map.mp h
    exact (hother x hx).1 haddr
  · rcases List.mem_cons.mp hx with rfl | hx <;> rcases List.mem_cons.mp hy with rfl | hy
    · rfl
    · rw [hnamed y hy hsame.symm] at hyfree
      cases hyfree
    · rw [hnamed x hx hsame] at hxfree
      cases hxfree
    · exact hcoherent.unique x hx y hy hxfree hyfree hsame
  · rcases List.mem_cons.mp hx with rfl | hx
    · show 1 = (addr :: s.handles).count addr
      rw [List.count_cons_self, List.count_eq_zero_of_not_mem hclosed]
    · show x.refcount = (addr :: s.handles).count x.addr
      rw [List.count_cons_of_ne (hother x hx).1.symm]
      exact hcoherent.counted x hx
  · rcases List.mem_cons.mp hx with rfl | hx
    · exact Nat.one_lt_two_pow (by decide)
    · exact hcoherent.range x hx
  · rcases List.mem_cons.mp ha with rfl | ha
    · exact ⟨_, List.mem_cons_self, rfl⟩
    · obtain ⟨x, hx, haddr⟩ := hcoherent.held a ha
      exact ⟨x, List.mem_cons_of_mem _ hx, haddr⟩
  · rcases List.mem_cons.mp hx with rfl | hx
    · exact nofun
    · exact hcoherent.kept x hx
  · show (s.released ++ ([s.allocated, s.allocated + 1] ++ s.list.flatMap PosixSem.blocks)).Perm
      (List.range (s.allocated + 2))
    rw [List.range_succ, List.range_succ, List.append_assoc]
    refine (List.perm_append_comm_assoc ..).trans ?_
    exact (hcoherent.once.append_left _).trans List.perm_append_comm

theorem Coherent.released (hcoherent : s.Coherent) :
    ({ s with allocated := s.allocated + 1, released := s.allocated :: s.released } :
      SemSystem).Coherent := by
  obtain ⟨haddresses, hunique, hcounted, hrange, hheld, hkept, honce⟩ := hcoherent
  refine ⟨haddresses, hunique, hcounted, hrange, hheld, hkept, ?_⟩
  show (s.allocated :: (s.released ++ s.list.flatMap PosixSem.blocks)).Perm
    (List.range (s.allocated + 1))
  rw [List.range_succ]
  have hlast : ([s.allocated] ++ List.range s.allocated).Perm (List.range s.allocated ++ [s.allocated]) :=
    List.perm_append_comm
  exact (honce.cons _).trans hlast

section Steps

variable {result : SemResult} {op : SemOp}

theorem semClose_eq (s : SemSystem) (hpos : 0 < x.refcount) (hrange : x.refcount < 2 ^ 16) :
    s.semClose x =
      if x.refcount - 1 = 0 ∧ x.unlinked = true then
        (s.store { x with refcount := x.refcount - 1 }).posixSemDelete
          { x with refcount := x.refcount - 1 }
      else s.store { x with refcount := x.refcount - 1 } := by
  have hdecrement : (x.refcount + (2 ^ 16 - 1)) % 2 ^ 16 = x.refcount - 1 := by omega
  simp only [semClose, hdecrement]
  by_cases hzero : x.refcount - 1 = 0
  · by_cases hunlinked : x.unlinked = true
    · rw [if_pos hzero, if_pos hunlinked, if_pos ⟨hzero, hunlinked⟩]
    · rw [if_pos hzero, if_neg hunlinked, if_neg fun h => hunlinked h.2]
  · rw [if_neg hzero, if_neg fun h => hzero h.1]

theorem Coherent.close_step (hcoherent : s.Coherent) {addr : Nat}
    (hcall : s.call (.close addr) = some (result, s')) :
    s'.Coherent ∧ ∀ name, s'.named name = s.named name := by
  simp only [call] at hcall
  split at hcall
  next hopen =>
    split at hcall
    · cases hcall
    next x hfind =>
      have hmem := List.mem_of_find?_eq_some hfind
      have haddr : x.addr = addr := by simpa using List.find?_some hfind
      simp only [Option.some.injEq, Prod.mk.injEq] at hcall
      obtain ⟨-, rfl⟩ := hcall
      have hcounted := hcoherent.counted x hmem
      rw [haddr] at hcounted
      have hpos : 0 < s.handles.count addr := List.count_pos_iff.mpr hopen
      have hrange := hcoherent.range x hmem
      have hcount (a : Nat) (hne : a ≠ x.addr) : (s.handles.erase addr).count a = s.handles.count a :=
        List.count_erase_of_ne (by rw [← haddr]; exact hne)
      have hsame : (s.handles.erase addr).count x.addr = x.refcount - 1 := by
        rw [haddr, List.count_erase_self, ← hcounted]
      rw [s.semClose_eq (by omega) hrange]
      by_cases hdelete : x.refcount - 1 = 0 ∧ x.unlinked = true
      · rw [if_pos hdelete]
        obtain ⟨hreplaced, hcoherent'⟩ := hcoherent.replaced_delete
          { x with refcount := x.refcount - 1 } hmem rfl rfl id rfl (by dsimp only; omega)
          hcount (hsame.trans hdelete.1)
        refine ⟨hcoherent', fun name => hreplaced.named_eq hcoherent hcoherent' fun _ => ?_⟩
        rw [hdelete.2]
        exact ⟨fun h => h.1.symm, nofun⟩
      · rw [if_neg hdelete]
        obtain ⟨hreplaced, hcoherent'⟩ := hcoherent.replaced_store
          { x with refcount := x.refcount - 1 } _ hmem rfl rfl id rfl (by dsimp only; omega)
          (fun hunlinked hzero => hdelete ⟨hzero, hunlinked⟩) hcount hsame
        refine ⟨hcoherent', fun name => hreplaced.named_eq hcoherent hcoherent' fun _ => ?_⟩
        exact ⟨And.right, fun h => ⟨rfl, h⟩⟩
  · cases hcall

theorem Coherent.unlink_found (hcoherent : s.Coherent) (hfind : posixSemFind name s.list = some x) :
    ∃ stays s', s.semUnlink name = (.ok (), s') ∧
      Replaced s s' x { x with unlinked := true } stays ∧ s'.Coherent ∧
      (x.unlinked = true → stays = true) := by
  have hmem := mem_of_posixSemFind hfind
  have hcounted := hcoherent.counted x hmem
  unfold semUnlink
  rw [hfind]
  dsimp only
  by_cases hzero : x.refcount = 0
  · rw [if_pos hzero]
    obtain ⟨hreplaced, hcoherent'⟩ := hcoherent.replaced_delete { x with unlinked := true }
      hmem rfl rfl (fun _ => rfl) rfl (hcoherent.range x hmem) (fun _ _ => rfl)
      (hcounted.symm.trans hzero)
    exact ⟨false, _, rfl, hreplaced, hcoherent', fun h => absurd hzero (hcoherent.kept x hmem h)⟩
  · rw [if_neg hzero]
    obtain ⟨hreplaced, hcoherent'⟩ := hcoherent.replaced_store { x with unlinked := true } _
      hmem rfl rfl (fun _ => rfl) rfl (hcoherent.range x hmem) (fun _ => hzero) (fun _ _ => rfl)
      hcounted.symm
    exact ⟨true, _, rfl, hreplaced, hcoherent', fun _ => rfl⟩

theorem Coherent.unlink_step (hcoherent : s.Coherent)
    (hcall : s.call (.unlink name) = some (result, s')) :
    s'.Coherent ∧ (s.Law (.unlink name) result s' ↔ s.Resolves (.unlink name)) := by
  simp only [call] at hcall
  split at hcall
  next hvalid =>
    have hhit := posixSemFind_eq s hvalid
    cases hfind : posixSemFind name s.list with
    | none =>
      have hunlink : s.semUnlink name = (.error .enoent, s) := by rw [semUnlink, hfind]
      rw [hunlink] at hcall
      obtain ⟨-, rfl⟩ := Prod.mk.inj (Option.some.inj hcall)
      refine ⟨hcoherent, ?_⟩
      simp only [Law, Resolves, ← hhit, hfind]
      cases hlookup : s.lookup name with
      | none => exact ⟨fun _ => (by rintro _ ⟨⟩), fun _ => ⟨congrArg (Option.map PosixSem.addr) hlookup, fun _ _ => trivial⟩⟩
      | some psem =>
        refine ⟨fun h => ?_, (by intro h; cases h)⟩
        rw [named, hlookup] at h
        cases h.1
    | some x =>
      have hmem := mem_of_posixSemFind hfind
      obtain ⟨stays, after, hunlink, hreplaced, hcoherent', hstays⟩ := hcoherent.unlink_found hfind
      rw [hunlink] at hcall
      obtain ⟨-, rfl⟩ := Prod.mk.inj (Option.some.inj hcall)
      refine ⟨hcoherent', ?_⟩
      have hother (other : List UInt8) (hne : x.name = other → x.unlinked = true) :
          after.named other = s.named other := by
        refine hreplaced.named_eq hcoherent hcoherent' fun hname => ?_
        rw [hne hname]
        exact ⟨(by intro h; cases h.2), (by intro h; cases h)⟩
      simp only [Law, Resolves, ← hhit, hfind]
      cases hlookup : s.lookup name with
      | none =>
        have hname := hcoherent.lookup_none_iff.mp hlookup
        constructor
        · rintro ⟨-, hsame⟩ y hy
          obtain rfl := Option.some.inj hy
          by_contra hlinked
          have hfree := Bool.eq_false_iff.mpr hlinked
          have hne : x.name ≠ name := fun h => hlinked (hname x hmem h)
          have hnone := hreplaced.named_none hcoherent hcoherent' hfree
            (by intro h; cases h.2)
          rw [hsame x.name hne, named, hcoherent.lookup_iff.mpr ⟨hmem, rfl, hfree⟩] at hnone
          cases hnone
        · intro h
          have hmarked := h x rfl
          refine ⟨?_, fun other _ => hother other fun _ => hmarked⟩
          rw [hother name fun _ => hmarked, named, hlookup]
          rfl
      | some psem =>
        obtain ⟨hpsem, hname, hlinked⟩ := hcoherent.lookup_iff.mp hlookup
        constructor
        · rintro ⟨hnone, -⟩
          by_contra hne
          have haddr : psem.addr ≠ x.addr := fun h =>
            hne (by rw [eq_of_addr hcoherent.addresses hmem hpsem h.symm])
          have hsome := hcoherent'.named_iff.mpr ⟨psem, (hreplaced.mem psem).mpr
            (.inr ⟨hpsem, haddr⟩), hname, hlinked, rfl⟩
          rw [hnone] at hsome
          cases hsome
        · intro h
          obtain rfl := Option.some.inj h
          refine ⟨?_, fun other hne => hother other fun h => absurd (h.symm.trans hname) hne⟩
          rw [← hname]
          exact hreplaced.named_none hcoherent hcoherent' hlinked (by intro h; cases h.2)
  · cases hcall

theorem Coherent.create_step (hcoherent : s.Coherent) {block : Option Nat} (object : Option Nat)
    (hfresh : s.Fresh block) (hnone : s.lookup name = none) :
    match block, object with
    | some addr, some _ => ∃ after, s.createSem name block object = (.ok addr, after) ∧
        ({ after with handles := addr :: after.handles } : SemSystem).Coherent ∧
        after.named name = some addr ∧ ∀ other, other ≠ name → after.named other = s.named other
    | _, _ => ∃ after, s.createSem name block object = (.error .enfile, after) ∧ after.Coherent ∧
        ∀ other, after.named other = s.named other := by
  cases block with
  | none => exact ⟨s, rfl, hcoherent, fun _ => rfl⟩
  | some addr =>
    cases object with
    | none => exact ⟨_, rfl, hcoherent.released, fun _ => rfl⟩
    | some sem =>
      have hinsert := hcoherent.insert hfresh hnone sem
      refine ⟨_, rfl, hinsert, ?_, fun other hne => ?_⟩
      · exact hinsert.named_iff.mpr ⟨_, List.mem_cons_self, rfl, rfl, rfl⟩
      · refine (hcoherent.named_congr hinsert fun a => ?_ : _ = s.named other)
        constructor
        · rintro ⟨x, hx, hname, h⟩
          rcases List.mem_cons.mp hx with rfl | hx
          · exact absurd hname.symm hne
          · exact ⟨x, hx, hname, h⟩
        · rintro ⟨x, hx, h⟩
          exact ⟨x, List.mem_cons_of_mem _ hx, h⟩

theorem createSem_result (s : SemSystem) (name : List UInt8) (block object : Option Nat) :
    (s.createSem name block object).1 = .error .enfile ∨
      ∃ addr ∈ block, (s.createSem name block object).1 = .ok addr := by
  cases block with
  | none => exact .inl rfl
  | some addr =>
    cases object with
    | none => exact .inl rfl
    | some sem => exact .inr ⟨addr, rfl, rfl⟩

theorem Coherent.open_found (hcoherent : s.Coherent) (hlookup : s.lookup name = some x)
    (hrange : x.refcount < 2 ^ 16 - 1) :
    ({ s.store { x with refcount := x.refcount + 1 } with
        handles := x.addr :: s.handles } : SemSystem).Coherent ∧
      (s.store { x with refcount := x.refcount + 1 }).lookup name =
        some { x with refcount := x.refcount + 1 } ∧
      ∀ other, (s.store { x with refcount := x.refcount + 1 }).named other = s.named other := by
  obtain ⟨hmem, hname, hlinked⟩ := hcoherent.lookup_iff.mp hlookup
  obtain ⟨hreplaced, hcoherent'⟩ := hcoherent.replaced_store
    { x with refcount := x.refcount + 1 } (x.addr :: s.handles) hmem rfl rfl id
    rfl (by dsimp only; omega) (fun _ => Nat.succ_ne_zero _)
    (fun a hne => List.count_cons_of_ne hne.symm) (by
      rw [List.count_cons_self, ← hcoherent.counted x hmem])
  refine ⟨hcoherent', ?_, fun other => ?_⟩
  · exact hcoherent'.lookup_iff.mpr ⟨(hreplaced.mem _).mpr (.inl ⟨rfl, rfl⟩), hname, hlinked⟩
  · exact hreplaced.named_eq hcoherent hcoherent' fun _ => ⟨And.right, fun h => ⟨rfl, h⟩⟩

theorem Coherent.creat_step (hcoherent : s.Coherent) {excl : Bool} {block object : Option Nat}
    (hcall : s.call (.openSem name true excl block object) = some (result, s')) :
    (s.Resolves (.openSem name true excl block object) → s'.Coherent) ∧
      (s.Law (.openSem name true excl block object) result s' ↔
        s.Resolves (.openSem name true excl block object)) := by
  simp only [call, semOpen, if_true] at hcall
  split at hcall
  next hvalid =>
    have hfresh := hvalid.2.1
    simp only [Law, Resolves, ← posixSemFind_eq s hvalid.1, true_and, if_true]
    by_cases hexists : (excl && (posixSemFind name s.list).isSome) = true
    · rw [if_pos hexists] at hcall
      obtain ⟨rfl, rfl⟩ := Prod.mk.inj (Option.some.inj hcall)
      obtain ⟨hexcl, hfound⟩ := Bool.and_eq_true_iff.mp hexists
      rw [if_pos hexcl, hfound]
      refine ⟨fun _ => hcoherent, ?_⟩
      cases s.lookup name with
      | none =>
        refine ⟨fun h => ?_, (by intro h; cases h)⟩
        cases block <;> cases object <;> cases h.2.1
      | some psem =>
        refine ⟨fun _ => rfl, fun _ => ⟨fun _ _ => rfl, ?_⟩⟩
        dsimp only
        rw [if_pos hexcl]
        exact ⟨rfl, rfl⟩
    · rw [if_neg hexists] at hcall
      cases hlookup : s.lookup name with
      | none =>
        have hresolves : if excl = true then
            (posixSemFind name s.list).isSome = (none : Option PosixSem).isSome
            else (none : Option PosixSem) = none := by
          split
          next hexcl =>
            rw [hexcl, Bool.true_and] at hexists
            exact Bool.eq_false_iff.mpr hexists
          · rfl
        have hcreate := hcoherent.create_step object hfresh hlookup
        refine ⟨fun _ => ?_, fun _ => hresolves, fun _ => ?_⟩
        all_goals
          cases block <;> cases object <;> obtain ⟨after, hafter, hnext⟩ := hcreate <;>
            rw [hafter] at hcall <;> obtain ⟨rfl, rfl⟩ := Prod.mk.inj (Option.some.inj hcall)
        · exact hnext.1
        · exact hnext.1
        · exact hnext.1
        · exact hnext.1
        all_goals
          first
          | exact ⟨hnext.2.2, rfl, hnext.2.1⟩
          | exact ⟨fun other _ => hnext.2 other, rfl, (hnext.2 name).trans (congrArg _ hlookup)⟩
      | some psem =>
        have hunresolved : ¬ if excl = true then
            (posixSemFind name s.list).isSome = (some psem).isSome else some psem = none := by
          split
          next hexcl =>
            rw [hexcl, Bool.true_and] at hexists
            exact hexists
          · simp
        have hmem := (hcoherent.lookup_iff.mp hlookup).1
        refine ⟨fun h => absurd h hunresolved, fun h => ?_, fun h => absurd h hunresolved⟩
        -- the call gives an error for want of memory, or a new handle
        have hresult : result = .error .enfile ∨ ∃ addr ∈ block, result = .handle addr := by
          rcases s.createSem_result name block object with herror | ⟨addr, haddr, hok⟩
          · left
            generalize s.createSem name block object = pair at hcall herror
            obtain ⟨first, second⟩ := pair
            obtain rfl : first = _ := herror
            exact (Prod.mk.inj (Option.some.inj hcall)).1.symm
          · refine .inr ⟨addr, haddr, ?_⟩
            generalize s.createSem name block object = pair at hcall hok
            obtain ⟨first, second⟩ := pair
            obtain rfl : first = _ := hok
            exact (Prod.mk.inj (Option.some.inj hcall)).1.symm
        have hlaw := h.2
        dsimp only at hlaw
        exfalso
        rcases hresult with rfl | ⟨addr, haddr, rfl⟩
        · split at hlaw
          · cases hlaw.1
          · cases hlaw.1
        · split at hlaw
          · cases hlaw.1
          · have heq : addr = psem.addr := SemResult.handle.inj hlaw.1
            exact ((hfresh addr haddr).2.2 psem hmem).1 heq.symm
  · cases hcall

theorem Coherent.find_step (hcoherent : s.Coherent) {excl : Bool} {block object : Option Nat}
    (hcall : s.call (.openSem name false excl block object) = some (result, s')) :
    (s.Resolves (.openSem name false excl block object) → s'.Coherent) ∧
      (s.Law (.openSem name false excl block object) result s' ↔
        s.Resolves (.openSem name false excl block object)) := by
  simp only [call, semOpen, Bool.false_eq_true, if_false] at hcall
  split at hcall
  next hvalid =>
    simp only [Law, Resolves, ← posixSemFind_eq s hvalid.1, Bool.false_eq_true, false_and, if_false]
    cases hfind : posixSemFind name s.list with
    | none =>
      rw [hfind] at hcall
      obtain ⟨rfl, rfl⟩ := Prod.mk.inj (Option.some.inj hcall)
      refine ⟨fun _ => hcoherent, ?_⟩
      cases hlookup : s.lookup name with
      | none => exact ⟨fun _ => ⟨rfl, (by rintro _ ⟨⟩)⟩, fun _ => ⟨fun _ _ => rfl, rfl, rfl⟩⟩
      | some psem => exact ⟨(by intro h; cases h.2.1), (by intro h; cases h.1)⟩
    | some x =>
      rw [hfind] at hcall
      obtain ⟨rfl, rfl⟩ := Prod.mk.inj (Option.some.inj hcall)
      have hmem := mem_of_posixSemFind hfind
      cases hlookup : s.lookup name with
      | none => exact ⟨(by intro h; cases h.1), (by intro h; cases h.2.1), (by intro h; cases h.1)⟩
      | some psem =>
        have hfound (hresolves : some x = some psem ∧
            ∀ psem' ∈ some psem, psem'.refcount < 2 ^ 16 - 1) :=
          hcoherent.open_found (x := x) (hlookup.trans hresolves.1.symm) (by
            rw [Option.some.inj hresolves.1]
            exact hresolves.2 psem rfl)
        have hcount (hsmall : x.refcount < 2 ^ 16 - 1) :
            (x.refcount + 1) % 2 ^ 16 = x.refcount + 1 := Nat.mod_eq_of_lt (by omega)
        have hsmall (hresolves : some x = some psem ∧
            ∀ psem' ∈ some psem, psem'.refcount < 2 ^ 16 - 1) : x.refcount < 2 ^ 16 - 1 := by
          rw [Option.some.inj hresolves.1]
          exact hresolves.2 psem rfl
        refine ⟨fun h => ?_, fun h => ?_, fun h => ?_⟩
        · rw [hcount (hsmall h)]
          exact (hfound h).1
        · obtain ⟨-, hhandle, hstored⟩ := h
          have haddr : x.addr = psem.addr := SemResult.handle.inj hhandle
          obtain ⟨hpsem, -, -⟩ := hcoherent.lookup_iff.mp hlookup
          obtain rfl := eq_of_addr hcoherent.addresses hmem hpsem haddr
          refine ⟨rfl, fun y hy => ?_⟩
          obtain rfl := Option.some.inj hy
          by_contra hlarge
          have hrange := hcoherent.range x hmem
          have hcounted : { x with refcount := x.refcount + 1 } ∈
              storeSem { x with refcount := (x.refcount + 1) % 2 ^ 16 } s.list :=
            List.mem_of_find?_eq_some hstored
          rcases (mem_storeSem hmem (by rfl)).mp hcounted with heq | ⟨-, hne⟩
          · have hwrap := congrArg PosixSem.refcount heq
            dsimp only at hwrap
            omega
          · exact hne rfl
        · obtain ⟨-, hstored, hnamed⟩ := hfound h
          obtain rfl := Option.some.inj h.1
          rw [hcount (hsmall h)]
          exact ⟨fun other _ => hnamed other, rfl, hstored⟩
  · cases hcall

theorem Coherent.step (hcoherent : s.Coherent) (hcall : s.call op = some (result, s')) :
    (s.Resolves op → s'.Coherent) ∧ (s.Law op result s' ↔ s.Resolves op) := by
  cases op with
  | openSem name creat excl block object =>
    cases creat with
    | false => exact hcoherent.find_step hcall
    | true => exact hcoherent.creat_step hcall
  | close addr =>
    obtain ⟨hcoherent', hnamed⟩ := hcoherent.close_step hcall
    exact ⟨fun _ => hcoherent', fun _ => trivial, fun _ => hnamed⟩
  | unlink name =>
    obtain ⟨hcoherent', hlaw⟩ := hcoherent.unlink_step hcall
    exact ⟨fun _ => hcoherent', hlaw⟩

end Steps

theorem coherent_init : (⟨[], [], 0, []⟩ : SemSystem).Coherent where
  addresses := .nil
  unique := nofun
  counted := nofun
  range := nofun
  held := nofun
  kept := nofun
  once := .refl _

instance (s : SemSystem) (op : SemOp) : Decidable (s.Resolves op) :=
  match op with
  | .openSem name creat excl _ _ =>
    inferInstanceAs (Decidable (if creat = true then
      if excl = true then (s.hit name).isSome = (s.lookup name).isSome
      else s.lookup name = none
      else s.hit name = s.lookup name ∧
        ∀ psem ∈ s.lookup name, psem.refcount < 2 ^ 16 - 1))
  | .close _ => .isTrue trivial
  | .unlink name =>
    match hlookup : s.lookup name with
    | some psem =>
      decidable_of_iff (s.hit name = some psem) (by rw [Resolves, hlookup])
    | none =>
      decidable_of_iff (∀ psem ∈ s.hit name, psem.unlinked = true)
        (by rw [Resolves, hlookup])

end SemSystem

/-- Calls for which `posix_sem_find` hits the semaphore that has the name keep everything in
agreement and do what they should, and no other call does. -/
theorem reachable_coherent {s : SemSystem} (hreach : semMachine.Reachable SemSystem.Resolves s) :
    s.Coherent ∧ ∀ op result s', s.call op = some (result, s') →
      (s.Law op result s' ↔ s.Resolves op) := by
  have hcoherent : s.Coherent := by
    refine hreach.invariant SemSystem.Coherent (fun _ h => ?_) fun _ _ _ hcoherent hresolves hexec => ?_
    · rw [show _ = _ from h]
      exact SemSystem.coherent_init
    · obtain ⟨⟨result, after⟩, hcall, rfl⟩ := Option.map_eq_some_iff.mp hexec
      exact (hcoherent.step hcall).1 hresolves
  exact ⟨hcoherent, fun _ _ _ hcall => (hcoherent.step hcall).2⟩

/-- The semaphore at `0x20006264` can be found, as its address spells `db`. -/
theorem reachable_coherent_spelled :
    ∃ s, semMachine.Reachable SemSystem.Resolves s ∧ s.handles = [0x20001000, 0x20001000] ∧
      s.Coherent ∧ ∀ result s', s.call (.unlink [0x64, 0x62]) = some (result, s') →
        s.Law (.unlink [0x64, 0x62]) result s' := by
  have hrun : (semMachine.run SemSystem.Resolves ⟨[], [], 0, []⟩
      [.openSem [0x64, 0x62] true true (some 0x20001000) (some 0x20006264),
        .openSem [0x64, 0x62] false false none none, .openSem [0x64] true false none none,
        .close 0x20001000, .openSem [0x64, 0x62] false false none none]).map
      (fun s => (s.handles, decide (s.Resolves (.unlink [0x64, 0x62])))) =
        some ([0x20001000, 0x20001000], true) := by
    decide +kernel
  obtain ⟨s, hreach, hvalue⟩ := Machine.exists_reachable_of_run
    (show semMachine.init ⟨[], [], 0, []⟩ from rfl) hrun
  simp only [Prod.mk.injEq, decide_eq_true_eq] at hvalue
  have hlaws := reachable_coherent hreach
  exact ⟨s, hreach, hvalue.1, hlaws.1, fun result s' hcall =>
    (hlaws.2 _ result s' hcall).mpr hvalue.2⟩

/-- A semaphore that was just created is not found. -/
theorem created_not_law :
    ∃ s, semMachine.Reachable (fun _ _ => True) s ∧ ∃ result s',
      s.call (.openSem [0x61] false false none none) = some (result, s') ∧
        ¬ s.Law (.openSem [0x61] false false none none) result s' := by
  have hrun : (semMachine.run (fun _ _ => True) ⟨[], [], 0, []⟩
      [.openSem [0x61] true false (some 0x20001000) (some 0x20002000)]).map (fun s =>
        ((s.call (.openSem [0x61] false false none none)).map Prod.fst,
          (s.lookup [0x61]).map PosixSem.addr)) =
        some (some (.error .enoent), some 0x20001000) := by
    decide +kernel
  obtain ⟨s, hreach, hvalue⟩ := Machine.exists_reachable_of_run
    (show semMachine.init ⟨[], [], 0, []⟩ from rfl) hrun
  obtain ⟨hresult, hnamed⟩ := Prod.mk.inj hvalue
  obtain ⟨⟨result, s'⟩, hcall, hfirst⟩ := Option.map_eq_some_iff.mp hresult
  obtain rfl : result = .error .enoent := hfirst
  obtain ⟨psem, hlookup, -⟩ := Option.map_eq_some_iff.mp hnamed
  refine ⟨s, hreach, _, s', hcall, fun hlaw => ?_⟩
  simp only [SemSystem.Law, hlookup, Bool.false_eq_true, false_and, if_false] at hlaw
  cases hlaw.2.1

end RtThread.Pthreads
