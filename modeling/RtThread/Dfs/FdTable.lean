import Mathlib.Algebra.Order.Ring.Nat
import RtThread.Lib.Transition

namespace RtThread.Dfs

open Function RtThread.Lib

/-! The file descriptor table of `dfs.c`.  A slot holds the address of an entry; what the
allocator answers is part of a call. -/

abbrev dfsFdMagic : Nat := 0xfdfd
abbrev dfsFdOffset : Int32 := 3

structure DfsFd where
  magic : Nat
  refCount : Int32
  deriving DecidableEq

/-- The table and the allocated entries; `result` is what `fd_new` returned last, `got` what
`fd_get` did.

History: the number that an entry was handed out with, and the references to it that have not
been put. -/
structure FdTable where
  dfsFdMax : Nat
  fds : List (Option Nat)
  entry : Nat → Option DfsFd
  result : Int
  got : Option Nat
  number : Nat → Option Int
  held : Nat → Nat

namespace FdTable

def setEntry (s : FdTable) (d : Nat) (fd : Option DfsFd) : FdTable :=
  { s with entry := update s.entry d fd }

def hold (s : FdTable) (d : Nat) (references : Nat) : FdTable :=
  { s with held := update s.held d references }

def findFd (entry : Nat → Option DfsFd) : List (Option Nat) → Option Nat
  | [] => some 0
  | none :: _ => some 0
  | some d :: fds =>
    (entry d).bind fun fd =>
      if fd.refCount = 0 then some 0 else (findFd entry fds).map (· + 1)

def grow (s : FdTable) : FdTable :=
  { s with fds := s.fds ++
      List.replicate (min (s.fds.length + 4) s.dfsFdMax - s.fds.length) none }

/-- `fd_alloc`; `realloc` says whether the container can grow, `calloc` where a new entry
goes. -/
def fdAlloc (startfd : Nat) (realloc : Bool) (calloc : Option Nat) (s : FdTable) :
    Option (FdTable × Nat) :=
  (findFd s.entry (s.fds.drop startfd)).map fun found =>
    let idx := startfd + found
    let full := idx = s.fds.length ∧ s.fds.length < s.dfsFdMax
    if full ∧ realloc = false then (s, idx)
    else
      let s := if full then s.grow else s
      if s.fds[idx]? = some none then
        match calloc with
        | none => (s, s.fds.length)
        | some d => ({ s.setEntry d (some ⟨0, 0⟩) with fds := s.fds.set idx (some d) }, idx)
      else (s, idx)

def fdNew (realloc : Bool) (calloc : Option Nat) (s : FdTable) : Option FdTable :=
  (s.fdAlloc 0 realloc calloc).bind fun (s, idx) =>
    if idx = s.fds.length then some { s with result := -(1 + dfsFdOffset.toInt) + dfsFdOffset.toInt }
    else
      s.fds[idx]?.join.map fun d =>
        { (s.setEntry d (some ⟨dfsFdMagic, 1⟩)).hold d (s.held d + 1) with
          result := idx + dfsFdOffset.toInt
          number := update s.number d (some (idx + dfsFdOffset.toInt)) }

def slot (s : FdTable) (fd : Int32) : Option (Option Nat) :=
  if fd - dfsFdOffset < 0 then none else s.fds[(fd - dfsFdOffset).toInt.toNat]?

def fdGet (fd : Int32) (s : FdTable) : Option FdTable :=
  match s.slot fd with
  | none => some { s with got := none }
  | some none => none
  | some (some d) =>
    (s.entry d).map fun e =>
      if e.magic ≠ dfsFdMagic then { s with got := none }
      else
        { (s.setEntry d (some { e with refCount := e.refCount + 1 })).hold d (s.held d + 1) with
          got := some d }

def fdPut (d : Nat) (s : FdTable) : Option FdTable :=
  (s.entry d).map fun e =>
    let e := { e with refCount := e.refCount - 1 }
    let s := (s.setEntry d (some e)).hold d (s.held d - 1)
    if e.refCount = 0 then
      match s.fds.findIdx? (· = some d) with
      | none => s
      | some index => { s.setEntry d none with fds := s.fds.set index none }
    else s

end FdTable

inductive FdOp
  | new (realloc : Bool) (calloc : Option Nat)
  | get (fd : Int32)
  | put (d : Nat)

def FdTable.exec (s : FdTable) : FdOp → Option FdTable
  | .new realloc calloc => s.fdNew realloc calloc
  | .get fd => s.fdGet fd
  | .put d => s.fdPut d

/-- The empty table; the numbers of its slots are values of an `int`. -/
structure FdTable.Initial (s : FdTable) : Prop where
  bound : s.dfsFdMax + 3 < 2 ^ 31
  fds : s.fds = []
  entry : ∀ d, s.entry d = none
  held : ∀ d, s.held d = 0

def fdMachine : Machine FdTable FdOp where
  init := FdTable.Initial
  exec := FdTable.exec

namespace FdTable

def Open (s : FdTable) (fd : Int) (d : Nat) : Prop := s.number d = some fd ∧ 0 < s.held d

def Provided (s : FdTable) : FdOp → Prop
  | .new _ calloc => ∀ d ∈ calloc, s.entry d = none
  | .get _ => True
  | .put d => 0 < s.held d

/-- No lookup goes to an empty slot, nor to an entry whose count is at the end of `int`. -/
def SlotFilled (s : FdTable) : FdOp → Prop
  | .new _ _ => True
  | .get fd =>
    match s.slot fd with
    | none => True
    | some none => False
    | some (some d) => ∀ e ∈ s.entry d, e.refCount < Int32.maxValue
  | .put _ => True

instance (s : FdTable) (op : FdOp) : Decidable (s.Provided op) := by
  cases op <;> unfold Provided <;> infer_instance

instance (s : FdTable) (op : FdOp) : Decidable (s.SlotFilled op) := by
  cases op with
  | new realloc calloc => exact .isTrue trivial
  | get fd =>
    unfold SlotFilled
    dsimp only
    split <;> infer_instance
  | put d => exact .isTrue trivial

structure Others (s s' : FdTable) (d : Nat) : Prop where
  entry : ∀ other, other ≠ d → s'.entry other = s.entry other
  held : ∀ other, other ≠ d → s'.held other = s.held other
  number : ∀ other, other ≠ d → s'.number other = s.number other

def Exhausted (s : FdTable) (realloc : Bool) (calloc : Option Nat) : Prop :=
  calloc = none ∨
    (∀ i < s.fds.length, ∃ d, s.Open (i + 3) d) ∧ (s.dfsFdMax ≤ s.fds.length ∨ realloc = false)

inductive Meets (s : FdTable) : FdOp → Prop
  | failed {realloc calloc s'} (hexec : s.exec (.new realloc calloc) = some s')
      (hexhausted : s.Exhausted realloc calloc) (hresult : s'.result = -1)
      (hgrown : ∃ k, s'.fds = s.fds ++ List.replicate k none)
      (hentry : s'.entry = s.entry) (hheld : s'.held = s.held) (hnumber : s'.number = s.number) :
      Meets s (.new realloc calloc)
  | opened {realloc calloc s' d} (hexec : s.exec (.new realloc calloc) = some s')
      (hprovided : ¬ s.Exhausted realloc calloc) (hresult : s'.result ≠ -1)
      (hfresh : ∀ other, ¬ s.Open s'.result other) (hopen : s'.Open s'.result d)
      (hfree : s.held d = 0) (hone : s'.entry d = some ⟨dfsFdMagic, 1⟩)
      (hkept : ∀ (i other : Nat), s.fds[i]? = some (some other) → s'.fds[i]? = some (some other))
      (hothers : s.Others s' d) : Meets s (.new realloc calloc)
  | found {fd d e e' s'} (hopen : s.Open fd.toInt d) (hexec : s.exec (.get fd) = some s')
      (hgot : s'.got = some d) (hold : s.entry d = some e) (hnew : s'.entry d = some e')
      (hmagic : e'.magic = e.magic) (hcount : e'.refCount.toInt = e.refCount.toInt + 1)
      (hfds : s'.fds = s.fds) (hothers : s.Others s' d) : Meets s (.get fd)
  | missing {fd} (hclosed : ∀ d, ¬ s.Open fd.toInt d)
      (hexec : s.exec (.get fd) = some { s with got := none }) : Meets s (.get fd)
  | put {d s'} (hexec : s.exec (.put d) = some s')
      (hreleased : s'.entry d = none ↔ s.held d = 1) (hothers : s.Others s' d) : Meets s (.put d)

/-- What every state keeps: slots and entries belong together, and an entry counts its
references. -/
structure Inv (s : FdTable) : Prop where
  bound : s.dfsFdMax + 3 < 2 ^ 31
  length : s.fds.length ≤ s.dfsFdMax
  slot : ∀ (i d : Nat), s.fds[i]? = some (some d) →
    s.number d = some ((i : Int) + 3) ∧ s.entry d ≠ none
  placed : ∀ d, s.entry d ≠ none → ∃ i : Nat, s.fds[i]? = some (some d)
  count : ∀ d e, s.entry d = some e →
    e.magic = dfsFdMagic ∧ e.refCount.toInt = s.held d ∧ 0 < s.held d
  released : ∀ d, s.entry d = none → s.held d = 0

variable {s s' : FdTable} {realloc : Bool} {calloc : Option Nat} {fd : Int32} {d i : Nat}

section Search

variable {entry : Nat → Option DfsFd} {fds : List (Option Nat)}

theorem findFd_eq (hlive : ∀ d, some d ∈ fds → ∃ e, entry d = some e ∧ e.refCount ≠ 0) :
    findFd entry fds = some (fds.findIdx (·.isNone)) := by
  induction fds with
  | nil => rfl
  | cons slot fds ih =>
    cases slot with
    | none => rfl
    | some d =>
      obtain ⟨e, he, hcount⟩ := hlive d List.mem_cons_self
      have hrest := ih fun d hd => hlive d (List.mem_cons_of_mem _ hd)
      simp [findFd, he, hcount, hrest, List.findIdx_cons]

end Search

theorem Inv.live (hinv : s.Inv) (hslot : s.fds[i]? = some (some d)) :
    ∃ e, s.entry d = some e ∧ e.magic = dfsFdMagic ∧ e.refCount.toInt = s.held d ∧
      0 < s.held d := by
  obtain ⟨e, he⟩ := Option.ne_none_iff_exists'.mp (hinv.slot i d hslot).2
  exact ⟨e, he, hinv.count d e he⟩

theorem Inv.open_iff (hinv : s.Inv) {number : Int} :
    s.Open number d ↔ ∃ i : Nat, number = i + 3 ∧ s.fds[i]? = some (some d) := by
  constructor
  · intro hopen
    have hentry : s.entry d ≠ none := fun hnone =>
      (Nat.ne_of_gt hopen.2) (hinv.released d hnone)
    obtain ⟨i, hi⟩ := hinv.placed d hentry
    exact ⟨i, Option.some.inj (hopen.1.symm.trans (hinv.slot i d hi).1), hi⟩
  · rintro ⟨i, rfl, hi⟩
    obtain ⟨_, _, _, _, hheld⟩ := hinv.live hi
    exact ⟨(hinv.slot i d hi).1, hheld⟩

theorem Inv.exhausted_iff (hinv : s.Inv) :
    s.Exhausted realloc calloc ↔ calloc = none ∨
      s.fds.findIdx (·.isNone) = s.fds.length ∧
        (s.dfsFdMax ≤ s.fds.length ∨ realloc = false) := by
  have hfull : (∀ i < s.fds.length, ∃ d, s.Open (i + 3) d) ↔
      s.fds.findIdx (·.isNone) = s.fds.length := by
    rw [List.findIdx_eq_length]
    constructor
    · intro hopen slot hslot
      obtain ⟨i, hi⟩ := List.mem_iff_getElem?.mp hslot
      obtain ⟨hlt, _⟩ := List.getElem?_eq_some_iff.mp hi
      obtain ⟨d, hd⟩ := hopen i hlt
      obtain ⟨j, hij, hj⟩ := hinv.open_iff.mp hd
      obtain rfl : i = j := by omega
      obtain rfl : slot = some d := Option.some.inj (hi.symm.trans hj)
      rfl
    · intro hsome i hlt
      have hslot := hsome _ (List.getElem_mem hlt)
      obtain ⟨d, hd⟩ := Option.isSome_iff_exists.mp (by simpa using hslot)
      exact ⟨d, hinv.open_iff.mpr ⟨i, rfl, List.getElem?_eq_some_iff.mpr ⟨hlt, hd⟩⟩⟩
  unfold Exhausted
  rw [hfull]

theorem fdAlloc_cases (hinv : s.Inv) (realloc : Bool) (calloc : Option Nat) :
    ∃ k, s.fds.length + k ≤ s.dfsFdMax ∧
      let fds := s.fds ++ List.replicate k none
      (s.Exhausted realloc calloc ∧
        s.fdAlloc 0 realloc calloc = some ({ s with fds := fds }, fds.length)) ∨
      ¬ s.Exhausted realloc calloc ∧ ∃ (idx d : Nat), calloc = some d ∧
        fds[idx]? = some none ∧
        s.fdAlloc 0 realloc calloc =
          some ({ s.setEntry d (some ⟨0, 0⟩) with fds := fds.set idx (some d) }, idx) := by
  have hfind : findFd s.entry (s.fds.drop 0) = some (s.fds.findIdx (·.isNone)) := by
    rw [List.drop_zero]
    refine findFd_eq fun d hd => ?_
    obtain ⟨i, hi⟩ := List.mem_iff_getElem?.mp hd
    obtain ⟨e, he, _, hcount, hheld⟩ := hinv.live hi
    refine ⟨e, he, fun hzero => ?_⟩
    rw [hzero] at hcount
    have : (0 : Int) = s.held d := hcount
    omega
  have hle : s.fds.findIdx (·.isNone) ≤ s.fds.length := List.findIdx_le_length
  have hempty : ∀ hlt : s.fds.findIdx (·.isNone) < s.fds.length,
      s.fds[s.fds.findIdx (·.isNone)]? = some none := by
    intro hlt
    have hnone := List.findIdx_getElem (w := hlt)
    rw [List.getElem?_eq_getElem hlt, Option.isNone_iff_eq_none.mp hnone]
  have hexhausted := @Inv.exhausted_iff s realloc calloc hinv
  have hlength := hinv.length
  simp only [fdAlloc, hfind, Option.map_some, Nat.zero_add]
  generalize s.fds.findIdx (·.isNone) = idx at hle hempty hexhausted
  rcases Nat.lt_or_ge idx s.fds.length with hlt | hge
  · -- there is an empty slot
    refine ⟨0, hlength, ?_⟩
    have hfull : ¬ (idx = s.fds.length ∧ s.fds.length < s.dfsFdMax) := by omega
    have hne : idx ≠ s.fds.length := by omega
    have hslot := hempty hlt
    cases calloc with
    | none => exact .inl ⟨hexhausted.mpr (.inl rfl), by simp [hfull, hslot]⟩
    | some d =>
      refine .inr ⟨fun h => ?_, idx, d, rfl, by simpa using hslot, by simp [hfull, hslot]⟩
      simp [hne] at hexhausted
      exact hexhausted h
  · obtain rfl : idx = s.fds.length := by omega
    rcases Nat.lt_or_ge s.fds.length s.dfsFdMax with hroom | hmax
    · cases realloc with
      | false =>
        refine ⟨0, hlength, .inl ⟨hexhausted.mpr (.inr ⟨rfl, .inr rfl⟩), ?_⟩⟩
        simp [hroom]
      | true =>
        -- the container grows
        refine ⟨min (s.fds.length + 4) s.dfsFdMax - s.fds.length, by omega, ?_⟩
        have hslot : (s.fds ++ List.replicate
            (min (s.fds.length + 4) s.dfsFdMax - s.fds.length) none)[s.fds.length]? =
            some none := by
          rw [List.getElem?_append_right (Nat.le_refl _), List.getElem?_replicate]
          simp only [Nat.sub_self, ite_eq_left_iff, reduceCtorEq, imp_false, not_not]
          omega
        cases calloc with
        | none =>
          refine .inl ⟨hexhausted.mpr (.inl rfl), ?_⟩
          simp only [hroom, and_self, Bool.true_eq_false, and_false, ↓reduceIte, grow, hslot,
            List.length_append, List.length_replicate]
        | some d =>
          refine .inr ⟨fun h => ?_, _, d, rfl, hslot, ?_⟩
          · simp [Nat.not_le.mpr hroom] at hexhausted
            exact hexhausted h
          · simp only [hroom, and_self, Bool.true_eq_false, and_false, ↓reduceIte, grow, hslot,
              setEntry, Std.le_refl, List.set_append_right, Nat.sub_self]
    · refine ⟨0, hlength, .inl ⟨hexhausted.mpr (.inr ⟨rfl, .inl hmax⟩), ?_⟩⟩
      simp [Nat.not_lt.mpr hmax]

def handOut (s : FdTable) (k idx d : Nat) : FdTable :=
  { (s.setEntry d (some ⟨dfsFdMagic, 1⟩)).hold d (s.held d + 1) with
    fds := (s.fds ++ List.replicate k none).set idx (some d)
    result := (idx : Int) + 3
    number := update s.number d (some ((idx : Int) + 3)) }

theorem fdNew_cases (hinv : s.Inv) (realloc : Bool) (calloc : Option Nat) :
    ∃ k, s.fds.length + k ≤ s.dfsFdMax ∧
      let fds := s.fds ++ List.replicate k none
      (s.Exhausted realloc calloc ∧
        s.fdNew realloc calloc = some { s with fds := fds, result := -1 }) ∨
      ¬ s.Exhausted realloc calloc ∧ ∃ (idx d : Nat), calloc = some d ∧
        fds[idx]? = some none ∧
        s.fdNew realloc calloc = some (s.handOut k idx d) := by
  obtain ⟨k, hk, hcases⟩ := fdAlloc_cases hinv realloc calloc
  refine ⟨k, hk, ?_⟩
  rcases hcases with ⟨hexhausted, halloc⟩ | ⟨hprovided, idx, d, hd, hslot, halloc⟩
  · refine .inl ⟨hexhausted, ?_⟩
    simp only [fdNew, halloc, Option.bind_some, if_true]
    rfl
  · refine .inr ⟨hprovided, idx, d, hd, hslot, ?_⟩
    have hlt := (List.getElem?_eq_some_iff.mp hslot).1
    have hne : idx ≠ (s.fds ++ List.replicate k none).length := Nat.ne_of_lt hlt
    simp only [fdNew, halloc, Option.bind_some, List.length_set, hne, if_false,
      List.getElem?_set_self hlt, Option.join_some, Option.map_some, setEntry, hold,
      update_idem]
    rfl

section New

variable {k idx : Nat}

theorem grown_slot : (s.fds ++ List.replicate k none)[i]? = some (some d) ↔
    s.fds[i]? = some (some d) := by
  rcases Nat.lt_or_ge i s.fds.length with hin | hout
  · rw [List.getElem?_append_left hin]
  · rw [List.getElem?_append_right hout, List.getElem?_eq_none hout, List.getElem?_replicate]
    split <;> simp

theorem filled_slot (hslot : (s.fds ++ List.replicate k none)[idx]? = some none) {other j : Nat} :
    ((s.fds ++ List.replicate k none).set idx (some d))[j]? = some (some other) ↔
      j = idx ∧ other = d ∨ s.fds[j]? = some (some other) := by
  have hlt := (List.getElem?_eq_some_iff.mp hslot).1
  rw [List.getElem?_set]
  split
  next hsame =>
    subst hsame
    have hold := grown_slot (s := s) (k := k) (i := idx) (d := other)
    rw [hslot] at hold
    simp only [Option.some.injEq, true_and, eq_comm (a := d)]
    constructor
    · exact .inl
    · rintro (hd | hin)
      · exact hd
      · exact absurd (hold.mpr hin) (by simp)
  next hne =>
    rw [grown_slot]
    constructor
    · exact .inr
    · rintro (⟨rfl, -⟩ | hin)
      · exact absurd rfl hne
      · exact hin

theorem handOut_others : s.Others (s.handOut k idx d) d := by
  constructor <;> intro other hne <;> simp [handOut, setEntry, hold, hne]

theorem Inv.slot_ne (hinv : s.Inv) (hfree : s.entry d = none) {j other : Nat}
    (hslot : s.fds[j]? = some (some other)) : other ≠ d := by
  rintro rfl
  exact (hinv.slot j other hslot).2 hfree

theorem Inv.handOut (hinv : s.Inv) (hk : s.fds.length + k ≤ s.dfsFdMax)
    (hslot : (s.fds ++ List.replicate k none)[idx]? = some none) (hfree : s.entry d = none) :
    (s.handOut k idx d).Inv := by
  have hothers : s.Others (s.handOut k idx d) d := handOut_others
  have hnew : (s.handOut k idx d).entry d = some ⟨dfsFdMagic, 1⟩ := update_self ..
  have hheld : (s.handOut k idx d).held d = 1 := by
    simp [FdTable.handOut, hold, hinv.released d hfree]
  have hnumber : (s.handOut k idx d).number d = some ((idx : Int) + 3) := update_self ..
  have hslots : ∀ {j other : Nat}, (s.handOut k idx d).fds[j]? = some (some other) ↔
      j = idx ∧ other = d ∨ s.fds[j]? = some (some other) := filled_slot hslot
  refine ⟨hinv.bound, ?_, ?_, ?_, ?_, ?_⟩
  · simpa [FdTable.handOut, setEntry, hold] using hk
  · intro j other hj
    rcases hslots.mp hj with ⟨rfl, rfl⟩ | hold
    · exact ⟨hnumber, by simp [hnew]⟩
    · have hne := hinv.slot_ne hfree hold
      rw [hothers.number other hne, hothers.entry other hne]
      exact hinv.slot j other hold
  · intro other hentry
    rcases eq_or_ne other d with rfl | hne
    · exact ⟨idx, hslots.mpr (.inl ⟨rfl, rfl⟩)⟩
    · rw [hothers.entry other hne] at hentry
      obtain ⟨j, hj⟩ := hinv.placed other hentry
      exact ⟨j, hslots.mpr (.inr hj)⟩
  · intro other e he
    rcases eq_or_ne other d with rfl | hne
    · obtain rfl : (⟨dfsFdMagic, 1⟩ : DfsFd) = e := Option.some.inj (hnew.symm.trans he)
      rw [hheld]
      decide
    · rw [hothers.entry other hne] at he
      rw [hothers.held other hne]
      exact hinv.count other e he
  · intro other hnone
    rcases eq_or_ne other d with rfl | hne
    · rw [hnew] at hnone
      cases hnone
    · rw [hothers.entry other hne] at hnone
      rw [hothers.held other hne]
      exact hinv.released other hnone

theorem Inv.grown (hinv : s.Inv) (hk : s.fds.length + k ≤ s.dfsFdMax) {result : Int} :
    ({ s with fds := s.fds ++ List.replicate k none, result := result } : FdTable).Inv := by
  refine ⟨hinv.bound, by simpa using hk, ?_, ?_, hinv.count, hinv.released⟩
  · intro j other hj
    exact hinv.slot j other (grown_slot.mp hj)
  · intro other hentry
    obtain ⟨j, hj⟩ := hinv.placed other hentry
    exact ⟨j, grown_slot.mpr hj⟩

theorem Inv.new (hinv : s.Inv) (hprovided : s.Provided (.new realloc calloc)) :
    s.Meets (.new realloc calloc) ∧ ∀ s', s.exec (.new realloc calloc) = some s' → s'.Inv := by
  obtain ⟨k, hk, hcases⟩ := fdNew_cases hinv realloc calloc
  rcases hcases with ⟨hexhausted, hnew⟩ | ⟨hsome, idx, d, hd, hslot, hnew⟩
  · refine ⟨.failed hnew hexhausted rfl ⟨k, rfl⟩ rfl rfl rfl, fun s' hexec => ?_⟩
    obtain rfl := Option.some.inj (hnew.symm.trans hexec)
    exact hinv.grown hk
  · have hfree : s.entry d = none := hprovided d hd
    have hslots := @filled_slot s d k idx hslot
    refine ⟨.opened (d := d) hnew hsome ?_ ?_ ?_ (hinv.released d hfree) ?_ ?_ handOut_others,
      fun s' hexec => ?_⟩
    · simp only [FdTable.handOut]
      omega
    · intro other hopen
      obtain ⟨i, hi, hin⟩ := hinv.open_iff.mp hopen
      simp only [FdTable.handOut] at hi
      obtain rfl : idx = i := by omega
      rw [List.getElem?_append_left (List.getElem?_eq_some_iff.mp hin).1, hin] at hslot
      cases hslot
    · exact ⟨update_self .., by simp [FdTable.handOut, hold]⟩
    · exact update_self ..
    · exact fun i other hi => hslots.mpr (.inr hi)
    · obtain rfl := Option.some.inj (hnew.symm.trans hexec)
      exact hinv.handOut hk hslot hfree

end New

section Get

theorem Inv.slot_eq (hinv : s.Inv) {slot : Option Nat} :
    s.slot fd = some slot ↔ ∃ i : Nat, fd.toInt = i + 3 ∧ s.fds[i]? = some slot := by
  have hbound := hinv.bound
  have hlength := hinv.length
  have hlow := fd.le_toInt
  have hhigh := fd.toInt_lt
  have hsub : (fd - dfsFdOffset).toInt = (fd.toInt - 3).bmod (2 ^ 32) := Int32.toInt_sub ..
  have hneg : fd - dfsFdOffset < 0 ↔ (fd - dfsFdOffset).toInt < 0 := Int32.lt_iff_toInt_lt
  unfold FdTable.slot
  simp only [hneg, hsub]
  rcases Int.lt_or_le fd.toInt (-2 ^ 31 + 3) with hwraps | hstays
  · have hvalue : (fd.toInt - 3).bmod (2 ^ 32) = fd.toInt - 3 + 2 ^ 32 := by
      rw [Int.bmod_def]
      omega
    have hout : s.fds.length ≤ (fd.toInt - 3 + 2 ^ 32).toNat := by omega
    rw [hvalue, if_neg (by omega), List.getElem?_eq_none hout]
    constructor
    · intro hnone
      cases hnone
    · rintro ⟨i, hi, -⟩
      omega
  · have hvalue : (fd.toInt - 3).bmod (2 ^ 32) = fd.toInt - 3 := by
      rw [Int.bmod_def]
      omega
    rw [hvalue]
    split
    next hlow =>
      constructor
      · intro hnone
        cases hnone
      · rintro ⟨i, hi, -⟩
        omega
    next hin =>
      constructor
      · intro hslot
        exact ⟨_, by omega, hslot⟩
      · rintro ⟨i, hi, hslot⟩
        rw [hi, Int.add_sub_cancel, Int.toNat_natCast]
        exact hslot

def handBack (s : FdTable) (d : Nat) (e : DfsFd) : FdTable :=
  { (s.setEntry d (some { e with refCount := e.refCount + 1 })).hold d (s.held d + 1) with
    got := some d }

theorem handBack_others {e : DfsFd} : s.Others (s.handBack d e) d := by
  constructor <;> intro other hne <;> simp [handBack, setEntry, hold, hne]

theorem fdGet_cases (hinv : s.Inv) (fd : Int32) :
    ((∀ d, ¬ s.Open fd.toInt d) ∧ s.slot fd = none ∧ s.fdGet fd = some { s with got := none }) ∨
    (s.slot fd = some none ∧ s.fdGet fd = none) ∨
    ∃ d e, s.Open fd.toInt d ∧ s.slot fd = some (some d) ∧ s.entry d = some e ∧
      s.fdGet fd = some (s.handBack d e) := by
  unfold fdGet
  cases hslot : s.slot fd with
  | none =>
    refine .inl ⟨fun d hopen => ?_, rfl, rfl⟩
    rw [hinv.open_iff, ← hinv.slot_eq, hslot] at hopen
    cases hopen
  | some slot =>
    cases slot with
    | none => exact .inr (.inl ⟨rfl, rfl⟩)
    | some d =>
      obtain ⟨i, hi, hin⟩ := hinv.slot_eq.mp hslot
      obtain ⟨e, he, hmagic, _⟩ := hinv.live hin
      refine .inr (.inr ⟨d, e, hinv.open_iff.mpr ⟨i, hi, hin⟩, rfl, he, ?_⟩)
      simp only [he, Option.map_some, if_neg (not_not.mpr hmagic), handBack]

theorem toInt_succ_iff {count : Int32} :
    (count + 1).toInt = count.toInt + 1 ↔ count < Int32.maxValue := by
  have hlow := count.le_toInt
  have hhigh := count.toInt_lt
  have hadd : (count + 1).toInt = (count.toInt + 1).bmod (2 ^ 32) := Int32.toInt_add ..
  have hmax : Int32.maxValue.toInt = 2 ^ 31 - 1 := by decide
  rw [hadd, Int32.lt_iff_toInt_lt, hmax, Int.bmod_def]
  constructor <;> intro <;> omega

/-- Only the count of an entry changes. -/
theorem Inv.counted {s' : FdTable} {e e' : DfsFd} (hinv : s.Inv) (hothers : s.Others s' d)
    (hfds : s'.fds = s.fds) (hmax : s'.dfsFdMax = s.dfsFdMax) (hnumber : s'.number = s.number)
    (he : s.entry d = some e) (hnew : s'.entry d = some e')
    (hcount : e'.magic = dfsFdMagic ∧ e'.refCount.toInt = s'.held d ∧ 0 < s'.held d) :
    s'.Inv := by
  refine ⟨hmax ▸ hinv.bound, by rw [hfds, hmax]; exact hinv.length, ?_, ?_, ?_, ?_⟩
  · intro i other hi
    rw [hfds] at hi
    obtain ⟨hslot, hentry⟩ := hinv.slot i other hi
    refine ⟨hnumber ▸ hslot, ?_⟩
    rcases eq_or_ne other d with rfl | hne
    · simp [hnew]
    · rw [hothers.entry other hne]
      exact hentry
  · intro other hentry
    rw [hfds]
    rcases eq_or_ne other d with rfl | hne
    · exact hinv.placed other (by simp [he])
    · rw [hothers.entry other hne] at hentry
      exact hinv.placed other hentry
  · intro other found hfound
    rcases eq_or_ne other d with rfl | hne
    · obtain rfl := Option.some.inj (hnew.symm.trans hfound)
      exact hcount
    · rw [hothers.entry other hne] at hfound
      rw [hothers.held other hne]
      exact hinv.count other found hfound
  · intro other hnone
    rcases eq_or_ne other d with rfl | hne
    · rw [hnew] at hnone
      cases hnone
    · rw [hothers.entry other hne] at hnone
      rw [hothers.held other hne]
      exact hinv.released other hnone

theorem Inv.handBack {e : DfsFd} (hinv : s.Inv) (he : s.entry d = some e)
    (hcount : e.refCount < Int32.maxValue) : (s.handBack d e).Inv := by
  have hheld : (s.handBack d e).held d = s.held d + 1 := update_self ..
  obtain ⟨hmagic, hrefs, hpos⟩ := hinv.count d e he
  refine hinv.counted handBack_others rfl rfl rfl he (update_self ..) ⟨hmagic, ?_, by omega⟩
  rw [toInt_succ_iff.mpr hcount, hheld, hrefs]
  rfl

theorem Inv.get (hinv : s.Inv) (hfilled : s.SlotFilled (.get fd)) :
    s.Meets (.get fd) ∧ ∀ s', s.exec (.get fd) = some s' → s'.Inv := by
  rcases fdGet_cases hinv fd with ⟨hclosed, _, hget⟩ | ⟨hslot, _⟩ | ⟨d, e, hopen, hslot, he, hget⟩
  · refine ⟨.missing hclosed hget, fun s' hexec => ?_⟩
    obtain rfl := Option.some.inj (hget.symm.trans hexec)
    exact ⟨hinv.bound, hinv.length, hinv.slot, hinv.placed, hinv.count, hinv.released⟩
  · simp only [SlotFilled, hslot] at hfilled
  · simp only [SlotFilled, hslot] at hfilled
    have hcount := hfilled e he
    have hnew : (s.handBack d e).entry d = some { e with refCount := e.refCount + 1 } :=
      update_self ..
    refine ⟨.found hopen hget rfl he hnew rfl (toInt_succ_iff.mpr hcount) rfl handBack_others,
      fun s' hexec => ?_⟩
    obtain rfl := Option.some.inj (hget.symm.trans hexec)
    exact hinv.handBack he hcount

theorem Inv.filled_of_meets (hinv : s.Inv) (hmeets : s.Meets (.get fd)) :
    s.SlotFilled (.get fd) := by
  rcases fdGet_cases hinv fd with ⟨_, hslot, _⟩ | ⟨_, hget⟩ | ⟨d, e, hopen, hslot, he, hget⟩
  · simp only [SlotFilled, hslot]
  · cases hmeets with
    | found _ hexec => cases hget.symm.trans hexec
    | missing _ hexec => cases hget.symm.trans hexec
  · simp only [SlotFilled, hslot]
    intro e' he'
    obtain rfl := Option.some.inj (he.symm.trans he')
    cases hmeets with
    | missing hclosed => exact absurd hopen (hclosed d)
    | found _ hexec hgot hold hnew _ hcount =>
      obtain rfl := Option.some.inj (hget.symm.trans hexec)
      obtain rfl := Option.some.inj hgot
      obtain rfl := Option.some.inj (he.symm.trans hold)
      have hback : (s.handBack d e).entry d = some { e with refCount := e.refCount + 1 } :=
        update_self ..
      obtain rfl := Option.some.inj (hback.symm.trans hnew)
      exact toInt_succ_iff.mp hcount

end Get

def takeBack (s : FdTable) (d : Nat) (e : DfsFd) : FdTable :=
  (s.setEntry d (some { e with refCount := e.refCount - 1 })).hold d (s.held d - 1)

def release (s : FdTable) (d i : Nat) : FdTable :=
  { (s.setEntry d none).hold d (s.held d - 1) with fds := s.fds.set i none }

theorem takeBack_others {e : DfsFd} : s.Others (s.takeBack d e) d := by
  constructor <;> intro other hne <;> simp [takeBack, setEntry, hold, hne]

theorem release_others : s.Others (s.release d i) d := by
  constructor <;> intro other hne <;> simp [release, setEntry, hold, hne]

theorem toInt_pred {count : Int32} {held : Nat} (hcount : count.toInt = held) (hheld : 0 < held) :
    (count - 1).toInt = (held - 1 : Nat) := by
  have hhigh := count.toInt_lt
  have hsub : (count - 1).toInt = (count.toInt - 1).bmod (2 ^ 32) := Int32.toInt_sub ..
  rw [hsub, Int.bmod_def]
  omega

theorem fdPut_cases (hinv : s.Inv) (hheld : 0 < s.held d) :
    ∃ e, s.entry d = some e ∧ e.magic = dfsFdMagic ∧ e.refCount.toInt = s.held d ∧
      (1 < s.held d ∧ s.fdPut d = some (s.takeBack d e) ∨
        s.held d = 1 ∧ ∃ i : Nat, s.fds[i]? = some (some d) ∧
          s.fdPut d = some (s.release d i)) := by
  have hentry : s.entry d ≠ none := fun hnone => (Nat.ne_of_gt hheld) (hinv.released d hnone)
  obtain ⟨e, he⟩ := Option.ne_none_iff_exists'.mp hentry
  obtain ⟨hmagic, hcount, _⟩ := hinv.count d e he
  refine ⟨e, he, hmagic, hcount, ?_⟩
  have hzero : e.refCount - 1 = 0 ↔ s.held d = 1 := by
    rw [← Int32.toInt_inj, toInt_pred hcount hheld]
    change ((s.held d - 1 : Nat) : Int) = 0 ↔ _
    omega
  simp only [fdPut, he, Option.map_some, hzero]
  split
  next hlast =>
    refine .inr ⟨hlast, ?_⟩
    obtain ⟨i, hi⟩ := hinv.placed d hentry
    cases hfind : s.fds.findIdx? (· = some d) with
    | none =>
      have hnone := List.findIdx?_eq_none_iff.mp hfind _ (List.mem_of_getElem? hi)
      simp at hnone
    | some j =>
      obtain ⟨hlt, hj, _⟩ := List.findIdx?_eq_some_iff_getElem.mp hfind
      refine ⟨j, List.getElem?_eq_some_iff.mpr ⟨hlt, by simpa using hj⟩, ?_⟩
      simp [setEntry, hold, release, hfind]
  next hmore => exact .inl ⟨by omega, rfl⟩

theorem Inv.takeBack {e : DfsFd} (hinv : s.Inv) (he : s.entry d = some e)
    (hmore : 1 < s.held d) : (s.takeBack d e).Inv := by
  have hheld : (s.takeBack d e).held d = s.held d - 1 := update_self ..
  obtain ⟨hmagic, hrefs, hpos⟩ := hinv.count d e he
  refine hinv.counted takeBack_others rfl rfl rfl he (update_self ..) ⟨hmagic, ?_, by omega⟩
  rw [hheld]
  exact toInt_pred hrefs hpos

theorem Inv.release (hinv : s.Inv) (hslot : s.fds[i]? = some (some d)) (hlast : s.held d = 1) :
    (s.release d i).Inv := by
  have hothers := release_others (s := s) (d := d) (i := i)
  have hnew : (s.release d i).entry d = none := update_self ..
  have hheld : (s.release d i).held d = s.held d - 1 := update_self ..
  have hslots : ∀ {j other : Nat}, (s.release d i).fds[j]? = some (some other) ↔
      j ≠ i ∧ s.fds[j]? = some (some other) := by
    intro j other
    simp only [FdTable.release, List.getElem?_set]
    split
    next hsame =>
      subst hsame
      simp
    next hne => simp [Ne.symm hne]
  -- an entry is in one slot only
  have hone : ∀ {j : Nat}, s.fds[j]? = some (some d) → j = i := by
    intro j hj
    have hnumber := (hinv.slot j d hj).1.symm.trans (hinv.slot i d hslot).1
    simp only [Option.some.injEq] at hnumber
    omega
  refine ⟨hinv.bound, ?_, ?_, ?_, ?_, ?_⟩
  · simpa [FdTable.release, setEntry, hold] using hinv.length
  · intro j other hj
    obtain ⟨hne, hold⟩ := hslots.mp hj
    have hother : other ≠ d := by
      rintro rfl
      exact hne (hone hold)
    rw [hothers.number other hother, hothers.entry other hother]
    exact hinv.slot j other hold
  · intro other hentry
    have hother : other ≠ d := by
      rintro rfl
      exact hentry hnew
    rw [hothers.entry other hother] at hentry
    obtain ⟨j, hj⟩ := hinv.placed other hentry
    refine ⟨j, hslots.mpr ⟨?_, hj⟩⟩
    rintro rfl
    exact hother (Option.some.inj (Option.some.inj (hj.symm.trans hslot)))
  · intro other e he
    have hother : other ≠ d := by
      rintro rfl
      cases hnew.symm.trans he
    rw [hothers.entry other hother] at he
    rw [hothers.held other hother]
    exact hinv.count other e he
  · intro other hnone
    rcases eq_or_ne other d with rfl | hne
    · rw [hheld, hlast]
    · rw [hothers.entry other hne] at hnone
      rw [hothers.held other hne]
      exact hinv.released other hnone

theorem Inv.put (hinv : s.Inv) (hprovided : s.Provided (.put d)) :
    s.Meets (.put d) ∧ ∀ s', s.exec (.put d) = some s' → s'.Inv := by
  obtain ⟨e, he, _, _, ⟨hmore, hput⟩ | ⟨hlast, i, hslot, hput⟩⟩ := fdPut_cases hinv hprovided
  · have hnew : (s.takeBack d e).entry d = some { e with refCount := e.refCount - 1 } :=
      update_self ..
    refine ⟨.put hput ?_ takeBack_others, fun s' hexec => ?_⟩
    · rw [hnew]
      constructor
      · intro hnone
        cases hnone
      · omega
    · obtain rfl := Option.some.inj (hput.symm.trans hexec)
      exact hinv.takeBack he hmore
  · have hnew : (s.release d i).entry d = none := update_self ..
    refine ⟨.put hput (iff_of_true hnew hlast) release_others, fun s' hexec => ?_⟩
    obtain rfl := Option.some.inj (hput.symm.trans hexec)
    exact hinv.release hslot hlast

section Run

variable {op : FdOp}

theorem Inv.step (hinv : s.Inv) (hprovided : s.Provided op) (hfilled : s.SlotFilled op) :
    s.Meets op ∧ ∀ s', s.exec op = some s' → s'.Inv := by
  cases op with
  | new realloc calloc => exact hinv.new hprovided
  | get fd => exact hinv.get hfilled
  | put d => exact hinv.put hprovided

theorem Initial.inv (hinit : s.Initial) : s.Inv := by
  have hentry := hinit.entry
  refine ⟨hinit.bound, by simp [hinit.fds], ?_, ?_, ?_, fun d _ => hinit.held d⟩
  · simp [hinit.fds]
  · intro d hsome
    exact absurd (hentry d) hsome
  · intro d e he
    cases (hentry d).symm.trans he

/-- As long as lookups go to filled slots, a call does what it is for exactly if it is not a
lookup that goes to an empty one. -/
theorem reachable_meets_iff
    (hreach : fdMachine.Reachable (fun s op => s.Provided op ∧ s.SlotFilled op) s)
    (hprovided : s.Provided op) : s.Meets op ↔ s.SlotFilled op := by
  have hinv : s.Inv := hreach.invariant Inv (fun _ => Initial.inv)
    fun _ _ _ hinv hallowed hexec => (hinv.step hallowed.1 hallowed.2).2 _ hexec
  constructor
  · intro hmeets
    cases op with
    | new realloc calloc => trivial
    | get fd => exact hinv.filled_of_meets hmeets
    | put d => trivial
  · exact fun hfilled => (hinv.step hprovided hfilled).1

end Run

def fdStart : FdTable where
  dfsFdMax := 16
  fds := []
  entry := fun _ => none
  result := 0
  got := none
  number := fun _ => none
  held := fun _ => 0

theorem fdStart_initial : fdStart.Initial := by
  constructor <;> simp [fdStart]

def fdRun : List FdOp :=
  [.new true (some 100), .get 3, .new true (some 104), .put 100, .put 100]

theorem reachable_meets_iff_fdRun :
    ∃ s, fdMachine.Reachable (fun s op => s.Provided op ∧ s.SlotFilled op) s ∧
      s.fds = [none, some 104, none, none] ∧ s.Meets (.get 4) ∧ s.Meets (.get 20) ∧
      ¬ s.Meets (.get 5) := by
  have hrun : (fdMachine.run (fun s op => s.Provided op ∧ s.SlotFilled op) fdStart fdRun).map
      (fun s => (s.fds, decide (s.SlotFilled (.get 4) ∧ s.SlotFilled (.get 20) ∧
        ¬ s.SlotFilled (.get 5)))) = some ([none, some 104, none, none], true) := by
    decide +kernel
  obtain ⟨s, hreach, hend⟩ := Machine.exists_reachable_of_run fdStart_initial hrun
  simp only [Prod.mk.injEq, decide_eq_true_eq] at hend
  obtain ⟨hfds, hfour, htwenty, hfive⟩ := hend
  have hget : ∀ fd, s.Meets (.get fd) ↔ s.SlotFilled (.get fd) := fun fd =>
    reachable_meets_iff hreach (show s.Provided (.get fd) from trivial)
  exact ⟨s, hreach, hfds, (hget 4).mpr hfour, (hget 20).mpr htwenty,
    fun hmeets => hfive ((hget 5).mp hmeets)⟩

/-- After its only reference has been put, a number leads to an empty slot. -/
theorem meets_fails_at_empty_slot :
    ∃ s, fdMachine.Reachable Provided s ∧ s.Provided (.get 3) ∧ ¬ s.Meets (.get 3) := by
  have hrun : (fdMachine.run Provided fdStart [.new true (some 100), .put 100]).map
      (fun s => (s.exec (.get 3)).isNone) = some true := by
    decide +kernel
  obtain ⟨s, hreach, hnone⟩ := Machine.exists_reachable_of_run fdStart_initial hrun
  rw [Option.isNone_iff_eq_none] at hnone
  refine ⟨s, hreach, trivial, fun hmeets => ?_⟩
  cases hmeets with
  | found _ hexec => cases hnone.symm.trans hexec
  | missing _ hexec => cases hnone.symm.trans hexec

end FdTable

end RtThread.Dfs
