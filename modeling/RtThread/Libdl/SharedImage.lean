import RtThread.Libdl.LoadShared

namespace RtThread.Libdl

open RtThread.Lib

def Phdr.vend (phdr : Phdr) : Nat := phdr.pVaddr + phdr.pMemsz

/-- No segment has more bytes in the file than in memory or wraps around, and each of them begins
behind those before it. -/
structure InOrder (loads : List Phdr) : Prop where
  sized : ∀ phdr ∈ loads, phdr.pFilesz ≤ phdr.pMemsz
  bounded : ∀ phdr ∈ loads, phdr.vend < 2 ^ 32
  sorted : loads.Pairwise fun first second => first.vend ≤ second.pVaddr

def Valid (loads : List Phdr) : Prop := loads ≠ [] ∧ InOrder loads

def Covers (vstart : Nat) (phdr : Phdr) (i : Nat) : Prop :=
  phdr.pVaddr - vstart ≤ i ∧ i < phdr.pVaddr - vstart + phdr.pFilesz

structure Placed (file : ElfFile) (module : DlModule) : Prop where
  bounds : ∃ first last, file.loads.head? = some first ∧ file.loads.getLast? = some last ∧
    module.vstartAddr = first.pVaddr ∧ module.memSize = last.vend - first.pVaddr
  bytes : ∀ phdr ∈ file.loads, ∀ j < phdr.pFilesz,
    module.memory (phdr.pVaddr - module.vstartAddr + j) = file.byte (phdr.pOffset + j)
  zeros : ∀ i < module.memSize,
    (∀ phdr ∈ file.loads, ¬ Covers module.vstartAddr phdr i) → module.memory i = 0

/-- Only valid images are loaded, for others there is an error, and nothing is left of them. -/
structure AcceptsOnlyValid (arch : Arch) (syms : Symbols) (file : ElfFile) : Prop where
  accepted : ∀ module grants s module' s',
    dlmoduleLoadSharedObject arch syms file module grants s = some (rtEok, module', s') →
      Valid file.loads ∧ ∃ before s₀, loadSpace file module (grants 0) s =
        some (.space before, s₀) ∧ Placed file before ∧ module'.memSize = before.memSize
  rejected : ¬ Valid file.loads → ∀ module grants s, ∃ ret module' s',
    dlmoduleLoadSharedObject arch syms file module grants s = some (ret, module', s') ∧
      ret ≠ rtEok
  refused : ¬ Valid file.loads → file.eType ≠ etRel → ∀ loadRelocated grants s, ∃ s',
    dlmoduleLoad arch syms file loadRelocated grants s = some (none, s')
  released : file.eType ≠ etRel → ∀ loadRelocated grants s s',
    dlmoduleLoad arch syms file loadRelocated grants s = some (none, s') → s'.live.Perm s.live

section Scan

variable {file : ElfFile} {phdr : Phdr} {loads : List Phdr} {vstart vend size : Nat}
  {bounds : Bounds}

def Phdr.Words (phdr : Phdr) : Prop := phdr.pVaddr < 2 ^ 32 ∧ phdr.pMemsz < 2 ^ 32

theorem ElfFile.loads_words (hmem : phdr ∈ file.loads) : phdr.Words := by
  obtain ⟨hmem, -⟩ := List.mem_filter.mp hmem
  obtain ⟨index, -, rfl⟩ := List.mem_map.mp hmem
  exact ⟨ByteMemory.readWord_lt, ByteMemory.readWord_lt⟩

theorem addAddr_lt_iff (hwords : phdr.Words) :
    ¬ addAddr phdr.pVaddr phdr.pMemsz < phdr.pVaddr ↔ phdr.vend < 2 ^ 32 := by
  obtain ⟨hvaddr, hmemsz⟩ := hwords
  unfold addAddr Phdr.vend
  omega

theorem addAddr_eq (hbounded : phdr.vend < 2 ^ 32) :
    addAddr phdr.pVaddr phdr.pMemsz = phdr.vend := Nat.mod_eq_of_lt hbounded

theorem inOrder_nil : InOrder [] := ⟨by simp, by simp, .nil⟩

theorem inOrder_cons : InOrder (phdr :: loads) ↔
    (phdr.pFilesz ≤ phdr.pMemsz ∧ phdr.vend < 2 ^ 32) ∧ InOrder loads ∧
      ∀ other ∈ loads, phdr.vend ≤ other.pVaddr := by
  constructor
  · rintro ⟨hsized, hbounded, hsorted⟩
    rw [List.pairwise_cons] at hsorted
    rw [List.forall_mem_cons] at hsized hbounded
    exact ⟨⟨hsized.1, hbounded.1⟩, ⟨hsized.2, hbounded.2, hsorted.2⟩, hsorted.1⟩
  · rintro ⟨⟨hsized, hbounded⟩, hrest, hfirst⟩
    exact ⟨List.forall_mem_cons.mpr ⟨hsized, hrest.sized⟩,
      List.forall_mem_cons.mpr ⟨hbounded, hrest.bounded⟩, List.pairwise_cons.mpr ⟨hfirst, hrest.sorted⟩⟩

theorem scanSegment_some_iff (hwords : phdr.Words) :
    scanSegment (some (vstart, vend)) phdr = some bounds ↔
      (phdr.pFilesz ≤ phdr.pMemsz ∧ phdr.vend < 2 ^ 32) ∧ vend ≤ phdr.pVaddr ∧
        bounds = some (vstart, phdr.vend) := by
  unfold scanSegment
  by_cases hsized : phdr.pMemsz < phdr.pFilesz
  · rw [if_pos hsized]
    exact ⟨nofun, fun h => absurd h.1.1 (not_le.mpr hsized)⟩
  · rw [if_neg hsized]
    dsimp only
    by_cases hbehind : phdr.pVaddr < vend
    · rw [if_pos hbehind]
      exact ⟨nofun, fun h => absurd h.2.1 (not_le.mpr hbehind)⟩
    · rw [if_neg hbehind]
      by_cases hbounded : phdr.vend < 2 ^ 32
      · rw [if_neg ((addAddr_lt_iff hwords).mpr hbounded), addAddr_eq hbounded,
          Option.some.injEq, eq_comm]
        exact ⟨fun h => ⟨⟨not_lt.mp hsized, hbounded⟩, not_lt.mp hbehind, h⟩, fun h => h.2.2⟩
      · rw [if_pos (not_not.mp (mt (addAddr_lt_iff hwords).mp hbounded))]
        exact ⟨nofun, fun h => absurd h.1.2 hbounded⟩

theorem scanSegment_none_iff (hwords : phdr.Words) :
    scanSegment none phdr = some bounds ↔
      (phdr.pFilesz ≤ phdr.pMemsz ∧ phdr.vend < 2 ^ 32) ∧
        bounds = some (phdr.pVaddr, phdr.vend) := by
  have hsame : scanSegment none phdr = scanSegment (some (phdr.pVaddr, phdr.pVaddr)) phdr := by
    unfold scanSegment
    dsimp only
    rw [if_neg (Nat.lt_irrefl phdr.pVaddr)]
  rw [hsame, scanSegment_some_iff hwords]
  exact ⟨fun h => ⟨h.1, h.2.2⟩, fun h => ⟨h.1, Nat.le_refl _, h.2⟩⟩

theorem scan_some_iff (vend : Nat) (hwords : ∀ phdr ∈ loads, phdr.Words) :
    loads.foldlM scanSegment (some (vstart, vend)) = some bounds ↔
      InOrder loads ∧ (∀ phdr ∈ loads, vend ≤ phdr.pVaddr) ∧
        bounds = some (vstart, (loads.getLast?.map Phdr.vend).getD vend) := by
  induction loads generalizing vend with
  | nil => simp [inOrder_nil, eq_comm]
  | cons phdr loads ih =>
    have hhead := hwords phdr List.mem_cons_self
    have hrest := fun vend => ih vend fun other hother =>
      hwords other (List.mem_cons_of_mem _ hother)
    have hlast : ((phdr :: loads).getLast?.map Phdr.vend).getD vend =
        (loads.getLast?.map Phdr.vend).getD phdr.vend := by
      cases loads with
      | nil => rfl
      | cons second loads => simp [List.getLast?_cons]
    rw [List.foldlM_cons, hlast, inOrder_cons, List.forall_mem_cons]
    constructor
    · intro hscan
      obtain ⟨bounds', hfirst, hscan⟩ := Option.bind_eq_some_iff.mp hscan
      obtain ⟨hok, hbehind, rfl⟩ := (scanSegment_some_iff hhead).mp hfirst
      obtain ⟨horder, hall, hbounds⟩ := (hrest _).mp hscan
      refine ⟨⟨hok, horder, hall⟩, ⟨hbehind, fun other hother => ?_⟩, hbounds⟩
      have hle := hall other hother
      unfold Phdr.vend at hle
      omega
    · rintro ⟨⟨hok, horder, hall⟩, ⟨hbehind, -⟩, hbounds⟩
      apply Option.bind_eq_some_iff.mpr
      exact ⟨_, (scanSegment_some_iff hhead).mpr ⟨hok, hbehind, rfl⟩,
        (hrest _).mpr ⟨horder, hall, hbounds⟩⟩

def imageBounds (loads : List Phdr) : Bounds :=
  loads.head?.bind fun first => loads.getLast?.map fun last => (first.pVaddr, last.vend)

theorem scan_eq_some_iff (hwords : ∀ phdr ∈ loads, phdr.Words) :
    loads.foldlM scanSegment none = some bounds ↔
      InOrder loads ∧ bounds = imageBounds loads := by
  cases loads with
  | nil => simp [inOrder_nil, imageBounds, eq_comm]
  | cons phdr loads =>
    have hhead := hwords phdr List.mem_cons_self
    have hrest (vend : Nat) : loads.foldlM scanSegment (some (phdr.pVaddr, vend)) = some bounds ↔ _ :=
      scan_some_iff vend fun other hother => hwords other (List.mem_cons_of_mem _ hother)
    have hbounds : imageBounds (phdr :: loads) =
        some (phdr.pVaddr, (loads.getLast?.map Phdr.vend).getD phdr.vend) := by
      cases loads with
      | nil => rfl
      | cons second loads => simp [imageBounds, List.getLast?_cons]
    rw [List.foldlM_cons, hbounds, inOrder_cons]
    constructor
    · intro hscan
      obtain ⟨bounds', hfirst, hscan⟩ := Option.bind_eq_some_iff.mp hscan
      obtain ⟨hok, rfl⟩ := (scanSegment_none_iff hhead).mp hfirst
      obtain ⟨horder, hall, hlast⟩ := (hrest _).mp hscan
      exact ⟨⟨hok, horder, hall⟩, hlast⟩
    · rintro ⟨⟨hok, horder, hall⟩, hlast⟩
      apply Option.bind_eq_some_iff.mpr
      exact ⟨_, (scanSegment_none_iff hhead).mpr ⟨hok, rfl⟩, (hrest _).mpr ⟨horder, hall, hlast⟩⟩

end Scan

section Copy

variable {phdr : Phdr} {loads : List Phdr}

theorem subAddr_eq {a b : Nat} (hle : b ≤ a) (hlt : a < 2 ^ 32) : subAddr a b = a - b := by
  unfold subAddr
  omega

theorem InOrder.within (horder : InOrder loads) {first last : Phdr}
    (hfirst : loads.head? = some first) (hlast : loads.getLast? = some last) :
    ∀ phdr ∈ loads, first.pVaddr ≤ phdr.pVaddr ∧ phdr.vend ≤ last.vend := by
  intro phdr hmem
  constructor
  · obtain ⟨rest, rfl⟩ := List.head?_eq_some_iff.mp hfirst
    rcases List.mem_cons.mp hmem with rfl | hrest
    · exact Nat.le_refl _
    · have hle := (List.pairwise_cons.mp horder.sorted).1 phdr hrest
      unfold Phdr.vend at hle
      omega
  · obtain ⟨init, rfl⟩ := List.getLast?_eq_some_iff.mp hlast
    rcases List.mem_append.mp hmem with hinit | hsame
    · have hle := (List.pairwise_append.mp horder.sorted).2.2 phdr hinit last (by simp)
      unfold Phdr.vend at hle ⊢
      omega
    · rw [List.mem_singleton.mp hsame]

theorem copySegments_spec (file : ElfFile) (vstart size : Nat) (horder : InOrder loads)
    (hwithin : ∀ phdr ∈ loads, vstart ≤ phdr.pVaddr ∧ phdr.vend ≤ vstart + size)
    (memory : ByteMemory) :
    ∃ memory', loads.foldlM (copySegment file vstart size) memory = some memory' ∧
      (∀ phdr ∈ loads, ∀ j < phdr.pFilesz,
        memory' (phdr.pVaddr - vstart + j) = file.byte (phdr.pOffset + j)) ∧
      ∀ i, (∀ phdr ∈ loads, ¬ Covers vstart phdr i) → memory' i = memory i := by
  induction loads generalizing memory with
  | nil => exact ⟨memory, rfl, by simp, fun _ _ => rfl⟩
  | cons phdr loads ih =>
    obtain ⟨⟨hsized, hbounded⟩, hrest, hbehind⟩ := inOrder_cons.mp horder
    obtain ⟨hstart, hend⟩ := hwithin phdr List.mem_cons_self
    have hoffset : subAddr phdr.pVaddr vstart = phdr.pVaddr - vstart :=
      subAddr_eq hstart (by unfold Phdr.vend at hbounded; omega)
    obtain ⟨memory', hcopy, hbytes, hkept⟩ := ih hrest
      (fun other hother => hwithin other (List.mem_cons_of_mem _ hother))
      (memory.writeBytes (phdr.pVaddr - vstart) (file.byte.readBytes phdr.pOffset phdr.pFilesz))
    have hfits : phdr.pVaddr - vstart + phdr.pFilesz ≤ size := by
      unfold Phdr.vend at hend
      omega
    refine ⟨memory', ?_, ?_, ?_⟩
    · rw [List.foldlM_cons, copySegment, hoffset, if_pos hfits]
      exact hcopy
    · intro other hother j hj
      rcases List.mem_cons.mp hother with rfl | hother
      · -- the segments behind it do not reach back
        rw [hkept]
        · have hlength : j < (file.byte.readBytes other.pOffset other.pFilesz).length := by
            rwa [ByteMemory.length_readBytes]
          rw [ByteMemory.writeBytes_inside hlength]
          simp [ByteMemory.readBytes]
        · intro third hthird hcovers
          have hle := hbehind third hthird
          unfold Phdr.vend at hle
          unfold Covers at hcovers
          omega
      · exact hbytes other hother j hj
    · intro i hfree
      rw [hkept i fun other hother => hfree other (List.mem_cons_of_mem _ hother)]
      apply ByteMemory.writeBytes_outside
      have hnot := hfree phdr List.mem_cons_self
      rw [ByteMemory.length_readBytes]
      unfold Covers at hnot
      omega

end Copy

def imageStart (file : ElfFile) : Nat := ((imageBounds file.loads).getD (0, 0)).1

def imageSize (file : ElfFile) : Nat :=
  ((imageBounds file.loads).getD (0, 0)).2 - imageStart file

def segmentMemory (file : ElfFile) : ByteMemory :=
  (file.loads.foldlM (copySegment file (imageStart file) (imageSize file)) fun _ => 0).getD
    fun _ => 0

section Space

variable {file : ElfFile} {module : DlModule} {memSpace : Nat} {s : DlState}

inductive SpaceCases (file : ElfFile) (module : DlModule) (memSpace : Nat) (s : DlState) :
    SpaceResult × DlState → Prop
  /-- A segment is not in order, and the value that is returned is `RT_EOK`. -/
  | disorder (hnot : ¬ InOrder file.loads) : SpaceCases file module memSpace s (.returned 0 module, s)
  | empty (horder : InOrder file.loads) (hzero : imageSize file = 0) :
      SpaceCases file module memSpace s (.returned (-1) module, s)
  | noMemory (horder : InOrder file.loads) (hvalid : file.loads ≠ []) (vstart : Nat) :
      memSpace = 0 → SpaceCases file module memSpace s (.returned (-1)
        { module with vstartAddr := vstart, nref := 0, memSpace := 0 }, s)
  | space (hvalid : Valid file.loads) (hsize : imageSize file ≠ 0) (hnull : memSpace ≠ 0)
      (before : DlModule) (hplaced : Placed file before) (hmemory : before.memory = segmentMemory file)
      (hspace : before.memSpace = memSpace) (hstart : before.vstartAddr = imageStart file)
      (hend : before.memSize = imageSize file) (hsymtab : before.symtab = module.symtab)
      (hsymbols : before.symbols = module.symbols) :
      SpaceCases file module memSpace s (.space before, s.malloc memSpace)

theorem loadSpace_cases (file : ElfFile) (module : DlModule) (memSpace : Nat) (s : DlState) :
    ∃ result, loadSpace file module memSpace s = some result ∧
      SpaceCases file module memSpace s result := by
  have hwords : ∀ phdr ∈ file.loads, phdr.Words := fun _ => ElfFile.loads_words
  unfold loadSpace
  by_cases horder : InOrder file.loads
  · rw [(scan_eq_some_iff hwords).mpr ⟨horder, rfl⟩]
    dsimp only
    cases hfirst : file.loads.head? with
    | none =>
      have hbounds : imageBounds file.loads = none := by simp [imageBounds, hfirst]
      have hzero : subAddr 0 0 = 0 := rfl
      rw [hbounds, Option.getD_none, if_pos hzero]
      exact ⟨_, rfl, .empty horder (by simp [imageSize, hbounds])⟩
    | some first =>
      have hsome : file.loads ≠ [] := by
        intro hnil
        rw [hnil] at hfirst
        cases hfirst
      have hlast : file.loads.getLast? = some (file.loads.getLast hsome) :=
        List.getLast?_eq_some_getLast hsome
      generalize file.loads.getLast hsome = last at hlast
      have hwithin := horder.within hfirst hlast
      have hmem : first ∈ file.loads := List.mem_of_head? hfirst
      have hmem' : last ∈ file.loads := List.mem_of_getLast? hlast
      have hbounds : imageBounds file.loads = some (first.pVaddr, last.vend) := by
        simp [imageBounds, hfirst, hlast]
      have hstart : imageStart file = first.pVaddr := by simp [imageStart, hbounds]
      have hsize : imageSize file = last.vend - first.pVaddr := by
        simp [imageSize, imageStart, hbounds]
      have hle : first.pVaddr ≤ last.vend := by
        have hend := (hwithin first hmem).2
        unfold Phdr.vend at hend ⊢
        omega
      have hsub : subAddr last.vend first.pVaddr = imageSize file := by
        rw [hsize]
        exact subAddr_eq hle (horder.bounded last hmem')
      rw [hbounds, Option.getD_some, hsub, ← hstart]
      split
      next hzero => exact ⟨_, rfl, .empty horder hzero⟩
      next hpos =>
        split
        next hnull =>
          subst hnull
          exact ⟨_, rfl, .noMemory horder hsome (imageStart file) rfl⟩
        next hnull =>
          obtain ⟨memory, hcopy, hbytes, hzeros⟩ := copySegments_spec file (imageStart file)
            (imageSize file) horder (fun phdr hphdr => by
              have hinside := hwithin phdr hphdr
              omega) (fun _ => 0)
          have hmemory : memory = segmentMemory file := by rw [segmentMemory, hcopy]; rfl
          rw [hcopy]
          refine ⟨_, rfl, .space ⟨hsome, horder⟩ hpos hnull _ ⟨?_, hbytes, fun i _ => hzeros i⟩
            hmemory rfl rfl rfl rfl rfl⟩
          exact ⟨first, last, hfirst, hlast, hstart, hsize⟩
  · have hscan : file.loads.foldlM scanSegment none = none := by
      refine Option.eq_none_iff_forall_ne_some.mpr fun bounds hsome => horder ?_
      exact ((scan_eq_some_iff hwords).mp hsome).1
    rw [hscan]
    exact ⟨_, rfl, .disorder horder⟩

end Space

section Heap

variable {s t : DlState} {a b : Nat}

@[simp] theorem malloc_null : s.malloc 0 = s := if_pos rfl

@[simp] theorem free_null : s.free 0 = s := if_pos rfl

@[simp] theorem malloc_unsolved : (s.malloc a).unsolved = s.unsolved := by
  unfold DlState.malloc
  split <;> rfl

@[simp] theorem free_unsolved : (s.free a).unsolved = s.unsolved := by
  unfold DlState.free
  split <;> rfl

theorem malloc_live (hsome : a ≠ 0) : (s.malloc a).live = a :: s.live := by
  unfold DlState.malloc
  rw [if_neg hsome]

theorem malloc_perm (hlive : s.live.Perm t.live) : (s.malloc a).live.Perm (t.malloc a).live := by
  by_cases hnull : a = 0
  · rw [hnull]
    exact hlive
  · rw [malloc_live hnull, malloc_live hnull]
    exact hlive.cons a

theorem malloc_comm : ((s.malloc a).malloc b).live.Perm ((s.malloc b).malloc a).live := by
  by_cases hnull : a = 0
  · rw [hnull, malloc_null, malloc_null]
  · by_cases hnull' : b = 0
    · rw [hnull', malloc_null, malloc_null]
    · rw [malloc_live hnull', malloc_live hnull, malloc_live hnull, malloc_live hnull']
      exact List.Perm.swap a b s.live

theorem free_perm (hlive : s.live.Perm (t.malloc a).live) : (s.free a).live.Perm t.live := by
  by_cases hnull : a = 0
  · rw [hnull] at hlive ⊢
    exact hlive
  · rw [malloc_live hnull] at hlive
    unfold DlState.free
    rw [if_neg hnull]
    have herase := hlive.erase a
    rwa [List.erase_cons_head] at herase

theorem loadExit_perm {module : DlModule} {modulePtr : Nat} (hsymtab : module.symtab = 0)
    (hsymbols : module.symbols = [])
    (hlive : s.live = (((t.malloc modulePtr).malloc a).malloc module.memSpace).live)
    (hmodule : a = 0 → module.memSpace = 0) :
    (loadExit modulePtr a module s).2.live.Perm t.live := by
  have horder : s.live.Perm (((t.malloc a).malloc module.memSpace).malloc modulePtr).live := by
    rw [hlive]
    exact (malloc_perm malloc_comm).trans malloc_comm
  have hfirst := free_perm horder
  unfold loadExit
  split
  next hnull =>
    rwa [hmodule hnull, hnull, malloc_null, malloc_null] at hfirst
  · unfold dlmoduleDestroy
    rw [hsymtab, hsymbols, List.take_nil]
    dsimp only
    rw [List.foldl_nil, free_null]
    exact free_perm (free_perm hfirst)

end Heap

section Shared

variable {arch : Arch} {syms : Symbols} {file : ElfFile} {module module' : DlModule}
  {grants : Nat → Nat} {s s' : DlState} {ret : Int}

theorem copySymbols_unsolved {strtab : Nat} {globals : List Sym}
    {symbols : List (Nat × Nat × CString)}
    (hcopy : copySymbols file module strtab globals grants s = some (symbols, s')) :
    s'.unsolved = s.unsolved := by
  induction globals generalizing grants s symbols with
  | nil =>
    cases hcopy
    rfl
  | cons sym globals ih =>
    rw [copySymbols] at hcopy
    obtain ⟨name, -, hcopy⟩ := Option.bind_eq_some_iff.mp hcopy
    split at hcopy
    · cases hcopy
    · obtain ⟨⟨others, s''⟩, hrest, hpair⟩ := Option.map_eq_some_iff.mp hcopy
      cases hpair
      rw [ih hrest, malloc_unsolved]

theorem constructSymtab_spec (hsymtab : constructSymtab file module grants s = some (module', s')) :
    module'.memSize = module.memSize ∧ module'.memory = module.memory ∧
      module'.memSpace = module.memSpace ∧ s'.unsolved = s.unsolved := by
  obtain ⟨found, -, hrest⟩ := Option.bind_eq_some_iff.mp hsymtab
  cases found with
  | none =>
    cases hrest
    exact ⟨rfl, rfl, rfl, rfl⟩
  | some shdr =>
    dsimp only at hrest
    split at hrest
    · cases hrest
    · obtain ⟨⟨symbols, s''⟩, hcopy, hrest⟩ := Option.map_eq_some_iff.mp hrest
      cases hrest
      exact ⟨rfl, rfl, rfl, (copySymbols_unsolved hcopy).trans malloc_unsolved⟩

theorem loadShared_disorder (hnot : ¬ InOrder file.loads) :
    dlmoduleLoadSharedObject arch syms file module grants s = some (rtEok, module, s) := by
  obtain ⟨result, hspace, hcases⟩ := loadSpace_cases file module (grants 0) s
  unfold dlmoduleLoadSharedObject
  rw [hspace]
  cases hcases with
  | disorder => rfl
  | empty horder => exact absurd horder hnot
  | noMemory horder => exact absurd horder hnot
  | space hvalid => exact absurd hvalid.2 hnot

theorem loadShared_accepted (horder : InOrder file.loads)
    (hload : dlmoduleLoadSharedObject arch syms file module grants s = some (rtEok, module', s')) :
    Valid file.loads ∧ ∃ before s₀, loadSpace file module (grants 0) s =
      some (.space before, s₀) ∧ Placed file before ∧ module'.memSize = before.memSize := by
  obtain ⟨result, hspace, hcases⟩ := loadSpace_cases file module (grants 0) s
  unfold dlmoduleLoadSharedObject at hload
  rw [hspace, Option.bind_some] at hload
  cases hcases with
  | disorder hnot => exact absurd horder hnot
  | empty => cases hload
  | noMemory => cases hload
  | space hvalid hsize hnull before hplaced =>
    refine ⟨hvalid, before, _, hspace, hplaced, ?_⟩
    obtain ⟨⟨goesOn, memory, unsolved⟩, -, hrest⟩ := Option.bind_eq_some_iff.mp hload
    dsimp only at hrest
    split at hrest
    · obtain ⟨⟨built, s''⟩, hsymtab, hrest⟩ := Option.map_eq_some_iff.mp hrest
      cases hrest
      have hbuilt := constructSymtab_spec hsymtab
      exact hbuilt.1
    · cases hrest

theorem loadShared_rejected (horder : InOrder file.loads) (hnot : ¬ Valid file.loads) :
    dlmoduleLoadSharedObject arch syms file module grants s = some (-rtError, module, s) := by
  obtain ⟨result, hspace, hcases⟩ := loadSpace_cases file module (grants 0) s
  unfold dlmoduleLoadSharedObject
  rw [hspace]
  cases hcases with
  | disorder hnot => exact absurd horder hnot
  | empty => rfl
  | noMemory _ hsome => exact absurd ⟨hsome, horder⟩ hnot
  | space hvalid => exact absurd hvalid hnot

theorem loadShared_failed (hnone : module.memSpace = 0)
    (hload : dlmoduleLoadSharedObject arch syms file module grants s = some (ret, module', s'))
    (hret : ret ≠ rtEok) : module'.symtab = module.symtab ∧ module'.symbols = module.symbols ∧
      s'.live = (s.malloc module'.memSpace).live := by
  obtain ⟨result, hspace, hcases⟩ := loadSpace_cases file module (grants 0) s
  unfold dlmoduleLoadSharedObject at hload
  rw [hspace, Option.bind_some] at hload
  cases hcases with
  | disorder hnot =>
    cases hload
    exact absurd rfl hret
  | empty =>
    cases hload
    rw [hnone]
    exact ⟨rfl, rfl, rfl⟩
  | noMemory =>
    cases hload
    exact ⟨rfl, rfl, rfl⟩
  | space hvalid hsize hnull before hplaced hmemory hspace' hstart hend hsymtab hsymbols =>
    obtain ⟨⟨goesOn, memory, unsolved⟩, -, hrest⟩ := Option.bind_eq_some_iff.mp hload
    dsimp only at hrest
    split at hrest
    · obtain ⟨⟨built, s''⟩, -, hrest⟩ := Option.map_eq_some_iff.mp hrest
      cases hrest
      exact absurd rfl hret
    · cases hrest
      exact ⟨hsymtab, hsymbols, by rw [hspace']⟩

theorem dlmoduleLoad_cases (arch : Arch) (syms : Symbols) (loadRelocated : LoadRelocated)
    (grants : Nat → Nat) (s : DlState) (htype : file.eType ≠ etRel) :
    (∃ s', dlmoduleLoad arch syms file loadRelocated grants s = some (none, s') ∧
        s'.live.Perm s.live) ∨
      grants 1 ≠ 0 ∧ dlmoduleLoad arch syms file loadRelocated grants s =
        (dlmoduleLoadSharedObject arch syms file dlmoduleCreate (fun k => grants (k + 2))
          ((s.malloc (grants 0)).malloc (grants 1))).bind fun (ret, module, s) =>
            if ret ≠ rtEok then some (loadExit (grants 0) (grants 1) module s)
            else some (some ({ module with nref := module.nref + 1 }, grants 1),
              s.free (grants 0)) := by
  have hexit {modulePtr a : Nat} {t : DlState} (hlive : t.live = ((s.malloc modulePtr).malloc a).live) :
      ∃ s', some (loadExit modulePtr a dlmoduleCreate t) =
        some ((none : Option (DlModule × Nat)), s') ∧ s'.live.Perm s.live :=
    ⟨_, rfl, loadExit_perm rfl rfl (by rw [hlive]; rfl) fun _ => rfl⟩
  unfold dlmoduleLoad
  dsimp only
  split
  · exact .inl (hexit rfl)
  · split
    · exact .inl (hexit rfl)
    · split
      · exact .inl (hexit rfl)
      · split
        · exact .inl (hexit rfl)
        · split
          next hnull => exact .inl (hexit (by rw [hnull]))
          next hnull =>
            split
            · exact .inr ⟨hnull, rfl⟩
            · exact .inl (hexit rfl)

theorem dlmoduleLoad_released (htype : file.eType ≠ etRel) {loadRelocated : LoadRelocated}
    (hload : dlmoduleLoad arch syms file loadRelocated grants s = some (none, s')) :
    s'.live.Perm s.live := by
  rcases dlmoduleLoad_cases arch syms loadRelocated grants s htype with
    ⟨s'', hexit, hperm⟩ | ⟨hmodule, hshared⟩
  · rw [hload, Option.some.injEq, Prod.mk.injEq] at hexit
    rw [hexit.2]
    exact hperm
  · rw [hload] at hshared
    obtain ⟨⟨ret, module, mid⟩, hloader, hrest⟩ := Option.bind_eq_some_iff.mp hshared.symm
    dsimp only at hrest
    split at hrest
    next hret =>
      obtain ⟨hsymtab, hsymbols, hlive⟩ := loadShared_failed rfl hloader hret
      have hperm := loadExit_perm hsymtab hsymbols hlive fun hnull => absurd hnull hmodule
      rw [Option.some.inj hrest] at hperm
      exact hperm
    · cases hrest

theorem dlmoduleLoad_refused (htype : file.eType ≠ etRel) (horder : InOrder file.loads)
    (hnot : ¬ Valid file.loads) (loadRelocated : LoadRelocated) (grants : Nat → Nat) (s : DlState) :
    ∃ s', dlmoduleLoad arch syms file loadRelocated grants s = some (none, s') := by
  rcases dlmoduleLoad_cases arch syms loadRelocated grants s htype with
    ⟨s', hexit, -⟩ | ⟨-, hshared⟩
  · exact ⟨s', hexit⟩
  · rw [hshared, loadShared_rejected horder hnot]
    exact ⟨_, rfl⟩

/-- Only valid images are accepted exactly if the image has no segment that is out of order: for
such a segment the function returns `RT_NULL`, which is `RT_EOK`. -/
theorem acceptsOnlyValid_iff (arch : Arch) (syms : Symbols) (file : ElfFile) :
    AcceptsOnlyValid arch syms file ↔ InOrder file.loads := by
  constructor
  · intro haccepts
    by_contra hnot
    have hload := haccepts.accepted dlmoduleCreate (fun _ => 0) ⟨false, []⟩ _ _
      (loadShared_disorder hnot)
    exact hnot hload.1.2
  · intro horder
    refine ⟨fun _ _ _ _ _ hload => loadShared_accepted horder hload, ?_, ?_, ?_⟩
    · intro hnot module grants s
      exact ⟨_, _, _, loadShared_rejected horder hnot, by decide⟩
    · exact fun hnot htype => dlmoduleLoad_refused htype horder hnot
    · exact fun htype _ _ _ _ hload => dlmoduleLoad_released htype hload

end Shared

def shortSegment : ElfFile :=
  .ofBytes (ElfFile.header 1 0 0 0 ++ ElfFile.phdrBytes ⟨ptLoad, 0, 4096, 8, 4⟩)

theorem shortSegment_loaded :
    ((dlmoduleLoad arm [] shortSegment (fun _ _ _ _ => none) (fun k => 1000 + k) ⟨false, []⟩).map
      fun loaded => loaded.1.map fun module => (module.1.memSpace, module.1.memSize)) =
        some (some (0, 0)) ∧ ¬ AcceptsOnlyValid arm [] shortSegment := by
  constructor
  · decide +kernel
  · have hloads : shortSegment.loads = [⟨ptLoad, 0, 4096, 8, 4⟩] := by decide +kernel
    have hnot : ¬ InOrder shortSegment.loads := by
      rw [hloads]
      intro horder
      exact absurd (horder.sized _ List.mem_cons_self) (by decide)
    intro haccepts
    exact hnot (haccepts.accepted dlmoduleCreate (fun _ => 0) ⟨false, []⟩ _ _
      (loadShared_disorder hnot)).1.2

end RtThread.Libdl
