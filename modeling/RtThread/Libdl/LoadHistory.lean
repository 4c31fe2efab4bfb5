import RtThread.Libdl.LoadRelocated
import RtThread.Libdl.SharedImage

namespace RtThread.Libdl

open RtThread.Lib

/-- What a relocation refers to: a place in the module, or a symbol of the kernel. -/
inductive Target
  | module (offset : Nat)
  | kernel (addr : Nat)
  deriving DecidableEq

structure RelativeReloc where
  offset : Nat
  type : Nat
  target : Target
  deriving DecidableEq

def Target.addr (base : Nat) : Target → Nat
  | .module offset => addAddr base offset
  | .kernel addr => addr

def RelativeReloc.place (arch : Arch) (base : Nat) (memory : ByteMemory) (reloc : RelativeReloc) :
    ByteMemory :=
  (arch reloc.type (BitVec.ofNat 32 (addAddr base reloc.offset))
    (BitVec.ofNat 32 (memory.readWord reloc.offset 4))
    (BitVec.ofNat 32 (reloc.target.addr base))).foldl
      (fun memory stored =>
        memory.writeWord (reloc.offset + stored.distance) stored.width stored.value.toNat) memory

section

variable (arch : Arch) (syms : Symbols) (file : ElfFile)

def External (shdr : Shdr) (rel : Rel) : Prop :=
  ¬ ((relSym file shdr rel).stShndx ≠ 0 ∨ (relSym file shdr rel).bind = stbLocal) ∧
    file.linked = false

def UnsolvedItem (shdr : Shdr) (rel : Rel) : Prop :=
  External file shdr rel ∧
    ∃ name, relName file shdr rel = some name ∧ dlmoduleSymbolFind syms name = 0

def UnsolvedSection (shdr : Shdr) : Prop :=
  shdr.shType = shtRel ∧ ∃ rel ∈ relocs file shdr, UnsolvedItem syms file shdr rel

def Unsolved : Prop := ∃ shdr ∈ file.sections, UnsolvedSection syms file shdr

def Relocates : Prop := ∃ shdr ∈ file.sections, shdr.shType = shtRel

/-- The segments are in order and not empty, so that the image is copied to memory. -/
def Copied : Prop := InOrder file.loads ∧ imageSize file ≠ 0

def relativeReloc (shdr : Shdr) (rel : Rel) : Option RelativeReloc :=
  let offset := subAddr rel.rOffset (imageStart file)
  let sym := relSym file shdr rel
  if sym.stShndx ≠ 0 ∨ sym.bind = stbLocal then
    some ⟨offset, rel.type, .module (subAddr sym.stValue (imageStart file))⟩
  else if file.linked then none
  else
    let addr := ((relName file shdr rel).map (dlmoduleSymbolFind syms)).getD 0
    if addr = 0 then none else some ⟨offset, rel.type, .kernel addr⟩

def relativeRelocs (shdrs : List Shdr) : List RelativeReloc :=
  (shdrs.filter fun shdr => shdr.shType = shtRel).flatMap fun shdr =>
    (relocs file shdr).filterMap (relativeReloc syms file shdr)

/-- The image of a file at a load address, which depends on the file and the kernel's symbols. -/
def memoryImage (base : Nat) : ByteMemory :=
  (relativeRelocs syms file file.sections).foldl (RelativeReloc.place arch base)
    (segmentMemory file)

abbrev Loaded := Int × DlModule × DlState

/-- Both loads fail, or both succeed with the same image relative to their load addresses. -/
def SameResult (first second : Loaded) : Prop :=
  (first.1 = rtEok ↔ second.1 = rtEok) ∧
    (first.1 = rtEok → second.1 = rtEok → first.2.1.memSize = second.2.1.memSize ∧
      ∀ i < first.2.1.memSize,
        first.2.1.memory i = memoryImage arch syms file first.2.1.memSpace i ∧
          second.2.1.memory i = memoryImage arch syms file second.2.1.memSpace i)

end

structure LoadCall where
  file : ElfFile
  grants : Nat → Nat

/-- The call comes to the relocation of a shared object that needs a symbol nobody has. -/
def LoadCall.LeavesUnsolved (syms : Symbols) (call : LoadCall) : Prop :=
  (call.file.length ≠ 0 ∧ call.grants 0 ≠ 0 ∧ (call.file.magic = rtmMag ∨ call.file.magic = elfMag) ∧
    call.file.eiClass = elfClass32 ∧ call.grants 1 ≠ 0 ∧ call.file.eType = etDyn) ∧
    Copied call.file ∧ call.grants 2 ≠ 0 ∧ Unsolved syms call.file

def loadAll (arch : Arch) (syms : Symbols) (loadRelocated : LoadRelocated) (s : DlState)
    (calls : List LoadCall) : Option DlState :=
  calls.foldlM (fun s call =>
    (dlmoduleLoad arch syms call.file loadRelocated call.grants s).map Prod.snd) s

section Relocation

variable {arch : Arch} {syms : Symbols} {file : ElfFile} {module : DlModule}
  {memory memory' : ByteMemory} {unsolved unsolved' goesOn : Bool} {shdr : Shdr} {rel : Rel}

theorem foldl_of_guarded {α β : Type} {f : β → α → β} {ok : α → Prop} [DecidablePred ok]
    {l : List α} {b b' : β}
    (hfold : l.foldlM (fun b a => if ok a then some (f b a) else none) b = some b') :
    l.foldl f b = b' := by
  induction l generalizing b with
  | nil => exact Option.some.inj hfold
  | cons a l ih =>
    rw [List.foldlM_cons] at hfold
    obtain ⟨mid, hfirst, hrest⟩ := Option.bind_eq_some_iff.mp hfold
    split at hfirst
    · cases hfirst
      exact ih hrest
    · cases hfirst

theorem dlmoduleRelocate_place {symVal : Nat} {target : Target}
    (hstart : module.vstartAddr = imageStart file) (hval : symVal = target.addr module.memSpace)
    (hrelocate : dlmoduleRelocate arch module memory rel symVal = some memory') :
    memory' = RelativeReloc.place arch module.memSpace memory
      ⟨subAddr rel.rOffset (imageStart file), rel.type, target⟩ := by
  unfold dlmoduleRelocate at hrelocate
  rw [hstart, hval] at hrelocate
  exact (foldl_of_guarded hrelocate).symm

theorem addAddr_subAddr (base value start : Nat) :
    subAddr (addAddr base value) start = addAddr base (subAddr value start) := by
  unfold subAddr addAddr
  omega

theorem relocateItem_spec (hstart : module.vstartAddr = imageStart file)
    (hitem : relocateItem arch syms file module shdr (memory, unsolved) rel =
      some (memory', unsolved')) :
    (unsolved' = true ↔ unsolved = true ∨ UnsolvedItem syms file shdr rel) ∧
      memory' = ((relativeReloc syms file shdr rel).toList).foldl
        (RelativeReloc.place arch module.memSpace) memory := by
  unfold relocateItem at hitem
  unfold relativeReloc UnsolvedItem External
  dsimp only at hitem ⊢
  by_cases hown : (relSym file shdr rel).stShndx ≠ 0 ∨ (relSym file shdr rel).bind = stbLocal
  · rw [if_pos hown] at hitem ⊢
    obtain ⟨memory'', hrelocate, hpair⟩ := Option.map_eq_some_iff.mp hitem
    cases hpair
    refine ⟨⟨.inl, fun h => h.resolve_right fun hnot => hnot.1.1 hown⟩, ?_⟩
    apply dlmoduleRelocate_place hstart _ hrelocate
    rw [hstart]
    exact addAddr_subAddr ..
  · rw [if_neg hown] at hitem ⊢
    by_cases hlinked : file.linked = true
    · rw [if_pos hlinked] at hitem ⊢
      cases hitem
      refine ⟨⟨.inl, fun h => h.resolve_right fun hnot => ?_⟩, rfl⟩
      rw [hnot.1.2] at hlinked
      cases hlinked
    · rw [if_neg hlinked] at hitem ⊢
      obtain ⟨name, hname, hitem⟩ := Option.bind_eq_some_iff.mp hitem
      rw [hname, Option.map_some, Option.getD_some]
      by_cases hfound : dlmoduleSymbolFind syms name = 0
      · rw [if_pos hfound] at hitem ⊢
        cases hitem
        refine ⟨⟨fun _ => .inr ⟨⟨hown, Bool.eq_false_iff.mpr hlinked⟩, name, rfl, hfound⟩,
          fun _ => rfl⟩, rfl⟩
      · rw [if_neg hfound] at hitem ⊢
        obtain ⟨memory'', hrelocate, hpair⟩ := Option.map_eq_some_iff.mp hitem
        cases hpair
        refine ⟨⟨.inl, fun h => h.resolve_right ?_⟩, dlmoduleRelocate_place hstart rfl hrelocate⟩
        rintro ⟨-, other, hother, hzero⟩
        cases hother
        exact hfound hzero

theorem relocateItems_spec (hstart : module.vstartAddr = imageStart file) {rels : List Rel}
    (hitems : rels.foldlM (relocateItem arch syms file module shdr) (memory, unsolved) =
      some (memory', unsolved')) :
    (unsolved' = true ↔ unsolved = true ∨ ∃ rel ∈ rels, UnsolvedItem syms file shdr rel) ∧
      memory' = (rels.filterMap (relativeReloc syms file shdr)).foldl
        (RelativeReloc.place arch module.memSpace) memory := by
  induction rels generalizing memory unsolved with
  | nil =>
    cases hitems
    simp
  | cons rel rels ih =>
    rw [List.foldlM_cons] at hitems
    obtain ⟨⟨memory₁, unsolved₁⟩, hitem, hrest⟩ := Option.bind_eq_some_iff.mp hitems
    obtain ⟨hfirst, hmemory₁⟩ := relocateItem_spec hstart hitem
    obtain ⟨hothers, hmemory'⟩ := ih hrest
    constructor
    · rw [hothers, hfirst, List.exists_mem_cons_iff, or_assoc]
    · rw [hmemory', hmemory₁, List.filterMap_cons]
      cases relativeReloc syms file shdr rel <;> rfl

theorem relocateSections_spec (hstart : module.vstartAddr = imageStart file) {shdrs : List Shdr}
    (hsections : relocateSections arch syms file module shdrs (memory, unsolved) =
      some (goesOn, memory', unsolved')) :
    (unsolved' = true ↔ unsolved = true ∨ ∃ shdr ∈ shdrs, UnsolvedSection syms file shdr) ∧
      (goesOn = true ↔ (unsolved = true → ∀ shdr ∈ shdrs, shdr.shType ≠ shtRel) ∧
        ∀ shdr ∈ shdrs, ¬ UnsolvedSection syms file shdr) ∧
      (goesOn = true → memory' = (relativeRelocs syms file shdrs).foldl
        (RelativeReloc.place arch module.memSpace) memory) := by
  induction shdrs generalizing memory unsolved with
  | nil =>
    cases hsections
    simp [relativeRelocs]
  | cons shdr shdrs ih =>
    rw [relocateSections] at hsections
    rw [List.exists_mem_cons_iff, List.forall_mem_cons, List.forall_mem_cons]
    by_cases hrel : shdr.shType = shtRel
    · rw [if_pos hrel] at hsections
      obtain ⟨⟨memory₁, unsolved₁⟩, hitems, hrest⟩ := Option.bind_eq_some_iff.mp hsections
      obtain ⟨hfirst, hmemory₁⟩ := relocateItems_spec hstart hitems
      have hunsolved : UnsolvedSection syms file shdr ↔
          ∃ rel ∈ relocs file shdr, UnsolvedItem syms file shdr rel :=
        ⟨And.right, fun h => ⟨hrel, h⟩⟩
      rw [← hunsolved] at hfirst
      dsimp only at hrest
      split at hrest
      next hstop =>
        cases hrest
        have hcause := hfirst.mp hstop
        refine ⟨⟨fun _ => hcause.imp_right .inl, fun _ => hstop⟩, ?_, nofun⟩
        refine ⟨nofun, fun h => ?_⟩
        rcases hcause with hbefore | hnow
        · exact absurd hrel (h.1 hbefore).1
        · exact absurd hnow h.2.1
      next hgoes =>
        have hno : ¬ (unsolved = true ∨ UnsolvedSection syms file shdr) :=
          fun h => hgoes (hfirst.mpr h)
        obtain ⟨hothers, hgoesOn, hmemory'⟩ := ih hrest
        refine ⟨?_, ?_, fun hon => ?_⟩
        · rw [hothers, hfirst, or_assoc]
        · rw [hgoesOn]
          exact ⟨fun h => ⟨fun hset => absurd (.inl hset) hno, fun hnow => hno (.inr hnow), h.2⟩,
            fun h => ⟨fun hset => absurd hset hgoes, h.2.2⟩⟩
        · rw [hmemory' hon, hmemory₁, relativeRelocs, relativeRelocs,
            List.filter_cons_of_pos (by simpa using hrel), List.flatMap_cons, List.foldl_append]
    · rw [if_neg hrel] at hsections
      obtain ⟨hothers, hgoesOn, hmemory'⟩ := ih hsections
      have hsolved : ¬ UnsolvedSection syms file shdr := fun h => hrel h.1
      refine ⟨?_, ?_, fun hon => ?_⟩
      · rw [hothers, or_iff_right hsolved]
      · rw [hgoesOn]
        exact ⟨fun h => ⟨fun hset => ⟨hrel, h.1 hset⟩, hsolved, h.2⟩,
          fun h => ⟨fun hset => (h.1 hset).2, h.2.2⟩⟩
      · rw [hmemory' hon, relativeRelocs, relativeRelocs,
          List.filter_cons_of_neg (by simpa using hrel)]

end Relocation

section Load

variable {arch : Arch} {syms : Symbols} {file : ElfFile} {module module' : DlModule}
  {grants : Nat → Nat} {s s' : DlState} {ret : Int}

structure LoadedAs (arch : Arch) (syms : Symbols) (file : ElfFile) (s : DlState) (loaded : Loaded) :
    Prop where
  ok : loaded.1 = rtEok ↔ ¬ InOrder file.loads ∨
    Copied file ∧ (s.unsolved = true → ¬ Relocates file) ∧ ¬ Unsolved syms file
  size : loaded.1 = rtEok → (Copied file ∧ loaded.2.1.memSize = imageSize file ∧
      loaded.2.1.memory = memoryImage arch syms file loaded.2.1.memSpace) ∨
    ¬ InOrder file.loads ∧ loaded.2.1.memSize = 0
  unsolved : loaded.2.2.unsolved = true ↔ s.unsolved = true ∨ Copied file ∧ Unsolved syms file

theorem loadShared_spec (hnone : module.memSize = 0) (hgrant : grants 0 ≠ 0) {loaded : Loaded}
    (hload : dlmoduleLoadSharedObject arch syms file module grants s = some loaded) :
    LoadedAs arch syms file s loaded := by
  obtain ⟨result, hspace, hcases⟩ := loadSpace_cases file module (grants 0) s
  unfold dlmoduleLoadSharedObject at hload
  rw [hspace, Option.bind_some] at hload
  cases hcases with
  | disorder hnot =>
    cases hload
    exact ⟨⟨fun _ => .inl hnot, fun _ => rfl⟩, fun _ => .inr ⟨hnot, hnone⟩,
      ⟨.inl, fun h => h.resolve_right fun h => hnot h.1.1⟩⟩
  | empty horder hzero =>
    cases hload
    refine ⟨⟨nofun, ?_⟩, nofun, ⟨.inl, fun h => h.resolve_right fun h => h.1.2 hzero⟩⟩
    rintro (hnot | ⟨hcopied, -⟩)
    · exact absurd horder hnot
    · exact absurd hzero hcopied.2
  | noMemory horder hsome vstart hnull => exact absurd hnull hgrant
  | space hvalid hsize hnull before hplaced hmemory hspace' hstart hend =>
    have hcopied : Copied file := ⟨hvalid.2, hsize⟩
    obtain ⟨⟨goesOn, memory, unsolved⟩, hsections, hrest⟩ := Option.bind_eq_some_iff.mp hload
    obtain ⟨hunsolved, hgoesOn, himage⟩ := relocateSections_spec hstart hsections
    rw [malloc_unsolved] at hunsolved hgoesOn
    have hflag : unsolved = true ↔ s.unsolved = true ∨ Copied file ∧ Unsolved syms file := by
      rw [hunsolved]
      exact or_congr_right ⟨fun h => ⟨hcopied, h⟩, And.right⟩
    have hok : goesOn = true ↔ ¬ InOrder file.loads ∨
        Copied file ∧ (s.unsolved = true → ¬ Relocates file) ∧ ¬ Unsolved syms file := by
      rw [hgoesOn]
      constructor
      · intro h
        refine .inr ⟨hcopied, fun hset hrel => ?_, fun hneeds => ?_⟩
        · obtain ⟨shdr, hmem, htype⟩ := hrel
          exact h.1 hset shdr hmem htype
        · obtain ⟨shdr, hmem, hneeds⟩ := hneeds
          exact h.2 shdr hmem hneeds
      · rintro (hnot | ⟨-, hnoRel, hsolved⟩)
        · exact absurd hvalid.2 hnot
        · exact ⟨fun hset shdr hmem htype => hnoRel hset ⟨shdr, hmem, htype⟩,
            fun shdr hmem hneeds => hsolved ⟨shdr, hmem, hneeds⟩⟩
    dsimp only at hrest
    split at hrest
    next hon =>
      obtain ⟨⟨built, s''⟩, hsymtab, hrest⟩ := Option.map_eq_some_iff.mp hrest
      cases hrest
      obtain ⟨hsize', hmemory', hspace'', hunsolved'⟩ := constructSymtab_spec hsymtab
      refine ⟨⟨fun _ => hok.mp hon, fun _ => rfl⟩, fun _ => .inl ⟨hcopied, ?_, ?_⟩, ?_⟩
      · exact hsize'.trans hend
      · rw [hmemory', hspace'']
        dsimp only
        rw [himage hon, hmemory]
        rfl
      · rw [hunsolved']
        exact hflag
    next hoff =>
      cases hrest
      exact ⟨⟨nofun, fun h => absurd (hok.mpr h) hoff⟩, nofun, hflag⟩

theorem LoadedAs.same_iff {s₁ s₂ : DlState} {loaded₁ loaded₂ : Loaded}
    (hspec₁ : LoadedAs arch syms file s₁ loaded₁) (hspec₂ : LoadedAs arch syms file s₂ loaded₂) :
    SameResult arch syms file loaded₁ loaded₂ ↔ (loaded₁.1 = rtEok ↔ loaded₂.1 = rtEok) := by
  refine ⟨And.left, fun hsame => ⟨hsame, fun hok₁ hok₂ => ?_⟩⟩
  rcases hspec₁.size hok₁ with ⟨hcopied, hsize₁, hmemory₁⟩ | ⟨hnot, hsize₁⟩
  · rcases hspec₂.size hok₂ with ⟨-, hsize₂, hmemory₂⟩ | ⟨hnot, -⟩
    · rw [hsize₁, hsize₂, hmemory₁, hmemory₂]
      exact ⟨rfl, fun _ _ => ⟨rfl, rfl⟩⟩
    · exact absurd hcopied.1 hnot
  · rcases hspec₂.size hok₂ with ⟨hcopied, -⟩ | ⟨-, hsize₂⟩
    · exact absurd hcopied.1 hnot
    · rw [hsize₁, hsize₂]
      exact ⟨rfl, fun i hi => absurd hi (Nat.not_lt_zero i)⟩

theorem loadShared_unsolved {loaded : Loaded}
    (hload : dlmoduleLoadSharedObject arch syms file dlmoduleCreate grants s = some loaded) :
    loaded.2.2.unsolved = true ↔
      s.unsolved = true ∨ Copied file ∧ grants 0 ≠ 0 ∧ Unsolved syms file := by
  by_cases hgrant : grants 0 = 0
  · have hkept : loaded.2.2 = s := by
      obtain ⟨result, hspace, hcases⟩ := loadSpace_cases file dlmoduleCreate (grants 0) s
      unfold dlmoduleLoadSharedObject at hload
      rw [hspace, Option.bind_some] at hload
      cases hcases with
      | disorder =>
        cases hload
        rfl
      | empty =>
        cases hload
        rfl
      | noMemory =>
        cases hload
        rfl
      | space _ _ hnull => exact absurd hgrant hnull
    rw [hkept]
    exact ⟨.inl, fun h => h.resolve_right fun h => h.2.1 hgrant⟩
  · rw [(loadShared_spec rfl hgrant hload).unsolved]
    exact or_congr_right ⟨fun h => ⟨h.1, hgrant, h.2⟩, fun h => ⟨h.1, h.2.2⟩⟩

theorem loadExit_unsolved {modulePtr a : Nat} :
    (loadExit modulePtr a module s).2.unsolved = s.unsolved := by
  have hnames {symbols : List (Nat × Nat × CString)} {t : DlState} :
      (symbols.foldl (fun s symbol => s.free symbol.2.1) t).unsolved = t.unsolved := by
    induction symbols generalizing t with
    | nil => rfl
    | cons symbol symbols ih => rw [List.foldl_cons, ih, free_unsolved]
  unfold loadExit
  split
  · exact free_unsolved
  · simp only [dlmoduleDestroy, free_unsolved, hnames]

theorem load_finished {loader : Option Loaded} {modulePtr a : Nat}
    {reply : Option (DlModule × Nat)}
    (hload : (loader.bind fun (ret, module, s) =>
      if ret ≠ rtEok then some (loadExit modulePtr a module s)
      else some (some ({ module with nref := module.nref + 1 }, a), s.free modulePtr)) =
        some (reply, s')) :
    ∃ loaded, loader = some loaded ∧ s'.unsolved = loaded.2.2.unsolved := by
  obtain ⟨⟨ret, module, t⟩, hloader, hrest⟩ := Option.bind_eq_some_iff.mp hload
  refine ⟨_, hloader, ?_⟩
  dsimp only at hrest ⊢
  split at hrest
  · have hfreed : (loadExit modulePtr a module t).2.unsolved = t.unsolved := loadExit_unsolved
    rwa [Option.some.inj hrest] at hfreed
  · cases hrest
    exact free_unsolved

theorem dlmoduleLoad_unsolved {loadRelocated : LoadRelocated} {call : LoadCall}
    {reply : Option (DlModule × Nat)}
    (hload : dlmoduleLoad arch syms call.file loadRelocated call.grants s = some (reply, s')) :
    s'.unsolved = true ↔ s.unsolved = true ∨ call.LeavesUnsolved syms := by
  have hexit {modulePtr a : Nat} {module : DlModule} {t : DlState}
      (hnot : ¬ call.LeavesUnsolved syms) (hkept : t.unsolved = s.unsolved)
      (hrun : some (loadExit modulePtr a module t) = some (reply, s')) :
      s'.unsolved = true ↔ s.unsolved = true ∨ call.LeavesUnsolved syms := by
    have hfreed : (loadExit modulePtr a module t).2.unsolved = t.unsolved := loadExit_unsolved
    rw [Option.some.inj hrun] at hfreed
    rw [or_iff_left hnot, ← hkept, ← hfreed]
  unfold dlmoduleLoad at hload
  dsimp only at hload
  split at hload
  next hlength => exact hexit (fun h => h.1.1 hlength) rfl hload
  next hlength =>
    split at hload
    next hgrant => exact hexit (fun h => h.1.2.1 hgrant) rfl hload
    next hgrant =>
      split at hload
      next hmagic =>
        refine hexit (fun h => ?_) malloc_unsolved hload
        exact h.1.2.2.1.elim hmagic.1 hmagic.2
      next hmagic =>
        split at hload
        next hclass => exact hexit (fun h => hclass h.1.2.2.2.1) malloc_unsolved hload
        next hclass =>
          split at hload
          next hmodule =>
            exact hexit (fun h => h.1.2.2.2.2.1 hmodule)
              (malloc_unsolved.trans malloc_unsolved) hload
          next hmodule =>
            split at hload
            next htype =>
              obtain ⟨loaded, hloader, hkept⟩ := load_finished hload
              obtain ⟨⟨ret, module, live⟩, -, rfl⟩ := Option.map_eq_some_iff.mp hloader
              have hnot : ¬ call.LeavesUnsolved syms := by
                intro h
                have hdyn := h.1.2.2.2.2.2
                rw [htype] at hdyn
                exact absurd hdyn (by decide)
              rw [or_iff_left hnot, hkept]
              simp only [malloc_unsolved]
            next htype =>
              split at hload
              next htype' =>
                obtain ⟨loaded, hloader, hkept⟩ := load_finished hload
                rw [hkept, loadShared_unsolved hloader, malloc_unsolved, malloc_unsolved]
                apply or_congr_right
                have hreached : call.file.length ≠ 0 ∧ call.grants 0 ≠ 0 ∧
                    (call.file.magic = rtmMag ∨ call.file.magic = elfMag) ∧
                    call.file.eiClass = elfClass32 ∧ call.grants 1 ≠ 0 ∧
                    call.file.eType = etDyn := by
                  refine ⟨hlength, hgrant, ?_, not_not.mp hclass, hmodule, htype'⟩
                  by_contra hneither
                  exact hmagic ⟨fun h => hneither (.inl h), fun h => hneither (.inr h)⟩
                exact ⟨fun h => ⟨hreached, h.1, h.2.1, h.2.2⟩, fun h => h.2⟩
              next htype' =>
                exact hexit (fun h => htype' h.1.2.2.2.2.2)
                  (malloc_unsolved.trans malloc_unsolved) hload

theorem loadAll_unsolved {loadRelocated : LoadRelocated} {calls : List LoadCall}
    (hloads : loadAll arch syms loadRelocated s calls = some s') :
    s'.unsolved = true ↔ s.unsolved = true ∨ ∃ call ∈ calls, call.LeavesUnsolved syms := by
  induction calls generalizing s with
  | nil =>
    cases hloads
    simp
  | cons call calls ih =>
    unfold loadAll at hloads
    rw [List.foldlM_cons] at hloads
    obtain ⟨mid, hfirst, hrest⟩ := Option.bind_eq_some_iff.mp hloads
    obtain ⟨⟨reply, mid'⟩, hload, rfl⟩ := Option.map_eq_some_iff.mp hfirst
    rw [ih hrest, dlmoduleLoad_unsolved hload, List.exists_mem_cons_iff, or_assoc]

/-- A load gives the same after two histories exactly if both have left a symbol unsolved or neither
has, or it does not come to relocations, or it needs such a symbol itself. -/
theorem loadShared_same_iff {loadRelocated : LoadRelocated} {calls₁ calls₂ : List LoadCall}
    {start₁ start₂ s₁ s₂ : DlState} {grants₁ grants₂ : Nat → Nat} {loaded₁ loaded₂ : Loaded}
    (hstart₁ : start₁.unsolved = false) (hstart₂ : start₂.unsolved = false)
    (hcalls₁ : loadAll arch syms loadRelocated start₁ calls₁ = some s₁)
    (hcalls₂ : loadAll arch syms loadRelocated start₂ calls₂ = some s₂)
    (hgrant₁ : grants₁ 0 ≠ 0) (hgrant₂ : grants₂ 0 ≠ 0)
    (hload₁ : dlmoduleLoadSharedObject arch syms file dlmoduleCreate grants₁ s₁ = some loaded₁)
    (hload₂ : dlmoduleLoadSharedObject arch syms file dlmoduleCreate grants₂ s₂ = some loaded₂) :
    SameResult arch syms file loaded₁ loaded₂ ↔
      ((∃ call ∈ calls₁, call.LeavesUnsolved syms) ↔ ∃ call ∈ calls₂, call.LeavesUnsolved syms) ∨
        ¬ (Copied file ∧ Relocates file) ∨ Unsolved syms file := by
  have hset₁ := loadAll_unsolved hcalls₁
  have hset₂ := loadAll_unsolved hcalls₂
  rw [hstart₁] at hset₁
  rw [hstart₂] at hset₂
  have hspec₁ := loadShared_spec rfl hgrant₁ hload₁
  have hspec₂ := loadShared_spec rfl hgrant₂ hload₂
  rw [or_iff_right Bool.false_ne_true] at hset₁ hset₂
  rw [hspec₁.same_iff hspec₂, hspec₁.ok, hspec₂.ok, hset₁, hset₂]
  generalize (∃ call ∈ calls₁, call.LeavesUnsolved syms) = left₁
  generalize (∃ call ∈ calls₂, call.LeavesUnsolved syms) = left₂
  by_cases hdoes : Copied file ∧ Relocates file
  · obtain ⟨hcopied, hrel⟩ := hdoes
    by_cases hneeds : Unsolved syms file
    · simp [hcopied.1, hneeds]
    · simp [hcopied, hcopied.1, hrel, hneeds, not_iff_not]
  · have hidle (set : Prop) : (¬ InOrder file.loads ∨
        Copied file ∧ (set → ¬ Relocates file) ∧ ¬ Unsolved syms file) ↔
          ¬ InOrder file.loads ∨ Copied file ∧ ¬ Unsolved syms file := by
      apply or_congr_right
      exact ⟨fun h => ⟨h.1, h.2.2⟩, fun h => ⟨h.1, fun _ hrel => hdoes ⟨h.1, hrel⟩, h.2⟩⟩
    rw [hidle, hidle]
    exact ⟨fun _ => .inr (.inl hdoes), fun _ => Iff.rfl⟩

end Load

def shdrBytes (shdr : Shdr) : List UInt8 :=
  leBytes 4 shdr.shName ++ leBytes 4 shdr.shType ++ List.replicate 8 0 ++ leBytes 4 shdr.shOffset ++
    leBytes 4 shdr.shSize ++ leBytes 4 shdr.shLink ++ List.replicate 12 0

/-- A shared object of one word, with one relocation of that word by the symbol `f`. -/
def oneWord (info shndx : Nat) : ElfFile :=
  .ofBytes (ElfFile.header 1 116 3 2 ++ ElfFile.phdrBytes ⟨ptLoad, 84, 0, 4, 4⟩ ++ leBytes 4 1 ++
    -- the relocation, the symbol, and its name
    leBytes 4 0 ++ leBytes 4 23 ++ List.replicate 12 0 ++ [UInt8.ofNat info, 0] ++ leBytes 2 shndx ++
    leBytes 4 102 ++
    shdrBytes ⟨1, shtRel, 88, 8, 1⟩ ++ shdrBytes ⟨1, 11, 96, 16, 2⟩ ++ shdrBytes ⟨1, 3, 112, 4, 0⟩)

def ownSymbol : ElfFile := oneWord 0 1

def missingSymbol : ElfFile := oneWord 16 0

def blocksFrom (a k : Nat) : Nat := a + k

def armRelocated : LoadRelocated := dlmoduleLoadRelocatedObject arm []

/-- After a load of the same file, and as the first one at another address. -/
theorem loadShared_same_iff_own :
    ∃ s₁ loaded₁ loaded₂,
      loadAll arm [] armRelocated ⟨false, []⟩ [⟨ownSymbol, blocksFrom 1000⟩] = some s₁ ∧
      dlmoduleLoadSharedObject arm [] ownSymbol dlmoduleCreate (blocksFrom 2000) s₁ = some loaded₁ ∧
      dlmoduleLoadSharedObject arm [] ownSymbol dlmoduleCreate (blocksFrom 3000) ⟨false, []⟩ =
        some loaded₂ ∧
      loaded₁.1 = rtEok ∧ SameResult arm [] ownSymbol loaded₁ loaded₂ := by
  have hcalls₁ : loadAll arm [] armRelocated ⟨false, []⟩ [⟨ownSymbol, blocksFrom 1000⟩] =
      some ⟨false, [1002, 1001]⟩ := by
    decide +kernel
  have hret₁ : (dlmoduleLoadSharedObject arm [] ownSymbol dlmoduleCreate (blocksFrom 2000)
      ⟨false, [1002, 1001]⟩).map (·.1) = some 0 := by
    decide +kernel
  have hret₂ : (dlmoduleLoadSharedObject arm [] ownSymbol dlmoduleCreate (blocksFrom 3000)
      ⟨false, []⟩).map (·.1) = some 0 := by
    decide +kernel
  obtain ⟨loaded₁, hload₁, hok₁⟩ := Option.map_eq_some_iff.mp hret₁
  obtain ⟨loaded₂, hload₂, -⟩ := Option.map_eq_some_iff.mp hret₂
  have hiff := loadShared_same_iff rfl rfl hcalls₁ (rfl : loadAll arm [] armRelocated _ [] = _)
    (by decide) (by decide) hload₁ hload₂
  refine ⟨_, loaded₁, loaded₂, hcalls₁, hload₁, hload₂, hok₁, hiff.mpr (.inl ?_)⟩
  have hset := loadAll_unsolved hcalls₁
  rw [or_iff_right Bool.false_ne_true] at hset
  rw [← hset]
  simp

/-- A load of an image that needs a missing symbol is followed by one that does not, which fails; as
the first one it succeeds. -/
theorem load_fails_after_missing :
    ∃ s₁ loaded₁ loaded₂,
      loadAll arm [] armRelocated ⟨false, []⟩ [⟨missingSymbol, blocksFrom 1000⟩] = some s₁ ∧
      dlmoduleLoadSharedObject arm [] ownSymbol dlmoduleCreate (blocksFrom 2000) s₁ = some loaded₁ ∧
      dlmoduleLoadSharedObject arm [] ownSymbol dlmoduleCreate (blocksFrom 2000) ⟨false, []⟩ =
        some loaded₂ ∧
      loaded₁.1 = -rtError ∧ loaded₂.1 = rtEok ∧
      ¬ SameResult arm [] ownSymbol loaded₁ loaded₂ := by
  have hcalls₁ : loadAll arm [] armRelocated ⟨false, []⟩ [⟨missingSymbol, blocksFrom 1000⟩] =
      some ⟨true, []⟩ := by
    decide +kernel
  have hret₁ : (dlmoduleLoadSharedObject arm [] ownSymbol dlmoduleCreate (blocksFrom 2000)
      ⟨true, []⟩).map (·.1) = some (-1) := by
    decide +kernel
  have hret₂ : (dlmoduleLoadSharedObject arm [] ownSymbol dlmoduleCreate (blocksFrom 2000)
      ⟨false, []⟩).map (·.1) = some 0 := by
    decide +kernel
  obtain ⟨loaded₁, hload₁, hfailed⟩ := Option.map_eq_some_iff.mp hret₁
  obtain ⟨loaded₂, hload₂, hok⟩ := Option.map_eq_some_iff.mp hret₂
  refine ⟨_, loaded₁, loaded₂, hcalls₁, hload₁, hload₂, hfailed, hok, fun hsame => ?_⟩
  have hok₁ := hsame.1.mpr hok
  rw [hfailed] at hok₁
  exact absurd hok₁ (by decide)

end RtThread.Libdl
