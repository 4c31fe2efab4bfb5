import Mathlib.Data.List.Nodup
import RtThread.Lib.Placement
import RtThread.Libdl.LoadRelocated

namespace RtThread.Libdl

open RtThread.Lib ElfFile RelocSpace

/-! Where the sections of a relocated object are, and where its relocations think they are. -/

/-- What `rt_malloc` gives: neither at the beginning nor up to the end of the addresses -/
structure ModuleBlock (size : Nat) where
  addr : Nat
  pos : 0 < addr
  inside : addr + size < 2 ^ 32

namespace RelocSpace

def placed : RelocSpace → List (Part × Nat)
  | .returned _ => []
  | .space layout => layout.placed

def memory : RelocSpace → ByteMemory
  | .returned _ => fun _ => 0
  | .space layout => layout.memory

def relocated (syms : Symbols) (file : ElfFile) (memSpace : Nat) (item : Shdr × Rel) :
    RelocSpace → Option Nat
  | .returned _ => none
  | .space layout => (relocAddr syms file memSpace layout item.1 item.2).join

end RelocSpace

namespace ElfFile

variable (file : ElfFile)

def partSize (part : Part) : Nat := file.shSize part.1

def isBss (part : Part) : Bool := part.2 = .bss

def itemSym (item : Shdr × Rel) : Sym := relSym file item.1 item.2

def InLoaded (sym : Sym) : Prop :=
  (sym.type = sttSection ∨ sym.type = sttObject) ∧ sym.stShndx ≠ 0 ∧
    ∃ kind, (sym.stShndx, kind) ∈ file.parts

def lastOf (kind : SectionKind) : Option Part := (file.parts.filter (·.2 = kind)).getLast?

def roomBefore (part : Part) : Nat := room file.partSize isBss file.parts part

end ElfFile

section Laws

variable (syms : Symbols) (file : ElfFile)

structure RelocSpace.Right (memSpace : Nat) (space : RelocSpace) : Prop where
  given : ∀ part ∈ file.parts, file.partSize part ≠ 0 → ∃ offset, (part, offset) ∈ space.placed
  inside : ∀ p ∈ space.placed, p.2 + file.partSize p.1 ≤ file.moduleSize
  apart : space.placed.Pairwise fun p q => ¬Overlap file.partSize p q
  holds : ∀ p ∈ space.placed, space.memory.readBytes p.2 (file.partSize p.1) = file.contents p.1
  relocated : ∀ item ∈ file.relItems, file.InLoaded (file.itemSym item) →
    ∃ p ∈ space.placed, p.1.1 = (file.itemSym item).stShndx ∧
      space.relocated syms file memSpace item =
        some (addAddr (addAddr memSpace p.2) (file.itemSym item).stValue)

def SectionsRight (block : ModuleBlock file.moduleSize) : Prop :=
  ∃ space, relocSpace file block.addr = some space ∧ space.Right syms file block.addr

/-- The name of the symbol's section stands for a kind whose last section is where that section
is, and not at the address 0. -/
def Named (memSpace : Nat) (sym : Sym) : Prop :=
  ∃ kind last part, nameKind file sym.stShndx = some kind ∧ file.lastOf kind = some last ∧
    part ∈ file.parts ∧ part.1 = sym.stShndx ∧ file.roomBefore part = file.roomBefore last ∧
    addAddr (memSpace + file.roomBefore last) sym.stValue ≠ 0

structure Loadable (memSpace : Nat) : Prop where
  fits : (file.parts.map file.partSize).sum < 2 ^ 32
  settled : Settled file.partSize ElfFile.isBss file.parts
  named : ∀ item ∈ file.relItems, file.InLoaded (file.itemSym item) →
    (file.parts.map file.partSize).sum ≠ 0 ∧ Named file memSpace (file.itemSym item)

end Laws

variable {syms : Symbols} {file : ElfFile} {memSpace : Nat}

theorem nodup_parts : file.parts.Nodup := by
  unfold parts
  rw [List.nodup_flatMap]
  constructor
  · intro index _
    have hkinds : ([.text, .rodata, .data, .bss] : List SectionKind).Nodup := by decide
    exact (hkinds.filter _).map fun _ _ h => (Prod.mk.inj h).2
  · refine List.nodup_range.imp fun {i j} hne part hi hj => ?_
    obtain ⟨_, _, rfl⟩ := List.mem_map.mp hi
    obtain ⟨_, _, hpart⟩ := List.mem_map.mp hj
    exact hne (congrArg Prod.fst hpart).symm

theorem moduleSize_eq : file.moduleSize = (file.parts.map file.partSize).sum % 2 ^ 32 := by
  have hsum (parts : List Part) {size : Nat} (hsize : size < 2 ^ 32) :
      parts.foldl (fun size part => addAddr size (file.shSize part.1)) size =
        (size + (parts.map file.partSize).sum) % 2 ^ 32 := by
    induction parts generalizing size with
    | nil => exact (Nat.mod_eq_of_lt hsize).symm
    | cons part rest ih =>
      have hnext : addAddr size (file.shSize part.1) < 2 ^ 32 := Nat.mod_lt _ (by decide)
      rw [List.foldl_cons, ih hnext, List.map_cons, List.sum_cons, addAddr, Nat.mod_add_mod,
        Nat.add_assoc]
      rfl
  rw [moduleSize, hsum file.parts (by decide), Nat.zero_add]

theorem length_contents (part : Part) : (file.contents part).length = file.partSize part := by
  unfold contents
  split
  · exact List.length_replicate
  · exact ByteMemory.length_readBytes

section Load

variable {layout layout' : RelocLayout} {parts : List Part} {part : Part}

theorem loaded_ptr : (layout.loaded file memSpace part).ptr =
    if isBss part = true then layout.ptr else layout.ptr + file.partSize part := by
  unfold RelocLayout.loaded isBss
  simp only [decide_eq_true_eq]
  rfl

theorem remember_self {kind : SectionKind} (hkind : kind ≠ .text) (addr : Nat)
    (addrs : SectionKind → Nat) : RelocLayout.remember kind addr addrs kind = addr := by
  rw [RelocLayout.remember, if_neg hkind, Function.update_self]

theorem remember_of_ne {kind other : SectionKind} (hne : kind ≠ other) (addr : Nat)
    (addrs : SectionKind → Nat) : RelocLayout.remember other addr addrs kind = addrs kind := by
  unfold RelocLayout.remember
  split
  · rfl
  · exact Function.update_of_ne hne _ _

theorem load_run (hload : parts.foldlM (RelocLayout.load file memSpace) layout = some layout') :
    layout'.placed = layout.placed ++ places file.partSize isBss layout.ptr parts ∧
      layout'.memory = writeAll file.contents layout.memory
        (places file.partSize isBss layout.ptr parts) ∧
      ∀ kind, kind ≠ .text → layout'.addrs kind =
        match ((places file.partSize isBss layout.ptr parts).filter
          (·.1.2 = kind)).getLast? with
        | none => layout.addrs kind
        | some p => addAddr memSpace p.2 := by
  induction parts generalizing layout with
  | nil =>
    obtain rfl := Option.some.inj hload
    exact ⟨(List.append_nil _).symm, rfl, fun _ _ => rfl⟩
  | cons part rest ih =>
    rw [List.foldlM_cons] at hload
    obtain ⟨next, hnext, hrest⟩ := Option.bind_eq_some_iff.mp hload
    obtain ⟨-, hloaded⟩ := Option.ite_none_right_eq_some.mp hnext
    obtain rfl := Option.some.inj hloaded
    obtain ⟨hplaced, hmemory, haddrs⟩ := ih hrest
    rw [loaded_ptr] at hplaced hmemory haddrs
    refine ⟨?_, hmemory, fun kind hkind => ?_⟩
    · rw [hplaced, places, RelocLayout.loaded, List.append_assoc]
      rfl
    · rw [haddrs kind hkind, places]
      by_cases hpart : part.2 = kind
      · obtain rfl := hpart
        rw [List.filter_cons_of_pos (by simp), List.getLast?_cons]
        cases ((places file.partSize isBss _ rest).filter (·.1.2 = part.2)).getLast? with
        | none => exact remember_self hkind _ _
        | some p => rfl
      · rw [List.filter_cons_of_neg (by simpa using hpart)]
        cases ((places file.partSize isBss _ rest).filter (·.1.2 = kind)).getLast? with
        | none => exact remember_of_ne (Ne.symm hpart) _ _
        | some p => rfl

theorem load_succeeds (hfit : ∀ p ∈ places file.partSize isBss layout.ptr parts,
      p.2 + file.partSize p.1 ≤ file.moduleSize) :
    ∃ layout', parts.foldlM (RelocLayout.load file memSpace) layout = some layout' := by
  induction parts generalizing layout with
  | nil => exact ⟨layout, rfl⟩
  | cons part rest ih =>
    have hptr : (layout.loaded file memSpace part).ptr = _ := loaded_ptr
    rw [places, List.forall_mem_cons, ← hptr] at hfit
    obtain ⟨layout', hrest⟩ := ih hfit.2
    refine ⟨layout', ?_⟩
    have hload : layout.load file memSpace part = some (layout.loaded file memSpace part) :=
      if_pos hfit.1
    rw [List.foldlM_cons, hload]
    exact hrest

end Load

section Right

variable {layout : RelocLayout} {part : Part} {kind : SectionKind} {item : Shdr × Rel}

def ElfFile.places (file : ElfFile) : List (Part × Nat) :=
  Lib.places file.partSize ElfFile.isBss 0 file.parts

theorem mem_places {p : Part × Nat} :
    p ∈ file.places ↔ p.1 ∈ file.parts ∧ p.2 = file.roomBefore p.1 := by
  rw [ElfFile.places, mem_places_iff nodup_parts, Nat.zero_add]
  rfl

theorem inside_places (hfits : (file.parts.map file.partSize).sum < 2 ^ 32) :
    ∀ p ∈ file.places, p.2 + file.partSize p.1 ≤ file.moduleSize := by
  intro p hp
  have hend := end_le_of_mem_places hp
  rw [Nat.zero_add] at hend
  rwa [moduleSize_eq, Nat.mod_eq_of_lt hfits]

theorem getLast?_places :
    (file.places.filter (·.1.2 = kind)).getLast? =
      (file.lastOf kind).map fun last => (last, file.roomBefore last) := by
  have hparts : (file.places.filter (·.1.2 = kind)).map Prod.fst =
      file.parts.filter (·.2 = kind) := by
    have hmap : file.places.map Prod.fst = file.parts := map_fst_places
    rw [← hmap, List.filter_map]
    rfl
  rw [lastOf, ← hparts, List.getLast?_map, Option.map_map]
  cases hlast : (file.places.filter (·.1.2 = kind)).getLast? with
  | none => rfl
  | some p =>
    have hmem := (List.mem_filter.mp (List.mem_of_getLast? hlast)).1
    exact congrArg some (Prod.ext rfl (mem_places.mp hmem).2)

theorem nameKind_ne_text {index : Nat} (hkind : nameKind file index = some kind) :
    kind ≠ .text := by
  rintro rfl
  simp only [nameKind] at hkind
  split at hkind
  · cases hkind
  · split at hkind
    · cases hkind
    · split at hkind <;> cases hkind

theorem relocated_eq (hloaded : file.InLoaded (file.itemSym item)) :
    (space layout).relocated syms file memSpace item =
      ((nameKind file (file.itemSym item).stShndx).map fun kind =>
        addAddr (layout.addrs kind) (file.itemSym item).stValue).filter (· ≠ 0) := by
  obtain ⟨htype, hdefined, -⟩ := hloaded
  unfold itemSym at *
  rw [relocated, relocAddr]
  dsimp only
  rw [if_pos hdefined, if_pos htype]
  cases nameKind file (relSym file item.1 item.2).stShndx with
  | none => rfl
  | some kind => simp [Option.filter]

theorem space_right_iff (hne : file.moduleSize ≠ 0) (block : ModuleBlock file.moduleSize)
    (hload : file.parts.foldlM (RelocLayout.load file block.addr) .start = some layout) :
    (space layout).Right syms file block.addr ↔ Loadable file block.addr := by
  obtain ⟨hplaced, hmemory, haddrs⟩ := load_run hload
  have hplaces : layout.placed = file.places := hplaced
  have hpos := block.pos
  have hspace := block.inside
  have haddr : ∀ kind, kind ≠ .text → layout.addrs kind =
      match file.lastOf kind with
      | none => 0
      | some last => addAddr block.addr (file.roomBefore last) := by
    intro kind hkind
    have hlast := haddrs kind hkind
    rw [show places file.partSize isBss RelocLayout.start.ptr file.parts = file.places
      from rfl, getLast?_places] at hlast
    rw [hlast]
    cases file.lastOf kind <;> rfl
  constructor
  · intro hright
    have hsettled : Settled file.partSize isBss file.parts := by
      have hapart := hright.apart
      rw [placed, hplaces] at hapart
      exact places_apart_iff.mp hapart
    have hinside : ∀ p ∈ file.places, p.2 + file.partSize p.1 ≤ file.moduleSize := by
      have hall := hright.inside
      rwa [placed, hplaces] at hall
    have hfits : (file.parts.map file.partSize).sum < 2 ^ 32 := by
      have hle := hsettled.sum_le (Nat.zero_le _) hinside
      rw [moduleSize_eq] at hle
      omega
    refine ⟨hfits, hsettled, fun item hitem hloaded => ⟨fun hzero => hne ?_, ?_⟩⟩
    · rw [moduleSize_eq, hzero, Nat.zero_mod]
    · obtain ⟨p, hp, hsection, hrelocated⟩ := hright.relocated item hitem hloaded
      rw [placed, hplaces] at hp
      have hroom := (mem_places.mp hp).2
      have hend := hinside p hp
      rw [relocated_eq hloaded] at hrelocated
      cases hkind : nameKind file (file.itemSym item).stShndx with
      | none =>
        rw [hkind] at hrelocated
        cases hrelocated
      | some kind =>
        rw [hkind, Option.map_some, haddr kind (nameKind_ne_text hkind)] at hrelocated
        obtain ⟨heq, hnonzero⟩ := Option.filter_eq_some_iff.mp hrelocated
        have hsame := Option.some.inj heq
        cases hlast : file.lastOf kind with
        | none =>
          rw [hlast] at hsame
          simp only [addAddr] at hsame
          omega
        | some last =>
          rw [hlast] at hsame
          have hmem := (List.mem_filter.mp (List.mem_of_getLast? hlast)).1
          have hlastEnd := hinside (last, file.roomBefore last) (mem_places.mpr ⟨hmem, rfl⟩)
          have hnonzero : addAddr (addAddr block.addr p.2) (file.itemSym item).stValue ≠ 0 :=
            of_decide_eq_true hnonzero
          simp only [addAddr] at hsame hnonzero hlastEnd
          refine ⟨kind, last, p.1, hkind, hlast, (mem_places.mp hp).1, hsection, ?_, ?_⟩
          · omega
          · simp only [addAddr]
            omega
  · rintro ⟨hfits, hsettled, hnamed⟩
    have hinside := inside_places hfits
    have hapart : file.places.Pairwise fun p q => ¬Overlap file.partSize p q :=
      places_apart_iff.mpr hsettled
    refine ⟨fun part hpart _ => ?_, ?_, ?_, fun p hp => ?_, fun item hitem hloaded => ?_⟩
    · rw [placed, hplaces]
      exact ⟨file.roomBefore part, mem_places.mpr ⟨hpart, rfl⟩⟩
    · rwa [placed, hplaces]
    · rwa [placed, hplaces]
    · rw [placed, hplaces] at hp
      rw [memory, hmemory]
      exact readBytes_writeAll length_contents hapart hp
    · obtain ⟨-, kind, last, part, hkind, hlast, hpart, hsection, hroom, hnonzero⟩ :=
        hnamed item hitem hloaded
      have hend := hinside (part, file.roomBefore part) (mem_places.mpr ⟨hpart, rfl⟩)
      rw [placed, hplaces]
      refine ⟨(part, file.roomBefore part), mem_places.mpr ⟨hpart, rfl⟩, hsection, ?_⟩
      rw [relocated_eq hloaded, hkind, Option.map_some, haddr kind (nameKind_ne_text hkind), hlast]
      dsimp only
      rw [← hroom]
      refine Option.filter_eq_some_iff.mpr ⟨rfl, decide_eq_true ?_⟩
      rw [← hroom] at hnonzero
      simp only [addAddr] at hnonzero hend ⊢
      omega

theorem parts_size (hsum : (file.parts.map file.partSize).sum = 0) :
    ∀ part ∈ file.parts, file.partSize part = 0 := fun _ hpart =>
  List.sum_eq_zero_iff_forall_eq_nat.mp hsum _ (List.mem_map_of_mem hpart)

theorem returned_right_iff (hempty : file.moduleSize = 0) :
    (returned rtNull).Right syms file memSpace ↔ Loadable file memSpace := by
  rw [moduleSize_eq] at hempty
  constructor
  · intro hright
    have hsize : ∀ part ∈ file.parts, file.partSize part = 0 := by
      intro part hpart
      by_contra hne
      obtain ⟨offset, hplaced⟩ := hright.given part hpart hne
      cases hplaced
    have hsum : (file.parts.map file.partSize).sum = 0 := by
      rw [List.sum_eq_zero_iff_forall_eq_nat]
      intro size hmem
      obtain ⟨part, hpart, rfl⟩ := List.mem_map.mp hmem
      exact hsize part hpart
    refine ⟨by omega, ?_, fun item hitem hloaded => ?_⟩
    · exact List.Pairwise.imp_of_mem (fun hpart _ _ _ => .inl (hsize _ hpart))
        (List.pairwise_of_forall fun _ _ => trivial)
    · obtain ⟨p, hplaced, -⟩ := hright.relocated item hitem hloaded
      cases hplaced
  · rintro ⟨hfits, -, hnamed⟩
    have hsum : (file.parts.map file.partSize).sum = 0 := by omega
    refine ⟨fun part hpart hne => absurd (parts_size hsum part hpart) hne, fun p hp => ?_, .nil,
      fun p hp => ?_, fun item hitem hloaded => absurd hsum (hnamed item hitem hloaded).1⟩
    · cases hp
    · cases hp

end Right

/-- For every image and every block that `rt_malloc` gives. -/
theorem sectionsRight_iff (syms : Symbols) (file : ElfFile) (block : ModuleBlock file.moduleSize) :
    SectionsRight syms file block ↔ Loadable file block.addr := by
  unfold SectionsRight relocSpace
  split
  next hempty =>
    have hreturned := @returned_right_iff syms file block.addr hempty
    rw [← hreturned]
    constructor
    · rintro ⟨space, hspace, hright⟩
      cases hspace
      exact hright
    · exact fun hright => ⟨_, rfl, hright⟩
  next hne =>
    rw [if_neg (Nat.ne_of_gt block.pos)]
    constructor
    · rintro ⟨space, hspace, hright⟩
      obtain ⟨layout, hload, rfl⟩ := Option.map_eq_some_iff.mp hspace
      exact (space_right_iff hne block hload).mp hright
    · intro hloadable
      obtain ⟨layout, hload⟩ : ∃ layout,
          file.parts.foldlM (RelocLayout.load file block.addr) .start = some layout :=
        load_succeeds (inside_places hloadable.fits)
      refine ⟨.space layout, ?_, (space_right_iff hne block hload).mpr hloadable⟩
      rw [hload, Option.map_some]

def sectionBytes (type flags offset size : Nat) : List UInt8 :=
  leBytes 4 0 ++ leBytes 4 type ++ leBytes 4 flags ++ leBytes 4 0 ++ leBytes 4 offset ++
    leBytes 4 size ++ List.replicate 16 0

def bssRodata : ElfFile :=
  .ofBytes ((ElfFile.header 0 56 2 0).set 16 (UInt8.ofNat etRel) ++ [1, 2, 3, 4] ++
    sectionBytes shtNobits 3 56 4 ++ sectionBytes shtProgbits 2 52 4)

theorem bssRodata_moduleSize : bssRodata.moduleSize = 8 := by
  decide +kernel

theorem sections_overlap :
    (relocSpace bssRodata 4096).map placed = some [((0, .bss), 0), ((1, .rodata), 0)] ∧
      ¬ SectionsRight [] bssRodata ⟨4096, by decide, by rw [bssRodata_moduleSize]; decide⟩ := by
  have hplaced : (relocSpace bssRodata 4096).map placed =
      some [((0, .bss), 0), ((1, .rodata), 0)] := by
    decide +kernel
  refine ⟨hplaced, ?_⟩
  rintro ⟨space, hspace, hright⟩
  rw [hspace] at hplaced
  have hapart := hright.apart
  rw [Option.some.inj hplaced] at hapart
  have hsizes : bssRodata.partSize (0, .bss) = 4 ∧ bssRodata.partSize (1, .rodata) = 4 := by
    decide +kernel
  refine (List.pairwise_cons.mp hapart).1 _ List.mem_cons_self ⟨0, ?_, ?_⟩
  · exact ⟨Nat.le_refl _, by rw [hsizes.1]; decide⟩
  · exact ⟨Nat.le_refl _, by rw [hsizes.2]; decide⟩

end RtThread.Libdl
