import RtThread.Libdl.LoadShared

namespace RtThread.Libdl

open RtThread.Lib

/-! `dlmodule_load_relocated_object`.  As for shared objects, memory is the module's, by its offset
from `mem_space`, and `none` is an access to memory that is not the module's. -/

inductive SectionKind
  | text
  | rodata
  | data
  | bss
  deriving DecidableEq

abbrev shtProgbits : Nat := 1

abbrev shtNobits : Nat := 8

abbrev sttObject : Nat := 1

abbrev sttSection : Nat := 3

abbrev rArmV4bx : Nat := 40

def elfRodata : CString := [0x2e, 0x72, 0x6f, 0x64, 0x61, 0x74, 0x61, 0]

def elfBss : CString := [0x2e, 0x62, 0x73, 0x73, 0]

def elfData : CString := [0x2e, 0x64, 0x61, 0x74, 0x61, 0]

abbrev Part := Nat × SectionKind

namespace ElfFile

variable (file : ElfFile)

def shFlags (index : Nat) : Nat := file.word (file.eShoff + 40 * index + 8)

def shAddr (index : Nat) : Nat := file.word (file.eShoff + 40 * index + 12)

def shSize (index : Nat) : Nat := (file.shdr index).shSize

/-- `IS_PROG` or `IS_NOPROG`, with `IS_AX`, `IS_ALLOC` or `IS_AW` -/
def isKind (index : Nat) : SectionKind → Bool
  | .text =>
    (file.shdr index).shType = shtProgbits &&
      ((file.shFlags index).testBit 1 && (file.shFlags index).testBit 2)
  | .rodata => (file.shdr index).shType = shtProgbits && file.shFlags index = 2
  | .data =>
    (file.shdr index).shType = shtProgbits &&
      ((file.shFlags index).testBit 1 && (file.shFlags index).testBit 0)
  | .bss =>
    (file.shdr index).shType = shtNobits &&
      ((file.shFlags index).testBit 1 && (file.shFlags index).testBit 0)

/-- What the loops over the sections come to, one `if` after another -/
def parts : List Part :=
  (List.range file.eShnum).flatMap fun index =>
    ([.text, .rodata, .data, .bss].filter (file.isKind index)).map (index, ·)

def moduleSize : Nat := file.parts.foldl (fun size part => addAddr size (file.shSize part.1)) 0

def moduleAddr : Nat :=
  file.parts.foldl (fun addr part => if part.2 = .text then file.shAddr part.1 else addr) 0

def contents (part : Part) : List UInt8 :=
  match part.2 with
  | .bss => List.replicate (file.shSize part.1) 0
  | _ => file.byte.readBytes (file.shdr part.1).shOffset (file.shSize part.1)

end ElfFile

/-- `ptr` as an offset, the memory, and `rodata_addr`, `data_addr` and `bss_addr`.

History: the parts with their offsets. -/
structure RelocLayout where
  ptr : Nat
  memory : ByteMemory
  addrs : SectionKind → Nat
  placed : List (Part × Nat)

namespace RelocLayout

def start : RelocLayout := ⟨0, fun _ => 0, fun _ => 0, []⟩

def remember (kind : SectionKind) (addr : Nat) (addrs : SectionKind → Nat) : SectionKind → Nat :=
  if kind = .text then addrs else Function.update addrs kind addr

def loaded (file : ElfFile) (memSpace : Nat) (layout : RelocLayout) (part : Part) : RelocLayout where
  ptr := if part.2 = .bss then layout.ptr else layout.ptr + file.shSize part.1
  memory := layout.memory.writeBytes layout.ptr (file.contents part)
  addrs := remember part.2 (addAddr memSpace layout.ptr) layout.addrs
  placed := layout.placed ++ [(part, layout.ptr)]

def load (file : ElfFile) (memSpace : Nat) (layout : RelocLayout) (part : Part) :
    Option RelocLayout :=
  if layout.ptr + file.shSize part.1 ≤ file.moduleSize then some (layout.loaded file memSpace part)
  else none

end RelocLayout

inductive RelocSpace
  | returned (ret : Int)
  | space (layout : RelocLayout)

def relocSpace (file : ElfFile) (memSpace : Nat) : Option RelocSpace :=
  if file.moduleSize = 0 then some (.returned rtNull)
  else if memSpace = 0 then some (.returned (-rtError))
  else (file.parts.foldlM (RelocLayout.load file memSpace) RelocLayout.start).map .space

section

variable (arch : Arch) (syms : Symbols) (file : ElfFile)

def nameKind (index : Nat) : Option SectionKind :=
  let name := (file.shdr file.eShstrndx).shOffset + (file.shdr index).shName
  if file.byte.readBytes name 8 = elfRodata then some .rodata
  else if file.byte.readBytes name 5 = elfBss then some .bss
  else if file.byte.readBytes name 6 = elfData then some .data
  else none

def relocAddr (memSpace : Nat) (layout : RelocLayout) (shdr : Shdr) (rel : Rel) :
    Option (Option Nat) :=
  let sym := relSym file shdr rel
  let funcAddr := addAddr (subAddr memSpace file.moduleAddr) sym.stValue
  if sym.stShndx ≠ 0 then
    if sym.type = sttSection ∨ sym.type = sttObject then
      let addr :=
        match nameKind file sym.stShndx with
        | some kind => addAddr (layout.addrs kind) sym.stValue
        | none => 0
      some (if addr ≠ 0 then some addr else none)
    else if sym.type = sttFunc then some (some funcAddr)
    else some none
  else if sym.type = sttFunc then some (some funcAddr)
  else if rel.type ≠ rArmV4bx then
    (relName file shdr rel).map fun name =>
      let addr := dlmoduleSymbolFind syms name
      if addr ≠ 0 then some addr else none
  else some (some funcAddr)

def ElfFile.relItems : List (Shdr × Rel) :=
  (file.sections.filter (·.shType = shtRel)).flatMap fun shdr => (relocs file shdr).map (shdr, ·)

def relocItem (module : DlModule) (layout : RelocLayout) (memory : ByteMemory) (item : Shdr × Rel) :
    Option ByteMemory :=
  (relocAddr syms file module.memSpace layout item.1 item.2).bind fun
    | none => some memory
    | some addr => dlmoduleRelocate arch module memory item.2 addr

def dlmoduleLoadRelocatedObject : LoadRelocated := fun file module grants live =>
  let memSpace := grants 0
  let live := if file.moduleSize = 0 ∨ memSpace = 0 then live else memSpace :: live
  let module : DlModule :=
    if file.moduleSize = 0 then module else { module with vstartAddr := 0, memSpace := memSpace }
  (relocSpace file memSpace).bind fun
    | .returned ret => some (ret, module, live)
    | .space layout =>
      let module : DlModule := { module with
        memSize := file.moduleSize
        entryAddr := subAddr (addAddr memSpace file.eEntry) file.moduleAddr }
      (file.relItems.foldlM (relocItem arch syms file module layout) layout.memory).map
        fun memory => (rtEok, { module with memory := memory }, live)

end

end RtThread.Libdl
