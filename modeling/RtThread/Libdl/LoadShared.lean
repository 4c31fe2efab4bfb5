import RtThread.Libdl.Elf
import RtThread.Lib.Transition

namespace RtThread.Libdl

open RtThread.Lib

/-! `dlmodule_load_shared_object` and `dlmodule_load`.  `none` is an access to memory that is not
the module's. -/

/-- What is kept from one call to the next: the static `unsolved`, and the blocks that are
allocated. -/
structure DlState where
  unsolved : Bool
  live : List Nat
  deriving DecidableEq

/-- `struct rt_dlmodule`, with the contents of `mem_space` and of the symbol table. -/
structure DlModule where
  vstartAddr : Nat
  entryAddr : Nat
  memSpace : Nat
  memSize : Nat
  memory : ByteMemory
  nref : Nat
  nsym : Nat
  symtab : Nat
  /-- The address of a symbol, of its name, and the name. -/
  symbols : List (Nat × Nat × CString)

abbrev Symbols := List (CString × Nat)

abbrev rtEok : Int := 0

abbrev rtError : Int := 1

abbrev rtNull : Int := 0

def dlmoduleCreate : DlModule := ⟨0, 0, 0, 0, fun _ => 0, 0, 0, 0, []⟩

namespace DlState

/-- `rt_malloc` gives an address, or 0. -/
def malloc (s : DlState) (a : Nat) : DlState :=
  if a = 0 then s else { s with live := a :: s.live }

def free (s : DlState) (a : Nat) : DlState :=
  if a = 0 then s else { s with live := s.live.erase a }

end DlState

def dlmoduleSymbolFind (syms : Symbols) (symStr : CString) : Nat :=
  ((syms.find? fun entry => entry.1 = symStr).map Prod.snd).getD 0

abbrev Bounds := Option (Nat × Nat)

/-- A segment extends the image; `none` is one of the `return RT_NULL`. -/
def scanSegment (bounds : Bounds) (phdr : Phdr) : Option Bounds :=
  if phdr.pMemsz < phdr.pFilesz then none
  else
    let vendAddr := addAddr phdr.pVaddr phdr.pMemsz
    match bounds with
    | none => if vendAddr < phdr.pVaddr then none else some (some (phdr.pVaddr, vendAddr))
    | some (vstart, vend) =>
      if phdr.pVaddr < vend then none
      else if vendAddr < phdr.pVaddr then none
      else some (some (vstart, vendAddr))

def copySegment (file : ElfFile) (vstart size : Nat) (memory : ByteMemory) (phdr : Phdr) :
    Option ByteMemory :=
  let offset := subAddr phdr.pVaddr vstart
  if offset + phdr.pFilesz ≤ size then
    some (memory.writeBytes offset (file.byte.readBytes phdr.pOffset phdr.pFilesz))
  else none

/-- What the first part of the function ends with: the value it returns, or the module before it is
relocated. -/
inductive SpaceResult
  | returned (ret : Int) (module : DlModule)
  | space (module : DlModule)

section

variable (file : ElfFile)

/-- From the first line to the entry of the module; `memSpace` is what `rt_malloc` gives. -/
def loadSpace (module : DlModule) (memSpace : Nat) (s : DlState) : Option (SpaceResult × DlState) :=
  match file.loads.foldlM scanSegment none with
  | none => some (.returned rtNull module, s)
  | some bounds =>
    let (vstart, vend) := bounds.getD (0, 0)
    let moduleSize := subAddr vend vstart
    if moduleSize = 0 then some (.returned (-rtError) module, s)
    else
      let module : DlModule := { module with vstartAddr := vstart, nref := 0, memSpace := memSpace }
      let s := s.malloc memSpace
      if memSpace = 0 then some (.returned (-rtError) module, s)
      else
        (file.loads.foldlM (copySegment file vstart moduleSize) fun _ => 0).map fun memory =>
          (.space { module with
            memSize := moduleSize
            memory := memory
            entryAddr := subAddr (addAddr memSpace file.eEntry) vstart }, s)

end

def dlmoduleRelocate (arch : Arch) (module : DlModule) (memory : ByteMemory) (rel : Rel)
    (symVal : Nat) : Option ByteMemory :=
  let offset := subAddr rel.rOffset module.vstartAddr
  (arch rel.type (BitVec.ofNat 32 (addAddr module.memSpace offset))
    (BitVec.ofNat 32 (memory.readWord offset 4)) (BitVec.ofNat 32 symVal)).foldlM
      (fun memory stored =>
        if offset + stored.distance + stored.width ≤ module.memSize then
          some (memory.writeWord (offset + stored.distance) stored.width stored.value.toNat)
        else none) memory

section

variable (arch : Arch) (syms : Symbols) (file : ElfFile)

def ElfFile.linked : Bool := decide (file.magic = rtmMag)

def relSym (shdr : Shdr) (rel : Rel) : Sym := file.sym (file.shdr shdr.shLink).shOffset rel.sym

def relName (shdr : Shdr) (rel : Rel) : Option CString :=
  file.string ((file.shdr (file.shdr shdr.shLink).shLink).shOffset + (relSym file shdr rel).stName)

def relocs (shdr : Shdr) : List Rel :=
  (List.range (shdr.shSize / 8)).map fun i => file.rel (shdr.shOffset + 8 * i)

def relocateItem (module : DlModule) (shdr : Shdr) (loaded : ByteMemory × Bool) (rel : Rel) :
    Option (ByteMemory × Bool) :=
  let (memory, unsolved) := loaded
  let sym := relSym file shdr rel
  if sym.stShndx ≠ 0 ∨ sym.bind = stbLocal then
    let addr := subAddr (addAddr module.memSpace sym.stValue) module.vstartAddr
    (dlmoduleRelocate arch module memory rel addr).map fun memory => (memory, unsolved)
  else if file.linked then some (memory, unsolved)
  else
    (relName file shdr rel).bind fun name =>
      let addr := dlmoduleSymbolFind syms name
      if addr = 0 then some (memory, true)
      else (dlmoduleRelocate arch module memory rel addr).map fun memory => (memory, unsolved)

def relocateSections (module : DlModule) :
    List Shdr → ByteMemory × Bool → Option (Bool × ByteMemory × Bool)
  | [], loaded => some (true, loaded)
  | shdr :: rest, loaded =>
    if shdr.shType = shtRel then
      ((relocs file shdr).foldlM (relocateItem arch syms file module shdr) loaded).bind
        fun loaded =>
          if loaded.2 then some (false, loaded) else relocateSections module rest loaded
    else relocateSections module rest loaded

def findDynsym : List Shdr → Option (Option Shdr)
  | [] => some none
  | shdr :: rest =>
    (file.string ((file.shdr file.eShstrndx).shOffset + shdr.shName)).bind fun name =>
      if name = elfDynsym then some (some shdr) else findDynsym rest

def functions (shdr : Shdr) : List Sym :=
  ((List.range (shdr.shSize / 16)).map (file.sym shdr.shOffset)).filter fun sym =>
    sym.bind = stbGlobal ∧ sym.type = sttFunc

/-- The names are copied; `grants` gives the addresses of the copies. -/
def copySymbols (module : DlModule) (strtab : Nat) :
    List Sym → (Nat → Nat) → DlState → Option (List (Nat × Nat × CString) × DlState)
  | [], _, s => some ([], s)
  | sym :: rest, grants, s =>
    (file.string (strtab + sym.stName)).bind fun name =>
      if grants 0 = 0 then none
      else
        (copySymbols module strtab rest (fun k => grants (k + 1)) (s.malloc (grants 0))).map
          fun (symbols, s) =>
            ((subAddr (addAddr module.memSpace sym.stValue) module.vstartAddr, grants 0, name) ::
              symbols, s)

/-- Construct module symbol table; `grants` gives the addresses of the table and of the names. -/
def constructSymtab (module : DlModule) (grants : Nat → Nat) (s : DlState) :
    Option (DlModule × DlState) :=
  (findDynsym file file.sections).bind fun
    | none => some (module, s)
    | some shdr =>
      let globals := functions file shdr
      if globals ≠ [] ∧ grants 0 = 0 then none
      else
        (copySymbols file module (file.shdr shdr.shLink).shOffset globals
          (fun k => grants (k + 1)) (s.malloc (grants 0))).map fun (symbols, s) =>
            ({ module with symtab := grants 0, nsym := globals.length % 2 ^ 16
                           symbols := symbols }, s)

/-- `dlmodule_load_shared_object`; `grants` gives the address of the module's memory and those of
its symbol table. -/
def dlmoduleLoadSharedObject (module : DlModule) (grants : Nat → Nat) (s : DlState) :
    Option (Int × DlModule × DlState) :=
  (loadSpace file module (grants 0) s).bind fun
    | (.returned ret module, s) => some (ret, module, s)
    | (.space module, s) =>
      (relocateSections arch syms file module file.sections (module.memory, s.unsolved)).bind
        fun (goesOn, memory, unsolved) =>
          let module : DlModule := { module with memory := memory }
          let s : DlState := { s with unsolved := unsolved }
          if goesOn then
            (constructSymtab file module (fun k => grants (k + 1)) s).map fun (module, s) =>
              (rtEok, module, s)
          else some (-rtError, module, s)

def dlmoduleDestroy (a : Nat) (module : DlModule) (s : DlState) : DlState :=
  let s := (module.symbols.take module.nsym).foldl (fun s symbol => s.free symbol.2.1) s
  let s := s.free module.symtab
  let s := s.free module.memSpace
  s.free a

/-- `dlmodule_load_relocated_object`, which loads `ET_REL` files and knows nothing of `unsolved`. -/
abbrev LoadRelocated := ElfFile → DlModule → (Nat → Nat) → List Nat →
  Option (Int × DlModule × List Nat)

def loadExit (modulePtr a : Nat) (module : DlModule) (s : DlState) :
    Option (DlModule × Nat) × DlState :=
  let s := s.free modulePtr
  (none, if a = 0 then s else dlmoduleDestroy a module s)

/-- `dlmodule_load` of a file that can be opened and is read whole; `grants` gives the addresses of
its buffer, of the module and of what belongs to the module.  The module is returned with its
address. -/
def dlmoduleLoad (loadRelocated : LoadRelocated) (grants : Nat → Nat) (s : DlState) :
    Option (Option (DlModule × Nat) × DlState) :=
  let module := dlmoduleCreate
  let exit (modulePtr a : Nat) (module : DlModule) (s : DlState) := some (loadExit modulePtr a module s)
  let load (loader : Option (Int × DlModule × DlState)) (modulePtr a : Nat) :=
    loader.bind fun (ret, module, s) =>
      if ret ≠ rtEok then exit modulePtr a module s
      else
        -- the module is not initialized by this model
        some (some ({ module with nref := module.nref + 1 }, a), s.free modulePtr)
  if file.length = 0 then exit 0 0 module s
  else if grants 0 = 0 then exit 0 0 module s
  else
    let modulePtr := grants 0
    let s := s.malloc modulePtr
    if file.magic ≠ rtmMag ∧ file.magic ≠ elfMag then exit modulePtr 0 module s
    else if file.eiClass ≠ elfClass32 then exit modulePtr 0 module s
    else
      let a := grants 1
      let s := s.malloc a
      if a = 0 then exit modulePtr 0 module s
      else if file.eType = etRel then
        load ((loadRelocated file module (fun k => grants (k + 2)) s.live).map
          fun (ret, module, live) => (ret, module, { s with live := live })) modulePtr a
      else if file.eType = etDyn then
        load (dlmoduleLoadSharedObject arch syms file module (fun k => grants (k + 2)) s)
          modulePtr a
      else exit modulePtr a module s

end

end RtThread.Libdl
