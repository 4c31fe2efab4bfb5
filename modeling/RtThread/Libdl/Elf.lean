import RtThread.Lib.ByteMemory

namespace RtThread.Libdl

open RtThread.Lib

/-! ELF images as `dlelf.h` lays them out, and `dlmodule_relocate` of the two architectures. -/

structure ElfFile where
  byte : ByteMemory
  length : Nat

structure Phdr where
  pType : Nat
  pOffset : Nat
  pVaddr : Nat
  pFilesz : Nat
  pMemsz : Nat
  deriving DecidableEq

structure Shdr where
  shName : Nat
  shType : Nat
  shOffset : Nat
  shSize : Nat
  shLink : Nat
  deriving DecidableEq

structure Sym where
  stName : Nat
  stValue : Nat
  stInfo : Nat
  stShndx : Nat
  deriving DecidableEq

structure Rel where
  rOffset : Nat
  rInfo : Nat
  deriving DecidableEq

abbrev CString := List UInt8

def rtmMag : List UInt8 := [0x7f, 0x52, 0x54, 0x4d]

def elfMag : List UInt8 := [0x7f, 0x45, 0x4c, 0x46]

def elfClass32 : Nat := 1

def etRel : Nat := 1

def etDyn : Nat := 3

def ptLoad : Nat := 1

def shtRel : Nat := 9

def stbLocal : Nat := 0

def stbGlobal : Nat := 1

def sttFunc : Nat := 2

def elfDynsym : CString := [0x2e, 0x64, 0x79, 0x6e, 0x73, 0x79, 0x6d]

def Sym.bind (sym : Sym) : Nat := sym.stInfo / 16

def Sym.type (sym : Sym) : Nat := sym.stInfo % 16

def Rel.sym (rel : Rel) : Nat := rel.rInfo / 256

def Rel.type (rel : Rel) : Nat := rel.rInfo % 256

def addAddr (a b : Nat) : Nat := (a + b) % 2 ^ 32

def subAddr (a b : Nat) : Nat := (a + 2 ^ 32 - b % 2 ^ 32) % 2 ^ 32

namespace ElfFile

def ofBytes (bytes : List UInt8) : ElfFile := ⟨fun i => bytes.getD i 0, bytes.length⟩

def header (phnum shoff shnum shstrndx : Nat) : List UInt8 :=
  elfMag ++ UInt8.ofNat elfClass32 :: List.replicate 11 0 ++ leBytes 2 etDyn ++
    List.replicate 10 0 ++ leBytes 4 52 ++ leBytes 4 shoff ++ List.replicate 8 0 ++
    leBytes 2 phnum ++ List.replicate 2 0 ++ leBytes 2 shnum ++ leBytes 2 shstrndx

def phdrBytes (phdr : Phdr) : List UInt8 :=
  leBytes 4 phdr.pType ++ leBytes 4 phdr.pOffset ++ leBytes 4 phdr.pVaddr ++
    List.replicate 4 0 ++ leBytes 4 phdr.pFilesz ++ leBytes 4 phdr.pMemsz ++ List.replicate 8 0

variable (file : ElfFile)

def half (a : Nat) : Nat := file.byte.readWord a 2

def word (a : Nat) : Nat := file.byte.readWord a 4

def magic : List UInt8 := file.byte.readBytes 0 4

def eiClass : Nat := (file.byte 4).toNat

def eType : Nat := file.half 16

def eEntry : Nat := file.word 24

def ePhoff : Nat := file.word 28

def eShoff : Nat := file.word 32

def ePhnum : Nat := file.half 44

def eShnum : Nat := file.half 48

def eShstrndx : Nat := file.half 50

def phdr (index : Nat) : Phdr :=
  let a := file.ePhoff + 32 * index
  ⟨file.word a, file.word (a + 4), file.word (a + 8), file.word (a + 16), file.word (a + 20)⟩

def shdr (index : Nat) : Shdr :=
  let a := file.eShoff + 40 * index
  ⟨file.word a, file.word (a + 4), file.word (a + 16), file.word (a + 20), file.word (a + 24)⟩

def sym (symtab index : Nat) : Sym :=
  let a := symtab + 16 * index
  ⟨file.word a, file.word (a + 4), (file.byte (a + 12)).toNat, file.half (a + 14)⟩

def rel (a : Nat) : Rel := ⟨file.word a, file.word (a + 4)⟩

def string (a : Nat) : Option CString :=
  let rest := file.byte.readBytes a (file.length - a)
  if 0 ∈ rest then some (rest.takeWhile (· ≠ 0)) else none

def loads : List Phdr :=
  ((List.range file.ePhnum).map file.phdr).filter fun p => p.pType = ptLoad

def sections : List Shdr := (List.range file.eShnum).map file.shdr

end ElfFile

structure Stored where
  distance : Nat
  width : Nat
  value : BitVec 32

/-- What `dlmodule_relocate` stores: it gets the type of the relocation, the address of the place,
the word there and the value of the symbol. -/
abbrev Arch := Nat → BitVec 32 → BitVec 32 → BitVec 32 → List Stored

/-- A branch of Thumb.  The second half goes two words further, since `where` points to words. -/
def relocateThumb (place word symVal : BitVec 32) : List Stored :=
  let upper := word &&& 0xffff
  let lower := word >>> 16
  let sign := (upper >>> 10) &&& 1
  let j1 := (lower >>> 13) &&& 1
  let j2 := (lower >>> 11) &&& 1
  let offset := (sign <<< 24) ||| ((~~~(j1 ^^^ sign) &&& 1) <<< 23) |||
    ((~~~(j2 ^^^ sign) &&& 1) <<< 22) ||| ((upper &&& 0x03ff) <<< 12) |||
    ((lower &&& 0x07ff) <<< 1)
  let offset := if offset &&& 0x01000000 ≠ 0 then offset - 0x02000000 else offset
  let offset := offset + (symVal - place)
  if offset &&& 1 = 0 ∨ offset.toInt ≤ -0x01000000 ∨ offset.toInt ≥ 0x01000000 then []
  else
    let sign := (offset >>> 24) &&& 1
    let j1 := sign ^^^ (~~~(offset >>> 23) &&& 1)
    let j2 := sign ^^^ (~~~(offset >>> 22) &&& 1)
    [⟨0, 2, (upper &&& 0xf800) ||| (sign <<< 10) ||| ((offset >>> 12) &&& 0x03ff)⟩,
      ⟨8, 2, (lower &&& 0xd000) ||| (j1 <<< 13) ||| (j2 <<< 11) ||| ((offset >>> 1) &&& 0x07ff)⟩]

def arm : Arch := fun type place word symVal =>
  match type with
  | 2 => [⟨0, 4, word + symVal⟩]
  | 1 | 27 | 28 | 29 =>
    let addend := word &&& 0x00ffffff
    let addend := if addend &&& 0x00800000 ≠ 0 then addend ||| 0xff000000 else addend
    let tmp := (symVal - place + (addend <<< 2)) >>> 2
    [⟨0, 4, (word &&& 0xff000000) ||| (tmp &&& 0x00ffffff)⟩]
  | 3 => [⟨0, 4, word + (symVal - place)⟩]
  | 40 => [⟨0, 4, (word &&& 0xf000000f) ||| 0x01a0f000⟩]
  | 21 | 22 => [⟨0, 4, symVal⟩]
  | 23 => [⟨0, 4, symVal + word⟩]
  | 10 | 30 => relocateThumb place word symVal
  | _ => []

end RtThread.Libdl
