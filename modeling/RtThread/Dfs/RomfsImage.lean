import RtThread.Lib.MemoryBlock

namespace RtThread.Dfs.Romfs

open RtThread.Lib

/-! The images of `mkromfs.py` and how `dfs_romfs.c` looks a path up in one. -/

inductive RomfsItem
  | file (name data : List UInt8)
  | folder (name : List UInt8) (children : List RomfsItem)

structure RomfsDirent where
  type : Nat
  name : Nat
  data : Nat
  size : Nat
  deriving DecidableEq

abbrev romfsDirentFile : Nat := 0

abbrev romfsDirentDir : Nat := 1

abbrev rtUint32Bound : Nat := 2 ^ 32

def slash : UInt8 := 47

namespace RomfsItem

def name : RomfsItem → List UInt8
  | file name _ => name
  | folder name _ => name

def type : RomfsItem → Nat
  | file .. => romfsDirentFile
  | folder .. => romfsDirentDir

def entrySize : RomfsItem → Nat
  | file _ data => data.length
  | folder _ children => children.length

end RomfsItem

def binName (name : List UInt8) : List UInt8 :=
  name ++ List.replicate (4 - name.length % 4) 0

def padData (data : List UInt8) : List UInt8 :=
  if data.length % 4 ≠ 0 then data ++ List.replicate (4 - data.length % 4) 0 else data

abbrev binFmtSize : Nat := 16

/-- `bin_fmt.pack`, which raises an error for a value of more than 32 bits. -/
def RomfsDirent.pack (d : RomfsDirent) : Option (List UInt8) :=
  if d.type < rtUint32Bound ∧ d.name < rtUint32Bound ∧ d.data < rtUint32Bound ∧
      d.size < rtUint32Bound then
    some (leBytes 4 d.type ++ leBytes 4 d.name ++ leBytes 4 d.data ++ leBytes 4 d.size)
  else none

mutual

def binData (baseAddr : Nat) : RomfsItem → Option (List UInt8)
  | .file _ data => some data
  | .folder _ children =>
    (binChildren (baseAddr + binFmtSize * children.length) children).map fun (d, p) => d ++ p

def binChildren (vLen : Nat) : List RomfsItem → Option (List UInt8 × List UInt8)
  | [] => some ([], [])
  | c :: rest =>
    let name := binName c.name
    let dataAddr := vLen + name.length
    (binData dataAddr c).bind fun data =>
      (RomfsDirent.pack ⟨c.type, vLen, dataAddr, c.entrySize⟩).bind fun entry =>
        (binChildren (dataAddr + (padData data).length) rest).map fun (d, p) =>
          (entry ++ d, name ++ padData data ++ p)

end

def rootName : List UInt8 := [slash, 0, 0, 0]

def getBinData (tree : List RomfsItem) (baseAddr : Nat) : Option (List UInt8) :=
  let nameAddr := baseAddr + binFmtSize
  let dataAddr := nameAddr + rootName.length
  (RomfsDirent.pack ⟨romfsDirentDir, nameAddr, dataAddr, tree.length⟩).bind fun entry =>
    (binData dataAddr (.folder [] tree)).map fun data => entry ++ rootName ++ data

def romfsDirentAt (m : MemoryBlock) (a : Nat) : Option RomfsDirent :=
  (m.word a).bind fun type => (m.word (a + 4)).bind fun name =>
    (m.word (a + 8)).bind fun data => (m.word (a + 12)).map fun size => ⟨type, name, data, size⟩

def checkDirent (d : RomfsDirent) : Bool :=
  decide ((d.type = romfsDirentFile ∨ d.type = romfsDirentDir) ∧ d.size ≠ rtUint32Bound - 1)

def skipPathSlashes (path : List UInt8) : List UInt8 := path.dropWhile (· = slash)

def subpathName (subpath : List UInt8) : List UInt8 := subpath.takeWhile (· ≠ slash)

def subpathNext (subpath : List UInt8) : List UInt8 :=
  skipPathSlashes (subpath.dropWhile (· ≠ slash))

/-- The search in a folder: the entry of a name and its address.  `none` is an access outside of
the image. -/
def searchFolder (m : MemoryBlock) (name : List UInt8) :
    Nat → Nat → Option (Option (Nat × RomfsDirent))
  | 0, _ => some none
  | count + 1, a =>
    (romfsDirentAt m a).bind fun d =>
      if checkDirent d then
        (m.string d.name).bind fun entryName =>
          if entryName.length = name.length ∧ entryName.take name.length = name then
            some (some (a, d))
          else searchFolder m name count (a + binFmtSize)
      else some none

theorem length_subpathNext {subpath : List UInt8} (hsome : subpathNext subpath ≠ []) :
    (subpathNext subpath).length < subpath.length := by
  have hsplit : subpath.takeWhile (· ≠ slash) ++ subpath.dropWhile (· ≠ slash) = subpath :=
    List.takeWhile_append_dropWhile
  have hlength := congrArg List.length hsplit
  rw [List.length_append] at hlength
  cases hrest : subpath.dropWhile (· ≠ slash) with
  | nil =>
    rw [subpathNext, hrest] at hsome
    exact absurd rfl hsome
  | cons byte rest =>
    have hslash : byte = slash := by
      have hnot := List.head?_dropWhile_not (· ≠ slash) subpath
      rw [hrest] at hnot
      simpa using hnot
    have hle : (rest.dropWhile (· = slash)).length ≤ rest.length :=
      (List.dropWhile_sublist _).length_le
    rw [hrest, List.length_cons] at hlength
    rw [subpathNext, hrest, hslash]
    simp only [skipPathSlashes, decide_true, List.dropWhile_cons_of_pos]
    omega

/-- `while (dirent != NULL)`: the entry of a path below a folder, and its size. -/
def lookupLoop (m : MemoryBlock) (dirent direntSize : Nat) (subpath : List UInt8) :
    Option (Option (Nat × Nat)) :=
  if dirent = 0 then some none
  else
    match searchFolder m (subpathName subpath) direntSize dirent with
    | none => none
    | some none => some none
    | some (some (a, d)) =>
      if subpathNext subpath = [] then some (some (a, d.size))
      else if d.type = romfsDirentDir then lookupLoop m d.data d.size (subpathNext subpath)
      else some none
termination_by subpath.length
decreasing_by exact length_subpathNext ‹_›

def dfsRomfsLookup (m : MemoryBlock) (rootDirent : Nat) (path : List UInt8) :
    Option (Option (Nat × Nat)) :=
  (romfsDirentAt m rootDirent).bind fun root =>
    if checkDirent root then
      if path = [slash] then some (some (rootDirent, root.size))
      else lookupLoop m root.data root.size (skipPathSlashes path)
    else some none

end RtThread.Dfs.Romfs
