import RtThread.Dfs.MountTable

namespace RtThread.Dfs

open Function RtThread.Lib

/-! The directory of `dfs_ramfs.c`: a list of entries, with their names in arrays. -/

abbrev eexist : Int := 17

abbrev ramfsNameMax : Nat := 32

/-- An entry.  Its name array is kept as the characters before the terminator, all of them if
there is none; `behind` is what a reader then finds in the data pointer and further on. -/
structure RamfsDirent where
  name : CString
  data : Option Nat
  size : Nat
  behind : CString
  deriving DecidableEq

def RamfsDirent.nameString (dirent : RamfsDirent) : CString :=
  if dirent.name.length < ramfsNameMax then dirent.name else dirent.name ++ dirent.behind

def RamfsDirent.rename (dirent : RamfsDirent) (name : CString) : RamfsDirent :=
  { dirent with name := name.take ramfsNameMax }

inductive RamfsNode
  | root
  | file (d : Nat)
  deriving DecidableEq

structure OpenFlags where
  directory : Bool
  creat : Bool
  wronly : Bool
  trunc : Bool
  append : Bool

structure RamfsFile where
  data : Option RamfsNode
  size : Nat
  pos : Nat

/-- A filesystem, its entries by their address.

History: the entry that was created or renamed under a name, and not unlinked or renamed away
since. -/
structure Ramfs where
  root : RamfsDirent
  list : List Nat
  dirent : Nat → RamfsDirent
  file : RamfsFile
  result : Int
  files : CString → Option Nat

/-- A write through a descriptor of entry `d`, with its position and size; `realloc` is where the
data goes if it grows, and what then comes behind the name. -/
structure RamfsWrite where
  d : Nat
  pos : Nat
  fdSize : Nat
  count : Nat
  realloc : Option (Nat × CString)

inductive RamfsOp
  | openFile (path : CString) (flags : OpenFlags) (alloc : Option Nat)
  | write (call : RamfsWrite)
  | unlink (path : CString)
  | rename (oldpath newpath : CString)

namespace Ramfs

def setDirent (s : Ramfs) (d : Nat) (dirent : RamfsDirent) : Ramfs :=
  { s with dirent := update s.dirent d dirent }

def node (s : Ramfs) : RamfsNode → RamfsDirent
  | .root => s.root
  | .file d => s.dirent d

def lookup (s : Ramfs) (path : CString) : Option RamfsNode :=
  let subpath := skipSlashes path
  if subpath = [] then some .root
  else (s.list.find? fun d => (s.dirent d).nameString = subpath).map .file

def fail (s : Ramfs) (errno : Int) : Ramfs := { s with result := -errno }

def create (s : Ramfs) (d : Nat) (name : CString) : Ramfs :=
  { s.setDirent d ((⟨[], none, 0, []⟩ : RamfsDirent).rename name) with
    list := d :: s.list
    files := update s.files name (some d) }

def truncate (s : Ramfs) (flags : OpenFlags) (d : Nat) : Ramfs :=
  if flags.trunc then
    s.setDirent d { s.dirent d with size := 0, data := none, behind := [] }
  else s

def openNode (s : Ramfs) (flags : OpenFlags) (node : RamfsNode) : Ramfs :=
  { s with
    file := ⟨some node, (s.node node).size, if flags.append then (s.node node).size else 0⟩
    result := 0 }

def dfsRamfsOpen (path : CString) (flags : OpenFlags) (alloc : Option Nat) (s : Ramfs) : Ramfs :=
  if flags.directory then
    if flags.creat then s.fail enospc
    else
      match s.lookup path with
      | none => s.fail enoent
      | some node => s.openNode flags node
  else
    match s.lookup path with
    | some .root => s.fail enoent
    | some (.file d) => (s.truncate flags d).openNode flags (.file d)
    | none =>
      if flags.creat ∨ flags.wronly then
        match alloc with
        | none => s.fail enomem
        | some d =>
          ((s.create d (skipSlashes path)).truncate flags d).openNode flags (.file d)
      else s.fail enoent

def dfsRamfsWrite (call : RamfsWrite) (s : Ramfs) : Ramfs :=
  if call.fdSize < call.count + call.pos then
    match call.realloc with
    | none => { s with result := 0 }
    | some (ptr, behind) =>
      { s.setDirent call.d { s.dirent call.d with
          data := some ptr, size := call.pos + call.count, behind := behind } with
        result := call.count }
  else { s with result := call.count }

/-- `dfs_ramfs_unlink`; the root is not a block of the heap that it is given back to. -/
def dfsRamfsUnlink (path : CString) (s : Ramfs) : Option Ramfs :=
  match s.lookup path with
  | none => some (s.fail enoent)
  | some .root => none
  | some (.file d) =>
    some { s with
      list := s.list.erase d
      files := update s.files (skipSlashes path) none
      result := 0 }

def dfsRamfsRename (oldpath newpath : CString) (s : Ramfs) : Ramfs :=
  if s.lookup newpath ≠ none then s.fail eexist
  else
    match s.lookup oldpath with
    | none => s.fail enoent
    | some .root => { s with root := s.root.rename newpath, result := 0 }
    | some (.file d) =>
      { s.setDirent d ((s.dirent d).rename newpath) with
        files := update (update s.files (skipSlashes oldpath) none)
          (skipSlashes newpath) (some d)
        result := 0 }

def exec (s : Ramfs) : RamfsOp → Option Ramfs
  | .openFile path flags alloc => some (s.dfsRamfsOpen path flags alloc)
  | .write call => some (s.dfsRamfsWrite call)
  | .unlink path => s.dfsRamfsUnlink path
  | .rename oldpath newpath => some (s.dfsRamfsRename oldpath newpath)

structure Initial (s : Ramfs) : Prop where
  root : s.root = ⟨['.'], none, 0, []⟩
  list : s.list = []
  files : ∀ name, s.files name = none

end Ramfs

def ramfsMachine : Machine Ramfs RamfsOp where
  init := Ramfs.Initial
  exec := Ramfs.exec

namespace Ramfs

/-- The allocator gives memory that is free, and a write goes to an entry that is there. -/
def Provided (s : Ramfs) : RamfsOp → Prop
  | .openFile _ _ alloc => ∀ d ∈ alloc, d ∉ s.list
  | .write call => call.d ∈ s.list
  | .unlink _ => True
  | .rename _ _ => True

/-- A file is not created under a name that fills the array, a rename leaves the root alone and
names no slash, and the root is not unlinked. -/
def Fits (s : Ramfs) : RamfsOp → Prop
  | .openFile path flags alloc =>
    s.lookup path = none → flags.directory = false → (flags.creat || flags.wronly) = true →
      alloc ≠ none → (skipSlashes path).length < ramfsNameMax
  | .write _ => True
  | .unlink path => s.lookup path ≠ some .root
  | .rename oldpath newpath =>
    s.lookup newpath = none → s.lookup oldpath ≠ none →
      s.lookup oldpath ≠ some .root ∧ newpath.head? ≠ some '/' ∧
        newpath.length < ramfsNameMax

instance (s : Ramfs) (op : RamfsOp) : Decidable (s.Provided op) := by
  cases op <;> unfold Provided <;> infer_instance

instance (s : Ramfs) (op : RamfsOp) : Decidable (s.Fits op) := by
  cases op <;> unfold Fits <;> infer_instance

structure Sound (s : Ramfs) : Prop where
  distinct : (s.list.map fun d => (s.dirent d).nameString).Nodup
  lookup : ∀ path, skipSlashes path ≠ [] →
    s.lookup path = (s.files (skipSlashes path)).map .file
  root : s.root.name = ['.']

inductive Meets (s : Ramfs) : RamfsOp → Prop
  | openFile {path flags alloc s'} (hexec : s.exec (.openFile path flags alloc) = some s')
      (hsound : s'.Sound)
      (hrejected : s.lookup path = none → ramfsNameMax ≤ (skipSlashes path).length →
        s'.result ≠ 0) : Meets s (.openFile path flags alloc)
  | write {call s'} (hexec : s.exec (.write call) = some s') (hsound : s'.Sound) :
      Meets s (.write call)
  | unlink {path s'} (hexec : s.exec (.unlink path) = some s') (hsound : s'.Sound)
      (hroot : s.lookup path = some .root → s'.result ≠ 0) : Meets s (.unlink path)
  | rename {oldpath newpath s'} (hexec : s.exec (.rename oldpath newpath) = some s')
      (hsound : s'.Sound) (hroot : s.lookup oldpath = some .root → s'.result ≠ 0)
      (hrejected : ramfsNameMax ≤ (skipSlashes newpath).length → s'.result ≠ 0)
      (hmoved : s'.result = 0 → s'.lookup newpath = s.lookup oldpath ∧
        ∀ d, (s'.dirent d).data = (s.dirent d).data ∧ (s'.dirent d).size = (s.dirent d).size) :
      Meets s (.rename oldpath newpath)

/-- What every state keeps: each entry has a name that ends in its array, under which it is the
file. -/
structure Inv (s : Ramfs) : Prop where
  nodup : s.list.Nodup
  terminated : ∀ d ∈ s.list, (s.dirent d).name.length < ramfsNameMax
  files : ∀ name d, s.files name = some d ↔ d ∈ s.list ∧ (s.dirent d).name = name
  root : s.root.name = ['.']

variable {s s' : Ramfs} {path oldpath newpath name : CString} {flags : OpenFlags}
  {alloc : Option Nat} {d : Nat}

theorem nameString_of_short {dirent : RamfsDirent} (hshort : dirent.name.length < ramfsNameMax) :
    dirent.nameString = dirent.name := if_pos hshort

theorem lookup_of_root (hroot : skipSlashes path = []) : s.lookup path = some .root :=
  if_pos hroot

theorem skipSlashes_ne_nil (hmissing : s.lookup path ≠ some .root) : skipSlashes path ≠ [] :=
  fun hroot => hmissing (lookup_of_root hroot)

section

variable (hinv : s.Inv)
include hinv

theorem Inv.lookup_eq (hpath : skipSlashes path ≠ []) :
    s.lookup path = (s.files (skipSlashes path)).map .file := by
  have hmatch : ∀ d ∈ s.list, (s.dirent d).nameString = (s.dirent d).name := fun d hd =>
    nameString_of_short (hinv.terminated d hd)
  rw [lookup, if_neg hpath]
  congr 1
  cases hfind : s.list.find? fun d => (s.dirent d).nameString = skipSlashes path with
  | none =>
    cases hfile : s.files (skipSlashes path) with
    | none => rfl
    | some d =>
      obtain ⟨hd, hname⟩ := (hinv.files _ d).mp hfile
      have hnot := List.find?_eq_none.mp hfind d hd
      rw [hmatch d hd, hname] at hnot
      simp at hnot
  | some d =>
    have hd := List.mem_of_find?_eq_some hfind
    have hname := List.find?_some hfind
    rw [decide_eq_true_eq, hmatch d hd] at hname
    exact ((hinv.files _ d).mpr ⟨hd, hname⟩).symm

theorem Inv.lookup_file (hfile : s.lookup path = some (.file d)) :
    s.files (skipSlashes path) = some d := by
  have hpath : skipSlashes path ≠ [] := skipSlashes_ne_nil (s := s) (by simp [hfile])
  rw [hinv.lookup_eq hpath] at hfile
  obtain ⟨d', hd', heq⟩ := Option.map_eq_some_iff.mp hfile
  cases heq
  exact hd'

theorem Inv.lookup_none (hmissing : s.lookup path = none) : s.files (skipSlashes path) = none := by
  have hpath : skipSlashes path ≠ [] := skipSlashes_ne_nil (s := s) (by simp [hmissing])
  rw [hinv.lookup_eq hpath] at hmissing
  exact Option.map_eq_none_iff.mp hmissing

theorem Inv.sound : s.Sound := by
  refine ⟨?_, fun path hpath => hinv.lookup_eq hpath, hinv.root⟩
  refine List.Nodup.map_on ?_ hinv.nodup
  intro d hd other hother hsame
  rw [nameString_of_short (hinv.terminated d hd),
    nameString_of_short (hinv.terminated other hother)] at hsame
  have hfile := (hinv.files _ d).mpr ⟨hd, hsame⟩
  rw [(hinv.files _ other).mpr ⟨hother, rfl⟩] at hfile
  exact (Option.some.inj hfile).symm

theorem Inv.of_same (hroot : s'.root = s.root) (hlist : s'.list = s.list)
    (hdirent : s'.dirent = s.dirent) (hfiles : s'.files = s.files) : s'.Inv := by
  refine ⟨?_, ?_, ?_, ?_⟩
  · rw [hlist]
    exact hinv.nodup
  · rw [hlist, hdirent]
    exact hinv.terminated
  · rw [hlist, hdirent, hfiles]
    exact hinv.files
  · rw [hroot]
    exact hinv.root

theorem Inv.setDirent {dirent : RamfsDirent}
    (hname : dirent.name = (s.dirent d).name) : (s.setDirent d dirent).Inv := by
  have hsame : ∀ other, ((s.setDirent d dirent).dirent other).name = (s.dirent other).name := by
    intro other
    rcases eq_or_ne other d with rfl | hne
    · simpa [Ramfs.setDirent] using hname
    · simp [Ramfs.setDirent, hne]
  refine ⟨hinv.nodup, ?_, ?_, hinv.root⟩
  · intro other hother
    rw [hsame other]
    exact hinv.terminated other hother
  · intro name other
    rw [hsame other]
    exact hinv.files name other

theorem Inv.truncate (flags : OpenFlags) : (s.truncate flags d).Inv := by
  unfold Ramfs.truncate
  split
  · exact hinv.setDirent rfl
  · exact hinv

theorem Inv.openNode (node : RamfsNode) : (s.openNode flags node).Inv :=
  hinv.of_same rfl rfl rfl rfl

theorem Inv.create (hfresh : d ∉ s.list) (hnew : s.files name = none)
    (hshort : name.length < ramfsNameMax) : (s.create d name).Inv := by
  have hdirent : ((s.create d name).dirent d).name = name := by
    simp [Ramfs.create, Ramfs.setDirent, RamfsDirent.rename, List.take_of_length_le hshort.le]
  have hothers : ∀ other, other ≠ d → (s.create d name).dirent other = s.dirent other := by
    intro other hne
    simp [Ramfs.create, Ramfs.setDirent, hne]
  refine ⟨List.nodup_cons.mpr ⟨hfresh, hinv.nodup⟩, ?_, ?_, hinv.root⟩
  · intro other hother
    rcases List.mem_cons.mp hother with rfl | hold
    · rw [hdirent]
      exact hshort
    · rw [hothers other (fun heq => hfresh (heq ▸ hold))]
      exact hinv.terminated other hold
  · intro key other
    change update s.files name (some d) key = some other ↔
      other ∈ d :: s.list ∧ ((s.create d name).dirent other).name = key
    rcases eq_or_ne other d with rfl | hne
    · rw [hdirent, and_iff_right List.mem_cons_self]
      rcases eq_or_ne key name with rfl | hkey
      · simp
      · rw [update_of_ne hkey, hinv.files]
        exact iff_of_false (fun h => hfresh h.1) hkey.symm
    · rw [hothers other hne, List.mem_cons, or_iff_right hne]
      rcases eq_or_ne key name with rfl | hkey
      · rw [update_self, ← hinv.files, hnew]
        simp [hne.symm]
      · rw [update_of_ne hkey, hinv.files]

theorem Inv.renamed {old : CString} {result : Int} (hold : s.files old = some d)
    (hnew : s.files name = none) (hshort : name.length < ramfsNameMax) :
    ({ s.setDirent d ((s.dirent d).rename name) with
        files := update (update s.files old none) name (some d)
        result := result } : Ramfs).Inv := by
  obtain ⟨hd, hname⟩ := (hinv.files old d).mp hold
  have hne : old ≠ name := by
    rintro rfl
    cases hold.symm.trans hnew
  have hdirent : ((s.dirent d).rename name).name = name := List.take_of_length_le hshort.le
  refine ⟨hinv.nodup, ?_, ?_, hinv.root⟩
  · intro other hother
    rcases eq_or_ne other d with rfl | hother'
    · simpa [Ramfs.setDirent, hdirent] using hshort
    · simpa [Ramfs.setDirent, hother'] using hinv.terminated other hother
  · intro key other
    simp only [Ramfs.setDirent]
    rcases eq_or_ne other d with rfl | hother
    · rw [update_self, hdirent, and_iff_right hd]
      rcases eq_or_ne key name with rfl | hkey
      · simp
      · rw [update_of_ne hkey]
        refine iff_of_false ?_ hkey.symm
        rcases eq_or_ne key old with rfl | hkey'
        · simp
        · rw [update_of_ne hkey', hinv.files]
          exact fun h => hkey' (h.2.symm.trans hname)
    · rw [update_of_ne hother, ← hinv.files]
      rcases eq_or_ne key name with rfl | hkey
      · rw [update_self, hnew]
        simp [hother.symm]
      · rw [update_of_ne hkey]
        rcases eq_or_ne key old with rfl | hkey'
        · rw [update_self, hold]
          simp [hother.symm]
        · rw [update_of_ne hkey']

theorem Inv.unlinked {result : Int} (hfile : s.files name = some d) : ({ s with
        list := s.list.erase d
        files := update s.files name none
        result := result } : Ramfs).Inv := by
  obtain ⟨hd, hname⟩ := (hinv.files name d).mp hfile
  refine ⟨hinv.nodup.erase d, ?_, ?_, hinv.root⟩
  · exact fun other hother => hinv.terminated other (List.mem_of_mem_erase hother)
  · intro key other
    simp only [hinv.nodup.mem_erase_iff]
    rcases eq_or_ne key name with rfl | hkey
    · rw [update_self]
      refine iff_of_false (fun h => nomatch h) ?_
      rintro ⟨⟨hne, hother⟩, hsame⟩
      have hboth := (hinv.files key other).mpr ⟨hother, hsame⟩
      exact hne (Option.some.inj (hboth.symm.trans hfile))
    · rw [update_of_ne hkey, hinv.files]
      constructor
      · rintro ⟨hother, hsame⟩
        refine ⟨⟨?_, hother⟩, hsame⟩
        rintro rfl
        exact hkey (hsame.symm.trans hname)
      · rintro ⟨⟨-, hother⟩, hsame⟩
        exact ⟨hother, hsame⟩

theorem Inv.dfsRamfsOpen (hprovided : s.Provided (.openFile path flags alloc))
    (hfits : s.Fits (.openFile path flags alloc)) :
    (s.dfsRamfsOpen path flags alloc).Inv := by
  have hfailed : ∀ errno, (s.fail errno).Inv := fun _ => hinv.of_same rfl rfl rfl rfl
  unfold Ramfs.dfsRamfsOpen
  split
  · split
    · exact hfailed _
    · split
      · exact hfailed _
      · exact hinv.openNode _
  next hregular =>
    split
    · exact hfailed _
    · exact (hinv.truncate flags).openNode _
    next hmissing =>
      split
      next hcreates =>
        split
        · exact hfailed _
        next d =>
          have hshort := hfits hmissing (Bool.eq_false_iff.mpr hregular) (by simpa using hcreates)
            (Option.some_ne_none d)
          have hcreated := hinv.create (hprovided d rfl) (hinv.lookup_none hmissing) hshort
          exact (hcreated.truncate flags).openNode _
      · exact hfailed _

end

theorem fail_result_ne {errno : Int} (herrno : errno ≠ 0) : (s.fail errno).result ≠ 0 :=
  fun hzero => herrno (Int.neg_eq_zero.mp hzero)

theorem open_rejects (hmissing : s.lookup path = none)
    (hno : ¬ (flags.directory = false ∧ (flags.creat || flags.wronly) = true ∧ alloc ≠ none)) :
    (s.dfsRamfsOpen path flags alloc).result ≠ 0 := by
  unfold Ramfs.dfsRamfsOpen
  rw [hmissing]
  split
  · split <;> exact fail_result_ne (by decide)
  next hregular =>
    dsimp only
    split
    next hcreates =>
      split
      · exact fail_result_ne (by decide)
      next d =>
        exact absurd ⟨Bool.eq_false_iff.mpr hregular, by simpa using hcreates,
          Option.some_ne_none d⟩ hno
    · exact fail_result_ne (by decide)

theorem open_creates (hmissing : s.lookup path = none) (hregular : flags.directory = false)
    (hcreates : (flags.creat || flags.wronly) = true) (halloc : alloc ≠ none) :
    (s.dfsRamfsOpen path flags alloc).result = 0 := by
  obtain ⟨d, rfl⟩ := Option.ne_none_iff_exists'.mp halloc
  rw [Bool.or_eq_true] at hcreates
  simp [Ramfs.dfsRamfsOpen, hmissing, hregular, hcreates, openNode]

theorem Inv.openFile_meets_iff (hinv : s.Inv)
    (hprovided : s.Provided (.openFile path flags alloc)) :
    s.Meets (.openFile path flags alloc) ↔ s.Fits (.openFile path flags alloc) := by
  constructor
  · intro hmeets hmissing hregular hcreates halloc
    cases hmeets with
    | openFile hexec _ hrejected =>
      cases hexec
      exact Nat.lt_of_not_le fun hlong =>
        hrejected hmissing hlong (open_creates hmissing hregular hcreates halloc)
  · intro hfits
    refine .openFile rfl (hinv.dfsRamfsOpen hprovided hfits).sound fun hmissing hlong => ?_
    refine open_rejects hmissing ?_
    rintro ⟨hregular, hcreates, halloc⟩
    exact absurd (hfits hmissing hregular hcreates halloc) (Nat.not_lt.mpr hlong)

theorem Inv.dfsRamfsWrite {call : RamfsWrite} (hinv : s.Inv) : (s.dfsRamfsWrite call).Inv := by
  unfold Ramfs.dfsRamfsWrite
  split
  · split
    · exact hinv.of_same rfl rfl rfl rfl
    next ptr behind _ =>
      have hgrown : (s.setDirent call.d { s.dirent call.d with
          data := some ptr, size := call.pos + call.count, behind := behind }).Inv :=
        hinv.setDirent rfl
      exact hgrown.of_same rfl rfl rfl rfl
  · exact hinv.of_same rfl rfl rfl rfl

theorem Inv.dfsRamfsUnlink (hinv : s.Inv) (hunlink : s.dfsRamfsUnlink path = some s') : s'.Inv := by
  unfold Ramfs.dfsRamfsUnlink at hunlink
  split at hunlink
  · cases hunlink
    exact hinv.of_same rfl rfl rfl rfl
  · cases hunlink
  next d hfound =>
    cases hunlink
    exact hinv.unlinked (hinv.lookup_file hfound)

theorem Inv.unlink_meets_iff (hinv : s.Inv) : s.Meets (.unlink path) ↔ s.Fits (.unlink path) := by
  constructor
  · intro hmeets hroot
    cases hmeets with
    | unlink hexec =>
      simp only [exec, Ramfs.dfsRamfsUnlink, hroot] at hexec
      cases hexec
  · intro hfits
    cases hunlink : s.dfsRamfsUnlink path with
    | some s' =>
      exact .unlink hunlink (hinv.dfsRamfsUnlink hunlink).sound fun hroot => absurd hroot hfits
    | none =>
      unfold Ramfs.dfsRamfsUnlink at hunlink
      split at hunlink
      · cases hunlink
      next hroot => exact absurd hroot hfits
      · cases hunlink

theorem dfsRamfsRename_cases (s : Ramfs) (oldpath newpath : CString) :
    (∃ errno, errno ≠ 0 ∧ s.dfsRamfsRename oldpath newpath = s.fail errno ∧
      ¬ (s.lookup newpath = none ∧ s.lookup oldpath ≠ none)) ∨
    s.lookup newpath = none ∧ s.lookup oldpath = some .root ∧
      (s.dfsRamfsRename oldpath newpath).result = 0 ∨
    ∃ d, s.lookup newpath = none ∧ s.lookup oldpath = some (.file d) ∧
      s.dfsRamfsRename oldpath newpath =
        { s.setDirent d ((s.dirent d).rename newpath) with
          files := update (update s.files (skipSlashes oldpath) none)
            (skipSlashes newpath) (some d)
          result := 0 } := by
  unfold Ramfs.dfsRamfsRename
  split
  next hexists => exact .inl ⟨eexist, by decide, rfl, fun h => hexists h.1⟩
  next hnew =>
    rw [not_not] at hnew
    split
    next hmissing => exact .inl ⟨enoent, by decide, rfl, fun h => h.2 hmissing⟩
    next hroot => exact .inr (.inl ⟨hnew, hroot, rfl⟩)
    next d hfound => exact .inr (.inr ⟨d, hnew, hfound, rfl⟩)

theorem skipSlashes_of_head (hhead : path.head? ≠ some '/') : skipSlashes path = path := by
  cases path with
  | nil => rfl
  | cons c path =>
    have hne : c ≠ '/' := fun heq => hhead (by rw [heq]; rfl)
    simp [skipSlashes, hne]

theorem Inv.dfsRamfsRename (hinv : s.Inv) (hfits : s.Fits (.rename oldpath newpath)) :
    (s.dfsRamfsRename oldpath newpath).Inv := by
  rcases dfsRamfsRename_cases s oldpath newpath with ⟨errno, -, hfailed, -⟩ | ⟨hnew, hroot, -⟩ |
    ⟨d, hnew, hfound, hmoved⟩
  · rw [hfailed]
    exact hinv.of_same rfl rfl rfl rfl
  · exact absurd hroot (hfits hnew (by simp [hroot])).1
  · obtain ⟨-, hhead, hshort⟩ := hfits hnew (by simp [hfound])
    have hmissing := hinv.lookup_none hnew
    rw [hmoved, skipSlashes_of_head hhead]
    rw [skipSlashes_of_head hhead] at hmissing
    exact hinv.renamed (hinv.lookup_file hfound) hmissing hshort

theorem lookup_slash_ne {dirent : RamfsDirent} (hslash : path.head? = some '/')
    (hdirent : s.dirent d = dirent.rename path) : s.lookup path ≠ some (.file d) := by
  intro hfound
  unfold lookup at hfound
  dsimp only at hfound
  split at hfound
  · cases hfound
  · obtain ⟨d', hfind, heq⟩ := Option.map_eq_some_iff.mp hfound
    cases heq
    have hname := List.find?_some hfind
    rw [decide_eq_true_eq, hdirent] at hname
    have hhead : (dirent.rename path).nameString.head? = some '/' := by
      obtain ⟨rest, rfl⟩ : ∃ rest, path = '/' :: rest := by
        cases path with
        | nil => cases hslash
        | cons c rest => exact ⟨rest, by rw [Option.some.inj hslash]⟩
      unfold RamfsDirent.nameString RamfsDirent.rename
      split <;> rfl
    rw [hname] at hhead
    exact skipSlashes_head hhead

theorem Inv.rename_meets_iff (hinv : s.Inv) :
    s.Meets (.rename oldpath newpath) ↔ s.Fits (.rename oldpath newpath) := by
  constructor
  · intro hmeets hnew hold
    cases hmeets with
    | rename hexec _ hroot hrejected hsame =>
      cases hexec
      rcases dfsRamfsRename_cases s oldpath newpath with ⟨errno, -, -, hnot⟩ |
        ⟨-, hisRoot, hdone⟩ | ⟨d, -, hfound, hmoved⟩
      · exact absurd ⟨hnew, hold⟩ hnot
      · exact absurd hdone (hroot hisRoot)
      · have hdone : (s.dfsRamfsRename oldpath newpath).result = 0 := by rw [hmoved]
        have hhead : newpath.head? ≠ some '/' := by
          intro hslash
          have hdirent : (s.dfsRamfsRename oldpath newpath).dirent d =
              (s.dirent d).rename newpath := by
            rw [hmoved]
            exact update_self ..
          refine lookup_slash_ne hslash hdirent ?_
          rw [(hsame hdone).1, hfound]
        refine ⟨by simp [hfound], hhead, Nat.lt_of_not_le fun hlong => ?_⟩
        rw [skipSlashes_of_head hhead] at hrejected
        exact hrejected hlong hdone
  · intro hfits
    have hnext := hinv.dfsRamfsRename hfits
    refine .rename rfl hnext.sound ?_ ?_ ?_
    · intro hroot hdone
      rcases dfsRamfsRename_cases s oldpath newpath with ⟨errno, hne, hfailed, -⟩ |
        ⟨hnew, -, -⟩ | ⟨d, hnew, -, -⟩
      · rw [hfailed] at hdone
        exact hne (Int.neg_eq_zero.mp hdone)
      · exact (hfits hnew (by simp [hroot])).1 hroot
      · exact (hfits hnew (by simp [hroot])).1 hroot
    · intro hlong hdone
      rcases dfsRamfsRename_cases s oldpath newpath with ⟨errno, hne, hfailed, -⟩ |
        ⟨hnew, hroot, -⟩ | ⟨d, hnew, hfound, -⟩
      · rw [hfailed] at hdone
        exact hne (Int.neg_eq_zero.mp hdone)
      · exact (hfits hnew (by simp [hroot])).1 hroot
      · obtain ⟨-, hhead, hshort⟩ := hfits hnew (by simp [hfound])
        rw [skipSlashes_of_head hhead] at hlong
        exact absurd hshort (Nat.not_lt.mpr hlong)
    · intro hdone
      rcases dfsRamfsRename_cases s oldpath newpath with ⟨errno, hne, hfailed, -⟩ |
        ⟨hnew, hroot, -⟩ | ⟨d, hnew, hfound, hmoved⟩
      · rw [hfailed] at hdone
        exact absurd (Int.neg_eq_zero.mp hdone) hne
      · exact absurd hroot (hfits hnew (by simp [hroot])).1
      · have hpath : skipSlashes newpath ≠ [] := skipSlashes_ne_nil (s := s) (by simp [hnew])
        refine ⟨?_, fun other => ?_⟩
        · rw [hnext.lookup_eq hpath, hfound, hmoved]
          simp
        · rw [hmoved]
          rcases eq_or_ne other d with rfl | hne
          · simp [Ramfs.setDirent, RamfsDirent.rename]
          · simp [Ramfs.setDirent, hne]

section Run

variable {op : RamfsOp}

theorem Inv.exec (hinv : s.Inv) (hprovided : s.Provided op) (hfits : s.Fits op)
    (hexec : s.exec op = some s') : s'.Inv := by
  cases op with
  | openFile path flags alloc =>
    cases hexec
    exact hinv.dfsRamfsOpen hprovided hfits
  | write call =>
    cases hexec
    exact hinv.dfsRamfsWrite
  | unlink path => exact hinv.dfsRamfsUnlink hexec
  | rename oldpath newpath =>
    cases hexec
    exact hinv.dfsRamfsRename hfits

theorem Inv.meets_iff (hinv : s.Inv) (hprovided : s.Provided op) : s.Meets op ↔ s.Fits op := by
  cases op with
  | openFile path flags alloc => exact hinv.openFile_meets_iff hprovided
  | write call => exact iff_of_true (.write rfl hinv.dfsRamfsWrite.sound) trivial
  | unlink path => exact hinv.unlink_meets_iff
  | rename oldpath newpath => exact hinv.rename_meets_iff

theorem Initial.inv (hinit : s.Initial) : s.Inv := by
  refine ⟨by simp [hinit.list], by simp [hinit.list], ?_, by rw [hinit.root]⟩
  intro name d
  simp [hinit.list, hinit.files]

/-- While names fit, the directory is sound, and a call keeps it so and does what it is for
exactly if its name fits. -/
theorem reachable_sound
    (hreach : ramfsMachine.Reachable (fun s op => s.Provided op ∧ s.Fits op) s) :
    s.Sound ∧ ∀ op, s.Provided op → (s.Meets op ↔ s.Fits op) := by
  have hinv : s.Inv := hreach.invariant Inv (fun _ => Initial.inv)
    fun _ _ _ hinv hallowed hexec => hinv.exec hallowed.1 hallowed.2 hexec
  exact ⟨hinv.sound, fun op hprovided => hinv.meets_iff hprovided⟩

end Run

def ramfsStart : Ramfs where
  root := ⟨['.'], none, 0, []⟩
  list := []
  dirent := fun _ => ⟨[], none, 0, []⟩
  file := ⟨none, 0, 0⟩
  result := 0
  files := fun _ => none

theorem ramfsStart_initial : ramfsStart.Initial :=
  ⟨rfl, rfl, fun _ => rfl⟩

def createA : RamfsOp :=
  .openFile ['/', 'a'] ⟨false, true, false, false, false⟩ (some 100)

def ramfsRun : List RamfsOp :=
  [createA, .write ⟨100, 0, 0, 5, some (200, ['x'])⟩, .rename ['/', 'a'] ['b']]

theorem reachable_sound_ramfsRun :
    ∃ s, ramfsMachine.Reachable (fun s op => s.Provided op ∧ s.Fits op) s ∧ s.Sound ∧
      s.lookup ['/', 'b'] = some (.file 100) ∧ (s.dirent 100).size = 5 ∧
      s.Meets (.unlink ['/', 'b']) ∧ ¬ s.Meets (.rename ['b'] ['/', 'c']) := by
  have hrun : (ramfsMachine.run (fun s op => s.Provided op ∧ s.Fits op) ramfsStart ramfsRun).map
      (fun s => (s.lookup ['/', 'b'], (s.dirent 100).size,
        decide (s.Fits (.unlink ['/', 'b']) ∧ ¬ s.Fits (.rename ['b'] ['/', 'c'])))) =
      some (some (.file 100), 5, true) := by
    decide +kernel
  obtain ⟨s, hreach, hend⟩ := Machine.exists_reachable_of_run ramfsStart_initial hrun
  simp only [Prod.mk.injEq, decide_eq_true_eq] at hend
  obtain ⟨hlookup, hsize, hunlink, hrename⟩ := hend
  obtain ⟨hsound, hmeets⟩ := reachable_sound hreach
  exact ⟨s, hreach, hsound, hlookup, hsize, (hmeets (.unlink _) trivial).mpr hunlink,
    fun hmet => hrename ((hmeets (.rename _ _) trivial).mp hmet)⟩

/-- A file that was renamed to a path with a slash is not found. -/
theorem sound_fails_after_rename : ∃ s, ramfsMachine.Reachable Provided s ∧ ¬ s.Sound := by
  have hrun : (ramfsMachine.run Provided ramfsStart
      [createA, .rename ['/', 'a'] ['/', 'b']]).map
      (fun s => (s.lookup ['/', 'b'], s.files ['b'])) = some (none, some 100) := by
    decide +kernel
  obtain ⟨s, hreach, hend⟩ := Machine.exists_reachable_of_run ramfsStart_initial hrun
  obtain ⟨hmissing, hfile⟩ := Prod.mk.inj hend
  refine ⟨s, hreach, fun hsound => ?_⟩
  have hlookup := hsound.lookup ['/', 'b'] (by decide)
  rw [hmissing, show skipSlashes ['/', 'b'] = ['b'] from rfl, hfile] at hlookup
  cases hlookup

end Ramfs

end RtThread.Dfs
