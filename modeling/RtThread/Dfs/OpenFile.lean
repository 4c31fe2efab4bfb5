import RtThread.Dfs.FdTable
import RtThread.Dfs.MountTable

namespace RtThread.Dfs

open Function RtThread.Lib

def lookupLoop (path : CString) :
    List DfsFilesystem → (i : Nat) → (fs : Option Nat) → (prefixlen : Nat) → Option Nat
  | [], _, fs, _ => fs
  | ⟨_, some mountpoint, some _⟩ :: table, i, fs, prefixlen =>
    let fspath := mountpoint.length
    if fspath < prefixlen ∨ ¬ mountpoint <+: path then
      lookupLoop path table (i + 1) fs prefixlen
    else if 1 < fspath ∧ fspath < path.length ∧ path[fspath]? ≠ some '/' then
      lookupLoop path table (i + 1) fs prefixlen
    else lookupLoop path table (i + 1) (some i) fspath
  | _ :: table, i, fs, prefixlen => lookupLoop path table (i + 1) fs prefixlen

def dfsFilesystemLookup (table : List DfsFilesystem) (path : CString) : Option Nat :=
  lookupLoop path table 0 none 0

/-- What `dfs_file_open` keeps of the path, for a filesystem that is mounted at a place. -/
def storedPath (ops : FilesystemOps) (mountpoint fullpath : CString) : CString :=
  if ops.fullpath then fullpath else (dfsSubdir mountpoint fullpath).getD ['/']

def mountPath (mountpoint fullpath : CString) : CString :=
  if mountpoint = ['/'] then fullpath else fullpath.drop mountpoint.length

structure DfsFile where
  path : Option CString
  fops : Option Nat
  deriving DecidableEq

/-- A call of `dfs_file_open`: whether there is memory for the normal form, for that of
`fd_is_open` and for the copy of the path, what the open routine returns, if any, and the
operations that it puts in place of its own. -/
structure OpenCall where
  path : CString
  memory : Bool
  memoryAgain : Bool
  strdup : Bool
  routine : Option Int
  fops : Option Nat

/-- The mounted filesystems, the table, and the descriptors by their address.

History: the file that the last `dfs_file_open` has opened, by the index of its filesystem and
its path. -/
structure OpenState where
  mounts : MountState
  table : FdTable
  file : Nat → DfsFile
  openOn : Nat → Option (Nat × CString)
  result : Int

inductive OpenOp
  | table (op : FdOp)
  | openFile (d : Nat) (call : OpenCall)
  | closeFile (d : Nat) (routine : Option Int)

namespace OpenState

def setFile (s : OpenState) (d : Nat) (file : DfsFile) (openOn : Option (Nat × CString))
    (result : Int) : OpenState :=
  { s with
    file := update s.file d file
    openOn := update s.openOn d openOn
    result := result }

def descriptors (s : OpenState) : List Nat := s.table.fds.filterMap id

def fdIsOpen (memory : Bool) (pathname : CString) (s : OpenState) : Int :=
  match s.mounts.normalize memory pathname with
  | none => -1
  | some fullpath =>
    match (dfsFilesystemLookup s.mounts.filesystemTable fullpath).bind
        (s.mounts.filesystemTable[·]?) with
    | some ⟨_, some mountpoint, some ops⟩ =>
      if s.descriptors.any fun d =>
          (s.file d).fops = some ops.fops ∧
            (s.file d).path = some (mountPath mountpoint fullpath) then 0
      else -1
    | _ => -1

def dfsFileOpen (d : Nat) (call : OpenCall) (s : OpenState) : OpenState :=
  match s.mounts.normalize call.memory call.path with
  | none => { s with result := -enomem }
  | some fullpath =>
    if s.fdIsOpen call.memoryAgain fullpath = 0 then { s with result := -ebusy }
    else
      match dfsFilesystemLookup s.mounts.filesystemTable fullpath with
      | none => { s with result := -enoent }
      | some i =>
        match s.mounts.filesystemTable[i]? with
        | some ⟨_, some mountpoint, some ops⟩ =>
          let path :=
            if ops.fullpath ∨ call.strdup then some (storedPath ops mountpoint fullpath)
            else none
          match call.routine with
          | none => s.setFile d ⟨none, some ops.fops⟩ none (-enosys)
          | some result =>
            let fops := call.fops.getD ops.fops
            if result < 0 then s.setFile d ⟨none, some fops⟩ none result
            else s.setFile d ⟨path, some fops⟩ (some (i, fullpath)) 0
        | _ => { s with result := -enoent }

def dfsFileClose (d : Nat) (routine : Option Int) (s : OpenState) : Option OpenState :=
  (s.file d).fops.map fun fops =>
    let result := routine.getD 0
    if result < 0 then { s with result := result }
    else s.setFile d ⟨none, some fops⟩ none result

def execTable (op : FdOp) (s : OpenState) : Option OpenState :=
  (s.table.exec op).map fun table =>
    match op with
    | .new _ (some d) =>
      if s.table.entry d = none ∧ table.entry d ≠ none then
        { s.setFile d ⟨none, none⟩ none s.result with table := table }
      else { s with table := table }
    | _ => { s with table := table }

def exec (s : OpenState) : OpenOp → Option OpenState
  | .table op => s.execTable op
  | .openFile d call => if s.table.entry d = none then none else some (s.dfsFileOpen d call)
  | .closeFile d routine => if s.table.entry d = none then none else s.dfsFileClose d routine

/-- Any filesystems, mounted at places in the form that `dfs_mount` gives them; no file is open. -/
structure Initial (s : OpenState) : Prop where
  mounted : ∀ fs ∈ s.mounts.filesystemTable, ∀ mountpoint, fs.path = some mountpoint →
    ∃ path, s.mounts.normalize true path = some mountpoint
  table : s.table.Initial
  file : ∀ d, (s.file d).path = none
  openOn : ∀ d, s.openOn d = none

end OpenState

def openMachine : Machine OpenState OpenOp where
  init := OpenState.Initial
  exec := OpenState.exec

namespace OpenState

/-- The file that a path stands for: a filesystem, and the path that leads into it. -/
def resolve (s : OpenState) (pathname : CString) : Option (Nat × CString) :=
  (s.mounts.normalize true pathname).bind fun fullpath =>
    (dfsFilesystemLookup s.mounts.filesystemTable fullpath).map fun i => (i, fullpath)

def Agrees (s : OpenState) (memory : Bool) (pathname : CString) : Prop :=
  s.fdIsOpen memory pathname = 0 ↔
    ∃ d ∈ s.descriptors, ∃ file, s.resolve pathname = some file ∧ s.openOn d = some file

/-- The path is kept in the form that is looked for: the filesystem is that of the root, or it is
given paths without the mount point, and the path is not the mount point itself. -/
def SameForm (ops : FilesystemOps) (mountpoint fullpath : CString) : Prop :=
  mountpoint = ['/'] ∨ ops.fullpath = false ∧ ∃ rest, fullpath = mountpoint ++ '/' :: rest

def Kept (s : OpenState) (ops : FilesystemOps) (d : Nat) : Prop :=
  (s.file d).fops = some ops.fops ∧ (s.file d).path ≠ none

/-- A descriptor is open on another file, which has the same operations, and its path there is the
one that is looked for. -/
def Collides (s : OpenState) (ops : FilesystemOps) (mountpoint : CString)
    (file : Nat × CString) : Prop :=
  ∃ d ∈ s.descriptors, s.Kept ops d ∧ ∃ other fs otherPoint otherOps,
    s.openOn d = some other ∧ other ≠ file ∧
      s.mounts.filesystemTable[other.1]? = some fs ∧ fs.path = some otherPoint ∧
      fs.ops = some otherOps ∧
      storedPath otherOps otherPoint other.2 = mountPath mountpoint file.2

def Distinguished (s : OpenState) (memory : Bool) (pathname : CString) : Prop :=
  ∀ file fs mountpoint ops, s.resolve pathname = some file →
    s.mounts.filesystemTable[file.1]? = some fs → fs.path = some mountpoint →
    fs.ops = some ops →
    ((∃ d ∈ s.descriptors, s.openOn d = some file) →
      memory = true ∧
        (SameForm ops mountpoint file.2 ∧
            (∃ d ∈ s.descriptors, s.openOn d = some file ∧ s.Kept ops d) ∨
          s.Collides ops mountpoint file)) ∧
    ((¬ ∃ d ∈ s.descriptors, s.openOn d = some file) → memory = true →
      ¬ s.Collides ops mountpoint file)

end OpenState

section Paths

variable {mountpoint fullpath path : CString} {ops : FilesystemOps} {table : List DfsFilesystem}
  {i found prefixlen : Nat} {fs : Option Nat}

structure MountedAbove (fs : DfsFilesystem) (path : CString) : Prop where
  ops : fs.ops ≠ none
  above : ∃ mountpoint, fs.path = some mountpoint ∧ mountpoint <+: path ∧
    (1 < mountpoint.length → mountpoint.length < path.length →
      path[mountpoint.length]? = some '/')

theorem lookupLoop_sound (hloop : lookupLoop path table i fs prefixlen = some found) :
    fs = some found ∨ ∃ k entry, found = i + k ∧ table[k]? = some entry ∧
      MountedAbove entry path := by
  induction table generalizing i fs prefixlen with
  | nil => exact .inl hloop
  | cons entry table ih =>
    have hrest : ∀ {fs prefixlen}, lookupLoop path table (i + 1) fs prefixlen = some found →
        fs = some found ∨ ∃ k other, found = i + k ∧ (entry :: table)[k]? = some other ∧
          MountedAbove other path := by
      intro fs prefixlen hloop
      rcases ih hloop with hsame | ⟨k, other, hk, hother, habove⟩
      · exact .inl hsame
      · exact .inr ⟨k + 1, other, by omega, hother, habove⟩
    unfold lookupLoop at hloop
    split at hloop
    · cases ‹entry :: table = []›
    next devId mountpoint ops rest heq =>
      obtain ⟨rfl, rfl⟩ := List.cons.inj heq
      dsimp only at hloop
      split at hloop
      · exact hrest hloop
      next hmatches =>
        split at hloop
        · exact hrest hloop
        next hseparator =>
          rcases hrest hloop with hfound | hlater
          · refine .inr ⟨0, _, (Option.some.inj hfound).symm, rfl, Option.some_ne_none _,
              mountpoint, rfl, ?_, ?_⟩
            · exact not_not.mp fun hnot => hmatches (.inr hnot)
            · intro hlong hshort
              exact not_not.mp fun hnot => hseparator ⟨hlong, hshort, hnot⟩
          · exact .inr hlater
    · obtain ⟨-, rfl⟩ := List.cons.inj ‹entry :: table = _›
      exact hrest hloop

theorem dfsFilesystemLookup_sound (hlookup : dfsFilesystemLookup table path = some found) :
    ∃ entry, table[found]? = some entry ∧ MountedAbove entry path := by
  rcases lookupLoop_sound hlookup with hnone | ⟨k, entry, hk, hentry, habove⟩
  · cases hnone
  · rw [Nat.zero_add] at hk
    exact ⟨entry, hk ▸ hentry, habove⟩

theorem storedPath_eq_iff (hpoint : mountpoint ≠ []) (habove : mountpoint <+: fullpath)
    (hsecond : ∀ rest, fullpath = '/' :: rest → rest.head? ≠ some '/') :
    storedPath ops mountpoint fullpath = mountPath mountpoint fullpath ↔
      OpenState.SameForm ops mountpoint fullpath := by
  obtain ⟨rest, rfl⟩ := habove
  unfold storedPath mountPath OpenState.SameForm
  rcases eq_or_ne mountpoint ['/'] with rfl | hroot
  · refine iff_of_true ?_ (.inl rfl)
    rw [if_pos rfl]
    split
    · rfl
    · cases rest with
      | nil => rfl
      | cons c rest =>
        have hc : c ≠ '/' := fun heq => hsecond (c :: rest) rfl (by rw [heq]; rfl)
        rw [dfsSubdir_append hpoint hc]
        rfl
  · have hlength : mountpoint.length ≠ 0 := fun hzero =>
      hpoint (List.length_eq_zero_iff.mp hzero)
    rw [if_neg hroot, List.drop_left]
    cases hfullpath : ops.fullpath with
    | true =>
      refine iff_of_false (fun heq => ?_) (by simp [hroot])
      have hsame := congrArg List.length heq
      simp only [if_true, List.length_append] at hsame
      omega
    | false =>
      simp only [Bool.false_eq_true, if_false, hroot, false_or, true_and]
      cases rest with
      | nil =>
        refine iff_of_false (by simp) ?_
        rintro ⟨rest, heq⟩
        simp at heq
      | cons c rest =>
        rcases eq_or_ne c '/' with rfl | hc
        · exact iff_of_true (by simp) ⟨rest, rfl⟩
        · refine iff_of_false (fun heq => ?_) ?_
          · rw [dfsSubdir_append hpoint hc, Option.getD_some] at heq
            have hsame := congrArg List.length heq
            simp only [List.length_drop, List.length_append, List.length_cons] at hsame
            omega
          · rintro ⟨other, heq⟩
            exact hc (List.cons.inj (List.append_cancel_left heq)).1

end Paths

namespace OpenState

/-- What every state keeps: a descriptor that is open on a file has the path that is kept for
it, and one that is not has none. -/
structure Inv (s : OpenState) : Prop where
  mounted : ∀ fs ∈ s.mounts.filesystemTable, ∀ mountpoint, fs.path = some mountpoint →
    mountpoint ≠ []
  closed : ∀ d, s.openOn d = none → (s.file d).path = none
  stored : ∀ d file, s.openOn d = some file → ∃ fs mountpoint ops,
    s.mounts.filesystemTable[file.1]? = some fs ∧ fs.path = some mountpoint ∧
      fs.ops = some ops ∧
      ∀ path, (s.file d).path = some path → path = storedPath ops mountpoint file.2

variable {s s' : OpenState} {d : Nat} {call : OpenCall}

section Steps

theorem Inv.drop (hinv : s.Inv) (fops : Option Nat) (result : Int) :
    (s.setFile d ⟨none, fops⟩ none result).Inv := by
  refine ⟨hinv.mounted, ?_, ?_⟩
  · intro other hnone
    rcases eq_or_ne other d with rfl | hne
    · simp [setFile]
    · simp only [setFile, update_of_ne hne] at hnone ⊢
      exact hinv.closed other hnone
  · intro other file hopen
    rcases eq_or_ne other d with rfl | hne
    · simp [setFile] at hopen
    · simp only [setFile, update_of_ne hne] at hopen ⊢
      exact hinv.stored other file hopen

theorem Inv.opened {i : Nat} {fullpath mountpoint : CString} {devId : Option Nat}
    {ops : FilesystemOps} {path : Option CString} {fops : Nat} {result : Int} (hinv : s.Inv)
    (hentry : s.mounts.filesystemTable[i]? = some ⟨devId, some mountpoint, some ops⟩)
    (hpath : ∀ stored, path = some stored → stored = storedPath ops mountpoint fullpath) :
    (s.setFile d ⟨path, some fops⟩ (some (i, fullpath)) result).Inv := by
  refine ⟨hinv.mounted, ?_, ?_⟩
  · intro other hnone
    rcases eq_or_ne other d with rfl | hne
    · simp [setFile] at hnone
    · simp only [setFile, update_of_ne hne] at hnone ⊢
      exact hinv.closed other hnone
  · intro other file hopen
    rcases eq_or_ne other d with rfl | hne
    · simp only [setFile, update_self, Option.some.injEq] at hopen ⊢
      subst hopen
      exact ⟨_, mountpoint, ops, hentry, rfl, rfl, hpath⟩
    · simp only [setFile, update_of_ne hne] at hopen ⊢
      exact hinv.stored other file hopen

theorem Inv.of_files (hinv : s.Inv) (hmounts : s'.mounts = s.mounts) (hfile : s'.file = s.file)
    (hopen : s'.openOn = s.openOn) : s'.Inv := by
  refine ⟨?_, ?_, ?_⟩
  · rw [hmounts]
    exact hinv.mounted
  · rw [hfile, hopen]
    exact hinv.closed
  · rw [hmounts, hfile, hopen]
    exact hinv.stored

theorem Inv.dfsFileOpen (hinv : s.Inv) (call : OpenCall) : (s.dfsFileOpen d call).Inv := by
  have hfailed : ∀ result, ({ s with result := result } : OpenState).Inv :=
    fun _ => hinv.of_files rfl rfl rfl
  unfold OpenState.dfsFileOpen
  split
  · exact hfailed _
  next fullpath hnormal =>
    split
    · exact hfailed _
    · split
      · exact hfailed _
      next i hlookup =>
        split
        next devId mountpoint ops hentry =>
          dsimp only
          split
          · exact hinv.drop _ _
          next result hroutine =>
            split
            · exact hinv.drop _ _
            · refine hinv.opened hentry fun stored hstored => ?_
              split at hstored
              · exact (Option.some.inj hstored).symm
              · cases hstored
        · exact hfailed _

theorem Inv.dfsFileClose {routine : Option Int} (hinv : s.Inv)
    (hclose : s.dfsFileClose d routine = some s') : s'.Inv := by
  obtain ⟨fops, -, rfl⟩ := Option.map_eq_some_iff.mp hclose
  dsimp only
  split
  · exact hinv.of_files rfl rfl rfl
  · exact hinv.drop _ _

theorem Inv.execTable {op : FdOp} (hinv : s.Inv) (hexec : s.execTable op = some s') : s'.Inv := by
  obtain ⟨table, -, rfl⟩ := Option.map_eq_some_iff.mp hexec
  split
  · split
    · exact (hinv.drop _ s.result).of_files rfl rfl rfl
    · exact hinv.of_files rfl rfl rfl
  · exact hinv.of_files rfl rfl rfl

theorem Inv.exec {op : OpenOp} (hinv : s.Inv) (hexec : s.exec op = some s') : s'.Inv := by
  cases op with
  | table op => exact hinv.execTable hexec
  | openFile d call =>
    simp only [OpenState.exec] at hexec
    split at hexec
    · cases hexec
    · cases hexec
      exact hinv.dfsFileOpen call
  | closeFile d routine =>
    simp only [OpenState.exec] at hexec
    split at hexec
    · cases hexec
    · exact hinv.dfsFileClose hexec

theorem Initial.inv (hinit : s.Initial) : s.Inv := by
  refine ⟨?_, fun d _ => hinit.file d, ?_⟩
  · intro fs hfs mountpoint hpoint
    obtain ⟨path, hpath⟩ := hinit.mounted fs hfs mountpoint hpoint
    exact dfsNormalizePath_ne_nil hpath
  · intro d file hopen
    rw [hinit.openOn d] at hopen
    cases hopen

end Steps

section Detection

variable {memory : Bool} {pathname fullpath mountpoint : CString} {ops : FilesystemOps}
  {devId : Option Nat} {i : Nat}

theorem normalize_eq (mounts : MountState) : mounts.normalize memory pathname =
    if memory = true then mounts.normalize true pathname else none := by
  cases memory <;> rfl

theorem resolve_eq_some : s.resolve pathname = some (i, fullpath) ↔
    s.mounts.normalize true pathname = some fullpath ∧
      dfsFilesystemLookup s.mounts.filesystemTable fullpath = some i := by
  simp only [resolve, Option.bind_eq_some_iff, Option.map_eq_some_iff, Prod.mk.injEq]
  constructor
  · rintro ⟨path, hnormal, found, hlookup, rfl, rfl⟩
    exact ⟨hnormal, hlookup⟩
  · rintro ⟨hnormal, hlookup⟩
    exact ⟨fullpath, hnormal, i, hlookup, rfl, rfl⟩

theorem fdIsOpen_of_unresolved (hnone : s.resolve pathname = none) :
    s.fdIsOpen memory pathname ≠ 0 := by
  unfold fdIsOpen
  split
  · decide
  next fullpath hnormal =>
    rw [normalize_eq] at hnormal
    split at hnormal
    · cases hlookup : dfsFilesystemLookup s.mounts.filesystemTable fullpath with
      | none =>
        simp only [Option.bind_none]
        decide
      | some i =>
        cases hnone.symm.trans (resolve_eq_some.mpr ⟨hnormal, hlookup⟩)
    · cases hnormal

theorem fdIsOpen_eq_zero (hfile : s.resolve pathname = some (i, fullpath))
    (hentry : s.mounts.filesystemTable[i]? = some ⟨devId, some mountpoint, some ops⟩) :
    s.fdIsOpen memory pathname = 0 ↔ memory = true ∧ ∃ d ∈ s.descriptors,
      (s.file d).fops = some ops.fops ∧
        (s.file d).path = some (mountPath mountpoint fullpath) := by
  obtain ⟨hnormal, hlookup⟩ := resolve_eq_some.mp hfile
  unfold fdIsOpen
  rw [normalize_eq]
  cases memory with
  | false => simp
  | true => simp [hnormal, hlookup, hentry]

/-- What the search finds: a descriptor that is open on the file, or one that is mistaken for
such. -/
theorem Inv.found_iff (hinv : s.Inv)
    (hentry : s.mounts.filesystemTable[i]? = some ⟨devId, some mountpoint, some ops⟩)
    (hform : storedPath ops mountpoint fullpath = mountPath mountpoint fullpath ↔
      SameForm ops mountpoint fullpath) :
    (∃ d ∈ s.descriptors, (s.file d).fops = some ops.fops ∧
        (s.file d).path = some (mountPath mountpoint fullpath)) ↔
      SameForm ops mountpoint fullpath ∧
          (∃ d ∈ s.descriptors, s.openOn d = some (i, fullpath) ∧ s.Kept ops d) ∨
        s.Collides ops mountpoint (i, fullpath) := by
  constructor
  · rintro ⟨d, hd, hfops, hpath⟩
    have hkept : s.Kept ops d := ⟨hfops, by simp [hpath]⟩
    obtain ⟨file, hopen⟩ : ∃ file, s.openOn d = some file := by
      refine Option.ne_none_iff_exists'.mp fun hnone => ?_
      cases (hinv.closed d hnone).symm.trans hpath
    obtain ⟨fs, otherPoint, otherOps, hfs, hpoint, hops, hstored⟩ := hinv.stored d file hopen
    have hsame := hstored _ hpath
    rcases eq_or_ne file (i, fullpath) with rfl | hne
    · obtain rfl := Option.some.inj (hentry.symm.trans hfs)
      obtain rfl := Option.some.inj hpoint
      obtain rfl := Option.some.inj hops
      exact .inl ⟨hform.mp hsame.symm, d, hd, hopen, hkept⟩
    · exact .inr ⟨d, hd, hkept, file, fs, otherPoint, otherOps, hopen, hne, hfs, hpoint, hops,
        hsame.symm⟩
  · rintro (⟨hsame, d, hd, hopen, hfops, hpath⟩ |
      ⟨d, hd, ⟨hfops, hpath⟩, file, fs, otherPoint, otherOps, hopen, -, hfs, hpoint, hops, hsame⟩)
    · obtain ⟨fs, otherPoint, otherOps, hfs, hpoint, hops, hstored⟩ := hinv.stored d _ hopen
      obtain rfl := Option.some.inj (hentry.symm.trans hfs)
      obtain rfl := Option.some.inj hpoint
      obtain rfl := Option.some.inj hops
      obtain ⟨path, hpath⟩ := Option.ne_none_iff_exists'.mp hpath
      exact ⟨d, hd, hfops, by rw [hpath, hstored path hpath, hform.mpr hsame]⟩
    · obtain ⟨fs', otherPoint', otherOps', hfs', hpoint', hops', hstored⟩ :=
        hinv.stored d _ hopen
      obtain rfl := Option.some.inj (hfs.symm.trans hfs')
      obtain rfl := Option.some.inj (hpoint.symm.trans hpoint')
      obtain rfl := Option.some.inj (hops.symm.trans hops')
      obtain ⟨path, hpath⟩ := Option.ne_none_iff_exists'.mp hpath
      exact ⟨d, hd, hfops, by rw [hpath, hstored path hpath, hsame]⟩

/-- The search for an open file agrees with the opens just where the file of the path can be
told from others. -/
theorem reachable_agrees_iff (hreach : openMachine.Reachable (fun _ _ => True) s)
    (memory : Bool) (pathname : CString) :
    s.Agrees memory pathname ↔ s.Distinguished memory pathname := by
  have hinv : s.Inv := hreach.invariant Inv (fun _ => Initial.inv)
    fun _ _ _ hinv _ hexec => hinv.exec hexec
  cases hfile : s.resolve pathname with
  | none =>
    refine iff_of_true (iff_of_false (fdIsOpen_of_unresolved hfile) ?_) ?_
    · rintro ⟨d, -, file, hsome, -⟩
      cases hfile.symm.trans hsome
    · intro file fs mountpoint ops hsome
      cases hfile.symm.trans hsome
  | some file =>
    obtain ⟨i, fullpath⟩ := file
    obtain ⟨hnormal, hlookup⟩ := resolve_eq_some.mp hfile
    obtain ⟨⟨devId, path, entryOps⟩, hentry, hops, mountpoint, hpoint, habove, -⟩ :=
      dfsFilesystemLookup_sound hlookup
    obtain ⟨ops, rfl⟩ := Option.ne_none_iff_exists'.mp hops
    obtain rfl : path = some mountpoint := hpoint
    have hform : storedPath ops mountpoint fullpath = mountPath mountpoint fullpath ↔
        SameForm ops mountpoint fullpath := by
      refine storedPath_eq_iff
        (hinv.mounted _ (List.mem_of_getElem? hentry) mountpoint rfl) habove ?_
      rintro rest rfl
      exact (dfsNormalizePath_normal hnormal rfl).second
    have hopen : (∃ d ∈ s.descriptors, ∃ file, s.resolve pathname = some file ∧
        s.openOn d = some file) ↔ ∃ d ∈ s.descriptors, s.openOn d = some (i, fullpath) := by
      simp [hfile]
    have hkept : (∃ d ∈ s.descriptors, s.openOn d = some (i, fullpath) ∧ s.Kept ops d) →
        ∃ d ∈ s.descriptors, s.openOn d = some (i, fullpath) := by
      rintro ⟨d, hd, hon, -⟩
      exact ⟨d, hd, hon⟩
    have hdistinguished : s.Distinguished memory pathname ↔
        ((∃ d ∈ s.descriptors, s.openOn d = some (i, fullpath)) → memory = true ∧
          (SameForm ops mountpoint fullpath ∧
              (∃ d ∈ s.descriptors, s.openOn d = some (i, fullpath) ∧ s.Kept ops d) ∨
            s.Collides ops mountpoint (i, fullpath))) ∧
        ((¬ ∃ d ∈ s.descriptors, s.openOn d = some (i, fullpath)) → memory = true →
          ¬ s.Collides ops mountpoint (i, fullpath)) := by
      constructor
      · exact fun h => h _ _ mountpoint ops hfile hentry rfl rfl
      · intro h file fs point other hsome hfs hpath hother
        obtain rfl := Option.some.inj (hfile.symm.trans hsome)
        obtain rfl := Option.some.inj (hentry.symm.trans hfs)
        obtain rfl := Option.some.inj hpath
        obtain rfl := Option.some.inj hother
        exact h
    rw [Agrees, fdIsOpen_eq_zero hfile hentry, hinv.found_iff hentry hform, hopen, hdistinguished]
    constructor
    · intro hagrees
      exact ⟨hagrees.mpr, fun hnone hmemory hcollides =>
        hnone (hagrees.mp ⟨hmemory, .inr hcollides⟩)⟩
    · rintro ⟨hsome, hnone⟩
      refine ⟨?_, hsome⟩
      rintro ⟨hmemory, ⟨-, hfound⟩ | hcollides⟩
      · exact hkept hfound
      · exact not_not.mp fun hclosed => hnone hclosed hmemory hcollides

end Detection

def openStart : OpenState where
  mounts :=
    { workdir := none
      filesystemOperationTable := []
      filesystemTable :=
        [⟨none, some ['/'], some ⟨['r', 'a', 'm'], false, 1, true, true⟩⟩,
          ⟨some 0, some ['/', 'a'], some ⟨['e', 'l', 'm'], false, 2, true, true⟩⟩,
          ⟨some 1, some ['/', 'b'], some ⟨['e', 'l', 'm'], false, 2, true, true⟩⟩]
      errno := 0
      result := 0 }
  table := FdTable.fdStart
  file := fun _ => ⟨none, none⟩
  openOn := fun _ => none
  result := 0

theorem openStart_initial : openStart.Initial := by
  refine ⟨?_, FdTable.fdStart_initial, fun _ => rfl, fun _ => rfl⟩
  intro fs hfs mountpoint hpoint
  simp only [openStart, List.mem_cons, List.not_mem_nil, or_false] at hfs
  rcases hfs with rfl | rfl | rfl <;> cases hpoint
  · exact ⟨['/'], by decide⟩
  · exact ⟨['/', 'a'], by decide⟩
  · exact ⟨['/', 'b'], by decide⟩

def plainOpen (d : Nat) (path : CString) : OpenOp :=
  .openFile d ⟨path, true, true, true, some 0, none⟩

def openRun : List OpenOp :=
  [.table (.new true (some 100)), plainOpen 100 ['/', 'b', '/', '.', '.', '/', 'a', '/', '/', 'x']]

theorem reachable_agrees_iff_openRun :
    ∃ s, openMachine.Reachable (fun _ _ => True) s ∧ s.openOn 100 = some (1, ['/', 'a', '/', 'x']) ∧
      s.Distinguished true ['/', 'a', '/', 'x'] ∧
      ¬ s.Distinguished true ['/', 'b', '/', 'x'] := by
  have hrun : (openMachine.run (fun _ _ => True) openStart openRun).map
      (fun s => ((s.descriptors, s.openOn 100),
        decide (s.resolve ['/', 'a', '/', 'x'] = some (1, ['/', 'a', '/', 'x']) ∧
          s.resolve ['/', 'b', '/', 'x'] = some (2, ['/', 'b', '/', 'x'])),
        decide (s.fdIsOpen true ['/', 'a', '/', 'x'] = 0 ∧
          s.fdIsOpen true ['/', 'b', '/', 'x'] = 0))) =
      some (([100], some (1, ['/', 'a', '/', 'x'])), true, true) := by
    decide +kernel
  obtain ⟨s, hreach, hend⟩ := Machine.exists_reachable_of_run openStart_initial hrun
  simp only [Prod.mk.injEq, decide_eq_true_eq] at hend
  obtain ⟨⟨hdescriptors, hon⟩, ⟨hfirst, hsecond⟩, hopen, hmistaken⟩ := hend
  refine ⟨s, hreach, hon, (reachable_agrees_iff hreach _ _).mp ?_, fun hclear => ?_⟩
  · exact iff_of_true hopen ⟨100, by simp [hdescriptors], _, hfirst, hon⟩
  · obtain ⟨d, hd, file, hfile, hother⟩ := ((reachable_agrees_iff hreach _ _).mpr hclear).mp hmistaken
    obtain rfl : d = 100 := by simpa [hdescriptors] using hd
    cases hfile.symm.trans hsecond
    cases hother.symm.trans hon

/-- With a file of one mount open, the file of that name in the other is said to be. -/
theorem agrees_fails_for_other_mount :
    ∃ s, openMachine.Reachable (fun _ _ => True) s ∧ ¬ s.Agrees true ['/', 'b', '/', 'x'] := by
  have hrun : (openMachine.run (fun _ _ => True) openStart openRun).map
      (fun s => ((s.descriptors, s.openOn 100), s.resolve ['/', 'b', '/', 'x'],
        s.fdIsOpen true ['/', 'b', '/', 'x'])) =
      some (([100], some (1, ['/', 'a', '/', 'x'])), some (2, ['/', 'b', '/', 'x']), 0) := by
    decide +kernel
  obtain ⟨s, hreach, hend⟩ := Machine.exists_reachable_of_run openStart_initial hrun
  simp only [Prod.mk.injEq] at hend
  obtain ⟨⟨hdescriptors, hon⟩, hresolved, hmistaken⟩ := hend
  refine ⟨s, hreach, fun hagrees => ?_⟩
  obtain ⟨d, hd, file, hfile, hother⟩ := hagrees.mp hmistaken
  obtain rfl : d = 100 := by simpa [hdescriptors] using hd
  cases hfile.symm.trans hresolved
  cases hother.symm.trans hon

end OpenState

end RtThread.Dfs
