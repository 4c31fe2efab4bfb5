import Mathlib.Data.List.Nodup
import RtThread.Dfs.Path
import RtThread.Lib.Transition

namespace RtThread.Dfs

open RtThread.Lib

/-! The table of mounted filesystems of `dfs_fs.c`.  What devices and filesystems answer is part of
a call. -/

abbrev enoent : Int := 2
abbrev enomem : Int := 12
abbrev ebusy : Int := 16
abbrev enodev : Int := 19
abbrev enotdir : Int := 20
abbrev einval : Int := 22
abbrev enospc : Int := 28
abbrev enosys : Int := 38

/-- A filesystem type; `fops` is the address of its file operations, and `mount` and `unmount`
say whether it has these functions. -/
structure FilesystemOps where
  name : CString
  fullpath : Bool
  fops : Nat
  mount : Bool
  unmount : Bool
  deriving DecidableEq

structure DfsFilesystem where
  devId : Option Nat
  path : Option CString
  ops : Option FilesystemOps
  deriving DecidableEq

/-- `memset(fs, 0, sizeof(struct dfs_filesystem))` -/
def DfsFilesystem.clear : DfsFilesystem := ⟨none, none, none⟩

structure MountState where
  workdir : Option CString
  filesystemOperationTable : List (Option FilesystemOps)
  filesystemTable : List DfsFilesystem
  errno : Int
  result : Int

/-- A call of `dfs_mount`, with the device that `rt_device_find` finds, whether there is memory
for the path, whether the directory can be opened, whether `rt_device_open` succeeds and
whether the mount function does. -/
structure MountCall where
  deviceName : Option CString
  path : CString
  filesystemtype : CString
  device : Option Nat
  memory : Bool
  directory : Bool
  opened : Bool
  mounted : Bool

/-- A call of `dfs_unmount`, with what the unmount function says. -/
structure UnmountCall where
  specialfile : CString
  memory : Bool
  unmounted : Bool

namespace MountState

def normalize (s : MountState) (memory : Bool) (path : CString) : Option CString :=
  if memory then dfsNormalizePath s.workdir none path else none

def fail (s : MountState) (errno : Int) : MountState := { s with errno := errno, result := -1 }

def setEntry (s : MountState) (i : Nat) (fs : DfsFilesystem) (result : Int) : MountState :=
  { s with filesystemTable := s.filesystemTable.set i fs, result := result }

def dfsMount (call : MountCall) (s : MountState) : MountState :=
  if call.deviceName ≠ none ∧ call.device = none then s.fail (-enodev)
  else
    let devId := if call.deviceName = none then none else call.device
    match s.filesystemOperationTable.find? (·.any (·.name = call.filesystemtype)) with
    | some (some ops) =>
      if ops.mount = false then s.fail (-enosys)
      else
        match s.normalize call.memory call.path with
        | none => s.fail (-enotdir)
        | some fullpath =>
          if fullpath ≠ ['/'] ∧ fullpath ≠ ['/', 'd', 'e', 'v'] ∧ call.directory = false then
            s.fail (-enotdir)
          else if s.filesystemTable.any (fun iter =>
              iter.ops.isSome && iter.path = some call.path) then s.fail (-einval)
          else
            match s.filesystemTable.findIdx? (·.ops.isNone) with
            | none => s.fail (-enospc)
            | some i =>
              let s := s.setEntry i ⟨devId, some fullpath, some ops⟩ 0
              if devId ≠ none ∧ call.opened = false then s.setEntry i .clear (-1)
              else if call.mounted = false then s.setEntry i .clear (-1)
              else s
    | _ => s.fail (-enodev)

def dfsUnmount (call : UnmountCall) (s : MountState) : Option MountState :=
  match s.normalize call.memory call.specialfile with
  | none => some (s.fail (-enotdir))
  | some fullpath =>
    match s.filesystemTable.findIdx? (·.path = some fullpath) with
    | none => some { s with result := -1 }
    | some i =>
      (s.filesystemTable[i]?.bind (·.ops)).map fun ops =>
        if ops.unmount = false ∨ call.unmounted = false then { s with result := -1 }
        else s.setEntry i .clear 0

end MountState

inductive MountOp
  | mount (call : MountCall)
  | unmount (call : UnmountCall)

def MountState.exec (s : MountState) : MountOp → Option MountState
  | .mount call => some (s.dfsMount call)
  | .unmount call => s.dfsUnmount call

/-- After `dfs_init`, with any types registered. -/
def MountState.Initial (s : MountState) : Prop := ∀ fs ∈ s.filesystemTable, fs = .clear

def mountMachine : Machine MountState MountOp where
  init := MountState.Initial
  exec := MountState.exec

namespace MountState

def Served (s : MountState) (call : MountCall) (fullpath : CString) : Prop :=
  (call.deviceName ≠ none → call.device ≠ none ∧ call.opened = true) ∧
    ((s.filesystemOperationTable.find? (·.any (·.name = call.filesystemtype))).join.any
      (·.mount)) = true ∧
    (fullpath ≠ ['/'] → fullpath ≠ ['/', 'd', 'e', 'v'] → call.directory = true) ∧
    (∃ fs ∈ s.filesystemTable, fs.ops = none) ∧ call.mounted = true

/-- The path of a mount that goes through is not that of an occupied entry in another form, and
has not lost its root. -/
def MountsApart (s : MountState) : MountOp → Prop
  | .mount call =>
    match s.normalize call.memory call.path with
    | none => True
    | some fullpath =>
      s.Served call fullpath →
        fullpath.head? = some '/' ∧
          ((∃ fs ∈ s.filesystemTable, fs.path = some fullpath) →
            ∃ fs ∈ s.filesystemTable, fs.path = some call.path)
  | .unmount _ => True

instance (s : MountState) (call : MountCall) (fullpath : CString) :
    Decidable (s.Served call fullpath) := by
  unfold Served
  infer_instance

instance (s : MountState) (op : MountOp) : Decidable (s.MountsApart op) := by
  unfold MountsApart
  split
  · split <;> infer_instance
  · infer_instance

structure Integrity (s : MountState) : Prop where
  defined : ∀ op, s.exec op ≠ none
  normal : ∀ fs ∈ s.filesystemTable, ∀ path, fs.path = some path → Normal path
  distinct : (s.filesystemTable.filterMap (·.path)).Nodup
  unchanged : ∀ call s', s.exec (.mount call) = some s' → s'.result = -1 →
    s'.filesystemTable = s.filesystemTable
  removed : ∀ call s' fullpath, s.normalize call.memory call.specialfile = some fullpath →
    s.exec (.unmount call) = some s' → s'.result = 0 →
    ∃ i fs, s.filesystemTable[i]? = some fs ∧ fs.path = some fullpath ∧
      s'.filesystemTable = s.filesystemTable.set i .clear ∧
      ∀ other ∈ s'.filesystemTable, other.path ≠ some fullpath

structure Inv (s : MountState) : Prop where
  entry : ∀ fs ∈ s.filesystemTable, fs = .clear ∨ fs.path ≠ none ∧ fs.ops ≠ none
  normal : ∀ fs ∈ s.filesystemTable, ∀ path, fs.path = some path → Normal path
  distinct : (s.filesystemTable.filterMap (·.path)).Nodup

section Entries

variable {α : Type u} {β : Type v}

theorem filterMap_set_perm {l : List α} {i : Nat} {old : α} (f : α → Option β) (new : α)
    (hget : l[i]? = some old) :
    ((f old).toList ++ (l.set i new).filterMap f).Perm ((f new).toList ++ l.filterMap f) := by
  induction l generalizing i with
  | nil => simp at hget
  | cons a l ih =>
    cases i with
    | zero =>
      simp only [List.getElem?_cons_zero, Option.some.injEq] at hget
      subst hget
      simp only [List.set_cons_zero, List.filterMap_cons]
      cases f a <;> cases f new <;> simp [List.Perm.swap]
    | succ i =>
      simp only [List.getElem?_cons_succ] at hget
      have hrest := ih hget
      simp only [List.set_cons_succ, List.filterMap_cons]
      cases hfa : f a with
      | none => exact hrest
      | some b =>
        calc
          ((f old).toList ++ b :: (l.set i new).filterMap f).Perm
              (b :: ((f old).toList ++ (l.set i new).filterMap f)) := List.perm_middle
          _ |>.Perm (b :: ((f new).toList ++ l.filterMap f)) := hrest.cons b
          _ |>.Perm ((f new).toList ++ b :: l.filterMap f) := List.perm_middle.symm

end Entries

variable {s s' : MountState} {call : MountCall} {fullpath : CString}

theorem dfsMount_cases (hinv : s.Inv) (call : MountCall) :
    ((s.dfsMount call).result = -1 ∧
      (s.dfsMount call).filesystemTable = s.filesystemTable) ∨
    ∃ fullpath i devId ops, s.normalize call.memory call.path = some fullpath ∧
      s.Served call fullpath ∧ s.filesystemTable[i]? = some .clear ∧
      (∀ fs ∈ s.filesystemTable, fs.path ≠ some call.path) ∧
      s.dfsMount call = s.setEntry i ⟨devId, some fullpath, some ops⟩ 0 := by
  have hcleared : ∀ i, s.filesystemTable.findIdx? (·.ops.isNone) = some i →
      s.filesystemTable[i]? = some .clear := by
    intro i hi
    obtain ⟨hlt, hnone, _⟩ := List.findIdx?_eq_some_iff_getElem.mp hi
    rw [Option.isNone_iff_eq_none] at hnone
    rw [List.getElem?_eq_getElem hlt]
    cases hinv.entry _ (List.getElem_mem hlt) with
    | inl hclear => rw [hclear]
    | inr hfull => exact absurd hnone hfull.2
  have hrestore : ∀ i fs result, s.filesystemTable[i]? = some .clear →
      ((s.setEntry i fs 0).setEntry i .clear result).filesystemTable = s.filesystemTable := by
    intro i fs result hi
    obtain ⟨hlt, hget⟩ := List.getElem?_eq_some_iff.mp hi
    simp only [setEntry, List.set_set, ← hget, List.set_getElem_self]
  unfold dfsMount
  split
  · exact .inl ⟨rfl, rfl⟩
  next hdevice =>
    generalize hdev : (if call.deviceName = none then none else call.device) = devId
    dsimp only
    split
    case h_2 => exact .inl ⟨rfl, rfl⟩
    rename_i ops hfind
    split
    · exact .inl ⟨rfl, rfl⟩
    next hmount =>
      split
      · exact .inl ⟨rfl, rfl⟩
      next fullpath hpath =>
        split
        · exact .inl ⟨rfl, rfl⟩
        next hdirectory =>
          split
          · exact .inl ⟨rfl, rfl⟩
          next hunmounted =>
            split
            · exact .inl ⟨rfl, rfl⟩
            next i hi =>
              have hclear := hcleared i hi
              split
              · exact .inl ⟨rfl, hrestore _ _ _ hclear⟩
              next hopened =>
                split
                · exact .inl ⟨rfl, hrestore _ _ _ hclear⟩
                next hanswer =>
                  refine .inr ⟨fullpath, i, devId, ops, hpath, ⟨?_, ?_, ?_, ?_, ?_⟩, hclear, ?_, rfl⟩
                  · intro hname
                    rw [if_neg hname] at hdev
                    subst hdev
                    have hfound : call.device ≠ none := fun hnone => hdevice ⟨hname, hnone⟩
                    exact ⟨hfound, by simpa [hfound] using hopened⟩
                  · rw [hfind]
                    simpa using hmount
                  · intro hroot hdevPath
                    simpa [hroot, hdevPath] using hdirectory
                  · exact ⟨_, List.mem_of_getElem? hclear, rfl⟩
                  · simpa using hanswer
                  · intro fs hfs hsame
                    refine hunmounted (List.any_eq_true.mpr ⟨fs, hfs, ?_⟩)
                    cases hinv.entry fs hfs with
                    | inl hempty => rw [hempty] at hsame; cases hsame
                    | inr hfull => simpa [hsame, Option.isSome_iff_ne_none] using hfull.2

theorem dfsUnmount_cases (hinv : s.Inv) (call : UnmountCall) :
    ∃ s', s.dfsUnmount call = some s' ∧
      (s'.result = -1 ∧ s'.filesystemTable = s.filesystemTable ∨
        ∃ fullpath i fs, s.normalize call.memory call.specialfile = some fullpath ∧
          s.filesystemTable[i]? = some fs ∧ fs.path = some fullpath ∧
          s' = s.setEntry i .clear 0) := by
  unfold dfsUnmount
  split
  · exact ⟨_, rfl, .inl ⟨rfl, rfl⟩⟩
  next fullpath hpath =>
    split
    · exact ⟨_, rfl, .inl ⟨rfl, rfl⟩⟩
    next i hi =>
      obtain ⟨hlt, hsame, _⟩ := List.findIdx?_eq_some_iff_getElem.mp hi
      have hget := List.getElem?_eq_getElem hlt
      have hops : (s.filesystemTable[i]).ops ≠ none := by
        cases hinv.entry _ (List.getElem_mem hlt) with
        | inl hempty => rw [hempty] at hsame; simp [DfsFilesystem.clear] at hsame
        | inr hfull => exact hfull.2
      obtain ⟨ops, hops⟩ := Option.ne_none_iff_exists'.mp hops
      simp only [hget, Option.bind_some, hops, Option.map_some]
      refine ⟨_, rfl, ?_⟩
      split
      · exact .inl ⟨rfl, rfl⟩
      · exact .inr ⟨fullpath, i, _, hpath, hget, by simpa using hsame, rfl⟩

theorem Inv.fill {i : Nat} {devId : Option Nat} {ops : FilesystemOps} {result : Int}
    (hinv : s.Inv) (hclear : s.filesystemTable[i]? = some .clear) (hnormal : Normal fullpath)
    (hfresh : ∀ fs ∈ s.filesystemTable, fs.path ≠ some fullpath) :
    (s.setEntry i ⟨devId, some fullpath, some ops⟩ result).Inv := by
  have hmem : ∀ fs ∈ s.filesystemTable.set i ⟨devId, some fullpath, some ops⟩,
      fs = ⟨devId, some fullpath, some ops⟩ ∨ fs ∈ s.filesystemTable := by
    intro fs hfs
    exact (List.mem_or_eq_of_mem_set hfs).symm
  refine ⟨?_, ?_, ?_⟩
  · intro fs hfs
    cases hmem fs hfs with
    | inl hnew => exact .inr (by simp [hnew])
    | inr hold => exact hinv.entry fs hold
  · intro fs hfs path hpath
    cases hmem fs hfs with
    | inl hnew =>
      rw [hnew] at hpath
      cases hpath
      exact hnormal
    | inr hold => exact hinv.normal fs hold path hpath
  · have hperm := filterMap_set_perm (·.path) (⟨devId, some fullpath, some ops⟩ : DfsFilesystem)
      hclear
    refine hperm.nodup_iff.mpr (List.nodup_cons.mpr ⟨?_, hinv.distinct⟩)
    intro hold
    obtain ⟨fs, hfs, hpath⟩ := List.mem_filterMap.mp hold
    exact hfresh fs hfs hpath

theorem Inv.clear {i : Nat} {fs : DfsFilesystem} (hinv : s.Inv)
    (hget : s.filesystemTable[i]? = some fs) (hpath : fs.path = some fullpath) (result : Int) :
    (s.setEntry i .clear result).Inv ∧
      ∀ other ∈ s.filesystemTable.set i .clear, other.path ≠ some fullpath := by
  have hperm := filterMap_set_perm (·.path) DfsFilesystem.clear hget
  simp only [hpath, Option.toList_some, List.singleton_append] at hperm
  have hnodup := List.nodup_cons.mp (hperm.nodup_iff.mpr hinv.distinct)
  refine ⟨⟨?_, ?_, hnodup.2⟩, ?_⟩
  · intro other hother
    cases List.mem_or_eq_of_mem_set hother with
    | inl hold => exact hinv.entry other hold
    | inr hnew => exact .inl hnew
  · intro other hother path hpath
    cases List.mem_or_eq_of_mem_set hother with
    | inl hold => exact hinv.normal other hold path hpath
    | inr hnew =>
      rw [hnew] at hpath
      cases hpath
  · intro other hother hsame
    exact hnodup.1 (List.mem_filterMap.mpr ⟨other, hother, hsame⟩)

theorem Inv.of_table (hinv : s.Inv) (hsame : s'.filesystemTable = s.filesystemTable) : s'.Inv :=
  ⟨hsame ▸ hinv.entry, hsame ▸ hinv.normal, hsame ▸ hinv.distinct⟩

theorem Inv.exec {op : MountOp} (hinv : s.Inv) (happart : s.MountsApart op)
    (hexec : s.exec op = some s') : s'.Inv := by
  cases op with
  | mount call =>
    cases hexec
    cases dfsMount_cases hinv call with
    | inl hfailed => exact hinv.of_table hfailed.2
    | inr hfilled =>
      obtain ⟨fullpath, i, devId, ops, hpath, hserved, hclear, hraw, hstep⟩ := hfilled
      simp only [MountsApart, hpath] at happart
      obtain ⟨hhead, honly⟩ := happart hserved
      rw [hstep]
      refine hinv.fill hclear ?_ ?_
      · unfold normalize at hpath
        split at hpath
        · exact dfsNormalizePath_normal hpath hhead
        · cases hpath
      · intro fs hfs hsame
        obtain ⟨other, hother, hold⟩ := honly ⟨fs, hfs, hsame⟩
        exact hraw other hother hold
  | unmount call =>
    obtain ⟨next, hnext, hcases⟩ := dfsUnmount_cases hinv call
    obtain rfl : next = s' := Option.some.inj (hnext.symm.trans hexec)
    cases hcases with
    | inl hfailed => exact hinv.of_table hfailed.2
    | inr hcleared =>
      obtain ⟨fullpath, i, fs, _, hget, hpath, rfl⟩ := hcleared
      exact (hinv.clear hget hpath 0).1

theorem Inv.integrity (hinv : s.Inv) : s.Integrity := by
  refine ⟨?_, hinv.normal, hinv.distinct, ?_, ?_⟩
  · intro op
    cases op with
    | mount call => exact Option.some_ne_none _
    | unmount call =>
      obtain ⟨next, hnext, _⟩ := dfsUnmount_cases hinv call
      exact fun hnone => Option.some_ne_none next (hnext.symm.trans hnone)
  · intro call s' hexec hresult
    cases hexec
    cases dfsMount_cases hinv call with
    | inl hfailed => exact hfailed.2
    | inr hfilled =>
      obtain ⟨fullpath, i, devId, ops, _, _, _, _, hstep⟩ := hfilled
      rw [hstep] at hresult
      cases hresult
  · intro call s' fullpath hpath hexec hresult
    obtain ⟨next, hnext, hcases⟩ := dfsUnmount_cases hinv call
    obtain rfl : next = s' := Option.some.inj (hnext.symm.trans hexec)
    cases hcases with
    | inl hfailed =>
      rw [hfailed.1] at hresult
      cases hresult
    | inr hcleared =>
      obtain ⟨path, i, fs, hnormal, hget, hsame, rfl⟩ := hcleared
      obtain rfl : path = fullpath := Option.some.inj (hnormal.symm.trans hpath)
      exact ⟨i, fs, hget, hsame, rfl, (hinv.clear hget hsame 0).2⟩

theorem Initial.inv (hinit : s.Initial) : s.Inv := by
  have hnone : ∀ fs ∈ s.filesystemTable, fs.path = none := by
    intro fs hfs
    rw [hinit fs hfs]
    rfl
  refine ⟨fun fs hfs => .inl (hinit fs hfs), ?_, ?_⟩
  · intro fs hfs path hpath
    rw [hnone fs hfs] at hpath
    cases hpath
  · rw [List.filterMap_eq_nil_iff.mpr hnone]
    exact List.nodup_nil

/-- While mounts name new places, the table stays sound. -/
theorem reachable_integrity (hreach : mountMachine.Reachable MountsApart s) : s.Integrity :=
  (hreach.invariant Inv (fun _ => Initial.inv)
    (fun _ _ _ hinv happart hexec => hinv.exec happart hexec)).integrity

def mountStart : MountState where
  workdir := some ['/']
  filesystemOperationTable := [some ⟨['r', 'a', 'm'], false, 1, true, true⟩]
  filesystemTable := [.clear, .clear]
  errno := 0
  result := 0

theorem mountStart_initial : mountStart.Initial := by
  intro fs hfs
  simpa [mountStart] using hfs

def ramMount (path : CString) : MountOp :=
  .mount ⟨none, path, ['r', 'a', 'm'], none, true, true, true, true⟩

/-- The root, then `dev`, which is unmounted in another form and mounted again. -/
def mountRun : List MountOp :=
  [ramMount ['/'], ramMount ['d', 'e', 'v'], .unmount ⟨['/', '.', '/', 'd', 'e', 'v', '/'], true, true⟩,
    ramMount ['/', '/', 'd', 'e', 'v']]

theorem reachable_integrity_mountRun :
    ∃ s, mountMachine.Reachable MountsApart s ∧
      s.filesystemTable.map (·.path) = [some ['/'], some ['/', 'd', 'e', 'v']] ∧
      s.Integrity := by
  have hrun : (mountMachine.run MountsApart mountStart mountRun).map
      (·.filesystemTable.map (·.path)) = some [some ['/'], some ['/', 'd', 'e', 'v']] := by
    decide +kernel
  obtain ⟨s, hreach, hpaths⟩ := Machine.exists_reachable_of_run mountStart_initial hrun
  exact ⟨s, hreach, hpaths, reachable_integrity hreach⟩

/-- With two slashes a mounted place is mounted once more. -/
theorem integrity_fails_after_double_mount :
    ∃ s, mountMachine.Reachable (fun _ _ => True) s ∧ ¬ s.Integrity := by
  have hrun : (mountMachine.run (fun _ _ => True) mountStart
      [ramMount ['/', 'd', 'e', 'v'], ramMount ['/', '/', 'd', 'e', 'v']]).map
      (·.filesystemTable.filterMap (·.path)) =
      some [['/', 'd', 'e', 'v'], ['/', 'd', 'e', 'v']] := by
    decide +kernel
  obtain ⟨s, hreach, hpaths⟩ := Machine.exists_reachable_of_run mountStart_initial hrun
  refine ⟨s, hreach, fun hsound => ?_⟩
  have hdistinct := hsound.distinct
  rw [hpaths] at hdistinct
  exact absurd hdistinct (by decide)

end MountState

end RtThread.Dfs
