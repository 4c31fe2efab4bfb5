import RtThread.Cpu.LockProtocol

namespace RtThread.Cpu

open RtThread.Lib

/-! `rt_enter_critical`, `rt_exit_critical` and `rt_critical_level` in both builds, for one thread
that calls them in any order.  The `rt_schedule` at the end leaves the thread's counters as it
found them. -/

inductive LockHolder
  | caller
  | other
  deriving DecidableEq

/-- `strayRelease` records a release of `_rt_critical_lock` by a thread that did not hold it. -/
structure SmpCritical where
  schedulerLockNest : Nat
  cpusLockNest : Nat
  criticalLock : Option LockHolder
  strayRelease : Bool
  deriving DecidableEq

namespace SmpCritical

variable (s : SmpCritical)

def nestFlag : Nat := if s.cpusLockNest = 0 then 0 else 1

def rtEnterCritical : Option SmpCritical :=
  if s.schedulerLockNest = s.nestFlag then
    if s.criticalLock = none then
      some
        { s with
          criticalLock := some .caller
          schedulerLockNest := inc16 s.schedulerLockNest }
    else none
  else some { s with schedulerLockNest := inc16 s.schedulerLockNest }

def rtExitCritical : SmpCritical :=
  let nest := dec16 s.schedulerLockNest
  let release := decide (nest = s.nestFlag)
  { s with
    -- the test for `<= 0` is one of an unsigned counter
    schedulerLockNest := if nest ≤ 0 then 0 else nest
    criticalLock := if release then none else s.criticalLock
    strayRelease := s.strayRelease || (release && decide (s.criticalLock ≠ some .caller)) }

def rtCriticalLevel : Nat := s.schedulerLockNest

end SmpCritical

/-- What the critical sections of a thread on CPU `c` read and write. -/
def View.critical (c : Nat) (v : View) : SmpCritical where
  schedulerLockNest := v.thread.schedulerLockNest
  cpusLockNest := v.thread.cpusLockNest
  criticalLock := v.criticalLock.map fun holder => if holder = c then .caller else .other
  strayRelease := v.fault

theorem critical_rtEnterCritical (c : Nat) (target : Option Tid) (v : View) :
    (proceed c target (rtEnterCritical c v)).map (fun outcome => outcome.1.critical c) =
      (v.critical c).rtEnterCritical := by
  have hflag : (v.critical c).nestFlag = nestFlag v.thread := rfl
  have hnest : (v.critical c).schedulerLockNest = v.thread.schedulerLockNest := rfl
  have hfree : (v.critical c).criticalLock = none ↔ v.criticalLock = none := Option.map_eq_none_iff
  unfold SmpCritical.rtEnterCritical
  rw [hflag, hnest]
  by_cases hspin : v.thread.schedulerLockNest = nestFlag v.thread
  · by_cases hlock : v.criticalLock = none
    · simp [proceed, rtEnterCritical, enterCriticalEnd, View.critical, hspin, hlock]
    · simp [proceed, rtEnterCritical, hspin, hlock, hfree]
  · simp [proceed, rtEnterCritical, enterCriticalEnd, View.critical, hspin]

theorem critical_rtExitCritical (c : Nat) (v : View) (hopen : v.calls.openCritical ≠ 0) :
    (rtExitCritical c v).map (View.critical c) = some (v.critical c).rtExitCritical := by
  have hheld : (v.critical c).criticalLock = some .caller ↔ v.criticalLock = some c := by
    unfold View.critical
    cases v.criticalLock with
    | none => simp
    | some holder =>
      simp only [Option.map_some, Option.some.injEq, ite_eq_left_iff, reduceCtorEq, imp_false, not_not]
  have hflag : (v.critical c).nestFlag = nestFlag v.thread := rfl
  have hflag' : nestFlag { v.thread with
      schedulerLockNest := dec16 v.thread.schedulerLockNest } = nestFlag v.thread := rfl
  have hnest : (v.critical c).schedulerLockNest = v.thread.schedulerLockNest := rfl
  have hclamp : ∀ nest : Nat, (if nest ≤ 0 then 0 else nest) = nest := by
    intro nest
    split <;> omega
  rw [rtExitCritical, if_neg hopen, Option.map_some]
  unfold SmpCritical.rtExitCritical
  simp only [hclamp, ne_eq, hheld, hflag, hflag', hnest]
  unfold View.critical
  dsimp only
  split <;> rfl

abbrev int16 (x : Int) : Int := x.bmod 65536

namespace Up

def rtEnterCritical (rtSchedulerLockNest : Int) : Int := int16 (rtSchedulerLockNest + 1)

def rtExitCritical (rtSchedulerLockNest : Int) : Int :=
  let nest := int16 (rtSchedulerLockNest - 1)
  if nest ≤ 0 then 0 else nest

def rtCriticalLevel (rtSchedulerLockNest : Int) : Nat := (rtSchedulerLockNest % 65536).toNat

end Up

structure BothBuilds where
  smp : SmpCritical
  up : Int
  deriving DecidableEq

/-- What the thread calls, and what other CPUs do to `_rt_critical_lock` meanwhile -/
inductive CriticalOp
  | enterCritical
  | exitCritical
  | otherLock
  | otherUnlock
  deriving DecidableEq

namespace BothBuilds

def exec (s : BothBuilds) : CriticalOp → Option BothBuilds
  | .enterCritical =>
    s.smp.rtEnterCritical.map fun smp => { smp, up := Up.rtEnterCritical s.up }
  | .exitCritical => some { smp := s.smp.rtExitCritical, up := Up.rtExitCritical s.up }
  | .otherLock =>
    if s.smp.criticalLock = none then
      some { s with smp.criticalLock := some .other }
    else none
  | .otherUnlock =>
    if s.smp.criticalLock = some .other then
      some { s with smp.criticalLock := none }
    else none

def initial : BothBuilds where
  smp :=
    { schedulerLockNest := 0, cpusLockNest := 0, criticalLock := none, strayRelease := false }
  up := 0

def machine : Machine BothBuilds CriticalOp where
  init := fun s => s = initial
  exec := exec

structure Agree (s : BothBuilds) : Prop where
  level : s.smp.rtCriticalLevel = Up.rtCriticalLevel s.up
  held : s.smp.strayRelease = false

def Waits (s : BothBuilds) (op : CriticalOp) : Prop :=
  op = .enterCritical ∧ s.smp.schedulerLockNest = s.smp.nestFlag ∧
    s.smp.criticalLock = some .other

/-- The call returns, unless it waits for another CPU, and the builds agree after it. -/
def CallOk (s : BothBuilds) (op : CriticalOp) : Prop :=
  s.Waits op ∨ ∃ s', s.exec op = some s' ∧ s'.Agree

def Fits (s : BothBuilds) : CriticalOp → Prop
  | .enterCritical => ¬(s.smp.rtCriticalLevel = 0 ∧ s.smp.criticalLock = some .caller)
  | .exitCritical => 1 ≤ s.smp.rtCriticalLevel ∧ s.smp.rtCriticalLevel ≤ 2 ^ 15
  | _ => True

instance (s : BothBuilds) (op : CriticalOp) : Decidable (s.Fits op) := by
  cases op <;> unfold Fits <;> infer_instance

end BothBuilds

theorem int16_of_small {n : Nat} (hlt : n < 2 ^ 15) : int16 n = n :=
  Int.bmod_eq_of_le (by omega) (by omega)

theorem int16_of_large {n : Nat} (hge : 2 ^ 15 ≤ n) (hlt : n < 2 ^ 16) : int16 n < 0 := by
  have hshift : int16 n = int16 ((n : Int) - 65536) := (Int.sub_bmod_right _ 65536).symm
  have hvalue : int16 ((n : Int) - 65536) = (n : Int) - 65536 :=
    Int.bmod_eq_of_le (by omega) (by omega)
  omega

theorem int16_inc16 (n : Nat) : int16 (int16 n + 1) = int16 (inc16 n : Nat) := by
  unfold int16 inc16
  rw [Int.bmod_add_bmod]
  push_cast
  exact (Int.emod_bmod (n + 1) 65536).symm

theorem rtCriticalLevel_int16 {n : Nat} (hlt : n < 2 ^ 16) : Up.rtCriticalLevel (int16 n) = n := by
  have hmod : int16 n % 65536 = (n : Int) % 65536 := Int.bmod_emod
  rw [Up.rtCriticalLevel, hmod]
  omega

theorem rtExitCritical_int16 {n : Nat} (hpos : 0 < n) (hlt : n < 2 ^ 16) :
    Up.rtExitCritical (int16 n) = if n ≤ 2 ^ 15 then int16 (n - 1 : Nat) else 0 := by
  have hstep : int16 (int16 n - 1) = int16 (n - 1 : Nat) := by
    unfold int16
    rw [Int.bmod_sub_bmod]
    congr 1
    omega
  unfold Up.rtExitCritical
  dsimp only
  rw [hstep]
  by_cases hle : n ≤ 2 ^ 15
  · have hsmall := int16_of_small (n := n - 1) (by omega)
    rw [if_pos hle, hsmall]
    split <;> omega
  · have hlarge := int16_of_large (n := n - 1) (by omega) (by omega)
    rw [if_neg hle, if_pos (by omega)]

namespace BothBuilds

structure Paired (s : BothBuilds) : Prop where
  flag : s.smp.cpusLockNest = 0
  level_lt : s.smp.schedulerLockNest < 2 ^ 16
  up : s.up = int16 s.smp.schedulerLockNest
  inside : s.smp.schedulerLockNest ≠ 0 → s.smp.criticalLock = some .caller
  held : s.smp.strayRelease = false

section Paired

variable {s s' : BothBuilds}

theorem Paired.nestFlag (hpaired : s.Paired) : s.smp.nestFlag = 0 := by
  rw [SmpCritical.nestFlag, if_pos hpaired.flag]

theorem Paired.agree (hpaired : s.Paired) : s.Agree := by
  refine ⟨?_, hpaired.held⟩
  rw [hpaired.up, rtCriticalLevel_int16 hpaired.level_lt]
  rfl

theorem Paired.enterCritical (hpaired : s.Paired) (hexec : s.exec .enterCritical = some s') :
    s'.Paired := by
  obtain ⟨hflag, hlt, hup, hinside, hheld⟩ := hpaired
  obtain ⟨smp, hsmp, rfl⟩ := Option.map_eq_some_iff.mp hexec
  have hcount : Up.rtEnterCritical s.up = int16 (inc16 s.smp.schedulerLockNest : Nat) := by
    rw [Up.rtEnterCritical, hup, int16_inc16]
  have hlevel : inc16 s.smp.schedulerLockNest < 2 ^ 16 := Nat.mod_lt _ (by decide)
  unfold SmpCritical.rtEnterCritical at hsmp
  split at hsmp
  · split at hsmp
    · cases hsmp
      exact ⟨hflag, hlevel, hcount, fun _ => rfl, hheld⟩
    · cases hsmp
  next hdeep =>
    cases hsmp
    rw [SmpCritical.nestFlag, if_pos hflag] at hdeep
    exact ⟨hflag, hlevel, hcount, fun _ => hinside hdeep, hheld⟩

theorem Paired.enterCritical_callOk_iff (hpaired : s.Paired) :
    s.CallOk .enterCritical ↔ s.Fits .enterCritical := by
  have hnest := hpaired.nestFlag
  constructor
  · rintro (⟨-, -, hother⟩ | ⟨s', hexec, -⟩) ⟨hzero, hcaller⟩
    · rw [hcaller] at hother
      cases hother
    · obtain ⟨smp, hsmp, -⟩ := Option.map_eq_some_iff.mp hexec
      rw [SmpCritical.rtCriticalLevel] at hzero
      simp [SmpCritical.rtEnterCritical, hnest, hzero, hcaller] at hsmp
  · intro hfits
    cases hexec : s.exec .enterCritical with
    | some s' => exact .inr ⟨s', hexec, (hpaired.enterCritical hexec).agree⟩
    | none =>
      have hspins := Option.map_eq_none_iff.mp hexec
      unfold SmpCritical.rtEnterCritical at hspins
      split at hspins
      next hzero =>
        split at hspins
        · cases hspins
        next hlocked =>
          refine .inl ⟨rfl, hzero, ?_⟩
          cases hholder : s.smp.criticalLock with
          | none => exact absurd hholder hlocked
          | some holder =>
            cases holder with
            | other => rfl
            | caller => exact absurd ⟨hzero.trans hnest, hholder⟩ hfits
      · cases hspins

theorem smpExitCritical_level :
    s.smp.rtExitCritical.schedulerLockNest = dec16 s.smp.schedulerLockNest := by
  simp only [SmpCritical.rtExitCritical]
  split <;> omega

theorem Paired.exitCritical (hpaired : s.Paired) (hfits : s.Fits .exitCritical)
    (hexec : s.exec .exitCritical = some s') : s'.Paired := by
  have hnest := hpaired.nestFlag
  obtain ⟨hflag, hlt, hup, hinside, hheld⟩ := hpaired
  obtain ⟨hpos, hle⟩ := hfits
  unfold SmpCritical.rtCriticalLevel at hpos hle
  have hcaller := hinside (by omega)
  have hdec : dec16 s.smp.schedulerLockNest = s.smp.schedulerLockNest - 1 := dec16_of_pos hpos
  cases hexec
  refine ⟨hflag, ?_, ?_, fun hdeep => ?_, ?_⟩
  · rw [smpExitCritical_level, hdec]
    omega
  · dsimp only
    rw [smpExitCritical_level, hdec, hup, rtExitCritical_int16 hpos hlt, if_pos hle]
  · rw [smpExitCritical_level, hdec] at hdeep
    simp only [SmpCritical.rtExitCritical, hdec, hnest, hdeep]
    exact hcaller
  · simp [SmpCritical.rtExitCritical, hheld, hcaller]

theorem Paired.exitCritical_callOk_iff (hpaired : s.Paired) :
    s.CallOk .exitCritical ↔ s.Fits .exitCritical := by
  constructor
  · rintro (⟨hother, -⟩ | ⟨s', hexec, hagree, -⟩)
    · cases hother
    · have hlt := hpaired.level_lt
      cases hexec
      dsimp only at hagree
      rw [SmpCritical.rtCriticalLevel, smpExitCritical_level, hpaired.up] at hagree
      unfold Fits SmpCritical.rtCriticalLevel
      rcases Nat.eq_zero_or_pos s.smp.schedulerLockNest with hzero | hpos
      · rw [hzero] at hagree
        exact absurd hagree (by decide)
      · refine ⟨hpos, Nat.le_of_not_lt fun hdeep => ?_⟩
        rw [dec16_of_pos hpos, rtExitCritical_int16 hpos hlt, if_neg (by omega)] at hagree
        rw [Up.rtCriticalLevel] at hagree
        omega
  · intro hfits
    exact .inr ⟨_, rfl, (hpaired.exitCritical hfits rfl).agree⟩

theorem Paired.exec (hpaired : s.Paired) {op : CriticalOp} (hfits : s.Fits op)
    (hexec : s.exec op = some s') : s'.Paired := by
  cases op with
  | enterCritical => exact hpaired.enterCritical hexec
  | exitCritical => exact hpaired.exitCritical hfits hexec
  | otherLock =>
    obtain ⟨hfree, hnew⟩ := Option.ite_none_right_eq_some.mp hexec
    cases hnew
    refine ⟨hpaired.flag, hpaired.level_lt, hpaired.up, fun hdeep => ?_, hpaired.held⟩
    have hcaller := hpaired.inside hdeep
    rw [hfree] at hcaller
    cases hcaller
  | otherUnlock =>
    obtain ⟨hother, hnew⟩ := Option.ite_none_right_eq_some.mp hexec
    cases hnew
    refine ⟨hpaired.flag, hpaired.level_lt, hpaired.up, fun hdeep => ?_, hpaired.held⟩
    have hcaller := hpaired.inside hdeep
    rw [hother] at hcaller
    cases hcaller

theorem initial_paired : initial.Paired := 
  ⟨rfl, by decide, (int16_of_small (by decide)).symm, fun h => absurd rfl h, rfl⟩

end Paired

/-- As long as every call finds a level that both counters can bear, the builds agree; and it takes
such a level for the next call to be right. -/
theorem reachable_agree {s : BothBuilds} (hreach : machine.Reachable Fits s) :
    s.Agree ∧ ∀ op, op = .enterCritical ∨ op = .exitCritical → (s.CallOk op ↔ s.Fits op) := by
  have hpaired := hreach.invariant Paired (by rintro s rfl; exact initial_paired)
    (fun _ _ _ hinv hfits hexec => hinv.exec hfits hexec)
  refine ⟨hpaired.agree, ?_⟩
  rintro op (rfl | rfl)
  · exact hpaired.enterCritical_callOk_iff
  · exact hpaired.exitCritical_callOk_iff

def nestedCalls : List CriticalOp :=
  [.otherLock, .otherUnlock, .enterCritical, .enterCritical, .exitCritical, .exitCritical]

theorem reachable_agree_nested : ∃ s, machine.Reachable Fits s ∧ s.Agree ∧
    ∀ op, op = .enterCritical ∨ op = .exitCritical → (s.CallOk op ↔ s.Fits op) := by
  have hrun : (machine.run Fits initial nestedCalls).map (·.up) = some 0 := by decide
  obtain ⟨s, hreach, -⟩ := Machine.exists_reachable_of_run rfl hrun
  exact ⟨s, hreach, reachable_agree hreach⟩

/-- A surplus exit: level 0 in the UP build, 65535 in the SMP build. -/
theorem not_agree_after_surplus_exit : ∃ s, machine.Reachable (fun _ _ => True) s ∧ ¬s.Agree := by
  have hrun : (machine.run (fun _ _ => True) initial [.exitCritical]).map
      (fun s => (s.smp.rtCriticalLevel, Up.rtCriticalLevel s.up)) = some (65535, 0) := by decide
  obtain ⟨s, hreach, hvalue⟩ := Machine.exists_reachable_of_run rfl hrun
  refine ⟨s, hreach, fun hagree => ?_⟩
  obtain ⟨hsmp, hup⟩ := Prod.mk.inj hvalue
  have hlevel := hagree.level
  rw [hsmp, hup] at hlevel
  exact absurd hlevel (by decide)

end BothBuilds

end RtThread.Cpu
