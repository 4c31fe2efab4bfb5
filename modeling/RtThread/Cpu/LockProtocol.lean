import RtThread.Cpu.Lock

namespace RtThread.Cpu

open Function RtThread.Lib

structure CallsOk (thread : Thread) (calls : Calls) : Prop where
  nest : thread.cpusLockNest = calls.levels.length
  sched : thread.schedulerLockNest = calls.nestDepth
  nest_lt : calls.levels.length < 2 ^ 16
  sched_lt : calls.nestDepth < 2 ^ 16
  levels : ∀ level ∈ calls.levels.dropLast, level = false
  acquired : calls.acquired = calls.begun
  released : calls.released = calls.ended
  begun : calls.begun = calls.ended + if calls.openCritical = 0 then 0 else 1

structure Suspended (thread : Thread) (calls : Calls) : Prop where
  ok : CallsOk thread calls
  openCritical : calls.openCritical = 0
  savedIrq : calls.savedIrq = true → calls.levels = []

def Context.Ok (irqNest : Nat) : Context → Prop
  | .thread | .irqExit => irqNest = 0
  | .handler locks _ => irqNest = 1 ∧ locks = 0

def Phase.spinsForCpus : Phase → Bool
  | .cpusLock true _ => true
  | _ => false

def Phase.Ok (context : Context) (calls : Calls) : Phase → Prop
  | .running => context = .irqExit → calls.levels = []
  | .cpusLock spin after =>
    (if spin then calls.levels.length = 1 else 2 ≤ calls.levels.length) ∧
      (after = .irqSwitch ↔ context = .irqExit) ∧
      (context = .irqExit → calls.levels = [false])
  | .enterCritical spin level =>
    (spin = true ↔ calls.openCritical = 0) ∧ calls.nestDepth + 1 < 2 ^ 16 ∧
      (level = true → calls.levels = [] ∧ context = .thread) ∧ context ≠ .irqExit

structure Running (c : Nat) (v : View) : Prop where
  calls : CallsOk v.thread v.calls
  held : v.cpusLock = some c ↔ v.calls.levels ≠ [] ∧ v.cpu.phase.spinsForCpus = false
  heldCritical : v.criticalLock = some c ↔ v.calls.openCritical ≠ 0
  irq : v.cpu.irqEnabled = true →
    v.calls.levels = [] ∧ v.cpu.phase = .running ∧ v.cpu.context = .thread
  masked : true ∈ v.calls.levels → v.cpu.context = .thread
  context : v.cpu.context.Ok v.cpu.irqNest
  phase : v.cpu.phase.Ok v.cpu.context v.calls

/-- A CPU inside a call that holds `_cpus_lock`. -/
structure Granted (c : Nat) (v : View) : Prop where
  calls : CallsOk v.thread v.calls
  locked : v.calls.levels ≠ []
  held : v.cpusLock = some c
  heldCritical : v.criticalLock = some c ↔ v.calls.openCritical ≠ 0
  masked : true ∈ v.calls.levels → v.cpu.context = .thread
  context : v.cpu.context.Ok v.cpu.irqNest

/-- What a step leaves alone: the locks of other CPUs and its own current
thread. -/
structure Frame (c : Nat) (v v' : View) : Prop where
  current : v'.cpu.currentThread = v.cpu.currentThread
  cpusLock : ∀ c', c' ≠ c → (v'.cpusLock = some c' ↔ v.cpusLock = some c')
  criticalLock : ∀ c', c' ≠ c → (v'.criticalLock = some c' ↔ v.criticalLock = some c')
  fault : v'.fault = v.fault

theorem Frame.trans {c : Nat} {v v' v'' : View} (hfirst : Frame c v v')
    (hsecond : Frame c v' v'') : Frame c v v'' where
  current := hsecond.current.trans hfirst.current
  cpusLock := fun c' hne => (hsecond.cpusLock c' hne).trans (hfirst.cpusLock c' hne)
  criticalLock := fun c' hne =>
    (hsecond.criticalLock c' hne).trans (hfirst.criticalLock c' hne)
  fault := hsecond.fault.trans hfirst.fault

section Counters

variable {thread : Thread} {calls : Calls}

theorem inc16_of_lt {n : Nat} (hlt : n + 1 < 2 ^ 16) : inc16 n = n + 1 := by
  unfold inc16
  omega

theorem dec16_of_pos {n : Nat} (hpos : 0 < n) : dec16 n = n - 1 := by
  unfold dec16
  rw [if_neg (Nat.ne_of_gt hpos)]

section

variable (hok : CallsOk thread calls)
include hok

theorem CallsOk.nest_eq_zero_iff : thread.cpusLockNest = 0 ↔ calls.levels = [] := by
  rw [hok.nest, List.length_eq_zero_iff]

theorem CallsOk.nestFlag_eq : nestFlag thread = if calls.levels = [] then 0 else 1 := by
  simp only [nestFlag, hok.nest_eq_zero_iff]

theorem CallsOk.lock (irqEnabled : Bool) (hirq : irqEnabled = true → calls.levels = [])
    (hnest : calls.levels.length + 1 < 2 ^ 16) (hopen : calls.openCritical + 1 < 2 ^ 16) :
    CallsOk thread.cpusLock { calls with levels := irqEnabled :: calls.levels } where
  nest := by
    simp only [Thread.cpusLock, List.length_cons, hok.nest]
    exact inc16_of_lt hnest
  sched := by
    simp only [Thread.cpusLock, Calls.nestDepth, hok.nest_eq_zero_iff, hok.sched]
    cases hlevels : calls.levels with
    | nil =>
      simp only [if_true, List.cons_ne_nil, if_false, Nat.zero_add]
      rw [inc16_of_lt hopen, Nat.add_comm]
    | cons level levels => simp
  nest_lt := by simpa using hnest
  sched_lt := by
    simp only [Calls.nestDepth, List.cons_ne_nil, if_false]
    omega
  levels := by
    cases hlevels : calls.levels with
    | nil => simp
    | cons level levels =>
      intro entry hmem
      rw [List.dropLast_cons_of_ne_nil (List.cons_ne_nil level levels), List.mem_cons] at hmem
      rcases hmem with rfl | hmem
      · cases entry with
        | false => rfl
        | true => simp [hlevels] at hirq
      · exact hok.levels entry (by rwa [hlevels])
  acquired := hok.acquired
  released := hok.released
  begun := hok.begun

theorem CallsOk.unlock {level : Bool} {levels : List Bool}
    (hlevels : calls.levels = level :: levels) :
    CallsOk thread.cpusUnlock { calls with levels := levels } := by
  have hnest : dec16 thread.cpusLockNest = levels.length := by
    have hlt := hok.nest_lt
    rw [hok.nest, hlevels, List.length_cons] at *
    rw [dec16_of_pos (Nat.succ_pos _)]
    omega
  have hdepth : calls.nestDepth = 1 + calls.openCritical := by
    simp [Calls.nestDepth, hlevels]
  have hlt := hok.sched_lt
  exact
    { nest := hnest
      sched := by
        rw [hdepth] at hlt
        simp only [Thread.cpusUnlock, hnest, List.length_eq_zero_iff, hok.sched, hdepth]
        cases levels with
        | nil =>
          simp only [if_true, Calls.nestDepth]
          rw [dec16_of_pos (by omega)]
          omega
        | cons => simp [Calls.nestDepth]
      nest_lt := by
        have hall := hok.nest_lt
        rw [hlevels, List.length_cons] at hall
        simp only
        omega
      sched_lt := by
        simp only [Calls.nestDepth]
        split <;> omega
      levels := by
        intro entry hmem
        apply hok.levels entry
        cases levels with
        | nil => simp at hmem
        | cons next rest =>
          rw [hlevels, List.dropLast_cons_of_ne_nil (List.cons_ne_nil next rest)]
          exact List.mem_cons_of_mem level hmem
      acquired := hok.acquired
      released := hok.released
      begun := hok.begun }

theorem CallsOk.outermost_of_enabled {levels : List Bool}
    (hlevels : calls.levels = true :: levels) : levels = [] := by
  cases levels with
  | nil => rfl
  | cons next rest =>
    have hfalse := hok.levels true (by
      rw [hlevels, List.dropLast_cons_of_ne_nil (List.cons_ne_nil next rest)]
      exact List.mem_cons_self)
    cases hfalse

theorem CallsOk.enter {spin : Bool} (hspin : spin = true ↔ calls.openCritical = 0)
    (hdepth : calls.nestDepth + 1 < 2 ^ 16) :
    CallsOk { thread with schedulerLockNest := inc16 thread.schedulerLockNest }
      { calls with
        openCritical := calls.openCritical + 1
        begun := if calls.openCritical = 0 then calls.begun + 1 else calls.begun
        acquired := if spin then calls.acquired + 1 else calls.acquired } where
  nest := hok.nest
  sched := by
    simp only [hok.sched]
    rw [inc16_of_lt hdepth]
    exact Nat.add_assoc _ _ _
  nest_lt := hok.nest_lt
  sched_lt := hdepth
  levels := hok.levels
  acquired := by simp only [hspin, hok.acquired]
  released := hok.released
  begun := by
    have hbegun := hok.begun
    simp only [Nat.add_one_ne_zero, if_false]
    split at hbegun
    next hopen => rw [if_pos hopen, hbegun]
    next hopen => rw [if_neg hopen, hbegun]

theorem CallsOk.exit (hopen : calls.openCritical ≠ 0) :
    CallsOk { thread with schedulerLockNest := dec16 thread.schedulerLockNest }
      { calls with
        openCritical := calls.openCritical - 1
        ended := if calls.openCritical = 1 then calls.ended + 1 else calls.ended
        released :=
          if decide (calls.openCritical = 1) then calls.released + 1
          else calls.released } where
  nest := hok.nest
  sched := by
    have hlt := hok.sched_lt
    simp only [hok.sched, Calls.nestDepth] at hlt ⊢
    rw [dec16_of_pos (by omega), Nat.add_sub_assoc (by omega)]
  nest_lt := hok.nest_lt
  sched_lt := by
    have hlt := hok.sched_lt
    simp only [Calls.nestDepth] at hlt ⊢
    exact Nat.lt_of_le_of_lt (Nat.add_le_add_left (Nat.sub_le _ _) _) hlt
  levels := hok.levels
  acquired := hok.acquired
  released := by simp only [hok.released, decide_eq_true_eq]
  begun := by
    have hbegun := hok.begun
    rw [if_neg hopen] at hbegun
    simp only [hbegun]
    by_cases hone : calls.openCritical = 1
    · simp [hone]
    · rw [if_neg hone, if_neg (by omega)]

theorem CallsOk.exit_release (hopen : calls.openCritical ≠ 0) :
    decide (dec16 thread.schedulerLockNest = nestFlag
        { thread with schedulerLockNest := dec16 thread.schedulerLockNest }) =
      decide (calls.openCritical = 1) := by
  have hsched := (hok.exit hopen).sched
  have hflag := (hok.exit hopen).nestFlag_eq
  simp only at hsched hflag
  rw [decide_eq_decide, hflag, hsched]
  simp only [Calls.nestDepth]
  omega

end

end Counters

section Calls

variable {c : Nat} {v v' : View}

theorem Running.granted (hrun : Running c v) (hphase : v.cpu.phase = .running)
    (hlocked : v.calls.levels ≠ []) : Granted c v where
  calls := hrun.calls
  locked := hlocked
  held := hrun.held.mpr ⟨hlocked, by rw [hphase]; rfl⟩
  heldCritical := hrun.heldCritical
  masked := hrun.masked
  context := hrun.context

theorem rtCpusLock_running (hrun : Running c v) (hphase : v.cpu.phase = .running)
    (after : AfterLock) (hafter : after = .irqSwitch ↔ v.cpu.context = .irqExit)
    (hnest : v.calls.levels.length + 1 < 2 ^ 16)
    (hopen : v.calls.openCritical + 1 < 2 ^ 16) :
    Running c (rtCpusLock c after v) ∧ Frame c v (rtCpusLock c after v) := by
  have hspin : decide (v.thread.cpusLockNest = 0) = decide (v.calls.levels = []) := by
    rw [decide_eq_decide]
    exact hrun.calls.nest_eq_zero_iff
  have hheld : v.cpusLock = some c ↔ v.calls.levels ≠ [] := by
    rw [hrun.held, hphase]
    simp [Phase.spinsForCpus]
  have hirqExit : v.cpu.context = .irqExit → v.calls.levels = [] := by
    have := hrun.phase
    rwa [hphase] at this
  have hmask : v.cpu.context = .irqExit → v.cpu.irqEnabled = false := by
    intro hcontext
    cases henabled : v.cpu.irqEnabled with
    | false => rfl
    | true =>
      have := (hrun.irq henabled).2.2
      rw [hcontext] at this
      cases this
  constructor
  · exact
      { calls := hrun.calls.lock _ (fun h => (hrun.irq h).1) hnest hopen
        held := by
          simp only [rtCpusLock, hspin, hheld]
          cases hlevels : v.calls.levels with
          | nil => simp [Phase.spinsForCpus]
          | cons => simp [Phase.spinsForCpus]
        heldCritical := hrun.heldCritical
        irq := by simp [rtCpusLock]
        masked := by
          simp only [rtCpusLock, List.mem_cons]
          rintro (henabled | hmem)
          · exact (hrun.irq henabled.symm).2.2
          · exact hrun.masked hmem
        context := hrun.context
        phase := by
          simp only [rtCpusLock, hspin, Phase.Ok]
          refine ⟨?_, hafter, fun h => by simp [hirqExit h, hmask h]⟩
          cases hlevels : v.calls.levels with
          | nil => simp
          | cons => simp }
  · refine ⟨rfl, fun _ _ => Iff.rfl, fun _ _ => Iff.rfl, ?_⟩
    simp only [rtCpusLock, hspin, hheld]
    cases hlevels : v.calls.levels with
    | nil => simp
    | cons => simp

theorem unlocked_cpusLock {levels : List Bool} (hgrant : Granted c v)
    (hok : CallsOk v.thread.cpusUnlock { v.calls with levels := levels }) :
    (if decide (v.thread.cpusUnlock.cpusLockNest = 0) = true then none
      else v.cpusLock) = some c ↔ levels ≠ [] := by
  have hzero := hok.nest_eq_zero_iff
  simp only at hzero
  simp only [hzero, decide_eq_true_eq, hgrant.held]
  cases levels with
  | nil => simp
  | cons => simp

theorem rtCpusUnlock_running (hgrant : Granted c v)
    (hcontext : v.cpu.context ≠ .irqExit) (hexec : rtCpusUnlock c v = some v') :
    Running c v' ∧ Frame c v v' := by
  unfold rtCpusUnlock at hexec
  cases hlevels : v.calls.levels with
  | nil => exact absurd hlevels hgrant.locked
  | cons level levels =>
    simp only [hlevels, Option.some.injEq] at hexec
    subst hexec
    have hok := hgrant.calls.unlock hlevels
    have hlock := unlocked_cpusLock hgrant hok
    constructor
    · exact
        { calls := hok
          held := by
            rw [hlock]
            simp [Phase.spinsForCpus]
          heldCritical := hgrant.heldCritical
          irq := by
            rintro rfl
            exact ⟨hgrant.calls.outermost_of_enabled hlevels, rfl,
              hgrant.masked (by rw [hlevels]; exact List.mem_cons_self)⟩
          masked := fun hmem =>
            hgrant.masked (by rw [hlevels]; exact List.mem_cons_of_mem _ hmem)
          context := hgrant.context
          phase := fun h => absurd h hcontext }
    · refine ⟨rfl, ?_, fun _ _ => Iff.rfl, by simp [hgrant.held]⟩
      intro c' hne
      have hother : v.cpusLock ≠ some c' := by
        rw [hgrant.held]
        exact fun h => hne (Option.some.inj h).symm
      simp only [hother, iff_false]
      split
      · simp
      · exact hother

/-- `rt_cpus_unlock` at the end of `rt_scheduler_do_irq_switch`, and the return
from the interrupt. -/
theorem rtCpusUnlock_irqReturn (hgrant : Granted c v)
    (hcontext : v.cpu.context = .irqExit) (hlevels : v.calls.levels = [false])
    (hexec : rtCpusUnlock c v = some v') :
    Running c (irqReturn v') ∧ Frame c v (irqReturn v') := by
  simp only [rtCpusUnlock, hlevels, Option.some.injEq] at hexec
  subst hexec
  have hok := hgrant.calls.unlock hlevels
  have hlock := unlocked_cpusLock hgrant hok
  have hnest := hgrant.context
  rw [hcontext] at hnest
  constructor
  · exact
      { calls := hok
        held := by
          simp only [irqReturn]
          rw [hlock]
          simp
        heldCritical := hgrant.heldCritical
        irq := fun _ => ⟨rfl, rfl, rfl⟩
        masked := by simp [irqReturn]
        context := hnest
        phase := by simp [irqReturn, Phase.Ok] }
  · refine ⟨rfl, ?_, fun _ _ => Iff.rfl, by simp [irqReturn, hgrant.held]⟩
    intro c' hne
    have hzero : v.thread.cpusUnlock.cpusLockNest = 0 := hok.nest_eq_zero_iff.mpr rfl
    simp only [irqReturn, hzero, decide_true, if_true, hgrant.held]
    simpa using fun h => hne h.symm

section

variable (hrun : Running c v)
include hrun

theorem rtEnterCritical_running (hphase : v.cpu.phase = .running)
    (hcontext : v.cpu.context ≠ .irqExit) (hdepth : v.calls.nestDepth + 1 < 2 ^ 16) :
    Running c (rtEnterCritical c v) ∧ Frame c v (rtEnterCritical c v) := by
  have hspin : decide (v.thread.schedulerLockNest = nestFlag v.thread) =
      decide (v.calls.openCritical = 0) := by
    rw [decide_eq_decide, hrun.calls.sched, hrun.calls.nestFlag_eq, Calls.nestDepth]
    omega
  constructor
  · exact
      { calls := hrun.calls
        held := by
          have hheld := hrun.held
          rw [hphase] at hheld
          exact hheld
        heldCritical := hrun.heldCritical
        irq := by simp [rtEnterCritical]
        masked := hrun.masked
        context := hrun.context
        phase := by
          simp only [rtEnterCritical, hspin, Phase.Ok, decide_eq_true_eq, true_and]
          refine ⟨hdepth, fun h => ?_, hcontext⟩
          exact ⟨(hrun.irq h).1, (hrun.irq h).2.2⟩ }
  · refine ⟨rfl, fun _ _ => Iff.rfl, fun _ _ => Iff.rfl, ?_⟩
    simp only [rtEnterCritical, hspin, hrun.heldCritical]
    by_cases hopen : v.calls.openCritical = 0
    · simp [hopen]
    · simp [hopen]

theorem enterCriticalEnd_running {spin level : Bool}
    (hphase : v.cpu.phase = .enterCritical spin level)
    (hfree : spin = true → v.criticalLock = none) :
    Running c (enterCriticalEnd c spin level v) ∧
      Frame c v (enterCriticalEnd c spin level v) := by
  have hok := hrun.phase
  rw [hphase] at hok
  obtain ⟨hspin, hdepth, hlevel, hcontext⟩ := hok
  constructor
  · exact
      { calls := hrun.calls.enter hspin hdepth
        held := by
          have := hrun.held
          rw [hphase] at this
          exact this
        heldCritical := by
          simp only [enterCriticalEnd, ne_eq, Nat.add_one_ne_zero, not_false_eq_true, iff_true]
          cases spin with
          | true => simp
          | false => simpa using hrun.heldCritical.mpr (by simpa using hspin)
        irq := fun h => ⟨(hlevel h).1, rfl, (hlevel h).2⟩
        masked := hrun.masked
        context := hrun.context
        phase := fun h => absurd h hcontext }
  · refine ⟨rfl, fun _ _ => Iff.rfl, ?_, rfl⟩
    intro c' hne
    simp only [enterCriticalEnd]
    cases spin with
    | true => simpa [hfree rfl] using fun h => hne h.symm
    | false => simp

theorem rtExitCritical_running (hphase : v.cpu.phase = .running)
    (hexec : rtExitCritical c v = some v') : Running c v' ∧ Frame c v v' := by
  unfold rtExitCritical at hexec
  split at hexec
  · cases hexec
  next hopen =>
    have hheld := hrun.heldCritical.mpr hopen
    simp only [hrun.calls.exit_release hopen, Option.some.injEq] at hexec
    subst hexec
    constructor
    · exact
        { calls := hrun.calls.exit hopen
          held := hrun.held
          heldCritical := by
            simp only [hheld, decide_eq_true_eq]
            split
            next hone => simp [hone]
            next hone =>
              simp only [true_iff]
              omega
          irq := hrun.irq
          masked := hrun.masked
          context := hrun.context
          phase := by
            have hok := hrun.phase
            rw [hphase] at hok
            simp only [hphase]
            exact hok }
    · refine ⟨rfl, fun _ _ => Iff.rfl, ?_, by simp [hheld]⟩
      intro c' hne
      have hother : v.criticalLock ≠ some c' := by
        rw [hheld]
        exact fun h => hne (Option.some.inj h).symm
      simp only [hother, iff_false]
      split
      · simp
      · exact hother

theorem rtInterruptEnter_running
    (hexec : rtInterruptEnter v = some v') : Running c v' ∧ Frame c v v' := by
  unfold rtInterruptEnter at hexec
  split at hexec
  next henabled =>
    cases hexec
    obtain ⟨hlevels, hphase, hcontext⟩ := hrun.irq henabled
    have hnest := hrun.context
    rw [hcontext] at hnest
    refine ⟨?_, ⟨rfl, fun _ _ => Iff.rfl, fun _ _ => Iff.rfl, rfl⟩⟩
    exact
      { calls := hrun.calls
        held := hrun.held
        heldCritical := hrun.heldCritical
        irq := by simp
        masked := by simp [hlevels]
        context := by
          have hzero : v.cpu.irqNest = 0 := hnest
          simp [Context.Ok, hzero, hlevels, inc16]
        phase := by simp [hphase, Phase.Ok] }
  · cases hexec

theorem rtInterruptLeave_running (hphase : v.cpu.phase = .running)
    (hexec : rtInterruptLeave v = some v') : Running c v' ∧ Frame c v v' := by
  unfold rtInterruptLeave at hexec
  split at hexec
  next locks criticals hcontext =>
    split at hexec
    next hbalanced =>
      cases hexec
      have hnest := hrun.context
      rw [hcontext] at hnest
      obtain ⟨hone, rfl⟩ := hnest
      have hlevels := List.length_eq_zero_iff.mp hbalanced.1
      refine ⟨?_, ⟨rfl, fun _ _ => Iff.rfl, fun _ _ => Iff.rfl, rfl⟩⟩
      exact
        { calls := hrun.calls
          held := hrun.held
          heldCritical := hrun.heldCritical
          irq := by
            intro henabled
            have := (hrun.irq henabled).2.2
            rw [hcontext] at this
            cases this
          masked := by simp [hlevels]
          context := by simp [Context.Ok, hone, dec16]
          phase := by simp [hphase, Phase.Ok, hlevels] }
    · cases hexec
  · cases hexec

theorem granted_of_spin {spin : Bool} {after : AfterLock}
    (hphase : v.cpu.phase = .cpusLock spin after)
    (hfree : spin = true → v.cpusLock = none) :
    Granted c { v with cpusLock := if spin then some c else v.cpusLock } ∧
      Frame c v { v with cpusLock := if spin then some c else v.cpusLock } := by
  have hok := hrun.phase
  rw [hphase] at hok
  have hlocked : v.calls.levels ≠ [] := by
    intro hnil
    have hlength := hok.1
    simp only [hnil, List.length_nil] at hlength
    split at hlength <;> omega
  cases spin with
  | true =>
    refine ⟨⟨hrun.calls, hlocked, rfl, hrun.heldCritical, hrun.masked, hrun.context⟩,
      ⟨rfl, ?_, fun _ _ => Iff.rfl, rfl⟩⟩
    intro c' hne
    simpa [hfree rfl] using fun h => hne h.symm
  | false =>
    refine ⟨⟨hrun.calls, hlocked, ?_, hrun.heldCritical, hrun.masked, hrun.context⟩,
      ⟨rfl, fun _ _ => Iff.rfl, fun _ _ => Iff.rfl, rfl⟩⟩
    exact hrun.held.mpr ⟨hlocked, by rw [hphase]; rfl⟩

end

/-- How a step of the code on one CPU ends: the CPU goes on with its current
thread, or that thread is ready to be left, with `_cpus_lock` in hand. -/
structure Leaving (c : Nat) (v : View) : Prop where
  suspended : Suspended v.thread v.calls
  held : v.cpusLock = some c
  notCritical : v.criticalLock ≠ some c
  context : v.cpu.context = .thread
  irqNest : v.cpu.irqNest = 0
  phase : v.cpu.phase = .running

def StepOk (c : Nat) (v : View) (result : View × Option Tid) : Prop :=
  Frame c v result.1 ∧
    match result.2 with
    | none => Running c result.1
    | some _ => Leaving c result.1

theorem openCritical_of_sched (hgrant : Granted c v)
    (hone : v.thread.schedulerLockNest = 1) : v.calls.openCritical = 0 := by
  rw [hgrant.calls.sched, Calls.nestDepth, if_neg hgrant.locked] at hone
  omega

theorem rtSchedule_ok {target : Option Tid} {result : View × Option Tid}
    (hgrant : Granted c v) (hcontext : v.cpu.context ≠ .irqExit)
    (hmask : v.cpu.irqEnabled = false)
    (hexec : rtSchedule c target v = some result) : StepOk c v result := by
  unfold rtSchedule at hexec
  split at hexec
  · obtain ⟨v', hunlock, rfl⟩ := Option.map_eq_some_iff.mp hexec
    obtain ⟨hrun, hframe⟩ := rtCpusUnlock_running
      (v := { v with cpu := { v.cpu with irqSwitchFlag := true } })
      ⟨hgrant.calls, hgrant.locked, hgrant.held, hgrant.heldCritical, hgrant.masked,
        hgrant.context⟩ hcontext hunlock
    exact ⟨⟨hframe.current, hframe.cpusLock, hframe.criticalLock, hframe.fault⟩, hrun⟩
  next hnest =>
    split at hexec
    next hswitch =>
      obtain ⟨toThread, rfl⟩ := Option.isSome_iff_exists.mp hswitch.2
      cases hexec
      have hopen := openCritical_of_sched hgrant hswitch.1
      have hthread : v.cpu.context = .thread := by
        have hok := hgrant.context
        cases hc : v.cpu.context with
        | thread => rfl
        | irqExit => exact absurd hc hcontext
        | handler locks criticals =>
          rw [hc] at hok
          exact absurd hok.1 (by omega)
      refine ⟨⟨rfl, fun _ _ => Iff.rfl, fun _ _ => Iff.rfl, rfl⟩, ?_⟩
      exact
        { suspended := ⟨⟨hgrant.calls.nest, hgrant.calls.sched, hgrant.calls.nest_lt,
            hgrant.calls.sched_lt, hgrant.calls.levels, hgrant.calls.acquired,
            hgrant.calls.released, hgrant.calls.begun⟩, hopen, fun h => by
              simp [hmask] at h⟩
          held := hgrant.held
          notCritical := by
            rw [ne_eq, hgrant.heldCritical]
            simpa using hopen
          context := hthread
          irqNest := not_not.mp hnest
          phase := rfl }
    · obtain ⟨v', hunlock, rfl⟩ := Option.map_eq_some_iff.mp hexec
      obtain ⟨hrun, hframe⟩ := rtCpusUnlock_running hgrant hcontext hunlock
      exact ⟨hframe, hrun⟩

theorem rtSchedulerDoIrqSwitch_ok {target : Option Tid} {result : View × Option Tid}
    (hgrant : Granted c v) (hcontext : v.cpu.context = .irqExit)
    (hlevels : v.calls.levels = [false])
    (hexec : rtSchedulerDoIrqSwitch c target v = some result) : StepOk c v result := by
  have hreturn : ∀ result, (rtCpusUnlock c v).map (fun v => (irqReturn v, none)) =
      some result → StepOk c v result := by
    intro result hexec
    obtain ⟨v', hunlock, rfl⟩ := Option.map_eq_some_iff.mp hexec
    obtain ⟨hrun, hframe⟩ := rtCpusUnlock_irqReturn hgrant hcontext hlevels hunlock
    exact ⟨hframe, hrun⟩
  unfold rtSchedulerDoIrqSwitch at hexec
  split at hexec
  · exact hreturn result hexec
  · split at hexec
    next hswitch =>
      dsimp only at hexec
      split at hexec
      next hsome =>
        obtain ⟨toThread, rfl⟩ := Option.isSome_iff_exists.mp hsome
        cases hexec
        have hopen := openCritical_of_sched hgrant hswitch.1
        have hnest : v.thread.cpusLockNest = 1 := by
          rw [hgrant.calls.nest, hlevels]
          rfl
        refine ⟨⟨rfl, fun _ _ => Iff.rfl, fun _ _ => Iff.rfl, rfl⟩, ?_⟩
        exact
          { suspended := ⟨
              { nest := by simp [hnest, hlevels, dec16]
                sched := by simp [hswitch.1, hlevels, hopen, dec16, Calls.nestDepth]
                nest_lt := by simp [hlevels]
                sched_lt := by simp [hlevels, hopen, Calls.nestDepth]
                levels := by simp [hlevels]
                acquired := hgrant.calls.acquired
                released := hgrant.calls.released
                begun := hgrant.calls.begun }, hopen, fun _ => by simp [hlevels]⟩
            held := hgrant.held
            notCritical := by
              rw [ne_eq, hgrant.heldCritical]
              simpa using hopen
            context := rfl
            irqNest := hswitch.2
            phase := rfl }
      · obtain ⟨v', hunlock, rfl⟩ := Option.map_eq_some_iff.mp hexec
        obtain ⟨hrun, hframe⟩ := rtCpusUnlock_irqReturn
          (v := { v with cpu := { v.cpu with irqSwitchFlag := false } })
          ⟨hgrant.calls, hgrant.locked, hgrant.held, hgrant.heldCritical, hgrant.masked,
            hgrant.context⟩ hcontext hlevels hunlock
        exact ⟨⟨hframe.current, hframe.cpusLock, hframe.criticalLock, hframe.fault⟩, hrun⟩
    · exact hreturn result hexec

theorem proceed_ok {target : Option Tid} {result : View × Option Tid}
    (hrun : Running c v) (hexec : proceed c target v = some result) :
    StepOk c v result := by
  have hok := hrun.phase
  have hmask : v.cpu.phase ≠ .running → v.cpu.irqEnabled = false := by
    intro hphase
    cases henabled : v.cpu.irqEnabled with
    | false => rfl
    | true => exact absurd (hrun.irq henabled).2.1 hphase
  unfold proceed at hexec
  cases hphase : v.cpu.phase with
  | running => simp [hphase] at hexec
  | enterCritical spin level =>
    simp only [hphase] at hexec
    split at hexec
    · cases hexec
    next hfree =>
      cases hexec
      obtain ⟨hrun', hframe⟩ := enterCriticalEnd_running hrun hphase (by
        intro hspin
        by_contra hheld
        exact hfree ⟨hspin, hheld⟩)
      exact ⟨hframe, hrun'⟩
  | cpusLock spin after =>
    simp only [hphase] at hexec
    split at hexec
    · cases hexec
    next hfree =>
      obtain ⟨hgrant, hframe⟩ := granted_of_spin hrun hphase (by
        intro hspin
        by_contra hheld
        exact hfree ⟨hspin, hheld⟩)
      rw [hphase] at hok
      obtain ⟨_, hafter, hexit⟩ := hok
      have hresult : ∀ result : View × Option Tid,
          StepOk c { v with cpusLock := if spin then some c else v.cpusLock } result →
          StepOk c v result :=
        fun _ hstep => ⟨hframe.trans hstep.1, hstep.2⟩
      apply hresult
      cases after with
      | caller =>
        cases hexec
        refine ⟨⟨rfl, fun _ _ => Iff.rfl, fun _ _ => Iff.rfl, rfl⟩, ?_⟩
        exact
          { calls := hgrant.calls
            held := iff_of_true hgrant.held ⟨hgrant.locked, rfl⟩
            heldCritical := hgrant.heldCritical
            irq := by
              intro henabled
              have := hmask (by rw [hphase]; simp)
              rw [this] at henabled
              cases henabled
            masked := hgrant.masked
            context := hgrant.context
            phase := fun h => absurd (hafter.mpr h) (by simp) }
      | schedule =>
        refine rtSchedule_ok hgrant ?_ (hmask (by rw [hphase]; simp)) hexec
        exact fun h => absurd (hafter.mpr h) (by simp)
      | irqSwitch =>
        have hcontext := hafter.mp rfl
        exact rtSchedulerDoIrqSwitch_ok hgrant hcontext (hexit hcontext) hexec

end Calls

structure Inv (cpusNr : Nat) (s : LockSystem) : Prop where
  running : ∀ c t, (s.cpu c).currentThread = some t → Running c (s.view c t)
  suspended : ∀ t, (∀ c, (s.cpu c).currentThread ≠ some t) →
    Suspended (s.thread t) (s.calls t)
  once : ∀ c c' t, (s.cpu c).currentThread = some t →
    (s.cpu c').currentThread = some t → c = c'
  idle : ∀ c, (s.cpu c).currentThread = none →
    s.cpusLock ≠ some c ∧ s.criticalLock ≠ some c ∧ (s.cpu c).context = .thread ∧
      (s.cpu c).irqNest = 0 ∧ (s.cpu c).phase = .running
  absent : ∀ c, cpusNr ≤ c → (s.cpu c).currentThread = none
  fault : s.fault = false

section System

variable {cpusNr c : Nat} {s s' : LockSystem} {t : Tid} {v : View}

theorem Running.of_locks {v' : View} (hrun : Running c v) (hcpu : v'.cpu = v.cpu)
    (hthread : v'.thread = v.thread) (hcalls : v'.calls = v.calls)
    (hcpus : v'.cpusLock = some c ↔ v.cpusLock = some c)
    (hcritical : v'.criticalLock = some c ↔ v.criticalLock = some c) :
    Running c v' where
  calls := by rw [hthread, hcalls]; exact hrun.calls
  held := by rw [hcpus, hcalls, hcpu]; exact hrun.held
  heldCritical := by rw [hcritical, hcalls]; exact hrun.heldCritical
  irq := by rw [hcpu, hcalls]; exact hrun.irq
  masked := by rw [hcpu, hcalls]; exact hrun.masked
  context := by rw [hcpu]; exact hrun.context
  phase := by rw [hcpu, hcalls]; exact hrun.phase

theorem store_cpu {c' : Nat} (hne : c' ≠ c) : (s.store c t v).cpu c' = s.cpu c' :=
  update_of_ne hne _ _

theorem Frame.currentThread (hframe : Frame c (s.view c t) v) (c' : Nat) :
    ((s.store c t v).cpu c').currentThread = (s.cpu c').currentThread := by
  by_cases hne : c' = c
  · subst hne
    simpa [LockSystem.store, LockSystem.view] using hframe.current
  · rw [store_cpu hne]

section Store

variable (hinv : Inv cpusNr s) (hcurrent : (s.cpu c).currentThread = some t)
  (hframe : Frame c (s.view c t) v)
include hinv hframe

theorem Inv.store_idle {c' : Nat} (hne : c' ≠ c) (hnone : (s.cpu c').currentThread = none) :
    (s.store c t v).cpusLock ≠ some c' ∧ (s.store c t v).criticalLock ≠ some c' ∧
      ((s.store c t v).cpu c').context = .thread ∧ ((s.store c t v).cpu c').irqNest = 0 ∧
      ((s.store c t v).cpu c').phase = .running := by
  obtain ⟨hlock, hcritical, hrest⟩ := hinv.idle c' hnone
  rw [store_cpu hne]
  exact ⟨fun h => hlock ((hframe.cpusLock c' hne).mp h),
    fun h => hcritical ((hframe.criticalLock c' hne).mp h), hrest⟩

include hcurrent

/-- A section leaves the threads of the other CPUs alone. -/
theorem Inv.store_running {c' : Nat} {t' : Tid} (hne : c' ≠ c)
    (hcurrent' : (s.cpu c').currentThread = some t') :
    Running c' ((s.store c t v).view c' t') := by
  have ht : t' ≠ t := by
    rintro rfl
    exact hne (hinv.once c' c t' hcurrent' hcurrent)
  refine (hinv.running c' t' hcurrent').of_locks (store_cpu (t := t) hne) ?_ ?_
    (hframe.cpusLock c' hne) (hframe.criticalLock c' hne)
  · exact update_of_ne ht _ _
  · exact update_of_ne ht _ _

theorem Inv.store (hrun : Running c v) : Inv cpusNr (s.store c t v) where
  running := by
    intro c' t' hcurrent'
    rw [hframe.currentThread] at hcurrent'
    by_cases hne : c' = c
    · subst hne
      rw [hcurrent] at hcurrent'
      cases hcurrent'
      simpa [LockSystem.view, LockSystem.store] using hrun
    · exact hinv.store_running hcurrent hframe hne hcurrent'
  suspended := by
    intro t' hnone
    have ht : t' ≠ t := by
      rintro rfl
      exact hnone c ((hframe.currentThread c).trans hcurrent)
    simp only [LockSystem.store, update_of_ne ht]
    exact hinv.suspended t' fun c' => (hframe.currentThread c').symm ▸ hnone c'
  once := by
    intro c' c'' t'
    rw [hframe.currentThread, hframe.currentThread]
    exact hinv.once c' c'' t'
  idle := by
    intro c' hnone
    rw [hframe.currentThread] at hnone
    refine hinv.store_idle hframe ?_ hnone
    rintro rfl
    rw [hcurrent] at hnone
    cases hnone
  absent := fun c' hle => (hframe.currentThread c').trans (hinv.absent c' hle)
  fault := hframe.fault.trans hinv.fault

end Store

/-- A CPU that holds `_cpus_lock` and whose current thread, if it has one, is
ready to be left. -/
structure Open (cpusNr : Nat) (c : Nat) (s : LockSystem) : Prop where
  running : ∀ c' t, c' ≠ c → (s.cpu c').currentThread = some t →
    Running c' (s.view c' t)
  suspended : ∀ t, (∀ c', c' ≠ c → (s.cpu c').currentThread ≠ some t) →
    Suspended (s.thread t) (s.calls t)
  once : ∀ c' c'' t, (s.cpu c').currentThread = some t →
    (s.cpu c'').currentThread = some t → c' = c''
  idle : ∀ c', c' ≠ c → (s.cpu c').currentThread = none →
    s.cpusLock ≠ some c' ∧ s.criticalLock ≠ some c' ∧ (s.cpu c').context = .thread ∧
      (s.cpu c').irqNest = 0 ∧ (s.cpu c').phase = .running
  absent : ∀ c', cpusNr ≤ c' → (s.cpu c').currentThread = none
  fault : s.fault = false
  held : s.cpusLock = some c
  notCritical : s.criticalLock ≠ some c
  context : (s.cpu c).context = .thread
  irqNest : (s.cpu c).irqNest = 0
  phase : (s.cpu c).phase = .running

/-- `rt_cpus_lock_status_restore`: the lock follows the counters of the thread
switched to. -/
theorem Open.restore (hopen : Open cpusNr c s) (hc : c < cpusNr)
    (hfree : s.NotCurrent cpusNr t) : Inv cpusNr (s.restore c t) := by
  have hnot : ∀ c', (s.cpu c').currentThread ≠ some t := by
    intro c' hcurrent
    by_cases hlt : c' < cpusNr
    · exact hfree c' hlt hcurrent
    · rw [hopen.absent c' (by omega)] at hcurrent
      cases hcurrent
  have hsusp := hopen.suspended t (fun c' _ => hnot c')
  have hcpu : ∀ c', c' ≠ c → (s.restore c t).cpu c' = s.cpu c' :=
    fun c' hne => update_of_ne hne _ _
  have hself : (s.restore c t).cpu c =
      { s.cpu c with currentThread := some t, irqEnabled := (s.calls t).savedIrq } :=
    update_self _ _ _
  have hlock : (s.restore c t).cpusLock = some c ↔ (s.calls t).levels ≠ [] := by
    simp only [LockSystem.restore, hsusp.ok.nest_eq_zero_iff, hopen.held]
    cases (s.calls t).levels with
    | nil => simp
    | cons => simp
  have hother : ∀ c', c' ≠ c → ((s.restore c t).cpusLock = some c' ↔
      s.cpusLock = some c') := by
    intro c' hne
    simp only [LockSystem.restore, hopen.held, Option.some.injEq]
    split
    · simpa using fun h => hne h.symm
    · simp
  exact
    { running := by
        intro c' t' hcurrent
        by_cases hne : c' = c
        · subst hne
          rw [hself] at hcurrent
          cases hcurrent
          exact
            { calls := hsusp.ok
              held := by
                simp only [LockSystem.view, hlock, hself, hopen.phase]
                simp [Phase.spinsForCpus, LockSystem.restore]
              heldCritical := iff_of_false hopen.notCritical
                (not_not.mpr hsusp.openCritical)
              irq := by
                simp only [LockSystem.view, hself]
                exact fun h => ⟨hsusp.savedIrq h, hopen.phase, hopen.context⟩
              masked := by
                simp only [LockSystem.view, hself]
                exact fun _ => hopen.context
              context := by
                simp only [LockSystem.view, hself, hopen.context]
                exact hopen.irqNest
              phase := by
                simp only [LockSystem.view, hself, hopen.context, hopen.phase]
                simp [Phase.Ok] }
        · rw [hcpu c' hne] at hcurrent
          exact (hopen.running c' t' hne hcurrent).of_locks (hcpu c' hne) rfl rfl
            (hother c' hne) Iff.rfl
      suspended := by
        intro t' hnone
        refine hopen.suspended t' (fun c' hne => ?_)
        have := hnone c'
        rwa [hcpu c' hne] at this
      once := by
        have hcase : ∀ c' t', ((s.restore c t).cpu c').currentThread = some t' →
            (c' = c ∧ t' = t) ∨ (c' ≠ c ∧ (s.cpu c').currentThread = some t') := by
          intro c' t' hcurrent
          by_cases hne : c' = c
          · subst hne
            rw [hself] at hcurrent
            exact .inl ⟨rfl, (Option.some.inj hcurrent).symm⟩
          · rw [hcpu c' hne] at hcurrent
            exact .inr ⟨hne, hcurrent⟩
        intro c' c'' t' hfirst hsecond
        rcases hcase c' t' hfirst with ⟨rfl, rfl⟩ | ⟨_, hfirst'⟩
        · rcases hcase c'' t' hsecond with ⟨rfl, _⟩ | ⟨_, hsecond'⟩
          · rfl
          · exact absurd hsecond' (hnot c'')
        · rcases hcase c'' t' hsecond with ⟨_, rfl⟩ | ⟨_, hsecond'⟩
          · exact absurd hfirst' (hnot c')
          · exact hopen.once c' c'' t' hfirst' hsecond'
      idle := by
        intro c' hnone
        have hne : c' ≠ c := by
          rintro rfl
          rw [hself] at hnone
          cases hnone
        rw [hcpu c' hne] at hnone ⊢
        obtain ⟨hcpus, hrest⟩ := hopen.idle c' hne hnone
        exact ⟨fun h => hcpus ((hother c' hne).mp h), hrest⟩
      absent := by
        intro c' hle
        rw [hcpu c' (by omega)]
        exact hopen.absent c' hle
      fault := by simp [LockSystem.restore, hopen.fault, hopen.held] }

theorem Inv.switch (hinv : Inv cpusNr s) (hcurrent : (s.cpu c).currentThread = some t)
    (hframe : Frame c (s.view c t) v) (hleave : Leaving c v) :
    Open cpusNr c (s.store c t v) := by
  have hself : (s.store c t v).cpu c = v.cpu := update_self _ _ _
  exact
    { running := by
        intro c' t' hne hcurrent'
        rw [hframe.currentThread] at hcurrent'
        exact hinv.store_running hcurrent hframe hne hcurrent'
      suspended := by
        intro t' hnone
        by_cases ht : t' = t
        · subst ht
          simpa [LockSystem.store] using hleave.suspended
        · simp only [LockSystem.store, update_of_ne ht]
          refine hinv.suspended t' (fun c' hcurrent' => ?_)
          by_cases hne : c' = c
          · subst hne
            rw [hcurrent] at hcurrent'
            exact ht (Option.some.inj hcurrent').symm
          · exact hnone c' hne ((hframe.currentThread c').trans hcurrent')
      once := by
        intro c' c'' t'
        rw [hframe.currentThread, hframe.currentThread]
        exact hinv.once c' c'' t'
      idle := by
        intro c' hne hnone
        rw [hframe.currentThread] at hnone
        exact hinv.store_idle hframe hne hnone
      absent := fun c' hle => (hframe.currentThread c').trans (hinv.absent c' hle)
      fault := hframe.fault.trans hinv.fault
      held := hleave.held
      notCritical := hleave.notCritical
      context := by rw [hself]; exact hleave.context
      irqNest := by rw [hself]; exact hleave.irqNest
      phase := by rw [hself]; exact hleave.phase }

theorem Inv.boot (hinv : Inv cpusNr s) (hnone : (s.cpu c).currentThread = none)
    (hlock : s.cpusLock = none) : Open cpusNr c { s with cpusLock := some c } := by
  obtain ⟨_, hcritical, hcontext, hnest, hphase⟩ := hinv.idle c hnone
  have hlocks : ∀ c', c' ≠ c → ((some c : Option Nat) = some c' ↔ s.cpusLock = some c') := by
    intro c' hne
    simpa [hlock] using fun h => hne h.symm
  exact
    { running := fun c' t hne hcurrent =>
        (hinv.running c' t hcurrent).of_locks rfl rfl rfl (hlocks c' hne) Iff.rfl
      suspended := by
        intro t hother
        refine hinv.suspended t (fun c' hcurrent => ?_)
        by_cases hne : c' = c
        · subst hne
          rw [hnone] at hcurrent
          cases hcurrent
        · exact hother c' hne hcurrent
      once := hinv.once
      idle := by
        intro c' hne hidle
        refine ⟨fun h => ?_, (hinv.idle c' hidle).2⟩
        exact hne (Option.some.inj h).symm
      absent := hinv.absent
      fault := hinv.fault
      held := rfl
      notCritical := hcritical
      context := hcontext
      irqNest := hnest
      phase := hphase }

theorem onCpu_eq_some {call : View → Option View} (hexec : s.onCpu c call = some s') :
    ∃ t v, (s.cpu c).currentThread = some t ∧ call (s.view c t) = some v ∧
      s' = s.store c t v := by
  simp only [LockSystem.onCpu, Option.bind_eq_some_iff, Option.map_eq_some_iff] at hexec
  obtain ⟨t, hcurrent, v, hcall, rfl⟩ := hexec
  exact ⟨t, v, hcurrent, hcall, rfl⟩

theorem atCall_eq_some {call : View → Option View} {v v' : View}
    (hexec : atCall call v = some v') :
    v.cpu.phase = .running ∧ v.cpu.context ≠ .irqExit ∧ call v = some v' := by
  unfold atCall at hexec
  split at hexec
  next h => exact ⟨h.1, h.2, hexec⟩
  · cases hexec

theorem Inv.lock (after : AfterLock) (hinv : Inv cpusNr s) (hafter : after ≠ .irqSwitch)
    (hdepth : depthOk s (.lock c) = true)
    (hexec : s.onCpu c (atCall fun v => some (rtCpusLock c after v)) = some s') :
    Inv cpusNr s' := by
  obtain ⟨t, v, hcurrent, hcall, rfl⟩ := onCpu_eq_some hexec
  obtain ⟨hphase, hcontext, hlock⟩ := atCall_eq_some hcall
  cases hlock
  obtain ⟨hnest, hopen⟩ : _ ∧ _ := by
    simpa only [depthOk, Op.caller, hcurrent, Option.all_some, decide_eq_true_eq] using hdepth
  obtain ⟨hrun, hframe⟩ := rtCpusLock_running (hinv.running c t hcurrent) hphase
    after (iff_of_false hafter hcontext) hnest hopen
  exact hinv.store hcurrent hframe hrun

theorem runOp_inv {op : Op} (hinv : Inv cpusNr s) (hcaller : op.caller < cpusNr)
    (hdepth : depthOk s op = true) (hexec : runOp cpusNr s op = some s') : Inv cpusNr s' := by
  cases op with
  | start c t =>
    simp only [runOp] at hexec
    split at hexec
    next hboot =>
      cases hexec
      exact (hinv.boot hboot.1 hboot.2.1).restore hcaller hboot.2.2
    · cases hexec
  | lock c => exact hinv.lock .caller nofun hdepth hexec
  | unlock c =>
    obtain ⟨t, v, hcurrent, hcall, rfl⟩ := onCpu_eq_some hexec
    obtain ⟨hphase, hcontext, hunlock⟩ := atCall_eq_some hcall
    have hlocked : (s.view c t).calls.levels ≠ [] := by
      intro hnil
      simp [rtCpusUnlock, hnil] at hunlock
    obtain ⟨hrun, hframe⟩ := rtCpusUnlock_running
      ((hinv.running c t hcurrent).granted hphase hlocked) hcontext hunlock
    exact hinv.store hcurrent hframe hrun
  | enterCritical c =>
    obtain ⟨t, v, hcurrent, hcall, rfl⟩ := onCpu_eq_some hexec
    obtain ⟨hphase, hcontext, henter⟩ := atCall_eq_some hcall
    cases henter
    obtain ⟨hrun, hframe⟩ := rtEnterCritical_running (hinv.running c t hcurrent)
      hphase hcontext (by
        simpa only [depthOk, Op.caller, hcurrent, Option.all_some, decide_eq_true_eq,
          LockSystem.view] using hdepth)
    exact hinv.store hcurrent hframe hrun
  | exitCritical c =>
    obtain ⟨t, v, hcurrent, hcall, rfl⟩ := onCpu_eq_some hexec
    obtain ⟨hphase, _, hexit⟩ := atCall_eq_some hcall
    obtain ⟨hrun, hframe⟩ := rtExitCritical_running (hinv.running c t hcurrent)
      hphase hexit
    exact hinv.store hcurrent hframe hrun
  | schedule c => exact hinv.lock .schedule nofun hdepth hexec
  | interruptEnter c =>
    obtain ⟨t, v, hcurrent, hcall, rfl⟩ := onCpu_eq_some hexec
    obtain ⟨_, _, henter⟩ := atCall_eq_some hcall
    obtain ⟨hrun, hframe⟩ := rtInterruptEnter_running (hinv.running c t hcurrent) henter
    exact hinv.store hcurrent hframe hrun
  | interruptLeave c =>
    obtain ⟨t, v, hcurrent, hcall, rfl⟩ := onCpu_eq_some hexec
    obtain ⟨hphase, _, hleave⟩ := atCall_eq_some hcall
    obtain ⟨hrun, hframe⟩ := rtInterruptLeave_running (hinv.running c t hcurrent)
      hphase hleave
    exact hinv.store hcurrent hframe hrun
  | doIrqSwitch c =>
    obtain ⟨t, v, hcurrent, hcall, rfl⟩ := onCpu_eq_some hexec
    unfold atIrqExit at hcall
    split at hcall
    next hexit =>
      cases hcall
      obtain ⟨hnest, hopen⟩ : _ ∧ _ := by
        simpa only [depthOk, Op.caller, hcurrent, Option.all_some, decide_eq_true_eq]
          using hdepth
      obtain ⟨hrun, hframe⟩ := rtCpusLock_running (hinv.running c t hcurrent) hexit.1
        .irqSwitch (by simpa using hexit.2) hnest hopen
      exact hinv.store hcurrent hframe hrun
    · cases hcall
  | proceed c target =>
    simp only [runOp] at hexec
    split at hexec
    · cases hexec
    next t hcurrent =>
      split at hexec
      · cases hexec
      next v hproceed =>
        cases hexec
        obtain ⟨hframe, hrun⟩ := proceed_ok (hinv.running c t hcurrent) hproceed
        exact hinv.store hcurrent hframe hrun
      next v toThread hproceed =>
        split at hexec
        next hfree =>
          cases hexec
          obtain ⟨hframe, hleave⟩ := proceed_ok (hinv.running c t hcurrent) hproceed
          have hopen := hinv.switch hcurrent hframe hleave
          refine hopen.restore hcaller ?_
          intro c' hlt
          by_cases hne : c' = c
          · subst hne
            simp only [LockSystem.store, update_self]
            rw [hframe.current]
            exact hfree c' hlt
          · simp only [LockSystem.store, update_of_ne hne]
            exact hfree c' hlt
        · cases hexec

end System

end RtThread.Cpu
