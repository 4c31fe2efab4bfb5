import RtThread.Cpu.CriticalLevel
import RtThread.Lib.Transducer

namespace RtThread.Pthreads

open Function RtThread.Lib RtThread.Cpu

/-! `pthread_once`, with `rt_enter_critical` and `rt_exit_critical` of both builds of `scheduler.c`.

A step is a critical section, or the end of the routine with what follows it. -/

/-- `nest` is `scheduler_lock_nest` of each thread; without `RT_USING_SMP` it is
`rt_scheduler_lock_nest`, for the thread that holds the scheduler lock.  `holder` is that thread, or
the one that holds `_rt_critical_lock`.

History: `entered` is the counter with which a thread made its last call, `owned` the number of
sections that it is in outside of `pthread_once`, `started` that of the calls of the routine; `called`,
`finished` and `returned` say whether a call was made, the routine has returned and a call has
returned. -/
structure OnceSystem where
  onceControl : Bool
  nest : Tid → Int
  holder : Option Tid
  inRoutine : Tid → Bool
  entered : Tid → Int
  owned : Tid → Nat
  started : Nat
  called : Bool
  finished : Bool
  returned : Bool

inductive OnceCall
  | enterCritical (t : Tid)
  | exitCritical (t : Tid)
  | once (t : Tid)
  | routineReturns (t : Tid)
  deriving DecidableEq

inductive OnceEvent
  | proceeds
  | callsRoutine
  | returns
  deriving DecidableEq

def OnceCall.thread : OnceCall → Tid
  | .enterCritical t | .exitCritical t | .once t | .routineReturns t => t

namespace OnceSystem

def init : OnceSystem where
  onceControl := false
  nest _ := 0
  holder := none
  inRoutine _ := false
  entered _ := 0
  owned _ := 0
  started := 0
  called := false
  finished := false
  returned := false

/-- What the counter keeps of a value: an `rt_uint16_t` with `RT_USING_SMP`, else an `rt_int16_t` -/
def storeNest (smp : Bool) (n : Int) : Int := if smp then n % 65536 else int16 n

def enterNest (smp : Bool) (n : Int) : Int :=
  if smp then storeNest smp (n + 1) else Up.rtEnterCritical n

def leaveNest (smp : Bool) (n : Int) : Int :=
  if smp then storeNest smp (n - 1) else Up.rtExitCritical n

def rtEnterCritical (smp : Bool) (t : Tid) (s : OnceSystem) : OnceSystem :=
  { s with
    holder := if s.nest t = 0 then some t else s.holder
    nest := update s.nest t (enterNest smp (s.nest t)) }

def rtExitCritical (smp : Bool) (t : Tid) (s : OnceSystem) : OnceSystem :=
  { s with
    nest := update s.nest t (leaveNest smp (s.nest t))
    holder := if leaveNest smp (s.nest t) = 0 then none else s.holder }

def pthreadOnce (smp : Bool) (t : Tid) (s : OnceSystem) : OnceEvent × OnceSystem :=
  let s := { s.rtEnterCritical smp t with
    called := true
    entered := update s.entered t (s.nest t) }
  if s.onceControl then (.returns, { rtExitCritical smp t s with returned := true })
  else
    (.callsRoutine,
      { rtExitCritical smp t { s with onceControl := true } with
        inRoutine := update s.inRoutine t true
        started := s.started + 1 })

def routineReturns (smp : Bool) (t : Tid) (s : OnceSystem) : OnceSystem :=
  { rtExitCritical smp t s with
    inRoutine := update s.inRoutine t false
    finished := true
    returned := true }

/-- The scheduler is not locked by another thread, where a lock stops all other threads. -/
def canRun (smp : Bool) (t : Tid) (s : OnceSystem) : Bool :=
  smp || decide (s.holder = none ∨ s.holder = some t)

/-- `rt_enter_critical` does not wait, and finds fewer than `RT_UINT16_MAX` sections, its maximum. -/
def canEnter (smp : Bool) (t : Tid) (s : OnceSystem) : Bool :=
  s.canRun smp t && decide (s.nest t = 0 → s.holder = none) &&
    decide (enterNest smp (s.nest t) ≠ 0)

end OnceSystem

/-- The threads that call `pthread_once` on one control word, inside or outside of critical sections
of their own. -/
def onceCalls (smp : Bool) : Transducer OnceSystem OnceCall OnceEvent where
  step s
    | .enterCritical t =>
      if !s.inRoutine t && s.canEnter smp t then
        some (.proceeds, { s.rtEnterCritical smp t with
          owned := update s.owned t (s.owned t + 1) })
      else none
    | .exitCritical t =>
      if !s.inRoutine t && s.canRun smp t && decide (0 < s.owned t) then
        some (.proceeds, { s.rtExitCritical smp t with
          owned := update s.owned t (s.owned t - 1) })
      else none
    | .once t =>
      if !s.inRoutine t && s.canEnter smp t then some (s.pthreadOnce smp t) else none
    | .routineReturns t =>
      if s.inRoutine t && s.canRun smp t then some (.returns, s.routineReturns smp t) else none

/-- The routine is called once, no call returns before it has, and a call that returns leaves the
depth of its caller as it found it. -/
structure OnceRight (s : OnceSystem) (t : Tid) (event : OnceEvent) : Prop where
  once : s.started = if s.called then 1 else 0
  waits : s.returned = true → s.finished = true
  depth : event = .returns → s.nest t = s.entered t

def OnceCallRight (smp : Bool) (s : OnceSystem) (call : OnceCall) : Prop :=
  ∀ event s', (onceCalls smp).step s call = some (event, s') → OnceRight s' call.thread event

/-- No call is made while the routine runs, or at a depth that the `rt_int16_t` has as a negative
one, and the call that runs the routine is made outside of critical sections, in the build that keeps
the counter at 0. -/
def OnceCall.Meets (smp : Bool) (s : OnceSystem) : OnceCall → Prop
  | .once t => s.onceControl = false ∨ s.finished = true ∧ (smp = false → 0 ≤ s.nest t)
  | .routineReturns t => smp = false ∧ s.entered t = 0
  | _ => True

def OnceFine (smp : Bool) (s : OnceSystem) (call : OnceCall) : Prop :=
  (onceCalls smp).step s call ≠ none → call.Meets smp s

namespace OnceSystem

/-- `inside` has the counter of the thread that runs the routine, which has left its section. -/
structure Inv (smp : Bool) (s : OnceSystem) : Prop where
  control : s.onceControl = s.called
  once : s.started = if s.called then 1 else 0
  waits : s.returned = true → s.finished = true
  finished : s.finished = true → s.called = true
  routine : ∀ t, s.inRoutine t = true → s.onceControl = true
  stored : ∀ t, storeNest smp (s.nest t) = s.nest t
  inside : ∀ t, s.inRoutine t = true →
    s.nest t = if smp then s.entered t else max (s.entered t) 0

variable {s s' : OnceSystem} {smp : Bool} {t : Tid}

theorem storeNest_idem (smp : Bool) (n : Int) : storeNest smp (storeNest smp n) = storeNest smp n := by
  cases smp with
  | true => exact Int.emod_emod_of_dvd _ dvd_rfl
  | false => exact Int.bmod_bmod ..

theorem storeNest_enter (smp : Bool) (n : Int) :
    storeNest smp (enterNest smp n) = enterNest smp n := by
  cases smp <;> exact storeNest_idem _ (n + 1)

theorem storeNest_leave (smp : Bool) (n : Int) :
    storeNest smp (leaveNest smp n) = leaveNest smp n := by
  cases smp with
  | true => exact storeNest_idem true (n - 1)
  | false =>
    show int16 (if int16 (n - 1) ≤ 0 then 0 else int16 (n - 1)) = _
    split
    next hle => exact (if_pos hle).symm
    next hpos =>
      rw [show int16 (int16 (n - 1)) = int16 (n - 1) from storeNest_idem false (n - 1)]
      exact (if_neg hpos).symm

/-- A section that is left by its own exit: only a negative counter is not restored. -/
theorem leaveNest_enterNest {n : Int} (hstored : storeNest smp n = n) :
    leaveNest smp (enterNest smp n) = if smp then n else max n 0 := by
  cases smp with
  | true =>
    have hsmall : n % 65536 = n := hstored
    show ((n + 1) % 65536 - 1) % 65536 = n
    omega
  | false =>
    have hback : int16 (int16 (n + 1) - 1) = n := by
      have hsame : (n + 1 - 1).bmod 65536 = n := by rwa [Int.add_sub_cancel]
      exact (Int.bmod_sub_bmod ..).trans hsame
    show (if int16 (int16 (n + 1) - 1) ≤ 0 then 0 else int16 (int16 (n + 1) - 1)) = max n 0
    rw [hback]
    split <;> omega

theorem leaveNest_section_eq (smp : Bool) (n : Int) :
    leaveNest smp (if smp then n else max n 0) = n ↔ smp = false ∧ n = 0 := by
  cases smp with
  | true =>
    show (n - 1) % 65536 = n ↔ _
    simp only [Bool.true_eq_false, false_and, iff_false]
    omega
  | false =>
    show (if int16 (max n 0 - 1) ≤ 0 then 0 else int16 (max n 0 - 1)) = n ↔ _
    simp only [true_and]
    unfold int16
    rw [Int.bmod_def]
    omega

theorem section_nest (hstored : storeNest smp (s.nest t) = s.nest t) :
    ((s.rtEnterCritical smp t).rtExitCritical smp t).nest =
      update s.nest t (if smp then s.nest t else max (s.nest t) 0) := by
  unfold rtEnterCritical rtExitCritical
  dsimp only
  rw [update_self, leaveNest_enterNest hstored, update_idem]

theorem stored_update {nest : Tid → Int} (hstored : ∀ t, storeNest smp (nest t) = nest t) {n : Int}
    (hn : storeNest smp n = n) (t t' : Tid) :
    storeNest smp (update nest t n t') = update nest t n t' := by
  by_cases ht : t' = t
  · rw [ht, update_self, hn]
  · rw [update_of_ne ht]
    exact hstored t'

theorem inside_update (hinv : s.Inv smp) (hout : s.inRoutine t = false) (n entered : Int) (t' : Tid)
    (hin : s.inRoutine t' = true) :
    update s.nest t n t' =
      if smp then update s.entered t entered t' else max (update s.entered t entered t') 0 := by
  have ht : t' ≠ t := by
    rintro rfl
    exact Bool.noConfusion (hin.symm.trans hout)
  rw [update_of_ne ht, update_of_ne ht]
  exact hinv.inside t' hin

theorem Inv.counter (hinv : s.Inv smp) (hout : s.inRoutine t = false) {n : Int}
    (hn : storeNest smp n = n) (holder : Option Tid) (owned : Tid → Nat) :
    Inv smp { s with nest := update s.nest t n, holder, owned } := by
  refine ⟨hinv.control, hinv.once, hinv.waits, hinv.finished, hinv.routine,
    stored_update hinv.stored hn t, fun t' hin => ?_⟩
  have hinside := inside_update hinv hout n (s.entered t) t' hin
  rwa [update_eq_self] at hinside

theorem pthreadOnce_first (hfirst : s.onceControl = false) :
    s.pthreadOnce smp t = (.callsRoutine,
      { (s.rtEnterCritical smp t).rtExitCritical smp t with
        called := true
        entered := update s.entered t (s.nest t)
        onceControl := true
        inRoutine := update s.inRoutine t true
        started := s.started + 1 }) := by
  have hcontrol : ¬ (s.rtEnterCritical smp t).onceControl = true := by
    show ¬ s.onceControl = true
    rw [hfirst]
    exact Bool.false_ne_true
  unfold pthreadOnce
  dsimp only
  rw [if_neg hcontrol]
  rfl

theorem pthreadOnce_later (hlater : s.onceControl = true) :
    s.pthreadOnce smp t = (.returns,
      { (s.rtEnterCritical smp t).rtExitCritical smp t with
        called := true
        entered := update s.entered t (s.nest t)
        returned := true }) := by
  have hcontrol : (s.rtEnterCritical smp t).onceControl = true := hlater
  unfold pthreadOnce
  dsimp only
  rw [if_pos hcontrol]
  rfl

theorem stored_section (smp : Bool) {n : Int} (hstored : storeNest smp n = n) :
    storeNest smp (if smp then n else max n 0) = if smp then n else max n 0 := by
  rw [← leaveNest_enterNest hstored, storeNest_leave]

theorem Inv.first (hinv : s.Inv smp) (hfirst : s.onceControl = false) :
    (s.pthreadOnce smp t).2.Inv smp := by
  have hcalled : s.called = false := hinv.control.symm.trans hfirst
  have honce := hinv.once
  rw [hcalled] at honce
  rw [pthreadOnce_first hfirst]
  refine ⟨rfl, ?_, hinv.waits, fun _ => rfl, fun _ _ => rfl, fun t' => ?_, fun t' hin => ?_⟩
  · show s.started + 1 = 1
    rw [honce]
    rfl
  · dsimp only
    rw [section_nest (hinv.stored t)]
    exact stored_update hinv.stored (stored_section smp (hinv.stored t)) t t'
  · dsimp only at hin ⊢
    rw [section_nest (hinv.stored t)]
    by_cases ht : t' = t
    · rw [ht, update_self, update_self]
    · rw [update_of_ne ht] at hin
      have hcontrol := hinv.routine t' hin
      exact Bool.noConfusion (hfirst.symm.trans hcontrol)

theorem later_iff (hinv : s.Inv smp) (hlater : s.onceControl = true) :
    OnceRight (s.pthreadOnce smp t).2 t (s.pthreadOnce smp t).1 ↔
      s.finished = true ∧ (smp = false → 0 ≤ s.nest t) := by
  have hcalled : s.called = true := hinv.control.symm.trans hlater
  have honce := hinv.once
  rw [hcalled] at honce
  have hdepth : (if smp then s.nest t else max (s.nest t) 0) = s.nest t ↔
      (smp = false → 0 ≤ s.nest t) := by
    cases smp with
    | true => simp
    | false => simp
  rw [pthreadOnce_later hlater, ← hdepth]
  have hsection := congrFun (section_nest (hinv.stored t)) t
  rw [update_self] at hsection
  constructor
  · intro hright
    have hkept := hright.depth rfl
    dsimp only at hkept
    rw [update_self, hsection] at hkept
    exact ⟨hright.waits rfl, hkept⟩
  · rintro ⟨hfinished, hkept⟩
    refine ⟨honce, fun _ => hfinished, fun _ => ?_⟩
    dsimp only
    rw [update_self, hsection, hkept]

theorem Inv.later (hinv : s.Inv smp) (hlater : s.onceControl = true) (hout : s.inRoutine t = false)
    (hfinished : s.finished = true) : (s.pthreadOnce smp t).2.Inv smp := by
  have hcalled : s.called = true := hinv.control.symm.trans hlater
  have honce := hinv.once
  rw [hcalled] at honce
  rw [pthreadOnce_later hlater]
  refine ⟨hlater, honce, fun _ => hfinished, fun _ => rfl, fun _ _ => hlater, fun t' => ?_,
    fun t' hin => ?_⟩
  · dsimp only
    rw [section_nest (hinv.stored t)]
    exact stored_update hinv.stored (stored_section smp (hinv.stored t)) t t'
  · dsimp only
    rw [section_nest (hinv.stored t)]
    exact inside_update hinv hout _ _ t' hin

theorem routineReturns_iff (hinv : s.Inv smp) (hin : s.inRoutine t = true) :
    OnceRight (s.routineReturns smp t) t .returns ↔ smp = false ∧ s.entered t = 0 := by
  have hnest : (s.routineReturns smp t).nest t =
      leaveNest smp (if smp then s.entered t else max (s.entered t) 0) := by
    rw [← hinv.inside t hin]
    exact update_self ..
  rw [← leaveNest_section_eq]
  constructor
  · intro hright
    exact hnest.symm.trans (hright.depth rfl)
  · intro hsame
    exact ⟨hinv.once, fun _ => rfl, fun _ => hnest.trans hsame⟩

theorem Inv.routineReturns (hinv : s.Inv smp) (hin : s.inRoutine t = true) :
    (s.routineReturns smp t).Inv smp := by
  have hstarted := hinv.routine t hin
  refine ⟨hinv.control, hinv.once, fun _ => rfl, fun _ => ?_, fun _ _ => hstarted,
    stored_update hinv.stored (storeNest_leave smp _) t, fun t' hin' => ?_⟩
  · exact hinv.control.symm.trans hstarted
  · have hin'' : update s.inRoutine t false t' = true := hin'
    have ht : t' ≠ t := by
      rintro rfl
      rw [update_self] at hin''
      cases hin''
    rw [update_of_ne ht] at hin''
    exact (update_of_ne ht ..).trans (hinv.inside t' hin'')

theorem callRight_iff {call : OnceCall} {event : OnceEvent}
    (hstep : (onceCalls smp).step s call = some (event, s')) :
    OnceCallRight smp s call ↔ OnceRight s' call.thread event := by
  constructor
  · intro hright
    exact hright event s' hstep
  · intro hright event' s'' hstep'
    cases hstep.symm.trans hstep'
    exact hright

theorem proceeds_right (hinv : s'.Inv smp) (t : Tid) : OnceRight s' t .proceeds :=
  ⟨hinv.once, hinv.waits, nofun⟩

theorem step_cases {call : OnceCall} {event : OnceEvent} (hinv : s.Inv smp)
    (hstep : (onceCalls smp).step s call = some (event, s')) :
    (event = .proceeds ∧ call.Meets smp s ∧ s'.Inv smp) ∨
    (∃ t, call = .once t ∧ s.inRoutine t = false ∧
      event = (s.pthreadOnce smp t).1 ∧ s' = (s.pthreadOnce smp t).2) ∨
    ∃ t, call = .routineReturns t ∧ s.inRoutine t = true ∧
      event = .returns ∧ s' = s.routineReturns smp t := by
  cases call with
  | enterCritical t =>
    obtain ⟨hguard, heq⟩ := Option.ite_none_right_eq_some.mp hstep
    rw [Bool.and_eq_true, Bool.not_eq_true'] at hguard
    cases heq
    exact .inl ⟨rfl, trivial, hinv.counter hguard.1 (storeNest_enter smp _) _ _⟩
  | exitCritical t =>
    obtain ⟨hguard, heq⟩ := Option.ite_none_right_eq_some.mp hstep
    rw [Bool.and_eq_true, Bool.and_eq_true, Bool.not_eq_true'] at hguard
    cases heq
    exact .inl ⟨rfl, trivial, hinv.counter hguard.1.1 (storeNest_leave smp _) _ _⟩
  | once t =>
    obtain ⟨hguard, heq⟩ := Option.ite_none_right_eq_some.mp hstep
    rw [Bool.and_eq_true, Bool.not_eq_true'] at hguard
    have hpair := (Option.some.inj heq).symm
    exact .inr (.inl ⟨t, rfl, hguard.1, congrArg Prod.fst hpair, congrArg Prod.snd hpair⟩)
  | routineReturns t =>
    obtain ⟨hguard, heq⟩ := Option.ite_none_right_eq_some.mp hstep
    rw [Bool.and_eq_true] at hguard
    cases heq
    exact .inr (.inr ⟨t, rfl, hguard.1, rfl, rfl⟩)

theorem callRight_iff_fine (hinv : s.Inv smp) (call : OnceCall) :
    OnceCallRight smp s call ↔ OnceFine smp s call := by
  cases hstep : (onceCalls smp).step s call with
  | none =>
    refine iff_of_true (fun event s' hsome => ?_) fun hne => absurd hstep hne
    rw [hstep] at hsome
    cases hsome
  | some outcome =>
    obtain ⟨event, s'⟩ := outcome
    have hne : (onceCalls smp).step s call ≠ none := by
      rw [hstep]
      exact Option.some_ne_none _
    rw [callRight_iff hstep, OnceFine, forall_prop_of_true hne]
    obtain ⟨rfl, hmeets, hinv'⟩ | ⟨t, rfl, -, rfl, rfl⟩ | ⟨t, rfl, hin, rfl, rfl⟩ :=
      step_cases hinv hstep
    · exact iff_of_true (proceeds_right hinv' _) hmeets
    · cases hcontrol : s.onceControl with
      | false =>
        have hinv' := hinv.first (t := t) hcontrol
        refine iff_of_true ⟨hinv'.once, hinv'.waits, fun hreturns => ?_⟩ (.inl hcontrol)
        rw [pthreadOnce_first hcontrol] at hreturns
        cases hreturns
      | true =>
        rw [OnceCall.thread, later_iff hinv hcontrol, OnceCall.Meets, hcontrol]
        exact (or_iff_right Bool.noConfusion).symm
    · exact routineReturns_iff hinv hin

theorem Inv.step {call : OnceCall} {event : OnceEvent} (hinv : s.Inv smp)
    (hright : OnceCallRight smp s call)
    (hstep : (onceCalls smp).step s call = some (event, s')) : s'.Inv smp := by
  have hafter := hright event s' hstep
  obtain ⟨-, -, hinv'⟩ | ⟨t, rfl, hout, rfl, rfl⟩ | ⟨t, rfl, hin, rfl, rfl⟩ := step_cases hinv hstep
  · exact hinv'
  · cases hcontrol : s.onceControl with
    | false => exact hinv.first hcontrol
    | true => exact hinv.later hcontrol hout ((later_iff hinv hcontrol).mp hafter).1
  · exact hinv.routineReturns hin

theorem Inv.init (smp : Bool) : OnceSystem.init.Inv smp :=
  ⟨rfl, rfl, nofun, nofun, nofun, fun _ => by cases smp <;> rfl, nofun⟩

end OnceSystem

/-- The law holds of just those runs in which the calls are fine. -/
theorem once_iff (smp : Bool) (calls : List OnceCall) :
    (onceCalls smp).Along (OnceCallRight smp) .init calls ↔
      (onceCalls smp).Along (OnceFine smp) .init calls :=
  Transducer.along_iff (OnceSystem.Inv smp)
    (fun _ call hinv => OnceSystem.callRight_iff_fine hinv call)
    (fun _ _ _ _ hinv hright hstep => hinv.step hright hstep) (OnceSystem.Inv.init smp)

/-- Callers outside of critical sections, one after the other. -/
example : (onceCalls false).Along (OnceFine false) .init [.once 0, .routineReturns 0, .once 1] := by
  refine ⟨fun _ => .inl rfl, fun _ _ hfirst => ?_⟩
  cases hfirst
  refine ⟨fun _ => ⟨rfl, rfl⟩, fun _ _ hreturns => ?_⟩
  cases hreturns
  exact ⟨fun _ => .inr ⟨rfl, fun _ => Int.le_refl 0⟩, fun _ _ _ => trivial⟩

/-- The routine has run and returned, and the counter of the scheduler lock has wrapped around. -/
theorem once_leaves_twice :
    ¬ (onceCalls true).Along (OnceCallRight true) .init [.once 0, .routineReturns 0] := by
  rintro ⟨-, halong⟩
  obtain ⟨hright, -⟩ := halong _ _ rfl
  have hdepth : (65535 : Int) = 0 := (hright _ _ rfl).depth rfl
  cases hdepth

end RtThread.Pthreads
