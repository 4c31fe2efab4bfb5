import RtThread.Scheduler.ThreadSteps

namespace RtThread.Scheduler

open RtThread.Lib

section Removal

variable {cfg : Config} {away : Option Nat} {k : Kernel} {t : Tid}

theorem Inv.removalAgreesAt_of_bitmapOk (hinv : Inv cfg away k)
    (hstarted : (k.thread t).stat ≠ .init)
    (hbitmap : ((rtScheduleRemoveThread cfg t k).queue
      (k.thread t).bindCpu).BitmapOk cfg) :
    removalAgreesAt cfg t k = true := by
  by_contra hnot
  simp only [removalAgreesAt, Bool.not_eq_true, Bool.or_eq_false_iff,
    Bool.not_eq_false', decide_eq_false_iff_not, not_not] at hnot
  obtain ⟨⟨⟨htwo, hbind⟩, hempty⟩, htest⟩ := hnot
  have hok := hinv.threads t
  have hmasks := hok.masks hstarted
  have hnumber : (k.thread t).number < 32 := by
    rw [hmasks.number htwo]
    exact Config.priority_div_lt hok.currentPriority_lt
  have hgroup := hbitmap.group_iff htwo _ hok.currentPriority_lt
  rw [← hmasks.number htwo, rtScheduleRemoveThread_queue, if_pos hempty,
    Function.update_self] at hgroup
  simp only [ReadyQueue.clearBits, htwo, if_true, testedByte, hbind, if_false,
    Function.update_self, Kernel.unlink_readyTable, Kernel.unlink_priorityGroup]
    at hgroup htest
  split at htest
  next hzero =>
    rw [if_pos hzero, hmasks.numberMask htwo, getLsbD_and_not_mask _ hnumber] at hgroup
    simpa using hgroup.mpr (of_decide_eq_false htest)
  next hne =>
    rw [if_neg hne] at hgroup
    obtain ⟨hbefore, hafter⟩ := not_or.mp (of_decide_eq_false htest)
    have hset := ((hinv.bitmap (k.thread t).bindCpu).group_iff htwo _).mpr hbefore
    exact hgroup.mp hset (not_not.mp hafter)

theorem Inv.remove_bitmapOk_iff (hinv : Inv cfg away k)
    (hstarted : (k.thread t).stat ≠ .init) :
    (∀ b ≤ cfg.cpusNr, ((rtScheduleRemoveThread cfg t k).queue b).BitmapOk cfg) ↔
      removalAgreesAt cfg t k = true := by
  constructor
  · intro hall
    exact hinv.removalAgreesAt_of_bitmapOk hstarted
      (hall _ (hinv.threads t).bindCpu_le)
  · intro hagrees b _
    exact (hinv.remove_bitmapExact hstarted hagrees b).bitmapOk

end Removal

/-- In every state reached by removals that agree, every bitmap is right, and
the next removal keeps them so exactly when it agrees too. -/
theorem reachable_bitmapOk (cfg : Config) (k : Kernel)
    (hreach : (machine cfg).Reachable (fun _ _ => True) k)
    (hagree : k.removalsAgree = true) :
    (∀ b ≤ cfg.cpusNr, (k.queue b).BitmapOk cfg) ∧
      ∀ t, (k.thread t).stat ≠ .init →
        ((∀ b ≤ cfg.cpusNr, ((rtScheduleRemoveThread cfg t k).queue b).BitmapOk cfg) ↔
          removalAgreesAt cfg t k = true) := by
  have hinv := inv_of_reachable hreach hagree
  exact ⟨fun b _ => (hinv.bitmap b).bitmapOk, fun t => hinv.remove_bitmapOk_iff⟩

/-- 64 priorities, the layout with a `ready_table`. -/
def twoLevel64 (cpusNr : Nat) : Config where
  priorityMax := 64
  cpusNr := cpusNr
  strayByte := 0
  priorityMax_pos := by decide
  priorityMax_le := by decide

def spawn (t : Tid) (priority bindCpu : Nat) : List Op :=
  [.threadInit t priority, .bindCpu t bindCpu, .startup 0 t]

/-- The idle thread and two threads of neighbouring priorities, all bound to
the one CPU, which then starts. -/
def boundPairRun : List Op :=
  spawn 0 63 0 ++ spawn 1 8 0 ++ spawn 2 9 0 ++ [.schedulerStart 0]

/-- Starting the CPU removes thread 1.  The global table is empty, so group bit
1 goes although thread 2 still needs it. -/
theorem bitmapOk_fails_after_bound_removal :
    ∃ k, (machine (twoLevel64 1)).Reachable (fun _ _ => True) k ∧
      ¬ (k.queue 0).BitmapOk (twoLevel64 1) := by
  have hrun : ((machine (twoLevel64 1)).run (fun _ _ => True)
      (initialKernel (twoLevel64 1)) boundPairRun).map
        (fun k => ((k.queue 0).priorityGroup.getLsbD 1, (k.queue 0).readyTable 1)) =
      some (false, 2#8) := by decide +kernel
  obtain ⟨k, hreach, hvalue⟩ := Machine.exists_reachable_of_run rfl hrun
  simp only [Prod.mk.injEq] at hvalue
  refine ⟨k, hreach, ?_⟩
  intro hok
  have hgroup := hok.group_iff rfl 8 (by decide)
  rw [Nat.div_self (by decide), hvalue.1, hvalue.2] at hgroup
  exact absurd (hgroup.mpr (by decide)) (by decide)

/-- Unbound threads next to the idle thread: no removal consults the wrong
table. -/
def unboundRun : List Op :=
  spawn 0 63 0 ++ spawn 1 8 1 ++ spawn 2 9 1 ++
    [.schedulerStart 0, .changePriority 0 2 5, .schedule 0]

theorem reachable_bitmapOk_unboundRun :
    ∃ k, (machine (twoLevel64 1)).Reachable (fun _ _ => True) k ∧
      (k.cpu 0).currentThread = some 2 ∧
      ∀ b ≤ 1, (k.queue b).BitmapOk (twoLevel64 1) := by
  have hrun : ((machine (twoLevel64 1)).run (fun _ _ => True)
      (initialKernel (twoLevel64 1)) unboundRun).map
        (fun k => (k.removalsAgree, (k.cpu 0).currentThread)) =
      some (true, some 2) := by decide +kernel
  obtain ⟨k, hreach, hvalue⟩ := Machine.exists_reachable_of_run rfl hrun
  simp only [Prod.mk.injEq] at hvalue
  exact ⟨k, hreach, hvalue.2, (reachable_bitmapOk _ k hreach hvalue.1).1⟩

structure PlacementOk (cfg : Config) (k : Kernel) : Prop where
  /-- Every CPU has one current thread, which knows it. -/
  current : ∀ c < cfg.cpusNr, ∃ t, (k.cpu c).currentThread = some t ∧
    (k.thread t).oncpu = c
  currentOnce : ∀ c < cfg.cpusNr, ∀ c' < cfg.cpusNr, ∀ t,
    (k.cpu c).currentThread = some t → (k.cpu c').currentThread = some t → c = c'
  linked : ∀ b ≤ cfg.cpusNr, ∀ p t, t ∈ (k.queue b).priorityTable p →
    (k.thread t).stat = .ready ∧ (k.thread t).oncpu = cfg.cpuDetached ∧
      b = (k.thread t).bindCpu ∧ p = (k.thread t).currentPriority ∧
      ((k.queue b).priorityTable p).count t = 1
  ready : ∀ t, (k.thread t).stat = .ready →
    ((∃ c < cfg.cpusNr, (k.cpu c).currentThread = some t) ↔
      ¬ ∃ b ≤ cfg.cpusNr, ∃ p, t ∈ (k.queue b).priorityTable p)
  bound : ∀ t, (k.thread t).bindCpu < cfg.cpusNr → ∀ c < cfg.cpusNr,
    (k.cpu c).currentThread = some t → c = (k.thread t).bindCpu

theorem Inv.placementOk {cfg : Config} {k : Kernel} (hinv : Inv cfg none k)
    (hready : ReadyLinked cfg none k)
    (hstarted : ∀ c < cfg.cpusNr, (k.cpu c).started = true) :
    PlacementOk cfg k where
  current := by
    intro c hc
    obtain ⟨t, ht⟩ := Option.ne_none_iff_exists'.mp
      (hinv.started c hc (by simp) (hstarted c hc))
    exact ⟨t, ht, (hinv.current c hc (by simp) t).mp ht⟩
  currentOnce := by
    intro c hc c' hc' t ht ht'
    rw [hinv.current c hc (by simp)] at ht
    rw [hinv.current c' hc' (by simp)] at ht'
    rw [← ht, ← ht']
  linked := by
    intro b _ p t hmem
    obtain ⟨hb, hp, hstat, honcpu⟩ := hinv.linked b p t hmem
    exact ⟨hstat, honcpu, hb, hp, by
      rw [(hinv.nodup b p).count, if_pos hmem]⟩
  ready := by
    intro t hstat
    constructor
    · rintro ⟨c, hc, ht⟩ ⟨b, _, p, hmem⟩
      rw [hinv.current c hc (by simp)] at ht
      have hdetached := (hinv.linked b p t hmem).oncpu
      rw [ht] at hdetached
      exact absurd hdetached (Nat.ne_of_lt hc)
    · intro hfree
      have hrunning : (k.thread t).oncpu ≠ cfg.cpuDetached := by
        intro hdetached
        exact hfree ⟨_, (hinv.threads t).bindCpu_le, _, hready t (by simp) hstat hdetached⟩
      have hlt := (hinv.running t hrunning).1
      exact ⟨_, hlt, (hinv.current _ hlt (by simp) t).mpr rfl⟩
  bound := by
    intro t hbind c hc ht
    rw [hinv.current c hc (by simp)] at ht
    have hrunning : (k.thread t).oncpu ≠ cfg.cpuDetached := by
      rw [ht]
      exact Nat.ne_of_lt hc
    obtain ⟨_, _, hglobal | hown⟩ := hinv.running t hrunning
    · omega
    · rw [hown, ht]

/-- The calls that threads and interrupts make: all but the kernel-internal
`rt_schedule_remove_thread`. -/
def threadCall : Op → Bool
  | .removeThread _ => false
  | _ => true

theorem readyLinked_of_reachable {cfg : Config} {k : Kernel}
    (hreach : (machine cfg).Reachable (fun _ op => threadCall op = true) k)
    (hagree : k.removalsAgree = true) : ReadyLinked cfg none k := by
  have hall := hreach.invariant
    (fun k => k.removalsAgree = true → Inv cfg none k ∧ ReadyLinked cfg none k)
    (by
      rintro k rfl _
      exact ⟨initialKernel_inv cfg, fun t _ hstat _ => by cases hstat⟩)
    (by
      intro k op k' hkept hcall hexec hagree'
      obtain ⟨hcaller, hrun⟩ := machine_exec hexec
      obtain ⟨hinv, hready⟩ := hkept (runOp_removalsAgree hrun hagree')
      have hstep := (runOp_inv hinv hcaller hrun hagree').2 (by
        rintro t rfl
        cases hcall)
      exact ⟨hstep.inv, hstep.ready hready⟩)
  exact (hall hagree).2

/-- Whatever the CPUs do once all of them have started, in whichever order, every
thread stays where its record says, as long as the removals agree. -/
theorem reachable_placementOk (cfg : Config) (k : Kernel)
    (hreach : (machine cfg).Reachable (fun _ op => threadCall op = true) k)
    (hstarted : ∀ c < cfg.cpusNr, (k.cpu c).started = true)
    (hagree : k.removalsAgree = true) : PlacementOk cfg k :=
  (inv_of_reachable hreach hagree).placementOk
    (readyLinked_of_reachable hreach hagree) hstarted

/-- A bound thread and an unbound one whose priorities share a byte of
`ready_table`. -/
def sharedByteRun : List Op :=
  spawn 0 63 0 ++ spawn 1 8 0 ++ spawn 2 10 1 ++ [.schedulerStart 0, .schedule 0]

/-- Starting the CPU takes thread 1 out but leaves its group bit, since the
global byte is not zero.  The next `rt_schedule` takes the head of the empty
list 7 for a thread, and CPU 0 is left without a current thread. -/
theorem placementOk_fails_after_bound_removal :
    ∃ k, (machine (twoLevel64 1)).Reachable (fun _ op => threadCall op = true) k ∧
      (∀ c < 1, (k.cpu c).started = true) ∧ ¬ PlacementOk (twoLevel64 1) k := by
  have hrun : ((machine (twoLevel64 1)).run (fun _ op => threadCall op = true)
      (initialKernel (twoLevel64 1)) sharedByteRun).map
        (fun k => ((k.cpu 0).started, (k.cpu 0).currentThread)) =
      some (true, none) := by decide +kernel
  obtain ⟨k, hreach, hvalue⟩ := Machine.exists_reachable_of_run rfl hrun
  simp only [Prod.mk.injEq] at hvalue
  refine ⟨k, hreach, ?_, ?_⟩
  · intro c hc
    rw [Nat.lt_one_iff.mp hc]
    exact hvalue.1
  · intro hplace
    obtain ⟨t, ht, _⟩ := hplace.current 0 (by decide)
    rw [hvalue.2] at ht
    cases ht

/-- Two CPUs with their idle threads, an unbound thread that is suspended,
resumed and preempted. -/
def twoCpuRun : List Op :=
  spawn 0 63 0 ++ spawn 1 63 1 ++ spawn 2 8 2 ++ spawn 3 9 2 ++
    [.schedulerStart 0, .schedulerStart 1, .suspend 0 2, .schedule 0, .resume 1 2, .schedule 1]

theorem reachable_placementOk_twoCpuRun :
    ∃ k, (machine (twoLevel64 2)).Reachable (fun _ op => threadCall op = true) k ∧
      (k.cpu 0).currentThread = some 0 ∧ (k.cpu 1).currentThread = some 2 ∧
      PlacementOk (twoLevel64 2) k := by
  have hrun : ((machine (twoLevel64 2)).run (fun _ op => threadCall op = true)
      (initialKernel (twoLevel64 2)) twoCpuRun).map
        (fun k => (k.removalsAgree, (k.cpu 0).started, (k.cpu 1).started,
          (k.cpu 0).currentThread, (k.cpu 1).currentThread)) =
      some (true, true, true, some 0, some 2) := by decide +kernel
  obtain ⟨k, hreach, hvalue⟩ := Machine.exists_reachable_of_run rfl hrun
  simp only [Prod.mk.injEq] at hvalue
  obtain ⟨hagree, hzero, hone, hcurrent, hcurrent'⟩ := hvalue
  have hstarted : ∀ c < 2, (k.cpu c).started = true := by
    intro c hc
    rcases (by omega : c = 0 ∨ c = 1) with rfl | rfl
    · exact hzero
    · exact hone
  exact ⟨k, hreach, hcurrent, hcurrent', reachable_placementOk _ k hreach hstarted hagree⟩

end RtThread.Scheduler
