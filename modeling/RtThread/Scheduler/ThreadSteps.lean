import RtThread.Scheduler.Steps

namespace RtThread.Scheduler

open Function

/-! The calls of `thread.c` keep the scheduler invariant, and with them every
run of the machine. -/

section Unlinked

variable {cfg : Config} {away : Option Nat} {k : Kernel} {t : Tid}

theorem Inv.setThread_unlinked (hinv : Inv cfg away k) (thread : Thread)
    (hfree : ∀ b p, t ∉ (k.queue b).priorityTable p)
    (hok : ThreadOk cfg thread) (honcpu : thread.oncpu = (k.thread t).oncpu)
    (hrunning : thread.oncpu ≠ cfg.cpuDetached →
      thread.stat ≠ .init ∧ thread.bindCpu = (k.thread t).bindCpu) :
    Inv cfg away (k.setThread t thread) where
  bitmap := hinv.bitmap
  threads := fun u => by
    rw [Kernel.setThread_thread, update_apply]
    split
    · exact hok
    · exact hinv.threads u
  linked := fun b p u hmem => by
    have hu : u ≠ t := by
      rintro rfl
      exact hfree b p hmem
    rw [Kernel.setThread_thread, update_of_ne hu]
    exact hinv.linked b p u hmem
  nodup := hinv.nodup
  current := fun c hc haway u => by
    rw [Kernel.setThread_cpu, hinv.current c hc haway u, Kernel.setThread_thread, update_apply]
    split
    next hu => rw [honcpu, hu]
    · rfl
  started := hinv.started
  notAway := fun u => by
    rw [Kernel.setThread_thread, update_apply]
    split
    · rw [honcpu]; exact hinv.notAway t
    · exact hinv.notAway u
  running := fun u => by
    rw [Kernel.setThread_thread, update_apply]
    split
    · intro hne
      obtain ⟨hstat, hbind⟩ := hrunning hne
      rw [honcpu] at hne ⊢
      obtain ⟨hlt, _, hbindOk⟩ := hinv.running t hne
      rw [hbind]
      exact ⟨hlt, hstat, hbindOk⟩
    · exact hinv.running u

theorem ReadyLinked.setThread_except (hready : ReadyLinked cfg (some t) k)
    (thread : Thread) : ReadyLinked cfg (some t) (k.setThread t thread) := by
  intro u hu hstat honcpu
  have hne : u ≠ t := by
    rintro rfl
    exact hu rfl
  simp only [Kernel.setThread_thread, update_of_ne hne] at hstat honcpu ⊢
  exact hready u hu hstat honcpu

theorem ReadyLinked.close (hready : ReadyLinked cfg (some t) k)
    (hnot : (k.thread t).stat = .ready → (k.thread t).oncpu ≠ cfg.cpuDetached) :
    ReadyLinked cfg none k := by
  intro u _ hstat honcpu
  refine hready u ?_ hstat honcpu
  intro heq
  rw [Option.some.injEq] at heq
  subst heq
  exact hnot hstat honcpu

theorem Inv.not_linked_of_not_ready (hinv : Inv cfg away k)
    (hstat : (k.thread t).stat ≠ .ready) (b p : Nat) :
    t ∉ (k.queue b).priorityTable p :=
  fun hmem => hstat (hinv.linked b p t hmem).stat

theorem Inv.detached_of_init (hinv : Inv cfg away k)
    (hstat : (k.thread t).stat = .init) : (k.thread t).oncpu = cfg.cpuDetached := by
  by_contra hne
  exact (hinv.running t hne).2.1 hstat

theorem Kernel.unlink_of_not_linked
    (hfree : ∀ b p, t ∉ (k.queue b).priorityTable p) : k.unlink t = k := by
  have hfilter : ∀ b p, ((k.queue b).priorityTable p).filter (· ≠ t) =
      (k.queue b).priorityTable p := by
    intro b p
    rw [List.filter_eq_self]
    intro u hu
    rw [decide_eq_true_eq]
    rintro rfl
    exact hfree b p hu
  simp only [Kernel.unlink, hfilter]

theorem ThreadOk.setPriority {thread : Thread} (hok : ThreadOk cfg thread)
    {priority : Nat} (hlt : priority < cfg.priorityMax) :
    ThreadOk cfg (thread.setPriority cfg priority) where
  initPriority_lt := by simpa using hok.initPriority_lt
  currentPriority_lt := by simpa using hlt
  bindCpu_le := by simpa using hok.bindCpu_le
  masks := fun _ => thread.setPriority_masksOk cfg priority

end Unlinked

section Calls

variable {cfg : Config} {k k' : Kernel} {c : Nat} {t : Tid}

/-- Unlinking a thread that is not READY and inserting it again, as
`rt_thread_resume` and `rt_thread_timeout` do. -/
theorem Inv.kept_wakeup (hinv : Inv cfg none k)
    (hstat : (k.thread t).stat = .suspend) :
    Kept cfg k (rtScheduleInsertThread cfg c t (k.unlink t)) := by
  have hfree := hinv.not_linked_of_not_ready (t := t) (by rw [hstat]; simp)
  rw [Kernel.unlink_of_not_linked hfree]
  exact ⟨hinv.insert c (by rw [hstat]; simp) (fun _ => hfree), fun hready => hready.weaken.insert c⟩

theorem rtThreadResume_kept (hinv : Inv cfg none k) : Kept cfg k (rtThreadResume cfg c t k).2 := by
  unfold rtThreadResume
  split
  · exact hinv.kept_refl
  next hstat =>
    rw [not_not] at hstat
    have htimer := hinv.kept_setThread t { k.thread t with timerActive := false }
      ⟨rfl, rfl, rfl, rfl, rfl, rfl, rfl, rfl⟩
    exact htimer.trans (htimer.inv.kept_wakeup (by simpa using hstat))

theorem rtThreadTimeout_kept (hinv : Inv cfg none k) (hc : c < cfg.cpusNr)
    (hexec : rtThreadTimeout cfg c t k = some k')
    (hagree : k'.removalsAgree = true) : Kept cfg k k' := by
  unfold rtThreadTimeout at hexec
  split at hexec
  · cases hexec
  next hstat =>
    rw [not_not] at hstat
    have herror := hinv.kept_setThread t { k.thread t with error := -rtEtimeout }
      ⟨rfl, rfl, rfl, rfl, rfl, rfl, rfl, rfl⟩
    have hwake := herror.trans
      (herror.inv.kept_wakeup (c := c) (t := t) (by simpa using hstat))
    exact hwake.trans (rtSchedule_kept hwake.inv hc hexec hagree)

theorem rtThreadTimeout_removalsAgree (hexec : rtThreadTimeout cfg c t k = some k')
    (hagree : k'.removalsAgree = true) : k.removalsAgree = true := by
  unfold rtThreadTimeout at hexec
  split at hexec
  · cases hexec
  · simpa using rtSchedule_removalsAgree hexec hagree

theorem rtThreadResume_removalsAgree :
    (rtThreadResume cfg c t k).2.removalsAgree = k.removalsAgree := by
  unfold rtThreadResume
  split <;> simp

theorem rtThreadSuspend_kept {code : Int} (hinv : Inv cfg none k)
    (hc : c < cfg.cpusNr) (hexec : rtThreadSuspend cfg c t k = some (code, k'))
    (hagree : k'.removalsAgree = true) : Kept cfg k k' := by
  unfold rtThreadSuspend at hexec
  split at hexec
  · cases hexec
    exact hinv.kept_refl
  next hstat =>
    rw [not_not] at hstat
    split at hexec
    · cases hexec
    next hcurrent =>
      rw [not_not] at hcurrent
      dsimp only at hexec
      rw [rtScheduleRemoveThread_setThread cfg t k { k.thread t with stat := .suspend }
        rfl rfl rfl rfl rfl] at hexec
      cases hexec
      have honcpu : (k.thread t).oncpu = c :=
        (hinv.current c hc (by simp) t).mp hcurrent
      have hrunning : (k.thread t).oncpu ≠ cfg.cpuDetached := by
        rw [honcpu]
        exact Nat.ne_of_lt hc
      have hremoved := hinv.remove (t := t) (by rw [hstat]; simp) (by
        simp only [Kernel.setThread_removalsAgree,
          rtScheduleRemoveThread_removalsAgree, Bool.and_eq_true] at hagree
        exact hagree.2)
      have hok := hinv.threads t
      have hsuspend : Kept cfg k ((rtScheduleRemoveThread cfg t k).setThread t
          { k.thread t with stat := .suspend }) := by
        constructor
        · apply hremoved.setThread_unlinked
          · exact fun b p => not_linked_after_remove b p
          · have hmasks := hok.masks (by rw [hstat]; simp)
            exact ⟨hok.initPriority_lt, hok.currentPriority_lt, hok.bindCpu_le,
              fun _ => ⟨hmasks.flat, hmasks.number, hmasks.numberMask, hmasks.highMask⟩⟩
          · simp
          · intro _
            simp
        · intro hready
          refine ((hready.remove (.inl rfl)).setThread_except _).close ?_
          simp
      exact hsuspend.trans (hsuspend.inv.kept_setThread _ _
        ⟨rfl, rfl, rfl, rfl, rfl, rfl, rfl, rfl⟩)

theorem rtThreadSuspend_removalsAgree {code : Int}
    (hexec : rtThreadSuspend cfg c t k = some (code, k'))
    (hagree : k'.removalsAgree = true) : k.removalsAgree = true := by
  unfold rtThreadSuspend at hexec
  split at hexec
  · cases hexec
    exact hagree
  · split at hexec
    · cases hexec
    · cases hexec
      simp only [Kernel.setThread_removalsAgree,
        rtScheduleRemoveThread_removalsAgree, Bool.and_eq_true] at hagree
      exact hagree.1

theorem Inv.kept_startup (hinv : Inv cfg none k) (hstat : (k.thread t).stat = .init) :
    Kept cfg k (rtThreadResume cfg c t (k.setThread t
      { (k.thread t).setPriority cfg (k.thread t).initPriority with stat := .suspend })).2 := by
  have hfree := hinv.not_linked_of_not_ready (t := t) (by rw [hstat]; simp)
  have hdetached := hinv.detached_of_init hstat
  have hok := (hinv.threads t).setPriority (hinv.threads t).initPriority_lt
  have hprepared : Kept cfg k (k.setThread t
      { (k.thread t).setPriority cfg (k.thread t).initPriority with
        stat := .suspend }) := by
    constructor
    · apply hinv.setThread_unlinked _ hfree
      · have hmasks := (k.thread t).setPriority_masksOk cfg (k.thread t).initPriority
        exact ⟨hok.initPriority_lt, hok.currentPriority_lt, hok.bindCpu_le,
          fun _ => ⟨hmasks.flat, hmasks.number, hmasks.numberMask, hmasks.highMask⟩⟩
      · simp
      · intro hne
        simp [hdetached] at hne
    · intro hready
      refine (hready.weaken.setThread_except _).close ?_
      simp
  exact hprepared.trans (rtThreadResume_kept (c := c) (t := t) hprepared.inv)

theorem rtThreadStartup_kept (hinv : Inv cfg none k) (hc : c < cfg.cpusNr)
    (hexec : rtThreadStartup cfg c t k = some k')
    (hagree : k'.removalsAgree = true) : Kept cfg k k' := by
  unfold rtThreadStartup at hexec
  split at hexec
  · cases hexec
  next hstat =>
    rw [not_not] at hstat
    have hresumed := hinv.kept_startup (c := c) hstat
    dsimp only at hexec
    split at hexec
    · cases hexec
      exact hresumed
    · exact hresumed.trans (rtSchedule_kept hresumed.inv hc hexec hagree)

theorem rtThreadStartup_removalsAgree (hexec : rtThreadStartup cfg c t k = some k')
    (hagree : k'.removalsAgree = true) : k.removalsAgree = true := by
  unfold rtThreadStartup at hexec
  split at hexec
  · cases hexec
  · dsimp only at hexec
    split at hexec
    · cases hexec
      simpa [rtThreadResume_removalsAgree] using hagree
    · simpa [rtThreadResume_removalsAgree] using rtSchedule_removalsAgree hexec hagree

theorem rtThreadChangePriority_kept (hinv : Inv cfg none k) {priority : Nat}
    (hlt : priority < cfg.priorityMax)
    (hagree : (rtThreadChangePriority cfg c t priority k).removalsAgree = true) :
    Kept cfg k (rtThreadChangePriority cfg c t priority k) := by
  have hok := (hinv.threads t).setPriority hlt
  unfold rtThreadChangePriority at hagree ⊢
  split at hagree
  next hstat =>
    rw [if_pos hstat]
    have hstarted : (k.thread t).stat ≠ .init := by
      rw [hstat]
      simp
    have hremoved := hinv.remove (t := t) hstarted (by
      simp only [Kernel.setThread_removalsAgree, rtScheduleInsertThread_removalsAgree,
        rtScheduleRemoveThread_removalsAgree, Bool.and_eq_true] at hagree
      exact hagree.2)
    have hset := hremoved.setThread_unlinked
      ((k.thread t).setPriority cfg priority)
      (fun b p => not_linked_after_remove b p) hok (by simp)
      (fun _ => by simpa using hstarted)
    simp only [rtScheduleRemoveThread_thread]
    constructor
    · apply hset.insert c
      · simpa using hstarted
      · exact fun _ b p => not_linked_after_remove b p
    · intro hready
      exact ((hready.remove (.inl rfl)).setThread_except _).insert c
  next hstat =>
    rw [if_neg hstat]
    constructor
    · refine hinv.setThread_unlinked _ (hinv.not_linked_of_not_ready hstat) hok
        (by simp) ?_
      intro hne
      simp only [Thread.setPriority_oncpu] at hne
      simpa using (hinv.running t hne).2.1
    · intro hready
      refine (hready.weaken.setThread_except _).close ?_
      intro hready'
      simp [hstat] at hready'

theorem rtThreadChangePriority_removalsAgree {priority : Nat}
    (hagree : (rtThreadChangePriority cfg c t priority k).removalsAgree = true) :
    k.removalsAgree = true := by
  unfold rtThreadChangePriority at hagree
  split at hagree
  · simp only [Kernel.setThread_removalsAgree, rtScheduleInsertThread_removalsAgree,
      rtScheduleRemoveThread_removalsAgree, Bool.and_eq_true] at hagree
    exact hagree.1
  · simpa using hagree

theorem rtThreadBindCpu_kept (hinv : Inv cfg none k) (cpu : Nat) :
    Kept cfg k (rtThreadBindCpu cfg t cpu k).2 := by
  unfold rtThreadBindCpu
  split
  · exact hinv.kept_refl
  next hstat =>
    rw [not_not] at hstat
    have hok := hinv.threads t
    have hdetached := hinv.detached_of_init hstat
    constructor
    · refine hinv.setThread_unlinked _
        (hinv.not_linked_of_not_ready (by rw [hstat]; simp)) ?_ rfl ?_
      · refine ⟨hok.initPriority_lt, hok.currentPriority_lt, ?_, fun h => absurd hstat h⟩
        dsimp only
        split <;> omega
      · intro hne
        exact absurd hdetached hne
    · intro hready
      refine (hready.weaken.setThread_except _).close ?_
      simp [hstat]

end Calls

section Machine

variable {cfg : Config} {k k' : Kernel} {op : Op}

theorem rtExitCritical_kept {c : Nat} (hinv : Inv cfg none k) (hc : c < cfg.cpusNr)
    (hexec : rtExitCritical cfg c k = some k') (hagree : k'.removalsAgree = true) :
    Kept cfg k k' := by
  unfold rtExitCritical at hexec
  split at hexec
  · cases hexec
  next t _ =>
    have hcount := hinv.kept_setThread t
      { k.thread t with
        schedulerLockNest := dec16 (k.thread t).schedulerLockNest }
      ⟨rfl, rfl, rfl, rfl, rfl, rfl, rfl, rfl⟩
    dsimp only at hexec
    split at hexec
    · exact hcount.trans (rtSchedule_kept hcount.inv hc hexec hagree)
    · cases hexec
      exact hcount

/-- Every call but a direct `rt_schedule_remove_thread` keeps both parts; that
call keeps the first. -/
theorem runOp_inv (hinv : Inv cfg none k) (hcaller : ∀ c ∈ op.caller, c < cfg.cpusNr)
    (hexec : runOp cfg k op = some k') (hagree : k'.removalsAgree = true) :
    Inv cfg none k' ∧ ((∀ t, op ≠ .removeThread t) → Kept cfg k k') := by
  cases op with
  | removeThread t =>
    simp only [runOp] at hexec
    split at hexec
    next hstarted =>
      cases hexec
      simp only [rtScheduleRemoveThread_removalsAgree, Bool.and_eq_true] at hagree
      exact ⟨hinv.remove hstarted hagree.2, fun h => absurd rfl (h t)⟩
    · cases hexec
  | threadInit t priority =>
    simp only [runOp] at hexec
    split at hexec
    next hinit =>
      cases hexec
      have hdetached := hinv.detached_of_init hinit.1
      have hkept : Kept cfg k (k.setThread t (Thread.init cfg priority)) := by
        constructor
        · refine hinv.setThread_unlinked _
            (hinv.not_linked_of_not_ready (by rw [hinit.1]; simp))
            ⟨hinit.2, hinit.2, Nat.le_refl _, fun h => absurd rfl h⟩
            hdetached.symm ?_
          intro hne
          exact absurd rfl hne
        · intro hready
          refine (hready.weaken.setThread_except _).close ?_
          simp [Thread.init]
      exact ⟨hkept.inv, fun _ => hkept⟩
    · cases hexec
  | bindCpu t cpu =>
    cases hexec
    exact ⟨(rtThreadBindCpu_kept hinv cpu).inv, fun _ => rtThreadBindCpu_kept hinv cpu⟩
  | startup c t =>
    have hkept := rtThreadStartup_kept hinv (hcaller c rfl) hexec hagree
    exact ⟨hkept.inv, fun _ => hkept⟩
  | schedulerStart c =>
    simp only [runOp] at hexec
    split at hexec
    next hfirst =>
      cases hexec
      have hkept := rtSystemSchedulerStart_kept hinv (hcaller c rfl) hfirst.2.1
        hfirst.2.2 hagree
      exact ⟨hkept.inv, fun _ => hkept⟩
    · cases hexec
  | insertThread c t =>
    simp only [runOp] at hexec
    split at hexec
    next hlegal =>
      cases hexec
      have hfree : (k.thread t).oncpu = cfg.cpuDetached →
          ∀ b p, t ∉ (k.queue b).priorityTable p := fun hdetached =>
        hinv.not_linked_of_not_mem_own (hlegal.2.resolve_left (fun h => h hdetached))
      have hkept : Kept cfg k (rtScheduleInsertThread cfg c t k) :=
        ⟨hinv.insert c hlegal.1 hfree, fun hready => hready.weaken.insert c⟩
      exact ⟨hkept.inv, fun _ => hkept⟩
    · cases hexec
  | schedule c =>
    have hkept := rtSchedule_kept hinv (hcaller c rfl) hexec hagree
    exact ⟨hkept.inv, fun _ => hkept⟩
  | doIrqSwitch c =>
    have hkept := rtSchedulerDoIrqSwitch_kept hinv (hcaller c rfl) hexec hagree
    exact ⟨hkept.inv, fun _ => hkept⟩
  | suspend c t =>
    simp only [runOp, Option.map_eq_some_iff] at hexec
    obtain ⟨⟨code, next⟩, hsuspend, rfl⟩ := hexec
    have hkept := rtThreadSuspend_kept hinv (hcaller c rfl) hsuspend hagree
    exact ⟨hkept.inv, fun _ => hkept⟩
  | resume c t =>
    cases hexec
    exact ⟨(rtThreadResume_kept hinv).inv, fun _ => rtThreadResume_kept hinv⟩
  | timeout c t =>
    have hkept := rtThreadTimeout_kept hinv (hcaller c rfl) hexec hagree
    exact ⟨hkept.inv, fun _ => hkept⟩
  | changePriority c t priority =>
    simp only [runOp] at hexec
    split at hexec
    next hlt =>
      cases hexec
      have hkept := rtThreadChangePriority_kept hinv hlt hagree
      exact ⟨hkept.inv, fun _ => hkept⟩
    · cases hexec
  | enterCritical c =>
    simp only [runOp, rtEnterCritical, Option.map_eq_some_iff] at hexec
    obtain ⟨t, _, rfl⟩ := hexec
    have hkept := hinv.kept_setThread t
      { k.thread t with
        schedulerLockNest := inc16 (k.thread t).schedulerLockNest }
      ⟨rfl, rfl, rfl, rfl, rfl, rfl, rfl, rfl⟩
    exact ⟨hkept.inv, fun _ => hkept⟩
  | exitCritical c =>
    have hkept := rtExitCritical_kept hinv (hcaller c rfl) hexec hagree
    exact ⟨hkept.inv, fun _ => hkept⟩
  | interruptEnter c =>
    cases hexec
    have hkept := hinv.kept_setCpu c
      { k.cpu c with irqNest := inc16 (k.cpu c).irqNest } rfl rfl
    exact ⟨hkept.inv, fun _ => hkept⟩
  | interruptLeave c =>
    cases hexec
    have hkept := hinv.kept_setCpu c
      { k.cpu c with irqNest := dec16 (k.cpu c).irqNest } rfl rfl
    exact ⟨hkept.inv, fun _ => hkept⟩
  | ipiHandler c =>
    have hclear := hinv.kept_setCpu c { k.cpu c with ipiPending := false } rfl rfl
    have hkept := hclear.trans
      (rtSchedule_kept hclear.inv (hcaller c rfl) hexec hagree)
    exact ⟨hkept.inv, fun _ => hkept⟩

theorem runOp_removalsAgree (hexec : runOp cfg k op = some k')
    (hagree : k'.removalsAgree = true) : k.removalsAgree = true := by
  cases op with
  | removeThread t =>
    simp only [runOp] at hexec
    split at hexec
    · cases hexec
      simp only [rtScheduleRemoveThread_removalsAgree, Bool.and_eq_true] at hagree
      exact hagree.1
    · cases hexec
  | threadInit t priority =>
    simp only [runOp] at hexec
    split at hexec
    · cases hexec
      exact hagree
    · cases hexec
  | bindCpu t cpu =>
    cases hexec
    unfold rtThreadBindCpu at hagree
    split at hagree <;> simpa using hagree
  | startup c t => exact rtThreadStartup_removalsAgree hexec hagree
  | schedulerStart c =>
    simp only [runOp] at hexec
    split at hexec
    · cases hexec
      exact rtSystemSchedulerStart_removalsAgree hagree
    · cases hexec
  | insertThread c t =>
    simp only [runOp] at hexec
    split at hexec
    · cases hexec
      simpa using hagree
    · cases hexec
  | schedule c => exact rtSchedule_removalsAgree hexec hagree
  | doIrqSwitch c => exact rtSchedulerDoIrqSwitch_removalsAgree hexec hagree
  | suspend c t =>
    simp only [runOp, Option.map_eq_some_iff] at hexec
    obtain ⟨⟨code, next⟩, hsuspend, rfl⟩ := hexec
    exact rtThreadSuspend_removalsAgree hsuspend hagree
  | resume c t =>
    cases hexec
    rwa [rtThreadResume_removalsAgree] at hagree
  | timeout c t => exact rtThreadTimeout_removalsAgree hexec hagree
  | changePriority c t priority =>
    simp only [runOp] at hexec
    split at hexec
    · cases hexec
      exact rtThreadChangePriority_removalsAgree hagree
    · cases hexec
  | enterCritical c =>
    simp only [runOp, rtEnterCritical, Option.map_eq_some_iff] at hexec
    obtain ⟨t, _, rfl⟩ := hexec
    exact hagree
  | exitCritical c =>
    simp only [runOp, rtExitCritical] at hexec
    split at hexec
    · cases hexec
    · split at hexec
      · simpa using rtSchedule_removalsAgree hexec hagree
      · cases hexec
        exact hagree
  | interruptEnter c =>
    cases hexec
    exact hagree
  | interruptLeave c =>
    cases hexec
    exact hagree
  | ipiHandler c => simpa using rtSchedule_removalsAgree hexec hagree

theorem machine_exec {op : Op} (hexec : (machine cfg).exec k op = some k') :
    (∀ c ∈ op.caller, c < cfg.cpusNr) ∧ runOp cfg k op = some k' := by
  simp only [machine] at hexec
  split at hexec
  next hcaller =>
    refine ⟨?_, hexec⟩
    intro c hc
    rw [Option.mem_def] at hc
    simpa [hc] using hcaller
  · cases hexec

theorem inv_of_reachable {allowed : Kernel → Op → Prop}
    (hreach : (machine cfg).Reachable allowed k)
    (hagree : k.removalsAgree = true) : Inv cfg none k := by
  have hall := hreach.invariant
    (fun k => k.removalsAgree = true → Inv cfg none k)
    (by
      rintro k rfl _
      exact initialKernel_inv cfg)
    (by
      intro k op k' hinv _ hexec hagree'
      obtain ⟨hcaller, hrun⟩ := machine_exec hexec
      exact (runOp_inv (hinv (runOp_removalsAgree hrun hagree')) hcaller hrun hagree').1)
  exact hall hagree

end Machine

end RtThread.Scheduler
