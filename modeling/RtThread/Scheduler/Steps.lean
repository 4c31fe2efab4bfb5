import RtThread.Scheduler.Invariant

namespace RtThread.Scheduler

open Function Kernel

section Highest

variable {cfg : Config} {away : Option Nat} {k : Kernel}

theorem Inv.priority_lt (hinv : Inv cfg away k) {b p : Nat}
    (hne : (k.queue b).priorityTable p ≠ []) : p < cfg.priorityMax := by
  obtain ⟨t, hmem⟩ := List.exists_mem_of_ne_nil _ hne
  rw [(hinv.linked b p t hmem).priority]
  exact (hinv.threads t).currentPriority_lt

theorem Inv.first_highest (hinv : Inv cfg away k) {b : Nat}
    (hne : (k.queue b).priorityGroup ≠ 0) :
    ∃ t, (k.queue b).first cfg ((k.queue b).highestReadyPriority cfg) = some t ∧
      t ∈ (k.queue b).priorityTable ((k.queue b).highestReadyPriority cfg) := by
  obtain ⟨hfull, _⟩ := ReadyQueue.highestReadyPriority_spec (hinv.bitmap b) hne
  have hlt := hinv.priority_lt hfull
  cases hlist : (k.queue b).priorityTable ((k.queue b).highestReadyPriority cfg) with
  | nil => exact absurd hlist hfull
  | cons t rest => exact ⟨t, by simp [ReadyQueue.first, hlt, hlist], by simp⟩

theorem Inv.highest_lt_iff (hinv : Inv cfg away k) {b : Nat} :
    (k.queue b).highestReadyPriority cfg < 256 ↔ (k.queue b).priorityGroup ≠ 0 := by
  constructor
  · intro hlt hzero
    have := ReadyQueue.highestReadyPriority_of_group_eq_zero cfg hzero
    omega
  · intro hne
    have hlt := hinv.priority_lt
      (ReadyQueue.highestReadyPriority_spec (hinv.bitmap b) hne).1
    have := cfg.priorityMax_le
    omega

theorem Inv.getHighestPriorityThread_mem (hinv : Inv cfg away k) (c : Nat)
    (hne : (k.queue cfg.cpusNr).priorityGroup ≠ 0 ∨ (k.queue c).priorityGroup ≠ 0) :
    ∃ t p b, getHighestPriorityThread cfg c k = some (t, p) ∧
      (b = cfg.cpusNr ∨ b = c) ∧ t ∈ (k.queue b).priorityTable p := by
  unfold getHighestPriorityThread
  dsimp only
  rw [if_neg (by tauto)]
  split
  next hlt =>
    have hglobal : (k.queue cfg.cpusNr).priorityGroup ≠ 0 := by
      rw [← hinv.highest_lt_iff]
      by_contra hge
      rcases hne with hg | hl
      · exact hge (hinv.highest_lt_iff.mpr hg)
      · have := hinv.highest_lt_iff.mpr hl
        omega
    obtain ⟨t, hfirst, hmem⟩ := hinv.first_highest hglobal
    exact ⟨t, _, cfg.cpusNr, by rw [hfirst]; rfl, .inl rfl, hmem⟩
  next hge =>
    have hlocal : (k.queue c).priorityGroup ≠ 0 := by
      rw [← hinv.highest_lt_iff]
      by_contra hlocalGe
      rcases hne with hg | hl
      · have := hinv.highest_lt_iff.mpr hg
        omega
      · exact hlocalGe (hinv.highest_lt_iff.mpr hl)
    obtain ⟨t, hfirst, hmem⟩ := hinv.first_highest hlocal
    exact ⟨t, _, c, by rw [hfirst]; rfl, .inr rfl, hmem⟩

end Highest

section Switch

variable {cfg : Config} {k : Kernel} {c : Nat}

theorem Inv.detach (hinv : Inv cfg none k) (hc : c < cfg.cpusNr) {current : Tid}
    (hcurrent : (k.cpu c).currentThread = some current) :
    Inv cfg (some c) (k.setThread current
      { k.thread current with oncpu := cfg.cpuDetached }) := by
  have honcpu : (k.thread current).oncpu = c :=
    (hinv.current c hc (by simp) current).mp hcurrent
  have hother : ∀ u, u ≠ current → (k.thread u).oncpu ≠ c := by
    intro u hu heq
    have huc := (hinv.current c hc (by simp) u).mpr heq
    rw [hcurrent] at huc
    exact hu (Option.some.inj huc).symm
  have hfree := hinv.not_linked_of_running
    (by rw [honcpu]; exact Nat.ne_of_lt hc : (k.thread current).oncpu ≠ cfg.cpuDetached)
  exact
    { bitmap := hinv.bitmap
      threads := fun u => by
        by_cases hu : u = current
        · subst hu
          simp only [setThread_thread, update_self]
          exact ⟨(hinv.threads u).initPriority_lt, (hinv.threads u).currentPriority_lt,
            (hinv.threads u).bindCpu_le, fun h =>
              let hm := (hinv.threads u).masks h
              ⟨hm.flat, hm.number, hm.numberMask, hm.highMask⟩⟩
        · simp only [setThread_thread, update_of_ne hu]
          exact hinv.threads u
      linked := fun b p u hmem => by
        have hu : u ≠ current := by
          rintro rfl
          exact hfree b p hmem
        simp only [setThread_thread, update_of_ne hu]
        exact hinv.linked b p u hmem
      nodup := hinv.nodup
      current := fun c' hc' haway u => by
        have hne : c' ≠ c := by
          rintro rfl
          exact haway rfl
        rw [setThread_cpu, hinv.current c' hc' (by simp) u]
        by_cases hu : u = current
        · subst hu
          simp only [setThread_thread, update_self, honcpu, Config.cpuDetached]
          omega
        · simp only [setThread_thread, update_of_ne hu]
      started := fun c' hc' _ => hinv.started c' hc' (by simp)
      notAway := fun u => by
        by_cases hu : u = current
        · subst hu
          simp only [setThread_thread, update_self, Config.cpuDetached, ne_eq, Option.some.injEq]
          omega
        · simp only [setThread_thread, update_of_ne hu, ne_eq, Option.some.injEq]
          exact fun h => hother u hu h.symm
      running := fun u => by
        by_cases hu : u = current
        · subst hu
          simp
        · simp only [setThread_thread, update_of_ne hu]
          exact hinv.running u }

theorem Inv.attach (hinv : Inv cfg (some c) k) (hc : c < cfg.cpusNr)
    {toThread : Tid} (cpu : Cpu) (hcpu : cpu.currentThread = some toThread)
    (hfree : ∀ b p, toThread ∉ (k.queue b).priorityTable p)
    (hdetached : (k.thread toThread).oncpu = cfg.cpuDetached)
    (hstarted : (k.thread toThread).stat ≠ .init)
    (hbind : (k.thread toThread).bindCpu = cfg.cpusNr ∨
      (k.thread toThread).bindCpu = c) :
    Inv cfg none ((k.setThread toThread
      { k.thread toThread with oncpu := c }).setCpu c cpu) where
  bitmap := hinv.bitmap
  threads := fun u => by
    by_cases hu : u = toThread
    · subst hu
      simp only [setCpu_thread, setThread_thread, update_self]
      exact ⟨(hinv.threads u).initPriority_lt, (hinv.threads u).currentPriority_lt,
        (hinv.threads u).bindCpu_le, fun h =>
          let hm := (hinv.threads u).masks h
          ⟨hm.flat, hm.number, hm.numberMask, hm.highMask⟩⟩
    · simp only [setCpu_thread, setThread_thread, update_of_ne hu]
      exact hinv.threads u
  linked := fun b p u hmem => by
    have hu : u ≠ toThread := by
      rintro rfl
      exact hfree b p hmem
    simp only [setCpu_thread, setThread_thread, update_of_ne hu]
    exact hinv.linked b p u hmem
  nodup := hinv.nodup
  current := fun c' hc' _ u => by
    simp only [setCpu_cpu, setThread_cpu, setCpu_thread, setThread_thread]
    by_cases hcc : c' = c
    · subst hcc
      rw [update_self, hcpu]
      by_cases hu : u = toThread
      · simp [hu]
      · rw [update_of_ne hu]
        have hnot := hinv.notAway u
        simp only [ne_eq, Option.some.injEq] at hnot ⊢
        exact iff_of_false (fun h => hu h.symm) (fun h => hnot h.symm)
    · rw [update_of_ne hcc, hinv.current c' hc' (by simpa using fun h => hcc h.symm)]
      by_cases hu : u = toThread
      · subst hu
        rw [update_self, hdetached]
        exact iff_of_false (by unfold Config.cpuDetached; omega) (fun h => hcc h.symm)
      · rw [update_of_ne hu]
  started := fun c' hc' _ => by
    simp only [setCpu_cpu, setThread_cpu]
    by_cases hcc : c' = c
    · subst hcc
      simp [hcpu]
    · rw [update_of_ne hcc]
      exact hinv.started c' hc' (by simpa using fun h => hcc h.symm)
  notAway := fun _ => by simp
  running := fun u => by
    simp only [setCpu_thread, setThread_thread]
    by_cases hu : u = toThread
    · subst hu
      simp only [update_self]
      exact fun _ => ⟨hc, hstarted, hbind⟩
    · rw [update_of_ne hu]
      exact hinv.running u

theorem Inv.takeOver (hinv : Inv cfg (some c) k) (hc : c < cfg.cpusNr)
    {toThread : Tid} {b p : Nat} (hb : b = cfg.cpusNr ∨ b = c)
    (hmem : toThread ∈ (k.queue b).priorityTable p)
    (hagrees : removalAgreesAt cfg toThread k = true) (cpu : Cpu)
    (hcpu : cpu.currentThread = some toThread) :
    Inv cfg none (((rtScheduleRemoveThread cfg toThread k).setThread toThread
      { k.thread toThread with oncpu := c }).setCpu c cpu) := by
  have hlinked := hinv.linked b p toThread hmem
  have hstarted : (k.thread toThread).stat ≠ .init := by
    rw [hlinked.stat]
    simp
  have hattach := (hinv.remove hstarted hagrees).attach hc cpu hcpu
    (fun b p => not_linked_after_remove b p)
    (by simpa using hlinked.oncpu) (by simpa using hstarted)
    (by simpa [← hlinked.queue] using hb)
  simpa using hattach

theorem ReadyLinked.takeOver (hready : ReadyLinked cfg none k) (hc : c < cfg.cpusNr)
    (toThread : Tid) (cpu : Cpu) :
    ReadyLinked cfg none (((rtScheduleRemoveThread cfg toThread k).setThread toThread
      { k.thread toThread with oncpu := c }).setCpu c cpu) := by
  intro u _ hstat honcpu
  have hremoved := hready.remove (t := toThread) (.inl rfl)
  by_cases hu : u = toThread
  · subst hu
    simp [Config.cpuDetached] at honcpu
    omega
  · simp only [setCpu_thread, setThread_thread, update_of_ne hu] at hstat honcpu ⊢
    exact hremoved u (by simpa using fun h => hu h.symm) hstat honcpu

end Switch

section Select

variable {cfg : Config} {k k' : Kernel} {c : Nat} {current : Tid}

theorem Kernel.setThread_setThread (k : Kernel) (t : Tid) (first second : Thread) :
    (k.setThread t first).setThread t second = k.setThread t second := by
  simp [setThread]

theorem Kernel.setCpu_setCpu (k : Kernel) (c : Nat) (first second : Cpu) :
    (k.setCpu c first).setCpu c second = k.setCpu c second := by
  simp [setCpu]

theorem Kernel.setThread_self (k : Kernel) (t : Tid) : k.setThread t (k.thread t) = k := by
  simp [setThread]

/-- The state in which the removal of `to_thread` starts: `current_thread` is
detached, and back in its queue if it is READY. -/
def yieldCurrent (cfg : Config) (c : Nat) (current : Tid) (k : Kernel) : Kernel :=
  let k := k.setThread current { k.thread current with oncpu := cfg.cpuDetached }
  if (k.thread current).stat = .ready then rtScheduleInsertThread cfg c current k
  else k

theorem Inv.afterYield (hinv : Inv cfg none k) (hc : c < cfg.cpusNr)
    (hcurrent : (k.cpu c).currentThread = some current) :
    Inv cfg (some c) (yieldCurrent cfg c current k) := by
  have hdetach := hinv.detach hc hcurrent
  have honcpu : (k.thread current).oncpu = c :=
    (hinv.current c hc (by simp) current).mp hcurrent
  have hne : (k.thread current).oncpu ≠ cfg.cpuDetached := by
    rw [honcpu]
    exact Nat.ne_of_lt hc
  unfold yieldCurrent
  dsimp only
  split
  · apply hdetach.insert
    · simpa using (hinv.running current hne).2.1
    · exact fun _ b p => hinv.not_linked_of_running hne b p
  · exact hdetach

theorem ReadyLinked.afterYield (hready : ReadyLinked cfg none k) :
    ReadyLinked cfg none (yieldCurrent cfg c current k) := by
  have hdetach : ReadyLinked cfg (some current) (k.setThread current
      { k.thread current with oncpu := cfg.cpuDetached }) := by
    intro u hu hstat honcpu
    have hne : u ≠ current := by
      rintro rfl
      exact hu rfl
    simp only [setThread_thread, update_of_ne hne] at hstat honcpu ⊢
    exact hready u (by simp) hstat honcpu
  unfold yieldCurrent
  dsimp only
  split
  · exact hdetach.insert c
  next hstat =>
    intro u _ hustat honcpu
    refine hdetach u ?_ hustat honcpu
    rintro heq
    rw [Option.some.injEq] at heq
    subst heq
    exact hstat hustat

theorem mem_yieldCurrent {b p : Nat} {t : Tid}
    (hmem : t ∈ (k.queue b).priorityTable p) :
    t ∈ ((yieldCurrent cfg c current k).queue b).priorityTable p := by
  unfold yieldCurrent
  dsimp only
  split
  · rw [mem_rtScheduleInsertThread_queue _ _ _ _ (by simp)]
    exact .inl hmem
  · exact hmem

theorem yieldCurrent_currentThread (c' : Nat) :
    ((yieldCurrent cfg c current k).cpu c').currentThread = (k.cpu c').currentThread := by
  unfold yieldCurrent
  dsimp only
  split <;> simp

theorem Inv.selectThread_cases (hinv : Inv cfg none k) (hc : c < cfg.cpusNr)
    (hcurrent : (k.cpu c).currentThread = some current)
    {switched : Option Tid}
    (hselect : selectThread cfg c current k = some (k', switched)) :
    (switched = none ∧ k' = k) ∨
      ∃ toThread b p cpu, switched = some toThread ∧
        (b = cfg.cpusNr ∨ b = c) ∧ toThread ∈ (k.queue b).priorityTable p ∧
        cpu.currentThread = (k.cpu c).currentThread ∧
        k' = ((rtScheduleRemoveThread cfg toThread
          (yieldCurrent cfg c current k)).setThread toThread
            { (yieldCurrent cfg c current k).thread toThread with oncpu := c }).setCpu c cpu := by
  have honcpu : (k.thread current).oncpu = c :=
    (hinv.current c hc (by simp) current).mp hcurrent
  have hrunning : (k.thread current).oncpu ≠ cfg.cpuDetached := by
    rw [honcpu]
    exact Nat.ne_of_lt hc
  unfold selectThread at hselect
  split at hselect
  next hne =>
    obtain ⟨toThread, p, b, hhighest, hb, hmem⟩ :=
      hinv.getHighestPriorityThread_mem c hne
    rw [hhighest] at hselect
    have hother : toThread ≠ current := by
      rintro rfl
      exact hinv.not_linked_of_running hrunning b p hmem
    by_cases hstay : (k.thread current).stat = .ready ∧
        (k.thread current).currentPriority < p
    · left
      have hchoice : leaveCpu cfg c current toThread p k =
          (k.setThread current { k.thread current with oncpu := cfg.cpuDetached }, current) := by
        simp only [leaveCpu, setThread_thread, update_self, hstay, if_true]
      simp only [hchoice, ne_eq, not_true_eq_false, if_false, Option.some.injEq,
        Prod.mk.injEq, setThread_setThread, setThread_thread,
        update_self] at hselect
      obtain ⟨rfl, rfl⟩ := hselect
      refine ⟨rfl, ?_⟩
      rw [← honcpu]
      exact setThread_self k current
    · right
      have hchoice : leaveCpu cfg c current toThread p k =
          (yieldCurrent cfg c current k, toThread) := by
        simp only [leaveCpu, yieldCurrent, setThread_thread, update_self]
        split
        next hstat => rw [if_neg (fun hlt => hstay ⟨hstat, hlt⟩)]
        · rfl
      simp only [hchoice, ne_eq, hother, not_false_eq_true, if_true,
        Option.some.injEq, Prod.mk.injEq] at hselect
      obtain ⟨rfl, rfl⟩ := hselect
      refine ⟨toThread, b, p,
        { (yieldCurrent cfg c current k).cpu c with currentPriority := p % 256 },
        rfl, hb, hmem, yieldCurrent_currentThread c, ?_⟩
      rw [rtScheduleRemoveThread_setCpu, rtScheduleRemoveThread_setThread]
      all_goals rfl
  · left
    simp only [Option.some.injEq, Prod.mk.injEq] at hselect
    exact ⟨hselect.2.symm, hselect.1.symm⟩

theorem Inv.selectThread_ne_none (hinv : Inv cfg none k) : selectThread cfg c current k ≠ none := by
  unfold selectThread
  split
  next hne =>
    obtain ⟨toThread, p, _, hhighest, _⟩ := hinv.getHighestPriorityThread_mem c hne
    rw [hhighest]
    dsimp only
    split <;> simp
  · simp

end Select

/-- What a call that starts in `k` and ends in `k'` has kept. -/
structure Kept (cfg : Config) (k k' : Kernel) : Prop where
  inv : Inv cfg none k'
  ready : ReadyLinked cfg none k → ReadyLinked cfg none k'

theorem Kept.trans {cfg : Config} {k k' k'' : Kernel} (hfirst : Kept cfg k k')
    (hsecond : Kept cfg k' k'') : Kept cfg k k'' :=
  ⟨hsecond.inv, fun hready => hsecond.ready (hfirst.ready hready)⟩

section Records

variable {cfg : Config} {k : Kernel} {t : Tid} {c : Nat}

section

variable (hinv : Inv cfg none k)
include hinv

theorem Inv.kept_setThread (t : Tid) (thread : Thread) (hsame : SameSchedule (k.thread t) thread) :
    Kept cfg k (k.setThread t thread) :=
  ⟨hinv.setThread_same hsame, fun hready => hready.setThread_same hsame⟩

theorem Inv.kept_setCpu (c : Nat) (cpu : Cpu) (hsame : cpu.currentThread = (k.cpu c).currentThread)
    (hstarted : cpu.started = (k.cpu c).started) :
    Kept cfg k (k.setCpu c cpu) :=
  ⟨hinv.setCpu_same hsame hstarted, fun hready => hready⟩

theorem Inv.kept_refl : Kept cfg k k :=
  ⟨hinv, fun hready => hready⟩

theorem Inv.kept_cpusLock : Kept cfg k (k.cpusLock c) := by
  unfold cpusLock
  split
  · exact hinv.kept_refl
  · exact hinv.kept_setThread _ _ ⟨rfl, rfl, rfl, rfl, rfl, rfl, rfl, rfl⟩

theorem Inv.kept_cpusUnlock : Kept cfg k (k.cpusUnlock c) := by
  unfold cpusUnlock
  split
  · exact hinv.kept_refl
  · apply hinv.kept_setThread
    constructor <;> simp only [Thread.cpusUnlock]

end

@[simp] theorem Kernel.cpusLock_cpu (k : Kernel) : (k.cpusLock c).cpu = k.cpu := by
  unfold cpusLock
  split <;> rfl

@[simp] theorem Kernel.cpusLock_removalsAgree (k : Kernel) :
    (k.cpusLock c).removalsAgree = k.removalsAgree := by
  unfold cpusLock
  split <;> rfl

@[simp] theorem Kernel.cpusUnlock_removalsAgree (k : Kernel) :
    (k.cpusUnlock c).removalsAgree = k.removalsAgree := by
  unfold cpusUnlock
  split <;> rfl

@[simp] theorem Kernel.stray_removalsAgree (k : Kernel) :
    (k.stray c).removalsAgree = k.removalsAgree := rfl

@[simp] theorem Kernel.contextSwitch_removalsAgree (k : Kernel) (toThread : Tid) :
    (k.contextSwitch c toThread).removalsAgree = k.removalsAgree := by
  unfold contextSwitch
  dsimp only
  split <;> simp

@[simp] theorem Kernel.cpusUnlock_cpu (k : Kernel) : (k.cpusUnlock c).cpu = k.cpu := by
  unfold cpusUnlock
  split <;> rfl

@[simp] theorem Kernel.cpusUnlock_queue (k : Kernel) : (k.cpusUnlock c).queue = k.queue := by
  unfold cpusUnlock
  split <;> rfl

@[simp] theorem Kernel.cpusUnlock_priority (k : Kernel) (u : Tid) :
    ((k.cpusUnlock c).thread u).currentPriority = (k.thread u).currentPriority := by
  unfold cpusUnlock
  split
  · rfl
  next t _ =>
    by_cases hu : u = t
    · subst hu
      simp [Thread.cpusUnlock]
    · simp [hu]

@[simp] theorem Kernel.contextSwitch_cpu (k : Kernel) (toThread : Tid) :
    (k.contextSwitch c toThread).cpu =
      update k.cpu c { k.cpu c with currentThread := some toThread } := by
  unfold contextSwitch
  dsimp only
  split <;> simp

@[simp] theorem Kernel.contextSwitch_queue (k : Kernel) (toThread : Tid) :
    (k.contextSwitch c toThread).queue = k.queue := by
  unfold contextSwitch
  dsimp only
  split <;> simp

@[simp] theorem Kernel.contextSwitch_priority (k : Kernel) (toThread u : Tid) :
    ((k.contextSwitch c toThread).thread u).currentPriority = (k.thread u).currentPriority := by
  unfold contextSwitch
  dsimp only
  split <;> simp

end Records

section Schedule

variable {cfg : Config} {k k' : Kernel} {c : Nat}

@[simp] theorem leaveCpu_removalsAgree (current highestThread : Tid) (p : Nat) :
    (leaveCpu cfg c current highestThread p k).1.removalsAgree = k.removalsAgree := by
  simp only [leaveCpu]
  split
  · split <;> simp
  · simp

theorem selectThread_removalsAgree {current : Tid} {switched : Option Tid}
    (hselect : selectThread cfg c current k = some (k', switched))
    (hagree : k'.removalsAgree = true) : k.removalsAgree = true := by
  unfold selectThread at hselect
  split at hselect
  · split at hselect
    · obtain ⟨-, hstay⟩ := Option.ite_none_right_eq_some.mp hselect
      cases hstay
      exact hagree
    · dsimp only at hselect
      split at hselect
      · simp only [Option.some.injEq, Prod.mk.injEq] at hselect
        obtain ⟨rfl, rfl⟩ := hselect
        simp only [rtScheduleRemoveThread_removalsAgree, Bool.and_eq_true,
          setCpu_removalsAgree, setThread_removalsAgree,
          leaveCpu_removalsAgree] at hagree
        exact hagree.1
      · simp only [Option.some.injEq, Prod.mk.injEq] at hselect
        obtain ⟨rfl, rfl⟩ := hselect
        simpa using hagree
  · simp only [Option.some.injEq, Prod.mk.injEq] at hselect
    obtain ⟨rfl, rfl⟩ := hselect
    exact hagree

theorem Inv.kept_switch (hinv : Inv cfg none k) (hc : c < cfg.cpusNr)
    {current toThread : Tid} (hcurrent : (k.cpu c).currentThread = some current)
    (hselect : selectThread cfg c current k = some (k', some toThread))
    (hagree : k'.removalsAgree = true) (cpu : Cpu)
    (hcpu : cpu.currentThread = some toThread) :
    Kept cfg k (k'.setCpu c cpu) := by
  rcases hinv.selectThread_cases hc hcurrent hselect with
    ⟨hnone, _⟩ | ⟨_, b, p, _, hto, hb, hmem, _, rfl⟩
  · cases hnone
  cases hto
  have hagrees : removalAgreesAt cfg toThread (yieldCurrent cfg c current k) = true := by
    simp only [setCpu_removalsAgree, setThread_removalsAgree,
      rtScheduleRemoveThread_removalsAgree, Bool.and_eq_true] at hagree
    exact hagree.2
  have hyield := hinv.afterYield hc hcurrent
  rw [setCpu_setCpu]
  exact ⟨hyield.takeOver hc hb (mem_yieldCurrent hmem) hagrees cpu hcpu,
    fun hready => hready.afterYield.takeOver hc toThread cpu⟩

/-- The switch of `selectThread` carried through to the first instruction of
the thread it names; only counters change after it. -/
theorem Inv.kept_contextSwitch (hinv : Inv cfg none k) (hc : c < cfg.cpusNr)
    {current toThread : Tid} (hcurrent : (k.cpu c).currentThread = some current)
    (hselect : selectThread cfg c current k = some (k', some toThread))
    (hagree : k'.removalsAgree = true) :
    Kept cfg k (k'.contextSwitch c toThread) := by
  have hswitch := hinv.kept_switch hc hcurrent hselect hagree
    { k'.cpu c with currentThread := some toThread } rfl
  unfold contextSwitch
  dsimp only
  split
  · exact hswitch
  · exact hswitch.trans hswitch.inv.kept_cpusUnlock

theorem rtSchedule_kept (hinv : Inv cfg none k) (hc : c < cfg.cpusNr)
    (hexec : rtSchedule cfg c k = some k') (hagree : k'.removalsAgree = true) :
    Kept cfg k k' := by
  unfold rtSchedule at hexec
  split at hexec
  · simp at hexec
  next current hcurrent =>
    have hlock : Kept cfg k (k.cpusLock c) := hinv.kept_cpusLock
    have hcurrent' : ((k.cpusLock c).cpu c).currentThread = some current := by
      simpa using hcurrent
    refine hlock.trans ?_
    dsimp only at hexec
    split at hexec
    · cases hexec
      have hflag := hlock.inv.kept_setCpu c
        { (k.cpusLock c).cpu c with irqSwitchFlag := true } rfl rfl
      exact hflag.trans hflag.inv.kept_cpusUnlock
    · split at hexec
      · split at hexec
        next hselect => exact absurd hselect hlock.inv.selectThread_ne_none
        next selected hselect =>
          cases hexec
          rcases hlock.inv.selectThread_cases hc hcurrent' hselect with
            ⟨_, rfl⟩ | ⟨_, _, _, _, hsome, _⟩
          · exact hlock.inv.kept_cpusUnlock
          · cases hsome
        next selected toThread hselect =>
          cases hexec
          exact hlock.inv.kept_contextSwitch hc hcurrent' hselect (by simpa using hagree)
      · cases hexec
        exact hlock.inv.kept_cpusUnlock

theorem rtSchedule_removalsAgree (hexec : rtSchedule cfg c k = some k')
    (hagree : k'.removalsAgree = true) : k.removalsAgree = true := by
  unfold rtSchedule at hexec
  split at hexec
  · simp at hexec
  · dsimp only at hexec
    split at hexec
    · cases hexec
      simpa using hagree
    · split at hexec
      · split at hexec
        · cases hexec
          simpa using hagree
        next hselect =>
          cases hexec
          simpa using selectThread_removalsAgree hselect (by simpa using hagree)
        next hselect =>
          cases hexec
          simpa using selectThread_removalsAgree hselect (by simpa using hagree)
      · cases hexec
        simpa using hagree

theorem rtSchedulerDoIrqSwitch_kept (hinv : Inv cfg none k) (hc : c < cfg.cpusNr)
    (hexec : rtSchedulerDoIrqSwitch cfg c k = some k')
    (hagree : k'.removalsAgree = true) : Kept cfg k k' := by
  unfold rtSchedulerDoIrqSwitch at hexec
  split at hexec
  · simp at hexec
  next current hcurrent =>
    have hlock : Kept cfg k (k.cpusLock c) := hinv.kept_cpusLock
    refine hlock.trans ?_
    dsimp only at hexec
    split at hexec
    · cases hexec
      exact hlock.inv.kept_cpusUnlock
    · split at hexec
      · have hclear := hlock.inv.kept_setCpu c
          { (k.cpusLock c).cpu c with irqSwitchFlag := false } rfl rfl
        have hcurrent' : (((k.cpusLock c).setCpu c
            { (k.cpusLock c).cpu c with irqSwitchFlag := false }).cpu c).currentThread =
            some current := by
          simpa using hcurrent
        refine hclear.trans ?_
        split at hexec
        next hselect => exact absurd hselect hclear.inv.selectThread_ne_none
        next selected hselect =>
          cases hexec
          rcases hclear.inv.selectThread_cases hc hcurrent' hselect with
            ⟨_, rfl⟩ | ⟨_, _, _, _, hsome, _⟩
          · exact hclear.inv.kept_cpusUnlock
          · cases hsome
        next selected toThread hselect =>
          cases hexec
          -- the counters of the outgoing thread change before the switch
          have hswitch := hclear.inv.kept_switch hc hcurrent' hselect
            (by simpa using hagree)
            { selected.cpu c with currentThread := some toThread } rfl
          have hcounters := hswitch.trans (hswitch.inv.kept_setThread current
            { selected.thread current with
              cpusLockNest := dec16 (selected.thread current).cpusLockNest
              schedulerLockNest := dec16 (selected.thread current).schedulerLockNest }
            ⟨rfl, rfl, rfl, rfl, rfl, rfl, rfl, rfl⟩)
          unfold contextSwitch
          dsimp only
          split
          · exact hcounters
          · exact hcounters.trans hcounters.inv.kept_cpusUnlock
      · cases hexec
        exact hlock.inv.kept_cpusUnlock

theorem rtSchedulerDoIrqSwitch_removalsAgree
    (hexec : rtSchedulerDoIrqSwitch cfg c k = some k')
    (hagree : k'.removalsAgree = true) : k.removalsAgree = true := by
  unfold rtSchedulerDoIrqSwitch at hexec
  split at hexec
  · simp at hexec
  · dsimp only at hexec
    split at hexec
    · cases hexec
      simpa using hagree
    · split at hexec
      · split at hexec
        · cases hexec
          simpa using hagree
        next hselect =>
          cases hexec
          simpa using selectThread_removalsAgree hselect (by simpa using hagree)
        next hselect =>
          cases hexec
          simpa using selectThread_removalsAgree hselect (by simpa using hagree)
      · cases hexec
        simpa using hagree

theorem Inv.open_of_idle (hinv : Inv cfg none k) (hc : c < cfg.cpusNr)
    (hidle : (k.cpu c).currentThread = none) (cpu : Cpu) :
    Inv cfg (some c) (k.setCpu c cpu) := by
  have hcpu : ∀ c', some c ≠ some c' → (k.setCpu c cpu).cpu c' = k.cpu c' := by
    intro c' hne
    rw [setCpu_cpu, update_of_ne]
    rintro rfl
    exact hne rfl
  exact
    { bitmap := hinv.bitmap
      threads := hinv.threads
      linked := hinv.linked
      nodup := hinv.nodup
      current := fun c' hc' hne => by
        rw [hcpu c' hne]
        exact hinv.current c' hc' (by simp)
      started := fun c' hc' hne => by
        rw [hcpu c' hne]
        exact hinv.started c' hc' (by simp)
      notAway := fun t h => by
        rw [setCpu_thread, Option.some.injEq] at h
        have hcurrent := (hinv.current c hc (by simp) t).mpr h.symm
        rw [hidle] at hcurrent
        cases hcurrent
      running := hinv.running }

theorem rtSystemSchedulerStart_kept (hinv : Inv cfg none k) (hc : c < cfg.cpusNr)
    (hidle : (k.cpu c).currentThread = none)
    (hne : (k.queue cfg.cpusNr).priorityGroup ≠ 0 ∨ (k.queue c).priorityGroup ≠ 0)
    (hagree : (rtSystemSchedulerStart cfg c k).removalsAgree = true) :
    Kept cfg k (rtSystemSchedulerStart cfg c k) := by
  have hopen := hinv.open_of_idle hc hidle { k.cpu c with started := true }
  have hneOpen : ((k.setCpu c { k.cpu c with started := true }).queue
      cfg.cpusNr).priorityGroup ≠ 0 ∨ ((k.setCpu c
        { k.cpu c with started := true }).queue c).priorityGroup ≠ 0 := hne
  have hopenReady : ReadyLinked cfg none k → ReadyLinked cfg none
      (k.setCpu c { k.cpu c with started := true }) := fun hready => hready
  unfold rtSystemSchedulerStart at hagree ⊢
  dsimp only at hagree ⊢
  generalize k.setCpu c { k.cpu c with started := true } = opened at *
  obtain ⟨toThread, p, b, hhighest, hb, hmem⟩ :=
    hopen.getHighestPriorityThread_mem c hneOpen
  simp only [hhighest] at hagree ⊢
  rw [rtScheduleRemoveThread_setThread cfg toThread opened
    { opened.thread toThread with oncpu := c } rfl rfl rfl rfl rfl] at hagree ⊢
  have hagrees : removalAgreesAt cfg toThread opened = true := by
    simp only [contextSwitch_removalsAgree, setThread_removalsAgree,
      rtScheduleRemoveThread_removalsAgree, Bool.and_eq_true] at hagree
    exact hagree.2
  have hswitch : ∀ cpu : Cpu, cpu.currentThread = some toThread → Kept cfg k
      (((rtScheduleRemoveThread cfg toThread opened).setThread toThread
        { opened.thread toThread with oncpu := c }).setCpu c cpu) :=
    fun cpu hcpu => ⟨hopen.takeOver hc hb hmem hagrees cpu hcpu,
      fun hready => (hopenReady hready).takeOver hc toThread cpu⟩
  unfold contextSwitch
  dsimp only
  split
  · exact hswitch _ rfl
  · exact (hswitch _ rfl).trans (hswitch _ rfl).inv.kept_cpusUnlock

theorem rtSystemSchedulerStart_removalsAgree
    (hagree : (rtSystemSchedulerStart cfg c k).removalsAgree = true) :
    k.removalsAgree = true := by
  unfold rtSystemSchedulerStart at hagree
  dsimp only at hagree
  split at hagree
  · simpa using hagree
  · simp only [contextSwitch_removalsAgree, setThread_removalsAgree,
      rtScheduleRemoveThread_removalsAgree, Bool.and_eq_true] at hagree
    exact hagree.1

end Schedule

end RtThread.Scheduler
