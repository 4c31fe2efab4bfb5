import RtThread.Scheduler.Bitmap

namespace RtThread.Scheduler

open Function Kernel ReadyQueue

section RemoveThread

variable (cfg : Config) (t : Tid) (k : Kernel)

@[simp] theorem rtScheduleRemoveThread_thread :
    (rtScheduleRemoveThread cfg t k).thread = k.thread := by
  unfold rtScheduleRemoveThread
  dsimp only
  split <;> split <;> rfl

@[simp] theorem rtScheduleRemoveThread_cpu : (rtScheduleRemoveThread cfg t k).cpu = k.cpu := by
  unfold rtScheduleRemoveThread
  dsimp only
  split <;> split <;> rfl

@[simp] theorem rtScheduleRemoveThread_removalsAgree :
    (rtScheduleRemoveThread cfg t k).removalsAgree =
      (k.removalsAgree && removalAgreesAt cfg t k) := by
  unfold rtScheduleRemoveThread
  dsimp only
  split <;> split <;> rfl

@[simp] theorem clearBits_priorityTable (q : ReadyQueue) (thread : Thread)
    (tested : BitVec 8) :
    (q.clearBits cfg thread tested).priorityTable = q.priorityTable := by
  unfold clearBits
  split <;> rfl

@[simp] theorem rtScheduleRemoveThread_priorityTable (b p : Nat) :
    ((rtScheduleRemoveThread cfg t k).queue b).priorityTable p =
      ((k.queue b).priorityTable p).filter (· ≠ t) := by
  unfold rtScheduleRemoveThread
  dsimp only
  split <;> split <;>
    first
    | rfl
    | (simp only [setQueue_queue, update_apply]
       split
       · next hb => simp [hb]
       · rfl)

theorem rtScheduleRemoveThread_setThread (thread : Thread)
    (hbind : thread.bindCpu = (k.thread t).bindCpu)
    (hpriority : thread.currentPriority = (k.thread t).currentPriority)
    (hnumber : thread.number = (k.thread t).number)
    (hnumberMask : thread.numberMask = (k.thread t).numberMask)
    (hhighMask : thread.highMask = (k.thread t).highMask) :
    rtScheduleRemoveThread cfg t (k.setThread t thread) =
      (rtScheduleRemoveThread cfg t k).setThread t thread := by
  have hagrees : removalAgreesAt cfg t (k.setThread t thread) = removalAgreesAt cfg t k := by
    simp only [removalAgreesAt, setThread_thread, update_self, hbind, hpriority, hnumber, hhighMask]
    rfl
  have hclear : ∀ (q : ReadyQueue) tested, q.clearBits cfg thread tested =
      q.clearBits cfg (k.thread t) tested := by
    intro q tested
    simp only [clearBits, hnumber, hnumberMask, hhighMask]
  simp only [rtScheduleRemoveThread, hagrees, setThread_thread,
    update_self, hbind, hpriority, hnumber, hhighMask, hclear,
    apply_ite (setThread · t thread)]
  rfl

theorem rtScheduleRemoveThread_setCpu (c : Nat) (cpu : Cpu) :
    rtScheduleRemoveThread cfg t (k.setCpu c cpu) =
      (rtScheduleRemoveThread cfg t k).setCpu c cpu := by
  simp only [rtScheduleRemoveThread, apply_ite (setCpu · c cpu)]
  rfl

end RemoveThread

section InsertThread

variable (cfg : Config) (c : Nat) (t : Tid) (k : Kernel)

@[simp] theorem rtScheduleInsertThread_thread :
    (rtScheduleInsertThread cfg c t k).thread =
      update k.thread t { k.thread t with stat := .ready } := by
  unfold rtScheduleInsertThread
  dsimp only
  split
  · rfl
  · split
    · rfl
    · split <;> rfl

@[simp] theorem rtScheduleInsertThread_removalsAgree :
    (rtScheduleInsertThread cfg c t k).removalsAgree = k.removalsAgree := by
  unfold rtScheduleInsertThread
  dsimp only
  split
  · rfl
  · split
    · rfl
    · split <;> rfl

@[simp] theorem rtScheduleInsertThread_currentThread (c' : Nat) :
    ((rtScheduleInsertThread cfg c t k).cpu c').currentThread = (k.cpu c').currentThread := by
  unfold rtScheduleInsertThread
  dsimp only
  split
  · rfl
  · split
    · rfl
    · split <;> rfl

@[simp] theorem rtScheduleInsertThread_started (c' : Nat) :
    ((rtScheduleInsertThread cfg c t k).cpu c').started = (k.cpu c').started := by
  unfold rtScheduleInsertThread
  dsimp only
  split
  · rfl
  · split
    · rfl
    · split <;> rfl

theorem rtScheduleInsertThread_queue_of_running
    (hrunning : (k.thread t).oncpu ≠ cfg.cpuDetached) :
    (rtScheduleInsertThread cfg c t k).queue = k.queue := by
  simp [rtScheduleInsertThread, hrunning]

theorem rtScheduleInsertThread_queue_of_detached
    (hdetached : (k.thread t).oncpu = cfg.cpuDetached) :
    (rtScheduleInsertThread cfg c t k).queue =
      update k.queue (k.thread t).bindCpu
        ((k.queue (k.thread t).bindCpu).enqueue cfg
          { k.thread t with stat := .ready } t) := by
  by_cases hbind : (k.thread t).bindCpu = cfg.cpusNr
  · simp [rtScheduleInsertThread, hdetached, hbind]
  · by_cases hc : c = (k.thread t).bindCpu
    · simp [rtScheduleInsertThread, hdetached, hbind, hc]
    · simp [rtScheduleInsertThread, hdetached, hbind, hc]

theorem mem_rtScheduleInsertThread_queue
    (hdetached : (k.thread t).oncpu = cfg.cpuDetached) (b p : Nat) (u : Tid) :
    u ∈ ((rtScheduleInsertThread cfg c t k).queue b).priorityTable p ↔
      u ∈ (k.queue b).priorityTable p ∨
        (u = t ∧ b = (k.thread t).bindCpu ∧ p = (k.thread t).currentPriority) := by
  rw [rtScheduleInsertThread_queue_of_detached cfg c t k hdetached]
  by_cases hb : b = (k.thread t).bindCpu
  · subst hb
    rw [update_self]
    simp only [enqueue]
    by_cases hp : p = (k.thread t).currentPriority
    · subst hp
      simp [update_self]
    · simp [hp]
  · simp [hb]

end InsertThread

section ChangePriority

variable {cfg : Config} {c : Nat} {t : Tid} {k : Kernel}

theorem rtThreadChangePriority_thread (priority : Nat) :
    (rtThreadChangePriority cfg c t priority k).thread =
      update k.thread t ((k.thread t).setPriority cfg priority) := by
  unfold rtThreadChangePriority
  split
  next hstat =>
    have hsame : ({ (k.thread t).setPriority cfg priority with stat := .ready } : Thread) =
        (k.thread t).setPriority cfg priority := by
      rw [← hstat, ← Thread.setPriority_stat cfg priority]
    simp only [rtScheduleInsertThread_thread, setThread_thread,
      rtScheduleRemoveThread_thread, update_self, update_idem]
    exact congrArg _ hsame
  · rfl

end ChangePriority

/-- What every thread control block satisfies from `rt_thread_init` on. -/
structure ThreadOk (cfg : Config) (thread : Thread) : Prop where
  initPriority_lt : thread.initPriority < cfg.priorityMax
  currentPriority_lt : thread.currentPriority < cfg.priorityMax
  bindCpu_le : thread.bindCpu ≤ cfg.cpusNr
  masks : thread.stat ≠ .init → thread.MasksOk cfg

structure LinkedOk (cfg : Config) (thread : Thread) (b p : Nat) : Prop where
  queue : b = thread.bindCpu
  priority : p = thread.currentPriority
  stat : thread.stat = .ready
  oncpu : thread.oncpu = cfg.cpuDetached

/-- The scheduler invariant.  `away` is the CPU, if any, that has just detached
its current thread and not yet switched to the next one. -/
structure Inv (cfg : Config) (away : Option Nat) (k : Kernel) : Prop where
  bitmap : ∀ b, (k.queue b).BitmapExact cfg
  threads : ∀ t, ThreadOk cfg (k.thread t)
  linked : ∀ b p t, t ∈ (k.queue b).priorityTable p → LinkedOk cfg (k.thread t) b p
  nodup : ∀ b p, ((k.queue b).priorityTable p).Nodup
  current : ∀ c < cfg.cpusNr, away ≠ some c →
    ∀ t, (k.cpu c).currentThread = some t ↔ (k.thread t).oncpu = c
  started : ∀ c < cfg.cpusNr, away ≠ some c → (k.cpu c).started = true →
    (k.cpu c).currentThread ≠ none
  notAway : ∀ t, away ≠ some (k.thread t).oncpu
  running : ∀ t, (k.thread t).oncpu ≠ cfg.cpuDetached →
    (k.thread t).oncpu < cfg.cpusNr ∧ (k.thread t).stat ≠ .init ∧
      ((k.thread t).bindCpu = cfg.cpusNr ∨
        (k.thread t).bindCpu = (k.thread t).oncpu)

def ReadyLinked (cfg : Config) (except : Option Tid) (k : Kernel) : Prop :=
  ∀ t, except ≠ some t → (k.thread t).stat = .ready →
    (k.thread t).oncpu = cfg.cpuDetached →
    t ∈ (k.queue (k.thread t).bindCpu).priorityTable (k.thread t).currentPriority

theorem initialKernel_inv (cfg : Config) : Inv cfg none (initialKernel cfg) where
  bitmap := fun _ => empty_bitmapExact cfg
  threads := fun _ =>
    ⟨cfg.priorityMax_pos, cfg.priorityMax_pos, Nat.le_refl _, fun h => absurd rfl h⟩
  linked := fun b p t hmem => by simp [initialKernel, empty] at hmem
  nodup := fun b p => by simp [initialKernel, empty]
  current := fun c hc _ t => by
    simp only [initialKernel, Thread.init, Config.cpuDetached]
    constructor
    · intro h
      cases h
    · intro h
      omega
  started := fun _ _ _ h => by cases h
  notAway := fun _ h => by cases h
  running := fun t hne => absurd rfl hne

structure SameSchedule (old new : Thread) : Prop where
  stat : new.stat = old.stat
  bindCpu : new.bindCpu = old.bindCpu
  oncpu : new.oncpu = old.oncpu
  currentPriority : new.currentPriority = old.currentPriority
  initPriority : new.initPriority = old.initPriority
  number : new.number = old.number
  highMask : new.highMask = old.highMask
  numberMask : new.numberMask = old.numberMask

theorem ThreadOk.of_same {cfg : Config} {old new : Thread}
    (hok : ThreadOk cfg old) (hsame : SameSchedule old new) :
    ThreadOk cfg new where
  initPriority_lt := by rw [hsame.initPriority]; exact hok.initPriority_lt
  currentPriority_lt := by rw [hsame.currentPriority]; exact hok.currentPriority_lt
  bindCpu_le := by rw [hsame.bindCpu]; exact hok.bindCpu_le
  masks := by
    intro hstat
    rw [hsame.stat] at hstat
    obtain ⟨hflat, hnumber, hnumberMask, hhighMask⟩ := hok.masks hstat
    constructor <;> intro hlevel <;>
      simp only [hsame.numberMask, hsame.currentPriority, hsame.number, hsame.highMask]
    · exact hflat hlevel
    · exact hnumber hlevel
    · exact hnumberMask hlevel
    · exact hhighMask hlevel

section Frame

variable {cfg : Config} {away : Option Nat} {k : Kernel} {t : Tid}

theorem Inv.setThread_same (hinv : Inv cfg away k) {thread : Thread}
    (hsame : SameSchedule (k.thread t) thread) :
    Inv cfg away (k.setThread t thread) := by
  have hthread : ∀ u, SameSchedule (k.thread u) ((k.setThread t thread).thread u) := by
    intro u
    by_cases hu : u = t
    · subst hu
      simpa using hsame
    · simp only [setThread_thread, update_of_ne hu]
      exact ⟨rfl, rfl, rfl, rfl, rfl, rfl, rfl, rfl⟩
  exact
    { bitmap := hinv.bitmap
      threads := fun u => (hinv.threads u).of_same (hthread u)
      linked := fun b p u hmem => by
        obtain ⟨hb, hp, hstat, honcpu⟩ := hinv.linked b p u hmem
        have hu := hthread u
        exact ⟨by rw [hu.bindCpu]; exact hb, by rw [hu.currentPriority]; exact hp,
          by rw [hu.stat]; exact hstat, by rw [hu.oncpu]; exact honcpu⟩
      nodup := hinv.nodup
      current := fun c hc haway u => by
        rw [(hthread u).oncpu]
        exact hinv.current c hc haway u
      started := hinv.started
      notAway := fun u => by
        rw [(hthread u).oncpu]
        exact hinv.notAway u
      running := fun u => by
        rw [(hthread u).oncpu, (hthread u).stat, (hthread u).bindCpu]
        exact hinv.running u }

theorem ReadyLinked.setThread_same {except : Option Tid}
    (hready : ReadyLinked cfg except k) {thread : Thread}
    (hsame : SameSchedule (k.thread t) thread) :
    ReadyLinked cfg except (k.setThread t thread) := by
  intro u hexcept hstat honcpu
  by_cases hu : u = t
  · subst hu
    simp only [setThread_thread, update_self] at hstat honcpu ⊢
    rw [hsame.stat] at hstat
    rw [hsame.oncpu] at honcpu
    rw [hsame.bindCpu, hsame.currentPriority]
    exact hready u hexcept hstat honcpu
  · simp only [setThread_thread, update_of_ne hu] at hstat honcpu ⊢
    exact hready u hexcept hstat honcpu

theorem Inv.setCpu_same (hinv : Inv cfg away k) {c : Nat} {cpu : Cpu}
    (hsame : cpu.currentThread = (k.cpu c).currentThread)
    (hstarted : cpu.started = (k.cpu c).started) :
    Inv cfg away (k.setCpu c cpu) := by
  have hstart : ∀ c', ((k.setCpu c cpu).cpu c').started = (k.cpu c').started := by
    intro c'
    by_cases hc' : c' = c
    · subst hc'
      simpa using hstarted
    · simp [hc']
  have hcurrent : ∀ c', ((k.setCpu c cpu).cpu c').currentThread = (k.cpu c').currentThread := by
    intro c'
    by_cases hc' : c' = c
    · subst hc'
      simpa using hsame
    · simp [hc']
  exact
    { bitmap := hinv.bitmap
      threads := hinv.threads
      linked := hinv.linked
      nodup := hinv.nodup
      current := fun c' hc' haway u => by
        rw [hcurrent c']
        exact hinv.current c' hc' haway u
      started := fun c' hc' haway => by
        rw [hcurrent c', hstart c']
        exact hinv.started c' hc' haway
      notAway := hinv.notAway
      running := hinv.running }

theorem Inv.not_linked_of_running (hinv : Inv cfg away k)
    (hrunning : (k.thread t).oncpu ≠ cfg.cpuDetached) (b p : Nat) :
    t ∉ (k.queue b).priorityTable p :=
  fun hmem => hrunning (hinv.linked b p t hmem).oncpu

theorem Inv.not_linked_of_not_mem_own (hinv : Inv cfg away k)
    (hown : t ∉ (k.queue (k.thread t).bindCpu).priorityTable
      (k.thread t).currentPriority) (b p : Nat) :
    t ∉ (k.queue b).priorityTable p := by
  intro hmem
  have hlinked := hinv.linked b p t hmem
  rw [hlinked.queue, hlinked.priority] at hmem
  exact hown hmem

end Frame

section RemoveInvariant

variable {cfg : Config} {away : Option Nat} {k : Kernel} {t : Tid}

def testedByte (cfg : Config) (t : Tid) (k : Kernel) : BitVec 8 :=
  let thread := k.thread t
  if thread.bindCpu = cfg.cpusNr then
    (k.queue cfg.cpusNr).readyTable thread.number &&& ~~~thread.highMask
  else (k.queue cfg.cpusNr).readyTable thread.number

theorem rtScheduleRemoveThread_queue (cfg : Config) (t : Tid) (k : Kernel) :
    (rtScheduleRemoveThread cfg t k).queue =
      if ((k.unlink t).queue (k.thread t).bindCpu).priorityTable
          (k.thread t).currentPriority = [] then
        update (k.unlink t).queue (k.thread t).bindCpu
          (((k.unlink t).queue (k.thread t).bindCpu).clearBits cfg (k.thread t)
            (testedByte cfg t k))
      else (k.unlink t).queue := by
  by_cases hbind : (k.thread t).bindCpu = cfg.cpusNr
  · simp only [rtScheduleRemoveThread, testedByte, hbind, if_true,
      apply_ite queue, setQueue_queue, unlink_readyTable]
  · simp only [rtScheduleRemoveThread, testedByte, hbind, if_false,
      apply_ite queue, setQueue_queue, unlink_readyTable]

theorem testAgrees_of_removalAgreesAt (hagrees : removalAgreesAt cfg t k = true)
    (hempty : ((k.unlink t).queue (k.thread t).bindCpu).priorityTable
      (k.thread t).currentPriority = []) (htwo : cfg.twoLevel = true) :
    ((k.unlink t).queue (k.thread t).bindCpu).TestAgrees (k.thread t)
      (testedByte cfg t k) := by
  by_cases hbind : (k.thread t).bindCpu = cfg.cpusNr
  · simp only [testedByte, hbind, if_true]
    exact testAgrees_own _ _
  · simp only [removalAgreesAt, hempty, htwo, hbind, Bool.not_true,
      decide_false, Bool.false_or, ne_eq, not_true_eq_false] at hagrees
    simp only [TestAgrees, testedByte, hbind, if_false]
    split at hagrees
    next hzero => rw [if_pos hzero]; exact of_decide_eq_true hagrees
    next hne => rw [if_neg hne]; exact of_decide_eq_true hagrees

theorem Inv.unlink_priorityTable_of_ne (hinv : Inv cfg away k) {b p : Nat}
    (hne : b ≠ (k.thread t).bindCpu ∨ p ≠ (k.thread t).currentPriority) :
    ((k.unlink t).queue b).priorityTable p = (k.queue b).priorityTable p := by
  rw [unlink_priorityTable, List.filter_eq_self]
  intro u hmem
  rw [decide_eq_true_eq]
  rintro rfl
  have hlinked := hinv.linked b p u hmem
  rcases hne with hb | hp
  · exact hb hlinked.queue
  · exact hp hlinked.priority

theorem unlink_bitmapExact_of_isEmpty_iff {b : Nat}
    (hexact : (k.queue b).BitmapExact cfg)
    (hiff : ∀ p, ((k.unlink t).queue b).priorityTable p = [] ↔
      (k.queue b).priorityTable p = []) :
    ((k.unlink t).queue b).BitmapExact cfg := by
  refine ⟨fun p => ?_, hexact.group_iff⟩
  rw [ne_eq, hiff p]
  exact hexact.marks_iff p

theorem Inv.remove_bitmapExact (hinv : Inv cfg away k)
    (hstarted : (k.thread t).stat ≠ .init)
    (hagrees : removalAgreesAt cfg t k = true) (b : Nat) :
    ((rtScheduleRemoveThread cfg t k).queue b).BitmapExact cfg := by
  have hok := hinv.threads t
  have hmasks := hok.masks hstarted
  rw [rtScheduleRemoveThread_queue]
  split
  next hempty =>
    by_cases hb : b = (k.thread t).bindCpu
    · subst hb
      rw [update_self]
      exact clearBits_bitmapExact (hinv.bitmap _) rfl rfl
        (fun p hp => hinv.unlink_priorityTable_of_ne (.inr hp)) hempty hmasks
        hok.currentPriority_lt (testAgrees_of_removalAgreesAt hagrees hempty)
    · rw [update_of_ne hb]
      apply unlink_bitmapExact_of_isEmpty_iff (hinv.bitmap b)
      intro p
      rw [hinv.unlink_priorityTable_of_ne (.inl hb)]
  next hfull =>
    -- some other thread keeps the list, so no bit has to change
    apply unlink_bitmapExact_of_isEmpty_iff (hinv.bitmap b)
    intro p
    by_cases hown : b = (k.thread t).bindCpu ∧ p = (k.thread t).currentPriority
    · obtain ⟨rfl, rfl⟩ := hown
      refine iff_of_false hfull ?_
      intro hnil
      exact hfull (by simp [hnil])
    · rw [hinv.unlink_priorityTable_of_ne (by omega)]

theorem Inv.remove (hinv : Inv cfg away k) (hstarted : (k.thread t).stat ≠ .init)
    (hagrees : removalAgreesAt cfg t k = true) :
    Inv cfg away (rtScheduleRemoveThread cfg t k) where
  bitmap := hinv.remove_bitmapExact hstarted hagrees
  threads := by simpa using hinv.threads
  linked := fun b p u hmem => by
    rw [rtScheduleRemoveThread_priorityTable, List.mem_filter] at hmem
    rw [rtScheduleRemoveThread_thread]
    exact hinv.linked b p u hmem.1
  nodup := fun b p => by
    rw [rtScheduleRemoveThread_priorityTable]
    exact (hinv.nodup b p).filter _
  current := by simpa using hinv.current
  started := by simpa using hinv.started
  notAway := by simpa using hinv.notAway
  running := by simpa using hinv.running

theorem not_linked_after_remove (b p : Nat) :
    t ∉ ((rtScheduleRemoveThread cfg t k).queue b).priorityTable p := by
  simp

theorem ReadyLinked.remove {except : Option Tid}
    (hready : ReadyLinked cfg except k) (hexcept : except = none ∨ except = some t) :
    ReadyLinked cfg (some t) (rtScheduleRemoveThread cfg t k) := by
  intro u hu hstat honcpu
  simp only [rtScheduleRemoveThread_thread] at hstat honcpu ⊢
  have hne : u ≠ t := by
    rintro rfl
    exact hu rfl
  rw [rtScheduleRemoveThread_priorityTable, List.mem_filter]
  refine ⟨hready u ?_ hstat honcpu, by simpa using hne⟩
  rcases hexcept with rfl | rfl
  · simp
  · exact hu

end RemoveInvariant

section InsertInvariant

variable {cfg : Config} {away : Option Nat} {k : Kernel} {t : Tid}

theorem ThreadOk.setReady {thread : Thread} (hok : ThreadOk cfg thread)
    (hstarted : thread.stat ≠ .init) :
    ThreadOk cfg { thread with stat := .ready } where
  initPriority_lt := hok.initPriority_lt
  currentPriority_lt := hok.currentPriority_lt
  bindCpu_le := hok.bindCpu_le
  masks := fun _ =>
    let hmasks := hok.masks hstarted
    ⟨hmasks.flat, hmasks.number, hmasks.numberMask, hmasks.highMask⟩

theorem Inv.insert (hinv : Inv cfg away k) (c : Nat)
    (hstarted : (k.thread t).stat ≠ .init)
    (hfree : (k.thread t).oncpu = cfg.cpuDetached →
      ∀ b p, t ∉ (k.queue b).priorityTable p) :
    Inv cfg away (rtScheduleInsertThread cfg c t k) := by
  have hthread : ∀ u, (rtScheduleInsertThread cfg c t k).thread u =
      if u = t then { k.thread t with stat := .ready } else k.thread u := by
    intro u
    rw [rtScheduleInsertThread_thread, update_apply]
  have hready := (hinv.threads t).setReady hstarted
  have hthreads : ∀ u, ThreadOk cfg ((rtScheduleInsertThread cfg c t k).thread u) := by
    intro u
    rw [hthread u]
    split
    · exact hready
    · exact hinv.threads u
  have honcpu : ∀ u, ((rtScheduleInsertThread cfg c t k).thread u).oncpu = (k.thread u).oncpu := by
    intro u
    rw [hthread u]
    split
    next hu => rw [hu]
    · rfl
  have hcurrent : ∀ c' < cfg.cpusNr, away ≠ some c' → ∀ u,
      ((rtScheduleInsertThread cfg c t k).cpu c').currentThread = some u ↔
        ((rtScheduleInsertThread cfg c t k).thread u).oncpu = c' := by
    intro c' hc' haway u
    rw [rtScheduleInsertThread_currentThread, honcpu]
    exact hinv.current c' hc' haway u
  have hrunning : ∀ u, ((rtScheduleInsertThread cfg c t k).thread u).oncpu ≠ cfg.cpuDetached →
      ((rtScheduleInsertThread cfg c t k).thread u).oncpu < cfg.cpusNr ∧
        ((rtScheduleInsertThread cfg c t k).thread u).stat ≠ .init ∧
        (((rtScheduleInsertThread cfg c t k).thread u).bindCpu = cfg.cpusNr ∨
          ((rtScheduleInsertThread cfg c t k).thread u).bindCpu =
            ((rtScheduleInsertThread cfg c t k).thread u).oncpu) := by
    intro u hu
    rw [honcpu] at hu
    obtain ⟨hlt, hstat, hbind⟩ := hinv.running u hu
    rw [hthread u]
    split
    next heq =>
      subst heq
      exact ⟨hlt, by simp, hbind⟩
    · exact ⟨hlt, hstat, hbind⟩
  have hlinkedOk : ∀ b p u, LinkedOk cfg (k.thread u) b p →
      LinkedOk cfg ((rtScheduleInsertThread cfg c t k).thread u) b p := by
    intro b p u hlinked
    rw [hthread u]
    split
    next heq =>
      subst heq
      exact ⟨hlinked.queue, hlinked.priority, rfl, hlinked.oncpu⟩
    · exact hlinked
  by_cases hdetached : (k.thread t).oncpu = cfg.cpuDetached
  · have hqueue := rtScheduleInsertThread_queue_of_detached cfg c t k hdetached
    exact
      { bitmap := fun b => by
          rw [hqueue, update_apply]
          split
          · exact enqueue_bitmapExact t (hinv.bitmap _)
              (hready.masks (by simp)) hready.currentPriority_lt
          · exact hinv.bitmap b
        threads := hthreads
        linked := fun b p u hmem => by
          rw [mem_rtScheduleInsertThread_queue cfg c t k hdetached] at hmem
          rcases hmem with hmem | ⟨rfl, rfl, rfl⟩
          · exact hlinkedOk b p u (hinv.linked b p u hmem)
          · rw [hthread u, if_pos rfl]
            exact ⟨rfl, rfl, rfl, hdetached⟩
        nodup := fun b p => by
          rw [hqueue, update_apply]
          split
          next hb =>
            simp only [enqueue, update_apply]
            split
            next hp =>
              refine List.nodup_append.mpr ⟨hinv.nodup _ _, by simp, ?_⟩
              rintro u hu v hv rfl
              rw [List.mem_singleton] at hv
              subst hv
              exact hfree hdetached _ _ hu
            · exact hinv.nodup _ p
          · exact hinv.nodup b p
        current := hcurrent
        started := by simpa using hinv.started
        notAway := fun u => by rw [honcpu]; exact hinv.notAway u
        running := hrunning }
  · have hqueue := rtScheduleInsertThread_queue_of_running cfg c t k hdetached
    exact
      { bitmap := by rw [hqueue]; exact hinv.bitmap
        threads := hthreads
        linked := fun b p u hmem => by
          rw [hqueue] at hmem
          exact hlinkedOk b p u (hinv.linked b p u hmem)
        nodup := by rw [hqueue]; exact hinv.nodup
        current := hcurrent
        started := by simpa using hinv.started
        notAway := fun u => by rw [honcpu]; exact hinv.notAway u
        running := hrunning }

theorem ReadyLinked.insert (hready : ReadyLinked cfg (some t) k) (c : Nat) :
    ReadyLinked cfg none (rtScheduleInsertThread cfg c t k) := by
  intro u _ hstat honcpu
  by_cases hu : u = t
  · subst hu
    simp only [rtScheduleInsertThread_thread, update_self] at hstat honcpu ⊢
    rw [mem_rtScheduleInsertThread_queue cfg c u k honcpu]
    exact .inr ⟨rfl, rfl, rfl⟩
  · simp only [rtScheduleInsertThread_thread, update_of_ne hu]
      at hstat honcpu ⊢
    have hmem := hready u (by simpa using fun h => hu h.symm) hstat honcpu
    by_cases hdetached : (k.thread t).oncpu = cfg.cpuDetached
    · rw [mem_rtScheduleInsertThread_queue cfg c t k hdetached]
      exact .inl hmem
    · rw [rtScheduleInsertThread_queue_of_running cfg c t k hdetached]
      exact hmem

theorem ReadyLinked.weaken {except : Option Tid}
    (hready : ReadyLinked cfg none k) : ReadyLinked cfg except k :=
  fun t _ => hready t (by simp)

end InsertInvariant

end RtThread.Scheduler
