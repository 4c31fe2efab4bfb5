import RtThread.Scheduler.Outrank
import RtThread.Scheduler.Placement

namespace RtThread.Scheduler

open RtThread.Lib

namespace ReadyQueue

def Idle (q : ReadyQueue) : Prop := ∀ p, q.priorityTable p = []

def tableReads (cfg : Config) (q : ReadyQueue) : List Nat :=
  if cfg.twoLevel then [ubasePred (rtFfs q.priorityGroup)] else []

end ReadyQueue

def readyTableReads (cfg : Config) (c : Nat) (k : Kernel) : List Nat :=
  let global := k.queue cfg.cpusNr
  let pcpu := k.queue c
  if cfg.twoLevel ∧ global.priorityGroup = 0 ∧ pcpu.priorityGroup = 0 then []
  else global.tableReads cfg ++ pcpu.tableReads cfg

namespace Kernel

/-- The list of a priority: the CPU's own one, or the global one if that is empty. -/
def readyList (cfg : Config) (c : Nat) (k : Kernel) (p : Nat) : List Tid :=
  if (k.queue c).priorityTable p = [] then (k.queue cfg.cpusNr).priorityTable p
  else (k.queue c).priorityTable p

/-- CPU `c` may take the thread from a queue. -/
def Candidate (cfg : Config) (c : Nat) (k : Kernel) (t : Tid) : Prop :=
  ∃ b p, (b = cfg.cpusNr ∨ b = c) ∧ t ∈ (k.queue b).priorityTable p

/-- `rt_schedule` on CPU `c` finds no interrupt and the scheduler unlocked. -/
def Unlocked (c : Nat) (k : Kernel) (current : Tid) : Prop :=
  (k.cpu c).irqNest = 0 ∧ ((k.cpusLock c).thread current).schedulerLockNest = 1

end Kernel

/-- Whom `rt_schedule`, called by `current`, lets run. -/
structure RunsBest (cfg : Config) (c : Nat) (current : Tid) (k k' : Kernel) : Prop where
  best : ∃ t, (k'.cpu c).currentThread = some t ∧
    ∀ u, k.Candidate cfg c u ∨ (u = current ∧ (k.thread u).stat = .ready) →
      (k'.thread t).currentPriority ≤ (k.thread u).currentPriority
  requeued : (k.thread current).stat = .ready →
    (∃ u, k.Candidate cfg c u ∧
      (k.thread u).currentPriority ≤ (k.thread current).currentPriority) →
    ((k'.queue (k.thread current).bindCpu).priorityTable
      (k.thread current).currentPriority).getLast? = some current
  keeps : (k.thread current).stat = .ready →
    (∀ u, k.Candidate cfg c u →
      (k.thread current).currentPriority < (k.thread u).currentPriority) →
    (k'.cpu c).currentThread = some current

structure DecisionOk (cfg : Config) (c : Nat) (k : Kernel) : Prop where
  inTable : ∀ number ∈ readyTableReads cfg c k, number < 32
  highest : ∀ p, k.readyList cfg c p ≠ [] → (∀ better < p, k.readyList cfg c better = []) →
    ∃ t, getHighestPriorityThread cfg c k = some (t, p) ∧
      (k.readyList cfg c p).head? = some t
  runs : ∀ current, (k.cpu c).currentThread = some current → k.Unlocked c current →
    ∃ k', rtSchedule cfg c k = some k' ∧ RunsBest cfg c current k k'

section Table

variable {cfg : Config} {c : Nat} {k : Kernel} {q : ReadyQueue}

theorem ReadyQueue.BitmapExact.group_eq_zero_iff (hexact : q.BitmapExact cfg) :
    q.priorityGroup = 0 ↔ q.Idle := by
  constructor
  · intro hzero p
    by_contra hfull
    exact hexact.group_ne_zero hfull hzero
  · intro hidle
    by_contra hne
    exact (highestReadyPriority_spec hexact hne).1 (hidle _)

theorem ReadyQueue.tableReads_lt_iff (q : ReadyQueue) :
    (∀ number ∈ q.tableReads cfg, number < 32) ↔
      (cfg.twoLevel = true → q.priorityGroup ≠ 0) := by
  unfold tableReads
  cases htwo : cfg.twoLevel with
  | false => simp
  | true =>
    simp only [if_true, List.mem_singleton, forall_eq, true_imp_iff]
    constructor
    · intro hlt hzero
      rw [hzero, rtFfs_zero] at hlt
      exact absurd hlt (by decide)
    · intro hne
      obtain ⟨i, hffs, hlowest⟩ := rtFfs_spec hne
      have hi := hlowest.lt
      rw [hffs, ubasePred]
      omega

theorem readyTableReads_lt_iff (hglobal : (k.queue cfg.cpusNr).BitmapExact cfg)
    (hlocal : (k.queue c).BitmapExact cfg) :
    (∀ number ∈ readyTableReads cfg c k, number < 32) ↔
      (cfg.twoLevel = true → ((k.queue cfg.cpusNr).Idle ↔ (k.queue c).Idle)) := by
  rw [← hglobal.group_eq_zero_iff, ← hlocal.group_eq_zero_iff]
  unfold readyTableReads
  dsimp only
  split
  next hnone => simp [hnone.2.1, hnone.2.2]
  next hsome =>
    simp only [List.mem_append, or_imp, forall_and, ReadyQueue.tableReads_lt_iff]
    tauto

end Table

section Highest

variable {cfg : Config} {c : Nat} {k k' : Kernel} {current : Tid} {away : Option Nat}

theorem Inv.le_highest (hinv : Inv cfg away k) {b p : Nat} (hp : p ≤ 256)
    (hbetter : ∀ better < p, (k.queue b).priorityTable better = []) :
    p ≤ (k.queue b).highestReadyPriority cfg := by
  by_cases hzero : (k.queue b).priorityGroup = 0
  · exact Nat.le_trans hp (ReadyQueue.highestReadyPriority_of_group_eq_zero cfg hzero)
  · by_contra hlt
    exact (ReadyQueue.highestReadyPriority_spec (hinv.bitmap b) hzero).1
      (hbetter _ (Nat.lt_of_not_le hlt))

theorem Inv.highest_eq (hinv : Inv cfg away k) {b p : Nat}
    (hfull : (k.queue b).priorityTable p ≠ [])
    (hbetter : ∀ better < p, (k.queue b).priorityTable better = []) :
    (k.queue b).highestReadyPriority cfg = p := by
  have hp := hinv.priority_lt hfull
  have hmax := cfg.priorityMax_le
  have hspec := ReadyQueue.highestReadyPriority_spec (hinv.bitmap b)
    ((hinv.bitmap b).group_ne_zero hfull)
  refine Nat.le_antisymm ?_ (hinv.le_highest (by omega) hbetter)
  by_contra hlt
  exact hfull (hspec.2 p (Nat.lt_of_not_le hlt))

theorem readyList_eq_nil {p : Nat} : k.readyList cfg c p = [] ↔
    (k.queue cfg.cpusNr).priorityTable p = [] ∧ (k.queue c).priorityTable p = [] := by
  unfold Kernel.readyList
  split
  next hnil => exact (and_iff_left hnil).symm
  next hfull => exact ⟨fun h => absurd h hfull, fun h => h.2⟩

theorem Inv.getHighestPriorityThread_eq (hinv : Inv cfg away k) {p : Nat}
    (hfull : k.readyList cfg c p ≠ [])
    (hbetter : ∀ better < p, k.readyList cfg c better = []) :
    ∃ t, getHighestPriorityThread cfg c k = some (t, p) ∧
      (k.readyList cfg c p).head? = some t := by
  have hglobal := fun better hlt => (readyList_eq_nil.mp (hbetter better hlt)).1
  have hlocal := fun better hlt => (readyList_eq_nil.mp (hbetter better hlt)).2
  have hmax := cfg.priorityMax_le
  have hfirst : ∀ b, (k.queue b).priorityTable p ≠ [] →
      ∃ t, (k.queue b).first cfg p = some t ∧ ((k.queue b).priorityTable p).head? = some t := by
    intro b hb
    obtain ⟨t, rest, hlist⟩ := List.exists_cons_of_ne_nil hb
    exact ⟨t, by rw [ReadyQueue.first, if_pos (hinv.priority_lt hb), hlist]; rfl,
      by rw [hlist]; rfl⟩
  unfold getHighestPriorityThread Kernel.readyList
  dsimp only
  by_cases hown : (k.queue c).priorityTable p = []
  · have hqueued : (k.queue cfg.cpusNr).priorityTable p ≠ [] :=
      fun h => hfull (readyList_eq_nil.mpr ⟨h, hown⟩)
    have hp := hinv.priority_lt hqueued
    have hpast : p + 1 ≤ (k.queue c).highestReadyPriority cfg := by
      refine hinv.le_highest (by omega) fun better hlt => ?_
      rcases Nat.lt_succ_iff_lt_or_eq.mp hlt with hless | rfl
      · exact hlocal better hless
      · exact hown
    rw [if_neg fun h => (hinv.bitmap _).group_ne_zero hqueued h.2.1, if_pos hown,
      hinv.highest_eq hqueued hglobal, if_pos (by omega)]
    obtain ⟨t, hfound, hhead⟩ := hfirst cfg.cpusNr hqueued
    exact ⟨t, by rw [hfound]; rfl, hhead⟩
  · have hp := hinv.priority_lt hown
    have hnot := hinv.le_highest (by omega) hglobal
    rw [if_neg fun h => (hinv.bitmap _).group_ne_zero hown h.2.2, if_neg hown,
      hinv.highest_eq hown hlocal, if_neg (by omega)]
    obtain ⟨t, hfound, hhead⟩ := hfirst c hown
    exact ⟨t, by rw [hfound]; rfl, hhead⟩

theorem Inv.highest_le_candidate (hinv : Inv cfg away k) {t u : Tid} {p : Nat}
    (hne : (k.queue cfg.cpusNr).priorityGroup ≠ 0 ∨ (k.queue c).priorityGroup ≠ 0)
    (hhighest : getHighestPriorityThread cfg c k = some (t, p))
    (hcandidate : k.Candidate cfg c u) : p ≤ (k.thread u).currentPriority := by
  obtain ⟨b, q, hb, hmem⟩ := hcandidate
  rw [← (hinv.linked b q u hmem).priority]
  by_contra hlt
  refine hinv.highest_le hne hhighest ⟨q, Nat.lt_of_not_le hlt, ?_⟩
  rcases hb with rfl | rfl
  · exact .inl (List.ne_nil_of_mem hmem)
  · exact .inr (List.ne_nil_of_mem hmem)

end Highest

section Select

variable {cfg : Config} {c : Nat} {k k' : Kernel} {current : Tid}

theorem Inv.selectThread_stays (hinv : Inv cfg none k) (hfree : ¬ k.Linked current)
    (hselect : selectThread cfg c current k = some (k', none)) :
    (∀ u, ¬ k.Candidate cfg c u) ∨ ((k.thread current).stat = .ready ∧
      ∀ u, k.Candidate cfg c u →
        (k.thread current).currentPriority < (k.thread u).currentPriority) := by
  unfold selectThread at hselect
  split at hselect
  next hne =>
    obtain ⟨toThread, p, b, hhighest, -, hmem⟩ := hinv.getHighestPriorityThread_mem c hne
    have hother : toThread ≠ current := by
      rintro rfl
      exact hfree ⟨b, p, hmem⟩
    rw [hhighest] at hselect
    dsimp only at hselect
    rcases leaveCpu_eq (Eq.refl (leaveCpu cfg c current toThread p k)) with
      ⟨hchoice, hlt⟩ | ⟨hchoice, -⟩
    · refine .inr ⟨?_, fun u hu =>
        Nat.lt_of_lt_of_le hlt (hinv.highest_le_candidate hne hhighest hu)⟩
      by_contra hwaits
      have hgone := congrArg Prod.snd hchoice
      simp only [leaveCpu, Kernel.setThread_thread, Function.update_self, if_neg hwaits] at hgone
      exact hother hgone
    · rw [hchoice, if_pos hother] at hselect
      cases hselect
  next hzero =>
    refine .inl fun u hu => hzero ?_
    obtain ⟨b, p, hb, hmem⟩ := hu
    have hfull := List.ne_nil_of_mem hmem
    rcases hb with rfl | rfl
    · exact .inl ((hinv.bitmap _).group_ne_zero hfull)
    · exact .inr ((hinv.bitmap _).group_ne_zero hfull)

/-- The thread chosen is as good as any other, and leaves the queues in which the current thread
has been put back. -/
theorem Inv.selectThread_switches (hinv : Inv cfg none k) (hfree : ¬ k.Linked current)
    {toThread : Tid} (hselect : selectThread cfg c current k = some (k', some toThread)) :
    toThread ≠ current ∧ k.Candidate cfg c toThread ∧
      (∀ u, k.Candidate cfg c u ∨ (u = current ∧ (k.thread u).stat = .ready) →
        (k.thread toThread).currentPriority ≤ (k.thread u).currentPriority) ∧
      ∀ b p, (k'.queue b).priorityTable p =
        (((yieldCurrent cfg c current k).queue b).priorityTable p).filter (· ≠ toThread) := by
  unfold selectThread at hselect
  split at hselect
  next hne =>
    obtain ⟨highest, p, b, hhighest, hb, hmem⟩ := hinv.getHighestPriorityThread_mem c hne
    have hother : highest ≠ current := by
      rintro rfl
      exact hfree ⟨b, p, hmem⟩
    rw [hhighest] at hselect
    dsimp only at hselect
    rcases leaveCpu_eq (Eq.refl (leaveCpu cfg c current highest p k)) with
      ⟨hchoice, -⟩ | ⟨hchoice, hle⟩
    · rw [hchoice, if_neg (not_not.mpr rfl)] at hselect
      cases hselect
    · rw [hchoice, if_pos hother] at hselect
      cases hselect
      have hpriority : (k.thread highest).currentPriority = p :=
        (hinv.linked b p highest hmem).priority.symm
      have hbest := fun u hu => hinv.highest_le_candidate (u := u) hne hhighest hu
      dsimp only
      rw [hpriority]
      refine ⟨hother, ⟨b, p, hb, hmem⟩, fun u hu => ?_, fun b p => ?_⟩
      · rcases hu with hu | ⟨rfl, hready⟩
        · exact hbest u hu
        · exact hle hready
      · rw [rtScheduleRemoveThread_priorityTable]
        rfl
  · cases hselect

theorem yieldCurrent_tail (cfg : Config) (c : Nat) (hready : (k.thread current).stat = .ready) :
    ∃ before, ((yieldCurrent cfg c current k).queue (k.thread current).bindCpu).priorityTable
      (k.thread current).currentPriority = before ++ [current] := by
  unfold yieldCurrent
  dsimp only
  rw [if_pos (by simpa using hready), rtScheduleInsertThread_queue_of_detached _ _ _ _ (by simp)]
  simp only [Kernel.setThread_thread, Function.update_self, ReadyQueue.enqueue]
  exact ⟨_, rfl⟩

end Select

section Schedule

variable {cfg : Config} {c : Nat} {k : Kernel} {current : Tid}

theorem RunsBest.of_locked {k' : Kernel} (hruns : RunsBest cfg c current (k.cpusLock c) k') :
    RunsBest cfg c current k k' := by
  have hqueue : (k.cpusLock c).queue = k.queue := by
    unfold Kernel.cpusLock
    split <;> rfl
  have hthread : ∀ u, ((k.cpusLock c).thread u).currentPriority =
      (k.thread u).currentPriority ∧ ((k.cpusLock c).thread u).stat = (k.thread u).stat ∧
        ((k.cpusLock c).thread u).bindCpu = (k.thread u).bindCpu := by
    intro u
    unfold Kernel.cpusLock
    split
    · exact ⟨rfl, rfl, rfl⟩
    next t _ =>
      by_cases hu : u = t
      · subst hu
        simp [Thread.cpusLock]
      · simp [hu]
  have hcandidate : ∀ u, (k.cpusLock c).Candidate cfg c u ↔ k.Candidate cfg c u := by
    intro u
    unfold Kernel.Candidate
    rw [hqueue]
  obtain ⟨hbest, hrequeued, hkeeps⟩ := hruns
  simp only [hcandidate, hthread] at hbest hrequeued hkeeps
  exact ⟨hbest, hrequeued, hkeeps⟩

theorem Inv.not_linked_of_current (hinv : Inv cfg none k) (hc : c < cfg.cpusNr)
    (hcurrent : (k.cpu c).currentThread = some current) : ¬ k.Linked current := by
  rintro ⟨b, p, hmem⟩
  have honcpu := (hinv.current c hc (by simp) current).mp hcurrent
  rw [(hinv.linked b p current hmem).oncpu] at honcpu
  exact absurd honcpu.symm (Nat.ne_of_lt hc)

theorem Inv.runsBest_stays (hinv : Inv cfg none k) (hc : c < cfg.cpusNr)
    (hcurrent : (k.cpu c).currentThread = some current) {k' : Kernel}
    (hselect : selectThread cfg c current k = some (k', none)) :
    RunsBest cfg c current k (k'.cpusUnlock c) := by
  have hfree := hinv.not_linked_of_current hc hcurrent
  obtain ⟨-, rfl⟩ | ⟨_, _, _, _, hsome, -⟩ := hinv.selectThread_cases hc hcurrent hselect
  · have hstays : ((k'.cpusUnlock c).cpu c).currentThread = some current := by
      rw [Kernel.cpusUnlock_cpu]
      exact hcurrent
    rcases hinv.selectThread_stays hfree hselect with hnone | ⟨hready, hbetter⟩
    · refine ⟨⟨current, hstays, fun u hu => ?_⟩, fun _ ⟨u, hu, _⟩ => absurd hu (hnone u),
        fun _ _ => hstays⟩
      rcases hu with hu | ⟨rfl, -⟩
      · exact absurd hu (hnone u)
      · rw [Kernel.cpusUnlock_priority]
    · refine ⟨⟨current, hstays, fun u hu => ?_⟩, fun _ ⟨u, hu, hle⟩ => ?_, fun _ _ => hstays⟩
      · rw [Kernel.cpusUnlock_priority]
        rcases hu with hu | ⟨rfl, -⟩
        · exact Nat.le_of_lt (hbetter u hu)
        · exact Nat.le_refl _
      · exact absurd hle (Nat.not_le.mpr (hbetter u hu))
  · cases hsome

theorem Inv.runsBest_switches (hinv : Inv cfg none k) (hc : c < cfg.cpusNr)
    (hcurrent : (k.cpu c).currentThread = some current) {k' : Kernel} {toThread : Tid}
    (hselect : selectThread cfg c current k = some (k', some toThread)) :
    RunsBest cfg c current k (k'.contextSwitch c toThread) := by
  have hfree := hinv.not_linked_of_current hc hcurrent
  obtain ⟨hother, hcandidate, hbest, hqueue⟩ := hinv.selectThread_switches hfree hselect
  have hsame := (selectThread_handover hfree hselect).1
  refine ⟨⟨toThread, ?_, fun u hu => ?_⟩, fun hready _ => ?_, fun hready hbetter => ?_⟩
  · simp
  · rw [Kernel.contextSwitch_priority, (hsame toThread).priority]
    exact hbest u hu
  · obtain ⟨before, htail⟩ := yieldCurrent_tail cfg c hready
    rw [Kernel.contextSwitch_queue, hqueue, htail, List.filter_append,
      List.filter_cons_of_pos (by simpa using hother.symm), List.filter_nil,
      List.getLast?_append_of_ne_nil _ (by simp)]
    rfl
  · have hle := hbest current (.inr ⟨rfl, hready⟩)
    exact absurd (hbetter toThread hcandidate) (Nat.not_lt.mpr hle)

theorem Inv.rtSchedule_runsBest (hinv : Inv cfg none k) (hc : c < cfg.cpusNr)
    (hcurrent : (k.cpu c).currentThread = some current) (hunlocked : k.Unlocked c current) :
    ∃ k', rtSchedule cfg c k = some k' ∧ RunsBest cfg c current k k' := by
  have hlock := (hinv.kept_cpusLock (c := c)).inv
  have hcurrentLocked : ((k.cpusLock c).cpu c).currentThread = some current := by
    rw [Kernel.cpusLock_cpu]
    exact hcurrent
  have hirq : ¬ ((k.cpusLock c).cpu c).irqNest ≠ 0 := by
    rw [Kernel.cpusLock_cpu]
    exact not_not.mpr hunlocked.1
  simp only [rtSchedule, hcurrent, if_neg hirq, if_pos hunlocked.2]
  split
  next hnone => exact absurd hnone hlock.selectThread_ne_none
  next selected hselect =>
    exact ⟨_, rfl, (hlock.runsBest_stays hc hcurrentLocked hselect).of_locked⟩
  next selected toThread hselect =>
    exact ⟨_, rfl, (hlock.runsBest_switches hc hcurrentLocked hselect).of_locked⟩

/-- The decision is as it should be exactly when, in the two-level layout, both queues are empty
or neither of them. -/
theorem decisionOk_iff (hinv : Inv cfg none k) (hc : c < cfg.cpusNr) :
    DecisionOk cfg c k ↔
      (cfg.twoLevel = true → ((k.queue cfg.cpusNr).Idle ↔ (k.queue c).Idle)) := by
  rw [← readyTableReads_lt_iff (hinv.bitmap _) (hinv.bitmap _)]
  exact ⟨fun hok => hok.inTable, fun hreads => ⟨hreads, fun p => hinv.getHighestPriorityThread_eq,
    fun current hcurrent hunlocked => hinv.rtSchedule_runsBest hc hcurrent hunlocked⟩⟩

end Schedule

def oneUnboundRun : List Op := spawn 0 63 0 ++ spawn 1 8 1 ++ [.schedulerStart 0]

/-- The search reads `rt_thread_ready_table[0xffffffff]`. -/
theorem decisionOk_fails_for_empty_queue :
    ∃ k, (machine (twoLevel64 1)).Reachable (fun _ _ => True) k ∧ Inv (twoLevel64 1) none k ∧
      (k.cpu 0).currentThread = some 1 ∧ ¬ DecisionOk (twoLevel64 1) 0 k := by
  have hrun : ((machine (twoLevel64 1)).run (fun _ _ => True)
      (initialKernel (twoLevel64 1)) oneUnboundRun).map
        (fun k => (k.removalsAgree, (k.cpu 0).currentThread, readyTableReads (twoLevel64 1) 0 k)) =
      some (true, some 1, [0xffffffff, 7]) := by decide +kernel
  obtain ⟨k, hreach, hvalue⟩ := Machine.exists_reachable_of_run rfl hrun
  simp only [Prod.mk.injEq] at hvalue
  obtain ⟨hagree, hcurrent, hreads⟩ := hvalue
  refine ⟨k, hreach, inv_of_reachable hreach hagree, hcurrent, fun hok => ?_⟩
  have hlt := hok.inTable 0xffffffff (by rw [hreads]; exact List.mem_cons_self)
  exact absurd hlt (by decide)

def twoUnboundRun : List Op :=
  spawn 0 63 0 ++ spawn 1 8 1 ++ spawn 2 9 1 ++ [.schedulerStart 0]

theorem decisionOk_iff_twoUnbound :
    ∃ k, (machine (twoLevel64 1)).Reachable (fun _ _ => True) k ∧
      (k.cpu 0).currentThread = some 1 ∧ DecisionOk (twoLevel64 1) 0 k := by
  have hrun : ((machine (twoLevel64 1)).run (fun _ _ => True)
      (initialKernel (twoLevel64 1)) twoUnboundRun).map
        (fun k => (k.removalsAgree, (k.cpu 0).currentThread,
          (k.queue 1).priorityTable 9, (k.queue 0).priorityTable 63)) =
      some (true, some 1, [2], [0]) := by decide +kernel
  obtain ⟨k, hreach, hvalue⟩ := Machine.exists_reachable_of_run rfl hrun
  simp only [Prod.mk.injEq] at hvalue
  obtain ⟨hagree, hcurrent, hglobal, hlocal⟩ := hvalue
  refine ⟨k, hreach, hcurrent, (decisionOk_iff (inv_of_reachable hreach hagree)
    (by decide)).mpr fun _ => iff_of_false (fun hidle => ?_) (fun hidle => ?_)⟩
  · have hempty : (k.queue 1).priorityTable 9 = [] := hidle 9
    rw [hglobal] at hempty
    cases hempty
  · rw [hidle 63] at hlocal
    cases hlocal

end RtThread.Scheduler
