import Mathlib.Data.List.Rotate
import RtThread.Cpu.CriticalLevel
import RtThread.Scheduler.Outrank

namespace RtThread.Scheduler

open Function RtThread.Lib ReadyQueue

/-! The scheduler of the UP build: one queue and one running thread, which is in none of the
lists. -/

namespace ReadyQueue

def remove (cfg : Config) (thread : Thread) (t : Tid) (q : ReadyQueue) : ReadyQueue :=
  let q := { q with priorityTable := fun p => (q.priorityTable p).filter (· ≠ t) }
  if q.priorityTable thread.currentPriority = [] then
    q.clearBits cfg thread (q.readyTable thread.number &&& ~~~thread.highMask)
  else q

/-- The lists hold the threads that are `linked`, once each. -/
structure Holds (cfg : Config) (linked : Tid → Nat → Prop) (q : ReadyQueue) : Prop where
  exact : q.BitmapExact cfg
  mem_iff : ∀ t p, t ∈ q.priorityTable p ↔ linked t p
  nodup : ∀ p, (q.priorityTable p).Nodup

section Holds

variable {cfg : Config} {linked linked' : Tid → Nat → Prop} {q : ReadyQueue} {thread : Thread}
  {t : Tid}

theorem Holds.congr (hholds : q.Holds cfg linked) (hiff : ∀ u p, linked u p ↔ linked' u p) :
    q.Holds cfg linked' :=
  ⟨hholds.exact, fun u p => (hholds.mem_iff u p).trans (hiff u p), hholds.nodup⟩

theorem Holds.enqueue (hholds : q.Holds cfg linked) (hmasks : thread.MasksOk cfg)
    (hlt : thread.currentPriority < cfg.priorityMax) (hfree : ∀ p, ¬ linked t p) :
    (q.enqueue cfg thread t).Holds cfg
      (fun u p => linked u p ∨ u = t ∧ p = thread.currentPriority) := by
  have hout : t ∉ q.priorityTable thread.currentPriority := by simp [hholds.mem_iff, hfree]
  refine ⟨enqueue_bitmapExact t hholds.exact hmasks hlt, fun u p => ?_, fun p => ?_⟩
  · by_cases hp : p = thread.currentPriority <;>
      simp [ReadyQueue.enqueue, hp, hholds.mem_iff]
  · have hp := hholds.nodup p
    by_cases hcurrent : p = thread.currentPriority
    · subst hcurrent
      simpa [ReadyQueue.enqueue] using List.Nodup.concat hout hp
    · simpa [ReadyQueue.enqueue, hcurrent] using hp

theorem remove_priorityTable (cfg : Config) (thread : Thread) (t : Tid) (q : ReadyQueue) :
    (q.remove cfg thread t).priorityTable = fun p => (q.priorityTable p).filter (· ≠ t) := by
  unfold remove clearBits
  grind

theorem Holds.remove (hholds : q.Holds cfg linked) (hmasks : thread.MasksOk cfg)
    (hlt : thread.currentPriority < cfg.priorityMax)
    (hat : ∀ p, linked t p → p = thread.currentPriority) :
    (q.remove cfg thread t).Holds cfg (fun u p => linked u p ∧ u ≠ t) := by
  have htable := remove_priorityTable cfg thread t q
  have hother : ∀ p, p ≠ thread.currentPriority →
      (q.priorityTable p).filter (· ≠ t) = q.priorityTable p := by
    intro p hp
    refine List.filter_eq_self.mpr fun u hu => ?_
    have hut : u ≠ t := by
      rintro rfl
      exact hp (hat p ((hholds.mem_iff u p).mp hu))
    simp [hut]
  refine ⟨?_, fun u p => ?_, fun p => htable ▸ (hholds.nodup p).filter _⟩
  · simp only [ReadyQueue.remove]
    split
    next hempty =>
      exact clearBits_bitmapExact hholds.exact rfl rfl hother hempty hmasks hlt
        fun _ => testAgrees_own _ _
    next hfull =>
      refine ⟨fun p => (hholds.exact.marks_iff p).trans ?_, hholds.exact.group_iff⟩
      by_cases hp : p = thread.currentPriority
      · subst hp
        exact iff_of_true (fun hnil => hfull (by simp [hnil])) hfull
      · exact not_congr (by dsimp only; rw [hother p hp])
  · simp [htable, hholds.mem_iff]

end Holds

end ReadyQueue

structure Uniprocessor where
  thread : Tid → Thread
  queue : ReadyQueue
  rtCurrentThread : Option Tid
  rtSchedulerLockNest : Int

namespace Uniprocessor

inductive Op
  | startup (t : Tid)
  | schedulerStart
  | schedule
  | suspend (t : Tid)
  | resume (t : Tid)
  | timeout (t : Tid)
  | changePriority (t : Tid) (priority : Nat)
  | exit
  | enterCritical
  | exitCritical

section Calls

variable (cfg : Config) (t : Tid) (k : Uniprocessor)

def rtScheduleInsertThread : Uniprocessor :=
  let k := { k with thread := update k.thread t { k.thread t with stat := .ready } }
  if k.rtCurrentThread = some t then k
  else { k with queue := k.queue.enqueue cfg (k.thread t) t }

def rtScheduleRemoveThread : Uniprocessor :=
  { k with queue := k.queue.remove cfg (k.thread t) t }

/-- With `rt_current_thread` NULL there is no outcome once it is read. -/
def rtSchedule : Option Uniprocessor :=
  if k.rtSchedulerLockNest ≠ 0 ∨ k.queue.priorityGroup = 0 then some k
  else
    k.rtCurrentThread.bind fun current =>
      let highest := k.queue.highestReadyPriority cfg
      let ready := decide ((k.thread current).stat = .ready)
      let needInsert := ready && !decide ((k.thread current).currentPriority < highest)
      (if ready && !needInsert then some current else k.queue.first cfg highest).map fun toThread =>
        if toThread ≠ current then
          let k := { k with rtCurrentThread := some toThread }
          let k := if needInsert then k.rtScheduleInsertThread cfg current else k
          k.rtScheduleRemoveThread cfg toThread
        else k.rtScheduleRemoveThread cfg current

def rtSystemSchedulerStart : Option Uniprocessor :=
  (k.queue.first cfg (k.queue.highestReadyPriority cfg)).map fun toThread =>
    { k with rtCurrentThread := some toThread }.rtScheduleRemoveThread cfg toThread

/-- A READY thread is removed from its list, and one that becomes READY is inserted. -/
def replace (thread : Thread) : Uniprocessor :=
  let k := if (k.thread t).stat = .ready then k.rtScheduleRemoveThread cfg t else k
  let k := { k with thread := update k.thread t thread }
  if thread.stat = .ready then k.rtScheduleInsertThread cfg t else k

def rtThreadSuspend : Option Uniprocessor :=
  if (k.thread t).stat ≠ .ready then some k
  else if k.rtCurrentThread ≠ some t then none
  else some (k.replace cfg t (k.thread t).suspend)

def rtThreadResume : Uniprocessor :=
  if (k.thread t).stat ≠ .suspend then k else k.replace cfg t (k.thread t).resume

def rtThreadTimeout : Option Uniprocessor :=
  if (k.thread t).stat ≠ .suspend then none
  else (k.replace cfg t (k.thread t).expire).rtSchedule cfg

def rtThreadStartup : Option Uniprocessor :=
  if (k.thread t).stat ≠ .init then none
  else
    let k := k.replace cfg t
      { (k.thread t).setPriority cfg (k.thread t).initPriority with stat := .suspend }
    let k := k.rtThreadResume cfg t
    if k.rtCurrentThread = none then some k else k.rtSchedule cfg

/-- The caller is in `rt_schedule` next. -/
def rtThreadExit : Option Uniprocessor :=
  k.rtCurrentThread.map fun t =>
    { k.rtScheduleRemoveThread cfg t with
      thread := update k.thread t { k.thread t with stat := .close, timerActive := false } }

def rtExitCritical : Option Uniprocessor :=
  let k := { k with rtSchedulerLockNest := Cpu.Up.rtExitCritical k.rtSchedulerLockNest }
  if k.rtSchedulerLockNest = 0 then k.rtSchedule cfg else some k

def exec : Op → Option Uniprocessor
  | .startup t => k.rtThreadStartup cfg t
  | .schedulerStart =>
    if k.rtCurrentThread = none ∧ k.queue.priorityGroup ≠ 0 then k.rtSystemSchedulerStart cfg
    else none
  | .schedule => k.rtSchedule cfg
  | .suspend t => k.rtThreadSuspend cfg t
  | .resume t => some (k.rtThreadResume cfg t)
  | .timeout t => k.rtThreadTimeout cfg t
  | .changePriority t priority =>
    if priority < cfg.priorityMax then
      some (k.replace cfg t ((k.thread t).setPriority cfg priority))
    else none
  | .exit => k.rtThreadExit cfg
  | .enterCritical =>
    some { k with rtSchedulerLockNest := Cpu.Up.rtEnterCritical k.rtSchedulerLockNest }
  | .exitCritical => k.rtExitCritical cfg

end Calls

def machine (cfg : Config) : Machine Uniprocessor Op where
  init := fun k => k.queue = .empty ∧ k.rtCurrentThread = none ∧ k.rtSchedulerLockNest = 0 ∧
    ∀ t, ∃ priority < cfg.priorityMax, k.thread t = Thread.init cfg priority
  exec := exec cfg

def Linked (thread : Tid → Thread) (current : Option Tid) (t : Tid) (p : Nat) : Prop :=
  (thread t).stat = .ready ∧ current ≠ some t ∧ (thread t).currentPriority = p

structure ThreadOk (cfg : Config) (thread : Thread) : Prop where
  masks : thread.stat ≠ .init → thread.MasksOk cfg
  current_lt : thread.currentPriority < cfg.priorityMax
  init_lt : thread.initPriority < cfg.priorityMax

theorem ThreadOk.congr {cfg : Config} {thread thread' : Thread} (hok : ThreadOk cfg thread)
    (hstat : thread.stat ≠ .init)
    (hsame : thread' = { thread with
      stat := thread'.stat, error := thread'.error, timerActive := thread'.timerActive }) :
    ThreadOk cfg thread' := by
  obtain ⟨hflat, hnumber, hnumberMask, hhighMask⟩ := hok.masks hstat
  rw [hsame]
  exact ⟨fun _ => ⟨hflat, hnumber, hnumberMask, hhighMask⟩, hok.current_lt, hok.init_lt⟩

structure Inv (cfg : Config) (k : Uniprocessor) : Prop where
  holds : k.queue.Holds cfg (Linked k.thread k.rtCurrentThread)
  threads : ∀ t, ThreadOk cfg (k.thread t)
  started : ∀ t, k.rtCurrentThread = some t → (k.thread t).stat ≠ .init

/-- What `rt_schedule` does for the current thread `t`: `u` is the current one after it. -/
structure Decides (t u : Tid) (k k' : Uniprocessor) : Prop where
  current : k'.rtCurrentThread = some u
  thread : k'.thread = k.thread
  stays_iff : u = t ↔ ∀ v ≠ t, (k.thread v).stat = .ready →
    (k.thread t).stat = .ready ∧ (k.thread t).currentPriority < (k.thread v).currentPriority
  best : u ≠ t → (k.thread u).stat = .ready ∧
    (k.queue.priorityTable (k.thread u).currentPriority).head? = some u ∧
    ∀ v, (k.thread v).stat = .ready →
      (k.thread u).currentPriority ≤ (k.thread v).currentPriority
  back : u ≠ t → (k.thread t).stat = .ready →
    (k'.queue.priorityTable (k.thread t).currentPriority).getLast? = some t

section Laws

variable {cfg : Config} {k k' : Uniprocessor} {t : Tid}

section

variable (hinv : k.Inv cfg)
include hinv

theorem Inv.replace {thread : Thread} (hok : ThreadOk cfg thread)
    (hstarted : k.rtCurrentThread = some t → thread.stat ≠ .init) :
    (k.replace cfg t thread).Inv cfg := by
  obtain ⟨q, hq, hreplace⟩ : ∃ q : ReadyQueue,
      q.Holds cfg (fun u p => Linked k.thread k.rtCurrentThread u p ∧ u ≠ t) ∧
      k.replace cfg t thread =
        { k with
          thread := update k.thread t thread
          queue :=
            if thread.stat = .ready ∧ k.rtCurrentThread ≠ some t then q.enqueue cfg thread t
            else q } := by
    have hsame (hready : thread.stat = .ready) : { thread with stat := .ready } = thread := by
      rw [← hready]
    unfold Uniprocessor.replace rtScheduleInsertThread rtScheduleRemoveThread
    by_cases hready : (k.thread t).stat = .ready
    · refine ⟨_, hinv.holds.remove ((hinv.threads t).masks (by simp [hready]))
        (hinv.threads t).current_lt fun p hp => hp.2.2.symm, ?_⟩
      grind [update_idem]
    · refine ⟨_, hinv.holds.congr fun u p => ⟨fun hu => ⟨hu, ?_⟩, And.left⟩, ?_⟩
      · rintro rfl
        exact hready hu.1
      · grind [update_idem]
  rw [hreplace]
  refine ⟨?_, fun u => ?_, fun u hu => ?_⟩
  · split
    next hlinked =>
      refine (hq.enqueue (hok.masks (by simp [hlinked.1])) hok.current_lt
        fun p hp => hp.2 rfl).congr fun u p => ?_
      by_cases hut : u = t <;> simp [Linked, hut, hlinked, eq_comm]
    next hlinked =>
      refine hq.congr fun u p => ?_
      by_cases hut : u = t <;> simp [Linked, hut]
      tauto
  · by_cases hut : u = t
    · simpa [hut] using hok
    · simpa [hut] using hinv.threads u
  · by_cases hut : u = t
    · simpa [hut] using hstarted (hut ▸ hu)
    · simpa [hut] using hinv.started u hu

theorem Inv.best (hgroup : k.queue.priorityGroup ≠ 0) :
    ∃ u p, k.queue.highestReadyPriority cfg = p ∧ k.queue.first cfg p = some u ∧
      (k.queue.priorityTable p).head? = some u ∧ Linked k.thread k.rtCurrentThread u p ∧
      ∀ v q, Linked k.thread k.rtCurrentThread v q → p ≤ q := by
  obtain ⟨hfull, hbetter⟩ := highestReadyPriority_spec hinv.holds.exact hgroup
  obtain ⟨u, rest, hlist⟩ := List.exists_cons_of_ne_nil hfull
  have hu := (hinv.holds.mem_iff u _).mp (hlist ▸ List.mem_cons_self)
  have hlt := hu.2.2 ▸ (hinv.threads u).current_lt
  refine ⟨u, _, rfl, by simp [first, hlt, hlist], by rw [hlist]; rfl, hu, fun v q hv => ?_⟩
  by_contra hq
  have hmem := (hinv.holds.mem_iff v q).mpr hv
  simp [hbetter q (Nat.lt_of_not_le hq)] at hmem

theorem Inv.switch {q : ReadyQueue} {u : Tid}
    (hholds : q.Holds cfg (Linked k.thread none)) (hready : (k.thread u).stat = .ready) :
    ({ k with queue := q.remove cfg (k.thread u) u, rtCurrentThread := some u }).Inv cfg := by
  have hstarted : (k.thread u).stat ≠ .init := by simp [hready]
  refine ⟨(hholds.remove ((hinv.threads u).masks hstarted) (hinv.threads u).current_lt
    fun p hp => hp.2.2.symm).congr fun v p => ?_, hinv.threads,
    fun v hv => (Option.some.inj hv) ▸ hstarted⟩
  simp only [Linked, ne_eq, reduceCtorEq, not_false_eq_true, true_and, Option.some.injEq]
  tauto

theorem Inv.rtSchedule_cases (hcurrent : k.rtCurrentThread = some t) :
    (k.rtSchedulerLockNest ≠ 0 ∨ ∀ v p, ¬ Linked k.thread (some t) v p) ∧
      k.rtSchedule cfg = some k ∨
    k.rtSchedulerLockNest = 0 ∧ ∃ p u, (k.queue.priorityTable p).head? = some u ∧
      Linked k.thread (some t) u p ∧ (∀ v q, Linked k.thread (some t) v q → p ≤ q) ∧
      ((k.thread t).stat = .ready ∧ (k.thread t).currentPriority < p ∧
          k.rtSchedule cfg = some (k.rtScheduleRemoveThread cfg t) ∨
        ((k.thread t).stat = .ready → p ≤ (k.thread t).currentPriority) ∧
          k.rtSchedule cfg = some
            { k with
              queue := (if (k.thread t).stat = .ready then
                  k.queue.enqueue cfg (k.thread t) t else k.queue).remove cfg (k.thread u) u
              rtCurrentThread := some u }) := by
  have hbest := hinv.best
  have hmem := hinv.holds.mem_iff
  rw [hcurrent] at hbest hmem
  by_cases hidle : k.rtSchedulerLockNest ≠ 0 ∨ k.queue.priorityGroup = 0
  · refine .inl ⟨hidle.imp_right fun hzero v p hv => ?_, ?_⟩
    · exact hinv.holds.exact.group_ne_zero (List.ne_nil_of_mem ((hmem v p).mpr hv)) hzero
    · rw [rtSchedule, if_pos hidle]
  · have hnot := hidle
    simp only [not_or, not_not] at hnot
    obtain ⟨u, p, hhighest, hfirst, hhead, hu, hleast⟩ := hbest hnot.2
    have hut : u ≠ t := fun hsame => hu.2.1 (hsame ▸ rfl)
    refine .inr ⟨hnot.1, p, u, hhead, hu, hleast, ?_⟩
    simp only [rtSchedule, hcurrent, Option.bind_some, if_neg hidle, hhighest, hfirst]
    by_cases hready : (k.thread t).stat = .ready
    · have hsame : { k.thread t with stat := .ready } = k.thread t := by rw [← hready]
      by_cases hlt : (k.thread t).currentPriority < p
      · simp [hready, hlt]
      · simp [hready, hlt, hut, Nat.le_of_not_lt hlt, rtScheduleInsertThread,
          rtScheduleRemoveThread, hsame, update_eq_self]
    · simp [hready, hut, rtScheduleRemoveThread]

theorem Inv.rtSchedule (h : k.rtSchedule cfg = some k') : k'.Inv cfg := by
  cases hcurrent : k.rtCurrentThread with
  | none =>
    unfold Uniprocessor.rtSchedule at h
    rw [hcurrent] at h
    split at h
    · exact Option.some.inj h ▸ hinv
    · cases h
  | some t =>
    have hmasks := (hinv.threads t).masks (hinv.started t hcurrent)
    have hlt := (hinv.threads t).current_lt
    have hholds := hcurrent ▸ hinv.holds
    have hfree (p : Nat) : ¬ Linked k.thread (some t) t p := fun ht => ht.2.1 rfl
    obtain ⟨_, hk'⟩ | ⟨_, p, u, _, hu, _, ⟨_, _, hk'⟩ | ⟨_, hk'⟩⟩ :=
      hinv.rtSchedule_cases hcurrent <;> obtain rfl := Option.some.inj (hk'.symm.trans h)
    · exact hinv
    · refine ⟨?_, hinv.threads, hinv.started⟩
      rw [show (k.rtScheduleRemoveThread cfg t).rtCurrentThread = some t from hcurrent]
      refine (hholds.remove hmasks hlt fun p hp => absurd hp (hfree p)).congr fun v p =>
        ⟨And.left, fun hv => ⟨hv, ?_⟩⟩
      rintro rfl
      exact hfree p hv
    · refine hinv.switch ?_ hu.1
      split
      next hready =>
        refine (hholds.enqueue hmasks hlt hfree).congr fun v p => ?_
        grind [Linked]
      next hready =>
        refine hholds.congr fun v p => ?_
        grind [Linked]

theorem Inv.rtThreadResume (t : Tid) : (k.rtThreadResume cfg t).Inv cfg := by
  unfold Uniprocessor.rtThreadResume
  split
  next => exact hinv
  next hstat =>
    rw [not_not] at hstat
    refine hinv.replace ((hinv.threads t).congr (by simp [hstat]) ?_) fun _ => ?_
    · simp [Thread.resume, hstat]
    · simp [Thread.resume, hstat]

theorem Inv.exec {op : Op} (hexec : k.exec cfg op = some k') : k'.Inv cfg := by
  cases op with
  | startup t =>
    simp only [Uniprocessor.exec, rtThreadStartup] at hexec
    split at hexec
    · cases hexec
    next hstat =>
      obtain ⟨hflat, hnumber, hnumberMask, hhighMask⟩ :=
        Thread.setPriority_masksOk cfg (k.thread t).initPriority (k.thread t)
      have hok : ThreadOk cfg
          { (k.thread t).setPriority cfg (k.thread t).initPriority with stat := .suspend } :=
        ⟨fun _ => ⟨hflat, hnumber, hnumberMask, hhighMask⟩,
          by simpa using (hinv.threads t).init_lt, by simpa using (hinv.threads t).init_lt⟩
      have hreplaced := (hinv.replace (t := t) hok (by simp)).rtThreadResume t
      split at hexec
      · exact Option.some.inj hexec ▸ hreplaced
      · exact hreplaced.rtSchedule hexec
  | schedulerStart =>
    simp only [Uniprocessor.exec] at hexec
    split at hexec
    next hstart =>
      obtain ⟨u, p, hhighest, hfirst, _, hu, _⟩ := hinv.best hstart.2
      simp only [rtSystemSchedulerStart, hhighest, hfirst, Option.map_some,
        Option.some.injEq] at hexec
      exact hexec ▸ hinv.switch (hstart.1 ▸ hinv.holds) hu.1
    · cases hexec
  | schedule => exact hinv.rtSchedule hexec
  | suspend t =>
    simp only [Uniprocessor.exec, rtThreadSuspend] at hexec
    split at hexec
    · exact Option.some.inj hexec ▸ hinv
    next hready =>
      rw [not_not] at hready
      split at hexec
      · cases hexec
      · refine Option.some.inj hexec ▸ hinv.replace
          ((hinv.threads t).congr (by simp [hready]) ?_) fun _ => ?_
        · simp [Thread.suspend, hready]
        · simp [Thread.suspend, hready]
  | resume t => exact Option.some.inj hexec ▸ hinv.rtThreadResume t
  | timeout t =>
    simp only [Uniprocessor.exec, rtThreadTimeout] at hexec
    split at hexec
    · cases hexec
    next hstat =>
      rw [not_not] at hstat
      exact (hinv.replace ((hinv.threads t).congr (by simp [hstat]) rfl)
        (by simp [Thread.expire])).rtSchedule hexec
  | changePriority t priority =>
    simp only [Uniprocessor.exec] at hexec
    split at hexec
    next hlt =>
      refine Option.some.inj hexec ▸ hinv.replace
        ⟨fun _ => Thread.setPriority_masksOk .., by simpa using hlt,
          by simpa using (hinv.threads t).init_lt⟩ fun hcurrent => ?_
      simpa using hinv.started t hcurrent
    · cases hexec
  | exit =>
    obtain ⟨t, hcurrent, rfl⟩ := Option.map_eq_some_iff.mp hexec
    have hstarted := hinv.started t hcurrent
    have hholds := hcurrent ▸ hinv.holds
    refine ⟨(hholds.remove ((hinv.threads t).masks hstarted) (hinv.threads t).current_lt
      fun p hp => absurd rfl hp.2.1).congr fun u p => ?_, fun u => ?_, fun u hu => ?_⟩
    · by_cases hut : u = t <;> simp [Linked, hut, hcurrent, rtScheduleRemoveThread]
    · by_cases hut : u = t
      · simpa [hut] using (hinv.threads t).congr hstarted rfl
      · simpa [hut] using hinv.threads u
    · obtain rfl := Option.some.inj (hcurrent.symm.trans hu)
      simp
  | enterCritical => exact Option.some.inj hexec ▸ ⟨hinv.holds, hinv.threads, hinv.started⟩
  | exitCritical =>
    simp only [Uniprocessor.exec, rtExitCritical] at hexec
    have hinv' : ({ k with rtSchedulerLockNest :=
      Cpu.Up.rtExitCritical k.rtSchedulerLockNest }).Inv cfg :=
        ⟨hinv.holds, hinv.threads, hinv.started⟩
    split at hexec
    · exact hinv'.rtSchedule hexec
    · exact Option.some.inj hexec ▸ hinv'

end

theorem Inv.reachable (hreach : (machine cfg).Reachable (fun _ _ => True) k) : k.Inv cfg := by
  refine hreach.invariant (Inv cfg) (fun s hinit => ?_) fun _ _ _ hinv _ hexec => hinv.exec hexec
  obtain ⟨hqueue, hcurrent, -, hthreads⟩ := hinit
  refine ⟨?_, fun t => ?_, by simp [hcurrent]⟩
  · refine hqueue ▸ ⟨empty_bitmapExact cfg, fun t p => ?_, fun _ => List.nodup_nil⟩
    obtain ⟨priority, _, hthread⟩ := hthreads t
    simp [Linked, hthread, empty, Thread.init]
  · obtain ⟨priority, hlt, hthread⟩ := hthreads t
    exact hthread ▸ ⟨fun hstat => absurd rfl hstat, hlt, hlt⟩

theorem reachable_readyLists (hreach : (machine cfg).Reachable (fun _ _ => True) k) :
    k.queue.Holds cfg (Linked k.thread k.rtCurrentThread) :=
  (Inv.reachable hreach).holds

theorem reachable_decides (hreach : (machine cfg).Reachable (fun _ _ => True) k)
    (hcurrent : k.rtCurrentThread = some t) (hlock : k.rtSchedulerLockNest = 0) :
    ∃ k' u, k.rtSchedule cfg = some k' ∧ Decides t u k k' := by
  have hlinked {v : Tid} (hne : v ≠ t) (hready : (k.thread v).stat = .ready) :
      Linked k.thread (some t) v (k.thread v).currentPriority :=
    ⟨hready, by simpa using hne.symm, rfl⟩
  obtain ⟨hidle, hk'⟩ | ⟨_, p, u, hhead, ⟨hu, hut, rfl⟩, hleast, hcase⟩ :=
    (Inv.reachable hreach).rtSchedule_cases hcurrent
  · exact ⟨k, t, hk', hcurrent, rfl, iff_of_true rfl fun v hne hready =>
      absurd (hlinked hne hready) (hidle.resolve_left (by simp [hlock]) v _), absurd rfl, absurd rfl⟩
  have hne : u ≠ t := by simpa [eq_comm] using hut
  obtain ⟨hready, hlt, hk'⟩ | ⟨hle, hk'⟩ := hcase
  · exact ⟨_, t, hk', hcurrent, rfl, iff_of_true rfl fun v hvt hv =>
      ⟨hready, Nat.lt_of_lt_of_le hlt (hleast v _ (hlinked hvt hv))⟩, absurd rfl, absurd rfl⟩
  · refine ⟨_, u, hk', rfl, rfl, iff_of_false hne fun hall => ?_, fun _ => ⟨hu, hhead,
      fun v hv => ?_⟩, fun _ hready => ?_⟩
    · obtain ⟨hready, hlt⟩ := hall u hne hu
      exact absurd (hle hready) (Nat.not_le_of_lt hlt)
    · by_cases hvt : v = t
      · exact hvt ▸ hle (hvt ▸ hv)
      · exact hleast v _ (hlinked hvt hv)
    · simp [remove_priorityTable, hready, ReadyQueue.enqueue, List.filter_append, hne.symm]

/-- `rt_thread_yield` by whoever runs, again and again. -/
def yields (cfg : Config) (k : Uniprocessor) : Nat → Option Uniprocessor
  | 0 => some k
  | count + 1 => (k.yields cfg count).bind (rtSchedule cfg)

/-- The running thread is READY and no list is better. -/
abbrev MayYield (k : Uniprocessor) (t : Tid) : Prop :=
  k.rtCurrentThread = some t ∧ k.rtSchedulerLockNest = 0 ∧ (k.thread t).stat = .ready ∧
    ∀ p < (k.thread t).currentPriority, k.queue.priorityTable p = []

theorem Inv.yield (hinv : k.Inv cfg) (hyield : k.MayYield t) :
    ∃ k' u, k.rtSchedule cfg = some k' ∧ k'.MayYield u ∧
      (k'.thread u).currentPriority = (k.thread t).currentPriority ∧
      u :: k'.queue.priorityTable (k.thread t).currentPriority =
        k.queue.priorityTable (k.thread t).currentPriority ++ [t] := by
  have ⟨hcurrent, hlock, hready, hbest⟩ := hyield
  have hmem := hinv.holds.mem_iff
  rw [hcurrent] at hmem
  have hnil {p : Nat} (hnone : ∀ v, ¬ Linked k.thread (some t) v p) :
      k.queue.priorityTable p = [] :=
    List.eq_nil_iff_forall_not_mem.mpr fun v hv => hnone v ((hmem v p).mp hv)
  obtain ⟨hidle, hk'⟩ | ⟨-, p, u, hhead, hu, hleast, ⟨-, hlt, hk'⟩ | ⟨hle, hk'⟩⟩ :=
    hinv.rtSchedule_cases hcurrent
  · refine ⟨k, t, hk', hyield, rfl, ?_⟩
    rw [hnil fun v => hidle.resolve_left (by simp [hlock]) v _]
    rfl
  · have hempty := hnil fun v hv => Nat.not_lt_of_le (hleast v _ hv) hlt
    refine ⟨_, t, hk', ⟨hcurrent, hlock, hready, fun q hq => ?_⟩, rfl, ?_⟩
    · simp [rtScheduleRemoveThread, remove_priorityTable, hbest q hq]
    · simp [rtScheduleRemoveThread, remove_priorityTable, hempty]
  · obtain ⟨rest, hlist⟩ := List.head?_eq_some_iff.mp hhead
    obtain rfl : p = (k.thread t).currentPriority := by
      refine Nat.le_antisymm (hle hready) (Nat.le_of_not_lt fun hlt => ?_)
      simp [hbest p hlt] at hlist
    have hnodup := hinv.holds.nodup (k.thread t).currentPriority
    rw [hlist, List.nodup_cons] at hnodup
    have hut : t ≠ u := by simpa using hu.2.1
    refine ⟨_, u, hk', ⟨rfl, hlock, hu.1, fun q hq => ?_⟩, hu.2.2, ?_⟩
    · have hq' : q < (k.thread t).currentPriority := hu.2.2 ▸ hq
      simp [hready, remove_priorityTable, ReadyQueue.enqueue, hq'.ne, hbest q hq']
    · simpa [hready, remove_priorityTable, ReadyQueue.enqueue, hlist, hut] using
        fun v hv => ne_of_mem_of_not_mem hv hnodup.1

theorem reachable_roundRobin (hreach : (machine cfg).Reachable (fun _ _ => True) k)
    (hyield : k.MayYield t) (count : Nat) :
    ∃ k' u, k.yields cfg count = some k' ∧ k'.Inv cfg ∧ k'.MayYield u ∧
      (k'.thread u).currentPriority = (k.thread t).currentPriority ∧
      u :: k'.queue.priorityTable (k.thread t).currentPriority =
        (t :: k.queue.priorityTable (k.thread t).currentPriority).rotate count := by
  induction count with
  | zero => exact ⟨k, t, rfl, Inv.reachable hreach, hyield, rfl, (List.rotate_zero _).symm⟩
  | succ count ih =>
    obtain ⟨k', u, hk', hinv, hu, hpriority, hlist⟩ := ih
    obtain ⟨k'', v, hk'', hv, hsame, hnext⟩ := hinv.yield hu
    rw [hpriority] at hsame hnext
    refine ⟨k'', v, ?_, hinv.rtSchedule hk'', hv, hsame, ?_⟩
    · rw [yields, hk', Option.bind_some, hk'']
    · rw [hnext, ← List.rotate_rotate, ← hlist]
      simp

end Laws

def newThreads : Uniprocessor where
  thread t := Thread.init (.flat 1) (if t = 0 then 10 else 20)
  queue := .empty
  rtCurrentThread := none
  rtSchedulerLockNest := 0

def lowered : List Op := [.startup 0, .startup 1, .startup 2, .schedulerStart, .changePriority 0 20]

theorem lowered_reachable : ∃ k, (machine (.flat 1)).Reachable (fun _ _ => True) k ∧
    (k.queue.priorityTable (k.thread 0).currentPriority, decide (k.MayYield 0)) =
      ([1, 2], true) := by
  have hinit : (machine (.flat 1)).init newThreads := by
    refine ⟨rfl, rfl, rfl, fun t => ⟨if t = 0 then 10 else 20, ?_, rfl⟩⟩
    split <;> decide
  have hrun : ((machine (.flat 1)).run (fun _ _ => True) newThreads lowered).map (fun k =>
      (k.queue.priorityTable (k.thread 0).currentPriority, decide (k.MayYield 0))) =
        some ([1, 2], true) := by
    decide +kernel
  exact Machine.exists_reachable_of_run hinit hrun

theorem reachable_readyLists_lowered : ∃ k, (machine (.flat 1)).Reachable (fun _ _ => True) k ∧
    k.queue.priorityTable (k.thread 0).currentPriority = [1, 2] ∧
      k.queue.Holds (.flat 1) (Linked k.thread k.rtCurrentThread) := by
  obtain ⟨k, hreach, hvalue⟩ := lowered_reachable
  exact ⟨k, hreach, (Prod.mk.inj hvalue).1, reachable_readyLists hreach⟩

theorem reachable_decides_lowered : ∃ k, (machine (.flat 1)).Reachable (fun _ _ => True) k ∧
    ∃ k' u, k.rtSchedule (.flat 1) = some k' ∧ Decides 0 u k k' := by
  obtain ⟨k, hreach, hvalue⟩ := lowered_reachable
  obtain ⟨hcurrent, hlock, -⟩ := of_decide_eq_true (Prod.mk.inj hvalue).2
  exact ⟨k, hreach, reachable_decides hreach hcurrent hlock⟩

theorem reachable_roundRobin_lowered : ∃ k, (machine (.flat 1)).Reachable (fun _ _ => True) k ∧
    k.rtCurrentThread = some 0 ∧
      ∃ k', k.yields (.flat 1) 4 = some k' ∧ k'.rtCurrentThread = some 1 := by
  obtain ⟨k, hreach, hvalue⟩ := lowered_reachable
  obtain ⟨hlist, hyield⟩ := Prod.mk.inj hvalue
  have hyield := of_decide_eq_true hyield
  obtain ⟨k', u, hk', -, hu, -, hturn⟩ := reachable_roundRobin hreach hyield 4
  rw [hlist] at hturn
  obtain rfl : u = 1 := (List.cons.inj hturn).1
  exact ⟨k, hreach, hyield.1, k', hk', hu.1⟩

end Uniprocessor

end RtThread.Scheduler
