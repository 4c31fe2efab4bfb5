import RtThread.Ipc.MutexSteps

namespace RtThread.Ipc

open Function RtThread.Lib MutexSystem

/-- What a mutex satisfies whatever happens to its `hold` counter. -/
structure MutexOk (mutex : Mutex) : Prop where
  value : mutex.value = if mutex.owner = none then 1 else 0
  waiters : mutex.owner = none → mutex.suspendThread = []
  notOwner : ∀ owner, mutex.owner = some owner → owner ∉ mutex.suspendThread
  nodup : mutex.suspendThread.Nodup

/-- A thread is outside of `rt_mutex_take`, or waits in it, or has been resumed
and is about to return. -/
inductive CallOk (s : MutexSystem) (t : Tid) : Prop
  | outside : s.call t = none → (s.thread t).stat = .ready →
      (∀ m, t ∉ (s.mutex m).suspendThread) → CallOk s t
  | waiting : s.call t = some m → (s.thread t).stat = .suspend →
      (s.thread t).error = rtEok → t ∈ (s.mutex m).suspendThread →
      (∀ m', m' ≠ m → t ∉ (s.mutex m').suspendThread) → CallOk s t
  | resumed : s.call t = some m → (s.thread t).stat = .ready →
      ((s.thread t).error = rtEok → (s.mutex m).owner = some t) →
      (∀ m', t ∉ (s.mutex m').suspendThread) → CallOk s t

structure Inv (s : MutexSystem) : Prop where
  mutexes : ∀ m, MutexOk (s.mutex m)
  calls : ∀ t, CallOk s t
  returned : ∀ t m, s.returned = some (.take t m rtEok) → (s.mutex m).owner = some t

section Frame

variable {s s' : MutexSystem} {t : Tid} {m : Nat}

theorem CallOk.of_same (hok : CallOk s t) (hcall : s'.call t = s.call t)
    (hstat : (s'.thread t).stat = (s.thread t).stat)
    (herror : (s'.thread t).error = (s.thread t).error)
    (hmem : ∀ m, t ∈ (s'.mutex m).suspendThread ↔ t ∈ (s.mutex m).suspendThread)
    (howner : ∀ m, s.call t = some m → (s.mutex m).owner = some t →
      (s'.mutex m).owner = some t) : CallOk s' t := by
  cases hok with
  | outside hnone hready hfree =>
    refine .outside (hcall.trans hnone) (hstat.trans hready) (fun m => ?_)
    rw [hmem m]
    exact hfree m
  | @waiting m hsome hsuspend heok hin hother =>
    refine .waiting (hcall.trans hsome) (hstat.trans hsuspend) (herror.trans heok)
      ((hmem m).mpr hin) (fun m' hne => ?_)
    rw [hmem m']
    exact hother m' hne
  | @resumed m hsome hready howned hfree =>
    refine .resumed (hcall.trans hsome) (hstat.trans hready) (fun h => ?_)
      (fun m' => ?_)
    · exact howner m hsome (howned (by rw [← herror]; exact h))
    · rw [hmem m']
      exact hfree m'

theorem CallOk.free_of_canCall (hok : CallOk s t) (hcan : s.CanCall t) (m : Nat) :
    t ∉ (s.mutex m).suspendThread := by
  cases hok with
  | outside _ _ hfree => exact hfree m
  | waiting hsome => simp [hcan.2] at hsome
  | resumed hsome => simp [hcan.2] at hsome

theorem CallOk.waiting_of_mem (hok : CallOk s t) (hmem : t ∈ (s.mutex m).suspendThread) :
    s.call t = some m ∧ (s.thread t).stat = .suspend ∧ (s.thread t).error = rtEok ∧
      ∀ m', m' ≠ m → t ∉ (s.mutex m').suspendThread := by
  cases hok with
  | outside _ _ hfree => exact absurd hmem (hfree m)
  | @waiting m' hsome hsuspend heok _ hother =>
    by_cases hm : m = m'
    · subst hm
      exact ⟨hsome, hsuspend, heok, hother⟩
    · exact absurd hmem (hother m hm)
  | resumed _ _ _ hfree => exact absurd hmem (hfree m)

theorem CallOk.of_suspended (hok : CallOk s t) (hstat : (s.thread t).stat = .suspend) :
    ∃ m, s.call t = some m ∧ t ∈ (s.mutex m).suspendThread := by
  cases hok with
  | outside _ hready => simp [hready] at hstat
  | waiting hsome _ _ hin => exact ⟨_, hsome, hin⟩
  | resumed _ hready => simp [hready] at hstat

theorem MutexOk.of_same {mutex mutex' : Mutex} (hok : MutexOk mutex)
    (hvalue : mutex'.value = mutex.value) (howner : mutex'.owner = mutex.owner)
    (hlist : mutex'.suspendThread = mutex.suspendThread) : MutexOk mutex' := by
  refine ⟨?_, ?_, ?_, ?_⟩
  · rw [hvalue, howner]
    exact hok.value
  · rw [howner, hlist]
    exact hok.waiters
  · rw [howner, hlist]
    exact hok.notOwner
  · rw [hlist]
    exact hok.nodup

theorem forall_mutexOk_update {mutex : Nat → Mutex} {new : Mutex}
    (hall : ∀ m, MutexOk (mutex m)) (hnew : MutexOk new) (m' : Nat) :
    MutexOk (update mutex m new m') := by
  rw [update_apply]
  split
  · exact hnew
  · exact hall m'

end Frame

section Steps

variable {cfg : Config} {s s' : MutexSystem}

theorem Inv.setError (hinv : Inv s) {t : Tid} (hcan : s.CanCall t) (error : Int) :
    (∀ m, MutexOk (s.mutex m)) ∧
      ∀ u, CallOk (s.setThread t { s.thread t with error := error }) u := by
  refine ⟨hinv.mutexes, fun u => ?_⟩
  by_cases hu : u = t
  · subst hu
    exact .outside hcan.2 (by simpa using hcan.1) ((hinv.calls u).free_of_canCall hcan)
  · exact (hinv.calls u).of_same rfl (by simp [hu]) (by simp [hu]) (fun _ => Iff.rfl)
      (fun _ _ h => h)

theorem Inv.setHold (hinv : Inv s) {t : Tid} {m : Nat} (hcan : s.CanCall t)
    (thread : Thread) (hstat : thread.stat = .ready) (hold count : Nat) (returned : Returned)
    (hreturned : ∀ u m', returned = .take u m' rtEok → (s.mutex m').owner = some u) :
    Inv ((((s.setThread t thread).setMutex m
      { s.mutex m with hold := hold }).setTaken t m count).setReturned returned) where
  mutexes := forall_mutexOk_update hinv.mutexes
    ((hinv.mutexes m).of_same rfl rfl rfl)
  calls := by
    have hlist : ∀ m', ((update s.mutex m
        { s.mutex m with hold := hold }) m').suspendThread = (s.mutex m').suspendThread := by
      intro m'
      rw [update_apply]
      split
      next hm => rw [hm]
      · rfl
    have howner : ∀ m', ((update s.mutex m
        { s.mutex m with hold := hold }) m').owner = (s.mutex m').owner := by
      intro m'
      rw [update_apply]
      split
      next hm => rw [hm]
      · rfl
    intro u
    by_cases hu : u = t
    · subst hu
      refine .outside hcan.2 (by simpa using hstat) (fun m' => ?_)
      simp only [setReturned_mutex, setTaken_mutex, setMutex_mutex, setThread_mutex, hlist]
      exact (hinv.calls u).free_of_canCall hcan m'
    · refine (hinv.calls u).of_same rfl (by simp [hu]) (by simp [hu]) (fun m' => ?_)
        (fun m' _ h => ?_)
      · simp only [setReturned_mutex, setTaken_mutex, setMutex_mutex, setThread_mutex, hlist]
      · simpa only [setReturned_mutex, setTaken_mutex,
          setMutex_mutex, setThread_mutex, howner] using h
  returned := by
    intro u m' hret
    have hold := hreturned u m' (Option.some.inj hret)
    simp only [setReturned_mutex, setTaken_mutex, setMutex_mutex, setThread_mutex, update_apply]
    split
    next hm => rw [← hm]; exact hold
    · exact hold

theorem Inv.refused (hinv : Inv s) {t : Tid} (hcan : s.CanCall t) (error : Int)
    (returned : Returned) (hreturned : ∀ u m', returned ≠ .take u m' rtEok) :
    Inv ((s.setThread t { s.thread t with error := error }).setReturned returned) where
  mutexes := hinv.mutexes
  calls := fun u => by
    have hok := (hinv.setError hcan error).2 u
    exact hok.of_same rfl rfl rfl (fun _ => Iff.rfl) (fun _ _ h => h)
  returned := fun u m' hret => absurd (Option.some.inj hret) (hreturned u m')

theorem Inv.available (hinv : Inv s) {t : Tid} {m : Nat} (hcan : s.CanCall t)
    (hvalue : 0 < (s.mutex m).value) : Inv (takeAvailable t m (s.clearError t)) := by
  have hfreeMutex : (s.mutex m).owner = none := by
    have hok := (hinv.mutexes m).value
    by_contra hne
    rw [if_neg hne] at hok
    omega
  have hempty := (hinv.mutexes m).waiters hfreeMutex
  have hone : (s.mutex m).value = 1 := by
    rw [(hinv.mutexes m).value, if_pos hfreeMutex]
  have hlist : ∀ m', ((takeAvailable t m (s.clearError t)).mutex m').suspendThread =
      (s.mutex m').suspendThread := by
    intro m'
    simp only [takeAvailable, clearError, setReturned_mutex,
      setTaken_mutex, setMutex_mutex, setThread_mutex,
      update_apply]
    split
    next hm => rw [hm]
    · rfl
  refine ⟨forall_mutexOk_update hinv.mutexes ⟨?_, ?_, ?_, ?_⟩, fun u => ?_, ?_⟩
  · simp [clearError, hone, dec16]
  · simp
  · simp [clearError, hempty]
  · simp [clearError, hempty]
  · by_cases hu : u = t
    · subst hu
      refine .outside hcan.2 ?_ (fun m' => ?_)
      · simpa [takeAvailable, clearError] using hcan.1
      · rw [hlist]
        exact (hinv.calls u).free_of_canCall hcan m'
    · refine (hinv.calls u).of_same rfl ?_ ?_ (fun m' => by rw [hlist]) ?_
      · simp [takeAvailable, clearError, hu]
      · simp [takeAvailable, clearError, hu]
      · intro m' _ howner
        have hm : m' ≠ m := by
          rintro rfl
          rw [hfreeMutex] at howner
          cases howner
        simpa [takeAvailable, clearError, hm] using howner
  · intro u m' hret
    cases hret
    simp [takeAvailable]

theorem CallOk.sameBut {s s' : MutexSystem} {u : Tid} (hok : CallOk s u)
    (hsame : SameBut s s') : CallOk s' u := by
  refine hok.of_same (by rw [hsame.call]) (hsame.stat u) (hsame.error u) (fun m => ?_)
    (fun m _ h => ?_)
  · rw [hsame.mutex]
  · rw [hsame.mutex]
    exact h

theorem Inv.waits (hinv : Inv s) {t owner : Tid} {m : Nat} {time : Int}
    (hcan : s.CanCall t) (howner : (s.mutex m).owner = some owner) (hne : owner ≠ t) :
    Inv (suspendOn t m time (boostOwner cfg t owner (s.clearError t))) := by
  have hsame := boostOwner_sameBut cfg (s.clearError t) t owner
  have hclear := hinv.setError hcan rtEok
  have hfree := (hinv.calls t).free_of_canCall hcan
  have hmutex : (boostOwner cfg t owner (s.clearError t)).mutex = s.mutex := hsame.mutex
  have hstat : ((boostOwner cfg t owner (s.clearError t)).thread t).stat = .ready := by
    rw [hsame.stat t]
    simpa [clearError] using hcan.1
  have herror : ((boostOwner cfg t owner (s.clearError t)).thread t).error = rtEok := by
    rw [hsame.error t]
    simp [clearError]
  have hcalls : ∀ u, CallOk (boostOwner cfg t owner (s.clearError t)) u :=
    fun u => (hclear.2 u).sameBut hsame
  generalize boostOwner cfg t owner (s.clearError t) = boosted at *
  have hmem : ∀ u m', u ∈ ((suspendOn t m time boosted).mutex m').suspendThread ↔
      u ∈ (s.mutex m').suspendThread ∨ (u = t ∧ m' = m) := by
    intro u m'
    simp only [suspendOn, setMutex_mutex, setThread_mutex, hmutex, update_apply]
    split
    next hm =>
      rw [mem_listSuspend, hm]
      tauto
    next hm => simp [hm]
  have hownerSame : ∀ m', ((suspendOn t m time boosted).mutex m').owner = (s.mutex m').owner := by
    intro m'
    simp only [suspendOn, setMutex_mutex, setThread_mutex, hmutex, update_apply]
    split
    next hm => rw [hm]
    · rfl
  refine ⟨?_, fun u => ?_, fun u m' hret => by cases hret⟩
  · have hok := hinv.mutexes m
    have hnew : MutexOk { s.mutex m with
        suspendThread := listSuspend (s.mutex m).flag
          (boosted.setThread t
            { (boosted.thread t).suspend with
              timerActive :=
                if 0 < time then true else (boosted.thread t).suspend.timerActive }).priority
          t (s.mutex m).suspendThread } := by
      refine ⟨hok.value, ?_, ?_, listSuspend_nodup hok.nodup (hfree m)⟩
      · simp [howner]
      · intro o ho
        rw [mem_listSuspend]
        rintro (rfl | hin)
        · exact hne (Option.some.inj (howner.symm.trans ho))
        · exact hok.notOwner o ho hin
    intro m'
    simp only [suspendOn, setMutex_mutex, setThread_mutex, hmutex]
    exact forall_mutexOk_update hinv.mutexes hnew m'
  · by_cases hu : u = t
    · subst hu
      have hsuspend : (boosted.thread u).suspend.stat = .suspend :=
        Thread.suspend_stat _ hstat
      refine .waiting (m := m) ?_ ?_ ?_ ?_ (fun m' hm => ?_)
      · simp [suspendOn]
      · simpa [suspendOn] using hsuspend
      · simpa [suspendOn] using herror
      · rw [hmem]
        exact .inr ⟨rfl, rfl⟩
      · rw [hmem]
        rintro (hin | ⟨_, rfl⟩)
        · exact hfree m' hin
        · exact hm rfl
    · refine (hcalls u).of_same ?_ ?_ ?_ (fun m' => ?_) (fun m' _ h => ?_)
      · simp [suspendOn, hu]
      · simp [suspendOn, hu]
      · simp [suspendOn, hu]
      · rw [hmem, hmutex]
        simp [hu]
      · rw [hownerSame, ← hmutex]
        exact h

theorem Inv.takeEnd (hinv : Inv s) {t : Tid} {m : Nat} (hcall : s.call t = some m)
    (hready : (s.thread t).stat = .ready) : Inv (rtMutexTakeEnd t m s) := by
  obtain ⟨howned, hfree⟩ : ((s.thread t).error = rtEok → (s.mutex m).owner = some t) ∧
      ∀ m', t ∉ (s.mutex m').suspendThread := by
    cases hinv.calls t with
    | outside hnone => simp [hcall] at hnone
    | waiting _ hsuspend => simp [hready] at hsuspend
    | resumed hsome _ howned hfree =>
      rw [hcall, Option.some.injEq] at hsome
      subst hsome
      exact ⟨howned, hfree⟩
  refine ⟨hinv.mutexes, fun u => ?_, fun u m' hret => ?_⟩
  · by_cases hu : u = t
    · subst hu
      exact .outside (by simp [rtMutexTakeEnd]) hready hfree
    · exact (hinv.calls u).of_same (by simp [rtMutexTakeEnd, hu]) rfl rfl
        (fun _ => Iff.rfl) (fun _ _ h => h)
  · simp only [rtMutexTakeEnd, Option.some.injEq, Returned.take.injEq] at hret
    obtain ⟨rfl, rfl, herror⟩ := hret
    exact howned herror

theorem Inv.timeout (hinv : Inv s) {t : Tid} (hstat : (s.thread t).stat = .suspend) :
    Inv (rtThreadTimeout t s) := by
  obtain ⟨m, hcall, hin⟩ := (hinv.calls t).of_suspended hstat
  refine ⟨fun m' => ?_, fun u => ?_, fun u m' hret => by cases hret⟩
  · have hok := hinv.mutexes m'
    refine ⟨hok.value, fun h => ?_, fun owner ho hmem => ?_, listRemove_nodup hok.nodup⟩
    · simp only [rtThreadTimeout, setThread_mutex, unlink_mutex] at h ⊢
      rw [hok.waiters h]
      rfl
    · exact hok.notOwner owner ho (mem_listRemove.mp hmem).1
  · by_cases hu : u = t
    · subst hu
      refine .resumed hcall (by simp [rtThreadTimeout, Thread.expire]) (fun herror => ?_)
        (fun m' hmem => (mem_listRemove.mp hmem).2 rfl)
      simp only [rtThreadTimeout, setThread_thread, update_self, Thread.expire] at herror
      exact absurd herror (by decide)
    · refine (hinv.calls u).of_same rfl (by simp [rtThreadTimeout, hu])
        (by simp [rtThreadTimeout, hu]) (fun m' => ?_) (fun _ _ h => h)
      simp [rtThreadTimeout, hu]

theorem Inv.dropped (cfg : Config) (hinv : Inv s) {t : Tid} {m : Nat}
    (hcan : s.CanCall t) :
    (∀ m', MutexOk ((restorePriority cfg t m (dropHold t m s)).mutex m')) ∧
      (∀ u, CallOk (restorePriority cfg t m (dropHold t m s)) u) := by
  have hthread : s.setThread t (s.thread t) = s := by
    simp [setThread]
  have hdrop := hinv.setHold (m := m) hcan (s.thread t) hcan.1
    (dec8 (s.mutex m).hold) (s.taken t m - 1) (.release t m rtEok) (by simp)
  rw [hthread] at hdrop
  have hsame := restorePriority_sameBut cfg (dropHold t m s) t m
  refine ⟨?_, fun u => ?_⟩
  · rw [hsame.mutex]
    exact hdrop.mutexes
  · refine CallOk.sameBut ?_ hsame
    exact (hdrop.calls u).of_same rfl rfl rfl (fun _ => Iff.rfl) (fun _ _ h => h)

theorem Inv.freed {s : MutexSystem} {t : Tid} {m : Nat} {returned : Returned}
    (hmutexes : ∀ m, MutexOk (s.mutex m)) (hcalls : ∀ u, CallOk s u)
    (hcall : s.call t = none) (howner : (s.mutex m).owner = some t)
    (hempty : (s.mutex m).suspendThread = [])
    (hreturned : ∀ u m', returned ≠ .take u m' rtEok) :
    Inv ((free m s).setReturned returned) := by
  have hvalue : (s.mutex m).value = 0 := by
    rw [(hmutexes m).value, if_neg (by simp [howner])]
  have hlist : ∀ m', (((free m s).setReturned returned).mutex m').suspendThread =
      (s.mutex m').suspendThread := by
    intro m'
    simp only [free, setReturned_mutex, setMutex_mutex, update_apply]
    split
    next hm => rw [hm]
    · rfl
  refine ⟨forall_mutexOk_update hmutexes ⟨?_, ?_, ?_, ?_⟩, fun u => ?_,
    fun u m' hret => absurd (Option.some.inj hret) (hreturned u m')⟩
  · simp [hvalue, inc16]
  · exact fun _ => hempty
  · simp
  · exact (hmutexes m).nodup
  · refine (hcalls u).of_same rfl rfl rfl (fun m' => by rw [hlist]) (fun m' hsome ho => ?_)
    have hm : m' ≠ m := by
      rintro rfl
      rw [howner, Option.some.injEq] at ho
      subst ho
      rw [hcall] at hsome
      cases hsome
    simpa [free, hm] using ho

theorem Inv.handed {s : MutexSystem} {t next : Tid} {m : Nat} {rest : List Tid}
    {returned : Returned}
    (hmutexes : ∀ m, MutexOk (s.mutex m)) (hcalls : ∀ u, CallOk s u)
    (hcall : s.call t = none) (howner : (s.mutex m).owner = some t)
    (hlist : (s.mutex m).suspendThread = next :: rest)
    (hreturned : ∀ u m', returned ≠ .take u m' rtEok) :
    Inv ((handOver m next s).setReturned returned) := by
  have hin : next ∈ (s.mutex m).suspendThread := by
    rw [hlist]
    exact List.mem_cons_self
  obtain ⟨hsome, hsuspend, herror, _⟩ := (hcalls next).waiting_of_mem hin
  have hwaiters : ∀ m', (((handOver m next s).setReturned returned).mutex m').suspendThread =
      listRemove next (s.mutex m').suspendThread := by
    intro m'
    simp only [handOver, setReturned_mutex, setThread_mutex,
      unlink_mutex, setTaken_mutex, setMutex_mutex,
      update_apply]
    split
    next hm => rw [hm]
    · rfl
  have howners : ∀ m', (((handOver m next s).setReturned returned).mutex m').owner =
      if m' = m then some next else (s.mutex m').owner := by
    intro m'
    simp only [handOver, setReturned_mutex, setThread_mutex,
      unlink_mutex, setTaken_mutex, setMutex_mutex,
      update_apply]
    split <;> rfl
  have hvalues : ∀ m', (((handOver m next s).setReturned returned).mutex m').value =
      (s.mutex m').value := by
    intro m'
    simp only [handOver, setReturned_mutex, setThread_mutex,
      unlink_mutex, setTaken_mutex, setMutex_mutex,
      update_apply]
    split
    next hm => rw [hm]
    · rfl
  refine ⟨fun m' => ?_, fun u => ?_,
    fun u m' hret => absurd (Option.some.inj hret) (hreturned u m')⟩
  · have hok := hmutexes m'
    refine ⟨?_, ?_, ?_, ?_⟩
    · rw [hvalues, howners, hok.value]
      split
      next hnone =>
        have hm : m' ≠ m := by
          rintro rfl
          rw [howner] at hnone
          cases hnone
        rw [if_neg hm, if_pos hnone]
      next hnone =>
        by_cases hm : m' = m
        · simp [hm]
        · rw [if_neg hm, if_neg hnone]
    · rw [howners, hwaiters]
      intro hnone
      by_cases hm : m' = m
      · simp [hm] at hnone
      · rw [if_neg hm] at hnone
        rw [hok.waiters hnone]
        rfl
    · intro o ho hmem
      rw [howners] at ho
      rw [hwaiters, mem_listRemove] at hmem
      by_cases hm : m' = m
      · rw [if_pos hm, Option.some.injEq] at ho
        exact hmem.2 ho.symm
      · rw [if_neg hm] at ho
        exact hok.notOwner o ho hmem.1
    · rw [hwaiters]
      exact listRemove_nodup hok.nodup
  · by_cases hu : u = next
    · subst hu
      refine .resumed (m := m) hsome ?_ (fun _ => ?_) (fun m' => ?_)
      · simpa [handOver] using Thread.resume_stat _ hsuspend
      · rw [howners, if_pos rfl]
      · rw [hwaiters, mem_listRemove]
        exact fun h => h.2 rfl
    · refine (hcalls u).of_same rfl (by simp [handOver, hu]) (by simp [handOver, hu])
        (fun m' => ?_) (fun m' hu' ho => ?_)
      · rw [hwaiters, mem_listRemove]
        exact and_iff_left hu
      · have hm : m' ≠ m := by
          rintro rfl
          rw [howner, Option.some.injEq] at ho
          subst ho
          rw [hcall] at hu'
          cases hu'
        rw [howners, if_neg hm]
        exact ho

theorem MutexStep.inv {op : MutexOp} (hstep : MutexStep cfg s op s') (hinv : Inv s) : Inv s' := by
  have hdropOwner : ∀ t m, (s.mutex m).owner = some t →
      ((restorePriority cfg t m (dropHold t m s)).mutex m).owner = some t := by
    intro t m howner
    rw [(restorePriority_sameBut cfg (dropHold t m s) t m).mutex]
    simpa [dropHold] using howner
  have hdropList : ∀ t m, ((restorePriority cfg t m (dropHold t m s)).mutex m).suspendThread =
      (s.mutex m).suspendThread := by
    intro t m
    rw [(restorePriority_sameBut cfg (dropHold t m s) t m).mutex]
    simp [dropHold]
  have hdropCall : ∀ t m, (restorePriority cfg t m (dropHold t m s)).call = s.call :=
    fun t m => (restorePriority_sameBut cfg (dropHold t m s) t m).call
  cases hstep with
  | @again t m time hcan howner =>
    refine hinv.setHold hcan { s.thread t with error := rtEok } hcan.1 _ _ _ ?_
    intro u m' hret
    cases hret
    exact howner
  | available hcan _ hvalue => exact hinv.available hcan hvalue
  | unavailable hcan _ _ =>
    refine hinv.refused hcan _ _ ?_
    intro u m' hret
    simp only [Returned.take.injEq] at hret
    exact absurd hret.2.2 (by decide)
  | waits hcan howner hne _ => exact hinv.waits hcan howner hne
  | takeEnd hcall hready => exact hinv.takeEnd hcall hready
  | refused hcan _ => exact hinv.refused hcan _ _ (by simp)
  | @dropped t m hcan _ _ =>
    have hdrop := hinv.setHold (m := m) hcan (s.thread t) hcan.1
      (dec8 (s.mutex m).hold) (s.taken t m - 1) (.release t m rtEok) (by simp)
    have hthread : s.setThread t (s.thread t) = s := by
      simp [setThread]
    rw [hthread] at hdrop
    exact hdrop
  | @freed t m hcan howner _ hempty =>
    obtain ⟨hmutexes, hcalls⟩ := hinv.dropped cfg (m := m) hcan
    refine Inv.freed hmutexes hcalls ?_ (hdropOwner t m howner) ?_ (by simp)
    · rw [hdropCall]
      exact hcan.2
    · rw [hdropList]
      exact hempty
  | @handed t m next rest hcan howner _ hlist =>
    obtain ⟨hmutexes, hcalls⟩ := hinv.dropped cfg (m := m) hcan
    refine Inv.handed hmutexes hcalls ?_ (hdropOwner t m howner)
      ((hdropList t m).trans hlist) (by simp)
    rw [hdropCall]
    exact hcan.2
  | timeout hstat => exact hinv.timeout hstat

theorem initial_inv (hinit : s.Initial) : Inv s where
  mutexes := by
    intro m
    rw [hinit.mutex m]
    exact ⟨by simp [rtMutexInit], fun _ => rfl, by simp [rtMutexInit], by simp [rtMutexInit]⟩
  calls := by
    intro t
    refine .outside (hinit.call t) (hinit.thread t) (fun m => ?_)
    rw [hinit.mutex m]
    simp [rtMutexInit]
  returned := by
    intro t m hret
    rw [hinit.returned] at hret
    cases hret

end Steps

theorem inv_of_reachable {cfg : Config} {allowed : MutexSystem → MutexOp → Prop}
    {s : MutexSystem} (hreach : (mutexMachine cfg).Reachable allowed s) : Inv s :=
  hreach.invariant Inv (fun _ hinit => initial_inv hinit)
    (fun _ _ _ hinv _ hexec => (exec_step hexec).inv hinv)

/-- `hold` counts the takes of the owner, and nobody else has any. -/
structure HoldOk (s : MutexSystem) (m : Nat) : Prop where
  free : (s.mutex m).owner = none → (s.mutex m).hold = 0
  held : ∀ owner, (s.mutex m).owner = some owner →
    0 < (s.mutex m).hold ∧ (s.mutex m).hold < 256 ∧ s.taken owner m = (s.mutex m).hold
  others : ∀ t, (s.mutex m).owner ≠ some t → s.taken t m = 0

def holdBelow (s : MutexSystem) : MutexOp → Bool
  | .take t m _ => !(decide ((s.mutex m).owner = some t) && decide ((s.mutex m).hold = 255))
  | _ => true

section Hold

variable {cfg : Config} {s s' : MutexSystem} {t : Tid} {m : Nat}

theorem HoldOk.of_same (hok : HoldOk s m)
    (howner : (s'.mutex m).owner = (s.mutex m).owner)
    (hhold : (s'.mutex m).hold = (s.mutex m).hold)
    (htaken : ∀ t, s'.taken t m = s.taken t m) : HoldOk s' m where
  free := by
    rw [howner, hhold]
    exact hok.free
  held := by
    intro owner ho
    rw [howner] at ho
    rw [hhold, htaken]
    exact hok.held owner ho
  others := by
    intro t ht
    rw [howner] at ht
    rw [htaken]
    exact hok.others t ht

theorem HoldOk.of_owner (owner : Tid) (howner : (s.mutex m).owner = some owner)
    (hpos : 0 < (s.mutex m).hold) (hlt : (s.mutex m).hold < 256)
    (htaken : ∀ t, s.taken t m = if t = owner then (s.mutex m).hold else 0) :
    HoldOk s m where
  free := by simp [howner]
  held := by
    intro o ho
    rw [howner, Option.some.injEq] at ho
    subst ho
    exact ⟨hpos, hlt, by rw [htaken, if_pos rfl]⟩
  others := by
    intro t ht
    rw [howner, ne_eq, Option.some.injEq] at ht
    rw [htaken, if_neg (fun h => ht h.symm)]

theorem HoldOk.taken_eq {owner : Tid} (hok : HoldOk s m)
    (howner : (s.mutex m).owner = some owner) (t : Tid) :
    s.taken t m = if t = owner then (s.mutex m).hold else 0 := by
  split
  next ht => rw [ht, (hok.held owner howner).2.2]
  next ht =>
    apply hok.others
    rw [howner, ne_eq, Option.some.injEq]
    exact fun h => ht h.symm

theorem hold_eq_one {hold : Nat} (hpos : 0 < hold) (hzero : dec8 hold = 0) : hold = 1 := by
  unfold dec8 at hzero
  rw [if_neg (by omega)] at hzero
  omega

theorem takeAgain_holdOk (hok : ∀ m, HoldOk s m) (howner : (s.mutex m).owner = some t)
    (hne : (s.mutex m).hold ≠ 255) (m' : Nat) :
    HoldOk (takeAgain t m (s.clearError t)) m' := by
  obtain ⟨hpos, hlt, _⟩ := (hok m).held t howner
  have hinc : inc8 (s.mutex m).hold = (s.mutex m).hold + 1 := by
    unfold inc8
    omega
  by_cases hm : m' = m
  · subst hm
    apply HoldOk.of_owner t
    · simpa [takeAgain, clearError] using howner
    · simp [takeAgain, clearError, hinc]
    · simp only [takeAgain, clearError, setReturned_mutex, setTaken_mutex, setMutex_mutex,
        setThread_mutex, update_self, hinc]
      omega
    · intro u
      simp only [takeAgain, clearError, setReturned_taken,
        setTaken_apply, setMutex_taken, setThread_taken,
        setReturned_mutex, setTaken_mutex,
        setMutex_mutex, setThread_mutex, update_self, hinc,
        (hok m').taken_eq howner]
      by_cases hu : u = t
      · simp [hu]
      · simp [hu]
  · refine (hok m').of_same ?_ ?_ (fun u => ?_)
    · simp [takeAgain, clearError, hm]
    · simp [takeAgain, clearError, hm]
    · simp [takeAgain, clearError, setTaken_apply, hm]

theorem takeAvailable_holdOk (hok : ∀ m, HoldOk s m) (hfree : (s.mutex m).owner = none)
    (m' : Nat) : HoldOk (takeAvailable t m (s.clearError t)) m' := by
  have hzero := (hok m).free hfree
  by_cases hm : m' = m
  · subst hm
    apply HoldOk.of_owner t
    · simp [takeAvailable]
    · simp [takeAvailable, clearError, hzero, inc8]
    · simp [takeAvailable, clearError, hzero, inc8]
    · intro u
      have htaken : s.taken u m' = 0 := (hok m').others u (by simp [hfree])
      by_cases hu : u = t
      · subst hu
        simp [takeAvailable, clearError, setTaken_apply, hzero, htaken, inc8]
      · simp [takeAvailable, clearError, setTaken_apply, hu, htaken]
  · refine (hok m').of_same ?_ ?_ (fun u => ?_)
    · simp [takeAvailable, clearError, hm]
    · simp [takeAvailable, clearError, hm]
    · simp [takeAvailable, clearError, setTaken_apply, hm]

theorem dropHold_fields (cfg : Config) (t : Tid) (m m' : Nat) (s : MutexSystem) :
    ((restorePriority cfg t m (dropHold t m s)).mutex m' =
      if m' = m then { s.mutex m with hold := dec8 (s.mutex m).hold } else s.mutex m') ∧
    ∀ u, (restorePriority cfg t m (dropHold t m s)).taken u m' =
      if u = t ∧ m' = m then s.taken t m - 1 else s.taken u m' := by
  have hsame := restorePriority_sameBut cfg (dropHold t m s) t m
  rw [hsame.mutex, hsame.taken]
  constructor
  · simp only [dropHold, setTaken_mutex, setMutex_mutex, update_apply]
  · intro u
    simp only [dropHold, setTaken_apply, setMutex_taken]

theorem dropped_holdOk (hok : ∀ m, HoldOk s m) (howner : (s.mutex m).owner = some t)
    (hne : dec8 (s.mutex m).hold ≠ 0) (m' : Nat) : HoldOk (dropHold t m s) m' := by
  obtain ⟨hpos, hlt, _⟩ := (hok m).held t howner
  have hdec : dec8 (s.mutex m).hold = (s.mutex m).hold - 1 := by
    unfold dec8
    rw [if_neg (by omega)]
  by_cases hm : m' = m
  · subst hm
    apply HoldOk.of_owner t
    · simpa [dropHold] using howner
    · simpa [dropHold] using Nat.pos_of_ne_zero hne
    · simp only [dropHold, setTaken_mutex, setMutex_mutex, update_self, hdec]
      omega
    · intro u
      simp only [dropHold, setTaken_apply, setMutex_taken,
        setTaken_mutex, setMutex_mutex, update_self, hdec,
        (hok m').taken_eq howner, and_true]
      by_cases hu : u = t
      · simp [hu]
      · simp [hu]
  · refine (hok m').of_same ?_ ?_ (fun u => ?_)
    · simp [dropHold, hm]
    · simp [dropHold, hm]
    · simp [dropHold, setTaken_apply, hm]

theorem freed_holdOk (hok : ∀ m, HoldOk s m) (howner : (s.mutex m).owner = some t)
    (hzero : dec8 (s.mutex m).hold = 0) (m' : Nat) :
    HoldOk (free m (restorePriority cfg t m (dropHold t m s))) m' := by
  obtain ⟨hpos, _, _⟩ := (hok m).held t howner
  have hone := hold_eq_one hpos hzero
  obtain ⟨hmutex, htaken⟩ := dropHold_fields cfg t m m' s
  by_cases hm : m' = m
  · subst hm
    rw [if_pos rfl] at hmutex
    refine ⟨fun _ => ?_, ?_, fun u _ => ?_⟩
    · simp [free, hmutex, hzero]
    · simp [free]
    · simp only [free, setMutex_taken, htaken, (hok m').taken_eq howner, hone]
      by_cases hu : u = t
      · simp [hu]
      · simp [hu]
  · rw [if_neg hm] at hmutex
    refine (hok m').of_same ?_ ?_ (fun u => ?_)
    · simp [free, hm, hmutex]
    · simp [free, hm, hmutex]
    · simp [free, htaken, hm]

theorem handed_holdOk (hok : ∀ m, HoldOk s m) (howner : (s.mutex m).owner = some t)
    (hzero : dec8 (s.mutex m).hold = 0) {next : Tid} (hnext : next ≠ t) (m' : Nat) :
    HoldOk (handOver m next (restorePriority cfg t m (dropHold t m s))) m' := by
  obtain ⟨hpos, _, _⟩ := (hok m).held t howner
  have hone := hold_eq_one hpos hzero
  obtain ⟨hmutex, htaken⟩ := dropHold_fields cfg t m m' s
  by_cases hm : m' = m
  · subst hm
    rw [if_pos rfl] at hmutex
    apply HoldOk.of_owner next
    · simp [handOver]
    · simp [handOver, hmutex, hzero, inc8]
    · simp [handOver, hmutex, hzero, inc8]
    · intro u
      have hcount : ∀ v, s.taken v m' = if v = t then 1 else 0 := by
        intro v
        rw [(hok m').taken_eq howner, hone]
      simp only [handOver, setThread_taken, unlink_taken,
        setTaken_apply, setMutex_taken, htaken, hcount,
        setThread_mutex, unlink_mutex, setTaken_mutex,
        setMutex_mutex, update_self, hmutex, hzero]
      by_cases hu : u = next
      · simp [hu, hnext, inc8]
      · by_cases hut : u = t
        · simp [hut, Ne.symm hnext]
        · simp [hu, hut]
  · rw [if_neg hm] at hmutex
    refine (hok m').of_same ?_ ?_ (fun u => ?_)
    · simp [handOver, hm, hmutex]
    · simp [handOver, hm, hmutex]
    · simp [handOver, setTaken_apply, htaken, hm]

theorem MutexStep.holdOk {op : MutexOp} (hstep : MutexStep cfg s op s') (hinv : Inv s)
    (hok : ∀ m, HoldOk s m) (hbelow : holdBelow s op = true) (m' : Nat) :
    HoldOk s' m' := by
  cases hstep with
  | again _ howner =>
    simp only [holdBelow, howner, decide_true, Bool.true_and, Bool.not_eq_true',
      decide_eq_false_iff_not] at hbelow
    exact takeAgain_holdOk hok howner hbelow m'
  | @available t m time _ _ hvalue =>
    refine takeAvailable_holdOk hok ?_ m'
    have hok := (hinv.mutexes m).value
    by_contra hne
    rw [if_neg hne] at hok
    omega
  | unavailable => exact (hok m').of_same rfl rfl (fun _ => rfl)
  | @waits t m owner time _ _ _ _ =>
    have hsame := boostOwner_sameBut cfg (s.clearError t) t owner
    have hmutex : (boostOwner cfg t owner (s.clearError t)).mutex = s.mutex := hsame.mutex
    have htaken : (boostOwner cfg t owner (s.clearError t)).taken = s.taken := hsame.taken
    refine (hok m').of_same ?_ ?_ (fun u => ?_)
    · simp only [suspendOn, setMutex_mutex, setThread_mutex, hmutex, update_apply]
      split
      next hm => rw [hm]
      · rfl
    · simp only [suspendOn, setMutex_mutex, setThread_mutex, hmutex, update_apply]
      split
      next hm => rw [hm]
      · rfl
    · simp [suspendOn, htaken]
  | takeEnd _ _ => exact (hok m').of_same rfl rfl (fun _ => rfl)
  | refused _ _ => exact (hok m').of_same rfl rfl (fun _ => rfl)
  | dropped _ howner hne =>
    exact (dropped_holdOk hok howner hne m').of_same rfl rfl (fun _ => rfl)
  | freed _ howner hzero _ =>
    exact (freed_holdOk hok howner hzero m').of_same rfl rfl (fun _ => rfl)
  | @handed t m next rest _ howner hzero hlist =>
    have hnext : next ≠ t := by
      rintro rfl
      refine (hinv.mutexes m).notOwner next howner ?_
      rw [hlist]
      exact List.mem_cons_self
    exact (handed_holdOk hok howner hzero hnext m').of_same rfl rfl (fun _ => rfl)
  | timeout _ => exact (hok m').of_same rfl rfl (fun _ => rfl)

end Hold

structure OwnershipOk (s : MutexSystem) (m : Nat) : Prop where
  value : (s.mutex m).value = 0 ∨ (s.mutex m).value = 1
  value_iff : (s.mutex m).value = 1 ↔ (s.mutex m).owner = none
  hold_iff : (s.mutex m).owner = none ↔ (s.mutex m).hold = 0
  hold : ∀ owner, (s.mutex m).owner = some owner → (s.mutex m).hold = s.taken owner m
  waiters : (s.mutex m).suspendThread ≠ [] → (s.mutex m).owner ≠ none
  notOwner : ∀ owner, (s.mutex m).owner = some owner →
    owner ∉ (s.mutex m).suspendThread
  returned : ∀ t, s.returned = some (.take t m rtEok) → (s.mutex m).owner = some t

theorem Inv.ownershipOk {s : MutexSystem} {m : Nat} (hinv : Inv s) (hhold : HoldOk s m) :
    OwnershipOk s m := by
  have hok := hinv.mutexes m
  have hvalue := hok.value
  refine ⟨?_, ?_, ⟨hhold.free, fun hzero => ?_⟩, fun owner ho => ?_, fun hne h => ?_,
    hok.notOwner, fun t => hinv.returned t m⟩
  · split at hvalue
    · exact .inr hvalue
    · exact .inl hvalue
  · split at hvalue
    next howner => exact iff_of_true hvalue howner
    next howner => exact iff_of_false (by omega) howner
  · cases howner : (s.mutex m).owner with
    | none => rfl
    | some owner =>
      have := (hhold.held owner howner).1
      omega
  · exact (hhold.held owner ho).2.2.symm
  · exact hne (hok.waiters h)

theorem holdOk_of_reachable {cfg : Config} {s : MutexSystem}
    (hreach : (mutexMachine cfg).Reachable (fun s op => holdBelow s op = true) s) :
    ∀ m, HoldOk s m := by
  have hall : Inv s ∧ ∀ m, HoldOk s m := by
    refine hreach.invariant (fun s => Inv s ∧ ∀ m, HoldOk s m) ?_ ?_
    · intro s hinit
      refine ⟨initial_inv hinit, fun m => ⟨fun _ => ?_, fun owner ho => ?_,
        fun t _ => hinit.taken t m⟩⟩
      · rw [hinit.mutex m]
        rfl
      · rw [hinit.mutex m] at ho
        cases ho
    · intro s op s' hkept hbelow hexec
      have hstep := exec_step hexec
      exact ⟨hstep.inv hkept.1, hstep.holdOk hkept.1 hkept.2 hbelow⟩
  exact hall.2

/-- In every run in which no owner takes a mutex at `hold = 255`, the mutex
counts right; such a take breaks it; and who does not own a mutex cannot change
it by releasing it. -/
theorem reachable_ownershipOk (cfg : Config) (s : MutexSystem)
    (hreach : (mutexMachine cfg).Reachable (fun s op => holdBelow s op = true) s) :
    (∀ m, OwnershipOk s m) ∧
      (∀ t m time s', s.exec cfg (.take t m time) = some s' →
        holdBelow s (.take t m time) = false → ¬ OwnershipOk s' m) ∧
      ∀ t m s', (s.mutex m).owner ≠ some t → s.exec cfg (.release t m) = some s' →
        s'.mutex = s.mutex := by
  have hinv := inv_of_reachable hreach
  have hhold := holdOk_of_reachable hreach
  refine ⟨fun m => hinv.ownershipOk (hhold m), ?_, ?_⟩
  · intro t m time s' hexec hlimit hok
    simp only [holdBelow, Bool.not_eq_false', Bool.and_eq_true, decide_eq_true_eq] at hlimit
    obtain ⟨howner, hlimit⟩ := hlimit
    cases exec_step hexec with
    | again _ _ =>
      have hzero : ((takeAgain t m (s.clearError t)).mutex m).hold = 0 := by
        simp [takeAgain, clearError, hlimit, inc8]
      have hnone := hok.hold_iff.mpr hzero
      simp [takeAgain, clearError, howner] at hnone
    | available _ hne => exact hne howner
    | unavailable _ hne => exact hne howner
    | waits _ hother hne =>
      rw [howner, Option.some.injEq] at hother
      exact hne hother.symm
  · intro t m s' hne hexec
    cases exec_step hexec with
    | refused => rfl
    | dropped _ howner => exact absurd howner hne
    | freed _ howner => exact absurd howner hne
    | handed _ howner => exact absurd howner hne

/-- The owner's take number 256 brings `hold` back to 0. -/
theorem ownershipOk_fails_after_256_takes :
    ∃ s, (mutexMachine (Config.flat 1)).Reachable (fun _ _ => True) s ∧
      ¬ OwnershipOk s 0 := by
  have hrun : ((mutexMachine (Config.flat 1)).run (fun _ _ => True)
      (start (Config.flat 1) .fifo fun _ => 10)
      (List.replicate 256 (.take 0 0 (-1)))).map
        (fun s => ((s.mutex 0).owner, (s.mutex 0).hold)) = some (some 0, 0) := by
    decide +kernel
  obtain ⟨s, hreach, hvalue⟩ := Machine.exists_reachable_of_run
    (start_initial _ _ _) hrun
  simp only [Prod.mk.injEq] at hvalue
  refine ⟨s, hreach, fun hok => ?_⟩
  have hnone := hok.hold_iff.mpr hvalue.2
  rw [hvalue.1] at hnone
  cases hnone

/-- Thread 0 takes the mutex twice, thread 1 waits, and gets it when thread 0 has
released it twice. -/
def handOverRun : List MutexOp :=
  [.take 0 0 (-1), .take 0 0 0, .take 1 0 5, .release 0 0, .release 0 0, .takeEnd 1]

theorem reachable_ownershipOk_handOverRun :
    ∃ s, (mutexMachine (Config.flat 1)).Reachable (fun s op => holdBelow s op = true) s ∧
      s.returned = some (.take 1 0 rtEok) ∧ (s.mutex 0).owner = some 1 ∧
      OwnershipOk s 0 := by
  have hrun : ((mutexMachine (Config.flat 1)).run (fun s op => holdBelow s op = true)
      (start (Config.flat 1) .fifo fun _ => 10) handOverRun).map
        (fun s => (s.returned, (s.mutex 0).owner)) =
      some (some (.take 1 0 rtEok), some 1) := by decide +kernel
  obtain ⟨s, hreach, hvalue⟩ := Machine.exists_reachable_of_run
    (start_initial _ _ _) hrun
  simp only [Prod.mk.injEq] at hvalue
  exact ⟨s, hreach, hvalue.1, hvalue.2, (reachable_ownershipOk _ s hreach).1 0⟩

end RtThread.Ipc
