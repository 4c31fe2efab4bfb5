import RtThread.Ipc.MutexOwnership

namespace RtThread.Ipc

open Function RtThread.Lib MutexSystem

section Fields

variable (cfg : Config) (s : MutexSystem) (t owner : Tid) (m : Nat)

theorem clearError_priority : (s.clearError t).priority = s.priority := by
  funext u
  simp only [priority, clearError, setThread_thread, update_apply]
  split
  next hu => rw [hu]
  · rfl

theorem suspendOn_priority (time : Int) : (suspendOn t m time s).priority = s.priority := by
  funext u
  simp only [priority, suspendOn, setMutex_thread, setThread_thread, update_apply]
  split
  next hu => simp [hu]
  · rfl

theorem waits_priority (time : Int) :
    (suspendOn t m time (boostOwner cfg t owner (s.clearError t))).priority =
      update s.priority owner (min (s.priority t) (s.priority owner)) := by
  rw [suspendOn_priority, boostOwner_priority, clearError_priority]

theorem dropHold_priority : (dropHold t m s).priority = s.priority := rfl

theorem dropHold_originalPriority :
    ((dropHold t m s).mutex m).originalPriority = (s.mutex m).originalPriority := by
  simp [dropHold]

theorem freed_priority :
    (free m (restorePriority cfg t m (dropHold t m s))).priority =
      update s.priority t (s.mutex m).originalPriority := by
  have hfree : (free m (restorePriority cfg t m (dropHold t m s))).priority =
      (restorePriority cfg t m (dropHold t m s)).priority := rfl
  rw [hfree, restorePriority_priority, dropHold_originalPriority, dropHold_priority]

theorem handed_priority (next : Tid) :
    (handOver m next (restorePriority cfg t m (dropHold t m s))).priority =
      update s.priority t (s.mutex m).originalPriority := by
  have hsame : (handOver m next (restorePriority cfg t m (dropHold t m s))).priority =
      (restorePriority cfg t m (dropHold t m s)).priority := by
    funext u
    simp only [priority, handOver, setThread_thread,
      unlink_thread, setTaken_thread, setMutex_thread,
      update_apply]
    split
    next hu => simp [hu]
    · rfl
  rw [hsame, restorePriority_priority, dropHold_originalPriority, dropHold_priority]

theorem expire_priority : (rtThreadTimeout t s).priority = s.priority := by
  funext u
  simp only [priority, rtThreadTimeout, setThread_thread, unlink_thread, update_apply]
  split
  next hu => simp [hu]
  · rfl

theorem dropped_mutex (m' : Nat) :
    ((restorePriority cfg t m (dropHold t m s)).mutex m').owner = (s.mutex m').owner ∧
      ((restorePriority cfg t m (dropHold t m s)).mutex m').suspendThread =
        (s.mutex m').suspendThread := by
  rw [(dropHold_fields cfg t m m' s).1]
  split
  next hm => exact ⟨by rw [hm], by rw [hm]⟩
  · exact ⟨rfl, rfl⟩

end Fields

structure Holders (s' : MutexSystem) (owner : Nat → Option Tid)
    (waits : Nat → Tid → Prop) : Prop where
  owner : ∀ m, (s'.mutex m).owner = owner m
  waits : ∀ m w, w ∈ (s'.mutex m).suspendThread ↔ waits m w

section Holders

variable (cfg : Config) (s : MutexSystem) (t owner : Tid) (m : Nat)

theorem waits_holders (time : Int) :
    Holders (suspendOn t m time (boostOwner cfg t owner (s.clearError t)))
      (fun m' => (s.mutex m').owner)
      (fun m' w => w ∈ (s.mutex m').suspendThread ∨ (w = t ∧ m' = m)) := by
  have hmutex : (boostOwner cfg t owner (s.clearError t)).mutex = s.mutex :=
    (boostOwner_sameBut cfg (s.clearError t) t owner).mutex
  constructor
  · intro m'
    simp only [suspendOn, setMutex_mutex, setThread_mutex, hmutex, update_apply]
    split
    next hm => rw [hm]
    · rfl
  · intro m' w
    simp only [suspendOn, setMutex_mutex, setThread_mutex, hmutex, update_apply]
    split
    next hm =>
      rw [mem_listSuspend, hm]
      tauto
    next hm => simp [hm]

theorem freed_holders :
    Holders (free m (restorePriority cfg t m (dropHold t m s)))
      (update (fun m' => (s.mutex m').owner) m none)
      (fun m' w => w ∈ (s.mutex m').suspendThread) := by
  constructor
  · intro m'
    simp only [free, setMutex_mutex, update_apply]
    split
    · rfl
    · exact (dropped_mutex cfg s t m m').1
  · intro m' w
    simp only [free, setMutex_mutex, update_apply]
    split
    next hm => rw [hm, (dropped_mutex cfg s t m m).2]
    · rw [(dropped_mutex cfg s t m m').2]

theorem handed_holders (next : Tid) :
    Holders (handOver m next (restorePriority cfg t m (dropHold t m s)))
      (update (fun m' => (s.mutex m').owner) m (some next))
      (fun m' w => w ∈ (s.mutex m').suspendThread ∧ w ≠ next) := by
  constructor
  · intro m'
    simp only [handOver, setThread_mutex, unlink_mutex,
      setTaken_mutex, setMutex_mutex, update_apply]
    split
    · rfl
    · exact (dropped_mutex cfg s t m m').1
  · intro m' w
    simp only [handOver, setThread_mutex, unlink_mutex,
      setTaken_mutex, setMutex_mutex, update_apply,
      mem_listRemove]
    split
    next hm => rw [hm, (dropped_mutex cfg s t m m).2]
    · rw [(dropped_mutex cfg s t m m').2]

end Holders

def InheritOk (s : MutexSystem) : Prop :=
  ∀ m owner w, (s.mutex m).owner = some owner → w ∈ (s.mutex m).suspendThread →
    s.priority owner ≤ s.priority w

/-- The steps after which the bound still holds.  A thread that goes to sleep
boosts no owner that is itself asleep behind a less urgent thread: the boost is
not passed on.  A last release does not take the owner below a thread that waits
for another of its mutexes, and the first waiter is the most urgent one. -/
def Inherits (s : MutexSystem) : MutexOp → Prop
  | .take t m time => ∀ owner, (s.mutex m).owner = some owner → owner ≠ t →
      time ≠ 0 → s.priority t < s.priority owner →
      ∀ m' owner', (s.mutex m').owner = some owner' →
        owner ∈ (s.mutex m').suspendThread → s.priority owner' ≤ s.priority t
  | .release t m => (s.mutex m).owner = some t → (s.mutex m).hold = 1 →
      (∀ m' w, m' ≠ m → (s.mutex m').owner = some t →
        w ∈ (s.mutex m').suspendThread → (s.mutex m).originalPriority ≤ s.priority w) ∧
      ∀ next rest, (s.mutex m).suspendThread = next :: rest →
        ∀ w ∈ rest, s.priority next ≤ s.priority w
  | _ => True

theorem dec8_eq_zero_iff {n : Nat} : dec8 n = 0 ↔ n = 1 := by
  unfold dec8
  split <;> omega

section Inherit

variable {cfg : Config} {s s' : MutexSystem} {t owner : Tid} {m : Nat}

theorem InheritOk.of_holders {owners : Nat → Option Tid} {waits : Nat → Tid → Prop}
    (hholders : Holders s' owners waits) :
    InheritOk s' ↔ ∀ m owner w, owners m = some owner → waits m w →
      s'.priority owner ≤ s'.priority w := by
  unfold InheritOk
  simp only [hholders.owner, hholders.waits]

theorem InheritOk.of_quiet (hok : InheritOk s) (hpriority : s'.priority = s.priority)
    (howner : ∀ m owner, (s'.mutex m).owner = some owner →
      (s'.mutex m).suspendThread = [] ∨ (s.mutex m).owner = some owner)
    (hwaiters : ∀ m w, w ∈ (s'.mutex m).suspendThread → w ∈ (s.mutex m).suspendThread) :
    InheritOk s' := by
  intro m owner w ho hw
  rw [hpriority]
  rcases howner m owner ho with hnil | hsame
  · rw [hnil] at hw
    cases hw
  · exact hok m owner w hsame (hwaiters m w hw)

theorem waits_inheritOk_iff (hinv : Inv s) (hok : InheritOk s) {time : Int}
    (hcan : s.CanCall t) (howner : (s.mutex m).owner = some owner) (hne : owner ≠ t) :
    InheritOk (suspendOn t m time (boostOwner cfg t owner (s.clearError t))) ↔
      (s.priority t < s.priority owner → ∀ m' owner', (s.mutex m').owner = some owner' →
        owner ∈ (s.mutex m').suspendThread → s.priority owner' ≤ s.priority t) := by
  rw [InheritOk.of_holders (waits_holders cfg s t owner m time), waits_priority]
  constructor
  · intro hall hlt m' owner' ho' hin
    have hother : owner' ≠ owner := by
      rintro rfl
      exact (hinv.mutexes m').notOwner owner' ho' hin
    have hbound := hall m' owner' owner ho' (.inl hin)
    rw [update_self, update_of_ne hother] at hbound
    exact Nat.le_trans hbound (Nat.min_le_left _ _)
  · intro hchain m' owner' w ho' hwaits
    have hlower : ∀ u, update s.priority owner
        (min (s.priority t) (s.priority owner)) u ≤ s.priority u := by
      intro u
      rw [update_apply]
      split
      next hu => rw [hu]; exact Nat.min_le_right _ _
      · exact Nat.le_refl _
    rcases hwaits with hin | ⟨rfl, rfl⟩
    · by_cases hw : w = owner
      · -- the boosted owner is itself asleep
        subst hw
        have hother : owner' ≠ w := by
          rintro rfl
          exact (hinv.mutexes m').notOwner owner' ho' hin
        rw [update_self, update_of_ne hother]
        by_cases hlt : s.priority t < s.priority w
        · exact Nat.le_min.mpr ⟨hchain hlt m' owner' ho' hin, hok m' owner' w ho' hin⟩
        · rw [Nat.min_eq_right (Nat.le_of_not_lt hlt)]
          exact hok m' owner' w ho' hin
      · rw [update_of_ne hw]
        exact Nat.le_trans (hlower owner') (hok m' owner' w ho' hin)
    · rw [howner, Option.some.injEq] at ho'
      subst ho'
      rw [update_self, update_of_ne hne.symm]
      exact Nat.min_le_left _ _

theorem freed_inheritOk_iff (cfg : Config) (hinv : Inv s) (hok : InheritOk s) (hcan : s.CanCall t)
    (hempty : (s.mutex m).suspendThread = []) :
    InheritOk (free m (restorePriority cfg t m (dropHold t m s))) ↔
      ∀ m' w, m' ≠ m → (s.mutex m').owner = some t →
        w ∈ (s.mutex m').suspendThread →
        (s.mutex m).originalPriority ≤ s.priority w := by
  rw [InheritOk.of_holders (freed_holders cfg s t m), freed_priority]
  have hawake : ∀ m' w, w ∈ (s.mutex m').suspendThread → w ≠ t := by
    rintro m' w hin rfl
    exact (hinv.calls w).free_of_canCall hcan m' hin
  constructor
  · intro hall m' w hm howner hin
    have hbound := hall m' t w (by simpa [hm] using howner) hin
    rwa [update_self, update_of_ne (hawake m' w hin)] at hbound
  · intro hother m' owner' w ho' hin
    have hm : m' ≠ m := by
      rintro rfl
      rw [hempty] at hin
      cases hin
    rw [update_of_ne hm] at ho'
    rw [update_of_ne (hawake m' w hin), update_apply]
    split
    next hu =>
      rw [hu] at ho'
      exact hother m' w hm ho' hin
    · exact hok m' owner' w ho' hin

theorem handed_inheritOk_iff (cfg : Config) (hinv : Inv s) (hok : InheritOk s) (hcan : s.CanCall t)
    {next : Tid} {rest : List Tid} (hlist : (s.mutex m).suspendThread = next :: rest) :
    InheritOk (handOver m next (restorePriority cfg t m (dropHold t m s))) ↔
      (∀ m' w, m' ≠ m → (s.mutex m').owner = some t →
        w ∈ (s.mutex m').suspendThread → (s.mutex m).originalPriority ≤ s.priority w) ∧
      ∀ w ∈ rest, s.priority next ≤ s.priority w := by
  rw [InheritOk.of_holders (handed_holders cfg s t m next), handed_priority]
  have hawake : ∀ m' w, w ∈ (s.mutex m').suspendThread → w ≠ t := by
    rintro m' w hin rfl
    exact (hinv.calls w).free_of_canCall hcan m' hin
  have hnext : next ∈ (s.mutex m).suspendThread := by
    rw [hlist]
    exact List.mem_cons_self
  have hnodup : next ∉ rest := by
    have := (hinv.mutexes m).nodup
    rw [hlist] at this
    exact (List.nodup_cons.mp this).1
  have honly : ∀ m', m' ≠ m → next ∉ (s.mutex m').suspendThread :=
    ((hinv.calls next).waiting_of_mem hnext).2.2.2
  constructor
  · intro hall
    constructor
    · intro m' w hm howner hin
      have hw : w ≠ next := by
        rintro rfl
        exact honly m' hm hin
      have hbound := hall m' t w (by simpa [hm] using howner) ⟨hin, hw⟩
      rwa [update_self, update_of_ne (hawake m' w hin)] at hbound
    · intro w hw
      have hin : w ∈ (s.mutex m).suspendThread := by
        rw [hlist]
        exact List.mem_cons_of_mem _ hw
      have hbound := hall m next w (by simp) ⟨hin, fun h => hnodup (h ▸ hw)⟩
      rwa [update_of_ne (hawake m next hnext), update_of_ne (hawake m w hin)] at hbound
  · rintro ⟨hother, hfirst⟩ m' owner' w ho' ⟨hin, hw⟩
    rw [update_of_ne (hawake m' w hin)]
    by_cases hm : m' = m
    · subst hm
      rw [update_self, Option.some.injEq] at ho'
      subst ho'
      rw [update_of_ne (hawake m' next hnext)]
      rw [hlist] at hin
      exact hfirst w ((List.mem_cons.mp hin).resolve_left hw)
    · rw [update_of_ne hm] at ho'
      rw [update_apply]
      split
      next hu =>
        rw [hu] at ho'
        exact hother m' w hm ho' hin
      · exact hok m' owner' w ho' hin

theorem MutexStep.inheritOk_iff {op : MutexOp} (hstep : MutexStep cfg s op s')
    (hinv : Inv s) (hok : InheritOk s) : InheritOk s' ↔ Inherits s op := by
  cases hstep with
  | @again t m time hcan howner =>
    refine iff_of_true (hok.of_quiet (clearError_priority s t) (fun m' owner h => .inr ?_)
      (fun m' w h => ?_)) ?_
    · simp only [takeAgain, clearError, setReturned_mutex, setTaken_mutex, setMutex_mutex,
        setThread_mutex, update_apply] at h
      split at h
      next hm => rw [hm]; exact h
      · exact h
    · simp only [takeAgain, clearError, setReturned_mutex, setTaken_mutex, setMutex_mutex,
        setThread_mutex, update_apply] at h
      split at h
      next hm => rw [hm]; exact h
      · exact h
    · intro owner ho hne
      rw [howner, Option.some.injEq] at ho
      exact absurd ho.symm hne
  | @available t m time hcan _ hvalue =>
    have hnone : (s.mutex m).owner = none := by
      have hvalueOk := (hinv.mutexes m).value
      by_contra hne
      rw [if_neg hne] at hvalueOk
      omega
    have hempty := (hinv.mutexes m).waiters hnone
    have hlist : ∀ m', ((takeAvailable t m (s.clearError t)).mutex m').suspendThread =
        (s.mutex m').suspendThread := by
      intro m'
      simp only [takeAvailable, clearError, setReturned_mutex, setTaken_mutex, setMutex_mutex,
        setThread_mutex, update_apply]
      split
      next hm => rw [hm]
      · rfl
    refine iff_of_true (hok.of_quiet (clearError_priority s t) (fun m' owner h => ?_)
      (fun m' w h => by rwa [hlist] at h)) ?_
    · by_cases hm : m' = m
      · subst hm
        left
        rw [hlist, hempty]
      · right
        simpa [takeAvailable, clearError, hm] using h
    · intro owner ho
      rw [hnone] at ho
      cases ho
  | @unavailable t m time _ _ htime =>
    have hpriority : (((s.setThread t { s.thread t with
        error := -rtEtimeout }).setReturned (.take t m (-rtEtimeout)))).priority =
        s.priority := by
      funext u
      simp only [priority, setReturned_thread, setThread_thread, update_apply]
      split
      next hu => rw [hu]
      · rfl
    refine iff_of_true (hok.of_quiet hpriority (fun _ _ h => .inr h) (fun _ _ h => h)) ?_
    intro owner _ _ hne
    exact absurd htime hne
  | @waits t m owner time hcan howner hne htime =>
    rw [waits_inheritOk_iff hinv hok hcan howner hne]
    constructor
    · intro hchain owner' ho' _ _
      rw [howner, Option.some.injEq] at ho'
      subst ho'
      exact hchain
    · intro hinherits
      exact hinherits owner howner hne htime
  | takeEnd =>
    exact iff_of_true (hok.of_quiet rfl (fun _ _ h => .inr h) (fun _ _ h => h)) trivial
  | @refused t m hcan hne =>
    have hpriority : (((s.setThread t { s.thread t with
        error := -rtError }).setReturned (.release t m (-rtError)))).priority =
        s.priority := by
      funext u
      simp only [priority, setReturned_thread, setThread_thread, update_apply]
      split
      next hu => rw [hu]
      · rfl
    refine iff_of_true (hok.of_quiet hpriority (fun _ _ h => .inr h) (fun _ _ h => h)) ?_
    intro howner
    exact absurd howner hne
  | @dropped t m _ _ hhold =>
    refine iff_of_true (hok.of_quiet rfl (fun m' owner h => .inr ?_) (fun m' w h => ?_)) ?_
    · simp only [dropHold, setReturned_mutex, setTaken_mutex, setMutex_mutex, update_apply] at h
      split at h
      next hm => rw [hm]; exact h
      · exact h
    · simp only [dropHold, setReturned_mutex, setTaken_mutex, setMutex_mutex, update_apply] at h
      split at h
      next hm => rw [hm]; exact h
      · exact h
    · intro _ hone
      exact absurd (dec8_eq_zero_iff.mpr hone) hhold
  | @freed t m hcan howner hhold hempty =>
    refine (freed_inheritOk_iff cfg hinv hok hcan hempty).trans ?_
    constructor
    · intro hother _ _
      refine ⟨hother, fun next rest hlist => ?_⟩
      rw [hempty] at hlist
      cases hlist
    · intro hinherits
      exact (hinherits howner (dec8_eq_zero_iff.mp hhold)).1
  | @handed t m next rest hcan howner hhold hlist =>
    refine (handed_inheritOk_iff cfg hinv hok hcan hlist).trans ?_
    constructor
    · rintro ⟨hother, hfirst⟩ _ _
      refine ⟨hother, fun next' rest' hlist' => ?_⟩
      rw [hlist, List.cons.injEq] at hlist'
      obtain ⟨rfl, rfl⟩ := hlist'
      exact hfirst
    · intro hinherits
      obtain ⟨hother, hfirst⟩ := hinherits howner (dec8_eq_zero_iff.mp hhold)
      exact ⟨hother, hfirst next rest hlist⟩
  | @timeout t _ =>
    refine iff_of_true (hok.of_quiet (expire_priority s t) (fun _ _ h => .inr h)
      (fun m' w h => ?_)) trivial
    exact (mem_listRemove.mp h).1

end Inherit

/-- In every run of such steps no thread waits for an owner less urgent than
itself, and the condition cannot be weakened. -/
theorem reachable_inheritOk (cfg : Config) (s : MutexSystem)
    (hreach : (mutexMachine cfg).Reachable Inherits s) :
    InheritOk s ∧ ∀ op s', s.exec cfg op = some s' → (InheritOk s' ↔ Inherits s op) := by
  have hok : InheritOk s := by
    refine (hreach.invariant (fun s => Inv s ∧ InheritOk s) ?_ ?_).2
    · intro s hinit
      refine ⟨initial_inv hinit, fun m owner w ho => ?_⟩
      rw [hinit.mutex m] at ho
      cases ho
    · intro s op s' hkept hinherits hexec
      have hstep := exec_step hexec
      exact ⟨hstep.inv hkept.1, (hstep.inheritOk_iff hkept.1 hkept.2).mpr hinherits⟩
  exact ⟨hok, fun op s' hexec =>
    (exec_step hexec).inheritOk_iff (inv_of_reachable hreach) hok⟩

def lowOwner : MutexSystem :=
  MutexSystem.start (Config.flat 1) .prio fun t => if t = 0 then 20 else 10

/-- Thread 0 owns two mutexes, thread 1 waits for the second and boosts it;
releasing the first takes the boost away. -/
theorem inheritOk_fails_after_other_release :
    ∃ s, (mutexMachine (Config.flat 1)).Reachable (fun _ _ => True) s ∧ ¬ InheritOk s := by
  have hrun : ((mutexMachine (Config.flat 1)).run (fun _ _ => True) lowOwner
      [.take 0 0 (-1), .take 0 1 (-1), .take 1 1 (-1), .release 0 0]).map
        (fun s => ((s.mutex 1).owner, (s.mutex 1).suspendThread, s.priority 0,
          s.priority 1)) = some (some 0, [1], 20, 10) := by decide +kernel
  obtain ⟨s, hreach, hvalue⟩ := Machine.exists_reachable_of_run
    (start_initial _ _ _) hrun
  simp only [Prod.mk.injEq] at hvalue
  obtain ⟨howner, hlist, hzero, hone⟩ := hvalue
  refine ⟨s, hreach, fun hok => ?_⟩
  have hbound := hok 1 0 1 howner (by rw [hlist]; exact List.mem_cons_self)
  rw [hzero, hone] at hbound
  exact absurd hbound (by decide)

def boosted : MutexSystem :=
  suspendOn 1 0 (-1) (boostOwner (Config.flat 1) 1 0
    ((takeAvailable 0 0 (lowOwner.clearError 0)).clearError 1))

theorem reachable_inheritOk_boost :
    ∃ s, (mutexMachine (Config.flat 1)).Reachable Inherits s ∧
      (s.mutex 0).suspendThread = [1] ∧ s.priority 0 = 10 ∧ InheritOk s := by
  have hfirst : Inherits lowOwner (.take 0 0 (-1)) := by
    intro owner ho
    cases ho
  have hsecond : Inherits (takeAvailable 0 0 (lowOwner.clearError 0)) (.take 1 0 (-1)) := by
    intro owner _ _ _ _ m' owner' _ hin
    have hnil : ((takeAvailable 0 0 (lowOwner.clearError 0)).mutex m').suspendThread = [] := by
      simp only [takeAvailable, clearError, setReturned_mutex, setTaken_mutex, setMutex_mutex,
        setThread_mutex, update_apply]
      split <;> rfl
    rw [hnil] at hin
    cases hin
  have hstart : (mutexMachine (Config.flat 1)).Reachable Inherits lowOwner :=
    .start (start_initial _ _ _)
  have hreach := (hstart.step hfirst rfl).step hsecond (show _ = some boosted from rfl)
  exact ⟨boosted, hreach, by decide +kernel, by decide +kernel,
    (reachable_inheritOk (Config.flat 1) _ hreach).1⟩

def RestoreOk (s : MutexSystem) : Prop :=
  ∀ t, (∀ m, (s.mutex m).owner ≠ some t) → s.priority t = s.base t

/-- The steps after which that still holds: the last mutex a thread gives up is
one it got at the priority it started with. -/
def Restores (s : MutexSystem) : MutexOp → Prop
  | .release t m => (s.mutex m).owner = some t → (s.mutex m).hold = 1 →
      (∀ m', m' ≠ m → (s.mutex m').owner ≠ some t) →
      (s.mutex m).originalPriority = s.base t
  | _ => True

section Restore

variable {cfg : Config} {s s' : MutexSystem} {t : Tid} {m : Nat}

theorem RestoreOk.of_quiet (hok : RestoreOk s)
    (hpriority : ∀ t, (∀ m, (s'.mutex m).owner ≠ some t) → s'.priority t = s.priority t)
    (howner : ∀ t m, (s.mutex m).owner = some t → ∃ m', (s'.mutex m').owner = some t)
    (hbase : s'.base = s.base) : RestoreOk s' := by
  intro t hfree
  rw [hpriority t hfree, hbase]
  refine hok t (fun m ho => ?_)
  obtain ⟨m', ho'⟩ := howner t m ho
  exact hfree m' ho'

theorem restoreOk_release_iff (hok : RestoreOk s) (howner : (s.mutex m).owner = some t)
    {owner' : Option Tid} (hnot : owner' ≠ some t)
    (howners : ∀ m', (s'.mutex m').owner = update (fun m' => (s.mutex m').owner) m owner' m')
    (hpriority : s'.priority = update s.priority t (s.mutex m).originalPriority)
    (hbase : s'.base = s.base) :
    RestoreOk s' ↔ ((∀ m', m' ≠ m → (s.mutex m').owner ≠ some t) →
      (s.mutex m).originalPriority = s.base t) := by
  constructor
  · intro hrestore hnone
    have hfree : ∀ m', (s'.mutex m').owner ≠ some t := by
      intro m'
      rw [howners, update_apply]
      split
      · exact hnot
      next hm => exact hnone m' hm
    have := hrestore t hfree
    rwa [hpriority, update_self, hbase] at this
  · intro hlast u hfree
    rw [hpriority, hbase, update_apply]
    split
    next hu =>
      subst hu
      refine hlast (fun m' hm => ?_)
      have := hfree m'
      rwa [howners, update_of_ne hm] at this
    next hu =>
      refine hok u (fun m' ho => ?_)
      by_cases hm : m' = m
      · subst hm
        rw [howner, Option.some.injEq] at ho
        exact hu ho.symm
      · have := hfree m'
        rw [howners, update_of_ne hm] at this
        exact this ho

theorem MutexStep.restoreOk_iff {op : MutexOp} (hstep : MutexStep cfg s op s')
    (hinv : Inv s) (hok : RestoreOk s) : RestoreOk s' ↔ Restores s op := by
  have hbase : ∀ t m, (restorePriority cfg t m (dropHold t m s)).base = s.base :=
    fun t m => (restorePriority_sameBut cfg (dropHold t m s) t m).base
  cases hstep with
  | @again t m time _ _ =>
    refine iff_of_true (hok.of_quiet
      (fun u _ => congrFun (clearError_priority s t) u) (fun u m' h => ⟨m', ?_⟩) rfl) trivial
    simp only [takeAgain, clearError, setReturned_mutex, setTaken_mutex, setMutex_mutex,
      setThread_mutex, update_apply]
    split
    next hm => rw [← hm]; exact h
    · exact h
  | @available t m time _ _ hvalue =>
    have hnone : (s.mutex m).owner = none := by
      have hvalueOk := (hinv.mutexes m).value
      by_contra hne
      rw [if_neg hne] at hvalueOk
      omega
    refine iff_of_true (hok.of_quiet
      (fun u _ => congrFun (clearError_priority s t) u) (fun u m' h => ⟨m', ?_⟩) rfl) trivial
    have hm : m' ≠ m := by
      rintro rfl
      rw [hnone] at h
      cases h
    simpa [takeAvailable, clearError, hm] using h
  | @unavailable t m time _ _ _ =>
    refine iff_of_true (hok.of_quiet (fun u _ => ?_) (fun u m' h => ⟨m', h⟩) rfl) trivial
    simp only [priority, setReturned_thread, setThread_thread, update_apply]
    split
    next hu => rw [hu]
    · rfl
  | @waits t m owner time _ howner _ _ =>
    have hholders := waits_holders cfg s t owner m time
    refine iff_of_true (hok.of_quiet (fun u hfree => ?_) (fun u m' h => ⟨m', ?_⟩) ?_) trivial
    · rw [waits_priority]
      have hu : u ≠ owner := by
        rintro rfl
        exact hfree m (by rw [hholders.owner]; exact howner)
      rw [update_of_ne hu]
    · rw [hholders.owner]
      exact h
    · exact (boostOwner_sameBut cfg (s.clearError t) t owner).base
  | takeEnd =>
    exact iff_of_true (hok.of_quiet (fun _ _ => rfl) (fun _ m' h => ⟨m', h⟩) rfl) trivial
  | @refused t m _ hne =>
    refine iff_of_true (hok.of_quiet (fun u _ => ?_) (fun u m' h => ⟨m', h⟩) rfl) ?_
    · simp only [priority, setReturned_thread, setThread_thread, update_apply]
      split
      next hu => rw [hu]
      · rfl
    · intro howner
      exact absurd howner hne
  | @dropped t m _ _ hhold =>
    refine iff_of_true (hok.of_quiet (fun _ _ => rfl) (fun u m' h => ⟨m', ?_⟩) rfl) ?_
    · simp only [dropHold, setReturned_mutex, setTaken_mutex, setMutex_mutex, update_apply]
      split
      next hm => rw [← hm]; exact h
      · exact h
    · intro _ hone
      exact absurd (dec8_eq_zero_iff.mpr hone) hhold
  | @freed t m _ howner hhold _ =>
    refine (restoreOk_release_iff hok howner (by simp)
      (freed_holders cfg s t m).owner (freed_priority cfg s t m) (hbase t m)).trans ?_
    exact ⟨fun hlast _ _ => hlast, fun hrestores => hrestores howner (dec8_eq_zero_iff.mp hhold)⟩
  | @handed t m next rest _ howner hhold hlist =>
    have hnext : some next ≠ some t := by
      rw [ne_eq, Option.some.injEq]
      rintro rfl
      refine (hinv.mutexes m).notOwner next howner ?_
      rw [hlist]
      exact List.mem_cons_self
    refine (restoreOk_release_iff hok howner hnext
      (handed_holders cfg s t m next).owner (handed_priority cfg s t m next)
      (hbase t m)).trans ?_
    exact ⟨fun hlast _ _ => hlast, fun hrestores => hrestores howner (dec8_eq_zero_iff.mp hhold)⟩
  | @timeout t _ =>
    exact iff_of_true (hok.of_quiet (fun u _ => congrFun (expire_priority s t) u)
      (fun u m' h => ⟨m', h⟩) rfl) trivial

end Restore

/-- In every run of such steps a thread that owns no mutex is back at the
priority it started with, and the condition cannot be weakened. -/
theorem reachable_restoreOk (cfg : Config) (s : MutexSystem)
    (hreach : (mutexMachine cfg).Reachable Restores s) :
    RestoreOk s ∧ ∀ op s', s.exec cfg op = some s' → (RestoreOk s' ↔ Restores s op) := by
  have hok : RestoreOk s := by
    refine (hreach.invariant (fun s => Inv s ∧ RestoreOk s) ?_ ?_).2
    · intro s hinit
      exact ⟨initial_inv hinit, fun t _ => (hinit.base t).symm⟩
    · intro s op s' hkept hrestores hexec
      have hstep := exec_step hexec
      exact ⟨hstep.inv hkept.1, (hstep.restoreOk_iff hkept.1 hkept.2).mpr hrestores⟩
  exact ⟨hok, fun op s' hexec =>
    (exec_step hexec).restoreOk_iff (inv_of_reachable hreach) hok⟩

/-- Thread 0 takes the second mutex while it is boosted, and gives the first one
up before it. -/
def crossingRun : Option MutexSystem :=
  (mutexMachine (Config.flat 1)).run (fun _ _ => True) lowOwner
    [.take 0 0 (-1), .take 1 0 (-1), .take 0 1 (-1), .release 0 0, .release 0 1]

/-- The boosted priority saved in the second mutex comes back and stays. -/
theorem restoreOk_fails_after_crossing_release :
    ∃ s, (mutexMachine (Config.flat 1)).Reachable (fun _ _ => True) s ∧ ¬ RestoreOk s := by
  have hsome : crossingRun = some (crossingRun.getD lowOwner) := by
    rw [← Option.some_get (show crossingRun.isSome by decide +kernel), Option.getD_some]
  refine ⟨crossingRun.getD lowOwner,
    (Machine.Reachable.start (start_initial _ _ _)).run hsome, fun hok => ?_⟩
  have hfree : ∀ m, ((crossingRun.getD lowOwner).mutex m).owner ≠ some 0 := by
    intro m
    match m with
    | 0 => decide +kernel
    | 1 => decide +kernel
    | m + 2 =>
      have hother : ((crossingRun.getD lowOwner).mutex (m + 2)).owner = none := rfl
      rw [hother]
      simp
  exact absurd (hok 0 hfree) (by decide +kernel)

/-- The same threads with the releases in nested order. -/
theorem reachable_restoreOk_nested :
    ∃ s, (mutexMachine (Config.flat 1)).Reachable Restores s ∧
      (s.mutex 0).owner = some 1 ∧ s.priority 0 = 20 ∧ RestoreOk s := by
  have hstart : (mutexMachine (Config.flat 1)).Reachable Restores lowOwner :=
    .start (start_initial _ _ _)
  have hfirst : Restores lowOwner (.take 0 0 (-1)) := trivial
  have hsecond : Restores (takeAvailable 0 0 (lowOwner.clearError 0)) (.take 1 0 (-1)) :=
    trivial
  have hthird : Restores boosted (.release 0 0) := fun _ _ _ => by decide +kernel
  have hreach := ((hstart.step hfirst rfl).step hsecond
    (show _ = some boosted from rfl)).step hthird rfl
  exact ⟨_, hreach, by decide +kernel, by decide +kernel,
    (reachable_restoreOk (Config.flat 1) _ hreach).1⟩

end RtThread.Ipc
