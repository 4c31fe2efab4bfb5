import RtThread.Blocking.Sections
import RtThread.Lib.SortedList

namespace RtThread.Blocking

open Function RtThread.Lib RtThread.Ipc RtThread.Scheduler Blocking.System

def Core.key (x : Core) (t : Tid) : Nat ×ₗ Nat := toLex ((x.view t).priority, x.arrival t)

structure CoreSorted (x : Core) : Prop where
  sorted : ∀ o side, x.flag o = .prio → SortedBy x.key (x.list o side)
  arrived : ∀ o side, ∀ t ∈ x.list o side, x.arrival t < x.arrivals

section Effects

variable {x x' : Core} {t : Tid}

theorem CoreSorted.of_same (hsorted : CoreSorted x) (hflag : x'.flag = x.flag)
    (hsub : ∀ o side, (x'.list o side).Sublist (x.list o side))
    (hpriority : ∀ t, (x'.view t).priority = (x.view t).priority)
    (harrival : x'.arrival = x.arrival) (harrivals : x'.arrivals = x.arrivals) :
    CoreSorted x' := by
  have hkey : x'.key = x.key := by
    funext t
    rw [Core.key, Core.key, hpriority, harrival]
  refine ⟨fun o side hprio => ?_, fun o side t ht => ?_⟩
  · rw [hkey]
    rw [hflag] at hprio
    exact (hsorted.sorted o side hprio).sublist (hsub o side)
  · rw [harrival, harrivals]
    exact hsorted.arrived o side t ((hsub o side).subset ht)

theorem insertByPriority_sorted {priority arrival : Tid → Nat} {list : List Tid}
    (hsorted : SortedBy (fun u => toLex (priority u, arrival u)) list)
    (hlast : ∀ u ∈ list, arrival u < arrival t) :
    SortedBy (fun u => toLex (priority u, arrival u)) (insertByPriority priority t list) := by
  induction list with
  | nil => exact List.pairwise_singleton ..
  | cons sthread rest ih =>
    obtain ⟨hfirst, hrest⟩ := SortedBy.cons_iff.mp hsorted
    simp only [insertByPriority]
    split
    next hlt =>
      have hbefore : toLex (priority t, arrival t) < toLex (priority sthread, arrival sthread) :=
        Prod.Lex.toLex_lt_toLex.mpr (.inl hlt)
      refine SortedBy.cons_iff.mpr ⟨fun u hu => ?_, hsorted⟩
      rcases List.mem_cons.mp hu with rfl | hu
      · exact hbefore
      · exact hbefore.trans (hfirst u hu)
    next hle =>
      refine SortedBy.cons_iff.mpr ⟨fun u hu => ?_,
        ih hrest fun u hu => hlast u (List.mem_cons_of_mem _ hu)⟩
      rcases List.mem_cons.mp (insertByPriority_perm.mem_iff.mp hu) with rfl | hu
      · have harrival := hlast sthread List.mem_cons_self
        rw [Prod.Lex.toLex_lt_toLex]
        dsimp only
        omega
      · exact hfirst u hu

theorem CoreSorted.block (hsorted : CoreSorted x) (hinv : CoreInv x) (hidle : x.Idle t)
    (o : ObjId) (request : Request) (timeout : Int) (tick : Nat) :
    CoreSorted (x.block t o request timeout tick) := by
  generalize hblocked : x.block t o request timeout tick = x'
  have hfree : ∀ o side, ∀ u ∈ x.list o side, u ≠ t := by
    rintro o side u hu rfl
    exact hinv.idle_mem hidle o side hu
  have harrival : ∀ u, u ≠ t → x'.arrival u = x.arrival u := by
    intro u hu
    simp [← hblocked, Core.block, hu]
  have hself : x'.arrival t = x.arrivals ∧ x'.arrivals = x.arrivals + 1 := by
    simp [← hblocked, Core.block]
  have hpriority : ∀ u, (x'.view u).priority = (x.view u).priority := by
    intro u
    by_cases hu : u = t
    · subst hu
      simp [← hblocked, Core.block, Core.setView]
    · simp [← hblocked, Core.block, Core.setView, hu]
  have hkey : ∀ o side, ∀ u ∈ x.list o side, x'.key u = x.key u := by
    intro o side u hu
    rw [Core.key, Core.key, hpriority, harrival u (hfree o side u hu)]
  refine ⟨fun o' side hprio => ?_, fun o' side u hu => ?_⟩
  · have hold := (hsorted.sorted o' side (by rw [← hprio, ← hblocked]; rfl)).congr
      (hkey o' side)
    by_cases h : o' = o ∧ side = request.side
    · obtain ⟨rfl, rfl⟩ := h
      have hflag : x.flag o' = .prio := by
        rw [← hprio, ← hblocked]
        rfl
      rw [show x'.list o' request.side = _ from hblocked ▸ block_list_self, hflag]
      have hview : (fun u => (x.view u).priority) = fun u => (x'.view u).priority :=
        funext fun u => (hpriority u).symm
      rw [hview]
      refine insertByPriority_sorted hold fun u hu => ?_
      rw [harrival u (hfree _ _ u hu), hself.1]
      exact hsorted.arrived _ _ u hu
    · rw [show x'.list o' side = _ from hblocked ▸ block_list_of_ne h]
      exact hold
  · rw [hself.2]
    rw [← hblocked, mem_block] at hu
    rcases hu with hu | ⟨rfl, -, -⟩
    · rw [harrival u (hfree _ _ u hu)]
      exact Nat.lt_succ_of_lt (hsorted.arrived _ _ u hu)
    · rw [hself.1]
      exact Nat.lt_succ_self _

theorem key_setPriority (priority : Nat) :
    (x.setView t { x.view t with priority := priority }).key =
      update x.key t (toLex (priority, x.arrival t)) := by
  funext u
  by_cases hu : u = t
  · subst hu
    simp [Core.key, Core.setView]
  · simp [Core.key, Core.setView, hu]

theorem CoreSorted.priority (hsorted : CoreSorted x) {priority : Nat}
    (hkeeps : ∀ o side, x.flag o = .prio → t ∈ x.list o side →
      KeepsPlaceIn x.key t (toLex (priority, x.arrival t)) (x.list o side)) :
    CoreSorted (x.setView t { x.view t with priority := priority }) := by
  refine ⟨fun o side hprio => ?_, hsorted.arrived⟩
  have hold := hsorted.sorted o side hprio
  rw [key_setPriority]
  by_cases hmem : t ∈ x.list o side
  · exact (hold.update_iff hmem).mpr (hkeeps o side hprio hmem)
  · refine hold.congr fun u hu => update_of_ne ?_ _ _
    rintro rfl
    exact hmem hu

theorem CoreSorted.apply (hsorted : CoreSorted x) (hinv : CoreInv x) {e : Effect}
    (henabled : x.Enabled e)
    (hkeeps : ∀ t priority, e = .priority t priority → ∀ o side, x.flag o = .prio →
      t ∈ x.list o side →
        KeepsPlaceIn x.key t (toLex (priority, x.arrival t)) (x.list o side)) :
    CoreSorted (x.apply e) := by
  have hpriority : ∀ (t : Tid) (view : View), view.priority = (x.view t).priority →
      ∀ u, ((x.setView t view).view u).priority = (x.view u).priority := by
    intro t view hview u
    by_cases hu : u = t
    · subst hu
      simpa [Core.setView] using hview
    · simp [Core.setView, hu]
  cases e with
  | error t code =>
    exact hsorted.of_same rfl (fun _ _ => .refl _) (hpriority t _ rfl) rfl rfl
  | request t set option =>
    exact hsorted.of_same rfl (fun _ _ => .refl _) (fun _ => rfl) rfl rfl
  | object o object => exact hsorted.of_same rfl (fun _ _ => .refl _) (fun _ => rfl) rfl rfl
  | block t o request timeout tick => exact hsorted.block hinv henabled.1 ..
  | grant o side t received =>
    exact hsorted.of_same rfl (fun _ _ => List.filter_sublist)
      (hpriority t _ rfl) rfl rfl
  | refuse o side t | expire t =>
    refine hsorted.of_same rfl (fun _ _ => List.filter_sublist) (fun u => ?_) rfl rfl
    by_cases hu : u = t
    · subst hu
      simp [Core.apply, Core.wake, Core.setError, Core.setView]
    · simp [Core.apply, Core.wake, Core.setError, Core.setView, hu]
  | priority t priority => exact hsorted.priority (hkeeps t priority rfl)
  | finish t => exact hsorted.of_same rfl (fun _ _ => .refl _) (fun _ => rfl) rfl rfl

theorem flag_apply (e : Effect) : (x.apply e).flag = x.flag := by
  cases e <;> rfl

end Effects

namespace System

def key (s : System) (t : Tid) : Nat ×ₗ Nat := toLex (s.priority t, s.arrival t)

/-- A step that changes the priority of a thread on the wait list of an object with
`RT_IPC_FLAG_PRIO` lets it pass nobody. -/
def KeepsPlace (s : System) (op : BlockOp) : Prop :=
  ∀ change ∈ s.repriority op, ∀ wait ∈ s.wait change.1,
    s.flag wait.obj = .prio → change.1 ∈ s.list wait.obj wait.request.side →
      KeepsPlaceIn s.key change.1 (toLex (change.2, s.arrival change.1))
        (s.list wait.obj wait.request.side)

instance (s : System) (op : BlockOp) : Decidable (s.KeepsPlace op) :=
  inferInstanceAs (Decidable (∀ _ ∈ s.repriority op, _))

end System

section Steps

variable {cfg : Config} {s s' : System} {t : Tid}

theorem System.KeepsPlace.mem (hinv : SystemInv cfg s) {op : BlockOp} (hkeeps : s.KeepsPlace op)
    {priority : Nat} (hchange : s.repriority op = some (t, priority)) {o : ObjId}
    {side : Side} (hprio : s.flag o = .prio) (hmem : t ∈ s.list o side) :
    KeepsPlaceIn s.key t (toLex (priority, s.arrival t)) (s.list o side) := by
  obtain ⟨wait, hwait, rfl, rfl, -⟩ := (hinv.core.state t).of_mem hmem
  exact hkeeps (t, priority) hchange wait hwait hprio hmem

theorem CoreSorted.exec (hsorted : CoreSorted s.core) (hinv : SystemInv cfg s) {op : BlockOp}
    (hkeeps : s.KeepsPlace op) (hexec : s.exec cfg op = some s') : CoreSorted s'.core := by
  have hpath := (exec_moves hinv hexec).path
  suffices h : CoreInv s'.core ∧ CoreSorted s'.core ∧ s'.core.flag = s.core.flag from h.2.1
  refine hpath.invariant (fun x => CoreInv x ∧ CoreSorted x ∧ x.flag = s.core.flag)
    (fun x e x' hx hallowed hstep => ?_) ⟨hinv.core, hsorted, rfl⟩
  obtain ⟨hcore, hsorted, hflag⟩ := hx
  obtain ⟨henabled, rfl⟩ := coreMachine_exec hstep
  refine ⟨hcore.apply henabled, hsorted.apply hcore henabled ?_, (flag_apply e).trans hflag⟩
  intro t priority he o side hprio hmem
  obtain ⟨hchange, hsame⟩ := hallowed.2 t priority he
  have hkey : x.key = s.key := by
    funext u
    rw [Core.key, hsame.priority, hsame.arrival]
    rfl
  rw [hsame.list] at hmem ⊢
  rw [hflag] at hprio
  rw [hkey, hsame.arrival]
  exact hkeeps.mem hinv hchange hprio hmem

theorem keepsPlaceIn_of_sorted (hsorted : CoreSorted s.core) (after : System) {o : ObjId}
    {side : Side} {k : Nat ×ₗ Nat} (hprio : s.flag o = .prio) (hmem : t ∈ s.list o side)
    (hsub : (s.list o side).Sublist (after.list o side))
    (hkey : ∀ u ∈ s.list o side, after.key u = update s.key t k u)
    (hafter : SortedBy after.key (after.list o side)) :
    KeepsPlaceIn s.key t k (s.list o side) := by
  refine (SortedBy.update_iff (hsorted.sorted o side hprio) hmem).mp ?_
  exact (hafter.sublist hsub).congr fun u hu => (hkey u hu).symm

theorem key_changePriority (c : Nat) (priority : Nat) :
    (s.changePriority cfg c t priority).key = update s.key t (toLex (priority, s.arrival t)) := by
  have hcore := @core_changePriority cfg s c t priority
  exact (congrArg Core.key hcore).trans (key_setPriority priority)

theorem listSuspend_sublist {flag : IpcFlag} {priority : Tid → Nat} {list : List Tid} :
    list.Sublist (listSuspend flag priority t list) := by
  cases flag with
  | fifo => exact List.sublist_append_left list [t]
  | prio =>
    induction list with
    | nil => exact List.nil_sublist _
    | cons sthread rest ih =>
      simp only [listSuspend, insertByPriority]
      split
      · exact List.sublist_cons_self _ _
      · exact ih.cons_cons sthread

theorem rtMutexTake_inherited {c : Nat} {o : ObjId} {mutex : MutexState} {time : Int}
    {owner : Tid} {priority : Nat} (hchange : s.inherited t mutex time = some (owner, priority))
    (hexec : s.rtMutexTake cfg c t o mutex time = some s') :
    ((s.setError t rtEok).changePriority cfg c owner priority).block cfg c t o .mutexTake time =
      some s' := by
  unfold inherited at hchange
  split at hchange
  · cases hchange
  next owner' howner =>
    split at hchange
    next hwaits =>
      cases hchange
      obtain ⟨hother, hvalue, htime, hlower⟩ := hwaits
      unfold System.rtMutexTake at hexec
      split at hexec
      · have hzero : ¬ 0 < mutex.value := Nat.not_lt.mpr (Nat.le_of_eq hvalue)
        simp only [howner, Option.some.injEq, hother, hzero, if_false] at hexec
        unfold inheritPriority at hexec
        rw [priority_setError, priority_setError, if_pos hlower] at hexec
        exact hexec
      · cases hexec
    · cases hchange

theorem key_block {o : ObjId} {request : Request} {timeout : Int} {tick : Nat} {x : Core}
    {u : Tid} (hu : u ≠ t) : (x.block t o request timeout tick).key u = x.key u := by
  simp [Core.key, Core.block, Core.setView, hu]

theorem block_sublist {o o' : ObjId} {request : Request} {timeout : Int} {tick : Nat}
    {x : Core} {side : Side} :
    (x.list o' side).Sublist ((x.block t o request timeout tick).list o' side) := by
  by_cases h : o' = o ∧ side = request.side
  · obtain ⟨rfl, rfl⟩ := h
    rw [block_list_self]
    exact listSuspend_sublist
  · rw [block_list_of_ne h]

theorem KeepsPlace.of_exec (hsorted : CoreSorted s.core) (hinv : SystemInv cfg s)
    {op : BlockOp} (hexec : s.exec cfg op = some s')
    (hsorted' : ∀ o side, s'.flag o = .prio → SortedBy s'.key (s'.list o side)) :
    s.KeepsPlace op := by
  rintro ⟨u, priority⟩ hchange wait hwait hprio hmem
  have hflag : s'.flag = s.flag := by
    refine (exec_moves hinv hexec).path.invariant (fun x => x.flag = s.flag)
      (fun x e x' hx _ hstep => ?_) rfl
    rw [(coreMachine_exec hstep).2, flag_apply, hx]
  have hafter := hsorted' wait.obj wait.request.side (by rw [hflag]; exact hprio)
  unfold exec at hexec
  split at hexec
  next hc =>
    cases op with
    | changePriority c t' priority' =>
      cases hchange
      dsimp only at hexec
      split at hexec
      · cases hexec
        have hkey : (s.changePriority cfg c u priority).key = _ :=
          key_changePriority c priority
        exact keepsPlaceIn_of_sorted hsorted (s.changePriority cfg c u priority) hprio hmem
          (.refl _) (fun v _ => congrFun hkey v) hafter
      · cases hexec
    | call c o call =>
      obtain ⟨t, hcurrent, hcall⟩ := Option.bind_eq_some_iff.mp hexec
      cases call with
      | mutexTake time =>
        simp only [repriority, hcurrent, Option.mem_def] at hchange
        split at hchange
        next t' mutex heq hobject =>
          cases heq
          simp only [call, hobject] at hcall
          have hblock := rtMutexTake_inherited hchange hcall
          have hlive : Live cfg (s.setError t rtEok).kernel := hinv.live.setThread rfl rfl
          obtain ⟨hcan, hcore, -⟩ := block_spec
            (show Live cfg ((s.setError t rtEok).changePriority cfg c u priority).kernel
              from hlive.changePriority c u priority) hc hblock
          have hfree : ∀ v ∈ s.list wait.obj wait.request.side, v ≠ t := by
            rintro v hv rfl
            obtain ⟨wait', hwait', -⟩ := (hinv.core.state v).of_mem hv
            rw [show s.core.wait v = none from hcan.2.2] at hwait'
            cases hwait'
          refine keepsPlaceIn_of_sorted hsorted s' hprio hmem ?_ (fun v hv => ?_) hafter
          · rw [show s'.list = _ from congrArg Core.list hcore]
            exact block_sublist
              (x := ((s.setError t rtEok).changePriority cfg c u priority).core)
          · rw [show s'.key = _ from congrArg Core.key hcore, key_block (hfree v hv)]
            have hkey : ((s.setError t rtEok).changePriority cfg c u priority).key = _ :=
              key_changePriority c priority
            rw [show (s.setError t rtEok).key = s.key from
              funext fun w => by rw [key, priority_setError]; rfl] at hkey
            exact congrFun hkey v
        · cases hchange
      | mutexRelease =>
        simp only [repriority, hcurrent, Option.mem_def] at hchange
        split at hchange
        next t' mutex heq hobject =>
          cases heq
          simp only [call, hobject] at hcall
          unfold restored at hchange
          split at hchange
          · cases hchange
            unfold System.rtMutexRelease at hcall
            split at hcall
            next hcan =>
              rw [Option.mem_def, hcan.2.2] at hwait
              cases hwait
            · cases hcall
          · cases hchange
        · cases hchange
      | semTake _ | semRelease | semReset _ | eventSend _ | eventRecv _ _ _ | eventReset
      | mbSend _ | mbSendWait _ _ | mbRecv _ | mbReset | mqLink | mqRecv _ | mqReset =>
        cases hchange
    | schedule _ | doIrqSwitch _ | ipiHandler _ | interruptEnter _ | interruptLeave _
    | proceed _ | timeout _ _ | tick _ => cases hchange
  · cases hexec

end Steps

/-- The waiters of an object with `RT_IPC_FLAG_PRIO` wait in the order of their
priorities, those of one priority as they have blocked, and the one that a release
or a send resumes has a highest priority. -/
structure PriorityOrderOk (s : System) : Prop where
  sorted : ∀ o side, s.flag o = .prio → (s.list o side).Pairwise fun t u =>
    s.priority t < s.priority u ∨ s.priority t = s.priority u ∧ s.arrival t < s.arrival u
  wakes : ∀ cfg c o side, s.flag o = .prio → s.list o side ≠ [] →
    ∃ first ∈ s.list o side, s.listResume cfg c o side = s.grant cfg c o side first ∧
      ∀ t ∈ s.list o side, s.priority first ≤ s.priority t

section Order

variable {cfg : Config} {s : System}

theorem priorityOrderOk_iff : PriorityOrderOk s ↔
    ∀ o side, s.flag o = .prio → SortedBy s.key (s.list o side) := by
  have hkey : ∀ t u, s.key t < s.key u ↔ s.priority t < s.priority u ∨
      s.priority t = s.priority u ∧ s.arrival t < s.arrival u :=
    fun t u => Prod.Lex.toLex_lt_toLex
  constructor
  · intro hok o side hprio
    exact (hok.sorted o side hprio).imp fun h => (hkey _ _).mpr h
  · intro hsorted
    refine ⟨fun o side hprio => (hsorted o side hprio).imp fun h => (hkey _ _).mp h,
      fun cfg c o side hprio hsome => ?_⟩
    obtain ⟨first, rest, hlist⟩ := List.exists_cons_of_ne_nil hsome
    refine ⟨first, by simp [hlist], by simp [listResume, hlist], fun t ht => ?_⟩
    have hfirst := hsorted o side hprio
    rw [hlist] at hfirst ht
    rcases List.mem_cons.mp ht with rfl | ht
    · exact Nat.le_refl _
    · rcases (hkey _ _).mp ((SortedBy.cons_iff.mp hfirst).1 t ht) with hlt | ⟨heq, -⟩
      · exact Nat.le_of_lt hlt
      · exact Nat.le_of_eq heq

structure SortedInv (cfg : Config) (s : System) : Prop extends SystemInv cfg s where
  sorted : CoreSorted s.core

theorem System.Initial.sortedInv (hinit : s.Initial cfg) : SortedInv cfg s := by
  refine ⟨hinit.inv, fun o side _ => ?_, fun o side t ht => ?_⟩
  · rw [show s.core.list o side = [] from (hinit.lists o side).1]
    exact SortedBy.nil
  · rw [show s.core.list o side = [] from (hinit.lists o side).1] at ht
    cases ht

/-- If no waiter passes another, the waiters are always in order; the first that does
ends that. -/
theorem reachable_priorityOrderOk
    (hreach : (blockMachine cfg).Reachable (fun s op => s.KeepsPlace op) s) :
    PriorityOrderOk s ∧ ∀ op s', s.exec cfg op = some s' →
      (PriorityOrderOk s' ↔ s.KeepsPlace op) := by
  have hinv : SortedInv cfg s := hreach.invariant (SortedInv cfg)
    (fun _ => Initial.sortedInv) fun _ _ _ hinv hkeeps hexec =>
      ⟨(exec_moves hinv.toSystemInv hexec).inv hinv.toSystemInv,
        hinv.sorted.exec hinv.toSystemInv hkeeps hexec⟩
  refine ⟨priorityOrderOk_iff.mpr hinv.sorted.sorted, fun op s' hexec => ?_⟩
  rw [priorityOrderOk_iff]
  constructor
  · exact KeepsPlace.of_exec hinv.sorted hinv.toSystemInv hexec
  · intro hkeeps
    exact (hinv.sorted.exec hinv.toSystemInv hkeeps hexec).sorted

end Order

def pairStart : System :=
  { blockStart with
    kernel := rtScheduleInsertThread (Config.flat 2) 0 3 (busyKernel.unlink 3) }

theorem pairStart_initial : pairStart.Initial (Config.flat 2) := by
  have hthread : ∀ t, pairStart.kernel.thread t = update busyKernel.thread 3
      { busyKernel.thread 3 with stat := .ready } t := by
    intro t
    simp [pairStart, rtScheduleInsertThread_thread]
  obtain ⟨hlive, hawake, hlists, hmutex, hmailbox⟩ := blockStart_initial
  refine ⟨busyKernel_live.wake 0 3, fun t => ?_, hlists, hmutex, hmailbox⟩
  obtain ⟨hstat, htimer, hwait⟩ := hawake t
  simp only [stat, timerActive, hthread]
  by_cases ht : t = 3
  · subst ht
    simp only [update_self]
    exact ⟨by simp, htimer, hwait⟩
  · simp only [update_of_ne ht]
    exact ⟨hstat, htimer, hwait⟩

/-- Threads 2 and 3 wait on a semaphore; the priority of thread 3 goes up, but not past
that of thread 2. -/
theorem reachable_priorityOrderOk_pair :
    ∃ s, (blockMachine (Config.flat 2)).Reachable (fun s op => s.KeepsPlace op) s ∧
      s.list 0 .receiver = [2, 3] ∧ s.priority 3 = 9 ∧ PriorityOrderOk s := by
  have hrun : ((blockMachine (Config.flat 2)).run (fun s op => s.KeepsPlace op) pairStart
      [.changePriority 0 3 20, .call 1 0 (.semTake 10), .schedule 1, .call 1 0 (.semTake 10),
        .schedule 1, .changePriority 0 3 9]).map
        (fun s => (s.list 0 .receiver, s.priority 3)) = some ([2, 3], 9) := by
    decide +kernel
  obtain ⟨s, hreach, hvalue⟩ := Machine.exists_reachable_of_run pairStart_initial hrun
  simp only [Prod.mk.injEq] at hvalue
  exact ⟨s, hreach, hvalue.1, hvalue.2, (reachable_priorityOrderOk hreach).1⟩

/-- Thread 3 waits behind thread 2 and gets a higher priority than that. -/
theorem priorityOrderOk_fails_after_changePriority :
    ∃ s, (blockMachine (Config.flat 2)).Reachable (fun _ _ => True) s ∧
      s.flag 0 = .prio ∧ s.list 0 .receiver = [2, 3] ∧ s.priority 3 < s.priority 2 ∧
      ¬ PriorityOrderOk s := by
  have hrun : ((blockMachine (Config.flat 2)).run (fun _ _ => True) pairStart
      [.changePriority 0 3 20, .call 1 0 (.semTake 10), .schedule 1, .call 1 0 (.semTake 10),
        .schedule 1, .changePriority 0 3 5]).map
        (fun s => (s.flag 0, s.list 0 .receiver, s.priority 2, s.priority 3)) =
          some (.prio, [2, 3], 8, 5) := by
    decide +kernel
  obtain ⟨s, hreach, hvalue⟩ := Machine.exists_reachable_of_run pairStart_initial hrun
  simp only [Prod.mk.injEq] at hvalue
  obtain ⟨hflag, hlist, htwo, hthree⟩ := hvalue
  refine ⟨s, hreach, hflag, hlist, by omega, fun hok => ?_⟩
  have hpair := hok.sorted 0 .receiver hflag
  rw [hlist] at hpair
  have hfirst := (List.pairwise_cons.mp hpair).1 3 (by simp)
  omega

end RtThread.Blocking
