import RtThread.Blocking.Sections
import Mathlib.Data.List.Nodup

namespace RtThread.Blocking

open RtThread.Lib RtThread.Scheduler

def OwnerOk (x : Core) (o : ObjId) : Prop :=
  ∀ mutex, x.object o = .mutex mutex → ∀ t, mutex.owner = some t →
    ∀ wait, x.wait t = some wait → wait.obj = o → t ∈ x.granted o wait.request.side

section Owner

variable {x x' : Core} {o : ObjId}

theorem OwnerOk.of_same (hok : OwnerOk x o) (hobject : x'.object o = x.object o)
    (hwait : ∀ t wait, x'.wait t = some wait → wait.obj = o → x.wait t = some wait)
    (hgranted : ∀ t wait side, x'.wait t = some wait → t ∈ x.granted o side →
      t ∈ x'.granted o side) : OwnerOk x' o := by
  intro mutex hmutex t howner wait hw hobj
  rw [hobject] at hmutex
  exact hgranted t wait _ hw (hok mutex hmutex t howner wait (hwait t wait hw hobj) hobj)

theorem OwnerOk.finish (hok : OwnerOk x o) (t : Tid) : OwnerOk (x.finish t) o := by
  have hne : ∀ u wait, (x.finish t).wait u = some wait → u ≠ t := by
    rintro u wait hwait rfl
    simp [Core.finish] at hwait
  refine hok.of_same rfl (fun u wait hwait _ => ?_) (fun u wait side hwait hmem => ?_)
  · simpa [Core.finish, hne u wait hwait] using hwait
  · simpa [Core.finish, hne u wait hwait] using hmem

theorem OwnerOk.apply (hok : OwnerOk x o) {e : Effect} (htouches : ¬ e.Touches x o) :
    OwnerOk (x.apply e) o := by
  cases e with
  | error t code => exact hok.of_same rfl (fun _ _ h _ => h) (fun _ _ _ _ h => h)
  | request t set option => exact hok.of_same rfl (fun _ _ h _ => h) (fun _ _ _ _ h => h)
  | object o' object =>
    have hne : o ≠ o' := fun h => htouches h.symm
    exact hok.of_same (by simp [Core.apply, hne]) (fun _ _ h _ => h) (fun _ _ _ _ h => h)
  | block t o' request timeout tick =>
    refine hok.of_same rfl (fun u wait hwait hobj => ?_) (fun _ _ _ _ h => h)
    by_cases hu : u = t
    · subst hu
      simp only [Core.apply, Core.block, Function.update_self, Option.some.injEq] at hwait
      subst hwait
      exact absurd hobj htouches
    · simpa [Core.apply, Core.block, hu] using hwait
  | grant o' side t received =>
    refine hok.of_same rfl (fun _ _ h _ => h) (fun u wait side' _ hmem => ?_)
    exact mem_grant.mpr (.inl hmem)
  | refuse o' side t => exact hok.of_same rfl (fun _ _ h _ => h) (fun _ _ _ _ h => h)
  | expire t => exact hok.of_same rfl (fun _ _ h _ => h) (fun _ _ _ _ h => h)
  | priority t priority => exact hok.of_same rfl (fun _ _ h _ => h) (fun _ _ _ _ h => h)
  | finish t => exact hok.finish t

theorem OwnerOk.path (hok : OwnerOk x o) {allowed : Core → Effect → Prop}
    (htouches : ∀ x e, allowed x e → ¬ e.Touches x o)
    (hpath : coreMachine.Path allowed x x') : OwnerOk x' o := by
  refine hpath.invariant (OwnerOk · o) (fun x e x' hok hallowed hexec => ?_) hok
  obtain ⟨-, rfl⟩ := coreMachine_exec hexec
  exact hok.apply (htouches x e hallowed)

theorem ownerOk_object {mutex : MutexState}
    (hidle : ∀ t, mutex.owner = some t → x.wait t = none) :
    OwnerOk (x.apply (.object o (.mutex mutex))) o := by
  intro mutex' hmutex t howner wait hwait
  simp only [Core.apply, Function.update_self, IpcObject.mutex.injEq] at hmutex
  subst hmutex
  have hw : x.wait t = some wait := hwait
  rw [hidle t howner] at hw
  cases hw

theorem ownerOk_of_kind (hkind : (x.object o).kind ≠ .mutex) : OwnerOk x o := by
  intro mutex hmutex
  rw [hmutex] at hkind
  exact absurd rfl hkind

end Owner

section Mutex

variable {cfg : Config} {s s' : System} {c : Nat} {t : Tid} {o : ObjId}

theorem OwnerOk.block (hok : OwnerOk s.core o) {mutex : MutexState}
    (hmutex : s.object o = .mutex mutex) (hother : mutex.owner ≠ some t)
    (request : Request) (timeout : Int) (tick : Nat) :
    OwnerOk (s.core.block t o request timeout tick) o := by
  intro mutex' hmutex' u howner wait hwait hobj
  cases hmutex.symm.trans hmutex'
  have hu : u ≠ t := by
    rintro rfl
    exact hother howner
  refine hok mutex hmutex' u howner wait ?_ hobj
  simpa [Core.block, hu] using hwait

theorem OwnerOk.mutexTake (hok : OwnerOk s.core o) (hinv : SystemInv cfg s)
    (hc : c < cfg.cpusNr) {mutex : MutexState} {time : Int}
    (hmutex : s.object o = .mutex mutex)
    (hexec : s.rtMutexTake cfg c t o mutex time = some s') : OwnerOk s'.core o := by
  unfold System.rtMutexTake at hexec
  split at hexec
  next hcan =>
    have hnone : s.wait t = none := hcan.2.2
    have hmark : OwnerOk (s.setError t rtEok).core o := by
      rw [core_setError]
      exact hok.apply (e := .error t rtEok) id
    dsimp only at hexec
    split at hexec
    next howner =>
      cases hexec
      refine ownerOk_object (x := (s.setError t rtEok).core) fun u hu => ?_
      cases howner.symm.trans hu
      exact hnone
    next hother =>
      split at hexec
      · cases hexec
        refine ownerOk_object (x := (s.setError t rtEok).core) fun u hu => ?_
        cases hu
        exact hnone
      · split at hexec
        · cases hexec
          have hgive := hmark.apply (e := .error t (-rtEtimeout)) id
          refine Eq.mpr (congrArg (OwnerOk · o) ?_) hgive
          exact core_setError _
        · split at hexec
          · cases hexec
          next owner howner =>
            have hboost : OwnerOk ((s.setError t rtEok).inheritPriority cfg c t owner).core o ∧
                ((s.setError t rtEok).inheritPriority cfg c t owner).object = s.object ∧
                Live cfg ((s.setError t rtEok).inheritPriority cfg c t owner).kernel := by
              have hlive : Live cfg (s.setError t rtEok).kernel := hinv.live.setThread rfl rfl
              unfold System.inheritPriority
              split
              · refine ⟨?_, rfl, hlive.changePriority c owner _⟩
                rw [core_changePriority]
                exact hmark.apply (e := .priority owner _) id
              · exact ⟨hmark, rfl, hlive⟩
            obtain ⟨hok, hobject, hlive⟩ := hboost
            obtain ⟨-, hcore, -⟩ := block_spec hlive hc hexec
            rw [hcore]
            exact hok.block (by rw [hobject, hmutex]) hother _ _ _
  · cases hexec

theorem OwnerOk.mutexRelease (hok : OwnerOk s.core o) (hinv : SystemInv cfg s)
    {mutex : MutexState} (hmutex : s.object o = .mutex mutex)
    (hexec : s.rtMutexRelease cfg c t o mutex = some s') : OwnerOk s'.core o := by
  unfold System.rtMutexRelease at hexec
  split at hexec
  next hcan =>
    have hnone : s.wait t = none := hcan.2.2
    split at hexec
    · cases hexec
      have hmark := hok.apply (e := .error t (-rtError)) id
      refine Eq.mpr (congrArg (OwnerOk · o) ?_) hmark
      exact core_setError _
    next howner =>
      rw [not_not] at howner
      split at hexec
      next hhold =>
        cases hexec
        show OwnerOk (s.mutexRelease cfg c t o mutex).core o
        unfold System.mutexRelease
        dsimp only
        generalize hrestored : s.restorePriority cfg c t mutex.originalPriority = restored
        have hmoves : Moves cfg (fun _ _ => True) s restored := by
          rw [← hrestored]
          unfold System.restorePriority
          split
          · exact .changePriority hinv trivial
          · exact .refl hinv
        have hinv' := hmoves.inv hinv
        split
        · refine ownerOk_object (x := restored.core) fun u hu => ?_
          cases hu
        next next rest hlist =>
          -- the new owner is the one that is resumed
          generalize hset : restored.setObject o _ = set
          have hlist' : set.list o .receiver = next :: rest := by rw [← hset, ← hlist]; rfl
          have hsetinv : SystemInv cfg set := by
            rw [← hset]
            exact hinv'.setObject (by simp [← hrestored, hmutex])
          have hmem : next ∈ set.list o .receiver := by
            rw [hlist']
            exact List.mem_cons_self
          unfold System.listResume
          rw [hlist']
          obtain ⟨hcore, -⟩ := core_grant (c := c) (o := o) hsetinv.live
            (hsetinv.stat_of_mem hmem) .receiver
          dsimp only
          rw [hcore]
          intro mutex' hmutex' u hu wait hwait hobj
          have hmutex'' : set.object o = .mutex mutex' := hmutex'
          rw [← hset] at hmutex''
          simp only [System.setObject, Function.update_self, IpcObject.mutex.injEq] at hmutex''
          subst hmutex''
          cases hu
          obtain ⟨wait', hwait', rfl, hside, -⟩ := (hsetinv.core.state next).of_mem hmem
          cases hwait'.symm.trans hwait
          exact mem_grant.mpr (.inr ⟨rfl, rfl, hside.symm⟩)
      · cases hexec
        refine ownerOk_object (x := s.core) fun u hu => ?_
        cases howner.symm.trans hu
        exact hnone
  · cases hexec

theorem OwnerOk.call (hok : OwnerOk s.core o) (hinv : SystemInv cfg s) (hc : c < cfg.cpusNr)
    (hkind : (s.object o).kind = .mutex) {call : Call}
    (hexec : s.call cfg c t o call = some s') : OwnerOk s'.core o := by
  unfold System.call at hexec
  split at hexec <;> (try (rename_i hobject; rw [hobject] at hkind; cases hkind; done))
  next mutex time hobject => exact hok.mutexTake hinv hc hobject hexec
  next mutex hobject => exact hok.mutexRelease hinv hobject hexec
  · cases hexec

theorem OwnerOk.resumeCall {wait : Wait} (hok : OwnerOk s.core wait.obj)
    (hkind : (s.object wait.obj).kind = .mutex)
    (hexec : s.resumeCall cfg c t wait = some s') : OwnerOk s'.core wait.obj := by
  rcases resumeCall_cases hexec with hcore | hother
  · rw [hcore]
    exact hok.finish t
  · rw [hkind] at hother
    rcases hother with hother | hother <;> cases hother

theorem OwnerOk.exec (hok : OwnerOk s.core o) (hinv : SystemInv cfg s) {op : BlockOp}
    (hexec : s.exec cfg op = some s') : OwnerOk s'.core o := by
  by_cases hkind : (s.object o).kind = .mutex
  · by_cases htarget : op.target s = some o
    · rcases exec_target_cases htarget hexec with
        ⟨c, t, call, -, hc, hcall⟩ | ⟨c, t, wait, -, hc, -, -, rfl, hresume⟩
      · exact hok.call hinv hc hkind hcall
      · exact hok.resumeCall hkind hresume
    · refine hok.path (fun x e hallowed htouches => ?_) (exec_moves hinv hexec).path
      exact htarget (hallowed.1 o htouches)
  · refine ownerOk_of_kind ?_
    rw [show (s'.core.object o).kind = _ from exec_kind hinv hexec o]
    exact hkind

end Mutex

/-- How the wait of `t` stands.  Either it sleeps on the list of its object, nobody has
woken it and its timer runs if the time is limited; or it was woken once, it is READY
and runs or is queued, on no list and its timer stopped, and its error code says by
whom.  Only a thread woken by a grant has been given anything. -/
def WaitOutcome (cfg : Config) (s : System) (t : Tid) (wait : Wait) : Prop :=
  (s.stat t = .suspend ∧ s.wakers t = [] ∧ s.error t = rtEok ∧
      s.timerActive t = decide (0 < wait.timeout) ∧
      (s.list wait.obj wait.request.side).count t = 1 ∧
      (∀ o side, t ∈ s.list o side → o = wait.obj ∧ side = wait.request.side) ∧
      (∀ o side, t ∉ s.granted o side) ∧
      ∀ o mutex, wait.obj = o → s.object o = .mutex mutex → mutex.owner ≠ some t) ∨
    ∃ waker, s.wakers t = [waker] ∧ s.stat t = .ready ∧
      (s.kernel.Running cfg t ∨ s.kernel.Linked t) ∧ s.timerActive t = false ∧
      (∀ o side, t ∉ s.list o side) ∧ s.error t = waker.code ∧
      (waker = .grant → (s.granted wait.obj wait.request.side).count t = 1) ∧
      (waker ≠ .grant → (∀ o side, t ∉ s.granted o side) ∧
        ∀ o mutex, wait.obj = o → s.object o = .mutex mutex → mutex.owner ≠ some t)

structure OutcomeInv (cfg : Config) (s : System) : Prop extends SystemInv cfg s where
  owner : ∀ o, OwnerOk s.core o

theorem OutcomeInv.waitOutcome {cfg : Config} {s : System} (hinv : OutcomeInv cfg s) {t : Tid}
    {wait : Wait} (hwait : s.wait t = some wait) : WaitOutcome cfg s t wait := by
  have hnotOwner : (∀ o side, t ∉ s.granted o side) → ∀ o mutex, wait.obj = o →
      s.object o = .mutex mutex → mutex.owner ≠ some t := by
    intro hfree o mutex hobj hmutex howner
    exact hfree _ _ (hinv.owner o mutex hmutex t howner wait hwait hobj)
  have hstate := hinv.core.state t
  cases hstate with
  | outside hnone =>
    cases hwait.symm.trans hnone
  | asleep wait' hwait' hstat herror htimer hwakers hlist hgranted =>
    cases hwait.symm.trans hwait'
    refine .inl ⟨hstat, hwakers, herror, htimer, ?_, fun o side => (hlist o side).mp,
      hgranted, hnotOwner hgranted⟩
    exact List.count_eq_one_of_mem (hinv.core.nodup _ _) ((hlist _ _).mpr ⟨rfl, rfl⟩)
  | woken wait' waker hwait' hstat herror htimer hwakers hlist hgranted =>
    cases hwait.symm.trans hwait'
    refine .inr ⟨waker, hwakers, hstat, hinv.live.served t hstat, htimer, hlist, herror,
      fun hgrant => ?_, fun hother => ?_⟩
    · exact List.count_eq_one_of_mem (hinv.core.grants _ _)
        ((hgranted _ _).mpr ⟨hgrant, rfl, rfl⟩)
    · have hfree : ∀ o side, t ∉ s.granted o side :=
        fun o side hmem => hother ((hgranted o side).mp hmem).1
      exact ⟨hfree, hnotOwner hfree⟩

theorem System.Initial.outcomeInv {cfg : Config} {s : System} (hinit : s.Initial cfg) :
    OutcomeInv cfg s := by
  refine ⟨hinit.inv, fun o mutex hmutex t howner => ?_⟩
  rw [hinit.mutex o mutex hmutex] at howner
  cases howner

theorem OutcomeInv.exec {cfg : Config} {s s' : System} {op : BlockOp}
    (hinv : OutcomeInv cfg s) (hexec : s.exec cfg op = some s') : OutcomeInv cfg s' :=
  ⟨(exec_moves hinv.toSystemInv hexec).inv hinv.toSystemInv,
    fun o => (hinv.owner o).exec hinv.toSystemInv hexec⟩

/-- In every state between two sections, whatever the order in which the blocked
thread, its wakers and the timer take their turns. -/
theorem reachable_waitOutcome {cfg : Config} {s : System}
    (hreach : (blockMachine cfg).Reachable (fun _ _ => True) s) {t : Tid} {wait : Wait}
    (hwait : s.wait t = some wait) : WaitOutcome cfg s t wait := by
  have hinv : OutcomeInv cfg s := hreach.invariant (OutcomeInv cfg)
    (fun _ => System.Initial.outcomeInv) fun _ _ _ hinv _ hexec => hinv.exec hexec
  exact hinv.waitOutcome hwait

/-- Thread 2 waits for the semaphore, its timer expires before it gets to `rt_schedule`,
and a release comes too late: it runs on with its error code, the token stays. -/
theorem reachable_waitOutcome_expiry :
    ∃ s wait, (blockMachine (Config.flat 2)).Reachable (fun _ _ => True) s ∧
      s.wait 2 = some wait ∧ s.wakers 2 = [.expiry] ∧ s.error 2 = -rtEtimeout ∧
      WaitOutcome (Config.flat 2) s 2 wait := by
  have hrun : ((blockMachine (Config.flat 2)).run (fun _ _ => True) blockStart
      [.call 1 0 (.semTake 5), .interruptEnter 0, .timeout 0 2, .interruptLeave 0,
        .call 0 0 .semRelease, .schedule 1]).map
        (fun s => (s.wait 2, s.wakers 2, s.error 2)) =
      some (some ⟨0, .semTake, 5, 0⟩, [.expiry], -rtEtimeout) := by
    decide +kernel
  obtain ⟨s, hreach, hvalue⟩ := Machine.exists_reachable_of_run blockStart_initial hrun
  simp only [Prod.mk.injEq] at hvalue
  obtain ⟨hwait, hwakers, herror⟩ := hvalue
  exact ⟨s, _, hreach, hwait, hwakers, herror, reachable_waitOutcome hreach hwait⟩

end RtThread.Blocking
