import RtThread.Blocking.Calls
import RtThread.Blocking.Outcome

namespace RtThread.Blocking

open Function RtThread.Ipc RtThread.Scheduler Blocking.System

/-! Every section is a run of effects, and loses no READY thread. -/

/-- The effect changes the object, lets a thread block on it or ends a wait there that
is not over yet; expiries and resets are not counted. -/
def Effect.Touches (x : Core) (o : ObjId) : Effect → Prop
  | .object o' _ => o' = o
  | .block _ o' _ _ _ => o' = o
  | .grant o' _ _ _ => o' = o
  | .finish t => ∃ wait, x.wait t = some wait ∧ wait.obj = o
  | .error .. | .request .. | .refuse .. | .expire _ | .priority .. => False

def Effect.IsPriority : Effect → Prop
  | .priority .. => True
  | _ => False

structure SystemInv (cfg : Config) (s : System) : Prop where
  live : Live cfg s.kernel
  core : CoreInv s.core

structure Moves (cfg : Config) (allowed : Core → Effect → Prop) (s s' : System) : Prop where
  live : Live cfg s'.kernel
  path : coreMachine.Path allowed s.core s'.core

/-- All effects on object `o` are allowed, but for changes of priorities. -/
def OnObject (allowed : Core → Effect → Prop) (o : ObjId) : Prop :=
  ∀ x e, (∀ o', e.Touches x o' → o' = o) → ¬ e.IsPriority → allowed x e

section Moves

variable {cfg : Config} {allowed : Core → Effect → Prop} {s s' s'' : System}

theorem Moves.refl (hinv : SystemInv cfg s) : Moves cfg allowed s s := ⟨hinv.live, .refl⟩

theorem Moves.trans (hfirst : Moves cfg allowed s s') (hsecond : Moves cfg allowed s' s'') :
    Moves cfg allowed s s'' :=
  ⟨hsecond.live, hfirst.path.trans hsecond.path⟩

theorem Moves.inv (hmoves : Moves cfg allowed s s') (hinv : SystemInv cfg s) : SystemInv cfg s' :=
  ⟨hmoves.live, hinv.core.path hmoves.path⟩

theorem Moves.of_core (hmoves : Moves cfg allowed s s') (hkernel : s''.kernel = s'.kernel)
    (hcore : s''.core = s'.core) : Moves cfg allowed s s'' :=
  ⟨hkernel ▸ hmoves.live, hcore ▸ hmoves.path⟩

theorem Moves.returns (hmoves : Moves cfg allowed s s') (code : Int) :
    Moves cfg allowed s (s'.returns code) :=
  hmoves.of_core rfl rfl

theorem Moves.effect {e : Effect} (henabled : s.core.Enabled e) (hallowed : allowed s.core e)
    (hcore : s'.core = s.core.apply e) (hlive : Live cfg s'.kernel) :
    Moves cfg allowed s s' := by
  refine ⟨hlive, .single hallowed ?_⟩
  simp only [coreMachine]
  rw [if_pos henabled, hcore]

end Moves

section Object

variable {cfg : Config} {s s' : System} {c : Nat} {t : Tid} {o : ObjId}

@[simp] theorem object_setError (code : Int) : (s.setError t code).object = s.object := rfl

@[simp] theorem object_returns (code : Int) : (s.returns code).object = s.object := rfl

@[simp] theorem object_setObject (object : IpcObject) :
    (s.setObject o object).object o = object := by
  simp [setObject]

@[simp] theorem object_resume (waker : Waker) : (s.resume cfg c t waker).object = s.object := by
  unfold resume
  split <;> rfl

@[simp] theorem object_grant (side : Side) : (s.grant cfg c o side t).object = s.object :=
  object_resume .grant

@[simp] theorem object_listResume (side : Side) :
    (s.listResume cfg c o side).object = s.object := by
  unfold System.listResume
  split
  · rfl
  · exact object_grant side

theorem object_block {request : Request} {timeout : Int}
    (hexec : s.block cfg c t o request timeout = some s') : s'.object = s.object := by
  unfold block at hexec
  split at hexec
  · obtain ⟨_, -, rfl⟩ := Option.map_eq_some_iff.mp hexec
    rfl
  · cases hexec

@[simp] theorem object_inheritPriority {owner : Tid} :
    (s.inheritPriority cfg c t owner).object = s.object := by
  unfold inheritPriority
  split <;> rfl

@[simp] theorem object_restorePriority {priority : Nat} :
    (s.restorePriority cfg c t priority).object = s.object := by
  unfold System.restorePriority
  split <;> rfl

end Object

section Primitives

variable {cfg : Config} {allowed : Core → Effect → Prop} {s s' : System} {c : Nat} {t : Tid}
  {o : ObjId}

theorem threadView_of_sameWait {old new : Thread} (hsame : SameWait old new) :
    threadView new = threadView old := by
  simp [threadView, hsame.stat, hsame.error, hsame.timerActive, hsame.priority]

theorem core_withKernel {k : Kernel} (hsame : ∀ t, SameWait (s.kernel.thread t) (k.thread t)) :
    (s.withKernel k).core = s.core := by
  have hview : (fun t => threadView (k.thread t)) = fun t => threadView (s.kernel.thread t) :=
    funext fun t => threadView_of_sameWait (hsame t)
  simp only [core, withKernel, hview]

theorem view_setThread {k : Kernel} {thread : Thread} :
    (fun u => threadView ((k.setThread t thread).thread u)) =
      update (fun u => threadView (k.thread u)) t (threadView thread) := by
  funext u
  by_cases hu : u = t
  · subst hu
    simp
  · simp [hu]

theorem core_setError (code : Int) : (s.setError t code).core = s.core.setError t code := by
  simp only [core, System.setError, Core.setError, Core.setView, view_setThread]
  rfl

theorem canCall_idle (hcan : s.CanCall c t) : s.core.Idle t := ⟨hcan.2.1, hcan.2.2⟩

theorem idle_setError {code : Int} (hidle : s.core.Idle t) : (s.setError t code).core.Idle t := by
  rw [core_setError]
  refine ⟨?_, hidle.2⟩
  simpa [Core.setError, Core.setView] using hidle.1

theorem Moves.setError (hinv : SystemInv cfg s) (hon : OnObject allowed o)
    (hidle : s.core.Idle t) (code : Int) : Moves cfg allowed s (s.setError t code) :=
  .effect (e := .error t code) hidle (hon _ _ (fun _ h => h.elim) id) (core_setError code)
    (hinv.live.setThread rfl rfl)

theorem Moves.setObject (hinv : SystemInv cfg s) (hon : OnObject allowed o)
    {object : IpcObject} (hkind : object.kind = (s.object o).kind) :
    Moves cfg allowed s (s.setObject o object) :=
  .effect (e := .object o object) hkind (hon _ _ (fun _ h => h.symm) id) rfl hinv.live

theorem SystemInv.setObject (hinv : SystemInv cfg s) {object : IpcObject}
    (hkind : object.kind = (s.object o).kind) : SystemInv cfg (s.setObject o object) :=
  ⟨hinv.live, hinv.core.object hkind⟩

theorem block_spec (hlive : Live cfg s.kernel) (hc : c < cfg.cpusNr) {request : Request}
    {timeout : Int} (hexec : s.block cfg c t o request timeout = some s') :
    s.CanCall c t ∧ s'.core = s.core.block t o request timeout s.tick ∧
      Live cfg s'.kernel := by
  unfold block at hexec
  split at hexec
  next hcan =>
    obtain ⟨⟨code, k⟩, hsuspend, rfl⟩ := Option.map_eq_some_iff.mp hexec
    rcases rtThreadSuspend_cases hsuspend with ⟨-, hsame⟩ | ⟨-, -, hcurrent, hcpu, hlinks, hthread⟩
    · -- the thread is READY and the current one, so that the call does not fail
      exfalso
      have hready : (s.kernel.thread t).stat = .ready := hcan.2.1
      subst hsame
      have hstat : (s.kernel.thread t).stat = .suspend := by
        simp only [rtThreadSuspend, hready, hcan.1, not_true_eq_false, ne_eq,
          if_false, Option.some.injEq, Prod.mk.injEq] at hsuspend
        rw [← hsuspend.2]
        simp
      rw [hready] at hstat
      cases hstat
    · dsimp only
      generalize hfinal : (if 0 < timeout then
        k.setThread t { k.thread t with timerActive := true } else k) = final
      have hself : final.thread t =
          { s.kernel.thread t with stat := .suspend, timerActive := decide (0 < timeout) } := by
        rw [← hfinal]
        split <;> simp [*]
      have hother : ∀ u, u ≠ t → final.thread u = s.kernel.thread u := by
        intro u hu
        rw [← hfinal]
        split
        · simp [hthread, hu]
        · simp [hthread, hu]
      have hpriority : (fun u => (k.thread u).currentPriority) =
          fun u => (s.core.view u).priority := by
        funext u
        by_cases hu : u = t
        · subst hu
          simp [hthread, core, threadView]
        · simp [hthread, core, threadView, hu]
      have hview : (fun u => threadView (final.thread u)) =
          update s.core.view t
            { s.core.view t with stat := .suspend, timerActive := decide (0 < timeout) } := by
        funext u
        by_cases hu : u = t
        · subst hu
          simp [hself, core, threadView]
        · simp [hother u hu, core, hu]
      refine ⟨hcan, ?_, hlive.suspend hc hcurrent ?_ (fun u => ?_) hother ?_ ?_⟩
      · simp only [core, setList, hview, hpriority]
        rfl
      · show final.cpu = s.kernel.cpu
        rw [← hfinal, ← hcpu]
        split <;> rfl
      · have hkept : final.Linked u ↔ k.Linked u := by
          rw [← hfinal]
          split <;> exact Iff.rfl
        exact hkept.trans (hlinks u)
      · rw [show _ = _ from hself]
      · rw [show _ = _ from hself]
  · cases hexec

theorem Moves.block (hinv : SystemInv cfg s) (hc : c < cfg.cpusNr) (hon : OnObject allowed o)
    {request : Request} {timeout : Int} (herror : s.error t = rtEok)
    (hexec : s.block cfg c t o request timeout = some s')
    (hkind : request.kind = (s.object o).kind) : Moves cfg allowed s s' := by
  obtain ⟨hcan, hcore, hlive⟩ := block_spec hinv.live hc hexec
  exact .effect (e := .block t o request timeout s.tick) ⟨canCall_idle hcan, herror, hkind⟩
    (hon _ _ (fun _ h => h.symm) id) hcore hlive

theorem resume_spec (hlive : Live cfg s.kernel) (hsuspend : s.stat t = .suspend)
    (waker : Waker) :
    (s.resume cfg c t waker).core = s.core.wake t waker ∧
      Live cfg (s.resume cfg c t waker).kernel := by
  have hkernel : (rtThreadResume cfg c t s.kernel).2 =
      rtScheduleInsertThread cfg c t ((s.kernel.setThread t
        { s.kernel.thread t with timerActive := false }).unlink t) := by
    unfold rtThreadResume
    rw [if_neg (by rw [not_not]; exact hsuspend)]
    rfl
  have hresume : s.resume cfg c t waker =
      { (s.unlink t).woken t waker with kernel := (rtThreadResume cfg c t s.kernel).2 } :=
    if_neg (by rw [not_not]; exact hsuspend)
  rw [hresume, hkernel]
  constructor
  · simp only [core, unlink, woken, Core.wake, Core.setView, rtScheduleInsertThread_thread]
    congr 1
    funext u
    by_cases hu : u = t
    · subst hu
      simp [threadView]
    · simp [hu]
  · have hstopped : Live cfg (s.kernel.setThread t
        { s.kernel.thread t with timerActive := false }) := hlive.setThread rfl rfl
    exact hstopped.wake c t

theorem core_grant (hlive : Live cfg s.kernel) (hsuspend : s.stat t = .suspend)
    (side : Side) :
    (s.grant cfg c o side t).core = s.core.grant o side t (s.eventSet t) ∧
      Live cfg (s.grant cfg c o side t).kernel := by
  obtain ⟨hcore, hlive⟩ := resume_spec (c := c) hlive hsuspend .grant
  refine ⟨?_, hlive⟩
  have hgranted : (s.grant cfg c o side t).core =
      { (s.resume cfg c t .grant).core with
        granted := update s.granted o
          (update (s.granted o) side (t :: s.granted o side)) } := rfl
  rw [hgranted, hcore]
  unfold Core.grant
  simp only [core, update_eq_self]
  rfl

theorem SystemInv.stat_of_mem (hinv : SystemInv cfg s) {side : Side}
    (hmem : t ∈ s.list o side) : s.stat t = .suspend := by
  obtain ⟨_, -, -, -, hstat, -⟩ := (hinv.core.state t).of_mem hmem
  exact hstat

theorem Moves.grant (hinv : SystemInv cfg s) (hon : OnObject allowed o) {side : Side}
    (hmem : t ∈ s.list o side) : Moves cfg allowed s (s.grant cfg c o side t) := by
  obtain ⟨hcore, hlive⟩ := core_grant (c := c) (o := o) hinv.live (hinv.stat_of_mem hmem) side
  exact .effect (e := .grant o side t (s.eventSet t)) hmem (hon _ _ (fun _ h => h.symm) id)
    hcore hlive

theorem Moves.listResume (hinv : SystemInv cfg s) (hon : OnObject allowed o) (side : Side) :
    Moves cfg allowed s (s.listResume cfg c o side) := by
  unfold System.listResume
  split
  · exact .refl hinv
  next first rest hlist =>
    refine .grant hinv hon ?_
    rw [hlist]
    exact List.mem_cons_self

theorem Moves.refuse (hinv : SystemInv cfg s) (hon : OnObject allowed o) {side : Side}
    (hmem : t ∈ s.list o side) :
    Moves cfg allowed s ((s.setError t (-rtError)).resume cfg c t .reset) := by
  have hlive : Live cfg (s.setError t (-rtError)).kernel := hinv.live.setThread rfl rfl
  have hsuspend : (s.setError t (-rtError)).stat t = .suspend := by
    simpa [System.setError, System.stat] using hinv.stat_of_mem hmem
  obtain ⟨hcore, hlive⟩ := resume_spec (c := c) hlive hsuspend .reset
  rw [core_setError] at hcore
  exact .effect (e := .refuse o side t) hmem (hon _ _ (fun _ h => h.elim) id) hcore hlive

theorem resumeEach_moves (hon : OnObject allowed o) {side : Side} {list : List Tid}
    (hinv : SystemInv cfg s) (hlist : s.list o side = list)
    (hexec : resumeEach cfg c list s = some s') :
    Moves cfg allowed s s' ∧ s'.list o side = [] ∧ s'.object = s.object := by
  induction list generalizing s with
  | nil =>
    cases hexec
    exact ⟨.refl hinv, hlist, rfl⟩
  | cons u rest ih =>
    simp only [resumeEach] at hexec
    split at hexec
    next hsuspend =>
      have hmem : u ∈ s.list o side := by
        rw [hlist]
        exact List.mem_cons_self
      have hmove : Moves cfg allowed s ((s.setError u (-rtError)).resume cfg c u .reset) :=
        .refuse hinv hon hmem
      have hsuspend' : (s.setError u (-rtError)).stat u = .suspend := by
        simpa [System.setError, System.stat] using hsuspend
      have hresume : (s.setError u (-rtError)).resume cfg c u .reset =
          { ((s.setError u (-rtError)).unlink u).woken u .reset with
            kernel := (rtThreadResume cfg c u (s.setError u (-rtError)).kernel).2 } :=
        if_neg (by rw [not_not]; exact hsuspend')
      have hrest : ((s.setError u (-rtError)).resume cfg c u .reset).list o side = rest := by
        rw [hresume]
        show listRemove u (s.list o side) = rest
        have hnodup := hinv.core.nodup o side
        rw [show s.core.list o side = u :: rest from hlist] at hnodup
        rw [hlist, listRemove_head hnodup]
      obtain ⟨hmoves, hempty, hobject⟩ := ih (hmove.inv hinv) hrest hexec
      refine ⟨hmove.trans hmoves, hempty, hobject.trans ?_⟩
      rw [hresume]
      rfl
    · cases hexec

theorem listResumeAll_moves (hinv : SystemInv cfg s) (hon : OnObject allowed o) {side : Side}
    (hexec : s.listResumeAll cfg c o side = some s') :
    Moves cfg allowed s s' ∧ s'.list o side = [] ∧ s'.object = s.object :=
  resumeEach_moves hon hinv rfl hexec

theorem timeout_spec (hlive : Live cfg s.kernel) (hc : c < cfg.cpusNr)
    (hexec : s.timeout cfg c t = some s') :
    s.core.Enabled (.expire t) ∧ s'.core = s.core.apply (.expire t) ∧
      Live cfg s'.kernel := by
  unfold timeout at hexec
  split at hexec
  next hactive =>
    split at hexec
    · cases hexec
    next hsuspend =>
      rw [not_not] at hsuspend
      dsimp only at hexec
      obtain ⟨k, hk, rfl⟩ := Option.map_eq_some_iff.mp hexec
      obtain ⟨hschedule, hland⟩ := landed_eq_some hk
      have hmarked : Live cfg (s.setError t (-rtEtimeout)).kernel :=
        hlive.setThread rfl rfl
      have hinserted := hmarked.wake c t
      have hhand := rtSchedule_handover (hinserted.free c hc) hschedule
      have hscheduled := hinserted.handover hc hhand hland
      have hview : ∀ u, threadView (k.thread u) = threadView
          (update (s.setError t (-rtEtimeout)).kernel.thread t
            { (s.setError t (-rtEtimeout)).kernel.thread t with stat := .ready } u) := by
        intro u
        have hsame := threadView_of_sameWait (hhand.wait u)
        rwa [rtScheduleInsertThread_thread] at hsame
      refine ⟨⟨hsuspend, hactive⟩, ?_, hscheduled.setThread rfl rfl⟩
      simp only [core, unlink, woken, Core.apply, Core.wake, Core.setError, Core.setView]
      congr 1
      funext u
      by_cases hu : u = t
      · subst hu
        have hself := hview u
        simp only [threadView, update_self, System.setError,
          Kernel.setThread_thread, View.mk.injEq] at hself
        obtain ⟨hstat, herror, -, hpriority⟩ := hself
        simp [threadView, hstat, herror, hpriority]
      · have hother := hview u
        simp only [update_of_ne hu, System.setError, Kernel.setThread_thread] at hother
        simpa [hu] using hother
  · cases hexec

theorem core_changePriority (priority : Nat) :
    (s.changePriority cfg c t priority).core =
      s.core.setView t { s.core.view t with priority := priority } := by
  simp only [core, changePriority, Core.setView, rtThreadChangePriority_thread]
  congr 1
  funext u
  by_cases hu : u = t
  · subst hu
    simp only [update_self, threadView, Thread.setPriority]
    split <;> rfl
  · simp [hu]

theorem Moves.changePriority (hinv : SystemInv cfg s) {priority : Nat}
    (hallowed : allowed s.core (.priority t priority)) :
    Moves cfg allowed s (s.changePriority cfg c t priority) :=
  .effect (e := .priority t priority) trivial hallowed (core_changePriority priority)
    (hinv.live.changePriority c t priority)

theorem Moves.handover (hinv : SystemInv cfg s) (hc : c < cfg.cpusNr) {k : Kernel}
    (hhand : Handover cfg c s.kernel k) (hland : (k.cpu c).currentThread ≠ none) :
    Moves cfg allowed s (s.withKernel k) :=
  ⟨hinv.live.handover hc hhand hland, by rw [core_withKernel hhand.wait]; exact .refl⟩

theorem Moves.quiet (hinv : SystemInv cfg s) {k : Kernel} (hquiet : Quiet s.kernel k) :
    Moves cfg allowed s (s.withKernel k) :=
  ⟨hinv.live.quiet hquiet, by rw [core_withKernel hquiet.wait]; exact .refl⟩

end Primitives

end RtThread.Blocking
