import RtThread.Blocking.Refinement

namespace RtThread.Blocking

open RtThread.Ipc RtThread.Scheduler Blocking.System

def BlockOp.target (s : System) : BlockOp → Option ObjId
  | .call _ o _ => some o
  | .proceed c => ((s.kernel.cpu c).currentThread.bind s.wait).map Wait.obj
  | _ => none

namespace System

def inherited (s : System) (t : Tid) (mutex : MutexState) (time : Int) : Option (Tid × Nat) :=
  match mutex.owner with
  | none => none
  | some owner =>
    if owner ≠ t ∧ mutex.value = 0 ∧ time ≠ 0 ∧ s.priority t < s.priority owner then
      some (owner, s.priority t)
    else none

def restored (s : System) (t : Tid) (mutex : MutexState) : Option (Tid × Nat) :=
  if mutex.owner = some t ∧ dec8 mutex.hold = 0 ∧ mutex.originalPriority ≠ s.priority t then
    some (t, mutex.originalPriority)
  else none

def repriority (s : System) : BlockOp → Option (Tid × Nat)
  | .changePriority _ t priority => some (t, priority)
  | .call c o (.mutexTake time) =>
    match (s.kernel.cpu c).currentThread, s.object o with
    | some t, .mutex mutex => s.inherited t mutex time
    | _, _ => none
  | .call c o .mutexRelease =>
    match (s.kernel.cpu c).currentThread, s.object o with
    | some t, .mutex mutex => s.restored t mutex
    | _, _ => none
  | _ => none

end System

structure Core.SameOrder (x y : Core) : Prop where
  list : x.list = y.list
  priority : ∀ t, (x.view t).priority = (y.view t).priority
  arrival : x.arrival = y.arrival

/-- What a step may do: it touches no object but its own, and changes the priority of
its thread before anything else that matters for the order of the waiters. -/
def System.Footprint (s : System) (op : BlockOp) (x : Core) (e : Effect) : Prop :=
  (∀ o, e.Touches x o → op.target s = some o) ∧
    ∀ t priority, e = .priority t priority →
      s.repriority op = some (t, priority) ∧ x.SameOrder s.core

theorem onObject_footprint {s : System} {op : BlockOp} {o : ObjId}
    (htarget : op.target s = some o) : OnObject (s.Footprint op) o := by
  intro x e htouches hpriority
  refine ⟨fun o' h => ?_, fun t priority he => ?_⟩
  · rw [htouches o' h]
    exact htarget
  · subst he
    exact absurd trivial hpriority

section Calls

variable {cfg : Config} {allowed : Core → Effect → Prop} {s s' : System} {c : Nat} {t : Tid}
  {o : ObjId}

theorem error_setError (code : Int) : (s.setError t code).error t = code := by
  simp [System.setError, error]

theorem Moves.setError_block (hinv : SystemInv cfg s) (hc : c < cfg.cpusNr)
    (hon : OnObject allowed o) {request : Request} {timeout : Int}
    (hexec : (s.setError t rtEok).block cfg c t o request timeout = some s')
    (hkind : request.kind = (s.object o).kind) :
    Moves cfg allowed s s' := by
  obtain ⟨hcan, -⟩ := block_spec
    (show Live cfg (s.setError t rtEok).kernel from hinv.live.setThread rfl rfl) hc hexec
  have hidle : s.core.Idle t := by
    refine ⟨?_, hcan.2.2⟩
    have hready := hcan.2.1
    simpa [System.setError, System.stat, System.core, threadView] using hready
  have hmark : Moves cfg allowed s (s.setError t rtEok) := .setError hinv hon hidle rtEok
  exact hmark.trans (.block (hmark.inv hinv) hc hon (error_setError rtEok) hexec hkind)

theorem rtSemTake_moves (hinv : SystemInv cfg s) (hc : c < cfg.cpusNr)
    (hon : OnObject allowed o) {value : Nat} {time : Int}
    (hkind : (s.object o).kind = .semaphore)
    (hexec : s.rtSemTake cfg c t o value time = some s') : Moves cfg allowed s s' := by
  unfold System.rtSemTake at hexec
  split at hexec
  · cases hexec
    exact .returns (.setObject hinv hon (by simp [hkind])) _
  · split at hexec
    · cases hexec
      exact .returns (Moves.refl hinv) _
    · exact .setError_block hinv hc hon hexec hkind.symm

theorem rtSemRelease_moves (hinv : SystemInv cfg s) (hon : OnObject allowed o)
    (hkind : (s.object o).kind = .semaphore) (value : Nat) :
    Moves cfg allowed s (s.rtSemRelease cfg c o value) := by
  unfold System.rtSemRelease
  split
  · exact .returns (Moves.listResume hinv hon .receiver) _
  · exact .returns (.setObject hinv hon (by simp [hkind])) _

theorem Moves.resetObject (hinv : SystemInv cfg s) (hon : OnObject allowed o) {side : Side}
    {object : IpcObject}
    (hexec : (s.listResumeAll cfg c o side).map
      (fun s => (s.setObject o object).returns rtEok) = some s')
    (hkind : object.kind = (s.object o).kind) :
    Moves cfg allowed s s' := by
  obtain ⟨refused, hall, rfl⟩ := Option.map_eq_some_iff.mp hexec
  obtain ⟨hmoves, -, hobject⟩ := listResumeAll_moves hinv hon hall
  exact .returns (hmoves.trans (.setObject (hmoves.inv hinv) hon (by rw [hobject, hkind]))) _

theorem sameOrder_setError (code : Int) : (s.setError t code).core.SameOrder s.core := by
  rw [core_setError]
  refine ⟨rfl, fun u => ?_, rfl⟩
  by_cases hu : u = t
  · subst hu
    simp [Core.setError, Core.setView]
  · simp [Core.setError, Core.setView, hu]

theorem priority_setError (code : Int) (u : Tid) : (s.setError t code).priority u = s.priority u :=
  (sameOrder_setError code).priority u

theorem rtMutexTake_moves (hinv : SystemInv cfg s) (hc : c < cfg.cpusNr)
    (hon : OnObject allowed o) {mutex : MutexState} {time : Int}
    (hkind : (s.object o).kind = .mutex)
    (hpriority : ∀ x owner priority, s.inherited t mutex time = some (owner, priority) →
      x.SameOrder s.core → allowed x (.priority owner priority))
    (hexec : s.rtMutexTake cfg c t o mutex time = some s') : Moves cfg allowed s s' := by
  unfold System.rtMutexTake at hexec
  split at hexec
  next hcan =>
    have hidle := canCall_idle hcan
    have hmark : Moves cfg allowed s (s.setError t rtEok) := .setError hinv hon hidle rtEok
    have hmarked := hmark.inv hinv
    dsimp only at hexec
    split at hexec
    · cases hexec
      exact .returns (hmark.trans (.setObject hmarked hon (by simp [hkind]))) _
    next hother =>
      split at hexec
      · cases hexec
        exact .returns (hmark.trans (.setObject hmarked hon (by simp [hkind]))) _
      next hvalue =>
        split at hexec
        · cases hexec
          exact .returns (hmark.trans (.setError hmarked hon (idle_setError hidle) _)) _
        next htime =>
          split at hexec
          · cases hexec
          next owner howner =>
            unfold inheritPriority at hexec
            split at hexec
            next hlower =>
              rw [priority_setError, priority_setError] at hlower
              have hinherited : s.inherited t mutex time = some (owner, s.priority t) := by
                unfold inherited
                rw [howner]
                refine if_pos ⟨?_, by omega, htime, hlower⟩
                rintro rfl
                exact hother howner
              rw [priority_setError] at hexec
              have hboost : Moves cfg allowed (s.setError t rtEok)
                  ((s.setError t rtEok).changePriority cfg c owner (s.priority t)) :=
                .changePriority hmarked
                  (hpriority _ _ _ hinherited (sameOrder_setError rtEok))
              refine (hmark.trans hboost).trans (.block (hboost.inv hmarked) hc hon ?_
                hexec hkind.symm)
              have hcore : ((s.setError t rtEok).changePriority cfg c owner
                  (s.priority t)).core = _ := core_changePriority (s.priority t)
              have hview := congrArg (fun x => (Core.view x t).error) hcore
              have herror : ((s.setError t rtEok).core.view t).error = rtEok :=
                error_setError rtEok
              refine hview.trans ?_
              by_cases hself : t = owner
              · subst hself
                simpa [Core.setView] using herror
              · simpa [Core.setView, hself] using herror
            · exact hmark.trans (.block hmarked hc hon (error_setError rtEok) hexec hkind.symm)
  · cases hexec

theorem mutexRelease_moves (hinv : SystemInv cfg s) (hon : OnObject allowed o)
    {mutex : MutexState} (hkind : (s.object o).kind = .mutex)
    (howner : mutex.owner = some t) (hhold : dec8 mutex.hold = 0)
    (hpriority : ∀ x owner priority, s.restored t mutex = some (owner, priority) →
      x.SameOrder s.core → allowed x (.priority owner priority)) :
    Moves cfg allowed s (s.mutexRelease cfg c t o mutex) := by
  have hrestore : Moves cfg allowed s (s.restorePriority cfg c t mutex.originalPriority) := by
    unfold System.restorePriority
    split
    next hne =>
      refine .changePriority hinv (hpriority _ _ _ ?_ ⟨rfl, fun _ => rfl, rfl⟩)
      exact if_pos ⟨howner, hhold, hne⟩
    · exact .refl hinv
  have hrestored := hrestore.inv hinv
  unfold mutexRelease
  dsimp only
  split
  · exact hrestore.trans (.setObject hrestored hon (by simp [hkind]))
  · exact (hrestore.trans (.setObject hrestored hon (by simp [hkind]))).trans
      (.listResume (hrestored.setObject (by simp [hkind])) hon .receiver)

theorem rtMutexRelease_moves (hinv : SystemInv cfg s) (hon : OnObject allowed o)
    {mutex : MutexState} (hkind : (s.object o).kind = .mutex)
    (hpriority : ∀ x owner priority, s.restored t mutex = some (owner, priority) →
      x.SameOrder s.core → allowed x (.priority owner priority))
    (hexec : s.rtMutexRelease cfg c t o mutex = some s') : Moves cfg allowed s s' := by
  unfold System.rtMutexRelease at hexec
  split at hexec
  next hcan =>
    split at hexec
    · cases hexec
      exact .returns (Moves.setError hinv hon (canCall_idle hcan) _) _
    next howner =>
      rw [not_not] at howner
      split at hexec
      next hhold =>
        cases hexec
        exact .returns (mutexRelease_moves hinv hon hkind howner hhold hpriority) _
      · cases hexec
        exact .returns (.setObject hinv hon (by simp [hkind])) _
  · cases hexec

theorem eventGrant_spec (hinv : SystemInv cfg s) (hmem : t ∈ s.list o .receiver)
    (received left : BitVec 32) :
    (s.eventGrant cfg c o t received left).core =
        (s.core.apply (.object o (.event left))).apply (.grant o .receiver t received) ∧
      Live cfg (s.eventGrant cfg c o t received left).kernel := by
  have hlive : Live cfg ((s.setObject o (.event left)).setEventSet t received).kernel :=
    hinv.live
  have hsuspend : ((s.setObject o (.event left)).setEventSet t received).stat t = .suspend :=
    hinv.stat_of_mem hmem
  obtain ⟨hcore, hlive⟩ := core_grant (c := c) (o := o) hlive hsuspend .receiver
  refine ⟨?_, hlive⟩
  unfold eventGrant
  rw [hcore]
  simp [Core.apply, Core.grant, Core.wake, Core.setView, System.core, setObject, setEventSet]

theorem Moves.eventGrant (hinv : SystemInv cfg s) (hon : OnObject allowed o)
    (hkind : (s.object o).kind = .event) (hmem : t ∈ s.list o .receiver) (received left : BitVec 32) :
    Moves cfg allowed s (s.eventGrant cfg c o t received left) := by
  have hset : Moves cfg allowed s (s.setObject o (.event left)) :=
    .setObject hinv hon (by simp [hkind])
  obtain ⟨hcore, hlive⟩ := eventGrant_spec (c := c) hinv hmem received left
  exact hset.trans (.effect (e := .grant o .receiver t received) hmem
    (hon _ _ (fun _ h => h.symm) id) hcore hlive)

theorem list_eventGrant (hinv : SystemInv cfg s) (hmem : t ∈ s.list o .receiver)
    (received left : BitVec 32) :
    (s.eventGrant cfg c o t received left).list o .receiver = listRemove t (s.list o .receiver) :=
  congrArg (fun x => Core.list x o .receiver)
    (eventGrant_spec (c := c) hinv hmem received left).1

theorem eventSendEach_moves (hon : OnObject allowed o) {list : List Tid} {set : BitVec 32}
    (hinv : SystemInv cfg s) (hkind : (s.object o).kind = .event)
    (hmem : ∀ u ∈ list, u ∈ s.list o .receiver) (hnodup : list.Nodup) :
    Moves cfg allowed s (eventSendEach cfg c o list set s) := by
  induction list generalizing s set with
  | nil => exact .refl hinv
  | cons u rest ih =>
    obtain ⟨hfree, hrest⟩ := List.nodup_cons.mp hnodup
    have hu := hmem u List.mem_cons_self
    simp only [eventSendEach]
    split
    · have hgrant := fun received left =>
        Moves.eventGrant (c := c) hinv hon hkind hu received left
      refine (hgrant _ _).trans (ih ((hgrant _ _).inv hinv) ?_ (fun v hv => ?_) hrest)
      · exact (kind_path (hgrant _ _).path o).trans hkind
      rw [list_eventGrant hinv hu, mem_listRemove]
      refine ⟨hmem v (List.mem_cons_of_mem u hv), ?_⟩
      rintro rfl
      exact hfree hv
    · exact ih hinv hkind (fun v hv => hmem v (List.mem_cons_of_mem u hv)) hrest

section

variable (hinv : SystemInv cfg s)
include hinv

theorem rtEventSend_moves (hon : OnObject allowed o)
    (hkind : (s.object o).kind = .event) (old set : BitVec 32) : Moves cfg allowed s (s.rtEventSend cfg c o old set) := by
  unfold rtEventSend
  split
  · exact .returns (Moves.refl hinv) _
  · have hset : Moves cfg allowed s (s.setObject o (.event (old ||| set))) :=
      .setObject hinv hon (by simp [hkind])
    refine (hset.trans (eventSendEach_moves hon (hset.inv hinv) ?_ (fun _ h => h) ?_)).returns _
    · rw [object_setObject]
      rfl
    · exact hinv.core.nodup o .receiver

theorem rtEventRecv_moves (hc : c < cfg.cpusNr)
    (hon : OnObject allowed o) (hkind : (s.object o).kind = .event)
    {current set : BitVec 32} {option : BitVec 8} {timeout : Int}
    (hexec : s.rtEventRecv cfg c t o current set option timeout = some s') :
    Moves cfg allowed s s' := by
  unfold rtEventRecv at hexec
  split at hexec
  next hcan =>
    have hidle := canCall_idle hcan
    have hmark : Moves cfg allowed s (s.setError t rtEok) := .setError hinv hon hidle rtEok
    have hmarked := hmark.inv hinv
    split at hexec
    · cases hexec
      exact .returns (Moves.refl hinv) _
    · split at hexec
      · cases hexec
      · dsimp only at hexec
        split at hexec
        · cases hexec
          exact .of_core (hmark.trans (.setObject hmarked hon (by simp [hkind]))) rfl rfl
        · split at hexec
          · cases hexec
            exact .returns (hmark.trans (.setError hmarked hon (idle_setError hidle) _)) _
          · have hrequest : Moves cfg allowed (s.setError t rtEok)
                { s.setError t rtEok with
                  eventSet := Function.update (s.setError t rtEok).eventSet t set
                  eventInfo := Function.update (s.setError t rtEok).eventInfo t option } :=
              .effect (e := .request t set option) (idle_setError hidle)
                (hon _ _ (fun _ h => h.elim) id) rfl hmarked.live
            exact (hmark.trans hrequest).trans
              (.block (hrequest.inv hmarked) hc hon (error_setError rtEok) hexec hkind.symm)
  · cases hexec

theorem Moves.giveUp (hon : OnObject allowed o) (hidle : s.core.Idle t) (code : Int) :
    Moves cfg allowed s ((s.setError t rtEok).setError t code) := by
  have hmark : Moves cfg allowed s (s.setError t rtEok) := .setError hinv hon hidle rtEok
  exact hmark.trans (.setError (hmark.inv hinv) hon (idle_setError hidle) code)

/-- The loops of the calls that look at the object again after a wait.  Only a thread
that has waited finds that no time is left. -/
theorem mbSendLoop_moves (hc : c < cfg.cpusNr)
    (hon : OnObject allowed o) (hkind : (s.object o).kind = .mailbox)
    {mb : Mailbox} {value : Nat} {timeout : Int}
    (hidle : mb.entry = mb.size → timeout = 0 → s.core.Idle t)
    (hexec : s.mbSendLoop cfg c t o mb value timeout = some s') : Moves cfg allowed s s' := by
  unfold mbSendLoop at hexec
  split at hexec
  next hfull =>
    dsimp only at hexec
    split at hexec
    next hzero =>
      cases hexec
      exact .returns (Moves.setError hinv hon (hidle hfull hzero) _) _
    · exact .setError_block hinv hc hon hexec hkind.symm
  · cases hexec
    have hset : Moves cfg allowed s (s.setObject o (.mailbox (mb.put value))) :=
      .setObject hinv hon (by simp [hkind])
    exact .returns (hset.trans (.listResume (hset.inv hinv) hon .receiver)) _

theorem mbRecvLoop_moves (hc : c < cfg.cpusNr)
    (hon : OnObject allowed o) (hkind : (s.object o).kind = .mailbox)
    {mb : Mailbox} {timeout : Int}
    (hidle : mb.entry = 0 → timeout = 0 → s.core.Idle t)
    (hexec : s.mbRecvLoop cfg c t o mb timeout = some s') : Moves cfg allowed s s' := by
  unfold mbRecvLoop at hexec
  split at hexec
  next hempty =>
    dsimp only at hexec
    split at hexec
    next hzero =>
      cases hexec
      exact .returns (Moves.giveUp hinv hon (hidle hempty hzero) _) _
    · exact .setError_block hinv hc hon hexec hkind.symm
  · cases hexec
    have hset : Moves cfg allowed s (s.setObject o (.mailbox mb.get)) :=
      .setObject hinv hon (by simp [hkind])
    exact (hset.trans (.listResume (hset.inv hinv) hon .sender)).of_core rfl rfl

theorem mqRecvLoop_moves (hc : c < cfg.cpusNr)
    (hon : OnObject allowed o) (hkind : (s.object o).kind = .messageQueue)
    {entry : Nat} {timeout : Int}
    (hidle : entry = 0 → timeout = 0 → s.core.Idle t)
    (hexec : s.mqRecvLoop cfg c t o entry timeout = some s') : Moves cfg allowed s s' := by
  unfold System.mqRecvLoop at hexec
  split at hexec
  next hempty =>
    dsimp only at hexec
    split at hexec
    next hzero =>
      cases hexec
      exact .returns (Moves.giveUp hinv hon (hidle hempty hzero) _) _
    · exact .setError_block hinv hc hon hexec hkind.symm
  · cases hexec
    exact .returns (.setObject hinv hon (by simp [hkind])) _

theorem rtMbSendWait_moves (hc : c < cfg.cpusNr)
    (hon : OnObject allowed o) (hkind : (s.object o).kind = .mailbox)
    {mb : Mailbox} {value : Nat} {timeout : Int}
    (hexec : s.rtMbSendWait cfg c t o mb value timeout = some s') : Moves cfg allowed s s' := by
  unfold rtMbSendWait at hexec
  split at hexec
  · cases hexec
    exact .returns (Moves.refl hinv) _
  next hnot =>
    exact mbSendLoop_moves hinv hc hon hkind (fun h h' => absurd ⟨h, h'⟩ hnot) hexec

theorem rtMbRecv_moves (hc : c < cfg.cpusNr)
    (hon : OnObject allowed o) (hkind : (s.object o).kind = .mailbox)
    {mb : Mailbox} {timeout : Int}
    (hexec : s.rtMbRecv cfg c t o mb timeout = some s') : Moves cfg allowed s s' := by
  unfold rtMbRecv at hexec
  split at hexec
  · cases hexec
    exact .returns (Moves.refl hinv) _
  next hnot =>
    exact mbRecvLoop_moves hinv hc hon hkind (fun h h' => absurd ⟨h, h'⟩ hnot) hexec

theorem rtMbReset_moves (hon : OnObject allowed o)
    (hkind : (s.object o).kind = .mailbox) {mb : Mailbox}
    (hexec : s.rtMbReset cfg c o mb = some s') : Moves cfg allowed s s' := by
  simp only [rtMbReset, Option.bind_eq_bind, Option.bind_eq_some_iff, Option.pure_def,
    Option.some.injEq] at hexec
  obtain ⟨first, hfirst, second, hsecond, rfl⟩ := hexec
  obtain ⟨hmoves, -, hobject⟩ := listResumeAll_moves hinv hon hfirst
  obtain ⟨hmoves', -, hobject'⟩ := listResumeAll_moves (hmoves.inv hinv) hon hsecond
  have hboth := hmoves.trans hmoves'
  refine (hboth.trans (.setObject (hboth.inv hinv) hon ?_)).returns _
  rw [hobject', hobject, hkind]
  rfl

theorem rtMqRecv_moves (hc : c < cfg.cpusNr)
    (hon : OnObject allowed o) (hkind : (s.object o).kind = .messageQueue)
    {entry : Nat} {timeout : Int}
    (hexec : s.rtMqRecv cfg c t o entry timeout = some s') : Moves cfg allowed s s' := by
  unfold System.rtMqRecv at hexec
  split at hexec
  · cases hexec
    exact .returns (Moves.refl hinv) _
  next hnot =>
    exact mqRecvLoop_moves hinv hc hon hkind (fun h h' => absurd ⟨h, h'⟩ hnot) hexec

theorem mqLink_moves (hon : OnObject allowed o)
    (hkind : (s.object o).kind = .messageQueue) (entry : Nat) :
    Moves cfg allowed s (s.mqLink cfg c o entry) := by
  have hset : Moves cfg allowed s (s.setObject o (.messageQueue (inc16 entry))) :=
    .setObject hinv hon (by simp [hkind])
  exact .returns (hset.trans (.listResume (hset.inv hinv) hon .receiver)) _

theorem call_moves (hc : c < cfg.cpusNr)
    (hcurrent : (s.kernel.cpu c).currentThread = some t) (hon : OnObject allowed o)
    {call : Call}
    (hpriority : ∀ x owner priority, s.repriority (.call c o call) = some (owner, priority) →
      x.SameOrder s.core → allowed x (.priority owner priority))
    (hexec : s.call cfg c t o call = some s') : Moves cfg allowed s s' := by
  have hclass : ∀ {object : IpcObject}, s.object o = object → (s.object o).kind = object.kind :=
    fun h => by rw [h]
  unfold System.call at hexec
  split at hexec
  next hobject => exact rtSemTake_moves hinv hc hon (hclass hobject) hexec
  next hobject =>
    cases hexec
    exact rtSemRelease_moves hinv hon (hclass hobject) _
  next hobject => exact .resetObject hinv hon hexec (by simp [hobject])
  next mutex time hobject =>
    refine rtMutexTake_moves hinv hc hon (hclass hobject)
      (fun x owner priority h => hpriority x owner priority ?_) hexec
    simpa [repriority, hcurrent, hobject] using h
  next mutex hobject =>
    refine rtMutexRelease_moves hinv hon (hclass hobject)
      (fun x owner priority h => hpriority x owner priority ?_) hexec
    simpa [repriority, hcurrent, hobject] using h
  next hobject =>
    cases hexec
    exact rtEventSend_moves hinv hon (hclass hobject) _ _
  next hobject => exact rtEventRecv_moves hinv hc hon (hclass hobject) hexec
  next hobject => exact .resetObject hinv hon hexec (by simp [hobject])
  next hobject => exact rtMbSendWait_moves hinv hc hon (hclass hobject) hexec
  next hobject => exact rtMbSendWait_moves hinv hc hon (hclass hobject) hexec
  next hobject => exact rtMbRecv_moves hinv hc hon (hclass hobject) hexec
  next hobject => exact rtMbReset_moves hinv hon (hclass hobject) hexec
  next hobject =>
    cases hexec
    exact mqLink_moves hinv hon (hclass hobject) _
  next hobject => exact rtMqRecv_moves hinv hc hon (hclass hobject) hexec
  next hobject => exact .resetObject hinv hon hexec (by simp [hobject])
  · cases hexec

theorem Moves.finish {wait : Wait} (hwait : s.wait t = some wait)
    (hready : s.stat t = .ready) (hon : OnObject allowed wait.obj) :
    Moves cfg allowed s (s.finish t) := by
  refine .effect (e := .finish t) ⟨hready, ?_⟩ (hon _ _ (fun o h => ?_) id) rfl hinv.live
  · rw [show s.core.wait t = some wait from hwait]
    exact Option.some_ne_none wait
  · obtain ⟨wait', hwait', rfl⟩ := h
    cases hwait.symm.trans hwait'
    rfl

end

theorem idle_finish (hready : s.stat t = .ready) : (s.finish t).core.Idle t :=
  ⟨hready, by simp [System.core, finish]⟩

theorem resumeCall_moves (hinv : SystemInv cfg s) (hc : c < cfg.cpusNr) {wait : Wait}
    (hwait : s.wait t = some wait) (hready : s.stat t = .ready)
    (hon : OnObject allowed wait.obj) (hexec : s.resumeCall cfg c t wait = some s') :
    Moves cfg allowed s s' := by
  have hfinish : Moves cfg allowed s (s.finish t) := .finish hinv hwait hready hon
  have hfinished := hfinish.inv hinv
  have hidle : (s.finish t).core.Idle t := idle_finish hready
  unfold resumeCall at hexec
  dsimp only at hexec
  split at hexec
  · cases hexec
    exact hfinish.returns _
  · split at hexec
    · cases hexec
      exact hfinish.returns _
    · cases hexec
      exact hfinish.returns _
    · cases hexec
      exact hfinish.of_core rfl rfl
    next hobject =>
      exact hfinish.trans (mbSendLoop_moves hfinished hc hon (by rw [hobject]; rfl)
        (fun _ _ => hidle) hexec)
    next hobject =>
      exact hfinish.trans (mbRecvLoop_moves hfinished hc hon (by rw [hobject]; rfl)
        (fun _ _ => hidle) hexec)
    next hobject =>
      exact hfinish.trans (mqRecvLoop_moves hfinished hc hon (by rw [hobject]; rfl)
        (fun _ _ => hidle) hexec)
    · cases hexec

theorem proceed_cases (hexec : s.proceed cfg c = some s') :
    ∃ t wait, (s.kernel.cpu c).currentThread = some t ∧ s.wait t = some wait ∧
      s.stat t = .ready ∧ s.resumeCall cfg c t wait = some s' := by
  unfold proceed at hexec
  split at hexec
  · cases hexec
  next t hcurrent =>
    split at hexec
    · cases hexec
    next wait hwait =>
      split at hexec
      next hready => exact ⟨t, wait, hcurrent, hwait, hready, hexec⟩
      · cases hexec

theorem exec_moves (hinv : SystemInv cfg s) {op : BlockOp}
    (hexec : s.exec cfg op = some s') : Moves cfg (s.Footprint op) s s' := by
  unfold exec at hexec
  split at hexec
  next hc =>
    cases op with
    | schedule c =>
      obtain ⟨k, hk, rfl⟩ := Option.map_eq_some_iff.mp hexec
      obtain ⟨hschedule, hland⟩ := landed_eq_some hk
      exact .handover hinv hc (rtSchedule_handover (hinv.live.free c hc) hschedule) hland
    | doIrqSwitch c =>
      obtain ⟨k, hk, rfl⟩ := Option.map_eq_some_iff.mp hexec
      obtain ⟨hschedule, hland⟩ := landed_eq_some hk
      exact .handover hinv hc
        (rtSchedulerDoIrqSwitch_handover (hinv.live.free c hc) hschedule) hland
    | ipiHandler c =>
      obtain ⟨k, hk, rfl⟩ := Option.map_eq_some_iff.mp hexec
      obtain ⟨hschedule, hland⟩ := landed_eq_some hk
      exact .handover hinv hc
        (rtSchedulerIpiHandler_handover (hinv.live.free c hc) hschedule) hland
    | interruptEnter c =>
      cases hexec
      exact .quiet hinv .interruptEnter
    | interruptLeave c =>
      cases hexec
      exact .quiet hinv .interruptLeave
    | call c o call =>
      obtain ⟨t, hcurrent, hcall⟩ := Option.bind_eq_some_iff.mp hexec
      refine call_moves hinv hc hcurrent (onObject_footprint rfl) ?_ hcall
      intro x owner priority hprio hsame
      refine ⟨fun o h => h.elim, fun t' priority' heq => ?_⟩
      cases heq
      exact ⟨hprio, hsame⟩
    | proceed c =>
      obtain ⟨t, wait, hcurrent, hwait, hready, hresume⟩ := proceed_cases hexec
      refine resumeCall_moves hinv hc hwait hready (onObject_footprint ?_) hresume
      simp [BlockOp.target, hcurrent, hwait]
    | timeout c t =>
      obtain ⟨henabled, hcore, hlive⟩ := timeout_spec hinv.live hc hexec
      refine .effect henabled ⟨fun o h => h.elim, fun t' priority h => ?_⟩ hcore hlive
      cases h
    | changePriority c t priority =>
      dsimp only at hexec
      split at hexec
      · cases hexec
        have hmoves : Moves cfg (s.Footprint (.changePriority c t priority)) s
            (s.changePriority cfg c t priority) := by
          refine .changePriority hinv ⟨fun o h => h.elim, fun t' priority' heq => ?_⟩
          cases heq
          exact ⟨rfl, rfl, fun _ => rfl, rfl⟩
        exact hmoves.of_core rfl rfl
      · cases hexec
    | tick c =>
      cases hexec
      exact (Moves.refl hinv).of_core rfl rfl
  · cases hexec

theorem exec_kind (hinv : SystemInv cfg s) {op : BlockOp} (hexec : s.exec cfg op = some s')
    (o : ObjId) : (s'.object o).kind = (s.object o).kind :=
  kind_path (exec_moves hinv hexec).path o

theorem exec_target_cases {op : BlockOp} (htarget : op.target s = some o)
    (hexec : s.exec cfg op = some s') :
    (∃ c t call, op = .call c o call ∧ c < cfg.cpusNr ∧ s.call cfg c t o call = some s') ∨
      ∃ c t wait, (op = .proceed c ∧ (s.kernel.cpu c).currentThread = some t) ∧
        c < cfg.cpusNr ∧ s.wait t = some wait ∧ s.stat t = .ready ∧ wait.obj = o ∧
        s.resumeCall cfg c t wait = some s' := by
  unfold exec at hexec
  split at hexec
  next hc =>
    cases op with
    | call c o' call =>
      cases htarget
      obtain ⟨t, -, hcall⟩ := Option.bind_eq_some_iff.mp hexec
      exact .inl ⟨c, t, call, rfl, hc, hcall⟩
    | proceed c =>
      obtain ⟨t, wait, hcurrent, hwait, hready, hresume⟩ := proceed_cases hexec
      simp only [BlockOp.target, hcurrent, Option.bind_some, hwait, Option.map_some,
        Option.some.injEq] at htarget
      exact .inr ⟨c, t, wait, ⟨rfl, hcurrent⟩, hc, hwait, hready, htarget, hresume⟩
    | schedule _ | doIrqSwitch _ | ipiHandler _ | interruptEnter _ | interruptLeave _
    | timeout _ _ | changePriority _ _ _ | tick _ => cases htarget
  · cases hexec

theorem resumeCall_cases {wait : Wait} (hexec : s.resumeCall cfg c t wait = some s') :
    s'.core = (s.finish t).core ∨
      ((s.object wait.obj).kind = .mailbox ∨ (s.object wait.obj).kind = .messageQueue) := by
  unfold resumeCall at hexec
  dsimp only at hexec
  split at hexec
  · cases hexec
    exact .inl rfl
  · split at hexec
    · cases hexec
      exact .inl rfl
    · cases hexec
      exact .inl rfl
    · cases hexec
      exact .inl rfl
    next hobject => exact .inr (.inl (by rw [show s.object wait.obj = _ from hobject]; rfl))
    next hobject => exact .inr (.inl (by rw [show s.object wait.obj = _ from hobject]; rfl))
    next hobject => exact .inr (.inr (by rw [show s.object wait.obj = _ from hobject]; rfl))
    · cases hexec

end Calls

theorem System.Initial.inv {cfg : Config} {s : System} (hinit : s.Initial cfg) : SystemInv cfg s :=
  ⟨hinit.live, Core.Initial.inv ⟨hinit.awake, hinit.lists⟩⟩

theorem reachable_systemInv {cfg : Config} {allowed : System → BlockOp → Prop} {s : System}
    (hreach : (blockMachine cfg).Reachable allowed s) : SystemInv cfg s :=
  hreach.invariant (SystemInv cfg) (fun _ => Initial.inv)
    fun _ _ _ hinv _ hexec => (exec_moves hinv hexec).inv hinv

end RtThread.Blocking
