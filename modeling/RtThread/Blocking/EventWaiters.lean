import RtThread.Blocking.Sections

namespace RtThread.Blocking

open Function RtThread.Lib RtThread.Ipc RtThread.Scheduler Blocking.Core

section Status

variable {option other : BitVec 8} {wanted received set : BitVec 32}

theorem eventStatus_eventLeft (hstatus : eventStatus option wanted set = false) :
    eventStatus option wanted (eventLeft other received set) = false := by
  unfold eventLeft
  split
  · unfold eventStatus at hstatus ⊢
    split
    · rename_i hand
      rw [if_pos hand, decide_eq_false_iff_not] at hstatus
      rw [decide_eq_false_iff_not]
      intro hall
      apply hstatus
      calc wanted &&& set = (wanted &&& (set &&& ~~~received)) &&& set := by rw [hall]
        _ = wanted &&& (set &&& ~~~received) := by
          rw [BitVec.and_assoc, BitVec.and_assoc, BitVec.and_comm (~~~received) set,
            ← BitVec.and_assoc set set, BitVec.and_self]
        _ = wanted := hall
    · rename_i hand
      rw [if_neg hand] at hstatus
      split
      · rename_i hor
        rw [if_pos hor, decide_eq_false_iff_not, not_not] at hstatus
        simp [← BitVec.and_assoc, hstatus]
      · rfl
  · exact hstatus

end Status

structure Unsatisfied (x : Core) (t : Tid) (set : BitVec 32) : Prop where
  option : hasAnd (x.eventInfo t) = true ∨ hasOr (x.eventInfo t) = true
  status : eventStatus (x.eventInfo t) (x.eventSet t) set = false

def EventOk (x : Core) (o : ObjId) : Prop :=
  ∀ set, x.object o = .event set → ∀ t ∈ x.list o .receiver, Unsatisfied x t set

section Frame

variable {x x' : Core} {o : ObjId}

theorem EventOk.of_same (hok : EventOk x o) (hobject : x'.object o = x.object o)
    (hlist : ∀ t ∈ x'.list o .receiver, t ∈ x.list o .receiver ∧
      x'.eventInfo t = x.eventInfo t ∧ x'.eventSet t = x.eventSet t) : EventOk x' o := by
  intro set hset t hmem
  rw [hobject] at hset
  obtain ⟨hold, hinfo, hwanted⟩ := hlist t hmem
  obtain ⟨hoption, hstatus⟩ := hok set hset t hold
  exact ⟨by rwa [hinfo], by rwa [hinfo, hwanted]⟩

theorem eventOk_of_kind (hkind : (x.object o).kind ≠ .event) : EventOk x o := by
  intro set hset
  rw [hset] at hkind
  exact absurd rfl hkind

theorem EventOk.apply (hok : EventOk x o) (hinv : CoreInv x) {e : Effect}
    (henabled : x.Enabled e) (htouches : ¬ e.Touches x o) : EventOk (x.apply e) o := by
  cases e with
  | error t code => exact hok.of_same rfl (fun _ h => ⟨h, rfl, rfl⟩)
  | request t set option =>
    refine hok.of_same rfl (fun u hu => ?_)
    have hne : u ≠ t := by
      rintro rfl
      exact hinv.idle_mem henabled o .receiver hu
    exact ⟨hu, by simp [Core.apply, hne], by simp [Core.apply, hne]⟩
  | object o' object =>
    have hne : o ≠ o' := fun h => htouches h.symm
    exact hok.of_same (by simp [Core.apply, hne]) (fun _ h => ⟨h, rfl, rfl⟩)
  | block t o' request timeout tick =>
    refine hok.of_same rfl (fun u hu => ⟨?_, rfl, rfl⟩)
    rcases mem_block.mp hu with hold | ⟨-, ho, -⟩
    · exact hold
    · exact absurd ho.symm htouches
  | grant o' side t received =>
    refine hok.of_same rfl (fun u hu => ?_)
    obtain ⟨hold, hne⟩ := mem_listRemove.mp hu
    exact ⟨hold, rfl, by simp [Core.apply, Core.grant, hne]⟩
  | refuse o' side t =>
    exact hok.of_same rfl (fun _ h => ⟨(mem_listRemove.mp h).1, rfl, rfl⟩)
  | expire t => exact hok.of_same rfl (fun _ h => ⟨(mem_listRemove.mp h).1, rfl, rfl⟩)
  | priority t priority => exact hok.of_same rfl (fun _ h => ⟨h, rfl, rfl⟩)
  | finish t => exact hok.of_same rfl (fun _ h => ⟨h, rfl, rfl⟩)

theorem EventOk.path (hok : EventOk x o) (hinv : CoreInv x)
    {allowed : Core → Effect → Prop} (htouches : ∀ x e, allowed x e → ¬ e.Touches x o)
    (hpath : coreMachine.Path allowed x x') : EventOk x' o := by
  have hboth : CoreInv x' ∧ EventOk x' o := by
    refine hpath.invariant (fun x => CoreInv x ∧ EventOk x o)
      (fun x e x' hold hallowed hexec => ?_) ⟨hinv, hok⟩
    obtain ⟨henabled, rfl⟩ := coreMachine_exec hexec
    exact ⟨hold.1.apply henabled, hold.2.apply hold.1 henabled (htouches x e hallowed)⟩
  exact hboth.2

theorem EventOk.eventLeft (hok : EventOk x o) {set : BitVec 32} (hset : x.object o = .event set)
    (option : BitVec 8) (received : BitVec 32) :
    EventOk (x.apply (.object o (.event (eventLeft option received set)))) o := by
  intro left hleft t hmem
  simp only [Core.apply, update_self, IpcObject.event.injEq] at hleft
  subst hleft
  obtain ⟨hoption, hstatus⟩ := hok set hset t hmem
  exact ⟨hoption, eventStatus_eventLeft hstatus⟩

end Frame

section Calls

variable {cfg : Config} {s s' : System} {c : Nat} {t : Tid} {o : ObjId}

/-- The walk of `rt_event_send`: whoever is still on the list has been passed in vain
or is still to come. -/
theorem eventSendEach_ok {list : List Tid} {set : BitVec 32} (hinv : SystemInv cfg s)
    (hobject : s.object o = .event set) (hmem : ∀ u ∈ list, u ∈ s.list o .receiver)
    (hnodup : list.Nodup)
    (hoption : ∀ u ∈ s.list o .receiver,
      hasAnd (s.eventInfo u) = true ∨ hasOr (s.eventInfo u) = true)
    (hpassed : ∀ u ∈ s.list o .receiver,
      u ∈ list ∨ eventStatus (s.eventInfo u) (s.eventSet u) set = false) :
    EventOk (System.eventSendEach cfg c o list set s).core o := by
  induction list generalizing s set with
  | nil =>
    intro set' hset u hu
    cases hobject.symm.trans hset
    exact ⟨hoption u hu, (hpassed u hu).resolve_left (List.not_mem_nil)⟩
  | cons u rest ih =>
    obtain ⟨hfree, hrest⟩ := List.nodup_cons.mp hnodup
    have hu := hmem u List.mem_cons_self
    simp only [System.eventSendEach]
    split
    · generalize eventReceived (s.eventInfo u) (s.eventSet u) set = received
      generalize hleft : eventLeft (s.eventInfo u) received set = left
      have hmoves : Moves cfg (fun _ _ => True) s (s.eventGrant cfg c o u received left) :=
        .eventGrant hinv (fun _ _ _ _ => trivial) (by simp [hobject]) hu received left
      have hcore := (eventGrant_spec (c := c) hinv hu received left).1
      have hlist : ∀ v ∈ (s.eventGrant cfg c o u received left).list o .receiver,
          v ∈ s.list o .receiver ∧ v ≠ u := by
        intro v hv
        rw [list_eventGrant hinv hu] at hv
        exact mem_listRemove.mp hv
      have hinfo : (s.eventGrant cfg c o u received left).eventInfo = s.eventInfo :=
        congrArg eventInfo hcore
      have hwanted : ∀ v, v ≠ u →
          (s.eventGrant cfg c o u received left).eventSet v = s.eventSet v := by
        intro v hv
        have hset := congrFun (congrArg eventSet hcore) v
        simp only [Core.apply, Core.grant, update_of_ne hv] at hset
        exact hset
      refine ih (hmoves.inv hinv) ?_ (fun v hv => ?_) hrest (fun v hv => ?_) (fun v hv => ?_)
      · have hnew := congrFun (congrArg object hcore) o
        simp only [Core.apply, Core.grant, wake, setView, update_self]
          at hnew
        exact hnew
      · rw [list_eventGrant hinv hu, mem_listRemove]
        refine ⟨hmem v (List.mem_cons_of_mem u hv), ?_⟩
        rintro rfl
        exact hfree hv
      · rw [hinfo]
        exact hoption v (hlist v hv).1
      · obtain ⟨hold, hne⟩ := hlist v hv
        rw [hinfo, hwanted v hne, ← hleft]
        rcases hpassed v hold with hlater | hstatus
        · exact .inl ((List.mem_cons.mp hlater).resolve_left hne)
        · exact .inr (eventStatus_eventLeft hstatus)
    next hvain =>
      rw [Bool.not_eq_true] at hvain
      refine ih hinv hobject (fun v hv => hmem v (List.mem_cons_of_mem u hv)) hrest hoption
        (fun v hv => ?_)
      rcases hpassed v hv with hlater | hstatus
      · rcases List.mem_cons.mp hlater with rfl | hlater
        · exact .inr hvain
        · exact .inl hlater
      · exact .inr hstatus

theorem EventOk.eventSend (hok : EventOk s.core o) (hinv : SystemInv cfg s)
    {old : BitVec 32} (hobject : s.object o = .event old) (set : BitVec 32) :
    EventOk (s.rtEventSend cfg c o old set).core o := by
  unfold System.rtEventSend
  split
  · exact hok
  · refine eventSendEach_ok (hinv.setObject (by simp [hobject])) (object_setObject _) (fun _ h => h)
      (hinv.core.nodup o .receiver) (fun u hu => ?_) (fun u hu => .inl hu)
    exact (hok old hobject u hu).option

theorem EventOk.eventRecv (hok : EventOk s.core o) (hinv : SystemInv cfg s)
    (hc : c < cfg.cpusNr) {current set : BitVec 32} {option : BitVec 8} {timeout : Int}
    (hobject : s.object o = .event current)
    (hexec : s.rtEventRecv cfg c t o current set option timeout = some s') :
    EventOk s'.core o := by
  have hmark : ∀ code, EventOk (s.setError t code).core o := by
    intro code
    rw [core_setError]
    exact hok.of_same rfl (fun _ h => ⟨h, rfl, rfl⟩)
  unfold System.rtEventRecv at hexec
  split at hexec
  next hcan =>
    split at hexec
    · cases hexec
      exact hok
    · split at hexec
      · cases hexec
      next hflags =>
        dsimp only at hexec
        split at hexec
        · cases hexec
          exact (hmark rtEok).eventLeft hobject option set
        next hstatus =>
          rw [Bool.not_eq_true] at hstatus
          split at hexec
          · cases hexec
            have hgive : EventOk ((s.setError t rtEok).core.setError t (-rtEtimeout)) o :=
              (hmark rtEok).of_same rfl (fun _ h => ⟨h, rfl, rfl⟩)
            refine Eq.mpr (congrArg (EventOk · o) ?_) hgive
            exact core_setError _
          · have hlive : Live cfg (s.setError t rtEok).kernel := hinv.live.setThread rfl rfl
            obtain ⟨-, hcore, -⟩ := block_spec
              (s := { s.setError t rtEok with
                eventSet := update s.eventSet t set
                eventInfo := update s.eventInfo t option }) hlive hc hexec
            rw [hcore]
            intro set' hset u hu
            cases hobject.symm.trans hset
            rcases mem_block.mp hu with hold | ⟨rfl, -, -⟩
            · have hne : u ≠ t := by
                rintro rfl
                exact hinv.core.idle_mem (canCall_idle hcan) o .receiver hold
              obtain ⟨hoption, hvain⟩ := hok current hobject u hold
              refine ⟨?_, ?_⟩
              · simpa [block, setView, System.core, hne] using hoption
              · simpa [block, setView, System.core, hne] using hvain
            · refine ⟨?_, ?_⟩
              · rw [not_and_or, Bool.not_eq_false, Bool.not_eq_false] at hflags
                simpa [block, setView, System.core] using hflags
              · simpa [block, setView, System.core] using hstatus
  · cases hexec

theorem EventOk.call (hok : EventOk s.core o) (hinv : SystemInv cfg s) (hc : c < cfg.cpusNr)
    (hkind : (s.object o).kind = .event) {call : Call}
    (hexec : s.call cfg c t o call = some s') : EventOk s'.core o := by
  unfold System.call at hexec
  split at hexec <;> (try (rename_i hobject; rw [hobject] at hkind; cases hkind; done))
  next old set hobject =>
    cases hexec
    exact hok.eventSend hinv hobject set
  next hobject => exact hok.eventRecv hinv hc hobject hexec
  · -- nobody is left on the list
    obtain ⟨refused, hall, rfl⟩ := Option.map_eq_some_iff.mp hexec
    have hmoves : Moves cfg (fun _ _ => True) s refused ∧ refused.list o .receiver = [] ∧
        refused.object = s.object :=
      listResumeAll_moves hinv (fun _ _ _ _ => trivial) hall
    intro set hset u hu
    have hempty := hmoves.2.1
    have hmem : u ∈ refused.list o .receiver := hu
    rw [hempty] at hmem
    cases hmem
  · cases hexec

theorem EventOk.resumeCall {wait : Wait} (hok : EventOk s.core wait.obj)
    (hkind : (s.object wait.obj).kind = .event)
    (hexec : s.resumeCall cfg c t wait = some s') : EventOk s'.core wait.obj := by
  rcases resumeCall_cases hexec with hcore | hother
  · rw [hcore]
    exact hok.of_same rfl (fun _ h => ⟨h, rfl, rfl⟩)
  · rw [hkind] at hother
    rcases hother with hother | hother <;> cases hother

theorem EventOk.exec (hok : EventOk s.core o) (hinv : SystemInv cfg s) {op : BlockOp}
    (hexec : s.exec cfg op = some s') : EventOk s'.core o := by
  by_cases hkind : (s.object o).kind = .event
  · by_cases htarget : op.target s = some o
    · rcases exec_target_cases htarget hexec with
        ⟨c, t, call, -, hc, hcall⟩ | ⟨c, t, wait, -, hc, -, -, rfl, hresume⟩
      · exact hok.call hinv hc hkind hcall
      · exact hok.resumeCall hkind hresume
    · refine hok.path hinv.core (fun x e hallowed htouches => ?_) (exec_moves hinv hexec).path
      exact htarget (hallowed.1 o htouches)
  · refine eventOk_of_kind ?_
    rw [show (s'.core.object o).kind = _ from exec_kind hinv hexec o]
    exact hkind

end Calls

/-- No thread that sleeps on an event object is satisfied by its set, the sleeping
threads are those on its list, and no wait has been ended twice. -/
structure EventWaitersOk (s : System) : Prop where
  andWaiter : ∀ o set, s.object o = .event set → ∀ t ∈ s.list o .receiver,
    hasAnd (s.eventInfo t) = true → s.eventSet t &&& set ≠ s.eventSet t
  orWaiter : ∀ o set, s.object o = .event set → ∀ t ∈ s.list o .receiver,
    hasAnd (s.eventInfo t) = false →
      hasOr (s.eventInfo t) = true ∧ s.eventSet t &&& set = 0
  listed : ∀ t wait, s.wait t = some wait → wait.request = .eventRecv →
    s.stat t = .suspend → t ∈ s.list wait.obj .receiver
  once : ∀ t wait, s.wait t = some wait → (s.wakers t).length ≤ 1

structure EventInv (cfg : Config) (s : System) : Prop extends SystemInv cfg s where
  event : ∀ o, EventOk s.core o

theorem EventInv.eventWaitersOk {cfg : Config} {s : System} (hinv : EventInv cfg s) :
    EventWaitersOk s := by
  refine ⟨fun o set hset t hmem hand => ?_, fun o set hset t hmem hand => ?_,
    fun t wait hwait hrequest hsuspend => ?_, fun t wait hwait => ?_⟩
  · have hstatus : eventStatus (s.eventInfo t) (s.eventSet t) set = false :=
      (hinv.event o set hset t hmem).status
    unfold eventStatus at hstatus
    rwa [if_pos hand, decide_eq_false_iff_not] at hstatus
  · obtain ⟨hoption, hstatus⟩ := hinv.event o set hset t hmem
    have hor : hasOr (s.eventInfo t) = true :=
      hoption.resolve_left (by rw [show hasAnd (s.core.eventInfo t) = false from hand]; simp)
    have hvain : eventStatus (s.eventInfo t) (s.eventSet t) set = false := hstatus
    unfold eventStatus at hvain
    rw [if_neg (by simp [hand]), if_pos hor, decide_eq_false_iff_not, not_not] at hvain
    exact ⟨hor, hvain⟩
  · obtain ⟨wait', hwait', hmem⟩ := (hinv.core.state t).of_suspended hsuspend
    cases hwait.symm.trans hwait'
    rw [hrequest] at hmem
    exact hmem
  · by_cases hready : s.stat t = .ready
    · obtain ⟨waker, -, -, hwakers, -⟩ := (hinv.core.state t).of_ready hwait hready
      rw [show s.wakers t = [waker] from hwakers]
      exact Nat.le_refl 1
    · cases hinv.core.state t with
      | outside hnone => cases hwait.symm.trans hnone
      | asleep _ _ _ _ _ hwakers =>
        rw [show s.wakers t = [] from hwakers]
        exact Nat.zero_le 1
      | woken _ _ _ hstat => exact absurd hstat hready

theorem System.Initial.eventInv {cfg : Config} {s : System} (hinit : s.Initial cfg) :
    EventInv cfg s := by
  refine ⟨hinit.inv, fun o set hset t hmem => ?_⟩
  rw [show s.core.list o .receiver = [] from (hinit.lists o .receiver).1] at hmem
  cases hmem

theorem reachable_eventWaitersOk {cfg : Config} {s : System}
    (hreach : (blockMachine cfg).Reachable (fun _ _ => True) s) : EventWaitersOk s := by
  have hinv : EventInv cfg s := hreach.invariant (EventInv cfg)
    (fun _ => System.Initial.eventInv) fun _ _ _ hinv _ hexec =>
      ⟨(exec_moves hinv.toSystemInv hexec).inv hinv.toSystemInv,
        fun o => (hinv.event o).exec hinv.toSystemInv hexec⟩
  exact hinv.eventWaitersOk

/-- Thread 2 waits for both of two events: the first one leaves it asleep. -/
theorem reachable_eventWaitersOk_andWaiter :
    ∃ s, (blockMachine (Config.flat 2)).Reachable (fun _ _ => True) s ∧
      s.list 2 .receiver = [2] ∧ s.eventSet 2 = 3 ∧ EventWaitersOk s := by
  have hrun : ((blockMachine (Config.flat 2)).run (fun _ _ => True) blockStart
      [.call 1 2 (.eventRecv 3 5 10), .schedule 1, .call 0 2 (.eventSend 1)]).map
        (fun s => (s.list 2 .receiver, s.eventSet 2)) = some ([2], 3) := by
    decide +kernel
  obtain ⟨s, hreach, hvalue⟩ := Machine.exists_reachable_of_run blockStart_initial hrun
  simp only [Prod.mk.injEq] at hvalue
  exact ⟨s, hreach, hvalue.1, hvalue.2, reachable_eventWaitersOk hreach⟩

end RtThread.Blocking
