import RtThread.Blocking.EventWaiters

namespace RtThread.Blocking

open Function RtThread.Ipc RtThread.Scheduler Blocking.Core

section Bits

variable {option : BitVec 8} {wanted set : BitVec 32}

theorem eventReceived_eq (hstatus : eventStatus option wanted set = true) :
    eventReceived option wanted set = set &&& wanted := by
  unfold eventReceived
  unfold eventStatus at hstatus
  split at hstatus
  next hand =>
    rw [if_pos hand, BitVec.and_comm]
    exact (of_decide_eq_true hstatus).symm
  next hand => rw [if_neg hand, BitVec.and_comm]

theorem eventLeft_eventReceived :
    eventLeft option (eventReceived option wanted set) set = eventLeft option wanted set := by
  unfold eventLeft eventReceived
  split
  · split
    · rfl
    · ext i
      simp only [BitVec.getElem_and, BitVec.getElem_not]
      cases set[i] <;> cases wanted[i] <;> rfl
  · rfl

end Bits

def Elsewhere (o : ObjId) (s : System) (op : BlockOp) : Prop := op.target s ≠ some o

instance (o : ObjId) (s : System) (op : BlockOp) : Decidable (Elsewhere o s op) :=
  inferInstanceAs (Decidable (_ ≠ _))

/-- `t` is in the call `wait` on the event object `o`, on which nobody else waits. -/
structure Core.Waiting (x : Core) (o : ObjId) (t : Tid) (wait : Wait) (set wanted : BitVec 32)
    (option : BitVec 8) : Prop where
  object : x.object o = .event set
  waits : x.wait t = some wait
  obj : wait.obj = o
  request : wait.request = .eventRecv
  info : x.eventInfo t = option
  wanted : x.eventSet t = wanted
  alone : ∀ u ∈ x.list o .receiver, u = t

structure Core.Served (x : Core) (o : ObjId) (t : Tid) (wait : Wait) (set received : BitVec 32) :
    Prop where
  object : x.object o = .event set
  waits : x.wait t = some wait
  obj : wait.obj = o
  request : wait.request = .eventRecv
  received : x.eventSet t = received
  goesOn : (x.view t).stat = .ready ∧ (x.view t).error = rtEok

section Frame

variable {x : Core} {o : ObjId} {t : Tid} {wait : Wait} {set wanted received : BitVec 32}
  {option : BitVec 8} {e : Effect}

theorem object_apply (htouches : ¬e.Touches x o) : (x.apply e).object o = x.object o := by
  cases e with
  | object o' object =>
    have hne : o ≠ o' := fun h => htouches h.symm
    simp [apply, hne]
  | _ => rfl

theorem ne_of_idle {u : Tid} (hidle : x.Idle u) (hwait : x.wait t = some wait) : t ≠ u := by
  rintro rfl
  rw [hidle.2] at hwait
  cases hwait

theorem wait_apply (henabled : x.Enabled e) (htouches : ¬e.Touches x o)
    (hwait : x.wait t = some wait) (hobj : wait.obj = o) : (x.apply e).wait t = some wait := by
  cases e with
  | block u o' request timeout tick =>
    have hne := ne_of_idle henabled.1 hwait
    simpa [apply, block, hne] using hwait
  | finish u =>
    have hne : t ≠ u := by
      rintro rfl
      exact htouches ⟨wait, hwait, hobj⟩
    simpa [apply, finish, hne] using hwait
  | _ => exact hwait

theorem Core.Waiting.apply (hwaiting : x.Waiting o t wait set wanted option) (hinv : CoreInv x)
    (henabled : x.Enabled e) (htouches : ¬e.Touches x o) :
    (x.apply e).Waiting o t wait set wanted option := by
  obtain ⟨hobject, hwait, hobj, hrequest, hinfo, hwanted, halone⟩ := hwaiting
  have hobject' : (x.apply e).object o = .event set := (object_apply htouches).trans hobject
  have hwait' := wait_apply henabled htouches hwait hobj
  refine ⟨hobject', hwait', hobj, hrequest, ?_, ?_, ?_⟩
  · cases e with
    | request u set' option' =>
      have hne := ne_of_idle henabled hwait
      simpa [apply, hne] using hinfo
    | _ => exact hinfo
  · cases e with
    | request u set' option' =>
      have hne := ne_of_idle henabled hwait
      simpa [apply, hne] using hwanted
    | grant o' side u received =>
      have hne : t ≠ u := by
        rintro rfl
        obtain ⟨wait', hwait', ho', -⟩ := (hinv.state t).of_mem henabled
        cases hwait.symm.trans hwait'
        exact htouches (ho'.trans hobj)
      simpa [apply, grant, hne] using hwanted
    | _ => exact hwanted
  · intro u hu
    cases e with
    | block v o' request timeout tick =>
      rcases mem_block.mp hu with hold | ⟨-, ho, -⟩
      · exact halone u hold
      · exact absurd ho.symm htouches
    | grant o' side v received => exact halone u (mem_listRemove.mp hu).1
    | refuse o' side v => exact halone u (mem_listRemove.mp hu).1
    | expire v => exact halone u (mem_listRemove.mp hu).1
    | _ => exact halone u hu

theorem Core.Served.apply (hserved : x.Served o t wait set received) (hinv : CoreInv x)
    (henabled : x.Enabled e) (htouches : ¬e.Touches x o) :
    (x.apply e).Served o t wait set received := by
  obtain ⟨hobject, hwait, hobj, hrequest, hreceived, hready, herror⟩ := hserved
  have hasleep : ∀ u o' side, u ∈ x.list o' side → t ≠ u := by
    rintro u o' side hu rfl
    obtain ⟨-, -, -, -, hsuspend, -⟩ := (hinv.state t).of_mem hu
    rw [hready] at hsuspend
    cases hsuspend
  refine ⟨(object_apply htouches).trans hobject, wait_apply henabled htouches hwait hobj, hobj,
    hrequest, ?_, ?_⟩
  · cases e with
    | request u set' option' =>
      have hne := ne_of_idle henabled hwait
      simpa [apply, hne] using hreceived
    | grant o' side u received' =>
      have hne := hasleep u o' side henabled
      simpa [apply, grant, hne] using hreceived
    | _ => exact hreceived
  · cases e with
    | error u code =>
      have hne := ne_of_idle henabled hwait
      simpa [apply, setError, setView, hne] using ⟨hready, herror⟩
    | block u o' request timeout tick =>
      have hne := ne_of_idle henabled.1 hwait
      simpa [apply, block, setView, hne] using ⟨hready, herror⟩
    | grant o' side u received' =>
      have hne := hasleep u o' side henabled
      simpa [apply, grant, wake, setView, hne] using ⟨hready, herror⟩
    | refuse o' side u =>
      have hne := hasleep u o' side henabled
      simpa [apply, setError, wake, setView, hne] using ⟨hready, herror⟩
    | expire u =>
      have hne : t ≠ u := by
        rintro rfl
        rw [henabled.1] at hready
        cases hready
      simpa [apply, setError, wake, setView, hne] using ⟨hready, herror⟩
    | priority u priority =>
      by_cases hu : t = u
      · subst hu
        simpa [apply, setView] using ⟨hready, herror⟩
      · simpa [apply, setView, hu] using ⟨hready, herror⟩
    | _ => exact ⟨hready, herror⟩

end Frame

section Runs

variable {cfg : Config} {s s' : System} {c : Nat} {o : ObjId} {t : Tid} {wait : Wait}
  {set wanted received : BitVec 32} {option : BitVec 8}

theorem elsewhere_invariant {P : Core → Prop}
    (hkeep : ∀ x e, CoreInv x → P x → x.Enabled e → ¬e.Touches x o → P (x.apply e))
    (hpath : (blockMachine cfg).Path (Elsewhere o) s s') (hinv : SystemInv cfg s)
    (hholds : P s.core) : SystemInv cfg s' ∧ P s'.core := by
  apply hpath.invariant (fun s => SystemInv cfg s ∧ P s.core) _ ⟨hinv, hholds⟩
  rintro s op s' ⟨hinv, hholds⟩ helsewhere hexec
  have hmoves := exec_moves hinv hexec
  refine ⟨hmoves.inv hinv, ?_⟩
  have hboth : CoreInv s'.core ∧ P s'.core := by
    apply hmoves.path.invariant (fun x => CoreInv x ∧ P x) _ ⟨hinv.core, hholds⟩
    rintro x e x' ⟨hcore, hx⟩ hallowed hstep
    obtain ⟨henabled, rfl⟩ := coreMachine_exec hstep
    refine ⟨hcore.apply henabled, hkeep x e hcore hx henabled fun htouches => ?_⟩
    exact helsewhere (hallowed.1 o htouches)
  exact hboth.2

theorem exec_call {call : Call}
    (hexec : (blockMachine cfg).exec s (.call c o call) = some s') :
    ∃ t, c < cfg.cpusNr ∧ (s.kernel.cpu c).currentThread = some t ∧
      s.call cfg c t o call = some s' := by
  have hexec : s.exec cfg (.call c o call) = some s' := hexec
  unfold System.exec at hexec
  split at hexec
  next hc =>
    obtain ⟨t, hcurrent, hcall⟩ := Option.bind_eq_some_iff.mp hexec
    exact ⟨t, hc, hcurrent, hcall⟩
  · cases hexec

theorem eventRecv_blocks (hinv : SystemInv cfg s) (hobject : s.object o = .event set)
    (hfree : s.list o .receiver = []) (hwanted : wanted ≠ 0)
    (hstatus : eventStatus option wanted set = false) {timeout : Int} (htimeout : timeout ≠ 0)
    (hcurrent : (s.kernel.cpu c).currentThread = some t)
    (hexec : (blockMachine cfg).exec s (.call c o (.eventRecv wanted option timeout)) = some s') :
    ∃ wait, SystemInv cfg s' ∧ s'.core.Waiting o t wait set wanted option ∧
      s'.stat t = .suspend ∧ s'.result = none := by
  obtain ⟨t', hc, hcurrent', hcall⟩ := exec_call hexec
  cases hcurrent.symm.trans hcurrent'
  have hinv' := (exec_moves hinv hexec).inv hinv
  simp only [System.call, hobject, System.rtEventRecv, if_neg hwanted, hstatus, Bool.false_eq_true,
    if_false, if_neg htimeout] at hcall
  split at hcall
  next hcan =>
    split at hcall
    · cases hcall
    · have hlive : Live cfg (s.setError t rtEok).kernel := hinv.live.setThread rfl rfl
      have hresult : s'.result = none := by
        unfold System.block at hcall
        split at hcall
        · obtain ⟨_, -, rfl⟩ := Option.map_eq_some_iff.mp hcall
          rfl
        · cases hcall
      obtain ⟨-, hcore, -⟩ := block_spec
        (s := { s.setError t rtEok with
          eventSet := update s.eventSet t wanted
          eventInfo := update s.eventInfo t option }) hlive hc hcall
      refine ⟨⟨o, .eventRecv, timeout, s.tick⟩, hinv', ⟨?_, ?_, rfl, rfl, ?_, ?_, ?_⟩, ?_, hresult⟩
      · rw [hcore]
        exact hobject
      · rw [hcore]
        exact update_self _ _ _
      · rw [hcore]
        exact update_self _ _ _
      · rw [hcore]
        exact update_self _ _ _
      · rw [hcore]
        intro u hu
        rcases mem_block.mp hu with hold | ⟨hself, -, -⟩
        · have hold : u ∈ s.list o .receiver := hold
          rw [hfree] at hold
          cases hold
        · exact hself
      · have hstat : (s'.core.view t).stat = .suspend := by
          rw [hcore]
          simp [block, setView]
        exact hstat
  · cases hcall

theorem eventSend_waiting (hinv : SystemInv cfg s)
    (hwaiting : s.core.Waiting o t wait set wanted option) (hstat : s.stat t = .suspend)
    (hstatus : eventStatus option wanted set = false) {sent : BitVec 32}
    (hexec : (blockMachine cfg).exec s (.call c o (.eventSend sent)) = some s') :
    SystemInv cfg s' ∧
      (eventStatus option wanted (set ||| sent) = true →
        s'.core.Served o t wait (eventLeft option wanted (set ||| sent))
          ((set ||| sent) &&& wanted)) ∧
      (eventStatus option wanted (set ||| sent) = false →
        s'.stat t = .suspend ∧ s'.object o = .event (set ||| sent)) := by
  obtain ⟨u, hc, -, hcall⟩ := exec_call hexec
  have hinv' := (exec_moves hinv hexec).inv hinv
  obtain ⟨hobject, hwaits, hobj, hrequest, hinfo, hwanted, halone⟩ := hwaiting
  have hobject : s.object o = .event set := hobject
  have hmem : t ∈ s.list o .receiver := by
    obtain ⟨wait', hwaits', hmem⟩ := (hinv.core.state t).of_suspended hstat
    cases hwaits.symm.trans hwaits'
    rw [hobj, hrequest] at hmem
    exact hmem
  have hlist : s.list o .receiver = [t] := by
    have hnodup : (s.list o .receiver).Nodup := hinv.core.nodup o .receiver
    exact List.perm_singleton.mp ((List.perm_ext_iff_of_nodup hnodup (by simp)).mpr
      fun u => ⟨fun hu => List.mem_singleton.mpr (halone u hu),
        fun hu => List.mem_singleton.mp hu ▸ hmem⟩)
  refine ⟨hinv', ?_⟩
  simp only [System.call, hobject, Option.some.injEq] at hcall
  subst hcall
  unfold System.rtEventSend
  by_cases hsent : sent = 0
  · subst hsent
    have hnone : set ||| (0 : BitVec 32) = set := BitVec.or_zero
    rw [if_pos rfl, hnone, hstatus]
    exact ⟨fun h => absurd h (by decide), fun _ => ⟨hstat, hobject⟩⟩
  · have hset : SystemInv cfg (s.setObject o (.event (set ||| sent))) :=
      hinv.setObject (by simp [hobject])
    have hinfo : (s.setObject o (.event (set ||| sent))).eventInfo t = option := hinfo
    have hwanted : (s.setObject o (.event (set ||| sent))).eventSet t = wanted := hwanted
    rw [if_neg hsent, hlist]
    simp only [System.eventSendEach, hinfo, hwanted]
    cases hserve : eventStatus option wanted (set ||| sent) with
    | false => exact ⟨fun h => absurd h (by decide), fun _ => ⟨hstat, object_setObject _⟩⟩
    | true =>
      refine ⟨fun _ => ?_, fun h => absurd h (by decide)⟩
      rw [if_pos rfl, eventReceived_eq hserve]
      have hleft : eventLeft option ((set ||| sent) &&& wanted) (set ||| sent) =
          eventLeft option wanted (set ||| sent) := by
        rw [← eventReceived_eq hserve]
        exact eventLeft_eventReceived
      rw [hleft]
      obtain ⟨hcore, -⟩ := eventGrant_spec (c := c) hset hmem ((set ||| sent) &&& wanted)
        (eventLeft option wanted (set ||| sent))
      have herror : ((s.setObject o (.event (set ||| sent))).core.view t).error = rtEok := by
        obtain ⟨-, -, -, -, -, herror, -⟩ := (hinv.core.state t).of_mem hmem
        exact herror
      have hserved : ((((s.setObject o (.event (set ||| sent))).core.apply
          (.object o (.event (eventLeft option wanted (set ||| sent))))).apply
          (.grant o .receiver t ((set ||| sent) &&& wanted))).Served o t wait
            (eventLeft option wanted (set ||| sent)) ((set ||| sent) &&& wanted)) := by
        refine ⟨?_, hwaits, hobj, hrequest, ?_, ?_⟩
        · exact update_self _ _ _
        · exact update_self _ _ _
        · simpa [apply, grant, wake, setView] using herror
      rw [← hcore] at hserved
      exact ⟨hserved.object, hserved.waits, hserved.obj, hserved.request, hserved.received,
        hserved.goesOn⟩

theorem proceed_served (hc : c < cfg.cpusNr) (hcurrent : (s.kernel.cpu c).currentThread = some t)
    (hserved : s.core.Served o t wait set received) :
    ∃ s', (blockMachine cfg).exec s (.proceed c) = some s' ∧
      s'.result = some ⟨rtEok, some received.toNat⟩ ∧ s'.object o = .event set := by
  obtain ⟨hobject, hwaits, hobj, hrequest, hreceived, hready, herror⟩ := hserved
  have hwaits : s.wait t = some wait := hwaits
  have hready : s.stat t = .ready := hready
  have herror : (s.finish t).error t = rtEok := herror
  have hreceived : (s.finish t).eventSet t = received := hreceived
  refine ⟨{ s.finish t with result := some ⟨rtEok, some received.toNat⟩ }, ?_, rfl, hobject⟩
  have hstep : s.exec cfg (.proceed c) = s.proceed cfg c := if_pos hc
  show s.exec cfg (.proceed c) = _
  rw [hstep]
  simp only [System.proceed, hcurrent, hwaits, hready, if_true, System.resumeCall, herror, hrequest,
    hreceived, ne_eq, not_true_eq_false, if_false]

theorem eventSend_free (hinv : SystemInv cfg s) (hobject : s.object o = .event set)
    (hfree : s.list o .receiver = []) {sent : BitVec 32}
    (hexec : (blockMachine cfg).exec s (.call c o (.eventSend sent)) = some s') :
    SystemInv cfg s' ∧ s'.object o = .event (set ||| sent) := by
  obtain ⟨u, hc, -, hcall⟩ := exec_call hexec
  refine ⟨(exec_moves hinv hexec).inv hinv, ?_⟩
  simp only [System.call, hobject, Option.some.injEq] at hcall
  subst hcall
  unfold System.rtEventSend
  by_cases hsent : sent = 0
  · subst hsent
    have hnone : set ||| (0 : BitVec 32) = set := BitVec.or_zero
    rw [if_pos rfl, hnone]
    exact hobject
  · rw [if_neg hsent, hfree]
    exact object_setObject _

theorem eventRecv_after (hobject : s.object o = .event set) (hwanted : wanted ≠ 0) {timeout : Int}
    (htimeout : timeout ≠ 0)
    (hexec : (blockMachine cfg).exec s (.call c o (.eventRecv wanted option timeout)) = some s') :
    (eventStatus option wanted set = true →
      s'.result = some ⟨rtEok, some (set &&& wanted).toNat⟩ ∧
        s'.object o = .event (eventLeft option wanted set)) ∧
    (eventStatus option wanted set = false → s'.result = none ∧ s'.object o = .event set) := by
  obtain ⟨t, hc, -, hcall⟩ := exec_call hexec
  simp only [System.call, hobject, System.rtEventRecv, if_neg hwanted, if_neg htimeout] at hcall
  split at hcall
  next hcan =>
    split at hcall
    · cases hcall
    · cases hstatus : eventStatus option wanted set with
      | true =>
        rw [hstatus, if_pos rfl] at hcall
        cases hcall
        exact ⟨fun _ => ⟨rfl, update_self _ _ _⟩, fun h => absurd h (by decide)⟩
      | false =>
        rw [hstatus, if_neg (by decide)] at hcall
        refine ⟨fun h => absurd h (by decide), fun _ => ?_⟩
        have hkept := object_block hcall
        refine ⟨?_, ?_⟩
        · unfold System.block at hcall
          split at hcall
          · obtain ⟨_, -, rfl⟩ := Option.map_eq_some_iff.mp hcall
            rfl
          · cases hcall
        · rw [hkept]
          exact hobject
  · cases hcall

end Runs

/-- What has become of the receiver once the sender has returned (`sent`), compared with its own
call where it came second (`received`): it is READY in the same cases, the event set is the same,
and whenever it runs its call returns the same, with the same set. -/
structure SameDelivery (cfg : Config) (o : ObjId) (t : Tid) (sent received : System) : Prop where
  succeeds : sent.stat t = .ready ↔ ∃ value, received.result = some ⟨rtEok, value⟩
  left : sent.object o = received.object o
  delivers : sent.stat t = .ready → ∀ later c, (blockMachine cfg).Path (Elsewhere o) sent later →
    c < cfg.cpusNr → (later.kernel.cpu c).currentThread = some t →
      ∃ s', (blockMachine cfg).exec later (.proceed c) = some s' ∧ s'.result = received.result ∧
        s'.object o = received.object o

/-- A receive that the event set does not satisfy and one send, in either order: the receiver that
comes first blocks, and both orders come to the same. -/
theorem recv_send_agree {cfg : Config} {s : System} {o : ObjId} {t : Tid}
    {set wanted sent : BitVec 32} {option : BitVec 8} {timeout : Int} {c₁ c₂ c₃ c₄ : Nat}
    (hreach : (blockMachine cfg).Reachable (fun _ _ => True) s)
    (hobject : s.object o = .event set) (hfree : s.list o .receiver = [])
    (hwanted : wanted ≠ 0) (htimeout : timeout ≠ 0)
    (hstatus : eventStatus option wanted set = false)
    -- the receiver comes first, and still waits when the sender comes
    {blocked waiting served : System}
    (hcurrent : (s.kernel.cpu c₁).currentThread = some t)
    (hrecv : (blockMachine cfg).exec s (.call c₁ o (.eventRecv wanted option timeout)) =
      some blocked)
    (hwait : (blockMachine cfg).Path (Elsewhere o) blocked waiting)
    (hstill : waiting.stat t = .suspend)
    (hserve : (blockMachine cfg).exec waiting (.call c₂ o (.eventSend sent)) = some served)
    -- the sender comes first
    {left ready received : System}
    (hsend : (blockMachine cfg).exec s (.call c₃ o (.eventSend sent)) = some left)
    (hmeanwhile : (blockMachine cfg).Path (Elsewhere o) left ready)
    (htake : (blockMachine cfg).exec ready (.call c₄ o (.eventRecv wanted option timeout)) =
      some received) :
    blocked.stat t = .suspend ∧ blocked.result = none ∧ SameDelivery cfg o t served received := by
  have hinv := reachable_systemInv hreach
  obtain ⟨wait, hblocked, hwaiting, hsuspend, hresult⟩ :=
    eventRecv_blocks hinv hobject hfree hwanted hstatus htimeout hcurrent hrecv
  refine ⟨hsuspend, hresult, ?_⟩
  obtain ⟨hinvWaiting, hwaiting⟩ := elsewhere_invariant
    (fun _ _ hcore hx henabled htouches => Waiting.apply hx hcore henabled htouches)
    hwait hblocked hwaiting
  obtain ⟨hinvServed, hgood, hvain⟩ := eventSend_waiting hinvWaiting hwaiting hstill hstatus hserve
  obtain ⟨hinvLeft, hleft⟩ := eventSend_free hinv hobject hfree hsend
  obtain ⟨-, hready⟩ := elsewhere_invariant (P := fun x => x.object o = .event (set ||| sent))
    (fun _ _ _ hx _ htouches => (object_apply htouches).trans hx) hmeanwhile hinvLeft hleft
  obtain ⟨htaken, hnothing⟩ := eventRecv_after hready hwanted htimeout htake
  cases hagain : eventStatus option wanted (set ||| sent) with
  | true =>
    have hserved := hgood hagain
    obtain ⟨hvalue, hrest⟩ := htaken hagain
    constructor
    · exact ⟨fun _ => ⟨_, hvalue⟩, fun _ => hserved.goesOn.1⟩
    · exact hserved.object.trans hrest.symm
    · intro _ later c hlater hc hruns
      obtain ⟨-, hlaterServed⟩ := elsewhere_invariant
        (fun _ _ hcore hx henabled htouches => Served.apply hx hcore henabled htouches)
        hlater hinvServed hserved
      obtain ⟨s', hproceed, hreturns, hset⟩ := proceed_served hc hruns hlaterServed
      exact ⟨s', hproceed, hreturns.trans hvalue.symm, hset.trans hrest.symm⟩
  | false =>
    obtain ⟨hasleep, hset⟩ := hvain hagain
    obtain ⟨hnone, hrest⟩ := hnothing hagain
    have hnot : served.stat t ≠ .ready := by
      rw [hasleep]
      decide
    constructor
    · constructor
      · intro h
        exact absurd h hnot
      · rintro ⟨value, hvalue⟩
        rw [hnone] at hvalue
        cases hvalue
    · exact hset.trans hrest.symm
    · intro h
      exact absurd h hnot

/-- Thread 2 wants events of the set 3 with OR and CLEAR, and somebody sends the set 6. -/
theorem recv_send_agree_orClear :
    ∃ blocked served received : System, blocked.stat 2 = .suspend ∧ served.stat 2 = .ready ∧
      received.result = some ⟨rtEok, some 2⟩ ∧
      SameDelivery (Config.flat 2) 2 2 served received := by
  have hfirst : (((blockMachine (Config.flat 2)).exec blockStart
      (.call 1 2 (.eventRecv 3 6 10))).bind fun blocked =>
        ((blockMachine (Config.flat 2)).exec blocked (.schedule 1)).bind fun waiting =>
          ((blockMachine (Config.flat 2)).exec waiting (.call 0 2 (.eventSend 6))).map fun served =>
            (waiting.stat 2, served.stat 2)) = some (.suspend, .ready) := by decide +kernel
  have hsecond : (((blockMachine (Config.flat 2)).exec blockStart
      (.call 0 2 (.eventSend 6))).bind fun left =>
        ((blockMachine (Config.flat 2)).exec left (.call 1 2 (.eventRecv 3 6 10))).map
          fun received => received.result) = some (some ⟨rtEok, some 2⟩) := by decide +kernel
  obtain ⟨blocked, hrecv, hfirst⟩ := Option.bind_eq_some_iff.mp hfirst
  obtain ⟨waiting, hwait, hfirst⟩ := Option.bind_eq_some_iff.mp hfirst
  obtain ⟨served, hserve, hstats⟩ := Option.map_eq_some_iff.mp hfirst
  obtain ⟨left, hsend, hsecond⟩ := Option.bind_eq_some_iff.mp hsecond
  obtain ⟨received, htake, hresult⟩ := Option.map_eq_some_iff.mp hsecond
  rw [Prod.mk.injEq] at hstats
  obtain ⟨hstill, hready⟩ := hstats
  have hobject : blockStart.object 2 = .event 0 := rfl
  obtain ⟨hblocked, -, hsame⟩ := recv_send_agree (t := 2) (.start blockStart_initial) hobject rfl
    (by decide) (by decide) (by decide) (by decide) hrecv
    (.single (by simp [Elsewhere, BlockOp.target]) hwait) hstill hserve hsend .refl htake
  exact ⟨blocked, served, received, hblocked, hready, hresult, hsame⟩

end RtThread.Blocking
