import RtThread.Scheduler.Defunct
import RtThread.Scheduler.Handover

namespace RtThread.Scheduler

open Function RtThread.Lib

namespace EndSystem

/-- `t` has ended, or a call of `rt_thread_delete` is about to end it. -/
def Doomed (s : EndSystem) (t : Tid) : Prop :=
  (s.kernel.thread t).stat = .close ∨ ∃ u, (s.call u).target = some t

theorem inUse_iff {cfg : Config} {s : EndSystem} {t : Tid} :
    s.inUse cfg t = true ↔ ∃ c < cfg.cpusNr, (s.kernel.cpu c).currentThread = some t := by
  simp [inUse, List.any_eq_true]

structure Inv (cfg : Config) (s : EndSystem) : Prop where
  placed : Placed cfg s.kernel
  linked : ∀ t, s.kernel.Linked t → ¬ s.Doomed t
  current : ∀ c < cfg.cpusNr, ∀ t, (s.kernel.cpu c).currentThread = some t →
    s.Doomed t → s.call t = .exiting
  exiting : ∀ t, s.call t = .exiting → (s.kernel.thread t).stat = .close
  closed : ∀ u t, s.call u = .closed t → (s.kernel.thread t).stat = .close
  defunct : ∀ t ∈ s.rtThreadDefunct, (s.kernel.thread t).stat = .close
  reclaiming : ∀ u t, s.call u = .reclaiming t →
    (s.kernel.thread t).stat = .close ∧
      ∀ c < cfg.cpusNr, (s.kernel.cpu c).currentThread ≠ some t
  clean : ∀ r ∈ s.reclaimed, r.2 = false

section Steps

variable {cfg : Config} {s : EndSystem} {c : Nat} {t u : Tid}

theorem Inv.handover (hinv : s.Inv cfg) (hc : c < cfg.cpusNr) {k : Kernel}
    (hhand : Handover cfg c s.kernel k) : (s.withKernel k).Inv cfg := by
  have hstat : ∀ t, (k.thread t).stat = (s.kernel.thread t).stat :=
    fun t => (hhand.wait t).stat
  have hdoomed : ∀ t, (s.withKernel k).Doomed t ↔ s.Doomed t := by
    intro t
    simp only [Doomed, withKernel, hstat]
  refine ⟨hinv.placed.handover hc hhand, fun t ht hdoom => ?_, fun c' hc' t ht hdoom => ?_,
    fun t ht => ?_, fun u t hu => ?_, fun t ht => ?_, fun u t hu => ?_, hinv.clean⟩
  · rw [hdoomed] at hdoom
    rcases hhand.linked t ht with hlinked | ⟨hcurrent, hready, -⟩
    · exact hinv.linked t hlinked hdoom
    · have hclose := hinv.exiting t (hinv.current c hc t hcurrent hdoom)
      rw [hready] at hclose
      cases hclose
  · rw [hdoomed] at hdoom
    rcases hhand.current_cases ht with hold | ⟨-, hlinked, -⟩
    · exact hinv.current c' hc' t hold hdoom
    · exact absurd hdoom (hinv.linked t hlinked)
  · exact (hstat t).trans (hinv.exiting t ht)
  · exact (hstat t).trans (hinv.closed u t hu)
  · exact (hstat t).trans (hinv.defunct t ht)
  · obtain ⟨hclose, hfree⟩ := hinv.reclaiming u t hu
    refine ⟨(hstat t).trans hclose, fun c' hc' ht => ?_⟩
    rcases hhand.current_cases ht with hold | ⟨-, hlinked, -⟩
    · exact hfree c' hc' hold
    · exact hinv.linked t hlinked (.inl hclose)

end Steps

structure LocalStep (cfg : Config) (s s' : EndSystem) : Prop where
  cpu : ∀ c, (s'.kernel.cpu c).currentThread = (s.kernel.cpu c).currentThread
  oncpu : ∀ t, (s'.kernel.thread t).oncpu = (s.kernel.thread t).oncpu
  linked : ∀ t, s'.kernel.Linked t → s.kernel.Linked t
  stat : ∀ t, (s'.kernel.thread t).stat = (s.kernel.thread t).stat ∨
    (s'.kernel.thread t).stat = .close
  doomed : ∀ t, s'.Doomed t → s.Doomed t ∨ (¬ s'.kernel.Linked t ∧
    ∀ c < cfg.cpusNr, (s.kernel.cpu c).currentThread = some t → s'.call t = .exiting)
  keep : ∀ t, s.call t = .exiting → s'.call t = .exiting
  exiting : ∀ t, s'.call t = .exiting →
    s.call t = .exiting ∨ (s'.kernel.thread t).stat = .close
  closed : ∀ u t, s'.call u = .closed t →
    s.call u = .closed t ∨ (s'.kernel.thread t).stat = .close
  defunct : ∀ t ∈ s'.rtThreadDefunct, t ∈ s.rtThreadDefunct ∨ (s'.kernel.thread t).stat = .close
  reclaiming : ∀ u t, s'.call u = .reclaiming t → s.call u = .reclaiming t ∨
    (s'.kernel.thread t).stat = .close ∧
      ∀ c < cfg.cpusNr, (s.kernel.cpu c).currentThread ≠ some t
  clean : ∀ r ∈ s'.reclaimed, r ∈ s.reclaimed ∨ r.2 = false

theorem Inv.localStep {cfg : Config} {s s' : EndSystem} (hinv : s.Inv cfg)
    (hstep : LocalStep cfg s s') : s'.Inv cfg := by
  have hstays : ∀ t, (s.kernel.thread t).stat = .close → (s'.kernel.thread t).stat = .close := by
    intro t hclose
    rcases hstep.stat t with hsame | hnew
    · exact hsame.trans hclose
    · exact hnew
  have hlinked : ∀ t, s'.kernel.Linked t → ¬ s'.Doomed t := by
    intro t ht hdoom
    rcases hstep.doomed t hdoom with hold | ⟨hfree, -⟩
    · exact hinv.linked t (hstep.linked t ht) hold
    · exact hfree ht
  have hplaced : Placed cfg s'.kernel := by
    refine hinv.placed.of_linked hstep.cpu hstep.oncpu fun t ht => ⟨hstep.linked t ht, ?_⟩
    rcases hstep.stat t with hsame | hclose
    · exact hsame
    · exact absurd (.inl hclose) (hlinked t ht)
  refine ⟨hplaced, hlinked, fun c hc t ht hdoom => ?_, fun t ht => ?_, fun u t hu => ?_,
    fun t ht => ?_, fun u t hu => ?_, fun r hr => ?_⟩
  · rw [hstep.cpu] at ht
    rcases hstep.doomed t hdoom with hold | ⟨-, hnew⟩
    · exact hstep.keep t (hinv.current c hc t ht hold)
    · exact hnew c hc ht
  · rcases hstep.exiting t ht with hold | hclose
    · exact hstays t (hinv.exiting t hold)
    · exact hclose
  · rcases hstep.closed u t hu with hold | hclose
    · exact hstays t (hinv.closed u t hold)
    · exact hclose
  · rcases hstep.defunct t ht with hold | hclose
    · exact hstays t (hinv.defunct t hold)
    · exact hclose
  · simp only [hstep.cpu]
    rcases hstep.reclaiming u t hu with hold | hnew
    · exact ⟨hstays t (hinv.reclaiming u t hold).1, (hinv.reclaiming u t hold).2⟩
    · exact hnew
  · rcases hstep.clean r hr with hold | hnew
    · exact hinv.clean r hold
    · exact hnew

section Calls

variable {cfg : Config} {s s' : EndSystem} {c : Nat} {t u : Tid}

theorem linked_removeThread : (s.removeThread cfg t).kernel.Linked u ↔ s.kernel.Linked u ∧ u ≠ t :=
  linked_rtScheduleRemoveThread

theorem rtThreadExit_kernel :
    (rtThreadExit cfg t s).kernel = (rtScheduleRemoveThread cfg t s.kernel).setThread t
      { s.kernel.thread t with stat := .close, timerActive := false } := by
  simp only [rtThreadExit]
  split <;> simp [setCall, timerDetach, setStatClose, removeThread, insertDefunct, Kernel.setThread]

section

variable (hinv : s.Inv cfg)
include hinv

theorem Inv.exit (hcall : s.call t = .outside) : (rtThreadExit cfg t s).Inv cfg := by
  have hcalls : (rtThreadExit cfg t s).call = update s.call t .exiting := by
    simp only [rtThreadExit]
    split <;> rfl
  have hstat : ∀ x, ((rtThreadExit cfg t s).kernel.thread x).stat =
      if x = t then .close else (s.kernel.thread x).stat := by
    intro x
    rw [rtThreadExit_kernel]
    by_cases hx : x = t
    · subst hx
      simp
    · simp [hx]
  have hlinked : ∀ x, (rtThreadExit cfg t s).kernel.Linked x → s.kernel.Linked x ∧ x ≠ t := by
    intro x hx
    rw [rtThreadExit_kernel] at hx
    exact linked_rtScheduleRemoveThread.mp hx
  refine hinv.localStep ⟨fun c' => ?_, fun x => ?_, fun x hx => (hlinked x hx).1, fun x => ?_,
    fun x hdoom => ?_, fun x hx => ?_, fun x hx => ?_, fun v x hv => ?_, fun x hx => ?_,
    fun v x hv => ?_, fun r hr => .inl ?_⟩
  · rw [rtThreadExit_kernel]
    simp
  · rw [rtThreadExit_kernel]
    by_cases hx : x = t
    · subst hx
      simp
    · simp [hx]
  · rw [hstat]
    split
    · exact .inr rfl
    · exact .inl rfl
  · by_cases hx : x = t
    · subst hx
      refine .inr ⟨fun h => (hlinked x h).2 rfl, fun _ _ _ => ?_⟩
      rw [hcalls, update_self]
    · left
      rcases hdoom with hclose | ⟨v, hv⟩
      · rw [hstat, if_neg hx] at hclose
        exact .inl hclose
      · rw [hcalls] at hv
        by_cases hvt : v = t
        · subst hvt
          rw [update_self] at hv
          cases hv
        · rw [update_of_ne hvt] at hv
          exact .inr ⟨v, hv⟩
  · rw [hcalls]
    by_cases hxt : x = t
    · subst hxt
      simp
    · rwa [update_of_ne hxt]
  · by_cases hxt : x = t
    · rw [hstat, if_pos hxt]
      exact .inr rfl
    · rw [hcalls, update_of_ne hxt] at hx
      exact .inl hx
  · rw [hcalls] at hv
    by_cases hvt : v = t
    · subst hvt
      rw [update_self] at hv
      cases hv
    · rw [update_of_ne hvt] at hv
      exact .inl hv
  · by_cases hxt : x = t
    · rw [hstat, if_pos hxt]
      exact .inr rfl
    · left
      have hold : x ∈ s.rtThreadDefunct.filter (· ≠ t) := by
        simp only [rtThreadExit] at hx
        split at hx
        · exact hx
        · exact (List.mem_cons.mp hx).resolve_left hxt
      exact (List.mem_filter.mp hold).1
  · rw [hcalls] at hv
    by_cases hvt : v = t
    · subst hvt
      rw [update_self] at hv
      cases hv
    · rw [update_of_ne hvt] at hv
      exact .inl hv
  · simp only [rtThreadExit] at hr
    split at hr <;> exact hr

/-- A thread that is not exiting advances in its call; `s'` is the state after the
step, in which only threads known to have ended are queued or reclaimed. -/
theorem Inv.advance {call : EndCall} (hbefore : s.call u ≠ .exiting) (hafter : call ≠ .exiting)
    (hcalls : s'.call = update s.call u call)
    (hcpu : s'.kernel.cpu = s.kernel.cpu)
    (honcpu : ∀ x, (s'.kernel.thread x).oncpu = (s.kernel.thread x).oncpu)
    (hlinked : ∀ x, s'.kernel.Linked x → s.kernel.Linked x)
    (hstat : ∀ x, (s'.kernel.thread x).stat = (s.kernel.thread x).stat ∨
      (s'.kernel.thread x).stat = .close ∧ (s.call u).target = some x)
    (htarget : ∀ x, call.target = some x → s.Doomed x ∨
      (¬ s'.kernel.Linked x ∧ ∀ c < cfg.cpusNr, (s.kernel.cpu c).currentThread ≠ some x))
    (hclosed : ∀ x, call = .closed x → (s'.kernel.thread x).stat = .close)
    (hdefunct : ∀ x ∈ s'.rtThreadDefunct,
      x ∈ s.rtThreadDefunct ∨ (s'.kernel.thread x).stat = .close)
    (hreclaiming : ∀ x, call = .reclaiming x → (s'.kernel.thread x).stat = .close ∧
      ∀ c < cfg.cpusNr, (s.kernel.cpu c).currentThread ≠ some x)
    (hclean : ∀ r ∈ s'.reclaimed, r ∈ s.reclaimed ∨ r.2 = false) : s'.Inv cfg := by
  have hat : s'.call u = call := by rw [hcalls, update_self]
  have helse : ∀ v, v ≠ u → s'.call v = s.call v := by
    intro v hv
    rw [hcalls, update_of_ne hv]
  refine hinv.localStep ⟨fun c' => by rw [hcpu], honcpu, hlinked, fun x => ?_, fun x hdoom => ?_,
    fun x hx => ?_, fun x hx => ?_, fun v x hv => ?_, hdefunct, fun v x hv => ?_, hclean⟩
  · rcases hstat x with hsame | ⟨hclose, -⟩
    · exact .inl hsame
    · exact .inr hclose
  · rcases hdoom with hclose | ⟨v, hv⟩
    · left
      rcases hstat x with hsame | ⟨-, htarget⟩
      · exact .inl (hsame.symm.trans hclose)
      · exact .inr ⟨u, htarget⟩
    · by_cases hvu : v = u
      · subst hvu
        rw [hat] at hv
        rcases htarget x hv with hdoomed | ⟨hfree, hunused⟩
        · exact .inl hdoomed
        · exact .inr ⟨hfree, fun c hc h => absurd h (hunused c hc)⟩
      · rw [helse v hvu] at hv
        exact .inl (.inr ⟨v, hv⟩)
  · rw [helse x (by rintro rfl; exact hbefore hx)]
    exact hx
  · by_cases hxu : x = u
    · subst hxu
      exact absurd (hat.symm.trans hx) hafter
    · exact .inl ((helse x hxu).symm.trans hx)
  · by_cases hvu : v = u
    · subst hvu
      exact .inr (hclosed x (hat.symm.trans hv))
    · exact .inl ((helse v hvu).symm.trans hv)
  · by_cases hvu : v = u
    · subst hvu
      exact .inr (hreclaiming x (hat.symm.trans hv))
    · exact .inl ((helse v hvu).symm.trans hv)

theorem Inv.delete (hcall : s.call u = .outside)
    (hunused : s.inUse cfg t = false) (hexec : rtThreadDelete cfg u t s = some s') :
    s'.Inv cfg := by
  have hnot : ∀ c < cfg.cpusNr, (s.kernel.cpu c).currentThread ≠ some t := by
    intro c hc h
    rw [inUse_iff.mpr ⟨c, hc, h⟩] at hunused
    cases hunused
  unfold rtThreadDelete at hexec
  split at hexec
  · cases hexec
  · split at hexec
    · cases hexec
      refine hinv.advance (by simp [hcall]) (by simp) rfl (by simp [setCall, removeThread])
        (fun x => by simp [setCall, removeThread]) (fun x hx => (linked_removeThread.mp hx).1)
        (fun x => .inl (by simp [setCall, removeThread])) (fun x hx => ?_)
        (by simp) (fun x hx => .inl (List.mem_filter.mp hx).1) (by simp)
        (fun r hr => .inl hr)
      cases hx
      exact .inr ⟨fun h => (linked_removeThread.mp h).2 rfl, hnot⟩
    next hinit =>
      rw [not_not] at hinit
      cases hexec
      refine hinv.advance (by simp [hcall]) (by simp) rfl rfl (fun _ => rfl) (fun x hx => hx)
        (fun x => .inl rfl) (fun x hx => ?_) (by simp) (fun x hx => .inl hx) (by simp)
        (fun r hr => .inl hr)
      cases hx
      refine .inr ⟨fun h => ?_, hnot⟩
      have hready := hinv.placed.ready t h
      rw [hinit] at hready
      cases hready

theorem Inv.deleteInsert (hcall : s.call u = .closed t)
    (hexec : deleteInsert u t s = some s') : s'.Inv cfg := by
  unfold Scheduler.deleteInsert at hexec
  dsimp only at hexec
  split at hexec
  · cases hexec
  · cases hexec
    refine hinv.advance (by simp [hcall]) (by simp) rfl rfl (fun _ => rfl) (fun x hx => hx) (fun x => .inl rfl)
      (by simp [EndCall.target]) (by simp) (fun x hx => ?_) (by simp) (fun r hr => .inl hr)
    rcases List.mem_cons.mp hx with rfl | hold
    · exact .inr (hinv.closed u x hcall)
    · exact .inl hold

theorem Inv.idleFree (hcall : s.call u = .reclaiming t) : (idleFree cfg u t s).Inv cfg := by
  obtain ⟨-, hunused⟩ := hinv.reclaiming u t hcall
  refine hinv.advance (by simp [hcall]) (by simp) rfl rfl (fun _ => rfl) (fun x hx => hx) (fun x => .inl rfl)
    (by simp [EndCall.target]) (by simp) (fun x hx => .inl hx) (by simp) (fun r hr => ?_)
  rcases List.mem_cons.mp hr with rfl | hold
  · right
    rw [Bool.eq_false_iff, ne_eq, inUse_iff]
    rintro ⟨c, hc, h⟩
    exact hunused c hc h
  · exact .inl hold

theorem Inv.endContinue (hc : c < cfg.cpusNr)
    (hexec : endContinue cfg c u s = some s') : s'.Inv cfg := by
  unfold Scheduler.endContinue at hexec
  split at hexec
  · cases hexec
  · unfold exitSchedule at hexec
    split at hexec
    · cases hexec
    next k hk =>
      split at hexec
      · cases hexec
      · cases hexec
        exact hinv.handover hc (rtSchedule_handover (hinv.placed.free c hc) hk)
  next t hcall =>
    cases hexec
    have hsame : ∀ x, ((s.timerDetach t).kernel.thread x).stat = (s.kernel.thread x).stat ∧
        ((s.timerDetach t).kernel.thread x).oncpu = (s.kernel.thread x).oncpu := by
      intro x
      by_cases hx : x = t
      · subst hx
        simp [timerDetach]
      · simp [timerDetach, hx]
    exact hinv.advance (by simp [hcall]) (by simp) rfl rfl (fun x => (hsame x).2)
      (fun x hx => hx) (fun x => .inl (hsame x).1)
      (fun x hx => .inl (.inr ⟨u, by rw [hcall]; exact hx⟩)) (by simp) (fun x hx => .inl hx)
      (by simp) (fun r hr => .inl hr)
  next t hcall =>
    cases hexec
    refine hinv.advance (by simp [hcall]) (by simp) rfl rfl (fun x => ?_) (fun x hx => hx)
      (fun x => ?_) (fun x hx => .inl (.inr ⟨u, by rw [hcall]; exact hx⟩)) (fun x hx => ?_)
      (fun x hx => .inl hx) (by simp) (fun r hr => .inl hr)
    · by_cases hx : x = t
      · subst hx
        simp [setCall, setStatClose]
      · simp [setCall, setStatClose, hx]
    · by_cases hx : x = t
      · subst hx
        exact .inr ⟨by simp [setCall, setStatClose], by rw [hcall]; rfl⟩
      · exact .inl (by simp [setCall, setStatClose, hx])
    · cases hx
      simp [setCall, setStatClose]
  next t hcall => exact hinv.deleteInsert hcall hexec
  next t hcall =>
    cases hexec
    exact hinv.idleFree hcall

theorem Inv.idleExcute (hcall : s.call u = .outside)
    (hsafe : ∀ t ∈ s.rtThreadDefunct.head?, s.inUse cfg t = true →
      s.call t ≠ .exiting) : (rtThreadIdleExcute cfg u s).Inv cfg := by
  unfold rtThreadIdleExcute
  split
  · exact hinv
  next t rest hlist =>
    have hclose := hinv.defunct t (by simp [hlist])
    have hunused : ∀ c < cfg.cpusNr, (s.kernel.cpu c).currentThread ≠ some t := by
      intro c hc h
      exact hsafe t (by simp [hlist]) (inUse_iff.mpr ⟨c, hc, h⟩)
        (hinv.current c hc t h (.inl hclose))
    have hfalse : s.inUse cfg t = false := by
      rw [Bool.eq_false_iff, ne_eq, inUse_iff]
      rintro ⟨c, hc, h⟩
      exact hunused c hc h
    -- the list without its head, and perhaps one more entry in the log
    have hmiddle : ∀ s' : EndSystem, s'.kernel = s.kernel → s'.rtThreadDefunct = rest →
        (∀ r ∈ s'.reclaimed, r ∈ s.reclaimed ∨ r.2 = false) →
        ∀ call, call = .outside ∨ call = .reclaiming t →
          s'.call = update s.call u call → s'.Inv cfg := by
      intro s' hkernel hdefunct hclean call hnew hcalls
      refine hinv.advance (by simp [hcall]) ?_ hcalls (by rw [hkernel]) (by simp [hkernel])
        (by simp [hkernel])
        (fun x => .inl (by rw [hkernel])) (fun x hx => ?_) (fun x hx => ?_) (fun x hx => ?_)
        (fun x hx => ?_) hclean
      · rcases hnew with rfl | rfl <;> simp
      · rcases hnew with rfl | rfl <;> cases hx
      · rcases hnew with rfl | rfl <;> cases hx
      · rw [hdefunct] at hx
        exact .inl (by simp [hlist, hx])
      · rcases hnew with rfl | rfl
        · cases hx
        · cases hx
          rw [hkernel]
          exact ⟨hclose, hunused⟩
    have hsame : s.call = update s.call u .outside := by
      rw [← hcall, update_eq_self]
    have hlogged : ∀ r ∈ (t, false) :: s.reclaimed, r ∈ s.reclaimed ∨ r.2 = false := by
      intro r hr
      rcases List.mem_cons.mp hr with rfl | hold
      · exact .inr rfl
      · exact .inl hold
    have hentry : inUse cfg { s with rtThreadDefunct := rest } t = false := hfalse
    dsimp only
    split
    · simp only [reclaim, hentry]
      split
      · exact hmiddle _ rfl rfl hlogged _ (.inl rfl) hsame
      · exact hmiddle _ rfl rfl hlogged _ (.inr rfl) rfl
    · split
      · exact hmiddle _ rfl rfl (fun r hr => .inl hr) _ (.inl rfl) hsame
      · exact hmiddle _ rfl rfl (fun r hr => .inl hr) _ (.inr rfl) rfl

end

end Calls

/-- No CPU runs the thread that is deleted, and the thread that is reclaimed next is
not in `rt_thread_exit` in front of its `rt_schedule`. -/
def ReclaimSafe (cfg : Config) (s : EndSystem) : EndOp → Prop
  | .delete _ t => s.inUse cfg t = false
  | .idleExcute => ∀ t ∈ s.rtThreadDefunct.head?, s.inUse cfg t = true →
      s.call t ≠ .exiting
  | _ => True

instance (cfg : Config) (s : EndSystem) : (op : EndOp) → Decidable (ReclaimSafe cfg s op)
  | .delete _ t => inferInstanceAs (Decidable (s.inUse cfg t = false))
  | .idleExcute => inferInstanceAs (Decidable (∀ t ∈ s.rtThreadDefunct.head?,
      s.inUse cfg t = true → s.call t ≠ .exiting))
  | .schedule _ | .doIrqSwitch _ | .ipiHandler _ | .interruptEnter _ | .interruptLeave _
  | .exit _ | .proceed _ => .isTrue trivial

theorem Initial.inv {cfg : Config} {s : EndSystem} (hinit : s.Initial cfg) : s.Inv cfg := by
  have hdoom : ∀ t, ¬ s.Doomed t := by
    rintro t (hclose | ⟨u, hu⟩)
    · exact hinit.alive t hclose
    · rw [hinit.outside] at hu
      cases hu
  refine ⟨hinit.placed, fun t _ => hdoom t,
    fun c _ t _ h => absurd h (hdoom t), fun t ht => ?_, fun u t hu => ?_, ?_,
    fun u t hu => ?_, ?_⟩
  · rw [hinit.outside] at ht
    cases ht
  · rw [hinit.outside] at hu
    cases hu
  · simp [hinit.defunct]
  · rw [hinit.outside] at hu
    cases hu
  · simp [hinit.reclaimed]

section Exec

variable {cfg : Config} {s s' : EndSystem}

theorem idleCaller_eq {c : Nat} {u : Tid} (hcaller : s.idleCaller c = some u) :
    (s.kernel.cpu c).currentThread = some u ∧ s.call u = .outside := by
  obtain ⟨hcaller, hcall⟩ := Option.filter_eq_some_iff.mp hcaller
  refine ⟨?_, of_decide_eq_true hcall⟩
  unfold caller at hcaller
  split at hcaller
  · exact hcaller
  · cases hcaller

theorem Inv.exec (hinv : s.Inv cfg) {op : EndOp} (hsafe : ReclaimSafe cfg s op)
    (hexec : s.exec cfg op = some s') : s'.Inv cfg := by
  unfold EndSystem.exec at hexec
  split at hexec
  next hc =>
    cases op with
    | schedule c =>
      obtain ⟨k, hk, rfl⟩ := Option.map_eq_some_iff.mp hexec
      exact hinv.handover hc (rtSchedule_handover (hinv.placed.free c hc) hk)
    | doIrqSwitch c =>
      obtain ⟨k, hk, rfl⟩ := Option.map_eq_some_iff.mp hexec
      exact hinv.handover hc (rtSchedulerDoIrqSwitch_handover (hinv.placed.free c hc) hk)
    | ipiHandler c =>
      obtain ⟨k, hk, rfl⟩ := Option.map_eq_some_iff.mp hexec
      exact hinv.handover hc (rtSchedulerIpiHandler_handover (hinv.placed.free c hc) hk)
    | interruptEnter c =>
      cases hexec
      exact hinv.handover hc (Quiet.interruptEnter.handover cfg c)
    | interruptLeave c =>
      cases hexec
      exact hinv.handover hc (Quiet.interruptLeave.handover cfg c)
    | exit c =>
      obtain ⟨t, ht, rfl⟩ := Option.map_eq_some_iff.mp hexec
      exact hinv.exit (idleCaller_eq ht).2
    | delete c t =>
      obtain ⟨u, hu, hdelete⟩ := Option.bind_eq_some_iff.mp hexec
      exact hinv.delete (idleCaller_eq hu).2 hsafe hdelete
    | proceed c =>
      obtain ⟨u, hu, hgo⟩ := Option.bind_eq_some_iff.mp hexec
      exact hinv.endContinue hc hgo
    | idleExcute =>
      obtain ⟨u, hu, rfl⟩ := Option.map_eq_some_iff.mp hexec
      exact hinv.idleExcute (idleCaller_eq hu).2 hsafe
  · cases hexec

end Exec

end EndSystem

/-- In every run that keeps to `ReclaimSafe` no thread is reclaimed while a CPU runs
it, and the next reclaim is of such a thread exactly if it does not keep to it. -/
theorem reachable_reclaimed_unused {cfg : Config} {s : EndSystem}
    (hreach : (endMachine cfg).Reachable (EndSystem.ReclaimSafe cfg) s) :
    (∀ r ∈ s.reclaimed, r.2 = false) ∧
      ((∀ t ∈ s.rtThreadDefunct.head?, s.inUse cfg t = false) ↔
        EndSystem.ReclaimSafe cfg s .idleExcute) := by
  have hinv : s.Inv cfg := hreach.invariant (EndSystem.Inv cfg) (fun _ => EndSystem.Initial.inv)
    fun _ _ _ hinv hsafe hexec => hinv.exec hsafe hexec
  refine ⟨hinv.clean, ⟨fun hunused t ht huse => ?_, fun hsafe t ht => ?_⟩⟩
  · rw [hunused t ht] at huse
    cases huse
  · rw [Bool.eq_false_iff]
    intro huse
    obtain ⟨c, hc, hcurrent⟩ := EndSystem.inUse_iff.mp huse
    have hclose := hinv.defunct t (List.mem_of_head? ht)
    exact hsafe t ht huse (hinv.current c hc t hcurrent (.inl hclose))

def busySystem : EndSystem where
  kernel := busyKernel
  rtThreadDefunct := []
  systemObject := fun _ => false
  cleanup := fun _ => false
  freed := fun _ => false
  call := fun _ => .outside
  reclaimed := []

theorem busySystem_initial : busySystem.Initial (Config.flat 2) := by
  refine ⟨busyKernel_placed, fun t => ?_, rfl, fun _ => rfl, rfl⟩
  simp only [busySystem, busyKernel]
  split <;> simp

/-- Thread 2 is in front of its last `rt_schedule` when CPU 0 frees it. -/
theorem reclaimed_inUse_after_exit :
    ∃ s, (endMachine (Config.flat 2)).Reachable (fun _ _ => True) s ∧
      ∃ r ∈ s.reclaimed, r.2 = true := by
  have hrun : ((endMachine (Config.flat 2)).run (fun _ _ => True) busySystem
      [.exit 1, .idleExcute, .proceed 0]).map (·.reclaimed) = some [(2, true)] := by
    decide +kernel
  obtain ⟨s, hreach, hlog⟩ := Machine.exists_reachable_of_run busySystem_initial hrun
  exact ⟨s, hreach, (2, true), by simp [hlog], rfl⟩

theorem reachable_reclaimed_unused_exitRun :
    ∃ s, (endMachine (Config.flat 2)).Reachable (EndSystem.ReclaimSafe (Config.flat 2)) s ∧
      s.reclaimed = [(2, false)] ∧ ∀ r ∈ s.reclaimed, r.2 = false := by
  have hrun : ((endMachine (Config.flat 2)).run (EndSystem.ReclaimSafe (Config.flat 2))
      busySystem [.exit 1, .proceed 1, .idleExcute, .proceed 0]).map (·.reclaimed) =
      some [(2, false)] := by
    decide +kernel
  obtain ⟨s, hreach, hlog⟩ := Machine.exists_reachable_of_run busySystem_initial hrun
  exact ⟨s, hreach, hlog, (reachable_reclaimed_unused hreach).1⟩

end RtThread.Scheduler
