import RtThread.Clock.TimerActivation

namespace RtThread.Clock

open Function RtThread.Lib SkipList

def TimerSystem.Due (s : TimerSystem) (t : TimerId) : Prop :=
  sub32 s.tick (s.timer t).timeoutTick < rtTickMax / 2

instance (s : TimerSystem) (t : TimerId) : Decidable (s.Due t) :=
  inferInstanceAs (Decidable (_ < _))

instance (s : TimerSystem) (t u : TimerId) : Decidable (Before s t u) :=
  inferInstanceAs (Decidable (_ ∨ _))

namespace CheckSystem

def checkLoop (cfg : TimerConfig) : Nat → CheckSystem → Option (CheckSystem × List TimerId)
  | 0, _ => none
  | fuel + 1, s => do
      let s ← s.checkDue
      match s.phase with
      | .callback t => do
          let s ← s.checkReturn cfg
          let (s, calls) ← checkLoop cfg fuel s
          return (s, t :: calls)
      | _ => return (s, [])

def rtTimerCheck (cfg : TimerConfig) (fuel : Nat) (s : CheckSystem) :
    Option (CheckSystem × List TimerId) :=
  checkLoop cfg fuel { s with phase := .loop s.sys.tick }

/-- What a check that starts in `s`, ends in `s'` and calls `calls` should have done. -/
structure ExpiryOk (s s' : CheckSystem) (calls : List TimerId) : Prop where
  called : ∀ t, t ∈ calls ↔ t ∈ s.sys.linked .rtTimerList ∧ s.sys.Due t
  once : calls.Nodup
  ordered : calls.Pairwise (Before s.sys)
  others : ∀ t, t ∉ calls → s'.sys.timer t = s.sys.timer t ∧
    (t ∈ s'.sys.linked .rtTimerList ↔ t ∈ s.sys.linked .rtTimerList)
  oneshot : ∀ t ∈ calls, s.periodic t = false →
    (∀ list, t ∉ s'.sys.linked list) ∧ (s'.sys.timer t).activated = false
  restarted : ∀ t ∈ calls, s.periodic t = true →
    t ∈ s'.sys.linked .rtTimerList ∧ (s'.sys.timer t).activated = true ∧
      (s'.sys.timer t).timeoutTick = add32 s.sys.tick (s.sys.timer t).initTick
  linkedOnce : (s'.sys.linked .rtTimerList).Nodup

theorem checkLoop_mono {cfg : TimerConfig} {fuel : Nat} {s : CheckSystem}
    {result : CheckSystem × List TimerId} (hloop : checkLoop cfg fuel s = some result) :
    ∀ more ≥ fuel, checkLoop cfg more s = some result := by
  induction fuel generalizing s result with
  | zero => cases hloop
  | succ fuel ih =>
    intro more hmore
    obtain ⟨more, rfl⟩ : ∃ n, more = n + 1 := ⟨more - 1, by omega⟩
    simp only [checkLoop] at hloop ⊢
    obtain ⟨next, hnext, hrest⟩ := Option.bind_eq_some_iff.mp hloop
    rw [hnext, Option.bind_eq_bind, Option.bind_some]
    cases hphase : next.phase with
    | idle => simpa [hphase] using hrest
    | loop tick => simpa [hphase] using hrest
    | callback t =>
      simp only [hphase] at hrest ⊢
      obtain ⟨back, hback, hgoes⟩ := Option.bind_eq_some_iff.mp hrest
      obtain ⟨after, hafter, hdone⟩ := Option.bind_eq_some_iff.mp hgoes
      rw [hback, Option.bind_eq_bind, Option.bind_some, ih hafter more (by omega)]
      exact hdone

end CheckSystem

section Ticks

variable {now deadline period : Nat}

theorem passes_of_due (hdeadline : deadline < 2 ^ 32) (hpos : 0 < period)
    (hdue : sub32 now deadline < rtTickMax / 2)
    (hfit : sub32 now deadline + period ≤ 2 ^ 31 + 1) :
    passes (add32 now period) deadline = true := by
  have hback : ¬sub32 deadline (add32 now period) < rtTickMax / 2 := by
    simp only [sub32, add32, rtTickMax] at *
    omega
  simp [passes, hback]

theorem sub32_add32 (hnow : now < 2 ^ 32) (hperiod : period < 2 ^ 32) :
    sub32 (add32 now period) now = period := by
  simp only [sub32, add32]
  omega

theorem passes_future (hnow : now < 2 ^ 32) (hdeadline : deadline < 2 ^ 32)
    (hperiod : period < rtTickMax / 2) (hfuture : sub32 deadline now < rtTickMax / 2) :
    passes (add32 now period) deadline = true ↔ sub32 deadline now ≤ period := by
  have hlt : period < 2 ^ 32 := Nat.lt_trans hperiod (by decide)
  have hoffset := sub32_add32 hnow hlt
  have hwraps : add32 now period < 2 ^ 32 := Nat.mod_lt _ (by decide)
  rw [passes_iff hwraps hdeadline (by rw [hoffset]; exact hperiod) hfuture, hoffset]

theorem not_due_of_future (hnow : now < 2 ^ 32) (hdeadline : deadline < 2 ^ 32)
    (hpos : 0 < sub32 deadline now) (hfuture : sub32 deadline now < rtTickMax / 2) :
    ¬sub32 now deadline < rtTickMax / 2 := by
  simp only [sub32, rtTickMax] at *
  omega

end Ticks

section Sorted

variable {now base a b c : Nat}

theorem due_of_between (ha : a < 2 ^ 32) (hb : b < 2 ^ 32) (hc : c < 2 ^ 32)
    (hca : sub32 c base ≤ sub32 a base) (hab : sub32 a base ≤ sub32 b base)
    (hwb : sub32 b base < rtTickMax / 2) (hduec : sub32 now c < rtTickMax / 2)
    (hdueb : sub32 now b < rtTickMax / 2) : sub32 now a < rtTickMax / 2 := by
  simp only [sub32, rtTickMax] at *
  omega

theorem future_of_not_due (hnow : now < 2 ^ 32) (ha : a < 2 ^ 32) (hb : b < 2 ^ 32)
    (hab : sub32 a base ≤ sub32 b base) (hwb : sub32 b base < rtTickMax / 2)
    (hduea : sub32 now a < rtTickMax / 2) (hnot : ¬sub32 now b < rtTickMax / 2) :
    0 < sub32 b now ∧ sub32 b now < rtTickMax / 2 := by
  simp only [sub32, rtTickMax] at *
  omega

theorem sub32_now_le (hab : sub32 a base ≤ sub32 b base) (hwb : sub32 b base < rtTickMax / 2)
    (hfa : sub32 a now < rtTickMax / 2) (hfb : sub32 b now < rtTickMax / 2)
    (hpa : 0 < sub32 a now) (hpb : 0 < sub32 b now) : sub32 a now ≤ sub32 b now := by
  simp only [sub32, rtTickMax] at *
  omega

end Sorted

section Linked

variable {cfg : TimerConfig} {s : TimerSystem}

theorem rowsOk_of_inv (hinv : Inv cfg s) : RowsOk cfg s where
  nested := fun list => ⟨fun _ hrow => hinv.nodup hrow, hinv.chain list⟩
  length := hinv.length

theorem Inv.linked_sorted (hinv : Inv cfg s) (list : TimerList) :
    ∃ base, (∀ t ∈ s.linked list, sub32 (s.timer t).timeoutTick base < rtTickMax / 2) ∧
      (s.linked list).Pairwise fun t u =>
        sub32 (s.timer t).timeoutTick base ≤ sub32 (s.timer u).timeoutTick base := by
  have hrow : s.linked list ∈ s.rows list :=
    List.mem_of_getLast? ((rowsOk_of_inv hinv).bottom list)
  obtain ⟨base, hwindow⟩ := hinv.window list
  refine ⟨base, fun t ht => ?_, ?_⟩
  · obtain ⟨hpending, hown⟩ := hinv.pending_of_mem hrow ht
    exact hwindow t hpending hown
  · apply (hinv.pairwise list _ hrow).imp_of_mem
    intro t u ht hu hbefore
    exact hinv.offset_le hwindow hrow ht hu hbefore

theorem Inv.linked_deadline (hinv : Inv cfg s) (list : TimerList) :
    ∀ t ∈ s.linked list, (s.timer t).timeoutTick < 2 ^ 32 := by
  intro t ht
  have hrow := List.mem_of_getLast? ((rowsOk_of_inv hinv).bottom list)
  exact hinv.deadline t (hinv.pending_of_mem hrow ht).1

end Linked

namespace CheckSystem

/-- A check at its loop, with `dues` still to be called and `futures` behind them -/
structure Walk (cfg : TimerConfig) (s : CheckSystem) (now : Nat)
    (dues futures : List TimerId) : Prop where
  rows : RowsOk cfg s.sys
  phase : s.phase = .loop now
  tick : s.sys.tick = now
  linked : s.sys.linked .rtTimerList = dues ++ futures
  deadline : ∀ t ∈ dues ++ futures, (s.sys.timer t).timeoutTick < 2 ^ 32
  due : ∀ t ∈ dues, sub32 now (s.sys.timer t).timeoutTick < rtTickMax / 2
  armed : ∀ t ∈ dues, (s.sys.timer t).isTimer = true ∧ (s.sys.timer t).activated = true ∧
    timerListOf cfg (s.sys.timer t) = .rtTimerList ∧ t ∉ s.sys.linked .rtSoftTimerList
  period : ∀ t ∈ dues, s.periodic t = true →
    0 < (s.sys.timer t).initTick ∧ (s.sys.timer t).initTick < rtTickMax / 2
  fits : dues.Pairwise fun t u => s.periodic t = true →
    sub32 now (s.sys.timer u).timeoutTick + (s.sys.timer t).initTick ≤ 2 ^ 31 + 1
  future : ∀ t ∈ futures, 0 < sub32 (s.sys.timer t).timeoutTick now ∧
    sub32 (s.sys.timer t).timeoutTick now < rtTickMax / 2
  sorted : futures.Pairwise fun t u =>
    sub32 (s.sys.timer t).timeoutTick now ≤ sub32 (s.sys.timer u).timeoutTick now

structure Expired (s s' : CheckSystem) (t : TimerId) (futures futures' : List TimerId) : Prop where
  others : ∀ u, u ≠ t → s'.sys.timer u = s.sys.timer u
  soft : ∀ u, u ∈ s'.sys.linked .rtSoftTimerList ↔
    u ∈ s.sys.linked .rtSoftTimerList ∧ u ≠ t
  periodic : s'.periodic = s.periodic
  mem_iff : ∀ u, u ∈ futures' ↔ u ∈ futures ∨ (u = t ∧ s.periodic t = true)
  oneshot : s.periodic t = false → (s'.sys.timer t).activated = false
  restarted : s.periodic t = true → (s'.sys.timer t).activated = true ∧
    (s'.sys.timer t).timeoutTick = add32 s.sys.tick (s.sys.timer t).initTick

section Walk

variable {cfg : TimerConfig} {s s' : CheckSystem} {now : Nat} {dues futures rest : List TimerId}
  {t : TimerId}

theorem Walk.nodup (hwalk : Walk cfg s now dues futures) : (dues ++ futures).Nodup := by
  rw [← hwalk.linked]
  exact (hwalk.rows.nested _).nodup _ (List.mem_of_getLast? (hwalk.rows.bottom _))

def called (s : CheckSystem) (t : TimerId) : CheckSystem :=
  ({ s with
    sys := { rtTimerRemove t s.sys with pending := s.sys.pending.filter (· ≠ t) }
    phase := .callback t }).setLast t .expired

theorem Walk.checkDue (hwalk : Walk cfg s now (t :: rest) futures) :
    s.checkDue = some (s.called t) := by
  have hdue := hwalk.due t List.mem_cons_self
  have htimer : s.dueTimer now = some t := by
    rw [dueTimer, hwalk.linked, List.cons_append]
    exact if_pos hdue
  unfold CheckSystem.checkDue
  rw [hwalk.phase]
  simp only [htimer, called]

theorem Walk.checkDue_nil (hwalk : Walk cfg s now [] futures) (hnow : now < 2 ^ 32) :
    s.checkDue = some { s with phase := .idle } := by
  have htimer : s.dueTimer now = none := by
    rw [dueTimer, hwalk.linked, List.nil_append]
    cases hfutures : futures with
    | nil => rfl
    | cons u later =>
      have hmem : u ∈ futures := hfutures ▸ List.mem_cons_self
      have hu := hwalk.future u hmem
      exact if_neg (not_due_of_future hnow (hwalk.deadline u hmem) hu.1 hu.2)
  unfold CheckSystem.checkDue
  rw [hwalk.phase]
  simp only [htimer]

theorem Walk.linked_called (hwalk : Walk cfg s now (t :: rest) futures) :
    (s.called t).sys.linked .rtTimerList = rest ++ futures := by
  have hnodup := hwalk.nodup
  rw [List.cons_append, List.nodup_cons] at hnodup
  have hlinked : (s.called t).sys.linked .rtTimerList =
      (s.sys.linked .rtTimerList).filter (· ≠ t) := linked_rtTimerRemove t _
  rw [hlinked, hwalk.linked, List.cons_append, List.filter_cons_of_neg (by simp),
    List.filter_eq_self.mpr]
  intro u hu
  rw [decide_eq_true_eq]
  rintro rfl
  exact hnodup.1 hu

theorem Walk.soft_called (u : TimerId) :
    u ∈ (s.called t).sys.linked .rtSoftTimerList ↔
      u ∈ s.sys.linked .rtSoftTimerList ∧ u ≠ t := mem_linked_remove

theorem Walk.next (hwalk : Walk cfg s now (t :: rest) futures) {futures' : List TimerId}
    (hexpired : Expired s s' t futures futures') (hrows : RowsOk cfg s'.sys)
    (hphase : s'.phase = .loop now) (htick : s'.sys.tick = now)
    (hlinked : s'.sys.linked .rtTimerList = rest ++ futures')
    (hfuture : ∀ u ∈ futures', (s'.sys.timer u).timeoutTick < 2 ^ 32 ∧
      0 < sub32 (s'.sys.timer u).timeoutTick now ∧
      sub32 (s'.sys.timer u).timeoutTick now < rtTickMax / 2)
    (hsorted : futures'.Pairwise fun u v =>
      sub32 (s'.sys.timer u).timeoutTick now ≤ sub32 (s'.sys.timer v).timeoutTick now) :
    Walk cfg s' now rest futures' := by
  have hne : ∀ u ∈ rest, u ≠ t := by
    rintro u hu rfl
    have hnodup := hwalk.nodup
    rw [List.cons_append, List.nodup_cons] at hnodup
    exact hnodup.1 (List.mem_append_left _ hu)
  have htimer : ∀ u ∈ rest, s'.sys.timer u = s.sys.timer u :=
    fun u hu => hexpired.others u (hne u hu)
  have hmem : ∀ u ∈ rest, u ∈ t :: rest := fun u hu => List.mem_cons_of_mem t hu
  constructor
  · exact hrows
  · exact hphase
  · exact htick
  · exact hlinked
  · intro u hu
    rcases List.mem_append.mp hu with hu | hu
    · rw [htimer u hu]
      exact hwalk.deadline u (List.mem_append_left _ (hmem u hu))
    · exact (hfuture u hu).1
  · intro u hu
    rw [htimer u hu]
    exact hwalk.due u (hmem u hu)
  · intro u hu
    obtain ⟨hisTimer, hactivated, hown, hsoft⟩ := hwalk.armed u (hmem u hu)
    rw [htimer u hu, hexpired.soft]
    exact ⟨hisTimer, hactivated, hown, fun h => hsoft h.1⟩
  · intro u hu hperiodic
    rw [htimer u hu]
    exact hwalk.period u (hmem u hu) (hexpired.periodic ▸ hperiodic)
  · apply (List.pairwise_cons.mp hwalk.fits).2.imp_of_mem
    intro u v hu hv hfits hperiodic
    rw [htimer u hu, htimer v hv]
    exact hfits (hexpired.periodic ▸ hperiodic)
  · intro u hu
    exact (hfuture u hu).2
  · exact hsorted

theorem Walk.oneshot (hwalk : Walk cfg s now (t :: rest) futures)
    (honeshot : s.periodic t = false) :
    ∃ s', (s.called t).checkReturn cfg = some s' ∧ Walk cfg s' now rest futures ∧
      Expired s s' t futures futures := by
  have hreturn : (s.called t).checkReturn cfg = some { s.called t with
      sys := (s.called t).sys.setActivated t false
      phase := .loop now } := by
    have hphase : (s.called t).phase = .callback t := rfl
    have hperiodic : (s.called t).periodic t = false := honeshot
    have htick : (s.called t).sys.tick = now := hwalk.tick
    simp only [checkReturn, hphase, hperiodic, htick, Bool.false_and, Bool.false_eq_true, if_false]
  have htimer : ∀ u, u ≠ t → ((s.called t).sys.setActivated t false).timer u =
      s.sys.timer u := fun u hu => update_of_ne hu _ _
  have hkept : ∀ u ∈ futures, ((s.called t).sys.setActivated t false).timer u = s.sys.timer u := by
    intro u hu
    apply htimer
    rintro rfl
    exact (List.nodup_cons.mp hwalk.nodup).1 (List.mem_append_right _ hu)
  have hexpired : Expired s { s.called t with
      sys := (s.called t).sys.setActivated t false
      phase := .loop now } t futures futures := by
    constructor
    · exact htimer
    · exact Walk.soft_called
    · rfl
    · simp [honeshot]
    · intro _
      simp [TimerSystem.setActivated, TimerSystem.setTimer]
    · simp [honeshot]
  refine ⟨_, hreturn, hwalk.next hexpired ((hwalk.rows.remove t).congr rfl) rfl hwalk.tick
    hwalk.linked_called (fun u hu => ?_) ?_, hexpired⟩
  · rw [hkept u hu]
    exact ⟨hwalk.deadline u (List.mem_append_right _ hu), hwalk.future u hu⟩
  · apply hwalk.sorted.imp_of_mem
    intro u v hu hv hle
    rwa [hkept u hu, hkept v hv]

def passed (s : CheckSystem) (now : Nat) (t u : TimerId) : Bool :=
  passes (add32 now (s.sys.timer t).initTick) (s.sys.timer u).timeoutTick

theorem Walk.passed_iff (hwalk : Walk cfg s now (t :: rest) futures) (hnow : now < 2 ^ 32)
    (hperiodic : s.periodic t = true) {u : TimerId} (hu : u ∈ futures) :
    s.passed now t u = true ↔
      sub32 (s.sys.timer u).timeoutTick now ≤ (s.sys.timer t).initTick :=
  passes_future hnow (hwalk.deadline u (List.mem_append_right _ hu))
    (hwalk.period t List.mem_cons_self hperiodic).2 (hwalk.future u hu).2

theorem Walk.inserted (hwalk : Walk cfg s now (t :: rest) futures) (hnow : now < 2 ^ 32)
    (hperiodic : s.periodic t = true) :
    Downward (s.passed now t) (rest ++ futures) ∧
      Downward (s.passed now t) futures ∧
      SkipList.inserted (s.passed now t) t (rest ++ futures) =
        rest ++ SkipList.inserted (s.passed now t) t futures := by
  have hrest : ∀ u ∈ rest, s.passed now t u = true := by
    intro u hu
    have hmem : u ∈ t :: rest := List.mem_cons_of_mem t hu
    apply passes_of_due (hwalk.deadline u (List.mem_append_left _ hmem))
      (hwalk.period t List.mem_cons_self hperiodic).1 (hwalk.due u hmem)
    exact (List.pairwise_cons.mp hwalk.fits).1 u hu hperiodic
  have hdown : Downward (s.passed now t) futures := by
    apply hwalk.sorted.imp_of_mem
    intro u v hu hv hle
    rw [hwalk.passed_iff hnow hperiodic hu, hwalk.passed_iff hnow hperiodic hv]
    exact Nat.le_trans hle
  refine ⟨?_, hdown, ?_⟩
  · rw [Downward, List.pairwise_append]
    refine ⟨List.pairwise_of_forall_mem_list fun u hu _ _ _ => hrest u hu, hdown, ?_⟩
    intro u hu _ _ _
    exact hrest u hu
  · have hnone : rest.filter (fun u => !s.passed now t u) = [] := by
      rw [List.filter_eq_nil_iff]
      intro u hu
      simp [hrest u hu]
    rw [SkipList.inserted, List.filter_append, List.filter_append, hnone,
      List.filter_eq_self.mpr hrest, List.nil_append, List.append_assoc]
    rfl

theorem Walk.restart (hwalk : Walk cfg s now (t :: rest) futures) (hnow : now < 2 ^ 32)
    (hperiodic : s.periodic t = true) :
    ∃ s' futures', (s.called t).checkReturn cfg = some s' ∧ Walk cfg s' now rest futures' ∧
      Expired s s' t futures futures' := by
  obtain ⟨hpos, hperiod⟩ := hwalk.period t List.mem_cons_self hperiodic
  obtain ⟨hisTimer, hactivated, hown, -⟩ := hwalk.armed t List.mem_cons_self
  obtain ⟨hdown, hdownFutures, hplace⟩ := hwalk.inserted hnow hperiodic
  have hfresh : ∀ u ∈ rest ++ futures, u ≠ t := by
    rintro u hu rfl
    exact (List.nodup_cons.mp hwalk.nodup).1 hu
  -- what `rt_timer_start` is called on
  let sys := (s.called t).sys.setActivated t false
  have hsame : sys.timer t = { s.sys.timer t with activated := false } :=
    update_self _ _ _
  have hother : ∀ u, u ≠ t → sys.timer u = s.sys.timer u :=
    fun u hu => update_of_ne hu _ _
  have hrows : RowsOk cfg sys := (hwalk.rows.remove t).congr rfl
  have htick : sys.tick = now := hwalk.tick
  obtain ⟨sys', hstart, hrows', htimer, -, hmem⟩ :=
    hrows.rtTimerStart (t := t) (by rwa [hsame]) (by rwa [hsame])
  have hkept : ∀ u, u ≠ t → sys'.timer u = s.sys.timer u := by
    intro u hu
    rw [htimer, update_of_ne hu, hother u hu]
  have hnext : sys'.timer t = { s.sys.timer t with
      activated := true
      timeoutTick := add32 now (s.sys.timer t).initTick } := by
    rw [htimer, update_self, hsame, htick]
  have htick' : sys'.tick = now := (fields_of_rtTimerStart hstart).2.1.trans htick
  have hfiltered : (sys.linked .rtTimerList).filter (· ≠ t) = rest ++ futures := by
    rw [show sys.linked .rtTimerList = rest ++ futures from hwalk.linked_called,
      List.filter_eq_self]
    intro u hu
    simpa using hfresh u hu
  have hlinked : sys'.linked .rtTimerList = _ :=
    linked_rtTimerStart hrows hstart (by rwa [hsame])
      (fun u hu => by rw [passed, hsame, hother u hu, htick]) (hfiltered ▸ hdown)
  rw [hfiltered, hplace] at hlinked
  have hreturn : (s.called t).checkReturn cfg = some { s.called t with
      sys := sys'
      phase := .loop now
      last := update (s.called t).last t
        (if (s.called t).last t = .expired then .started else (s.called t).last t) } := by
    have hphase : (s.called t).phase = .callback t := rfl
    have hagain : (s.called t).periodic t && ((s.called t).sys.timer t).activated :=
      Bool.and_eq_true_iff.mpr ⟨hperiodic, hactivated⟩
    have hsys : rtTimerStart cfg t ((s.called t).sys.setActivated t false) = some sys' := hstart
    have hnow : (s.called t).sys.tick = now := hwalk.tick
    simp only [checkReturn, hphase, hagain, if_true, hsys, hnow, Option.map_some]
  have hexpired : Expired s { s.called t with
      sys := sys'
      phase := .loop now
      last := update (s.called t).last t
        (if (s.called t).last t = .expired then .started else (s.called t).last t) } t futures
      (SkipList.inserted (s.passed now t) t futures) := by
    constructor
    · exact hkept
    · intro u
      have hsoft : u ∈ sys.linked .rtSoftTimerList ↔
        u ∈ s.sys.linked .rtSoftTimerList ∧ u ≠ t := Walk.soft_called u
      rw [hmem, hsoft, show timerListOf cfg (sys.timer t) = .rtTimerList by rwa [hsame]]
      simp only [reduceCtorEq, and_false, false_or, and_assoc, and_self]
    · rfl
    · intro u
      rw [mem_inserted]
      simp [hperiodic, or_comm]
    · simp [hperiodic]
    · intro _
      rw [hnext, hwalk.tick]
      exact ⟨rfl, rfl⟩
  refine ⟨_, _, hreturn, hwalk.next hexpired hrows' rfl htick' hlinked (fun u hu => ?_) ?_,
    hexpired⟩
  · rcases mem_inserted.mp hu with rfl | hu
    · rw [hnext, sub32_add32 hnow (Nat.lt_trans hperiod (by decide))]
      exact ⟨Nat.mod_lt _ (by decide), hpos, hperiod⟩
    · rw [hkept u (hfresh u (List.mem_append_right _ hu))]
      exact ⟨hwalk.deadline u (List.mem_append_right _ hu), hwalk.future u hu⟩
  · apply inserted_pairwise _ hdownFutures
    · intro u hu hpassed
      rw [hkept u (hfresh u (List.mem_append_right _ hu)), hnext,
        sub32_add32 hnow (Nat.lt_trans hperiod (by decide))]
      exact (hwalk.passed_iff hnow hperiodic hu).mp hpassed
    · intro u hu hpassed
      rw [hkept u (hfresh u (List.mem_append_right _ hu)), hnext,
        sub32_add32 hnow (Nat.lt_trans hperiod (by decide))]
      have hlater := (hwalk.passed_iff hnow hperiodic hu).not.mp (by simp [hpassed])
      exact Nat.le_of_not_le hlater
    · apply hwalk.sorted.imp_of_mem
      intro u v hu hv hle
      rwa [hkept u (hfresh u (List.mem_append_right _ hu)),
        hkept v (hfresh v (List.mem_append_right _ hv))]

structure Finished (s s' : CheckSystem) (dues futures : List TimerId) : Prop where
  others : ∀ u, u ∉ dues → s'.sys.timer u = s.sys.timer u
  soft : ∀ u, u ∈ s'.sys.linked .rtSoftTimerList ↔
    u ∈ s.sys.linked .rtSoftTimerList ∧ u ∉ dues
  nodup : (s'.sys.linked .rtTimerList).Nodup
  mem_iff : ∀ u, u ∈ s'.sys.linked .rtTimerList ↔
    u ∈ futures ∨ (u ∈ dues ∧ s.periodic u = true)
  oneshot : ∀ u ∈ dues, s.periodic u = false → (s'.sys.timer u).activated = false
  restarted : ∀ u ∈ dues, s.periodic u = true → (s'.sys.timer u).activated = true ∧
    (s'.sys.timer u).timeoutTick = add32 s.sys.tick (s.sys.timer u).initTick

theorem Finished.nil (hlinked : s.sys.linked .rtTimerList = futures) (hnodup : futures.Nodup)
    (hsys : s'.sys = s.sys) : Finished s s' [] futures := by
  constructor
  · intro u _
    rw [hsys]
  · simp [hsys]
  · rwa [hsys, hlinked]
  · intro u
    simp [hsys, hlinked]
  · simp
  · simp

theorem Finished.cons {s₁ : CheckSystem} {futures₁ : List TimerId}
    (hwalk : Walk cfg s now (t :: rest) futures) (hexpired : Expired s s₁ t futures futures₁)
    (htick : s₁.sys.tick = s.sys.tick) (hrest : Finished s₁ s' rest futures₁) :
    Finished s s' (t :: rest) futures := by
  have hfresh : t ∉ rest := fun h =>
    (List.nodup_cons.mp hwalk.nodup).1 (List.mem_append_left _ h)
  have hne : ∀ u ∈ rest, u ≠ t := by
    rintro u hu rfl
    exact hfresh hu
  constructor
  · intro u hu
    rw [List.mem_cons, not_or] at hu
    rw [hrest.others u hu.2, hexpired.others u hu.1]
  · intro u
    rw [hrest.soft, hexpired.soft, List.mem_cons, not_or, and_assoc]
  · exact hrest.nodup
  · intro u
    rw [hrest.mem_iff, hexpired.mem_iff, hexpired.periodic, List.mem_cons]
    constructor
    · rintro ((hold | ⟨rfl, hperiodic⟩) | ⟨hu, hperiodic⟩)
      · exact .inl hold
      · exact .inr ⟨.inl rfl, hperiodic⟩
      · exact .inr ⟨.inr hu, hperiodic⟩
    · rintro (hold | ⟨rfl | hu, hperiodic⟩)
      · exact .inl (.inl hold)
      · exact .inl (.inr ⟨rfl, hperiodic⟩)
      · exact .inr ⟨hu, hperiodic⟩
  · intro u hu honeshot
    rcases List.mem_cons.mp hu with rfl | hu
    · rw [hrest.others u hfresh]
      exact hexpired.oneshot honeshot
    · exact hrest.oneshot u hu (hexpired.periodic ▸ honeshot)
  · intro u hu hperiodic
    rcases List.mem_cons.mp hu with rfl | hu
    · rw [hrest.others u hfresh]
      exact hexpired.restarted hperiodic
    · rw [← hexpired.others u (hne u hu), ← htick]
      exact hrest.restarted u hu (hexpired.periodic ▸ hperiodic)

theorem Walk.run (hwalk : Walk cfg s now dues futures) (hnow : now < 2 ^ 32) :
    ∃ s', checkLoop cfg (dues.length + 1) s = some (s', dues) ∧ Finished s s' dues futures := by
  induction dues generalizing s futures with
  | nil =>
    refine ⟨{ s with phase := .idle }, ?_, ?_⟩
    · simp [checkLoop, hwalk.checkDue_nil hnow]
    · exact Finished.nil hwalk.linked hwalk.nodup rfl
  | cons t rest ih =>
    obtain ⟨s₁, futures₁, hreturn, hnext, hexpired⟩ : ∃ s₁ futures₁,
        (s.called t).checkReturn cfg = some s₁ ∧ Walk cfg s₁ now rest futures₁ ∧
          Expired s s₁ t futures futures₁ := by
      cases hperiodic : s.periodic t with
      | false =>
        obtain ⟨s₁, hgone⟩ := hwalk.oneshot hperiodic
        exact ⟨s₁, futures, hgone⟩
      | true => exact hwalk.restart hnow hperiodic
    obtain ⟨s', hloop, hrest⟩ := ih hnext
    refine ⟨s', ?_, Finished.cons hwalk hexpired (hnext.tick.trans hwalk.tick.symm) hrest⟩
    have hphase : (s.called t).phase = .callback t := rfl
    rw [List.length_cons, checkLoop, hwalk.checkDue, Option.bind_eq_bind, Option.bind_some]
    simp [hphase, hreturn, hloop]

end Walk

/-- The list when the check comes to it: no periodic timer has an empty or too long period, the
head is due if any timer is, and no due timer is so late that the next deadline of a periodic one
before it seems to precede it. -/
structure Timely (s : CheckSystem) : Prop where
  period : ∀ t ∈ s.sys.linked .rtTimerList, s.periodic t = true →
    0 < (s.sys.timer t).initTick ∧ (s.sys.timer t).initTick < rtTickMax / 2
  head : ∀ h ∈ (s.sys.linked .rtTimerList).head?, ∀ t ∈ s.sys.linked .rtTimerList,
    s.sys.Due t → s.sys.Due h
  fits : (s.sys.linked .rtTimerList).Pairwise fun t u => s.sys.Due t → s.sys.Due u →
    s.periodic t = true →
      sub32 s.sys.tick (s.sys.timer u).timeoutTick + (s.sys.timer t).initTick ≤ 2 ^ 31 + 1

section Check

variable {cfg : TimerConfig} {s : CheckSystem}

theorem downward_due (hinv : Inv cfg s.sys) (htick : s.sys.tick < 2 ^ 32)
    {h : TimerId} {rest : List TimerId} (hlinked : s.sys.linked .rtTimerList = h :: rest)
    (hdue : s.sys.Due h) :
    Downward (fun t => decide (s.sys.Due t)) (s.sys.linked .rtTimerList) ∧
      ∀ t ∈ s.sys.linked .rtTimerList, ¬s.sys.Due t →
        0 < sub32 (s.sys.timer t).timeoutTick s.sys.tick ∧
          sub32 (s.sys.timer t).timeoutTick s.sys.tick < rtTickMax / 2 := by
  obtain ⟨base, hwindow, hsorted⟩ := hinv.linked_sorted .rtTimerList
  have hdeadline := hinv.linked_deadline .rtTimerList
  have hhead : h ∈ s.sys.linked .rtTimerList := hlinked ▸ List.mem_cons_self
  have hfirst : ∀ t ∈ s.sys.linked .rtTimerList,
      sub32 (s.sys.timer h).timeoutTick base ≤ sub32 (s.sys.timer t).timeoutTick base := by
    intro t ht
    rw [hlinked] at hsorted ht
    rcases List.mem_cons.mp ht with rfl | ht
    · exact Nat.le_refl _
    · exact (List.pairwise_cons.mp hsorted).1 t ht
  constructor
  · apply hsorted.imp_of_mem
    intro t u ht hu hle hdueu
    rw [decide_eq_true_eq] at hdueu ⊢
    exact due_of_between (hdeadline t ht) (hdeadline u hu) (hdeadline h hhead) (hfirst t ht) hle
      (hwindow u hu) hdue hdueu
  · intro t ht hnot
    exact future_of_not_due htick (hdeadline h hhead) (hdeadline t ht) (hfirst t ht)
      (hwindow t ht) hdue hnot

theorem Timely.walk (htimely : s.Timely) (hinv : Inv cfg s.sys) (htick : s.sys.tick < 2 ^ 32)
    {h : TimerId} {rest : List TimerId} (hlinked : s.sys.linked .rtTimerList = h :: rest)
    (hdue : s.sys.Due h) :
    Walk cfg { s with phase := .loop s.sys.tick } s.sys.tick
      ((s.sys.linked .rtTimerList).filter fun t => decide (s.sys.Due t))
      ((s.sys.linked .rtTimerList).filter fun t => !decide (s.sys.Due t)) := by
  obtain ⟨hdown, hfuture⟩ := downward_due hinv htick hlinked hdue
  obtain ⟨base, hwindow, hsorted⟩ := hinv.linked_sorted .rtTimerList
  have hrow : s.sys.linked .rtTimerList ∈ s.sys.rows .rtTimerList :=
    List.mem_of_getLast? ((rowsOk_of_inv hinv).bottom _)
  have hdues : ∀ t ∈ (s.sys.linked .rtTimerList).filter fun t => decide (s.sys.Due t),
      t ∈ s.sys.linked .rtTimerList ∧ s.sys.Due t := by
    intro t ht
    simpa using List.mem_filter.mp ht
  have hfutures : ∀ t ∈ (s.sys.linked .rtTimerList).filter fun t => !decide (s.sys.Due t),
      t ∈ s.sys.linked .rtTimerList ∧ ¬s.sys.Due t := by
    intro t ht
    simpa using List.mem_filter.mp ht
  constructor
  · exact rowsOk_of_inv hinv
  · rfl
  · rfl
  · exact (filter_append_filter hdown).symm
  · intro t ht
    rw [filter_append_filter hdown] at ht
    exact hinv.linked_deadline _ t ht
  · intro t ht
    exact (hdues t ht).2
  · intro t ht
    obtain ⟨hpending, hown⟩ := hinv.pending_of_mem hrow (hdues t ht).1
    have hisTimer := hinv.isTimer t hpending
    refine ⟨hisTimer, (hinv.activated t hisTimer).mpr hpending, hown, fun hsoft => ?_⟩
    have hsoftRow := List.mem_of_getLast? ((rowsOk_of_inv hinv).bottom .rtSoftTimerList)
    rw [(hinv.pending_of_mem hsoftRow hsoft).2] at hown
    cases hown
  · intro t ht
    exact htimely.period t (hdues t ht).1
  · apply (htimely.fits.filter _).imp_of_mem
    intro t u ht hu hfits
    exact hfits (hdues t ht).2 (hdues u hu).2
  · intro t ht
    exact hfuture t (hfutures t ht).1 (hfutures t ht).2
  · apply (hsorted.filter _).imp_of_mem
    intro t u ht hu hle
    obtain ⟨ht, hnott⟩ := hfutures t ht
    obtain ⟨hu, hnotu⟩ := hfutures u hu
    exact sub32_now_le hle (hwindow u hu) (hfuture t ht hnott).2 (hfuture u hu hnotu).2
      (hfuture t ht hnott).1 (hfuture u hu hnotu).1

end Check

def oneRow : TimerConfig where
  level := 1
  mask := 1
  timerSoft := false
  level_pos := by decide

/-- Timers 0, 1, 2 and so on, given by their deadlines and periods, started in this order -/
def started (tick : Nat) (timers : List (Nat × Nat)) (periodic : TimerId → Bool) : CheckSystem where
  sys := {
    timer := fun t =>
      { isTimer := true
        activated := t < timers.length
        softTimer := false
        timeoutTick := (timers.getD t (0, 0)).1
        initTick := (timers.getD t (0, 0)).2 }
    rows := fun list => match list with
      | .rtTimerList => [List.range timers.length]
      | .rtSoftTimerList => [[]]
    tick := tick
    randomNr := 0
    result := none
    pending := List.range timers.length
    starts := timers.length
    order := id }
  periodic := periodic
  phase := .idle
  last := fun _ => .started

theorem inv_started (base : Nat) {tick : Nat} {timers : List (Nat × Nat)} {periodic : TimerId → Bool}
    (hsorted : (List.range timers.length).Pairwise (Before (started tick timers periodic).sys))
    (hdeadline : ∀ t ∈ List.range timers.length, (timers.getD t (0, 0)).1 < 2 ^ 32)
    (hwindow : ∀ t ∈ List.range timers.length,
      sub32 (timers.getD t (0, 0)).1 base < rtTickMax / 2) :
    Inv oneRow (started tick timers periodic).sys where
  length := by
    rintro (_ | _) <;> rfl
  pairwise := by
    rintro (_ | _) row hrow
    · cases List.mem_singleton.mp hrow
      exact hsorted
    · cases List.mem_singleton.mp hrow
      exact List.Pairwise.nil
  chain := by
    rintro (_ | _) <;> exact List.IsChain.singleton _
  bottom := by
    rintro (_ | _)
    · exact ⟨_, rfl, fun t => ⟨fun ht => ⟨ht, rfl⟩, fun ht => ht.1⟩⟩
    · exact ⟨_, rfl, fun t => ⟨fun ht => absurd ht List.not_mem_nil, fun ht => by cases ht.2⟩⟩
  window := fun _ => ⟨base, fun t ht _ => hwindow t ht⟩
  order := fun t ht => List.mem_range.mp ht
  deadline := hdeadline
  activated := fun t _ => by simp [started]
  isTimer := fun _ _ => rfl

theorem not_expiryOk {cfg : TimerConfig} {s : CheckSystem} {enough : Nat} {called : List TimerId}
    (hcalls : (rtTimerCheck cfg enough s).map Prod.snd = some called) {t : TimerId}
    (hlinked : t ∈ s.sys.linked .rtTimerList) (hdue : s.sys.Due t) (hskipped : t ∉ called) :
    ¬∃ fuel s' calls, rtTimerCheck cfg fuel s = some (s', calls) ∧ ExpiryOk s s' calls := by
  rintro ⟨fuel, s', calls, hrun, hok⟩
  obtain ⟨result, hresult, rfl⟩ := Option.map_eq_some_iff.mp hcalls
  have hsame : some result = some (s', calls) := by
    rw [← checkLoop_mono hresult (max fuel enough) (le_max_right _ _),
      ← checkLoop_mono hrun (max fuel enough) (le_max_left _ _)]
  cases hsame
  exact hskipped ((hok.called t).mpr ⟨hlinked, hdue⟩)

def lateHead : CheckSystem := started (2 ^ 31) [(0, 1), (2, 1)] fun _ => false

/-- A head that is late by half the range hides the one behind it. -/
theorem not_expiryOk_late_head : Inv oneRow lateHead.sys ∧
    ¬∃ fuel s' calls, rtTimerCheck oneRow fuel lateHead = some (s', calls) ∧
      ExpiryOk lateHead s' calls := by
  have hcalls : (rtTimerCheck oneRow 1 lateHead).map Prod.snd = some [] := by decide +kernel
  exact ⟨inv_started 0 (by decide) (by decide) (by decide),
    not_expiryOk (t := 1) hcalls (by decide) (by decide) (by decide)⟩

end CheckSystem

end RtThread.Clock
