import RtThread.Clock.SoftCheck
import RtThread.Clock.SoftLists

namespace RtThread.Clock.SoftCheckSystem

open Function RtThread.Lib TimerSystem SoftCheckSystem

structure Sound (cfg : TimerConfig) (timers : Finset TimerId) (s : SoftCheckSystem) : Prop where
  soft : cfg.timerSoft = true
  tick : s.sys.tick = s.time % 2 ^ 32
  listed : Listed cfg s.sys s.due
  isTimer : ∀ list, ∀ t ∈ s.sys.linked list, (s.sys.timer t).isTimer = true
  near : ∀ t ∈ s.softList, s.due t < s.time + rtTickMax / 2
  member : ∀ t ∈ s.softList, t ∈ timers ∧ s.last t = .started
  period : ∀ t, (s.sys.timer t).activated = true → (s.sys.timer t).initTick < rtTickMax / 2
  starting : ∀ t, s.starting t ≠ .no → (s.sys.timer t).isTimer = true ∧
    (s.sys.timer t).softTimer = true ∧ (s.sys.timer t).activated = false ∧ t ∈ timers ∧
    ∀ list, t ∉ s.sys.linked list
  timed : ∀ t, s.starting t = .timed → (s.sys.timer t).timeoutTick = s.due t % 2 ^ 32 ∧
    s.due t < s.time + rtTickMax / 2 ∧ (s.sys.timer t).initTick < rtTickMax / 2

def Remaining (s : SoftCheckSystem) (t : TimerId) : Prop :=
  t ∈ s.expired ∧ t ∉ s.touched ∧ t ∉ s.called

/-- Where the check is in the list: before everything that it has still to call, unless
the timer it has saved was moved. -/
structure Walking (timers : Finset TimerId) (s : SoftCheckSystem) : Prop where
  read : s.readAt ≤ s.time
  current : ∀ currentTick n, s.phase = .loop currentTick n ∨
    (∃ t, s.phase = .restart currentTick t n) → currentTick = s.readAt % 2 ^ 32
  waits : ∀ w, s.Remaining w → w ∈ s.softList ∧ s.due w ≤ s.readAt ∧
    ∃ n, s.phase.saved = some n ∧
      (s.moved = false → ∃ m, n = some m ∧ SkipList.Ahead m w s.softList)
  saved : s.moved = false → ∀ m, s.phase.saved = some (some m) → m ∈ s.softList
  running : ∀ t, s.phase.running = some t → s.phase.saved ≠ some (some t) ∧ t ∈ s.called ∧
    (s.sys.timer t).softTimer = true
  restart : ∀ currentTick t n, s.phase = .restart currentTick t n →
    (s.sys.timer t).isTimer = true ∧ (s.sys.timer t).softTimer = true ∧
      (s.sys.timer t).initTick < rtTickMax / 2 ∧ s.starting t = .no ∧ t ∈ timers
  once : s.called.Nodup
  member : ∀ t ∈ s.called, t ∈ timers
  live : ∀ call ∈ s.calls, call.2 = .started

/-- The steps with which a check does what it should: while a callback runs, the timer that the
check has saved is taken off the list only if nothing is expired when the check goes on; the tick
runs no half range ahead of a deadline on the list; no timer that the check has called is expired
when it comes to it again; a periodic timer is not detached in its callback. -/
def Regular (s : SoftCheckSystem) : SoftCheckOp → Prop
  | .startInsert t => ∀ u ∈ s.softList,
      s.due u < s.due t + rtTickMax / 2 ∧ s.due t ≤ s.due u + (rtTickMax / 2 + 2)
  | .restarted => ∀ t ∈ s.phase.running, ∀ u ∈ s.softList, u ≠ t →
      s.due u < s.time + (s.sys.timer t).initTick + rtTickMax / 2 ∧
        s.time + (s.sys.timer t).initTick ≤ s.due u + (rtTickMax / 2 + 2)
  | .due => ∀ test ∈ s.phase.test, (∀ t ∈ s.softList, s.readAt < s.due t + rtTickMax / 2) ∧
      (∀ t ∈ test.2, s.Expired test.1 t → s.moved = false ∧ t ∉ s.called) ∧
      (s.moved = true → ∀ t ∈ s.softList, ¬s.Expired test.1 t)
  | .callbackReturn => ∀ t ∈ s.phase.running, s.periodic t = true →
      (s.sys.timer t).activated = true → (s.sys.timer t).isTimer = true
  | _ => True

section Sound

variable {cfg : TimerConfig} {timers : Finset TimerId} {s s' : SoftCheckSystem} {t : TimerId}

section

variable (hsound : Sound cfg timers s)
include hsound

theorem Sound.rows_nodup : s.softList.Nodup :=
  (hsound.listed.rows.nested _).nodup _ (List.mem_of_getLast? (hsound.listed.rows.bottom _))

theorem Sound.not_starting {list : TimerList}
    (ht : t ∈ s.sys.linked list) : s.starting t = .no := by
  by_contra hne
  exact (hsound.starting t hne).2.2.2.2 list ht

theorem Sound.unlink (hrows : s'.sys.rows = (rtTimerRemove t s.sys).rows)
    (htimer : ∀ u, u ≠ t → s'.sys.timer u = s.sys.timer u)
    (hactivated : (s'.sys.timer t).activated = true →
      (s'.sys.timer t).initTick < rtTickMax / 2)
    (hlast : ∀ u, u ≠ t → s'.last u = s.last u)
    (hstarting : ∀ u, u ≠ t → s'.starting u = s.starting u)
    (hself : s'.starting t = .no ∨ s'.starting t = .removed ∧ (s'.sys.timer t).isTimer = true ∧
      (s'.sys.timer t).softTimer = true ∧ (s'.sys.timer t).activated = false ∧ t ∈ timers)
    (htick : s'.sys.tick = s.sys.tick) (htime : s'.time = s.time) (hdue : s'.due = s.due) :
    Sound cfg timers s' := by
  have hlinked : ∀ list u, u ∈ s'.sys.linked list ↔ u ∈ s.sys.linked list ∧ u ≠ t := by
    intro list u
    rw [linked_congr hrows, mem_linked_remove]
  constructor
  · exact hsound.soft
  · rw [htick, htime, hsound.tick]
  · apply hsound.listed.shrink ((hsound.listed.rows.remove t).congr hrows)
    · intro list
      rw [linked_congr hrows, linked_rtTimerRemove]
      exact List.filter_sublist
    · intro list u hu
      rw [htimer u ((hlinked list u).mp hu).2]
      exact ⟨rfl, rfl⟩
    · intro u _
      rw [hdue]
  · intro list u hu
    obtain ⟨hold, hne⟩ := (hlinked list u).mp hu
    rw [htimer u hne]
    exact hsound.isTimer list u hold
  · intro u hu
    rw [hdue, htime]
    exact hsound.near u ((hlinked _ u).mp hu).1
  · intro u hu
    obtain ⟨hold, hne⟩ := (hlinked _ u).mp hu
    rw [hlast u hne]
    exact hsound.member u hold
  · intro u
    rcases eq_or_ne u t with rfl | hne
    · exact hactivated
    · rw [htimer u hne]
      exact hsound.period u
  · intro u hu
    rcases eq_or_ne u t with rfl | hne
    · obtain hno | ⟨-, hisTimer, hsoft, hinactive, hmember⟩ := hself
      · exact absurd hno hu
      · exact ⟨hisTimer, hsoft, hinactive, hmember, fun list h => ((hlinked list u).mp h).2 rfl⟩
    · rw [hstarting u hne] at hu
      obtain ⟨hisTimer, hsoft, hinactive, hmember, hfree⟩ := hsound.starting u hu
      rw [htimer u hne]
      exact ⟨hisTimer, hsoft, hinactive, hmember, fun list h => hfree list ((hlinked list u).mp h).1⟩
  · intro u hu
    rcases eq_or_ne u t with rfl | hne
    · rcases hself with hno | ⟨hremoved, -⟩
      · rw [hno] at hu
        cases hu
      · rw [hremoved] at hu
        cases hu
    · rw [hstarting u hne] at hu
      rw [htimer u hne, hdue, htime]
      exact hsound.timed u hu

theorem Sound.keep (hrows : s'.sys.rows = s.sys.rows)
    (htimer : ∀ u, (∃ list, u ∈ s.sys.linked list) ∨ s.starting u ≠ .no →
      (s'.sys.timer u).isTimer = (s.sys.timer u).isTimer ∧
      (s'.sys.timer u).softTimer = (s.sys.timer u).softTimer ∧
      (s'.sys.timer u).timeoutTick = (s.sys.timer u).timeoutTick ∧
      (s'.sys.timer u).initTick = (s.sys.timer u).initTick)
    (hperiod : ∀ u, (s'.sys.timer u).activated = true → (s.sys.timer u).activated = true ∧
      (s'.sys.timer u).initTick = (s.sys.timer u).initTick)
    (hlast : ∀ u ∈ s.softList, s'.last u = s.last u) (hstarting : s'.starting = s.starting)
    (htick : s'.sys.tick = s'.time % 2 ^ 32) (htime : s.time ≤ s'.time) (hdue : s'.due = s.due) :
    Sound cfg timers s' := by
  have hlinked : ∀ list, s'.sys.linked list = s.sys.linked list := fun _ => linked_congr hrows
  constructor
  · exact hsound.soft
  · exact htick
  · apply hsound.listed.congr hrows
    · intro list u hu
      obtain ⟨-, hsoft, htimeout, -⟩ := htimer u (.inl ⟨list, hu⟩)
      exact ⟨by rw [timerListOf, timerListOf, hsoft], htimeout⟩
    · intro u _
      rw [hdue]
  · intro list u hu
    rw [hlinked] at hu
    rw [(htimer u (.inl ⟨list, hu⟩)).1]
    exact hsound.isTimer list u hu
  · intro u hu
    rw [softList, hlinked] at hu
    rw [hdue]
    exact Nat.lt_of_lt_of_le (hsound.near u hu) (Nat.add_le_add_right htime _)
  · intro u hu
    rw [softList, hlinked] at hu
    rw [hlast u hu]
    exact hsound.member u hu
  · intro u hu
    obtain ⟨hold, hinit⟩ := hperiod u hu
    rw [hinit]
    exact hsound.period u hold
  · intro u hu
    rw [hstarting] at hu
    obtain ⟨hisTimer, hsoft, hinactive, hmember, hfree⟩ := hsound.starting u hu
    obtain ⟨hkeepsTimer, hkeepsSoft, -, -⟩ := htimer u (.inr hu)
    rw [hkeepsTimer, hkeepsSoft]
    refine ⟨hisTimer, hsoft, ?_, hmember, fun list => ?_⟩
    · rw [← Bool.not_eq_true]
      intro hactive
      exact absurd ((hperiod u hactive).1.symm.trans hinactive) (by decide)
    · rw [hlinked]
      exact hfree list
  · intro u hu
    rw [hstarting] at hu
    obtain ⟨hdated, hnear, hperiodic⟩ := hsound.timed u hu
    obtain ⟨-, -, htimeout, hinit⟩ := htimer u (.inr (by rw [hu]; decide))
    rw [htimeout, hinit, hdue]
    exact ⟨hdated, Nat.lt_of_lt_of_le hnear (Nat.add_le_add_right htime _), hperiodic⟩

theorem Sound.set (hfree : ∀ list, t ∉ s.sys.linked list)
    (hrows : s'.sys.rows = s.sys.rows) (htimer : ∀ u, u ≠ t → s'.sys.timer u = s.sys.timer u)
    (hactivated : (s'.sys.timer t).activated = true →
      (s'.sys.timer t).initTick < rtTickMax / 2)
    (hlast : ∀ u, u ≠ t → s'.last u = s.last u)
    (hstarting : ∀ u, u ≠ t → s'.starting u = s.starting u)
    (hself : s'.starting t ≠ .no → (s'.sys.timer t).isTimer = true ∧
      (s'.sys.timer t).softTimer = true ∧ (s'.sys.timer t).activated = false ∧ t ∈ timers)
    (htimed : s'.starting t = .timed → (s'.sys.timer t).timeoutTick = s'.due t % 2 ^ 32 ∧
      s'.due t < s'.time + rtTickMax / 2 ∧ (s'.sys.timer t).initTick < rtTickMax / 2)
    (htick : s'.sys.tick = s.sys.tick) (htime : s'.time = s.time)
    (hdue : ∀ u, u ≠ t → s'.due u = s.due u) : Sound cfg timers s' := by
  have hlinked : ∀ list, s'.sys.linked list = s.sys.linked list := fun _ => linked_congr hrows
  have hne : ∀ list, ∀ u ∈ s.sys.linked list, u ≠ t := by
    rintro list u hu rfl
    exact hfree list hu
  constructor
  · exact hsound.soft
  · rw [htick, htime, hsound.tick]
  · apply hsound.listed.congr hrows
    · intro list u hu
      rw [htimer u (hne list u hu)]
      exact ⟨rfl, rfl⟩
    · intro u hu
      exact hdue u (hne _ u hu)
  · intro list u hu
    rw [hlinked] at hu
    rw [htimer u (hne list u hu)]
    exact hsound.isTimer list u hu
  · intro u hu
    rw [softList, hlinked] at hu
    rw [hdue u (hne _ u hu), htime]
    exact hsound.near u hu
  · intro u hu
    rw [softList, hlinked] at hu
    rw [hlast u (hne _ u hu)]
    exact hsound.member u hu
  · intro u
    rcases eq_or_ne u t with rfl | hu
    · exact hactivated
    · rw [htimer u hu]
      exact hsound.period u
  · intro u hstart
    rcases eq_or_ne u t with rfl | hu
    · obtain ⟨hisTimer, hsoft, hinactive, hmember⟩ := hself hstart
      exact ⟨hisTimer, hsoft, hinactive, hmember, fun list => hlinked list ▸ hfree list⟩
    · rw [hstarting u hu] at hstart
      obtain ⟨hisTimer, hsoft, hinactive, hmember, hunlinked⟩ := hsound.starting u hstart
      rw [htimer u hu]
      exact ⟨hisTimer, hsoft, hinactive, hmember, fun list => hlinked list ▸ hunlinked list⟩
  · intro u hstart
    rcases eq_or_ne u t with rfl | hu
    · exact htimed hstart
    · rw [hstarting u hu] at hstart
      rw [htimer u hu, hdue u hu, htime]
      exact hsound.timed u hstart

theorem Sound.startRemove (hisTimer : (s.sys.timer t).isTimer = true)
    (hsoft : (s.sys.timer t).softTimer = true) (hmember : t ∈ timers) :
    Sound cfg timers (s.startRemove t) := by
  have hself : (s.startRemove t).sys.timer t = { s.sys.timer t with activated := false } :=
    update_self _ _ _
  apply hsound.unlink (t := t)
  · rfl
  · intro u hu
    exact update_of_ne hu _ _
  · rw [hself]
    intro hactive
    cases hactive
  · intro u _
    rfl
  · intro u hu
    exact update_of_ne hu _ _
  · rw [hself]
    exact .inr ⟨update_self _ _ _, hisTimer, hsoft, rfl, hmember⟩
  · rfl
  · rfl
  · rfl

theorem Sound.startDeadline (hstart : s.startDeadline t = some s') : Sound cfg timers s' := by
  unfold SoftCheckSystem.startDeadline at hstart
  split at hstart
  next hguard =>
    obtain ⟨hremoved, hperiod⟩ := hguard
    obtain ⟨hisTimer, hsoft, hinactive, hmember, hfree⟩ :=
      hsound.starting t (by rw [hremoved]; decide)
    cases hstart
    apply hsound.set hfree
    · rfl
    · intro u hu
      exact update_of_ne hu _ _
    · intro _
      simpa [setTimer] using hperiod
    · intro u _
      rfl
    · intro u hu
      exact update_of_ne hu _ _
    · intro _
      simpa [setTimer] using ⟨hisTimer, hsoft, hinactive, hmember⟩
    · intro _
      simp only [setTimer, update_self, hsound.tick]
      exact ⟨Nat.mod_add_mod _ _ _, Nat.add_lt_add_left hperiod _, hperiod⟩
    · rfl
    · rfl
    · intro u hu
      exact update_of_ne hu _ _
  · cases hstart

theorem Sound.startInsert (hstart : s.startInsert cfg t = some s') (hwindow : ∀ u ∈ s.softList,
      s.due u < s.due t + rtTickMax / 2 ∧ s.due t ≤ s.due u + (rtTickMax / 2 + 2)) :
    Sound cfg timers s' ∧ s.softList.Sublist s'.softList := by
  unfold SoftCheckSystem.startInsert at hstart
  split at hstart
  next htimed =>
    obtain ⟨hisTimer, hsoft, hinactive, hmember, hfree⟩ :=
      hsound.starting t (by rw [htimed]; decide)
    obtain ⟨hdated, hnear, hperiod⟩ := hsound.timed t htimed
    have hown : timerListOf cfg (s.sys.timer t) = .rtSoftTimerList := by
      simp [timerListOf, hsound.soft, hsoft]
    obtain ⟨sys, hinsert, hs'⟩ := Option.map_eq_some_iff.mp hstart
    cases hs'
    obtain ⟨hlisted, htimer, htick, hmem⟩ :=
      hsound.listed.insertTimer hown hfree hdated hwindow hinsert
    refine ⟨?_, hsound.listed.sublist_insertTimer hown hdated hwindow hinsert⟩
    have hself : sys.timer t = { s.sys.timer t with activated := true } := by
      rw [htimer, update_self]
    have hother : ∀ u, u ≠ t → sys.timer u = s.sys.timer u := by
      intro u hu
      rw [htimer, update_of_ne hu]
    have hmemOther : ∀ list u, u ≠ t → (u ∈ sys.linked list ↔ u ∈ s.sys.linked list) := by
      intro list u hu
      simp [hmem, hu]
    constructor
    · exact hsound.soft
    · exact htick.trans hsound.tick
    · exact hlisted
    · intro list u hu
      rcases eq_or_ne u t with rfl | hne
      · rw [hself]
        exact hisTimer
      · rw [hother u hne]
        exact hsound.isTimer list u ((hmemOther list u hne).mp hu)
    · intro u hu
      rcases eq_or_ne u t with rfl | hne
      · exact hnear
      · exact hsound.near u ((hmemOther _ u hne).mp hu)
    · intro u hu
      rcases eq_or_ne u t with rfl | hne
      · exact ⟨hmember, update_self _ _ _⟩
      · have hold := hsound.member u ((hmemOther _ u hne).mp hu)
        exact ⟨hold.1, (update_of_ne hne _ _).trans hold.2⟩
    · intro u
      rcases eq_or_ne u t with rfl | hne
      · rw [hself]
        exact fun _ => hperiod
      · rw [hother u hne]
        exact hsound.period u
    · intro u hu
      rcases eq_or_ne u t with rfl | hne
      · simp at hu
      · have hstart : s.starting u ≠ .no := by simpa [hne] using hu
        obtain ⟨hisTimer, hsoft, hinactive, hmember, hunlinked⟩ := hsound.starting u hstart
        rw [hother u hne]
        exact ⟨hisTimer, hsoft, hinactive, hmember,
          fun list h => hunlinked list ((hmemOther list u hne).mp h)⟩
    · intro u hu
      rcases eq_or_ne u t with rfl | hne
      · simp at hu
      · have hstart : s.starting u = .timed := by simpa [hne] using hu
        rw [hother u hne]
        exact hsound.timed u hstart
  · cases hstart

end

end Sound

section Walking

variable {cfg : TimerConfig} {timers : Finset TimerId} {s s' : SoftCheckSystem} {t : TimerId}

theorem Walking.frame (hwalking : Walking timers s) (changed : TimerId → Prop)
    (hphase : s'.phase = s.phase) (htime : s.time ≤ s'.time) (hreadAt : s'.readAt = s.readAt)
    (hexpired : s'.expired = s.expired) (hcalls : s'.calls = s.calls)
    (hkeep : ∀ u, ¬changed u → u ∈ s.softList → u ∈ s'.softList ∧ s'.due u = s.due u)
    (hahead : ∀ m w, ¬changed m → ¬changed w → SkipList.Ahead m w s.softList →
      SkipList.Ahead m w s'.softList)
    (htouched : ∀ u ∈ s.touched, u ∈ s'.touched) (hmoved : s.moved = true → s'.moved = true)
    (hself : ∀ u ∈ s.softList, changed u → u ∈ s'.touched ∧
      (s.phase.saved = some (some u) → s'.moved = true))
    (hsoft : ∀ u, (s.sys.timer u).softTimer = true → (s'.sys.timer u).softTimer = true)
    (hrestart : ∀ u, s.phase.unlocked = false → s'.sys.timer u = s.sys.timer u ∧
      s'.starting u = s.starting u) : Walking timers s' := by
  have hcalled : s'.called = s.called := congrArg (List.map Prod.fst) hcalls
  have hstill : s'.moved = false → s.moved = false := by
    intro hnot
    rw [← Bool.not_eq_true]
    intro hmove
    exact absurd ((hmoved hmove).symm.trans hnot) (by decide)
  have hunchanged : s'.moved = false → ∀ m ∈ s.softList, s.phase.saved = some (some m) →
      ¬changed m := by
    intro hnot m hm hsaved hchanged
    exact absurd (((hself m hm hchanged).2 hsaved).symm.trans hnot) (by decide)
  constructor
  · rw [hreadAt]
    exact Nat.le_trans hwalking.read htime
  · rw [hphase, hreadAt]
    exact hwalking.current
  · rintro w ⟨hexp, hnot, huncalled⟩
    rw [hexpired] at hexp
    rw [hcalled] at huncalled
    obtain ⟨hw, hdue, n, hsaved, hbefore⟩ :=
      hwalking.waits w ⟨hexp, fun h => hnot (htouched w h), huncalled⟩
    have hsame : ¬changed w := fun h => hnot (hself w hw h).1
    obtain ⟨hw', hdue'⟩ := hkeep w hsame hw
    refine ⟨hw', by rwa [hdue', hreadAt], n, hphase ▸ hsaved, fun hnotMoved => ?_⟩
    obtain ⟨m, rfl, hpair⟩ := hbefore (hstill hnotMoved)
    exact ⟨m, rfl, hahead m w (hunchanged hnotMoved m hpair.mem hsaved) hsame hpair⟩
  · intro hnot m hsaved
    rw [hphase] at hsaved
    have hm := hwalking.saved (hstill hnot) m hsaved
    exact (hkeep m (hunchanged hnot m hm hsaved) hm).1
  · intro u hrunning
    rw [hphase] at hrunning ⊢
    rw [hcalled]
    obtain ⟨hsaved, hmem, hsoftTimer⟩ := hwalking.running u hrunning
    exact ⟨hsaved, hmem, hsoft u hsoftTimer⟩
  · intro currentTick u n hat
    rw [hphase] at hat
    obtain ⟨htimer, hstarting⟩ := hrestart u (by rw [hat]; rfl)
    rw [htimer, hstarting]
    exact hwalking.restart currentTick u n hat
  · rw [hcalled]
    exact hwalking.once
  · rw [hcalled]
    exact hwalking.member
  · rw [hcalls]
    exact hwalking.live

theorem Walking.unlink (hwalking : Walking timers s) (hunlocked : s.phase.unlocked = true)
    (hrows : s'.sys.rows = (rtTimerRemove t s.sys).rows)
    (hphase : s'.phase = s.phase) (htime : s'.time = s.time) (hreadAt : s'.readAt = s.readAt)
    (hexpired : s'.expired = s.expired) (hcalls : s'.calls = s.calls) (hdue : s'.due = s.due)
    (htouched : s'.touched = t :: s.touched)
    (hmoved : s'.moved = (s.moved || decide (s.phase.saved = some (some t))))
    (hsoft : ∀ u, (s.sys.timer u).softTimer = true → (s'.sys.timer u).softTimer = true) :
    Walking timers s' := by
  have hlist : s'.softList = s.softList.filter (· ≠ t) := by
    rw [softList, linked_congr hrows, linked_rtTimerRemove]
    rfl
  apply hwalking.frame (fun u => u = t) hphase (Nat.le_of_eq htime.symm) hreadAt hexpired hcalls
  · intro u hne hu
    rw [hlist, hdue]
    exact ⟨List.mem_filter.mpr ⟨hu, decide_eq_true hne⟩, rfl⟩
  · intro m w hm hw hahead
    rw [hlist]
    exact hahead.filter (decide_eq_true hm) (decide_eq_true hw)
  · intro u hu
    rw [htouched]
    exact List.mem_cons_of_mem t hu
  · intro hmove
    rw [hmoved, hmove, Bool.true_or]
  · rintro u - rfl
    rw [htouched, hmoved]
    refine ⟨List.mem_cons_self, fun hsaved => ?_⟩
    rw [hsaved, decide_eq_true rfl, Bool.or_true]
  · exact hsoft
  · intro u hlocked
    exact absurd (hunlocked.symm.trans hlocked) (by decide)

theorem Walking.keep (hwalking : Walking timers s) (hrows : s'.sys.rows = s.sys.rows)
    (hphase : s'.phase = s.phase) (htime : s.time ≤ s'.time) (hreadAt : s'.readAt = s.readAt)
    (hexpired : s'.expired = s.expired) (hcalls : s'.calls = s.calls)
    (hdue : ∀ u ∈ s.softList, s'.due u = s.due u) (htouched : s'.touched = s.touched)
    (hmoved : s'.moved = s.moved)
    (hsoft : ∀ u, (s.sys.timer u).softTimer = true → (s'.sys.timer u).softTimer = true)
    (hrestart : ∀ u, s.phase.unlocked = false → s'.sys.timer u = s.sys.timer u ∧
      s'.starting u = s.starting u) : Walking timers s' := by
  have hlist : s'.softList = s.softList := linked_congr hrows
  apply hwalking.frame (fun _ => False) hphase htime hreadAt hexpired hcalls
  · intro u _ hu
    rw [hlist]
    exact ⟨hu, hdue u hu⟩
  · intro m w _ _ hahead
    rwa [hlist]
  · intro u hu
    rwa [htouched]
  · intro hmove
    rwa [hmoved]
  · intro u _ hchanged
    exact hchanged.elim
  · exact hsoft
  · exact hrestart

theorem Walking.check (hsound : Sound cfg timers s) (hcheck : s.check = some s') :
    Walking timers s' := by
  unfold SoftCheckSystem.check at hcheck
  split at hcheck
  · cases hcheck
    constructor
    · exact Nat.le_refl _
    · rintro currentTick n (hat | ⟨t, hat⟩)
      · cases hat
        exact hsound.tick
      · cases hat
    · rintro w ⟨hexpired, -, -⟩
      obtain ⟨hw, hdue⟩ := List.mem_filter.mp hexpired
      rw [decide_eq_true_eq] at hdue
      refine ⟨hw, ?_, _, rfl, fun _ => ?_⟩
      · have hnear := hsound.near w hw
        rw [Expired, hsound.tick, hsound.listed.dated w hw] at hdue
        simp only [sub32, rtTickMax] at *
        omega
      · cases hlist : s.softList with
        | nil => simp [hlist] at hw
        | cons m rest =>
          rw [hlist] at hw
          refine ⟨m, rfl, ?_⟩
          show SkipList.Ahead m w s.softList
          rw [hlist]
          exact SkipList.ahead_head hw
    · intro _ m hsaved
      exact List.mem_of_mem_head? (Option.some.inj hsaved)
    · intro t hrunning
      cases hrunning
    · intro currentTick t n hat
      cases hat
    · exact List.nodup_nil
    · intro t ht
      cases ht
    · intro call hcall
      cases hcall
  · cases hcheck

section

variable (hwalking : Walking timers s)
include hwalking

theorem Walking.none_remaining (hsound : Sound cfg timers s)
    {currentTick : Nat} {n : Option TimerId} (hphase : s.phase = .loop currentTick n)
    (hinTime : ∀ t ∈ s.softList, s.readAt < s.due t + rtTickMax / 2)
    (hmoved : s.moved = true → ∀ t ∈ s.softList, ¬s.Expired currentTick t)
    (hnot : ∀ t, n = some t → ¬s.Expired currentTick t) (w : TimerId) : ¬s.Remaining w := by
  intro hremaining
  obtain ⟨hw, hdue, n', hsaved, hbefore⟩ := hwalking.waits w hremaining
  rw [hphase] at hsaved
  cases hsaved
  have hexpired : ∀ u ∈ s.softList, s.due u ≤ s.readAt → s.Expired currentTick u := by
    intro u hu hle
    have hin := hinTime u hu
    rw [Expired, hwalking.current currentTick n (.inl hphase), hsound.listed.dated u hu]
    simp only [sub32, rtTickMax] at *
    omega
  cases hmove : s.moved with
  | true => exact hmoved hmove w hw (hexpired w hw hdue)
  | false =>
    obtain ⟨m, rfl, hahead⟩ := hbefore hmove
    have hle : s.due m ≤ s.due w := hahead.rel hsound.listed.sorted fun _ => Nat.le_refl _
    exact hnot m rfl (hexpired m hahead.mem (hle.trans hdue))

theorem Walking.stop (hnone : ∀ w, ¬s.Remaining w) : Walking timers { s with phase := .idle } := by
  constructor
  · exact hwalking.read
  · rintro currentTick n (hat | ⟨t, hat⟩)
    · cases hat
    · cases hat
  · intro w hremaining
    exact absurd hremaining (hnone w)
  · intro _ m hsaved
    cases hsaved
  · intro t hrunning
    cases hrunning
  · intro currentTick t n hat
    cases hat
  · exact hwalking.once
  · exact hwalking.member
  · exact hwalking.live

theorem Walking.call (hsound : Sound cfg timers s)
    {currentTick : Nat} (hphase : s.phase = .loop currentTick (some t)) (hmoved : s.moved = false)
    (hnew : t ∉ s.called) :
    Walking timers { s.setLast t .expired with
      sys := s.sys.unlinkExpired t
      phase := .callback t (s.sys.nextLinked .rtSoftTimerList t)
      calls := s.calls ++ [(t, s.last t)]
      moved := false } := by
  have hsavedHere : s.phase.saved = some (some t) := by
    rw [hphase]
    rfl
  have ht : t ∈ s.softList := hwalking.saved hmoved t hsavedHere
  obtain ⟨hmember, hlast⟩ := hsound.member t ht
  have hnext : s.sys.nextLinked .rtSoftTimerList t =
      (s.softList.dropWhile (· ≠ t)).tail.head? := if_pos ht
  have hlist : (s.sys.unlinkExpired t).linked .rtSoftTimerList = s.softList.filter (· ≠ t) :=
    linked_rtTimerRemove t _
  have hcalled : (s.calls ++ [(t, s.last t)]).map Prod.fst = s.called ++ [t] := by
    rw [List.map_append]
    rfl
  constructor
  · exact hwalking.read
  · rintro current n (hat | ⟨u, hat⟩)
    · cases hat
    · cases hat
  · rintro w ⟨hexpired, huntouched, huncalled⟩
    have hfar : w ∉ s.called ++ [t] := hcalled ▸ huncalled
    rw [List.mem_append, List.mem_singleton, not_or] at hfar
    obtain ⟨hw, hdue, n, hsaved, hbefore⟩ := hwalking.waits w ⟨hexpired, huntouched, hfar.1⟩
    rw [hsavedHere] at hsaved
    cases hsaved
    obtain ⟨m, hm, hahead⟩ := hbefore hmoved
    cases hm
    obtain ⟨v, hv, hahead'⟩ := hahead.next hsound.rows_nodup hfar.2
    refine ⟨?_, hdue, _, rfl, fun _ => ⟨v, hnext.trans hv, ?_⟩⟩
    · rw [softList, hlist]
      exact List.mem_filter.mpr ⟨hw, decide_eq_true hfar.2⟩
    · rw [softList, hlist]
      exact hahead'
  · intro _ m hsaved
    have hm : (s.softList.dropWhile (· ≠ t)).tail.head? = some m :=
      hnext.symm.trans (Option.some.inj hsaved)
    obtain ⟨hmem, hne⟩ := SkipList.mem_of_next hsound.rows_nodup hm
    rw [softList, hlist]
    exact List.mem_filter.mpr ⟨hmem, decide_eq_true hne⟩
  · intro u hrunning
    cases hrunning
    constructor
    · intro hsaved
      have hm : (s.softList.dropWhile (· ≠ t)).tail.head? = some t :=
        hnext.symm.trans (Option.some.inj hsaved)
      exact (SkipList.mem_of_next hsound.rows_nodup hm).2 rfl
    · refine ⟨?_, ?_⟩
      · show t ∈ (s.calls ++ [(t, s.last t)]).map Prod.fst
        rw [hcalled]
        exact List.mem_append_right _ (List.mem_singleton_self t)
      · have hown := hsound.listed.home _ t ht
        by_contra hhard
        rw [Bool.not_eq_true] at hhard
        have hhard : (s.sys.timer t).softTimer = false := hhard
        simp [timerListOf, hhard] at hown
  · intro current u n hat
    cases hat
  · show ((s.calls ++ [(t, s.last t)]).map Prod.fst).Nodup
    rw [hcalled, List.nodup_append]
    refine ⟨hwalking.once, List.nodup_singleton t, ?_⟩
    intro u hu v hv heq
    rw [List.mem_singleton] at hv
    exact hnew (hv ▸ heq ▸ hu)
  · intro u hu
    have hu' : u ∈ s.called ++ [t] := hcalled ▸ hu
    rcases List.mem_append.mp hu' with hold | hself
    · exact hwalking.member u hold
    · exact List.mem_singleton.mp hself ▸ hmember
  · intro call hcall
    rcases List.mem_append.mp hcall with hold | hself
    · exact hwalking.live call hold
    · rw [List.mem_singleton.mp hself]
      exact hlast

theorem Walking.goOn {n : Option TimerId}
    (hphase : s.phase = .callback t n) (phase : SoftPhase) (hsaved : phase.saved = some n)
    (hrows : s'.sys.rows = s.sys.rows) (hphase' : s'.phase = phase)
    (htime : s'.time = s.time) (hreadAt : s'.readAt = s.time) (hexpired : s'.expired = s.expired)
    (hcalls : s'.calls = s.calls) (hdue : s'.due = s.due) (htouched : s'.touched = s.touched)
    (hmoved : s'.moved = s.moved)
    (hcurrent : ∀ currentTick n, phase = .loop currentTick n ∨
      (∃ t, phase = .restart currentTick t n) → currentTick = s.time % 2 ^ 32)
    (hrunning : ∀ u, phase.running = some u → u = t ∧ (s'.sys.timer t).softTimer = true)
    (hrestart : ∀ currentTick u n, phase = .restart currentTick u n →
      (s'.sys.timer u).isTimer = true ∧ (s'.sys.timer u).softTimer = true ∧
        (s'.sys.timer u).initTick < rtTickMax / 2 ∧ s'.starting u = .no ∧ u ∈ timers) :
    Walking timers s' := by
  have hcalled : s'.called = s.called := congrArg (List.map Prod.fst) hcalls
  have hlist : s'.softList = s.softList := linked_congr hrows
  have hsavedBefore : s.phase.saved = some n := by
    rw [hphase]
    rfl
  constructor
  · rw [hreadAt, htime]
  · rw [hphase', hreadAt]
    exact hcurrent
  · rintro w ⟨hexp, huntouched, huncalled⟩
    rw [hexpired] at hexp
    rw [htouched] at huntouched
    rw [hcalled] at huncalled
    obtain ⟨hw, hle, n', hn, hbefore⟩ := hwalking.waits w ⟨hexp, huntouched, huncalled⟩
    rw [hsavedBefore] at hn
    cases hn
    rw [hlist, hdue, hreadAt, hphase', hmoved]
    exact ⟨hw, hle.trans hwalking.read, n, hsaved, hbefore⟩
  · rw [hmoved, hphase', hlist, hsaved, ← hsavedBefore]
    exact hwalking.saved
  · intro u hat
    rw [hphase'] at hat ⊢
    obtain ⟨rfl, hsoft⟩ := hrunning u hat
    obtain ⟨hne, hmem, -⟩ := hwalking.running u (by rw [hphase]; rfl)
    rw [hsaved, ← hsavedBefore, hcalled]
    exact ⟨hne, hmem, hsoft⟩
  · rw [hphase']
    exact hrestart
  · rw [hcalled]
    exact hwalking.once
  · rw [hcalled]
    exact hwalking.member
  · rw [hcalls]
    exact hwalking.live

theorem Walking.linkAgain {currentTick : Nat} {n : Option TimerId}
    (hphase : s.phase = .restart currentTick t n)
    (hsub : (s.softList.filter (· ≠ t)).Sublist s'.softList)
    (hphase' : s'.phase = .loop currentTick n)
    (htime : s'.time = s.time) (hreadAt : s'.readAt = s.readAt) (hexpired : s'.expired = s.expired)
    (hcalls : s'.calls = s.calls) (hdue : ∀ u, u ≠ t → s'.due u = s.due u)
    (htouched : s'.touched = s.touched) (hmoved : s'.moved = s.moved) : Walking timers s' := by
  have hcalled : s'.called = s.called := congrArg (List.map Prod.fst) hcalls
  obtain ⟨hne, hmem, -⟩ := hwalking.running t (by rw [hphase]; rfl)
  have hsavedBefore : s.phase.saved = some n := by
    rw [hphase]
    rfl
  have hsaved : s'.phase.saved = some n := by
    rw [hphase']
    rfl
  rw [hsavedBefore] at hne
  constructor
  · rw [hreadAt, htime]
    exact hwalking.read
  · rintro current m hat
    rw [hphase'] at hat
    rw [hreadAt]
    rcases hat with hat | ⟨u, hat⟩
    · cases hat
      exact hwalking.current _ _ (.inr ⟨t, hphase⟩)
    · cases hat
  · rintro w ⟨hexp, huntouched, huncalled⟩
    rw [hexpired] at hexp
    rw [htouched] at huntouched
    rw [hcalled] at huncalled
    have hother : w ≠ t := by
      rintro rfl
      exact huncalled hmem
    obtain ⟨hw, hle, n', hn, hbefore⟩ := hwalking.waits w ⟨hexp, huntouched, huncalled⟩
    rw [hsavedBefore] at hn
    cases hn
    rw [hdue w hother, hreadAt]
    refine ⟨hsub.subset (List.mem_filter.mpr ⟨hw, decide_eq_true hother⟩), hle, n, hsaved,
      fun hnot => ?_⟩
    obtain ⟨m, rfl, hahead⟩ := hbefore (hmoved ▸ hnot)
    have hm : m ≠ t := by
      rintro rfl
      exact hne rfl
    exact ⟨m, rfl, (hahead.filter (decide_eq_true hm) (decide_eq_true hother)).mono hsub⟩
  · intro hnot m hat
    rw [hsaved] at hat
    cases hat
    have hm : m ≠ t := by
      rintro rfl
      exact hne rfl
    exact hsub.subset (List.mem_filter.mpr
      ⟨hwalking.saved (hmoved ▸ hnot) m hsavedBefore, decide_eq_true hm⟩)
  · intro u hat
    rw [hphase'] at hat
    cases hat
  · intro current u m hat
    rw [hphase'] at hat
    cases hat
  · rw [hcalled]
    exact hwalking.once
  · rw [hcalled]
    exact hwalking.member
  · rw [hcalls]
    exact hwalking.live

end

end Walking

structure Checked (cfg : TimerConfig) (timers : Finset TimerId) (s : SoftCheckSystem) : Prop where
  sound : Sound cfg timers s
  walking : Walking timers s

section Steps

variable {cfg : TimerConfig} {timers : Finset TimerId} {s s' : SoftCheckSystem} {t : TimerId}

theorem Sound.setPhase (hsound : Sound cfg timers s) (phase : SoftPhase) :
    Sound cfg timers { s with phase := phase } :=
  ⟨hsound.soft, hsound.tick, hsound.listed, hsound.isTimer, hsound.near, hsound.member,
    hsound.period, hsound.starting, hsound.timed⟩

theorem Sound.touch (hsound : Sound cfg timers s) (t : TimerId) : Sound cfg timers (s.touch t) :=
  ⟨hsound.soft, hsound.tick, hsound.listed, hsound.isTimer, hsound.near, hsound.member,
    hsound.period, hsound.starting, hsound.timed⟩

theorem Checked.init (hchecked : Checked cfg timers s) {time : Nat} {periodic : Bool}
    (hexec : s.exec cfg timers (.init t time periodic) = some s') : Checked cfg timers s' := by
  obtain ⟨hsound, hwalking⟩ := hchecked
  simp only [exec] at hexec
  split at hexec
  next hguard =>
    obtain ⟨hunlocked, hnot, -⟩ := hguard
    cases hexec
    have hfree : ∀ list, t ∉ s.sys.linked list := by
      intro list ht
      exact absurd ((hsound.isTimer list t ht).symm.trans hnot) (by decide)
    have hidle : s.starting t = .no := by
      by_contra hne
      exact absurd ((hsound.starting t hne).1.symm.trans hnot) (by decide)
    constructor
    · apply hsound.set hfree
      · rfl
      · intro u hu
        exact update_of_ne hu _ _
      · intro hactive
        simp [rtTimerInit, setTimer] at hactive
      · intro u hu
        exact update_of_ne hu _ _
      · intro u _
        rfl
      · intro hstart
        exact absurd hidle hstart
      · intro hstart
        exact absurd (hidle.symm.trans hstart) (by decide)
      · rfl
      · rfl
      · intro u _
        rfl
    · apply hwalking.keep
      case hrestart =>
        intro u hlocked
        exact absurd (hunlocked.symm.trans hlocked) (by decide)
      case hsoft =>
        intro u hsoft
        rcases eq_or_ne u t with rfl | hu
        · simp [rtTimerInit, setTimer]
        · simpa [rtTimerInit, setTimer, hu] using hsoft
      all_goals first | rfl | exact Nat.le_refl _ | (intro u _; rfl)
  · cases hexec

theorem Checked.startRemove (hchecked : Checked cfg timers s)
    (hexec : s.exec cfg timers (.startRemove t) = some s') : Checked cfg timers s' := by
  obtain ⟨hsound, hwalking⟩ := hchecked
  simp only [exec] at hexec
  split at hexec
  next hguard =>
    obtain ⟨hunlocked, hisTimer, hsoft, hmember, -⟩ := hguard
    cases hexec
    refine ⟨(hsound.touch t).startRemove hisTimer hsoft hmember, ?_⟩
    apply hwalking.unlink hunlocked (t := t)
    case hsoft =>
      intro u hu
      rcases eq_or_ne u t with rfl | hne
      · simpa [startRemove, touch, setActivated, setTimer, rtTimerRemove] using hu
      · simpa [startRemove, touch, setActivated, setTimer, hne, rtTimerRemove] using hu
    all_goals rfl
  · cases hexec

theorem Checked.startDeadline (hchecked : Checked cfg timers s)
    (hexec : s.exec cfg timers (.startDeadline t) = some s') : Checked cfg timers s' := by
  obtain ⟨hsound, hwalking⟩ := hchecked
  simp only [exec] at hexec
  split at hexec
  next hunlocked =>
    refine ⟨hsound.startDeadline hexec, ?_⟩
    unfold SoftCheckSystem.startDeadline at hexec
    split at hexec
    next hguard =>
      obtain ⟨-, -, -, -, hfree⟩ := hsound.starting t (by rw [hguard.1]; decide)
      cases hexec
      apply hwalking.keep
      case hdue =>
        intro u hu
        apply update_of_ne
        rintro rfl
        exact hfree _ hu
      case hrestart =>
        intro u hlocked
        exact absurd (hunlocked.symm.trans hlocked) (by decide)
      case hsoft =>
        intro u hu
        rcases eq_or_ne u t with rfl | hne
        · simpa [setTimer] using hu
        · simpa [setTimer, hne] using hu
      all_goals rfl
    · cases hexec
  · cases hexec

theorem startInsert_frame (hsound : Sound cfg timers s) (hstart : s.startInsert cfg t = some s') :
    s'.phase = s.phase ∧ s'.time = s.time ∧ s'.readAt = s.readAt ∧ s'.expired = s.expired ∧
      s'.calls = s.calls ∧ s'.due = s.due ∧ s'.touched = s.touched ∧ s'.moved = s.moved ∧
      ∀ u, (s'.sys.timer u).softTimer = (s.sys.timer u).softTimer := by
  unfold SoftCheckSystem.startInsert at hstart
  split at hstart
  next htimed =>
    obtain ⟨-, -, -, -, hfree⟩ := hsound.starting t (by rw [htimed]; decide)
    obtain ⟨sys, hinsert, hs'⟩ := Option.map_eq_some_iff.mp hstart
    cases hs'
    obtain ⟨_, hinsert', -, htimer, -⟩ := hsound.listed.rows.insertTimer hfree
    cases hinsert'.symm.trans hinsert
    refine ⟨rfl, rfl, rfl, rfl, rfl, rfl, rfl, rfl, fun u => ?_⟩
    show (sys.timer u).softTimer = _
    rw [htimer]
    rcases eq_or_ne u t with rfl | hne
    · rw [update_self]
    · rw [update_of_ne hne]
  · cases hstart

section

variable (hchecked : Checked cfg timers s)
include hchecked

theorem Checked.startInsert (hallowed : s.Regular (.startInsert t))
    (hexec : s.exec cfg timers (.startInsert t) = some s') : Checked cfg timers s' := by
  obtain ⟨hsound, hwalking⟩ := hchecked
  simp only [exec] at hexec
  split at hexec
  next hunlocked =>
    obtain ⟨hsound', hsub⟩ := hsound.startInsert hexec hallowed
    obtain ⟨hphase, htime, hreadAt, hexpired, hcalls, hdue, htouched, hmoved, hsoft⟩ :=
      startInsert_frame hsound hexec
    refine ⟨hsound', ?_⟩
    apply hwalking.frame (fun _ => False) hphase (Nat.le_of_eq htime.symm) hreadAt hexpired hcalls
    · intro u _ hu
      exact ⟨hsub.subset hu, by rw [hdue]⟩
    · intro m w _ _ hahead
      exact hahead.mono hsub
    · intro u hu
      rwa [htouched]
    · intro hmove
      rwa [hmoved]
    · intro u _ hchanged
      exact hchanged.elim
    · intro u hu
      rwa [hsoft]
    · intro u hlocked
      exact absurd (hunlocked.symm.trans hlocked) (by decide)
  · cases hexec

theorem Checked.stop (hexec : s.exec cfg timers (.stop t) = some s') : Checked cfg timers s' := by
  obtain ⟨hsound, hwalking⟩ := hchecked
  simp only [exec] at hexec
  split at hexec
  next hguard =>
    obtain ⟨hunlocked, -⟩ := hguard
    obtain ⟨sys, hstop, hs'⟩ := Option.map_eq_some_iff.mp hexec
    simp only [rtTimerStop] at hstop
    split at hstop
    · split at hstop
      next hactive =>
        cases hstop
        rw [if_pos hactive] at hs'
        cases hs'
        have hidle : s.starting t = .no := by
          by_contra hne
          exact absurd ((hsound.starting t hne).2.2.1.symm.trans hactive) (by decide)
        constructor
        · apply hsound.unlink (t := t)
          case htimer =>
            intro u hu
            exact update_of_ne hu _ _
          case hactivated =>
            intro h
            simp [setTimer] at h
          case hlast =>
            intro u hu
            exact update_of_ne hu _ _
          case hself => exact .inl hidle
          all_goals first | rfl | (intro u _; rfl)
        · apply hwalking.unlink hunlocked (t := t)
          case hsoft =>
            intro u hu
            rcases eq_or_ne u t with rfl | hne
            · simpa [setTimer, rtTimerRemove] using hu
            · simpa [setTimer, rtTimerRemove, hne] using hu
          all_goals rfl
      next hinactive =>
        cases hstop
        rw [if_neg hinactive] at hs'
        cases hs'
        constructor
        · apply hsound.keep
          case htick => exact hsound.tick
          all_goals first | rfl | exact Nat.le_refl _ | (intro u _; exact ⟨rfl, rfl, rfl, rfl⟩) |
            (intro u h; exact ⟨h, rfl⟩) | (intro u _; rfl)
        · apply hwalking.keep
          case hsoft => exact fun _ h => h
          case hrestart => exact fun _ _ => ⟨rfl, rfl⟩
          all_goals first | rfl | exact Nat.le_refl _ | (intro u _; rfl)
    · cases hstop
  · cases hexec

theorem Checked.detach
    (hexec : s.exec cfg timers (.detach t) = some s') : Checked cfg timers s' := by
  obtain ⟨hsound, hwalking⟩ := hchecked
  simp only [exec] at hexec
  split at hexec
  next hguard =>
    obtain ⟨hunlocked, -, hidle⟩ := hguard
    obtain ⟨sys, hdetach, hs'⟩ := Option.map_eq_some_iff.mp hexec
    cases hs'
    simp only [rtTimerDetach] at hdetach
    split at hdetach
    · cases hdetach
      constructor
      · apply hsound.unlink (t := t)
        case htimer =>
          intro u hu
          exact update_of_ne hu _ _
        case hactivated =>
          intro h
          simp only [setTimer, update_self] at h ⊢
          exact hsound.period t h
        case hlast =>
          intro u hu
          exact update_of_ne hu _ _
        case hself => exact .inl hidle
        all_goals first | rfl | (intro u _; rfl)
      · apply hwalking.unlink hunlocked (t := t)
        case hsoft =>
          intro u hu
          rcases eq_or_ne u t with rfl | hne
          · simpa [setTimer, rtTimerRemove] using hu
          · simpa [setTimer, rtTimerRemove, hne] using hu
        all_goals rfl
    · cases hdetach
  · cases hexec

theorem Checked.tick (hexec : s.exec cfg timers .tick = some s') : Checked cfg timers s' := by
  obtain ⟨hsound, hwalking⟩ := hchecked
  simp only [exec] at hexec
  cases hexec
  constructor
  · apply hsound.keep
    case htick =>
      show add32 s.sys.tick 1 = (s.time + 1) % 2 ^ 32
      rw [hsound.tick]
      exact Nat.mod_add_mod _ _ _
    case htime => exact Nat.le_succ _
    case hperiod => exact fun _ h => ⟨h, rfl⟩
    case htimer => exact fun _ _ => ⟨rfl, rfl, rfl, rfl⟩
    all_goals first | rfl | (intro u _; rfl)
  · apply hwalking.keep
    case htime => exact Nat.le_succ _
    case hsoft => exact fun _ h => h
    case hrestart => exact fun _ _ => ⟨rfl, rfl⟩
    all_goals first | rfl | (intro u _; rfl)

theorem Checked.check (hexec : s.exec cfg timers .check = some s') : Checked cfg timers s' := by
  obtain ⟨hsound, -⟩ := hchecked
  refine ⟨?_, Walking.check hsound hexec⟩
  have hcheck : s.check = some s' := hexec
  unfold SoftCheckSystem.check at hcheck
  split at hcheck
  · cases hcheck
    exact ⟨hsound.soft, hsound.tick, hsound.listed, hsound.isTimer, hsound.near, hsound.member,
      hsound.period, hsound.starting, hsound.timed⟩
  · cases hcheck

theorem Checked.due (hallowed : s.Regular .due)
    (hexec : s.exec cfg timers .due = some s') : Checked cfg timers s' := by
  obtain ⟨hsound, hwalking⟩ := hchecked
  have hdue : s.checkDue = some s' := hexec
  unfold checkDue at hdue
  split at hdue
  next currentTick n hphase =>
    obtain ⟨hinTime, hhead, hmoved⟩ := hallowed (currentTick, n) (by rw [hphase]; rfl)
    split at hdue
    · cases hdue
      refine ⟨hsound.setPhase _, hwalking.stop ?_⟩
      exact hwalking.none_remaining hsound hphase hinTime hmoved (by simp)
    next t =>
      split at hdue
      next hexpired =>
        cases hdue
        obtain ⟨hstill, hnew⟩ := hhead t rfl hexpired
        have ht : t ∈ s.softList := hwalking.saved hstill t (by rw [hphase]; rfl)
        refine ⟨?_, hwalking.call hsound hphase hstill hnew⟩
        apply hsound.unlink (t := t)
        case hactivated => exact hsound.period t
        case hlast =>
          intro u hu
          exact update_of_ne hu _ _
        case hself => exact .inl (hsound.not_starting ht)
        all_goals first | rfl | (intro u _; rfl)
      next hnot =>
        cases hdue
        refine ⟨hsound.setPhase _, hwalking.stop ?_⟩
        apply hwalking.none_remaining hsound hphase hinTime hmoved
        rintro u hu
        cases hu
        exact hnot
  · cases hdue

end

theorem Sound.setActivated (hsound : Sound cfg timers s) (hsys : s'.sys = s.sys.setActivated t false)
    (hlast : s'.last = s.last) (hstarting : s'.starting = s.starting) (htime : s'.time = s.time)
    (hdue : s'.due = s.due) : Sound cfg timers s' := by
  have hself : s'.sys.timer t = { s.sys.timer t with activated := false } := by
    rw [hsys]
    exact update_self _ _ _
  have hother : ∀ u, u ≠ t → s'.sys.timer u = s.sys.timer u := by
    intro u hu
    rw [hsys]
    exact update_of_ne hu _ _
  apply hsound.keep
  · rw [hsys]
    rfl
  · intro u _
    rcases eq_or_ne u t with rfl | hu
    · rw [hself]
      exact ⟨rfl, rfl, rfl, rfl⟩
    · rw [hother u hu]
      exact ⟨rfl, rfl, rfl, rfl⟩
  · intro u
    rcases eq_or_ne u t with rfl | hu
    · rw [hself]
      intro hactive
      cases hactive
    · rw [hother u hu]
      exact fun h => ⟨h, rfl⟩
  · intro u _
    rw [hlast]
  · exact hstarting
  · rw [hsys, htime]
    exact hsound.tick
  · rw [htime]
  · exact hdue

theorem Checked.callbackReturn (hchecked : Checked cfg timers s)
    (hallowed : s.Regular .callbackReturn)
    (hexec : s.exec cfg timers .callbackReturn = some s') : Checked cfg timers s' := by
  obtain ⟨hsound, hwalking⟩ := hchecked
  have hreturn : s.callbackReturn = some s' := hexec
  unfold SoftCheckSystem.callbackReturn at hreturn
  split at hreturn
  next t n hphase =>
    obtain ⟨-, hmem, hsoft⟩ := hwalking.running t (by rw [hphase]; rfl)
    split at hreturn
    next hagain =>
      obtain ⟨hperiodic, hactive⟩ := Bool.and_eq_true_iff.mp hagain
      have hisTimer := hallowed t (by rw [hphase]; rfl) hperiodic hactive
      have hidle : s.starting t = .no := by
        by_contra hne
        exact absurd ((hsound.starting t hne).2.2.1.symm.trans hactive) (by decide)
      cases hreturn
      refine ⟨hsound.setActivated rfl rfl rfl rfl rfl, ?_⟩
      apply hwalking.goOn hphase (.restart s.sys.tick t n)
      case hcurrent =>
        rintro currentTick m (hat | ⟨u, hat⟩)
        · cases hat
        · cases hat
          exact hsound.tick
      case hrunning =>
        intro u hat
        cases hat
        exact ⟨rfl, by simpa [setActivated, setTimer] using hsoft⟩
      case hrestart =>
        intro currentTick u m hat
        cases hat
        simp only [setActivated, setTimer, update_self]
        exact ⟨hisTimer, hsoft, hsound.period t hactive, hidle, hwalking.member t hmem⟩
      all_goals rfl
    · cases hreturn
      refine ⟨hsound.setActivated rfl rfl rfl rfl rfl, ?_⟩
      apply hwalking.goOn hphase (.loop s.sys.tick n)
      case hcurrent =>
        rintro currentTick m (hat | ⟨u, hat⟩)
        · cases hat
          exact hsound.tick
        · cases hat
      case hrunning =>
        intro u hat
        cases hat
      case hrestart =>
        intro currentTick u m hat
        cases hat
      all_goals rfl
  · cases hreturn

theorem Checked.restarted (hchecked : Checked cfg timers s) (hallowed : s.Regular .restarted)
    (hexec : s.exec cfg timers .restarted = some s') : Checked cfg timers s' := by
  obtain ⟨hsound, hwalking⟩ := hchecked
  have hrestart : s.restarted cfg = some s' := hexec
  unfold SoftCheckSystem.restarted at hrestart
  split at hrestart
  next currentTick t n hphase =>
    obtain ⟨hisTimer, hsoft, hperiod, -, hmember⟩ := hwalking.restart currentTick t n hphase
    rw [if_pos hisTimer] at hrestart
    obtain ⟨timed, htimed, hrest⟩ := Option.bind_eq_some_iff.mp hrestart
    obtain ⟨inserted, hinserted, hs'⟩ := Option.bind_eq_some_iff.mp hrest
    cases hs'
    have hremoved := hsound.startRemove hisTimer hsoft hmember
    have hsoundTimed := hremoved.startDeadline htimed
    have hframe : timed.softList = s.softList.filter (· ≠ t) ∧ timed.time = s.time ∧
        timed.due = update s.due t (s.time + (s.sys.timer t).initTick) ∧
        timed.readAt = s.readAt ∧ timed.expired = s.expired ∧ timed.calls = s.calls ∧
        timed.touched = s.touched ∧ timed.moved = s.moved := by
      have hself : (s.startRemove t).sys.timer t = { s.sys.timer t with activated := false } :=
        update_self _ _ _
      unfold SoftCheckSystem.startDeadline at htimed
      rw [if_pos ⟨update_self _ _ _, by rwa [hself]⟩] at htimed
      cases htimed
      rw [hself]
      exact ⟨linked_rtTimerRemove t _, rfl, rfl, rfl, rfl, rfl, rfl, rfl⟩
    obtain ⟨hlist, htime, hdue, hreadAt, hexpired, hcalls, htouched, hmoved⟩ := hframe
    have hwindow : ∀ u ∈ timed.softList, timed.due u < timed.due t + rtTickMax / 2 ∧
        timed.due t ≤ timed.due u + (rtTickMax / 2 + 2) := by
      intro u hu
      rw [hlist, List.mem_filter, decide_eq_true_eq] at hu
      rw [hdue, update_self, update_of_ne hu.2]
      exact hallowed t (by rw [hphase]; rfl) u hu.1 hu.2
    obtain ⟨hsoundInserted, hsub⟩ := hsoundTimed.startInsert hinserted hwindow
    obtain ⟨-, htime', hreadAt', hexpired', hcalls', hdue', htouched', hmoved', -⟩ :=
      startInsert_frame hsoundTimed hinserted
    refine ⟨hsoundInserted.setPhase _, ?_⟩
    apply hwalking.linkAgain hphase
    · exact hlist ▸ hsub
    · rfl
    · exact htime'.trans htime
    · exact hreadAt'.trans hreadAt
    · exact hexpired'.trans hexpired
    · exact hcalls'.trans hcalls
    · intro u hu
      show inserted.due u = s.due u
      rw [hdue', hdue, update_of_ne hu]
    · exact htouched'.trans htouched
    · exact hmoved'.trans hmoved
  · cases hrestart

theorem Checked.exec (hchecked : Checked cfg timers s) {op : SoftCheckOp}
    (hallowed : s.Regular op) (hexec : s.exec cfg timers op = some s') :
    Checked cfg timers s' := by
  cases op with
  | init t time periodic => exact hchecked.init hexec
  | startRemove t => exact hchecked.startRemove hexec
  | startDeadline t => exact hchecked.startDeadline hexec
  | startInsert t => exact hchecked.startInsert hallowed hexec
  | stop t => exact hchecked.stop hexec
  | detach t => exact hchecked.detach hexec
  | tick => exact hchecked.tick hexec
  | check => exact hchecked.check hexec
  | due => exact hchecked.due hallowed hexec
  | callbackReturn => exact hchecked.callbackReturn hallowed hexec
  | restarted => exact hchecked.restarted hallowed hexec

theorem Checked.initial (hinit : Initial cfg timers s) : Checked cfg timers s := by
  obtain ⟨hexpired, hcalls, hread⟩ := hinit.fresh
  have hcalled : s.called = [] := by
    rw [called, hcalls]
    rfl
  have hnone : ∀ t, s.starting t ≠ .no → False := fun t h => h (hinit.starting t)
  constructor
  · constructor
    · exact hinit.soft
    · exact hinit.tick
    · exact ⟨⟨hinit.nested, hinit.length⟩, fun list t ht => (hinit.home list t ht).1,
        hinit.sorted, fun t ht => (hinit.dated t ht).1⟩
    · exact fun list t ht => (hinit.home list t ht).2
    · exact fun t ht => (hinit.dated t ht).2
    · exact hinit.member
    · exact hinit.period
    · exact fun t h => (hnone t h).elim
    · intro t h
      exact (hnone t (by rw [h]; decide)).elim
  · constructor
    · exact hread
    · rw [hinit.phase]
      rintro currentTick n (hat | ⟨t, hat⟩)
      · cases hat
      · cases hat
    · rintro w ⟨hw, -, -⟩
      rw [hexpired] at hw
      cases hw
    · rw [hinit.phase]
      intro _ m hsaved
      cases hsaved
    · rw [hinit.phase]
      intro t hrunning
      cases hrunning
    · rw [hinit.phase]
      intro currentTick t n hat
      cases hat
    · rw [hcalled]
      exact List.nodup_nil
    · rw [hcalled]
      intro t ht
      cases ht
    · rw [hcalls]
      intro call hcall
      cases hcall

theorem Checked.goesOn (hchecked : Checked cfg timers s) (hphase : s.phase ≠ .idle) :
    s.checkDue.isSome ∨ s.callbackReturn.isSome ∨ (s.restarted cfg).isSome := by
  obtain ⟨hsound, hwalking⟩ := hchecked
  cases hat : s.phase with
  | idle => exact absurd hat hphase
  | loop currentTick n =>
    left
    unfold checkDue
    rw [hat]
    cases n with
    | none => rfl
    | some t =>
      dsimp only
      split <;> rfl
  | callback t n =>
    right; left
    unfold SoftCheckSystem.callbackReturn
    rw [hat]
    dsimp only
    split <;> rfl
  | restart currentTick t n =>
    right; right
    obtain ⟨hisTimer, hsoft, hperiod, -, hmember⟩ := hwalking.restart currentTick t n hat
    have hself : (s.startRemove t).sys.timer t = { s.sys.timer t with activated := false } :=
      update_self _ _ _
    obtain ⟨timed, htimed⟩ : ∃ timed, (s.startRemove t).startDeadline t = some timed := by
      unfold SoftCheckSystem.startDeadline
      rw [if_pos ⟨update_self _ _ _, by rwa [hself]⟩]
      exact ⟨_, rfl⟩
    have hready : timed.starting t = .timed := by
      unfold SoftCheckSystem.startDeadline at htimed
      rw [if_pos ⟨update_self _ _ _, by rwa [hself]⟩] at htimed
      cases htimed
      exact update_self _ _ _
    have hsoundTimed := (hsound.startRemove hisTimer hsoft hmember).startDeadline htimed
    obtain ⟨-, -, -, -, hfree⟩ := hsoundTimed.starting t (by rw [hready]; decide)
    obtain ⟨sys, hinsert, -⟩ := hsoundTimed.listed.rows.insertTimer hfree
    unfold SoftCheckSystem.restarted
    rw [hat]
    simp [hisTimer, htimed, SoftCheckSystem.startInsert, hready, hinsert]

theorem Checked.checksOk (hchecked : Checked cfg timers s) : ChecksOk cfg timers s := by
  obtain ⟨hsound, hwalking⟩ := hchecked
  constructor
  · exact hwalking.live
  · exact hwalking.once
  · have hlength : s.called.length = s.calls.length := List.length_map _
    rw [← hlength, ← List.toFinset_card_of_nodup hwalking.once]
    apply Finset.card_le_card
    intro t ht
    exact hwalking.member t (List.mem_toFinset.mp ht)
  · exact Checked.goesOn ⟨hsound, hwalking⟩
  · intro hidle t hexpired huntouched
    by_contra huncalled
    obtain ⟨-, -, n, hsaved, -⟩ := hwalking.waits t ⟨hexpired, huntouched, huncalled⟩
    rw [hidle] at hsaved
    cases hsaved

end Steps

theorem checked_of_reachable {cfg : TimerConfig} {timers : Finset TimerId} {s : SoftCheckSystem}
    (hreach : (softCheckMachine cfg timers).Reachable Regular s) : Checked cfg timers s :=
  hreach.invariant (Checked cfg timers) (fun _ => Checked.initial)
    fun _ _ _ hchecked hallowed hexec => hchecked.exec hallowed hexec

/-- In a run of regular steps every check does what it should. -/
theorem reachable_checksOk {cfg : TimerConfig} {timers : Finset TimerId} {s : SoftCheckSystem}
    (hreach : (softCheckMachine cfg timers).Reachable Regular s) : ChecksOk cfg timers s :=
  (checked_of_reachable hreach).checksOk

instance (s : SoftCheckSystem) : (op : SoftCheckOp) → Decidable (s.Regular op)
  | .startInsert _ => inferInstanceAs (Decidable (∀ _ ∈ _, _ ∧ _))
  | .restarted => inferInstanceAs (Decidable (∀ t ∈ s.phase.running, ∀ u ∈ s.softList, u ≠ t → _ ∧ _))
  | .due => inferInstanceAs (Decidable (∀ test ∈ s.phase.test, (∀ _ ∈ _, _) ∧ (∀ t ∈ test.2,
      s.Expired test.1 t → _ ∧ _) ∧ (_ → ∀ t ∈ s.softList, ¬s.Expired test.1 t)))
  | .callbackReturn => inferInstanceAs (Decidable (∀ t ∈ s.phase.running, _ → _ → _))
  | .init .. | .startRemove _ | .startDeadline _ | .stop _ | .detach _ | .tick | .check =>
    inferInstanceAs (Decidable True)

def threeExpired : SoftCheckSystem where
  sys := {
    timer := fun t =>
      { isTimer := true
        activated := t = 1 ∨ t = 2 ∨ t = 4
        softTimer := true
        timeoutTick := t
        initTick := 3 }
    rows := fun list => match list with
      | .rtTimerList => [[], []]
      | .rtSoftTimerList => [[2], [1, 2, 4]]
    tick := 5
    randomNr := 0
    result := none
    pending := [1, 2, 4]
    starts := 3
    order := id }
  periodic := fun t => t = 1
  starting := fun _ => .no
  phase := .idle
  last := fun _ => .started
  time := 5
  due := id
  readAt := 5
  expired := []
  touched := []
  calls := []
  moved := false

theorem threeExpired_initial : Initial twoRows {1, 2, 3, 4} threeExpired where
  soft := rfl
  nested := by
    rintro (_ | _)
    · exact ⟨by decide, by simp [threeExpired]⟩
    · exact ⟨by decide, by simp [threeExpired]⟩
  length := by
    rintro (_ | _) <;> rfl
  home := by
    rintro (_ | _) <;> decide
  sorted := by decide
  dated := by decide
  member := by decide
  period := fun _ _ => show 3 < rtTickMax / 2 by decide
  tick := rfl
  starting := fun _ => rfl
  phase := rfl
  fresh := ⟨rfl, rfl, Nat.le_refl 5⟩

def threeExpiredRun : List SoftCheckOp :=
  [.check, .due, .stop 4, .startRemove 3, .startDeadline 3, .startInsert 3, .tick,
    .callbackReturn, .restarted, .due, .callbackReturn, .due]

theorem reachable_checksOk_threeExpiredRun :
    ∃ s, (softCheckMachine twoRows {1, 2, 3, 4}).Reachable Regular s ∧
      (s.phase, s.expired, s.called, s.softList) = (.idle, [1, 2, 4], [1, 2], [3, 1]) ∧
      ChecksOk twoRows {1, 2, 3, 4} s := by
  have hrun : ((softCheckMachine twoRows {1, 2, 3, 4}).run Regular threeExpired
      threeExpiredRun).map (fun s => (s.phase, s.expired, s.called, s.softList)) =
      some (.idle, [1, 2, 4], [1, 2], [3, 1]) := by decide +kernel
  obtain ⟨s, hreach, hends⟩ := Machine.exists_reachable_of_run threeExpired_initial hrun
  exact ⟨s, hreach, hends, reachable_checksOk hreach⟩

def StartsLater (s : SoftCheckSystem) : SoftCheckOp → Prop
  | .startDeadline t => 0 < (s.sys.timer t).initTick
  | _ => True

instance (s : SoftCheckSystem) : (op : SoftCheckOp) → Decidable (s.StartsLater op)
  | .startDeadline _ => inferInstanceAs (Decidable (_ < _))
  | .init .. | .startRemove _ | .startInsert _ | .stop _ | .detach _ | .tick | .check | .due
  | .callbackReturn | .restarted => inferInstanceAs (Decidable True)

/-- The callback of 1 stops 2, which the check has saved as the next: it is called all the same,
and again and again. -/
theorem checksOk_fails_after_stop :
    ¬∀ (cfg : TimerConfig) (timers : Finset TimerId) (s : SoftCheckSystem),
      (softCheckMachine cfg timers).Reachable StartsLater s → ChecksOk cfg timers s := by
  intro hall
  have hrun : ((softCheckMachine twoRows {1, 2, 3, 4}).run StartsLater threeExpired
      [.check, .due, .stop 2, .callbackReturn, .restarted, .due, .callbackReturn, .due,
        .callbackReturn, .due]).map (fun s => s.calls) =
      some [(1, .started), (2, .stopped), (2, .expired), (2, .expired)] := by decide +kernel
  obtain ⟨s, hreach, hcalls⟩ := Machine.exists_reachable_of_run threeExpired_initial hrun
  have hlive := (hall twoRows {1, 2, 3, 4} s hreach).live (2, .stopped) (by rw [hcalls]; decide)
  cases hlive

end RtThread.Clock.SoftCheckSystem
