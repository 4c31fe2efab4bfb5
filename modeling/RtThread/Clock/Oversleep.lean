import RtThread.Clock.StartCalls

namespace RtThread.Clock

open Function RtThread.Lib TimerSystem

namespace SoftSystem

section Steps

variable {cfg : TimerConfig} {s s' : SoftSystem} {c : Context} {t : TimerId}

section

variable (hinv : Watched cfg s)
include hinv

theorem Watched.setEntry (hready : s.ready = true) {entry : EntryPhase}
    (hdecided : ∀ nextTimeout, entry ≠ .decided nextTimeout)
    (hdelay : ∀ tick, entry ≠ .delay tick) : Watched cfg (s.setEntry entry) :=
  hinv.proceed rfl rfl rfl rfl (fun _ _ _ h _ => h)
    ⟨fun _ => hready, fun n h => absurd h (hdecided n), fun n h => absurd h (hdelay n)⟩
    (.of_ready hready)

theorem Watched.expire (t : TimerId) :
    Watched cfg { s.setSys ((s.sys.unlinkExpired t).setActivated t false) with ready := true } := by
  have htimer : ∀ u, (((s.sys.unlinkExpired t).setActivated t false).timer u).softTimer =
      (s.sys.timer u).softTimer ∧
      (((s.sys.unlinkExpired t).setActivated t false).timer u).timeoutTick =
        (s.sys.timer u).timeoutTick := by
    intro u
    rcases eq_or_ne u t with rfl | hne
    · simp [setActivated, setTimer, unlinkExpired, rtTimerRemove]
    · simp [setActivated, setTimer, unlinkExpired, rtTimerRemove, hne]
  have hlisted : Listed cfg ((s.sys.unlinkExpired t).setActivated t false) s.due :=
    (hinv.listed.remove t).congr rfl (fun list u _ => ⟨by
      rw [Clock.timerListOf, (htimer u).1]; rfl, (htimer u).2⟩) fun _ _ => rfl
  refine hinv.change hlisted hinv.tick (fun u => (htimer u).1)
    (fun u _ => ⟨(htimer u).2, rfl, fun list h => ?_⟩) rfl (fun _ _ _ h _ => h)
    (hinv.entry.congr rfl (fun _ => rfl) rfl rfl) (.of_ready rfl)
  exact (mem_linked_remove.mp h).1

theorem Watched.readTimeout (hexec : s.readTimeout = some s') : Watched cfg s' := by
  unfold SoftSystem.readTimeout at hexec
  split at hexec
  next hphase =>
    have hready : s.ready = true := hinv.entry.ready (by rw [hphase]; nofun)
    split at hexec
    · cases hexec
      refine hinv.proceed rfl rfl rfl rfl (fun _ _ _ h _ => h) ⟨fun _ => hready, ?_, nofun⟩
        (.of_ready hready)
      intro nextTimeout h hne
      cases h
      exact absurd rfl hne
    next t rest hlist =>
      cases hexec
      refine hinv.proceed rfl rfl rfl rfl (fun _ _ _ h _ => h) ⟨fun _ => hready, ?_, nofun⟩
        (.of_ready hready)
      intro nextTimeout h _
      cases h
      refine hinv.listed.dated t ?_
      rw [show s.sys.linked .rtSoftTimerList = t :: rest from hlist]
      exact List.mem_cons_self
  · cases hexec

theorem Watched.readTick (hallowed : s.SleepOk .readTick)
    (hexec : s.readTick = some s') : Watched cfg s' := by
  unfold SoftSystem.readTick at hexec
  split at hexec
  next nextTimeout hphase =>
    have hready : s.ready = true := hinv.entry.ready (by rw [hphase]; nofun)
    split at hexec
    · cases hexec
    next hne =>
      cases hexec
      have hnext := hinv.entry.decided nextTimeout hphase hne
      refine hinv.proceed rfl rfl rfl rfl (fun _ _ _ h _ => h) ⟨fun _ => hready, ?_, ?_⟩
        (.of_ready hready)
      · intro n h
        simp only [SoftSystem.setEntry] at h
        split at h <;> cases h
      · intro tick h
        simp only [SoftSystem.setEntry] at h
        split at h
        next hlt =>
          cases h
          change s.time + sub32 nextTimeout s.sys.tick ≤ s.seen
          have hlate : s.time ≤ s.seen + (rtTickMax / 2 + 2) := hallowed
          rw [hnext, hinv.tick] at hlt ⊢
          simp only [sub32, rtTickMax] at *
          omega
        · cases h
  · cases hexec

theorem Watched.suspend (hallowed : s.SleepOk .suspend)
    (hexec : s.suspend = some s') : Watched cfg s' := by
  unfold SoftSystem.suspend at hexec
  split at hexec
  next nextTimeout hphase =>
    have hready : s.ready = true := hinv.entry.ready (by rw [hphase]; nofun)
    split at hexec
    · obtain ⟨s₁, hsuspend, rfl⟩ := Option.map_eq_some_iff.mp hexec
      rw [rtThreadSuspend, if_pos hready] at hsuspend
      obtain ⟨sys, hstop, rfl⟩ := Option.map_eq_some_iff.mp hsuspend
      obtain ⟨hlisted, htick, htimer, -, hlinked, -⟩ := hinv.listed.stop hstop
      refine hinv.change hlisted (htick.trans hinv.tick) (fun u => (htimer u).1)
        (fun u _ => ⟨(htimer u).2, rfl, fun list => hlinked list u⟩) rfl
        (fun _ _ _ h _ => h) ⟨fun h => absurd rfl h, nofun, nofun⟩ fun _ => .inr fun t hmem => ?_
      exact .inl (hallowed t (hlinked _ t hmem))
    · cases hexec
  · cases hexec

theorem Watched.delay (hallowed : s.SleepOk .delay)
    (hexec : s.delay cfg = some s') : Watched cfg s' := by
  unfold SoftSystem.delay at hexec
  split at hexec
  next tick hphase =>
    have hready : s.ready = true := hinv.entry.ready (by rw [hphase]; intro h; cases h)
    obtain ⟨s₂, hdelay, rfl⟩ := Option.map_eq_some_iff.mp hexec
    rw [rtThreadDelay, rtThreadSuspend, if_pos hready] at hdelay
    obtain ⟨s₁, hsuspend, hrest⟩ := Option.bind_eq_some_iff.mp hdelay
    obtain ⟨sys₁, hstop, rfl⟩ := Option.map_eq_some_iff.mp hsuspend
    obtain ⟨sys₂, hstart, heq⟩ := Option.bind_eq_some_iff.mp hrest
    cases heq
    obtain ⟨hlisted₁, htick₁, htimer₁, -, hlinked₁, -⟩ := hinv.listed.stop hstop
    let timer : Timer := { sys₁.timer threadTimer with initTick := tick }
    have hlisted : Listed cfg (sys₁.setTimer threadTimer timer) s.due :=
      hlisted₁.touch timer rfl rfl
    have hsoftOf : ∀ u, ((sys₁.setTimer threadTimer timer).timer u).softTimer =
        (s.sys.timer u).softTimer ∧
        ((sys₁.setTimer threadTimer timer).timer u).timeoutTick = (s.sys.timer u).timeoutTick := by
      intro u
      rcases eq_or_ne u threadTimer with rfl | hne
      · simpa [setTimer, timer] using htimer₁ threadTimer
      · simpa [setTimer, hne] using htimer₁ u
    have hown : Clock.timerListOf cfg ((sys₁.setTimer threadTimer timer).timer threadTimer) =
        .rtTimerList := by
      rw [Clock.timerListOf, (hsoftOf threadTimer).1]
      exact hinv.timerListOf_threadTimer
    obtain ⟨hlisted₂, htick₂, hsoft₂, hactive₂, hother₂, hmem₂, hlinked₂⟩ :=
      hlisted.start hown hstart (s.time + tick)
    refine hinv.change hlisted₂ (htick₂.trans (htick₁.trans hinv.tick)) (fun u => ?_)
      (fun u hsoft => ?_) rfl (fun _ _ _ h _ => h) ⟨fun h => absurd rfl h, (by rintro _ ⟨⟩),
        (by rintro _ ⟨⟩)⟩
      fun _ => .inr fun t hmem => ?_
    · rcases eq_or_ne u threadTimer with rfl | hne
      · exact hsoft₂.trans (hsoftOf _).1
      · exact (congrArg Timer.softTimer (hother₂ u hne)).trans (hsoftOf u).1
    · have hne := (hinv.ne_threadTimer hsoft).symm
      refine ⟨(congrArg Timer.timeoutTick (hother₂ u hne)).trans (hsoftOf u).2,
        update_of_ne hne .., fun list h => ?_⟩
      exact hlinked₁ list u ((hlinked₂ list u hne).mp h)
    · have hne : t ≠ threadTimer := by
        rintro rfl
        have hhome := hlisted₂.home _ _ hmem
        rw [Clock.timerListOf, hsoft₂] at hhome
        exact absurd (hown.symm.trans hhome) (by intro h; cases h)
      have hold : t ∈ s.softList := hlinked₁ _ t ((hlinked₂ _ t hne).mp hmem)
      refine (hallowed.2 t hold).symm.imp id fun hseen => ⟨hactive₂, hmem₂, ?_⟩
      change update s.due threadTimer (s.time + tick) threadTimer ≤
        update s.due threadTimer (s.time + tick) t
      rw [update_self, update_of_ne hne, ← hallowed.1]
      exact (hinv.entry.delay tick hphase).trans hseen
  · cases hexec

theorem Watched.checkDue (hexec : s.checkDue = some s') : Watched cfg s' := by
  unfold SoftSystem.checkDue at hexec
  split at hexec
  next currentTick n hphase =>
    have hready : s.ready = true := hinv.entry.ready (by rw [hphase]; nofun)
    split at hexec
    · cases hexec
      exact hinv.setEntry hready nofun nofun
    next t =>
      split at hexec
      · cases hexec
        have hlisted : Listed cfg (s.sys.unlinkExpired t) s.due :=
          (hinv.listed.remove t).congr rfl (fun _ _ _ => ⟨rfl, rfl⟩) fun _ _ => rfl
        refine hinv.change hlisted hinv.tick (fun _ => rfl) (fun u _ => ⟨rfl, rfl, fun list h => ?_⟩)
          rfl (fun _ _ _ h _ => h) ⟨fun _ => hready, nofun, nofun⟩ (.of_ready hready)
        exact (mem_linked_remove.mp h).1
      · cases hexec
        exact hinv.setEntry hready nofun nofun
  · cases hexec

end

theorem startCall_ready (hexec : s.startCall c t = some s') : s'.ready = s.ready := by
  unfold SoftSystem.startCall at hexec
  split at hexec
  · cases hexec
    rfl
  · cases hexec

theorem Watched.callbackReturn (hinv : Watched cfg s) (hexec : s.callbackReturn = some s') :
    Watched cfg s' := by
  unfold SoftSystem.callbackReturn at hexec
  split at hexec
  next t n hphase =>
    have hready : s.ready = true := hinv.entry.ready (by rw [hphase]; intro h; cases h)
    split at hexec
    · split at hexec
      · obtain ⟨s₁, hstart, rfl⟩ := Option.map_eq_some_iff.mp hexec
        exact (hinv.startCall hstart).setEntry ((startCall_ready hstart).trans hready)
          (by rintro _ ⟨⟩) (by rintro _ ⟨⟩)
      · cases hexec
        have htimer : ∀ u, ((s.sys.setActivated t false).timer u).softTimer =
            (s.sys.timer u).softTimer ∧
            ((s.sys.setActivated t false).timer u).timeoutTick = (s.sys.timer u).timeoutTick := by
          intro u
          rcases eq_or_ne u t with rfl | hne
          · simp [setActivated, setTimer]
          · simp [setActivated, setTimer, hne]
        exact hinv.change (hinv.listed.touch _ rfl rfl) hinv.tick (fun u => (htimer u).1)
          (fun u _ => ⟨(htimer u).2, rfl, fun _ h => h⟩) rfl (fun _ _ _ h _ => h)
          ⟨fun _ => hready, (by rintro _ ⟨⟩), (by rintro _ ⟨⟩)⟩ (.of_ready hready)
    · cases hexec
  · cases hexec

theorem Watched.exec (hinv : Watched cfg s) {op : SoftOp} (hallowed : s.SleepOk op)
    (hexec : s.exec cfg op = some s') : Watched cfg s' := by
  cases op with
  | startBegin c t =>
    simp only [SoftSystem.exec] at hexec
    split at hexec
    · exact hinv.startCall hexec
    · cases hexec
  | startDeadline c => exact hinv.startDeadline hexec
  | startInsert c => exact hinv.startInsert hallowed hexec
  | startTest c => exact hinv.startTest hexec
  | resumeTest c => exact hinv.resumeTest hexec
  | resumeStop c => exact hinv.resumeStop hexec
  | resumeInsert c => exact hinv.resumeInsert hexec
  | stop t =>
    simp only [SoftSystem.exec] at hexec
    split at hexec
    next hsoft =>
      obtain ⟨sys, hstop, rfl⟩ := Option.map_eq_some_iff.mp hexec
      exact hinv.stop hsoft hstop
    · cases hexec
  | control t cmd =>
    simp only [SoftSystem.exec] at hexec
    split at hexec
    next hsoft => exact hinv.control hsoft hexec
    · cases hexec
  | tick =>
    cases hexec
    refine hinv.change (hinv.listed.congr rfl (fun _ _ _ => ⟨rfl, rfl⟩) fun _ _ => rfl) ?_
      (fun _ => rfl) (fun _ _ => ⟨rfl, rfl, fun _ h => h⟩) rfl (fun _ _ _ h _ => h)
      (hinv.entry.congr rfl id rfl rfl) hinv.guarded
    change add32 s.sys.tick 1 = (s.time + 1) % 2 ^ 32
    rw [hinv.tick, add32]
    omega
  | timeout currentTick =>
    simp only [SoftSystem.exec, SoftSystem.timeout] at hexec
    split at hexec
    · cases hexec
      exact hinv.expire threadTimer
    · cases hexec
  | readTimeout => exact hinv.readTimeout hexec
  | readTick => exact hinv.readTick hallowed hexec
  | suspend => exact hinv.suspend hallowed hexec
  | delay => exact hinv.delay hallowed hexec
  | resumed =>
    simp only [SoftSystem.exec] at hexec
    split at hexec
    next hguard =>
      cases hexec
      exact hinv.setEntry hguard.2 (by rintro _ ⟨⟩) (by rintro _ ⟨⟩)
    · cases hexec
  | checkBegin =>
    simp only [SoftSystem.exec] at hexec
    split at hexec
    next hphase =>
      cases hexec
      exact hinv.setEntry (hinv.entry.ready (by rw [hphase]; intro h; cases h))
        (by rintro _ ⟨⟩) (by rintro _ ⟨⟩)
    · cases hexec
  | checkDue => exact hinv.checkDue hexec
  | callbackReturn => exact hinv.callbackReturn hexec
  | restarted =>
    simp only [SoftSystem.exec] at hexec
    split at hexec
    next currentTick n hphase =>
      split at hexec
      · cases hexec
        exact hinv.setEntry (hinv.entry.ready (by rw [hphase]; intro h; cases h))
          (by rintro _ ⟨⟩) (by rintro _ ⟨⟩)
      · cases hexec
    · cases hexec

theorem Watched.init (hinit : Initial cfg s) : Watched cfg s := by
  obtain ⟨⟨hrows, -⟩, hsoft, hready, hentry, hcalls, hlinking, hhard, htick⟩ := hinit
  have hstarts : ∀ c, s.starts c = none := fun c => by rw [starts, hcalls, AList.lookup_empty]
  have hlinked : ∀ list, s.sys.linked list = [] := by
    intro list
    rw [linked, hrows, List.getLast?_replicate, if_neg (Nat.pos_iff_ne_zero.mp cfg.level_pos)]
    rfl
  have hnested : ∀ list, SkipList.Nested (s.sys.rows list) := by
    intro list
    rw [hrows]
    refine ⟨fun row hrow => ?_, ?_⟩
    · simp [List.eq_of_mem_replicate hrow]
    · exact List.isChain_replicate_of_rel _ (List.Sublist.refl _)
  refine ⟨hsoft, hhard, htick, ⟨⟨hnested, fun list => by simp [hrows]⟩, ?_, ?_, ?_⟩,
    ⟨?_, ?_, ?_⟩, ⟨fun _ => hready, ?_, ?_⟩, .of_ready hready⟩
  · simp [hlinked]
  · simp [hlinked]
  · simp [hlinked]
  · simp [hstarts]
  · simp [hlinking]
  · simp [hstarts]
  · simp [hentry]
  · simp [hentry]

end Steps

theorem watched_of_reachable {cfg : TimerConfig} {s : SoftSystem}
    (hreach : (softMachine cfg).Reachable SleepOk s) : Watched cfg s := by
  induction hreach with
  | start hinit => exact .init hinit
  | step _ hallowed hexec ih => exact ih.exec hallowed hexec

/-- A call of `rt_timer_start` is between its insertion and its return. -/
def StartUnderWay (s : SoftSystem) : Prop :=
  ∃ start ∈ s.calls.entries, start.2.phase ≠ .removed ∧ start.2.phase ≠ .timed

/-- In every run of the thread with calls by others. -/
theorem reachable_neverOversleeps {cfg : TimerConfig} {s : SoftSystem}
    (hreach : (softMachine cfg).Reachable SleepOk s) (hidle : ¬ s.StartUnderWay) :
    s.NeverOversleeps := by
  intro hasleep t hmem
  rcases (watched_of_reachable hreach).guarded hasleep with ⟨c, u, phase, hc, hphase⟩ | hall
  · refine absurd ⟨⟨c, u, phase⟩, mem_calls.mpr hc, ?_⟩ hidle
    rcases hphase with rfl | rfl | rfl <;> exact ⟨nofun, nofun⟩
  · rcases hall t hmem with ⟨start, hstart, hinserted⟩ | hcovers
    · refine absurd ⟨start, hstart, ?_⟩ hidle
      rw [hinserted]
      exact ⟨nofun, nofun⟩
    · exact hcovers

instance (s : SoftSystem) (t : TimerId) : Decidable (s.Untested t) :=
  inferInstanceAs (Decidable (∃ start ∈ s.calls.entries, _))

instance (s : SoftSystem) : Decidable s.StartUnderWay :=
  inferInstanceAs (Decidable (∃ start ∈ s.calls.entries, _))

instance (s : SoftSystem) : (op : SoftOp) → Decidable (s.SleepOk op)
  | .startInsert c =>
    match hc : s.starts c with
    | some ⟨t, .timed⟩ =>
      decidable_of_iff (∀ u ∈ s.softList,
        s.due u < s.due t + rtTickMax / 2 ∧ s.due t ≤ s.due u + (rtTickMax / 2 + 2))
        ⟨fun h v hv => by cases hc.symm.trans hv; exact h, fun h => h t hc⟩
    | none | some ⟨_, .removed⟩ | some ⟨_, .inserted⟩ | some ⟨_, .waking⟩
    | some ⟨_, .resuming⟩ | some ⟨_, .stopped⟩ =>
      .isTrue fun v hv => by cases hc.symm.trans hv
  | .readTick => inferInstanceAs (Decidable (_ ≤ _))
  | .suspend => inferInstanceAs (Decidable (∀ t ∈ s.softList, _))
  | .delay => inferInstanceAs (Decidable (_ ∧ ∀ t ∈ s.softList, _))
  | .startBegin .. | .startDeadline _ | .startTest _ | .resumeTest _ | .resumeStop _
  | .resumeInsert _ | .stop _ | .control .. | .tick | .timeout _ | .readTimeout | .resumed
  | .checkBegin | .checkDue | .callbackReturn | .restarted => .isTrue trivial

def softStart : SoftSystem where
  sys := { timerStart with timer := fun t => { timerStart.timer t with softTimer := t ≠ 0 } }
  periodic := fun _ => false
  ready := true
  entry := .top
  calls := ∅
  linking := fun _ => none
  time := 2 ^ 32 - 3
  due := fun _ => 0
  seen := 0
  readAt := 0

theorem softStart_initial : (softMachine twoRows).init softStart :=
  ⟨⟨fun _ => rfl, fun _ => rfl, rfl, rfl, by decide⟩, rfl, rfl, rfl, rfl, fun _ => rfl, rfl, rfl⟩

/-- The thread sleeps for one timer, and is woken when another one is started that
expires earlier; the ticks wrap around in between. -/
def softRun : List SoftOp :=
  [.startBegin 1 6, .startDeadline 1, .startInsert 1, .startTest 1, .readTimeout, .readTick, .delay,
    .tick, .tick, .tick, .startBegin 2 2, .startDeadline 2, .startInsert 2, .startTest 2,
    .resumeTest 2, .resumeStop 2, .resumeInsert 2, .resumed, .checkBegin, .checkDue,
    .readTimeout, .readTick, .delay]

theorem reachable_neverOversleeps_softRun :
    ∃ s, (softMachine twoRows).Reachable SleepOk s ∧ s.ready = false ∧ s.softList = [2, 6] ∧
      s.due threadTimer = s.due 2 ∧ s.NeverOversleeps := by
  have hrun : ((softMachine twoRows).run SleepOk softStart softRun).map
      (fun s => (decide s.StartUnderWay, decide (s.ready = false ∧ s.softList = [2, 6]),
        decide (s.due threadTimer = s.due 2))) = some (false, true, true) := by
    decide +kernel
  obtain ⟨s, hreach, hend⟩ := Machine.exists_reachable_of_run softStart_initial hrun
  simp only [Prod.mk.injEq, decide_eq_true_eq, decide_eq_false_iff_not] at hend
  obtain ⟨hidle, ⟨hasleep, hlist⟩, hdue⟩ := hend
  exact ⟨s, hreach, hasleep, hlist, hdue, reachable_neverOversleeps hreach hidle⟩

def missedStartRun : List SoftOp :=
  [.readTimeout, .startBegin 1 6, .startDeadline 1, .startInsert 1, .startTest 1, .suspend]

/-- The thread sleeps with no timer of its own, and the soft timer is linked. -/
theorem neverOversleeps_fails_after_missed_start :
    ∃ s, (softMachine twoRows).Reachable (fun _ _ => True) s ∧ ¬ s.StartUnderWay ∧
      s.ready = false ∧ s.softList = [6] ∧ (s.sys.timer threadTimer).activated = false ∧
      ¬ s.NeverOversleeps := by
  have hrun : ((softMachine twoRows).run (fun _ _ => True) softStart missedStartRun).map
      (fun s => (decide s.StartUnderWay, decide (s.ready = false ∧ s.softList = [6]),
        (s.sys.timer threadTimer).activated)) = some (false, true, false) := by
    decide +kernel
  obtain ⟨s, hreach, hend⟩ := Machine.exists_reachable_of_run softStart_initial hrun
  simp only [Prod.mk.injEq, decide_eq_true_eq, decide_eq_false_iff_not] at hend
  obtain ⟨hidle, ⟨hasleep, hlist⟩, hactive⟩ := hend
  refine ⟨s, hreach, hidle, hasleep, hlist, hactive, fun hnever => ?_⟩
  have hcovers := (hnever hasleep 6 (by simp [hlist])).1
  rw [hactive] at hcovers
  cases hcovers

end SoftSystem

end RtThread.Clock
