import RtThread.Clock.SoftLists

namespace RtThread.Clock

open Function TimerSystem

namespace SoftSystem

theorem starts_setStart (s : SoftSystem) (c : Context) (start : Option StartCall) (d : Context) :
    (s.setStart c start).starts d = update s.starts c start d := by
  cases start with
  | none =>
    rcases eq_or_ne d c with rfl | hne
    · rw [update_self]
      exact AList.lookup_erase ..
    · rw [update_of_ne hne]
      exact AList.lookup_erase_ne hne
  | some call =>
    rcases eq_or_ne d c with rfl | hne
    · rw [update_self]
      exact AList.lookup_insert ..
    · rw [update_of_ne hne]
      exact AList.lookup_insert_ne hne

theorem mem_calls {s : SoftSystem} {c : Context} {call : StartCall} :
    ⟨c, call⟩ ∈ s.calls.entries ↔ s.starts c = some call := by
  rw [starts, ← Option.mem_def]
  exact AList.mem_lookup_iff.symm

def Untested (s : SoftSystem) (t : TimerId) : Prop :=
  ∃ start ∈ s.calls.entries, start.2 = ⟨t, .inserted⟩

theorem untested_iff {s : SoftSystem} {t : TimerId} :
    s.Untested t ↔ ∃ c, s.starts c = some ⟨t, .inserted⟩ := by
  constructor
  · rintro ⟨⟨c, call⟩, hmem, rfl⟩
    exact ⟨c, mem_calls.mp hmem⟩
  · rintro ⟨c, hc⟩
    exact ⟨_, mem_calls.mpr hc, rfl⟩

def Waking (s : SoftSystem) : Prop :=
  ∃ c t phase, s.starts c = some ⟨t, phase⟩ ∧
    (phase = .waking ∨ phase = .resuming ∨ phase = .stopped)

structure Linking (s : SoftSystem) : Prop where
  claimed : ∀ c t phase, s.starts c = some ⟨t, phase⟩ → phase = .removed ∨ phase = .timed →
    s.linking t = some c
  free : ∀ t c, s.linking t = some c →
    (s.sys.timer t).softTimer = true ∧ ∀ list, t ∉ s.sys.linked list
  timed : ∀ c t, s.starts c = some ⟨t, .timed⟩ →
    (s.sys.timer t).timeoutTick = s.due t % 2 ^ 32

structure EntryOk (s : SoftSystem) : Prop where
  ready : s.entry ≠ .asleep → s.ready = true
  decided : ∀ nextTimeout, s.entry = .decided nextTimeout → nextTimeout ≠ rtTickMax →
    nextTimeout = s.seen % 2 ^ 32
  delay : ∀ tick, s.entry = .delay tick → s.readAt + tick ≤ s.seen

def Guarded (s : SoftSystem) : Prop :=
  s.ready = false → s.Waking ∨ ∀ t ∈ s.softList, s.Untested t ∨ s.Covers t

structure Watched (cfg : TimerConfig) (s : SoftSystem) : Prop where
  soft : cfg.timerSoft = true
  hard : (s.sys.timer threadTimer).softTimer = false
  tick : s.sys.tick = s.time % 2 ^ 32
  listed : Listed cfg s.sys s.due
  linking : s.Linking
  entry : s.EntryOk
  guarded : s.Guarded

/-- The steps after which the thread may not sleep for too long: deadlines compare as they should
at an insertion; the thread reads the tick before the deadline it has read is half a range past;
when it suspends itself for good, the list is empty; and when it does for a time, no tick has passed
since it read the tick and no soft timer is due before the one it has read, but those whose start
calls have still to test the thread. -/
def SleepOk (s : SoftSystem) : SoftOp → Prop
  | .startInsert c => ∀ t, s.starts c = some ⟨t, .timed⟩ → ∀ u ∈ s.softList,
      s.due u < s.due t + rtTickMax / 2 ∧ s.due t ≤ s.due u + (rtTickMax / 2 + 2)
  | .readTick => s.time ≤ s.seen + (rtTickMax / 2 + 2)
  | .suspend => ∀ t ∈ s.softList, s.Untested t
  | .delay => s.readAt = s.time ∧ ∀ t ∈ s.softList, s.seen ≤ s.due t ∨ s.Untested t
  | _ => True

section Steps

variable {cfg : TimerConfig} {s s' : SoftSystem} {c : Context} {t u : TimerId}

theorem Untested.mono (huntested : s.Untested t) (hc : s.starts c ≠ some ⟨t, .inserted⟩)
    (hstarts : ∀ d, d ≠ c → s'.starts d = s.starts d) : s'.Untested t := by
  obtain ⟨d, hd⟩ := untested_iff.mp huntested
  have hne : d ≠ c := by
    rintro rfl
    exact hc hd
  exact untested_iff.mpr ⟨d, (hstarts d hne).trans hd⟩

theorem Waking.mono (hwaking : s.Waking)
    (hc : ∀ t phase, s.starts c = some ⟨t, phase⟩ →
      ¬ (phase = .waking ∨ phase = .resuming ∨ phase = .stopped))
    (hstarts : ∀ d, d ≠ c → s'.starts d = s.starts d) : s'.Waking := by
  obtain ⟨d, t, phase, hd, hphase⟩ := hwaking
  have hne : d ≠ c := by
    rintro rfl
    exact hc t phase hd hphase
  exact ⟨d, t, phase, (hstarts d hne).trans hd, hphase⟩

theorem Watched.ne_threadTimer (hinv : Watched cfg s) (hsoft : (s.sys.timer t).softTimer = true) :
    threadTimer ≠ t := by
  rintro rfl
  rw [hinv.hard] at hsoft
  cases hsoft

theorem Watched.timerListOf (hinv : Watched cfg s) (hsoft : (s.sys.timer t).softTimer = true) :
    timerListOf cfg (s.sys.timer t) = .rtSoftTimerList := by
  simp [Clock.timerListOf, hinv.soft, hsoft]

theorem Watched.timerListOf_threadTimer (hinv : Watched cfg s) :
    Clock.timerListOf cfg (s.sys.timer threadTimer) = .rtTimerList := by
  simp [Clock.timerListOf, hinv.hard]

theorem Guarded.mono (hguarded : s.Guarded) (hready : s'.ready = false → s.ready = false)
    (hwaking : s.Waking → s'.Waking)
    (hlist : ∀ t ∈ s'.softList, s'.Untested t ∨ t ∈ s.softList ∧
      (s.Untested t → s'.Untested t) ∧ (s.Covers t → s'.Covers t)) : s'.Guarded := by
  intro hasleep
  refine (hguarded (hready hasleep)).imp hwaking fun hall t hmem => ?_
  rcases hlist t hmem with hnew | ⟨hold, huntested, hcovers⟩
  · exact .inl hnew
  · exact (hall t hold).imp huntested hcovers

theorem Guarded.of_ready (hready : s.ready = true) : s.Guarded := by
  intro hasleep
  rw [hready] at hasleep
  cases hasleep

theorem Covers.mono (hcovers : s.Covers u)
    (htimer : s'.sys.timer threadTimer = s.sys.timer threadTimer)
    (hlinked : threadTimer ∈ s.sys.linked .rtTimerList → threadTimer ∈ s'.sys.linked .rtTimerList)
    (hown : s'.due threadTimer = s.due threadTimer) (hdue : s'.due u = s.due u) :
    s'.Covers u := by
  obtain ⟨hactive, hmem, hle⟩ := hcovers
  refine ⟨?_, hlinked hmem, ?_⟩
  · rwa [htimer]
  · rwa [hown, hdue]

theorem EntryOk.congr (hentry : s.EntryOk) (hphase : s'.entry = s.entry)
    (hready : s.ready = true → s'.ready = true) (hseen : s'.seen = s.seen)
    (hread : s'.readAt = s.readAt) : s'.EntryOk := by
  obtain ⟨hawake, hdecided, hdelay⟩ := hentry
  refine ⟨?_, ?_, ?_⟩
  · rw [hphase]
    exact fun h => hready (hawake h)
  · rwa [hphase, hseen]
  · rwa [hphase, hseen, hread]

section

variable (hinv : Watched cfg s)
include hinv

theorem Watched.change (hlisted : Listed cfg s'.sys s'.due) (htick : s'.sys.tick = s'.time % 2 ^ 32)
    (hsoft : ∀ u, (s'.sys.timer u).softTimer = (s.sys.timer u).softTimer)
    (hsame : ∀ u, (s.sys.timer u).softTimer = true →
      (s'.sys.timer u).timeoutTick = (s.sys.timer u).timeoutTick ∧ s'.due u = s.due u ∧
        ∀ list, u ∈ s'.sys.linked list → u ∈ s.sys.linked list)
    (hlinking : s'.linking = s.linking)
    (hstarts : ∀ d t phase, s'.starts d = some ⟨t, phase⟩ → phase = .removed ∨ phase = .timed →
      s.starts d = some ⟨t, phase⟩)
    (hentry : s'.EntryOk) (hguarded : s'.Guarded) : Watched cfg s' := by
  obtain ⟨hclaimed, hfree, htimed⟩ := hinv.linking
  refine ⟨hinv.soft, (hsoft _).trans hinv.hard, htick, hlisted, ⟨?_, ?_, ?_⟩, hentry, hguarded⟩
  · intro d t phase hd hphase
    rw [hlinking]
    exact hclaimed d t phase (hstarts d t phase hd hphase) hphase
  · intro t d hd
    rw [hlinking] at hd
    obtain ⟨hflag, hunlinked⟩ := hfree t d hd
    exact ⟨(hsoft t).trans hflag, fun list hmem => hunlinked list ((hsame t hflag).2.2 list hmem)⟩
  · intro d t hd
    have hold := hstarts d t .timed hd (.inr rfl)
    obtain ⟨htimeout, hdue, -⟩ := hsame t (hfree t d (hclaimed d t _ hold (.inr rfl))).1
    rw [htimeout, hdue]
    exact htimed d t hold

theorem Watched.proceed (hsys : s'.sys = s.sys)
    (htime : s'.time = s.time) (hdue : s'.due = s.due) (hlinking : s'.linking = s.linking)
    (hstarts : ∀ d t phase, s'.starts d = some ⟨t, phase⟩ → phase = .removed ∨ phase = .timed →
      s.starts d = some ⟨t, phase⟩)
    (hentry : s'.EntryOk) (hguarded : s'.Guarded) : Watched cfg s' := by
  refine hinv.change ?_ ?_ (fun u => by rw [hsys]) (fun u _ => ⟨by rw [hsys], by rw [hdue], ?_⟩)
    hlinking hstarts hentry hguarded
  · rw [hsys, hdue]
    exact hinv.listed
  · rw [hsys, htime]
    exact hinv.tick
  · rw [hsys]
    exact fun _ h => h

theorem Watched.startCall (hexec : s.startCall c t = some s') : Watched cfg s' := by
  unfold SoftSystem.startCall at hexec
  split at hexec
  next hguard =>
    cases hexec
    obtain ⟨hidle, -, hsoft, hunclaimed⟩ := hguard
    obtain ⟨hclaimed, hfree, htimed⟩ := hinv.linking
    have hown := hinv.ne_threadTimer hsoft
    have hother : ∀ u, u ≠ t → ((rtTimerRemove t s.sys).setActivated t false).timer u =
        s.sys.timer u := by
      intro u hne
      simp [setActivated, setTimer, rtTimerRemove, hne]
    have hlinked : ∀ list u, u ∈ ((rtTimerRemove t s.sys).setActivated t false).linked list ↔
        u ∈ s.sys.linked list ∧ u ≠ t := fun _ _ => mem_linked_remove
    have hapart : ∀ d u, s.linking u = some d → u ≠ t := by
      rintro d u hu rfl
      rw [hunclaimed] at hu
      cases hu
    have hkept : ∀ d, d ≠ c → (s.setStart c (some ⟨t, .removed⟩)).starts d = s.starts d :=
      fun d hne => (starts_setStart ..).trans (update_of_ne hne ..)
    refine ⟨hinv.soft, ?_, hinv.tick, (hinv.listed.remove t).touch _ rfl rfl, ⟨?_, ?_, ?_⟩,
      hinv.entry.congr rfl id rfl rfl, hinv.guarded.mono id ?_ ?_⟩
    · exact (congrArg Timer.softTimer (hother _ hown)).trans hinv.hard
    · intro d u phase hd hphase
      replace hd := (starts_setStart s c (some ⟨t, .removed⟩) d).symm.trans hd
      rcases eq_or_ne d c with rfl | hne
      · rw [update_self] at hd
        cases hd
        exact update_self ..
      · rw [update_of_ne hne] at hd
        have hlinking := hclaimed d u phase hd hphase
        exact (update_of_ne (hapart d u hlinking) ..).trans hlinking
    · intro u d hu
      change update s.linking t (some c) u = _ at hu
      rcases eq_or_ne u t with rfl | hne
      · refine ⟨?_, fun list hmem => ((hlinked list u).mp hmem).2 rfl⟩
        simpa [setStart, setSys, setActivated, setTimer, rtTimerRemove]
          using hsoft
      · rw [update_of_ne hne] at hu
        obtain ⟨hsoft', hunlinked⟩ := hfree u d hu
        exact ⟨(congrArg Timer.softTimer (hother u hne)).trans hsoft',
          fun list hmem => hunlinked list ((hlinked list u).mp hmem).1⟩
    · intro d u hd
      replace hd := (starts_setStart s c (some ⟨t, .removed⟩) d).symm.trans hd
      rcases eq_or_ne d c with rfl | hne
      · rw [update_self] at hd
        cases hd
      · rw [update_of_ne hne] at hd
        have hu := hapart d u (hclaimed d u _ hd (.inr rfl))
        exact (congrArg Timer.timeoutTick (hother u hu)).trans (htimed d u hd)
    · refine fun h => h.mono (fun u phase hc => ?_) hkept
      rw [hidle] at hc
      cases hc
    · intro u hmem
      refine .inr ⟨((hlinked _ u).mp hmem).1, fun h => h.mono ?_ hkept, fun h => ?_⟩
      · rw [hidle]
        intro h
        cases h
      · exact h.mono (hother _ hown) (fun h => (hlinked _ _).mpr ⟨h, hown⟩) rfl rfl
  · cases hexec

theorem Watched.startDeadline (hexec : s.startDeadline c = some s') : Watched cfg s' := by
  unfold SoftSystem.startDeadline at hexec
  split at hexec
  next t hc =>
    split at hexec
    · cases hexec
      obtain ⟨hclaimed, hfree, htimed⟩ := hinv.linking
      have hlinking := hclaimed c t _ hc (.inl rfl)
      obtain ⟨hsoft, hunlinked⟩ := hfree t c hlinking
      have hown := hinv.ne_threadTimer hsoft
      have hapart : ∀ d u, d ≠ c → s.linking u = some d → u ≠ t := by
        rintro d u hne hu rfl
        rw [hlinking] at hu
        cases hu
        exact hne rfl
      have hkept : ∀ d, d ≠ c → (s.setStart c (some ⟨t, .timed⟩)).starts d = s.starts d :=
        fun d hne => (starts_setStart ..).trans (update_of_ne hne ..)
      refine ⟨hinv.soft, ?_, hinv.tick, hinv.listed.setTimer hunlinked _ _, ⟨?_, ?_, ?_⟩,
        hinv.entry.congr rfl id rfl rfl, hinv.guarded.mono id ?_ ?_⟩
      · simpa [setStart, setSys, setTimer, hown] using hinv.hard
      · intro d u phase hd hphase
        replace hd := (starts_setStart s c (some ⟨t, .timed⟩) d).symm.trans hd
        rcases eq_or_ne d c with rfl | hne
        · rw [update_self] at hd
          cases hd
          exact hlinking
        · rw [update_of_ne hne] at hd
          exact hclaimed d u phase hd hphase
      · intro u d hu
        obtain ⟨hsoft', hunlinked'⟩ := hfree u d hu
        refine ⟨?_, hunlinked'⟩
        rcases eq_or_ne u t with rfl | hne
        · simpa [setStart, setSys, setTimer] using hsoft'
        · simpa [setStart, setSys, setTimer, hne] using hsoft'
      · intro d u hd
        replace hd := (starts_setStart s c (some ⟨t, .timed⟩) d).symm.trans hd
        rcases eq_or_ne d c with rfl | hne
        · rw [update_self] at hd
          cases hd
          simp [setStart, setSys, setTimer, hinv.tick, add32]
        · rw [update_of_ne hne] at hd
          have hu := hapart d u hne (hclaimed d u _ hd (.inr rfl))
          simpa [setStart, setSys, setTimer, hu] using htimed d u hd
      · refine fun h => h.mono (fun u phase hd => ?_) hkept
        cases hc.symm.trans hd
        simp
      · intro u hmem
        have hu : u ≠ t := by
          rintro rfl
          exact hunlinked _ hmem
        refine .inr ⟨hmem, fun h => h.mono ?_ hkept, fun h => ?_⟩
        · rw [hc]
          intro h
          cases h
        · refine h.mono ?_ id (update_of_ne hown ..) (update_of_ne hu ..)
          simp [setStart, setSys, setTimer, hown]
    · cases hexec
  · cases hexec

theorem Watched.startInsert (hallowed : s.SleepOk (.startInsert c))
    (hexec : s.startInsert cfg c = some s') : Watched cfg s' := by
  unfold SoftSystem.startInsert at hexec
  split at hexec
  next t hc =>
    obtain ⟨sys, hinsert, rfl⟩ := Option.map_eq_some_iff.mp hexec
    obtain ⟨hclaimed, hfree, htimed⟩ := hinv.linking
    have hlinking := hclaimed c t _ hc (.inr rfl)
    obtain ⟨hsoft, hunlinked⟩ := hfree t c hlinking
    have hown := hinv.ne_threadTimer hsoft
    obtain ⟨hlisted, htimer, htick, hmem⟩ := hinv.listed.insertTimer (hinv.timerListOf hsoft)
      hunlinked (htimed c t hc) (hallowed t hc) hinsert
    have hother : ∀ u, u ≠ t → sys.timer u = s.sys.timer u := by
      intro u hne
      rw [htimer, update_of_ne hne]
    have hapart : ∀ d u, d ≠ c → s.linking u = some d → u ≠ t := by
      rintro d u hne hu rfl
      rw [hlinking] at hu
      cases hu
      exact hne rfl
    have hkept : ∀ d, d ≠ c → (s.setStart c (some ⟨t, .inserted⟩)).starts d = s.starts d :=
      fun d hne => (starts_setStart ..).trans (update_of_ne hne ..)
    refine ⟨hinv.soft, ?_, htick.trans hinv.tick, hlisted, ⟨?_, ?_, ?_⟩,
      hinv.entry.congr rfl id rfl rfl, hinv.guarded.mono id ?_ ?_⟩
    · exact (congrArg Timer.softTimer (hother _ hown)).trans hinv.hard
    · intro d u phase hd hphase
      replace hd := (starts_setStart s c (some ⟨t, .inserted⟩) d).symm.trans hd
      rcases eq_or_ne d c with rfl | hne
      · rw [update_self] at hd
        cases hd
        rcases hphase with h | h <;> cases h
      · rw [update_of_ne hne] at hd
        have hlinking' := hclaimed d u phase hd hphase
        exact (update_of_ne (hapart d u hne hlinking') ..).trans hlinking'
    · intro u d hu
      change update s.linking t none u = _ at hu
      rcases eq_or_ne u t with rfl | hne
      · rw [update_self] at hu
        cases hu
      · rw [update_of_ne hne] at hu
        obtain ⟨hsoft', hunlinked'⟩ := hfree u d hu
        refine ⟨(congrArg Timer.softTimer (hother u hne)).trans hsoft', fun list hin => ?_⟩
        rcases (hmem list u).mp hin with ⟨heq, -⟩ | hold
        · exact hne heq
        · exact hunlinked' list hold
    · intro d u hd
      replace hd := (starts_setStart s c (some ⟨t, .inserted⟩) d).symm.trans hd
      rcases eq_or_ne d c with rfl | hne
      · rw [update_self] at hd
        cases hd
      · rw [update_of_ne hne] at hd
        have hu := hapart d u hne (hclaimed d u _ hd (.inr rfl))
        exact (congrArg Timer.timeoutTick (hother u hu)).trans (htimed d u hd)
    · refine fun h => h.mono (fun u phase hd => ?_) hkept
      cases hc.symm.trans hd
      simp
    · intro u hin
      rcases (hmem _ u).mp hin with ⟨rfl, -⟩ | hold
      · refine .inl (untested_iff.mpr ⟨c, ?_⟩)
        exact (starts_setStart s c (some ⟨u, .inserted⟩) c).trans (update_self ..)
      · refine .inr ⟨hold, fun h => h.mono ?_ hkept, fun h => ?_⟩
        · rw [hc]
          nofun
        · exact h.mono (hother _ hown) (fun h => (hmem _ _).mpr (.inr h)) rfl rfl
  · cases hexec

theorem Watched.wake {phase : StartPhase} (hphase : phase = .waking ∨ phase = .resuming) :
    Watched cfg (s.setStart c (if s.ready then none else some ⟨t, phase⟩)) := by
  refine hinv.proceed rfl rfl rfl rfl (fun d u phase' hd hphase' => ?_)
    (hinv.entry.congr rfl id rfl rfl) fun hasleep => ?_
  · replace hd := (starts_setStart s c _ d).symm.trans hd
    rcases eq_or_ne d c with rfl | hne
    · rw [update_self] at hd
      split at hd <;> cases hd
      rcases hphase with rfl | rfl <;> rcases hphase' with h | h <;> cases h
    · rwa [update_of_ne hne] at hd
  · change s.ready = false at hasleep
    refine .inl ⟨c, t, phase, ?_, hphase.imp id .inl⟩
    rw [starts_setStart, update_self, hasleep]
    rfl

theorem Watched.startTest (hexec : s.startTest c = some s') : Watched cfg s' := by
  unfold SoftSystem.startTest at hexec
  split at hexec
  next => exact Option.some.inj hexec ▸ hinv.wake (.inl rfl)
  · cases hexec

theorem Watched.resumeTest (hexec : s.resumeTest c = some s') : Watched cfg s' := by
  unfold SoftSystem.resumeTest at hexec
  split at hexec
  next => exact Option.some.inj hexec ▸ hinv.wake (.inr rfl)
  · cases hexec

theorem Watched.resumeStop (hexec : s.resumeStop c = some s') : Watched cfg s' := by
  unfold SoftSystem.resumeStop at hexec
  split at hexec
  next t hc =>
    obtain ⟨sys, hstop, rfl⟩ := Option.map_eq_some_iff.mp hexec
    obtain ⟨hlisted, htick, htimer, -, hlinked, -⟩ := hinv.listed.stop hstop
    refine hinv.change hlisted (htick.trans hinv.tick) (fun u => (htimer u).1)
      (fun u _ => ⟨(htimer u).2, rfl, fun list => hlinked list u⟩) rfl
      (fun d u phase hd hphase => ?_) (hinv.entry.congr rfl id rfl rfl) ?_
    · replace hd := (starts_setStart (s.setSys sys) c _ d).symm.trans hd
      rcases eq_or_ne d c with rfl | hne
      · rw [update_self] at hd
        cases hd
        rcases hphase with h | h <;> cases h
      · rwa [update_of_ne hne] at hd
    · refine fun _ => .inl ⟨c, t, .stopped, ?_, .inr (.inr rfl)⟩
      exact (starts_setStart ..).trans (update_self ..)
  · cases hexec

theorem Watched.resumeInsert (hexec : s.resumeInsert c = some s') : Watched cfg s' := by
  unfold SoftSystem.resumeInsert at hexec
  split at hexec
  next t hc =>
    cases hexec
    refine hinv.proceed rfl rfl rfl rfl (fun d u phase hd _ => ?_)
      (hinv.entry.congr rfl (fun _ => rfl) rfl rfl) (.of_ready rfl)
    replace hd := (starts_setStart s c none d).symm.trans hd
    rcases eq_or_ne d c with rfl | hne
    · rw [update_self] at hd
      cases hd
    · rwa [update_of_ne hne] at hd
  · cases hexec

theorem Watched.stop (hsoft : (s.sys.timer t).softTimer = true)
    {sys : TimerSystem} (hstop : rtTimerStop t s.sys = some sys) :
    Watched cfg (s.setSys sys) := by
  obtain ⟨hlisted, htick, htimer, hother, hlinked, hkept⟩ := hinv.listed.stop hstop
  have hown := hinv.ne_threadTimer hsoft
  refine hinv.change hlisted (htick.trans hinv.tick) (fun u => (htimer u).1)
    (fun u _ => ⟨(htimer u).2, rfl, fun list => hlinked list u⟩) rfl
    (fun _ _ _ h _ => h) (hinv.entry.congr rfl id rfl rfl) ?_
  refine hinv.guarded.mono id id fun u hmem => .inr ⟨hlinked _ u hmem, id, fun h => ?_⟩
  exact h.mono (hother _ hown) (hkept _ _ hown) rfl rfl

theorem Watched.control (hsoft : (s.sys.timer t).softTimer = true)
    {cmd : TimerControl} (hexec : s.rtTimerControl t cmd = some s') : Watched cfg s' := by
  unfold SoftSystem.rtTimerControl at hexec
  split at hexec
  · cases cmd with
    | setTime time =>
      cases hexec
      have htimer : ∀ u, ((s.sys.setTimer t { s.sys.timer t with initTick := time }).timer
          u).softTimer = (s.sys.timer u).softTimer ∧
          ((s.sys.setTimer t { s.sys.timer t with initTick := time }).timer u).timeoutTick =
            (s.sys.timer u).timeoutTick := by
        intro u
        rcases eq_or_ne u t with rfl | hne
        · simp [setTimer]
        · simp [setTimer, hne]
      refine hinv.change (hinv.listed.touch _ rfl rfl) hinv.tick (fun u => (htimer u).1)
        (fun u _ => ⟨(htimer u).2, rfl, fun _ h => h⟩) rfl (fun _ _ _ h _ => h)
        (hinv.entry.congr rfl id rfl rfl) ?_
      refine hinv.guarded.mono id id fun u hmem => .inr ⟨hmem, id, fun h => ?_⟩
      refine h.mono ?_ id rfl rfl
      simp [setSys, setTimer, hinv.ne_threadTimer hsoft]
    | setOneshot =>
      cases hexec
      exact hinv.proceed rfl rfl rfl rfl (fun _ _ _ h _ => h)
        (hinv.entry.congr rfl id rfl rfl) hinv.guarded
    | setPeriodic =>
      cases hexec
      exact hinv.proceed rfl rfl rfl rfl (fun _ _ _ h _ => h)
        (hinv.entry.congr rfl id rfl rfl) hinv.guarded
  · cases hexec

end

end Steps

end SoftSystem

end RtThread.Clock
