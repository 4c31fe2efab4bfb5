import RtThread.Clock.SoftTimer
import RtThread.Clock.TimerActivation

namespace RtThread.Clock

open Function RtThread.Lib

structure Listed (cfg : TimerConfig) (sys : TimerSystem) (due : TimerId → Nat) : Prop where
  rows : RowsOk cfg sys
  home : ∀ list, ∀ t ∈ sys.linked list, timerListOf cfg (sys.timer t) = list
  sorted : (sys.linked .rtSoftTimerList).Pairwise fun t u => due t ≤ due u
  dated : ∀ t ∈ sys.linked .rtSoftTimerList, (sys.timer t).timeoutTick = due t % 2 ^ 32

section Lists

variable {cfg : TimerConfig} {sys sys' : TimerSystem} {due due' : TimerId → Nat} {t u : TimerId}
  {list : TimerList}

theorem not_mem_linked_remove (t : TimerId) (list : TimerList) :
    t ∉ (rtTimerRemove t sys).linked list := by
  rw [mem_linked_remove]
  exact fun h => h.2 rfl

section

variable (hlisted : Listed cfg sys due)
include hlisted

theorem Listed.shrink (hrows : RowsOk cfg sys')
    (hsub : ∀ list, (sys'.linked list).Sublist (sys.linked list))
    (htimer : ∀ list, ∀ t ∈ sys'.linked list,
      timerListOf cfg (sys'.timer t) = timerListOf cfg (sys.timer t) ∧
        (sys'.timer t).timeoutTick = (sys.timer t).timeoutTick)
    (hdue : ∀ t ∈ sys'.linked .rtSoftTimerList, due' t = due t) : Listed cfg sys' due' where
  rows := hrows
  home := fun list t hmem =>
    (htimer list t hmem).1.trans (hlisted.home list t ((hsub list).subset hmem))
  sorted := by
    refine (hlisted.sorted.sublist (hsub .rtSoftTimerList)).imp_of_mem fun ht hu hle => ?_
    rwa [hdue _ ht, hdue _ hu]
  dated := fun t hmem => by
    rw [(htimer _ t hmem).2, hdue t hmem]
    exact hlisted.dated t ((hsub .rtSoftTimerList).subset hmem)

theorem Listed.congr (hrows : sys'.rows = sys.rows) (htimer : ∀ list, ∀ t ∈ sys.linked list,
      timerListOf cfg (sys'.timer t) = timerListOf cfg (sys.timer t) ∧
        (sys'.timer t).timeoutTick = (sys.timer t).timeoutTick)
    (hdue : ∀ t ∈ sys.linked .rtSoftTimerList, due' t = due t) : Listed cfg sys' due' := by
  have hsame : ∀ list, sys'.linked list = sys.linked list := fun _ => linked_congr hrows
  refine hlisted.shrink (hlisted.rows.congr hrows) (fun list => ?_) (fun list t hmem => ?_)
    fun t hmem => ?_
  · rw [hsame]
  · exact htimer list t (hsame list ▸ hmem)
  · exact hdue t (hsame _ ▸ hmem)

theorem Listed.remove (t : TimerId) : Listed cfg (rtTimerRemove t sys) due := by
  refine hlisted.shrink (hlisted.rows.remove t) (fun list => ?_) (fun _ _ _ => ⟨rfl, rfl⟩)
    fun _ _ => rfl
  rw [linked_rtTimerRemove]
  exact List.filter_sublist

theorem Listed.setTimer (hfree : ∀ list, t ∉ sys.linked list) (timer : Timer) (d : Nat) :
    Listed cfg (sys.setTimer t timer) (update due t d) := by
  have hne : ∀ list, ∀ u ∈ sys.linked list, u ≠ t := by
    rintro list u hmem rfl
    exact hfree list hmem
  refine hlisted.congr rfl (fun list u hmem => ?_) fun u hmem => ?_
  · simp [TimerSystem.setTimer, hne list u hmem]
  · rw [update_of_ne (hne _ u hmem)]

theorem Listed.touch (timer : Timer) (hsoft : timer.softTimer = (sys.timer t).softTimer)
    (htimeout : timer.timeoutTick = (sys.timer t).timeoutTick) :
    Listed cfg (sys.setTimer t timer) due := by
  refine hlisted.congr rfl (fun list u _ => ?_) fun _ _ => rfl
  rcases eq_or_ne u t with rfl | hne
  · simp [TimerSystem.setTimer, timerListOf, hsoft, htimeout]
  · simp [TimerSystem.setTimer, hne]

end

theorem passes_iff_le {a b : Nat} (hafter : b < a + rtTickMax / 2)
    (hbefore : a ≤ b + (rtTickMax / 2 + 2)) :
    passes (a % 2 ^ 32) (b % 2 ^ 32) = true ↔ b ≤ a := by
  have hsub : sub32 (b % 2 ^ 32) (a % 2 ^ 32) = if a ≤ b then b - a else b + 2 ^ 32 - a := by
    simp only [sub32, rtTickMax] at *
    split <;> omega
  rw [passes, hsub]
  simp only [rtTickMax] at *
  split <;> split <;> simp <;> omega

/-- The insertion of a soft timer passes those on the list that expire no later, if its deadline
compares with theirs as it should. -/
theorem Listed.stays_iff (hlisted : Listed cfg sys due)
    (hdated : (sys.timer t).timeoutTick = due t % 2 ^ 32)
    (hwindow : ∀ u ∈ sys.linked .rtSoftTimerList,
      due u < due t + rtTickMax / 2 ∧ due t ≤ due u + (rtTickMax / 2 + 2)) :
    ∀ u ∈ sys.linked .rtSoftTimerList, (stays sys t u = true ↔ due u ≤ due t) := by
  intro u hu
  simp only [stays, hdated, hlisted.dated u hu]
  exact passes_iff_le (hwindow u hu).1 (hwindow u hu).2

theorem Listed.downward (hlisted : Listed cfg sys due)
    (hdated : (sys.timer t).timeoutTick = due t % 2 ^ 32)
    (hwindow : ∀ u ∈ sys.linked .rtSoftTimerList,
      due u < due t + rtTickMax / 2 ∧ due t ≤ due u + (rtTickMax / 2 + 2)) :
    SkipList.Downward (stays sys t) (sys.linked .rtSoftTimerList) := by
  have hstays := hlisted.stays_iff hdated hwindow
  apply hlisted.sorted.imp_of_mem
  intro u v hu hv hle
  rw [hstays u hu, hstays v hv]
  exact hle.trans

theorem Listed.insertTimer (hlisted : Listed cfg sys due)
    (hown : timerListOf cfg (sys.timer t) = .rtSoftTimerList)
    (hfree : ∀ list, t ∉ sys.linked list)
    (hdated : (sys.timer t).timeoutTick = due t % 2 ^ 32)
    (hwindow : ∀ u ∈ sys.linked .rtSoftTimerList,
      due u < due t + rtTickMax / 2 ∧ due t ≤ due u + (rtTickMax / 2 + 2))
    (hinsert : insertTimer cfg t sys = some sys') :
    Listed cfg sys' due ∧
      sys'.timer = update sys.timer t { sys.timer t with activated := true } ∧
      sys'.tick = sys.tick ∧
      ∀ list u, u ∈ sys'.linked list ↔
        u = t ∧ list = .rtSoftTimerList ∨ u ∈ sys.linked list := by
  obtain ⟨_, hinsert', hok, htimer, -, hmem⟩ := hlisted.rows.insertTimer hfree
  cases hinsert'.symm.trans hinsert
  rw [hown] at hmem
  have hstays := hlisted.stays_iff hdated hwindow
  have hdown := hlisted.downward hdated hwindow
  have hlinked := linked_insertTimer hlisted.rows hinsert hown hdown
  have htick : sys'.tick = sys.tick := by
    simp only [Clock.insertTimer] at hinsert
    obtain ⟨heads, -, heq⟩ := Option.bind_eq_some_iff.mp hinsert
    cases heq
    rfl
  refine ⟨⟨hok, fun list u hu => ?_, ?_, fun u hu => ?_⟩, htimer, htick, hmem⟩
  · rcases (hmem list u).mp hu with ⟨rfl, rfl⟩ | hold
    · simpa [htimer, timerListOf] using hown
    · rcases eq_or_ne u t with rfl | hne
      · exact absurd hold (hfree list)
      · rw [htimer, update_of_ne hne]
        exact hlisted.home list u hold
  · rw [hlinked]
    refine SkipList.inserted_pairwise hlisted.sorted hdown (fun u hu hs => ?_) fun u hu hs => ?_
    · exact (hstays u hu).mp hs
    · have hlt : ¬ due u ≤ due t := by
        rw [← hstays u hu, hs]
        simp
      exact Nat.le_of_lt (Nat.lt_of_not_le hlt)
  · rcases (hmem _ u).mp hu with ⟨rfl, -⟩ | hold
    · simpa [htimer] using hdated
    · rcases eq_or_ne u t with rfl | hne
      · exact absurd hold (hfree _)
      · rw [htimer, update_of_ne hne]
        exact hlisted.dated u hold

theorem Listed.sublist_insertTimer (hlisted : Listed cfg sys due)
    (hown : timerListOf cfg (sys.timer t) = .rtSoftTimerList)
    (hdated : (sys.timer t).timeoutTick = due t % 2 ^ 32)
    (hwindow : ∀ u ∈ sys.linked .rtSoftTimerList,
      due u < due t + rtTickMax / 2 ∧ due t ≤ due u + (rtTickMax / 2 + 2))
    (hinsert : Clock.insertTimer cfg t sys = some sys') :
    (sys.linked .rtSoftTimerList).Sublist (sys'.linked .rtSoftTimerList) := by
  have hdown := hlisted.downward hdated hwindow
  rw [linked_insertTimer hlisted.rows hinsert hown hdown]
  exact SkipList.sublist_inserted hdown

theorem Listed.stop (hlisted : Listed cfg sys due) (hstop : rtTimerStop t sys = some sys') :
    Listed cfg sys' due ∧ sys'.tick = sys.tick ∧
      (∀ u, (sys'.timer u).softTimer = (sys.timer u).softTimer ∧
        (sys'.timer u).timeoutTick = (sys.timer u).timeoutTick) ∧
      (∀ u, u ≠ t → sys'.timer u = sys.timer u) ∧
      (∀ list u, u ∈ sys'.linked list → u ∈ sys.linked list) ∧
      ∀ list u, u ≠ t → u ∈ sys.linked list → u ∈ sys'.linked list := by
  unfold rtTimerStop at hstop
  split at hstop
  · split at hstop
    · cases hstop
      have htimer : ∀ u, u ≠ t →
          ((rtTimerRemove t sys).setTimer t { sys.timer t with activated := false }).timer u =
            sys.timer u := by
        intro u hne
        simp [TimerSystem.setTimer, rtTimerRemove, hne]
      have hlisted' := (hlisted.remove t).touch { sys.timer t with activated := false } rfl rfl
      refine ⟨hlisted'.congr rfl (fun _ _ _ => ⟨rfl, rfl⟩) fun _ _ => rfl, rfl, fun u => ?_,
        htimer, fun list u h => (mem_linked_remove.mp h).1,
        fun list u hne h => mem_linked_remove.mpr ⟨h, hne⟩⟩
      rcases eq_or_ne u t with rfl | hne
      · simp [TimerSystem.setTimer]
      · exact ⟨congrArg Timer.softTimer (htimer u hne), congrArg Timer.timeoutTick (htimer u hne)⟩
    · cases hstop
      exact ⟨hlisted.congr rfl (fun _ _ _ => ⟨rfl, rfl⟩) fun _ _ => rfl, rfl,
        fun _ => ⟨rfl, rfl⟩, fun _ _ => rfl, fun _ _ h => h, fun _ _ _ h => h⟩
  · cases hstop

theorem Listed.start (hlisted : Listed cfg sys due)
    (hown : timerListOf cfg (sys.timer t) = .rtTimerList)
    (hstart : rtTimerStart cfg t sys = some sys') (d : Nat) :
    Listed cfg sys' (update due t d) ∧ sys'.tick = sys.tick ∧
      (sys'.timer t).softTimer = (sys.timer t).softTimer ∧ (sys'.timer t).activated = true ∧
      (∀ u, u ≠ t → sys'.timer u = sys.timer u) ∧ t ∈ sys'.linked .rtTimerList ∧
      ∀ list u, u ≠ t → (u ∈ sys'.linked list ↔ u ∈ sys.linked list) := by
  obtain ⟨hok, hmem⟩ := hlisted.rows.started hstart
  obtain ⟨htimer, htick, hrows⟩ := fields_of_rtTimerStart hstart
  rw [hown] at hmem
  have hother : ∀ u, u ≠ t → sys'.timer u = sys.timer u := by
    intro u hne
    rw [htimer, update_of_ne hne]
  have hsoft : sys'.linked .rtSoftTimerList = (rtTimerRemove t sys).linked .rtSoftTimerList := by
    rw [TimerSystem.linked, hrows _ (by rw [hown]; decide)]
    rfl
  have hne : ∀ u ∈ sys'.linked .rtSoftTimerList, u ≠ t := by
    rintro u hu rfl
    rw [hsoft] at hu
    exact not_mem_linked_remove _ _ hu
  refine ⟨⟨hok, fun list u hu => ?_, ?_, fun u hu => ?_⟩, htick, ?_, ?_, hother, ?_,
    fun list u hne => ?_⟩
  · rcases (hmem list u).mp hu with ⟨rfl, rfl⟩ | ⟨hold, hne⟩
    · simpa [htimer, timerListOf] using hown
    · rw [hother u hne]
      exact hlisted.home list u hold
  · have hsorted := (hlisted.remove t).sorted
    rw [← hsoft] at hsorted
    refine hsorted.imp_of_mem fun hu hv hle => ?_
    rwa [update_of_ne (hne _ hu), update_of_ne (hne _ hv)]
  · rw [hother u (hne u hu), update_of_ne (hne u hu)]
    rw [hsoft] at hu
    exact (hlisted.remove t).dated u hu
  · rw [htimer, update_self]
  · rw [htimer, update_self]
  · exact (hmem _ _).mpr (.inl ⟨rfl, rfl⟩)
  · rw [hmem]
    simp [hne]

end Lists

end RtThread.Clock
