import RtThread.Scheduler.Handover

namespace RtThread.Scheduler

def Kernel.Running (cfg : Config) (k : Kernel) (t : Tid) : Prop :=
  ∃ c < cfg.cpusNr, (k.cpu c).currentThread = some t

def Kernel.landed (k : Kernel) (c : Nat) : Option Kernel :=
  if (k.cpu c).currentThread = none then none else some k

structure Live (cfg : Config) (k : Kernel) : Prop extends Placed cfg k where
  homed : ∀ t, (k.thread t).oncpu = cfg.cpuDetached ∨ k.Running cfg t
  served : ∀ t, (k.thread t).stat = .ready → k.Running cfg t ∨ k.Linked t

section Live

variable {cfg : Config} {k k' : Kernel} {c : Nat} {t u : Tid}

theorem landed_eq_some {before : Option Kernel}
    (hexec : before.bind (·.landed c) = some k') :
    before = some k' ∧ (k'.cpu c).currentThread ≠ none := by
  obtain ⟨k, hbefore, hland⟩ := Option.bind_eq_some_iff.mp hexec
  unfold Kernel.landed at hland
  split at hland
  · cases hland
  next hsome =>
    cases hland
    exact ⟨hbefore, hsome⟩

theorem Placed.not_linked_of_running (hplaced : Placed cfg k) (hrunning : k.Running cfg t) :
    ¬ k.Linked t := by
  obtain ⟨c, hc, hcurrent⟩ := hrunning
  exact hplaced.free c hc t hcurrent

theorem Live.detached_of_linked (hlive : Live cfg k) (hlinked : k.Linked t) :
    (k.thread t).oncpu = cfg.cpuDetached :=
  (hlive.homed t).resolve_right fun hrunning =>
    hlive.not_linked_of_running hrunning hlinked

theorem running_congr (hcurrent : ∀ c, (k'.cpu c).currentThread = (k.cpu c).currentThread) :
    k'.Running cfg t ↔ k.Running cfg t := by
  simp only [Kernel.Running, hcurrent]

theorem Handover.running (hhand : Handover cfg c k k') (hrunning : k.Running cfg t)
    (hleft : (k.cpu c).currentThread ≠ some t) : k'.Running cfg t := by
  obtain ⟨c', hc', hcurrent⟩ := hrunning
  have hne : c' ≠ c := by
    rintro rfl
    exact hleft hcurrent
  exact ⟨c', hc', (hhand.other c' hne).trans hcurrent⟩

theorem Live.handover (hlive : Live cfg k) (hc : c < cfg.cpusNr)
    (hhand : Handover cfg c k k') (hland : (k'.cpu c).currentThread ≠ none) :
    Live cfg k' where
  toPlaced := hlive.toPlaced.handover hc hhand
  homed := fun t => by
    by_cases hnew : (k'.cpu c).currentThread = some t
    · exact .inr ⟨c, hc, hnew⟩
    · by_cases hold : (k.cpu c).currentThread = some t
      · rcases hhand.left t hold with ⟨hstays, -⟩ | ⟨hnone, -⟩ | ⟨hdetached, -⟩
        · exact absurd hstays hnew
        · exact absurd hnone hland
        · exact .inl hdetached
      · by_cases hlinked : k.Linked t
        · rw [hhand.waiting t hlinked hnew]
          exact .inl (hlive.detached_of_linked hlinked)
        · rw [hhand.elsewhere t hold hlinked]
          exact (hlive.homed t).imp_right fun hrunning => hhand.running hrunning hold
  served := fun t hready => by
    rw [(hhand.wait t).stat] at hready
    by_cases hold : (k.cpu c).currentThread = some t
    · rcases hhand.left t hold with ⟨hstays, -⟩ | ⟨hnone, -⟩ | ⟨-, hlinked⟩
      · exact .inl ⟨c, hc, hstays⟩
      · exact absurd hnone hland
      · exact .inr (hlinked hready)
    · rcases hlive.served t hready with hrunning | hlinked
      · exact .inl (hhand.running hrunning hold)
      · exact (hhand.kept t hlinked).symm.imp_left fun hnew => ⟨c, hc, hnew⟩

theorem Live.of_same (hlive : Live cfg k)
    (hcurrent : ∀ c, (k'.cpu c).currentThread = (k.cpu c).currentThread)
    (honcpu : ∀ t, (k'.thread t).oncpu = (k.thread t).oncpu)
    (hlinked : ∀ t, k'.Linked t ↔ k.Linked t)
    (hkept : ∀ t, k.Linked t → (k'.thread t).stat = (k.thread t).stat)
    (hready : ∀ t, (k'.thread t).stat = .ready → (k.thread t).stat = .ready) :
    Live cfg k' where
  toPlaced := hlive.toPlaced.of_linked hcurrent honcpu fun t ht =>
    ⟨(hlinked t).mp ht, hkept t ((hlinked t).mp ht)⟩
  homed := fun t => by
    rw [honcpu, running_congr hcurrent]
    exact hlive.homed t
  served := fun t ht => by
    rw [hlinked, running_congr hcurrent]
    exact hlive.served t (hready t ht)

theorem Live.quiet (hlive : Live cfg k) (hquiet : Quiet k k') : Live cfg k' :=
  hlive.of_same hquiet.current hquiet.oncpu hquiet.linked (fun t _ => (hquiet.wait t).stat)
    fun t ht => (hquiet.wait t).stat.symm.trans ht

theorem Live.setThread (hlive : Live cfg k) {thread : Thread}
    (honcpu : thread.oncpu = (k.thread t).oncpu) (hstat : thread.stat = (k.thread t).stat) :
    Live cfg (k.setThread t thread) := by
  have hsame : ∀ u, ((k.setThread t thread).thread u).oncpu = (k.thread u).oncpu ∧
      ((k.setThread t thread).thread u).stat = (k.thread u).stat := by
    intro u
    by_cases hu : u = t
    · subst hu
      simpa using ⟨honcpu, hstat⟩
    · simp [hu]
  exact hlive.of_same (fun _ => rfl) (fun u => (hsame u).1) (fun _ => Iff.rfl)
    (fun u _ => (hsame u).2) fun u hu => (hsame u).2.symm.trans hu

theorem live_insertThread (hplaced : Placed cfg k)
    (hhomed : ∀ u, (k.thread u).oncpu = cfg.cpuDetached ∨ k.Running cfg u)
    (hserved : ∀ u, u ≠ t → (k.thread u).stat = .ready → k.Running cfg u ∨ k.Linked u) :
    Live cfg (rtScheduleInsertThread cfg c t k) := by
  have hcurrent : ∀ c', ((rtScheduleInsertThread cfg c t k).cpu c').currentThread =
      (k.cpu c').currentThread := fun c' => rtScheduleInsertThread_currentThread ..
  have hgrows : ∀ u, k.Linked u → (rtScheduleInsertThread cfg c t k).Linked u := by
    intro u hu
    by_cases hdetached : (k.thread t).oncpu = cfg.cpuDetached
    · exact (linked_rtScheduleInsertThread hdetached).mpr (.inl hu)
    · exact (linked_rtScheduleInsertThread_of_running hdetached).mpr hu
  refine ⟨hplaced.insertThread c t, fun u => ?_, fun u hu => ?_⟩
  · rw [running_congr hcurrent]
    convert hhomed u using 2
    rw [rtScheduleInsertThread_thread]
    by_cases hut : u = t
    · subst hut
      simp
    · simp [hut]
  · rw [running_congr hcurrent]
    by_cases hut : u = t
    · subst hut
      rcases hhomed u with hdetached | hrunning
      · exact .inr ((linked_rtScheduleInsertThread hdetached).mpr (.inr rfl))
      · exact .inl hrunning
    · rw [rtScheduleInsertThread_thread, Function.update_of_ne hut] at hu
      exact (hserved u hut hu).imp_right (hgrows u)

theorem linked_unlink : (k.unlink t).Linked u ↔ k.Linked u ∧ u ≠ t := by
  constructor
  · rintro ⟨b, p, hmem⟩
    rw [Kernel.unlink_priorityTable, List.mem_filter, decide_eq_true_eq] at hmem
    exact ⟨⟨b, p, hmem.1⟩, hmem.2⟩
  · rintro ⟨⟨b, p, hmem⟩, hne⟩
    refine ⟨b, p, ?_⟩
    rw [Kernel.unlink_priorityTable, List.mem_filter, decide_eq_true_eq]
    exact ⟨hmem, hne⟩

theorem Live.wake (hlive : Live cfg k) (c : Nat) (t : Tid) :
    Live cfg (rtScheduleInsertThread cfg c t (k.unlink t)) := by
  refine live_insertThread (hlive.toPlaced.unlink t) hlive.homed fun u hu hready => ?_
  refine (hlive.served u hready).imp_right fun hlinked => ?_
  exact linked_unlink.mpr ⟨hlinked, hu⟩

theorem rtThreadSuspend_cases {code : Int}
    (hexec : rtThreadSuspend cfg c t k = some (code, k')) :
    (code = -rtError ∧ k' = k) ∨
      (code = rtEok ∧ (k.thread t).stat = .ready ∧ (k.cpu c).currentThread = some t ∧
        k'.cpu = k.cpu ∧ (∀ u, k'.Linked u ↔ k.Linked u ∧ u ≠ t) ∧
        k'.thread = Function.update k.thread t
          { k.thread t with stat := .suspend, timerActive := false }) := by
  unfold rtThreadSuspend at hexec
  split at hexec
  · cases hexec
    exact .inl ⟨rfl, rfl⟩
  next hstat =>
    rw [not_not] at hstat
    split at hexec
    · cases hexec
    next hcurrent =>
      rw [not_not] at hcurrent
      cases hexec
      refine .inr ⟨rfl, hstat, hcurrent, by simp, fun u => ?_, by simp⟩
      exact linked_rtScheduleRemoveThread

theorem Live.suspend (hlive : Live cfg k) (hc : c < cfg.cpusNr)
    (hcurrent : (k.cpu c).currentThread = some t) (hcpu : k'.cpu = k.cpu)
    (hlinked : ∀ u, k'.Linked u ↔ k.Linked u ∧ u ≠ t)
    (hthread : ∀ u, u ≠ t → k'.thread u = k.thread u)
    (honcpu : (k'.thread t).oncpu = (k.thread t).oncpu)
    (hsuspend : (k'.thread t).stat = .suspend) : Live cfg k' := by
  have hfree := hlive.free c hc t hcurrent
  refine hlive.of_same (fun c' => by rw [hcpu]) (fun u => ?_) (fun u => ?_) (fun u hu => ?_)
    (fun u hu => ?_)
  · by_cases hut : u = t
    · rw [hut, honcpu]
    · rw [hthread u hut]
  · rw [hlinked]
    refine ⟨fun h => h.1, fun h => ⟨h, ?_⟩⟩
    rintro rfl
    exact hfree h
  · rw [hthread u]
    rintro rfl
    exact hfree hu
  · by_cases hut : u = t
    · rw [hut, hsuspend] at hu
      cases hu
    · rwa [hthread u hut] at hu

theorem Live.changePriority (hlive : Live cfg k) (c : Nat) (t : Tid) (priority : Nat) :
    Live cfg (rtThreadChangePriority cfg c t priority k) := by
  unfold rtThreadChangePriority
  split
  next hready =>
    generalize hremoved : rtScheduleRemoveThread cfg t k = removed
    have hthread : removed.thread = k.thread := by
      rw [← hremoved, rtScheduleRemoveThread_thread]
    have hcurrent : ∀ c', (removed.cpu c').currentThread = (k.cpu c').currentThread := by
      intro c'
      rw [← hremoved, rtScheduleRemoveThread_cpu]
    have hlinked : ∀ u, removed.Linked u ↔ k.Linked u ∧ u ≠ t := by
      intro u
      rw [← hremoved, linked_rtScheduleRemoveThread]
    have hsame : ∀ u, ((removed.setThread t
          ((removed.thread t).setPriority cfg priority)).thread u).oncpu =
        (k.thread u).oncpu ∧ ((removed.setThread t
          ((removed.thread t).setPriority cfg priority)).thread u).stat =
        (k.thread u).stat := by
      intro u
      by_cases hu : u = t
      · subst hu
        simp [hthread]
      · simp [hu, hthread]
    refine live_insertThread ?_ (fun u => ?_) (fun u hu hstat => ?_)
    · exact hlive.toPlaced.of_linked hcurrent (fun u => (hsame u).1) fun u hu =>
        ⟨((hlinked u).mp hu).1, (hsame u).2⟩
    · rw [(hsame u).1]
      exact hlive.homed u |>.imp_right (running_congr hcurrent).mpr
    · rw [(hsame u).2] at hstat
      refine (hlive.served u hstat).imp (running_congr hcurrent).mpr fun h => ?_
      exact (hlinked u).mpr ⟨h, hu⟩
  · exact hlive.setThread (by simp) (by simp)

end Live

theorem busyKernel_live : Live (Config.flat 2) busyKernel := by
  have hzero : busyKernel.Running (Config.flat 2) 0 := ⟨0, by decide, rfl⟩
  have htwo : busyKernel.Running (Config.flat 2) 2 := ⟨1, by decide, rfl⟩
  have hone : busyKernel.Linked 1 := ⟨1, 31, by simp [busyKernel]⟩
  refine ⟨busyKernel_placed, fun t => ?_, fun t ht => ?_⟩
  · rcases t with - | - | - | t
    · exact .inr hzero
    · exact .inl rfl
    · exact .inr htwo
    · exact .inl (by simp [busyKernel, Config.cpuDetached, Config.flat])
  · rcases t with - | - | - | t
    · exact .inl hzero
    · exact .inr hone
    · exact .inl htwo
    · simp [busyKernel] at ht

end RtThread.Scheduler
