import RtThread.Scheduler.Invariant

namespace RtThread.Scheduler

open Function

structure SameWait (old new : Thread) : Prop where
  stat : new.stat = old.stat
  error : new.error = old.error
  timerActive : new.timerActive = old.timerActive
  priority : new.currentPriority = old.currentPriority

theorem SameWait.refl (thread : Thread) : SameWait thread thread := ⟨rfl, rfl, rfl, rfl⟩

theorem SameWait.trans {first second third : Thread} (hfirst : SameWait first second)
    (hsecond : SameWait second third) : SameWait first third :=
  ⟨hsecond.stat.trans hfirst.stat, hsecond.error.trans hfirst.error,
    hsecond.timerActive.trans hfirst.timerActive, hsecond.priority.trans hfirst.priority⟩

theorem sameWait_setThread {k : Kernel} {t : Tid} {thread : Thread}
    (hsame : SameWait (k.thread t) thread) (u : Tid) :
    SameWait (k.thread u) ((k.setThread t thread).thread u) := by
  by_cases hu : u = t
  · subst hu
    simpa using hsame
  · simpa [hu] using SameWait.refl (k.thread u)

/-- No thread is linked twice, in one ready list or in two. -/
structure Kernel.Unrepeated (k : Kernel) : Prop where
  nodup : ∀ b p, ((k.queue b).priorityTable p).Nodup
  unique : ∀ t b p b' p', t ∈ (k.queue b).priorityTable p → t ∈ (k.queue b').priorityTable p' →
    b = b' ∧ p = p'

namespace Kernel.Unrepeated

variable {cfg : Config} {k k' : Kernel} {c : Nat} {t : Tid}

theorem sublist (honce : k.Unrepeated)
    (hsub : ∀ b p, ((k'.queue b).priorityTable p).Sublist ((k.queue b).priorityTable p)) :
    k'.Unrepeated :=
  ⟨fun b p => (honce.nodup b p).sublist (hsub b p), fun t b p b' p' hmem hmem' =>
    honce.unique t b p b' p' ((hsub b p).subset hmem) ((hsub b' p').subset hmem')⟩

theorem of_queue (honce : k.Unrepeated) (hqueue : k'.queue = k.queue) : k'.Unrepeated :=
  honce.sublist fun b p => by rw [hqueue]

theorem unlink (honce : k.Unrepeated) (t : Tid) : (k.unlink t).Unrepeated :=
  honce.sublist fun _ _ => List.filter_sublist

theorem removeThread (honce : k.Unrepeated) (t : Tid) :
    (rtScheduleRemoveThread cfg t k).Unrepeated :=
  honce.sublist fun b p => by
    rw [rtScheduleRemoveThread_priorityTable]
    exact List.filter_sublist

theorem insertThread (honce : k.Unrepeated) (hfree : ¬ k.Linked t) :
    (rtScheduleInsertThread cfg c t k).Unrepeated := by
  by_cases hdetached : (k.thread t).oncpu = cfg.cpuDetached
  · have hmem := mem_rtScheduleInsertThread_queue cfg c t k hdetached
    refine ⟨fun b p => ?_, fun u b p b' p' hu hu' => ?_⟩
    · rw [rtScheduleInsertThread_queue_of_detached cfg c t k hdetached]
      by_cases hb : b = (k.thread t).bindCpu
      · subst hb
        rw [update_self]
        unfold ReadyQueue.enqueue
        dsimp only
        by_cases hp : p = (k.thread t).currentPriority
        · subst hp
          rw [update_self]
          refine List.nodup_append.mpr ⟨honce.nodup _ _, List.pairwise_singleton _ t, ?_⟩
          rintro u hu v hv rfl
          exact hfree ⟨_, _, List.mem_singleton.mp hv ▸ hu⟩
        · rw [update_of_ne hp]
          exact honce.nodup _ p
      · rw [update_of_ne hb]
        exact honce.nodup b p
    · rcases (hmem b p u).mp hu with hold | ⟨rfl, rfl, rfl⟩
      · rcases (hmem b' p' u).mp hu' with hold' | ⟨rfl, -, -⟩
        · exact honce.unique u b p b' p' hold hold'
        · exact absurd ⟨_, _, hold⟩ hfree
      · rcases (hmem b' p' u).mp hu' with hold' | ⟨-, rfl, rfl⟩
        · exact absurd ⟨_, _, hold'⟩ hfree
        · exact ⟨rfl, rfl⟩
  · exact honce.of_queue (rtScheduleInsertThread_queue_of_running cfg c t k hdetached)

end Kernel.Unrepeated

structure Quiet (k k' : Kernel) : Prop where
  wait : ∀ t, SameWait (k.thread t) (k'.thread t)
  oncpu : ∀ t, (k'.thread t).oncpu = (k.thread t).oncpu
  current : ∀ c, (k'.cpu c).currentThread = (k.cpu c).currentThread
  queue : k'.queue = k.queue

namespace Quiet

variable {k k' k'' : Kernel} {c : Nat} {t : Tid}

theorem refl (k : Kernel) : Quiet k k :=
  ⟨fun _ => .refl _, fun _ => rfl, fun _ => rfl, rfl⟩

theorem trans (hfirst : Quiet k k') (hsecond : Quiet k' k'') : Quiet k k'' :=
  ⟨fun t => (hfirst.wait t).trans (hsecond.wait t),
    fun t => (hsecond.oncpu t).trans (hfirst.oncpu t),
    fun c => (hsecond.current c).trans (hfirst.current c),
    hsecond.queue.trans hfirst.queue⟩

theorem linked (hquiet : Quiet k k') (t : Tid) : k'.Linked t ↔ k.Linked t := by
  unfold Kernel.Linked
  rw [hquiet.queue]

theorem unrepeated (hquiet : Quiet k k') (honce : k.Unrepeated) : k'.Unrepeated :=
  honce.of_queue hquiet.queue

theorem setThread {thread : Thread} (hsame : SameWait (k.thread t) thread)
    (honcpu : thread.oncpu = (k.thread t).oncpu) : Quiet k (k.setThread t thread) := by
  refine ⟨sameWait_setThread hsame, fun u => ?_, fun _ => rfl, rfl⟩
  by_cases hu : u = t
  · subst hu
    simpa using honcpu
  · simp [hu]

theorem setCpu {cpu : Cpu} (hsame : cpu.currentThread = (k.cpu c).currentThread) :
    Quiet k (k.setCpu c cpu) := by
  refine ⟨fun _ => .refl _, fun _ => rfl, fun c' => ?_, rfl⟩
  by_cases hc : c' = c
  · subst hc
    simpa using hsame
  · simp [hc]

theorem cpusLock : Quiet k (k.cpusLock c) := by
  unfold Kernel.cpusLock
  split
  · exact .refl k
  · exact .setThread ⟨rfl, rfl, rfl, rfl⟩ rfl

theorem cpusUnlock : Quiet k (k.cpusUnlock c) := by
  unfold Kernel.cpusUnlock
  split
  · exact .refl k
  · exact .setThread ⟨rfl, rfl, rfl, rfl⟩ rfl

end Quiet

structure Handover (cfg : Config) (c : Nat) (k k' : Kernel) : Prop where
  wait : ∀ t, SameWait (k.thread t) (k'.thread t)
  other : ∀ c', c' ≠ c → (k'.cpu c').currentThread = (k.cpu c').currentThread
  current : (k'.cpu c).currentThread = (k.cpu c).currentThread ∨
    (k'.cpu c).currentThread = none ∨
    ∃ t, (k'.cpu c).currentThread = some t ∧ k.Linked t ∧ ¬ k'.Linked t
  linked : ∀ t, k'.Linked t → k.Linked t ∨
    ((k.cpu c).currentThread = some t ∧ (k.thread t).stat = .ready ∧
      (k'.cpu c).currentThread ≠ some t)
  oncpu : ∀ t, (k'.cpu c).currentThread = some t → (k'.thread t).oncpu = c ∨
    ((k.cpu c).currentThread = some t ∧ (k'.thread t).oncpu = (k.thread t).oncpu)
  elsewhere : ∀ t, (k.cpu c).currentThread ≠ some t → ¬ k.Linked t →
    (k'.thread t).oncpu = (k.thread t).oncpu
  kept : ∀ t, k.Linked t → k'.Linked t ∨ (k'.cpu c).currentThread = some t
  left : ∀ t, (k.cpu c).currentThread = some t →
    ((k'.cpu c).currentThread = some t ∧ ((k'.thread t).oncpu = c ∨
        (k'.thread t).oncpu = (k.thread t).oncpu)) ∨
      ((k'.cpu c).currentThread = none ∧ (k'.thread t).oncpu = (k.thread t).oncpu) ∨
      ((k'.thread t).oncpu = cfg.cpuDetached ∧ ((k.thread t).stat = .ready → k'.Linked t))
  waiting : ∀ t, k.Linked t → (k'.cpu c).currentThread ≠ some t →
    (k'.thread t).oncpu = (k.thread t).oncpu
  unrepeated : k.Unrepeated → k'.Unrepeated

theorem Quiet.handover {k k' : Kernel} (hquiet : Quiet k k') (cfg : Config) (c : Nat) :
    Handover cfg c k k' :=
  ⟨hquiet.wait, fun c' _ => hquiet.current c', .inl (hquiet.current c),
    fun t ht => .inl ((hquiet.linked t).mp ht),
    fun t ht => .inr ⟨(hquiet.current c).symm.trans ht, hquiet.oncpu t⟩,
    fun t _ _ => hquiet.oncpu t, fun t ht => .inl ((hquiet.linked t).mpr ht),
    fun t ht => .inl ⟨(hquiet.current c).trans ht, .inr (hquiet.oncpu t)⟩,
    fun t _ _ => hquiet.oncpu t, hquiet.unrepeated⟩

theorem Handover.after {cfg : Config} {k k' k'' : Kernel} {c : Nat}
    (hhand : Handover cfg c k k') (hquiet : Quiet k' k'') : Handover cfg c k k'' where
  wait := fun t => (hhand.wait t).trans (hquiet.wait t)
  other := fun c' hc => (hquiet.current c').trans (hhand.other c' hc)
  current := by
    rw [hquiet.current c]
    rcases hhand.current with hsame | hnone | ⟨t, hto, hlinked, hfree⟩
    · exact .inl hsame
    · exact .inr (.inl hnone)
    · exact .inr (.inr ⟨t, hto, hlinked, fun h => hfree ((hquiet.linked t).mp h)⟩)
  linked := fun t ht => by
    rw [hquiet.current c]
    exact hhand.linked t ((hquiet.linked t).mp ht)
  oncpu := fun t ht => by
    rw [hquiet.oncpu]
    exact hhand.oncpu t ((hquiet.current c).symm.trans ht)
  elsewhere := fun t hcurrent hfree =>
    (hquiet.oncpu t).trans (hhand.elsewhere t hcurrent hfree)
  kept := fun t ht => by
    rw [hquiet.linked t, hquiet.current c]
    exact hhand.kept t ht
  left := fun t ht => by
    rw [hquiet.linked t, hquiet.current c, hquiet.oncpu t]
    exact hhand.left t ht
  waiting := fun t hlinked hnot =>
    (hquiet.oncpu t).trans (hhand.waiting t hlinked (by rwa [← hquiet.current c]))
  unrepeated := fun honce => hquiet.unrepeated (hhand.unrepeated honce)

theorem Handover.before {cfg : Config} {k k' k'' : Kernel} {c : Nat} (hquiet : Quiet k k')
    (hhand : Handover cfg c k' k'') : Handover cfg c k k'' where
  wait := fun t => (hquiet.wait t).trans (hhand.wait t)
  other := fun c' hc => (hhand.other c' hc).trans (hquiet.current c')
  current := by
    rcases hhand.current with hsame | hnone | ⟨t, hto, hlinked, hfree⟩
    · exact .inl (hsame.trans (hquiet.current c))
    · exact .inr (.inl hnone)
    · exact .inr (.inr ⟨t, hto, (hquiet.linked t).mp hlinked, hfree⟩)
  linked := fun t ht => by
    rcases hhand.linked t ht with hlinked | ⟨hcurrent, hstat, hleft⟩
    · exact .inl ((hquiet.linked t).mp hlinked)
    · rw [hquiet.current c] at hcurrent
      rw [(hquiet.wait t).stat] at hstat
      exact .inr ⟨hcurrent, hstat, hleft⟩
  oncpu := fun t ht => by
    rcases hhand.oncpu t ht with hnew | ⟨hcurrent, hsame⟩
    · exact .inl hnew
    · exact .inr ⟨(hquiet.current c).symm.trans hcurrent, hsame.trans (hquiet.oncpu t)⟩
  elsewhere := fun t hcurrent hfree => by
    refine (hhand.elsewhere t ?_ ?_).trans (hquiet.oncpu t)
    · rwa [hquiet.current c]
    · rwa [hquiet.linked t]
  kept := fun t ht => hhand.kept t ((hquiet.linked t).mpr ht)
  left := fun t ht => by
    have hleft := hhand.left t ((hquiet.current c).trans ht)
    rwa [hquiet.oncpu t, (hquiet.wait t).stat] at hleft
  waiting := fun t hlinked hnot =>
    (hhand.waiting t ((hquiet.linked t).mpr hlinked) hnot).trans (hquiet.oncpu t)
  unrepeated := fun honce => hhand.unrepeated (hquiet.unrepeated honce)

section Placed

variable {cfg : Config} {k k' : Kernel} {c : Nat}

theorem Handover.current_cases (hhand : Handover cfg c k k') {c' : Nat} {t : Tid}
    (ht : (k'.cpu c').currentThread = some t) :
    (k.cpu c').currentThread = some t ∨ (c' = c ∧ k.Linked t ∧ ¬ k'.Linked t) := by
  by_cases hcc : c' = c
  · subst hcc
    rcases hhand.current with hsame | hnone | ⟨u, hu, hlinked, hgone⟩
    · exact .inl (hsame.symm.trans ht)
    · rw [hnone] at ht
      cases ht
    · rw [hu] at ht
      cases ht
      exact .inr ⟨rfl, hlinked, hgone⟩
  · rw [hhand.other c' hcc] at ht
    exact .inl ht

theorem Placed.handover (hplaced : Placed cfg k) (hc : c < cfg.cpusNr)
    (hhand : Handover cfg c k k') : Placed cfg k' where
  once := fun c₁ h₁ c₂ h₂ t ht₁ ht₂ => by
    rcases hhand.current_cases ht₁ with hold₁ | ⟨rfl, hlinked, -⟩
    · rcases hhand.current_cases ht₂ with hold₂ | ⟨rfl, hlinked, -⟩
      · exact hplaced.once c₁ h₁ c₂ h₂ t hold₁ hold₂
      · exact absurd hlinked (hplaced.free c₁ h₁ t hold₁)
    · rcases hhand.current_cases ht₂ with hold₂ | ⟨rfl, -, -⟩
      · exact absurd hlinked (hplaced.free c₂ h₂ t hold₂)
      · rfl
  free := fun c' hc' t ht hlinked => by
    rcases hhand.current_cases ht with hold | ⟨-, -, hgone⟩
    · rcases hhand.linked t hlinked with hlinked | ⟨hcurrent, -, hleft⟩
      · exact hplaced.free c' hc' t hold hlinked
      · have hcc := hplaced.once c' hc' c hc t hold hcurrent
        subst hcc
        exact hleft ht
    · exact hgone hlinked
  ready := fun t ht => by
    rw [(hhand.wait t).stat]
    rcases hhand.linked t ht with hlinked | ⟨-, hready, -⟩
    · exact hplaced.ready t hlinked
    · exact hready
  oncpu := fun c' hc' t ht => by
    by_cases hcc : c' = c
    · subst hcc
      rcases hhand.oncpu t ht with hnew | ⟨hcurrent, hsame⟩
      · exact hnew
      · exact hsame.trans (hplaced.oncpu c' hc' t hcurrent)
    · rw [hhand.other c' hcc] at ht
      rw [hhand.elsewhere t (fun h => hcc (hplaced.once c' hc' c hc t ht h))
        (hplaced.free c' hc' t ht)]
      exact hplaced.oncpu c' hc' t ht

end Placed

section Select

variable {cfg : Config} {k k' : Kernel} {c : Nat} {current t : Tid} {p : Nat}

theorem ReadyQueue.mem_of_first {q : ReadyQueue} (hfirst : q.first cfg p = some t) :
    t ∈ q.priorityTable p := by
  unfold ReadyQueue.first at hfirst
  split at hfirst
  · exact List.mem_of_head? hfirst
  · cases hfirst

theorem linked_of_getHighestPriorityThread
    (hready : (k.queue cfg.cpusNr).priorityGroup ≠ 0 ∨ (k.queue c).priorityGroup ≠ 0)
    (hfound : getHighestPriorityThread cfg c k = some (t, p)) : k.Linked t := by
  unfold getHighestPriorityThread at hfound
  dsimp only at hfound
  rw [if_neg (by tauto)] at hfound
  split at hfound
  · obtain ⟨u, hfirst, heq⟩ := Option.map_eq_some_iff.mp hfound
    cases heq
    exact ⟨_, _, ReadyQueue.mem_of_first hfirst⟩
  · obtain ⟨u, hfirst, heq⟩ := Option.map_eq_some_iff.mp hfound
    cases heq
    exact ⟨_, _, ReadyQueue.mem_of_first hfirst⟩

theorem linked_rtScheduleInsertThread
    (hdetached : (k.thread current).oncpu = cfg.cpuDetached) :
    (rtScheduleInsertThread cfg c current k).Linked t ↔ k.Linked t ∨ t = current := by
  simp only [Kernel.Linked, mem_rtScheduleInsertThread_queue cfg c current k hdetached]
  constructor
  · rintro ⟨b, q, hmem | ⟨heq, -, -⟩⟩
    · exact .inl ⟨b, q, hmem⟩
    · exact .inr heq
  · rintro (⟨b, q, hmem⟩ | heq)
    · exact ⟨b, q, .inl hmem⟩
    · exact ⟨_, _, .inr ⟨heq, rfl, rfl⟩⟩

theorem linked_rtScheduleInsertThread_of_running
    (hrunning : (k.thread current).oncpu ≠ cfg.cpuDetached) :
    (rtScheduleInsertThread cfg c current k).Linked t ↔ k.Linked t := by
  simp only [Kernel.Linked, rtScheduleInsertThread_queue_of_running cfg c current k hrunning]

theorem linked_rtScheduleRemoveThread {u : Tid} :
    (rtScheduleRemoveThread cfg t k).Linked u ↔ k.Linked u ∧ u ≠ t := by
  constructor
  · rintro ⟨b, q, hmem⟩
    rw [rtScheduleRemoveThread_priorityTable, List.mem_filter, decide_eq_true_eq] at hmem
    exact ⟨⟨b, q, hmem.1⟩, hmem.2⟩
  · rintro ⟨⟨b, q, hmem⟩, hne⟩
    refine ⟨b, q, ?_⟩
    rw [rtScheduleRemoveThread_priorityTable, List.mem_filter, decide_eq_true_eq]
    exact ⟨hmem, hne⟩

theorem leaveCpu_cases {highest : Tid} {choice : Kernel × Tid} (hfree : ¬ k.Linked current)
    (hleave : leaveCpu cfg c current highest p k = choice) :
    (k.Unrepeated → choice.1.Unrepeated) ∧
      (∀ u, SameWait (k.thread u) (choice.1.thread u)) ∧
      (∀ u, u ≠ current → (choice.1.thread u).oncpu = (k.thread u).oncpu) ∧
      (∀ c', (choice.1.cpu c').currentThread = (k.cpu c').currentThread) ∧
      ((choice.2 = current ∧ ∀ u, choice.1.Linked u ↔ k.Linked u) ∨
        (choice.2 = highest ∧ (choice.1.thread current).oncpu = cfg.cpuDetached ∧
          ∀ u, choice.1.Linked u ↔ k.Linked u ∨
            (u = current ∧ (k.thread current).stat = .ready))) := by
  have hwait : ∀ u, SameWait (k.thread u)
      ((k.setThread current
        { k.thread current with oncpu := cfg.cpuDetached }).thread u) :=
    sameWait_setThread ⟨rfl, rfl, rfl, rfl⟩
  have honcpu : ∀ u, u ≠ current → ((k.setThread current
      { k.thread current with oncpu := cfg.cpuDetached }).thread u).oncpu =
      (k.thread u).oncpu := by
    intro u hu
    simp [hu]
  have hstat := (hwait current).stat
  unfold leaveCpu at hleave
  dsimp only at hleave
  split at hleave
  next hready =>
    split at hleave
    · subst hleave
      exact ⟨fun h => h.of_queue rfl, hwait, honcpu, fun _ => rfl, .inl ⟨rfl, fun _ => Iff.rfl⟩⟩
    · subst hleave
      refine ⟨fun h => .insertThread (.of_queue h rfl) hfree, fun u => ?_,
        fun u hu => ?_, fun c' => ?_, .inr ⟨rfl, ?_, fun u => ?_⟩⟩
      · refine (hwait u).trans ?_
        rw [rtScheduleInsertThread_thread]
        by_cases hu : u = current
        · subst hu
          rw [update_self]
          exact ⟨hready.symm, rfl, rfl, rfl⟩
        · rw [update_of_ne hu]
          exact .refl _
      · rw [rtScheduleInsertThread_thread, update_of_ne hu]
        exact honcpu u hu
      · rw [rtScheduleInsertThread_currentThread]
        rfl
      · rw [rtScheduleInsertThread_thread]
        simp
      · rw [linked_rtScheduleInsertThread (by simp)]
        refine or_congr Iff.rfl ⟨fun h => ⟨h, hstat ▸ hready⟩, fun h => h.1⟩
  next hwaits =>
    subst hleave
    refine ⟨fun h => h.of_queue rfl, hwait, honcpu, fun _ => rfl, .inr ⟨rfl, by simp, fun u => ?_⟩⟩
    rw [hstat] at hwaits
    exact ⟨.inl, fun h => h.elim id fun h => absurd h.2 hwaits⟩

theorem selectThread_handover {switched : Option Tid} (hfree : ¬ k.Linked current)
    (hselect : selectThread cfg c current k = some (k', switched)) :
    (∀ u, SameWait (k.thread u) (k'.thread u)) ∧ (k.Unrepeated → k'.Unrepeated) ∧
      (∀ c', (k'.cpu c').currentThread = (k.cpu c').currentThread) ∧
      (∀ u, u ≠ current → ¬ k.Linked u → (k'.thread u).oncpu = (k.thread u).oncpu) ∧
      ((switched = none ∧ (∀ u, k'.Linked u ↔ k.Linked u) ∧
          (∀ u, k.Linked u → (k'.thread u).oncpu = (k.thread u).oncpu) ∧
          ((k'.thread current).oncpu = c ∨
            (k'.thread current).oncpu = (k.thread current).oncpu)) ∨
        ∃ toThread, switched = some toThread ∧ toThread ≠ current ∧ k.Linked toThread ∧
          (k'.thread toThread).oncpu = c ∧ (k'.thread current).oncpu = cfg.cpuDetached ∧
          (∀ u, k.Linked u → u ≠ toThread → (k'.thread u).oncpu = (k.thread u).oncpu) ∧
          ∀ u, k'.Linked u ↔ (k.Linked u ∨
            (u = current ∧ (k.thread current).stat = .ready)) ∧ u ≠ toThread) := by
  unfold selectThread at hselect
  split at hselect
  next hready =>
    split at hselect
    · obtain ⟨-, hstay⟩ := Option.ite_none_right_eq_some.mp hselect
      cases hstay
      have hother : ∀ u, u ≠ current →
          ((k.setThread current { k.thread current with oncpu := c }).thread u).oncpu =
            (k.thread u).oncpu := fun u hu => by simp [hu]
      refine ⟨sameWait_setThread ⟨rfl, rfl, rfl, rfl⟩, fun h => h.of_queue rfl, fun _ => rfl,
        fun u hu _ => hother u hu,
        .inl ⟨rfl, fun _ => Iff.rfl, fun u hu => hother u ?_, .inl (by simp)⟩⟩
      rintro rfl
      exact hfree hu
    next highest highestReadyPriority hfound =>
      have hlinked := linked_of_getHighestPriorityThread hready hfound
      have hother : highest ≠ current := by
        rintro rfl
        exact hfree hlinked
      dsimp only at hselect
      generalize hleave : leaveCpu cfg c current highest highestReadyPriority k = choice at hselect
      obtain ⟨honce, hwait, honcpu, hcurrent, hchoice⟩ := leaveCpu_cases hfree hleave
      have hmark : ∀ u, SameWait (choice.1.thread u) ((choice.1.setThread choice.2
          { choice.1.thread choice.2 with oncpu := c }).thread u) :=
        sameWait_setThread ⟨rfl, rfl, rfl, rfl⟩
      split at hselect
      next hne =>
        rcases hchoice with ⟨heq, -⟩ | ⟨heq, hgone, hlinks⟩
        · exact absurd heq hne
        · cases hselect
          refine ⟨fun u => ?_, fun h => ?_, fun c' => ?_, fun u hu hnot => ?_,
            .inr ⟨choice.2, rfl, hne, heq ▸ hlinked, ?_, ?_, fun u hu huto => ?_, fun u => ?_⟩⟩
          · rw [rtScheduleRemoveThread_thread]
            exact (hwait u).trans (hmark u)
          · apply Kernel.Unrepeated.removeThread
            exact (honce h).of_queue rfl
          · rw [rtScheduleRemoveThread_cpu]
            by_cases hc : c' = c
            · subst hc
              simpa using hcurrent c'
            · simpa [hc] using hcurrent c'
          · have huto : u ≠ choice.2 := by
              rintro rfl
              exact hnot (heq ▸ hlinked)
            rw [rtScheduleRemoveThread_thread]
            simpa [huto] using honcpu u hu
          · rw [rtScheduleRemoveThread_thread]
            simp
          · rw [rtScheduleRemoveThread_thread]
            simpa [Ne.symm hne] using hgone
          · have hucurrent : u ≠ current := by
              rintro rfl
              exact hfree hu
            rw [rtScheduleRemoveThread_thread]
            simpa [huto] using honcpu u hucurrent
          · rw [linked_rtScheduleRemoveThread, ← hlinks u]
            exact Iff.rfl
      next hsame =>
        rw [not_not] at hsame
        rcases hchoice with ⟨-, hlinks⟩ | ⟨heq, -⟩
        · cases hselect
          refine ⟨fun u => (hwait u).trans (hmark u),
            fun h => (honce h).of_queue rfl, hcurrent, fun u hu _ => ?_,
            .inl ⟨rfl, hlinks, fun u hu => ?_, .inl ?_⟩⟩
          · simpa [hsame, hu] using honcpu u hu
          · have hucurrent : u ≠ current := by
              rintro rfl
              exact hfree hu
            simpa [hsame, hucurrent] using honcpu u hucurrent
          · simp [hsame]
        · exact absurd (heq.symm.trans hsame) hother
  · cases hselect
    exact ⟨fun _ => .refl _, id, fun _ => rfl, fun _ _ _ => rfl,
      .inl ⟨rfl, fun _ => Iff.rfl, fun _ _ => rfl, .inr rfl⟩⟩

theorem stay_handover (hcurrent : (k.cpu c).currentThread = some current)
    (hfree : ¬ k.Linked current)
    (hselect : selectThread cfg c current k = some (k', none)) : Handover cfg c k k' := by
  obtain ⟨hwait, honce, hcpu, helse, hcase⟩ := selectThread_handover hfree hselect
  rcases hcase with ⟨-, hlinks, hkept, honcpu⟩ | ⟨_, hsome, -⟩
  · refine ⟨hwait, fun c' _ => hcpu c', .inl (hcpu c), fun t ht => .inl ((hlinks t).mp ht),
      fun t ht => ?_, fun t ht hnot => helse t ?_ hnot, fun t ht => .inl ((hlinks t).mpr ht),
      fun t ht => .inl ⟨(hcpu c).trans ht, ?_⟩, fun t ht _ => ?_, honce⟩
    · have heq : some t = some current := ht.symm.trans ((hcpu c).trans hcurrent)
      cases heq
      exact honcpu.imp_right fun h => ⟨hcurrent, h⟩
    · rintro rfl
      exact ht hcurrent
    · cases ht.symm.trans hcurrent
      exact honcpu
    · exact hkept t ht
  · cases hsome

end Select

section Schedule

variable {cfg : Config} {k k' : Kernel} {c : Nat} {current : Tid}

theorem Quiet.contextSwitch (k : Kernel) (c : Nat) (toThread : Tid) :
    Quiet (k.setCpu c { k.cpu c with currentThread := some toThread })
      (k.contextSwitch c toThread) := by
  unfold Kernel.contextSwitch
  dsimp only
  split
  · exact .refl _
  · exact .cpusUnlock

theorem switch_handover {toThread : Tid} (hcurrent : (k.cpu c).currentThread = some current)
    (hfree : ¬ k.Linked current)
    (hselect : selectThread cfg c current k = some (k', some toThread)) :
    Handover cfg c k (k'.setCpu c { k'.cpu c with currentThread := some toThread }) := by
  obtain ⟨hwait, honce, hcpu, helse, hcase⟩ := selectThread_handover hfree hselect
  rcases hcase with ⟨hnone, -⟩ | ⟨u, hu, hne, hlinked, honcpu, hleft, hkept, hlinks⟩
  · cases hnone
  · cases hu
    have hnew : ((k'.setCpu c { k'.cpu c with currentThread := some toThread }).cpu
        c).currentThread = some toThread := by simp
    refine ⟨hwait, fun c' hc => ?_, .inr (.inr ⟨toThread, hnew, hlinked, fun h => ?_⟩),
      fun u hu => ?_, fun u hu => .inl ?_, fun u hu hnot => helse u ?_ hnot, fun u hu => ?_,
      fun u hu => ?_, fun u hu hnot => ?_, fun h => (honce h).of_queue rfl⟩
    · simpa [hc] using hcpu c'
    · exact ((hlinks toThread).mp h).2 rfl
    · rcases ((hlinks u).mp hu).1 with hold | ⟨rfl, hstat⟩
      · exact .inl hold
      · refine .inr ⟨hcurrent, hstat, ?_⟩
        rw [hnew]
        simpa using hne
    · have heq : toThread = u := by simpa using hu
      subst heq
      exact honcpu
    · rintro rfl
      exact hu hcurrent
    · rw [hnew]
      by_cases heq : u = toThread
      · exact .inr (by rw [heq])
      · exact .inl ((hlinks u).mpr ⟨.inl hu, heq⟩)
    · cases hu.symm.trans hcurrent
      exact .inr (.inr ⟨hleft, fun hready =>
        (hlinks current).mpr ⟨.inr ⟨rfl, hready⟩, Ne.symm hne⟩⟩)
    · refine hkept u hu ?_
      rintro rfl
      exact hnot hnew

theorem Kernel.stray_handover (k : Kernel) (cfg : Config) (c : Nat) :
    Handover cfg c k (k.stray c) := by
  refine ⟨fun _ => .refl _, fun c' hc => ?_, .inr (.inl ?_), fun _ h => .inl h,
    fun t ht => ?_, fun _ _ _ => rfl, fun _ h => .inl h, fun _ _ => .inr (.inl ⟨?_, rfl⟩),
    fun _ _ _ => rfl, fun h => h.of_queue rfl⟩
  · simp [Kernel.stray, hc]
  · simp [Kernel.stray]
  · simp [Kernel.stray] at ht
  · simp [Kernel.stray]

section

variable (hfree : ∀ t, (k.cpu c).currentThread = some t → ¬ k.Linked t)
include hfree

theorem rtSchedule_handover (hexec : rtSchedule cfg c k = some k') : Handover cfg c k k' := by
  unfold rtSchedule at hexec
  split at hexec
  · cases hexec
  next current hcurrent =>
    have hlock : Quiet k (k.cpusLock c) := .cpusLock
    have hcurrent' := (hlock.current c).trans hcurrent
    have hfree' : ¬ (k.cpusLock c).Linked current :=
      fun h => hfree current hcurrent ((hlock.linked current).mp h)
    refine Handover.before hlock ?_
    dsimp only at hexec
    generalize k.cpusLock c = locked at *
    split at hexec
    · cases hexec
      refine Quiet.handover (Quiet.trans ?_ .cpusUnlock) cfg c
      exact .setCpu rfl
    · split at hexec
      · split at hexec
        · cases hexec
          exact locked.stray_handover cfg c
        next selected hselect =>
          cases hexec
          exact (stay_handover hcurrent' hfree' hselect).after .cpusUnlock
        next selected toThread hselect =>
          cases hexec
          exact (switch_handover hcurrent' hfree' hselect).after (.contextSwitch _ _ _)
      · cases hexec
        exact Quiet.cpusUnlock.handover cfg c

theorem rtSchedulerDoIrqSwitch_handover
    (hexec : rtSchedulerDoIrqSwitch cfg c k = some k') : Handover cfg c k k' := by
  unfold rtSchedulerDoIrqSwitch at hexec
  split at hexec
  · cases hexec
  next current hcurrent =>
    have hlock : Quiet k (k.cpusLock c) := .cpusLock
    dsimp only at hexec
    split at hexec
    · cases hexec
      exact (hlock.trans .cpusUnlock).handover cfg c
    · split at hexec
      · have hclear : Quiet k ((k.cpusLock c).setCpu c
            { (k.cpusLock c).cpu c with irqSwitchFlag := false }) :=
          hlock.trans (.setCpu rfl)
        generalize (k.cpusLock c).setCpu c
          { (k.cpusLock c).cpu c with irqSwitchFlag := false } = cleared at *
        have hcurrent' := (hclear.current c).trans hcurrent
        have hfree' : ¬ cleared.Linked current :=
          fun h => hfree current hcurrent ((hclear.linked current).mp h)
        refine Handover.before hclear ?_
        split at hexec
        · cases hexec
          exact cleared.stray_handover cfg c
        next selected hselect =>
          cases hexec
          exact (stay_handover hcurrent' hfree' hselect).after .cpusUnlock
        next selected toThread hselect =>
          cases hexec
          have hswitch := switch_handover hcurrent' hfree' hselect
          have hcounters : Quiet
              (selected.setCpu c { selected.cpu c with currentThread := some toThread })
              ((selected.setThread current
                { selected.thread current with
                  cpusLockNest := dec16 (selected.thread current).cpusLockNest
                  schedulerLockNest :=
                    dec16 (selected.thread current).schedulerLockNest }).setCpu c
                { selected.cpu c with currentThread := some toThread }) :=
            Quiet.setThread ⟨rfl, rfl, rfl, rfl⟩ rfl
          exact (hswitch.after hcounters).after (.contextSwitch _ _ _)
      · cases hexec
        exact (hlock.trans .cpusUnlock).handover cfg c

theorem rtSchedulerIpiHandler_handover
    (hexec : rtSchedulerIpiHandler cfg c k = some k') : Handover cfg c k k' := by
  have hquiet : Quiet k (k.setCpu c { k.cpu c with ipiPending := false }) := .setCpu rfl
  refine Handover.before hquiet (rtSchedule_handover (fun t ht hlinked => ?_) hexec)
  rw [hquiet.current c] at ht
  exact hfree t ht ((hquiet.linked t).mp hlinked)

end

theorem Placed.of_linked (hplaced : Placed cfg k)
    (hcurrent : ∀ c, (k'.cpu c).currentThread = (k.cpu c).currentThread)
    (honcpu : ∀ t, (k'.thread t).oncpu = (k.thread t).oncpu)
    (hlinked : ∀ t, k'.Linked t → k.Linked t ∧ (k'.thread t).stat = (k.thread t).stat) :
    Placed cfg k' := by
  refine ⟨fun c hc c' hc' t ht ht' => ?_, fun c hc t ht hlink => ?_, fun t ht => ?_,
    fun c hc t ht => ?_⟩
  · rw [hcurrent] at ht ht'
    exact hplaced.once c hc c' hc' t ht ht'
  · rw [hcurrent] at ht
    exact hplaced.free c hc t ht (hlinked t hlink).1
  · rw [(hlinked t ht).2]
    exact hplaced.ready t (hlinked t ht).1
  · rw [hcurrent] at ht
    exact (honcpu t).trans (hplaced.oncpu c hc t ht)

theorem Placed.unlink (hplaced : Placed cfg k) (t : Tid) : Placed cfg (k.unlink t) := by
  refine hplaced.of_linked (fun _ => rfl) (fun _ => rfl) (fun u hu => ⟨?_, rfl⟩)
  obtain ⟨b, p, hmem⟩ := hu
  exact ⟨b, p, (List.mem_filter.mp hmem).1⟩

theorem Placed.insertThread (hplaced : Placed cfg k) (c : Nat) (t : Tid) :
    Placed cfg (rtScheduleInsertThread cfg c t k) := by
  have honcpu : ∀ u, ((rtScheduleInsertThread cfg c t k).thread u).oncpu = (k.thread u).oncpu := by
    intro u
    rw [rtScheduleInsertThread_thread]
    by_cases hu : u = t
    · subst hu
      simp
    · simp [hu]
  have hlinked : ∀ u, (rtScheduleInsertThread cfg c t k).Linked u →
      k.Linked u ∨ (u = t ∧ (k.thread t).oncpu = cfg.cpuDetached) := by
    intro u hu
    by_cases hdetached : (k.thread t).oncpu = cfg.cpuDetached
    · exact ((linked_rtScheduleInsertThread hdetached).mp hu).imp_right fun h => ⟨h, hdetached⟩
    · exact .inl ((linked_rtScheduleInsertThread_of_running hdetached).mp hu)
  refine ⟨fun c₁ h₁ c₂ h₂ u hu₁ hu₂ => ?_, fun c' hc' u hu hlink => ?_, fun u hu => ?_,
    fun c' hc' u hu => ?_⟩
  · rw [rtScheduleInsertThread_currentThread] at hu₁ hu₂
    exact hplaced.once c₁ h₁ c₂ h₂ u hu₁ hu₂
  · rw [rtScheduleInsertThread_currentThread] at hu
    rcases hlinked u hlink with hold | ⟨rfl, hdetached⟩
    · exact hplaced.free c' hc' u hu hold
    · rw [hplaced.oncpu c' hc' u hu] at hdetached
      exact Nat.ne_of_lt hc' hdetached
  · rw [rtScheduleInsertThread_thread]
    by_cases hut : u = t
    · subst hut
      simp
    · rw [update_of_ne hut]
      rcases hlinked u hu with hold | ⟨heq, -⟩
      · exact hplaced.ready u hold
      · exact absurd heq hut
  · rw [rtScheduleInsertThread_currentThread] at hu
    exact (honcpu u).trans (hplaced.oncpu c' hc' u hu)

theorem Quiet.interruptEnter : Quiet k (rtInterruptEnter c k) := .setCpu rfl

theorem Quiet.interruptLeave : Quiet k (rtInterruptLeave c k) := .setCpu rfl

end Schedule

/-- Two CPUs with their idle threads 0 and 1; CPU 1 runs thread 2, so that its idle
thread is queued. -/
def busyKernel : Kernel where
  thread := fun t =>
    { (Thread.init (Config.flat 2) 31).setPriority (Config.flat 2) (if t = 2 then 8 else 31) with
      stat := if t < 3 then .ready else .init
      bindCpu := if t = 0 then 0 else 1
      oncpu := if t = 0 then 0 else if t = 2 then 1 else 2 }
  cpu := fun c =>
    { currentThread := if c = 0 then some 0 else some 2
      started := true
      irqNest := 0
      irqSwitchFlag := false
      currentPriority := if c = 0 then 31 else 8
      ipiPending := false }
  queue := fun b =>
    { priorityTable := fun p => if b = 1 ∧ p = 31 then [1] else []
      priorityGroup := if b = 1 then 1#32 <<< 31 else 0
      readyTable := fun _ => 0 }
  removalsAgree := true

theorem busyKernel_placed : Placed (Config.flat 2) busyKernel := by
  have hlinked : ∀ t, busyKernel.Linked t → t = 1 := by
    rintro t ⟨b, p, hmem⟩
    simp only [busyKernel] at hmem
    split at hmem
    · exact List.mem_singleton.mp hmem
    · cases hmem
  refine ⟨fun c hc c' hc' t ht ht' => ?_, fun c hc t ht hlink => ?_, fun t ht => ?_,
    fun c hc t ht => ?_⟩
  · simp only [busyKernel, Config.flat] at hc hc' ht ht'
    split at ht <;> split at ht' <;> first | omega | (cases ht; cases ht')
  · rw [hlinked t hlink] at ht
    simp only [busyKernel] at ht
    split at ht <;> cases ht
  · rw [hlinked t ht]
    rfl
  · simp only [busyKernel, Config.flat] at hc ht ⊢
    split at ht <;> cases ht
    · simp [*]
    · simp
      omega

theorem busyKernel_unrepeated : busyKernel.Unrepeated := by
  have hlist : ∀ b p, (busyKernel.queue b).priorityTable p = if b = 1 ∧ p = 31 then [1] else [] :=
    fun _ _ => rfl
  refine ⟨fun b p => ?_, fun t b p b' p' hmem hmem' => ?_⟩
  · rw [hlist]
    split <;> decide
  · rw [hlist] at hmem hmem'
    split at hmem
    next hat =>
      split at hmem'
      next hat' => exact ⟨hat.1.trans hat'.1.symm, hat.2.trans hat'.2.symm⟩
      · cases hmem'
    · cases hmem

end RtThread.Scheduler
