import RtThread.Driver.WorkQueue
import RtThread.Ipc.SemaphoreTokens

namespace RtThread.Driver

open Function RtThread.Ipc RtThread.Lib

namespace WorkQueue

def remaining (s : WorkQueue) : Nat :=
  match s.phase with
  | .trytake => 2 * (s.waiters + 2 - s.iterations)
  | .release => 2 * (s.waiters + 2 - s.iterations) + 1
  | _ => 0

def Completing (s : WorkQueue) : Prop := s.phase = .trytake ∨ s.phase = .release

/-- What `rt_workqueue_cancel_work_sync` can rely on. -/
structure Synchronous (s : WorkQueue) : Prop where
  /-- A call returns when its execution is among those finished. -/
  returned : ∀ entry ∈ s.returns, entry.1 ≤ entry.2
  /-- A call for the running work does not return at once. -/
  waits : ∀ t w s', s.workCurrent = some (.work w) → s.exec (.cancelWorkSync t w) = some s' →
    (s'.sem.thread t).stat = .suspend ∧ s'.awaited t = s.executed.length
  /-- The worker is never held up in the completion and comes to its end. -/
  completes : s.Completing → ∃ s', s.exec .worker = some s' ∧ s'.remaining < s.remaining
  undisturbed : s.Completing → ∀ op s', op ≠ .worker → s.exec op = some s' →
    s'.Completing ∧ s'.remaining = s.remaining
  bounded : s.iterations ≤ s.waiters + 2
  /-- Outside of an execution and its completion nobody waits. -/
  quiet : s.workCurrent = none → ¬ s.Completing →
    s.sem.value = 0 ∧ s.sem.suspendThread = [] ∧
      ∀ t, s.sem.call t = true → (s.sem.thread t).stat = .ready

def CompletionOk (s : WorkQueue) : Prop :=
  match s.phase with
  | .running => s.sem.value = 0 ∧ s.iterations ≤ s.waiters + 2
  | .clean => s.sem.value = 0 ∧ s.iterations ≤ s.waiters + 2
  | .trytake =>
    s.sem.value = 0 ∧ s.iterations + s.sem.suspendThread.length = s.waiters ∨
      s.sem.value = 1 ∧ s.sem.suspendThread = [] ∧ s.iterations = s.waiters + 1
  | .release => s.sem.value = 0 ∧ s.iterations + s.sem.suspendThread.length = s.waiters + 1
  | _ => s.sem.value = 0 ∧ s.sem.suspendThread = [] ∧ s.iterations ≤ s.waiters + 2

structure Broadcast (s : WorkQueue) : Prop where
  sem : SemInv s.sem
  waiting : ∀ t ∈ s.sem.suspendThread, s.awaited t = s.executed.length
  woken : ∀ t, s.sem.call t = true → t ∉ s.sem.suspendThread → s.awaited t ≤ s.finished
  count : s.executed.length = s.finished + if s.phase = .running then 1 else 0
  current : s.workCurrent ≠ none ↔ s.phase = .running ∨ s.phase = .clean
  completion : s.CompletionOk
  returned : ∀ entry ∈ s.returns, entry.1 ≤ entry.2

section Steps

variable {s s' : WorkQueue} {op : WorkOp} {t : Tid} {w : Work}

section

variable (hb : s.Broadcast)
include hb

theorem Broadcast.of_same (hsem : s'.sem = s.sem)
    (hawaited : s'.awaited = s.awaited) (hexecuted : s'.executed = s.executed)
    (hfinished : s'.finished = s.finished) (hphase : s'.phase = s.phase)
    (hcurrent : s'.workCurrent = s.workCurrent) (hreturns : s'.returns = s.returns)
    (hwaiters : s'.waiters = s.waiters) (hiterations : s'.iterations = s.iterations) :
    s'.Broadcast := by
  obtain ⟨_, current, _, sem, _, phase, _, _, _, _, _, executed, finished, awaited, returns,
    waiters, iterations⟩ := s'
  subst hsem hawaited hexecuted hfinished hphase hcurrent hreturns hwaiters hiterations
  exact ⟨hb.sem, hb.waiting, hb.woken, hb.count, hb.current, hb.completion, hb.returned⟩

theorem Broadcast.submit : (s.submit w).Broadcast := by
  unfold WorkQueue.submit
  split
  · exact hb
  · exact hb.of_same rfl rfl rfl rfl rfl rfl rfl rfl rfl

theorem Broadcast.removeNode (node : WorkNode) : (s.removeNode node).Broadcast :=
  hb.of_same rfl rfl rfl rfl rfl rfl rfl rfl rfl

theorem Broadcast.value_of_current (hcurrent : s.workCurrent ≠ none) :
    s.sem.value = 0 ∧ s.iterations ≤ s.waiters + 2 := by
  have hcompletion := hb.completion
  rcases hb.current.mp hcurrent with hphase | hphase
  · simpa only [CompletionOk, hphase] using hcompletion
  · simpa only [CompletionOk, hphase] using hcompletion

theorem Broadcast.take_eq (hcurrent : s.workCurrent ≠ none) :
    rtSemTake t (-1) s.sem = semSuspend t (-1) s.sem := by
  simp [rtSemTake, (hb.value_of_current hcurrent).1]

theorem Broadcast.sleep (hcurrent : s.workCurrent ≠ none)
    (hready : (s.sem.thread t).stat = .ready) (hcall : s.sem.call t = false) :
    { s with
      sem := semSuspend t (-1) s.sem
      awaited := update s.awaited t s.executed.length }.Broadcast where
  sem := hb.sem.suspend hready hcall (hb.value_of_current hcurrent).1
  waiting := by
    intro u hu
    rcases eq_or_ne u t with rfl | hne
    · exact update_self _ _ _
    · change update s.awaited t _ u = _
      rw [update_of_ne hne]
      exact hb.waiting u ((mem_listSuspend.mp hu).resolve_left hne)
  woken := by
    intro u hcalls hfree
    rcases eq_or_ne u t with rfl | hne
    · exact absurd (mem_listSuspend.mpr (.inl rfl)) hfree
    · change update s.awaited t _ u ≤ _
      rw [update_of_ne hne]
      refine hb.woken u ?_ fun hmem => hfree (mem_listSuspend.mpr (.inr hmem))
      have hsame : update s.sem.call t true u = true := hcalls
      rwa [update_of_ne hne] at hsame
  count := hb.count
  current := hb.current
  completion := by
    have hvalue := hb.value_of_current hcurrent
    rcases hb.current.mp hcurrent with hphase | hphase
    · simp only [CompletionOk, hphase]
      exact hvalue
    · simp only [CompletionOk, hphase]
      exact hvalue
  returned := hb.returned

theorem Broadcast.cancelWorkSync (hready : (s.sem.thread t).stat = .ready)
    (hcall : s.sem.call t = false) : (s.rtWorkqueueCancelWorkSync t w).Broadcast := by
  unfold rtWorkqueueCancelWorkSync
  split
  next hcurrent =>
    have hbusy : s.workCurrent ≠ none := by
      rw [hcurrent]
      exact Option.some_ne_none _
    have hcalls : (semSuspend t (-1) s.sem).call t = true := update_self _ _ _
    dsimp only
    rw [hb.take_eq hbusy, if_pos hcalls]
    exact hb.sleep hbusy hready hcall
  · exact hb.removeNode _

theorem Broadcast.cancelWorkSyncEnd (hcall : s.sem.call t = true)
    (hready : (s.sem.thread t).stat = .ready) : (s.cancelWorkSyncEnd t).Broadcast where
  sem := hb.sem.takeEnd hcall hready
  waiting := hb.waiting
  woken := by
    intro u hcalls hfree
    refine hb.woken u ?_ hfree
    have hsame : update s.sem.call t false u = true := hcalls
    rcases eq_or_ne u t with rfl | hne
    · exact hcall
    · rwa [update_of_ne hne] at hsame
  count := hb.count
  current := hb.current
  completion := hb.completion
  returned := by
    intro entry hentry
    rcases List.mem_append.mp hentry with hold | hnew
    · exact hb.returned entry hold
    · rw [List.mem_singleton.mp hnew]
      exact hb.woken t hcall (hb.sem.queue.not_mem_of_ready hready)

theorem Broadcast.advance {phase : WorkerPhase} {stat : ThreadStat}
    (hbefore : s.phase ≠ .running ∧ s.phase ≠ .clean)
    (hafter : phase ≠ .running ∧ phase ≠ .clean)
    (hcompletion : { s with phase := phase, stat := stat }.CompletionOk) :
    { s with phase := phase, stat := stat }.Broadcast where
  sem := hb.sem
  waiting := hb.waiting
  woken := hb.woken
  count := by
    have hcount := hb.count
    rw [if_neg hbefore.1] at hcount
    rw [if_neg hafter.1]
    exact hcount
  current := by
    have hidle : ¬ s.workCurrent ≠ none := fun hbusy =>
      (hb.current.mp hbusy).elim hbefore.1 hbefore.2
    constructor
    · intro hbusy
      exact absurd hbusy hidle
    · intro hphase
      exact (hphase.elim hafter.1 hafter.2).elim
  completion := hcompletion
  returned := hb.returned

theorem Broadcast.sem_step {sem : SemSystem} {phase : WorkerPhase}
    (iterations : Nat) (hbefore : s.phase ≠ .running ∧ s.phase ≠ .clean)
    (hafter : phase ≠ .running ∧ phase ≠ .clean) (hsem : SemInv sem)
    (hcall : sem.call = s.sem.call) (hlist : ∀ t ∈ sem.suspendThread, t ∈ s.sem.suspendThread)
    (hcompletion : { s with sem := sem, phase := phase, iterations := iterations }.CompletionOk) :
    { s with sem := sem, phase := phase, iterations := iterations }.Broadcast := by
  have hcount := hb.count
  rw [if_neg hbefore.1] at hcount
  refine ⟨hsem, fun t ht => hb.waiting t (hlist t ht), ?_, ?_, ?_, hcompletion, hb.returned⟩
  · intro t hcalls hfree
    by_cases hmem : t ∈ s.sem.suspendThread
    · have hawaited := hb.waiting t hmem
      change s.awaited t ≤ s.finished
      omega
    · exact hb.woken t (by rw [← hcall]; exact hcalls) hmem
  · rw [if_neg hafter.1]
    exact hcount
  · have hidle : ¬ s.workCurrent ≠ none := fun hbusy =>
      (hb.current.mp hbusy).elim hbefore.1 hbefore.2
    exact ⟨fun hbusy => absurd hbusy hidle, fun hphase => (hphase.elim hafter.1 hafter.2).elim⟩

theorem Broadcast.trytake (hphase : s.phase = .trytake) (hexec : s.worker = some s') :
    s'.Broadcast ∧ s'.remaining < s.remaining := by
  have hbefore : s.phase ≠ .running ∧ s.phase ≠ .clean := by
    rw [hphase]
    decide
  have hcompletion := hb.completion
  simp only [CompletionOk, hphase] at hcompletion
  simp only [worker, hphase, Option.some.injEq] at hexec
  subst hexec
  rcases hcompletion with ⟨hvalue, hcount⟩ | ⟨hvalue, hempty, hcount⟩
  · have hsem : rtSemTrytake s.workThread s.sem = { s.sem with result := some (-rtEtimeout) } := by
      simp [rtSemTrytake, rtSemTake, hvalue]
    simp only [hsem, if_true]
    refine ⟨hb.sem_step _ hbefore (by decide) ?_ rfl (fun _ ht => ht) ?_, ?_⟩
    · exact hb.sem.of_value rfl rfl rfl rfl rfl hb.sem.value_lt hb.sem.waiters
    · simp only [CompletionOk]
      exact ⟨hvalue, by omega⟩
    · simp only [remaining, hphase]
      omega
  · have hsem : rtSemTrytake s.workThread s.sem = semAvailable s.sem := by
      simp [rtSemTrytake, rtSemTake, hvalue]
    have hresult : (semAvailable s.sem).result ≠ some (-rtEtimeout) := by
      simp [semAvailable, rtEok, rtEtimeout]
    simp only [hsem, hresult, if_false]
    refine ⟨hb.sem_step _ hbefore (by decide) (hb.sem.available (by omega)) rfl (fun _ ht => ht) ?_,
      ?_⟩
    · simp only [CompletionOk, semAvailable, hvalue]
      exact ⟨rfl, hempty, by omega⟩
    · simp only [remaining, hphase]
      omega

theorem Broadcast.release (hphase : s.phase = .release) (hexec : s.worker = some s') :
    s'.Broadcast ∧ s'.remaining < s.remaining := by
  have hbefore : s.phase ≠ .running ∧ s.phase ≠ .clean := by
    rw [hphase]
    decide
  have hcompletion := hb.completion
  simp only [CompletionOk, hphase] at hcompletion
  obtain ⟨hvalue, hcount⟩ := hcompletion
  simp only [worker, hphase, Option.some.injEq] at hexec
  subst hexec
  have hless : { s with sem := rtSemRelease s.sem, phase := .trytake }.remaining < s.remaining := by
    simp only [remaining, hphase]
    omega
  refine ⟨?_, hless⟩
  cases hlist : s.sem.suspendThread with
  | nil =>
    have hsem : rtSemRelease s.sem = { s.sem with
        result := none, releases := s.sem.releases + 1, value := inc16 s.sem.value } := by
      simp [rtSemRelease, hlist]
    refine hb.sem_step s.iterations hbefore (by decide) hb.sem.release ?_ ?_ ?_
    · rw [hsem]
    · rw [hsem]
      exact fun _ ht => ht
    · rw [hlist, List.length_nil] at hcount
      simp only [CompletionOk, hsem, hvalue]
      exact .inr ⟨rfl, hlist, by omega⟩
  | cons first rest =>
    have hsem := rtSemRelease_cons hb.sem hlist
    refine hb.sem_step s.iterations hbefore (by decide) hb.sem.release ?_ ?_ ?_
    · rw [hsem]
    · rw [hsem, hlist]
      exact fun _ ht => List.mem_cons_of_mem first ht
    · rw [hlist, List.length_cons] at hcount
      simp only [CompletionOk, hsem]
      exact .inl ⟨hvalue, by omega⟩

theorem Broadcast.worker (hexec : s.worker = some s') : s'.Broadcast := by
  have hcompletion := hb.completion
  have hcount := hb.count
  cases hphase : s.phase with
  | test =>
    simp only [WorkQueue.worker, hphase, Option.some.injEq] at hexec
    simp only [CompletionOk, hphase] at hcompletion
    subst hexec
    by_cases hlist : s.workList = []
    · rw [if_pos hlist]
      exact hb.advance (by rw [hphase]; decide) (by decide) hcompletion
    · rw [if_neg hlist]
      exact hb.advance (by rw [hphase]; decide) (by decide) hcompletion
  | suspend =>
    simp only [WorkQueue.worker, hphase, Option.some.injEq] at hexec
    simp only [CompletionOk, hphase] at hcompletion
    subst hexec
    exact hb.advance (by rw [hphase]; decide) (by decide) hcompletion
  | scheduled =>
    simp only [WorkQueue.worker, hphase, Option.ite_none_right_eq_some, Option.some.injEq] at hexec
    simp only [CompletionOk, hphase] at hcompletion
    obtain ⟨-, rfl⟩ := hexec
    exact hb.advance (by rw [hphase]; decide) (by decide) hcompletion
  | take =>
    simp only [WorkQueue.worker, hphase, Option.some.injEq] at hexec
    simp only [CompletionOk, hphase] at hcompletion
    simp only [hphase, reduceCtorEq, if_false] at hcount
    obtain ⟨hvalue, hempty, hbound⟩ := hcompletion
    subst hexec
    refine ⟨hb.sem, fun t ht => ?_, hb.woken, ?_, ?_, ⟨hvalue, hbound⟩, hb.returned⟩
    · have hmem : t ∈ s.sem.suspendThread := ht
      rw [hempty] at hmem
      exact absurd hmem List.not_mem_nil
    · simp only [List.length_append, List.length_singleton, if_true]
      exact congrArg (· + 1) hcount
    · exact ⟨fun _ => .inl rfl, fun _ => Option.some_ne_none _⟩
  | running =>
    simp only [WorkQueue.worker, hphase] at hexec
    simp only [CompletionOk, hphase] at hcompletion
    simp only [hphase, if_true] at hcount
    split at hexec
    next w hcurrent =>
      cases hexec
      refine ⟨hb.sem, hb.waiting, fun t hcalls hfree => ?_, hcount, ?_, hcompletion, hb.returned⟩
      · exact Nat.le_succ_of_le (hb.woken t hcalls hfree)
      · refine ⟨fun _ => .inr rfl, fun _ => ?_⟩
        rw [hcurrent]
        exact Option.some_ne_none _
    · cases hexec
  | clean =>
    simp only [WorkQueue.worker, hphase, Option.some.injEq] at hexec
    simp only [CompletionOk, hphase] at hcompletion
    simp only [hphase, reduceCtorEq, if_false] at hcount
    subst hexec
    refine ⟨hb.sem, hb.waiting, hb.woken, hcount, ?_, ?_, hb.returned⟩
    · exact ⟨fun hbusy => absurd rfl hbusy, fun h => by rcases h with h | h <;> cases h⟩
    · exact .inl ⟨hcompletion.1, Nat.zero_add _⟩
  | trytake => exact (hb.trytake hphase hexec).1
  | release => exact (hb.release hphase hexec).1

theorem Broadcast.step (hexec : s.exec op = some s') : s'.Broadcast := by
  cases op with
  | dowork w =>
    cases hexec
    exact hb.submit
  | criticalWork w =>
    cases hexec
    exact hb.submit
  | resumeTest =>
    simp only [exec, Option.ite_none_right_eq_some, Option.some.injEq] at hexec
    obtain ⟨-, rfl⟩ := hexec
    exact hb.of_same rfl rfl rfl rfl rfl rfl rfl rfl rfl
  | resumeInsert =>
    simp only [exec, Option.ite_none_right_eq_some, Option.some.injEq] at hexec
    obtain ⟨-, rfl⟩ := hexec
    exact hb.of_same rfl rfl rfl rfl rfl rfl rfl rfl rfl
  | cancelWork w =>
    cases hexec
    unfold rtWorkqueueCancelWork
    split
    · exact hb
    · exact hb.removeNode _
  | cancelWorkSync t w =>
    simp only [exec, Option.ite_none_right_eq_some, Option.some.injEq] at hexec
    obtain ⟨⟨-, hready, hcall⟩, rfl⟩ := hexec
    exact hb.cancelWorkSync hready hcall
  | cancelWorkSyncEnd t =>
    simp only [exec, Option.ite_none_right_eq_some, Option.some.injEq] at hexec
    obtain ⟨⟨hcall, hready⟩, rfl⟩ := hexec
    exact hb.cancelWorkSyncEnd hcall hready
  | cancelAllBegin =>
    cases hexec
    exact hb.of_same rfl rfl rfl rfl rfl rfl rfl rfl rfl
  | cancelAllNext i =>
    simp only [exec] at hexec
    split at hexec
    · simp only [Option.ite_none_right_eq_some, Option.some.injEq] at hexec
      obtain ⟨-, rfl⟩ := hexec
      exact hb.of_same rfl rfl rfl rfl rfl rfl rfl rfl rfl
    · cases hexec
  | cancelAllRemove i =>
    simp only [exec] at hexec
    split at hexec
    · split at hexec
      · cases hexec
        exact hb.of_same rfl rfl rfl rfl rfl rfl rfl rfl rfl
      · cases hexec
    · cases hexec
  | cancelAllEnd i =>
    simp only [exec] at hexec
    split at hexec
    · simp only [Option.ite_none_right_eq_some, Option.some.injEq] at hexec
      obtain ⟨-, rfl⟩ := hexec
      exact hb.of_same rfl rfl rfl rfl rfl rfl rfl rfl rfl
    · cases hexec
  | worker => exact hb.worker hexec

end

theorem phase_of_call (hop : op ≠ .worker) (hexec : s.exec op = some s') :
    s'.phase = s.phase ∧ s'.waiters = s.waiters ∧ s'.iterations = s.iterations := by
  cases op with
  | dowork w =>
    cases hexec
    unfold rtWorkqueueDowork WorkQueue.submit
    split <;> exact ⟨rfl, rfl, rfl⟩
  | criticalWork w =>
    cases hexec
    unfold rtWorkqueueCriticalWork WorkQueue.submit
    split <;> exact ⟨rfl, rfl, rfl⟩
  | resumeTest =>
    simp only [exec, Option.ite_none_right_eq_some, Option.some.injEq] at hexec
    obtain ⟨-, rfl⟩ := hexec
    exact ⟨rfl, rfl, rfl⟩
  | resumeInsert =>
    simp only [exec, Option.ite_none_right_eq_some, Option.some.injEq] at hexec
    obtain ⟨-, rfl⟩ := hexec
    exact ⟨rfl, rfl, rfl⟩
  | cancelWork w =>
    cases hexec
    unfold rtWorkqueueCancelWork
    split <;> exact ⟨rfl, rfl, rfl⟩
  | cancelWorkSync t w =>
    simp only [exec, Option.ite_none_right_eq_some, Option.some.injEq] at hexec
    obtain ⟨-, rfl⟩ := hexec
    unfold rtWorkqueueCancelWorkSync
    split <;> exact ⟨rfl, rfl, rfl⟩
  | cancelWorkSyncEnd t =>
    simp only [exec, Option.ite_none_right_eq_some, Option.some.injEq] at hexec
    obtain ⟨-, rfl⟩ := hexec
    exact ⟨rfl, rfl, rfl⟩
  | cancelAllBegin =>
    cases hexec
    exact ⟨rfl, rfl, rfl⟩
  | cancelAllNext i =>
    simp only [exec] at hexec
    split at hexec
    · simp only [Option.ite_none_right_eq_some, Option.some.injEq] at hexec
      obtain ⟨-, rfl⟩ := hexec
      exact ⟨rfl, rfl, rfl⟩
    · cases hexec
  | cancelAllRemove i =>
    simp only [exec] at hexec
    split at hexec
    · split at hexec
      · cases hexec
        exact ⟨rfl, rfl, rfl⟩
      · cases hexec
    · cases hexec
  | cancelAllEnd i =>
    simp only [exec] at hexec
    split at hexec
    · simp only [Option.ite_none_right_eq_some, Option.some.injEq] at hexec
      obtain ⟨-, rfl⟩ := hexec
      exact ⟨rfl, rfl, rfl⟩
    · cases hexec
  | worker => exact absurd rfl hop

theorem Broadcast.worker_completing (hb : s.Broadcast) (hcompleting : s.Completing) :
    ∃ s', s.exec .worker = some s' ∧ s'.remaining < s.remaining := by
  rcases hcompleting with hphase | hphase
  · obtain ⟨s', hexec⟩ : ∃ s', s.worker = some s' := by simp [WorkQueue.worker, hphase]
    exact ⟨s', hexec, (hb.trytake hphase hexec).2⟩
  · obtain ⟨s', hexec⟩ : ∃ s', s.worker = some s' := by simp [WorkQueue.worker, hphase]
    exact ⟨s', hexec, (hb.release hphase hexec).2⟩

theorem Broadcast.iterations_le (hb : s.Broadcast) : s.iterations ≤ s.waiters + 2 := by
  have hcompletion := hb.completion
  cases hphase : s.phase with
  | running =>
    simp only [CompletionOk, hphase] at hcompletion
    exact hcompletion.2
  | clean =>
    simp only [CompletionOk, hphase] at hcompletion
    exact hcompletion.2
  | trytake =>
    simp only [CompletionOk, hphase] at hcompletion
    omega
  | release =>
    simp only [CompletionOk, hphase] at hcompletion
    omega
  | _ =>
    simp only [CompletionOk, hphase] at hcompletion
    exact hcompletion.2.2

theorem Broadcast.quiet (hb : s.Broadcast) (hidle : s.workCurrent = none)
    (hcompleting : ¬ s.Completing) : s.sem.value = 0 ∧ s.sem.suspendThread = [] := by
  have hcompletion := hb.completion
  have hnot : ¬ (s.phase = .running ∨ s.phase = .clean) := fun hphase =>
    hb.current.mpr hphase hidle
  rw [not_or] at hnot
  simp only [Completing, not_or] at hcompleting
  cases hphase : s.phase with
  | running => exact absurd hphase hnot.1
  | clean => exact absurd hphase hnot.2
  | trytake => exact absurd hphase hcompleting.1
  | release => exact absurd hphase hcompleting.2
  | _ =>
    simp only [CompletionOk, hphase] at hcompletion
    exact ⟨hcompletion.1, hcompletion.2.1⟩

theorem Broadcast.stat_of_call (hb : s.Broadcast) (hcall : s.sem.call t = true)
    (hfree : t ∉ s.sem.suspendThread) : (s.sem.thread t).stat = .ready := by
  cases hb.sem.calls t with
  | outside hnone => rw [hcall] at hnone; cases hnone
  | waiting _ _ _ hmem => exact absurd hmem hfree
  | granted _ hready => exact hready
  | grantedBefore _ hready => exact hready
  | refused _ hready => exact hready

theorem Broadcast.waits (hb : s.Broadcast) (hcurrent : s.workCurrent = some (.work w))
    (hexec : s.exec (.cancelWorkSync t w) = some s') :
    (s'.sem.thread t).stat = .suspend ∧ s'.awaited t = s.executed.length := by
  have hbusy : s.workCurrent ≠ none := by
    rw [hcurrent]
    exact Option.some_ne_none _
  simp only [exec, Option.ite_none_right_eq_some, Option.some.injEq] at hexec
  obtain ⟨⟨-, hready, hcall⟩, rfl⟩ := hexec
  simp only [rtWorkqueueCancelWorkSync, if_pos hcurrent, hb.take_eq hbusy, update_self, and_true]
  have hslept := (hb.sleep hbusy hready hcall).sem.queue
  exact (hslept.mem_iff t).mp (mem_listSuspend.mpr (.inl rfl))

theorem Broadcast.synchronous (hb : s.Broadcast) : s.Synchronous where
  returned := hb.returned
  waits := fun _ _ _ hcurrent hexec => hb.waits hcurrent hexec
  completes := hb.worker_completing
  undisturbed := by
    intro hcompleting op s' hop hexec
    obtain ⟨hphase, hwaiters, hiterations⟩ := phase_of_call hop hexec
    simp only [Completing, remaining, hphase, hwaiters, hiterations]
    exact ⟨hcompleting, trivial⟩
  bounded := hb.iterations_le
  quiet := by
    intro hidle hcompleting
    obtain ⟨hvalue, hempty⟩ := hb.quiet hidle hcompleting
    refine ⟨hvalue, hempty, fun t hcall => hb.stat_of_call hcall ?_⟩
    rw [hempty]
    exact List.not_mem_nil

theorem Initial.broadcast (hinit : s.Initial) : s.Broadcast where
  sem := semInitial_inv hinit.sem
  waiting := by
    intro t ht
    rw [hinit.sem.suspendThread] at ht
    exact absurd ht List.not_mem_nil
  woken := by
    intro t hcall
    rw [hinit.sem.call t] at hcall
    cases hcall
  count := by simp [hinit.executed, hinit.finished, hinit.phase]
  current := by simp [hinit.workCurrent, hinit.phase]
  completion := by
    simp only [CompletionOk, hinit.phase]
    exact ⟨hinit.value, hinit.sem.suspendThread, by rw [hinit.iterations]; exact Nat.zero_le _⟩
  returned := by simp [hinit.returns]

/-- In every run `rt_workqueue_cancel_work_sync` waits for the execution it found. -/
theorem reachable_synchronous (hreach : workQueueMachine.Reachable (fun _ _ => True) s) :
    s.Synchronous := by
  have hb : s.Broadcast := by
    refine hreach.invariant Broadcast (fun _ hinit => Initial.broadcast hinit) ?_
    intro before op after hbefore _ hexec
    exact hbefore.step hexec
  exact hb.synchronous

end Steps

def syncRun : List WorkOp :=
  [.dowork 7, .worker, .worker, .cancelWorkSync 1 7, .cancelWorkSync 2 7, .worker, .worker,
    .worker, .worker, .cancelWorkSyncEnd 1, .worker, .worker, .worker, .worker, .worker,
    .cancelWorkSyncEnd 2]

theorem reachable_synchronous_syncRun :
    ∃ s, workQueueMachine.Reachable (fun _ _ => True) s ∧ s.returns = [(1, 1), (1, 1)] ∧
      s.iterations = 4 ∧ s.phase = .test ∧ s.Synchronous := by
  have hrun : (workQueueMachine.run (fun _ _ => True) workQueueStart syncRun).map
      (fun s => (s.returns, s.iterations, decide (s.phase = .test))) =
      some ([(1, 1), (1, 1)], 4, true) := by
    decide +kernel
  obtain ⟨s, hreach, hend⟩ := Machine.exists_reachable_of_run workQueueStart_initial hrun
  simp only [Prod.mk.injEq, decide_eq_true_eq] at hend
  obtain ⟨hreturns, hiterations, hphase⟩ := hend
  exact ⟨s, hreach, hreturns, hiterations, hphase, reachable_synchronous hreach⟩

end WorkQueue

end RtThread.Driver
