import RtThread.Driver.Completion

namespace RtThread.Driver

open Function RtThread.Ipc RtThread.Lib

namespace Completion

def sleep (t : Tid) (timeout : Int) (s : Completion) : Completion :=
  { s.setThread t
      { ({ s.thread t with error := rtEok }).suspend with timerActive := 0 < timeout } with
    suspendedList := s.suspendedList ++ [t]
    waiter := some (t, .scheduled) }

inductive Step (s : Completion) : CompletionOp → Completion → Prop
  | take (t : Tid) (timeout : Int) (hidle : s.waiter = none) (hflag : s.flag = rtCompleted) :
      Step s (.wait t timeout) ({ s with flag := rtUncompleted }.record (.wait t rtEok))
  | refuse (t : Tid) (hidle : s.waiter = none) (hflag : s.flag ≠ rtCompleted) :
      Step s (.wait t 0) (s.record (.wait t (-rtEtimeout)))
  | sleep (t : Tid) (timeout : Int) (hidle : s.waiter = none) (hflag : s.flag ≠ rtCompleted)
      (hready : (s.thread t).stat = .ready) (hlist : s.suspendedList = []) :
      Step s (.wait t timeout) (s.sleep t timeout)
  | look (t : Tid) (hwaiter : s.waiter = some (t, .scheduled))
      (hready : (s.thread t).stat = .ready) : Step s (.look t) (s.look t)
  | clear (t : Tid) (result : Int) (hwaiter : s.waiter = some (t, .looked result)) :
      Step s (.clear t) (s.clear t result)
  | found (call : Nat) (hflag : s.flag = rtCompleted) :
      Step s (.doneTest call) (s.record (.done call))
  | enter (call : Nat) (hflag : s.flag ≠ rtCompleted) :
      Step s (.doneTest call) { s with entered := update s.entered call true }
  | doneSet (call : Nat) : Step s (.doneSet call) (s.doneSet call)
  | expire (t : Tid) (hsleeps : (s.thread t).stat = .suspend) : Step s (.expire t) (s.expire t)

inductive Waiting (s : Completion) : Prop
  | idle (hwaiter : s.waiter = none) (hlist : s.suspendedList = [])
  | asleep (t : Tid) (hwaiter : s.waiter = some (t, .scheduled))
      (hsleeps : (s.thread t).stat = .suspend) (herror : (s.thread t).error = rtEok)
      (hlist : s.suspendedList = [t]) (hflag : s.flag ≠ rtCompleted)
  | awake (t : Tid) (phase : WaitPhase) (hwaiter : s.waiter = some (t, phase))
      (hready : (s.thread t).stat = .ready) (hlist : s.suspendedList = [])

section Steps

variable {s s' : Completion} {op : CompletionOp} {t u : Tid} {call : Nat} {timeout result : Int}

theorem step_of_exec (hexec : s.exec op = some s') : s.Step op s' := by
  cases op with
  | wait t timeout =>
    simp only [exec, Option.ite_none_right_eq_some] at hexec
    obtain ⟨⟨hidle, hready⟩, hexec⟩ := hexec
    unfold rtCompletionWait at hexec
    split at hexec
    next hflag =>
      split at hexec
      · cases hexec
      next hlist =>
        split at hexec
        next hzero =>
          subst hzero
          cases hexec
          exact .refuse t hidle hflag
        · cases hexec
          exact .sleep t timeout hidle hflag hready (not_not.mp hlist)
    next hflag =>
      cases hexec
      exact .take t timeout hidle (not_not.mp hflag)
  | look t =>
    simp only [exec, Option.ite_none_right_eq_some, Option.some.injEq] at hexec
    obtain ⟨⟨hwaiter, hready⟩, rfl⟩ := hexec
    exact .look t hwaiter hready
  | clear t =>
    simp only [exec] at hexec
    split at hexec
    next u result hwaiter =>
      simp only [Option.ite_none_right_eq_some, Option.some.injEq] at hexec
      obtain ⟨rfl, rfl⟩ := hexec
      exact .clear t result hwaiter
    · cases hexec
  | doneTest call =>
    simp only [exec, Option.ite_none_right_eq_some, Option.some.injEq] at hexec
    obtain ⟨-, rfl⟩ := hexec
    unfold doneTest
    split
    next hflag => exact .found call hflag
    next hflag => exact .enter call hflag
  | doneSet call =>
    simp only [exec, Option.ite_none_right_eq_some, Option.some.injEq] at hexec
    obtain ⟨-, rfl⟩ := hexec
    exact .doneSet call
  | expire t =>
    simp only [exec, Option.ite_none_right_eq_some, Option.some.injEq] at hexec
    obtain ⟨⟨hsleeps, -⟩, rfl⟩ := hexec
    exact .expire t hsleeps

theorem setThread_thread_of_ne (hne : t ≠ u) (thread : Thread) :
    (s.setThread u thread).thread t = s.thread t := update_of_ne hne _ _

theorem doneSet_of_nil (hlist : s.suspendedList = []) :
    s.doneSet call = { s with
      flag := rtCompleted
      entered := update s.entered call false }.record (.done call) := by
  simp [doneSet, hlist]

theorem doneSet_of_asleep (hlist : s.suspendedList = [t])
    (hsleeps : (s.thread t).stat = .suspend) :
    s.doneSet call = { s with
      flag := rtCompleted
      entered := update s.entered call false
      thread := update s.thread t (s.thread t).resume
      suspendedList := [] }.record (.done call) := by
  simp [doneSet, hlist, hsleeps, setThread, record, listRemove]

theorem doneSet_log : (s.doneSet call).log = s.log ++ [.done call] := by
  unfold doneSet
  dsimp only
  split
  · rfl
  · split <;> rfl

theorem doneSet_flag : (s.doneSet call).flag = rtCompleted := by
  unfold doneSet
  dsimp only
  split
  · rfl
  · split <;> rfl

theorem Waiting.list_of_idle (hwaiting : s.Waiting) (hidle : s.waiter = none) :
    s.suspendedList = [] := by
  cases hwaiting with
  | idle _ hlist => exact hlist
  | asleep t hwaiter => rw [hidle] at hwaiter; cases hwaiter
  | awake t phase hwaiter => rw [hidle] at hwaiter; cases hwaiter

theorem Waiting.list_of_ready {phase : WaitPhase} (hwaiting : s.Waiting)
    (hwaiter : s.waiter = some (t, phase)) (hready : (s.thread t).stat = .ready) :
    s.suspendedList = [] := by
  cases hwaiting with
  | idle _ hlist => exact hlist
  | asleep u hother hsleeps =>
    rw [hwaiter] at hother
    cases hother
    rw [hready] at hsleeps
    cases hsleeps
  | awake _ _ _ _ hlist => exact hlist

theorem Waiting.looked (hwaiting : s.Waiting) (hwaiter : s.waiter = some (t, .looked result)) :
    (s.thread t).stat = .ready ∧ s.suspendedList = [] := by
  cases hwaiting with
  | idle hidle => rw [hidle] at hwaiter; cases hwaiter
  | asleep u hother => rw [hwaiter] at hother; cases hother
  | awake u phase hother hready hlist =>
    rw [hwaiter] at hother
    cases hother
    exact ⟨hready, hlist⟩

theorem Waiting.step (hwaiting : s.Waiting) (hstep : s.Step op s') : s'.Waiting := by
  cases hstep with
  | take t timeout hidle hflag => exact .idle hidle (hwaiting.list_of_idle hidle)
  | refuse t hidle hflag => exact .idle hidle (hwaiting.list_of_idle hidle)
  | sleep t timeout hidle hflag hready hlist =>
    refine .asleep t rfl ?_ ?_ ?_ hflag
    · simp [Completion.sleep, setThread, Thread.suspend, hready]
    · simp [Completion.sleep, setThread]
    · simp [Completion.sleep, hlist]
  | look t hwaiter hready =>
    exact .awake t _ rfl hready (hwaiting.list_of_ready hwaiter hready)
  | clear t result hwaiter => exact .idle rfl (hwaiting.looked hwaiter).2
  | found call hflag =>
    cases hwaiting with
    | idle hidle hlist => exact .idle hidle hlist
    | asleep t hwaiter hsleeps herror hlist hclear => exact absurd hflag hclear
    | awake t phase hwaiter hready hlist => exact .awake t phase hwaiter hready hlist
  | enter call hflag =>
    cases hwaiting with
    | idle hidle hlist => exact .idle hidle hlist
    | asleep t hwaiter hsleeps herror hlist hclear =>
      exact .asleep t hwaiter hsleeps herror hlist hclear
    | awake t phase hwaiter hready hlist => exact .awake t phase hwaiter hready hlist
  | doneSet call =>
    cases hwaiting with
    | idle hidle hlist =>
      rw [doneSet_of_nil hlist]
      exact .idle hidle hlist
    | asleep t hwaiter hsleeps herror hlist hclear =>
      rw [doneSet_of_asleep hlist hsleeps]
      refine .awake t .scheduled hwaiter ?_ rfl
      simp [record, Thread.resume_stat _ hsleeps]
    | awake t phase hwaiter hready hlist =>
      rw [doneSet_of_nil hlist]
      exact .awake t phase hwaiter hready hlist
  | expire u hsleeps =>
    cases hwaiting with
    | idle hidle hlist => exact .idle hidle (by simp [Completion.expire, hlist, listRemove])
    | asleep t hwaiter hasleep herror hlist hclear =>
      rcases eq_or_ne t u with rfl | hne
      · refine .awake t .scheduled hwaiter ?_ ?_
        · simp [Completion.expire, setThread, Thread.expire]
        · simp [Completion.expire, hlist, listRemove]
      · have hsame : (s.expire u).thread t = s.thread t := setThread_thread_of_ne hne _
        refine .asleep t hwaiter (by rw [hsame, hasleep]) (by rw [hsame, herror]) ?_ hclear
        simp [Completion.expire, hlist, listRemove, hne]
    | awake t phase hwaiter hready hlist =>
      have hne : t ≠ u := by
        rintro rfl
        rw [hready] at hsleeps
        cases hsleeps
      have hsame : (s.expire u).thread t = s.thread t := setThread_thread_of_ne hne _
      exact .awake t phase hwaiter (by rw [hsame, hready])
        (by simp [Completion.expire, hlist, listRemove])

theorem Step.log (hstep : s.Step op s') : s'.log = s.log ∨ ∃ event, s'.log = s.log ++ [event] := by
  cases hstep with
  | take => exact .inr ⟨_, rfl⟩
  | refuse => exact .inr ⟨_, rfl⟩
  | sleep => exact .inl rfl
  | look => exact .inl rfl
  | clear => exact .inr ⟨_, rfl⟩
  | found => exact .inr ⟨_, rfl⟩
  | enter => exact .inl rfl
  | doneSet call => exact .inr ⟨_, doneSet_log⟩
  | expire => exact .inl rfl

theorem Served.step (hserved : s.Served t) (hwaiting : s.Waiting) (hstep : s.Step op s') :
    s'.log = s.log ++ [.wait t rtEok] ∨
      s'.Served t ∧ (s'.log = s.log ∨ ∃ call, s'.log = s.log ++ [.done call]) := by
  obtain ⟨hphase, hready⟩ := hserved
  have hbusy : s.waiter ≠ none := by
    rintro hidle
    rcases hphase with ⟨hwaiter, -⟩ | hwaiter
    · rw [hidle] at hwaiter; cases hwaiter
    · rw [hidle] at hwaiter; cases hwaiter
  cases hstep with
  | take u timeout hidle => exact absurd hidle hbusy
  | refuse u hidle => exact absurd hidle hbusy
  | sleep u timeout hidle => exact absurd hidle hbusy
  | look u hwaiter hawake =>
    rcases hphase with ⟨hscheduled, herror⟩ | hlooked
    · rw [hwaiter] at hscheduled
      cases hscheduled
      exact .inr ⟨⟨.inr (by rw [Completion.look, herror]), hready⟩, .inl rfl⟩
    · rw [hwaiter] at hlooked
      cases hlooked
  | clear u result hwaiter =>
    rcases hphase with ⟨hscheduled, -⟩ | hlooked
    · rw [hwaiter] at hscheduled
      cases hscheduled
    · rw [hwaiter] at hlooked
      cases hlooked
      exact .inl rfl
  | found call hflag => exact .inr ⟨⟨hphase, hready⟩, .inr ⟨call, rfl⟩⟩
  | enter call hflag => exact .inr ⟨⟨hphase, hready⟩, .inl rfl⟩
  | doneSet call =>
    have hlist : s.suspendedList = [] := by
      rcases hphase with ⟨hscheduled, -⟩ | hlooked
      · exact hwaiting.list_of_ready hscheduled hready
      · exact hwaiting.list_of_ready hlooked hready
    rw [doneSet_of_nil hlist]
    exact .inr ⟨⟨hphase, hready⟩, .inr ⟨call, rfl⟩⟩
  | expire u hsleeps =>
    have hne : t ≠ u := by
      rintro rfl
      rw [hready] at hsleeps
      cases hsleeps
    have hsame : (s.expire u).thread t = s.thread t := setThread_thread_of_ne hne _
    refine .inr ⟨⟨?_, by rw [hsame, hready]⟩, .inl rfl⟩
    rw [hsame]
    exact hphase

theorem Step.flag_of_idle (hidle : s.waiter = none) (hlist : s.suspendedList = [])
    (hflag : s.flag = rtCompleted) (hstep : s.Step op s') :
    (∃ t, s'.log = s.log ++ [.wait t rtEok]) ∨
      s'.waiter = none ∧ s'.suspendedList = [] ∧ s'.flag = rtCompleted := by
  cases hstep with
  | take t timeout => exact .inl ⟨t, rfl⟩
  | refuse t _ hclear => exact absurd hflag hclear
  | sleep t timeout _ hclear => exact absurd hflag hclear
  | look t hwaiter => rw [hidle] at hwaiter; cases hwaiter
  | clear t result hwaiter => rw [hidle] at hwaiter; cases hwaiter
  | found call => exact .inr ⟨hidle, hlist, hflag⟩
  | enter call hclear => exact absurd hflag hclear
  | doneSet call =>
    rw [doneSet_of_nil hlist]
    exact .inr ⟨hidle, hlist, rfl⟩
  | expire t => exact .inr ⟨hidle, by simp [Completion.expire, hlist, listRemove], hflag⟩

end Steps

section Log

variable {log : List CompletionEvent} {event : CompletionEvent}

theorem DoneSince.of_done (call : Nat) : DoneSince (log ++ [.done call]) :=
  ⟨log, call, [], rfl, fun _ => List.not_mem_nil⟩

/-- Every wait that returned `RT_EOK` had a done of its own. -/
def Earned (log : List CompletionEvent) : Prop :=
  ∀ before t after, log = before ++ .wait t rtEok :: after → DoneSince before

theorem Earned.append (hearned : Earned log)
    (hevent : ∀ t, event = .wait t rtEok → DoneSince log) : Earned (log ++ [event]) := by
  intro before t after hsplit
  rcases after.eq_nil_or_concat with rfl | ⟨rest, last, rfl⟩
  · obtain ⟨rfl, hlast⟩ := List.append_inj' hsplit rfl
    cases hlast
    exact hevent t rfl
  · rw [List.concat_eq_append, ← List.cons_append, ← List.append_assoc] at hsplit
    obtain ⟨hinit, -⟩ := List.append_inj' hsplit rfl
    exact hearned before t rest hinit

end Log

theorem Waiting.not_hasExpired_doneSet {s : Completion} {call : Nat} (hwaiting : s.Waiting)
    (hintime : ¬ s.HasExpired) : ¬ (s.doneSet call).HasExpired := by
  cases hwaiting with
  | idle hidle hlist =>
    rw [doneSet_of_nil hlist]
    exact hintime
  | asleep t hwaiter hsleeps herror hlist =>
    rw [doneSet_of_asleep hlist hsleeps]
    simp [HasExpired, record, hwaiter, herror]
  | awake t phase hwaiter hready hlist =>
    rw [doneSet_of_nil hlist]
    exact hintime

/-- What holds in every state of a run in which no done comes between an expiry and the
last section of the wait. -/
structure Inv (s : Completion) : Prop where
  waiting : s.Waiting
  expired : s.HasExpired → s.flag ≠ rtCompleted
  owed : (s.flag = rtCompleted ∨ ∃ t, s.Served t) → DoneSince s.log
  earned : Earned s.log

section Runs

variable {s s' : Completion} {op : CompletionOp} {t : Tid} {call : Nat}

theorem Initial.inv (hinit : s.Initial) : s.Inv where
  waiting := .idle hinit.waiter hinit.suspendedList
  expired := by simp [HasExpired, hinit.waiter]
  owed := by
    intro howed
    rcases howed with hflag | ⟨t, hphase, -⟩
    · rw [hinit.flag] at hflag
      cases hflag
    · simp [hinit.waiter] at hphase
  earned := by
    intro before t after hsplit
    rw [hinit.log] at hsplit
    simp at hsplit

theorem Waiting.served_or_expired {phase : WaitPhase} (hwaiter : s.waiter = some (t, phase))
    (hready : (s.thread t).stat = .ready) : s.Served t ∨ s.HasExpired := by
  cases phase with
  | scheduled =>
    by_cases herror : (s.thread t).error = rtEok
    · exact .inl ⟨.inl ⟨hwaiter, herror⟩, hready⟩
    · right
      simp only [HasExpired, hwaiter]
      exact ⟨hready, herror⟩
  | looked result =>
    by_cases hresult : result = rtEok
    · exact .inl ⟨.inr (hresult ▸ hwaiter), hready⟩
    · right
      simp only [HasExpired, hwaiter]
      exact hresult

theorem Inv.step (hinv : s.Inv) (hallowed : s.SetsInTime op) (hstep : s.Step op s') : s'.Inv := by
  have hwaiting := hinv.waiting.step hstep
  cases hstep with
  | take t timeout hidle hflag =>
    refine ⟨hwaiting, fun _ hset => ?_, fun howed => ?_, ?_⟩
    · cases hset
    · rcases howed with hset | ⟨u, hphase, -⟩
      · cases hset
      · simp [record, hidle] at hphase
    · exact hinv.earned.append fun _ _ => hinv.owed (.inl hflag)
  | refuse t hidle hflag =>
    refine ⟨hwaiting, fun _ => hflag, fun howed => ?_, ?_⟩
    · rcases howed with hset | ⟨u, hphase, -⟩
      · exact absurd hset hflag
      · simp [record, hidle] at hphase
    · exact hinv.earned.append fun u heq => by cases heq
  | sleep t timeout hidle hflag hready hlist =>
    refine ⟨hwaiting, fun _ => hflag, fun howed => ?_, hinv.earned⟩
    rcases howed with hset | ⟨u, hphase, hawake⟩
    · exact absurd hset hflag
    · simp only [Completion.sleep, Option.some.injEq, Prod.mk.injEq, reduceCtorEq, and_false,
        or_false] at hphase
      obtain ⟨⟨rfl, -⟩, -⟩ := hphase
      simp [Completion.sleep, setThread, Thread.suspend, hready] at hawake
  | look t hwaiter hready =>
    refine ⟨hwaiting, fun hexpired => hinv.expired ?_, fun howed => hinv.owed ?_, hinv.earned⟩
    · simp only [HasExpired, hwaiter]
      exact ⟨hready, hexpired⟩
    · rcases howed with hset | ⟨u, hphase, hawake⟩
      · exact .inl hset
      · simp only [Completion.look, Option.some.injEq, Prod.mk.injEq, reduceCtorEq, and_false,
          false_and, false_or, WaitPhase.looked.injEq] at hphase
        obtain ⟨rfl, herror⟩ := hphase
        exact .inr ⟨t, .inl ⟨hwaiter, herror⟩, hready⟩
  | clear t result hwaiter =>
    refine ⟨hwaiting, fun _ hset => ?_, fun howed => ?_, ?_⟩
    · cases hset
    · rcases howed with hset | ⟨u, hphase, -⟩
      · cases hset
      · simp [Completion.clear, record] at hphase
    · refine hinv.earned.append fun u heq => hinv.owed (.inr ⟨t, .inr ?_, ?_⟩)
      · cases heq
        exact hwaiter
      · exact (hinv.waiting.looked hwaiter).1
  | found call hflag =>
    exact ⟨hwaiting, hinv.expired, fun _ => .of_done call,
      hinv.earned.append fun u heq => by cases heq⟩
  | enter call hflag => exact ⟨hwaiting, hinv.expired, hinv.owed, hinv.earned⟩
  | doneSet call =>
    refine ⟨hwaiting, fun hexpired => absurd hexpired ?_, fun _ => ?_, ?_⟩
    · exact hinv.waiting.not_hasExpired_doneSet hallowed
    · rw [doneSet_log]
      exact .of_done call
    · rw [doneSet_log]
      exact hinv.earned.append fun u heq => by cases heq
  | expire t hsleeps =>
    refine ⟨hwaiting, fun hexpired => ?_, fun howed => hinv.owed ?_, hinv.earned⟩
    · cases hinv.waiting with
      | idle hidle =>
        simp only [HasExpired, Completion.expire, setThread, hidle] at hexpired
      | asleep _ _ _ _ _ hclear => exact hclear
      | awake u phase hwaiter hready =>
        refine hinv.expired ?_
        have hne : u ≠ t := by
          rintro rfl
          rw [hready] at hsleeps
          cases hsleeps
        have hsame : (s.expire t).thread u = s.thread u := setThread_thread_of_ne hne _
        have hbefore : (s.expire t).waiter = some (u, phase) := hwaiter
        cases phase with
        | scheduled =>
          simp only [HasExpired, hbefore, hsame] at hexpired
          simpa only [HasExpired, hwaiter] using hexpired
        | looked result =>
          simp only [HasExpired, hbefore] at hexpired
          simpa only [HasExpired, hwaiter] using hexpired
    · rcases howed with hset | ⟨u, hphase, hawake⟩
      · exact .inl hset
      · rcases eq_or_ne u t with rfl | hne
        · exfalso
          rcases hphase with ⟨-, herror⟩ | hlooked
          · simp [Completion.expire, setThread, Thread.expire, rtEok, rtEtimeout] at herror
          · rw [(hinv.waiting.looked hlooked).1] at hsleeps
            cases hsleeps
        · have hsame : (s.expire t).thread u = s.thread u := setThread_thread_of_ne hne _
          rw [hsame] at hphase hawake
          exact .inr ⟨u, hphase, hawake⟩

theorem reachable_inv (hreach : completionMachine.Reachable SetsInTime s) : s.Inv := by
  refine hreach.invariant Inv (fun _ hinit => Initial.inv hinit) ?_
  intro before op after hbefore hallowed hexec
  exact hbefore.step hallowed (step_of_exec hexec)

theorem Inv.kept_of_served (hinv : s.Inv) (hserved : s.Served t)
    (hpath : Machine.Path completionMachine SetsInTime s s') :
    s'.Inv ∧ ∃ new, s'.log = s.log ++ new ∧
      (new.find? CompletionEvent.isWait = some (.wait t rtEok) ∨
        new.find? CompletionEvent.isWait = none ∧ s'.Served t) := by
  induction hpath with
  | refl => exact ⟨hinv, [], (List.append_nil _).symm, .inr ⟨rfl, hserved⟩⟩
  | snoc _ hallowed hexec ih =>
    obtain ⟨hmid, new, hlog, hnew⟩ := ih
    have hstep := step_of_exec hexec
    refine ⟨hmid.step hallowed hstep, ?_⟩
    rcases hnew with hfound | ⟨hnone, hstill⟩
    · rcases hstep.log with hsame | ⟨event, hadded⟩
      · exact ⟨new, hsame.trans hlog, .inl hfound⟩
      · refine ⟨new ++ [event], by rw [hadded, hlog, List.append_assoc], .inl ?_⟩
        rw [List.find?_append, hfound, Option.some_or]
    · rcases hstill.step hmid.waiting hstep with hreturned | ⟨hafter, hsame | ⟨call, hadded⟩⟩
      · refine ⟨new ++ [.wait t rtEok], by rw [hreturned, hlog, List.append_assoc], .inl ?_⟩
        rw [List.find?_append, hnone, Option.none_or]
        rfl
      · exact ⟨new, hsame.trans hlog, .inr ⟨hnone, hafter⟩⟩
      · refine ⟨new ++ [.done call], by rw [hadded, hlog, List.append_assoc], .inr ⟨?_, hafter⟩⟩
        rw [List.find?_append, hnone, Option.none_or]
        rfl

theorem kept_of_idle (hidle : s.waiter = none) (hlist : s.suspendedList = [])
    (hflag : s.flag = rtCompleted) (hpath : Machine.Path completionMachine SetsInTime s s') :
    ∃ new, s'.log = s.log ++ new ∧
      ((∃ t, .wait t rtEok ∈ new) ∨
        s'.waiter = none ∧ s'.suspendedList = [] ∧ s'.flag = rtCompleted) := by
  induction hpath with
  | refl => exact ⟨[], (List.append_nil _).symm, .inr ⟨hidle, hlist, hflag⟩⟩
  | snoc _ _ hexec ih =>
    obtain ⟨new, hlog, hnew⟩ := ih
    have hstep := step_of_exec hexec
    rcases hnew with ⟨t, hmem⟩ | ⟨hstill, hempty, hset⟩
    · rcases hstep.log with hsame | ⟨event, hadded⟩
      · exact ⟨new, hsame.trans hlog, .inl ⟨t, hmem⟩⟩
      · exact ⟨new ++ [event], by rw [hadded, hlog, List.append_assoc],
          .inl ⟨t, List.mem_append_left _ hmem⟩⟩
    · rcases Step.flag_of_idle hstill hempty hset hstep with ⟨t, hreturned⟩ | hafter
      · exact ⟨new ++ [.wait t rtEok], by rw [hreturned, hlog, List.append_assoc],
          .inl ⟨t, List.mem_append_right _ (List.mem_singleton.mpr rfl)⟩⟩
      · rcases hstep.log with hsame | ⟨event, hadded⟩
        · exact ⟨new, hsame.trans hlog, .inr hafter⟩
        · exact ⟨new ++ [event], by rw [hadded, hlog, List.append_assoc], .inr hafter⟩

theorem Inv.kept (hinv : s.Inv) (hflag : s.flag = rtCompleted) : s.Kept SetsInTime := by
  cases hinv.waiting with
  | idle hidle hlist =>
    refine .inr fun s' hpath => ?_
    obtain ⟨new, hlog, hnew⟩ := kept_of_idle hidle hlist hflag hpath
    exact ⟨new, hlog, hnew.imp id fun hafter => hafter.2.2⟩
  | asleep _ _ _ _ _ hclear => exact absurd hflag hclear
  | awake t phase hwaiter hready =>
    have hserved : s.Served t :=
      (Waiting.served_or_expired hwaiter hready).resolve_right
        fun hexpired => hinv.expired hexpired hflag
    refine .inl ⟨t, by rw [hwaiter]; rfl, fun s' hpath => ?_⟩
    obtain ⟨-, new, hlog, hnew⟩ := hinv.kept_of_served hserved hpath
    refine ⟨new, hlog, hnew.imp id fun ⟨hnone, hphase, hawake⟩ => ⟨hnone, ?_, hawake⟩⟩
    rcases hphase with ⟨hscheduled, -⟩ | hlooked
    · rw [hscheduled]; rfl
    · rw [hlooked]; rfl

theorem Step.flag_of_done (hstep : s.Step op s') (hlog : s'.log = s.log ++ [.done call]) :
    s'.flag = rtCompleted := by
  cases hstep with
  | take => simp [record] at hlog
  | refuse => simp [record] at hlog
  | sleep => simp [Completion.sleep, setThread] at hlog
  | look => simp [Completion.look] at hlog
  | clear => simp [Completion.clear, record] at hlog
  | found _ hflag => exact hflag
  | enter => simp at hlog
  | doneSet call => exact doneSet_flag
  | expire => simp [Completion.expire, setThread] at hlog

/-- If no done comes between the expiry of a wait and its last section, none is lost. -/
theorem reachable_noDoneLost (hreach : completionMachine.Reachable SetsInTime s) :
    s.NoDoneLost SetsInTime where
  kept := by
    intro op s' call hallowed hexec hlog
    have hstep := step_of_exec hexec
    have hafter := (reachable_inv hreach).step hallowed hstep
    exact hafter.kept (hstep.flag_of_done hlog)
  earned := (reachable_inv hreach).earned

end Runs

def completionStart : Completion where
  flag := rtUncompleted
  suspendedList := []
  thread := fun _ => { Thread.init (.flat 1) 10 with stat := .ready }
  waiter := none
  entered := fun _ => false
  log := []

theorem completionStart_initial : completionStart.Initial := by
  constructor <;> simp [completionStart]

def servedRun : List CompletionOp :=
  [.wait 1 5, .doneTest 0, .doneSet 0, .doneTest 1, .look 1, .clear 1]

theorem reachable_noDoneLost_servedRun :
    ∃ s, completionMachine.Reachable SetsInTime s ∧
      s.log = [.done 0, .done 1, .wait 1 rtEok] ∧ s.NoDoneLost SetsInTime := by
  have hrun : (completionMachine.run SetsInTime completionStart servedRun).map (fun s => s.log) =
      some [.done 0, .done 1, .wait 1 rtEok] := by
    decide +kernel
  obtain ⟨s, hreach, hlog⟩ := Machine.exists_reachable_of_run completionStart_initial hrun
  exact ⟨s, hreach, hlog, reachable_noDoneLost hreach⟩

def expiredRun : List CompletionOp := [.wait 1 5, .expire 1, .doneTest 0]

/-- A done comes then: the wait returns `-RT_ETIMEOUT` and clears the flag. -/
theorem noDoneLost_fails_after_expiry :
    ∃ s, completionMachine.Reachable (fun _ _ => True) s ∧
      ¬ s.NoDoneLost (fun _ _ => True) := by
  have hrun : ((completionMachine.run (fun _ _ => True) completionStart expiredRun).bind fun s =>
      (completionMachine.exec s (.doneSet 0)).bind fun s' =>
        (completionMachine.exec s' (.look 1)).bind fun mid =>
          (completionMachine.exec mid (.clear 1)).map fun s'' =>
            (s.log, s'.log, s''.log, s''.flag)) =
      some ([], [.done 0], [.done 0, .wait 1 (-rtEtimeout)], rtUncompleted) := by
    decide +kernel
  obtain ⟨s, hs, hrun⟩ := Option.bind_eq_some_iff.mp hrun
  obtain ⟨s', hdone, hrun⟩ := Option.bind_eq_some_iff.mp hrun
  obtain ⟨mid, hlook, hrun⟩ := Option.bind_eq_some_iff.mp hrun
  obtain ⟨s'', hclear, hend⟩ := Option.map_eq_some_iff.mp hrun
  simp only [Prod.mk.injEq] at hend
  obtain ⟨hbefore, hset, hafter, hflag⟩ := hend
  refine ⟨s, (Machine.Reachable.start completionStart_initial).run hs, fun hnever => ?_⟩
  have hpath : Machine.Path completionMachine (fun _ _ => True) s' s'' :=
    (Machine.Path.single trivial hlook).snoc trivial hclear
  rcases hnever.kept _ s' 0 trivial hdone (by rw [hset, hbefore]; rfl) with ⟨t, -, hwoken⟩ | hkept
  · obtain ⟨new, hlog, hnew⟩ := hwoken s'' hpath
    rw [hset, hafter] at hlog
    obtain rfl : [.wait 1 (-rtEtimeout)] = new := (List.cons.inj hlog).2
    simp [CompletionEvent.isWait, rtEok, rtEtimeout] at hnew
  · obtain ⟨new, hlog, hnew⟩ := hkept s'' hpath
    rw [hset, hafter] at hlog
    obtain rfl : [.wait 1 (-rtEtimeout)] = new := (List.cons.inj hlog).2
    rw [hflag] at hnew
    simp [rtEok, rtEtimeout] at hnew

end Completion

end RtThread.Driver
