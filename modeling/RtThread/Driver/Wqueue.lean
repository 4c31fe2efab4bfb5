import Mathlib.Order.Nat
import RtThread.Ipc.WaitList
import RtThread.Lib.Transition

namespace RtThread.Driver

open Function RtThread.Ipc RtThread.Lib

/-! The wait queue of `waitqueue.c`: a flag, and a list of the nodes that waiting threads have on
their stacks.  A wait is a section, and after `rt_schedule` two more: one clears the flag, one
unlinks the node. -/

abbrev rtWqFlagClean : Nat := 0
abbrev rtWqFlagWakeup : Nat := 1

inductive WqueuePhase
  | scheduled
  | cleared
  deriving DecidableEq

/-- A queue and its threads; a node is named by its thread.

History: `waits` counts the waits that have run their first section, and `owed` says that a
wake-up has found nobody suspended since the last of these. -/
structure Wqueue where
  flag : Nat
  waitingList : List Tid
  thread : Tid → Thread
  phase : Tid → Option WqueuePhase
  waits : Nat
  owed : Bool

namespace Wqueue

def setThread (s : Wqueue) (t : Tid) (thread : Thread) : Wqueue :=
  { s with thread := update s.thread t thread }

def sleeps (s : Wqueue) : Bool := s.waitingList.any fun t => (s.thread t).stat = .suspend

/-- `rt_wqueue_wait` up to the suspension of its thread; the tick is that of its
timeout. -/
def rtWqueueWait (t : Tid) (condition : Bool) (tick : Int) (s : Wqueue) : Wqueue :=
  if condition || tick = 0 then s
  else
    let s := { s with waits := s.waits + 1, owed := false }
    if s.flag = rtWqFlagWakeup then { s with flag := rtWqFlagClean }
    else
      { s.setThread t { (s.thread t).suspend with
          timerActive := if tick ≠ -1 then true else (s.thread t).suspend.timerActive } with
        waitingList := s.waitingList ++ [t]
        phase := update s.phase t (some .scheduled) }

def clear (t : Tid) (s : Wqueue) : Wqueue :=
  { s with flag := rtWqFlagClean, phase := update s.phase t (some .cleared) }

def rtWqueueRemove (t : Tid) (s : Wqueue) : Wqueue :=
  { s with waitingList := listRemove t s.waitingList, phase := update s.phase t none }

/-- With the wakeup function of `rt_wqueue_wait` the loop ends at the first node. -/
def rtWqueueWakeup (s : Wqueue) : Wqueue :=
  let s := { s with flag := rtWqFlagWakeup, owed := s.owed || !s.sleeps }
  match s.waitingList with
  | [] => s
  | first :: _ =>
    { s.setThread first (s.thread first).resume with
      waitingList := listRemove first s.waitingList }

/-- `rt_thread_timeout` leaves the node linked. -/
def expire (t : Tid) (s : Wqueue) : Wqueue := s.setThread t (s.thread t).expire

end Wqueue

inductive WqueueOp
  | wait (t : Tid) (condition : Bool) (tick : Int)
  | clear (t : Tid)
  | remove (t : Tid)
  | wakeup
  | expire (t : Tid)
  deriving DecidableEq

def Wqueue.exec (s : Wqueue) : WqueueOp → Option Wqueue
  | .wait t condition tick =>
    if s.phase t = none ∧ (s.thread t).stat = .ready then some (s.rtWqueueWait t condition tick)
    else none
  | .clear t =>
    if s.phase t = some .scheduled ∧ (s.thread t).stat = .ready then some (s.clear t) else none
  | .remove t => if s.phase t = some .cleared then some (s.rtWqueueRemove t) else none
  | .wakeup => some s.rtWqueueWakeup
  | .expire t =>
    if (s.thread t).stat = .suspend ∧ (s.thread t).timerActive then some (s.expire t) else none

structure Wqueue.Initial (s : Wqueue) : Prop where
  flag : s.flag = rtWqFlagClean
  waitingList : s.waitingList = []
  phase : ∀ t, s.phase t = none
  owed : s.owed = false

def wqueueMachine : Machine Wqueue WqueueOp where
  init := Wqueue.Initial
  exec := Wqueue.exec

namespace Wqueue

def Suspended (s : Wqueue) (t : Tid) : Prop :=
  s.phase t = some .scheduled ∧ (s.thread t).stat = .suspend

/-- A wake-up finds a suspended thread at the head of the list if there is one, and no flag is
cleared that a wake-up has left for the next wait. -/
def InTurn (s : Wqueue) : WqueueOp → Prop
  | .wakeup => s.sleeps = true → ∀ first ∈ s.waitingList.head?, (s.thread first).stat = .suspend
  | .clear _ => s.owed = false
  | _ => True

instance (s : Wqueue) (op : WqueueOp) : Decidable (s.InTurn op) := by
  unfold InTurn
  split <;> infer_instance

structure NoLostWakeup (allowed : Wqueue → WqueueOp → Prop) (s : Wqueue) : Prop where
  woken : ∀ s', allowed s .wakeup → wqueueMachine.exec s .wakeup = some s' →
    (∃ t, s.Suspended t) → ∃ t, s.Suspended t ∧ (s'.thread t).stat = .ready
  kept : ∀ s' s'', allowed s .wakeup → wqueueMachine.exec s .wakeup = some s' →
    (∀ t, ¬ s.Suspended t) → Machine.Path wqueueMachine allowed s' s'' → s''.waits = s'.waits →
    ∀ t condition tick after, s''.exec (.wait t condition tick) = some after →
      after.phase t = none ∧ (after.thread t).stat = .ready

structure Inv (s : Wqueue) : Prop where
  linked : ∀ t, s.Suspended t → t ∈ s.waitingList
  queued : ∀ t ∈ s.waitingList, s.phase t ≠ none
  cleared : ∀ t, s.phase t = some .cleared → (s.thread t).stat = .ready
  owed : s.owed = true → s.flag = rtWqFlagWakeup

section Steps

variable {s s' : Wqueue} {op : WqueueOp} {t : Tid} {condition : Bool} {tick : Int}

theorem Inv.sleeps_iff (hinv : s.Inv) : s.sleeps = true ↔ ∃ t, s.Suspended t := by
  simp only [sleeps, List.any_eq_true, decide_eq_true_eq]
  constructor
  · rintro ⟨t, hmem, hsleeps⟩
    refine ⟨t, ?_, hsleeps⟩
    cases hphase : s.phase t with
    | none => exact absurd hphase (hinv.queued t hmem)
    | some phase =>
      cases phase with
      | scheduled => rfl
      | cleared =>
        rw [hinv.cleared t hphase] at hsleeps
        cases hsleeps
  · rintro ⟨t, hsuspended⟩
    exact ⟨t, hinv.linked t hsuspended, hsuspended.2⟩

theorem Inv.wait (hinv : s.Inv) (hidle : s.phase t = none) (hready : (s.thread t).stat = .ready) :
    (s.rtWqueueWait t condition tick).Inv := by
  unfold rtWqueueWait
  split
  · exact hinv
  · dsimp only
    split
    · exact ⟨hinv.linked, hinv.queued, hinv.cleared, fun howed => by cases howed⟩
    · refine ⟨?_, ?_, ?_, fun howed => by cases howed⟩
      · rintro u ⟨hphase, hsleeps⟩
        rcases eq_or_ne u t with rfl | hne
        · simp
        · simp only [update_of_ne hne, setThread] at hphase hsleeps
          exact List.mem_append_left _ (hinv.linked u ⟨hphase, hsleeps⟩)
      · intro u hmem
        rcases eq_or_ne u t with rfl | hne
        · simp
        · simp only [update_of_ne hne]
          simp only [List.mem_append, List.mem_singleton, hne, or_false] at hmem
          exact hinv.queued u hmem
      · intro u hphase
        rcases eq_or_ne u t with rfl | hne
        · simp at hphase
        · simp only [update_of_ne hne, setThread] at hphase ⊢
          exact hinv.cleared u hphase

theorem Inv.clear (hinv : s.Inv) (hready : (s.thread t).stat = .ready) (howed : s.owed = false) :
    (s.clear t).Inv := by
  refine ⟨?_, ?_, ?_, fun howed' => by rw [show s.owed = true from howed'] at howed; cases howed⟩
  · rintro u ⟨hphase, hsleeps⟩
    rcases eq_or_ne u t with rfl | hne
    · simp [Wqueue.clear] at hphase
    · simp only [Wqueue.clear, update_of_ne hne] at hphase
      exact hinv.linked u ⟨hphase, hsleeps⟩
  · intro u hmem
    rcases eq_or_ne u t with rfl | hne
    · simp [Wqueue.clear]
    · simp only [Wqueue.clear, update_of_ne hne]
      exact hinv.queued u hmem
  · intro u hphase
    rcases eq_or_ne u t with rfl | hne
    · exact hready
    · simp only [Wqueue.clear, update_of_ne hne] at hphase
      exact hinv.cleared u hphase

theorem Inv.remove (hinv : s.Inv) : (s.rtWqueueRemove t).Inv := by
  refine ⟨?_, ?_, ?_, hinv.owed⟩
  · rintro u ⟨hphase, hsleeps⟩
    rcases eq_or_ne u t with rfl | hne
    · simp [rtWqueueRemove] at hphase
    · simp only [rtWqueueRemove, update_of_ne hne] at hphase
      exact mem_listRemove.mpr ⟨hinv.linked u ⟨hphase, hsleeps⟩, hne⟩
  · intro u hmem
    obtain ⟨hmem, hne⟩ := mem_listRemove.mp hmem
    simp only [rtWqueueRemove, update_of_ne hne]
    exact hinv.queued u hmem
  · intro u hphase
    rcases eq_or_ne u t with rfl | hne
    · simp [rtWqueueRemove] at hphase
    · simp only [rtWqueueRemove, update_of_ne hne] at hphase
      exact hinv.cleared u hphase

theorem Inv.awake {thread : Thread} {list : List Tid} {flag : Nat} {owed : Bool} (hinv : s.Inv)
    (hawake : thread.stat ≠ .suspend)
    (hready : (s.thread t).stat = .ready → thread.stat = .ready)
    (hkept : ∀ u ∈ s.waitingList, u ≠ t → u ∈ list) (hsub : ∀ u ∈ list, u ∈ s.waitingList)
    (howed : owed = true → flag = rtWqFlagWakeup) :
    Inv { s.setThread t thread with waitingList := list, flag := flag, owed := owed } := by
  refine ⟨?_, fun u hmem => hinv.queued u (hsub u hmem), ?_, howed⟩
  · rintro u ⟨hphase, hsleeps⟩
    rcases eq_or_ne u t with rfl | hne
    · simp only [setThread, update_self] at hsleeps
      exact absurd hsleeps hawake
    · simp only [setThread, update_of_ne hne] at hsleeps
      exact hkept u (hinv.linked u ⟨hphase, hsleeps⟩) hne
  · intro u hphase
    rcases eq_or_ne u t with rfl | hne
    · simp only [setThread, update_self]
      exact hready (hinv.cleared u hphase)
    · simp only [setThread, update_of_ne hne]
      exact hinv.cleared u hphase

theorem resume_stat_ne (thread : Thread) : thread.resume.stat ≠ .suspend := by
  unfold Thread.resume
  split
  · exact fun h => nomatch h
  · assumption

theorem Inv.wakeup (hinv : s.Inv) : s.rtWqueueWakeup.Inv := by
  unfold rtWqueueWakeup
  dsimp only
  split
  next hlist => exact ⟨hinv.linked, hinv.queued, hinv.cleared, fun _ => rfl⟩
  next first rest hlist =>
    refine hinv.awake (resume_stat_ne _) (fun hready => ?_) (fun u hmem hne => ?_)
      (fun u hmem => (mem_listRemove.mp hmem).1) (fun _ => rfl)
    · simp [Thread.resume, hready]
    · exact mem_listRemove.mpr ⟨hmem, hne⟩

theorem Inv.step (hinv : s.Inv) (hturn : s.InTurn op) (hexec : s.exec op = some s') : s'.Inv := by
  cases op with
  | wait t condition tick =>
    simp only [exec, Option.ite_none_right_eq_some, Option.some.injEq] at hexec
    obtain ⟨⟨hidle, hready⟩, rfl⟩ := hexec
    exact hinv.wait hidle hready
  | clear t =>
    simp only [exec, Option.ite_none_right_eq_some, Option.some.injEq] at hexec
    obtain ⟨⟨-, hready⟩, rfl⟩ := hexec
    exact hinv.clear hready hturn
  | remove t =>
    simp only [exec, Option.ite_none_right_eq_some, Option.some.injEq] at hexec
    obtain ⟨-, rfl⟩ := hexec
    exact hinv.remove
  | wakeup =>
    cases hexec
    exact hinv.wakeup
  | expire t =>
    simp only [exec, Option.ite_none_right_eq_some, Option.some.injEq] at hexec
    obtain ⟨-, rfl⟩ := hexec
    exact hinv.awake (fun h => nomatch h) (fun _ => rfl) (fun _ hmem _ => hmem)
      (fun _ hmem => hmem) hinv.owed

theorem Initial.inv (hinit : s.Initial) : s.Inv where
  linked := by
    rintro t ⟨hphase, -⟩
    rw [hinit.phase t] at hphase
    cases hphase
  queued := by simp [hinit.waitingList]
  cleared := by
    intro t hphase
    rw [hinit.phase t] at hphase
    cases hphase
  owed := by simp [hinit.owed]

theorem reachable_inv (hreach : wqueueMachine.Reachable InTurn s) : s.Inv := by
  refine hreach.invariant Inv (fun _ hinit => Initial.inv hinit) ?_
  intro before op after hbefore hturn hexec
  exact hbefore.step hturn hexec

theorem owed_step (hexec : s.exec op = some s') :
    s.waits ≤ s'.waits ∧ (s'.waits = s.waits → s.owed = true → s'.owed = true) := by
  cases op with
  | wait t condition tick =>
    simp only [exec, Option.ite_none_right_eq_some, Option.some.injEq] at hexec
    obtain ⟨-, rfl⟩ := hexec
    unfold rtWqueueWait
    split
    · exact ⟨le_rfl, fun _ howed => howed⟩
    · dsimp only
      split
      · exact ⟨Nat.le_succ _, fun hsame => absurd hsame (Nat.succ_ne_self _)⟩
      · exact ⟨Nat.le_succ _, fun hsame => absurd hsame (Nat.succ_ne_self _)⟩
  | clear t =>
    simp only [exec, Option.ite_none_right_eq_some, Option.some.injEq] at hexec
    obtain ⟨-, rfl⟩ := hexec
    exact ⟨le_rfl, fun _ howed => howed⟩
  | remove t =>
    simp only [exec, Option.ite_none_right_eq_some, Option.some.injEq] at hexec
    obtain ⟨-, rfl⟩ := hexec
    exact ⟨le_rfl, fun _ howed => howed⟩
  | wakeup =>
    cases hexec
    unfold rtWqueueWakeup
    dsimp only
    split
    · exact ⟨le_rfl, fun _ howed => by rw [howed, Bool.true_or]⟩
    · exact ⟨le_rfl, fun _ howed => by
        simp only [setThread]
        rw [howed, Bool.true_or]⟩
  | expire t =>
    simp only [exec, Option.ite_none_right_eq_some, Option.some.injEq] at hexec
    obtain ⟨-, rfl⟩ := hexec
    exact ⟨le_rfl, fun _ howed => howed⟩

theorem owed_path {allowed : Wqueue → WqueueOp → Prop}
    (hpath : Machine.Path wqueueMachine allowed s s') :
    s.waits ≤ s'.waits ∧ (s'.waits = s.waits → s.owed = true → s'.owed = true) := by
  induction hpath with
  | refl => exact ⟨le_rfl, fun _ howed => howed⟩
  | snoc _ _ hexec ih =>
    obtain ⟨hle, hkept⟩ := owed_step hexec
    refine ⟨ih.1.trans hle, fun hsame howed => hkept ?_ (ih.2 ?_ howed)⟩
    · exact le_antisymm (hsame.le.trans ih.1) hle
    · exact le_antisymm (hle.trans hsame.le) ih.1

theorem wait_of_owed (hinv : s.Inv) (howed : s.owed = true)
    (hexec : s.exec (.wait t condition tick) = some s') :
    s'.phase t = none ∧ (s'.thread t).stat = .ready := by
  simp only [exec, Option.ite_none_right_eq_some, Option.some.injEq] at hexec
  obtain ⟨hcan, rfl⟩ := hexec
  unfold rtWqueueWait
  split
  · exact hcan
  · dsimp only
    rw [if_pos (hinv.owed howed)]
    exact hcan

/-- If every wake-up finds a suspended thread first and no flag is cleared that is still owed, no
wake-up is lost. -/
theorem reachable_noLostWakeup (hreach : wqueueMachine.Reachable InTurn s) :
    s.NoLostWakeup InTurn where
  woken := by
    intro s' hturn hexec hsome
    have hinv := reachable_inv hreach
    have hsleeps := hinv.sleeps_iff.mpr hsome
    have hfirst := hturn hsleeps
    cases hexec
    cases hlist : s.waitingList with
    | nil => simp [sleeps, hlist] at hsleeps
    | cons first rest =>
      have hstat := hfirst first (by simp [hlist])
      have hmem : first ∈ s.waitingList := by
        rw [hlist]
        exact List.mem_cons_self
      have hphase : s.phase first = some .scheduled := by
        cases hphase : s.phase first with
        | none => exact absurd hphase (hinv.queued first hmem)
        | some phase =>
          cases phase with
          | scheduled => rfl
          | cleared =>
            rw [hinv.cleared first hphase] at hstat
            cases hstat
      refine ⟨first, ⟨hphase, hstat⟩, ?_⟩
      simp [rtWqueueWakeup, hlist, setThread, Thread.resume_stat _ hstat]
  kept := by
    intro s' s'' hturn hexec hnone hpath hsame t condition tick after hafter
    have hinv := reachable_inv hreach
    have hreach' := hpath.reachable (hreach.step hturn hexec)
    have howed : s'.owed = true := by
      have hidle : s.sleeps = false := by
        rw [← Bool.not_eq_true, hinv.sleeps_iff]
        exact fun ⟨u, hu⟩ => hnone u hu
      cases hexec
      unfold rtWqueueWakeup
      dsimp only
      split
      · rw [hidle, Bool.not_false, Bool.or_true]
      · simp only [setThread, hidle, Bool.not_false, Bool.or_true]
    exact wait_of_owed (reachable_inv hreach') ((owed_path hpath).2 hsame howed) hafter

end Steps

def wqueueStart : Wqueue where
  flag := rtWqFlagClean
  waitingList := []
  thread := fun _ => { Thread.init (.flat 1) 10 with stat := .ready }
  phase := fun _ => none
  waits := 0
  owed := false

theorem wqueueStart_initial : wqueueStart.Initial := by
  constructor <;> simp [wqueueStart]

def wokenRun : List WqueueOp :=
  [.wait 1 false (-1), .wait 2 false 0, .wakeup, .clear 1, .remove 1, .wakeup]

theorem reachable_noLostWakeup_wokenRun :
    ∃ s, wqueueMachine.Reachable InTurn s ∧ s.owed = true ∧ s.waitingList = [] ∧
      s.NoLostWakeup InTurn := by
  have hrun : (wqueueMachine.run InTurn wqueueStart wokenRun).map
      (fun s => (s.owed, s.waitingList)) = some (true, []) := by
    decide +kernel
  obtain ⟨s, hreach, hend⟩ := Machine.exists_reachable_of_run wqueueStart_initial hrun
  obtain ⟨howed, hlist⟩ := Prod.mk.inj hend
  exact ⟨s, hreach, howed, hlist, reachable_noLostWakeup hreach⟩

def expiredFirstRun : List WqueueOp := [.wait 1 false 5, .wait 2 false (-1), .expire 1]

/-- The next wake-up goes to the node of thread 1, and thread 2 stays suspended. -/
theorem noLostWakeup_fails_after_expiry :
    ∃ s, wqueueMachine.Reachable (fun _ _ => True) s ∧
      ¬ s.NoLostWakeup (fun _ _ => True) := by
  have hrun : (wqueueMachine.run (fun _ _ => True) wqueueStart expiredFirstRun).map
      (fun s => (s.waitingList, decide ((s.thread 1).stat = .ready),
        decide (s.phase 2 = some .scheduled ∧ (s.thread 2).stat = .suspend))) =
      some ([1, 2], true, true) := by
    decide +kernel
  obtain ⟨s, hreach, hend⟩ := Machine.exists_reachable_of_run wqueueStart_initial hrun
  simp only [Prod.mk.injEq, decide_eq_true_eq] at hend
  obtain ⟨hlist, hready, hsuspended⟩ := hend
  refine ⟨s, hreach, fun hnever => ?_⟩
  obtain ⟨t, ⟨-, hsleeps⟩, hwoken⟩ := hnever.woken _ trivial rfl ⟨2, hsuspended⟩
  have hsame : s.rtWqueueWakeup.thread = s.thread := by
    funext u
    rcases eq_or_ne u 1 with rfl | hne
    · simp [rtWqueueWakeup, hlist, setThread, Thread.resume, hready]
    · simp [rtWqueueWakeup, hlist, setThread, hne]
  rw [show (s.rtWqueueWakeup.thread t).stat = (s.thread t).stat by rw [hsame], hsleeps] at hwoken
  cases hwoken

end Wqueue

end RtThread.Driver
