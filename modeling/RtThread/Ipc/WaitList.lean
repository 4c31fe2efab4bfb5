import RtThread.Kernel.Thread
import Mathlib.Data.List.Basic

namespace RtThread.Ipc

open Function

inductive IpcFlag
  | fifo
  | prio
  deriving DecidableEq

def insertByPriority (priority : Tid → Nat) (t : Tid) : List Tid → List Tid
  | [] => [t]
  | sthread :: rest =>
    if priority t < priority sthread then t :: sthread :: rest
    else sthread :: insertByPriority priority t rest

/-- Where `rt_ipc_list_suspend` links the thread it has suspended. -/
def listSuspend (flag : IpcFlag) (priority : Tid → Nat) (t : Tid)
    (list : List Tid) : List Tid :=
  match flag with
  | .fifo => list ++ [t]
  | .prio => insertByPriority priority t list

section Membership

variable {flag : IpcFlag} {priority : Tid → Nat} {t u : Tid} {list : List Tid}

theorem insertByPriority_perm : (insertByPriority priority t list).Perm (t :: list) := by
  induction list with
  | nil => exact List.Perm.refl _
  | cons sthread rest ih =>
    simp only [insertByPriority]
    split
    · exact List.Perm.refl _
    · exact (ih.cons sthread).trans (List.Perm.swap t sthread rest)

theorem listSuspend_perm : (listSuspend flag priority t list).Perm (t :: list) := by
  cases flag with
  | fifo => exact List.perm_append_comm
  | prio => exact insertByPriority_perm

theorem mem_listSuspend : u ∈ listSuspend flag priority t list ↔ u = t ∨ u ∈ list := by
  rw [listSuspend_perm.mem_iff, List.mem_cons]

theorem listSuspend_nodup (hnodup : list.Nodup) (hfree : t ∉ list) :
    (listSuspend flag priority t list).Nodup :=
  listSuspend_perm.nodup_iff.mpr (List.nodup_cons.mpr ⟨hfree, hnodup⟩)

end Membership

def listRemove (t : Tid) (list : List Tid) : List Tid := list.filter (· ≠ t)

section Remove

variable {t u : Tid} {list : List Tid}

@[simp] theorem mem_listRemove : u ∈ listRemove t list ↔ u ∈ list ∧ u ≠ t := by
  simp [listRemove]

theorem listRemove_nodup (hnodup : list.Nodup) : (listRemove t list).Nodup :=
  hnodup.filter _

theorem listRemove_of_not_mem (hfree : t ∉ list) : listRemove t list = list := by
  unfold listRemove
  rw [List.filter_eq_self]
  intro u hmem
  rw [decide_eq_true_eq]
  rintro rfl
  exact hfree hmem

theorem listRemove_head (hnodup : (t :: list).Nodup) : listRemove t (t :: list) = list := by
  have hfree := (List.nodup_cons.mp hnodup).1
  have htail := listRemove_of_not_mem hfree
  unfold listRemove at htail ⊢
  simpa using htail

theorem length_listRemove (hnodup : list.Nodup) (hmem : t ∈ list) :
    (listRemove t list).length + 1 = list.length := by
  induction list with
  | nil => cases hmem
  | cons head tail ih =>
    obtain ⟨hfree, htail⟩ := List.nodup_cons.mp hnodup
    by_cases hhead : head = t
    · subst hhead
      rw [listRemove_head hnodup, List.length_cons]
    · have hin := (List.mem_cons.mp hmem).resolve_left (fun h => hhead h.symm)
      have hlength := ih htail hin
      unfold listRemove at hlength ⊢
      simpa [hhead] using hlength

end Remove

structure WaitQueue where
  thread : Tid → Thread
  suspendThread : List Tid

namespace WaitQueue

def setError (w : WaitQueue) (t : Tid) (error : Int) : WaitQueue :=
  { w with thread := update w.thread t { w.thread t with error := error } }

def suspend (w : WaitQueue) (flag : IpcFlag) (t : Tid) (time : Int) : WaitQueue where
  thread := update w.thread t
    { (w.thread t).suspend with
      timerActive := if 0 < time then true else (w.thread t).suspend.timerActive }
  suspendThread := listSuspend flag (fun u => (w.thread u).currentPriority) t
    w.suspendThread

def resume (w : WaitQueue) (t : Tid) : WaitQueue :=
  if (w.thread t).stat = .suspend then
    { thread := update w.thread t (w.thread t).resume
      suspendThread := listRemove t w.suspendThread }
  else w

def expire (w : WaitQueue) (t : Tid) : WaitQueue where
  thread := update w.thread t (w.thread t).expire
  suspendThread := listRemove t w.suspendThread

/-- The loop of `rt_ipc_list_resume_all`.  It ends only if each thread it resumes
leaves the list. -/
def resumeEach : List Tid → WaitQueue → Option WaitQueue
  | [], w => some w
  | t :: rest, w =>
    if (w.thread t).stat = .suspend then
      resumeEach rest ((w.setError t (-rtError)).resume t)
    else none

def resumeAll (w : WaitQueue) : Option WaitQueue := resumeEach w.suspendThread w

/-- Exactly the suspended threads are on the list, once each, and nothing has gone
wrong for them so far. -/
structure Ok (w : WaitQueue) : Prop where
  nodup : w.suspendThread.Nodup
  mem_iff : ∀ t, t ∈ w.suspendThread ↔ (w.thread t).stat = .suspend
  error : ∀ t ∈ w.suspendThread, (w.thread t).error = rtEok

section Steps

variable {w : WaitQueue} {t : Tid}

theorem Ok.not_mem_of_ready (hok : w.Ok) (hready : (w.thread t).stat = .ready) :
    t ∉ w.suspendThread := by
  rw [hok.mem_iff, hready]
  simp

theorem resume_eq (hsuspend : (w.thread t).stat = .suspend) :
    w.resume t =
      { thread := update w.thread t (w.thread t).resume
        suspendThread := listRemove t w.suspendThread } :=
  if_pos hsuspend

theorem Ok.setError (hok : w.Ok) (hready : (w.thread t).stat = .ready) (error : Int) :
    (w.setError t error).Ok where
  nodup := hok.nodup
  mem_iff := fun u => by
    by_cases hu : u = t
    · subst hu
      simpa [WaitQueue.setError] using hok.mem_iff u
    · simpa [WaitQueue.setError, hu] using hok.mem_iff u
  error := fun u hmem => by
    have hu : u ≠ t := by
      rintro rfl
      exact hok.not_mem_of_ready hready hmem
    simpa [WaitQueue.setError, hu] using hok.error u hmem

theorem Ok.suspend (hok : w.Ok) (hready : (w.thread t).stat = .ready)
    (herror : (w.thread t).error = rtEok) (flag : IpcFlag) (time : Int) :
    (w.suspend flag t time).Ok where
  nodup := listSuspend_nodup hok.nodup (hok.not_mem_of_ready hready)
  mem_iff := fun u => by
    simp only [WaitQueue.suspend, mem_listSuspend]
    by_cases hu : u = t
    · subst hu
      simp [Thread.suspend, hready]
    · simp [hu, hok.mem_iff u]
  error := fun u hmem => by
    simp only [WaitQueue.suspend, mem_listSuspend] at hmem ⊢
    by_cases hu : u = t
    · subst hu
      simpa using herror
    · simpa [hu] using hok.error u (hmem.resolve_left hu)

theorem Ok.leave (hok : w.Ok) {thread : Thread} (hready : thread.stat = .ready) :
    Ok { thread := update w.thread t thread
         suspendThread := listRemove t w.suspendThread } where
  nodup := listRemove_nodup hok.nodup
  mem_iff := fun u => by
    by_cases hu : u = t
    · subst hu
      simp [hready]
    · simp [hu, hok.mem_iff u]
  error := fun u hmem => by
    obtain ⟨hin, hu⟩ := mem_listRemove.mp hmem
    simpa [hu] using hok.error u hin

theorem Ok.resume (hok : w.Ok) (hsuspend : (w.thread t).stat = .suspend) : (w.resume t).Ok := by
  rw [resume_eq hsuspend]
  exact hok.leave (Thread.resume_stat _ hsuspend)

theorem Ok.expire (hok : w.Ok) : (w.expire t).Ok := hok.leave rfl

theorem resumeEach_spec {list : List Tid} {w : WaitQueue} (hlist : w.suspendThread = list)
    (hnodup : list.Nodup) (hsuspend : ∀ t ∈ list, (w.thread t).stat = .suspend) :
    ∃ threads, resumeEach list w = some { thread := threads, suspendThread := [] } ∧
      (∀ u, u ∉ list → threads u = w.thread u) ∧
      ∀ u ∈ list, (threads u).stat = .ready ∧ (threads u).error = -rtError := by
  induction list generalizing w with
  | nil =>
    refine ⟨w.thread, ?_, fun _ _ => rfl, fun u hu => by cases hu⟩
    rw [resumeEach, ← hlist]
  | cons t rest ih =>
    obtain ⟨hfree, hrest⟩ := List.nodup_cons.mp hnodup
    have hstat := hsuspend t List.mem_cons_self
    have hresume : (w.setError t (-rtError)).resume t =
        { thread := update w.thread t
            { w.thread t with
              error := -rtError, stat := .ready, timerActive := false }
          suspendThread := rest } := by
      simp [WaitQueue.resume, WaitQueue.setError, Thread.resume, hstat, hlist,
        listRemove_head hnodup]
    obtain ⟨threads, hall, hsame, hrefused⟩ := ih
      (w := { thread := update w.thread t
                { w.thread t with
                  error := -rtError, stat := .ready, timerActive := false }
              suspendThread := rest }) rfl hrest (by
          intro u hu
          have hne : u ≠ t := by
            rintro rfl
            exact hfree hu
          simpa [hne] using hsuspend u (List.mem_cons_of_mem t hu))
    refine ⟨threads, ?_, fun u hu => ?_, fun u hu => ?_⟩
    · rw [resumeEach, if_pos hstat, hresume]
      exact hall
    · rw [List.mem_cons, not_or] at hu
      rw [hsame u hu.2]
      simp [hu.1]
    · rcases List.mem_cons.mp hu with rfl | hu
      · rw [hsame u hfree]
        simp
      · exact hrefused u hu

theorem Ok.resumeAll (hok : w.Ok) :
    ∃ threads, w.resumeAll = some { thread := threads, suspendThread := [] } ∧
      (∀ u, u ∉ w.suspendThread → threads u = w.thread u) ∧
      ∀ u ∈ w.suspendThread, (threads u).stat = .ready ∧ (threads u).error = -rtError :=
  resumeEach_spec rfl hok.nodup (fun t ht => (hok.mem_iff t).mp ht)

theorem Ok.afterResumeAll (hok : w.Ok) {w' : WaitQueue} (hexec : w.resumeAll = some w') :
    w'.Ok := by
  obtain ⟨threads, hall, hsame, hrefused⟩ := hok.resumeAll
  rw [hall, Option.some.injEq] at hexec
  subst hexec
  refine ⟨List.nodup_nil, fun u => ?_, fun u hu => by cases hu⟩
  by_cases hu : u ∈ w.suspendThread
  · simp [(hrefused u hu).1]
  · have hnot : (w.thread u).stat ≠ .suspend := fun h => hu ((hok.mem_iff u).mpr h)
    simp [hsame u hu, hnot]

end Steps

end WaitQueue

end RtThread.Ipc
