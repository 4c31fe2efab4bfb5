import RtThread.Ipc.Mutex

namespace RtThread.Ipc

open Function

section Fields

variable (cfg : Config) (s : MutexSystem) (t owner u : Tid) (m : Nat) (time : Int)

namespace MutexSystem

@[simp] theorem setThread_thread (thread : Thread) :
    (s.setThread t thread).thread = update s.thread t thread := rfl
@[simp] theorem setThread_mutex (thread : Thread) : (s.setThread t thread).mutex = s.mutex := rfl
@[simp] theorem setThread_call (thread : Thread) : (s.setThread t thread).call = s.call := rfl
@[simp] theorem setThread_taken (thread : Thread) : (s.setThread t thread).taken = s.taken := rfl

@[simp] theorem setMutex_thread (mutex : Mutex) : (s.setMutex m mutex).thread = s.thread := rfl
@[simp] theorem setMutex_mutex (mutex : Mutex) :
    (s.setMutex m mutex).mutex = update s.mutex m mutex := rfl
@[simp] theorem setMutex_call (mutex : Mutex) : (s.setMutex m mutex).call = s.call := rfl
@[simp] theorem setMutex_taken (mutex : Mutex) : (s.setMutex m mutex).taken = s.taken := rfl

@[simp] theorem setTaken_thread (count : Nat) : (s.setTaken t m count).thread = s.thread := rfl
@[simp] theorem setTaken_mutex (count : Nat) : (s.setTaken t m count).mutex = s.mutex := rfl
@[simp] theorem setTaken_call (count : Nat) : (s.setTaken t m count).call = s.call := rfl
theorem setTaken_apply (count : Nat) (m' : Nat) :
    (s.setTaken t m count).taken u m' = if u = t ∧ m' = m then count else s.taken u m' := by
  simp only [setTaken, update_apply]
  by_cases hu : u = t
  · simp [hu, update_apply]
  · simp [hu]

@[simp] theorem setReturned_thread (returned : Returned) :
    (s.setReturned returned).thread = s.thread := rfl
@[simp] theorem setReturned_mutex (returned : Returned) :
    (s.setReturned returned).mutex = s.mutex := rfl
@[simp] theorem setReturned_call (returned : Returned) :
    (s.setReturned returned).call = s.call := rfl
@[simp] theorem setReturned_taken (returned : Returned) :
    (s.setReturned returned).taken = s.taken := rfl

@[simp] theorem unlink_thread : (s.unlink t).thread = s.thread := rfl
@[simp] theorem unlink_call : (s.unlink t).call = s.call := rfl
@[simp] theorem unlink_taken : (s.unlink t).taken = s.taken := rfl
@[simp] theorem unlink_mutex : (s.unlink t).mutex m =
    { s.mutex m with suspendThread := listRemove t (s.mutex m).suspendThread } := rfl

def clearError (s : MutexSystem) (t : Tid) : MutexSystem :=
  s.setThread t { s.thread t with error := rtEok }

end MutexSystem

structure SameBut (s s' : MutexSystem) : Prop where
  mutex : s'.mutex = s.mutex
  call : s'.call = s.call
  taken : s'.taken = s.taken
  base : s'.base = s.base
  stat : ∀ u, (s'.thread u).stat = (s.thread u).stat
  error : ∀ u, (s'.thread u).error = (s.thread u).error

theorem changePriority_sameBut (priority : Nat) : SameBut s (s.changePriority cfg t priority) := by
  refine ⟨rfl, rfl, rfl, rfl, fun u => ?_, fun u => ?_⟩
  · simp only [MutexSystem.changePriority, MutexSystem.setThread_thread, update_apply]
    split
    next hu => simp [hu]
    · rfl
  · simp only [MutexSystem.changePriority, MutexSystem.setThread_thread, update_apply]
    split
    next hu => simp [hu]
    · rfl

theorem SameBut.refl : SameBut s s := ⟨rfl, rfl, rfl, rfl, fun _ => rfl, fun _ => rfl⟩

theorem boostOwner_sameBut : SameBut s (boostOwner cfg t owner s) := by
  unfold boostOwner
  split
  · exact changePriority_sameBut cfg s owner _
  · exact SameBut.refl s

theorem restorePriority_sameBut : SameBut s (restorePriority cfg t m s) := by
  unfold restorePriority
  split
  · exact changePriority_sameBut cfg s t _
  · exact SameBut.refl s

theorem changePriority_priority (priority : Nat) :
    (s.changePriority cfg t priority).priority = update s.priority t priority := by
  funext u
  simp only [MutexSystem.priority, MutexSystem.changePriority,
    MutexSystem.setThread_thread, update_apply]
  split
  · simp
  · rfl

theorem boostOwner_priority :
    (boostOwner cfg t owner s).priority =
      update s.priority owner (min (s.priority t) (s.priority owner)) := by
  unfold boostOwner
  split
  next hlt => rw [changePriority_priority, Nat.min_eq_left (Nat.le_of_lt hlt)]
  next hge =>
    rw [Nat.min_eq_right (Nat.le_of_not_lt hge), update_eq_self]

theorem restorePriority_priority :
    (restorePriority cfg t m s).priority = update s.priority t (s.mutex m).originalPriority := by
  unfold restorePriority
  split
  · rw [changePriority_priority]
  next heq =>
    rw [not_not] at heq
    rw [heq, update_eq_self]

end Fields

inductive MutexStep (cfg : Config) (s : MutexSystem) : MutexOp → MutexSystem → Prop
  | again : s.CanCall t → (s.mutex m).owner = some t →
      MutexStep cfg s (.take t m time) (takeAgain t m (s.clearError t))
  | available : s.CanCall t → (s.mutex m).owner ≠ some t → 0 < (s.mutex m).value →
      MutexStep cfg s (.take t m time) (takeAvailable t m (s.clearError t))
  | unavailable : s.CanCall t → (s.mutex m).owner ≠ some t → time = 0 →
      MutexStep cfg s (.take t m time)
        ((s.setThread t { s.thread t with error := -rtEtimeout }).setReturned
          (.take t m (-rtEtimeout)))
  | waits : s.CanCall t → (s.mutex m).owner = some owner → owner ≠ t → time ≠ 0 →
      MutexStep cfg s (.take t m time)
        (suspendOn t m time (boostOwner cfg t owner (s.clearError t)))
  | takeEnd : s.call t = some m → (s.thread t).stat = .ready →
      MutexStep cfg s (.takeEnd t) (rtMutexTakeEnd t m s)
  | refused : s.CanCall t → (s.mutex m).owner ≠ some t →
      MutexStep cfg s (.release t m)
        ((s.setThread t { s.thread t with error := -rtError }).setReturned
          (.release t m (-rtError)))
  | dropped : s.CanCall t → (s.mutex m).owner = some t →
      dec8 (s.mutex m).hold ≠ 0 →
      MutexStep cfg s (.release t m)
        ((dropHold t m s).setReturned (.release t m rtEok))
  | freed : s.CanCall t → (s.mutex m).owner = some t → dec8 (s.mutex m).hold = 0 →
      (s.mutex m).suspendThread = [] →
      MutexStep cfg s (.release t m)
        ((free m (restorePriority cfg t m (dropHold t m s))).setReturned
          (.release t m rtEok))
  | handed : s.CanCall t → (s.mutex m).owner = some t → dec8 (s.mutex m).hold = 0 →
      (s.mutex m).suspendThread = next :: rest →
      MutexStep cfg s (.release t m)
        ((handOver m next (restorePriority cfg t m (dropHold t m s))).setReturned
          (.release t m rtEok))
  | timeout : (s.thread t).stat = .suspend →
      MutexStep cfg s (.timeout t) (rtThreadTimeout t s)

theorem rtMutexTake_step {cfg : Config} {s s' : MutexSystem} {t : Tid} {m : Nat}
    {time : Int} (hcan : s.CanCall t) (hexec : rtMutexTake cfg t m time s = some s') :
    MutexStep cfg s (.take t m time) s' := by
  unfold rtMutexTake at hexec
  dsimp only at hexec
  split at hexec
  next howner =>
    cases hexec
    exact .again hcan howner
  next howner =>
    split at hexec
    next hvalue =>
      cases hexec
      exact .available hcan howner hvalue
    · split at hexec
      next htime =>
        cases hexec
        have hstep : MutexStep cfg s (.take t m time) _ := .unavailable hcan howner htime
        simpa [MutexSystem.setThread] using hstep
      next htime =>
        split at hexec
        · cases hexec
        next owner hsome =>
          cases hexec
          refine .waits hcan hsome ?_ htime
          rintro rfl
          exact howner hsome

theorem rtMutexRelease_step {cfg : Config} {s : MutexSystem} {t : Tid} {m : Nat}
    (hcan : s.CanCall t) :
    MutexStep cfg s (.release t m) (rtMutexRelease cfg t m s) := by
  unfold rtMutexRelease
  split
  next howner => exact .refused hcan howner
  next howner =>
    rw [not_not] at howner
    have hhold : ((dropHold t m s).mutex m).hold = dec8 (s.mutex m).hold := by
      simp [dropHold]
    have hwaiters : ((restorePriority cfg t m (dropHold t m s)).mutex m).suspendThread =
        (s.mutex m).suspendThread := by
      rw [(restorePriority_sameBut cfg (dropHold t m s) t m).mutex]
      simp [dropHold]
    dsimp only
    rw [hhold]
    split
    next hzero =>
      unfold releaseLast
      dsimp only
      split
      next hnil => exact .freed hcan howner hzero (by rw [← hwaiters, hnil])
      next next rest hcons => exact .handed hcan howner hzero (by rw [← hwaiters, hcons])
    next hne => exact .dropped hcan howner hne

theorem exec_step {cfg : Config} {s s' : MutexSystem} {op : MutexOp}
    (hexec : s.exec cfg op = some s') : MutexStep cfg s op s' := by
  cases op with
  | take t m time =>
    simp only [MutexSystem.exec] at hexec
    split at hexec
    next hcan => exact rtMutexTake_step hcan hexec
    · cases hexec
  | takeEnd t =>
    simp only [MutexSystem.exec] at hexec
    split at hexec
    · cases hexec
    next m hcall =>
      split at hexec
      next hready =>
        cases hexec
        exact .takeEnd hcall hready
      · cases hexec
  | release t m =>
    simp only [MutexSystem.exec] at hexec
    split at hexec
    next hcan =>
      cases hexec
      exact rtMutexRelease_step hcan
    · cases hexec
  | timeout t =>
    simp only [MutexSystem.exec] at hexec
    split at hexec
    next hactive =>
      cases hexec
      exact .timeout hactive.1
    · cases hexec

end RtThread.Ipc
