import RtThread.Mem.Mempool

namespace RtThread.Mem

open RtThread.Lib

namespace MpSystem

structure WaitInv (s : MpSystem) : Prop where
  nodup : s.pool.suspendThread.Nodup
  waiting : ∀ t ∈ s.pool.suspendThread, (s.thread t).stat = .suspend ∧ (s.thread t).call ≠ none
  count : s.pool.suspendThreadCount = s.pool.suspendThread.length

def InTime (s : MpSystem) : MpOp → Prop
  | .expire t => t ∉ s.pool.suspendThread
  | _ => True

instance (s : MpSystem) (op : MpOp) : Decidable (s.InTime op) :=
  match op with
  | .expire t => inferInstanceAs (Decidable (t ∉ s.pool.suspendThread))
  | .alloc .. | .goOn _ | .free .. | .delay _ | .tick => .isTrue trivial

section Wait

variable {s s' : MpSystem} {t : Tid} {caller : MpCaller} {time : Int}

theorem WaitInv.not_mem (hinv : s.WaitInv) (hready : (s.thread t).stat = .ready) :
    t ∉ s.pool.suspendThread := fun hmem => by
  rw [(hinv.waiting t hmem).1] at hready
  cases hready

theorem WaitInv.of_same (hinv : s.WaitInv)
    (hlist : s'.pool.suspendThread = s.pool.suspendThread)
    (hcount : s'.pool.suspendThreadCount = s.pool.suspendThreadCount)
    (hthread : ∀ t ∈ s.pool.suspendThread, s'.thread t = s.thread t) : s'.WaitInv where
  nodup := hlist ▸ hinv.nodup
  waiting := fun t hmem => by
    rw [hlist] at hmem
    rw [hthread t hmem]
    exact hinv.waiting t hmem
  count := by rw [hlist, hcount, hinv.count]

theorem WaitInv.setThread (hinv : s.WaitInv) (hfree : t ∉ s.pool.suspendThread)
    (thread : MpThread) : (s.setThread t thread).WaitInv := by
  refine hinv.of_same rfl rfl fun u hmem => ?_
  have hne : u ≠ t := fun h => hfree (h ▸ hmem)
  exact Function.update_of_ne hne _ _

def Runs (s : MpSystem) : MpCaller → Prop
  | .thread t => (s.thread t).stat = .ready
  | .isr => True

section

variable (hinv : s.WaitInv)
include hinv

theorem WaitInv.ret (caller : MpCaller) (hruns : s.Runs caller) (block : Option Nat) :
    (s.ret caller block).WaitInv := by
  cases caller with
  | thread t =>
    exact (hinv.setThread (hinv.not_mem hruns) _).of_same rfl rfl fun _ _ => rfl
  | isr => exact hinv.of_same rfl rfl fun _ _ => rfl

theorem WaitInv.setErrno (hruns : s.Runs caller) (error : Int) :
    (s.setErrno caller error).WaitInv ∧ (s.setErrno caller error).Runs caller := by
  cases caller with
  | thread t =>
    refine ⟨hinv.setThread (hinv.not_mem hruns) _, ?_⟩
    simpa [Runs, MpSystem.setErrno, MpSystem.setThread] using hruns
  | isr => exact ⟨hinv.of_same rfl rfl fun _ _ => rfl, trivial⟩

theorem WaitInv.sleep (hexec : s.sleep t time = some s') : s'.WaitInv := by
  unfold MpSystem.sleep at hexec
  split at hexec
  · cases hexec
  next hready =>
    rw [not_not] at hready
    have hfree := hinv.not_mem hready
    cases hexec
    refine ⟨List.nodup_cons.mpr ⟨hfree, hinv.nodup⟩, fun u hmem => ?_, ?_⟩
    · by_cases hu : u = t
      · subst hu
        simp [MpSystem.setThread]
      · have hmem' : u ∈ s.pool.suspendThread := by simpa [hu] using hmem
        simpa [MpSystem.setThread, hu] using hinv.waiting u hmem'
    · simp [hinv.count]

theorem WaitInv.take (hruns : s.Runs caller) (hexec : s.take caller = some s') : s'.WaitInv := by
  unfold MpSystem.take at hexec
  split at hexec
  · cases hexec
  next block _ =>
    cases hexec
    have htaken : ({ s with
        pool := { s.pool with
          blockFreeCount := s.pool.blockFreeCount - 1
          blockList := s.pool.header block
          header := Function.update s.pool.header block (some s.self) }
        live := block :: s.live } : MpSystem).WaitInv := hinv.of_same rfl rfl fun _ _ => rfl
    refine htaken.ret caller ?_ _
    cases caller <;> exact hruns

theorem WaitInv.tryAlloc (caller : MpCaller) (hruns : s.Runs caller)
    (hexec : s.tryAlloc caller time = some s') : s'.WaitInv := by
  unfold MpSystem.tryAlloc at hexec
  split at hexec
  · split at hexec
    · cases hexec
      obtain ⟨hset, hruns'⟩ := hinv.setErrno hruns (-rtEtimeout)
      exact hset.ret caller hruns' _
    · cases caller with
      | thread t => exact hinv.sleep hexec
      | isr => cases hexec
  · exact hinv.take hruns hexec

theorem WaitInv.goOn (hexec : s.goOn t = some s') : s'.WaitInv := by
  unfold MpSystem.goOn at hexec
  split at hexec
  · cases hexec
  next call _ =>
    split at hexec
    · cases hexec
    next hready =>
      rw [not_not] at hready
      split at hexec
      · cases hexec
        exact hinv.ret (.thread t) hready _
      · exact hinv.tryAlloc (.thread t) hready hexec

theorem WaitInv.free {block : Nat} {stray : ThreadStat}
    (hexec : s.free block stray = some s') : s'.WaitInv := by
  obtain ⟨hnodup, hwaiting, hcount⟩ := hinv
  unfold MpSystem.free at hexec
  split at hexec
  · dsimp only at hexec
    split at hexec
    next hsome =>
      split at hexec
      next thread rest hlist =>
        cases hexec
        rw [hlist] at hnodup hwaiting hcount
        have hstat := (hwaiting thread (by simp)).1
        obtain ⟨hnot, hrest⟩ := List.nodup_cons.mp hnodup
        simp only [MpSystem.resume, MpSystem.setThread, Function.update_self, hstat, ne_eq,
          not_true_eq_false, if_false, hlist, List.erase_cons_head]
        refine ⟨hrest, fun u hmem => ?_, by simp [hcount]⟩
        have hne : u ≠ thread := fun h => hnot (h ▸ hmem)
        simpa [hne] using hwaiting u (List.mem_cons_of_mem _ hmem)
      next hlist =>
        rw [hlist] at hcount
        rw [hcount] at hsome
        exact absurd hsome (Nat.lt_irrefl _)
    · cases hexec
      exact ⟨hnodup, hwaiting, hcount⟩
  · cases hexec

theorem expire_count (hexec : s.expire t = some s') :
    s'.pool.suspendThreadCount = s'.pool.suspendThread.length ↔ t ∉ s.pool.suspendThread := by
  have hcount := hinv.count
  unfold MpSystem.expire at hexec
  split at hexec
  · cases hexec
    dsimp only
    by_cases hmem : t ∈ s.pool.suspendThread
    · have hpos : 0 < s.pool.suspendThread.length := List.length_pos_of_mem hmem
      rw [List.length_erase_of_mem hmem]
      simp only [hmem, not_true_eq_false, iff_false]
      omega
    · rw [List.erase_of_not_mem hmem]
      simp [hmem, hcount]
  · cases hexec

theorem WaitInv.expire (hfree : t ∉ s.pool.suspendThread)
    (hexec : s.expire t = some s') : s'.WaitInv := by
  unfold MpSystem.expire at hexec
  split at hexec
  · cases hexec
    refine (hinv.setThread hfree _).of_same ?_ rfl fun _ _ => rfl
    exact List.erase_of_not_mem hfree
  · cases hexec

theorem WaitInv.exec {op : MpOp} (htime : s.InTime op)
    (hexec : s.exec op = some s') : s'.WaitInv := by
  have hinv₀ : ({ s with returned := none } : MpSystem).WaitInv :=
    hinv.of_same rfl rfl fun _ _ => rfl
  cases op with
  | alloc caller time =>
    cases caller with
    | thread t =>
      simp only [MpSystem.exec] at hexec
      split at hexec
      next hready => exact hinv₀.tryAlloc (.thread t) hready.1 hexec
      · cases hexec
    | isr => exact hinv₀.tryAlloc .isr trivial hexec
  | goOn t => exact hinv₀.goOn hexec
  | free block stray => exact hinv₀.free hexec
  | expire t => exact hinv₀.expire htime hexec
  | delay t =>
    simp only [MpSystem.exec, MpSystem.delay] at hexec
    split at hexec
    next hready =>
      cases hexec
      exact hinv₀.setThread (hinv₀.not_mem hready.1) _
    · cases hexec
  | tick =>
    cases hexec
    exact hinv₀.of_same rfl rfl fun _ _ => rfl

end

theorem MpInitial.waitInv (hinit : MpInitial s) : s.WaitInv := by
  obtain ⟨start, size, blockSize, memory, hpool⟩ := hinit.pool
  have hlist : s.pool.suspendThread = [] := by rw [hpool]; rfl
  have hcount : s.pool.suspendThreadCount = 0 := by rw [hpool]; rfl
  exact ⟨by simp [hlist], by simp [hlist], by simp [hlist, hcount]⟩

end Wait

/-- The count is right in a run in which no thread waits too long, and the next step
keeps it so exactly if no thread does then. -/
theorem reachable_suspendThreadCount {s : MpSystem}
    (hreach : mpMachine.Reachable (fun s op => s.InTime op) s) :
    s.pool.suspendThreadCount = s.pool.suspendThread.length ∧
      ∀ op s', mpMachine.exec s op = some s' →
        (s'.pool.suspendThreadCount = s'.pool.suspendThread.length ↔ s.InTime op) := by
  have hinv := hreach.invariant WaitInv (fun s hinit => MpInitial.waitInv hinit)
    fun s op s' hinv htime hexec => hinv.exec htime hexec
  refine ⟨hinv.count, fun op s' hexec => ?_⟩
  by_cases hexpire : ∃ t, op = .expire t
  · obtain ⟨t, rfl⟩ := hexpire
    have hinv₀ : ({ s with returned := none } : MpSystem).WaitInv :=
      hinv.of_same rfl rfl fun _ _ => rfl
    exact expire_count (s := { s with returned := none }) hinv₀ hexec
  · have htime : s.InTime op := by
      cases op with
      | expire t => exact absurd ⟨t, rfl⟩ hexpire
      | _ => trivial
    exact iff_of_true (hinv.exec htime hexec).count htime

def oneBlock : MpSystem where
  self := 4096
  listError := 4168
  pool := Mempool.rtMpInit 8192 8 4 fun _ => none
  thread := fun _ => { stat := .ready, error := rtEok, timerActive := false, call := none }
  irqErrno := rtEok
  tick := 0
  live := []
  returned := none

theorem oneBlock_initial : MpInitial oneBlock :=
  ⟨⟨8192, 8, 4, _, rfl⟩, by decide, rfl, fun _ => ⟨rfl, rfl⟩, rfl⟩

/-- Thread 2 waits in vain until the block of thread 1 comes back. -/
theorem reachable_suspendThreadCount_oneBlock :
    ∃ s, mpMachine.Reachable (fun s op => s.InTime op) s ∧ s.pool.suspendThread = [3] ∧
      s.pool.suspendThreadCount = s.pool.suspendThread.length := by
  have hrun : (mpMachine.run (fun s op => s.InTime op) oneBlock
      [.alloc (.thread 1) 0, .alloc (.thread 3) (-1), .alloc (.thread 2) 10, .free 8192 .init,
        .goOn 2]).map (fun s => s.pool.suspendThread) = some [3] := by decide +kernel
  obtain ⟨s, hreach, hvalue⟩ := Machine.exists_reachable_of_run oneBlock_initial hrun
  exact ⟨s, hreach, hvalue, (reachable_suspendThreadCount hreach).1⟩

/-- Thread 2 stops waiting, and the pool still counts it. -/
theorem suspendThreadCount_fails_after_timeout :
    ∃ s, mpMachine.Reachable (fun _ _ => True) s ∧
      s.pool.suspendThreadCount ≠ s.pool.suspendThread.length := by
  have hrun : (mpMachine.run (fun _ _ => True) oneBlock
      [.alloc (.thread 1) 0, .alloc (.thread 2) 10, .expire 2]).map
        (fun s => (s.pool.suspendThreadCount, s.pool.suspendThread)) = some (1, []) := by
    decide +kernel
  obtain ⟨s, hreach, hvalue⟩ := Machine.exists_reachable_of_run oneBlock_initial hrun
  simp only [Prod.mk.injEq] at hvalue
  refine ⟨s, hreach, ?_⟩
  rw [hvalue.1, hvalue.2]
  decide

end MpSystem

end RtThread.Mem
