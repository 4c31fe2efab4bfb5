import RtThread.Dfs.Poll

namespace RtThread.Dfs

open Function RtThread.Lib

namespace Poll

section Laws

variable (s : Poll)

def active : Prop := s.pc ≠ .teardown ∧ s.pc ≠ .returned

instance : Decidable s.active := inferInstanceAs (Decidable (_ ∧ _))

structure Law : Prop where
  kept : s.active → s.matched = true → s.triggered = true
  fresh : s.pc = .waitTimeout → s.triggered = true → s.matched = true
  unlinked : s.pc = .returned → ∀ queue node, .own node ∉ s.queues queue

def StepLaw (op : PollOp) (s' : Poll) : Prop :=
  s'.Law ∧
    match op with
    | .wakeup _ _ => s.thread = .blocked → s'.thread = .blocked
    | _ => True

def hitsOwn (queue : Nat) (key : BitVec 32) : Bool :=
  match s.hit queue key with
  | some (.own _) => true
  | _ => false

def Proper : PollOp → Prop
  | .step _ => s.pc = .scanned → s.num = 0 → s.istimeout = false → s.triggered = true →
      s.matched = true
  | .wakeup queue key =>
    (s.thread = .blocked → s.hitsOwn queue key = false) ∧
      (s.active → s.triggered = false → s.matchesNode queue key = true →
        s.hitsOwn queue key = true)
  | _ => True

end Laws

structure Inv (s : Poll) : Prop where
  law : s.Law
  owned : ∀ queue node, .own node ∈ s.queues queue → node ∈ s.nodes ∧ node.queue = queue

variable {fds : List PollFd} {msec : Int32} {s s' : Poll} {queue : Nat} {key : BitVec 32}

theorem hitsOwn_iff : s.hitsOwn queue key = true ↔ ∃ node, s.hit queue key = some (.own node) := by
  unfold hitsOwn
  constructor
  · intro h
    split at h
    next node hhit => exact ⟨node, hhit⟩
    · cases h
  · rintro ⟨node, hhit⟩
    rw [hhit]

theorem Inv.matches_of_hit (hinv : s.Inv) {node : PollNode} (hhit : s.hit queue key = some (.own node)) :
    s.matchesNode queue key = true := by
  obtain ⟨hmem, hqueue⟩ := hinv.owned queue node (List.mem_of_find?_eq_some hhit)
  have hwakes : (WqEntry.own node).wakes key = true := List.find?_some hhit
  exact List.any_eq_true.mpr ⟨node, hmem, Bool.and_eq_true_iff.mpr ⟨decide_eq_true hqueue, hwakes⟩⟩

theorem wqueueWakeup_spec (s : Poll) (queue : Nat) (key : BitVec 32) :
    (s.wqueueWakeup queue key).pc = s.pc ∧ (s.wqueueWakeup queue key).nodes = s.nodes ∧
      (s.wqueueWakeup queue key).matched = (s.matched || s.matchesNode queue key) ∧
      (s.wqueueWakeup queue key).triggered = (s.triggered || s.hitsOwn queue key) ∧
      (s.wqueueWakeup queue key).thread =
        (if s.hitsOwn queue key = true then .running else s.thread) ∧
      ∀ other, ∀ entry ∈ (s.wqueueWakeup queue key).queues other, entry ∈ s.queues other := by
  have herase (entry : WqEntry) (other : Nat) (a : WqEntry)
      (ha : a ∈ update s.queues queue ((s.queues queue).erase entry) other) :
      a ∈ s.queues other := by
    by_cases hother : other = queue
    · rw [hother, update_self] at ha
      rw [hother]
      exact List.mem_of_mem_erase ha
    · rwa [update_of_ne hother] at ha
  have hcall : ({ s with matched := s.matched || s.matchesNode queue key } : Poll).hit queue key =
      s.hit queue key := rfl
  unfold wqueueWakeup hitsOwn
  dsimp only
  rw [hcall]
  cases s.hit queue key with
  | none => exact ⟨rfl, rfl, rfl, (Bool.or_false _).symm, rfl, fun _ _ h => h⟩
  | some entry =>
    cases entry with
    | own node => exact ⟨rfl, rfl, rfl, (Bool.or_true _).symm, rfl, herase _⟩
    | other id entryKey => exact ⟨rfl, rfl, rfl, (Bool.or_false _).symm, rfl, herase _⟩

theorem Inv.wakeup_step (hinv : s.Inv) :
    (s.StepLaw (.wakeup queue key) (s.wqueueWakeup queue key) ↔ s.Proper (.wakeup queue key)) ∧
      (s.Proper (.wakeup queue key) → (s.wqueueWakeup queue key).Inv) := by
  obtain ⟨hpc, hnodes, hmatched, htriggered, hthread, hqueues⟩ := s.wqueueWakeup_spec queue key
  have hhit (h : s.hitsOwn queue key = true) : s.matchesNode queue key = true := by
    obtain ⟨node, hnode⟩ := hitsOwn_iff.mp h
    exact hinv.matches_of_hit hnode
  have hactive : (s.wqueueWakeup queue key).active ↔ s.active := by
    unfold active
    rw [hpc]
  -- with the condition nothing is lost
  have hlaw (hproper : s.Proper (.wakeup queue key)) : (s.wqueueWakeup queue key).Law := by
    refine ⟨fun ha h => ?_, fun hwait h => ?_, fun hreturned other node hmem => ?_⟩
    · rw [htriggered, Bool.or_eq_true]
      cases hold : s.triggered with
      | true => exact .inl rfl
      | false =>
        rw [hmatched, Bool.or_eq_true] at h
        rcases h with h | h
        · rw [hinv.law.kept (hactive.mp ha) h] at hold
          cases hold
        · exact .inr (hproper.2 (hactive.mp ha) hold h)
    · rw [hmatched, Bool.or_eq_true]
      rw [htriggered, Bool.or_eq_true] at h
      rcases h with h | h
      · exact .inl (hinv.law.fresh (hpc.symm.trans hwait) h)
      · exact .inr (hhit h)
    · exact hinv.law.unlinked (hpc.symm.trans hreturned) other node (hqueues other _ hmem)
  constructor
  · constructor
    · rintro ⟨hnext, hblocked⟩
      refine ⟨fun hthreadBlocked => ?_, fun ha hidle hmatch => ?_⟩
      · by_contra hown
        have hstays : (s.wqueueWakeup queue key).thread = .blocked := hblocked hthreadBlocked
        rw [hthread, if_pos (by simpa using hown)] at hstays
        cases hstays
      · have h := hnext.kept (hactive.mpr ha) (by rw [hmatched, hmatch, Bool.or_true])
        rw [htriggered, hidle, Bool.false_or] at h
        exact h
    · intro hproper
      refine ⟨hlaw hproper, fun hblocked => ?_⟩
      show (s.wqueueWakeup queue key).thread = .blocked
      rw [hthread, hproper.1 hblocked]
      exact hblocked
  · intro hproper
    refine ⟨hlaw hproper, fun other node hmem => ?_⟩
    rw [hnodes]
    exact hinv.owned other node (hqueues other _ hmem)

theorem Inv.frame (hinv : s.Inv) (hqueues : s'.queues = s.queues) (hnodes : s'.nodes = s.nodes)
    (htriggered : s'.triggered = s.triggered) (hmatched : s'.matched = s.matched)
    (hactive : s'.active → s.active) (hwait : s'.pc = .waitTimeout → s.triggered = true →
      s.matched = true) (hreturned : s'.pc = .returned → s.pc = .returned) : s'.Inv := by
  refine ⟨⟨fun ha h => ?_, fun h ht => ?_, fun h => ?_⟩, ?_⟩
  · rw [htriggered]
    rw [hmatched] at h
    exact hinv.law.kept (hactive ha) h
  · rw [hmatched]
    rw [htriggered] at ht
    exact hwait h ht
  · rw [hqueues]
    exact hinv.law.unlinked (hreturned h)
  · rw [hqueues, hnodes]
    exact hinv.owned

theorem scanFrom_cases (fds : List PollFd) (n : Nat) :
    scanFrom fds n = .scanned ∨ ∃ queues, scanFrom fds n = .scan n queues := by
  unfold scanFrom
  cases fds[n]? with
  | none => exact .inl rfl
  | some fd => exact .inr ⟨_, rfl⟩

theorem scanFrom_ne (fds : List PollFd) (n : Nat) :
    scanFrom fds n ≠ .waitTimeout ∧ scanFrom fds n ≠ .teardown ∧ scanFrom fds n ≠ .returned := by
  rcases scanFrom_cases fds n with h | ⟨queues, h⟩ <;> rw [h] <;> exact ⟨nofun, nofun, nofun⟩

section

variable (hinv : s.Inv)
include hinv

theorem Inv.startScan : (s.startScan fds).Inv := by
  obtain ⟨hwait, -, hreturned⟩ := scanFrom_ne fds 0
  exact ⟨⟨fun _ => nofun, fun h => absurd h hwait, fun h => absurd h hreturned⟩, hinv.owned⟩

theorem Inv.pollAdd (n : Nat) (queues : List Nat) (queue : Nat) (key : BitVec 32)
    (hactive : s.active) : ({ s.pollAdd queue key with pc := .scan n queues } : Poll).Inv := by
  unfold Poll.pollAdd
  split
  · refine ⟨⟨fun _ => hinv.law.kept hactive, nofun, nofun⟩, fun other node hmem => ?_⟩
    by_cases hother : other = queue
    · subst hother
      have hadded : WqEntry.own node ∈ update s.queues other
          (s.queues other ++ [.own ⟨s.nextNode, other, key⟩]) other := hmem
      rw [update_self, List.mem_append, List.mem_singleton] at hadded
      rcases hadded with h | h
      · exact ⟨List.mem_cons_of_mem _ (hinv.owned other node h).1, (hinv.owned other node h).2⟩
      · obtain rfl := WqEntry.own.inj h
        exact ⟨List.mem_cons_self, rfl⟩
    · have hold : WqEntry.own node ∈ update s.queues queue
          (s.queues queue ++ [.own ⟨s.nextNode, queue, key⟩]) other := hmem
      rw [update_of_ne hother] at hold
      exact ⟨List.mem_cons_of_mem _ (hinv.owned other node hold).1, (hinv.owned other node hold).2⟩
  · exact ⟨⟨fun _ => hinv.law.kept hactive, nofun, nofun⟩, hinv.owned⟩

theorem Inv.pollTest (n : Nat) (fd : PollFd) (mask : BitVec 32) (hactive : s.active) :
    (s.pollTest fds n fd mask).Inv := by
  obtain ⟨hwait, -, hreturned⟩ := scanFrom_ne fds (n + 1)
  have hnext (revents : Nat → BitVec 16) (num : Nat) (proc : Bool) :
      ({ s with
        revents := revents, num := num, proc := proc, pc := scanFrom fds (n + 1) } : Poll).Inv :=
    hinv.frame rfl rfl rfl rfl (fun _ => hactive) (fun h => absurd h hwait)
      fun h => absurd h hreturned
  simp only [Poll.pollTest]
  split
  · exact hnext _ _ _
  · exact hnext _ _ _

theorem Inv.endScan_step (hpc : s.pc = .scanned) (mask : BitVec 32) :
    (s.endScan.Law ↔ s.Proper (.step mask)) ∧ (s.Proper (.step mask) → s.endScan.Inv) := by
  have hproper : s.Proper (.step mask) ↔
      (s.num = 0 → s.istimeout = false → s.triggered = true → s.matched = true) :=
    ⟨fun h => h hpc, fun h _ => h⟩
  have hactive : s.active := by
    rw [active, hpc]
    exact ⟨nofun, nofun⟩
  have hnext (h : s.Proper (.step mask)) : s.endScan.Inv := by
    refine hinv.frame rfl rfl rfl rfl (fun _ => hactive) (fun hwait => ?_) fun hreturned => ?_
    · have hnot : ¬ (decide (s.num ≠ 0) || s.istimeout) = true := fun hdone => by
        rw [endScan, if_pos hdone] at hwait
        cases hwait
      rw [Bool.or_eq_true, decide_eq_true_iff, not_or, not_not] at hnot
      exact hproper.mp h hnot.1 (by simpa using hnot.2)
    · unfold endScan at hreturned
      dsimp only at hreturned
      split at hreturned <;> cases hreturned
  refine ⟨⟨fun hlaw => hproper.mpr fun hnum htimeout htriggered => ?_, fun h => (hnext h).law⟩, hnext⟩
  refine hlaw.fresh ?_ htriggered
  unfold endScan
  rw [hnum, htimeout]
  rfl

theorem Inv.leaveWait (hactive : s.active) : s.leaveWait.Inv :=
  hinv.frame rfl rfl rfl rfl (fun _ => hactive) nofun nofun

theorem Inv.enterWait (hactive : s.active) (timeout : Int32) : (s.enterWait timeout).Inv := by
  unfold Poll.enterWait
  split
  · exact hinv.frame rfl rfl rfl rfl (fun _ => hactive) nofun nofun
  · exact hinv.leaveWait hactive

theorem Inv.teardown (hpc : s.pc = .teardown) : s.teardown.Inv := by
  unfold Poll.teardown
  cases hnodes : s.nodes with
  | nil =>
    have hnone (queue : Nat) (node : PollNode) : .own node ∉ s.queues queue := fun hmem => by
      have h := (hinv.owned queue node hmem).1
      rw [hnodes] at h
      cases h
    exact ⟨⟨fun ha => absurd rfl ha.2, nofun, fun _ => hnone⟩,
      fun queue node hmem => absurd hmem (hnone queue node)⟩
  | cons node next =>
    refine ⟨⟨fun ha => absurd hpc ha.1, fun h => (nomatch hpc.symm.trans h),
      fun h => (nomatch hpc.symm.trans h)⟩, fun other a hmem => ?_⟩
    have hkept : WqEntry.own a ∈ (s.queues other).filter (· ≠ .own node) := hmem
    obtain ⟨hold, hne⟩ := List.mem_filter.mp hkept
    obtain ⟨hown, hqueue⟩ := hinv.owned other a hold
    rw [hnodes] at hown
    refine ⟨(List.mem_cons.mp hown).resolve_left fun h => ?_, hqueue⟩
    exact of_decide_eq_true hne (by rw [h])

theorem Inv.others {queues : Nat → List WqEntry}
    (hown : ∀ queue node, .own node ∈ queues queue → .own node ∈ s.queues queue) :
    ({ s with queues := queues } : Poll).Inv :=
  ⟨⟨hinv.law.kept, hinv.law.fresh, fun h queue node hmem =>
    hinv.law.unlinked h queue node (hown queue node hmem)⟩,
    fun queue node hmem => hinv.owned queue node (hown queue node hmem)⟩

theorem Inv.thread (thread : PollThread) : ({ s with thread := thread } : Poll).Inv :=
  ⟨⟨hinv.law.kept, hinv.law.fresh, hinv.law.unlinked⟩, hinv.owned⟩

theorem Inv.call_step {mask : BitVec 32} (hexec : s.step fds msec mask = some s') :
    (s'.Law ↔ s.Proper (.step mask)) ∧ (s.Proper (.step mask) → s'.Inv) := by
  have hkeeps (hpc : s.pc ≠ .scanned) (h : s'.Inv) :
      (s'.Law ↔ s.Proper (.step mask)) ∧ (s.Proper (.step mask) → s'.Inv) :=
    ⟨⟨fun _ hscanned => absurd hscanned hpc, fun _ => h.law⟩, fun _ => h⟩
  unfold Poll.step at hexec
  cases hpc : s.pc with
  | begin =>
    rw [hpc] at hexec
    obtain rfl := Option.some.inj hexec
    exact hkeeps (by rw [hpc]; exact nofun) hinv.startScan
  | scan n queues =>
    have hactive : s.active := by
      rw [active, hpc]
      exact ⟨nofun, nofun⟩
    rw [hpc] at hexec
    obtain ⟨fd, -, rfl⟩ := Option.map_eq_some_iff.mp hexec
    refine hkeeps (by rw [hpc]; exact nofun) ?_
    cases queues with
    | nil => exact hinv.pollTest n fd mask hactive
    | cons queue rest => exact hinv.pollAdd n rest queue fd.wanted hactive
  | scanned =>
    rw [hpc] at hexec
    obtain rfl := Option.some.inj hexec
    exact hinv.endScan_step hpc mask
  | waitTimeout =>
    rw [hpc] at hexec
    obtain rfl := Option.some.inj hexec
    exact hkeeps (by rw [hpc]; exact nofun) (hinv.enterWait (by
      rw [active, hpc]
      exact ⟨nofun, nofun⟩) _)
  | inWait =>
    rw [hpc] at hexec
    obtain rfl := Option.some.inj hexec
    exact hkeeps (by rw [hpc]; exact nofun) (hinv.leaveWait (by
      rw [active, hpc]
      exact ⟨nofun, nofun⟩))
  | teardown =>
    rw [hpc] at hexec
    obtain rfl := Option.some.inj hexec
    exact hkeeps (by rw [hpc]; exact nofun) (hinv.teardown hpc)
  | returned =>
    rw [hpc] at hexec
    cases hexec

theorem Inv.step {op : PollOp} (hexec : (pollMachine fds msec).exec s op = some s') :
    (s.StepLaw op s' ↔ s.Proper op) ∧ (s.Proper op → s'.Inv) := by
  have hkeeps (h : s'.Inv) : (s'.Law ∧ True ↔ True) ∧ (True → s'.Inv) :=
    ⟨⟨fun _ => trivial, fun _ => ⟨h.law, trivial⟩⟩, fun _ => h⟩
  cases op with
  | step mask =>
    simp only [pollMachine] at hexec
    split at hexec
    · obtain ⟨hlaw, hnext⟩ := hinv.call_step hexec
      exact ⟨⟨fun h => hlaw.mp h.1, fun h => ⟨hlaw.mpr h, trivial⟩⟩, hnext⟩
    · cases hexec
  | wakeup queue key =>
    obtain rfl := Option.some.inj hexec
    exact hinv.wakeup_step
  | expire =>
    simp only [pollMachine] at hexec
    split at hexec
    · obtain rfl := Option.some.inj hexec
      exact hkeeps (hinv.thread .running)
    · cases hexec
  | block =>
    simp only [pollMachine] at hexec
    split at hexec
    · obtain rfl := Option.some.inj hexec
      exact hkeeps (hinv.thread .blocked)
    · cases hexec
  | unblock =>
    simp only [pollMachine] at hexec
    split at hexec
    · obtain rfl := Option.some.inj hexec
      exact hkeeps (hinv.thread .running)
    · cases hexec
  | otherAdd queue id key =>
    obtain rfl := Option.some.inj hexec
    refine hkeeps (hinv.others fun other node hmem => ?_)
    by_cases hother : other = queue
    · subst hother
      rw [update_self, List.mem_append, List.mem_singleton] at hmem
      exact hmem.resolve_right nofun
    · rwa [update_of_ne hother] at hmem
  | otherRemove queue id key =>
    obtain rfl := Option.some.inj hexec
    refine hkeeps (hinv.others fun other node hmem => ?_)
    by_cases hother : other = queue
    · subst hother
      rw [update_self] at hmem
      exact List.mem_of_mem_erase hmem
    · rwa [update_of_ne hother] at hmem

end

theorem Initial.inv (h : s.Initial msec) : s.Inv where
  law :=
    { kept := fun _ hmatched => absurd (h.matched.symm.trans hmatched) (by decide)
      fresh := fun hwait => (nomatch h.pc.symm.trans hwait)
      unlinked := fun hreturned => (nomatch h.pc.symm.trans hreturned) }
  owned queue node hmem := absurd hmem (h.others queue node)

instance (s : Poll) (op : PollOp) : Decidable (s.Proper op) :=
  match op with
  | .step _ => inferInstanceAs (Decidable (_ → _ → _ → _ → _))
  | .wakeup _ _ => inferInstanceAs (Decidable ((_ → _) ∧ (_ → _ → _ → _)))
  | .expire | .block | .unblock | .otherAdd .. | .otherRemove .. => .isTrue trivial

end Poll

/-- Proper steps lose no wake-up, keep none for a later round and wake the thread from its wait only,
and no other step does. -/
theorem reachable_pollLaw (fds : List PollFd) (msec : Int32) {s : Poll}
    (hreach : (pollMachine fds msec).Reachable Poll.Proper s) :
    s.Law ∧ ∀ op s', (pollMachine fds msec).exec s op = some s' → (s.StepLaw op s' ↔ s.Proper op) := by
  have hinv : s.Inv := hreach.invariant Poll.Inv (fun _ => Poll.Initial.inv)
    fun _ _ _ hinv hproper hexec => (hinv.step hexec).2 hproper
  exact ⟨hinv.law, fun _ _ hexec => (hinv.step hexec).1⟩

def pollCalled : Poll where
  queues _ := []
  thread := .running
  pc := .begin
  triggered := false
  nodes := []
  proc := true
  num := 0
  istimeout := false
  revents _ := 0
  nextNode := 0
  matched := false

theorem pollCalled_initial {msec : Int32} (hmsec : msec ≠ 0) : pollCalled.Initial msec where
  others := nofun
  thread := rfl
  pc := rfl
  triggered := rfl
  nodes := rfl
  proc := (decide_eq_true hmsec).symm
  istimeout := (decide_eq_false hmsec).symm
  matched := rfl

def oneDriver : List PollFd := [⟨.driver [0], 1⟩]

/-- A wake-up has come while the thread slept; the step is the one that returns. -/
theorem reachable_pollLaw_woken :
    ∃ s s', (pollMachine oneDriver (-1)).Reachable Poll.Proper s ∧
      (pollMachine oneDriver (-1)).exec s (.step 0) = some s' ∧ (s'.num, s'.pc) = (1, .returned) ∧
      s.Law ∧ s.StepLaw (.step 0) s' := by
  have hrun : ((pollMachine oneDriver (-1)).run Poll.Proper pollCalled
      [.step 0, .block, .unblock, .step 0, .step 0, .step 0, .step 0, .wakeup 0 1, .step 0, .step 0,
        .step 0, .wakeup 0 1, .step 1, .step 0, .step 0]).map
      (fun s => (((pollMachine oneDriver (-1)).exec s (.step 0)).map fun s' => (s'.num, s'.pc),
        decide (s.Proper (.step 0)))) = some (some (1, .returned), true) := by
    decide +kernel
  obtain ⟨s, hreach, hvalue⟩ := Machine.exists_reachable_of_run
    (pollCalled_initial (by decide)) hrun
  simp only [Prod.mk.injEq, decide_eq_true_eq] at hvalue
  obtain ⟨hnext, hproper⟩ := hvalue
  obtain ⟨s', hexec, hreturned⟩ := Option.map_eq_some_iff.mp hnext
  have hlaws := reachable_pollLaw oneDriver (-1) hreach
  exact ⟨s, s', hreach, hexec, hreturned, hlaws.1, (hlaws.2 _ s' hexec).mpr hproper⟩

/-- A wake-up for the first descriptor ends the wait for the heap lock, on the way to the second. -/
theorem strayWakeup_not_stepLaw :
    ∃ s, (pollMachine [⟨.driver [0], 1⟩, ⟨.driver [1], 1⟩] (-1)).Reachable (fun _ _ => True) s ∧
      ∃ s', (pollMachine [⟨.driver [0], 1⟩, ⟨.driver [1], 1⟩] (-1)).exec s (.wakeup 0 1) = some s' ∧
        ¬ s.StepLaw (.wakeup 0 1) s' := by
  have hrun : ((pollMachine [⟨.driver [0], 1⟩, ⟨.driver [1], 1⟩] (-1)).run (fun _ _ => True)
      pollCalled [.step 0, .step 0, .step 0, .block]).map
      (fun s => (s.thread, (s.wqueueWakeup 0 1).thread)) = some (.blocked, .running) := by
    decide +kernel
  obtain ⟨s, hreach, hvalue⟩ := Machine.exists_reachable_of_run
    (pollCalled_initial (by decide)) hrun
  obtain ⟨hblocked, hresumed⟩ := Prod.mk.inj hvalue
  refine ⟨s, hreach, _, rfl, fun h => ?_⟩
  have hstays : (s.wqueueWakeup 0 1).thread = .blocked := h.2 hblocked
  rw [hresumed] at hstays
  cases hstays

end RtThread.Dfs
