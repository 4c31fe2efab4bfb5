import RtThread.Ipc.Semaphore

namespace RtThread.Ipc

open RtThread.Lib SemSystem WaitQueue

inductive SemCallOk (s : SemSystem) (t : Tid) : Prop
  | outside : s.call t = false → (s.thread t).stat = .ready → t ∉ s.suspendThread →
      t ∉ s.bound → t ∉ s.stale → SemCallOk s t
  | waiting : s.call t = true → (s.thread t).stat = .suspend →
      (s.thread t).error = rtEok → t ∈ s.suspendThread → t ∉ s.bound → t ∉ s.stale →
      SemCallOk s t
  | granted : s.call t = true → (s.thread t).stat = .ready →
      (s.thread t).error = rtEok → t ∉ s.suspendThread → t ∈ s.bound → t ∉ s.stale →
      SemCallOk s t
  | grantedBefore : s.call t = true → (s.thread t).stat = .ready →
      (s.thread t).error = rtEok → t ∉ s.suspendThread → t ∉ s.bound → t ∈ s.stale →
      SemCallOk s t
  | refused : s.call t = true → (s.thread t).stat = .ready →
      (s.thread t).error ≠ rtEok → t ∉ s.suspendThread → t ∉ s.bound → t ∉ s.stale →
      SemCallOk s t

structure SemInv (s : SemSystem) : Prop where
  value_lt : s.value < 65536
  waiters : s.suspendThread ≠ [] → s.value = 0
  queue : s.toWaitQueue.Ok
  bound_nodup : s.bound.Nodup
  calls : ∀ t, SemCallOk s t

section Frame

variable {s s' : SemSystem} {t : Tid}

theorem SemCallOk.of_same (hok : SemCallOk s t) (hcall : s'.call t = s.call t)
    (hthread : s'.thread t = s.thread t)
    (hlist : t ∈ s'.suspendThread ↔ t ∈ s.suspendThread)
    (hbound : t ∈ s'.bound ↔ t ∈ s.bound) (hstale : t ∈ s'.stale ↔ t ∈ s.stale) :
    SemCallOk s' t := by
  cases hok with
  | outside h1 h2 h3 h4 h5 =>
    apply SemCallOk.outside <;> simp_all
  | waiting h1 h2 h3 h4 h5 h6 =>
    apply SemCallOk.waiting <;> simp_all
  | granted h1 h2 h3 h4 h5 h6 =>
    apply SemCallOk.granted <;> simp_all
  | grantedBefore h1 h2 h3 h4 h5 h6 =>
    apply SemCallOk.grantedBefore <;> simp_all
  | refused h1 h2 h3 h4 h5 h6 =>
    apply SemCallOk.refused <;> simp_all

theorem SemCallOk.of_mem (hok : SemCallOk s t) (hmem : t ∈ s.suspendThread) :
    s.call t = true ∧ (s.thread t).stat = .suspend ∧ (s.thread t).error = rtEok ∧
      t ∉ s.bound ∧ t ∉ s.stale := by
  cases hok with
  | outside _ _ h => exact absurd hmem h
  | waiting hcall hstat herror _ hbound hstale =>
    exact ⟨hcall, hstat, herror, hbound, hstale⟩
  | granted _ _ _ h => exact absurd hmem h
  | grantedBefore _ _ _ h => exact absurd hmem h
  | refused _ _ _ h => exact absurd hmem h

theorem SemCallOk.mem_of_suspended (hok : SemCallOk s t)
    (hstat : (s.thread t).stat = .suspend) : t ∈ s.suspendThread := by
  cases hok with
  | outside _ h => rw [h] at hstat; cases hstat
  | waiting _ _ _ h => exact h
  | granted _ h => rw [h] at hstat; cases hstat
  | grantedBefore _ h => rw [h] at hstat; cases hstat
  | refused _ h => rw [h] at hstat; cases hstat

theorem SemCallOk.of_idle (hok : SemCallOk s t) (hcall : s.call t = false) :
    t ∉ s.suspendThread ∧ t ∉ s.bound ∧ t ∉ s.stale := by
  cases hok with
  | outside _ _ hlist hbound hstale => exact ⟨hlist, hbound, hstale⟩
  | waiting h => rw [hcall] at h; cases h
  | granted h => rw [hcall] at h; cases h
  | grantedBefore h => rw [hcall] at h; cases h
  | refused h => rw [hcall] at h; cases h

end Frame

section Steps

variable {s s' : SemSystem} {t : Tid}

section

variable (hinv : SemInv s)
include hinv

theorem SemInv.of_value (hthread : s'.thread = s.thread)
    (hcall : s'.call = s.call) (hlist : s'.suspendThread = s.suspendThread)
    (hbound : s'.bound = s.bound) (hstale : s'.stale = s.stale)
    (hvalue : s'.value < 65536) (hwaiters : s.suspendThread ≠ [] → s'.value = 0) :
    SemInv s' where
  value_lt := hvalue
  waiters := by rw [hlist]; exact hwaiters
  queue := ⟨by rw [hlist]; exact hinv.queue.nodup, by rw [hlist, hthread]; exact hinv.queue.mem_iff,
    by rw [hlist, hthread]; exact hinv.queue.error⟩
  bound_nodup := by rw [hbound]; exact hinv.bound_nodup
  calls := fun u => (hinv.calls u).of_same (by rw [hcall]) (by rw [hthread])
    (by rw [hlist]) (by rw [hbound]) (by rw [hstale])

theorem SemInv.available (hpos : 0 < s.value) : SemInv (semAvailable s) := by
  have hlt := hinv.value_lt
  have hdec : dec16 s.value = s.value - 1 := by
    unfold dec16
    rw [if_neg (by omega)]
  refine hinv.of_value rfl rfl rfl rfl rfl ?_ (fun hne => ?_)
  · simp only [semAvailable, hdec]
    omega
  · have := hinv.waiters hne
    omega

theorem SemInv.suspend {time : Int} (hready : (s.thread t).stat = .ready) (hcall : s.call t = false)
    (hzero : s.value = 0) : SemInv (semSuspend t time s) := by
  obtain ⟨_, hbound, hstale⟩ := (hinv.calls t).of_idle hcall
  have hqueue := (hinv.queue.setError hready rtEok).suspend (t := t)
    (by simpa [WaitQueue.setError] using hready) (by simp [WaitQueue.setError]) s.flag time
  refine ⟨hinv.value_lt, fun _ => hzero, hqueue, hinv.bound_nodup, fun u => ?_⟩
  by_cases hu : u = t
  · subst hu
    have hmem : u ∈ (semSuspend u time s).suspendThread := mem_listSuspend.mpr (.inl rfl)
    exact .waiting (by simp [semSuspend]) ((hqueue.mem_iff u).mp hmem) (hqueue.error u hmem)
      hmem hbound hstale
  · refine (hinv.calls u).of_same (by simp [semSuspend, hu])
      (by simp [semSuspend, WaitQueue.suspend, WaitQueue.setError, hu]) ?_ Iff.rfl Iff.rfl
    exact mem_listSuspend.trans (or_iff_right hu)

theorem SemInv.take {time : Int} (hcan : time ≠ 0 → (s.thread t).stat = .ready ∧ s.call t = false) :
    SemInv (rtSemTake t time s) := by
  unfold rtSemTake
  split
  next hpos => exact hinv.available hpos
  next hzero =>
    split
    · exact hinv.of_value rfl rfl rfl rfl rfl hinv.value_lt hinv.waiters
    next htime => exact hinv.suspend (hcan htime).1 (hcan htime).2 (by omega)

theorem SemInv.takeEnd (hcall : s.call t = true)
    (hready : (s.thread t).stat = .ready) : SemInv (rtSemTakeEnd t s) := by
  have hlist : t ∉ s.suspendThread := by
    intro hmem
    have := ((hinv.calls t).of_mem hmem).2.1
    rw [hready] at this
    cases this
  refine ⟨hinv.value_lt, hinv.waiters, hinv.queue, listRemove_nodup hinv.bound_nodup, fun u => ?_⟩
  by_cases hu : u = t
  · subst hu
    exact .outside (by simp [rtSemTakeEnd]) hready hlist (by simp [rtSemTakeEnd])
      (by simp [rtSemTakeEnd])
  · exact (hinv.calls u).of_same (by simp [rtSemTakeEnd, hu]) rfl Iff.rfl
      (by simp [rtSemTakeEnd, hu]) (by simp [rtSemTakeEnd, hu])

theorem rtSemRelease_cons {first : Tid} {rest : List Tid}
    (hlist : s.suspendThread = first :: rest) :
    rtSemRelease s =
      { s with
        result := none
        releases := s.releases + 1
        thread := Function.update s.thread first (s.thread first).resume
        suspendThread := rest
        bound := first :: s.bound } := by
  have hstat : (s.thread first).stat = .suspend :=
    ((hinv.calls first).of_mem (by rw [hlist]; exact List.mem_cons_self)).2.1
  have hnodup := hinv.queue.nodup
  rw [hlist] at hnodup
  simp [rtSemRelease, hlist, resume, hstat, listRemove_head hnodup]

theorem SemInv.release : SemInv (rtSemRelease s) := by
  cases hlist : s.suspendThread with
  | nil =>
    have heq : rtSemRelease s = { s with
        result := none, releases := s.releases + 1, value := inc16 s.value } := by
      simp [rtSemRelease, hlist]
    rw [heq]
    exact hinv.of_value rfl rfl rfl rfl rfl (Nat.mod_lt _ (by decide))
      (fun hne => absurd hlist hne)
  | cons first rest =>
    have hmem : first ∈ s.suspendThread := by
      rw [hlist]
      exact List.mem_cons_self
    obtain ⟨hcall, hstat, herror, hbound, hstale⟩ := (hinv.calls first).of_mem hmem
    have hnodup := hinv.queue.nodup
    have hqueue := hinv.queue.resume hstat
    rw [resume_eq hstat, hlist, listRemove_head (by rwa [hlist] at hnodup)]
      at hqueue
    rw [hlist, List.nodup_cons] at hnodup
    rw [rtSemRelease_cons hinv hlist]
    refine ⟨hinv.value_lt, fun _ => hinv.waiters (by rw [hlist]; simp), hqueue,
      List.nodup_cons.mpr ⟨hbound, hinv.bound_nodup⟩, fun u => ?_⟩
    by_cases hu : u = first
    · subst hu
      refine .granted hcall ?_ ?_ hnodup.1 List.mem_cons_self hstale
      · simpa using Thread.resume_stat _ hstat
      · simpa using herror
    · refine (hinv.calls u).of_same rfl (by simp [hu]) ?_ (by simp [hu]) Iff.rfl
      rw [hlist]
      simp [hu]

theorem SemInv.timeout (hstat : (s.thread t).stat = .suspend) : SemInv (semTimeout t s) := by
  have hmem := (hinv.calls t).mem_of_suspended hstat
  obtain ⟨hcall, _, _, hbound, hstale⟩ := (hinv.calls t).of_mem hmem
  refine ⟨hinv.value_lt, fun _ => hinv.waiters (List.ne_nil_of_mem hmem),
    hinv.queue.expire, hinv.bound_nodup, fun u => ?_⟩
  by_cases hu : u = t
  · subst hu
    refine .refused hcall ?_ ?_ ?_ hbound hstale
    · simp [semTimeout, expire, Thread.expire]
    · simp only [semTimeout, expire, Function.update_self, Thread.expire]
      decide
    · simp [semTimeout, expire]
  · refine (hinv.calls u).of_same rfl (by simp [semTimeout, expire, hu]) ?_
      Iff.rfl Iff.rfl
    simp [semTimeout, expire, hu]

theorem rtSemReset_eq (value : Nat) : ∃ threads, rtSemReset value s = some { s with
          thread := threads
          suspendThread := []
          value := value % 65536
          result := none
          resetValue := value % 65536
          releases := 0
          returned := 0
          bound := []
          stale := s.bound ++ s.stale } ∧
      (∀ u, u ∉ s.suspendThread → threads u = s.thread u) ∧
      ∀ u ∈ s.suspendThread, (threads u).stat = .ready ∧ (threads u).error = -rtError := by
  obtain ⟨threads, hall, hsame, hrefused⟩ := hinv.queue.resumeAll
  exact ⟨threads, by simp [rtSemReset, hall], hsame, hrefused⟩

theorem SemInv.reset {value : Nat} (hexec : rtSemReset value s = some s') : SemInv s' := by
  obtain ⟨threads, heq, hsame, hrefused⟩ := rtSemReset_eq hinv value
  have hqueue : s'.toWaitQueue.Ok := by
    obtain ⟨waiters, hall, rfl⟩ := Option.map_eq_some_iff.mp hexec
    exact hinv.queue.afterResumeAll hall
  rw [heq, Option.some.injEq] at hexec
  subst hexec
  refine ⟨Nat.mod_lt _ (by decide), fun h => absurd rfl h, hqueue, List.nodup_nil, fun u => ?_⟩
  cases hinv.calls u with
  | outside hcall hready hlist hbound hstale =>
    exact .outside hcall (by simpa [hsame u hlist] using hready) (by simp) (by simp)
      (by simp [hbound, hstale])
  | waiting hcall _ _ hlist hbound hstale =>
    refine .refused hcall (hrefused u hlist).1 ?_ (by simp) (by simp)
      (by simp [hbound, hstale])
    rw [(hrefused u hlist).2]
    decide
  | granted hcall hready herror hlist hbound hstale =>
    exact .grantedBefore hcall (by simpa [hsame u hlist] using hready)
      (by simpa [hsame u hlist] using herror) (by simp) (by simp) (by simp [hbound])
  | grantedBefore hcall hready herror hlist hbound hstale =>
    exact .grantedBefore hcall (by simpa [hsame u hlist] using hready)
      (by simpa [hsame u hlist] using herror) (by simp) (by simp) (by simp [hstale])
  | refused hcall hready herror hlist hbound hstale =>
    exact .refused hcall (by simpa [hsame u hlist] using hready)
      (by simpa [hsame u hlist] using herror) (by simp) (by simp)
      (by simp [hbound, hstale])

theorem SemInv.step {op : SemOp} (hexec : s.exec op = some s') : SemInv s' := by
  cases op with
  | take t time =>
    simp only [exec] at hexec
    split at hexec
    next hcan =>
      cases hexec
      exact hinv.take (fun _ => hcan)
    · cases hexec
  | trytake t =>
    cases hexec
    exact hinv.take (fun h => absurd rfl h)
  | takeEnd t =>
    simp only [exec] at hexec
    split at hexec
    next hend =>
      cases hexec
      exact hinv.takeEnd hend.1 hend.2
    · cases hexec
  | release =>
    cases hexec
    exact hinv.release
  | timeout t =>
    simp only [exec] at hexec
    split at hexec
    next hactive =>
      cases hexec
      exact hinv.timeout hactive.1
    · cases hexec
  | reset value => exact hinv.reset hexec

end

theorem semInitial_inv (hinit : s.Initial) : SemInv s where
  value_lt := Nat.lt_succ_of_le hinit.value
  waiters := fun h => absurd hinit.suspendThread h
  queue := ⟨by rw [hinit.suspendThread]; exact List.nodup_nil,
    fun t => by simp [hinit.suspendThread, hinit.thread t],
    fun t ht => by simp [hinit.suspendThread] at ht⟩
  bound_nodup := by rw [hinit.bound]; exact List.nodup_nil
  calls := fun t => .outside (hinit.call t) (hinit.thread t)
    (by simp [hinit.suspendThread]) (by simp [hinit.bound]) (by simp [hinit.stale])

end Steps

/-- The tokens in the counter and the takes that have returned `RT_EOK` or are
bound to. -/
def Conserved (s : SemSystem) : Prop :=
  s.value + (s.returned + s.bound.length) = s.resetValue + s.releases

section Conservation

variable {s s' : SemSystem} {t : Tid}

theorem Conserved.take {time : Int} (hok : Conserved s) : Conserved (rtSemTake t time s) := by
  unfold rtSemTake
  split
  next hpos =>
    have hdec : dec16 s.value = s.value - 1 := by
      unfold dec16
      rw [if_neg (by omega)]
    simp only [Conserved, semAvailable, hdec] at hok ⊢
    omega
  · split
    · exact hok
    · exact hok

theorem Conserved.takeEnd (hinv : SemInv s) (hok : Conserved s) (hcall : s.call t = true)
    (hready : (s.thread t).stat = .ready) : Conserved (rtSemTakeEnd t s) := by
  simp only [Conserved, rtSemTakeEnd] at hok ⊢
  cases hinv.calls t with
  | outside h => rw [hcall] at h; cases h
  | waiting _ h => rw [hready] at h; cases h
  | granted _ _ herror _ hbound hstale =>
    rw [if_pos ⟨herror, hstale⟩]
    have hlength := length_listRemove hinv.bound_nodup hbound
    omega
  | grantedBefore _ _ _ _ hbound hstale =>
    rw [if_neg (fun h => h.2 hstale), listRemove_of_not_mem hbound]
    exact hok
  | refused _ _ herror _ hbound _ =>
    rw [if_neg (fun h => herror h.1), listRemove_of_not_mem hbound]
    exact hok

theorem Conserved.release_iff (hinv : SemInv s) (hok : Conserved s) :
    Conserved (rtSemRelease s) ↔ s.value ≠ 65535 := by
  have hlt := hinv.value_lt
  cases hlist : s.suspendThread with
  | nil =>
    simp only [Conserved, rtSemRelease, hlist, inc16] at hok ⊢
    omega
  | cons first rest =>
    have hzero := hinv.waiters (by rw [hlist]; simp)
    rw [rtSemRelease_cons hinv hlist]
    simp only [Conserved, List.length_cons] at hok ⊢
    omega

theorem Conserved.step {op : SemOp} (hinv : SemInv s) (hok : Conserved s)
    (hexec : s.exec op = some s') (hbelow : releaseBelow s op = true) : Conserved s' := by
  cases op with
  | take t time =>
    simp only [exec] at hexec
    split at hexec
    · cases hexec
      exact hok.take
    · cases hexec
  | trytake t =>
    cases hexec
    exact hok.take
  | takeEnd t =>
    simp only [exec] at hexec
    split at hexec
    next hend =>
      cases hexec
      exact hok.takeEnd hinv hend.1 hend.2
    · cases hexec
  | release =>
    cases hexec
    exact (Conserved.release_iff hinv hok).mpr (by simpa [releaseBelow] using hbelow)
  | timeout t =>
    simp only [exec] at hexec
    split at hexec
    · cases hexec
      exact hok
    · cases hexec
  | reset value =>
    obtain ⟨threads, heq, _⟩ := rtSemReset_eq hinv value
    simp only [exec, heq, Option.some.injEq] at hexec
    subst hexec
    simp [Conserved]

end Conservation

/-- What the users of a semaphore rely on.  A thread in `bound` is inside its
take, past the wait and with `RT_EOK` to return. -/
structure TokensOk (s : SemSystem) : Prop where
  conserved : s.value + (s.returned + s.bound.length) = s.resetValue + s.releases
  waiters : s.suspendThread ≠ [] → s.value = 0
  once : s.bound.Nodup
  bound : ∀ t ∈ s.bound, ∃ s', s.exec (.takeEnd t) = some s' ∧ s'.result = some rtEok
  notBound : ∀ t s', s.exec (.takeEnd t) = some s' → s'.result = some rtEok →
    t ∈ s.bound ∨ t ∈ s.stale

theorem SemInv.tokensOk {s : SemSystem} (hinv : SemInv s) (hok : Conserved s) : TokensOk s where
  conserved := hok
  waiters := hinv.waiters
  once := hinv.bound_nodup
  bound := by
    intro t hbound
    cases hinv.calls t with
    | granted hcall hready herror =>
      refine ⟨rtSemTakeEnd t s, ?_, ?_⟩
      · simp [exec, hcall, hready]
      · simp only [rtSemTakeEnd, herror]
    | outside _ _ _ h => exact absurd hbound h
    | waiting _ _ _ _ h => exact absurd hbound h
    | grantedBefore _ _ _ _ h => exact absurd hbound h
    | refused _ _ _ _ h => exact absurd hbound h
  notBound := by
    intro t s' hexec hresult
    simp only [exec] at hexec
    split at hexec
    next hend =>
      cases hexec
      have herror : (s.thread t).error = rtEok := Option.some.inj hresult
      cases hinv.calls t with
      | outside h => rw [hend.1] at h; cases h
      | waiting _ h => rw [hend.2] at h; cases h
      | granted _ _ _ _ hbound => exact .inl hbound
      | grantedBefore _ _ _ _ _ hstale => exact .inr hstale
      | refused _ _ h => exact absurd herror h
    · cases hexec

/-- No token is lost or granted twice in any run in which no release finds the
counter at 65535; such a release does lose tokens; and a reset always ends. -/
theorem reachable_tokensOk (s : SemSystem)
    (hreach : semMachine.Reachable (fun s op => releaseBelow s op = true) s) :
    TokensOk s ∧
      (∀ s', s.exec .release = some s' → releaseBelow s .release = false →
        ¬ TokensOk s') ∧
      ∀ value, ∃ s', s.exec (.reset value) = some s' := by
  have hinv : SemInv s ∧ Conserved s := by
    refine hreach.invariant (fun s => SemInv s ∧ Conserved s) ?_ ?_
    · intro s hinit
      refine ⟨semInitial_inv hinit, ?_⟩
      simp [Conserved, hinit.returned, hinit.bound, hinit.resetValue, hinit.releases]
    · intro s op s' hkept hbelow hexec
      exact ⟨hkept.1.step hexec, hkept.2.step hkept.1 hexec hbelow⟩
  refine ⟨hinv.1.tokensOk hinv.2, ?_, ?_⟩
  · intro s' hexec hlimit hok
    cases hexec
    have hbelow := (Conserved.release_iff hinv.1 hinv.2).mp hok.conserved
    simp [releaseBelow, hbelow] at hlimit
  · intro value
    obtain ⟨threads, heq, _⟩ := rtSemReset_eq hinv.1 value
    exact ⟨_, heq⟩

def SemSystem.start (cfg : Config) (value : Nat) : SemSystem where
  thread := fun _ => { Thread.init cfg 0 with stat := .ready }
  value := value
  suspendThread := []
  flag := .fifo
  call := fun _ => false
  result := none
  resetValue := value
  releases := 0
  returned := 0
  bound := []
  stale := []

theorem SemSystem.start_initial (cfg : Config) {value : Nat} (hle : value ≤ 65535) :
    (start cfg value).Initial :=
  ⟨fun _ => rfl, hle, rfl, fun _ => rfl, rfl, rfl, rfl, rfl, rfl⟩

/-- A release at 65535 turns all tokens into none. -/
theorem tokensOk_fails_at_65535 : ∃ s, semMachine.Reachable (fun _ _ => True) s ∧ ¬ TokensOk s := by
  refine ⟨rtSemRelease (start (Config.flat 1) 65535), ?_, fun hok => ?_⟩
  · have hexec : semMachine.exec (start (Config.flat 1) 65535) .release =
        some (rtSemRelease (start (Config.flat 1) 65535)) := rfl
    exact (Machine.Reachable.start (start_initial _ (Nat.le_refl _))).step
      trivial hexec
  · have hconserved := hok.conserved
    simp [rtSemRelease, start, inc16] at hconserved

/-- One thread is resumed by a release, another times out, a third is refused by
a reset. -/
def semRun : List SemOp :=
  [.take 1 5, .take 2 5, .take 3 (-1), .release, .timeout 2, .takeEnd 2, .reset 4,
    .takeEnd 1, .takeEnd 3, .take 1 0, .release]

theorem reachable_tokensOk_semRun :
    ∃ s, semMachine.Reachable (fun s op => releaseBelow s op = true) s ∧
      s.value = 4 ∧ s.returned = 1 ∧ s.releases = 1 ∧ TokensOk s := by
  have hrun : (semMachine.run (fun s op => releaseBelow s op = true)
      (start (Config.flat 1) 0) semRun).map
        (fun s => (s.value, s.returned, s.releases)) = some (4, 1, 1) := by decide +kernel
  obtain ⟨s, hreach, hvalue⟩ := Machine.exists_reachable_of_run
    (start_initial _ (Nat.zero_le _)) hrun
  simp only [Prod.mk.injEq] at hvalue
  exact ⟨s, hreach, hvalue.1, hvalue.2.1, hvalue.2.2, (reachable_tokensOk s hreach).1⟩

end RtThread.Ipc
