import RtThread.Pthreads.CondVar
import RtThread.Pthreads.RwLockWaiters

namespace RtThread.Pthreads

open RtThread.Lib

/-! `pthread_rwlock_destroy`.  It is one section with `rw_mutex`, which is free before it. -/

/-- What a call of `pthread_rwlock_destroy` leaves. -/
structure RwDestroy where
  result : Int
  lock : RwLock
  rwMutexOwner : Option Tid
  condDestroyed : Side → Bool
  rwMutexDestroyed : Bool

namespace RwLock

def semTrytake (side : Side) (s : RwLock) : Option RwLock :=
  (s.cond side).trytake.map (s.setCond side)

abbrev semRelease (side : Side) (s : RwLock) : RwLock := s.pthreadCondSignal side

def pthreadCondDestroy (side : Side) (s : RwLock) : RwLock × Bool :=
  match s.semTrytake side with
  | none => (s, false)
  | some s => (s.setCond side ⟨0, []⟩, true)

/-- The probes of the two semaphores, with the result, and with what is destroyed. -/
def probe (s : RwLock) : Int × RwLock × (Side → Bool) :=
  match s.semTrytake .reader with
  | none => (ebusy, s, fun _ => false)
  | some taken =>
    match taken.semTrytake .writer with
    | none => (ebusy, taken.semRelease .reader, fun _ => false)
    | some taken =>
      let s := (taken.semRelease .reader).semRelease .writer
      let (s, readers) := s.pthreadCondDestroy .reader
      let (s, writers) := s.pthreadCondDestroy .writer
      (0, s, fun | .reader => readers | .writer => writers)

def pthreadRwlockDestroy (t : Tid) (queue : List Tid) (s : RwLock) : RwDestroy :=
  if s.rwRefcount ≠ 0 ∨ s.nwait .reader ≠ 0 ∨ s.nwait .writer ≠ 0 then
    -- `return` with `rw_mutex` still held
    { result := ebusy
      lock := s
      rwMutexOwner := some t
      condDestroyed := fun _ => false
      rwMutexDestroyed := false }
  else
    let (result, lock, destroyed) := s.probe
    -- `pthread_mutex_unlock` hands the mutex on, and `pthread_mutex_destroy` wants it to be free
    { result := result
      lock := lock
      rwMutexOwner := queue.head?
      condDestroyed := destroyed
      rwMutexDestroyed := decide (result = 0 ∧ queue.head? = none) }

def Busy (s : RwLock) : Prop := ∃ side t, t ∈ s.held side ∨ s.Inside side t

end RwLock

/-- A busy lock stays as it is, with `rw_mutex` free; all others are destroyed. -/
structure DestroyRight (s : RwLock) (d : RwDestroy) : Prop where
  result : d.result = ebusy ↔ s.Busy
  busy : s.Busy → d.lock = s ∧ d.rwMutexOwner = none ∧ (∀ side, d.condDestroyed side = false) ∧
    d.rwMutexDestroyed = false
  idle : ¬ s.Busy → d.result = 0 ∧ (∀ side, d.condDestroyed side = true) ∧ d.rwMutexDestroyed = true

namespace RwLock

variable {s s' : RwLock} {t : Tid} {side : Side}

theorem Lists.exec {op : RwOp} (hlists : s.Lists) (hexec : s.exec op = some s') : s'.Lists := by
  cases exec_step hexec with
  | lock _ _ hphase => exact hlists.waitLoop hphase
  | tryLock _ hphase => exact hlists.tryLock hphase
  | unlock => exact hlists.pthreadRwlockUnlock
  | semTake hphase => exact (hlists.semTake hphase).returned _
  | semLeave hphase _ hstage => exact (hlists.semLeave hphase hstage).returned _
  | waitEnd hphase hover =>
    refine hlists.waitEnd hphase ?_
    rintro rfl
    simp at hover

theorem reachable_lists (hreach : rwMachine.Reachable (fun _ _ => True) s) : s.Lists := by
  apply hreach.invariant RwLock.Lists
  · intro s hinit
    exact hinit.fair.lists
  · intro s op s' hlists _ hexec
    exact hlists.exec hexec

theorem semTrytake_eq (hlist : (s.cond side).suspendThread = []) :
    s.semTrytake side = if 0 < (s.cond side).value then
      some (s.setCond side ⟨dec16 (s.cond side).value, []⟩) else none := by
  unfold semTrytake Cond.trytake
  rw [hlist]
  split <;> rfl

theorem semRelease_eq {n : Nat} (hcond : s.cond side = ⟨n, []⟩) :
    s.semRelease side = s.setCond side ⟨inc16 n, []⟩ := by
  unfold semRelease pthreadCondSignal
  rw [hcond]
  rfl

theorem inc16_dec16 {n : Nat} (hpos : 0 < n) (hsmall : n < 65536) : inc16 (dec16 n) = n := by
  unfold inc16 dec16
  rw [if_neg (by omega), Nat.sub_add_cancel hpos, Nat.mod_eq_of_lt hsmall]

theorem pthreadCondDestroy_eq {n : Nat} (hcond : s.cond side = ⟨n, []⟩) (hpos : 0 < n) :
    s.pthreadCondDestroy side = ((s.setCond side ⟨dec16 n, []⟩).setCond side ⟨0, []⟩, true) := by
  have hlist : (s.cond side).suspendThread = [] := by rw [hcond]
  unfold pthreadCondDestroy
  rw [semTrytake_eq hlist, hcond, if_pos hpos]

theorem probe_busy (hlists : s.Lists) (hnone : ¬ ∀ side, 0 < (s.cond side).value) :
    s.probe = (ebusy, s, fun _ => false) := by
  unfold probe
  by_cases hreader : 0 < (s.cond .reader).value
  · have hwriter : ¬ 0 < (s.cond .writer).value := by
      intro hwriter
      refine hnone fun side => ?_
      cases side with
      | reader => exact hreader
      | writer => exact hwriter
    have hlist := hlists.tokens .reader hreader
    have htake : (s.setCond .reader ⟨dec16 (s.cond .reader).value, []⟩).semTrytake .writer =
        none := by
      unfold semTrytake Cond.trytake
      rw [setCond_other (by decide), if_neg hwriter, Option.map_none]
    have hback : (s.setCond .reader ⟨dec16 (s.cond .reader).value, []⟩).semRelease .reader = s := by
      rw [semRelease_eq setCond_self, inc16_dec16 hreader (hlists.small .reader), ← hlist]
      simp [RwLock.setCond]
    rw [semTrytake_eq hlist, if_pos hreader]
    dsimp only
    rw [htake]
    dsimp only
    rw [hback]
  · unfold semTrytake Cond.trytake
    rw [if_neg hreader, Option.map_none]

theorem probe_free (hlist : ∀ side, (s.cond side).suspendThread = [])
    (hsmall : ∀ side, (s.cond side).value < 65536)
    (hsome : ∀ side, 0 < (s.cond side).value) :
    s.probe.1 = 0 ∧ ∀ side, s.probe.2.2 side = true := by
  generalize hr : (s.cond .reader).value = r
  generalize hw : (s.cond .writer).value = w
  have hrpos : 0 < r := hr ▸ hsome .reader
  have hwpos : 0 < w := hw ▸ hsome .writer
  have hrback : inc16 (dec16 r) = r := inc16_dec16 hrpos (hr ▸ hsmall .reader)
  have hwback : inc16 (dec16 w) = w := inc16_dec16 hwpos (hw ▸ hsmall .writer)
  -- the states between the calls
  let taken := s.setCond .reader ⟨dec16 r, []⟩
  let taken' := taken.setCond .writer ⟨dec16 w, []⟩
  let released := taken'.setCond .reader ⟨r, []⟩
  let released' := released.setCond .writer ⟨w, []⟩
  have htake : s.semTrytake .reader = some taken := by
    rw [semTrytake_eq (hlist .reader), hr, if_pos hrpos]
  have htake' : taken.semTrytake .writer = some taken' := by
    have hcond : taken.cond .writer = s.cond .writer := setCond_other (by decide)
    have hnobody : (taken.cond .writer).suspendThread = [] := by
      rw [hcond]
      exact hlist .writer
    rw [semTrytake_eq hnobody, hcond, hw, if_pos hwpos]
  have hrelease : taken'.semRelease .reader = released := by
    have hcond : taken'.cond .reader = ⟨dec16 r, []⟩ :=
      (setCond_other (by decide)).trans setCond_self
    rw [semRelease_eq hcond, hrback]
  have hrelease' : released.semRelease .writer = released' := by
    have hcond : released.cond .writer = ⟨dec16 w, []⟩ :=
      (setCond_other (by decide)).trans setCond_self
    rw [semRelease_eq hcond, hwback]
  have hreader : released'.cond .reader = ⟨r, []⟩ := (setCond_other (by decide)).trans setCond_self
  have hwriter : ((released'.setCond .reader ⟨dec16 r, []⟩).setCond .reader ⟨0, []⟩).cond .writer =
      ⟨w, []⟩ :=
    (setCond_other (by decide)).trans ((setCond_other (by decide)).trans setCond_self)
  unfold probe
  rw [htake]
  dsimp only
  rw [htake']
  dsimp only
  rw [hrelease, hrelease', pthreadCondDestroy_eq hreader hrpos]
  dsimp only
  rw [pthreadCondDestroy_eq hwriter hwpos]
  refine ⟨rfl, fun side => ?_⟩
  cases side <;> rfl

/-- `pthread_rwlock_destroy` is right just when it finds all counts 0, no thread queues for `rw_mutex`,
and the lock is busy if and only if a condition has no token. -/
theorem destroyRight_iff (hreach : rwMachine.Reachable (fun _ _ => True) s) (t : Tid)
    (queue : List Tid) :
    DestroyRight s (s.pthreadRwlockDestroy t queue) ↔
      (s.rwRefcount = 0 ∧ s.nwait .reader = 0 ∧ s.nwait .writer = 0) ∧ queue = [] ∧
        (s.Busy ↔ ∃ side, (s.cond side).value = 0) := by
  have hlists := reachable_lists hreach
  unfold pthreadRwlockDestroy
  by_cases hcounts : s.rwRefcount ≠ 0 ∨ s.nwait .reader ≠ 0 ∨ s.nwait .writer ≠ 0
  · rw [if_pos hcounts]
    refine iff_of_false (fun hright => ?_) fun h => by omega
    cases (hright.busy (hright.result.mp rfl)).2.1
  · rw [if_neg hcounts, and_iff_right (by omega)]
    by_cases hsome : ∀ side, 0 < (s.cond side).value
    · obtain ⟨hzero, hdestroyed⟩ := probe_free (fun side => hlists.tokens side (hsome side))
        hlists.small hsome
      have hnone : ¬ ∃ side, (s.cond side).value = 0 := fun ⟨side, hside⟩ => (hsome side).ne' hside
      rw [eq_false hnone, iff_false]
      have hresult : ¬ s.probe.1 = ebusy := by
        rw [hzero]
        decide
      constructor
      · intro hright
        have hidle : ¬ s.Busy := fun hbusy => hresult (hright.result.mpr hbusy)
        exact ⟨List.head?_eq_none_iff.mp (of_decide_eq_true (hright.idle hidle).2.2).2, hidle⟩
      · rintro ⟨rfl, hidle⟩
        exact ⟨iff_of_false hresult hidle, fun h => absurd h hidle,
          fun _ => ⟨hzero, hdestroyed, decide_eq_true ⟨hzero, rfl⟩⟩⟩
    · have hnone : ∃ side, (s.cond side).value = 0 := by simpa using hsome
      rw [probe_busy hlists hsome, eq_true hnone, iff_true]
      constructor
      · intro hright
        have hbusy : s.Busy := hright.result.mp rfl
        exact ⟨List.head?_eq_none_iff.mp (hright.busy hbusy).2.1, hbusy⟩
      · rintro ⟨rfl, hbusy⟩
        exact ⟨iff_of_true rfl hbusy, fun _ => ⟨rfl, rfl, fun _ => rfl, rfl⟩,
          fun hidle => absurd hbusy hidle⟩

theorem not_busy (hinv : s.Inv) (hcount : s.rwRefcount = 0) (hnwait : ∀ side, s.nwait side = 0) :
    ¬ s.Busy := by
  rintro ⟨side, t, hheld | hinside⟩
  · rcases hinv.exclusion with ⟨_, -, -, hwriter⟩ | ⟨hwriter, hreaders⟩
    · omega
    · have hnone : s.held .reader = [] := List.eq_nil_of_length_eq_zero (by omega)
      cases side with
      | reader => simp [hnone] at hheld
      | writer => simp [hwriter] at hheld
  · have hpos := nwait_pos hinv hinside
    rw [hnwait] at hpos
    omega

def tokensRun : List RwOp :=
  [.trywrlock 0, .rdlock 1, .semTake 1, .timedwrlock 2, .semTake 2, .timeout 2, .unlock 0, .waitEnd 2,
    .trywrlock 0, .unlock 0, .waitEnd 1, .unlock 1]

theorem destroyRight_iff_tokens :
    ∃ s, rwMachine.Reachable (fun _ _ => True) s ∧ DestroyRight s (s.pthreadRwlockDestroy 0 []) := by
  have hrun : (rwMachine.run HasRoom rwStart tokensRun).map
      (fun s => (s.rwRefcount, s.nwait .reader, s.nwait .writer, (s.cond .reader).value,
        (s.cond .writer).value)) = some (0, 0, 0, 1, 1) := by
    decide +kernel
  obtain ⟨s, hreach, hend⟩ := Machine.exists_reachable_of_run rwStart_initial hrun
  obtain ⟨hcount, hend⟩ := Prod.mk.inj hend
  obtain ⟨hreaders, hend⟩ := Prod.mk.inj hend
  obtain ⟨hwriters, hend⟩ := Prod.mk.inj hend
  obtain ⟨hreader, hwriter⟩ := Prod.mk.inj hend
  have hidle : ¬ s.Busy := by
    refine not_busy (reachable_inv hreach) hcount fun side => ?_
    cases side with
    | reader => exact hreaders
    | writer => exact hwriters
  have hreach' : rwMachine.Reachable (fun _ _ => True) s := hreach.mono fun _ _ _ => trivial
  refine ⟨s, hreach', (destroyRight_iff hreach' 0 []).mpr
    ⟨⟨hcount, hreaders, hwriters⟩, rfl, iff_of_false hidle ?_⟩⟩
  rintro ⟨side, hside⟩
  cases side with
  | reader => omega
  | writer => omega

/-- The lock is held by a reader, and `rw_mutex` is not given back. -/
theorem destroy_keeps_mutex :
    ∃ s, rwMachine.Reachable (fun _ _ => True) s ∧ s.Busy ∧
      ¬ DestroyRight s (s.pthreadRwlockDestroy 2 []) := by
  have hreach : rwMachine.Reachable (fun _ _ => True) (rwStart.pthreadRwlockRdlock 1) :=
    (Machine.Reachable.start rwStart_initial).step trivial
      (show rwMachine.exec rwStart (.rdlock 1) = some _ from rfl)
  have hbusy : (rwStart.pthreadRwlockRdlock 1).Busy := ⟨.reader, 1, .inl (by decide)⟩
  refine ⟨_, hreach, hbusy, fun hright => ?_⟩
  have howner : some 2 = (none : Option Tid) := (hright.busy hbusy).2.1
  cases howner

end RwLock

end RtThread.Pthreads
