import Mathlib.Data.Set.Card
import RtThread.Pthreads.RwLock

namespace RtThread.Pthreads

open Function RtThread.Lib RwLock

namespace RwLock

def Inside (s : RwLock) (side : Side) (t : Tid) : Prop :=
  ∃ timed stage, s.phase t = .wait side timed stage

/-- `rw_refcount` is -1 for a writer and counts the readers otherwise. -/
def Exclusion (s : RwLock) : Prop :=
  (∃ t, s.held .writer = [t] ∧ s.held .reader = [] ∧ s.rwRefcount = -1) ∨
    s.held .writer = [] ∧ s.rwRefcount = (s.held .reader).length

/-- `rw_nwaitreaders` or `rw_nwaitwriters` counts the threads inside the wait. -/
def Counted (s : RwLock) (side : Side) : Prop :=
  {t | s.Inside side t}.Finite ∧ s.nwait side = {t | s.Inside side t}.ncard

/-- A reader that takes the lock keeps `rw_refcount` in the range of an `int`. -/
abbrev ReadRoom (s : RwLock) : Prop := s.mustWait .reader = false → s.rwRefcount + 1 < 2 ^ 31

/-- So does a thread that comes into a wait with the counter of its side. -/
abbrev WaitRoom (s : RwLock) (side : Side) : Prop := s.mustWait side = true → s.nwait side + 1 < 2 ^ 31

def HasRoom (s : RwLock) : RwOp → Prop
  | .rdlock _ | .timedrdlock _ => s.ReadRoom ∧ s.WaitRoom .reader
  | .tryrdlock _ => s.ReadRoom
  | .wrlock _ | .timedwrlock _ => s.WaitRoom .writer
  | .waitEnd t => (∃ timed, s.phase t = .wait .reader timed .granted) → s.ReadRoom
  | _ => True

instance (s : RwLock) : (op : RwOp) → Decidable (s.HasRoom op)
  | .rdlock _ | .timedrdlock _ => inferInstanceAs (Decidable (s.ReadRoom ∧ s.WaitRoom .reader))
  | .tryrdlock _ => inferInstanceAs (Decidable s.ReadRoom)
  | .wrlock _ | .timedwrlock _ => inferInstanceAs (Decidable (s.WaitRoom .writer))
  | .waitEnd t => inferInstanceAs (Decidable
      ((∃ timed, s.phase t = .wait .reader timed .granted) → s.ReadRoom))
  | .trywrlock _ | .unlock _ | .semTake _ | .timeout _ | .error _ | .spurious _ => .isTrue trivial

structure Inv (s : RwLock) : Prop where
  exclusion : s.Exclusion
  counted : ∀ side, s.Counted side
  inRange : ∀ side, s.nwait side < 2 ^ 31

variable {s s' : RwLock} {t u : Tid} {side : Side} {timed : Bool} {stage : Stage}

structure SameWaits (s s' : RwLock) : Prop where
  rwRefcount : s'.rwRefcount = s.rwRefcount
  held : s'.held = s.held
  nwait : s'.nwait = s.nwait
  inside : ∀ side u, s'.Inside side u ↔ s.Inside side u

theorem SameWaits.refl : SameWaits s s := ⟨rfl, rfl, rfl, fun _ _ => Iff.rfl⟩

theorem SameWaits.trans {s'' : RwLock} (hfirst : SameWaits s s') (hsecond : SameWaits s' s'') :
    SameWaits s s'' :=
  ⟨hsecond.rwRefcount.trans hfirst.rwRefcount, hsecond.held.trans hfirst.held,
    hsecond.nwait.trans hfirst.nwait,
    fun side u => (hsecond.inside side u).trans (hfirst.inside side u)⟩

theorem Inv.of_same (hinv : s.Inv) (hsame : SameWaits s s') : s'.Inv := by
  refine ⟨?_, fun side => ?_, hsame.nwait ▸ hinv.inRange⟩
  · unfold Exclusion
    rw [hsame.held, hsame.rwRefcount]
    exact hinv.exclusion
  · have hset : {u | s'.Inside side u} = {u | s.Inside side u} :=
      Set.ext fun u => hsame.inside side u
    unfold Counted
    rw [hset, hsame.nwait]
    exact hinv.counted side

theorem inside_setPhase {phase : Phase} {side : Side} :
    (s.setPhase t phase).Inside side u ↔
      if u = t then ∃ timed stage, phase = .wait side timed stage else s.Inside side u := by
  unfold Inside setPhase
  rcases eq_or_ne u t with rfl | hne
  · simp
  · simp [hne]

theorem SameWaits.setPhase {stage' : Stage} (hphase : s.phase t = .wait side timed stage) :
    SameWaits s (s.setPhase t (.wait side timed stage')) := by
  refine ⟨rfl, rfl, rfl, fun side' u => ?_⟩
  rw [inside_setPhase]
  split
  next heq =>
    subst heq
    unfold Inside
    rw [hphase]
    simp
  · exact Iff.rfl

theorem SameWaits.setCond {cond : Cond} : SameWaits s (s.setCond side cond) :=
  ⟨rfl, rfl, rfl, fun _ _ => Iff.rfl⟩

theorem SameWaits.grant : SameWaits s (s.grant t) := by
  unfold RwLock.grant
  split
  next hphase => exact .setPhase hphase
  · exact .refl

theorem SameWaits.pthreadCondSignal : SameWaits s (s.pthreadCondSignal side) := by
  unfold RwLock.pthreadCondSignal
  split
  next cond resumed _ =>
    cases resumed with
    | none => exact .setCond
    | some t => exact SameWaits.setCond.trans .grant

theorem SameWaits.grants (resumed : List Tid) : SameWaits s (resumed.foldl RwLock.grant s) := by
  induction resumed generalizing s with
  | nil => exact .refl
  | cons t resumed ih => exact SameWaits.grant.trans ih

theorem SameWaits.pthreadCondBroadcast : SameWaits s (s.pthreadCondBroadcast side) := by
  unfold RwLock.pthreadCondBroadcast
  split
  · exact SameWaits.setCond.trans (.grants _)

theorem SameWaits.semTake (hphase : s.phase t = .wait side timed stage) :
    SameWaits s (s.semTake t side timed) := by
  unfold RwLock.semTake
  dsimp only
  split
  · exact SameWaits.setCond.trans (.setPhase (s := s.setCond side _) hphase)
  · exact SameWaits.setCond.trans (.setPhase (s := s.setCond side _) hphase)

theorem SameWaits.semLeave {stage' : Stage} (hphase : s.phase t = .wait side timed stage) :
    SameWaits s (s.semLeave t side timed stage') :=
  SameWaits.setCond.trans (.setPhase (s := s.setCond side _) hphase)

theorem nwait_nonneg (hinv : s.Inv) (side : Side) : 0 ≤ s.nwait side := by
  rw [(hinv.counted side).2]
  exact Int.natCast_nonneg _

theorem nwait_pos (hinv : s.Inv) (hinside : s.Inside side t) : 0 < s.nwait side := by
  rw [(hinv.counted side).2]
  exact_mod_cast (Set.ncard_pos (hinv.counted side).1).mpr ⟨t, hinside⟩

theorem addWaiter_nwait {n : Int} (hnonneg : 0 ≤ s.nwait side + n)
    (hroom : s.nwait side + n < 2 ^ 31) :
    (s.addWaiter side n).nwait = update s.nwait side (s.nwait side + n) := by
  rw [addWaiter, intAdd_eq hnonneg hroom]

theorem Inv.inRange_update (hinv : s.Inv) {n : Int} (hnwait : s'.nwait = update s.nwait side n)
    (hlt : n < 2 ^ 31) (side' : Side) : s'.nwait side' < 2 ^ 31 := by
  rw [hnwait]
  rcases eq_or_ne side' side with rfl | hne
  · rwa [update_self]
  · rw [update_of_ne hne]
    exact hinv.inRange side'

theorem Inv.enter (hinv : s.Inv) (hphase : s.phase t = .outside)
    (hroom : s.nwait side + 1 < 2 ^ 31) :
    ({ (s.addWaiter side 1).setPhase t (.wait side timed stage) with
      returned := none } : RwLock).Inv := by
  have hnwait := addWaiter_nwait (by have := nwait_nonneg hinv side; omega) hroom
  refine ⟨hinv.exclusion, fun side' => ?_, hinv.inRange_update hnwait hroom⟩
  have hout : t ∉ {u | s.Inside side' u} := by
    rintro ⟨timed', stage', hwait⟩
    rw [hphase] at hwait
    cases hwait
  obtain ⟨hfinite, hcount⟩ := hinv.counted side'
  change {u | ((s.addWaiter side 1).setPhase t (.wait side timed stage)).Inside side' u}.Finite ∧
    (s.addWaiter side 1).nwait side' =
      {u | ((s.addWaiter side 1).setPhase t (.wait side timed stage)).Inside side' u}.ncard
  rw [hnwait]
  rcases eq_or_ne side' side with rfl | hside
  · have hset : {u | ((s.addWaiter side' 1).setPhase t (.wait side' timed stage)).Inside side' u} =
        insert t {u | s.Inside side' u} := by
      ext u
      rw [Set.mem_ofPred_eq, inside_setPhase, Set.mem_insert_iff]
      split
      next heq => simp [heq]
      next hne =>
        have hsame : (s.addWaiter side' 1).Inside side' u ↔ s.Inside side' u := Iff.rfl
        rw [hsame, Set.mem_ofPred_eq]
        simp [hne]
    rw [hset, update_self, Set.ncard_insert_of_notMem hout hfinite, hcount]
    exact ⟨hfinite.insert t, by push_cast; rfl⟩
  · have hset : {u | ((s.addWaiter side 1).setPhase t (.wait side timed stage)).Inside side' u} =
        {u | s.Inside side' u} := by
      ext u
      rw [Set.mem_ofPred_eq, inside_setPhase]
      split
      next heq =>
        subst heq
        refine iff_of_false ?_ hout
        rintro ⟨timed', stage', hwait⟩
        exact hside (Phase.wait.inj hwait).1.symm
      · exact Iff.rfl
    rw [hset, update_of_ne hside]
    exact ⟨hfinite, hcount⟩

theorem Inv.exit (hinv : s.Inv) (hphase : s.phase t = .wait side timed stage) :
    ((s.addWaiter side (-1)).setPhase t .outside).Inv := by
  have hpos := nwait_pos hinv ⟨timed, stage, hphase⟩
  have hlt := hinv.inRange side
  have hnwait : (s.addWaiter side (-1)).nwait = update s.nwait side (s.nwait side + -1) :=
    addWaiter_nwait (by omega) (by omega)
  refine ⟨hinv.exclusion, fun side' => ?_, hinv.inRange_update hnwait (by omega)⟩
  obtain ⟨hfinite, hcount⟩ := hinv.counted side'
  have hset : {u | ((s.addWaiter side (-1)).setPhase t .outside).Inside side' u} =
      {u | s.Inside side' u} \ {t} := by
    ext u
    rw [Set.mem_ofPred_eq, inside_setPhase, Set.mem_sdiff, Set.mem_singleton_iff]
    split
    next heq => simp [heq]
    next hne =>
      have hsame : (s.addWaiter side (-1)).Inside side' u ↔ s.Inside side' u := Iff.rfl
      rw [hsame, Set.mem_ofPred_eq]
      simp [hne]
  unfold Counted
  rw [hset]
  refine ⟨hfinite.sdiff, ?_⟩
  change (s.addWaiter side (-1)).nwait side' = _
  rw [hnwait]
  rcases eq_or_ne side' side with rfl | hside
  · have hin : t ∈ {u | s.Inside side' u} := ⟨timed, stage, hphase⟩
    rw [update_self, Set.ncard_sdiff_singleton_of_mem hin]
    omega
  · have hout : t ∉ {u | s.Inside side' u} := by
      rintro ⟨timed', stage', hwait⟩
      rw [hphase] at hwait
      exact hside (Phase.wait.inj hwait).1.symm
    rw [update_of_ne hside, Set.sdiff_singleton_eq_self hout]
    exact hcount

theorem Inv.acquire (hinv : s.Inv) (hphase : s.phase t = .outside)
    (hfree : s.mustWait side = false) (hread : side = .reader → s.ReadRoom) :
    (s.acquire t side).Inv := by
  have hcounted : ∀ side', (s.acquire t side).Counted side' := by
    intro side'
    have hset : {u | (s.acquire t side).Inside side' u} = {u | s.Inside side' u} := by
      ext u
      rw [Set.mem_ofPred_eq, Set.mem_ofPred_eq]
      unfold Inside RwLock.acquire
      rcases eq_or_ne u t with rfl | hne
      · simp [hphase]
      · simp [hne]
    unfold Counted
    rw [hset]
    exact hinv.counted side'
  refine ⟨?_, hcounted, hinv.inRange⟩
  cases side with
  | reader =>
    have hnonneg : ¬ s.rwRefcount < 0 := by
      simp only [mustWait, decide_eq_false_iff_not, not_or] at hfree
      exact hfree.1
    rcases hinv.exclusion with ⟨_, -, -, hwriter⟩ | ⟨hnone, hcount⟩
    · omega
    · refine .inr ⟨?_, ?_⟩
      · simpa [RwLock.acquire] using hnone
      · rw [RwLock.acquire, intAdd_eq (by omega) (hread rfl hfree)]
        simp [hcount]
  | writer =>
    have hzero : s.rwRefcount = 0 := by simpa [mustWait] using hfree
    rcases hinv.exclusion with ⟨_, -, -, hwriter⟩ | ⟨hnone, hcount⟩
    · omega
    · have hreaders : s.held .reader = [] := by
        apply List.eq_nil_of_length_eq_zero
        omega
      refine .inl ⟨t, ?_, ?_, rfl⟩
      · simp [RwLock.acquire, hnone]
      · simp [RwLock.acquire, hreaders]

theorem Inv.giveUp {result : Int} (hinv : s.Inv) (hphase : s.phase t = .outside) :
    (s.giveUp t result).Inv := by
  have hsame : s.setPhase t .outside = s := by
    unfold setPhase
    rw [← hphase, update_eq_self]
  unfold RwLock.giveUp
  rw [hsame]
  exact hinv.of_same ⟨rfl, rfl, rfl, fun _ _ => Iff.rfl⟩

theorem Inv.waitLoop (hinv : s.Inv) (hphase : s.phase t = .outside)
    (hread : side = .reader → s.ReadRoom) (hwait : s.WaitRoom side) :
    (s.waitLoop t side timed).Inv := by
  unfold RwLock.waitLoop
  split
  next hmust => exact hinv.enter hphase (hwait hmust)
  next hfree => exact hinv.acquire hphase (by simpa using hfree) hread

theorem Inv.tryLock (hinv : s.Inv) (hphase : s.phase t = .outside)
    (hread : side = .reader → s.ReadRoom) : (s.tryLock t side).Inv := by
  unfold RwLock.tryLock
  split
  · exact hinv.giveUp hphase
  next hfree => exact hinv.acquire hphase (by simpa using hfree) hread

theorem waitLoop_setPhase {phase : Phase} :
    (s.setPhase t phase).waitLoop t side timed = s.waitLoop t side timed := by
  have hmust : (s.setPhase t phase).mustWait side = s.mustWait side := by
    cases side <;> rfl
  unfold RwLock.waitLoop
  rw [hmust]
  split
  · simp [setPhase, addWaiter]
  · simp [setPhase, RwLock.acquire]

theorem giveUp_setPhase {phase : Phase} {result : Int} :
    (s.setPhase t phase).giveUp t result = s.giveUp t result := by
  simp [setPhase, RwLock.giveUp]

theorem exit_waitRoom (hinv : s.Inv) (hphase : s.phase t = .wait side timed stage) :
    ((s.addWaiter side (-1)).setPhase t .outside).WaitRoom side := by
  intro _
  have hpos := nwait_pos hinv ⟨timed, stage, hphase⟩
  have hlt := hinv.inRange side
  change (s.addWaiter side (-1)).nwait side + 1 < 2 ^ 31
  rw [addWaiter_nwait (by omega) (by omega), update_self]
  omega

theorem Inv.waitEnd (hinv : s.Inv) (hphase : s.phase t = .wait side timed stage)
    (hread : side = .reader → (∃ result, stage = .failed result) ∨ s.ReadRoom) :
    (s.waitEnd t side timed stage).Inv := by
  have hexit := hinv.exit hphase
  have houtside : ((s.addWaiter side (-1)).setPhase t .outside).phase t = .outside :=
    update_self ..
  unfold RwLock.waitEnd
  simp only
  split
  next result =>
    rw [← giveUp_setPhase]
    exact hexit.giveUp houtside
  next hfailed =>
    rw [← waitLoop_setPhase]
    refine hexit.waitLoop houtside ?_ (exit_waitRoom hinv hphase)
    rintro rfl
    rcases hread rfl with ⟨result, rfl⟩ | hroom
    · exact absurd rfl (hfailed result)
    · exact hroom

theorem Inv.dropLock (hinv : s.Inv) (hholds : t ∈ s.held .reader ∨ t ∈ s.held .writer) :
    (s.dropLock t).Inv := by
  unfold RwLock.dropLock
  split
  next hpos =>
    rcases hinv.exclusion with ⟨_, -, -, hwriter⟩ | ⟨hnone, hcount⟩
    · omega
    · have hmem : t ∈ s.held .reader := by
        rcases hholds with hmem | hmem
        · exact hmem
        · rw [hnone] at hmem
          cases hmem
      have hlength := List.length_erase_of_mem hmem
      refine ⟨.inr ⟨?_, ?_⟩, hinv.counted, hinv.inRange⟩
      · simpa using hnone
      · simp only [update_self]
        omega
  next hpos =>
    split
    next hwriter =>
      rcases hinv.exclusion with ⟨u, hone, hreaders, -⟩ | ⟨-, hcount⟩
      · have heq : t = u := by
          rcases hholds with hmem | hmem
          · rw [hreaders] at hmem
            cases hmem
          · simpa [hone] using hmem
        refine ⟨.inr ⟨?_, ?_⟩, hinv.counted, hinv.inRange⟩
        · simp [hone, heq]
        · simp [hreaders]
      · omega
    · exact hinv

theorem Inv.pthreadRwlockUnlock (hinv : s.Inv)
    (hholds : t ∈ s.held .reader ∨ t ∈ s.held .writer) : (s.pthreadRwlockUnlock t).Inv := by
  have hdrop : ({ s.dropLock t with returned := none } : RwLock).Inv :=
    (hinv.dropLock hholds).of_same ⟨rfl, rfl, rfl, fun _ _ => Iff.rfl⟩
  unfold RwLock.pthreadRwlockUnlock
  simp only
  split
  · split
    · exact hdrop.of_same .pthreadCondSignal
    · exact hdrop
  · split
    · exact hdrop.of_same .pthreadCondBroadcast
    · exact hdrop

def Spares (s s' : RwLock) : Prop :=
  ∀ t code, s'.returned = some (t, code) → code ≠ 0 →
    s'.rwRefcount = s.rwRefcount ∧ s'.held = s.held

theorem Spares.of_none (hnone : s'.returned = none) : s.Spares s' := by
  intro t code hreturned
  cases hnone.symm.trans hreturned

theorem Spares.acquire : s.Spares (s.acquire t side) := by
  intro u code hreturned hcode
  obtain ⟨-, rfl⟩ := Prod.mk.inj (Option.some.inj hreturned)
  exact absurd rfl hcode

theorem Spares.waitLoop : s.Spares (s.waitLoop t side timed) := by
  unfold RwLock.waitLoop
  split
  · exact .of_none rfl
  · exact .acquire

theorem Spares.tryLock : s.Spares (s.tryLock t side) := by
  unfold RwLock.tryLock
  split
  · exact fun _ _ _ _ => ⟨rfl, rfl⟩
  · exact .acquire

theorem Spares.waitEnd : s.Spares (s.waitEnd t side timed stage) := by
  unfold RwLock.waitEnd
  simp only
  split
  · exact fun _ _ _ _ => ⟨rfl, rfl⟩
  · exact Spares.waitLoop (s := s.addWaiter side (-1))

theorem grants_returned (resumed : List Tid) :
    (resumed.foldl RwLock.grant s).returned = s.returned := by
  induction resumed generalizing s with
  | nil => rfl
  | cons t resumed ih =>
    refine ih.trans ?_
    unfold RwLock.grant
    split <;> rfl

theorem Spares.pthreadRwlockUnlock : s.Spares (s.pthreadRwlockUnlock t) := by
  apply Spares.of_none
  unfold RwLock.pthreadRwlockUnlock
  simp only
  split
  · split
    · unfold RwLock.pthreadCondSignal
      split
      next cond resumed _ =>
        cases resumed with
        | none => rfl
        | some u => exact grants_returned [u]
    · rfl
  · split
    · exact grants_returned _
    · rfl

def lockOp (t : Tid) : Side → Bool → RwOp
  | .reader, false => .rdlock t
  | .reader, true => .timedrdlock t
  | .writer, false => .wrlock t
  | .writer, true => .timedwrlock t

def tryOp (t : Tid) : Side → RwOp
  | .reader => .tryrdlock t
  | .writer => .trywrlock t

inductive Step (s : RwLock) : RwOp → RwLock → Prop
  | lock {t : Tid} (side : Side) (timed : Bool) (hphase : s.phase t = .outside) :
    Step s (lockOp t side timed) (s.waitLoop t side timed)
  | tryLock {t : Tid} (side : Side) (hphase : s.phase t = .outside) :
    Step s (tryOp t side) (s.tryLock t side)
  | unlock {t : Tid} (hat : s.phase t = .outside ∧ (t ∈ s.held .reader ∨ t ∈ s.held .writer)) :
    Step s (.unlock t) (s.pthreadRwlockUnlock t)
  | semTake {t : Tid} {side : Side} {timed : Bool} (hphase : s.phase t = .wait side timed .unlocked) :
    Step s (.semTake t) { s.semTake t side timed with returned := none }
  | semLeave {t : Tid} {side : Side} {timed : Bool} {stage stage' : Stage} {op : RwOp}
    (hphase : s.phase t = .wait side timed stage)
    (hwaits : stage = .blocked ∨ stage = .unlocked ∧ (s.cond side).value = 0)
    (hstage : stage' ≠ .blocked) :
    Step s op { s.semLeave t side timed stage' with returned := none }
  | waitEnd {t : Tid} {side : Side} {timed : Bool} {stage : Stage}
    (hphase : s.phase t = .wait side timed stage)
    (hover : stage = .granted ∨ ∃ result, stage = .failed result) :
    Step s (.waitEnd t) (s.waitEnd t side timed stage)

theorem of_guard {p : Prop} [Decidable p] {x : RwLock} {motive : RwLock → Prop}
    (hexec : (if p then some x else none) = some s') (hstep : p → motive x) : motive s' := by
  obtain ⟨hguard, heq⟩ := Option.ite_none_right_eq_some.mp hexec
  exact Option.some.inj heq ▸ hstep hguard

theorem exec_step {op : RwOp} (hexec : s.exec op = some s') : s.Step op s' := by
  cases op with
  | rdlock t => exact of_guard hexec (.lock .reader false)
  | tryrdlock t => exact of_guard hexec (.tryLock .reader)
  | timedrdlock t => exact of_guard hexec (.lock .reader true)
  | wrlock t => exact of_guard hexec (.lock .writer false)
  | trywrlock t => exact of_guard hexec (.tryLock .writer)
  | timedwrlock t => exact of_guard hexec (.lock .writer true)
  | unlock t => exact of_guard hexec .unlock
  | semTake t =>
    simp only [exec] at hexec
    split at hexec
    next hphase =>
      cases hexec
      exact .semTake hphase
    · cases hexec
  | timeout t =>
    simp only [exec] at hexec
    split at hexec
    next hphase =>
      cases hexec
      exact .semLeave hphase (.inl rfl) (by simp)
    next hphase =>
      exact of_guard hexec fun hvalue => .semLeave hphase (.inr ⟨rfl, hvalue⟩) (by simp)
    · cases hexec
  | error t | spurious t =>
    simp only [exec] at hexec
    split at hexec
    next hphase =>
      cases hexec
      exact .semLeave hphase (.inl rfl) (by simp)
    · cases hexec
  | waitEnd t =>
    simp only [exec] at hexec
    split at hexec
    next hphase =>
      cases hexec
      exact .waitEnd hphase (.inl rfl)
    next hphase =>
      cases hexec
      exact .waitEnd hphase (.inr ⟨_, rfl⟩)
    · cases hexec

theorem Spares.exec {op : RwOp} (hexec : s.exec op = some s') : s.Spares s' := by
  cases exec_step hexec with
  | lock => exact .waitLoop
  | tryLock => exact .tryLock
  | unlock => exact .pthreadRwlockUnlock
  | semTake | semLeave => exact .of_none rfl
  | waitEnd => exact .waitEnd

theorem Inv.exec {op : RwOp} (hinv : s.Inv) (hroom : s.HasRoom op) (hexec : s.exec op = some s') :
    s'.Inv := by
  cases exec_step hexec with
  | lock side timed hphase =>
    refine hinv.waitLoop hphase ?_ ?_
    · rintro rfl
      cases timed <;> exact hroom.1
    · cases side <;> cases timed <;> first | exact hroom.2 | exact hroom
  | tryLock side hphase =>
    refine hinv.tryLock hphase ?_
    rintro rfl
    exact hroom
  | unlock hat => exact hinv.pthreadRwlockUnlock hat.2
  | semTake hphase =>
    exact hinv.of_same ((SameWaits.semTake hphase).trans ⟨rfl, rfl, rfl, fun _ _ => Iff.rfl⟩)
  | semLeave hphase =>
    exact hinv.of_same ((SameWaits.semLeave hphase).trans ⟨rfl, rfl, rfl, fun _ _ => Iff.rfl⟩)
  | waitEnd hphase hover =>
    refine hinv.waitEnd hphase ?_
    rintro rfl
    refine hover.symm.imp_right ?_
    rintro rfl
    exact hroom ⟨_, hphase⟩

theorem Initial.inv (hinit : s.Initial) : s.Inv := by
  refine ⟨.inr ⟨hinit.held .writer, ?_⟩, fun side => ?_, fun side => ?_⟩
  · rw [hinit.rwRefcount, hinit.held]
    rfl
  · have hempty : {u | s.Inside side u} = ∅ := by
      ext u
      refine iff_of_false ?_ (Set.notMem_empty u)
      rintro ⟨timed, stage, hwait⟩
      rw [hinit.phase] at hwait
      cases hwait
    unfold Counted
    rw [hempty, hinit.nwait, Set.ncard_empty]
    exact ⟨Set.finite_empty, rfl⟩
  · rw [hinit.nwait]
    decide

theorem reachable_inv (hreach : rwMachine.Reachable HasRoom s) : s.Inv := by
  apply hreach.invariant
  · intro s hinit
    exact hinit.inv
  · intro s op s' hinv hroom hexec
    exact hinv.exec hroom hexec

/-- Readers and writers exclude each other, all waits are counted, and what fails takes nothing. -/
theorem reachable_exclusion (hreach : rwMachine.Reachable HasRoom s) :
    s.Exclusion ∧ (∀ side, s.Counted side) ∧
      ∀ op s', s.exec op = some s' → s.Spares s' := by
  have hinv := reachable_inv hreach
  exact ⟨hinv.exclusion, hinv.counted, fun _ _ => .exec⟩

def rwStart : RwLock where
  rwRefcount := 0
  nwait _ := 0
  cond _ := ⟨0, []⟩
  phase _ := .outside
  held _ := []
  returned := none

theorem rwStart_initial : rwStart.Initial :=
  ⟨rfl, fun _ => rfl, fun _ => rfl, fun _ => rfl, fun _ => rfl, rfl⟩

def timedRun : List RwOp :=
  [.rdlock 1, .wrlock 2, .semTake 2, .timedrdlock 3, .semTake 3, .timeout 3, .waitEnd 3, .unlock 1,
    .waitEnd 2]

theorem reachable_exclusion_timedRun :
    ∃ s, rwMachine.Reachable HasRoom s ∧ s.returned = some (2, 0) ∧
      s.held .writer = [2] ∧ s.Exclusion := by
  have hrun : (rwMachine.run HasRoom rwStart timedRun).map
      (fun s => (s.returned, s.held .writer)) = some (some (2, 0), [2]) := by
    decide +kernel
  obtain ⟨s, hreach, hend⟩ := Machine.exists_reachable_of_run rwStart_initial hrun
  obtain ⟨hreturned, hheld⟩ := Prod.mk.inj hend
  exact ⟨s, hreach, hreturned, hheld, (reachable_exclusion hreach).1⟩

theorem rdlock_free (hphase : s.phase t = .outside) (hcount : 0 ≤ s.rwRefcount)
    (hnone : s.nwait .writer = 0) : rwMachine.exec s (.rdlock t) = some (s.acquire t .reader) := by
  simp [rwMachine, exec, hphase, pthreadRwlockRdlock, RwLock.waitLoop, mustWait, hnone,
    Int.not_lt.mpr hcount]

theorem reachable_reads (n : Nat) (hlt : n < 2 ^ 31) :
    ∃ s, rwMachine.Reachable (fun _ _ => True) s ∧ s.rwRefcount = n ∧ s.phase 1 = .outside ∧
      s.nwait .writer = 0 := by
  induction n with
  | zero => exact ⟨rwStart, .start rwStart_initial, rfl, rfl, rfl⟩
  | succ n ih =>
    obtain ⟨s, hreach, hcount, hphase, hnone⟩ := ih (by omega)
    have hexec := rdlock_free hphase (by omega) hnone
    refine ⟨s.acquire 1 .reader, hreach.step trivial hexec, ?_, update_self 1 _ s.phase, hnone⟩
    rw [RwLock.acquire, hcount, intAdd_eq (by omega) (by omega)]
    rfl

theorem exclusion_fails_after_reads :
    ∃ s, rwMachine.Reachable (fun _ _ => True) s ∧ ¬ s.Exclusion := by
  obtain ⟨s, hreach, hcount, hphase, hnone⟩ := reachable_reads (2 ^ 31 - 1) (by decide)
  have hexec := rdlock_free hphase (by omega) hnone
  have hmin : (s.acquire 1 .reader).rwRefcount = -2 ^ 31 := by
    rw [RwLock.acquire, hcount]
    rfl
  refine ⟨s.acquire 1 .reader, hreach.step trivial hexec, ?_⟩
  rintro (⟨_, -, -, hwriter⟩ | ⟨-, hreaders⟩)
  · omega
  · omega

end RwLock

end RtThread.Pthreads
