import RtThread.Pthreads.RwLockExclusion

namespace RtThread.Pthreads

open Function RtThread.Ipc RtThread.Lib RwLock

namespace RwLock

def stage (s : RwLock) (side : Side) (t : Tid) : Option Stage :=
  match s.phase t with
  | .outside => none
  | .wait side' _ stage => if side' = side then some stage else none

def Waiting (s : RwLock) (side : Side) (t : Tid) : Prop :=
  s.stage side t = some .unlocked ∨ s.stage side t = some .blocked ∨
    s.stage side t = some .granted

def Pending (s : RwLock) (side : Side) (t : Tid) : Prop :=
  s.stage side t = some .granted ∨
    s.stage side t = some .unlocked ∧ 0 < (s.cond side).value

structure Awake (s : RwLock) : Prop where
  /-- A free lock has a thread under way that can take it. -/
  free : s.rwRefcount = 0 → (∃ side t, s.Waiting side t) →
    ∃ side t, s.Waiting side t ∧ s.mustWait side = false ∧ s.Pending side t
  /-- Without writers all readers are under way. -/
  readers : s.held .writer = [] → s.nwait .writer = 0 →
    ∀ t, s.Waiting .reader t → s.Pending .reader t

def Reaches (s : RwLock) : Prop :=
  ∃ t, s.stage .writer t = some .granted ∨ s.stage .writer t = some .blocked ∨
    s.stage .writer t = some .unlocked ∧ (s.cond .writer).value < 65535

/-- A reader that comes into the wait of a lock that nobody holds finds a writer to wait for. -/
def Justified (s : RwLock) : Prop := s.rwRefcount = 0 → 0 < s.nwait .writer → ∃ t, s.Waiting .writer t

def Attended (s : RwLock) : RwOp → Prop
  | .rdlock _ | .timedrdlock _ => s.Justified
  | .unlock t =>
    (s.dropLock t).rwRefcount = 0 → 0 < s.nwait .writer → (∃ side u, s.Waiting side u) → s.Reaches
  | .semTake t =>
    s.stage .reader t = some .unlocked → 0 ≤ s.rwRefcount → s.nwait .writer = 0 →
      ∀ u, u ≠ t → s.stage .reader u = some .unlocked → 1 < (s.cond .reader).value
  | .waitEnd t =>
    (s.stage .reader t = some .granted → s.Justified) ∧
      (∀ result, s.stage .writer t = some (.failed result) → 0 ≤ s.rwRefcount →
        s.nwait .writer = 1 → ∀ u, s.Waiting .reader u → s.Pending .reader u)
  | _ => True

structure Lists (s : RwLock) : Prop where
  listed : ∀ side t, t ∈ (s.cond side).suspendThread ↔ s.stage side t = some .blocked
  nodup : ∀ side, (s.cond side).suspendThread.Nodup
  tokens : ∀ side, 0 < (s.cond side).value → (s.cond side).suspendThread = []
  small : ∀ side, (s.cond side).value < 65536

structure Fair (s : RwLock) : Prop where
  lists : s.Lists
  writer : s.rwRefcount = 0 → (∃ t, s.Waiting .writer t) →
    ∃ t, s.Waiting .writer t ∧ s.Pending .writer t
  readers : 0 ≤ s.rwRefcount → s.nwait .writer = 0 → ∀ t, s.Waiting .reader t → s.Pending .reader t
  justified : (∃ t, s.Waiting .reader t) → s.Justified

variable {s s' : RwLock} {t u : Tid} {side side' : Side} {timed : Bool}

theorem stage_of_phase {stage : Stage} (hphase : s.phase t = .wait side timed stage) (side' : Side) :
    s.stage side' t = if side = side' then some stage else none := by
  unfold RwLock.stage
  rw [hphase]

theorem stage_other {stage : Stage} (hstage : s.stage side t = some stage) (hne : side' ≠ side) :
    s.stage side' t = none := by
  unfold RwLock.stage at hstage ⊢
  split at hstage
  · cases hstage
  next side'' timed stage' hphase =>
    split at hstage
    next heq => rw [if_neg (fun h => hne (h.symm.trans heq))]
    · cases hstage

theorem stage_of_outside (hphase : s.phase t = .outside) (side : Side) : s.stage side t = none := by
  unfold RwLock.stage
  rw [hphase]

theorem stage_setPhase {stage : Stage} :
    (s.setPhase t (.wait side timed stage)).stage side' u =
      if u = t then (if side = side' then some stage else none) else s.stage side' u := by
  unfold RwLock.stage setPhase
  rcases eq_or_ne u t with rfl | hne
  · simp
  · simp [hne]

theorem stage_setOutside :
    (s.setPhase t .outside).stage side u = if u = t then none else s.stage side u := by
  unfold RwLock.stage setPhase
  rcases eq_or_ne u t with rfl | hne
  · simp
  · simp [hne]

theorem stage_grant :
    (s.grant t).stage side u =
      if u = t then (s.stage side t).map fun _ => .granted else s.stage side u := by
  unfold grant
  split
  next side' timed stage hphase =>
    rw [stage_setPhase, stage_of_phase hphase]
    split
    · split <;> rfl
    · rfl
  next hphase =>
    split
    next heq => rw [heq, stage_of_outside hphase, Option.map_none]
    · rfl

theorem stage_grants (resumed : List Tid) :
    (resumed.foldl grant s).stage side u =
      if u ∈ resumed then (s.stage side u).map fun _ => .granted else s.stage side u := by
  induction resumed generalizing s with
  | nil => rfl
  | cons t resumed ih =>
    rw [List.foldl_cons, ih, stage_grant]
    rcases eq_or_ne u t with rfl | hne
    · simp [comp_def]
    · simp [hne]

theorem grant_cond : (s.grant t).cond = s.cond := by
  unfold grant
  split <;> rfl

theorem grants_cond (resumed : List Tid) : (resumed.foldl grant s).cond = s.cond := by
  induction resumed generalizing s with
  | nil => rfl
  | cons t resumed ih => exact ih.trans grant_cond

theorem waiting_iff_stage : s.Waiting side t ↔
    ∃ stage, s.stage side t = some stage ∧ ∀ result, stage ≠ .failed result := by
  unfold Waiting
  constructor
  · rintro (h | h | h) <;> exact ⟨_, h, fun _ h => nomatch h⟩
  · rintro ⟨stage, hstage, hfailed⟩
    cases stage with
    | unlocked => exact .inl hstage
    | blocked => exact .inr (.inl hstage)
    | granted => exact .inr (.inr hstage)
    | failed result => exact absurd rfl (hfailed result)

theorem Waiting.congr (hwaiting : s.Waiting side t) (hstage : s'.stage side t = s.stage side t) :
    s'.Waiting side t := by
  unfold Waiting
  rw [hstage]
  exact hwaiting

theorem Pending.waiting (hpending : s.Pending side t) : s.Waiting side t := by
  rcases hpending with hgranted | ⟨hunlocked, -⟩
  · exact .inr (.inr hgranted)
  · exact .inl hunlocked

theorem Pending.congr (hpending : s.Pending side t) (hstage : s'.stage side t = s.stage side t)
    (hvalue : (s'.cond side).value = (s.cond side).value) : s'.Pending side t := by
  unfold Pending
  rw [hstage, hvalue]
  exact hpending

theorem Waiting.inside (hwaiting : s.Waiting side t) : s.Inside side t := by
  obtain ⟨stage, hstage, -⟩ := waiting_iff_stage.mp hwaiting
  unfold RwLock.stage at hstage
  split at hstage
  · cases hstage
  next side' timed stage' hphase =>
    split at hstage
    next heq =>
      subst heq
      exact ⟨timed, stage', hphase⟩
    · cases hstage

theorem Lists.of_same (hlists : s.Lists) (hcond : s'.cond = s.cond)
    (hblocked : ∀ side u, s'.stage side u = some .blocked ↔ s.stage side u = some .blocked) :
    s'.Lists := by
  refine ⟨fun side u => ?_, ?_, ?_, ?_⟩
  · rw [hcond, hblocked]
    exact hlists.listed side u
  · rw [hcond]
    exact hlists.nodup
  · rw [hcond]
    exact hlists.tokens
  · rw [hcond]
    exact hlists.small

theorem setCond_self {cond : Cond} : (s.setCond side cond).cond side = cond :=
  update_self ..

theorem setCond_other {cond : Cond} (hne : side' ≠ side) :
    (s.setCond side cond).cond side' = s.cond side' :=
  update_of_ne hne ..

theorem Lists.setCond {cond : Cond} (hlists : s.Lists) (hcond : s'.cond side = cond)
    (hother : ∀ side', side' ≠ side → s'.cond side' = s.cond side')
    (hlisted : ∀ u, u ∈ cond.suspendThread ↔ s'.stage side u = some .blocked)
    (hstage : ∀ side' u, side' ≠ side →
      (s'.stage side' u = some .blocked ↔ s.stage side' u = some .blocked))
    (hnodup : cond.suspendThread.Nodup) (htokens : 0 < cond.value → cond.suspendThread = [])
    (hsmall : cond.value < 65536) : s'.Lists := by
  refine ⟨fun side' u => ?_, fun side' => ?_, fun side' => ?_, fun side' => ?_⟩
  all_goals rcases eq_or_ne side' side with rfl | hne
  · rw [hcond]
    exact hlisted u
  · rw [hother side' hne, hstage side' u hne]
    exact hlists.listed side' u
  · rw [hcond]
    exact hnodup
  · rw [hother side' hne]
    exact hlists.nodup side'
  · rw [hcond]
    exact htokens
  · rw [hother side' hne]
    exact hlists.tokens side'
  · rw [hcond]
    exact hsmall
  · rw [hother side' hne]
    exact hlists.small side'

theorem Lists.semTake (hlists : s.Lists) (hphase : s.phase t = .wait side timed .unlocked) :
    (s.semTake t side timed).Lists := by
  have hunlocked : s.stage side t = some .unlocked := by
    rw [stage_of_phase hphase, if_pos rfl]
  have hother : ∀ side', side' ≠ side → s.stage side' t = none := fun side' hne => by
    rw [stage_of_phase hphase, if_neg hne.symm]
  have hsmall := hlists.small side
  unfold RwLock.semTake
  dsimp only
  split
  next hpos =>
    refine hlists.setCond setCond_self (fun side' hne => setCond_other hne) (fun u => ?_)
      (fun side' u hne => ?_) (hlists.nodup side) (fun _ => hlists.tokens side hpos) ?_
    · rw [stage_setPhase]
      split
      next heq =>
        rw [hlists.listed, heq, hunlocked]
        simp
      · exact hlists.listed side u
    · rw [stage_setPhase]
      split
      next heq => simp [heq, hother side' hne, hne.symm]
      · exact Iff.rfl
    · change dec16 (s.cond side).value < 65536
      unfold dec16
      split <;> omega
  next hzero =>
    have hfree : t ∉ (s.cond side).suspendThread := by
      rw [hlists.listed, hunlocked]
      exact fun h => nomatch h
    refine hlists.setCond setCond_self (fun side' hne => setCond_other hne) (fun u => ?_)
      (fun side' u hne => ?_) ?_ (fun hpos => absurd hpos hzero) hsmall
    · rw [stage_setPhase, List.mem_append, List.mem_singleton]
      split
      next heq => simp [heq]
      next hne =>
        simp only [hne, or_false]
        exact hlists.listed side u
    · rw [stage_setPhase]
      split
      next heq => simp [heq, hother side' hne, hne.symm]
      · exact Iff.rfl
    · exact List.nodup_append.mpr ⟨hlists.nodup side, List.nodup_singleton t, fun a ha b hb heq => by
        rw [List.mem_singleton] at hb
        exact hfree (by rw [← hb, ← heq]; exact ha)⟩

theorem Lists.semLeave {stage stage' : Stage} (hlists : s.Lists)
    (hphase : s.phase t = .wait side timed stage) (hstage : stage' ≠ .blocked) :
    (s.semLeave t side timed stage').Lists := by
  have hother : ∀ side', side' ≠ side → s.stage side' t = none := fun side' hne => by
    rw [stage_of_phase hphase, if_neg hne.symm]
  refine hlists.setCond setCond_self (fun side' hne => setCond_other hne) (fun u => ?_)
    (fun side' u hne => ?_) (listRemove_nodup (hlists.nodup side)) (fun hpos => ?_)
    (hlists.small side)
  · unfold RwLock.semLeave
    dsimp only
    rw [stage_setPhase, mem_listRemove, hlists.listed]
    split
    next heq => simp [heq, hstage]
    next hne => exact and_iff_left hne
  · unfold RwLock.semLeave
    dsimp only
    rw [stage_setPhase]
    split
    next heq => simp [heq, hother side' hne, hne.symm]
    · exact Iff.rfl
  · change listRemove t (s.cond side).suspendThread = []
    rw [hlists.tokens side hpos]
    rfl

theorem signal_cases (side : Side) (s : RwLock) :
    (∃ t rest, (s.cond side).suspendThread = t :: rest ∧
      s.pthreadCondSignal side =
        (s.setCond side { s.cond side with suspendThread := rest }).grant t) ∨
      (s.cond side).suspendThread = [] ∧
        s.pthreadCondSignal side =
          s.setCond side { s.cond side with value := inc16 (s.cond side).value } := by
  unfold pthreadCondSignal Cond.release
  match hlist : (s.cond side).suspendThread with
  | [] => exact .inr ⟨rfl, by simp [setCond, hlist]⟩
  | t :: rest => exact .inl ⟨t, rest, rfl, rfl⟩

theorem Lists.pthreadCondSignal (hlists : s.Lists) : (s.pthreadCondSignal side).Lists := by
  rcases signal_cases side s with ⟨t, rest, hlist, heq⟩ | ⟨hnil, heq⟩
  · have hnodup := hlists.nodup side
    rw [hlist, List.nodup_cons] at hnodup
    have hblocked : s.stage side t = some .blocked := by
      rw [← hlists.listed, hlist]
      exact List.mem_cons_self
    have hother : ∀ side', side' ≠ side → s.stage side' t = none :=
      fun side' hne => stage_other hblocked hne
    rw [heq]
    have hcond : ((s.setCond side { s.cond side with suspendThread := rest }).grant t).cond =
        (s.setCond side { s.cond side with suspendThread := rest }).cond := grant_cond
    refine hlists.setCond ((congrFun hcond side).trans setCond_self)
      (fun side' hne => (congrFun hcond side').trans (setCond_other hne)) (fun u => ?_)
      (fun side' u hne => ?_) hnodup.2 (fun hpos => ?_) (hlists.small side)
    · rw [stage_grant]
      change u ∈ rest ↔
        (if u = t then (s.stage side t).map fun _ => Stage.granted else s.stage side u) =
          some .blocked
      split
      next heq' => simp [heq', hblocked, hnodup.1]
      next hne =>
        rw [← hlists.listed, hlist, List.mem_cons]
        simp [hne]
    · rw [stage_grant]
      change (if u = t then (s.stage side' t).map fun _ => Stage.granted else s.stage side' u) =
        some .blocked ↔ _
      split
      next heq' => simp [heq', hother side' hne]
      · exact Iff.rfl
    · have hnone := hlists.tokens side hpos
      rw [hlist] at hnone
      cases hnone
  · rw [heq]
    refine hlists.setCond setCond_self (fun side' hne => setCond_other hne) (hlists.listed side)
      (fun _ _ _ => Iff.rfl) (hlists.nodup side) (fun _ => hnil) ?_
    exact Nat.mod_lt _ (by decide)

theorem broadcast_eq (value : Nat) (list : List Tid) (htokens : 0 < value → list = [])
    (hsmall : value < 65536) :
    ∃ left, 0 < left ∧ left < 65536 ∧ Cond.broadcast value list = (⟨left, []⟩, list) := by
  induction list generalizing value with
  | nil =>
    unfold Cond.broadcast
    split
    · exact ⟨1, by decide, by decide, rfl⟩
    next hne =>
      have hback : inc16 (dec16 value) = value := by
        unfold inc16 dec16
        rw [if_neg hne]
        omega
      rw [hback]
      exact ⟨value, Nat.pos_of_ne_zero hne, hsmall, rfl⟩
  | cons t rest ih =>
    have hzero : value = 0 := by
      by_contra hne
      cases htokens (Nat.pos_of_ne_zero hne)
    obtain ⟨left, hpos, hlt, hrest⟩ := ih 0 (fun h => absurd h (Nat.lt_irrefl 0)) (by decide)
    refine ⟨left, hpos, hlt, ?_⟩
    rw [Cond.broadcast, if_pos hzero, hrest]

structure Broadcast (side : Side) (s s' : RwLock) : Prop where
  value : 0 < (s'.cond side).value
  small : (s'.cond side).value < 65536
  list : (s'.cond side).suspendThread = []
  cond : ∀ side', side' ≠ side → s'.cond side' = s.cond side'
  woken : ∀ u, s.stage side u = some .blocked → s'.stage side u = some .granted
  stage : ∀ side' u, ¬ (side' = side ∧ s.stage side u = some .blocked) →
    s'.stage side' u = s.stage side' u

theorem Lists.broadcast (hlists : s.Lists) (side : Side) :
    Broadcast side s (s.pthreadCondBroadcast side) := by
  obtain ⟨left, hpos, hlt, heq⟩ := broadcast_eq (s.cond side).value (s.cond side).suspendThread
    (hlists.tokens side) (hlists.small side)
  have hcond : (s.pthreadCondBroadcast side).cond = (s.setCond side ⟨left, []⟩).cond := by
    unfold pthreadCondBroadcast
    rw [heq]
    exact grants_cond _
  have hstage : ∀ side' u, (s.pthreadCondBroadcast side).stage side' u =
      if u ∈ (s.cond side).suspendThread then (s.stage side' u).map fun _ => .granted
      else s.stage side' u := by
    intro side' u
    unfold pthreadCondBroadcast
    rw [heq]
    exact stage_grants _
  refine ⟨?_, ?_, ?_, fun side' hne => ?_, fun u hblocked => ?_, fun side' u hnot => ?_⟩
  · rw [hcond, setCond_self]
    exact hpos
  · rw [hcond, setCond_self]
    exact hlt
  · rw [hcond, setCond_self]
  · rw [hcond]
    exact setCond_other hne
  · rw [hstage, if_pos ((hlists.listed side u).mpr hblocked), hblocked]
    rfl
  · rw [hstage]
    split
    next hmem =>
      have hblocked := (hlists.listed side u).mp hmem
      have hside : side' ≠ side := fun h => hnot ⟨h, hblocked⟩
      rw [stage_other hblocked hside]
      rfl
    · rfl

theorem Lists.pthreadCondBroadcast (hlists : s.Lists) : (s.pthreadCondBroadcast side).Lists := by
  have hbroadcast := hlists.broadcast side
  refine hlists.setCond rfl hbroadcast.cond (fun u => ?_) (fun side' u hne => ?_) ?_
    (fun _ => hbroadcast.list) hbroadcast.small
  · rw [hbroadcast.list]
    refine iff_of_false (by simp) fun hblocked => ?_
    by_cases hbefore : s.stage side u = some .blocked
    · cases (hbroadcast.woken u hbefore).symm.trans hblocked
    · exact hbefore ((hbroadcast.stage side u fun h => hbefore h.2).symm.trans hblocked)
  · rw [hbroadcast.stage side' u fun h => hne h.1]
  · rw [hbroadcast.list]
    exact List.nodup_nil

theorem setPhase_outside (hphase : s.phase t = .outside) : s.setPhase t .outside = s := by
  unfold setPhase
  rw [← hphase, update_eq_self]

theorem acquire_stage (hphase : s.phase t = .outside) :
    (s.acquire t side).stage side' u = s.stage side' u := by
  have hsame : (s.acquire t side).phase = s.phase := by
    change update s.phase t .outside = s.phase
    rw [← hphase, update_eq_self]
  unfold RwLock.stage
  rw [hsame]

section

variable (hlists : s.Lists)
include hlists

theorem Lists.returned (result : Option (Tid × Int)) :
    ({ s with returned := result } : RwLock).Lists :=
  ⟨hlists.listed, hlists.nodup, hlists.tokens, hlists.small⟩

theorem Lists.acquire (hphase : s.phase t = .outside) : (s.acquire t side).Lists :=
  hlists.of_same rfl fun side' u => by rw [acquire_stage hphase]

theorem Lists.enter (hphase : s.phase t = .outside) (n : Int) :
    Lists { (s.addWaiter side n).setPhase t (.wait side timed .unlocked) with returned := none } := by
  refine hlists.of_same rfl fun side' u => ?_
  change ((s.addWaiter side n).setPhase t (.wait side timed .unlocked)).stage side' u = _ ↔ _
  rw [stage_setPhase]
  split
  next heq =>
    rw [heq, stage_of_outside hphase]
    split <;> simp
  · exact Iff.rfl

theorem Lists.exit {stage : Stage} (hphase : s.phase t = .wait side timed stage)
    (hblocked : stage ≠ .blocked) (n : Int) :
    ((s.addWaiter side n).setPhase t .outside).Lists := by
  refine hlists.of_same rfl fun side' u => ?_
  rw [stage_setOutside]
  split
  next heq =>
    rw [heq, stage_of_phase hphase]
    split
    · simpa using hblocked
    · exact Iff.rfl
  · exact Iff.rfl

theorem Lists.waitLoop (hphase : s.phase t = .outside) : (s.waitLoop t side timed).Lists := by
  unfold RwLock.waitLoop
  split
  · exact hlists.enter hphase 1
  · exact hlists.acquire hphase

theorem Lists.tryLock (hphase : s.phase t = .outside) : (s.tryLock t side).Lists := by
  unfold RwLock.tryLock
  split
  · unfold RwLock.giveUp
    rw [setPhase_outside hphase]
    exact hlists.returned _
  · exact hlists.acquire hphase

theorem Lists.waitEnd {stage : Stage} (hphase : s.phase t = .wait side timed stage)
    (hblocked : stage ≠ .blocked) : (s.waitEnd t side timed stage).Lists := by
  have hexit := hlists.exit hphase hblocked (-1)
  unfold RwLock.waitEnd
  simp only
  split
  · exact hexit.returned _
  · rw [← waitLoop_setPhase]
    exact hexit.waitLoop (update_self ..)

end

theorem mustWait_reader : s.mustWait .reader = false ↔ 0 ≤ s.rwRefcount ∧ s.nwait .writer ≤ 0 := by
  simp [mustWait]

theorem Fair.of_held (hlists : s.Lists) (hheld : s.rwRefcount ≠ 0)
    (hreaders : 0 ≤ s.rwRefcount → s.nwait .writer = 0 →
      ∀ t, s.Waiting .reader t → s.Pending .reader t) : s.Fair :=
  ⟨hlists, fun h => absurd h hheld, hreaders, fun _ h => absurd h hheld⟩

section

variable (hfair : s.Fair)
include hfair

theorem Fair.acquire (hinv : s.Inv) (hphase : s.phase t = .outside)
    (hfree : s.mustWait side = false) (hread : side = .reader → s.ReadRoom) :
    (s.acquire t side).Fair := by
  have hstage : ∀ side' u, (s.acquire t side).stage side' u = s.stage side' u :=
    fun _ _ => acquire_stage hphase
  have hlists : (s.acquire t side).Lists := hfair.lists.acquire hphase
  cases side with
  | reader =>
    obtain ⟨hnonneg, hnone⟩ := mustWait_reader.mp hfree
    refine .of_held hlists ?_ fun _ _ u hwaiting => ?_
    · rw [acquire, intAdd_eq (by omega) (hread rfl hfree)]
      exact (Int.add_pos_of_nonneg_of_pos hnonneg (by decide)).ne'
    · have hnwait := nwait_nonneg hinv .writer
      have hbefore := hfair.readers hnonneg (by omega) u (hwaiting.congr (hstage _ _).symm)
      exact hbefore.congr (hstage _ _) rfl
  | writer =>
    refine .of_held hlists (show (-1 : Int) ≠ 0 by decide) fun h => ?_
    exact absurd (show (0 : Int) ≤ -1 from h) (by decide)

theorem Fair.waitLoop (hinv : s.Inv) (hphase : s.phase t = .outside)
    (hread : side = .reader → s.ReadRoom ∧ s.Justified) (hwait : s.WaitRoom side) :
    (s.waitLoop t side timed).Fair := by
  unfold RwLock.waitLoop
  split
  next hmust =>
    have hstage : ∀ side' u,
        RwLock.stage { (s.addWaiter side 1).setPhase t (.wait side timed .unlocked) with
          returned := none } side' u =
        if u = t then (if side = side' then some .unlocked else none) else s.stage side' u :=
      fun side' u => stage_setPhase
    have hnone := fun side' => stage_of_outside hphase side'
    have hlists : Lists { (s.addWaiter side 1).setPhase t (.wait side timed .unlocked) with
        returned := none } := hfair.lists.enter hphase 1
    cases side with
    | writer =>
      have hheld : s.rwRefcount ≠ 0 := by simpa [mustWait] using hmust
      refine .of_held hlists hheld fun _ hzero => ?_
      have hnwait := nwait_nonneg hinv .writer
      change (s.addWaiter .writer 1).nwait .writer = 0 at hzero
      rw [addWaiter_nwait (by omega) (hwait hmust), update_self] at hzero
      omega
    | reader =>
      have hwriters : ∀ u, RwLock.stage { (s.addWaiter .reader 1).setPhase t
          (.wait .reader timed .unlocked) with returned := none } .writer u =
          s.stage .writer u := by
        intro u
        rw [hstage]
        split
        next heq => rw [heq, hnone, if_neg (by decide)]
        · rfl
      refine ⟨hlists, fun hzero hsome => ?_, fun hnonneg hnwait => ?_, fun _ hzero hpos => ?_⟩
      · obtain ⟨u, hwaiting⟩ := hsome
        obtain ⟨v, hv, hpending⟩ := hfair.writer hzero ⟨u, hwaiting.congr (hwriters u).symm⟩
        exact ⟨v, hv.congr (hwriters v), hpending.congr (hwriters v) rfl⟩
      · have hfree : s.mustWait .reader = false := mustWait_reader.mpr
          ⟨hnonneg, le_of_eq (show s.nwait .writer = 0 from hnwait)⟩
        cases hmust.symm.trans hfree
      · obtain ⟨u, hwaiting⟩ := (hread rfl).2 hzero hpos
        exact ⟨u, hwaiting.congr (hwriters u)⟩
  next hfree =>
    exact hfair.acquire hinv hphase (by simpa using hfree) fun hside => (hread hside).1

theorem Fair.returned (result : Option (Tid × Int)) :
    ({ s with returned := result } : RwLock).Fair :=
  ⟨hfair.lists.returned result, hfair.writer, hfair.readers, hfair.justified⟩

theorem Fair.tryLock (hinv : s.Inv) (hphase : s.phase t = .outside)
    (hread : side = .reader → s.ReadRoom) : (s.tryLock t side).Fair := by
  unfold RwLock.tryLock
  split
  · unfold RwLock.giveUp
    rw [setPhase_outside hphase]
    exact hfair.returned _
  next hfree => exact hfair.acquire hinv hphase (by simpa using hfree) hread

theorem Fair.exit {stage : Stage} (hinv : s.Inv) (hphase : s.phase t = .wait side timed stage)
    (hblocked : stage ≠ .blocked) (hwriter : side = .writer → ∃ result, stage = .failed result)
    (hlast : side = .writer → 0 ≤ s.rwRefcount → s.nwait .writer = 1 →
      ∀ u, s.Waiting .reader u → s.Pending .reader u) :
    ((s.addWaiter side (-1)).setPhase t .outside).Fair := by
  have hstage : ∀ side' u, ((s.addWaiter side (-1)).setPhase t .outside).stage side' u =
      if u = t then none else s.stage side' u := fun _ _ => stage_setOutside
  have hself : ∀ side' u, ((s.addWaiter side (-1)).setPhase t .outside).Waiting side' u →
      u ≠ t ∧ s.Waiting side' u := by
    intro side' u hwaiting
    have hne : u ≠ t := by
      rintro rfl
      obtain ⟨stage', hsome, -⟩ := waiting_iff_stage.mp hwaiting
      rw [hstage, if_pos rfl] at hsome
      cases hsome
    exact ⟨hne, hwaiting.congr (by rw [hstage, if_neg hne])⟩
  have hother : ∀ u, s.Waiting .writer u → u ≠ t := by
    rintro u hwaiting rfl
    obtain ⟨stage', hsome, hfailed⟩ := waiting_iff_stage.mp hwaiting
    rw [stage_of_phase hphase] at hsome
    split at hsome
    next hside =>
      obtain ⟨result, rfl⟩ := hwriter hside
      exact hfailed result (Option.some.inj hsome).symm
    · cases hsome
  have hnwait : ((s.addWaiter side (-1)).setPhase t .outside).nwait .writer =
      if side = .writer then s.nwait .writer - 1 else s.nwait .writer := by
    have hpos := nwait_pos hinv ⟨timed, stage, hphase⟩
    have hlt := hinv.inRange side
    change (s.addWaiter side (-1)).nwait .writer = _
    rw [addWaiter_nwait (by omega) (by omega)]
    rcases eq_or_ne side .writer with rfl | hne
    · simp [sub_eq_add_neg]
    · rw [update_of_ne hne.symm, if_neg hne]
  refine ⟨hfair.lists.exit hphase hblocked (-1), fun hzero hsome => ?_,
    fun hnonneg hnone u hwaiting => ?_, fun hsome hzero hpos => ?_⟩
  · obtain ⟨u, hwaiting⟩ := hsome
    obtain ⟨v, hv, hpending⟩ := hfair.writer hzero ⟨u, (hself _ u hwaiting).2⟩
    have hsame : ((s.addWaiter side (-1)).setPhase t .outside).stage .writer v =
        s.stage .writer v := by
      rw [hstage, if_neg (hother v hv)]
    exact ⟨v, hv.congr hsame, hpending.congr hsame rfl⟩
  · obtain ⟨hne, hbefore⟩ := hself _ u hwaiting
    have hpending : s.Pending .reader u := by
      rw [hnwait] at hnone
      split at hnone
      next hside => exact hlast hside hnonneg (by omega) u hbefore
      · exact hfair.readers hnonneg hnone u hbefore
    exact hpending.congr (by rw [hstage, if_neg hne]) rfl
  · obtain ⟨u, hwaiting⟩ := hsome
    have hbefore : 0 < s.nwait .writer := by
      rw [hnwait] at hpos
      split at hpos <;> omega
    obtain ⟨v, hv⟩ := hfair.justified ⟨u, (hself _ u hwaiting).2⟩ hzero hbefore
    exact ⟨v, hv.congr (by rw [hstage, if_neg (hother v hv)])⟩

theorem Fair.waitEndFailed {result : Int} (hinv : s.Inv)
    (hphase : s.phase t = .wait side timed (.failed result))
    (hlast : side = .writer → 0 ≤ s.rwRefcount → s.nwait .writer = 1 →
      ∀ u, s.Waiting .reader u → s.Pending .reader u) :
    (s.waitEnd t side timed (.failed result)).Fair :=
  (hfair.exit hinv hphase (fun h => nomatch h) (fun _ => ⟨result, rfl⟩) hlast).returned _

theorem Fair.waitEndReader (hinv : s.Inv)
    (hphase : s.phase t = .wait .reader timed .granted) (hread : s.ReadRoom)
    (hjustified : s.Justified) : (s.waitEnd t .reader timed .granted).Fair := by
  have hexit := hfair.exit hinv hphase (fun h => nomatch h) (fun h => nomatch h) (fun h => nomatch h)
  have hinv' := hinv.exit hphase
  unfold RwLock.waitEnd
  simp only
  rw [← waitLoop_setPhase]
  refine hexit.waitLoop hinv' (update_self ..) (fun _ => ⟨hread, fun hzero hpos => ?_⟩)
    (exit_waitRoom hinv hphase)
  obtain ⟨u, hwaiting⟩ := hjustified hzero hpos
  refine ⟨u, hwaiting.congr ?_⟩
  rw [stage_setOutside]
  split
  next heq =>
    rw [heq, stage_of_phase hphase]
    rfl
  · rfl

theorem Fair.waitEndWriter (hinv : s.Inv) (hphase : s.phase t = .wait .writer timed .granted) :
    (s.waitEnd t .writer timed .granted).Fair := by
  have hinside : s.Inside .writer t := ⟨timed, .granted, hphase⟩
  have hnwait := nwait_pos hinv hinside
  have hlists := hfair.lists.waitEnd hphase (by intro h; cases h)
  unfold RwLock.waitEnd RwLock.waitLoop at hlists ⊢
  simp only at hlists ⊢
  split at hlists
  next hmust =>
    have hheld : s.rwRefcount ≠ 0 := by
      have hheld' : (s.addWaiter .writer (-1)).rwRefcount ≠ 0 := by simpa [mustWait] using hmust
      exact hheld'
    rw [if_pos hmust]
    refine .of_held hlists hheld fun _ hzero => ?_
    have hlt := hinv.inRange .writer
    have hexit : (s.addWaiter .writer (-1)).nwait .writer = s.nwait .writer + -1 := by
      rw [addWaiter_nwait (by omega) (by omega), update_self]
    change ((s.addWaiter .writer (-1)).addWaiter .writer 1).nwait .writer = 0 at hzero
    rw [addWaiter_nwait (by omega) (by omega), update_self] at hzero
    omega
  next hfree =>
    rw [if_neg hfree]
    refine .of_held hlists (show (-1 : Int) ≠ 0 by decide) fun h => ?_
    exact absurd (show (0 : Int) ≤ -1 from h) (by decide)

end

theorem dropLock_same : (s.dropLock t).nwait = s.nwait ∧ (s.dropLock t).cond = s.cond ∧
    (s.dropLock t).phase = s.phase := by
  unfold dropLock
  split
  · exact ⟨rfl, rfl, rfl⟩
  · split
    · exact ⟨rfl, rfl, rfl⟩
    · exact ⟨rfl, rfl, rfl⟩

theorem Lists.dropLock (hlists : s.Lists) : Lists { s.dropLock t with returned := none } := by
  obtain ⟨-, hcond, hphase⟩ := dropLock_same (s := s) (t := t)
  refine hlists.of_same hcond fun side u => ?_
  unfold RwLock.stage
  rw [hphase]

theorem Lists.pthreadRwlockUnlock (hlists : s.Lists) : (s.pthreadRwlockUnlock t).Lists := by
  have hdrop : Lists { s.dropLock t with returned := none } := hlists.dropLock
  unfold RwLock.pthreadRwlockUnlock
  simp only
  split
  · split
    · exact hdrop.pthreadCondSignal
    · exact hdrop
  · split
    · exact hdrop.pthreadCondBroadcast
    · exact hdrop

theorem Fair.signalled (hlists : s.Lists) (hpos : 0 < s.nwait .writer)
    (hreaches : (∃ side u, s.Waiting side u) → s.Reaches) :
    (s.pthreadCondSignal .writer).Fair := by
  have hsame : SameWaits s (s.pthreadCondSignal .writer) := .pthreadCondSignal
  -- a thread that waits goes on waiting
  have hstill : ∀ side u, (s.pthreadCondSignal .writer).Waiting side u ↔ s.Waiting side u := by
    intro side u
    have hgranted : ∀ x : RwLock, ∀ v, x.stage side v = some .blocked →
        ((x.grant v).Waiting side u ↔ x.Waiting side u) := by
      intro x v hblocked
      rcases eq_or_ne u v with rfl | hne
      · refine iff_of_true (.inr (.inr ?_)) (.inr (.inl hblocked))
        rw [stage_grant, if_pos rfl, hblocked]
        rfl
      · have hstage : (x.grant v).stage side u = x.stage side u := by
          rw [stage_grant, if_neg hne]
        exact ⟨fun h => h.congr hstage.symm, fun h => h.congr hstage⟩
    rcases signal_cases .writer s with ⟨v, rest, hlist, heq⟩ | ⟨-, heq⟩
    · have hblocked : s.stage .writer v = some .blocked := by
        rw [← hlists.listed, hlist]
        exact List.mem_cons_self
      rw [heq]
      rcases eq_or_ne side .writer with rfl | hside
      · exact hgranted (s.setCond .writer _) v hblocked
      · have hstage : ((s.setCond .writer { s.cond .writer with suspendThread := rest }).grant
            v).stage side u = s.stage side u := by
          rw [stage_grant]
          split
          next huv =>
            rw [huv]
            change (s.stage side v).map _ = s.stage side v
            rw [stage_other hblocked hside]
            rfl
          · rfl
        exact ⟨fun h => h.congr hstage.symm, fun h => h.congr hstage⟩
    · rw [heq]
      exact Iff.rfl
  have hwoken : (∃ side u, s.Waiting side u) →
      ∃ u, (s.pthreadCondSignal .writer).Pending .writer u := by
    intro hsome
    obtain ⟨u, hu⟩ := hreaches hsome
    rcases signal_cases .writer s with ⟨v, rest, hlist, heq⟩ | ⟨hnil, heq⟩
    · have hblocked : s.stage .writer v = some .blocked := by
        rw [← hlists.listed, hlist]
        exact List.mem_cons_self
      refine ⟨v, .inl ?_⟩
      rw [heq, stage_grant, if_pos rfl]
      change (s.stage .writer v).map _ = _
      rw [hblocked]
      rfl
    · rw [heq]
      rcases hu with hgranted | hblocked | ⟨hunlocked, hroom⟩
      · exact ⟨u, .inl hgranted⟩
      · rw [← hlists.listed, hnil] at hblocked
        cases hblocked
      · refine ⟨u, .inr ⟨hunlocked, ?_⟩⟩
        rw [setCond_self]
        change 0 < inc16 (s.cond .writer).value
        unfold inc16
        omega
  refine ⟨hlists.pthreadCondSignal, fun _ hsome => ?_, fun _ hnone => ?_, fun hsome _ _ => ?_⟩
  · obtain ⟨u, hwaiting⟩ := hsome
    obtain ⟨v, hpending⟩ := hwoken ⟨_, u, (hstill _ u).mp hwaiting⟩
    exact ⟨v, hpending.waiting, hpending⟩
  · rw [hsame.nwait] at hnone
    omega
  · obtain ⟨u, hwaiting⟩ := hsome
    obtain ⟨v, hpending⟩ := hwoken ⟨_, u, (hstill _ u).mp hwaiting⟩
    exact ⟨v, hpending.waiting⟩

theorem Fair.broadcast (hlists : s.Lists) (hinv : s.Inv) (hnone : s.nwait .writer = 0) :
    (s.pthreadCondBroadcast .reader).Fair := by
  have hbroadcast := hlists.broadcast .reader
  have hsame : SameWaits s (s.pthreadCondBroadcast .reader) := .pthreadCondBroadcast
  have hwriters : ∀ u, ¬ (s.pthreadCondBroadcast .reader).Waiting .writer u := by
    intro u hwaiting
    have hpos := nwait_pos hinv ((hsame.inside .writer u).mp hwaiting.inside)
    omega
  refine ⟨hlists.pthreadCondBroadcast, fun _ hsome => ?_, fun _ _ u hwaiting => ?_,
    fun _ _ hpos => ?_⟩
  · obtain ⟨u, hwaiting⟩ := hsome
    exact absurd hwaiting (hwriters u)
  · rcases hwaiting with hunlocked | hblocked | hgranted
    · exact .inr ⟨hunlocked, hbroadcast.value⟩
    · have hmem := (hlists.pthreadCondBroadcast.listed .reader u).mpr hblocked
      rw [hbroadcast.list] at hmem
      cases hmem
    · exact .inl hgranted
  · rw [hsame.nwait] at hpos
    omega

theorem Fair.pthreadRwlockUnlock (hfair : s.Fair) (hinv : s.Inv)
    (hholds : t ∈ s.held .reader ∨ t ∈ s.held .writer) (hattended : s.Attended (.unlock t)) :
    (s.pthreadRwlockUnlock t).Fair := by
  obtain ⟨hnwait, hcond, hphase⟩ := dropLock_same (s := s) (t := t)
  have hstage : ∀ side u, RwLock.stage { s.dropLock t with returned := none } side u =
      s.stage side u := by
    intro side u
    unfold RwLock.stage
    rw [hphase]
  have hlists : Lists { s.dropLock t with returned := none } := hfair.lists.dropLock
  have hinv' : Inv { s.dropLock t with returned := none } :=
    (hinv.dropLock hholds).of_same ⟨rfl, rfl, rfl, fun _ _ => Iff.rfl⟩
  have hwaiting : ∀ side u, Waiting { s.dropLock t with returned := none } side u →
      s.Waiting side u := fun side u h => h.congr (hstage side u).symm
  unfold RwLock.pthreadRwlockUnlock
  simp only
  split
  next hpos =>
    split
    next hzero =>
      refine .signalled hlists hpos fun ⟨side, u, hu⟩ => ?_
      rw [hnwait] at hpos
      obtain ⟨v, hv⟩ := hattended hzero hpos ⟨side, u, hwaiting side u hu⟩
      refine ⟨v, ?_⟩
      rw [hstage, hcond]
      exact hv
    next hheld =>
      refine .of_held hlists hheld fun _ hnone => ?_
      rw [show nwait { s.dropLock t with returned := none } .writer =
        (s.dropLock t).nwait .writer from rfl] at hnone
      omega
  next hnot =>
    have hnone : nwait { s.dropLock t with returned := none } .writer = 0 := by
      have hnonneg := nwait_nonneg hinv' .writer
      have hle : nwait { s.dropLock t with returned := none } .writer ≤ 0 :=
        Int.not_lt.mp hnot
      omega
    split
    · exact .broadcast hlists hinv' hnone
    next hreaders =>
      refine ⟨hlists, fun _ hsome => ?_, fun _ _ u hu => ?_, fun _ _ hpos => absurd hpos hnot⟩
      · obtain ⟨u, hu⟩ := hsome
        exact absurd (nwait_pos hinv' hu.inside) hnot
      · exact absurd (nwait_pos hinv' hu.inside) hreaders

theorem Fair.semTake (hfair : s.Fair) (hphase : s.phase t = .wait side timed .unlocked)
    (hattended : s.Attended (.semTake t)) : (s.semTake t side timed).Fair := by
  have hunlocked : s.stage side t = some .unlocked := by
    rw [stage_of_phase hphase, if_pos rfl]
  have hother : ∀ side', side' ≠ side → s.stage side' t = none := fun side' hne => by
    rw [stage_of_phase hphase, if_neg hne.symm]
  have hlists := hfair.lists.semTake hphase
  have hsame : SameWaits s (s.semTake t side timed) := .semTake hphase
  have hstage : ∀ side' u, u ≠ t → (s.semTake t side timed).stage side' u = s.stage side' u := by
    intro side' u hne
    unfold RwLock.semTake
    dsimp only
    split <;> exact stage_setPhase.trans (if_neg hne)
  have hself : 0 < (s.cond side).value →
      (s.semTake t side timed).stage side t = some .granted := by
    intro hpos
    unfold RwLock.semTake
    dsimp only
    rw [if_pos hpos, stage_setPhase, if_pos rfl, if_pos rfl]
  have hself' : ¬ 0 < (s.cond side).value →
      (s.semTake t side timed).stage side t = some .blocked := by
    intro hzero
    unfold RwLock.semTake
    dsimp only
    rw [if_neg hzero, stage_setPhase, if_pos rfl, if_pos rfl]
  have hoff : ∀ side', side' ≠ side → (s.semTake t side timed).stage side' t = none ∧
      (s.semTake t side timed).cond side' = s.cond side' := by
    intro side' hne
    unfold RwLock.semTake
    dsimp only
    split
    · exact ⟨by rw [stage_setPhase, if_pos rfl, if_neg hne.symm], setCond_other hne⟩
    · exact ⟨by rw [stage_setPhase, if_pos rfl, if_neg hne.symm], setCond_other hne⟩
  have hvalue : ((s.semTake t side timed).cond side).value =
      if 0 < (s.cond side).value then (s.cond side).value - 1 else (s.cond side).value := by
    unfold RwLock.semTake
    dsimp only
    split
    next hpos =>
      change ((s.setCond side _).cond side).value = _
      rw [setCond_self]
      exact if_neg (Nat.pos_iff_ne_zero.mp hpos)
    · change ((s.setCond side _).cond side).value = _
      rw [setCond_self]
  have hwaiting : ∀ side' u, (s.semTake t side timed).Waiting side' u ↔ s.Waiting side' u := by
    intro side' u
    rcases eq_or_ne u t with rfl | hne
    · rcases eq_or_ne side' side with rfl | hside
      · refine iff_of_true ?_ (.inl hunlocked)
        by_cases hpos : 0 < (s.cond side').value
        · exact .inr (.inr (hself hpos))
        · exact .inr (.inl (hself' hpos))
      · have hnone : (s.semTake u side timed).stage side' u = s.stage side' u := by
          rw [(hoff side' hside).1, hother side' hside]
        exact ⟨fun h => h.congr hnone.symm, fun h => h.congr hnone⟩
    · exact ⟨fun h => h.congr (hstage side' u hne).symm, fun h => h.congr (hstage side' u hne)⟩
  refine ⟨hlists, fun hzero hsome => ?_, fun hnonneg hnone u hu => ?_, fun hsome hzero hpos => ?_⟩
  · obtain ⟨u, hu⟩ := hsome
    rw [hsame.rwRefcount] at hzero
    obtain ⟨v, hv, hpending⟩ := hfair.writer hzero ⟨u, (hwaiting _ u).mp hu⟩
    rcases eq_or_ne side .writer with rfl | hside
    · by_cases hpos : 0 < (s.cond .writer).value
      · exact ⟨t, .inr (.inr (hself hpos)), .inl (hself hpos)⟩
      · have hgranted : s.stage .writer v = some .granted := by
          rcases hpending with hgranted | ⟨-, htoken⟩
          · exact hgranted
          · exact absurd htoken hpos
        have hne : v ≠ t := by
          rintro rfl
          cases hgranted.symm.trans hunlocked
        exact ⟨v, (hwaiting _ v).mpr hv, .inl ((hstage _ v hne).trans hgranted)⟩
    · have hne : v ≠ t := by
        rintro rfl
        obtain ⟨stage, hstage', -⟩ := waiting_iff_stage.mp hv
        cases hstage'.symm.trans (hother .writer hside.symm)
      exact ⟨v, (hwaiting _ v).mpr hv,
        hpending.congr (hstage _ v hne) (by rw [(hoff .writer hside.symm).2])⟩
  · rw [hsame.rwRefcount] at hnonneg
    rw [hsame.nwait] at hnone
    have hbefore := hfair.readers hnonneg hnone
    rcases eq_or_ne side .reader with rfl | hside
    · have hpos : 0 < (s.cond .reader).value := by
        rcases hbefore t (.inl hunlocked) with hgranted | ⟨-, hpos⟩
        · cases hgranted.symm.trans hunlocked
        · exact hpos
      rcases eq_or_ne u t with rfl | hne
      · exact .inl (hself hpos)
      · rcases hbefore u ((hwaiting _ u).mp hu) with hgranted | ⟨hunlocked', -⟩
        · exact .inl ((hstage _ u hne).trans hgranted)
        · have hmore := hattended hunlocked hnonneg hnone u hne hunlocked'
          refine .inr ⟨(hstage _ u hne).trans hunlocked', ?_⟩
          rw [hvalue, if_pos hpos]
          omega
    · have hne : u ≠ t := by
        rintro rfl
        obtain ⟨stage, hstage', -⟩ := waiting_iff_stage.mp hu
        cases hstage'.symm.trans (hoff .reader hside.symm).1
      exact (hbefore u ((hwaiting _ u).mp hu)).congr (hstage _ u hne)
        (by rw [(hoff .reader hside.symm).2])
  · obtain ⟨u, hu⟩ := hsome
    rw [hsame.rwRefcount] at hzero
    rw [hsame.nwait] at hpos
    obtain ⟨v, hv⟩ := hfair.justified ⟨u, (hwaiting _ u).mp hu⟩ hzero hpos
    exact ⟨v, (hwaiting _ v).mpr hv⟩

theorem Fair.semLeave {stage stage' : Stage} (hfair : s.Fair)
    (hphase : s.phase t = .wait side timed stage) (hstage : stage' ≠ .blocked)
    (hwaits : s.Waiting side t) (hasleep : ¬ s.Pending side t) :
    (s.semLeave t side timed stage').Fair := by
  have hsame : SameWaits s (s.semLeave t side timed stage') := .semLeave hphase
  have hrest : ∀ side' u, u ≠ t →
      (s.semLeave t side timed stage').stage side' u = s.stage side' u :=
    fun side' u hne => stage_setPhase.trans (if_neg hne)
  have hoff : ∀ side', side' ≠ side → (s.semLeave t side timed stage').stage side' t = none :=
    fun side' hne => by
      unfold RwLock.semLeave
      dsimp only
      rw [stage_setPhase, if_pos rfl, if_neg hne.symm]
  have hvalue : ∀ side', ((s.semLeave t side timed stage').cond side').value =
      (s.cond side').value := by
    intro side'
    change ((s.setCond side _).cond side').value = _
    rcases eq_or_ne side' side with rfl | hne
    · rw [setCond_self]
    · rw [setCond_other hne]
  have hself : ∀ side' u, (s.semLeave t side timed stage').Waiting side' u → s.Waiting side' u := by
    intro side' u hwaiting
    rcases eq_or_ne u t with rfl | hne
    · rcases eq_or_ne side' side with rfl | hside
      · exact hwaits
      · obtain ⟨stage'', hsome, -⟩ := waiting_iff_stage.mp hwaiting
        cases hsome.symm.trans (hoff side' hside)
    · exact hwaiting.congr (hrest side' u hne).symm
  have hkeep : ∀ side' u, s.Pending side' u →
      (s.semLeave t side timed stage').Pending side' u := by
    intro side' u hpending
    have hne : u ≠ t := by
      rintro rfl
      rcases eq_or_ne side' side with rfl | hside
      · exact hasleep hpending
      · obtain ⟨stage'', hsome, -⟩ := waiting_iff_stage.mp hpending.waiting
        rw [stage_of_phase hphase, if_neg hside.symm] at hsome
        cases hsome
    exact hpending.congr (hrest side' u hne) (hvalue side')
  refine ⟨hfair.lists.semLeave hphase hstage, fun hzero hsome => ?_, fun hnonneg hnone u hu => ?_,
    fun hsome hzero hpos => ?_⟩
  · obtain ⟨u, hu⟩ := hsome
    obtain ⟨v, -, hpending⟩ := hfair.writer (hsame.rwRefcount ▸ hzero) ⟨u, hself _ u hu⟩
    exact ⟨v, (hkeep _ v hpending).waiting, hkeep _ v hpending⟩
  · rw [hsame.rwRefcount] at hnonneg
    rw [hsame.nwait] at hnone
    exact hkeep _ u (hfair.readers hnonneg hnone u (hself _ u hu))
  · obtain ⟨u, hu⟩ := hsome
    rw [hsame.rwRefcount] at hzero
    rw [hsame.nwait] at hpos
    -- the writers that wait have one under way
    obtain ⟨w, hw⟩ := hfair.justified ⟨u, hself _ u hu⟩ hzero hpos
    obtain ⟨v, -, hpending⟩ := hfair.writer hzero ⟨w, hw⟩
    exact ⟨v, (hkeep _ v hpending).waiting⟩

theorem Fair.exec {op : RwOp} (hfair : s.Fair) (hinv : s.Inv) (hroom : s.HasRoom op)
    (hattended : s.Attended op) (hexec : s.exec op = some s') : s'.Fair := by
  cases exec_step hexec with
  | lock side timed hphase =>
    refine hfair.waitLoop hinv hphase ?_ ?_
    · rintro rfl
      cases timed <;> exact ⟨hroom.1, hattended⟩
    · cases side <;> cases timed <;> first | exact hroom.2 | exact hroom
  | tryLock side hphase =>
    refine hfair.tryLock hinv hphase ?_
    rintro rfl
    exact hroom
  | unlock hat => exact hfair.pthreadRwlockUnlock hinv hat.2 hattended
  | semTake hphase => exact (hfair.semTake hphase hattended).returned _
  | @semLeave t side _ stage _ _ hphase hwaits hstage =>
    have hat : s.stage side t = some stage := by rw [stage_of_phase hphase, if_pos rfl]
    refine (hfair.semLeave hphase hstage ?_ ?_).returned _
    · rcases hwaits with rfl | ⟨rfl, -⟩
      · exact .inr (.inl hat)
      · exact .inl hat
    · unfold Pending
      rcases hwaits with rfl | ⟨rfl, hvalue⟩
      · simp [hat]
      · simp [hat, hvalue]
  | @waitEnd _ side _ _ hphase hover =>
    rcases hover with rfl | ⟨result, rfl⟩
    · cases side with
      | reader =>
        refine hfair.waitEndReader hinv hphase (hroom ⟨_, hphase⟩) (hattended.1 ?_)
        rw [stage_of_phase hphase, if_pos rfl]
      | writer => exact hfair.waitEndWriter hinv hphase
    · refine hfair.waitEndFailed hinv hphase fun hside => hattended.2 result ?_
      rw [stage_of_phase hphase, if_pos hside]

theorem Initial.fair (hinit : s.Initial) : s.Fair := by
  have hnone : ∀ side t, s.stage side t = none := fun side t => stage_of_outside (hinit.phase t) side
  have hnobody : ∀ side t, ¬ s.Waiting side t := by
    intro side t hwaiting
    obtain ⟨stage, hsome, -⟩ := waiting_iff_stage.mp hwaiting
    cases hsome.symm.trans (hnone side t)
  refine ⟨⟨fun side t => ?_, fun side => ?_, fun side _ => ?_, fun side => ?_⟩, fun _ hsome => ?_,
    fun _ _ t hwaiting => absurd hwaiting (hnobody _ t), fun hsome => ?_⟩
  · rw [hinit.cond, hnone]
    simp
  · rw [hinit.cond]
    exact List.nodup_nil
  · rw [hinit.cond]
  · rw [hinit.cond]
    decide
  · obtain ⟨t, hwaiting⟩ := hsome
    exact absurd hwaiting (hnobody _ t)
  · obtain ⟨t, hwaiting⟩ := hsome
    exact absurd hwaiting (hnobody _ t)

theorem Fair.awake (hfair : s.Fair) (hinv : s.Inv) : s.Awake := by
  have hreaders (hnobody : s.held .writer = []) : 0 ≤ s.rwRefcount := by
    rcases hinv.exclusion with ⟨t, hone, -⟩ | ⟨-, hcount⟩
    · cases hnobody.symm.trans hone
    · omega
  refine ⟨fun hzero ⟨side, t, hwaiting⟩ => ?_, fun hnobody => hfair.readers (hreaders hnobody)⟩
  have hwriters : (∃ u, s.Waiting .writer u) →
      ∃ side t, s.Waiting side t ∧ s.mustWait side = false ∧ s.Pending side t := by
    intro hsome
    obtain ⟨u, hu, hpending⟩ := hfair.writer hzero hsome
    exact ⟨.writer, u, hu, by simp [mustWait, hzero], hpending⟩
  cases side with
  | writer => exact hwriters ⟨t, hwaiting⟩
  | reader =>
    rcases (nwait_nonneg hinv .writer).eq_or_lt with hnone | hpos
    · exact ⟨.reader, t, hwaiting, mustWait_reader.mpr ⟨hzero.ge, hnone.ge⟩,
        hfair.readers hzero.ge hnone.symm t hwaiting⟩
    · exact hwriters (hfair.justified ⟨t, hwaiting⟩ hzero hpos)

def Careful (s : RwLock) (op : RwOp) : Prop := s.HasRoom op ∧ s.Attended op

/-- No waiter is stranded while every step is attended to. -/
theorem reachable_awake (hreach : rwMachine.Reachable Careful s) : s.Awake := by
  have hfair : s.Fair ∧ s.Inv := by
    apply hreach.invariant (fun s => s.Fair ∧ s.Inv)
    · intro s hinit
      exact ⟨hinit.fair, hinit.inv⟩
    · intro s op s' ⟨hfair, hinv⟩ ⟨hroom, hattended⟩ hexec
      exact ⟨hfair.exec hinv hroom hattended hexec, hinv.exec hroom hexec⟩
  exact hfair.1.awake hfair.2

theorem reachable_awake_broadcast :
    ∃ s, rwMachine.Reachable Careful s ∧ s.stage .reader 2 = some .granted ∧ s.Awake := by
  have hwriter : rwMachine.Reachable Careful _ :=
    (Machine.Reachable.start rwStart_initial).step
      (show Careful _ (.wrlock 1) from ⟨by decide, trivial⟩) rfl
  have hreader : rwMachine.Reachable Careful _ :=
    hwriter.step (show Careful _ (.rdlock 2) from
      ⟨by decide, fun hzero => absurd hzero (by decide)⟩) rfl
  have hblocked : rwMachine.Reachable Careful _ :=
    hreader.step (show Careful _ (.semTake 2) from
      ⟨trivial, fun _ h => absurd h (by decide)⟩) rfl
  have hwoken : rwMachine.Reachable Careful _ :=
    hblocked.step (show Careful _ (.unlock 1) from
      ⟨trivial, fun _ hpos => absurd hpos (by decide)⟩) rfl
  exact ⟨_, hwoken, by decide, reachable_awake hwoken⟩

/-- The writer 2 has given up when the signal comes that was to wake it, and the reader 3 waits for
a lock that nobody holds. -/
def strandedRun : List RwOp :=
  [.rdlock 1, .timedwrlock 2, .semTake 2, .timeout 2, .rdlock 3, .semTake 3, .unlock 1, .waitEnd 2]

theorem stranded_not_awake :
    ∃ s, rwMachine.Reachable (fun _ _ => True) s ∧ s.rwRefcount = 0 ∧
      s.stage .reader 3 = some .blocked ∧ ¬ s.Awake := by
  have hrun : (rwMachine.run (fun _ _ => True) rwStart strandedRun).map
      (fun s => (s.rwRefcount, s.held .writer, s.nwait .writer, s.stage .reader 3)) =
        some (0, [], 0, some .blocked) := by
    decide +kernel
  obtain ⟨s, hreach, hend⟩ := Machine.exists_reachable_of_run rwStart_initial hrun
  obtain ⟨hzero, hend⟩ := Prod.mk.inj hend
  obtain ⟨hnobody, hend⟩ := Prod.mk.inj hend
  obtain ⟨hnone, hblocked⟩ := Prod.mk.inj hend
  refine ⟨s, hreach, hzero, hblocked, fun hawake => ?_⟩
  have hpending := hawake.readers hnobody hnone 3 (.inr (.inl hblocked))
  simp [Pending, hblocked] at hpending

end RwLock

end RtThread.Pthreads
