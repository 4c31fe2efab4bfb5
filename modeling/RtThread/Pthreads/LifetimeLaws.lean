import RtThread.Pthreads.Lifetime

namespace RtThread.Pthreads

open Function RtThread.Lib Lifetime

namespace Lifetime

/-- The thread is through with everything: it has stopped, nothing is left for the idle thread, and
it was joined or is detached. -/
def Settled (s : Lifetime) : Prop :=
  s.thread = .stopped ∧ s.defunct = false ∧ s.idle = .outside ∧
    (s.call = .returned 0 ∨ s.attr.detached = true)

structure Law (s : Lifetime) : Prop where
  /-- Nothing is used or released that is not allocated. -/
  stray : s.stray = []
  once : (s.released.map Prod.fst).Nodup
  isOver : ∀ release ∈ s.released, release.2 = true
  /-- Nothing is left in the end. -/
  settled : s.Settled → ∀ r, s.allocated r = false
  failed : ∀ result, s.created = some result → result ≠ 0 → ∀ r, s.allocated r = false
  /-- `pthread_join` returns behind the end of the thread, with its value. -/
  joined : s.joining = true → s.call = .returned 0 →
    s.closed = true ∧ ∃ value, s.given = some value ∧ s.valuePtr = some value

def Proper (s : Lifetime) : LifeOp → Prop
  -- no lack of memory for the semaphore
  | .create attr memory =>
    memory .data = true → (attr.stackBase = true ∨ memory .stack = true) → memory .tcb = true →
      attr.detached = true ∨ memory .sem = true
  -- the thread returns from its entry
  | .exit _ => False
  -- only a thread that the idle thread is through with is detached
  | .detach => s.detached = true ∨ s.cleanup = false ∧ s.thread = .stopped
  -- a thread that is joined does not run any more
  | .call => s.call = .taken → s.thread = .stopped
  -- a detached thread does not end
  | .idle => s.detached = false
  | _ => True

end Lifetime

def CallPc.gone : CallPc → Resource → Bool
  | .detaching _, .sem => true
  | .freeingStack, .sem => true
  | .freeingTcb, .sem | .freeingTcb, .stack => true
  | .freeingData, .sem | .freeingData, .stack | .freeingData, .tcb => true
  | .returned result, _ => result = 0
  | _, _ => false

def CallPc.through (call : CallPc) : Bool := call = .taken || call.closing

def CallPc.detachedObject : CallPc → Bool
  | .detaching .insertDefunct | .freeingStack | .freeingTcb | .freeingData => true
  | .returned result => result = 0
  | _ => false

namespace Lifetime

def owned (s : Lifetime) : Resource → Bool
  | .data | .tcb => true
  | .stack => !s.attr.stackBase
  | .sem => !s.attr.detached

/-- A thread that was started and does not end in `pthread_exit`. -/
structure Started (s : Lifetime) : Prop where
  created : s.created = some 0
  idle : s.idle = .outside
  detached : s.detached = s.attr.detached
  joinableSem : s.joinableSem = !s.attr.detached
  allocated : ∀ r, s.allocated r = (s.owned r && !s.call.gone r)
  once : (s.released.map Prod.fst).Nodup
  isOver : ∀ release ∈ s.released,
    release.2 = true ∧ s.owned release.1 = true ∧ s.call.gone release.1 = true
  pc : s.thread = .entry ∨ s.thread = .returned ∨ s.thread = .scheduling ∨ s.thread = .stopped
  closed : s.closed = true ↔ s.thread = .scheduling ∨ s.thread = .stopped
  defunct : s.defunct = (s.closed && s.cleanup)
  reaped : s.cleanup = false → s.closed = true ∧ s.attr.detached = false
  woken : 0 < s.value ∨ s.call.through = true → s.cleanup = false
  over_stopped : s.call.closing = true → s.thread = .stopped
  systemObject : s.systemObject = !s.call.detachedObject
  opening : s.call ≠ .opening
  outside : s.call = .outside → s.joining = false
  given : s.thread ≠ .entry → s.given = some s.returnValue
  valuePtr : s.joining = true → s.call.closing = true → s.valuePtr = some s.returnValue
  stackAddr : s.attr.stackBase = false → s.stackAddr = true
  stray : s.stray = []

structure Absent (s : Lifetime) : Prop where
  created : s.created ≠ some 0
  allocated : ∀ r, s.allocated r = false
  closed : s.closed = false
  defunct : s.defunct = false
  thread : s.thread = .unborn
  call : s.call = .outside
  joining : s.joining = false
  idle : s.idle = .outside
  once : (s.released.map Prod.fst).Nodup
  isOver : ∀ release ∈ s.released, release.2 = true
  fresh : s.created = none → s.released = [] ∧ s.given = none
  stray : s.stray = []

variable {s s' : Lifetime}

theorem Initial.absent (h : s.Initial) : s.Absent where
  created := by
    rw [h.created]
    exact nofun
  allocated := h.allocated
  closed := h.closed
  defunct := h.defunct
  thread := h.thread
  call := h.call
  joining := h.joining
  idle := h.idle
  once := by
    rw [h.released]
    exact List.nodup_nil
  isOver := by
    rw [h.released]
    exact fun _ hmem => nomatch hmem
  fresh _ := ⟨h.released, h.given⟩
  stray := h.stray

theorem Absent.law (h : s.Absent) : s.Law where
  stray := h.stray
  once := h.once
  isOver := h.isOver
  settled _ := h.allocated
  failed _ _ _ := h.allocated
  joined hjoining := by
    rw [h.joining] at hjoining
    cases hjoining

theorem Started.law (h : s.Started) : s.Law where
  stray := h.stray
  once := h.once
  isOver release hmem := (h.isOver release hmem).1
  settled hsettled r := by
    obtain ⟨hstopped, hdefunct, -, hcall⟩ := hsettled
    rcases hcall with hcall | hdetached
    · rw [h.allocated, hcall]
      show (s.owned r && !decide ((0 : Int) = 0)) = false
      rw [decide_eq_true rfl, Bool.not_true, Bool.and_false]
    · -- a detached thread stays with the idle thread
      have hclosed := h.closed.mpr (.inr hstopped)
      have hdefunct' := h.defunct
      rw [hdefunct, hclosed, Bool.true_and] at hdefunct'
      have hjoinable := (h.reaped hdefunct'.symm).2
      rw [hdetached] at hjoinable
      cases hjoinable
  failed result hresult hne := by
    rw [h.created] at hresult
    exact absurd (Option.some.inj hresult).symm hne
  joined hjoining hcall := by
    have hclosing : s.call.closing = true := by
      rw [hcall]
      rfl
    have hstopped := h.over_stopped hclosing
    refine ⟨h.closed.mpr (.inr hstopped), s.returnValue, h.given ?_, h.valuePtr hjoining hclosing⟩
    rw [hstopped]
    exact nofun

section Memory

variable {resources : List Resource} {next : Lifetime → Option Lifetime} {r r' : Resource}

theorem use_of_allocated (halloc : ∀ r ∈ resources, s.allocated r = true) :
    s.use resources next = next s := by
  unfold use
  have hnone : resources.find? (fun r => !s.allocated r) = none := by
    rw [List.find?_eq_none]
    intro r hmem
    rw [halloc r hmem]
    decide
  rw [hnone]

theorem release_of_allocated (halloc : s.allocated r = true) :
    s.release r =
      { s with
        allocated := update s.allocated r false
        released := (r, s.isOver) :: s.released } :=
  if_pos halloc

end Memory

section Create

variable {attr : PthreadAttr} {memory : Resource → Bool}

def failed (attr : PthreadAttr) (released : List Resource) (s : Lifetime) : Lifetime :=
  { s with
    attr := attr
    created := some enomem
    released := released.map (·, true) ++ s.released }

theorem pthreadCreate_failed (hfree : ∀ r, s.allocated r = false) (hthread : s.thread = .unborn)
    (hfail : memory .data = false ∨ attr.stackBase = false ∧ memory .stack = false ∨
      memory .tcb = false) :
    ∃ released : List Resource, released.Nodup ∧
      s.pthreadCreate attr memory = s.failed attr released := by
  have hall : s.allocated = fun _ => false := funext hfree
  obtain ⟨stackBase, detached⟩ := attr
  cases hdata : memory .data with
  | false =>
    refine ⟨[], List.nodup_nil, ?_⟩
    simp [pthreadCreate, failed, hdata]
  | true =>
    cases stackBase with
    | false =>
      cases hstack : memory .stack with
      | false =>
        refine ⟨[.data], by decide, ?_⟩
        simp [pthreadCreate, failed, hdata, hstack, allocate, release, isOver, hthread, hall]
      | true =>
        have htcb : memory .tcb = false := by simpa [hdata, hstack] using hfail
        refine ⟨[.data, .stack], by decide, ?_⟩
        simp [pthreadCreate, failed, hdata, hstack, htcb, allocate, release, isOver, hthread, hall]
        funext r
        cases r <;> rfl
    | true =>
      have htcb : memory .tcb = false := by simpa [hdata] using hfail
      refine ⟨[.data], by decide, ?_⟩
      simp [pthreadCreate, failed, hdata, htcb, allocate, release, isOver, hthread, hall]

theorem pthreadCreate_started (hfree : ∀ r, s.allocated r = false) (hdata : memory .data = true)
    (hstack : attr.stackBase = true ∨ memory .stack = true) (htcb : memory .tcb = true)
    (hsem : attr.detached = true ∨ memory .sem = true) :
    s.pthreadCreate attr memory =
      { s with
        attr := attr
        created := some 0
        allocated := owned { s with attr := attr }
        detached := attr.detached
        joinableSem := !attr.detached
        closed := false
        systemObject := true
        cleanup := true
        stackAddr := true
        value := 0
        thread := .entry } := by
  have howned : owned { s with attr := attr } = fun
      | .data | .tcb => true
      | .stack => !attr.stackBase
      | .sem => !attr.detached := by
    funext r
    cases r <;> rfl
  obtain ⟨stackBase, detached⟩ := attr
  cases stackBase <;> cases detached <;> simp_all [pthreadCreate, allocate] <;> funext r <;>
    cases r <;> simp [hfree]

theorem Absent.create (h : s.Absent) (hnone : s.created = none)
    (hproper : s.Proper (.create attr memory)) :
    (s.pthreadCreate attr memory).Absent ∨ (s.pthreadCreate attr memory).Started := by
  have hreleased := (h.fresh hnone).1
  by_cases hfail : memory .data = false ∨ attr.stackBase = false ∧ memory .stack = false ∨
      memory .tcb = false
  · left
    obtain ⟨released, hnodup, heq⟩ := pthreadCreate_failed h.allocated h.thread hfail
    rw [heq]
    refine ⟨nofun, h.allocated, h.closed, h.defunct, h.thread, h.call, h.joining, h.idle, ?_, ?_,
      nofun, h.stray⟩
    · show ((released.map (·, true) ++ s.released).map Prod.fst).Nodup
      rw [hreleased, List.append_nil, List.map_map]
      exact (List.map_id released).symm ▸ hnodup
    · intro release hmem
      have hmem' : release ∈ released.map (·, true) ++ s.released := hmem
      rw [hreleased, List.append_nil, List.mem_map] at hmem'
      obtain ⟨r, -, rfl⟩ := hmem'
      rfl
  · right
    simp only [not_or, not_and, Bool.not_eq_false] at hfail
    obtain ⟨hdata, hstack, htcb⟩ := hfail
    have hstack : attr.stackBase = true ∨ memory .stack = true := by
      cases hbase : attr.stackBase with
      | false => exact .inr (hstack hbase)
      | true => exact .inl rfl
    rw [pthreadCreate_started h.allocated hdata hstack htcb (hproper hdata hstack htcb)]
    have hgone (r : Resource) : s.call.gone r = false := by
      rw [h.call]
      rfl
    refine
      { created := rfl
        idle := h.idle
        detached := rfl
        joinableSem := rfl
        allocated := fun r => ?_
        once := h.once
        isOver := fun release hmem => ?_
        pc := .inl rfl
        closed := ⟨nofun, fun hpc => hpc.elim nofun nofun⟩
        defunct := h.defunct
        reaped := nofun
        woken := fun hwoken => ?_
        over_stopped := fun hclosing => ?_
        systemObject := ?_
        opening := ?_
        outside := fun _ => h.joining
        given := fun hne => absurd rfl hne
        valuePtr := fun hjoining => ?_
        stackAddr := fun _ => rfl
        stray := h.stray }
    · show owned { s with attr := attr } r = (owned _ r && !s.call.gone r)
      rw [hgone, Bool.not_false, Bool.and_true]
      cases r <;> rfl
    · have hmem' : release ∈ s.released := hmem
      rw [hreleased] at hmem'
      cases hmem'
    · have hwoken' : 0 < 0 ∨ s.call.through = true := hwoken
      rw [h.call] at hwoken'
      rcases hwoken' with hlt | hthrough
      · exact absurd hlt (Nat.lt_irrefl 0)
      · cases hthrough
    · have hclosing' : s.call.closing = true := hclosing
      rw [h.call] at hclosing'
      cases hclosing'
    · show true = !s.call.detachedObject
      rw [h.call]
      rfl
    · show s.call ≠ .opening
      rw [h.call]
      exact nofun
    · have hjoining' : s.joining = true := hjoining
      rw [h.joining] at hjoining'
      cases hjoining'

end Create

theorem gone_closing {call : CallPc} {r : Resource} (hgone : call.gone r = true) :
    call.closing = true := by
  cases call <;> cases r <;> first | rfl | exact hgone

section

variable (h : s.Started)
include h

theorem Started.whole (hclosing : s.call.closing = false) (r : Resource) :
    s.allocated r = s.owned r := by
  rw [h.allocated]
  cases hgone : s.call.gone r with
  | false => rw [Bool.not_false, Bool.and_true]
  | true =>
    rw [gone_closing hgone] at hclosing
    cases hclosing

theorem Started.ground (hclosing : s.call.closing = false) (r : Resource)
    (hmem : r ∈ s.ground) : s.allocated r = true := by
  rw [h.whole hclosing]
  unfold Lifetime.ground at hmem
  split at hmem
  · rw [List.mem_singleton.mp hmem]
    rfl
  next hbase =>
    rcases List.mem_cons.mp hmem with rfl | hmem
    · rfl
    · rw [List.mem_singleton.mp hmem]
      simpa [owned] using hbase

theorem Started.running (hpc : s.thread ≠ .stopped) : s.call.closing = false := by
  cases hclosing : s.call.closing with
  | false => rfl
  | true => exact absurd (h.over_stopped hclosing) hpc

theorem Started.unreaped (hclosed : s.closed = false) : s.cleanup = true ∧ s.defunct = false := by
  constructor
  · cases hcleanup : s.cleanup with
    | true => rfl
    | false =>
      have hended := (h.reaped hcleanup).1
      rw [hclosed] at hended
      cases hended
  · rw [h.defunct, hclosed, Bool.false_and]

theorem Started.open_of_entry (hpc : s.thread = .entry ∨ s.thread = .returned) :
    s.closed = false ∧ s.call.closing = false := by
  constructor
  · cases hclosed : s.closed with
    | false => rfl
    | true => rcases hpc with hpc | hpc <;> have hended := h.closed.mp hclosed <;> simp [hpc] at hended
  · refine h.running fun hstopped => ?_
    rw [hstopped] at hpc
    exact hpc.elim nofun nofun

theorem Started.ret (hpc : s.thread = .entry) (value : Nat) :
    Started { s with returnValue := value, given := some value, thread := .returned } := by
  obtain ⟨hclosed, hclosing⟩ := h.open_of_entry (.inl hpc)
  refine
    { h with
      pc := .inr (.inl rfl)
      closed := ⟨fun hended => ?_, fun hpc => hpc.elim nofun nofun⟩
      over_stopped := fun hover => ?_
      given := fun _ => rfl
      valuePtr := fun _ hover => ?_ }
  · exact absurd (hclosed.symm.trans hended) nofun
  · exact absurd (hclosing.symm.trans hover) nofun
  · exact absurd (hclosing.symm.trans hover) nofun

theorem Started.exit (hpc : s.thread = .returned) : s.rtThreadExit.Started := by
  obtain ⟨hclosed, hclosing⟩ := h.open_of_entry (.inr hpc)
  obtain ⟨hcleanup, -⟩ := h.unreaped hclosed
  have heq : s.rtThreadExit = { s with defunct := true, closed := true, thread := .scheduling } := by
    simp [rtThreadExit, hcleanup]
  rw [heq]
  refine
    { h with
      pc := .inr (.inr (.inl rfl))
      closed := ⟨fun _ => .inl rfl, fun _ => rfl⟩
      defunct := ?_
      reaped := fun hreaped => ?_
      over_stopped := fun hover => ?_
      given := fun _ => h.given ?_ }
  · show true = (true && s.cleanup)
    rw [hcleanup]
    rfl
  · exact absurd (hcleanup.symm.trans hreaped) nofun
  · exact absurd (hclosing.symm.trans hover) nofun
  · rw [hpc]
    exact nofun

theorem Started.stop (hclosed : s.closed = true) : Started { s with thread := .stopped } := by
  refine
    { h with
      pc := .inr (.inr (.inr rfl))
      closed := ⟨fun _ => .inr rfl, fun _ => hclosed⟩
      over_stopped := fun _ => rfl
      given := fun _ => h.given ?_ }
  rcases h.closed.mp hclosed with hpc | hpc
  · rw [hpc]
    exact nofun
  · rw [hpc]
    exact nofun

theorem Started.reap (hdefunct : s.defunct = true) (hdetached : s.detached = false) :
    Started (semRelease { s with defunct := false, cleanup := false }) := by
  have hended := h.defunct
  rw [hdefunct, eq_comm, Bool.and_eq_true] at hended
  have hjoinable : s.attr.detached = false := h.detached ▸ hdetached
  have hreaped : Started { s with defunct := false, cleanup := false } :=
    { h with
      defunct := (Bool.and_false _).symm
      reaped := fun _ => ⟨hended.1, hjoinable⟩
      woken := fun _ => rfl }
  unfold semRelease
  split
  next hblocked =>
    have hcall : s.call = .blocked := hblocked
    have hgone (r : Resource) : s.call.gone r = false := by
      rw [hcall]
      rfl
    refine
      { hreaped with
        allocated := fun r => ?_
        isOver := fun release hmem => ?_
        woken := fun _ => rfl
        over_stopped := nofun
        systemObject := ?_
        opening := nofun
        outside := nofun
        valuePtr := nofun }
    · exact (h.allocated r).trans (by rw [hgone]; rfl)
    · have hsome := (h.isOver release hmem).2.2
      rw [hgone] at hsome
      cases hsome
    · exact h.systemObject.trans (by rw [hcall]; rfl)
  · exact { hreaped with woken := fun _ => rfl }

theorem Started.advance (call : CallPc)
    (hgone : ∀ r, s.owned r = true → call.gone r = s.call.gone r)
    (hthrough : call.through = true → s.cleanup = false)
    (hclosing : call.closing = true → s.thread = .stopped)
    (hobject : call.detachedObject = s.call.detachedObject) (hopening : call ≠ .opening)
    (houtside : call ≠ .outside)
    (hvaluePtr : s.joining = true → call.closing = true → s.valuePtr = some s.returnValue) :
    Started { s with call := call } where
  created := h.created
  idle := h.idle
  detached := h.detached
  joinableSem := h.joinableSem
  allocated r := by
    show s.allocated r = (s.owned r && !call.gone r)
    rw [h.allocated]
    cases howned : s.owned r with
    | false => rfl
    | true => rw [hgone r howned]
  once := h.once
  isOver release hmem := by
    obtain ⟨hover, howned, hbefore⟩ := h.isOver release hmem
    exact ⟨hover, howned, (hgone _ howned).trans hbefore⟩
  pc := h.pc
  closed := h.closed
  defunct := h.defunct
  reaped := h.reaped
  woken hwoken := hwoken.elim (fun hpos => h.woken (.inl hpos)) hthrough
  over_stopped := hclosing
  systemObject := by
    rw [hobject]
    exact h.systemObject
  opening := hopening
  outside hcall := absurd hcall houtside
  given := h.given
  valuePtr := hvaluePtr
  stackAddr := h.stackAddr
  stray := h.stray

theorem Started.releases (hclosing : s.call.closing = true) {r : Resource}
    (howned : s.owned r = true) (hkept : s.call.gone r = false) (call : CallPc)
    (hgone : ∀ r', call.gone r' = (s.call.gone r' || r' = r)) (hnext : call.closing = true)
    (hobject : call.detachedObject = s.call.detachedObject) :
    Started { s.release r with call := call } := by
  have halloc : s.allocated r = true := by
    rw [h.allocated, howned, hkept]
    rfl
  have hstopped := h.over_stopped hclosing
  have hover : s.isOver = true := by
    unfold Lifetime.isOver
    rw [hstopped, hclosing]
    exact Bool.or_true _
  rw [release_of_allocated halloc]
  refine
    { h with
      allocated := fun r' => ?_
      once := ?_
      isOver := fun release hmem => ?_
      woken := fun _ => h.woken (.inr ?_)
      over_stopped := fun _ => hstopped
      systemObject := ?_
      opening := ?_
      outside := ?_
      valuePtr := fun hjoining _ => h.valuePtr hjoining hclosing }
  · show update s.allocated r false r' = (s.owned r' && !call.gone r')
    rw [hgone]
    by_cases heq : r' = r
    · rw [heq, update_self, decide_eq_true rfl, Bool.or_true, Bool.not_true, Bool.and_false]
    · rw [update_of_ne heq, decide_eq_false heq, Bool.or_false]
      exact h.allocated r'
  · show (r :: s.released.map Prod.fst).Nodup
    refine List.nodup_cons.mpr ⟨fun hmem => ?_, h.once⟩
    obtain ⟨release, hrelease, heq⟩ := List.mem_map.mp hmem
    have hbefore := (h.isOver release hrelease).2.2
    rw [heq, hkept] at hbefore
    cases hbefore
  · show release.2 = true ∧ s.owned release.1 = true ∧ call.gone release.1 = true
    rw [hgone]
    rcases List.mem_cons.mp hmem with rfl | hmem
    · exact ⟨hover, howned, by simp⟩
    · obtain ⟨hover', howned', hgone'⟩ := h.isOver release hmem
      exact ⟨hover', howned', by rw [hgone']; rfl⟩
  · unfold CallPc.through
    rw [hclosing]
    exact Bool.or_true _
  · show s.systemObject = !call.detachedObject
    rw [hobject]
    exact h.systemObject
  · rintro rfl
    cases hnext
  · rintro rfl
    cases hnext

theorem Started.detachStage {stage : DetachStage} (hcall : s.call = .detaching stage) :
    ∃ next, s.rtThreadDetach stage = some next ∧
      Started { next.1 with
        call :=
          match next.2 with
          | some stage => .detaching stage
          | none => .freeingStack } := by
  have hclosing : s.call.closing = true := by
    rw [hcall]
    rfl
  have hstopped := h.over_stopped hclosing
  have hcleanup : s.cleanup = false := h.woken (.inr (by
    unfold CallPc.through
    rw [hclosing]
    exact Bool.or_true _))
  have hdefunct : s.defunct = false := by
    rw [h.defunct, hcleanup, Bool.and_false]
  have hended : s.closed = true := h.closed.mpr (.inr hstopped)
  have hobject := h.systemObject
  rw [hcall] at hobject
  have hstage (stage' : DetachStage) (r : Resource) :
      (CallPc.detaching stage').gone r = s.call.gone r := by
    rw [hcall]
    cases r <;> rfl
  have hvaluePtr (hjoining : s.joining = true) := h.valuePtr hjoining hclosing
  cases stage with
  | removeThread =>
    have hunlinked : Started { s with defunct := false } :=
      { h with defunct := hdefunct ▸ h.defunct }
    refine ⟨_, if_pos hobject, hunlinked.advance (.detaching .timerDetach)
      (fun r _ => hstage _ r) (fun _ => hcleanup) (fun _ => hstopped) ?_ nofun nofun
      fun hjoining _ => hvaluePtr hjoining⟩
    show _ = s.call.detachedObject
    rw [hcall]
    rfl
  | timerDetach =>
    have hclosed : Started { s with closed := true } :=
      { h with
        closed := hended ▸ h.closed
        defunct := hended ▸ h.defunct
        reaped := hended ▸ h.reaped }
    refine ⟨_, rfl, hclosed.advance (.detaching .objectDetach) (fun r _ => hstage _ r)
      (fun _ => hcleanup) (fun _ => hstopped) ?_ nofun nofun
      fun hjoining _ => hvaluePtr hjoining⟩
    show _ = s.call.detachedObject
    rw [hcall]
    rfl
  | objectDetach =>
    refine ⟨_, rfl, ?_⟩
    refine
      { h with
        allocated := fun r => (h.allocated r).trans (by rw [← hstage .insertDefunct r]; rfl)
        isOver := fun release hmem => ?_
        woken := fun _ => hcleanup
        over_stopped := fun _ => hstopped
        systemObject := rfl
        opening := nofun
        outside := nofun
        valuePtr := fun hjoining _ => hvaluePtr hjoining }
    obtain ⟨hover, howned, hgone⟩ := h.isOver release hmem
    exact ⟨hover, howned, (hstage _ _).trans hgone⟩
  | insertDefunct =>
    have hkeep : s.rtThreadDetach .insertDefunct = some (s, none) := if_neg (by simp [hcleanup])
    refine ⟨_, hkeep, h.advance .freeingStack (fun r _ => ?_) (fun _ => hcleanup)
      (fun _ => hstopped) ?_ nofun nofun fun hjoining _ => hvaluePtr hjoining⟩
    · rw [← hstage .insertDefunct]
      cases r <;> rfl
    · rw [hcall]
      rfl

theorem Started.kept {r : Resource} (howned : s.owned r = true)
    (hkept : s.call.gone r = false) : s.allocated r = true := by
  rw [h.allocated, howned, hkept]
  rfl

end

theorem pthreadDetach_closed (htcb : s.allocated .tcb = true) (hdata : s.allocated .data = true)
    (hdetached : s.detached = false) (hclosed : s.closed = true) :
    s.pthreadDetach = some { s with call := .deletingSem } := by
  unfold pthreadDetach
  refine (use_of_allocated (by simp [htcb, hdata])).trans ?_
  exact (if_neg (by simp [hdetached])).trans (if_pos hclosed)

theorem Started.withSem (h : s.Started) (hclosing : s.call.closing = false)
    {next : Lifetime → Option Lifetime} (hexec : s.withSem next = some s') : next s = some s' := by
  have hdata : s.allocated .data = true := h.whole hclosing .data
  unfold Lifetime.withSem at hexec
  rw [use_of_allocated (by simpa using hdata)] at hexec
  split at hexec
  next hsem =>
    have halloc : s.allocated .sem = true := by
      rw [h.whole hclosing]
      exact h.joinableSem.symm.trans hsem
    rwa [use_of_allocated (by simpa using halloc)] at hexec
  · cases hexec

theorem Started.take (h : s.Started) (hcall : s.call = .taking) (hexec : s.callStep = some s') :
    s'.Started := by
  have hclosing : s.call.closing = false := by
    rw [hcall]
    rfl
  have hgone {call : CallPc} (hnone : ∀ r, call.gone r = false) (r : Resource) :
      call.gone r = s.call.gone r := by
    rw [hnone, hcall]
    rfl
  unfold callStep at hexec
  rw [hcall] at hexec
  have hnext := h.withSem hclosing hexec
  split at hnext
  next hpos =>
    obtain rfl := Option.some.inj hnext
    have hcleanup := h.woken (.inl hpos)
    have htaken := h.advance .taken (fun r _ => hgone (fun _ => rfl) r) (fun _ => hcleanup) nofun
      (by rw [hcall]; rfl) nofun nofun nofun
    exact { htaken with woken := fun _ => hcleanup }
  · obtain rfl := Option.some.inj hnext
    exact h.advance .blocked (fun r _ => hgone (fun _ => rfl) r) nofun nofun (by rw [hcall]; rfl)
      nofun nofun nofun

theorem Started.joined (h : s.Started) (hcall : s.call = .taken) (hstopped : s.thread = .stopped)
    (hexec : s.callStep = some s') : s'.Started := by
  have hclosing : s.call.closing = false := by
    rw [hcall]
    rfl
  have hcleanup : s.cleanup = false := h.woken (.inr (by rw [hcall]; rfl))
  obtain ⟨hclosed, hjoinable⟩ := h.reaped hcleanup
  have hdetached : s.detached = false := h.detached.trans hjoinable
  have hdata : s.allocated .data = true := h.whole hclosing .data
  have htcb : s.allocated .tcb = true := h.whole hclosing .tcb
  unfold callStep at hexec
  rw [hcall] at hexec
  have hnext := (use_of_allocated (by simpa using hdata)).symm.trans hexec
  have hclose := pthreadDetach_closed (s := { s with valuePtr := some s.returnValue }) htcb hdata
    hdetached hclosed
  obtain rfl := Option.some.inj (hclose.symm.trans hnext)
  have hread : Started { s with valuePtr := some s.returnValue } :=
    { h with valuePtr := fun _ _ => rfl }
  refine hread.advance .deletingSem (fun r _ => ?_) (fun _ => hcleanup) (fun _ => hstopped) ?_ nofun
    nofun fun _ _ => rfl
  · show _ = s.call.gone r
    rw [hcall]
    rfl
  · show _ = s.call.detachedObject
    rw [hcall]
    rfl

theorem Started.close (h : s.Started) (hclosing : s.call.closing = true)
    (hexec : s.callStep = some s') : s'.Started := by
  have hstopped := h.over_stopped hclosing
  have hcleanup : s.cleanup = false := h.woken (.inr (by
    unfold CallPc.through
    rw [hclosing]
    exact Bool.or_true _))
  have hjoinable := (h.reaped hcleanup).2
  unfold callStep at hexec
  cases hcall : s.call with
  | deletingSem =>
    have hdata : s.allocated .data = true := h.kept rfl (by rw [hcall]; rfl)
    rw [hcall] at hexec
    have hnext := (use_of_allocated (by simpa using hdata)).symm.trans hexec
    have hsem : s.joinableSem = true := by
      rw [h.joinableSem, hjoinable]
      rfl
    rw [if_pos hsem] at hnext
    obtain rfl := Option.some.inj hnext
    have howned : s.owned .sem = true := by
      unfold owned
      rw [hjoinable]
      rfl
    refine h.releases hclosing howned (by rw [hcall]; rfl) _ (fun r => ?_) rfl (by rw [hcall]; rfl)
    rw [hcall]
    cases r <;> rfl
  | detaching stage =>
    have hdata : s.allocated .data = true := h.kept rfl (by rw [hcall]; rfl)
    have htcb : s.allocated .tcb = true := h.kept rfl (by rw [hcall]; rfl)
    rw [hcall] at hexec
    have hnext := (use_of_allocated (by simp [htcb, hdata])).symm.trans hexec
    obtain ⟨next, hstage, hstarted⟩ := h.detachStage hcall
    rw [hstage] at hnext
    obtain rfl := Option.some.inj hnext
    exact hstarted
  | freeingStack =>
    have hdata : s.allocated .data = true := h.kept rfl (by rw [hcall]; rfl)
    have htcb : s.allocated .tcb = true := h.kept rfl (by rw [hcall]; rfl)
    rw [hcall] at hexec
    have hnext := (use_of_allocated (by simp [htcb, hdata])).symm.trans hexec
    cases hbase : s.attr.stackBase with
    | true =>
      rw [if_pos hbase] at hnext
      obtain rfl := Option.some.inj hnext
      have hcleared : Started { s with stackAddr := false } :=
        { h with stackAddr := fun hown => absurd (hbase.symm.trans hown) nofun }
      refine hcleared.advance .freeingTcb (fun r howned => ?_) (fun _ => hcleanup)
        (fun _ => hstopped) ?_ nofun nofun fun hjoining _ => h.valuePtr hjoining hclosing
      · have hother : r ≠ .stack := by
          rintro rfl
          have hown : (!s.attr.stackBase) = true := howned
          rw [hbase] at hown
          cases hown
        show _ = s.call.gone r
        rw [hcall]
        cases r <;> first | rfl | exact absurd rfl hother
      · show _ = s.call.detachedObject
        rw [hcall]
        rfl
    | false =>
      have howned : s.owned .stack = true := by
        unfold owned
        rw [hbase]
        rfl
      rw [if_neg (by simp [hbase]), if_pos (h.stackAddr hbase)] at hnext
      obtain rfl := Option.some.inj hnext
      refine h.releases hclosing howned (by rw [hcall]; rfl) _ (fun r => ?_) rfl
        (by rw [hcall]; rfl)
      rw [hcall]
      cases r <;> rfl
  | freeingTcb =>
    have hdata : s.allocated .data = true := h.kept rfl (by rw [hcall]; rfl)
    rw [hcall] at hexec
    have hnext := (use_of_allocated (by simpa using hdata)).symm.trans hexec
    obtain rfl := Option.some.inj hnext
    refine h.releases (r := .tcb) hclosing rfl (by rw [hcall]; rfl) _ (fun r => ?_) rfl
      (by rw [hcall]; rfl)
    rw [hcall]
    cases r <;> rfl
  | freeingData =>
    rw [hcall] at hexec
    obtain rfl := Option.some.inj hexec
    unfold callReturn
    rw [ite_self]
    refine h.releases (r := .data) hclosing rfl (by rw [hcall]; rfl) _ (fun r => ?_) rfl
      (by rw [hcall]; rfl)
    rw [hcall]
    cases r <;> rfl
  | outside | taking | blocked | taken | opening | returned result =>
    rw [hcall] at hclosing hexec
    first | cases hclosing | cases hexec

theorem idle_eq (h : s.Started) (hdefunct : s.defunct = true) (hdetached : s.detached = false) :
    s.rtThreadIdleExcute =
      some { semRelease { s with defunct := false, cleanup := false } with idle := .outside } := by
  have hended := h.defunct
  rw [hdefunct, eq_comm, Bool.and_eq_true] at hended
  have hclosing : s.call.closing = false := by
    cases hclosing : s.call.closing with
    | false => rfl
    | true =>
      have hreaped := h.woken (.inr (by unfold CallPc.through; rw [hclosing]; exact Bool.or_true _))
      rw [hended.2] at hreaped
      cases hreaped
  have htcb : s.allocated .tcb = true := h.whole hclosing .tcb
  have hdata : s.allocated .data = true := h.whole hclosing .data
  have hsem : s.joinableSem = true := by
    rw [h.joinableSem, ← h.detached, hdetached]
    rfl
  have halloc : s.allocated .sem = true := by
    rw [h.whole hclosing]
    exact h.joinableSem.symm.trans hsem
  have hobject : s.systemObject = true := by
    rw [h.systemObject]
    cases hcall : s.call <;> first | rfl | rw [hcall] at hclosing
    all_goals first | cases hclosing | exact congrArg Bool.not hclosing
  have hcleanup : pthreadCleanup { s with defunct := false } =
      some (semRelease { s with defunct := false, cleanup := false }) := by
    refine (use_of_allocated (by simp [htcb, hdata])).trans ((if_neg (by simp [hdetached])).trans ?_)
    refine (use_of_allocated (by simp [hdata])).trans ((if_pos hsem).trans ?_)
    exact use_of_allocated (by simp [halloc])
  have hkept : (semRelease { s with defunct := false, cleanup := false }).systemObject = true := by
    unfold semRelease
    split <;> exact hobject
  unfold rtThreadIdleExcute
  conv_lhs => rw [h.idle]
  refine (if_pos hdefunct).trans ((use_of_allocated (by simp [htcb])).trans ?_)
  show (if s.cleanup then pthreadCleanup { s with defunct := false } else _).map _ = _
  rw [if_pos hended.2, hcleanup, Option.map_some]
  rw [if_pos hkept]

theorem Started.join (h : s.Started) (hcall : s.call = .outside) (hexec : s.pthreadJoin = some s') :
    s'.Started := by
  have hclosing : s.call.closing = false := by
    rw [hcall]
    rfl
  have hgone (r : Resource) : s.call.gone r = false := by
    rw [hcall]
    rfl
  have hobject : s.call.detachedObject = false := by
    rw [hcall]
    rfl
  have htcb : s.allocated .tcb = true := h.whole hclosing .tcb
  have hdata : s.allocated .data = true := h.whole hclosing .data
  have hnext := (use_of_allocated (by simp [htcb, hdata])).symm.trans hexec
  split at hnext
  · obtain rfl := Option.some.inj hnext
    exact h.advance (.returned einval) (fun r _ => (hgone r).symm) nofun nofun hobject.symm nofun
      nofun nofun
  · obtain rfl := Option.some.inj hnext
    have htaking := h.advance .taking (fun r _ => (hgone r).symm) nofun nofun hobject.symm nofun
      nofun nofun
    exact { htaking with outside := nofun, valuePtr := nofun }

theorem Started.detach (h : s.Started) (hcall : s.call = .outside)
    (hproper : s.detached = true ∨ s.cleanup = false ∧ s.thread = .stopped)
    (hexec : s.pthreadDetach = some s') : s'.Started := by
  have hclosing : s.call.closing = false := by
    rw [hcall]
    rfl
  have hgone (r : Resource) : s.call.gone r = false := by
    rw [hcall]
    rfl
  have hobject : s.call.detachedObject = false := by
    rw [hcall]
    rfl
  have htcb : s.allocated .tcb = true := h.whole hclosing .tcb
  have hdata : s.allocated .data = true := h.whole hclosing .data
  cases hdetached : s.detached with
  | true =>
    have hnext := (use_of_allocated (by simp [htcb, hdata])).symm.trans hexec
    rw [if_pos hdetached] at hnext
    obtain rfl := Option.some.inj hnext
    have hjoining : s.joining = false := h.outside hcall
    unfold callReturn
    rw [if_neg (by simp [hjoining])]
    exact h.advance (.returned einval) (fun r _ => (hgone r).symm) nofun nofun hobject.symm nofun
      nofun nofun
  | false =>
    obtain ⟨hcleanup, hstopped⟩ := hproper.resolve_left (by simp [hdetached])
    have hclosed := (h.reaped hcleanup).1
    rw [pthreadDetach_closed htcb hdata hdetached hclosed] at hexec
    obtain rfl := Option.some.inj hexec
    refine h.advance .deletingSem (fun r _ => (hgone r).symm) (fun _ => hcleanup)
      (fun _ => hstopped) hobject.symm nofun nofun fun hjoining => ?_
    rw [h.outside hcall] at hjoining
    cases hjoining

theorem Started.step (h : s.Started) {op : LifeOp} (hproper : s.Proper op)
    (hexec : s.exec op = some s') : s'.Started := by
  cases op with
  | create attr memory =>
    simp only [exec] at hexec
    rw [h.created] at hexec
    cases hexec
  | ret value =>
    simp only [exec] at hexec
    split at hexec
    next hpc =>
      obtain ⟨-, hclosing⟩ := h.open_of_entry (.inl hpc)
      have hdata : s.allocated .data = true := h.whole hclosing .data
      have halloc : ∀ r ∈ Resource.data :: s.ground, s.allocated r = true := by
        intro r hmem
        rcases List.mem_cons.mp hmem with rfl | hmem
        · exact hdata
        · exact h.ground hclosing r hmem
      rw [use_of_allocated halloc] at hexec
      obtain rfl := Option.some.inj hexec
      exact h.ret hpc value
    · cases hexec
  | exit value => exact absurd hproper id
  | thread =>
    simp only [exec, threadStep] at hexec
    rcases h.pc with hpc | hpc | hpc | hpc
    · rw [hpc] at hexec
      cases hexec
    · rw [hpc] at hexec
      obtain ⟨-, hclosing⟩ := h.open_of_entry (.inr hpc)
      have hnext := (use_of_allocated (h.ground hclosing)).symm.trans hexec
      obtain rfl := Option.some.inj hnext
      exact h.exit hpc
    · rw [hpc] at hexec
      cases hexec
    · rw [hpc] at hexec
      cases hexec
  | switchOut =>
    simp only [exec, switchOut] at hexec
    split at hexec
    next hpc =>
      have hnext := (use_of_allocated (h.ground (h.running hpc.2))).symm.trans hexec
      obtain rfl := Option.some.inj hnext
      exact h.stop hpc.1
    · cases hexec
  | join =>
    simp only [exec] at hexec
    split at hexec
    next hcall => exact h.join hcall.2 hexec
    · cases hexec
  | detach =>
    simp only [exec] at hexec
    split at hexec
    next hcall => exact h.detach hcall.2 hproper hexec
    · cases hexec
  | call =>
    have hstep : s.callStep = some s' := hexec
    cases hclosing : s.call.closing with
    | true => exact h.close hclosing hstep
    | false =>
      cases hcall : s.call with
      | taking => exact h.take hcall hstep
      | taken => exact h.joined hcall (hproper hcall) hstep
      | opening => exact absurd hcall h.opening
      | outside | blocked | returned result =>
        unfold callStep at hstep
        rw [hcall] at hstep
        cases hstep
      | deletingSem | detaching stage | freeingStack | freeingTcb | freeingData =>
        rw [hcall] at hclosing
        cases hclosing
  | idle =>
    have hstep : s.rtThreadIdleExcute = some s' := hexec
    cases hdefunct : s.defunct with
    | true =>
      rw [idle_eq h hdefunct hproper] at hstep
      obtain rfl := Option.some.inj hstep
      exact { h.reap hdefunct hproper with idle := rfl }
    | false =>
      unfold rtThreadIdleExcute at hstep
      rw [h.idle, hdefunct] at hstep
      cases hstep

theorem Absent.step (h : s.Absent) {op : LifeOp} (hproper : s.Proper op)
    (hexec : s.exec op = some s') : s'.Absent ∨ s'.Started := by
  cases op with
  | create attr memory =>
    simp only [exec] at hexec
    split at hexec
    next hnone =>
      obtain rfl := Option.some.inj hexec
      exact h.create hnone hproper
    · cases hexec
  | ret value =>
    simp only [exec] at hexec
    rw [h.thread] at hexec
    cases hexec
  | exit value => exact absurd hproper id
  | thread =>
    simp only [exec, threadStep] at hexec
    rw [h.thread] at hexec
    cases hexec
  | switchOut =>
    simp only [exec, switchOut] at hexec
    rw [if_neg (by simp [h.closed])] at hexec
    cases hexec
  | join =>
    simp only [exec] at hexec
    rw [if_neg fun hcall => h.created hcall.1] at hexec
    cases hexec
  | detach =>
    simp only [exec] at hexec
    rw [if_neg fun hcall => h.created hcall.1] at hexec
    cases hexec
  | call =>
    simp only [exec, callStep] at hexec
    rw [h.call] at hexec
    cases hexec
  | idle =>
    simp only [exec, rtThreadIdleExcute] at hexec
    rw [h.idle, h.defunct] at hexec
    cases hexec

instance (s : Lifetime) (op : LifeOp) : Decidable (s.Proper op) :=
  match op with
  | .create .. => inferInstanceAs (Decidable (_ → _ → _ → _ ∨ _))
  | .ret _ => .isTrue trivial
  | .exit _ => .isFalse id
  | .thread | .switchOut | .join => .isTrue trivial
  | .detach => inferInstanceAs (Decidable (_ ∨ _ ∧ _))
  | .call => inferInstanceAs (Decidable (_ → _))
  | .idle => inferInstanceAs (Decidable (_ = _))

instance (s : Lifetime) : Decidable s.Settled :=
  inferInstanceAs (Decidable (_ ∧ _ ∧ _ ∧ (_ ∨ _)))

end Lifetime

/-- While the steps are proper everything is released once, in time and to the last byte, and
`pthread_join` returns with the value of the ended thread. -/
theorem reachable_lifeLaw {s : Lifetime} (hreach : lifeMachine.Reachable Proper s) : s.Law := by
  have hinv : s.Absent ∨ s.Started := by
    refine hreach.invariant (fun s => s.Absent ∨ s.Started) ?_ ?_
    · exact fun s (h : s.Initial) => .inl h.absent
    · exact fun s op s' hinv hproper hexec =>
        hinv.elim (fun h => h.step hproper hexec) fun h => .inr (h.step hproper hexec)
  exact hinv.elim Absent.law Started.law

def lifeUnborn : Lifetime where
  attr := ⟨false, false⟩
  created := none
  allocated _ := false
  detached := false
  returnValue := 0
  joinableSem := false
  closed := false
  systemObject := false
  cleanup := false
  stackAddr := false
  defunct := false
  value := 0
  thread := .unborn
  call := .outside
  joining := false
  valuePtr := none
  idle := .outside
  given := none
  released := []
  stray := []

theorem lifeUnborn_initial : lifeUnborn.Initial :=
  ⟨rfl, fun _ => rfl, rfl, rfl, rfl, rfl, rfl, rfl, rfl, rfl, rfl⟩

theorem reachable_lifeLaw_joined :
    ∃ s, lifeMachine.Reachable Proper s ∧ s.valuePtr = some 7 ∧ s.Settled ∧ s.Law := by
  have hrun : (lifeMachine.run Proper lifeUnborn
      [.create ⟨false, false⟩ fun _ => true, .join, .call, .ret 7, .thread, .switchOut, .idle, .call,
        .call, .call, .call, .call, .call, .call, .call, .call]).map
      (fun s => (s.valuePtr, decide s.Settled)) = some (some 7, true) := by
    decide +kernel
  obtain ⟨s, hreach, hvalue⟩ := Machine.exists_reachable_of_run lifeUnborn_initial hrun
  simp only [Prod.mk.injEq, decide_eq_true_eq] at hvalue
  exact ⟨s, hreach, hvalue.1, hvalue.2, reachable_lifeLaw hreach⟩

/-- A detached thread returns, and nothing of it is ever released. -/
theorem detachedThread_not_law :
    ∃ s, lifeMachine.Reachable (fun _ _ => True) s ∧ s.Settled ∧ s.released = [] ∧ ¬ s.Law := by
  have hrun : (lifeMachine.run (fun _ _ => True) lifeUnborn
      [.create ⟨false, true⟩ fun _ => true, .ret 0, .thread, .switchOut, .idle]).map
      (fun s => (decide s.Settled, s.released, s.allocated .data)) = some (true, [], true) := by
    decide +kernel
  obtain ⟨s, hreach, hvalue⟩ := Machine.exists_reachable_of_run lifeUnborn_initial hrun
  simp only [Prod.mk.injEq, decide_eq_true_eq] at hvalue
  obtain ⟨hsettled, hreleased, hdata⟩ := hvalue
  refine ⟨s, hreach, hsettled, hreleased, fun h => ?_⟩
  have hgone := h.settled hsettled .data
  rw [hdata] at hgone
  cases hgone

end RtThread.Pthreads
