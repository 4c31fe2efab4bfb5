import RtThread.Blocking.Core

namespace RtThread.Blocking

open Function RtThread.Ipc Blocking.Core

def Waker.code : Waker → Int
  | .grant => rtEok
  | .expiry => -rtEtimeout
  | .reset => -rtError

inductive WaitState (x : Core) (t : Tid) : Prop
  | outside : x.wait t = none → (x.view t).stat ≠ .suspend →
      (x.view t).timerActive = false → (∀ o side, t ∉ x.list o side) →
      (∀ o side, t ∉ x.granted o side) → WaitState x t
  | asleep (wait : Wait) : x.wait t = some wait → (x.view t).stat = .suspend →
      (x.view t).error = rtEok → (x.view t).timerActive = decide (0 < wait.timeout) →
      x.wakers t = [] →
      (∀ o side, t ∈ x.list o side ↔ o = wait.obj ∧ side = wait.request.side) →
      (∀ o side, t ∉ x.granted o side) → WaitState x t
  | woken (wait : Wait) (waker : Waker) : x.wait t = some wait →
      (x.view t).stat = .ready → (x.view t).error = waker.code →
      (x.view t).timerActive = false → x.wakers t = [waker] →
      (∀ o side, t ∉ x.list o side) →
      (∀ o side, t ∈ x.granted o side ↔
        waker = .grant ∧ o = wait.obj ∧ side = wait.request.side) → WaitState x t

structure CoreInv (x : Core) : Prop where
  nodup : ∀ o side, (x.list o side).Nodup
  grants : ∀ o side, (x.granted o side).Nodup
  state : ∀ t, WaitState x t
  kind : ∀ t wait, x.wait t = some wait → wait.request.kind = (x.object wait.obj).kind

section Cases

variable {x x' : Core} {t : Tid}

section

variable (hstate : WaitState x t)
include hstate

theorem WaitState.of_same (hwait : x'.wait t = x.wait t)
    (hstat : (x'.view t).stat = (x.view t).stat)
    (herror : (x'.view t).error = (x.view t).error)
    (htimer : (x'.view t).timerActive = (x.view t).timerActive)
    (hwakers : x'.wakers t = x.wakers t)
    (hlist : ∀ o side, t ∈ x'.list o side ↔ t ∈ x.list o side)
    (hgranted : ∀ o side, t ∈ x'.granted o side ↔ t ∈ x.granted o side) :
    WaitState x' t := by
  cases hstate with
  | outside h1 h2 h3 h4 h5 =>
    apply WaitState.outside <;> simp only [hwait, hstat, htimer, hlist, hgranted] <;>
      assumption
  | asleep wait h1 h2 h3 h4 h5 h6 h7 =>
    apply WaitState.asleep wait <;>
      simp only [hwait, hstat, herror, htimer, hwakers, hlist, hgranted] <;> assumption
  | woken wait waker h1 h2 h3 h4 h5 h6 h7 =>
    apply WaitState.woken wait waker <;>
      simp only [hwait, hstat, herror, htimer, hwakers, hlist, hgranted] <;> assumption

theorem WaitState.of_mem {o : ObjId} {side : Side} (hmem : t ∈ x.list o side) :
    ∃ wait, x.wait t = some wait ∧ o = wait.obj ∧ side = wait.request.side ∧
      (x.view t).stat = .suspend ∧ (x.view t).error = rtEok ∧ x.wakers t = [] ∧
      ∀ o side, t ∉ x.granted o side := by
  cases hstate with
  | outside _ _ _ hfree => exact absurd hmem (hfree o side)
  | asleep wait hwait hstat herror _ hwakers hlist hgranted =>
    obtain ⟨ho, hside⟩ := (hlist o side).mp hmem
    exact ⟨wait, hwait, ho, hside, hstat, herror, hwakers, hgranted⟩
  | woken _ _ _ _ _ _ _ hfree => exact absurd hmem (hfree o side)

theorem WaitState.of_suspended (hsuspend : (x.view t).stat = .suspend) :
    ∃ wait, x.wait t = some wait ∧ t ∈ x.list wait.obj wait.request.side := by
  cases hstate with
  | outside _ hstat => exact absurd hsuspend hstat
  | asleep wait hwait _ _ _ _ hlist => exact ⟨wait, hwait, (hlist _ _).mpr ⟨rfl, rfl⟩⟩
  | woken _ _ _ hready =>
    rw [hready] at hsuspend
    cases hsuspend

theorem WaitState.of_idle (hidle : x.Idle t) :
    (x.view t).timerActive = false ∧ (∀ o side, t ∉ x.list o side) ∧
      ∀ o side, t ∉ x.granted o side := by
  obtain ⟨-, hnone⟩ := hidle
  cases hstate with
  | outside _ _ htimer hlist hgranted => exact ⟨htimer, hlist, hgranted⟩
  | asleep wait hwait =>
    rw [hnone] at hwait
    cases hwait
  | woken wait waker hwait =>
    rw [hnone] at hwait
    cases hwait

theorem WaitState.of_ready {wait : Wait}
    (hwait : x.wait t = some wait) (hready : (x.view t).stat = .ready) :
    ∃ waker, (x.view t).error = waker.code ∧ (x.view t).timerActive = false ∧
      x.wakers t = [waker] ∧ (∀ o side, t ∉ x.list o side) ∧
      ∀ o side, t ∈ x.granted o side ↔
        waker = .grant ∧ o = wait.obj ∧ side = wait.request.side := by
  cases hstate with
  | outside hnone =>
    rw [hwait] at hnone
    cases hnone
  | asleep _ _ hsuspend =>
    rw [hready] at hsuspend
    cases hsuspend
  | woken wait' waker hwait' _ herror htimer hwakers hlist hgranted =>
    rw [hwait] at hwait'
    cases hwait'
    exact ⟨waker, herror, htimer, hwakers, hlist, hgranted⟩

end

end Cases

section Steps

variable {x x' : Core} {t : Tid}

theorem CoreInv.idle_mem (hinv : CoreInv x) (hidle : x.Idle t) (o : ObjId) (side : Side) :
    t ∉ x.list o side :=
  ((hinv.state t).of_idle hidle).2.1 o side

theorem CoreInv.woken (hinv : CoreInv x) {o : ObjId} {side : Side}
    (hmem : t ∈ x.list o side) (waker : Waker)
    (hview : ∀ u, u ≠ t → x'.view u = x.view u)
    (hself : x'.view t =
      { x.view t with stat := .ready, error := waker.code, timerActive := false })
    (hlist : x'.list = fun o side => listRemove t (x.list o side))
    (hwait : x'.wait = x.wait) (hobject : x'.object = x.object)
    (hwakers : x'.wakers = update x.wakers t (x.wakers t ++ [waker]))
    (hgrants : ∀ o side, (x'.granted o side).Nodup)
    (hgranted : ∀ u o' side', u ∈ x'.granted o' side' ↔ u ∈ x.granted o' side' ∨
      (u = t ∧ waker = .grant ∧ o' = o ∧ side' = side)) : CoreInv x' := by
  refine ⟨fun o' side' => ?_, hgrants, fun u => ?_, by rw [hwait, hobject]; exact hinv.kind⟩
  · rw [hlist]
    exact listRemove_nodup (hinv.nodup o' side')
  · by_cases hu : u = t
    · subst hu
      obtain ⟨wait, hold, rfl, rfl, hstat, herror, hempty, hfree⟩ :=
        (hinv.state u).of_mem hmem
      refine .woken wait waker (by rw [hwait, hold]) (by rw [hself]) (by rw [hself])
        (by rw [hself]) (by simp [hwakers, hempty]) (fun o' side' => ?_)
        (fun o' side' => ?_)
      · simp [hlist]
      · rw [hgranted]
        simp [hfree]
    · refine (hinv.state u).of_same (by rw [hwait]) (by rw [hview u hu]) (by rw [hview u hu])
        (by rw [hview u hu]) (by simp [hwakers, hu]) (fun o' side' => ?_) (fun o' side' => ?_)
      · simp [hlist, hu]
      · simp [hgranted, hu]

theorem CoreInv.error (hinv : CoreInv x) (hidle : x.Idle t) (code : Int) :
    CoreInv (x.setError t code) := by
  refine ⟨hinv.nodup, hinv.grants, fun u => ?_, hinv.kind⟩
  by_cases hu : u = t
  · subst hu
    obtain ⟨htimer, hlist, hgranted⟩ := (hinv.state u).of_idle hidle
    refine .outside hidle.2 ?_ ?_ hlist hgranted
    · simp [setError, Core.setView, hidle.1]
    · simpa [setError, Core.setView] using htimer
  · have hview : (x.setError t code).view u = x.view u := by
      simp [setError, Core.setView, hu]
    exact (hinv.state u).of_same rfl (by rw [hview]) (by rw [hview]) (by rw [hview]) rfl
      (fun _ _ => Iff.rfl) (fun _ _ => Iff.rfl)

theorem block_list_of_ne {o o' : ObjId} {request : Request} {timeout : Int} {tick : Nat}
    {side : Side} (hne : ¬ (o' = o ∧ side = request.side)) :
    (x.block t o request timeout tick).list o' side = x.list o' side := by
  unfold Core.block
  by_cases ho : o' = o
  · subst ho
    have hside : side ≠ request.side := fun h => hne ⟨rfl, h⟩
    simp [hside]
  · simp [ho]

theorem block_list_self {o : ObjId} {request : Request} {timeout : Int} {tick : Nat} :
    (x.block t o request timeout tick).list o request.side =
      listSuspend (x.flag o) (fun u => (x.view u).priority) t (x.list o request.side) := by
  simp [Core.block]

theorem mem_block {o o' : ObjId} {request : Request} {timeout : Int} {tick : Nat}
    {side : Side} {u : Tid} :
    u ∈ (x.block t o request timeout tick).list o' side ↔
      u ∈ x.list o' side ∨ (u = t ∧ o' = o ∧ side = request.side) := by
  by_cases h : o' = o ∧ side = request.side
  · obtain ⟨rfl, rfl⟩ := h
    rw [block_list_self, mem_listSuspend, or_comm]
    simp
  · rw [block_list_of_ne h]
    simp [h]

theorem CoreInv.block (hinv : CoreInv x) (hidle : x.Idle t)
    (herror : (x.view t).error = rtEok) {o : ObjId} {request : Request}
    (hkind : request.kind = (x.object o).kind) (timeout : Int) (tick : Nat) :
    CoreInv (x.block t o request timeout tick) := by
  refine ⟨fun o' side => ?_, hinv.grants, fun u => ?_, fun u wait hwait => ?_⟩
  · by_cases h : o' = o ∧ side = request.side
    · obtain ⟨rfl, rfl⟩ := h
      rw [block_list_self]
      exact listSuspend_nodup (hinv.nodup _ _) (hinv.idle_mem hidle _ _)
    · rw [block_list_of_ne h]
      exact hinv.nodup o' side
  · by_cases hu : u = t
    · subst hu
      obtain ⟨-, hlist, hgranted⟩ := (hinv.state u).of_idle hidle
      refine .asleep ⟨o, request, timeout, tick⟩ (by simp [Core.block])
        (by simp [Core.block, Core.setView]) (by simpa [Core.block, Core.setView] using herror)
        (by simp [Core.block, Core.setView]) (by simp [Core.block]) (fun o' side => ?_)
        hgranted
      rw [mem_block]
      simp [hlist]
    · have hview : (x.block t o request timeout tick).view u = x.view u := by
        simp [Core.block, Core.setView, hu]
      refine (hinv.state u).of_same (by simp [Core.block, hu]) (by rw [hview]) (by rw [hview])
        (by rw [hview]) (by simp [Core.block, hu]) (fun o' side => ?_) (fun _ _ => Iff.rfl)
      rw [mem_block]
      simp [hu]
  · by_cases hu : u = t
    · subst hu
      simp only [Core.block, update_self, Option.some.injEq] at hwait
      subst hwait
      exact hkind
    · simp only [Core.block, update_of_ne hu] at hwait
      exact hinv.kind u wait hwait

theorem mem_grant {o o' : ObjId} {side side' : Side} {u : Tid} {received : BitVec 32} :
    u ∈ (x.grant o side t received).granted o' side' ↔
      u ∈ x.granted o' side' ∨ (u = t ∧ o' = o ∧ side' = side) := by
  unfold Core.grant
  by_cases ho : o' = o
  · subst ho
    by_cases hside : side' = side
    · subst hside
      simp [or_comm]
    · simp [hside]
  · simp [ho]

section

variable (hinv : CoreInv x)
include hinv

theorem CoreInv.grant {o : ObjId} {side : Side} (hmem : t ∈ x.list o side) (received : BitVec 32) :
    CoreInv (x.grant o side t received) := by
  obtain ⟨wait, -, -, -, hstat, herror, -, hfree⟩ := (hinv.state t).of_mem hmem
  refine hinv.woken hmem .grant (fun u hu => ?_) ?_ rfl rfl rfl rfl (fun o' side' => ?_)
    (fun u o' side' => ?_)
  · simp [Core.grant, Core.wake, Core.setView, hu]
  · simp [Core.grant, Core.wake, Core.setView, Waker.code, ← herror]
  · unfold Core.grant
    by_cases ho : o' = o
    · subst ho
      by_cases hside : side' = side
      · subst hside
        simpa using ⟨hfree o' side', hinv.grants o' side'⟩
      · simpa [hside] using hinv.grants o' side'
    · simpa [ho] using hinv.grants o' side'
  · rw [mem_grant]
    simp

theorem CoreInv.refuse {o : ObjId} {side : Side}
    (hmem : t ∈ x.list o side) : CoreInv ((x.setError t (-rtError)).wake t .reset) := by
  refine hinv.woken hmem .reset (fun u hu => ?_) ?_ rfl rfl rfl rfl hinv.grants (fun u o' side' => ?_)
  · simp [setError, Core.wake, Core.setView, hu]
  · simp [setError, Core.wake, Core.setView, Waker.code]
  · simp [setError, Core.wake, Core.setView]

theorem CoreInv.expire (hsuspend : (x.view t).stat = .suspend) :
    CoreInv ((x.setError t (-rtEtimeout)).wake t .expiry) := by
  obtain ⟨wait, -, hmem⟩ := (hinv.state t).of_suspended hsuspend
  refine hinv.woken hmem .expiry (fun u hu => ?_) ?_ rfl rfl rfl rfl hinv.grants
    (fun u o' side' => ?_)
  · simp [setError, Core.wake, Core.setView, hu]
  · simp [setError, Core.wake, Core.setView, Waker.code]
  · simp [setError, Core.wake, Core.setView]

theorem CoreInv.priority (priority : Nat) :
    CoreInv (x.setView t { x.view t with priority := priority }) := by
  refine ⟨hinv.nodup, hinv.grants, fun u => ?_, hinv.kind⟩
  refine (hinv.state u).of_same rfl ?_ ?_ ?_ rfl (fun _ _ => Iff.rfl) (fun _ _ => Iff.rfl) <;>
    by_cases hu : u = t <;> simp [Core.setView, hu]

theorem CoreInv.finish (hready : (x.view t).stat = .ready)
    (hwait : x.wait t ≠ none) : CoreInv (x.finish t) := by
  obtain ⟨wait, hwait⟩ := Option.ne_none_iff_exists'.mp hwait
  refine ⟨hinv.nodup, fun o side => listRemove_nodup (hinv.grants o side), fun u => ?_,
    fun u wait' hwait' => ?_⟩
  · by_cases hu : u = t
    · subst hu
      obtain ⟨waker, -, htimer, -, hlist, -⟩ := (hinv.state u).of_ready hwait hready
      refine .outside (by simp [Core.finish]) ?_ htimer hlist (fun o side => ?_)
      · simp [Core.finish, hready]
      · simp [Core.finish]
    · refine (hinv.state u).of_same (by simp [Core.finish, hu]) rfl rfl rfl rfl
        (fun _ _ => Iff.rfl) (fun o side => ?_)
      simp [Core.finish, hu]
  · have hu : u ≠ t := by
      rintro rfl
      simp [Core.finish] at hwait'
    simp only [Core.finish, update_of_ne hu] at hwait'
    exact hinv.kind u wait' hwait'

theorem CoreInv.object {o : ObjId} {object : IpcObject} (hkind : object.kind = (x.object o).kind) :
    CoreInv { x with object := update x.object o object } := by
  refine ⟨hinv.nodup, hinv.grants, fun u => (hinv.state u).of_same
    rfl rfl rfl rfl rfl (fun _ _ => Iff.rfl) (fun _ _ => Iff.rfl), fun u wait hwait => ?_⟩
  refine (hinv.kind u wait hwait).trans ?_
  by_cases ho : wait.obj = o
  · simp [ho, hkind]
  · simp [ho]

theorem CoreInv.apply {e : Effect} (henabled : x.Enabled e) : CoreInv (x.apply e) := by
  cases e with
  | error t code => exact hinv.error henabled code
  | request t set option => exact ⟨hinv.nodup, hinv.grants, fun u => (hinv.state u).of_same
      rfl rfl rfl rfl rfl (fun _ _ => Iff.rfl) (fun _ _ => Iff.rfl), hinv.kind⟩
  | object o object => exact hinv.object henabled
  | block t o request timeout tick =>
    exact hinv.block henabled.1 henabled.2.1 henabled.2.2 timeout tick
  | grant o side t received => exact hinv.grant henabled received
  | refuse o side t => exact hinv.refuse henabled
  | expire t => exact hinv.expire henabled.1
  | priority t priority => exact hinv.priority priority
  | finish t => exact hinv.finish henabled.1 henabled.2

end

theorem Core.Initial.inv (hinit : x.Initial) : CoreInv x := by
  refine ⟨fun o side => ?_, fun o side => ?_, fun t => ?_, fun t wait hwait => ?_⟩
  rotate_right
  · rw [(hinit.awake t).2.2] at hwait
    cases hwait
  · rw [(hinit.lists o side).1]
    exact List.nodup_nil
  · rw [(hinit.lists o side).2]
    exact List.nodup_nil
  · obtain ⟨hstat, htimer, hwait⟩ := hinit.awake t
    refine .outside hwait hstat htimer (fun o side => ?_) (fun o side => ?_)
    · simp [(hinit.lists o side).1]
    · simp [(hinit.lists o side).2]

theorem CoreInv.path {allowed : Core → Effect → Prop} (hinv : CoreInv x)
    (hpath : coreMachine.Path allowed x x') : CoreInv x' := by
  refine hpath.invariant CoreInv (fun _ _ _ hinv _ hexec => ?_) hinv
  obtain ⟨henabled, rfl⟩ := coreMachine_exec hexec
  exact hinv.apply henabled

theorem kind_apply {e : Effect} (henabled : x.Enabled e) (o : ObjId) :
    ((x.apply e).object o).kind = (x.object o).kind := by
  cases e with
  | object o' object =>
    by_cases ho : o = o'
    · subst ho
      simp only [apply, update_self]
      exact henabled
    · simp [apply, ho]
  | error _ _ | request _ _ _ | block _ _ _ _ _ | grant _ _ _ _ | refuse _ _ _ | expire _
  | priority _ _ | finish _ => rfl

theorem kind_path {allowed : Core → Effect → Prop} (hpath : coreMachine.Path allowed x x')
    (o : ObjId) : (x'.object o).kind = (x.object o).kind := by
  refine hpath.invariant (fun y => (y.object o).kind = (x.object o).kind)
    (fun y e y' hkind _ hexec => ?_) rfl
  obtain ⟨henabled, rfl⟩ := coreMachine_exec hexec
  exact (kind_apply henabled o).trans hkind

end Steps

end RtThread.Blocking
