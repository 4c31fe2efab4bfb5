import Mathlib.Data.Finset.Card
import RtThread.Pthreads.CondVarWakeups

namespace RtThread.Pthreads

open Function RtThread.Lib CondVar

/-! The barriers of `pthread_barrier.c`.  A step is a section with the mutex of the barrier held, or
what a thread does between two of them. -/

/-- History: `calls` and `returns` count the calls of `pthread_barrier_wait` that each thread has
made and those that have returned to it, and `returned` is the result of the call that has ended in
the last step. -/
structure Barrier where
  count : Nat
  cv : CondVar
  calls : Tid → Nat
  returns : Tid → Nat
  returned : Option (Tid × Int)

namespace Barrier

def leave (t : Tid) (result : Int) (s : Barrier) : Barrier :=
  { s with
    returns := update s.returns t (s.returns t + 1)
    returned := some (t, result) }

/-- `pthread_barrier_wait`, up to the point where `pthread_cond_wait` lets go of the mutex. -/
def pthreadBarrierWait (t : Tid) (s : Barrier) : Barrier :=
  let s := { s with calls := update s.calls t (s.calls t + 1), returned := none }
  if s.count = 0 then s.leave t einval
  else
    let s := { s with count := s.count - 1 }
    if s.count = 0 then leave t 0 { s with cv := s.cv.pthreadCondBroadcast }
    else { s with cv := s.cv.startWait t false }

end Barrier

inductive BarrierOp
  | call (t : Tid)
  | semTake (t : Tid)
  | endWait (t : Tid)
  deriving DecidableEq

namespace Barrier

def exec (threads : Finset Tid) (s : Barrier) : BarrierOp → Option Barrier
  | .call t =>
    if t ∈ threads ∧ s.cv.phase t = .outside then some (s.pthreadBarrierWait t) else none
  | .semTake t => (s.cv.exec (.semTake t)).map fun cv => { s with cv := cv, returned := none }
  -- whatever `pthread_cond_wait` returns
  | .endWait t => (s.cv.exec (.endWait t)).map fun cv => leave t 0 { s with cv := cv }

structure Initial (count : Nat) (s : Barrier) : Prop where
  count : s.count = count
  cv : s.cv.Initial
  calls : ∀ t, s.calls t = 0
  returns : ∀ t, s.returns t = 0
  returned : s.returned = none

end Barrier

def barrierMachine (threads : Finset Tid) : Machine Barrier BarrierOp where
  init := Barrier.Initial threads.card
  exec := Barrier.exec threads

namespace Barrier

structure Law (threads : Finset Tid) (s : Barrier) : Prop where
  /-- No thread is a round ahead of another one's call. -/
  together : ∀ t ∈ threads, ∀ t' ∈ threads, s.returns t ≤ s.calls t'
  /-- When all threads have made a call, it returns: the thread is woken, or there are tokens
  enough. -/
  opens : ∀ t ∈ threads, s.cv.stage t ≠ none → (∀ t' ∈ threads, s.calls t ≤ s.calls t') →
    s.cv.stage t = some .granted ∨
      s.cv.stage t = some .unlocked ∧ s.cv.onWay.length ≤ s.cv.cond.value
  valid : ∀ t, s.returned ≠ some (t, einval)

/-- The condition for a step to keep the law: a call belongs to the first round, and the one that
opens the barrier finds no two threads on the way to their `rt_sem_take`. -/
def Proper (s : Barrier) : BarrierOp → Prop
  | .call _ => s.count ≠ 0 ∧ (s.count = 1 → s.cv.onWay.length ≤ 1)
  | _ => True

structure Closed (s : Barrier) : Prop where
  value : s.cv.cond.value = 0
  returns : ∀ t, s.returns t = 0
  granted : ∀ t, s.cv.stage t ≠ some .granted
  waits : ∀ t, s.cv.stage t = none ↔ s.calls t = 0

structure Opened (s : Barrier) : Prop where
  returns : ∀ t, s.returns t ≤ 1
  waits : ∀ t, s.cv.stage t ≠ none → s.returns t = 0
  blocked : ∀ t, s.cv.stage t ≠ some .blocked
  tokens : s.cv.onWay.length ≤ s.cv.cond.value

structure Inv (threads : Finset Tid) (s : Barrier) : Prop where
  lists : s.cv.Lists
  counted : s.count + (threads.filter fun t => s.calls t ≠ 0).card = threads.card
  once : ∀ t, s.calls t ≤ 1
  member : ∀ t, s.cv.stage t ≠ none → t ∈ threads
  failed : ∀ t result, s.cv.stage t ≠ some (.failed result)
  closed : s.count ≠ 0 → s.Closed
  opened : s.count = 0 → s.Opened
  valid : ∀ t, s.returned ≠ some (t, einval)

variable {threads : Finset Tid} {s s' : Barrier} {t u : Tid}

theorem Initial.inv (h : s.Initial threads.card) : s.Inv threads where
  lists := h.cv.lists
  counted := by
    have hnobody : threads.filter (fun t => s.calls t ≠ 0) = ∅ :=
      Finset.filter_eq_empty_iff.mpr fun t _ hcalls => hcalls (h.calls t)
    rw [hnobody, Finset.card_empty, h.count, Nat.add_zero]
  once t := (h.calls t).trans_le (Nat.zero_le 1)
  member t hstage := absurd (stage_of_outside (h.cv.phase t)) hstage
  failed t result := by
    rw [stage_of_outside (h.cv.phase t)]
    exact nofun
  closed _ :=
    { value := congrArg Cond.value h.cv.cond
      returns := h.returns
      granted := fun t => by
        rw [stage_of_outside (h.cv.phase t)]
        exact nofun
      waits := fun t => ⟨fun _ => h.calls t, fun _ => stage_of_outside (h.cv.phase t)⟩ }
  opened hzero :=
    { returns := fun t => (h.returns t).trans_le (Nat.zero_le 1)
      waits := fun t _ => h.returns t
      blocked := fun t => by
        rw [stage_of_outside (h.cv.phase t)]
        exact nofun
      tokens := by
        rw [h.cv.onWay]
        exact Nat.zero_le _ }
  valid t := by
    rw [h.returned]
    exact nofun

theorem Inv.called (h : s.Inv threads) (hzero : s.count = 0) (hmem : t ∈ threads) :
    s.calls t = 1 := by
  have hcard : (threads.filter fun t => s.calls t ≠ 0).card = threads.card := by
    have hcounted := h.counted
    omega
  have hall := Finset.filter_card_eq hcard t hmem
  have honce := h.once t
  omega

theorem Inv.missing (h : s.Inv threads) (hclosed : s.count ≠ 0) : ∃ t ∈ threads, s.calls t = 0 := by
  by_contra hall
  push Not at hall
  have hfull : threads.filter (fun t => s.calls t ≠ 0) = threads := Finset.filter_true_of_mem hall
  have hcounted := h.counted
  rw [hfull] at hcounted
  omega

theorem Inv.law (h : s.Inv threads) : s.Law threads where
  together t _ t' hmem' := by
    by_cases hzero : s.count = 0
    · rw [h.called hzero hmem']
      exact (h.opened hzero).returns t
    · rw [(h.closed hzero).returns t]
      exact Nat.zero_le _
  opens t hmem hstage hall := by
    by_cases hzero : s.count = 0
    · rcases hcases : s.cv.stage t with _ | stage
      · exact absurd hcases hstage
      · cases stage with
        | unlocked => exact .inr ⟨rfl, (h.opened hzero).tokens⟩
        | blocked => exact absurd hcases ((h.opened hzero).blocked t)
        | granted => exact .inl rfl
        | failed result => exact absurd hcases (h.failed t result)
    · obtain ⟨t', hmem', hcalls⟩ := h.missing hzero
      have hle := hall t' hmem'
      have hnone := ((h.closed hzero).waits t).mpr (by omega)
      exact absurd hnone hstage
  valid := h.valid

theorem wait_of_zero (hcount : s.count = 0) :
    s.pthreadBarrierWait t = leave t einval
      { s with calls := update s.calls t (s.calls t + 1), returned := none } := by
  simp only [pthreadBarrierWait, if_pos hcount]

theorem wait_of_one (hcount : s.count = 1) :
    s.pthreadBarrierWait t = leave t 0
      { s with
        count := 0
        cv := s.cv.pthreadCondBroadcast
        calls := update s.calls t (s.calls t + 1)
        returned := none } := by
  have hne : s.count ≠ 0 := by omega
  have hlast : s.count - 1 = 0 := by omega
  simp only [pthreadBarrierWait, if_neg hne, if_pos hlast]
  rw [hlast]

theorem wait_of_more (hcount : 1 < s.count) :
    s.pthreadBarrierWait t =
      { s with
        count := s.count - 1
        cv := s.cv.startWait t false
        calls := update s.calls t (s.calls t + 1)
        returned := none } := by
  have hne : s.count ≠ 0 := by omega
  have hmore : s.count - 1 ≠ 0 := by omega
  simp only [pthreadBarrierWait, if_neg hne, if_neg hmore]

theorem card_called {calls : Tid → Nat} (hmem : t ∈ threads) (hfirst : calls t = 0) :
    (threads.filter fun u => update calls t (calls t + 1) u ≠ 0).card =
      (threads.filter fun u => calls u ≠ 0).card + 1 := by
  have hinsert : (threads.filter fun u => update calls t (calls t + 1) u ≠ 0) =
      insert t (threads.filter fun u => calls u ≠ 0) := by
    ext u
    rw [Finset.mem_insert, Finset.mem_filter, Finset.mem_filter]
    rcases eq_or_ne u t with rfl | hne
    · simp [hmem]
    · simp [hne]
  have hfree : t ∉ threads.filter fun u => calls u ≠ 0 := by simp [hfirst]
  rw [hinsert, Finset.card_insert_of_notMem hfree]

theorem update_le_one {calls : Tid → Nat} (honce : ∀ u, calls u ≤ 1) (hfirst : calls t = 0)
    (u : Tid) : update calls t (calls t + 1) u ≤ 1 := by
  rcases eq_or_ne u t with rfl | hne
  · rw [update_self, hfirst]
  · rw [update_of_ne hne]
    exact honce u

theorem onWay_broadcast (hlists : s.cv.Lists) :
    s.cv.pthreadCondBroadcast.onWay = s.cv.onWay ∧
      s.cv.pthreadCondBroadcast.cond.value = max s.cv.cond.value 1 := by
  rw [broadcast_eq hlists, grants_eq]
  exact ⟨rfl, rfl⟩

theorem Inv.open_iff (h : s.Inv threads) (hmem : t ∈ threads) (hphase : s.cv.phase t = .outside)
    (hcount : s.count = 1) :
    ((s.pthreadBarrierWait t).Law threads → s.cv.onWay.length ≤ 1) ∧
      (s.cv.onWay.length ≤ 1 → (s.pthreadBarrierWait t).Inv threads) := by
  have hclosed := h.closed (by omega)
  have hfirst : s.calls t = 0 := (hclosed.waits t).mp (stage_of_outside hphase)
  have hcard := card_called hmem hfirst
  have hcounted := h.counted
  have honce := update_le_one h.once hfirst
  obtain ⟨hway, hvalue⟩ := onWay_broadcast h.lists
  rw [hclosed.value] at hvalue
  rw [wait_of_one hcount]
  constructor
  · intro hlaw
    rcases hcases : s.cv.onWay with _ | ⟨u, others⟩
    · exact Nat.zero_le _
    · have hstage : s.cv.stage u = some .unlocked := by
        rw [← h.lists.way, hcases]
        exact List.mem_cons_self
      have hstage' : s.cv.pthreadCondBroadcast.stage u = some .unlocked := by
        rw [stage_broadcast h.lists, hstage]
        rfl
      have hall (t' : Tid) (hmem' : t' ∈ threads) :
          update s.calls t (s.calls t + 1) u ≤ update s.calls t (s.calls t + 1) t' := by
        have hfull : (threads.filter fun v =>
            update s.calls t (s.calls t + 1) v ≠ 0).card = threads.card := by omega
        have hcalled := Finset.filter_card_eq hfull t' hmem'
        have hless := honce u
        omega
      have hin : s.cv.pthreadCondBroadcast.stage u ≠ none := by
        rw [hstage']
        exact nofun
      rcases hlaw.opens u (h.member u (by rw [hstage]; exact nofun)) hin hall with hgranted | htokens
      · rw [show s.cv.pthreadCondBroadcast.stage u = some .granted from hgranted] at hstage'
        cases hstage'
      · have hlength : s.cv.pthreadCondBroadcast.onWay.length ≤
            s.cv.pthreadCondBroadcast.cond.value := htokens.2
        rw [hway, hvalue] at hlength
        exact hcases ▸ hlength
  · intro hlength
    refine
      { lists := h.lists.broadcast
        counted := ?_
        once := honce
        member := fun u hstage => h.member u fun hnone => hstage ?_
        failed := fun u result => ?_
        closed := fun hne => absurd rfl hne
        opened := fun _ =>
          { returns := update_le_one (fun u => (hclosed.returns u).trans_le (Nat.zero_le 1))
              (hclosed.returns t)
            waits := fun u hin => ?_
            blocked := fun u => ?_
            tokens := ?_ }
        valid := fun u heq => ?_ }
    · show 0 + (threads.filter fun u =>
        update s.calls t (s.calls t + 1) u ≠ 0).card = threads.card
      omega
    · show s.cv.pthreadCondBroadcast.stage u = none
      rw [stage_broadcast h.lists, hnone]
      rfl
    · show s.cv.pthreadCondBroadcast.stage u ≠ _
      rw [stage_broadcast h.lists]
      split
      · exact nofun
      · exact h.failed u result
    · show update s.returns t (s.returns t + 1) u = 0
      have hne : u ≠ t := by
        rintro rfl
        refine hin ?_
        show s.cv.pthreadCondBroadcast.stage u = none
        rw [stage_broadcast h.lists, stage_of_outside hphase]
        rfl
      rw [update_of_ne hne]
      exact hclosed.returns u
    · show s.cv.pthreadCondBroadcast.stage u ≠ _
      rw [stage_broadcast h.lists]
      split
      · exact nofun
      next hne => exact hne
    · show s.cv.pthreadCondBroadcast.onWay.length ≤ s.cv.pthreadCondBroadcast.cond.value
      rw [hway, hvalue]
      exact hlength
    · cases (congrArg Prod.snd (Option.some.inj heq) : (0 : Int) = einval)

theorem Inv.wait (h : s.Inv threads) (hmem : t ∈ threads) (hphase : s.cv.phase t = .outside)
    (hcount : 1 < s.count) : (s.pthreadBarrierWait t).Inv threads := by
  have hclosed := h.closed (by omega)
  have hfirst : s.calls t = 0 := (hclosed.waits t).mp (stage_of_outside hphase)
  have hcard := card_called hmem hfirst
  have hcounted := h.counted
  have hstage (u : Tid) : (s.cv.startWait t false).stage u =
      if u = t then some .unlocked else s.cv.stage u := stage_setPhase
  rw [wait_of_more hcount]
  refine
    { lists := h.lists.startWait hphase
      counted := ?_
      once := update_le_one h.once hfirst
      member := fun u hin => ?_
      failed := fun u result => ?_
      closed := fun _ =>
        { value := hclosed.value
          returns := hclosed.returns
          granted := fun u => ?_
          waits := fun u => ?_ }
      opened := fun hzero => ?_
      valid := fun u => nofun }
  · show s.count - 1 + (threads.filter fun u =>
      update s.calls t (s.calls t + 1) u ≠ 0).card = threads.card
    omega
  · rcases eq_or_ne u t with rfl | hne
    · exact hmem
    · refine h.member u fun hnone => hin ?_
      rw [hstage, if_neg hne, hnone]
  · rw [hstage]
    split
    · exact nofun
    · exact h.failed u result
  · rw [hstage]
    split
    · exact nofun
    · exact hclosed.granted u
  · show _ ↔ update s.calls t (s.calls t + 1) u = 0
    rw [hstage]
    rcases eq_or_ne u t with rfl | hne
    · simp
    · rw [if_neg hne, update_of_ne hne]
      exact hclosed.waits u
  · have hlast : s.count - 1 = 0 := hzero
    omega

theorem Inv.semTake (h : s.Inv threads) {timed : Bool} (hstage : s.cv.stage t = some .unlocked) :
    Inv threads { s with cv := s.cv.semTake t timed, returned := none } := by
  have hstages (u : Tid) := stage_semTake (s := s.cv) (t := t) (u := u) timed
  have hsome (u : Tid) : (s.cv.semTake t timed).stage u = none ↔ s.cv.stage u = none := by
    rw [hstages]
    split
    next heq => simp [heq, hstage]
    · rfl
  refine
    { lists := h.lists.semTake hstage
      counted := h.counted
      once := h.once
      member := fun u hin => h.member u fun hnone => hin ((hsome u).mpr hnone)
      failed := fun u result => ?_
      closed := fun hne => ?_
      opened := fun hzero => ?_
      valid := fun u => nofun }
  · show (s.cv.semTake t timed).stage u ≠ _
    rw [hstages]
    split
    · split <;> exact nofun
    · exact h.failed u result
  · have hclosed := h.closed hne
    have hnone : ¬ 0 < s.cv.cond.value := by
      rw [hclosed.value]
      exact Nat.lt_irrefl 0
    refine ⟨?_, hclosed.returns, fun u => ?_, fun u => (hsome u).trans (hclosed.waits u)⟩
    · show (s.cv.semTake t timed).cond.value = 0
      rw [semTake_of_none hnone]
      exact hclosed.value
    · show (s.cv.semTake t timed).stage u ≠ _
      rw [hstages, if_neg hnone]
      split
      · exact nofun
      · exact hclosed.granted u
  · have hopened := h.opened hzero
    have hway : t ∈ s.cv.onWay := (h.lists.way t).mpr hstage
    have hlength := List.length_pos_of_mem hway
    have htokens := hopened.tokens
    have hpos : 0 < s.cv.cond.value := by omega
    refine ⟨hopened.returns, fun u hin => ?_, fun u => ?_, ?_⟩
    · exact hopened.waits u fun hnone => hin ((hsome u).mpr hnone)
    · show (s.cv.semTake t timed).stage u ≠ _
      rw [hstages, if_pos hpos]
      split
      · exact nofun
      · exact hopened.blocked u
    · show (s.cv.semTake t timed).onWay.length ≤ (s.cv.semTake t timed).cond.value
      rw [semTake_of_token hpos]
      show (s.cv.onWay.erase t).length ≤ dec16 s.cv.cond.value
      rw [List.length_erase_of_mem hway, dec16_of_pos hpos]
      omega

theorem Inv.endWait (h : s.Inv threads) (result : Int) (hstage : s.cv.stage t = some .granted) :
    Inv threads (leave t 0 { s with cv := s.cv.endWait t result }) := by
  have hzero : s.count = 0 := by
    by_contra hne
    exact (h.closed hne).granted t hstage
  have hopened := h.opened hzero
  have hstages (u : Tid) : (s.cv.endWait t result).stage u = if u = t then none else s.cv.stage u :=
    stage_setOutside
  have hin : s.cv.stage t ≠ none := by
    rw [hstage]
    exact nofun
  have hback := hopened.waits t hin
  refine
    { lists := h.lists.endWait (by rw [hstage]; exact ⟨nofun, nofun⟩) result
      counted := h.counted
      once := h.once
      member := fun u hin => h.member u fun hnone => hin ?_
      failed := fun u failure => ?_
      closed := fun hne => absurd hzero hne
      opened := fun _ =>
        { returns := update_le_one hopened.returns hback
          waits := fun u hin => ?_
          blocked := fun u => ?_
          tokens := hopened.tokens }
      valid := fun u heq => ?_ }
  · show (s.cv.endWait t result).stage u = none
    rw [hstages, hnone, ite_self]
  · show (s.cv.endWait t result).stage u ≠ _
    rw [hstages]
    split
    · exact nofun
    · exact h.failed u failure
  · show update s.returns t (s.returns t + 1) u = 0
    have hin' : (s.cv.endWait t result).stage u ≠ none := hin
    rw [hstages] at hin'
    split at hin'
    · exact absurd rfl hin'
    next hne =>
      rw [update_of_ne hne]
      exact hopened.waits u hin'
  · show (s.cv.endWait t result).stage u ≠ _
    rw [hstages]
    split
    · exact nofun
    · exact hopened.blocked u
  · cases (congrArg Prod.snd (Option.some.inj heq) : (0 : Int) = einval)

theorem Inv.step (h : s.Inv threads) {op : BarrierOp}
    (hexec : (barrierMachine threads).exec s op = some s') :
    (s'.Law threads → s.Proper op) ∧ (s.Proper op → s'.Inv threads) := by
  cases op with
  | call t =>
    simp only [barrierMachine, exec] at hexec
    split at hexec
    next hcall =>
      obtain ⟨hmem, hphase⟩ := hcall
      obtain rfl := Option.some.inj hexec
      rcases Nat.lt_trichotomy s.count 1 with hzero | hone | hmore
      · have hzero : s.count = 0 := by omega
        constructor
        · intro hlaw
          rw [wait_of_zero hzero] at hlaw
          exact absurd rfl (hlaw.valid t)
        · exact fun hproper => absurd hzero hproper.1
      · obtain ⟨hlength, hinv⟩ := h.open_iff hmem hphase hone
        constructor
        · exact fun hlaw => ⟨by omega, fun _ => hlength hlaw⟩
        · exact fun hproper => hinv (hproper.2 hone)
      · constructor
        · exact fun _ => ⟨by omega, fun hone => by omega⟩
        · exact fun _ => h.wait hmem hphase hmore
    · cases hexec
  | semTake t =>
    obtain ⟨cv, htaken, rfl⟩ := Option.map_eq_some_iff.mp hexec
    simp only [CondVar.exec] at htaken
    split at htaken
    next timed hphase =>
      obtain rfl := Option.some.inj htaken
      exact ⟨fun _ => trivial, fun _ => h.semTake (stage_of_phase hphase)⟩
    · cases htaken
  | endWait t =>
    obtain ⟨cv, hended, rfl⟩ := Option.map_eq_some_iff.mp hexec
    simp only [CondVar.exec] at hended
    split at hended
    next hphase =>
      obtain rfl := Option.some.inj hended
      exact ⟨fun _ => trivial, fun _ => h.endWait 0 (stage_of_phase hphase)⟩
    next result hphase => exact absurd (stage_of_phase hphase) (h.failed t result)
    · cases hended

instance (s : Barrier) (op : BarrierOp) : Decidable (s.Proper op) :=
  match op with
  | .call _ => inferInstanceAs (Decidable (_ ∧ (_ → _)))
  | .semTake _ | .endWait _ => .isTrue trivial

end Barrier

/-- Proper steps keep the threads of a barrier together and let all of them through, and no other
step does. -/
theorem reachable_barrierLaw (threads : Finset Tid) {s : Barrier}
    (hreach : (barrierMachine threads).Reachable Barrier.Proper s) :
    s.Law threads ∧
      ∀ op s', (barrierMachine threads).exec s op = some s' → (s'.Law threads ↔ s.Proper op) := by
  have hinv : s.Inv threads := by
    refine hreach.invariant (Barrier.Inv threads) (fun _ h => Barrier.Initial.inv h) ?_
    exact fun s op s' hinv hproper hexec => (hinv.step hexec).2 hproper
  refine ⟨hinv.law, fun op s' hexec => ?_⟩
  exact ⟨(hinv.step hexec).1, fun hproper => ((hinv.step hexec).2 hproper).law⟩

def barrierCreated (count : Nat) : Barrier where
  count := count
  cv := condCreated
  calls _ := 0
  returns _ := 0
  returned := none

theorem barrierCreated_initial (count : Nat) : (barrierCreated count).Initial count :=
  ⟨rfl, condCreated_initial, fun _ => rfl, fun _ => rfl, rfl⟩

theorem reachable_barrierLaw_opened :
    ∃ s, (barrierMachine {1, 2, 3}).Reachable Barrier.Proper s ∧ s.returns 1 = 1 ∧ s.returns 2 = 1 ∧
      s.returns 3 = 1 ∧ s.Law {1, 2, 3} := by
  have hrun : ((barrierMachine {1, 2, 3}).run Barrier.Proper (barrierCreated 3)
      [.call 1, .semTake 1, .call 2, .call 3, .endWait 1, .semTake 2, .endWait 2]).map
      (fun s => (s.returns 1, s.returns 2, s.returns 3)) = some (1, 1, 1) := by
    decide +kernel
  obtain ⟨s, hreach, hvalue⟩ := Machine.exists_reachable_of_run
    (barrierCreated_initial 3) hrun
  simp only [Prod.mk.injEq] at hvalue
  obtain ⟨hfirst, hsecond, hthird⟩ := hvalue
  exact ⟨s, hreach, hfirst, hsecond, hthird, (reachable_barrierLaw {1, 2, 3} hreach).1⟩

theorem secondRound_not_law :
    ∃ s, (barrierMachine {1}).Reachable (fun _ _ => True) s ∧
      s.returned = some (1, einval) ∧ ¬ s.Law {1} := by
  have hrun : ((barrierMachine {1}).run (fun _ _ => True) (barrierCreated 1)
      [.call 1, .call 1]).map Barrier.returned = some (some (1, einval)) := by
    decide +kernel
  obtain ⟨s, hreach, hreturned⟩ := Machine.exists_reachable_of_run (barrierCreated_initial 1) hrun
  exact ⟨s, hreach, hreturned, fun h => h.valid 1 hreturned⟩

end RtThread.Pthreads
