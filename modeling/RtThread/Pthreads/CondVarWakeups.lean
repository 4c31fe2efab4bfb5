import RtThread.Pthreads.CondVar

namespace RtThread.Pthreads

open RtThread.Ipc RtThread.Lib CondVar

namespace Cond

theorem broadcast_of_tokens {value : Nat} {list : List Tid} (htokens : 0 < value → list = [])
    (hsmall : value < 65536) : broadcast value list = (⟨max value 1, []⟩, list) := by
  induction list with
  | nil =>
    unfold broadcast
    split
    next hzero => rw [hzero, Nat.zero_max]
    next hpos =>
      have hback : inc16 (dec16 value) = max value 1 := by
        unfold inc16 dec16
        rw [if_neg hpos]
        omega
      rw [hback]
  | cons t rest ih =>
    have hzero : value = 0 := by
      by_contra hpos
      cases htokens (Nat.pos_of_ne_zero hpos)
    subst hzero
    unfold broadcast
    rw [if_pos rfl, ih fun h => nomatch h]

/-- The loop of `pthread_cond_broadcast` ends, after at most two rounds more than there are threads
in the list. -/
theorem broadcastLoop_eq (cond : Cond) :
    broadcastLoop (cond.suspendThread.length + 2) cond =
      some (broadcast cond.value cond.suspendThread) := by
  obtain ⟨value, list⟩ := cond
  induction list with
  | nil =>
    rcases Nat.eq_zero_or_pos value with rfl | hpos
    · rfl
    · simp [broadcastLoop, trytake, release, broadcast, hpos, Nat.ne_of_gt hpos]
  | cons t rest ih =>
    rcases Nat.eq_zero_or_pos value with rfl | hpos
    · have hrest : broadcastLoop (rest.length + 2) ⟨0, rest⟩ = some (broadcast 0 rest) := ih
      show (broadcastLoop (rest.length + 2) ⟨0, rest⟩).map _ = _
      rw [hrest]
      rfl
    · simp [broadcastLoop, trytake, release, broadcast, hpos, Nat.ne_of_gt hpos]

end Cond

namespace CondVar

def stage (s : CondVar) (t : Tid) : Option Stage :=
  match s.phase t with
  | .outside => none
  | .wait _ stage => some stage

structure Law (s : CondVar) : Prop where
  signals : ∀ waits ∈ s.signalled, 0 < s.cond.value ∧ ∃ t ∈ waits, t ∈ s.onWay
  broadcasts : s.broadcasted ⊆ s.onWay ∧ s.broadcasted.length ≤ s.cond.value
  kept : s.without ≤ s.cond.value

/-- What a step does to the waits: a wait that is granted ends with 0, and an `rt_sem_take` ends as
it would without the signals and broadcasts that nobody waited for. -/
def StepLaw (s : CondVar) (op : CondOp) (s' : CondVar) : Prop :=
  s'.Law ∧
    (∀ t, s.stage t = some .granted →
      s'.stage t = some .granted ∨ op = .endWait t ∧ s'.returned = some (t, 0)) ∧
    match op with
    | .semTake t => s'.stage t = some .granted ↔ 0 < s.without
    | .signal =>
      (∃ t, s.stage t = some .blocked) →
        ∃ t, s.stage t = some .blocked ∧ s'.stage t = some .granted
    | .broadcast => ∀ t, s.stage t = some .blocked → s'.stage t = some .granted
    | _ => True

/-- A step brings every wake-up to its wait if the value does not wrap around, the token that a
broadcast leaves is enough for the threads on their way, and a thread finds a token only where one
is meant for it. -/
def Proper (s : CondVar) : CondOp → Prop
  | .semTake t =>
    0 < s.cond.value →
      0 < s.without ∧ ((∃ waits ∈ s.signalled, t ∉ waits) → 1 < s.cond.value) ∧
        (t ∉ s.broadcasted → s.broadcasted.length < s.cond.value)
  | .signal =>
    s.cond.suspendThread = [] → s.cond.value = 65535 → s.onWay = [] ∧ s.without = 0
  | .broadcast => s.onWay.length ≤ max s.cond.value 1
  | _ => True

structure Lists (s : CondVar) : Prop where
  way : ∀ t, t ∈ s.onWay ↔ s.stage t = some .unlocked
  wayNodup : s.onWay.Nodup
  listed : ∀ t, t ∈ s.cond.suspendThread ↔ s.stage t = some .blocked
  listNodup : s.cond.suspendThread.Nodup
  tokens : 0 < s.cond.value → s.cond.suspendThread = []
  small : s.cond.value < 65536
  waits : ∀ waits ∈ s.signalled, waits ≠ [] ∧ waits ⊆ s.onWay
  subset : s.broadcasted ⊆ s.onWay
  nodup : s.broadcasted.Nodup

variable {s s' : CondVar} {t u : Tid} {timed : Bool} {stage : Stage}

theorem stage_of_phase (hphase : s.phase t = .wait timed stage) : s.stage t = some stage := by
  unfold CondVar.stage
  rw [hphase]

theorem stage_of_outside (hphase : s.phase t = .outside) : s.stage t = none := by
  unfold CondVar.stage
  rw [hphase]

theorem stage_setPhase :
    (s.setPhase t (.wait timed stage)).stage u = if u = t then some stage else s.stage u := by
  unfold CondVar.stage setPhase
  rcases eq_or_ne u t with rfl | hne
  · simp
  · simp [hne]

theorem stage_setOutside : (s.setPhase t .outside).stage u = if u = t then none else s.stage u := by
  unfold CondVar.stage setPhase
  rcases eq_or_ne u t with rfl | hne
  · simp
  · simp [hne]

theorem stage_grant :
    (s.grant t).stage u = if u = t then (s.stage t).map fun _ => .granted else s.stage u := by
  unfold grant
  split
  next timed stage hphase => rw [stage_setPhase, stage_of_phase hphase, Option.map_some]
  next hphase =>
    split
    next heq => rw [heq, stage_of_outside hphase, Option.map_none]
    · rfl

theorem stage_grants (resumed : List Tid) :
    (resumed.foldl grant s).stage u =
      if u ∈ resumed then (s.stage u).map fun _ => .granted else s.stage u := by
  induction resumed generalizing s with
  | nil => rfl
  | cons t resumed ih =>
    rw [List.foldl_cons, ih, stage_grant]
    rcases eq_or_ne u t with rfl | hne
    · simp [Function.comp_def]
    · simp [hne]

theorem grants_eq (resumed : List Tid) :
    resumed.foldl grant s = { s with phase := (resumed.foldl grant s).phase } := by
  induction resumed generalizing s with
  | nil => rfl
  | cons t resumed ih =>
    rw [List.foldl_cons, ih]
    unfold grant
    split <;> rfl

theorem Initial.lists (h : s.Initial) : s.Lists where
  way t := by
    rw [h.onWay, stage_of_outside (h.phase t)]
    exact ⟨(nomatch ·), (nomatch ·)⟩
  wayNodup := by
    rw [h.onWay]
    exact List.nodup_nil
  listed t := by
    rw [h.cond, stage_of_outside (h.phase t)]
    exact ⟨(nomatch ·), (nomatch ·)⟩
  listNodup := by
    rw [h.cond]
    exact List.nodup_nil
  tokens _ := by rw [h.cond]
  small := by
    rw [h.cond]
    decide
  waits := by
    rw [h.signalled]
    exact fun _ hmem => nomatch hmem
  subset := by
    rw [h.broadcasted]
    exact List.nil_subset _
  nodup := by
    rw [h.broadcasted]
    exact List.nodup_nil

theorem Lists.startWait (h : s.Lists) (hphase : s.phase t = .outside) :
    (s.startWait t timed).Lists := by
  have hnone := stage_of_outside hphase
  have hstage (u : Tid) : (s.startWait t timed).stage u =
      if u = t then some .unlocked else s.stage u := stage_setPhase
  refine ⟨fun u => ?_, ?_, fun u => ?_, h.listNodup, h.tokens, h.small, ?_, ?_, h.nodup⟩
  · show u ∈ t :: s.onWay ↔ _
    rw [hstage, List.mem_cons, h.way]
    split <;> simp_all
  · refine List.nodup_cons.mpr ⟨fun hmem => ?_, h.wayNodup⟩
    have hunlocked := (h.way t).mp hmem
    rw [hnone] at hunlocked
    cases hunlocked
  · show u ∈ s.cond.suspendThread ↔ _
    rw [hstage, h.listed]
    split <;> simp_all
  · exact fun waits hmem =>
      ⟨(h.waits waits hmem).1, List.Subset.trans (h.waits waits hmem).2 (List.subset_cons_self t s.onWay)⟩
  · exact List.Subset.trans h.subset (List.subset_cons_self t s.onWay)

theorem Lists.leave (h : s.Lists) (timed : Bool) (stage : Stage) (cond : Cond) (without : Nat)
    (hleft : stage ≠ .unlocked)
    (hlisted : ∀ u, u ∈ cond.suspendThread ↔
      if u = t then stage = .blocked else s.stage u = some .blocked)
    (hnodup : cond.suspendThread.Nodup) (htokens : 0 < cond.value → cond.suspendThread = [])
    (hsmall : cond.value < 65536) :
    Lists { (s.setPhase t (.wait timed stage)).leaveWay t with
      cond := cond, without := without } where
  way u := by
    show u ∈ s.onWay.erase t ↔ (s.setPhase t (.wait timed stage)).stage u = _
    rw [stage_setPhase, h.wayNodup.mem_erase_iff, h.way]
    split
    next heq => simp [heq, hleft]
    next hne => simp [hne]
  wayNodup := h.wayNodup.erase t
  listed u := by
    show u ∈ cond.suspendThread ↔ (s.setPhase t (.wait timed stage)).stage u = _
    rw [hlisted, stage_setPhase]
    split
    · rw [Option.some.injEq]
    · rfl
  listNodup := hnodup
  tokens := htokens
  small := hsmall
  waits waits hmem := by
    obtain ⟨hmem, hfree⟩ := List.mem_filter.mp hmem
    rw [decide_eq_true_eq] at hfree
    refine ⟨(h.waits waits hmem).1, fun u hu => ?_⟩
    have hne : u ≠ t := fun heq => hfree (heq ▸ hu)
    exact h.wayNodup.mem_erase_iff.mpr ⟨hne, (h.waits waits hmem).2 hu⟩
  subset u hmem := by
    obtain ⟨hne, hmem⟩ := h.nodup.mem_erase_iff.mp hmem
    exact h.wayNodup.mem_erase_iff.mpr ⟨hne, h.subset hmem⟩
  nodup := h.nodup.erase t

theorem semTake_of_token (hpos : 0 < s.cond.value) :
    s.semTake t timed =
      { (s.setPhase t (.wait timed .granted)).leaveWay t with
        cond := { s.cond with value := dec16 s.cond.value }
        without := dec16 s.without } :=
  if_pos hpos

theorem semTake_of_none (hzero : ¬ 0 < s.cond.value) :
    s.semTake t timed =
      { (s.setPhase t (.wait timed .blocked)).leaveWay t with
        cond := { s.cond with suspendThread := s.cond.suspendThread ++ [t] } } :=
  if_neg hzero

theorem Lists.semTake (h : s.Lists) (hstage : s.stage t = some .unlocked) :
    (s.semTake t timed).Lists := by
  by_cases hpos : 0 < s.cond.value
  · rw [semTake_of_token hpos]
    refine h.leave timed .granted ⟨dec16 s.cond.value, s.cond.suspendThread⟩ _ nofun
      (fun u => ?_) h.listNodup (fun _ => h.tokens hpos) ?_
    · show u ∈ s.cond.suspendThread ↔ _
      rw [h.listed]
      split
      next heq => simp [heq, hstage]
      · rfl
    · show dec16 s.cond.value < 65536
      have hsmall := h.small
      unfold dec16
      split <;> omega
  · rw [semTake_of_none hpos]
    have hfree : t ∉ s.cond.suspendThread := by
      rw [h.listed, hstage]
      exact fun h => nomatch h
    have hnodup : (s.cond.suspendThread ++ [t]).Nodup :=
      (List.perm_append_singleton t s.cond.suspendThread).nodup_iff.mpr
        (List.nodup_cons.mpr ⟨hfree, h.listNodup⟩)
    refine h.leave timed .blocked ⟨s.cond.value, s.cond.suspendThread ++ [t]⟩ s.without nofun
      (fun u => ?_) hnodup (fun h => absurd h hpos) h.small
    show u ∈ s.cond.suspendThread ++ [t] ↔ _
    rw [List.mem_append, List.mem_singleton, h.listed]
    split
    next heq => simp [heq]
    next hne => simp [hne]

theorem Lists.semLeave (h : s.Lists) : (s.semLeave t).Lists := by
  have hlisted (u : Tid) : u ∈ listRemove t s.cond.suspendThread ↔
      if u = t then Stage.failed etimedout = .blocked else s.stage u = some .blocked := by
    rw [mem_listRemove, h.listed]
    split
    next heq => simp [heq]
    next hne => simp [hne]
  have htokens (hpos : 0 < s.cond.value) : listRemove t s.cond.suspendThread = [] := by
    rw [h.tokens hpos]
    rfl
  exact h.leave true _ ⟨s.cond.value, listRemove t s.cond.suspendThread⟩ s.without nofun hlisted
    (listRemove_nodup h.listNodup) htokens h.small

theorem Lists.endWait (h : s.Lists) (hin : s.stage t ≠ some .unlocked ∧ s.stage t ≠ some .blocked)
    (result : Int) : (s.endWait t result).Lists := by
  have hstage (u : Tid) : (s.endWait t result).stage u = if u = t then none else s.stage u :=
    stage_setOutside
  refine { h with way := fun u => ?_, listed := fun u => ?_ }
  · rw [hstage]
    refine (h.way u).trans ?_
    split
    next heq => simp [heq, hin.1]
    · rfl
  · rw [hstage]
    refine (h.listed u).trans ?_
    split
    next heq => simp [heq, hin.2]
    · rfl

theorem Lists.grants (h : s.Lists) {resumed : List Tid} {cond : Cond}
    (hresumed : ∀ u ∈ resumed, s.stage u = some .blocked)
    (hlisted : ∀ u, u ∈ cond.suspendThread ↔ u ∈ s.cond.suspendThread ∧ u ∉ resumed)
    (hnodup : cond.suspendThread.Nodup) (htokens : 0 < cond.value → cond.suspendThread = [])
    (hsmall : cond.value < 65536) :
    (resumed.foldl grant { s with cond := cond }).Lists := by
  have hstage (u : Tid) : (resumed.foldl grant { s with cond := cond }).stage u =
      if u ∈ resumed then (s.stage u).map fun _ => .granted else s.stage u := stage_grants resumed
  rw [grants_eq] at hstage ⊢
  refine ⟨fun u => ?_, h.wayNodup, fun u => ?_, hnodup, htokens, hsmall, h.waits, h.subset, h.nodup⟩
  · rw [hstage]
    refine (h.way u).trans ?_
    split
    next hmem => simp [hresumed u hmem]
    · rfl
  · rw [hstage]
    refine (hlisted u).trans ?_
    rw [h.listed]
    split
    next hmem => simp [hresumed u hmem, hmem]
    next hfree => simp [hfree]

theorem signal_of_nobody (hlist : s.cond.suspendThread = []) (hway : s.onWay = []) :
    s.pthreadCondSignal = { s with cond := ⟨inc16 s.cond.value, []⟩ } := by
  simp [pthreadCondSignal, Cond.release, someWait, hlist, hway]

theorem signal_of_way (hlist : s.cond.suspendThread = []) (hway : s.onWay ≠ []) :
    s.pthreadCondSignal =
      { s with
        cond := ⟨inc16 s.cond.value, []⟩
        signalled := s.onWay :: s.signalled
        without := inc16 s.without } := by
  simp [pthreadCondSignal, Cond.release, someWait, hlist, hway]

theorem signal_of_cons {rest : List Tid} (hlist : s.cond.suspendThread = t :: rest) :
    s.pthreadCondSignal = { s with cond := ⟨s.cond.value, rest⟩ }.grant t := by
  simp only [pthreadCondSignal, Cond.release, hlist]

theorem Lists.signal (h : s.Lists) : s.pthreadCondSignal.Lists := by
  have hsmall : inc16 s.cond.value < 65536 := Nat.mod_lt _ (by decide)
  rcases hlist : s.cond.suspendThread with _ | ⟨t, rest⟩
  · have hlisted (u : Tid) : u ∈ [] ↔ s.stage u = some .blocked := hlist ▸ h.listed u
    by_cases hway : s.onWay = []
    · rw [signal_of_nobody hlist hway]
      exact ⟨h.way, h.wayNodup, hlisted, List.nodup_nil, fun _ => rfl, hsmall, h.waits, h.subset,
        h.nodup⟩
    · rw [signal_of_way hlist hway]
      refine ⟨h.way, h.wayNodup, hlisted, List.nodup_nil, fun _ => rfl, hsmall, ?_, h.subset,
        h.nodup⟩
      intro waits hmem
      rcases List.mem_cons.mp hmem with rfl | hmem
      · exact ⟨hway, List.Subset.refl _⟩
      · exact h.waits waits hmem
  · rw [signal_of_cons hlist]
    have hnodup := hlist ▸ h.listNodup
    obtain ⟨hfree, hrest⟩ := List.nodup_cons.mp hnodup
    have hlisted (u : Tid) : u ∈ rest ↔ u ∈ s.cond.suspendThread ∧ u ∉ [t] := by
      rw [hlist, List.mem_cons, List.mem_singleton]
      constructor
      · exact fun hmem => ⟨.inr hmem, fun heq => hfree (heq ▸ hmem)⟩
      · exact fun hmem => hmem.1.resolve_left hmem.2
    have htokens (hpos : 0 < s.cond.value) : rest = [] := by
      have hempty := h.tokens hpos
      rw [hlist] at hempty
      cases hempty
    have hresumed (u : Tid) (hmem : u ∈ [t]) : s.stage u = some .blocked := by
      rw [← h.listed, hlist, List.mem_singleton.mp hmem]
      exact List.mem_cons_self
    exact h.grants hresumed hlisted hrest htokens h.small

theorem broadcast_eq (h : s.Lists) :
    s.pthreadCondBroadcast =
      s.cond.suspendThread.foldl grant
        { s with
          cond := ⟨max s.cond.value 1, []⟩
          broadcasted := s.onWay
          without := if s.someWait then max s.without 1 else s.without } := by
  simp only [pthreadCondBroadcast, Cond.broadcast_of_tokens h.tokens h.small]

theorem Lists.broadcast (h : s.Lists) : s.pthreadCondBroadcast.Lists := by
  rw [broadcast_eq h]
  have hmarked : Lists { s with
      broadcasted := s.onWay
      without := if s.someWait then max s.without 1 else s.without } :=
    ⟨h.way, h.wayNodup, h.listed, h.listNodup, h.tokens, h.small, h.waits, List.Subset.refl _,
      h.wayNodup⟩
  refine hmarked.grants (fun u => (h.listed u).mp) (fun u => ?_) List.nodup_nil (fun _ => rfl) ?_
  · exact ⟨(nomatch ·), fun hmem => absurd hmem.1 hmem.2⟩
  · have hsmall := h.small
    show max s.cond.value 1 < 65536
    omega

theorem Initial.law (h : s.Initial) : s.Law where
  signals := by
    rw [h.signalled]
    exact fun _ hmem => nomatch hmem
  broadcasts := by
    rw [h.broadcasted]
    exact ⟨List.nil_subset _, Nat.zero_le _⟩
  kept := h.without ▸ Nat.zero_le _

theorem Law.without_token (h : s.Law) (hzero : ¬ 0 < s.cond.value) :
    s.signalled = [] ∧ s.broadcasted = [] ∧ s.without = 0 := by
  have hkept := h.kept
  have hlength := h.broadcasts.2
  refine ⟨List.eq_nil_iff_forall_not_mem.mpr fun waits hmem => hzero (h.signals waits hmem).1,
    List.eq_nil_of_length_eq_zero ?_, ?_⟩
  · omega
  · omega

theorem Law.without_way (h : s.Law) (hway : s.onWay = []) :
    s.signalled = [] ∧ s.broadcasted = [] := by
  constructor
  · refine List.eq_nil_iff_forall_not_mem.mpr fun waits hmem => ?_
    obtain ⟨-, t, -, ht⟩ := h.signals waits hmem
    rw [hway] at ht
    cases ht
  · have hsubset := h.broadcasts.1
    rw [hway] at hsubset
    exact List.eq_nil_of_subset_nil hsubset

theorem Law.startWait (h : s.Law) : (s.startWait t timed).Law where
  signals waits hmem := by
    obtain ⟨hpos, u, hu, hway⟩ := h.signals waits hmem
    exact ⟨hpos, u, hu, List.mem_cons_of_mem t hway⟩
  broadcasts := ⟨List.Subset.trans h.broadcasts.1 (List.subset_cons_self t s.onWay), h.broadcasts.2⟩
  kept := h.kept

theorem Law.leave (h : s.Law) (hlists : s.Lists) (phase : CondPhase) (cond : Cond)
    (hvalue : cond.value = s.cond.value) :
    Law { (s.setPhase t phase).leaveWay t with cond := cond } where
  signals waits hmem := by
    obtain ⟨hmem, hfree⟩ := List.mem_filter.mp hmem
    rw [decide_eq_true_eq] at hfree
    obtain ⟨hpos, u, hu, hway⟩ := h.signals waits hmem
    have hne : u ≠ t := fun heq => hfree (heq ▸ hu)
    exact ⟨hvalue ▸ hpos, u, hu, hlists.wayNodup.mem_erase_iff.mpr ⟨hne, hway⟩⟩
  broadcasts := by
    refine ⟨fun u hmem => ?_, ?_⟩
    · obtain ⟨hne, hmem⟩ := hlists.nodup.mem_erase_iff.mp hmem
      exact hlists.wayNodup.mem_erase_iff.mpr ⟨hne, h.broadcasts.1 hmem⟩
    · show (s.broadcasted.erase t).length ≤ cond.value
      have hless := List.length_erase_le (a := t) (l := s.broadcasted)
      have hlength := h.broadcasts.2
      omega
  kept := hvalue ▸ h.kept

theorem dec16_of_pos {n : Nat} (hpos : 0 < n) : dec16 n = n - 1 := if_neg (Nat.ne_of_gt hpos)

theorem Law.take (h : s.Law) (hlists : s.Lists) (hpos : 0 < s.cond.value) (hwithout : 0 < s.without)
    (hsignals : (∃ waits ∈ s.signalled, t ∉ waits) → 1 < s.cond.value)
    (hbroadcasts : t ∉ s.broadcasted → s.broadcasted.length < s.cond.value) :
    (s.semTake t timed).Law := by
  rw [semTake_of_token hpos]
  have hleft := h.leave (t := t) hlists (.wait timed .granted) s.cond rfl
  refine ⟨fun waits hmem => ⟨?_, (hleft.signals waits hmem).2⟩, ⟨hleft.broadcasts.1, ?_⟩, ?_⟩
  · show 0 < dec16 s.cond.value
    obtain ⟨hmem, hfree⟩ := List.mem_filter.mp hmem
    rw [decide_eq_true_eq] at hfree
    have hmore := hsignals ⟨waits, hmem, hfree⟩
    rw [dec16_of_pos hpos]
    omega
  · show (s.broadcasted.erase t).length ≤ dec16 s.cond.value
    rw [dec16_of_pos hpos]
    have hlength := h.broadcasts.2
    by_cases hmem : t ∈ s.broadcasted
    · rw [List.length_erase_of_mem hmem]
      omega
    · rw [List.erase_of_not_mem hmem]
      have hmore := hbroadcasts hmem
      omega
  · show dec16 s.without ≤ dec16 s.cond.value
    rw [dec16_of_pos hpos, dec16_of_pos hwithout]
    have hkept := h.kept
    omega

theorem Law.of_take (h : (s.semTake t timed).Law) (hpos : 0 < s.cond.value) :
    ((∃ waits ∈ s.signalled, t ∉ waits) → 1 < s.cond.value) ∧
      (t ∉ s.broadcasted → s.broadcasted.length < s.cond.value) := by
  rw [semTake_of_token hpos] at h
  constructor
  · rintro ⟨waits, hmem, hfree⟩
    have hsome : 0 < dec16 s.cond.value :=
      (h.signals waits (List.mem_filter.mpr ⟨hmem, decide_eq_true hfree⟩)).1
    rw [dec16_of_pos hpos] at hsome
    omega
  · intro hmem
    have hlength : (s.broadcasted.erase t).length ≤ dec16 s.cond.value := h.broadcasts.2
    rw [dec16_of_pos hpos, List.erase_of_not_mem hmem] at hlength
    omega

theorem Law.endWait (h : s.Law) (result : Int) : (s.endWait t result).Law :=
  ⟨h.signals, h.broadcasts, h.kept⟩

theorem Law.resume (h : s.Law) (cond : Cond) (hvalue : cond.value = s.cond.value) :
    (grant { s with cond := cond } t).Law := by
  unfold grant
  split
  · exact ⟨hvalue ▸ h.signals, hvalue ▸ h.broadcasts, hvalue ▸ h.kept⟩
  · exact ⟨hvalue ▸ h.signals, hvalue ▸ h.broadcasts, hvalue ▸ h.kept⟩

theorem Law.signal_iff (h : s.Law) (hlists : s.Lists) (hlist : s.cond.suspendThread = []) :
    s.pthreadCondSignal.Law ↔ (s.cond.value = 65535 → s.onWay = [] ∧ s.without = 0) := by
  have hsmall := hlists.small
  have hkept := h.kept
  have hlength := h.broadcasts.2
  have hvalue : s.cond.value = 65535 ∧ inc16 s.cond.value = 0 ∨
      s.cond.value < 65535 ∧ inc16 s.cond.value = s.cond.value + 1 := by
    unfold inc16
    omega
  by_cases hway : s.onWay = []
  · rw [signal_of_nobody hlist hway]
    obtain ⟨hsignalled, hbroadcasted⟩ := h.without_way hway
    constructor
    · intro hlaw hfull
      have hzero : s.without ≤ inc16 s.cond.value := hlaw.kept
      exact ⟨hway, by omega⟩
    · intro hproper
      refine ⟨fun waits hmem => ?_, ⟨h.broadcasts.1, ?_⟩, ?_⟩
      · rw [hsignalled] at hmem
        cases hmem
      · rw [hbroadcasted]
        exact Nat.zero_le _
      · show s.without ≤ inc16 s.cond.value
        rcases hvalue with ⟨hfull, -⟩ | ⟨-, hnext⟩
        · have hnone := (hproper hfull).2
          omega
        · omega
  · rw [signal_of_way hlist hway]
    constructor
    · intro hlaw hfull
      have hpos : 0 < inc16 s.cond.value := (hlaw.signals s.onWay List.mem_cons_self).1
      omega
    · intro hproper
      have hnext : inc16 s.cond.value = s.cond.value + 1 :=
        (hvalue.resolve_left fun hfull => hway (hproper hfull.1).1).2
      refine ⟨fun waits hmem => ⟨?_, ?_⟩, ⟨h.broadcasts.1, ?_⟩, ?_⟩
      · exact hnext ▸ Nat.succ_pos _
      · rcases List.mem_cons.mp hmem with rfl | hmem
        · exact (List.exists_mem_of_ne_nil s.onWay hway).imp fun t ht => ⟨ht, ht⟩
        · exact (h.signals waits hmem).2
      · show s.broadcasted.length ≤ inc16 s.cond.value
        omega
      · show inc16 s.without ≤ inc16 s.cond.value
        have hless : inc16 s.without ≤ s.without + 1 := Nat.mod_le _ _
        omega

theorem Law.broadcast_iff (h : s.Law) (hlists : s.Lists) :
    s.pthreadCondBroadcast.Law ↔ s.onWay.length ≤ max s.cond.value 1 := by
  rw [broadcast_eq hlists, grants_eq]
  have hkept := h.kept
  constructor
  · exact fun hlaw => hlaw.broadcasts.2
  · intro hlength
    refine ⟨fun waits hmem => ⟨?_, (h.signals waits hmem).2⟩, ⟨List.Subset.refl _, hlength⟩, ?_⟩
    · show 0 < max s.cond.value 1
      omega
    · show (if s.someWait then max s.without 1 else s.without) ≤ max s.cond.value 1
      split <;> omega

theorem exec_wait {op : CondOp} (hexec : s.exec op = some s') :
    (∃ t timed, (op = .wait t ∨ op = .timedwait t) ∧ s.phase t = .outside ∧
      s' = s.startWait t timed) ∨
    (∃ t timed, op = .semTake t ∧ s.stage t = some .unlocked ∧ s' = s.semTake t timed) ∨
    (∃ t, op = .timeout t ∧ s.stage t ≠ some .granted ∧ s' = s.semLeave t) ∨
    (∃ t, op = .endWait t ∧ s.stage t = some .granted ∧ s' = s.endWait t 0) ∨
    (∃ t result, op = .endWait t ∧ s.stage t = some (.failed result) ∧ s' = s.endWait t result) ∨
    (op = .signal ∧ s' = s.pthreadCondSignal) ∨
    (op = .broadcast ∧ s' = s.pthreadCondBroadcast) := by
  cases op with
  | wait t =>
    simp only [exec] at hexec
    split at hexec
    next hphase => exact .inl ⟨t, false, .inl rfl, hphase, (Option.some.inj hexec).symm⟩
    · cases hexec
  | timedwait t =>
    simp only [exec] at hexec
    split at hexec
    next hphase => exact .inl ⟨t, true, .inr rfl, hphase, (Option.some.inj hexec).symm⟩
    · cases hexec
  | semTake t =>
    simp only [exec] at hexec
    split at hexec
    next timed hphase =>
      exact .inr (.inl ⟨t, timed, rfl, stage_of_phase hphase, (Option.some.inj hexec).symm⟩)
    · cases hexec
  | timeout t =>
    simp only [exec] at hexec
    have hleave {stage : Stage} (hphase : s.phase t = .wait true stage) (hne : stage ≠ .granted)
        (hexec : some (s.semLeave t) = some s') :
        ∃ u, CondOp.timeout t = .timeout u ∧ s.stage u ≠ some .granted ∧ s' = s.semLeave u := by
      refine ⟨t, rfl, ?_, (Option.some.inj hexec).symm⟩
      rw [stage_of_phase hphase]
      exact fun h => hne (Option.some.inj h)
    split at hexec
    next hphase => exact .inr (.inr (.inl (hleave hphase nofun hexec)))
    next hphase =>
      split at hexec
      · exact .inr (.inr (.inl (hleave hphase nofun hexec)))
      · cases hexec
    · cases hexec
  | endWait t =>
    simp only [exec] at hexec
    split at hexec
    next hphase =>
      exact .inr (.inr (.inr (.inl
        ⟨t, rfl, stage_of_phase hphase, (Option.some.inj hexec).symm⟩)))
    next result hphase =>
      exact .inr (.inr (.inr (.inr (.inl
        ⟨t, result, rfl, stage_of_phase hphase, (Option.some.inj hexec).symm⟩))))
    · cases hexec
  | signal =>
    exact .inr (.inr (.inr (.inr (.inr (.inl ⟨rfl, (Option.some.inj hexec).symm⟩)))))
  | broadcast =>
    exact .inr (.inr (.inr (.inr (.inr (.inr ⟨rfl, (Option.some.inj hexec).symm⟩)))))

theorem Lists.step (h : s.Lists) {op : CondOp} (hexec : s.exec op = some s') : s'.Lists := by
  rcases exec_wait hexec with ⟨t, timed, -, hphase, rfl⟩ | ⟨t, timed, -, hstage, rfl⟩ |
    ⟨t, -, -, rfl⟩ | ⟨t, -, hstage, rfl⟩ | ⟨t, result, -, hstage, rfl⟩ | ⟨-, rfl⟩ | ⟨-, rfl⟩
  · exact h.startWait hphase
  · exact h.semTake hstage
  · exact h.semLeave
  · exact h.endWait (by rw [hstage]; exact ⟨nofun, nofun⟩) 0
  · exact h.endWait (by rw [hstage]; exact ⟨nofun, nofun⟩) result
  · exact h.signal
  · exact h.broadcast

theorem granted_of_other {x : Option Stage}
    (hstage : ∀ u, s'.stage u = if u = t then x else s.stage u)
    (hne : s.stage t ≠ some .granted) (hgranted : s.stage u = some .granted) :
    s'.stage u = some .granted := by
  have hother : u ≠ t := fun heq => hne (heq ▸ hgranted)
  rw [hstage, if_neg hother]
  exact hgranted

theorem stage_semTake (timed : Bool) :
    (s.semTake t timed).stage u =
      if u = t then some (if 0 < s.cond.value then .granted else .blocked) else s.stage u := by
  by_cases hpos : 0 < s.cond.value
  · rw [semTake_of_token hpos, if_pos hpos]
    exact stage_setPhase
  · rw [semTake_of_none hpos, if_neg hpos]
    exact stage_setPhase

theorem stage_signal (h : s.Lists) :
    s.pthreadCondSignal.stage u =
      if u ∈ s.cond.suspendThread.head? then some .granted else s.stage u := by
  rcases hlist : s.cond.suspendThread with _ | ⟨t, rest⟩
  · by_cases hway : s.onWay = []
    · rw [signal_of_nobody hlist hway]
      rfl
    · rw [signal_of_way hlist hway]
      rfl
  · have hblocked : s.stage t = some .blocked := by
      rw [← h.listed, hlist]
      exact List.mem_cons_self
    rw [signal_of_cons hlist]
    refine stage_grant.trans ?_
    show (if u = t then (s.stage t).map fun _ => Stage.granted else s.stage u) = _
    rw [hblocked]
    simp [eq_comm]

theorem stage_broadcast (h : s.Lists) :
    s.pthreadCondBroadcast.stage u =
      if s.stage u = some .blocked then some .granted else s.stage u := by
  rw [broadcast_eq h, stage_grants]
  show (if u ∈ s.cond.suspendThread then (s.stage u).map fun _ => Stage.granted else s.stage u) = _
  simp only [h.listed]
  split
  next hblocked => rw [hblocked, Option.map_some]
  · rfl

theorem Lists.stepLaw_semTake (h : s.Lists) (hlaw : s.Law) (hstage : s.stage t = some .unlocked) :
    s.StepLaw (.semTake t) (s.semTake t timed) ↔ s.Proper (.semTake t) := by
  have hother (u : Tid) (hu : s.stage u = some .granted) :
      (s.semTake t timed).stage u = some .granted := by
    refine granted_of_other (fun u => stage_semTake _) ?_ hu
    rw [hstage]
    exact nofun
  have hself : (s.semTake t timed).stage t =
      some (if 0 < s.cond.value then .granted else .blocked) := by
    rw [stage_semTake, if_pos rfl]
  by_cases hpos : 0 < s.cond.value
  · rw [if_pos hpos] at hself
    constructor
    · exact fun ⟨hlaw', _, hsame⟩ _ => ⟨hsame.mp hself, hlaw'.of_take hpos⟩
    · intro hproper
      obtain ⟨hwithout, hsignals, hbroadcasts⟩ := hproper hpos
      exact ⟨hlaw.take h hpos hwithout hsignals hbroadcasts, fun u hu => .inl (hother u hu),
        fun _ => hwithout, fun _ => hself⟩
  · rw [if_neg hpos] at hself
    refine ⟨fun _ hpos' => absurd hpos' hpos, fun _ => ⟨?_, fun u hu => .inl (hother u hu), ?_⟩⟩
    · rw [semTake_of_none hpos]
      exact hlaw.leave h _ ⟨s.cond.value, s.cond.suspendThread ++ [t]⟩ rfl
    · show _ = _ ↔ _
      rw [hself, (hlaw.without_token hpos).2.2]
      exact ⟨(nomatch ·), (absurd · (Nat.lt_irrefl 0))⟩

theorem Lists.stepLaw_signal (h : s.Lists) (hlaw : s.Law) :
    s.StepLaw .signal s.pthreadCondSignal ↔ s.Proper .signal := by
  have hother (u : Tid) (hu : s.stage u = some .granted) :
      s.pthreadCondSignal.stage u = some .granted := by
    rw [stage_signal h, hu, ite_self]
  have hreached : (∃ t, s.stage t = some .blocked) →
      ∃ t, s.stage t = some .blocked ∧ s.pthreadCondSignal.stage t = some .granted := by
    rintro ⟨t, ht⟩
    obtain ⟨first, rest, hlist⟩ :=
      List.exists_cons_of_ne_nil (List.ne_nil_of_mem ((h.listed t).mpr ht))
    have hfirst : first ∈ s.cond.suspendThread := hlist ▸ List.mem_cons_self
    refine ⟨first, (h.listed first).mp hfirst, ?_⟩
    rw [stage_signal h, hlist]
    exact if_pos rfl
  have hiff : s.pthreadCondSignal.Law ↔ s.Proper .signal := by
    rcases hlist : s.cond.suspendThread with _ | ⟨t, rest⟩
    · exact (hlaw.signal_iff h hlist).trans ⟨fun h _ => h, fun h => h hlist⟩
    · refine ⟨fun _ hnil => ?_, fun _ => ?_⟩
      · rw [hlist] at hnil
        cases hnil
      · rw [signal_of_cons hlist]
        exact hlaw.resume ⟨s.cond.value, rest⟩ rfl
  exact ⟨fun h => hiff.mp h.1, fun hproper =>
    ⟨hiff.mpr hproper, fun u hu => .inl (hother u hu), hreached⟩⟩

theorem Lists.stepLaw_broadcast (h : s.Lists) (hlaw : s.Law) :
    s.StepLaw .broadcast s.pthreadCondBroadcast ↔ s.Proper .broadcast := by
  have hother (u : Tid) (hu : s.stage u = some .granted) :
      s.pthreadCondBroadcast.stage u = some .granted := by
    rw [stage_broadcast h, hu]
    rfl
  have hreached (u : Tid) (hu : s.stage u = some .blocked) :
      s.pthreadCondBroadcast.stage u = some .granted := by
    rw [stage_broadcast h, if_pos hu]
  have hiff := hlaw.broadcast_iff h
  exact ⟨fun h => hiff.mp h.1, fun hproper =>
    ⟨hiff.mpr hproper, fun u hu => .inl (hother u hu), hreached⟩⟩

theorem Lists.stepLaw_iff (h : s.Lists) (hlaw : s.Law) {op : CondOp} (hexec : s.exec op = some s') :
    s.StepLaw op s' ↔ s.Proper op := by
  rcases exec_wait hexec with ⟨t, timed, hop, hphase, rfl⟩ | ⟨t, timed, rfl, hstage, rfl⟩ |
    ⟨t, rfl, hstage, rfl⟩ | ⟨t, rfl, hstage, rfl⟩ | ⟨t, result, rfl, hstage, rfl⟩ | ⟨rfl, rfl⟩ |
    ⟨rfl, rfl⟩
  · have hgranted (u : Tid) (hu : s.stage u = some .granted) :
        (s.startWait t timed).stage u = some .granted := by
      refine granted_of_other (fun u => stage_setPhase) ?_ hu
      rw [stage_of_outside hphase]
      exact nofun
    rcases hop with rfl | rfl
    · exact ⟨fun _ => trivial, fun _ =>
        ⟨hlaw.startWait, fun u hu => .inl (hgranted u hu), trivial⟩⟩
    · exact ⟨fun _ => trivial, fun _ =>
        ⟨hlaw.startWait, fun u hu => .inl (hgranted u hu), trivial⟩⟩
  · exact h.stepLaw_semTake hlaw hstage
  · have hother (u : Tid) (hu : s.stage u = some .granted) :
        (s.semLeave t).stage u = some .granted :=
      granted_of_other (fun u => stage_setPhase) hstage hu
    have hlaw' : (s.semLeave t).Law :=
      hlaw.leave h _ ⟨s.cond.value, listRemove t s.cond.suspendThread⟩ rfl
    exact ⟨fun _ => trivial, fun _ => ⟨hlaw', fun u hu => .inl (hother u hu), trivial⟩⟩
  · refine ⟨fun _ => trivial, fun _ => ⟨hlaw.endWait 0, fun u hu => ?_, trivial⟩⟩
    by_cases heq : u = t
    · exact .inr ⟨heq ▸ rfl, heq ▸ rfl⟩
    · refine .inl ?_
      have hsame : (s.endWait t 0).stage u = if u = t then none else s.stage u := stage_setOutside
      rwa [hsame, if_neg heq]
  · have hother (u : Tid) (hu : s.stage u = some .granted) :
        (s.endWait t result).stage u = some .granted := by
      refine granted_of_other (fun u => stage_setOutside) ?_ hu
      rw [hstage]
      exact nofun
    exact ⟨fun _ => trivial, fun _ =>
      ⟨hlaw.endWait result, fun u hu => .inl (hother u hu), trivial⟩⟩
  · exact h.stepLaw_signal hlaw
  · exact h.stepLaw_broadcast hlaw

instance (s : CondVar) (op : CondOp) : Decidable (s.Proper op) :=
  match op with
  | .wait _ | .timedwait _ => .isTrue trivial
  | .semTake _ => inferInstanceAs (Decidable (_ → _ ∧ _ ∧ (_ → _)))
  | .timeout _ | .endWait _ => .isTrue trivial
  | .signal => inferInstanceAs (Decidable (_ → _ → _ ∧ _))
  | .broadcast => inferInstanceAs (Decidable (_ ≤ _))

end CondVar

/-- Proper steps bring every signal and broadcast to the waits it is meant for, and no other step
does; `pthread_cond_broadcast` ends in any case. -/
theorem reachable_wakeups {s : CondVar} (hreach : condMachine.Reachable Proper s) :
    (s.Law ∧ ∀ op s', condMachine.exec s op = some s' → (s.StepLaw op s' ↔ s.Proper op)) ∧
      ∀ cond : Cond, Cond.broadcastLoop (cond.suspendThread.length + 2) cond =
        some (Cond.broadcast cond.value cond.suspendThread) := by
  have hinv : s.Lists ∧ s.Law := by
    refine hreach.invariant (fun s => s.Lists ∧ s.Law)
      (fun _ (h : Initial _) => ⟨h.lists, h.law⟩) ?_
    exact fun s op s' hinv hproper hexec =>
      ⟨hinv.1.step hexec, ((hinv.1.stepLaw_iff hinv.2 hexec).mpr hproper).1⟩
  exact ⟨⟨hinv.2, fun _ _ hexec => hinv.1.stepLaw_iff hinv.2 hexec⟩, Cond.broadcastLoop_eq⟩

def condCreated : CondVar where
  cond := ⟨0, []⟩
  phase _ := .outside
  returned := none
  onWay := []
  signalled := []
  broadcasted := []
  without := 0

theorem condCreated_initial : condCreated.Initial := ⟨rfl, fun _ => rfl, rfl, rfl, rfl, rfl⟩

theorem reachable_wakeups_signalled :
    ∃ s, condMachine.Reachable Proper s ∧ s.returned = some (1, 0) ∧ s.Law ∧
      ∀ s', condMachine.exec s .signal = some s' → s.StepLaw .signal s' := by
  have hrun : (condMachine.run Proper condCreated
      [.wait 1, .wait 2, .semTake 2, .signal, .signal, .semTake 1, .endWait 2, .endWait 1]).map
      (fun s => (s.returned, decide (s.Proper .signal))) = some (some (1, 0), true) := by
    decide +kernel
  obtain ⟨s, hreach, hvalue⟩ := Machine.exists_reachable_of_run condCreated_initial hrun
  simp only [Prod.mk.injEq, decide_eq_true_eq] at hvalue
  have hlaws := (reachable_wakeups hreach).1
  exact ⟨s, hreach, hvalue.1, hlaws.1, fun s' hexec => (hlaws.2 _ s' hexec).mpr hvalue.2⟩

/-- A signal with nobody waiting lets the next wait through. -/
theorem storedSignal_not_stepLaw :
    ∃ s, condMachine.Reachable (fun _ _ => True) s ∧
      ∃ s', condMachine.exec s (.semTake 1) = some s' ∧ s'.stage 1 = some .granted ∧
        ¬ s.StepLaw (.semTake 1) s' := by
  have hrun : (condMachine.run (fun _ _ => True) condCreated [.signal, .wait 1]).map
      (fun s => (s.without, (s.exec (.semTake 1)).map fun s' => s'.stage 1)) =
        some (0, some (some .granted)) := by
    decide +kernel
  obtain ⟨s, hreach, hvalue⟩ := Machine.exists_reachable_of_run condCreated_initial hrun
  obtain ⟨hwithout, htaken⟩ := Prod.mk.inj hvalue
  obtain ⟨s', hexec, hgranted⟩ := Option.map_eq_some_iff.mp htaken
  refine ⟨s, hreach, s', hexec, hgranted, fun h => ?_⟩
  have hpos : 0 < s.without := h.2.2.mp hgranted
  rw [hwithout] at hpos
  exact Nat.lt_irrefl 0 hpos

end RtThread.Pthreads
