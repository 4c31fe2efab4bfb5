import RtThread.Scheduler.Live
import RtThread.Scheduler.Wakeup
import Mathlib.Data.List.Nodup

namespace RtThread.Scheduler

open Function RtThread.Lib WakeSystem

namespace WakeSystem

/-- No call of `rt_thread_resume` for `t` is under way. -/
def NoWaker (s : WakeSystem) (t : Tid) : Prop := t ∉ s.calls.map Prod.fst

structure Inv (cfg : Config) (s : WakeSystem) : Prop where
  placed : Placed cfg s.kernel
  unrepeated : s.kernel.Unrepeated
  waiting : ∀ t, s.waiting t = true → (s.kernel.thread t).stat = .suspend
  timer : ∀ t, (s.kernel.thread t).timerActive = true → (s.kernel.thread t).stat = .suspend
  calls : ∀ t stage, (t, stage) ∈ s.calls → (s.kernel.thread t).stat = .suspend
  unlinked : ∀ t, (t, .unlinked) ∈ s.calls →
    s.waiting t = false ∧ (s.kernel.thread t).timerActive = false
  nodup : (s.calls.map Prod.fst).Nodup
  count : ∀ t, s.suspensions t = s.wakes t + if (s.kernel.thread t).stat = .suspend then 1 else 0
  clean : s.relinked = false

section Steps

variable {cfg : Config} {s s' : WakeSystem} {c : Nat} {t : Tid}

theorem setThread_field {α : Type} (f : Thread → α) {k : Kernel} {thread : Thread}
    (hsame : f thread = f (k.thread t)) (u : Tid) :
    f ((k.setThread t thread).thread u) = f (k.thread u) := by
  by_cases hut : u = t
  · rw [hut, Kernel.setThread_thread, update_self, hsame]
  · rw [Kernel.setThread_thread, update_of_ne hut]

theorem Inv.withResult (hinv : s.Inv cfg) (result : Option Int) : Inv cfg { s with result } :=
  ⟨hinv.placed, hinv.unrepeated, hinv.waiting, hinv.timer, hinv.calls, hinv.unlinked, hinv.nodup,
    hinv.count, hinv.clean⟩

theorem Inv.withKernel (hinv : s.Inv cfg) (hc : c < cfg.cpusNr) {k : Kernel}
    (hhand : Handover cfg c s.kernel k) : (s.withKernel k).Inv cfg := by
  have hstat : ∀ t, (k.thread t).stat = (s.kernel.thread t).stat :=
    fun t => (hhand.wait t).stat
  have htimer : ∀ t, (k.thread t).timerActive = (s.kernel.thread t).timerActive :=
    fun t => (hhand.wait t).timerActive
  refine ⟨hinv.placed.handover hc hhand, hhand.unrepeated hinv.unrepeated, fun t ht => ?_,
    fun t ht => ?_, fun t stage ht => ?_, fun t ht => ?_, hinv.nodup, fun t => ?_, hinv.clean⟩
  · exact (hstat t).trans (hinv.waiting t ht)
  · exact (hstat t).trans (hinv.timer t ((htimer t).symm.trans ht))
  · exact (hstat t).trans (hinv.calls t stage ht)
  · exact ⟨(hinv.unlinked t ht).1, (htimer t).trans (hinv.unlinked t ht).2⟩
  · show s.suspensions t = s.wakes t + if (k.thread t).stat = .suspend then 1 else 0
    rw [hstat]
    exact hinv.count t

theorem rtThreadSuspend_unrepeated {k k' : Kernel} {code : Int} (honce : k.Unrepeated)
    (hexec : rtThreadSuspend cfg c t k = some (code, k')) : k'.Unrepeated := by
  unfold rtThreadSuspend at hexec
  split at hexec
  · cases hexec
    exact honce
  · split at hexec
    · cases hexec
    · cases hexec
      have hmarked : (k.setThread t { k.thread t with stat := .suspend }).Unrepeated :=
        honce.of_queue rfl
      exact (hmarked.removeThread t).of_queue rfl

theorem Inv.suspend (hinv : s.Inv cfg) {onList timed : Bool}
    (hexec : s.suspend cfg c t onList timed = some s') : s'.Inv cfg := by
  obtain ⟨⟨code, k⟩, hsuspend, rfl⟩ := Option.map_eq_some_iff.mp hexec
  rcases rtThreadSuspend_cases hsuspend with ⟨rfl, rfl⟩ | ⟨rfl, hready, -, hcpu, hlinks, hthread⟩
  · simp only
    rw [if_neg (by decide)]
    exact hinv.withResult _
  · simp only [if_true]
    have hother : ∀ u, u ≠ t → (update k.thread t
        { k.thread t with timerActive := timed }) u = s.kernel.thread u := by
      intro u hu
      rw [update_of_ne hu, hthread, update_of_ne hu]
    have hself : (update k.thread t { k.thread t with timerActive := timed }) t =
        { s.kernel.thread t with stat := .suspend, timerActive := timed } := by
      rw [update_self, hthread, update_self]
    have hne : ∀ u stage, (u, stage) ∈ s.calls → u ≠ t := by
      rintro u stage hmem rfl
      have hsuspended := hinv.calls u stage hmem
      rw [hready] at hsuspended
      cases hsuspended
    refine ⟨?_, (rtThreadSuspend_unrepeated hinv.unrepeated hsuspend).of_queue rfl, fun u hu => ?_,
      fun u hu => ?_, fun u stage hu => ?_, fun u hu => ?_, hinv.nodup, fun u => ?_, hinv.clean⟩
    · refine hinv.placed.of_linked (fun c' => by simp [hcpu]) (fun u => ?_) (fun u hu => ?_)
      · by_cases hu : u = t
        · subst hu
          simp only [Kernel.setThread_thread, hself]
        · simp only [Kernel.setThread_thread, hother u hu]
      · obtain ⟨hlinked, hu⟩ := (hlinks u).mp hu
        exact ⟨hlinked, by simp only [Kernel.setThread_thread, hother u hu]⟩
    · by_cases hut : u = t
      · subst hut
        simp only [Kernel.setThread_thread, hself]
      · simp only [Kernel.setThread_thread, hother u hut]
        exact hinv.waiting u (by simpa [hut] using hu)
    · by_cases hut : u = t
      · subst hut
        simp only [Kernel.setThread_thread, hself]
      · simp only [Kernel.setThread_thread, hother u hut] at hu ⊢
        exact hinv.timer u hu
    · simp only [Kernel.setThread_thread, hother u (hne u stage hu)]
      exact hinv.calls u stage hu
    · have hut := hne u _ hu
      simp only [Kernel.setThread_thread, hother u hut, update_of_ne hut]
      exact hinv.unlinked u hu
    · by_cases hut : u = t
      · subst hut
        have hcount := hinv.count u
        simp only [hready, reduceCtorEq, if_false, Nat.add_zero] at hcount
        simp only [Kernel.setThread_thread, hself, update_self, hcount, if_true]
      · simp only [Kernel.setThread_thread, hother u hut, update_of_ne hut]
        exact hinv.count u

theorem Inv.woken (hinv : s.Inv cfg) (hsuspend : (s.kernel.thread t).stat = .suspend)
    (hplaced : Placed cfg s'.kernel) (honce : s'.kernel.Unrepeated)
    (hother : ∀ u, u ≠ t → (s'.kernel.thread u).stat = (s.kernel.thread u).stat ∧
      (s'.kernel.thread u).timerActive = (s.kernel.thread u).timerActive)
    (hready : (s'.kernel.thread t).stat = .ready)
    (htimer : (s'.kernel.thread t).timerActive = false)
    (hwaiting : s'.waiting = update s.waiting t false)
    (hcalls : ∀ e ∈ s'.calls, e ∈ s.calls ∧ e.1 ≠ t)
    (hnodup : (s'.calls.map Prod.fst).Nodup)
    (hsuspensions : s'.suspensions = s.suspensions)
    (hwakes : s'.wakes = update s.wakes t (s.wakes t + 1))
    (hclean : s'.relinked = false) : s'.Inv cfg := by
  refine ⟨hplaced, honce, fun u hu => ?_, fun u hu => ?_, fun u stage hu => ?_, fun u hu => ?_,
    hnodup, fun u => ?_, hclean⟩
  · rw [hwaiting] at hu
    have hut : u ≠ t := by
      rintro rfl
      simp at hu
    rw [update_of_ne hut] at hu
    exact (hother u hut).1.trans (hinv.waiting u hu)
  · have hut : u ≠ t := by
      rintro rfl
      rw [htimer] at hu
      cases hu
    exact (hother u hut).1.trans (hinv.timer u ((hother u hut).2.symm.trans hu))
  · obtain ⟨hold, hut⟩ := hcalls _ hu
    exact (hother u hut).1.trans (hinv.calls u stage hold)
  · obtain ⟨hold, hut⟩ := hcalls _ hu
    obtain ⟨hfree, hstopped⟩ := hinv.unlinked u hold
    rw [hwaiting, update_of_ne hut]
    exact ⟨hfree, (hother u hut).2.trans hstopped⟩
  · have hcount := hinv.count u
    rw [hsuspensions, hwakes]
    by_cases hut : u = t
    · subst hut
      rw [hsuspend, if_pos rfl] at hcount
      rw [hready, update_self]
      simpa using hcount
    · rw [update_of_ne hut, (hother u hut).1]
      exact hcount

theorem insertThread_relinked (hfree : s.isLinked t = false) (hclean : s.relinked = false) :
    (s.insertThread cfg c t).relinked = false := by
  simp [insertThread, hfree, hclean]

theorem insertThread_thread_of_ne {u : Tid} (hu : u ≠ t) :
    (s.insertThread cfg c t).kernel.thread u = s.kernel.thread u := by
  simp [insertThread, hu]

theorem insertThread_thread_self :
    (s.insertThread cfg c t).kernel.thread t = { s.kernel.thread t with stat := .ready } := by
  simp [insertThread]

theorem unlink_timerStop_thread :
    ((s.unlink t).timerStop t).kernel.thread =
      update s.kernel.thread t { s.kernel.thread t with timerActive := false } := rfl

theorem isLinked_unlink : ((s.unlink t).timerStop t).isLinked t = false := by
  simp [isLinked, unlink, timerStop]

theorem Inv.placed_unlink_timerStop (hinv : s.Inv cfg) :
    Placed cfg ((s.unlink t).timerStop t).kernel := by
  exact (hinv.placed.unlink t).of_linked (fun _ => rfl) (setThread_field Thread.oncpu (by rfl))
    fun u hu => ⟨hu, setThread_field Thread.stat (by rfl) u⟩

theorem Inv.resumeTest (hinv : s.Inv cfg)
    (hsafe : (s.kernel.thread t).stat = .suspend → s.NoWaker t) :
    (s.resumeTest t).Inv cfg := by
  unfold WakeSystem.resumeTest
  split
  · exact hinv.withResult _
  next hsuspend =>
    rw [not_not] at hsuspend
    refine ⟨hinv.placed, hinv.unrepeated, hinv.waiting, hinv.timer, fun u stage hu => ?_,
      fun u hu => ?_, ?_, hinv.count, hinv.clean⟩
    · rcases List.mem_append.mp hu with hold | hnew
      · exact hinv.calls u stage hold
      · cases List.mem_singleton.mp hnew
        exact hsuspend
    · rcases List.mem_append.mp hu with hold | hnew
      · exact hinv.unlinked u hold
      · cases List.mem_singleton.mp hnew
    · rw [List.map_append, List.map_singleton, List.nodup_append]
      refine ⟨hinv.nodup, by simp, fun u hu v hv => ?_⟩
      rw [List.mem_singleton.mp hv]
      rintro rfl
      exact hsafe hsuspend hu

theorem Inv.resumeUnlink (hinv : s.Inv cfg) {n : Nat} (hcall : s.calls[n]? = some (t, .tested)) :
    Inv cfg { (s.unlink t).timerStop t with
      calls := s.calls.set n (t, .unlinked)
      result := none } := by
  have hmem : (t, ResumeStage.tested) ∈ s.calls := List.mem_of_getElem? hcall
  have hsuspend := hinv.calls t _ hmem
  have hstat : ∀ u, (((s.unlink t).timerStop t).kernel.thread u).stat = (s.kernel.thread u).stat :=
    setThread_field (k := s.kernel.unlink t) Thread.stat (by rfl)
  have hnames : (s.calls.set n (t, .unlinked)).map Prod.fst = s.calls.map Prod.fst := by
    obtain ⟨hlt, hat⟩ := List.getElem?_eq_some_iff.mp hcall
    have hname : (s.calls.map Prod.fst)[n]? = some t := by simp [hcall]
    obtain ⟨hlt', hname⟩ := List.getElem?_eq_some_iff.mp hname
    rw [List.map_set]
    exact hname ▸ List.set_getElem_self hlt'
  refine ⟨hinv.placed_unlink_timerStop, (hinv.unrepeated.unlink t).of_queue rfl, fun u hu => ?_,
    fun u hu => ?_, fun u stage hu => ?_, fun u hu => ?_, ?_, fun u => ?_, hinv.clean⟩
  · have hut : u ≠ t := by
      rintro rfl
      simp [unlink, timerStop] at hu
    exact (hstat u).trans (hinv.waiting u (by simpa [unlink, timerStop, hut] using hu))
  · have hut : u ≠ t := by
      rintro rfl
      simp [unlink_timerStop_thread] at hu
    exact (hstat u).trans (hinv.timer u (by simpa [unlink_timerStop_thread, hut] using hu))
  · refine (hstat u).trans ?_
    rcases List.mem_or_eq_of_mem_set hu with hold | hnew
    · exact hinv.calls u stage hold
    · cases hnew
      exact hsuspend
  · by_cases hut : u = t
    · subst hut
      simp [unlink, timerStop]
    · rcases List.mem_or_eq_of_mem_set hu with hold | hnew
      · simpa [unlink, timerStop, hut] using hinv.unlinked u hold
      · cases hnew
        exact absurd rfl hut
  · show ((s.calls.set n (t, .unlinked)).map Prod.fst).Nodup
    rw [hnames]
    exact hinv.nodup
  · show s.suspensions u = s.wakes u +
      if (((s.unlink t).timerStop t).kernel.thread u).stat = .suspend then 1 else 0
    rw [hstat]
    exact hinv.count u

theorem Inv.not_linked (hinv : s.Inv cfg) (hsuspend : (s.kernel.thread t).stat = .suspend) :
    ¬ s.kernel.Linked t := by
  intro hlinked
  have hready := hinv.placed.ready t hlinked
  rw [hsuspend] at hready
  cases hready

theorem Inv.isLinked_of_unlinked (hinv : s.Inv cfg) (hcall : (t, .unlinked) ∈ s.calls) :
    s.isLinked t = false := by
  have hfree := hinv.not_linked (hinv.calls t _ hcall)
  have hnot : t ∉ (s.kernel.queue (s.kernel.thread t).bindCpu).priorityTable
      (s.kernel.thread t).currentPriority := fun h => hfree ⟨_, _, h⟩
  simp [isLinked, (hinv.unlinked t hcall).1, hnot]

theorem eraseIdx_split {α : Type} {list : List α} {n : Nat} {a : α}
    (hat : list[n]? = some a) :
    ∃ pre post, list = pre ++ a :: post ∧ list.eraseIdx n = pre ++ post := by
  obtain ⟨hlt, rfl⟩ := List.getElem?_eq_some_iff.mp hat
  refine ⟨list.take n, list.drop (n + 1), ?_, List.eraseIdx_eq_take_drop_succ list n⟩
  rw [← List.drop_eq_getElem_cons hlt, List.take_append_drop]

theorem Inv.resumeInsert (hinv : s.Inv cfg) {n : Nat}
    (hcall : s.calls[n]? = some (t, .unlinked)) :
    Inv cfg { s.insertThread cfg c t with
      calls := s.calls.eraseIdx n
      result := some rtEok } := by
  have hmem : (t, ResumeStage.unlinked) ∈ s.calls := List.mem_of_getElem? hcall
  obtain ⟨pre, post, hcalls, herase⟩ := eraseIdx_split hcall
  have hnodup := hinv.nodup
  rw [hcalls, List.map_append, List.map_cons, List.nodup_middle, List.nodup_cons,
    ← List.map_append, ← herase] at hnodup
  have hclean : (s.insertThread cfg c t).relinked = false :=
    insertThread_relinked (hinv.isLinked_of_unlinked hmem) hinv.clean
  refine hinv.woken (hinv.calls t _ hmem) (hinv.placed.insertThread c t)
    (hinv.unrepeated.insertThread (hinv.not_linked (hinv.calls t _ hmem))) (fun u hu => ?_) ?_ ?_ ?_
    (fun e he => ⟨List.mem_of_mem_eraseIdx he, ?_⟩) hnodup.2 rfl rfl hclean
  · rw [show (s.insertThread cfg c t).kernel.thread u = s.kernel.thread u from
      insertThread_thread_of_ne hu]
    exact ⟨rfl, rfl⟩
  · rw [show (s.insertThread cfg c t).kernel.thread t = _ from insertThread_thread_self]
  · rw [show (s.insertThread cfg c t).kernel.thread t = _ from insertThread_thread_self]
    exact (hinv.unlinked t hmem).2
  · show s.waiting = update s.waiting t false
    rw [← (hinv.unlinked t hmem).1, update_eq_self]
  · rintro rfl
    exact hnodup.1 (List.mem_map.mpr ⟨e, he, rfl⟩)

theorem NoWaker.ne (hno : s.NoWaker t) {e : Tid × ResumeStage} (he : e ∈ s.calls) : e.1 ≠ t := by
  rintro rfl
  exact hno (List.mem_map_of_mem he)

theorem Inv.resumeLocked (hinv : s.Inv cfg)
    (hsafe : (s.kernel.thread t).stat = .suspend → s.NoWaker t) :
    (s.resumeLocked cfg c t).Inv cfg := by
  unfold WakeSystem.resumeLocked
  split
  · exact hinv.withResult _
  next hsuspend =>
    rw [not_not] at hsuspend
    have hclean : (((s.unlink t).timerStop t).insertThread cfg c t).relinked = false :=
      insertThread_relinked isLinked_unlink hinv.clean
    have honce : ((s.unlink t).timerStop t).kernel.Unrepeated :=
      (hinv.unrepeated.unlink t).of_queue rfl
    refine hinv.woken hsuspend (hinv.placed_unlink_timerStop.insertThread c t)
      (honce.insertThread fun h => (linked_unlink.mp h).2 rfl) (fun u hu => ?_) ?_ ?_ rfl (fun e he => ⟨he, (hsafe hsuspend).ne he⟩) hinv.nodup rfl rfl hclean
    · rw [show (((s.unlink t).timerStop t).insertThread cfg c t).kernel.thread u = _ from
        insertThread_thread_of_ne hu, unlink_timerStop_thread, update_of_ne hu]
      exact ⟨rfl, rfl⟩
    · rw [show (((s.unlink t).timerStop t).insertThread cfg c t).kernel.thread t = _ from
        insertThread_thread_self]
    · rw [show (((s.unlink t).timerStop t).insertThread cfg c t).kernel.thread t = _ from
        insertThread_thread_self, unlink_timerStop_thread, update_self]

def expired (s : WakeSystem) (t : Tid) : WakeSystem :=
  { s with kernel := s.kernel.setThread t { s.kernel.thread t with error := -rtEtimeout } }

theorem Inv.timeout_cases (hinv : s.Inv cfg) (hc : c < cfg.cpusNr)
    (hexec : s.timeout cfg c t = some s') :
    (s.kernel.thread t).stat = .suspend ∧
      Placed cfg (((s.expired t).unlink t).insertThread cfg c t).kernel ∧
      ∃ k, Handover cfg c (((s.expired t).unlink t).insertThread cfg c t).kernel k ∧
        s' = { ((s.expired t).unlink t).insertThread cfg c t with
          kernel := k.setThread t { k.thread t with timerActive := false }
          result := none } := by
  unfold timeout at hexec
  split at hexec
  · split at hexec
    · cases hexec
    next hsuspend =>
      rw [not_not] at hsuspend
      obtain ⟨k, hk, rfl⟩ := Option.map_eq_some_iff.mp hexec
      have hplaced : Placed cfg (s.expired t).kernel :=
        hinv.placed.of_linked (fun _ => rfl) (setThread_field Thread.oncpu (by rfl))
          fun u hu => ⟨hu, setThread_field Thread.stat (by rfl) u⟩
      have hinserted := (hplaced.unlink t).insertThread c t
      exact ⟨hsuspend, hinserted, k, rtSchedule_handover (hinserted.free c hc) hk, rfl⟩
  · cases hexec

theorem Inv.timeout (hinv : s.Inv cfg) (hc : c < cfg.cpusNr) (hsafe : s.NoWaker t)
    (hexec : s.timeout cfg c t = some s') : s'.Inv cfg := by
  obtain ⟨hsuspend, hinserted, k, hhand, rfl⟩ := hinv.timeout_cases hc hexec
  have honce : ((s.expired t).unlink t).kernel.Unrepeated :=
    (hinv.unrepeated.unlink t).of_queue rfl
  have honce' := hhand.unrepeated (honce.insertThread fun h => (linked_unlink.mp h).2 rfl)
  have hclean : (((s.expired t).unlink t).insertThread cfg c t).relinked = false := by
    refine insertThread_relinked ?_ hinv.clean
    simp [isLinked, unlink]
  have hself : (k.thread t).stat = .ready := by
    rw [(hhand.wait t).stat, insertThread_thread_self]
  refine hinv.woken hsuspend ?_ (honce'.of_queue rfl) (fun u hu => ?_) ?_ ?_ rfl
    (fun e he => ⟨he, hsafe.ne he⟩) hinv.nodup rfl rfl hclean
  · exact (hinserted.handover hc hhand).of_linked (fun _ => rfl) (setThread_field Thread.oncpu (by rfl))
      fun u hu => ⟨hu, setThread_field Thread.stat (by rfl) u⟩
  · have hwait := hhand.wait u
    rw [insertThread_thread_of_ne hu] at hwait
    have hafter : (k.setThread t { k.thread t with timerActive := false }).thread u = k.thread u :=
      update_of_ne hu ..
    rw [hafter]
    exact ⟨hwait.stat.trans (setThread_field Thread.stat (by rfl) u),
      hwait.timerActive.trans (setThread_field Thread.timerActive (by rfl) u)⟩
  · simpa using hself
  · simp

/-- `t` was asleep, is READY, and is linked unless a CPU still has it. -/
structure Woken (cfg : Config) (s s' : WakeSystem) (t : Tid) : Prop where
  suspended : (s.kernel.thread t).stat = .suspend
  ready : (s'.kernel.thread t).stat = .ready
  linked : s'.kernel.Linked t ∨ (s'.kernel.thread t).oncpu ≠ cfg.cpuDetached
  wakes : s'.wakes = update s.wakes t (s.wakes t + 1)

theorem insertThread_linked :
    (s.insertThread cfg c t).kernel.Linked t ∨
      ((s.insertThread cfg c t).kernel.thread t).oncpu ≠ cfg.cpuDetached := by
  rw [insertThread_thread_self]
  by_cases hdetached : (s.kernel.thread t).oncpu = cfg.cpuDetached
  · exact .inl ((linked_rtScheduleInsertThread hdetached).mpr (.inr rfl))
  · exact .inr hdetached

theorem Inv.woken_resumeInsert (hinv : s.Inv cfg) (hcall : (t, .unlinked) ∈ s.calls)
    (calls : List (Tid × ResumeStage)) (result : Option Int) :
    Woken cfg s { s.insertThread cfg c t with calls, result } t where
  suspended := hinv.calls t _ hcall
  ready := congrArg Thread.stat (insertThread_thread_self (s := s) (c := c))
  linked := insertThread_linked (s := s)
  wakes := rfl

theorem woken_resumeLocked (hsuspend : (s.kernel.thread t).stat = .suspend) (result : Option Int) :
    Woken cfg s { ((s.unlink t).timerStop t).insertThread cfg c t with result } t where
  suspended := hsuspend
  ready := congrArg Thread.stat (insertThread_thread_self (s := (s.unlink t).timerStop t) (c := c))
  linked := insertThread_linked (s := (s.unlink t).timerStop t)
  wakes := rfl

theorem linked_handover {k k' : Kernel} (hplaced : Placed cfg k) (hc : c < cfg.cpusNr)
    (hhand : Handover cfg c k k') (hready : (k.thread t).stat = .ready)
    (hlinked : k.Linked t ∨ (k.thread t).oncpu ≠ cfg.cpuDetached) :
    k'.Linked t ∨ (k'.thread t).oncpu ≠ cfg.cpuDetached := by
  have hne : c ≠ cfg.cpuDetached := Nat.ne_of_lt hc
  by_cases hin : k.Linked t
  · refine (hhand.kept t hin).imp_right fun hcurrent => ?_
    rcases hhand.oncpu t hcurrent with hnew | ⟨hold, -⟩
    · rwa [hnew]
    · exact absurd hin (hplaced.free c hc t hold)
  · have hon := hlinked.resolve_left hin
    by_cases hold : (k.cpu c).currentThread = some t
    · rcases hhand.left t hold with ⟨-, hnew | hsame⟩ | ⟨-, hsame⟩ | ⟨-, hback⟩
      · exact .inr (by rwa [hnew])
      · exact .inr (by rwa [hsame])
      · exact .inr (by rwa [hsame])
      · exact .inl (hback hready)
    · exact .inr (by rwa [hhand.elsewhere t hold hin])

theorem Inv.woken_timeout (hinv : s.Inv cfg) (hc : c < cfg.cpusNr)
    (hexec : s.timeout cfg c t = some s') : Woken cfg s s' t := by
  obtain ⟨hsuspend, hinserted, k, hhand, rfl⟩ := hinv.timeout_cases hc hexec
  have hready : ((((s.expired t).unlink t).insertThread cfg c t).kernel.thread t).stat = .ready := by
    rw [insertThread_thread_self]
  have hlinked := linked_handover hinserted hc hhand hready insertThread_linked
  refine ⟨hsuspend, ?_, hlinked.imp id fun hon => ?_, rfl⟩
  · exact (setThread_field Thread.stat (by rfl) t).trans ((hhand.wait t).stat.trans hready)
  · exact ne_of_eq_of_ne (setThread_field Thread.oncpu (by rfl) t) hon

end Steps

/-- A waker that finds the thread suspended finds no call of `rt_thread_resume` for it
between its test and its end. -/
def WakeSafe (s : WakeSystem) : WakeOp → Prop
  | .resume _ t => (s.kernel.thread t).stat = .suspend → s.NoWaker t
  | .resumeLocked _ t => (s.kernel.thread t).stat = .suspend → s.NoWaker t
  | .timeout _ t => s.NoWaker t
  | _ => True

theorem Initial.inv {cfg : Config} {s : WakeSystem} (hinit : s.Initial cfg) : s.Inv cfg := by
  obtain ⟨hsuspensions, hwakes, hclean⟩ := hinit.history
  refine ⟨hinit.placed, hinit.unrepeated, fun t ht => ?_, fun t ht => ?_, fun t stage ht => ?_,
    fun t ht => ?_, ?_, fun t => ?_, hclean⟩
  · rw [(hinit.awake t).2.1] at ht
    cases ht
  · rw [(hinit.awake t).2.2] at ht
    cases ht
  · rw [hinit.calls] at ht
    cases ht
  · rw [hinit.calls] at ht
    cases ht
  · simp [hinit.calls]
  · rw [hsuspensions, hwakes, if_neg (hinit.awake t).1]

theorem Inv.exec {cfg : Config} {s s' : WakeSystem} (hinv : s.Inv cfg) {op : WakeOp}
    (hsafe : s.WakeSafe op) (hexec : s.exec cfg op = some s') : s'.Inv cfg := by
  unfold WakeSystem.exec at hexec
  split at hexec
  next hc =>
    cases op with
    | schedule c =>
      obtain ⟨k, hk, rfl⟩ := Option.map_eq_some_iff.mp hexec
      exact hinv.withKernel hc (rtSchedule_handover (hinv.placed.free c hc) hk)
    | doIrqSwitch c =>
      obtain ⟨k, hk, rfl⟩ := Option.map_eq_some_iff.mp hexec
      exact hinv.withKernel hc (rtSchedulerDoIrqSwitch_handover (hinv.placed.free c hc) hk)
    | ipiHandler c =>
      obtain ⟨k, hk, rfl⟩ := Option.map_eq_some_iff.mp hexec
      exact hinv.withKernel hc (rtSchedulerIpiHandler_handover (hinv.placed.free c hc) hk)
    | interruptEnter c =>
      cases hexec
      exact hinv.withKernel hc (Quiet.interruptEnter.handover cfg c)
    | interruptLeave c =>
      cases hexec
      exact hinv.withKernel hc (Quiet.interruptLeave.handover cfg c)
    | suspend c t onList timed => exact hinv.suspend hexec
    | resume c t =>
      cases hexec
      exact hinv.resumeTest hsafe
    | proceed c n =>
      simp only [resumeContinue] at hexec
      split at hexec
      · cases hexec
      next hcall =>
        cases hexec
        exact hinv.resumeUnlink hcall
      next hcall =>
        cases hexec
        exact hinv.resumeInsert hcall
    | resumeLocked c t =>
      cases hexec
      exact hinv.resumeLocked hsafe
    | timeout c t => exact hinv.timeout hc hsafe hexec
  · cases hexec

/-- A step of `rt_thread_resume` fails and leaves all as it was, returns RT_EOK after it has woken
its thread, or does not return yet. -/
structure StepOk (cfg : Config) (s : WakeSystem) (op : WakeOp) (s' : WakeSystem) : Prop where
  wakes : s'.wakes = s.wakes ∨ ∃ t, Woken cfg s s' t
  returns : op.resumes = true → s' = { s with result := some (-rtError) } ∨
    (s'.result = none ∧ s'.wakes = s.wakes) ∨ (s'.result = some rtEok ∧ ∃ t, Woken cfg s s' t)

/-- Every suspension that is over was ended by one waker, which linked the thread once, and of the
calls of `rt_thread_resume` that have passed their test there is one for a thread, which is still
suspended.  A READY thread has no timer running. -/
structure WakeOk (cfg : Config) (s : WakeSystem) : Prop where
  once : ∀ t, s.suspensions t = s.wakes t + if (s.kernel.thread t).stat = .suspend then 1 else 0
  relinked : s.relinked = false
  unrepeated : s.kernel.Unrepeated
  timer : ∀ t, (s.kernel.thread t).stat = .ready → (s.kernel.thread t).timerActive = false
  single : (s.calls.map Prod.fst).Nodup
  pending : ∀ t stage, (t, stage) ∈ s.calls → (s.kernel.thread t).stat = .suspend
  step : ∀ op s', s.WakeSafe op → s.exec cfg op = some s' → StepOk cfg s op s'

section StepOk

variable {cfg : Config} {s s' : WakeSystem} {op : WakeOp} {t : Tid}

theorem StepOk.of_woken (hwoken : Woken cfg s s' t)
    (hresult : op.resumes = true → s'.result = some rtEok) : StepOk cfg s op s' :=
  ⟨.inr ⟨t, hwoken⟩, fun hresumes => .inr (.inr ⟨hresult hresumes, t, hwoken⟩)⟩

theorem StepOk.of_same (hwakes : s'.wakes = s.wakes)
    (hresult : op.resumes = true → s' = { s with result := some (-rtError) } ∨ s'.result = none) :
    StepOk cfg s op s' :=
  ⟨.inl hwakes, fun hresumes => (hresult hresumes).imp_right fun hnone => .inl ⟨hnone, hwakes⟩⟩

theorem Inv.stepOk (hinv : s.Inv cfg) (hexec : s.exec cfg op = some s') : StepOk cfg s op s' := by
  unfold WakeSystem.exec at hexec
  split at hexec
  next hc =>
    cases op with
    | schedule c | doIrqSwitch c | ipiHandler c =>
      obtain ⟨k, -, rfl⟩ := Option.map_eq_some_iff.mp hexec
      exact .of_same rfl nofun
    | interruptEnter c | interruptLeave c =>
      cases hexec
      exact .of_same rfl nofun
    | suspend c t onList timed =>
      obtain ⟨⟨code, k⟩, -, rfl⟩ := Option.map_eq_some_iff.mp hexec
      dsimp only
      split
      · exact .of_same rfl nofun
      · exact .of_same rfl nofun
    | resume c t =>
      cases hexec
      unfold WakeSystem.resumeTest
      split
      · exact .of_same rfl fun _ => .inl rfl
      · exact .of_same rfl fun _ => .inr rfl
    | proceed c n =>
      simp only [resumeContinue] at hexec
      split at hexec
      · cases hexec
      · cases hexec
        exact .of_same rfl fun _ => .inr rfl
      next hcall =>
        cases hexec
        exact .of_woken (hinv.woken_resumeInsert (List.mem_of_getElem? hcall) _ _) fun _ => rfl
    | resumeLocked c t =>
      cases hexec
      unfold WakeSystem.resumeLocked
      split
      · exact .of_same rfl fun _ => .inl rfl
      next hsuspend =>
        rw [not_not] at hsuspend
        exact .of_woken (woken_resumeLocked hsuspend _) fun _ => rfl
    | timeout c t => exact .of_woken (hinv.woken_timeout hc hexec) nofun
  · cases hexec

end StepOk

theorem Inv.wakeOk {cfg : Config} {s : WakeSystem} (hinv : s.Inv cfg) : s.WakeOk cfg := by
  refine ⟨hinv.count, hinv.clean, hinv.unrepeated, fun t hready => ?_, hinv.nodup, hinv.calls,
    fun _ _ _ hexec => hinv.stepOk hexec⟩
  rw [Bool.eq_false_iff]
  intro hactive
  rw [hinv.timer t hactive] at hready
  cases hready

end WakeSystem

theorem reachable_wakeOk {cfg : Config} {s : WakeSystem}
    (hreach : (wakeMachine cfg).Reachable WakeSystem.WakeSafe s) : s.WakeOk cfg := by
  have hinv : s.Inv cfg := hreach.invariant (WakeSystem.Inv cfg)
    (fun _ => WakeSystem.Initial.inv) fun _ _ _ hinv hsafe hexec => hinv.exec hsafe hexec
  exact hinv.wakeOk

instance (s : WakeSystem) : (op : WakeOp) → Decidable (s.WakeSafe op)
  | .resume _ t => inferInstanceAs (Decidable ((s.kernel.thread t).stat = .suspend →
      t ∉ s.calls.map Prod.fst))
  | .resumeLocked _ t => inferInstanceAs (Decidable ((s.kernel.thread t).stat = .suspend →
      t ∉ s.calls.map Prod.fst))
  | .timeout _ t => inferInstanceAs (Decidable (t ∉ s.calls.map Prod.fst))
  | .schedule _ | .doIrqSwitch _ | .ipiHandler _ | .interruptEnter _ | .interruptLeave _
  | .suspend .. | .proceed .. => .isTrue trivial

def wakeStart : WakeSystem where
  kernel := busyKernel
  waiting := fun _ => false
  calls := []
  result := none
  suspensions := fun _ => 0
  wakes := fun _ => 0
  relinked := false

theorem wakeStart_initial : wakeStart.Initial (Config.flat 2) := by
  refine ⟨busyKernel_placed, busyKernel_unrepeated, fun t => ⟨?_, rfl, ?_⟩, rfl, fun _ => rfl,
    fun _ => rfl, rfl⟩
  · simp only [wakeStart, busyKernel]
    split <;> simp
  · simp only [wakeStart, busyKernel, Thread.setPriority]
    split <;> rfl

/-- Two calls of `rt_thread_resume` have both seen thread 2 suspended; the second
links it again and ends a suspension that was over. -/
theorem wakeOk_fails_after_two_resumes :
    ∃ s, (wakeMachine (Config.flat 2)).Reachable (fun _ _ => True) s ∧ ¬ s.WakeOk (Config.flat 2) := by
  have hrun : ((wakeMachine (Config.flat 2)).run (fun _ _ => True) wakeStart
      [.suspend 1 2 true true, .schedule 1, .resume 0 2, .resume 1 2, .proceed 0 0,
        .proceed 1 1, .proceed 0 0, .proceed 1 0]).map
        (fun s => (s.suspensions 2, s.wakes 2, s.relinked)) = some (1, 2, true) := by
    decide +kernel
  obtain ⟨s, hreach, hvalue⟩ := Machine.exists_reachable_of_run wakeStart_initial hrun
  simp only [Prod.mk.injEq] at hvalue
  refine ⟨s, hreach, fun hok => ?_⟩
  have hrelinked := hok.relinked
  rw [hvalue.2.2] at hrelinked
  cases hrelinked

/-- Thread 2 sleeps twice: one sleep is ended by a call in three steps, which the
timer can no longer overtake, the other by the timer. -/
theorem reachable_wakeOk_wakeRun :
    ∃ s, (wakeMachine (Config.flat 2)).Reachable WakeSystem.WakeSafe s ∧
      (s.suspensions 2, s.wakes 2) = (2, 2) ∧ s.WakeOk (Config.flat 2) := by
  have hrun : ((wakeMachine (Config.flat 2)).run WakeSystem.WakeSafe wakeStart
      [.suspend 1 2 true true, .resume 0 2, .proceed 0 0, .schedule 1, .proceed 0 0,
        .schedule 1, .suspend 1 2 false true, .schedule 1, .timeout 0 2, .resume 1 2]).map
        (fun s => (s.suspensions 2, s.wakes 2)) = some (2, 2) := by
    decide +kernel
  obtain ⟨s, hreach, hvalue⟩ := Machine.exists_reachable_of_run wakeStart_initial hrun
  exact ⟨s, hreach, hvalue, reachable_wakeOk hreach⟩

end RtThread.Scheduler
