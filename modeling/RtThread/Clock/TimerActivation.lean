import RtThread.Clock.TimerCheck
import RtThread.Clock.TimerOrder

namespace RtThread.Clock

open Function RtThread.Lib TimerSystem SkipList

/-- The state between the two sections of `rt_timer_start`. -/
def TimerSystem.restarted (s : TimerSystem) (t : TimerId) : TimerSystem :=
  { rtTimerRemove t s with
    timer := update s.timer t
      { s.timer t with
        activated := false
        timeoutTick := add32 s.tick (s.timer t).initTick } }

structure RowsOk (cfg : TimerConfig) (s : TimerSystem) : Prop where
  nested : ∀ list, SkipList.Nested (s.rows list)
  length : ∀ list, (s.rows list).length = cfg.level

section Rows

variable {cfg : TimerConfig} {s s' : TimerSystem} {t u : TimerId} {list : TimerList}

theorem linked_congr (hrows : s'.rows = s.rows) : s'.linked list = s.linked list := by
  rw [linked, linked, hrows]

theorem RowsOk.congr (hok : RowsOk cfg s) (hrows : s'.rows = s.rows) : RowsOk cfg s' where
  nested := fun list => hrows ▸ hok.nested list
  length := fun list => hrows ▸ hok.length list

theorem RowsOk.bottom (hok : RowsOk cfg s) (list : TimerList) :
    (s.rows list).getLast? = some (s.linked list) := by
  cases hlast : (s.rows list).getLast? with
  | none =>
    have hempty := hok.length list
    rw [List.getLast?_eq_none_iff.mp hlast] at hempty
    exact absurd hempty cfg.level_pos.ne
  | some row => simp [linked, hlast]

theorem RowsOk.mem_linked (hok : RowsOk cfg s) {row : List TimerId}
    (hrow : row ∈ s.rows list) (hmem : t ∈ row) : t ∈ s.linked list :=
  (sublist_getLast? (hok.nested list).chain hrow (hok.bottom list)).subset hmem

theorem RowsOk.remove (hok : RowsOk cfg s) (t : TimerId) : RowsOk cfg (rtTimerRemove t s) where
  nested := fun list => (hok.nested list).remove t
  length := fun list => by simp [rtTimerRemove, removeRows, hok.length]

theorem linked_rtTimerRemove (t : TimerId) (list : TimerList) :
    (rtTimerRemove t s).linked list = (s.linked list).filter (· ≠ t) := by
  simp only [linked, rtTimerRemove, getLast?_removeRows]
  cases (s.rows list).getLast? with
  | none => rfl
  | some row => rfl

theorem mem_linked_remove : u ∈ (rtTimerRemove t s).linked list ↔ u ∈ s.linked list ∧ u ≠ t := by
  simp [linked_rtTimerRemove]

theorem RowsOk.insertTimer (hok : RowsOk cfg s) (hfree : ∀ list, t ∉ s.linked list) :
    ∃ s', insertTimer cfg t s = some s' ∧ RowsOk cfg s' ∧
      s'.timer = update s.timer t { s.timer t with activated := true } ∧
      s'.result = some rtEok ∧
      ∀ list u, u ∈ s'.linked list ↔
        u = t ∧ list = timerListOf cfg (s.timer t) ∨ u ∈ s.linked list := by
  generalize hl : timerListOf cfg (s.timer t) = own
  have hcount : 0 < 1 + extraRows cfg.mask (cfg.level - 1) (add32 s.randomNr 1) :=
    Nat.add_pos_left Nat.one_pos _
  obtain ⟨heads, hheads, hnested, hlength, bottom, hbottom, hmem⟩ :=
    @insertRows_nested _
      (fun u => passes (s.timer t).timeoutTick (s.timer u).timeoutTick) _ t _ _
      (hok.nested own) (fun row hrow h => hfree own (hok.mem_linked hrow h)) hcount _
      (hok.bottom own)
  have hrowHead : rowHead cfg t s = some heads := by
    rw [rowHead, hl]
    exact hheads
  simp only [Clock.insertTimer, hrowHead, hl]
  refine ⟨_, rfl, ⟨fun list => ?_, fun list => ?_⟩, rfl, rfl, fun list u => ?_⟩
  · rcases eq_or_ne list own with rfl | hne
    · simpa using hnested
    · simpa [hne] using hok.nested list
  · rcases eq_or_ne list own with rfl | hne
    · simpa [hok.length] using hlength
    · simpa [hne] using hok.length list
  · rcases eq_or_ne list own with rfl | hne
    · simp [linked, hbottom, hmem]
    · simp [linked, hne]

theorem rtTimerStart_eq (hisTimer : (s.timer t).isTimer = true)
    (htime : (s.timer t).initTick < rtTickMax / 2) :
    rtTimerStart cfg t s = Clock.insertTimer cfg t (s.restarted t) := by
  simp [rtTimerStart, restarted, hisTimer, htime, setTimer, rtTimerRemove]

theorem RowsOk.restarted (hok : RowsOk cfg s) (t : TimerId) : RowsOk cfg (s.restarted t) :=
  (hok.remove t).congr rfl

theorem RowsOk.rtTimerStart (hok : RowsOk cfg s) (hisTimer : (s.timer t).isTimer = true)
    (htime : (s.timer t).initTick < rtTickMax / 2) :
    ∃ s', rtTimerStart cfg t s = some s' ∧ RowsOk cfg s' ∧
      s'.timer = update s.timer t
        { s.timer t with
          activated := true
          timeoutTick := add32 s.tick (s.timer t).initTick } ∧
      s'.result = some rtEok ∧
      ∀ list u, u ∈ s'.linked list ↔
        u = t ∧ list = timerListOf cfg (s.timer t) ∨ u ∈ s.linked list ∧ u ≠ t := by
  have hlinked : ∀ list u, u ∈ (s.restarted t).linked list ↔ u ∈ s.linked list ∧ u ≠ t :=
    fun _ _ => mem_linked_remove
  have hfree : ∀ list, t ∉ (s.restarted t).linked list := by simp [hlinked]
  obtain ⟨s', hinsert, hok', htimer, hresult, hmem⟩ := (hok.restarted t).insertTimer hfree
  refine ⟨s', (rtTimerStart_eq hisTimer htime).trans hinsert, hok', ?_, hresult, fun list u => ?_⟩
  · rw [htimer]
    simp [TimerSystem.restarted]
  · rw [hmem, hlinked]
    simp [TimerSystem.restarted, timerListOf]

theorem guards_of_rtTimerStart (hexec : rtTimerStart cfg t s = some s') :
    (s.timer t).isTimer = true ∧ (s.timer t).initTick < rtTickMax / 2 := by
  simp only [Clock.rtTimerStart] at hexec
  split at hexec
  next hisTimer =>
    split at hexec
    next htime => exact ⟨hisTimer, by simpa [setTimer] using htime⟩
    · cases hexec
  · cases hexec

theorem insertTimer_of_rtTimerStart (hstart : rtTimerStart cfg t s = some s') :
    insertTimer cfg t (s.restarted t) = some s' := by
  obtain ⟨hisTimer, htime⟩ := guards_of_rtTimerStart hstart
  exact (rtTimerStart_eq hisTimer htime).symm.trans hstart

theorem fields_of_rtTimerStart (hstart : rtTimerStart cfg t s = some s') :
    s'.timer = update s.timer t
        { s.timer t with
          activated := true
          timeoutTick := add32 s.tick (s.timer t).initTick } ∧
      s'.tick = s.tick ∧
      ∀ list ≠ timerListOf cfg (s.timer t), s'.rows list = (rtTimerRemove t s).rows list := by
  have hinsert := insertTimer_of_rtTimerStart hstart
  simp only [Clock.insertTimer, restarted, update_self, update_idem] at hinsert
  obtain ⟨heads, -, heq⟩ := Option.bind_eq_some_iff.mp hinsert
  cases heq
  exact ⟨rfl, rfl, fun list hother => update_of_ne hother ..⟩

theorem RowsOk.started (hok : RowsOk cfg s) (hstart : Clock.rtTimerStart cfg t s = some s') :
    RowsOk cfg s' ∧ ∀ list u, u ∈ s'.linked list ↔
      u = t ∧ list = timerListOf cfg (s.timer t) ∨ u ∈ s.linked list ∧ u ≠ t := by
  obtain ⟨hisTimer, htime⟩ := guards_of_rtTimerStart hstart
  obtain ⟨_, hstart', hok', -, -, hmem⟩ := hok.rtTimerStart hisTimer htime
  cases hstart'.symm.trans hstart
  exact ⟨hok', hmem⟩

end Rows

section Places

variable {cfg : TimerConfig} {s s' : TimerSystem} {t : TimerId} {list own : TimerList}

theorem RowsOk.searchable (hok : RowsOk cfg s) {passed : TimerId → Bool}
    (hdown : Downward passed (s.linked own)) :
    Searchable passed (s.rows own) where
  down := fun _ hrow => hdown.sublist
    (sublist_getLast? (hok.nested own).chain hrow (hok.bottom own))
  nodup := (hok.nested own).nodup
  chain := (hok.nested own).chain

theorem linked_insertTimer (hok : RowsOk cfg s) (hinsert : insertTimer cfg t s = some s')
    (hown : timerListOf cfg (s.timer t) = own)
    (hdown : Downward (stays s t) (s.linked own)) :
    s'.linked own = inserted (stays s t) t (s.linked own) := by
  have hsearch := hok.searchable hdown
  have hrowHead : rowHead cfg t s = some ((s.rows own).map (place (stays s t))) := by
    rw [rowHead, hown]
    exact rowHeads_eq hsearch
  have hcount : 0 < 1 + extraRows cfg.mask (cfg.level - 1) (add32 s.randomNr 1) :=
    Nat.add_pos_left Nat.one_pos _
  simp only [Clock.insertTimer, hrowHead, hown] at hinsert
  cases hinsert
  simp only [linked, update_self]
  rw [insertRows_eq hsearch, getLast?_insertedRows hcount, hok.bottom own]
  rfl

theorem linked_rtTimerStart (hok : RowsOk cfg s) (hstart : rtTimerStart cfg t s = some s')
    (hown : timerListOf cfg (s.timer t) = own) {passed : TimerId → Bool}
    (hpassed : ∀ u, u ≠ t → passed u =
      passes (add32 s.tick (s.timer t).initTick) (s.timer u).timeoutTick)
    (hdown : Downward passed ((s.linked own).filter (· ≠ t))) :
    s'.linked own = inserted passed t ((s.linked own).filter (· ≠ t)) := by
  have hlinked : (s.restarted t).linked own = (s.linked own).filter (· ≠ t) :=
    linked_rtTimerRemove t own
  have hstays : ∀ u ∈ (s.restarted t).linked own, stays (s.restarted t) t u = passed u := by
    intro u hu
    rw [hlinked, List.mem_filter, decide_eq_true_eq] at hu
    simp [stays, restarted, hu.2, hpassed u hu.2]
  have hresult := linked_insertTimer (hok.restarted t) (insertTimer_of_rtTimerStart hstart)
    (by simpa [restarted, timerListOf] using hown)
    ((hlinked ▸ hdown).imp_of_mem fun {u v} hu hv h => by rwa [hstays u hu, hstays v hv])
  rw [hresult, inserted, inserted, ← hlinked]
  congr 1
  · exact List.filter_congr hstays
  · congr 1
    exact List.filter_congr fun u hu => by rw [hstays u hu]

end Places

namespace CheckSystem

structure TimerOk (cfg : TimerConfig) (s : CheckSystem) (t : TimerId) : Prop where
  linked : ∀ list, t ∈ s.sys.linked list → (s.sys.timer t).isTimer = true ∧
    timerListOf cfg (s.sys.timer t) = list ∧ (s.sys.timer t).activated = true ∧
    s.last t = .started
  activated : (s.sys.timer t).isTimer = true → (s.sys.timer t).activated = true →
    t ∈ s.sys.linked (timerListOf cfg (s.sys.timer t)) ∨
      s.phase = .callback t ∧ s.last t = .expired
  started : s.last t = .started → t ∈ s.sys.linked (timerListOf cfg (s.sys.timer t))

structure Activation (cfg : TimerConfig) (s : CheckSystem) : Prop where
  rows : RowsOk cfg s.sys
  timers : ∀ t, s.TimerOk cfg t

section Steps

variable {cfg : TimerConfig} {s s' : CheckSystem} {t : TimerId}

theorem Activation.touch (hinv : Activation cfg s) (hrows : RowsOk cfg s'.sys)
    (hlinked : ∀ list u, u ≠ t → (u ∈ s'.sys.linked list ↔ u ∈ s.sys.linked list))
    (htimer : ∀ u, u ≠ t → s'.sys.timer u = s.sys.timer u)
    (hlast : ∀ u, u ≠ t → s'.last u = s.last u)
    (hphase : ∀ u, u ≠ t → s.phase = .callback u → s'.phase = .callback u)
    (hok : s'.TimerOk cfg t) : Activation cfg s' := by
  refine ⟨hrows, fun u => ?_⟩
  rcases eq_or_ne u t with rfl | hne
  · exact hok
  · obtain ⟨hin, hactive, hstarted⟩ := hinv.timers u
    refine ⟨fun list hmem => ?_, fun hisTimer hflag => ?_, fun hlastStarted => ?_⟩
    · rw [htimer u hne, hlast u hne]
      exact hin list ((hlinked list u hne).mp hmem)
    · rw [htimer u hne] at hisTimer hflag ⊢
      rw [hlinked _ u hne, hlast u hne]
      exact (hactive hisTimer hflag).imp_right fun h => ⟨hphase u hne h.1, h.2⟩
    · rw [hlast u hne] at hlastStarted
      rw [htimer u hne, hlinked _ u hne]
      exact hstarted hlastStarted

theorem Activation.keep (hinv : Activation cfg s) (hrows : s'.sys.rows = s.sys.rows)
    (htimer : ∀ u, (s'.sys.timer u).isTimer = (s.sys.timer u).isTimer ∧
      (s'.sys.timer u).activated = (s.sys.timer u).activated ∧
      timerListOf cfg (s'.sys.timer u) = timerListOf cfg (s.sys.timer u))
    (hlast : s'.last = s.last) (hphase : ∀ u, s.phase = .callback u → s'.phase = .callback u) :
    Activation cfg s' := by
  refine ⟨hinv.rows.congr hrows, fun u => ?_⟩
  obtain ⟨hin, hactive, hstarted⟩ := hinv.timers u
  obtain ⟨hisTimer, hflag, hown⟩ := htimer u
  refine ⟨?_, ?_, ?_⟩
  · simpa [hisTimer, hflag, hown, hlast, linked_congr hrows] using hin
  · rw [hisTimer, hflag, hown, hlast, linked_congr hrows]
    exact fun h₁ h₂ => (hactive h₁ h₂).imp_right fun h => ⟨hphase u h.1, h.2⟩
  · rw [hown, hlast, linked_congr hrows]
    exact hstarted

theorem call_cases {f : TimerSystem → Option TimerSystem} (hcall : s.call f = some s') :
    ∃ sys, f s.sys = some sys ∧ s' = { s with sys := sys } ∧
      ∀ currentTick, s.phase ≠ .loop currentTick := by
  unfold call at hcall
  split at hcall
  · cases hcall
  next hphase =>
    obtain ⟨sys, hsys, rfl⟩ := Option.map_eq_some_iff.mp hcall
    exact ⟨sys, hsys, rfl, hphase⟩

theorem Activation.init (hinit : Initial cfg s) : Activation cfg s := by
  obtain ⟨⟨hrows, hidle, -⟩, -, hlast⟩ := hinit
  have hlinked : ∀ list, s.sys.linked list = [] := by
    intro list
    rw [linked, hrows, List.getLast?_replicate, if_neg (Nat.pos_iff_ne_zero.mp cfg.level_pos)]
    rfl
  refine ⟨⟨fun list => ⟨fun row hrow => ?_, ?_⟩, fun list => by simp [hrows]⟩, fun t => ?_⟩
  · rw [hrows] at hrow
    simp [List.eq_of_mem_replicate hrow]
  · rw [hrows]
    exact List.isChain_replicate_of_rel _ (List.Sublist.refl _)
  · exact ⟨by simp [hlinked], by simp [hidle], by simp [hlast]⟩

theorem TimerOk.of_unlinked (hfree : ∀ list, t ∉ s.sys.linked list)
    (hflag : (s.sys.timer t).isTimer = true → (s.sys.timer t).activated = true →
      s.phase = .callback t ∧ s.last t = .expired)
    (hlast : s.last t ≠ .started) : s.TimerOk cfg t where
  linked := fun list hmem => absurd hmem (hfree list)
  activated := fun hisTimer hactive => .inr (hflag hisTimer hactive)
  started := fun h => absurd h hlast

theorem Activation.unlink (hinv : Activation cfg s)
    (hrows : s'.sys.rows = (rtTimerRemove t s.sys).rows)
    (htimer : ∀ u, u ≠ t → s'.sys.timer u = s.sys.timer u)
    (hlast : ∀ u, u ≠ t → s'.last u = s.last u)
    (hphase : ∀ u, u ≠ t → s.phase = .callback u → s'.phase = .callback u)
    (hflag : (s'.sys.timer t).isTimer = true → (s'.sys.timer t).activated = true →
      s'.phase = .callback t ∧ s'.last t = .expired)
    (hevent : s'.last t ≠ .started) : Activation cfg s' := by
  refine hinv.touch ((hinv.rows.remove t).congr hrows) (fun list u hne => ?_) htimer hlast
    hphase (.of_unlinked (fun list => ?_) hflag hevent)
  · rw [linked_congr hrows, mem_linked_remove]
    exact and_iff_left hne
  · rw [linked_congr hrows, mem_linked_remove]
    exact fun h => h.2 rfl

theorem Activation.unlinked_of_not_isTimer (hinv : Activation cfg s)
    (hfresh : (s.sys.timer t).isTimer = false) (list : TimerList) : t ∉ s.sys.linked list := by
  intro hmem
  have hisTimer := ((hinv.timers t).linked list hmem).1
  rw [hfresh] at hisTimer
  cases hisTimer

theorem Activation.unlinked_of_not_activated (hinv : Activation cfg s)
    (hflag : (s.sys.timer t).activated = false) (list : TimerList) : t ∉ s.sys.linked list := by
  intro hmem
  have hactive := ((hinv.timers t).linked list hmem).2.2.1
  rw [hflag] at hactive
  cases hactive

theorem Activation.started (hinv : Activation cfg s) {sys : TimerSystem}
    (hlast : s'.last = update s.last t .started)
    (hphase : ∀ u, u ≠ t → s.phase = .callback u → s'.phase = .callback u)
    (hrows : sys.rows = s.sys.rows)
    (htimers : ∀ u, u ≠ t → sys.timer u = s.sys.timer u)
    (hstart : rtTimerStart cfg t sys = some s'.sys) : Activation cfg s' := by
  obtain ⟨hisTimer, -⟩ := guards_of_rtTimerStart hstart
  obtain ⟨htimer, -⟩ := fields_of_rtTimerStart hstart
  obtain ⟨hok, hmem⟩ := (hinv.rows.congr hrows).started hstart
  have hown : timerListOf cfg (s'.sys.timer t) = timerListOf cfg (sys.timer t) := by
    simp [htimer, timerListOf]
  refine hinv.touch hok (fun list u hne => ?_) (fun u hne => ?_) (fun u hne => ?_) hphase
    ⟨fun list h => ?_, fun _ _ => .inl ?_, fun _ => ?_⟩
  · simp [hmem, hne, linked_congr hrows]
  · rw [htimer, update_of_ne hne, htimers u hne]
  · rw [hlast, update_of_ne hne]
  · have hlist : list = timerListOf cfg (sys.timer t) := by simpa [hmem] using h
    refine ⟨by simp [htimer, hisTimer], hown.trans hlist.symm, by simp [htimer], by simp [hlast]⟩
  · simp [hmem, hown]
  · simp [hmem, hown]

def ReturnOk (cfg : TimerConfig) (s : CheckSystem) : CheckOp → Prop
  | .callbackReturn => ∀ t, s.phase = .callback t →
      s.periodic t = true ∨ t ∉ s.sys.linked (timerListOf cfg (s.sys.timer t))
  | _ => True

section

variable (hinv : Activation cfg s)
include hinv

theorem Activation.callbackReturn
    (hallowed : s.ReturnOk cfg .callbackReturn) (hexec : s.checkReturn cfg = some s') :
    Activation cfg s' := by
  unfold checkReturn at hexec
  split at hexec
  next t hphase =>
    have hmoved : ∀ u, u ≠ t → s.phase = .callback u → False := by
      intro u hne h
      rw [hphase] at h
      exact hne (CheckPhase.callback.inj h).symm
    split at hexec
    next hrestart =>
      rw [Bool.and_eq_true] at hrestart
      obtain ⟨sys, hstart, rfl⟩ := Option.map_eq_some_iff.mp hexec
      have hisTimer : (s.sys.timer t).isTimer = true := by
        simpa [setActivated, setTimer] using
          (guards_of_rtTimerStart hstart).1
      -- the flag is still set, so the last event is a start or the expiry itself
      have hlast : (if s.last t = .expired then .started else s.last t) = LastEvent.started := by
        rcases (hinv.timers t).activated hisTimer hrestart.2 with hmem | ⟨-, hexpired⟩
        · rw [((hinv.timers t).linked _ hmem).2.2.2]
          rfl
        · rw [if_pos hexpired]
      have htimers : ∀ u, u ≠ t → (s.sys.setActivated t false).timer u = s.sys.timer u := by
        intro u hne
        simp [setActivated, setTimer, hne]
      have hrows : (s.sys.setActivated t false).rows = s.sys.rows := rfl
      exact hinv.started (by rw [hlast]) (fun u hne h => (hmoved u hne h).elim)
        hrows htimers hstart
    next hidle =>
      cases hexec
      have hfree : ∀ list, t ∉ s.sys.linked list := by
        intro list hmem
        obtain ⟨-, hown, hactive, -⟩ := (hinv.timers t).linked list hmem
        rcases hallowed t hphase with hperiodic | hunlinked
        · exact hidle (by rw [hperiodic, hactive]; rfl)
        · exact hunlinked (hown ▸ hmem)
      have hlast : s.last t ≠ .started := fun h => hfree _ ((hinv.timers t).started h)
      refine hinv.touch (t := t) (hinv.rows.congr rfl) (fun _ _ _ => Iff.rfl)
        (fun u hne => ?_) (fun _ _ => rfl) (fun u hne h => (hmoved u hne h).elim)
        (.of_unlinked hfree (fun _ h => ?_) hlast)
      · simp [setActivated, setTimer, hne]
      · simp [setActivated, setTimer] at h
  · cases hexec

theorem Activation.due (hexec : s.checkDue = some s') : Activation cfg s' := by
  unfold checkDue at hexec
  split at hexec
  next currentTick hphase =>
    have hnone : ∀ u, s.phase ≠ .callback u := by
      intro u h
      rw [hphase] at h
      cases h
    split at hexec
    · cases hexec
      exact hinv.keep rfl (fun _ => ⟨rfl, rfl, rfl⟩) rfl fun u h => (hnone u h).elim
    next t hdue =>
      cases hexec
      refine hinv.unlink (t := t) rfl (fun _ _ => rfl) (fun u hne => ?_)
        (fun u _ h => (hnone u h).elim) (fun _ _ => ⟨rfl, ?_⟩) ?_
      · simp [setLast, hne]
      · simp [setLast]
      · simp [setLast]
  · cases hexec

theorem Activation.stop
    (hexec : (s.setLast t .stopped).call (rtTimerStop t) = some s') : Activation cfg s' := by
  obtain ⟨sys, hstop, rfl, -⟩ := call_cases hexec
  have hlast : ∀ u, u ≠ t → (s.setLast t .stopped).last u = s.last u := by
    intro u hne
    simp [setLast, hne]
  simp only [rtTimerStop] at hstop
  split at hstop
  · split at hstop
    · cases hstop
      refine hinv.unlink (t := t) rfl (fun u hne => ?_) hlast (fun _ _ h => h)
        (fun _ h => ?_) ?_
      · simp [setTimer, rtTimerRemove, setLast, hne]
      · simp [setTimer] at h
      · simp [setLast]
    next hflag =>
      cases hstop
      rw [Bool.not_eq_true] at hflag
      refine hinv.touch (t := t) (hinv.rows.congr rfl) (fun _ _ _ => Iff.rfl)
        (fun _ _ => rfl) hlast (fun _ _ h => h)
        (.of_unlinked (hinv.unlinked_of_not_activated hflag) (fun _ h => ?_) ?_)
      · exact absurd (hflag.symm.trans h) (by decide)
      · simp [setLast]
  · cases hstop

theorem Activation.detach
    (hexec : (s.setLast t .detached).call (rtTimerDetach t) = some s') : Activation cfg s' := by
  obtain ⟨sys, hdetach, rfl, -⟩ := call_cases hexec
  simp only [rtTimerDetach] at hdetach
  split at hdetach
  · cases hdetach
    refine hinv.unlink (t := t) rfl (fun u hne => ?_) (fun u hne => ?_) (fun _ _ h => h)
      (fun h _ => ?_) ?_
    · simp [setTimer, rtTimerRemove, setLast, hne]
    · simp [setLast, hne]
    · simp [setTimer] at h
    · simp [setLast]
  · cases hdetach

theorem Activation.exec {op : CheckOp} (hallowed : s.ReturnOk cfg op)
    (hexec : s.exec cfg op = some s') : Activation cfg s' := by
  cases op with
  | init t time softTimer periodic =>
    simp only [CheckSystem.exec] at hexec
    split at hexec
    · cases hexec
    next hfresh =>
      obtain ⟨sys, hsys, rfl, -⟩ := call_cases hexec
      cases hsys
      rw [Bool.not_eq_true] at hfresh
      refine hinv.touch (t := t) (hinv.rows.congr rfl) (fun _ _ _ => Iff.rfl)
        (fun u hne => ?_) (fun u hne => ?_) (fun _ _ h => h)
        (.of_unlinked (hinv.unlinked_of_not_isTimer hfresh) (fun _ h => ?_) ?_)
      · simp [rtTimerInit, setTimer, setLast, hne]
      · simp [setLast, hne]
      · simp [rtTimerInit, setTimer] at h
      · simp [setLast]
  | start t =>
    obtain ⟨sys, hstart, rfl, -⟩ := call_cases hexec
    exact hinv.started (t := t) rfl (fun _ _ h => h) rfl (fun _ _ => rfl) hstart
  | stop t => exact hinv.stop hexec
  | detach t => exact hinv.detach hexec
  | control t cmd =>
    simp only [CheckSystem.exec, rtTimerControl] at hexec
    split at hexec
    · cases cmd with
      | setTime time =>
        obtain ⟨sys, hsys, rfl, -⟩ := call_cases hexec
        cases hsys
        refine hinv.keep rfl (fun u => ?_) rfl fun _ h => h
        rcases eq_or_ne u t with rfl | hne
        · simp [setTimer, timerListOf]
        · simp [setTimer, hne]
      | setOneshot =>
        obtain ⟨sys, hsys, rfl, -⟩ := call_cases hexec
        cases hsys
        exact hinv.keep rfl (fun _ => ⟨rfl, rfl, rfl⟩) rfl fun _ h => h
      | setPeriodic =>
        obtain ⟨sys, hsys, rfl, -⟩ := call_cases hexec
        cases hsys
        exact hinv.keep rfl (fun _ => ⟨rfl, rfl, rfl⟩) rfl fun _ h => h
    · cases hexec
  | tick =>
    cases hexec
    exact hinv.keep rfl (fun _ => ⟨rfl, rfl, rfl⟩) rfl fun _ h => h
  | check =>
    simp only [CheckSystem.exec] at hexec
    split at hexec
    next hphase =>
      cases hexec
      refine hinv.keep rfl (fun _ => ⟨rfl, rfl, rfl⟩) rfl fun u h => ?_
      rw [hphase] at h
      cases h
    · cases hexec
  | due => exact hinv.due hexec
  | callbackReturn => exact hinv.callbackReturn hallowed hexec

end

end Steps

theorem activation_of_reachable {cfg : TimerConfig} {s : CheckSystem}
    (hreach : (checkMachine cfg).Reachable (ReturnOk cfg) s) : Activation cfg s :=
  hreach.invariant (Activation cfg) (fun _ => Activation.init)
    fun _ _ _ hinv hallowed hexec => hinv.exec hallowed hexec

section Future

variable {cfg : TimerConfig} {s s' : CheckSystem} {t : TimerId}

structure Quiet (cfg : TimerConfig) (t : TimerId) (s : CheckSystem) : Prop where
  rows : RowsOk cfg s.sys
  unlinked : ∀ list, t ∉ s.sys.linked list
  phase : s.phase ≠ .callback t

section

variable (hquiet : Quiet cfg t s)
include hquiet

theorem Quiet.keep (hrows : s'.sys.rows = s.sys.rows)
    (hphase : s'.phase ≠ .callback t) : Quiet cfg t s' where
  rows := hquiet.rows.congr hrows
  unlinked := fun list => linked_congr hrows ▸ hquiet.unlinked list
  phase := hphase

theorem Quiet.remove {u : TimerId} (hrows : s'.sys.rows = (rtTimerRemove u s.sys).rows)
    (hphase : s'.phase ≠ .callback t) : Quiet cfg t s' where
  rows := (hquiet.rows.remove u).congr hrows
  unlinked := fun list hmem => by
    rw [linked_congr hrows, mem_linked_remove] at hmem
    exact hquiet.unlinked list hmem.1
  phase := hphase

theorem Quiet.start {u : TimerId} (hne : u ≠ t) {sys : TimerSystem}
    (hrows : sys.rows = s.sys.rows) (hstart : rtTimerStart cfg u sys = some s'.sys)
    (hphase : s'.phase ≠ .callback t) : Quiet cfg t s' := by
  obtain ⟨hok, hmem⟩ := (hquiet.rows.congr hrows).started hstart
  refine ⟨hok, fun list h => ?_, hphase⟩
  rcases (hmem list t).mp h with ⟨rfl, -⟩ | ⟨hlinked, -⟩
  · exact hne rfl
  · rw [linked_congr hrows] at hlinked
    exact hquiet.unlinked list hlinked

theorem Quiet.exec {op : CheckOp} (hne : op ≠ .start t)
    (hexec : s.exec cfg op = some s') : Quiet cfg t s' := by
  cases op with
  | init u time softTimer periodic =>
    simp only [CheckSystem.exec] at hexec
    split at hexec
    · cases hexec
    · obtain ⟨sys, hsys, rfl, -⟩ := call_cases hexec
      cases hsys
      exact hquiet.keep rfl hquiet.phase
  | start u =>
    obtain ⟨sys, hstart, rfl, -⟩ := call_cases hexec
    have hother : u ≠ t := fun h => hne (h ▸ rfl)
    have hrows : (s.setLast u .started).sys.rows = s.sys.rows := rfl
    exact hquiet.start hother hrows hstart hquiet.phase
  | stop u =>
    obtain ⟨sys, hstop, rfl, -⟩ := call_cases hexec
    simp only [rtTimerStop] at hstop
    split at hstop
    · split at hstop
      · cases hstop
        exact hquiet.remove (u := u) rfl hquiet.phase
      · cases hstop
        exact hquiet.keep rfl hquiet.phase
    · cases hstop
  | detach u =>
    obtain ⟨sys, hdetach, rfl, -⟩ := call_cases hexec
    simp only [rtTimerDetach] at hdetach
    split at hdetach
    · cases hdetach
      exact hquiet.remove (u := u) rfl hquiet.phase
    · cases hdetach
  | control u cmd =>
    simp only [CheckSystem.exec, rtTimerControl] at hexec
    split at hexec
    · cases cmd with
      | setTime time | setOneshot | setPeriodic =>
        obtain ⟨sys, hsys, rfl, -⟩ := call_cases hexec
        cases hsys
        exact hquiet.keep rfl hquiet.phase
    · cases hexec
  | tick =>
    cases hexec
    exact hquiet.keep rfl hquiet.phase
  | check =>
    simp only [CheckSystem.exec] at hexec
    split at hexec
    · cases hexec
      exact hquiet.keep rfl (by intro h; cases h)
    · cases hexec
  | due =>
    simp only [CheckSystem.exec, checkDue] at hexec
    split at hexec
    · split at hexec
      · cases hexec
        exact hquiet.keep rfl (by intro h; cases h)
      next u hdue =>
        cases hexec
        refine hquiet.remove (u := u) rfl fun h => ?_
        cases CheckPhase.callback.inj h
        -- only a linked timer is found due
        simp only [dueTimer] at hdue
        split at hdue
        · cases hdue
        next head rest hlist =>
          split at hdue
          · cases hdue
            exact hquiet.unlinked .rtTimerList (hlist ▸ List.mem_cons_self)
          · cases hdue
    · cases hexec
  | callbackReturn =>
    simp only [CheckSystem.exec, checkReturn] at hexec
    split at hexec
    next u hphase =>
      have hother : u ≠ t := fun h => hquiet.phase (h ▸ hphase)
      split at hexec
      · obtain ⟨sys, hstart, rfl⟩ := Option.map_eq_some_iff.mp hexec
        have hrows : (s.sys.setActivated u false).rows = s.sys.rows := rfl
        exact hquiet.start hother hrows hstart (by intro h; cases h)
      · cases hexec
        exact hquiet.keep rfl (by intro h; cases h)
    · cases hexec

theorem Quiet.never_fires (hpath : (checkMachine cfg).Path (fun _ op => op ≠ .start t) s s') :
    s'.phase ≠ .callback t :=
  (hpath.invariant (Quiet cfg t) (fun _ _ _ hquiet hne hexec => hquiet.exec hne hexec)
    hquiet).phase

end

end Future

/-- While no check is running: the flag says whether a hard timer is linked, what was
stopped or detached last is not linked and will not fire, and what was started last
can be stopped. -/
structure ActivatedOk (cfg : TimerConfig) (s : CheckSystem) : Prop where
  activated : ∀ t, timerListOf cfg (s.sys.timer t) = .rtTimerList →
    ((s.sys.timer t).activated = true ↔ t ∈ s.sys.linked .rtTimerList)
  stopped : ∀ t, s.last t = .stopped ∨ s.last t = .detached →
    (∀ list, t ∉ s.sys.linked list) ∧
      ∀ s', (checkMachine cfg).Path (fun _ op => op ≠ .start t) s s' → s'.phase ≠ .callback t
  started : ∀ t, s.last t = .started →
    ∃ s', s.exec cfg (.stop t) = some s' ∧ s'.sys.result = some rtEok ∧
      ∀ list, t ∉ s'.sys.linked list

section Between

variable {cfg : TimerConfig} {s s' : CheckSystem} {t : TimerId}

theorem Activation.activated_iff (hinv : Activation cfg s) (hidle : s.phase = .idle)
    (hisTimer : (s.sys.timer t).isTimer = true) :
    (s.sys.timer t).activated = true ↔
      t ∈ s.sys.linked (timerListOf cfg (s.sys.timer t)) := by
  constructor
  · intro hactive
    rcases (hinv.timers t).activated hisTimer hactive with hmem | ⟨hphase, -⟩
    · exact hmem
    · rw [hidle] at hphase
      cases hphase
  · exact fun hmem => ((hinv.timers t).linked _ hmem).2.2.1

theorem Activation.quiet (hinv : Activation cfg s) (hidle : s.phase = .idle)
    (hlast : s.last t = .stopped ∨ s.last t = .detached) : Quiet cfg t s where
  rows := hinv.rows
  unlinked := fun list hmem => by
    have hstarted := ((hinv.timers t).linked list hmem).2.2.2
    rcases hlast with h | h
    · exact absurd (h.symm.trans hstarted) (by decide)
    · exact absurd (h.symm.trans hstarted) (by decide)
  phase := by
    rw [hidle]
    nofun

theorem Activation.stoppable (hinv : Activation cfg s) (hidle : s.phase = .idle)
    (hlast : s.last t = .started) :
    ∃ s', s.exec cfg (.stop t) = some s' ∧ s'.sys.result = some rtEok ∧
      ∀ list, t ∉ s'.sys.linked list := by
  obtain ⟨hisTimer, -, hactive, -⟩ :=
    (hinv.timers t).linked _ ((hinv.timers t).started hlast)
  refine ⟨_, by simp [CheckSystem.exec, call, setLast, hidle, rtTimerStop, hisTimer, hactive]; rfl,
    rfl, fun list hmem => ?_⟩
  exact (mem_linked_remove.mp hmem).2 rfl

/-- A one-shot timer whose callback is running loses its flag at the return. -/
def ReturnClears (s : CheckSystem) (t : TimerId) : Prop :=
  s.phase = .callback t ∧ s.periodic t = false

def DetachOk (s : CheckSystem) : CheckOp → Prop
  | .detach t => (s.sys.timer t).activated = false ∨ s.ReturnClears t
  | _ => True

def FlagKept (cfg : TimerConfig) (s : CheckSystem) (op : CheckOp) : Prop :=
  s.ReturnOk cfg op ∧ s.DetachOk op

def Cleared (s : CheckSystem) : Prop :=
  ∀ t, (s.sys.timer t).isTimer = false → (s.sys.timer t).activated = false ∨ s.ReturnClears t

theorem Cleared.touch (hcleared : s.Cleared)
    (htimer : ∀ u, u ≠ t → s'.sys.timer u = s.sys.timer u)
    (hexempt : ∀ u, u ≠ t → s.ReturnClears u → s'.ReturnClears u)
    (ht : (s'.sys.timer t).isTimer = false →
      (s'.sys.timer t).activated = false ∨ s'.ReturnClears t) : s'.Cleared := by
  intro u hfresh
  rcases eq_or_ne u t with rfl | hne
  · exact ht hfresh
  · rw [htimer u hne] at hfresh ⊢
    exact (hcleared u hfresh).imp_right (hexempt u hne)

theorem Cleared.leave (hcleared : s.Cleared) (hnone : ∀ u, s.phase ≠ .callback u)
    (htimer : s'.sys.timer = s.sys.timer) : s'.Cleared := by
  intro u hfresh
  rw [htimer] at hfresh ⊢
  exact .inl ((hcleared u hfresh).resolve_right fun hexempt => hnone u hexempt.1)

theorem Cleared.start (hcleared : s.Cleared) {sys : TimerSystem}
    (htimers : ∀ u, u ≠ t → sys.timer u = s.sys.timer u)
    (hexempt : ∀ u, u ≠ t → s.ReturnClears u → s'.ReturnClears u)
    (hstart : rtTimerStart cfg t sys = some s'.sys) : s'.Cleared := by
  obtain ⟨hisTimer, -⟩ := guards_of_rtTimerStart hstart
  obtain ⟨htimer, -⟩ := fields_of_rtTimerStart hstart
  refine hcleared.touch (t := t) (fun u hne => ?_) hexempt fun hfresh => ?_
  · rw [htimer, update_of_ne hne, htimers u hne]
  · have hstarted : (s'.sys.timer t).isTimer = true := by simpa [htimer] using hisTimer
    exact Bool.noConfusion (hstarted.symm.trans hfresh)

theorem Cleared.exec (hcleared : s.Cleared) {op : CheckOp} (hallowed : s.DetachOk op)
    (hexec : s.exec cfg op = some s') : s'.Cleared := by
  cases op with
  | init t time softTimer periodic =>
    simp only [CheckSystem.exec] at hexec
    split at hexec
    · cases hexec
    · obtain ⟨sys, hsys, rfl, -⟩ := call_cases hexec
      cases hsys
      refine hcleared.touch (t := t) (fun u hne => ?_) (fun u hne hexempt => ?_) fun _ => .inl ?_
      · simp [rtTimerInit, setTimer, setLast, hne]
      · exact ⟨hexempt.1, (update_of_ne hne ..).trans hexempt.2⟩
      · simp [rtTimerInit, setTimer]
  | start t =>
    obtain ⟨sys, hstart, rfl, -⟩ := call_cases hexec
    exact hcleared.start (fun _ _ => rfl) (fun _ _ => id) hstart
  | stop t =>
    obtain ⟨sys, hstop, rfl, -⟩ := call_cases hexec
    simp only [rtTimerStop] at hstop
    split at hstop
    · split at hstop
      · cases hstop
        refine hcleared.touch (t := t) (fun u hne => ?_) (fun _ _ => id) fun _ => .inl ?_
        · simp [setTimer, rtTimerRemove, setLast, hne]
        · simp [setTimer]
      · cases hstop
        exact hcleared
    · cases hstop
  | detach t =>
    obtain ⟨sys, hdetach, rfl, -⟩ := call_cases hexec
    simp only [rtTimerDetach] at hdetach
    split at hdetach
    · cases hdetach
      refine hcleared.touch (t := t) (fun u hne => ?_) (fun _ _ => id) fun _ => hallowed.imp ?_ id
      · simp [setTimer, rtTimerRemove, setLast, hne]
      · simp [setTimer, setLast]
    · cases hdetach
  | control t cmd =>
    simp only [CheckSystem.exec, rtTimerControl] at hexec
    split at hexec
    next hisTimer =>
      cases cmd with
      | setTime time =>
        obtain ⟨sys, hsys, rfl, -⟩ := call_cases hexec
        cases hsys
        refine hcleared.touch (t := t) (fun u hne => ?_) (fun _ _ => id) fun hfresh => ?_
        · simp [setTimer, hne]
        · simp [setTimer, hisTimer] at hfresh
      | setOneshot | setPeriodic =>
        obtain ⟨sys, hsys, rfl, -⟩ := call_cases hexec
        cases hsys
        refine hcleared.touch (t := t) (fun _ _ => rfl) (fun u hne hexempt => ?_) fun hfresh => ?_
        · exact ⟨hexempt.1, (update_of_ne hne ..).trans hexempt.2⟩
        · exact Bool.noConfusion (hisTimer.symm.trans hfresh)
    · cases hexec
  | tick =>
    cases hexec
    exact hcleared
  | check =>
    simp only [CheckSystem.exec] at hexec
    split at hexec
    next hphase =>
      cases hexec
      exact hcleared.leave (by simp [hphase]) rfl
    · cases hexec
  | due =>
    simp only [CheckSystem.exec, checkDue] at hexec
    split at hexec
    next currentTick hphase =>
      have hnone : ∀ u, s.phase ≠ .callback u := by simp [hphase]
      split at hexec
      · cases hexec
        exact hcleared.leave hnone rfl
      · cases hexec
        exact hcleared.leave hnone rfl
    · cases hexec
  | callbackReturn =>
    simp only [CheckSystem.exec, checkReturn] at hexec
    split at hexec
    next t hphase =>
      have htimers : ∀ u, u ≠ t → (s.sys.setActivated t false).timer u = s.sys.timer u := by
        intro u hne
        simp [setActivated, setTimer, hne]
      have hmoved : ∀ u, u ≠ t → ¬ s.ReturnClears u := fun u hne hexempt =>
        hne (CheckPhase.callback.inj (hphase.symm.trans hexempt.1)).symm
      split at hexec
      · obtain ⟨sys, hstart, rfl⟩ := Option.map_eq_some_iff.mp hexec
        exact hcleared.start htimers (fun u hne h => (hmoved u hne h).elim) hstart
      · cases hexec
        refine hcleared.touch htimers (fun u hne h => (hmoved u hne h).elim) fun _ => .inl ?_
        simp [setActivated, setTimer]
    · cases hexec

end Between

/-- In a run whose callbacks leave no one-shot timer of their own started, what holds
whether or not timers are detached with their flag set. -/
theorem reachable_timerOk {cfg : TimerConfig} {s : CheckSystem}
    (hreach : (checkMachine cfg).Reachable (ReturnOk cfg) s) (hidle : s.phase = .idle) :
    (∀ t, (s.sys.timer t).isTimer = true → ((s.sys.timer t).activated = true ↔
        t ∈ s.sys.linked (timerListOf cfg (s.sys.timer t)))) ∧
      (∀ t, (s.sys.timer t).isTimer = false → ∀ list, t ∉ s.sys.linked list) ∧
      ∀ t, s.last t = .stopped ∨ s.last t = .detached → Quiet cfg t s := by
  have hinv := activation_of_reachable hreach
  exact ⟨fun t hisTimer => hinv.activated_iff hidle hisTimer,
    fun t hfresh => hinv.unlinked_of_not_isTimer hfresh, fun t hlast => hinv.quiet hidle hlast⟩

theorem cleared_of_reachable {cfg : TimerConfig} {s : CheckSystem}
    (hreach : (checkMachine cfg).Reachable (FlagKept cfg) s) : s.Cleared := by
  have hboth : Activation cfg s ∧ s.Cleared := by
    refine hreach.invariant (fun s => Activation cfg s ∧ s.Cleared) (fun s hinit => ?_)
      (fun s op s' hinv hallowed hexec => ?_)
    · exact ⟨.init hinit, fun t _ => .inl (hinit.1.2.1 t)⟩
    · exact ⟨hinv.1.exec hallowed.1 hexec, hinv.2.exec hallowed.2 hexec⟩
  exact hboth.2

/-- In every run, of calls and of callbacks that make calls. -/
theorem reachable_activatedOk {cfg : TimerConfig} {s : CheckSystem}
    (hreach : (checkMachine cfg).Reachable (FlagKept cfg) s) (hidle : s.phase = .idle) :
    s.ActivatedOk cfg := by
  have hreturn : (checkMachine cfg).Reachable (ReturnOk cfg) s :=
    hreach.mono fun _ _ hallowed => hallowed.1
  have hcleared := cleared_of_reachable hreach
  obtain ⟨hlive, hgone, hquiet⟩ := reachable_timerOk hreturn hidle
  refine ⟨fun t hown => ?_, fun t hlast => ?_, fun t hlast => ?_⟩
  · cases hisTimer : (s.sys.timer t).isTimer with
    | true => exact hown ▸ hlive t hisTimer
    | false =>
      have hclear := (hcleared t hisTimer).resolve_right fun hexempt =>
        CheckPhase.noConfusion (hidle.symm.trans hexempt.1)
      simp [hclear, hgone t hisTimer]
  · exact ⟨(hquiet t hlast).unlinked, fun s' hpath => (hquiet t hlast).never_fires hpath⟩
  · exact (activation_of_reachable hreturn).stoppable hidle hlast

instance (cfg : TimerConfig) (s : CheckSystem) : (op : CheckOp) → Decidable (s.ReturnOk cfg op)
  | .callbackReturn =>
    match hphase : s.phase with
    | .callback t =>
      decidable_of_iff (s.periodic t = true ∨
        t ∉ s.sys.linked (timerListOf cfg (s.sys.timer t)))
        ⟨fun h u hu => by cases CheckPhase.callback.inj (hphase.symm.trans hu); exact h,
          fun h => h t hphase⟩
    | .idle => .isTrue fun u hu => by cases hphase.symm.trans hu
    | .loop _ => .isTrue fun u hu => by cases hphase.symm.trans hu
  | .init .. | .start _ | .stop _ | .detach _ | .control .. | .tick | .check | .due =>
    .isTrue trivial

instance (s : CheckSystem) : (op : CheckOp) → Decidable (s.DetachOk op)
  | .detach t => inferInstanceAs (Decidable ((s.sys.timer t).activated = false ∨
      s.phase = .callback t ∧ s.periodic t = false))
  | .init .. | .start _ | .stop _ | .control .. | .tick | .check | .due | .callbackReturn =>
    .isTrue trivial

instance (cfg : TimerConfig) (s : CheckSystem) (op : CheckOp) : Decidable (s.FlagKept cfg op) :=
  inferInstanceAs (Decidable (_ ∧ _))

def checkStart : CheckSystem where
  sys := timerStart
  periodic := fun t => t % 2 == 0
  phase := .idle
  last := fun _ => .created

theorem checkStart_initial : (checkMachine twoRows).init checkStart :=
  ⟨⟨fun _ => rfl, fun _ => rfl, rfl, rfl, by decide⟩, rfl, fun _ => rfl⟩

/-- A periodic timer that its callback starts again and a one-shot timer that stops
the first and is stopped by nobody. -/
def checkRun : List CheckOp :=
  [.start 2, .start 1, .tick, .check, .due, .stop 2, .callbackReturn, .due,
    .start 2, .tick, .tick, .check, .due, .start 2, .callbackReturn, .due]

theorem reachable_activatedOk_checkRun :
    ∃ s, (checkMachine twoRows).Reachable (FlagKept twoRows) s ∧ s.phase = .idle ∧
      s.sys.linked .rtTimerList = [2] ∧ s.ActivatedOk twoRows := by
  have hrun : ((checkMachine twoRows).run (FlagKept twoRows) checkStart checkRun).map
      (fun s => (s.phase, s.sys.linked .rtTimerList)) = some (.idle, [2]) := by
    decide +kernel
  obtain ⟨s, hreach, hend⟩ := Machine.exists_reachable_of_run checkStart_initial hrun
  obtain ⟨hidle, hlinked⟩ := Prod.mk.inj hend
  exact ⟨s, hreach, hidle, hlinked, reachable_activatedOk hreach hidle⟩

def restartRun : List CheckOp :=
  [.start 1, .tick, .check, .due, .start 1, .callbackReturn, .due]

/-- The timer is linked with its flag clear, and cannot be stopped. -/
theorem activatedOk_fails_after_restart :
    ∃ s, (checkMachine twoRows).Reachable (fun _ _ => True) s ∧ s.phase = .idle ∧
      s.last 1 = .started ∧ s.sys.linked .rtTimerList = [1] ∧
      (s.sys.timer 1).activated = false ∧
      (s.exec twoRows (.stop 1)).map (fun s' => (s'.sys.result, s'.sys.linked .rtTimerList)) =
        some (some (-rtError), [1]) ∧
      ¬ s.ActivatedOk twoRows := by
  have hrun : ((checkMachine twoRows).run (fun _ _ => True) checkStart restartRun).map
      (fun s => (decide (s.phase = .idle ∧ s.last 1 = .started ∧ s.sys.linked .rtTimerList = [1]),
        decide ((s.sys.timer 1).activated = false ∧
          timerListOf twoRows (s.sys.timer 1) = .rtTimerList),
        decide ((s.exec twoRows (.stop 1)).map
          (fun s' => (s'.sys.result, s'.sys.linked .rtTimerList)) =
            some (some (-rtError), [1])))) = some (true, true, true) := by
    decide +kernel
  obtain ⟨s, hreach, hend⟩ := Machine.exists_reachable_of_run checkStart_initial hrun
  simp only [Prod.mk.injEq, decide_eq_true_eq] at hend
  obtain ⟨⟨hidle, hlast, hlinked⟩, ⟨hflag, hown⟩, hstop⟩ := hend
  refine ⟨s, hreach, hidle, hlast, hlinked, hflag, hstop, fun hok => ?_⟩
  have hactive := (hok.activated 1 hown).mpr (by simp [hlinked])
  rw [hflag] at hactive
  cases hactive

end CheckSystem

end RtThread.Clock
