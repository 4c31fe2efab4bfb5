import Mathlib.Data.Rat.Floor
import RtThread.Clock.TimerActivation

namespace RtThread.Clock

open Function RtThread.Lib CheckSystem

/-! `rt_tick_from_millisecond`, and `rt_thread_mdelay` on the timer of the thread.  `int` has 32
bits and wraps around. -/

structure TickRate where
  /-- `RT_TICK_PER_SECOND` -/
  rtTickPerSecond : Nat
  pos : 0 < rtTickPerSecond
  le : rtTickPerSecond ≤ 1000

abbrev rtWaitingForever : Int32 := -1

def rtTickFromMillisecond (rate : TickRate) (ms : Int32) : Int32 :=
  if ms < 0 then rtWaitingForever
  else (Int32.ofNat rate.rtTickPerSecond * ms + 999) / 1000

/-- `rt_thread_sleep` up to `rt_schedule`, with the timer of the thread: one section, in which
`rt_thread_suspend` stops the timer. -/
def rtThreadSleep (cfg : TimerConfig) (t : TimerId) (tick : Nat) (s : CheckSystem) :
    Option CheckSystem := do
  let s ← s.exec cfg (.stop t)
  let s ← s.exec cfg (.control t (.setTime tick))
  s.exec cfg (.start t)

def rtThreadMdelay (cfg : TimerConfig) (rate : TickRate) (t : TimerId) (ms : Int32)
    (s : CheckSystem) : Option CheckSystem :=
  rtThreadSleep cfg t (rtTickFromMillisecond rate ms).toUInt32.toNat s

def CheckOp.Leaves (t : TimerId) : CheckOp → Prop
  | .init u _ _ _ => u ≠ t
  | .start u => u ≠ t
  | .stop u => u ≠ t
  | .detach u => u ≠ t
  | .control u _ => u ≠ t
  | .tick | .check | .due | .callbackReturn => True

instance (t : TimerId) : (op : CheckOp) → Decidable (op.Leaves t)
  | .init .. | .start _ | .stop _ | .detach _ | .control .. =>
    inferInstanceAs (Decidable (_ ≠ _))
  | .tick | .check | .due | .callbackReturn => .isTrue trivial

/-- The thread that calls `rt_thread_mdelay` is not woken by its timer before as many ticks have
passed as make `ms` milliseconds. -/
def SleepsLong (rate : TickRate) (ms : Int32) : Prop :=
  ∀ cfg t s s' s'' ops, s.sys.tick < 2 ^ 32 → s.phase ≠ .callback t →
    rtThreadMdelay cfg rate t ms s = some s' →
    (checkMachine cfg).run (fun _ op => op.Leaves t) s' ops = some s'' →
    (1000 * ops.count .tick : Int) < rate.rtTickPerSecond * ms.toInt →
    s''.phase ≠ .callback t

structure ConvertsExactly (rate : TickRate) (ms : Int32) : Prop where
  exact : (rtTickFromMillisecond rate ms).toInt = ⌈(rate.rtTickPerSecond * ms.toInt : ℚ) / 1000⌉
  nonneg : 0 ≤ rtTickFromMillisecond rate ms
  pos : 0 < ms → rtTickFromMillisecond rate ms ≠ 0
  mono : ∀ less, 0 ≤ less → less ≤ ms →
    rtTickFromMillisecond rate less ≤ rtTickFromMillisecond rate ms
  sleeps : SleepsLong rate ms

section Tick

variable {rate : TickRate} {ms : Int32}

theorem ceil_ticks (rate : TickRate) (ms : Int32) :
    ⌈(rate.rtTickPerSecond * ms.toInt : ℚ) / 1000⌉ =
      (rate.rtTickPerSecond * ms.toInt + 999) / 1000 := by
  have hceil := Rat.ceil_intCast_div_natCast (rate.rtTickPerSecond * ms.toInt) 1000
  push_cast at hceil
  rw [hceil]
  omega

theorem toInt_rtTickFromMillisecond (hms : 0 ≤ ms) :
    (rtTickFromMillisecond rate ms).toInt =
      ((rate.rtTickPerSecond * ms.toInt + 999).bmod (2 ^ 32)).tdiv 1000 := by
  have hle := rate.le
  have hrate : (Int32.ofNat rate.rtTickPerSecond).toInt = rate.rtTickPerSecond :=
    Int32.toInt_ofNat_of_lt (by omega)
  have hnot : ¬ ms < 0 := by
    rw [Int32.lt_iff_toInt_lt]
    rw [Int32.le_iff_toInt_le] at hms
    exact Int.not_lt.mpr hms
  rw [rtTickFromMillisecond, if_neg hnot, Int32.toInt_div_of_ne_right _ _ (by decide),
    Int32.toInt_add, Int32.toInt_mul, hrate, Int.bmod_add_bmod]
  rfl

theorem toInt_nonneg (hms : 0 ≤ ms) : 0 ≤ ms.toInt := by
  rw [Int32.le_iff_toInt_le] at hms
  exact hms

theorem exact_iff (hms : 0 ≤ ms) :
    (rtTickFromMillisecond rate ms).toInt = ⌈(rate.rtTickPerSecond * ms.toInt : ℚ) / 1000⌉ ↔
      rate.rtTickPerSecond * ms.toInt + 999 < 2 ^ 31 := by
  have hnonneg : 0 ≤ rate.rtTickPerSecond * ms.toInt :=
    Int.mul_nonneg (Int.natCast_nonneg _) (toInt_nonneg hms)
  rw [toInt_rtTickFromMillisecond hms, ceil_ticks]
  generalize rate.rtTickPerSecond * ms.toInt = product at *
  constructor
  · intro heq
    by_contra hover
    have hwraps : (product + 999).bmod (2 ^ 32) ≤ product + 999 - 2 ^ 32 := by
      rw [Int.bmod_def]
      omega
    rcases Int.lt_or_le ((product + 999).bmod (2 ^ 32)) 0 with hneg | hpos
    · have htdiv : 0 ≤ (-(product + 999).bmod (2 ^ 32)).tdiv 1000 :=
        Int.tdiv_nonneg (by omega) (by decide)
      rw [Int.neg_tdiv] at htdiv
      omega
    · rw [Int.tdiv_eq_ediv_of_nonneg hpos] at heq
      omega
  · intro hfits
    rw [Int.bmod_eq_of_le (by omega) (by omega), Int.tdiv_eq_ediv_of_nonneg (by omega)]

end Tick

section Sleep

variable {cfg : TimerConfig} {s s' : CheckSystem} {t : TimerId} {start n k : Nat}

structure Sleeping (t : TimerId) (start n k : Nat) (s : CheckSystem) : Prop where
  tick : s.sys.tick = (start + k) % 2 ^ 32
  timeoutTick : (s.sys.timer t).timeoutTick = (start + n) % 2 ^ 32
  phase : s.phase ≠ .callback t
  current : ∀ currentTick, s.phase = .loop currentTick →
    ∃ j ≤ k, currentTick = (start + j) % 2 ^ 32

theorem Sleeping.call (hsleeping : Sleeping t start n k s) (htick : s'.sys.tick = s.sys.tick)
    (htimer : s'.sys.timer t = s.sys.timer t) (hphase : s'.phase = s.phase) :
    Sleeping t start n k s' where
  tick := htick.trans hsleeping.tick
  timeoutTick := by rw [htimer, hsleeping.timeoutTick]
  phase := hphase ▸ hsleeping.phase
  current := hphase ▸ hsleeping.current

theorem Sleeping.loop (hsleeping : Sleeping t start n k s) (htick : s'.sys.tick = s.sys.tick)
    (htimer : s'.sys.timer t = s.sys.timer t) (hphase : s'.phase = .loop s.sys.tick) :
    Sleeping t start n k s' where
  tick := htick.trans hsleeping.tick
  timeoutTick := by rw [htimer, hsleeping.timeoutTick]
  phase := by
    rw [hphase]
    nofun
  current := by
    intro currentTick h
    rw [hphase] at h
    cases h
    exact ⟨k, Nat.le_refl k, hsleeping.tick⟩

theorem timer_rtTimerStart {s s' : TimerSystem} {u : TimerId}
    (hstart : rtTimerStart cfg u s = some s') (hne : u ≠ t) : s'.timer t = s.timer t := by
  rw [(fields_of_rtTimerStart hstart).1, update_of_ne (Ne.symm hne)]

section

variable (hsleeping : Sleeping t start n k s)
include hsleeping

theorem Sleeping.due (hexec : s.checkDue = some s')
    (hn : n < rtTickMax / 2) (hk : k < n) : Sleeping t start n k s' := by
  simp only [checkDue] at hexec
  split at hexec
  rotate_left
  · cases hexec
  next currentTick hphase =>
    obtain ⟨j, hj, hcurrent⟩ := hsleeping.current currentTick hphase
    split at hexec
    · cases hexec
      refine ⟨hsleeping.tick, hsleeping.timeoutTick, fun h => ?_, fun _ h => ?_⟩
      all_goals cases h
    next u hdue =>
      cases hexec
      have hother : u ≠ t := by
        rintro rfl
        simp only [dueTimer] at hdue
        split at hdue
        · cases hdue
        · split at hdue
          next hpast =>
            cases hdue
            rw [hsleeping.timeoutTick, hcurrent] at hpast
            simp only [sub32, rtTickMax] at hpast hn
            omega
          · cases hdue
      refine ⟨hsleeping.tick, hsleeping.timeoutTick,
        fun h => hother (CheckPhase.callback.inj h), fun _ h => ?_⟩
      cases h

theorem Sleeping.callbackReturn
    (hexec : s.checkReturn cfg = some s') : Sleeping t start n k s' := by
  simp only [checkReturn] at hexec
  split at hexec
  rotate_left
  · cases hexec
  next u hphase =>
    have hother : u ≠ t := fun h => hsleeping.phase (h ▸ hphase)
    have htimer : (s.sys.setActivated u false).timer t = s.sys.timer t :=
      update_of_ne (Ne.symm hother) ..
    split at hexec
    · obtain ⟨sys, hstart, rfl⟩ := Option.map_eq_some_iff.mp hexec
      have hreset : (s.sys.setActivated u false).tick = s.sys.tick := rfl
      have htick : sys.tick = s.sys.tick := hreset ▸ (fields_of_rtTimerStart hstart).2.1
      exact hsleeping.loop htick ((timer_rtTimerStart hstart hother).trans htimer) rfl
    · cases hexec
      exact hsleeping.loop rfl htimer rfl

theorem Sleeping.exec {op : CheckOp} (hleaves : op.Leaves t)
    (hexec : s.exec cfg op = some s') (hn : n < rtTickMax / 2)
    (hk : k + [op].count .tick < n) : Sleeping t start n (k + [op].count .tick) s' := by
  cases op with
  | init u time softTimer periodic =>
    simp only [CheckSystem.exec] at hexec
    split at hexec
    · cases hexec
    · obtain ⟨sys, hsys, rfl, -⟩ := CheckSystem.call_cases hexec
      cases hsys
      exact hsleeping.call rfl (update_of_ne (Ne.symm hleaves) ..) rfl
  | start u =>
    obtain ⟨sys, hstart, rfl, -⟩ := CheckSystem.call_cases hexec
    exact hsleeping.call (fields_of_rtTimerStart hstart).2.1 (timer_rtTimerStart hstart hleaves) rfl
  | stop u =>
    obtain ⟨sys, hstop, rfl, -⟩ := CheckSystem.call_cases hexec
    simp only [rtTimerStop] at hstop
    split at hstop
    · split at hstop
      · cases hstop
        exact hsleeping.call rfl (update_of_ne (Ne.symm hleaves) ..) rfl
      · cases hstop
        exact hsleeping.call rfl rfl rfl
    · cases hstop
  | detach u =>
    obtain ⟨sys, hdetach, rfl, -⟩ := CheckSystem.call_cases hexec
    simp only [rtTimerDetach] at hdetach
    split at hdetach
    · cases hdetach
      exact hsleeping.call rfl (update_of_ne (Ne.symm hleaves) ..) rfl
    · cases hdetach
  | control u cmd =>
    simp only [CheckSystem.exec, CheckSystem.rtTimerControl] at hexec
    split at hexec
    · cases cmd with
      | setTime time =>
        obtain ⟨sys, hsys, rfl, -⟩ := CheckSystem.call_cases hexec
        cases hsys
        exact hsleeping.call rfl (update_of_ne (Ne.symm hleaves) ..) rfl
      | setOneshot | setPeriodic =>
        obtain ⟨sys, hsys, rfl, -⟩ := CheckSystem.call_cases hexec
        cases hsys
        exact hsleeping.call rfl rfl rfl
    · cases hexec
  | tick =>
    cases hexec
    refine ⟨?_, hsleeping.timeoutTick, hsleeping.phase, fun currentTick h => ?_⟩
    · change add32 s.sys.tick 1 = (start + (k + 1)) % 2 ^ 32
      rw [hsleeping.tick, add32]
      omega
    · obtain ⟨j, hj, hcurrent⟩ := hsleeping.current currentTick h
      exact ⟨j, Nat.le_succ_of_le hj, hcurrent⟩
  | check =>
    simp only [CheckSystem.exec] at hexec
    split at hexec
    · cases hexec
      exact hsleeping.loop rfl rfl rfl
    · cases hexec
  | due => exact hsleeping.due hexec hn hk
  | callbackReturn => exact hsleeping.callbackReturn hexec

theorem Sleeping.run {ops : List CheckOp}
    (hrun : (checkMachine cfg).run (fun _ op => op.Leaves t) s ops = some s')
    (hn : n < rtTickMax / 2) (hk : k + ops.count .tick < n) :
    Sleeping t start n (k + ops.count .tick) s' := by
  induction ops generalizing s k with
  | nil =>
    cases hrun
    exact hsleeping
  | cons op ops ih =>
    simp only [Machine.run] at hrun
    split at hrun
    next hleaves =>
      split at hrun
      · cases hrun
      next mid hexec =>
        have hcount : (op :: ops).count .tick = [op].count .tick + ops.count .tick :=
          by simp only [← List.count_append, List.singleton_append]
        rw [hcount, ← Nat.add_assoc] at hk ⊢
        exact ih (hsleeping.exec hleaves hexec hn (by omega)) hrun hk
    · cases hrun

end

theorem timeoutTick_rtTimerStart {s s' : TimerSystem} (hstart : rtTimerStart cfg t s = some s') :
    (s'.timer t).timeoutTick = add32 s.tick (s.timer t).initTick := by
  rw [(fields_of_rtTimerStart hstart).1, update_self]

theorem rtTimerStop_tick {s s' : TimerSystem} (hstop : rtTimerStop t s = some s') :
    s'.tick = s.tick := by
  simp only [rtTimerStop] at hstop
  split at hstop
  · split at hstop
    · cases hstop
      rfl
    · cases hstop
      rfl
  · cases hstop

theorem Sleeping.begin {tick : Nat} (hsleep : rtThreadSleep cfg t tick s = some s')
    (htick : s.sys.tick < 2 ^ 32) (hphase : s.phase ≠ .callback t) :
    tick < rtTickMax / 2 ∧ Sleeping t s.sys.tick tick 0 s' := by
  obtain ⟨s₁, hfirst, hrest⟩ := Option.bind_eq_some_iff.mp hsleep
  obtain ⟨s₂, hcontrol, hlast⟩ := Option.bind_eq_some_iff.mp hrest
  obtain ⟨sys₁, hstop, rfl, -⟩ := CheckSystem.call_cases hfirst
  simp only [CheckSystem.exec, CheckSystem.rtTimerControl] at hcontrol
  split at hcontrol
  rotate_left
  · cases hcontrol
  obtain ⟨sys₂, hset, rfl, -⟩ := CheckSystem.call_cases hcontrol
  cases hset
  obtain ⟨sys₃, hstart, rfl, hnoloop⟩ := CheckSystem.call_cases hlast
  obtain ⟨-, htime⟩ := guards_of_rtTimerStart hstart
  have hafter := timeoutTick_rtTimerStart hstart
  have hstopped : sys₁.tick = s.sys.tick := rtTimerStop_tick hstop
  have hstarted := (fields_of_rtTimerStart hstart).2.1
  simp only [TimerSystem.setTimer, setLast, update_self]
    at htime hafter hstarted
  refine ⟨htime, ?_, ?_, hphase, fun currentTick h => absurd h (hnoloop currentTick)⟩
  · dsimp only
    omega
  · rw [hafter, add32, hstopped]

theorem sleepsLong {rate : TickRate} {ms : Int32} (hms : 0 ≤ ms)
    (hfits : rate.rtTickPerSecond * ms.toInt + 999 < 2 ^ 31) : SleepsLong rate ms := by
  intro cfg t s s' s'' ops htick hphase hdelay hrun hearly
  obtain ⟨hlt, hsleeping⟩ := Sleeping.begin hdelay htick hphase
  have hexact := (exact_iff hms).mpr hfits
  rw [ceil_ticks] at hexact
  have hpos : 0 ≤ rtTickFromMillisecond rate ms := by
    rw [Int32.le_iff_toInt_le, hexact]
    have hnonneg := Int.mul_nonneg (Int.natCast_nonneg rate.rtTickPerSecond) (toInt_nonneg hms)
    show 0 ≤ _
    omega
  have hticks : ((rtTickFromMillisecond rate ms).toUInt32.toNat : Int) =
      (rate.rtTickPerSecond * ms.toInt + 999) / 1000 := by
    rw [Int32.toNat_toUInt32_of_le hpos, ← hexact]
    exact Int.toNat_of_nonneg (toInt_nonneg hpos)
  have hcount : 0 + ops.count .tick < (rtTickFromMillisecond rate ms).toUInt32.toNat := by
    omega
  exact (hsleeping.run hrun hlt hcount).phase

end Sleep

/-- For every tick rate and the whole documented range of milliseconds. -/
theorem rtTickFromMillisecond_right (rate : TickRate) (ms : Int32) (hms : 0 ≤ ms) :
    ConvertsExactly rate ms ↔ rate.rtTickPerSecond * ms.toInt + 999 < 2 ^ 31 := by
  constructor
  · intro hconverts
    exact (exact_iff hms).mp hconverts.exact
  intro hfits
  have hrate : (0 : Int) < rate.rtTickPerSecond := Int.natCast_pos.mpr rate.pos
  have hvalue : ∀ less : Int32, 0 ≤ less → less ≤ ms →
      (rtTickFromMillisecond rate less).toInt = (rate.rtTickPerSecond * less.toInt + 999) / 1000 ∧
      rate.rtTickPerSecond * less.toInt ≤ rate.rtTickPerSecond * ms.toInt := by
    intro less hless hle
    rw [Int32.le_iff_toInt_le] at hle
    have hmul := Int.mul_le_mul_of_nonneg_left hle (Int.le_of_lt hrate)
    refine ⟨?_, hmul⟩
    rw [(exact_iff hless).mpr (by omega), ceil_ticks]
  obtain ⟨hexact, -⟩ := hvalue ms hms (Int32.le_refl ms)
  refine ⟨(exact_iff hms).mpr hfits, ?_, fun hpos hzero => ?_, fun less hless hle => ?_,
    sleepsLong hms hfits⟩
  · have hnonneg := Int.mul_nonneg (Int.le_of_lt hrate) (toInt_nonneg hms)
    rw [Int32.le_iff_toInt_le, hexact]
    show 0 ≤ _
    omega
  · rw [Int32.lt_iff_toInt_lt] at hpos
    have hprod := Int.mul_pos hrate hpos
    rw [hzero] at hexact
    have hnot : (0 : Int) = (rate.rtTickPerSecond * ms.toInt + 999) / 1000 := hexact
    omega
  · obtain ⟨hvalue, hmul⟩ := hvalue less hless hle
    rw [Int32.le_iff_toInt_le, hvalue, hexact]
    omega

def millisecondTick : TickRate := ⟨1000, by decide, by decide⟩

theorem rtTickFromMillisecond_right_halfHour :
    ConvertsExactly millisecondTick 1800000 ↔
      millisecondTick.rtTickPerSecond * (1800000 : Int32).toInt + 999 < 2 ^ 31 :=
  rtTickFromMillisecond_right millisecondTick 1800000 (by decide)

/-- 36 minutes give a negative tick, 71 minutes and 35 seconds none at all, and one second less
`RT_WAITING_FOREVER`. -/
theorem rtTickFromMillisecond_wraps :
    (rtTickFromMillisecond millisecondTick 2147483 = -2147483 ∧
      ¬ ConvertsExactly millisecondTick 2147483) ∧
    (rtTickFromMillisecond millisecondTick 4294966 = 0 ∧
      ¬ ConvertsExactly millisecondTick 4294966) ∧
    (rtTickFromMillisecond millisecondTick 4294965 = rtWaitingForever ∧
      ¬ ConvertsExactly millisecondTick 4294965) := by
  refine ⟨⟨by decide, fun h => ?_⟩, ⟨by decide, fun h => ?_⟩, ⟨by decide, fun h => ?_⟩⟩
  · exact absurd h.nonneg (by decide)
  · exact h.pos (by decide) (by decide)
  · exact absurd h.nonneg (by decide)

end RtThread.Clock
