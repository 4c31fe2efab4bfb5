import RtThread.Libc.ClockTime

namespace RtThread.Libc

section Timeout

def secondsLeft (tp time : Timespec) : Int :=
  (time.nanoseconds - tp.nanoseconds) / nanosecondPerSecond

def nanosecondsLeft (tp time : Timespec) : Int :=
  (time.nanoseconds - tp.nanoseconds) % nanosecondPerSecond

/-- A timeout is the distance in ticks, rounded down; so a wait lasts until less than a tick is left,
and is none for a time in the past. -/
structure TimeoutRight (rtTickPerSecond : Nat) (tp time : Timespec) : Prop where
  exact : clockTimeToTick rtTickPerSecond tp (some time) =
    max 0 ((time.nanoseconds - tp.nanoseconds) * rtTickPerSecond / nanosecondPerSecond)
  waits : (time.nanoseconds - tp.nanoseconds) * rtTickPerSecond <
    (clockTimeToTick rtTickPerSecond tp (some time) + 1) * nanosecondPerSecond
  past : time.nanoseconds ≤ tp.nanoseconds → clockTimeToTick rtTickPerSecond tp (some time) = 0

/-- The product of the nanoseconds and the tick rate is not cut, or the time is in the past and not
too far. -/
def TicksFit (rtTickPerSecond : Nat) (tp time : Timespec) : Prop :=
  nanosecondsLeft tp time * rtTickPerSecond < 2 ^ 32 ∨
    secondsLeft tp time < 0 ∧ -2 ^ 31 ≤ secondsLeft tp time * rtTickPerSecond +
      nanosecondsLeft tp time * rtTickPerSecond % 2 ^ 32 / nanosecondPerSecond

variable {rtTickPerSecond : Nat} {tp time : Timespec}

theorem borrow_eq (hnow : tp.Normal) (htime : time.Normal)
    (hlow : -2 ^ 31 ≤ secondsLeft tp time) (hhigh : secondsLeft tp time < 2 ^ 31) :
    (if int32 (time.tvNsec - tp.tvNsec) < 0 then
      (int32 (nanosecondPerSecond - (tp.tvNsec - time.tvNsec)), int32 (time.tvSec - tp.tvSec - 1))
    else (int32 (time.tvNsec - tp.tvNsec), int32 (time.tvSec - tp.tvSec))) =
      (nanosecondsLeft tp time, secondsLeft tp time) := by
  unfold Timespec.Normal at hnow htime
  unfold secondsLeft nanosecondsLeft Timespec.nanoseconds at *
  simp only [nanosecondPerSecond] at *
  have hsplit : int32 (time.tvNsec - tp.tvNsec) = time.tvNsec - tp.tvNsec :=
    int32_eq (by omega) (by omega)
  rw [hsplit]
  split
  next hborrow =>
    rw [int32_eq (by omega) (by omega), int32_eq (by omega) (by omega)]
    congr 1 <;> omega
  next hplain =>
    rw [int32_eq (by omega) (by omega)]
    congr 1 <;> omega

theorem clockTimeToTick_eq (rtTickPerSecond : Nat) (hnow : tp.Normal) (htime : time.Normal)
    (hlow : -2 ^ 31 ≤ secondsLeft tp time) (hhigh : secondsLeft tp time < 2 ^ 31) :
    clockTimeToTick rtTickPerSecond tp (some time) =
      max 0 (int32 (secondsLeft tp time * rtTickPerSecond +
        nanosecondsLeft tp time * rtTickPerSecond % 2 ^ 32 / nanosecondPerSecond)) := by
  unfold clockTimeToTick
  dsimp only
  rw [borrow_eq hnow htime hlow hhigh]
  dsimp only
  generalize secondsLeft tp time * rtTickPerSecond = whole
  generalize nanosecondsLeft tp time * rtTickPerSecond = part
  have htick : int32 (uint32 (int32 whole) + uint32 (int32 part) / nanosecondPerSecond) =
      int32 (whole + part % 2 ^ 32 / nanosecondPerSecond) := by
    unfold int32 uint32
    simp only [nanosecondPerSecond]
    omega
  rw [htick]
  split <;> omega

theorem ticks_iff {whole part rate : Int} (hrate : 1 ≤ rate) (hslow : rate ≤ 1000) (hpart : 0 ≤ part) (hshort : part < rate * 1000000000)
    (hwhole : 0 ≤ whole ∨ whole ≤ -rate) (hlow : -2 ^ 31 * 1000000000 < whole * 1000000000 + part)
    (hhigh : whole * 1000000000 + part < 2 ^ 31 * 1000000000) :
    max 0 (int32 (whole + part % 2 ^ 32 / 1000000000)) =
        max 0 ((whole * 1000000000 + part) / 1000000000) ↔
      part < 2 ^ 32 ∨ whole < 0 ∧ -2 ^ 31 ≤ whole + part % 2 ^ 32 / 1000000000 := by
  have hexact : (whole * 1000000000 + part) / 1000000000 = whole + part / 1000000000 := by omega
  have hcut : part % 2 ^ 32 / 1000000000 ≤ part / 1000000000 := by omega
  have hlost : part % 2 ^ 32 / 1000000000 = part / 1000000000 ↔ part < 2 ^ 32 := by omega
  have hnonneg : 0 ≤ part % 2 ^ 32 / 1000000000 := by omega
  have hfew : part / 1000000000 < rate := by omega
  rw [hexact]
  rcases hwhole with hwhole | hwhole
  · rw [int32_eq (by omega) (by omega)]
    omega
  · by_cases hfit : -2 ^ 31 ≤ whole + part % 2 ^ 32 / 1000000000
    · rw [int32_eq hfit (by omega)]
      omega
    · -- the sum wraps around to a time in the future
      have hwrapped : int32 (whole + part % 2 ^ 32 / 1000000000) =
          whole + part % 2 ^ 32 / 1000000000 + 2 ^ 32 := by
        unfold int32
        omega
      rw [hwrapped]
      omega

/-- A timeout is right just when no tick is lost. -/
theorem timeoutRight_iff (rtTickPerSecond : Nat) (tp time : Timespec) (hpos : 1 ≤ rtTickPerSecond)
    (hrate : rtTickPerSecond ≤ 1000) (hnow : tp.Normal) (htime : time.Normal)
    (hlow : -2 ^ 31 * nanosecondPerSecond < (time.nanoseconds - tp.nanoseconds) * rtTickPerSecond)
    (hhigh : (time.nanoseconds - tp.nanoseconds) * rtTickPerSecond < 2 ^ 31 * nanosecondPerSecond) :
    TimeoutRight rtTickPerSecond tp time ↔ TicksFit rtTickPerSecond tp time := by
  have hdistance : time.nanoseconds - tp.nanoseconds =
      secondsLeft tp time * nanosecondPerSecond + nanosecondsLeft tp time := by
    unfold secondsLeft nanosecondsLeft
    simp only [nanosecondPerSecond]
    omega
  have hpart0 : 0 ≤ nanosecondsLeft tp time := Int.emod_nonneg _ (by decide)
  have hpart1 : nanosecondsLeft tp time < nanosecondPerSecond := Int.emod_lt_of_pos _ (by decide)
  have hrate0 : (1 : Int) ≤ rtTickPerSecond := by exact_mod_cast hpos
  have hproduct : (time.nanoseconds - tp.nanoseconds) * rtTickPerSecond =
      secondsLeft tp time * rtTickPerSecond * nanosecondPerSecond +
        nanosecondsLeft tp time * rtTickPerSecond := by
    rw [hdistance, Int.add_mul, Int.mul_right_comm]
  have hshort : nanosecondsLeft tp time * rtTickPerSecond < rtTickPerSecond * nanosecondPerSecond := by
    nlinarith
  have hpart : 0 ≤ nanosecondsLeft tp time * rtTickPerSecond := by positivity
  have hseconds : -2 ^ 31 ≤ secondsLeft tp time ∧ secondsLeft tp time < 2 ^ 31 := by
    constructor
    · by_contra hfar
      nlinarith
    · by_contra hfar
      nlinarith
  have hwhole : 0 ≤ secondsLeft tp time * rtTickPerSecond ∨
      secondsLeft tp time * rtTickPerSecond ≤ -rtTickPerSecond := by
    rcases lt_or_ge (secondsLeft tp time) 0 with hneg | hnonneg
    · right
      nlinarith
    · left
      positivity
  have hsign : secondsLeft tp time * rtTickPerSecond < 0 ↔ secondsLeft tp time < 0 := by
    rcases lt_or_ge (secondsLeft tp time) 0 with hneg | hnonneg
    · exact iff_of_true (by nlinarith) hneg
    · exact iff_of_false (not_lt.mpr (by positivity)) (by omega)
  have htick := clockTimeToTick_eq rtTickPerSecond hnow htime hseconds.1 hseconds.2
  rw [hproduct] at hlow hhigh
  have hiff := ticks_iff hrate0 (by exact_mod_cast hrate) hpart hshort hwhole hlow hhigh
  rw [hsign, ← hproduct, ← htick] at hiff
  constructor
  · intro hright
    exact hiff.mp hright.exact
  · intro hfit
    have hexact := hiff.mpr hfit
    refine ⟨hexact, ?_, fun hpast => ?_⟩
    · rw [hexact]
      simp only [nanosecondPerSecond]
      omega
    · rw [hexact]
      have hneg : (time.nanoseconds - tp.nanoseconds) * rtTickPerSecond ≤ 0 := by nlinarith
      omega

theorem timeoutRight_iff_short : TimeoutRight 100 ⟨5, 990000000⟩ ⟨6, 10000000⟩ :=
  (timeoutRight_iff 100 ⟨5, 990000000⟩ ⟨6, 10000000⟩ (by decide) (by decide) ⟨by decide, by decide⟩
    ⟨by decide, by decide⟩ (by decide) (by decide)).mpr (.inl (by decide))

theorem halfSecond_early : ¬ TimeoutRight 100 ⟨0, 0⟩ ⟨0, 500000000⟩ :=
  fun hright => absurd hright.exact (by decide)

end Timeout

section Clock

variable {rtTickPerSecond : Nat} {s : ClockSystem}

/-- The clock that is wanted: the times are normal, a tick is the same time always, and what is set
or read from the device is what is reported. -/
structure ClockRight (rtTickPerSecond : Nat) (rtc : Option Int) (tick : Nat) : Prop where
  normal : ∀ s, (clockMachine rtTickPerSecond rtc tick).Reachable (fun _ _ => True) s →
    (clockGettime rtTickPerSecond s).Normal
  ticks : ∀ s, (clockMachine rtTickPerSecond rtc tick).Reachable (fun _ _ => True) s →
    s.tick + 1 < 2 ^ 32 →
    (clockGettime rtTickPerSecond { s with tick := s.tick + 1 }).nanoseconds =
      (clockGettime rtTickPerSecond s).nanoseconds + nanosecondPerSecond / rtTickPerSecond
  set : ∀ s, (clockMachine rtTickPerSecond rtc tick).Reachable (fun _ _ => True) s → ∀ tp,
    (clockGettime rtTickPerSecond
      (clockSettime rtTickPerSecond clockRealtime (some tp) s).2).nanoseconds =
      tp.tvSec * nanosecondPerSecond
  read : (clockGettime rtTickPerSecond
      (clockTimeSystemInit rtTickPerSecond rtc tick)).nanoseconds =
    rtc.getD 0 * nanosecondPerSecond

/-- Right after the clock is initialised it is a second slow, or the time is not normal. -/
theorem clockRight_never (rtTickPerSecond : Nat) (hdvd : rtTickPerSecond ∣ 1000000)
    (rtc : Option Int) (tick : Nat) (htick : tick < 2 ^ 32) :
    ¬ ClockRight rtTickPerSecond rtc tick := by
  intro hright
  have hpos : 0 < rtTickPerSecond := Nat.pos_of_dvd_of_pos hdvd (by decide)
  have hread := hright.read
  obtain ⟨hlow, hhigh⟩ := hright.normal _ (.start rfl)
  have hsec : (clockGettime rtTickPerSecond
      (clockTimeSystemInit rtTickPerSecond rtc tick)).tvSec = rtc.getD 0 := by
    unfold Timespec.nanoseconds at hread
    simp only [nanosecondPerSecond] at *
    omega
  have hsec' : int32 (int32 (rtc.getD 0 - (tick / rtTickPerSecond : Nat) - 1) +
      (int32 tick).tdiv rtTickPerSecond) = rtc.getD 0 := hsec
  rcases Nat.lt_or_ge tick (2 ^ 31) with hsmall | hlarge
  · have hnow : int32 (tick : Int) = tick := int32_eq (by omega) (by omega)
    have hwhole : ((tick : Int).tdiv rtTickPerSecond) = (tick / rtTickPerSecond : Nat) := rfl
    rw [hnow, hwhole] at hsec'
    unfold int32 at hsec'
    omega
  · -- the tick is negative in `clock_gettime`
    obtain ⟨left, hleft⟩ : ∃ left, tick + left = 2 ^ 32 := ⟨2 ^ 32 - tick, by omega⟩
    have hnow : int32 (tick : Int) = -(left : Int) := by
      unfold int32
      omega
    have hwhole : (-(left : Int)).tdiv rtTickPerSecond = -((left / rtTickPerSecond : Nat) : Int) := by
      rw [Int.neg_tdiv]
      rfl
    rw [hnow, hwhole] at hsec'
    have hsum : tick / rtTickPerSecond + left / rtTickPerSecond = 2 ^ 32 ∨
        tick / rtTickPerSecond + left / rtTickPerSecond ≤ 2 ^ 31 := by
      rcases Nat.lt_or_ge rtTickPerSecond 2 with hone | htwo
      · obtain rfl : rtTickPerSecond = 1 := by omega
        left
        rw [Nat.div_one, Nat.div_one, hleft]
      · right
        have htick' : tick / rtTickPerSecond ≤ tick / 2 := Nat.div_le_div_left htwo (by decide)
        have hleft' : left / rtTickPerSecond ≤ left / 2 := Nat.div_le_div_left htwo (by decide)
        refine (Nat.add_le_add htick' hleft').trans ?_
        clear hsec' hnow
        omega
    generalize tick / rtTickPerSecond = whole at *
    generalize left / rtTickPerSecond = rest at *
    unfold int32 at hsec'
    omega

/-- 100 ticks in a second, from noon in the device. -/
theorem clockRight_never_hundred : ¬ ClockRight 100 (some 43200) 250 :=
  clockRight_never 100 (by decide) (some 43200) 250 (by decide)

/-- The device says 12:00:00, and 11:59:59 is reported. -/
theorem clock_second_slow : ¬ ClockRight 100 (some 43200) 0 :=
  fun hright => absurd hright.read (by decide)

end Clock

end RtThread.Libc
