import RtThread.Lib.Gregorian

namespace RtThread.Libc

open RtThread.Lib

/-! `gmtime_r` and `mktime` of `minilibc/time.c`. -/

/-- The fields of `struct tm` for the date and the time. -/
structure Tm where
  tmSec : Int
  tmMin : Int
  tmHour : Int
  tmMday : Int
  tmMon : Int
  tmYear : Int
  tmWday : Int
  tmYday : Int
  deriving DecidableEq

def spm : List Int := [0, 31, 59, 90, 120, 151, 181, 212, 243, 273, 304, 334, 365]

def spmAt (i : Int) : Option Int := if 0 ≤ i then spm[i.toNat]? else none

abbrev spd : Int := 24 * 60 * 60

def isleap (year : Int) : Bool :=
  decide (year.tmod 4 = 0) && (decide (year.tmod 100 ≠ 0) || decide (year.tmod 400 = 0))

def yearLoop (i work : Int) : Int × Int :=
  let k := if isleap i then 366 else 365
  if k ≤ work then yearLoop (i + 1) (work - k) else (i, work)
termination_by work.toNat
decreasing_by
  have hk : 365 ≤ k := by
    simp only [k]
    split <;> decide
  omega

def monthLoop (work : Int) : Nat → Nat
  | 0 => 0
  | i + 1 => if work < spm.getD (i + 1) 0 then monthLoop work i else i + 1

def gmtimeR (timep : Int) : Tm :=
  let work := timep.tmod spd
  let days := timep.tdiv spd
  let (year, yday) := yearLoop 1970 days
  let late := isleap year && decide (58 < yday)
  let mday := if late && decide (yday = 59) then 2 else 1
  let rest := if late then yday - 1 else yday
  let mon := monthLoop rest 11
  { tmSec := work.tmod 60
    tmMin := (work.tdiv 60).tmod 60
    tmHour := (work.tdiv 60).tdiv 60
    tmMday := mday + (rest - spm.getD mon 0)
    tmMon := mon
    tmYear := year - 1900
    tmWday := (4 + days).tmod 7
    tmYday := yday }

theorem spm_pos : ∀ n < 12, n = 0 ∧ spm.getD n 0 = 0 ∨
    0 < n ∧ 0 < spm.getD n 0 ∧ 0 < spm.getD (n + 1) 0 := by
  decide

theorem spmAt_eq (n : Nat) : spmAt n = spm[n]? := by
  unfold spmAt
  rw [if_pos (Int.natCast_nonneg n), Int.toNat_natCast]

theorem spmAt_some {n : Nat} (hlt : n < 13) : spmAt n = some (spm.getD n 0) := by
  rw [spmAt_eq, List.getD_eq_getElem?_getD, List.getElem?_eq_getElem hlt]
  rfl

theorem spmAt_before {mon before bound : Int} (hbefore : spmAt mon = some before)
    (hbound : spmAt (1 + mon) = some bound) :
    mon = 0 ∧ before = 0 ∨ 0 < mon ∧ 0 < before ∧ 0 < bound := by
  have hmon : 0 ≤ mon := by
    by_contra hneg
    rw [spmAt, if_neg hneg] at hbefore
    cases hbefore
  obtain ⟨n, rfl⟩ := Int.eq_ofNat_of_zero_le hmon
  rw [spmAt_eq] at hbefore
  rw [show (1 : Int) + n = (n + 1 : Nat) by omega, spmAt_eq] at hbound
  obtain ⟨hlt, -⟩ := List.getElem?_eq_some_iff.mp hbound
  have hcases := spm_pos n (Nat.lt_of_succ_lt_succ hlt)
  rw [List.getD_eq_getElem?_getD, List.getD_eq_getElem?_getD, hbefore, hbound] at hcases
  simpa using hcases

/-- The loop of `mktime` that carries days into months and years; none if it reads outside `__spm`. -/
def carryDays (t : Tm) : Option Tm :=
  match hbound : spmAt (1 + t.tmMon), hbefore : spmAt t.tmMon with
  | some bound, some before =>
    if bound < t.tmMday then
      let mday := if t.tmMon = 1 && isleap (t.tmYear + 1900) then t.tmMday - 1 else t.tmMday
      if 11 < t.tmMon + 1 then
        carryDays { t with tmMday := mday - before, tmMon := 0, tmYear := t.tmYear + 1 }
      else carryDays { t with tmMday := mday - before, tmMon := t.tmMon + 1 }
    else some t
  | some bound, none => if bound < t.tmMday then none else some t
  | none, _ => none
termination_by (t.tmMday.toNat, (12 - t.tmMon).toNat)
decreasing_by
  all_goals
    have hcases := spmAt_before hbefore hbound
    have hmday : mday ≤ t.tmMday := by
      simp only [mday]
      split <;> omega
    rw [Prod.lex_def]
    dsimp only
    omega

/-- Seconds, minutes, hours and months that `mktime` carries first. -/
def carryTime (t : Tm) : Tm :=
  let t := if 60 < t.tmSec then
    { t with tmMin := t.tmMin + t.tmSec.tdiv 60, tmSec := t.tmSec.tmod 60 } else t
  let t := if 60 < t.tmMin then
    { t with tmHour := t.tmHour + t.tmMin.tdiv 60, tmMin := t.tmMin.tmod 60 } else t
  let t := if 24 < t.tmHour then
    { t with tmMday := t.tmMday + t.tmHour.tdiv 24, tmHour := t.tmHour.tmod 24 } else t
  if 12 < t.tmMon then
    { t with tmYear := t.tmYear + t.tmMon.tdiv 12, tmMon := t.tmMon.tmod 12 } else t

/-- The days in the years since 1970, as `mktime` counts them. -/
def yearDays (years : Int) : Int :=
  let day := years * 365 + (years + 1).tdiv 4
  if 131 ≤ years then
    let hundreds := (years - 131).tdiv 100
    let rest := hundreds % 4
    day - (hundreds / 4 * 3 + 1) - (if rest = 3 then rest - 1 else rest)
  else day

def mktime (t : Tm) : Option (Int × Tm) := do
  let years := t.tmYear - 70
  let t ← carryDays (carryTime t)
  if t.tmYear < 70 then
    return (-1, t)
  let before ← spmAt t.tmMon
  let yday := before + t.tmMday - 1 +
    if isleap (t.tmYear + 1900) && decide (1 < t.tmMon) then 1 else 0
  let day := yearDays years + yday
  return (((day * 24 + t.tmHour) * 60 + t.tmMin) * 60 + t.tmSec,
    { t with tmYday := yday, tmWday := (day + 4).tmod 7 })

namespace Tm

def year (r : Tm) : Int := r.tmYear + 1900

def dayNumber (r : Tm) : Int := daysToYear 1970 (r.year - 1970).toNat + r.tmYday

/-- A date and a time that agree with the calendar; 1 January 1970 was a Thursday. -/
structure Valid (r : Tm) : Prop where
  sec : 0 ≤ r.tmSec ∧ r.tmSec < 60
  min : 0 ≤ r.tmMin ∧ r.tmMin < 60
  hour : 0 ≤ r.tmHour ∧ r.tmHour < 24
  mon : 0 ≤ r.tmMon ∧ r.tmMon < 12
  mday : 1 ≤ r.tmMday ∧ r.tmMday ≤ monthLength (leap r.year) r.tmMon.toNat
  year : 1970 ≤ r.year
  yday : r.tmYday = daysToMonth (leap r.year) r.tmMon.toNat + r.tmMday - 1
  wday : r.tmWday = (r.dayNumber + 4) % 7

def seconds (r : Tm) : Int := ((r.dayNumber * 24 + r.tmHour) * 60 + r.tmMin) * 60 + r.tmSec

end Tm

theorem isleap_eq (year : Int) : isleap year = leap year := by
  have hzero (k : Int) : year.tmod k = 0 ↔ year % k = 0 :=
    (Int.dvd_iff_tmod_eq_zero).symm.trans Int.dvd_iff_emod_eq_zero
  unfold isleap leap
  rw [decide_eq_decide.mpr (hzero 4), decide_eq_decide.mpr (hzero 400),
    decide_eq_decide.mpr (not_congr (hzero 100))]

theorem spm_eq : ∀ isLeap, ∀ n < 13, daysToMonth isLeap n =
    spm.getD n 0 + if isLeap && decide (1 < n) then 1 else 0 := by
  decide

theorem monthLength_eq : ∀ isLeap, ∀ n < 12, monthLength isLeap n =
    spm.getD (n + 1) 0 - spm.getD n 0 + if isLeap && decide (n = 1) then 1 else 0 := by
  decide

theorem monthLength_le : ∀ isLeap, ∀ n < 12, monthLength isLeap n ≤ spm.getD (n + 1) 0 := by
  decide

theorem spm_february : ∀ n < 12, n = 0 ∧ spm.getD (n + 1) 0 ≤ 58 ∨
    n = 1 ∧ spm.getD (n + 1) 0 = 59 ∨ 1 < n ∧ 59 ≤ spm.getD n 0 := by
  decide

theorem monthLoop_spec {work : Int} (hwork : 0 ≤ work) (n : Nat)
    (hlt : work < spm.getD (n + 1) 0) :
    monthLoop work n ≤ n ∧ spm.getD (monthLoop work n) 0 ≤ work ∧
      work < spm.getD (monthLoop work n + 1) 0 := by
  induction n with
  | zero => exact ⟨Nat.le_refl 0, hwork, hlt⟩
  | succ n ih =>
    unfold monthLoop
    split
    next hless =>
      obtain ⟨hle, hspec⟩ := ih hless
      exact ⟨Nat.le_succ_of_le hle, hspec⟩
    next hge => exact ⟨Nat.le_refl _, not_lt.mp hge, hlt⟩

theorem yearLoop_eq (i work : Int) : yearLoop i work =
    if yearLength i ≤ work then yearLoop (i + 1) (work - yearLength i) else (i, work) := by
  have hk : (if isleap i then 366 else 365) = yearLength i := by rw [isleap_eq, yearLength]
  rw [yearLoop, hk]

theorem yearLoop_spec (i work : Int) (hwork : 0 ≤ work) :
    ∃ n : Nat, (yearLoop i work).1 = i + n ∧ work = daysToYear i n + (yearLoop i work).2 ∧
      0 ≤ (yearLoop i work).2 ∧ (yearLoop i work).2 < yearLength (i + n) := by
  induction i, work using yearLoop.induct with
  | case1 i work k hle ih =>
    have hk : k = yearLength i := by
      rw [yearLength, ← isleap_eq]
      exact dite_eq_ite
    rw [hk] at hle ih
    rw [yearLoop_eq, if_pos hle]
    obtain ⟨n, hyear, hdays, hrest⟩ := ih (by omega)
    refine ⟨n + 1, ?_, ?_, ?_⟩
    · rw [hyear]
      push_cast
      omega
    · rw [daysToYear_succ_left]
      omega
    · rw [show i + (n + 1 : Nat) = i + 1 + n by push_cast; omega]
      exact hrest
  | case2 i work k hlt =>
    have hk : k = yearLength i := by
      rw [yearLength, ← isleap_eq]
      exact dite_eq_ite
    rw [hk] at hlt
    rw [yearLoop_eq, if_neg hlt]
    exact ⟨0, by simp, by simp [daysToYear], hwork, by simpa using hlt⟩

theorem yearDays_eq (n : Nat) : yearDays n = daysToYear 1970 n := by
  have hquarter : ((n : Int) + 1).tdiv 4 = ((n : Int) + 1) / 4 := Int.tdiv_eq_ediv_of_nonneg (by omega)
  rw [daysToYear_eq]
  unfold yearDays leapsThrough
  dsimp only
  rw [hquarter]
  split
  next hlate =>
    rw [Int.tdiv_eq_ediv_of_nonneg (by omega)]
    split <;> omega
  next hearly => omega

theorem monthDay_spec {isLeap : Bool} {yday : Int} (hyday : 0 ≤ yday)
    (hlt : yday < if isLeap then 366 else 365) {late : Bool} {rest mday : Int} {mon : Nat}
    (hlate : late = (isLeap && decide (58 < yday)))
    (hmday : mday = if late && decide (yday = 59) then 2 else 1)
    (hrest : rest = if late then yday - 1 else yday) (hmon : mon = monthLoop rest 11) :
    mon < 12 ∧ 1 ≤ mday + (rest - spm.getD mon 0) ∧
      mday + (rest - spm.getD mon 0) ≤ monthLength isLeap mon ∧
      yday = daysToMonth isLeap mon + (mday + (rest - spm.getD mon 0)) - 1 := by
  have hcases : isLeap = false ∧ rest = yday ∧ mday = 1 ∧ yday < 365 ∨
      isLeap = true ∧ (yday ≤ 58 ∧ rest = yday ∧ mday = 1 ∨ yday = 59 ∧ rest = 58 ∧ mday = 2 ∨
        60 ≤ yday ∧ rest = yday - 1 ∧ mday = 1 ∧ yday < 366) := by
    cases isLeap with
    | false =>
      subst hlate
      exact .inl ⟨rfl, hrest, hmday, hlt⟩
    | true =>
      refine .inr ⟨rfl, ?_⟩
      rw [Bool.true_and] at hlate
      subst hlate
      rcases lt_trichotomy yday 59 with hless | rfl | hmore
      · rw [decide_eq_false (by omega)] at hrest hmday
        exact .inl ⟨by omega, hrest, hmday⟩
      · exact .inr (.inl ⟨rfl, hrest, hmday⟩)
      · rw [decide_eq_true (by omega)] at hrest hmday
        rw [decide_eq_false (by omega)] at hmday
        exact .inr (.inr ⟨by omega, hrest, hmday, hlt⟩)
  obtain ⟨hle, hfrom, hto⟩ := monthLoop_spec (show 0 ≤ rest by omega) 11
    (show rest < 365 by omega)
  rw [← hmon] at hle hfrom hto
  have hmonth : mon < 12 := Nat.lt_succ_of_le hle
  have hdays := spm_eq isLeap mon (by omega)
  have hlength := monthLength_eq isLeap mon hmonth
  have hfebruary := spm_february mon hmonth
  clear hmon hlate hmday hrest hlt
  refine ⟨hmonth, ?_⟩
  rcases hcases with ⟨rfl, hcases⟩ | ⟨rfl, hcases⟩
  · simp only [Bool.false_and, Bool.false_eq_true, if_false] at hdays hlength
    omega
  · simp only [Bool.true_and, decide_eq_true_eq] at hdays hlength
    split at hdays <;> split at hlength <;> omega

theorem gmtimeR_date (t : Int) (ht : 0 ≤ t) : ∃ n mon : Nat,
    (gmtimeR t).year = 1970 + n ∧ (gmtimeR t).tmMon = mon ∧ mon < 12 ∧
      t / spd = daysToYear 1970 n + (gmtimeR t).tmYday ∧
      1 ≤ (gmtimeR t).tmMday ∧ (gmtimeR t).tmMday ≤ monthLength (leap (1970 + n)) mon ∧
      (gmtimeR t).tmYday = daysToMonth (leap (1970 + n)) mon + (gmtimeR t).tmMday - 1 := by
  have htdiv : t.tdiv spd = t / spd := Int.tdiv_eq_ediv_of_nonneg ht
  obtain ⟨n, hyear, hsplit, hyday, hlt⟩ :=
    yearLoop_spec 1970 (t / spd) (Int.ediv_nonneg ht (by decide))
  have hisleap : isleap (yearLoop 1970 (t / spd)).1 = leap (1970 + n) := by
    rw [isleap_eq, hyear]
  rw [← htdiv] at hyear hsplit hyday hlt hisleap
  rw [yearLength, ← hisleap] at hlt
  have hmonth := monthDay_spec hyday hlt rfl rfl rfl rfl
  obtain ⟨hlast, hfirst, hlength, hbefore⟩ := hmonth
  refine ⟨n, _, ?_, rfl, hlast, ?_, hfirst, ?_, ?_⟩
  · show (yearLoop 1970 (t.tdiv spd)).1 - 1900 + 1900 = _
    omega
  · rw [← htdiv]
    exact hsplit
  · rw [← hisleap]
    exact hlength
  · rw [← hisleap]
    exact hbefore

theorem gmtimeR_valid (t : Int) (ht : 0 ≤ t) : (gmtimeR t).Valid ∧ (gmtimeR t).seconds = t := by
  obtain ⟨n, mon, hyear, hmon, hlt, hdays, hmday, hlast, hyday⟩ := gmtimeR_date t ht
  have htdiv : t.tdiv spd = t / spd := Int.tdiv_eq_ediv_of_nonneg ht
  have htmod : t.tmod spd = t % spd := Int.tmod_eq_emod_of_nonneg ht
  have hfrom : 0 ≤ t / spd := Int.ediv_nonneg ht (by decide)
  have hwork : 0 ≤ t % spd := Int.emod_nonneg t (by decide)
  have hless : t % spd < 86400 := Int.emod_lt_of_pos t (by decide)
  have hparts : 86400 * (t / spd) + t % spd = t := Int.mul_ediv_add_emod t spd
  have hsec : (gmtimeR t).tmSec = t % spd % 60 := by
    show (t.tmod spd).tmod 60 = _
    rw [htmod, Int.tmod_eq_emod_of_nonneg hwork]
  have hrest : (t % spd).tdiv 60 = t % spd / 60 := Int.tdiv_eq_ediv_of_nonneg hwork
  have hmin : (gmtimeR t).tmMin = t % spd / 60 % 60 := by
    show ((t.tmod spd).tdiv 60).tmod 60 = _
    rw [htmod, hrest, Int.tmod_eq_emod_of_nonneg (by omega)]
  have hhour : (gmtimeR t).tmHour = t % spd / 60 / 60 := by
    show ((t.tmod spd).tdiv 60).tdiv 60 = _
    rw [htmod, hrest, Int.tdiv_eq_ediv_of_nonneg (by omega)]
  have hwday : (gmtimeR t).tmWday = (4 + t / spd) % 7 := by
    show (4 + t.tdiv spd).tmod 7 = _
    rw [htdiv, Int.tmod_eq_emod_of_nonneg (by omega)]
  have hnumber : (gmtimeR t).dayNumber = t / spd := by
    rw [Tm.dayNumber, hyear, hdays, show ((1970 : Int) + n - 1970).toNat = n by omega]
  constructor
  · constructor
    · omega
    · omega
    · omega
    · omega
    · rw [hyear, hmon, Int.toNat_natCast]
      exact ⟨hmday, hlast⟩
    · omega
    · rw [hyear, hmon, Int.toNat_natCast]
      exact hyday
    · rw [hwday, hnumber, Int.add_comm]
  · rw [Tm.seconds, hnumber, hsec, hmin, hhour]
    omega

theorem carryTime_valid {r : Tm} (hvalid : r.Valid) : carryTime r = r := by
  obtain ⟨⟨-, hsec⟩, ⟨-, hmin⟩, ⟨-, hhour⟩, ⟨-, hmon⟩, -, -, -, -⟩ := hvalid
  unfold carryTime
  dsimp only
  rw [if_neg (show ¬ 60 < r.tmSec by omega), if_neg (show ¬ 60 < r.tmMin by omega),
    if_neg (show ¬ 24 < r.tmHour by omega), if_neg (show ¬ 12 < r.tmMon by omega)]

theorem carryDays_eq {t : Tm} {bound before : Int} (hbound : spmAt (1 + t.tmMon) = some bound)
    (hbefore : spmAt t.tmMon = some before) (hfits : t.tmMday ≤ bound) : carryDays t = some t := by
  unfold carryDays
  split
  next bound' before' hbound' hbefore' =>
    obtain rfl := Option.some.inj (hbound.symm.trans hbound')
    rw [if_neg (by omega)]
  next bound' hbound' hbefore' =>
    rw [hbefore] at hbefore'
    cases hbefore'
  next hbound' =>
    rw [hbound] at hbound'
    cases hbound'

theorem mktime_valid {r : Tm} (hvalid : r.Valid) : mktime r = some (r.seconds, r) := by
  obtain ⟨mon, hmon⟩ := Int.eq_ofNat_of_zero_le hvalid.mon.1
  obtain ⟨years, hyears⟩ := Int.eq_ofNat_of_zero_le (sub_nonneg.mpr hvalid.year)
  have hmonth : mon < 12 := by
    have hlt := hvalid.mon.2
    omega
  have hmday := hvalid.mday
  have hyday := hvalid.yday
  rw [hmon, Int.toNat_natCast] at hmday hyday
  have hbefore : spmAt r.tmMon = some (spm.getD mon 0) := by
    rw [hmon]
    exact spmAt_some (by omega)
  have hbound : spmAt (1 + r.tmMon) = some (spm.getD (mon + 1) 0) := by
    rw [hmon, Int.add_comm]
    exact spmAt_some (n := mon + 1) (by omega)
  have hcarry := carryDays_eq hbound hbefore
    (hmday.2.trans (monthLength_le (leap r.year) mon hmonth))
  have hday : spm.getD mon 0 + r.tmMday - 1 +
      (if isleap (r.tmYear + 1900) && decide (1 < r.tmMon) then 1 else 0) = r.tmYday := by
    have hdays := spm_eq (leap r.year) mon (by omega)
    rw [hyday, hdays, isleap_eq, hmon, ← Tm.year]
    norm_cast
    omega
  have hnumber : yearDays (r.tmYear - 70) + r.tmYday = r.dayNumber := by
    have hsame : r.tmYear - 70 = r.year - 1970 := by
      unfold Tm.year
      omega
    rw [hsame, Tm.dayNumber, hyears, yearDays_eq, Int.toNat_natCast]
  have hnonneg : 0 ≤ r.dayNumber + 4 := by
    have hyear := daysToYear_nonneg 1970 (r.year - 1970).toNat
    have hbefore' := daysToMonth_nonneg (leap r.year) mon
    rw [Tm.dayNumber]
    omega
  have hlate : ¬ r.tmYear < 70 := by
    have hyear : 1970 ≤ r.tmYear + 1900 := hvalid.year
    omega
  unfold mktime
  rw [carryTime_valid hvalid, hcarry]
  dsimp only [Option.bind_eq_bind, Option.bind_some]
  rw [if_neg hlate, hbefore]
  dsimp only [Option.bind_some]
  rw [hday, hnumber, Int.tmod_eq_emod_of_nonneg hnonneg, ← hvalid.wday]
  rfl

/-- `gmtime_r` gives a valid date and time for every instant from 1970 on, and `mktime` gives the
instant back and keeps the fields. -/
theorem mktime_gmtimeR (t : Int) (ht : 0 ≤ t) :
    (gmtimeR t).Valid ∧ mktime (gmtimeR t) = some (t, gmtimeR t) := by
  obtain ⟨hvalid, hseconds⟩ := gmtimeR_valid t ht
  have hback := mktime_valid hvalid
  rw [hseconds] at hback
  exact ⟨hvalid, hback⟩

theorem mktime_gmtimeR_leapDay :
    (gmtimeR 951782400).Valid ∧ mktime (gmtimeR 951782400) = some (951782400, gmtimeR 951782400) :=
  mktime_gmtimeR 951782400 (by decide)

end RtThread.Libc
