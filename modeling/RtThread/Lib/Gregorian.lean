import Mathlib.Algebra.Order.Ring.Nat
import Mathlib.Algebra.Order.Ring.Int

namespace RtThread.Lib

/-! The Gregorian calendar: lengths of years and months, and the days before them. -/

def leap (year : Int) : Bool :=
  decide (year % 4 = 0) && (decide (year % 100 ≠ 0) || decide (year % 400 = 0))

def yearLength (year : Int) : Int := if leap year then 366 else 365

def monthLength (leap : Bool) : Nat → Int
  | 1 => if leap then 29 else 28
  | 3 | 5 | 8 | 10 => 30
  | _ => 31

def daysToYear (epoch : Int) : Nat → Int
  | 0 => 0
  | n + 1 => daysToYear epoch n + yearLength (epoch + n)

def daysToMonth (leap : Bool) : Nat → Int
  | 0 => 0
  | n + 1 => daysToMonth leap n + monthLength leap n

def leapsThrough (year : Int) : Int := year / 4 - year / 100 + year / 400

theorem leap_iff (year : Int) :
    leap year = true ↔ year % 4 = 0 ∧ (year % 100 ≠ 0 ∨ year % 400 = 0) := by
  simp [leap]

theorem leapsThrough_succ (year : Int) :
    leapsThrough (year + 1) = leapsThrough year + (yearLength (year + 1) - 365) := by
  unfold leapsThrough yearLength
  have hleap := leap_iff (year + 1)
  split
  next h =>
    have hyear := hleap.mp h
    omega
  next h =>
    have hyear := mt hleap.mpr h
    omega

theorem daysToYear_eq (epoch : Int) (n : Nat) :
    daysToYear epoch n = 365 * n + leapsThrough (epoch + n - 1) - leapsThrough (epoch - 1) := by
  induction n with
  | zero => simp [daysToYear]
  | succ n ih =>
    have hstep := leapsThrough_succ (epoch + n - 1)
    rw [show epoch + n - 1 + 1 = epoch + (n + 1 : Nat) - 1 by push_cast; omega] at hstep
    rw [daysToYear, ih, hstep, show epoch + (n + 1 : Nat) - 1 = epoch + n by push_cast; omega]
    push_cast
    omega

theorem daysToYear_succ_left (epoch : Int) (n : Nat) :
    daysToYear epoch (n + 1) = yearLength epoch + daysToYear (epoch + 1) n := by
  induction n with
  | zero => simp [daysToYear]
  | succ n ih =>
    rw [daysToYear, ih, daysToYear, show epoch + (n + 1 : Nat) = epoch + 1 + n by push_cast; omega]
    omega

theorem daysToYear_nonneg (epoch : Int) (n : Nat) : 0 ≤ daysToYear epoch n := by
  induction n with
  | zero => exact le_refl 0
  | succ n ih =>
    have hyear : 0 ≤ yearLength (epoch + n) := by
      unfold yearLength
      split <;> decide
    exact Int.add_nonneg ih hyear

theorem monthLength_nonneg (leap : Bool) (n : Nat) : 0 ≤ monthLength leap n := by
  unfold monthLength
  split
  · cases leap <;> decide
  all_goals decide

theorem daysToMonth_nonneg (leap : Bool) (n : Nat) : 0 ≤ daysToMonth leap n := by
  induction n with
  | zero => exact le_refl 0
  | succ n ih => exact Int.add_nonneg ih (monthLength_nonneg leap n)

end RtThread.Lib
