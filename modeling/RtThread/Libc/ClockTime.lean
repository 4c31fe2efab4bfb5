import Mathlib.Tactic.Linarith
import Mathlib.Tactic.Ring
import RtThread.Lib.Transition

namespace RtThread.Libc

open RtThread.Lib

/-! The real-time clock of `clock_time.c`.  `int` and `long` have 32 bits and wrap around. -/

/-- A value that is stored in an `int` or a `long`. -/
def int32 (x : Int) : Int := (x + 2 ^ 31) % 2 ^ 32 - 2 ^ 31

/-- A value that is converted to `unsigned long`. -/
def uint32 (x : Int) : Int := x % 2 ^ 32

structure Timespec where
  tvSec : Int
  tvNsec : Int
  deriving DecidableEq

structure Timeval where
  tvSec : Int
  tvUsec : Int
  deriving DecidableEq

abbrev microsecondPerSecond : Int := 1000000

abbrev nanosecondPerSecond : Int := 1000000000

abbrev clockRealtime : Int := 1

abbrev rtWaitingForever : Int := -1

/-- `_timevalue`, the tick of the system, and the seconds of the device `rtc` if there is one. -/
structure ClockSystem where
  timevalue : Timeval
  tick : Nat
  rtc : Option Int
  deriving DecidableEq

section

-- `RT_TICK_PER_SECOND`
variable (rtTickPerSecond : Nat)

def microsecondPerTick : Int := microsecondPerSecond / rtTickPerSecond

def clockTimeSystemInit (rtc : Option Int) (tick : Nat) : ClockSystem where
  timevalue :=
    { tvUsec := int32 (uint32 ((tick % rtTickPerSecond : Nat) * microsecondPerTick rtTickPerSecond))
      tvSec := int32 (rtc.getD 0 - (tick / rtTickPerSecond : Nat) - 1) }
  tick := tick
  rtc := rtc

def clockGettime (s : ClockSystem) : Timespec :=
  let tick := int32 s.tick
  { tvSec := int32 (s.timevalue.tvSec + tick.tdiv rtTickPerSecond)
    tvNsec := int32 (uint32 ((s.timevalue.tvUsec +
      uint32 (tick.tmod rtTickPerSecond * microsecondPerTick rtTickPerSecond)) * 1000)) }

def clockSettime (clockid : Int) (tp : Option Timespec) (s : ClockSystem) : Int × ClockSystem :=
  match tp with
  | none => (-1, s)
  | some tp =>
    if clockid ≠ clockRealtime then (-1, s)
    else
      let second := int32 tp.tvSec
      let s := { s with timevalue :=
        { tvUsec := int32 (uint32 (microsecondPerSecond -
            uint32 ((s.tick % rtTickPerSecond : Nat) * microsecondPerTick rtTickPerSecond)))
          tvSec := int32 (second - (s.tick / rtTickPerSecond : Nat) - 1) } }
      match s.rtc with
      | some _ => (0, { s with rtc := some second })
      | none => (-1, s)

def clockTimeToTick (tp : Timespec) (time : Option Timespec) : Int :=
  match time with
  | none => rtWaitingForever
  | some time =>
    let (nsecond, second) :=
      if int32 (time.tvNsec - tp.tvNsec) < 0 then
        (int32 (nanosecondPerSecond - (tp.tvNsec - time.tvNsec)), int32 (time.tvSec - tp.tvSec - 1))
      else (int32 (time.tvNsec - tp.tvNsec), int32 (time.tvSec - tp.tvSec))
    let tick := int32 (uint32 (int32 (second * rtTickPerSecond)) +
      uint32 (int32 (nsecond * rtTickPerSecond)) / nanosecondPerSecond)
    if tick < 0 then 0 else tick

end

inductive ClockOp
  | tick
  | settime (clockid : Int) (tp : Option Timespec)
  deriving DecidableEq

/-- The clock from `clock_time_system_init` on, as long as the tick does not wrap around. -/
def clockMachine (rtTickPerSecond : Nat) (rtc : Option Int) (tick : Nat) :
    Machine ClockSystem ClockOp where
  init s := s = clockTimeSystemInit rtTickPerSecond rtc tick
  exec s
    | .tick => if s.tick + 1 < 2 ^ 32 then some { s with tick := s.tick + 1 } else none
    | .settime clockid tp => some (clockSettime rtTickPerSecond clockid tp s).2

namespace Timespec

def nanoseconds (t : Timespec) : Int := t.tvSec * nanosecondPerSecond + t.tvNsec

def Normal (t : Timespec) : Prop := 0 ≤ t.tvNsec ∧ t.tvNsec < nanosecondPerSecond

end Timespec

theorem int32_eq {x : Int} (hlow : -2 ^ 31 ≤ x) (hhigh : x < 2 ^ 31) : int32 x = x := by
  unfold int32
  omega

end RtThread.Libc
