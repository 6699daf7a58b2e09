/-
# TurboNet.Base.Timestamp — points in time of `base/timestamp.{h,cpp}`.

A `Timestamp` is a duration of `system_clock` since the epoch, in nanoseconds.  The clock may be set
back, and before the epoch its durations are negative.
-/
import Mathlib.Data.Int.Order.Basic
import TurboNet.Lib.Numeral

namespace TurboNet.Base

open TurboNet.Lib

/-- `Timestamp`, ordered and compared by `time_since_epoch_`. -/
structure Timestamp where
  timeSinceEpoch : Int
  deriving DecidableEq, Repr

/-- `duration_cast` to a unit of `ticks` nanoseconds rounds toward zero. -/
def durationCast (ticks t : Int) : Int := t.tdiv ticks

/-- `kNanoSecondsPerSecond`. -/
def kNanoSecondsPerSecond : Int := 1000 * 1000 * 1000

/-- `kMicroSecondsPerSecond`. -/
def kMicroSecondsPerSecond : Int := 1000 * 1000

/-- What `std::localtime` answers, in the process's time zone. -/
structure Tm where
  year : Int
  mon : Int
  mday : Int
  hour : Int
  min : Int
  sec : Int
  deriving DecidableEq, Repr

/-- `%4d` and `%02d`, for a number that is not negative. -/
def printInt (fill : Char) (width : Nat) (v : Int) : String :=
  let digits := toString v
  "".pushn fill (width - digits.length) ++ digits

/-- `%0*lld`: a sign is one of the `width` chars. -/
def printZero (width : Nat) (v : Int) : String :=
  let sign := if v < 0 then "-" else ""
  let digits := toString v.natAbs
  sign ++ "".pushn '0' (width - sign.length - digits.length) ++ digits

/-- `"%4d-%02d-%02d %02d:%02d:%02d"`. -/
def Tm.print (tm : Tm) : String :=
  printInt ' ' 4 (tm.year + 1900) ++ "-" ++ printInt '0' 2 (tm.mon + 1) ++ "-" ++
    printInt '0' 2 tm.mday ++ " " ++ printInt '0' 2 tm.hour ++ ":" ++ printInt '0' 2 tm.min ++
    ":" ++ printInt '0' 2 tm.sec

namespace Timestamp

def timeSinceEpochSeconds (t : Timestamp) : Int :=
  durationCast kNanoSecondsPerSecond t.timeSinceEpoch

def timeSinceEpochMicroSeconds (t : Timestamp) : Int :=
  durationCast 1000 t.timeSinceEpoch

def timeSinceEpochDays (t : Timestamp) : Int :=
  durationCast (86400 * kNanoSecondsPerSecond) t.timeSinceEpoch

/-- `ToFormatString(false)`. -/
def toFormatString (localtime : Int → Tm) (t : Timestamp) : String :=
  let tm := localtime t.timeSinceEpochSeconds
  printInt ' ' 4 (tm.year + 1900) ++ "-" ++ printInt '0' 2 (tm.mon + 1) ++ "-" ++
    printInt '0' 2 tm.mday ++ " " ++ printInt '0' 2 tm.hour ++ ":" ++ printInt '0' 2 tm.min ++
    ":" ++ printInt '0' 2 tm.sec

/-- `ToFormatString(false)` depends on the second only. -/
theorem toFormatString_eq (localtime : Int → Tm) (t : Timestamp) :
    t.toFormatString localtime = (localtime t.timeSinceEpochSeconds).print := rfl

end Timestamp

/-! ## Padded numbers -/

theorem toList_pushn (c : Char) (k : Nat) : ("".pushn c k).toList = List.replicate k c := by
  rw [String.pushn_eq_repeat_push]
  induction k with
  | zero => rfl
  | succ k ih =>
    show (String.push (Nat.repeat (fun s => s.push c) k "") c).toList = _
    rw [String.toList_push, ih, ← List.replicate_succ']

/-- The sign `printZero` and `%ld` put before a number. -/
def signChars (v : Int) : List Char := if v < 0 then ['-'] else []

theorem toList_printZero (width : Nat) (v : Int) :
    (printZero width v).toList = signChars v ++
      (List.replicate (width - (signChars v).length - (Nat.toDigits 10 v.natAbs).length) '0' ++
        Nat.toDigits 10 v.natAbs) := by
  have hdigits : (toString v.natAbs).toList = Nat.toDigits 10 v.natAbs := Nat.toList_repr
  unfold printZero signChars
  by_cases hv : v < 0
  · simp only [if_pos hv, String.toList_append, toList_pushn, ← String.length_toList, hdigits,
      List.append_assoc]
    rfl
  · simp only [if_neg hv, String.toList_append, toList_pushn, ← String.length_toList, hdigits,
      List.append_assoc]
    rfl

/-- A number that is not negative and not too long is printed digit by digit. -/
theorem toList_printZero_of_nonneg {width : Nat} {v : Int} (hwidth : 0 < width) (hnonneg : 0 ≤ v)
    (hv : v < 10 ^ width) :
    (printZero width v).toList = (fixedDigits 10 width v.toNat).map Nat.digitChar := by
  have habs : v.natAbs = v.toNat := by omega
  have hlt : v.toNat < 10 ^ width := by
    have hcast : ((v.toNat : Nat) : Int) < ((10 ^ width : Nat) : Int) := by
      rw [Int.toNat_of_nonneg hnonneg]
      exact_mod_cast hv
    exact Int.ofNat_lt.mp hcast
  rw [toList_printZero, signChars, if_neg (Int.not_lt.mpr hnonneg), List.nil_append,
    List.length_nil, Nat.sub_zero, habs, padded_toDigits (by decide) hwidth hlt]

end TurboNet.Base
