/-
# TurboNet.Lib.Wrapping — machine arithmetic of a given width, on naturals and integers.

`uadd w` and `usub w` are addition and subtraction modulo `2 ^ w`.  The rules say when they are the
mathematical operations, which is how a caller discharges "nothing overflows here".  `swrap w` is the
two's complement number that a `w`-bit signed register keeps of an integer.
-/
import Mathlib.Algebra.Group.Int.Defs
import Mathlib.Algebra.Group.Nat.Defs
import Mathlib.Data.Nat.Basic

namespace TurboNet.Lib

/-- Unsigned addition on `w` bits. -/
def uadd (w a b : Nat) : Nat := (a + b) % 2 ^ w

/-- Unsigned subtraction on `w` bits. -/
def usub (w a b : Nat) : Nat := (a + (2 ^ w - b % 2 ^ w)) % 2 ^ w

/-- The signed number on `w` bits that is congruent to `x`. -/
def swrap (w : Nat) (x : Int) : Int := x.bmod (2 ^ w)

theorem uadd_of_lt {w a b : Nat} (h : a + b < 2 ^ w) : uadd w a b = a + b := by
  rw [uadd]
  exact Nat.mod_eq_of_lt h

theorem usub_of_le {w a b : Nat} (hab : b ≤ a) (ha : a < 2 ^ w) : usub w a b = a - b := by
  have hb : b % 2 ^ w = b := Nat.mod_eq_of_lt (Nat.lt_of_le_of_lt hab ha)
  have hsum : a + (2 ^ w - b) = a - b + 2 ^ w := by omega
  rw [usub, hb, hsum, Nat.add_mod_right]
  exact Nat.mod_eq_of_lt (Nat.lt_of_le_of_lt (Nat.sub_le a b) ha)

theorem cast_two_pow_succ (w : Nat) : ((2 ^ (w + 1) : Nat) : Int) = 2 * 2 ^ w := by
  rw [Nat.pow_succ, Nat.mul_comm]
  push_cast
  rfl

/-- A signed register of `w + 1` bits holds the numbers from `-2 ^ w` to `2 ^ w - 1`. -/
theorem swrap_range (w : Nat) (x : Int) :
    -2 ^ w ≤ swrap (w + 1) x ∧ swrap (w + 1) x < 2 ^ w := by
  have hpos : 0 < 2 ^ (w + 1) := Nat.two_pow_pos _
  have hlow : -(((2 ^ (w + 1) : Nat) : Int) / 2) ≤ swrap (w + 1) x := Int.le_bmod hpos
  have hhigh : swrap (w + 1) x < (((2 ^ (w + 1) : Nat) : Int) + 1) / 2 := Int.bmod_lt hpos
  rw [cast_two_pow_succ] at hlow hhigh
  omega

theorem swrap_of_range {w : Nat} {x : Int} (hlow : -2 ^ w ≤ x) (hhigh : x < 2 ^ w) :
    swrap (w + 1) x = x := by
  apply Int.bmod_eq_of_le
  · rw [cast_two_pow_succ]
    omega
  · rw [cast_two_pow_succ]
    omega

/-- What a register has lost of a summand does not show in the sum. -/
theorem swrap_add_left (w : Nat) (x y : Int) : swrap w (swrap w x + y) = swrap w (x + y) :=
  Int.bmod_add_bmod

theorem swrap_add_right (w : Nat) (x y : Int) : swrap w (x + swrap w y) = swrap w (x + y) := by
  rw [Int.add_comm, swrap_add_left, Int.add_comm]

/-- A register is off by a multiple of `2 ^ w`. -/
theorem exists_eq_swrap (w : Nat) (x : Int) : ∃ q : Int, x = swrap w x + 2 ^ w * q := by
  refine ⟨x.bdiv (2 ^ w), ?_⟩
  have h := Int.bmod_add_bdiv x (2 ^ w)
  push_cast at h
  exact h.symm

end TurboNet.Lib
