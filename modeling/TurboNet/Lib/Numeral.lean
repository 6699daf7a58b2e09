/-
# TurboNet.Lib.Numeral — numerals found by repeated division.

A loop that divides by the base until nothing is left meets the digits of a number with the lowest
first; `digitsUp` is what it meets.  Read backwards they are the numeral `Nat.toDigits` prints
(`map_reverse_digitsUp`), if the loop is given as many rounds as the numeral has digits.

Such a numeral is read back by `readDigits`, and it has no leading zero (`Canonical`), in whatever
symbols its digits are written.  Padded with zeros it has the digits at fixed places (`fixedDigits`),
and is read back as before.
-/
import Mathlib.Algebra.Group.Int.Defs
import Mathlib.Algebra.Group.Nat.Defs
import Mathlib.Data.List.Basic
import Mathlib.Data.Nat.Basic

namespace TurboNet.Lib

/-- The digits of `n` to base `b`, the lowest first, in no more than `rounds` rounds. -/
def digitsUp (b : Nat) : (rounds n : Nat) → List Nat
  | 0, _ => []
  | rounds + 1, n => n % b :: if n / b = 0 then [] else digitsUp b rounds (n / b)

/-- Enough rounds find the whole numeral. -/
theorem map_reverse_digitsUp {b : Nat} (hb : 1 < b) {rounds n : Nat} (hrounds : 0 < rounds)
    (hn : n < b ^ rounds) : (digitsUp b rounds n).reverse.map Nat.digitChar = Nat.toDigits b n := by
  induction rounds generalizing n with
  | zero => omega
  | succ rounds ih =>
    rw [digitsUp, Nat.toDigits_eq_if hb]
    by_cases hlast : n < b
    · rw [if_pos hlast, if_pos (Nat.div_eq_of_lt hlast), Nat.mod_eq_of_lt hlast]
      rfl
    · have hmore : n / b ≠ 0 := by
        intro h
        rcases Nat.div_eq_zero_iff.mp h with h | h
        · omega
        · exact hlast h
      have hnext : n / b < b ^ rounds := by
        rw [Nat.div_lt_iff_lt_mul (by omega)]
        rwa [Nat.pow_succ] at hn
      have hpos : 0 < rounds := by
        rcases Nat.eq_zero_or_pos rounds with h | h
        · rw [h, Nat.pow_zero] at hnext
          exact absurd (Nat.lt_one_iff.mp hnext) hmore
        · exact h
      rw [if_neg hlast, if_neg hmore, List.reverse_cons, List.map_append, ih hpos hnext]
      rfl

/-! ## The symbols of a numeral -/

theorem mem_toDigits {b : Nat} (hb : 1 < b) {n : Nat} {c : Char} (hc : c ∈ Nat.toDigits b n) :
    ∃ d, d < b ∧ c = d.digitChar := by
  induction n using Nat.strongRecOn with
  | ind n ih =>
    rw [Nat.toDigits_eq_if hb] at hc
    split at hc
    · rename_i hlast
      exact ⟨n, hlast, List.mem_singleton.mp hc⟩
    · rename_i hmore
      rcases List.mem_append.mp hc with hc | hc
      · exact ih (n / b) (Nat.div_lt_self (by omega) hb) hc
      · exact ⟨n % b, Nat.mod_lt n (by omega), List.mem_singleton.mp hc⟩

variable {σ : Type}

/-- The number whose digits to base `b` the symbols are, the highest first. -/
def readDigits (value : σ → Option Nat) (b : Nat) (ds : List σ) : Option Nat :=
  ds.foldlM (fun n c => (value c).map (n * b + ·)) 0

/-- **A numeral is read back**, if each of its symbols is. -/
theorem readDigits_toDigits {value : σ → Option Nat} {symbol : Char → σ} {b : Nat} (hb : 1 < b)
    (hvalue : ∀ d, d < b → value (symbol d.digitChar) = some d) (n : Nat) :
    readDigits value b ((Nat.toDigits b n).map symbol) = some n := by
  induction n using Nat.strongRecOn with
  | ind n ih =>
    rw [Nat.toDigits_eq_if hb]
    split
    · rename_i hlast
      simp [readDigits, hvalue n hlast]
    · rename_i hmore
      have hhigh := ih (n / b) (Nat.div_lt_self (by omega) hb)
      have hlow := hvalue (n % b) (Nat.mod_lt n (by omega))
      unfold readDigits at hhigh ⊢
      rw [List.map_append, List.foldlM_append, hhigh]
      simp only [List.map_cons, List.map_nil, List.foldlM_cons, List.foldlM_nil, hlow, Option.map_some,
        Option.bind_eq_bind, Option.bind_some, Option.pure_def]
      rw [Nat.mul_comm, Nat.div_add_mod]

/-- A numeral that is not empty and has no leading zero. -/
structure Canonical (zero : σ) (ds : List σ) : Prop where
  nonempty : ds ≠ []
  noLeadingZero : ds.head? = some zero → ds = [zero]

/-- Only the numeral of zero starts with a zero. -/
theorem head?_toDigits {b : Nat} (hb : 1 < b) {n : Nat}
    (h : (Nat.toDigits b n).head? = some '0') : n = 0 := by
  induction n using Nat.strongRecOn with
  | ind n ih =>
    rw [Nat.toDigits_eq_if hb] at h
    split at h
    · exact Nat.digitChar_eq_zero.mp (Option.some.inj h)
    · rename_i hmore
      rw [List.head?_append_of_ne_nil _ Nat.toDigits_ne_nil] at h
      have hzero := ih (n / b) (Nat.div_lt_self (by omega) hb) h
      rcases Nat.div_eq_zero_iff.mp hzero with hbase | hlast
      · omega
      · exact absurd hlast hmore

theorem canonical_toDigits {symbol : Char → σ} {b : Nat} (hb : 1 < b)
    (hzero : ∀ d, d < b → symbol d.digitChar = symbol '0' → d = 0) (n : Nat) :
    Canonical (symbol '0') ((Nat.toDigits b n).map symbol) where
  nonempty h := Nat.toDigits_ne_nil (List.map_eq_nil_iff.mp h)
  noLeadingZero h := by
    rw [List.head?_map, Option.map_eq_some_iff] at h
    obtain ⟨c, hhead, hc⟩ := h
    obtain ⟨d, hd, rfl⟩ := mem_toDigits hb (List.mem_of_head? hhead)
    obtain rfl : d = 0 := hzero d hd hc
    rw [head?_toDigits hb hhead, Nat.toDigits_zero]
    rfl

/-! ## Padded numerals -/

/-- Leading zeros do not change the number. -/
theorem readDigits_padded {value : σ → Option Nat} {zero : σ} (hzero : value zero = some 0)
    (b k : Nat) (ds : List σ) :
    readDigits value b (List.replicate k zero ++ ds) = readDigits value b ds := by
  induction k with
  | zero => rfl
  | succ k ih =>
    unfold readDigits at ih ⊢
    rw [List.replicate_succ, List.cons_append, List.foldlM_cons, hzero, Option.map_some,
      Nat.zero_mul, Nat.zero_add, Option.bind_eq_bind, Option.bind_some, ih]

/-- The `width` lowest digits of `n` to base `b`, the highest first. -/
def fixedDigits (b : Nat) : (width n : Nat) → List Nat
  | 0, _ => []
  | width + 1, n => fixedDigits b width (n / b) ++ [n % b]

@[simp] theorem length_fixedDigits (b width n : Nat) : (fixedDigits b width n).length = width := by
  induction width generalizing n with
  | zero => rfl
  | succ width ih => rw [fixedDigits, List.length_append, ih, List.length_singleton]

theorem mem_fixedDigits {b width n d : Nat} (hb : 0 < b) (hd : d ∈ fixedDigits b width n) : d < b := by
  induction width generalizing n with
  | zero => exact absurd hd List.not_mem_nil
  | succ width ih =>
    rcases List.mem_append.mp hd with hd | hd
    · exact ih hd
    · obtain rfl := List.mem_singleton.mp hd
      exact Nat.mod_lt n hb

theorem readDigits_fixedDigits (b width n : Nat) :
    readDigits some b (fixedDigits b width n) = some (n % b ^ width) := by
  induction width generalizing n with
  | zero =>
    rw [Nat.pow_zero, Nat.mod_one]
    rfl
  | succ width ih =>
    have hhigh := ih (n / b)
    unfold readDigits at hhigh ⊢
    rw [fixedDigits, List.foldlM_append, hhigh, Option.bind_eq_bind, Option.bind_some]
    show some (n / b % b ^ width * b + n % b) = _
    rw [Nat.pow_succ', Nat.mod_mul, Nat.mul_comm, Nat.add_comm]

theorem map_digitChar_fixedDigits_zero (b width : Nat) :
    (fixedDigits b width 0).map Nat.digitChar = List.replicate width '0' := by
  induction width with
  | zero => rfl
  | succ width ih =>
    rw [fixedDigits, List.map_append, Nat.zero_div, ih, Nat.zero_mod, List.replicate_succ']
    rfl

/-- **A numeral padded with zeros** shows the digits at fixed places. -/
theorem padded_toDigits {b width n : Nat} (hb : 1 < b) (hwidth : 0 < width) (hn : n < b ^ width) :
    List.replicate (width - (Nat.toDigits b n).length) '0' ++ Nat.toDigits b n =
      (fixedDigits b width n).map Nat.digitChar := by
  induction width generalizing n with
  | zero => omega
  | succ width ih =>
    rw [fixedDigits, List.map_append, List.map_singleton]
    by_cases hlast : n < b
    · rw [Nat.toDigits_of_lt_base hlast, Nat.div_eq_of_lt hlast, Nat.mod_eq_of_lt hlast,
        List.length_singleton, Nat.add_sub_cancel, ← map_digitChar_fixedDigits_zero b width]
    · have hnext : n / b < b ^ width := by
        rw [Nat.div_lt_iff_lt_mul (by omega)]
        rwa [Nat.pow_succ] at hn
      have hpos : 0 < width := by
        rcases Nat.eq_zero_or_pos width with h | h
        · rw [h, Nat.zero_add, Nat.pow_one] at hn
          exact absurd hn hlast
        · exact h
      rw [Nat.toDigits_of_base_le hb (Nat.le_of_not_lt hlast), List.length_append,
        List.length_singleton, Nat.add_sub_add_right, ← List.append_assoc, ih hpos hnext]

/-! ## Decimal digits -/

/-- The value of a decimal digit. -/
def decimalDigit (c : Char) : Option Nat :=
  if c.isDigit then some (c.toNat - '0'.toNat) else none

theorem decimalDigit_digitChar {d : Nat} (hd : d < 10) : decimalDigit d.digitChar = some d := by
  have hall : ∀ k : Fin 10, decimalDigit k.val.digitChar = some k.val := by decide
  exact hall ⟨d, hd⟩

theorem readDecimal_toDigits (n : Nat) :
    readDigits decimalDigit 10 (Nat.toDigits 10 n) = some n := by
  have hread : readDigits decimalDigit 10 ((Nat.toDigits 10 n).map id) = some n :=
    readDigits_toDigits (by decide) (fun d hd => decimalDigit_digitChar hd) n
  rwa [List.map_id] at hread

/-- Whatever is not a digit ends the attempt to read a numeral. -/
theorem readDigits_cons_of_none {value : σ → Option Nat} {c : σ} (h : value c = none) (b : Nat)
    (ds : List σ) : readDigits value b (c :: ds) = none := by
  unfold readDigits
  rw [List.foldlM_cons, h]
  rfl

end TurboNet.Lib
