/-
# TurboNet.Lib.FixedWidth — texts that are ordered like the numbers in them.

A text of numerals of fixed widths, with what stands between them, compares with another of the same
widths like the lists of the numbers: by the first number that differs.  It takes symbols of the
digits that are ordered like the digits, and numbers that fit their widths.
-/
import Mathlib.Data.List.Forall2
import Mathlib.Data.List.Lex
import TurboNet.Lib.Numeral

namespace TurboNet.Lib

variable {α β : Type*} {r : α → α → Prop} {s : β → β → Prop}

/-! ## Lexicographic order -/

theorem lex_cons_iff_or [Std.Irrefl r] {x y : α} {xs ys : List α} :
    List.Lex r (x :: xs) (y :: ys) ↔ r x y ∨ x = y ∧ List.Lex r xs ys := by
  constructor
  · intro h
    cases h with
    | rel h => exact .inl h
    | cons h => exact .inr ⟨rfl, h⟩
  · rintro (h | ⟨rfl, h⟩)
    · exact .rel h
    · exact .cons h

/-- Behind two beginnings of one length. -/
theorem lex_append_iff [Std.Irrefl r] {xs ys as bs : List α} (h : xs.length = ys.length) :
    List.Lex r (xs ++ as) (ys ++ bs) ↔ List.Lex r xs ys ∨ xs = ys ∧ List.Lex r as bs := by
  induction xs generalizing ys with
  | nil =>
    obtain rfl : ys = [] := List.length_eq_zero_iff.mp h.symm
    have hnot : ¬ List.Lex r ([] : List α) [] := nofun
    simp [hnot]
  | cons x xs ih =>
    cases ys with
    | nil => cases h
    | cons y ys =>
      rw [List.cons_append, List.cons_append, lex_cons_iff_or, lex_cons_iff_or,
        ih (Nat.succ.inj h), List.cons.injEq]
      tauto

/-- Behind a common beginning. -/
theorem lex_append_left_iff [Std.Irrefl r] {as bs : List α} (xs : List α) :
    List.Lex r (xs ++ as) (xs ++ bs) ↔ List.Lex r as bs := by
  induction xs with
  | nil => rfl
  | cons x xs ih => rw [List.cons_append, List.cons_append, List.lex_cons_iff, ih]

/-- Images under a function that keeps the order. -/
theorem lex_map_iff [Std.Irrefl r] [Std.Irrefl s] {f : β → α} {xs ys : List β}
    (hf : ∀ x ∈ xs, ∀ y ∈ ys, (r (f x) (f y) ↔ s x y) ∧ (f x = f y ↔ x = y)) :
    List.Lex r (xs.map f) (ys.map f) ↔ List.Lex s xs ys := by
  induction xs generalizing ys with
  | nil =>
    cases ys with
    | nil => exact ⟨nofun, nofun⟩
    | cons y ys => exact ⟨fun _ => .nil, fun _ => .nil⟩
  | cons x xs ih =>
    cases ys with
    | nil => exact ⟨nofun, nofun⟩
    | cons y ys =>
      obtain ⟨hless, hsame⟩ := hf x List.mem_cons_self y List.mem_cons_self
      have hrest := ih fun x hx y hy =>
        hf x (List.mem_cons_of_mem _ hx) y (List.mem_cons_of_mem _ hy)
      rw [List.map_cons, List.map_cons, lex_cons_iff_or, lex_cons_iff_or, hless, hsame, hrest]

/-! ## Numerals -/

theorem fixedDigits_inj {b width n m : Nat} (hn : n < b ^ width) (hm : m < b ^ width) :
    fixedDigits b width n = fixedDigits b width m ↔ n = m := by
  constructor
  · intro h
    have hread := congrArg (readDigits some b) h
    rw [readDigits_fixedDigits, readDigits_fixedDigits, Nat.mod_eq_of_lt hn,
      Nat.mod_eq_of_lt hm] at hread
    exact Option.some.inj hread
  · rintro rfl
    rfl

/-- Quotients first, then remainders. -/
theorem lt_iff_div_mod {b n m : Nat} :
    n < m ↔ n / b < m / b ∨ n / b = m / b ∧ n % b < m % b := by
  have hn := Nat.div_add_mod n b
  have hm := Nat.div_add_mod m b
  constructor
  · intro h
    rcases Nat.lt_or_eq_of_le (Nat.div_le_div_right (c := b) (Nat.le_of_lt h)) with hless | hsame
    · exact .inl hless
    · refine .inr ⟨hsame, ?_⟩
      rw [hsame] at hn
      omega
  · rintro (hless | ⟨hsame, hless⟩)
    · by_contra hnot
      exact Nat.not_lt.mpr (Nat.div_le_div_right (Nat.not_lt.mp hnot)) hless
    · rw [hsame] at hn
      omega

theorem lex_fixedDigits_iff {b width n m : Nat} (hn : n < b ^ width) (hm : m < b ^ width) :
    List.Lex (· < ·) (fixedDigits b width n) (fixedDigits b width m) ↔ n < m := by
  induction width generalizing n m with
  | zero =>
    rw [Nat.pow_zero] at hn hm
    refine ⟨nofun, fun h => ?_⟩
    omega
  | succ width ih =>
    rw [Nat.pow_succ] at hn hm
    have hn' := Nat.div_lt_of_lt_mul (Nat.mul_comm _ b ▸ hn)
    have hm' := Nat.div_lt_of_lt_mul (Nat.mul_comm _ b ▸ hm)
    rw [fixedDigits, fixedDigits, lex_append_iff (by rw [length_fixedDigits, length_fixedDigits]),
      ih hn' hm', fixedDigits_inj hn' hm', List.lex_singleton_iff, ← lt_iff_div_mod]

/-! ## Texts -/

/-- The symbols are ordered like the digits. -/
def Ordered (r : α → α → Prop) (b : Nat) (symbol : Nat → α) : Prop :=
  ∀ c < b, ∀ d < b, (r (symbol c) (symbol d) ↔ c < d)

/-- The numbers in their widths, each with what stands behind it. -/
def fixedText (b : Nat) (symbol : Nat → α) : List (Nat × List α) → List Nat → List α
  | (width, behind) :: fields, n :: ns =>
    (fixedDigits b width n).map symbol ++ (behind ++ fixedText b symbol fields ns)
  | _, _ => []

/-- Each number fits its width. -/
def Fits (b : Nat) : List (Nat × List α) → List Nat → Prop :=
  List.Forall₂ fun field n => n < b ^ field.1

variable {b : Nat} {symbol : Nat → α} {fields : List (Nat × List α)} {ns ms : List Nat}

/-- What compares like numbers is one only where they are. -/
theorem eq_iff_of_lt_iff (hirrefl : ∀ x, ¬ r x x) {x y : α} {n m : Nat} (hless : r x y ↔ n < m)
    (hmore : r y x ↔ m < n) (hsame : n = m → x = y) : x = y ↔ n = m := by
  refine ⟨?_, hsame⟩
  rintro rfl
  rcases Nat.lt_trichotomy n m with h | h | h
  · exact absurd (hless.mpr h) (hirrefl x)
  · exact h
  · exact absurd (hmore.mpr h) (hirrefl x)

theorem Ordered.digits [Std.Irrefl r] (h : Ordered r b symbol) {width n m : Nat}
    (hn : n < b ^ width) : ∀ c ∈ fixedDigits b width n, ∀ d ∈ fixedDigits b width m,
      (r (symbol c) (symbol d) ↔ c < d) ∧ (symbol c = symbol d ↔ c = d) := by
  intro c hc d hd
  have hb : 0 < b := by
    rcases Nat.eq_zero_or_pos b with rfl | hpos
    · cases width with
      | zero => exact absurd hc List.not_mem_nil
      | succ width => exact absurd hn (by rw [Nat.pow_succ, Nat.mul_zero]; exact Nat.not_lt_zero n)
    · exact hpos
  have hc := mem_fixedDigits hb hc
  have hd := mem_fixedDigits hb hd
  exact ⟨h c hc d hd, eq_iff_of_lt_iff Std.Irrefl.irrefl (h c hc d hd) (h d hd c hc)
    (congrArg symbol)⟩

theorem lex_numeral_iff [Std.Irrefl r] (h : Ordered r b symbol) {width n m : Nat}
    (hn : n < b ^ width) (hm : m < b ^ width) :
    List.Lex r ((fixedDigits b width n).map symbol) ((fixedDigits b width m).map symbol) ↔ n < m := by
  rw [lex_map_iff (s := (· < ·)) (h.digits hn), lex_fixedDigits_iff hn hm]

/-- **Order.** Texts of one format compare like the numbers in them. -/
theorem lex_fixedText_iff [Std.Irrefl r] (h : Ordered r b symbol) (hn : Fits b fields ns)
    (hm : Fits b fields ms) :
    List.Lex r (fixedText b symbol fields ns) (fixedText b symbol fields ms) ↔
      List.Lex (· < ·) ns ms := by
  unfold Fits at hn hm
  induction hn generalizing ms with
  | nil =>
    cases hm with
    | nil => exact ⟨nofun, nofun⟩
  | @cons field n fields ns hfit _ ih =>
    cases hm with
    | @cons _ m _ ms hfit' hrest =>
      have hnumeral := lex_numeral_iff h hfit hfit'
      have hsame : (fixedDigits b field.1 n).map symbol = (fixedDigits b field.1 m).map symbol ↔
          n = m :=
        eq_iff_of_lt_iff (List.lex_irrefl Std.Irrefl.irrefl) hnumeral
          (lex_numeral_iff h hfit' hfit) (by rintro rfl; rfl)
      rw [fixedText, fixedText, lex_append_iff (by simp), hnumeral, hsame, lex_append_left_iff,
        ih hrest, lex_cons_iff_or]

/-- **Difference.** Texts of one format are one only if their numbers are. -/
theorem fixedText_inj [Std.Irrefl r] (h : Ordered r b symbol) (hn : Fits b fields ns)
    (hm : Fits b fields ms) (hsame : fixedText b symbol fields ns = fixedText b symbol fields ms) :
    ns = ms := by
  by_contra hne
  have hnot : ¬ List.Lex r (fixedText b symbol fields ns) (fixedText b symbol fields ns) :=
    List.lex_irrefl Std.Irrefl.irrefl _
  rcases trichotomous_of (List.Lex (· < ·)) ns ms with hless | heq | hmore
  · refine hnot ?_
    have htext := (lex_fixedText_iff h hn hm).mpr hless
    rwa [← hsame] at htext
  · exact hne heq
  · refine hnot ?_
    have htext := (lex_fixedText_iff h hm hn).mpr hmore
    rwa [← hsame] at htext

end TurboNet.Lib
