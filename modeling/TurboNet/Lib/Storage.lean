/-
# TurboNet.Lib.Storage — windows of a flat storage.

A storage is a list of cells.  `window xs lo hi` is what the half-open range `[lo, hi)` holds, and
`overwrite xs i data` stores `data` from cell `i` on.  The rules relate the two (a write inside the
window, before it, after it) and cut and join windows; with them a proof about a program that keeps
its data between two indices never looks at a single cell.
-/
import Mathlib.Data.List.Basic
import Mathlib.Data.List.TakeDrop

namespace TurboNet.Lib

variable {α : Type*}

/-- The cells `[lo, hi)` of `xs`. -/
def window (xs : List α) (lo hi : Nat) : List α := (xs.take hi).drop lo

/-- `xs` with `data` stored from cell `i` on. -/
def overwrite (xs : List α) (i : Nat) (data : List α) : List α :=
  xs.take i ++ (data ++ xs.drop (i + data.length))

theorem length_window {xs : List α} {lo hi : Nat} (h : hi ≤ xs.length) :
    (window xs lo hi).length = hi - lo := by
  simp [window, Nat.min_eq_left h]

@[simp] theorem window_self (xs : List α) (i : Nat) : window xs i i = [] := by
  simp [window]

theorem length_overwrite {xs data : List α} {i : Nat} (h : i + data.length ≤ xs.length) :
    (overwrite xs i data).length = xs.length := by
  simp only [overwrite, List.length_append, List.length_take, List.length_drop]
  omega

@[simp] theorem overwrite_nil (xs : List α) (i : Nat) : overwrite xs i [] = xs := by
  rw [overwrite, List.nil_append, List.length_nil, Nat.add_zero, List.take_append_drop]

theorem getElem?_overwrite_before {xs data : List α} {i j : Nat} (h : j < i) (hi : i ≤ xs.length) :
    (overwrite xs i data)[j]? = xs[j]? := by
  rw [overwrite, List.getElem?_append_left (by rw [List.length_take]; omega),
    List.getElem?_take_of_lt h]

theorem getElem?_overwrite_after {xs data : List α} {i j : Nat} (h : i + data.length ≤ j)
    (hi : i ≤ xs.length) : (overwrite xs i data)[j]? = xs[j]? := by
  have hlen : (xs.take i).length = i := by rw [List.length_take]; omega
  rw [overwrite, List.getElem?_append_right (by omega), hlen,
    List.getElem?_append_right (by omega), List.getElem?_drop]
  congr 1
  omega

/-! ## Cutting and joining -/

theorem window_append {xs : List α} {lo mid hi : Nat} (h₁ : lo ≤ mid) (h₂ : mid ≤ hi)
    (h₃ : hi ≤ xs.length) : window xs lo mid ++ window xs mid hi = window xs lo hi := by
  have hsplit : xs.take hi = xs.take mid ++ (xs.take hi).drop mid := by
    conv_lhs => rw [← List.take_append_drop mid (xs.take hi), List.take_take, Nat.min_eq_left h₂]
  unfold window
  conv_rhs => rw [hsplit]
  rw [List.drop_append_of_le_length]
  rw [List.length_take]
  omega

theorem take_window {xs : List α} {lo hi n : Nat} (h : lo + n ≤ hi) :
    (window xs lo hi).take n = window xs lo (lo + n) := by
  rw [window, window, List.take_drop, List.take_take, Nat.min_eq_left h]

theorem drop_window (xs : List α) (lo hi n : Nat) :
    (window xs lo hi).drop n = window xs (lo + n) hi := by
  rw [window, window, List.drop_drop]

/-! ## Windows of changed storage -/

theorem window_append_right {xs ys : List α} {lo hi : Nat} (h : hi ≤ xs.length) :
    window (xs ++ ys) lo hi = window xs lo hi := by
  rw [window, window, List.take_append_of_le_length h]

theorem window_take {xs : List α} {lo hi n : Nat} (h : hi ≤ n) :
    window (xs.take n) lo hi = window xs lo hi := by
  rw [window, window, List.take_take, Nat.min_eq_left h]

theorem window_overwrite_before {xs data : List α} {lo hi i : Nat} (h : hi ≤ i)
    (hi' : i ≤ xs.length) : window (overwrite xs i data) lo hi = window xs lo hi := by
  rw [overwrite, window_append_right, window_take h]
  rw [List.length_take]
  omega

theorem window_overwrite_self {xs data : List α} {i : Nat} (h : i ≤ xs.length) :
    window (overwrite xs i data) i (i + data.length) = data := by
  have hlen : (xs.take i).length = i := by rw [List.length_take]; omega
  have hdrop : (overwrite xs i data).drop i = data ++ xs.drop (i + data.length) := by
    rw [overwrite, List.drop_left' hlen]
  rw [window, List.drop_take, hdrop, Nat.add_sub_cancel_left, List.take_left' rfl]

theorem window_overwrite_after {xs data : List α} {lo hi i : Nat} (h : i + data.length ≤ lo)
    (hi' : i ≤ xs.length) : window (overwrite xs i data) lo hi = window xs lo hi := by
  have hlen : (xs.take i).length = i := by rw [List.length_take]; omega
  have hdrop : (overwrite xs i data).drop (i + data.length) = xs.drop (i + data.length) := by
    rw [overwrite, ← List.drop_drop, List.drop_left' hlen, List.drop_left' rfl]
  have hlo : lo = i + data.length + (lo - (i + data.length)) := by omega
  rw [window, window, List.drop_take, List.drop_take, hlo, ← List.drop_drop, hdrop, List.drop_drop]

/-! ## Writes after writes -/

/-- A write right behind a write. -/
theorem overwrite_overwrite_behind {xs as bs : List α} {i : Nat} (h : i ≤ xs.length) :
    overwrite (overwrite xs i as) (i + as.length) bs = overwrite xs i (as ++ bs) := by
  have hlen : (xs.take i).length = i := by rw [List.length_take]; omega
  have hfront : (overwrite xs i as).take (i + as.length) = xs.take i ++ as := by
    rw [overwrite, ← List.append_assoc]
    exact List.take_left' (by rw [List.length_append, hlen])
  have hback : (overwrite xs i as).drop (i + as.length + bs.length) =
      xs.drop (i + (as ++ bs).length) := by
    rw [← List.drop_drop, overwrite, ← List.append_assoc,
      List.drop_left' (by rw [List.length_append, hlen]), List.drop_drop, List.length_append,
      Nat.add_assoc]
  rw [overwrite, hfront, hback, overwrite, List.append_assoc, List.append_assoc]

/-- A write over the first cells of a write. -/
theorem overwrite_overwrite_front {xs as bs cs : List α} {i : Nat} (h : i ≤ xs.length)
    (hsame : cs.length = as.length) :
    overwrite (overwrite xs i (as ++ bs)) i cs = overwrite xs i (cs ++ bs) := by
  have hlen : (xs.take i).length = i := by rw [List.length_take]; omega
  have hfront : (overwrite xs i (as ++ bs)).take i = xs.take i := by
    rw [overwrite]
    exact List.take_left' hlen
  have hback : (overwrite xs i (as ++ bs)).drop (i + cs.length) =
      bs ++ xs.drop (i + (as ++ bs).length) := by
    rw [← List.drop_drop, overwrite, List.drop_left' hlen, hsame, List.append_assoc,
      List.drop_left' rfl]
  rw [overwrite, hfront, hback, overwrite, List.length_append, List.length_append, hsame,
    List.append_assoc]

end TurboNet.Lib
