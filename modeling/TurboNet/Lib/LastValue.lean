/-
# TurboNet.Lib.LastValue — a value kept from one call to the next.

A cache of one entry remembers the last key it was asked for and the value of that key, and computes
a value for another key only.  It starts with some key and some value: if they do not belong
together, what it shows is wrong as long as it is asked for that key.

A place that only some keys write their value to shows the other keys what was written last
(`foldl_keep`).
-/
import Mathlib.Data.List.Basic
import Mathlib.Data.List.Induction

namespace TurboNet.Lib

/-- The last key and what was computed for it. -/
structure LastValue (κ β : Type) where
  key : κ
  value : β
  deriving DecidableEq, Repr

namespace LastValue

variable {κ β : Type} [DecidableEq κ] {f : κ → β} {c : LastValue κ β} {k : κ}

/-- The cache after it was asked for `k`. -/
def refresh (f : κ → β) (c : LastValue κ β) (k : κ) : LastValue κ β :=
  if c.key ≠ k then { key := k, value := f k } else c

/-- Key and value belong together. -/
def Coherent (f : κ → β) (c : LastValue κ β) : Prop := c.value = f c.key

theorem refresh_of_ne (h : c.key ≠ k) : c.refresh f k = { key := k, value := f k } := if_pos h

theorem refresh_of_eq (h : c.key = k) : c.refresh f k = c := if_neg (not_not_intro h)

theorem refresh_key (f : κ → β) (c : LastValue κ β) (k : κ) : (c.refresh f k).key = k := by
  by_cases h : c.key = k
  · rw [refresh_of_eq h, h]
  · rw [refresh_of_ne h]

/-- A question for another key makes the cache coherent, and one for the same key leaves it as it
is. -/
theorem refresh_coherent_iff : (c.refresh f k).Coherent f ↔ (c.key = k → c.Coherent f) := by
  by_cases h : c.key = k
  · rw [refresh_of_eq h]
    exact ⟨fun hc _ => hc, fun hc => hc h⟩
  · rw [refresh_of_ne h]
    exact ⟨fun _ hkey => absurd hkey h, fun _ => rfl⟩

theorem Coherent.refresh (h : c.Coherent f) : (c.refresh f k).Coherent f :=
  refresh_coherent_iff.mpr fun _ => h

/-- **A coherent cache answers like the function.** -/
theorem Coherent.value_refresh (h : (c.refresh f k).Coherent f) : (c.refresh f k).value = f k := by
  rw [h, refresh_key]

end LastValue

/-! ## Values some keys do not write -/

variable {κ β : Type}

/-- What a place holds after `k`, which writes its value there or leaves the place as it is. -/
def keep (writes : κ → Bool) (f : κ → β) (v : β) (k : κ) : β := if writes k then f k else v

theorem foldl_keep (writes : κ → Bool) (f : κ → β) (v : β) (ks : List κ) :
    ks.foldl (keep writes f) v = ((ks.filter writes).getLast?.map f).getD v := by
  induction ks using List.reverseRecOn with
  | nil => rfl
  | append_singleton ks k ih =>
    rw [List.foldl_append, List.foldl_cons, List.foldl_nil, keep, List.filter_append]
    by_cases hk : writes k = true
    · rw [if_pos hk, List.filter_cons_of_pos hk, List.filter_nil, List.getLast?_concat,
        Option.map_some, Option.getD_some]
    · rw [if_neg hk, List.filter_cons_of_neg hk, List.filter_nil, List.append_nil, ih]

end TurboNet.Lib
