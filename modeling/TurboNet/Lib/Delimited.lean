/-
# TurboNet.Lib.Delimited — pieces of a growing sequence, each ended by a delimiter.

A reader looks for the first occurrence of a delimiter in what it has, takes everything up to its
end, and goes on behind it; in the meantime more elements may arrive at the end.  `Cut d xs ps rest`
says that from `xs` the pieces `ps` have been taken and `rest` is left.  What is taken does not
depend on how much had arrived (`Cut.append`), so that two readers with nothing left to take have the
same pieces (`Cut.unique`).
-/
import Mathlib.Data.List.Basic

namespace TurboNet.Lib

variable {α : Type*} {d xs ys : List α} {j k : Nat}

/-- The delimiter stands in `xs` from position `k` on. -/
def OccursAt (d xs : List α) (k : Nat) : Prop := d <+: xs.drop k

instance [DecidableEq α] : Decidable (OccursAt d xs k) := inferInstanceAs (Decidable (_ <+: _))

/-- The first occurrence is at `k`. -/
structure FirstAt (d xs : List α) (k : Nat) : Prop where
  occurs : OccursAt d xs k
  first : ∀ j < k, ¬ OccursAt d xs j

theorem OccursAt.le_length (h : OccursAt d xs k) (hd : d ≠ []) : k + d.length ≤ xs.length := by
  have hlen := h.length_le
  have hpos := List.length_pos_iff.mpr hd
  rw [List.length_drop] at hlen
  omega

theorem OccursAt.append (h : OccursAt d xs k) (hd : d ≠ []) (ys : List α) :
    OccursAt d (xs ++ ys) k := by
  have hle := h.le_length hd
  unfold OccursAt
  rw [List.drop_append_of_le_length (by omega)]
  exact h.trans (List.prefix_append _ _)

/-- An occurrence that ends inside `xs` does not depend on what follows. -/
theorem OccursAt.of_append (h : OccursAt d (xs ++ ys) j) (hle : j + d.length ≤ xs.length) :
    OccursAt d xs j := by
  unfold OccursAt at h ⊢
  rw [List.drop_append_of_le_length (by omega)] at h
  exact List.prefix_of_prefix_length_le h (List.prefix_append _ _) (by rw [List.length_drop]; omega)

theorem FirstAt.append (h : FirstAt d xs k) (hd : d ≠ []) (ys : List α) :
    FirstAt d (xs ++ ys) k := by
  have hle := h.occurs.le_length hd
  refine ⟨h.occurs.append hd ys, ?_⟩
  intro j hj hoccurs
  exact h.first j hj (hoccurs.of_append (by omega))

theorem FirstAt.unique (h : FirstAt d xs k) (h' : FirstAt d xs j) : k = j := by
  rcases Nat.lt_trichotomy k j with hlt | heq | hgt
  · exact absurd h.occurs (h'.first k hlt)
  · exact heq
  · exact absurd h'.occurs (h.first j hgt)

/-- A delimiter of two elements. -/
theorem occursAt_pair {a b : α} : OccursAt [a, b] xs k ↔ xs[k]? = some a ∧ xs[k + 1]? = some b := by
  have h₀ : (xs.drop k)[0]? = xs[k]? := by rw [List.getElem?_drop, Nat.add_zero]
  have h₁ : (xs.drop k)[1]? = xs[k + 1]? := List.getElem?_drop
  unfold OccursAt
  rw [← h₀, ← h₁]
  match xs.drop k with
  | [] => simp
  | [x] => simp
  | x :: y :: rest => simp [List.cons_prefix_cons, eq_comm]

/-! ## Taking pieces -/

/-- From `xs` the pieces `ps` have been taken, each up to the end of a first occurrence, and `rest`
is left. -/
inductive Cut (d : List α) : (xs : List α) → (ps : List (List α)) → (rest : List α) → Prop
  | nil (xs : List α) : Cut d xs [] xs
  | cons {xs rest : List α} {ps : List (List α)} {k : Nat} (hfirst : FirstAt d xs k)
      (hrest : Cut d (xs.drop (k + d.length)) ps rest) :
      Cut d xs (xs.take (k + d.length) :: ps) rest

variable {ps qs : List (List α)} {rest rest' : List α}

/-- More elements at the end change no piece. -/
theorem Cut.append (h : Cut d xs ps rest) (hd : d ≠ []) (ys : List α) :
    Cut d (xs ++ ys) ps (rest ++ ys) := by
  induction h with
  | nil xs => exact .nil _
  | @cons xs rest ps k hfirst _ ih =>
    have hle := hfirst.occurs.le_length hd
    have hcons := Cut.cons (hfirst.append hd ys)
      (by rw [List.drop_append_of_le_length hle]; exact ih)
    rwa [List.take_append_of_le_length hle] at hcons

/-- One more piece. -/
theorem Cut.concat (h : Cut d xs ps rest) (hfirst : FirstAt d rest k) :
    Cut d xs (ps ++ [rest.take (k + d.length)]) (rest.drop (k + d.length)) := by
  induction h with
  | nil xs => exact .cons hfirst (.nil _)
  | cons hfirst' _ ih => exact .cons hfirst' (ih hfirst)

/-- With no delimiter left, all pieces have been taken. -/
theorem Cut.unique (h : Cut d xs ps rest) (hrest : ∀ k, ¬ OccursAt d rest k)
    (h' : Cut d xs qs rest') (hrest' : ∀ k, ¬ OccursAt d rest' k) : ps = qs := by
  induction h generalizing qs with
  | nil xs =>
    cases h' with
    | nil => rfl
    | cons hfirst _ => exact absurd hfirst.occurs (hrest _)
  | cons hfirst _ ih =>
    cases h' with
    | nil => exact absurd hfirst.occurs (hrest' _)
    | cons hfirst' hmore =>
      obtain rfl := hfirst.unique hfirst'
      rw [ih hrest hmore]

end TurboNet.Lib
