/-
# TurboNet.Lib.Mutex — mutual exclusion by scoped guards.

Every party keeps the mutexes it holds as a stack of guards; `owner` says who holds each mutex.  A
party takes a free mutex on top of its stack and gives up the one on top.  As long as parties move
by `GuardMove`, the two views agree (`Guarded`), and what lies under a mutex is one party's at a time
(`Guarded.exclusive`).
-/
import Mathlib.Data.List.Nodup
import Mathlib.Logic.Function.Basic

namespace TurboNet.Lib

variable {P M : Type*}

/-- A mutex is in a party's guards exactly when the party owns it, and in them once. -/
structure Guarded (guards : P → List M) (owner : M → Option P) : Prop where
  holds : ∀ m p, m ∈ guards p ↔ owner m = some p
  nodup : ∀ p, (guards p).Nodup

/-- What a move of party `p` does to its guards and to the owners. -/
inductive GuardMove [DecidableEq M] (p : P) :
    List M → List M → (M → Option P) → (M → Option P) → Prop
  | stay {g : List M} {owner : M → Option P} : GuardMove p g g owner owner
  | take {g : List M} {owner : M → Option P} (m : M) (hfree : owner m = none) :
      GuardMove p g (m :: g) owner (Function.update owner m (some p))
  | drop {g : List M} {owner : M → Option P} (m : M) :
      GuardMove p (m :: g) g owner (Function.update owner m none)

namespace Guarded

variable {guards guards' : P → List M} {owner owner' : M → Option P}

/-- **Mutual exclusion.** -/
theorem exclusive (h : Guarded guards owner) {m : M} {p q : P} (hp : m ∈ guards p)
    (hq : m ∈ guards q) : p = q := by
  have hp := (h.holds m p).mp hp
  have hq := (h.holds m q).mp hq
  rw [hp] at hq
  exact Option.some.inj hq

/-- Moves keep the two views in agreement. -/
theorem move [DecidableEq M] (h : Guarded guards owner) {p : P}
    (hmove : GuardMove p (guards p) (guards' p) owner owner')
    (hothers : ∀ q, q ≠ p → guards' q = guards q) : Guarded guards' owner' := by
  generalize hg : guards p = g at hmove
  generalize hg' : guards' p = g' at hmove
  constructor
  · intro m q
    cases hmove with
    | stay =>
      by_cases hq : q = p
      · subst hq
        rw [hg', ← hg]
        exact h.holds m q
      · rw [hothers q hq]
        exact h.holds m q
    | take m' hfree =>
      by_cases hq : q = p
      · subst hq
        rw [hg', List.mem_cons, ← hg, h.holds m q, Function.update_apply]
        by_cases hm : m = m'
        · simp [hm]
        · simp [hm]
      · rw [hothers q hq, h.holds m q, Function.update_apply]
        by_cases hm : m = m'
        · subst hm
          simp [hfree, Ne.symm hq]
        · simp [hm]
    | drop m' =>
      have hnodup := h.nodup p
      rw [hg, List.nodup_cons] at hnodup
      by_cases hq : q = p
      · subst hq
        have hold := h.holds m q
        rw [hg, List.mem_cons] at hold
        rw [hg', Function.update_apply]
        by_cases hm : m = m'
        · subst hm
          simp [hnodup.1]
        · simpa [hm] using hold
      · rw [hothers q hq, h.holds m q, Function.update_apply]
        by_cases hm : m = m'
        · -- the mutex given up was nobody else's
          subst hm
          have howner := (h.holds m p).mp (hg ▸ List.mem_cons_self ..)
          simp [howner, Ne.symm hq]
        · simp [hm]
  · intro q
    by_cases hq : q = p
    · subst hq
      rw [hg']
      have hnodup := h.nodup q
      rw [hg] at hnodup
      cases hmove with
      | stay => exact hnodup
      | take m' hfree =>
        refine List.nodup_cons.mpr ⟨?_, hnodup⟩
        rw [← hg, h.holds, hfree]
        simp
      | drop m' => exact (List.nodup_cons.mp hnodup).2
    · rw [hothers q hq]
      exact h.nodup q

end Guarded

end TurboNet.Lib
