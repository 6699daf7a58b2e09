/-
# TurboNet.Lib.Once — a function that runs until it succeeds once.

Parties come to a flag.  While it is ready, one of them starts the function and the others have to
wait; where the function fails the flag is ready again, and where it succeeds the flag is done and
lets everyone pass.  As long as parties move by `OnceMove`, the flag says who is in the function
(`Tracked`), there is one such party at most (`Tracked.exclusive`), and after a success there is none
any more (`Tracked.done`).
-/
import Mathlib.Logic.Function.Basic

namespace TurboNet.Lib

variable {P : Type*}

/-- The flag. -/
inductive Once (P : Type*) where
  | ready
  | running (p : P)
  | done
  deriving DecidableEq, Repr

/-- What a move of party `p` does to its being in the function, and to the flag. -/
inductive OnceMove (p : P) : Bool → Bool → Once P → Once P → Prop
  | stay {b : Bool} {flag : Once P} : OnceMove p b b flag flag
  | start : OnceMove p false true .ready (.running p)
  | succeed {flag : Once P} : OnceMove p true false flag .done
  | fail {flag : Once P} : OnceMove p true false flag .ready

/-- The flag says who is in the function. -/
def Tracked (inside : P → Bool) (flag : Once P) : Prop :=
  ∀ p, inside p = true ↔ flag = .running p

namespace Tracked

variable {inside inside' : P → Bool} {flag flag' : Once P} {p q : P}

theorem exclusive (h : Tracked inside flag) (hp : inside p = true) (hq : inside q = true) : p = q := by
  have hrunning := (h p).mp hp
  rw [(h q).mp hq] at hrunning
  exact (Once.running.inj hrunning).symm

/-- Nobody is in the function when the flag does not say so. -/
theorem outside (h : Tracked inside flag) (hflag : ∀ q, flag ≠ .running q) (p : P) :
    inside p = false := by
  rw [← Bool.not_eq_true]
  exact fun hp => hflag p ((h p).mp hp)

theorem move (h : Tracked inside flag) (hmove : OnceMove p (inside p) (inside' p) flag flag')
    (hothers : ∀ q, q ≠ p → inside' q = inside q) : Tracked inside' flag' := by
  generalize hb : inside p = b at hmove
  generalize hb' : inside' p = b' at hmove
  intro q
  by_cases hq : q = p
  · subst hq
    cases hmove with
    | stay => rw [hb', ← hb, h q]
    | start => simp [hb']
    | succeed => simp [hb']
    | fail => simp [hb']
  · rw [hothers q hq, h q]
    cases hmove with
    | stay => rfl
    | start => simp [Ne.symm hq]
    | succeed => simp [(h p).mp hb, Ne.symm hq]
    | fail => simp [(h p).mp hb, Ne.symm hq]

/-- **Once it has succeeded, it is not run again.** -/
theorem done (h : Tracked inside .done) (hmove : OnceMove p (inside p) (inside' p) .done flag') :
    flag' = .done ∧ inside' p = false := by
  have hout := h.outside (fun q hq => by cases hq) p
  rw [hout] at hmove
  generalize inside' p = b' at hmove
  cases hmove with
  | stay => exact ⟨rfl, rfl⟩

end Tracked

end TurboNet.Lib
