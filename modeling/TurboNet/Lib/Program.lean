/-
# TurboNet.Lib.Program — imperative programs that may leave by an exception or a fault.

A member function is a program `EStateM ε σ α`: it reads and assigns the fields of an object of type
`σ`, and ends by returning or by `throw`, in both cases with the object as it stands at that moment
(nothing is rolled back).  `check` is the C assertion.  The rules take a sequence apart at its first
step, forwards (`run_bind_of_ok`) and backwards (`bind_ok_iff`).  `Effect` says of a whole program
what it may do to its object and how it may be left, whatever it is run on.
-/
import Mathlib.Logic.Basic

namespace TurboNet.Lib

variable {ε σ α β : Type}

/-- Go on when `cond` holds, leave by `e` otherwise. -/
def check (e : ε) (cond : Prop) [Decidable cond] : EStateM ε σ Unit :=
  if cond then pure () else throw e

theorem run_check_of {e : ε} {cond : Prop} [Decidable cond] {s : σ} (h : cond) :
    (check e cond).run s = .ok () s := by
  rw [check, if_pos h]; rfl

theorem run_check_of_not {e : ε} {cond : Prop} [Decidable cond] {s : σ} (h : ¬ cond) :
    (check e cond).run s = .error e s := by
  rw [check, if_neg h]; rfl

theorem check_ok_iff {e : ε} {cond : Prop} [Decidable cond] {u : Unit} {s s' : σ} :
    (check e cond).run s = .ok u s' ↔ cond ∧ s' = s := by
  by_cases h : cond
  · rw [run_check_of h]
    constructor
    · rintro ⟨⟩
      exact ⟨h, rfl⟩
    · rintro ⟨-, rfl⟩
      rfl
  · rw [run_check_of_not h]
    constructor
    · rintro ⟨⟩
    · exact fun h' => absurd h'.1 h

theorem run_bind_of_ok {x : EStateM ε σ α} {f : α → EStateM ε σ β} {s s' : σ} {a : α}
    (h : x.run s = .ok a s') : (x >>= f).run s = (f a).run s' := by
  rw [EStateM.run_bind, h]

theorem run_get_bind {f : σ → EStateM ε σ β} {s : σ} : (get >>= f).run s = (f s).run s := rfl

theorem run_modify_bind {f : σ → σ} {g : Unit → EStateM ε σ β} {s : σ} :
    (modify f >>= g).run s = (g ()).run (f s) := rfl

theorem run_bind_of_error {x : EStateM ε σ α} {f : α → EStateM ε σ β} {s s' : σ} {e : ε}
    (h : x.run s = .error e s') : (x >>= f).run s = .error e s' := by
  rw [EStateM.run_bind, h]

/-- A sequence returns exactly when its first part does and the rest returns from there. -/
theorem bind_ok_iff {x : EStateM ε σ α} {f : α → EStateM ε σ β} {s s'' : σ} {b : β} :
    (x >>= f).run s = .ok b s'' ↔ ∃ a s', x.run s = .ok a s' ∧ (f a).run s' = .ok b s'' := by
  rw [EStateM.run_bind]
  constructor
  · intro h
    cases hx : x.run s with
    | ok a s' => rw [hx] at h; exact ⟨a, s', rfl, h⟩
    | error e s' => rw [hx] at h; cases h
  · rintro ⟨a, s', hx, hf⟩
    rw [hx]
    exact hf

theorem pure_ok_iff {a b : α} {s s' : σ} :
    (pure a : EStateM ε σ α).run s = .ok b s' ↔ b = a ∧ s' = s := by
  constructor
  · rintro ⟨⟩
    exact ⟨rfl, rfl⟩
  · rintro ⟨rfl, rfl⟩
    rfl

theorem get_ok_iff {s a s' : σ} :
    (get : EStateM ε σ σ).run s = .ok a s' ↔ a = s ∧ s' = s := by
  constructor
  · rintro ⟨⟩
    exact ⟨rfl, rfl⟩
  · rintro ⟨rfl, rfl⟩
    rfl

theorem modify_ok_iff {f : σ → σ} {u : Unit} {s s' : σ} :
    (modify f : EStateM ε σ Unit).run s = .ok u s' ↔ s' = f s := by
  constructor
  · rintro ⟨⟩
    rfl
  · rintro rfl
    rfl

theorem throw_ok_iff {e : ε} {a : α} {s s' : σ} :
    (throw e : EStateM ε σ α).run s = .ok a s' ↔ False := by
  constructor
  · rintro ⟨⟩
  · exact False.elim

/-- A program that returns has passed its assertion. -/
theorem of_get_check_ok {e : ε} {P : σ → Prop} [∀ s, Decidable (P s)] {f : σ → EStateM ε σ β}
    {s s' : σ} {b : β}
    (h : (get >>= fun s => check e (P s) >>= fun _ => f s).run s = .ok b s') : P s := by
  obtain ⟨s₁, s₂, hget, hrest⟩ := bind_ok_iff.mp h
  obtain ⟨rfl, rfl⟩ := get_ok_iff.mp hget
  obtain ⟨u, s₃, hcheck, -⟩ := bind_ok_iff.mp hrest
  exact (check_ok_iff.mp hcheck).1

/-! ## Leaving by an exception -/

theorem check_error_iff {e e' : ε} {cond : Prop} [Decidable cond] {s s' : σ} :
    (check e cond).run s = .error e' s' ↔ ¬ cond ∧ e' = e ∧ s' = s := by
  by_cases h : cond
  · rw [run_check_of h]
    constructor
    · rintro ⟨⟩
    · exact fun h' => absurd h h'.1
  · rw [run_check_of_not h]
    constructor
    · rintro ⟨⟩
      exact ⟨h, rfl, rfl⟩
    · rintro ⟨-, rfl, rfl⟩
      rfl

/-- A sequence is left by an exception of its first part, or of the rest after the first part has
returned. -/
theorem bind_error_iff {x : EStateM ε σ α} {f : α → EStateM ε σ β} {s s'' : σ} {e : ε} :
    (x >>= f).run s = .error e s'' ↔
      x.run s = .error e s'' ∨ ∃ a s', x.run s = .ok a s' ∧ (f a).run s' = .error e s'' := by
  rw [EStateM.run_bind]
  cases hx : x.run s with
  | ok a s' =>
    constructor
    · intro h
      exact .inr ⟨a, s', rfl, h⟩
    · rintro (h | ⟨_, _, h, hf⟩)
      · cases h
      · cases h
        exact hf
  | error e' s' =>
    constructor
    · intro h
      cases h
      exact .inl rfl
    · rintro (h | ⟨_, _, h, -⟩)
      · cases h
        rfl
      · cases h

theorem exists_error {x : EStateM ε σ α} {s : σ} (h : ∀ a s', x.run s ≠ .ok a s') :
    ∃ e s', x.run s = .error e s' := by
  cases hx : x.run s with
  | ok a s' => exact absurd hx (h a s')
  | error e s' => exact ⟨e, s', rfl⟩

/-- A program of which only that it returned is reported. -/
theorem report_ok_iff {x : EStateM ε σ α} {a b : β} {s s' : σ} :
    (x >>= fun _ => pure a).run s = .ok b s' ↔ b = a ∧ ∃ u, x.run s = .ok u s' := by
  rw [bind_ok_iff]
  constructor
  · rintro ⟨u, s₁, hx, hpure⟩
    obtain ⟨rfl, rfl⟩ := pure_ok_iff.mp hpure
    exact ⟨rfl, u, hx⟩
  · rintro ⟨rfl, u, hx⟩
    exact ⟨u, s', hx, rfl⟩

theorem report_error_iff {x : EStateM ε σ α} {b : β} {s s' : σ} {e : ε} :
    (x >>= fun _ => pure b).run s = .error e s' ↔ x.run s = .error e s' := by
  rw [bind_error_iff]
  constructor
  · rintro (hx | ⟨_, _, -, hpure⟩)
    · exact hx
    · cases hpure
  · exact .inl

/-! ## Effects -/

/-- Run on `s`, the program changes the object as `R` says if it returns, and as `E` says if it is
left by an exception. -/
structure Effect (R : σ → σ → Prop) (E : ε → σ → Prop) (s : σ) (m : EStateM ε σ α) : Prop where
  returns : ∀ {a s'}, m.run s = .ok a s' → R s s'
  leaves : ∀ {e s'}, m.run s = .error e s' → E e s'

variable {R : σ → σ → Prop} {E : ε → σ → Prop} {s : σ}

theorem Effect.imp {R' : σ → σ → Prop} {E' : ε → σ → Prop} {m : EStateM ε σ α}
    (h : Effect R E s m) (hR : ∀ s', R s s' → R' s s') (hE : ∀ e s', E e s' → E' e s') :
    Effect R' E' s m where
  returns hrun := hR _ (h.returns hrun)
  leaves hrun := hE _ _ (h.leaves hrun)

theorem effect_pure (hrefl : R s s) (a : α) : Effect R E s (pure a : EStateM ε σ α) where
  returns h := by
    obtain ⟨-, rfl⟩ := pure_ok_iff.mp h
    exact hrefl
  leaves h := by cases h

theorem effect_check (hrefl : R s s) {e : ε} (he : E e s) {cond : Prop} [Decidable cond] :
    Effect R E s (check e cond) where
  returns h := by
    obtain ⟨-, rfl⟩ := check_ok_iff.mp h
    exact hrefl
  leaves h := by
    obtain ⟨-, rfl, rfl⟩ := check_error_iff.mp h
    exact he

theorem effect_throw {e : ε} (he : E e s) : Effect R E s (throw e : EStateM ε σ α) where
  returns h := by cases h
  leaves h := by
    cases h
    exact he

theorem effect_set {s' : σ} (h : R s s') : Effect R E s (set s' : EStateM ε σ Unit) where
  returns hrun := by
    cases hrun
    exact h
  leaves hrun := by cases hrun

theorem effect_modify {f : σ → σ} (h : R s (f s)) :
    Effect R E s (modify f : EStateM ε σ Unit) where
  returns hrun := by
    obtain rfl := modify_ok_iff.mp hrun
    exact h
  leaves hrun := by cases hrun

/-- A program that looks at its object first. -/
theorem effect_get_bind {f : σ → EStateM ε σ β} (h : Effect R E s (f s)) :
    Effect R E s (get >>= f) where
  returns hrun := h.returns hrun
  leaves hrun := h.leaves hrun

/-- One program after the other. -/
theorem effect_bind (htrans : ∀ s₁ s₂ s₃, R s₁ s₂ → R s₂ s₃ → R s₁ s₃) {m : EStateM ε σ α}
    {f : α → EStateM ε σ β} (hm : Effect R E s m) (hf : ∀ a s', R s s' → Effect R E s' (f a)) :
    Effect R E s (m >>= f) where
  returns h := by
    obtain ⟨a, s', hfirst, hrest⟩ := bind_ok_iff.mp h
    have hchange := hm.returns hfirst
    exact htrans _ _ _ hchange ((hf a s' hchange).returns hrest)
  leaves h := by
    rcases bind_error_iff.mp h with h | ⟨a, s', hfirst, hrest⟩
    · exact hm.leaves h
    · exact (hf a s' (hm.returns hfirst)).leaves hrest

/-- An assertion leaves the object as it is. -/
theorem effect_check_bind {e : ε} (he : E e s) {cond : Prop} [Decidable cond]
    {f : Unit → EStateM ε σ β} (hf : cond → Effect R E s (f ())) :
    Effect R E s (check e cond >>= f) where
  returns h := by
    obtain ⟨a, s', hcheck, hrest⟩ := bind_ok_iff.mp h
    obtain ⟨hcond, rfl⟩ := check_ok_iff.mp hcheck
    exact (hf hcond).returns hrest
  leaves h := by
    rcases bind_error_iff.mp h with h | ⟨a, s', hcheck, hrest⟩
    · obtain ⟨-, rfl, rfl⟩ := check_error_iff.mp h
      exact he
    · obtain ⟨hcond, rfl⟩ := check_ok_iff.mp hcheck
      exact (hf hcond).leaves hrest

theorem effect_ite {cond : Prop} [Decidable cond] {m₁ m₂ : EStateM ε σ α}
    (h₁ : cond → Effect R E s m₁) (h₂ : ¬ cond → Effect R E s m₂) :
    Effect R E s (if cond then m₁ else m₂) := by
  by_cases h : cond
  · rw [if_pos h]
    exact h₁ h
  · rw [if_neg h]
    exact h₂ h

end TurboNet.Lib
