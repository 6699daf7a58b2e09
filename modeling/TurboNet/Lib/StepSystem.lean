/-
# TurboNet.Lib.StepSystem — finite runs of a deterministic, partial step function.

A system is a function `step : σ → α → Option σ`: the label `a` names which party moves and how
its environment behaves, and `step s a = none` means that `a` cannot happen in `s`.  All
nondeterminism (interleaving, time-outs, what the kernel answers) sits in the schedule, the list of
labels, so a run is executable and a theorem about every run quantifies over every schedule.

The module has the rules a development needs about such runs, and nothing about any one system:

* an invariant kept by one step is kept by a run (`exec_invariant`), also when every step is only
  assumed to meet a condition on the state before it (`Along`, `exec_invariant_along`);
* the same for a relation between a state and the schedule that led to it (`exec_history`);
* a run that ends in a set of states has a step at which it entered it for good (`exists_entry`);
* a number that grows by one with every step of a kind counts these steps (`exec_tally`);
* a run with enough steps of a kind gets to each of them (`exists_occurrence`);
* a step that is always enabled gives a run that never gets stuck (`exec_progress`);
* a step that lowers a measure, where there is one, gives a run that comes to its end (`exec_drain`).

`Trace` is the relational counterpart, for an abstract component that is not a function.
-/
import Mathlib.Data.List.Basic
import Mathlib.Data.List.Induction

namespace TurboNet.Lib

/-- A labelled step system whose steps are partial functions. -/
structure StepSystem (σ : Type*) (α : Type*) where
  step : σ → α → Option σ

namespace StepSystem

variable {σ α : Type*} (T : StepSystem σ α)

/-- The state the schedule `as` leads to, or `none` when some step of it cannot happen. -/
def exec : σ → List α → Option σ
  | s, [] => some s
  | s, a :: as => (T.step s a).bind fun s' => exec s' as

/-- `s` is reached from `s₀` by some schedule. -/
def Reachable (s₀ s : σ) : Prop := ∃ as, T.exec s₀ as = some s

/-- Every step of the run of `as` from `s` meets `C`, a condition on the state before the step and
its label. -/
def Along (C : σ → α → Prop) : σ → List α → Prop
  | _, [] => True
  | s, a :: as => C s a ∧ ∀ s', T.step s a = some s' → Along C s' as

/-- A condition that can be checked at each state can be checked along a run. -/
instance decidableAlong (C : σ → α → Prop) [∀ s a, Decidable (C s a)] :
    (s : σ) → (as : List α) → Decidable (T.Along C s as)
  | _, [] => .isTrue trivial
  | s, a :: as =>
    match h : T.step s a with
    | none => decidable_of_iff (C s a) ⟨fun hC => ⟨hC, by simp [h]⟩, And.left⟩
    | some s' =>
      have := decidableAlong C s' as
      decidable_of_iff (C s a ∧ T.Along C s' as) (and_congr_right' (by simp [h]))

variable {T}

@[simp] theorem exec_nil (s : σ) : T.exec s [] = some s := rfl

@[simp] theorem along_nil {C : σ → α → Prop} (s : σ) : T.Along C s [] := trivial

theorem exec_cons {s s'' : σ} {a : α} {as : List α} :
    T.exec s (a :: as) = some s'' ↔ ∃ s', T.step s a = some s' ∧ T.exec s' as = some s'' := by
  simp only [exec, Option.bind_eq_some_iff]

theorem exec_append {s s'' : σ} {as bs : List α} :
    T.exec s (as ++ bs) = some s'' ↔ ∃ s', T.exec s as = some s' ∧ T.exec s' bs = some s'' := by
  induction as generalizing s with
  | nil => simp
  | cons a as ih =>
    rw [List.cons_append, exec_cons]
    constructor
    · rintro ⟨s₁, h₁, h⟩
      obtain ⟨s', h₂, h₃⟩ := ih.mp h
      exact ⟨s', exec_cons.mpr ⟨s₁, h₁, h₂⟩, h₃⟩
    · rintro ⟨s', h, h₃⟩
      obtain ⟨s₁, h₁, h₂⟩ := exec_cons.mp h
      exact ⟨s₁, h₁, ih.mpr ⟨s', h₂, h₃⟩⟩

theorem exec_concat {s s'' : σ} {a : α} {as : List α} :
    T.exec s (as ++ [a]) = some s'' ↔ ∃ s', T.exec s as = some s' ∧ T.step s' a = some s'' := by
  simp only [exec_append, exec_cons, exec_nil, Option.some.injEq]
  constructor
  · rintro ⟨s', h, _, h', rfl⟩
    exact ⟨s', h, h'⟩
  · rintro ⟨s', h, h'⟩
    exact ⟨s', h, s'', h', rfl⟩

theorem along_append_left {C : σ → α → Prop} {s : σ} {as bs : List α}
    (h : T.Along C s (as ++ bs)) : T.Along C s as := by
  induction as generalizing s with
  | nil => trivial
  | cons a as ih => exact ⟨h.1, fun s' hs' => ih (h.2 s' hs')⟩

theorem along_append {C : σ → α → Prop} {s s' : σ} {as bs : List α}
    (h : T.Along C s (as ++ bs)) (hrun : T.exec s as = some s') :
    T.Along C s as ∧ T.Along C s' bs := by
  refine ⟨along_append_left h, ?_⟩
  induction as generalizing s with
  | nil =>
    obtain rfl : s = s' := by simpa using hrun
    exact h
  | cons a as ih =>
    obtain ⟨s₁, h₁, h₂⟩ := exec_cons.mp hrun
    exact ih (h.2 s₁ h₁) h₂

/-- Two conditions met along a run are met together. -/
theorem along_and {C D : σ → α → Prop} {s : σ} {as : List α} (hC : T.Along C s as)
    (hD : T.Along D s as) : T.Along (fun s a => C s a ∧ D s a) s as := by
  induction as generalizing s with
  | nil => trivial
  | cons a as ih => exact ⟨⟨hC.1, hD.1⟩, fun s' hs' => ih (hC.2 s' hs') (hD.2 s' hs')⟩

theorem along_of_forall {C : σ → α → Prop} (hC : ∀ s a, C s a) (s : σ) (as : List α) :
    T.Along C s as := by
  induction as generalizing s with
  | nil => trivial
  | cons a as ih => exact ⟨hC s a, fun s' _ => ih s'⟩

/-- A condition on labels that all labels of a schedule meet. -/
theorem along_of_mem {C : α → Prop} {as : List α} (hC : ∀ a ∈ as, C a) (s : σ) :
    T.Along (fun _ a => C a) s as := by
  induction as generalizing s with
  | nil => trivial
  | cons a as ih =>
    refine ⟨hC a (List.mem_cons_self ..), fun s' _ => ?_⟩
    exact ih (fun b hb => hC b (List.mem_cons_of_mem a hb)) s'

/-- A schedule that does not meet `C` throughout runs up to a step that does not meet it. -/
theorem exists_before_not_along {C : σ → α → Prop} {s : σ} {as : List α} (hC : ¬ T.Along C s as) :
    ∃ bs a cs s₁, as = bs ++ a :: cs ∧ T.exec s bs = some s₁ ∧ T.Along C s bs ∧ ¬ C s₁ a := by
  induction as generalizing s with
  | nil => exact absurd trivial hC
  | cons a as ih =>
    by_cases hhere : C s a
    · have hlater : ∃ s', T.step s a = some s' ∧ ¬ T.Along C s' as := by
        by_contra hall
        exact hC ⟨hhere, fun s' hs' => by_contra fun hnot => hall ⟨s', hs', hnot⟩⟩
      obtain ⟨s', hstep, hlater⟩ := hlater
      obtain ⟨bs, b, cs, s₁, rfl, hbefore, halong, hnot⟩ := ih hlater
      refine ⟨a :: bs, b, cs, s₁, rfl, exec_cons.mpr ⟨s', hstep, hbefore⟩, ⟨hhere, ?_⟩, hnot⟩
      intro s₂ hs₂
      obtain rfl : s' = s₂ := Option.some.inj (hstep.symm.trans hs₂)
      exact halong
    · exact ⟨[], a, as, s, rfl, rfl, trivial, hhere⟩

/-- A run that does not meet `C` throughout has a first step that does not meet it. -/
theorem exists_of_not_along {C : σ → α → Prop} {s t : σ} {as : List α} (hC : ¬ T.Along C s as)
    (hrun : T.exec s as = some t) :
    ∃ bs a cs s₁ s₂, as = bs ++ a :: cs ∧ T.exec s bs = some s₁ ∧ ¬ C s₁ a ∧
      T.step s₁ a = some s₂ ∧ T.exec s₂ cs = some t := by
  obtain ⟨bs, a, cs, s₁, rfl, hbefore, -, hnot⟩ := exists_before_not_along hC
  obtain ⟨s', hprefix, hrest⟩ := exec_append.mp hrun
  obtain rfl : s₁ = s' := Option.some.inj (hbefore.symm.trans hprefix)
  obtain ⟨s₂, hstep, hafter⟩ := exec_cons.mp hrest
  exact ⟨bs, a, cs, s₁, s₂, rfl, hbefore, hnot, hstep, hafter⟩

/-! ## Invariants -/

/-- **Conditional invariant rule.** What every step meeting `C` keeps, every run whose steps all
meet `C` keeps. -/
theorem exec_invariant_along {C : σ → α → Prop} {I : σ → Prop}
    (hstep : ∀ s a s', I s → C s a → T.step s a = some s' → I s')
    {s s' : σ} {as : List α} (hI : I s) (hC : T.Along C s as) (hrun : T.exec s as = some s') :
    I s' := by
  induction as generalizing s with
  | nil =>
    obtain rfl : s = s' := by simpa using hrun
    exact hI
  | cons a as ih =>
    obtain ⟨s₁, h₁, h₂⟩ := exec_cons.mp hrun
    exact ih (hstep s a s₁ hI hC.1 h₁) (hC.2 s₁ h₁) h₂

/-- **Invariant rule.** What every step keeps, every run keeps. -/
theorem exec_invariant {I : σ → Prop} (hstep : ∀ s a s', I s → T.step s a = some s' → I s')
    {s s' : σ} {as : List α} (hI : I s) (hrun : T.exec s as = some s') : I s' :=
  exec_invariant_along (C := fun _ _ => True) (fun s a s' hs _ => hstep s a s' hs) hI
    (along_of_forall (fun _ _ => trivial) s as) hrun

/-- **History rule.** A relation between the schedule so far and the state it led to. -/
theorem exec_history {I : List α → σ → Prop}
    (hstep : ∀ h s a s', I h s → T.step s a = some s' → I (h ++ [a]) s')
    {s s' : σ} {as : List α} (hI : I [] s) (hrun : T.exec s as = some s') : I as s' := by
  suffices ∀ h, I h s → I (h ++ as) s' by simpa using this [] hI
  clear hI
  induction as generalizing s with
  | nil =>
    obtain rfl : s = s' := by simpa using hrun
    simp
  | cons a as ih =>
    intro h hI
    obtain ⟨s₁, h₁, h₂⟩ := exec_cons.mp hrun
    simpa using ih h₂ (h ++ [a]) (hstep h s a s₁ hI h₁)

/-- `P` holds in every state of the run of `as` from `s`. -/
def Throughout (T : StepSystem σ α) (P : σ → Prop) (s : σ) (as : List α) : Prop :=
  ∀ bs cs t, as = bs ++ cs → T.exec s bs = some t → P t

theorem throughout_nil {P : σ → Prop} {s : σ} : T.Throughout P s [] ↔ P s := by
  constructor
  · exact fun h => h [] [] s rfl rfl
  · rintro hP bs cs t hsplit ht
    obtain rfl : bs = [] := (List.append_eq_nil_iff.mp hsplit.symm).1
    exact Option.some.inj ht ▸ hP

theorem throughout_cons {P : σ → Prop} {s : σ} {a : α} {as : List α} :
    T.Throughout P s (a :: as) ↔ P s ∧ ∀ s', T.step s a = some s' → T.Throughout P s' as := by
  constructor
  · intro h
    refine ⟨h [] (a :: as) s rfl rfl, fun s' hstep bs cs t hsplit ht => ?_⟩
    exact h (a :: bs) cs t (by rw [hsplit]; rfl) (exec_cons.mpr ⟨s', hstep, ht⟩)
  · rintro ⟨hP, hrest⟩ bs cs t hsplit ht
    cases bs with
    | nil => exact Option.some.inj ht ▸ hP
    | cons b bs =>
      obtain ⟨rfl, htail⟩ := List.cons.inj hsplit
      obtain ⟨s', hstep, ht⟩ := exec_cons.mp ht
      exact hrest s' hstep bs cs t htail ht

theorem throughout_concat {P : σ → Prop} {s t : σ} {as : List α} {a : α}
    (h : T.Throughout P s as) (ht : T.exec s (as ++ [a]) = some t) (hP : P t) :
    T.Throughout P s (as ++ [a]) := by
  intro bs cs u hsplit hu
  rcases List.eq_nil_or_concat cs with rfl | ⟨cs, b, rfl⟩
  · rw [List.append_nil] at hsplit
    rw [← hsplit, ht] at hu
    exact Option.some.inj hu ▸ hP
  · rw [List.concat_eq_append, ← List.append_assoc] at hsplit
    exact h bs cs u (List.append_inj_left' hsplit rfl) hu

/-- **Entry rule.** A run that ends in `P`, and does not start there, has entered it for good at
some step. -/
theorem exists_entry {P : σ → Prop} {s t : σ} {as : List α} (hs : ¬ P s) (ht : P t)
    (hrun : T.exec s as = some t) :
    ∃ bs a cs s₁ s₂, as = bs ++ a :: cs ∧ T.exec s bs = some s₁ ∧ ¬ P s₁ ∧
      T.step s₁ a = some s₂ ∧ T.Throughout P s₂ cs ∧ T.exec s₂ cs = some t := by
  induction as using List.reverseRecOn generalizing t with
  | nil =>
    obtain rfl : s = t := by simpa using hrun
    exact absurd ht hs
  | append_singleton as a ih =>
    obtain ⟨s', hbefore, hstep⟩ := exec_concat.mp hrun
    by_cases hs' : P s'
    · obtain ⟨bs, b, cs, s₁, s₂, rfl, hprefix, hnot, hb, hthroughout, hrest⟩ := ih hs' hbefore
      have hlast : T.exec s₂ (cs ++ [a]) = some t := exec_concat.mpr ⟨s', hrest, hstep⟩
      refine ⟨bs, b, cs ++ [a], s₁, s₂, ?_, hprefix, hnot, hb, ?_, hlast⟩
      · rw [List.append_assoc, List.cons_append]
      · exact throughout_concat hthroughout hlast ht
    · exact ⟨as, a, [], s', t, rfl, hbefore, hs', hstep, throughout_nil.mpr ht, rfl⟩

/-- **Exact condition rule.** If, beside an invariant `J` of all steps, those steps keep `P` that meet
`C`, then a run has `P` throughout exactly when all its steps meet `C`. -/
theorem throughout_iff_along {C : σ → α → Prop} {J P : σ → Prop}
    (hinv : ∀ s a s', J s → T.step s a = some s' → J s')
    (hkeep : ∀ s a s', J s → P s → C s a → T.step s a = some s' → P s')
    (hbreak : ∀ s a s', J s → P s → T.step s a = some s' → P s' → C s a)
    {s t : σ} {as : List α} (hJ : J s) (hP : P s) (hrun : T.exec s as = some t) :
    T.Throughout P s as ↔ T.Along C s as := by
  constructor
  · intro hthroughout
    by_contra hcond
    obtain ⟨bs, a, cs, s₁, s₂, hsplit, hbefore, hnot, hstep, -⟩ := exists_of_not_along hcond hrun
    have hJ₁ : J s₁ := exec_invariant hinv hJ hbefore
    have hP₁ : P s₁ := hthroughout bs (a :: cs) s₁ hsplit hbefore
    have hP₂ : P s₂ := by
      refine hthroughout (bs ++ [a]) cs s₂ ?_ (exec_concat.mpr ⟨s₁, hbefore, hstep⟩)
      rw [hsplit, List.append_assoc]
      rfl
    exact hnot (hbreak s₁ a s₂ hJ₁ hP₁ hstep hP₂)
  · rintro hcond bs cs t rfl ht
    have hboth : J t ∧ P t :=
      exec_invariant_along (I := fun s => J s ∧ P s)
        (fun s a s' h hC hstep => ⟨hinv s a s' h.1 hstep, hkeep s a s' h.1 h.2 hC hstep⟩)
        ⟨hJ, hP⟩ (along_append hcond ht).1 ht
    exact hboth.2

/-- How many steps of the run of `as` from `s` are of the kind `p`. -/
def tally (p : σ → σ → Prop) [∀ s s', Decidable (p s s')] : σ → List α → Nat
  | _, [] => 0
  | s, a :: as =>
    match T.step s a with
    | none => 0
    | some s' => (if p s s' then 1 else 0) + tally p s' as

/-- **Counting rule.** -/
theorem exec_tally {p : σ → σ → Prop} [∀ s s', Decidable (p s s')] {I : σ → Prop} {f : σ → Nat}
    (hI : ∀ s a s', I s → T.step s a = some s' → I s')
    (hstep : ∀ s a s', I s → T.step s a = some s' → f s' = f s + if p s s' then 1 else 0)
    {s s' : σ} {as : List α} (hs : I s) (hrun : T.exec s as = some s') :
    f s' = f s + T.tally p s as := by
  induction as generalizing s with
  | nil =>
    obtain rfl : s = s' := by simpa using hrun
    rfl
  | cons a as ih =>
    obtain ⟨s₁, h₁, h₂⟩ := exec_cons.mp hrun
    rw [ih (hI s a s₁ hs h₁) h₂, hstep s a s₁ hs h₁]
    simp only [tally, h₁]
    omega

/-! ## Occurrences -/

/-- How many steps of the run of `as` from `s` are of the kind `p`, a condition on the state before
the step and its label.  The step the run gets stuck at is one of them. -/
def occurrences (T : StepSystem σ α) (p : σ → α → Prop) [∀ s a, Decidable (p s a)] :
    σ → List α → Nat
  | _, [] => 0
  | s, a :: as =>
    (if p s a then 1 else 0) +
      match T.step s a with
      | none => 0
      | some s' => occurrences T p s' as

section Occurrences

variable {p : σ → α → Prop} [∀ s a, Decidable (p s a)]

@[simp] theorem occurrences_nil (s : σ) : T.occurrences p s [] = 0 := rfl

theorem occurrences_cons {s s' : σ} {a : α} (h : T.step s a = some s') (as : List α) :
    T.occurrences p s (a :: as) = (if p s a then 1 else 0) + T.occurrences p s' as := by
  simp only [occurrences, h]

theorem occurrences_append {s s' : σ} {as : List α} (h : T.exec s as = some s') (bs : List α) :
    T.occurrences p s (as ++ bs) = T.occurrences p s as + T.occurrences p s' bs := by
  induction as generalizing s with
  | nil =>
    obtain rfl : s = s' := by simpa using h
    simp
  | cons a as ih =>
    obtain ⟨s₁, h₁, h₂⟩ := exec_cons.mp h
    rw [List.cons_append, occurrences_cons h₁, occurrences_cons h₁, ih h₂, Nat.add_assoc]

theorem occurrences_lt {s s₁ : σ} {bs : List α} {a : α} (h : T.exec s bs = some s₁) (ha : p s₁ a)
    (cs : List α) : T.occurrences p s bs < T.occurrences p s (bs ++ a :: cs) := by
  rw [occurrences_append h]
  simp only [occurrences, if_pos ha]
  omega

/-- The run gets to its `k`-th step of the kind. -/
theorem exists_occurrence {k : Nat} {s : σ} {as : List α} (h : k < T.occurrences p s as) :
    ∃ bs a cs s₁, as = bs ++ a :: cs ∧ T.exec s bs = some s₁ ∧ p s₁ a ∧
      T.occurrences p s bs = k := by
  induction as generalizing s k with
  | nil => simp at h
  | cons a as ih =>
    by_cases hhere : p s a ∧ k = 0
    · exact ⟨[], a, as, s, rfl, rfl, hhere.1, hhere.2.symm⟩
    · have hone : (if p s a then 1 else 0) ≤ k := by
        split
        · rename_i hp
          exact Nat.pos_of_ne_zero fun hk => hhere ⟨hp, hk⟩
        · exact Nat.zero_le k
      cases hstep : T.step s a with
      | none =>
        simp only [occurrences, hstep] at h
        exact absurd h (Nat.not_lt_of_le hone)
      | some s' =>
        rw [occurrences_cons hstep] at h
        have hlater : k - (if p s a then 1 else 0) < T.occurrences p s' as :=
          Nat.sub_lt_left_of_lt_add hone h
        obtain ⟨bs, b, cs, s₁, rfl, hbefore, hb, hcount⟩ := ih hlater
        refine ⟨a :: bs, b, cs, s₁, rfl, exec_cons.mpr ⟨s', hstep, hbefore⟩, hb, ?_⟩
        rw [occurrences_cons hstep, hcount]
        exact Nat.add_sub_cancel' hone

end Occurrences

/-- **Progress rule.** If every step that meets `C` is enabled in the states of the invariant and
keeps it, then a schedule all of whose steps meet `C` runs to its end. -/
theorem exec_progress {C : σ → α → Prop} {I : σ → Prop}
    (hstep : ∀ s a, I s → C s a → ∃ s', T.step s a = some s' ∧ I s')
    {s : σ} {as : List α} (hI : I s) (hC : T.Along C s as) :
    ∃ s', T.exec s as = some s' ∧ I s' := by
  induction as generalizing s with
  | nil => exact ⟨s, rfl, hI⟩
  | cons a as ih =>
    obtain ⟨s₁, h₁, hI₁⟩ := hstep s a hI hC.1
    obtain ⟨s', h', hI'⟩ := ih hI₁ (hC.2 s₁ h₁)
    exact ⟨s', exec_cons.mpr ⟨s₁, h₁, h'⟩, hI'⟩

/-- **Drain rule.** If in every state of the invariant that is not done some step that meets `C`
lowers the measure, then such steps lead to a state that is done. -/
theorem exec_drain {C : α → Prop} {I done : σ → Prop} {f : σ → Nat}
    (hstep : ∀ s, I s → ¬ done s → ∃ a s', C a ∧ T.step s a = some s' ∧ I s' ∧ f s' < f s)
    {s : σ} (hI : I s) : ∃ as s', (∀ a ∈ as, C a) ∧ T.exec s as = some s' ∧ I s' ∧ done s' := by
  induction hn : f s using Nat.strongRecOn generalizing s with
  | ind n ih =>
    by_cases hdone : done s
    · exact ⟨[], s, fun a ha => absurd ha List.not_mem_nil, rfl, hI, hdone⟩
    · obtain ⟨a, s₁, ha, h₁, hI₁, hlt⟩ := hstep s hI hdone
      obtain ⟨as, s', has, hrun, hI', hdone'⟩ := ih (f s₁) (hn ▸ hlt) hI₁ rfl
      refine ⟨a :: as, s', fun b hb => ?_, exec_cons.mpr ⟨s₁, h₁, hrun⟩, hI', hdone'⟩
      rcases List.mem_cons.mp hb with rfl | hb
      · exact ha
      · exact has b hb

/-- **Exchange rule.** Two conditions that say the same in the states of an invariant say the same
along a run, if the steps that meet them keep the invariant. -/
theorem along_iff_along {C D : σ → α → Prop} {I : σ → Prop}
    (hiff : ∀ s a, I s → (C s a ↔ D s a))
    (hstep : ∀ s a s', I s → D s a → T.step s a = some s' → I s')
    {s : σ} {as : List α} (hI : I s) : T.Along C s as ↔ T.Along D s as := by
  induction as generalizing s with
  | nil => exact Iff.rfl
  | cons a as ih =>
    constructor
    · rintro ⟨hC, hrest⟩
      have hD := (hiff s a hI).mp hC
      exact ⟨hD, fun s' h => (ih (hstep s a s' hI hD h)).mp (hrest s' h)⟩
    · rintro ⟨hD, hrest⟩
      exact ⟨(hiff s a hI).mpr hD, fun s' h => (ih (hstep s a s' hI hD h)).mpr (hrest s' h)⟩

end StepSystem

/-- A finite trace of a labelled transition relation. -/
inductive Trace {τ β : Type*} (step : τ → β → τ → Prop) : τ → List β → τ → Prop
  | nil (t : τ) : Trace step t [] t
  | concat {t t' t'' : τ} {bs : List β} {b : β} :
      Trace step t bs t' → step t' b t'' → Trace step t (bs ++ [b]) t''

end TurboNet.Lib
