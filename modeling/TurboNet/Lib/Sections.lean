/-
# TurboNet.Lib.Sections — calls of many threads whose bodies run under one mutex.

`Code` is a program cut at its accesses to a shared object: each access finds the object, changes it,
and the program goes on in a way that may depend on what it found.  Run without interruption
(`Code.whole`) it is a program on the object.

In `sections` any number of threads make calls, and their steps interleave: a thread takes the mutex,
makes the accesses of its call's body one at a time, and gives the mutex up.  Nothing keeps two threads
from accessing the object at once except the mutex.  The calls are nevertheless **serial**: the object
is what the calls make of it, each run whole, in the order in which they took the mutex (`Serial`).
-/
import Mathlib.Logic.Function.Basic
import TurboNet.Lib.Program
import TurboNet.Lib.StepSystem

namespace TurboNet.Lib

variable {ε σ κ τ α β : Type}

/-! ## Code, access by access -/

/-- A program as a tree of accesses: what the access makes of the object, and how the program goes on
from what the access found. -/
inductive Code (ε σ α : Type) where
  | done (a : α)
  | fail (e : ε)
  | access (change : σ → σ) (next : σ → Code ε σ α)

namespace Code

def bind : Code ε σ α → (α → Code ε σ β) → Code ε σ β
  | .done a, f => f a
  | .fail e, _ => .fail e
  | .access change next, f => .access change fun s => (next s).bind f

instance : Monad (Code ε σ) where
  pure := .done
  bind := .bind

/-- One access that reads the object. -/
def read : Code ε σ σ := .access id .done

/-- One access that changes the object. -/
def assign (f : σ → σ) : Code ε σ Unit := .access f fun _ => .done ()

/-- The program run without interruption. -/
def whole : Code ε σ α → EStateM ε σ α
  | .done a => pure a
  | .fail e => throw e
  | .access change next => fun s => (next s).whole (change s)

@[simp] theorem whole_pure (a : α) : (pure a : Code ε σ α).whole = pure a := rfl

@[simp] theorem whole_fail (e : ε) : (.fail e : Code ε σ α).whole = throw e := rfl

theorem run_whole_access (change : σ → σ) (next : σ → Code ε σ α) (s : σ) :
    (Code.access change next).whole.run s = (next s).whole.run (change s) := rfl

/-- A sequence of programs is run whole when both its parts are. -/
@[simp] theorem whole_bind (c : Code ε σ α) (f : α → Code ε σ β) :
    (c >>= f).whole = c.whole >>= fun a => (f a).whole := by
  induction c with
  | done a => rfl
  | fail e => rfl
  | access change next ih =>
    funext s
    show (next s >>= f).whole (change s) = _
    rw [ih s]
    rfl

@[simp] theorem whole_read : (read : Code ε σ σ).whole = get := rfl

@[simp] theorem whole_assign (f : σ → σ) : (assign f : Code ε σ Unit).whole = modify f := rfl

@[simp] theorem whole_ite {cond : Prop} [Decidable cond] (c d : Code ε σ α) :
    (if cond then c else d).whole = if cond then c.whole else d.whole := by
  split
  · rfl
  · rfl

end Code

/-! ## Threads and their sections -/

/-- How far a thread has come with a call. -/
inductive Sections.Place (ε σ κ : Type) where
  | outside
  /-- The call has not taken the mutex yet. -/
  | waiting (call : κ)
  /-- The call has the mutex, and `rest` of its body is still to be run. -/
  | inside (call : κ) (rest : Code ε σ Unit)

/-- The object, the mutex, the threads, and the calls that took the mutex, in that order. -/
structure Sections (ε σ κ τ : Type) where
  object : σ
  owner : Option τ
  place : τ → Sections.Place ε σ κ
  order : List (τ × κ)

namespace Sections

/-- No call has been made. -/
def init (object : σ) : Sections ε σ κ τ where
  object := object
  owner := none
  place := fun _ => .outside
  order := []

/-- A step of a thread. -/
inductive Move (κ τ : Type) where
  | invoke (t : τ) (call : κ)
  | lock (t : τ)
  | access (t : τ)
  | unlock (t : τ)

/-- The call a thread waits with. -/
def Place.pending : Place ε σ κ → List κ
  | .waiting call => [call]
  | _ => []

/-- The call a thread makes by a step. -/
def Move.invokedBy [DecidableEq τ] (t : τ) : Move κ τ → List κ
  | .invoke u call => if u = t then [call] else []
  | _ => []

/-- The calls of a thread in a list of calls. -/
def ofThread [DecidableEq τ] (t : τ) (calls : List (τ × κ)) : List κ :=
  (calls.filter fun c => c.1 = t).map Prod.snd

end Sections

open Sections

variable {body : κ → Code ε σ Unit} {plain : StepSystem σ κ} {s₀ : σ} {s s' : Sections ε σ κ τ}

/-! ## Serial runs -/

/-- The bodies, each run whole, are the steps of `plain`. -/
def Implements (body : κ → Code ε σ Unit) (plain : StepSystem σ κ) : Prop :=
  ∀ s call s', plain.step s call = some s' ↔ (body call).whole.run s = .ok () s'

/-- The thread is in its section. -/
def Sections.Inside (s : Sections ε σ κ τ) (t : τ) : Prop :=
  ∃ call rest, s.place t = .inside call rest

/-- The last call that took the mutex is `t`'s, `t` alone is in its section, and what is left of the
body makes of the object what the whole body makes of what the earlier calls left. -/
structure HeldBy (body : κ → Code ε σ Unit) (plain : StepSystem σ κ) (s₀ : σ)
    (s : Sections ε σ κ τ) (t : τ) : Prop where
  alone : ∀ u, s.Inside u → u = t
  section_ : ∃ before call rest base, s.order = before ++ [(t, call)] ∧
    s.place t = .inside call rest ∧ plain.exec s₀ (before.map Prod.snd) = some base ∧
      (body call).whole.run base = rest.whole.run s.object

/-- While nobody has the mutex the calls so far were run whole, in the order in which they took it. -/
structure Serial (body : κ → Code ε σ Unit) (plain : StepSystem σ κ) (s₀ : σ)
    (s : Sections ε σ κ τ) : Prop where
  free : s.owner = none →
    (∀ t, ¬ s.Inside t) ∧ plain.exec s₀ (s.order.map Prod.snd) = some s.object
  held : ∀ t, s.owner = some t → HeldBy body plain s₀ s t

theorem serial_init (s₀ : σ) :
    Serial body plain s₀ (Sections.init s₀ : Sections ε σ κ τ) where
  free := by
    rintro -
    refine ⟨?_, rfl⟩
    rintro t ⟨call, rest, hplace⟩
    cases hplace
  held := by
    rintro t ⟨⟩

theorem Sections.inside_of_place {t : τ} {call : κ} {rest : Code ε σ Unit}
    (h : s.place t = .inside call rest) : s.Inside t := ⟨call, rest, h⟩

/-- A thread in its section has the mutex. -/
theorem Serial.owner_of_inside (h : Serial body plain s₀ s) {t : τ} (ht : s.Inside t) :
    s.owner = some t := by
  cases howner : s.owner with
  | none => exact absurd ht ((h.free howner).1 t)
  | some u => rw [(h.held u howner).alone t ht]

/-- No two threads are in their sections. -/
theorem Serial.exclusive (h : Serial body plain s₀ s) {t u : τ} (ht : s.Inside t)
    (hu : s.Inside u) : t = u :=
  Option.some.inj ((h.owner_of_inside ht).symm.trans (h.owner_of_inside hu))

/-! ## The steps -/

variable [DecidableEq τ]

/-- The steps of the threads, each call with its body under the mutex. -/
def sections (body : κ → Code ε σ Unit) : StepSystem (Sections ε σ κ τ) (Move κ τ) where
  step s move :=
    match move with
    | .invoke t call =>
      match s.place t with
      | .outside => some { s with place := Function.update s.place t (.waiting call) }
      | _ => none
    | .lock t =>
      match s.place t, s.owner with
      | .waiting call, none => some { s with
          owner := some t
          place := Function.update s.place t (.inside call (body call))
          order := s.order ++ [(t, call)] }
      | _, _ => none
    | .access t =>
      match s.place t with
      | .inside call (.access change next) => some { s with
          object := change s.object
          place := Function.update s.place t (.inside call (next s.object)) }
      | _ => none
    | .unlock t =>
      match s.place t with
      | .inside _ (.done _) => some { s with
          owner := none
          place := Function.update s.place t .outside }
      | _ => none

/-- The steps, by their kind. -/
inductive SectionStep (body : κ → Code ε σ Unit) (s : Sections ε σ κ τ) :
    Move κ τ → Sections ε σ κ τ → Prop
  | invoke {t : τ} (call : κ) (hplace : s.place t = .outside) :
      SectionStep body s (.invoke t call)
        { s with place := Function.update s.place t (.waiting call) }
  | lock {t : τ} {call : κ} (hplace : s.place t = .waiting call) (hfree : s.owner = none) :
      SectionStep body s (.lock t) { s with
        owner := some t
        place := Function.update s.place t (.inside call (body call))
        order := s.order ++ [(t, call)] }
  | access {t : τ} {call : κ} {change : σ → σ} {next : σ → Code ε σ Unit}
      (hplace : s.place t = .inside call (.access change next)) :
      SectionStep body s (.access t) { s with
        object := change s.object
        place := Function.update s.place t (.inside call (next s.object)) }
  | unlock {t : τ} {call : κ} (hplace : s.place t = .inside call (.done ())) :
      SectionStep body s (.unlock t) { s with
        owner := none
        place := Function.update s.place t .outside }

theorem sectionStep_iff {move : Move κ τ} :
    (sections body).step s move = some s' ↔ SectionStep body s move s' := by
  constructor
  · intro h
    cases move with
    | invoke t call =>
      simp only [sections] at h
      split at h
      · rename_i hplace
        cases h
        exact .invoke call hplace
      · cases h
    | lock t =>
      simp only [sections] at h
      split at h
      · rename_i hplace hfree
        cases h
        exact .lock hplace hfree
      · cases h
    | access t =>
      simp only [sections] at h
      split at h
      · rename_i hplace
        cases h
        exact .access hplace
      · cases h
    | unlock t =>
      simp only [sections] at h
      split at h
      · rename_i hplace
        cases h
        exact .unlock hplace
      · cases h
  · rintro (⟨call, hplace⟩ | ⟨hplace, hfree⟩ | hplace | hplace)
    · simp only [sections, hplace]
    · simp only [sections, hplace, hfree]
    · simp only [sections, hplace]
    · simp only [sections, hplace]

/-- A step that moves `t` to a place outside its section puts no other thread into one. -/
theorem Sections.inside_update {t u : τ} {place : Place ε σ κ}
    (hout : ∀ call rest, place ≠ .inside call rest) {object : σ} {owner : Option τ}
    {order : List (τ × κ)}
    (h : Sections.Inside ⟨object, owner, Function.update s.place t place, order⟩ u) :
    u ≠ t ∧ s.Inside u := by
  obtain ⟨call, rest, hplace⟩ := h
  simp only at hplace
  by_cases hu : u = t
  · subst hu
    rw [Function.update_self] at hplace
    exact absurd hplace (hout call rest)
  · rw [Function.update_of_ne hu] at hplace
    exact ⟨hu, call, rest, hplace⟩

/-- A step that keeps `t` in its section, or lets it in, lets nobody else in. -/
theorem Sections.inside_update_self {t u : τ} {place : Place ε σ κ} {object : σ}
    {owner : Option τ} {order : List (τ × κ)}
    (h : Sections.Inside ⟨object, owner, Function.update s.place t place, order⟩ u) :
    u = t ∨ s.Inside u := by
  obtain ⟨call, rest, hplace⟩ := h
  simp only at hplace
  by_cases hu : u = t
  · exact .inl hu
  · rw [Function.update_of_ne hu] at hplace
    exact .inr ⟨call, rest, hplace⟩

theorem serial_step (hplain : Implements body plain) {move : Move κ τ}
    (hs : Serial body plain s₀ s) (h : SectionStep body s move s') :
    Serial body plain s₀ s' := by
  cases h with
  | @invoke t call hplace =>
    have hout : ∀ c r, (Place.waiting call : Place ε σ κ) ≠ .inside c r := by
      rintro c r ⟨⟩
    constructor
    · intro hfree
      refine ⟨fun u hu => ?_, (hs.free hfree).2⟩
      exact (hs.free hfree).1 u (inside_update hout hu).2
    · intro u howner
      obtain ⟨before, c, rest, base, horder, hu, hbase, hrun⟩ := (hs.held u howner).section_
      refine ⟨fun v hv => (hs.held u howner).alone v (inside_update hout hv).2, ?_⟩
      have hne : u ≠ t := by
        rintro rfl
        rw [hplace] at hu
        cases hu
      exact ⟨before, c, rest, base, horder, (Function.update_of_ne hne _ _).trans hu, hbase, hrun⟩
  | @lock t call hplace hfree =>
    constructor
    · rintro ⟨⟩
    · rintro u ⟨⟩
      refine ⟨fun v hv => ?_, s.order, call, body call, s.object, rfl, Function.update_self .., ?_, rfl⟩
      · rcases inside_update_self hv with rfl | hv
        · rfl
        · exact absurd hv ((hs.free hfree).1 v)
      · exact (hs.free hfree).2
  | @access t call change next hplace =>
    have howner : s.owner = some t := hs.owner_of_inside (inside_of_place hplace)
    constructor
    · intro hfree
      rw [howner] at hfree
      cases hfree
    · intro u hu
      obtain rfl : t = u := Option.some.inj (howner.symm.trans hu)
      obtain ⟨before, c, rest, base, horder, ht, hbase, hrun⟩ := (hs.held t howner).section_
      rw [hplace] at ht
      cases ht
      refine ⟨fun v hv => ?_, before, call, _, base, horder, Function.update_self .., hbase, hrun⟩
      rcases inside_update_self hv with rfl | hv
      · rfl
      · exact (hs.held t howner).alone v hv
  | @unlock t call hplace =>
    have howner : s.owner = some t := hs.owner_of_inside (inside_of_place hplace)
    constructor
    · rintro -
      refine ⟨fun u hu => ?_, ?_⟩
      · have hu := inside_update (by rintro c r ⟨⟩) hu
        exact hu.1 ((hs.held t howner).alone u hu.2)
      · obtain ⟨before, c, rest, base, horder, ht, hbase, hrun⟩ := (hs.held t howner).section_
        rw [hplace] at ht
        cases ht
        show plain.exec s₀ (s.order.map Prod.snd) = some s.object
        rw [horder, List.map_append]
        exact StepSystem.exec_concat.mpr ⟨base, hbase, (hplain _ _ _).mpr hrun⟩
    · rintro u ⟨⟩

/-- **Calls under one mutex are serial**, however the threads' accesses interleave. -/
theorem serial_run (hplain : Implements body plain) {moves : List (Move κ τ)}
    (hrun : (sections body).exec (Sections.init s₀ : Sections ε σ κ τ) moves = some s) :
    Serial body plain s₀ s :=
  StepSystem.exec_invariant (T := sections body)
    (fun _ _ _ hs h => serial_step hplain hs (sectionStep_iff.mp h)) (serial_init s₀) hrun

/-! ## The order of the calls -/

theorem Sections.ofThread_append (t : τ) (xs ys : List (τ × κ)) :
    ofThread t (xs ++ ys) = ofThread t xs ++ ofThread t ys := by
  rw [ofThread, List.filter_append, List.map_append]
  rfl

/-- A step adds at most its own call to the order, behind all others. -/
theorem order_step {move : Move κ τ} (h : SectionStep body s move s') :
    ∃ later, s'.order = s.order ++ later ∧
      ∀ t, ofThread t later ++ (s'.place t).pending = (s.place t).pending ++ move.invokedBy t := by
  cases h with
  | @invoke u call hplace =>
    refine ⟨[], (List.append_nil _).symm, fun t => ?_⟩
    by_cases ht : t = u
    · subst ht
      simp [ofThread, Move.invokedBy, Place.pending, hplace]
    · simp [ofThread, Move.invokedBy, ht, Ne.symm ht]
  | @lock u call hplace hfree =>
    refine ⟨[(u, call)], rfl, fun t => ?_⟩
    by_cases ht : t = u
    · subst ht
      simp [ofThread, Move.invokedBy, Place.pending, hplace]
    · simp [ofThread, Move.invokedBy, ht, Ne.symm ht]
  | @access u call change next hplace =>
    refine ⟨[], (List.append_nil _).symm, fun t => ?_⟩
    by_cases ht : t = u
    · subst ht
      simp [ofThread, Move.invokedBy, Place.pending, hplace]
    · simp [ofThread, Move.invokedBy, ht]
  | @unlock u call hplace =>
    refine ⟨[], (List.append_nil _).symm, fun t => ?_⟩
    by_cases ht : t = u
    · subst ht
      simp [ofThread, Move.invokedBy, Place.pending, hplace]
    · simp [ofThread, Move.invokedBy, ht]

/-- **The order of the calls is the threads' own**: a run appends to it, of each thread, the calls it
waited with and those it makes, in its order, up to the one it waits with at the end. -/
theorem order_run {moves : List (Move κ τ)} (hrun : (sections body).exec s moves = some s') :
    ∃ later, s'.order = s.order ++ later ∧
      ∀ t, ofThread t later ++ (s'.place t).pending =
        (s.place t).pending ++ moves.flatMap (Move.invokedBy t) := by
  induction moves generalizing s with
  | nil =>
    obtain rfl : s = s' := by simpa using hrun
    exact ⟨[], (List.append_nil _).symm, fun t => by simp [ofThread]⟩
  | cons move moves ih =>
    obtain ⟨s₁, hstep, hrest⟩ := StepSystem.exec_cons.mp hrun
    obtain ⟨first, hfirst, hcalls⟩ := order_step (sectionStep_iff.mp hstep)
    obtain ⟨later, hlater, hmore⟩ := ih hrest
    refine ⟨first ++ later, by rw [hlater, hfirst, List.append_assoc], fun t => ?_⟩
    rw [ofThread_append, List.append_assoc, hmore t, ← List.append_assoc, hcalls t,
      List.flatMap_cons, List.append_assoc]

/-- The calls of a run are those its threads made. -/
theorem made_of_run {moves : List (Move κ τ)} {Made : κ → Prop}
    (hmade : ∀ t call, Move.invoke t call ∈ moves → Made call)
    (hrun : (sections body).exec (Sections.init s₀ : Sections ε σ κ τ) moves = some s) :
    (∀ c ∈ s.order, Made c.2) ∧ ∀ t, ∀ call ∈ (s.place t).pending, Made call := by
  obtain ⟨order, horder, hcalls⟩ := order_run hrun
  have hall : s.order = order := horder
  have hinvoked : ∀ t, ∀ call ∈ ofThread t s.order ++ (s.place t).pending, Made call := by
    intro t call hcall
    rw [hall, hcalls t] at hcall
    obtain ⟨move, hmove, hby⟩ := List.mem_flatMap.mp hcall
    cases move with
    | invoke u call' =>
      rw [Move.invokedBy] at hby
      split at hby
      · rw [List.mem_singleton.mp hby]
        exact hmade u call' hmove
      · cases hby
    | lock | access | unlock => cases hby
  constructor
  · rintro ⟨t, call⟩ hc
    refine hinvoked t call (List.mem_append_left _ (List.mem_map.mpr ⟨(t, call), ?_, rfl⟩))
    exact List.mem_filter.mpr ⟨hc, decide_eq_true rfl⟩
  · intro t call hcall
    exact hinvoked t call (List.mem_append_right _ hcall)

/-! ## Calls return -/

/-- A thread in its section gets to its end alone, if the body can be run from here. -/
theorem finish_section {t : τ} {call : κ} {rest : Code ε σ Unit} {object : σ}
    (hplace : s.place t = .inside call rest) (hbody : rest.whole.run s.object = .ok () object) :
    ∃ n, (sections body).exec s (List.replicate n (.access t) ++ [.unlock t]) =
      some ⟨object, none, Function.update s.place t .outside, s.order⟩ := by
  induction rest generalizing s with
  | done a =>
    cases hbody
    refine ⟨0, StepSystem.exec_cons.mpr ⟨_, sectionStep_iff.mpr (.unlock hplace), rfl⟩⟩
  | fail e => cases hbody
  | access change next ih =>
    have haccess : SectionStep body s (.access t) _ := .access hplace
    have hstep := sectionStep_iff.mpr haccess
    obtain ⟨n, hn⟩ := ih s.object (s := ⟨change s.object, s.owner,
      Function.update s.place t (.inside call (next s.object)), s.order⟩)
      (Function.update_self ..) hbody
    refine ⟨n + 1, ?_⟩
    rw [List.replicate_succ, List.cons_append]
    refine StepSystem.exec_cons.mpr ⟨_, hstep, ?_⟩
    rw [hn, Function.update_idem]

/-- A call that finds the mutex free can be run whole. -/
theorem section_run (hplain : Implements body plain) (hfree : s.owner = none) {t : τ} {call : κ}
    (hplace : s.place t = .waiting call) {object : σ}
    (hstep : plain.step s.object call = some object) :
    ∃ n, (sections body).exec s (.lock t :: (List.replicate n (.access t) ++ [.unlock t])) =
      some ⟨object, none, Function.update s.place t .outside, s.order ++ [(t, call)]⟩ := by
  have hlock : SectionStep body s (.lock t) _ := .lock hplace hfree
  obtain ⟨n, hn⟩ := finish_section (s := ⟨s.object, some t,
    Function.update s.place t (.inside call (body call)), s.order ++ [(t, call)]⟩)
    (Function.update_self ..) ((hplain _ _ _).mp hstep)
  refine ⟨n, StepSystem.exec_cons.mpr ⟨_, sectionStep_iff.mpr hlock, ?_⟩⟩
  rw [hn, Function.update_idem]

section Returning

variable {I : σ → Prop} {Good : κ → Prop} (hplain : Implements body plain)
  (hgood : ∀ object call, I object → Good call → ∃ object', plain.step object call = some object' ∧
    I object')
include hplain hgood

omit [DecidableEq τ] hplain in
/-- Good calls, run whole, keep the invariant. -/
theorem invariant_of_exec {calls : List (τ × κ)} {base : σ} (hI : I s₀)
    (hcalls : ∀ c ∈ calls, Good c.2) (hrun : plain.exec s₀ (calls.map Prod.snd) = some base) :
    I base := by
  refine StepSystem.exec_invariant_along (C := fun _ call => Good call) ?_ hI
    (StepSystem.along_of_mem ?_ s₀) hrun
  · intro object call object' hobject hcall hstep
    obtain ⟨other, hother, hI'⟩ := hgood object call hobject hcall
    obtain rfl : other = object' := Option.some.inj (hother.symm.trans hstep)
    exact hI'
  · intro call hcall
    obtain ⟨c, hc, rfl⟩ := List.mem_map.mp hcall
    exact hcalls c hc

/-- The thread that has the mutex can give it up. -/
theorem can_release (hI : I s₀) (hs : Serial body plain s₀ s) (horder : ∀ c ∈ s.order, Good c.2)
    {t : τ} (howner : s.owner = some t) :
    ∃ n object, (sections body).exec s (List.replicate n (.access t) ++ [.unlock t]) =
      some ⟨object, none, Function.update s.place t .outside, s.order⟩ := by
  obtain ⟨before, call, rest, base, hbefore, hplace, hbase, hrun⟩ := (hs.held t howner).section_
  rw [hbefore] at horder
  have hbaseI : I base :=
    invariant_of_exec hgood hI (fun c hc => horder c (List.mem_append_left _ hc)) hbase
  obtain ⟨object, hstep, -⟩ := hgood base call hbaseI
    (horder (t, call) (List.mem_append_right _ (List.mem_singleton_self _)))
  have hrest : rest.whole.run s.object = .ok () object := by
    rw [← hrun]
    exact (hplain base call object).mp hstep
  obtain ⟨n, hn⟩ := finish_section hplace hrest
  exact ⟨n, object, hn⟩

/-- The move is part of a call that was made before. -/
def Sections.Move.Pending : Move κ τ → Prop
  | .invoke _ _ => False
  | _ => True

omit hplain hgood [DecidableEq τ] in
theorem pending_release (n : Nat) (t : τ) :
    ∀ move ∈ List.replicate n (Move.access t : Move κ τ) ++ [.unlock t], move.Pending := by
  intro move hmove
  rcases List.mem_append.mp hmove with h | h
  · rw [List.eq_of_mem_replicate h]
    trivial
  · rw [List.mem_singleton.mp h]
    trivial

/-- A thread that waits while the mutex is free can return. -/
theorem can_return_of_free (hI : I s₀) (hs : Serial body plain s₀ s)
    (horder : ∀ c ∈ s.order, Good c.2) (hfree : s.owner = none) {t : τ} {call : κ}
    (hcall : Good call) (hplace : s.place t = .waiting call) :
    ∃ moves s', (sections body).exec s moves = some s' ∧ s'.place t = .outside ∧
      ∀ move ∈ moves, move.Pending := by
  have hobject : I s.object := invariant_of_exec hgood hI horder (hs.free hfree).2
  obtain ⟨object, hstep, -⟩ := hgood s.object call hobject hcall
  obtain ⟨n, hn⟩ := section_run hplain hfree hplace hstep
  refine ⟨_, _, hn, Function.update_self .., ?_⟩
  intro move hmove
  rcases List.mem_cons.mp hmove with rfl | hmove
  · trivial
  · exact pending_release n t move hmove

/-- **No call is blocked for good**: from any state the calls already made can go on until a given one
has returned. -/
theorem can_return (hI : I s₀) (hs : Serial body plain s₀ s) (horder : ∀ c ∈ s.order, Good c.2)
    (hpending : ∀ t, ∀ call ∈ (s.place t).pending, Good call) (t : τ) :
    ∃ moves s', (sections body).exec s moves = some s' ∧ s'.place t = .outside ∧
      ∀ move ∈ moves, move.Pending := by
  cases hplace : s.place t with
  | outside => exact ⟨[], s, rfl, hplace, fun move h => absurd h List.not_mem_nil⟩
  | inside call rest =>
    have howner := hs.owner_of_inside (inside_of_place hplace)
    obtain ⟨n, object, hn⟩ := can_release hplain hgood hI hs horder howner
    exact ⟨_, _, hn, Function.update_self .., pending_release n t⟩
  | waiting call =>
    have hcall : Good call := hpending t call (by rw [hplace]; exact List.mem_singleton_self _)
    cases howner : s.owner with
    | none => exact can_return_of_free hplain hgood hI hs horder howner hcall hplace
    | some u =>
      obtain ⟨n, object, hn⟩ := can_release hplain hgood hI hs horder howner
      have hne : t ≠ u := by
        rintro rfl
        obtain ⟨_, _, _, _, -, hinside, -⟩ := (hs.held t howner).section_
        rw [hplace] at hinside
        cases hinside
      have hs₁ : Serial body plain s₀ _ :=
        StepSystem.exec_invariant (T := sections body)
          (fun _ _ _ hs h => serial_step hplain hs (sectionStep_iff.mp h)) hs hn
      obtain ⟨moves, s', hrun, hout, hmoves⟩ := can_return_of_free hplain hgood hI hs₁ horder rfl
        hcall ((Function.update_of_ne hne _ _).trans hplace)
      refine ⟨_, s', StepSystem.exec_append.mpr ⟨_, hn, hrun⟩, hout, fun move hmove => ?_⟩
      rcases List.mem_append.mp hmove with h | h
      · exact pending_release n u move h
      · exact hmoves move h

end Returning

end TurboNet.Lib
