/-
# TurboNet.Base.Singleton — one object for all callers, from its first call to the exit.

`base/singleton.h`: any number of threads call `Instance`.  `std::call_once` lets one of them make the
object at a time (`TurboNet.Lib.Once`), and an exception of the constructor leaves the call and lets
the next one try.  The exit of the process runs what was registered for it, the last first: `Destroy`,
unless `T` has `NoDestroy`, and the destructor of `value_`, which was registered when the program was
loaded.  Other threads may go on while it does.

An object is named by the call that made it.
-/
import TurboNet.Lib.Once
import TurboNet.Lib.StepSystem
import TurboNet.Logger.Logger

namespace TurboNet.Base

open TurboNet.Lib
open TurboNet.Logger (Build Halt)

namespace Singleton

/-- Where a call of `Instance` stands. -/
inductive Place (τ : Type) where
  | outside
  /-- At `std::call_once`. -/
  | once
  /-- In `std::make_unique`. -/
  | construct
  /-- At `std::atexit(&Destroy)`. -/
  | register
  /-- At the end of the function handed to `std::call_once`. -/
  | finish
  /-- At `assert(value_ != nullptr)`. -/
  | check
  /-- At `return *value_`. -/
  | deref
  | returned (object : τ)
  | threw
  deriving DecidableEq, Repr

/-- In the function handed to `std::call_once`. -/
def Place.inside {τ : Type} : Place τ → Bool
  | .construct | .register | .finish => true
  | _ => false

/-- Past `std::call_once`. -/
def Place.past {τ : Type} : Place τ → Bool
  | .check | .deref | .returned _ => true
  | _ => false

/-- Not past `std::atexit` in the function. -/
def Place.making {τ : Type} : Place τ → Bool
  | .construct | .register => true
  | _ => false

/-- Behind the constructor, in the function or past it. -/
def Place.holds {τ : Type} : Place τ → Bool
  | .register | .finish | .check | .deref | .returned _ => true
  | _ => false

/-- What the exit runs. -/
inductive Handler where
  | destroy
  /-- The destructor of `value_`. -/
  | valueDtor
  deriving DecidableEq, Repr

/-- How far the process is. -/
inductive Phase where
  | running
  | exiting
  | ended
  deriving DecidableEq, Repr

end Singleton

/-- `ponce_` and `value_` of `turbo::Singleton<T>`, the calls, and the exit. -/
structure Singleton (τ : Type) where
  place : τ → Singleton.Place τ
  flag : Once τ
  value : Option τ
  /-- The objects that were made, and those that were destroyed. -/
  made : List τ
  destroyed : List τ
  /-- What the exit has to run, the next first. -/
  handlers : List Singleton.Handler
  phase : Singleton.Phase
  halt : Option Halt

namespace Singleton

variable {τ : Type}

def init : Singleton τ where
  place _ := .outside
  flag := .ready
  value := none
  made := []
  destroyed := []
  handlers := [.valueDtor]
  phase := .running
  halt := none

/-- `Destroy` when `value_` is null. -/
def destroyNull : Halt := .undefined "std::destroy_at(nullptr)"

/-- What happens next.  `ok` is how a constructor of `T` ends, or `std::atexit`. -/
inductive Act (τ : Type) where
  | move (c : τ) (ok : Bool)
  | exit
  | handle
  deriving DecidableEq, Repr

variable [DecidableEq τ]

def goes (s : Singleton τ) (c : τ) (p : Place τ) : Singleton τ :=
  { s with place := Function.update s.place c p }

/-- The next step of the call. -/
def move (B : Build) (noDestroy : Bool) (s : Singleton τ) (c : τ) (ok : Bool) :
    Option (Singleton τ) :=
  match s.place c with
  | .outside => some (s.goes c .once)
  | .once =>
    match s.flag with
    | .ready => some { s.goes c .construct with flag := .running c }
    | .running _ => none
    | .done => some (s.goes c .check)
  | .construct =>
    if ok then
      some { s.goes c (if noDestroy then .finish else .register) with
        value := some c, made := s.made ++ [c], destroyed := s.destroyed ++ s.value.toList }
    else some { s.goes c .threw with flag := .ready }
  | .register =>
    some { s.goes c .finish with
      handlers := if ok then .destroy :: s.handlers else s.handlers }
  | .finish => some { s.goes c .check with flag := .done }
  | .check =>
    if B.asserts = true ∧ s.value = none then
      some { s with halt := some (.assertFailed "value_ != nullptr") }
    else some (s.goes c .deref)
  | .deref =>
    match s.value with
    | some object => some (s.goes c (.returned object))
    | none => some { s with halt := some (.undefined "*value_") }
  | .returned _ | .threw => none

/-- The next function of the exit. -/
def handle (s : Singleton τ) : Singleton τ :=
  match s.handlers with
  | [] => { s with phase := .ended }
  | .destroy :: rest =>
    match s.value with
    | some object =>
      { s with value := none, destroyed := s.destroyed ++ [object], handlers := rest }
    | none => { s with halt := some destroyNull, handlers := rest }
  | .valueDtor :: rest =>
    { s with value := none, destroyed := s.destroyed ++ s.value.toList, handlers := rest }

def step (B : Build) (noDestroy : Bool) (s : Singleton τ) (a : Act τ) : Option (Singleton τ) :=
  if s.halt ≠ none ∨ s.phase = .ended then none
  else
    match a with
    | .move c ok => s.move B noDestroy c ok
    | .exit => if s.phase = .running then some { s with phase := .exiting } else none
    | .handle => if s.phase = .exiting then some s.handle else none

/-- The runs of the calls of one `Singleton<T>::Instance`. -/
def instanceRuns (B : Build) (noDestroy : Bool) : StepSystem (Singleton τ) (Act τ) where
  step := step B noDestroy

/-! ## What a step can do -/

variable {B : Build} {noDestroy : Bool} {s s' : Singleton τ} {a : Act τ} {c d o : τ}

/-- The steps of a call. -/
inductive Moved (noDestroy : Bool) (s : Singleton τ) (c : τ) : Singleton τ → Prop
  | call (hplace : s.place c = .outside) : Moved noDestroy s c (s.goes c .once)
  | start (hplace : s.place c = .once) (hflag : s.flag = .ready) :
      Moved noDestroy s c { s.goes c .construct with flag := .running c }
  | pass (hplace : s.place c = .once) (hflag : s.flag = .done) :
      Moved noDestroy s c (s.goes c .check)
  | made {p : Place τ} (hplace : s.place c = .construct) (hp : p = .finish ∨ p = .register) :
      Moved noDestroy s c { s.goes c p with
        value := some c, made := s.made ++ [c], destroyed := s.destroyed ++ s.value.toList }
  | threw (hplace : s.place c = .construct) :
      Moved noDestroy s c { s.goes c .threw with flag := .ready }
  | registered {handlers : List Handler} (hplace : s.place c = .register)
      (hhandlers : handlers = .destroy :: s.handlers ∨ handlers = s.handlers) :
      Moved noDestroy s c { s.goes c .finish with handlers := handlers }
  | finished (hplace : s.place c = .finish) :
      Moved noDestroy s c { s.goes c .check with flag := .done }
  | checked (hplace : s.place c = .check) : Moved noDestroy s c (s.goes c .deref)
  | returned {object : τ} (hplace : s.place c = .deref) (hvalue : s.value = some object) :
      Moved noDestroy s c (s.goes c (.returned object))
  | halted {halt : Halt} (hplace : (s.place c).past = true) (hvalue : s.value = none)
      (hhalt : halt ≠ destroyNull) : Moved noDestroy s c { s with halt := some halt }

theorem moved_of_move {ok : Bool} (h : s.move B noDestroy c ok = some s') :
    Moved noDestroy s c s' := by
  unfold move at h
  split at h
  next hplace =>
    cases h
    exact .call hplace
  next hplace =>
    split at h
    next hflag =>
      cases h
      exact .start hplace hflag
    next => cases h
    next hflag =>
      cases h
      exact .pass hplace hflag
  next hplace =>
    split at h
    next =>
      cases h
      refine .made hplace ?_
      cases noDestroy with
      | true => exact .inl rfl
      | false => exact .inr rfl
    next =>
      cases h
      exact .threw hplace
  next hplace =>
    cases h
    refine .registered hplace ?_
    cases ok with
    | true => exact .inl rfl
    | false => exact .inr rfl
  next hplace =>
    cases h
    exact .finished hplace
  next hplace =>
    split at h
    next hnull =>
      cases h
      exact .halted (by rw [hplace]; rfl) hnull.2 (by decide)
    next =>
      cases h
      exact .checked hplace
  next hplace =>
    split at h
    next object hvalue =>
      cases h
      exact .returned hplace hvalue
    next hvalue =>
      cases h
      exact .halted (by rw [hplace]; rfl) hvalue (by decide)
  next => cases h
  next => cases h

/-- The steps of the exit. -/
inductive Handled (s : Singleton τ) : Singleton τ → Prop
  | ended (hhandlers : s.handlers = []) : Handled s { s with phase := .ended }
  | destroyed {rest : List Handler} {object : τ} (hhandlers : s.handlers = .destroy :: rest)
      (hvalue : s.value = some object) :
      Handled s { s with value := none, destroyed := s.destroyed ++ [object], handlers := rest }
  | null {rest : List Handler} (hhandlers : s.handlers = .destroy :: rest)
      (hvalue : s.value = none) :
      Handled s { s with halt := some destroyNull, handlers := rest }
  | valueDtor {rest : List Handler} (hhandlers : s.handlers = .valueDtor :: rest) :
      Handled s
        { s with value := none, destroyed := s.destroyed ++ s.value.toList, handlers := rest }

omit [DecidableEq τ] in
theorem handled (s : Singleton τ) : Handled s s.handle := by
  unfold handle
  split
  next hhandlers => exact .ended hhandlers
  next rest hhandlers =>
    split
    next object hvalue => exact .destroyed hhandlers hvalue
    next hvalue => exact .null hhandlers hvalue
  next rest hhandlers => exact .valueDtor hhandlers

/-- The steps of the process. -/
inductive Stepped (noDestroy : Bool) (s : Singleton τ) : Act τ → Singleton τ → Prop
  | move {c : τ} {ok : Bool} {s' : Singleton τ} (h : Moved noDestroy s c s') :
      Stepped noDestroy s (.move c ok) s'
  | exit (hphase : s.phase = .running) : Stepped noDestroy s .exit { s with phase := .exiting }
  | handle {s' : Singleton τ} (hphase : s.phase = .exiting) (h : Handled s s') :
      Stepped noDestroy s .handle s'

theorem step_cases (h : s.step B noDestroy a = some s') :
    s.halt = none ∧ s.phase ≠ .ended ∧ Stepped noDestroy s a s' := by
  unfold step at h
  split at h
  next => cases h
  next hgoes =>
    obtain ⟨hhalt, hphase⟩ := not_or.mp hgoes
    refine ⟨not_not.mp hhalt, hphase, ?_⟩
    cases a with
    | move c ok => exact .move (moved_of_move h)
    | exit =>
      simp only at h
      split at h
      next hrunning =>
        cases h
        exact .exit hrunning
      next => cases h
    | handle =>
      simp only at h
      split at h
      next hexiting =>
        cases h
        exact .handle hexiting (handled s)
      next => cases h

@[simp] theorem goes_place (s : Singleton τ) (c : τ) (p : Place τ) : (s.goes c p).place c = p :=
  Function.update_self ..

theorem goes_place_of_ne (s : Singleton τ) (p : Place τ) (h : d ≠ c) :
    (s.goes c p).place d = s.place d := Function.update_of_ne h ..

/-! ## One object -/

/-- In the function, or where it is. -/
def insides (s : Singleton τ) (c : τ) : Bool := (s.place c).inside

/-- What was made, by how far the flag is. -/
structure Made (s : Singleton τ) : Prop where
  ready : s.flag = .ready → s.made = []
  running : ∀ c, s.flag = .running c → s.made = if s.place c = .construct then [] else [c]
  done : s.flag = .done → ∃ o, s.made = [o]

/-- `value_` is the object, or the object is destroyed. -/
inductive Life : (value : Option τ) → (made destroyed : List τ) → Prop
  | gone (made : List τ) : Life none made made
  | alive (o : τ) : Life (some o) [o] []

omit [DecidableEq τ] in
theorem Life.of_some {made destroyed : List τ} (h : Life (some o) made destroyed) :
    made = [o] ∧ destroyed = [] := by
  cases h with
  | alive => exact ⟨rfl, rfl⟩

omit [DecidableEq τ] in
theorem Life.of_none {made destroyed : List τ} (h : Life none made destroyed) :
    destroyed = made := by
  cases h with
  | gone => rfl

omit [DecidableEq τ] in
/-- The object is destroyed; if there was none, nothing is. -/
theorem Life.destroy {value : Option τ} {made destroyed : List τ} (h : Life value made destroyed) :
    Life none made (destroyed ++ value.toList) := by
  cases h with
  | gone =>
    rw [Option.toList_none, List.append_nil]
    exact .gone made
  | alive o => exact .gone [o]

structure Inv (s : Singleton τ) : Prop where
  tracked : Tracked s.insides s.flag
  made : s.Made
  passed : ∀ c, (s.place c).past = true → s.flag = .done
  returned : ∀ c o, s.place c = .returned o → s.made = [o]
  maker : ∀ o ∈ s.made, (s.place o).holds = true
  life : Life s.value s.made s.destroyed
  running : s.phase = .running → s.destroyed = []
  registered : .destroy ∈ s.handlers → s.made ≠ []
  halted : s.halt ≠ none → s.destroyed ≠ []

theorem inv_init : Inv (init : Singleton τ) where
  tracked c := by
    constructor
    · intro h
      cases h
    · intro h
      cases h
  made := ⟨fun _ => rfl, nofun, nofun⟩
  passed c h := by cases h
  returned c o h := by cases h
  maker o h := by cases h
  life := .gone []
  running _ := rfl
  registered h := by cases List.mem_singleton.mp h
  halted h := absurd rfl h

/-- The call moves, and no other. -/
theorem Moved.others (h : Moved noDestroy s c s') (hd : d ≠ c) : s'.place d = s.place d := by
  cases h with
  | halted => rfl
  | _ => exact goes_place_of_ne s _ hd

/-- What the step does to the flag. -/
theorem Moved.once (h : Moved noDestroy s c s') :
    OnceMove c (s.insides c) (s'.insides c) s.flag s'.flag := by
  have hgoes (p : Place τ) : (s.goes c p).insides c = p.inside := by rw [insides, goes_place]
  have hold {p : Place τ} (hplace : s.place c = p) : s.insides c = p.inside := by
    rw [insides, hplace]
  cases h with
  | call hplace => rw [hgoes, hold hplace]; exact .stay
  | start hplace hflag =>
    rw [hold hplace, hflag]
    show OnceMove c _ ((s.goes c .construct).insides c) _ _
    rw [hgoes]
    exact .start
  | pass hplace => rw [hgoes, hold hplace]; exact .stay
  | @made p hplace hp =>
    show OnceMove c _ ((s.goes c p).insides c) _ _
    rw [hgoes, hold hplace]
    rcases hp with rfl | rfl
    · exact .stay
    · exact .stay
  | threw hplace =>
    show OnceMove c _ ((s.goes c .threw).insides c) _ _
    rw [hgoes, hold hplace]
    exact .fail
  | registered hplace =>
    show OnceMove c _ ((s.goes c .finish).insides c) _ _
    rw [hgoes, hold hplace]
    exact .stay
  | finished hplace =>
    show OnceMove c _ ((s.goes c .check).insides c) _ _
    rw [hgoes, hold hplace]
    exact .succeed
  | checked hplace => rw [hgoes, hold hplace]; exact .stay
  | returned hplace => rw [hgoes, hold hplace]; exact .stay
  | halted => exact .stay

theorem Moved.tracked (h : Moved noDestroy s c s') (hs : Tracked s.insides s.flag) :
    Tracked s'.insides s'.flag := by
  refine hs.move h.once fun d hd => ?_
  rw [insides, h.others hd, insides]

/-- Who is in the function has made the object unless it is in the constructor. -/
theorem Inv.inside (hs : Inv s) (hin : (s.place c).inside = true) :
    s.flag = .running c ∧ s.made = if s.place c = .construct then [] else [c] := by
  have hflag : s.flag = .running c := (hs.tracked c).mp hin
  exact ⟨hflag, hs.made.running c hflag⟩

theorem Inv.constructing (hs : Inv s) (hplace : s.place c = .construct) :
    s.flag = .running c ∧ s.made = [] := by
  obtain ⟨hflag, hmade⟩ := hs.inside (c := c) (by rw [hplace]; rfl)
  rw [if_pos hplace] at hmade
  exact ⟨hflag, hmade⟩

theorem Inv.constructed (hs : Inv s) (hplace : s.place c = .register ∨ s.place c = .finish) :
    s.flag = .running c ∧ s.made = [c] := by
  have hin : (s.place c).inside = true := by
    rcases hplace with hplace | hplace
    · rw [hplace]
      rfl
    · rw [hplace]
      rfl
  have hnot : s.place c ≠ .construct := by
    rcases hplace with hplace | hplace
    · rw [hplace]
      nofun
    · rw [hplace]
      nofun
  obtain ⟨hflag, hmade⟩ := hs.inside hin
  rw [if_neg hnot] at hmade
  exact ⟨hflag, hmade⟩

/-- Nothing has been made that `value_` could hold. -/
theorem Inv.nothing (hs : Inv s) (hmade : s.made = []) : s.value = none ∧ s.destroyed = [] := by
  have hlife := hs.life
  rw [hmade] at hlife
  cases hvalue : s.value with
  | none =>
    rw [hvalue] at hlife
    exact ⟨rfl, hlife.of_none⟩
  | some o =>
    rw [hvalue] at hlife
    cases hlife.of_some.1

/-- A call outside of the function may move without regard to what was made. -/
theorem Inv.made_goes (hs : Inv s) (hout : (s.place c).inside = false) (p : Place τ) :
    (s.goes c p).Made where
  ready := hs.made.ready
  running := by
    intro d hflag
    have hd : d ≠ c := by
      rintro rfl
      have hin : (s.place d).inside = true := (hs.tracked d).mpr hflag
      rw [hout] at hin
      cases hin
    rw [goes_place_of_ne s p hd]
    exact hs.made.running d hflag
  done := hs.made.done

theorem Moved.made_of_inv (h : Moved noDestroy s c s') (hs : Inv s) : s'.Made := by
  cases h with
  | call hplace => exact hs.made_goes (by rw [hplace]; rfl) _
  | start hplace hflag =>
    refine ⟨nofun, fun d h => ?_, nofun⟩
    obtain rfl : c = d := Once.running.inj h
    show s.made = if (s.goes c .construct).place c = .construct then [] else [c]
    rw [goes_place, if_pos rfl]
    exact hs.made.ready hflag
  | pass hplace => exact hs.made_goes (by rw [hplace]; rfl) _
  | @made p hplace hp =>
    obtain ⟨hflag, hmade⟩ := hs.constructing hplace
    refine ⟨fun h => ?_, fun d h => ?_, fun h => ?_⟩
    · cases hflag.symm.trans h
    · obtain rfl : c = d := Once.running.inj (hflag.symm.trans h)
      show s.made ++ [c] = if (s.goes c p).place c = .construct then [] else [c]
      rw [goes_place, hmade]
      rcases hp with rfl | rfl
      · rfl
      · rfl
    · cases hflag.symm.trans h
  | threw hplace =>
    obtain ⟨-, hmade⟩ := hs.constructing hplace
    exact ⟨fun _ => hmade, nofun, nofun⟩
  | registered hplace =>
    obtain ⟨hflag, hmade⟩ := hs.constructed (.inl hplace)
    refine ⟨fun h => ?_, fun d h => ?_, fun h => ?_⟩
    · cases hflag.symm.trans h
    · obtain rfl : c = d := Once.running.inj (hflag.symm.trans h)
      show s.made = if (s.goes c .finish).place c = .construct then [] else [c]
      rw [goes_place]
      exact hmade
    · cases hflag.symm.trans h
  | finished hplace =>
    obtain ⟨-, hmade⟩ := hs.constructed (.inr hplace)
    exact ⟨nofun, nofun, fun _ => ⟨c, hmade⟩⟩
  | checked hplace => exact hs.made_goes (by rw [hplace]; rfl) _
  | returned hplace => exact hs.made_goes (by rw [hplace]; rfl) _
  | halted => exact ⟨hs.made.ready, hs.made.running, hs.made.done⟩

theorem Moved.done (h : Moved noDestroy s c s') (hs : Inv s) (hdone : s.flag = .done) :
    s'.flag = .done := by
  have honce := h.once
  have htracked := hs.tracked
  rw [hdone] at honce htracked
  exact (htracked.done honce).1

theorem Moved.passed (h : Moved noDestroy s c s') (hs : Inv s) (hd : (s'.place d).past = true) :
    s'.flag = .done := by
  by_cases hdc : d = c
  · subst hdc
    have hgoes {p : Place τ} (hd : ((s.goes d p).place d).past = true) : p.past = true := by
      rwa [goes_place] at hd
    have hold {p : Place τ} (hplace : s.place d = p) (hp : p.past = true) : s.flag = .done :=
      hs.passed d (by rwa [hplace])
    cases h with
    | call => cases hgoes hd
    | start => cases hgoes hd
    | pass _ hflag => exact hflag
    | @made p _ hp =>
      rcases hp with rfl | rfl
      · cases hgoes hd
      · cases hgoes hd
    | threw => cases hgoes hd
    | registered => cases hgoes hd
    | finished => rfl
    | checked hplace => exact hold hplace rfl
    | returned hplace => exact hold hplace rfl
    | halted hplace => exact hs.passed d hplace
  · rw [h.others hdc] at hd
    exact h.done hs (hs.passed d hd)

theorem Moved.returned_made (h : Moved noDestroy s c s') (hs : Inv s)
    (hd : s'.place d = .returned o) : s'.made = [o] := by
  have hdone : s'.flag = .done := h.passed hs (d := d) (by rw [hd]; rfl)
  by_cases hdc : d = c
  · subst hdc
    have hgoes {p : Place τ} (hd : (s.goes d p).place d = .returned o) : p = .returned o := by
      rwa [goes_place] at hd
    cases h with
    | call => cases hgoes hd
    | start => cases hgoes hd
    | pass => cases hgoes hd
    | @made p _ hp =>
      rcases hp with rfl | rfl
      · cases hgoes hd
      · cases hgoes hd
    | threw => cases hgoes hd
    | registered => cases hgoes hd
    | finished => cases hgoes hd
    | checked => cases hgoes hd
    | @returned object hplace hvalue =>
      obtain rfl : object = o := Place.returned.inj (hgoes hd)
      have hlife := hs.life
      rw [hvalue] at hlife
      exact hlife.of_some.1
    | halted => exact hs.returned d o hd
  · rw [h.others hdc] at hd
    have hmade := hs.returned d o hd
    have hflag := hs.passed d (by rw [hd]; rfl)
    cases h with
    | made hplace => cases hflag.symm.trans (hs.constructing hplace).1
    | _ => exact hmade

/-- The call that made the object has not come to an exception. -/
theorem Moved.maker (h : Moved noDestroy s c s') (hs : Inv s) (ho : o ∈ s'.made) :
    (s'.place o).holds = true := by
  by_cases hoc : o = c
  · subst hoc
    have hgoes {p : Place τ} (hp : p.holds = true) : ((s.goes o p).place o).holds = true := by
      rwa [goes_place]
    have hnot {p : Place τ} (hplace : s.place o = p) (hp : p.holds = false) (ho : o ∈ s.made) :
        False := by
      have hholds := hs.maker o ho
      rw [hplace, hp] at hholds
      cases hholds
    cases h with
    | call hplace => exact (hnot hplace rfl ho).elim
    | start hplace => exact (hnot hplace rfl ho).elim
    | pass => exact hgoes rfl
    | @made p _ hp =>
      rcases hp with rfl | rfl
      · exact hgoes rfl
      · exact hgoes rfl
    | threw hplace => exact (hnot hplace rfl ho).elim
    | registered => exact hgoes rfl
    | finished => exact hgoes rfl
    | checked => exact hgoes rfl
    | returned => exact hgoes rfl
    | halted => exact hs.maker o ho
  · rw [h.others hoc]
    cases h with
    | made =>
      rcases List.mem_append.mp ho with ho | ho
      · exact hs.maker o ho
      · exact absurd (List.mem_singleton.mp ho) hoc
    | _ => exact hs.maker o ho

theorem inv_move (h : Moved noDestroy s c s') (hs : Inv s) : Inv s' := by
  have htracked := h.tracked hs.tracked
  have hmade := h.made_of_inv hs
  have hpassed := fun d => h.passed hs (d := d)
  have hreturned := fun d o => h.returned_made hs (d := d) (o := o)
  have hmaker := fun o => h.maker hs (o := o)
  cases h with
  | made hplace =>
    obtain ⟨-, hnone⟩ := hs.constructing hplace
    obtain ⟨hvalue, hdestroyed⟩ := hs.nothing hnone
    refine ⟨htracked, hmade, hpassed, hreturned, hmaker, ?_, ?_, ?_, ?_⟩
    · simp only [hnone, hvalue, hdestroyed, Option.toList_none, List.append_nil, List.nil_append]
      exact .alive c
    · intro _
      simp [hvalue, hdestroyed]
    · intro _
      simp
    · intro hhalt
      exact absurd hdestroyed (hs.halted hhalt)
  | registered hplace =>
    obtain ⟨-, hone⟩ := hs.constructed (.inl hplace)
    refine ⟨htracked, hmade, hpassed, hreturned, hmaker, hs.life, hs.running, fun _ => ?_, hs.halted⟩
    simp [goes, hone]
  | halted hplace hvalue =>
    refine ⟨htracked, hmade, hpassed, hreturned, hmaker, hs.life, hs.running, hs.registered,
      fun _ => ?_⟩
    have hlife := hs.life
    obtain ⟨o, hone⟩ := hs.made.done (hs.passed c hplace)
    rw [hvalue] at hlife
    simp [hlife.of_none, hone]
  | _ =>
    exact ⟨htracked, hmade, hpassed, hreturned, hmaker, hs.life, hs.running, hs.registered,
      hs.halted⟩

theorem inv_handle (h : Handled s s') (hphase : s.phase = .exiting) (hs : Inv s) : Inv s' := by
  have hmade : ∀ {s' : Singleton τ}, s'.place = s.place → s'.flag = s.flag → s'.made = s.made →
      s'.Made := by
    intro s' hplace hflag hmade
    refine ⟨?_, ?_, ?_⟩
    · rw [hflag, hmade]
      exact hs.made.ready
    · rw [hflag, hmade, hplace]
      exact hs.made.running
    · rw [hflag, hmade]
      exact hs.made.done
  have hnot : s.phase ≠ .running := by
    rw [hphase]
    nofun
  have hlife := hs.life
  cases h with
  | ended =>
    exact ⟨hs.tracked, hmade rfl rfl rfl, hs.passed, hs.returned, hs.maker, hs.life, nofun,
      hs.registered, hs.halted⟩
  | destroyed hhandlers hvalue =>
    rw [hvalue] at hlife
    refine ⟨hs.tracked, hmade rfl rfl rfl, hs.passed, hs.returned, hs.maker, hlife.destroy,
      fun h => absurd h hnot, fun h => ?_, fun _ => ?_⟩
    · exact hs.registered (by rw [hhandlers]; exact List.mem_cons_of_mem _ h)
    · exact List.append_ne_nil_of_right_ne_nil _ (List.cons_ne_nil _ _)
  | null hhandlers hvalue =>
    have hone := hs.registered (by rw [hhandlers]; exact List.mem_cons_self)
    rw [hvalue] at hlife
    refine ⟨hs.tracked, hmade rfl rfl rfl, hs.passed, hs.returned, hs.maker, hs.life,
      fun h => absurd h hnot, fun _ => hone, fun _ => ?_⟩
    rw [hlife.of_none]
    exact hone
  | valueDtor hhandlers =>
    refine ⟨hs.tracked, hmade rfl rfl rfl, hs.passed, hs.returned, hs.maker, hlife.destroy,
      fun h => absurd h hnot, fun h => ?_, fun h => ?_⟩
    · exact hs.registered (by rw [hhandlers]; exact List.mem_cons_of_mem _ h)
    · exact List.append_ne_nil_of_left_ne_nil (hs.halted h) _

theorem inv_step (h : Stepped noDestroy s a s') (hs : Inv s) : Inv s' := by
  cases h with
  | move h => exact inv_move h hs
  | exit =>
    exact ⟨hs.tracked, ⟨hs.made.ready, hs.made.running, hs.made.done⟩, hs.passed, hs.returned, hs.maker,
      hs.life, nofun, hs.registered, hs.halted⟩
  | handle hphase h => exact inv_handle h hphase hs

theorem inv_run {acts : List (Act τ)} (hrun : (instanceRuns B noDestroy).exec init acts = some s) :
    Inv s := by
  refine StepSystem.exec_invariant ?_ inv_init hrun
  intro s a s' hs hstep
  exact inv_step (step_cases hstep).2.2 hs

/-- The call has come to its end. -/
def Place.over {τ : Type} : Place τ → Bool
  | .returned _ | .threw => true
  | _ => false

/-- What keeps a call from going on. -/
theorem blocked {ok : Bool} (h : s.move B noDestroy c ok = none) :
    (s.place c).over = true ∨ s.place c = .once ∧ ∃ d, s.flag = .running d := by
  unfold move at h
  split at h
  next => cases h
  next hplace =>
    split at h
    next => cases h
    next d hflag => exact .inr ⟨hplace, d, hflag⟩
    next => cases h
  next =>
    split at h
    next => cases h
    next => cases h
  next => cases h
  next => cases h
  next =>
    split at h
    next => cases h
    next => cases h
  next =>
    split at h
    next => cases h
    next => cases h
  next hplace => exact .inl (by rw [hplace]; rfl)
  next hplace => exact .inl (by rw [hplace]; rfl)

theorem exists_move_of_inside (hin : (s.place c).inside = true) (ok : Bool) :
    ∃ t, s.move B noDestroy c ok = some t := by
  refine Option.ne_none_iff_exists'.mp fun hnone => ?_
  rcases blocked hnone with hover | ⟨hplace, -⟩
  · cases hplace : s.place c with
    | returned o => rw [hplace] at hin; cases hin
    | threw => rw [hplace] at hin; cases hin
    | _ => rw [hplace] at hover; cases hover
  · rw [hplace] at hin
    cases hin

/-- A call that cannot go on waits for another that can. -/
theorem goesOn (hs : Inv s) (hover : (s.place c).over = false) (ok : Bool) :
    (∃ t, s.move B noDestroy c ok = some t) ∨
      ∃ d, s.flag = .running d ∧ d ≠ c ∧ ∀ ok, ∃ t, s.move B noDestroy d ok = some t := by
  cases hmove : s.move B noDestroy c ok with
  | some t => exact .inl ⟨t, rfl⟩
  | none =>
    rcases blocked hmove with hend | ⟨hplace, d, hflag⟩
    · rw [hend] at hover
      cases hover
    · have hd : (s.place d).inside = true := (hs.tracked d).mpr hflag
      refine .inr ⟨d, hflag, ?_, fun ok => exists_move_of_inside hd ok⟩
      rintro rfl
      rw [hplace] at hd
      cases hd

/-- What the callers share. -/
structure Shared (B : Build) (noDestroy : Bool) (s : Singleton τ) : Prop where
  exclusive : ∀ c d, (s.place c).inside = true → (s.place d).inside = true → c = d
  single : s.made.length ≤ 1
  same : ∀ c o, s.place c = .returned o → s.made = [o]
  /-- What a call made is not what it threw away. -/
  threw : ∀ c, s.place c = .threw → c ∉ s.made
  alive : s.phase = .running → s.destroyed = [] ∧ s.halt = none
  once : s.destroyed <+: s.made
  halted : s.halt ≠ none → s.made ≠ [] ∧ s.destroyed = s.made
  waits : ∀ c ok, (s.place c).over = false → (∃ t, s.move B noDestroy c ok = some t) ∨
    ∃ d, s.flag = .running d ∧ d ≠ c ∧ ∀ ok, ∃ t, s.move B noDestroy d ok = some t

theorem Inv.length_made (hs : Inv s) : s.made.length ≤ 1 := by
  cases hflag : s.flag with
  | ready =>
    rw [hs.made.ready hflag]
    exact Nat.zero_le 1
  | running c =>
    rw [hs.made.running c hflag]
    split
    next => exact Nat.zero_le 1
    next => exact Nat.le_refl 1
  | done =>
    obtain ⟨o, hone⟩ := hs.made.done hflag
    rw [hone]
    exact Nat.le_refl 1

/-- **One object for all.**  Whatever the interleaving of the calls of `Instance`, of constructors
that throw and of the exit: one constructor runs at a time, one object is made at most, every call
that returns returns it, and a waiting call waits for one that can go on.  While the process is not
exiting the object lives and nothing goes wrong; a call is stopped by the assert, or reads a null
pointer where asserts are compiled out, only after the object was destroyed. -/
theorem instance_shared (B : Build) (noDestroy : Bool) (acts : List (Act τ)) {s : Singleton τ}
    (hrun : (instanceRuns B noDestroy).exec init acts = some s) : Shared B noDestroy s := by
  have hs := inv_run hrun
  refine ⟨fun c d hc hd => hs.tracked.exclusive hc hd, hs.length_made, hs.returned, ?_, ?_, ?_, ?_,
    fun c ok hover => goesOn hs hover ok⟩
  · intro c hplace hmade
    have hholds := hs.maker c hmade
    rw [hplace] at hholds
    cases hholds
  · intro hphase
    refine ⟨hs.running hphase, ?_⟩
    by_contra hhalt
    exact hs.halted hhalt (hs.running hphase)
  · have hlife := hs.life
    cases hvalue : s.value with
    | none =>
      rw [hvalue] at hlife
      exact ⟨[], by rw [List.append_nil, hlife.of_none]⟩
    | some o =>
      rw [hvalue] at hlife
      rw [hlife.of_some.2]
      exact List.nil_prefix
  · intro hhalt
    have hdestroyed := hs.halted hhalt
    have hlife := hs.life
    cases hvalue : s.value with
    | none =>
      rw [hvalue] at hlife
      have hsame := hlife.of_none
      exact ⟨hsame ▸ hdestroyed, hsame⟩
    | some o =>
      rw [hvalue] at hlife
      exact absurd hlife.of_some.2 hdestroyed

/-- The first call throws, the second makes the object, and the third finds it. -/
def threeCalls : List (Act (Nat)) :=
  [.move 0 true, .move 1 true, .move 0 true, .move 0 false, .move 1 true, .move 2 true, .move 1 true,
    .move 1 true, .move 1 true, .move 2 true, .move 1 true, .move 1 true, .move 2 true, .move 2 true]

theorem instance_shared_three :
    ∃ s, (instanceRuns .debug false).exec (init : Singleton (Nat)) threeCalls = some s ∧
      (s.place 0, s.place 1, s.place 2, s.made) = (.threw, .returned 1, .returned 1, [1]) ∧
      Shared .debug false s := by
  have hsome : ((instanceRuns .debug false).exec (init : Singleton (Nat)) threeCalls).map
      (fun s => (s.place 0, s.place 1, s.place 2, s.made)) =
        some (.threw, .returned 1, .returned 1, [1]) := by decide
  obtain ⟨s, hrun, hend⟩ := Option.map_eq_some_iff.mp hsome
  exact ⟨s, hrun, hend, instance_shared .debug false threeCalls hrun⟩

/-! ## The exit -/

/-- The object is not made while the process exits. -/
def Settled (s : Singleton τ) : Act τ → Prop
  | .move c _ => s.place c = .once → s.flag = .ready → s.phase = .running
  | .exit => s.flag = .ready ∨ s.flag = .done
  | .handle => True

instance (s : Singleton τ) : (a : Act τ) → Decidable (Settled s a)
  | .move c _ =>
    inferInstanceAs (Decidable (s.place c = .once → s.flag = .ready → s.phase = .running))
  | .exit => inferInstanceAs (Decidable (s.flag = .ready ∨ s.flag = .done))
  | .handle => .isTrue trivial

/-- What the exit still has to run: `Destroy` if there is an object for it, and the destructor of
`value_` until it has run. -/
inductive Pending : (value : Option τ) → Phase → List Handler → Prop
  | destroy (o : τ) {phase : Phase} (hphase : phase ≠ .ended) :
      Pending (some o) phase [.destroy, .valueDtor]
  | dtor (value : Option τ) {phase : Phase} (hphase : phase ≠ .ended) :
      Pending value phase [.valueDtor]
  | nothing {phase : Phase} (hphase : phase ≠ .running) : Pending none phase []

structure ExitInv (s : Singleton τ) : Prop where
  inv : Inv s
  settled : s.phase ≠ .running → ∀ c, s.flag ≠ .running c
  pending : Pending s.value s.phase s.handlers
  /-- Nobody has registered `Destroy` before who makes the object comes to it. -/
  fresh : ∀ c, (s.place c).making = true → s.handlers = [.valueDtor]
  sound : s.halt ≠ some destroyNull

omit [DecidableEq τ] in
theorem inside_of_making {p : Place τ} (h : p.making = true) : p.inside = true := by
  cases p with
  | construct => rfl
  | register => rfl
  | _ => cases h

theorem exitInv_init : ExitInv (init : Singleton τ) where
  inv := inv_init
  settled h := absurd rfl h
  pending := .dtor none nofun
  fresh _ _ := rfl
  sound := nofun

omit [DecidableEq τ] in
theorem Pending.cons {value : Option τ} {phase : Phase} {handler : Handler} {rest : List Handler}
    (h : Pending value phase (handler :: rest)) :
    phase ≠ .ended ∧ (handler = .destroy ∧ rest = [.valueDtor] ∧ value ≠ none ∨
      handler = .valueDtor ∧ rest = []) := by
  cases h with
  | destroy o hphase => exact ⟨hphase, .inl ⟨rfl, rfl, nofun⟩⟩
  | dtor value hphase => exact ⟨hphase, .inr ⟨rfl, rfl⟩⟩

omit [DecidableEq τ] in
theorem Pending.nil {value : Option τ} {phase : Phase} (h : Pending value phase []) :
    value = none ∧ phase ≠ .running := by
  cases h with
  | nothing hphase => exact ⟨rfl, hphase⟩

omit [DecidableEq τ] in
theorem Pending.exits {value : Option τ} {handlers : List Handler}
    (h : Pending value .running handlers) : Pending value .exiting handlers := by
  cases h with
  | destroy o => exact .destroy o nofun
  | dtor => exact .dtor value nofun
  | nothing hphase => exact absurd rfl hphase

/-- Before the object is made, a process that runs has nothing registered for it. -/
theorem ExitInv.handlers_of_ready (hs : ExitInv s) (hflag : s.flag = .ready)
    (hphase : s.phase = .running) : s.handlers = [.valueDtor] := by
  have hmade := hs.inv.made.ready hflag
  have hpending := hs.pending
  cases hhandlers : s.handlers with
  | nil =>
    rw [hhandlers] at hpending
    exact absurd hphase hpending.nil.2
  | cons handler rest =>
    rw [hhandlers] at hpending
    obtain ⟨-, ⟨rfl, -, -⟩ | ⟨rfl, rfl⟩⟩ := hpending.cons
    · exact absurd hmade (hs.inv.registered (by rw [hhandlers]; exact List.mem_cons_self))
    · rfl

/-- In the function the process runs. -/
theorem ExitInv.running (hs : ExitInv s) (hin : (s.place c).inside = true) : s.phase = .running := by
  by_contra hnot
  exact hs.settled hnot c ((hs.inv.tracked c).mp hin)

/-- Where `Destroy` is registered, there is an object for it. -/
theorem ExitInv.value_of_register (hs : ExitInv s) (hplace : s.place c = .register) :
    ∃ o, s.value = some o := by
  obtain ⟨-, hone⟩ := hs.inv.constructed (.inl hplace)
  have hdestroyed := hs.inv.running (hs.running (c := c) (by rw [hplace]; rfl))
  have hlife := hs.inv.life
  cases hvalue : s.value with
  | some o => exact ⟨o, rfl⟩
  | none =>
    rw [hvalue] at hlife
    have hsame := hlife.of_none
    rw [hdestroyed, hone] at hsame
    cases hsame

theorem Moved.pending (h : Moved noDestroy s c s') (hs : ExitInv s) :
    Pending s'.value s'.phase s'.handlers := by
  cases h with
  | made hplace =>
    have hrunning := hs.running (c := c) (by rw [hplace]; rfl)
    show Pending (some c) s.phase s.handlers
    rw [hs.fresh c (by rw [hplace]; rfl), hrunning]
    exact .dtor _ nofun
  | registered hplace hhandlers =>
    have hrunning := hs.running (c := c) (by rw [hplace]; rfl)
    rcases hhandlers with rfl | rfl
    · obtain ⟨o, hvalue⟩ := hs.value_of_register hplace
      show Pending s.value s.phase (.destroy :: s.handlers)
      rw [hs.fresh c (by rw [hplace]; rfl), hrunning, hvalue]
      exact .destroy o nofun
    · exact hs.pending
  | _ => exact hs.pending

theorem Moved.fresh (h : Moved noDestroy s c s')
    (hsettled : s.place c = .once → s.flag = .ready → s.phase = .running) (hs : ExitInv s)
    (hd : (s'.place d).making = true) : s'.handlers = [.valueDtor] := by
  by_cases hdc : d = c
  · subst hdc
    have hgoes {p : Place τ} (hd : ((s.goes d p).place d).making = true) : p.making = true := by
      rwa [goes_place] at hd
    cases h with
    | call => cases hgoes hd
    | start hplace hflag => exact hs.handlers_of_ready hflag (hsettled hplace hflag)
    | pass => cases hgoes hd
    | made hplace => exact hs.fresh d (by rw [hplace]; rfl)
    | threw => cases hgoes hd
    | registered => cases hgoes hd
    | finished => cases hgoes hd
    | checked => cases hgoes hd
    | returned => cases hgoes hd
    | halted => exact hs.fresh d hd
  · rw [h.others hdc] at hd
    cases h with
    | registered hplace =>
      -- two calls would be in the function
      have hc : (s.place c).inside = true := by
        rw [hplace]
        rfl
      exact absurd (hs.inv.tracked.exclusive (inside_of_making hd) hc) hdc
    | _ => exact hs.fresh d hd

theorem exitInv_move (h : Moved noDestroy s c s')
    (hsettled : s.place c = .once → s.flag = .ready → s.phase = .running) (hs : ExitInv s) :
    ExitInv s' := by
  have hinv := inv_move h hs.inv
  have hpending := h.pending hs
  have hfresh := fun d => h.fresh hsettled hs (d := d)
  cases h with
  | start hplace hflag =>
    exact ⟨hinv, fun hnot => absurd (hsettled hplace hflag) hnot, hpending, hfresh, hs.sound⟩
  | threw => exact ⟨hinv, fun _ => nofun, hpending, hfresh, hs.sound⟩
  | finished => exact ⟨hinv, fun _ => nofun, hpending, hfresh, hs.sound⟩
  | halted _ _ hhalt =>
    exact ⟨hinv, hs.settled, hpending, hfresh, fun h => hhalt (Option.some.inj h)⟩
  | _ => exact ⟨hinv, hs.settled, hpending, hfresh, hs.sound⟩

theorem exitInv_handle (h : Handled s s') (hphase : s.phase = .exiting) (hs : ExitInv s) :
    ExitInv s' := by
  have hinv := inv_handle h hphase hs.inv
  have hnot : s.phase ≠ .running := by
    rw [hphase]
    nofun
  have hout := hs.settled hnot
  have hnobody (d : τ) : ¬ (s.place d).making = true :=
    fun hd => hout d ((hs.inv.tracked d).mp (inside_of_making hd))
  have hpending := hs.pending
  cases h with
  | ended hhandlers =>
    rw [hhandlers] at hpending
    refine ⟨hinv, fun _ => hout, ?_, fun d hd => absurd hd (hnobody d), hs.sound⟩
    show Pending s.value .ended s.handlers
    rw [hpending.nil.1, hhandlers]
    exact .nothing nofun
  | destroyed hhandlers hvalue =>
    rw [hhandlers] at hpending
    obtain ⟨hended, ⟨-, rfl, -⟩ | ⟨h, -⟩⟩ := hpending.cons
    · exact ⟨hinv, fun _ => hout, .dtor none hended, fun d hd => absurd hd (hnobody d), hs.sound⟩
    · cases h
  | null hhandlers hvalue =>
    rw [hhandlers] at hpending
    obtain ⟨-, ⟨-, -, hsome⟩ | ⟨h, -⟩⟩ := hpending.cons
    · exact absurd hvalue hsome
    · cases h
  | valueDtor hhandlers =>
    rw [hhandlers] at hpending
    obtain ⟨-, ⟨h, -⟩ | ⟨-, rfl⟩⟩ := hpending.cons
    · cases h
    · exact ⟨hinv, fun _ => hout, .nothing hnot, fun d hd => absurd hd (hnobody d), hs.sound⟩

theorem exitInv_step (h : Stepped noDestroy s a s') (hsettled : Settled s a) (hs : ExitInv s) :
    ExitInv s' := by
  have hinv := inv_step h hs.inv
  cases h with
  | move h => exact exitInv_move h hsettled hs
  | exit hphase =>
    have hpending := hs.pending
    rw [hphase] at hpending
    refine ⟨hinv, fun _ c hc => ?_, hpending.exits, hs.fresh, hs.sound⟩
    rcases hsettled with hflag | hflag
    · cases hflag.symm.trans hc
    · cases hflag.symm.trans hc
  | handle hphase h => exact exitInv_handle h hphase hs

theorem exitInv_run {acts : List (Act τ)}
    (hsettled : (instanceRuns B noDestroy).Along Settled init acts)
    (hrun : (instanceRuns B noDestroy).exec init acts = some s) : ExitInv s := by
  refine StepSystem.exec_invariant_along (C := Settled) ?_ exitInv_init hsettled hrun
  intro s a s' hs hC hstep
  exact exitInv_step (step_cases hstep).2.2 hC hs

/-- What the exit leaves behind, and what it never does. -/
structure Destroyed (s : Singleton τ) : Prop where
  /-- `Destroy` always finds the object. -/
  sound : s.halt ≠ some destroyNull
  ended : s.phase = .ended → s.destroyed = s.made ∧ s.value = none

/-- **Destroyed once.**  If the object is not made while the process exits, then whatever the
interleaving: `Destroy` finds an object whenever it is run, and when the exit has come to its end what
was made is destroyed, once; whether `T` has `NoDestroy` or not, and whether `std::atexit` could
register `Destroy` or not, because what `Destroy` leaves is left to the destructor of `value_`. -/
theorem destroyed_at_exit (B : Build) (noDestroy : Bool) (acts : List (Act τ)) {s : Singleton τ}
    (hsettled : (instanceRuns B noDestroy).Along Settled init acts)
    (hrun : (instanceRuns B noDestroy).exec init acts = some s) : Destroyed s := by
  have hs := exitInv_run hsettled hrun
  refine ⟨hs.sound, fun hended => ?_⟩
  have hpending := hs.pending
  have hlife := hs.inv.life
  cases hhandlers : s.handlers with
  | nil =>
    rw [hhandlers] at hpending
    rw [hpending.nil.1] at hlife
    exact ⟨hlife.of_none, hpending.nil.1⟩
  | cons handler rest =>
    rw [hhandlers] at hpending
    exact absurd hended hpending.cons.1

/-- The three calls, and the exit. -/
def threeCallsAndExit : List (Act (Nat)) := threeCalls ++ [.exit, .handle, .handle, .handle]

theorem destroyed_at_exit_three :
    ∃ s, (instanceRuns .debug false).exec (init : Singleton (Nat)) threeCallsAndExit = some s ∧
      (s.phase, s.destroyed) = (.ended, [1]) ∧ Destroyed s := by
  have hsome : ((instanceRuns .debug false).exec (init : Singleton (Nat)) threeCallsAndExit).map
      (fun s => (s.phase, s.destroyed)) = some (.ended, [1]) := by decide
  obtain ⟨s, hrun, hend⟩ := Option.map_eq_some_iff.mp hsome
  exact ⟨s, hrun, hend, destroyed_at_exit .debug false threeCallsAndExit (by decide) hrun⟩

/-- An object that is made while the process exits can be destroyed before `Destroy` is registered. -/
example : ((instanceRuns .debug false).exec (init : Singleton (Nat))
    [.move 0 true, .move 0 true, .move 0 true, .exit, .handle, .move 0 true, .handle]).map
      (fun s => s.halt) = some (some destroyNull) := by decide

end Singleton

end TurboNet.Base
