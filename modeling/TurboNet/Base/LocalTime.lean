/-
# TurboNet.Base.LocalTime — `ToFormatString` called by several threads.

`std::localtime` fills one `struct tm` of the C library and returns its address, and `snprintf` reads
what is there when it runs.  Between these two steps of a thread any other thread may call
`localtime`, and the first one then prints the other's time.
-/
import TurboNet.Base.Timestamp
import TurboNet.Lib.StepSystem
import Mathlib.Logic.Function.Basic

namespace TurboNet.Base

open TurboNet.Lib

/-- What `snprintf` writes of `*local_time` into the 64 chars of `buf`, for the timestamp `t`. -/
def printLocal (tm : Tm) (t : Timestamp) (showMicroseconds : Bool) : String :=
  let text :=
    if showMicroseconds then
      tm.print ++ "." ++ printZero 6 (t.timeSinceEpochMicroSeconds.tmod kMicroSecondsPerSecond)
    else tm.print
  String.ofList (text.toList.take 63)

/-- `ToFormatString(show_microseconds)`, undisturbed. -/
def Timestamp.formatted (localtime : Int → Tm) (t : Timestamp) (showMicroseconds : Bool) : String :=
  printLocal (localtime t.timeSinceEpochSeconds) t showMicroseconds

/-- `ToFormatString(false)`, if nothing of it is cut off. -/
theorem Timestamp.formatted_false {localtime : Int → Tm} {t : Timestamp}
    (hfits : (t.toFormatString localtime).toList.length ≤ 63) :
    t.formatted localtime false = t.toFormatString localtime := by
  rw [toFormatString_eq] at hfits ⊢
  show String.ofList ((localtime t.timeSinceEpochSeconds).print.toList.take 63) = _
  rw [List.take_of_length_le hfits, String.ofList_toList]

namespace LocalTime

/-- Where a thread stands: outside `ToFormatString`, or in a call for a timestamp of its own, past
`localtime`. -/
inductive Place where
  | outside
  | called (t : Timestamp) (showMicroseconds : Bool)
  deriving DecidableEq

/-- A call that has returned. -/
structure Result (τ : Type) where
  thread : τ
  timestamp : Timestamp
  showMicroseconds : Bool
  text : String
  deriving DecidableEq

/-- The text is the one of the call's own timestamp. -/
def Result.Own {τ : Type} (localtime : Int → Tm) (r : Result τ) : Prop :=
  r.text = r.timestamp.formatted localtime r.showMicroseconds

end LocalTime

/-- The `struct tm` of the C library, the threads, and the calls that have returned, oldest first. -/
structure LocalTime (τ : Type) where
  tm : Tm
  place : τ → LocalTime.Place
  results : List (LocalTime.Result τ)

namespace LocalTime

variable {τ : Type}

def init (tm : Tm) : LocalTime τ where
  tm := tm
  place _ := .outside
  results := []

inductive Act (τ : Type) where
  /-- The thread calls `localtime` for its timestamp. -/
  | localtime (i : τ) (t : Timestamp) (showMicroseconds : Bool)
  /-- The thread runs `snprintf` and returns. -/
  | snprintf (i : τ)

variable [DecidableEq τ]

/-- `localtime` has filled the struct for thread `i`. -/
def filled (localtime : Int → Tm) (s : LocalTime τ) (i : τ) (t : Timestamp)
    (showMicroseconds : Bool) : LocalTime τ :=
  { s with
    tm := localtime t.timeSinceEpochSeconds
    place := Function.update s.place i (.called t showMicroseconds) }

/-- `snprintf` has read the struct for thread `i`. -/
def printed (s : LocalTime τ) (i : τ) (t : Timestamp) (showMicroseconds : Bool) : LocalTime τ :=
  { s with
    place := Function.update s.place i .outside
    results := s.results ++
      [{ thread := i
         timestamp := t
         showMicroseconds := showMicroseconds
         text := printLocal s.tm t showMicroseconds }] }

/-- Any number of threads that format their timestamps, in any order of their steps. -/
def formatting (localtime : Int → Tm) : StepSystem (LocalTime τ) (Act τ) where
  step s
    | .localtime i t showMicroseconds =>
      if s.place i = .outside then some (s.filled localtime i t showMicroseconds) else none
    | .snprintf i =>
      match s.place i with
      | .outside => none
      | .called t showMicroseconds => some (s.printed i t showMicroseconds)

variable {localtime : Int → Tm} {s s' : LocalTime τ} {i : τ} {t : Timestamp} {b : Bool}

theorem step_localtime : (formatting localtime).step s (.localtime i t b) = some s' ↔
    s.place i = .outside ∧ s' = s.filled localtime i t b := by
  show (if s.place i = .outside then some (s.filled localtime i t b) else none) = some s' ↔ _
  by_cases h : s.place i = .outside
  · rw [if_pos h]
    exact ⟨fun hs => ⟨h, (Option.some.inj hs).symm⟩, fun hs => congrArg some hs.2.symm⟩
  · rw [if_neg h]
    exact ⟨nofun, fun hs => absurd hs.1 h⟩

theorem step_snprintf : (formatting localtime).step s (.snprintf i) = some s' ↔
    ∃ t b, s.place i = .called t b ∧ s' = s.printed i t b := by
  simp only [formatting]
  split
  · rename_i h
    refine ⟨nofun, ?_⟩
    rintro ⟨t, b, hcalled, -⟩
    rw [h] at hcalled
    cases hcalled
  · rename_i t b h
    constructor
    · intro hs
      exact ⟨t, b, h, (Option.some.inj hs).symm⟩
    · rintro ⟨t', b', hcalled, rfl⟩
      rw [h] at hcalled
      cases hcalled
      rfl

/-! ## Undisturbed calls -/

/-- Every call that has returned gave the time of its own timestamp. -/
def OwnResults (localtime : Int → Tm) (s : LocalTime τ) : Prop :=
  ∀ r ∈ s.results, r.Own localtime

/-- Every thread past `localtime` would print its own time now. -/
def Pending (localtime : Int → Tm) (s : LocalTime τ) : Prop :=
  ∀ i t b, s.place i = .called t b → printLocal s.tm t b = t.formatted localtime b

/-- A call of `localtime` is made only when every thread between its own call and `snprintf` shows
the same local time for its timestamp as for the caller's. -/
def Undisturbing (localtime : Int → Tm) (s : LocalTime τ) : Act τ → Prop
  | .localtime _ t _ =>
    ∀ j u b, s.place j = .called u b →
      printLocal (localtime t.timeSinceEpochSeconds) u b = u.formatted localtime b
  | .snprintf _ => True

theorem pending_filled (hpending : ∀ j u b, s.place j = .called u b →
      printLocal (localtime t.timeSinceEpochSeconds) u b = u.formatted localtime b) :
    Pending localtime (s.filled localtime i t b) := by
  intro j u b' hj
  by_cases hji : j = i
  · subst hji
    have hown : (s.filled localtime j t b).place j = .called t b := Function.update_self ..
    rw [hown] at hj
    cases hj
    rfl
  · have hother : (s.filled localtime i t b).place j = s.place j :=
      Function.update_of_ne hji _ _
    rw [hother] at hj
    exact hpending j u b' hj

theorem pending_printed (h : Pending localtime s) : Pending localtime (s.printed i t b) := by
  intro j u b' hj
  by_cases hji : j = i
  · subst hji
    have hown : (s.printed j t b).place j = .outside := Function.update_self ..
    rw [hown] at hj
    cases hj
  · have hother : (s.printed i t b).place j = s.place j := Function.update_of_ne hji _ _
    rw [hother] at hj
    exact h j u b' hj

theorem ownResults_printed (h : OwnResults localtime s)
    (hown : printLocal s.tm t b = t.formatted localtime b) :
    OwnResults localtime (s.printed i t b) := by
  intro r hr
  rcases List.mem_append.mp hr with hr | hr
  · exact h r hr
  · rw [List.mem_singleton.mp hr]
    exact hown

/-- An undisturbing step keeps what is printed, and what will be, each thread's own. -/
theorem own_step {a : Act τ} (h : Pending localtime s ∧ OwnResults localtime s)
    (ha : Undisturbing localtime s a) (hstep : (formatting localtime).step s a = some s') :
    Pending localtime s' ∧ OwnResults localtime s' := by
  cases a with
  | localtime i t b =>
    obtain ⟨-, rfl⟩ := step_localtime.mp hstep
    exact ⟨pending_filled ha, h.2⟩
  | snprintf i =>
    obtain ⟨t, b, hcalled, rfl⟩ := step_snprintf.mp hstep
    exact ⟨pending_printed h.1, ownResults_printed h.2 (h.1 i t b hcalled)⟩

/-- After a call that disturbs a thread, that thread's `snprintf` prints a time that is not its
own. -/
theorem mixed_up_of_disturbing {a : Act τ} (ha : ¬ Undisturbing localtime s a)
    (hstep : (formatting localtime).step s a = some s') :
    ∃ j s'', (formatting localtime).step s' (.snprintf j) = some s'' ∧
      ¬ OwnResults localtime s'' := by
  cases a with
  | snprintf i => exact absurd trivial ha
  | localtime i t b =>
    obtain ⟨houtside, rfl⟩ := step_localtime.mp hstep
    simp only [Undisturbing, not_forall] at ha
    obtain ⟨j, u, b', hj, hother⟩ := ha
    -- the caller itself stood outside
    have hji : j ≠ i := by
      rintro rfl
      rw [houtside] at hj
      cases hj
    have hstill : (s.filled localtime i t b).place j = .called u b' := by
      rw [← hj]
      exact Function.update_of_ne hji _ _
    refine ⟨j, _, step_snprintf.mpr ⟨u, b', hstill, rfl⟩, ?_⟩
    intro hown
    exact hother (hown _ (List.mem_append_right _ (List.mem_singleton_self _)))

/-- **When concurrent formatting mixes no times.** In every run in which no call of `localtime`
disturbs a thread between its own call and its `snprintf`, every result is the formatted time of the
thread's own timestamp; after a call that does disturb one, the next step can give a result that is
not. -/
theorem own_results_of_undisturbing (localtime : Int → Tm) (tm : Tm) (as : List (Act τ)) :
    ((formatting localtime).Along (Undisturbing localtime) (init tm) as →
      (formatting localtime).Throughout (OwnResults localtime) (init tm) as) ∧
    ∀ s a s', (formatting localtime).exec (init tm) as = some s →
      (formatting localtime).step s a = some s' → ¬ Undisturbing localtime s a →
      ∃ j s'', (formatting localtime).step s' (.snprintf j) = some s'' ∧
        ¬ OwnResults localtime s'' := by
  constructor
  · rintro halong bs cs s rfl hrun
    have hinit : Pending localtime (init tm : LocalTime τ) ∧
        OwnResults localtime (init tm : LocalTime τ) := by
      constructor
      · intro i t b hi
        cases hi
      · intro r hr
        exact absurd hr List.not_mem_nil
    have hboth := StepSystem.exec_invariant_along
      (fun _ _ _ hs hC hstep => own_step hs hC hstep) hinit
      (StepSystem.along_append_left halong) hrun
    exact hboth.2
  · intro s a s' _ hstep ha
    exact mixed_up_of_disturbing ha hstep

/-- UTC in the first minute. -/
def firstMinute (seconds : Int) : Tm where
  year := 70
  mon := 0
  mday := 1
  hour := 0
  min := 0
  sec := seconds

/-- Second 1. -/
def secondOne : Timestamp := ⟨1000000000⟩

/-- Second 2. -/
def secondTwo : Timestamp := ⟨2000000000⟩

omit [DecidableEq τ] in
/-- A call made while no thread is past `localtime` disturbs none. -/
theorem undisturbing_of_outside (h : ∀ j, s.place j = .outside) (a : Act τ) :
    Undisturbing localtime s a := by
  cases a with
  | localtime i t b =>
    intro j u b' hj
    rw [h j] at hj
    cases hj
  | snprintf i => trivial

/-- Two threads in turn, and two calls of which the second disturbs the first. -/
theorem own_results_of_undisturbing_two :
    (formatting firstMinute).Throughout (OwnResults firstMinute) (init (firstMinute 0))
        [.localtime false secondOne false, .snprintf false, .localtime true secondTwo true,
          .snprintf true] ∧
      ∃ j s'', (formatting firstMinute).step
          (((init (firstMinute 0)).filled firstMinute false secondOne false).filled firstMinute true
            secondTwo false) (.snprintf j) = some s'' ∧ ¬ OwnResults firstMinute s'' := by
  constructor
  · refine (own_results_of_undisturbing firstMinute (firstMinute 0) _).1 ?_
    refine ⟨undisturbing_of_outside (fun _ => rfl) _, ?_⟩
    rintro s₁ ⟨⟩
    refine ⟨trivial, ?_⟩
    rintro s₂ ⟨⟩
    refine ⟨undisturbing_of_outside (by decide) _, ?_⟩
    rintro s₃ ⟨⟩
    refine ⟨trivial, ?_⟩
    rintro s₄ ⟨⟩
    trivial
  · refine (own_results_of_undisturbing firstMinute (firstMinute 0)
      [.localtime false secondOne false]).2 _ (.localtime true secondTwo false) _ rfl rfl ?_
    intro hundisturbing
    exact absurd (hundisturbing false secondOne false rfl) (by decide)

/-- Two threads format the seconds 1 and 2, and both texts show second 2. -/
theorem seconds_mixed_up :
    ∃ s, (formatting firstMinute).exec (init (firstMinute 0))
        [.localtime false secondOne false, .localtime true secondTwo false, .snprintf false,
          .snprintf true] = some s ∧
      s.results.map Result.text = ["1970-01-01 00:00:02", "1970-01-01 00:00:02"] ∧
      ¬ OwnResults firstMinute s := by
  refine ⟨_, rfl, by decide, ?_⟩
  intro hown
  have hfirst := hown _ (List.mem_cons_self ..)
  unfold Result.Own at hfirst
  exact absurd hfirst (by decide)

end LocalTime

end TurboNet.Base
