/-
# TurboNet.Net.EventLoop — which loop a thread knows as its own.

`net/event_loop.{h,cpp}`: the constructor, the destructor, `Loop` and `GetEventLoopCurrentThread`.
The world is the live `EventLoop` objects at their addresses `α` and one `t_loop_in_this_thread` for
each thread `τ`; a thread is named by its `CachedTid()`.  `Loop` is two moves, before and after its
`poll`, so that other threads move in between.

The constructor refuses a thread that has a loop, but the destructor clears the pointer of whichever
thread runs it: a loop destroyed away from home leaves its own thread with a pointer to it
(`loops_known_iff`).
-/
import TurboNet.Lib.StepSystem
import TurboNet.Logger.Logger
import Mathlib.Logic.Function.Basic

namespace TurboNet.Net

open TurboNet.Lib
open TurboNet.Logger

/-- The data members of `turbo::EventLoop`; `threadId` is the thread that constructed it. -/
structure EventLoop (τ : Type) where
  looping : Bool
  quit : Bool
  threadId : τ
  deriving DecidableEq, Repr

namespace EventLoop

/-- `t_loop_in_this_thread` of every thread, the live loops, and the loop whose `Loop` a thread is
in. -/
structure World (τ α : Type) where
  tLoopInThisThread : τ → Option α
  loops : α → Option (EventLoop τ)
  inLoop : τ → Option α

variable {τ α : Type} {B : Build} {t u : τ} {a b : α} {w w' : World τ α}

/-- What a thread does with a loop; it returns or ends the process. -/
abbrev Method (τ α : Type) := EStateM Halt (World τ α)

def World.init : World τ α where
  tLoopInThisThread _ := none
  loops _ := none
  inLoop _ := none

/-- `EventLoop::GetEventLoopCurrentThread`, called by thread `t`. -/
def getEventLoopCurrentThread (w : World τ α) (t : τ) : Option α := w.tLoopInThisThread t

variable [DecidableEq τ] [DecidableEq α]

/-- `EventLoop::EventLoop` of thread `t`, at the address `a`. -/
def construct (t : τ) (a : α) : Method τ α Unit := do
  modify fun w => { w with
    loops := Function.update w.loops a (some { looping := false, quit := false, threadId := t }) }
  let w ← get
  match w.tLoopInThisThread t with
  | some _ => throw (.aborted "EventLoop was create in ")
  | none => set { w with tLoopInThisThread := Function.update w.tLoopInThisThread t (some a) }

/-- `EventLoop::~EventLoop`, run by thread `t`. -/
def destroy (B : Build) (t : τ) (a : α) : Method τ α Unit := do
  let w ← get
  match w.loops a with
  | none => throw (.undefined "this")
  | some l =>
    B.assert "!looping_" (l.looping = false)
    set { w with
      tLoopInThisThread := Function.update w.tLoopInThisThread t none,
      loops := Function.update w.loops a none }

/-- `EventLoop::Loop`, up to its `poll`. -/
def loop (B : Build) (t : τ) (a : α) : Method τ α Unit := do
  let w ← get
  match w.loops a with
  | none => throw (.undefined "this")
  | some l =>
    B.assert "!looping_" (l.looping = false)
    if l.threadId = t then
      set { w with
        loops := Function.update w.loops a (some { l with looping := true, quit := false }),
        inLoop := Function.update w.inLoop t (some a) }
    else
      throw (.aborted "EventLoop::AbortNotInLoopThread, it was created in thread = ")

/-- `EventLoop::Loop`, from its `poll` on. -/
def leaveLoop (t : τ) (a : α) : Method τ α Unit := do
  let w ← get
  match w.loops a with
  | none => throw (.undefined "looping_")
  | some l =>
    set { w with
      loops := Function.update w.loops a (some { l with looping := false }),
      inLoop := Function.update w.inLoop t none }

/-! ## Runs -/

/-- What thread `t` does next. -/
inductive Act (τ α : Type) where
  | construct (t : τ) (a : α)
  | destroy (t : τ) (a : α)
  | loop (t : τ) (a : α)
  | leaveLoop (t : τ) (a : α)
  deriving DecidableEq, Repr

/-- A loop is constructed where none is and used where one is, and a thread inside `Loop` does
nothing but leave it. -/
def Act.Possible (w : World τ α) : Act τ α → Prop
  | .construct t a => w.inLoop t = none ∧ w.loops a = none
  | .destroy t a => w.inLoop t = none ∧ (w.loops a).isSome
  | .loop t a => w.inLoop t = none ∧ (w.loops a).isSome
  | .leaveLoop t a => w.inLoop t = some a

instance (w : World τ α) : (act : Act τ α) → Decidable (act.Possible w)
  | .construct t a => inferInstanceAs (Decidable (w.inLoop t = none ∧ w.loops a = none))
  | .destroy t a | .loop t a =>
    inferInstanceAs (Decidable (w.inLoop t = none ∧ (w.loops a).isSome))
  | .leaveLoop t a => inferInstanceAs (Decidable (w.inLoop t = some a))

def Act.method (B : Build) : Act τ α → Method τ α Unit
  | .construct t a => EventLoop.construct t a
  | .destroy t a => EventLoop.destroy B t a
  | .loop t a => EventLoop.loop B t a
  | .leaveLoop t a => EventLoop.leaveLoop t a

/-- The runs of any number of threads with their loops.  An assert that fails and `LOG_FATAL` end the
process, so no state follows them. -/
def loopRuns (τ α : Type) [DecidableEq τ] [DecidableEq α] (B : Build) :
    StepSystem (World τ α) (Act τ α) where
  step w act :=
    if act.Possible w then
      match (act.method B).run w with
      | .ok _ w' => some w'
      | .error _ _ => none
    else
      none

/-! ## What each act does -/

/-- The new loop is its thread's, which had none. -/
theorem construct_ok (hrun : (construct t a).run w = .ok () w') :
    w.tLoopInThisThread t = none ∧
      w'.tLoopInThisThread = Function.update w.tLoopInThisThread t (some a) ∧
      w'.loops = Function.update w.loops a
        (some { looping := false, quit := false, threadId := t }) := by
  unfold construct at hrun
  obtain ⟨_, w₁, hmodify, hrest⟩ := bind_ok_iff.mp hrun
  obtain rfl := modify_ok_iff.mp hmodify
  rw [run_get_bind] at hrest
  -- a thread that has a loop already aborts
  split at hrest
  next => cases hrest
  next hnone =>
    cases hrest
    exact ⟨hnone, rfl, rfl⟩

/-- The destroyed loop is gone, and so is the pointer of the thread that destroyed it. -/
theorem destroy_ok (hrun : (destroy B t a).run w = .ok () w') :
    w'.tLoopInThisThread = Function.update w.tLoopInThisThread t none ∧
      w'.loops = Function.update w.loops a none := by
  unfold destroy at hrun
  rw [run_get_bind] at hrun
  split at hrun
  next => cases hrun
  next l hl =>
    obtain ⟨_, w₁, hassert, hset⟩ := bind_ok_iff.mp hrun
    obtain ⟨-, rfl⟩ := Build.assert_ok_iff.mp hassert
    cases hset
    exact ⟨rfl, rfl⟩

/-- The live loops and who constructed them, and the threads' pointers, are as before. -/
structure SameOwners (w w' : World τ α) : Prop where
  pointers : w'.tLoopInThisThread = w.tLoopInThisThread
  owners : ∀ a, (w'.loops a).map threadId = (w.loops a).map threadId

omit [DecidableEq τ] in
theorem sameOwners_update {l l' : EventLoop τ} {inLoop : τ → Option α} (hl : w.loops a = some l)
    (hsame : l'.threadId = l.threadId) :
    SameOwners w { w with loops := Function.update w.loops a (some l'), inLoop := inLoop } := by
  refine ⟨rfl, fun b => ?_⟩
  show (Function.update w.loops a (some l') b).map threadId = _
  rw [Function.update_apply]
  split
  next hb =>
    subst hb
    rw [hl, Option.map_some, Option.map_some, hsame]
  next => rfl

theorem loop_ok (hrun : (loop B t a).run w = .ok () w') : SameOwners w w' := by
  unfold loop at hrun
  rw [run_get_bind] at hrun
  split at hrun
  next => cases hrun
  next l hl =>
    obtain ⟨_, w₁, hassert, hrest⟩ := bind_ok_iff.mp hrun
    obtain ⟨-, rfl⟩ := Build.assert_ok_iff.mp hassert
    split at hrest
    next =>
      cases hrest
      exact sameOwners_update hl rfl
    next => cases hrest

theorem leaveLoop_ok (hrun : (leaveLoop t a).run w = .ok () w') : SameOwners w w' := by
  unfold leaveLoop at hrun
  rw [run_get_bind] at hrun
  split at hrun
  next => cases hrun
  next l hl =>
    cases hrun
    exact sameOwners_update hl rfl

/-! ## Each thread knows its own loop -/

/-- On every thread `GetEventLoopCurrentThread()` is the live loop constructed on that thread, and
null if there is none. -/
def Truthful (w : World τ α) : Prop :=
  ∀ t a, getEventLoopCurrentThread w t = some a ↔ (w.loops a).map threadId = some t

/-- A loop is destroyed on the thread that constructed it. -/
def AtHome (w : World τ α) : Act τ α → Prop
  | .destroy t a => (w.loops a).map threadId = some t
  | _ => True

instance (w : World τ α) : (act : Act τ α) → Decidable (AtHome w act)
  | .destroy t a => inferInstanceAs (Decidable ((w.loops a).map threadId = some t))
  | .construct _ _ | .loop _ _ | .leaveLoop _ _ => .isTrue trivial

theorem step_eq {act : Act τ α} (hstep : (loopRuns τ α B).step w act = some w') :
    act.Possible w ∧ (act.method B).run w = .ok () w' := by
  change (if act.Possible w then
    match (act.method B).run w with
      | .ok _ w' => some w'
      | .error _ _ => none
    else none) = some w' at hstep
  split at hstep
  next hpossible =>
    split at hstep
    next u w₁ hrun =>
      cases hstep
      exact ⟨hpossible, hrun⟩
    next => cases hstep
  next => cases hstep

omit [DecidableEq τ] [DecidableEq α] in
theorem SameOwners.truthful (h : SameOwners w w') (htruth : Truthful w) : Truthful w' := by
  intro t a
  rw [getEventLoopCurrentThread, h.pointers, h.owners]
  exact htruth t a

/-- **Every act but a destruction away from home** keeps the threads' pointers truthful. -/
theorem truthful_step {act : Act τ α} (htruth : Truthful w) (hhome : AtHome w act)
    (hstep : (loopRuns τ α B).step w act = some w') : Truthful w' := by
  obtain ⟨hpossible, hrun⟩ := step_eq hstep
  cases act with
  | construct t a =>
    obtain ⟨hnone, hpointers, hloops⟩ := construct_ok hrun
    obtain ⟨-, hfree⟩ := hpossible
    intro u b
    have hold := htruth u b
    rw [getEventLoopCurrentThread] at hold ⊢
    rw [hpointers, hloops, Function.update_apply, Function.update_apply]
    by_cases hu : u = t
    · subst hu
      by_cases hb : b = a
      · simp [hb]
      · -- a second loop of the thread would be its pointer
        rw [hnone] at hold
        simpa [hb, Ne.symm hb] using hold
    · by_cases hb : b = a
      · subst hb
        rw [hfree] at hold
        simpa [hu, Ne.symm hu] using hold
      · simpa [hu, hb] using hold
  | destroy t a =>
    obtain ⟨hpointers, hloops⟩ := destroy_ok hrun
    -- at home the pointer that is cleared is the one to the destroyed loop
    have hmine : getEventLoopCurrentThread w t = some a := (htruth t a).mpr hhome
    intro u b
    have hold := htruth u b
    rw [getEventLoopCurrentThread] at hold hmine ⊢
    rw [hpointers, hloops, Function.update_apply, Function.update_apply]
    by_cases hu : u = t
    · subst hu
      rw [hmine] at hold
      by_cases hb : b = a
      · simp [hb]
      · simpa [hb, Ne.symm hb] using hold
    · by_cases hb : b = a
      · subst hb
        have hothers : (w.loops b).map threadId ≠ some u := by
          rw [hhome]
          exact fun h => hu (Option.some.inj h).symm
        simpa [hu, hothers] using hold
      · simpa [hu, hb] using hold
  | loop t a => exact (loop_ok hrun).truthful htruth
  | leaveLoop t a => exact (leaveLoop_ok hrun).truthful htruth

/-- A loop destroyed away from home is still its own thread's. -/
theorem atHome_of_truthful {act : Act τ α} (htruth : Truthful w)
    (hstep : (loopRuns τ α B).step w act = some w') (htruth' : Truthful w') : AtHome w act := by
  obtain ⟨hpossible, hrun⟩ := step_eq hstep
  cases act with
  | destroy t a =>
    obtain ⟨hpointers, hloops⟩ := destroy_ok hrun
    obtain ⟨-, hlive⟩ := hpossible
    obtain ⟨l, hl⟩ := Option.isSome_iff_exists.mp hlive
    show (w.loops a).map threadId = some t
    by_contra haway
    have howner : (w.loops a).map threadId = some l.threadId := by rw [hl]; rfl
    have hother : l.threadId ≠ t := by
      rintro rfl
      exact haway howner
    have hdangling : getEventLoopCurrentThread w' l.threadId = some a := by
      rw [getEventLoopCurrentThread, hpointers, Function.update_of_ne hother]
      exact (htruth _ _).mpr howner
    have hgone := (htruth' _ _).mp hdangling
    rw [hloops, Function.update_self] at hgone
    cases hgone
  | _ => trivial

omit [DecidableEq τ] [DecidableEq α] in
theorem truthful_init : Truthful (World.init : World τ α) := fun _ _ => ⟨nofun, nofun⟩

/-- **When each thread knows its own loop.** In every run of constructions, destructions and `Loop`
calls on any number of threads: in every state exactly when every loop is destroyed on the thread
that constructed it. -/
theorem loops_known_iff (B : Build) (acts : List (Act τ α)) {w : World τ α}
    (hrun : (loopRuns τ α B).exec World.init acts = some w) :
    (loopRuns τ α B).Throughout Truthful World.init acts ↔
      (loopRuns τ α B).Along AtHome World.init acts :=
  StepSystem.throughout_iff_along (J := fun _ => True) (fun _ _ _ _ _ => trivial)
    (fun _ _ _ _ htruth hhome hstep => truthful_step htruth hhome hstep)
    (fun _ _ _ _ htruth hstep htruth' => atHome_of_truthful htruth hstep htruth')
    trivial truthful_init hrun

/-- Two threads with a loop each; the first runs its loop, and both destroy their own. -/
def twoAtHome : List (Act Nat Nat) :=
  [.construct 0 0, .construct 1 1, .loop 0 0, .destroy 1 1, .leaveLoop 0 0, .destroy 0 0,
    .construct 1 0]

theorem loops_known_iff_twoAtHome :
    ∃ w, (loopRuns Nat Nat .debug).exec World.init twoAtHome = some w ∧
      (loopRuns Nat Nat .debug).Throughout Truthful World.init twoAtHome :=
  ⟨_, rfl, (loops_known_iff .debug twoAtHome rfl).mpr (by decide)⟩

/-- Thread 1 destroys the loop of thread 0: thread 0 is left with a pointer to it, and thread 1 with
none to its own. -/
theorem loop_destroyed_away :
    ∃ w, (loopRuns Nat Nat .debug).exec World.init [.construct 0 0, .construct 1 1, .destroy 1 0] =
        some w ∧
      getEventLoopCurrentThread w 0 = some 0 ∧ w.loops 0 = none ∧
      getEventLoopCurrentThread w 1 = none ∧ (w.loops 1).map threadId = some 1 ∧
      ¬ Truthful w := by
  refine ⟨_, rfl, rfl, rfl, rfl, rfl, fun htruth => ?_⟩
  have hgone := (htruth 0 0).mp rfl
  cases hgone

end EventLoop

end TurboNet.Net
