/-
# TurboNet.Base.MutexLock — a mutex that knows its holder, and its conditions.

`base/mutex.{h,cpp}` and `base/condition.{h,cpp}`: one `MutexLock` with any number of `Condition`s
`κ`, and threads `τ` that enter guard sections (`MutexLockGuard`), wait there, and notify from
anywhere.  Each lock and unlock of the native mutex, each write of `holder_`, and the release and
the reacquisition inside `cond_.wait` is a step of its own; `Place` is where a thread stands between
two of them.

`cond_.wait(lock_)` releases and reacquires the native mutex of `lock_`, which every waiting thread
shares and which owns it for good (`std::adopt_lock`).  Releasing and parking are one step; a parked
thread is woken by a notification, by its time-out, or by nothing at all.  `WaitForSeconds` is
`Wait` with a time-out; the answer it takes from the clock is not modelled.
-/
import TurboNet.Lib.StepSystem
import Mathlib.Logic.Function.Basic

namespace TurboNet.Base

open TurboNet.Lib

namespace MutexLock

/-- Where a thread stands in the code of a `MutexLock` and its conditions. -/
inductive Place (κ : Type) where
  /-- Outside any guard section. -/
  | outside
  /-- In `Lock`, with `AssignHolder` to come. -/
  | locked
  /-- In the guard section. -/
  | inside
  /-- In `Wait`, past `AssertLocked`. -/
  | asserted (c : κ) (timed : Bool)
  /-- In `Wait`, past the constructor of the `UnAssignGuard`. -/
  | unassigned (c : κ) (timed : Bool)
  /-- In `cond_.wait`, asleep. -/
  | parked (c : κ) (timed : Bool)
  /-- In `cond_.wait`, about to lock the native mutex again. -/
  | woken
  /-- Out of `cond_.wait`, with the destructor of the `UnAssignGuard` to come. -/
  | reacquired
  /-- In `UnLock`, past `UnAssignHolder`. -/
  | leaving
  deriving DecidableEq, Repr

namespace Place

variable {κ : Type}

/-- The thread owns the native mutex. -/
def owns : Place κ → Bool
  | locked | inside | asserted .. | unassigned .. | reacquired | leaving => true
  | outside | parked .. | woken => false

/-- The thread has written its id to `holder_` and not yet taken it back. -/
def shows : Place κ → Bool
  | inside | asserted .. => true
  | _ => false

theorem owns_of_shows {p : Place κ} (h : p.shows = true) : p.owns = true := by
  cases p <;> first | rfl | cases h

variable [DecidableEq κ]

/-- What `notify_all` on `c` does to a thread. -/
def notified (c : κ) : Place κ → Place κ
  | parked c' timed => if c' = c then woken else parked c' timed
  | p => p

end Place

end MutexLock

/-- `mutex_` by its owner, `holder_`, and where every thread stands. -/
structure MutexLock (τ κ : Type) where
  mutex : Option τ
  holder : Int
  place : τ → MutexLock.Place κ

namespace MutexLock

variable {τ κ : Type}

/-- `MutexLock::MutexLock`. -/
def init : MutexLock τ κ where
  mutex := none
  holder := 0
  place _ := .outside

/-- `MutexLock::IsLockedByThisThread`, called by thread `t`. -/
def isLockedByThisThread (tid : τ → Int) (s : MutexLock τ κ) (t : τ) : Bool := s.holder == tid t

/-! ## The owner and the holder -/

variable {tid : τ → Int} {s s' : MutexLock τ κ} {t u : τ}

/-- What `holder_` says of the owner's place. -/
def shown (tid : τ → Int) (s : MutexLock τ κ) : Int :=
  match s.mutex with
  | none => 0
  | some t => if (s.place t).shows then tid t else 0

/-- A thread stands at an owner's place exactly when it owns the mutex, and `holder_` is the id of an
owner that has written it, and 0 otherwise. -/
structure Inv (tid : τ → Int) (s : MutexLock τ κ) : Prop where
  owner : ∀ t, (s.place t).owns = true ↔ s.mutex = some t
  holder : s.holder = shown tid s

theorem inv_init : Inv tid (init : MutexLock τ κ) where
  owner _ := ⟨nofun, nofun⟩
  holder := rfl

/-- Two threads at owners' places are one. -/
theorem Inv.exclusive (h : Inv tid s) (ht : (s.place t).owns = true)
    (hu : (s.place u).owns = true) : t = u := by
  have ht := (h.owner t).mp ht
  have hu := (h.owner u).mp hu
  rw [ht] at hu
  exact Option.some.inj hu

theorem Inv.holder_zero (h : Inv tid s) (hfree : s.mutex = none) : s.holder = 0 := by
  rw [h.holder, shown, hfree]

theorem Inv.holder_of_owns (h : Inv tid s) (ht : (s.place t).owns = true) :
    s.holder = if (s.place t).shows then tid t else 0 := by
  rw [h.holder, shown, (h.owner t).mp ht]

theorem owns_at {p : Place κ} {b : Bool} (h : s.place t = p) (hp : p.owns = b) :
    (s.place t).owns = b := by rw [h, hp]

theorem shows_at {p : Place κ} {b : Bool} (h : s.place t = p) (hp : p.shows = b) :
    (s.place t).shows = b := by rw [h, hp]

section Notified

variable [DecidableEq κ]

theorem wakes_notified (c : κ) (v : τ) :
    (s.place v).notified c = s.place v ∨
      (∃ c timed, s.place v = .parked c timed) ∧ (s.place v).notified c = .woken := by
  cases hplace : s.place v with
  | parked c' timed =>
    by_cases hc : c' = c
    · exact .inr ⟨⟨c', timed, rfl⟩, if_pos hc⟩
    · exact .inl (if_neg hc)
  | _ => exact .inl rfl

end Notified

variable [DecidableEq τ]

/-- Thread `t` goes to `p`. -/
def goes (s : MutexLock τ κ) (t : τ) (p : Place κ) : MutexLock τ κ :=
  { s with place := Function.update s.place t p }

/-- After a move of its owner. -/
theorem inv_goes {p : Place κ} {holder : Int} (h : Inv tid s)
    (hmutex : s.mutex = none ∨ s.mutex = some t) (howns : p.owns = true)
    (hholder : holder = if p.shows then tid t else 0) :
    Inv tid { s.goes t p with mutex := some t, holder := holder } := by
  refine ⟨fun u => ?_, ?_⟩
  · show (Function.update s.place t p u).owns = true ↔ some t = some u
    rw [Function.update_apply]
    by_cases hu : u = t
    · subst hu
      rw [if_pos rfl, howns]
      exact ⟨fun _ => rfl, fun _ => rfl⟩
    · rw [if_neg hu, h.owner u]
      constructor
      · intro hother
        rcases hmutex with hmutex | hmutex
        · rw [hmutex] at hother
          cases hother
        · rw [hmutex] at hother
          exact hother
      · intro hsome
        exact absurd (Option.some.inj hsome).symm hu
  · show holder = if (Function.update s.place t p t).shows then tid t else 0
    rw [Function.update_self]
    exact hholder

/-- After a move of the thread that owns the mutex already. -/
theorem inv_goes_owner {p : Place κ} {holder : Int} (h : Inv tid s)
    (hp : (s.place t).owns = true) (howns : p.owns = true)
    (hholder : holder = if p.shows then tid t else 0) :
    Inv tid { s.goes t p with holder := holder } := by
  have hmutex := (h.owner t).mp hp
  have hnext := inv_goes h (.inr hmutex) howns hholder
  rw [← hmutex] at hnext
  exact hnext

/-- After its owner has given the mutex up. -/
theorem inv_give {p : Place κ} (h : Inv tid s) (hp : (s.place t).owns = true)
    (hhidden : (s.place t).shows = false) (howns : p.owns = false) :
    Inv tid { s.goes t p with mutex := none } := by
  refine ⟨fun u => ?_, ?_⟩
  · show (Function.update s.place t p u).owns = true ↔ none = some u
    rw [Function.update_apply]
    by_cases hu : u = t
    · rw [if_pos hu, howns]
      exact ⟨nofun, nofun⟩
    · rw [if_neg hu]
      exact ⟨fun hother => absurd (h.exclusive hother hp) hu, nofun⟩
  · show s.holder = 0
    rw [h.holder_of_owns hp, hhidden]
    rfl

theorem wakes_goes {c : κ} {timed : Bool} (hparked : s.place u = .parked c timed) (v : τ) :
    Function.update s.place u .woken v = s.place v ∨
      (∃ c timed, s.place v = .parked c timed) ∧ Function.update s.place u .woken v = .woken := by
  rw [Function.update_apply]
  split
  next hv =>
    subst hv
    exact .inr ⟨⟨c, timed, hparked⟩, rfl⟩
  next => exact .inl rfl

/-! ## Steps -/

/-- What happens next. -/
inductive Act (τ κ : Type) where
  /-- The constructor of a `MutexLockGuard`: `mutex_.lock()`. -/
  | lock (t : τ)
  /-- `AssignHolder`, at the end of `Lock` and in the destructor of the `UnAssignGuard`. -/
  | assignHolder (t : τ)
  /-- `Wait` or `WaitForSeconds`: its `AssertLocked`. -/
  | wait (t : τ) (c : κ) (timed : Bool)
  /-- The constructor of the `UnAssignGuard`. -/
  | unAssignHolder (t : τ)
  /-- `cond_.wait` releases the native mutex and sleeps. -/
  | release (t : τ)
  /-- `Notify`, which wakes `woken` or finds nobody. -/
  | notify (t : τ) (c : κ) (woken : Option τ)
  | notifyAll (t : τ) (c : κ)
  /-- The time-out of `WaitForSeconds`. -/
  | timeOut (t : τ)
  | spuriousWakeup (t : τ)
  /-- `cond_.wait` locks the native mutex again. -/
  | reacquire (t : τ)
  /-- The destructor of a `MutexLockGuard`: `UnAssignHolder`. -/
  | leave (t : τ)
  /-- The destructor of a `MutexLockGuard`: `mutex_.unlock()`. -/
  | unlock (t : τ)
  deriving DecidableEq, Repr

variable [DecidableEq κ]

def step (tid : τ → Int) (s : MutexLock τ κ) : Act τ κ → Option (MutexLock τ κ)
  | .lock t =>
    match s.place t, s.mutex with
    | .outside, none => some { s.goes t .locked with mutex := some t }
    | _, _ => none
  | .assignHolder t =>
    match s.place t with
    | .locked | .reacquired => some { s.goes t .inside with holder := tid t }
    | _ => none
  | .wait t c timed =>
    match s.place t with
    | .inside => if s.isLockedByThisThread tid t then some (s.goes t (.asserted c timed)) else none
    | _ => none
  | .unAssignHolder t =>
    match s.place t with
    | .asserted c timed => some { s.goes t (.unassigned c timed) with holder := 0 }
    | _ => none
  | .release t =>
    match s.place t with
    | .unassigned c timed => some { s.goes t (.parked c timed) with mutex := none }
    | _ => none
  | .notify t c woken =>
    match s.place t, woken with
    | .outside, none | .inside, none => some s
    | .outside, some u | .inside, some u =>
      match s.place u with
      | .parked c' _ => if c' = c then some (s.goes u .woken) else none
      | _ => none
    | _, _ => none
  | .notifyAll t c =>
    match s.place t with
    | .outside | .inside => some { s with place := fun u => (s.place u).notified c }
    | _ => none
  | .timeOut t =>
    match s.place t with
    | .parked _ true => some (s.goes t .woken)
    | _ => none
  | .spuriousWakeup t =>
    match s.place t with
    | .parked _ _ => some (s.goes t .woken)
    | _ => none
  | .reacquire t =>
    match s.place t, s.mutex with
    | .woken, none => some { s.goes t .reacquired with mutex := some t }
    | _, _ => none
  | .leave t =>
    match s.place t with
    | .inside => some { s.goes t .leaving with holder := 0 }
    | _ => none
  | .unlock t =>
    match s.place t with
    | .leaving => some { s.goes t .outside with mutex := none }
    | _ => none

example (hplace : s.place t = .outside) (hfree : s.mutex = none) :
    s.step tid (.lock t) = some { s.goes t .locked with mutex := some t } := by
  simp only [step, hplace, hfree]

/-- The runs of any number of threads on the mutex and its conditions. -/
def mutexRuns (κ : Type) [DecidableEq κ] (tid : τ → Int) : StepSystem (MutexLock τ κ) (Act τ κ) where
  step := step tid

/-! ## What a step can do -/

variable {act : Act τ κ}

/-- The thread whose step it is. -/
def Act.actor : Act τ κ → τ
  | .lock t | .assignHolder t | .wait t _ _ | .unAssignHolder t | .release t | .notify t _ _
  | .notifyAll t _ | .timeOut t | .spuriousWakeup t | .reacquire t | .leave t | .unlock t => t

/-- The steps of thread `t`, by what they do to the mutex and to `holder_`. -/
inductive Moved (tid : τ → Int) (s : MutexLock τ κ) (t : τ) : MutexLock τ κ → Prop
  | take {p : Place κ} (hp : (s.place t).owns = false) (hfree : s.mutex = none)
      (howns : p.owns = true) (hshows : p.shows = false) :
      Moved tid s t { s.goes t p with mutex := some t }
  | assign (hp : (s.place t).owns = true) :
      Moved tid s t { s.goes t .inside with holder := tid t }
  | check {p : Place κ} (hp : s.place t = .inside) (hshows : p.shows = true) :
      Moved tid s t (s.goes t p)
  | unassign {p : Place κ} (hp : (s.place t).owns = true) (howns : p.owns = true)
      (hshows : p.shows = false) : Moved tid s t { s.goes t p with holder := 0 }
  | give {p : Place κ} (hp : (s.place t).owns = true) (hhidden : (s.place t).shows = false)
      (howns : p.owns = false) : Moved tid s t { s.goes t p with mutex := none }
  | wake {place : τ → Place κ}
      (hwoken : ∀ u, place u = s.place u ∨ (∃ c timed, s.place u = .parked c timed) ∧
        place u = .woken) :
      Moved tid s t { s with place := place }

theorem lock_ok (h : s.step tid (.lock t) = some s') :
    s.place t = .outside ∧ s.mutex = none ∧
      s' = { s.goes t .locked with mutex := some t } := by
  simp only [step] at h
  split at h
  next hplace hfree =>
    cases h
    exact ⟨hplace, hfree, rfl⟩
  next => cases h

theorem assignHolder_ok (h : s.step tid (.assignHolder t) = some s') :
    (s.place t = .locked ∨ s.place t = .reacquired) ∧
      s' = { s.goes t .inside with holder := tid t } := by
  simp only [step] at h
  split at h
  next hplace =>
    cases h
    exact ⟨.inl hplace, rfl⟩
  next hplace =>
    cases h
    exact ⟨.inr hplace, rfl⟩
  next => cases h

theorem wait_ok {c : κ} {timed : Bool} (h : s.step tid (.wait t c timed) = some s') :
    s.place t = .inside ∧ s' = s.goes t (.asserted c timed) := by
  simp only [step] at h
  split at h
  next hplace =>
    split at h
    next =>
      cases h
      exact ⟨hplace, rfl⟩
    next => cases h
  next => cases h

theorem unAssignHolder_ok (h : s.step tid (.unAssignHolder t) = some s') :
    ∃ c timed, s.place t = .asserted c timed ∧
      s' = { s.goes t (.unassigned c timed) with holder := 0 } := by
  simp only [step] at h
  split at h
  next c timed hplace =>
    cases h
    exact ⟨c, timed, hplace, rfl⟩
  next => cases h

theorem release_ok (h : s.step tid (.release t) = some s') :
    ∃ c timed, s.place t = .unassigned c timed ∧
      s' = { s.goes t (.parked c timed) with mutex := none } := by
  simp only [step] at h
  split at h
  next c timed hplace =>
    cases h
    exact ⟨c, timed, hplace, rfl⟩
  next => cases h

theorem notifyAll_ok {c : κ} (h : s.step tid (.notifyAll t c) = some s') :
    (s.place t = .outside ∨ s.place t = .inside) ∧
      s' = { s with place := fun u => (s.place u).notified c } := by
  simp only [step] at h
  split at h
  next hplace =>
    cases h
    exact ⟨.inl hplace, rfl⟩
  next hplace =>
    cases h
    exact ⟨.inr hplace, rfl⟩
  next => cases h

theorem timeOut_ok (h : s.step tid (.timeOut t) = some s') :
    (∃ c, s.place t = .parked c true) ∧ s' = s.goes t .woken := by
  simp only [step] at h
  split at h
  next c hplace =>
    cases h
    exact ⟨⟨c, hplace⟩, rfl⟩
  next => cases h

theorem spuriousWakeup_ok (h : s.step tid (.spuriousWakeup t) = some s') :
    (∃ c timed, s.place t = .parked c timed) ∧ s' = s.goes t .woken := by
  simp only [step] at h
  split at h
  next c timed hplace =>
    cases h
    exact ⟨⟨c, timed, hplace⟩, rfl⟩
  next => cases h

theorem reacquire_ok (h : s.step tid (.reacquire t) = some s') :
    s.place t = .woken ∧ s.mutex = none ∧
      s' = { s.goes t .reacquired with mutex := some t } := by
  simp only [step] at h
  split at h
  next hplace hfree =>
    cases h
    exact ⟨hplace, hfree, rfl⟩
  next => cases h

theorem leave_ok (h : s.step tid (.leave t) = some s') :
    s.place t = .inside ∧ s' = { s.goes t .leaving with holder := 0 } := by
  simp only [step] at h
  split at h
  next hplace =>
    cases h
    exact ⟨hplace, rfl⟩
  next => cases h

theorem unlock_ok (h : s.step tid (.unlock t) = some s') :
    s.place t = .leaving ∧ s' = { s.goes t .outside with mutex := none } := by
  simp only [step] at h
  split at h
  next hplace =>
    cases h
    exact ⟨hplace, rfl⟩
  next => cases h

/-- `Notify` wakes nobody, or the thread it was to wake. -/
theorem notify_ok {c : κ} {woken : Option τ} (h : s.step tid (.notify t c woken) = some s') :
    (s.place t = .outside ∨ s.place t = .inside) ∧
      (s' = s ∨ ∃ u c' timed, s.place u = .parked c' timed ∧ s' = s.goes u .woken) := by
  have hwakes (u : τ) (hwake : (match s.place u with
      | .parked c' _ => if c' = c then some (s.goes u .woken) else none
      | _ => none) = some s') : ∃ u c' timed, s.place u = .parked c' timed ∧
        s' = s.goes u .woken := by
    split at hwake
    next c' timed hparked =>
      split at hwake
      next =>
        cases hwake
        exact ⟨u, c', timed, hparked, rfl⟩
      next => cases hwake
    next => cases hwake
  simp only [step] at h
  split at h
  next hplace =>
    cases h
    exact ⟨.inl hplace, .inl rfl⟩
  next hplace =>
    cases h
    exact ⟨.inr hplace, .inl rfl⟩
  next u hplace => exact ⟨.inl hplace, .inr (hwakes u h)⟩
  next u hplace => exact ⟨.inr hplace, .inr (hwakes u h)⟩
  next => cases h

theorem moved_of_step (hstep : s.step tid act = some s') : Moved tid s act.actor s' := by
  cases act with
  | lock t =>
    obtain ⟨hplace, hfree, rfl⟩ := lock_ok hstep
    exact .take (owns_at hplace rfl) hfree rfl rfl
  | assignHolder t =>
    obtain ⟨hplace | hplace, rfl⟩ := assignHolder_ok hstep
    · exact .assign (owns_at hplace rfl)
    · exact .assign (owns_at hplace rfl)
  | wait t c timed =>
    obtain ⟨hplace, rfl⟩ := wait_ok hstep
    exact .check hplace rfl
  | unAssignHolder t =>
    obtain ⟨c, timed, hplace, rfl⟩ := unAssignHolder_ok hstep
    exact .unassign (owns_at hplace rfl) rfl rfl
  | release t =>
    obtain ⟨c, timed, hplace, rfl⟩ := release_ok hstep
    exact .give (owns_at hplace rfl) (shows_at hplace rfl) rfl
  | notify t c woken =>
    rcases (notify_ok hstep).2 with rfl | ⟨u, c', timed, hparked, rfl⟩
    · exact .wake fun _ => .inl rfl
    · exact .wake (wakes_goes hparked)
  | notifyAll t c =>
    obtain ⟨-, rfl⟩ := notifyAll_ok hstep
    exact .wake (wakes_notified c)
  | timeOut t =>
    obtain ⟨⟨c, hparked⟩, rfl⟩ := timeOut_ok hstep
    exact .wake (wakes_goes hparked)
  | spuriousWakeup t =>
    obtain ⟨⟨c, timed, hparked⟩, rfl⟩ := spuriousWakeup_ok hstep
    exact .wake (wakes_goes hparked)
  | reacquire t =>
    obtain ⟨hplace, hfree, rfl⟩ := reacquire_ok hstep
    exact .take (owns_at hplace rfl) hfree rfl rfl
  | leave t =>
    obtain ⟨hplace, rfl⟩ := leave_ok hstep
    exact .unassign (owns_at hplace rfl) rfl rfl
  | unlock t =>
    obtain ⟨hplace, rfl⟩ := unlock_ok hstep
    exact .give (owns_at hplace rfl) (shows_at hplace rfl) rfl

omit [DecidableEq κ] in
theorem inv_move (h : Inv tid s) (hmove : Moved tid s t s') : Inv tid s' := by
  cases hmove with
  | take hp hfree howns hshows =>
    refine inv_goes h (.inl hfree) howns ?_
    rw [hshows]
    exact h.holder_zero hfree
  | assign hp => exact inv_goes_owner h hp rfl rfl
  | @check p hp hshows =>
    -- the owner has asserted that `holder_` is its own id
    have hinside : (s.place t).owns = true := owns_at hp rfl
    have hshown : (s.place t).shows = true := shows_at hp rfl
    have hholder := h.holder_of_owns hinside
    rw [if_pos hshown] at hholder
    refine inv_goes_owner h hinside (Place.owns_of_shows hshows) ?_
    rw [if_pos hshows]
    exact hholder
  | unassign hp howns hshows =>
    exact inv_goes_owner h hp howns (by rw [hshows, if_neg nofun])
  | give hp hhidden howns => exact inv_give h hp hhidden howns
  | @wake place hwoken =>
    have howns (u : τ) : (place u).owns = (s.place u).owns := by
      rcases hwoken u with hsame | ⟨⟨c, timed, hparked⟩, hwake⟩
      · rw [hsame]
      · rw [hparked, hwake]
        rfl
    have hshows (u : τ) : (place u).shows = (s.place u).shows := by
      rcases hwoken u with hsame | ⟨⟨c, timed, hparked⟩, hwake⟩
      · rw [hsame]
      · rw [hparked, hwake]
        rfl
    refine ⟨fun u => ?_, ?_⟩
    · show (place u).owns = true ↔ s.mutex = some u
      rw [howns]
      exact h.owner u
    · show s.holder = shown tid { s with place := place }
      rw [h.holder, shown, shown]
      simp only [hshows]

/-- Where a step leaves its thread. -/
def Act.lands : Act τ κ → Place κ → Place κ
  | .lock _, _ => .locked
  | .assignHolder _, _ => .inside
  | .wait _ c timed, _ => .asserted c timed
  | .unAssignHolder _, .asserted c timed => .unassigned c timed
  | .release _, .unassigned c timed => .parked c timed
  | .timeOut _, _ | .spuriousWakeup _, _ => .woken
  | .reacquire _, _ => .reacquired
  | .leave _, _ => .leaving
  | .unlock _, _ => .outside
  | _, p => p

theorem place_actor (hstep : s.step tid act = some s') :
    s'.place act.actor = act.lands (s.place act.actor) := by
  have hgoes (t : τ) (p : Place κ) : Function.update s.place t p t = p := Function.update_self ..
  cases act with
  | lock t =>
    obtain ⟨-, -, rfl⟩ := lock_ok hstep
    exact hgoes t _
  | assignHolder t =>
    obtain ⟨-, rfl⟩ := assignHolder_ok hstep
    exact hgoes t _
  | wait t c timed =>
    obtain ⟨-, rfl⟩ := wait_ok hstep
    exact hgoes t _
  | unAssignHolder t =>
    obtain ⟨c, timed, hplace, rfl⟩ := unAssignHolder_ok hstep
    rw [Act.actor, hplace]
    exact hgoes t _
  | release t =>
    obtain ⟨c, timed, hplace, rfl⟩ := release_ok hstep
    rw [Act.actor, hplace]
    exact hgoes t _
  | notify t c woken =>
    obtain ⟨hplace, rfl | ⟨u, c', timed, hparked, rfl⟩⟩ := notify_ok hstep
    · rfl
    · -- the thread that notifies does not sleep
      have hother : t ≠ u := by
        rintro rfl
        rcases hplace with hplace | hplace
        · rw [hplace] at hparked
          cases hparked
        · rw [hplace] at hparked
          cases hparked
      exact Function.update_of_ne hother _ _
  | notifyAll t c =>
    obtain ⟨hplace, rfl⟩ := notifyAll_ok hstep
    show (s.place t).notified c = s.place t
    rcases hplace with hplace | hplace
    · rw [hplace]
      rfl
    · rw [hplace]
      rfl
  | timeOut t =>
    obtain ⟨-, rfl⟩ := timeOut_ok hstep
    exact hgoes t _
  | spuriousWakeup t =>
    obtain ⟨-, rfl⟩ := spuriousWakeup_ok hstep
    exact hgoes t _
  | reacquire t =>
    obtain ⟨-, -, rfl⟩ := reacquire_ok hstep
    exact hgoes t _
  | leave t =>
    obtain ⟨-, rfl⟩ := leave_ok hstep
    exact hgoes t _
  | unlock t =>
    obtain ⟨-, rfl⟩ := unlock_ok hstep
    exact hgoes t _

omit [DecidableEq κ] in
/-- A step of `t` does nothing to another thread but wake it. -/
theorem Moved.others (hmove : Moved tid s t s') (hu : u ≠ t) : s'.place u = s.place u ∨
    (∃ c timed, s.place u = .parked c timed) ∧ s'.place u = .woken := by
  cases hmove with
  | wake hwoken => exact hwoken u
  | _ => exact .inl (Function.update_of_ne hu _ _)

/-- **One step** keeps the owner's place and `holder_` in agreement. -/
theorem inv_step (h : Inv tid s) (hstep : s.step tid act = some s') : Inv tid s' :=
  inv_move h (moved_of_step hstep)

/-- **The holder is truthful.** For any number of threads with distinct ids other than 0, any number
of conditions and every interleaving: `holder_` is 0 or the id of the mutex's owner; a thread in its
guard section owns the mutex and reads its own id, so that `AssertLocked` lets its waits pass; and
`IsLockedByThisThread` tells no other thread that it owns the mutex. -/
theorem holder_truthful (tid : τ → Int) (hzero : ∀ t, tid t ≠ 0)
    (hdistinct : Function.Injective tid) (acts : List (Act τ κ)) {s : MutexLock τ κ}
    (hrun : (mutexRuns κ tid).exec init acts = some s) :
    (s.holder = 0 ∨ ∃ t, s.mutex = some t ∧ s.holder = tid t) ∧
      (∀ t, s.place t = .inside → s.mutex = some t ∧ s.holder = tid t) ∧
      (∀ t c timed, s.place t = .inside → (s.step tid (.wait t c timed)).isSome = true) ∧
      ∀ t, s.isLockedByThisThread tid t = true → s.mutex = some t := by
  have hinv : Inv tid s := StepSystem.exec_invariant (I := Inv tid)
    (fun _ _ _ h hstep => inv_step h hstep) inv_init hrun
  have hinside (t : τ) (hplace : s.place t = .inside) : s.mutex = some t ∧ s.holder = tid t := by
    have howns : (s.place t).owns = true := owns_at hplace rfl
    have hholder := hinv.holder_of_owns howns
    rw [hplace] at hholder
    exact ⟨(hinv.owner t).mp howns, hholder⟩
  have hshown : s.holder = 0 ∨ ∃ t, s.mutex = some t ∧ s.holder = tid t := by
    have hholder := hinv.holder
    unfold shown at hholder
    split at hholder
    next => exact .inl hholder
    next t hmutex =>
      split at hholder
      next => exact .inr ⟨t, hmutex, hholder⟩
      next => exact .inl hholder
  refine ⟨hshown, hinside, fun t c timed hplace => ?_, fun t hlocked => ?_⟩
  · have hlocked : s.isLockedByThisThread tid t = true := beq_iff_eq.mpr (hinside t hplace).2
    simp only [step, hplace, if_pos hlocked]
    rfl
  · have hholder : s.holder = tid t := beq_iff_eq.mp hlocked
    rcases hshown with hshown | ⟨u, hmutex, hshown⟩
    · exact absurd (hholder.symm.trans hshown) (hzero t)
    · rw [hmutex, hdistinct (hholder.symm.trans hshown)]

/-- Three threads with ids 1, 2 and 3: the first two wait, the third notifies both from its guard
section and leaves, and the second comes out of its wait. -/
def threeThreads : List (Act (Fin 3) Unit) :=
  [.lock 0, .assignHolder 0, .wait 0 () false, .unAssignHolder 0, .release 0,
    .lock 1, .assignHolder 1, .wait 1 () true, .unAssignHolder 1, .release 1,
    .lock 2, .assignHolder 2, .notifyAll 2 (), .leave 2, .unlock 2,
    .reacquire 1, .assignHolder 1]

theorem holder_truthful_threeThreads :
    ∃ s, (mutexRuns Unit fun t : Fin 3 => (t : Int) + 1).exec init threeThreads = some s ∧
      s.holder = 2 ∧ s.place 0 = .woken ∧ s.mutex = some 1 ∧
      s.isLockedByThisThread (fun t : Fin 3 => (t : Int) + 1) 0 = false := by
  refine ⟨_, rfl, rfl, rfl, ?_, rfl⟩
  have hdistinct : Function.Injective fun t : Fin 3 => (t : Int) + 1 := by
    intro t u h
    have hsame : (t : Int) + 1 = (u : Int) + 1 := h
    omega
  have htruth := holder_truthful (fun t : Fin 3 => (t : Int) + 1) (by decide) hdistinct
    threeThreads rfl
  exact (htruth.2.1 1 rfl).1

end MutexLock

end TurboNet.Base
