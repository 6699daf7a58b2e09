/-
# TurboNet.Base.CountDownLatch — a latch over one mutex and one condition.

`base/count_down_latch.{h,cpp}`: `Wait` and `CountDown`, called by any number of threads any number
of times.  `Pc` is where a thread stands in the code of the latch; inside the guard's constructor and
destructor, `cond_.Wait()` and `cond_.NotifyAll()` it moves by the steps of `MutexLock`.  `count_` is
an `int`; where a surplus `CountDown` would overflow it, it wraps.

A waiter tests for `count_ > 0` and the notification is given at exactly 0.  What ties them together
is that the counter is tested, lowered and tested again only by the owner of the mutex, and that a
waiter falls asleep in the step that gives the mutex up (`Awaited`).
-/
import TurboNet.Base.MutexLock
import TurboNet.Lib.Wrapping

namespace TurboNet.Base

open TurboNet.Lib

namespace CountDownLatch

/-- Where a thread stands in the latch. -/
inductive Pc where
  | idle
  /-- `Wait`: the constructor of its guard. -/
  | waitEnter
  /-- `Wait`: `while (count_ > 0)`. -/
  | waitTest
  /-- `Wait`: `cond_.Wait()`. -/
  | waitPark
  /-- `Wait`: the destructor of its guard. -/
  | waitLeave
  /-- `CountDown`: the constructor of its guard. -/
  | downEnter
  /-- `CountDown`: `--count_`. -/
  | downDecrement
  /-- `CountDown`: `if (count_ == 0)`. -/
  | downTest
  /-- `CountDown`: `cond_.NotifyAll()`. -/
  | downNotify
  /-- `CountDown`: the destructor of its guard. -/
  | downLeave
  deriving DecidableEq, Repr

/-- The thread is in a call of `Wait`. -/
def Pc.inWait : Pc → Bool
  | .waitEnter | .waitTest | .waitPark | .waitLeave => true
  | _ => false

/-- The thread is in a `CountDown` that has lowered the counter and not yet notified. -/
def Pc.notifying : Pc → Bool
  | .downTest | .downNotify => true
  | _ => false

end CountDownLatch

/-- The data members of `turbo::CountDownLatch`, and where every thread stands. -/
structure CountDownLatch (τ : Type) where
  lock : MutexLock τ Unit
  count : Int
  pc : τ → CountDownLatch.Pc

namespace CountDownLatch

open MutexLock (Place)

variable {τ : Type}

/-- `CountDownLatch::CountDownLatch`. -/
def construct (count : Int) : CountDownLatch τ where
  lock := MutexLock.init
  count := count
  pc _ := .idle

/-- The next step of thread `t` on the mutex or the condition, and where it stands in the latch
afterwards. -/
def onMutex (t : τ) : Pc → Place Unit → Option (MutexLock.Act τ Unit × Pc)
  | .waitEnter, .outside => some (.lock t, .waitEnter)
  | .waitEnter, .locked => some (.assignHolder t, .waitTest)
  | .waitPark, .inside => some (.wait t () false, .waitPark)
  | .waitPark, .asserted _ _ => some (.unAssignHolder t, .waitPark)
  | .waitPark, .unassigned _ _ => some (.release t, .waitPark)
  | .waitPark, .woken => some (.reacquire t, .waitPark)
  | .waitPark, .reacquired => some (.assignHolder t, .waitTest)
  | .waitLeave, .inside => some (.leave t, .waitLeave)
  | .waitLeave, .leaving => some (.unlock t, .idle)
  | .downEnter, .outside => some (.lock t, .downEnter)
  | .downEnter, .locked => some (.assignHolder t, .downDecrement)
  | .downNotify, .inside => some (.notifyAll t (), .downLeave)
  | .downLeave, .inside => some (.leave t, .downLeave)
  | .downLeave, .leaving => some (.unlock t, .idle)
  | _, _ => none

/-- What happens next. -/
inductive Act (τ : Type) where
  | callWait (t : τ)
  | callCountDown (t : τ)
  | move (t : τ)
  | spuriousWakeup (t : τ)
  deriving DecidableEq, Repr

variable [DecidableEq τ]

/-- Thread `t` comes to `p` in the latch. -/
def goes (s : CountDownLatch τ) (t : τ) (p : Pc) : CountDownLatch τ :=
  { s with pc := Function.update s.pc t p }

/-- The next step of thread `t` in a call. -/
def move (tid : τ → Int) (s : CountDownLatch τ) (t : τ) : Option (CountDownLatch τ) :=
  match s.pc t with
  | .idle => none
  | .waitTest => some (s.goes t (if 0 < s.count then .waitPark else .waitLeave))
  | .downDecrement => some { s.goes t .downTest with count := swrap 32 (s.count - 1) }
  | .downTest => some (s.goes t (if s.count = 0 then .downNotify else .downLeave))
  | pc =>
    match onMutex t pc (s.lock.place t) with
    | none => none
    | some (act, pc') => (s.lock.step tid act).map fun lock => { s.goes t pc' with lock := lock }

def step (tid : τ → Int) (s : CountDownLatch τ) : Act τ → Option (CountDownLatch τ)
  | .callWait t => if s.pc t = .idle then some (s.goes t .waitEnter) else none
  | .callCountDown t => if s.pc t = .idle then some (s.goes t .downEnter) else none
  | .move t => s.move tid t
  | .spuriousWakeup t => (s.lock.step tid (.spuriousWakeup t)).map fun lock => { s with lock := lock }

/-- The runs of a latch with any number of threads. -/
def latchRuns (tid : τ → Int) : StepSystem (CountDownLatch τ) (Act τ) where
  step := step tid

/-! ## What a step can do -/

variable {tid : τ → Int} {s s' : CountDownLatch τ} {act : Act τ} {t u : τ}

/-- The steps of thread `t` in the latch. -/
inductive Moved (tid : τ → Int) (s : CountDownLatch τ) (t : τ) : CountDownLatch τ → Prop
  | call {p : Pc} (hidle : s.pc t = .idle) (hp : p = .waitEnter ∨ p = .downEnter) :
      Moved tid s t (s.goes t p)
  | waitTest (hpc : s.pc t = .waitTest) :
      Moved tid s t (s.goes t (if 0 < s.count then .waitPark else .waitLeave))
  | decrement (hpc : s.pc t = .downDecrement) :
      Moved tid s t { s.goes t .downTest with count := swrap 32 (s.count - 1) }
  | downTest (hpc : s.pc t = .downTest) :
      Moved tid s t (s.goes t (if s.count = 0 then .downNotify else .downLeave))
  | onMutex {act : MutexLock.Act τ Unit} {p : Pc} {lock : MutexLock τ Unit}
      (hact : CountDownLatch.onMutex t (s.pc t) (s.lock.place t) = some (act, p))
      (hlock : s.lock.step tid act = some lock) : Moved tid s t { s.goes t p with lock := lock }
  | spuriousWakeup {lock : MutexLock τ Unit}
      (hlock : s.lock.step tid (.spuriousWakeup t) = some lock) :
      Moved tid s t { s with lock := lock }

theorem moved_of_move (hmove : s.move tid t = some s') : Moved tid s t s' := by
  have hmutex (pc : Pc) (hpc : s.pc t = pc) (hrest : (match onMutex t pc (s.lock.place t) with
      | none => none
      | some (act, pc') =>
        (s.lock.step tid act).map fun lock => { s.goes t pc' with lock := lock }) = some s') :
      Moved tid s t s' := by
    subst hpc
    split at hrest
    next => cases hrest
    next act p hact =>
      obtain ⟨lock, hlock, rfl⟩ := Option.map_eq_some_iff.mp hrest
      exact .onMutex hact hlock
  unfold move at hmove
  split at hmove
  next => cases hmove
  next hpc =>
    cases hmove
    exact .waitTest hpc
  next hpc =>
    cases hmove
    exact .decrement hpc
  next hpc =>
    cases hmove
    exact .downTest hpc
  next => exact hmutex _ rfl hmove

/-- The thread whose step it is. -/
def Act.actor : Act τ → τ
  | .callWait t | .callCountDown t | .move t | .spuriousWakeup t => t

theorem callWait_ok (h : s.step tid (.callWait t) = some s') :
    s.pc t = .idle ∧ s' = s.goes t .waitEnter := by
  simp only [step] at h
  split at h
  next hidle =>
    cases h
    exact ⟨hidle, rfl⟩
  next => cases h

theorem callCountDown_ok (h : s.step tid (.callCountDown t) = some s') :
    s.pc t = .idle ∧ s' = s.goes t .downEnter := by
  simp only [step] at h
  split at h
  next hidle =>
    cases h
    exact ⟨hidle, rfl⟩
  next => cases h

theorem moved_of_step (hstep : s.step tid act = some s') : Moved tid s act.actor s' := by
  cases act with
  | callWait t =>
    obtain ⟨hidle, rfl⟩ := callWait_ok hstep
    exact .call hidle (.inl rfl)
  | callCountDown t =>
    obtain ⟨hidle, rfl⟩ := callCountDown_ok hstep
    exact .call hidle (.inr rfl)
  | move t => exact moved_of_move hstep
  | spuriousWakeup t =>
    obtain ⟨lock, hlock, rfl⟩ := Option.map_eq_some_iff.mp hstep
    exact .spuriousWakeup hlock

/-! ## The invariant -/

/-- Where a thread in the latch can stand on the mutex, and what the counter is while it owns it. -/
def Fits (count : Int) : Pc → Place Unit → Prop
  | .idle, .outside => True
  | .waitEnter, .outside | .waitEnter, .locked => True
  | .waitTest, .inside => True
  | .waitPark, .inside | .waitPark, .asserted _ _ | .waitPark, .unassigned _ _ => 0 < count
  | .waitPark, .parked _ _ | .waitPark, .woken | .waitPark, .reacquired => True
  | .waitLeave, .inside | .waitLeave, .leaving => count ≤ 0
  | .downEnter, .outside | .downEnter, .locked => True
  | .downDecrement, .inside | .downTest, .inside => True
  | .downNotify, .inside => count = 0
  | .downLeave, .inside | .downLeave, .leaving => True
  | _, _ => False

/-- The thread sleeps in the condition, with no wake-up pending. -/
def Asleep (s : CountDownLatch τ) (t : τ) : Prop := ∃ c timed, s.lock.place t = .parked c timed

/-- Somebody will wake the sleepers: the counter has not come down, or the `CountDown` that brought
it to 0 has its notification to come. -/
def Awaited (s : CountDownLatch τ) : Prop :=
  0 < s.count ∨ ∃ u, s.pc u = .downTest ∧ s.count = 0 ∨ s.pc u = .downNotify

structure Inv (tid : τ → Int) (s : CountDownLatch τ) : Prop where
  lock : s.lock.Inv tid
  low : -2 ^ 31 ≤ s.count
  high : s.count < 2 ^ 31
  fits : ∀ t, Fits s.count (s.pc t) (s.lock.place t)
  awaited : ∀ t, Asleep s t → Awaited s

/-- What the counter is matters to the owner of the mutex only. -/
theorem fits_of_not_owns {count count' : Int} {pc : Pc} {p : Place Unit} (h : Fits count pc p)
    (howns : p.owns = false) : Fits count' pc p := by
  cases pc <;> cases p <;> first | exact h | cases howns

/-- A thread that is woken stands where it can. -/
theorem fits_woken {count : Int} {pc : Pc} {c : Unit} {timed : Bool}
    (h : Fits count pc (.parked c timed)) : Fits count pc .woken := by
  cases pc <;> exact h

/-- A thread at a test or a write of the counter is in its guard section. -/
theorem inside_of_fits {count : Int} {pc : Pc} {p : Place Unit} (h : Fits count pc p)
    (hpc : pc = .downDecrement ∨ pc = .downTest ∨ pc = .downNotify ∨ pc = .waitTest) :
    p = .inside := by
  rcases hpc with rfl | rfl | rfl | rfl <;> cases p <;> first | rfl | exact h.elim

omit [DecidableEq τ] in
theorem inv_construct {count : Int} (hlow : -2 ^ 31 ≤ count) (hhigh : count < 2 ^ 31) :
    Inv tid (construct count) where
  lock := MutexLock.inv_init
  low := hlow
  high := hhigh
  fits _ := trivial
  awaited _ := by
    rintro ⟨c, timed, h⟩
    cases h

/-! ### The steps on the mutex -/

section OnMutex

omit [DecidableEq τ]

variable {mact : MutexLock.Act τ Unit} {pc p : Pc} {q : Place Unit}

theorem onMutex_actor (h : onMutex t pc q = some (mact, p)) : mact.actor = t := by
  unfold onMutex at h
  split at h <;> cases h <;> rfl

theorem onMutex_fits {count : Int} (h : onMutex t pc q = some (mact, p)) (hfits : Fits count pc q) :
    Fits count p (mact.lands q) := by
  unfold onMutex at h
  split at h <;> cases h <;> first | exact hfits | trivial

/-- Only a waiter that has seen `count_ > 0` falls asleep. -/
theorem onMutex_asleep {count : Int} {c : Unit} {timed : Bool}
    (h : onMutex t pc q = some (mact, p)) (hfits : Fits count pc q)
    (hasleep : mact.lands q = .parked c timed) : 0 < count := by
  unfold onMutex at h
  split at h <;> cases h <;> first | exact hfits | cases hasleep

theorem onMutex_notify (h : onMutex t pc q = some (mact, p)) (hpc : pc = .downNotify) :
    mact = .notifyAll t () := by
  unfold onMutex at h
  split at h <;> cases h <;> first | rfl | cases hpc

/-- `Wait` returns from its guard's destructor. -/
theorem onMutex_returns (h : onMutex t pc q = some (mact, p)) (hpc : pc.inWait = true)
    (hp : p = .idle) : pc = .waitLeave := by
  unfold onMutex at h
  split at h <;> cases h <;> 
    first | rfl | exact absurd hp (by decide) | exact absurd hpc (by decide)

theorem onMutex_test (h : onMutex t pc q = some (mact, p)) : pc ≠ .downTest := by
  intro hpc
  unfold onMutex at h
  split at h <;> cases h <;> cases hpc

end OnMutex

/-! ### One step -/

/-- A step of thread `t` on the mutex leaves every other thread where it fits. -/
theorem fits_others {lock : MutexLock τ Unit} (h : Inv tid s)
    (hmoved : MutexLock.Moved tid s.lock t lock) (hu : u ≠ t) :
    Fits s.count (s.pc u) (lock.place u) := by
  rcases hmoved.others hu with hsame | ⟨⟨c, timed, hparked⟩, hwoken⟩
  · rw [hsame]
    exact h.fits u
  · rw [hwoken]
    exact fits_woken (hparked ▸ h.fits u)

/-- A thread that sleeps after a step of another slept before. -/
theorem asleep_others {lock : MutexLock τ Unit} (hmoved : MutexLock.Moved tid s.lock t lock)
    (hu : u ≠ t) {c : Unit} {timed : Bool} (hasleep : lock.place u = .parked c timed) :
    Asleep s u := by
  rcases hmoved.others hu with hsame | ⟨-, hwoken⟩
  · exact ⟨c, timed, hsame ▸ hasleep⟩
  · rw [hwoken] at hasleep
    cases hasleep

/-- After `NotifyAll` nobody sleeps. -/
theorem not_asleep_notified (p : Place Unit) (c : Unit) (timed : Bool) :
    p.notified () ≠ .parked c timed := by
  cases p <;> exact nofun

theorem goes_pc (p : Pc) (u : τ) : (s.goes t p).pc u = if u = t then p else s.pc u :=
  Function.update_apply ..

omit [DecidableEq τ] in
/-- The sleepers are still awaited after a step of a thread that is not about to notify them. -/
theorem awaited_others (hawaited : Awaited s) (hcount : s'.count = s.count)
    (hothers : ∀ u, u ≠ t → s'.pc u = s.pc u) (ht : (s.pc t).notifying = false) : Awaited s' := by
  rcases hawaited with hpos | ⟨u, hu⟩
  · exact .inl (hcount ▸ hpos)
  · have hother : u ≠ t := by
      rintro rfl
      rcases hu with ⟨hu, -⟩ | hu
      · rw [hu] at ht
        cases ht
      · rw [hu] at ht
        cases ht
    refine .inr ⟨u, ?_⟩
    rw [hothers u hother, hcount]
    exact hu

/-- A thread that moves in the latch and leaves the counter alone. -/
theorem inv_goes {p : Pc} (h : Inv tid s) (hfits : Fits s.count p (s.lock.place t))
    (hawaited : ∀ u, Asleep s u → Awaited (s.goes t p)) : Inv tid (s.goes t p) where
  lock := h.lock
  low := h.low
  high := h.high
  fits u := by
    rw [goes_pc]
    split
    next hu => rw [hu]; exact hfits
    next => exact h.fits u
  awaited := hawaited

/-- `--count_`, by the owner of the mutex. -/
theorem inv_decrement (h : Inv tid s) (hpc : s.pc t = .downDecrement) :
    Inv tid { s.goes t .downTest with count := swrap 32 (s.count - 1) } := by
  have hinside : s.lock.place t = .inside := inside_of_fits (h.fits t) (.inl hpc)
  have howns : (s.lock.place t).owns = true := MutexLock.owns_at hinside rfl
  have hlow := h.low
  have hhigh := h.high
  have hrange := swrap_range 31 (s.count - 1)
  refine ⟨h.lock, hrange.1, hrange.2, fun u => ?_, fun u hasleep => ?_⟩
  · show Fits _ ((s.goes t .downTest).pc u) (s.lock.place u)
    rw [goes_pc]
    split
    next hu =>
      rw [hu, hinside]
      trivial
    next hu =>
      refine fits_of_not_owns (h.fits u) ?_
      by_contra hother
      exact hu (h.lock.exclusive (Bool.not_eq_false _ ▸ hother) howns)
  · rcases h.awaited u hasleep with hpos | ⟨v, hv⟩
    · -- the counter comes down to 0 at the least, and then this thread will notify
      have hstep : swrap 32 (s.count - 1) = s.count - 1 :=
        swrap_of_range (by omega) (by omega)
      by_cases hzero : s.count - 1 = 0
      · refine .inr ⟨t, .inl ⟨?_, hstep.trans hzero⟩⟩
        show (s.goes t .downTest).pc t = .downTest
        rw [goes_pc, if_pos rfl]
      · left
        show 0 < swrap 32 (s.count - 1)
        omega
    · -- the thread about to notify would own the mutex beside this one
      have hv : s.pc v = .downTest ∨ s.pc v = .downNotify := hv.imp_left And.left
      have hplace : s.lock.place v = .inside :=
        inside_of_fits (h.fits v) (hv.elim (fun h => .inr (.inl h)) fun h => .inr (.inr (.inl h)))
      have hsame : v = t := h.lock.exclusive (MutexLock.owns_at hplace rfl) howns
      rw [hsame, hpc] at hv
      rcases hv with hv | hv <;> cases hv

theorem goes_pc_of_ne (p : Pc) (u : τ) (hu : u ≠ t) : (s.goes t p).pc u = s.pc u := by
  rw [goes_pc, if_neg hu]

/-- `if (count_ == 0)`: the thread that finds the counter at 0 will notify. -/
theorem inv_downTest (h : Inv tid s) (hpc : s.pc t = .downTest) :
    Inv tid (s.goes t (if s.count = 0 then .downNotify else .downLeave)) := by
  have hinside : s.lock.place t = .inside := inside_of_fits (h.fits t) (.inr (.inl hpc))
  have hself (p : Pc) : (s.goes t p).pc t = p := by rw [goes_pc, if_pos rfl]
  refine inv_goes h ?_ fun u hasleep => ?_
  · rw [hinside]
    split
    next hzero => exact hzero
    next => trivial
  · split
    next hzero => exact .inr ⟨t, .inr (hself _)⟩
    next hzero =>
      rcases h.awaited u hasleep with hpos | ⟨v, ⟨-, hv⟩ | hv⟩
      · exact .inl hpos
      · exact absurd hv hzero
      · -- a thread about to notify has seen the counter at 0
        have hfits := h.fits v
        rw [hv, inside_of_fits (h.fits v) (.inr (.inr (.inl hv)))] at hfits
        exact absurd hfits hzero

/-- A step on the mutex or the condition. -/
theorem inv_onMutex {mact : MutexLock.Act τ Unit} {p : Pc} {lock : MutexLock τ Unit} (h : Inv tid s)
    (hact : onMutex t (s.pc t) (s.lock.place t) = some (mact, p))
    (hlock : s.lock.step tid mact = some lock) : Inv tid { s.goes t p with lock := lock } := by
  have hactor := onMutex_actor hact
  have hmutex := MutexLock.moved_of_step hlock
  have hplace := MutexLock.place_actor hlock
  rw [hactor] at hmutex hplace
  refine ⟨MutexLock.inv_move h.lock hmutex, h.low, h.high, fun u => ?_, fun u hasleep => ?_⟩
  · show Fits s.count ((s.goes t p).pc u) (lock.place u)
    rw [goes_pc]
    split
    next hu =>
      rw [hu, hplace]
      exact onMutex_fits hact (h.fits t)
    next hu => exact fits_others h hmutex hu
  · obtain ⟨c, timed, hasleep⟩ := hasleep
    have hasleep : lock.place u = .parked c timed := hasleep
    by_cases hu : u = t
    · rw [hu, hplace] at hasleep
      exact .inl (onMutex_asleep hact (h.fits t) hasleep)
    · by_cases hnotify : s.pc t = .downNotify
      · obtain rfl := onMutex_notify hact hnotify
        obtain ⟨-, rfl⟩ := MutexLock.notifyAll_ok hlock
        exact absurd hasleep (not_asleep_notified _ c timed)
      · refine awaited_others (h.awaited u (asleep_others hmutex hu hasleep)) rfl (goes_pc_of_ne p) ?_
        have htest := onMutex_test hact
        generalize s.pc t = pc at hnotify htest
        cases pc <;> first | rfl | exact absurd rfl hnotify | exact absurd rfl htest

theorem inv_moved (h : Inv tid s) (hmoved : Moved tid s t s') : Inv tid s' := by
  cases hmoved with
  | call hidle hp =>
    have hplace : s.lock.place t = .outside := by
      have hfits := h.fits t
      rw [hidle] at hfits
      generalize s.lock.place t = place at hfits ⊢
      cases place <;> first | rfl | exact hfits.elim
    refine inv_goes h ?_ fun u hasleep =>
      awaited_others (h.awaited u hasleep) rfl (goes_pc_of_ne _) (by rw [hidle]; rfl)
    rw [hplace]
    rcases hp with rfl | rfl <;> trivial
  | waitTest hpc =>
    have hinside : s.lock.place t = .inside :=
      inside_of_fits (h.fits t) (.inr (.inr (.inr hpc)))
    refine inv_goes h ?_ fun u hasleep =>
      awaited_others (h.awaited u hasleep) rfl (goes_pc_of_ne _) (by rw [hpc]; rfl)
    rw [hinside]
    split
    next hpos => exact hpos
    next hdone => exact Int.not_lt.mp hdone
  | decrement hpc => exact inv_decrement h hpc
  | downTest hpc => exact inv_downTest h hpc
  | onMutex hact hlock => exact inv_onMutex h hact hlock
  | @spuriousWakeup lock hlock =>
    have hmutex : MutexLock.Moved tid s.lock t lock := MutexLock.moved_of_step hlock
    have hplace : lock.place t = .woken := MutexLock.place_actor hlock
    obtain ⟨⟨c, timed, hparked⟩, -⟩ := MutexLock.spuriousWakeup_ok hlock
    refine ⟨MutexLock.inv_move h.lock hmutex, h.low, h.high, fun u => ?_, fun u hasleep => ?_⟩
    · show Fits s.count (s.pc u) (lock.place u)
      by_cases hu : u = t
      · rw [hu, hplace]
        exact fits_woken (hparked ▸ h.fits t)
      · exact fits_others h hmutex hu
    · obtain ⟨c, timed, hasleep⟩ := hasleep
      have hasleep : lock.place u = .parked c timed := hasleep
      have hu : u ≠ t := by
        rintro rfl
        rw [hplace] at hasleep
        cases hasleep
      exact h.awaited u (asleep_others hmutex hu hasleep)

/-- **One step** keeps the invariant. -/
theorem inv_step (h : Inv tid s) (hstep : s.step tid act = some s') : Inv tid s' :=
  inv_moved h (moved_of_step hstep)

/-! ## Where a call goes -/

/-- The next places of a thread in a call. -/
def Pc.leadsTo : Pc → Pc → Bool
  | .waitEnter, .waitEnter | .waitEnter, .waitTest => true
  | .waitTest, .waitPark | .waitTest, .waitLeave => true
  | .waitPark, .waitPark | .waitPark, .waitTest => true
  | .waitLeave, .waitLeave | .waitLeave, .idle => true
  | .downEnter, .downEnter | .downEnter, .downDecrement => true
  | .downDecrement, .downTest => true
  | .downTest, .downNotify | .downTest, .downLeave => true
  | .downNotify, .downLeave => true
  | .downLeave, .downLeave | .downLeave, .idle => true
  | _, _ => false

/-- A call of `Wait` goes on or returns. -/
theorem Pc.inWait_leadsTo {pc pc' : Pc} (hwait : pc.inWait = true) (hnext : pc.leadsTo pc' = true) :
    pc'.inWait = true ∨ pc' = .idle := by
  cases pc <;> cases pc' <;>
    first
    | exact .inl rfl
    | exact .inr rfl
    | exact absurd hwait (by decide)
    | exact absurd hnext (by decide)

omit [DecidableEq τ] in
theorem onMutex_leadsTo {mact : MutexLock.Act τ Unit} {pc p : Pc} {q : Place Unit}
    (h : onMutex t pc q = some (mact, p)) : pc.leadsTo p = true := by
  unfold onMutex at h
  split at h <;> cases h <;> rfl

theorem Moved.others (hmoved : Moved tid s t s') (hu : u ≠ t) : s'.pc u = s.pc u := by
  cases hmoved with
  | spuriousWakeup => rfl
  | _ => exact Function.update_of_ne hu _ _

/-- The counter changes at `--count_` alone. -/
theorem Moved.count (hmoved : Moved tid s t s') : s'.count = s.count ∨
    s.pc t = .downDecrement ∧ s'.count = swrap 32 (s.count - 1) := by
  cases hmoved with
  | decrement hpc => exact .inr ⟨hpc, rfl⟩
  | _ => exact .inl rfl

theorem count_of_decrement (hmove : s.move tid t = some s') (hpc : s.pc t = .downDecrement) :
    s'.count = swrap 32 (s.count - 1) := by
  unfold move at hmove
  rw [hpc] at hmove
  cases hmove
  rfl

theorem leadsTo_of_move (hmove : s.move tid t = some s') :
    (s.pc t).leadsTo (s'.pc t) = true := by
  have hself (p : Pc) : (s.goes t p).pc t = p := by rw [goes_pc, if_pos rfl]
  have hmutex (pc : Pc) (hrest : (match onMutex t pc (s.lock.place t) with
      | none => none
      | some (act, pc') =>
        (s.lock.step tid act).map fun lock => { s.goes t pc' with lock := lock }) = some s') :
      pc.leadsTo (s'.pc t) = true := by
    split at hrest
    next => cases hrest
    next mact p hact =>
      obtain ⟨lock, hlock, rfl⟩ := Option.map_eq_some_iff.mp hrest
      show pc.leadsTo ((s.goes t p).pc t) = true
      rw [hself]
      exact onMutex_leadsTo hact
  unfold move at hmove
  split at hmove
  next => cases hmove
  next hpc =>
    cases hmove
    rw [hself, hpc]
    split <;> rfl
  next hpc =>
    cases hmove
    rw [hpc]
    show Pc.downDecrement.leadsTo ((s.goes t .downTest).pc t) = true
    rw [hself]
    rfl
  next hpc =>
    cases hmove
    rw [hself, hpc]
    split <;> rfl
  next => exact hmutex _ hmove

/-! ## What the latch promises -/

/-- Thread `t` returns from a call of `Wait`. -/
def ReturnsFromWait (s s' : CountDownLatch τ) (t : τ) : Prop :=
  (s.pc t).inWait = true ∧ s'.pc t = .idle

/-- `Wait` returns from its guard's destructor, and the counter stays as it is. -/
theorem leave_of_returns (hmoved : Moved tid s u s') (hreturns : ReturnsFromWait s s' t) :
    s.pc t = .waitLeave ∧ s'.count = s.count := by
  obtain ⟨hwait, hidle⟩ := hreturns
  have hself (p : Pc) : (s.goes u p).pc u = p := by rw [goes_pc, if_pos rfl]
  have hactor : t = u := by
    by_contra hother
    rw [hmoved.others hother] at hidle
    rw [hidle] at hwait
    cases hwait
  subst hactor
  cases hmoved with
  | call hpc =>
    rw [hpc] at hwait
    cases hwait
  | waitTest =>
    rw [hself] at hidle
    split at hidle <;> cases hidle
  | decrement hpc =>
    rw [hpc] at hwait
    cases hwait
  | downTest hpc =>
    rw [hpc] at hwait
    cases hwait
  | @onMutex mact p lock hact hlock =>
    have hp : (s.goes t p).pc t = .idle := hidle
    rw [hself] at hp
    exact ⟨onMutex_returns hact hwait hp, rfl⟩
  | spuriousWakeup =>
    have hpc : s.pc t = .idle := hidle
    rw [hpc] at hwait
    cases hwait

omit [DecidableEq τ] in
/-- A thread in its guard's destructor has seen the counter at 0 or below, and owns the mutex. -/
theorem leaving_of_fits (h : Inv tid s) (hpc : s.pc t = .waitLeave) :
    s.count ≤ 0 ∧ (s.lock.place t).owns = true := by
  have hfits := h.fits t
  rw [hpc] at hfits
  generalize s.lock.place t = place at hfits ⊢
  cases place <;> first | exact ⟨hfits, rfl⟩ | exact hfits.elim

/-- **No early release.** -/
theorem done_of_returns (h : Inv tid s) (hmoved : Moved tid s u s')
    (hreturns : ReturnsFromWait s s' t) : s'.count ≤ 0 := by
  obtain ⟨hpc, hcount⟩ := leave_of_returns hmoved hreturns
  rw [hcount]
  exact (leaving_of_fits h hpc).1

omit [DecidableEq τ] in
/-- **No lost wake-up.** -/
theorem not_asleep_of_done (h : Inv tid s) (hdone : s.count ≤ 0)
    (hquiet : ∀ u, (s.pc u).notifying = false) (t : τ) : ¬ Asleep s t := by
  intro hasleep
  rcases h.awaited t hasleep with hpos | ⟨u, ⟨hu, -⟩ | hu⟩
  · omega
  · have hnot := hquiet u
    rw [hu] at hnot
    cases hnot
  · have hnot := hquiet u
    rw [hu] at hnot
    cases hnot

/-- Both hold in every run of a latch, whatever its `int` was constructed with. -/
theorem latch_run {count : Int} (hlow : -2 ^ 31 ≤ count) (hhigh : count < 2 ^ 31)
    {acts : List (Act τ)} (hrun : (latchRuns tid).exec (construct count) acts = some s) :
    Inv tid s :=
  StepSystem.exec_invariant (I := Inv tid) (fun _ _ _ h hstep => inv_step h hstep)
    (inv_construct hlow hhigh) hrun

end CountDownLatch

end TurboNet.Base
