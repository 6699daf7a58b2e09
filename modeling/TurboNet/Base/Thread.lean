/-
# TurboNet.Base.Thread — a `Thread` object, its owner, and the body it starts.

`base/thread.{h,cpp}`.  `Start` creates a `std::thread` whose body captures the object by reference,
and waits on `latch_` until the body has stored `tid_` and taken `name_`; the body then calls `func_`
in place, as a member of the object.  `~Thread` detaches a thread that was started and not joined.

The owner calls `Start` once and `Join` once, as the asserts of both demand.  The latch is
`CountDownLatch` with two threads, and the steps of owner and body are those of the source between
two of them.  A `func_` that throws ends the process, so no state follows it.

The latch covers what the body does before `func_` (`start_returns`).  What covers `func_` itself is
`Join` alone: a detached body goes on using the object (`body_untouched_iff`).
-/
import TurboNet.Base.CountDownLatch
import TurboNet.Logger.Logger

namespace TurboNet.Base

open TurboNet.Lib
open TurboNet.Logger

namespace Thread

/-- The two threads that use a `Thread` object. -/
inductive Side where
  | owner
  | body
  deriving DecidableEq, Repr

/-- `thread_`. -/
inductive Handle where
  | null
  | joinable
  | notJoinable
  deriving DecidableEq, Repr

/-- Where the owner stands. -/
inductive OwnerPc where
  /-- Outside the member functions. -/
  | idle
  /-- `Start`: the `std::thread` runs, `latch_.Wait()` is to come. -/
  | launched
  /-- `Start`: in `latch_.Wait()`. -/
  | waiting
  /-- `Start`: `assert(tid_ > 0)`. -/
  | asserting
  /-- `Join`: in `thread_->join()`. -/
  | joining
  /-- `~Thread` has finished. -/
  | destroyed
  deriving DecidableEq, Repr

/-- The owner is in a `Start` that has created the `std::thread` and waits for it. -/
def OwnerPc.starting : OwnerPc → Bool
  | .launched | .waiting => true
  | _ => false

/-- Where the body stands: what it does next. -/
inductive BodyPc where
  /-- There is no body. -/
  | absent
  /-- `tid_ = CurrentThread::CachedTid()`. -/
  | storeTid
  /-- `CurrentThread::t_thread_name = name_`. -/
  | takeName
  /-- `::prctl(PR_SET_NAME, ...)`. -/
  | prctl
  /-- In `latch_.CountDown()`. -/
  | countDown
  /-- The call `func_()`. -/
  | callFunc
  /-- In `func_`. -/
  | inFunc
  /-- `CurrentThread::t_thread_name = "finished"`. -/
  | finish
  | ended
  deriving DecidableEq, Repr

/-- The next step of the body reads or writes a member of the `Thread`, or executes `func_`. -/
def BodyPc.touches : BodyPc → Bool
  | .storeTid | .takeName | .countDown | .callFunc | .inFunc => true
  | .absent | .prctl | .finish | .ended => false

/-- The body has stored `tid_`. -/
def BodyPc.stored : BodyPc → Bool
  | .absent | .storeTid => false
  | _ => true

/-- The body is past the latch. -/
def BodyPc.released : BodyPc → Bool
  | .callFunc | .inFunc | .finish | .ended => true
  | _ => false

end Thread

/-- The data members of `turbo::Thread`, and where its two threads stand. -/
structure Thread where
  started : Bool
  joined : Bool
  thread : Thread.Handle
  tid : Int
  latch : CountDownLatch Thread.Side
  owner : Thread.OwnerPc
  body : Thread.BodyPc

namespace Thread

/-- `Thread::Thread`. -/
def construct : Thread where
  started := false
  joined := false
  thread := .null
  tid := 0
  latch := CountDownLatch.construct 1
  owner := .idle
  body := .absent

/-- What happens next. -/
inductive Act where
  /-- `Start`, up to `latch_.Wait()`.  Without resources the constructor of `std::thread` throws. -/
  | start (created : Bool)
  /-- `Join`, up to `thread_->join()`. -/
  | join
  /-- `~Thread`. -/
  | destroy
  /-- The owner goes on in `Start` or `Join`. -/
  | ownerMove
  | bodyMove
  /-- A spurious wake-up of the owner in `latch_.Wait()`. -/
  | spuriousWakeup
  deriving DecidableEq, Repr

/-- `Start`; a body begins with the `std::thread`. -/
def start (s : Thread) (created : Bool) : Option Thread :=
  if s.owner = .idle ∧ s.started = false then
    if created then
      some { s with started := true, thread := .joinable, owner := .launched, body := .storeTid }
    else
      some { s with started := true }
  else
    none

/-- `Join`. -/
def join (s : Thread) : Option Thread :=
  if s.owner = .idle ∧ s.started = true ∧ s.joined = false ∧ s.thread = .joinable then
    some { s with joined := true, owner := .joining }
  else
    none

/-- `~Thread`. -/
def destroy (s : Thread) : Option Thread :=
  if s.owner = .idle then
    if s.started = true ∧ s.joined = false then
      if s.thread = .joinable then
        some { s with thread := .notJoinable, owner := .destroyed }
      else
        -- `thread_->detach()` on a null pointer
        none
    else
      some { s with owner := .destroyed }
  else
    none

def ownerMove (tids : Side → Int) (B : Build) (s : Thread) : Option Thread :=
  match s.owner with
  | .launched =>
    (s.latch.step tids (.callWait .owner)).map fun latch => { s with latch := latch, owner := .waiting }
  | .waiting =>
    (s.latch.step tids (.move .owner)).map fun latch =>
      { s with latch := latch, owner := if latch.pc .owner = .idle then .asserting else .waiting }
  | .asserting =>
    if B.asserts = true → 0 < s.tid then some { s with owner := .idle } else none
  | .joining =>
    if s.body = .ended then some { s with thread := .notJoinable, owner := .idle } else none
  | .idle | .destroyed => none

def bodyMove (tids : Side → Int) (s : Thread) : Option Thread :=
  match s.body with
  | .storeTid => some { s with tid := tids .body, body := .takeName }
  | .takeName => some { s with body := .prctl }
  | .prctl =>
    (s.latch.step tids (.callCountDown .body)).map fun latch =>
      { s with latch := latch, body := .countDown }
  | .countDown =>
    (s.latch.step tids (.move .body)).map fun latch =>
      { s with latch := latch, body := if latch.pc .body = .idle then .callFunc else .countDown }
  | .callFunc => some { s with body := .inFunc }
  | .inFunc => some { s with body := .finish }
  | .finish => some { s with body := .ended }
  | .absent | .ended => none

def step (tids : Side → Int) (B : Build) (s : Thread) : Act → Option Thread
  | .start created => s.start created
  | .join => s.join
  | .destroy => s.destroy
  | .ownerMove => s.ownerMove tids B
  | .bodyMove => s.bodyMove tids
  | .spuriousWakeup =>
    (s.latch.step tids (.spuriousWakeup .owner)).map fun latch => { s with latch := latch }

/-- The runs of a `Thread` object with its owner and its body. -/
def threadRuns (tids : Side → Int) (B : Build) : StepSystem Thread Act where
  step := step tids B

/-! ## The invariant -/

variable {tids : Side → Int} {B : Build} {s s' : Thread} {act : Act}

/-- Where the body stands in the latch, and what the counter is then. -/
def BodyFits : BodyPc → CountDownLatch.Pc → Int → Prop
  | .countDown, .downEnter, count | .countDown, .downDecrement, count => count = 1
  | .countDown, .downTest, count | .countDown, .downNotify, count
  | .countDown, .downLeave, count => count = 0
  | .callFunc, .idle, count | .inFunc, .idle, count | .finish, .idle, count
  | .ended, .idle, count => count = 0
  | .absent, .idle, count | .storeTid, .idle, count | .takeName, .idle, count
  | .prctl, .idle, count => count = 1
  | _, _, _ => False

structure Inv (tids : Side → Int) (s : Thread) : Prop where
  latch : s.latch.Inv tids
  body : BodyFits s.body (s.latch.pc .body) s.latch.count
  waiting : s.owner = .waiting ↔ (s.latch.pc .owner).inWait = true
  resting : s.owner ≠ .waiting → s.latch.pc .owner = .idle
  tid : s.body.stored = true → s.tid = tids .body
  released : s.owner.starting = false → s.thread ≠ .null → s.body.released = true
  unstarted : s.started = false → s.thread = .null
  absent : s.thread = .null → s.body = .absent
  handle : s.thread = .null → s.owner = .idle ∨ s.owner = .destroyed
  joined : s.joined = true → s.owner ≠ .joining → s.body = .ended

theorem inv_construct : Inv tids construct where
  latch := CountDownLatch.inv_construct (by decide) (by decide)
  body := rfl
  waiting := ⟨nofun, nofun⟩
  resting _ := rfl
  tid := nofun
  released _ h := absurd rfl h
  unstarted _ := rfl
  absent _ := rfl
  handle _ := .inl rfl
  joined := nofun

/-! ### The latch inside -/

/-- A body outside `latch_.CountDown()` is outside the latch, which it has opened or not. -/
theorem bodyFits_iff {body : BodyPc} {pc : CountDownLatch.Pc} {count : Int}
    (hbody : body ≠ .countDown) :
    BodyFits body pc count ↔ pc = .idle ∧ count = if body.released then 0 else 1 := by
  cases body <;> cases pc <;>
    first
    | exact ⟨fun h => ⟨rfl, h⟩, And.right⟩
    | exact absurd rfl hbody
    | exact ⟨False.elim, nofun⟩

theorem bodyFits_outside {body body' : BodyPc} {pc : CountDownLatch.Pc} {count : Int}
    (h : BodyFits body pc count) (hbefore : body ≠ .countDown) (hafter : body' ≠ .countDown)
    (hreleased : body'.released = body.released) : BodyFits body' pc count := by
  rw [bodyFits_iff hbefore] at h
  rw [bodyFits_iff hafter, hreleased]
  exact h

/-- The counter is 0 when the body has lowered it. -/
theorem released_of_done {body : BodyPc} {pc : CountDownLatch.Pc} {count : Int}
    (h : BodyFits body pc count) (hdone : count ≤ 0) :
    body.released = true ∨ pc = .downTest ∨ pc = .downNotify ∨ pc = .downLeave := by
  cases body <;> cases pc <;>
    first
    | exact .inl rfl
    | exact .inr (.inl rfl)
    | exact .inr (.inr (.inl rfl))
    | exact .inr (.inr (.inr rfl))
    | exact h.elim
    | (have hone : count = 1 := h
       omega)

/-- The body in `CountDown`, after a step of its own. -/
theorem bodyFits_next {pc pc' : CountDownLatch.Pc} {count count' : Int}
    (h : BodyFits .countDown pc count) (hnext : pc.leadsTo pc' = true)
    (hcount : count' = count ∧ pc ≠ .downDecrement ∨
      pc = .downDecrement ∧ count' = swrap 32 (count - 1)) :
    BodyFits (if pc' = .idle then .callFunc else .countDown) pc' count' := by
  rcases hcount with ⟨rfl, hpc⟩ | ⟨rfl, rfl⟩
  · cases pc <;> cases pc' <;> first | exact absurd rfl hpc | exact h | exact h.elim | cases hnext
  · have hone : count = 1 := h
    subst hone
    cases pc' <;> first | rfl | cases hnext

/-- `latch_.Wait()` returns when the body is out of the latch: a body that has lowered the counter
and is still in it would own the mutex beside the owner. -/
theorem released_of_returns {latch : CountDownLatch Side} (h : Inv tids s)
    (hmoved : CountDownLatch.Moved tids s.latch .owner latch)
    (hreturns : CountDownLatch.ReturnsFromWait s.latch latch .owner) :
    s.body.released = true := by
  obtain ⟨hpc, -⟩ := CountDownLatch.leave_of_returns hmoved hreturns
  obtain ⟨hdone, hleave⟩ := CountDownLatch.leaving_of_fits h.latch hpc
  rcases released_of_done h.body hdone with hreleased | hpc
  · exact hreleased
  · have hfits := h.latch.fits .body
    have howns : (s.latch.lock.place .body).owns = true := by
      generalize s.latch.pc .body = pc at hpc hfits
      generalize s.latch.lock.place .body = place at hfits ⊢
      rcases hpc with rfl | rfl | rfl <;> cases place <;> first | rfl | exact hfits.elim
    cases h.latch.lock.exclusive howns hleave

/-! ### One step -/

theorem inv_start {created : Bool} (h : Inv tids s) (hstep : s.start created = some s') :
    Inv tids s' := by
  unfold start at hstep
  split at hstep
  next hpre =>
    obtain ⟨howner, hstarted⟩ := hpre
    have hnull := h.unstarted hstarted
    have habsent := h.absent hnull
    have hresting : s.latch.pc .owner = .idle := h.resting (by rw [howner]; exact nofun)
    split at hstep
    next =>
      cases hstep
      refine ⟨h.latch, ?_, ⟨nofun, ?_⟩, fun _ => hresting, nofun, nofun, nofun, nofun, nofun, ?_⟩
      · have hbody := h.body
        rw [habsent] at hbody
        exact bodyFits_outside hbody nofun nofun rfl
      · intro hwait
        rw [hresting] at hwait
        cases hwait
      · intro hjoined
        have hended := h.joined hjoined (by rw [howner]; exact nofun)
        rw [habsent] at hended
        cases hended
    next =>
      cases hstep
      exact ⟨h.latch, h.body, h.waiting, h.resting, h.tid, h.released, nofun, h.absent, h.handle,
        h.joined⟩
  next => cases hstep

/-- The owner moves outside `latch_.Wait()`. -/
theorem inv_owner {joined : Bool} {thread : Handle} {owner : OwnerPc} (h : Inv tids s)
    (hbefore : s.owner ≠ .waiting) (hafter : owner ≠ .waiting)
    (hreleased : owner.starting = false → thread ≠ .null → s.body.released = true)
    (hunstarted : s.started = false → thread = .null)
    (hnull : thread = .null → s.body = .absent ∧ (owner = .idle ∨ owner = .destroyed))
    (hjoined : joined = true → owner ≠ .joining → s.body = .ended) :
    Inv tids { s with joined := joined, thread := thread, owner := owner } where
  latch := h.latch
  body := h.body
  waiting := by
    have hresting := h.resting hbefore
    refine ⟨fun howner => absurd howner hafter, fun hwait => ?_⟩
    have hwait : (s.latch.pc .owner).inWait = true := hwait
    rw [hresting] at hwait
    cases hwait
  resting _ := h.resting hbefore
  tid := h.tid
  released := hreleased
  unstarted := hunstarted
  absent hthread := (hnull hthread).1
  handle hthread := (hnull hthread).2
  joined := hjoined

/-- With a handle the `Thread` was started. -/
theorem started_of_handle (h : Inv tids s) {handle : Handle} (hthread : s.thread = handle)
    (hhandle : handle ≠ .null) : s.started ≠ false := by
  intro hstarted
  exact hhandle (hthread.symm.trans (h.unstarted hstarted))

theorem inv_join (h : Inv tids s) (hstep : s.join = some s') : Inv tids s' := by
  unfold join at hstep
  split at hstep
  next hpre =>
    obtain ⟨howner, -, -, hjoinable⟩ := hpre
    cases hstep
    refine inv_owner h (by rw [howner]; exact nofun) nofun (fun _ => ?_) h.unstarted
      (fun hnull => ?_) (fun _ hjoining => absurd rfl hjoining)
    · exact h.released (by rw [howner]; rfl)
    · rw [hjoinable] at hnull
      cases hnull
  next => cases hstep

theorem inv_destroy (h : Inv tids s) (hstep : s.destroy = some s') : Inv tids s' := by
  unfold destroy at hstep
  split at hstep
  next howner =>
    have hresting : s.owner ≠ .waiting := by rw [howner]; exact nofun
    have hreleased : s.thread ≠ .null → s.body.released = true :=
      h.released (by rw [howner]; rfl)
    split at hstep
    next hdetach =>
      split at hstep
      next hjoinable =>
        cases hstep
        refine inv_owner h hresting nofun (fun _ _ => ?_) (fun hstarted => ?_) nofun
          (fun hjoined => ?_)
        · exact hreleased (by rw [hjoinable]; exact nofun)
        · exact absurd hstarted (started_of_handle h hjoinable nofun)
        · rw [hdetach.2] at hjoined
          cases hjoined
      next => cases hstep
    next =>
      cases hstep
      refine inv_owner h hresting nofun (fun _ => hreleased) h.unstarted
        (fun hnull => ⟨h.absent hnull, .inr rfl⟩) (fun hjoined _ => ?_)
      exact h.joined hjoined (by rw [howner]; exact nofun)
  next => cases hstep

theorem inv_ownerMove (h : Inv tids s) (hstep : s.ownerMove tids B = some s') : Inv tids s' := by
  unfold ownerMove at hstep
  split at hstep
  next howner =>
    obtain ⟨latch, hlatch, rfl⟩ := Option.map_eq_some_iff.mp hstep
    have hinv := CountDownLatch.inv_step h.latch hlatch
    obtain ⟨-, rfl⟩ := CountDownLatch.callWait_ok hlatch
    have hpc := CountDownLatch.goes_pc (s := s.latch) (t := .owner) .waitEnter
    refine ⟨hinv, ?_, ⟨fun _ => ?_, fun _ => rfl⟩, fun hnot => absurd rfl hnot, h.tid, nofun,
      h.unstarted, h.absent, fun hnull => ?_, fun hjoined _ => ?_⟩
    · show BodyFits s.body ((s.latch.goes .owner .waitEnter).pc .body) s.latch.count
      rw [hpc, if_neg nofun]
      exact h.body
    · show ((s.latch.goes .owner .waitEnter).pc .owner).inWait = true
      rw [hpc, if_pos rfl]
      rfl
    · have hhandle := h.handle hnull
      rw [howner] at hhandle
      rcases hhandle with hhandle | hhandle <;> cases hhandle
    · exact h.joined hjoined (by rw [howner]; exact nofun)
  next howner =>
    obtain ⟨latch, hlatch, rfl⟩ := Option.map_eq_some_iff.mp hstep
    have hinv := CountDownLatch.inv_step h.latch hlatch
    have hmoved : CountDownLatch.Moved tids s.latch .owner latch :=
      CountDownLatch.moved_of_step hlatch
    have hwait : (s.latch.pc .owner).inWait = true := h.waiting.mp howner
    have hbody : latch.pc .body = s.latch.pc .body := hmoved.others nofun
    have hcount : latch.count = s.latch.count := by
      rcases hmoved.count with hsame | ⟨hpc, -⟩
      · exact hsame
      · have hpc : s.latch.pc .owner = .downDecrement := hpc
        rw [hpc] at hwait
        cases hwait
    have hfits : BodyFits s.body (latch.pc .body) latch.count := by
      rw [hbody, hcount]
      exact h.body
    have hjoined (hjoined : s.joined = true) : s.body = .ended :=
      h.joined hjoined (by rw [howner]; exact nofun)
    have hthread (hnull : s.thread = .null) : False := by
      -- an owner that waits has created the thread
      have hhandle := h.handle hnull
      rw [howner] at hhandle
      rcases hhandle with hhandle | hhandle <;> cases hhandle
    by_cases hidle : latch.pc .owner = .idle
    · have hreleased := released_of_returns h hmoved ⟨hwait, hidle⟩
      rw [if_pos hidle]
      refine ⟨hinv, hfits, ⟨nofun, ?_⟩, fun _ => hidle, h.tid, fun _ _ => hreleased, h.unstarted,
        h.absent, fun hnull => (hthread hnull).elim, fun hj _ => hjoined hj⟩
      intro hw
      rw [hidle] at hw
      cases hw
    · rw [if_neg hidle]
      have hstays : (latch.pc .owner).inWait = true :=
        (CountDownLatch.Pc.inWait_leadsTo hwait (CountDownLatch.leadsTo_of_move hlatch)).resolve_right
          hidle
      exact ⟨hinv, hfits, ⟨fun _ => hstays, fun _ => rfl⟩, fun hnot => absurd rfl hnot, h.tid, nofun,
        h.unstarted, h.absent, fun hnull => (hthread hnull).elim, fun hj _ => hjoined hj⟩
  next howner =>
    split at hstep
    next =>
      cases hstep
      refine inv_owner h (by rw [howner]; exact nofun) nofun (fun _ => ?_) h.unstarted
        (fun hnull => ⟨h.absent hnull, .inl rfl⟩) (fun hjoined _ => ?_)
      · exact h.released (by rw [howner]; rfl)
      · exact h.joined hjoined (by rw [howner]; exact nofun)
    next => cases hstep
  next howner =>
    split at hstep
    next hended =>
      cases hstep
      refine inv_owner h (by rw [howner]; exact nofun) nofun (fun _ _ => ?_) (fun hstarted => ?_)
        nofun (fun _ _ => hended)
      · rw [hended]
        rfl
      · have habsent := h.absent (h.unstarted hstarted)
        rw [hended] at habsent
        cases habsent
    next => cases hstep
  next => cases hstep
  next => cases hstep

/-- A step of a body that is there and has not ended. -/
theorem inv_body {body : BodyPc} {tid : Int} {latch : CountDownLatch Side} (h : Inv tids s)
    (hlatch : latch.Inv tids) (hpresent : s.body ≠ .absent) (hrunning : s.body ≠ .ended)
    (hfits : BodyFits body (latch.pc .body) latch.count)
    (howner : latch.pc .owner = s.latch.pc .owner)
    (htid : body.stored = true → tid = tids .body)
    (hreleased : s.body.released = true → body.released = true) :
    Inv tids { s with tid := tid, latch := latch, body := body } where
  latch := hlatch
  body := hfits
  waiting := by
    show s.owner = .waiting ↔ (latch.pc .owner).inWait = true
    rw [howner]
    exact h.waiting
  resting hnot := howner.trans (h.resting hnot)
  tid := htid
  released hstarting hthread := hreleased (h.released hstarting hthread)
  unstarted := h.unstarted
  absent hnull := absurd (h.absent hnull) hpresent
  handle := h.handle
  joined hjoined hjoining := absurd (h.joined hjoined hjoining) hrunning

/-- A step of the body outside `latch_.CountDown()`. -/
theorem inv_outside {pc body : BodyPc} {tid : Int} (h : Inv tids s) (hbody : s.body = pc)
    (hpresent : pc ≠ .absent) (hrunning : pc ≠ .ended) (hbefore : pc ≠ .countDown)
    (hafter : body ≠ .countDown) (hreleased : body.released = pc.released)
    (htid : body.stored = true → tid = tids .body) :
    Inv tids { s with tid := tid, body := body } := by
  subst hbody
  exact inv_body h h.latch hpresent hrunning (bodyFits_outside h.body hbefore hafter hreleased) rfl
    htid hreleased.trans

theorem inv_bodyMove (h : Inv tids s) (hstep : s.bodyMove tids = some s') : Inv tids s' := by
  have hfits := h.body
  have hstored {pc : BodyPc} (hbody : s.body = pc) (hpc : pc.stored = true) :
      s.tid = tids .body := h.tid (hbody ▸ hpc)
  unfold bodyMove at hstep
  split at hstep
  next hbody =>
    cases hstep
    exact inv_outside h hbody nofun nofun nofun nofun rfl fun _ => rfl
  next hbody =>
    cases hstep
    exact inv_outside h hbody nofun nofun nofun nofun rfl fun _ => hstored hbody rfl
  next hbody =>
    obtain ⟨latch, hlatch, rfl⟩ := Option.map_eq_some_iff.mp hstep
    have hinv := CountDownLatch.inv_step h.latch hlatch
    obtain ⟨hidle, rfl⟩ := CountDownLatch.callCountDown_ok hlatch
    have hpc := CountDownLatch.goes_pc (s := s.latch) (t := .body) .downEnter
    rw [hbody, hidle] at hfits
    refine inv_body h hinv (by rw [hbody]; exact nofun) (by rw [hbody]; exact nofun) ?_ ?_
      (fun _ => hstored hbody rfl) (by rw [hbody]; exact nofun)
    · rw [hpc, if_pos rfl]
      exact hfits
    · rw [hpc, if_neg nofun]
  next hbody =>
    obtain ⟨latch, hlatch, rfl⟩ := Option.map_eq_some_iff.mp hstep
    -- in `latch_.CountDown()`, the only place where the body is in the latch
    have hmoved := CountDownLatch.moved_of_step hlatch
    rw [hbody] at hfits
    refine inv_body h (CountDownLatch.inv_step h.latch hlatch) (by rw [hbody]; exact nofun)
      (by rw [hbody]; exact nofun) ?_ (hmoved.others nofun) (fun _ => hstored hbody rfl)
      (by rw [hbody]; exact nofun)
    refine bodyFits_next hfits (CountDownLatch.leadsTo_of_move hlatch) ?_
    by_cases hpc : s.latch.pc .body = .downDecrement
    · exact .inr ⟨hpc, CountDownLatch.count_of_decrement hlatch hpc⟩
    · rcases hmoved.count with hsame | ⟨hdecrement, -⟩
      · exact .inl ⟨hsame, hpc⟩
      · exact absurd hdecrement hpc
  next hbody =>
    cases hstep
    exact inv_outside h hbody nofun nofun nofun nofun rfl fun _ => hstored hbody rfl
  next hbody =>
    cases hstep
    exact inv_outside h hbody nofun nofun nofun nofun rfl fun _ => hstored hbody rfl
  next hbody =>
    cases hstep
    exact inv_outside h hbody nofun nofun nofun nofun rfl fun _ => hstored hbody rfl
  next => cases hstep
  next => cases hstep

theorem inv_spuriousWakeup (h : Inv tids s)
    (hstep : s.step tids B .spuriousWakeup = some s') : Inv tids s' := by
  obtain ⟨latch, hlatch, rfl⟩ := Option.map_eq_some_iff.mp hstep
  have hinv := CountDownLatch.inv_step h.latch hlatch
  obtain ⟨lock, -, rfl⟩ := Option.map_eq_some_iff.mp hlatch
  exact ⟨hinv, h.body, h.waiting, h.resting, h.tid, h.released, h.unstarted, h.absent, h.handle,
    h.joined⟩

/-- **One step** of the owner or the body keeps the invariant. -/
theorem inv_step (h : Inv tids s) (hstep : s.step tids B act = some s') : Inv tids s' := by
  cases act with
  | start created => exact inv_start h hstep
  | join => exact inv_join h hstep
  | destroy => exact inv_destroy h hstep
  | ownerMove => exact inv_ownerMove h hstep
  | bodyMove => exact inv_bodyMove h hstep
  | spuriousWakeup => exact inv_spuriousWakeup h hstep

theorem inv_run {acts : List Act} (hrun : (threadRuns tids B).exec construct acts = some s) :
    Inv tids s :=
  StepSystem.exec_invariant (I := Inv tids) (fun _ _ _ h hstep => inv_step h hstep)
    inv_construct hrun

/-! ### What a step leaves alone -/

theorem bodyMove_keeps (hstep : s.bodyMove tids = some s') :
    s'.owner = s.owner ∧ s'.thread = s.thread := by
  unfold bodyMove at hstep
  split at hstep
  case h_3 | h_4 =>
    obtain ⟨latch, -, rfl⟩ := Option.map_eq_some_iff.mp hstep
    exact ⟨rfl, rfl⟩
  all_goals
    cases hstep
    try exact ⟨rfl, rfl⟩

theorem ownerMove_keeps (hstep : s.ownerMove tids B = some s') :
    s'.body = s.body ∧ (s'.thread = s.thread ∨ s'.thread = .notJoinable) ∧
      s'.owner ≠ .destroyed := by
  unfold ownerMove at hstep
  split at hstep
  case h_1 =>
    obtain ⟨latch, -, rfl⟩ := Option.map_eq_some_iff.mp hstep
    exact ⟨rfl, .inl rfl, nofun⟩
  case h_2 =>
    obtain ⟨latch, -, rfl⟩ := Option.map_eq_some_iff.mp hstep
    refine ⟨rfl, .inl rfl, ?_⟩
    show (if latch.pc .owner = .idle then OwnerPc.asserting else .waiting) ≠ .destroyed
    split <;> exact nofun
  case h_3 =>
    split at hstep
    next =>
      cases hstep
      exact ⟨rfl, .inl rfl, nofun⟩
    next => cases hstep
  case h_4 =>
    split at hstep
    next =>
      cases hstep
      exact ⟨rfl, .inr rfl, nofun⟩
    next => cases hstep
  all_goals cases hstep

/-! The owner is outside the member functions when it calls one. -/

theorem start_ok {created : Bool} (hstep : s.start created = some s') :
    s.owner = .idle ∧ s'.owner ≠ .destroyed := by
  unfold start at hstep
  split at hstep
  next hpre =>
    obtain ⟨howner, -⟩ := hpre
    split at hstep
    next =>
      cases hstep
      exact ⟨howner, nofun⟩
    next =>
      cases hstep
      refine ⟨howner, ?_⟩
      show s.owner ≠ .destroyed
      rw [howner]
      exact nofun
  next => cases hstep

theorem join_ok (hstep : s.join = some s') : s.owner = .idle ∧ s'.owner ≠ .destroyed := by
  unfold join at hstep
  split at hstep
  next hpre =>
    cases hstep
    exact ⟨hpre.1, nofun⟩
  next => cases hstep

theorem destroy_ok (hstep : s.destroy = some s') :
    s.owner = .idle ∧ s'.owner = .destroyed ∧ s'.body = s.body := by
  unfold destroy at hstep
  split at hstep
  next howner =>
    split at hstep
    next =>
      split at hstep
      next =>
        cases hstep
        exact ⟨howner, rfl, rfl⟩
      next => cases hstep
    next =>
      cases hstep
      exact ⟨howner, rfl, rfl⟩
  next => cases hstep

/-! ## What `Start` promises -/

/-- The step by which `Start` returns, having created the `std::thread`. -/
def StartReturns (s s' : Thread) : Prop :=
  (s.owner.starting = true ∨ s.owner = .asserting) ∧ s'.owner = .idle

/-- **`Start` returns only after the new thread has stored its `tid_`**, also where asserts are
compiled out. -/
theorem stored_of_returns (h : Inv tids s) (hstep : s.step tids B act = some s')
    (hreturns : StartReturns s s') : s'.body.stored = true ∧ s'.tid = tids .body := by
  have hinv := inv_step h hstep
  obtain ⟨hstart, hidle⟩ := hreturns
  have hbusy : s.owner ≠ .idle := by
    intro howner
    rw [howner] at hstart
    rcases hstart with hstart | hstart <;> cases hstart
  have hthread : s.thread ≠ .null := by
    intro hnull
    rcases h.handle hnull with howner | howner
    · exact hbusy howner
    · rw [howner] at hstart
      rcases hstart with hstart | hstart <;> cases hstart
  have hthread' : s'.thread ≠ .null := by
    cases act with
    | start created => exact absurd (start_ok hstep).1 hbusy
    | join => exact absurd (join_ok hstep).1 hbusy
    | destroy => exact absurd (destroy_ok hstep).1 hbusy
    | ownerMove =>
      obtain ⟨-, hhandle, -⟩ := ownerMove_keeps hstep
      rcases hhandle with hsame | hjoined
      · rw [hsame]
        exact hthread
      · rw [hjoined]
        exact nofun
    | bodyMove =>
      rw [(bodyMove_keeps hstep).2]
      exact hthread
    | spuriousWakeup =>
      obtain ⟨latch, -, rfl⟩ := Option.map_eq_some_iff.mp hstep
      exact hthread
  have hreleased := hinv.released (by rw [hidle]; rfl) hthread'
  have hstored : s'.body.stored = true := by
    generalize s'.body = body at hreleased ⊢
    cases body <;> first | rfl | cases hreleased
  exact ⟨hstored, hinv.tid hstored⟩

/-! ## What `~Thread` leaves behind -/

/-- After `~Thread` has finished the body takes no step that uses the object. -/
def Untouched (s : Thread) : Prop := s.owner = .destroyed → s.body.touches = false

/-- The destructor runs after `Join`, or when the body, if there is one, is out of `func_`. -/
def InTime (s : Thread) : Act → Prop
  | .destroy => s.joined = true ∨ s.body.touches = false
  | _ => True

instance (s : Thread) : (act : Act) → Decidable (InTime s act)
  | .destroy => inferInstanceAs (Decidable (s.joined = true ∨ s.body.touches = false))
  | .start _ | .join | .ownerMove | .bodyMove | .spuriousWakeup => .isTrue trivial

/-- Only `~Thread` destroys, and the owner does nothing with a destroyed `Thread`. -/
theorem destroyed_before (hstep : s.step tids B act = some s') (hact : act ≠ .destroy)
    (hdestroyed : s'.owner = .destroyed) :
    s.owner = .destroyed ∧ (act = .bodyMove ∨ act = .spuriousWakeup) := by
  cases act with
  | start created => exact absurd hdestroyed (start_ok hstep).2
  | join => exact absurd hdestroyed (join_ok hstep).2
  | destroy => exact absurd rfl hact
  | ownerMove => exact absurd hdestroyed (ownerMove_keeps hstep).2.2
  | bodyMove => exact ⟨(bodyMove_keeps hstep).1 ▸ hdestroyed, .inl rfl⟩
  | spuriousWakeup =>
    obtain ⟨latch, -, rfl⟩ := Option.map_eq_some_iff.mp hstep
    exact ⟨hdestroyed, .inr rfl⟩

/-- A body that does not use a destroyed object is at its end. -/
theorem finished_of_untouched (h : Inv tids s) (hdestroyed : s.owner = .destroyed)
    (huntouched : s.body.touches = false) :
    s.body = .absent ∨ s.body = .finish ∨ s.body = .ended := by
  by_cases hnull : s.thread = .null
  · exact .inl (h.absent hnull)
  · have hreleased := h.released (by rw [hdestroyed]; rfl) hnull
    generalize s.body = body at hreleased huntouched ⊢
    cases body <;>
      first
      | exact .inr (.inl rfl)
      | exact .inr (.inr rfl)
      | exact absurd hreleased (by decide)
      | exact absurd huntouched (by decide)

theorem untouched_step (h : Inv tids s) (huntouched : Untouched s) (hintime : InTime s act)
    (hstep : s.step tids B act = some s') : Untouched s' := by
  intro hdestroyed
  by_cases hact : act = .destroy
  · subst hact
    obtain ⟨howner, -, hbody⟩ := destroy_ok hstep
    rw [hbody]
    rcases hintime with hjoined | htouches
    · rw [h.joined hjoined (by rw [howner]; exact nofun)]
      rfl
    · exact htouches
  · obtain ⟨hbefore, hmoves⟩ := destroyed_before hstep hact hdestroyed
    have htouches := huntouched hbefore
    rcases hmoves with rfl | rfl
    · have hmove : s.bodyMove tids = some s' := hstep
      unfold bodyMove at hmove
      rcases finished_of_untouched h hbefore htouches with hbody | hbody | hbody
      · rw [hbody] at hmove
        cases hmove
      · rw [hbody] at hmove
        cases hmove
        rfl
      · rw [hbody] at hmove
        cases hmove
    · obtain ⟨latch, -, rfl⟩ := Option.map_eq_some_iff.mp hstep
      exact htouches

theorem inTime_of_untouched (hstep : s.step tids B act = some s') (huntouched : Untouched s') :
    InTime s act := by
  cases act with
  | destroy =>
    obtain ⟨-, hdestroyed, hbody⟩ := destroy_ok hstep
    exact .inr (hbody ▸ huntouched hdestroyed)
  | _ => trivial

/-- **When a body leaves a destroyed `Thread` alone.** In every run of owner and body: in every state
exactly when the destructor runs after `Join`, or when `func_` has returned. -/
theorem body_untouched_iff (tids : Side → Int) (B : Build) (acts : List Act) {s : Thread}
    (hrun : (threadRuns tids B).exec construct acts = some s) :
    (threadRuns tids B).Throughout Untouched construct acts ↔
      (threadRuns tids B).Along InTime construct acts :=
  StepSystem.throughout_iff_along (J := Inv tids) (fun _ _ _ h hstep => inv_step h hstep)
    (fun _ _ _ h huntouched hintime hstep => untouched_step h huntouched hintime hstep)
    (fun _ _ _ _ _ hstep huntouched => inTime_of_untouched hstep huntouched)
    inv_construct nofun hrun

/-- The ids of the two threads. -/
def twoIds : Side → Int
  | .owner => 1
  | .body => 2

/-- The body stores its `tid_` and counts the latch down, and the owner comes out of `Start`. -/
def startedRun : List Act :=
  [.start true] ++ List.replicate 10 .bodyMove ++ List.replicate 7 .ownerMove

theorem body_untouched_iff_joined :
    ∃ s, (threadRuns twoIds .debug).exec construct
        (startedRun ++ [.join] ++ List.replicate 3 .bodyMove ++ [.ownerMove, .destroy]) = some s ∧
      s.owner = .destroyed ∧
      (threadRuns twoIds .debug).Throughout Untouched construct
        (startedRun ++ [.join] ++ List.replicate 3 .bodyMove ++ [.ownerMove, .destroy]) :=
  ⟨_, rfl, rfl, (body_untouched_iff twoIds .debug _ rfl).mpr (by decide)⟩

/-- Without `Join` the destructor detaches: the body, about to call `func_`, does so on the destroyed
object. -/
theorem body_uses_destroyed :
    ∃ s, (threadRuns twoIds .debug).exec construct (startedRun ++ [.destroy]) = some s ∧
      s.owner = .destroyed ∧ s.body = .callFunc ∧
      ((threadRuns twoIds .debug).step s .bodyMove).isSome = true ∧ ¬ Untouched s := by
  refine ⟨_, rfl, rfl, rfl, rfl, fun huntouched => ?_⟩
  have htouches := huntouched rfl
  cases htouches

end Thread

/-! ## The latch and `Start` -/

open CountDownLatch in
/-- **The latch never releases early and never loses a wake-up**, for every initial count, any number
of threads, waits, surplus countdowns and spurious wake-ups: `Wait` returns only with `count_ <= 0`,
and once `count_ <= 0` and no `CountDown` has its notification to come, nobody sleeps in the condition
without a pending wake-up.  Therefore `Thread::Start` returns only after the new thread has stored its
`tid_`. -/
theorem latch_releases_in_time {τ : Type} [DecidableEq τ] (tid : τ → Int) {count : Int}
    (hlow : -2 ^ 31 ≤ count) (hhigh : count < 2 ^ 31) (acts : List (Act τ)) {s : CountDownLatch τ}
    (hrun : (latchRuns tid).exec (construct count) acts = some s) :
    (∀ act s' t, s.step tid act = some s' → ReturnsFromWait s s' t → s'.count ≤ 0) ∧
      (s.count ≤ 0 → (∀ u, (s.pc u).notifying = false) → ∀ t, ¬ Asleep s t) ∧
      ∀ tids B tacts r act r', (Thread.threadRuns tids B).exec Thread.construct tacts = some r →
        r.step tids B act = some r' → Thread.StartReturns r r' →
          r'.body.stored = true ∧ r'.tid = tids .body := by
  have hinv := latch_run hlow hhigh hrun
  refine ⟨fun act s' t hstep hreturns => ?_, fun hdone hquiet t => ?_, ?_⟩
  · exact done_of_returns hinv (moved_of_step hstep) hreturns
  · exact not_asleep_of_done hinv hdone hquiet t
  · intro tids B tacts r act r' hthread hstep hreturns
    exact Thread.stored_of_returns (Thread.inv_run hthread) hstep hreturns

/-- Thread 0 waits and falls asleep; thread 1 counts down and leaves. -/
def waitThenDown : List (CountDownLatch.Act (Fin 2)) :=
  [.callWait 0] ++ List.replicate 6 (.move 0) ++ [.callCountDown 1] ++ List.replicate 7 (.move 1)

theorem latch_releases_in_time_waitThenDown :
    ∃ s, (CountDownLatch.latchRuns fun t : Fin 2 => (t : Int) + 1).exec
        (CountDownLatch.construct 1) waitThenDown = some s ∧
      s.count = 0 ∧ s.pc 0 = .waitPark ∧ ¬ CountDownLatch.Asleep s 0 :=
  ⟨_, rfl, rfl, rfl, (latch_releases_in_time (fun t : Fin 2 => (t : Int) + 1)
    (by decide : (-2 : Int) ^ 31 ≤ 1) (by decide) waitThenDown rfl).2.1 (by decide) (by decide) 0⟩

end TurboNet.Base
