/-
# TurboNet.Logger.AsyncRestart — the asynchronous logger starts once.

`Start` and `Stop` may be called in any order and any number of times; what they may not do, where
asserts are compiled in, is start the backend thread a second time: `started_` is never cleared, and
the next `Thread::Start` asserts that it is.  `tracks_iff` says that this is all: in every run the
backend thread runs exactly when the last call was a `Start`, no assert fires and no call hangs, just
when no call starts it again.
-/
import TurboNet.Logger.AsyncDefault

namespace TurboNet.Logger

open TurboNet.Lib
open TurboNet.Base

/-! ## The logger, whatever `running_` is -/

namespace AsyncLogging

variable {SIZE : Nat} {B : Build} {l l' : AsyncLogging SIZE}

/-- Sane, but for what `running_` is when the backend enters `ThreadFunc`. -/
def Sound (l : AsyncLogging SIZE) : Prop := Sane { l with running := true }

theorem sound_construct : Sound (construct SIZE) :=
  ⟨rfl, .inl rfl, nofun, trivial⟩

theorem Sound.sane (h : Sound l) (hentry : l.place = .entry → l.running = true) : Sane l :=
  ⟨h.current, h.next, h.buffers, h.stack.congr rfl hentry rfl rfl rfl⟩

theorem Sane.sound (h : Sane l) : Sound l := by
  refine ⟨h.current, h.next, h.buffers, h.stack.congr rfl (fun hentry => ?_) rfl rfl rfl⟩
  have hstack := h.stack
  unfold StackSane at hstack
  rw [hentry] at hstack
  exact hstack.symm

theorem Sound.goto_entry (h : Sound l) : Sound (l.goto .entry) :=
  ⟨h.current, h.next, h.buffers, rfl⟩

/-- `Append` does not read `running_`. -/
theorem AppendMove.forget {data : List Byte} (h : AppendMove data l l') :
    AppendMove data { l with running := true } { l' with running := true } := by
  cases h with
  | inPlace b hcurrent hroom => exact .inPlace b hcurrent hroom
  | rotated b fresh hcurrent hroom hfresh => exact .rotated b fresh hcurrent hroom hfresh

theorem Sound.append {data : List Byte} (h : Sound l) (hmove : AppendMove data l l') : Sound l' :=
  hmove.forget.sane h

theorem Move.enter_of (h : Move l l') (hentry : l.place = .entry) :
    l' = { l with
      newBuffer1 := some FixedBuffer.construct.bZero
      newBuffer2 := some FixedBuffer.construct.bZero
      buffersToWrite := []
      place := .loopTest } := by
  cases h with
  | enter => rfl
  | swap hplace => rcases hplace with h | h <;> rw [hentry] at h <;> cases h
  | goOn hplace => rw [hentry] at hplace; cases hplace
  | leave hplace => rw [hentry] at hplace; cases hplace
  | park hplace => rw [hentry] at hplace; cases hplace
  | cut hplace => rw [hentry] at hplace; cases hplace
  | keep hplace => rw [hentry] at hplace; cases hplace
  | write _ _ hplace => rw [hentry] at hplace; cases hplace
  | recycle _ _ _ hplace => rw [hentry] at hplace; cases hplace

theorem Sound.move (h : Sound l) (hmove : Move l l') : Sound l' := by
  by_cases hentry : l.place = .entry
  · rw [hmove.enter_of hentry]
    exact ⟨h.current, h.next, h.buffers, ⟨rfl, rfl, rfl⟩⟩
  · exact (hmove.sane (h.sane fun hplace => absurd hplace hentry)).sound

/-- No assert of `ThreadFunc` fires, if asserts are compiled out or `running_` is set where it is
entered. -/
theorem Sound.threadFunc_moves (h : Sound l) (hstarted : l.place ≠ .unstarted)
    (hexited : l.place ≠ .exited) (hentry : B.asserts = true → l.place = .entry → l.running = true) :
    ∃ l', (threadFunc B l.place).run l = .ok () l' ∧ Move l l' := by
  by_cases hplace : l.place = .entry
  · rw [hplace]
    exact ⟨_, enter_run fun hasserts => hentry hasserts hplace, .enter hplace⟩
  · exact AsyncLogging.threadFunc_moves (h.sane fun h => absurd h hplace) hstarted hexited

/-- A running logger does not leave `ThreadFunc`. -/
theorem Move.not_exited (h : Move l l') (hrunning : l.running = true) : l'.place ≠ .exited := by
  cases h with
  | leave _ hstopped =>
    rw [hrunning] at hstopped
    cases hstopped
  | _ => exact nofun

/-- How many steps `ThreadFunc` takes at most when `running_` is false. -/
def stepsLeft (l : AsyncLogging SIZE) : Nat :=
  match l.place with
  | .unstarted | .exited => 0
  | .loopTest => 1
  | .entry => 2
  | .writing k => 2 + (l.buffersToWrite.length - k)
  | .batch => 3 + l.buffersToWrite.length
  | .waiting => 5 + l.buffers.length
  | .section_ => 6 + l.buffers.length

theorem Move.stepsLeft_lt (h : Move l l') (hrunning : l.running = false) :
    l'.stepsLeft < l.stepsLeft := by
  cases h with
  | enter hplace => simp [stepsLeft, hplace]
  | goOn _ hgo =>
    rw [hrunning] at hgo
    cases hgo
  | leave hplace => simp [stepsLeft, goto, hplace]
  | park hplace => simp [stepsLeft, goto, hplace]
  | swap hplace =>
    -- the batch is `buffers_` and the current buffer
    have hlength : (l.swapBuffers.goto .batch).stepsLeft = 4 + l.buffers.length := by
      show 3 + l.swapBuffers.buffersToWrite.length = _
      rw [swapBuffers_buffersToWrite, List.length_append, List.length_singleton]
      omega
    rw [hlength]
    rcases hplace with hplace | hplace
    · simp only [stepsLeft, hplace]
      omega
    · simp only [stepsLeft, hplace]
      omega
  | cut hplace =>
    simp only [stepsLeft, hplace, List.length_take]
    omega
  | keep hplace =>
    simp only [stepsLeft, goto, hplace]
    omega
  | write k b hplace hentry =>
    obtain ⟨hk, -⟩ := List.getElem?_eq_some_iff.mp hentry
    simp only [stepsLeft, hplace]
    omega
  | recycle k _ _ hplace =>
    simp only [stepsLeft, hplace]
    omega

end AsyncLogging

namespace DefaultLogging

open AsyncLogging (Sound)

variable {SIZE : Nat} {B : Build} {s s' : DefaultLogging SIZE} {act : Act}

/-! ## The invariant -/

/-- The body is past the latch of `ThreadFunc`. -/
def entered (s : DefaultLogging SIZE) : Bool :=
  match s.body with
  | .inFunc => s.log.place != .entry
  | .ended => true
  | .absent | .storeTid _ | .countDown => false

/-- There is a backend thread, and nobody has asked it to end. -/
structure Alive (B : Build) (s : DefaultLogging SIZE) : Prop where
  running : s.log.running = true
  thread : s.thread = .joinable
  started : s.started = true
  unjoined : B.asserts = true → s.joined = false
  body : BackendRunning s
  staying : s.log.place = .exited → s.body ≠ .inFunc
  lastCall : s.lastCall = some .start

/-- The backend thread has been asked to end. -/
structure Ending (s : DefaultLogging SIZE) : Prop where
  running : s.log.running = false
  thread : s.thread = .joinable
  body : s.body ≠ .absent
  lastCall : s.lastCall = some .stop

/-- A `Start` that waits. -/
def OwnerPc.starting : OwnerPc → Bool
  | .threadLatch | .assertTid | .loggingLatch => true
  | .idle | .joining => false

/-- What the flags say, as far as the owner has come. -/
def Phase (B : Build) (s : DefaultLogging SIZE) : Prop :=
  match s.owner, s.isDefaultAsyncStarted with
  | .idle, false => s.thread ≠ .joinable ∧ ¬ BackendRunning s
  | .idle, true => Alive B s
  | .threadLatch, false | .assertTid, false | .loggingLatch, false => Alive B s
  | .joining, true => Ending s
  | _, _ => False

/-- Each latch opens once: it is counted down by the first body, and where asserts are compiled in
there is no other. -/
structure Latches (B : Build) (s : DefaultLogging SIZE) : Prop where
  thread_le : s.threadLatch ≤ 1
  logging_le : s.latch ≤ 1
  released : s.body.released = true → s.threadLatch ≤ 0
  entered : s.entered = true → s.latch ≤ 0
  pastThread : s.owner = .assertTid → s.threadLatch ≤ 0
  pastLogging : s.isDefaultAsyncStarted = true → s.latch ≤ 0
  thread_one : B.asserts = true → s.body.released = false → s.threadLatch = 1
  logging_one : B.asserts = true → s.entered = false → s.latch = 1

/-- A `Thread` that was never started. -/
def Unused (s : DefaultLogging SIZE) : Prop :=
  s.joined = false ∧ s.threadLatch = 1 ∧ s.latch = 1 ∧ s.body = .absent

structure Inv (B : Build) (s : DefaultLogging SIZE) : Prop where
  set : s.asyncLogging = true
  sound : Sound s.log
  inside : s.body = .inFunc → s.log.place ≠ .unstarted
  stored : s.body.stored = true → 0 < s.tid
  unused : s.started = false → Unused s
  phase : Phase B s
  latches : Latches B s

theorem inv_set : Inv B (setDefaultSingletonAsyncLogging SIZE) where
  set := rfl
  sound := AsyncLogging.sound_construct
  inside := nofun
  stored := nofun
  unused _ := ⟨rfl, rfl, rfl, rfl⟩
  phase := ⟨nofun, fun h => h.1 rfl⟩
  latches :=
    ⟨Int.le_refl _, Int.le_refl _, nofun, nofun, nofun, nofun, fun _ _ => rfl, fun _ _ => rfl⟩

/-! ## What one step can do -/

/-- A call that starts the backend thread finds the `Thread` unstarted, if asserts are compiled in,
and the kernel gives it a thread.  Where they are compiled out, no latch is at the least `int` when
it is counted down. -/
def Restartable (B : Build) (s : DefaultLogging SIZE) : Act → Prop
  | .start created => s.isDefaultAsyncStarted = false →
    (B.asserts = true → s.started = false) ∧ created.isSome
  | .backend => B.asserts = false →
    (s.body = .countDown → -2 ^ 31 < s.threadLatch) ∧
      (s.body = .inFunc → s.log.place = .entry → -2 ^ 31 < s.latch)
  | .stop | .owner | .append _ => True

instance (s : DefaultLogging SIZE) : (act : Act) → Decidable (Restartable B s act)
  | .start _ => inferInstanceAs (Decidable (_ → _ ∧ _))
  | .backend => inferInstanceAs (Decidable (_ → _ ∧ _))
  | .stop | .owner | .append _ => .isTrue trivial

/-- The steps that do not end the process. -/
inductive Moved (B : Build) (s : DefaultLogging SIZE) : Act → DefaultLogging SIZE → Prop
  | startAgain {created : Option Tid} (hidle : s.owner = .idle)
      (hflag : s.isDefaultAsyncStarted = true) :
      Moved B s (.start created) { s with lastCall := some .start }
  | spawn {tid : Tid} (hidle : s.owner = .idle) (hflag : s.isDefaultAsyncStarted = false)
      (hstarted : B.asserts = true → s.started = false) :
      Moved B s (.start (some tid)) { s with
        lastCall := some .start, log := { s.log with running := true }, started := true
        thread := .joinable, body := .storeTid tid, owner := .threadLatch }
  | noThread (hidle : s.owner = .idle) (hflag : s.isDefaultAsyncStarted = false)
      (hstarted : B.asserts = true → s.started = false) :
      Moved B s (.start none) { s with
        lastCall := some .start, log := { s.log with running := true }, started := true }
  | stopAgain (hidle : s.owner = .idle) (hflag : s.isDefaultAsyncStarted = false) :
      Moved B s .stop { s with lastCall := some .stop }
  | stop (hidle : s.owner = .idle) (hflag : s.isDefaultAsyncStarted = true) :
      Moved B s .stop { s with
        lastCall := some .stop, log := { s.log with running := false }, joined := true
        owner := .joining }
  | threadLatch (howner : s.owner = .threadLatch) (hopen : s.threadLatch ≤ 0) :
      Moved B s .owner { s with owner := .assertTid }
  | assertTid (howner : s.owner = .assertTid) : Moved B s .owner { s with owner := .loggingLatch }
  | loggingLatch (howner : s.owner = .loggingLatch) (hopen : s.latch ≤ 0) :
      Moved B s .owner { s with isDefaultAsyncStarted := true, owner := .idle }
  | joined (howner : s.owner = .joining) (hended : s.body = .ended) :
      Moved B s .owner { s with
        thread := .notJoinable, isDefaultAsyncStarted := false, owner := .idle }
  | storeTid {tid : Tid} (hbody : s.body = .storeTid tid) :
      Moved B s .backend { s with tid := tid, body := .countDown }
  | countDown (hbody : s.body = .countDown) (hroom : -2 ^ 31 < s.threadLatch) :
      Moved B s .backend { s with
        threadLatch := s.threadLatch - 1, log := s.log.goto .entry, body := .inFunc }
  | enter {l : AsyncLogging SIZE} (hbody : s.body = .inFunc) (hplace : s.log.place = .entry)
      (hroom : -2 ^ 31 < s.latch) (hmove : AsyncLogging.Move s.log l) :
      Moved B s .backend { s with log := l, latch := s.latch - 1 }
  | func {l : AsyncLogging SIZE} (hbody : s.body = .inFunc) (hplace : s.log.place ≠ .entry)
      (hmove : AsyncLogging.Move s.log l) : Moved B s .backend { s with log := l }
  | leave (hbody : s.body = .inFunc) (hplace : s.log.place = .exited) :
      Moved B s .backend { s with body := .ended }
  | append {data : List Byte} {l : AsyncLogging SIZE} (hmove : AsyncLogging.AppendMove data s.log l) :
      Moved B s (.append data) { s with log := l }

theorem Moved.halt (h : Moved B s act s') : s'.halt = s.halt := by
  cases h <;> rfl

/-- What the invariant knows of a step: it is one of the moves, or it ends the process, and then it
is a second start or a latch is at its end. -/
def Outcome (B : Build) (s : DefaultLogging SIZE) (act : Act) (s' : DefaultLogging SIZE) : Prop :=
  Moved B s act s' ∨ s'.halt ≠ none ∧ ¬ Restartable B s act

theorem phase_idle_down (h : Phase B s) (hidle : s.owner = .idle)
    (hflag : s.isDefaultAsyncStarted = false) : s.thread ≠ .joinable ∧ ¬ BackendRunning s := by
  unfold Phase at h
  rw [hidle, hflag] at h
  exact h

theorem phase_idle_up (h : Phase B s) (hidle : s.owner = .idle)
    (hflag : s.isDefaultAsyncStarted = true) : Alive B s := by
  unfold Phase at h
  rw [hidle, hflag] at h
  exact h

theorem phase_joining (h : Phase B s) (howner : s.owner = .joining) :
    s.isDefaultAsyncStarted = true ∧ Ending s := by
  unfold Phase at h
  rw [howner] at h
  cases hflag : s.isDefaultAsyncStarted with
  | false => rw [hflag] at h; exact h.elim
  | true => rw [hflag] at h; exact ⟨rfl, h⟩

theorem phase_starting (h : Phase B s) (howner : s.owner.starting = true) :
    s.isDefaultAsyncStarted = false ∧ Alive B s := by
  unfold Phase at h
  generalize s.owner = owner at h howner
  cases hflag : s.isDefaultAsyncStarted with
  | false =>
    rw [hflag] at h
    cases owner <;> first | exact ⟨rfl, h⟩ | cases howner
  | true =>
    rw [hflag] at h
    cases owner <;> first | exact h.elim | cases howner

theorem Alive.phase_starting (h : Alive B s) (howner : s.owner.starting = true)
    (hflag : s.isDefaultAsyncStarted = false) : Phase B s := by
  unfold Phase
  rw [hflag]
  generalize s.owner = owner at howner
  cases owner <;> first | exact h | cases howner

theorem Alive.phase_idle (h : Alive B s) (hidle : s.owner = .idle)
    (hflag : s.isDefaultAsyncStarted = true) : Phase B s := by
  unfold Phase
  rw [hidle, hflag]
  exact h

theorem Ending.phase (h : Ending s) (howner : s.owner = .joining)
    (hflag : s.isDefaultAsyncStarted = true) : Phase B s := by
  unfold Phase
  rw [howner, hflag]
  exact h

/-- A step that leaves the owner and the flag alone. -/
theorem Phase.map (h : Phase B s) (howner : s'.owner = s.owner)
    (hflag : s'.isDefaultAsyncStarted = s.isDefaultAsyncStarted)
    (hdown : s.thread ≠ .joinable ∧ ¬ BackendRunning s →
      s'.thread ≠ .joinable ∧ ¬ BackendRunning s')
    (halive : Alive B s → Alive B s') (hending : Ending s → Ending s') : Phase B s' := by
  unfold Phase at h ⊢
  rw [howner, hflag]
  generalize s.owner = owner at h ⊢
  generalize s.isDefaultAsyncStarted = flag at h ⊢
  cases owner <;> cases flag <;>
    first | exact hdown h | exact halive h | exact hending h | exact h.elim

theorem arrow_run (h : s.asyncLogging = true) : arrow.run s = .ok () s := by
  unfold arrow
  rw [run_get_bind]
  exact run_check_of h

theorem onLogging_run {m : AsyncLogging.Method SIZE Unit} {l : AsyncLogging SIZE}
    (h : m.run s.log = .ok () l) : (onLogging m).run s = .ok () { s with log := l } := by
  show onLogging m s = _
  unfold onLogging
  rw [show m s.log = .ok () l from h]

theorem decrement_run {count : Int} (h : -2 ^ 31 < count) :
    (decrement count).run s = .ok (count - 1) s := by
  unfold decrement
  rw [run_bind_of_ok (run_check_of h)]
  rfl

theorem start_outcome (h : Inv B s) (hidle : s.owner = .idle) (created : Option Tid) :
    Outcome B s (.start created) (settle ((startDefaultSingletonAsyncLogging B created).run s)) := by
  unfold startDefaultSingletonAsyncLogging
  rw [run_get_bind, run_bind_of_ok (Build.run_assert_of fun _ => h.set),
    run_modify_bind]
  by_cases hflag : s.isDefaultAsyncStarted = false
  · have hthread := (phase_idle_down h.phase hidle hflag).1
    rw [if_pos hflag, run_bind_of_ok (arrow_run (s := { s with lastCall := some .start }) h.set)]
    unfold start threadStart
    rw [run_modify_bind, run_get_bind]
    by_cases hstarted : B.asserts = true → s.started = false
    · rw [run_bind_of_ok (Build.run_assert_of hstarted), run_modify_bind]
      left
      cases created with
      | none => exact .noThread hidle hflag hstarted
      | some tid =>
        simp only
        rw [run_bind_of_ok (run_check_of hthread)]
        exact .spawn hidle hflag hstarted
    · right
      rw [run_bind_of_error (Build.run_assert_of_not hstarted)]
      exact ⟨nofun, fun hrestartable => hstarted (hrestartable hflag).1⟩
  · rw [if_neg hflag]
    exact .inl (.startAgain hidle (Bool.not_eq_false _ ▸ hflag))

theorem stop_outcome (h : Inv B s) (hidle : s.owner = .idle) :
    Outcome B s .stop (settle ((stopDefaultSingletonAsyncLogging B).run s)) := by
  unfold stopDefaultSingletonAsyncLogging
  rw [run_get_bind, run_bind_of_ok (Build.run_assert_of fun _ => h.set),
    run_modify_bind]
  left
  by_cases hflag : s.isDefaultAsyncStarted = true
  · have halive := phase_idle_up h.phase hidle hflag
    rw [if_pos hflag, run_bind_of_ok (arrow_run (s := { s with lastCall := some .stop }) h.set)]
    unfold stop threadJoin
    rw [run_modify_bind, run_get_bind,
      run_bind_of_ok (Build.run_assert_of fun hasserts => ⟨halive.started, halive.unjoined hasserts⟩),
      run_modify_bind, run_bind_of_ok (run_check_of halive.thread)]
    exact .stop hidle hflag
  · rw [if_neg hflag]
    exact .stopAgain hidle (Bool.not_eq_true _ ▸ hflag)

/-- Where asserts are compiled in, a body that has opened the latch has stored its id. -/
theorem Inv.tid_pos (h : Inv B s) (hasserts : B.asserts = true) (hopen : s.threadLatch ≤ 0) :
    0 < s.tid := by
  -- asserts let one body count the latch down, so an open latch has seen it
  have hreleased : s.body.released = true := by
    by_contra hnot
    have hone := h.latches.thread_one hasserts (Bool.not_eq_true _ ▸ hnot)
    omega
  apply h.stored
  generalize s.body = body at hreleased
  cases body <;> first | rfl | cases hreleased

theorem owner_outcome (h : Inv B s) (hgo : CanGoOn s s.owner) :
    Outcome B s .owner (settle ((ownerMove B s.owner).run s)) := by
  left
  cases howner : s.owner with
  | idle =>
    rw [howner] at hgo
    exact hgo.elim
  | threadLatch =>
    rw [howner] at hgo
    exact .threadLatch howner hgo
  | assertTid =>
    have hpast := h.latches.pastThread howner
    unfold ownerMove
    rw [run_get_bind,
      run_bind_of_ok (Build.run_assert_of fun hasserts => h.tid_pos hasserts hpast)]
    exact .assertTid howner
  | loggingLatch =>
    rw [howner] at hgo
    exact .loggingLatch howner hgo
  | joining =>
    rw [howner] at hgo
    exact .joined howner hgo

/-- Where asserts are compiled in, the owner waits until the backend has entered `ThreadFunc`. -/
theorem Inv.running_at_entry (h : Inv B s) (hasserts : B.asserts = true) (hbody : s.body = .inFunc)
    (hplace : s.log.place = .entry) : s.log.running = true := by
  -- the latch is closed at the entry, and the flag is set behind it
  have hone : s.latch = 1 := by
    apply h.latches.logging_one hasserts
    simp [entered, hbody, hplace]
  have hflag : s.isDefaultAsyncStarted = false := by
    by_contra hnot
    have hopen := h.latches.pastLogging (Bool.not_eq_false _ ▸ hnot)
    omega
  have hphase := h.phase
  unfold Phase at hphase
  rw [hflag] at hphase
  have hrunning : BackendRunning s := by
    unfold BackendRunning
    rw [hbody]
    exact ⟨nofun, nofun⟩
  generalize s.owner = owner at hphase
  cases owner with
  | idle => exact absurd hrunning hphase.2
  | threadLatch => exact hphase.running
  | assertTid => exact hphase.running
  | loggingLatch => exact hphase.running
  | joining => exact hphase.elim

/-- Counting a latch down that may be counted down. -/
theorem decrement_outcome {count : Int} {f : Int → Routine SIZE Unit} {t : DefaultLogging SIZE}
    (hone : B.asserts = true → count = 1)
    (hdown : -2 ^ 31 < count → Moved B s .backend (settle ((f (count - 1)).run t)))
    (hroom : Restartable B s .backend → B.asserts = false → -2 ^ 31 < count) :
    Outcome B s .backend (settle ((decrement count >>= f).run t)) := by
  by_cases hcount : -2 ^ 31 < count
  · left
    rw [run_bind_of_ok (decrement_run hcount)]
    exact hdown hcount
  · right
    have herror : (decrement count).run t = .error (.undefined "signed overflow") t := by
      unfold decrement
      exact run_bind_of_error (run_check_of_not hcount)
    rw [run_bind_of_error herror]
    refine ⟨nofun, fun hrestartable => hcount ?_⟩
    cases hasserts : B.asserts with
    | false => exact hroom hrestartable hasserts
    | true =>
      have hone := hone hasserts
      omega

theorem backend_outcome (h : Inv B s) (hrunning : BackendRunning s) :
    Outcome B s .backend (settle ((bodyMove B s.body).run s)) := by
  cases hbody : s.body with
  | absent => exact absurd hbody hrunning.1
  | ended => exact absurd hbody hrunning.2
  | storeTid tid => exact .inl (.storeTid hbody)
  | countDown =>
    unfold bodyMove
    rw [run_get_bind]
    refine decrement_outcome (fun hasserts => ?_) (fun hroom => .countDown hbody hroom)
      fun hrestartable hasserts => (hrestartable hasserts).1 hbody
    exact h.latches.thread_one hasserts (by rw [hbody]; rfl)
  | inFunc =>
    unfold bodyMove
    rw [run_get_bind]
    by_cases hexited : s.log.place = .exited
    · rw [if_pos hexited]
      exact .inl (.leave hbody hexited)
    obtain ⟨l, hrun, hmove⟩ := h.sound.threadFunc_moves (h.inside hbody) hexited
      fun hasserts hplace => h.running_at_entry hasserts hbody hplace
    rw [if_neg hexited]
    by_cases hplace : s.log.place = .entry
    · rw [hplace] at hrun
      rw [if_pos hplace, run_bind_of_ok (onLogging_run hrun)]
      refine decrement_outcome (fun hasserts => ?_)
        (fun hroom => .enter hbody hplace hroom hmove)
        fun hrestartable hasserts => (hrestartable hasserts).2 hbody hplace
      exact h.latches.logging_one hasserts (by simp [entered, hbody, hplace])
    · rw [if_neg hplace, onLogging_run hrun]
      exact .inl (.func hbody hplace hmove)

theorem append_outcome (h : Inv B s) (data : List Byte) :
    Outcome B s (.append data) (settle ((routine B s (.append data)).run s)) := by
  obtain ⟨l, hrun, hmove⟩ :=
    AsyncLogging.append_moves_of (l := s.log) h.sound.current h.sound.next data
  show Outcome _ _ _ (settle ((arrow >>= fun _ => onLogging (AsyncLogging.append data)).run s))
  rw [run_bind_of_ok (arrow_run h.set), onLogging_run hrun]
  exact .inl (.append hmove)

theorem step_eq (hstep : (defaultRuns SIZE B).step s act = some s') :
    (s.halt = none ∧ Enabled s act) ∧ s' = settle ((routine B s act).run s) := by
  change (if s.halt = none ∧ Enabled s act then some (settle ((routine B s act).run s)) else none) =
    some s' at hstep
  split at hstep
  next hpre =>
    cases hstep
    exact ⟨hpre, rfl⟩
  next => cases hstep

/-- **One step** is one of the moves, or ends the process in a way the condition excludes. -/
theorem outcome_of_step (h : Inv B s) (hstep : (defaultRuns SIZE B).step s act = some s') :
    Outcome B s act s' := by
  obtain ⟨⟨-, henabled⟩, rfl⟩ := step_eq hstep
  cases act with
  | start created => exact start_outcome h henabled created
  | stop => exact stop_outcome h henabled
  | owner => exact owner_outcome h henabled
  | backend => exact backend_outcome h henabled
  | append data => exact append_outcome h data

/-! ## Every move keeps the invariant -/

theorem latches_moved (h : Latches B s) (hunused : s.started = false → Unused s)
    (hmoved : Moved B s act s') : Latches B s' := by
  cases hmoved with
  | startAgain => exact { h with }
  | noThread => exact { h with }
  | stopAgain => exact { h with }
  | spawn hidle hflag hstarted =>
    exact { h with
      released := nofun, entered := nofun, pastThread := nofun
      thread_one := fun hasserts _ => (hunused (hstarted hasserts)).2.1
      logging_one := fun hasserts _ => (hunused (hstarted hasserts)).2.2.1 }
  | stop => exact { h with pastThread := nofun }
  | threadLatch howner hopen => exact { h with pastThread := fun _ => hopen }
  | assertTid => exact { h with pastThread := nofun }
  | loggingLatch howner hopen =>
    exact { h with pastThread := nofun, pastLogging := fun _ => hopen }
  | joined => exact { h with pastThread := nofun, pastLogging := nofun }
  | storeTid hbody =>
    exact { h with
      released := nofun, entered := nofun
      thread_one := fun hasserts _ => h.thread_one hasserts (by rw [hbody]; rfl)
      logging_one := fun hasserts _ => h.logging_one hasserts (by rw [entered, hbody]) }
  | countDown hbody =>
    -- from 1 to 0, or from there further down
    have hle := h.thread_le
    -- `ThreadFunc` is called, and stands before its own latch
    refine { h with
      thread_le := ?_, released := ?_, entered := nofun, pastThread := ?_, thread_one := nofun
      logging_one := ?_ }
    · show s.threadLatch - 1 ≤ 1
      omega
    · intro _
      show s.threadLatch - 1 ≤ 0
      omega
    · intro howner
      have hpast := h.pastThread howner
      show s.threadLatch - 1 ≤ 0
      omega
    · exact fun hasserts _ => h.logging_one hasserts (by rw [entered, hbody])
  | @enter l hbody _ _ hmove =>
    have hle := h.logging_le
    have hentry : l.place ≠ .entry := hmove.place.2.2
    refine { h with logging_le := ?_, entered := ?_, pastLogging := ?_, logging_one := ?_ }
    · show s.latch - 1 ≤ 1
      omega
    · intro _
      show s.latch - 1 ≤ 0
      omega
    · intro hflag
      have hpast := h.pastLogging hflag
      show s.latch - 1 ≤ 0
      omega
    · intro _ hnot
      simp [entered, hbody, hentry] at hnot
  | @func l hbody hplace hmove =>
    have hentry : l.place ≠ .entry := hmove.place.2.2
    refine { h with entered := ?_, logging_one := ?_ }
    · intro _
      exact h.entered (by simp [entered, hbody, hplace])
    · intro _ hnot
      simp [entered, hbody, hentry] at hnot
  | leave hbody hplace =>
    refine { h with released := ?_, entered := ?_, thread_one := nofun, logging_one := nofun }
    · intro _
      exact h.released (by rw [hbody]; rfl)
    · intro _
      exact h.entered (by simp [entered, hbody, hplace])
  | @append data l hmove =>
    have hplace : l.place = s.log.place := hmove.kept.2
    refine { h with entered := ?_, logging_one := ?_ }
    · intro hentered
      rw [entered, hplace] at hentered
      exact h.entered hentered
    · intro hasserts hnot
      rw [entered, hplace] at hnot
      exact h.logging_one hasserts hnot

theorem running_of_body {pc : BodyPc} (hbody : s.body = pc) (habsent : pc ≠ .absent)
    (hended : pc ≠ .ended) : BackendRunning s := by
  subst hbody
  exact ⟨habsent, hended⟩

theorem phase_moved (h : Inv B s) (hmoved : Moved B s act s') : Phase B s' := by
  have hphase := h.phase
  cases hmoved with
  | startAgain hidle hflag =>
    have halive := phase_idle_up hphase hidle hflag
    exact Alive.phase_idle { halive with lastCall := rfl } hidle hflag
  | spawn hidle hflag hstarted =>
    refine Alive.phase_starting ?_ rfl hflag
    exact ⟨rfl, rfl, rfl, fun hasserts => (h.unused (hstarted hasserts)).1, ⟨nofun, nofun⟩,
      fun _ => nofun, rfl⟩
  | noThread hidle hflag =>
    have hdown := phase_idle_down hphase hidle hflag
    exact Phase.map hphase rfl rfl (fun _ => hdown) (fun halive => absurd halive.body hdown.2)
      fun hending => absurd hending.thread hdown.1
  | stopAgain hidle hflag =>
    have hdown := phase_idle_down hphase hidle hflag
    exact Phase.map hphase rfl rfl (fun _ => hdown) (fun halive => absurd halive.body hdown.2)
      fun hending => absurd hending.thread hdown.1
  | stop hidle hflag =>
    have halive := phase_idle_up hphase hidle hflag
    exact Ending.phase ⟨rfl, halive.thread, halive.body.1, rfl⟩ rfl hflag
  | threadLatch howner =>
    obtain ⟨hflag, halive⟩ := phase_starting hphase (by rw [howner]; rfl)
    exact Alive.phase_starting { halive with } rfl hflag
  | assertTid howner =>
    obtain ⟨hflag, halive⟩ := phase_starting hphase (by rw [howner]; rfl)
    exact Alive.phase_starting { halive with } rfl hflag
  | loggingLatch howner =>
    obtain ⟨-, halive⟩ := phase_starting hphase (by rw [howner]; rfl)
    exact Alive.phase_idle { halive with } rfl rfl
  | joined howner hended =>
    exact ⟨nofun, fun hrunning => hrunning.2 hended⟩
  | storeTid hbody =>
    exact Phase.map hphase rfl rfl (fun hdown => absurd (running_of_body hbody nofun nofun) hdown.2)
      (fun halive => { halive with body := ⟨nofun, nofun⟩, staying := fun _ => nofun })
      fun hending => { hending with body := nofun }
  | countDown hbody =>
    exact Phase.map hphase rfl rfl (fun hdown => absurd (running_of_body hbody nofun nofun) hdown.2)
      (fun halive => { halive with body := ⟨nofun, nofun⟩, staying := nofun })
      fun hending => { hending with body := nofun }
  | enter hbody _ _ hmove =>
    exact Phase.map hphase rfl rfl (fun hdown => absurd (running_of_body hbody nofun nofun) hdown.2)
      (fun halive => { halive with
        running := hmove.running.trans halive.running
        staying := fun h => absurd h (hmove.not_exited halive.running) })
      fun hending => { hending with running := hmove.running.trans hending.running }
  | func hbody _ hmove =>
    exact Phase.map hphase rfl rfl (fun hdown => absurd (running_of_body hbody nofun nofun) hdown.2)
      (fun halive => { halive with
        running := hmove.running.trans halive.running
        staying := fun h => absurd h (hmove.not_exited halive.running) })
      fun hending => { hending with running := hmove.running.trans hending.running }
  | leave hbody hplace =>
    exact Phase.map hphase rfl rfl (fun hdown => absurd (running_of_body hbody nofun nofun) hdown.2)
      (fun halive => absurd hbody (halive.staying hplace))
      fun hending => { hending with body := nofun }
  | append hmove =>
    obtain ⟨hrunning, hplace⟩ := hmove.kept
    exact Phase.map hphase rfl rfl id
      (fun halive => { halive with
        running := hrunning.trans halive.running
        staying := fun h => halive.staying (hplace.symm.trans h) })
      fun hending => { hending with running := hrunning.trans hending.running }

theorem unused_moved (h : Inv B s) (hmoved : Moved B s act s') (hstarted : s'.started = false) :
    Unused s' := by
  have hbusy {pc : BodyPc} (hbody : s.body = pc) (hpc : pc ≠ .absent) : s.started ≠ false := by
    intro hstarted
    obtain ⟨-, -, -, habsent⟩ := h.unused hstarted
    exact hpc (hbody.symm.trans habsent)
  cases hmoved with
  | spawn => cases hstarted
  | noThread => cases hstarted
  | stop hidle hflag =>
    have halive := phase_idle_up h.phase hidle hflag
    exact absurd hstarted (hbusy rfl halive.body.1)
  | storeTid hbody => exact absurd hstarted (hbusy hbody nofun)
  | countDown hbody => exact absurd hstarted (hbusy hbody nofun)
  | enter hbody => exact absurd hstarted (hbusy hbody nofun)
  | leave hbody => exact absurd hstarted (hbusy hbody nofun)
  | startAgain => exact h.unused hstarted
  | stopAgain => exact h.unused hstarted
  | threadLatch => exact h.unused hstarted
  | assertTid => exact h.unused hstarted
  | loggingLatch => exact h.unused hstarted
  | joined => exact h.unused hstarted
  | func => exact h.unused hstarted
  | append => exact h.unused hstarted

/-- **Every move** keeps the invariant. -/
theorem inv_moved (h : Inv B s) (hmoved : Moved B s act s') : Inv B s' := by
  have hunused := unused_moved h hmoved
  have hphase := phase_moved h hmoved
  have hlatches := latches_moved h.latches h.unused hmoved
  cases hmoved with
  | spawn =>
    exact { h with
      inside := nofun, stored := nofun, unused := hunused, phase := hphase, latches := hlatches }
  | @storeTid tid =>
    exact { h with
      inside := nofun, stored := fun _ => tid.2, unused := hunused, phase := hphase
      latches := hlatches }
  | countDown hbody =>
    have hstored : 0 < s.tid := h.stored (by rw [hbody]; rfl)
    exact { h with
      sound := h.sound.goto_entry, inside := nofun, stored := fun _ => hstored
      unused := hunused, phase := hphase, latches := hlatches }
  | enter _ _ _ hmove =>
    exact { h with
      sound := h.sound.move hmove, inside := fun _ => hmove.place.2.1, unused := hunused
      phase := hphase, latches := hlatches }
  | func _ _ hmove =>
    exact { h with
      sound := h.sound.move hmove, inside := fun _ => hmove.place.2.1, unused := hunused
      phase := hphase, latches := hlatches }
  | leave hbody =>
    have hstored : 0 < s.tid := h.stored (by rw [hbody]; rfl)
    exact { h with
      inside := nofun, stored := fun _ => hstored, unused := hunused, phase := hphase
      latches := hlatches }
  | append hmove =>
    refine { h with
      sound := h.sound.append hmove, inside := ?_, unused := hunused, phase := hphase
      latches := hlatches }
    intro hbody
    rw [hmove.kept.2]
    exact h.inside hbody
  | _ => exact { h with unused := hunused, phase := hphase, latches := hlatches }

theorem inv_step (h : Inv B s) (hstep : (defaultRuns SIZE B).step s act = some s')
    (hhalt : s'.halt = none) : Inv B s' := by
  rcases outcome_of_step h hstep with hmoved | ⟨hended, -⟩
  · exact inv_moved h hmoved
  · exact absurd hhalt hended

/-! ## A call returns -/

/-- The latches that are still to be counted down can be. -/
def Roomy (s : DefaultLogging SIZE) : Prop :=
  (s.body.released = false → -2 ^ 31 < s.threadLatch) ∧ (s.entered = false → -2 ^ 31 < s.latch)

/-- A call under way comes to its end if the owner and the backend thread go on. -/
def CanReturn (B : Build) (s : DefaultLogging SIZE) : Prop :=
  ∃ acts s', (∀ act ∈ acts, act = .owner ∨ act = .backend) ∧
    (defaultRuns SIZE B).exec s acts = some s' ∧ s'.halt = none ∧ s'.owner = .idle

def OwnerPc.stepsLeft : OwnerPc → Nat
  | .idle => 0
  | .joining | .loggingLatch => 1
  | .assertTid => 2
  | .threadLatch => 3

/-- How many steps the body takes at most when `running_` is false. -/
def bodyStepsLeft (s : DefaultLogging SIZE) : Nat :=
  match s.body with
  | .absent | .ended => 0
  | .inFunc => 1 + s.log.stepsLeft
  | .countDown => 4
  | .storeTid _ => 5

def stepsLeft (s : DefaultLogging SIZE) : Nat := s.owner.stepsLeft + s.bodyStepsLeft

/-- The body is before the second latch, or has been asked to end. -/
def Advancing (s : DefaultLogging SIZE) : Prop := s.entered = false ∨ s.log.running = false

theorem owner_stepsLeft (hmoved : Moved B s .owner s') : s'.stepsLeft < s.stepsLeft := by
  have hlt : s'.owner.stepsLeft < s.owner.stepsLeft ∧ s'.bodyStepsLeft = s.bodyStepsLeft := by
    cases hmoved with
    | threadLatch howner => exact ⟨by rw [howner]; exact Nat.lt_succ_self _, rfl⟩
    | assertTid howner => exact ⟨by rw [howner]; exact Nat.lt_succ_self _, rfl⟩
    | loggingLatch howner => exact ⟨by rw [howner]; exact Nat.lt_succ_self _, rfl⟩
    | joined howner => exact ⟨by rw [howner]; exact Nat.lt_succ_self _, rfl⟩
  unfold stepsLeft
  omega

theorem backend_stepsLeft (hadvancing : Advancing s) (hmoved : Moved B s .backend s') :
    s'.stepsLeft < s.stepsLeft := by
  have hlt : s'.owner = s.owner ∧ s'.bodyStepsLeft < s.bodyStepsLeft := by
    cases hmoved with
    | storeTid hbody => exact ⟨rfl, by simp [bodyStepsLeft, hbody]⟩
    | countDown hbody =>
      refine ⟨rfl, ?_⟩
      simp [bodyStepsLeft, hbody, AsyncLogging.stepsLeft, AsyncLogging.goto]
    | enter hbody hplace _ hmove =>
      refine ⟨rfl, ?_⟩
      rw [hmove.enter_of hplace]
      simp [bodyStepsLeft, hbody, AsyncLogging.stepsLeft, hplace]
    | @func l hbody hplace hmove =>
      refine ⟨rfl, ?_⟩
      have hrunning : s.log.running = false := by
        rcases hadvancing with hentered | hrunning
        · simp [entered, hbody, hplace] at hentered
        · exact hrunning
      have hlt := hmove.stepsLeft_lt hrunning
      simp only [bodyStepsLeft, hbody]
      omega
    | leave hbody =>
      refine ⟨rfl, ?_⟩
      simp only [bodyStepsLeft, hbody]
      omega
  unfold stepsLeft
  rw [hlt.1]
  omega

theorem roomy_owner (h : Roomy s) (hmoved : Moved B s .owner s') : Roomy s' := by
  cases hmoved <;> exact h

theorem roomy_backend (h : Roomy s) (hmoved : Moved B s .backend s') : Roomy s' := by
  obtain ⟨hthread, hlogging⟩ := h
  cases hmoved with
  | storeTid hbody =>
    exact ⟨fun _ => hthread (by rw [hbody]; rfl), fun _ => hlogging (by rw [entered, hbody])⟩
  | countDown hbody => exact ⟨nofun, fun _ => hlogging (by rw [entered, hbody])⟩
  | @enter l hbody _ _ hmove =>
    have hentry : l.place ≠ .entry := hmove.place.2.2
    refine ⟨fun hnot => ?_, fun hnot => ?_⟩
    · rw [hbody] at hnot
      cases hnot
    · simp [entered, hbody, hentry] at hnot
  | @func l hbody _ hmove =>
    have hentry : l.place ≠ .entry := hmove.place.2.2
    refine ⟨hthread, fun hnot => ?_⟩
    simp [entered, hbody, hentry] at hnot
  | leave => exact ⟨nofun, nofun⟩

theorem Roomy.restartable (h : Roomy s) : Restartable B s .backend := by
  intro _
  refine ⟨fun hbody => h.1 ?_, fun hbody hplace => h.2 ?_⟩
  · rw [hbody]
    rfl
  · simp [entered, hbody, hplace]

/-- The owner goes on, unless the body has to go on first. -/
theorem owner_or_backend (h : Inv B s) (howner : s.owner ≠ .idle) :
    CanGoOn s s.owner ∨ BackendRunning s ∧ Advancing s := by
  cases hpc : s.owner with
  | idle => exact absurd hpc howner
  | threadLatch =>
    obtain ⟨-, halive⟩ := phase_starting h.phase (by rw [hpc]; rfl)
    by_cases hopen : s.threadLatch ≤ 0
    · exact .inl hopen
    · refine .inr ⟨halive.body, .inl ?_⟩
      have hreleased : s.body.released ≠ true := fun hreleased => hopen (h.latches.released hreleased)
      unfold entered
      generalize s.body = body at hreleased
      cases body <;> first | rfl | exact absurd rfl hreleased
  | assertTid => exact .inl trivial
  | loggingLatch =>
    obtain ⟨-, halive⟩ := phase_starting h.phase (by rw [hpc]; rfl)
    by_cases hopen : s.latch ≤ 0
    · exact .inl hopen
    · refine .inr ⟨halive.body, .inl ?_⟩
      by_contra hentered
      exact hopen (h.latches.entered (Bool.not_eq_false _ ▸ hentered))
  | joining =>
    obtain ⟨-, hending⟩ := phase_joining h.phase hpc
    by_cases hended : s.body = .ended
    · exact .inl hended
    · exact .inr ⟨⟨hending.body, hended⟩, .inr hending.running⟩

theorem step_of_enabled (hhalt : s.halt = none) (henabled : Enabled s act) :
    (defaultRuns SIZE B).step s act = some (settle ((routine B s act).run s)) :=
  if_pos ⟨hhalt, henabled⟩

theorem advance (h : Inv B s) (hhalt : s.halt = none) (hroomy : Roomy s)
    (howner : s.owner ≠ .idle) :
    ∃ act s', (act = .owner ∨ act = .backend) ∧ (defaultRuns SIZE B).step s act = some s' ∧
      (Inv B s' ∧ s'.halt = none ∧ Roomy s') ∧ s'.stepsLeft < s.stepsLeft := by
  rcases owner_or_backend h howner with hgo | ⟨hrunning, hadvancing⟩
  · have henabled : Enabled s .owner := hgo
    have hstep := step_of_enabled (B := B) hhalt henabled
    rcases owner_outcome h hgo with hmoved | ⟨-, hnot⟩
    · exact ⟨_, _, .inl rfl, hstep, ⟨inv_moved h hmoved, hmoved.halt.trans hhalt,
        roomy_owner hroomy hmoved⟩, owner_stepsLeft hmoved⟩
    · exact absurd trivial hnot
  · have henabled : Enabled s .backend := hrunning
    have hstep := step_of_enabled (B := B) hhalt henabled
    rcases backend_outcome h hrunning with hmoved | ⟨-, hnot⟩
    · exact ⟨_, _, .inr rfl, hstep, ⟨inv_moved h hmoved, hmoved.halt.trans hhalt,
        roomy_backend hroomy hmoved⟩, backend_stepsLeft hadvancing hmoved⟩
    · exact absurd hroomy.restartable hnot

/-- **No call hangs.** -/
theorem can_return (h : Inv B s) (hhalt : s.halt = none) (hroomy : Roomy s) : CanReturn B s := by
  have hdrain := StepSystem.exec_drain (T := defaultRuns SIZE B) (f := stepsLeft)
    (C := fun act => act = .owner ∨ act = .backend)
    (I := fun s => Inv B s ∧ s.halt = none ∧ Roomy s)
    (fun s hs (howner : ¬ s.owner = .idle) => advance hs.1 hs.2.1 hs.2.2 howner) ⟨h, hhalt, hroomy⟩
  obtain ⟨acts, s', hacts, hrun, ⟨-, hhalt', -⟩, hidle⟩ := hdrain
  exact ⟨acts, s', hacts, hrun, hhalt', hidle⟩

/-- Where asserts are compiled in there is always room. -/
theorem roomy_of_asserts (h : Latches B s) (hasserts : B.asserts = true) : Roomy s := by
  refine ⟨fun hreleased => ?_, fun hentered => ?_⟩
  · have hone := h.thread_one hasserts hreleased
    omega
  · have hone := h.logging_one hasserts hentered
    omega

/-! ## Every run -/

/-- No assert has fired, between two calls there is a running backend thread exactly if the last call
was a `Start`, and a call under way can come to its end. -/
structure Tracks (B : Build) (s : DefaultLogging SIZE) : Prop where
  unhalted : s.halt = none
  running : s.owner = .idle → (BackendRunning s ↔ s.lastCall = some .start)
  returns : s.owner ≠ .idle → (B.asserts = false → Roomy s) → CanReturn B s

theorem tracks_set : Tracks B (setDefaultSingletonAsyncLogging SIZE) where
  unhalted := rfl
  running _ := ⟨fun hrunning => absurd rfl hrunning.1, nofun⟩
  returns hbusy := absurd rfl hbusy

/-- Between two calls the flag is clear only after a `Stop`, or before all calls. -/
theorem lastCall_moved (h : Inv B s) (htracks : Tracks B s) (hcond : Restartable B s act)
    (hmoved : Moved B s act s') (hidle : s'.owner = .idle)
    (hflag : s'.isDefaultAsyncStarted = false) : s'.lastCall ≠ some .start := by
  have hsame (hidle : s.owner = .idle) (hflag : s.isDefaultAsyncStarted = false) :
      s.lastCall ≠ some .start := by
    intro hlast
    exact (phase_idle_down h.phase hidle hflag).2 ((htracks.running hidle).mpr hlast)
  cases hmoved with
  | startAgain _ hup =>
    have hdown : s.isDefaultAsyncStarted = false := hflag
    rw [hup] at hdown
    cases hdown
  | spawn => cases hidle
  | noThread _ hdown =>
    have hcreated := (hcond hdown).2
    cases hcreated
  | stopAgain => exact nofun
  | stop => cases hidle
  | threadLatch => cases hidle
  | assertTid => cases hidle
  | loggingLatch => cases hflag
  | joined howner =>
    -- the call that returns here is the `Stop`
    have hlast := (phase_joining h.phase howner).2.lastCall
    show s.lastCall ≠ _
    rw [hlast]
    exact nofun
  | storeTid => exact hsame hidle hflag
  | countDown => exact hsame hidle hflag
  | enter => exact hsame hidle hflag
  | func => exact hsame hidle hflag
  | leave => exact hsame hidle hflag
  | append => exact hsame hidle hflag

/-- **One step** that meets the condition. -/
theorem tracks_step (h : s.halt = none → Inv B s) (htracks : Tracks B s)
    (hcond : Restartable B s act) (hstep : (defaultRuns SIZE B).step s act = some s') :
    Tracks B s' := by
  have hhalt := (step_eq hstep).1.1
  rcases outcome_of_step (h hhalt) hstep with hmoved | ⟨-, hnot⟩
  · have hhalt' : s'.halt = none := hmoved.halt.trans hhalt
    have hinv := inv_moved (h hhalt) hmoved
    refine ⟨hhalt', fun hidle => ?_, fun _ hroomy => can_return hinv hhalt' ?_⟩
    · cases hflag : s'.isDefaultAsyncStarted with
      | true =>
        have halive := phase_idle_up hinv.phase hidle hflag
        exact iff_of_true halive.body halive.lastCall
      | false =>
        exact iff_of_false (phase_idle_down hinv.phase hidle hflag).2
          (lastCall_moved (h hhalt) htracks hcond hmoved hidle hflag)
    · cases hasserts : B.asserts with
      | true => exact roomy_of_asserts hinv.latches hasserts
      | false => exact hroomy hasserts
  · exact absurd hcond hnot

/-- A step after which the logger is still in order has met it. -/
theorem restartable_of_tracks (h : s.halt = none → Inv B s)
    (hstep : (defaultRuns SIZE B).step s act = some s') (htracks : Tracks B s') :
    Restartable B s act := by
  have hinv := h (step_eq hstep).1.1
  rcases outcome_of_step hinv hstep with hmoved | ⟨hended, -⟩
  · cases hmoved with
    | startAgain _ hup =>
      intro hdown
      rw [hup] at hdown
      cases hdown
    | spawn _ _ hstarted => exact fun _ => ⟨hstarted, rfl⟩
    | noThread hidle hdown =>
      -- the call has returned without a thread, and still it was a `Start`
      have hrunning : BackendRunning s := (htracks.running hidle).mpr rfl
      exact absurd hrunning (phase_idle_down hinv.phase hidle hdown).2
    | stopAgain => trivial
    | stop => trivial
    | threadLatch => trivial
    | assertTid => trivial
    | loggingLatch => trivial
    | joined => trivial
    | storeTid hbody =>
      intro _
      rw [hbody]
      exact ⟨nofun, nofun⟩
    | countDown hbody hroom =>
      refine fun _ => ⟨fun _ => hroom, ?_⟩
      rw [hbody]
      exact nofun
    | enter hbody _ hroom =>
      refine fun _ => ⟨?_, fun _ _ => hroom⟩
      rw [hbody]
      exact nofun
    | func hbody hplace =>
      refine fun _ => ⟨?_, fun _ hentry => absurd hentry hplace⟩
      rw [hbody]
      exact nofun
    | leave hbody hplace =>
      intro _
      rw [hbody, hplace]
      exact ⟨nofun, fun _ => nofun⟩
    | append => trivial
  · exact absurd htracks.unhalted hended

/-- **When the default logger can be started and stopped.**  In every run of calls of
`StartDefaultSingletonAsyncLogging` and `StopDefaultSingletonAsyncLogging` with any logging in
between, the logger is in order in every state exactly when no call starts a second backend thread
(where asserts are compiled out: when no latch is counted down below the least `int`), and every
thread asked for is created. -/
theorem tracks_iff (SIZE : Nat) (B : Build) (acts : List Act) {s : DefaultLogging SIZE}
    (hrun : (defaultRuns SIZE B).exec (setDefaultSingletonAsyncLogging SIZE) acts = some s) :
    (defaultRuns SIZE B).Throughout (Tracks B) (setDefaultSingletonAsyncLogging SIZE) acts ↔
      (defaultRuns SIZE B).Along (Restartable B) (setDefaultSingletonAsyncLogging SIZE) acts := by
  apply StepSystem.throughout_iff_along (J := fun s => s.halt = none → Inv B s) ?_ ?_ ?_ ?_ ?_ hrun
  · intro s act s' h hstep hhalt
    exact inv_step (h (step_eq hstep).1.1) hstep hhalt
  · intro s act s' h htracks hcond hstep
    exact tracks_step h htracks hcond hstep
  · intro s act s' h _ hstep htracks
    exact restartable_of_tracks h hstep htracks
  · exact fun _ => inv_set
  · exact tracks_set

/-- A life of the backend thread, with every call made twice. -/
def oneLife : List Act :=
  [.stop, .start (some ⟨7, by decide⟩), .backend, .backend, .owner, .owner, .backend, .owner,
    .start none, .backend, .append [72, 105], .stop, .backend, .backend, .backend, .backend,
    .backend, .backend, .backend, .owner, .stop]

theorem tracks_iff_oneLife :
    ∃ s, (defaultRuns kLargeBuffer .debug).exec (setDefaultSingletonAsyncLogging kLargeBuffer)
        oneLife = some s ∧
      (defaultRuns kLargeBuffer .debug).Throughout (Tracks .debug)
        (setDefaultSingletonAsyncLogging kLargeBuffer) oneLife :=
  ⟨_, rfl, (tracks_iff kLargeBuffer .debug oneLife rfl).mpr (by decide)⟩

/-- After it the logger is not started again: `assert(!started_)` fires. -/
theorem second_start_asserts :
    ∃ s, (defaultRuns kLargeBuffer .debug).exec (setDefaultSingletonAsyncLogging kLargeBuffer)
        (oneLife ++ [.start (some ⟨8, by decide⟩)]) = some s ∧
      s.halt = some (.assertFailed "!started_") ∧ ¬ Tracks .debug s :=
  ⟨_, rfl, rfl, fun htracks => nomatch htracks.unhalted⟩

end DefaultLogging

end TurboNet.Logger
