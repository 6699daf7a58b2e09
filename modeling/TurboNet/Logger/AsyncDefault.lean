/-
# TurboNet.Logger.AsyncDefault — starting and stopping the default asynchronous logger.

`StartDefaultSingletonAsyncLogging` and `StopDefaultSingletonAsyncLogging` of `logger/logger.cpp`,
with `AsyncLogging::Start` and `Stop` and the `Thread::Start` and `Join` under them.  The life of the
backend thread is spread over `g_is_default_async_started`, `running_`, `started_` and `joined_`, and
over two latches, each of which opens once.

One thread, the owner, makes the calls; a call is cut where it may wait: at the two latches, at the
assert between them and at `thread_->join()`.  What it does before its first wait is one step, since
nobody else reads what it writes there but `running_`, once.  Any thread appends at any time, and the
backend thread takes its steps in between.  A latch is its counter here: `CountDownLatch` shows that
`Wait` returns just when it is not positive.  A thread that fails an assert or reaches undefined
behaviour ends the process, and the state keeps how.
-/
import TurboNet.Base.Thread
import TurboNet.Logger.AsyncSpec

namespace TurboNet.Logger

open TurboNet.Lib
open TurboNet.Base

namespace DefaultLogging

/-- The calls of the owner. -/
inductive Call where
  | start
  | stop
  deriving DecidableEq, Repr

/-- What `gettid` returns. -/
abbrev Tid := { tid : Int // 0 < tid }

/-- Where the owner stands. -/
inductive OwnerPc where
  /-- Between two calls. -/
  | idle
  /-- `Thread::Start`: in `latch_.Wait()`. -/
  | threadLatch
  /-- `Thread::Start`: `assert(tid_ > 0)`. -/
  | assertTid
  /-- `AsyncLogging::Start`: in `latch_.Wait()`. -/
  | loggingLatch
  /-- `Thread::Join`: in `thread_->join()`. -/
  | joining
  deriving DecidableEq, Repr

/-- Where the body of the `std::thread` stands: what it does next. -/
inductive BodyPc where
  | absent
  /-- `tid_ = CurrentThread::CachedTid()`. -/
  | storeTid (tid : Tid)
  /-- `latch_.CountDown()`, and the call of `func_`. -/
  | countDown
  /-- In `ThreadFunc`. -/
  | inFunc
  | ended
  deriving DecidableEq, Repr

/-- The body has stored `tid_`. -/
def BodyPc.stored : BodyPc → Bool
  | .absent | .storeTid _ => false
  | .countDown | .inFunc | .ended => true

/-- The body has counted the latch of the `Thread` down. -/
def BodyPc.released : BodyPc → Bool
  | .absent | .storeTid _ | .countDown => false
  | .inFunc | .ended => true

end DefaultLogging

/-- The static variables of `logger/logger.cpp`, the `AsyncLogging` they point to with its `thread_`,
where the owner and the body stand, the last call made, and how the process ended if it did. -/
structure DefaultLogging (SIZE : Nat) where
  asyncLogging : Bool
  isDefaultAsyncStarted : Bool
  log : AsyncLogging SIZE
  latch : Int
  started : Bool
  joined : Bool
  thread : Thread.Handle
  tid : Int
  threadLatch : Int
  owner : DefaultLogging.OwnerPc
  body : DefaultLogging.BodyPc
  lastCall : Option DefaultLogging.Call
  halt : Option Halt
  deriving DecidableEq, Repr

namespace DefaultLogging

variable {SIZE : Nat}

/-- After `SetDefaultSingletonAsyncLogging`. -/
def setDefaultSingletonAsyncLogging (SIZE : Nat) : DefaultLogging SIZE where
  asyncLogging := true
  isDefaultAsyncStarted := false
  log := .construct SIZE
  latch := 1
  started := false
  joined := false
  thread := .null
  tid := 0
  threadLatch := 1
  owner := .idle
  body := .absent
  lastCall := none
  halt := none

/-- Statements on the state of the process. -/
abbrev Routine (SIZE : Nat) := EStateM Halt (DefaultLogging SIZE)

/-- A member function of `*g_async_logging`. -/
def onLogging (m : AsyncLogging.Method SIZE Unit) : Routine SIZE Unit := fun s =>
  match m s.log with
  | .ok u l => .ok u { s with log := l }
  | .error e l => .error e { s with log := l }

/-- `g_async_logging->`. -/
def arrow : Routine SIZE Unit := do
  let s ← get
  check (.undefined "null g_async_logging") (s.asyncLogging = true)

/-- `Thread::Start`, up to `latch_.Wait()`.  The kernel gives the new thread the id `tid`; without
resources the constructor of `std::thread` throws, and the exception leaves the call. -/
def threadStart (B : Build) (created : Option Tid) : Routine SIZE Unit := do
  let s ← get
  B.assert "!started_" (s.started = false)
  modify fun s => { s with started := true }
  match created with
  | none => pure ()
  | some tid =>
    -- the `std::thread` that `thread_` held is destroyed
    check (.aborted "std::terminate") (s.thread ≠ .joinable)
    modify fun s => { s with thread := .joinable, body := .storeTid tid, owner := .threadLatch }

/-- `Thread::Join`, up to `thread_->join()`. -/
def threadJoin (B : Build) : Routine SIZE Unit := do
  let s ← get
  B.assert "started_ && !joined_" (s.started = true ∧ s.joined = false)
  modify fun s => { s with joined := true }
  check (.undefined "join of no thread") (s.thread = .joinable)
  modify fun s => { s with owner := .joining }

/-- `AsyncLogging::Start`, up to its first wait. -/
def start (B : Build) (created : Option Tid) : Routine SIZE Unit := do
  modify fun s => { s with log := { s.log with running := true } }
  threadStart B created

/-- `AsyncLogging::Stop`, up to its wait. -/
def stop (B : Build) : Routine SIZE Unit := do
  modify fun s => { s with log := { s.log with running := false } }
  threadJoin B

def startDefaultSingletonAsyncLogging (B : Build) (created : Option Tid) : Routine SIZE Unit := do
  let s ← get
  B.assert "g_async_logging" (s.asyncLogging = true)
  modify fun s => { s with lastCall := some .start }
  if s.isDefaultAsyncStarted = false then
    arrow
    start B created

def stopDefaultSingletonAsyncLogging (B : Build) : Routine SIZE Unit := do
  let s ← get
  B.assert "g_async_logging" (s.asyncLogging = true)
  modify fun s => { s with lastCall := some .stop }
  if s.isDefaultAsyncStarted = true then
    arrow
    stop B

/-- What the owner does when it goes on. -/
def ownerMove (B : Build) : OwnerPc → Routine SIZE Unit
  | .idle => pure ()
  | .threadLatch => modify fun s => { s with owner := .assertTid }
  | .assertTid => do
    let s ← get
    B.assert "tid_ > 0" (0 < s.tid)
    modify fun s => { s with owner := .loggingLatch }
  | .loggingLatch => modify fun s => { s with isDefaultAsyncStarted := true, owner := .idle }
  | .joining => modify fun s =>
    { s with thread := .notJoinable, isDefaultAsyncStarted := false, owner := .idle }

/-- `--count_`.  The overflow of an `int` is undefined. -/
def decrement (count : Int) : Routine SIZE Int := do
  check (.undefined "signed overflow") (-2 ^ 31 < count)
  pure (count - 1)

/-- What the body does next.  `ThreadFunc` counts its latch down right after its first assert. -/
def bodyMove (B : Build) : BodyPc → Routine SIZE Unit
  | .absent | .ended => pure ()
  | .storeTid tid => modify fun s => { s with tid := tid, body := .countDown }
  | .countDown => do
    let s ← get
    let count ← decrement s.threadLatch
    modify fun s => { s with threadLatch := count, log := s.log.goto .entry, body := .inFunc }
  | .inFunc => do
    let s ← get
    if s.log.place = .exited then
      modify fun s => { s with body := .ended }
    else if s.log.place = .entry then
      onLogging (AsyncLogging.threadFunc B .entry)
      let count ← decrement s.latch
      modify fun s => { s with latch := count }
    else
      onLogging (AsyncLogging.threadFunc B s.log.place)

/-- What happens next. -/
inductive Act where
  | start (created : Option Tid)
  | stop
  /-- The owner goes on in its call. -/
  | owner
  /-- The backend thread goes on. -/
  | backend
  | append (data : List Byte)
  deriving DecidableEq, Repr

/-- The owner need not wait. -/
def CanGoOn (s : DefaultLogging SIZE) : OwnerPc → Prop
  | .idle => False
  | .threadLatch => s.threadLatch ≤ 0
  | .assertTid => True
  | .loggingLatch => s.latch ≤ 0
  | .joining => s.body = .ended

instance (s : DefaultLogging SIZE) : (pc : OwnerPc) → Decidable (CanGoOn s pc)
  | .idle => .isFalse id
  | .threadLatch => inferInstanceAs (Decidable (s.threadLatch ≤ 0))
  | .assertTid => .isTrue trivial
  | .loggingLatch => inferInstanceAs (Decidable (s.latch ≤ 0))
  | .joining => inferInstanceAs (Decidable (s.body = .ended))

/-- There is a backend thread, and it has not ended. -/
def BackendRunning (s : DefaultLogging SIZE) : Prop := s.body ≠ .absent ∧ s.body ≠ .ended

instance (s : DefaultLogging SIZE) : Decidable (BackendRunning s) :=
  inferInstanceAs (Decidable (_ ∧ _))

/-- The owner calls when its last call has returned. -/
def Enabled (s : DefaultLogging SIZE) : Act → Prop
  | .start _ | .stop => s.owner = .idle
  | .owner => CanGoOn s s.owner
  | .backend => BackendRunning s
  | .append _ => True

instance (s : DefaultLogging SIZE) : (act : Act) → Decidable (Enabled s act)
  | .start _ | .stop => inferInstanceAs (Decidable (s.owner = .idle))
  | .owner => inferInstanceAs (Decidable (CanGoOn s s.owner))
  | .backend => inferInstanceAs (Decidable (BackendRunning s))
  | .append _ => .isTrue trivial

def routine (B : Build) (s : DefaultLogging SIZE) : Act → Routine SIZE Unit
  | .start created => startDefaultSingletonAsyncLogging B created
  | .stop => stopDefaultSingletonAsyncLogging B
  | .owner => ownerMove B s.owner
  | .backend => bodyMove B s.body
  | .append data => do
    arrow
    onLogging (AsyncLogging.append data)

/-- The state after the statements of a step. -/
def settle (r : EStateM.Result Halt (DefaultLogging SIZE) Unit) : DefaultLogging SIZE :=
  match r with
  | .ok _ s => s
  | .error e s => { s with halt := some e }

def step (B : Build) (s : DefaultLogging SIZE) (act : Act) : Option (DefaultLogging SIZE) :=
  if s.halt = none ∧ Enabled s act then some (settle ((routine B s act).run s)) else none

end DefaultLogging

/-- The runs of the default asynchronous logger. -/
def defaultRuns (SIZE : Nat) (B : Build) :
    StepSystem (DefaultLogging SIZE) DefaultLogging.Act where
  step := DefaultLogging.step B

end TurboNet.Logger
