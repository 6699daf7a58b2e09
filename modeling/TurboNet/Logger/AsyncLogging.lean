/-
# TurboNet.Logger.AsyncLogging — the asynchronous logger of `logger/async_logging.{h,cpp}`.

Producers copy messages into `current_buffer_`; a backend thread takes the full buffers away and
hands them to a `LogFile`.  Buffers are owned by `unique_ptr`s and travel: a moved-from pointer is
null, and dereferencing a null one is undefined behaviour.

`AsyncLogging` keeps the members, the locals of `ThreadFunc` with the place the backend thread has
reached, and what the `LogFile` was handed.  Every section of the source under `mutex_` is one step,
so `mutex_` itself is not part of the state; the wait in the backend's section splits it in two.
`cond_.Notify` has no step, because `WaitForSeconds` may return at any time without it.  What the
`LogFile` does, `flush_interval_`, `base_name_` and `roll_size_` play no part.
-/
import Mathlib.Algebra.Group.Nat.Defs
import TurboNet.Lib.StepSystem
import TurboNet.Logger.FixedBuffer
import TurboNet.Logger.Logger

namespace TurboNet.Logger

open TurboNet.Lib

/-- `kLargeBuffer` of `logger/log_stream.h`. -/
def kLargeBuffer : Nat := 4000 * 1000

/-- `AsyncLogging::BufferPtr`. -/
abbrev BufferPtr (SIZE : Nat) := Option (FixedBuffer SIZE)

/-- A call of `output.Append`: a buffer's chars, or the line that tells how many were dropped. -/
inductive Chunk where
  | notice (dropped : Nat)
  | chars (chars : List Byte)
  deriving DecidableEq, Repr

/-- Where the backend thread stands in `ThreadFunc`. -/
inductive Place where
  /-- The thread does not exist yet. -/
  | unstarted
  /-- At `assert(running_ == true)`. -/
  | entry
  /-- At `while (running_)`. -/
  | loopTest
  /-- Before the section under `mutex_`. -/
  | section_
  /-- In `cond_.WaitForSeconds`, with `mutex_` released. -/
  | waiting
  /-- Past the section, before `buffers_to_write.size() > 25`. -/
  | batch
  /-- In the loop over `buffers_to_write`, before its entry `k`. -/
  | writing (k : Nat)
  /-- `ThreadFunc` has returned. -/
  | exited
  deriving DecidableEq, Repr

/-- The logger, with the stack of its backend thread and the calls made on the `LogFile`. -/
structure AsyncLogging (SIZE : Nat) where
  running : Bool
  currentBuffer : BufferPtr SIZE
  nextBuffer : BufferPtr SIZE
  buffers : List (BufferPtr SIZE)
  place : Place
  newBuffer1 : BufferPtr SIZE
  newBuffer2 : BufferPtr SIZE
  buffersToWrite : List (BufferPtr SIZE)
  output : List Chunk
  deriving DecidableEq, Repr

/-- `static_cast<int>(len)`. -/
def castInt (len : Nat) : Int := (len : Int).bmod (2 ^ 32)

namespace AsyncLogging

variable {SIZE : Nat}

/-- `AsyncLogging::AsyncLogging`. -/
def construct (SIZE : Nat) : AsyncLogging SIZE where
  running := false
  currentBuffer := some FixedBuffer.construct.bZero
  nextBuffer := some FixedBuffer.construct.bZero
  buffers := []
  place := .unstarted
  newBuffer1 := none
  newBuffer2 := none
  buffersToWrite := []
  output := []

/-- A function of the logger, on its state. -/
abbrev Method (SIZE : Nat) := EStateM Halt (AsyncLogging SIZE)

/-- `*p`. -/
def deref (p : BufferPtr SIZE) : Method SIZE (FixedBuffer SIZE) :=
  match p with
  | some b => pure b
  | none => throw (.undefined "null unique_ptr")

/-- `buffers_.push_back(std::move(current_buffer_))`. -/
def pushCurrent (l : AsyncLogging SIZE) : AsyncLogging SIZE :=
  { l with buffers := l.buffers ++ [l.currentBuffer], currentBuffer := none }

def setCurrent (l : AsyncLogging SIZE) (p : BufferPtr SIZE) : AsyncLogging SIZE :=
  { l with currentBuffer := p }

/-- `current_buffer_ = std::move(next_buffer_)`. -/
def takeNext (l : AsyncLogging SIZE) : AsyncLogging SIZE :=
  { l with currentBuffer := l.nextBuffer, nextBuffer := none }

def goto (l : AsyncLogging SIZE) (place : Place) : AsyncLogging SIZE := { l with place := place }

/-- `AsyncLogging::Append(data, len)`, one section under `mutex_`. -/
def append (data : List Byte) : Method SIZE Unit := do
  let l ← get
  let current ← deref l.currentBuffer
  if castInt data.length < (current.avail : Int) then
    modify (·.setCurrent (some (current.append data)))
  else
    modify pushCurrent
    let l ← get
    if l.nextBuffer.isSome then
      modify takeNext
    else
      modify (·.setCurrent (some FixedBuffer.construct))
    let l ← get
    let current ← deref l.currentBuffer
    modify (·.setCurrent (some (current.append data)))

/-! ## `ThreadFunc` -/

/-- The statements before the loop. -/
def enter (B : Build) : Method SIZE Unit := do
  let l ← get
  B.assert "running_ == true" (l.running = true)
  modify fun l => { l with
    newBuffer1 := some FixedBuffer.construct.bZero
    newBuffer2 := some FixedBuffer.construct.bZero
    buffersToWrite := []
    place := .loopTest }

/-- `p && p->Length() == 0`. -/
def isFresh (p : BufferPtr SIZE) : Bool :=
  match p with
  | some b => b.length == 0
  | none => false

/-- The loop test and the asserts at the top of the loop. -/
def testRunning (B : Build) : Method SIZE Unit := do
  let l ← get
  if l.running then
    B.assert "new_buffer_1 && new_buffer_1->Length() == 0" (isFresh l.newBuffer1 = true)
    B.assert "new_buffer_2 && new_buffer_2->Length() == 0" (isFresh l.newBuffer2 = true)
    B.assert "buffers_to_write.empty()" (l.buffersToWrite = [])
    modify (·.goto .section_)
  else
    modify (·.goto .exited)

/-- The section's last four statements. -/
def swapBuffers (l : AsyncLogging SIZE) : AsyncLogging SIZE :=
  let l := l.pushCurrent
  let l := { l with currentBuffer := l.newBuffer1, newBuffer1 := none }
  let l := { l with buffersToWrite := l.buffers, buffers := l.buffersToWrite }
  if l.nextBuffer.isNone then { l with nextBuffer := l.newBuffer2, newBuffer2 := none } else l

/-- The section up to its wait, or whole when there is no wait. -/
def enterSection : Method SIZE Unit := do
  let l ← get
  if l.buffers = [] then
    modify (·.goto .waiting)
  else
    modify fun l => l.swapBuffers.goto .batch

/-- The rest of the section, after the wait. -/
def wake : Method SIZE Unit :=
  modify fun l => l.swapBuffers.goto .batch

/-- Batches of more than this many buffers are cut. -/
def maxBatch : Nat := 25

/-- A batch of more than 25 buffers leaves a notice and its first two. -/
def cutBatch (B : Build) : Method SIZE Unit := do
  let l ← get
  B.assert "!buffers_to_write.empty()" (l.buffersToWrite ≠ [])
  if maxBatch < l.buffersToWrite.length then
    modify fun l => { l with
      output := l.output ++ [.notice (l.buffersToWrite.length - 2)]
      buffersToWrite := l.buffersToWrite.take 2 }
  modify (·.goto (.writing 0))

/-- `p = std::move(buffers_to_write.back()); buffers_to_write.pop_back(); p->Reset();` for a `p` that
is null; returns what `p` holds afterwards. -/
def recycle (B : Build) (p : BufferPtr SIZE) : Method SIZE (BufferPtr SIZE) := do
  if p.isSome then
    pure p
  else
    let l ← get
    B.assert "!buffers_to_write.empty()" (l.buffersToWrite ≠ [])
    match l.buffersToWrite.getLast? with
    | none => throw (.undefined "back of an empty vector")
    | some back =>
      modify fun l => { l with buffersToWrite := l.buffersToWrite.dropLast }
      let b ← deref back
      pure (some b.reset)

/-- One round of the loop over `buffers_to_write`, or what follows the loop. -/
def writeBuffer (B : Build) (k : Nat) : Method SIZE Unit := do
  let l ← get
  match l.buffersToWrite[k]? with
  | some buffer =>
    let b ← deref buffer
    modify fun l => { l with output := l.output ++ [.chars b.chars] }
    modify (·.goto (.writing (k + 1)))
  | none =>
    let p ← recycle B l.newBuffer1
    modify fun l => { l with newBuffer1 := p }
    let p ← recycle B l.newBuffer2
    modify fun l => { l with newBuffer2 := p }
    modify fun l => { l with buffersToWrite := [] }
    modify (·.goto .loopTest)

/-- What the backend thread does next. -/
def threadFunc (B : Build) : Place → Method SIZE Unit
  | .unstarted | .exited => pure ()
  | .entry => enter B
  | .loopTest => testRunning B
  | .section_ => enterSection
  | .waiting => wake
  | .batch => cutBatch B
  | .writing k => writeBuffer B k

end AsyncLogging

end TurboNet.Logger
