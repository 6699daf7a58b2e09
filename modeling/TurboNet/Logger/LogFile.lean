/-
# TurboNet.Logger.LogFile — the rolling log of `logger/log_file.{h,cpp}` and its files.

A `FileUtil` appends to one stdio stream; a `LogFile` appends to its current `FileUtil` and replaces
it when it has grown past `roll_size_` or when a day has gone by.  A roll reads the clock again and
does nothing unless the clock has passed the second of the last one.

What the system answers to one call (the clock, `fopen`, `fwrite`) is an `Answers`.  With
`thread_safe` a call is one section under `mutex_`, without it the calls come from one thread: either
way a call is one step.
-/
import TurboNet.Base.Timestamp
import TurboNet.Lib.StepSystem
import TurboNet.Lib.Wrapping
import TurboNet.Logger.FixedBuffer
import TurboNet.Logger.Logger

namespace TurboNet.Logger

open TurboNet.Lib
open TurboNet.Base

/-- What the system answers to one call of `Append`, or to the constructor. -/
structure Answers where
  /-- The reading of the clock in `AppendUnLocked`. -/
  now : Timestamp
  /-- The reading of the clock in `RollFile`. -/
  rollNow : Timestamp
  /-- `fopen` gives a stream. -/
  fopen : Bool
  /-- How many of the `m` chars it is offered the call's `k`-th `fwrite_unlocked` would take. -/
  fwrite : Nat → Nat → Nat

/-- What file names are made of besides the base name and the time. -/
structure Host where
  hostName : String
  pid : String
  localtime : Int → Tm

/-! ## `FileUtil` -/

/-- A `FileUtil`, whose `fp_` is not null, with the chars the stream has accepted.  The first
`flushed` of these have been passed on by an `fflush` or an `fclose`. -/
structure FileUtil where
  fileName : String
  writtenBytes : Int
  accepted : List Byte
  flushed : Nat
  deriving DecidableEq, Repr

namespace FileUtil

/-- `setbuffer` is undefined on the null pointer a failed `fopen` gives. -/
def construct (fopen : Bool) (fileName : String) : Except Halt FileUtil :=
  if fopen then
    .ok { fileName := fileName, writtenBytes := 0, accepted := [], flushed := 0 }
  else
    .error (.undefined "setbuffer on a null FILE")

/-- The stream takes `n` chars of `data`. -/
def write (f : FileUtil) (n : Nat) (data : List Byte) : FileUtil :=
  { f with accepted := f.accepted ++ data.take n }

/-- The loop of `Append`, before its `k`-th call of `Write`. -/
def writeRest (fwrite : Nat → Nat → Nat) (k : Nat) (f : FileUtil) (rest : List Byte) : FileUtil :=
  if hremain : 0 < rest.length then
    let x := min (fwrite k rest.length) rest.length
    if hx : x = 0 then f else writeRest fwrite (k + 1) (f.write x rest) (rest.drop x)
  else f
termination_by rest.length
decreasing_by
  rw [List.length_drop]
  omega

/-- `Append(data, len)`.  `written_bytes_` counts what was asked for, in an `off_t`. -/
def append (fwrite : Nat → Nat → Nat) (data : List Byte) (f : FileUtil) : FileUtil :=
  let n := min (fwrite 0 data.length) data.length
  let f := writeRest fwrite 1 (f.write n data) (data.drop n)
  { f with writtenBytes := swrap 64 (f.writtenBytes + swrap 64 data.length) }

def flush (f : FileUtil) : FileUtil := { f with flushed := f.accepted.length }

/-- `~FileUtil` closes the stream. -/
def destroy (f : FileUtil) : FileUtil := f.flush

end FileUtil

/-! ## `LogFile` -/

/-- A call of `RollFile`: the second it read, and `last_roll_` before it. -/
structure Attempt where
  reading : Int
  lastRoll : Int
  deriving DecidableEq, Repr

/-- The attempt opens a file. -/
def Attempt.opens (t : Attempt) : Bool := t.lastRoll < t.reading

/-- The arguments of the constructor. -/
structure LogConfig where
  baseName : String
  rollSize : Int
  flushInterval : Int := 3
  checkEveryN : Int := 1024
  deriving DecidableEq, Repr

/-- A `LogFile`, with the `FileUtil` objects it has destroyed and its calls of `RollFile`, oldest
first. -/
structure LogFile extends LogConfig where
  count : Int
  file : Option FileUtil
  startPeriod : Int
  lastRoll : Int
  lastFlush : Int
  past : List FileUtil
  attempts : List Attempt
  deriving DecidableEq, Repr

namespace LogFile

/-- The members the constructor initialises before its body. -/
def blank (c : LogConfig) : LogFile where
  toLogConfig := c
  count := 0
  file := none
  startPeriod := 0
  lastRoll := 0
  lastFlush := 0
  past := []
  attempts := []

/-- A function of the log, on its state. -/
abbrev Method := EStateM Halt LogFile

/-- `*file_`. -/
def derefFile : Method FileUtil := do
  match (← get).file with
  | some f => pure f
  | none => throw (.undefined "null unique_ptr")

def setFile (l : LogFile) (f : FileUtil) : LogFile := { l with file := some f }

/-- `file_ = std::make_unique<FileUtil>(..)`. -/
def replaceFile (l : LogFile) (f : FileUtil) : LogFile :=
  { l with file := some f, past := l.past ++ l.file.toList.map FileUtil.destroy }

def attempted (l : LogFile) (nowSeconds : Int) : LogFile :=
  { l with attempts := l.attempts ++ [{ reading := nowSeconds, lastRoll := l.lastRoll }] }

def stamped (l : LogFile) (now : Timestamp) : LogFile :=
  { l with
    startPeriod := now.timeSinceEpochDays
    lastRoll := now.timeSinceEpochSeconds
    lastFlush := now.timeSinceEpochSeconds }

/-- `last_flush_ = now_seconds`. -/
def flushedAt (l : LogFile) (nowSeconds : Int) : LogFile := { l with lastFlush := nowSeconds }

/-- `++count_`. -/
def counted (l : LogFile) : LogFile := { l with count := swrap 32 (l.count + 1) }

/-- `GetLogFileName`, for the reading it hands back. -/
def getLogFileName (H : Host) (now : Timestamp) (l : LogFile) : String :=
  l.baseName ++ now.toFormatString H.localtime ++ H.hostName ++ H.pid ++ ".log"

def rollFile (H : Host) (a : Answers) : Method Unit := do
  let fileName := (← get).getLogFileName H a.rollNow
  let nowTimeSeconds := a.rollNow.timeSinceEpochSeconds
  let lastRoll := (← get).lastRoll
  modify (·.attempted nowTimeSeconds)
  if lastRoll < nowTimeSeconds then
    modify (·.stamped a.rollNow)
    match FileUtil.construct a.fopen fileName with
    | .ok f => modify (·.replaceFile f)
    | .error e => throw e

/-- `LogFile::LogFile`. -/
def construct (B : Build) (H : Host) (c : LogConfig) (a : Answers) : Except Halt LogFile :=
  let body : Method Unit := do
    B.assert "base_name_.find('/') == std::string::npos" ('/' ∉ c.baseName.toList)
    rollFile H a
  match body.run (blank c) with
  | .ok _ l => .ok l
  | .error e _ => .error e

def appendUnLocked (H : Host) (a : Answers) (data : List Byte) : Method Unit := do
  let f ← derefFile
  let f := f.append a.fwrite data
  modify (·.setFile f)
  let l ← get
  if l.rollSize < f.writtenBytes then
    rollFile H a
  else
    modify counted
    let l ← get
    if l.checkEveryN ≤ l.count then
      let nowSeconds := a.now.timeSinceEpochSeconds
      if l.startPeriod < a.now.timeSinceEpochDays then
        rollFile H a
      else if l.flushInterval < nowSeconds - l.lastFlush then
        modify (·.flushedAt nowSeconds)
        let f ← derefFile
        modify (·.setFile f.flush)

/-- `LogFile::Flush`. -/
def flush : Method Unit := do
  let f ← derefFile
  modify (·.setFile f.flush)

/-- The `FileUtil` objects of the log, in the order in which they were made. -/
def files (l : LogFile) : List FileUtil := l.past ++ l.file.toList

end LogFile

/-! ## Runs -/

/-- A call on a log, with what the system answers to it. -/
inductive LogCall where
  | append (data : List Byte) (a : Answers)
  | flush

namespace LogCall

def perform (H : Host) : LogCall → LogFile.Method Unit
  | .append data a => LogFile.appendUnLocked H a data
  | .flush => LogFile.flush

/-- What a call appends. -/
def appended : LogCall → List (List Byte)
  | .append data _ => [data]
  | .flush => []

end LogCall

/-- The calls on a log, one after the other, as long as the process lives. -/
def logSystem (H : Host) : StepSystem LogFile LogCall where
  step l call :=
    match (call.perform H).run l with
    | .ok _ l' => some l'
    | .error _ _ => none

end TurboNet.Logger
