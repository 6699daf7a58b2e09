/-
# TurboNet.Logger.Logger — which log statements end the process.

`~Logger` aborts after a record of level `FATAL`.  `LOG_SYS_ERROR` and `LOG_SYS_FATAL` do not name a
level: they pass `false` and `true` as the constructor's `is_abort`, and the constructor picks the
level.  A `Build` fixes what the rest of the program inherits from its compilation: whether asserts
are evaluated, and the level that constructor gives.
-/
import TurboNet.Lib.Program

namespace TurboNet.Logger

open TurboNet.Lib

/-- `Logger::LogLevel`. -/
inductive LogLevel where
  | debug
  | info
  | warn
  | error
  | fatal
  deriving DecidableEq, Repr

/-- `kLogLevelName`. -/
def LogLevel.name : LogLevel → String
  | .debug => "DEBUG "
  | .info => "INFO  "
  | .warn => "WARN  "
  | .error => "ERROR "
  | .fatal => "FATAL "

/-- `Logger::~Logger` calls `abort` after the record is out. -/
def LogLevel.aborts (level : LogLevel) : Bool := level == .fatal

/-- The level of `Logger::Logger(const char *file, int line, bool is_abort)`. -/
def levelOfAbort (isAbort : Bool) : LogLevel := if isAbort then .error else .fatal

/-- How a thread ends the process. -/
inductive Halt where
  | assertFailed (expr : String)
  | aborted (message : String)
  | undefined (what : String)
  deriving DecidableEq, Repr

/-- What the compilation of the program fixes. -/
structure Build where
  asserts : Bool
  sysLevel : Bool → LogLevel

/-- `cmake -DCMAKE_BUILD_TYPE=Debug`. -/
def Build.debug : Build := { asserts := true, sysLevel := levelOfAbort }

/-- The default, `Release`: `NDEBUG` compiles asserts out. -/
def Build.release : Build := { asserts := false, sysLevel := levelOfAbort }

/-- `assert(cond)` for a condition without effects. -/
def Build.assert {σ : Type} (B : Build) (expr : String) (cond : Prop) [Decidable cond] :
    EStateM Halt σ Unit :=
  check (.assertFailed expr) (B.asserts = true → cond)

/-- `assert(expr)` is passed exactly when asserts are compiled out or the condition holds, and
changes nothing. -/
theorem Build.assert_ok_iff {σ : Type} {B : Build} {expr : String} {cond : Prop} [Decidable cond]
    {u : Unit} {s s' : σ} :
    (B.assert expr cond).run s = .ok u s' ↔ (B.asserts = true → cond) ∧ s' = s :=
  check_ok_iff

theorem Build.run_assert_of {σ : Type} {B : Build} {expr : String} {cond : Prop} [Decidable cond]
    {s : σ} (h : B.asserts = true → cond) : (B.assert expr cond).run s = .ok () s :=
  run_check_of h

theorem Build.run_assert_of_not {σ : Type} {B : Build} {expr : String} {cond : Prop}
    [Decidable cond] {s : σ} (h : ¬ (B.asserts = true → cond)) :
    (B.assert expr cond).run s = .error (.assertFailed expr) s :=
  run_check_of_not h

end TurboNet.Logger
