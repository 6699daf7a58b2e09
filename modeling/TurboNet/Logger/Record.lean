/-
# TurboNet.Logger.Record — one log record, from its constructor to its output.

A `Logger` writes its header into a `LogStream`, its user inserts into the same stream, and the
destructor adds the newline and hands the chars to `s_output_`.  The header is a list of insertions
like any other, so a record is a run of the stream.

The newline goes through `Append`, which refuses it where a single char is free.
-/
import TurboNet.Lib.Wrapping
import TurboNet.Logger.LogStreamSpec

namespace TurboNet.Logger

open TurboNet.Lib
open LogStream

/-! ## The header -/

/-- `Logger::SourceFile`. -/
structure SourceFile where
  data : List Byte
  size : Int
  deriving DecidableEq, Repr

/-- `SourceFile::SourceFile(const char *file_name)`: what follows the last slash. -/
def SourceFile.construct (fileName : List Byte) : SourceFile :=
  let data := (fileName.reverse.takeWhile (· ≠ byteOf '/')).reverse
  { data := data, size := swrap 32 data.length }

/-- `operator<<(LogStream &, const SourceFile &)`.  A negative `size_` is a `size_t` no stream has
room for, and then neither has it for `data`. -/
def SourceFile.insertion (v : SourceFile) : Insertion :=
  .append (v.data.take (RawBuffer.castSize v.size))

/-- `"%06lld"`. -/
def printSix (v : Int) : String :=
  let sign := if v < 0 then "-" else ""
  let digits := toString v.natAbs
  sign ++ "".pushn '0' (6 - sign.length - digits.length) ++ digits

/-- What the constructor reads of its thread and of the clock: the 19 chars at `t_time_str.c_str()`
after `FormatTime` refreshed them, the microseconds since the epoch, and `t_tid_string`. -/
structure Context where
  timeStr : List Byte
  microseconds : Int
  tidString : List Byte
  deriving DecidableEq, Repr

/-- `Logger::Impl::FormatTime`, past its cache; `buf` has room for seven chars. -/
def formatTime (ctx : Context) : List Insertion :=
  [.append ctx.timeStr,
    .append ((bytesOf ("." ++ printSix (ctx.microseconds.tmod (1000 * 1000)))).take 7)]

/-- `Logger::Impl::Impl`, with `errnoText` what `StrErrorR(errno_info)` points to. -/
def implInsertions (ctx : Context) (logLevel : LogLevel) (errnoInfo : Int32) (errnoText : List Byte)
    (file : List Byte) (line : Int32) : List Insertion :=
  formatTime ctx ++
    [.append (bytesOf " - thread:"), .append ctx.tidString, .append (bytesOf " - "),
      .append (bytesOf logLevel.name), (SourceFile.construct file).insertion, .char (byteOf ':'),
      .int line, .append (bytesOf ": ")] ++
    if errnoInfo ≠ 0 then
      [.charPtr (some errnoText), .append (bytesOf " (errno="), .int errnoInfo,
        .append (bytesOf ") ")]
    else []

/-- The constructors of `Logger`, with the arguments behind `file` and `line`. -/
inductive Constructor where
  | plain
  | func (name : List Byte)
  | level (logLevel : LogLevel)
  | isAbort (flag : Bool) (errno : Int32) (errnoText : List Byte)
  deriving DecidableEq

/-- `impl_.log_level_`. -/
def Constructor.logLevel : Constructor → LogLevel
  | .plain => .info
  | .func _ => .debug
  | .level logLevel => logLevel
  | .isAbort flag _ _ => levelOfAbort flag

/-- What a constructor writes into the stream. -/
def Constructor.header (ctx : Context) (file : List Byte) (line : Int32) :
    Constructor → List Insertion
  | .plain => implInsertions ctx .info 0 [] file line
  | .func name =>
    implInsertions ctx .debug 0 [] file line ++
      [.charPtr (some (bytesOf "(")), .charPtr (some name), .charPtr (some (bytesOf "): "))]
  | .level logLevel => implInsertions ctx logLevel 0 [] file line
  | .isAbort flag errno errnoText => implInsertions ctx (levelOfAbort flag) errno errnoText file line

/-! ## The destructor -/

/-- `Logger::Impl::Finish`. -/
def finish (format : Float → List Byte) : RawBuffer.Method kSmallBuffer Unit :=
  insert format (.char (byteOf '\n'))

/-- `Logger::~Logger`: the bytes passed to `s_output_`, and whether `abort` follows. -/
def destroyLogger (format : Float → List Byte) (logLevel : LogLevel) :
    RawBuffer.Method kSmallBuffer (List Byte × Bool) := do
  finish format
  let msg ← RawBuffer.chars
  pure (msg, logLevel.aborts)

/-- A log statement: where it stands, its constructor, and what is done with its stream. -/
structure Statement where
  ctx : Context
  file : List Byte
  line : Int32
  constructor : Constructor
  acts : List LogStream.Act

/-- Everything done with the stream before the destructor runs. -/
def Statement.allActs (st : Statement) : List LogStream.Act :=
  (st.constructor.header st.ctx st.file st.line).map LogStream.Act.insert ++ st.acts

/-- What a log statement outputs, if nothing undefined happens on the way. -/
def Statement.output (format : Float → List Byte) (st : Statement) : Option (List Byte × Bool) :=
  ((streamRuns format).exec RawBuffer.construct st.allActs).bind fun m =>
    match (destroyLogger format st.constructor.logLevel).run m with
    | .ok sent _ => some sent
    | .error _ _ => none

/-! ## The terminator -/

variable {format : Float → List Byte} {m : RawBuffer kSmallBuffer}

theorem chars_run (h : m.cur ≤ kSmallBuffer) : RawBuffer.chars.run m = .ok m.contents m := by
  unfold RawBuffer.chars
  rw [run_get_bind, if_pos h]
  rfl

/-- `contents`, with a newline if two chars are free behind it. -/
def terminated (contents : List Byte) : List Byte :=
  if contents.length + 1 < kSmallBuffer then contents ++ [byteOf '\n'] else contents

theorem destroyLogger_run (hformat : ∀ x, (format x).length < kMaxNumericSize)
    {texts : List (List Byte)} (hm : Holds texts m) (logLevel : LogLevel) :
    ∃ m', (destroyLogger format logLevel).run m =
      .ok (terminated texts.flatten, logLevel.aborts) m' := by
  have hlen : texts.flatten.length = m.cur := by
    rw [← hm.contents, length_contents (Nat.le_of_lt hm.free)]
  obtain ⟨m', hfinish, hinserted⟩ := insert_spec hformat hm.free (.char (byteOf '\n'))
  -- the newline is an insertion like any other, and may be refused
  have hafter : m'.cur ≤ kSmallBuffer ∧ m'.contents = terminated texts.flatten := by
    unfold terminated
    cases hinserted with
    | whole haccepted happends hfree =>
      have hroom : 1 < kSmallBuffer - m.cur := haccepted
      rw [if_pos (by omega), happends.contents, hm.contents]
      exact ⟨Nat.le_of_lt hfree, rfl⟩
    | nothing hrefused =>
      have hroom : ¬ 1 < kSmallBuffer - m.cur := hrefused
      rw [if_neg (by omega)]
      exact ⟨Nat.le_of_lt hm.free, hm.contents⟩
  refine ⟨m', ?_⟩
  unfold destroyLogger finish
  rw [run_bind_of_ok hfinish, run_bind_of_ok (chars_run hafter.1), hafter.2]
  rfl

/-- **Every statement outputs a record**: what its stream accepted, and the newline if that fits. -/
theorem output_eq (hformat : ∀ x, (format x).length < kMaxNumericSize) (st : Statement) :
    st.output format = some (terminated (accepted format st.allActs).flatten,
      st.constructor.logLevel.aborts) := by
  obtain ⟨m, hrun, hholds⟩ := run_holds hformat st.allActs construct_holds
  obtain ⟨m', hdestroy⟩ := destroyLogger_run hformat hholds st.constructor.logLevel
  unfold Statement.output
  rw [hrun, Option.bind_some]
  simp only [hdestroy]
  rfl

/-- The record ends with a newline. -/
def EndsLine (format : Float → List Byte) (st : Statement) : Prop :=
  ∃ line aborts, st.output format = some (line ++ [byteOf '\n'], aborts)

theorem terminated_endsLine_iff (contents : List Byte) :
    (∃ line, terminated contents = line ++ [byteOf '\n']) ↔
      contents.length + 1 < kSmallBuffer ∨ contents.getLast? = some (byteOf '\n') := by
  unfold terminated
  by_cases hroom : contents.length + 1 < kSmallBuffer
  · rw [if_pos hroom]
    exact ⟨fun _ => .inl hroom, fun _ => ⟨contents, rfl⟩⟩
  · rw [if_neg hroom]
    constructor
    · rintro ⟨line, rfl⟩
      exact .inr List.getLast?_concat
    · intro h
      obtain ⟨line, hline⟩ := List.getLast?_eq_some_iff.mp (h.resolve_left hroom)
      exact ⟨line, hline⟩

/-- **When a record is terminated.** It ends with a newline exactly when the chars its stream holds
before the destructor leave two free, or end with a newline already. -/
theorem record_terminated_iff (format : Float → List Byte)
    (hformat : ∀ x, (format x).length < kMaxNumericSize) (st : Statement) :
    EndsLine format st ↔
      (accepted format st.allActs).flatten.length + 1 < kSmallBuffer ∨
        (accepted format st.allActs).flatten.getLast? = some (byteOf '\n') := by
  rw [← terminated_endsLine_iff, EndsLine, output_eq hformat st]
  constructor
  · rintro ⟨line, aborts, h⟩
    exact ⟨line, congrArg Prod.fst (Option.some.inj h)⟩
  · rintro ⟨line, h⟩
    exact ⟨line, _, by rw [h]⟩

/-- A `"%.12g"` on which every value reads the same. -/
def alwaysHalf (_ : Float) : List Byte := bytesOf "0.5"

theorem alwaysHalf_short (x : Float) : (alwaysHalf x).length < kMaxNumericSize := by
  show (bytesOf "0.5").length < kMaxNumericSize
  decide

def infoContext : Context where
  timeStr := bytesOf "2023-06-01 10:00:00"
  microseconds := 5
  tidString := bytesOf "4711"

/-- `LOG_INFO` in line 7 of `a.cc`, with `message` inserted. -/
def infoStatement (message : List Byte) : Statement where
  ctx := infoContext
  file := bytesOf "src/a.cc"
  line := 7
  constructor := .plain
  acts := [.insert (.string message)]

def infoHeader : List Byte := bytesOf "2023-06-01 10:00:00.000005 - thread:4711 - INFO  a.cc:7: "

/-- What its constructor does with the stream. -/
def infoActs : List LogStream.Act :=
  (Constructor.plain.header infoContext (bytesOf "src/a.cc") 7).map LogStream.Act.insert

theorem allActs_infoStatement (message : List Byte) :
    (infoStatement message).allActs = infoActs ++ [.insert (.string message)] := by
  simp only [Statement.allActs, infoStatement, infoActs]

theorem accepted_infoActs : (infoActs.foldl (record alwaysHalf) []).flatten = infoHeader := by
  decide

theorem length_infoHeader : infoHeader.length = 57 := by decide

theorem accepted_infoStatement (message : List Byte) (h : message.length < 3943) :
    (accepted alwaysHalf (infoStatement message).allActs).flatten = infoHeader ++ message := by
  have hroom : (Insertion.string message).Accepted alwaysHalf (kSmallBuffer - 57) := by
    rw [Insertion.Accepted, Insertion.isNumeric, if_neg Bool.false_ne_true, Insertion.text]
    have hfree : kSmallBuffer - 57 = 3943 := by decide
    rwa [hfree]
  rw [allActs_infoStatement, accepted, List.foldl_append, List.foldl_cons, List.foldl_nil, record,
    accepted_infoActs, length_infoHeader, if_pos hroom, List.flatten_append, accepted_infoActs,
    List.flatten_singleton, Insertion.text]

theorem record_terminated_iff_short :
    (infoStatement (bytesOf "x")).output alwaysHalf = some (infoHeader ++ bytesOf "x\n", false) ∧
      EndsLine alwaysHalf (infoStatement (bytesOf "x")) := by
  have hshort := accepted_infoStatement (bytesOf "x") (by decide)
  refine ⟨?_, (record_terminated_iff alwaysHalf alwaysHalf_short _).mpr (.inl ?_)⟩
  · rw [output_eq alwaysHalf_short, hshort]
    decide
  · rw [hshort]
    decide

/-- A message that leaves one char free: the record ends with its last char. -/
theorem full_record_not_terminated :
    (infoStatement (List.replicate 3942 (byteOf 'x'))).output alwaysHalf =
        some (infoHeader ++ List.replicate 3942 (byteOf 'x'), false) ∧
      ¬ EndsLine alwaysHalf (infoStatement (List.replicate 3942 (byteOf 'x'))) := by
  have hfull := accepted_infoStatement (List.replicate 3942 (byteOf 'x'))
    (by rw [List.length_replicate]; decide)
  have hout : (infoStatement (List.replicate 3942 (byteOf 'x'))).output alwaysHalf =
      some (infoHeader ++ List.replicate 3942 (byteOf 'x'), false) := by
    rw [output_eq alwaysHalf_short, hfull, terminated, if_neg]
    · rfl
    · rw [List.length_append, length_infoHeader, List.length_replicate]
      decide
  refine ⟨hout, ?_⟩
  rintro ⟨line, aborts, hline⟩
  rw [hout] at hline
  have hsame := congrArg (fun sent => sent.1.getLast?) (Option.some.inj hline)
  have hlast : (infoHeader ++ List.replicate 3942 (byteOf 'x')).getLast? = some (byteOf 'x') := by
    rw [List.getLast?_append_of_ne_nil, List.getLast?_replicate]
    · rfl
    · rw [Ne, List.replicate_eq_nil_iff]
      decide
  rw [hlast, List.getLast?_concat] at hsame
  exact absurd hsame (by decide)

end TurboNet.Logger
