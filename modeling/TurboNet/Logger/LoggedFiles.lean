/-
# TurboNet.Logger.LoggedFiles — log statements, from the macros to the files and back.

The threads of a program come to log statements.  A macro may ask for the level first; the temporary
`Logger` it makes lives to the end of the statement, so that a thread has several of them where a
statement logs while it is evaluated; and its destructor hands the record to
`DefaultAsyncLoggingOutput`, which appends it to the asynchronous logger.  `logs_read_back` reads the
files line by line: they say what the statements said, in the order of the destructors.
-/
import TurboNet.Logger.AsyncFiles
import TurboNet.Logger.RecordText

namespace TurboNet.Logger

open TurboNet.Lib
open TurboNet.Base
open AsyncLogging
open LogStream

/-! ## The macros -/

/-- The number of the enumerator. -/
def LogLevel.value : LogLevel → Nat
  | .debug => 0
  | .info => 1
  | .warn => 2
  | .error => 3
  | .fatal => 4

/-- `LOG_DEBUG` to `LOG_SYS_FATAL`, with `__func__`, or with `errno` and what `StrErrorR` says of it. -/
inductive LogMacro where
  | debug (func : List Byte)
  | info
  | warn
  | error
  | fatal
  | sysError (errno : Int32) (errnoText : List Byte)
  | sysFatal (errno : Int32) (errnoText : List Byte)

namespace LogMacro

/-- What `GetLogLevel()` is compared with. -/
def gate : LogMacro → Option LogLevel
  | .debug _ => some .debug
  | .info => some .info
  | _ => none

def taken (level : LogLevel) (m : LogMacro) : Bool :=
  m.gate.all fun gate => level.value ≤ gate.value

def constructor : LogMacro → Constructor
  | .debug func => .func func
  | .info => .plain
  | .warn => .level .warn
  | .error => .level .error
  | .fatal => .level .fatal
  | .sysError errno errnoText => .isAbort false errno errnoText
  | .sysFatal errno errnoText => .isAbort true errno errnoText

end LogMacro

/-- A log statement of the source, and what its execution meets. -/
structure LogUse where
  via : LogMacro
  ctx : Context
  file : List Byte
  line : Int32
  acts : List LogStream.Act

def LogUse.statement (use : LogUse) : Statement where
  ctx := use.ctx
  file := use.file
  line := use.line
  constructor := use.via.constructor
  acts := use.acts

/-! ## The threads that log -/

inductive Turn where
  | setLogLevel (level : LogLevel)
  /-- A thread comes to a log statement. -/
  | enter (thread : Nat) (use : LogUse)
  /-- It comes to the end of its innermost one. -/
  | leave (thread : Nat)
  /-- The owner of the logger moves, or its backend thread. -/
  | other (act : Act)

/-- `s_log_level_`, and the statements under way, the newest first. -/
structure Writers where
  level : LogLevel
  entered : List (Nat × Statement)

namespace Writers

def start (level : LogLevel) : Writers := { level := level, entered := [] }

def turn (w : Writers) : Turn → Writers
  | .setLogLevel level => { w with level := level }
  | .enter thread use =>
    if use.via.taken w.level then { w with entered := (thread, use.statement) :: w.entered } else w
  | .leave thread => { w with entered := w.entered.eraseP fun begun => begun.1 = thread }
  | .other _ => w

/-- The statement whose destructor runs. -/
def left (w : Writers) : Turn → Option Statement
  | .leave thread => (w.entered.find? fun begun => begun.1 = thread).map Prod.snd
  | _ => none

end Writers

/-- The bytes handed to `s_output_`. -/
def Statement.message (format : Float → List Byte) (st : Statement) : Message :=
  ((st.output format).map Prod.fst).getD []

/-- What the turn does to the asynchronous logger. -/
def Writers.act (format : Float → List Byte) (w : Writers) : Turn → Option Act
  | .other act => some act
  | turn => (w.left turn).map fun st => .append (st.message format)

def movesOf (format : Float → List Byte) : Writers → List (Turn × Replies) → List (Act × Replies)
  | _, [] => []
  | w, (turn, r) :: turns =>
    ((w.act format turn).map fun act => (act, r)).toList ++ movesOf format (w.turn turn) turns

/-- The statements that ended, in this order. -/
def saidBy : Writers → List Turn → List Statement
  | _, [] => []
  | w, turn :: turns => (w.left turn).toList ++ saidBy (w.turn turn) turns

variable {format : Float → List Byte} {w : Writers} {st : Statement}

theorem appendedBy_append (xs ys : List Act) :
    appendedBy (xs ++ ys) = appendedBy xs ++ appendedBy ys := List.filterMap_append

/-- Only the threads that log append. -/
def Turn.Quiet : Turn → Prop
  | .other (.append _) => False
  | _ => True

instance : (turn : Turn) → Decidable turn.Quiet
  | .other (.append _) => .isFalse id
  | .other .startStore | .other .startSpawn | .other .startReturn | .other .stopCall
  | .other .stopStore | .other .stopJoin | .other .backend
  | .setLogLevel _ | .enter _ _ | .leave _ => .isTrue trivial

theorem appendedBy_act {turn : Turn} (hquiet : turn.Quiet) (r : Replies) :
    appendedBy (((w.act format turn).map fun act => (act, r)).toList.map Prod.fst) =
      (w.left turn).toList.map (Statement.message format) := by
  cases turn with
  | setLogLevel level => rfl
  | enter thread use => rfl
  | leave thread =>
    show appendedBy ((((w.left (.leave thread)).map _).map _).toList.map Prod.fst) = _
    cases w.left (.leave thread) with
    | none => rfl
    | some st => rfl
  | other act =>
    cases act with
    | append data => exact hquiet.elim
    | startStore => rfl
    | startSpawn => rfl
    | startReturn => rfl
    | stopCall => rfl
    | stopStore => rfl
    | stopJoin => rfl
    | backend => rfl

/-- What is appended is what the statements say. -/
theorem appendedBy_movesOf {turns : List (Turn × Replies)} (hquiet : ∀ turn ∈ turns, turn.1.Quiet) :
    appendedBy ((movesOf format w turns).map Prod.fst) =
      (saidBy w (turns.map Prod.fst)).map (Statement.message format) := by
  induction turns generalizing w with
  | nil => rfl
  | cons turn turns ih =>
    rw [movesOf, List.map_append, appendedBy_append, appendedBy_act (hquiet turn List.mem_cons_self),
      ih fun t ht => hquiet t (List.mem_cons_of_mem turn ht), ← List.map_append]
    rfl

theorem movesOf_served {turns : List (Turn × Replies)} (hserved : ∀ turn ∈ turns, turn.2.Served)
    {move : Act × Replies} (hmove : move ∈ movesOf format w turns) : move.2.Served := by
  induction turns generalizing w with
  | nil => cases hmove
  | cons turn turns ih =>
    rcases List.mem_append.mp hmove with h | h
    · obtain ⟨act, -, rfl⟩ := Option.map_eq_some_iff.mp (Option.mem_toList.mp h)
      exact hserved turn List.mem_cons_self
    · exact ih (fun t ht => hserved t (List.mem_cons_of_mem turn ht)) h

/-! ## The level -/

theorem le_constructor_of_taken {level least : LogLevel} {m : LogMacro}
    (hwarn : least.value ≤ LogLevel.warn.value) (hlevel : least.value ≤ level.value)
    (h : m.taken level = true) : least.value ≤ m.constructor.logLevel.value := by
  have hgate : ∀ gate ∈ m.gate, level.value ≤ gate.value := by
    intro gate hgate
    rw [LogMacro.taken, Option.mem_def.mp hgate] at h
    exact of_decide_eq_true h
  cases m with
  | debug func => exact Nat.le_trans hlevel (hgate _ rfl)
  | info => exact Nat.le_trans hlevel (hgate _ rfl)
  | warn => exact hwarn
  | error => exact Nat.le_trans hwarn (by decide)
  | fatal => exact Nat.le_trans hwarn (by decide)
  | sysError errno errnoText =>
    exact Nat.le_trans hwarn (show LogLevel.warn.value ≤ LogLevel.fatal.value by decide)
  | sysFatal errno errnoText =>
    exact Nat.le_trans hwarn (show LogLevel.warn.value ≤ LogLevel.error.value by decide)

/-- No statement under way is below `least`, nor will the level let one through. -/
structure Writers.AtLeast (least : LogLevel) (w : Writers) : Prop where
  level : least.value ≤ w.level.value
  entered : ∀ begun ∈ w.entered, least.value ≤ begun.2.constructor.logLevel.value

/-- The level is not set below `least`. -/
def Turn.Keeps (least : LogLevel) : Turn → Prop
  | .setLogLevel level => least.value ≤ level.value
  | _ => True

namespace Writers

variable {least : LogLevel} {t : Turn}

theorem AtLeast.turn (hwarn : least.value ≤ LogLevel.warn.value) (h : w.AtLeast least)
    (hkeeps : t.Keeps least) : (w.turn t).AtLeast least := by
  cases t with
  | setLogLevel level => exact ⟨hkeeps, h.entered⟩
  | enter thread use =>
    rw [Writers.turn]
    split
    · rename_i htaken
      refine ⟨h.level, fun begun hbegun => ?_⟩
      rcases List.mem_cons.mp hbegun with rfl | hbegun
      · exact le_constructor_of_taken hwarn h.level htaken
      · exact h.entered begun hbegun
    · exact h
  | leave thread =>
    exact ⟨h.level, fun begun hbegun => h.entered begun (List.mem_of_mem_eraseP hbegun)⟩
  | other act => exact h

theorem AtLeast.left (h : w.AtLeast least) (hleft : st ∈ w.left t) :
    least.value ≤ st.constructor.logLevel.value := by
  cases t with
  | leave thread =>
    obtain ⟨begun, hbegun, rfl⟩ := Option.map_eq_some_iff.mp (Option.mem_def.mp hleft)
    exact h.entered begun (List.mem_of_find?_eq_some hbegun)
  | setLogLevel level => cases hleft
  | enter thread use => cases hleft
  | other act => cases hleft

end Writers

/-- Statements below the levels that were ever set say nothing. -/
theorem le_of_mem_saidBy {least : LogLevel} {turns : List Turn}
    (hwarn : least.value ≤ LogLevel.warn.value) (hw : w.AtLeast least)
    (hkeeps : ∀ turn ∈ turns, turn.Keeps least) (hst : st ∈ saidBy w turns) :
    least.value ≤ st.constructor.logLevel.value := by
  induction turns generalizing w with
  | nil => cases hst
  | cons turn turns ih =>
    rcases List.mem_append.mp hst with h | h
    · exact hw.left (Option.mem_toList.mp h)
    · exact ih (hw.turn hwarn (hkeeps turn List.mem_cons_self))
        (fun t ht => hkeeps t (List.mem_cons_of_mem turn ht)) h

/-! ## Lines -/

/-- The lines of a file; what follows the last newline is none. -/
def linesOf (file : List Byte) : List (List Byte) := (file.splitOn (byteOf '\n')).dropLast

theorem linesOf_cons {line : List Byte} (hline : byteOf '\n' ∉ line) (file : List Byte) :
    linesOf (line ++ [byteOf '\n'] ++ file) = line :: linesOf file := by
  rw [linesOf, List.append_assoc, List.singleton_append,
    List.splitOn_append_cons_self_of_not_mem hline,
    List.dropLast_cons_of_ne_nil (List.splitOn_ne_nil _ _), linesOf]

theorem linesOf_lines {lines : List (List Byte)} (hlines : ∀ line ∈ lines, byteOf '\n' ∉ line) :
    linesOf (lines.map (· ++ [byteOf '\n'])).flatten = lines := by
  induction lines with
  | nil => rfl
  | cons line lines ih =>
    rw [List.map_cons, List.flatten_cons, linesOf_cons (hlines line List.mem_cons_self),
      ih fun l hl => hlines l (List.mem_cons_of_mem line hl)]

/-- The records of a file, if each of its lines is one. -/
def readLog (file : List Byte) : Option (List RecordFields) := (linesOf file).mapM readRecord

namespace Statement

/-- The record is a line. -/
structure OneLine (format : Float → List Byte) (st : Statement) : Prop extends st.Readable where
  goesOn : st.constructor.logLevel.aborts = false
  newline : (accepted format st.allActs).flatten.length + 1 < kSmallBuffer
  oneLine : byteOf '\n' ∉ (accepted format st.allActs).flatten

/-- What the user of the stream wrote. -/
def userText (format : Float → List Byte) (st : Statement) : List Byte :=
  (accepted format st.allActs).flatten.drop (st.head format).length

/-- What the record says. -/
def said (format : Float → List Byte) (st : Statement) : RecordFields :=
  st.fields (st.userText format)

theorem message_eq (hformat : ∀ x, (format x).length < kMaxNumericSize) (st : Statement) :
    st.message format = terminated (accepted format st.allActs).flatten := by
  rw [message, output_eq hformat]
  rfl

theorem OneLine.message_eq (hformat : ∀ x, (format x).length < kMaxNumericSize)
    (h : st.OneLine format) :
    st.message format = (accepted format st.allActs).flatten ++ [byteOf '\n'] := by
  rw [Statement.message_eq hformat, terminated, if_pos h.newline]

theorem OneLine.short (hformat : ∀ x, (format x).length < kMaxNumericSize) (h : st.OneLine format) :
    (st.message format).length < kLargeBuffer := by
  have hnewline := h.newline
  rw [h.message_eq hformat, List.length_append, List.length_singleton]
  exact Nat.lt_trans hnewline (by decide)

theorem OneLine.read (h : st.OneLine format) :
    readRecord (accepted format st.allActs).flatten = some (st.said format) := by
  obtain ⟨text, htext⟩ : ∃ text, (accepted format st.allActs).flatten = st.head format ++ text :=
    accepted_eq h.toReadable
  rw [said, userText, htext, List.drop_left]
  exact readRecord_head h.toReadable text

end Statement

theorem mapM_readRecord {sts : List Statement} (hlines : ∀ st ∈ sts, st.OneLine format) :
    (sts.map fun st => (accepted format st.allActs).flatten).mapM readRecord =
      some (sts.map (Statement.said format)) := by
  induction sts with
  | nil => rfl
  | cons st sts ih =>
    rw [List.map_cons, List.mapM_cons, (hlines st List.mem_cons_self).read,
      ih fun t ht => hlines t (List.mem_cons_of_mem st ht)]
    rfl

/-- A file of records is read line by line. -/
theorem readLog_messages (hformat : ∀ x, (format x).length < kMaxNumericSize)
    {sts : List Statement} (hlines : ∀ st ∈ sts, st.OneLine format) :
    readLog (sts.map (Statement.message format)).flatten = some (sts.map (Statement.said format)) := by
  have hmessages : sts.map (Statement.message format) =
      (sts.map fun st => (accepted format st.allActs).flatten).map (· ++ [byteOf '\n']) := by
    rw [List.map_map]
    exact List.map_congr_left fun st hst => (hlines st hst).message_eq hformat
  have hone : ∀ line ∈ sts.map fun st => (accepted format st.allActs).flatten, byteOf '\n' ∉ line := by
    intro line hline
    obtain ⟨st, hst, rfl⟩ := List.mem_map.mp hline
    exact (hlines st hst).oneLine
  rw [readLog, hmessages, linesOf_lines hone]
  exact mapM_readRecord hlines

/-! ## The files -/

/-- The files, read as records. -/
structure ReadsBack (B : Build) (format : Float → List Byte) (acts : List Act)
    (said : List Statement) (s : Session kLargeBuffer) (l : LogFile)
    (read : List (List RecordFields)) : Prop where
  files : l.files.map (fun f => readLog f.accepted) = read.map some
  /-- Each record once, in the order of the destructors, and none left out before the last. -/
  inOrder : read.flatten <+: said.map (Statement.said format)
  /-- `Stop` has returned, and the backend was about to take the buffers when it was to see
  `running_` cleared: what was said before the call of `Stop` is there. -/
  stopped : (asyncRuns kLargeBuffer B).Along StopDrains (Session.init kLargeBuffer) acts →
    s.owner = .stopped → (said.map (Statement.said format)).take s.required <+: read.flatten

variable {B : Build} {H : Host} {acts : List Act} {s : Session kLargeBuffer} {l : LogFile}

/-- Files that are made of messages are made of records, if the messages are. -/
theorem ReachesFiles.readsBack (hformat : ∀ x, (format x).length < kMaxNumericSize)
    {said : List Statement} (hlines : ∀ st ∈ said, st.OneLine format)
    (hsaid : appendedBy acts = said.map (Statement.message format)) (huncut : Uncut s)
    {files : List (List Entry)} (h : ReachesFiles B H acts s l files) :
    ∃ read, ReadsBack B format acts said s l read := by
  obtain ⟨hmessages, hfirst⟩ := h.uncut huncut
  rw [hsaid] at hfirst
  obtain ⟨sts, hsts, hsame⟩ := List.prefix_map_iff.mp hfirst
  rw [hsame, List.map_map] at hmessages
  obtain ⟨groups, rfl, rfl⟩ := exists_flatten_map hmessages
  have hgroup : ∀ group ∈ groups, ∀ st ∈ group, st.OneLine format := fun group hmem st hst =>
    hlines st (hsts.subset (List.mem_flatten.mpr ⟨group, hmem, hst⟩))
  refine ⟨groups.map (List.map (Statement.said format)), ?_, ?_, ?_⟩
  · have hcontents := h.contents
    rw [List.map_map] at hcontents
    calc l.files.map (fun f => readLog f.accepted)
        = (l.files.map (·.accepted)).map readLog := by rw [List.map_map]; rfl
      _ = (groups.map fun group => (group.map (Statement.message format)).flatten).map readLog := by
        rw [hcontents]
        refine congrArg (List.map readLog) (List.map_congr_left fun group _ => ?_)
        rw [Function.comp_apply, ← List.map_map, flatMap_text_messages]
      _ = (groups.map (List.map (Statement.said format))).map some := by
        rw [List.map_map, List.map_map]
        exact List.map_congr_left fun group hmem => readLog_messages hformat (hgroup group hmem)
  · rw [← List.map_flatten]
    exact hsts.map _
  · intro hdrains hstopped
    have hthere := h.stopped huncut hdrains hstopped
    rw [hsaid, hsame, ← List.map_take] at hthere
    rw [← List.map_flatten, ← List.map_take]
    refine (List.prefix_of_prefix_length_le (List.take_prefix _ _) hsts ?_).map _
    have hlength := hthere.length_le
    rwa [List.length_map, List.length_map] at hlength

/-- **From the log statements to the files and back.**  Whatever the interleaving of the threads that
log, of those that set the level, of the backend and of the owner: if the records are lines that can
be told apart, and the system serves the backend's calls, the backend is never held up by its
`LogFile`; unless a batch was cut, the files say, line by line, what the first of the ended statements
said, in the order in which they ended, and all of it that was said before `Stop` was called if `Stop`
drains; and no record is below every level that was set, if that is at most `WARN`. -/
theorem logs_read_back (B : Build) (H : Host) (baseName : String) (rollSize : Int)
    (hname : B.asserts = true → '/' ∉ baseName.toList) (format : Float → List Byte)
    (hformat : ∀ x, (format x).length < kMaxNumericSize) (level : LogLevel)
    (turns : List (Turn × Replies)) (hquiet : ∀ turn ∈ turns, turn.1.Quiet)
    (hserved : ∀ turn ∈ turns, turn.2.Served)
    (hlines : ∀ st ∈ saidBy (.start level) (turns.map Prod.fst), st.OneLine format)
    {s : Session kLargeBuffer}
    (hrun : (asyncRuns kLargeBuffer B).exec (Session.init kLargeBuffer)
      ((movesOf format (.start level) turns).map Prod.fst) = some s) :
    ∃ p, (pipelineRuns kLargeBuffer B H baseName rollSize).exec (Pipeline.start kLargeBuffer)
        (movesOf format (.start level) turns) = some p ∧ p.session = s ∧
      (p.output = none → s.log.place = .unstarted ∨ s.log.place = .entry) ∧
      ∀ l, p.output = some l → Uncut s → ∃ read,
        ReadsBack B format ((movesOf format (.start level) turns).map Prod.fst)
          (saidBy (.start level) (turns.map Prod.fst)) s l read ∧
        ∀ least : LogLevel, least.value ≤ LogLevel.warn.value → least.value ≤ level.value →
          (∀ turn ∈ turns, turn.1.Keeps least) →
          ∀ record ∈ read.flatten, least.value ≤ record.level.value := by
  have hsane : SaneSession (Pipeline.start kLargeBuffer).session := saneSession_init
  have hstart : Joined H (Pipeline.start kLargeBuffer) := joined_start
  have hmoves : ∀ move ∈ movesOf format (.start level) turns, move.2.Served :=
    fun move hmove => movesOf_served hserved hmove
  have hsaid : appendedBy ((movesOf format (.start level) turns).map Prod.fst) =
      (saidBy (.start level) (turns.map Prod.fst)).map (Statement.message format) :=
    appendedBy_movesOf hquiet
  obtain ⟨p, hexec, rfl, hjoined⟩ := joined_run rollSize hname hmoves hsane hstart hrun
  refine ⟨p, hexec, rfl, hjoined.place_of_none, fun l hl huncut => ?_⟩
  have hshort : ∀ act ∈ (movesOf format (.start level) turns).map Prod.fst,
      Short kLargeBuffer act := by
    intro act hact
    cases act with
    | append data =>
      have hdata : data ∈ appendedBy ((movesOf format (.start level) turns).map Prod.fst) :=
        List.mem_filterMap.mpr ⟨_, hact, rfl⟩
      rw [hsaid] at hdata
      obtain ⟨st, hst, rfl⟩ := List.mem_map.mp hdata
      exact (hlines st hst).short hformat
    | _ => trivial
  obtain ⟨files, hfiles⟩ := (hjoined.delivered hl).reaches hshort hrun
  obtain ⟨read, hread⟩ := hfiles.readsBack hformat hlines hsaid huncut
  refine ⟨read, hread, fun least hwarn hleast hkeeps record hrecord => ?_⟩
  obtain ⟨st, hst, rfl⟩ := List.mem_map.mp (hread.inOrder.subset hrecord)
  refine le_of_mem_saidBy hwarn ⟨hleast, fun begun h => ?_⟩ ?_ hst
  · cases h
  · intro turn hturn
    obtain ⟨pair, hpair, rfl⟩ := List.mem_map.mp hturn
    exact hkeeps pair hpair

theorem infoStatement_oneLine (message : List Byte) (hlength : message.length < 3942)
    (hline : byteOf '\n' ∉ message) : (infoStatement message).OneLine alwaysHalf where
  toReadable := infoStatement_readable message
  goesOn := rfl
  newline := by
    rw [accepted_infoStatement message (by omega), List.length_append, length_infoHeader]
    have hsize : kSmallBuffer = 4000 := rfl
    omega
  oneLine := by
    rw [accepted_infoStatement message (by omega)]
    intro h
    rcases List.mem_append.mp h with h | h
    · exact absurd h (by decide)
    · exact hline h

/-- The use of `LOG_INFO` whose statement is `infoStatement`. -/
def infoUse (message : List Byte) : LogUse where
  via := .info
  ctx := infoContext
  file := bytesOf "src/a.cc"
  line := 7
  acts := [.insert (.string message)]

/-- A statement inside another; before the outer one ends the level is set to `WARN`. -/
def nestedTurns : List (Turn × Replies) :=
  [.other .startStore, .other .startSpawn, .enter 1 (infoUse (bytesOf "outer")),
    .enter 1 (infoUse (bytesOf "inner")), .leave 1, .other .backend, .other .startReturn,
    .setLogLevel .warn, .enter 2 (infoUse (bytesOf "silent")), .leave 2, .other .backend,
    .other .backend, .leave 1, .other .stopCall, .other .stopStore, .other .backend,
    .other .backend, .other .backend, .other .backend, .other .backend, .other .stopJoin].map
      fun turn => (turn, ⟨oneByOne, ⟨0⟩⟩)

theorem logs_read_back_nested :
    ∃ s p l read, (asyncRuns kLargeBuffer .debug).exec (Session.init kLargeBuffer)
        ((movesOf alwaysHalf (.start .info) nestedTurns).map Prod.fst) = some s ∧
      s.owner = .stopped ∧
      (pipelineRuns kLargeBuffer .debug someHost "log" 1).exec (Pipeline.start kLargeBuffer)
        (movesOf alwaysHalf (.start .info) nestedTurns) = some p ∧ p.output = some l ∧
      ReadsBack .debug alwaysHalf ((movesOf alwaysHalf (.start .info) nestedTurns).map Prod.fst)
        [infoStatement (bytesOf "inner"), infoStatement (bytesOf "outer")] s l read := by
  have hinner := infoStatement_oneLine (bytesOf "inner") (by decide) (by decide)
  have houter := infoStatement_oneLine (bytesOf "outer") (by decide) (by decide)
  have hacts : (movesOf alwaysHalf (.start .info) nestedTurns).map Prod.fst =
      [.startStore, .startSpawn, .append (infoHeader ++ bytesOf "inner" ++ [byteOf '\n']), .backend,
        .startReturn, .backend, .backend,
        .append (infoHeader ++ bytesOf "outer" ++ [byteOf '\n']), .stopCall, .stopStore, .backend,
        .backend, .backend, .backend, .backend, .stopJoin] := by
    rw [← accepted_infoStatement _ (by decide), ← accepted_infoStatement _ (by decide),
      ← hinner.message_eq alwaysHalf_short, ← houter.message_eq alwaysHalf_short]
    rfl
  have hsome : ((asyncRuns kLargeBuffer .debug).exec (Session.init kLargeBuffer)
      ((movesOf alwaysHalf (.start .info) nestedTurns).map Prod.fst)).map
        (fun s => (s.owner, s.log.place, s.batches.all fun batch => batch.length ≤ maxBatch)) =
          some (.stopped, .exited, true) := by
    rw [hacts]
    decide +kernel
  obtain ⟨s, hrun, hend⟩ := Option.map_eq_some_iff.mp hsome
  obtain ⟨howner, hend⟩ := Prod.mk.inj hend
  obtain ⟨hplace, hbatches⟩ := Prod.mk.inj hend
  have huncut : Uncut s :=
    fun batch hbatch => of_decide_eq_true (List.all_eq_true.mp hbatches batch hbatch)
  have hlate : 0 < oneByOne.rollNow.timeSinceEpochSeconds := by decide +kernel
  have hserved : ∀ turn ∈ nestedTurns, turn.2.Served := by
    intro turn hturn
    obtain ⟨t, -, rfl⟩ := List.mem_map.mp hturn
    exact ⟨⟨rfl, fun _ _ _ => Nat.one_pos⟩, hlate⟩
  have hlines : ∀ st ∈ saidBy (.start .info) (nestedTurns.map Prod.fst), st.OneLine alwaysHalf :=
    List.forall_mem_cons.mpr ⟨hinner, List.forall_mem_singleton.mpr houter⟩
  obtain ⟨p, hexec, -, hjoined, hread⟩ := logs_read_back .debug someHost "log" 1 (by decide)
    alwaysHalf alwaysHalf_short .info nestedTurns (by decide) hserved hlines hrun
  cases houtput : p.output with
  | none =>
    rcases hjoined houtput with h | h
    · rw [hplace] at h
      cases h
    · rw [hplace] at h
      cases h
  | some l =>
    obtain ⟨read, h, -⟩ := hread l houtput huncut
    exact ⟨s, p, l, read, hrun, howner, hexec, houtput, h⟩

end TurboNet.Logger
