/-
# TurboNet.Logger.RecordText — reading a log record back.

The header of a record is a format of `TurboNet.Lib.Fields`: the time of day, the microseconds, the
thread, the level, the file and the line stand between literals, and the rest is what the user of the
stream wrote.  `readRecord` takes them out again.  It needs the thread id to have no blank and the file
name to have no colon in it, the header to fit the stream, and the user not to reset the buffer.
-/
import TurboNet.Lib.Fields
import TurboNet.Base.Timestamp
import TurboNet.Logger.LogNumerals
import TurboNet.Logger.Record

namespace TurboNet.Logger

open TurboNet.Lib
open LogStream

/-! ## The format -/

/-- The header as `Logger::Impl::Impl` and `FormatTime` write it. -/
def headerFormat : List (FormatField Byte) :=
  [.fixed 19, .literal (bytesOf "."), .fixed 6, .literal (bytesOf " - thread:"), .upTo (byteOf ' '),
    .literal (bytesOf " - "), .fixed 6, .upTo (byteOf ':'), .literal (bytesOf ":"),
    .upTo (byteOf ':'), .literal (bytesOf ": ")]

/-- What a record says. -/
structure RecordFields where
  time : List Byte
  microseconds : Nat
  tid : List Byte
  level : LogLevel
  file : List Byte
  line : Int
  text : List Byte
  deriving DecidableEq, Repr

/-- The level of this name. -/
def readLevel (name : List Byte) : Option LogLevel :=
  [LogLevel.debug, .info, .warn, .error, .fatal].find? fun level => bytesOf level.name = name

def readRecord (record : List Byte) : Option RecordFields :=
  match scan headerFormat record with
  | some ([time, microseconds, tid, level, file, line], text) => do
    let microseconds ← readNumeral 10 microseconds
    let level ← readLevel level
    let line ← readInteger line
    pure ⟨time, microseconds, tid, level, file, line, text⟩
  | _ => none

/-! ## The header of a statement -/

namespace Statement

/-- The name behind the last slash. -/
def baseName (st : Statement) : List Byte := (SourceFile.construct st.file).data

/-- `microseconds % kMicroSecondsPerSecond`. -/
def fraction (st : Statement) : Int := st.ctx.microseconds.tmod (1000 * 1000)

/-- The insertions of `Impl::Impl` that every constructor begins with. -/
def headInsertions (st : Statement) : List Insertion :=
  implInsertions st.ctx st.constructor.logLevel 0 [] st.file st.line

/-- Those before the line number. -/
def placeInsertions (st : Statement) : List Insertion :=
  formatTime st.ctx ++
    [.append (bytesOf " - thread:"), .append st.ctx.tidString, .append (bytesOf " - "),
      .append (bytesOf st.constructor.logLevel.name), (SourceFile.construct st.file).insertion,
      .char (byteOf ':')]

/-- What they write. -/
def head (format : Float → List Byte) (st : Statement) : List Byte :=
  (st.headInsertions.map (Insertion.text format)).flatten

/-- What the record says if the user wrote `text`. -/
def fields (st : Statement) (text : List Byte) : RecordFields where
  time := st.ctx.timeStr
  microseconds := st.fraction.toNat
  tid := st.ctx.tidString
  level := st.constructor.logLevel
  file := st.baseName
  line := st.line.toInt
  text := text

/-- The text, with a newline if two chars are free behind it. -/
def ended (format : Float → List Byte) (st : Statement) (text : List Byte) : List Byte :=
  if (st.head format ++ text).length + 1 < kSmallBuffer then text ++ [byteOf '\n'] else text

/-- The parts of the header can be told apart, and fit the stream, which stays as it is.  The fixed
parts before the line number have 46 chars, and the line number needs the room for a number
(`head_taken_iff`). -/
structure Readable (st : Statement) : Prop where
  time : st.ctx.timeStr.length = 19
  clock : 0 ≤ st.ctx.microseconds
  tid : byteOf ' ' ∉ st.ctx.tidString
  file : byteOf ':' ∉ st.baseName
  room : st.ctx.tidString.length + st.baseName.length + 46 + kMaxNumericSize ≤ kSmallBuffer
  kept : LogStream.Act.resetBuffer ∉ st.acts

end Statement

variable {format : Float → List Byte} {st : Statement}

/-- A name that fits is one of which an `int` can tell the length. -/
theorem Statement.Readable.short (h : st.Readable) : st.baseName.length < 2 ^ 31 := by
  have hroom := h.room
  have hbuffer : kSmallBuffer = 4000 := rfl
  omega

/-- The errno part comes last. -/
theorem implInsertions_eq (ctx : Context) (logLevel : LogLevel) (errnoInfo : Int32)
    (errnoText file : List Byte) (line : Int32) :
    ∃ extra, implInsertions ctx logLevel errnoInfo errnoText file line =
      implInsertions ctx logLevel 0 [] file line ++ extra := by
  refine ⟨if errnoInfo ≠ 0 then [.charPtr (some errnoText), .append (bytesOf " (errno="),
    .int errnoInfo, .append (bytesOf ") ")] else [], ?_⟩
  unfold implInsertions
  rw [if_neg (c := (0 : Int32) ≠ 0) (fun h => h rfl), List.append_nil]

/-- Every constructor begins with the same insertions. -/
theorem exists_extra (st : Statement) :
    ∃ extra, st.constructor.header st.ctx st.file st.line = st.headInsertions ++ extra := by
  unfold Statement.headInsertions
  cases st.constructor with
  | plain => exact ⟨[], (List.append_nil _).symm⟩
  | func name => exact ⟨_, rfl⟩
  | level logLevel => exact ⟨[], (List.append_nil _).symm⟩
  | isAbort flag errno errnoText => exact implInsertions_eq _ _ errno errnoText _ _

/-- The texts of insertions that fit are all accepted. -/
theorem foldl_record_inserts (vs : List Insertion) (texts : List (List Byte))
    (hroom : texts.flatten.length + (vs.map (Insertion.text format)).flatten.length +
      kMaxNumericSize ≤ kSmallBuffer) :
    (vs.map LogStream.Act.insert).foldl (LogStream.record format) texts =
      texts ++ vs.map (Insertion.text format) := by
  induction vs generalizing texts with
  | nil => exact (List.append_nil texts).symm
  | cons v vs ih =>
    rw [List.map_cons, List.flatten_cons, List.length_append] at hroom
    have haccepted : v.Accepted format (kSmallBuffer - texts.flatten.length) := by
      have hpos : 0 < kMaxNumericSize := by decide
      unfold Insertion.Accepted
      split
      · omega
      · omega
    rw [List.map_cons, List.foldl_cons, LogStream.record, if_pos haccepted, ih]
    · rw [List.append_assoc, List.singleton_append, List.map_cons]
    · rw [List.flatten_append, List.flatten_singleton, List.length_append]
      omega

/-- Insertions add no more than their texts. -/
theorem length_foldl_record_le (format : Float → List Byte) (vs : List Insertion)
    (texts : List (List Byte)) :
    ((vs.map LogStream.Act.insert).foldl (LogStream.record format) texts).flatten.length ≤
      texts.flatten.length + (vs.map (Insertion.text format)).flatten.length := by
  induction vs generalizing texts with
  | nil => exact Nat.le_add_right _ _
  | cons v vs ih =>
    have hfirst : (LogStream.record format texts (.insert v)).flatten.length ≤
        texts.flatten.length + (v.text format).length := by
      rw [LogStream.record]
      split
      · rw [List.flatten_append, List.flatten_singleton, List.length_append]
      · exact Nat.le_add_right _ _
    have hrest := ih (LogStream.record format texts (.insert v))
    rw [List.map_cons, List.foldl_cons, List.map_cons, List.flatten_cons, List.length_append]
    omega

/-- Without a reset, what was accepted stays. -/
theorem foldl_record_keeps (acts : List LogStream.Act) (texts : List (List Byte))
    (hkept : LogStream.Act.resetBuffer ∉ acts) :
    ∃ more, acts.foldl (LogStream.record format) texts = texts ++ more := by
  induction acts generalizing texts with
  | nil => exact ⟨[], (List.append_nil texts).symm⟩
  | cons a acts ih =>
    obtain ⟨hfirst, hrest⟩ := not_or.mp fun h => hkept (List.mem_cons.mpr h)
    obtain ⟨more, hmore⟩ := ih (LogStream.record format texts a) hrest
    rw [List.foldl_cons, hmore]
    cases a with
    | resetBuffer => exact absurd rfl hfirst
    | insert v =>
      rw [LogStream.record]
      split
      · exact ⟨[v.text format] ++ more, by rw [List.append_assoc]⟩
      · exact ⟨more, rfl⟩

/-! ## The parts of the header -/

/-- `"%06lld"` of the microseconds of a second. -/
theorem bytesOf_printSix {v : Int} (hnonneg : 0 ≤ v) :
    bytesOf (printSix v) = List.replicate (6 - (Nat.toDigits 10 v.natAbs).length) (byteOf '0') ++
      (Nat.toDigits 10 v.natAbs).map byteOf := by
  unfold bytesOf printSix
  have hdigits : (toString v.natAbs).toList = Nat.toDigits 10 v.natAbs := Nat.toList_repr
  have hlength : (toString v.natAbs).length = (Nat.toDigits 10 v.natAbs).length := by
    rw [← String.length_toList, hdigits]
  simp only [if_neg (Int.not_lt.mpr hnonneg), String.toList_append, hdigits, hlength, List.map_append,
    Base.toList_pushn, List.map_replicate]
  rfl

theorem readNumeral_printSix {v : Int} (hnonneg : 0 ≤ v) (hsmall : v < 1000 * 1000) :
    (bytesOf (printSix v)).length = 6 ∧ readNumeral 10 (bytesOf (printSix v)) = some v.toNat := by
  have hwidth : (Nat.toDigits 10 v.natAbs).length ≤ 6 :=
    (Nat.length_toDigits_le_iff (by decide) (by decide)).mpr (by omega)
  have hlength : (bytesOf (printSix v)).length = 6 := by
    rw [bytesOf_printSix hnonneg, List.length_append, List.length_replicate, List.length_map]
    omega
  refine ⟨hlength, ?_⟩
  have hsome : bytesOf (printSix v) ≠ [] := List.ne_nil_of_length_pos (by omega)
  have hpadded : ∀ k ds, readDigits (fun c => (digitValue c).filter (· < 10)) 10
      (List.replicate k (byteOf '0') ++ ds) =
        readDigits (fun c => (digitValue c).filter (· < 10)) 10 ds :=
    readDigits_padded (by decide) 10
  rw [readNumeral, if_neg hsome, bytesOf_printSix hnonneg, hpadded,
    readDigits_toDigits (by decide) fun d hd => digitValue_decimal hd]
  congr 1
  omega

theorem length_name (level : LogLevel) : (bytesOf level.name).length = 6 := by
  cases level <;> decide

theorem readLevel_name (level : LogLevel) : readLevel (bytesOf level.name) = some level := by
  cases level <;> decide

/-- A line number has no colon in it. -/
theorem colon_not_mem_intText (v : Int) : byteOf ':' ∉ intText v := by
  rw [intText_eq]
  intro h
  rcases List.mem_append.mp h with h | h
  · unfold sign at h
    split at h
    · exact absurd (List.mem_singleton.mp h) (by decide)
    · cases h
  · exact absurd ((canonicalDigits_decimal v.natAbs).symbols _ h) (by decide)

namespace Statement

theorem fraction_range (h : 0 ≤ st.ctx.microseconds) : 0 ≤ st.fraction ∧ st.fraction < 1000 * 1000 :=
  ⟨Int.tmod_nonneg _ h, Int.tmod_lt_of_pos _ (by decide)⟩

/-- A name of which an `int` can tell the length is inserted whole. -/
theorem text_sourceFile (h : st.baseName.length < 2 ^ 31) :
    (SourceFile.construct st.file).insertion.text format = st.baseName := by
  have hsize : (SourceFile.construct st.file).size = swrap 32 st.baseName.length := by
    simp only [SourceFile.construct, Statement.baseName]
  have hcast : RawBuffer.castSize (SourceFile.construct st.file).size = st.baseName.length := by
    rw [hsize, swrap_of_range (w := 31) (by omega) (by omega), RawBuffer.castSize]
    omega
  rw [SourceFile.insertion, hcast]
  exact List.take_length

/-- The header, part by part. -/
theorem head_eq (hclock : 0 ≤ st.ctx.microseconds) (hsize : st.baseName.length < 2 ^ 31) :
    st.head format =
    st.ctx.timeStr ++ (bytesOf "." ++ (bytesOf (printSix st.fraction) ++ (bytesOf " - thread:" ++
      (st.ctx.tidString ++ (bytesOf " - " ++ (bytesOf st.constructor.logLevel.name ++
        (st.baseName ++ (bytesOf ":" ++ (intText st.line.toInt ++ bytesOf ": "))))))))) := by
  have hrange := fraction_range hclock
  have hpoint : (bytesOf ("." ++ printSix st.fraction)).take 7 =
      bytesOf "." ++ bytesOf (printSix st.fraction) := by
    have hlength := (readNumeral_printSix hrange.1 hrange.2).1
    have happend : bytesOf ("." ++ printSix st.fraction) =
        bytesOf "." ++ bytesOf (printSix st.fraction) := by
      rw [bytesOf, String.toList_append, List.map_append]
      rfl
    rw [happend]
    refine List.take_of_length_le ?_
    rw [List.length_append, hlength]
    decide
  have hsource : (SourceFile.construct st.file).insertion.text format = st.baseName :=
    text_sourceFile hsize
  unfold head headInsertions implInsertions formatTime
  rw [if_neg (c := (0 : Int32) ≠ 0) (fun h => h rfl)]
  simp only [List.append_nil, List.map_append, List.map_cons, List.map_nil, List.flatten_append,
    List.flatten_cons, List.flatten_nil, hsource]
  simp only [Insertion.text]
  rw [show st.ctx.microseconds.tmod (1000 * 1000) = st.fraction from rfl, hpoint]
  simp only [List.append_assoc]
  rfl

theorem headInsertions_eq (st : Statement) :
    st.headInsertions = st.placeInsertions ++ [.int st.line, .append (bytesOf ": ")] := by
  unfold headInsertions implInsertions placeInsertions
  rw [if_neg (c := (0 : Int32) ≠ 0) (fun h => h rfl), List.append_nil, List.append_assoc]
  rfl

theorem head_place (format : Float → List Byte) (st : Statement) : st.head format =
    (st.placeInsertions.map (Insertion.text format)).flatten ++
      (intText st.line.toInt ++ bytesOf ": ") := by
  rw [head, headInsertions_eq, List.map_append, List.flatten_append]
  simp only [List.map_cons, List.map_nil, List.flatten_cons, List.flatten_nil, List.append_nil,
    Insertion.text]

/-- The fixed parts of the header before the line number have 46 chars. -/
theorem length_place (format : Float → List Byte) (htime : st.ctx.timeStr.length = 19)
    (hclock : 0 ≤ st.ctx.microseconds) (hsize : st.baseName.length < 2 ^ 31) :
    (st.placeInsertions.map (Insertion.text format)).flatten.length =
      st.ctx.tidString.length + st.baseName.length + 46 := by
  have hrange := fraction_range hclock
  have hsix := (readNumeral_printSix hrange.1 hrange.2).1
  have hliterals : (bytesOf ".").length = 1 ∧ (bytesOf " - thread:").length = 10 ∧
      (bytesOf " - ").length = 3 ∧ (bytesOf ":").length = 1 ∧ (bytesOf ": ").length = 2 := by decide
  have hboth := congrArg List.length
    ((head_place format st).symm.trans (head_eq hclock hsize))
  simp only [List.length_append, htime, hsix, length_name] at hboth
  omega

theorem length_line (st : Statement) :
    0 < (intText st.line.toInt).length ∧ (intText st.line.toInt).length ≤ 21 := by
  constructor
  · refine List.length_pos_of_ne_nil fun hnil => ?_
    have hread := readInteger_intText st.line.toInt
    rw [hnil] at hread
    cases hread
  · refine length_intText ⟨?_, ?_⟩
    · have := st.line.le_toInt
      omega
    · have := st.line.toInt_lt
      omega

/-- The stream takes a header that fits. -/
theorem accepted_head (htime : st.ctx.timeStr.length = 19) (hclock : 0 ≤ st.ctx.microseconds)
    (hsize : st.baseName.length < 2 ^ 31)
    (hroom : st.ctx.tidString.length + st.baseName.length + 46 + kMaxNumericSize ≤ kSmallBuffer) :
    (st.headInsertions.map LogStream.Act.insert).foldl (LogStream.record format) [] =
      st.headInsertions.map (Insertion.text format) := by
  have hplace := length_place format htime hclock hsize
  have hline := length_line st
  have hnumeric : kMaxNumericSize = 48 := rfl
  have hparts : (st.placeInsertions.map LogStream.Act.insert).foldl (LogStream.record format) [] =
      [] ++ st.placeInsertions.map (Insertion.text format) := by
    apply foldl_record_inserts
    rw [hplace, List.flatten_nil, List.length_nil]
    omega
  have hnumber : (Insertion.int st.line).Accepted format
      (kSmallBuffer - (st.placeInsertions.map (Insertion.text format)).flatten.length) := by
    rw [hplace]
    show kMaxNumericSize ≤ _
    omega
  have hcolon : (Insertion.append (bytesOf ": ")).Accepted format (kSmallBuffer -
      (st.placeInsertions.map (Insertion.text format) ++
        [(Insertion.int st.line).text format]).flatten.length) := by
    have htwo : ((Insertion.append (bytesOf ": ")).text format).length = 2 := by
      show (bytesOf ": ").length = 2
      decide
    rw [Insertion.Accepted, if_neg (by decide), htwo, List.flatten_append, List.length_append, hplace,
      List.flatten_singleton, Insertion.text]
    omega
  rw [headInsertions_eq, List.map_append, List.foldl_append, hparts, List.nil_append]
  simp only [List.map_cons, List.map_nil, List.foldl_cons, List.foldl_nil, LogStream.record]
  rw [if_pos hnumber, if_pos hcolon, List.map_append, List.append_assoc]
  rfl

/-- **When a header fits.**  The stream takes the whole header exactly when the line number finds the
room of a number. -/
theorem head_taken_iff (htime : st.ctx.timeStr.length = 19) (hclock : 0 ≤ st.ctx.microseconds)
    (hsize : st.baseName.length < 2 ^ 31) :
    (accepted format (st.headInsertions.map LogStream.Act.insert)).flatten = st.head format ↔
      st.ctx.tidString.length + st.baseName.length + 46 + kMaxNumericSize ≤ kSmallBuffer := by
  constructor
  · intro hwhole
    have hplace := length_place format htime hclock hsize
    have hline := length_line st
    have hnumeric : kMaxNumericSize = 48 := rfl
    have hlength := congrArg List.length hwhole
    rw [head_place, List.length_append, List.length_append, hplace, accepted, headInsertions_eq,
      List.map_append, List.foldl_append] at hlength
    have hparts := length_foldl_record_le format st.placeInsertions []
    rw [hplace, List.flatten_nil, List.length_nil] at hparts
    generalize (st.placeInsertions.map LogStream.Act.insert).foldl
      (LogStream.record format) [] = texts at hlength hparts
    rw [List.map_cons, List.foldl_cons, LogStream.record] at hlength
    split at hlength
    next hnumber =>
      -- with the number accepted, nothing before it can be missing
      have hnumber : kMaxNumericSize ≤ kSmallBuffer - texts.flatten.length := hnumber
      have hrest := length_foldl_record_le format [.append (bytesOf ": ")]
        (texts ++ [(Insertion.int st.line).text format])
      rw [hlength] at hrest
      simp only [List.flatten_append, List.length_append, List.map_cons, List.map_nil,
        List.flatten_cons, List.flatten_nil, List.length_nil, Insertion.text] at hrest
      omega
    next =>
      have hrest := length_foldl_record_le format [.append (bytesOf ": ")] texts
      rw [hlength] at hrest
      simp only [List.map_cons, List.map_nil, List.flatten_cons, List.flatten_nil,
        List.append_nil, Insertion.text] at hrest
      omega
  · intro hroom
    rw [accepted, accepted_head htime hclock hsize hroom, head]

theorem terminated_head (st : Statement) (text : List Byte) :
    terminated (st.head format ++ text) = st.head format ++ st.ended format text := by
  unfold terminated ended
  split
  · exact List.append_assoc ..
  · rfl

end Statement

/-! ## Reading back -/

/-- The header is the six texts in the format. -/
theorem written_head (h : st.Readable) (tail : List Byte) :
    Written headerFormat
      [st.ctx.timeStr, bytesOf (printSix st.fraction), st.ctx.tidString,
        bytesOf st.constructor.logLevel.name, st.baseName, intText st.line.toInt]
      tail (st.head format ++ tail) := by
  have hrange := Statement.fraction_range h.clock
  have hsix := (readNumeral_printSix hrange.1 hrange.2).1
  have hline : Written [.upTo (byteOf ':'), .literal (bytesOf ": ")] [intText st.line.toInt] tail
      (intText st.line.toInt ++ (bytesOf ": " ++ tail)) :=
    .upTo (colon_not_mem_intText _) rfl (.literal _ (.nil tail))
  have hfile : Written [.upTo (byteOf ':'), .literal (bytesOf ":"), .upTo (byteOf ':'),
      .literal (bytesOf ": ")] [st.baseName, intText st.line.toInt] tail
        (st.baseName ++ (bytesOf ":" ++ (intText st.line.toInt ++ (bytesOf ": " ++ tail)))) :=
    .upTo h.file rfl (.literal _ hline)
  have hlevel := Written.fixed (t := bytesOf st.constructor.logLevel.name) hfile
  rw [length_name] at hlevel
  have htid : Written (.upTo (byteOf ' ') :: _) (st.ctx.tidString :: _) tail _ :=
    .upTo h.tid rfl (.literal (bytesOf " - ") hlevel)
  have hmicroseconds := Written.fixed (t := bytesOf (printSix st.fraction))
    (.literal (bytesOf " - thread:") htid)
  rw [hsix] at hmicroseconds
  have htime := Written.fixed (t := st.ctx.timeStr) (.literal (bytesOf ".") hmicroseconds)
  rw [h.time] at htime
  rw [Statement.head_eq h.clock h.short]
  simpa only [headerFormat, List.append_assoc] using htime

theorem readRecord_head (h : st.Readable) (tail : List Byte) :
    readRecord (st.head format ++ tail) = some (st.fields tail) := by
  have hrange := Statement.fraction_range h.clock
  rw [readRecord, (written_head h tail).scan]
  simp only [(readNumeral_printSix hrange.1 hrange.2).2, readLevel_name, readInteger_intText]
  rfl

/-- The stream takes the header whole, and keeps it. -/
theorem accepted_eq (h : st.Readable) :
    ∃ text, (accepted format st.allActs).flatten = st.head format ++ text := by
  obtain ⟨extra, hheader⟩ := exists_extra st
  have hall : st.allActs = st.headInsertions.map LogStream.Act.insert ++
      (extra.map LogStream.Act.insert ++ st.acts) := by
    rw [Statement.allActs, hheader, List.map_append, List.append_assoc]
  have hkept : LogStream.Act.resetBuffer ∉ extra.map LogStream.Act.insert ++ st.acts := by
    intro hmem
    rcases List.mem_append.mp hmem with hmem | hmem
    · obtain ⟨v, -, hv⟩ := List.mem_map.mp hmem
      cases hv
    · exact h.kept hmem
  obtain ⟨more, hmore⟩ := foldl_record_keeps _
    (st.headInsertions.map (Insertion.text format)) hkept
  refine ⟨more.flatten, ?_⟩
  rw [accepted, hall, List.foldl_append,
    Statement.accepted_head h.time h.clock h.short h.room, hmore, List.flatten_append, Statement.head]

/-- **Every record reads back.**  Whatever a statement inserts, and however much of it the stream
refuses, its record is its header and the text that the stream took, with a newline exactly if that
fits; and the time, the thread, the level, the file, the line and the text are read out of it again. -/
theorem record_reads_back (format : Float → List Byte)
    (hformat : ∀ x, (format x).length < kMaxNumericSize) (st : Statement) (h : st.Readable) :
    ∃ text, (accepted format st.allActs).flatten = st.head format ++ text ∧
      st.output format =
        some (terminated (st.head format ++ text), st.constructor.logLevel.aborts) ∧
      readRecord (terminated (st.head format ++ text)) = some (st.fields (st.ended format text)) := by
  obtain ⟨text, htext⟩ : ∃ text, (accepted format st.allActs).flatten = st.head format ++ text :=
    accepted_eq h
  refine ⟨text, htext, ?_, ?_⟩
  · rw [output_eq hformat st, htext]
  · rw [Statement.terminated_head]
    exact readRecord_head h _

theorem baseName_infoStatement (message : List Byte) :
    (infoStatement message).baseName = bytesOf "a.cc" := by
  show (SourceFile.construct (bytesOf "src/a.cc")).data = _
  decide

theorem infoStatement_readable (message : List Byte) : (infoStatement message).Readable where
  time := by
    show infoContext.timeStr.length = 19
    decide
  clock := by
    show 0 ≤ infoContext.microseconds
    decide
  tid := by
    show byteOf ' ' ∉ infoContext.tidString
    decide
  file := by
    rw [baseName_infoStatement]
    decide
  room := by
    rw [baseName_infoStatement]
    show infoContext.tidString.length + (bytesOf "a.cc").length + 46 + kMaxNumericSize ≤ kSmallBuffer
    decide
  kept := by
    intro h
    cases List.mem_singleton.mp h

theorem record_reads_back_info :
    ∃ text, (accepted alwaysHalf (infoStatement (bytesOf "a: b")).allActs).flatten =
        (infoStatement (bytesOf "a: b")).head alwaysHalf ++ text ∧
      (infoStatement (bytesOf "a: b")).output alwaysHalf =
        some (terminated ((infoStatement (bytesOf "a: b")).head alwaysHalf ++ text), false) ∧
      readRecord (terminated ((infoStatement (bytesOf "a: b")).head alwaysHalf ++ text)) = some
        ⟨bytesOf "2023-06-01 10:00:00", 5, bytesOf "4711", .info, bytesOf "a.cc", 7,
          (infoStatement (bytesOf "a: b")).ended alwaysHalf text⟩ :=
  record_reads_back alwaysHalf alwaysHalf_short (infoStatement (bytesOf "a: b"))
    (infoStatement_readable _)

end TurboNet.Logger
