/-
# TurboNet.Logger.TimeCache — the times a thread's records show.

`FormatTime` formats a timestamp only when its second is another one than that of the thread's last
record; the second and its text are kept in two thread-locals.  Of the text it copies 19 chars,
however long it is.  Before the first record the second is 0 and the text empty, so a first record of
second 0 reads past the end of an empty string.
-/
import TurboNet.Base.Timestamp
import TurboNet.Lib.LastValue
import TurboNet.Logger.Record

namespace TurboNet.Logger

open TurboNet.Lib
open TurboNet.Base
open LogStream

/-- `t_last_seconds` and `t_time_str`. -/
structure TimeCache where
  lastSeconds : Int
  timeStr : List Byte
  deriving DecidableEq, Repr

namespace TimeCache

/-- What a thread starts with. -/
def initial : TimeCache := { lastSeconds := 0, timeStr := [] }

abbrev Method := EStateM Halt TimeCache

/-- `n` chars from `t_time_str.c_str()` on; behind the string there is its terminator. -/
def readChars (n : Nat) : Method (List Byte) := do
  let c ← get
  if n ≤ c.timeStr.length + 1 then
    pure ((c.timeStr ++ [0]).take n)
  else
    throw (.undefined "read past the end of t_time_str")

/-- `if (t_last_seconds != seconds)`, and what is done then. -/
def refreshed (localtime : Int → Tm) (timestamp : Timestamp) (c : TimeCache) : TimeCache :=
  let seconds := timestamp.timeSinceEpochSeconds
  if c.lastSeconds ≠ seconds then
    { lastSeconds := seconds, timeStr := bytesOf (timestamp.toFormatString localtime) }
  else c

/-- `Logger::Impl::FormatTime`.  What is inserted does not depend on the thread's id. -/
def formatTime (localtime : Int → Tm) (timestamp : Timestamp) : Method (List Insertion) := do
  modify (refreshed localtime timestamp)
  let timeStr ← readChars 19
  pure (Logger.formatTime
    { timeStr := timeStr
      microseconds := timestamp.timeSinceEpochMicroSeconds
      tidString := [] })

/-- What is in the stream of a record after the insertions. -/
def written (format : Float → List Byte) (vs : List Insertion) : Option (List Byte) :=
  ((streamRuns format).exec RawBuffer.construct (vs.map LogStream.Act.insert)).map RawBuffer.contents

/-- The time of a timestamp: its second, and six digits for the microseconds of that second. -/
def ownTime (localtime : Int → Tm) (t : Timestamp) : List Byte :=
  bytesOf (t.toFormatString localtime) ++ byteOf '.' ::
    (fixedDigits 10 6 (t.timeSinceEpochMicroSeconds % kMicroSecondsPerSecond).toNat).map
      fun d => byteOf d.digitChar

/-- The records of a thread are all given a time, each one its own. -/
def ShowsOwnTimes (format : Float → List Byte) (localtime : Int → Tm) (ts : List Timestamp) : Prop :=
  ∃ headers c, (ts.mapM (formatTime localtime)).run initial = .ok headers c ∧
    headers.map (written format) = ts.map fun t => some (ownTime localtime t)

variable {localtime : Int → Tm} {t : Timestamp} {c : TimeCache}

/-! ## What a record is given -/

theorem printSix_eq (v : Int) : printSix v = printZero 6 v := rfl

/-- The microseconds of a second that is not before the epoch are printed with six digits. -/
theorem bytesOf_printSix {v : Int} (hnonneg : 0 ≤ v) (hv : v < kMicroSecondsPerSecond) :
    bytesOf (printSix v) = (fixedDigits 10 6 v.toNat).map fun d => byteOf d.digitChar := by
  have hsix : v < 10 ^ 6 := hv
  rw [printSix_eq, bytesOf, toList_printZero_of_nonneg (by decide) hnonneg hsix, List.map_map]
  rfl

theorem microseconds_text {v : Int} (hnonneg : 0 ≤ v) :
    (bytesOf ("." ++ printSix (v.tmod (1000 * 1000)))).take 7 =
      byteOf '.' :: (fixedDigits 10 6 (v % kMicroSecondsPerSecond).toNat).map
        fun d => byteOf d.digitChar := by
  have hmod : v.tmod (1000 * 1000) = v % kMicroSecondsPerSecond :=
    Int.tmod_eq_emod_of_nonneg hnonneg
  have hpos : (0 : Int) < kMicroSecondsPerSecond := by decide
  have hdot : bytesOf ("." ++ printSix (v % kMicroSecondsPerSecond)) =
      byteOf '.' :: bytesOf (printSix (v % kMicroSecondsPerSecond)) := by
    unfold bytesOf
    rw [String.toList_append, List.map_append]
    rfl
  rw [hmod, hdot, bytesOf_printSix (Int.emod_nonneg v (by omega)) (Int.emod_lt_of_pos v hpos)]
  -- the buffer has room for all of it
  apply List.take_of_length_le
  rw [List.length_cons, List.length_map, length_fixedDigits]

/-- A text that fits is added to a stream. -/
theorem append_holds (format : Float → List Byte) {m : RawBuffer kSmallBuffer}
    {texts : List (List Byte)} (hm : Holds texts m) {data : List Byte}
    (hroom : data.length < kSmallBuffer - texts.flatten.length) :
    ∃ m', (streamRuns format).step m (.insert (.append data)) = some m' ∧
      Holds (texts ++ [data]) m' := by
  have htext : ∃ m', (insert format (.append data)).run m = .ok () m' ∧
      Inserted format m (.append data) m' := inserted_text hm.free rfl rfl
  obtain ⟨m', hrun, hinserted⟩ := htext
  have hholds := hinserted.holds hm
  have haccepted : (Insertion.append data).Accepted format (kSmallBuffer - texts.flatten.length) :=
    hroom
  rw [record, if_pos haccepted] at hholds
  exact ⟨m', stream_step hrun, hholds⟩

/-- What `FormatTime` puts into the stream of a record. -/
theorem written_formatTime (format : Float → List Byte) (tidString : List Byte)
    {timeStr : List Byte} {microseconds : Int} (hlength : timeStr.length = 19)
    (hnonneg : 0 ≤ microseconds) :
    written format (Logger.formatTime
        { timeStr := timeStr, microseconds := microseconds, tidString := tidString }) =
      some (timeStr ++ byteOf '.' ::
        (fixedDigits 10 6 (microseconds % kMicroSecondsPerSecond).toNat).map
          fun d => byteOf d.digitChar) := by
  unfold written Logger.formatTime
  rw [microseconds_text hnonneg]
  generalize hsix : (fixedDigits 10 6 (microseconds % kMicroSecondsPerSecond).toNat).map
    (fun d => byteOf d.digitChar) = six
  have hsixLength : six.length = 6 := by
    rw [← hsix, List.length_map, length_fixedDigits]
  have hroom₁ : timeStr.length < kSmallBuffer - ([] : List (List Byte)).flatten.length := by
    rw [hlength]
    decide
  obtain ⟨m₁, hstep₁, hm₁⟩ := append_holds format construct_holds hroom₁
  have hroom₂ : (byteOf '.' :: six).length < kSmallBuffer - ([] ++ [timeStr]).flatten.length := by
    rw [List.nil_append, List.flatten_singleton, hlength, List.length_cons, hsixLength]
    decide
  obtain ⟨m₂, hstep₂, hm₂⟩ := append_holds format hm₁ hroom₂
  have hrun := StepSystem.exec_cons.mpr ⟨m₁, hstep₁, StepSystem.exec_cons.mpr
    ⟨m₂, hstep₂, StepSystem.exec_nil m₂⟩⟩
  rw [List.map_cons, List.map_singleton, hrun, Option.map_some, hm₂.contents, List.nil_append,
    List.singleton_append, List.flatten_cons, List.flatten_singleton]

/-! ## The cache -/

/-- The text of a second. -/
def secondText (localtime : Int → Tm) (seconds : Int) : List Byte :=
  bytesOf (localtime seconds).print

/-- The thread-locals are a cache of the texts of seconds. -/
def entry (c : TimeCache) : LastValue Int (List Byte) :=
  { key := c.lastSeconds, value := c.timeStr }

theorem secondText_eq (localtime : Int → Tm) (t : Timestamp) :
    secondText localtime t.timeSinceEpochSeconds = bytesOf (t.toFormatString localtime) := by
  rw [secondText, Timestamp.toFormatString_eq]

theorem entry_refreshed (localtime : Int → Tm) (t : Timestamp) (c : TimeCache) :
    (c.refreshed localtime t).entry =
      c.entry.refresh (secondText localtime) t.timeSinceEpochSeconds := by
  by_cases h : c.lastSeconds = t.timeSinceEpochSeconds
  · have hkept : c.refreshed localtime t = c := if_neg (not_not_intro h)
    rw [hkept, LastValue.refresh_of_eq h]
  · have hnew : c.refreshed localtime t =
        { lastSeconds := t.timeSinceEpochSeconds
          timeStr := bytesOf (t.toFormatString localtime) } := if_pos h
    rw [hnew, LastValue.refresh_of_ne h, secondText_eq, entry]

theorem readChars_of_le {n : Nat} (h : n ≤ c.timeStr.length) :
    (readChars n).run c = .ok (c.timeStr.take n) c := by
  unfold readChars
  rw [run_get_bind, if_pos (Nat.le_succ_of_le h), List.take_append_of_le_length h]
  rfl

theorem readChars_of_lt {n : Nat} (h : c.timeStr.length + 1 < n) :
    (readChars n).run c = .error (.undefined "read past the end of t_time_str") c := by
  unfold readChars
  rw [run_get_bind, if_neg (Nat.not_le_of_lt h)]
  rfl

/-- **A record of a coherent cache** is given its own time. -/
theorem formatTime_of_coherent (format : Float → List Byte) (hnonneg : 0 ≤ t.timeSinceEpoch)
    (hlength : (bytesOf (t.toFormatString localtime)).length = 19)
    (hcoherent : (c.refreshed localtime t).entry.Coherent (secondText localtime)) :
    ∃ vs, (formatTime localtime t).run c = .ok vs (c.refreshed localtime t) ∧
      written format vs = some (ownTime localtime t) := by
  have htext : (c.refreshed localtime t).timeStr = bytesOf (t.toFormatString localtime) := by
    rw [← secondText_eq]
    rw [entry_refreshed] at hcoherent
    have hvalue := hcoherent.value_refresh
    rw [← entry_refreshed] at hvalue
    exact hvalue
  have hread : (readChars 19).run (c.refreshed localtime t) =
      .ok (bytesOf (t.toFormatString localtime)) (c.refreshed localtime t) := by
    have hlong : 19 ≤ (c.refreshed localtime t).timeStr.length := by
      rw [htext, hlength]
    rw [readChars_of_le hlong, htext, List.take_of_length_le (Nat.le_of_eq hlength)]
  have hmicros : 0 ≤ t.timeSinceEpochMicroSeconds := by
    unfold Timestamp.timeSinceEpochMicroSeconds durationCast
    exact Int.tdiv_nonneg hnonneg (by omega)
  refine ⟨Logger.formatTime
    { timeStr := bytesOf (t.toFormatString localtime)
      microseconds := t.timeSinceEpochMicroSeconds
      tidString := [] }, ?_, ?_⟩
  · unfold formatTime
    rw [run_modify_bind, run_bind_of_ok hread, EStateM.run_pure]
  · rw [written_formatTime format _ hlength hmicros, ownTime]

theorem Coherent.refreshed (h : c.entry.Coherent (secondText localtime)) (t : Timestamp) :
    (c.refreshed localtime t).entry.Coherent (secondText localtime) := by
  rw [entry_refreshed]
  exact h.refresh

/-- The records of a thread, if the first of them leaves the cache coherent. -/
theorem formatTimes_of_coherent (format : Float → List Byte) {ts : List Timestamp}
    (hnonneg : ∀ t ∈ ts, 0 ≤ t.timeSinceEpoch)
    (hlength : ∀ t ∈ ts, (bytesOf (t.toFormatString localtime)).length = 19)
    (hcoherent : ∀ t, ts.head? = some t →
      (c.refreshed localtime t).entry.Coherent (secondText localtime)) :
    ∃ headers c', (ts.mapM (formatTime localtime)).run c = .ok headers c' ∧
      headers.map (written format) = ts.map fun t => some (ownTime localtime t) := by
  induction ts generalizing c with
  | nil => exact ⟨[], c, rfl, rfl⟩
  | cons t ts ih =>
    have hnext := hcoherent t rfl
    obtain ⟨vs, hrun, hwritten⟩ := formatTime_of_coherent format
      (hnonneg t (List.mem_cons_self ..)) (hlength t (List.mem_cons_self ..)) hnext
    obtain ⟨headers, c', hruns, hall⟩ := ih (fun u hu => hnonneg u (List.mem_cons_of_mem t hu))
      (fun u hu => hlength u (List.mem_cons_of_mem t hu)) (fun u _ => Coherent.refreshed hnext u)
    refine ⟨vs :: headers, c', ?_, ?_⟩
    · rw [List.mapM_cons, run_bind_of_ok hrun, run_bind_of_ok hruns]
      rfl
    · rw [List.map_cons, List.map_cons, hwritten, hall]

/-! ## All records of a thread -/

/-- A first record of second 0 finds its second remembered, and no text. -/
theorem first_of_second_zero (localtime : Int → Tm) (h : t.timeSinceEpochSeconds = 0) :
    (formatTime localtime t).run initial =
      .error (.undefined "read past the end of t_time_str") initial := by
  have hkept : initial.refreshed localtime t = initial := if_neg (not_not_intro h.symm)
  unfold formatTime
  rw [run_modify_bind, hkept, run_bind_of_error (readChars_of_lt (by decide))]

/-- **When the records of a thread show their own times.** All of them do, without a read past the
end of `t_time_str`, exactly when the first one is not of second 0. -/
theorem shows_own_times_iff (format : Float → List Byte) (localtime : Int → Tm) (ts : List Timestamp)
    (hnonneg : ∀ t ∈ ts, 0 ≤ t.timeSinceEpoch)
    (hlength : ∀ t ∈ ts, (bytesOf (t.toFormatString localtime)).length = 19) :
    ShowsOwnTimes format localtime ts ↔
      ∀ t, ts.head? = some t → t.timeSinceEpochSeconds ≠ 0 := by
  constructor
  · rintro ⟨headers, c, hrun, -⟩ t hfirst hzero
    obtain ⟨rest, rfl⟩ := List.head?_eq_some_iff.mp hfirst
    rw [List.mapM_cons, run_bind_of_error (first_of_second_zero localtime hzero)] at hrun
    cases hrun
  · intro hfirst
    -- the first record is formatted, and what is cached then belongs to its second
    apply formatTimes_of_coherent format hnonneg hlength
    intro t ht
    rw [entry_refreshed]
    apply LastValue.refresh_coherent_iff.mpr
    intro hsame
    exact absurd hsame.symm (hfirst t ht)

/-- UTC on the day of the epoch. -/
def firstDay (seconds : Int) : Tm where
  year := 70
  mon := 0
  mday := 1
  hour := seconds / 3600
  min := seconds / 60 % 60
  sec := seconds % 60

/-- Back to second 0, a repeat, and forward again. -/
theorem shows_own_times_iff_four :
    ShowsOwnTimes alwaysHalf firstDay [⟨5000001000⟩, ⟨7000⟩, ⟨999999999⟩, ⟨7261000000000⟩] :=
  (shows_own_times_iff alwaysHalf firstDay _ (by decide) (by decide)).mpr (by
    rintro t ⟨⟩
    decide)

/-- A thread whose only record is of the first second. -/
theorem first_record_not_shown :
    0 ≤ (⟨7000⟩ : Timestamp).timeSinceEpoch ∧
      (bytesOf ((⟨7000⟩ : Timestamp).toFormatString firstDay)).length = 19 ∧
      ¬ ShowsOwnTimes alwaysHalf firstDay [⟨7000⟩] := by
  refine ⟨by decide, by decide, ?_⟩
  rintro ⟨headers, c, hrun, -⟩
  rw [List.mapM_cons, run_bind_of_error (first_of_second_zero firstDay (by decide))] at hrun
  cases hrun

end TimeCache

end TurboNet.Logger
