/-
# TurboNet.Logger.LogRolling — what a `LogFile` does with the data it is handed.

Every call is one of a few moves (`AppendMove`, around `rolled`); the abstract log is a sequence of
records in segments, one segment a file, in which an append pushes a record and a roll that the clock
allows turns the page.
-/
import TurboNet.Lib.Segmented
import TurboNet.Logger.LogFile

namespace TurboNet.Logger

open TurboNet.Lib
open TurboNet.Base

variable {B : Build} {H : Host} {a : Answers} {c : LogConfig} {l l' : LogFile} {f : FileUtil}

/-- The system grants the call what it asks for: `fopen` succeeds and `fwrite` accepts everything. -/
structure Answers.Granted (a : Answers) : Prop where
  opened : a.fopen = true
  accepted : ∀ k m, m ≤ a.fwrite k m

/-! ## `FileUtil` -/

namespace FileUtil

/-- The file a `fopen` gives. -/
def opened (fileName : String) : FileUtil :=
  { fileName := fileName, writtenBytes := 0, accepted := [], flushed := 0 }

theorem writeRest_nil (fwrite : Nat → Nat → Nat) (k : Nat) (f : FileUtil) :
    writeRest fwrite k f [] = f := by
  unfold writeRest
  rw [dif_neg (by simp)]

theorem writeRest_writtenBytes (fwrite : Nat → Nat → Nat) (k : Nat) (f : FileUtil)
    (rest : List Byte) : (writeRest fwrite k f rest).writtenBytes = f.writtenBytes := by
  fun_induction writeRest fwrite k f rest with
  | case1 => rfl
  | case2 k f rest hremain x hx ih => exact ih
  | case3 => rfl

/-- `written_bytes_` counts what was asked for. -/
theorem append_writtenBytes (fwrite : Nat → Nat → Nat) (data : List Byte) (f : FileUtil) :
    (f.append fwrite data).writtenBytes = swrap 64 (f.writtenBytes + swrap 64 data.length) := by
  have hrest := writeRest_writtenBytes fwrite 1 (f.write (min (fwrite 0 data.length) data.length) data)
    (data.drop (min (fwrite 0 data.length) data.length))
  unfold append
  dsimp only
  rw [hrest, write]

/-- A stream that accepts everything has taken the data whole, and nothing else. -/
theorem append_accepted (hall : ∀ k m, m ≤ a.fwrite k m) (f : FileUtil) (data : List Byte) :
    (f.append a.fwrite data).accepted = f.accepted ++ data := by
  have hn : min (a.fwrite 0 data.length) data.length = data.length :=
    Nat.min_eq_right (hall 0 data.length)
  unfold append
  simp only [hn, List.drop_length, writeRest_nil, write, List.take_length]

end FileUtil

/-! ## What a roll does -/

namespace LogFile

/-- The effect of `RollFile` when `fopen` succeeds. -/
def rolled (H : Host) (a : Answers) (l : LogFile) : LogFile :=
  if l.lastRoll < a.rollNow.timeSinceEpochSeconds then
    ((l.attempted a.rollNow.timeSinceEpochSeconds).stamped a.rollNow).replaceFile
      (FileUtil.opened (l.getLogFileName H a.rollNow))
  else l.attempted a.rollNow.timeSinceEpochSeconds

/-- `RollFile` from the comparison with `last_roll_` on. -/
theorem rollFile_run_eq : (rollFile H a).run l =
    (if l.lastRoll < a.rollNow.timeSinceEpochSeconds then (do
      modify (·.stamped a.rollNow)
      match FileUtil.construct a.fopen (l.getLogFileName H a.rollNow) with
      | .ok f => modify (·.replaceFile f)
      | .error e => throw e : Method Unit)
    else pure ()).run (l.attempted a.rollNow.timeSinceEpochSeconds) := rfl

theorem rollFile_run (hopen : l.lastRoll < a.rollNow.timeSinceEpochSeconds → a.fopen = true) :
    (rollFile H a).run l = .ok () (l.rolled H a) := by
  rw [rollFile_run_eq, rolled]
  split
  · rename_i hnew
    rw [FileUtil.construct, if_pos (hopen hnew)]
    rfl
  · rfl

theorem rollFile_run_closed (hnew : l.lastRoll < a.rollNow.timeSinceEpochSeconds)
    (hclosed : a.fopen = false) :
    (rollFile H a).run l = .error (.undefined "setbuffer on a null FILE")
      ((l.attempted a.rollNow.timeSinceEpochSeconds).stamped a.rollNow) := by
  rw [rollFile_run_eq, if_pos hnew, FileUtil.construct, hclosed]
  rfl

/-- `RollFile` returns unless it has a file to open and cannot. -/
theorem rollFile_ok_iff {u : Unit} :
    (rollFile H a).run l = .ok u l' ↔
      (l.lastRoll < a.rollNow.timeSinceEpochSeconds → a.fopen = true) ∧ l' = l.rolled H a := by
  constructor
  · intro h
    have hopen : l.lastRoll < a.rollNow.timeSinceEpochSeconds → a.fopen = true := by
      intro hnew
      by_contra hclosed
      rw [rollFile_run_closed hnew (Bool.eq_false_iff.mpr hclosed)] at h
      cases h
    rw [rollFile_run hopen] at h
    cases h
    exact ⟨hopen, rfl⟩
  · rintro ⟨hopen, rfl⟩
    exact rollFile_run hopen

/-- What a constructor that returns has made. -/
theorem construct_ok_iff :
    construct B H c a = .ok l ↔
      (B.asserts = true → '/' ∉ c.baseName.toList) ∧
        ((0 : Int) < a.rollNow.timeSinceEpochSeconds → a.fopen = true) ∧
        l = (blank c).rolled H a := by
  unfold construct
  constructor
  · intro h
    simp only at h
    split at h
    · rename_i u l₁ hbody
      cases h
      obtain ⟨_, _, hassert, hroll⟩ := bind_ok_iff.mp hbody
      obtain ⟨hname, rfl⟩ := Build.assert_ok_iff.mp hassert
      exact ⟨hname, rollFile_ok_iff.mp hroll⟩
    · cases h
  · rintro ⟨hname, hopen, rfl⟩
    simp only
    rw [run_bind_of_ok (Build.run_assert_of hname), rollFile_run hopen]

theorem derefFile_run (hfile : l.file = some f) : derefFile.run l = .ok f l := by
  unfold derefFile
  rw [run_get_bind, hfile]
  rfl

theorem derefFile_run_none (hfile : l.file = none) :
    derefFile.run l = .error (.undefined "null unique_ptr") l := by
  unfold derefFile
  rw [run_get_bind, hfile]
  rfl

/-! ## What an append does -/

/-- `file_->Append(data, len)`. -/
def fed (a : Answers) (data : List Byte) (l : LogFile) (f : FileUtil) : LogFile :=
  l.setFile (f.append a.fwrite data)

/-- The moves of an `Append` to the file `f`, when what it asks for is granted. -/
inductive AppendMove (H : Host) (a : Answers) (data : List Byte) (l : LogFile) (f : FileUtil) :
    LogFile → Prop
  /-- The file has outgrown `roll_size_`. -/
  | full : l.rollSize < (f.append a.fwrite data).writtenBytes →
      AppendMove H a data l f ((l.fed a data f).rolled H a)
  /-- The periodic check finds that a day has gone by. -/
  | day : ¬ l.rollSize < (f.append a.fwrite data).writtenBytes →
      l.startPeriod < a.now.timeSinceEpochDays →
      AppendMove H a data l f ((l.fed a data f).counted.rolled H a)
  /-- The periodic check finds that it is time to flush. -/
  | flushed : ¬ l.rollSize < (f.append a.fwrite data).writtenBytes →
      AppendMove H a data l f
        (((l.fed a data f).counted.flushedAt a.now.timeSinceEpochSeconds).setFile
          (f.append a.fwrite data).flush)
  | plain : ¬ l.rollSize < (f.append a.fwrite data).writtenBytes →
      AppendMove H a data l f (l.fed a data f).counted

/-- The part of `AppendUnLocked` after `++count_`. -/
def periodicCheck (H : Host) (a : Answers) : Method Unit := do
  let l ← get
  if l.checkEveryN ≤ l.count then
    let nowSeconds := a.now.timeSinceEpochSeconds
    if l.startPeriod < a.now.timeSinceEpochDays then
      rollFile H a
    else if l.flushInterval < nowSeconds - l.lastFlush then
      modify (·.flushedAt nowSeconds)
      let f ← derefFile
      modify (·.setFile f.flush)

theorem appendUnLocked_run_eq (hfile : l.file = some f) (data : List Byte) :
    (appendUnLocked H a data).run l =
      if l.rollSize < (f.append a.fwrite data).writtenBytes then
        (rollFile H a).run (l.fed a data f)
      else (periodicCheck H a).run (l.fed a data f).counted := by
  have hrun : (appendUnLocked H a data).run l =
      (if l.rollSize < (f.append a.fwrite data).writtenBytes then rollFile H a
      else do
        modify counted
        periodicCheck H a : Method Unit).run (l.fed a data f) := by
    unfold appendUnLocked
    rw [run_bind_of_ok (derefFile_run hfile)]
    rfl
  rw [hrun]
  split
  · rfl
  · rfl

theorem periodicCheck_run_eq :
    (periodicCheck H a).run l =
      if l.checkEveryN ≤ l.count then
        if l.startPeriod < a.now.timeSinceEpochDays then (rollFile H a).run l
        else if l.flushInterval < a.now.timeSinceEpochSeconds - l.lastFlush then
          flush.run (l.flushedAt a.now.timeSinceEpochSeconds)
        else .ok () l
      else .ok () l := by
  have hrun : (periodicCheck H a).run l =
      (if l.checkEveryN ≤ l.count then
        if l.startPeriod < a.now.timeSinceEpochDays then rollFile H a
        else if l.flushInterval < a.now.timeSinceEpochSeconds - l.lastFlush then do
          modify (·.flushedAt a.now.timeSinceEpochSeconds)
          flush
        else pure ()
      else pure () : Method Unit).run l := rfl
  rw [hrun]
  repeat' split
  all_goals rfl

theorem flush_run (hfile : l.file = some f) : flush.run l = .ok () (l.setFile f.flush) := by
  unfold flush
  rw [run_bind_of_ok (derefFile_run hfile)]
  rfl

/-- **An append is one of the moves**, if it finds a file and `fopen` succeeds. -/
theorem appendUnLocked_run (hfile : l.file = some f) (hopen : a.fopen = true) (data : List Byte) :
    ∃ l', (appendUnLocked H a data).run l = .ok () l' ∧ AppendMove H a data l f l' := by
  rw [appendUnLocked_run_eq hfile]
  split
  · rename_i hfull
    exact ⟨_, rollFile_run fun _ => hopen, .full hfull⟩
  · rename_i hroom
    rw [periodicCheck_run_eq]
    split
    · split
      · rename_i hday
        exact ⟨_, rollFile_run fun _ => hopen, .day hroom hday⟩
      · split
        · exact ⟨_, flush_run rfl, .flushed hroom⟩
        · exact ⟨_, rfl, .plain hroom⟩
    · exact ⟨_, rfl, .plain hroom⟩

/-- An append that returns was one of the moves. -/
theorem appendMove_of_ok {u : Unit} {data : List Byte} (hfile : l.file = some f)
    (h : (appendUnLocked H a data).run l = .ok u l') : AppendMove H a data l f l' := by
  rw [appendUnLocked_run_eq hfile] at h
  split at h
  · rename_i hfull
    obtain ⟨-, rfl⟩ := rollFile_ok_iff.mp h
    exact .full hfull
  · rename_i hroom
    rw [periodicCheck_run_eq] at h
    split at h
    · split at h
      · rename_i hday
        obtain ⟨-, rfl⟩ := rollFile_ok_iff.mp h
        exact .day hroom hday
      · split at h
        · rw [flush_run (f := f.append a.fwrite data) rfl] at h
          cases h
          exact .flushed hroom
        · cases h
          exact .plain hroom
    · cases h
      exact .plain hroom

/-! ## The log as segments of records -/

/-- Each file holds the records of one segment, one after the other. -/
structure Represents (l : LogFile) (p : Segmented (List Byte)) : Prop where
  past : l.past.map (·.accepted) = p.closed.map List.flatten
  file : ∃ f, l.file = some f ∧ f.accepted = p.current.flatten

namespace Represents

variable {p : Segmented (List Byte)}

theorem files (h : l.Represents p) :
    l.files.map (·.accepted) = p.segments.map List.flatten := by
  obtain ⟨f, hfile, haccepted⟩ := h.file
  simp only [LogFile.files, Segmented.segments, hfile, Option.toList_some, List.map_append, h.past,
    List.map_cons, List.map_nil, haccepted]

theorem congr (h : l.Represents p) (hpast : l'.past = l.past) (hfile : l'.file = l.file) :
    l'.Represents p := ⟨by rw [hpast, h.past], by rw [hfile]; exact h.file⟩

/-- Flushing a file changes nothing in it. -/
theorem flushed (h : l.Represents p) (hfile : l.file = some f) :
    (l.setFile f.flush).Represents p := by
  obtain ⟨g, hg, haccepted⟩ := h.file
  obtain rfl : f = g := Option.some.inj (hfile.symm.trans hg)
  exact ⟨h.past, f.flush, rfl, haccepted⟩

/-- An append pushes a record. -/
theorem fed (h : l.Represents p) (hfile : l.file = some f) (hall : ∀ k m, m ≤ a.fwrite k m)
    (data : List Byte) : (l.fed a data f).Represents (p.push data) := by
  obtain ⟨g, hg, haccepted⟩ := h.file
  obtain rfl : f = g := Option.some.inj (hfile.symm.trans hg)
  refine ⟨h.past, f.append a.fwrite data, rfl, ?_⟩
  rw [FileUtil.append_accepted hall, haccepted, Segmented.push, List.flatten_append,
    List.flatten_singleton]

/-- A roll that opens a file turns the page. -/
theorem replaced (h : l.Represents p) (fileName : String) :
    (l.replaceFile (FileUtil.opened fileName)).Represents p.turn := by
  obtain ⟨f, hfile, haccepted⟩ := h.file
  refine ⟨?_, FileUtil.opened fileName, rfl, rfl⟩
  simp only [replaceFile, Segmented.turn, hfile, Option.toList_some, List.map_append, h.past,
    List.map_cons, List.map_nil, FileUtil.destroy, FileUtil.flush, haccepted]

/-- A roll moves no record. -/
theorem rolled (h : l.Represents p) :
    ∃ q : Segmented (List Byte), (l.rolled H a).Represents q ∧ q.records = p.records := by
  unfold LogFile.rolled
  split
  · refine ⟨p.turn, ?_, p.records_turn⟩
    have hstamped : ((l.attempted a.rollNow.timeSinceEpochSeconds).stamped a.rollNow).Represents p :=
      h.congr rfl rfl
    exact hstamped.replaced _
  · exact ⟨p, h.congr rfl rfl, rfl⟩

end Represents

/-! ## The seconds in which files are opened -/

/-- The values `last_roll_` took, one for each file opened. -/
def openings (l : LogFile) : List Int := (l.attempts.filter Attempt.opens).map (·.reading)

/-- Every file has its own second, later than those of the files before it. -/
structure OpenedInOrder (l : LogFile) : Prop where
  ordered : l.openings.Pairwise (· < ·)
  each : l.openings.length = l.files.length
  last : l.openings.getLast? = some l.lastRoll

theorem openings_attempted (l : LogFile) (nowSeconds : Int) :
    (l.attempted nowSeconds).openings =
      l.openings ++ if l.lastRoll < nowSeconds then [nowSeconds] else [] := by
  unfold openings attempted
  rw [List.filter_append, List.map_append]
  by_cases h : l.lastRoll < nowSeconds
  · have hopens : Attempt.opens ⟨nowSeconds, l.lastRoll⟩ = true := decide_eq_true h
    rw [if_pos h, List.filter_cons_of_pos hopens]
    rfl
  · have hidle : Attempt.opens ⟨nowSeconds, l.lastRoll⟩ = false := decide_eq_false h
    rw [if_neg h, List.filter_cons_of_neg (by rw [hidle]; exact Bool.false_ne_true)]
    rfl

/-- `last_roll_` is the latest second at which a file was opened. -/
theorem OpenedInOrder.le_lastRoll (h : l.OpenedInOrder) : ∀ t ∈ l.openings, t ≤ l.lastRoll := by
  obtain ⟨earlier, hearlier⟩ := List.getLast?_eq_some_iff.mp h.last
  have hordered := h.ordered
  rw [hearlier, List.pairwise_append] at hordered
  rw [hearlier]
  intro t ht
  rcases List.mem_append.mp ht with ht | ht
  · exact Int.le_of_lt (hordered.2.2 t ht l.lastRoll (List.mem_singleton_self _))
  · exact Int.le_of_eq (List.mem_singleton.mp ht)

/-- A roll after the second of every file so far. -/
theorem openedInOrder_of_later (hordered : l.openings.Pairwise (· < ·))
    (heach : l.openings.length = l.files.length) (hle : ∀ t ∈ l.openings, t ≤ l.lastRoll)
    (hnew : l.lastRoll < a.rollNow.timeSinceEpochSeconds) : (l.rolled H a).OpenedInOrder := by
  have hopenings : (l.rolled H a).openings = l.openings ++ [a.rollNow.timeSinceEpochSeconds] := by
    rw [rolled, if_pos hnew]
    show (l.attempted a.rollNow.timeSinceEpochSeconds).openings = _
    rw [openings_attempted, if_pos hnew]
  have hfiles : (l.rolled H a).files.length = l.files.length + 1 := by
    rw [rolled, if_pos hnew]
    simp only [files, replaceFile, attempted, stamped, List.length_append, List.length_map,
      Option.toList_some, List.length_singleton]
  refine ⟨?_, ?_, ?_⟩
  · rw [hopenings, List.pairwise_append]
    refine ⟨hordered, List.pairwise_singleton _ _, fun t ht t' ht' => ?_⟩
    obtain rfl := List.mem_singleton.mp ht'
    exact Int.lt_of_le_of_lt (hle t ht) hnew
  · rw [hopenings, hfiles, List.length_append, heach, List.length_singleton]
  · rw [hopenings, List.getLast?_concat, rolled, if_pos hnew]
    rfl

theorem OpenedInOrder.rolled (h : l.OpenedInOrder) : (l.rolled H a).OpenedInOrder := by
  by_cases hnew : l.lastRoll < a.rollNow.timeSinceEpochSeconds
  · exact openedInOrder_of_later h.ordered h.each h.le_lastRoll hnew
  · have hopenings : (l.attempted a.rollNow.timeSinceEpochSeconds).openings = l.openings := by
      rw [openings_attempted, if_neg hnew, List.append_nil]
    rw [LogFile.rolled, if_neg hnew]
    exact ⟨by rw [hopenings]; exact h.ordered, by rw [hopenings]; exact h.each,
      by rw [hopenings]; exact h.last⟩

theorem OpenedInOrder.congr (h : l.OpenedInOrder) (hattempts : l'.attempts = l.attempts)
    (hfiles : l'.files.length = l.files.length) (hlast : l'.lastRoll = l.lastRoll) :
    l'.OpenedInOrder := by
  have hopenings : l'.openings = l.openings := by rw [openings, hattempts, openings]
  exact ⟨by rw [hopenings]; exact h.ordered, by rw [hopenings, hfiles]; exact h.each,
    by rw [hopenings, hlast]; exact h.last⟩

theorem files_length_setFile (hfile : l.file = some f) (f' : FileUtil) :
    (l.setFile f').files.length = l.files.length := by
  simp [files, setFile, hfile]

/-! ## Files beyond `roll_size_` -/

/-- The next append goes to a file that is already larger than `roll_size_`. -/
def Overfull (l : LogFile) : Prop := ∃ f, l.file = some f ∧ l.rollSize < f.writtenBytes

/-- The last call of `RollFile` read a clock that was not later than `last_roll_`. -/
def LastRollIdle (l : LogFile) : Prop :=
  ∃ t, l.attempts.getLast? = some t ∧ t.reading ≤ t.lastRoll

/-- Nothing was written yet to the current file. -/
def Untouched (l : LogFile) : Prop := ∃ f, l.file = some f ∧ f.writtenBytes = 0 ∧ f.accepted = []

/-- A file grows on past `roll_size_` because the last roll did nothing, or for want of any file that
would be small enough. -/
def SpillsOnly (l : LogFile) : Prop :=
  l.Overfull → l.LastRollIdle ∨ l.rollSize < 0 ∧ l.Untouched

/-- After a roll the file is overfull only for one of the two reasons. -/
theorem spillsOnly_rolled (l : LogFile) : (l.rolled H a).SpillsOnly := by
  unfold rolled
  split
  · rintro ⟨f, hfile, hover⟩
    obtain rfl : FileUtil.opened _ = f := Option.some.inj hfile
    exact .inr ⟨hover, _, rfl, rfl, rfl⟩
  · rename_i hold
    rintro -
    refine .inl ⟨⟨a.rollNow.timeSinceEpochSeconds, l.lastRoll⟩, ?_, Int.not_lt.mp hold⟩
    exact List.getLast?_concat

theorem spillsOnly_of_room (hfile : l.file = some f) (hroom : ¬ l.rollSize < f.writtenBytes) :
    l.SpillsOnly := by
  rintro ⟨g, hg, hover⟩
  obtain rfl : f = g := Option.some.inj (hfile.symm.trans hg)
  exact absurd hover hroom

theorem SpillsOnly.flushed (h : l.SpillsOnly) (hfile : l.file = some f) :
    (l.setFile f.flush).SpillsOnly := by
  rintro ⟨g, hg, hover⟩
  obtain rfl : f.flush = g := Option.some.inj hg
  rcases h ⟨f, hfile, hover⟩ with hidle | ⟨hneg, g, hg, hzero, hnothing⟩
  · exact .inl hidle
  · obtain rfl : f = g := Option.some.inj (hfile.symm.trans hg)
    exact .inr ⟨hneg, f.flush, rfl, hzero, hnothing⟩

/-! ## Runs -/

/-- What holds of a log that was handed `records`. -/
structure Keeps (records : List (List Byte)) (l : LogFile) : Prop where
  content : ∃ p : Segmented (List Byte), l.Represents p ∧ p.records = records
  order : l.OpenedInOrder
  spills : l.SpillsOnly

theorem keeps_construct (hlate : 0 < a.rollNow.timeSinceEpochSeconds) :
    Keeps [] ((blank c).rolled H a) := by
  refine ⟨⟨.empty, ?_, rfl⟩, ?_, spillsOnly_rolled _⟩
  · have hnew : (blank c).lastRoll < a.rollNow.timeSinceEpochSeconds := hlate
    rw [rolled, if_pos hnew]
    exact ⟨rfl, _, rfl, rfl⟩
  · exact openedInOrder_of_later List.Pairwise.nil rfl (fun t ht => absurd ht List.not_mem_nil) hlate

/-- What is left of an append after its data is in the file keeps what the log has. -/
theorem keeps_append {records : List (List Byte)} {data : List Byte} (h : Keeps records l)
    (hfile : l.file = some f) (hall : ∀ k m, m ≤ a.fwrite k m)
    (hmove : AppendMove H a data l f l') : Keeps (records ++ [data]) l' := by
  obtain ⟨p, hp, hrecords⟩ := h.content
  have hfed := hp.fed hfile hall data
  have hpush : (p.push data).records = records ++ [data] := by rw [p.records_push, hrecords]
  have horder : (l.fed a data f).OpenedInOrder :=
    h.order.congr rfl (files_length_setFile hfile _) rfl
  have hcounted : (l.fed a data f).counted.OpenedInOrder := horder.congr rfl rfl rfl
  cases hmove with
  | full hfull =>
    obtain ⟨q, hq, hsame⟩ := hfed.rolled (H := H) (a := a)
    exact ⟨⟨q, hq, hsame.trans hpush⟩, horder.rolled, spillsOnly_rolled _⟩
  | day hroom hday =>
    have hsaved : (l.fed a data f).counted.Represents (p.push data) := hfed.congr rfl rfl
    obtain ⟨q, hq, hsame⟩ := hsaved.rolled (H := H) (a := a)
    exact ⟨⟨q, hq, hsame.trans hpush⟩, hcounted.rolled, spillsOnly_rolled _⟩
  | flushed hroom =>
    have hsaved : ((l.fed a data f).counted.flushedAt a.now.timeSinceEpochSeconds).Represents
        (p.push data) := hfed.congr rfl rfl
    exact ⟨⟨p.push data, hsaved.flushed rfl, hpush⟩,
      hcounted.congr rfl (files_length_setFile rfl _) rfl, spillsOnly_of_room rfl hroom⟩
  | plain hroom =>
    exact ⟨⟨p.push data, hfed.congr rfl rfl, hpush⟩, hcounted, spillsOnly_of_room rfl hroom⟩

theorem keeps_flush {records : List (List Byte)} (h : Keeps records l) (hfile : l.file = some f) :
    Keeps records (l.setFile f.flush) := by
  obtain ⟨p, hp, hrecords⟩ := h.content
  exact ⟨⟨p, hp.flushed hfile, hrecords⟩, h.order.congr rfl (files_length_setFile hfile _) rfl,
    h.spills.flushed hfile⟩

/-- **Nothing is lost, split or mixed**: read in the order in which they were made, the files hold
the bytes of the records, and each record lies in one file. -/
structure HoldsWhole (l : LogFile) (records : List (List Byte)) : Prop where
  bytes : (l.files.map (·.accepted)).flatten = records.flatten
  whole : ∃ pieces : List (List (List Byte)), pieces.flatten = records ∧
    l.files.map (·.accepted) = pieces.map List.flatten

theorem Keeps.holdsWhole {records : List (List Byte)} (h : Keeps records l) :
    l.HoldsWhole records := by
  obtain ⟨p, hp, hrecords⟩ := h.content
  refine ⟨?_, p.segments, hrecords, hp.files⟩
  rw [hp.files, ← hrecords, Segmented.records, List.flatten_flatten]

end LogFile

open LogFile

/-- What a call asks of the system is granted. -/
def LogCall.Granted : LogCall → Prop
  | .append _ a => a.Granted
  | .flush => True

/-- The process lives through the calls that return. -/
theorem step_eq_some_iff {call : LogCall} :
    (logSystem H).step l call = some l' ↔ (call.perform H).run l = .ok () l' := by
  simp only [logSystem]
  cases (call.perform H).run l with
  | ok u l₁ =>
    constructor
    · rintro ⟨⟩
      rfl
    · rintro ⟨⟩
      rfl
  | error e l₁ =>
    constructor
    · rintro ⟨⟩
    · rintro ⟨⟩

theorem append_step_iff {data : List Byte} :
    (logSystem H).step l (.append data a) = some l' ↔
      (appendUnLocked H a data).run l = .ok () l' := step_eq_some_iff

theorem flush_step (hfile : l.file = some f) :
    (logSystem H).step l .flush = some (l.setFile f.flush) := step_eq_some_iff.mpr (flush_run hfile)

theorem keeps_call {records : List (List Byte)} {call : LogCall} (h : Keeps records l)
    (hcall : call.Granted) :
    ∃ l', (logSystem H).step l call = some l' ∧ Keeps (records ++ call.appended) l' := by
  obtain ⟨p, hp, -⟩ := h.content
  obtain ⟨f, hfile, -⟩ := hp.file
  cases call with
  | append data a =>
    obtain ⟨l', hrun, hmove⟩ := appendUnLocked_run (H := H) hfile hcall.opened data
    exact ⟨l', append_step_iff.mpr hrun, keeps_append h hfile hcall.accepted hmove⟩
  | flush =>
    refine ⟨l.setFile f.flush, flush_step hfile, ?_⟩
    rw [LogCall.appended, List.append_nil]
    exact keeps_flush h hfile

/-- A run of granted calls comes to its end, whatever the clock shows. -/
theorem keeps_run {records : List (List Byte)} {calls : List LogCall} (h : Keeps records l)
    (hcalls : ∀ call ∈ calls, call.Granted) :
    ∃ l', (logSystem H).exec l calls = some l' ∧
      Keeps (records ++ calls.flatMap LogCall.appended) l' := by
  induction calls generalizing records l with
  | nil => exact ⟨l, rfl, by simpa using h⟩
  | cons call calls ih =>
    obtain ⟨l₁, hstep, h₁⟩ := keeps_call (H := H) h (hcalls call List.mem_cons_self)
    obtain ⟨l', hrun, h'⟩ := ih h₁ fun c hc => hcalls c (List.mem_cons_of_mem call hc)
    refine ⟨l', StepSystem.exec_cons.mpr ⟨l₁, hstep, hrun⟩, ?_⟩
    rw [List.flatMap_cons, ← List.append_assoc]
    exact h'

/-- **A `LogFile` rolls without losing, splitting or mixing data**, if the first reading of its clock
is later than second 0 and the system grants what it asks for.  Its files are opened in ever later
seconds, and an append finds a file that has outgrown `roll_size_` only if the last roll read a
clock that was not later than `last_roll_`, or if `roll_size_` is negative and the file is new. -/
theorem log_rolls_without_loss {l₀ : LogFile} (hnew : LogFile.construct B H c a = .ok l₀)
    (hlate : 0 < a.rollNow.timeSinceEpochSeconds) {calls : List LogCall}
    (hcalls : ∀ call ∈ calls, call.Granted) :
    ∃ l, (logSystem H).exec l₀ calls = some l ∧
      l.HoldsWhole (calls.flatMap LogCall.appended) ∧ l.OpenedInOrder ∧
      ∀ before data a after l₁, calls = before ++ .append data a :: after →
        (logSystem H).exec l₀ before = some l₁ → l₁.SpillsOnly := by
  obtain ⟨-, -, rfl⟩ := construct_ok_iff.mp hnew
  have hstart : Keeps [] ((blank c).rolled H a) := keeps_construct hlate
  obtain ⟨l, hrun, h⟩ := keeps_run (H := H) hstart hcalls
  rw [List.nil_append] at h
  refine ⟨l, hrun, h.holdsWhole, h.order, ?_⟩
  rintro before data a' after l₁ rfl hbefore
  obtain ⟨l₂, hrun₂, h₂⟩ := keeps_run (H := H) hstart fun call hcall =>
    hcalls call (List.mem_append_left _ hcall)
  rw [hbefore] at hrun₂
  obtain rfl := Option.some.inj hrun₂
  exact h₂.spills

/-- Second `second` of a clock, and a system that grants everything. -/
def grantedAt (second : Int) : Answers where
  now := ⟨second * kNanoSecondsPerSecond⟩
  rollNow := ⟨second * kNanoSecondsPerSecond⟩
  fopen := true
  fwrite := fun _ m => m

/-- The process of the runs below. -/
def someHost : Host where
  hostName := "host"
  pid := "1"
  localtime := fun _ => ⟨100, 0, 1, 0, 0, 0⟩

theorem grantedAt_granted (second : Int) : (grantedAt second).Granted :=
  ⟨rfl, fun _ m => Nat.le_refl m⟩

/-- A system that grants everything lets the constructor return. -/
theorem construct_granted {B : Build} {c : LogConfig} (second : Int)
    (hname : '/' ∉ c.baseName.toList) :
    LogFile.construct B someHost c (grantedAt second) =
      .ok ((blank c).rolled someHost (grantedAt second)) :=
  construct_ok_iff.mpr ⟨fun _ => hname, fun _ => rfl, rfl⟩

/-- Three records and a flush, while the clock is set back from second 7 and comes again. -/
def someCalls : List LogCall :=
  [.append [1, 2] (grantedAt 5), .append [3] (grantedAt 9), .flush, .append [] (grantedAt 9)]

theorem someCalls_granted : ∀ call ∈ someCalls, call.Granted := by
  simp [someCalls, LogCall.Granted, grantedAt_granted]

theorem log_rolls_without_loss_three :
    ∃ l₀ l, LogFile.construct .debug someHost { baseName := "log", rollSize := 1 } (grantedAt 7) =
        .ok l₀ ∧
      (logSystem someHost).exec l₀ someCalls = some l ∧ l.HoldsWhole [[1, 2], [3], []] ∧
      l.OpenedInOrder ∧
      ∀ before data a after l₁, someCalls = before ++ .append data a :: after →
        (logSystem someHost).exec l₀ before = some l₁ → l₁.SpillsOnly := by
  have hnew := construct_granted (B := .debug) (c := { baseName := "log", rollSize := 1 }) 7
    (by decide +kernel)
  obtain ⟨l, h⟩ := log_rolls_without_loss hnew (by decide +kernel) someCalls_granted
  exact ⟨_, l, hnew, h⟩

/-- With a negative `roll_size_` the constructor's roll leaves a file that is too large already, and
the first append goes to it. -/
theorem new_file_too_large :
    ∃ l₀ l₁, LogFile.construct .debug someHost { baseName := "log", rollSize := -1 } (grantedAt 7) =
        .ok l₀ ∧
      (logSystem someHost).step l₀ (.append [1] (grantedAt 7)) = some l₁ ∧
      l₀.Overfull ∧ ¬ l₀.LastRollIdle := by
  have hnew := construct_granted (B := .debug) (c := { baseName := "log", rollSize := -1 }) 7
    (by decide +kernel)
  have hstart : Keeps [] _ := keeps_construct (c := { baseName := "log", rollSize := -1 })
    (H := someHost) (a := grantedAt 7) (by decide +kernel)
  have hcall : (LogCall.append [1] (grantedAt 7)).Granted := grantedAt_granted 7
  obtain ⟨l₁, hstep, -⟩ := keeps_call (H := someHost) hstart hcall
  refine ⟨_, l₁, hnew, hstep, ⟨_, rfl, by decide⟩, ?_⟩
  rintro ⟨t, ht, hle⟩
  obtain rfl : ⟨7, 0⟩ = t := Option.some.inj ht
  exact absurd hle (by decide)

end TurboNet.Logger
