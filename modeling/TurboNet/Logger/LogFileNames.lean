/-
# TurboNet.Logger.LogFileNames — the names of the files of one log.

`GetLogFileName` puts the second of the roll, in local time, between the base name and the host name.
The format is one of `TurboNet.Lib.FixedWidth`, so that names are ordered like the local times in
them.  A second never comes twice (`OpenedInOrder`), but a local time does where clocks are set back
in autumn: then a roll may come to the name of an earlier file, which `fopen` opens to append.
-/
import Mathlib.Data.String.Basic
import TurboNet.Lib.FixedWidth
import TurboNet.Logger.LogChecks

namespace TurboNet.Logger

open TurboNet.Lib
open TurboNet.Base

/-! ## Local times -/

/-- The six numbers that are printed. -/
def fieldsOf (tm : Tm) : List Nat :=
  [(tm.year + 1900).toNat, (tm.mon + 1).toNat, tm.mday.toNat, tm.hour.toNat, tm.min.toNat,
    tm.sec.toNat]

/-- The members are in their ranges, and the year has four digits. -/
structure InRange (tm : Tm) : Prop where
  year : 1000 ≤ tm.year + 1900 ∧ tm.year + 1900 < 10000
  mon : 0 ≤ tm.mon ∧ tm.mon < 12
  mday : 0 < tm.mday ∧ tm.mday < 32
  hour : 0 ≤ tm.hour ∧ tm.hour < 24
  min : 0 ≤ tm.min ∧ tm.min < 60
  sec : 0 ≤ tm.sec ∧ tm.sec < 61

/-- The local time `s` is before `t`. -/
def Before (s t : Tm) : Prop := List.Lex (· < ·) (fieldsOf s) (fieldsOf t)

instance (s t : Tm) : Decidable (Before s t) :=
  inferInstanceAs (Decidable (List.Lex (· < ·) (fieldsOf s) (fieldsOf t)))

/-- `"%4d-%02d-%02d %02d:%02d:%02d"`, and what stands behind it. -/
def timeFormat (behind : List Char) : List (Nat × List Char) :=
  [(4, ['-']), (2, ['-']), (2, [' ']), (2, [':']), (2, [':']), (2, behind)]

theorem fits_fieldsOf {tm : Tm} (h : InRange tm) (behind : List Char) :
    Fits 10 (timeFormat behind) (fieldsOf tm) := by
  obtain ⟨hyear, hmon, hmday, hhour, hmin, hsec⟩ := h
  refine .cons ?_ (.cons ?_ (.cons ?_ (.cons ?_ (.cons ?_ (.cons ?_ .nil)))))
  all_goals
    simp only [Nat.reducePow]
    omega

theorem ordered_digitChar : Ordered (· < ·) 10 Nat.digitChar := by
  intro c hc d hd
  have hall : ∀ i j : Fin 10, i.val.digitChar < j.val.digitChar ↔ i.val < j.val := by decide
  exact hall ⟨c, hc⟩ ⟨d, hd⟩

theorem toList_toString_of_nonneg {v : Int} (h : 0 ≤ v) :
    (toString v).toList = Nat.toDigits 10 v.toNat := by
  rw [Int.toString_eq_repr, Int.repr_eq_if, if_pos h, Nat.toList_repr]

/-- Zeros in front. -/
theorem toList_printInt_zero {width : Nat} {v : Int} (hwidth : 0 < width) (hnonneg : 0 ≤ v)
    (hfits : v.toNat < 10 ^ width) :
    (printInt '0' width v).toList = (fixedDigits 10 width v.toNat).map Nat.digitChar := by
  unfold printInt
  rw [String.toList_append, toList_pushn, ← String.length_toList, toList_toString_of_nonneg hnonneg]
  exact padded_toDigits (by decide) hwidth hfits

/-- A year of four digits needs no blanks. -/
theorem toList_printInt_year {fill : Char} {v : Int} (hlow : 1000 ≤ v) (hhigh : v < 10000) :
    (printInt fill 4 v).toList = (fixedDigits 10 4 v.toNat).map Nat.digitChar := by
  have hnonneg : 0 ≤ v := by omega
  have hlength : (Nat.toDigits 10 v.toNat).length = 4 := by
    have hupper : (Nat.toDigits 10 v.toNat).length ≤ 4 :=
      (Nat.length_toDigits_le_iff (by decide) (by decide)).mpr (by simp only [Nat.reducePow]; omega)
    have hlower : ¬ (Nat.toDigits 10 v.toNat).length ≤ 3 := by
      rw [Nat.length_toDigits_le_iff (by decide) (by decide)]
      simp only [Nat.reducePow]
      omega
    omega
  have hpadded : List.replicate (4 - (Nat.toDigits 10 v.toNat).length) '0' ++
      Nat.toDigits 10 v.toNat = (fixedDigits 10 4 v.toNat).map Nat.digitChar := by
    refine padded_toDigits (by decide) (by decide) ?_
    simp only [Nat.reducePow]
    omega
  rw [hlength, Nat.sub_self, List.replicate_zero, List.nil_append] at hpadded
  unfold printInt
  rw [String.toList_append, toList_pushn, ← String.length_toList, toList_toString_of_nonneg hnonneg,
    hlength, Nat.sub_self, List.replicate_zero, List.nil_append, hpadded]

theorem toList_print_append {tm : Tm} (h : InRange tm) (behind : String) :
    (tm.print ++ behind).toList =
      fixedText 10 Nat.digitChar (timeFormat behind.toList) (fieldsOf tm) := by
  obtain ⟨hyear, hmon, hmday, hhour, hmin, hsec⟩ := h
  have two : ∀ {v : Int}, 0 ≤ v → v < 100 →
      (printInt '0' 2 v).toList = (fixedDigits 10 2 v.toNat).map Nat.digitChar := by
    intro v hnonneg hv
    refine toList_printInt_zero (by decide) hnonneg ?_
    simp only [Nat.reducePow]
    omega
  unfold Tm.print
  simp only [String.toList_append]
  rw [toList_printInt_year hyear.1 hyear.2, two (by omega) (by omega), two (by omega) (by omega),
    two (by omega) (by omega), two (by omega) (by omega), two (by omega) (by omega)]
  simp [fixedText, timeFormat, fieldsOf]

/-- The six numbers tell the local time. -/
theorem fieldsOf_inj {s t : Tm} (hs : InRange s) (ht : InRange t)
    (h : fieldsOf s = fieldsOf t) : s = t := by
  obtain ⟨hyear, hmon, hmday, hhour, hmin, hsec⟩ := hs
  obtain ⟨hyear', hmon', hmday', hhour', hmin', hsec'⟩ := ht
  simp only [fieldsOf, List.cons.injEq, and_true] at h
  obtain ⟨h₁, h₂, h₃, h₄, h₅, h₆⟩ := h
  rw [Tm.mk.injEq]
  omega

/-! ## Names -/

/-- The name of a file that is opened in the second `second`. -/
def nameAt (H : Host) (baseName : String) (second : Int) : String :=
  baseName ++ (H.localtime second).print ++ H.hostName ++ H.pid ++ ".log"

theorem getLogFileName_eq (H : Host) (now : Timestamp) (l : LogFile) :
    l.getLogFileName H now = nameAt H l.baseName now.timeSinceEpochSeconds := rfl

theorem toList_nameAt {H : Host} {second : Int} (h : InRange (H.localtime second))
    (baseName : String) :
    (nameAt H baseName second).toList = baseName.toList ++
      fixedText 10 Nat.digitChar (timeFormat (H.hostName ++ H.pid ++ ".log").toList)
        (fieldsOf (H.localtime second)) := by
  have hassoc : nameAt H baseName second =
      baseName ++ ((H.localtime second).print ++ (H.hostName ++ H.pid ++ ".log")) := by
    simp only [nameAt, String.append_assoc]
  rw [hassoc, String.toList_append, toList_print_append h]

/-- **Names are ordered like local times.** -/
theorem nameAt_lt_iff {H : Host} {s t : Int} (hs : InRange (H.localtime s))
    (ht : InRange (H.localtime t)) (baseName : String) :
    nameAt H baseName s < nameAt H baseName t ↔ Before (H.localtime s) (H.localtime t) := by
  have hlex : nameAt H baseName s < nameAt H baseName t ↔
      List.Lex (· < ·) (nameAt H baseName s).toList (nameAt H baseName t).toList := Iff.rfl
  rw [hlex, toList_nameAt hs, toList_nameAt ht, lex_append_left_iff,
    lex_fixedText_iff ordered_digitChar (fits_fieldsOf hs _) (fits_fieldsOf ht _), Before]

theorem nameAt_inj {H : Host} {s t : Int} (hs : InRange (H.localtime s))
    (ht : InRange (H.localtime t)) (baseName : String) :
    nameAt H baseName s = nameAt H baseName t ↔ H.localtime s = H.localtime t := by
  constructor
  · intro h
    have htext := congrArg String.toList h
    rw [toList_nameAt hs, toList_nameAt ht, List.append_cancel_left_eq] at htext
    exact fieldsOf_inj hs ht
      (fixedText_inj ordered_digitChar (fits_fieldsOf hs _) (fits_fieldsOf ht _) htext)
  · intro h
    rw [nameAt, nameAt, h]

/-! ## The files of a log -/

variable {B : Build} {H : Host} {a : Answers} {c : LogConfig} {l l' : LogFile} {f : FileUtil}
  {baseName : String}

namespace FileUtil

theorem writeRest_fileName (fwrite : Nat → Nat → Nat) (k : Nat) (f : FileUtil)
    (rest : List Byte) : (writeRest fwrite k f rest).fileName = f.fileName := by
  fun_induction writeRest fwrite k f rest with
  | case1 => rfl
  | case2 k f rest hremain x hx ih => exact ih
  | case3 => rfl

theorem append_fileName (fwrite : Nat → Nat → Nat) (data : List Byte) (f : FileUtil) :
    (f.append fwrite data).fileName = f.fileName :=
  writeRest_fileName fwrite 1 _ _

end FileUtil

namespace LogFile

/-- The names of the files, oldest first. -/
def fileNames (l : LogFile) : List String := l.files.map (·.fileName)

/-- Each file is named after the second in which it was opened. -/
structure Named (H : Host) (baseName : String) (l : LogFile) : Prop where
  base : l.baseName = baseName
  names : l.fileNames = l.openings.map (nameAt H baseName)

theorem fileNames_setFile (hfile : l.file = some f) {f' : FileUtil} (h : f'.fileName = f.fileName) :
    (l.setFile f').fileNames = l.fileNames := by
  simp only [fileNames, files, setFile, hfile, Option.toList_some, List.map_append, List.map_cons,
    List.map_nil, h]

theorem fileNames_replaceFile (l : LogFile) (f : FileUtil) :
    (l.replaceFile f).fileNames = l.fileNames ++ [f.fileName] := by
  have hdestroyed : (fun f : FileUtil => f.destroy.fileName) = (·.fileName) := rfl
  simp only [fileNames, files, replaceFile, Option.toList_some, List.map_append, List.map_map,
    Function.comp_def, hdestroyed, List.map_cons, List.map_nil]

theorem Named.congr (h : Named H baseName l) (hbase : l'.baseName = l.baseName)
    (hattempts : l'.attempts = l.attempts) (hnames : l'.fileNames = l.fileNames) :
    Named H baseName l' := by
  have hopenings : l'.openings = l.openings := by rw [openings, hattempts, openings]
  exact ⟨hbase.trans h.base, by rw [hnames, hopenings, h.names]⟩

/-- A roll names its file after the second that becomes `last_roll_`. -/
theorem Named.rolled (h : Named H baseName l) : Named H baseName (l.rolled H a) := by
  have hopenings := l.openings_attempted a.rollNow.timeSinceEpochSeconds
  refine ⟨(congrArg LogConfig.baseName (rolled_config l)).trans h.base, ?_⟩
  by_cases hnew : l.lastRoll < a.rollNow.timeSinceEpochSeconds
  · rw [if_pos hnew] at hopenings
    rw [LogFile.rolled, if_pos hnew, fileNames_replaceFile]
    show l.fileNames ++ _ = (l.attempted a.rollNow.timeSinceEpochSeconds).openings.map _
    rw [hopenings, List.map_append, h.names, ← h.base]
    rfl
  · rw [if_neg hnew, List.append_nil] at hopenings
    rw [LogFile.rolled, if_neg hnew, hopenings]
    exact h.names

theorem Named.append {data : List Byte} (h : Named H baseName l) (hfile : l.file = some f)
    (hmove : AppendMove H a data l f l') : Named H baseName l' := by
  have hfed : Named H baseName (l.fed a data f) :=
    h.congr rfl rfl (fileNames_setFile hfile (FileUtil.append_fileName _ _ _))
  have hcounted : Named H baseName (l.fed a data f).counted := hfed.congr rfl rfl rfl
  cases hmove with
  | full => exact hfed.rolled
  | day => exact hcounted.rolled
  | flushed =>
    have hstamped : Named H baseName
        ((l.fed a data f).counted.flushedAt a.now.timeSinceEpochSeconds) := hcounted.congr rfl rfl rfl
    exact hstamped.congr rfl rfl (fileNames_setFile (f := f.append a.fwrite data) rfl rfl)
  | plain => exact hcounted

theorem named_construct (hnew : LogFile.construct B H c a = .ok l) : Named H c.baseName l := by
  obtain ⟨-, -, rfl⟩ := construct_ok_iff.mp hnew
  have hblank : Named H c.baseName (blank c) := ⟨rfl, rfl⟩
  exact hblank.rolled

end LogFile

open LogFile

theorem named_step {call : LogCall} (h : Named H baseName l)
    (hstep : (logSystem H).step l call = some l') : Named H baseName l' := by
  obtain ⟨f, hfile⟩ := step_hasFile hstep
  cases call with
  | append data a => exact h.append hfile (appendMove_of_ok hfile (append_step_iff.mp hstep))
  | flush =>
    rw [flush_step hfile] at hstep
    obtain rfl := Option.some.inj hstep
    exact h.congr rfl rfl (fileNames_setFile hfile rfl)

theorem named_run {calls : List LogCall} (h : Named H baseName l)
    (hrun : (logSystem H).exec l calls = some l') : Named H baseName l' :=
  StepSystem.exec_invariant (fun _ _ _ h hstep => named_step h hstep) h hrun

/-- **Names tell the local times of the rolls**, in every run, whatever `fwrite` accepts.  Where the
local times have members in range, they are ordered as these are; two files have one name only if they
were opened at one local time, in different seconds. -/
theorem fileNames_tell_localtime {l₀ : LogFile} (hnew : LogFile.construct B H c a = .ok l₀)
    {calls : List LogCall} (hrun : (logSystem H).exec l₀ calls = some l) :
    l.fileNames = l.openings.map (nameAt H c.baseName) ∧
      ((∀ t ∈ l.openings, InRange (H.localtime t)) →
        (l.fileNames.Pairwise (· < ·) ↔ (l.openings.map H.localtime).Pairwise Before) ∧
        (l.fileNames.Nodup ↔ (l.openings.map H.localtime).Nodup)) := by
  have hnames := (named_run (named_construct hnew) hrun).names
  refine ⟨hnames, fun hrange => ⟨?_, ?_⟩⟩
  · rw [hnames, List.pairwise_map, List.pairwise_map]
    exact List.Pairwise.iff_of_mem fun hs ht => nameAt_lt_iff (hrange _ hs) (hrange _ ht) _
  · rw [hnames, List.Nodup, List.Nodup, List.pairwise_map, List.pairwise_map]
    exact List.Pairwise.iff_of_mem fun hs ht =>
      not_congr (nameAt_inj (hrange _ hs) (hrange _ ht) _)

/-- The seconds of one minute. -/
def minuteHost : Host where
  hostName := "host"
  pid := "1"
  localtime := fun second => ⟨126, 0, 1, 0, 0, second % 60⟩

theorem inRange_minuteHost (second : Int) : InRange (minuteHost.localtime second) := by
  refine ⟨?_, ?_, ?_, ?_, ?_, ?_⟩
  all_goals
    simp only [minuteHost]
    omega

/-- The first file of a small log, opened in second 7. -/
def firstFile : LogFile :=
  (blank { baseName := "log", rollSize := 1 }).rolled minuteHost (grantedAt 7)

/-- After an append that filled it, in second 9. -/
def secondFile : LogFile :=
  (firstFile.fed (grantedAt 9) [1, 2]
    (FileUtil.opened (nameAt minuteHost "log" 7))).rolled minuteHost (grantedAt 9)

theorem construct_firstFile :
    LogFile.construct .debug minuteHost { baseName := "log", rollSize := 1 } (grantedAt 7) =
      .ok firstFile :=
  construct_ok_iff.mpr ⟨fun _ => by decide +kernel, fun _ => rfl, rfl⟩

theorem exec_secondFile :
    (logSystem minuteHost).exec firstFile [.append [1, 2] (grantedAt 9)] = some secondFile := by
  have hfile : firstFile.file = some (FileUtil.opened (nameAt minuteHost "log" 7)) := rfl
  have hfull : firstFile.rollSize <
      ((FileUtil.opened (nameAt minuteHost "log" 7)).append (grantedAt 9).fwrite
        [1, 2]).writtenBytes := by
    rw [FileUtil.append_writtenBytes]
    decide +kernel
  refine StepSystem.exec_cons.mpr ⟨secondFile, append_step_iff.mpr ?_, rfl⟩
  rw [appendUnLocked_run_eq hfile, if_pos hfull, rollFile_run fun _ => rfl]
  rfl

theorem openings_secondFile : secondFile.openings = [7, 9] := by decide +kernel

theorem fileNames_tell_localtime_two :
    secondFile.fileNames = [nameAt minuteHost "log" 7, nameAt minuteHost "log" 9] ∧
      (secondFile.fileNames.Pairwise (· < ·) ↔
        ([7, 9].map minuteHost.localtime).Pairwise Before) ∧
      (secondFile.fileNames.Nodup ↔ ([7, 9].map minuteHost.localtime).Nodup) := by
  obtain ⟨hnames, htell⟩ := fileNames_tell_localtime construct_firstFile exec_secondFile
  obtain ⟨hordered, hdistinct⟩ := htell fun t _ => inRange_minuteHost t
  rw [openings_secondFile] at hnames hordered hdistinct
  exact ⟨hnames, hordered, hdistinct⟩

/-! ## The directory -/

/-- What the log has put under a name, once its files are closed: `fopen` opens them to append. -/
def LogFile.onDisk (l : LogFile) (fileName : String) : List Byte :=
  (l.files.filter fun f => f.fileName = fileName).flatMap (·.accepted)

/-- **The directory reads like the log.** If the system grants what the log asks for and the local
time never goes back between two rolls, the files read in the order of their names hold the records
in the order of the appends.  Files of one name hold what one file would. -/
theorem directory_reads_log {l₀ : LogFile} (hnew : LogFile.construct B H c a = .ok l₀)
    (hlate : 0 < a.rollNow.timeSinceEpochSeconds) {calls : List LogCall}
    (hcalls : ∀ call ∈ calls, call.Granted) (hrun : (logSystem H).exec l₀ calls = some l)
    (hrange : ∀ t ∈ l.openings, InRange (H.localtime t))
    (hclock : (l.openings.map H.localtime).Pairwise fun s t => ¬ Before t s) {names : List String}
    (hsorted : names.Pairwise (· < ·)) (hnames : ∀ name, name ∈ names ↔ name ∈ l.fileNames) :
    names.flatMap l.onDisk = (calls.flatMap LogCall.appended).flatten := by
  have hnamed := named_run (named_construct hnew) hrun
  obtain ⟨-, -, rfl⟩ := construct_ok_iff.mp hnew
  obtain ⟨l', hrun', hkeeps⟩ := keeps_run (H := H) (keeps_construct (c := c) (a := a) hlate) hcalls
  obtain rfl : l = l' := Option.some.inj (hrun.symm.trans hrun')
  have hsteady : l.files.Pairwise fun f g => ¬ g.fileName < f.fileName := by
    have hnever : l.fileNames.Pairwise fun m n => ¬ n < m := by
      rw [hnamed.names, List.pairwise_map]
      rw [List.pairwise_map] at hclock
      exact hclock.imp_of_mem fun hs ht hnot =>
        fun hless => hnot ((nameAt_lt_iff (hrange _ ht) (hrange _ hs) _).mp hless)
    rwa [LogFile.fileNames, List.pairwise_map] at hnever
  have hgroups := flatMap_groups (r := (· < ·)) hsteady hsorted fun f hf =>
    (hnames f.fileName).mpr (List.mem_map_of_mem hf)
  calc names.flatMap l.onDisk
      = (names.flatMap fun name => l.files.filter fun f => f.fileName = name).flatMap
          (·.accepted) := List.flatMap_assoc.symm
    _ = (l.files.map (·.accepted)).flatten := by rw [hgroups, List.flatMap_def]
    _ = (calls.flatMap LogCall.appended).flatten := hkeeps.holdsWhole.bytes

theorem directory_reads_log_two :
    [nameAt minuteHost "log" 7, nameAt minuteHost "log" 9].flatMap secondFile.onDisk = [1, 2] := by
  have hnames : secondFile.fileNames = [nameAt minuteHost "log" 7, nameAt minuteHost "log" 9] := by
    rw [(named_run (named_construct construct_firstFile) exec_secondFile).names,
      openings_secondFile]
    rfl
  refine directory_reads_log construct_firstFile (by decide +kernel) ?_ exec_secondFile
    (fun t _ => inRange_minuteHost t) ?_ ?_ ?_
  · intro call hcall
    rw [List.mem_singleton.mp hcall]
    exact grantedAt_granted 9
  · rw [openings_secondFile]
    decide +kernel
  · have hless : nameAt minuteHost "log" 7 < nameAt minuteHost "log" 9 :=
      (nameAt_lt_iff (inRange_minuteHost 7) (inRange_minuteHost 9) "log").mpr (by decide +kernel)
    exact List.pairwise_pair.mpr hless
  · intro name
    rw [hnames]

end TurboNet.Logger
