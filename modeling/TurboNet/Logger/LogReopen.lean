/-
# TurboNet.Logger.LogReopen — rolls whose `fopen` fails.

`RollFile` stamps the log with the new second before it makes the `FileUtil`, and `FileUtil` hands
what `fopen` gave it to `setbuffer` as it is.  A log goes on exactly as long as every call that needs
a new file gets one.
-/
import TurboNet.Logger.LogRolling

namespace TurboNet.Logger

open TurboNet.Lib
open TurboNet.Base

variable {B : Build} {H : Host} {a : Answers} {c : LogConfig} {l l' : LogFile} {f : FileUtil}

namespace LogFile

/-! ## Calls that need a file -/

/-- With `data` the file `f` is larger than `roll_size_`. -/
def Outgrows (l : LogFile) (f : FileUtil) (data : List Byte) : Prop :=
  l.rollSize < swrap 64 (f.writtenBytes + swrap 64 data.length)

/-- The append calls `RollFile`: it outgrows the file, or the periodic check finds a new day. -/
def CallsRollFile (l : LogFile) (f : FileUtil) (data : List Byte) (a : Answers) : Prop :=
  l.Outgrows f data ∨
    l.checkEveryN ≤ swrap 32 (l.count + 1) ∧ l.startPeriod < a.now.timeSinceEpochDays

/-- The append has to open a file. -/
def NeedsFile (l : LogFile) (data : List Byte) (a : Answers) : Prop :=
  ∃ f ∈ l.file, l.CallsRollFile f data a ∧ l.lastRoll < a.rollNow.timeSinceEpochSeconds

instance decidableOutgrows (data : List Byte) : Decidable (l.Outgrows f data) :=
  inferInstanceAs (Decidable (l.rollSize < swrap 64 (f.writtenBytes + swrap 64 data.length)))

instance decidableCallsRollFile (data : List Byte) : Decidable (l.CallsRollFile f data a) :=
  inferInstanceAs (Decidable (l.Outgrows f data ∨
    l.checkEveryN ≤ swrap 32 (l.count + 1) ∧ l.startPeriod < a.now.timeSinceEpochDays))

/-- The call gets the file it needs. -/
def GetsFile (l : LogFile) : LogCall → Prop
  | .append data a => l.NeedsFile data a → a.fopen = true
  | .flush => True

theorem outgrows_iff {data : List Byte} :
    l.Outgrows f data ↔ l.rollSize < (f.append a.fwrite data).writtenBytes := by
  rw [FileUtil.append_writtenBytes, Outgrows]

/-- An append whose `RollFile` is called comes down to it. -/
theorem appendUnLocked_run_rolls {data : List Byte} (hfile : l.file = some f)
    (hrolls : l.CallsRollFile f data a) :
    (appendUnLocked H a data).run l = (rollFile H a).run
      (if l.Outgrows f data then l.fed a data f else (l.fed a data f).counted) := by
  rw [appendUnLocked_run_eq hfile]
  by_cases hfull : l.Outgrows f data
  · rw [if_pos (outgrows_iff.mp hfull), if_pos hfull]
  · obtain ⟨hcheck, hday⟩ := hrolls.resolve_left hfull
    have hcounted : (l.fed a data f).counted.checkEveryN ≤ (l.fed a data f).counted.count := hcheck
    have hlater : (l.fed a data f).counted.startPeriod < a.now.timeSinceEpochDays := hday
    rw [if_neg (mt outgrows_iff.mpr hfull), if_neg hfull, periodicCheck_run_eq, if_pos hcounted,
      if_pos hlater]

/-- **An append that does not get the file it needs** hands a null pointer to `setbuffer`, when its
data is in the old file and the log bears the new second. -/
theorem appendUnLocked_run_closed {data : List Byte} (hneeds : l.NeedsFile data a)
    (hclosed : a.fopen = false) :
    ∃ f l', l.file = some f ∧ l'.file = some (f.append a.fwrite data) ∧
      l'.lastRoll = a.rollNow.timeSinceEpochSeconds ∧
      (appendUnLocked H a data).run l = .error (.undefined "setbuffer on a null FILE") l' := by
  obtain ⟨f, hfile, hrolls, hnew⟩ := hneeds
  refine ⟨f, (((if l.Outgrows f data then l.fed a data f else
    (l.fed a data f).counted).attempted a.rollNow.timeSinceEpochSeconds).stamped a.rollNow), hfile,
    ?_, rfl, ?_⟩
  · split
    · rfl
    · rfl
  · rw [appendUnLocked_run_rolls hfile hrolls]
    apply rollFile_run_closed ?_ hclosed
    split
    · exact hnew
    · exact hnew

/-- **An append that gets the file it needs** returns, and leaves a file in use. -/
theorem appendUnLocked_run_gets {data : List Byte} (hfile : l.file = some f)
    (hgets : l.NeedsFile data a → a.fopen = true) :
    ∃ l', (appendUnLocked H a data).run l = .ok () l' := by
  by_cases hrolls : l.CallsRollFile f data a
  · refine ⟨_, (appendUnLocked_run_rolls hfile hrolls).trans (rollFile_run fun hnew => ?_)⟩
    apply hgets
    refine ⟨f, hfile, hrolls, ?_⟩
    split at hnew
    · exact hnew
    · exact hnew
  · have hroom : ¬ l.rollSize < (f.append a.fwrite data).writtenBytes := fun hfull =>
      hrolls (.inl (outgrows_iff.mpr hfull))
    rw [appendUnLocked_run_eq hfile, if_neg hroom, periodicCheck_run_eq]
    split
    · rename_i hcheck
      have hday : ¬ (l.fed a data f).counted.startPeriod < a.now.timeSinceEpochDays := fun hday =>
        hrolls (.inr ⟨hcheck, hday⟩)
      rw [if_neg hday]
      split
      · exact ⟨_, flush_run rfl⟩
      · exact ⟨_, rfl⟩
    · exact ⟨_, rfl⟩

/-! ## Runs -/

theorem file_rolled (hfile : l.file = some f) : ∃ f', (l.rolled H a).file = some f' := by
  unfold rolled
  split
  · exact ⟨_, rfl⟩
  · exact ⟨f, hfile⟩

/-- The log has a file. -/
def HasFile (l : LogFile) : Prop := ∃ f, l.file = some f

theorem AppendMove.hasFile {data : List Byte} (h : AppendMove H a data l f l') : l'.HasFile := by
  cases h with
  | full => exact file_rolled (f := f.append a.fwrite data) rfl
  | day => exact file_rolled (f := f.append a.fwrite data) rfl
  | flushed => exact ⟨_, rfl⟩
  | plain => exact ⟨_, rfl⟩

end LogFile

open LogFile

theorem hasFile_step {call : LogCall} (h : l.HasFile)
    (hstep : (logSystem H).step l call = some l') : l'.HasFile := by
  obtain ⟨f, hfile⟩ := h
  cases call with
  | append data a => exact (appendMove_of_ok hfile (append_step_iff.mp hstep)).hasFile
  | flush =>
    rw [flush_step hfile] at hstep
    cases hstep
    exact ⟨_, rfl⟩

/-- A call returns exactly when it gets the file it needs. -/
theorem call_returns_iff {call : LogCall} (h : l.HasFile) :
    (∃ l', (logSystem H).step l call = some l') ↔ l.GetsFile call := by
  obtain ⟨f, hfile⟩ := h
  cases call with
  | append data a =>
    constructor
    · rintro ⟨l', hstep⟩ hneeds
      by_contra hclosed
      obtain ⟨f', l₁, -, -, -, herror⟩ := appendUnLocked_run_closed (H := H) hneeds
        (Bool.eq_false_iff.mpr hclosed)
      rw [append_step_iff, herror] at hstep
      cases hstep
    · intro hgets
      obtain ⟨l', hrun⟩ := appendUnLocked_run_gets (H := H) hfile hgets
      exact ⟨l', append_step_iff.mpr hrun⟩
  | flush => exact ⟨fun _ => trivial, fun _ => ⟨_, flush_step hfile⟩⟩

theorem step_of_error {call : LogCall} {e : Halt} (h : (call.perform H).run l = .error e l') :
    (logSystem H).step l call = none := by
  rw [Option.eq_none_iff_forall_ne_some]
  intro l₁ hstep
  rw [step_eq_some_iff, h] at hstep
  cases hstep

/-- The state a call is left in by a null `FILE`, if it is left by one. -/
def LogCall.LeftByNull (H : Host) (call : LogCall) (l l' : LogFile) : Prop :=
  (call.perform H).run l = .error (.undefined "setbuffer on a null FILE") l'

/-- The calls of a run are not broken by a file that cannot be opened. -/
structure LogFile.Survives (H : Host) (l₀ : LogFile) (calls : List LogCall) : Prop where
  /-- No stdio function is handed a null `FILE`. -/
  noNull : ∀ before call after l l', calls = before ++ call :: after →
    (logSystem H).exec l₀ before = some l → ¬ call.LeftByNull H l l'
  /-- A roll whose `fopen` fails leaves the file in use. -/
  kept : ∀ before data a after l f, calls = before ++ .append data a :: after →
    (logSystem H).exec l₀ before = some l → l.NeedsFile data a → a.fopen = false →
    l.file = some f → ∃ l', (logSystem H).step l (.append data a) = some l' ∧
      l'.file = some (f.append a.fwrite data) ∧ l'.past = l.past
  /-- Every call is reached, and finds an open file. -/
  reached : ∀ before call after, calls = before ++ call :: after →
    ∃ l, (logSystem H).exec l₀ before = some l ∧ l.HasFile

/-- **Logging survives exactly the runs in which every call that needs a new file gets it.** -/
theorem survives_iff {l₀ : LogFile} (hfirst : l₀.HasFile) (calls : List LogCall) :
    l₀.Survives H calls ↔ (logSystem H).Along GetsFile l₀ calls := by
  constructor
  · intro h
    by_contra hnot
    obtain ⟨before, call, after, l, hsplit, hbefore, -, hcall⟩ :=
      StepSystem.exists_before_not_along hnot
    cases call with
    | append data a =>
      obtain ⟨hneeds, hclosed⟩ := Classical.not_imp.mp hcall
      obtain ⟨f, l', -, -, -, herror⟩ := appendUnLocked_run_closed (H := H) hneeds
        (Bool.eq_false_iff.mpr hclosed)
      exact h.noNull before _ after l l' hsplit hbefore herror
    | flush => exact hcall trivial
  · intro h
    have hgoes : ∀ before call after, calls = before ++ call :: after →
        ∃ l, (logSystem H).exec l₀ before = some l ∧ l.HasFile ∧ l.GetsFile call := by
      rintro before call after rfl
      have hprefix : (logSystem H).Along GetsFile l₀ before := StepSystem.along_append_left h
      obtain ⟨l, hrun, hfile⟩ := StepSystem.exec_progress (I := LogFile.HasFile)
        (fun l call hfile hgets => by
          obtain ⟨l', hstep⟩ := (call_returns_iff (H := H) hfile).mpr hgets
          exact ⟨l', hstep, hasFile_step hfile hstep⟩) hfirst hprefix
      exact ⟨l, hrun, hfile, (StepSystem.along_append h hrun).2.1⟩
    refine ⟨?_, ?_, ?_⟩
    · intro before call after l l' hsplit hbefore herror
      obtain ⟨l₁, hrun, hfile, hgets⟩ := hgoes before call after hsplit
      obtain rfl : l = l₁ := Option.some.inj (hbefore.symm.trans hrun)
      obtain ⟨l₂, hstep⟩ := (call_returns_iff (H := H) hfile).mpr hgets
      rw [step_of_error herror] at hstep
      cases hstep
    · intro before data a after l f hsplit hbefore hneeds hclosed
      obtain ⟨l₁, hrun, -, hgets⟩ := hgoes before _ after hsplit
      obtain rfl : l = l₁ := Option.some.inj (hbefore.symm.trans hrun)
      rw [hgets hneeds] at hclosed
      cases hclosed
    · intro before call after hsplit
      obtain ⟨l, hrun, hfile, -⟩ := hgoes before call after hsplit
      exact ⟨l, hrun, hfile⟩

/-- The configuration of the runs below: every append with data outgrows the file. -/
def someConfig : LogConfig := { baseName := "log", rollSize := 0 }

theorem construct_someConfig :
    LogFile.construct .debug someHost someConfig (grantedAt 7) =
      .ok ((blank someConfig).rolled someHost (grantedAt 7)) :=
  construct_granted 7 (by decide +kernel)

theorem survives_three :
    ∃ l₀, LogFile.construct .debug someHost someConfig (grantedAt 7) = .ok l₀ ∧
      l₀.Survives someHost someCalls := by
  refine ⟨_, construct_someConfig, (survives_iff ⟨_, rfl⟩ someCalls).mpr ?_⟩
  exact ⟨fun _ => rfl, fun _ _ => ⟨fun _ => rfl, fun _ _ => ⟨trivial, fun _ _ =>
    ⟨fun _ => rfl, fun _ _ => trivial⟩⟩⟩⟩

/-- Second `second` of a clock, and a system that has no descriptor left. -/
def closedAt (second : Int) : Answers := { grantedAt second with fopen := false }

/-- The second file cannot be opened: `setbuffer` gets the null pointer, and the next file would have
to wait for second 10. -/
theorem second_file_not_opened :
    ∃ l₀ l₁, LogFile.construct .debug someHost someConfig (grantedAt 7) = .ok l₀ ∧
      (LogCall.append [1, 2] (closedAt 9)).LeftByNull someHost l₀ l₁ ∧ l₁.lastRoll = 9 ∧
      ¬ l₀.Survives someHost [.append [1, 2] (closedAt 9)] := by
  have hneeds : ((blank someConfig).rolled someHost (grantedAt 7)).NeedsFile [1, 2] (closedAt 9) :=
    ⟨_, rfl, .inl (by decide), by decide +kernel⟩
  obtain ⟨f, l₁, -, -, hlast, herror⟩ := appendUnLocked_run_closed (H := someHost) hneeds rfl
  refine ⟨_, l₁, construct_someConfig, herror, hlast.trans (by decide +kernel), fun h => ?_⟩
  exact h.noNull [] _ [] _ l₁ rfl rfl herror

end TurboNet.Logger
