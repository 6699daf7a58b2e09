/-
# TurboNet.Logger.LogChecks — the periodic check of a `LogFile` and its counter.

`count_` is incremented by every append that stays within `roll_size_`, and nothing ever sets it
back: after `check_every_n_` of these appends every further one reads the clock, until there were
more of them than an `int` can count.
-/
import TurboNet.Logger.LogReopen

namespace TurboNet.Logger

open TurboNet.Lib
open TurboNet.Base

variable {B : Build} {H : Host} {a : Answers} {c : LogConfig} {l l' : LogFile} {f : FileUtil}
  {data : List Byte}

/-- `Timestamp::Now()` of the append gives `t`. -/
def Answers.at (a : Answers) (t : Timestamp) : Answers := { a with now := t }

namespace LogFile

/-! ## Reading the clock -/

/-- The append leaves the file within `roll_size_`. -/
def StaysWithin (l : LogFile) : LogCall → Prop
  | .append data _ => ∃ f ∈ l.file, ¬ l.Outgrows f data
  | .flush => False

instance decidableStaysWithin (l : LogFile) : (call : LogCall) → Decidable (l.StaysWithin call)
  | .append data _ => inferInstanceAs (Decidable (∃ f ∈ l.file, ¬ l.Outgrows f data))
  | .flush => .isFalse id

/-- The day-change test and the flush-interval test. -/
def timedTests (H : Host) (a : Answers) : Method Unit := do
  let l ← get
  let nowSeconds := a.now.timeSinceEpochSeconds
  if l.startPeriod < a.now.timeSinceEpochDays then
    rollFile H a
  else if l.flushInterval < nowSeconds - l.lastFlush then
    modify (·.flushedAt nowSeconds)
    let f ← derefFile
    modify (·.setFile f.flush)

/-- The append reads the clock, so that what it does depends on the reading, and puts it to the two
tests. -/
structure ChecksClock (H : Host) (l : LogFile) (data : List Byte) (a : Answers) : Prop where
  reads : ∃ t t', (appendUnLocked H (a.at t) data).run l ≠
    (appendUnLocked H (a.at t') data).run l
  tests : ∀ f, l.file = some f →
    (appendUnLocked H a data).run l = (timedTests H a).run (l.fed a data f).counted

theorem timedTests_run_eq :
    (timedTests H a).run l =
      if l.startPeriod < a.now.timeSinceEpochDays then (rollFile H a).run l
      else if l.flushInterval < a.now.timeSinceEpochSeconds - l.lastFlush then
        flush.run (l.flushedAt a.now.timeSinceEpochSeconds)
      else .ok () l := by
  have hrun : (timedTests H a).run l =
      (if l.startPeriod < a.now.timeSinceEpochDays then rollFile H a
      else if l.flushInterval < a.now.timeSinceEpochSeconds - l.lastFlush then do
        modify (·.flushedAt a.now.timeSinceEpochSeconds)
        flush
      else pure () : Method Unit).run l := rfl
  rw [hrun]
  repeat' split
  all_goals rfl

theorem append_run_full (hfile : l.file = some f) (hfull : l.Outgrows f data) :
    (appendUnLocked H a data).run l = (rollFile H a).run (l.fed a data f) := by
  rw [appendUnLocked_run_eq hfile, if_pos (outgrows_iff.mp hfull)]

theorem append_run_unchecked (hfile : l.file = some f) (hroom : ¬ l.Outgrows f data)
    (hearly : ¬ l.checkEveryN ≤ l.counted.count) :
    (appendUnLocked H a data).run l = .ok () (l.fed a data f).counted := by
  have hcounted : ¬ (l.fed a data f).counted.checkEveryN ≤ (l.fed a data f).counted.count := hearly
  rw [appendUnLocked_run_eq hfile, if_neg (mt outgrows_iff.mpr hroom), periodicCheck_run_eq,
    if_neg hcounted]

theorem append_run_checked (hfile : l.file = some f) (hroom : ¬ l.Outgrows f data)
    (hdue : l.checkEveryN ≤ l.counted.count) :
    (appendUnLocked H a data).run l = (timedTests H a).run (l.fed a data f).counted := by
  have hcounted : (l.fed a data f).counted.checkEveryN ≤ (l.fed a data f).counted.count := hdue
  rw [appendUnLocked_run_eq hfile, if_neg (mt outgrows_iff.mpr hroom), periodicCheck_run_eq,
    if_pos hcounted, timedTests_run_eq]

/-- The first instant of a day. -/
def dayStart (day : Int) : Timestamp := ⟨86400 * kNanoSecondsPerSecond * day⟩

theorem timeSinceEpochDays_dayStart (day : Int) : (dayStart day).timeSinceEpochDays = day := by
  apply Int.mul_tdiv_cancel_left
  decide

theorem rolled_attempts (l : LogFile) :
    (l.rolled H a).attempts.length = l.attempts.length + 1 := by
  unfold rolled
  split
  · simp only [replaceFile, stamped, attempted, List.length_append, List.length_singleton]
  · simp only [attempted, List.length_append, List.length_singleton]

/-- The two tests tell `start_period_` from the day after it. -/
theorem timedTests_reads (l : LogFile) (hfile : l.file = some f) :
    (timedTests H (a.at (dayStart (l.startPeriod + 1)))).run l ≠
      (timedTests H (a.at (dayStart l.startPeriod))).run l := by
  have hnext : l.startPeriod < (a.at (dayStart (l.startPeriod + 1))).now.timeSinceEpochDays := by
    show l.startPeriod < (dayStart (l.startPeriod + 1)).timeSinceEpochDays
    rw [timeSinceEpochDays_dayStart]
    exact Int.lt_succ l.startPeriod
  have hsame : ¬ l.startPeriod < (a.at (dayStart l.startPeriod)).now.timeSinceEpochDays := by
    show ¬ l.startPeriod < (dayStart l.startPeriod).timeSinceEpochDays
    rw [timeSinceEpochDays_dayStart]
    exact Int.lt_irrefl l.startPeriod
  have hsecond : ∃ l', (timedTests H (a.at (dayStart l.startPeriod))).run l = .ok () l' ∧
      l'.attempts.length = l.attempts.length := by
    rw [timedTests_run_eq, if_neg hsame]
    split
    · exact ⟨_, flush_run hfile, rfl⟩
    · exact ⟨l, rfl, rfl⟩
  obtain ⟨l', hrun, hattempts⟩ := hsecond
  rw [hrun, timedTests_run_eq, if_pos hnext]
  intro hfirst
  obtain ⟨-, rfl⟩ := rollFile_ok_iff.mp hfirst
  rw [rolled_attempts] at hattempts
  omega

/-- **The clock is read exactly** by the appends that stay within `roll_size_` when `count_` has come
to `check_every_n_`. -/
theorem checksClock_iff (hfile : l.file = some f) :
    l.ChecksClock H data a ↔
      l.StaysWithin (.append data a) ∧ l.checkEveryN ≤ swrap 32 (l.count + 1) := by
  constructor
  · rintro ⟨⟨t, t', hreads⟩, -⟩
    have hroom : ¬ l.Outgrows f data := by
      intro hfull
      apply hreads
      rw [append_run_full hfile hfull, append_run_full hfile hfull]
      rfl
    refine ⟨⟨f, hfile, hroom⟩, ?_⟩
    by_contra hearly
    apply hreads
    rw [append_run_unchecked hfile hroom hearly, append_run_unchecked hfile hroom hearly]
    rfl
  · rintro ⟨⟨g, hg, hroom⟩, hdue⟩
    obtain rfl : f = g := Option.some.inj (hfile.symm.trans hg)
    refine ⟨⟨dayStart (l.startPeriod + 1), dayStart l.startPeriod, ?_⟩, fun g hg => ?_⟩
    · rw [append_run_checked hfile hroom hdue, append_run_checked hfile hroom hdue]
      exact timedTests_reads (l.fed a data f).counted rfl
    · obtain rfl : f = g := Option.some.inj (hfile.symm.trans hg)
      exact append_run_checked hfile hroom hdue

/-! ## The counter -/

theorem rolled_count (l : LogFile) : (l.rolled H a).count = l.count := by
  unfold rolled
  split
  · rfl
  · rfl

theorem rolled_config (l : LogFile) : (l.rolled H a).toLogConfig = l.toLogConfig := by
  unfold rolled
  split
  · rfl
  · rfl

/-- Only the appends that stay within `roll_size_` are counted. -/
theorem AppendMove.count (h : AppendMove H a data l f l') (hfile : l.file = some f) :
    l'.count = if l.StaysWithin (.append data a) then swrap 32 (l.count + 1) else l.count := by
  have hstays : l.StaysWithin (.append data a) ↔
      ¬ l.rollSize < (f.append a.fwrite data).writtenBytes := by
    rw [← outgrows_iff]
    constructor
    · rintro ⟨g, hg, hroom⟩
      obtain rfl : f = g := Option.some.inj (hfile.symm.trans hg)
      exact hroom
    · exact fun hroom => ⟨f, hfile, hroom⟩
  cases h with
  | full hfull =>
    rw [if_neg fun hroom => hstays.mp hroom hfull, rolled_count]
    rfl
  | day hroom hday =>
    rw [if_pos (hstays.mpr hroom), rolled_count]
    rfl
  | flushed hroom =>
    rw [if_pos (hstays.mpr hroom)]
    rfl
  | plain hroom =>
    rw [if_pos (hstays.mpr hroom)]
    rfl

theorem AppendMove.config (h : AppendMove H a data l f l') : l'.toLogConfig = l.toLogConfig := by
  cases h with
  | full => exact rolled_config _
  | day => exact rolled_config _
  | flushed => rfl
  | plain => rfl

end LogFile

open LogFile

/-- A call that returns has found a file. -/
theorem step_hasFile {call : LogCall} (h : (logSystem H).step l call = some l') : l.HasFile := by
  cases hfile : l.file with
  | some f => exact ⟨f, hfile⟩
  | none =>
    obtain ⟨l₁, herror⟩ : ∃ l₁, (call.perform H).run l = .error (.undefined "null unique_ptr") l₁ := by
      have hderef : derefFile.run l = .error (.undefined "null unique_ptr") l :=
        derefFile_run_none hfile
      cases call with
      | append data a => exact ⟨l, run_bind_of_error hderef⟩
      | flush => exact ⟨l, run_bind_of_error hderef⟩
    rw [step_of_error herror] at h
    cases h

/-- What a call does to the counter and to the arguments of the constructor. -/
theorem count_step {call : LogCall} (h : (logSystem H).step l call = some l') :
    l'.count = (if l.StaysWithin call then swrap 32 (l.count + 1) else l.count) ∧
      l'.toLogConfig = l.toLogConfig := by
  obtain ⟨f, hfile⟩ := step_hasFile h
  cases call with
  | append data a =>
    have hmove := appendMove_of_ok hfile (append_step_iff.mp h)
    exact ⟨hmove.count hfile, hmove.config⟩
  | flush =>
    rw [flush_step hfile] at h
    cases h
    exact ⟨rfl, rfl⟩

/-- **The counter holds what an `int` can hold of the number** of appends that stayed within
`roll_size_`. -/
theorem count_run {l₀ : LogFile} {calls : List LogCall} {k : Int} (hk : l₀.count = swrap 32 k)
    (hrun : (logSystem H).exec l₀ calls = some l) :
    l.count = swrap 32 (k + (logSystem H).occurrences StaysWithin l₀ calls) := by
  induction calls generalizing l₀ k with
  | nil =>
    obtain rfl : l₀ = l := by simpa using hrun
    show l₀.count = swrap 32 (k + 0)
    rw [Int.add_zero, hk]
  | cons call calls ih =>
    obtain ⟨l₁, hstep, hrest⟩ := StepSystem.exec_cons.mp hrun
    have hcount := (count_step hstep).1
    rw [StepSystem.occurrences_cons hstep]
    by_cases hstays : l₀.StaysWithin call
    · rw [if_pos hstays, hk, swrap_add_left] at hcount
      rw [if_pos hstays, ih hcount hrest]
      push_cast
      rw [Int.add_assoc]
    · rw [if_neg hstays, hk] at hcount
      rw [if_neg hstays, ih hcount hrest, Nat.zero_add]

theorem config_run {l₀ : LogFile} {calls : List LogCall}
    (hrun : (logSystem H).exec l₀ calls = some l) : l.toLogConfig = l₀.toLogConfig :=
  StepSystem.exec_invariant (I := fun l => l.toLogConfig = l₀.toLogConfig)
    (fun _ _ _ h hstep => (count_step hstep).2.trans h) rfl hrun

/-- The periodic check of the calls never stops. -/
structure LogFile.KeepsChecking (H : Host) (l₀ : LogFile) (calls : List LogCall) : Prop where
  /-- The increment of `count_` does not overflow. -/
  counts : ∀ before call after l, calls = before ++ call :: after →
    (logSystem H).exec l₀ before = some l → l.StaysWithin call → l.count + 1 < 2 ^ 31
  /-- Among any `check_every_n_` appends within `roll_size_` one reads the clock. -/
  checks : ∀ before middle after l, calls = before ++ middle ++ after →
    (logSystem H).exec l₀ before = some l →
    l₀.checkEveryN ≤ (logSystem H).occurrences StaysWithin l middle →
    ∃ middle₁ data a middle₂ l₁, middle = middle₁ ++ .append data a :: middle₂ ∧
      (logSystem H).exec l middle₁ = some l₁ ∧ l₁.StaysWithin (.append data a) ∧
      l₁.ChecksClock H data a

/-- As long as there are fewer than `2 ^ 31` of them, the counter is their number. -/
theorem count_eq_occurrences {l₀ : LogFile} {calls : List LogCall} (hzero : l₀.count = 0)
    (hrun : (logSystem H).exec l₀ calls = some l)
    (hfew : (logSystem H).occurrences StaysWithin l₀ calls < 2 ^ 31) :
    l.count = (logSystem H).occurrences StaysWithin l₀ calls := by
  have hcount := count_run (k := 0) (by rw [hzero]; rfl) hrun
  rw [Int.zero_add, swrap_of_range (by omega) (by omega)] at hcount
  exact hcount

theorem not_keepsChecking_of_occurrences {l₀ : LogFile} {calls : List LogCall}
    (hzero : l₀.count = 0) (hmany : 2 ^ 31 ≤ (logSystem H).occurrences StaysWithin l₀ calls) :
    ¬ l₀.KeepsChecking H calls := by
  intro h
  have hlt : 2 ^ 31 - 1 < (logSystem H).occurrences StaysWithin l₀ calls := by omega
  obtain ⟨before, call, after, l, hsplit, hbefore, hstays, hoccurrences⟩ :=
    StepSystem.exists_occurrence hlt
  have hcount := count_eq_occurrences hzero hbefore (by omega)
  have hroom := h.counts before call after l hsplit hbefore hstays
  omega

/-- Before an append within `roll_size_` the counter is the number of those that came earlier. -/
theorem count_before {l₀ : LogFile} {calls before after : List LogCall} {call : LogCall}
    (hzero : l₀.count = 0) (hfew : (logSystem H).occurrences StaysWithin l₀ calls < 2 ^ 31)
    (hsplit : calls = before ++ call :: after) (hbefore : (logSystem H).exec l₀ before = some l)
    (hstays : l.StaysWithin call) :
    l.count = (logSystem H).occurrences StaysWithin l₀ before ∧ l.count + 1 < 2 ^ 31 := by
  have hlt : (logSystem H).occurrences StaysWithin l₀ before <
      (logSystem H).occurrences StaysWithin l₀ calls := by
    rw [hsplit]
    exact StepSystem.occurrences_lt hbefore hstays after
  have hcount := count_eq_occurrences hzero hbefore (by omega)
  exact ⟨hcount, by omega⟩

theorem keepsChecking_of_occurrences {l₀ : LogFile} {calls : List LogCall} (hzero : l₀.count = 0)
    (hpos : 1 ≤ l₀.checkEveryN)
    (hfew : (logSystem H).occurrences StaysWithin l₀ calls < 2 ^ 31) :
    l₀.KeepsChecking H calls where
  counts _ _ _ _ hsplit hbefore hstays := (count_before hzero hfew hsplit hbefore hstays).2
  checks before middle after l hsplit hbefore hmany := by
    -- the last of the `check_every_n_` appends finds `count_` large enough
    have hlast : l₀.checkEveryN.toNat - 1 < (logSystem H).occurrences StaysWithin l middle := by omega
    obtain ⟨middle₁, call, middle₂, l₁, hmiddle, hrun, hstays, hoccurrences⟩ :=
      StepSystem.exists_occurrence hlast
    have hreach : (logSystem H).exec l₀ (before ++ middle₁) = some l₁ :=
      StepSystem.exec_append.mpr ⟨l, hbefore, hrun⟩
    have hwhere : calls = (before ++ middle₁) ++ call :: (middle₂ ++ after) := by
      rw [hsplit, hmiddle]
      simp only [List.append_assoc, List.cons_append]
    obtain ⟨hcount, hroom⟩ := count_before hzero hfew hwhere hreach hstays
    rw [StepSystem.occurrences_append hbefore, hoccurrences] at hcount
    have hnonneg : 0 ≤ l₁.count := by omega
    have hconfig : l₁.checkEveryN = l₀.checkEveryN :=
      congrArg LogConfig.checkEveryN (config_run hreach)
    have hdue : l₁.checkEveryN ≤ swrap 32 (l₁.count + 1) := by
      rw [swrap_of_range (by omega) hroom, hconfig, hcount]
      omega
    cases call with
    | append data a =>
      obtain ⟨f, hfile, -⟩ := id hstays
      exact ⟨middle₁, data, a, middle₂, l₁, hmiddle, hrun, hstays,
        (checksClock_iff hfile).mpr ⟨hstays, hdue⟩⟩
    | flush => exact absurd hstays id

/-- **The periodic check of a log never stops, in exactly the runs with fewer than `2 ^ 31` appends
that stay within `roll_size_`.** -/
theorem keepsChecking_iff {l₀ : LogFile} (hnew : LogFile.construct B H c a = .ok l₀)
    (hpos : 1 ≤ c.checkEveryN) (calls : List LogCall) :
    l₀.KeepsChecking H calls ↔ (logSystem H).occurrences StaysWithin l₀ calls < 2 ^ 31 := by
  obtain ⟨-, -, rfl⟩ := construct_ok_iff.mp hnew
  have hzero : ((blank c).rolled H a).count = 0 := rolled_count (blank c)
  have hconfig : ((blank c).rolled H a).toLogConfig = c := rolled_config (blank c)
  constructor
  · intro h
    by_contra hmany
    exact not_keepsChecking_of_occurrences hzero (Nat.not_lt.mp hmany) h
  · intro hfew
    exact keepsChecking_of_occurrences hzero (by rw [hconfig]; exact hpos) hfew

theorem keepsChecking_three :
    ∃ l₀, LogFile.construct .debug someHost someConfig (grantedAt 7) = .ok l₀ ∧
      (l₀.KeepsChecking someHost someCalls ↔
        (logSystem someHost).occurrences StaysWithin l₀ someCalls < 2 ^ 31) :=
  ⟨_, construct_someConfig, keepsChecking_iff construct_someConfig (by decide) someCalls⟩

/-- An append of no data, in second 7. -/
def emptyAppend : LogCall := .append [] (grantedAt 7)

/-- Nothing was written to the file, and nothing may be. -/
def LogFile.Unwritten (l : LogFile) : Prop :=
  ∃ f, l.file = some f ∧ f.writtenBytes = 0 ∧ l.rollSize = 0

theorem LogFile.Unwritten.staysWithin (h : l.Unwritten) : l.StaysWithin emptyAppend := by
  obtain ⟨f, hfile, hzero, hsize⟩ := h
  refine ⟨f, hfile, ?_⟩
  rw [Outgrows, hzero, hsize]
  decide

theorem unwritten_rolled (h : l.Unwritten) : (l.rolled H a).Unwritten := by
  obtain ⟨f, hfile, hzero, hsize⟩ := h
  unfold rolled
  split
  · exact ⟨_, rfl, rfl, hsize⟩
  · exact ⟨f, hfile, hzero, hsize⟩

theorem unwritten_step (h : l.Unwritten) :
    ∃ l', (logSystem H).step l emptyAppend = some l' ∧ l'.Unwritten := by
  obtain ⟨f, hfile, hzero, hsize⟩ := h
  have hgets : l.NeedsFile [] (grantedAt 7) → (grantedAt 7).fopen = true := fun _ => rfl
  obtain ⟨l', hrun⟩ := appendUnLocked_run_gets (H := H) hfile hgets
  refine ⟨l', append_step_iff.mpr hrun, ?_⟩
  have hempty : (f.append (grantedAt 7).fwrite []).writtenBytes = 0 := by
    rw [FileUtil.append_writtenBytes, hzero]
    decide
  have hfed : (l.fed (grantedAt 7) [] f).Unwritten := ⟨_, rfl, hempty, hsize⟩
  have hcounted : (l.fed (grantedAt 7) [] f).counted.Unwritten := ⟨_, rfl, hempty, hsize⟩
  cases appendMove_of_ok hfile hrun with
  | full => exact unwritten_rolled hfed
  | day => exact unwritten_rolled hcounted
  | flushed => exact ⟨_, rfl, hempty, hsize⟩
  | plain => exact hcounted

theorem unwritten_run (h : l.Unwritten) (n : Nat) :
    ∃ l', (logSystem H).exec l (List.replicate n emptyAppend) = some l' ∧
      (logSystem H).occurrences StaysWithin l (List.replicate n emptyAppend) = n := by
  induction n generalizing l with
  | zero => exact ⟨l, rfl, rfl⟩
  | succ n ih =>
    obtain ⟨l₁, hstep, h₁⟩ := unwritten_step (H := H) h
    obtain ⟨l', hrun, hoccurrences⟩ := ih h₁
    refine ⟨l', StepSystem.exec_cons.mpr ⟨l₁, hstep, hrun⟩, ?_⟩
    rw [List.replicate_succ, StepSystem.occurrences_cons hstep, if_pos h.staysWithin, hoccurrences,
      Nat.add_comm]

/-- The `2 ^ 31`-th append within `roll_size_` takes the counter below zero. -/
theorem count_overflows :
    ∃ l₀ l, LogFile.construct .debug someHost someConfig (grantedAt 7) = .ok l₀ ∧
      (logSystem someHost).exec l₀ (List.replicate (2 ^ 31) emptyAppend) = some l ∧
      l.count = -2 ^ 31 ∧
      ¬ l₀.KeepsChecking someHost (List.replicate (2 ^ 31) emptyAppend) := by
  have hstart : ((blank someConfig).rolled someHost (grantedAt 7)).Unwritten := ⟨_, rfl, rfl, rfl⟩
  obtain ⟨l, hrun, hoccurrences⟩ := unwritten_run (H := someHost) hstart (2 ^ 31)
  have hcount := count_run (k := 0) (by rw [rolled_count]; decide) hrun
  refine ⟨_, l, construct_someConfig, hrun, ?_, ?_⟩
  · rw [hcount, hoccurrences]
    decide
  · exact not_keepsChecking_of_occurrences (rolled_count _) (Nat.le_of_eq hoccurrences.symm)

end TurboNet.Logger
