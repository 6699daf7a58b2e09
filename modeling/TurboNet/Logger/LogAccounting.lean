/-
# TurboNet.Logger.LogAccounting — the bytes `WrittenBytes()` counts and the bytes a stream accepts.

`FileUtil::Append` retries short writes and gives up when the stream accepts nothing; `written_bytes_`
grows by `len` either way.
-/
import Mathlib.Algebra.GroupWithZero.Nat
import TurboNet.Logger.LogChecks

namespace TurboNet.Logger

open TurboNet.Lib
open TurboNet.Base

variable {B : Build} {H : Host} {a : Answers} {c : LogConfig} {l l' : LogFile} {f : FileUtil}
  {data : List Byte} {fwrite : Nat → Nat → Nat}

/-! ## Short writes -/

/-- How many of `m` chars are left before the `k`-th `fwrite_unlocked`, when each of them is offered
what the ones before it have left. -/
def offered (fwrite : Nat → Nat → Nat) (m : Nat) : Nat → Nat
  | 0 => m
  | k + 1 => offered fwrite m k - min (fwrite k (offered fwrite m k)) (offered fwrite m k)

/-- A call of `fwrite_unlocked` after the first accepts nothing of what is left. -/
def GivesUp (fwrite : Nat → Nat → Nat) (m : Nat) : Prop :=
  ∃ k, 1 ≤ k ∧ 0 < offered fwrite m k ∧ fwrite k (offered fwrite m k) = 0

theorem offered_le_of_le (fwrite : Nat → Nat → Nat) (m : Nat) {k j : Nat} (h : k ≤ j) :
    offered fwrite m j ≤ offered fwrite m k := by
  induction j, h using Nat.le_induction with
  | base => exact Nat.le_refl _
  | succ j _ ih => exact Nat.le_trans (Nat.sub_le _ _) ih

namespace FileUtil

/-- What the retry loop gets into the stream. -/
theorem length_writeRest (m k : Nat) (f : FileUtil) (rest : List Byte)
    (hrest : rest.length = offered fwrite m k) :
    (writeRest fwrite k f rest).accepted.length ≤ f.accepted.length + rest.length ∧
      ((writeRest fwrite k f rest).accepted.length = f.accepted.length + rest.length ↔
        ∀ j, k ≤ j → 0 < offered fwrite m j → fwrite j (offered fwrite m j) ≠ 0) := by
  fun_induction writeRest fwrite k f rest with
  | case1 k f rest hremain x hx =>
    have hstuck : fwrite k rest.length = 0 := by
      have hmin : min (fwrite k rest.length) rest.length = 0 := hx
      omega
    refine ⟨Nat.le_add_right _ _, ?_⟩
    constructor
    · intro h
      omega
    · intro h
      rw [hrest] at hstuck hremain
      exact absurd hstuck (h k (Nat.le_refl k) hremain)
  | case2 k f rest hremain x hx ih =>
    have hx' : x = min (fwrite k rest.length) rest.length := rfl
    have hdrop : (rest.drop x).length = offered fwrite m (k + 1) := by
      rw [List.length_drop, hx', offered, hrest]
    have htaken : (f.write x rest).accepted.length = f.accepted.length + x := by
      simp only [write, List.length_append, List.length_take]
      omega
    obtain ⟨hle, hiff⟩ := ih hdrop
    rw [htaken, List.length_drop] at hle hiff
    have hsum : f.accepted.length + x + (rest.length - x) = f.accepted.length + rest.length := by
      omega
    rw [hsum] at hle hiff
    refine ⟨hle, hiff.trans ?_⟩
    constructor
    · intro h j hj hleft
      rcases Nat.eq_or_lt_of_le hj with rfl | hj
      · rw [← hrest]
        intro hzero
        rw [hzero] at hx'
        omega
      · exact h j hj hleft
    · exact fun h j hj => h j (Nat.le_of_succ_le hj)
  | case3 k f rest hremain =>
    have hnone : rest.length = 0 := Nat.eq_zero_of_not_pos hremain
    refine ⟨Nat.le_add_right _ _, ?_⟩
    constructor
    · intro _ j hj hleft
      have := offered_le_of_le fwrite m hj
      omega
    · intro _
      rw [hnone, Nat.add_zero]

theorem length_le_writeRest (fwrite : Nat → Nat → Nat) (k : Nat) (f : FileUtil) (rest : List Byte) :
    f.accepted.length ≤ (writeRest fwrite k f rest).accepted.length := by
  fun_induction writeRest fwrite k f rest with
  | case1 => exact Nat.le_refl _
  | case2 k f rest hremain x hx ih =>
    refine Nat.le_trans ?_ ih
    rw [write, List.length_append]
    exact Nat.le_add_right _ _
  | case3 => exact Nat.le_refl _

theorem append_accepted_eq (fwrite : Nat → Nat → Nat) (data : List Byte) (f : FileUtil) :
    (f.append fwrite data).accepted =
      (writeRest fwrite 1 (f.write (min (fwrite 0 data.length) data.length) data)
        (data.drop (min (fwrite 0 data.length) data.length))).accepted := rfl

/-- **The stream accepts the data whole exactly when the loop does not give up.** -/
theorem length_append (fwrite : Nat → Nat → Nat) (data : List Byte) (f : FileUtil) :
    f.accepted.length ≤ (f.append fwrite data).accepted.length ∧
      (f.append fwrite data).accepted.length ≤ f.accepted.length + data.length ∧
      ((f.append fwrite data).accepted.length = f.accepted.length + data.length ↔
        ¬ GivesUp fwrite data.length) := by
  have hfirst : (f.write (min (fwrite 0 data.length) data.length) data).accepted.length =
      f.accepted.length + min (fwrite 0 data.length) data.length := by
    simp only [write, List.length_append, List.length_take]
    omega
  have hrest : (data.drop (min (fwrite 0 data.length) data.length)).length =
      offered fwrite data.length 1 := List.length_drop
  have hmore := length_le_writeRest fwrite 1
    (f.write (min (fwrite 0 data.length) data.length) data)
    (data.drop (min (fwrite 0 data.length) data.length))
  obtain ⟨hle, hiff⟩ := length_writeRest data.length 1
    (f.write (min (fwrite 0 data.length) data.length) data) _ hrest
  rw [← append_accepted_eq, hfirst] at hle hmore hiff
  rw [List.length_drop] at hle hiff
  have hsum : f.accepted.length + min (fwrite 0 data.length) data.length +
      (data.length - min (fwrite 0 data.length) data.length) = f.accepted.length + data.length := by
    omega
  rw [hsum] at hle hiff
  refine ⟨Nat.le_trans (Nat.le_add_right _ _) hmore, hle, hiff.trans ?_⟩
  constructor
  · rintro h ⟨k, hk, hleft, hzero⟩
    exact h k hk hleft hzero
  · exact fun h k hk hleft hzero => h ⟨k, hk, hleft, hzero⟩

/-- `WrittenBytes()` is the number of chars the stream has accepted. -/
def Exact (f : FileUtil) : Prop := f.writtenBytes = f.accepted.length

theorem append_writtenBytes_eq (fwrite : Nat → Nat → Nat) (data : List Byte) (f : FileUtil) :
    (f.append fwrite data).writtenBytes = swrap 64 (f.writtenBytes + data.length) := by
  rw [append_writtenBytes, swrap_add_right]

theorem Exact.append_writtenBytes (hexact : f.Exact) (fwrite : Nat → Nat → Nat)
    (hroom : f.writtenBytes + data.length < 2 ^ 63) :
    (f.append fwrite data).writtenBytes = f.writtenBytes + data.length := by
  rw [Exact] at hexact
  rw [append_writtenBytes_eq, swrap_of_range (by omega) hroom]

/-- **One append keeps the count exact** unless the loop gives up or the count overflows. -/
theorem exact_append_iff (fwrite : Nat → Nat → Nat) (hexact : f.Exact)
    (hsize : data.length < 2 ^ 64) :
    (f.append fwrite data).Exact ↔
      ¬ GivesUp fwrite data.length ∧ f.writtenBytes + data.length < 2 ^ 63 := by
  obtain ⟨hmore, hle, hwhole⟩ := length_append fwrite data f
  rw [Exact, ← hwhole]
  constructor
  · intro h
    rw [Exact] at hexact
    rw [append_writtenBytes_eq] at h
    have hrange := (swrap_range 63 (f.writtenBytes + data.length)).2
    obtain ⟨q, hq⟩ := exists_eq_swrap 64 (f.writtenBytes + data.length)
    rw [h] at hq hrange
    omega
  · rintro ⟨hall, hroom⟩
    rw [hexact.append_writtenBytes fwrite hroom, hall, hexact]
    rfl

end FileUtil

/-! ## Runs of a `FileUtil` -/

/-- A call of `FileUtil::Append`, with what the stream takes of each write. -/
structure FileCall where
  data : List Byte
  fwrite : Nat → Nat → Nat

/-- The calls on one file. -/
def fileSystem : StepSystem FileUtil FileCall where
  step f call := some (f.append call.fwrite call.data)

/-- The calls together append fewer than `2 ^ 63` chars to the file, and none gives up. -/
structure WrittenWhole (f : FileUtil) (calls : List FileCall) : Prop where
  whole : ∀ call ∈ calls, ¬ GivesUp call.fwrite call.data.length
  room : f.writtenBytes + ((calls.map (·.data.length)).sum : Nat) < 2 ^ 63

theorem fileSystem_exact_iff {calls : List FileCall} (hexact : f.Exact)
    (hroom : f.writtenBytes < 2 ^ 63) (hsizes : ∀ call ∈ calls, call.data.length < 2 ^ 64) :
    fileSystem.Throughout FileUtil.Exact f calls ↔ WrittenWhole f calls := by
  induction calls generalizing f with
  | nil =>
    rw [StepSystem.throughout_nil]
    refine ⟨fun _ => ⟨fun call hcall => absurd hcall List.not_mem_nil, ?_⟩, fun _ => hexact⟩
    show f.writtenBytes + 0 < 2 ^ 63
    omega
  | cons call calls ih =>
    have hone := FileUtil.exact_append_iff call.fwrite hexact
      (hsizes call List.mem_cons_self)
    have hsizes' : ∀ call ∈ calls, call.data.length < 2 ^ 64 := fun c hc =>
      hsizes c (List.mem_cons_of_mem call hc)
    rw [StepSystem.throughout_cons]
    constructor
    · rintro ⟨-, hrest⟩
      have hlater := hrest _ rfl
      obtain ⟨hwhole, hfits⟩ := hone.mp (hlater [] calls _ rfl rfl)
      have hcount := hexact.append_writtenBytes call.fwrite hfits
      have h := (ih (hone.mpr ⟨hwhole, hfits⟩) (by rw [hcount]; exact hfits) hsizes').mp hlater
      refine ⟨?_, ?_⟩
      · intro c hc
        rcases List.mem_cons.mp hc with rfl | hc
        · exact hwhole
        · exact h.whole c hc
      · have hroom' := h.room
        rw [hcount] at hroom'
        rw [List.map_cons, List.sum_cons]
        omega
    · intro h
      have hroom' := h.room
      rw [List.map_cons, List.sum_cons] at hroom'
      have hfits : f.writtenBytes + call.data.length < 2 ^ 63 := by omega
      have hcount := hexact.append_writtenBytes call.fwrite hfits
      have hnext := hone.mpr ⟨h.whole call List.mem_cons_self, hfits⟩
      refine ⟨hexact, fun f' hf' => ?_⟩
      obtain rfl := Option.some.inj hf'
      refine (ih hnext (by rw [hcount]; exact hfits) hsizes').mpr ⟨?_, ?_⟩
      · exact fun c hc => h.whole c (List.mem_cons_of_mem call hc)
      · rw [hcount]
        omega

/-! ## Runs of a `LogFile` -/

namespace LogFile

/-- The counts of all files the log has made are exact. -/
def AllExact (l : LogFile) : Prop := ∀ f ∈ l.files, f.Exact

/-- A step from `l` to `l'` has called `RollFile` on the size test, before `count_` is touched. -/
def RollsOnSize (l l' : LogFile) : Prop :=
  l'.attempts.length = l.attempts.length + 1 ∧ l'.count = l.count

theorem allExact_setFile (l : LogFile) (f : FileUtil) :
    (l.setFile f).AllExact ↔ (∀ g ∈ l.past, g.Exact) ∧ f.Exact := by
  simp only [AllExact, files, setFile, Option.toList_some, List.forall_mem_append,
    List.forall_mem_singleton]

/-- A roll changes no count, and a new file starts with an exact one. -/
theorem allExact_rolled (l : LogFile) : (l.rolled H a).AllExact ↔ l.AllExact := by
  unfold rolled
  split
  · have hflush : ∀ f : FileUtil, f.destroy.Exact ↔ f.Exact := fun _ => Iff.rfl
    have hopened : ∀ name : String, (FileUtil.opened name).Exact := fun _ => rfl
    simp only [AllExact, files, replaceFile, stamped, attempted, Option.toList_some,
      List.forall_mem_append, List.forall_mem_singleton, List.forall_mem_map, hflush, hopened,
      and_true]
  · exact Iff.rfl

theorem AppendMove.allExact_iff (h : AppendMove H a data l f l') :
    l'.AllExact ↔ (∀ g ∈ l.past, g.Exact) ∧ (f.append a.fwrite data).Exact := by
  cases h with
  | full => exact (allExact_rolled _).trans (allExact_setFile l _)
  | day => exact (allExact_rolled _).trans (allExact_setFile l _)
  | flushed => exact allExact_setFile l _
  | plain => exact allExact_setFile l _

/-- The size test is the only way to `RollFile` that leaves `count_` alone. -/
theorem AppendMove.rollsOnSize_iff (h : AppendMove H a data l f l') :
    RollsOnSize l l' ↔ l.rollSize < (f.append a.fwrite data).writtenBytes := by
  have hcounted : ∀ l₁ : LogFile, l₁.count = swrap 32 (l.count + 1) → ¬ RollsOnSize l l₁ := by
    rintro l₁ hcount ⟨-, hsame⟩
    obtain ⟨q, hq⟩ := exists_eq_swrap 32 (l.count + 1)
    rw [← hcount, hsame] at hq
    omega
  cases h with
  | full hfull =>
    exact ⟨fun _ => hfull, fun _ => ⟨rolled_attempts _, rolled_count _⟩⟩
  | day hroom =>
    exact ⟨fun hrolls => absurd hrolls (hcounted _ (rolled_count _)), fun hfull => absurd hfull hroom⟩
  | flushed hroom =>
    exact ⟨fun hrolls => absurd hrolls (hcounted _ rfl), fun hfull => absurd hfull hroom⟩
  | plain hroom =>
    exact ⟨fun hrolls => absurd hrolls (hcounted _ rfl), fun hfull => absurd hfull hroom⟩

/-- The call's data goes into the stream whole, and does not bring the count to `2 ^ 63`. -/
def CountsExactly (l : LogFile) : LogCall → Prop
  | .append data a => ∀ f ∈ l.file, ¬ GivesUp a.fwrite data.length ∧
      f.writtenBytes + data.length < 2 ^ 63
  | .flush => True

end LogFile

open LogFile

/-- A `size_t` can hold the length of what the call appends. -/
def LogCall.Sized (call : LogCall) : Prop := ∀ data ∈ call.appended, data.length < 2 ^ 64

/-- A call keeps the counts exact under the condition. -/
theorem allExact_step {call : LogCall} (hexact : l.AllExact) (hsized : call.Sized)
    (hstep : (logSystem H).step l call = some l') : l'.AllExact ↔ l.CountsExactly call := by
  obtain ⟨f, hfile⟩ := step_hasFile hstep
  have hcurrent : f.Exact := hexact f (by rw [files, hfile]; simp)
  have hpast : ∀ g ∈ l.past, g.Exact := fun g hg => hexact g (List.mem_append_left _ hg)
  cases call with
  | append data a =>
    have hmove := appendMove_of_ok hfile (append_step_iff.mp hstep)
    have hsize : data.length < 2 ^ 64 := hsized data (List.mem_singleton_self data)
    rw [hmove.allExact_iff, FileUtil.exact_append_iff a.fwrite hcurrent hsize]
    constructor
    · rintro ⟨-, h⟩ g hg
      obtain rfl : f = g := Option.some.inj (hfile.symm.trans hg)
      exact h
    · exact fun h => ⟨hpast, h f hfile⟩
  | flush =>
    rw [flush_step hfile] at hstep
    cases hstep
    exact ⟨fun _ => trivial, fun _ => (allExact_setFile l _).mpr ⟨hpast, hcurrent⟩⟩

/-- The log counts what its streams accept, and rolls on that. -/
structure LogFile.RollsByAccepted (H : Host) (l₀ : LogFile) (calls : List LogCall) : Prop where
  exact : (logSystem H).Throughout AllExact l₀ calls
  rolls : ∀ before data a after l l' f, calls = before ++ .append data a :: after →
    (logSystem H).exec l₀ before = some l → (logSystem H).step l (.append data a) = some l' →
    l.file = some f → (RollsOnSize l l' ↔ l.rollSize < ((f.append a.fwrite data).accepted.length : Nat))

theorem allExact_run {calls : List LogCall} (hexact : l.AllExact)
    (hsized : ∀ call ∈ calls, call.Sized) (hrun : (logSystem H).exec l calls = some l') :
    (logSystem H).Throughout AllExact l calls ↔ (logSystem H).Along CountsExactly l calls := by
  induction calls generalizing l with
  | nil => exact ⟨fun _ => trivial, fun _ => StepSystem.throughout_nil.mpr hexact⟩
  | cons call calls ih =>
    obtain ⟨l₁, hstep, hrest⟩ := StepSystem.exec_cons.mp hrun
    have hone := allExact_step hexact (hsized call List.mem_cons_self) hstep
    have hsized' : ∀ c ∈ calls, c.Sized := fun c hc => hsized c (List.mem_cons_of_mem call hc)
    rw [StepSystem.throughout_cons]
    constructor
    · rintro ⟨-, hlater⟩
      have h₁ : l₁.AllExact := hlater l₁ hstep [] calls l₁ rfl rfl
      refine ⟨hone.mp h₁, fun l₂ hstep₂ => ?_⟩
      obtain rfl : l₁ = l₂ := Option.some.inj (hstep.symm.trans hstep₂)
      exact (ih h₁ hsized' hrest).mp (hlater l₁ hstep)
    · rintro ⟨hhere, hlater⟩
      refine ⟨hexact, fun l₂ hstep₂ => ?_⟩
      obtain rfl : l₁ = l₂ := Option.some.inj (hstep.symm.trans hstep₂)
      exact (ih (hone.mpr hhere) hsized' hrest).mpr (hlater l₁ hstep)

/-- With exact counts the size test is about what the stream has accepted. -/
theorem rollsByAccepted_of_exact {l₀ : LogFile} {calls : List LogCall}
    (hexact : (logSystem H).Throughout AllExact l₀ calls) : l₀.RollsByAccepted H calls where
  exact := hexact
  rolls before data a after l l' f hsplit hbefore hstep hfile := by
    have hmove := appendMove_of_ok hfile (append_step_iff.mp hstep)
    have hafter : l'.AllExact := by
      refine hexact (before ++ [.append data a]) after l' ?_
        (StepSystem.exec_concat.mpr ⟨l, hbefore, hstep⟩)
      rw [hsplit, List.append_assoc]
      rfl
    have hcount : (f.append a.fwrite data).Exact := (hmove.allExact_iff.mp hafter).2
    rw [hmove.rollsOnSize_iff, hcount]

/-- **The rolling size counts what was really written, exactly when no append gives up** and no file
comes to `2 ^ 63` chars: of a file that is appended to, and of a log and all its files. -/
theorem counts_accepted_iff (fileName : String) (appends : List FileCall) (B : Build)
    (H : Host) (c : LogConfig) (a : Answers) (l₀ : LogFile) (calls : List LogCall) (l : LogFile) :
    ((∀ call ∈ appends, call.data.length < 2 ^ 64) →
      (fileSystem.Throughout FileUtil.Exact (FileUtil.opened fileName) appends ↔
        WrittenWhole (FileUtil.opened fileName) appends)) ∧
    (LogFile.construct B H c a = .ok l₀ → (∀ call ∈ calls, call.Sized) →
      (logSystem H).exec l₀ calls = some l →
      (l₀.RollsByAccepted H calls ↔ (logSystem H).Along CountsExactly l₀ calls)) := by
  constructor
  · intro hsizes
    have hroom : (0 : Int) < 2 ^ 63 := by decide
    exact fileSystem_exact_iff rfl hroom hsizes
  · intro hnew hsized hrun
    obtain ⟨-, -, rfl⟩ := construct_ok_iff.mp hnew
    have hstart : ((blank c).rolled H a).AllExact :=
      (allExact_rolled _).mpr fun f hf => absurd hf List.not_mem_nil
    rw [← allExact_run hstart hsized hrun]
    exact ⟨fun h => h.exact, rollsByAccepted_of_exact⟩

/-- A stream that takes one char at a time. -/
def oneByOne : Answers := { grantedAt 9 with fwrite := fun _ _ => 1 }

theorem oneByOne_not_givesUp (m : Nat) : ¬ GivesUp oneByOne.fwrite m := by
  rintro ⟨k, -, -, hzero⟩
  exact Nat.one_ne_zero hzero

theorem counts_accepted_oneByOne :
    fileSystem.Throughout FileUtil.Exact (FileUtil.opened "log")
        [⟨[1, 2], oneByOne.fwrite⟩, ⟨[3], oneByOne.fwrite⟩] ∧
      ∃ l₀, LogFile.construct .debug someHost someConfig (grantedAt 7) = .ok l₀ ∧
        l₀.RollsByAccepted someHost [.append [1, 2] oneByOne] := by
  have hneeds : ((blank someConfig).rolled someHost (grantedAt 7)).NeedsFile [1, 2] oneByOne →
      oneByOne.fopen = true := fun _ => rfl
  obtain ⟨l, hrun⟩ := appendUnLocked_run_gets (H := someHost) rfl hneeds
  obtain ⟨hfile, hlog⟩ := counts_accepted_iff "log"
    [⟨[1, 2], oneByOne.fwrite⟩, ⟨[3], oneByOne.fwrite⟩] .debug someHost someConfig (grantedAt 7)
    ((blank someConfig).rolled someHost (grantedAt 7)) [.append [1, 2] oneByOne] l
  constructor
  · refine (hfile ?_).mpr ⟨?_, by decide⟩
    · simp
    · simp [oneByOne_not_givesUp]
  · refine ⟨_, construct_someConfig, (hlog construct_someConfig ?_ ?_).mpr
      ⟨?_, fun _ _ => trivial⟩⟩
    · simp [LogCall.Sized, LogCall.appended]
    · exact StepSystem.exec_cons.mpr ⟨l, append_step_iff.mpr hrun, rfl⟩
    · rintro f hf
      obtain rfl := Option.some.inj hf
      exact ⟨oneByOne_not_givesUp _, by decide⟩

/-- A stream that takes one char, and then no more. -/
def diskFull : Answers := { grantedAt 9 with fwrite := fun k _ => if k = 0 then 1 else 0 }

theorem diskFull_append (fileName : String) :
    ((FileUtil.opened fileName).append diskFull.fwrite [1, 2]).writtenBytes = 2 ∧
      ((FileUtil.opened fileName).append diskFull.fwrite [1, 2]).accepted = [1] := by
  constructor
  · rw [FileUtil.append_writtenBytes]
    show swrap 64 (0 + swrap 64 2) = 2
    decide
  · rw [FileUtil.append_accepted_eq]
    unfold FileUtil.writeRest
    simp [diskFull, FileUtil.write, FileUtil.opened]

/-- Of two chars the stream took one: `WrittenBytes()` says two, and a log whose files may hold one
rolls. -/
theorem given_up_bytes_counted :
    ¬ fileSystem.Throughout FileUtil.Exact (FileUtil.opened "log") [⟨[1, 2], diskFull.fwrite⟩] ∧
      ∃ l₀ l, LogFile.construct .debug someHost { baseName := "log", rollSize := 1 } (grantedAt 7) =
          .ok l₀ ∧
        (logSystem someHost).step l₀ (.append [1, 2] diskFull) = some l ∧ RollsOnSize l₀ l ∧
        ¬ l₀.RollsByAccepted someHost [.append [1, 2] diskFull] := by
  constructor
  · intro h
    obtain ⟨hwritten, haccepted⟩ := diskFull_append "log"
    have hexact : ((FileUtil.opened "log").append diskFull.fwrite [1, 2]).Exact :=
      h [⟨[1, 2], diskFull.fwrite⟩] [] _ rfl rfl
    rw [FileUtil.Exact, hwritten, haccepted] at hexact
    exact absurd hexact (by decide)
  · have hnew := construct_granted (B := .debug) (c := { baseName := "log", rollSize := 1 }) 7
      (by decide +kernel)
    generalize hl₀ : (blank { baseName := "log", rollSize := 1 }).rolled someHost (grantedAt 7) = l₀
      at hnew
    obtain ⟨fileName, hfile⟩ : ∃ fileName, l₀.file = some (FileUtil.opened fileName) := by
      subst hl₀
      exact ⟨_, rfl⟩
    have hsize : l₀.rollSize = 1 := by
      subst hl₀
      rfl
    obtain ⟨hwritten, haccepted⟩ := diskFull_append fileName
    have hgets : l₀.NeedsFile [1, 2] diskFull → diskFull.fopen = true := fun _ => rfl
    obtain ⟨l, hrun⟩ := appendUnLocked_run_gets (H := someHost) hfile hgets
    have hstep := append_step_iff.mpr hrun
    have hmove := appendMove_of_ok hfile hrun
    have hrolls : RollsOnSize l₀ l := by
      rw [hmove.rollsOnSize_iff, hwritten, hsize]
      decide
    refine ⟨l₀, l, hnew, hstep, hrolls, fun h => ?_⟩
    have hmore := (h.rolls [] [1, 2] diskFull [] l₀ l _ rfl rfl hstep hfile).mp hrolls
    rw [hsize, haccepted] at hmore
    exact absurd hmore (by decide)

end TurboNet.Logger
