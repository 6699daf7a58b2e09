/-
# TurboNet.Logger.LogThreads — a `LogFile` shared by threads.

With `thread_safe` the bodies of `Append` and `Flush` run under `mutex_`.  Here they are cut at their
accesses to the members of the log and of its `FileUtil`, one `fwrite_unlocked` an access, and the
accesses of any number of threads interleave as far as the mutex lets them.  A `FileUtil` is known by
how many came before it, so that a thread that has fetched `file_` while another replaces it would use
an object that is gone.
-/
import TurboNet.Lib.Sections
import TurboNet.Logger.LogAccounting
import TurboNet.Logger.LogRolling

namespace TurboNet.Logger

open TurboNet.Lib
open TurboNet.Base

variable {H : Host} {a : Answers} {l l' : LogFile} {f : FileUtil} {data : List Byte}

/-- The code of a call on the log. -/
abbrev LogCode := Code Halt LogFile

/-! ## The bodies, access by access -/

namespace LogFile.ByAccess

/-- `file_.get()`, and which object it is. -/
def getFile : LogCode Nat := do
  let l ← Code.read
  match l.file with
  | some _ => pure l.past.length
  | none => .fail (.undefined "null unique_ptr")

/-- An access to the members of the object `this`, which it finds and changes. -/
def member (this : Nat) (change : FileUtil → FileUtil) : LogCode FileUtil :=
  .access (fun l => if l.past.length = this then { l with file := l.file.map change } else l) fun l =>
    match l.file with
    | some f => if l.past.length = this then .done f else .fail (.undefined "destroyed FileUtil")
    | none => .fail (.undefined "destroyed FileUtil")

/-- The loop of `FileUtil::Append`, before its `k`-th call of `Write`. -/
def writeRest (fwrite : Nat → Nat → Nat) (this k : Nat) (rest : List Byte) : LogCode Unit :=
  if hremain : 0 < rest.length then
    let x := min (fwrite k rest.length) rest.length
    if hx : x = 0 then do
      let _ ← member this (·.write x rest)
    else do
      let _ ← member this (·.write x rest)
      writeRest fwrite this (k + 1) (rest.drop x)
  else pure ()
termination_by rest.length
decreasing_by
  rw [List.length_drop]
  omega

/-- `FileUtil::Append(data, len)`. -/
def fileAppend (fwrite : Nat → Nat → Nat) (data : List Byte) (this : Nat) : LogCode Unit := do
  let n := min (fwrite 0 data.length) data.length
  let _ ← member this (·.write n data)
  writeRest fwrite this 1 (data.drop n)
  let f ← member this id
  let _ ← member this fun g =>
    { g with writtenBytes := swrap 64 (f.writtenBytes + swrap 64 data.length) }

def rollFile (H : Host) (a : Answers) : LogCode Unit := do
  let l ← Code.read
  let fileName := l.getLogFileName H a.rollNow
  let nowTimeSeconds := a.rollNow.timeSinceEpochSeconds
  -- the access that reads `last_roll_` is the attempt
  let l ← Code.access (·.attempted nowTimeSeconds) Code.done
  if l.lastRoll < nowTimeSeconds then
    Code.assign fun l => { l with startPeriod := a.rollNow.timeSinceEpochDays }
    Code.assign fun l => { l with lastRoll := nowTimeSeconds }
    Code.assign (·.flushedAt nowTimeSeconds)
    match FileUtil.construct a.fopen fileName with
    | .ok f => Code.assign (·.replaceFile f)
    | .error e => .fail e

/-- `file_->Flush()`. -/
def flush : LogCode Unit := do
  let this ← getFile
  let _ ← member this FileUtil.flush

/-- The part of `AppendUnLocked` after `++count_`. -/
def periodicCheck (H : Host) (a : Answers) : LogCode Unit := do
  let l ← Code.read
  if l.checkEveryN ≤ l.count then
    let nowSeconds := a.now.timeSinceEpochSeconds
    let l ← Code.read
    if l.startPeriod < a.now.timeSinceEpochDays then
      rollFile H a
    else
      let l ← Code.read
      if l.flushInterval < nowSeconds - l.lastFlush then
        Code.assign (·.flushedAt nowSeconds)
        flush

def appendUnLocked (H : Host) (a : Answers) (data : List Byte) : LogCode Unit := do
  let this ← getFile
  fileAppend a.fwrite data this
  let this ← getFile
  let f ← member this id
  let l ← Code.read
  if l.rollSize < f.writtenBytes then
    rollFile H a
  else
    let l ← Code.read
    Code.assign fun m => { m with count := swrap 32 (l.count + 1) }
    periodicCheck H a

/-- The body of a call. -/
def body (H : Host) : LogCall → LogCode Unit
  | .append data a => appendUnLocked H a data
  | .flush => flush

/-! ## Run whole, they are the calls -/

theorem getFile_run (hfile : l.file = some f) : getFile.whole.run l = .ok l.past.length l := by
  unfold getFile
  rw [Code.whole_bind, Code.whole_read, run_get_bind, hfile]
  rfl

theorem getFile_run_none (hfile : l.file = none) :
    getFile.whole.run l = .error (.undefined "null unique_ptr") l := by
  unfold getFile
  rw [Code.whole_bind, Code.whole_read, run_get_bind, hfile]
  rfl

theorem member_run {this : Nat} (hfile : l.file = some f) (hthis : l.past.length = this)
    (change : FileUtil → FileUtil) :
    (member this change).whole.run l = .ok f (l.setFile (change f)) := by
  unfold member
  rw [Code.run_whole_access]
  simp only [hfile, if_pos hthis]
  rfl

theorem setFile_self (hfile : l.file = some f) : l.setFile f = l := by
  rw [setFile, ← hfile]

/-- The loop leaves in the stream what `writeRest` puts there. -/
theorem writeRest_run {this : Nat} (hfile : l.file = some f) (hthis : l.past.length = this)
    (fwrite : Nat → Nat → Nat) (k : Nat) (rest : List Byte) :
    (writeRest fwrite this k rest).whole.run l =
      .ok () (l.setFile (FileUtil.writeRest fwrite k f rest)) := by
  fun_induction FileUtil.writeRest fwrite k f rest generalizing l with
  | case1 =>
    rename_i k f rest hremain x hx
    unfold writeRest
    rw [dif_pos hremain, dif_pos hx, Code.whole_bind, run_bind_of_ok (member_run hfile hthis _)]
    show EStateM.Result.ok () (l.setFile (f.write x rest)) = _
    rw [hx, FileUtil.write, List.take_zero, List.append_nil]
  | case2 =>
    rename_i k f rest hremain x hx ih
    unfold writeRest
    rw [dif_pos hremain, dif_neg hx, Code.whole_bind, run_bind_of_ok (member_run hfile hthis _)]
    exact ih (l := l.setFile (f.write x rest)) rfl hthis
  | case3 k f rest hremain =>
    unfold writeRest
    rw [dif_neg hremain, Code.whole_pure, setFile_self hfile]
    rfl

/-- Once the object has been found it is found again. -/
theorem member_run_again {this : Nat} (hthis : l.past.length = this)
    (change : FileUtil → FileUtil) :
    (member this change).whole.run (l.setFile f) = .ok f (l.setFile (change f)) :=
  member_run (l := l.setFile f) rfl hthis change

theorem fileAppend_run {this : Nat} (hfile : l.file = some f) (hthis : l.past.length = this)
    (fwrite : Nat → Nat → Nat) (data : List Byte) :
    (fileAppend fwrite data this).whole.run l = .ok () (l.setFile (f.append fwrite data)) := by
  have hrest := writeRest_run
    (l := l.setFile (f.write (min (fwrite 0 data.length) data.length) data)) rfl hthis fwrite 1
    (data.drop (min (fwrite 0 data.length) data.length))
  unfold fileAppend
  rw [Code.whole_bind, run_bind_of_ok (member_run hfile hthis _), Code.whole_bind,
    run_bind_of_ok hrest]
  show (Code.whole _).run (l.setFile _) = _
  rw [Code.whole_bind, run_bind_of_ok (member_run_again hthis _), Code.whole_bind,
    run_bind_of_ok (member_run_again hthis _)]
  rfl

theorem rollFile_run : (rollFile H a).whole.run l = (LogFile.rollFile H a).run l := by
  rw [rollFile_run_eq]
  unfold rollFile
  rw [Code.whole_bind, Code.whole_read, run_get_bind, Code.whole_bind]
  show (Code.whole _).run (l.attempted _) = _
  rw [Code.whole_ite]
  split
  · cases hopen : FileUtil.construct a.fopen (l.getLogFileName H a.rollNow) with
    | ok f => rfl
    | error e => rfl
  · rfl

theorem flush_run : flush.whole.run l = LogFile.flush.run l := by
  unfold flush LogFile.flush
  rw [Code.whole_bind]
  cases hfile : l.file with
  | none =>
    rw [run_bind_of_error (getFile_run_none hfile), run_bind_of_error (derefFile_run_none hfile)]
  | some f =>
    rw [run_bind_of_ok (getFile_run hfile), run_bind_of_ok (derefFile_run hfile), Code.whole_bind,
      run_bind_of_ok (member_run hfile rfl _)]
    rfl

theorem periodicCheck_run :
    (periodicCheck H a).whole.run l = (LogFile.periodicCheck H a).run l := by
  rw [periodicCheck_run_eq]
  unfold periodicCheck
  rw [Code.whole_bind, Code.whole_read, run_get_bind]
  by_cases hcheck : l.checkEveryN ≤ l.count
  · rw [if_pos hcheck, if_pos hcheck, Code.whole_bind, Code.whole_read, run_get_bind]
    by_cases hday : l.startPeriod < a.now.timeSinceEpochDays
    · rw [if_pos hday, if_pos hday]
      exact rollFile_run
    · rw [if_neg hday, if_neg hday, Code.whole_bind, Code.whole_read, run_get_bind]
      by_cases hflush : l.flushInterval < a.now.timeSinceEpochSeconds - l.lastFlush
      · rw [if_pos hflush, if_pos hflush, Code.whole_bind, Code.whole_assign, run_modify_bind]
        exact flush_run
      · rw [if_neg hflush, if_neg hflush]
        rfl
  · rw [if_neg hcheck, if_neg hcheck]
    rfl

theorem appendUnLocked_run :
    (appendUnLocked H a data).whole.run l = (LogFile.appendUnLocked H a data).run l := by
  unfold appendUnLocked
  rw [Code.whole_bind]
  cases hfile : l.file with
  | none =>
    unfold LogFile.appendUnLocked
    rw [run_bind_of_error (getFile_run_none hfile), run_bind_of_error (derefFile_run_none hfile)]
  | some f =>
    have hagain : getFile.whole.run (l.fed a data f) = .ok l.past.length (l.fed a data f) :=
      getFile_run rfl
    rw [appendUnLocked_run_eq hfile, run_bind_of_ok (getFile_run hfile), Code.whole_bind,
      run_bind_of_ok (fileAppend_run hfile rfl a.fwrite data), Code.whole_bind]
    rw [← fed, run_bind_of_ok hagain, Code.whole_bind, fed, run_bind_of_ok (member_run_again rfl id)]
    show (Code.whole _).run (l.fed a data f) = _
    rw [Code.whole_bind, Code.whole_read, run_get_bind, Code.whole_ite]
    show EStateM.run (if l.rollSize < (f.append a.fwrite data).writtenBytes then _ else _) _ = _
    split
    · exact rollFile_run
    · exact periodicCheck_run

/-- **The body of a call, run without interruption, is the call.** -/
theorem body_run (call : LogCall) : (body H call).whole.run l = (call.perform H).run l := by
  cases call with
  | append data a => exact appendUnLocked_run
  | flush => exact flush_run

theorem implements_body (H : Host) : Implements (body H) (logSystem H) := by
  intro l call l'
  rw [step_eq_some_iff, body_run]

end LogFile.ByAccess

/-! ## Threads on one log -/

open LogFile

/-- The log with the threads that call it. -/
abbrev SharedLog (τ : Type) := Sections Halt LogFile LogCall τ

/-- What the calls of a run are, one after the other. -/
structure Linearized (H : Host) (l₀ : LogFile) {τ : Type} [DecidableEq τ]
    (moves : List (Sections.Move LogCall τ)) (s : SharedLog τ) : Prop where
  /-- At most one thread is in its section. -/
  exclusive : ∀ t u, s.Inside t → s.Inside u → t = u
  /-- While none is, the log is what the calls make of it in the order in which they took `mutex_`. -/
  serial : s.owner = none → (logSystem H).exec l₀ (s.order.map Prod.snd) = some s.object
  /-- In that order a thread's calls are as the thread made them. -/
  each : ∀ t, Sections.ofThread t s.order ++ (s.place t).pending =
    moves.flatMap (Sections.Move.invokedBy t)
  /-- A call that had `mutex_` at some point of the run comes before the calls made from then on. -/
  realTime : ∀ earlier later s₁, moves = earlier ++ later →
    (sections (ByAccess.body H)).exec (Sections.init l₀) earlier = some s₁ →
      ∃ order, s.order = s₁.order ++ order ∧ ∀ t,
        Sections.ofThread t order ++ (s.place t).pending =
          (s₁.place t).pending ++ later.flatMap (Sections.Move.invokedBy t)

/-- **A `thread_safe` log is linearizable.**  However the accesses of its threads interleave, down to
single writes to the stream, the log is one that was called by one thread. -/
theorem shared_log_linearized {τ : Type} [DecidableEq τ] (H : Host) (l₀ : LogFile)
    (moves : List (Sections.Move LogCall τ)) {s : SharedLog τ}
    (hrun : (sections (ByAccess.body H)).exec (Sections.init l₀) moves = some s) :
    Linearized H l₀ moves s where
  exclusive t u ht hu := (serial_run (ByAccess.implements_body H) hrun).exclusive ht hu
  serial hfree := ((serial_run (ByAccess.implements_body H) hrun).free hfree).2
  each t := by
    obtain ⟨order, horder, hcalls⟩ := order_run hrun
    have hall : s.order = order := horder
    rw [hall, hcalls t]
    rfl
  realTime := by
    rintro earlier later s₁ rfl hearlier
    obtain ⟨s₂, hprefix, hlater⟩ := StepSystem.exec_append.mp hrun
    obtain rfl : s₁ = s₂ := Option.some.inj (hearlier.symm.trans hprefix)
    exact order_run hlater

/-! ## What the threads log is kept whole -/

/-- `fopen` succeeds, and every `fwrite_unlocked` takes at least one char of what it is offered. -/
structure Answers.Serves (a : Answers) : Prop where
  opened : a.fopen = true
  advances : ∀ k m, 0 < m → 0 < a.fwrite k m

/-- The same answers with a stream that takes everything at once. -/
def Answers.atOnce (a : Answers) : Answers := { a with fwrite := fun _ m => m }

theorem Answers.Serves.granted (h : a.Serves) : a.atOnce.Granted :=
  ⟨h.opened, fun _ m => Nat.le_refl m⟩

namespace FileUtil

/-- Short writes that advance get everything into the stream. -/
theorem writeRest_of_advances {fwrite : Nat → Nat → Nat} (h : ∀ k m, 0 < m → 0 < fwrite k m)
    (k : Nat) (f : FileUtil) (rest : List Byte) :
    writeRest fwrite k f rest = { f with accepted := f.accepted ++ rest } := by
  fun_induction writeRest fwrite k f rest with
  | case1 k f rest hremain x hx =>
    have := h k rest.length hremain
    omega
  | case2 k f rest hremain x hx ih =>
    rw [ih]
    simp only [write, List.append_assoc, List.take_append_drop]
  | case3 k f rest hremain =>
    rw [List.eq_nil_of_length_eq_zero (Nat.eq_zero_of_not_pos hremain), List.append_nil]

theorem append_atOnce (h : a.Serves) (data : List Byte) (f : FileUtil) :
    f.append a.fwrite data = f.append a.atOnce.fwrite data := by
  unfold append
  simp only [writeRest_of_advances h.advances, writeRest_of_advances (fun k m hm => hm), write,
    Answers.atOnce, Nat.min_self, List.drop_length, List.append_nil, List.take_length,
    List.append_assoc, List.take_append_drop]

end FileUtil

/-- An append whose short writes advance does what it would do if they were none. -/
theorem appendUnLocked_run_atOnce (h : a.Serves) :
    (appendUnLocked H a data).run l = (appendUnLocked H a.atOnce data).run l := by
  cases hfile : l.file with
  | none =>
    unfold appendUnLocked
    rw [run_bind_of_error (derefFile_run_none hfile), run_bind_of_error (derefFile_run_none hfile)]
  | some f =>
    rw [appendUnLocked_run_eq hfile, appendUnLocked_run_eq hfile, fed, fed,
      FileUtil.append_atOnce h data f]
    rfl

/-- What the call asks of the system is granted, in one piece or in several. -/
def LogCall.Served : LogCall → Prop
  | .append _ a => a.Serves
  | .flush => True

/-- The log is the work of calls that were served. -/
def Sound (l : LogFile) : Prop := ∃ records, Keeps records l

theorem keeps_served {records : List (List Byte)} {call : LogCall} (h : Keeps records l)
    (hcall : call.Served) :
    ∃ l', (logSystem H).step l call = some l' ∧ Keeps (records ++ call.appended) l' := by
  cases call with
  | append data a =>
    have hgranted : (LogCall.append data a.atOnce).Granted := hcall.granted
    obtain ⟨l', hstep, hkeeps⟩ := keeps_call (H := H) h hgranted
    refine ⟨l', ?_, hkeeps⟩
    rw [append_step_iff] at hstep ⊢
    rw [appendUnLocked_run_atOnce hcall, hstep]
  | flush => exact keeps_call h trivial

/-- A run of served calls comes to its end. -/
theorem keeps_served_run {records : List (List Byte)} {calls : List LogCall}
    (h : Keeps records l) (hcalls : ∀ call ∈ calls, call.Served)
    (hrun : (logSystem H).exec l calls = some l') :
    Keeps (records ++ calls.flatMap LogCall.appended) l' := by
  induction calls generalizing records l with
  | nil =>
    obtain rfl : l = l' := by simpa using hrun
    simpa using h
  | cons call calls ih =>
    obtain ⟨l₁, hstep, hrest⟩ := StepSystem.exec_cons.mp hrun
    obtain ⟨l₂, hstep₂, h₂⟩ := keeps_served (H := H) h (hcalls call List.mem_cons_self)
    obtain rfl : l₁ = l₂ := Option.some.inj (hstep.symm.trans hstep₂)
    rw [List.flatMap_cons, ← List.append_assoc]
    exact ih h₂ (fun c hc => hcalls c (List.mem_cons_of_mem call hc)) hrest

/-- What the threads' calls come to, whatever the interleaving. -/
structure KeptWhole (H : Host) {τ : Type} [DecidableEq τ]
    (moves : List (Sections.Move LogCall τ)) (s : SharedLog τ) : Prop where
  /-- While no thread is in its section, the files hold the records of the calls so far, each of them
  whole in one file, in the order in which the calls took `mutex_`. -/
  whole : s.owner = none →
    s.object.HoldsWhole ((s.order.map Prod.snd).flatMap LogCall.appended) ∧ s.object.OpenedInOrder
  /-- A thread's records are among them in the order in which it appended them, but for the one it
  still waits with. -/
  each : ∀ t, (Sections.ofThread t s.order ++ (s.place t).pending).flatMap LogCall.appended =
    (moves.flatMap (Sections.Move.invokedBy t)).flatMap LogCall.appended
  /-- No call is blocked for good. -/
  returns : ∀ t, ∃ more s', (sections (ByAccess.body H)).exec s more = some s' ∧
    s'.place t = .outside ∧ ∀ move ∈ more, move.Pending

/-- **Threads on a `thread_safe` log lose, split and mix nothing**, if the first reading of its clock
is later than second 0 and the system serves them, with short writes or without. -/
theorem shared_log_keeps_whole {τ : Type} [DecidableEq τ] {B : Build} {c : LogConfig}
    {l₀ : LogFile} (hnew : LogFile.construct B H c a = .ok l₀)
    (hlate : 0 < a.rollNow.timeSinceEpochSeconds) (moves : List (Sections.Move LogCall τ))
    (hserved : ∀ t call, .invoke t call ∈ moves → call.Served) {s : SharedLog τ}
    (hrun : (sections (ByAccess.body H)).exec (Sections.init l₀) moves = some s) :
    KeptWhole H moves s := by
  obtain ⟨-, -, rfl⟩ := construct_ok_iff.mp hnew
  have hstart : Keeps [] ((blank c).rolled H a) := keeps_construct hlate
  have hserial := serial_run (ByAccess.implements_body H) hrun
  obtain ⟨horder, hpending⟩ := made_of_run hserved hrun
  obtain ⟨order, hall, hcalls⟩ := order_run hrun
  replace hall : s.order = order := hall
  constructor
  · intro hfree
    have hcalls : ∀ call ∈ s.order.map Prod.snd, call.Served := by
      intro call hcall
      obtain ⟨c, hc, rfl⟩ := List.mem_map.mp hcall
      exact horder c hc
    have hkeeps := keeps_served_run hstart hcalls (hserial.free hfree).2
    exact ⟨hkeeps.holdsWhole, hkeeps.order⟩
  · intro t
    rw [hall, hcalls t]
    rfl
  · have hgood : ∀ (l : LogFile) (call : LogCall), Sound l → call.Served →
        ∃ l', (logSystem H).step l call = some l' ∧ Sound l' := by
      rintro l call ⟨records, hl⟩ hcall
      obtain ⟨l', hstep, hl'⟩ := keeps_served (H := H) hl hcall
      exact ⟨l', hstep, _, hl'⟩
    exact can_return (ByAccess.implements_body H) hgood ⟨[], hstart⟩ hserial horder hpending

/-! ## Two threads -/

/-- Files of one char. -/
def oneCharFiles : LogConfig := { baseName := "log", rollSize := 1 }

/-- Two chars, taken one at a time. -/
def firstAppend : LogCall := .append [1, 2] oneByOne

def secondAppend : LogCall := .append [3] (grantedAt 9)

/-- Both threads call before either has `mutex_`; then the one makes `n` accesses and the other `m`. -/
def twoAppends (n m : Nat) : List (Sections.Move LogCall Bool) :=
  [.invoke true firstAppend, .invoke false secondAppend] ++
    ((.lock true :: (List.replicate n (.access true) ++ [.unlock true])) ++
      (.lock false :: (List.replicate m (.access false) ++ [.unlock false])))

theorem firstAppend_served : firstAppend.Served := ⟨rfl, fun _ _ _ => Nat.one_pos⟩

theorem secondAppend_served : secondAppend.Served := ⟨rfl, fun _ _ hm => hm⟩

theorem twoAppends_served (n m : Nat) (t : Bool) (call : LogCall)
    (h : .invoke t call ∈ twoAppends n m) : call.Served := by
  have hcall : call = firstAppend ∨ call = secondAppend := by
    simp [twoAppends, List.mem_replicate] at h
    rcases h with ⟨-, h⟩ | ⟨-, h⟩
    · exact .inl h
    · exact .inr h
  rcases hcall with rfl | rfl
  · exact firstAppend_served
  · exact secondAppend_served

/-- Both calls return on any log that serves them, the one that took `mutex_` first before the
other. -/
theorem twoAppends_run {l₀ : LogFile} (hstart : Keeps [] l₀) : ∃ n m, ∃ s : SharedLog Bool,
    (sections (ByAccess.body someHost)).exec (Sections.init l₀) (twoAppends n m) = some s ∧
      s.owner = none ∧ s.order = [(true, firstAppend), (false, secondAppend)] := by
  obtain ⟨l₁, hfirst, h₁⟩ := keeps_served (H := someHost) hstart firstAppend_served
  obtain ⟨l₂, hsecond, -⟩ := keeps_served (H := someHost) h₁ secondAppend_served
  have himplements := ByAccess.implements_body someHost
  let place : Bool → Sections.Place Halt LogFile LogCall :=
    Function.update (Function.update (fun _ => .outside) true (.waiting firstAppend)) false
      (.waiting secondAppend)
  have hinvoked : (sections (ByAccess.body someHost)).exec (Sections.init l₀)
      [.invoke true firstAppend, .invoke false secondAppend] = some ⟨l₀, none, place, []⟩ :=
    StepSystem.exec_cons.mpr ⟨_, sectionStep_iff.mpr (.invoke firstAppend rfl),
      StepSystem.exec_cons.mpr ⟨_, sectionStep_iff.mpr (.invoke secondAppend rfl), rfl⟩⟩
  obtain ⟨n, hn⟩ := section_run (t := true) (s := ⟨l₀, none, place, []⟩) himplements rfl rfl hfirst
  obtain ⟨m, hm⟩ := section_run (t := false)
    (s := ⟨l₁, none, Function.update place true .outside, [(true, firstAppend)]⟩) himplements rfl rfl
    hsecond
  exact ⟨n, m, _, StepSystem.exec_append.mpr ⟨_, hinvoked, StepSystem.exec_append.mpr ⟨_, hn, hm⟩⟩,
    rfl, rfl⟩

theorem shared_log_linearized_two :
    ∃ n m, ∃ s : SharedLog Bool,
      (sections (ByAccess.body someHost)).exec
          (Sections.init ((blank oneCharFiles).rolled someHost (grantedAt 7))) (twoAppends n m) =
        some s ∧ s.order = [(true, firstAppend), (false, secondAppend)] ∧
      Linearized someHost ((blank oneCharFiles).rolled someHost (grantedAt 7)) (twoAppends n m) s := by
  have hstart : Keeps [] ((blank oneCharFiles).rolled someHost (grantedAt 7)) :=
    keeps_construct (by decide +kernel)
  obtain ⟨n, m, s, hrun, -, horder⟩ := twoAppends_run hstart
  exact ⟨n, m, s, hrun, horder, shared_log_linearized someHost _ (twoAppends n m) hrun⟩

theorem shared_log_keeps_whole_two :
    ∃ l₀ n m, ∃ s : SharedLog Bool,
      LogFile.construct .debug someHost oneCharFiles (grantedAt 7) = .ok l₀ ∧
      (sections (ByAccess.body someHost)).exec (Sections.init l₀) (twoAppends n m) = some s ∧
      s.owner = none ∧ s.order = [(true, firstAppend), (false, secondAppend)] ∧
      KeptWhole someHost (twoAppends n m) s := by
  have hnew := construct_granted (B := .debug) (c := oneCharFiles) 7 (by decide +kernel)
  have hstart : Keeps [] ((blank oneCharFiles).rolled someHost (grantedAt 7)) :=
    keeps_construct (by decide +kernel)
  obtain ⟨n, m, s, hrun, hfree, horder⟩ := twoAppends_run hstart
  exact ⟨_, n, m, s, hnew, hrun, hfree, horder, shared_log_keeps_whole hnew (by decide +kernel)
    (twoAppends n m) (twoAppends_served n m) hrun⟩

end TurboNet.Logger
