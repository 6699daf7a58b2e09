/-
# TurboNet.Logger.AsyncFiles — messages, from `AsyncLogging::Append` to the files.

`ThreadFunc` has a `LogFile` of its own: it is made before the first round, handed the batches, and
flushed after each round and at the end.  A `Pipeline` is a session with that `LogFile`.  Each step of
the backend thread makes the calls on it that stand there in the source, with what the system answers
to them; the steps of the producers and of the owner make none.

`messages_reach_files` composes what `AsyncConservation` says of the buffers with what `LogThreads`
says of a log that the system serves.
-/
import Mathlib.Data.List.Flatten
import Mathlib.Data.List.Forall2
import Mathlib.Data.List.Infix
import TurboNet.Logger.AsyncStop
import TurboNet.Logger.LogStream
import TurboNet.Logger.LogThreads

namespace TurboNet.Logger

open TurboNet.Lib
open TurboNet.Base
open AsyncLogging

variable {SIZE : Nat} {B : Build} {H : Host} {baseName : String} {rollSize : Int}

/-! ## The calls on `output` -/

/-- What the system answers to the calls of one step on the `LogFile`, and the reading of the clock for
the line about a cut batch. -/
structure Replies where
  answers : Answers
  now : Timestamp

/-- The line about a cut batch, as `snprintf` puts it into 256 chars. -/
def noticeText (H : Host) (now : Timestamp) (dropped : Nat) : List Byte :=
  (bytesOf ("Drop log messages at " ++ now.toFormatString H.localtime ++ ", " ++ toString dropped ++
    " larger buffers\n")).take 255

/-- The calls that the next step of the backend thread makes on its `LogFile`. -/
def fileCalls (H : Host) (r : Replies) (l : AsyncLogging SIZE) : List LogCall :=
  match l.place with
  | .batch =>
    if maxBatch < l.buffersToWrite.length then
      [.append (noticeText H r.now (l.buffersToWrite.length - 2)) r.answers]
    else []
  | .writing k =>
    match l.buffersToWrite[k]? with
    | some buffer => [.append (charsOf buffer) r.answers]
    | none => [.flush]
  | .loopTest => if l.running then [] else [.flush]
  | _ => []

/-- A session, and `output` of `ThreadFunc` once it is made. -/
structure Pipeline (SIZE : Nat) where
  session : Session SIZE
  output : Option LogFile

namespace Pipeline

def start (SIZE : Nat) : Pipeline SIZE := ⟨Session.init SIZE, none⟩

/-- `output` after the next step of the backend thread, unless the process dies. -/
def nextOutput (B : Build) (H : Host) (baseName : String) (rollSize : Int) (r : Replies)
    (p : Pipeline SIZE) : Option LogFile :=
  match p.session.log.place with
  | .entry =>
    match LogFile.construct B H { baseName := baseName, rollSize := rollSize } r.answers with
    | .ok l => some l
    | .error _ => none
  | _ => p.output.bind fun l => (logSystem H).exec l (fileCalls H r p.session.log)

/-- The pipeline when its session goes on to `s`. -/
def follow (B : Build) (H : Host) (baseName : String) (rollSize : Int) (p : Pipeline SIZE)
    (act : Act) (r : Replies) (s : Session SIZE) : Option (Pipeline SIZE) :=
  match act with
  | .backend => (p.nextOutput B H baseName rollSize r).map fun l => ⟨s, some l⟩
  | _ => some ⟨s, p.output⟩

def step (B : Build) (H : Host) (baseName : String) (rollSize : Int) (p : Pipeline SIZE)
    (move : Act × Replies) : Option (Pipeline SIZE) :=
  (p.session.step B move.1).bind (p.follow B H baseName rollSize move.1 move.2)

end Pipeline

/-- The runs of an asynchronous logger with its files. -/
def pipelineRuns (SIZE : Nat) (B : Build) (H : Host) (baseName : String) (rollSize : Int) :
    StepSystem (Pipeline SIZE) (Act × Replies) where
  step := Pipeline.step B H baseName rollSize

/-- The system serves the step, at a time after second 0. -/
structure Replies.Served (r : Replies) : Prop where
  serves : r.answers.Serves
  late : 0 < r.answers.rollNow.timeSinceEpochSeconds

/-! ## Flushing -/

namespace LogFile

variable {a : Answers} {data : List Byte} {l l' : LogFile} {f : FileUtil}

/-- The files that are not written any more have been closed. -/
def PastFlushed (l : LogFile) : Prop := ∀ f ∈ l.past, f.flushed = f.accepted.length

/-- Everything the streams have accepted has been passed on. -/
def AllFlushed (l : LogFile) : Prop := ∀ f ∈ l.files, f.flushed = f.accepted.length

theorem PastFlushed.rolled (h : l.PastFlushed) : (l.rolled H a).PastFlushed := by
  unfold LogFile.rolled
  split
  · intro f hf
    rcases List.mem_append.mp hf with hf | hf
    · exact h f hf
    · obtain ⟨g, -, rfl⟩ := List.mem_map.mp hf
      rfl
  · exact h

theorem AppendMove.pastFlushed (hmove : LogFile.AppendMove H a data l f l') (h : l.PastFlushed) :
    l'.PastFlushed := by
  cases hmove with
  | full => exact PastFlushed.rolled (l := l.fed a data f) h
  | day => exact PastFlushed.rolled (l := (l.fed a data f).counted) h
  | flushed => exact h
  | plain => exact h

theorem PastFlushed.flush (h : l.PastFlushed) (f : FileUtil) : (l.setFile f.flush).AllFlushed := by
  intro g hg
  rcases List.mem_append.mp hg with hg | hg
  · exact h g hg
  · obtain rfl : g = f.flush := by simpa [LogFile.setFile] using hg
    rfl

/-- A new log has one file with nothing in it. -/
theorem allFlushed_construct {c : LogConfig} (hlate : 0 < a.rollNow.timeSinceEpochSeconds) :
    ((blank c).rolled H a).AllFlushed := by
  have hnew : (blank c).lastRoll < a.rollNow.timeSinceEpochSeconds := hlate
  rw [LogFile.rolled, if_pos hnew]
  intro f hf
  obtain rfl : f = FileUtil.opened _ := by
    simpa [LogFile.files, LogFile.replaceFile, LogFile.stamped, LogFile.attempted, blank] using hf
  rfl

theorem Keeps.hasFile {records : List (List Byte)} (h : Keeps records l) : ∃ f, l.file = some f := by
  obtain ⟨p, hp, -⟩ := h.content
  obtain ⟨f, hfile, -⟩ := hp.file
  exact ⟨f, hfile⟩

end LogFile

/-! ## One step -/

/-- What `output.Append` was called with for a chunk. -/
inductive RecordOf (H : Host) : Chunk → List Byte → Prop
  | notice (now : Timestamp) (dropped : Nat) :
      RecordOf H (.notice dropped) (noticeText H now dropped)
  | chars (chars : List Byte) : RecordOf H (.chars chars) chars

/-- The `LogFile` has what the session says it was handed, and outside of the loop over
`buffers_to_write` nothing of it waits in a stream. -/
structure Delivered (H : Host) (log : AsyncLogging SIZE) (l : LogFile) : Prop where
  handed : ∃ records, List.Forall₂ (RecordOf H) log.output records ∧ l.Keeps records
  past : l.PastFlushed
  flushed : (∀ k, log.place ≠ .writing k) → l.AllFlushed

/-- There is a `LogFile` as soon as the backend has entered its loop. -/
def Joined (H : Host) (p : Pipeline SIZE) : Prop :=
  match p.session.log.place with
  | .unstarted | .entry => p.output = none ∧ p.session.log.output = []
  | _ => ∃ l, p.output = some l ∧ Delivered H p.session.log l

variable {log log' : AsyncLogging SIZE} {l : LogFile} {p : Pipeline SIZE} {r : Replies}

theorem joined_iff (hunstarted : p.session.log.place ≠ .unstarted)
    (hentry : p.session.log.place ≠ .entry) :
    Joined H p ↔ ∃ l, p.output = some l ∧ Delivered H p.session.log l := by
  unfold Joined
  split
  · rename_i h
    exact absurd h hunstarted
  · rename_i h
    exact absurd h hentry
  · rfl

theorem Joined.delivered (h : Joined H p) (hl : p.output = some l) : Delivered H p.session.log l := by
  unfold Joined at h
  split at h
  · cases hl.symm.trans h.1
  · cases hl.symm.trans h.1
  · obtain ⟨l', hl', hdelivered⟩ := h
    obtain rfl : l = l' := Option.some.inj (hl.symm.trans hl')
    exact hdelivered

theorem Joined.place_of_none (h : Joined H p) (hnone : p.output = none) :
    p.session.log.place = .unstarted ∨ p.session.log.place = .entry := by
  by_contra hplace
  obtain ⟨l, hl, -⟩ := (joined_iff (fun h => hplace (.inl h)) (fun h => hplace (.inr h))).mp h
  rw [hnone] at hl
  cases hl

theorem Delivered.congr (h : Delivered H log l) (hplace : log'.place = log.place)
    (houtput : log'.output = log.output) : Delivered H log' l := by
  obtain ⟨handed, past, flushed⟩ := h
  refine ⟨?_, past, ?_⟩
  · rwa [houtput]
  · rwa [hplace]

theorem Joined.congr {q : Pipeline SIZE} (h : Joined H p) (hfile : q.output = p.output)
    (hplace : q.session.log.place = p.session.log.place)
    (houtput : q.session.log.output = p.session.log.output) : Joined H q := by
  unfold Joined at h ⊢
  rw [hplace, hfile, houtput]
  split at h
  · exact h
  · exact h
  · obtain ⟨l, hl, hdelivered⟩ := h
    exact ⟨l, hl, hdelivered.congr hplace houtput⟩

/-- A call of `Append` that is served delivers its chunk. -/
theorem Delivered.append (h : Delivered H log l) (hserved : r.Served) {chunk : Chunk}
    {record : List Byte} (hrecord : RecordOf H chunk record)
    (houtput : log'.output = log.output ++ [chunk]) {k : Nat} (hplace : log'.place = .writing k) :
    ∃ l', (logSystem H).exec l [.append record r.answers] = some l' ∧ Delivered H log' l' := by
  obtain ⟨records, hall, hkeeps⟩ := h.handed
  obtain ⟨f, hfile⟩ := hkeeps.hasFile
  have hcall : (LogCall.append record r.answers).Served := hserved.serves
  obtain ⟨l', hstep, hkeeps'⟩ := keeps_served (H := H) hkeeps hcall
  have hmove := LogFile.appendMove_of_ok hfile (append_step_iff.mp hstep)
  refine ⟨l', StepSystem.exec_cons.mpr ⟨l', hstep, rfl⟩, ⟨_, ?_, hkeeps'⟩,
    hmove.pastFlushed h.past, fun hnot => absurd hplace (hnot k)⟩
  rw [houtput]
  exact List.rel_append hall (.cons hrecord .nil)

/-- `Flush` passes everything on. -/
theorem Delivered.flush (h : Delivered H log l) (houtput : log'.output = log.output) :
    ∃ l', (logSystem H).exec l [.flush] = some l' ∧ Delivered H log' l' := by
  obtain ⟨records, hall, hkeeps⟩ := h.handed
  obtain ⟨f, hfile⟩ := hkeeps.hasFile
  refine ⟨l.setFile f.flush, StepSystem.exec_cons.mpr ⟨_, flush_step hfile, rfl⟩, ⟨records, ?_, ?_⟩,
    h.past, fun _ => h.past.flush f⟩
  · rwa [houtput]
  · exact LogFile.keeps_flush hkeeps hfile

/-- A step that calls nothing and stays outside of the loop over the buffers, or enters it. -/
theorem Delivered.quiet (h : Delivered H log l) (houtput : log'.output = log.output)
    (hplace : ∀ k, log.place ≠ .writing k) : Delivered H log' l := by
  obtain ⟨handed, past, flushed⟩ := h
  refine ⟨?_, past, fun _ => flushed hplace⟩
  rwa [houtput]

/-- What the backend thread does in the loop, its `LogFile` can follow. -/
theorem delivered_move (hserved : r.Served) (h : Delivered H log l) (hentry : log.place ≠ .entry)
    (hmove : Move log log') :
    ∃ l', (logSystem H).exec l (fileCalls H r log) = some l' ∧ Delivered H log' l' := by
  unfold fileCalls
  cases hmove with
  | enter hplace => exact absurd hplace hentry
  | goOn hplace hrunning =>
    rw [hplace]
    simp only [hrunning, if_true]
    exact ⟨l, rfl, h.quiet rfl (by simp [hplace])⟩
  | leave hplace hrunning =>
    rw [hplace]
    simp only [hrunning, Bool.false_eq_true, if_false]
    exact h.flush rfl
  | park hplace =>
    rw [hplace]
    exact ⟨l, rfl, h.quiet rfl (by simp [hplace])⟩
  | swap hplace =>
    rcases hplace with hplace | hplace
    · rw [hplace]
      exact ⟨l, rfl, h.quiet (swapBuffers_output log) (by simp [hplace])⟩
    · rw [hplace]
      exact ⟨l, rfl, h.quiet (swapBuffers_output log) (by simp [hplace])⟩
  | cut hplace hsize =>
    rw [hplace]
    simp only [if_pos hsize]
    exact h.append hserved (.notice r.now _) rfl rfl
  | keep hplace hsize =>
    rw [hplace]
    simp only [if_neg (Nat.not_lt.mpr hsize)]
    exact ⟨l, rfl, h.quiet rfl (by simp [hplace])⟩
  | write k b hplace hentry =>
    rw [hplace]
    simp only [hentry]
    exact h.append hserved (.chars b.chars) rfl rfl
  | recycle k p₁ p₂ hplace hend =>
    rw [hplace]
    simp only [List.getElem?_eq_none hend]
    exact h.flush rfl

/-- Producers hand the `LogFile` nothing. -/
theorem output_append {data : Message} (h : AsyncLogging.AppendMove data log log') :
    log'.output = log.output := by
  cases h with
  | inPlace => rfl
  | rotated => rfl

/-- Nor does the backend before it has a `LogFile`. -/
theorem output_enter (h : Move log log') (hentry : log.place = .entry) :
    log'.output = log.output := by
  cases h with
  | enter => rfl
  | goOn => rfl
  | leave => rfl
  | park => rfl
  | swap => exact swapBuffers_output log
  | keep => rfl
  | recycle => rfl
  | cut hplace => simp [hentry] at hplace
  | write k b hplace => simp [hentry] at hplace

/-- Each step of the session is one of the pipeline, if it is served. -/
theorem joined_step (rollSize : Int) (hname : B.asserts = true → '/' ∉ baseName.toList) {act : Act}
    (hserved : r.Served) (hsane : SaneSession p.session) (hp : Joined H p) {s : Session SIZE}
    (hstep : (asyncRuns SIZE B).step p.session act = some s) :
    ∃ q, (pipelineRuns SIZE B H baseName rollSize).step p (act, r) = some q ∧ q.session = s ∧
      Joined H q := by
  have hcase := session_step_cases hsane.sane hstep
  have hfollow : (pipelineRuns SIZE B H baseName rollSize).step p (act, r) =
      p.follow B H baseName rollSize act r s := by
    change (p.session.step B act).bind _ = _
    rw [show p.session.step B act = some s from hstep]
    rfl
  rw [hfollow]
  cases hcase with
  | @append data log' hmove =>
    obtain ⟨-, -, hlog⟩ := p.session.appended_owner data log'
    refine ⟨_, rfl, rfl, hp.congr rfl ?_ ?_⟩
    · rw [hlog, hmove.kept.2]
    · rw [hlog, output_append hmove]
  | startStore => exact ⟨_, rfl, rfl, hp.congr rfl rfl rfl⟩
  | startReturn => exact ⟨_, rfl, rfl, hp.congr rfl rfl rfl⟩
  | stopCall => exact ⟨_, rfl, rfl, hp.congr rfl rfl rfl⟩
  | stopStore => exact ⟨_, rfl, rfl, hp.congr rfl rfl rfl⟩
  | stopJoin => exact ⟨_, rfl, rfl, hp.congr rfl rfl rfl⟩
  | startSpawn howner =>
    have howned := hsane.owned
    unfold Owned at howned
    rw [howner] at howned
    unfold Joined at hp
    rw [howned.2] at hp
    exact ⟨_, rfl, rfl, hp⟩
  | @backend log' hmove =>
    obtain ⟨-, -, hlog⟩ := p.session.moved_owner log'
    obtain ⟨-, hunstarted', hentry'⟩ := hmove.place
    obtain ⟨hunstarted, -⟩ := hmove.place.1
    have hnext : ∃ l, p.nextOutput B H baseName rollSize r = some l ∧ Delivered H log' l := by
      unfold Pipeline.nextOutput
      by_cases hentry : p.session.log.place = .entry
      · -- the `LogFile` is made
        unfold Joined at hp
        rw [hentry] at hp ⊢
        have hnew : LogFile.construct B H { baseName := baseName, rollSize := rollSize } r.answers =
            .ok _ := LogFile.construct_ok_iff.mpr ⟨hname, fun _ => hserved.serves.opened, rfl⟩
        have houtput : log'.output = [] := (output_enter hmove hentry).trans hp.2
        refine ⟨_, by rw [hnew], ⟨[], ?_, LogFile.keeps_construct hserved.late⟩, ?_, fun _ => ?_⟩
        · rw [houtput]
          exact .nil
        · exact fun f hf => LogFile.allFlushed_construct hserved.late f (List.mem_append_left _ hf)
        · exact LogFile.allFlushed_construct hserved.late
      · obtain ⟨l₀, hfile, hdelivered⟩ := (joined_iff hunstarted hentry).mp hp
        obtain ⟨l, hcalls, hl⟩ := delivered_move hserved hdelivered hentry hmove
        refine ⟨l, ?_, hl⟩
        split
        · rename_i h
          exact absurd h hentry
        · rw [hfile]
          exact hcalls
    obtain ⟨l, hl, hdelivered⟩ := hnext
    refine ⟨⟨p.session.moved log', some l⟩, by rw [Pipeline.follow, hl]; rfl, rfl, ?_⟩
    refine (joined_iff ?_ ?_).mpr ⟨l, rfl, ?_⟩
    · rwa [hlog]
    · rwa [hlog]
    · rwa [hlog]

theorem joined_start : Joined H (Pipeline.start SIZE) := ⟨rfl, rfl⟩

/-- **The files keep up.**  Every run of the session is one of the pipeline, if it is served. -/
theorem joined_run (rollSize : Int) (hname : B.asserts = true → '/' ∉ baseName.toList)
    {moves : List (Act × Replies)} (hserved : ∀ move ∈ moves, move.2.Served)
    (hsane : SaneSession p.session) (hp : Joined H p)
    {s : Session SIZE} (hrun : (asyncRuns SIZE B).exec p.session (moves.map Prod.fst) = some s) :
    ∃ q, (pipelineRuns SIZE B H baseName rollSize).exec p moves = some q ∧ q.session = s ∧
      Joined H q := by
  induction moves generalizing p with
  | nil =>
    obtain rfl : p.session = s := by simpa using hrun
    exact ⟨p, rfl, rfl, hp⟩
  | cons move moves ih =>
    obtain ⟨t, hstep, hrest⟩ := StepSystem.exec_cons.mp hrun
    obtain ⟨q, hq, rfl, hjoined⟩ := joined_step rollSize hname
      (hserved move List.mem_cons_self) hsane hp hstep
    have hsane' := saneSession_step hsane (session_step_cases hsane.sane hstep)
    obtain ⟨q', hrun', hsession, hjoined'⟩ := ih
      (fun m hm => hserved m (List.mem_cons_of_mem move hm)) hsane' hjoined hrest
    exact ⟨q', StepSystem.exec_cons.mpr ⟨q, hq, hrun'⟩, hsession, hjoined'⟩

/-! ## The texts handed over, as messages -/

variable {s : Session SIZE}

/-- No batch was cut. -/
def Uncut (s : Session SIZE) : Prop := ∀ batch ∈ s.batches, batch.length ≤ maxBatch

theorem kept_sublist (batch : List (BufferPtr SIZE)) : (kept batch).Sublist batch := by
  unfold kept
  split
  · exact List.take_sublist 2 batch
  · exact List.Sublist.refl batch

theorem flatten_map_kept_sublist (batches : List (List (BufferPtr SIZE))) :
    (batches.map kept).flatten.Sublist batches.flatten := by
  induction batches with
  | nil => exact List.Sublist.refl []
  | cons batch batches ih => exact (kept_sublist batch).append ih

theorem cutBatches_sublist (s : Session SIZE) :
    s.cutBatches.flatten.Sublist s.batches.flatten := by
  unfold Session.cutBatches
  split
  · rcases List.eq_nil_or_concat s.batches with hnil | ⟨earlier, batch, hconcat⟩
    · rw [hnil]
      exact List.Sublist.refl []
    · simp only [hconcat, List.concat_eq_append, List.dropLast_concat, List.getLast?_concat,
        Option.toList_some, List.flatten_append]
      exact (flatten_map_kept_sublist earlier).append (List.Sublist.refl _)
  · exact flatten_map_kept_sublist s.batches

/-- The texts of the chunks are blocks of messages: some of those taken, in order, and if no batch was
cut the first of them, in the end all. -/
theorem SessionInv.texts (hs : SessionInv s) :
    ∃ blocks : List (List Message), textsOf s.log.output = blocks.map List.flatten ∧
      blocks.Sublist (s.closed.take s.batches.flatten.length) ∧
      (Uncut s → blocks <+: s.closed.take s.batches.flatten.length ∧
        (s.log.place = .exited → blocks = s.closed.take s.batches.flatten.length)) := by
  have hwritten := hs.written
  by_cases huncut : Uncut s
  · rw [cutBatches_eq huncut, hs.holds_settled] at hwritten
    obtain ⟨blocks, rest, hsplit, hblocks, hrest⟩ := List.map_eq_append_iff.mp hwritten.symm
    refine ⟨blocks, hblocks.symm, ?_, fun _ => ⟨⟨rest, hsplit.symm⟩, fun hexited => ?_⟩⟩
    · rw [hsplit]
      exact List.sublist_append_left blocks rest
    · -- nothing is left to be written
      have hnothing : unwritten s.log = [] := by
        unfold unwritten
        rw [hexited]
      rw [hnothing] at hrest
      rw [hsplit, List.map_eq_nil_iff.mp hrest, List.append_nil]
  · have hsublist : (textsOf s.log.output).Sublist
        ((s.closed.take s.batches.flatten.length).map List.flatten) := by
      rw [← hs.holds_settled]
      refine List.Sublist.trans ?_ ((cutBatches_sublist s).map charsOf)
      rw [← hwritten]
      exact List.sublist_append_left _ _
    obtain ⟨blocks, hblocks, htexts⟩ := List.sublist_map_iff.mp hsublist
    exact ⟨blocks, htexts, hblocks, fun h => absurd h huncut⟩

theorem notice_not_mem_chunksOf (dropped : Nat) (ps : List (BufferPtr SIZE)) :
    .notice dropped ∉ chunksOf ps := by
  intro h
  obtain ⟨p, -, hp⟩ := List.mem_map.mp h
  cases hp

theorem notice_not_mem_render {batch : List (BufferPtr SIZE)} (h : batch.length ≤ maxBatch)
    (dropped : Nat) : .notice dropped ∉ render batch := by
  rw [render, noticeOf, if_neg (Nat.not_lt.mpr h), List.nil_append]
  exact notice_not_mem_chunksOf dropped _

/-- Only cut batches leave notices. -/
theorem SessionInv.no_notice (hs : SessionInv s) (huncut : Uncut s) (dropped : Nat) :
    .notice dropped ∉ s.log.output := by
  have hbatches : ∀ batches : List (List (BufferPtr SIZE)),
      (∀ batch ∈ batches, batch.length ≤ maxBatch) → .notice dropped ∉ batches.flatMap render := by
    intro batches hsize h
    obtain ⟨batch, hbatch, h⟩ := List.mem_flatMap.mp h
    exact notice_not_mem_render (hsize batch hbatch) dropped h
  have hhanded := hs.handed
  unfold Handed at hhanded
  split at hhanded
  · obtain ⟨earlier, hall, houtput⟩ := hhanded
    rw [houtput]
    refine hbatches earlier fun batch hbatch => huncut batch ?_
    rw [hall]
    exact List.mem_append_left _ hbatch
  · obtain ⟨earlier, batch, hall, -, houtput⟩ := hhanded
    have hlast : batch.length ≤ maxBatch := huncut batch (by rw [hall]; simp)
    rw [houtput, noticeOf, if_neg (Nat.not_lt.mpr hlast), List.nil_append]
    intro h
    rcases List.mem_append.mp h with h | h
    · refine hbatches earlier (fun batch hbatch => huncut batch ?_) h
      rw [hall]
      exact List.mem_append_left _ hbatch
    · exact notice_not_mem_chunksOf dropped _ h
  · rw [hhanded]
    exact hbatches s.batches huncut

/-! ## What the files say -/

/-- What a file is made of. -/
inductive Entry where
  | notice (now : Timestamp) (dropped : Nat)
  | message (m : Message)
  deriving DecidableEq

def Entry.text (H : Host) : Entry → List Byte
  | .notice now dropped => noticeText H now dropped
  | .message m => m

/-- The messages among them. -/
def messagesOf (entries : List Entry) : List Message :=
  entries.filterMap fun entry =>
    match entry with
    | .notice _ _ => none
    | .message m => some m

theorem messagesOf_append (xs ys : List Entry) :
    messagesOf (xs ++ ys) = messagesOf xs ++ messagesOf ys := List.filterMap_append

theorem messagesOf_messages (ms : List Message) : messagesOf (ms.map .message) = ms := by
  induction ms with
  | nil => rfl
  | cons m ms ih => exact congrArg (m :: ·) ih

theorem flatMap_text_messages (ms : List Message) :
    (ms.map Entry.message).flatMap (Entry.text H) = ms.flatten := by
  induction ms with
  | nil => rfl
  | cons m ms ih => rw [List.map_cons, List.flatMap_cons, ih, List.flatten_cons]; rfl

/-- The records of the `LogFile`, each read as entries: a notice, or a block of messages. -/
theorem exists_entries {chunks : List Chunk} {records : List (List Byte)}
    (hall : List.Forall₂ (RecordOf H) chunks records) {blocks : List (List Message)}
    (htexts : textsOf chunks = blocks.map List.flatten) :
    ∃ entries : List (List Entry), records = entries.map (List.flatMap (Entry.text H)) ∧
      messagesOf entries.flatten = blocks.flatten ∧
      ((∀ dropped, .notice dropped ∉ chunks) →
        entries.flatten = (messagesOf entries.flatten).map .message) := by
  induction hall generalizing blocks with
  | nil =>
    obtain rfl : blocks = [] := List.map_eq_nil_iff.mp htexts.symm
    exact ⟨[], rfl, rfl, fun _ => rfl⟩
  | @cons chunk record chunks records hrecord _ ih =>
    cases hrecord with
    | notice now dropped =>
      obtain ⟨entries, rfl, hmessages, -⟩ := ih htexts
      refine ⟨[.notice now dropped] :: entries, ?_, hmessages, fun hnone => ?_⟩
      · rw [List.map_cons, List.flatMap_singleton]
        rfl
      · exact absurd List.mem_cons_self (hnone dropped)
    | chars =>
      cases blocks with
      | nil => cases htexts
      | cons block blocks =>
        obtain ⟨rfl, hrest⟩ := List.cons.inj htexts
        obtain ⟨entries, rfl, hmessages, hplain⟩ := ih hrest
        refine ⟨block.map .message :: entries, ?_, ?_, fun hnone => ?_⟩
        · rw [List.map_cons, flatMap_text_messages]
        · rw [List.flatten_cons, messagesOf_append, messagesOf_messages, hmessages,
            List.flatten_cons]
        · rw [List.flatten_cons, messagesOf_append, messagesOf_messages, List.map_append,
            ← hplain fun dropped hmem => hnone dropped (List.mem_cons_of_mem _ hmem)]

/-- The files of a session, file by file as entries. -/
structure ReachesFiles (B : Build) (H : Host) (acts : List Act) (s : Session kLargeBuffer)
    (l : LogFile) (files : List (List Entry)) : Prop where
  /-- An entry is in one file. -/
  contents : l.files.map (·.accepted) = files.map (List.flatMap (Entry.text H))
  openings : l.OpenedInOrder
  /-- The messages are there in the order of their appends, none of them twice. -/
  inOrder : (messagesOf files.flatten).Sublist (appendedBy acts)
  /-- If no batch was cut there is nothing else, and no message is missing before the last. -/
  uncut : Uncut s → files.flatten = (messagesOf files.flatten).map .message ∧
    messagesOf files.flatten <+: appendedBy acts
  /-- `Stop` has returned, and the backend was about to take the buffers when it was to see
  `running_` cleared: every message appended before the call of `Stop` is there. -/
  stopped : Uncut s → (asyncRuns kLargeBuffer B).Along StopDrains (Session.init kLargeBuffer) acts →
    s.owner = .stopped → (appendedBy acts).take s.required <+: messagesOf files.flatten
  flushed : (∀ k, s.log.place ≠ .writing k) → l.AllFlushed

theorem settled_isPrefix (s : Session SIZE) : s.settled <+: s.messages := by
  unfold Session.settled Session.messages
  refine List.IsPrefix.trans ⟨(s.closed.drop s.batches.flatten.length).flatten, ?_⟩
    (List.prefix_append s.closed.flatten s.opened)
  rw [← List.flatten_append, List.take_append_drop]

theorem flatten_map_flatMap {α β : Type} (f : α → List β) (xss : List (List α)) :
    (xss.map (List.flatMap f)).flatten = xss.flatten.flatMap f := by
  induction xss with
  | nil => rfl
  | cons xs xss ih => rw [List.map_cons, List.flatten_cons, ih, List.flatten_cons, List.flatMap_append]

theorem draining_run {acts : List Act} (hshort : ∀ act ∈ acts, Short kLargeBuffer act)
    (hdrains : (asyncRuns kLargeBuffer B).Along StopDrains (Session.init kLargeBuffer) acts)
    {s : Session kLargeBuffer}
    (hrun : (asyncRuns kLargeBuffer B).exec (Session.init kLargeBuffer) acts = some s) :
    Draining s := by
  apply StepSystem.exec_invariant_along
    (C := fun s a => StopDrains s a ∧ Short kLargeBuffer a) ?_ draining_init
    (StepSystem.along_and hdrains (StepSystem.along_of_mem hshort _)) hrun
  intro t act t' ht hC hstep
  exact draining_step (by decide) ht hC.2 hC.1 (session_step_cases ht.inv.sane hstep)

/-- A log that was delivered what the session says reads as entries. -/
theorem Delivered.reaches {acts : List Act} {s : Session kLargeBuffer} {l : LogFile}
    (hshort : ∀ act ∈ acts, Short kLargeBuffer act)
    (hrun : (asyncRuns kLargeBuffer B).exec (Session.init kLargeBuffer) acts = some s)
    (h : Delivered H s.log l) : ∃ files, ReachesFiles B H acts s l files := by
  obtain ⟨hs, hmessages⟩ := session_run_inv (by decide) hshort hrun
  obtain ⟨records, hall, hkeeps⟩ := h.handed
  obtain ⟨blocks, htexts, hsublist, hfirst⟩ := hs.texts
  obtain ⟨entries, hrecords, hblocks, hplain⟩ := exists_entries hall htexts
  obtain ⟨pieces, hpieces, hfiles⟩ := hkeeps.holdsWhole.whole
  obtain ⟨groups, rfl, rfl⟩ := exists_flatten_map (hpieces.trans hrecords)
  have hflatten : (groups.map List.flatten).flatten = groups.flatten.flatten :=
    List.flatten_flatten.symm
  refine ⟨groups.map List.flatten, ?_, hkeeps.order, ?_, ?_, ?_, h.flushed⟩
  · rw [hfiles, List.map_map, List.map_map]
    exact List.map_congr_left fun group _ => flatten_map_flatMap (Entry.text H) group
  · rw [hflatten, hblocks, ← hmessages]
    exact hsublist.flatten.trans (settled_isPrefix s).sublist
  · intro huncut
    rw [hflatten]
    refine ⟨hplain (hs.no_notice huncut), ?_⟩
    rw [hblocks, ← hmessages]
    exact (hfirst huncut).1.flatten.trans (settled_isPrefix s)
  · intro huncut hdrains hstopped
    have howned := hs.owned
    unfold Owned at howned
    rw [hstopped] at howned
    have htaken : s.required ≤ s.settled.length :=
      ((draining_run hshort hdrains hrun).complete hstopped).taken
    rw [hflatten, hblocks, (hfirst huncut).2 howned.2, ← hmessages]
    refine List.prefix_of_prefix_length_le (List.take_prefix _ _) (settled_isPrefix s) ?_
    rw [List.length_take]
    exact Nat.le_trans (Nat.min_le_left _ _) htaken

/-- **From `Append` to the files.**  Whatever the interleaving of producers, backend and owner, if the
messages are shorter than a buffer and the system serves the backend's calls, with short writes or
without, the backend is never held up by its `LogFile`, and the files read as notices and messages:
each message whole in one file, in the order of the appends, none twice, and but for cut batches
none left out before the last. -/
theorem messages_reach_files (B : Build) (H : Host) (baseName : String) (rollSize : Int)
    (hname : B.asserts = true → '/' ∉ baseName.toList) (moves : List (Act × Replies))
    (hshort : ∀ move ∈ moves, Short kLargeBuffer move.1)
    (hserved : ∀ move ∈ moves, move.2.Served) {s : Session kLargeBuffer}
    (hrun : (asyncRuns kLargeBuffer B).exec (Session.init kLargeBuffer) (moves.map Prod.fst) =
      some s) :
    ∃ p, (pipelineRuns kLargeBuffer B H baseName rollSize).exec (Pipeline.start kLargeBuffer) moves =
        some p ∧ p.session = s ∧
      (p.output = none → s.log.place = .unstarted ∨ s.log.place = .entry) ∧
      ∀ l, p.output = some l → ∃ files, ReachesFiles B H (moves.map Prod.fst) s l files := by
  have hsane : SaneSession (Pipeline.start kLargeBuffer).session := saneSession_init
  have hstart : Joined H (Pipeline.start kLargeBuffer) := joined_start
  obtain ⟨p, hexec, rfl, hjoined⟩ := joined_run rollSize hname hserved hsane hstart hrun
  refine ⟨p, hexec, rfl, hjoined.place_of_none, fun l hl => ?_⟩
  have hshort : ∀ act ∈ moves.map Prod.fst, Short kLargeBuffer act := by
    intro act hact
    obtain ⟨move, hmove, rfl⟩ := List.mem_map.mp hact
    exact hshort move hmove
  exact (hjoined.delivered hl).reaches hshort hrun

/-- A message before the first round, one before `Stop` is called, and one after. -/
def threeMessages : List (Act × Replies) :=
  [Act.startStore, .startSpawn, .append [1, 2], .backend, .startReturn, .backend, .backend, .append [3],
    .stopCall, .append [4], .stopStore, .backend, .backend, .backend, .backend, .backend,
    .stopJoin].map fun act => (act, ⟨oneByOne, ⟨0⟩⟩)

theorem messages_reach_files_three :
    ∃ s p l files, (asyncRuns kLargeBuffer .debug).exec (Session.init kLargeBuffer)
        (threeMessages.map Prod.fst) = some s ∧ s.owner = .stopped ∧
      (pipelineRuns kLargeBuffer .debug someHost "log" 1).exec (Pipeline.start kLargeBuffer)
        threeMessages = some p ∧ p.output = some l ∧
      ReachesFiles .debug someHost (threeMessages.map Prod.fst) s l files := by
  have hsome : ((asyncRuns kLargeBuffer .debug).exec (Session.init kLargeBuffer)
      (threeMessages.map Prod.fst)).map (fun s => (s.owner, s.log.place)) =
        some (.stopped, .exited) := by
    decide +kernel
  obtain ⟨s, hrun, hend⟩ := Option.map_eq_some_iff.mp hsome
  obtain ⟨howner, hplace⟩ := Prod.mk.inj hend
  have hlate : 0 < oneByOne.rollNow.timeSinceEpochSeconds := by decide +kernel
  have hserved : ∀ move ∈ threeMessages, move.2.Served := by
    intro move hmove
    obtain ⟨act, -, rfl⟩ := List.mem_map.mp hmove
    exact ⟨⟨rfl, fun _ _ _ => Nat.one_pos⟩, hlate⟩
  obtain ⟨p, hexec, -, hjoined, hreaches⟩ := messages_reach_files .debug someHost "log" 1
    (by decide) threeMessages (by decide) hserved hrun
  cases houtput : p.output with
  | none =>
    rcases hjoined houtput with h | h
    · rw [hplace] at h
      cases h
    · rw [hplace] at h
      cases h
  | some l =>
    obtain ⟨files, h⟩ := hreaches l houtput
    exact ⟨s, p, l, files, hrun, howner, hexec, houtput, h⟩

end TurboNet.Logger
