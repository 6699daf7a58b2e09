/-
# TurboNet.Logger.AsyncConservation — the asynchronous logger conserves messages.

A schedule interleaves the sections of any number of producers, the steps of the backend thread and
the owner's `Start` and `Stop`.  A `Session` keeps, next to the logger, what happened so far: the
batches the backend took, and which messages were copied into which buffer.  Buffers travel between
eight places; the invariant `SessionInv` says that each holds exactly the messages copied into it
since it was last empty, and that the `LogFile` was handed the batches in order, cut by the rule.
It is kept where the buffers are sane and `ThreadFunc` is where the handle's flags say
(`SaneSession`), which every step keeps by itself.

`conserves_messages` reads it off at every reachable state.
-/
import TurboNet.Logger.AsyncSpec

namespace TurboNet.Logger

open TurboNet.Lib
open AsyncLogging

variable {SIZE : Nat}

/-- A message, as the bytes passed to `Append`. -/
abbrev Message := List Byte

/-! ## What the `LogFile` is handed -/

def charsOf (p : BufferPtr SIZE) : List Byte :=
  match p with
  | some b => b.chars
  | none => []

/-- The buffers of a batch that are written: all of them, or the first two of more than 25. -/
def kept (batch : List (BufferPtr SIZE)) : List (BufferPtr SIZE) :=
  if maxBatch < batch.length then batch.take 2 else batch

/-- The notice a cut batch leaves. -/
def noticeOf (batch : List (BufferPtr SIZE)) : List Chunk :=
  if maxBatch < batch.length then [.notice (batch.length - 2)] else []

def chunksOf (ps : List (BufferPtr SIZE)) : List Chunk := ps.map fun p => .chars (charsOf p)

/-- Everything the `LogFile` is handed for a batch. -/
def render (batch : List (BufferPtr SIZE)) : List Chunk := noticeOf batch ++ chunksOf (kept batch)

/-- The texts handed to `output.Append`, the drop notices left out. -/
def textsOf (chunks : List Chunk) : List (List Byte) :=
  chunks.filterMap fun chunk =>
    match chunk with
    | .notice _ => none
    | .chars chars => some chars

theorem textsOf_append (xs ys : List Chunk) : textsOf (xs ++ ys) = textsOf xs ++ textsOf ys :=
  List.filterMap_append

theorem textsOf_chunksOf (ps : List (BufferPtr SIZE)) : textsOf (chunksOf ps) = ps.map charsOf := by
  unfold textsOf chunksOf
  rw [List.filterMap_map, ← List.filterMap_eq_map]
  rfl

theorem textsOf_noticeOf (batch : List (BufferPtr SIZE)) : textsOf (noticeOf batch) = [] := by
  unfold noticeOf
  split
  · rfl
  · rfl

theorem textsOf_render (batch : List (BufferPtr SIZE)) :
    textsOf (render batch) = (kept batch).map charsOf := by
  unfold render
  rw [textsOf_append, textsOf_noticeOf, textsOf_chunksOf, List.nil_append]

theorem textsOf_flatMap_render (batches : List (List (BufferPtr SIZE))) :
    textsOf (batches.flatMap render) = (batches.flatMap kept).map charsOf := by
  induction batches with
  | nil => rfl
  | cons batch batches ih =>
    rw [List.flatMap_cons, List.flatMap_cons, textsOf_append, textsOf_render, ih, List.map_append]

/-- The buffers of `buffers_to_write` that are still to be written. -/
def unwritten (l : AsyncLogging SIZE) : List (BufferPtr SIZE) :=
  match l.place with
  | .batch => l.buffersToWrite
  | .writing k => l.buffersToWrite.drop k
  | _ => []

/-! ## Sessions -/

/-- How far the owner has come: its calls of `Start` and `Stop`, cut at the accesses of `running_`,
at the start and at the end of the backend thread. -/
inductive Owner where
  | constructed
  | starting
  | spawned
  | started
  | stopping
  | joining
  | stopped
  deriving DecidableEq, Repr

/-- A logger with its owner and its history: the batches taken so far, the messages copied into each
buffer handed over to `buffers_` so far and into the current one, and how many messages had been
appended when `Stop` was called. -/
structure Session (SIZE : Nat) where
  log : AsyncLogging SIZE
  owner : Owner
  batches : List (List (BufferPtr SIZE))
  closed : List (List Message)
  opened : List Message
  required : Nat
  deriving DecidableEq, Repr

/-- A step of the owner, of a producer or of the backend thread. -/
inductive Act where
  | append (data : Message)
  | startStore
  | startSpawn
  | startReturn
  | stopCall
  | stopStore
  | stopJoin
  | backend
  deriving DecidableEq, Repr

namespace Session

/-- A logger that was just constructed. -/
def init (SIZE : Nat) : Session SIZE where
  log := construct SIZE
  owner := .constructed
  batches := []
  closed := []
  opened := []
  required := 0

/-- All messages appended so far, in the order of their sections. -/
def messages (s : Session SIZE) : List Message := s.closed.flatten ++ s.opened

/-- `data` was appended; if `current_buffer_` was handed over, it went into a new buffer. -/
def appended (s : Session SIZE) (data : Message) (l : AsyncLogging SIZE) : Session SIZE :=
  if l.buffers.length = s.log.buffers.length then
    { s with log := l, opened := s.opened ++ [data] }
  else
    { s with log := l, closed := s.closed ++ [s.opened], opened := [data] }

/-- The backend thread moved; if it took a batch, a new buffer is the current one. -/
def moved (s : Session SIZE) (l : AsyncLogging SIZE) : Session SIZE :=
  if l.place = .batch then
    { s with
      log := l, batches := s.batches ++ [l.buffersToWrite]
      closed := s.closed ++ [s.opened], opened := [] }
  else
    { s with log := l }

/-- The logger after a function that returns. -/
def ran (m : Method SIZE Unit) (l : AsyncLogging SIZE) : Option (AsyncLogging SIZE) :=
  match m.run l with
  | .ok _ l' => some l'
  | .error _ _ => none

def step (B : Build) (s : Session SIZE) : Act → Option (Session SIZE)
  | .append data => (ran (AsyncLogging.append data) s.log).map (s.appended data)
  | .startStore =>
    if s.owner = .constructed then
      some { s with log := { s.log with running := true }, owner := .starting }
    else none
  | .startSpawn =>
    if s.owner = .starting then some { s with log := s.log.goto .entry, owner := .spawned } else none
  | .startReturn =>
    -- `latch_.Wait()` returns after `latch_.CountDown()`
    if s.owner = .spawned ∧ s.log.place ≠ .entry then some { s with owner := .started } else none
  | .stopCall =>
    if s.owner = .started then
      some { s with owner := .stopping, required := s.messages.length }
    else none
  | .stopStore =>
    if s.owner = .stopping then
      some { s with log := { s.log with running := false }, owner := .joining }
    else none
  | .stopJoin =>
    if s.owner = .joining ∧ s.log.place = .exited then some { s with owner := .stopped } else none
  | .backend =>
    if s.log.place = .unstarted ∨ s.log.place = .exited then none
    else (ran (threadFunc B s.log.place) s.log).map s.moved

end Session

/-- The runs of an asynchronous logger. -/
def asyncRuns (SIZE : Nat) (B : Build) : StepSystem (Session SIZE) Act where
  step := Session.step B

/-! ## Steps -/

variable {B : Build} {s s' : Session SIZE}

/-- `running_` and the backend's place, as far as the owner has come. -/
def Owned (s : Session SIZE) : Prop :=
  match s.owner with
  | .constructed => s.log.running = false ∧ s.log.place = .unstarted
  | .starting => s.log.running = true ∧ s.log.place = .unstarted
  | .spawned => s.log.running = true ∧ s.log.place ≠ .unstarted
  | .started | .stopping =>
    s.log.running = true ∧ s.log.place ≠ .unstarted ∧ s.log.place ≠ .entry
  | .joining => s.log.running = false ∧ s.log.place ≠ .unstarted ∧ s.log.place ≠ .entry
  | .stopped => s.log.running = false ∧ s.log.place = .exited

/-- What a step can do to a session whose logger is sane. -/
inductive SessionStep (s : Session SIZE) : Act → Session SIZE → Prop
  | append {data : Message} {l : AsyncLogging SIZE} (h : AppendMove data s.log l) :
      SessionStep s (.append data) (s.appended data l)
  | startStore (h : s.owner = .constructed) :
      SessionStep s .startStore { s with log := { s.log with running := true }, owner := .starting }
  | startSpawn (h : s.owner = .starting) :
      SessionStep s .startSpawn { s with log := s.log.goto .entry, owner := .spawned }
  | startReturn (h : s.owner = .spawned) (hlatch : s.log.place ≠ .entry) :
      SessionStep s .startReturn { s with owner := .started }
  | stopCall (h : s.owner = .started) :
      SessionStep s .stopCall { s with owner := .stopping, required := s.messages.length }
  | stopStore (h : s.owner = .stopping) :
      SessionStep s .stopStore { s with log := { s.log with running := false }, owner := .joining }
  | stopJoin (h : s.owner = .joining) (hexited : s.log.place = .exited) :
      SessionStep s .stopJoin { s with owner := .stopped }
  | backend {l : AsyncLogging SIZE} (h : Move s.log l) : SessionStep s .backend (s.moved l)

theorem ran_of_run {m : Method SIZE Unit} {l l' : AsyncLogging SIZE} (h : m.run l = .ok () l') :
    Session.ran m l = some l' := by
  unfold Session.ran
  rw [h]

theorem session_step_cases (hl : Sane s.log) {a : Act} (h : (asyncRuns SIZE B).step s a = some s') :
    SessionStep s a s' := by
  have h : s.step B a = some s' := h
  cases a with
  | append data =>
    obtain ⟨l, hrun, hmove⟩ := append_moves hl data
    rw [Session.step, ran_of_run hrun, Option.map_some] at h
    cases h
    exact .append hmove
  | startStore =>
    simp only [Session.step, Option.ite_none_right_eq_some, Option.some.injEq] at h
    obtain ⟨howner, rfl⟩ := h
    exact .startStore howner
  | startSpawn =>
    simp only [Session.step, Option.ite_none_right_eq_some, Option.some.injEq] at h
    obtain ⟨howner, rfl⟩ := h
    exact .startSpawn howner
  | startReturn =>
    simp only [Session.step, Option.ite_none_right_eq_some, Option.some.injEq] at h
    obtain ⟨⟨howner, hlatch⟩, rfl⟩ := h
    exact .startReturn howner hlatch
  | stopCall =>
    simp only [Session.step, Option.ite_none_right_eq_some, Option.some.injEq] at h
    obtain ⟨howner, rfl⟩ := h
    exact .stopCall howner
  | stopStore =>
    simp only [Session.step, Option.ite_none_right_eq_some, Option.some.injEq] at h
    obtain ⟨howner, rfl⟩ := h
    exact .stopStore howner
  | stopJoin =>
    simp only [Session.step, Option.ite_none_right_eq_some, Option.some.injEq] at h
    obtain ⟨⟨howner, hexited⟩, rfl⟩ := h
    exact .stopJoin howner hexited
  | backend =>
    simp only [Session.step, Option.ite_none_left_eq_some] at h
    obtain ⟨hplace, h⟩ := h
    obtain ⟨l, hrun, hmove⟩ := threadFunc_moves (B := B) hl (fun h => hplace (.inl h))
      (fun h => hplace (.inr h))
    rw [ran_of_run hrun, Option.map_some] at h
    cases h
    exact .backend hmove

/-! ## Sane sessions -/

/-- The owner and its mark are not moved by a producer or by the backend thread. -/
theorem Session.appended_owner (s : Session SIZE) (data : Message) (l : AsyncLogging SIZE) :
    (s.appended data l).owner = s.owner ∧ (s.appended data l).required = s.required ∧
      (s.appended data l).log = l := by
  unfold Session.appended
  split
  · exact ⟨rfl, rfl, rfl⟩
  · exact ⟨rfl, rfl, rfl⟩

theorem Session.moved_owner (s : Session SIZE) (l : AsyncLogging SIZE) :
    (s.moved l).owner = s.owner ∧ (s.moved l).required = s.required ∧ (s.moved l).log = l := by
  unfold Session.moved
  split
  · exact ⟨rfl, rfl, rfl⟩
  · exact ⟨rfl, rfl, rfl⟩

theorem Owned.congr (h : Owned s) (howner : s'.owner = s.owner)
    (hrunning : s'.log.running = s.log.running) (hplace : s'.log.place = s.log.place) : Owned s' := by
  unfold Owned at h ⊢
  rw [howner, hrunning, hplace]
  exact h

/-- The owner knows no more of a move than that the backend thread is under way. -/
theorem Owned.moved {l : AsyncLogging SIZE} (h : Owned s) (hmove : Move s.log l)
    {s' : Session SIZE} (hlog : s'.log = l) (howner : s'.owner = s.owner) : Owned s' := by
  obtain ⟨⟨hstarted, hexited⟩, hunstarted, hentry⟩ := hmove.place
  have hrunning := hmove.running
  unfold Owned at h ⊢
  rw [howner, hlog]
  cases ho : s.owner with
  | constructed =>
    rw [ho] at h
    exact absurd h.2 hstarted
  | starting =>
    rw [ho] at h
    exact absurd h.2 hstarted
  | spawned =>
    rw [ho] at h
    exact ⟨hrunning.trans h.1, hunstarted⟩
  | started =>
    rw [ho] at h
    exact ⟨hrunning.trans h.1, hunstarted, hentry⟩
  | stopping =>
    rw [ho] at h
    exact ⟨hrunning.trans h.1, hunstarted, hentry⟩
  | joining =>
    rw [ho] at h
    exact ⟨hrunning.trans h.1, hunstarted, hentry⟩
  | stopped =>
    rw [ho] at h
    exact absurd h.2 hexited

/-- A session whose pointers are in order. -/
structure SaneSession (s : Session SIZE) : Prop where
  sane : Sane s.log
  owned : Owned s

theorem saneSession_init : SaneSession (Session.init SIZE) := ⟨sane_construct, ⟨rfl, rfl⟩⟩

theorem saneSession_step {act : Act} (hs : SaneSession s) (h : SessionStep s act s') :
    SaneSession s' := by
  have howned := hs.owned
  unfold Owned at howned
  -- a store to `running_` while the backend is past its entry, or not there yet
  have hstore (b : Bool) (hne : s.log.place ≠ .entry) : Sane { s.log with running := b } :=
    ⟨hs.sane.current, hs.sane.next, hs.sane.buffers,
      hs.sane.stack.congr rfl (fun he => absurd he hne) rfl rfl rfl⟩
  cases h with
  | @append data l h =>
    obtain ⟨howner, -, hlog⟩ := s.appended_owner data l
    obtain ⟨hrunning, hplace⟩ := h.kept
    refine ⟨?_, hs.owned.congr howner (by rw [hlog, hrunning]) (by rw [hlog, hplace])⟩
    rw [hlog]
    exact h.sane hs.sane
  | @backend l h =>
    obtain ⟨howner, -, hlog⟩ := s.moved_owner l
    refine ⟨?_, hs.owned.moved h hlog howner⟩
    rw [hlog]
    exact h.sane hs.sane
  | startStore h =>
    rw [h] at howned
    exact ⟨hstore true (by simp [howned.2]), ⟨rfl, howned.2⟩⟩
  | startSpawn h =>
    rw [h] at howned
    exact ⟨⟨hs.sane.current, hs.sane.next, hs.sane.buffers, howned.1⟩, ⟨howned.1, by simp [goto]⟩⟩
  | startReturn h hlatch =>
    rw [h] at howned
    exact ⟨hs.sane, ⟨howned.1, howned.2, hlatch⟩⟩
  | stopCall h =>
    rw [h] at howned
    exact ⟨hs.sane, howned⟩
  | stopStore h =>
    rw [h] at howned
    exact ⟨hstore false howned.2.2, ⟨rfl, howned.2⟩⟩
  | stopJoin h hexited =>
    rw [h] at howned
    exact ⟨hs.sane, ⟨howned.1, hexited⟩⟩

theorem saneSession_run {acts : List Act}
    (hrun : (asyncRuns SIZE B).exec (Session.init SIZE) acts = some s) : SaneSession s :=
  StepSystem.exec_invariant
    (fun _ _ _ hs hstep => saneSession_step hs (session_step_cases hs.sane hstep))
    saneSession_init hrun

/-! ## The invariant -/

/-- What the `LogFile` was handed: the batches before the last, and of the last as much as the backend
has come to. -/
def Handed (s : Session SIZE) : Prop :=
  match s.log.place with
  | .batch =>
    ∃ earlier, s.batches = earlier ++ [s.log.buffersToWrite] ∧
      s.log.output = earlier.flatMap render
  | .writing k =>
    ∃ earlier batch, s.batches = earlier ++ [batch] ∧ s.log.buffersToWrite = kept batch ∧
      s.log.output = earlier.flatMap render ++ (noticeOf batch ++ chunksOf ((kept batch).take k))
  | _ => s.log.output = s.batches.flatMap render

/-- Every buffer holds the messages copied into it, and the batches went to the `LogFile`. -/
structure SessionInv (s : Session SIZE) : Prop where
  sane : Sane s.log
  owned : Owned s
  full : ∀ batch ∈ s.batches, ∀ p ∈ batch, p.isSome
  closed : (s.batches.flatten ++ s.log.buffers).map charsOf = s.closed.map List.flatten
  opened : charsOf s.log.currentBuffer = s.opened.flatten
  handed : Handed s

theorem sessionInv_init : SessionInv (Session.init SIZE) where
  sane := sane_construct
  owned := ⟨rfl, rfl⟩
  full := by
    intro batch hbatch
    cases hbatch
  closed := rfl
  opened := rfl
  handed := rfl

theorem Handed.congr (h : Handed s) (hplace : s'.log.place = s.log.place)
    (hbatch : s'.log.buffersToWrite = s.log.buffersToWrite)
    (houtput : s'.log.output = s.log.output) (hbatches : s'.batches = s.batches) : Handed s' := by
  unfold Handed at h ⊢
  rw [hplace, hbatch, houtput, hbatches]
  exact h

/-- While no batch is in the backend's hands, everything taken has been written. -/
theorem handed_idle_iff (hbatch : s.log.place ≠ .batch) (hwriting : ∀ k, s.log.place ≠ .writing k) :
    Handed s ↔ s.log.output = s.batches.flatMap render := by
  unfold Handed
  cases hplace : s.log.place with
  | batch => exact absurd hplace hbatch
  | writing k => exact absurd hplace (hwriting k)
  | unstarted => rfl
  | entry => rfl
  | loopTest => rfl
  | section_ => rfl
  | waiting => rfl
  | exited => rfl

theorem castInt_of_lt {len : Nat} (h : len < 2 ^ 31) : castInt len = len := by
  unfold castInt
  apply Int.bmod_eq_of_le_mul_two
  · omega
  · omega

/-- A message shorter than the buffers is appended whole, in either way. -/
theorem append_inv (hSIZE : SIZE ≤ 2 ^ 31) {data : Message} (hshort : data.length < SIZE)
    {l : AsyncLogging SIZE} (hs : SessionInv s) (h : AppendMove data s.log l) :
    SessionInv (s.appended data l) := by
  have hsane := h.sane hs.sane
  cases h with
  | inPlace b hcurrent hroom =>
    have happended : s.appended data (s.log.setCurrent (some (b.append data))) =
        { s with log := s.log.setCurrent (some (b.append data)), opened := s.opened ++ [data] } :=
      if_pos rfl
    rw [happended]
    refine ⟨hsane, hs.owned, hs.full, hs.closed, ?_, hs.handed.congr rfl rfl rfl rfl⟩
    have hfits : data.length < b.avail := by
      rw [castInt_of_lt (by omega)] at hroom
      omega
    have hopened := hs.opened
    rw [hcurrent] at hopened
    show (b.append data).chars = (s.opened ++ [data]).flatten
    rw [FixedBuffer.append_chars hfits, List.flatten_append, ← hopened]
    simp [charsOf]
  | rotated b fresh hcurrent hroom hfresh =>
    have happended : s.appended data
          (s.log.pushCurrent.takeNext.setCurrent (some (fresh.append data))) =
        { s with
          log := s.log.pushCurrent.takeNext.setCurrent (some (fresh.append data))
          closed := s.closed ++ [s.opened], opened := [data] } := by
      refine if_neg ?_
      show ¬ (s.log.buffers ++ [s.log.currentBuffer]).length = s.log.buffers.length
      simp
    rw [happended]
    refine ⟨hsane, hs.owned, hs.full, ?_, ?_, hs.handed.congr rfl rfl rfl rfl⟩
    · -- the buffer handed over takes its messages along
      show (s.batches.flatten ++ (s.log.buffers ++ [s.log.currentBuffer])).map charsOf = _
      rw [← List.append_assoc, List.map_append, hs.closed, List.map_append]
      simp [hs.opened]
    · show (fresh.append data).chars = [data].flatten
      rw [FixedBuffer.append_chars_of_empty hfresh hshort]
      simp

/-- A move that leaves the producers' side alone keeps what the buffers hold. -/
theorem moved_inv_of_frame {l : AsyncLogging SIZE} (hs : SessionInv s) (h : Move s.log l)
    (hbatch : l.place ≠ .batch) (hcurrent : l.currentBuffer = s.log.currentBuffer)
    (hbuffers : l.buffers = s.log.buffers) (howned : Owned { s with log := l })
    (hhanded : Handed { s with log := l }) : SessionInv (s.moved l) := by
  have hmoved : s.moved l = { s with log := l } := if_neg hbatch
  rw [hmoved]
  refine ⟨h.sane hs.sane, howned, hs.full, ?_, ?_, hhanded⟩
  · show (s.batches.flatten ++ l.buffers).map charsOf = _
    rw [hbuffers]
    exact hs.closed
  · show charsOf l.currentBuffer = _
    rw [hcurrent]
    exact hs.opened

/-- The backend takes all buffers that hold messages, and leaves an empty one. -/
theorem swap_inv (hs : SessionInv s) (hplace : s.log.place = .section_ ∨ s.log.place = .waiting)
    (hspared : Spared s.log) : SessionInv (s.moved (s.log.swapBuffers.goto .batch)) := by
  have hmove := Move.swap hplace
  have hmoved : s.moved (s.log.swapBuffers.goto .batch) =
      { s with
        log := s.log.swapBuffers.goto .batch
        batches := s.batches ++ [s.log.swapBuffers.buffersToWrite]
        closed := s.closed ++ [s.opened], opened := [] } := if_pos rfl
  have hbatch := swapBuffers_buffersToWrite s.log
  rw [hmoved]
  refine ⟨hmove.sane hs.sane, hs.owned.moved hmove rfl rfl, ?_, ?_, ?_, ?_⟩
  · intro batch hmem p hp
    rcases List.mem_append.mp hmem with hmem | hmem
    · exact hs.full batch hmem p hp
    · rw [List.mem_singleton.mp hmem, hbatch] at hp
      rcases List.mem_append.mp hp with hp | hp
      · exact hs.sane.buffers p hp
      · rw [List.mem_singleton.mp hp]
        exact hs.sane.current
  · -- the current buffer goes with the others
    show ((s.batches ++ [s.log.swapBuffers.buffersToWrite]).flatten ++
      s.log.swapBuffers.buffers).map charsOf = (s.closed ++ [s.opened]).map List.flatten
    rw [hbatch, swapBuffers_buffers, hspared.nothing, List.flatten_append, List.append_nil,
      List.map_append, List.map_append, ← hs.closed, List.map_append]
    simp [hs.opened]
  · obtain ⟨b, hb, hempty⟩ := isFresh_iff.mp hspared.first
    show charsOf s.log.swapBuffers.currentBuffer = _
    rw [swapBuffers_currentBuffer, hb]
    exact hempty
  · refine ⟨s.batches, rfl, ?_⟩
    show s.log.swapBuffers.output = _
    rw [swapBuffers_output]
    refine (handed_idle_iff ?_ ?_).mp hs.handed
    · rcases hplace with h | h
      · simp [h]
      · simp [h]
    · intro k
      rcases hplace with h | h
      · simp [h]
      · simp [h]

theorem moved_inv {l : AsyncLogging SIZE} (hs : SessionInv s) (h : Move s.log l) :
    SessionInv (s.moved l) := by
  have hstack := hs.sane.stack
  have hhanded := hs.handed
  have howned : Owned { s with log := l } := hs.owned.moved h rfl rfl
  unfold StackSane at hstack
  unfold Handed at hhanded
  cases h with
  | enter hplace =>
    rw [hplace] at hhanded
    exact moved_inv_of_frame hs (.enter hplace) (by simp) rfl rfl howned hhanded
  | goOn hplace hrunning =>
    rw [hplace] at hhanded
    exact moved_inv_of_frame hs (.goOn hplace hrunning) (by simp [goto]) rfl rfl howned hhanded
  | leave hplace hrunning =>
    rw [hplace] at hhanded
    exact moved_inv_of_frame hs (.leave hplace hrunning) (by simp [goto]) rfl rfl howned hhanded
  | park hplace hbuffers =>
    rw [hplace] at hhanded
    exact moved_inv_of_frame hs (.park hplace hbuffers) (by simp [goto]) rfl rfl howned hhanded
  | swap hplace =>
    apply swap_inv hs hplace
    rcases hplace with hplace | hplace
    · rw [hplace] at hstack
      exact hstack
    · rw [hplace] at hstack
      exact hstack
  | cut hplace hsize =>
    rw [hplace] at hhanded
    obtain ⟨earlier, hbatches, houtput⟩ := hhanded
    refine moved_inv_of_frame hs (.cut hplace hsize) (by simp) rfl rfl howned ?_
    refine ⟨earlier, s.log.buffersToWrite, hbatches, (if_pos hsize).symm, ?_⟩
    have hnotice : noticeOf s.log.buffersToWrite =
        [.notice (s.log.buffersToWrite.length - 2)] := if_pos hsize
    show s.log.output ++ [.notice (s.log.buffersToWrite.length - 2)] = _
    rw [houtput, hnotice, List.take_zero]
    rfl
  | keep hplace hsize =>
    rw [hplace] at hhanded
    obtain ⟨earlier, hbatches, houtput⟩ := hhanded
    refine moved_inv_of_frame hs (.keep hplace hsize) (by simp [goto]) rfl rfl howned ?_
    refine ⟨earlier, s.log.buffersToWrite, hbatches, (if_neg (by omega)).symm, ?_⟩
    have hnotice : noticeOf s.log.buffersToWrite = [] := if_neg (by omega)
    show s.log.output = _
    rw [houtput, hnotice, List.take_zero]
    exact (List.append_nil _).symm
  | write k b hplace hentry =>
    rw [hplace] at hhanded
    obtain ⟨earlier, batch, hbatches, hbatch, houtput⟩ := hhanded
    refine moved_inv_of_frame hs (.write k b hplace hentry) (by simp) rfl rfl howned ?_
    refine ⟨earlier, batch, hbatches, hbatch, ?_⟩
    show s.log.output ++ [.chars b.chars] = _
    rw [hbatch] at hentry
    have hnext : chunksOf ((kept batch).take (k + 1)) =
        chunksOf ((kept batch).take k) ++ [.chars b.chars] := by
      unfold chunksOf
      rw [List.take_add_one, hentry, List.map_append]
      rfl
    rw [houtput, hnext, List.append_assoc, List.append_assoc]
  | recycle k p₁ p₂ hplace hend hfresh₁ hfresh₂ =>
    rw [hplace] at hhanded
    obtain ⟨earlier, batch, hbatches, hbatch, houtput⟩ := hhanded
    refine moved_inv_of_frame hs (.recycle k p₁ p₂ hplace hend hfresh₁ hfresh₂) (by simp) rfl rfl
      howned ?_
    show s.log.output = s.batches.flatMap render
    rw [hbatch] at hend
    rw [houtput, hbatches, List.take_of_length_le hend, List.flatMap_append]
    simp [render]

/-- The messages a schedule appends, in the order of their sections. -/
def appendedBy (acts : List Act) : List Message :=
  acts.filterMap fun act =>
    match act with
    | .append data => some data
    | _ => none

/-- A step that appends no message too long for a buffer. -/
def Short (SIZE : Nat) : Act → Prop
  | .append data => data.length < SIZE
  | _ => True

instance (SIZE : Nat) : (act : Act) → Decidable (Short SIZE act)
  | .append data => inferInstanceAs (Decidable (data.length < SIZE))
  | .startStore | .startSpawn | .startReturn | .stopCall | .stopStore | .stopJoin | .backend =>
    .isTrue trivial

theorem session_inv_step (hSIZE : SIZE ≤ 2 ^ 31) {act : Act} (hs : SessionInv s)
    (hshort : Short SIZE act) (h : SessionStep s act s') : SessionInv s' := by
  have hsane := saneSession_step ⟨hs.sane, hs.owned⟩ h
  have howned := hs.owned
  unfold Owned at howned
  cases h with
  | append h => exact append_inv hSIZE hshort hs h
  | backend h => exact moved_inv hs h
  | startSpawn h =>
    rw [h] at howned
    have hidle := (handed_idle_iff (by simp [howned.2]) (by simp [howned.2])).mp hs.handed
    exact ⟨hsane.sane, hsane.owned, hs.full, hs.closed, hs.opened, hidle⟩
  | _ =>
    -- a step of the owner that leaves the backend where it is
    exact ⟨hsane.sane, hsane.owned, hs.full, hs.closed, hs.opened,
      hs.handed.congr rfl rfl rfl rfl⟩

/-- A step appends its message behind all others. -/
theorem messages_step {act : Act} (h : SessionStep s act s') :
    s'.messages = s.messages ++ appendedBy [act] := by
  cases h with
  | append h =>
    unfold Session.appended Session.messages
    split
    · simp [appendedBy]
    · simp [appendedBy]
  | backend h =>
    unfold Session.moved Session.messages
    split
    · simp [appendedBy]
    · simp [appendedBy]
  | startStore => exact (List.append_nil _).symm
  | startSpawn => exact (List.append_nil _).symm
  | startReturn => exact (List.append_nil _).symm
  | stopCall => exact (List.append_nil _).symm
  | stopStore => exact (List.append_nil _).symm
  | stopJoin => exact (List.append_nil _).symm

/-! ## Conservation -/

namespace Session

/-- Every buffer that has been in the producers' hands, oldest first: the batches, `buffers_` and
`current_buffer_`. -/
def held (s : Session SIZE) : List (BufferPtr SIZE) :=
  s.batches.flatten ++ s.log.buffers ++ [s.log.currentBuffer]

/-- The messages copied into each of them. -/
def blocks (s : Session SIZE) : List (List Message) := s.closed ++ [s.opened]

/-- The batches as far as the rule has been applied to them. -/
def cutBatches (s : Session SIZE) : List (List (BufferPtr SIZE)) :=
  if s.log.place = .batch then s.batches.dropLast.map kept ++ s.batches.getLast?.toList
  else s.batches.map kept

end Session

/-- The messages `order` are where they should be. -/
structure Conserved (s : Session SIZE) (order : List Message) : Prop where
  /-- Each message was copied into one buffer, in order, whole. -/
  blocks : s.blocks.flatten = order
  full : ∀ p ∈ s.held, p.isSome
  /-- Each buffer holds exactly the messages copied into it. -/
  holds : s.held.map charsOf = s.blocks.map List.flatten
  /-- What was written, followed by what is still to be written of the last batch, are the batches
  without the buffers from the third on of those of more than 25. -/
  written : textsOf s.log.output ++ (unwritten s.log).map charsOf =
    s.cutBatches.flatten.map charsOf
  /-- Without such batches nothing is missing. -/
  complete : (∀ batch ∈ s.batches, batch.length ≤ maxBatch) →
    (textsOf s.log.output ++ (unwritten s.log).map charsOf ++ s.log.buffers.map charsOf ++
      [charsOf s.log.currentBuffer]).flatten = order.flatten

theorem SessionInv.holds (hs : SessionInv s) : s.held.map charsOf = s.blocks.map List.flatten := by
  unfold Session.held Session.blocks
  rw [List.map_append, hs.closed, List.map_append]
  simp [hs.opened]

theorem SessionInv.written (hs : SessionInv s) :
    textsOf s.log.output ++ (unwritten s.log).map charsOf = s.cutBatches.flatten.map charsOf := by
  have hhanded := hs.handed
  unfold Handed at hhanded
  have hidle (h : s.log.output = s.batches.flatMap render) (hbatch : s.log.place ≠ .batch)
      (hnone : unwritten s.log = []) :
      textsOf s.log.output ++ (unwritten s.log).map charsOf =
        s.cutBatches.flatten.map charsOf := by
    rw [hnone, h, textsOf_flatMap_render, Session.cutBatches, if_neg hbatch, List.flatMap]
    simp
  cases hplace : s.log.place with
  | batch =>
    -- the rule has not been applied to the last batch yet
    rw [hplace] at hhanded
    obtain ⟨earlier, hbatches, houtput⟩ := hhanded
    have hunwritten : unwritten s.log = s.log.buffersToWrite := by
      unfold unwritten
      rw [hplace]
    rw [hunwritten, houtput, textsOf_flatMap_render, Session.cutBatches, if_pos hplace, hbatches,
      List.flatMap]
    simp
  | writing k =>
    rw [hplace] at hhanded
    obtain ⟨earlier, batch, hbatches, hbatch, houtput⟩ := hhanded
    have hunwritten : unwritten s.log = (kept batch).drop k := by
      unfold unwritten
      rw [hplace, ← hbatch]
    rw [hunwritten, houtput, textsOf_append, textsOf_append, textsOf_noticeOf, textsOf_chunksOf,
      textsOf_flatMap_render, Session.cutBatches, if_neg (by simp [hplace]), hbatches,
      List.nil_append, List.append_assoc, ← List.map_append, List.take_append_drop, List.flatMap]
    simp
  | unstarted =>
    rw [hplace] at hhanded
    exact hidle hhanded (by simp [hplace]) (by simp [unwritten, hplace])
  | entry =>
    rw [hplace] at hhanded
    exact hidle hhanded (by simp [hplace]) (by simp [unwritten, hplace])
  | loopTest =>
    rw [hplace] at hhanded
    exact hidle hhanded (by simp [hplace]) (by simp [unwritten, hplace])
  | section_ =>
    rw [hplace] at hhanded
    exact hidle hhanded (by simp [hplace]) (by simp [unwritten, hplace])
  | waiting =>
    rw [hplace] at hhanded
    exact hidle hhanded (by simp [hplace]) (by simp [unwritten, hplace])
  | exited =>
    rw [hplace] at hhanded
    exact hidle hhanded (by simp [hplace]) (by simp [unwritten, hplace])

/-- The rule leaves batches of up to 25 buffers as they are. -/
theorem cutBatches_eq (h : ∀ batch ∈ s.batches, batch.length ≤ maxBatch) :
    s.cutBatches.flatten = s.batches.flatten := by
  have hkept (batches : List (List (BufferPtr SIZE)))
      (h : ∀ batch ∈ batches, batch.length ≤ maxBatch) : batches.map kept = batches := by
    have hid : ∀ batch ∈ batches, kept batch = id batch := by
      intro batch hbatch
      have hsize := h batch hbatch
      exact if_neg (by omega)
    rw [List.map_congr_left hid, List.map_id]
  unfold Session.cutBatches
  split
  · rw [hkept _ fun batch hbatch => h batch (List.dropLast_subset _ hbatch)]
    rcases List.eq_nil_or_concat s.batches with hnil | ⟨earlier, batch, hconcat⟩
    · rw [hnil]
      rfl
    · rw [hconcat]
      simp
  · rw [hkept _ h]

theorem SessionInv.conserved (hs : SessionInv s) : Conserved s s.messages where
  blocks := by simp [Session.blocks, Session.messages]
  full := by
    intro p hp
    unfold Session.held at hp
    rcases List.mem_append.mp hp with hp | hp
    · rcases List.mem_append.mp hp with hp | hp
      · obtain ⟨batch, hbatch, hp⟩ := List.mem_flatten.mp hp
        exact hs.full batch hbatch p hp
      · exact hs.sane.buffers p hp
    · rw [List.mem_singleton.mp hp]
      exact hs.sane.current
  holds := hs.holds
  written := hs.written
  complete := by
    intro h
    have hholds := congrArg List.flatten hs.holds
    rw [hs.written, cutBatches_eq h]
    have hblocks : (s.blocks.map List.flatten).flatten = s.messages.flatten := by
      simp [Session.blocks, Session.messages, List.flatten_flatten]
    rw [← hblocks, ← hholds]
    simp [Session.held]

theorem session_run_inv (hSIZE : SIZE ≤ 2 ^ 31) {acts : List Act}
    (hshort : ∀ act ∈ acts, Short SIZE act)
    (hrun : (asyncRuns SIZE B).exec (Session.init SIZE) acts = some s) :
    SessionInv s ∧ s.messages = appendedBy acts := by
  have hrule : (∀ act ∈ acts, Short SIZE act) → SessionInv s ∧ s.messages = appendedBy acts := by
    refine StepSystem.exec_history (I := fun acts s =>
      (∀ act ∈ acts, Short SIZE act) → SessionInv s ∧ s.messages = appendedBy acts) ?_ ?_ hrun
    · intro before s act s' ih hstep hshort
      obtain ⟨hs, hmessages⟩ := ih fun a ha => hshort a (List.mem_append_left _ ha)
      have hcase := session_step_cases hs.sane hstep
      have hact := hshort act (List.mem_append_right _ (List.mem_singleton.mpr rfl))
      refine ⟨session_inv_step hSIZE hs hact hcase, ?_⟩
      rw [messages_step hcase, hmessages]
      exact (List.filterMap_append ..).symm
    · intro _
      exact ⟨sessionInv_init, rfl⟩
  exact hrule hshort

/-- **`AsyncLogging` conserves messages.**  In every state a schedule of producers, backend and owner
reaches, with messages shorter than `kLargeBuffer`, the messages are where they should be. -/
theorem conserves_messages (B : Build) (acts : List Act)
    (hshort : ∀ act ∈ acts, Short kLargeBuffer act) {s : Session kLargeBuffer}
    (hrun : (asyncRuns kLargeBuffer B).exec (Session.init kLargeBuffer) acts = some s) :
    Conserved s (appendedBy acts) := by
  obtain ⟨hs, hmessages⟩ := session_run_inv (by decide) hshort hrun
  exact hmessages ▸ hs.conserved

/-- Two producers' messages around two rounds of the backend. -/
theorem conserves_messages_twoRounds :
    ∃ s : Session kLargeBuffer,
      (asyncRuns kLargeBuffer .debug).exec (Session.init kLargeBuffer)
        [.startStore, .startSpawn, .append [1, 2], .backend, .startReturn, .backend, .backend,
          .append [3], .backend, .append [4, 5], .backend, .backend, .backend, .backend, .backend,
          .append [6], .backend] = some s ∧
      Conserved s [[1, 2], [3], [4, 5], [6]] := by
  obtain ⟨s, hrun⟩ := Option.isSome_iff_exists.mp (show ((asyncRuns kLargeBuffer .debug).exec
    (Session.init kLargeBuffer)
      [.startStore, .startSpawn, .append [1, 2], .backend, .startReturn, .backend, .backend,
        .append [3], .backend, .append [4, 5], .backend, .backend, .backend, .backend, .backend,
        .append [6], .backend]).isSome by decide +kernel)
  exact ⟨s, hrun, conserves_messages .debug _ (by decide) hrun⟩

end TurboNet.Logger
