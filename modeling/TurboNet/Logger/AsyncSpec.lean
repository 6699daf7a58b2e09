/-
# TurboNet.Logger.AsyncSpec — what one step of the asynchronous logger can do.

`Sane` is the invariant of the pointers: which of them are null where the backend thread stands, and
which of the buffers are empty.  In a sane state no assert fires and no null pointer is dereferenced,
so each step is one of the listed moves (`append_moves`, `threadFunc_moves`), and each move leads to
a sane state.
-/
import TurboNet.Logger.AsyncLogging

namespace TurboNet.Logger

open TurboNet.Lib

namespace AsyncLogging

variable {SIZE : Nat} {B : Build} {l l' : AsyncLogging SIZE}

theorem isFresh_iff {p : BufferPtr SIZE} :
    isFresh p = true ↔ ∃ b, p = some b ∧ b.chars = [] := by
  cases p with
  | none => simp [isFresh]
  | some b => simp [isFresh, FixedBuffer.length]

theorem isSome_of_isFresh {p : BufferPtr SIZE} (h : isFresh p = true) : p.isSome := by
  obtain ⟨b, rfl, -⟩ := isFresh_iff.mp h
  rfl

/-- The stack between the swap and the recycling: `new_buffer_1` has been given away, and if
`new_buffer_2` has been too there are two buffers to take back. -/
structure Lent (l : AsyncLogging SIZE) : Prop where
  first : l.newBuffer1 = none
  nonempty : l.buffersToWrite ≠ []
  full : ∀ p ∈ l.buffersToWrite, p.isSome
  second : isFresh l.newBuffer2 = true ∨ l.newBuffer2 = none ∧ 2 ≤ l.buffersToWrite.length

/-- The stack at the top of the loop: two empty spares and no batch. -/
structure Spared (l : AsyncLogging SIZE) : Prop where
  first : isFresh l.newBuffer1 = true
  second : isFresh l.newBuffer2 = true
  nothing : l.buffersToWrite = []

/-- The stack of the backend thread is in order for the place it has reached. -/
def StackSane (l : AsyncLogging SIZE) : Prop :=
  match l.place with
  | .unstarted | .exited => True
  | .entry => l.running = true
  | .loopTest | .section_ | .waiting => Spared l
  | .batch => Lent l
  | .writing k => Lent l ∧ k ≤ l.buffersToWrite.length

/-- Which pointers are null, and which buffers are empty. -/
structure Sane (l : AsyncLogging SIZE) : Prop where
  current : l.currentBuffer.isSome
  next : isFresh l.nextBuffer = true ∨ l.nextBuffer = none ∧ l.buffers ≠ []
  buffers : ∀ p ∈ l.buffers, p.isSome
  stack : StackSane l

/-- `StackSane` reads the backend's own fields, and `running_` at the entry only. -/
theorem StackSane.congr (h : StackSane l) (hplace : l'.place = l.place)
    (hrunning : l.place = .entry → l'.running = l.running) (hfirst : l'.newBuffer1 = l.newBuffer1)
    (hsecond : l'.newBuffer2 = l.newBuffer2) (hbatch : l'.buffersToWrite = l.buffersToWrite) :
    StackSane l' := by
  have hspared (h : Spared l) : Spared l' :=
    ⟨hfirst ▸ h.first, hsecond ▸ h.second, hbatch ▸ h.nothing⟩
  have hlent (h : Lent l) : Lent l' :=
    ⟨hfirst ▸ h.first, hbatch ▸ h.nonempty, hbatch ▸ h.full, hsecond ▸ hbatch ▸ h.second⟩
  unfold StackSane at h ⊢
  rw [hplace]
  cases hp : l.place with
  | unstarted => trivial
  | exited => trivial
  | entry =>
    rw [hp] at h
    exact (hrunning hp).trans h
  | loopTest =>
    rw [hp] at h
    exact hspared h
  | section_ =>
    rw [hp] at h
    exact hspared h
  | waiting =>
    rw [hp] at h
    exact hspared h
  | batch =>
    rw [hp] at h
    exact hlent h
  | writing k =>
    rw [hp] at h
    exact ⟨hlent h.1, hbatch ▸ h.2⟩

theorem sane_construct : Sane (construct SIZE) where
  current := rfl
  next := .inl rfl
  buffers := by
    intro p hp
    cases hp
  stack := trivial

/-! ## `Append` -/

/-- The two ways of `Append`: into the current buffer, or into a fresh one after handing the current
one over. -/
inductive AppendMove (data : List Byte) (l : AsyncLogging SIZE) : AsyncLogging SIZE → Prop
  | inPlace (b : FixedBuffer SIZE) (hcurrent : l.currentBuffer = some b)
      (hroom : castInt data.length < (b.avail : Int)) :
      AppendMove data l (l.setCurrent (some (b.append data)))
  | rotated (b fresh : FixedBuffer SIZE) (hcurrent : l.currentBuffer = some b)
      (hroom : ¬ castInt data.length < (b.avail : Int)) (hfresh : fresh.chars = []) :
      AppendMove data l (l.pushCurrent.takeNext.setCurrent (some (fresh.append data)))

theorem deref_run {p : BufferPtr SIZE} {b : FixedBuffer SIZE} (h : p = some b) :
    (deref p).run l = .ok b l := by
  rw [h]
  rfl

/-- `Append` needs a current buffer, and an empty spare if there is one. -/
theorem append_moves_of (hcurrent : l.currentBuffer.isSome)
    (hnext : isFresh l.nextBuffer = true ∨ l.nextBuffer = none ∧ l.buffers ≠ [])
    (data : List Byte) : ∃ l', (append data).run l = .ok () l' ∧ AppendMove data l l' := by
  obtain ⟨b, hb⟩ := Option.isSome_iff_exists.mp hcurrent
  unfold append
  rw [run_get_bind, run_bind_of_ok (deref_run hb)]
  by_cases hroom : castInt data.length < (b.avail : Int)
  · rw [if_pos hroom]
    exact ⟨_, EStateM.run_modify .., .inPlace b hb hroom⟩
  rw [if_neg hroom, run_modify_bind, run_get_bind]
  rcases hnext with hfresh | ⟨hnone, -⟩
  · -- the spare is taken
    obtain ⟨fresh, hnext, hempty⟩ := isFresh_iff.mp hfresh
    have hnext' : l.pushCurrent.nextBuffer = some fresh := hnext
    have hcurrent : l.pushCurrent.takeNext.currentBuffer = some fresh := hnext
    rw [if_pos (by rw [hnext']; rfl), run_modify_bind,
      run_get_bind, run_bind_of_ok (deref_run hcurrent)]
    exact ⟨_, EStateM.run_modify .., .rotated b fresh hb hroom hempty⟩
  · -- there is none, and a buffer is allocated
    have hnext : l.pushCurrent.nextBuffer = none := hnone
    have hcurrent : (l.pushCurrent.setCurrent (some .construct)).currentBuffer =
      some .construct := rfl
    rw [if_neg (by rw [hnext]; exact Bool.false_ne_true), run_modify_bind,
      run_get_bind, run_bind_of_ok (deref_run hcurrent)]
    refine ⟨_, EStateM.run_modify .., ?_⟩
    have hmove := AppendMove.rotated (l := l) b .construct hb hroom rfl
    have heq : l.pushCurrent.takeNext.setCurrent (some (FixedBuffer.construct.append data)) =
        (l.pushCurrent.setCurrent (some .construct)).setCurrent
          (some (FixedBuffer.construct.append data)) := by
      unfold takeNext setCurrent
      rw [hnext]
    rwa [heq] at hmove

theorem append_moves (hl : Sane l) (data : List Byte) :
    ∃ l', (append data).run l = .ok () l' ∧ AppendMove data l l' :=
  append_moves_of hl.current hl.next data

theorem AppendMove.sane {data : List Byte} (h : AppendMove data l l') (hl : Sane l) : Sane l' := by
  cases h with
  | inPlace b => exact ⟨rfl, hl.next, hl.buffers, hl.stack.congr rfl (fun _ => rfl) rfl rfl rfl⟩
  | rotated b fresh =>
    refine ⟨rfl, .inr ⟨rfl, ?_⟩, ?_, hl.stack.congr rfl (fun _ => rfl) rfl rfl rfl⟩
    · show l.buffers ++ [l.currentBuffer] ≠ []
      simp
    · intro p hp
      rcases List.mem_append.mp hp with hp | hp
      · exact hl.buffers p hp
      · rw [List.mem_singleton.mp hp]
        exact hl.current

/-- Producers do not touch `running_` and the backend's place. -/
theorem AppendMove.kept {data : List Byte} (h : AppendMove data l l') :
    l'.running = l.running ∧ l'.place = l.place := by
  cases h with
  | inPlace => exact ⟨rfl, rfl⟩
  | rotated => exact ⟨rfl, rfl⟩

/-! ## `ThreadFunc` -/

/-- The moves of the backend thread. -/
inductive Move (l : AsyncLogging SIZE) : AsyncLogging SIZE → Prop
  | enter (hplace : l.place = .entry) :
      Move l { l with
        newBuffer1 := some FixedBuffer.construct.bZero
        newBuffer2 := some FixedBuffer.construct.bZero
        buffersToWrite := []
        place := .loopTest }
  | goOn (hplace : l.place = .loopTest) (hrunning : l.running = true) : Move l (l.goto .section_)
  | leave (hplace : l.place = .loopTest) (hrunning : l.running = false) : Move l (l.goto .exited)
  | park (hplace : l.place = .section_) (hbuffers : l.buffers = []) : Move l (l.goto .waiting)
  | swap (hplace : l.place = .section_ ∨ l.place = .waiting) : Move l (l.swapBuffers.goto .batch)
  | cut (hplace : l.place = .batch) (hsize : maxBatch < l.buffersToWrite.length) :
      Move l { l with
        output := l.output ++ [.notice (l.buffersToWrite.length - 2)]
        buffersToWrite := l.buffersToWrite.take 2
        place := .writing 0 }
  | keep (hplace : l.place = .batch) (hsize : l.buffersToWrite.length ≤ maxBatch) :
      Move l (l.goto (.writing 0))
  | write (k : Nat) (b : FixedBuffer SIZE) (hplace : l.place = .writing k)
      (hentry : l.buffersToWrite[k]? = some (some b)) :
      Move l { l with output := l.output ++ [.chars b.chars], place := .writing (k + 1) }
  | recycle (k : Nat) (p₁ p₂ : BufferPtr SIZE) (hplace : l.place = .writing k)
      (hend : l.buffersToWrite.length ≤ k) (hfresh₁ : isFresh p₁ = true)
      (hfresh₂ : isFresh p₂ = true) :
      Move l { l with
        newBuffer1 := p₁, newBuffer2 := p₂, buffersToWrite := [], place := .loopTest }

/-- The backend thread moves only while it exists, and never back to its start. -/
theorem Move.place (h : Move l l') :
    (l.place ≠ .unstarted ∧ l.place ≠ .exited) ∧ l'.place ≠ .unstarted ∧ l'.place ≠ .entry := by
  cases h with
  | enter hplace => exact ⟨by simp [hplace], by simp⟩
  | goOn hplace => exact ⟨by simp [hplace], by simp [goto]⟩
  | leave hplace => exact ⟨by simp [hplace], by simp [goto]⟩
  | park hplace => exact ⟨by simp [hplace], by simp [goto]⟩
  | swap hplace =>
    refine ⟨?_, by simp [goto]⟩
    rcases hplace with hplace | hplace
    · simp [hplace]
    · simp [hplace]
  | cut hplace => exact ⟨by simp [hplace], by simp⟩
  | keep hplace => exact ⟨by simp [hplace], by simp [goto]⟩
  | write k b hplace => exact ⟨by simp [hplace], by simp⟩
  | recycle k p₁ p₂ hplace => exact ⟨by simp [hplace], by simp⟩

theorem swapBuffers_running (l : AsyncLogging SIZE) : l.swapBuffers.running = l.running := by
  unfold swapBuffers
  simp only
  split <;> rfl

theorem swapBuffers_currentBuffer (l : AsyncLogging SIZE) :
    l.swapBuffers.currentBuffer = l.newBuffer1 := by
  unfold swapBuffers
  simp only
  split <;> rfl

theorem swapBuffers_buffers (l : AsyncLogging SIZE) :
    l.swapBuffers.buffers = l.buffersToWrite := by
  unfold swapBuffers
  simp only
  split <;> rfl

theorem swapBuffers_output (l : AsyncLogging SIZE) : l.swapBuffers.output = l.output := by
  unfold swapBuffers
  simp only
  split <;> rfl

/-- Only the owner assigns `running_`. -/
theorem Move.running (h : Move l l') : l'.running = l.running := by
  cases h with
  | swap => exact swapBuffers_running l
  | enter => rfl
  | goOn => rfl
  | leave => rfl
  | park => rfl
  | cut => rfl
  | keep => rfl
  | write => rfl
  | recycle => rfl

/-- The batch the swap takes: every full buffer and the current one. -/
theorem swapBuffers_buffersToWrite (l : AsyncLogging SIZE) :
    l.swapBuffers.buffersToWrite = l.buffers ++ [l.currentBuffer] := by
  unfold swapBuffers
  simp only
  split <;> rfl

/-- The swap while `next_buffer_` is there: `new_buffer_2` stays with the backend. -/
theorem swapBuffers_of_next (h : l.nextBuffer.isNone = false) :
    l.swapBuffers = { l with
      currentBuffer := l.newBuffer1, newBuffer1 := none
      buffersToWrite := l.buffers ++ [l.currentBuffer], buffers := l.buffersToWrite } := by
  unfold swapBuffers
  have h : l.pushCurrent.nextBuffer.isNone = false := h
  simp only [h, Bool.false_eq_true, if_false]
  rfl

/-- The swap while it is not. -/
theorem swapBuffers_of_no_next (h : l.nextBuffer = none) :
    l.swapBuffers = { l with
      currentBuffer := l.newBuffer1, newBuffer1 := none
      nextBuffer := l.newBuffer2, newBuffer2 := none
      buffersToWrite := l.buffers ++ [l.currentBuffer], buffers := l.buffersToWrite } := by
  unfold swapBuffers
  have h : l.pushCurrent.nextBuffer.isNone = true := by
    show l.nextBuffer.isNone = true
    rw [h]
    rfl
  simp only [h, if_true]
  rfl

/-- The swap hands both spares over, if both are needed, and leaves no pointer null that may be
dereferenced. -/
theorem swap_sane (hl : Sane l) (hspared : Spared l) : Sane (l.swapBuffers.goto .batch) := by
  have hne : l.buffers ++ [l.currentBuffer] ≠ [] := by simp
  have hfull : ∀ p ∈ l.buffers ++ [l.currentBuffer], p.isSome := by
    intro p hp
    rcases List.mem_append.mp hp with hp | hp
    · exact hl.buffers p hp
    · rw [List.mem_singleton.mp hp]
      exact hl.current
  have hnothing : ∀ p ∈ l.buffersToWrite, p.isSome := by
    intro p hp
    rw [hspared.nothing] at hp
    cases hp
  rcases hl.next with hfresh | ⟨hnone, hbuffers⟩
  · rw [swapBuffers_of_next (Option.isNone_eq_false_iff.mpr (isSome_of_isFresh hfresh))]
    exact ⟨isSome_of_isFresh hspared.first, .inl hfresh, hnothing,
      ⟨rfl, hne, hfull, .inl hspared.second⟩⟩
  · -- both spares are given away, against a batch of at least two
    rw [swapBuffers_of_no_next hnone]
    refine ⟨isSome_of_isFresh hspared.first, .inl hspared.second, hnothing,
      ⟨rfl, hne, hfull, .inr ⟨rfl, ?_⟩⟩⟩
    have hpos := List.length_pos_of_ne_nil hbuffers
    show 2 ≤ (l.buffers ++ [l.currentBuffer]).length
    rw [List.length_append, List.length_singleton]
    omega

/-- A cut batch still has the buffers that are to be taken back. -/
theorem Lent.take_two (h : Lent l) {l' : AsyncLogging SIZE} (hfirst : l'.newBuffer1 = l.newBuffer1)
    (hsecond : l'.newBuffer2 = l.newBuffer2)
    (hbatch : l'.buffersToWrite = l.buffersToWrite.take 2) : Lent l' where
  first := hfirst.trans h.first
  nonempty := by
    have hpos := List.length_pos_of_ne_nil h.nonempty
    apply List.ne_nil_of_length_pos
    rw [hbatch, List.length_take]
    omega
  full := by
    intro p hp
    rw [hbatch] at hp
    exact h.full p (List.mem_of_mem_take hp)
  second := by
    rw [hsecond, hbatch, List.length_take]
    rcases h.second with hfresh | ⟨hnone, hlength⟩
    · exact .inl hfresh
    · exact .inr ⟨hnone, by omega⟩

/-- Each move leads to a sane state.  The backend enters while the logger is running. -/
theorem Move.sane (h : Move l l') (hl : Sane l) : Sane l' := by
  have hstack := hl.stack
  unfold StackSane at hstack
  cases h with
  | enter => exact ⟨hl.current, hl.next, hl.buffers, ⟨rfl, rfl, rfl⟩⟩
  | goOn hplace =>
    rw [hplace] at hstack
    exact ⟨hl.current, hl.next, hl.buffers, ⟨hstack.first, hstack.second, hstack.nothing⟩⟩
  | leave => exact ⟨hl.current, hl.next, hl.buffers, trivial⟩
  | park hplace =>
    rw [hplace] at hstack
    exact ⟨hl.current, hl.next, hl.buffers, ⟨hstack.first, hstack.second, hstack.nothing⟩⟩
  | swap hplace =>
    rcases hplace with hplace | hplace
    · rw [hplace] at hstack
      exact swap_sane hl hstack
    · rw [hplace] at hstack
      exact swap_sane hl hstack
  | cut hplace =>
    rw [hplace] at hstack
    exact ⟨hl.current, hl.next, hl.buffers, hstack.take_two rfl rfl rfl, Nat.zero_le _⟩
  | keep hplace =>
    rw [hplace] at hstack
    exact ⟨hl.current, hl.next, hl.buffers,
      ⟨hstack.first, hstack.nonempty, hstack.full, hstack.second⟩, Nat.zero_le _⟩
  | write k b hplace hentry =>
    rw [hplace] at hstack
    obtain ⟨hlent, -⟩ := hstack
    refine ⟨hl.current, hl.next, hl.buffers,
      ⟨hlent.first, hlent.nonempty, hlent.full, hlent.second⟩, ?_⟩
    obtain ⟨hk, -⟩ := List.getElem?_eq_some_iff.mp hentry
    exact hk
  | recycle k p₁ p₂ _ _ hfresh₁ hfresh₂ =>
    exact ⟨hl.current, hl.next, hl.buffers, ⟨hfresh₁, hfresh₂, rfl⟩⟩

/-- A null pointer takes the last buffer of the batch back, emptied. -/
theorem recycle_run_none (hne : l.buffersToWrite ≠ []) (hfull : ∀ p ∈ l.buffersToWrite, p.isSome) :
    ∃ p, (recycle B none).run l = .ok p { l with buffersToWrite := l.buffersToWrite.dropLast } ∧
      isFresh p = true := by
  have hlast := List.getLast?_eq_some_getLast hne
  obtain ⟨b, hb⟩ := Option.isSome_iff_exists.mp (hfull _ (List.getLast_mem hne))
  refine ⟨some b.reset, ?_, rfl⟩
  unfold recycle
  rw [if_neg (by simp), run_get_bind,
    run_bind_of_ok (Build.run_assert_of fun _ => hne), hlast, hb]
  rfl

theorem recycle_run_some {p : BufferPtr SIZE} (h : p.isSome) : (recycle B p).run l = .ok p l := by
  unfold recycle
  rw [if_pos h]
  rfl

/-- After the last round of the loop both spares are back and empty. -/
theorem writeBuffer_end_run {k : Nat} (hlent : Lent l) (hend : l.buffersToWrite.length ≤ k) :
    ∃ p₁ p₂, (writeBuffer B k).run l = .ok () { l with
        newBuffer1 := p₁, newBuffer2 := p₂, buffersToWrite := [], place := .loopTest } ∧
      isFresh p₁ = true ∧ isFresh p₂ = true := by
  obtain ⟨p₁, hrun₁, hfresh₁⟩ := recycle_run_none (B := B) hlent.nonempty hlent.full
  unfold writeBuffer
  rw [run_get_bind, List.getElem?_eq_none hend]
  simp only [hlent.first]
  rw [run_bind_of_ok hrun₁, run_modify_bind]
  rcases hlent.second with hfresh₂ | ⟨hnone, hlength⟩
  · -- `new_buffer_2` was not given away
    rw [run_bind_of_ok (recycle_run_some (isSome_of_isFresh hfresh₂))]
    exact ⟨p₁, l.newBuffer2, rfl, hfresh₁, hfresh₂⟩
  · -- it was, and the batch had two buffers to give back
    have hne : l.buffersToWrite.dropLast ≠ [] := by
      apply List.ne_nil_of_length_pos
      rw [List.length_dropLast]
      omega
    have hfull : ∀ p ∈ l.buffersToWrite.dropLast, p.isSome := fun p hp =>
      hlent.full p (List.dropLast_subset _ hp)
    obtain ⟨p₂, hrun₂, hfresh₂⟩ := recycle_run_none (B := B)
      (l := { l with buffersToWrite := l.buffersToWrite.dropLast, newBuffer1 := p₁ }) hne hfull
    rw [← hnone] at hrun₂
    rw [run_bind_of_ok hrun₂]
    exact ⟨p₁, p₂, rfl, hfresh₁, hfresh₂⟩

theorem enter_run (h : B.asserts = true → l.running = true) :
    (enter B).run l = .ok () { l with
      newBuffer1 := some FixedBuffer.construct.bZero
      newBuffer2 := some FixedBuffer.construct.bZero
      buffersToWrite := []
      place := .loopTest } := by
  unfold enter
  rw [run_get_bind, run_bind_of_ok (Build.run_assert_of h)]
  rfl

/-- **In a sane state no assert of `ThreadFunc` fires and no null pointer is dereferenced**: the
backend thread makes one of its moves. -/
theorem threadFunc_moves (hl : Sane l) (hstarted : l.place ≠ .unstarted)
    (hexited : l.place ≠ .exited) :
    ∃ l', (threadFunc B l.place).run l = .ok () l' ∧ Move l l' := by
  have hstack := hl.stack
  unfold StackSane at hstack
  cases hplace : l.place with
  | unstarted => exact absurd hplace hstarted
  | exited => exact absurd hplace hexited
  | entry =>
    rw [hplace] at hstack
    exact ⟨_, enter_run fun _ => hstack, .enter hplace⟩
  | loopTest =>
    rw [hplace] at hstack
    show ∃ l', (testRunning B).run l = _ ∧ _
    unfold testRunning
    rw [run_get_bind]
    cases hrunning : l.running with
    | true =>
      refine ⟨_, ?_, .goOn hplace hrunning⟩
      rw [if_pos rfl, run_bind_of_ok (Build.run_assert_of fun _ => hstack.first),
        run_bind_of_ok (Build.run_assert_of fun _ => hstack.second),
        run_bind_of_ok (Build.run_assert_of fun _ => hstack.nothing)]
      rfl
    | false => exact ⟨_, rfl, .leave hplace hrunning⟩
  | section_ =>
    show ∃ l', enterSection.run l = _ ∧ _
    unfold enterSection
    rw [run_get_bind]
    by_cases hbuffers : l.buffers = []
    · rw [if_pos hbuffers]
      exact ⟨_, EStateM.run_modify .., .park hplace hbuffers⟩
    · rw [if_neg hbuffers]
      exact ⟨_, EStateM.run_modify .., .swap (.inl hplace)⟩
  | waiting => exact ⟨_, rfl, .swap (.inr hplace)⟩
  | batch =>
    rw [hplace] at hstack
    show ∃ l', (cutBatch B).run l = _ ∧ _
    unfold cutBatch
    rw [run_get_bind,
      run_bind_of_ok (Build.run_assert_of fun _ => hstack.nonempty)]
    by_cases hsize : maxBatch < l.buffersToWrite.length
    · rw [if_pos hsize]
      exact ⟨_, rfl, .cut hplace hsize⟩
    · rw [if_neg hsize]
      exact ⟨_, rfl, .keep hplace (Nat.le_of_not_lt hsize)⟩
  | writing k =>
    rw [hplace] at hstack
    obtain ⟨hlent, -⟩ := hstack
    show ∃ l', (writeBuffer B k).run l = _ ∧ _
    by_cases hk : k < l.buffersToWrite.length
    · -- one more buffer
      have hentry := List.getElem?_eq_getElem hk
      obtain ⟨b, hb⟩ := Option.isSome_iff_exists.mp (hlent.full _ (List.getElem_mem hk))
      rw [hb] at hentry
      refine ⟨_, ?_, .write k b hplace hentry⟩
      unfold writeBuffer
      rw [run_get_bind, hentry]
      rfl
    · obtain ⟨p₁, p₂, hrun, hfresh₁, hfresh₂⟩ :=
        writeBuffer_end_run (B := B) hlent (Nat.le_of_not_lt hk)
      exact ⟨_, hrun, .recycle k p₁ p₂ hplace (Nat.le_of_not_lt hk) hfresh₁ hfresh₂⟩

end AsyncLogging

end TurboNet.Logger
