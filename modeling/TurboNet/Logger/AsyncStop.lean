/-
# TurboNet.Logger.AsyncStop — what `Stop` loses.

`Stop` clears `running_` and joins.  The backend thread tests `running_` once a round, before it
takes the buffers: if it has passed the test when `running_` is cleared it takes everything appended
so far, writes it and leaves; if it has not, it leaves without looking at the buffers again, and what
was appended since its last swap is never written (`stop_loses_nothing_iff`).
-/
import TurboNet.Logger.AsyncConservation

namespace TurboNet.Logger

open TurboNet.Lib
open AsyncLogging

variable {SIZE : Nat} {B : Build} {s s' : Session SIZE}

/-- The messages in the buffers the backend thread has taken. -/
def Session.settled (s : Session SIZE) : List Message :=
  (s.closed.take s.batches.flatten.length).flatten

/-- The messages appended before `Stop` was called were taken, the buffers taken hold just the
messages taken, and every batch was handed to the `LogFile`, less the buffers the rule erases. -/
structure StopComplete (s : Session SIZE) : Prop where
  taken : s.required ≤ s.settled.length
  holds : s.batches.flatten.map charsOf =
    (s.closed.take s.batches.flatten.length).map List.flatten
  written : s.log.output = s.batches.flatMap render

/-- The backend thread has passed the loop test and not taken the buffers yet. -/
def AboutToTake (s : Session SIZE) : Prop :=
  s.log.place = .section_ ∨ s.log.place = .waiting

instance (s : Session SIZE) : Decidable (AboutToTake s) :=
  inferInstanceAs (Decidable (_ ∨ _))

/-- When `Stop` clears `running_`, the backend thread is about to take the buffers, or there is
nothing in them that was appended before `Stop` was called. -/
def StopDrains (s : Session SIZE) : Act → Prop
  | .stopStore => AboutToTake s ∨ s.required ≤ s.settled.length
  | _ => True

instance (s : Session SIZE) : (act : Act) → Decidable (StopDrains s act)
  | .stopStore => inferInstanceAs (Decidable (AboutToTake s ∨ s.required ≤ s.settled.length))
  | .append _ | .startStore | .startSpawn | .startReturn | .stopCall | .stopJoin | .backend =>
    .isTrue trivial

/-! ## Steps -/

/-- As many buffers have been handed over as blocks closed. -/
theorem SessionInv.length_closed (hs : SessionInv s) :
    s.closed.length = s.batches.flatten.length + s.log.buffers.length := by
  have h := congrArg List.length hs.closed
  rw [List.length_map, List.length_map, List.length_append] at h
  exact h.symm

/-- The buffers taken hold the messages of as many closed blocks. -/
theorem SessionInv.holds_settled (hs : SessionInv s) :
    s.batches.flatten.map charsOf =
      (s.closed.take s.batches.flatten.length).map List.flatten := by
  rw [List.map_take, ← hs.closed, List.map_append]
  apply (List.take_left' _).symm
  exact List.length_map ..

/-- Appending settles nothing. -/
theorem settled_appended (hs : SessionInv s) (data : Message) (l : AsyncLogging SIZE) :
    (s.appended data l).settled = s.settled := by
  have hlength := hs.length_closed
  unfold Session.appended Session.settled
  split
  · rfl
  · show ((s.closed ++ [s.opened]).take s.batches.flatten.length).flatten = _
    rw [List.take_append_of_le_length (by omega)]

/-- A move settles everything, if it takes the buffers, and nothing otherwise. -/
theorem settled_moved (hs : SessionInv s) {l : AsyncLogging SIZE} (h : Move s.log l) :
    l.place = .batch ∧ AboutToTake s ∧ (s.moved l).settled = s.messages ∨
      l.place ≠ .batch ∧ (s.moved l).settled = s.settled := by
  by_cases hbatch : l.place = .batch
  · left
    cases h with
    | swap hplace =>
      refine ⟨rfl, hplace, ?_⟩
      have hlength := hs.length_closed
      have hmoved : s.moved (s.log.swapBuffers.goto .batch) =
          { s with
            log := s.log.swapBuffers.goto .batch
            batches := s.batches ++ [s.log.swapBuffers.buffersToWrite]
            closed := s.closed ++ [s.opened], opened := [] } := if_pos rfl
      rw [hmoved]
      unfold Session.settled Session.messages
      rw [swapBuffers_buffersToWrite]
      -- the batch holds all buffers handed over and the current one
      have htake : (s.closed ++ [s.opened]).take
          (s.batches ++ [s.log.buffers ++ [s.log.currentBuffer]]).flatten.length =
          s.closed ++ [s.opened] := by
        apply List.take_of_length_le
        simp only [List.flatten_append, List.flatten_cons, List.flatten_nil, List.append_nil,
          List.length_append, List.length_singleton]
        omega
      show (List.take _ _).flatten = _
      rw [htake]
      simp
    | enter => cases hbatch
    | goOn => cases hbatch
    | leave => cases hbatch
    | park => cases hbatch
    | cut => cases hbatch
    | keep => cases hbatch
    | write => cases hbatch
    | recycle => cases hbatch
  · right
    refine ⟨hbatch, ?_⟩
    have hmoved : s.moved l = { s with log := l } := if_neg hbatch
    rw [hmoved]
    rfl

/-- What was appended before `Stop` was called has been appended. -/
def Required (s : Session SIZE) : Prop := s.required ≤ s.messages.length

theorem required_step {act : Act} (hs : Required s) (h : SessionStep s act s') : Required s' := by
  have hmessages := messages_step h
  unfold Required at hs ⊢
  rw [hmessages, List.length_append]
  cases h with
  | append h =>
    unfold Session.appended
    split
    · exact Nat.le_trans hs (Nat.le_add_right _ _)
    · exact Nat.le_trans hs (Nat.le_add_right _ _)
  | backend h =>
    unfold Session.moved
    split
    · exact hs
    · exact hs
  | stopCall => exact Nat.le_refl _
  | startStore => exact hs
  | startSpawn => exact hs
  | startReturn => exact hs
  | stopStore => exact hs
  | stopJoin => exact hs

/-- Has `Stop` cleared `running_`? -/
def Stopping (s : Session SIZE) : Prop := s.owner = .joining ∨ s.owner = .stopped

/-! ## Runs that drain -/

/-- Once `running_` is cleared, what is required has been taken or is about to be. -/
structure Draining (s : Session SIZE) : Prop where
  inv : SessionInv s
  required : Required s
  drains : Stopping s → AboutToTake s ∨ s.required ≤ s.settled.length

theorem draining_step (hSIZE : SIZE ≤ 2 ^ 31) {act : Act} (hs : Draining s)
    (hshort : Short SIZE act) (hdrains : StopDrains s act) (h : SessionStep s act s') :
    Draining s' := by
  refine ⟨session_inv_step hSIZE hs.inv hshort h, required_step hs.required h, ?_⟩
  cases h with
  | append h =>
    intro hstopping
    obtain ⟨howner, hrequired, hlog⟩ := s.appended_owner _ _
    unfold AboutToTake
    rw [settled_appended hs.inv, hrequired, hlog, h.kept.2]
    unfold Stopping at hstopping
    rw [howner] at hstopping
    exact hs.drains hstopping
  | @backend l h =>
    intro hstopping
    obtain ⟨howner, hrequired, hlog⟩ := s.moved_owner l
    unfold Stopping at hstopping
    rw [howner] at hstopping
    rcases settled_moved hs.inv h with ⟨-, -, hsettled⟩ | ⟨hbatch, hsettled⟩
    · right
      rw [hsettled, hrequired]
      exact hs.required
    · rcases hs.drains hstopping with habout | htaken
      · -- a thread about to take the buffers takes them or goes on waiting for them
        left
        unfold AboutToTake
        rw [hlog]
        unfold AboutToTake at habout
        cases h with
        | park => exact .inr rfl
        | swap => exact absurd rfl hbatch
        | enter hplace => simp [hplace] at habout
        | goOn hplace => simp [hplace] at habout
        | leave hplace => simp [hplace] at habout
        | cut hplace => simp [hplace] at habout
        | keep hplace => simp [hplace] at habout
        | write _ _ hplace => simp [hplace] at habout
        | recycle _ _ _ hplace => simp [hplace] at habout
      · right
        rw [hsettled, hrequired]
        exact htaken
  | startStore => intro hstopping; rcases hstopping with h | h <;> cases h
  | startSpawn => intro hstopping; rcases hstopping with h | h <;> cases h
  | startReturn => intro hstopping; rcases hstopping with h | h <;> cases h
  | stopCall => intro hstopping; rcases hstopping with h | h <;> cases h
  | stopStore =>
    intro _
    exact hdrains
  | stopJoin h =>
    intro _
    exact hs.drains (.inl h)

/-- When `Stop` has returned the backend thread is gone, and with it what was about to happen. -/
theorem Draining.complete (hs : Draining s) (hstopped : s.owner = .stopped) : StopComplete s := by
  have howned := hs.inv.owned
  unfold Owned at howned
  rw [hstopped] at howned
  have hplace := howned.2
  refine ⟨?_, hs.inv.holds_settled,
    (handed_idle_iff (by simp [hplace]) (by simp [hplace])).mp hs.inv.handed⟩
  rcases hs.drains (.inr hstopped) with habout | htaken
  · simp [AboutToTake, hplace] at habout
  · exact htaken

/-! ## Runs that do not -/

/-- `running_` is cleared, something required has not been taken, and the thread will not take it. -/
structure Losing (s : Session SIZE) : Prop where
  inv : SessionInv s
  stopping : Stopping s
  past : ¬ AboutToTake s
  missing : s.settled.length < s.required

theorem losing_step (hSIZE : SIZE ≤ 2 ^ 31) {act : Act} (hs : Losing s) (hshort : Short SIZE act)
    (h : SessionStep s act s') : Losing s' := by
  have hinv := session_inv_step hSIZE hs.inv hshort h
  have howned := hs.inv.owned
  have hnot (o : Owner) (hjoining : o ≠ .joining) (hstopped : o ≠ .stopped) : s.owner ≠ o := by
    rcases hs.stopping with h | h
    · rw [h]
      exact fun h => hjoining h.symm
    · rw [h]
      exact fun h => hstopped h.symm
  cases h with
  | append h =>
    obtain ⟨howner, hrequired, hlog⟩ := s.appended_owner _ _
    refine ⟨hinv, ?_, ?_, ?_⟩
    · unfold Stopping
      rw [howner]
      exact hs.stopping
    · unfold AboutToTake
      rw [hlog, h.kept.2]
      exact hs.past
    · rw [settled_appended hs.inv, hrequired]
      exact hs.missing
  | @backend l h =>
    obtain ⟨howner, hrequired, hlog⟩ := s.moved_owner l
    rcases settled_moved hs.inv h with ⟨-, habout, -⟩ | ⟨-, hsettled⟩
    · exact absurd habout hs.past
    refine ⟨hinv, ?_, ?_, ?_⟩
    · unfold Stopping
      rw [howner]
      exact hs.stopping
    · -- only a running logger passes the loop test
      unfold AboutToTake
      rw [hlog]
      cases h with
      | goOn hplace hrunning =>
        unfold Owned at howned
        rcases hs.stopping with ho | ho
        · rw [ho] at howned
          simp [howned.1] at hrunning
        · rw [ho] at howned
          simp [howned.1] at hrunning
      | park hplace => exact absurd (.inl hplace) hs.past
      | swap => simp [goto]
      | enter => simp
      | leave => simp [goto]
      | cut => simp
      | keep => simp [goto]
      | write => simp
      | recycle => simp
    · rw [hsettled, hrequired]
      exact hs.missing
  | startStore h => exact absurd h (hnot _ (by decide) (by decide))
  | startSpawn h => exact absurd h (hnot _ (by decide) (by decide))
  | startReturn h => exact absurd h (hnot _ (by decide) (by decide))
  | stopCall h => exact absurd h (hnot _ (by decide) (by decide))
  | stopStore h => exact absurd h (hnot _ (by decide) (by decide))
  | stopJoin => exact ⟨hinv, .inr rfl, hs.past, hs.missing⟩

/-! ## The claim over runs -/

theorem draining_init : Draining (Session.init SIZE) where
  inv := sessionInv_init
  required := Nat.zero_le _
  drains := by
    intro hstopping
    rcases hstopping with h | h
    · cases h
    · cases h

/-- What an act that does not drain leaves behind. -/
theorem losing_of_not_drains (hSIZE : SIZE ≤ 2 ^ 31) {act : Act} (hs : SessionInv s)
    (hshort : Short SIZE act) (hnot : ¬ StopDrains s act) (h : SessionStep s act s') :
    Losing s' := by
  cases h with
  | stopStore howner =>
    have hinv := session_inv_step hSIZE hs hshort (.stopStore howner)
    have hpast : ¬ AboutToTake s := fun habout => hnot (.inl habout)
    have hmissing : ¬ s.required ≤ s.settled.length := fun htaken => hnot (.inr htaken)
    exact ⟨hinv, .inl rfl, hpast, Nat.lt_of_not_le hmissing⟩
  | append => exact absurd trivial hnot
  | startStore => exact absurd trivial hnot
  | startSpawn => exact absurd trivial hnot
  | startReturn => exact absurd trivial hnot
  | stopCall => exact absurd trivial hnot
  | stopJoin => exact absurd trivial hnot
  | backend => exact absurd trivial hnot

/-- **Stopping loses nothing exactly when the backend drains.**  In a run that has come to the end of
`Stop`, every message appended before `Stop` was called was handed to the `LogFile` (or lay in a
buffer the rule erased) if and only if, when `Stop` cleared `running_`, the backend thread was about
to take the buffers or nothing appended before the call was in them. -/
theorem stop_loses_nothing_iff (B : Build) (acts : List Act)
    (hshort : ∀ act ∈ acts, Short kLargeBuffer act) {s : Session kLargeBuffer}
    (hrun : (asyncRuns kLargeBuffer B).exec (Session.init kLargeBuffer) acts = some s)
    (hstopped : s.owner = .stopped) :
    StopComplete s ↔
      (asyncRuns kLargeBuffer B).Along StopDrains (Session.init kLargeBuffer) acts := by
  constructor
  · intro hcomplete
    by_contra hnot
    obtain ⟨before, act, after, t, t', rfl, hbefore, hdrains, hstep, hafter⟩ :=
      StepSystem.exists_of_not_along hnot hrun
    have hshortBefore : ∀ a ∈ before, Short kLargeBuffer a :=
      fun a ha => hshort a (List.mem_append_left _ ha)
    have hshortAct : Short kLargeBuffer act :=
      hshort act (List.mem_append_right _ (List.mem_cons_self ..))
    have hshortAfter : ∀ a ∈ after, Short kLargeBuffer a :=
      fun a ha => hshort a (List.mem_append_right _ (List.mem_cons_of_mem _ ha))
    have hinv := (session_run_inv (by decide) hshortBefore hbefore).1
    have hlosing : Losing t' :=
      losing_of_not_drains (by decide) hinv hshortAct hdrains (session_step_cases hinv.sane hstep)
    -- what is lost once stays lost
    have hlost : Losing s := by
      apply StepSystem.exec_invariant_along (C := fun _ a => Short kLargeBuffer a) ?_ hlosing
        (StepSystem.along_of_mem hshortAfter t') hafter
      intro u a u' hu hshort hstep
      exact losing_step (by decide) hu hshort (session_step_cases hu.inv.sane hstep)
    have hmissing := hlost.missing
    have htaken := hcomplete.taken
    omega
  · intro hdrains
    have hdraining : Draining s := by
      apply StepSystem.exec_invariant_along
        (C := fun s a => StopDrains s a ∧ Short kLargeBuffer a) ?_ draining_init
        (StepSystem.along_and hdrains (StepSystem.along_of_mem hshort _)) hrun
      intro u a u' hu hC hstep
      exact draining_step (by decide) hu hC.2 hC.1 (session_step_cases hu.inv.sane hstep)
    exact hdraining.complete hstopped

/-- A message appended while the backend waits is taken after `running_` was cleared. -/
theorem stop_loses_nothing_iff_waiting :
    ∃ s : Session kLargeBuffer,
      (asyncRuns kLargeBuffer .debug).exec (Session.init kLargeBuffer)
        [.startStore, .startSpawn, .backend, .startReturn, .backend, .backend, .append [1],
          .stopCall, .stopStore, .backend, .backend, .backend, .backend, .backend, .stopJoin] =
        some s ∧ StopComplete s := by
  obtain ⟨s, hrun⟩ := Option.isSome_iff_exists.mp (show ((asyncRuns kLargeBuffer .debug).exec
    (Session.init kLargeBuffer)
      [.startStore, .startSpawn, .backend, .startReturn, .backend, .backend, .append [1],
        .stopCall, .stopStore, .backend, .backend, .backend, .backend, .backend,
        .stopJoin]).isSome by decide +kernel)
  have hstopped : ((asyncRuns kLargeBuffer .debug).exec (Session.init kLargeBuffer)
      [.startStore, .startSpawn, .backend, .startReturn, .backend, .backend, .append [1],
        .stopCall, .stopStore, .backend, .backend, .backend, .backend, .backend,
        .stopJoin]).map Session.owner = some .stopped := by
    decide +kernel
  rw [hrun] at hstopped
  exact ⟨s, hrun, (stop_loses_nothing_iff .debug _ (by decide) hrun
    (Option.some.inj hstopped)).mpr (by decide +kernel)⟩

/-- A message appended while the backend stands at its loop test is lost. -/
theorem stop_loses_message :
    ∃ s : Session kLargeBuffer,
      (asyncRuns kLargeBuffer .debug).exec (Session.init kLargeBuffer)
        [.startStore, .startSpawn, .backend, .startReturn, .append [7], .stopCall, .stopStore,
          .backend, .stopJoin] = some s ∧
      s.owner = .stopped ∧ s.required = 1 ∧ s.messages = [[7]] ∧ s.log.output = [] ∧
      ¬ StopComplete s := by
  obtain ⟨s, hrun⟩ := Option.isSome_iff_exists.mp (show ((asyncRuns kLargeBuffer .debug).exec
    (Session.init kLargeBuffer)
      [.startStore, .startSpawn, .backend, .startReturn, .append [7], .stopCall, .stopStore,
        .backend, .stopJoin]).isSome by decide +kernel)
  -- the end of the run, in numbers
  have hend : ((asyncRuns kLargeBuffer .debug).exec (Session.init kLargeBuffer)
      [.startStore, .startSpawn, .backend, .startReturn, .append [7], .stopCall, .stopStore,
        .backend, .stopJoin]).map (fun s =>
          (s.owner, s.messages, s.required, s.log.output.length, s.settled.length)) =
      some (.stopped, [[7]], 1, 0, 0) := by
    decide +kernel
  rw [hrun] at hend
  simp only [Option.map_some, Option.some.injEq, Prod.mk.injEq] at hend
  obtain ⟨hstopped, hmessages, hrequired, houtput, hsettled⟩ := hend
  refine ⟨s, hrun, hstopped, hrequired, hmessages, List.length_eq_zero_iff.mp houtput, ?_⟩
  intro hcomplete
  have htaken := hcomplete.taken
  omega

end TurboNet.Logger
