/-
# TurboNet.Logger.AsyncSane — the buffers of the asynchronous logger do not run out.

`Sane` is kept by every step of every session, whatever the length of the messages: producers take a
spare away only against a buffer they hand over, so when both spares are needed the batch has two
buffers to give back, also after it was cut to two.
-/
import TurboNet.Logger.AsyncConservation

namespace TurboNet.Logger

open TurboNet.Lib
open AsyncLogging

variable {SIZE : Nat} {B : Build} {s s' : Session SIZE}

/-! ## The hand-over -/

/-- The buffers are where `Append` and `ThreadFunc` need them. -/
structure NeverDry (B : Build) (l : AsyncLogging SIZE) : Prop where
  current : l.currentBuffer.isSome
  next : l.nextBuffer = none → l.buffers ≠ []
  /-- At the top of an iteration, before and after the asserts. -/
  top : l.place = .loopTest ∨ l.place = .section_ →
    isFresh l.newBuffer1 = true ∧ isFresh l.newBuffer2 = true ∧ l.buffersToWrite = []
  /-- `Append` returns, and the buffer it installs, if it installs one, was empty. -/
  appends : ∀ data, ∃ l', (append data).run l = .ok () l' ∧
    (l'.buffers ≠ l.buffers → ∃ fresh : FixedBuffer SIZE,
      fresh.length = 0 ∧ l'.currentBuffer = some (fresh.append data))
  /-- No assert of `ThreadFunc` fires, and it takes nothing from an empty vector. -/
  goesOn : l.place ≠ .unstarted → l.place ≠ .exited →
    ∃ l', (threadFunc B l.place).run l = .ok () l'

theorem AsyncLogging.Sane.neverDry {l : AsyncLogging SIZE} (hl : Sane l) : NeverDry B l where
  current := hl.current
  next := by
    intro hnone
    rcases hl.next with hfresh | ⟨-, hbuffers⟩
    · rw [hnone] at hfresh
      cases hfresh
    · exact hbuffers
  top := by
    intro hplace
    have hstack := hl.stack
    unfold StackSane at hstack
    have hspared : Spared l := by
      rcases hplace with hplace | hplace
      · rw [hplace] at hstack
        exact hstack
      · rw [hplace] at hstack
        exact hstack
    exact ⟨hspared.first, hspared.second, hspared.nothing⟩
  appends := by
    intro data
    obtain ⟨l', hrun, hmove⟩ := append_moves hl data
    refine ⟨l', hrun, fun hrotated => ?_⟩
    cases hmove with
    | inPlace => exact absurd rfl hrotated
    | rotated b fresh _ _ hfresh =>
      refine ⟨fresh, ?_, rfl⟩
      show fresh.chars.length = 0
      rw [hfresh]
      rfl
  goesOn := by
    intro hstarted hexited
    obtain ⟨l', hrun, -⟩ := threadFunc_moves (B := B) hl hstarted hexited
    exact ⟨l', hrun⟩

/-- **The buffers never run out**, in every state of every session, with messages of any length. -/
theorem buffers_never_run_dry (B : Build) (acts : List Act) {s : Session SIZE}
    (hrun : (asyncRuns SIZE B).exec (Session.init SIZE) acts = some s) : NeverDry B s.log :=
  (saneSession_run hrun).sane.neverDry

/-- Buffers of four chars: both spares are in use and the batch is cut to two when the backend comes
to the recycling. -/
theorem buffers_never_run_dry_cut :
    ∃ s : Session 4, (asyncRuns 4 .debug).exec (Session.init 4)
      ([.startStore, .startSpawn, .backend, .startReturn] ++
        List.replicate 30 (.append [1, 2, 3]) ++ List.replicate 5 .backend) = some s ∧
      s.log.place = .writing 2 ∧ s.log.buffersToWrite.length = 2 ∧ s.log.newBuffer1 = none ∧
      s.log.newBuffer2 = none ∧ NeverDry .debug s.log := by
  have hend : ((asyncRuns 4 .debug).exec (Session.init 4)
      ([.startStore, .startSpawn, .backend, .startReturn] ++
        List.replicate 30 (.append [1, 2, 3]) ++ List.replicate 5 .backend)).map
        (fun s => (s.log.place, s.log.buffersToWrite.length, s.log.newBuffer1, s.log.newBuffer2)) =
      some (.writing 2, 2, none, none) := by
    decide +kernel
  obtain ⟨s, hrun, hend⟩ := Option.map_eq_some_iff.mp hend
  simp only [Prod.mk.injEq] at hend
  obtain ⟨hplace, hlength, hfirst, hsecond⟩ := hend
  exact ⟨s, hrun, hplace, hlength, hfirst, hsecond, buffers_never_run_dry .debug _ hrun⟩

end TurboNet.Logger
