/-
# TurboNet.Lib.SharedState — what a promise and its future share.

A result is stored once; a promise that goes away before leaves a broken one.  Both are for good.  Of
many promises `Tells` says what their states are, after any number of results and of promises that
went away.
-/
import Mathlib.Data.List.Basic
import Mathlib.Logic.Function.Basic

namespace TurboNet.Lib

/-- The state that a promise and its future share. -/
inductive SharedState (ρ : Type*) where
  | pending
  | ready (r : ρ)
  | broken
  deriving DecidableEq, Repr

namespace SharedState

variable {ρ : Type*} {st : SharedState ρ} {r : ρ}

/-- The result is stored, unless there is one (`promise_already_satisfied`). -/
def satisfy : SharedState ρ → ρ → Option (SharedState ρ)
  | pending, r => some (ready r)
  | _, _ => none

/-- The promise goes away. -/
def abandon : SharedState ρ → SharedState ρ
  | pending => broken
  | ready r => ready r
  | broken => broken

theorem abandon_eq_ready_iff : st.abandon = ready r ↔ st = ready r := by
  cases st with
  | pending => exact ⟨nofun, nofun⟩
  | ready => exact Iff.rfl
  | broken => exact Iff.rfl

theorem abandon_ne_pending : st.abandon ≠ pending := by
  cases st with
  | pending => nofun
  | ready => nofun
  | broken => nofun

end SharedState

/-! ## Many promises -/

/-- The results are those that were stored; the others are pending, but where the promise is gone. -/
structure Tells {κ ρ : Type*} (state : κ → SharedState ρ) (settled : List (κ × ρ))
    (gone : κ → Bool) : Prop where
  ready : ∀ c r, state c = .ready r ↔ (c, r) ∈ settled
  pending : ∀ c, state c = .pending ↔ c ∉ settled.map Prod.fst ∧ gone c = false

namespace Tells

variable {κ ρ : Type*} {state : κ → SharedState ρ} {settled : List (κ × ρ)} {gone gone' : κ → Bool}

theorem broken_iff (h : Tells state settled gone) (c : κ) :
    state c = .broken ↔ c ∉ settled.map Prod.fst ∧ gone c = true := by
  have hready : (∃ r, state c = .ready r) ↔ c ∈ settled.map Prod.fst := by
    rw [List.mem_map]
    constructor
    · rintro ⟨r, hr⟩
      exact ⟨(c, r), (h.ready c r).mp hr, rfl⟩
    · rintro ⟨⟨_, r⟩, hr, rfl⟩
      exact ⟨r, (h.ready _ r).mpr hr⟩
  have hpending := h.pending c
  cases hstate : state c with
  | pending =>
    obtain ⟨hnot, hthere⟩ := hpending.mp hstate
    rw [hthere]
    exact ⟨nofun, fun hboth => nomatch hboth.2⟩
  | ready r => exact ⟨nofun, fun hboth => absurd (hready.mp ⟨r, hstate⟩) hboth.1⟩
  | broken =>
    have hnot : c ∉ settled.map Prod.fst := by
      intro hmem
      obtain ⟨r, hr⟩ := hready.mpr hmem
      rw [hstate] at hr
      cases hr
    refine ⟨fun _ => ⟨hnot, ?_⟩, fun _ => rfl⟩
    by_contra hthere
    have hwaits := hpending.mpr ⟨hnot, eq_false_of_ne_true hthere⟩
    rw [hstate] at hwaits
    cases hwaits

/-- Promises go away. -/
theorem goes (h : Tells state settled gone) (hkept : ∀ c, gone c = true → gone' c = true) :
    Tells (fun c => if gone' c then (state c).abandon else state c) settled gone' where
  ready := by
    intro c r
    split
    · rw [SharedState.abandon_eq_ready_iff]
      exact h.ready c r
    · exact h.ready c r
  pending := by
    intro c
    split
    · rename_i hgone
      rw [hgone]
      exact ⟨fun hpending => absurd hpending SharedState.abandon_ne_pending,
        fun hboth => nomatch hboth.2⟩
    · rename_i hthere
      have hbefore : gone c = false := eq_false_of_ne_true fun hgone =>
        hthere (hkept c hgone)
      rw [h.pending c, hbefore, eq_false_of_ne_true hthere]

/-- A result is stored. -/
theorem store [DecidableEq κ] (h : Tells state settled gone) {t : κ} (ht : state t = .pending)
    (r : ρ) : Tells (Function.update state t (.ready r)) (settled ++ [(t, r)]) gone where
  ready := by
    intro c r'
    rw [List.mem_append, List.mem_singleton, Prod.mk.injEq]
    by_cases hc : c = t
    · subst hc
      have hnew : (c, r') ∉ settled := fun hmem =>
        ((h.pending c).mp ht).1 (List.mem_map_of_mem hmem)
      rw [Function.update_self, SharedState.ready.injEq, or_iff_right hnew, and_iff_right rfl]
      exact eq_comm
    · rw [Function.update_of_ne hc, h.ready c r', or_iff_left fun hsame => hc hsame.1]
  pending := by
    intro c
    rw [List.map_append, List.mem_append, not_or]
    by_cases hc : c = t
    · subst hc
      rw [Function.update_self]
      exact ⟨nofun, fun hboth => absurd (List.mem_singleton_self c) hboth.1.2⟩
    · have hother : c ∉ [(t, r)].map Prod.fst := fun hmem => hc (List.mem_singleton.mp hmem)
      rw [Function.update_of_ne hc, h.pending c, and_iff_left hother]

end Tells

end TurboNet.Lib
