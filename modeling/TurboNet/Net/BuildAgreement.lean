/-
# TurboNet.Net.BuildAgreement — do the Debug and the Release build of the poller agree?

The two builds differ in whether asserts are evaluated.  All conditions but one are free of effects,
so `UpdateChannel`, `HaveChannel` and `Poll` do in Release what they do in Debug whenever they return
there (`release_of_debug`).  `RemoveChannel` erases `channel_map_` inside an assert, and the Release
build keeps the entry: from the first `RemoveChannel` on the two runs are in different states
(`builds_agree_iff`).
-/
import TurboNet.Net.PollerRuns

namespace TurboNet.Net

open TurboNet.Lib
open TurboNet.Logger

/-- A poller with the answers its callers have seen. -/
structure Observed (κ : Type) where
  world : World κ
  answers : List (Answer κ)

variable {κ : Type}

/-- The same `channel_map_`, indices, interest set and answers. -/
structure SameViews (s t : Observed κ) : Prop where
  channelMap : s.world.channelMap = t.world.channelMap
  index : ∀ c, (s.world.chan c).index = (t.world.chan c).index
  interest : s.world.epoll.interest = t.world.epoll.interest
  answers : s.answers = t.answers

theorem SameViews.refl (s : Observed κ) : SameViews s s := ⟨rfl, fun _ => rfl, rfl, rfl⟩

/-- Is the call a `RemoveChannel`? -/
def Call.isRemove : Call κ → Bool
  | .removeChannel .. => true
  | _ => false

variable [DecidableEq κ]

/-- The runs of a poller in the build `B`, with the answers. -/
def observedRuns (κ : Type) [DecidableEq κ] (B : Build) : StepSystem (Observed κ) (Call κ) where
  step s a :=
    match (a.method B).run s.world with
    | .ok answer w' => some { world := w', answers := s.answers ++ [answer] }
    | .error _ _ => none

theorem observed_step_iff {B : Build} {s s' : Observed κ} {a : Call κ} :
    (observedRuns κ B).step s a = some s' ↔ ∃ answer w', (a.method B).run s.world = .ok answer w' ∧
      s' = { world := w', answers := s.answers ++ [answer] } := by
  show (match (a.method B).run s.world with
    | .ok answer w' => some (Observed.mk w' (s.answers ++ [answer]))
    | .error _ _ => none) = some s' ↔ _
  cases hrun : (a.method B).run s.world with
  | ok answer w' =>
    constructor
    · intro h
      exact ⟨answer, w', rfl, (Option.some.inj h).symm⟩
    · rintro ⟨_, _, hok, rfl⟩
      cases hok
      rfl
  | error e w' => simp

/-- Every call but `RemoveChannel` does in Release what it does in Debug, where it returns there. -/
theorem release_of_debug {a : Call κ} (hremove : a.isRemove = false) {w w' : World κ}
    {answer : Answer κ} (h : (a.method .debug).run w = .ok answer w') :
    (a.method .release).run w = .ok answer w' := by
  have hlevel : Build.release.sysLevel = Build.debug.sysLevel := rfl
  have hasserts : Build.release.asserts = true → Build.debug.asserts = true := fun _ => rfl
  cases a with
  | setEvents c events => exact h
  | updateChannel tid granted c =>
    simp only [Call.method, bind_ok_iff, EpollPoller.updateChannel_ok_iff] at h ⊢
    obtain ⟨u, w₁, ⟨hthread, hcase⟩, hpure⟩ := h
    exact ⟨u, w₁, ⟨hthread, hcase.weaken hlevel hasserts⟩, hpure⟩
  | removeChannel tid granted c => cases hremove
  | haveChannel tid c => exact h
  | poll res now active =>
    simp only [Call.method, bind_ok_iff] at h ⊢
    obtain ⟨out, w₁, hpoll, hpure⟩ := h
    exact ⟨out, w₁, EpollPoller.poll_weaken hlevel hasserts hpoll, hpure⟩

theorem release_step_of_debug {a : Call κ} (hremove : a.isRemove = false) {s s' : Observed κ}
    (h : (observedRuns κ .debug).step s a = some s') :
    (observedRuns κ .release).step s a = some s' := by
  obtain ⟨answer, w', hrun, rfl⟩ := observed_step_iff.mp h
  exact observed_step_iff.mpr ⟨answer, w', release_of_debug hremove hrun, rfl⟩

/-- A run without `RemoveChannel` is the same run in Release. -/
theorem release_run_of_debug {calls : List (Call κ)} (hremove : ∀ a ∈ calls, a.isRemove = false)
    {s s' : Observed κ} (h : (observedRuns κ .debug).exec s calls = some s') :
    (observedRuns κ .release).exec s calls = some s' := by
  induction calls generalizing s with
  | nil => exact h
  | cons a calls ih =>
    obtain ⟨s₁, hstep, hrest⟩ := StepSystem.exec_cons.mp h
    apply StepSystem.exec_cons.mpr
    refine ⟨s₁, release_step_of_debug (hremove a (List.mem_cons_self ..)) hstep, ?_⟩
    exact ih (fun b hb => hremove b (List.mem_cons_of_mem _ hb)) hrest

/-- After a `RemoveChannel` from one state the maps of the two builds differ. -/
theorem channelMap_differs {a : Call κ} (hremove : a.isRemove = true) {s sD sR : Observed κ}
    (hD : (observedRuns κ .debug).step s a = some sD)
    (hR : (observedRuns κ .release).step s a = some sR) :
    sD.world.channelMap ≠ sR.world.channelMap := by
  obtain ⟨_, wD, hrunD, rfl⟩ := observed_step_iff.mp hD
  obtain ⟨_, wR, hrunR, rfl⟩ := observed_step_iff.mp hR
  cases a with
  | removeChannel tid granted c =>
    simp only [Call.method, bind_ok_iff, EpollPoller.removeChannel_ok_iff, pure_ok_iff,
      exists_const] at hrunD hrunR
    obtain ⟨_, ⟨-, hcaseD⟩, -, rfl⟩ := hrunD
    obtain ⟨_, ⟨-, hcaseR⟩, -, rfl⟩ := hrunR
    -- the asserts of the Debug build have found the channel in the map
    have hmap : s.world.channelMap (s.world.chan c).fd = some c := by
      cases hcaseD with
      | registered hguard => exact (hguard rfl).map
      | absent hguard => exact (hguard rfl).map
    obtain ⟨_, -, htouchesD⟩ := hcaseD.touches
    obtain ⟨_, -, htouchesR⟩ := hcaseR.touches
    intro heq
    have hD := htouchesD.channelMap_self
    have hR := htouchesR.channelMap_self
    rw [heq, hR, hmap] at hD
    cases hD
  | setEvents => cases hremove
  | updateChannel => cases hremove
  | haveChannel => cases hremove
  | poll => cases hremove

/-- The Release run of `calls` goes through the states of the Debug run. -/
def BuildsAgree (s : Observed κ) (calls : List (Call κ)) : Prop :=
  ∀ before, before <+: calls → ∀ sD, (observedRuns κ .debug).exec s before = some sD →
    ∃ sR, (observedRuns κ .release).exec s before = some sR ∧ SameViews sD sR

/-- Agreement of a whole sequence rules out its first call being a `RemoveChannel`, and passes on to
the rest of the sequence. -/
theorem BuildsAgree.cons {s s₁ : Observed κ} {a : Call κ} {calls : List (Call κ)}
    (h : BuildsAgree s (a :: calls)) (hstep : (observedRuns κ .debug).step s a = some s₁) :
    a.isRemove = false ∧ BuildsAgree s₁ calls := by
  have hremove : a.isRemove = false := by
    by_contra hne
    have hprefix : [a] <+: a :: calls := ⟨calls, rfl⟩
    obtain ⟨sR, hR, hsame⟩ := h [a] hprefix s₁ (StepSystem.exec_cons.mpr ⟨s₁, hstep, rfl⟩)
    obtain ⟨sR', hstepR, hnil⟩ := StepSystem.exec_cons.mp hR
    obtain rfl : sR' = sR := Option.some.inj hnil
    exact channelMap_differs (Bool.of_not_eq_false hne) hstep hstepR hsame.channelMap
  refine ⟨hremove, ?_⟩
  intro before hbefore sD hD
  have hprefix : a :: before <+: a :: calls := List.prefix_cons_inj a |>.mpr hbefore
  obtain ⟨sR, hR, hsame⟩ := h (a :: before) hprefix sD (StepSystem.exec_cons.mpr ⟨s₁, hstep, hD⟩)
  obtain ⟨s₂, hstepR, hrestR⟩ := StepSystem.exec_cons.mp hR
  -- the first step is the same in both builds
  rw [release_step_of_debug hremove hstep] at hstepR
  cases hstepR
  exact ⟨sR, hrestR, hsame⟩

theorem BuildsAgree.isRemove_eq_false {s s' : Observed κ} {calls : List (Call κ)}
    (h : BuildsAgree s calls) (hrun : (observedRuns κ .debug).exec s calls = some s') :
    ∀ a ∈ calls, a.isRemove = false := by
  induction calls generalizing s with
  | nil => simp
  | cons a calls ih =>
    obtain ⟨s₁, hstep, hrest⟩ := StepSystem.exec_cons.mp hrun
    obtain ⟨hremove, htail⟩ := h.cons hstep
    intro b hb
    rcases List.mem_cons.mp hb with rfl | hb
    · exact hremove
    · exact ih htail hrest b hb

/-- **When the builds agree.**  For a sequence of calls whose Debug run fires no assert and returns
from every call, the Release run goes through the same states exactly when no call of the sequence
is a `RemoveChannel`. -/
theorem builds_agree_iff (loopAddr : Nat) (loopThread : Int) (fds : κ → Fd)
    (calls : List (Call κ))
    (hrun : ((observedRuns κ .debug).exec ⟨World.init loopAddr loopThread fds, []⟩ calls).isSome) :
    BuildsAgree ⟨World.init loopAddr loopThread fds, []⟩ calls ↔
      ∀ a ∈ calls, a.isRemove = false := by
  constructor
  · intro hagree
    obtain ⟨s', hrun⟩ := Option.isSome_iff_exists.mp hrun
    exact hagree.isRemove_eq_false hrun
  · intro hremove before hbefore sD hD
    have hbefore' : ∀ a ∈ before, a.isRemove = false := fun a ha => hremove a (hbefore.subset ha)
    exact ⟨sD, release_run_of_debug hbefore' hD, .refl sD⟩

/-- A channel that is registered, parked and asked about. -/
theorem builds_agree_parked :
    BuildsAgree ⟨World.init 0 1 fun _ : Unit => 5, []⟩
      [.setEvents () EPOLLIN, .updateChannel 1 true (), .setEvents () 0, .updateChannel 1 true (),
        .haveChannel 1 ()] :=
  (builds_agree_iff 0 1 (fun _ => 5) _ (by decide +kernel)).mpr (by decide)

/-- Register, park, remove: the Release build returns from the same calls and keeps the map entry. -/
theorem builds_differ_removed :
    let calls : List (Call Unit) := [.setEvents () EPOLLIN, .updateChannel 1 true (),
      .setEvents () 0, .updateChannel 1 true (), .removeChannel 1 true (), .haveChannel 1 ()]
    let s₀ : Observed Unit := ⟨World.init 0 1 fun _ => 5, []⟩
    ((observedRuns Unit .debug).exec s₀ calls).map (fun s => (s.world.channelMap 5, s.answers[5]?)) =
      some (none, some (.have_ false)) ∧
    ((observedRuns Unit .release).exec s₀ calls).map
        (fun s => (s.world.channelMap 5, s.answers[5]?)) =
      some (some (), some (.have_ true)) ∧
    ¬ BuildsAgree s₀ calls := by
  intro calls s₀
  have hD : ((observedRuns Unit .debug).exec s₀ calls).map
      (fun s => (s.world.channelMap 5, s.answers[5]?)) = some (none, some (.have_ false)) := by
    decide +kernel
  have hR : ((observedRuns Unit .release).exec s₀ calls).map
      (fun s => (s.world.channelMap 5, s.answers[5]?)) = some (some (), some (.have_ true)) := by
    decide +kernel
  refine ⟨hD, hR, ?_⟩
  intro hagree
  obtain ⟨sD, hsD, hD⟩ := Option.map_eq_some_iff.mp hD
  obtain ⟨sR, hsR, hsame⟩ := hagree calls (List.prefix_refl _) sD hsD
  rw [hsR, Option.map_some] at hR
  -- the two maps differ at descriptor 5
  have hmapD := congrArg Prod.fst hD
  have hmapR := congrArg Prod.fst (Option.some.inj hR)
  simp only [hsame.channelMap] at hmapD
  rw [hmapD] at hmapR
  cases hmapR

end TurboNet.Net
