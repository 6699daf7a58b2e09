/-
# TurboNet.Net.ChannelRetire — can a channel be retired?

The way to retire a channel is `DisableAll`, `Remove`, `~Channel`.  `Channel::Remove` asserts that
the channel still wants events and `EpollPoller::RemoveChannel`, which it ends in, asserts that it
wants none: where asserts are evaluated `Remove` returns from no world (`remove_never_returns`).
Where they are not, the erase inside the poller's assert is missing, and the map keeps the channel
(`map_keeps_removed`).  So no history of a channel ends in its retirement (`never_retires`).
-/
import TurboNet.Net.ChannelInterest
import TurboNet.Net.PollerRuns

namespace TurboNet.Net

open TurboNet.Lib
open TurboNet.Logger
open EpollPoller (RemoveChannelCase erasedEntry)

variable {κ : Type} [DecidableEq κ] {B : Build} {tid : Int} {granted : Bool} {c : κ}
  {w w' : World κ}

theorem eventLoop_removeChannel_ok_iff {u : Unit} :
    (EventLoop.removeChannel B tid granted c).run w = .ok u w' ↔
      (B.asserts = true → (w.chan c).loop = w.loopAddr) ∧ w.loopThread = tid ∧
        RemoveChannelCase B granted c w w' := by
  unfold EventLoop.removeChannel EventLoop.assertOwner
  simp only [bind_ok_iff, get_ok_iff, Build.assert_ok_iff, assertInLoopThread_ok_iff,
    EpollPoller.removeChannel_ok_iff, and_assoc, exists_and_left, exists_eq_left, exists_const,
    and_self_left]

theorem remove_ok_iff {u : Unit} :
    (Channel.remove B tid granted c).run w = .ok u w' ↔
      (B.asserts = true → (w.chan c).isNoneEvents = false) ∧
      (B.asserts = true → ((w.setAddToLoop c false).chan c).loop = w.loopAddr) ∧
      w.loopThread = tid ∧ RemoveChannelCase B granted c (w.setAddToLoop c false) w' := by
  unfold Channel.remove
  simp only [bind_ok_iff, get_ok_iff, Build.assert_ok_iff, modify_ok_iff,
    eventLoop_removeChannel_ok_iff, and_assoc, exists_and_left, exists_eq_left, exists_const]
  exact Iff.rfl

theorem World.chan_setAddToLoop_self (b : Bool) :
    (w.setAddToLoop c b).chan c = { w.chan c with addToLoop := b } := by
  rw [setAddToLoop, chan_setChannel, if_pos rfl]

/-- Where asserts are evaluated `Channel::Remove` does not return: the channel would have to want
some events and none. -/
theorem remove_never_returns (hB : B.asserts = true) {u : Unit} :
    (Channel.remove B tid granted c).run w ≠ .ok u w' := by
  intro h
  obtain ⟨hsome, -, -, hcase⟩ := remove_ok_iff.mp h
  have hguard : EpollPoller.Removable (w.setAddToLoop c false) c := by
    cases hcase with
    | registered hguard => exact hguard hB
    | absent hguard => exact hguard hB
  have hnone := hguard.none
  unfold Channel.isNoneEvents at hnone
  rw [World.chan_setAddToLoop_self] at hnone
  exact absurd (hsome hB) (by simp [Channel.isNoneEvents, hnone])

/-- Where they are compiled out, the map still holds a channel after its `Remove`. -/
theorem map_keeps_removed (hB : B.asserts = false) (hmap : w.channelMap (w.chan c).fd = some c)
    {u : Unit} (h : (Channel.remove B tid granted c).run w = .ok u w') :
    w'.channelMap (w'.chan c).fd = some c := by
  obtain ⟨-, -, -, hcase⟩ := remove_ok_iff.mp h
  obtain ⟨r, -, htouches⟩ := hcase.touches
  have hkept := htouches.channelMap_self
  rw [← htouches.fd c] at hkept
  rw [hkept]
  unfold erasedEntry
  rw [if_neg (by simp [hB]), htouches.fd, World.chan_setAddToLoop_self]
  exact hmap

/-- `Remove` returns, the channel is gone from the map and from the kernel, its index is `kNew` and
`add_to_loop_` false, and `~Channel` returns. -/
def Retires (B : Build) (tid : Int) (w : World κ) (c : κ) : Prop :=
  ∃ w', (Channel.remove B tid true c).run w = .ok () w' ∧
    w'.channelMap (w'.chan c).fd ≠ some c ∧ ¬ RegisteredAs w' c ∧ (w'.chan c).index = kNew ∧
    (w'.chan c).addToLoop = false ∧ ∃ w'', (Channel.destroy B tid c).run w' = .ok () w''

theorem not_retires (hmap : w.channelMap (w.chan c).fd = some c) : ¬ Retires B tid w c := by
  rintro ⟨w', hremove, hgone, -⟩
  cases hB : B.asserts with
  | true => exact remove_never_returns hB hremove
  | false => exact hgone (map_keeps_removed hB hmap hremove)

/-- The calls of `ts` on `c` all return. -/
theorem toggles_run (hw : Attached tid c w) (ts : List Toggle) :
    ∃ w', (toggleRuns κ B tid).exec w (ts.map (·, c)) = some w' ∧ Attached tid c w' := by
  have halong : (toggleRuns κ B tid).Along (fun _ a => a.2 = c) w (ts.map (·, c)) := by
    clear hw
    induction ts generalizing w with
    | nil => trivial
    | cons t ts ih => exact ⟨rfl, fun w' _ => ih⟩
  refine StepSystem.exec_progress (I := Attached tid c) ?_ hw halong
  rintro w ⟨t, c'⟩ hw rfl
  obtain ⟨w', i, r, hstep, htouches, hdecides⟩ := toggle_run (B := B) hw t
  exact ⟨w', hstep, hw.touched htouches hdecides⟩

/-- **No channel can be retired.**  In every build, every sequence of `Enable*` and `Disable*` calls
on a channel that ends with `DisableAll` returns from all its calls, and leaves a channel that does
not retire. -/
theorem never_retires (B : Build) (loopAddr : Nat) (tid : Int) (fds : κ → Fd) (c : κ)
    (ts : List Toggle) :
    ∃ w, (toggleRuns κ B tid).exec (World.init loopAddr tid fds)
        ((ts ++ [Toggle.disableAll]).map (·, c)) = some w ∧ ¬ Retires B tid w c := by
  have hinit : Attached tid c (World.init loopAddr tid fds) := attached_init loopAddr fds c
  obtain ⟨w₁, hrun, hw₁⟩ := toggles_run (B := B) hinit ts
  obtain ⟨w, i, r, hstep, htouches, -⟩ := toggle_run (B := B) hw₁ .disableAll
  refine ⟨w, ?_, not_retires ?_⟩
  · rw [List.map_append]
    exact StepSystem.exec_concat.mpr ⟨w₁, hrun, hstep⟩
  · -- a call leaves its channel in the map
    have hmap := htouches.channelMap_self
    rwa [← htouches.fd c] at hmap

/-- `EnableReading`, `DisableAll`, `Remove`: the Debug build fails the first assert of `Remove`, and
the Release build returns with the channel in the map. -/
theorem enabled_disabled_not_retired :
    let w₀ : World Unit := World.init 0 1 fun _ => 5
    let calls : List (Toggle × Unit) := [(.enableReading, ()), (.disableAll, ())]
    ∃ wD wR, (toggleRuns Unit .debug 1).exec w₀ calls = some wD ∧
      (toggleRuns Unit .release 1).exec w₀ calls = some wR ∧
      ¬ Retires .debug 1 wD () ∧ ¬ Retires .release 1 wR () := by
  intro w₀ calls
  obtain ⟨wD, hD⟩ := Option.isSome_iff_exists.mp
    (show ((toggleRuns Unit .debug 1).exec w₀ calls).isSome by decide +kernel)
  have hmapR : ((toggleRuns Unit .release 1).exec w₀ calls).map
      (fun w => (w.channelMap 5, (w.chan ()).fd)) = some (some (), 5) := by decide +kernel
  obtain ⟨wR, hR, hview⟩ := Option.map_eq_some_iff.mp hmapR
  obtain ⟨hmap, hfd⟩ : wR.channelMap 5 = some () ∧ (wR.chan ()).fd = 5 := by simpa using hview
  refine ⟨wD, wR, hD, hR, ?_, not_retires (by rw [hfd, hmap])⟩
  rintro ⟨w', hremove, -⟩
  exact remove_never_returns rfl hremove

end TurboNet.Net
