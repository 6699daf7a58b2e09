/-
# TurboNet.Net.PollerFailures — what a failing `epoll_ctl` or `epoll_wait` does to the poller.

`UpdateChannel` sets the index before an `ADD` and after a `DEL`, so that a failed `ADD` or `MOD`
leaves index and kernel in step only if it never returns to the caller.  Its record is a
`LOG_SYS_FATAL`, whose constructor picks `ERROR`: it does return, with index `kAdd`.  The records of a
failed `DEL` and of a failed `epoll_wait` are `LOG_SYS_ERROR`, whose constructor picks `FATAL`: they
end the process.

An `ADD` fails when the kernel refuses it; a `MOD` or `DEL` fails also when the descriptor of the
channel was closed under it, so the runs here have that as a step of its own (`closingRuns`).  What
the kernel holds is still a channel of index `kAdd` then, but not the other way round.

`failures_contained_iff` says which runs are free of all three.  With the severities the macros are
named for, every run is (`failures_contained_of_named`).
-/
import TurboNet.Net.PollerRuns

namespace TurboNet.Net

open TurboNet.Lib
open TurboNet.Logger
open EpollPoller (UpdateCase UpdateChannelCase RemoveChannelCase Removable EINTR)

variable {κ : Type} {B : Build} {tid : Int} {granted : Bool} {c : κ} {w w' : World κ}

/-! ## Descriptors closed under their channels -/

/-- `close(fd)`, by whoever owns the descriptor. -/
def World.closeFd (w : World κ) (fd : Fd) : World κ := { w with epoll := w.epoll.close fd }

/-- One step of a schedule: a call on the poller, or a descriptor is closed. -/
inductive PollerEvent (κ : Type) where
  | call (a : Call κ)
  | close (fd : Fd)
  deriving DecidableEq, Repr

/-- The runs of a poller whose descriptors may be closed at any time. -/
def closingRuns (κ : Type) [DecidableEq κ] (B : Build) :
    StepSystem (World κ) (PollerEvent κ) where
  step w
    | .call a => (pollerRuns κ B).step w a
    | .close fd => some (w.closeFd fd)

theorem held_closeFd (hw : Held w) (fd : Fd) : Held (w.closeFd fd) where
  range := hw.range
  added fd' r hreg := by
    have hreg : Function.update w.epoll.interest fd none fd' = some r := hreg
    rw [Function.update_apply] at hreg
    split at hreg
    · cases hreg
    · exact hw.added fd' r hreg

/-! ## Calls that do not return -/

/-- A program is left at an assert, with nothing changed, or after it. -/
theorem assert_bind_error {α : Type} {expr : String} {cond : Prop} [Decidable cond]
    {k : Unit → Method κ α} {e : Halt} (h : (B.assert expr cond >>= k).run w = .error e w') :
    ¬ (B.asserts = true → cond) ∧ w' = w ∨
      (B.asserts = true → cond) ∧ (k ()).run w = .error e w' := by
  rcases bind_error_iff.mp h with hcheck | ⟨_, w₁, hok, hrest⟩
  · obtain ⟨hnot, -, rfl⟩ := check_error_iff.mp hcheck
    exact .inl ⟨hnot, rfl⟩
  · obtain ⟨hcond, rfl⟩ := Build.assert_ok_iff.mp hok
    exact .inr ⟨hcond, hrest⟩

theorem assertInLoopThread_bind_error {α : Type} {k : Unit → Method κ α} {e : Halt}
    (h : (assertInLoopThread tid >>= k).run w = .error e w') :
    w.loopThread ≠ tid ∧ w' = w ∨ w.loopThread = tid ∧ (k ()).run w = .error e w' := by
  rcases bind_error_iff.mp h with hcheck | ⟨_, w₁, hok, hrest⟩
  · unfold assertInLoopThread at hcheck
    rw [run_get_bind] at hcheck
    obtain ⟨hnot, -, rfl⟩ := check_error_iff.mp hcheck
    exact .inl ⟨hnot, rfl⟩
  · obtain ⟨hthread, rfl⟩ := assertInLoopThread_ok_iff.mp hok
    exact .inr ⟨hthread, hrest⟩

/-- The process ended in `epoll_ctl(op)` for `c`, which failed, with a record whose level aborts. -/
structure EndsInCtl (B : Build) (granted : Bool) (op : EpollOp) (c : κ) (w w' : World κ) :
    Prop where
  failed : w.epoll.succeeds granted op (w.chan c).fd = false
  aborts : (B.sysLevel (op != .del)).aborts = true
  calls : w'.epoll.calls = w.epoll.calls ++
    [⟨op, (w.chan c).fd, (w.epoll.interest (w.chan c).fd).isSome⟩]

theorem update_error {op : EpollOp} {e : Halt}
    (h : (EpollPoller.update B granted op c).run w = .error e w') :
    EndsInCtl B granted op c w w' := by
  unfold EpollPoller.update at h
  rw [run_get_bind, run_bind_of_ok (EStateM.run_set ..)] at h
  split at h
  next hfail =>
    unfold logSys at h
    rw [run_modify_bind] at h
    obtain ⟨haborts, -, rfl⟩ := check_error_iff.mp h
    exact ⟨hfail, Bool.of_not_eq_false haborts, Epoll.ctl_calls ..⟩
  next => cases h

/-- The two ways `Update` goes on to its caller. -/
theorem exists_updateCase {op : EpollOp}
    (h : w.epoll.succeeds granted op (w.chan c).fd = true ∨
      (B.sysLevel (op != .del)).aborts = false) : ∃ w', UpdateCase B granted op c w w' := by
  cases hs : w.epoll.succeeds granted op (w.chan c).fd with
  | true => exact ⟨_, .done hs⟩
  | false => exact ⟨_, .refused hs (h.resolve_left (by simp [hs]))⟩

theorem EpollPoller.UpdateCase.outcome {op : EpollOp} (h : UpdateCase B granted op c w w') :
    w.epoll.succeeds granted op (w.chan c).fd = true ∨
      (B.sysLevel (op != .del)).aborts = false := by
  cases h with
  | done hs => exact .inl hs
  | refused _ hlevel => exact .inr hlevel

/-! ## How far a call comes -/

/-- The asserts of `UpdateChannel(c)` hold. -/
structure MapReady (w : World κ) (c : κ) : Prop where
  fresh : (w.chan c).index = kNew → w.channelMap (w.chan c).fd = none
  known : (w.chan c).index ≠ kNew → w.channelMap (w.chan c).fd = some c

/-- `UpdateChannel(c)` gets as far as its `epoll_ctl`. -/
def UpdateComes (B : Build) (w : World κ) (tid : Int) (c : κ) : Prop :=
  w.loopThread = tid ∧ (B.asserts = true → MapReady w c)

/-- `RemoveChannel(c)` gets as far as its `epoll_ctl`, a `DEL`. -/
def RemoveComes (B : Build) (w : World κ) (tid : Int) (c : κ) : Prop :=
  w.loopThread = tid ∧ (B.asserts = true → Removable w c) ∧ (w.chan c).index = kAdd

section Decidable

variable [DecidableEq κ]

instance (w : World κ) (c : κ) : Decidable (MapReady w c) :=
  decidable_of_iff (((w.chan c).index = kNew → w.channelMap (w.chan c).fd = none) ∧
      ((w.chan c).index ≠ kNew → w.channelMap (w.chan c).fd = some c))
    ⟨fun h => ⟨h.1, h.2⟩, fun h => ⟨h.fresh, h.known⟩⟩

instance (w : World κ) (c : κ) : Decidable (Removable w c) :=
  decidable_of_iff (w.channelMap (w.chan c).fd = some c ∧ (w.chan c).isNoneEvents = true ∧
      ((w.chan c).index = kAdd ∨ (w.chan c).index = kDel))
    ⟨fun h => ⟨h.1, h.2.1, h.2.2⟩, fun h => ⟨h.map, h.none, h.index⟩⟩

instance (w : World κ) (c : κ) : Decidable (RegisteredAs w c) :=
  decidable_of_iff ((w.epoll.interest (w.chan c).fd).map Registration.ptr = some c) (by
    unfold RegisteredAs
    cases w.epoll.interest (w.chan c).fd with
    | none => simp
    | some r =>
      rcases r with ⟨ptr, events⟩
      simp)

instance (B : Build) (w : World κ) (tid : Int) (c : κ) : Decidable (UpdateComes B w tid c) := by
  unfold UpdateComes
  infer_instance

instance (B : Build) (w : World κ) (tid : Int) (c : κ) : Decidable (RemoveComes B w tid c) := by
  unfold RemoveComes
  infer_instance

end Decidable

variable [DecidableEq κ]

theorem EpollPoller.UpdateChannelCase.comes (h : UpdateChannelCase B granted c w w') :
    B.asserts = true → MapReady w c := by
  intro hB
  cases h with
  | fresh hindex hmap => exact ⟨fun _ => hmap hB, fun hne => absurd hindex hne⟩
  | again hindex hmap =>
    exact ⟨fun hnew => absurd (hnew.symm.trans hindex) (by decide), fun _ => hmap hB⟩
  | drop hnew _ hmap => exact ⟨fun h => absurd h hnew, fun _ => hmap hB⟩
  | change hnew _ hmap => exact ⟨fun h => absurd h hnew, fun _ => hmap hB⟩

/-- An `UpdateChannel` that returns has done its `epoll_ctl`, or the record of the failure let it
go on. -/
theorem EpollPoller.UpdateChannelCase.outcome (h : UpdateChannelCase B granted c w w') :
    w.epoll.succeeds granted (updateOp w c) (w.chan c).fd = true ∨
      (B.sysLevel (updateOp w c != .del)).aborts = false := by
  cases h with
  | fresh hindex _ hupdate =>
    have hout := hupdate.outcome
    rw [World.chan_setIndex_fd] at hout
    rw [updateOp_eq_add_iff.mpr (.inl hindex)]
    exact hout
  | again hindex _ hupdate =>
    have hout := hupdate.outcome
    rw [World.chan_setIndex_fd] at hout
    rw [updateOp_eq_add_iff.mpr (.inr hindex)]
    exact hout
  | drop hnew hdel _ hnone hupdate =>
    rw [updateOp_of_known hnew hdel, if_pos hnone]
    exact hupdate.outcome
  | change hnew hdel _ hnone hupdate =>
    rw [updateOp_of_known hnew hdel, if_neg (by simp [hnone])]
    exact hupdate.outcome

/-- It does return then. -/
theorem updateChannel_returns (hmap : B.asserts = true → MapReady w c)
    (hout : w.epoll.succeeds granted (updateOp w c) (w.chan c).fd = true ∨
      (B.sysLevel (updateOp w c != .del)).aborts = false) :
    ∃ w', UpdateChannelCase B granted c w w' := by
  by_cases hnew : (w.chan c).index = kNew
  · rw [updateOp_eq_add_iff.mpr (.inl hnew)] at hout
    have hupdate : ∃ w', UpdateCase B granted .add c
        ((w.mapSet (w.chan c).fd c).setIndex c kAdd) w' := by
      apply exists_updateCase
      rw [World.chan_setIndex_fd]
      exact hout
    obtain ⟨w', hupdate⟩ := hupdate
    exact ⟨w', .fresh hnew (fun hB => (hmap hB).fresh hnew) hupdate⟩
  by_cases hdel : (w.chan c).index = kDel
  · rw [updateOp_eq_add_iff.mpr (.inr hdel)] at hout
    have hupdate : ∃ w', UpdateCase B granted .add c (w.setIndex c kAdd) w' := by
      apply exists_updateCase
      rw [World.chan_setIndex_fd]
      exact hout
    obtain ⟨w', hupdate⟩ := hupdate
    exact ⟨w', .again hdel (fun hB => (hmap hB).known hnew) hupdate⟩
  rw [updateOp_of_known hnew hdel] at hout
  cases hnone : (w.chan c).isNoneEvents with
  | true =>
    rw [if_pos hnone] at hout
    obtain ⟨w', hupdate⟩ := exists_updateCase hout
    exact ⟨_, .drop hnew hdel (fun hB => (hmap hB).known hnew) hnone hupdate⟩
  | false =>
    rw [if_neg (by simp [hnone])] at hout
    obtain ⟨w', hupdate⟩ := exists_updateCase hout
    exact ⟨_, .change hnew hdel (fun hB => (hmap hB).known hnew) hnone hupdate⟩

/-- An `UpdateChannel` that does not return ended at an assert or in its `epoll_ctl`. -/
theorem updateChannel_error {e : Halt}
    (h : (EpollPoller.updateChannel B tid granted c).run w = .error e w') :
    ¬ UpdateComes B w tid c ∧ w' = w ∨
      UpdateComes B w tid c ∧ EndsInCtl B granted (updateOp w c) c w w' := by
  unfold EpollPoller.updateChannel at h
  rcases assertInLoopThread_bind_error h with ⟨hthread, rfl⟩ | ⟨hthread, h⟩
  · exact .inl ⟨fun hcomes => hthread hcomes.1, rfl⟩
  rw [run_get_bind] at h
  by_cases hnew : (w.chan c).index = kNew
  · rw [if_pos (Or.inl hnew), if_pos hnew] at h
    rcases assert_bind_error h with ⟨hmap, rfl⟩ | ⟨hmap, h⟩
    · exact .inl ⟨fun hcomes => hmap fun hB => (hcomes.2 hB).fresh hnew, rfl⟩
    rw [run_modify_bind, run_modify_bind] at h
    obtain ⟨hfail, haborts, hcalls⟩ := update_error h
    simp only [World.chan_setIndex_fd] at hfail hcalls
    rw [updateOp_eq_add_iff.mpr (.inl hnew)]
    refine .inr ⟨⟨hthread, fun hB => ⟨fun _ => hmap hB, fun hne => absurd hnew hne⟩⟩, ?_⟩
    exact ⟨hfail, haborts, hcalls⟩
  have hready (hmap : B.asserts = true → w.channelMap (w.chan c).fd = some c) :
      UpdateComes B w tid c :=
    ⟨hthread, fun hB => ⟨fun h => absurd h hnew, fun _ => hmap hB⟩⟩
  have hfound (hcomes : UpdateComes B w tid c) (hB : B.asserts = true) :
      w.channelMap (w.chan c).fd ≠ none := by
    rw [(hcomes.2 hB).known hnew]
    exact Option.some_ne_none c
  by_cases hdel : (w.chan c).index = kDel
  · rw [if_pos (Or.inr hdel), if_neg hnew] at h
    rcases assert_bind_error h with ⟨hmap, rfl⟩ | ⟨-, h⟩
    · exact .inl ⟨fun hcomes => hmap (hfound hcomes), rfl⟩
    rcases assert_bind_error h with ⟨hmap, rfl⟩ | ⟨hmap, h⟩
    · exact .inl ⟨fun hcomes => hmap fun hB => (hcomes.2 hB).known hnew, rfl⟩
    rw [run_modify_bind] at h
    obtain ⟨hfail, haborts, hcalls⟩ := update_error h
    simp only [World.chan_setIndex_fd] at hfail hcalls
    rw [updateOp_eq_add_iff.mpr (.inr hdel)]
    exact .inr ⟨hready hmap, hfail, haborts, hcalls⟩
  rw [if_neg (not_or.mpr ⟨hnew, hdel⟩)] at h
  rcases assert_bind_error h with ⟨hmap, rfl⟩ | ⟨-, h⟩
  · exact .inl ⟨fun hcomes => hmap (hfound hcomes), rfl⟩
  rcases assert_bind_error h with ⟨hmap, rfl⟩ | ⟨hmap, h⟩
  · exact .inl ⟨fun hcomes => hmap fun hB => (hcomes.2 hB).known hnew, rfl⟩
  rw [updateOp_of_known hnew hdel]
  split at h
  next hnone =>
    rw [if_pos hnone]
    rcases bind_error_iff.mp h with h | ⟨_, w₁, -, h⟩
    · exact .inr ⟨hready hmap, update_error h⟩
    · cases h
  next hnone =>
    rw [if_neg hnone]
    exact .inr ⟨hready hmap, update_error h⟩

/-- A `RemoveChannel` that does not return ended at an assert or in its `DEL`. -/
theorem removeChannel_error {e : Halt}
    (h : (EpollPoller.removeChannel B tid granted c).run w = .error e w') :
    ¬ RemoveComes B w tid c ∧ w' = w ∨
      RemoveComes B w tid c ∧ EndsInCtl B granted .del c w w' := by
  have htail (w₁ : World κ) (hw₁ : w₁.epoll = w.epoll) (hchan : w₁.channels = w.channels)
      (h : ((if (w.chan c).index = kAdd then do
          EpollPoller.update B granted .del c
          modify fun w => w.setIndex c kNew
        else modify fun w => w.setIndex c kNew : Method κ Unit).run w₁ = .error e w')) :
      (w.chan c).index = kAdd ∧ EndsInCtl B granted .del c w w' := by
    split at h
    next hadd =>
      rcases bind_error_iff.mp h with h | ⟨_, w₂, -, h⟩
      · obtain ⟨hfail, haborts, hcalls⟩ := update_error h
        rw [hw₁, World.chan, hchan] at hfail hcalls
        exact ⟨hadd, hfail, haborts, hcalls⟩
      · cases h
    next => cases h
  unfold EpollPoller.removeChannel at h
  rcases assertInLoopThread_bind_error h with ⟨hthread, rfl⟩ | ⟨hthread, h⟩
  · exact .inl ⟨fun hcomes => hthread hcomes.1, rfl⟩
  rw [run_get_bind] at h
  rcases assert_bind_error h with ⟨hfind, rfl⟩ | ⟨-, h⟩
  · refine .inl ⟨fun hcomes => hfind fun hB => ?_, rfl⟩
    rw [(hcomes.2.1 hB).map]
    exact Option.some_ne_none c
  rcases assert_bind_error h with ⟨hmap, rfl⟩ | ⟨hmap, h⟩
  · exact .inl ⟨fun hcomes => hmap fun hB => (hcomes.2.1 hB).map, rfl⟩
  rcases assert_bind_error h with ⟨hnone, rfl⟩ | ⟨hnone, h⟩
  · exact .inl ⟨fun hcomes => hnone fun hB => (hcomes.2.1 hB).none, rfl⟩
  rcases assert_bind_error h with ⟨hindex, rfl⟩ | ⟨hindex, h⟩
  · exact .inl ⟨fun hcomes => hindex fun hB => (hcomes.2.1 hB).index, rfl⟩
  have hguard (hB : B.asserts = true) : Removable w c := ⟨hmap hB, hnone hB, hindex hB⟩
  by_cases hB : B.asserts = true
  · rw [if_pos hB, run_modify_bind] at h
    rcases bind_error_iff.mp h with hcheck | ⟨_, w₁, hok, hrest⟩
    · -- the map held the channel a moment ago
      have hgone := (check_error_iff.mp hcheck).1
      rw [hmap hB] at hgone
      exact absurd (Option.some_ne_none c) hgone
    · obtain ⟨-, rfl⟩ := check_ok_iff.mp hok
      obtain ⟨hadd, hends⟩ := htail (w.mapErase (w.chan c).fd) rfl rfl hrest
      exact .inr ⟨⟨hthread, hguard, hadd⟩, hends⟩
  · rw [if_neg hB] at h
    obtain ⟨hadd, hends⟩ := htail w rfl rfl h
    exact .inr ⟨⟨hthread, hguard, hadd⟩, hends⟩

/-! ## What a step must do about a failure -/

/-- The `epoll_ctl` made since `w` was a `DEL` that failed. -/
def FailedDel (w w' : World κ) : Prop :=
  ∃ fd, w'.epoll.calls = w.epoll.calls ++ [⟨.del, fd, false⟩]

/-- `UpdateChannel` and `RemoveChannel` return with index and kernel in step and do not end in a
failed `DEL`; `Poll` returns from a failed `epoll_wait` with both lists as they were. -/
def CallContained (B : Build) (w : World κ) (a : Call κ) : Prop :=
  match a with
  | .updateChannel _ _ c | .removeChannel _ _ c =>
    (∀ answer w', (a.method B).run w = .ok answer w' →
      ((w'.chan c).index = kAdd ↔ RegisteredAs w' c)) ∧
    (∀ e w', (a.method B).run w = .error e w' → ¬ FailedDel w w')
  | .poll (.failed _) now active =>
    ∃ w', (a.method B).run w = .ok (.polled now active) w' ∧ w'.eventList = w.eventList
  | _ => True

def FailuresContained (B : Build) (w : World κ) : PollerEvent κ → Prop
  | .call a => CallContained B w a
  | .close _ => True

/-- No `ADD` or `DEL` fails, no `MOD` fails for a channel the kernel does not hold, and no
`epoll_wait` fails with another errno than `EINTR`. -/
def NoFailure (B : Build) (w : World κ) : PollerEvent κ → Prop
  | .call (.updateChannel tid granted c) =>
    UpdateComes B w tid c → w.epoll.succeeds granted (updateOp w c) (w.chan c).fd = true ∨
      updateOp w c = .mod ∧ RegisteredAs w c
  | .call (.removeChannel tid granted c) =>
    RemoveComes B w tid c → w.epoll.succeeds granted .del (w.chan c).fd = true
  | .call (.poll (.failed errno) _ _) => errno = EINTR
  | _ => True

instance (B : Build) (w : World κ) : (e : PollerEvent κ) → Decidable (NoFailure B w e)
  | .call (.updateChannel tid granted c) => inferInstanceAs (Decidable (UpdateComes B w tid c →
      w.epoll.succeeds granted (updateOp w c) (w.chan c).fd = true ∨
        updateOp w c = .mod ∧ RegisteredAs w c))
  | .call (.removeChannel tid granted c) => inferInstanceAs (Decidable (RemoveComes B w tid c →
      w.epoll.succeeds granted .del (w.chan c).fd = true))
  | .call (.poll (.failed errno) _ _) => inferInstanceAs (Decidable (errno = EINTR))
  | .call (.poll (.ready _) _ _) | .call (.setEvents ..) | .call (.haveChannel ..) | .close _ =>
    .isTrue trivial

/-! ## Steps -/

omit [DecidableEq κ] in
theorem EndsInCtl.failedDel_iff {op : EpollOp} (h : EndsInCtl B granted op c w w') :
    FailedDel w w' ↔ op = .del := by
  have hcalls := h.calls
  constructor
  · rintro ⟨fd, hdel⟩
    rw [hcalls, List.append_cancel_left_eq] at hdel
    exact congrArg CtlCall.op (List.head_eq_of_cons_eq hdel)
  · rintro rfl
    have habsent : (w.epoll.interest (w.chan c).fd).isSome = false := h.failed
    rw [habsent] at hcalls
    exact ⟨_, hcalls⟩

omit [DecidableEq κ] in
theorem not_failedDel_self : ¬ FailedDel w w := by
  rintro ⟨fd, hdel⟩
  have hlength := congrArg List.length hdel
  simp at hlength

/-- With the build's severities an operation of `UpdateChannel` or `RemoveChannel` on the descriptor
of `c` does no harm. -/
def Harmless (B : Build) (w : World κ) (granted : Bool) (c : κ) (op : EpollOp) : Prop :=
  w.epoll.succeeds granted op (w.chan c).fd = true ∨
    match op with
    | .add => (B.sysLevel true).aborts = true
    | .mod => (B.sysLevel true).aborts = true ∨ RegisteredAs w c
    | .del => (B.sysLevel false).aborts = false

omit [DecidableEq κ] in
/-- A harmless operation that goes on to its caller did what it is for. -/
theorem Harmless.effective {op : EpollOp} (h : Harmless B w granted c op)
    (hout : w.epoll.succeeds granted op (w.chan c).fd = true ∨
      (B.sysLevel (op != .del)).aborts = false) : Effective w granted c op := by
  have hstops (hlevel : (B.sysLevel true).aborts = true) :
      ¬ (B.sysLevel true).aborts = false := by simp [hlevel]
  cases op with
  | add =>
    rcases h with hs | hlevel
    · exact hs
    · exact hout.resolve_right (hstops hlevel)
  | mod =>
    rcases h with hs | hlevel | hreg
    · exact .inl hs
    · exact .inl (hout.resolve_right (hstops hlevel))
    · exact .inr hreg
  | del => trivial

omit [DecidableEq κ] in
/-- An `ADD` or `MOD` that does harm fails and goes on to its caller. -/
theorem not_effective_of_harm {op : EpollOp} (hop : op ≠ .del) (h : ¬ Harmless B w granted c op) :
    (B.sysLevel (op != .del)).aborts = false ∧ ¬ Effective w granted c op := by
  obtain ⟨hfail, hlevel⟩ := not_or.mp h
  cases op with
  | add => exact ⟨Bool.of_not_eq_true hlevel, hfail⟩
  | mod =>
    obtain ⟨haborts, hnot⟩ := not_or.mp hlevel
    exact ⟨Bool.of_not_eq_true haborts, not_or.mpr ⟨hfail, hnot⟩⟩
  | del => exact absurd rfl hop

omit [DecidableEq κ] in
/-- A harmless `DEL` does not end the process. -/
theorem EndsInCtl.not_failedDel {op : EpollOp} (h : EndsInCtl B granted op c w w')
    (hharm : Harmless B w granted c op) : ¬ FailedDel w w' := by
  rw [h.failedDel_iff]
  rintro rfl
  have haborts : (B.sysLevel false).aborts = true := h.aborts
  rcases hharm with hs | hlevel
  · simp [h.failed] at hs
  · simp [haborts] at hlevel

theorem update_contained_iff (hw : Held w) :
    CallContained B w (.updateChannel tid granted c) ↔
      (UpdateComes B w tid c → Harmless B w granted c (updateOp w c)) := by
  constructor
  · rintro ⟨hreturns, hends⟩ hcomes
    by_contra hharm
    by_cases hop : updateOp w c = .del
    · -- the call ends in its `DEL`
      obtain ⟨hfail, hlevel⟩ := not_or.mp (hop ▸ hharm)
      have hno (u : Unit) (w' : World κ) :
          (EpollPoller.updateChannel B tid granted c).run w ≠ .ok u w' := by
        intro hok
        have hout := (EpollPoller.updateChannel_ok_iff.mp hok).2.outcome
        rw [hop] at hout
        exact hout.elim hfail hlevel
      obtain ⟨e, w', herror⟩ := exists_error hno
      rcases updateChannel_error herror with ⟨hnot, -⟩ | ⟨-, hctl⟩
      · exact hnot hcomes
      · exact hends e w' (report_error_iff.mpr herror) (hctl.failedDel_iff.mpr hop)
    · -- the call returns, with index and kernel out of step
      obtain ⟨hlevel, hnot⟩ := not_effective_of_harm hop hharm
      obtain ⟨w', hcase⟩ : ∃ w', UpdateChannelCase B granted c w w' :=
        updateChannel_returns hcomes.2 (.inr hlevel)
      have hrun : (EpollPoller.updateChannel B tid granted c).run w = .ok () w' :=
        EpollPoller.updateChannel_ok_iff.mpr ⟨hcomes.1, hcase⟩
      have hinStep := hreturns .done w' (report_ok_iff.mpr ⟨rfl, (), hrun⟩)
      exact hnot ((updated_inStep_iff hw hcase).mp hinStep)
  · intro hharm
    refine ⟨fun answer w' h => ?_, fun e w' h => ?_⟩
    · obtain ⟨-, u, hok⟩ := report_ok_iff.mp h
      obtain ⟨hthread, hcase⟩ := EpollPoller.updateChannel_ok_iff.mp hok
      apply (updated_inStep_iff hw hcase).mpr
      exact (hharm ⟨hthread, hcase.comes⟩).effective hcase.outcome
    · rcases updateChannel_error (report_error_iff.mp h) with ⟨-, rfl⟩ | ⟨hcomes, hctl⟩
      · exact not_failedDel_self
      · exact hctl.not_failedDel (hharm hcomes)

theorem remove_contained_iff (hw : Held w) :
    CallContained B w (.removeChannel tid granted c) ↔
      (RemoveComes B w tid c → Harmless B w granted c .del) := by
  constructor
  · rintro ⟨-, hends⟩ hcomes
    by_contra hharm
    obtain ⟨hfail, hlevel⟩ := not_or.mp hharm
    have hno (u : Unit) (w' : World κ) :
        (EpollPoller.removeChannel B tid granted c).run w ≠ .ok u w' := by
      intro hok
      cases (EpollPoller.removeChannel_ok_iff.mp hok).2 with
      | registered _ _ hupdate =>
        obtain ⟨m, hm⟩ := EpollPoller.erased_eq (B := B) (w := w) (w.chan c).fd
        have hout := hupdate.outcome
        rw [hm] at hout
        exact hout.elim hfail hlevel
      | absent _ hindex => exact hindex hcomes.2.2
    obtain ⟨e, w', herror⟩ := exists_error hno
    rcases removeChannel_error herror with ⟨hnot, -⟩ | ⟨-, hctl⟩
    · exact hnot hcomes
    · exact hends e w' (report_error_iff.mpr herror) (hctl.failedDel_iff.mpr rfl)
  · intro hharm
    refine ⟨fun answer w' h => ?_, fun e w' h => ?_⟩
    · obtain ⟨-, u, hok⟩ := report_ok_iff.mp h
      exact removed_inStep hw (EpollPoller.removeChannel_ok_iff.mp hok).2
    · rcases removeChannel_error (report_error_iff.mp h) with ⟨-, rfl⟩ | ⟨hcomes, hctl⟩
      · exact not_failedDel_self
      · exact hctl.not_failedDel (hharm hcomes)

theorem wait_contained_iff {errno now : Int} {active : List κ} :
    CallContained B w (.poll (.failed errno) now active) ↔
      errno = EINTR ∨ (B.sysLevel false).aborts = false := by
  constructor
  · rintro ⟨w', hrun, -⟩
    obtain ⟨out, w₁, hpoll, -⟩ := bind_ok_iff.mp hrun
    rcases (EpollPoller.poll_failed_ok_iff.mp hpoll).2 with ⟨hintr, -⟩ | ⟨-, hlevel, -⟩
    · exact .inl hintr
    · exact .inr hlevel
  · intro h
    by_cases hintr : errno = EINTR
    · refine ⟨w, ?_, rfl⟩
      exact bind_ok_iff.mpr
        ⟨_, w, EpollPoller.poll_failed_ok_iff.mpr ⟨rfl, .inl ⟨hintr, rfl⟩⟩, rfl⟩
    · have hlevel := h.resolve_left hintr
      refine ⟨w.logged (B.sysLevel false) "EpollPoller::Poll()", ?_, rfl⟩
      exact bind_ok_iff.mpr
        ⟨_, _, EpollPoller.poll_failed_ok_iff.mpr ⟨rfl, .inr ⟨hintr, hlevel, rfl⟩⟩, rfl⟩

/-- With the severities the constructor picks, containment needs that nothing fails. -/
theorem contained_iff_noFailure (hlevel : B.sysLevel = levelOfAbort) (hw : Held w)
    (e : PollerEvent κ) : FailuresContained B w e ↔ NoFailure B w e := by
  have hfatal : (B.sysLevel true).aborts = false := by rw [hlevel]; rfl
  have herror : (B.sysLevel false).aborts = true := by rw [hlevel]; rfl
  cases e with
  | close fd => exact Iff.rfl
  | call a =>
    cases a with
    | setEvents => exact Iff.rfl
    | haveChannel => exact Iff.rfl
    | updateChannel tid granted c =>
      refine (update_contained_iff hw).trans (imp_congr_right fun _ => or_congr_right ?_)
      cases updateOp w c with
      | add => simp [hfatal]
      | mod => simp [hfatal]
      | del => simp [herror]
    | removeChannel tid granted c =>
      refine (remove_contained_iff hw).trans (imp_congr_right fun _ => ?_)
      exact or_iff_left (by simp [herror])
    | poll res now active =>
      cases res with
      | ready events => exact Iff.rfl
      | failed errno => exact wait_contained_iff.trans (or_iff_left (by simp [herror]))

/-! ## Runs -/

/-- `Held` is kept by every event of a run. -/
theorem held_event {e : PollerEvent κ} (hw : Held w)
    (h : (closingRuns κ B).step w e = some w') : Held w' := by
  cases e with
  | call a => exact held_step (a := a) hw h
  | close fd =>
    cases h
    exact held_closeFd hw fd

/-- From any state in which the kernel holds channels of index `kAdd` only. -/
theorem along_contained_iff (hlevel : B.sysLevel = levelOfAbort) (hw : Held w)
    (events : List (PollerEvent κ)) :
    (closingRuns κ B).Along (FailuresContained B) w events ↔
      (closingRuns κ B).Along (NoFailure B) w events :=
  StepSystem.along_iff_along (I := Held) (fun _ e hw => contained_iff_noFailure hlevel hw e)
    (fun _ _ _ hw _ h => held_event hw h) hw

/-- **When failures are contained.**  In a Debug or a Release build, failures are contained all along
a run exactly when no `EPOLL_CTL_ADD` or `EPOLL_CTL_DEL` of it fails, no `EPOLL_CTL_MOD` fails for a
channel the kernel does not hold, and no `epoll_wait` fails with another errno than `EINTR`. -/
theorem failures_contained_iff (asserts : Bool) (loopAddr : Nat) (loopThread : Int) (fds : κ → Fd)
    (events : List (PollerEvent κ)) :
    (closingRuns κ ⟨asserts, levelOfAbort⟩).Along (FailuresContained ⟨asserts, levelOfAbort⟩)
        (World.init loopAddr loopThread fds) events ↔
      (closingRuns κ ⟨asserts, levelOfAbort⟩).Along (NoFailure ⟨asserts, levelOfAbort⟩)
        (World.init loopAddr loopThread fds) events :=
  along_contained_iff rfl (held_init loopAddr loopThread fds) events

/-- The kernel refuses an `ADD` with `ENOMEM`: `UpdateChannel` returns with index `kAdd` and nothing
registered.  The descriptor of a registered channel is closed: the `MOD` of the next `UpdateChannel`
fails and returns, with index `kAdd` and nothing registered; a `DEL` ends the process.  `epoll_wait`
fails with `EBADF`: the process ends. -/
theorem failures_not_contained :
    let registered : List (PollerEvent Unit) :=
      [.call (.setEvents () EPOLLIN), .call (.updateChannel 1 true ()), .close 5]
    let refused : List (PollerEvent Unit) :=
      [.call (.setEvents () EPOLLIN), .call (.updateChannel 1 false ())]
    let changed := registered ++ [.call (.updateChannel 1 true ())]
    let dropped := registered ++ [.call (.setEvents () 0), .call (.updateChannel 1 true ())]
    let waited : List (PollerEvent Unit) := [.call (.poll (.failed 9) 0 [])]
    let w₀ : World Unit := World.init 0 1 fun _ => 5
    let view (w : World Unit) := ((w.chan ()).index, w.epoll.interest 5)
    ((closingRuns Unit .release).exec w₀ refused).map view = some (kAdd, none) ∧
    ((closingRuns Unit .release).exec w₀ changed).map view = some (kAdd, none) ∧
    (closingRuns Unit .release).exec w₀ dropped = none ∧
    (closingRuns Unit .release).exec w₀ waited = none ∧
    ∀ events ∈ [refused, changed, dropped, waited],
      ¬ (closingRuns Unit .release).Along (FailuresContained .release) w₀ events := by
  intro registered refused changed dropped waited w₀ view
  have hw₀ : Held w₀ := held_init 0 1 fun _ => 5
  refine ⟨by decide +kernel, by decide +kernel, rfl, rfl, ?_⟩
  intro events
  rw [along_contained_iff rfl hw₀]
  revert events
  decide +kernel

/-- The severities the two macros are named for. -/
def levelOfName (isAbort : Bool) : LogLevel := if isAbort then .fatal else .error

/-- **With the severities as their names say, failures are contained in every run.** -/
theorem failures_contained_of_named (asserts : Bool) (loopAddr : Nat) (loopThread : Int)
    (fds : κ → Fd) (events : List (PollerEvent κ)) :
    (closingRuns κ ⟨asserts, levelOfName⟩).Along (FailuresContained ⟨asserts, levelOfName⟩)
      (World.init loopAddr loopThread fds) events := by
  have hcontained (w : World κ) (hw : Held w) (e : PollerEvent κ) :
      FailuresContained ⟨asserts, levelOfName⟩ w e := by
    cases e with
    | close fd => trivial
    | call a =>
      cases a with
      | setEvents => trivial
      | haveChannel => trivial
      | updateChannel tid granted c =>
        refine (update_contained_iff hw).mpr fun _ => .inr ?_
        cases updateOp w c with
        | add => rfl
        | mod => exact .inl rfl
        | del => rfl
      | removeChannel tid granted c => exact (remove_contained_iff hw).mpr fun _ => .inr rfl
      | poll res now active =>
        cases res with
        | ready events => trivial
        | failed errno => exact wait_contained_iff.mpr (.inr rfl)
  refine (StepSystem.along_iff_along (I := Held) (D := fun _ _ => True) ?_ ?_
    (held_init loopAddr loopThread fds)).mpr (StepSystem.along_of_forall (fun _ _ => trivial) _ _)
  · intro w e hw
    exact iff_true_intro (hcontained w hw e)
  · intro w e w' hw _ h
    exact held_event hw h

end TurboNet.Net
