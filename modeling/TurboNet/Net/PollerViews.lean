/-
# TurboNet.Net.PollerViews — the poller's three views of a channel.

A channel is known in three places: its own `index_`, the poller's `channel_map_` and the kernel's
interest set.  Where asserts are evaluated the first two agree whatever the kernel answers
(`MapViews`).  The third agrees with them as long as the kernel refuses no `EPOLL_CTL_ADD`, and no
longer: a refused one returns with index `kAdd` (`views_agree_iff`).
-/
import TurboNet.Net.PollerRuns

namespace TurboNet.Net

open TurboNet.Lib
open TurboNet.Logger

variable {κ : Type} {B : Build} {w w' : World κ}

/-- `index_` and `channel_map_` agree. -/
def Mapped (w : World κ) : Prop :=
  ∀ c, (w.chan c).index ≠ kNew ↔ w.channelMap (w.chan c).fd = some c

theorem mapped_init (loopAddr : Nat) (loopThread : Int) (fds : κ → Fd) :
    Mapped (World.init loopAddr loopThread fds) := by
  intro c
  constructor
  · intro h
    exact absurd rfl h
  · intro h
    cases h

/-- The kernel holds no descriptor the map does not hold. -/
theorem interest_eq_none (hheld : Held w) (hmapped : Mapped w) {fd : Fd}
    (h : w.channelMap fd = none) : w.epoll.interest fd = none := by
  cases hreg : w.epoll.interest fd with
  | none => rfl
  | some r =>
    obtain ⟨hfd, hindex⟩ := hheld.added fd r hreg
    have hmap := (hmapped r.ptr).mp (by rw [hindex]; decide)
    rw [hfd, h] at hmap
    cases hmap

/-- The kernel holds the descriptor of a mapped channel for that channel only. -/
theorem ptr_eq_of_mapped (hheld : Held w) (hmapped : Mapped w) {c : κ} {r : Registration κ}
    (h : w.channelMap (w.chan c).fd = some c) (hreg : w.epoll.interest (w.chan c).fd = some r) :
    r.ptr = c := by
  obtain ⟨hfd, hindex⟩ := hheld.added _ r hreg
  have hmap := (hmapped r.ptr).mp (by rw [hindex]; decide)
  rw [hfd, h] at hmap
  exact (Option.some.inj hmap).symm

/-- A channel that comes to an `EPOLL_CTL_ADD` past the asserts has an absent descriptor. -/
theorem absent_of_mapped (hheld : Held w) (hmapped : Mapped w) {c : κ}
    (h : (w.chan c).index = kNew ∧ w.channelMap (w.chan c).fd = none ∨
      (w.chan c).index = kDel ∧ w.channelMap (w.chan c).fd = some c) :
    w.epoll.interest (w.chan c).fd = none := by
  rcases h with ⟨-, hmap⟩ | ⟨hindex, hmap⟩
  · exact interest_eq_none hheld hmapped hmap
  · cases hreg : w.epoll.interest (w.chan c).fd with
    | none => rfl
    | some r =>
      -- the registered channel would be `c`, whose index is `kDel`
      have hadd := (hheld.added _ r hreg).2
      rw [ptr_eq_of_mapped hheld hmapped hmap hreg, hindex] at hadd
      exact absurd hadd (by decide)

variable [DecidableEq κ]

section Touched

variable {c : κ} {i : Int} {m : Option κ} {r : Option (Registration κ)}

open EpollPoller (Touches)

/-- `Mapped` survives a call on `c` that leaves index and map entry of `c` in agreement, and finds
and leaves no other channel in that entry. -/
theorem Mapped.touched (hw : Mapped w) (h : Touches c i m r w w') (hi : i ≠ kNew ↔ m = some c)
    (hbefore : ∀ c', w.channelMap (w.chan c).fd = some c' → c' = c)
    (hafter : ∀ c', m = some c' → c' = c) : Mapped w' := by
  intro c'
  rw [h.fd]
  by_cases hcc : c' = c
  · subst hcc
    rw [h.index_self, h.channelMap_self]
    exact hi
  · rw [h.index_of_ne hcc, hw c']
    by_cases hfd : (w.chan c').fd = (w.chan c).fd
    · -- another channel on the same descriptor is in the map neither before nor after
      rw [hfd, h.channelMap_self]
      constructor
      · intro hmap
        exact absurd (hbefore c' hmap) hcc
      · intro hm
        exact absurd (hafter c' hm) hcc
    · rw [h.channelMap_of_ne hfd]

end Touched

/-- Where asserts are evaluated `Mapped` is kept by every call, whatever the kernel answers. -/
theorem mapped_step (hB : B.asserts = true) {a : Call κ} (hw : Mapped w)
    (h : (pollerRuns κ B).step w a = some w') : Mapped w' := by
  cases step_cases h with
  | setEvents c events =>
    intro c'
    rw [World.setEvents, World.chan_setChannel]
    split
    next hc => exact hc ▸ hw c
    next => exact hw c'
  | @updateChannel _ granted c _ _ h =>
    obtain ⟨i, m, r, heffect, htouches⟩ := h.touches
    have hsome {m : Option κ} (hm : m = some c) (c' : κ) (h : m = some c') : c' = c :=
      Option.some.inj (h.symm.trans hm)
    cases heffect with
    | fresh hindex hmap =>
      refine hw.touched htouches ?_ ?_ (hsome rfl)
      · exact ⟨fun _ => rfl, fun _ => by decide⟩
      · intro c' h
        rw [hmap hB] at h
        cases h
    | again hindex hmap =>
      have hmap := hmap hB
      exact hw.touched htouches ⟨fun _ => hmap, fun _ => by decide⟩ (hsome hmap) (hsome hmap)
    | drop hnew hdel hmap =>
      have hmap := hmap hB
      exact hw.touched htouches ⟨fun _ => hmap, fun _ => by decide⟩ (hsome hmap) (hsome hmap)
    | change hnew hdel hmap =>
      have hmap := hmap hB
      exact hw.touched htouches ⟨fun _ => hmap, fun _ => hnew⟩ (hsome hmap) (hsome hmap)
  | @removeChannel _ _ c _ _ h =>
    obtain ⟨r, heffect, htouches⟩ := h.touches
    have hguard : EpollPoller.Removable w c := by
      cases heffect with
      | registered hguard => exact hguard hB
      | absent hguard => exact hguard hB
    have hgone : EpollPoller.erasedEntry B (w.channelMap (w.chan c).fd) = none := if_pos hB
    rw [hgone] at htouches
    refine hw.touched htouches ?_ ?_ ?_
    · simp
    · intro c' h
      exact Option.some.inj (h.symm.trans hguard.map)
    · intro c' h
      cases h
  | haveChannel => exact hw
  | poll h =>
    intro c'
    rw [h.index, h.fd, h.channelMap]
    exact hw c'

/-- The calls of the kernel a step adds: each is for the descriptor of the step's channel, an `ADD`
past the asserts, or a `MOD` or `DEL` for a channel of index `kAdd`. -/
theorem calls_step (hB : B.asserts = true) (hheld : Held w) {a : Call κ}
    (h : (pollerRuns κ B).step w a = some w') {call : CtlCall} (hcall : call ∈ w'.epoll.calls) :
    call ∈ w.epoll.calls ∨ ∃ c, call.present = (w.epoll.interest (w.chan c).fd).isSome ∧
      (call.op = .add ∧ ((w.chan c).index = kNew ∧ w.channelMap (w.chan c).fd = none ∨
          (w.chan c).index = kDel ∧ w.channelMap (w.chan c).fd = some c) ∨
        call.op ≠ .add ∧ (w.chan c).index = kAdd) := by
  cases step_cases h with
  | setEvents => exact .inl hcall
  | @updateChannel _ granted c _ _ h =>
    obtain ⟨op, hcalls, hop⟩ := h.calls
    rw [hcalls, List.mem_append, List.mem_singleton] at hcall
    rcases hcall with hold | rfl
    · exact .inl hold
    · refine .inr ⟨c, rfl, ?_⟩
      cases h with
      | fresh hindex hmap => exact .inl ⟨hop.mpr (.inl hindex), .inl ⟨hindex, hmap hB⟩⟩
      | again hindex hmap => exact .inl ⟨hop.mpr (.inr hindex), .inr ⟨hindex, hmap hB⟩⟩
      | drop hnew hdel =>
        exact .inr ⟨fun h => (hop.mp h).elim hnew hdel, hheld.index_eq_kAdd hnew hdel⟩
      | change hnew hdel =>
        exact .inr ⟨fun h => (hop.mp h).elim hnew hdel, hheld.index_eq_kAdd hnew hdel⟩
  | @removeChannel _ _ c _ _ h =>
    rcases h.calls with ⟨-, hcalls⟩ | ⟨hindex, hcalls⟩
    · exact .inl (hcalls ▸ hcall)
    · rw [hcalls, List.mem_append, List.mem_singleton] at hcall
      rcases hcall with hold | rfl
      · exact .inl hold
      · exact .inr ⟨c, rfl, .inr ⟨by simp, hindex⟩⟩
  | haveChannel => exact .inl hcall
  | poll h => exact .inl (h.epoll ▸ hcall)

/-! ## Runs -/

/-- What holds in a debug build whatever the kernel answers. -/
structure MapViews (w : World κ) : Prop where
  held : Held w
  mapped : Mapped w
  add_absent : ∀ call ∈ w.epoll.calls, call.op = .add → call.present = false

theorem mapViews_step (hB : B.asserts = true) {a : Call κ} (hw : MapViews w)
    (h : (pollerRuns κ B).step w a = some w') : MapViews w' where
  held := held_step hw.held h
  mapped := mapped_step hB hw.mapped h
  add_absent := by
    intro call hcall hop
    rcases calls_step hB hw.held h hcall with hold | ⟨_, hpresent, hc⟩
    · exact hw.add_absent call hold hop
    · rcases hc with ⟨-, hc⟩ | ⟨hne, -⟩
      · rw [hpresent, absent_of_mapped hw.held hw.mapped hc]
        rfl
      · exact absurd hop hne

/-- The kernel has room for the `EPOLL_CTL_ADD` of `UpdateChannel(c)`, if it comes to one: it does
not answer `ENOMEM`, `ENOSPC` or `EPERM`. -/
def AddGranted (w : World κ) : Call κ → Prop
  | .updateChannel _ granted c =>
    (w.chan c).index = kNew ∨ (w.chan c).index = kDel → granted = true
  | _ => True

instance (w : World κ) : (a : Call κ) → Decidable (AddGranted w a)
  | .updateChannel _ granted c => inferInstanceAs
    (Decidable ((w.chan c).index = kNew ∨ (w.chan c).index = kDel → granted = true))
  | .setEvents .. | .removeChannel .. | .haveChannel .. | .poll .. => .isTrue trivial

/-- Past the asserts an `ADD` that is granted succeeds. -/
theorem addSucceeds_of_granted (hB : B.asserts = true) {a : Call κ} (hw : MapViews w)
    (hgranted : AddGranted w a) (h : (pollerRuns κ B).step w a = some w') : AddSucceeds w a := by
  cases step_cases h with
  | @updateChannel _ granted c _ _ h =>
    intro hindex
    apply Epoll.succeeds_add_iff.mpr
    refine ⟨absent_of_mapped hw.held hw.mapped ?_, hgranted hindex⟩
    cases h with
    | fresh hnew hmap => exact .inl ⟨hnew, hmap hB⟩
    | again hdel hmap => exact .inr ⟨hdel, hmap hB⟩
    | drop hnew hdel => exact absurd hindex (not_or.mpr ⟨hnew, hdel⟩)
    | change hnew hdel => exact absurd hindex (not_or.mpr ⟨hnew, hdel⟩)
  | setEvents => trivial
  | removeChannel => trivial
  | haveChannel => trivial
  | poll => trivial

/-- An `ADD` that is refused and returns leaves index `kAdd` without a registration. -/
theorem not_registered_of_refused {tid : Int} {granted : Bool} {c : κ} (hw : Held w)
    (hrefused : ¬ AddGranted w (.updateChannel tid granted c))
    (h : (pollerRuns κ B).step w (.updateChannel tid granted c) = some w') :
    (w'.chan c).index = kAdd ∧ ¬ RegisteredAs w' c := by
  obtain ⟨hindex, hgranted⟩ := Classical.not_imp.mp hrefused
  cases step_cases h with
  | updateChannel _ hcase =>
    have hadd : (w'.chan c).index = kAdd := by
      obtain ⟨i, m, r, heffect, htouches⟩ := hcase.touches
      rw [htouches.index_self]
      cases heffect with
      | fresh => rfl
      | again => rfl
      | drop hnew hdel => exact absurd hindex (not_or.mpr ⟨hnew, hdel⟩)
      | change hnew hdel => exact absurd hindex (not_or.mpr ⟨hnew, hdel⟩)
    refine ⟨hadd, fun hreg => hgranted ?_⟩
    have heffective := (updated_inStep_iff hw hcase).mp (iff_of_true hadd hreg)
    rw [updateOp_eq_add_iff.mpr hindex] at heffective
    exact (Epoll.succeeds_add_iff.mp heffective).2

/-- The three views of every channel agree, `HaveChannel` with them, and every `epoll_ctl` so far
fitted the interest set. -/
structure ViewsAgree (w : World κ) : Prop where
  new : ∀ c, (w.chan c).index = kNew ↔ w.channelMap (w.chan c).fd ≠ some c
  add : ∀ c, (w.chan c).index = kAdd ↔ RegisteredAs w c
  del : ∀ c, (w.chan c).index = kDel ↔
    w.channelMap (w.chan c).fd = some c ∧ w.epoll.interest (w.chan c).fd = none
  have_ : ∀ c, (EpollPoller.haveChannel w.loopThread c).run w =
    .ok (decide ((w.chan c).index ≠ kNew)) w
  fits : ∀ call ∈ w.epoll.calls, call.Fits

omit [DecidableEq κ] in
theorem MapViews.new (hw : MapViews w) (c : κ) :
    (w.chan c).index = kNew ↔ w.channelMap (w.chan c).fd ≠ some c := by
  rw [ne_eq, ← hw.mapped c, ne_eq, not_not]

theorem MapViews.have_ (hw : MapViews w) (c : κ) :
    (EpollPoller.haveChannel w.loopThread c).run w = .ok (decide ((w.chan c).index ≠ kNew)) w := by
  apply EpollPoller.haveChannel_ok_iff.mpr
  refine ⟨rfl, ?_, rfl⟩
  rw [decide_eq_decide.mpr (hw.mapped c), beq_eq_decide]

/-- With the map in order, the views agree when whoever has index `kAdd` is registered. -/
theorem MapViews.viewsAgree (hw : MapViews w) (hadded : Added w)
    (hfits : ∀ call ∈ w.epoll.calls, call.Fits) : ViewsAgree w where
  new := hw.new
  have_ := hw.have_
  fits := hfits
  add c := by
    refine ⟨hadded c, ?_⟩
    rintro ⟨events, hreg⟩
    exact (hw.held.added _ _ hreg).2
  del c := by
    constructor
    · intro hindex
      have hmap := (hw.mapped c).mp (by rw [hindex]; decide)
      exact ⟨hmap, absent_of_mapped hw.held hw.mapped (.inr ⟨hindex, hmap⟩)⟩
    · rintro ⟨hmap, hnone⟩
      rcases hw.held.range c with hnew | hadd | hdel
      · exact absurd hnew ((hw.mapped c).mpr hmap)
      · obtain ⟨events, hreg⟩ := hadded c hadd
        rw [hnone] at hreg
        cases hreg
      · exact hdel

/-- The calls of a step fit, past the asserts and from a state in which the views agree. -/
theorem fits_step (hB : B.asserts = true) (hw : MapViews w) (hviews : ViewsAgree w) {a : Call κ}
    (h : (pollerRuns κ B).step w a = some w') : ∀ call ∈ w'.epoll.calls, call.Fits := by
  intro call hcall
  rcases calls_step hB hw.held h hcall with hold | ⟨c, hpresent, hc⟩
  · exact hviews.fits call hold
  · unfold CtlCall.Fits
    rcases hc with ⟨hop, hc⟩ | ⟨hne, hindex⟩
    · rw [hop, hpresent, absent_of_mapped hw.held hw.mapped hc]
      rfl
    · -- a channel of index `kAdd` is registered, so its descriptor is present
      obtain ⟨events, hreg⟩ := (hviews.add c).mp hindex
      rw [hreg] at hpresent
      cases hop : call.op with
      | add => exact absurd hop hne
      | mod => exact hpresent
      | del => exact hpresent

theorem viewsAgree_step (hB : B.asserts = true) {a : Call κ} (hw : MapViews w)
    (hviews : ViewsAgree w) (hgranted : AddGranted w a)
    (h : (pollerRuns κ B).step w a = some w') : ViewsAgree w' := by
  refine (mapViews_step hB hw h).viewsAgree ?_ (fits_step hB hw hviews h)
  have hadded : Added w := fun c => (hviews.add c).mp
  exact added_step hw.held hadded (addSucceeds_of_granted hB hw hgranted h) h

/-- Where the views agree again after a step, its `ADD` was granted. -/
theorem addGranted_of_viewsAgree {a : Call κ} (hw : MapViews w)
    (h : (pollerRuns κ B).step w a = some w') (hviews : ViewsAgree w') : AddGranted w a := by
  cases a with
  | updateChannel tid granted c =>
    by_contra hrefused
    obtain ⟨hadd, hnot⟩ := not_registered_of_refused hw.held hrefused h
    exact hnot ((hviews.add c).mp hadd)
  | setEvents => trivial
  | removeChannel => trivial
  | haveChannel => trivial
  | poll => trivial

omit [DecidableEq κ] in
theorem mapViews_init (loopAddr : Nat) (loopThread : Int) (fds : κ → Fd) :
    MapViews (World.init loopAddr loopThread fds) where
  held := held_init loopAddr loopThread fds
  mapped := mapped_init loopAddr loopThread fds
  add_absent _ h := by cases h

theorem viewsAgree_init (loopAddr : Nat) (loopThread : Int) (fds : κ → Fd) :
    ViewsAgree (World.init loopAddr loopThread fds) :=
  (mapViews_init loopAddr loopThread fds).viewsAgree (added_init loopAddr loopThread fds)
    fun _ h => by cases h

/-- **When the three views agree.**  After any run of a debug build, whatever the kernel refused in
it: `index_` is `kNew` iff `channel_map_` does not hold the channel, `HaveChannel` answers
accordingly, and every `ADD` was issued for an absent descriptor.  All the views agree, in every
state of the run, exactly when the kernel had room for every `ADD` of it: then also `index_` is `kAdd`
iff the kernel holds the channel, `kDel` iff the map holds it and the kernel does not hold its
descriptor, and every `epoll_ctl` fitted the interest set. -/
theorem views_agree_iff (loopAddr : Nat) (loopThread : Int) (fds : κ → Fd) (calls : List (Call κ))
    (hrun : (pollerRuns κ .debug).exec (World.init loopAddr loopThread fds) calls = some w) :
    (∀ c, (w.chan c).index = kNew ↔ w.channelMap (w.chan c).fd ≠ some c) ∧
    (∀ c, (EpollPoller.haveChannel w.loopThread c).run w =
      .ok (decide ((w.chan c).index ≠ kNew)) w) ∧
    (∀ call ∈ w.epoll.calls, call.op = .add → call.present = false) ∧
    ((pollerRuns κ .debug).Throughout ViewsAgree (World.init loopAddr loopThread fds) calls ↔
      (pollerRuns κ .debug).Along AddGranted (World.init loopAddr loopThread fds) calls) := by
  have hinit := mapViews_init loopAddr loopThread fds
  have hw : MapViews w :=
    StepSystem.exec_invariant (fun _ _ _ hw h => mapViews_step rfl hw h) hinit hrun
  refine ⟨hw.new, hw.have_, hw.add_absent, ?_⟩
  refine StepSystem.throughout_iff_along (J := MapViews) ?_ ?_ ?_ hinit
    (viewsAgree_init loopAddr loopThread fds) hrun
  · exact fun _ _ _ hw h => mapViews_step rfl hw h
  · exact fun _ _ _ hw hviews hgranted h => viewsAgree_step rfl hw hviews hgranted h
  · exact fun _ _ _ hw _ h hviews => addGranted_of_viewsAgree hw h hviews

/-- Two channels on one descriptor: the first is registered, parked, registered again and removed,
then the second takes its place. -/
def sharedFd : List (Call Bool) :=
  [.setEvents false EPOLLIN, .updateChannel 1 true false, .setEvents false 0,
    .updateChannel 1 true false, .setEvents false EPOLLOUT, .updateChannel 1 true false,
    .setEvents false 0, .removeChannel 1 true false, .haveChannel 1 false,
    .setEvents true EPOLLIN, .updateChannel 1 true true]

theorem views_agree_sharedFd :
    ∃ w, (pollerRuns Bool .debug).exec (World.init 0 1 fun _ => 5) sharedFd = some w ∧
      (∀ call ∈ w.epoll.calls, call.op = .add → call.present = false) ∧
      (pollerRuns Bool .debug).Throughout ViewsAgree (World.init 0 1 fun _ => 5) sharedFd := by
  obtain ⟨w, hrun⟩ := Option.isSome_iff_exists.mp
    (show ((pollerRuns Bool .debug).exec (World.init 0 1 fun _ => 5) sharedFd).isSome by
      decide +kernel)
  obtain ⟨-, -, habsent, hviews⟩ := views_agree_iff 0 1 (fun _ => 5) sharedFd hrun
  exact ⟨w, hrun, habsent, hviews.mpr (by decide +kernel)⟩

/-- The kernel answers `ENOSPC` to the `ADD` of a fresh channel: `UpdateChannel` returns past all its
asserts, with index `kAdd` and nothing registered. -/
theorem refused_add_views_disagree :
    ∃ w, (pollerRuns Unit .debug).exec (World.init 0 1 fun _ => 5)
        [.setEvents () EPOLLIN, .updateChannel 1 false ()] = some w ∧
      (w.chan ()).index = kAdd ∧ w.channelMap 5 = some () ∧ w.epoll.interest 5 = none ∧
      ¬ ViewsAgree w := by
  obtain ⟨w, hrun⟩ := Option.isSome_iff_exists.mp
    (show ((pollerRuns Unit .debug).exec (World.init 0 1 fun _ => 5)
      [.setEvents () EPOLLIN, .updateChannel 1 false ()]).isSome by decide +kernel)
  have hview : ((pollerRuns Unit .debug).exec (World.init 0 1 fun _ => 5)
      [.setEvents () EPOLLIN, .updateChannel 1 false ()]).map (fun w =>
        ((w.chan ()).index, (w.chan ()).fd, w.channelMap 5, w.epoll.interest 5)) =
          some (kAdd, 5, some (), none) := by decide +kernel
  rw [hrun, Option.map_some, Option.some.injEq] at hview
  simp only [Prod.mk.injEq] at hview
  obtain ⟨hadd, hfd, hmap, hnone⟩ := hview
  refine ⟨w, hrun, hadd, hmap, hnone, fun hviews => ?_⟩
  obtain ⟨events, hreg⟩ := (hviews.add ()).mp hadd
  rw [hfd, hnone] at hreg
  cases hreg

end TurboNet.Net
