/-
# TurboNet.Net.ChannelInterest — does the kernel watch what a channel wants?

The owner of a channel changes its mask through five functions, each of which assigns `events_` and
calls `Update`.  With one channel on each descriptor and a kernel that does every legal `epoll_ctl`,
a channel is at any time in one of four `Phase`s, and every call is a move between them
(`toggle_run`).

`UpdateChannel` looks at the mask only for a channel of index `kAdd`.  A channel that is not
registered is registered by any of the five calls, also by a `Disable*` that leaves its mask empty:
the kernel then watches it with mask `0`, and still delivers `EPOLLHUP` and `EPOLLERR`.
`interest_follows_mask_iff` says that nothing else goes wrong.
-/
import TurboNet.Lib.StepSystem
import TurboNet.Net.PollerSpec

namespace TurboNet.Net

open TurboNet.Lib
open TurboNet.Logger
open EpollPoller (Touches UpdateCase UpdateChannelCase)

/-- The five calls that change a channel's mask. -/
inductive Toggle where
  | enableReading
  | disableReading
  | enableWriting
  | disableWriting
  | disableAll
  deriving DecidableEq, Repr

namespace Toggle

/-- What the call makes of the mask. -/
def mask : Toggle → Events → Events
  | .enableReading => (· ||| Channel.kReadEvent)
  | .disableReading => (· &&& ~~~Channel.kReadEvent)
  | .enableWriting => (· ||| Channel.kWriteEvent)
  | .disableWriting => (· &&& ~~~Channel.kWriteEvent)
  | .disableAll => fun _ => Channel.kNoneEvent

/-- Is the call a `Disable*`? -/
def disables : Toggle → Bool
  | .enableReading | .enableWriting => false
  | .disableReading | .disableWriting | .disableAll => true

theorem mask_ne_zero {t : Toggle} (h : t.disables = false) (events : Events) :
    t.mask events ≠ 0 := by
  cases t with
  | enableReading =>
    intro hzero
    exact absurd (BitVec.or_eq_zero_iff.mp hzero).2 (by decide)
  | enableWriting =>
    intro hzero
    exact absurd (BitVec.or_eq_zero_iff.mp hzero).2 (by decide)
  | disableReading => cases h
  | disableWriting => cases h
  | disableAll => cases h

theorem mask_zero {t : Toggle} (h : t.disables = true) : t.mask 0 = 0 := by
  cases t with
  | enableReading => cases h
  | enableWriting => cases h
  | disableReading => decide
  | disableWriting => decide
  | disableAll => rfl

variable {κ : Type} [DecidableEq κ]

/-- The member function, with a kernel that does every legal `epoll_ctl`. -/
def method (B : Build) (tid : Int) (c : κ) : Toggle → Method κ Unit
  | .enableReading => Channel.enableReading B tid true c
  | .disableReading => Channel.disableReading B tid true c
  | .enableWriting => Channel.enableWriting B tid true c
  | .disableWriting => Channel.disableWriting B tid true c
  | .disableAll => Channel.disableAll B tid true c

theorem method_eq (B : Build) (tid : Int) (c : κ) (t : Toggle) :
    t.method B tid c = Channel.assignEvents B tid true t.mask c := by
  cases t <;> rfl

end Toggle

variable {κ : Type} [DecidableEq κ] {B : Build} {tid : Int} {granted : Bool} {c c' : κ}
  {w w' : World κ}

/-- The world when `Channel::Update` reaches the loop: the mask is assigned, `add_to_loop_` is set. -/
def World.assigned (w : World κ) (c : κ) (events : Events) : World κ :=
  (w.setEvents c events).setAddToLoop c true

theorem World.chan_assigned (events : Events) :
    (w.assigned c events).chan c' =
      if c' = c then { w.chan c with events := events, addToLoop := true } else w.chan c' := by
  unfold assigned setAddToLoop setEvents
  rw [chan_setChannel]
  split
  · rw [chan_setChannel, if_pos rfl]
  next hne => rw [chan_setChannel, if_neg hne]

theorem World.chan_assigned_self (events : Events) :
    (w.assigned c events).chan c = { w.chan c with events := events, addToLoop := true } := by
  rw [chan_assigned, if_pos rfl]

theorem World.chan_assigned_of_ne (events : Events) (hne : c' ≠ c) :
    (w.assigned c events).chan c' = w.chan c' := by
  rw [chan_assigned, if_neg hne]

theorem eventLoop_updateChannel_ok_iff {u : Unit} :
    (EventLoop.updateChannel B tid granted c).run w = .ok u w' ↔
      (B.asserts = true → (w.chan c).loop = w.loopAddr) ∧ w.loopThread = tid ∧
        UpdateChannelCase B granted c w w' := by
  unfold EventLoop.updateChannel EventLoop.assertOwner
  simp only [bind_ok_iff, get_ok_iff, Build.assert_ok_iff, assertInLoopThread_ok_iff,
    EpollPoller.updateChannel_ok_iff, and_assoc, exists_and_left, exists_eq_left, exists_const,
    and_self_left]

theorem assignEvents_ok_iff {f : Events → Events} {u : Unit} :
    (Channel.assignEvents B tid granted f c).run w = .ok u w' ↔
      (B.asserts = true → (w.chan c).loop = w.loopAddr) ∧ w.loopThread = tid ∧
        UpdateChannelCase B granted c (w.assigned c (f (w.chan c).events)) w' := by
  unfold Channel.assignEvents Channel.update
  rw [run_modify_bind, run_modify_bind,
    eventLoop_updateChannel_ok_iff]
  show (B.asserts = true → ((w.assigned c _).chan c).loop = w.loopAddr) ∧ _ ↔ _
  rw [World.chan_assigned_self]
  exact Iff.rfl

/-! ## Phases -/

/-- Where a channel can be: unknown, watched with the mask it has, or known and unwatched. -/
inductive Phase (w : World κ) (c : κ) : Prop
  | unknown (hindex : (w.chan c).index = kNew) (hmap : w.channelMap (w.chan c).fd = none)
      (hreg : w.epoll.interest (w.chan c).fd = none)
  | watched (hindex : (w.chan c).index = kAdd) (hmap : w.channelMap (w.chan c).fd = some c)
      (hreg : w.epoll.interest (w.chan c).fd = some ⟨c, (w.chan c).events⟩)
  | parked (hindex : (w.chan c).index = kDel) (hmap : w.channelMap (w.chan c).fd = some c)
      (hreg : w.epoll.interest (w.chan c).fd = none)

/-- What a call that assigns `events` does to its channel: a watched channel whose mask becomes empty
is parked, every other is watched with the new mask, empty or not. -/
def Decides (w : World κ) (c : κ) (events : Events) (i : Int) (r : Option (Registration κ)) : Prop :=
  (w.chan c).index = kAdd ∧ events = 0 ∧ i = kDel ∧ r = none ∨
    ((w.chan c).index ≠ kAdd ∨ events ≠ 0) ∧ i = kAdd ∧ r = some ⟨c, events⟩

/-- Whatever mask is assigned, `UpdateChannel` returns and touches the channel only. -/
theorem updateChannel_decides (hphase : Phase w c) (events : Events) :
    ∃ w' i r, UpdateChannelCase B true c (w.assigned c events) w' ∧
      Touches c i (some c) r (w.assigned c events) w' ∧ Decides w c events i r := by
  have hself := World.chan_assigned_self (w := w) (c := c) events
  have hfd : ((w.assigned c events).chan c).fd = (w.chan c).fd := by rw [hself]
  have hindex' : ((w.assigned c events).chan c).index = (w.chan c).index := by rw [hself]
  have hevents' : ((w.assigned c events).chan c).events = events := by rw [hself]
  cases hphase with
  | unknown hindex hmap hreg =>
    -- an `ADD` with the mask as it is
    have hnew : ((w.assigned c events).chan c).index = kNew := hindex'.trans hindex
    have hs : (w.assigned c events).epoll.succeeds true .add ((w.assigned c events).chan c).fd :=
      Epoll.succeeds_add_iff.mpr ⟨hfd ▸ hreg, rfl⟩
    have hcase : UpdateChannelCase B true c (w.assigned c events) _ :=
      .fresh hnew (fun _ => hfd ▸ hmap) (.done (by rw [World.chan_setIndex_fd]; exact hs))
    have htouches := hcase.touches_of_effect (.fresh hnew fun _ => hfd ▸ hmap)
    refine ⟨_, _, _, hcase, htouches, .inr ⟨.inl (by rw [hindex]; decide), rfl, ?_⟩⟩
    rw [Epoll.after_of_succeeds hs, hevents']
    rfl
  | parked hindex hmap hreg =>
    -- an `ADD` again
    have hdel : ((w.assigned c events).chan c).index = kDel := hindex'.trans hindex
    have hs : (w.assigned c events).epoll.succeeds true .add ((w.assigned c events).chan c).fd :=
      Epoll.succeeds_add_iff.mpr ⟨hfd ▸ hreg, rfl⟩
    have hknown : (w.assigned c events).channelMap ((w.assigned c events).chan c).fd = some c :=
      hfd ▸ hmap
    have hcase : UpdateChannelCase B true c (w.assigned c events) _ :=
      .again hdel (fun _ => hknown) (.done (by rw [World.chan_setIndex_fd]; exact hs))
    have htouches := hcase.touches_of_effect (.again hdel fun _ => hknown)
    rw [hknown] at htouches
    refine ⟨_, _, _, hcase, htouches, .inr ⟨.inl (by rw [hindex]; decide), rfl, ?_⟩⟩
    rw [Epoll.after_of_succeeds hs, hevents']
    rfl
  | watched hindex hmap hreg =>
    have hadd : ((w.assigned c events).chan c).index = kAdd := hindex'.trans hindex
    have hnew : ((w.assigned c events).chan c).index ≠ kNew := by rw [hadd]; decide
    have hdel : ((w.assigned c events).chan c).index ≠ kDel := by rw [hadd]; decide
    have hpresent : ((w.assigned c events).epoll.interest
        ((w.assigned c events).chan c).fd).isSome := by
      rw [hfd]
      show (w.epoll.interest (w.chan c).fd).isSome
      rw [hreg]
      rfl
    have hknown : (w.assigned c events).channelMap ((w.assigned c events).chan c).fd = some c :=
      hfd ▸ hmap
    by_cases hzero : events = 0
    · -- the `DEL` of a channel that wants nothing any more
      have hnone : ((w.assigned c events).chan c).isNoneEvents = true := by
        unfold Channel.isNoneEvents
        rw [hevents', hzero]
        rfl
      have hcase : UpdateChannelCase B true c (w.assigned c events) _ :=
        .drop hnew hdel (fun _ => hknown) hnone (.done (Epoll.succeeds_del_iff.mpr hpresent))
      have htouches := hcase.touches_of_effect (.drop hnew hdel (fun _ => hknown) hnone)
      rw [hknown] at htouches
      exact ⟨_, _, _, hcase, htouches, .inl ⟨hindex, hzero, rfl, rfl⟩⟩
    · -- the `MOD` of one that does
      have hsome : ((w.assigned c events).chan c).isNoneEvents = false := by
        unfold Channel.isNoneEvents
        rw [hevents']
        exact beq_false_of_ne hzero
      have hs : (w.assigned c events).epoll.succeeds true .mod
          ((w.assigned c events).chan c).fd := Epoll.succeeds_mod_iff.mpr ⟨hpresent, rfl⟩
      have hcase : UpdateChannelCase B true c (w.assigned c events) _ :=
        .change hnew hdel (fun _ => hknown) hsome (.done hs)
      have htouches := hcase.touches_of_effect (.change hnew hdel (fun _ => hknown) hsome)
      rw [hknown] at htouches
      refine ⟨_, _, _, hcase, htouches, .inr ⟨.inr hzero, hadd, ?_⟩⟩
      rw [Epoll.after_of_succeeds hs, hevents']
      rfl

/-- The channel of a call is watched or parked afterwards. -/
theorem phase_of_decides {events : Events} {i : Int} {r : Option (Registration κ)}
    (htouches : Touches c i (some c) r (w.assigned c events) w') (h : Decides w c events i r) :
    Phase w' c := by
  have hmap := htouches.channelMap_self
  have hreg := htouches.interest_self
  rw [← htouches.fd c] at hmap hreg
  rcases h with ⟨-, -, rfl, rfl⟩ | ⟨-, rfl, rfl⟩
  · exact .parked htouches.index_self hmap hreg
  · refine .watched htouches.index_self hmap ?_
    rw [htouches.events, World.chan_assigned_self]
    exact hreg

/-- Another channel on another descriptor stays in its phase. -/
theorem Phase.of_touches (h : Phase w c') {events : Events} {i : Int} {m : Option κ}
    {r : Option (Registration κ)} (htouches : Touches c i m r (w.assigned c events) w')
    (hne : c' ≠ c) (hfd : (w.chan c').fd ≠ (w.chan c).fd) : Phase w' c' := by
  have hchan : w'.chan c' = w.chan c' := by
    rw [htouches.chan, if_neg hne, World.chan_assigned_of_ne events hne]
  have hfd' : (w.chan c').fd ≠ ((w.assigned c events).chan c).fd := by
    rw [World.chan_assigned_self]
    exact hfd
  have hmap := htouches.channelMap_of_ne hfd'
  have hreg := htouches.interest_of_ne hfd'
  cases h with
  | unknown hindex hm hr =>
    exact .unknown (hchan ▸ hindex) (hchan ▸ hmap.trans hm) (hchan ▸ hreg.trans hr)
  | watched hindex hm hr =>
    exact .watched (hchan ▸ hindex) (hchan ▸ hmap.trans hm) (by rw [hchan]; exact hreg.trans hr)
  | parked hindex hm hr =>
    exact .parked (hchan ▸ hindex) (hchan ▸ hmap.trans hm) (hchan ▸ hreg.trans hr)

/-! ## Runs -/

/-- The calls of the owners on thread `tid`. -/
def toggleRuns (κ : Type) [DecidableEq κ] (B : Build) (tid : Int) :
    StepSystem (World κ) (Toggle × κ) where
  step w a :=
    match (a.1.method B tid a.2).run w with
    | .ok _ w' => some w'
    | .error _ _ => none

theorem toggle_step_iff {a : Toggle × κ} :
    (toggleRuns κ B tid).step w a = some w' ↔ (a.1.method B tid a.2).run w = .ok () w' := by
  show (match (a.1.method B tid a.2).run w with
    | .ok _ w' => some w'
    | .error _ _ => none) = some w' ↔ _
  cases (a.1.method B tid a.2).run w with
  | ok u w₁ => simp
  | error e w₁ => simp

/-- The channel `c` of a loop: owned by it, on its thread, and in a phase. -/
structure Attached (tid : Int) (c : κ) (w : World κ) : Prop where
  owner : (w.chan c).loop = w.loopAddr
  thread : w.loopThread = tid
  phase : Phase w c

/-- **One call.**  It returns, and touches its channel only. -/
theorem toggle_run (hw : Attached tid c w) (t : Toggle) :
    ∃ w' i r, (toggleRuns κ B tid).step w (t, c) = some w' ∧
      Touches c i (some c) r (w.assigned c (t.mask (w.chan c).events)) w' ∧
      Decides w c (t.mask (w.chan c).events) i r := by
  obtain ⟨w', i, r, hcase, htouches, hdecides⟩ :=
    updateChannel_decides (B := B) hw.phase (t.mask (w.chan c).events)
  refine ⟨w', i, r, toggle_step_iff.mpr ?_, htouches, hdecides⟩
  rw [Toggle.method_eq]
  exact assignEvents_ok_iff.mpr ⟨fun _ => hw.owner, hw.thread, hcase⟩

/-- The channel stays attached. -/
theorem Attached.touched (hw : Attached tid c w) {events : Events} {i : Int}
    {r : Option (Registration κ)}
    (htouches : Touches c i (some c) r (w.assigned c events) w') (h : Decides w c events i r) :
    Attached tid c w' where
  owner := by
    rw [htouches.loop, World.chan_assigned_self, htouches.loopAddr]
    exact hw.owner
  thread := htouches.loopThread.trans hw.thread
  phase := phase_of_decides htouches h

omit [DecidableEq κ] in
theorem attached_init (loopAddr : Nat) (fds : κ → Fd) (c : κ) :
    Attached tid c (World.init loopAddr tid fds) :=
  ⟨rfl, rfl, .unknown rfl rfl rfl⟩

/-- The kernel watches exactly the channels that want something, with the mask they want. -/
def FollowsMask (w : World κ) : Prop :=
  ∀ c, ((w.epoll.interest (w.chan c).fd).isSome ↔ (w.chan c).events ≠ 0) ∧
    ∀ r, w.epoll.interest (w.chan c).fd = some r → r.events = (w.chan c).events

/-- A loop with one attached channel on each descriptor. -/
structure Watching (tid : Int) (w : World κ) : Prop where
  fd_inj : ∀ c c', (w.chan c).fd = (w.chan c').fd → c = c'
  attached : ∀ c, Attached tid c w

omit [DecidableEq κ] in
/-- In a phase, the kernel follows the mask when index and mask agree. -/
theorem followsMask_iff (hw : Watching tid w) :
    FollowsMask w ↔ ∀ c, (w.chan c).index = kAdd ↔ (w.chan c).events ≠ 0 := by
  apply forall_congr'
  intro c
  cases (hw.attached c).phase with
  | unknown hindex _ hreg =>
    rw [hreg, hindex]
    simp [kNew, kAdd]
  | watched hindex _ hreg =>
    rw [hreg, hindex]
    simp
  | parked hindex _ hreg =>
    rw [hreg, hindex]
    simp [kDel, kAdd]

/-- Every call keeps every channel attached. -/
theorem watching_touched (hw : Watching tid w) {events : Events} {i : Int}
    {r : Option (Registration κ)}
    (htouches : Touches c i (some c) r (w.assigned c events) w') (h : Decides w c events i r) :
    Watching tid w' := by
  have hfd (c' : κ) : (w'.chan c').fd = (w.chan c').fd := by
    rw [htouches.fd, World.chan_assigned]
    split <;> simp_all
  refine ⟨fun c₁ c₂ => ?_, fun c' => ?_⟩
  · rw [hfd, hfd]
    exact hw.fd_inj c₁ c₂
  · by_cases hcc : c' = c
    · exact hcc ▸ (hw.attached c).touched htouches h
    · have hw' := hw.attached c'
      refine ⟨?_, htouches.loopThread.trans hw'.thread, ?_⟩
      · rw [htouches.loop, World.chan_assigned_of_ne events hcc, htouches.loopAddr]
        exact hw'.owner
      · exact hw'.phase.of_touches htouches hcc fun h => hcc (hw.fd_inj c' c h)

/-- The call returns, and the kernel follows every mask after it. -/
def FollowedAfter (B : Build) (tid : Int) (w : World κ) (a : Toggle × κ) : Prop :=
  ∃ w', (toggleRuns κ B tid).step w a = some w' ∧ FollowsMask w'

/-- A `Disable*` is called on a channel that wants something. -/
def DisablesSome (w : World κ) (a : Toggle × κ) : Prop :=
  a.1.disables = true → (w.chan a.2).isNoneEvents = false

instance (w : World κ) (a : Toggle × κ) : Decidable (DisablesSome w a) :=
  inferInstanceAs (Decidable (a.1.disables = true → (w.chan a.2).isNoneEvents = false))

/-- The kernel follows the masks after a call unless an unwatched channel is left with an empty
one. -/
theorem followsMask_touched (hw : Watching tid w) (hfollows : FollowsMask w) {events : Events}
    {i : Int} {r : Option (Registration κ)}
    (htouches : Touches c i (some c) r (w.assigned c events) w') (h : Decides w c events i r) :
    FollowsMask w' ↔ (events = 0 → (w.chan c).events ≠ 0) := by
  rw [followsMask_iff (watching_touched hw htouches h)]
  have hindex := (followsMask_iff hw).mp hfollows
  have hevents : (w'.chan c).events = events := by
    rw [htouches.events, World.chan_assigned_self]
  have hother (c' : κ) (hne : c' ≠ c) :
      (w'.chan c').index = kAdd ↔ (w'.chan c').events ≠ 0 := by
    rw [htouches.chan, if_neg hne, World.chan_assigned_of_ne events hne]
    exact hindex c'
  have hself : ((w'.chan c).index = kAdd ↔ (w'.chan c).events ≠ 0) ↔
      (events = 0 → (w.chan c).events ≠ 0) := by
    rw [htouches.index_self, hevents, ← hindex c]
    rcases h with ⟨hadd, hzero, rfl, -⟩ | ⟨hor, rfl, -⟩
    · simp [hadd, hzero, kDel, kAdd]
    · constructor
      · intro h hzero
        exact absurd hzero (h.mp rfl)
      · intro h
        refine ⟨fun _ hzero => ?_, fun _ => rfl⟩
        rcases hor with hnot | hne
        · exact hnot (h hzero)
        · exact hne hzero
  constructor
  · intro hall
    exact hself.mp (hall c)
  · intro hcond c'
    by_cases hcc : c' = c
    · exact hcc ▸ hself.mpr hcond
    · exact hother c' hcc

omit [DecidableEq κ] in
/-- An empty mask comes of a `Disable*`, and a `Disable*` leaves an empty mask empty. -/
theorem disablesSome_iff {t : Toggle} :
    DisablesSome w (t, c) ↔ (t.mask (w.chan c).events = 0 → (w.chan c).events ≠ 0) := by
  have hnone : (w.chan c).isNoneEvents = false ↔ (w.chan c).events ≠ 0 := beq_eq_false_iff_ne
  show (t.disables = true → (w.chan c).isNoneEvents = false) ↔ _
  rw [hnone]
  cases ht : t.disables with
  | true =>
    constructor
    · intro h _
      exact h rfl
    · intro h _ hzero
      rw [hzero] at h
      exact h (Toggle.mask_zero ht) rfl
  | false =>
    constructor
    · intro _ hzero
      exact absurd hzero (Toggle.mask_ne_zero ht _)
    · intro _ h
      cases h

/-- From a state in which the kernel follows the masks, it follows them after a call exactly when the
call is no `Disable*` on an empty mask. -/
theorem followedAfter_iff (hw : Watching tid w) (hfollows : FollowsMask w) (a : Toggle × κ) :
    FollowedAfter B tid w a ↔ DisablesSome w a := by
  obtain ⟨t, c⟩ := a
  obtain ⟨w', i, r, hstep, htouches, hdecides⟩ := toggle_run (B := B) (hw.attached c) t
  rw [disablesSome_iff, ← followsMask_touched hw hfollows htouches hdecides]
  constructor
  · rintro ⟨w₁, hstep₁, h⟩
    rw [hstep] at hstep₁
    cases hstep₁
    exact h
  · intro h
    exact ⟨w', hstep, h⟩

/-- **When the kernel follows the masks.**  In every build, for channels on distinct descriptors and
a kernel that does every legal `epoll_ctl`: all calls return and the kernel follows every mask after
each of them exactly when no `Disable*` is called on a channel whose mask is already empty. -/
theorem interest_follows_mask_iff (B : Build) (loopAddr : Nat) (tid : Int) (fds : κ → Fd)
    (hfds : Function.Injective fds) (calls : List (Toggle × κ)) :
    (toggleRuns κ B tid).Along (FollowedAfter B tid) (World.init loopAddr tid fds) calls ↔
      (toggleRuns κ B tid).Along DisablesSome (World.init loopAddr tid fds) calls := by
  have hinit : Watching tid (World.init loopAddr tid fds) :=
    ⟨fun _ _ h => hfds h, fun c => attached_init loopAddr fds c⟩
  have hfollows : FollowsMask (World.init loopAddr tid fds) :=
    (followsMask_iff hinit).mpr fun c => by simp [World.init, Channel.construct, kAdd]
  refine StepSystem.along_iff_along (I := fun w => Watching tid w ∧ FollowsMask w) ?_ ?_
    ⟨hinit, hfollows⟩
  · rintro w a ⟨hw, hfollows⟩
    exact followedAfter_iff hw hfollows a
  · rintro w ⟨t, c⟩ w' ⟨hw, hfollows⟩ hcond hstep
    obtain ⟨w₁, i, r, hstep₁, htouches, hdecides⟩ := toggle_run (B := B) (hw.attached c) t
    rw [hstep] at hstep₁
    cases hstep₁
    exact ⟨watching_touched hw htouches hdecides,
      (followsMask_touched hw hfollows htouches hdecides).mpr (disablesSome_iff.mp hcond)⟩

/-- Two channels that are enabled, disabled in part, disabled in full and enabled again. -/
theorem interest_follows_mask_twoChannels :
    (toggleRuns Bool .release 1).Along (FollowedAfter .release 1)
      (World.init 0 1 fun b => cond b 5 6)
      [(.enableReading, true), (.enableWriting, false), (.enableWriting, true),
        (.disableReading, true), (.disableAll, true), (.disableWriting, false),
        (.enableReading, true)] :=
  (interest_follows_mask_iff .release 0 1 (fun b => cond b 5 6)
    (by intro b b'; cases b <;> cases b' <;> simp) _).mpr (by decide +kernel)

/-- `DisableReading` on a channel that was never enabled registers it with an empty mask. -/
theorem disabled_fresh_registered :
    let w₀ : World Unit := World.init 0 1 fun _ => 5
    ((toggleRuns Unit .debug 1).step w₀ (.disableReading, ())).map
        (fun w => (w.epoll.interest 5, (w.chan ()).fd, (w.chan ()).events)) =
      some (some ⟨(), 0⟩, 5, 0) ∧
    ¬ (toggleRuns Unit .debug 1).Along (FollowedAfter .debug 1) w₀ [(.disableReading, ())] := by
  intro w₀
  have hstep : ((toggleRuns Unit .debug 1).step w₀ (.disableReading, ())).map
      (fun w => (w.epoll.interest 5, (w.chan ()).fd, (w.chan ()).events)) =
        some (some ⟨(), 0⟩, 5, 0) := by
    decide +kernel
  refine ⟨hstep, ?_⟩
  rintro ⟨⟨w', hstep', hfollows⟩, -⟩
  rw [hstep', Option.map_some] at hstep
  obtain ⟨hreg, hfd, hevents⟩ : w'.epoll.interest 5 = some ⟨(), 0⟩ ∧ (w'.chan ()).fd = 5 ∧
      (w'.chan ()).events = 0 := by simpa using hstep
  -- registered, with an empty mask
  have h := (hfollows ()).1
  rw [hfd, hreg] at h
  exact h.mp rfl hevents

end TurboNet.Net
