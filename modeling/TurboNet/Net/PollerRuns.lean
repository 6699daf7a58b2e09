/-
# TurboNet.Net.PollerRuns — the runs of one poller.

A schedule is a list of `Call`s: what the reactor thread calls on the poller, with the kernel's
answers, and the owners' assignments to `events_` between the calls.  A call that ends the process
ends the run, so every state of a run was reached by calls that all returned.

`RegisteredAs` and the two halves of "`index_ == kAdd` iff registered" are here, because the poller's
invariant and its error paths both rest on them: `Held` is kept by every call in every build
(`held_step`), `Added` by every call whose `EPOLL_CTL_ADD`, if it issues one, succeeds
(`added_step`).  For the channel of an `UpdateChannel` that returned the two halves hold together
exactly when its `epoll_ctl` did what it was for (`updated_inStep_iff`).
-/
import TurboNet.Lib.StepSystem
import TurboNet.Net.PollerSpec

namespace TurboNet.Net

open TurboNet.Lib
open TurboNet.Logger
open EpollPoller (Touches UpdateCase UpdateChannelCase RemoveChannelCase Untouched WaitResult)

/-- One step of a schedule. -/
inductive Call (κ : Type) where
  | setEvents (c : κ) (events : Events)
  | updateChannel (tid : Int) (granted : Bool) (c : κ)
  | removeChannel (tid : Int) (granted : Bool) (c : κ)
  | haveChannel (tid : Int) (c : κ)
  | poll (res : WaitResult κ) (now : Int) (activeChannels : List κ)
  deriving DecidableEq, Repr

/-- What a call shows its caller. -/
inductive Answer (κ : Type) where
  | done
  | have_ (b : Bool)
  | polled (now : Int) (activeChannels : List κ)
  deriving DecidableEq, Repr

variable {κ : Type} {B : Build} {tid : Int} {granted : Bool} {c : κ} {w w' : World κ}

/-! ## The index and the kernel -/

/-- The kernel holds the descriptor of `c` with `data.ptr` equal to `c`. -/
def RegisteredAs (w : World κ) (c : κ) : Prop :=
  ∃ events, w.epoll.interest (w.chan c).fd = some ⟨c, events⟩

/-- Every index is one of the three, and whoever the kernel holds has index `kAdd`. -/
structure Held (w : World κ) : Prop where
  range : ∀ c, (w.chan c).index = kNew ∨ (w.chan c).index = kAdd ∨ (w.chan c).index = kDel
  added : ∀ fd r, w.epoll.interest fd = some r → (w.chan r.ptr).fd = fd ∧ (w.chan r.ptr).index = kAdd

/-- Whoever has index `kAdd` is held by the kernel. -/
def Added (w : World κ) : Prop := ∀ c, (w.chan c).index = kAdd → RegisteredAs w c

theorem held_init (loopAddr : Nat) (loopThread : Int) (fds : κ → Fd) :
    Held (World.init loopAddr loopThread fds) where
  range _ := .inl rfl
  added _ _ h := by cases h

theorem added_init (loopAddr : Nat) (loopThread : Int) (fds : κ → Fd) :
    Added (World.init loopAddr loopThread fds) := by
  intro c h
  have h : (-1 : Int) = 1 := h
  exact absurd h (by decide)

/-- A known channel that is not `kNew` or `kDel` is `kAdd`. -/
theorem Held.index_eq_kAdd (hw : Held w) (hnew : (w.chan c).index ≠ kNew)
    (hdel : (w.chan c).index ≠ kDel) : (w.chan c).index = kAdd := by
  rcases hw.range c with h | h | h
  · exact absurd h hnew
  · exact h
  · exact absurd h hdel

/-- The descriptor of a registered channel is registered for that channel only. -/
theorem RegisteredAs.ptr_eq (h : RegisteredAs w c) {q : Registration κ}
    (hq : w.epoll.interest (w.chan c).fd = some q) : q.ptr = c := by
  obtain ⟨events, hreg⟩ := h
  rw [hreg] at hq
  cases hq
  rfl

/-! ## Steps -/

variable [DecidableEq κ]

/-- The member function a call runs. -/
def Call.method (B : Build) : Call κ → Method κ (Answer κ)
  | .setEvents c events => do modify (·.setEvents c events); pure .done
  | .updateChannel tid granted c => do EpollPoller.updateChannel B tid granted c; pure .done
  | .removeChannel tid granted c => do EpollPoller.removeChannel B tid granted c; pure .done
  | .haveChannel tid c => do let b ← EpollPoller.haveChannel tid c; pure (.have_ b)
  | .poll res now active => do
    let out ← EpollPoller.poll B res now active
    pure (.polled out.1 out.2)

/-- The runs of a poller in the build `B`. -/
def pollerRuns (κ : Type) [DecidableEq κ] (B : Build) : StepSystem (World κ) (Call κ) where
  step w a :=
    match (a.method B).run w with
    | .ok _ w' => some w'
    | .error _ _ => none

theorem step_iff {a : Call κ} :
    (pollerRuns κ B).step w a = some w' ↔ ∃ answer, (a.method B).run w = .ok answer w' := by
  show (match (a.method B).run w with
    | .ok _ w' => some w'
    | .error _ _ => none) = some w' ↔ _
  cases (a.method B).run w with
  | ok answer w₁ => simp
  | error e w₁ => simp

/-- What a call that returns can have done. -/
inductive StepCase (B : Build) (w : World κ) : Call κ → World κ → Prop
  | setEvents (c : κ) (events : Events) : StepCase B w (.setEvents c events) (w.setEvents c events)
  | updateChannel {tid : Int} {granted : Bool} {c : κ} {w' : World κ} (hthread : w.loopThread = tid)
      (h : UpdateChannelCase B granted c w w') : StepCase B w (.updateChannel tid granted c) w'
  | removeChannel {tid : Int} {granted : Bool} {c : κ} {w' : World κ} (hthread : w.loopThread = tid)
      (h : RemoveChannelCase B granted c w w') : StepCase B w (.removeChannel tid granted c) w'
  | haveChannel {tid : Int} (c : κ) (hthread : w.loopThread = tid) :
      StepCase B w (.haveChannel tid c) w
  | poll {res : WaitResult κ} {now : Int} {active : List κ} {w' : World κ} (h : Untouched w w') :
      StepCase B w (.poll res now active) w'

/-- **Inversion of a step.** -/
theorem step_cases {a : Call κ} (h : (pollerRuns κ B).step w a = some w') : StepCase B w a w' := by
  obtain ⟨answer, h⟩ := step_iff.mp h
  cases a with
  | setEvents c events =>
    simp only [Call.method, bind_ok_iff, modify_ok_iff, pure_ok_iff, exists_const,
      exists_eq_left] at h
    obtain ⟨-, rfl⟩ := h
    exact .setEvents c events
  | updateChannel tid granted c =>
    simp only [Call.method, bind_ok_iff, EpollPoller.updateChannel_ok_iff, pure_ok_iff,
      exists_const] at h
    obtain ⟨_, ⟨hthread, h⟩, -, rfl⟩ := h
    exact .updateChannel hthread h
  | removeChannel tid granted c =>
    simp only [Call.method, bind_ok_iff, EpollPoller.removeChannel_ok_iff, pure_ok_iff,
      exists_const] at h
    obtain ⟨_, ⟨hthread, h⟩, -, rfl⟩ := h
    exact .removeChannel hthread h
  | haveChannel tid c =>
    simp only [Call.method, bind_ok_iff, EpollPoller.haveChannel_ok_iff, pure_ok_iff] at h
    obtain ⟨_, _, ⟨hthread, -, rfl⟩, -, rfl⟩ := h
    exact .haveChannel c hthread
  | poll res now active =>
    simp only [Call.method, bind_ok_iff, pure_ok_iff] at h
    obtain ⟨_, _, h, -, rfl⟩ := h
    exact .poll (EpollPoller.untouched_poll h)

/-! ## What a step keeps -/

section Touched

variable {i : Int} {m : Option κ} {r : Option (Registration κ)}

/-- `Held` survives a call that leaves at `c`'s descriptor `c` itself, with index `kAdd`, or what was
there before, `c` apart. -/
theorem Held.touched (hw : Held w) (h : Touches c i m r w w')
    (hi : i = kNew ∨ i = kAdd ∨ i = kDel)
    (hr : ∀ q, r = some q →
      q.ptr = c ∧ i = kAdd ∨ q.ptr ≠ c ∧ w.epoll.interest (w.chan c).fd = some q) : Held w' where
  range c' := by
    rw [h.chan]
    split
    · exact hi
    · exact hw.range c'
  added fd q hq := by
    by_cases hfd : fd = (w.chan c).fd
    · subst hfd
      rw [h.interest_self] at hq
      rcases hr q hq with ⟨rfl, hadd⟩ | ⟨hne, hbefore⟩
      · exact ⟨h.fd _, h.index_self.trans hadd⟩
      · obtain ⟨hfd, hindex⟩ := hw.added _ q hbefore
        exact ⟨(h.fd _).trans hfd, (h.index_of_ne hne).trans hindex⟩
    · rw [h.interest_of_ne hfd] at hq
      obtain ⟨hfd', hindex⟩ := hw.added fd q hq
      -- `c` itself is registered for no other descriptor
      have hne : q.ptr ≠ c := by
        intro hc
        exact hfd (by rw [← hfd', hc])
      exact ⟨(h.fd _).trans hfd', (h.index_of_ne hne).trans hindex⟩

/-- `Added` survives a call after which `c` is registered if its index says so, and which takes no
other channel's registration away. -/
theorem Added.touched (hw : Added w) (h : Touches c i m r w w')
    (hc : i = kAdd → ∃ events, r = some ⟨c, events⟩)
    (hother : ∀ q, w.epoll.interest (w.chan c).fd = some q → q.ptr ≠ c → r = some q) :
    Added w' := by
  intro c' hindex
  by_cases hcc : c' = c
  · subst hcc
    obtain ⟨events, hr⟩ := hc (h.index_self.symm.trans hindex)
    exact ⟨events, by rw [h.fd, h.interest_self, hr]⟩
  · rw [h.index_of_ne hcc] at hindex
    obtain ⟨events, hreg⟩ := hw c' hindex
    refine ⟨events, ?_⟩
    rw [h.fd]
    by_cases hfd : (w.chan c').fd = (w.chan c).fd
    · rw [hfd] at hreg ⊢
      rw [h.interest_self]
      exact hother _ hreg hcc
    · rw [h.interest_of_ne hfd]
      exact hreg

end Touched

/-- `Held` is kept by every call in every build, whatever the kernel answers. -/
theorem held_step {a : Call κ} (hw : Held w) (h : (pollerRuns κ B).step w a = some w') :
    Held w' := by
  cases step_cases h with
  | setEvents c events =>
    refine ⟨fun c' => ?_, fun fd q hq => ?_⟩
    · rw [World.setEvents, World.chan_setChannel]
      split
      · exact hw.range c
      · exact hw.range c'
    · rw [World.setEvents, World.chan_setChannel]
      split
      next hc => exact hc ▸ hw.added fd q hq
      next => exact hw.added fd q hq
  | @updateChannel _ granted c _ _ h =>
    obtain ⟨i, m, r, heffect, htouches⟩ := h.touches
    -- a registration that is there afterwards is `c`'s new one or another channel's old one
    have hkeep (op : EpollOp) (q : Registration κ)
        (hq : w.epoll.after granted op (w.chan c).fd ⟨c, (w.chan c).events⟩ = some q) :
        q.ptr = c ∨ q.ptr ≠ c ∧ w.epoll.interest (w.chan c).fd = some q := by
      rcases Epoll.after_cases hq with rfl | hbefore
      · exact .inl rfl
      · by_cases hc : q.ptr = c
        · exact .inl hc
        · exact .inr ⟨hc, hbefore⟩
    cases heffect with
    | fresh =>
      exact hw.touched htouches (.inr (.inl rfl)) fun q hq => (hkeep .add q hq).imp_left (⟨·, rfl⟩)
    | again =>
      exact hw.touched htouches (.inr (.inl rfl)) fun q hq => (hkeep .add q hq).imp_left (⟨·, rfl⟩)
    | drop => exact hw.touched htouches (.inr (.inr rfl)) (by simp)
    | change hnew hdel =>
      have hadd := hw.index_eq_kAdd hnew hdel
      exact hw.touched htouches (hw.range c) fun q hq => (hkeep .mod q hq).imp_left (⟨·, hadd⟩)
  | removeChannel _ h =>
    obtain ⟨r, heffect, htouches⟩ := h.touches
    cases heffect with
    | registered => exact hw.touched htouches (.inl rfl) (by simp)
    | absent _ hindex =>
      refine hw.touched htouches (.inl rfl) fun q hq => .inr ⟨?_, hq⟩
      intro hc
      exact hindex (hc ▸ (hw.added _ q hq).2)
  | haveChannel => exact hw
  | poll h =>
    refine ⟨fun c' => ?_, fun fd q hq => ?_⟩
    · rw [h.index]
      exact hw.range c'
    · rw [h.fd, h.index]
      rw [h.epoll] at hq
      exact hw.added fd q hq

/-- The `EPOLL_CTL_ADD` of `UpdateChannel(c)`, if it comes to one, succeeds. -/
def AddSucceeds (w : World κ) : Call κ → Prop
  | .updateChannel _ granted c =>
    (w.chan c).index = kNew ∨ (w.chan c).index = kDel →
      w.epoll.succeeds granted .add (w.chan c).fd = true
  | _ => True

instance (w : World κ) : (a : Call κ) → Decidable (AddSucceeds w a)
  | .updateChannel _ granted c => inferInstanceAs (Decidable (_ ∨ _ →
      w.epoll.succeeds granted .add (w.chan c).fd = true))
  | .setEvents .. | .removeChannel .. | .haveChannel .. | .poll .. => .isTrue trivial

/-- `Added` is kept by every call whose `EPOLL_CTL_ADD` succeeds. -/
theorem added_step {a : Call κ} (hheld : Held w) (hw : Added w) (hadd : AddSucceeds w a)
    (h : (pollerRuns κ B).step w a = some w') : Added w' := by
  cases step_cases h with
  | setEvents c events =>
    intro c' hindex
    rw [World.setEvents, World.chan_setChannel] at hindex
    unfold RegisteredAs
    rw [World.setEvents, World.chan_setChannel]
    split at hindex
    next hc =>
      rw [if_pos hc]
      exact hc ▸ hw c hindex
    next hc =>
      rw [if_neg hc]
      exact hw c' hindex
  | @updateChannel _ granted c _ _ h =>
    obtain ⟨i, m, r, heffect, htouches⟩ := h.touches
    cases heffect with
    | fresh hindex =>
      have hs := hadd (.inl hindex)
      refine hw.touched htouches (fun _ => ⟨_, Epoll.after_of_succeeds hs⟩) ?_
      intro q hq _
      simp [(Epoll.succeeds_add_iff.mp hs).1] at hq
    | again hindex =>
      have hs := hadd (.inr hindex)
      refine hw.touched htouches (fun _ => ⟨_, Epoll.after_of_succeeds hs⟩) ?_
      intro q hq _
      simp [(Epoll.succeeds_add_iff.mp hs).1] at hq
    | drop hnew hdel =>
      have hreg := hw c (hheld.index_eq_kAdd hnew hdel)
      refine hw.touched htouches (fun h => absurd h (by decide)) ?_
      intro q hq hne
      exact absurd (hreg.ptr_eq hq) hne
    | change hnew hdel =>
      have hreg := hw c (hheld.index_eq_kAdd hnew hdel)
      refine hw.touched htouches (fun _ => ?_) ?_
      · -- a `MOD` that is refused leaves the old mask registered
        cases hs : w.epoll.succeeds granted .mod (w.chan c).fd with
        | true => exact ⟨_, Epoll.after_of_succeeds hs⟩
        | false =>
          obtain ⟨events, hevents⟩ := hreg
          exact ⟨events, (Epoll.after_of_not_succeeds hs).trans hevents⟩
      · intro q hq hne
        exact absurd (hreg.ptr_eq hq) hne
  | removeChannel _ h =>
    obtain ⟨r, heffect, htouches⟩ := h.touches
    cases heffect with
    | registered _ hindex =>
      have hreg := hw _ hindex
      refine hw.touched htouches (fun h => absurd h (by decide)) ?_
      intro q hq hne
      exact absurd (hreg.ptr_eq hq) hne
    | absent => exact hw.touched htouches (fun h => absurd h (by decide)) fun q hq _ => hq
  | haveChannel => exact hw
  | poll h =>
    intro c' hindex
    rw [h.index] at hindex
    unfold RegisteredAs
    rw [h.fd, h.epoll]
    exact hw c' hindex

/-! ## The channel of one call -/

/-- The operation `UpdateChannel(c)` decides on. -/
def updateOp (w : World κ) (c : κ) : EpollOp :=
  if (w.chan c).index = kNew ∨ (w.chan c).index = kDel then .add
  else if (w.chan c).isNoneEvents then .del
  else .mod

omit [DecidableEq κ] in
theorem updateOp_eq_add_iff :
    updateOp w c = .add ↔ (w.chan c).index = kNew ∨ (w.chan c).index = kDel := by
  unfold updateOp
  split
  next h => exact iff_of_true rfl h
  next h => exact iff_of_false (by split <;> simp) h

omit [DecidableEq κ] in
/-- Past the two `ADD` branches the event mask decides. -/
theorem updateOp_of_known (hnew : (w.chan c).index ≠ kNew) (hdel : (w.chan c).index ≠ kDel) :
    updateOp w c = if (w.chan c).isNoneEvents then .del else .mod :=
  if_neg (not_or.mpr ⟨hnew, hdel⟩)

/-- An operation on the descriptor of `c` does what it is for: after an `ADD` or `MOD` the kernel
holds `c`, which a `MOD` that fails may leave as it was; after a `DEL` it does not. -/
def Effective (w : World κ) (granted : Bool) (c : κ) : EpollOp → Prop
  | .add => w.epoll.succeeds granted .add (w.chan c).fd = true
  | .mod => w.epoll.succeeds granted .mod (w.chan c).fd = true ∨ RegisteredAs w c
  | .del => True

theorem registeredAs_touched {i : Int} {m : Option κ} {r : Option (Registration κ)}
    (h : Touches c i m r w w') : RegisteredAs w' c ↔ ∃ events, r = some ⟨c, events⟩ := by
  unfold RegisteredAs
  rw [h.fd, h.interest_self]

omit [DecidableEq κ] in
/-- After an `ADD` for a channel of another index than `kAdd` the kernel holds the channel exactly
when the `ADD` succeeded. -/
theorem registered_by_add_iff (hw : Held w) (hindex : (w.chan c).index ≠ kAdd) :
    (∃ events, w.epoll.after granted .add (w.chan c).fd ⟨c, (w.chan c).events⟩ =
      some ⟨c, events⟩) ↔ w.epoll.succeeds granted .add (w.chan c).fd = true := by
  constructor
  · rintro ⟨events, hreg⟩
    by_contra hfail
    rw [Epoll.after_of_not_succeeds (Bool.of_not_eq_true hfail)] at hreg
    exact hindex (hw.added _ _ hreg).2
  · intro hs
    exact ⟨_, Epoll.after_of_succeeds hs⟩

omit [DecidableEq κ] in
theorem registered_by_mod_iff :
    (∃ events, w.epoll.after granted .mod (w.chan c).fd ⟨c, (w.chan c).events⟩ =
      some ⟨c, events⟩) ↔
      w.epoll.succeeds granted .mod (w.chan c).fd = true ∨ RegisteredAs w c := by
  cases hs : w.epoll.succeeds granted .mod (w.chan c).fd with
  | true => exact iff_of_true ⟨_, Epoll.after_of_succeeds hs⟩ (.inl rfl)
  | false =>
    rw [Epoll.after_of_not_succeeds hs]
    simp only [Bool.false_eq_true, false_or]
    rfl

/-- **Index and kernel after `UpdateChannel`.** -/
theorem updated_inStep_iff (hw : Held w) (h : UpdateChannelCase B granted c w w') :
    ((w'.chan c).index = kAdd ↔ RegisteredAs w' c) ↔ Effective w granted c (updateOp w c) := by
  obtain ⟨i, m, r, heffect, htouches⟩ := h.touches
  rw [registeredAs_touched htouches, htouches.index_self]
  have hadded (hindex : (w.chan c).index = kNew ∨ (w.chan c).index = kDel) :
      (kAdd = kAdd ↔ ∃ events, w.epoll.after granted .add (w.chan c).fd ⟨c, (w.chan c).events⟩ =
        some ⟨c, events⟩) ↔ Effective w granted c (updateOp w c) := by
    have hne : (w.chan c).index ≠ kAdd := by
      rcases hindex with h | h
      · rw [h]
        decide
      · rw [h]
        decide
    rw [updateOp_eq_add_iff.mpr hindex, registered_by_add_iff hw hne]
    exact ⟨fun h => h.mp rfl, fun hs => iff_of_true rfl hs⟩
  cases heffect with
  | fresh hindex => exact hadded (.inl hindex)
  | again hindex => exact hadded (.inr hindex)
  | drop hnew hdel _ hnone =>
    rw [updateOp_of_known hnew hdel, if_pos hnone]
    exact iff_of_true (by simp [show kDel ≠ kAdd by decide]) trivial
  | change hnew hdel _ hnone =>
    rw [updateOp_of_known hnew hdel, if_neg (by simp [hnone]), hw.index_eq_kAdd hnew hdel,
      registered_by_mod_iff]
    exact ⟨fun h => h.mp rfl, fun h => iff_of_true rfl h⟩

/-- After `RemoveChannel` neither index nor kernel know the channel. -/
theorem removed_inStep (hw : Held w) (h : RemoveChannelCase B granted c w w') :
    (w'.chan c).index = kAdd ↔ RegisteredAs w' c := by
  obtain ⟨r, heffect, htouches⟩ := h.touches
  rw [registeredAs_touched htouches, htouches.index_self]
  refine iff_of_false (by decide) ?_
  rintro ⟨events, hreg⟩
  cases heffect with
  | registered => cases hreg
  | absent _ hindex => exact hindex (hw.added _ _ hreg).2

end TurboNet.Net
