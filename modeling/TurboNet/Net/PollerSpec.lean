/-
# TurboNet.Net.PollerSpec — what one call of the poller can do.

One inversion theorem for each member function: a call returns exactly in the listed cases, each with
the guards it passed and the world it left.  Every invariant of the poller is derived from these, and
no later module unfolds a member function.

Most fields are left alone by most assignments; the `@[simp]` lemmas say which.
-/
import TurboNet.Net.EpollPoller

namespace TurboNet.Net

open TurboNet.Lib
open TurboNet.Logger

variable {κ : Type} {B : Build} {tid : Int} {granted : Bool} {c c' : κ} {w w' : World κ}

/-! ## Frame lemmas -/

namespace World

@[simp] theorem mapSet_channels (fd : Fd) : (w.mapSet fd c).channels = w.channels := rfl
@[simp] theorem mapSet_epoll (fd : Fd) : (w.mapSet fd c).epoll = w.epoll := rfl
@[simp] theorem mapSet_loopAddr (fd : Fd) : (w.mapSet fd c).loopAddr = w.loopAddr := rfl
@[simp] theorem mapSet_channelMap (fd : Fd) :
    (w.mapSet fd c).channelMap = Function.update w.channelMap fd (some c) := rfl

@[simp] theorem mapErase_channels (fd : Fd) : (w.mapErase fd).channels = w.channels := rfl
@[simp] theorem mapErase_epoll (fd : Fd) : (w.mapErase fd).epoll = w.epoll := rfl
@[simp] theorem mapErase_loopAddr (fd : Fd) : (w.mapErase fd).loopAddr = w.loopAddr := rfl
@[simp] theorem mapErase_channelMap (fd : Fd) :
    (w.mapErase fd).channelMap = Function.update w.channelMap fd none := rfl

end World

/-! ## Guards -/

theorem assertInLoopThread_ok_iff {u : Unit} :
    (assertInLoopThread tid).run w = .ok u w' ↔ w.loopThread = tid ∧ w' = w := by
  unfold assertInLoopThread
  rw [run_get_bind]
  exact check_ok_iff

/-- The world with one more log record. -/
def World.logged (w : World κ) (level : LogLevel) (message : String) : World κ :=
  { w with log := w.log ++ [(level, message)] }

theorem logSys_ok_iff {isAbort : Bool} {message : String} {u : Unit} :
    (logSys B isAbort message).run w = .ok u w' ↔
      (B.sysLevel isAbort).aborts = false ∧ w' = w.logged (B.sysLevel isAbort) message := by
  unfold logSys
  rw [run_modify_bind]
  exact check_ok_iff

namespace EpollPoller

/-! ## `Update` -/

/-- The two ways `Update` returns: the kernel did it, or it did not and the record that says so is
of a level that does not abort. -/
inductive UpdateCase (B : Build) (granted : Bool) (op : EpollOp) (c : κ) (w : World κ) :
    World κ → Prop
  | done (h : w.epoll.succeeds granted op (w.chan c).fd = true) :
      UpdateCase B granted op c w (w.ctl granted op c)
  | refused (h : w.epoll.succeeds granted op (w.chan c).fd = false)
      (hlevel : (B.sysLevel (op != .del)).aborts = false) :
      UpdateCase B granted op c w ((w.ctl granted op c).logged (B.sysLevel (op != .del))
        ("epoll_ctl op = " ++ operationToString op ++ " fd = " ++ toString (w.chan c).fd))

theorem update_ok_iff {op : EpollOp} {u : Unit} :
    (update B granted op c).run w = .ok u w' ↔ UpdateCase B granted op c w w' := by
  unfold update
  rw [run_get_bind, run_bind_of_ok (EStateM.run_set ..)]
  cases hs : w.epoll.succeeds granted op (w.chan c).fd with
  | true =>
    rw [if_neg (by simp), pure_ok_iff]
    constructor
    · rintro ⟨-, rfl⟩
      exact .done hs
    · intro h
      cases h with
      | done => exact ⟨rfl, rfl⟩
      | refused h => exact absurd hs (by simp [h])
  | false =>
    rw [if_pos rfl, logSys_ok_iff]
    constructor
    · rintro ⟨hlevel, rfl⟩
      exact .refused hs hlevel
    · intro h
      cases h with
      | done h => exact absurd hs (by simp [h])
      | refused _ hlevel => exact ⟨hlevel, rfl⟩

/-- What `Poll` leaves alone, whatever `epoll_wait` answers: only `revents_`, `event_list_` and the
log change. -/
structure Untouched (w w' : World κ) : Prop where
  index : ∀ c, (w'.chan c).index = (w.chan c).index
  fd : ∀ c, (w'.chan c).fd = (w.chan c).fd
  channelMap : w'.channelMap = w.channelMap
  epoll : w'.epoll = w.epoll

theorem Untouched.refl (w : World κ) : Untouched w w :=
  ⟨fun _ => rfl, fun _ => rfl, rfl, rfl⟩

theorem Untouched.trans {w₁ w₂ w₃ : World κ} (h : Untouched w₁ w₂) (h' : Untouched w₂ w₃) :
    Untouched w₁ w₃ where
  index c := (h'.index c).trans (h.index c)
  fd c := (h'.fd c).trans (h.fd c)
  channelMap := h'.channelMap.trans h.channelMap
  epoll := h'.epoll.trans h.epoll

namespace UpdateCase

variable {op : EpollOp}

theorem channels (h : UpdateCase B granted op c w w') : w'.channels = w.channels := by
  cases h with
  | done => rfl
  | refused => rfl

theorem channelMap (h : UpdateCase B granted op c w w') : w'.channelMap = w.channelMap := by
  cases h with
  | done => rfl
  | refused => rfl

theorem loopAddr (h : UpdateCase B granted op c w w') : w'.loopAddr = w.loopAddr := by
  cases h with
  | done => rfl
  | refused => rfl

theorem loopThread (h : UpdateCase B granted op c w w') : w'.loopThread = w.loopThread := by
  cases h with
  | done => rfl
  | refused => rfl

theorem interest (h : UpdateCase B granted op c w w') :
    w'.epoll.interest = Function.update w.epoll.interest (w.chan c).fd
      (w.epoll.after granted op (w.chan c).fd ⟨c, (w.chan c).events⟩) := by
  cases h with
  | done => exact Epoll.ctl_interest ..
  | refused => exact Epoll.ctl_interest ..

theorem calls (h : UpdateCase B granted op c w w') :
    w'.epoll.calls = w.epoll.calls ++
      [⟨op, (w.chan c).fd, (w.epoll.interest (w.chan c).fd).isSome⟩] := by
  cases h with
  | done => exact Epoll.ctl_calls ..
  | refused => exact Epoll.ctl_calls ..

/-- What `Update` does depends on the build's severities only. -/
theorem congr {B' : Build} (hlevel : B'.sysLevel = B.sysLevel)
    (h : UpdateCase B granted op c w w') : UpdateCase B' granted op c w w' := by
  cases h with
  | done h => exact .done h
  | refused h hl =>
    rw [← hlevel] at hl ⊢
    exact .refused h hl

end UpdateCase

/-- The two asserts on a known channel say one thing. -/
theorem known_iff {fd : Fd} :
    ((B.asserts = true → w.channelMap fd ≠ none) ∧ (B.asserts = true → w.channelMap fd = some c)) ↔
      (B.asserts = true → w.channelMap fd = some c) := by
  constructor
  · exact And.right
  · intro h
    exact ⟨fun hB => by simp [h hB], h⟩

/-- The map after `RemoveChannel`: the erase happens where asserts are evaluated. -/
def erased (B : Build) (w : World κ) (fd : Fd) : World κ :=
  if B.asserts = true then w.mapErase fd else w

/-- The map entry of a removed channel's descriptor: gone where asserts are evaluated. -/
def erasedEntry (B : Build) (m : Option κ) : Option κ := if B.asserts = true then none else m

theorem erased_channelMap (fd : Fd) :
    (erased B w fd).channelMap =
      Function.update w.channelMap fd (erasedEntry B (w.channelMap fd)) := by
  unfold erased erasedEntry
  split
  · rfl
  · exact (Function.update_eq_self fd w.channelMap).symm

theorem erased_eq (fd : Fd) :
    ∃ m, erased B w fd = { w with channelMap := m } := by
  unfold erased
  split
  · exact ⟨_, rfl⟩
  · exact ⟨_, rfl⟩

end EpollPoller

/-! ## The fields of one channel -/

variable [DecidableEq κ]

namespace World

theorem chan_setChannel (ch : Channel) :
    (w.setChannel c ch).chan c' = if c' = c then ch else w.chan c' :=
  Function.update_apply _ _ _ _

@[simp] theorem chan_setIndex_fd (i : Int) : ((w.setIndex c i).chan c').fd = (w.chan c').fd := by
  rw [setIndex, chan_setChannel]
  split <;> simp_all

@[simp] theorem chan_setIndex_events (i : Int) :
    ((w.setIndex c i).chan c').events = (w.chan c').events := by
  rw [setIndex, chan_setChannel]
  split <;> simp_all

@[simp] theorem chan_setIndex_loop (i : Int) :
    ((w.setIndex c i).chan c').loop = (w.chan c').loop := by
  rw [setIndex, chan_setChannel]
  split <;> simp_all

@[simp] theorem setIndex_channelMap (i : Int) : (w.setIndex c i).channelMap = w.channelMap := rfl
@[simp] theorem setIndex_epoll (i : Int) : (w.setIndex c i).epoll = w.epoll := rfl
@[simp] theorem setIndex_loopAddr (i : Int) : (w.setIndex c i).loopAddr = w.loopAddr := rfl

end World

namespace EpollPoller

/-! ## `UpdateChannel` -/

/-- The four ways `UpdateChannel` returns. -/
inductive UpdateChannelCase (B : Build) (granted : Bool) (c : κ) (w : World κ) : World κ → Prop
  | fresh {w' : World κ} (hindex : (w.chan c).index = kNew)
      (hmap : B.asserts = true → w.channelMap (w.chan c).fd = none)
      (hupdate : UpdateCase B granted .add c
        ((w.mapSet (w.chan c).fd c).setIndex c kAdd) w') : UpdateChannelCase B granted c w w'
  | again {w' : World κ} (hindex : (w.chan c).index = kDel)
      (hmap : B.asserts = true → w.channelMap (w.chan c).fd = some c)
      (hupdate : UpdateCase B granted .add c (w.setIndex c kAdd) w') :
      UpdateChannelCase B granted c w w'
  | drop {w' : World κ} (hnew : (w.chan c).index ≠ kNew) (hdel : (w.chan c).index ≠ kDel)
      (hmap : B.asserts = true → w.channelMap (w.chan c).fd = some c)
      (hnone : (w.chan c).isNoneEvents = true)
      (hupdate : UpdateCase B granted .del c w w') :
      UpdateChannelCase B granted c w (w'.setIndex c kDel)
  | change {w' : World κ} (hnew : (w.chan c).index ≠ kNew) (hdel : (w.chan c).index ≠ kDel)
      (hmap : B.asserts = true → w.channelMap (w.chan c).fd = some c)
      (hnone : (w.chan c).isNoneEvents = false)
      (hupdate : UpdateCase B granted .mod c w w') : UpdateChannelCase B granted c w w'

theorem updateChannel_ok_iff {u : Unit} :
    (updateChannel B tid granted c).run w = .ok u w' ↔
      w.loopThread = tid ∧ UpdateChannelCase B granted c w w' := by
  unfold updateChannel
  simp only [bind_ok_iff, get_ok_iff, assertInLoopThread_ok_iff, and_assoc, exists_and_left,
    exists_eq_left, exists_const]
  apply and_congr_right
  intro _
  by_cases hnew : (w.chan c).index = kNew
  · rw [if_pos (Or.inl hnew), if_pos hnew]
    simp only [bind_ok_iff, Build.assert_ok_iff, modify_ok_iff, update_ok_iff, exists_const,
      exists_eq_left, exists_and_left, and_assoc]
    constructor
    · rintro ⟨hmap, hupdate⟩
      exact .fresh hnew hmap hupdate
    · intro h
      cases h with
      | fresh _ hmap hupdate => exact ⟨hmap, hupdate⟩
      | again hdel => exact absurd (hnew.symm.trans hdel) (by decide)
      | drop h => exact absurd hnew h
      | change h => exact absurd hnew h
  by_cases hdel : (w.chan c).index = kDel
  · rw [if_pos (Or.inr hdel), if_neg hnew]
    simp only [bind_ok_iff, Build.assert_ok_iff, modify_ok_iff, update_ok_iff, exists_const,
      exists_eq_left, exists_and_left, and_assoc]
    rw [← and_assoc, known_iff]
    constructor
    · rintro ⟨hmap, hupdate⟩
      exact .again hdel hmap hupdate
    · intro h
      cases h with
      | fresh h => exact absurd h hnew
      | again _ hmap hupdate => exact ⟨hmap, hupdate⟩
      | drop _ h => exact absurd hdel h
      | change _ h => exact absurd hdel h
  · rw [if_neg (not_or.mpr ⟨hnew, hdel⟩)]
    simp only [bind_ok_iff, Build.assert_ok_iff, exists_const, exists_eq_left, exists_and_left,
      and_assoc]
    rw [← and_assoc, known_iff]
    cases hnone : (w.chan c).isNoneEvents with
    | true =>
      simp only [if_true, bind_ok_iff, modify_ok_iff, update_ok_iff, exists_const]
      constructor
      · rintro ⟨hmap, w₁, hupdate, rfl⟩
        exact .drop hnew hdel hmap hnone hupdate
      · intro h
        cases h with
        | fresh h => exact absurd h hnew
        | again h => exact absurd h hdel
        | drop _ _ hmap _ hupdate => exact ⟨hmap, _, hupdate, rfl⟩
        | change _ _ _ h => simp [hnone] at h
    | false =>
      simp only [Bool.false_eq_true, if_false, update_ok_iff]
      constructor
      · rintro ⟨hmap, hupdate⟩
        exact .change hnew hdel hmap hnone hupdate
      · intro h
        cases h with
        | fresh h => exact absurd h hnew
        | again h => exact absurd h hdel
        | drop _ _ _ h => simp [hnone] at h
        | change _ _ hmap _ hupdate => exact ⟨hmap, hupdate⟩

/-- A build that evaluates fewer asserts returns wherever the other does, with the same world. -/
theorem UpdateChannelCase.weaken {B' : Build} (hlevel : B'.sysLevel = B.sysLevel)
    (hasserts : B'.asserts = true → B.asserts = true) (h : UpdateChannelCase B granted c w w') :
    UpdateChannelCase B' granted c w w' := by
  cases h with
  | fresh hindex hmap hupdate =>
    exact .fresh hindex (fun h => hmap (hasserts h)) (hupdate.congr hlevel)
  | again hindex hmap hupdate =>
    exact .again hindex (fun h => hmap (hasserts h)) (hupdate.congr hlevel)
  | drop hnew hdel hmap hnone hupdate =>
    exact .drop hnew hdel (fun h => hmap (hasserts h)) hnone (hupdate.congr hlevel)
  | change hnew hdel hmap hnone hupdate =>
    exact .change hnew hdel (fun h => hmap (hasserts h)) hnone (hupdate.congr hlevel)

/-! ## `RemoveChannel` -/

/-- The guards of `RemoveChannel`, all of them asserts. -/
structure Removable (w : World κ) (c : κ) : Prop where
  map : w.channelMap (w.chan c).fd = some c
  none : (w.chan c).isNoneEvents = true
  index : (w.chan c).index = kAdd ∨ (w.chan c).index = kDel

/-- The two ways `RemoveChannel` returns. -/
inductive RemoveChannelCase (B : Build) (granted : Bool) (c : κ) (w : World κ) : World κ → Prop
  | registered {w' : World κ} (hguard : B.asserts = true → Removable w c)
      (hindex : (w.chan c).index = kAdd)
      (hupdate : UpdateCase B granted .del c (erased B w (w.chan c).fd) w') :
      RemoveChannelCase B granted c w (w'.setIndex c kNew)
  | absent (hguard : B.asserts = true → Removable w c) (hindex : (w.chan c).index ≠ kAdd) :
      RemoveChannelCase B granted c w ((erased B w (w.chan c).fd).setIndex c kNew)

theorem removeChannel_ok_iff {u : Unit} :
    (removeChannel B tid granted c).run w = .ok u w' ↔
      w.loopThread = tid ∧ RemoveChannelCase B granted c w w' := by
  unfold removeChannel
  simp only [bind_ok_iff, get_ok_iff, assertInLoopThread_ok_iff, Build.assert_ok_iff, and_assoc,
    exists_and_left, exists_eq_left, exists_const]
  apply and_congr_right
  intro _
  -- the statements after the asserts, from the world the last assert left
  have htail (w₁ : World κ) :
      ((if (w.chan c).index = kAdd then do
          update B granted .del c
          modify fun w => w.setIndex c kNew
        else modify fun w => w.setIndex c kNew : Method κ Unit).run w₁ = .ok u w') ↔
      ((w.chan c).index = kAdd ∧ ∃ w₂, UpdateCase B granted .del c w₁ w₂ ∧
          w' = w₂.setIndex c kNew) ∨
        ((w.chan c).index ≠ kAdd ∧ w' = w₁.setIndex c kNew) := by
    by_cases hadd : (w.chan c).index = kAdd
    · simp only [hadd, if_true, bind_ok_iff, update_ok_iff, modify_ok_iff, exists_const, true_and,
        ne_eq, not_true, false_and, or_false]
    · simp only [hadd, if_false, modify_ok_iff, false_and, ne_eq, not_false_iff, true_and, false_or]
  cases hB : B.asserts with
  | true =>
    have herased : erased B w (w.chan c).fd = w.mapErase (w.chan c).fd := if_pos hB
    simp only [if_true, bind_ok_iff, modify_ok_iff, check_ok_iff, exists_const, exists_eq_left,
      exists_and_left, and_assoc, htail, forall_const]
    constructor
    · rintro ⟨_, hmap, hnone, hindex, _, h⟩
      rcases h with ⟨hadd, w₂, hupdate, rfl⟩ | ⟨hadd, rfl⟩
      · exact .registered (fun _ => ⟨hmap, hnone, hindex⟩) hadd (herased ▸ hupdate)
      · rw [← herased]
        exact .absent (fun _ => ⟨hmap, hnone, hindex⟩) hadd
    · intro h
      cases h with
      | registered hguard hadd hupdate =>
        obtain ⟨hmap, hnone, hindex⟩ := hguard hB
        have hfind : w.channelMap (w.chan c).fd ≠ none := by simp [hmap]
        exact ⟨hfind, hmap, hnone, hindex, hfind, .inl ⟨hadd, _, herased ▸ hupdate, rfl⟩⟩
      | absent hguard hadd =>
        obtain ⟨hmap, hnone, hindex⟩ := hguard hB
        have hfind : w.channelMap (w.chan c).fd ≠ none := by simp [hmap]
        exact ⟨hfind, hmap, hnone, hindex, hfind, .inr ⟨hadd, by rw [herased]⟩⟩
  | false =>
    have herased : erased B w (w.chan c).fd = w := if_neg (by simp [hB])
    have hguard : B.asserts = true → Removable w c := by simp [hB]
    simp only [Bool.false_eq_true, if_false, htail, false_implies, true_and]
    constructor
    · rintro (⟨hadd, w₂, hupdate, rfl⟩ | ⟨hadd, rfl⟩)
      · exact .registered hguard hadd (herased.symm ▸ hupdate)
      · have h : RemoveChannelCase B granted c w _ := .absent hguard hadd
        rwa [herased] at h
    · intro h
      cases h with
      | registered _ hadd hupdate => exact .inl ⟨hadd, _, herased ▸ hupdate, rfl⟩
      | absent _ hadd => exact .inr ⟨hadd, by rw [herased]⟩

/-! ## The effect of a call on one channel

Whatever `UpdateChannel` and `RemoveChannel` do, they do to one channel and its descriptor. -/

/-- `c` gets the index `i`, its descriptor the map entry `m` and the registration `r`; everything
else stays. -/
structure Touches (c : κ) (i : Int) (m : Option κ) (r : Option (Registration κ))
    (w w' : World κ) : Prop where
  channels : w'.channels = Function.update w.channels c { w.chan c with index := i }
  channelMap : w'.channelMap = Function.update w.channelMap (w.chan c).fd m
  interest : w'.epoll.interest = Function.update w.epoll.interest (w.chan c).fd r
  loopAddr : w'.loopAddr = w.loopAddr
  loopThread : w'.loopThread = w.loopThread

namespace Touches

variable {i : Int} {m : Option κ} {r : Option (Registration κ)}

theorem chan (h : Touches c i m r w w') (c' : κ) :
    w'.chan c' = if c' = c then { w.chan c with index := i } else w.chan c' := by
  show w'.channels c' = _
  rw [h.channels, Function.update_apply]

theorem index_self (h : Touches c i m r w w') : (w'.chan c).index = i := by
  rw [h.chan, if_pos rfl]

theorem index_of_ne (h : Touches c i m r w w') (hne : c' ≠ c) :
    (w'.chan c').index = (w.chan c').index := by
  rw [h.chan, if_neg hne]

theorem fd (h : Touches c i m r w w') (c' : κ) : (w'.chan c').fd = (w.chan c').fd := by
  rw [h.chan]
  split <;> simp_all

theorem events (h : Touches c i m r w w') (c' : κ) :
    (w'.chan c').events = (w.chan c').events := by
  rw [h.chan]
  split <;> simp_all

theorem loop (h : Touches c i m r w w') (c' : κ) : (w'.chan c').loop = (w.chan c').loop := by
  rw [h.chan]
  split <;> simp_all

theorem interest_self (h : Touches c i m r w w') : w'.epoll.interest (w.chan c).fd = r := by
  rw [h.interest, Function.update_self]

theorem interest_of_ne (h : Touches c i m r w w') {fd : Fd} (hne : fd ≠ (w.chan c).fd) :
    w'.epoll.interest fd = w.epoll.interest fd := by
  rw [h.interest, Function.update_of_ne hne]

theorem channelMap_self (h : Touches c i m r w w') : w'.channelMap (w.chan c).fd = m := by
  rw [h.channelMap, Function.update_self]

theorem channelMap_of_ne (h : Touches c i m r w w') {fd : Fd} (hne : fd ≠ (w.chan c).fd) :
    w'.channelMap fd = w.channelMap fd := by
  rw [h.channelMap, Function.update_of_ne hne]

end Touches

/-- What `UpdateChannel` decides: the new index, map entry and registration. -/
inductive UpdateEffect (B : Build) (granted : Bool) (c : κ) (w : World κ) :
    Int → Option κ → Option (Registration κ) → Prop
  | fresh (hindex : (w.chan c).index = kNew)
      (hmap : B.asserts = true → w.channelMap (w.chan c).fd = none) :
      UpdateEffect B granted c w kAdd (some c)
        (w.epoll.after granted .add (w.chan c).fd ⟨c, (w.chan c).events⟩)
  | again (hindex : (w.chan c).index = kDel)
      (hmap : B.asserts = true → w.channelMap (w.chan c).fd = some c) :
      UpdateEffect B granted c w kAdd (w.channelMap (w.chan c).fd)
        (w.epoll.after granted .add (w.chan c).fd ⟨c, (w.chan c).events⟩)
  | drop (hnew : (w.chan c).index ≠ kNew) (hdel : (w.chan c).index ≠ kDel)
      (hmap : B.asserts = true → w.channelMap (w.chan c).fd = some c)
      (hnone : (w.chan c).isNoneEvents = true) :
      UpdateEffect B granted c w kDel (w.channelMap (w.chan c).fd) none
  | change (hnew : (w.chan c).index ≠ kNew) (hdel : (w.chan c).index ≠ kDel)
      (hmap : B.asserts = true → w.channelMap (w.chan c).fd = some c)
      (hnone : (w.chan c).isNoneEvents = false) :
      UpdateEffect B granted c w (w.chan c).index (w.channelMap (w.chan c).fd)
        (w.epoll.after granted .mod (w.chan c).fd ⟨c, (w.chan c).events⟩)

theorem UpdateChannelCase.touches (h : UpdateChannelCase B granted c w w') :
    ∃ i m r, UpdateEffect B granted c w i m r ∧ Touches c i m r w w' := by
  cases h with
  | fresh hindex hmap hupdate =>
    refine ⟨_, _, _, .fresh hindex hmap, hupdate.channels, hupdate.channelMap, ?_,
      hupdate.loopAddr, hupdate.loopThread⟩
    have h := hupdate.interest
    simp only [World.chan_setIndex_fd, World.chan_setIndex_events] at h
    exact h
  | again hindex hmap hupdate =>
    refine ⟨_, _, _, .again hindex hmap, hupdate.channels, ?_, ?_,
      hupdate.loopAddr, hupdate.loopThread⟩
    · rw [hupdate.channelMap, Function.update_eq_self, World.setIndex_channelMap]
    · have h := hupdate.interest
      simp only [World.chan_setIndex_fd, World.chan_setIndex_events] at h
      exact h
  | @drop w₁ hnew hdel hmap hnone hupdate =>
    refine ⟨_, _, _, .drop hnew hdel hmap hnone, ?_, ?_, ?_, hupdate.loopAddr, hupdate.loopThread⟩
    · show Function.update w₁.channels c { w₁.channels c with index := kDel } = _
      rw [hupdate.channels]
    · rw [World.setIndex_channelMap, hupdate.channelMap, Function.update_eq_self]
    · have h := hupdate.interest
      rw [Epoll.after_del] at h
      exact h
  | change hnew hdel hmap hnone hupdate =>
    refine ⟨_, _, _, .change hnew hdel hmap hnone, ?_, ?_, hupdate.interest, hupdate.loopAddr,
      hupdate.loopThread⟩
    · rw [hupdate.channels]
      exact (Function.update_eq_self c w.channels).symm
    · rw [hupdate.channelMap, Function.update_eq_self]

omit [DecidableEq κ] in
/-- Only one decision is possible. -/
theorem UpdateEffect.unique {i i' : Int} {m m' : Option κ} {r r' : Option (Registration κ)}
    (h : UpdateEffect B granted c w i m r) (h' : UpdateEffect B granted c w i' m' r') :
    i = i' ∧ m = m' ∧ r = r' := by
  cases h with
  | fresh hnew =>
    cases h' with
    | fresh => exact ⟨rfl, rfl, rfl⟩
    | again hdel => exact absurd (hnew.symm.trans hdel) (by decide)
    | drop hother | change hother => exact absurd hnew hother
  | again hdel =>
    cases h' with
    | fresh hnew => exact absurd (hnew.symm.trans hdel) (by decide)
    | again => exact ⟨rfl, rfl, rfl⟩
    | drop _ hother | change _ hother => exact absurd hdel hother
  | drop hnew hdel _ hnone =>
    cases h' with
    | fresh h => exact absurd h hnew
    | again h => exact absurd h hdel
    | drop => exact ⟨rfl, rfl, rfl⟩
    | change _ _ _ hsome => exact absurd (hnone.symm.trans hsome) (by decide)
  | change hnew hdel _ hsome =>
    cases h' with
    | fresh h => exact absurd h hnew
    | again h => exact absurd h hdel
    | drop _ _ _ hnone => exact absurd (hnone.symm.trans hsome) (by decide)
    | change => exact ⟨rfl, rfl, rfl⟩

theorem UpdateChannelCase.touches_of_effect {i : Int} {m : Option κ} {r : Option (Registration κ)}
    (h : UpdateChannelCase B granted c w w') (heffect : UpdateEffect B granted c w i m r) :
    Touches c i m r w w' := by
  obtain ⟨i', m', r', hdecided, htouches⟩ := h.touches
  obtain ⟨rfl, rfl, rfl⟩ := heffect.unique hdecided
  exact htouches

/-- What `RemoveChannel` decides; the index becomes `kNew`. -/
inductive RemoveEffect (B : Build) (c : κ) (w : World κ) : Option (Registration κ) → Prop
  | registered (hguard : B.asserts = true → Removable w c) (hindex : (w.chan c).index = kAdd) :
      RemoveEffect B c w none
  | absent (hguard : B.asserts = true → Removable w c) (hindex : (w.chan c).index ≠ kAdd) :
      RemoveEffect B c w (w.epoll.interest (w.chan c).fd)

theorem RemoveChannelCase.touches (h : RemoveChannelCase B granted c w w') :
    ∃ r, RemoveEffect B c w r ∧
      Touches c kNew (erasedEntry B (w.channelMap (w.chan c).fd)) r w w' := by
  obtain ⟨m, hm⟩ := erased_eq (B := B) (w := w) (w.chan c).fd
  have hmap := erased_channelMap (B := B) (w := w) (w.chan c).fd
  cases h with
  | @registered w₁ hguard hindex hupdate =>
    refine ⟨_, .registered hguard hindex, ?_, ?_, ?_, ?_, ?_⟩
    · show Function.update w₁.channels c { w₁.channels c with index := kNew } = _
      rw [hupdate.channels, hm]
    · rw [World.setIndex_channelMap, hupdate.channelMap, hmap]
    · have h := hupdate.interest
      rw [Epoll.after_del, hm] at h
      exact h
    · rw [World.setIndex_loopAddr, hupdate.loopAddr, hm]
    · exact hupdate.loopThread.trans (by rw [hm])
  | absent hguard hindex =>
    refine ⟨_, .absent hguard hindex, ?_, hmap, ?_, ?_, ?_⟩
    · show Function.update (erased B w (w.chan c).fd).channels c
        { (erased B w (w.chan c).fd).channels c with index := kNew } = _
      rw [hm]
    · rw [World.setIndex_epoll, hm, Function.update_eq_self]
    · rw [World.setIndex_loopAddr, hm]
    · show (erased B w (w.chan c).fd).loopThread = w.loopThread
      rw [hm]

/-- The one `epoll_ctl` of `UpdateChannel`, an `ADD` for a channel the kernel is not to know yet. -/
theorem UpdateChannelCase.calls (h : UpdateChannelCase B granted c w w') :
    ∃ op, w'.epoll.calls = w.epoll.calls ++
        [⟨op, (w.chan c).fd, (w.epoll.interest (w.chan c).fd).isSome⟩] ∧
      (op = .add ↔ (w.chan c).index = kNew ∨ (w.chan c).index = kDel) := by
  cases h with
  | fresh hindex _ hupdate =>
    have h := hupdate.calls
    simp only [World.chan_setIndex_fd] at h
    exact ⟨.add, h, by simp [hindex]⟩
  | again hindex _ hupdate =>
    have h := hupdate.calls
    simp only [World.chan_setIndex_fd] at h
    exact ⟨.add, h, by simp [hindex]⟩
  | drop hnew hdel _ _ hupdate => exact ⟨.del, hupdate.calls, by simp [hnew, hdel]⟩
  | change hnew hdel _ _ hupdate => exact ⟨.mod, hupdate.calls, by simp [hnew, hdel]⟩

/-- `RemoveChannel` issues a `DEL` for a channel of index `kAdd` and nothing otherwise. -/
theorem RemoveChannelCase.calls (h : RemoveChannelCase B granted c w w') :
    (w.chan c).index ≠ kAdd ∧ w'.epoll.calls = w.epoll.calls ∨
      (w.chan c).index = kAdd ∧ w'.epoll.calls = w.epoll.calls ++
        [⟨.del, (w.chan c).fd, (w.epoll.interest (w.chan c).fd).isSome⟩] := by
  obtain ⟨m, hm⟩ := erased_eq (B := B) (w := w) (w.chan c).fd
  cases h with
  | registered _ hindex hupdate =>
    have h := hupdate.calls
    rw [hm] at h
    exact .inr ⟨hindex, h⟩
  | absent _ hindex =>
    refine .inl ⟨hindex, ?_⟩
    rw [hm]
    rfl

/-! ## `HaveChannel` and `Poll` -/

theorem haveChannel_ok_iff {b : Bool} :
    (haveChannel tid c).run w = .ok b w' ↔
      w.loopThread = tid ∧ b = (w.channelMap (w.chan c).fd == some c) ∧ w' = w := by
  unfold haveChannel
  simp only [bind_ok_iff, get_ok_iff, assertInLoopThread_ok_iff, pure_ok_iff, and_assoc,
    exists_and_left, exists_eq_left, exists_const]

theorem untouched_setRevents (events : Events) : Untouched w (w.setRevents c events) where
  index c' := by
    rw [World.setRevents, World.chan_setChannel]
    split <;> simp_all
  fd c' := by
    rw [World.setRevents, World.chan_setChannel]
    split <;> simp_all
  channelMap := rfl
  epoll := rfl

theorem untouched_fillFrom {events : List (EpollEvent κ)} {active out : List κ}
    (h : (fillFrom events active).run w = .ok out w') : Untouched w w' := by
  induction events generalizing w active with
  | nil =>
    obtain ⟨-, rfl⟩ := pure_ok_iff.mp h
    exact .refl _
  | cons e rest ih =>
    rcases e with ⟨_ | channel, revents⟩
    · exact (throw_ok_iff.mp h).elim
    · unfold fillFrom at h
      simp only [bind_ok_iff, modify_ok_iff, exists_const, exists_eq_left] at h
      exact (untouched_setRevents revents).trans (ih h)

theorem untouched_poll {res : WaitResult κ} {now : Int} {active : List κ} {out : Int × List κ}
    (h : (poll B res now active).run w = .ok out w') : Untouched w w' := by
  cases res with
  | ready events =>
    unfold poll at h
    simp only [bind_ok_iff, modify_ok_iff, exists_const, exists_eq_left] at h
    have hfill : Untouched w (w.fillEvents events) := ⟨fun _ => rfl, fun _ => rfl, rfl, rfl⟩
    by_cases hn : 0 < events.length
    · rw [if_pos hn] at h
      simp only [fillActiveChannels, bind_ok_iff, get_ok_iff, Build.assert_ok_iff, and_assoc,
        exists_eq_left, exists_and_left, exists_const] at h
      obtain ⟨_, active', w₁, hfrom, h⟩ := h
      have hkept := hfill.trans (untouched_fillFrom hfrom)
      split at h
      · -- the list is doubled
        simp only [bind_ok_iff, modify_ok_iff, pure_ok_iff, exists_const, exists_eq_left] at h
        obtain ⟨-, rfl⟩ := h
        exact hkept.trans ⟨fun _ => rfl, fun _ => rfl, rfl, rfl⟩
      · obtain ⟨-, rfl⟩ := pure_ok_iff.mp h
        exact hkept
    · rw [if_neg hn] at h
      obtain ⟨-, rfl⟩ := pure_ok_iff.mp h
      exact hfill
  | failed errno =>
    unfold poll at h
    simp only at h
    split at h
    · simp only [bind_ok_iff, logSys_ok_iff, pure_ok_iff, and_assoc, exists_and_left,
        exists_eq_left, exists_const] at h
      obtain ⟨_, -, rfl⟩ := h
      exact ⟨fun _ => rfl, fun _ => rfl, rfl, rfl⟩
    · obtain ⟨-, rfl⟩ := pure_ok_iff.mp h
      exact .refl _

/-- `Poll` too: its one assert is in `FillActiveChannels`. -/
theorem poll_weaken {B' : Build} (hlevel : B'.sysLevel = B.sysLevel)
    (hasserts : B'.asserts = true → B.asserts = true) {res : WaitResult κ} {now : Int}
    {active : List κ} {out : Int × List κ} (h : (poll B res now active).run w = .ok out w') :
    (poll B' res now active).run w = .ok out w' := by
  cases res with
  | ready events =>
    unfold poll fillActiveChannels at h ⊢
    simp only [bind_ok_iff, modify_ok_iff, exists_const, exists_eq_left] at h ⊢
    by_cases hn : 0 < events.length
    · rw [if_pos hn] at h ⊢
      simp only [bind_ok_iff, get_ok_iff, Build.assert_ok_iff, and_assoc, exists_eq_left,
        exists_and_left, exists_const] at h ⊢
      obtain ⟨hsize, hrest⟩ := h
      exact ⟨fun h => hsize (hasserts h), hrest⟩
    · rw [if_neg hn] at h ⊢
      exact h
  | failed errno =>
    have hlog (isAbort : Bool) (message : String) :
        (logSys B' isAbort message : Method κ Unit) = logSys B isAbort message := by
      unfold logSys
      rw [hlevel]
    unfold poll at h ⊢
    rw [hlog]
    exact h

/-- A failed `epoll_wait` ends the process exactly when its errno is not `EINTR` and the record's
level aborts; a `Poll` that returns has touched neither list. -/
theorem poll_failed_ok_iff {errno now : Int} {active : List κ} {out : Int × List κ} :
    (poll B (.failed errno) now active).run w = .ok out w' ↔
      out = (now, active) ∧ (errno = EINTR ∧ w' = w ∨ errno ≠ EINTR ∧
        (B.sysLevel false).aborts = false ∧
        w' = w.logged (B.sysLevel false) "EpollPoller::Poll()") := by
  unfold poll
  by_cases hintr : errno = EINTR
  · simp only [hintr, ne_eq, not_true, if_false, pure_ok_iff, true_and, false_and, or_false]
  · simp only [hintr, ne_eq, not_false_iff, if_true, bind_ok_iff, logSys_ok_iff, pure_ok_iff,
      exists_and_left, exists_eq_left, exists_const, true_and, false_and, false_or, and_assoc]
    exact and_left_comm

end EpollPoller

end TurboNet.Net
