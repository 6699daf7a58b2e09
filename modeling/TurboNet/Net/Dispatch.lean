/-
# TurboNet.Net.Dispatch — `Channel::HandleEvent` and the callbacks it runs.

`HandleEvent` puts four tests to `revents_`, each followed by its callback, between two assignments of
`event_handing_`.  A callback is code of the user: it may enable and disable channels, set callbacks
and masks, let the poller run, destroy channels, call `HandleEvent` again, of its own channel or of
another, and leave by an exception, which some callback further out or the loop catches.  So the
activations of `HandleEvent` form a stack; a step is one test or assignment of the innermost one, or
whatever the running callback does next.

`called` has the callbacks that were run, each with its activation and with the mask it was run on.
-/
import TurboNet.Net.ChannelInterest

namespace TurboNet.Net

open TurboNet.Lib
open TurboNet.Logger
open EpollPoller (WaitResult fillFrom poll)

/-- The four callbacks of a channel. -/
inductive Slot where
  | read
  | write
  | close
  | error
  deriving DecidableEq, Repr

namespace Slot

/-- In the order in which `HandleEvent` comes to them. -/
def all : List Slot := [.read, .write, .close, .error]

/-- The test before the callback. -/
def wants : Slot → Events → Bool
  | .read, revents => revents &&& (EPOLLIN ||| EPOLLPRI ||| EPOLLRDHUP) != 0
  | .write, revents => revents &&& EPOLLOUT != 0
  | .close, revents => revents &&& EPOLLHUP != 0 && !(revents &&& EPOLLIN != 0)
  | .error, revents => revents &&& EPOLLERR != 0

/-- How many tests come before the slot's. -/
def rank : Slot → Nat
  | .read => 0
  | .write => 1
  | .close => 2
  | .error => 3

end Slot

/-- Where an activation of `HandleEvent` stands. -/
inductive Stage where
  /-- Before the test of a callback. -/
  | testing (slot : Slot)
  /-- In the callback. -/
  | calling (slot : Slot)
  /-- Before `event_handing_ = false`. -/
  | leaving
  deriving DecidableEq, Repr

/-- What comes after the callback of a slot, or after its test. -/
def Slot.after : Slot → Stage
  | .read => .testing .write
  | .write => .testing .close
  | .close => .testing .error
  | .error => .leaving

/-- A call of `HandleEvent` that has not returned. -/
structure Activation (κ : Type) where
  id : Nat
  channel : κ
  stage : Stage
  deriving DecidableEq, Repr

/-- A callback that was run. -/
structure Called (κ : Type) where
  id : Nat
  channel : κ
  slot : Slot
  revents : Events
  deriving DecidableEq, Repr

/-- The reactor with the callbacks that are set, the channels that exist, the activations, innermost
first, and how many there have been. -/
structure Dispatcher (κ : Type) where
  world : World κ
  callBacks : κ → Slot → Bool
  alive : κ → Bool
  stack : List (Activation κ)
  started : Nat
  called : List (Called κ)

variable {κ : Type} [DecidableEq κ]

def World.setEventHanding (w : World κ) (c : κ) (b : Bool) : World κ :=
  w.setChannel c { w.chan c with eventHanding := b }

namespace Dispatcher

/-- A reactor outside of `HandleEvent`, without callbacks. -/
def start (w : World κ) : Dispatcher κ where
  world := w
  callBacks := fun _ _ => false
  alive := fun _ => true
  stack := []
  started := 0
  called := []

/-- Is it the user's code that runs? -/
def runsCode (s : Dispatcher κ) : Bool :=
  match s.stack with
  | [] => true
  | ⟨_, _, .calling _⟩ :: _ => true
  | _ => false

def setStage (s : Dispatcher κ) (id : Nat) (c : κ) (rest : List (Activation κ)) (stage : Stage) :
    Dispatcher κ :=
  { s with stack := ⟨id, c, stage⟩ :: rest }

/-- What the user's code does with the reactor. -/
inductive Visit (κ : Type) where
  | toggle (t : Toggle) (granted : Bool) (c : κ)
  | setRevents (c : κ) (events : Events)
  | poll (res : WaitResult κ) (now : Int)

/-- The channels whose members it uses. -/
def Visit.uses : Visit κ → List κ
  | .toggle _ _ c | .setRevents c _ => [c]
  | .poll (.ready events) _ => events.filterMap (·.ptr)
  | .poll (.failed _) _ => []

def Visit.method (B : Build) (tid : Int) : Visit κ → Method κ Unit
  | .toggle t granted c => Channel.assignEvents B tid granted t.mask c
  | .setRevents c events => modify (·.setRevents c events)
  | .poll res now => do
    let _ ← EpollPoller.poll B res now []

/-- A step of the user's code or of the innermost `HandleEvent`. -/
inductive Act (κ : Type) where
  | handle (c : κ)
  | advance
  | return_
  /-- An exception leaves `n` activations. -/
  | raise (n : Nat)
  | visit (v : Visit κ)
  | setCallBack (c : κ) (slot : Slot) (b : Bool)
  | destroy (c : κ)

/-- `HandleEvent` called by the running code. -/
def entered (s : Dispatcher κ) (c : κ) : Dispatcher κ :=
  { s with
    world := s.world.setEventHanding c true
    stack := ⟨s.started, c, .testing .read⟩ :: s.stack
    started := s.started + 1 }

/-- The callback of a slot is run. -/
def invoked (s : Dispatcher κ) (id : Nat) (c : κ) (slot : Slot) (rest : List (Activation κ)) :
    Dispatcher κ :=
  { s with
    stack := ⟨id, c, .calling slot⟩ :: rest
    called := s.called ++ [⟨id, c, slot, (s.world.chan c).revents⟩] }

/-- `HandleEvent` returns. -/
def left (s : Dispatcher κ) (c : κ) (rest : List (Activation κ)) : Dispatcher κ :=
  { s with world := s.world.setEventHanding c false, stack := rest }

/-- A member of a channel that is gone cannot be used. -/
def step (B : Build) (tid : Int) (s : Dispatcher κ) : Act κ → Option (Dispatcher κ)
  | .handle c => if s.runsCode ∧ s.alive c then some (s.entered c) else none
  | .advance =>
    match s.stack with
    | ⟨id, c, .testing slot⟩ :: rest =>
      if s.alive c then
        if slot.wants (s.world.chan c).revents ∧ s.callBacks c slot then
          some (s.invoked id c slot rest)
        else some (s.setStage id c rest slot.after)
      else none
    | ⟨_, c, .leaving⟩ :: rest => if s.alive c then some (s.left c rest) else none
    | _ => none
  | .return_ =>
    match s.stack with
    | ⟨id, c, .calling slot⟩ :: rest => some (s.setStage id c rest slot.after)
    | _ => none
  | .raise n =>
    if s.runsCode ∧ n ≤ s.stack.length then some { s with stack := s.stack.drop n } else none
  | .visit v =>
    if s.runsCode ∧ ∀ c ∈ v.uses, s.alive c then
      match (v.method B tid).run s.world with
      | .ok _ w => some { s with world := w }
      | .error _ _ => none
    else none
  | .setCallBack c slot b =>
    if s.runsCode ∧ s.alive c then
      some { s with
        callBacks := Function.update s.callBacks c (Function.update (s.callBacks c) slot b) }
    else none
  | .destroy c =>
    if s.runsCode ∧ s.alive c then
      match (Channel.destroy B tid c).run s.world with
      | .ok _ w => some { s with world := w, alive := Function.update s.alive c false }
      | .error _ _ => none
    else none

end Dispatcher

/-- The runs of the activations. -/
def dispatchRuns (κ : Type) [DecidableEq κ] (B : Build) (tid : Int) :
    StepSystem (Dispatcher κ) (Dispatcher.Act κ) where
  step := Dispatcher.step B tid

open Dispatcher

variable {B : Build} {tid : Int} {s s' : Dispatcher κ}

/-! ## One step -/

/-- The steps, by their kind. -/
inductive DispatchStep (B : Build) (tid : Int) (s : Dispatcher κ) : Act κ → Dispatcher κ → Prop
  | entered {c : κ} (hcode : s.runsCode = true) (halive : s.alive c = true) :
      DispatchStep B tid s (.handle c) (s.entered c)
  | invoked {id : Nat} {c : κ} {slot : Slot} {rest : List (Activation κ)}
      (hstack : s.stack = ⟨id, c, .testing slot⟩ :: rest)
      (hwants : slot.wants (s.world.chan c).revents = true) (hset : s.callBacks c slot = true) :
      DispatchStep B tid s .advance (s.invoked id c slot rest)
  | skipped {id : Nat} {c : κ} {slot : Slot} {rest : List (Activation κ)}
      (hstack : s.stack = ⟨id, c, .testing slot⟩ :: rest)
      (hnot : ¬ (slot.wants (s.world.chan c).revents = true ∧ s.callBacks c slot = true)) :
      DispatchStep B tid s .advance (s.setStage id c rest slot.after)
  | left {id : Nat} {c : κ} {rest : List (Activation κ)} (hstack : s.stack = ⟨id, c, .leaving⟩ :: rest)
      (halive : s.alive c = true) : DispatchStep B tid s .advance (s.left c rest)
  | returned {id : Nat} {c : κ} {slot : Slot} {rest : List (Activation κ)}
      (hstack : s.stack = ⟨id, c, .calling slot⟩ :: rest) :
      DispatchStep B tid s .return_ (s.setStage id c rest slot.after)
  | raised (n : Nat) : DispatchStep B tid s (.raise n) { s with stack := s.stack.drop n }
  | visited {v : Visit κ} {w : World κ} (hrun : (v.method B tid).run s.world = .ok () w) :
      DispatchStep B tid s (.visit v) { s with world := w }
  | set (c : κ) (slot : Slot) (b : Bool) : DispatchStep B tid s (.setCallBack c slot b)
      { s with callBacks := Function.update s.callBacks c (Function.update (s.callBacks c) slot b) }
  | destroyed {c : κ} {w : World κ} (halive : s.alive c = true)
      (hrun : (Channel.destroy B tid c).run s.world = .ok () w) : DispatchStep B tid s (.destroy c)
      { s with world := w, alive := Function.update s.alive c false }

theorem dispatch_step_cases {act : Act κ} (h : (dispatchRuns κ B tid).step s act = some s') :
    DispatchStep B tid s act s' := by
  change Dispatcher.step B tid s act = some s' at h
  unfold Dispatcher.step at h
  split at h
  · split at h
    · rename_i hguard
      cases h
      exact .entered hguard.1 hguard.2
    · cases h
  · split at h
    · rename_i hstack
      split at h
      · split at h
        · rename_i hwants
          cases h
          exact .invoked hstack hwants.1 hwants.2
        · rename_i hnot
          cases h
          exact .skipped hstack hnot
      · cases h
    · rename_i hstack
      split at h
      · rename_i halive
        cases h
        exact .left hstack halive
      · cases h
    · cases h
  · split at h
    · rename_i hstack
      cases h
      exact .returned hstack
    · cases h
  · split at h
    · cases h
      exact .raised _
    · cases h
  · split at h
    · split at h
      · rename_i hrun
        cases h
        exact .visited hrun
      · cases h
    · cases h
  · split at h
    · cases h
      exact .set _ _ _
    · cases h
  · split at h
    · rename_i hguard
      split at h
      · rename_i hrun
        cases h
        exact .destroyed hguard.2 hrun
      · cases h
    · cases h

/-! ## The callbacks of an activation -/

/-- The slots an activation has come past have a smaller rank. -/
def Stage.bound : Stage → Nat
  | .testing slot => slot.rank
  | .calling slot => slot.rank + 1
  | .leaving => 4

theorem Slot.rank_lt_after (slot : Slot) : slot.rank < slot.after.bound := by
  cases slot <;> decide

/-- The slots of the callbacks that an activation has run, in order. -/
def Dispatcher.slotsOf (s : Dispatcher κ) (id : Nat) : List Slot :=
  (s.called.filter fun call => call.id = id).map (·.slot)

/-- Activations are numbered from outside in, each runs callbacks of its channel only, and one whose
slot it has not come past. -/
structure Ordered (s : Dispatcher κ) : Prop where
  nested : s.stack.Pairwise fun a b => b.id < a.id
  numbered : ∀ a ∈ s.stack, a.id < s.started
  calls : ∀ call ∈ s.called, call.id < s.started ∧ call.slot.wants call.revents = true
  own : ∀ a ∈ s.stack, ∀ call ∈ s.called, call.id = a.id →
    call.channel = a.channel ∧ call.slot.rank < a.stage.bound
  oneChannel : ∀ call ∈ s.called, ∀ call' ∈ s.called, call.id = call'.id →
    call.channel = call'.channel
  increasing : ∀ id, (s.slotsOf id).Pairwise fun x y => x.rank < y.rank

omit [DecidableEq κ] in
theorem ordered_start (w : World κ) : Ordered (Dispatcher.start w) where
  nested := .nil
  numbered := nofun
  calls := nofun
  own := nofun
  oneChannel := nofun
  increasing _ := .nil

omit [DecidableEq κ] in
/-- Steps that move the innermost activation on keep the order. -/
theorem Ordered.moved (h : Ordered s) {id : Nat} {c : κ} {stage stage' : Stage}
    {rest : List (Activation κ)} (hstack : s.stack = ⟨id, c, stage⟩ :: rest)
    (hbound : stage.bound ≤ stage'.bound) : Ordered (s.setStage id c rest stage') := by
  have hnested := h.nested
  have hnumbered := h.numbered
  have hown := h.own
  rw [hstack] at hnested hnumbered hown
  refine ⟨?_, ?_, h.calls, ?_, h.oneChannel, h.increasing⟩
  · exact List.pairwise_cons.mpr (List.pairwise_cons.mp hnested)
  · intro a ha
    rcases List.mem_cons.mp ha with rfl | ha
    · exact hnumbered ⟨id, c, stage⟩ List.mem_cons_self
    · exact hnumbered a (List.mem_cons_of_mem _ ha)
  · intro a ha call hcall hid
    rcases List.mem_cons.mp ha with rfl | ha
    · obtain ⟨hchannel, hrank⟩ := hown ⟨id, c, stage⟩ List.mem_cons_self call hcall hid
      exact ⟨hchannel, Nat.lt_of_lt_of_le hrank hbound⟩
    · exact hown a (List.mem_cons_of_mem _ ha) call hcall hid

omit [DecidableEq κ] in
/-- Activations that end leave the others as they are. -/
theorem Ordered.dropped (h : Ordered s) {world : World κ} (n : Nat) :
    Ordered { s with world := world, stack := s.stack.drop n } where
  nested := h.nested.sublist (List.drop_sublist _ _)
  numbered a ha := h.numbered a (List.mem_of_mem_drop ha)
  calls := h.calls
  own a ha := h.own a (List.mem_of_mem_drop ha)
  oneChannel := h.oneChannel
  increasing := h.increasing

theorem Ordered.entered (h : Ordered s) (c : κ) : Ordered (s.entered c) where
  nested := List.pairwise_cons.mpr ⟨fun a ha => h.numbered a ha, h.nested⟩
  numbered a ha := by
    rcases List.mem_cons.mp ha with rfl | ha
    · exact Nat.lt_succ_self _
    · exact Nat.lt_succ_of_lt (h.numbered a ha)
  calls call hcall := ⟨Nat.lt_succ_of_lt (h.calls call hcall).1, (h.calls call hcall).2⟩
  own a ha call hcall hid := by
    rcases List.mem_cons.mp ha with rfl | ha
    · -- nothing was called under a new number
      exact absurd hid (Nat.ne_of_lt (h.calls call hcall).1)
    · exact h.own a ha call hcall hid
  oneChannel := h.oneChannel
  increasing := h.increasing

omit [DecidableEq κ] in
theorem slotsOf_invoked (id id' : Nat) (c : κ) (slot : Slot) (rest : List (Activation κ)) :
    (s.invoked id c slot rest).slotsOf id' =
      s.slotsOf id' ++ if id = id' then [slot] else [] := by
  unfold Dispatcher.slotsOf Dispatcher.invoked
  rw [List.filter_append, List.map_append]
  by_cases hid : id = id'
  · simp [hid]
  · simp [hid]

omit [DecidableEq κ] in
theorem Ordered.invoked (h : Ordered s) {id : Nat} {c : κ} {slot : Slot}
    {rest : List (Activation κ)} (hstack : s.stack = ⟨id, c, .testing slot⟩ :: rest)
    (hwants : slot.wants (s.world.chan c).revents = true) : Ordered (s.invoked id c slot rest) := by
  have hmoved : Ordered (s.setStage id c rest (.calling slot)) := h.moved hstack (Nat.le_succ _)
  have hnested := h.nested
  have htop : (⟨id, c, .testing slot⟩ : Activation κ) ∈ s.stack := hstack ▸ List.mem_cons_self
  rw [hstack] at hnested
  have hnew : ∀ call ∈ s.called ++ [⟨id, c, slot, (s.world.chan c).revents⟩],
      call ∈ s.called ∨ call = ⟨id, c, slot, (s.world.chan c).revents⟩ := by
    intro call hcall
    rcases List.mem_append.mp hcall with hcall | hcall
    · exact .inl hcall
    · exact .inr (List.mem_singleton.mp hcall)
  refine ⟨hmoved.nested, hmoved.numbered, ?_, ?_, ?_, ?_⟩
  · intro call hcall
    rcases hnew call hcall with hcall | rfl
    · exact h.calls call hcall
    · exact ⟨h.numbered _ htop, hwants⟩
  · intro a ha call hcall hid
    rcases hnew call hcall with hcall | rfl
    · exact hmoved.own a ha call hcall hid
    · rcases List.mem_cons.mp ha with rfl | ha
      · exact ⟨rfl, Nat.lt_succ_self _⟩
      · -- the activations further out have other numbers
        exact absurd hid (Nat.ne_of_gt ((List.pairwise_cons.mp hnested).1 a ha))
  · intro call hcall call' hcall' hid
    rcases hnew call hcall with hcall | rfl
    · rcases hnew call' hcall' with hcall' | rfl
      · exact h.oneChannel call hcall call' hcall' hid
      · exact (h.own _ htop call hcall hid).1
    · rcases hnew call' hcall' with hcall' | rfl
      · exact (h.own _ htop call' hcall' hid.symm).1.symm
      · rfl
  · intro id'
    rw [slotsOf_invoked, List.pairwise_append]
    refine ⟨h.increasing id', ?_, ?_⟩
    · split
      · exact List.pairwise_singleton _ _
      · exact .nil
    · intro x hx y hy
      obtain ⟨call, hcall, rfl⟩ := List.mem_map.mp hx
      obtain ⟨hcall, hid⟩ := List.mem_filter.mp hcall
      split at hy
      · rename_i hsame
        obtain rfl := List.mem_singleton.mp hy
        exact (h.own _ htop call hcall ((of_decide_eq_true hid).trans hsame.symm)).2
      · cases hy

theorem ordered_step {act : Act κ} (h : Ordered s) (hstep : DispatchStep B tid s act s') :
    Ordered s' := by
  cases hstep with
  | entered => exact h.entered _
  | invoked hstack hwants _ => exact h.invoked hstack hwants
  | @skipped id c slot rest hstack _ => exact h.moved hstack (Nat.le_of_lt slot.rank_lt_after)
  | @returned id c slot rest hstack => exact h.moved hstack slot.rank_lt_after
  | @left id c rest hstack _ =>
    have hdropped : Ordered { s with
        world := s.world.setEventHanding c false, stack := s.stack.drop 1 } := h.dropped 1
    rwa [hstack] at hdropped
  | raised n => exact h.dropped n
  | visited => exact ⟨h.nested, h.numbered, h.calls, h.own, h.oneChannel, h.increasing⟩
  | set => exact ⟨h.nested, h.numbered, h.calls, h.own, h.oneChannel, h.increasing⟩
  | destroyed => exact ⟨h.nested, h.numbered, h.calls, h.own, h.oneChannel, h.increasing⟩

/-! ## An activation alone -/

/-- The step is one of `HandleEvent` itself, or the return of a callback that did nothing. -/
def Dispatcher.Act.Inner : Act κ → Prop
  | .advance | .return_ => True
  | _ => False

/-- Is the slot's callback to be run for `revents_`? -/
def Dispatcher.isDue (s : Dispatcher κ) (c : κ) (slot : Slot) : Bool :=
  slot.wants (s.world.chan c).revents && s.callBacks c slot

/-- The callbacks that `HandleEvent` has to run, in order. -/
def Dispatcher.due (s : Dispatcher κ) (c : κ) : List Slot :=
  Slot.all.filter (s.isDue c)

/-- `s` after the callbacks `slots` of `c`, with the activations `stack`. -/
def Dispatcher.ran (s : Dispatcher κ) (id : Nat) (c : κ) (slots : List Slot)
    (stack : List (Activation κ)) : Dispatcher κ :=
  { s with
    stack := stack
    called := s.called ++ slots.map fun slot => ⟨id, c, slot, (s.world.chan c).revents⟩ }

/-- One test, and the callback if it is due. -/
theorem pass_slot (B : Build) (tid : Int) {c : κ} (halive : s.alive c = true) (id : Nat)
    (slots : List Slot) (slot : Slot) (rest : List (Activation κ)) :
    ∃ acts, (∀ act ∈ acts, Act.Inner act) ∧
      (dispatchRuns κ B tid).exec (s.ran id c slots (⟨id, c, .testing slot⟩ :: rest)) acts =
        some (s.ran id c (slots ++ [slot].filter (s.isDue c)) (⟨id, c, slot.after⟩ :: rest)) := by
  by_cases hdue : slot.wants (s.world.chan c).revents = true ∧ s.callBacks c slot = true
  · refine ⟨[.advance, .return_], by simp [Act.Inner], ?_⟩
    have hinvoke : (dispatchRuns κ B tid).step (s.ran id c slots (⟨id, c, .testing slot⟩ :: rest))
        .advance = some (s.ran id c (slots ++ [slot]) (⟨id, c, .calling slot⟩ :: rest)) := by
      simp only [dispatchRuns, Dispatcher.step, Dispatcher.ran, if_pos halive, if_pos hdue,
        Dispatcher.invoked, List.map_append, List.append_assoc, List.map_cons, List.map_nil]
    refine StepSystem.exec_cons.mpr ⟨_, hinvoke, StepSystem.exec_cons.mpr ⟨_, rfl, ?_⟩⟩
    rw [List.filter_cons_of_pos (Bool.and_eq_true _ _ ▸ hdue)]
    rfl
  · refine ⟨[.advance], by simp [Act.Inner], StepSystem.exec_cons.mpr ⟨_, ?_, rfl⟩⟩
    have hskip : ¬ s.isDue c slot = true := fun h => hdue ((Bool.and_eq_true _ _).mp h)
    simp only [dispatchRuns, Dispatcher.step, Dispatcher.ran, if_pos halive, if_neg hdue,
      Dispatcher.setStage]
    rw [List.filter_cons_of_neg hskip, List.filter_nil, List.append_nil]

/-- The four tests in turn. -/
theorem pass_slots (B : Build) (tid : Int) {c : κ} (halive : s.alive c = true) (id : Nat)
    (rest : List (Activation κ)) :
    ∃ acts, (∀ act ∈ acts, Act.Inner act) ∧
      (dispatchRuns κ B tid).exec (s.ran id c [] (⟨id, c, .testing .read⟩ :: rest)) acts =
        some (s.ran id c (s.due c) (⟨id, c, .leaving⟩ :: rest)) := by
  have hpass := pass_slot B tid halive id
  have hdue : s.due c = [] ++ [.read].filter (s.isDue c) ++ [.write].filter (s.isDue c) ++
      [.close].filter (s.isDue c) ++ [.error].filter (s.isDue c) := by
    rw [List.nil_append, ← List.filter_append, ← List.filter_append, ← List.filter_append]
    rfl
  obtain ⟨reads, hreads, hread⟩ := hpass [] .read rest
  obtain ⟨writes, hwrites, hwrite⟩ := hpass ([] ++ [.read].filter (s.isDue c)) .write rest
  obtain ⟨closes, hcloses, hclose⟩ := hpass
    ([] ++ [.read].filter (s.isDue c) ++ [.write].filter (s.isDue c)) .close rest
  obtain ⟨errors, herrors, herror⟩ := hpass ([] ++ [.read].filter (s.isDue c) ++
    [.write].filter (s.isDue c) ++ [.close].filter (s.isDue c)) .error rest
  refine ⟨reads ++ (writes ++ (closes ++ errors)), ?_, ?_⟩
  · intro act hact
    simp only [List.mem_append] at hact
    rcases hact with hact | hact | hact | hact
    · exact hreads act hact
    · exact hwrites act hact
    · exact hcloses act hact
    · exact herrors act hact
  · rw [hdue]
    exact StepSystem.exec_append.mpr ⟨_, hread, StepSystem.exec_append.mpr ⟨_, hwrite,
      StepSystem.exec_append.mpr ⟨_, hclose, herror⟩⟩⟩

/-- `HandleEvent`, if its callbacks do nothing, runs those that are due and returns. -/
def HandlesAlone (B : Build) (tid : Int) (s : Dispatcher κ) (c : κ) : Prop :=
  ∃ acts s', (∀ act ∈ acts, Act.Inner act) ∧
    (dispatchRuns κ B tid).exec s (.handle c :: acts) = some s' ∧ s'.stack = s.stack ∧
      s'.world = (s.world.setEventHanding c true).setEventHanding c false ∧
      s'.called = s.called ++ (s.due c).map fun slot => ⟨s.started, c, slot, (s.world.chan c).revents⟩

theorem handles_alone {c : κ} (hcode : s.runsCode = true) (halive : s.alive c = true) :
    HandlesAlone B tid s c := by
  have hrevents : ((s.entered c).world.chan c).revents = (s.world.chan c).revents := by
    change ((s.world.setEventHanding c true).chan c).revents = _
    rw [World.setEventHanding, World.chan_setChannel, if_pos rfl]
  have hdue : (s.entered c).due c = s.due c := by
    unfold Dispatcher.due Dispatcher.isDue
    rw [hrevents]
    rfl
  have henter : (dispatchRuns κ B tid).step s (.handle c) =
      some ((s.entered c).ran s.started c [] (s.entered c).stack) := by
    simp only [dispatchRuns, Dispatcher.step, if_pos (And.intro hcode halive), Dispatcher.ran,
      List.map_nil, List.append_nil]
  obtain ⟨acts, hacts, hpass⟩ := pass_slots B tid (s := s.entered c) halive s.started s.stack
  have hleave : (dispatchRuns κ B tid).step ((s.entered c).ran s.started c ((s.entered c).due c)
      (⟨s.started, c, .leaving⟩ :: s.stack)) .advance =
        some (((s.entered c).ran s.started c ((s.entered c).due c)
          (⟨s.started, c, .leaving⟩ :: s.stack)).left c s.stack) := by
    simp only [dispatchRuns, Dispatcher.step, Dispatcher.ran]
    exact if_pos halive
  have hrun := StepSystem.exec_cons.mpr ⟨_, henter, StepSystem.exec_concat.mpr ⟨_, hpass, hleave⟩⟩
  refine ⟨_, _, ?_, hrun, ?_, ?_, ?_⟩
  · intro act hact
    rcases List.mem_append.mp hact with hact | hact
    · exact hacts act hact
    · rw [List.mem_singleton.mp hact]
      trivial
  · rfl
  · rfl
  · rw [← hdue, ← hrevents]
    rfl

/-- **The callbacks of `HandleEvent`.**  Whatever the callbacks do, toggle channels, set masks and
callbacks, poll, destroy channels, call `HandleEvent` again or throw: an activation runs callbacks of
the channel it is called on and of no other, each at most once and in the order read, write, close,
error, on a mask that asks for it.  If they do nothing, it runs all those that are due, and
returns. -/
theorem handleEvent_in_order (B : Build) (tid : Int) (w : World κ) {acts : List (Act κ)}
    {s : Dispatcher κ} (hrun : (dispatchRuns κ B tid).exec (Dispatcher.start w) acts = some s) :
    (∀ id, (s.slotsOf id).Pairwise fun x y => x.rank < y.rank) ∧
      (∀ call ∈ s.called, call.slot.wants call.revents = true) ∧
      (∀ call ∈ s.called, ∀ call' ∈ s.called, call.id = call'.id → call.channel = call'.channel) ∧
      (∀ a ∈ s.stack, ∀ call ∈ s.called, call.id = a.id → call.channel = a.channel) ∧
      ∀ c, s.runsCode = true → s.alive c = true → HandlesAlone B tid s c := by
  have hs : Ordered s := StepSystem.exec_invariant
    (fun _ _ _ h hstep => ordered_step h (dispatch_step_cases hstep)) (ordered_start w) hrun
  exact ⟨hs.increasing, fun call hcall => (hs.calls call hcall).2, hs.oneChannel,
    fun a ha call hcall hid => (hs.own a ha call hcall hid).1,
    fun c hcode halive => handles_alone hcode halive⟩

/-- A read callback that sets its channel's mask to `EPOLLHUP` and calls `HandleEvent` again. -/
def nestedHandling : List (Act Bool) :=
  [.visit (.setRevents true (EPOLLIN ||| EPOLLOUT)), .setCallBack true .read true,
    .setCallBack true .close true, .handle true, .advance, .visit (.setRevents true EPOLLHUP),
    .handle true, .advance, .advance, .advance, .return_, .advance, .advance, .return_, .advance,
    .advance, .return_]

theorem handleEvent_in_order_nested :
    ∃ s, (dispatchRuns Bool .debug 1).exec
        (Dispatcher.start (World.init 0 1 fun b => cond b 5 6)) nestedHandling = some s ∧
      (s.slotsOf 0).Pairwise fun x y => x.rank < y.rank := by
  have hsome : ((dispatchRuns Bool .debug 1).exec
      (Dispatcher.start (World.init 0 1 fun b => cond b 5 6)) nestedHandling).isSome = true := by
    decide +kernel
  obtain ⟨s, hrun⟩ := Option.isSome_iff_exists.mp hsome
  exact ⟨s, hrun, (handleEvent_in_order .debug 1 _ hrun).1 0⟩

/-! ## `event_handing_` -/

/-- `event_handing_` of every channel stays. -/
def KeepsHanding (w w' : World κ) : Prop :=
  ∀ c, (w'.chan c).eventHanding = (w.chan c).eventHanding

omit [DecidableEq κ] in
theorem KeepsHanding.trans (w₁ w₂ w₃ : World κ) (h : KeepsHanding w₁ w₂) (h' : KeepsHanding w₂ w₃) :
    KeepsHanding w₁ w₃ := fun c => (h' c).trans (h c)

variable {w w' : World κ}

theorem keepsHanding_setRevents (c : κ) (events : Events) :
    KeepsHanding w (w.setRevents c events) := by
  intro c'
  rw [World.setRevents, World.chan_setChannel]
  split
  next h => rw [h]
  · rfl

theorem keepsHanding_toggle {granted : Bool} {f : Events → Events} {c : κ}
    (h : (Channel.assignEvents B tid granted f c).run w = .ok () w') : KeepsHanding w w' := by
  obtain ⟨-, -, hupdate⟩ := assignEvents_ok_iff.mp h
  obtain ⟨i, m, r, -, htouches⟩ := hupdate.touches
  intro c'
  rw [htouches.chan]
  split
  next h => rw [h, World.chan_assigned_self]
  next hne => rw [World.chan_assigned_of_ne _ hne]

theorem effect_fillFrom (events : List (EpollEvent κ)) (active : List κ) (w : World κ) :
    Effect KeepsHanding (fun _ _ => True) w (fillFrom events active) := by
  induction events generalizing w active with
  | nil => exact effect_pure (fun _ => rfl) active
  | cons e rest ih =>
    rcases e with ⟨_ | channel, revents⟩
    · exact effect_throw trivial
    · exact effect_bind KeepsHanding.trans (effect_modify (keepsHanding_setRevents channel revents))
        fun _ w' _ => ih _ w'

theorem effect_poll (res : WaitResult κ) (now : Int) (active : List κ) (w : World κ) :
    Effect KeepsHanding (fun _ _ => True) w (poll B res now active) := by
  cases res with
  | ready events =>
    refine effect_bind KeepsHanding.trans (effect_modify fun _ => rfl) fun _ w₁ _ => ?_
    refine effect_ite (fun _ => ?_) (fun _ => effect_pure (fun _ => rfl) _)
    refine effect_bind KeepsHanding.trans (effect_get_bind ?_) fun active w₂ _ => ?_
    · exact effect_check_bind trivial fun _ => effect_fillFrom _ _ _
    · refine effect_get_bind (effect_ite (fun _ => ?_) (fun _ => effect_pure (fun _ => rfl) _))
      exact effect_bind KeepsHanding.trans (effect_modify fun _ => rfl)
        fun _ w₃ _ => effect_pure (fun _ => rfl) _
  | failed errno =>
    refine effect_ite (fun _ => ?_) (fun _ => effect_pure (fun _ => rfl) _)
    refine effect_bind KeepsHanding.trans ?_ fun _ w₁ _ => effect_pure (fun _ => rfl) _
    exact effect_bind KeepsHanding.trans (effect_modify fun _ => rfl)
      fun _ w₂ _ => effect_check (fun _ => rfl) trivial

theorem keepsHanding_visit {v : Visit κ} (h : (v.method B tid).run w = .ok () w') :
    KeepsHanding w w' := by
  cases v with
  | toggle t granted c => exact keepsHanding_toggle h
  | setRevents c events =>
    obtain rfl := modify_ok_iff.mp h
    exact keepsHanding_setRevents c events
  | poll res now =>
    obtain ⟨out, w₁, hpoll, h⟩ := bind_ok_iff.mp h
    obtain ⟨-, rfl⟩ := pure_ok_iff.mp h
    exact (effect_poll res now [] w).returns hpoll

/-- `~Channel` changes nothing; in a build with asserts it finds `event_handing_` unset. -/
theorem destroy_ok {c : κ} (h : (Channel.destroy B tid c).run w = .ok () w') :
    w' = w ∧ (B.asserts = true → (w.chan c).eventHanding = false) := by
  unfold Channel.destroy at h
  rw [run_get_bind] at h
  obtain ⟨_, _, hhanding, h⟩ := bind_ok_iff.mp h
  obtain ⟨hhanding, rfl⟩ := Build.assert_ok_iff.mp hhanding
  obtain ⟨_, _, hadded, h⟩ := bind_ok_iff.mp h
  obtain ⟨-, rfl⟩ := Build.assert_ok_iff.mp hadded
  refine ⟨?_, hhanding⟩
  split at h
  · obtain ⟨have_, w₁, hhave, h⟩ := bind_ok_iff.mp h
    obtain ⟨-, rfl⟩ := check_ok_iff.mp h
    unfold EventLoop.haveChannel EventLoop.assertOwner at hhave
    simp only [bind_ok_iff, get_ok_iff, Build.assert_ok_iff, assertInLoopThread_ok_iff,
      EpollPoller.haveChannel_ok_iff, and_assoc, exists_and_left, exists_eq_left, exists_const] at hhave
    exact hhave.2.2.2.2
  · exact (pure_ok_iff.mp h).2

/-- `event_handing_` of a channel says whether a `HandleEvent` of it has yet to return. -/
def Truthful (s : Dispatcher κ) : Prop :=
  ∀ c, s.alive c = true → ((s.world.chan c).eventHanding = true ↔ c ∈ s.stack.map (·.channel))

/-- The step ends the last activation of a channel, if it returns; if it throws, it leaves none of a
channel without the others. -/
def Tidy (s : Dispatcher κ) : Act κ → Prop
  | .advance =>
    match s.stack with
    | ⟨_, c, .leaving⟩ :: rest => c ∉ rest.map (·.channel)
    | _ => True
  | .raise n =>
    ∀ a ∈ s.stack.take n, s.alive a.channel = true → a.channel ∈ (s.stack.drop n).map (·.channel)
  | _ => True

instance (s : Dispatcher κ) : (act : Act κ) → Decidable (Tidy s act)
  | .advance =>
    match h : s.stack with
    | ⟨_, c, .leaving⟩ :: rest =>
      decidable_of_iff (c ∉ rest.map (·.channel)) (by simp only [Tidy, h])
    | ⟨_, _, .testing _⟩ :: _ | ⟨_, _, .calling _⟩ :: _ | [] => .isTrue (by simp only [Tidy, h])
  | .raise n => inferInstanceAs (Decidable (∀ a ∈ s.stack.take n, s.alive a.channel = true →
      a.channel ∈ (s.stack.drop n).map (·.channel)))
  | .handle _ | .return_ | .visit _ | .setCallBack _ _ _ | .destroy _ => .isTrue trivial

omit [DecidableEq κ] in
theorem truthful_start (loopAddr : Nat) (fds : κ → Fd) :
    Truthful (Dispatcher.start (World.init loopAddr tid fds)) := by
  intro c _
  simp [Dispatcher.start, World.init, Channel.construct]

theorem World.eventHanding_setEventHanding (w : World κ) (c c' : κ) (b : Bool) :
    ((w.setEventHanding c b).chan c').eventHanding =
      if c' = c then b else (w.chan c').eventHanding := by
  rw [setEventHanding, chan_setChannel]
  split <;> rfl

omit [DecidableEq κ] in
/-- With the innermost activation at another stage the same channels are being handled. -/
theorem Truthful.moved (h : Truthful s) {id : Nat} {c : κ} {stage stage' : Stage}
    {rest : List (Activation κ)} (hstack : s.stack = ⟨id, c, stage⟩ :: rest) :
    Truthful (s.setStage id c rest stage') := by
  intro c' halive
  have h := h c' halive
  rw [hstack] at h
  exact h

theorem Truthful.entered (h : Truthful s) (c : κ) : Truthful (s.entered c) := by
  intro c' halive
  have h := h c' halive
  simp only [Dispatcher.entered, World.eventHanding_setEventHanding, List.map_cons, List.mem_cons]
  by_cases hc : c' = c
  · simp [hc]
  · simp [hc, h]

/-- After `event_handing_ = false` the flag is right if no other activation of the channel is left. -/
theorem truthful_left_iff (h : Truthful s) {id : Nat} {c : κ} {rest : List (Activation κ)}
    (hstack : s.stack = ⟨id, c, .leaving⟩ :: rest) (halive : s.alive c = true) :
    Truthful (s.left c rest) ↔ c ∉ rest.map (·.channel) := by
  constructor
  · intro h' hmem
    have hset := (h' c halive).mpr hmem
    rw [Dispatcher.left, World.eventHanding_setEventHanding, if_pos rfl] at hset
    cases hset
  · intro hlast c' halive'
    have h := h c' halive'
    rw [hstack, List.map_cons, List.mem_cons] at h
    rw [Dispatcher.left, World.eventHanding_setEventHanding]
    by_cases hc : c' = c
    · subst hc
      simp [hlast]
    · rw [if_neg hc, h]
      simp [hc]

omit [DecidableEq κ] in
/-- An exception leaves the flags as they are. -/
theorem truthful_raised_iff (h : Truthful s) (n : Nat) :
    Truthful { s with stack := s.stack.drop n } ↔
      ∀ a ∈ s.stack.take n, s.alive a.channel = true →
        a.channel ∈ (s.stack.drop n).map (·.channel) := by
  constructor
  · intro h' a ha halive
    have hmem : a.channel ∈ s.stack.map (·.channel) :=
      List.mem_map_of_mem (List.mem_of_mem_take ha)
    exact (h' a.channel halive).mp ((h a.channel halive).mpr hmem)
  · intro hstays c halive
    have h := h c halive
    refine h.trans ⟨fun hmem => ?_, fun hmem => ?_⟩
    · obtain ⟨a, ha, rfl⟩ := List.mem_map.mp hmem
      rw [← List.take_append_drop n s.stack, List.mem_append] at ha
      rcases ha with ha | ha
      · exact hstays a ha halive
      · exact List.mem_map_of_mem ha
    · obtain ⟨a, ha, rfl⟩ := List.mem_map.mp hmem
      exact List.mem_map_of_mem (List.mem_of_mem_drop ha)

/-- Which steps keep the flags right. -/
theorem truthful_step_iff {act : Act κ} (h : Truthful s) (hstep : DispatchStep B tid s act s') :
    Truthful s' ↔ Tidy s act := by
  cases hstep with
  | @entered c => exact iff_of_true (h.entered c) trivial
  | @invoked id c slot rest hstack =>
    have hmoved : Truthful (s.setStage id c rest (.calling slot)) := h.moved hstack
    refine iff_of_true hmoved ?_
    simp only [Tidy, hstack]
  | @skipped id c slot rest hstack =>
    refine iff_of_true (h.moved hstack) ?_
    simp only [Tidy, hstack]
  | @left id c rest hstack halive =>
    rw [truthful_left_iff h hstack halive]
    simp only [Tidy, hstack]
  | returned hstack => exact iff_of_true (h.moved hstack) trivial
  | raised n => exact truthful_raised_iff h n
  | visited hrun =>
    refine iff_of_true (fun c halive => ?_) trivial
    rw [keepsHanding_visit hrun c]
    exact h c halive
  | set => exact iff_of_true h trivial
  | @destroyed c w halive hrun =>
    refine iff_of_true (fun c' halive' => ?_) trivial
    obtain ⟨rfl, -⟩ := destroy_ok hrun
    have hne : c' ≠ c := by
      rintro rfl
      simp at halive'
    change Function.update s.alive c false c' = true at halive'
    rw [Function.update_of_ne hne] at halive'
    exact h c' halive'

/-- A build with asserts destroys no channel that is being handled, while the flags are right. -/
theorem handled_alive_step (hB : B.asserts = true) {act : Act κ} (htruthful : Truthful s)
    (halive : ∀ a ∈ s.stack, s.alive a.channel = true) (hstep : DispatchStep B tid s act s') :
    ∀ a ∈ s'.stack, s'.alive a.channel = true := by
  have hmoved : ∀ {id : Nat} {c : κ} {stage stage' : Stage} {rest : List (Activation κ)},
      s.stack = ⟨id, c, stage⟩ :: rest → ∀ a ∈ ⟨id, c, stage'⟩ :: rest, s.alive a.channel = true := by
    intro id c stage stage' rest hstack a ha
    rw [hstack] at halive
    rcases List.mem_cons.mp ha with rfl | ha
    · exact halive ⟨id, c, stage⟩ List.mem_cons_self
    · exact halive a (List.mem_cons_of_mem _ ha)
  cases hstep with
  | entered _ hc =>
    intro a ha
    rcases List.mem_cons.mp ha with rfl | ha
    · exact hc
    · exact halive a ha
  | invoked hstack => exact hmoved hstack
  | skipped hstack => exact hmoved hstack
  | left hstack => exact fun a ha => halive a (hstack ▸ List.mem_cons_of_mem _ ha)
  | returned hstack => exact hmoved hstack
  | raised n => exact fun a ha => halive a (List.mem_of_mem_drop ha)
  | visited => exact halive
  | set => exact halive
  | @destroyed c w hc hrun =>
    intro a ha
    change Function.update s.alive c false a.channel = true
    have hne : a.channel ≠ c := by
      rintro rfl
      -- its flag is set
      have hset := (htruthful a.channel hc).mpr (List.mem_map_of_mem ha)
      rw [(destroy_ok hrun).2 hB] at hset
      cases hset
    rw [Function.update_of_ne hne]
    exact halive a ha

/-- **`event_handing_`.**  In every run the flag of every channel says throughout whether the channel
is being handled exactly when no `HandleEvent` returns into another one of its channel and no
exception takes the last `HandleEvent` of a channel with it.  In such runs the asserts of `~Channel`
keep every channel that is being handled. -/
theorem eventHanding_truthful_iff (B : Build) (loopAddr : Nat) (tid : Int) (fds : κ → Fd)
    {acts : List (Act κ)} {s : Dispatcher κ}
    (hrun : (dispatchRuns κ B tid).exec (Dispatcher.start (World.init loopAddr tid fds)) acts =
      some s) :
    ((dispatchRuns κ B tid).Throughout Truthful (Dispatcher.start (World.init loopAddr tid fds)) acts ↔
        (dispatchRuns κ B tid).Along Tidy (Dispatcher.start (World.init loopAddr tid fds)) acts) ∧
      (B.asserts = true →
        (dispatchRuns κ B tid).Along Tidy (Dispatcher.start (World.init loopAddr tid fds)) acts →
          ∀ a ∈ s.stack, s.alive a.channel = true) := by
  constructor
  · refine StepSystem.throughout_iff_along (J := fun _ => True) (fun _ _ _ _ _ => trivial) ?_ ?_
      trivial (truthful_start loopAddr fds) hrun
    · intro s act s' _ htruthful htidy hstep
      exact (truthful_step_iff htruthful (dispatch_step_cases hstep)).mpr htidy
    · intro s act s' _ htruthful hstep htruthful'
      exact (truthful_step_iff htruthful (dispatch_step_cases hstep)).mp htruthful'
  · intro hB hcond
    have hboth : Truthful s ∧ ∀ a ∈ s.stack, s.alive a.channel = true := by
      refine StepSystem.exec_invariant_along
        (I := fun s => Truthful s ∧ ∀ a ∈ s.stack, s.alive a.channel = true) ?_
        ⟨truthful_start loopAddr fds, nofun⟩ hcond hrun
      intro s act s' h htidy hstep
      have hstep := dispatch_step_cases hstep
      exact ⟨(truthful_step_iff h.1 hstep).mpr htidy, handled_alive_step hB h.1 h.2 hstep⟩
    exact hboth.2

/-- A read callback that handles another channel, and destroys it, before it returns. -/
def othersHandling : List (Act Bool) :=
  [.visit (.setRevents true EPOLLIN), .setCallBack true .read true, .handle true, .advance,
    .handle false, .advance, .advance, .advance, .advance, .advance, .destroy false, .return_]

theorem eventHanding_truthful_others :
    ∃ s, (dispatchRuns Bool .debug 1).exec
        (Dispatcher.start (World.init 0 1 fun b => cond b 5 6)) othersHandling = some s ∧
      (dispatchRuns Bool .debug 1).Throughout Truthful
        (Dispatcher.start (World.init 0 1 fun b => cond b 5 6)) othersHandling ∧
      ∀ a ∈ s.stack, s.alive a.channel = true := by
  have hsome : ((dispatchRuns Bool .debug 1).exec
      (Dispatcher.start (World.init 0 1 fun b => cond b 5 6)) othersHandling).isSome = true := by
    decide +kernel
  have htidy : (dispatchRuns Bool .debug 1).Along Tidy
      (Dispatcher.start (World.init 0 1 fun b => cond b 5 6)) othersHandling := by
    decide +kernel
  obtain ⟨s, hrun⟩ := Option.isSome_iff_exists.mp hsome
  have h := eventHanding_truthful_iff .debug 0 1 (fun b => cond b 5 6) hrun
  exact ⟨s, hrun, h.1.mpr htidy, h.2 rfl htidy⟩

end TurboNet.Net
