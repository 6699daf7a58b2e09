/-
# TurboNet.Net.Epoll — the kernel's side of an epoll descriptor.

The interest set maps a descriptor to the `epoll_event` registered for it: a mask and the user's
`data.ptr`.  `ctl` is `epoll_ctl(2)`.  It fails with `EEXIST` or `ENOENT` when the call does not fit
the set; an `ADD` or `MOD` that fits may still be refused (`ENOMEM`, `ENOSPC`, `EPERM`), which is the
schedule's choice `granted`; a `DEL` fails only when the descriptor is not registered.  Every call is
recorded with whether its descriptor was registered when it was issued.

The set also loses a descriptor that is closed, without any call on it (`close`); what may come
between two calls is for the runs of a module to say.
-/
import Mathlib.Logic.Function.Basic

namespace TurboNet.Net

/-- A file descriptor. -/
abbrev Fd := Int

/-- An `int` of event flags. -/
abbrev Events := BitVec 32

/-- The flags of `<sys/epoll.h>` that the library uses. -/
def EPOLLIN : Events := 0x001
def EPOLLPRI : Events := 0x002
def EPOLLOUT : Events := 0x004
def EPOLLERR : Events := 0x008
def EPOLLHUP : Events := 0x010
def EPOLLRDHUP : Events := 0x2000

/-- `EPOLL_CTL_ADD`, `EPOLL_CTL_MOD` and `EPOLL_CTL_DEL`. -/
inductive EpollOp where
  | add
  | mod
  | del
  deriving DecidableEq, Repr

/-- A registered `struct epoll_event`, with `κ` the addresses that `data.ptr` can hold. -/
structure Registration (κ : Type) where
  ptr : κ
  events : Events
  deriving DecidableEq, Repr

/-- An `epoll_ctl` as it was issued. -/
structure CtlCall where
  op : EpollOp
  fd : Fd
  present : Bool
  deriving DecidableEq, Repr

/-- `ADD` is issued for an absent descriptor, `MOD` and `DEL` for a present one. -/
def CtlCall.Fits (call : CtlCall) : Prop :=
  match call.op with
  | .add => call.present = false
  | .mod | .del => call.present = true

instance (call : CtlCall) : Decidable call.Fits := by
  unfold CtlCall.Fits
  cases call.op <;> infer_instance

/-- The kernel's state of one epoll descriptor. -/
structure Epoll (κ : Type) where
  interest : Fd → Option (Registration κ)
  calls : List CtlCall

namespace Epoll

variable {κ : Type}

/-- No descriptor is registered and no call was made. -/
def empty : Epoll κ := { interest := fun _ => none, calls := [] }

/-- Does `epoll_ctl(op, fd)` succeed? -/
def succeeds (k : Epoll κ) (granted : Bool) (op : EpollOp) (fd : Fd) : Bool :=
  match op with
  | .add => (k.interest fd).isNone && granted
  | .mod => (k.interest fd).isSome && granted
  | .del => (k.interest fd).isSome

/-- What a successful call leaves registered for its descriptor. -/
def registered (op : EpollOp) (event : Registration κ) : Option (Registration κ) :=
  match op with
  | .add | .mod => some event
  | .del => none

/-- The call goes on record. -/
def recorded (k : Epoll κ) (op : EpollOp) (fd : Fd) : Epoll κ :=
  { k with calls := k.calls ++ [{ op := op, fd := fd, present := (k.interest fd).isSome }] }

/-- The kernel after a call; a call that fails only goes on record. -/
def ctl (k : Epoll κ) (granted : Bool) (op : EpollOp) (fd : Fd) (event : Registration κ) :
    Epoll κ :=
  if k.succeeds granted op fd then
    { k.recorded op fd with interest := Function.update k.interest fd (registered op event) }
  else
    k.recorded op fd

/-- The descriptor is closed: what was registered for it is gone. -/
def close (k : Epoll κ) (fd : Fd) : Epoll κ :=
  { k with interest := Function.update k.interest fd none }

/-- What is registered for the descriptor of a call after it. -/
def after (k : Epoll κ) (granted : Bool) (op : EpollOp) (fd : Fd) (event : Registration κ) :
    Option (Registration κ) :=
  if k.succeeds granted op fd then registered op event else k.interest fd

/-- A call decides about its own descriptor and no other. -/
theorem ctl_interest (k : Epoll κ) (granted : Bool) (op : EpollOp) (fd : Fd)
    (event : Registration κ) :
    (k.ctl granted op fd event).interest =
      Function.update k.interest fd (k.after granted op fd event) := by
  unfold ctl after
  split
  · rfl
  · exact (Function.update_eq_self fd k.interest).symm

/-- After a `DEL` the descriptor is absent: it fails only when it was absent before. -/
@[simp] theorem after_del (k : Epoll κ) (granted : Bool) (fd : Fd) (event : Registration κ) :
    k.after granted .del fd event = none := by
  unfold after
  split
  · rfl
  next h => simpa [succeeds] using h

theorem after_of_succeeds {k : Epoll κ} {granted : Bool} {op : EpollOp} {fd : Fd}
    {event : Registration κ} (h : k.succeeds granted op fd = true) :
    k.after granted op fd event = registered op event := if_pos h

theorem after_of_not_succeeds {k : Epoll κ} {granted : Bool} {op : EpollOp} {fd : Fd}
    {event : Registration κ} (h : k.succeeds granted op fd = false) :
    k.after granted op fd event = k.interest fd := if_neg (by simp [h])

/-- What is registered afterwards is the event of the call or was registered before. -/
theorem after_cases {k : Epoll κ} {granted : Bool} {op : EpollOp} {fd : Fd}
    {event q : Registration κ} (h : k.after granted op fd event = some q) :
    q = event ∨ k.interest fd = some q := by
  unfold after at h
  split at h
  · left
    cases op with
    | add => exact (Option.some.inj h).symm
    | mod => exact (Option.some.inj h).symm
    | del => cases h
  · exact .inr h

/-- An `ADD` succeeds on an absent descriptor the kernel has room for. -/
theorem succeeds_add_iff {k : Epoll κ} {granted : Bool} {fd : Fd} :
    k.succeeds granted .add fd = true ↔ k.interest fd = none ∧ granted = true := by
  simp [succeeds]

theorem succeeds_mod_iff {k : Epoll κ} {granted : Bool} {fd : Fd} :
    k.succeeds granted .mod fd = true ↔ (k.interest fd).isSome ∧ granted = true := by
  simp [succeeds]

theorem succeeds_del_iff {k : Epoll κ} {granted : Bool} {fd : Fd} :
    k.succeeds granted .del fd = true ↔ (k.interest fd).isSome := Iff.rfl

@[simp] theorem ctl_calls (k : Epoll κ) (granted : Bool) (op : EpollOp) (fd : Fd)
    (event : Registration κ) :
    (k.ctl granted op fd event).calls =
      k.calls ++ [{ op := op, fd := fd, present := (k.interest fd).isSome }] := by
  unfold ctl
  split <;> rfl

end Epoll

end TurboNet.Net
