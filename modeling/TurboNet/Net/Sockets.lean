/-
# TurboNet.Net.Sockets — `Socket` objects, and the descriptors that they close.

A `Socket` is made from a number, is not copied, and closes its number when it is destroyed.  The
numbers come from `socket` and `accept4`, and the kernel gives a number that was closed out again: a
`Socket` whose number was closed before it would close what somebody else has opened since.
`sockets_own_descriptors` says that this does not happen where each number that a call returned goes
to one `Socket`.  The functions that are called `OrDie` log their failures with `LOG_SYS_FATAL` or
with `LOG_SYS_ERROR`; which of these ends the process is the `Build`'s.
-/
import TurboNet.Lib.Registry
import TurboNet.Lib.StepSystem
import TurboNet.Net.SocketOps

namespace TurboNet.Net

open TurboNet.Lib
open TurboNet.Logger
open Sockets

/-- A `Socket`, and what its descriptor meant when it was made. -/
structure Socket where
  sockfd : Int
  opening : Option Nat
  deriving DecidableEq, Repr

/-- The descriptors of a process, and its `Socket` objects. -/
structure Descriptors where
  /-- The kernel's, each with the number of its opening. -/
  table : Registry Nat
  /-- `SO_ERROR` of an opening, 0 where no error is pending. -/
  soError : Nat → Nat
  /-- What calls returned, as long as no `Socket` is made of it. -/
  returned : List (Nat × Nat)
  sockets : List Socket
  /-- For each descriptor that a destructor closed, what the `Socket` was made from and what the
  kernel closed. -/
  closes : List (Option Nat × Option Nat)

namespace Descriptors

def start : Descriptors := ⟨.empty, fun _ => 0, [], [], []⟩

/-- What a number means. -/
def opening (d : Descriptors) (v : Int) : Option Nat :=
  if 0 ≤ v then d.table.lookup v.toNat else none

/-- What the number of the `Socket` at `i` means. -/
def meant (d : Descriptors) (i : Nat) : Option (Option Nat) :=
  d.sockets[i]?.map fun s => d.opening s.sockfd

/-- The kernel opens `fd`, and the call returns it. -/
def opens (d : Descriptors) (fd : Nat) : Descriptors :=
  { d with table := d.table.issue fd, returned := d.returned ++ [(fd, d.table.issued)] }

/-- The kernel closes what `v` means, if it means anything. -/
def releases (d : Descriptors) (v : Int) : Descriptors :=
  { d with table := if 0 ≤ v then d.table.release v.toNat else d.table }

/-- A `Socket` is made of `v`. -/
def makes (d : Descriptors) (v : Int) : Descriptors :=
  { d with
    sockets := d.sockets ++ [⟨v, d.opening v⟩]
    returned :=
      match d.opening v with
      | some n => d.returned.erase (v.toNat, n)
      | none => d.returned }

/-- The error that is pending on an opening. -/
def faults (d : Descriptors) (n e : Nat) : Descriptors :=
  { d with soError := Function.update d.soError n e }

/-- The `Socket` at `i` is gone, after it has closed `found`. -/
def drops (d : Descriptors) (i : Nat) (s : Socket) (found : Option Nat) : Descriptors :=
  { d with sockets := d.sockets.eraseIdx i, closes := d.closes ++ [(s.opening, found)] }

end Descriptors

/-- A function of the process. -/
abbrev Process := EStateM Halt Descriptors

namespace Sockets

/-- `LOG_SYS_FATAL` for `true`, `LOG_SYS_ERROR` for `false`. -/
def logFailure (B : Build) (isAbort : Bool) (message : String) : Process Unit :=
  check (.aborted message) ((B.sysLevel isAbort).aborts = false)

/-- A call that logs its failure. -/
def orDie (B : Build) (isAbort : Bool) (message : String) (fails : Bool) : Process Unit :=
  if fails then logFailure B isAbort message else pure ()

/-- `CreateNoBlockingSocketOrDie(family)`. -/
def createNoBlockingSocketOrDie (B : Build) : Option Nat → Process Int
  | some fd => do
    modify (·.opens fd)
    pure fd
  | none => do
    logFailure B true "CreateNoBlockOrDie"
    pure (-1)

def bindOrDie (B : Build) : Bool → Process Unit := orDie B true "BindOrDie"

def listenOrDie (B : Build) : Bool → Process Unit := orDie B true "ListenOrDie"

def shutdownWriteOrDie (B : Build) : Bool → Process Unit := orDie B false "ShutdownWriteOrDie"

/-- `CloseOrDie(sockfd)`.  A `close` that fails for another reason than a number that means nothing
has closed it all the same. -/
def closeOrDie (B : Build) (sockfd : Int) (fails : Bool) : Process (Option Nat) := do
  let found := (← get).opening sockfd
  modify (·.releases sockfd)
  orDie B false "CloseOrDie" (found = none ∨ fails)
  pure found

/-- What `getsockopt` leaves of `value` in an `int` that holds `optVal`. -/
def sockOpt (E : ByteOrder) (optVal optLen value : Nat) : Nat :=
  E.load ((E.store 4 value).take optLen ++ (E.store 4 optVal).drop optLen)

/-- `EBADF`. -/
def ebadf : Nat := 9

/-- `GetSocketError(sockfd)`.  The kernel clears the error that it reports. -/
def getSocketError (E : ByteOrder) (sockfd : Int) : Process Nat := do
  let optVal := 0
  let optLen := optVal
  match (← get).opening sockfd with
  | some n =>
    let value := (← get).soError n
    modify (·.faults n 0)
    pure (sockOpt E optVal optLen value)
  | none => pure ebadf

end Sockets

namespace Socket

def bindAddress : Build → Bool → Process Unit := bindOrDie

def listen : Build → Bool → Process Unit := listenOrDie

def shutdownWrite : Build → Bool → Process Unit := shutdownWriteOrDie

def setReusePort (B : Build) (on fails : Bool) : Process Unit :=
  orDie B false "SO_REUSEPORT failed." (fails ∧ on)

/-- `Accept`, when the kernel has answered. -/
def acceptOpened (B : Build) (E : ByteOrder) (answer : Option (Nat × Name)) : Process Int := do
  if let some (fd, _) := answer then
    modify (·.opens fd)
  match (Socket.accept B E answer).run zeroed with
  | .ok connFd _ => pure connFd
  | .error e _ => throw e

end Socket

/-! ## Runs -/

/-- The functions of a `Socket` that only call the kernel. -/
inductive SocketCall where
  | bindAddress
  | listen
  | shutdownWrite
  | setReusePort (on : Bool)
  deriving DecidableEq, Repr

def SocketCall.perform (B : Build) : SocketCall → Bool → Process Unit
  | bindAddress => Socket.bindAddress B
  | listen => Socket.listen B
  | shutdownWrite => Socket.shutdownWrite B
  | setReusePort on => Socket.setReusePort B on

/-- What happens to the descriptors, with the kernel's answers. -/
inductive SocketAct where
  | create (answer : Option Nat)
  | construct (sockfd : Int)
  | accept (i : Nat) (answer : Option (Nat × Name))
  | call (i : Nat) (f : SocketCall) (fails : Bool)
  | getSocketError (i : Nat)
  | destroy (i : Nat) (fails : Bool)
  /-- An error of the connection. -/
  | fault (n e : Nat)

namespace SocketAct

def perform (B : Build) (E : ByteOrder) (d : Descriptors) : SocketAct → Process Unit
  | create answer => do
    let _ ← createNoBlockingSocketOrDie B answer
  | construct sockfd => modify (·.makes sockfd)
  | accept _ answer => do
    let _ ← Socket.acceptOpened B E answer
  | call _ f fails => f.perform B fails
  | getSocketError i => do
    if let some s := d.sockets[i]? then
      let _ ← Sockets.getSocketError E s.sockfd
  | destroy i fails => do
    if let some s := d.sockets[i]? then
      let found ← closeOrDie B s.sockfd fails
      modify (·.drops i s found)
  | fault n e => modify (·.faults n e)

/-- The `Socket` exists, a number that is in use is not given out, and a call for a number that means
nothing fails. -/
def possible (d : Descriptors) : SocketAct → Bool
  | create (some fd) => (d.table.lookup fd).isNone
  | accept i (some (fd, _)) => (d.table.lookup fd).isNone && (d.meant i).any Option.isSome
  | call i _ fails => (d.meant i).any fun meaning => fails || meaning.isSome
  | accept i none => (d.meant i).isSome
  | getSocketError i => (d.meant i).isSome
  | destroy i _ => (d.meant i).isSome
  | _ => true

/-- A number that a call returned goes to one `Socket`, and no other number than -1 does. -/
def Handed (d : Descriptors) : SocketAct → Prop
  | construct sockfd => sockfd = -1 ∨ 0 ≤ sockfd ∧ sockfd.toNat ∈ d.returned.map Prod.fst
  | _ => True

instance (d : Descriptors) (act : SocketAct) : Decidable (Handed d act) :=
  match act with
  | construct _ => inferInstanceAs (Decidable (_ ∨ _))
  | create _ | accept _ _ | call _ _ _ | getSocketError _ | destroy _ _ | fault _ _ =>
    inferInstanceAs (Decidable True)

end SocketAct

/-- The descriptors of a process, as long as it lives. -/
def socketRuns (B : Build) (E : ByteOrder) : StepSystem Descriptors SocketAct where
  step d act :=
    if act.possible d then
      match (act.perform B E d).run d with
      | .ok _ d' => some d'
      | .error _ _ => none
    else none

/-! ## What the functions do -/

variable {B : Build} {E : ByteOrder} {d d' : Descriptors} {s : Socket}

theorem orDie_ok_iff {isAbort fails : Bool} {message : String} {u : Unit} :
    (orDie B isAbort message fails).run d = .ok u d' ↔
      (fails = true → (B.sysLevel isAbort).aborts = false) ∧ d' = d := by
  unfold orDie logFailure
  cases fails with
  | true => simp only [if_true, check_ok_iff, forall_const]
  | false =>
    rw [if_neg Bool.false_ne_true, pure_ok_iff]
    exact ⟨fun h => ⟨nofun, h.2⟩, fun h => ⟨rfl, h.2⟩⟩

theorem createNoBlockingSocketOrDie_ok {answer : Option Nat} {v : Int}
    (h : (createNoBlockingSocketOrDie B answer).run d = .ok v d') :
    d' = answer.elim d d.opens := by
  cases answer with
  | some fd =>
    cases h
    rfl
  | none =>
    obtain ⟨_, _, hlog, hpure⟩ := bind_ok_iff.mp h
    obtain ⟨-, rfl⟩ := check_ok_iff.mp hlog
    cases hpure
    rfl

theorem acceptOpened_ok {answer : Option (Nat × Name)} {v : Int}
    (h : (Socket.acceptOpened B E answer).run d = .ok v d') :
    d' = answer.elim d fun (fd, _) => d.opens fd := by
  cases answer with
  | some opened =>
    obtain ⟨fd, name⟩ := opened
    obtain ⟨m', hrun, -⟩ := accept_run (B := B) (E := E) fd name zeroed
    obtain ⟨_, _, hopens, hrest⟩ := bind_ok_iff.mp h
    rw [hrun] at hrest
    cases hopens
    cases hrest
    rfl
  | none =>
    unfold Socket.acceptOpened at h
    split at h
    · cases h
      rfl
    · cases h

theorem closeOrDie_ok_iff {v : Int} {fails : Bool} {found : Option Nat} :
    (closeOrDie B v fails).run d = .ok found d' ↔
      (found = none ∨ fails = true → (B.sysLevel false).aborts = false) ∧
        found = d.opening v ∧ d' = d.releases v := by
  have hrun : (closeOrDie B v fails).run d =
      (orDie B false "CloseOrDie" (d.opening v = none ∨ fails) >>= fun _ =>
        pure (d.opening v)).run (d.releases v) := rfl
  rw [hrun, bind_ok_iff]
  constructor
  · rintro ⟨_, _, hlog, hpure⟩
    obtain ⟨hlives, rfl⟩ := orDie_ok_iff.mp hlog
    obtain ⟨rfl, rfl⟩ := pure_ok_iff.mp hpure
    exact ⟨by simpa using hlives, rfl, rfl⟩
  · rintro ⟨hlives, rfl, rfl⟩
    exact ⟨(), _, orDie_ok_iff.mpr ⟨by simpa using hlives, rfl⟩, rfl⟩

/-- **Errors are not reported.** `GetSocketError` tells the kernel that its `int` has no byte: it
answers 0, and the error is gone. -/
theorem getSocketError_run {v : Int} {n : Nat} (hopen : d.opening v = some n) :
    (getSocketError E v).run d = .ok 0 (d.faults n 0) := by
  have hzero : sockOpt E 0 0 (d.soError n) = 0 := E.load_store 4 0
  unfold getSocketError
  rw [run_get_bind, hopen]
  simp only [run_get_bind, run_modify_bind, hzero]
  rfl

/-! ## Who owns what -/

/-- What a `Socket` holds of the kernel's table. -/
def Socket.handle (s : Socket) : Option (Nat × Nat) := s.opening.map fun n => (s.sockfd.toNat, n)

namespace Descriptors

/-- The numbers that calls returned, and those that the `Socket`s were made from. -/
def holders (d : Descriptors) : List (Nat × Nat) := d.returned ++ d.sockets.filterMap Socket.handle

/-- Each open descriptor is one returned number or that of one `Socket`; a `Socket` of another number
has none; and what a destructor closed was its own. -/
structure Owned (d : Descriptors) : Prop where
  held : d.table.HeldBy d.holders
  made : ∀ s ∈ d.sockets, 0 ≤ s.sockfd ↔ s.opening ≠ none
  closes : ∀ c ∈ d.closes, c.1 = c.2

theorem owned_start : start.Owned := ⟨Registry.heldBy_empty, nofun, nofun⟩

namespace Owned

/-- A `Socket`'s number means what it was made from. -/
theorem opening_eq (h : d.Owned) (hs : s ∈ d.sockets) : d.opening s.sockfd = s.opening := by
  have hmade := h.made s hs
  unfold opening
  cases hopening : s.opening with
  | none =>
    rw [hopening] at hmade
    exact if_neg fun hnonneg => hmade.mp hnonneg rfl
  | some n =>
    have hnonneg : 0 ≤ s.sockfd := hmade.mpr (by rw [hopening]; exact Option.some_ne_none n)
    have hhandle : s.handle = some (s.sockfd.toNat, n) := by rw [Socket.handle, hopening]; rfl
    rw [if_pos hnonneg]
    refine h.held.lookup_eq (List.mem_append_right _ ?_)
    exact List.mem_filterMap.mpr ⟨s, hs, hhandle⟩

theorem opens {fd : Nat} (h : d.Owned) (hfree : d.table.lookup fd = none) :
    (d.opens fd).Owned := by
  refine ⟨(h.held.issue hfree).perm ?_, h.made, h.closes⟩
  have hmoved : ((fd, d.table.issued) :: d.holders).Perm
      ((fd, d.table.issued) :: d.returned ++ d.sockets.filterMap Socket.handle) := List.Perm.refl _
  exact hmoved.trans ((List.perm_append_singleton _ _).symm.append_right _)

theorem faults (h : d.Owned) (n e : Nat) : (d.faults n e).Owned := ⟨h.held, h.made, h.closes⟩

/-- A returned number goes to a `Socket`. -/
theorem makes {v : Int} (h : d.Owned) (hhanded : SocketAct.Handed d (.construct v)) :
    (d.makes v).Owned := by
  rcases hhanded with rfl | ⟨hnonneg, hreturned⟩
  · -- a number that means nothing
    have hopening : d.opening (-1) = none := rfl
    refine ⟨?_, ?_, h.closes⟩
    · have hholders : (d.makes (-1)).holders = d.holders := by
        simp only [holders, Descriptors.makes, hopening, List.filterMap_append]
        rw [List.filterMap_cons_none (by rfl), List.filterMap_nil, List.append_nil]
      rw [hholders]
      exact h.held
    · intro s hs
      rcases List.mem_append.mp hs with hs | hs
      · exact h.made s hs
      · rw [List.mem_singleton.mp hs, hopening]
        decide
  · obtain ⟨⟨_, n⟩, hn, rfl⟩ := List.mem_map.mp hreturned
    have hopening : d.opening v = some n := by
      rw [opening, if_pos hnonneg]
      exact h.held.lookup_eq (List.mem_append_left _ hn)
    refine ⟨?_, ?_, h.closes⟩
    · refine h.held.perm ?_
      have hholders : (d.makes v).holders =
          d.returned.erase (v.toNat, n) ++ (d.sockets.filterMap Socket.handle ++ [(v.toNat, n)]) := by
        simp only [holders, Descriptors.makes, hopening, List.filterMap_append]
        rfl
      rw [hholders]
      have hperm : d.holders.Perm ((v.toNat, n) :: (d.returned.erase (v.toNat, n) ++
          d.sockets.filterMap Socket.handle)) := (List.perm_cons_erase hn).append_right _
      refine hperm.trans ?_
      rw [← List.append_assoc]
      exact (List.perm_append_singleton _ _).symm
    · intro s hs
      rcases List.mem_append.mp hs with hs | hs
      · exact h.made s hs
      · rw [List.mem_singleton.mp hs, hopening]
        exact ⟨fun _ => Option.some_ne_none n, fun _ => hnonneg⟩

/-- A destructor closes what its `Socket` was made from. -/
theorem closed {i : Nat} (h : d.Owned) (hs : d.sockets[i]? = some s) :
    ((d.releases s.sockfd).drops i s (d.opening s.sockfd)).Owned := by
  have hmem : s ∈ d.sockets := List.mem_of_getElem? hs
  have hopening := h.opening_eq hmem
  obtain ⟨hi, hget⟩ := List.getElem?_eq_some_iff.mp hs
  have hperm : d.sockets.Perm (s :: d.sockets.eraseIdx i) := by
    have hcons := List.getElem_cons_eraseIdx_perm hi
    rw [hget] at hcons
    exact hcons.symm
  refine ⟨?_, fun t ht => h.made t (List.mem_of_mem_eraseIdx ht), ?_⟩
  · cases hmade : s.opening with
    | none =>
      have hnot : ¬ 0 ≤ s.sockfd := fun hnonneg => (h.made s hmem).mp hnonneg hmade
      have hnone : s.handle = none := by rw [Socket.handle, hmade]; rfl
      have hkept := hperm.filterMap Socket.handle
      rw [List.filterMap_cons_none hnone] at hkept
      have hheld := h.held.perm (hkept.append_left d.returned)
      simp only [releases, drops, if_neg hnot]
      exact hheld
    | some n =>
      have hnonneg : 0 ≤ s.sockfd := (h.made s hmem).mpr (by rw [hmade]; exact Option.some_ne_none n)
      have hsome : s.handle = some (s.sockfd.toNat, n) := by rw [Socket.handle, hmade]; rfl
      have hkept := hperm.filterMap Socket.handle
      rw [List.filterMap_cons_some hsome] at hkept
      have hheld := h.held.perm ((hkept.append_left d.returned).trans List.perm_middle)
      simp only [releases, drops, if_pos hnonneg]
      exact hheld.release
  · intro c hc
    rcases List.mem_append.mp hc with hc | hc
    · exact h.closes c hc
    · rw [List.mem_singleton.mp hc, hopening]

end Owned

end Descriptors

/-! ## Runs -/

theorem socketRuns_step_iff {act : SocketAct} :
    (socketRuns B E).step d act = some d' ↔
      act.possible d = true ∧ (act.perform B E d).run d = .ok () d' := by
  simp only [socketRuns]
  split
  · rename_i hpossible
    rw [and_iff_right hpossible]
    split
    · rename_i u d₁ hrun
      rw [hrun, Option.some.injEq, EStateM.Result.ok.injEq]
      exact ⟨fun h => ⟨rfl, h⟩, And.right⟩
    · rename_i e d₁ hrun
      rw [hrun]
      exact ⟨nofun, nofun⟩
  · rename_i hnot
    exact ⟨nofun, fun h => absurd h.1 hnot⟩

theorem exists_of_meant {i : Nat} (h : (d.meant i).isSome = true) : ∃ s, d.sockets[i]? = some s := by
  rw [Descriptors.meant, Option.isSome_map] at h
  exact Option.isSome_iff_exists.mp h

/-- A destructor that returns. -/
theorem destroy_run_iff {i : Nat} {fails : Bool} (hs : d.sockets[i]? = some s) :
    ((SocketAct.destroy i fails).perform B E d).run d = .ok () d' ↔
      (d.opening s.sockfd = none ∨ fails = true → (B.sysLevel false).aborts = false) ∧
        d' = (d.releases s.sockfd).drops i s (d.opening s.sockfd) := by
  have hrun : ((SocketAct.destroy i fails).perform B E d).run d =
      (closeOrDie B s.sockfd fails >>= fun found => modify (·.drops i s found)).run d := by
    simp only [SocketAct.perform, hs]
  rw [hrun, bind_ok_iff]
  constructor
  · rintro ⟨found, d₁, hclose, hdrops⟩
    obtain ⟨hlives, rfl, rfl⟩ := closeOrDie_ok_iff.mp hclose
    exact ⟨hlives, modify_ok_iff.mp hdrops⟩
  · rintro ⟨hlives, rfl⟩
    exact ⟨_, _, closeOrDie_ok_iff.mpr ⟨hlives, rfl, rfl⟩, rfl⟩

theorem owned_getSocketError {v : Int} {answer : Nat} (h : d.Owned)
    (hrun : (getSocketError E v).run d = .ok answer d') : d'.Owned := by
  cases hopening : d.opening v with
  | some n =>
    rw [getSocketError_run hopening] at hrun
    cases hrun
    exact h.faults n 0
  | none =>
    unfold getSocketError at hrun
    rw [run_get_bind, hopening] at hrun
    cases hrun
    exact h

/-- **One step.** -/
theorem owned_step {act : SocketAct} (h : d.Owned) (hhanded : act.Handed d)
    (hstep : (socketRuns B E).step d act = some d') : d'.Owned := by
  obtain ⟨hpossible, hrun⟩ := socketRuns_step_iff.mp hstep
  cases act with
  | create answer =>
    obtain ⟨v, d₁, hcreate, hpure⟩ := bind_ok_iff.mp hrun
    cases hpure
    rw [createNoBlockingSocketOrDie_ok hcreate]
    cases answer with
    | none => exact h
    | some fd => exact h.opens (Option.isNone_iff_eq_none.mp hpossible)
  | construct v =>
    rw [modify_ok_iff.mp hrun]
    exact h.makes hhanded
  | accept i answer =>
    obtain ⟨v, d₁, haccept, hpure⟩ := bind_ok_iff.mp hrun
    cases hpure
    rw [acceptOpened_ok haccept]
    cases answer with
    | none => exact h
    | some opened =>
      rw [SocketAct.possible, Bool.and_eq_true] at hpossible
      exact h.opens (Option.isNone_iff_eq_none.mp hpossible.1)
  | call i f fails =>
    have hsame : d' = d := by
      cases f with
      | bindAddress => exact (orDie_ok_iff.mp hrun).2
      | listen => exact (orDie_ok_iff.mp hrun).2
      | shutdownWrite => exact (orDie_ok_iff.mp hrun).2
      | setReusePort on => exact (orDie_ok_iff.mp hrun).2
    rw [hsame]
    exact h
  | getSocketError i =>
    obtain ⟨s, hs⟩ := exists_of_meant hpossible
    simp only [SocketAct.perform, hs] at hrun
    obtain ⟨answer, d₁, hanswer, hpure⟩ := bind_ok_iff.mp hrun
    cases hpure
    exact owned_getSocketError h hanswer
  | destroy i fails =>
    obtain ⟨s, hs⟩ := exists_of_meant hpossible
    rw [((destroy_run_iff hs).mp hrun).2]
    exact h.closed hs
  | fault n e =>
    rw [modify_ok_iff.mp hrun]
    exact h.faults n e

/-- **Sockets own their descriptors.**  In every run in which each number that `socket` or `accept4`
returned goes to one `Socket`: the open descriptors are the returned numbers and those of the
`Socket`s, each of them once; the number of a `Socket` means what it was made from, however often the
kernel gives numbers out again; a destructor closes that and nothing else; and it comes to its end
unless it was made from -1, which an `OrDie` that failed returns, or the `close` fails, and the build
lets that end the process. -/
theorem sockets_own_descriptors {acts : List SocketAct}
    (hrun : (socketRuns B E).exec .start acts = some d)
    (hhanded : (socketRuns B E).Along (fun d act => act.Handed d) .start acts) :
    d.table.HeldBy d.holders ∧ (∀ s ∈ d.sockets, d.opening s.sockfd = s.opening) ∧
      (∀ c ∈ d.closes, c.1 = c.2) ∧
      ∀ i s fails, d.sockets[i]? = some s →
        ((∃ d', (socketRuns B E).step d (.destroy i fails) = some d') ↔
          (s.sockfd < 0 ∨ fails = true → (B.sysLevel false).aborts = false)) := by
  have h : d.Owned := StepSystem.exec_invariant_along
    (fun _ _ _ h hhanded hstep => owned_step h hhanded hstep) Descriptors.owned_start hhanded hrun
  refine ⟨h.held, fun s => h.opening_eq, h.closes, ?_⟩
  intro i s fails hs
  have hmem : s ∈ d.sockets := List.mem_of_getElem? hs
  have hnumber : d.opening s.sockfd = none ↔ s.sockfd < 0 := by
    rw [h.opening_eq hmem, ← not_iff_not, Int.not_lt]
    exact (h.made s hmem).symm
  have hpossible : (SocketAct.destroy i fails).possible d = true := by
    rw [SocketAct.possible, Descriptors.meant, hs]
    rfl
  rw [← hnumber]
  constructor
  · rintro ⟨d', hstep⟩
    exact ((destroy_run_iff hs).mp (socketRuns_step_iff.mp hstep).2).1
  · intro hlives
    exact ⟨_, socketRuns_step_iff.mpr ⟨hpossible, (destroy_run_iff hs).mpr ⟨hlives, rfl⟩⟩⟩

/-- Descriptor 3, closed and given out again, and a `socket` that failed in between. -/
def someSocketActs : List SocketAct :=
  [.create (some 3), .construct 3, .create none, .construct (-1), .destroy 0 false,
    .create (some 3), .construct 3]

/-- What is left of it. -/
def reusedDescriptor : Descriptors where
  table := ⟨[(3, 1)], 2⟩
  soError := fun _ => 0
  returned := []
  sockets := [⟨-1, none⟩, ⟨3, some 1⟩]
  closes := [(some 0, some 0)]

theorem sockets_own_descriptors_reused :
    (socketRuns .debug .little).exec .start someSocketActs = some reusedDescriptor ∧
      reusedDescriptor.table.HeldBy [(3, 1)] ∧ reusedDescriptor.opening 3 = some 1 ∧
      ¬ (∃ d', (socketRuns .debug .little).step reusedDescriptor (.destroy 0 false) = some d') ∧
      ∃ d', (socketRuns .debug .little).step reusedDescriptor (.destroy 1 false) = some d' := by
  have hrun : (socketRuns .debug .little).exec .start someSocketActs = some reusedDescriptor := rfl
  have hhanded : (socketRuns .debug .little).Along (fun d act => act.Handed d) .start
      someSocketActs := by decide
  obtain ⟨hheld, hmeans, -, hdestroy⟩ := sockets_own_descriptors hrun hhanded
  refine ⟨hrun, hheld, hmeans ⟨3, some 1⟩ (by decide), ?_, ?_⟩
  · rw [hdestroy 0 ⟨-1, none⟩ false rfl]
    decide
  · rw [hdestroy 1 ⟨3, some 1⟩ false rfl]
    decide

end TurboNet.Net
