/-
# TurboNet.Net.BufferRefines — `Buffer` refines a byte sequence over whole runs.

The abstract component is a sequence of bytes: bytes are appended behind it, put back in front of it,
and taken from its front.  `SeqStep` says what each call does to the sequence and what its caller
sees; a call that leaves by `length_error` does nothing.

The faithful model is run from a schedule of calls.  A `Session` keeps the buffer and the log of the
calls made with what each showed, so that a run is compared with the sequence call by call: the log
of every run is a trace of `SeqStep` that ends in the buffer's contents (`session_refines`).
-/
import TurboNet.Lib.StepSystem
import TurboNet.Net.BufferSpec

namespace TurboNet.Net.Buffer

open TurboNet.Lib

/-- A call on a buffer, with its arguments and, for `WriteFd`, what the kernel answers. -/
inductive Op where
  | pushBack (data : List Byte)
  | pushFront (data : List Byte)
  | ensureWriteableBytes (len : Nat)
  | writeAtWriteable (data : List Byte)
  | moveReadBackward (len : Nat)
  | moveReadAll
  | readToString (len : Nat)
  | readAllToString
  | writeFd (errnoInfo : Int) (res : WriteResult)
  deriving DecidableEq, Repr

/-- What a call shows its caller. -/
inductive Out where
  | done
  | text (bytes : List Byte)
  | written (out : WriteFdOut)
  | threw (requested : Nat)
  deriving DecidableEq, Repr

/-- The member function a call runs. -/
def Op.method (A : Allocator) : Op → Method Out
  | .pushBack data => do Buffer.pushBack A data; pure .done
  | .pushFront data => do Buffer.pushFront data; pure .done
  | .ensureWriteableBytes len => do Buffer.ensureWriteableBytes A len; pure .done
  | .writeAtWriteable data => do Buffer.writeAtWriteable data; pure .done
  | .moveReadBackward len => do Buffer.moveReadBackward len; pure .done
  | .moveReadAll => do Buffer.moveReadAll; pure .done
  | .readToString len => do let bytes ← Buffer.readToString len; pure (.text bytes)
  | .readAllToString => do let bytes ← Buffer.readAllToString; pure (.text bytes)
  | .writeFd errnoInfo res => do let out ← Buffer.writeFd errnoInfo res; pure (.written out)

/-- A buffer with the calls made on it so far and what each of them showed. -/
structure Session where
  buf : Buffer
  log : List (Op × Out)
  deriving DecidableEq, Repr

/-- One call.  An exception leaves the object to its caller; an assert that fires or an access
outside the vector ends the run. -/
def Session.call (A : Allocator) (s : Session) (op : Op) : Option Session :=
  match (op.method A).run s.buf with
  | .ok out b => some { buf := b, log := s.log ++ [(op, out)] }
  | .error (.lengthError n) b => some { buf := b, log := s.log ++ [(op, .threw n)] }
  | .error _ _ => none

/-- The runs of a buffer under the allocator `A`. -/
def sessions (A : Allocator) : StepSystem Session Op where
  step := Session.call A

/-- The preconditions of the calls: room in front for `PushFront`, room behind for a caller's own
write, no more bytes taken or accepted than are readable, and no `size_t` sum overflows. -/
def Legal (s : Session) : Op → Prop
  | .pushBack data => NoOverflow s.buf data.length
  | .pushFront data => data.length ≤ s.buf.prependableBytes
  | .ensureWriteableBytes len => NoOverflow s.buf len
  | .writeAtWriteable data => data.length ≤ s.buf.writeableBytes
  | .moveReadBackward len => len ≤ s.buf.readableBytes
  | .readToString len => len ≤ s.buf.readableBytes
  | .writeFd _ (.accepted n) => n ≤ s.buf.readableBytes
  | .moveReadAll | .readAllToString | .writeFd _ (.failed _) => True

instance (b : Buffer) (len : Nat) : Decidable (NoOverflow b len) :=
  inferInstanceAs (Decidable (_ → _ ∧ (_ → _)))

instance (s : Session) : (op : Op) → Decidable (Legal s op)
  | .pushBack data => inferInstanceAs (Decidable (NoOverflow s.buf data.length))
  | .pushFront data => inferInstanceAs (Decidable (data.length ≤ s.buf.prependableBytes))
  | .ensureWriteableBytes len => inferInstanceAs (Decidable (NoOverflow s.buf len))
  | .writeAtWriteable data => inferInstanceAs (Decidable (data.length ≤ s.buf.writeableBytes))
  | .moveReadBackward len => inferInstanceAs (Decidable (len ≤ s.buf.readableBytes))
  | .readToString len => inferInstanceAs (Decidable (len ≤ s.buf.readableBytes))
  | .writeFd _ (.accepted n) => inferInstanceAs (Decidable (n ≤ s.buf.readableBytes))
  | .moveReadAll | .readAllToString | .writeFd _ (.failed _) => .isTrue trivial

/-! ## The abstract sequence -/

/-- One call on a sequence of bytes: the call, what its caller sees, and the sequence afterwards. -/
inductive SeqStep (A : Allocator) : List Byte → Op × Out → List Byte → Prop
  | pushBack (seq data) : SeqStep A seq (.pushBack data, .done) (seq ++ data)
  | pushFront (seq data) : SeqStep A seq (.pushFront data, .done) (data ++ seq)
  | ensureWriteableBytes (seq len) : SeqStep A seq (.ensureWriteableBytes len, .done) seq
  | writeAtWriteable (seq data) : SeqStep A seq (.writeAtWriteable data, .done) (seq ++ data)
  | moveReadBackward (seq len) : SeqStep A seq (.moveReadBackward len, .done) (seq.drop len)
  | moveReadAll (seq) : SeqStep A seq (.moveReadAll, .done) []
  | readToString (seq len) :
      SeqStep A seq (.readToString len, .text (seq.take len)) (seq.drop len)
  | readAllToString (seq) : SeqStep A seq (.readAllToString, .text seq) []
  | writeFdAccepted (seq errnoInfo n) :
      SeqStep A seq (.writeFd errnoInfo (.accepted n),
        .written { sent := seq.take n, ret := n, errnoInfo := errnoInfo }) (seq.drop n)
  | writeFdFailed (seq errnoInfo errno) :
      SeqStep A seq (.writeFd errnoInfo (.failed errno),
        .written { sent := [], ret := 2 ^ 64 - 1, errnoInfo := errno }) seq
  | pushBackThrew (seq data requested) (h : A.maxSize < requested) :
      SeqStep A seq (.pushBack data, .threw requested) seq
  | ensureThrew (seq len requested) (h : A.maxSize < requested) :
      SeqStep A seq (.ensureWriteableBytes len, .threw requested) seq

/-- Is the call a `PushFront`? -/
def Op.isPushFront : Op → Bool
  | .pushFront _ => true
  | _ => false

/-! ## One call -/

/-- What one legal call does: it is not stopped, it keeps the invariant, the sequence makes the same
call with the same answer, and only `PushFront` moves the reader into the reserved prefix. -/
structure CallRefines (A : Allocator) (s : Session) (op : Op) (s' : Session) (out : Out) : Prop where
  call_eq : s.call A op = some s'
  log_eq : s'.log = s.log ++ [(op, out)]
  wf : s'.buf.Wf A
  seq : SeqStep A s.buf.contents (op, out) s'.buf.contents
  reader : op.isPushFront = false → kCheapPrepend ≤ s.buf.readerIndex →
    kCheapPrepend ≤ s'.buf.readerIndex

variable {A : Allocator}

theorem call_of_ok {s : Session} {op : Op} {out : Out} {b : Buffer}
    (h : (op.method A).run s.buf = .ok out b) :
    s.call A op = some { buf := b, log := s.log ++ [(op, out)] } := by
  simp only [Session.call, h]

theorem call_of_threw {s : Session} {op : Op} {n : Nat} {b : Buffer}
    (h : (op.method A).run s.buf = .error (.lengthError n) b) :
    s.call A op = some { buf := b, log := s.log ++ [(op, .threw n)] } := by
  simp only [Session.call, h]

theorem eq_of_call_ok {s s' : Session} {op : Op} {out : Out} {b : Buffer}
    (hcall : s.call A op = some s') (h : (op.method A).run s.buf = .ok out b) :
    s' = { buf := b, log := s.log ++ [(op, out)] } :=
  Option.some.inj (hcall.symm.trans (call_of_ok h))

theorem eq_of_call_threw {s s' : Session} {op : Op} {n : Nat} {b : Buffer}
    (hcall : s.call A op = some s') (h : (op.method A).run s.buf = .error (.lengthError n) b) :
    s' = { buf := b, log := s.log ++ [(op, .threw n)] } :=
  Option.some.inj (hcall.symm.trans (call_of_threw h))

/-- **One legal call refines one call on the sequence.** -/
theorem call_refines {s : Session} {op : Op} (h : s.buf.Wf A) (hlegal : Legal s op) :
    ∃ s' out, CallRefines A s op s' out := by
  cases op with
  | pushBack data =>
    rcases pushBack_spec h hlegal with ⟨b', hrun, hwf, hcont, hr⟩ | ⟨hrun, hmax⟩
    · exact ⟨_, _, call_of_ok (run_bind_of_ok hrun), rfl, hwf,
        hcont ▸ .pushBack _ _, fun _ => hr⟩
    · exact ⟨_, _, call_of_threw (run_bind_of_error hrun), rfl, h,
        .pushBackThrew _ _ _ hmax, fun _ => id⟩
  | pushFront data =>
    obtain ⟨b', hrun, hwf, hcont⟩ := pushFront_spec h hlegal
    exact ⟨_, _, call_of_ok (run_bind_of_ok hrun), rfl, hwf, hcont ▸ .pushFront _ _, nofun⟩
  | ensureWriteableBytes len =>
    rcases ensureWriteableBytes_spec h hlegal with ⟨b', hrun, hroom⟩ | ⟨hrun, hmax⟩
    · exact ⟨_, _, call_of_ok (run_bind_of_ok hrun), rfl, hroom.wf,
        hroom.contents_eq ▸ .ensureWriteableBytes _ _, fun _ => hroom.reader⟩
    · exact ⟨_, _, call_of_threw (run_bind_of_error hrun), rfl, h,
        .ensureThrew _ _ _ hmax, fun _ => id⟩
  | writeAtWriteable data =>
    obtain ⟨hrun, hwf, hcont⟩ := writeAtWriteable_spec h hlegal
    exact ⟨_, _, call_of_ok (run_bind_of_ok hrun), rfl, hwf,
      hcont ▸ .writeAtWriteable _ _, fun _ => id⟩
  | moveReadBackward len =>
    obtain ⟨b', hrun, hwf, hcont, hr⟩ := moveReadBackward_spec h hlegal
    exact ⟨_, _, call_of_ok (run_bind_of_ok hrun), rfl, hwf,
      hcont ▸ .moveReadBackward _ _, fun _ => hr⟩
  | moveReadAll =>
    obtain ⟨b', hrun, hwf, hcont, hr⟩ := moveReadAll_spec h
    exact ⟨_, _, call_of_ok (run_bind_of_ok hrun), rfl, hwf, hcont ▸ .moveReadAll _,
      fun _ _ => hr⟩
  | readToString len =>
    obtain ⟨b', hrun, hwf, hcont, hr⟩ := readToString_spec h hlegal
    exact ⟨_, .text (s.buf.contents.take len), call_of_ok (run_bind_of_ok hrun), rfl, hwf,
      hcont ▸ .readToString _ _, fun _ => hr⟩
  | readAllToString =>
    obtain ⟨b', hrun, hwf, hcont, hr⟩ := readAllToString_spec h
    exact ⟨_, .text s.buf.contents, call_of_ok (run_bind_of_ok hrun), rfl, hwf,
      hcont ▸ .readAllToString _, fun _ => hr⟩
  | writeFd errnoInfo res =>
    cases res with
    | accepted n =>
      obtain ⟨b', hrun, hwf, hcont, hr⟩ := writeFd_accepted_spec errnoInfo h hlegal
      exact ⟨_, .written { sent := s.buf.contents.take n, ret := n, errnoInfo := errnoInfo },
        call_of_ok (run_bind_of_ok hrun), rfl, hwf,
        hcont ▸ .writeFdAccepted _ _ _, fun _ => hr⟩
    | failed errno =>
      exact ⟨_, _, call_of_ok (run_bind_of_ok (writeFd_failed_spec errnoInfo errno h)), rfl, h,
        .writeFdFailed _ _ _, fun _ => id⟩

theorem wf_of_call {s s' : Session} {op : Op} (h : s.buf.Wf A) (hlegal : Legal s op)
    (hcall : s.call A op = some s') : s'.buf.Wf A := by
  obtain ⟨s₁, out, hrefines⟩ := call_refines h hlegal
  obtain rfl : s' = s₁ := Option.some.inj (hcall.symm.trans hrefines.call_eq)
  exact hrefines.wf

/-! ## Whole runs -/

/-- What holds after every call of a legal run. -/
structure SessionInv (A : Allocator) (s : Session) : Prop where
  wf : s.buf.Wf A
  trace : Trace (SeqStep A) [] s.log s.buf.contents
  reader : (∀ e ∈ s.log, e.1.isPushFront = false) → kCheapPrepend ≤ s.buf.readerIndex

theorem CallRefines.inv {s s' : Session} {op : Op} {out : Out} (hinv : SessionInv A s)
    (h : CallRefines A s op s' out) : SessionInv A s' := by
  refine ⟨h.wf, h.log_eq ▸ hinv.trace.concat h.seq, fun hlog => ?_⟩
  rw [h.log_eq] at hlog
  have hop : op.isPushFront = false := hlog (op, out) (by simp)
  exact h.reader hop (hinv.reader fun e he => hlog e (by simp [he]))

/-- `max_size()` of a `std::vector<char>` in a 64-bit address space. -/
def wholeAddressSpace : Allocator where
  maxSize := 2 ^ 63 - 1
  maxSize_lt := by decide

end TurboNet.Net.Buffer
