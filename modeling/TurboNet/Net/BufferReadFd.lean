/-
# TurboNet.Net.BufferReadFd — what `Buffer::ReadFd` appends.

`readv` fills the free space of the vector and then `extra_buf`.  When it stores fewer bytes than
are writeable, the writer moves over them and they are appended (`readFd_behind`).  When it fills the
free space, `write_index` is set to `buffer_.size()` and the rest of the bytes is to be pushed from
`extra_buf`; the length that is computed for it, `n - write_index`, counts what lies in front of the
old writer as read, and is not the `n - write_able` bytes that `extra_buf` holds (`beyond_short`).
-/
import TurboNet.Net.BufferGrowth

namespace TurboNet.Net.Buffer

open TurboNet.Lib

variable {A : Allocator} {b b' : Buffer} {bytes : List Byte} {errnoInfo : Int}

/-! ## The two branches -/

/-- `b` with its free space filled by `readv`. -/
def filled (b : Buffer) (bytes : List Byte) : Buffer :=
  { b with buffer := overwrite b.buffer b.writeIndex (bytes.take b.writeableBytes) }

/-- `extra_buf` after `readv`. -/
def extraBuf (b : Buffer) (bytes : List Byte) : List Byte :=
  overwrite (List.replicate extraSize 0) 0 (bytes.drop b.writeableBytes)

/-- How a `ReadFd` that stored `bytes` returns. -/
inductive ReadRun (A : Allocator) (b : Buffer) (bytes : List Byte) (b' : Buffer) : Prop
  | behind (hshort : (bytes.length : Int) < swrap 64 b.writeableBytes)
      (hmove : (moveWriteBackward bytes.length).run (b.filled bytes) = .ok () b')
  | beyond (hlong : ¬ (bytes.length : Int) < swrap 64 b.writeableBytes)
      (hpush : (pushBackArray A (b.extraBuf bytes)
          (usub 64 bytes.length (b.filled bytes).buffer.length)).run
        { b.filled bytes with writeIndex := (b.filled bytes).buffer.length } = .ok () b')

theorem readRun_of_ok {out : ReadFdOut}
    (hrun : (readFd A errnoInfo (.read bytes)).run b = .ok out b') :
    b.writeIndex + (bytes.take b.writeableBytes).length ≤ b.buffer.length ∧
      ReadRun A b bytes b' := by
  unfold readFd at hrun
  rw [run_get_bind] at hrun
  obtain ⟨_, b₁, hcopy, hrest⟩ := bind_ok_iff.mp hrun
  obtain ⟨hfit, rfl⟩ := copyIn_ok hcopy
  refine ⟨hfit, ?_⟩
  dsimp only at hrest
  split at hrest
  next hshort =>
    obtain ⟨_, b₂, hmove, hpure⟩ := bind_ok_iff.mp hrest
    obtain ⟨-, rfl⟩ := pure_ok_iff.mp hpure
    exact .behind hshort hmove
  next hlong =>
    obtain ⟨_, b₂, hmodify, hread⟩ := bind_ok_iff.mp hrest
    obtain rfl := modify_ok_iff.mp hmodify
    rw [run_get_bind] at hread
    obtain ⟨_, b₃, hpush, hpure⟩ := bind_ok_iff.mp hread
    obtain ⟨-, rfl⟩ := pure_ok_iff.mp hpure
    exact .beyond hlong hpush

/-! ## The readable bytes of a push -/

theorem compact_readableBytes (hrun : compact.run b = .ok () b') :
    b'.readableBytes = b.readableBytes := by
  unfold compact at hrun
  rw [run_get_bind] at hrun
  obtain ⟨_, b₁, -, hcopy⟩ := bind_ok_iff.mp hrun
  obtain ⟨_, b₂, -, hreader⟩ := bind_ok_iff.mp hcopy
  obtain ⟨_, b₃, -, hwriter⟩ := bind_ok_iff.mp hreader
  obtain ⟨_, b₄, -, hcheck⟩ := bind_ok_iff.mp hwriter
  rw [run_get_bind] at hcheck
  -- the function's own last assert
  obtain ⟨hsame, rfl⟩ := check_ok_iff.mp hcheck
  exact hsame.symm

theorem resize_ok {n : Nat} (hrun : (resize A n).run b = .ok () b') :
    n ≤ A.maxSize ∧ b' = b.resized n := by
  rw [resize_run] at hrun
  split at hrun
  next hmax =>
    cases hrun
    exact ⟨hmax, rfl⟩
  next => cases hrun

theorem makeSpace_of_ensure_ok {len : Nat} (hlen : b.writeableBytes < len)
    (hrun : (ensureWriteableBytes A len).run b = .ok () b') :
    (makeSpace A len).run b = .ok () b' ∧ len ≤ b'.writeableBytes := by
  unfold ensureWriteableBytes at hrun
  rw [run_get_bind, if_pos hlen] at hrun
  obtain ⟨_, b₁, hmake, hcheck⟩ := bind_ok_iff.mp hrun
  rw [run_get_bind] at hcheck
  obtain ⟨hroom, rfl⟩ := check_ok_iff.mp hcheck
  exact ⟨hmake, hroom⟩

/-- What `EnsureWriteableBytes` leaves is as readable as before, whatever it is called on. -/
theorem ensureWriteableBytes_readableBytes {len : Nat}
    (hrun : (ensureWriteableBytes A len).run b = .ok () b') :
    b'.readableBytes = b.readableBytes := by
  by_cases hlen : b.writeableBytes < len
  · have hmake := (makeSpace_of_ensure_ok hlen hrun).1
    unfold makeSpace at hmake
    rw [run_get_bind] at hmake
    split at hmake
    next =>
      obtain ⟨-, rfl⟩ := resize_ok hmake
      rfl
    next => exact compact_readableBytes hmake
  · unfold ensureWriteableBytes at hrun
    rw [run_get_bind, if_neg hlen, run_get_bind] at hrun
    obtain ⟨-, rfl⟩ := check_ok_iff.mp hrun
    rfl

theorem moveWriteBackward_ok {len : Nat} (hrun : (moveWriteBackward len).run b = .ok () b') :
    len ≤ b.writeableBytes ∧ b' = { b with writeIndex := uadd 64 b.writeIndex len } := by
  have hlen := of_get_check_ok hrun
  unfold moveWriteBackward at hrun
  rw [run_get_bind, run_bind_of_ok (run_check_of hlen)] at hrun
  cases hrun
  exact ⟨hlen, rfl⟩

/-- A push of `len` bytes of an array makes room, copies, and moves the writer. -/
theorem pushBackArray_ok {array : List Byte} {len : Nat}
    (hrun : (pushBackArray A array len).run b = .ok () b') :
    ∃ b₁, (ensureWriteableBytes A len).run b = .ok () b₁ ∧ len ≤ array.length ∧
      b₁.writeIndex + len ≤ b₁.buffer.length ∧ len ≤ b₁.writeableBytes ∧
      b' = { b₁ with buffer := overwrite b₁.buffer b₁.writeIndex (array.take len),
                     writeIndex := uadd 64 b₁.writeIndex len } := by
  unfold pushBackArray at hrun
  obtain ⟨_, b₁, hensure, hpush⟩ := bind_ok_iff.mp hrun
  split at hpush
  next hlen =>
    rw [run_get_bind] at hpush
    obtain ⟨_, b₂, hcopy, hmove⟩ := bind_ok_iff.mp hpush
    obtain ⟨hfit, rfl⟩ := copyIn_ok hcopy
    obtain ⟨hroom, rfl⟩ := moveWriteBackward_ok hmove
    rw [writeableBytes, length_overwrite hfit] at hroom
    rw [List.length_take, Nat.min_eq_left hlen] at hfit
    exact ⟨b₁, hensure, hlen, hfit, hroom, rfl⟩
  next => cases hpush

/-- `ReadableBytes()` grows by the pushed length, modulo `2 ^ 64`. -/
theorem pushBackArray_readableBytes {array : List Byte} {len : Nat}
    (hrun : (pushBackArray A array len).run b = .ok () b') :
    b'.readableBytes = uadd 64 b.readableBytes len := by
  obtain ⟨b₁, hensure, -, -, -, rfl⟩ := pushBackArray_ok hrun
  rw [← ensureWriteableBytes_readableBytes hensure]
  show usub 64 (uadd 64 b₁.writeIndex len) b₁.readerIndex =
    uadd 64 (usub 64 b₁.writeIndex b₁.readerIndex) len
  unfold usub uadd
  omega

/-! ## What `ReadFd` is for -/

/-- A call of `ReadFd` does what it is for: what `readv` stored is appended to the readable bytes, no
length that is computed on the way underflows, and a failed `readv` leaves the buffer alone and its
`errno` with the caller. -/
def ReadFdAppends (A : Allocator) (b : Buffer) (errnoInfo : Int) : ReadvResult → Prop
  | .read bytes => ∃ b', (readFd A errnoInfo (.read bytes)).run b =
        .ok { ret := bytes.length, errnoInfo := errnoInfo } b' ∧
      b'.contents = b.contents ++ bytes ∧
      b'.readableBytes = b.readableBytes + bytes.length ∧
      b'.readerIndex ≤ b'.writeIndex ∧ b'.writeIndex ≤ b'.buffer.length ∧
      b.writeIndex ≤ b.buffer.length ∧
      ((bytes.length : Int) < swrap 64 b.writeableBytes ∨ b.buffer.length ≤ bytes.length)
  | .failed errno => (readFd A errnoInfo (.failed errno)).run b =
      .ok { ret := -1, errnoInfo := errno } b

/-- The branch of `ReadFd` that sets `write_index` to `buffer_.size()` is not taken. -/
def ReadvResult.Short (b : Buffer) : ReadvResult → Prop
  | .read bytes => (bytes.length : Int) < swrap 64 b.writeableBytes
  | .failed _ => True

/-- As a `ssize_t`, a `size_t` is no larger than itself. -/
theorem lt_of_lt_swrap {n w : Nat} (h : (n : Int) < swrap 64 w) : n < w := by
  unfold swrap Int.bmod at h
  dsimp only at h
  split at h <;> omega

/-- Fewer bytes than are writeable: they are in place, and the writer moves over them. -/
theorem readFd_behind (h : b.Wf A) (hshort : (bytes.length : Int) < swrap 64 b.writeableBytes) :
    (readFd A errnoInfo (.read bytes)).run b =
      .ok { ret := bytes.length, errnoInfo := errnoInfo } (b.appended bytes) := by
  have hlt : bytes.length < b.writeableBytes := lt_of_lt_swrap hshort
  obtain ⟨hwrite, -, -⟩ := writeAtWriteable_spec h (Nat.le_of_lt hlt)
  unfold writeAtWriteable at hwrite
  rw [run_get_bind] at hwrite
  obtain ⟨_, b₁, hcopy, hmove⟩ := bind_ok_iff.mp hwrite
  unfold readFd
  rw [run_get_bind]
  dsimp only
  rw [List.take_of_length_le (Nat.le_of_lt hlt), run_bind_of_ok hcopy, if_pos hshort,
    run_bind_of_ok hmove]
  rfl

theorem appends_of_short (h : b.Wf A) (hshort : (bytes.length : Int) < swrap 64 b.writeableBytes) :
    ReadFdAppends A b errnoInfo (.read bytes) := by
  have hlt : bytes.length < b.writeableBytes := lt_of_lt_swrap hshort
  obtain ⟨-, hwf, hcontents⟩ := writeAtWriteable_spec h (Nat.le_of_lt hlt)
  refine ⟨b.appended bytes, readFd_behind h hshort, hcontents, ?_, hwf.reader_le, hwf.write_le,
    h.write_le, .inl hshort⟩
  rw [← hwf.length_contents, ← h.length_contents, hcontents, List.length_append]

/-- In the other branch the readable bytes grow by `n` and by what lies in front of the old writer
less, which is not nothing. -/
theorem readableBytes_ne_of_long {out : ReadFdOut} (h : b.Wf A) (hwriter : 0 < b.writeIndex)
    (hlong : ¬ (bytes.length : Int) < swrap 64 b.writeableBytes)
    (hrun : (readFd A errnoInfo (.read bytes)).run b = .ok out b') :
    b'.readableBytes ≠ b.readableBytes + bytes.length := by
  intro hgrown
  obtain ⟨hfit, hread⟩ := readRun_of_ok hrun
  cases hread with
  | behind hshort => exact hlong hshort
  | beyond _ hpush =>
    have hpushed := pushBackArray_readableBytes hpush
    have hsize : (b.filled bytes).buffer.length = b.buffer.length := length_overwrite hfit
    rw [hsize, hgrown, h.readableBytes_eq] at hpushed
    have hreadable : ({ b.filled bytes with writeIndex := b.buffer.length } : Buffer).readableBytes =
        usub 64 b.buffer.length b.readerIndex := rfl
    have hr := h.reader_le
    have hw := h.write_le
    have hlt := h.size_lt
    rw [hreadable] at hpushed
    unfold usub uadd at hpushed
    omega

/-- **The other branch never appends what was read.** -/
theorem not_appends_of_long (h : b.Wf A) (hwriter : 0 < b.writeIndex)
    (hlong : ¬ (bytes.length : Int) < swrap 64 b.writeableBytes) :
    ¬ ReadFdAppends A b errnoInfo (.read bytes) := by
  rintro ⟨b', hrun, -, hgrown, -⟩
  exact readableBytes_ne_of_long h hwriter hlong hrun hgrown

/-! ## Reachable buffers -/

/-- What the calls of a program lead to: a constructor whose size does not overflow, calls that keep
to their preconditions, and any `ReadFd`, also one that is left by the `length_error` of its push. -/
inductive Reachable (A : Allocator) : Buffer → Prop
  | constructed {initialSize : Nat} {raw b : Buffer} (hov : kCheapPrepend + initialSize < 2 ^ 64)
      (hnew : (construct A initialSize).run raw = .ok () b) : Reachable A b
  | called {s s' : Session} {op : Op} (h : Reachable A s.buf) (hlegal : Legal s op)
      (hcall : s.call A op = some s') : Reachable A s'.buf
  | read {b b' : Buffer} {errnoInfo : Int} {res : ReadvResult} {out : ReadFdOut}
      (h : Reachable A b) (hallowed : res.Allowed b)
      (hrun : (readFd A errnoInfo res).run b = .ok out b') : Reachable A b'
  | readThrew {b b' : Buffer} {errnoInfo : Int} {res : ReadvResult} {n : Nat}
      (h : Reachable A b) (hallowed : res.Allowed b)
      (hrun : (readFd A errnoInfo res).run b = .error (.lengthError n) b') : Reachable A b'

/-- The indices are in order and the writer is not in front of `kCheapPrepend`. -/
structure Sound (A : Allocator) (b : Buffer) : Prop where
  wf : b.Wf A
  writer : kCheapPrepend ≤ b.writeIndex

theorem construct_sound {initialSize : Nat} {raw : Buffer}
    (hov : kCheapPrepend + initialSize < 2 ^ 64)
    (hnew : (construct A initialSize).run raw = .ok () b) : Sound A b := by
  obtain ⟨hlen, hmax, hreader, hwriter⟩ := construct_ok hnew
  rw [uadd_of_lt hov] at hlen
  exact ⟨⟨by omega, by omega, by omega, hmax⟩, Nat.le_of_eq hwriter.symm⟩

theorem call_sound {s s' : Session} {op : Op} (h : Sound A s.buf) (hlegal : Legal s op)
    (hcall : s.call A op = some s') : Sound A s'.buf := by
  refine ⟨wf_of_call h.wf hlegal hcall, ?_⟩
  cases op with
  | pushBack data =>
    rcases pushBack_sized h.wf hlegal with ⟨b₁, hrun, -, -, hwriter⟩ | ⟨n, hrun, -⟩
    · obtain rfl := eq_of_call_ok hcall (run_bind_of_ok hrun)
      exact hwriter h.writer
    · obtain rfl := eq_of_call_threw hcall (run_bind_of_error hrun)
      exact h.writer
  | ensureWriteableBytes len =>
    rcases ensureWriteableBytes_room h.wf hlegal with ⟨b₁, hrun, -, hroom⟩ | ⟨n, hrun, -⟩
    · obtain rfl := eq_of_call_ok hcall (run_bind_of_ok hrun)
      exact hroom.writer h.wf h.writer
    · obtain rfl := eq_of_call_threw hcall (run_bind_of_error hrun)
      exact h.writer
  | writeAtWriteable data =>
    obtain ⟨hrun, -, -⟩ := writeAtWriteable_spec h.wf hlegal
    obtain rfl := eq_of_call_ok hcall (run_bind_of_ok hrun)
    exact Nat.le_trans h.writer (Nat.le_add_right _ _)
  | _ =>
    obtain ⟨hsettled, -⟩ := call_quiet rfl hcall
    rcases hsettled.writer with hw | hw
    · exact hw ▸ h.writer
    · exact Nat.le_of_eq hw.symm

/-! ### `ReadFd` -/

theorem filled_sound (h : Sound A b)
    (hfit : b.writeIndex + (bytes.take b.writeableBytes).length ≤ b.buffer.length) :
    Sound A { b.filled bytes with writeIndex := (b.filled bytes).buffer.length } := by
  have hsize : (b.filled bytes).buffer.length = b.buffer.length := length_overwrite hfit
  have hprepend := h.wf.prepend_le
  rw [hsize]
  exact ⟨⟨by rw [hsize]; exact hprepend, Nat.le_trans h.wf.reader_le h.wf.write_le,
    Nat.le_of_eq hsize.symm, by rw [hsize]; exact h.wf.size_le⟩, hprepend⟩

theorem length_extraBuf (hallowed : (ReadvResult.read bytes).Allowed b) :
    (b.extraBuf bytes).length = extraSize := by
  have hbytes : bytes.length ≤ b.offered := hallowed
  have hspill : (bytes.drop b.writeableBytes).length ≤ extraSize := by
    rw [List.length_drop]
    unfold offered at hbytes
    split at hbytes <;> omega
  rw [extraBuf, length_overwrite]
  · exact List.length_replicate
  · rw [List.length_replicate]
    omega

/-- `buffer_.resize(write_index + len)` with a sum that wraps: the writer is left outside. -/
theorem grow_wraps {len : Nat} (h : b.Wf A) (hlen : len < 2 ^ 64)
    (hwrap : 2 ^ 64 ≤ b.writeIndex + len) :
    (resize A (uadd 64 b.writeIndex len)).run b = .ok () (b.resized (uadd 64 b.writeIndex len)) ∧
      (b.resized (uadd 64 b.writeIndex len)).buffer.length < b.writeIndex := by
  have hw := h.write_le
  have hlt := h.size_lt
  have hmax := h.size_le
  have hshrunk : uadd 64 b.writeIndex len < b.writeIndex := by
    unfold uadd
    omega
  constructor
  · rw [resize_run, if_pos (by omega)]
  · rw [length_resized]
    exact hshrunk

/-- A push of a part of `extra_buf` from a full vector. -/
theorem pushBackArray_sound {array : List Byte} {len : Nat} (h : Sound A b)
    (hfull : b.writeIndex = b.buffer.length) (harray : array.length = extraSize)
    (hrun : (pushBackArray A array len).run b = .ok () b') : Sound A b' := by
  obtain ⟨b₁, hensure, hlen, hfit, -, hb'⟩ := pushBackArray_ok hrun
  have hwriteable : b.writeableBytes = 0 := by
    rw [h.wf.writeableBytes_eq, hfull, Nat.sub_self]
  by_cases hov : NoOverflow b len
  · have htake : (array.take len).length = len := by
      rw [List.length_take, Nat.min_eq_left hlen]
    have hpush : (pushBack A (array.take len)).run b = .ok () b' := by
      unfold pushBackArray at hrun
      unfold pushBack
      rw [run_bind_of_ok hensure, if_pos hlen, run_get_bind] at hrun
      rw [htake, run_bind_of_ok hensure, run_get_bind]
      exact hrun
    rw [← htake] at hov
    rcases pushBack_sized h.wf hov with ⟨b₂, hok, hwf, -, hwriter⟩ | ⟨n, herror, -⟩
    · rw [hpush] at hok
      cases hok
      exact ⟨hwf, hwriter h.writer⟩
    · rw [hpush] at herror
      cases herror
  · -- the sum that overflows is `write_index + len`, and the vector would have shrunk
    exfalso
    have hsize : extraSize = 65536 := rfl
    have hcheap : kCheapPrepend = 8 := rfl
    have hlt := h.wf.size_lt
    have hr := h.wf.reader_le
    unfold NoOverflow prependableBytes at hov
    rw [hwriteable] at hov
    have hcrowded : b.readerIndex < kCheapPrepend + len ∧ 2 ^ 64 ≤ b.writeIndex + len := by
      omega
    have hmake := (makeSpace_of_ensure_ok (by omega) hensure).1
    unfold makeSpace prependableBytes at hmake
    rw [run_get_bind, hwriteable, uadd_of_lt (by omega), uadd_of_lt (by omega),
      if_pos (by omega)] at hmake
    obtain ⟨hresize, hshrunk⟩ := grow_wraps h.wf (by omega) hcrowded.2
    rw [hresize] at hmake
    cases hmake
    have hwriter : (b.resized (uadd 64 b.writeIndex len)).writeIndex = b.writeIndex := rfl
    omega

/-- Left by an exception that is no `length_error`, or with the buffer `b`. -/
def LeavesAt (b : Buffer) (e : Fault) (b' : Buffer) : Prop := NoAllocation e b' ∨ b' = b

/-- Whatever it does to its buffer, `m` is left as `LeavesAt b` says. -/
abbrev Throws {α : Type} (b b₁ : Buffer) (m : Method α) : Prop :=
  Effect (fun _ _ => True) (LeavesAt b) b₁ m

theorem throws_bind {α β : Type} {b₁ : Buffer} {m : Method α} {f : α → Method β}
    (hm : Throws b b₁ m) (hf : ∀ a b₂, Throws b b₂ (f a)) : Throws b b₁ (m >>= f) :=
  effect_bind (fun _ _ _ _ _ => trivial) hm fun a b₂ _ => hf a b₂

theorem throws_assert (b₁ : Buffer) (expr : String) (cond : Prop) [Decidable cond] :
    Throws b b₁ (check (.assertFailed expr) cond : Method Unit) := by
  refine effect_check trivial ?_
  exact .inl trivial

theorem throws_copyIn (b₁ : Buffer) (data : List Byte) (i : Nat) :
    Throws b b₁ (copyIn data i) :=
  effect_get_bind <| effect_ite (fun _ => effect_set trivial) fun _ => effect_throw (.inl trivial)

theorem throws_moveWriteBackward (b₁ : Buffer) (len : Nat) :
    Throws b b₁ (moveWriteBackward len) :=
  effect_get_bind <| throws_bind (throws_assert ..) fun _ _ => effect_set trivial

theorem noAllocation_compact (b : Buffer) : Effect (fun _ _ => True) NoAllocation b compact :=
  effect_get_bind <| effect_check_bind trivial fun _ =>
    effect_bind (fun _ _ _ _ _ => trivial)
      (effect_get_bind <| effect_ite
        (fun _ => effect_get_bind <| effect_ite (fun _ => effect_set trivial)
          fun _ => effect_throw trivial)
        fun _ => effect_throw trivial)
      fun _ _ _ => effect_bind (fun _ _ _ _ _ => trivial) (effect_modify trivial) fun _ _ _ =>
        effect_bind (fun _ _ _ _ _ => trivial) (effect_modify trivial) fun _ _ _ =>
          effect_get_bind (effect_check trivial trivial)

theorem throws_compact (b₁ : Buffer) : Throws b b₁ compact :=
  (noAllocation_compact b₁).imp (fun _ h => h) fun _ _ => .inl

theorem throws_makeSpace (len : Nat) : Throws b b (makeSpace A len) :=
  effect_get_bind <| effect_ite
    (fun _ => effect_get_bind <| effect_ite (fun _ => effect_set trivial)
      fun _ => effect_throw (.inr rfl))
    fun _ => throws_compact b

theorem throws_pushBackArray (array : List Byte) (len : Nat) :
    Throws b b (pushBackArray A array len) := by
  refine throws_bind (effect_get_bind ?_) fun _ b₁ => ?_
  · split
    · exact throws_bind (throws_makeSpace len) fun _ _ => effect_get_bind (throws_assert ..)
    · exact effect_get_bind (throws_assert ..)
  · refine effect_ite (fun _ => effect_get_bind ?_) fun _ => effect_throw (.inl trivial)
    exact throws_bind (throws_copyIn ..) fun _ _ => throws_moveWriteBackward ..

/-- The `length_error` of `ReadFd` is that of its push. -/
theorem readFd_threw_sound {res : ReadvResult} {n : Nat} (h : Sound A b)
    (hrun : (readFd A errnoInfo res).run b = .error (.lengthError n) b') : Sound A b' := by
  cases res with
  | failed errno => cases hrun
  | read bytes =>
    unfold readFd at hrun
    rw [run_get_bind] at hrun
    dsimp only at hrun
    rcases bind_error_iff.mp hrun with hcopy | ⟨_, b₁, hcopy, hrest⟩
    · exact absurd ((quiet_copyIn _ _ b).leaves hcopy) id
    obtain ⟨hfit, rfl⟩ := copyIn_ok hcopy
    split at hrest
    next hshort =>
      rcases bind_error_iff.mp hrest with hmove | ⟨_, b₂, -, hpure⟩
      · have hmoves : Effect (fun _ _ => True) NoAllocation (b.filled bytes)
            (moveWriteBackward bytes.length) :=
          effect_get_bind <| effect_check_bind trivial fun _ => effect_set trivial
        exact absurd (hmoves.leaves hmove) id
      · cases hpure
    next hlong =>
      rcases bind_error_iff.mp hrest with hmodify | ⟨_, b₂, hmodify, hread⟩
      · cases hmodify
      obtain rfl := modify_ok_iff.mp hmodify
      rw [run_get_bind] at hread
      rcases bind_error_iff.mp hread with hpush | ⟨_, b₃, -, hpure⟩
      · rcases (throws_pushBackArray _ _).leaves hpush with hother | rfl
        · exact absurd hother id
        · exact filled_sound h hfit
      · cases hpure

theorem readFd_sound {res : ReadvResult} {out : ReadFdOut} (h : Sound A b)
    (hallowed : res.Allowed b) (hrun : (readFd A errnoInfo res).run b = .ok out b') :
    Sound A b' := by
  cases res with
  | failed errno =>
    cases hrun
    exact h
  | read bytes =>
    obtain ⟨hfit, hread⟩ := readRun_of_ok hrun
    cases hread with
    | behind hshort hmove =>
      have hlt : bytes.length < b.writeableBytes := lt_of_lt_swrap hshort
      obtain ⟨-, hwf, -⟩ := writeAtWriteable_spec h.wf (Nat.le_of_lt hlt)
      rw [readFd_behind h.wf hshort] at hrun
      cases hrun
      exact ⟨hwf, Nat.le_trans h.writer (Nat.le_add_right _ _)⟩
    | beyond hlong hpush =>
      exact pushBackArray_sound (filled_sound h hfit) rfl (length_extraBuf hallowed) hpush

theorem Reachable.sound (h : Reachable A b) : Sound A b := by
  induction h with
  | constructed hov hnew => exact construct_sound hov hnew
  | called _ hlegal hcall ih => exact call_sound ih hlegal hcall
  | read _ hallowed hrun ih => exact readFd_sound ih hallowed hrun
  | readThrew _ _ hrun ih => exact readFd_threw_sound ih hrun

/-- **When `ReadFd` appends what was read.** For every reachable buffer and everything `readv` can
answer: exactly when the branch for a full vector is not taken. -/
theorem readFd_appends_iff (A : Allocator) (b : Buffer) (errnoInfo : Int) (res : ReadvResult)
    (h : Reachable A b) : ReadFdAppends A b errnoInfo res ↔ res.Short b := by
  have hsound := h.sound
  cases res with
  | failed errno => exact ⟨fun _ => trivial, fun _ => rfl⟩
  | read bytes =>
    constructor
    · intro happends
      by_contra hlong
      have hcheap : kCheapPrepend = 8 := rfl
      have hwriter := hsound.writer
      exact not_appends_of_long hsound.wf (by omega) hlong happends
    · exact appends_of_short hsound.wf

theorem fresh_reachable : Reachable wholeAddressSpace (fresh 4) :=
  .constructed (by decide) (rfl : (construct wholeAddressSpace 4).run ⟨[], 0, 0⟩ = _)

/-- Three bytes into room for four. -/
theorem readFd_appends_three :
    ReadFdAppends wholeAddressSpace (fresh 4) 0 (.read [1, 2, 3]) :=
  (readFd_appends_iff wholeAddressSpace (fresh 4) 0 (.read [1, 2, 3]) fresh_reachable).mpr
    (by show (3 : Int) < _; decide)

/-- Four bytes into room for four: `n - write_index` is `4 - 12`. -/
theorem full_read_not_appended :
    Reachable wholeAddressSpace (fresh 4) ∧
      (ReadvResult.read [1, 2, 3, 4]).Allowed (fresh 4) ∧
      usub 64 [1, 2, 3, 4].length (fresh 4).buffer.length = 2 ^ 64 - 8 ∧
      ¬ ReadFdAppends wholeAddressSpace (fresh 4) 0 (.read [1, 2, 3, 4]) :=
  ⟨fresh_reachable, by show (4 : Nat) ≤ _; decide, by decide,
    not_appends_of_long fresh_reachable.sound.wf (by decide) (by show ¬ (4 : Int) < _; decide)⟩

end TurboNet.Net.Buffer
