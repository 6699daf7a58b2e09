/-
# TurboNet.Net.BufferGrowth — how large a buffer's vector gets.

Only `MakeSpace` changes the size of the vector, and only when the free space before the reader and
behind the writer is too small for the call (`Room`).  Then the readable bytes and the new ones do
not fit the vector together, so the growth is paid for by live data: `storage_bounded`.

All other functions are `Quiet`: they keep the size, and leave `write_index` alone or set it to
`kCheapPrepend`.
-/
import TurboNet.Net.BufferRefines

namespace TurboNet.Net.Buffer

open TurboNet.Lib

variable {A : Allocator} {b b' : Buffer} {α β : Type}

/-! ## Functions that leave the vector's size alone -/

/-- The vector keeps its size, and the writer moves to `kCheapPrepend` only. -/
structure Settled (b b' : Buffer) : Prop where
  size : b'.buffer.length = b.buffer.length
  writer : b'.writeIndex = b.writeIndex ∨ b'.writeIndex = kCheapPrepend

theorem Settled.refl (b : Buffer) : Settled b b := ⟨rfl, .inl rfl⟩

theorem Settled.trans (b₁ b₂ b₃ : Buffer) (h₁ : Settled b₁ b₂) (h₂ : Settled b₂ b₃) :
    Settled b₁ b₃ := by
  refine ⟨h₂.size.trans h₁.size, ?_⟩
  rcases h₂.writer with h | h
  · rw [h]
    exact h₁.writer
  · exact .inr h

/-- Not the `length_error` of an allocation. -/
def NoAllocation : Fault → Buffer → Prop
  | .lengthError _, _ => False
  | _, _ => True

/-- A function that does not allocate and leaves the buffer settled. -/
def Quiet (m : Method α) : Prop := ∀ b, Effect Settled NoAllocation b m

theorem quiet_bind {m : Method α} {f : α → Method β} (hm : Quiet m) (hf : ∀ a, Quiet (f a)) :
    Quiet (m >>= f) := fun b =>
  effect_bind Settled.trans (hm b) fun a b' _ => hf a b'

theorem quiet_pure (a : α) : Quiet (pure a : Method α) := fun b => effect_pure (Settled.refl b) a

/-- The vector is written, not resized. -/
theorem quiet_copyIn (data : List Byte) (i : Nat) : Quiet (copyIn data i) := fun _ =>
  effect_get_bind <| effect_ite (fun hfit => effect_set ⟨length_overwrite hfit, .inl rfl⟩)
    fun _ => effect_throw trivial

theorem quiet_copyOut (lo len : Nat) : Quiet (copyOut lo len) := fun b =>
  effect_get_bind <| effect_ite (fun _ => effect_pure (Settled.refl b) _)
    fun _ => effect_throw trivial

theorem quiet_moveReadAll : Quiet moveReadAll := fun _ => effect_modify ⟨rfl, .inr rfl⟩

theorem quiet_moveReadBackward (len : Nat) : Quiet (moveReadBackward len) := fun b =>
  effect_get_bind <| effect_check_bind trivial fun _ =>
    effect_ite (fun _ => effect_set ⟨rfl, .inl rfl⟩) fun _ => quiet_moveReadAll b

theorem quiet_readToString (len : Nat) : Quiet (readToString len) := fun b =>
  effect_get_bind <| effect_check_bind trivial fun _ =>
    quiet_bind (quiet_copyOut b.readerIndex len)
      (fun _ => quiet_bind (quiet_moveReadBackward len) fun _ => quiet_pure _) b

theorem quiet_readAllToString : Quiet readAllToString := fun b =>
  effect_get_bind (quiet_readToString b.readableBytes b)

theorem quiet_writeFd (errnoInfo : Int) (res : WriteResult) : Quiet (writeFd errnoInfo res) :=
  fun b => effect_get_bind <| quiet_bind (quiet_copyOut b.readerIndex b.readableBytes) (fun _ => by
    cases res with
    | failed errno => exact quiet_pure _
    | accepted n => exact quiet_bind (quiet_moveReadBackward n) fun _ => quiet_pure _) b

theorem quiet_pushFront (data : List Byte) : Quiet (pushFront data) := fun _ =>
  effect_get_bind <| effect_check_bind trivial fun _ =>
    effect_bind Settled.trans (effect_set ⟨rfl, .inl rfl⟩)
      fun _ b' _ => effect_get_bind (quiet_copyIn data b'.readerIndex b')

/-! ## Making room -/

/-- The three ways of `EnsureWriteableBytes` to return. -/
inductive Room (A : Allocator) (b : Buffer) (len : Nat) : Buffer → Prop
  | enough (hroom : len ≤ b.writeableBytes) : Room A b len b
  | grown (hlen : b.writeableBytes < len)
      (hspace : b.buffer.length - b.writeIndex + b.readerIndex < kCheapPrepend + len) :
      Room A b len (b.resized (b.writeIndex + len))
  | compacted (hlen : b.writeableBytes < len)
      (hspace : ¬ b.buffer.length - b.writeIndex + b.readerIndex < kCheapPrepend + len) :
      Room A b len b.compacted

/-- The live data and the new bytes do not fit the vector together. -/
def Crowded (b : Buffer) (len : Nat) : Prop :=
  b.buffer.length < kCheapPrepend + (b.readableBytes + len)

theorem crowded_iff {len : Nat} (h : b.Wf A) :
    Crowded b len ↔ b.buffer.length - b.writeIndex + b.readerIndex < kCheapPrepend + len := by
  have hread := h.readableBytes_eq
  have hr := h.reader_le
  have hw := h.write_le
  unfold Crowded
  omega

/-- `EnsureWriteableBytes` returns in one of three ways, or is refused an allocation it needs. -/
theorem ensureWriteableBytes_room {len : Nat} (h : b.Wf A) (hov : NoOverflow b len) :
    (∃ b', (ensureWriteableBytes A len).run b = .ok () b' ∧ RoomFor A b len b' ∧ Room A b len b') ∨
      ∃ n, (ensureWriteableBytes A len).run b = .error (.lengthError n) b ∧ Crowded b len := by
  unfold ensureWriteableBytes
  rw [run_get_bind]
  by_cases hlen : b.writeableBytes < len
  · obtain ⟨hcheap, hgrow⟩ := hov hlen
    rw [h.writeableBytes_eq, prependableBytes] at hgrow
    rw [if_pos hlen]
    by_cases hspace : b.buffer.length - b.writeIndex + b.readerIndex < kCheapPrepend + len
    · have hmake : (makeSpace A len).run b = (resize A (b.writeIndex + len)).run b := by
        unfold makeSpace
        rw [run_get_bind, h.space_eq, uadd_of_lt hcheap, if_pos hspace,
          uadd_of_lt (hgrow hspace)]
      rw [resize_run] at hmake
      by_cases hmax : b.writeIndex + len ≤ A.maxSize
      · rw [if_pos hmax] at hmake
        have hroom := resized_roomFor h hlen hmax
        refine Or.inl ⟨_, ?_, hroom, .grown hlen hspace⟩
        rw [run_bind_of_ok hmake, run_get_bind]
        exact run_check_of hroom.room
      · rw [if_neg hmax] at hmake
        exact Or.inr ⟨_, run_bind_of_error hmake, (crowded_iff h).mpr hspace⟩
    · have hmake : (makeSpace A len).run b = .ok () b.compacted := by
        unfold makeSpace
        rw [run_get_bind, h.space_eq, uadd_of_lt hcheap, if_neg hspace]
        exact compact_run h hlen hspace
      have hroom := compacted_roomFor h hlen hspace
      refine Or.inl ⟨_, ?_, hroom, .compacted hlen hspace⟩
      rw [run_bind_of_ok hmake, run_get_bind]
      exact run_check_of hroom.room
  · rw [if_neg hlen]
    have hle : len ≤ b.writeableBytes := Nat.le_of_not_lt hlen
    exact Or.inl ⟨b, run_check_of hle, roomFor_self h hle, .enough hle⟩

/-- Growth is to `write_index + len`, and only when it is crowded. -/
inductive Sized (b : Buffer) (len : Nat) (b' : Buffer) : Prop
  | kept (hsize : b'.buffer.length = b.buffer.length)
  | grown (hcrowded : Crowded b len) (hmore : b.buffer.length < b'.buffer.length)
      (hsize : b'.buffer.length = b.writeIndex + len)

theorem Room.sized {len : Nat} (h : b.Wf A) (hroom : Room A b len b') : Sized b len b' := by
  have hw := h.write_le
  cases hroom with
  | enough => exact .kept rfl
  | grown hlen hspace =>
    have hsize := length_resized b (b.writeIndex + len)
    have hwriteable := h.writeableBytes_eq
    exact .grown ((crowded_iff h).mpr hspace) (by omega) hsize
  | compacted hlen hspace =>
    have hbeyond := reader_beyond_prepend h hlen hspace
    have hcont := h.length_contents
    have hread := h.readableBytes_eq
    have hr := h.reader_le
    exact .kept (length_overwrite (by omega))

/-- The writer is never put in front of `kCheapPrepend`. -/
theorem Room.writer {len : Nat} (h : b.Wf A) (hroom : Room A b len b')
    (hwriter : kCheapPrepend ≤ b.writeIndex) : kCheapPrepend ≤ b'.writeIndex := by
  cases hroom with
  | enough => exact hwriter
  | grown => exact hwriter
  | compacted hlen hspace =>
    have hbeyond := reader_beyond_prepend h hlen hspace
    have hlt := h.size_lt
    have hread := h.readableBytes_eq
    have hw := h.write_le
    show kCheapPrepend ≤ uadd 64 kCheapPrepend b.readableBytes
    rw [uadd_of_lt (by omega)]
    exact Nat.le_add_right _ _

/-- `PushBack` grows the vector no further than `EnsureWriteableBytes` does. -/
theorem pushBack_sized {data : List Byte} (h : b.Wf A) (hov : NoOverflow b data.length) :
    (∃ b', (pushBack A data).run b = .ok () b' ∧ b'.Wf A ∧ Sized b data.length b' ∧
        (kCheapPrepend ≤ b.writeIndex → kCheapPrepend ≤ b'.writeIndex)) ∨
      ∃ n, (pushBack A data).run b = .error (.lengthError n) b ∧ Crowded b data.length := by
  rw [pushBack_eq]
  rcases ensureWriteableBytes_room h hov with ⟨b₁, hrun, hfor, hroom⟩ | ⟨n, hrun, hcrowded⟩
  · obtain ⟨hwrite, hwf, -⟩ := writeAtWriteable_spec hfor.wf hfor.room
    have hsame : (b₁.appended data).buffer.length = b₁.buffer.length := by
      have hlen := hfor.room
      have hw := hfor.wf.write_le
      rw [hfor.wf.writeableBytes_eq] at hlen
      exact length_overwrite (by omega)
    refine Or.inl ⟨b₁.appended data, ?_, hwf, ?_, fun hwriter => ?_⟩
    · rw [run_bind_of_ok hrun, hwrite]
    · cases hroom.sized h with
      | kept hsize => exact .kept (hsame.trans hsize)
      | grown hcrowded hmore hsize =>
        exact .grown hcrowded (by rw [hsame]; exact hmore) (hsame.trans hsize)
    · exact Nat.le_trans (hroom.writer h hwriter) (Nat.le_add_right _ _)
  · exact Or.inr ⟨n, run_bind_of_error hrun, hcrowded⟩

/-! ## Calls -/

variable {s s' : Session} {op : Op} {M initialSize : Nat}

theorem call_cases (hcall : s.call A op = some s') :
    (∃ out b, (op.method A).run s.buf = .ok out b ∧
        s' = { buf := b, log := s.log ++ [(op, out)] }) ∨
      ∃ n b, (op.method A).run s.buf = .error (.lengthError n) b ∧
        s' = { buf := b, log := s.log ++ [(op, .threw n)] } := by
  unfold Session.call at hcall
  split at hcall
  next out b hrun =>
    cases hcall
    exact .inl ⟨out, b, hrun, rfl⟩
  next n b hrun =>
    cases hcall
    exact .inr ⟨n, b, hrun, rfl⟩
  next => cases hcall

/-- A call that returns does not show an exception. -/
theorem method_returns {out : Out} (hrun : (op.method A).run b = .ok out b') (n : Nat) :
    out ≠ .threw n := by
  rintro rfl
  cases op with
  | _ =>
    obtain ⟨_, _, -, hpure⟩ := bind_ok_iff.mp hrun
    cases hpure

/-- The calls that neither make room nor write behind the writer. -/
def Op.isQuiet : Op → Bool
  | .pushBack _ | .ensureWriteableBytes _ | .writeAtWriteable _ => false
  | _ => true

theorem quiet_method (hop : op.isQuiet = true) : Quiet (op.method A) := by
  cases op with
  | pushBack => cases hop
  | ensureWriteableBytes => cases hop
  | writeAtWriteable => cases hop
  | pushFront data => exact quiet_bind (quiet_pushFront data) fun _ => quiet_pure _
  | moveReadBackward len => exact quiet_bind (quiet_moveReadBackward len) fun _ => quiet_pure _
  | moveReadAll => exact quiet_bind quiet_moveReadAll fun _ => quiet_pure _
  | readToString len => exact quiet_bind (quiet_readToString len) fun _ => quiet_pure _
  | readAllToString => exact quiet_bind quiet_readAllToString fun _ => quiet_pure _
  | writeFd errnoInfo res => exact quiet_bind (quiet_writeFd errnoInfo res) fun _ => quiet_pure _

/-- The log grew by the call, which did not throw. -/
def Returned (s s' : Session) : Prop :=
  ∃ op out, s'.log = s.log ++ [(op, out)] ∧ ∀ n, out ≠ .threw n

theorem call_quiet (hop : op.isQuiet = true) (hcall : s.call A op = some s') :
    Settled s.buf s'.buf ∧ Returned s s' := by
  have heffect := quiet_method (A := A) hop s.buf
  rcases call_cases hcall with ⟨out, b, hrun, rfl⟩ | ⟨n, b, hrun, rfl⟩
  · exact ⟨heffect.returns hrun, op, out, rfl, method_returns hrun⟩
  · exact absurd (heffect.leaves hrun) id

theorem copyOut_same {lo len : Nat} {bytes : List Byte}
    (hrun : (copyOut lo len).run b = .ok bytes b') : b' = b := by
  unfold copyOut at hrun
  rw [run_get_bind] at hrun
  split at hrun
  · exact (pure_ok_iff.mp hrun).2
  · cases hrun

/-- Asserts stop a call that does not keep its precondition. -/
theorem legal_of_call (hop : op.isQuiet = true) (hcall : s.call A op = some s') : Legal s op := by
  have heffect := quiet_method (A := A) hop s.buf
  rcases call_cases hcall with ⟨out, b, hrun, rfl⟩ | ⟨n, b, hrun, rfl⟩
  · cases op with
    | pushBack => cases hop
    | ensureWriteableBytes => cases hop
    | writeAtWriteable => cases hop
    | pushFront data =>
      obtain ⟨_, _, hmethod, -⟩ := bind_ok_iff.mp hrun
      have hlen := of_get_check_ok hmethod
      exact hlen
    | moveReadBackward len =>
      obtain ⟨_, _, hmethod, -⟩ := bind_ok_iff.mp hrun
      have hlen := of_get_check_ok hmethod
      exact hlen
    | moveReadAll => trivial
    | readToString len =>
      obtain ⟨_, _, hmethod, -⟩ := bind_ok_iff.mp hrun
      have hlen := of_get_check_ok hmethod
      exact hlen
    | readAllToString => trivial
    | writeFd errnoInfo res =>
      cases res with
      | failed => trivial
      | accepted n =>
        obtain ⟨_, _, hmethod, -⟩ := bind_ok_iff.mp hrun
        unfold writeFd at hmethod
        rw [run_get_bind] at hmethod
        obtain ⟨_, _, hcopy, hmethod⟩ := bind_ok_iff.mp hmethod
        obtain rfl := copyOut_same hcopy
        obtain ⟨_, _, hmove, -⟩ := bind_ok_iff.mp hmethod
        have hlen := of_get_check_ok hmove
        exact hlen
  · exact absurd (heffect.leaves hrun) id

theorem copyIn_ok {data : List Byte} {i : Nat} (hrun : (copyIn data i).run b = .ok () b') :
    i + data.length ≤ b.buffer.length ∧ b' = { b with buffer := overwrite b.buffer i data } := by
  unfold copyIn at hrun
  rw [run_get_bind] at hrun
  split at hrun
  next hfit =>
    cases hrun
    exact ⟨hfit, rfl⟩
  next => cases hrun

/-- The vector keeps its size. -/
def SameSize (b b' : Buffer) : Prop := b'.buffer.length = b.buffer.length

theorem SameSize.trans (b₁ b₂ b₃ : Buffer) (h₁ : SameSize b₁ b₂) (h₂ : SameSize b₂ b₃) :
    SameSize b₁ b₃ := Eq.trans h₂ h₁

/-- A caller's own write stays inside the vector, keeps its size, and returns. -/
theorem call_writeAtWriteable {data : List Byte}
    (hcall : s.call A (.writeAtWriteable data) = some s') :
    Legal s (.writeAtWriteable data) ∧ s.buf.writeIndex + data.length ≤ s.buf.buffer.length ∧
      s'.buf.buffer.length = s.buf.buffer.length ∧ Returned s s' := by
  have hcopy (b : Buffer) (i : Nat) : Effect SameSize NoAllocation b (copyIn data i) :=
    ⟨fun h => ((quiet_copyIn data i b).returns h).size, (quiet_copyIn data i b).leaves⟩
  have hmove (b : Buffer) : Effect SameSize NoAllocation b (moveWriteBackward data.length) :=
    effect_get_bind (effect_check_bind trivial fun _ => effect_set rfl)
  have heffect : Effect SameSize NoAllocation s.buf ((Op.writeAtWriteable data).method A) :=
    effect_bind SameSize.trans
      (effect_get_bind (effect_bind SameSize.trans (hcopy _ _) fun _ b _ => hmove b))
      fun _ b _ => ⟨fun h => by cases h; rfl, fun h => by cases h⟩
  rcases call_cases hcall with ⟨out, b, hrun, rfl⟩ | ⟨n, b, hrun, rfl⟩
  · obtain ⟨_, _, hmethod, -⟩ := bind_ok_iff.mp hrun
    unfold writeAtWriteable at hmethod
    rw [run_get_bind] at hmethod
    obtain ⟨_, _, hcopy, hmove⟩ := bind_ok_iff.mp hmethod
    obtain ⟨hfit, rfl⟩ := copyIn_ok hcopy
    have hlen := of_get_check_ok hmove
    rw [writeableBytes, length_overwrite hfit] at hlen
    exact ⟨hlen, hfit, heffect.returns hrun, _, out, rfl, method_returns hrun⟩
  · exact absurd (heffect.leaves hrun) id

/-! ## Runs within a bound -/

/-- A `PushBack` or `EnsureWriteableBytes` is called with no more than `M` bytes to hold. -/
def Within (M : Nat) (s : Session) : Op → Prop
  | .pushBack data => s.buf.readableBytes + data.length ≤ M
  | .ensureWriteableBytes len => s.buf.readableBytes + len ≤ M
  | _ => True

instance (M : Nat) (s : Session) : (op : Op) → Decidable (Within M s op)
  | .pushBack data => inferInstanceAs (Decidable (s.buf.readableBytes + data.length ≤ M))
  | .ensureWriteableBytes len => inferInstanceAs (Decidable (s.buf.readableBytes + len ≤ M))
  | .pushFront _ | .writeAtWriteable _ | .moveReadBackward _ | .moveReadAll | .readToString _
  | .readAllToString | .writeFd _ _ => .isTrue trivial

/-- The vector's size between what it was constructed with and what live data has asked for. -/
structure Bounded (A : Allocator) (initialSize M : Nat) (s : Session) : Prop where
  wf : s.buf.Wf A
  low : kCheapPrepend + initialSize ≤ s.buf.buffer.length
  high : s.buf.buffer.length ≤ kCheapPrepend + max initialSize (2 * M)
  steady : M ≤ initialSize → s.buf.buffer.length = kCheapPrepend + initialSize ∧
    ∀ e ∈ s.log, ∀ n, e.2 ≠ .threw n

theorem Returned.steady (h : Returned s s') (hs : ∀ e ∈ s.log, ∀ n, e.2 ≠ .threw n) :
    ∀ e ∈ s'.log, ∀ n, e.2 ≠ .threw n := by
  obtain ⟨op, out, hlog, hout⟩ := h
  intro e he
  rw [hlog] at he
  rcases List.mem_append.mp he with he | he
  · exact hs e he
  · rw [List.mem_singleton.mp he]
    exact hout

theorem Bounded.returned (h : Bounded A initialSize M s) (hwf : s'.buf.Wf A)
    (hsize : s'.buf.buffer.length = s.buf.buffer.length) (hreturned : Returned s s') :
    Bounded A initialSize M s' where
  wf := hwf
  low := hsize ▸ h.low
  high := hsize ▸ h.high
  steady hM := ⟨hsize.trans (h.steady hM).1, hreturned.steady (h.steady hM).2⟩

/-- Where it is crowded the vector is smaller than the bound's live data. -/
theorem Bounded.not_crowded {len : Nat} (h : Bounded A initialSize M s)
    (hwithin : s.buf.readableBytes + len ≤ M) (hM : M ≤ initialSize) : ¬ Crowded s.buf len := by
  have hlow := h.low
  unfold Crowded
  omega

/-- The sums of a call within the bound do not overflow, unless the bound does. -/
theorem Bounded.noOverflow {len : Nat} (h : Bounded A initialSize M s)
    (hwithin : s.buf.readableBytes + len ≤ M) (hsmall : initialSize < 2 ^ 64 - kCheapPrepend)
    (hM : M ≤ initialSize ∨ kCheapPrepend + 2 * M < 2 ^ 64) : NoOverflow s.buf len := by
  have hcheap : kCheapPrepend = 8 := rfl
  have hlow := h.low
  have hw := h.wf.write_le
  have hr := h.wf.reader_le
  have hread := h.wf.readableBytes_eq
  intro hlen
  rw [h.wf.writeableBytes_eq] at hlen ⊢
  rw [prependableBytes]
  rcases hM with hM | hM
  · exact ⟨by omega, fun hspace => by omega⟩
  · exact ⟨by omega, fun hspace => by omega⟩

/-- The call of a growing function, on the session. -/
theorem Bounded.grow {len : Nat} (h : Bounded A initialSize M s) (hwf : s'.buf.Wf A)
    (hwithin : s.buf.readableBytes + len ≤ M) (hsized : Sized s.buf len s'.buf)
    (hreturned : Returned s s') : Bounded A initialSize M s' := by
  cases hsized with
  | kept hsize => exact h.returned hwf hsize hreturned
  | grown hcrowded hmore hsize =>
    have hw := h.wf.write_le
    have hread := h.wf.readableBytes_eq
    have hlow := h.low
    have hmax := Nat.le_max_right initialSize (2 * M)
    refine ⟨hwf, by omega, ?_, fun hM => absurd hcrowded (h.not_crowded hwithin hM)⟩
    unfold Crowded at hcrowded
    omega

theorem Bounded.refused {len n : Nat} (h : Bounded A initialSize M s)
    (hwithin : s.buf.readableBytes + len ≤ M) (hcrowded : Crowded s.buf len) :
    Bounded A initialSize M { buf := s.buf, log := s.log ++ [(op, .threw n)] } :=
  ⟨h.wf, h.low, h.high, fun hM => absurd hcrowded (h.not_crowded hwithin hM)⟩

/-- **A call within the bound keeps the bound.** -/
theorem bounded_step (hsmall : initialSize < 2 ^ 64 - kCheapPrepend)
    (hM : M ≤ initialSize ∨ kCheapPrepend + 2 * M < 2 ^ 64) (h : Bounded A initialSize M s)
    (hwithin : Within M s op) (hcall : s.call A op = some s') : Bounded A initialSize M s' := by
  cases op with
  | pushBack data =>
    have hov := h.noOverflow hwithin hsmall hM
    rcases pushBack_sized h.wf hov with ⟨b', hrun, hwf, hsized, -⟩ | ⟨n, hrun, hcrowded⟩
    · obtain rfl := eq_of_call_ok hcall (run_bind_of_ok hrun)
      exact h.grow hwf hwithin hsized ⟨_, _, rfl, nofun⟩
    · obtain rfl := eq_of_call_threw hcall (run_bind_of_error hrun)
      exact h.refused hwithin hcrowded
  | ensureWriteableBytes len =>
    have hov := h.noOverflow hwithin hsmall hM
    rcases ensureWriteableBytes_room h.wf hov with ⟨b', hrun, hfor, hroom⟩ | ⟨n, hrun, hcrowded⟩
    · obtain rfl := eq_of_call_ok hcall (run_bind_of_ok hrun)
      exact h.grow hfor.wf hwithin (hroom.sized h.wf) ⟨_, _, rfl, nofun⟩
    · obtain rfl := eq_of_call_threw hcall (run_bind_of_error hrun)
      exact h.refused hwithin hcrowded
  | writeAtWriteable data =>
    obtain ⟨hlegal, -, hsize, hreturned⟩ := call_writeAtWriteable hcall
    exact h.returned (wf_of_call h.wf hlegal hcall) hsize hreturned
  | _ =>
    obtain ⟨hsettled, hreturned⟩ := call_quiet rfl hcall
    have hwf := wf_of_call h.wf (legal_of_call rfl hcall) hcall
    exact h.returned hwf hsettled.size hreturned

/-! ## What the allocator grants -/

/-- A function that never leaves a vector larger than the allocator grants. -/
def Granted (A : Allocator) (m : Method α) : Prop :=
  ∀ b, b.buffer.length ≤ A.maxSize →
    Effect (fun _ b' => b'.buffer.length ≤ A.maxSize) (fun _ b' => b'.buffer.length ≤ A.maxSize) b m

theorem granted_bind {m : Method α} {f : α → Method β} (hm : Granted A m) (hf : ∀ a, Granted A (f a)) :
    Granted A (m >>= f) := fun b hb =>
  effect_bind (fun _ _ _ _ h => h) (hm b hb) fun a b' hb' => hf a b' hb'

theorem granted_pure (a : α) : Granted A (pure a : Method α) := fun _ hb => effect_pure hb a

theorem granted_assert (expr : String) (cond : Prop) [Decidable cond] :
    Granted A (check (.assertFailed expr) cond : Method Unit) := by
  intro b hb
  refine effect_check ?_ ?_
  · exact hb
  · exact hb

theorem granted_modify {f : Buffer → Buffer} (hf : ∀ b, (f b).buffer = b.buffer) :
    Granted A (modify f : Method Unit) := fun b hb => effect_modify (by rwa [hf b])

theorem granted_get_bind {f : Buffer → Method β} (hf : ∀ b, Granted A (f b)) :
    Granted A (get >>= f) := fun b hb => effect_get_bind (hf b b hb)

theorem granted_resize (n : Nat) : Granted A (resize A n) := fun b hb =>
  effect_get_bind <| effect_ite
    (fun hn => effect_set (Nat.le_trans (Nat.le_of_eq (length_resized b n)) hn))
    fun _ => effect_throw hb

theorem granted_copyIn (data : List Byte) (i : Nat) : Granted A (copyIn data i) := fun _ hb =>
  effect_get_bind <| effect_ite
    (fun hfit => effect_set (Nat.le_trans (Nat.le_of_eq (length_overwrite hfit)) hb))
    fun _ => effect_throw hb

theorem granted_compact : Granted A compact :=
  granted_get_bind fun b => granted_bind (granted_assert _ _) fun _ =>
    granted_bind (granted_get_bind fun b₁ => fun b₂ hb₂ => effect_ite
        (fun _ => granted_copyIn (window b₁.buffer b.readerIndex b.writeIndex) _ b₂ hb₂)
        fun _ => effect_throw hb₂)
      fun _ => granted_bind (granted_modify fun _ => rfl) fun _ =>
        granted_bind (granted_modify fun _ => rfl) fun _ =>
          granted_get_bind fun _ => granted_assert _ _

theorem granted_makeSpace (len : Nat) : Granted A (makeSpace A len) :=
  granted_get_bind fun _ => fun b hb =>
    effect_ite (fun _ => granted_resize _ b hb) fun _ => granted_compact b hb

theorem granted_ensureWriteableBytes (len : Nat) : Granted A (ensureWriteableBytes A len) := by
  refine granted_get_bind fun b => ?_
  split
  · exact granted_bind (granted_makeSpace len) fun _ => granted_get_bind fun _ => granted_assert _ _
  · exact granted_get_bind fun _ => granted_assert _ _

theorem granted_moveWriteBackward (len : Nat) : Granted A (moveWriteBackward len) := by
  intro b hb
  refine effect_get_bind (effect_check_bind ?_ fun _ => effect_set ?_)
  · exact hb
  · exact hb

theorem granted_writeAtWriteable (data : List Byte) : Granted A (writeAtWriteable data) :=
  granted_get_bind fun _ => granted_bind (granted_copyIn _ _) fun _ => granted_moveWriteBackward _

/-- No call, whatever its arguments, leaves a vector larger than the allocator grants. -/
theorem call_granted (hsize : s.buf.buffer.length ≤ A.maxSize) (hcall : s.call A op = some s') :
    s'.buf.buffer.length ≤ A.maxSize := by
  have hof (hgranted : Granted A (op.method A)) : s'.buf.buffer.length ≤ A.maxSize := by
    rcases call_cases hcall with ⟨out, b, hrun, rfl⟩ | ⟨n, b, hrun, rfl⟩
    · exact (hgranted s.buf hsize).returns hrun
    · exact (hgranted s.buf hsize).leaves hrun
  cases op with
  | pushBack data =>
    exact hof <| granted_bind (granted_bind (granted_ensureWriteableBytes _) fun _ =>
      granted_writeAtWriteable data) fun _ => granted_pure _
  | ensureWriteableBytes len =>
    exact hof <| granted_bind (granted_ensureWriteableBytes len) fun _ => granted_pure _
  | writeAtWriteable data =>
    exact hof <| granted_bind (granted_writeAtWriteable data) fun _ => granted_pure _
  | _ =>
    obtain ⟨hsettled, -⟩ := call_quiet rfl hcall
    rwa [hsettled.size]

/-! ## The constructor -/

/-- A constructed buffer, also when `kCheapPrepend + initial_size` overflows. -/
theorem construct_ok {raw b₀ : Buffer} (hrun : (construct A initialSize).run raw = .ok () b₀) :
    b₀.buffer.length = uadd 64 kCheapPrepend initialSize ∧ b₀.buffer.length ≤ A.maxSize ∧
      b₀.readerIndex = kCheapPrepend ∧ b₀.writeIndex = kCheapPrepend := by
  obtain ⟨_, b₁, hset, hrest⟩ := bind_ok_iff.mp hrun
  cases hset
  obtain ⟨_, b₂, hresize, hrest⟩ := bind_ok_iff.mp hrest
  rw [resize_run] at hresize
  split at hresize
  next hmax =>
    cases hresize
    rw [run_modify_bind, run_modify_bind, run_get_bind] at hrest
    obtain ⟨_, b₃, hcheck, hrest⟩ := bind_ok_iff.mp hrest
    obtain ⟨-, rfl⟩ := check_ok_iff.mp hcheck
    obtain ⟨_, b₄, hcheck, hrest⟩ := bind_ok_iff.mp hrest
    obtain ⟨-, rfl⟩ := check_ok_iff.mp hcheck
    obtain ⟨-, rfl⟩ := check_ok_iff.mp hrest
    have hlen := length_resized { buffer := [], readerIndex := 0, writeIndex := 0 }
      (uadd 64 kCheapPrepend initialSize)
    exact ⟨hlen, Nat.le_trans (Nat.le_of_eq hlen) hmax, rfl, rfl⟩
  next => cases hresize

theorem construct_bounded (hsmall : initialSize < 2 ^ 64 - kCheapPrepend) {raw b₀ : Buffer}
    (hnew : (construct A initialSize).run raw = .ok () b₀) :
    Bounded A initialSize M { buf := b₀, log := [] } := by
  obtain ⟨hlen, hmax, hreader, hwriter⟩ := construct_ok hnew
  have hcheap : kCheapPrepend = 8 := rfl
  rw [uadd_of_lt (by omega)] at hlen
  have hwf : b₀.Wf A := ⟨by omega, by omega, by omega, hmax⟩
  refine ⟨hwf, Nat.le_of_eq hlen.symm, ?_, fun _ => ⟨hlen, nofun⟩⟩
  show b₀.buffer.length ≤ _
  rw [hlen]
  exact Nat.add_le_add_left (Nat.le_max_left ..) _

/-- After an overflow in the constructor the vector has less than `kCheapPrepend` cells, and
`WriteableBytes()` is `initial_size` by another overflow: no call within the bound makes room. -/
structure Wrapped (initialSize size : Nat) (s : Session) : Prop where
  small : size < kCheapPrepend
  room : usub 64 size kCheapPrepend = initialSize
  length_eq : s.buf.buffer.length = size
  writer : s.buf.writeIndex = kCheapPrepend
  quiet : ∀ e ∈ s.log, ∀ n, e.2 ≠ .threw n

theorem Wrapped.writeableBytes_eq {size : Nat} (h : Wrapped initialSize size s) :
    s.buf.writeableBytes = initialSize := by
  rw [Buffer.writeableBytes, h.length_eq, h.writer]
  exact h.room

/-- Such a buffer cannot be written to at all. -/
theorem Wrapped.no_write {size : Nat} (h : Wrapped initialSize size s) (data : List Byte) :
    s.call A (.writeAtWriteable data) = none := by
  cases hcall : s.call A (.writeAtWriteable data) with
  | none => rfl
  | some s' =>
    obtain ⟨-, hfit, -⟩ := call_writeAtWriteable hcall
    have hsmall := h.small
    rw [h.writer, h.length_eq] at hfit
    omega

theorem ensureWriteableBytes_enough {len : Nat} (hlen : len ≤ b.writeableBytes) :
    (ensureWriteableBytes A len).run b = .ok () b := by
  unfold ensureWriteableBytes
  rw [run_get_bind, if_neg (Nat.not_lt.mpr hlen)]
  exact run_check_of hlen

theorem wrapped_step {size : Nat} (hM : M ≤ initialSize) (h : Wrapped initialSize size s)
    (hwithin : Within M s op) (hcall : s.call A op = some s') : Wrapped initialSize size s' := by
  have hwriteable := h.writeableBytes_eq
  cases op with
  | pushBack data =>
    have hlen : data.length ≤ s.buf.writeableBytes := by
      have hdata : s.buf.readableBytes + data.length ≤ M := hwithin
      omega
    have hsame : s.call A (.pushBack data) = none ↔ s.call A (.writeAtWriteable data) = none := by
      have hrun : (pushBack A data).run s.buf = (writeAtWriteable data).run s.buf := by
        rw [pushBack_eq, run_bind_of_ok (ensureWriteableBytes_enough hlen)]
      unfold Session.call Op.method
      rw [EStateM.run_bind, EStateM.run_bind, hrun]
      cases (writeAtWriteable data).run s.buf with
      | ok u b => exact ⟨nofun, nofun⟩
      | error e b => cases e <;> exact ⟨fun h => by cases h <;> rfl, fun h => by cases h <;> rfl⟩
    rw [hsame.mpr (h.no_write data)] at hcall
    cases hcall
  | ensureWriteableBytes len =>
    have hlen : len ≤ s.buf.writeableBytes := by
      have hdata : s.buf.readableBytes + len ≤ M := hwithin
      omega
    obtain rfl := eq_of_call_ok hcall (run_bind_of_ok (ensureWriteableBytes_enough hlen))
    exact ⟨h.small, h.room, h.length_eq, h.writer,
      Returned.steady ⟨_, _, rfl, nofun⟩ h.quiet⟩
  | writeAtWriteable data =>
    rw [h.no_write data] at hcall
    cases hcall
  | _ =>
    obtain ⟨hsettled, hreturned⟩ := call_quiet rfl hcall
    refine ⟨h.small, h.room, hsettled.size.trans h.length_eq, ?_, hreturned.steady h.quiet⟩
    rcases hsettled.writer with hw | hw
    · exact hw.trans h.writer
    · exact hw

theorem construct_wrapped (hsize : initialSize < 2 ^ 64)
    (hlarge : 2 ^ 64 - kCheapPrepend ≤ initialSize) {raw b₀ : Buffer}
    (hnew : (construct A initialSize).run raw = .ok () b₀) :
    Wrapped initialSize b₀.buffer.length { buf := b₀, log := [] } := by
  obtain ⟨hlen, -, -, hwriter⟩ := construct_ok hnew
  have hcheap : kCheapPrepend = 8 := rfl
  -- the vector has the few cells that are left of the sum
  have hsum : uadd 64 kCheapPrepend initialSize = initialSize + 8 - 2 ^ 64 := by
    unfold uadd
    omega
  refine ⟨by omega, ?_, rfl, hwriter, nofun⟩
  rw [hlen, hsum]
  unfold usub
  omega

/-- **The vector is bounded by the live data.** For every initial size, every bound `M` and every
run in which room is only asked for when the readable bytes and the new ones are at most `M`, the
vector never has more than `kCheapPrepend + max(initial_size, 2 * M)` cells, and when
`M <= initial_size` it keeps the size it was constructed with and no call throws. -/
theorem storage_bounded (A : Allocator) (initialSize M : Nat) (raw : Buffer) (ops : List Op)
    {b₀ : Buffer} {s : Session} (hsize : initialSize < 2 ^ 64)
    (hnew : (construct A initialSize).run raw = .ok () b₀)
    (hrun : (sessions A).exec { buf := b₀, log := [] } ops = some s)
    (hwithin : (sessions A).Along (Within M) { buf := b₀, log := [] } ops) :
    s.buf.buffer.length ≤ kCheapPrepend + max initialSize (2 * M) ∧
      (M ≤ initialSize → s.buf.buffer.length = b₀.buffer.length ∧
        ∀ e ∈ s.log, ∀ n, e.2 ≠ .threw n) := by
  have hcheap : kCheapPrepend = 8 := rfl
  have hmax : b₀.buffer.length ≤ A.maxSize := (construct_ok hnew).2.1
  have hgranted : s.buf.buffer.length ≤ A.maxSize :=
    StepSystem.exec_invariant (I := fun s => s.buf.buffer.length ≤ A.maxSize)
      (fun _ _ _ hle hcall => call_granted hle hcall) hmax hrun
  have hlt := A.maxSize_lt
  by_cases hsmall : initialSize < 2 ^ 64 - kCheapPrepend
  · by_cases hM : M ≤ initialSize ∨ kCheapPrepend + 2 * M < 2 ^ 64
    · have hbounded : Bounded A initialSize M s :=
        StepSystem.exec_invariant_along (C := Within M) (I := Bounded A initialSize M)
          (fun _ _ _ h hC hcall => bounded_step hsmall hM h hC hcall)
          (construct_bounded hsmall hnew) hwithin hrun
      refine ⟨hbounded.high, fun hM => ?_⟩
      obtain ⟨hlen, hquiet⟩ := hbounded.steady hM
      obtain ⟨hlen₀, -⟩ := (construct_bounded hsmall hnew : Bounded A initialSize M _).steady hM
      exact ⟨hlen.trans hlen₀.symm, hquiet⟩
    · -- a bound beyond the address space
      have hlive := Nat.le_max_right initialSize (2 * M)
      exact ⟨by omega, fun h => absurd (.inl h) hM⟩
  · have hinit := Nat.le_max_left initialSize (2 * M)
    refine ⟨by omega, fun hM => ?_⟩
    have hwrapped : Wrapped initialSize b₀.buffer.length s :=
      StepSystem.exec_invariant_along (C := Within M) (I := Wrapped initialSize b₀.buffer.length)
        (fun _ _ _ h hC hcall => wrapped_step hM h hC hcall)
        (construct_wrapped hsize (Nat.le_of_not_lt hsmall) hnew) hwithin hrun
    exact ⟨hwrapped.length_eq, hwrapped.quiet⟩

/-- Six bytes into room for eight, four of them read, and six more: `MakeSpace` compacts. -/
def compactingCalls : List Op :=
  [.pushBack [1, 2, 3, 4, 5, 6], .readToString 4, .pushBack [7, 8, 9, 10, 11, 12]]

theorem storage_bounded_compactingCalls :
    ∃ s, (sessions wholeAddressSpace).exec { buf := fresh 8, log := [] } compactingCalls =
        some s ∧
      s.buf.buffer.length ≤ kCheapPrepend + max 8 (2 * 8) ∧
      (8 ≤ 8 → s.buf.buffer.length = (fresh 8).buffer.length ∧
        ∀ e ∈ s.log, ∀ n, e.2 ≠ .threw n) :=
  ⟨_, rfl, storage_bounded wholeAddressSpace 8 8 ⟨[], 0, 0⟩ compactingCalls (by decide) rfl rfl
    (by decide)⟩

end TurboNet.Net.Buffer
