/-
# TurboNet.Net.BufferSpec — one specification for each member function of `Buffer`.

`Wf` is the invariant of the two indices; `contents` is the byte sequence a buffer stands for.  Each
theorem below says what one member function does to both when its caller keeps the function's own
precondition, and that none of its asserts and no access outside the vector can happen.  Callers
cite these and never unfold a member function again.

The compaction branch of `MakeSpace` is the one place where the invariant has work to do: it is
entered with fewer than `len` writeable bytes but room for `len` once the front is reclaimed, and
only therefore is the reader beyond `kCheapPrepend` (`reader_beyond_prepend`).
-/
import TurboNet.Net.Buffer

namespace TurboNet.Net.Buffer

open TurboNet.Lib

variable {A : Allocator} {b : Buffer}

/-- The bytes between the two indices. -/
def contents (b : Buffer) : List Byte := window b.buffer b.readerIndex b.writeIndex

/-- `reader_index_ <= write_index <= buffer_.size()`, the reserved prefix lies inside the vector,
and the vector is no larger than its allocator grants. -/
structure Wf (A : Allocator) (b : Buffer) : Prop where
  prepend_le : kCheapPrepend ≤ b.buffer.length
  reader_le : b.readerIndex ≤ b.writeIndex
  write_le : b.writeIndex ≤ b.buffer.length
  size_le : b.buffer.length ≤ A.maxSize

/-- No `size_t` sum that `EnsureWriteableBytes(len)` evaluates on `b` overflows. -/
def NoOverflow (b : Buffer) (len : Nat) : Prop :=
  b.writeableBytes < len → kCheapPrepend + len < 2 ^ 64 ∧
    (b.writeableBytes + b.prependableBytes < kCheapPrepend + len → b.writeIndex + len < 2 ^ 64)

/-! ## The three lengths -/

theorem Wf.size_lt (h : b.Wf A) : b.buffer.length < 2 ^ 64 :=
  Nat.lt_of_le_of_lt h.size_le A.maxSize_lt

theorem Wf.writeableBytes_eq (h : b.Wf A) : b.writeableBytes = b.buffer.length - b.writeIndex :=
  usub_of_le h.write_le h.size_lt

theorem Wf.readableBytes_eq (h : b.Wf A) : b.readableBytes = b.writeIndex - b.readerIndex :=
  usub_of_le h.reader_le (Nat.lt_of_le_of_lt h.write_le h.size_lt)

theorem Wf.length_contents (h : b.Wf A) : b.contents.length = b.readableBytes := by
  rw [contents, length_window h.write_le, h.readableBytes_eq]

/-! ## The vector -/

/-- What `b` is after the vector has grown or shrunk to `n` cells. -/
def resized (b : Buffer) (n : Nat) : Buffer :=
  { b with buffer := b.buffer.take n ++ List.replicate (n - b.buffer.length) 0 }

theorem length_resized (b : Buffer) (n : Nat) : (b.resized n).buffer.length = n := by
  simp only [resized, List.length_append, List.length_take, List.length_replicate]
  omega

theorem resize_run (A : Allocator) (b : Buffer) (n : Nat) :
    (resize A n).run b =
      if n ≤ A.maxSize then .ok () (b.resized n) else .error (.lengthError n) b := by
  unfold resize resized
  simp only [EStateM.run_bind, EStateM.run_get]
  split <;> rfl

theorem copyIn_run {data : List Byte} {i : Nat} (h : i + data.length ≤ b.buffer.length) :
    (copyIn data i).run b = .ok () { b with buffer := overwrite b.buffer i data } := by
  unfold copyIn
  simp only [EStateM.run_bind, EStateM.run_get, if_pos h]
  rfl

theorem copyOut_run {lo len : Nat} (h : lo + len ≤ b.buffer.length) :
    (copyOut lo len).run b = .ok (window b.buffer lo (lo + len)) b := by
  unfold copyOut
  simp only [EStateM.run_bind, EStateM.run_get, if_pos h]
  rfl

theorem copyWithin_run {lo hi dst : Nat} (hlo : lo ≤ hi) (hhi : hi ≤ b.buffer.length)
    (hdst : dst ≤ lo) (hne : dst = lo → lo = hi) :
    (copyWithin lo hi dst).run b =
      .ok () { b with buffer := overwrite b.buffer dst (window b.buffer lo hi) } := by
  have hlen : (window b.buffer lo hi).length = hi - lo := length_window hhi
  unfold copyWithin
  simp only [EStateM.run_bind, EStateM.run_get]
  rw [if_pos ⟨hlo, hhi, by omega⟩]
  exact copyIn_run (by omega)

/-! ## Making room -/

/-- `b'` is `b` with room for `len` more bytes and the same contents. -/
structure RoomFor (A : Allocator) (b : Buffer) (len : Nat) (b' : Buffer) : Prop where
  wf : b'.Wf A
  contents_eq : b'.contents = b.contents
  room : len ≤ b'.writeableBytes
  reader : kCheapPrepend ≤ b.readerIndex → kCheapPrepend ≤ b'.readerIndex

/-- The sum `WriteableBytes() + PrependableBytes()` is at most the size of the vector. -/
theorem Wf.space_eq (h : b.Wf A) :
    uadd 64 b.writeableBytes b.prependableBytes =
      b.buffer.length - b.writeIndex + b.readerIndex := by
  have hsum : b.writeableBytes + b.prependableBytes =
      b.buffer.length - b.writeIndex + b.readerIndex := by
    rw [h.writeableBytes_eq, prependableBytes]
  have hlt := h.size_lt
  have hr := h.reader_le
  have hw := h.write_le
  rw [← hsum]
  exact uadd_of_lt (by omega)

/-- The assert of the compaction branch: too little room behind the writer, enough in total. -/
theorem reader_beyond_prepend {len : Nat} (h : b.Wf A) (hlen : b.writeableBytes < len)
    (hspace : ¬ b.buffer.length - b.writeIndex + b.readerIndex < kCheapPrepend + len) :
    kCheapPrepend < b.readerIndex := by
  rw [h.writeableBytes_eq] at hlen
  omega

theorem resized_roomFor {len : Nat} (h : b.Wf A) (hlen : b.writeableBytes < len)
    (hmax : b.writeIndex + len ≤ A.maxSize) : RoomFor A b len (b.resized (b.writeIndex + len)) := by
  have hp := h.prepend_le
  have hr := h.reader_le
  have hw := h.write_le
  rw [h.writeableBytes_eq] at hlen
  have hsize := length_resized b (b.writeIndex + len)
  have hwf : (b.resized (b.writeIndex + len)).Wf A :=
    ⟨by omega, hr, by rw [hsize]; exact Nat.le_add_right _ _, by rw [hsize]; exact hmax⟩
  refine ⟨hwf, ?_, ?_, id⟩
  · have htake : b.writeIndex ≤ (b.buffer.take (b.writeIndex + len)).length := by
      rw [List.length_take]
      omega
    exact (window_append_right htake).trans (window_take (Nat.le_add_right _ _))
  · rw [hwf.writeableBytes_eq, hsize]
    exact Nat.le_of_eq (Nat.add_sub_cancel_left _ _).symm

/-- What `b` is after its readable bytes have been moved to the front. -/
def compacted (b : Buffer) : Buffer where
  buffer := overwrite b.buffer kCheapPrepend b.contents
  readerIndex := kCheapPrepend
  writeIndex := uadd 64 kCheapPrepend b.readableBytes

theorem compacted_roomFor {len : Nat} (h : b.Wf A) (hlen : b.writeableBytes < len)
    (hspace : ¬ b.buffer.length - b.writeIndex + b.readerIndex < kCheapPrepend + len) :
    RoomFor A b len b.compacted := by
  have hbeyond := reader_beyond_prepend h hlen hspace
  have hr := h.reader_le
  have hw := h.write_le
  have hlt := h.size_lt
  have hread := h.readableBytes_eq
  have hcont := h.length_contents
  have hsize : b.compacted.buffer.length = b.buffer.length :=
    length_overwrite (by omega)
  have hwrite : b.compacted.writeIndex = kCheapPrepend + b.contents.length := by
    rw [hcont]
    exact uadd_of_lt (by omega)
  have hwf : b.compacted.Wf A :=
    ⟨by rw [hsize]; exact h.prepend_le, by rw [hwrite]; exact Nat.le_add_right _ _,
      by rw [hsize, hwrite]; omega, by rw [hsize]; exact h.size_le⟩
  refine ⟨hwf, ?_, ?_, fun _ => Nat.le_refl _⟩
  · rw [contents, hwrite]
    exact window_overwrite_self h.prepend_le
  · rw [hwf.writeableBytes_eq, hsize, hwrite]
    omega

theorem compact_run {len : Nat} (h : b.Wf A) (hlen : b.writeableBytes < len)
    (hspace : ¬ b.buffer.length - b.writeIndex + b.readerIndex < kCheapPrepend + len) :
    compact.run b = .ok () b.compacted := by
  have hroom := compacted_roomFor h hlen hspace
  have hbeyond := reader_beyond_prepend h hlen hspace
  have hsame : b.readableBytes = b.compacted.readableBytes := by
    rw [← h.length_contents, ← hroom.wf.length_contents, hroom.contents_eq]
  unfold compact
  rw [run_get_bind, run_bind_of_ok (run_check_of hbeyond),
    run_bind_of_ok (copyWithin_run h.reader_le h.write_le (Nat.le_of_lt hbeyond) (by omega)),
    run_modify_bind, run_modify_bind,
    run_get_bind]
  exact run_check_of hsame

/-- **`MakeSpace`.** Called with too little room, it either makes room for `len` bytes or leaves by
the `length_error` of a growth the allocator refuses. -/
theorem makeSpace_spec {len : Nat} (h : b.Wf A) (hlen : b.writeableBytes < len)
    (hov : NoOverflow b len) :
    (∃ b', (makeSpace A len).run b = .ok () b' ∧ RoomFor A b len b') ∨
      (makeSpace A len).run b = .error (.lengthError (b.writeIndex + len)) b ∧
        A.maxSize < b.writeIndex + len := by
  obtain ⟨hcheap, hgrow⟩ := hov hlen
  rw [h.writeableBytes_eq, prependableBytes] at hgrow
  unfold makeSpace
  rw [run_get_bind, h.space_eq, uadd_of_lt hcheap]
  by_cases hspace : b.buffer.length - b.writeIndex + b.readerIndex < kCheapPrepend + len
  · -- growing: the reader stays where it is, also when `PushFront` moved it into the prefix
    rw [if_pos hspace, uadd_of_lt (hgrow hspace), resize_run]
    by_cases hmax : b.writeIndex + len ≤ A.maxSize
    · rw [if_pos hmax]
      exact Or.inl ⟨_, rfl, resized_roomFor h hlen hmax⟩
    · rw [if_neg hmax]
      exact Or.inr ⟨rfl, Nat.lt_of_not_le hmax⟩
  · rw [if_neg hspace, compact_run h hlen hspace]
    exact Or.inl ⟨_, rfl, compacted_roomFor h hlen hspace⟩

theorem roomFor_self {len : Nat} (h : b.Wf A) (hlen : len ≤ b.writeableBytes) :
    RoomFor A b len b := ⟨h, rfl, hlen, id⟩

/-- **`EnsureWriteableBytes`.** -/
theorem ensureWriteableBytes_spec {len : Nat} (h : b.Wf A) (hov : NoOverflow b len) :
    (∃ b', (ensureWriteableBytes A len).run b = .ok () b' ∧ RoomFor A b len b') ∨
      (ensureWriteableBytes A len).run b = .error (.lengthError (b.writeIndex + len)) b ∧
        A.maxSize < b.writeIndex + len := by
  unfold ensureWriteableBytes
  rw [run_get_bind]
  by_cases hlen : b.writeableBytes < len
  · rw [if_pos hlen]
    rcases makeSpace_spec h hlen hov with ⟨b', hrun, hroom⟩ | ⟨hrun, hmax⟩
    · refine Or.inl ⟨b', ?_, hroom⟩
      rw [run_bind_of_ok hrun, run_get_bind]
      exact run_check_of hroom.room
    · exact Or.inr ⟨run_bind_of_error hrun, hmax⟩
  · rw [if_neg hlen]
    have hle : len ≤ b.writeableBytes := Nat.le_of_not_lt hlen
    exact Or.inl ⟨b, run_check_of hle, roomFor_self h hle⟩

/-! ## Appending and prepending -/

/-- What `b` is after `data` has been stored behind the writer and the writer moved over it. -/
def appended (b : Buffer) (data : List Byte) : Buffer :=
  { b with buffer := overwrite b.buffer b.writeIndex data,
           writeIndex := b.writeIndex + data.length }

/-- **A write at `WriteableAddress()`** of no more than `WriteableBytes()` bytes appends them. -/
theorem writeAtWriteable_spec {data : List Byte} (h : b.Wf A)
    (hlen : data.length ≤ b.writeableBytes) :
    (writeAtWriteable data).run b = .ok () (b.appended data) ∧ (b.appended data).Wf A ∧
      (b.appended data).contents = b.contents ++ data := by
  have hw := h.write_le
  have hlt := h.size_lt
  have hroom : b.writeIndex + data.length ≤ b.buffer.length := by
    rw [h.writeableBytes_eq] at hlen
    omega
  have hsize : (overwrite b.buffer b.writeIndex data).length = b.buffer.length :=
    length_overwrite hroom
  refine ⟨?_, ⟨?_, ?_, ?_, ?_⟩, ?_⟩
  · have hassert : data.length ≤
        ({ b with buffer := overwrite b.buffer b.writeIndex data } : Buffer).writeableBytes := by
      simpa only [writeableBytes, hsize] using hlen
    unfold writeAtWriteable
    rw [run_get_bind, run_bind_of_ok (copyIn_run hroom)]
    unfold moveWriteBackward
    rw [run_get_bind, run_bind_of_ok (run_check_of hassert)]
    simp only [EStateM.run_set, appended]
    rw [uadd_of_lt (by omega)]
  · exact hsize ▸ h.prepend_le
  · exact Nat.le_trans h.reader_le (Nat.le_add_right _ _)
  · exact hsize ▸ hroom
  · exact hsize ▸ h.size_le
  · change window (overwrite b.buffer b.writeIndex data) b.readerIndex
      (b.writeIndex + data.length) = b.contents ++ data
    rw [← window_append h.reader_le (Nat.le_add_right b.writeIndex data.length) (hsize ▸ hroom),
      window_overwrite_before (Nat.le_refl _) hw, window_overwrite_self hw]
    rfl

/-- `PushBack` is `EnsureWriteableBytes` followed by a write at `WriteableAddress()`. -/
theorem pushBack_eq (A : Allocator) (data : List Byte) :
    pushBack A data = (do ensureWriteableBytes A data.length; writeAtWriteable data) := rfl

/-- **`PushBack`.** -/
theorem pushBack_spec {data : List Byte} (h : b.Wf A) (hov : NoOverflow b data.length) :
    (∃ b', (pushBack A data).run b = .ok () b' ∧ b'.Wf A ∧ b'.contents = b.contents ++ data ∧
        (kCheapPrepend ≤ b.readerIndex → kCheapPrepend ≤ b'.readerIndex)) ∨
      (pushBack A data).run b = .error (.lengthError (b.writeIndex + data.length)) b ∧
        A.maxSize < b.writeIndex + data.length := by
  rw [pushBack_eq]
  rcases ensureWriteableBytes_spec h hov with ⟨b', hrun, hroom⟩ | ⟨hrun, hmax⟩
  · obtain ⟨hwrite, hwf, hcont⟩ := writeAtWriteable_spec hroom.wf hroom.room
    refine Or.inl ⟨b'.appended data, ?_, hwf, ?_, hroom.reader⟩
    · rw [run_bind_of_ok hrun, hwrite]
    · rw [hcont, hroom.contents_eq]
  · exact Or.inr ⟨run_bind_of_error hrun, hmax⟩

/-- **`PushFront`** of no more than `PrependableBytes()` bytes prepends them. -/
theorem pushFront_spec {data : List Byte} (h : b.Wf A) (hlen : data.length ≤ b.prependableBytes) :
    ∃ b', (pushFront data).run b = .ok () b' ∧ b'.Wf A ∧ b'.contents = data ++ b.contents := by
  have hr := h.reader_le
  have hw := h.write_le
  have hlt := h.size_lt
  have hlen' : data.length ≤ b.readerIndex := hlen
  have hreader : usub 64 b.readerIndex data.length = b.readerIndex - data.length :=
    usub_of_le hlen' (by omega)
  have hroom : b.readerIndex - data.length + data.length ≤ b.buffer.length := by omega
  have hsize : (overwrite b.buffer (b.readerIndex - data.length) data).length = b.buffer.length :=
    length_overwrite hroom
  refine ⟨{ b with buffer := overwrite b.buffer (b.readerIndex - data.length) data,
                   readerIndex := b.readerIndex - data.length }, ?_, ⟨?_, ?_, ?_, ?_⟩, ?_⟩
  · unfold pushFront
    rw [run_get_bind, run_bind_of_ok (run_check_of hlen)]
    simp only [EStateM.run_bind, EStateM.run_set, EStateM.run_get, hreader]
    exact copyIn_run hroom
  · exact hsize ▸ h.prepend_le
  · exact Nat.le_trans (Nat.sub_le _ _) hr
  · exact hsize ▸ hw
  · exact hsize ▸ h.size_le
  · have hmid : b.readerIndex - data.length + data.length = b.readerIndex :=
      Nat.sub_add_cancel hlen'
    have hstart : b.readerIndex - data.length ≤ b.buffer.length := by omega
    change window (overwrite b.buffer (b.readerIndex - data.length) data)
      (b.readerIndex - data.length) b.writeIndex = data ++ b.contents
    rw [← window_append (Nat.sub_le b.readerIndex data.length) hr (hsize ▸ hw)]
    congr 1
    · conv_lhs => rw [← hmid]
      rw [Nat.add_sub_cancel]
      exact window_overwrite_self hstart
    · exact window_overwrite_after (Nat.le_of_eq hmid) hstart

/-! ## Reading -/

/-- **`MoveReadAll`** empties the buffer. -/
theorem moveReadAll_spec (h : b.Wf A) :
    ∃ b', moveReadAll.run b = .ok () b' ∧ b'.Wf A ∧ b'.contents = [] ∧
      kCheapPrepend ≤ b'.readerIndex :=
  ⟨{ b with readerIndex := kCheapPrepend, writeIndex := kCheapPrepend }, rfl,
    ⟨h.prepend_le, Nat.le_refl _, h.prepend_le, h.size_le⟩, window_self _ _, Nat.le_refl _⟩

/-- **`MoveReadBackward`** of no more than `ReadableBytes()` bytes drops them. -/
theorem moveReadBackward_spec {len : Nat} (h : b.Wf A) (hlen : len ≤ b.readableBytes) :
    ∃ b', (moveReadBackward len).run b = .ok () b' ∧ b'.Wf A ∧ b'.contents = b.contents.drop len ∧
      (kCheapPrepend ≤ b.readerIndex → kCheapPrepend ≤ b'.readerIndex) := by
  have hw := h.write_le
  have hlt := h.size_lt
  have hread := h.readableBytes_eq
  by_cases hpart : len < b.readableBytes
  · have hreader : uadd 64 b.readerIndex len = b.readerIndex + len := uadd_of_lt (by omega)
    refine ⟨{ b with readerIndex := b.readerIndex + len }, ?_,
      ⟨h.prepend_le, ?_, h.write_le, h.size_le⟩, (drop_window _ _ _ _).symm, ?_⟩
    · unfold moveReadBackward
      rw [run_get_bind, run_bind_of_ok (run_check_of hlen), if_pos hpart,
        hreader]
      rfl
    · change b.readerIndex + len ≤ b.writeIndex
      omega
    · exact fun hr => Nat.le_trans hr (Nat.le_add_right _ _)
  · obtain ⟨b', hrun, hwf, hcont, hr⟩ := moveReadAll_spec h
    refine ⟨b', ?_, hwf, ?_, fun _ => hr⟩
    · unfold moveReadBackward
      rw [run_get_bind, run_bind_of_ok (run_check_of hlen), if_neg hpart,
        hrun]
    · have hall : b.contents.length ≤ len := by
        rw [h.length_contents]
        omega
      rw [hcont, List.drop_eq_nil_of_le hall]

/-- Copying out the first `len` readable bytes. -/
theorem copyOut_contents {len : Nat} (h : b.Wf A) (hlen : len ≤ b.readableBytes) :
    (copyOut b.readerIndex len).run b = .ok (b.contents.take len) b := by
  have hw := h.write_le
  have hread := h.readableBytes_eq
  have hr := h.reader_le
  rw [copyOut_run (by omega), contents, take_window (by omega)]

/-- **`ReadToString`** returns and drops the first `len` bytes. -/
theorem readToString_spec {len : Nat} (h : b.Wf A) (hlen : len ≤ b.readableBytes) :
    ∃ b', (readToString len).run b = .ok (b.contents.take len) b' ∧ b'.Wf A ∧
      b'.contents = b.contents.drop len ∧
      (kCheapPrepend ≤ b.readerIndex → kCheapPrepend ≤ b'.readerIndex) := by
  obtain ⟨b', hrun, hspec⟩ := moveReadBackward_spec h hlen
  refine ⟨b', ?_, hspec⟩
  unfold readToString
  rw [run_get_bind, run_bind_of_ok (run_check_of hlen),
    run_bind_of_ok (copyOut_contents h hlen), run_bind_of_ok hrun]
  rfl

/-- **`ReadAllToString`** returns everything and leaves the buffer empty. -/
theorem readAllToString_spec (h : b.Wf A) :
    ∃ b', readAllToString.run b = .ok b.contents b' ∧ b'.Wf A ∧ b'.contents = [] ∧
      (kCheapPrepend ≤ b.readerIndex → kCheapPrepend ≤ b'.readerIndex) := by
  obtain ⟨b', hrun, hwf, hcont, hr⟩ := readToString_spec h (Nat.le_refl b.readableBytes)
  have hall : b.contents.length ≤ b.readableBytes := Nat.le_of_eq h.length_contents
  rw [List.take_of_length_le hall] at hrun
  rw [List.drop_eq_nil_of_le hall] at hcont
  refine ⟨b', ?_, hwf, hcont, hr⟩
  unfold readAllToString
  rw [run_get_bind, hrun]

/-- **`WriteFd`, accepted.** The kernel takes the first `n` readable bytes, and these are dropped. -/
theorem writeFd_accepted_spec {n : Nat} (errnoInfo : Int) (h : b.Wf A)
    (hn : n ≤ b.readableBytes) :
    ∃ b', (writeFd errnoInfo (.accepted n)).run b =
        .ok { sent := b.contents.take n, ret := n, errnoInfo := errnoInfo } b' ∧
      b'.Wf A ∧ b'.contents = b.contents.drop n ∧
      (kCheapPrepend ≤ b.readerIndex → kCheapPrepend ≤ b'.readerIndex) := by
  obtain ⟨b', hrun, hspec⟩ := moveReadBackward_spec h hn
  have hall : b.contents.length ≤ b.readableBytes := Nat.le_of_eq h.length_contents
  refine ⟨b', ?_, hspec⟩
  unfold writeFd
  rw [run_get_bind,
    run_bind_of_ok (copyOut_contents h (Nat.le_refl b.readableBytes)),
    List.take_of_length_le hall, run_bind_of_ok hrun]
  rfl

/-- **`WriteFd`, failed.** The buffer stays as it is and the caller gets `errno`. -/
theorem writeFd_failed_spec (errnoInfo errno : Int) (h : b.Wf A) :
    (writeFd errnoInfo (.failed errno)).run b =
      .ok { sent := [], ret := 2 ^ 64 - 1, errnoInfo := errno } b := by
  unfold writeFd
  rw [run_get_bind,
    run_bind_of_ok (copyOut_contents h (Nat.le_refl b.readableBytes))]
  rfl

/-! ## The constructor -/

/-- A buffer as its constructor leaves it. -/
def fresh (initialSize : Nat) : Buffer where
  buffer := List.replicate (kCheapPrepend + initialSize) 0
  readerIndex := kCheapPrepend
  writeIndex := kCheapPrepend

end TurboNet.Net.Buffer
