/-
# TurboNet.Net.BufferRoom — when `EnsureWriteableBytes` keeps its promise.

`EnsureWriteableBytes(len)` and `MakeSpace(len)` evaluate `kCheapPrepend + len` and, to grow,
`write_index + len`.  Without a wrap the call makes room or is refused it
(`ensureWriteableBytes_spec`).  The two sums wrap in different ranges of `len`.  When the second one
does, the vector shrinks below the writer, and the call returns because `WriteableBytes()` wraps as
well (`grow_wraps`).  When the first one does and the branch for compaction is taken, no vector is
large enough, and one of the asserts fires (`compact_too_small`).
-/
import TurboNet.Net.BufferReadFd

namespace TurboNet.Net.Buffer

open TurboNet.Lib

variable {A : Allocator} {b b' : Buffer} {len : Nat}

/-- A call of `EnsureWriteableBytes(len)` throws with the buffer as it was, or returns with room for
`len` bytes, the same readable bytes and the indices in order. -/
def EnsuresRoom (A : Allocator) (b : Buffer) (len : Nat) : Prop :=
  (∃ n, (ensureWriteableBytes A len).run b = .error (.lengthError n) b) ∨
    ∃ b', (ensureWriteableBytes A len).run b = .ok () b' ∧ len ≤ b'.writeableBytes ∧
      b'.contents = b.contents ∧ b'.readerIndex ≤ b'.writeIndex ∧ b'.writeIndex ≤ b'.buffer.length

theorem ensures_of_noOverflow (h : b.Wf A) (hov : NoOverflow b len) : EnsuresRoom A b len := by
  rcases ensureWriteableBytes_spec h hov with ⟨b', hrun, hroom⟩ | ⟨hrun, -⟩
  · exact .inr ⟨b', hrun, hroom.room, hroom.contents_eq, hroom.wf.reader_le, hroom.wf.write_le⟩
  · exact .inl ⟨_, hrun⟩

/-! ## With too little room -/

/-- `MakeSpace(len)` throws, or returns with room for `len` bytes behind a writer in the vector. -/
def MakesSpace (A : Allocator) (b : Buffer) (len : Nat) : Prop :=
  (∃ n, (makeSpace A len).run b = .error (.lengthError n) b) ∨
    ∃ b', (makeSpace A len).run b = .ok () b' ∧ len ≤ b'.writeableBytes ∧
      b'.writeIndex ≤ b'.buffer.length

theorem EnsuresRoom.makesSpace (hlen : b.writeableBytes < len) (h : EnsuresRoom A b len) :
    MakesSpace A b len := by
  rcases h with ⟨n, hrun⟩ | ⟨b', hrun, hroom, -, -, hwriter⟩
  · unfold ensureWriteableBytes at hrun
    rw [run_get_bind, if_pos hlen] at hrun
    rcases bind_error_iff.mp hrun with hmake | ⟨_, b₁, -, hcheck⟩
    · exact .inl ⟨n, hmake⟩
    · rw [run_get_bind] at hcheck
      obtain ⟨-, hfault, -⟩ := check_error_iff.mp hcheck
      cases hfault
  · exact .inr ⟨b', (makeSpace_of_ensure_ok hlen hrun).1, hroom, hwriter⟩

/-- A compaction keeps the vector's size and puts the writer behind the reserved prefix. -/
theorem compact_ok (h : b.Wf A) (hrun : compact.run b = .ok () b') :
    b'.buffer.length = b.buffer.length ∧ kCheapPrepend ≤ b'.writeIndex := by
  have hcheap : kCheapPrepend = 8 := rfl
  have hread := h.readableBytes_eq
  have hr := h.reader_le
  have hw := h.write_le
  have hlt := h.size_lt
  unfold compact at hrun
  rw [run_get_bind] at hrun
  obtain ⟨_, b₁, hcheck, hcopy⟩ := bind_ok_iff.mp hrun
  obtain ⟨hbeyond, rfl⟩ := check_ok_iff.mp hcheck
  obtain ⟨_, b₂, hwithin, hreader⟩ := bind_ok_iff.mp hcopy
  obtain ⟨_, b₃, hmodify, hwriter⟩ := bind_ok_iff.mp hreader
  obtain rfl := modify_ok_iff.mp hmodify
  obtain ⟨_, b₄, hmodify', hlast⟩ := bind_ok_iff.mp hwriter
  obtain rfl := modify_ok_iff.mp hmodify'
  rw [run_get_bind] at hlast
  obtain ⟨-, rfl⟩ := check_ok_iff.mp hlast
  constructor
  · unfold copyWithin at hwithin
    rw [run_get_bind] at hwithin
    split at hwithin
    next =>
      obtain ⟨hfit, rfl⟩ := copyIn_ok hwithin
      exact length_overwrite hfit
    next => cases hwithin
  · show kCheapPrepend ≤ uadd 64 kCheapPrepend b₁.readableBytes
    rw [uadd_of_lt (by omega)]
    exact Nat.le_add_right _ _

/-- With `kCheapPrepend + len` beyond `2 ^ 64` no vector has room for `len` bytes behind a compacted
writer. -/
theorem compact_too_small (h : b.Wf A) (hwrap : 2 ^ 64 ≤ kCheapPrepend + len)
    (hrun : compact.run b = .ok () b') (hwriter : b'.writeIndex ≤ b'.buffer.length) :
    b'.writeableBytes < len := by
  obtain ⟨hsize, hbehind⟩ := compact_ok h hrun
  have hlt := h.size_lt
  have hcheap : kCheapPrepend = 8 := rfl
  have hroom : b'.writeableBytes = b'.buffer.length - b'.writeIndex :=
    usub_of_le hwriter (by omega)
  omega

theorem writeableBytes_lt_of_overflow (hov : ¬ NoOverflow b len) : b.writeableBytes < len := by
  by_contra hroom
  exact hov fun h => absurd h hroom

theorem not_makesSpace_of_overflow (h : Sound A b) (hlen : len < 2 ^ 64)
    (hov : ¬ NoOverflow b len) : ¬ MakesSpace A b len := by
  intro hmake
  have hcheap : kCheapPrepend = 8 := rfl
  have hwriter := h.writer
  unfold MakesSpace makeSpace at hmake
  rw [run_get_bind] at hmake
  by_cases hgrow : uadd 64 b.writeableBytes b.prependableBytes < uadd 64 kCheapPrepend len
  · have hwrap : 2 ^ 64 ≤ b.writeIndex + len := by
      by_contra hfits
      have hsum : kCheapPrepend + len < 2 ^ 64 := by omega
      exact hov fun _ => ⟨hsum, fun _ => Nat.lt_of_not_le hfits⟩
    obtain ⟨hresize, hshrunk⟩ := grow_wraps h.wf hlen hwrap
    rw [if_pos hgrow, hresize] at hmake
    rcases hmake with ⟨n, hthrew⟩ | ⟨b', hrun, -, hinside⟩
    · cases hthrew
    · cases hrun
      exact absurd hinside (Nat.not_le_of_lt hshrunk)
  · rw [if_neg hgrow] at hmake
    have hwrap : 2 ^ 64 ≤ kCheapPrepend + len := by
      by_contra hfits
      have hsum : kCheapPrepend + len < 2 ^ 64 := Nat.lt_of_not_le hfits
      have hspace := h.wf.space_eq
      rw [uadd_of_lt hsum, hspace] at hgrow
      refine hov fun _ => ⟨hsum, fun hmore => ?_⟩
      rw [h.wf.writeableBytes_eq, prependableBytes] at hmore
      exact absurd hmore hgrow
    rcases hmake with ⟨n, hthrew⟩ | ⟨b', hrun, hroom, hinside⟩
    · exact absurd ((noAllocation_compact b).leaves hthrew) id
    · exact absurd hroom (Nat.not_le_of_lt (compact_too_small h.wf hwrap hrun hinside))

theorem not_ensures_of_overflow (h : Sound A b) (hlen : len < 2 ^ 64) (hov : ¬ NoOverflow b len) :
    ¬ EnsuresRoom A b len := fun hensures =>
  not_makesSpace_of_overflow h hlen hov (hensures.makesSpace (writeableBytes_lt_of_overflow hov))

/-- **When `EnsureWriteableBytes` keeps its promise.** For every reachable buffer and every `size_t`
argument: exactly when none of the sums it evaluates wraps. -/
theorem ensures_room_iff (A : Allocator) (b : Buffer) (len : Nat) (h : Reachable A b)
    (hlen : len < 2 ^ 64) : EnsuresRoom A b len ↔ NoOverflow b len := by
  constructor
  · intro hensures
    by_contra hov
    exact not_ensures_of_overflow h.sound hlen hov hensures
  · exact ensures_of_noOverflow h.sound.wf

/-- Room for five bytes in a vector that has four. -/
theorem ensures_room_five : EnsuresRoom wholeAddressSpace (fresh 4) 5 :=
  (ensures_room_iff wholeAddressSpace (fresh 4) 5 fresh_reachable (by decide)).mpr (by decide)

/-- `fresh 4` after `PushBack` of four bytes. -/
def packed : Buffer where
  buffer := [0, 0, 0, 0, 0, 0, 0, 0, 1, 2, 3, 4]
  readerIndex := 8
  writeIndex := 12

theorem packed_reachable : Reachable wholeAddressSpace packed := by
  have hcall : Session.call wholeAddressSpace { buf := fresh 4, log := [] }
      (.pushBack [1, 2, 3, 4]) =
        some { buf := packed, log := [(.pushBack [1, 2, 3, 4], .done)] } := rfl
  exact .called (s := { buf := fresh 4, log := [] }) fresh_reachable (by decide) hcall

/-- `write_index + len` is `12 + (2 ^ 64 - 12)`: the call returns with an empty vector. -/
theorem huge_growth_shrinks :
    Reachable wholeAddressSpace packed ∧
      (ensureWriteableBytes wholeAddressSpace (2 ^ 64 - 12)).run packed =
        .ok () { buffer := [], readerIndex := 8, writeIndex := 12 } ∧
      ¬ EnsuresRoom wholeAddressSpace packed (2 ^ 64 - 12) := by
  have hsound := packed_reachable.sound
  refine ⟨packed_reachable, ?_, not_ensures_of_overflow hsound (by decide) (by decide)⟩
  have hmake : (makeSpace wholeAddressSpace (2 ^ 64 - 12)).run packed =
      .ok () { buffer := [], readerIndex := 8, writeIndex := 12 } := by
    unfold makeSpace
    rw [run_get_bind, if_pos (by decide), (grow_wraps hsound.wf (by decide) (by decide)).1]
    rfl
  unfold ensureWriteableBytes
  rw [run_get_bind, if_pos (by decide), run_bind_of_ok hmake, run_get_bind]
  exact run_check_of (by decide)

end TurboNet.Net.Buffer
