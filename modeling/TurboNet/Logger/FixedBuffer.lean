/-
# TurboNet.Logger.FixedBuffer — the buffer of `logger/fixed_buffer.h`.

A `FixedBuffer<SIZE>` is an array of `SIZE` chars and a cursor.  Nothing behind the cursor is ever
read, so a value keeps the chars before it, with the proof that they fit.  `Append` refuses data that
would not leave at least one char free, without telling its caller.
-/
import Mathlib.Data.List.Basic

namespace TurboNet.Logger

/-- A `char` of a record. -/
abbrev Byte := UInt8

/-- The chars `[data_, cur_)` of a `FixedBuffer<SIZE>`. -/
structure FixedBuffer (SIZE : Nat) where
  chars : List Byte
  fits : chars.length ≤ SIZE
  deriving DecidableEq, Repr

namespace FixedBuffer

variable {SIZE : Nat}

def construct : FixedBuffer SIZE := ⟨[], Nat.zero_le SIZE⟩

def length (b : FixedBuffer SIZE) : Nat := b.chars.length

/-- `Avail()`, never negative. -/
def avail (b : FixedBuffer SIZE) : Nat := SIZE - b.chars.length

def append (b : FixedBuffer SIZE) (buf : List Byte) : FixedBuffer SIZE :=
  if h : buf.length < b.avail then
    ⟨b.chars ++ buf, by
      unfold avail at h
      rw [List.length_append]
      omega⟩
  else b

def reset (_ : FixedBuffer SIZE) : FixedBuffer SIZE := construct

/-- `BZero` clears the chars and leaves the cursor where it is. -/
def bZero (b : FixedBuffer SIZE) : FixedBuffer SIZE :=
  ⟨List.replicate b.chars.length 0, by
    rw [List.length_replicate]
    exact b.fits⟩

@[simp] theorem construct_chars : (construct : FixedBuffer SIZE).chars = [] := rfl

@[simp] theorem reset_chars (b : FixedBuffer SIZE) : b.reset.chars = [] := rfl

@[simp] theorem bZero_construct : (construct : FixedBuffer SIZE).bZero = construct := rfl

theorem append_chars {b : FixedBuffer SIZE} {buf : List Byte} (h : buf.length < b.avail) :
    (b.append buf).chars = b.chars ++ buf := by
  unfold append
  rw [dif_pos h]

/-- An empty buffer takes whatever is shorter than the array. -/
theorem append_chars_of_empty {b : FixedBuffer SIZE} {buf : List Byte} (hempty : b.chars = [])
    (h : buf.length < SIZE) : (b.append buf).chars = buf := by
  have havail : buf.length < b.avail := by
    unfold avail
    rw [hempty, List.length_nil]
    omega
  rw [append_chars havail, hempty, List.nil_append]

end FixedBuffer

end TurboNet.Logger
