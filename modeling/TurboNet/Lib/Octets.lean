/-
# TurboNet.Lib.Octets — blocks of bytes, and numbers in them.

An `Octets size` is a block of memory; a program stores to it through `put`, and leaves by a fault
where it would store outside.  The rule `put_run` needs the block cut into what is before the store,
what is replaced, and what is behind.

A number is stored in the byte order of the machine (`store`, `load`).  `swapBig` is the conversion
to big-endian order and, being its own inverse, the one back: storing what it gives stores the bytes
of the number with the highest first, whatever the machine.
-/
import Mathlib.Data.List.Induction
import TurboNet.Lib.Numeral
import TurboNet.Lib.Program
import TurboNet.Lib.Storage

namespace TurboNet.Lib

/-- A block of `size` bytes. -/
@[ext] structure Octets (size : Nat) where
  bytes : List UInt8
  size_eq : bytes.length = size
  deriving DecidableEq, Repr

section Blocks

variable {α ε : Type} {size : Nat} {xs ys zs : List α} {i j : Nat}

theorem window_middle (hi : xs.length = i) (hj : i + ys.length = j) :
    window (xs ++ (ys ++ zs)) i j = ys := by
  have hbehind : (xs ++ (ys ++ zs)).take j = xs ++ ys := by
    rw [← List.append_assoc]
    apply List.take_left'
    rw [List.length_append]
    omega
  rw [window, hbehind, List.drop_left' hi]

theorem overwrite_middle {data : List α} (hi : xs.length = i) (hdata : data.length = ys.length) :
    overwrite (xs ++ (ys ++ zs)) i data = xs ++ (data ++ zs) := by
  have hbehind : (xs ++ (ys ++ zs)).drop (i + data.length) = zs := by
    rw [← List.append_assoc]
    apply List.drop_left'
    rw [List.length_append]
    omega
  rw [overwrite, List.take_left' hi, hbehind]

/-- `data` stored from byte `i` on. -/
def Octets.put (fault : ε) (i : Nat) (data : List UInt8) : EStateM ε (Octets size) Unit := do
  let m ← get
  if h : i + data.length ≤ size then
    set { m with
      bytes := overwrite m.bytes i data
      size_eq := (length_overwrite (m.size_eq.symm ▸ h)).trans m.size_eq }
  else
    throw fault

theorem Octets.put_run (fault : ε) {m : Octets size} {front old behind data : List UInt8}
    (hm : m.bytes = front ++ (old ++ behind)) (hi : front.length = i)
    (hdata : data.length = old.length) :
    ∃ m', (put fault i data).run m = .ok () m' ∧ m'.bytes = front ++ (data ++ behind) := by
  have hroom : i + data.length ≤ size := by
    rw [← m.size_eq, hm, List.length_append, List.length_append]
    omega
  refine ⟨⟨overwrite m.bytes i data, (length_overwrite (m.size_eq.symm ▸ hroom)).trans m.size_eq⟩,
    ?_, ?_⟩
  · unfold put
    rw [run_get_bind, dif_pos hroom]
    rfl
  · show overwrite m.bytes i data = _
    rw [hm, overwrite_middle hi hdata]

end Blocks

/-! ## Numbers, the highest byte first -/

/-- The `width` lowest bytes of `n`. -/
def bigBytes (width n : Nat) : List UInt8 := (fixedDigits 256 width n).map UInt8.ofNat

/-- The number of these bytes. -/
def bigValue (bytes : List UInt8) : Nat := bytes.foldl (fun n c => n * 256 + c.toNat) 0

@[simp] theorem length_bigBytes (width n : Nat) : (bigBytes width n).length = width := by
  rw [bigBytes, List.length_map, length_fixedDigits]

theorem bigBytes_succ (width n : Nat) :
    bigBytes (width + 1) n = bigBytes width (n / 256) ++ [UInt8.ofNat (n % 256)] := by
  rw [bigBytes, fixedDigits, List.map_append, List.map_singleton, bigBytes]

theorem bigValue_concat (bytes : List UInt8) (c : UInt8) :
    bigValue (bytes ++ [c]) = bigValue bytes * 256 + c.toNat := by
  rw [bigValue, List.foldl_append, List.foldl_cons, List.foldl_nil, bigValue]

/-- **A number is read back**, as far as it fits. -/
theorem bigValue_bigBytes (width n : Nat) : bigValue (bigBytes width n) = n % 256 ^ width := by
  induction width generalizing n with
  | zero =>
    rw [Nat.pow_zero, Nat.mod_one]
    rfl
  | succ width ih =>
    have hlow : (UInt8.ofNat (n % 256)).toNat = n % 256 := by
      rw [UInt8.toNat_ofNat']
      omega
    rw [bigBytes_succ, bigValue_concat, ih, hlow, Nat.pow_succ', Nat.mod_mul]
    omega

/-- **Bytes are read back.** -/
theorem bigBytes_bigValue {width : Nat} {bytes : List UInt8} (h : bytes.length = width) :
    bigBytes width (bigValue bytes) = bytes := by
  induction bytes using List.reverseRecOn generalizing width with
  | nil =>
    obtain rfl : width = 0 := h.symm
    rfl
  | append_singleton bytes c ih =>
    obtain ⟨width, rfl⟩ : ∃ k, width = k + 1 := by
      rw [List.length_append, List.length_singleton] at h
      exact ⟨bytes.length, h.symm⟩
    rw [List.length_append, List.length_singleton] at h
    have hc := c.toNat_lt
    have hhigh : (bigValue bytes * 256 + c.toNat) / 256 = bigValue bytes := by omega
    have hlow : (bigValue bytes * 256 + c.toNat) % 256 = c.toNat := by omega
    rw [bigValue_concat, bigBytes_succ, hhigh, hlow, ih (Nat.succ.inj h), UInt8.ofNat_toNat]

/-! ## The byte order of a machine -/

/-- Which byte of a number is stored first. -/
inductive ByteOrder where
  | little
  | big
  deriving DecidableEq, Repr

namespace ByteOrder

/-- The number `n` as the machine stores it in `width` bytes. -/
def store (E : ByteOrder) (width n : Nat) : List UInt8 :=
  match E with
  | little => (bigBytes width n).reverse
  | big => bigBytes width n

/-- The number the machine loads from these bytes. -/
def load (E : ByteOrder) (bytes : List UInt8) : Nat :=
  match E with
  | little => bigValue bytes.reverse
  | big => bigValue bytes

/-- `htobe` and `betoh`: nothing on a big-endian machine, the bytes turned around on the other. -/
def swapBig (E : ByteOrder) (width n : Nat) : Nat :=
  match E with
  | little => bigValue (bigBytes width n).reverse
  | big => n

@[simp] theorem length_store (E : ByteOrder) (width n : Nat) : (E.store width n).length = width := by
  cases E with
  | little => rw [store, List.length_reverse, length_bigBytes]
  | big => exact length_bigBytes width n

theorem load_store (E : ByteOrder) (width n : Nat) :
    E.load (E.store width n) = n % 256 ^ width := by
  cases E with
  | little => rw [load, store, List.reverse_reverse, bigValue_bigBytes]
  | big => exact bigValue_bigBytes width n

/-- What is converted and stored has its highest byte first. -/
theorem store_swapBig (E : ByteOrder) (width n : Nat) :
    E.store width (E.swapBig width n) = bigBytes width n := by
  cases E with
  | little =>
    have hlength : (bigBytes width n).reverse.length = width := by
      rw [List.length_reverse, length_bigBytes]
    rw [store, swapBig, bigBytes_bigValue hlength, List.reverse_reverse]
  | big => rfl

/-- What is loaded and converted back is the number with the highest byte first. -/
theorem swapBig_load (E : ByteOrder) {width : Nat} {bytes : List UInt8}
    (h : bytes.length = width) : E.swapBig width (E.load bytes) = bigValue bytes := by
  cases E with
  | little =>
    have hlength : bytes.reverse.length = width := by
      rw [List.length_reverse, h]
    rw [swapBig, load, bigBytes_bigValue hlength, List.reverse_reverse]
  | big => rfl

end ByteOrder

end TurboNet.Lib
