/-
# TurboNet.Logger.LogStream — the formatting stream of `logger/log_stream.{h,cpp}`.

A `LogStream` writes into the array of one `FixedBuffer`, partly through `Append` and partly, for
numbers and pointers, through the bare cursor.  `RawBuffer` is that array with its cursor, and every
write to it is checked: one outside `data_` is undefined behaviour.  The overloads of `operator<<`
are the cases of `insert`.

A C string is the list of its chars before the terminator, a null pointer is `none`.  What `"%.12g"`
prints is a parameter.
-/
import TurboNet.Lib.Numeral
import TurboNet.Lib.StepSystem
import TurboNet.Lib.Storage
import TurboNet.Logger.FixedBuffer
import TurboNet.Logger.Logger

namespace TurboNet.Logger

open TurboNet.Lib

/-- `kSmallBuffer`. -/
def kSmallBuffer : Nat := 4000

def byteOf (c : Char) : Byte := c.toNat.toUInt8

/-- The chars of a string literal. -/
def bytesOf (s : String) : List Byte := s.toList.map byteOf

/-- `data_` and `cur_` of a `FixedBuffer<SIZE>`, the cursor as an offset. -/
structure RawBuffer (SIZE : Nat) where
  data : List Byte
  cur : Nat
  size_eq : data.length = SIZE
  deriving DecidableEq, Repr

namespace RawBuffer

variable {SIZE : Nat}

/-- `FixedBuffer::FixedBuffer`. -/
def construct : RawBuffer SIZE := ⟨List.replicate SIZE 0, 0, List.length_replicate⟩

/-- `Avail()`, an `int`. -/
def avail (m : RawBuffer SIZE) : Int := (SIZE : Int) - m.cur

/-- `Length()`, an `int`. -/
def length (m : RawBuffer SIZE) : Int := m.cur

/-- `implicit_cast<size_t>` of an `int`. -/
def castSize (x : Int) : Nat := (x % 2 ^ 64).toNat

/-- A function that works on the array. -/
abbrev Method (SIZE : Nat) := EStateM Halt (RawBuffer SIZE)

/-- `buf` stored from `data_ + i` on. -/
def copyIn (i : Nat) (buf : List Byte) : Method SIZE Unit := do
  let m ← get
  if h : i + buf.length ≤ SIZE then
    set { m with
      data := overwrite m.data i buf
      size_eq := (length_overwrite (m.size_eq.symm ▸ h)).trans m.size_eq }
  else
    throw (.undefined "write outside data_")

/-- `*(data_ + i) = c`. -/
def store (i : Nat) (c : Byte) : Method SIZE Unit := copyIn i [c]

/-- `std::reverse(data_ + lo, data_ + hi)`. -/
def reverse (lo hi : Nat) : Method SIZE Unit := do
  let m ← get
  if lo ≤ hi ∧ hi ≤ SIZE then
    copyIn lo (window m.data lo hi).reverse
  else
    throw (.undefined "access outside data_")

/-- `Add(len)`. -/
def add (len : Nat) : Method SIZE Unit := modify fun m => { m with cur := m.cur + len }

/-- `FixedBuffer::Append(buf, len)`. -/
def append (buf : List Byte) : Method SIZE Unit := do
  let m ← get
  if buf.length < castSize m.avail then
    copyIn m.cur buf
    add buf.length

/-- `Reset()`. -/
def reset : Method SIZE Unit := modify fun m => { m with cur := 0 }

/-- The `Length()` chars at `Data()`. -/
def chars : Method SIZE (List Byte) := do
  let m ← get
  if m.cur ≤ SIZE then
    pure (window m.data 0 m.cur)
  else
    throw (.undefined "read outside data_")

end RawBuffer

namespace LogStream

open RawBuffer (Method store reverse add)

/-- `LogStream::kMaxNumericSize`. -/
def kMaxNumericSize : Nat := 48

/-- `digits`, without its terminator. -/
def digits : List Byte := bytesOf "9876543210123456789"

/-- `zero - digits`. -/
def zero : Int := 9

/-- `digits_hex`. -/
def digitsHex : List Byte := bytesOf "0123456789ABCDEF"

/-- `table[i]`. -/
def lookup (table : List Byte) (i : Int) : Method kSmallBuffer Byte :=
  match (if 0 ≤ i then table[i.toNat]? else none) with
  | some c => pure c
  | none => throw (.undefined "read outside a table of digits")

/-- The loop both formatters run: digits of `i`, the lowest first, from `cur` on.  It returns the
`cur` behind them.  A 64-bit number has fewer digits than `rounds` at the call allows. -/
def putDigits (table : List Byte) (origin : Int) (base : Nat) :
    (rounds : Nat) → (i : Int) → (cur : Nat) → Method kSmallBuffer Nat
  | 0, _, cur => pure cur
  | rounds + 1, i, cur => do
    let lsd := i.tmod base
    let i := i.tdiv base
    let c ← lookup table (origin + lsd)
    store cur c
    if i ≠ 0 then
      putDigits table origin base rounds i (cur + 1)
    else
      pure (cur + 1)

/-- The rounds the loops get. -/
def maxDigits : Nat := 64

/-- `if (v < 0) *cur++ = '-'`, with `cur` afterwards. -/
def putSign (v : Int) (cur : Nat) : Method kSmallBuffer Nat := do
  if v < 0 then
    store cur (byteOf '-')
    pure (cur + 1)
  else
    pure cur

/-- `LogStream::FormatInteger<T>(v)`; no operation of it leaves the range of `T`. -/
def formatInteger (v : Int) : Method kSmallBuffer Unit := do
  let m ← get
  if m.avail < kMaxNumericSize then
    pure ()
  else
    let start := m.cur
    let cur ← putDigits digits zero 10 maxDigits v start
    let cur ← putSign v cur
    store cur 0
    reverse start cur
    add (cur - start)

/-- `operator<<(const void *)`. -/
def formatPointer (v : UInt64) : Method kSmallBuffer Unit := do
  let m ← get
  if m.avail < kMaxNumericSize then
    pure ()
  else
    let start := m.cur
    store start (byteOf '0')
    let start := start + 1
    store start (byteOf 'x')
    let start := start + 1
    let cur ← putDigits digitsHex 0 16 maxDigits v.toNat start
    store cur 0
    reverse start cur
    add (cur - start + 2)

/-- `snprintf(dst, size, ...)` of `text`: what fits, a terminator, and the length of all of it. -/
def snprintf (dst size : Nat) (text : List Byte) : Method kSmallBuffer Nat := do
  RawBuffer.copyIn dst (text.take (size - 1) ++ [0])
  pure text.length

/-- `operator<<(double)`, `text` being what `"%.12g"` makes of the value. -/
def formatDouble (text : List Byte) : Method kSmallBuffer Unit := do
  let m ← get
  if m.avail < kMaxNumericSize then
    pure ()
  else
    let len ← snprintf m.cur kMaxNumericSize text
    add len

/-- A value inserted into a stream, by the type that picks the overload.  `append` is
`LogStream::Append` itself, which a `T` and a `SourceFile` are inserted by. -/
inductive Insertion where
  | bool (v : Bool)
  | short (v : Int16)
  | unsignedShort (v : UInt16)
  | int (v : Int32)
  | unsignedInt (v : UInt32)
  | long (v : Int64)
  | unsignedLong (v : UInt64)
  | longLong (v : Int64)
  | unsignedLongLong (v : UInt64)
  | float (v : Float32)
  | double (v : Float)
  | char (v : Byte)
  | charPtr (v : Option (List Byte))
  | unsignedCharPtr (v : Option (List Byte))
  | voidPtr (v : UInt64)
  | string (v : List Byte)
  | buffer (v : FixedBuffer kSmallBuffer)
  | append (data : List Byte)

variable (format : Float → List Byte)

/-- `operator<<(const char *)`. -/
def insertCharPtr : Option (List Byte) → Method kSmallBuffer Unit
  | some v => RawBuffer.append v
  | none => RawBuffer.append (bytesOf "(null)")

/-- `operator<<`. -/
def insert : Insertion → Method kSmallBuffer Unit
  | .bool v => RawBuffer.append (bytesOf (if v then "1" else "0"))
  | .short v => formatInteger v.toInt32.toInt
  | .unsignedShort v => formatInteger v.toUInt32.toNat
  | .int v => formatInteger v.toInt
  | .unsignedInt v => formatInteger v.toNat
  | .long v => formatInteger v.toInt
  | .unsignedLong v => formatInteger v.toNat
  | .longLong v => formatInteger v.toInt
  | .unsignedLongLong v => formatInteger v.toNat
  | .float v => formatDouble (format v.toFloat)
  | .double v => formatDouble (format v)
  | .char v => RawBuffer.append [v]
  | .charPtr v => insertCharPtr v
  | .unsignedCharPtr v => insertCharPtr v
  | .voidPtr v => formatPointer v
  | .string v => RawBuffer.append v
  | .buffer v => RawBuffer.append v.chars
  | .append data => RawBuffer.append data

/-- What a caller does with a stream. -/
inductive Act where
  | insert (v : Insertion)
  | resetBuffer

def act : Act → Method kSmallBuffer Unit
  | .insert v => insert format v
  | .resetBuffer => RawBuffer.reset

/-- The runs of a stream; undefined behaviour ends one. -/
def streamRuns : StepSystem (RawBuffer kSmallBuffer) Act where
  step m a :=
    match (act format a).run m with
    | .ok _ m' => some m'
    | .error _ _ => none

end LogStream

end TurboNet.Logger
