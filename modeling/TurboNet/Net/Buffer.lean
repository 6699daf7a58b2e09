/-
# TurboNet.Net.Buffer — the socket buffer of `net/buffer.h` and `net/buffer.cpp`.

A `Buffer` is a `std::vector<char>` with two indices: `[reader_index_, write_index)` is readable,
what follows is writeable, and the constructor reserves `kCheapPrepend` bytes in front of the reader.
Every member function is a program on the three fields.  `size_t` arithmetic is modulo `2 ^ 64`; an
`assert` that fails, an access outside the vector and the `std::length_error` of `vector::resize`
are the three ways a call does not return, and each leaves the fields as they stand at that moment.

The asserts are evaluated, as in the Debug build.  The overloads of `PushBack` for `std::string` and
`const void *` only forward, and have their own definitions here for that reason alone.
-/
import TurboNet.Lib.Program
import TurboNet.Lib.Storage
import TurboNet.Lib.Wrapping

namespace TurboNet.Net

open TurboNet.Lib

/-- A `char` of the storage. -/
abbrev Byte := UInt8

/-- The largest size `vector<char>::resize` grants: `max_size()`, or less when memory runs out. -/
structure Allocator where
  maxSize : Nat
  maxSize_lt : maxSize < 2 ^ 64

/-- Why a member function did not return. -/
inductive Fault where
  | assertFailed (expr : String)
  | lengthError (requested : Nat)
  | outOfRange
  deriving DecidableEq, Repr

/-- The data members of `turbo::Buffer`. -/
structure Buffer where
  buffer : List Byte
  readerIndex : Nat
  writeIndex : Nat
  deriving DecidableEq, Repr

namespace Buffer

/-- `Buffer::kCheapPrepend`. -/
def kCheapPrepend : Nat := 8

/-- `Buffer::kInitialSize`. -/
def kInitialSize : Nat := 1024

def writeableBytes (b : Buffer) : Nat := usub 64 b.buffer.length b.writeIndex

def readableBytes (b : Buffer) : Nat := usub 64 b.writeIndex b.readerIndex

def prependableBytes (b : Buffer) : Nat := b.readerIndex

/-- A member function of `Buffer`. -/
abbrev Method := EStateM Fault Buffer

/-! ## The vector and `std::copy` -/

/-- `buffer_.resize(n)`: new cells are zero, and a refused growth leaves the vector alone. -/
def resize (A : Allocator) (n : Nat) : Method Unit := do
  let b ← get
  if n ≤ A.maxSize then
    set { b with buffer := b.buffer.take n ++ List.replicate (n - b.buffer.length) 0 }
  else
    throw (.lengthError n)

/-- `std::copy` of `data` to `Begin() + i`. -/
def copyIn (data : List Byte) (i : Nat) : Method Unit := do
  let b ← get
  if i + data.length ≤ b.buffer.length then
    set { b with buffer := overwrite b.buffer i data }
  else
    throw .outOfRange

/-- `std::copy` of `Begin() + lo .. Begin() + hi` to `Begin() + dst`.  A destination inside a
non-empty source range is undefined behaviour. -/
def copyWithin (lo hi dst : Nat) : Method Unit := do
  let b ← get
  if lo ≤ hi ∧ hi ≤ b.buffer.length ∧ ¬ (lo ≤ dst ∧ dst < hi) then
    copyIn (window b.buffer lo hi) dst
  else
    throw .outOfRange

/-- The `len` bytes at `Begin() + lo`. -/
def copyOut (lo len : Nat) : Method (List Byte) := do
  let b ← get
  if lo + len ≤ b.buffer.length then
    pure (window b.buffer lo (lo + len))
  else
    throw .outOfRange

/-! ## Member functions -/

/-- `Buffer::Buffer(initial_size)`, run on storage that holds no object yet. -/
def construct (A : Allocator) (initialSize : Nat) : Method Unit := do
  set { buffer := [], readerIndex := 0, writeIndex := 0 : Buffer }
  resize A (uadd 64 kCheapPrepend initialSize)
  modify fun b => { b with readerIndex := kCheapPrepend }
  modify fun b => { b with writeIndex := kCheapPrepend }
  let b ← get
  check (.assertFailed "ReadableBytes() == 0") (b.readableBytes = 0)
  check (.assertFailed "WriteableBytes() == initial_size") (b.writeableBytes = initialSize)
  check (.assertFailed "PrependableBytes() == kCheapPrepend") (b.prependableBytes = kCheapPrepend)

/-- `Buffer::Buffer()`, by the constructor's default argument. -/
def constructDefault (A : Allocator) : Method Unit := construct A kInitialSize

/-- The `else` branch of `MakeSpace`: the readable bytes move back to `kCheapPrepend`. -/
def compact : Method Unit := do
  let b ← get
  check (.assertFailed "kCheapPrepend < reader_index_") (kCheapPrepend < b.readerIndex)
  let readAble := b.readableBytes
  copyWithin b.readerIndex b.writeIndex kCheapPrepend
  modify fun b => { b with readerIndex := kCheapPrepend }
  modify fun b => { b with writeIndex := uadd 64 b.readerIndex readAble }
  let b ← get
  check (.assertFailed "read_able == ReadableBytes()") (readAble = b.readableBytes)

def makeSpace (A : Allocator) (len : Nat) : Method Unit := do
  let b ← get
  if uadd 64 b.writeableBytes b.prependableBytes < uadd 64 kCheapPrepend len then
    resize A (uadd 64 b.writeIndex len)
  else
    compact

def moveWriteBackward (len : Nat) : Method Unit := do
  let b ← get
  check (.assertFailed "len <= WriteableBytes()") (len ≤ b.writeableBytes)
  set { b with writeIndex := uadd 64 b.writeIndex len }

def ensureWriteableBytes (A : Allocator) (len : Nat) : Method Unit := do
  let b ← get
  if b.writeableBytes < len then
    makeSpace A len
  let b ← get
  check (.assertFailed "WriteableBytes() >= len") (len ≤ b.writeableBytes)

def moveReadAll : Method Unit :=
  modify fun b => { b with readerIndex := kCheapPrepend, writeIndex := kCheapPrepend }

def moveReadBackward (len : Nat) : Method Unit := do
  let b ← get
  check (.assertFailed "len <= ReadableBytes()") (len ≤ b.readableBytes)
  if len < b.readableBytes then
    set { b with readerIndex := uadd 64 b.readerIndex len }
  else
    moveReadAll

def readToString (len : Nat) : Method (List Byte) := do
  let b ← get
  check (.assertFailed "len <= ReadableBytes()") (len ≤ b.readableBytes)
  let result ← copyOut b.readerIndex len
  moveReadBackward len
  pure result

def readAllToString : Method (List Byte) := do
  let b ← get
  readToString b.readableBytes

/-- `PushBack(const char *, size_t)`. -/
def pushBack (A : Allocator) (data : List Byte) : Method Unit := do
  ensureWriteableBytes A data.length
  let b ← get
  copyIn data b.writeIndex
  moveWriteBackward data.length

/-- `PushBack(const std::string &)`. -/
def pushBackString (A : Allocator) (data : List Byte) : Method Unit := pushBack A data

/-- `PushBack(const void *, size_t)`. -/
def pushBackVoid (A : Allocator) (data : List Byte) : Method Unit := pushBack A data

def pushFront (data : List Byte) : Method Unit := do
  let b ← get
  check (.assertFailed "len <= PrependableBytes()") (data.length ≤ b.prependableBytes)
  set { b with readerIndex := usub 64 b.readerIndex data.length }
  let b ← get
  copyIn data b.readerIndex

/-- What `::write` answers: the count it accepted, or `-1` with `errno`. -/
inductive WriteResult where
  | accepted (n : Nat)
  | failed (errno : Int)
  deriving DecidableEq, Repr

/-- What a `WriteFd` call shows: the bytes the kernel took, the returned `size_t`, and
`*errno_info` afterwards. -/
structure WriteFdOut where
  sent : List Byte
  ret : Nat
  errnoInfo : Int
  deriving DecidableEq, Repr

/-- `Buffer::WriteFd`, with `errnoInfo` the caller's value of `*errno_info`.  The `ssize_t` result
is returned as a `size_t`, so that `-1` reads `2 ^ 64 - 1`. -/
def writeFd (errnoInfo : Int) (res : WriteResult) : Method WriteFdOut := do
  let b ← get
  let offered ← copyOut b.readerIndex b.readableBytes
  match res with
  | .failed errno => pure { sent := [], ret := 2 ^ 64 - 1, errnoInfo := errno }
  | .accepted n =>
    moveReadBackward n
    pure { sent := offered.take n, ret := n, errnoInfo := errnoInfo }

/-- A caller's own write of `data` at `WriteableAddress()`, followed by `MoveWriteBackward`. -/
def writeAtWriteable (data : List Byte) : Method Unit := do
  let b ← get
  copyIn data b.writeIndex
  moveWriteBackward data.length

/-- `Buffer::Swap`, on `*this` and `rhs`: the vectors and `reader_index_` are exchanged, and
`write_index` is exchanged with itself. -/
def swap (b rhs : Buffer) : Buffer × Buffer :=
  ({ b with buffer := rhs.buffer, readerIndex := rhs.readerIndex },
    { rhs with buffer := b.buffer, readerIndex := b.readerIndex })

/-! ## Searching -/

/-- `Buffer::kCRLF`, without its terminator. -/
def kCRLF : List Byte := [13, 10]

/-- `std::search`: how far from the start of `text` its first occurrence of `pattern` is. -/
def search (pattern : List Byte) : (text : List Byte) → Option Nat
  | [] => if pattern = [] then some 0 else none
  | c :: text =>
    if pattern.isPrefixOf (c :: text) then some 0 else (search pattern text).map (· + 1)

/-- `Buffer::FindCRLF`, as an offset from `Begin()`. -/
def findCRLF : Method (Option Nat) := do
  let b ← get
  if b.readerIndex ≤ b.writeIndex ∧ b.writeIndex ≤ b.buffer.length then
    pure ((search kCRLF (window b.buffer b.readerIndex b.writeIndex)).map (b.readerIndex + ·))
  else
    throw .outOfRange

/-! ## `ReadFd` -/

/-- `sizeof(extra_buf)`. -/
def extraSize : Nat := 65536

/-- What `::readv` answers: the bytes it stored, or `-1` with `errno`. -/
inductive ReadvResult where
  | read (bytes : List Byte)
  | failed (errno : Int)
  deriving DecidableEq, Repr

/-- The total length of the `iovec`s passed to `readv`. -/
def offered (b : Buffer) : Nat :=
  if b.writeableBytes < extraSize then b.writeableBytes + extraSize else b.writeableBytes

/-- `readv` stores no more than it was offered. -/
def ReadvResult.Allowed (b : Buffer) : ReadvResult → Prop
  | .read bytes => bytes.length ≤ b.offered
  | .failed _ => True

/-- What a `ReadFd` call shows: the returned `ssize_t`, and `*errno_info` afterwards. -/
structure ReadFdOut where
  ret : Int
  errnoInfo : Int
  deriving DecidableEq, Repr

/-- `PushBack(array, len)`, for a caller's array that may be shorter than `len`. -/
def pushBackArray (A : Allocator) (array : List Byte) (len : Nat) : Method Unit := do
  ensureWriteableBytes A len
  if len ≤ array.length then
    let b ← get
    copyIn (array.take len) b.writeIndex
    moveWriteBackward len
  else
    throw .outOfRange

/-- `Buffer::ReadFd`, with `errnoInfo` the caller's value of `*errno_info`.  The bytes fill the free
space of the vector first and `extra_buf` after it. -/
def readFd (A : Allocator) (errnoInfo : Int) (res : ReadvResult) : Method ReadFdOut := do
  let b ← get
  let writeAble := b.writeableBytes
  match res with
  | .failed errno => pure { ret := -1, errnoInfo := errno }
  | .read bytes =>
    copyIn (bytes.take writeAble) b.writeIndex
    let extraBuf := overwrite (List.replicate extraSize 0) 0 (bytes.drop writeAble)
    let n := bytes.length
    if (n : Int) < swrap 64 writeAble then
      moveWriteBackward n
    else
      modify fun b => { b with writeIndex := b.buffer.length }
      let b ← get
      pushBackArray A extraBuf (usub 64 n b.writeIndex)
    pure { ret := n, errnoInfo := errnoInfo }

end Buffer

end TurboNet.Net
