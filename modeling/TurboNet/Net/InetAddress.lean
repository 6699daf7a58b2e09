/-
# TurboNet.Net.InetAddress — socket addresses, from text and to text.

`net/inet_address.{h,cpp}` and the text functions of `net/socket_ops.cpp`.  An `InetAddress` is the
union of a `sockaddr_in` and a `sockaddr_in6`; these have the family and the port at the same place
and the address at different ones.  Ports and IPv4 addresses are kept in network byte order, the
family in that of the machine.

`inet_pton` and `inet_ntop` are a parameter, and so is the byte order.
-/
import TurboNet.Lib.Octets
import TurboNet.Logger.LogStream

namespace TurboNet.Net

open TurboNet.Lib
open TurboNet.Logger

/-- `inet_pton` and `inet_ntop`, for either family.  An address is its bytes as they stand in an
`in_addr` or an `in6_addr`. -/
structure Presentation where
  pton4 : List Logger.Byte → Option (Octets 4)
  pton6 : List Logger.Byte → Option (Octets 16)
  ntop4 : Octets 4 → List Logger.Byte
  ntop6 : Octets 16 → List Logger.Byte

/-- `AF_INET`. -/
def afInet : Nat := 2

/-- `AF_INET6`. -/
def afInet6 : Nat := 10

/-- `INET_ADDRSTRLEN`. -/
def inetAddrstrlen : Nat := 16

/-- `INET6_ADDRSTRLEN`. -/
def inet6Addrstrlen : Nat := 46

/-- What is documented of `inet_pton` and `inet_ntop`: they are inverse on the canonical texts, which
are not longer than the constants say; an IPv4 text is digits and dots, and an IPv6 text has a
colon. -/
structure Presentation.Lawful (P : Presentation) : Prop where
  pton4_ntop4 : ∀ a, P.pton4 (P.ntop4 a) = some a
  pton6_ntop6 : ∀ a, P.pton6 (P.ntop6 a) = some a
  length_ntop4 : ∀ a, (P.ntop4 a).length < inetAddrstrlen
  length_ntop6 : ∀ a, (P.ntop6 a).length < inet6Addrstrlen
  colon_ntop4 : ∀ a, byteOf ':' ∉ P.ntop4 a
  colon_ntop6 : ∀ a, byteOf ':' ∈ P.ntop6 a
  zero_ntop4 : ∀ a, 0 ∉ P.ntop4 a
  zero_ntop6 : ∀ a, 0 ∉ P.ntop6 a

/-- The bytes of the union, `sizeof(struct sockaddr_in6)` of them. -/
abbrev InetAddress := Octets 28

/-- A string up to its terminator. -/
def cString (s : List Logger.Byte) : List Logger.Byte := s.takeWhile (· ≠ 0)

namespace Sockets

/-! ## Byte order -/

def hostToNetwork16 (E : ByteOrder) (host16 : Nat) : Nat := E.swapBig 2 host16

def networkToHost16 (E : ByteOrder) (net16 : Nat) : Nat := E.swapBig 2 net16

def networkToHost32 (E : ByteOrder) (net32 : Nat) : Nat := E.swapBig 4 net32

/-! ## Members of a `sockaddr` -/

/-- `sa_family`, `sin_family` and `sin6_family`. -/
def family (E : ByteOrder) (a : InetAddress) : Nat := E.load (window a.bytes 0 2)

/-- `sin_port`; `sin6_port` is at the same place. -/
def sinPort (E : ByteOrder) (a : InetAddress) : Nat := E.load (window a.bytes 2 4)

/-- `sin_addr`. -/
def sinAddr (a : InetAddress) : Octets 4 :=
  ⟨window a.bytes 4 8, length_window (by rw [a.size_eq]; decide)⟩

/-- `sin6_addr`. -/
def sin6Addr (a : InetAddress) : Octets 16 :=
  ⟨window a.bytes 8 24, length_window (by rw [a.size_eq]; decide)⟩

/-! ## From text -/

/-- A function that fills the `sockaddr`. -/
abbrev Filling := EStateM Halt InetAddress

def outside : Halt := .undefined "write outside a sockaddr"

/-- Both `IpFromString`, for a family, the place of its address, and its `inet_pton`.  A text that is
no address is reported by `LOG_SYS_ERROR`. -/
def ipFromStringAt {size : Nat} (E : ByteOrder) (family offset : Nat)
    (pton : List Logger.Byte → Option (Octets size)) (ip : List Logger.Byte) : Filling Unit := do
  Octets.put outside 0 (E.store 2 family)
  match pton ip with
  | some a => Octets.put outside offset a.bytes
  | none => check (.aborted "IpFromString") ((levelOfAbort false).aborts = false)

/-- `IpFromString(ip, sockaddr_in *)`. -/
def ipFromString4 (P : Presentation) (E : ByteOrder) : List Logger.Byte → Filling Unit :=
  ipFromStringAt E afInet 4 P.pton4

/-- `IpFromString(ip, sockaddr_in6 *)`. -/
def ipFromString6 (P : Presentation) (E : ByteOrder) : List Logger.Byte → Filling Unit :=
  ipFromStringAt E afInet6 8 P.pton6

/-- `addr->sin_port = HostToNetwork16(port)`, and the same for `sin6_port`. -/
def setPort (E : ByteOrder) (port : UInt16) : Filling Unit :=
  Octets.put outside 2 (E.store 2 (hostToNetwork16 E port.toNat))

/-- `IpPortFromString(ip, port, sockaddr_in *)`. -/
def ipPortFromString4 (P : Presentation) (E : ByteOrder) (ip : List Logger.Byte) (port : UInt16) :
    Filling Unit := do
  ipFromString4 P E ip
  setPort E port

/-- `IpPortFromString(ip, port, sockaddr_in6 *)`. -/
def ipPortFromString6 (P : Presentation) (E : ByteOrder) (ip : List Logger.Byte) (port : UInt16) :
    Filling Unit := do
  ipFromString6 P E ip
  setPort E port

/-! ## To text -/

/-- A function that writes to a `char buf[size]`. -/
abbrev Printing (size : Nat) := EStateM Halt (Octets size)

variable {size : Nat}

def outsideText : Halt := .undefined "write outside a char array"

/-- `inet_ntop(.., buf, size)`; a text that does not fit is not written. -/
def inetNtop (text : List Logger.Byte) : Printing size Unit := do
  if text.length < size then
    Octets.put outsideText 0 (text ++ [0])

/-- `strlen(buf)`. -/
def strlen : Printing size Nat := do
  let buf ← get
  if 0 ∈ buf.bytes then
    pure (cString buf.bytes).length
  else
    throw (.undefined "string without a terminator")

/-- `snprintf(buf + dst, room, ..)` of `text`. -/
def snprintf (dst room : Nat) (text : List Logger.Byte) : Printing size Unit :=
  Octets.put outsideText dst (text.take (room - 1) ++ [0])

/-- `IpToString(buf, size, addr)`. -/
def ipToString (B : Build) (P : Presentation) (E : ByteOrder) (addr : InetAddress) :
    Printing size Unit := do
  if family E addr = afInet then
    B.assert "size >= INET_ADDRSTRLEN" (inetAddrstrlen ≤ size)
    inetNtop (P.ntop4 (sinAddr addr))
  else if family E addr = afInet6 then
    B.assert "size >= INET6_ADDRSTRLEN" (inet6Addrstrlen ≤ size)
    inetNtop (P.ntop6 (sin6Addr addr))

/-- `IpPortToString(buf, size, addr)`, which reads `sin_port` whatever the family. -/
def ipPortToString (B : Build) (P : Presentation) (E : ByteOrder) (addr : InetAddress) :
    Printing size Unit := do
  ipToString B P E addr
  let textEnd ← strlen
  let port := networkToHost16 E (sinPort E addr)
  B.assert "size > end" (textEnd < size)
  snprintf textEnd (size - textEnd) (bytesOf (":" ++ toString port))

end Sockets

namespace InetAddress

open Sockets

/-- `MemZero` of the first `count` bytes. -/
def memZero (count : Nat) : Filling Unit := Octets.put outside 0 (List.replicate count 0)

/-- `InetAddress::InetAddress(ip, port, ipv6)`, on storage that holds anything. -/
def construct (P : Presentation) (E : ByteOrder) (ip : List Logger.Byte) (port : UInt16)
    (ipv6 : Bool) : Filling Unit := do
  if ipv6 = true ∨ byteOf ':' ∈ ip then
    memZero 28
    ipPortFromString6 P E (cString ip) port
  else
    memZero 16
    ipPortFromString4 P E (cString ip) port

/-- `Family()`. -/
def family (E : ByteOrder) (a : InetAddress) : Nat := Sockets.family E a

/-- `PortNet()`. -/
def portNet (E : ByteOrder) (a : InetAddress) : Nat := sinPort E a

/-- `PortHost()`. -/
def portHost (E : ByteOrder) (a : InetAddress) : Nat := networkToHost16 E (portNet E a)

/-- `Ipv4Host()`. -/
def ipv4Host (B : Build) (E : ByteOrder) : Filling Nat := do
  let a ← get
  B.assert "addr_.sin_family == AF_INET" (family E a = afInet)
  pure (networkToHost32 E (E.load (sinAddr a).bytes))

/-- The bytes at `Ipv6()`. -/
def ipv6 (B : Build) (E : ByteOrder) : Filling (Octets 16) := do
  let a ← get
  B.assert "addr6_.sin6_family == AF_INET6" (family E a = afInet6)
  pure (sin6Addr a)

/-- `char buf[64]{}`. -/
def emptyText : Octets 64 := ⟨List.replicate 64 0, List.length_replicate⟩

/-- What a function writes to an empty buffer, as the `std::string` that is returned. -/
def textOf (print : Printing 64 Unit) : Except Halt (List Logger.Byte) :=
  match (print >>= fun _ => strlen).run emptyText with
  | .ok length buf => .ok (buf.bytes.take length)
  | .error e _ => .error e

/-- `IpToString()`. -/
def ipToString (B : Build) (P : Presentation) (E : ByteOrder) (a : InetAddress) :
    Except Halt (List Logger.Byte) := textOf (Sockets.ipToString B P E a)

/-- `IpPortToString()`. -/
def ipPortToString (B : Build) (P : Presentation) (E : ByteOrder) (a : InetAddress) :
    Except Halt (List Logger.Byte) := textOf (Sockets.ipPortToString B P E a)

end InetAddress

end TurboNet.Net
