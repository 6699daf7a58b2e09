/-
# TurboNet.Net.SocketOps — addresses that come from the kernel and go to it.

`bind` and `connect` are handed the 28 bytes of an `InetAddress`, whatever its family; `accept4`,
`getsockname` and `getpeername` write the name of an end of a connection into the 28 bytes of a
`sockaddr_in6`, 16 of them for IPv4.  `names_cross_kernel` says that every way to an `InetAddress`
carries the address and the port, to its own functions and to the kernel; `isSelfConnect_iff` that the
ends of a connection are compared by nothing else.
-/
import TurboNet.Net.InetAddressText

namespace TurboNet.Net

open TurboNet.Lib
open TurboNet.Logger
open Sockets

/-- An address and a port. -/
@[ext] structure Endpoint where
  ip : Ip
  port : UInt16
  deriving DecidableEq

/-- What the kernel says of one end of a connection. -/
structure Name extends Endpoint where
  /-- `sin6_flowinfo` and `sin6_scope_id`. -/
  flowinfo : Octets 4
  scopeId : Octets 4

/-- What stands behind the port in a `sockaddr_in` or in a `sockaddr_in6`. -/
def Name.address (name : Name) : List Logger.Byte :=
  match name.ip with
  | .v4 a => (Ip.inAddr a).bytes ++ List.replicate 8 0
  | .v6 a => name.flowinfo.bytes ++ (a.bytes ++ name.scopeId.bytes)

/-- The `sockaddr` of the family. -/
def Name.bytes (E : ByteOrder) (name : Name) : List Logger.Byte :=
  E.store 2 name.ip.family ++ (bigBytes 2 name.port.toNat ++ name.address)

/-- What the kernel reads of an address that it is handed. -/
def kernelReads (E : ByteOrder) (a : InetAddress) : Option Endpoint :=
  let port := UInt16.ofNat (bigValue (window a.bytes 2 4))
  if family E a = afInet then some ⟨.v4 (UInt32.ofNat (bigValue (sinAddr a).bytes)), port⟩
  else if family E a = afInet6 then some ⟨.v6 (sin6Addr a), port⟩
  else none

namespace Sockets

/-- A `sockaddr_in6` set to zero. -/
def zeroed : InetAddress := ⟨List.replicate 28 0, List.length_replicate⟩

/-- `GetLocalAddr` and `GetPeerAddr`; without an answer the call has failed. -/
def getName (B : Build) (E : ByteOrder) (what : String) (answer : Option Name) : Filling Unit := do
  InetAddress.memZero 28
  match answer with
  | some name => Octets.put outside 0 (name.bytes E)
  | none => check (.aborted what) ((B.sysLevel false).aborts = false)

def getLocalAddr (B : Build) (E : ByteOrder) : Option Name → Filling Unit :=
  getName B E "GetLocalAddr"

def getPeerAddr (B : Build) (E : ByteOrder) : Option Name → Filling Unit :=
  getName B E "GetPeerAddr"

/-- What a function leaves in a `sockaddr_in6` of its own. -/
def returned (f : Filling Unit) : Except Halt InetAddress :=
  match f.run zeroed with
  | .ok _ m => .ok m
  | .error e _ => .error e

/-- The comparison of `IsSelfConnect`, in network byte order and by the family of the local end. -/
def sameEnd (E : ByteOrder) (localAddr peerAddr : InetAddress) : Bool :=
  if family E localAddr = afInet then
    sinPort E localAddr = sinPort E peerAddr ∧
      E.load (sinAddr localAddr).bytes = E.load (sinAddr peerAddr).bytes
  else if family E localAddr = afInet6 then
    sinPort E localAddr = sinPort E peerAddr ∧ sin6Addr localAddr = sin6Addr peerAddr
  else false

/-- `IsSelfConnect(sockfd)`. -/
def isSelfConnect (B : Build) (E : ByteOrder) (localAnswer peerAnswer : Option Name) :
    Except Halt Bool := do
  let localAddr ← returned (getLocalAddr B E localAnswer)
  let peerAddr ← returned (getPeerAddr B E peerAnswer)
  pure (sameEnd E localAddr peerAddr)

/-- `AcceptOrDie(sockfd, addr)`. -/
def acceptOrDie (B : Build) (E : ByteOrder) : Option (Nat × Name) → Filling Int
  | some (fd, name) => do
    Octets.put outside 0 (name.bytes E)
    pure fd
  | none => do
    check (.aborted "AcceptOrDie") ((B.sysLevel true).aborts = false)
    pure (-1)

end Sockets

/-- `InetAddress::InetAddress(sockaddr_in6)` and `SetSockAddrInet6`. -/
def InetAddress.setSockAddrInet6 (addr6 : InetAddress) : Filling Unit := set addr6

/-- `Socket::Accept(peer_addr)`, on `*peer_addr`. -/
def Socket.accept (B : Build) (E : ByteOrder) (answer : Option (Nat × Name)) :
    EStateM Halt InetAddress Int :=
  match (InetAddress.memZero 28 >>= fun _ => acceptOrDie B E answer).run zeroed with
  | .ok connFd addr => do
    if 0 ≤ connFd then
      InetAddress.setSockAddrInet6 addr
    pure connFd
  | .error e _ => throw e

/-- `INADDR_ANY`. -/
def inaddrAny : UInt32 := 0

/-- `INADDR_LOOPBACK`. -/
def inaddrLoopback : UInt32 := 0x7F000001

/-- `in6addr_any`. -/
def in6addrAny : Octets 16 := ⟨List.replicate 16 0, rfl⟩

/-- `in6addr_loopback`. -/
def in6addrLoopback : Octets 16 := ⟨List.replicate 15 0 ++ [1], rfl⟩

/-- The address that the flags ask for. -/
def Ip.ofFlags (loopBackOnly ipv6 : Bool) : Ip :=
  if ipv6 then .v6 (if loopBackOnly then in6addrLoopback else in6addrAny)
  else .v4 (if loopBackOnly then inaddrLoopback else inaddrAny)

/-- `HostToNetwork32`. -/
def Sockets.hostToNetwork32 (E : ByteOrder) (host32 : Nat) : Nat := E.swapBig 4 host32

namespace InetAddress

/-- `InetAddress::InetAddress(port, loop_back_only, ipv6)`, on storage that holds anything. -/
def constructPort (E : ByteOrder) (port : UInt16) (loopBackOnly ipv6 : Bool) : Filling Unit := do
  if ipv6 then
    memZero 28
    Octets.put outside 0 (E.store 2 afInet6)
    setPort E port
    Octets.put outside 8 (if loopBackOnly then in6addrLoopback else in6addrAny).bytes
  else
    memZero 16
    Octets.put outside 0 (E.store 2 afInet)
    setPort E port
    let host32 := if loopBackOnly then inaddrLoopback else inaddrAny
    Octets.put outside 4 (E.store 4 (hostToNetwork32 E host32.toNat))

/-- `InetAddress::InetAddress(sockaddr_in)` and `SetSockAddrInet4`. -/
def setSockAddrInet4 (addr : Octets 16) : Filling Unit := Octets.put outside 0 addr.bytes

end InetAddress

/-! ## Names -/

variable {P : Presentation} {E : ByteOrder} {B : Build} {m : InetAddress} {e : Endpoint}
  {name : Name}

theorem Built.window_port {ip : Ip} {port : UInt16} (h : Built E ip port m) :
    window m.bytes 2 4 = bigBytes 2 port.toNat := by
  obtain ⟨between, tail, -, hm⟩ := h
  rw [hm]
  exact window_middle (E.length_store 2 ip.family) (by rw [length_bigBytes])

/-- Storage that carries an address and a port, as the kernel reads it. -/
theorem Built.kernelReads (h : Built E e.ip e.port m) : Net.kernelReads E m = some e := by
  obtain ⟨ip, port⟩ := e
  have hport : UInt16.ofNat (bigValue (window m.bytes 2 4)) = port := by
    have hlt : port.toNat < 256 ^ 2 := port.toNat_lt
    rw [h.window_port, bigValue_bigBytes, Nat.mod_eq_of_lt hlt, UInt16.ofNat_toNat]
  have hfamily := h.family
  unfold Net.kernelReads
  cases ip with
  | v4 a =>
    have hinet : Sockets.family E m = afInet := hfamily
    have hlt : a.toNat < 256 ^ 4 := a.toNat_lt
    rw [if_pos hinet, hport, h.sinAddr, Ip.inAddr, bigValue_bigBytes, Nat.mod_eq_of_lt hlt,
      UInt32.ofNat_toNat]
  | v6 a =>
    have hinet6 : Sockets.family E m = afInet6 := hfamily
    have hother : ¬ Sockets.family E m = afInet := by
      rw [hinet6]
      decide
    rw [if_neg hother, if_pos hinet6, hport, h.sin6Addr]

namespace Name

def size (name : Name) : Nat :=
  match name.ip with
  | .v4 _ => 16
  | .v6 _ => 28

theorem size_le (name : Name) : name.size ≤ 28 := by
  unfold size
  split
  · decide
  · exact Nat.le_refl 28

theorem length_bytes (name : Name) : (name.bytes E).length = name.size := by
  rw [bytes, List.length_append, List.length_append, E.length_store, length_bigBytes, address, size]
  split
  next a _ =>
    rw [List.length_append, (Ip.inAddr a).size_eq]
    rfl
  next a _ =>
    rw [List.length_append, List.length_append, name.flowinfo.size_eq, a.size_eq,
      name.scopeId.size_eq]

/-- Storage that begins with a name carries its address and its port. -/
theorem built {rest : List Logger.Byte} (hm : m.bytes = name.bytes E ++ rest) :
    Built E name.ip name.port m := by
  cases hip : name.ip with
  | v4 a =>
    refine ⟨[], List.replicate 8 0 ++ rest, rfl, ?_⟩
    rw [hm, bytes, address, hip, List.append_assoc, List.append_assoc, List.append_assoc]
    rfl
  | v6 a =>
    refine ⟨name.flowinfo.bytes, name.scopeId.bytes ++ rest, name.flowinfo.size_eq, ?_⟩
    rw [hm, bytes, address, hip, List.append_assoc, List.append_assoc, List.append_assoc,
      List.append_assoc]
    rfl

theorem put_run (name : Name) (m : InetAddress) :
    ∃ m', (Octets.put outside 0 (name.bytes E)).run m = .ok () m' ∧
      m'.bytes = name.bytes E ++ m.bytes.drop name.size := by
  have hcut : m.bytes = [] ++ (m.bytes.take name.size ++ m.bytes.drop name.size) := by
    rw [List.take_append_drop, List.nil_append]
  refine Octets.put_run outside hcut rfl ?_
  rw [length_bytes, List.length_take, m.size_eq, Nat.min_eq_left name.size_le]

end Name

theorem InetAddress.memZero_run (m : InetAddress) :
    (InetAddress.memZero 28).run m = .ok () zeroed := by
  have hcut : m.bytes = [] ++ (m.bytes ++ []) := by rw [List.append_nil, List.nil_append]
  obtain ⟨m', hrun, hm'⟩ : ∃ m', (InetAddress.memZero 28).run m = .ok () m' ∧
      m'.bytes = [] ++ (List.replicate 28 0 ++ []) := by
    refine Octets.put_run outside hcut rfl ?_
    rw [List.length_replicate, m.size_eq]
  rw [hrun, show m' = zeroed from Octets.ext hm']

/-- A name that the kernel gives. -/
theorem getName_run (what : String) (name : Name) (m : InetAddress) :
    ∃ m', (getName B E what (some name)).run m = .ok () m' ∧ Built E name.ip name.port m' := by
  obtain ⟨m', hrun, hm'⟩ := name.put_run (E := E) zeroed
  refine ⟨m', ?_, Name.built hm'⟩
  unfold getName
  rw [run_bind_of_ok (InetAddress.memZero_run m)]
  exact hrun

/-- The address of a connection that was accepted. -/
theorem accept_run (fd : Nat) (name : Name) (peer : InetAddress) :
    ∃ m', (Socket.accept B E (some (fd, name))).run peer = .ok (fd : Int) m' ∧
      Built E name.ip name.port m' := by
  obtain ⟨m', hrun, hm'⟩ := name.put_run (E := E) zeroed
  refine ⟨m', ?_, Name.built hm'⟩
  have haccept : (InetAddress.memZero 28 >>= fun _ => acceptOrDie B E (some (fd, name))).run zeroed =
      .ok (fd : Int) m' := by
    rw [run_bind_of_ok (InetAddress.memZero_run zeroed)]
    unfold acceptOrDie
    rw [run_bind_of_ok hrun]
    rfl
  unfold Socket.accept
  rw [haccept]
  simp only [Int.natCast_nonneg, if_true]
  rfl

/-- A failure of `accept4` leaves the caller's address alone, and the process alive. -/
theorem accept_failed (hsys : (B.sysLevel true).aborts = false) (peer : InetAddress) :
    (Socket.accept B E none).run peer = .ok (-1) peer := by
  have haccept : (InetAddress.memZero 28 >>= fun _ => acceptOrDie B E none).run zeroed =
      .ok (-1) zeroed := by
    rw [run_bind_of_ok (InetAddress.memZero_run zeroed)]
    unfold acceptOrDie
    rw [run_bind_of_ok (run_check_of hsys)]
    rfl
  unfold Socket.accept
  rw [haccept]
  rfl

/-! ## The other constructors -/

/-- Family, port and address, written in this order on storage cut at them. -/
theorem place_run (E : ByteOrder) (family : Nat) (port : UInt16) (offset : Nat)
    (data : List Logger.Byte) {old₁ old₂ between old₃ tail : List Logger.Byte}
    (hm : m.bytes = old₁ ++ (old₂ ++ (between ++ (old₃ ++ tail)))) (h₁ : old₁.length = 2)
    (h₂ : old₂.length = 2) (hoffset : 4 + between.length = offset) (h₃ : data.length = old₃.length) :
    ∃ m', (Octets.put outside 0 (E.store 2 family) >>= fun _ => setPort E port >>= fun _ =>
        Octets.put outside offset data).run m = .ok () m' ∧
      m'.bytes = E.store 2 family ++ (bigBytes 2 port.toNat ++ (between ++ (data ++ tail))) := by
  -- the family
  obtain ⟨m₁, hrun₁, hm₁⟩ : ∃ m₁, (Octets.put outside 0 (E.store 2 family)).run m = .ok () m₁ ∧
      m₁.bytes = [] ++ (E.store 2 family ++ (old₂ ++ (between ++ (old₃ ++ tail)))) :=
    Octets.put_run outside hm rfl (by rw [ByteOrder.length_store, h₁])
  -- the port
  obtain ⟨m₂, hrun₂, hm₂⟩ : ∃ m₂, (setPort E port).run m₁ = .ok () m₂ ∧
      m₂.bytes = E.store 2 family ++ (bigBytes 2 port.toNat ++ (between ++ (old₃ ++ tail))) := by
    have hport : E.store 2 (hostToNetwork16 E port.toNat) = bigBytes 2 port.toNat :=
      E.store_swapBig 2 port.toNat
    unfold setPort
    rw [hport]
    exact Octets.put_run outside hm₁ (E.length_store 2 family) (by rw [length_bigBytes, h₂])
  -- the address
  have hcut : m₂.bytes =
      (E.store 2 family ++ (bigBytes 2 port.toNat ++ between)) ++ (old₃ ++ tail) := by
    rw [hm₂, List.append_assoc, List.append_assoc]
  obtain ⟨m₃, hrun₃, hm₃⟩ : ∃ m₃, (Octets.put outside offset data).run m₂ = .ok () m₃ ∧
      m₃.bytes = (E.store 2 family ++ (bigBytes 2 port.toNat ++ between)) ++ (data ++ tail) := by
    refine Octets.put_run outside hcut ?_ h₃
    rw [List.length_append, List.length_append, E.length_store, length_bigBytes]
    omega
  refine ⟨m₃, ?_, ?_⟩
  · rw [run_bind_of_ok hrun₁, run_bind_of_ok hrun₂]
    exact hrun₃
  · rw [hm₃, List.append_assoc, List.append_assoc]

theorem constructPort_run (port : UInt16) (loopBackOnly ipv6 : Bool) (m : InetAddress) :
    ∃ m', (InetAddress.constructPort E port loopBackOnly ipv6).run m = .ok () m' ∧
      Built E (Ip.ofFlags loopBackOnly ipv6) port m' := by
  cases ipv6 with
  | true =>
    have hparts : zeroed.bytes = List.replicate 2 0 ++ (List.replicate 2 0 ++ (List.replicate 4 0 ++
        (List.replicate 16 0 ++ List.replicate 4 0))) := rfl
    obtain ⟨m', hrun, hm'⟩ := place_run E afInet6 port 8
      (if loopBackOnly then in6addrLoopback else in6addrAny).bytes hparts rfl rfl rfl
        (Octets.size_eq _)
    refine ⟨m', ?_, List.replicate 4 0, List.replicate 4 0, rfl, hm'⟩
    unfold InetAddress.constructPort
    rw [if_pos rfl, run_bind_of_ok (InetAddress.memZero_run m)]
    exact hrun
  | false =>
    have hsplit : m.bytes = [] ++ (m.bytes.take 16 ++ m.bytes.drop 16) := by
      rw [List.take_append_drop, List.nil_append]
    obtain ⟨m₁, hzero, hm₁⟩ : ∃ m₁, (InetAddress.memZero 16).run m = .ok () m₁ ∧
        m₁.bytes = [] ++ (List.replicate 16 0 ++ m.bytes.drop 16) := by
      refine Octets.put_run outside hsplit rfl ?_
      rw [List.length_replicate, List.length_take, m.size_eq]
      rfl
    have hparts : m₁.bytes = List.replicate 2 0 ++ (List.replicate 2 0 ++ ([] ++
        (List.replicate 4 0 ++ (List.replicate 8 0 ++ m.bytes.drop 16)))) := hm₁
    have haddr : E.store 4 (hostToNetwork32 E
        (if loopBackOnly then inaddrLoopback else inaddrAny).toNat) =
          (Ip.inAddr (if loopBackOnly then inaddrLoopback else inaddrAny)).bytes :=
      E.store_swapBig 4 _
    obtain ⟨m', hrun, hm'⟩ := place_run E afInet port 4
      (Ip.inAddr (if loopBackOnly then inaddrLoopback else inaddrAny)).bytes hparts rfl rfl rfl
        (Octets.size_eq _)
    refine ⟨m', ?_, [], _, rfl, hm'⟩
    unfold InetAddress.constructPort
    rw [if_neg Bool.false_ne_true, run_bind_of_ok hzero]
    simp only [haddr]
    exact hrun

/-- A `sockaddr_in` of the caller. -/
theorem setSockAddrInet4_run {addr : Octets 16} (haddr : addr.bytes = name.bytes E)
    (m : InetAddress) :
    ∃ m', (InetAddress.setSockAddrInet4 addr).run m = .ok () m' ∧ Built E name.ip name.port m' := by
  obtain ⟨m', hrun, hm'⟩ := name.put_run (E := E) m
  refine ⟨m', ?_, Name.built hm'⟩
  unfold InetAddress.setSockAddrInet4
  rw [haddr]
  exact hrun

/-! ## Both ways -/

/-- The functions of the address agree on the endpoint, and the kernel reads it. -/
structure Carries (P : Presentation) (E : ByteOrder) (B : Build) (e : Endpoint) (m : InetAddress) :
    Prop where
  agrees : Agrees P E B e.ip e.port m
  read : kernelReads E m = some e

theorem Built.carries (hP : P.Lawful) (h : Built E e.ip e.port m) : Carries P E B e m :=
  ⟨h.agrees hP, h.kernelReads⟩

/-- **Names cross the kernel.**  On storage that held anything, on machines of either byte order and
with or without asserts: an address that is made from a text and a port, from a port and flags, from
a `sockaddr_in` or from what `getsockname`, `getpeername` or `accept4` filled in, carries the address
and the port, in text, in binary and to `bind` and `connect`. -/
theorem names_cross_kernel (P : Presentation) (E : ByteOrder) (B : Build) (hP : P.Lawful) :
    (∀ (e : Endpoint) (m : InetAddress), ∃ m',
      (InetAddress.construct P E (e.ip.text P) e.port false).run m = .ok () m' ∧
        Carries P E B e m') ∧
    (∀ port loopBackOnly ipv6 (m : InetAddress), ∃ m',
      (InetAddress.constructPort E port loopBackOnly ipv6).run m = .ok () m' ∧
        Carries P E B ⟨Ip.ofFlags loopBackOnly ipv6, port⟩ m') ∧
    (∀ (name : Name) (addr : Octets 16) (m : InetAddress), addr.bytes = name.bytes E → ∃ m',
      (InetAddress.setSockAddrInet4 addr).run m = .ok () m' ∧
        Carries P E B name.toEndpoint m') ∧
    (∀ (name : Name) (m : InetAddress), ∃ m', (getLocalAddr B E (some name)).run m = .ok () m' ∧
      Carries P E B name.toEndpoint m') ∧
    (∀ (name : Name) (m : InetAddress), ∃ m', (getPeerAddr B E (some name)).run m = .ok () m' ∧
      Carries P E B name.toEndpoint m') ∧
    ∀ (fd : Nat) (name : Name) (peer : InetAddress), ∃ m',
      (Socket.accept B E (some (fd, name))).run peer = .ok (fd : Int) m' ∧
        Carries P E B name.toEndpoint m' := by
  refine ⟨?_, ?_, ?_, ?_, ?_, ?_⟩
  · intro e m
    obtain ⟨m', hrun, hbuilt⟩ := construct_run (E := E) hP e.ip e.port m
    exact ⟨m', hrun, hbuilt.carries hP⟩
  · intro port loopBackOnly ipv6 m
    obtain ⟨m', hrun, hbuilt⟩ := constructPort_run (E := E) port loopBackOnly ipv6 m
    exact ⟨m', hrun, Built.carries (e := ⟨_, port⟩) hP hbuilt⟩
  · intro name addr m haddr
    obtain ⟨m', hrun, hbuilt⟩ := setSockAddrInet4_run haddr m
    exact ⟨m', hrun, hbuilt.carries hP⟩
  · intro name m
    obtain ⟨m', hrun, hbuilt⟩ := getName_run (B := B) (E := E) "GetLocalAddr" name m
    exact ⟨m', hrun, hbuilt.carries hP⟩
  · intro name m
    obtain ⟨m', hrun, hbuilt⟩ := getName_run (B := B) (E := E) "GetPeerAddr" name m
    exact ⟨m', hrun, hbuilt.carries hP⟩
  · intro fd name peer
    obtain ⟨m', hrun, hbuilt⟩ := accept_run (B := B) (E := E) fd name peer
    exact ⟨m', hrun, hbuilt.carries hP⟩

/-- A peer at `127.0.0.1:8080`. -/
def loopbackPeer : Name where
  ip := .v4 inaddrLoopback
  port := 8080
  flowinfo := ⟨List.replicate 4 0, rfl⟩
  scopeId := ⟨List.replicate 4 0, rfl⟩

theorem names_cross_kernel_loopback :
    ∃ m, (Socket.accept .debug .little (some (7, loopbackPeer))).run zeroed = .ok 7 m ∧
      InetAddress.ipPortToString .debug numericPresentation .little m =
        .ok (bytesOf "127.0.0.1:8080") ∧
      kernelReads .little m = some ⟨.v4 0x7F000001, 8080⟩ := by
  obtain ⟨-, -, -, -, -, haccept⟩ := names_cross_kernel numericPresentation .little .debug
    numericPresentation_lawful
  obtain ⟨m, hrun, hcarries⟩ := haccept 7 loopbackPeer zeroed
  have htext : (loopbackPeer.ip.text numericPresentation ++
      byteOf ':' :: portText loopbackPeer.port) = bytesOf "127.0.0.1:8080" := by decide
  exact ⟨m, hrun, hcarries.agrees.ipPortToString.trans (congrArg Except.ok htext), hcarries.read⟩

/-! ## A connection to itself -/

theorem returned_getName (what : String) (name : Name) :
    ∃ m, returned (getName B E what (some name)) = .ok m ∧ Built E name.ip name.port m := by
  obtain ⟨m, hrun, hbuilt⟩ := getName_run (B := B) (E := E) what name zeroed
  refine ⟨m, ?_, hbuilt⟩
  unfold returned
  rw [hrun]

/-- The ports of two names, compared in network byte order. -/
theorem Built.sinPort_eq_iff {ip ip' : Ip} {port port' : UInt16} {m' : InetAddress}
    (h : Built E ip port m) (h' : Built E ip' port' m') :
    sinPort E m = sinPort E m' ↔ port = port' := by
  constructor
  · intro hsame
    have hhost : InetAddress.portHost E m = InetAddress.portHost E m' := by
      unfold InetAddress.portHost InetAddress.portNet
      rw [hsame]
    rw [h.portHost, h'.portHost] at hhost
    exact UInt16.toNat_inj.mp hhost
  · rintro rfl
    unfold sinPort
    rw [h.window_port, h'.window_port]

theorem load_inAddr_eq_iff {a b : UInt32} :
    E.load (Ip.inAddr a).bytes = E.load (Ip.inAddr b).bytes ↔ a = b := by
  constructor
  · intro hsame
    have hvalue := congrArg (E.swapBig 4) hsame
    rw [E.swapBig_load (Ip.inAddr a).size_eq, E.swapBig_load (Ip.inAddr b).size_eq] at hvalue
    refine inAddr_inj (Octets.ext ?_)
    rw [← bigBytes_bigValue (Ip.inAddr a).size_eq, hvalue, bigBytes_bigValue (Ip.inAddr b).size_eq]
  · rintro rfl
    rfl

/-- The comparison, of two names of one family. -/
theorem sameEnd_iff {ip ip' : Ip} {port port' : UInt16} {m' : InetAddress}
    (hm : Built E ip port m) (hm' : Built E ip' port' m') (hfamily : ip.family = ip'.family) :
    sameEnd E m m' = true ↔ ip = ip' ∧ port = port' := by
  have hports := hm.sinPort_eq_iff hm'
  have hmfamily : Sockets.family E m = ip.family := hm.family
  unfold sameEnd
  cases ip with
  | v4 a =>
    cases ip' with
    | v4 b =>
      have hinet : Sockets.family E m = afInet := hmfamily
      have haddrs : E.load (sinAddr m).bytes = E.load (sinAddr m').bytes ↔ a = b := by
        rw [hm.sinAddr, hm'.sinAddr, load_inAddr_eq_iff]
      rw [if_pos hinet, decide_eq_true_iff, hports, haddrs, Ip.v4.injEq]
      exact and_comm
    | v6 b => cases hfamily
  | v6 a =>
    cases ip' with
    | v4 b => cases hfamily
    | v6 b =>
      have hinet6 : Sockets.family E m = afInet6 := hmfamily
      have hother : ¬ Sockets.family E m = afInet := by
        rw [hinet6]
        decide
      rw [if_neg hother, if_pos hinet6, decide_eq_true_iff, hports, hm.sin6Addr, hm'.sin6Addr,
        Ip.v6.injEq]
      exact and_comm

/-- **`IsSelfConnect`** answers exactly whether both ends have one address and one port, for the two
names of a socket of either family, whatever else the names say. -/
theorem isSelfConnect_iff (E : ByteOrder) (B : Build) (localName peerName : Name)
    (hfamily : localName.ip.family = peerName.ip.family) :
    isSelfConnect B E (some localName) (some peerName) =
      .ok (decide (localName.toEndpoint = peerName.toEndpoint)) := by
  obtain ⟨m, hlocal, hm⟩ := returned_getName (B := B) (E := E) "GetLocalAddr" localName
  obtain ⟨m', hpeer, hm'⟩ := returned_getName (B := B) (E := E) "GetPeerAddr" peerName
  have hsame : sameEnd E m m' = decide (localName.toEndpoint = peerName.toEndpoint) := by
    rw [Bool.eq_iff_iff, sameEnd_iff hm hm' hfamily, decide_eq_true_iff, Endpoint.ext_iff]
  unfold isSelfConnect getLocalAddr getPeerAddr
  rw [hlocal, hpeer, ← hsame]
  rfl

/-- The two ends of a socket that got its own port from the kernel and connected to it. -/
theorem isSelfConnect_iff_loopback :
    loopbackPeer.ip.family = loopbackPeer.ip.family ∧
      isSelfConnect .debug .little (some loopbackPeer) (some loopbackPeer) = .ok true :=
  ⟨rfl, (isSelfConnect_iff .little .debug loopbackPeer loopbackPeer rfl).trans
    (congrArg Except.ok (decide_eq_true rfl))⟩

end TurboNet.Net
