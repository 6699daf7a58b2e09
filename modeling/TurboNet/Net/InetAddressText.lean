/-
# TurboNet.Net.InetAddressText — the text and the binary form of a socket address.

An address built from a canonical text and a port gives back both, in every form: the family is told
from the text and from nothing else, the port stands at one place for both families, and the longest
text leaves room for a port in the 64 chars.
-/
import Mathlib.Data.List.TakeWhile
import TurboNet.Logger.LogNumerals
import TurboNet.Net.InetNumeric

namespace TurboNet.Net

open TurboNet.Lib
open TurboNet.Logger
open Sockets

/-- An address of either family. -/
inductive Ip where
  | v4 (a : UInt32)
  | v6 (a : Octets 16)
  deriving DecidableEq

namespace Ip

/-- An IPv4 address as it stands in an `in_addr`. -/
def inAddr (a : UInt32) : Octets 4 := ⟨bigBytes 4 a.toNat, length_bigBytes 4 a.toNat⟩

def family : Ip → Nat
  | .v4 _ => afInet
  | .v6 _ => afInet6

/-- The canonical text. -/
def text (P : Presentation) : Ip → List Logger.Byte
  | .v4 a => P.ntop4 (inAddr a)
  | .v6 a => P.ntop6 a

/-- The bytes of the address. -/
def bytes : Ip → List Logger.Byte
  | .v4 a => (inAddr a).bytes
  | .v6 a => a.bytes

/-- How many bytes there are between the port and the address. -/
def gap : Ip → Nat
  | .v4 _ => 0
  | .v6 _ => 4

end Ip

/-- The decimal of a port. -/
def portText (port : UInt16) : List Logger.Byte := bytesOf (toString port.toNat)

variable {P : Presentation} {E : ByteOrder} {B : Build} {m : InetAddress} {ip : Ip} {port : UInt16}

/-! ## Texts -/

theorem Presentation.Lawful.length_text (hP : P.Lawful) (ip : Ip) : (ip.text P).length < 46 := by
  cases ip with
  | v4 a =>
    have h := hP.length_ntop4 (Ip.inAddr a)
    exact Nat.lt_trans h (by decide)
  | v6 a => exact hP.length_ntop6 a

theorem Presentation.Lawful.zero_text (hP : P.Lawful) (ip : Ip) : 0 ∉ ip.text P := by
  cases ip with
  | v4 a => exact hP.zero_ntop4 _
  | v6 a => exact hP.zero_ntop6 a

theorem ne_zero_of_mem {text : List Logger.Byte} (hz : 0 ∉ text) :
    ∀ c ∈ text, decide (c ≠ 0) = true := by
  intro c hc
  rw [decide_eq_true_iff]
  rintro rfl
  exact hz hc

theorem cString_of_notMem {text : List Logger.Byte} (hz : 0 ∉ text) : cString text = text :=
  List.takeWhile_eq_self_iff.mpr (ne_zero_of_mem hz)

theorem cString_append {text : List Logger.Byte} (hz : 0 ∉ text) (rest : List Logger.Byte) :
    cString (text ++ 0 :: rest) = text := by
  rw [cString, List.takeWhile_append_of_pos (ne_zero_of_mem hz),
    List.takeWhile_cons_of_neg (by decide), List.append_nil]

theorem inAddr_inj {a b : UInt32} (h : Ip.inAddr a = Ip.inAddr b) : a = b := by
  have hvalue := congrArg (fun o : Octets 4 => bigValue o.bytes) h
  simp only [Ip.inAddr, bigValue_bigBytes] at hvalue
  have ha := a.toNat_lt
  have hb := b.toNat_lt
  apply UInt32.toNat_inj.mp
  omega

/-- The text tells the family, and then the address. -/
theorem Presentation.Lawful.text_inj (hP : P.Lawful) {ip ip' : Ip}
    (h : ip.text P = ip'.text P) : ip = ip' := by
  cases ip with
  | v4 a =>
    cases ip' with
    | v4 b =>
      have hread := congrArg P.pton4 h
      simp only [Ip.text, hP.pton4_ntop4, Option.some.injEq] at hread
      rw [inAddr_inj hread]
    | v6 b =>
      have hcolon := hP.colon_ntop6 b
      have hsame : P.ntop4 (Ip.inAddr a) = P.ntop6 b := h
      rw [← hsame] at hcolon
      exact absurd hcolon (hP.colon_ntop4 _)
  | v6 a =>
    cases ip' with
    | v4 b =>
      have hcolon := hP.colon_ntop6 a
      have hsame : P.ntop6 a = P.ntop4 (Ip.inAddr b) := h
      rw [hsame] at hcolon
      exact absurd hcolon (hP.colon_ntop4 _)
    | v6 b =>
      have hread := congrArg P.pton6 h
      simp only [Ip.text, hP.pton6_ntop6, Option.some.injEq] at hread
      rw [hread]

theorem portText_eq (port : UInt16) : portText port = (Nat.toDigits 10 port.toNat).map byteOf := by
  have hdigits : (toString port.toNat).toList = Nat.toDigits 10 port.toNat := Nat.toList_repr
  rw [portText, bytesOf, hdigits]

theorem length_portText (port : UInt16) : (portText port).length ≤ 5 := by
  have hport := port.toNat_lt
  rw [portText_eq, List.length_map, Nat.length_toDigits_le_iff (by decide) (by decide)]
  omega

theorem digit_of_mem_portText {c : Logger.Byte} (hc : c ∈ portText port) :
    ∃ k : Fin 10, c = byteOf k.val.digitChar := by
  rw [portText_eq] at hc
  obtain ⟨e, he, rfl⟩ := List.mem_map.mp hc
  obtain ⟨d, hd, rfl⟩ := mem_toDigits (by decide) he
  exact ⟨⟨d, hd⟩, rfl⟩

theorem portText_inj {port port' : UInt16} (h : portText port = portText port') : port = port' := by
  have hread : LogStream.readNumeral 10 (portText port) = some port.toNat := by
    rw [portText_eq]
    exact LogStream.readNumeral_toDigits (by decide)
      (fun d hd => LogStream.digitValue_decimal hd) port.toNat
  have hread' : LogStream.readNumeral 10 (portText port') = some port'.toNat := by
    rw [portText_eq]
    exact LogStream.readNumeral_toDigits (by decide)
      (fun d hd => LogStream.digitValue_decimal hd) port'.toNat
  rw [h, hread'] at hread
  exact UInt16.toNat_inj.mp (Option.some.inj hread).symm

/-- What the colon before a port joins comes apart again. -/
theorem joined_inj {text text' : List Logger.Byte} {port port' : UInt16}
    (h : text ++ byteOf ':' :: portText port = text' ++ byteOf ':' :: portText port') :
    text = text' ∧ port = port' := by
  have hstop (q : UInt16) : ∀ c ∈ (portText q).reverse, (c != byteOf ':') = true := by
    intro c hc
    obtain ⟨k, rfl⟩ := digit_of_mem_portText (List.mem_reverse.mp hc)
    have hall : ∀ k : Fin 10, (byteOf k.val.digitChar != byteOf ':') = true := by decide
    exact hall k
  have hreverse (t : List Logger.Byte) (q : UInt16) : (t ++ byteOf ':' :: portText q).reverse =
      (portText q).reverse ++ byteOf ':' :: t.reverse := by
    rw [List.reverse_append, List.reverse_cons, List.append_assoc, List.singleton_append]
  -- read backwards, the port ends at the first colon
  have hback := congrArg List.reverse h
  rw [hreverse, hreverse] at hback
  have hports := congrArg (List.takeWhile (· != byteOf ':')) hback
  rw [List.takeWhile_append_of_pos (hstop port), List.takeWhile_append_of_pos (hstop port'),
    List.takeWhile_cons_of_neg (by decide), List.takeWhile_cons_of_neg (by decide),
    List.append_nil, List.append_nil] at hports
  have hport := portText_inj (List.reverse_inj.mp hports)
  subst hport
  exact ⟨List.append_cancel_right h, rfl⟩

/-! ## From text -/

/-- Family, port and address stand where the functions of the family look for them. -/
def Built (E : ByteOrder) (ip : Ip) (port : UInt16) (m : InetAddress) : Prop :=
  ∃ between tail, between.length = ip.gap ∧
    m.bytes = E.store 2 ip.family ++ (bigBytes 2 port.toNat ++ (between ++ (ip.bytes ++ tail)))

/-- `IpPortFromString` for either family, on storage cut at the members it writes. -/
theorem fill_run (E : ByteOrder) (family : Nat) (port : UInt16) {size offset : Nat}
    {pton : List Logger.Byte → Option (Octets size)} {text : List Logger.Byte} {a : Octets size}
    {old₁ old₂ between old₃ tail : List Logger.Byte}
    (hpton : pton text = some a)
    (hm : m.bytes = old₁ ++ (old₂ ++ (between ++ (old₃ ++ tail)))) (h₁ : old₁.length = 2)
    (h₂ : old₂.length = 2) (hoffset : 4 + between.length = offset) (h₃ : old₃.length = size) :
    ∃ m', (ipFromStringAt E family offset pton text >>= fun _ => setPort E port).run m = .ok () m' ∧
      m'.bytes = E.store 2 family ++ (bigBytes 2 port.toNat ++ (between ++ (a.bytes ++ tail))) := by
  -- the family
  obtain ⟨m₁, hrun₁, hm₁⟩ : ∃ m₁, (Octets.put outside 0 (E.store 2 family)).run m = .ok () m₁ ∧
      m₁.bytes = [] ++ (E.store 2 family ++ (old₂ ++ (between ++ (old₃ ++ tail)))) :=
    Octets.put_run outside hm rfl (by rw [ByteOrder.length_store, h₁])
  -- the address, behind the port and what is between
  have hcut : m₁.bytes = (E.store 2 family ++ (old₂ ++ between)) ++ (old₃ ++ tail) := by
    rw [hm₁, List.nil_append, List.append_assoc, List.append_assoc]
  obtain ⟨m₂, hrun₂, hm₂⟩ : ∃ m₂, (Octets.put outside offset a.bytes).run m₁ = .ok () m₂ ∧
      m₂.bytes = (E.store 2 family ++ (old₂ ++ between)) ++ (a.bytes ++ tail) := by
    refine Octets.put_run outside hcut ?_ ?_
    · rw [List.length_append, List.length_append, ByteOrder.length_store, h₂]
      omega
    · rw [a.size_eq, h₃]
  -- the port
  have hcut₂ : m₂.bytes = E.store 2 family ++ (old₂ ++ (between ++ (a.bytes ++ tail))) := by
    rw [hm₂, List.append_assoc, List.append_assoc]
  obtain ⟨m₃, hrun₃, hm₃⟩ : ∃ m₃, (setPort E port).run m₂ = .ok () m₃ ∧
      m₃.bytes = E.store 2 family ++ (bigBytes 2 port.toNat ++ (between ++ (a.bytes ++ tail))) := by
    have hport : E.store 2 (hostToNetwork16 E port.toNat) = bigBytes 2 port.toNat :=
      E.store_swapBig 2 port.toNat
    unfold setPort
    rw [hport]
    exact Octets.put_run outside hcut₂ (E.length_store 2 family) (by rw [length_bigBytes, h₂])
  refine ⟨m₃, ?_, hm₃⟩
  unfold ipFromStringAt
  rw [bind_assoc, run_bind_of_ok hrun₁, hpton]
  rw [run_bind_of_ok hrun₂]
  exact hrun₃

/-- **Construction.** A canonical text and a port fill the storage of the text's family. -/
theorem construct_run (hP : P.Lawful) (ip : Ip) (port : UInt16) (m : InetAddress) :
    ∃ m', (InetAddress.construct P E (ip.text P) port false).run m = .ok () m' ∧
      Built E ip port m' := by
  have hcut : m.bytes = [] ++ (m.bytes ++ []) := by rw [List.append_nil, List.nil_append]
  cases ip with
  | v4 a =>
    have hcolon : ¬ (false = true ∨ byteOf ':' ∈ (Ip.v4 a).text P) := by
      rintro (h | h)
      · cases h
      · exact hP.colon_ntop4 _ h
    have hsplit : m.bytes = [] ++ (m.bytes.take 16 ++ m.bytes.drop 16) := by
      rw [List.take_append_drop, List.nil_append]
    obtain ⟨m₁, hzero, hm₁⟩ : ∃ m₁, (InetAddress.memZero 16).run m = .ok () m₁ ∧
        m₁.bytes = [] ++ (List.replicate 16 0 ++ m.bytes.drop 16) := by
      refine Octets.put_run outside hsplit rfl ?_
      rw [List.length_replicate, List.length_take, m.size_eq]
      rfl
    have hparts : m₁.bytes = List.replicate 2 0 ++ (List.replicate 2 0 ++ ([] ++
        (List.replicate 4 0 ++ (List.replicate 8 0 ++ m.bytes.drop 16)))) := hm₁
    obtain ⟨m', hrun, hm'⟩ := fill_run E afInet port (hP.pton4_ntop4 (Ip.inAddr a)) hparts rfl rfl
      rfl rfl
    refine ⟨m', ?_, [], _, rfl, hm'⟩
    unfold InetAddress.construct
    rw [if_neg hcolon, run_bind_of_ok hzero, cString_of_notMem (hP.zero_text _)]
    exact hrun
  | v6 a =>
    have hcolon : false = true ∨ byteOf ':' ∈ (Ip.v6 a).text P := .inr (hP.colon_ntop6 a)
    obtain ⟨m₁, hzero, hm₁⟩ : ∃ m₁, (InetAddress.memZero 28).run m = .ok () m₁ ∧
        m₁.bytes = [] ++ (List.replicate 28 0 ++ []) := by
      refine Octets.put_run outside hcut rfl ?_
      rw [List.length_replicate, m.size_eq]
    have hparts : m₁.bytes = List.replicate 2 0 ++ (List.replicate 2 0 ++ (List.replicate 4 0 ++
        (List.replicate 16 0 ++ List.replicate 4 0))) := hm₁
    obtain ⟨m', hrun, hm'⟩ := fill_run E afInet6 port (hP.pton6_ntop6 a) hparts rfl rfl rfl rfl
    refine ⟨m', ?_, List.replicate 4 0, _, rfl, hm'⟩
    unfold InetAddress.construct
    rw [if_pos hcolon, run_bind_of_ok hzero, cString_of_notMem (hP.zero_text _)]
    exact hrun

/-! ## Members -/

theorem Built.family (h : Built E ip port m) : InetAddress.family E m = ip.family := by
  obtain ⟨between, tail, -, hm⟩ := h
  have hwindow : window m.bytes 0 2 = E.store 2 ip.family := by
    rw [hm, window, List.drop_zero, List.take_left' (E.length_store 2 ip.family)]
  have hlt : ip.family < 256 ^ 2 := by
    cases ip with
    | v4 a =>
      show afInet < 256 ^ 2
      decide
    | v6 a =>
      show afInet6 < 256 ^ 2
      decide
  rw [InetAddress.family, Sockets.family, hwindow, E.load_store, Nat.mod_eq_of_lt hlt]

theorem Built.portHost (h : Built E ip port m) : InetAddress.portHost E m = port.toNat := by
  obtain ⟨between, tail, -, hm⟩ := h
  have hwindow : window m.bytes 2 4 = bigBytes 2 port.toNat := by
    rw [hm]
    exact window_middle (E.length_store 2 ip.family) (by rw [length_bigBytes])
  have hlt : port.toNat < 256 ^ 2 := port.toNat_lt
  rw [InetAddress.portHost, InetAddress.portNet, networkToHost16, sinPort, hwindow,
    E.swapBig_load (length_bigBytes 2 _), bigValue_bigBytes, Nat.mod_eq_of_lt hlt]

/-- The bytes of the address, at the place of its family. -/
theorem Built.window_address (h : Built E ip port m) :
    window m.bytes (4 + ip.gap) (4 + ip.gap + ip.bytes.length) = ip.bytes := by
  obtain ⟨between, tail, hbetween, hm⟩ := h
  have hparts : m.bytes = (E.store 2 ip.family ++ (bigBytes 2 port.toNat ++ between)) ++
      (ip.bytes ++ tail) := by
    rw [hm, List.append_assoc, List.append_assoc]
  rw [hparts]
  apply window_middle
  · rw [List.length_append, List.length_append, E.length_store, length_bigBytes, hbetween]
    omega
  · rfl

theorem Built.sinAddr {a : UInt32} (h : Built E (.v4 a) port m) :
    Sockets.sinAddr m = Ip.inAddr a := by
  apply Octets.ext
  exact h.window_address

theorem Built.sin6Addr {a : Octets 16} (h : Built E (.v6 a) port m) :
    Sockets.sin6Addr m = a := by
  apply Octets.ext
  have hwindow := h.window_address
  have hlength : (Ip.v6 a).bytes.length = 16 := a.size_eq
  rw [hlength] at hwindow
  exact hwindow

theorem Built.ipv4Host_run {a : UInt32} (h : Built E (.v4 a) port m) :
    (InetAddress.ipv4Host B E).run m = .ok a.toNat m := by
  have hfamily : InetAddress.family E m = afInet := h.family
  have hload : networkToHost32 E (E.load (Sockets.sinAddr m).bytes) = a.toNat := by
    have hlt : a.toNat < 256 ^ 4 := a.toNat_lt
    rw [h.sinAddr, networkToHost32, E.swapBig_load (Ip.inAddr a).size_eq, Ip.inAddr,
      bigValue_bigBytes, Nat.mod_eq_of_lt hlt]
  unfold InetAddress.ipv4Host
  rw [run_get_bind, run_bind_of_ok (B.run_assert_of (fun _ => hfamily)), hload]
  rfl

theorem Built.ipv6_run {a : Octets 16} (h : Built E (.v6 a) port m) :
    (InetAddress.ipv6 B E).run m = .ok a m := by
  have hfamily : InetAddress.family E m = afInet6 := h.family
  unfold InetAddress.ipv6
  rw [run_get_bind, run_bind_of_ok (B.run_assert_of (fun _ => hfamily)), h.sin6Addr]
  rfl

/-! ## To text -/

/-- The chars hold a text, and nothing behind it. -/
structure Printed (text : List Logger.Byte) (buf : Octets 64) : Prop where
  fits : text.length < 64
  bytes_eq : buf.bytes = text ++ List.replicate (64 - text.length) 0

theorem printed_empty : Printed [] InetAddress.emptyText where
  fits := by decide
  bytes_eq := rfl

variable {text data : List Logger.Byte} {buf : Octets 64}

theorem Printed.terminated (h : Printed text buf) : ∃ rest, buf.bytes = text ++ 0 :: rest := by
  have hone : 64 - text.length = (63 - text.length) + 1 := by
    have hfits := h.fits
    omega
  refine ⟨List.replicate (63 - text.length) 0, ?_⟩
  rw [h.bytes_eq, hone, List.replicate_succ]

/-- More text, and a terminator, behind what is there. -/
theorem Printed.put_run (h : Printed text buf) (hroom : (text ++ data).length < 64) :
    ∃ buf', (Octets.put outsideText text.length (data ++ [0])).run buf = .ok () buf' ∧
      Printed (text ++ data) buf' := by
  have hlength := hroom
  rw [List.length_append] at hlength
  have hsum : data.length + 1 + (63 - (text ++ data).length) = 64 - text.length := by
    rw [List.length_append]
    omega
  have hcut : buf.bytes = text ++ (List.replicate (data.length + 1) 0 ++
      List.replicate (63 - (text ++ data).length) 0) := by
    rw [h.bytes_eq, List.replicate_append_replicate, hsum]
  obtain ⟨buf', hrun, hbuf'⟩ : ∃ buf' : Octets 64,
      (Octets.put outsideText text.length (data ++ [0])).run buf = .ok () buf' ∧
        buf'.bytes = text ++ ((data ++ [0]) ++ List.replicate (63 - (text ++ data).length) 0) := by
    refine Octets.put_run outsideText hcut rfl ?_
    rw [List.length_append, List.length_singleton, List.length_replicate]
  have hone : 64 - (text ++ data).length = (63 - (text ++ data).length) + 1 := by omega
  refine ⟨buf', hrun, hroom, ?_⟩
  rw [hbuf', hone, List.replicate_succ, List.append_assoc, List.append_assoc]
  rfl

theorem Printed.strlen_run (h : Printed text buf) (hz : 0 ∉ text) :
    strlen.run buf = .ok text.length buf := by
  obtain ⟨rest, hrest⟩ := h.terminated
  have hend : 0 ∈ buf.bytes := by
    rw [hrest]
    exact List.mem_append_right _ List.mem_cons_self
  unfold strlen
  rw [run_get_bind, if_pos hend, hrest, cString_append hz]
  rfl

/-- What is returned is what was printed. -/
theorem Printed.textOf_eq {print : Printing 64 Unit} (h : Printed text buf) (hz : 0 ∉ text)
    (hprint : print.run InetAddress.emptyText = .ok () buf) :
    InetAddress.textOf print = .ok text := by
  unfold InetAddress.textOf
  rw [run_bind_of_ok hprint, h.strlen_run hz]
  show Except.ok (buf.bytes.take text.length) = _
  rw [h.bytes_eq, List.take_left' rfl]

/-- The text of the address fits, and both asserts on the size hold. -/
theorem Built.ipToString_run (hP : P.Lawful) (h : Built E ip port m) :
    ∃ buf, (Sockets.ipToString B P E m).run InetAddress.emptyText = .ok () buf ∧
      Printed (ip.text P) buf := by
  have hlength := hP.length_text ip
  have hroom : (ip.text P).length < 64 := by omega
  obtain ⟨buf, hput, hprinted⟩ : ∃ buf,
      (Octets.put outsideText 0 (ip.text P ++ [0])).run InetAddress.emptyText = .ok () buf ∧
        Printed (ip.text P) buf := printed_empty.put_run hroom
  have hrun : (inetNtop (ip.text P)).run InetAddress.emptyText = .ok () buf := by
    unfold inetNtop
    rw [if_pos hroom]
    exact hput
  refine ⟨buf, ?_, hprinted⟩
  rw [← hrun]
  unfold Sockets.ipToString
  cases ip with
  | v4 a =>
    have hfamily : Sockets.family E m = afInet := h.family
    have hsize : inetAddrstrlen ≤ 64 := by decide
    rw [if_pos hfamily, run_bind_of_ok (B.run_assert_of (fun _ => hsize)), h.sinAddr]
    rfl
  | v6 a =>
    have hfamily : Sockets.family E m = afInet6 := h.family
    have hother : ¬ Sockets.family E m = afInet := by
      rw [hfamily]
      decide
    have hsize : inet6Addrstrlen ≤ 64 := by decide
    rw [if_neg hother, if_pos hfamily, run_bind_of_ok (B.run_assert_of (fun _ => hsize)),
      h.sin6Addr]
    rfl

theorem Built.ipToString_eq (hP : P.Lawful) (h : Built E ip port m) :
    InetAddress.ipToString B P E m = .ok (ip.text P) := by
  obtain ⟨buf, hrun, hprinted⟩ := h.ipToString_run (B := B) hP
  exact hprinted.textOf_eq (hP.zero_text ip) hrun

theorem bytesOf_port (port : UInt16) :
    bytesOf (":" ++ toString port.toNat) = byteOf ':' :: portText port := by
  rw [bytesOf, String.toList_append, List.map_append, portText, bytesOf]
  rfl

theorem zero_joined (hz : 0 ∉ text) (port : UInt16) : 0 ∉ text ++ byteOf ':' :: portText port := by
  intro hmem
  rcases List.mem_append.mp hmem with hmem | hmem
  · exact hz hmem
  rcases List.mem_cons.mp hmem with hcolon | hmem
  · revert hcolon
    decide
  · obtain ⟨k, hk⟩ := digit_of_mem_portText hmem
    have hall : ∀ k : Fin 10, 0 ≠ byteOf k.val.digitChar := by decide
    exact hall k hk

/-- **Nothing is cut off**: a text of at most 45 chars leaves 18 for the colon and the port. -/
theorem Built.ipPortToString_eq (hP : P.Lawful) (h : Built E ip port m) :
    InetAddress.ipPortToString B P E m = .ok (ip.text P ++ byteOf ':' :: portText port) := by
  have hlength := hP.length_text ip
  have hport := length_portText port
  obtain ⟨buf, hrun, hprinted⟩ := h.ipToString_run (B := B) hP
  -- the address ends where `strlen` says
  have hend := hprinted.strlen_run (hP.zero_text ip)
  have hhost : networkToHost16 E (sinPort E m) = port.toNat := h.portHost
  -- and there is room for all of the port behind it
  have hwhole : (bytesOf (":" ++ toString port.toNat)).take (64 - (ip.text P).length - 1) =
      byteOf ':' :: portText port := by
    rw [bytesOf_port]
    apply List.take_of_length_le
    rw [List.length_cons]
    omega
  have hroom : (ip.text P ++ byteOf ':' :: portText port).length < 64 := by
    rw [List.length_append, List.length_cons]
    omega
  obtain ⟨buf', hput, hprinted'⟩ := hprinted.put_run hroom
  have hprint : (Sockets.ipPortToString B P E m).run InetAddress.emptyText = .ok () buf' := by
    unfold Sockets.ipPortToString
    rw [run_bind_of_ok hrun, run_bind_of_ok hend, hhost,
      run_bind_of_ok (B.run_assert_of (fun _ => hprinted.fits))]
    unfold snprintf
    rw [hwhole]
    exact hput
  exact hprinted'.textOf_eq (zero_joined (hP.zero_text ip) port) hprint

/-! ## Agreement -/

/-- What an address answers, in text and in binary, is what it was built from. -/
structure Agrees (P : Presentation) (E : ByteOrder) (B : Build) (ip : Ip) (port : UInt16)
    (m : InetAddress) : Prop where
  family : InetAddress.family E m = ip.family
  portHost : InetAddress.portHost E m = port.toNat
  ipv4Host : ∀ a, ip = .v4 a → (InetAddress.ipv4Host B E).run m = .ok a.toNat m
  ipv6 : ∀ a, ip = .v6 a → (InetAddress.ipv6 B E).run m = .ok a m
  ipToString : InetAddress.ipToString B P E m = .ok (ip.text P)
  ipPortToString : InetAddress.ipPortToString B P E m =
    .ok (ip.text P ++ byteOf ':' :: portText port)

theorem Built.agrees (hP : P.Lawful) (h : Built E ip port m) : Agrees P E B ip port m where
  family := h.family
  portHost := h.portHost
  ipv4Host a ha := by
    subst ha
    exact h.ipv4Host_run
  ipv6 a ha := by
    subst ha
    exact h.ipv6_run
  ipToString := h.ipToString_eq hP
  ipPortToString := h.ipPortToString_eq hP

theorem Agrees.inj (hP : P.Lawful) {ip' : Ip} {port' : UInt16} {m' : InetAddress}
    (h : Agrees P E B ip port m) (h' : Agrees P E B ip' port' m')
    (htext : InetAddress.ipPortToString B P E m = InetAddress.ipPortToString B P E m') :
    ip = ip' ∧ port = port' := by
  rw [h.ipPortToString, h'.ipPortToString] at htext
  obtain ⟨hip, hport⟩ := joined_inj (Except.ok.inj htext)
  exact ⟨hP.text_inj hip, hport⟩

/-- **Text and binary forms agree**, for every address of either family and every port, on storage
that held anything, on machines of either byte order and with or without asserts; and no two
addresses have one `IpPortToString()`. -/
theorem text_and_binary_agree (P : Presentation) (E : ByteOrder) (B : Build) (hP : P.Lawful) :
    (∀ ip port (m : InetAddress), ∃ m',
      (InetAddress.construct P E (ip.text P) port false).run m = .ok () m' ∧
        Agrees P E B ip port m') ∧
    ∀ ip port ip' port' (m₁ m₂ m₁' m₂' : InetAddress),
      (InetAddress.construct P E (Ip.text P ip) port false).run m₁ = .ok () m₁' →
      (InetAddress.construct P E (Ip.text P ip') port' false).run m₂ = .ok () m₂' →
      InetAddress.ipPortToString B P E m₁' = InetAddress.ipPortToString B P E m₂' →
        ip = ip' ∧ port = port' := by
  have hbuild (ip : Ip) (port : UInt16) (m : InetAddress) : ∃ m',
      (InetAddress.construct P E (ip.text P) port false).run m = .ok () m' ∧
        Agrees P E B ip port m' := by
    obtain ⟨m', hrun, hbuilt⟩ := construct_run (E := E) hP ip port m
    exact ⟨m', hrun, hbuilt.agrees hP⟩
  refine ⟨hbuild, ?_⟩
  intro ip port ip' port' m₁ m₂ m₁' m₂' hrun₁ hrun₂ htext
  have hagree {ip : Ip} {port : UInt16} {m m' : InetAddress}
      (hrun : (InetAddress.construct P E (ip.text P) port false).run m = .ok () m') :
      Agrees P E B ip port m' := by
    obtain ⟨m'', hrun', hagrees⟩ := hbuild ip port m
    rw [hrun] at hrun'
    cases hrun'
    exact hagrees
  exact (hagree hrun₁).inj hP (hagree hrun₂) htext

/-- `2001:db8:1:2:3:4:5:6`. -/
def documentation6 : Octets 16 where
  bytes := [0x20, 0x01, 0x0d, 0xb8, 0, 1, 0, 2, 0, 3, 0, 4, 0, 5, 0, 6]
  size_eq := rfl

/-- An address of each family, on a little-endian machine in a debug build. -/
theorem both_families_agree :
    (∃ m, (InetAddress.construct numericPresentation .little (bytesOf "192.168.0.1") 8080 false).run
        ⟨List.replicate 28 0, rfl⟩ = .ok () m ∧
      InetAddress.family .little m = afInet ∧
      (InetAddress.ipv4Host .debug .little).run m = .ok 0xC0A80001 m ∧
      InetAddress.ipPortToString .debug numericPresentation .little m =
        .ok (bytesOf "192.168.0.1:8080")) ∧
    ∃ m, (InetAddress.construct numericPresentation .little (bytesOf "2001:db8:1:2:3:4:5:6") 8080
        false).run ⟨List.replicate 28 0, rfl⟩ = .ok () m ∧
      InetAddress.family .little m = afInet6 ∧
      (InetAddress.ipv6 .debug .little).run m = .ok documentation6 m ∧
      InetAddress.ipPortToString .debug numericPresentation .little m =
        .ok (bytesOf "2001:db8:1:2:3:4:5:6:8080") := by
  have hbuild := (text_and_binary_agree numericPresentation .little .debug
    numericPresentation_lawful).1
  have htext4 : (Ip.v4 0xC0A80001).text numericPresentation = bytesOf "192.168.0.1" := by decide
  have htext6 : (Ip.v6 documentation6).text numericPresentation =
      bytesOf "2001:db8:1:2:3:4:5:6" := by decide
  refine ⟨?_, ?_⟩
  · obtain ⟨m, hrun, hagrees⟩ := hbuild (.v4 0xC0A80001) 8080 ⟨List.replicate 28 0, rfl⟩
    have hjoined := hagrees.ipPortToString
    rw [htext4] at hrun hjoined
    exact ⟨m, hrun, hagrees.family, hagrees.ipv4Host _ rfl, hjoined⟩
  · obtain ⟨m, hrun, hagrees⟩ := hbuild (.v6 documentation6) 8080 ⟨List.replicate 28 0, rfl⟩
    have hjoined := hagrees.ipPortToString
    rw [htext6] at hrun hjoined
    exact ⟨m, hrun, hagrees.family, hagrees.ipv6 _ rfl, hjoined⟩

end TurboNet.Net
