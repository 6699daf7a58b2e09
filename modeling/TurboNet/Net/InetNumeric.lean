/-
# TurboNet.Net.InetNumeric — addresses as plain numerals.

An address is cut into numbers of one size, and these are written with a separator between them:
four decimal ones with dots, or eight hexadecimal ones with colons.  That is what `inet_ntop` prints,
except that it leaves out a run of zeros in an IPv6 address and ends some with dots.
-/
import TurboNet.Net.InetAddress

namespace TurboNet.Net

open TurboNet.Lib
open TurboNet.Logger

/-- The value of a digit. -/
def digitOf (base : Nat) (c : Logger.Byte) : Option Nat :=
  (List.range base).find? fun d => byteOf d.digitChar = c

/-- How an address is written: `count` numbers below `radix`, each a numeral of at most `width`
digits. -/
structure Grouping (size : Nat) where
  count : Nat
  radix : Nat
  base : Nat
  width : Nat
  separator : Logger.Byte
  two_le_count : 2 ≤ count
  radix_pos : 0 < radix
  one_lt_base : 1 < base
  width_pos : 0 < width
  radix_le : radix ≤ base ^ width
  covers : radix ^ count = 256 ^ size
  digitOf_digit : ∀ d < base, digitOf base (byteOf d.digitChar) = some d
  separator_ne : ∀ d < base, byteOf d.digitChar ≠ separator

namespace Grouping

variable {size : Nat} (G : Grouping size)

def numeral (n : Nat) : List Logger.Byte := (Nat.toDigits G.base n).map byteOf

def groups (a : Octets size) : List Nat := fixedDigits G.radix G.count (bigValue a.bytes)

/-- The text of an address. -/
def print (a : Octets size) : List Logger.Byte :=
  [G.separator].intercalate ((G.groups a).map G.numeral)

def readNumeral (text : List Logger.Byte) : Option Nat :=
  if text = [] then none else readDigits (digitOf G.base) G.base text

/-- The address of a text. -/
def scan (text : List Logger.Byte) : Option (Octets size) := do
  let groups ← (text.splitOn G.separator).mapM G.readNumeral
  if groups.length = G.count ∧ ∀ g ∈ groups, g < G.radix then
    let n ← readDigits some G.radix groups
    pure ⟨bigBytes size n, length_bigBytes size n⟩
  else none

theorem numeral_ne_nil (n : Nat) : G.numeral n ≠ [] := fun h =>
  Nat.toDigits_ne_nil (List.map_eq_nil_iff.mp h)

theorem readNumeral_numeral (n : Nat) : G.readNumeral (G.numeral n) = some n := by
  rw [readNumeral, if_neg (G.numeral_ne_nil n)]
  exact readDigits_toDigits G.one_lt_base G.digitOf_digit n

theorem mapM_readNumeral (ns : List Nat) : (ns.map G.numeral).mapM G.readNumeral = some ns := by
  induction ns with
  | nil => rfl
  | cons n ns ih =>
    rw [List.map_cons, List.mapM_cons, readNumeral_numeral, ih]
    rfl

theorem digit_of_mem_numeral {n : Nat} {c : Logger.Byte} (hc : c ∈ G.numeral n) :
    ∃ d < G.base, c = byteOf d.digitChar := by
  obtain ⟨e, he, rfl⟩ := List.mem_map.mp hc
  obtain ⟨d, hd, rfl⟩ := mem_toDigits G.one_lt_base he
  exact ⟨d, hd, rfl⟩

theorem separator_notMem_numeral (n : Nat) : G.separator ∉ G.numeral n := by
  intro hmem
  obtain ⟨d, hd, heq⟩ := G.digit_of_mem_numeral hmem
  exact G.separator_ne d hd heq.symm

theorem length_groups (a : Octets size) : (G.groups a).length = G.count :=
  length_fixedDigits G.radix G.count (bigValue a.bytes)

theorem map_numeral_ne_nil (a : Octets size) : (G.groups a).map G.numeral ≠ [] := by
  intro h
  have hlength := G.length_groups a
  rw [List.map_eq_nil_iff.mp h, List.length_nil] at hlength
  have hcount := G.two_le_count
  omega

/-- **A printed address is scanned back.** -/
theorem scan_print (a : Octets size) : G.scan (G.print a) = some a := by
  have hapart : ∀ l ∈ (G.groups a).map G.numeral, G.separator ∉ l := by
    intro l hl
    obtain ⟨n, -, rfl⟩ := List.mem_map.mp hl
    exact G.separator_notMem_numeral n
  have hrange : ∀ g ∈ G.groups a, g < G.radix := fun g hg => mem_fixedDigits G.radix_pos hg
  have hvalue : readDigits some G.radix (G.groups a) = some (bigValue a.bytes) := by
    have hlt : bigValue a.bytes < G.radix ^ G.count := by
      have hback := bigBytes_bigValue a.size_eq
      rw [G.covers, ← hback, bigValue_bigBytes]
      exact Nat.mod_lt _ (Nat.pow_pos (by decide))
    rw [groups, readDigits_fixedDigits, Nat.mod_eq_of_lt hlt]
  unfold scan print
  rw [List.splitOn_intercalate _ hapart (G.map_numeral_ne_nil a), mapM_readNumeral,
    Option.bind_eq_bind, Option.bind_some, if_pos ⟨G.length_groups a, hrange⟩, hvalue]
  show some _ = some a
  congr 1
  exact Octets.ext (bigBytes_bigValue a.size_eq)

/-! ## The chars of a text -/

theorem notMem_intercalate {c sep : Logger.Byte} (hsep : c ≠ sep) {ls : List (List Logger.Byte)}
    (hls : ∀ l ∈ ls, c ∉ l) : c ∉ [sep].intercalate ls := by
  induction ls with
  | nil => exact List.not_mem_nil
  | cons l ls ih =>
    have hfirst := hls l List.mem_cons_self
    cases ls with
    | nil =>
      rw [List.intercalate_singleton]
      exact hfirst
    | cons l' ls =>
      rw [List.intercalate_cons_cons]
      intro hmem
      rcases List.mem_append.mp hmem with hmem | hmem
      · rcases List.mem_append.mp hmem with hmem | hmem
        · exact hfirst hmem
        · exact hsep (List.mem_singleton.mp hmem)
      · exact ih (fun k hk => hls k (List.mem_cons_of_mem _ hk)) hmem

theorem length_intercalate_lt (sep : Logger.Byte) {w : Nat} {ls : List (List Logger.Byte)}
    (hsome : ls ≠ []) (hls : ∀ l ∈ ls, l.length ≤ w) :
    ([sep].intercalate ls).length < ls.length * (w + 1) := by
  induction ls with
  | nil => exact absurd rfl hsome
  | cons l ls ih =>
    have hfirst := hls l List.mem_cons_self
    cases ls with
    | nil =>
      rw [List.intercalate_singleton, List.length_singleton]
      omega
    | cons l' ls =>
      have hrest := ih (List.cons_ne_nil l' ls) fun k hk => hls k (List.mem_cons_of_mem _ hk)
      rw [List.intercalate_cons_cons, List.length_append, List.length_append, List.length_singleton,
        List.length_cons, Nat.succ_mul]
      omega

/-- A text has no char but its digits and its separators. -/
theorem notMem_print {c : Logger.Byte} (hsep : c ≠ G.separator)
    (hdigit : ∀ d < G.base, c ≠ byteOf d.digitChar) (a : Octets size) : c ∉ G.print a := by
  apply notMem_intercalate hsep
  intro l hl hc
  obtain ⟨n, -, rfl⟩ := List.mem_map.mp hl
  obtain ⟨d, hd, heq⟩ := G.digit_of_mem_numeral hc
  exact hdigit d hd heq

theorem separator_mem_print (a : Octets size) : G.separator ∈ G.print a := by
  have hlength := G.length_groups a
  have hcount := G.two_le_count
  obtain ⟨n₁, n₂, ns, hgroups⟩ : ∃ n₁ n₂ ns, G.groups a = n₁ :: n₂ :: ns := by
    match hg : G.groups a with
    | [] | [_] =>
      rw [hg] at hlength
      simp only [List.length_nil, List.length_singleton] at hlength
      omega
    | n₁ :: n₂ :: ns => exact ⟨n₁, n₂, ns, rfl⟩
  rw [print, hgroups, List.map_cons, List.map_cons, List.intercalate_cons_cons]
  apply List.mem_append_left
  exact List.mem_append_right _ (List.mem_singleton.mpr rfl)

theorem length_print (a : Octets size) : (G.print a).length < G.count * (G.width + 1) := by
  have hlength := G.length_groups a
  have hnumerals : ∀ l ∈ (G.groups a).map G.numeral, l.length ≤ G.width := by
    intro l hl
    obtain ⟨n, hn, rfl⟩ := List.mem_map.mp hl
    have hlt : n < G.base ^ G.width :=
      Nat.lt_of_lt_of_le (mem_fixedDigits G.radix_pos hn) G.radix_le
    rw [numeral, List.length_map]
    exact (Nat.length_toDigits_le_iff G.one_lt_base G.width_pos).mpr hlt
  have hbound := length_intercalate_lt G.separator (G.map_numeral_ne_nil a) hnumerals
  rwa [List.length_map, hlength] at hbound

end Grouping

/-! ## Both families -/

/-- Dotted decimal. -/
def dotted : Grouping 4 where
  count := 4
  radix := 256
  base := 10
  width := 3
  separator := byteOf '.'
  two_le_count := by decide
  radix_pos := by decide
  one_lt_base := by decide
  width_pos := by decide
  radix_le := by decide
  covers := by decide
  digitOf_digit := by decide
  separator_ne := by decide

/-- Hexadecimal with colons. -/
def colons : Grouping 16 where
  count := 8
  radix := 65536
  base := 16
  width := 4
  separator := byteOf ':'
  two_le_count := by decide
  radix_pos := by decide
  one_lt_base := by decide
  width_pos := by decide
  radix_le := by decide
  covers := by decide
  digitOf_digit := by decide
  separator_ne := by decide

/-- `inet_pton` and `inet_ntop` without the short forms of IPv6. -/
def numericPresentation : Presentation where
  pton4 := dotted.scan
  pton6 := colons.scan
  ntop4 := dotted.print
  ntop6 := colons.print

theorem numericPresentation_lawful : numericPresentation.Lawful where
  pton4_ntop4 := dotted.scan_print
  pton6_ntop6 := colons.scan_print
  length_ntop4 := dotted.length_print
  length_ntop6 a := Nat.lt_trans (colons.length_print a) (by decide)
  colon_ntop4 := dotted.notMem_print (by decide) (by decide)
  colon_ntop6 := colons.separator_mem_print
  zero_ntop4 := dotted.notMem_print (by decide) (by decide)
  zero_ntop6 := colons.notMem_print (by decide) (by decide)

end TurboNet.Net
