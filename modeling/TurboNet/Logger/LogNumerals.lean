/-
# TurboNet.Logger.LogNumerals — the numbers in a log.

An integer is logged as its canonical decimal numeral and a pointer as `0x` and its canonical
hexadecimal one; both can be read back, and neither touches `data_` outside the `kMaxNumericSize`
chars it asks for.
-/
import TurboNet.Logger.LogStreamSpec

namespace TurboNet.Logger.LogStream

open TurboNet.Lib
open TurboNet.Logger.RawBuffer (Appends)

variable {m m' : RawBuffer kSmallBuffer}

/-! ## Reading numerals back -/

/-- The value of a decimal or upper-case hexadecimal digit. -/
def digitValue (c : Byte) : Option Nat :=
  if byteOf '0' ≤ c ∧ c ≤ byteOf '9' then some (c.toNat - (byteOf '0').toNat)
  else if byteOf 'A' ≤ c ∧ c ≤ byteOf 'F' then some (c.toNat - (byteOf 'A').toNat + 10)
  else none

/-- The number of a nonempty numeral to base `b`. -/
def readNumeral (b : Nat) (text : List Byte) : Option Nat :=
  if text = [] then none
  else readDigits (fun c => (digitValue c).filter (· < b)) b text

/-- The number of a decimal numeral with an optional sign. -/
def readInteger : List Byte → Option Int
  | [] => none
  | c :: text =>
    if c = byteOf '-' then (readNumeral 10 text).map fun n : Nat => -(n : Int)
    else (readNumeral 10 (c :: text)).map fun n : Nat => (n : Int)

/-- The number of a hexadecimal numeral behind `0x`. -/
def readPointer (text : List Byte) : Option Nat :=
  if text.take 2 = bytesOf "0x" then readNumeral 16 (text.drop 2) else none

/-- `digits` is made of digits of the table, with no leading zero. -/
structure CanonicalDigits (table : List Byte) (text : List Byte) : Prop where
  symbols : ∀ c ∈ text, c ∈ table
  canonical : Canonical (byteOf '0') text

/-- The canonical decimal numeral of `v`: a sign exactly before a negative number, and `0` for
zero. -/
structure CanonicalDecimal (v : Int) (text : List Byte) : Prop where
  sign : text.head? = some (byteOf '-') ↔ v < 0
  digits : CanonicalDigits (bytesOf "0123456789") (text.drop (if v < 0 then 1 else 0))
  zero : v = 0 → text = bytesOf "0"

/-- The canonical upper-case hexadecimal numeral of a pointer. -/
structure CanonicalPointer (text : List Byte) : Prop where
  before : text.take 2 = bytesOf "0x"
  digits : CanonicalDigits digitsHex (text.drop 2)

theorem digitValue_decimal {d : Nat} (hd : d < 10) :
    (digitValue (byteOf d.digitChar)).filter (· < 10) = some d := by
  have hall : ∀ k : Fin 10, (digitValue (byteOf k.val.digitChar)).filter (· < 10) = some k.val := by
    decide
  exact hall ⟨d, hd⟩

theorem digitValue_hex {d : Nat} (hd : d < 16) :
    (digitValue (byteOf d.digitChar.toUpper)).filter (· < 16) = some d := by
  have hall : ∀ k : Fin 16,
      (digitValue (byteOf k.val.digitChar.toUpper)).filter (· < 16) = some k.val := by
    decide
  exact hall ⟨d, hd⟩

theorem readNumeral_toDigits {symbol : Char → Byte} {b : Nat} (hb : 1 < b)
    (hvalue : ∀ d, d < b → (digitValue (symbol d.digitChar)).filter (· < b) = some d) (n : Nat) :
    readNumeral b ((Nat.toDigits b n).map symbol) = some n := by
  have hsome : (Nat.toDigits b n).map symbol ≠ [] := fun h =>
    Nat.toDigits_ne_nil (List.map_eq_nil_iff.mp h)
  rw [readNumeral, if_neg hsome]
  exact readDigits_toDigits hb hvalue n

theorem canonicalDigits_toDigits {symbol : Char → Byte} {b : Nat} {table : List Byte} (hb : 1 < b)
    (hmem : ∀ d, d < b → symbol d.digitChar ∈ table)
    (hzero : ∀ d, d < b → symbol d.digitChar = symbol '0' → d = 0) (hsame : symbol '0' = byteOf '0')
    (n : Nat) : CanonicalDigits table ((Nat.toDigits b n).map symbol) where
  symbols c hc := by
    obtain ⟨e, he, rfl⟩ := List.mem_map.mp hc
    obtain ⟨d, hd, rfl⟩ := mem_toDigits hb he
    exact hmem d hd
  canonical := hsame ▸ canonical_toDigits hb hzero n

theorem canonicalDigits_decimal (n : Nat) :
    CanonicalDigits (bytesOf "0123456789") ((Nat.toDigits 10 n).map byteOf) := by
  have hmem : ∀ k : Fin 10, byteOf k.val.digitChar ∈ bytesOf "0123456789" := by decide
  have hzero : ∀ k : Fin 10, byteOf k.val.digitChar = byteOf '0' → k.val = 0 := by decide
  exact canonicalDigits_toDigits (by decide) (fun d hd => hmem ⟨d, hd⟩) (fun d hd => hzero ⟨d, hd⟩)
    rfl n

theorem canonicalDigits_hex (n : Nat) :
    CanonicalDigits digitsHex ((Nat.toDigits 16 n).map fun c => byteOf c.toUpper) := by
  have hmem : ∀ k : Fin 16, byteOf k.val.digitChar.toUpper ∈ digitsHex := by decide
  have hzero : ∀ k : Fin 16, byteOf k.val.digitChar.toUpper = byteOf '0' → k.val = 0 := by decide
  exact canonicalDigits_toDigits (by decide) (fun d hd => hmem ⟨d, hd⟩) (fun d hd => hzero ⟨d, hd⟩)
    (by decide) n

/-! ## The texts of numbers -/

theorem head?_digits_ne_minus {text : List Byte} (h : CanonicalDigits (bytesOf "0123456789") text) :
    text.head? ≠ some (byteOf '-') := by
  intro hhead
  have hmem := h.symbols _ (List.mem_of_head? hhead)
  exact absurd hmem (by decide)

/-- **An integer is read back from its text.** -/
theorem readInteger_intText (v : Int) : readInteger (intText v) = some v := by
  have hread := readNumeral_toDigits (by decide) (fun d hd => digitValue_decimal hd) v.natAbs
  rw [intText_eq, sign]
  by_cases hv : v < 0
  · rw [if_pos hv, List.singleton_append, readInteger, if_pos rfl, hread, Option.map_some]
    congr 1
    omega
  · rw [if_neg hv, List.nil_append]
    have hminus := head?_digits_ne_minus (canonicalDigits_decimal v.natAbs)
    have hne : (Nat.toDigits 10 v.natAbs).map byteOf ≠ [] :=
      (canonicalDigits_decimal v.natAbs).canonical.nonempty
    generalize (Nat.toDigits 10 v.natAbs).map byteOf = text at hread hminus hne ⊢
    cases text with
    | nil => exact absurd rfl hne
    | cons c text =>
      have hc : c ≠ byteOf '-' := fun h => hminus (congrArg some h)
      rw [readInteger, if_neg hc, hread, Option.map_some]
      congr 1
      omega

theorem canonicalDecimal_intText (v : Int) : CanonicalDecimal v (intText v) where
  sign := by
    rw [intText_eq, LogStream.sign]
    split
    · rename_i hv
      exact ⟨fun _ => hv, fun _ => rfl⟩
    · rename_i hv
      exact ⟨fun h => absurd h (head?_digits_ne_minus (canonicalDigits_decimal v.natAbs)),
        fun h => absurd h hv⟩
  digits := by
    rw [intText_eq, LogStream.sign]
    split
    · exact canonicalDigits_decimal v.natAbs
    · exact canonicalDigits_decimal v.natAbs
  zero := by
    rintro rfl
    decide

theorem take_pointerText (p : Nat) : (pointerText p).take 2 = bytesOf "0x" := List.take_left' rfl

theorem drop_pointerText (p : Nat) :
    (pointerText p).drop 2 = (Nat.toDigits 16 p).map fun c => byteOf c.toUpper :=
  List.drop_left' rfl

/-- **A pointer is read back from its text.** -/
theorem readPointer_pointerText (p : Nat) : readPointer (pointerText p) = some p := by
  rw [readPointer, if_pos (take_pointerText p), drop_pointerText]
  apply readNumeral_toDigits (by decide)
  intro d hd
  exact digitValue_hex hd

theorem canonicalPointer_pointerText (p : Nat) : CanonicalPointer (pointerText p) where
  before := take_pointerText p
  digits := by
    rw [drop_pointerText]
    exact canonicalDigits_hex p

/-! ## Insertions -/

/-- `text` was appended, and no char outside the `kMaxNumericSize` ones behind the cursor written. -/
structure Logged (m : RawBuffer kSmallBuffer) (text : List Byte) (m' : RawBuffer kSmallBuffer) :
    Prop where
  contents : m'.contents = m.contents ++ text
  length : m'.length = m.length + text.length
  untouched : ∀ i, i < m.cur ∨ m.cur + kMaxNumericSize ≤ i → m'.data[i]? = m.data[i]?

theorem Appends.logged {text : List Byte} (happends : Appends m text m')
    (hdata : m'.data = overwrite m.data m.cur (text ++ [0]))
    (hroom : m.cur + kMaxNumericSize ≤ kSmallBuffer) (hfit : text.length < kMaxNumericSize) :
    Logged m text m' where
  contents := happends.contents
  length := by
    unfold RawBuffer.length
    rw [happends.cur]
    push_cast
    rfl
  untouched i hi := by
    have hcur : m.cur ≤ m.data.length := by
      rw [m.size_eq]
      omega
    rw [hdata]
    rcases hi with hbefore | hafter
    · exact getElem?_overwrite_before hbefore hcur
    · refine getElem?_overwrite_after ?_ hcur
      rw [List.length_append, List.length_singleton]
      omega

/-- **Numbers are logged in canonical form and can be read back.** -/
theorem numbers_logged_canonically (format : Float → List Byte) (m : RawBuffer kSmallBuffer)
    (hroom : kMaxNumericSize ≤ m.avail) :
    (∀ v x, Insertion.integer? v = some x →
      ∃ m' text, (insert format v).run m = .ok () m' ∧ Logged m text m' ∧
        text = bytesOf (toString x) ∧ CanonicalDecimal x text ∧ readInteger text = some x) ∧
    ∀ p : UInt64, ∃ m' text, (insert format (.voidPtr p)).run m = .ok () m' ∧ Logged m text m' ∧
      text = pointerText p.toNat ∧ CanonicalPointer text ∧ readPointer text = some p.toNat := by
  have hfree : m.cur + kMaxNumericSize ≤ kSmallBuffer := by
    have hnot := mt avail_lt_iff.mpr (Int.not_lt.mpr hroom)
    omega
  constructor
  · intro v x hx
    obtain ⟨hrun, hwide⟩ := insert_integer format hx
    obtain ⟨m', hok, happends, hdata⟩ := formatInteger_spec hwide hfree
    have hfit : (intText x).length < kMaxNumericSize :=
      Nat.lt_of_le_of_lt (length_intText hwide) (by decide)
    exact ⟨m', intText x, hrun ▸ hok, Appends.logged happends hdata hfree hfit, rfl,
      canonicalDecimal_intText x, readInteger_intText x⟩
  · intro p
    obtain ⟨m', hok, happends, hdata⟩ := formatPointer_spec p hfree
    have hfit : (pointerText p.toNat).length < kMaxNumericSize :=
      Nat.lt_of_le_of_lt (length_pointerText p.toNat_lt) (by decide)
    exact ⟨m', pointerText p.toNat, hok, Appends.logged happends hdata hfree hfit, rfl,
      canonicalPointer_pointerText p.toNat, readPointer_pointerText p.toNat⟩

/-- The least 64-bit number and the greatest pointer, in an empty stream. -/
theorem numbers_logged_canonically_extremes :
    (∃ m' text, (insert (fun _ => []) (.long Int64.minValue)).run RawBuffer.construct = .ok () m' ∧
      Logged RawBuffer.construct text m' ∧ text = bytesOf (toString (-2 ^ 63 : Int)) ∧
      CanonicalDecimal (-2 ^ 63) text ∧ readInteger text = some (-2 ^ 63)) ∧
    ∃ m' text, (insert (fun _ => []) (.voidPtr 18446744073709551615)).run RawBuffer.construct =
        .ok () m' ∧
      Logged RawBuffer.construct text m' ∧ text = pointerText 18446744073709551615 ∧
      CanonicalPointer text ∧ readPointer text = some 18446744073709551615 := by
  obtain ⟨hinteger, hpointer⟩ :=
    numbers_logged_canonically (fun _ => []) RawBuffer.construct (by decide)
  exact ⟨hinteger (.long Int64.minValue) (-2 ^ 63) rfl, hpointer 18446744073709551615⟩

end TurboNet.Logger.LogStream
