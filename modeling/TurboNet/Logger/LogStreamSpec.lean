/-
# TurboNet.Logger.LogStreamSpec — a `LogStream` is all or nothing.

Each formatter is described by what it writes where (`Wrote`) and by what that adds to the contents
(`Appends`).  Numbers and pointers write behind the cursor first and move it afterwards; they write
their terminator too, and the digits the wrong way round, so what counts is that all of it fits the
`kMaxNumericSize` bytes they ask for.

`stream_all_or_nothing` reads the contents of any run off the list of insertions: those that were
accepted, whole and in order.
-/
import TurboNet.Logger.LogStream

namespace TurboNet.Logger

open TurboNet.Lib

namespace RawBuffer

variable {SIZE : Nat} {m m' m₁ : RawBuffer SIZE}

/-- The chars before the cursor. -/
def contents (m : RawBuffer SIZE) : List Byte := window m.data 0 m.cur

/-! ## Writes -/

/-- `bytes` were stored from `data_ + i` on, and nothing else changed. -/
structure Wrote (m : RawBuffer SIZE) (i : Nat) (bytes : List Byte) (m' : RawBuffer SIZE) : Prop where
  data : m'.data = overwrite m.data i bytes
  cur : m'.cur = m.cur

theorem copyIn_spec (m : RawBuffer SIZE) {i : Nat} (buf : List Byte) (h : i + buf.length ≤ SIZE) :
    ∃ m', (copyIn i buf).run m = .ok () m' ∧ Wrote m i buf m' := by
  unfold copyIn
  rw [run_get_bind, dif_pos h]
  exact ⟨_, EStateM.run_set .., rfl, rfl⟩

theorem store_spec (m : RawBuffer SIZE) {i : Nat} (c : Byte) (h : i < SIZE) :
    ∃ m', (store i c).run m = .ok () m' ∧ Wrote m i [c] m' :=
  copyIn_spec m [c] (by rw [List.length_singleton]; omega)

/-- Two writes, the second right behind the first. -/
theorem Wrote.append {i : Nat} {as bs : List Byte} (h₁ : Wrote m i as m₁) (hi : i ≤ SIZE)
    (h₂ : Wrote m₁ (i + as.length) bs m') : Wrote m i (as ++ bs) m' where
  data := by
    rw [h₂.data, h₁.data]
    exact overwrite_overwrite_behind (m.size_eq.symm ▸ hi)
  cur := h₂.cur.trans h₁.cur

theorem Wrote.split {i : Nat} {as bs : List Byte} (h : Wrote m i (as ++ bs) m')
    (hfit : i + as.length ≤ SIZE) :
    ∃ m₁, Wrote m i as m₁ ∧ Wrote m₁ (i + as.length) bs m' := by
  obtain ⟨m₁, -, hwrote⟩ := copyIn_spec m as hfit
  refine ⟨m₁, hwrote, ?_, h.cur.trans hwrote.cur.symm⟩
  rw [h.data, hwrote.data, overwrite_overwrite_behind (by rw [m.size_eq]; omega)]

/-- `std::reverse` of the first part of what was just written. -/
theorem reverse_front_spec {i : Nat} {as bs : List Byte} (h : Wrote m i (as ++ bs) m₁)
    (hfit : i + (as ++ bs).length ≤ SIZE) :
    ∃ m', (reverse i (i + as.length)).run m₁ = .ok () m' ∧ Wrote m i (as.reverse ++ bs) m' := by
  rw [List.length_append] at hfit
  have hi : i ≤ m.data.length := by
    rw [m.size_eq]
    omega
  have hpart : window m₁.data i (i + as.length) = as := by
    have hall : window m₁.data i (i + (as ++ bs).length) = as ++ bs := by
      rw [h.data]
      exact window_overwrite_self hi
    have htake : (window m₁.data i (i + (as ++ bs).length)).take as.length =
        window m₁.data i (i + as.length) := take_window (by rw [List.length_append]; omega)
    rw [← htake, hall]
    exact List.take_left' rfl
  obtain ⟨m', hrun, hwrote⟩ := copyIn_spec m₁ (i := i) as.reverse
    (by rw [List.length_reverse]; omega)
  refine ⟨m', ?_, ?_, hwrote.cur.trans h.cur⟩
  · unfold reverse
    rw [run_get_bind, if_pos ⟨Nat.le_add_right _ _, by omega⟩, hpart]
    exact hrun
  · rw [hwrote.data, h.data]
    exact overwrite_overwrite_front hi List.length_reverse

/-- `std::reverse` in the middle of what was just written. -/
theorem reverse_spec {i : Nat} {front as bs : List Byte} (h : Wrote m i (front ++ as ++ bs) m₁)
    (hfit : i + (front ++ as ++ bs).length ≤ SIZE) :
    ∃ m', (reverse (i + front.length) (i + (front ++ as).length)).run m₁ = .ok () m' ∧
      Wrote m i (front ++ as.reverse ++ bs) m' := by
  rw [List.append_assoc] at h hfit ⊢
  rw [List.length_append] at hfit
  -- the part in front is a write of its own, and the reversal does not touch it
  obtain ⟨m₂, hfront, hrest⟩ := h.split (by omega)
  obtain ⟨m', hrun, hwrote⟩ := reverse_front_spec hrest (by omega)
  refine ⟨m', ?_, hfront.append (by omega) hwrote⟩
  rw [List.length_append, ← Nat.add_assoc]
  exact hrun

/-- `text` was added to the contents. -/
structure Appends (m : RawBuffer SIZE) (text : List Byte) (m' : RawBuffer SIZE) : Prop where
  cur : m'.cur = m.cur + text.length
  contents : m'.contents = m.contents ++ text

/-- A write at the cursor and a move over its first part. -/
theorem Wrote.add {text rest : List Byte} (h : Wrote m m.cur (text ++ rest) m₁)
    (hfit : m.cur + (text ++ rest).length ≤ SIZE) :
    ∃ m', (add text.length).run m₁ = .ok () m' ∧ Appends m text m' ∧ m'.data = m₁.data := by
  rw [List.length_append] at hfit
  have hcur : m.cur ≤ m.data.length := by
    rw [m.size_eq]
    omega
  refine ⟨_, EStateM.run_modify .., ⟨?_, ?_⟩, rfl⟩
  · show m₁.cur + text.length = m.cur + text.length
    rw [h.cur]
  · show window m₁.data 0 (m₁.cur + text.length) = window m.data 0 m.cur ++ text
    have hall : window (overwrite m.data m.cur (text ++ rest)) m.cur
        (m.cur + (text ++ rest).length) = text ++ rest := window_overwrite_self hcur
    have htake : (window (overwrite m.data m.cur (text ++ rest)) m.cur
        (m.cur + (text ++ rest).length)).take text.length =
          window (overwrite m.data m.cur (text ++ rest)) m.cur (m.cur + text.length) :=
      take_window (by rw [List.length_append]; omega)
    have hsize : (overwrite m.data m.cur (text ++ rest)).length = SIZE :=
      (length_overwrite (by rw [m.size_eq, List.length_append]; exact hfit)).trans m.size_eq
    rw [h.cur, h.data, ← window_append (Nat.zero_le m.cur) (Nat.le_add_right _ _)
      (by rw [hsize]; omega), window_overwrite_before (Nat.le_refl _) hcur, ← htake, hall]
    congr 1
    exact List.take_left' rfl

/-! ## `Append` -/

/-- The `int` of `Avail()` is not negative as long as the cursor is in the array. -/
theorem castSize_avail (h : m.cur ≤ SIZE) (hsize : SIZE < 2 ^ 64) :
    castSize m.avail = SIZE - m.cur := by
  have havail : m.avail = ((SIZE - m.cur : Nat) : Int) := by
    unfold avail
    omega
  have hlt : ((SIZE - m.cur : Nat) : Int) < 2 ^ 64 := by
    have := Nat.sub_le SIZE m.cur
    omega
  unfold castSize
  rw [havail, Int.emod_eq_of_lt (Int.natCast_nonneg _) hlt, Int.toNat_natCast]

theorem append_spec (h : m.cur ≤ SIZE) (hsize : SIZE < 2 ^ 64) (buf : List Byte) :
    (buf.length < SIZE - m.cur ∧ ∃ m', (append buf).run m = .ok () m' ∧ Appends m buf m') ∨
      (¬ buf.length < SIZE - m.cur ∧ (append buf).run m = .ok () m) := by
  unfold append
  rw [run_get_bind, castSize_avail h hsize]
  by_cases hroom : buf.length < SIZE - m.cur
  · obtain ⟨m₁, hrun, hwrote⟩ := copyIn_spec m (i := m.cur) buf (by omega)
    rw [← List.append_nil buf] at hwrote
    obtain ⟨m', hadd, happends, -⟩ := hwrote.add (by rw [List.append_nil]; omega)
    refine Or.inl ⟨hroom, m', ?_, happends⟩
    rw [if_pos hroom, run_bind_of_ok hrun, hadd]
  · refine Or.inr ⟨hroom, ?_⟩
    rw [if_neg hroom]
    rfl

/-- `Append` on the array is `append` on the chars before the cursor. -/
theorem append_refines (h : m.cur ≤ SIZE) (hsize : SIZE < 2 ^ 64) (buf : List Byte)
    {b : FixedBuffer SIZE} (hb : b.chars = m.contents) :
    ∃ m', (append buf).run m = .ok () m' ∧ m'.contents = (b.append buf).chars := by
  have havail : b.avail = SIZE - m.cur := by
    unfold FixedBuffer.avail
    rw [hb, contents, length_window (by rw [m.size_eq]; exact h), Nat.sub_zero]
  rcases append_spec h hsize buf with ⟨hroom, m', hrun, happends⟩ | ⟨hroom, hrun⟩
  · refine ⟨m', hrun, ?_⟩
    rw [happends.contents, FixedBuffer.append_chars (by rw [havail]; exact hroom), hb]
  · refine ⟨m, hrun, ?_⟩
    rw [FixedBuffer.append, dif_neg (by rw [havail]; exact hroom), hb]

end RawBuffer

namespace LogStream

open RawBuffer (Method store reverse add Wrote Appends)

variable {m : RawBuffer kSmallBuffer}

/-! ## Digits -/

/-- The decimal numeral of `v`. -/
def intText (v : Int) : List Byte := bytesOf (toString v)

/-- The hexadecimal numeral of `p`. -/
def pointerText (p : Nat) : List Byte :=
  bytesOf "0x" ++ (Nat.toDigits 16 p).map fun c => byteOf c.toUpper

def sign (v : Int) : List Byte := if v < 0 then [byteOf '-'] else []

theorem intText_eq (v : Int) : intText v = sign v ++ (Nat.toDigits 10 v.natAbs).map byteOf := by
  unfold intText bytesOf sign
  rw [Int.toString_eq_repr, Int.repr_eq_if]
  by_cases hv : v < 0
  · have habs : (-v).toNat = v.natAbs := by omega
    rw [if_neg (by omega), if_pos hv, String.toList_append, Nat.toList_repr, List.map_append, habs]
    rfl
  · have habs : v.toNat = v.natAbs := by omega
    rw [if_pos (by omega), if_neg hv, Nat.toList_repr, habs, List.nil_append]

theorem lookup_run {table : List Byte} {i : Int} {c : Byte} (hi : 0 ≤ i)
    (h : table[i.toNat]? = some c) : (lookup table i).run m = .ok c m := by
  unfold lookup
  rw [if_pos hi, h]
  rfl

/-- `zero[i % 10]`, for negative remainders too. -/
theorem lookup_decimal (i : Int) :
    (lookup digits (zero + i.tmod 10)).run m = .ok (byteOf (i.natAbs % 10).digitChar) m := by
  -- `digits` is symmetric around its zero, which stands at index 9
  have htable : ∀ k : Fin 19, digits[k.val]? = some (byteOf ((k.val : Int) - 9).natAbs.digitChar) := by
    decide
  have hrem : (i.tmod 10).natAbs = i.natAbs % 10 := Int.natAbs_tmod i 10
  have hlt : i.natAbs % 10 < 10 := Nat.mod_lt _ (by decide)
  have hentry := htable ⟨(zero + i.tmod 10).toNat, by unfold zero; omega⟩
  have habs : (((zero + i.tmod 10).toNat : Int) - 9).natAbs = i.natAbs % 10 := by
    unfold zero
    omega
  rw [habs] at hentry
  exact lookup_run (by unfold zero; omega) hentry

theorem lookup_hex {i : Int} (hi : 0 ≤ i) :
    (lookup digitsHex (0 + i.tmod 16)).run m =
      .ok (byteOf (i.natAbs % 16).digitChar.toUpper) m := by
  have htable : ∀ k : Fin 16, digitsHex[k.val]? = some (byteOf k.val.digitChar.toUpper) := by decide
  have hrem : (i.tmod 16).natAbs = i.natAbs % 16 := Int.natAbs_tmod i 16
  have hpos : 0 ≤ i.tmod 16 := Int.tmod_nonneg 16 hi
  have hlt : i.natAbs % 16 < 16 := Nat.mod_lt _ (by decide)
  refine lookup_run (by omega) ?_
  have hindex : (0 + i.tmod 16).toNat = i.natAbs % 16 := by omega
  rw [hindex]
  exact htable ⟨i.natAbs % 16, hlt⟩

/-- The loop of the formatters stores the digits it finds, one behind the other. -/
theorem putDigits_spec {table : List Byte} {origin : Int} {b : Nat} {digit : Nat → Byte}
    {good : Int → Prop} (hgood : ∀ i, good i → good (i.tdiv b))
    (hlookup : ∀ i, good i → ∀ m : RawBuffer kSmallBuffer,
      (lookup table (origin + i.tmod b)).run m = .ok (digit (i.natAbs % b)) m)
    (rounds : Nat) (m : RawBuffer kSmallBuffer) {i : Int} (cur : Nat) (hi : good i)
    (hfit : cur + (digitsUp b rounds i.natAbs).length ≤ kSmallBuffer) :
    ∃ m', (putDigits table origin b rounds i cur).run m =
        .ok (cur + (digitsUp b rounds i.natAbs).length) m' ∧
      Wrote m cur ((digitsUp b rounds i.natAbs).map digit) m' := by
  induction rounds generalizing m i cur with
  | zero => exact ⟨m, rfl, (overwrite_nil _ _).symm, rfl⟩
  | succ rounds ih =>
    -- both divisions round towards zero, so the digits are those of the absolute value
    have hquot : (i.tdiv b).natAbs = i.natAbs / b := Int.natAbs_tdiv i b
    rw [digitsUp, List.length_cons] at hfit
    obtain ⟨m₁, hstore, hwrote⟩ :=
      RawBuffer.store_spec m (i := cur) (digit (i.natAbs % b)) (by omega)
    unfold putDigits
    rw [run_bind_of_ok (hlookup i hi m), run_bind_of_ok hstore, digitsUp]
    by_cases hlast : i.natAbs / b = 0
    · have hend : i.tdiv b = 0 := by omega
      rw [if_pos hlast, if_neg (fun h => h hend)]
      exact ⟨m₁, rfl, hwrote⟩
    · have hmore : i.tdiv b ≠ 0 := by omega
      rw [if_neg hlast] at hfit ⊢
      rw [if_pos hmore, ← hquot]
      rw [← hquot] at hfit
      obtain ⟨m', hrun, hrest⟩ := ih m₁ (cur + 1) (hgood i hi) (by omega)
      refine ⟨m', ?_, hwrote.append (by omega) hrest⟩
      rw [hrun, List.length_cons]
      congr 1
      omega

theorem putDecimalDigits_spec (m : RawBuffer kSmallBuffer) (v : Int)
    (hfit : m.cur + (digitsUp 10 maxDigits v.natAbs).length ≤ kSmallBuffer) :
    ∃ m', (putDigits digits zero 10 maxDigits v m.cur).run m =
        .ok (m.cur + (digitsUp 10 maxDigits v.natAbs).length) m' ∧
      Wrote m m.cur ((digitsUp 10 maxDigits v.natAbs).map fun d => byteOf d.digitChar) m' :=
  have hlookup (i : Int) (_ : True) (m : RawBuffer kSmallBuffer) :
      (lookup digits (zero + i.tmod (10 : Nat))).run m =
        .ok ((fun d => byteOf d.digitChar) (i.natAbs % 10)) m := lookup_decimal i
  putDigits_spec (fun _ _ => trivial) hlookup maxDigits m m.cur trivial hfit

theorem putHexDigits_spec (m : RawBuffer kSmallBuffer) (p cur : Nat)
    (hfit : cur + (digitsUp 16 maxDigits p).length ≤ kSmallBuffer) :
    ∃ m', (putDigits digitsHex 0 16 maxDigits p cur).run m =
        .ok (cur + (digitsUp 16 maxDigits p).length) m' ∧
      Wrote m cur ((digitsUp 16 maxDigits p).map fun d => byteOf d.digitChar.toUpper) m' :=
  have hlookup (i : Int) (hi : 0 ≤ i) (m : RawBuffer kSmallBuffer) :
      (lookup digitsHex (0 + i.tmod (16 : Nat))).run m =
        .ok ((fun d => byteOf d.digitChar.toUpper) (i.natAbs % 16)) m := lookup_hex hi
  putDigits_spec (fun _ hi => Int.tdiv_nonneg hi (by decide)) hlookup maxDigits m cur
    (Int.natCast_nonneg p) hfit

/-- The loop, read backwards, has stored the numeral. -/
theorem reverse_map_digitsUp {b : Nat} (hb : 1 < b) {n : Nat} (hn : n < b ^ maxDigits)
    (f : Char → Byte) :
    ((digitsUp b maxDigits n).map fun d => f d.digitChar).reverse = (Nat.toDigits b n).map f := by
  rw [← map_reverse_digitsUp hb (by decide) hn, List.map_map, ← List.map_reverse]
  rfl

theorem length_digitsUp {b : Nat} (hb : 1 < b) {n : Nat} (hn : n < b ^ maxDigits) :
    (digitsUp b maxDigits n).length = (Nat.toDigits b n).length := by
  rw [← map_reverse_digitsUp hb (by decide) hn, List.length_map, List.length_reverse]

/-! ## The formatters -/

/-- The values of the integer types: 64 bits, signed or not. -/
def Wide (v : Int) : Prop := -2 ^ 63 ≤ v ∧ v < 2 ^ 64

theorem length_toDigits_of_wide {v : Int} (hv : Wide v) :
    (Nat.toDigits 10 v.natAbs).length ≤ 20 := by
  obtain ⟨hlow, hhigh⟩ := hv
  exact (Nat.length_toDigits_le_iff (by decide) (by decide)).mpr (by omega)

theorem length_intText {v : Int} (hv : Wide v) : (intText v).length ≤ 21 := by
  have hdigits := length_toDigits_of_wide hv
  rw [intText_eq, List.length_append, List.length_map, sign]
  split
  · rw [List.length_singleton]
    omega
  · rw [List.length_nil]
    omega

theorem length_pointerText {p : Nat} (hp : p < 2 ^ 64) : (pointerText p).length ≤ 18 := by
  have hdigits : (Nat.toDigits 16 p).length ≤ 16 :=
    (Nat.length_toDigits_le_iff (by decide) (by decide)).mpr (by omega)
  have hprefix : (bytesOf "0x").length = 2 := by decide
  rw [pointerText, List.length_append, List.length_map, hprefix]
  omega

/-- `Avail() < kMaxNumericSize` refuses a number. -/
theorem avail_lt_iff : m.avail < kMaxNumericSize ↔ kSmallBuffer < m.cur + kMaxNumericSize := by
  unfold RawBuffer.avail
  omega

/-- The digits in the order the loop stores them. -/
def decimalUp (v : Int) : List Byte :=
  (digitsUp 10 maxDigits v.natAbs).map fun d => byteOf d.digitChar

theorem decimalUp_reverse {v : Int} (hv : Wide v) :
    (decimalUp v ++ sign v).reverse = intText v := by
  have hwidth : v.natAbs < 10 ^ maxDigits := by
    obtain ⟨hlow, hhigh⟩ := hv
    have hpow : 2 ^ 64 < 10 ^ maxDigits := by decide
    omega
  rw [List.reverse_append, decimalUp, reverse_map_digitsUp (by decide) hwidth byteOf, intText_eq,
    sign]
  split
  · rfl
  · rfl

/-- The digits and the sign, before they are reversed. -/
theorem putDecimal_spec {v : Int} (hv : Wide v) (hroom : m.cur + kMaxNumericSize ≤ kSmallBuffer) :
    ∃ m₁ m₂, (putDigits digits zero 10 maxDigits v m.cur).run m =
        .ok (m.cur + (decimalUp v).length) m₁ ∧
      (putSign v (m.cur + (decimalUp v).length)).run m₁ =
        .ok (m.cur + (decimalUp v ++ sign v).length) m₂ ∧
      Wrote m m.cur (decimalUp v ++ sign v) m₂ := by
  have hroom : m.cur + 48 ≤ kSmallBuffer := hroom
  have hlen : (decimalUp v ++ sign v).length ≤ 21 := by
    rw [← List.length_reverse, decimalUp_reverse hv]
    exact length_intText hv
  rw [List.length_append] at hlen
  have hdigits : (digitsUp 10 maxDigits v.natAbs).length = (decimalUp v).length :=
    List.length_map .. |>.symm
  obtain ⟨m₁, hrun₁, hwrote₁⟩ := putDecimalDigits_spec m v (by omega)
  rw [hdigits] at hrun₁
  refine ⟨m₁, ?_⟩
  unfold putSign
  by_cases hneg : v < 0
  · have hsign : sign v = [byteOf '-'] := if_pos hneg
    obtain ⟨m₂, hstore, hwrote₂⟩ := RawBuffer.store_spec m₁
      (i := m.cur + (decimalUp v).length) (byteOf '-') (by omega)
    refine ⟨m₂, hrun₁, ?_, ?_⟩
    · rw [if_pos hneg, run_bind_of_ok hstore, hsign, List.length_append]
      rfl
    · rw [hsign]
      exact hwrote₁.append (by omega) hwrote₂
  · have hsign : sign v = [] := if_neg hneg
    rw [if_neg hneg, hsign, List.append_nil]
    exact ⟨m₁, hrun₁, rfl, hwrote₁⟩

/-- What follows the digits: a terminator, the reversal of what is behind `front`, and `Add`. -/
theorem finishNumber_spec {m₂ : RawBuffer kSmallBuffer} (front up : List Byte)
    (hwrote : Wrote m m.cur (front ++ up) m₂)
    (hfit : m.cur + (front ++ up).length < kSmallBuffer) :
    ∃ m₃ m₄ m', (store (m.cur + (front ++ up).length) 0).run m₂ = .ok () m₃ ∧
      (reverse (m.cur + front.length) (m.cur + (front ++ up).length)).run m₃ = .ok () m₄ ∧
      (add (front ++ up).length).run m₄ = .ok () m' ∧
      m'.data = overwrite m.data m.cur (front ++ up.reverse ++ [0]) ∧
      Appends m (front ++ up.reverse) m' := by
  have hsame : (front ++ up.reverse).length = (front ++ up).length := by
    rw [List.length_append, List.length_append, List.length_reverse]
  obtain ⟨m₃, hrun₃, hwrote₃⟩ :=
    RawBuffer.store_spec m₂ 0 hfit
  have hall := hwrote.append (by omega) hwrote₃
  obtain ⟨m₄, hrun₄, hwrote₄⟩ := RawBuffer.reverse_spec hall (by
    rw [List.length_append, List.length_singleton]
    omega)
  obtain ⟨m', hadd, happends, hdata⟩ := hwrote₄.add (by
    rw [List.length_append, List.length_singleton, hsame]
    omega)
  rw [hsame] at hadd
  exact ⟨m₃, m₄, m', hrun₃, hrun₄, hadd, hdata.trans hwrote₄.data, happends⟩

/-- **`FormatInteger`** writes the numeral and a terminator at the cursor and moves over the
numeral. -/
theorem formatInteger_spec {v : Int} (hv : Wide v) (hroom : m.cur + kMaxNumericSize ≤ kSmallBuffer) :
    ∃ m', (formatInteger v).run m = .ok () m' ∧ Appends m (intText v) m' ∧
      m'.data = overwrite m.data m.cur (intText v ++ [0]) := by
  have hroom' : m.cur + 48 ≤ kSmallBuffer := hroom
  have htext := length_intText hv
  rw [← decimalUp_reverse hv, List.length_reverse] at htext
  obtain ⟨m₁, m₂, hrun₁, hrun₂, hwrote⟩ := putDecimal_spec hv hroom
  obtain ⟨m₃, m₄, m', hrun₃, hrun₄, hadd, hdata, happends⟩ :=
    finishNumber_spec [] (decimalUp v ++ sign v) hwrote (by rw [List.nil_append]; omega)
  rw [List.nil_append, List.length_nil, Nat.add_zero] at hrun₄
  rw [List.nil_append] at hrun₃ hadd hdata happends
  rw [decimalUp_reverse hv] at hdata happends
  refine ⟨m', ?_, happends, hdata⟩
  unfold formatInteger
  rw [run_get_bind, if_neg (by rw [avail_lt_iff]; omega)]
  dsimp only
  rw [run_bind_of_ok hrun₁, run_bind_of_ok hrun₂, run_bind_of_ok hrun₃, run_bind_of_ok hrun₄,
    Nat.add_sub_cancel_left, hadd]

/-- **`operator<<(const void *)`** does the same behind `0x`. -/
theorem formatPointer_spec (v : UInt64) (hroom : m.cur + kMaxNumericSize ≤ kSmallBuffer) :
    ∃ m', (formatPointer v).run m = .ok () m' ∧ Appends m (pointerText v.toNat) m' ∧
      m'.data = overwrite m.data m.cur (pointerText v.toNat ++ [0]) := by
  have hroom' : m.cur + 48 ≤ kSmallBuffer := hroom
  -- the loop has rounds enough for 64 bits in either base
  have hwidth : v.toNat < 16 ^ maxDigits :=
    Nat.lt_of_lt_of_le v.toNat_lt (by decide)
  have htext := length_pointerText v.toNat_lt
  have hlen := length_digitsUp (b := 16) (by decide) hwidth
  rw [pointerText, List.length_append, List.length_map, ← hlen] at htext
  obtain ⟨m₁, hrun₁, hwrote₁⟩ := RawBuffer.store_spec m (i := m.cur) (byteOf '0') (by omega)
  obtain ⟨m₂, hrun₂, hwrote₂⟩ :=
    RawBuffer.store_spec m₁ (i := m.cur + 1) (byteOf 'x') (by omega)
  have hprefix : Wrote m m.cur (bytesOf "0x") m₂ := hwrote₁.append (by omega) hwrote₂
  obtain ⟨m₃, hrun₃, hwrote₃⟩ := putHexDigits_spec m₂ v.toNat (m.cur + 1 + 1) (by omega)
  have hall : Wrote m m.cur (bytesOf "0x" ++
      (digitsUp 16 maxDigits v.toNat).map fun d => byteOf d.digitChar.toUpper) m₃ :=
    hprefix.append (by omega) hwrote₃
  have hend : m.cur + 1 + 1 + (digitsUp 16 maxDigits v.toNat).length = m.cur + (bytesOf "0x" ++
      (digitsUp 16 maxDigits v.toNat).map fun d => byteOf d.digitChar.toUpper).length := by
    rw [List.length_append, List.length_map, ← Nat.add_assoc]
    rfl
  obtain ⟨m₄, m₅, m', hrun₄, hrun₅, hadd, hdata, happends⟩ :=
    finishNumber_spec _ _ hall (by omega)
  have hprefixEnd : m.cur + (bytesOf "0x").length = m.cur + 1 + 1 := rfl
  rw [hprefixEnd] at hrun₅
  rw [reverse_map_digitsUp (by decide) hwidth fun c => byteOf c.toUpper] at hdata happends
  have hcount : m.cur + (bytesOf "0x" ++ (digitsUp 16 maxDigits v.toNat).map fun d =>
      byteOf d.digitChar.toUpper).length - (m.cur + 1 + 1) + 2 = (bytesOf "0x" ++
      (digitsUp 16 maxDigits v.toNat).map fun d => byteOf d.digitChar.toUpper).length := by
    omega
  rw [hend] at hrun₃
  refine ⟨m', ?_, happends, hdata⟩
  unfold formatPointer
  rw [run_get_bind, if_neg (by rw [avail_lt_iff]; omega)]
  dsimp only
  rw [run_bind_of_ok hrun₁, run_bind_of_ok hrun₂, run_bind_of_ok hrun₃, run_bind_of_ok hrun₄,
    run_bind_of_ok hrun₅, hcount, hadd]

/-- **`operator<<(double)`**, for a text that fits. -/
theorem formatDouble_spec {text : List Byte} (htext : text.length < kMaxNumericSize)
    (hroom : m.cur + kMaxNumericSize ≤ kSmallBuffer) :
    ∃ m', (formatDouble text).run m = .ok () m' ∧ Appends m text m' := by
  -- `snprintf` cuts nothing off, and its terminator stays behind the cursor
  have htake : text.take (kMaxNumericSize - 1) = text := List.take_of_length_le (by omega)
  have hfit : m.cur + (text ++ [0]).length ≤ kSmallBuffer := by
    rw [List.length_append, List.length_singleton]
    omega
  obtain ⟨m₁, hrun, hwrote⟩ := RawBuffer.copyIn_spec m _ hfit
  obtain ⟨m', hadd, happends, -⟩ := hwrote.add hfit
  have hprint : (snprintf m.cur kMaxNumericSize text).run m = .ok text.length m₁ := by
    unfold snprintf
    rw [htake, run_bind_of_ok hrun]
    rfl
  refine ⟨m', ?_, happends⟩
  unfold formatDouble
  rw [run_get_bind, if_neg (by rw [avail_lt_iff]; omega),
    run_bind_of_ok hprint, hadd]

/-! ## Insertions -/

/-- A number other than `bool`, or a pointer. -/
def Insertion.isNumeric : Insertion → Bool
  | .bool _ | .char _ | .charPtr _ | .unsignedCharPtr _ | .string _ | .buffer _ | .append _ => false
  | _ => true

variable (format : Float → List Byte)

/-- The full text of a value. -/
def Insertion.text : Insertion → List Byte
  | .bool v => bytesOf (if v then "1" else "0")
  | .short v => intText v.toInt
  | .unsignedShort v => intText v.toNat
  | .int v => intText v.toInt
  | .unsignedInt v => intText v.toNat
  | .long v => intText v.toInt
  | .unsignedLong v => intText v.toNat
  | .longLong v => intText v.toInt
  | .unsignedLongLong v => intText v.toNat
  | .float v => format v.toFloat
  | .double v => format v
  | .char v => [v]
  | .charPtr v | .unsignedCharPtr v => v.getD (bytesOf "(null)")
  | .voidPtr v => pointerText v.toNat
  | .string v => v
  | .buffer v => v.chars
  | .append data => data

/-- The value of an integer of 16, 32 or 64 bits. -/
def Insertion.integer? : Insertion → Option Int
  | .short v => some v.toInt
  | .unsignedShort v => some v.toNat
  | .int v => some v.toInt
  | .unsignedInt v => some v.toNat
  | .long v => some v.toInt
  | .unsignedLong v => some v.toNat
  | .longLong v => some v.toInt
  | .unsignedLongLong v => some v.toNat
  | _ => none

/-- A number needs `kMaxNumericSize` free chars, a text one more than its length. -/
def Insertion.Accepted (avail : Nat) (v : Insertion) : Prop :=
  if v.isNumeric then kMaxNumericSize ≤ avail else (v.text format).length < avail

instance (avail : Nat) (v : Insertion) : Decidable (v.Accepted format avail) :=
  inferInstanceAs (Decidable
    (if v.isNumeric then kMaxNumericSize ≤ avail else (v.text format).length < avail))

/-- The texts accepted since the last reset, after one more act. -/
def record (texts : List (List Byte)) : Act → List (List Byte)
  | .insert v =>
    if v.Accepted format (kSmallBuffer - texts.flatten.length) then
      texts ++ [v.text format]
    else
      texts
  | .resetBuffer => []

/-- The texts accepted since the last reset. -/
def accepted (acts : List Act) : List (List Byte) := acts.foldl (record format) []

/-- An insertion adds the whole text, or nothing. -/
inductive Inserted (m : RawBuffer kSmallBuffer) (v : Insertion) : RawBuffer kSmallBuffer → Prop
  | whole {m'} (haccepted : v.Accepted format (kSmallBuffer - m.cur))
      (happends : Appends m (v.text format) m') (hfree : m'.cur < kSmallBuffer) : Inserted m v m'
  | nothing (hrefused : ¬ v.Accepted format (kSmallBuffer - m.cur)) : Inserted m v m

variable {format}

theorem wide_toNat {n : Nat} (h : n < 2 ^ 64) : Wide n := by
  unfold Wide
  omega

/-- Every overload for integers comes down to `FormatInteger`. -/
theorem insert_integer (format : Float → List Byte) {v : Insertion} {x : Int}
    (h : v.integer? = some x) : insert format v = formatInteger x ∧ Wide x := by
  cases v with
  | short v =>
    obtain rfl := Option.some.inj h
    have hlow := v.le_toInt
    have hhigh := v.toInt_lt
    refine ⟨?_, by omega, by omega⟩
    rw [insert, Int16.toInt_toInt32]
  | unsignedShort v =>
    obtain rfl := Option.some.inj h
    have hhigh := v.toNat_lt
    refine ⟨?_, wide_toNat (by omega)⟩
    rw [insert, UInt16.toNat_toUInt32]
  | int v =>
    obtain rfl := Option.some.inj h
    have hlow := v.le_toInt
    have hhigh := v.toInt_lt
    exact ⟨rfl, by omega, by omega⟩
  | unsignedInt v =>
    obtain rfl := Option.some.inj h
    have hhigh := v.toNat_lt
    exact ⟨rfl, wide_toNat (by omega)⟩
  | long v =>
    obtain rfl := Option.some.inj h
    have hlow := v.le_toInt
    have hhigh := v.toInt_lt
    exact ⟨rfl, by omega, by omega⟩
  | unsignedLong v =>
    obtain rfl := Option.some.inj h
    exact ⟨rfl, wide_toNat v.toNat_lt⟩
  | longLong v =>
    obtain rfl := Option.some.inj h
    have hlow := v.le_toInt
    have hhigh := v.toInt_lt
    exact ⟨rfl, by omega, by omega⟩
  | unsignedLongLong v =>
    obtain rfl := Option.some.inj h
    exact ⟨rfl, wide_toNat v.toNat_lt⟩
  | bool | float | double | char | charPtr | unsignedCharPtr | voidPtr | string | buffer
    | append => cases h

theorem text_integer (format : Float → List Byte) {v : Insertion} {x : Int} (h : v.integer? = some x) :
    v.isNumeric = true ∧ v.text format = intText x := by
  cases v with
  | short | unsignedShort | int | unsignedInt | long | unsignedLong | longLong | unsignedLongLong =>
    obtain rfl := Option.some.inj h
    exact ⟨rfl, rfl⟩
  | bool | float | double | char | charPtr | unsignedCharPtr | voidPtr | string | buffer
    | append => cases h

/-- What goes through `Append`. -/
theorem inserted_text {v : Insertion} (hcur : m.cur < kSmallBuffer) (hkind : v.isNumeric = false)
    (hrun : insert format v = RawBuffer.append (v.text format)) :
    ∃ m', (insert format v).run m = .ok () m' ∧ Inserted format m v m' := by
  have hiff : v.Accepted format (kSmallBuffer - m.cur) ↔
      (v.text format).length < kSmallBuffer - m.cur := by
    rw [Insertion.Accepted, hkind, if_neg Bool.false_ne_true]
  rw [hrun]
  rcases RawBuffer.append_spec (Nat.le_of_lt hcur) (by decide) (v.text format) with
    ⟨hroom, m', hok, happends⟩ | ⟨hroom, hok⟩
  · refine ⟨m', hok, .whole (hiff.mpr hroom) happends ?_⟩
    rw [happends.cur]
    omega
  · exact ⟨m, hok, .nothing fun h => hroom (hiff.mp h)⟩

/-- What is formatted in place. -/
theorem inserted_number {v : Insertion} (hkind : v.isNumeric = true)
    (hshort : (v.text format).length < kMaxNumericSize)
    (hroom : m.cur + kMaxNumericSize ≤ kSmallBuffer →
      ∃ m', (insert format v).run m = .ok () m' ∧ Appends m (v.text format) m')
    (hfull : m.avail < kMaxNumericSize → (insert format v).run m = .ok () m) :
    ∃ m', (insert format v).run m = .ok () m' ∧ Inserted format m v m' := by
  have hiff : v.Accepted format (kSmallBuffer - m.cur) ↔ kMaxNumericSize ≤ kSmallBuffer - m.cur := by
    rw [Insertion.Accepted, hkind, if_pos rfl]
  have hpos : 0 < kMaxNumericSize := by decide
  by_cases h : m.cur + kMaxNumericSize ≤ kSmallBuffer
  · obtain ⟨m', hok, happends⟩ := hroom h
    refine ⟨m', hok, .whole (hiff.mpr (by omega)) happends ?_⟩
    rw [happends.cur]
    omega
  · refine ⟨m, hfull (avail_lt_iff.mpr (by omega)), .nothing fun haccepted => ?_⟩
    have := hiff.mp haccepted
    omega

theorem formatInteger_full {v : Int} (h : m.avail < kMaxNumericSize) :
    (formatInteger v).run m = .ok () m := by
  unfold formatInteger
  rw [run_get_bind, if_pos h]
  rfl

theorem inserted_integer {v : Insertion} {x : Int} (h : v.integer? = some x) :
    ∃ m', (insert format v).run m = .ok () m' ∧ Inserted format m v m' := by
  obtain ⟨hrun, hx⟩ := insert_integer format h
  obtain ⟨hkind, htext⟩ := text_integer format h
  have hlen := length_intText hx
  have hsize : 21 < kMaxNumericSize := by decide
  refine inserted_number hkind ?_ (fun hroom => ?_) (fun hfull => ?_)
  · rw [htext]
    omega
  · obtain ⟨m', hok, happends, -⟩ := formatInteger_spec hx hroom
    rw [htext, hrun]
    exact ⟨m', hok, happends⟩
  · rw [hrun]
    exact formatInteger_full hfull

theorem inserted_double {v : Insertion} {x : Float} (hkind : v.isNumeric = true)
    (hx : (format x).length < kMaxNumericSize) (htext : v.text format = format x)
    (hrun : insert format v = formatDouble (format x)) :
    ∃ m', (insert format v).run m = .ok () m' ∧ Inserted format m v m' := by
  refine inserted_number hkind (by rwa [htext]) (fun hroom => ?_) (fun hfull => ?_)
  · rw [htext, hrun]
    exact formatDouble_spec hx hroom
  · rw [hrun]
    unfold formatDouble
    rw [run_get_bind, if_pos hfull]
    rfl

/-- **An insertion of any kind** returns, with the whole text or nothing added. -/
theorem insert_spec (hformat : ∀ x, (format x).length < kMaxNumericSize)
    (hcur : m.cur < kSmallBuffer) (v : Insertion) :
    ∃ m', (insert format v).run m = .ok () m' ∧ Inserted format m v m' := by
  cases v with
  | bool v => exact inserted_text hcur rfl rfl
  | short | unsignedShort | int | unsignedInt | long | unsignedLong | longLong | unsignedLongLong =>
    exact inserted_integer rfl
  | float v => exact inserted_double (x := v.toFloat) rfl (hformat _) rfl rfl
  | double v => exact inserted_double (x := v) rfl (hformat _) rfl rfl
  | char v => exact inserted_text hcur rfl rfl
  | charPtr v =>
    cases v with
    | none => exact inserted_text hcur rfl rfl
    | some v => exact inserted_text hcur rfl rfl
  | unsignedCharPtr v =>
    cases v with
    | none => exact inserted_text hcur rfl rfl
    | some v => exact inserted_text hcur rfl rfl
  | voidPtr v =>
    refine inserted_number rfl ?_ (fun hroom => ?_) (fun hfull => ?_)
    · have hlen := length_pointerText v.toNat_lt
      have hsize : 18 < kMaxNumericSize := by decide
      exact Nat.lt_of_le_of_lt hlen hsize
    · obtain ⟨m', hok, happends, -⟩ := formatPointer_spec v hroom
      exact ⟨m', hok, happends⟩
    · show (formatPointer v).run m = .ok () m
      unfold formatPointer
      rw [run_get_bind, if_pos hfull]
      rfl
  | string v => exact inserted_text hcur rfl rfl
  | buffer v => exact inserted_text hcur rfl rfl
  | append data => exact inserted_text hcur rfl rfl

/-! ## Runs -/

/-- The contents are `texts`, and a char is free behind them. -/
structure Holds (texts : List (List Byte)) (m : RawBuffer kSmallBuffer) : Prop where
  contents : m.contents = texts.flatten
  free : m.cur < kSmallBuffer

theorem length_contents (h : m.cur ≤ kSmallBuffer) : m.contents.length = m.cur := by
  rw [RawBuffer.contents, length_window (by rw [m.size_eq]; exact h), Nat.sub_zero]

theorem Inserted.holds {m' : RawBuffer kSmallBuffer} {v : Insertion} {texts : List (List Byte)}
    (hm : Holds texts m) (h : Inserted format m v m') :
    Holds (record format texts (.insert v)) m' := by
  have hlen : texts.flatten.length = m.cur := by
    rw [← hm.contents, length_contents (Nat.le_of_lt hm.free)]
  cases h with
  | whole haccepted happends hfree =>
    refine ⟨?_, hfree⟩
    rw [record, hlen, if_pos haccepted, happends.contents, hm.contents, List.flatten_append,
      List.flatten_singleton]
  | nothing hrefused =>
    rw [record, hlen, if_neg hrefused]
    exact hm

theorem reset_holds : ∃ m', RawBuffer.reset.run m = .ok () m' ∧ Holds [] m' :=
  ⟨_, EStateM.run_modify .., window_self _ _, by show 0 < kSmallBuffer; decide⟩

theorem stream_step {m' : RawBuffer kSmallBuffer} {a : Act}
    (h : (act format a).run m = .ok () m') : (streamRuns format).step m a = some m' := by
  simp only [streamRuns, h]

/-- One act, on the stream and on the list of accepted texts. -/
theorem act_holds (hformat : ∀ x, (format x).length < kMaxNumericSize) {texts : List (List Byte)}
    (hm : Holds texts m) (a : Act) :
    ∃ m', (streamRuns format).step m a = some m' ∧ Holds (record format texts a) m' := by
  cases a with
  | insert v =>
    obtain ⟨m', hrun, hinserted⟩ := insert_spec hformat hm.free v
    exact ⟨m', stream_step hrun, hinserted.holds hm⟩
  | resetBuffer =>
    obtain ⟨m', hrun, hholds⟩ := reset_holds (m := m)
    exact ⟨m', stream_step hrun, hholds⟩

theorem run_holds (hformat : ∀ x, (format x).length < kMaxNumericSize) (acts : List Act)
    {texts : List (List Byte)} (hm : Holds texts m) :
    ∃ m', (streamRuns format).exec m acts = some m' ∧
      Holds (acts.foldl (record format) texts) m' := by
  induction acts generalizing m texts with
  | nil => exact ⟨m, rfl, hm⟩
  | cons a acts ih =>
    obtain ⟨m₁, hstep, hholds⟩ := act_holds hformat hm a
    obtain ⟨m', hrun, hend⟩ := ih hholds
    exact ⟨m', StepSystem.exec_cons.mpr ⟨m₁, hstep, hrun⟩, hend⟩

theorem construct_holds : Holds [] (RawBuffer.construct : RawBuffer kSmallBuffer) :=
  ⟨window_self _ _, by decide⟩

/-- **A stream is all or nothing.** Whatever is inserted, no access leaves `data_`, the contents are
the texts accepted since the last reset, whole and in order, and `Avail()` is between 1 and the size
of the array. -/
theorem stream_all_or_nothing (format : Float → List Byte)
    (hformat : ∀ x, (format x).length < kMaxNumericSize) (acts : List Act) :
    ∃ m, (streamRuns format).exec RawBuffer.construct acts = some m ∧
      m.contents = (accepted format acts).flatten ∧ 1 ≤ m.avail ∧ m.avail ≤ kSmallBuffer := by
  obtain ⟨m, hrun, hholds⟩ := run_holds hformat acts construct_holds
  have hfree := hholds.free
  refine ⟨m, hrun, hholds.contents, ?_, ?_⟩
  · unfold RawBuffer.avail
    omega
  · unfold RawBuffer.avail
    omega

/-- A double, a negative number, and a null pointer behind a reset. -/
theorem stream_all_or_nothing_three :
    ∃ m, (streamRuns fun _ => bytesOf "1.5").exec RawBuffer.construct
      [.insert (.char 88), .resetBuffer, .insert (.double 1.5), .insert (.int (-12)),
        .insert (.charPtr none)] = some m ∧
      m.contents = bytesOf "1.5-12(null)" ∧ 1 ≤ m.avail ∧ m.avail ≤ kSmallBuffer := by
  have htexts : (accepted (fun _ => bytesOf "1.5")
      [.insert (.char 88), .resetBuffer, .insert (.double 1.5), .insert (.int (-12)),
        .insert (.charPtr none)]).flatten = bytesOf "1.5-12(null)" := by
    decide
  rw [← htexts]
  exact stream_all_or_nothing _ (fun _ => by decide) _

end LogStream

end TurboNet.Logger
