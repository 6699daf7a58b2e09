/-
# TurboNet.Base.TimestampText — the decimal text of a timestamp.

`ToString` prints the whole seconds and, with six digits, the microseconds left over.  Both casts
round toward zero and the remainder has the sign of its dividend, so before the epoch the digits
behind the point are printed with a sign of their own.
-/
import TurboNet.Base.Timestamp

namespace TurboNet.Base

open TurboNet.Lib

namespace Timestamp

/-- `Timestamp::Timestamp(const Duration &)`. -/
def ofDuration (timeSinceEpoch : Int64) : Timestamp := ⟨timeSinceEpoch.toInt⟩

/-- `ToString()`; `snprintf` is given 31 chars, and the last of these is for the terminator. -/
protected def toString (t : Timestamp) : String :=
  let seconds := t.timeSinceEpochSeconds
  let microseconds := t.timeSinceEpochMicroSeconds
  let text := toString seconds ++ "." ++ printZero 6 (microseconds.tmod kMicroSecondsPerSecond)
  String.ofList (text.toList.take 30)

end Timestamp

/-! ## Decimal numerals with six fractional digits -/

/-- The millionths of digits, a point, and exactly six digits. -/
def readUnsignedMillionths (text : List Char) : Option Nat :=
  let whole := text.takeWhile (· != '.')
  let fraction := (text.dropWhile (· != '.')).drop 1
  if whole ≠ [] ∧ fraction.length = 6 then do
    let n ← readDigits decimalDigit 10 whole
    let k ← readDigits decimalDigit 10 fraction
    pure (n * 10 ^ 6 + k)
  else none

/-- The millionths of a decimal numeral with exactly six fractional digits, behind an optional
sign. -/
def readMillionths (text : List Char) : Option Int :=
  if text.head? = some '-' then
    (readUnsignedMillionths text.tail).map fun n : Nat => -(n : Int)
  else
    (readUnsignedMillionths text).map fun n : Nat => (n : Int)

/-- A padded number with an optional sign. -/
def readPadded (text : List Char) : Option Int :=
  if text.head? = some '-' then (readDigits decimalDigit 10 text.tail).map fun n : Nat => -(n : Int)
  else (readDigits decimalDigit 10 text).map fun n : Nat => (n : Int)

/-- The digits of a padded number. -/
def paddedDigits (k n : Nat) : List Char := List.replicate k '0' ++ Nat.toDigits 10 n

/-- `%ld`. -/
theorem toList_toString_int (v : Int) :
    (toString v).toList = signChars v ++ paddedDigits 0 v.natAbs := by
  unfold signChars paddedDigits
  rw [Int.toString_eq_repr, Int.repr_eq_if, List.replicate_zero, List.nil_append]
  by_cases hv : v < 0
  · have habs : (-v).toNat = v.natAbs := by omega
    rw [if_neg (by omega), if_pos hv, String.toList_append, Nat.toList_repr, habs]
    rfl
  · have habs : v.toNat = v.natAbs := by omega
    rw [if_pos (by omega), if_neg hv, Nat.toList_repr, habs, List.nil_append]

/-- `%06lld`. -/
theorem toList_printSix (v : Int) :
    ∃ k, (printZero 6 v).toList = signChars v ++ paddedDigits k v.natAbs ∧
      (0 ≤ v → v.natAbs < 10 ^ 6 → (paddedDigits k v.natAbs).length = 6) ∧
      (v.natAbs < 10 ^ 6 → (paddedDigits k v.natAbs).length ≤ 6) := by
  refine ⟨_, toList_printZero 6 v, ?_, ?_⟩
  · intro hnonneg hv
    have hsign : signChars v = [] := if_neg (Int.not_lt.mpr hnonneg)
    have hdigits := (Nat.length_toDigits_le_iff (b := 10) (by decide) (by decide)).mpr hv
    rw [hsign, paddedDigits, List.length_append, List.length_replicate, List.length_nil]
    omega
  · intro hv
    have hdigits := (Nat.length_toDigits_le_iff (b := 10) (by decide) (by decide)).mpr hv
    rw [paddedDigits, List.length_append, List.length_replicate]
    omega

theorem isDigit_of_mem_paddedDigits {k n : Nat} {c : Char} (hc : c ∈ paddedDigits k n) :
    c.isDigit = true := by
  rcases List.mem_append.mp hc with hc | hc
  · rw [(List.mem_replicate.mp hc).2]
    rfl
  · exact Nat.isDigit_of_mem_toDigits (by decide) (by decide) hc

theorem head?_paddedDigits (k n : Nat) (rest : List Char) :
    (paddedDigits k n ++ rest).head? ≠ some '-' := by
  intro h
  have hne : paddedDigits k n ≠ [] := by
    intro hnil
    exact Nat.toDigits_ne_nil (List.append_eq_nil_iff.mp hnil).2
  rw [List.head?_append_of_ne_nil _ hne] at h
  exact absurd (isDigit_of_mem_paddedDigits (List.mem_of_head? h)) (by decide)

theorem read_paddedDigits (k n : Nat) :
    readDigits decimalDigit 10 (paddedDigits k n) = some n := by
  have hzero : decimalDigit '0' = some 0 := rfl
  unfold paddedDigits
  rw [readDigits_padded hzero, readDecimal_toDigits]

/-- What follows the sign decides the number. -/
theorem readPadded_signChars (v : Int) (k : Nat) :
    readPadded (signChars v ++ paddedDigits k v.natAbs) = some v := by
  unfold signChars readPadded
  by_cases hv : v < 0
  · rw [if_pos hv, List.singleton_append, List.head?_cons, if_pos rfl, List.tail_cons,
      read_paddedDigits, Option.map_some]
    congr 1
    omega
  · have hhead := head?_paddedDigits k v.natAbs []
    rw [List.append_nil] at hhead
    rw [if_neg hv, List.nil_append, if_neg hhead, read_paddedDigits, Option.map_some]
    congr 1
    omega

theorem readMillionths_signChars (v : Int) (n : Nat) (fraction : List Char) :
    readMillionths (signChars v ++ (paddedDigits 0 n ++ '.' :: fraction)) =
      (readUnsignedMillionths (paddedDigits 0 n ++ '.' :: fraction)).map fun n : Nat =>
        if v < 0 then -(n : Int) else n := by
  unfold signChars readMillionths
  by_cases hv : v < 0
  · rw [if_pos hv, List.singleton_append, List.head?_cons, if_pos rfl, List.tail_cons]
    simp only [if_pos hv]
  · rw [if_neg hv, List.nil_append, if_neg (head?_paddedDigits 0 n _)]
    simp only [if_neg hv]

theorem bne_point_of_mem {k n : Nat} {c : Char} (hc : c ∈ paddedDigits k n) : (c != '.') = true := by
  have hdigit := isDigit_of_mem_paddedDigits hc
  rw [bne_iff_ne]
  rintro rfl
  exact absurd hdigit (by decide)

theorem takeWhile_point (k n : Nat) (fraction : List Char) :
    (paddedDigits k n ++ '.' :: fraction).takeWhile (· != '.') = paddedDigits k n := by
  rw [List.takeWhile_append_of_pos fun c hc => bne_point_of_mem hc, List.takeWhile_cons_of_neg,
    List.append_nil]
  decide

theorem dropWhile_point (k n : Nat) (fraction : List Char) :
    (paddedDigits k n ++ '.' :: fraction).dropWhile (· != '.') = '.' :: fraction := by
  rw [List.dropWhile_append_of_pos fun c hc => bne_point_of_mem hc, List.dropWhile_cons_of_neg]
  decide

theorem readUnsignedMillionths_eq (n : Nat) (fraction : List Char) :
    readUnsignedMillionths (paddedDigits 0 n ++ '.' :: fraction) =
      if fraction.length = 6 then
        (readDigits decimalDigit 10 fraction).map (n * 10 ^ 6 + ·)
      else none := by
  have hne : paddedDigits 0 n ≠ [] := Nat.toDigits_ne_nil
  unfold readUnsignedMillionths
  dsimp only
  rw [takeWhile_point, dropWhile_point, List.drop_one, List.tail_cons, read_paddedDigits]
  by_cases hsix : fraction.length = 6
  · rw [if_pos hsix, if_pos ⟨hne, hsix⟩]
    cases readDigits decimalDigit 10 fraction with
    | none => rfl
    | some k => rfl
  · rw [if_neg hsix, if_neg fun h => hsix h.2]

/-! ## The text of a timestamp -/

namespace Timestamp

variable {t u : Timestamp}

/-- The whole seconds of a timestamp are those of its microseconds. -/
theorem seconds_eq (t : Timestamp) : t.timeSinceEpochSeconds =
    t.timeSinceEpochMicroSeconds.tdiv kMicroSecondsPerSecond := by
  have hnonneg : ∀ d : Int, 0 ≤ d →
      d.tdiv (1000 * 1000 * 1000) = (d.tdiv 1000).tdiv (1000 * 1000) := by
    intro d hd
    rw [Int.tdiv_eq_ediv_of_nonneg hd, Int.tdiv_eq_ediv_of_nonneg hd,
      Int.tdiv_eq_ediv_of_nonneg (by omega)]
    omega
  show t.timeSinceEpoch.tdiv (1000 * 1000 * 1000) =
    (t.timeSinceEpoch.tdiv 1000).tdiv (1000 * 1000)
  rcases Int.le_total 0 t.timeSinceEpoch with hd | hd
  · exact hnonneg _ hd
  · have hneg := hnonneg (-t.timeSinceEpoch) (by omega)
    rw [Int.neg_tdiv, Int.neg_tdiv, Int.neg_tdiv] at hneg
    omega

/-- The microseconds `ToString` prints behind the point. -/
def fraction (t : Timestamp) : Int := t.timeSinceEpochMicroSeconds.tmod kMicroSecondsPerSecond

/-- Both parts of the text by the number of microseconds. -/
theorem parts (t : Timestamp) :
    t.timeSinceEpochSeconds.natAbs = t.timeSinceEpochMicroSeconds.natAbs / 10 ^ 6 ∧
      t.fraction.natAbs = t.timeSinceEpochMicroSeconds.natAbs % 10 ^ 6 ∧
      (t.timeSinceEpochSeconds < 0 ↔ t.timeSinceEpochMicroSeconds ≤ -10 ^ 6) ∧
      (t.fraction < 0 ↔ t.timeSinceEpochMicroSeconds < 0 ∧
        ¬ kMicroSecondsPerSecond ∣ t.timeSinceEpochMicroSeconds) := by
  rw [seconds_eq]
  unfold fraction kMicroSecondsPerSecond
  generalize t.timeSinceEpochMicroSeconds = m
  rcases Int.le_total 0 m with hm | hm
  · rw [Int.tdiv_eq_ediv_of_nonneg hm, Int.tmod_eq_emod_of_nonneg hm]
    omega
  · obtain ⟨n, rfl⟩ : ∃ n, m = -n := ⟨-m, by omega⟩
    rw [Int.neg_tdiv, Int.neg_tmod, Int.tdiv_eq_ediv_of_nonneg (by omega),
      Int.tmod_eq_emod_of_nonneg (by omega)]
    omega

theorem length_signChars_le (v : Int) : (signChars v).length ≤ 1 := by
  unfold signChars
  split
  · exact Nat.le_refl 1
  · exact Nat.zero_le 1

/-- **The text of a timestamp**: its seconds and its fraction, nothing of them cut off. -/
theorem toList_toString (d : Int64) :
    ∃ k, (ofDuration d).toString.toList =
        signChars (ofDuration d).timeSinceEpochSeconds ++
          (paddedDigits 0 (ofDuration d).timeSinceEpochSeconds.natAbs ++
            '.' :: (signChars (ofDuration d).fraction ++
              paddedDigits k (ofDuration d).fraction.natAbs)) ∧
      (0 ≤ (ofDuration d).fraction →
        (paddedDigits k (ofDuration d).fraction.natAbs).length = 6) := by
  obtain ⟨hseconds, hfraction, -⟩ := (ofDuration d).parts
  have hmicros : (ofDuration d).timeSinceEpochMicroSeconds.natAbs ≤ 2 ^ 63 / 1000 := by
    have hlow := d.le_toInt
    have hhigh := d.toInt_lt
    show (d.toInt.tdiv 1000).natAbs ≤ 2 ^ 63 / 1000
    rw [Int.natAbs_tdiv]
    have habs : d.toInt.natAbs ≤ 2 ^ 63 := by omega
    exact Nat.div_le_div_right habs
  have hlt : (ofDuration d).fraction.natAbs < 10 ^ 6 := by
    rw [hfraction]
    exact Nat.mod_lt _ (by decide)
  have hwhole : (Nat.toDigits 10 (ofDuration d).timeSinceEpochSeconds.natAbs).length ≤ 10 := by
    rw [Nat.length_toDigits_le_iff (by decide) (by decide)]
    omega
  obtain ⟨k, hsix, hlength, hshort⟩ := toList_printSix (ofDuration d).fraction
  refine ⟨k, ?_, fun hnonneg => hlength hnonneg hlt⟩
  have hsign₁ := length_signChars_le (ofDuration d).timeSinceEpochSeconds
  have hsign₂ := length_signChars_le (ofDuration d).fraction
  have hshort := hshort hlt
  unfold Timestamp.toString
  dsimp only
  rw [String.toList_ofList, ← fraction, String.toList_append, String.toList_append, hsix,
    toList_toString_int, List.append_assoc, List.append_assoc]
  apply List.take_of_length_le
  have hpoint : (".".toList ++ (signChars (ofDuration d).fraction ++
      paddedDigits k (ofDuration d).fraction.natAbs)).length = 1 +
        ((signChars (ofDuration d).fraction).length +
          (paddedDigits k (ofDuration d).fraction.natAbs).length) := by
    rw [List.length_append, List.length_append]
    rfl
  have hdigits : (paddedDigits 0 (ofDuration d).timeSinceEpochSeconds.natAbs).length ≤ 10 := hwhole
  rw [List.length_append, List.length_append, hpoint]
  omega

/-! ## Faithful texts -/

/-- The text is a decimal numeral with six fractional digits whose value times `10^6` is the
duration in whole microseconds. -/
def Faithful (t : Timestamp) : Prop :=
  readMillionths t.toString.toList = some t.timeSinceEpochMicroSeconds

theorem faithful_iff_fraction (d : Int64) :
    (ofDuration d).Faithful ↔ 0 ≤ (ofDuration d).fraction := by
  obtain ⟨k, htext, hsix⟩ := toList_toString d
  obtain ⟨hseconds, hfraction, hwholeSign, hfractionSign⟩ := (ofDuration d).parts
  unfold Faithful
  rw [htext, readMillionths_signChars, readUnsignedMillionths_eq]
  by_cases hnonneg : 0 ≤ (ofDuration d).fraction
  · have hsign : signChars (ofDuration d).fraction = [] := if_neg (Int.not_lt.mpr hnonneg)
    rw [hsign, List.nil_append, if_pos (hsix hnonneg), read_paddedDigits, Option.map_some,
      Option.map_some]
    -- the fraction has a sign only where the whole seconds round up
    have hvalue : (if (ofDuration d).timeSinceEpochSeconds < 0 then
        -(((ofDuration d).timeSinceEpochSeconds.natAbs * 10 ^ 6 +
          (ofDuration d).fraction.natAbs : Nat) : Int)
        else (((ofDuration d).timeSinceEpochSeconds.natAbs * 10 ^ 6 +
          (ofDuration d).fraction.natAbs : Nat) : Int)) =
        (ofDuration d).timeSinceEpochMicroSeconds := by
      unfold kMicroSecondsPerSecond at hfractionSign
      split <;> omega
    exact ⟨fun _ => hnonneg, fun _ => congrArg some hvalue⟩
  · have hsign : signChars (ofDuration d).fraction = ['-'] := if_pos (Int.not_le.mp hnonneg)
    have hminus : decimalDigit '-' = none := rfl
    rw [hsign, List.singleton_append, readDigits_cons_of_none hminus, Option.map_none, ite_self,
      Option.map_none]
    exact ⟨nofun, fun h => absurd h hnonneg⟩

/-- The fraction is negative for some timestamps before the epoch. -/
theorem fraction_nonneg_iff (d : Int64) : 0 ≤ (ofDuration d).fraction ↔
    -1000 < d.toInt ∨ -d.toInt % 10 ^ 9 < 1000 := by
  obtain ⟨-, -, -, hsign⟩ := (ofDuration d).parts
  have hmicros : (ofDuration d).timeSinceEpochMicroSeconds = d.toInt.tdiv 1000 := rfl
  unfold kMicroSecondsPerSecond at hsign
  rw [hmicros] at hsign
  rcases Int.le_total 0 d.toInt with hd | hd
  · rw [Int.tdiv_eq_ediv_of_nonneg hd] at hsign
    omega
  · have hneg : d.toInt.tdiv 1000 = -((-d.toInt) / 1000) := by
      rw [← Int.tdiv_eq_ediv_of_nonneg (by omega), Int.neg_tdiv, Int.neg_neg]
    rw [hneg] at hsign
    omega

theorem bne_point_of_mem_signChars {v : Int} {c : Char} (hc : c ∈ signChars v) :
    (c != '.') = true := by
  unfold signChars at hc
  split at hc
  · rw [List.mem_singleton.mp hc]
    decide
  · exact absurd hc List.not_mem_nil

/-- What is before the first point, and what is from there on. -/
theorem split_text (v : Int) (n : Nat) (rest : List Char) :
    (signChars v ++ (paddedDigits 0 n ++ '.' :: rest)).takeWhile (· != '.') =
        signChars v ++ paddedDigits 0 n ∧
      (signChars v ++ (paddedDigits 0 n ++ '.' :: rest)).dropWhile (· != '.') = '.' :: rest := by
  constructor
  · rw [List.takeWhile_append_of_pos fun c hc => bne_point_of_mem_signChars hc, takeWhile_point]
  · rw [List.dropWhile_append_of_pos fun c hc => bne_point_of_mem_signChars hc, dropWhile_point]

/-- **Equal texts mean equal microseconds**, also where the text is not a numeral. -/
theorem toString_eq_iff (d e : Int64) : (ofDuration d).toString = (ofDuration e).toString ↔
    (ofDuration d).timeSinceEpochMicroSeconds = (ofDuration e).timeSinceEpochMicroSeconds := by
  constructor
  · intro h
    obtain ⟨k, hd, -⟩ := toList_toString d
    obtain ⟨j, he, -⟩ := toList_toString e
    rw [h] at hd
    have hsame := hd.symm.trans he
    have hbefore := congrArg (List.takeWhile (· != '.')) hsame
    have hafter := congrArg (List.dropWhile (· != '.')) hsame
    rw [(split_text _ _ _).1, (split_text _ _ _).1] at hbefore
    rw [(split_text _ _ _).2, (split_text _ _ _).2] at hafter
    -- both parts are read back
    have hseconds := congrArg readPadded hbefore
    have hfraction := congrArg readPadded (List.cons.inj hafter).2
    rw [readPadded_signChars, readPadded_signChars] at hseconds hfraction
    rw [← Int.tdiv_mul_add_tmod (ofDuration d).timeSinceEpochMicroSeconds kMicroSecondsPerSecond,
      ← Int.tdiv_mul_add_tmod (ofDuration e).timeSinceEpochMicroSeconds kMicroSecondsPerSecond,
      ← seconds_eq, ← seconds_eq, ← fraction, ← fraction, Option.some.inj hseconds,
      Option.some.inj hfraction]
  · intro h
    unfold Timestamp.toString
    rw [seconds_eq, seconds_eq, h]

/-- **When the text is faithful.** It is exactly for the durations after -1 µs and those that lie
less than a microsecond before a whole second; two texts are equal exactly when the timestamps agree
to the microsecond. -/
theorem toString_faithful_iff (d : Int64) :
    ((ofDuration d).Faithful ↔ -1000 < d.toInt ∨ -d.toInt % 10 ^ 9 < 1000) ∧
      ∀ e, (ofDuration d).toString = (ofDuration e).toString ↔
        (ofDuration d).timeSinceEpochMicroSeconds = (ofDuration e).timeSinceEpochMicroSeconds :=
  ⟨(faithful_iff_fraction d).trans (fraction_nonneg_iff d), toString_eq_iff d⟩

/-- One and a half seconds before the epoch. -/
theorem toString_not_faithful :
    (ofDuration (-1500000000)).toString = "-1.-500000" ∧
      (ofDuration (-1500000000)).timeSinceEpochMicroSeconds = -1500000 ∧
      readMillionths "-1.-500000".toList = none ∧ ¬ (ofDuration (-1500000000)).Faithful := by
  refine ⟨by decide, by decide, by decide, ?_⟩
  intro h
  unfold Faithful at h
  exact absurd h (by decide)

end Timestamp

end TurboNet.Base
