/-
# TurboNet.Lib.Fields — texts between literals.

A format is a list of fields: a literal that separates, a text of a fixed width, or a text up to a stop
symbol.  `Written fs ts rest xs` says that `xs` is the texts `ts` in the format `fs` and then `rest`;
`scan` takes the texts out again.  It finds them exactly where they were written (`scan_iff`), so that
there is one way only to read what was written.
-/
import Mathlib.Data.List.TakeWhile

namespace TurboNet.Lib

variable {α : Type*}

/-- A field of a format. -/
inductive FormatField (α : Type*) where
  | literal (text : List α)
  | fixed (width : Nat)
  /-- A text without the symbol, which must follow it. -/
  | upTo (stop : α)
  deriving Repr

/-- `xs` is `ts` in the format, followed by `rest`. -/
inductive Written : List (FormatField α) → (ts : List (List α)) → (rest xs : List α) → Prop
  | nil (rest : List α) : Written [] [] rest rest
  | literal {fs : List (FormatField α)} {ts : List (List α)} {rest xs : List α} (text : List α)
      (h : Written fs ts rest xs) : Written (.literal text :: fs) ts rest (text ++ xs)
  | fixed {fs : List (FormatField α)} {ts : List (List α)} {rest xs t : List α}
      (h : Written fs ts rest xs) : Written (.fixed t.length :: fs) (t :: ts) rest (t ++ xs)
  | upTo {fs : List (FormatField α)} {ts : List (List α)} {rest xs t : List α} {stop : α}
      (hstop : stop ∉ t) (hnext : xs.head? = some stop) (h : Written fs ts rest xs) :
      Written (.upTo stop :: fs) (t :: ts) rest (t ++ xs)

variable [DecidableEq α]

/-- The texts and what follows them. -/
def scan : List (FormatField α) → List α → Option (List (List α) × List α)
  | [], xs => some ([], xs)
  | .literal text :: fs, xs =>
    if text <+: xs then scan fs (xs.drop text.length) else none
  | .fixed width :: fs, xs =>
    if width ≤ xs.length then
      (scan fs (xs.drop width)).map fun found => (xs.take width :: found.1, found.2)
    else none
  | .upTo stop :: fs, xs =>
    if stop ∈ xs then
      (scan fs (xs.dropWhile (· ≠ stop))).map fun found =>
        (xs.takeWhile (· ≠ stop) :: found.1, found.2)
    else none

variable {fs : List (FormatField α)} {ts : List (List α)} {rest xs t : List α} {stop : α}

omit [DecidableEq α] in
theorem mem_of_head?_eq_some (h : xs.head? = some stop) : stop ∈ xs := by
  cases xs with
  | nil => cases h
  | cons x xs =>
    obtain rfl : x = stop := Option.some.inj h
    exact List.mem_cons_self

/-- The text in front of its stop symbol. -/
theorem takeWhile_stop (hstop : stop ∉ t) (hnext : xs.head? = some stop) :
    (t ++ xs).takeWhile (· ≠ stop) = t := by
  have hinside : ∀ a ∈ t, decide (a ≠ stop) = true := by
    intro a ha
    refine decide_eq_true ?_
    rintro rfl
    exact hstop ha
  rw [List.takeWhile_append_of_pos hinside]
  cases xs with
  | nil => cases hnext
  | cons x xs =>
    obtain rfl : x = stop := Option.some.inj hnext
    rw [List.takeWhile_cons_of_neg (by simp), List.append_nil]

theorem dropWhile_stop (hstop : stop ∉ t) (hnext : xs.head? = some stop) :
    (t ++ xs).dropWhile (· ≠ stop) = xs := by
  have hsplit := List.takeWhile_append_dropWhile (p := fun a => decide (a ≠ stop)) (l := t ++ xs)
  rw [takeWhile_stop hstop hnext] at hsplit
  exact List.append_cancel_left hsplit

/-- What is in front of the first stop symbol, and that it is followed by it. -/
theorem upTo_split (h : stop ∈ xs) :
    stop ∉ xs.takeWhile (· ≠ stop) ∧ (xs.dropWhile (· ≠ stop)).head? = some stop := by
  constructor
  · intro hmem
    have hne := List.mem_takeWhile_imp hmem
    simp at hne
  · induction xs with
    | nil => cases h
    | cons x xs ih =>
      by_cases hx : x = stop
      · rw [hx, List.dropWhile_cons_of_neg (by simp)]
        rfl
      · rw [List.dropWhile_cons_of_pos (by simpa using hx)]
        exact ih ((List.mem_cons.mp h).resolve_left fun heq => hx heq.symm)

/-- What was written is read. -/
theorem Written.scan (h : Written fs ts rest xs) : scan fs xs = some (ts, rest) := by
  induction h with
  | nil rest => rfl
  | literal text h ih =>
    rw [TurboNet.Lib.scan, if_pos (List.prefix_append _ _), List.drop_left, ih]
  | @fixed fs ts rest xs t h ih =>
    rw [TurboNet.Lib.scan, if_pos (by rw [List.length_append]; omega), List.drop_left, ih,
      List.take_left]
    rfl
  | @upTo fs ts rest xs t stop hstop hnext h ih =>
    have hmem : stop ∈ t ++ xs := List.mem_append_right t (mem_of_head?_eq_some hnext)
    rw [TurboNet.Lib.scan, if_pos hmem, dropWhile_stop hstop hnext, ih, takeWhile_stop hstop hnext]
    rfl

/-- **Reading and writing.** -/
theorem scan_iff : scan fs xs = some (ts, rest) ↔ Written fs ts rest xs := by
  refine ⟨fun h => ?_, Written.scan⟩
  induction fs generalizing ts xs with
  | nil =>
    obtain ⟨rfl, rfl⟩ := Prod.mk.inj (Option.some.inj h)
    exact .nil xs
  | cons f fs ih =>
    cases f with
    | literal text =>
      rw [scan] at h
      split at h
      · rename_i hliteral
        obtain ⟨xs, rfl⟩ := hliteral
        rw [List.drop_left] at h
        exact .literal text (ih h)
      · cases h
    | fixed width =>
      rw [scan] at h
      split at h
      · rename_i hwidth
        obtain ⟨⟨found, left⟩, hfound, heq⟩ := Option.map_eq_some_iff.mp h
        obtain ⟨rfl, rfl⟩ := Prod.mk.inj heq
        have hwritten := Written.fixed (t := xs.take width) (ih hfound)
        rwa [List.take_append_drop, List.length_take, Nat.min_eq_left hwidth] at hwritten
      · cases h
    | upTo stop =>
      rw [scan] at h
      split at h
      · rename_i hmem
        obtain ⟨⟨found, left⟩, hfound, heq⟩ := Option.map_eq_some_iff.mp h
        obtain ⟨rfl, rfl⟩ := Prod.mk.inj heq
        obtain ⟨hstop, hnext⟩ := upTo_split hmem
        have hwritten := Written.upTo hstop hnext (ih hfound)
        rwa [List.takeWhile_append_dropWhile] at hwritten
      · cases h

end TurboNet.Lib
