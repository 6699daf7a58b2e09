/-
# TurboNet.Lib.Segmented — a sequence of records kept in segments.

Records are pushed to the last segment; turning the page starts a new one.  Whatever the pattern of
pages, the records read segment by segment are the records in the order in which they were pushed.
Segments under keys that never come down may be read key by key.
-/
import Mathlib.Data.List.Basic

namespace TurboNet.Lib

/-- The closed segments, oldest first, and the current one. -/
structure Segmented (α : Type*) where
  closed : List (List α)
  current : List α

namespace Segmented

variable {α : Type*} (p : Segmented α)

/-- One empty segment. -/
def empty : Segmented α := ⟨[], []⟩

def push (r : α) : Segmented α := { p with current := p.current ++ [r] }

def turn : Segmented α := { closed := p.closed ++ [p.current], current := [] }

def segments : List (List α) := p.closed ++ [p.current]

def records : List α := p.segments.flatten

@[simp] theorem records_empty : (empty : Segmented α).records = [] := rfl

/-- A push adds one record, to the last segment. -/
theorem records_push (r : α) : (p.push r).records = p.records ++ [r] := by
  simp only [records, segments, push, List.flatten_append, List.flatten_cons, List.flatten_nil,
    List.append_nil, List.append_assoc]

/-- Turning the page moves no record. -/
theorem records_turn : p.turn.records = p.records := by
  simp only [records, segments, turn, List.flatten_append, List.flatten_cons, List.flatten_nil,
    List.append_nil]

end Segmented

/-- Records that are images fall into segments as what they are images of. -/
theorem exists_flatten_map {α β : Type*} {f : α → β} {segments : List (List β)} {xs : List α}
    (h : segments.flatten = xs.map f) :
    ∃ groups : List (List α), groups.flatten = xs ∧ segments = groups.map (List.map f) := by
  induction segments generalizing xs with
  | nil =>
    obtain rfl : xs = [] := List.map_eq_nil_iff.mp h.symm
    exact ⟨[], rfl, rfl⟩
  | cons segment segments ih =>
    obtain ⟨group, rest, rfl, hgroup, hrest⟩ := List.map_eq_append_iff.mp h.symm
    obtain ⟨groups, rfl, rfl⟩ := ih hrest.symm
    exact ⟨group :: groups, rfl, by rw [List.map_cons, hgroup]⟩

/-! ## Groups -/

variable {α κ : Type*}

/-- What comes first in a list and the rest, if nothing of the rest comes before it. -/
theorem filter_append_filter_not {p : α → Bool} {xs : List α}
    (h : xs.Pairwise fun x y => p y = true → p x = true) :
    xs.filter p ++ xs.filter (fun x => !p x) = xs := by
  induction xs with
  | nil => rfl
  | cons x xs ih =>
    obtain ⟨hx, hxs⟩ := List.pairwise_cons.mp h
    by_cases hp : p x = true
    · rw [List.filter_cons_of_pos hp, List.filter_cons_of_neg (by simp [hp]), List.cons_append,
        ih hxs]
    · have hnone : xs.filter p = [] := by
        rw [List.filter_eq_nil_iff]
        exact fun y hy hpy => hp (hx y hy hpy)
      rw [List.filter_cons_of_neg hp, List.filter_cons_of_pos (by simp [hp]), hnone,
        List.nil_append, ← ih hxs, hnone, List.nil_append, List.filter_filter]
      simp

/-- **Groups.** Where keys never come down along a list, its groups in the order of their keys are
the list. -/
theorem flatMap_groups [DecidableEq κ] {r : κ → κ → Prop} [Std.Irrefl r] {key : α → κ}
    {keys : List κ} {xs : List α} (hxs : xs.Pairwise fun x y => ¬ r (key y) (key x))
    (hkeys : keys.Pairwise r) (hmem : ∀ x ∈ xs, key x ∈ keys) :
    keys.flatMap (fun k => xs.filter fun x => key x = k) = xs := by
  induction keys generalizing xs with
  | nil =>
    have hnone : xs = [] := List.eq_nil_iff_forall_not_mem.mpr fun x hx =>
      List.not_mem_nil (hmem x hx)
    rw [hnone]
    rfl
  | cons k keys ih =>
    obtain ⟨hk, hkeys⟩ := List.pairwise_cons.mp hkeys
    have hfirst : xs.Pairwise fun x y => decide (key y = k) = true → decide (key x = k) = true := by
      refine hxs.imp_of_mem fun {x y} hx _ hxy hy => ?_
      rw [decide_eq_true_eq] at hy ⊢
      rcases List.mem_cons.mp (hmem x hx) with hsame | hlater
      · exact hsame
      · exact absurd (hy ▸ hk _ hlater) hxy
    have hrest : keys.flatMap (fun m => xs.filter fun x => key x = m) =
        xs.filter fun x => !decide (key x = k) := by
      rw [← ih (hxs.filter _) hkeys]
      · refine List.flatMap_congr fun m hm => ?_
        rw [List.filter_filter]
        refine List.filter_congr fun x _ => ?_
        have hne : m ≠ k := by
          rintro rfl
          exact Std.Irrefl.irrefl m (hk m hm)
        by_cases hx : key x = m
        · simp [hx, hne]
        · simp [hx]
      · intro x hx
        obtain ⟨hx, hne⟩ := List.mem_filter.mp hx
        rcases List.mem_cons.mp (hmem x hx) with hsame | hlater
        · simp [hsame] at hne
        · exact hlater
    rw [List.flatMap_cons, hrest, filter_append_filter_not hfirst]

end TurboNet.Lib
