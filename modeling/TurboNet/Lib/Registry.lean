/-
# TurboNet.Lib.Registry — names that are given out, come back and are given out again.

An entry is a name with the number of its issue.  Who remembers a name only may speak of a later
issue of it; where every entry has one holder, each holder's name still means the issue it was given
(`HeldBy.lookup_eq`), whatever names are given out again.
-/
import Mathlib.Data.List.Nodup
import Mathlib.Data.List.Perm.Basic

namespace TurboNet.Lib

/-- The names in use, each with the number of its issue, and the number of issues so far. -/
structure Registry (κ : Type*) where
  entries : List (κ × Nat)
  issued : Nat

namespace Registry

variable {κ : Type*} {r : Registry κ} {k : κ} {n : Nat} {holders : List (κ × Nat)}

/-- No name is in use. -/
def empty : Registry κ := ⟨[], 0⟩

/-- Each entry has one holder, and no name is in use twice. -/
structure HeldBy (r : Registry κ) (holders : List (κ × Nat)) : Prop where
  names : (r.entries.map Prod.fst).Nodup
  each : r.entries.Perm holders

theorem heldBy_empty : (empty : Registry κ).HeldBy [] := ⟨List.nodup_nil, List.Perm.nil⟩

theorem HeldBy.perm {others : List (κ × Nat)} (h : r.HeldBy holders)
    (hperm : holders.Perm others) : r.HeldBy others := ⟨h.names, h.each.trans hperm⟩

variable [DecidableEq κ]

def issue (r : Registry κ) (k : κ) : Registry κ := ⟨r.entries ++ [(k, r.issued)], r.issued + 1⟩

def release (r : Registry κ) (k : κ) : Registry κ :=
  { r with entries := r.entries.filter fun entry => entry.1 ≠ k }

/-- The issue that a name means. -/
def lookup (r : Registry κ) (k : κ) : Option Nat :=
  (r.entries.find? fun entry => entry.1 = k).map Prod.snd

theorem lookup_eq_none_iff : r.lookup k = none ↔ ∀ entry ∈ r.entries, entry.1 ≠ k := by
  rw [lookup, Option.map_eq_none_iff, List.find?_eq_none]
  simp

namespace HeldBy

/-- **A holder's name means its own issue.** -/
theorem lookup_eq (h : r.HeldBy holders) (hmem : (k, n) ∈ holders) : r.lookup k = some n := by
  have hentry := h.each.mem_iff.mpr hmem
  cases hlookup : r.lookup k with
  | none => exact absurd rfl (lookup_eq_none_iff.mp hlookup _ hentry)
  | some m =>
    obtain ⟨entry, hfind, rfl⟩ := Option.map_eq_some_iff.mp hlookup
    have hsame : entry.1 = k := by simpa using List.find?_some hfind
    have hone : entry = (k, n) :=
      List.inj_on_of_nodup_map h.names (List.mem_of_find?_eq_some hfind) hentry hsame
    rw [hone]

/-- A new issue of a name that is not in use. -/
theorem issue (h : r.HeldBy holders) (hfree : r.lookup k = none) :
    (r.issue k).HeldBy ((k, r.issued) :: holders) := by
  have hnew : k ∉ r.entries.map Prod.fst := by
    intro hk
    obtain ⟨entry, hentry, hsame⟩ := List.mem_map.mp hk
    exact lookup_eq_none_iff.mp hfree entry hentry hsame
  refine ⟨?_, ?_⟩
  · rw [Registry.issue, List.map_append]
    exact List.Nodup.append h.names (List.nodup_singleton k) (by simpa using hnew)
  · exact (List.perm_append_singleton _ _).trans (h.each.cons _)

/-- What a holder gives back is its own issue. -/
theorem release (h : r.HeldBy ((k, n) :: holders)) : (r.release k).HeldBy holders := by
  have hnames : ((k, n) :: holders).map Prod.fst |>.Nodup := (h.each.map Prod.fst).nodup_iff.mp h.names
  have hothers : ∀ entry ∈ holders, entry.1 ≠ k := by
    intro entry hentry hsame
    have hmem : entry.1 ∈ holders.map Prod.fst := List.mem_map_of_mem hentry
    exact (List.nodup_cons.mp hnames).1 (hsame ▸ hmem)
  refine ⟨h.names.sublist (List.Sublist.map _ List.filter_sublist), ?_⟩
  have hkept : ((k, n) :: holders).filter (fun entry => entry.1 ≠ k) = holders := by
    rw [List.filter_cons_of_neg (by simp), List.filter_eq_self]
    exact fun entry hentry => decide_eq_true (hothers entry hentry)
  have hfilter := h.each.filter fun entry => entry.1 ≠ k
  rwa [hkept] at hfilter

end HeldBy

end Registry

end TurboNet.Lib
