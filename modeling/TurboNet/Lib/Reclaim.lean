/-
# TurboNet.Lib.Reclaim — reclaiming nodes by names that are used again.

Nodes stand in a list in the order in which they were made.  A node that is done retires; who
reclaims it is only told its *name*, and a name may be given to a new node once its bearer is done.
The reclaimer takes the first node of that name.

`Reclaim name nodes gone n` is the discipline under which that is right: `gone` lists the retired
nodes, of which the first `n` are reclaimed, and a name is given away only when the nodes that bore
it have retired.  Then the first node of the name of the next entry of `gone` is that entry
(`first_match`), and what is left of `gone` are exactly the retired nodes of the list
(`perm_retired`).
-/
import Mathlib.Data.List.Nodup
import Mathlib.Order.Lattice

namespace TurboNet.Lib

variable {α ι : Type*}

/-- The nodes in the list, the retired ones in the order of their retirement, and how many of these
are reclaimed. -/
structure Reclaim [LinearOrder α] (name : α → ι) (nodes gone : List α) (n : Nat) : Prop where
  sorted : nodes.Pairwise (· < ·)
  kept : ∀ k ∈ gone, k ∈ nodes ↔ k ∉ gone.take n
  nodup : gone.Nodup
  inOrder : gone.Pairwise fun j k => name j = name k → j < k
  older : ∀ j k, k ∈ gone → j < k → name j = name k → j ∈ gone

theorem getElem?_not_mem_take {gone : List α} (hnodup : gone.Nodup) {n : Nat} {k : α}
    (hk : gone[n]? = some k) : k ∉ gone.take n := by
  obtain ⟨hn, rfl⟩ := List.getElem?_eq_some_iff.mp hk
  intro hmem
  obtain ⟨i, hi, heq⟩ := List.mem_take_iff_getElem.mp hmem
  have hsame := (List.Nodup.getElem_inj_iff hnodup).mp heq
  omega

theorem take_succ_of_getElem? {gone : List α} {n : Nat} {k : α} (hk : gone[n]? = some k) :
    gone.take (n + 1) = gone.take n ++ [k] := by
  rw [List.take_add_one, hk]
  rfl

namespace Reclaim

variable [LinearOrder α] {name : α → ι} {nodes gone : List α} {n : Nat} {k : α}

/-- The next one to be reclaimed is still in the list. -/
theorem next_mem (h : Reclaim name nodes gone n) (hk : gone[n]? = some k) : k ∈ nodes :=
  (h.kept k (List.mem_of_getElem? hk)).mpr (getElem?_not_mem_take h.nodup hk)

/-- **The first node of the name is the one that retired first.** -/
theorem first_match (h : Reclaim name nodes gone n) (hk : gone[n]? = some k) {before after : List α}
    {j : α} (hsplit : nodes = before ++ j :: after) (hname : name j = name k)
    (hfirst : ∀ i ∈ before, name i ≠ name k) : j = k := by
  have hmem := h.next_mem hk
  have hsorted := h.sorted
  rw [hsplit] at hmem hsorted
  -- `k` is not before `j` in the list, so `j` is not younger than `k`
  rcases List.mem_append.mp hmem with hbefore | hafter
  · exact absurd rfl (hfirst k hbefore)
  · rcases List.mem_cons.mp hafter with rfl | hafter
    · rfl
    · exfalso
      have hlt : j < k := (List.pairwise_cons.mp (List.pairwise_append.mp hsorted).2.1).1 k hafter
      have hgone := h.older j k (List.mem_of_getElem? hk) hlt hname
      -- `j` has retired and is not reclaimed, so it retired after `k`
      have hleft : j ∉ gone.take n := (h.kept j hgone).mp (by rw [hsplit]; simp)
      obtain ⟨i, hi, rfl⟩ := List.getElem_of_mem hgone
      obtain ⟨hn, rfl⟩ := List.getElem?_eq_some_iff.mp hk
      have hni : n ≤ i := by
        by_contra hlt
        exact hleft (List.mem_take_iff_getElem.mpr ⟨i, by omega, rfl⟩)
      rcases Nat.lt_or_eq_of_le hni with hni | rfl
      · exact lt_asymm hlt (List.pairwise_iff_getElem.mp h.inOrder n i hn hi hni hname.symm)
      · exact lt_irrefl _ hlt

/-- The next one is reclaimed. -/
theorem erase (h : Reclaim name nodes gone n) (hk : gone[n]? = some k) :
    Reclaim name (nodes.erase k) gone (n + 1) where
  sorted := h.sorted.sublist List.erase_sublist
  kept := fun j hj => by
    have hnodup : nodes.Nodup := h.sorted.imp ne_of_lt
    rw [hnodup.mem_erase_iff, h.kept j hj, take_succ_of_getElem? hk]
    simp [and_comm]
  nodup := h.nodup
  inOrder := h.inOrder
  older := h.older

/-- A node is made. -/
theorem append (h : Reclaim name nodes gone n) (hyoungest : ∀ j ∈ nodes, j < k)
    (hnew : k ∉ gone) : Reclaim name (nodes ++ [k]) gone n where
  sorted := List.pairwise_append.mpr ⟨h.sorted, List.pairwise_singleton _ _, fun j hj i hi => by
    rw [List.mem_singleton.mp hi]
    exact hyoungest j hj⟩
  kept := fun j hj => by
    have hne : j ≠ k := fun heq => hnew (heq ▸ hj)
    rw [← h.kept j hj]
    simp [hne]
  nodup := h.nodup
  inOrder := h.inOrder
  older := h.older

/-- The node `k` of the list retires. -/
theorem retire (h : Reclaim name nodes gone n) (hn : n ≤ gone.length) (hk : k ∈ nodes)
    (hnew : k ∉ gone) (hdone : ∀ j ∈ gone, name j = name k → j < k)
    (holder : ∀ j, j < k → name j = name k → j ∈ gone) : Reclaim name nodes (gone ++ [k]) n where
  sorted := h.sorted
  kept := fun j hj => by
    rw [List.take_append_of_le_length hn]
    rcases List.mem_append.mp hj with hj | hj
    · exact h.kept j hj
    · rw [List.mem_singleton.mp hj]
      exact iff_of_true hk fun hmem => hnew (List.mem_of_mem_take hmem)
  nodup := by
    rw [List.nodup_append]
    refine ⟨h.nodup, List.nodup_singleton k, fun j hj i hi => ?_⟩
    rw [List.mem_singleton.mp hi]
    exact fun heq => hnew (heq ▸ hj)
  inOrder := List.pairwise_append.mpr ⟨h.inOrder, List.pairwise_singleton _ _, fun j hj i hi => by
    rw [List.mem_singleton.mp hi]
    exact hdone j hj⟩
  older := fun j i hi hlt hname => by
    rcases List.mem_append.mp hi with hi | hi
    · exact List.mem_append_left _ (h.older j i hi hlt hname)
    · rw [List.mem_singleton.mp hi] at hlt hname
      exact List.mem_append_left _ (holder j hlt hname)

/-- A node gets its name, and has not retired. -/
theorem rename {name' : α → ι} (h : Reclaim name nodes gone n)
    (hsame : ∀ j k, k ∈ gone → j < k → name' j = name j) (hgone : ∀ k ∈ gone, name' k = name k) :
    Reclaim name' nodes gone n where
  sorted := h.sorted
  kept := h.kept
  nodup := h.nodup
  inOrder := by
    apply h.inOrder.imp_of_mem
    intro j k hj hk hlt hname
    rw [hgone j hj, hgone k hk] at hname
    exact hlt hname
  older := fun j k hk hlt hname => by
    rw [hsame j k hk hlt, hgone k hk] at hname
    exact h.older j k hk hlt hname

/-- **What is not reclaimed are the retired nodes of the list.** -/
theorem perm_retired (h : Reclaim name nodes gone n) :
    (nodes.filter (· ∈ gone)).Perm (gone.drop n) := by
  have hnodes : nodes.Nodup := h.sorted.imp ne_of_lt
  rw [List.perm_ext_iff_of_nodup (hnodes.filter _) (h.nodup.sublist (List.drop_sublist n gone))]
  intro k
  rw [List.mem_filter, decide_eq_true_eq]
  have hsplit : k ∈ gone ↔ k ∈ gone.take n ∨ k ∈ gone.drop n := by
    rw [← List.mem_append, List.take_append_drop]
  constructor
  · rintro ⟨hk, hgone⟩
    rcases hsplit.mp hgone with htake | hdrop
    · exact absurd htake ((h.kept k hgone).mp hk)
    · exact hdrop
  · intro hdrop
    have hgone := List.mem_of_mem_drop hdrop
    refine ⟨(h.kept k hgone).mpr fun htake => ?_, hgone⟩
    have hdisjoint : (gone.take n ++ gone.drop n).Nodup := by
      rw [List.take_append_drop]
      exact h.nodup
    exact List.disjoint_of_nodup_append hdisjoint htake hdrop

end Reclaim

end TurboNet.Lib
