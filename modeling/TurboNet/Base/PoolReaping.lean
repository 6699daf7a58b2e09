/-
# TurboNet.Base.PoolReaping — the monitor reaps the workers that have retired.

A worker that leaves by the exit of idle workers writes its id to `monitor_thread_free_`; the monitor
takes the first thread of that id from `thread_pool_`, joins it and erases both.  `Retirement` says
who has retired and that an older bearer of the id of a worker that waits has; `Reaping` is then the
discipline of `TurboNet.Lib.Reclaim`, so the monitor selects the worker that wrote the id.
-/
import TurboNet.Lib.Reclaim
import TurboNet.Base.PoolThreads

namespace TurboNet.Base

open TurboNet.Lib
open TurboNet.Logger (Build Halt)

variable {cfg : Config} {B : Build} {env : Env} {s s' : System}

/-! ## Who has retired -/

/-- Has the worker left its loop for good? -/
def Life.out : Life → Bool
  | .handed | .leaving | .ended => true
  | _ => false

/-- The retired workers have left their loop.  In a running pool they are all that have, and a
worker that waits, or has retired, has no older thread of its id that did not retire. -/
structure Retirement (s : System) : Prop where
  gone : ∀ k ∈ s.roster.retired, ∃ l, (s.placeOf (.worker k)).life = some l ∧ l.out = true
  handed : ∀ k, (s.placeOf (.worker k)).life = some .handed → k ∈ s.roster.retired
  left : s.board.status = .running → ∀ k,
    (s.placeOf (.worker k)).life = some .leaving ∨ (s.placeOf (.worker k)).life = some .ended →
      k ∈ s.roster.retired
  older : ∀ j k, j < k → s.roster.tid j = s.roster.tid k → 0 < s.roster.tid k →
    (k ∈ s.roster.retired ∨ (s.placeOf (.worker k)).life = some .waiting) → j ∈ s.roster.retired

theorem retirement_init : Retirement System.init where
  gone := fun k hk => by cases hk
  handed := fun k hk => by simp [System.init, System.placeOf, Place.life] at hk
  left := fun _ k hk => by simp [System.init, System.placeOf, Place.life] at hk
  older := fun j k _ _ hk => by simp [System.init, System.roster] at hk

/-- A worker retires when it hands its id over. -/
theorem RosterCase.retired_cases (h : RosterCase s s') : s'.roster.retired = s.roster.retired ∨
    ∃ k, s'.roster.retired = s.roster.retired ++ [k] ∧
      s.placeOf (.worker k) = .worker .handOver ∧ s'.placeOf (.worker k) = .worker .retireUnlock := by
  cases h with
  | handOver hr _ hbefore hafter => exact .inr ⟨_, hr.retired, hbefore, hafter⟩
  | same hr => exact .inl hr.retired
  | build hr => exact .inl hr.retired
  | start hr => exact .inl hr.retired
  | join hr => exact .inl hr.retired
  | miss hr => exact .inl hr.retired
  | erase hr => exact .inl hr.retired
  | next hr => exact .inl hr.retired
  | joinOwner hr => exact .inl hr.retired

theorem RosterCase.retired_kept (h : RosterCase s s') {k : Nat} (hk : k ∈ s.roster.retired) :
    k ∈ s'.roster.retired := by
  rcases h.retired_cases with hsame | ⟨j, hnew, -, -⟩
  · rw [hsame]
    exact hk
  · rw [hnew]
    exact List.mem_append_left _ hk

/-- Nobody comes back. -/
theorem LifeView.out {j : Nat} (h : LifeView s s' j) {l : Life}
    (hl : (s.placeOf (.worker j)).life = some l) (hout : l.out = true) :
    ∃ l', (s'.placeOf (.worker j)).life = some l' ∧ l'.out = true := by
  cases h with
  | same hsame => exact ⟨l, hsame.trans hl, hout⟩
  | passes _ hafter => exact ⟨_, hafter, rfl⟩
  | ends _ hafter => exact ⟨_, hafter, rfl⟩
  | retires _ hafter => exact ⟨_, hafter, rfl⟩
  | quits _ hafter => exact ⟨_, hafter, rfl⟩
  | built hbefore =>
    rw [hl] at hbefore
    cases hbefore
  | born hbefore =>
    rw [hl] at hbefore
    cases hbefore
    cases hout
  | parks hbefore =>
    rw [hl] at hbefore
    cases hbefore
    cases hout
  | resumes hbefore =>
    rw [hl] at hbefore
    cases hbefore
    cases hout

theorem gone_turn (hr : Retirement s) {act : Act} (h : Turn cfg s s' act) {k : Nat}
    (hk : k ∈ s'.roster.retired) :
    ∃ l, (s'.placeOf (.worker k)).life = some l ∧ l.out = true := by
  have hold (hk : k ∈ s.roster.retired) :
      ∃ l, (s'.placeOf (.worker k)).life = some l ∧ l.out = true := by
    obtain ⟨l, hl, hout⟩ := hr.gone k hk
    exact (life_view h k).out hl hout
  rcases (roster_cases h).retired_cases with hsame | ⟨j, hnew, -, hafter⟩
  · exact hold (hsame ▸ hk)
  · rw [hnew, List.mem_append, List.mem_singleton] at hk
    rcases hk with hk | rfl
    · exact hold hk
    · exact ⟨.handed, by rw [hafter]; rfl, rfl⟩

theorem handed_turn (hr : Retirement s) {act : Act} (h : Turn cfg s s' act) {k : Nat}
    (hk : (s'.placeOf (.worker k)).life = some .handed) : k ∈ s'.roster.retired := by
  cases life_view h k with
  | same hsame => exact (roster_cases h).retired_kept (hr.handed k (hsame.symm.trans hk))
  | retires _ _ hretired =>
    rw [hretired]
    exact List.mem_append_right _ (List.mem_singleton_self k)
  | quits _ hafter =>
    rw [hk] at hafter
    cases hafter
  | _ _ hafter =>
    rw [hk] at hafter
    cases hafter

theorem left_turn (hst : Staffed cfg s) (hr : Retirement s) {act : Act} (h : Turn cfg s s' act)
    (hrunning : s'.board.status = .running) {k : Nat}
    (hk : (s'.placeOf (.worker k)).life = some .leaving ∨
      (s'.placeOf (.worker k)).life = some .ended) : k ∈ s'.roster.retired := by
  have hrunning := status_running h hrunning
  have hcase := roster_cases h
  -- any other life than these two is not that of `k` afterwards
  have hnot {l : Life} (hafter : (s'.placeOf (.worker k)).life = some l)
      (hl : l ≠ .leaving ∧ l ≠ .ended) : k ∈ s'.roster.retired := by
    rw [hafter] at hk
    rcases hk with hk | hk
    · exact absurd (Option.some.inj hk) hl.1
    · exact absurd (Option.some.inj hk) hl.2
  cases life_view h k with
  | same hsame =>
    rw [hsame] at hk
    exact hcase.retired_kept (hr.left hrunning k hk)
  | passes hbefore => exact hcase.retired_kept (hr.handed k hbefore)
  | quits hbefore => exact absurd hrunning (hst.quitting k _ hbefore rfl)
  | ends hbefore => exact hcase.retired_kept (hr.left hrunning k (.inl hbefore))
  | built _ hafter => exact hnot hafter (by simp)
  | born _ hafter => exact hnot hafter (by simp)
  | parks _ hafter => exact hnot hafter (by simp)
  | resumes _ hafter => exact hnot hafter (by simp)
  | retires _ hafter => exact hnot hafter (by simp)

/-- No id changes of a worker that has started, nor of one before it. -/
theorem tid_kept_of_started (ht : Threads s) (h : RosterCase s s') {j k : Nat} {l : Life}
    (hk : (s.placeOf (.worker k)).life = some l) (hl : l ≠ .unborn) (hjk : j ≤ k) :
    s'.roster.tid j = s.roster.tid j := by
  rcases Nat.eq_or_lt_of_le hjk with rfl | hjk
  · exact tid_kept_of_life h (by rw [hk]; simpa using hl)
  · apply tid_kept h
    intro hj
    have hlast := ht.fresh j .counted hj rfl
    have hplaced : ∃ x, s.placeOf (.worker k) = .worker x := by
      cases hx : s.placeOf (.worker k) with
      | worker x => exact ⟨x, rfl⟩
      | _ =>
        rw [hx] at hk
        cases hk
    have hbuilt := System.built_iff.mpr hplaced
    omega

theorem older_turn (ht : Threads s) (hr : Retirement s) {act : Act} (h : Turn cfg s s' act)
    {j k : Nat} (hjk : j < k) (hsame : s'.roster.tid j = s'.roster.tid k)
    (hpos : 0 < s'.roster.tid k)
    (hk : k ∈ s'.roster.retired ∨ (s'.placeOf (.worker k)).life = some .waiting) :
    j ∈ s'.roster.retired := by
  have hcase := roster_cases h
  -- the ids of both are those of before
  have hids {l : Life} (hl : (s.placeOf (.worker k)).life = some l) (hstarted : l ≠ .unborn) :
      s.roster.tid j = s.roster.tid k ∧ 0 < s.roster.tid k := by
    rw [← tid_kept_of_started ht hcase hl hstarted (Nat.le_of_lt hjk),
      ← tid_kept_of_started ht hcase hl hstarted (Nat.le_refl k)]
    exact ⟨hsame, hpos⟩
  have hretired (hk : k ∈ s.roster.retired) : j ∈ s'.roster.retired := by
    obtain ⟨l, hl, hout⟩ := hr.gone k hk
    obtain ⟨htid, htid0⟩ := hids hl (by rintro rfl; cases hout)
    exact hcase.retired_kept (hr.older j k hjk htid htid0 (.inl hk))
  have hwaiting (hk : (s.placeOf (.worker k)).life = some .waiting) : j ∈ s'.roster.retired := by
    obtain ⟨htid, htid0⟩ := hids hk (by simp)
    exact hcase.retired_kept (hr.older j k hjk htid htid0 (.inr hk))
  rcases hk with hk | hk
  · rcases hcase.retired_cases with hkept | ⟨i, hnew, hbefore, -⟩
    · exact hretired (hkept ▸ hk)
    · rw [hnew, List.mem_append, List.mem_singleton] at hk
      rcases hk with hk | rfl
      · exact hretired hk
      · exact hwaiting (by rw [hbefore]; rfl)
  · cases life_view h k with
    | same hlife => exact hwaiting (hlife.symm.trans hk)
    | parks hbefore _ hrunning =>
      -- an older thread of this id has ended, which in a running pool is by retiring
      obtain ⟨htid, htid0⟩ := hids hbefore (by simp)
      exact hcase.retired_kept (hr.left hrunning j (.inr (ht.ids j k hjk htid htid0)))
    | quits _ hafter =>
      rw [hk] at hafter
      cases hafter
    | _ _ hafter =>
      rw [hk] at hafter
      cases hafter

theorem retirement_turn (hst : Staffed cfg s) (ht : Threads s) (hr : Retirement s) {act : Act}
    (h : Turn cfg s s' act) : Retirement s' where
  gone := fun _ => gone_turn hr h
  handed := fun _ => handed_turn hr h
  left := fun hrunning _ => left_turn hst hr h hrunning
  older := fun _ _ => older_turn ht hr h

/-! ## What the monitor has reaped -/

/-- The threads out of `thread_pool_`, when the monitor has erased `n` ids from
`monitor_thread_free_`: it erases the thread first. -/
def System.erased (s : System) (n : Nat) : Nat :=
  if s.monitor = .unlockPool then n + 1 else n

/-- The first `n` retired workers are reaped: `thread_pool_` lacks these, and
`monitor_thread_free_` has the ids of the others. -/
structure Reaping (s : System) (n : Nat) : Prop where
  owed : s.roster.free = (s.roster.retired.drop n).map s.roster.tid
  order : Reclaim s.roster.tid s.roster.threadPool s.roster.retired (s.erased n)
  listed : ∀ k < s.roster.built, k ∉ s.roster.retired.take (s.erased n) → k ∈ s.roster.threadPool
  ended : ∀ k ∈ s.roster.retired.take (s.erased n), (s.placeOf (.worker k)).life = some .ended
  joining : ∀ k, s.monitor = .joining k → s.roster.retired[n]? = some k
  bound : s.erased n ≤ s.roster.retired.length

theorem reaping_init : Reaping System.init 0 where
  owed := rfl
  order := ⟨List.Pairwise.nil, fun k hk => (by cases hk), List.nodup_nil, List.Pairwise.nil,
    fun j k hk => (by cases hk)⟩
  listed := fun k hk => by cases hk
  ended := fun k hk => by cases hk
  joining := fun k hk => by cases hk
  bound := Nat.le_refl 0

theorem System.erased_of_ne {n : Nat} (h : s.monitor ≠ .unlockPool) : s.erased n = n := if_neg h

theorem System.erased_of_eq {n : Nat} (h : s.monitor = .unlockPool) : s.erased n = n + 1 := if_pos h

theorem Calm.erased (h : Calm s s') (n : Nat) : s'.erased n = s.erased n := by
  unfold System.erased
  rcases h with h | ⟨h, h'⟩
  · rw [h]
  · rw [if_neg, if_neg]
    · rintro hm
      rw [hm] at h
      cases h
    · rintro hm
      rw [hm] at h'
      cases h'

/-- A calm step leaves the monitor at its `Join`, if it is there. -/
theorem Calm.joining (h : Calm s s') {k : Nat} (hk : s'.monitor = .joining k) :
    s.monitor = .joining k := by
  rcases h with h | ⟨-, h'⟩
  · rw [← h]
    exact hk
  · rw [hk] at h'
    cases h'

theorem Retirement.built (hr : Retirement s) {k : Nat} (hk : k ∈ s.roster.retired) :
    k < s.roster.built := by
  obtain ⟨l, hl, -⟩ := hr.gone k hk
  apply System.built_iff.mpr
  cases hx : s.placeOf (.worker k) with
  | worker x => exact ⟨x, rfl⟩
  | _ =>
    rw [hx] at hl
    cases hl

/-- The ids of the retired workers stay what they are. -/
theorem Retirement.tid_kept (hr : Retirement s) (h : RosterCase s s') {k : Nat}
    (hk : k ∈ s.roster.retired) : s'.roster.tid k = s.roster.tid k := by
  apply tid_kept_of_life h
  obtain ⟨l, hl, hout⟩ := hr.gone k hk
  rw [hl]
  rintro ⟨⟩
  cases hout

theorem Retirement.owed_kept (hr : Retirement s) (h : RosterCase s s') (n : Nat) :
    (s.roster.retired.drop n).map s'.roster.tid = (s.roster.retired.drop n).map s.roster.tid :=
  List.map_congr_left fun _ hk => hr.tid_kept h (List.mem_of_mem_drop hk)

/-- What has ended has ended. -/
theorem over_kept {act : Act} (h : Turn cfg s s' act) {ks : List Nat}
    (hover : ∀ k ∈ ks, (s.placeOf (.worker k)).life = some .ended) (k : Nat) (hk : k ∈ ks) :
    (s'.placeOf (.worker k)).life = some .ended :=
  (life_view h k).ended (hover k hk)

/-- A step that leaves the lists as they are. -/
theorem Reaping.lists {n : Nat} (hg : Reaping s n) {act : Act} (h : Turn cfg s s' act)
    {joined : Nat → Bool} (hr : SameThreads s'.roster { s.roster with joined })
    (herased : s'.erased n = s.erased n)
    (hjoining : ∀ k, s'.monitor = .joining k → s.roster.retired[n]? = some k) : Reaping s' n := by
  have hbuilt : s'.roster.built = s.roster.built := hr.built
  have hpool : s'.roster.threadPool = s.roster.threadPool := hr.threadPool
  have hretired : s'.roster.retired = s.roster.retired := hr.retired
  have htid : s'.roster.tid = s.roster.tid := hr.tid
  have hfree : s'.roster.free = s.roster.free := hr.free
  constructor
  · rw [hfree, hretired, htid, hg.owed]
  · rw [htid, hpool, hretired, herased]
    exact hg.order
  · rw [hbuilt, hpool, hretired, herased]
    exact hg.listed
  · rw [hretired, herased]
    exact over_kept h hg.ended
  · rw [hretired]
    exact hjoining
  · rw [hretired, herased]
    exact hg.bound

/-- A step that leaves the lists as they are, and the monitor's reclamation too. -/
theorem Reaping.congr {n : Nat} (hg : Reaping s n) {act : Act} (h : Turn cfg s s' act)
    {joined : Nat → Bool} (hr : SameThreads s'.roster { s.roster with joined })
    (hcalm : Calm s s') : Reaping s' n :=
  hg.lists h hr (hcalm.erased n) fun k hk => hg.joining k (hcalm.joining hk)

/-- A thread is built. -/
theorem Reaping.build {n : Nat} (ht : Threads s) (hret : Retirement s) (hg : Reaping s n) {act : Act}
    (h : Turn cfg s s' act) (hr : SameThreads s'.roster { s.roster with
      built := s.roster.built + 1, threadPool := s.roster.threadPool ++ [s.roster.built] })
    (hcalm : Calm s s') : Reaping s' n := by
  have hbuilt : s'.roster.built = s.roster.built + 1 := hr.built
  have hpool : s'.roster.threadPool = s.roster.threadPool ++ [s.roster.built] := hr.threadPool
  have hretired : s'.roster.retired = s.roster.retired := hr.retired
  have htid : s'.roster.tid = s.roster.tid := hr.tid
  have hfree : s'.roster.free = s.roster.free := hr.free
  constructor
  · rw [hfree, hretired, htid, hg.owed]
  · rw [htid, hpool, hretired, hcalm.erased]
    exact hg.order.append ht.bound fun hmem => lt_irrefl _ (hret.built hmem)
  · rw [hbuilt, hpool, hretired, hcalm.erased]
    intro k hk hleft
    rw [List.mem_append, List.mem_singleton]
    rcases Nat.lt_succ_iff_lt_or_eq.mp hk with hk | hk
    · exact .inl (hg.listed k hk hleft)
    · exact .inr hk
  · rw [hretired, hcalm.erased]
    exact over_kept h hg.ended
  · intro k hk
    rw [hretired]
    exact hg.joining k (hcalm.joining hk)
  · rw [hretired, hcalm.erased]
    exact hg.bound

/-- A thread is started, and given an id. -/
theorem Reaping.start {n : Nat} (ht : Threads s) (hret : Retirement s) (hg : Reaping s n) {act : Act}
    (h : Turn cfg s s' act) {i tid : Nat} (hr : SameThreads s'.roster { s.roster with
      tid := Function.update s.roster.tid i tid
      started := Function.update s.roster.started i true })
    (hcalm : Calm s s') : Reaping s' n := by
  have hcase := roster_cases h
  have hbuilt : s'.roster.built = s.roster.built := hr.built
  have hpool : s'.roster.threadPool = s.roster.threadPool := hr.threadPool
  have hretired : s'.roster.retired = s.roster.retired := hr.retired
  have hfree : s'.roster.free = s.roster.free := hr.free
  constructor
  · rw [hfree, hretired, hret.owed_kept hcase, hg.owed]
  · rw [hpool, hretired, hcalm.erased]
    apply hg.order.rename
    · intro j k hk hjk
      obtain ⟨l, hl, hout⟩ := hret.gone k hk
      exact tid_kept_of_started ht hcase hl (by rintro rfl; cases hout) (Nat.le_of_lt hjk)
    · exact fun k hk => hret.tid_kept hcase hk
  · rw [hbuilt, hpool, hretired, hcalm.erased]
    exact hg.listed
  · rw [hretired, hcalm.erased]
    exact over_kept h hg.ended
  · intro k hk
    rw [hretired]
    exact hg.joining k (hcalm.joining hk)
  · rw [hretired, hcalm.erased]
    exact hg.bound

/-- A worker hands its id over. -/
theorem Reaping.handOver {n : Nat} (ht : Threads s) (hret : Retirement s) (hg : Reaping s n)
    {act : Act} (h : Turn cfg s s' act) {i : Nat} (hr : SameThreads s'.roster { s.roster with
      free := s.roster.free ++ [s.roster.tid i], retired := s.roster.retired ++ [i] })
    (hcalm : Calm s s') (hi : s.placeOf (.worker i) = .worker .handOver) : Reaping s' n := by
  have hbuilt : s'.roster.built = s.roster.built := hr.built
  have hpool : s'.roster.threadPool = s.roster.threadPool := hr.threadPool
  have hretired : s'.roster.retired = s.roster.retired ++ [i] := hr.retired
  have htid : s'.roster.tid = s.roster.tid := hr.tid
  have hfree : s'.roster.free = s.roster.free ++ [s.roster.tid i] := hr.free
  have hlife : (s.placeOf (.worker i)).life = some .waiting := by
    rw [hi]
    rfl
  have hnew : i ∉ s.roster.retired := by
    intro hmem
    obtain ⟨l, hl, hout⟩ := hret.gone i hmem
    rw [hlife] at hl
    cases hl
    cases hout
  have hn : n ≤ s.roster.retired.length := by
    have hbound := hg.bound
    unfold System.erased at hbound
    split at hbound
    · omega
    · exact hbound
  have htake : s'.roster.retired.take (s'.erased n) = s.roster.retired.take (s.erased n) := by
    rw [hretired, hcalm.erased, List.take_append_of_le_length hg.bound]
  constructor
  · rw [hfree, hretired, htid, hg.owed, List.drop_append_of_le_length hn, List.map_append]
    rfl
  · rw [htid, hpool, hretired, hcalm.erased]
    refine hg.order.retire hg.bound ?_ hnew ?_ ?_
    · refine hg.listed i (System.built_of_place hi) fun hmem => ?_
      exact hnew (List.mem_of_mem_take hmem)
    · -- a retired worker that is younger would make this one retired
      intro j hj hname
      rcases lt_trichotomy j i with hlt | rfl | hlt
      · exact hlt
      · exact absurd hj hnew
      · obtain ⟨l, hl, hout⟩ := hret.gone j hj
        have hpos := ht.named j l hl (by rintro rfl; cases hout)
        exact absurd (hret.older i j hlt hname.symm hpos (.inl hj)) hnew
    · intro j hlt hname
      exact hret.older j i hlt hname (ht.named i _ hlife (by simp)) (.inr hlife)
  · rw [hbuilt, hpool, htake]
    exact hg.listed
  · rw [htake]
    exact over_kept h hg.ended
  · intro k hk
    have hold := hg.joining k (hcalm.joining hk)
    rw [hretired, List.getElem?_append_left (List.getElem?_eq_some_iff.mp hold).1]
    exact hold
  · rw [hretired, hcalm.erased, List.length_append]
    exact Nat.le_add_right_of_le hg.bound

/-- The next id of `monitor_thread_free_` is that of the next retired worker. -/
theorem Reaping.next_retired {n tid : Nat} {rest : List Nat} (hg : Reaping s n)
    (hfree : s.roster.free = tid :: rest) :
    ∃ k, s.roster.retired[n]? = some k ∧ s.roster.tid k = tid := by
  have howed := hg.owed
  rw [hfree] at howed
  cases hdrop : s.roster.retired.drop n with
  | nil =>
    rw [hdrop] at howed
    cases howed
  | cons k later =>
    rw [hdrop] at howed
    refine ⟨k, ?_, (List.cons.inj howed).1.symm⟩
    have hget : (s.roster.retired.drop n)[0]? = s.roster.retired[n + 0]? := List.getElem?_drop
    rw [hdrop] at hget
    exact hget.symm

/-- **`std::find_if` selects the worker that wrote the id.** -/
theorem Reaping.selects {n tid k : Nat} {rest before after : List Nat} (ht : Threads s)
    (hg : Reaping s n) (hfind : s.monitor = .find) (hfree : s.roster.free = tid :: rest)
    (hpool : s.roster.threadPool = before ++ k :: after)
    (hbefore : ∀ j ∈ before, j < s.roster.built → s.roster.tid j ≠ tid)
    (htid : s.roster.tid k = tid) : s.roster.retired[n]? = some k := by
  obtain ⟨i, hi, hown⟩ := hg.next_retired hfree
  have horder := hg.order
  rw [System.erased_of_ne (by rw [hfind]; simp)] at horder
  have hfirst : k = i := by
    refine horder.first_match hi hpool (htid.trans hown.symm) fun j hj hname => ?_
    exact hbefore j hj (ht.bound j (by rw [hpool]; simp [hj])) (hname.trans hown)
  rw [hfirst]
  exact hi

/-- The thread of the next retired worker is erased. -/
theorem Reaping.erase {n k : Nat} (hg : Reaping s n) {act : Act} (h : Turn cfg s s' act)
    (hr : SameThreads s'.roster { s.roster with threadPool := s.roster.threadPool.erase k })
    (hmonitor : s.monitor = .joining k) (hmonitor' : s'.monitor = .unlockPool)
    (hended : s.placeOf (.worker k) = .worker .ended) : Reaping s' n := by
  have hbuilt : s'.roster.built = s.roster.built := hr.built
  have hpool : s'.roster.threadPool = s.roster.threadPool.erase k := hr.threadPool
  have hretired : s'.roster.retired = s.roster.retired := hr.retired
  have htid : s'.roster.tid = s.roster.tid := hr.tid
  have hfree : s'.roster.free = s.roster.free := hr.free
  have hk := hg.joining k hmonitor
  have herased : s.erased n = n := System.erased_of_ne (by rw [hmonitor]; simp)
  have herased' : s'.erased n = n + 1 := System.erased_of_eq hmonitor'
  have horder := hg.order
  have hlisted := hg.listed
  have hover := hg.ended
  rw [herased] at horder hlisted hover
  constructor
  · rw [hfree, hretired, htid, hg.owed]
  · rw [htid, hpool, hretired, herased']
    exact horder.erase hk
  · rw [hbuilt, hpool, hretired, herased', take_succ_of_getElem? hk]
    intro j hj hleft
    rw [List.mem_append, List.mem_singleton, not_or] at hleft
    exact (List.mem_erase_of_ne hleft.2).mpr (hlisted j hj hleft.1)
  · rw [hretired, herased', take_succ_of_getElem? hk]
    intro j hj
    rw [List.mem_append, List.mem_singleton] at hj
    rcases hj with hj | rfl
    · exact over_kept h hover j hj
    · exact (life_view h j).ended (by rw [hended]; rfl)
  · intro j hj
    rw [hmonitor'] at hj
    cases hj
  · rw [hretired, herased']
    exact (List.getElem?_eq_some_iff.mp hk).1

/-- The id of the reaped worker is erased. -/
theorem Reaping.next {n : Nat} (hg : Reaping s n) {act : Act} (h : Turn cfg s s' act)
    (hr : SameThreads s'.roster { s.roster with free := s.roster.free.tail })
    (hmonitor : s.monitor = .unlockPool) (hmonitor' : s'.monitor = .reap) : Reaping s' (n + 1) := by
  have hbuilt : s'.roster.built = s.roster.built := hr.built
  have hpool : s'.roster.threadPool = s.roster.threadPool := hr.threadPool
  have hretired : s'.roster.retired = s.roster.retired := hr.retired
  have htid : s'.roster.tid = s.roster.tid := hr.tid
  have hfree : s'.roster.free = s.roster.free.tail := hr.free
  have herased : s'.erased (n + 1) = s.erased n := by
    rw [System.erased_of_ne (by rw [hmonitor']; simp), System.erased_of_eq hmonitor]
  constructor
  · rw [hfree, hretired, htid, hg.owed, ← List.map_tail, List.tail_drop]
  · rw [htid, hpool, hretired, herased]
    exact hg.order
  · rw [hbuilt, hpool, hretired, herased]
    exact hg.listed
  · rw [hretired, herased]
    exact over_kept h hg.ended
  · intro j hj
    rw [hmonitor'] at hj
    cases hj
  · rw [hretired, herased]
    exact hg.bound

/-! ## Who is joined -/

/-- The monitor has joined worker `k`, or waits for its end. -/
def System.reaped (s : System) (n k : Nat) : Prop :=
  k ∈ s.roster.retired.take (s.erased n) ∨ s.monitor = .joining k

/-- The joined threads are those the monitor has joined and those the destructor has gone past. -/
structure Joined (s : System) (n : Nat) : Prop where
  marked : ∀ k, s.reaped n k → s.roster.joined k = true
  joined : ∀ k, s.roster.joined k = true → s.reaped n k ∨ s.owner.passed k

theorem joined_init : Joined System.init 0 where
  marked := fun k hk => by
    rcases hk with hk | hk
    · cases hk
    · cases hk
  joined := fun k hk => by simp [System.init, System.roster] at hk

theorem Joined.congr {n m : Nat} (hj : Joined s n)
    (hjoined : s'.roster.joined = s.roster.joined) (hreaped : ∀ k, s'.reaped m k ↔ s.reaped n k)
    (hpassed : ∀ k, s.owner.passed k → s'.owner.passed k) : Joined s' m where
  marked := fun k hk => by
    rw [hjoined]
    exact hj.marked k ((hreaped k).mp hk)
  joined := fun k hk => by
    rw [hjoined] at hk
    exact (hj.joined k hk).imp (hreaped k).mpr (hpassed k)

/-- One more thread is joined, by the monitor or by the destructor. -/
theorem Joined.join {n i : Nat} (hj : Joined s n)
    (hjoined : s'.roster.joined = Function.update s.roster.joined i true)
    (hreaped : ∀ k, k ≠ i → (s'.reaped n k ↔ s.reaped n k))
    (hpassed : ∀ k, s.owner.passed k → s'.owner.passed k)
    (hi : s'.reaped n i ∨ s'.owner.passed i) : Joined s' n where
  marked := fun k hk => by
    rw [hjoined]
    by_cases hki : k = i
    · rw [hki]
      exact Function.update_self ..
    · rw [Function.update_of_ne hki]
      exact hj.marked k ((hreaped k hki).mp hk)
  joined := fun k hk => by
    by_cases hki : k = i
    · rw [hki]
      exact hi
    · rw [hjoined, Function.update_of_ne hki] at hk
      exact (hj.joined k hk).imp (hreaped k hki).mpr (hpassed k)

/-- A step that calms the monitor changes nothing in what it has reaped. -/
theorem Calm.reaped (h : Calm s s') {n : Nat}
    (htake : s'.roster.retired.take (s.erased n) = s.roster.retired.take (s.erased n)) (k : Nat) :
    s'.reaped n k ↔ s.reaped n k := by
  unfold System.reaped
  rw [h.erased, htake]
  refine or_congr_right ⟨h.joining, fun hk => ?_⟩
  rcases h with h | ⟨hquiet, -⟩
  · rw [h]
    exact hk
  · rw [hk] at hquiet
    cases hquiet

/-- The threads of the pool, retired, reaped and joined. -/
structure Reaped (s : System) (n : Nat) : Prop where
  reaping : Reaping s n
  joins : Joined s n

theorem reaped_turn {n : Nat} (ht : Threads s) (hret : Retirement s) (hg : Reaped s n)
    {act : Act} (h : Turn cfg s s' act) : ∃ m, Reaped s' m := by
  have hpassed (k : Nat) (hk : s.owner.passed k) : s'.owner.passed k :=
    (owner_view h).passed_kept hg.reaping.order.sorted hk
  obtain ⟨hg, hj⟩ := hg
  cases roster_cases h with
  | same hr hcalm =>
    have hretired : s'.roster.retired = s.roster.retired := hr.retired
    exact ⟨n, hg.congr h hr hcalm, hj.congr hr.joined (hcalm.reaped (by rw [hretired])) hpassed⟩
  | build hr hcalm =>
    have hretired : s'.roster.retired = s.roster.retired := hr.retired
    exact ⟨n, hg.build ht hret h hr hcalm,
      hj.congr hr.joined (hcalm.reaped (by rw [hretired])) hpassed⟩
  | start hr hcalm =>
    have hretired : s'.roster.retired = s.roster.retired := hr.retired
    exact ⟨n, hg.start ht hret h hr hcalm,
      hj.congr hr.joined (hcalm.reaped (by rw [hretired])) hpassed⟩
  | @handOver k hr hcalm hbefore =>
    have hretired : s'.roster.retired = s.roster.retired ++ [k] := hr.retired
    refine ⟨n, hg.handOver ht hret h hr hcalm hbefore, hj.congr hr.joined (hcalm.reaped ?_) hpassed⟩
    rw [hretired, List.take_append_of_le_length hg.bound]
  | @joinOwner k hr hcalm howner howner' =>
    have hretired : s'.roster.retired = s.roster.retired := hr.retired
    refine ⟨n, hg.congr h hr hcalm, hj.join hr.joined
      (fun k _ => hcalm.reaped (by rw [hretired]) k) hpassed (.inr ?_)⟩
    rw [howner']
    exact Nat.le_refl k
  | @join tid k rest before after hr hmonitor hmonitor' hfree hpool hbefore _ htid =>
    -- the lists stay, and the monitor waits for the next retired worker
    have hnext := hg.selects ht hmonitor hfree hpool hbefore htid
    have herased : s'.erased n = s.erased n := by
      rw [System.erased_of_ne (by rw [hmonitor']; simp), System.erased_of_ne (by rw [hmonitor]; simp)]
    have hretired : s'.roster.retired = s.roster.retired := hr.retired
    refine ⟨n, hg.lists h hr herased fun i hi => ?_,
      hj.join hr.joined ?_ hpassed (.inl (.inr hmonitor'))⟩
    · rw [hmonitor'] at hi
      cases hi
      exact hnext
    · intro i hi
      unfold System.reaped
      rw [hretired, herased, hmonitor, hmonitor']
      simp [Ne.symm hi]
  | miss _ hmonitor _ hfree hnone =>
    -- the bearer of the id is in the list
    obtain ⟨k, hk, htid⟩ := hg.next_retired hfree
    have horder := hg.order
    rw [System.erased_of_ne (by rw [hmonitor]; simp)] at horder
    have hmem := horder.next_mem hk
    exact absurd htid (hnone k hmem (ht.bound k hmem))
  | @erase k hr hmonitor hmonitor' hended =>
    have hretired : s'.roster.retired = s.roster.retired := hr.retired
    refine ⟨n, hg.erase h hr hmonitor hmonitor' hended, hj.congr hr.joined (fun i => ?_) hpassed⟩
    unfold System.reaped
    rw [System.erased_of_eq hmonitor', System.erased_of_ne (by rw [hmonitor]; simp), hretired,
      take_succ_of_getElem? (hg.joining k hmonitor), hmonitor, hmonitor']
    simp [eq_comm]
  | next hr hmonitor hmonitor' =>
    have hretired : s'.roster.retired = s.roster.retired := hr.retired
    refine ⟨n + 1, hg.next h hr hmonitor hmonitor', hj.congr hr.joined (fun i => ?_) hpassed⟩
    unfold System.reaped
    rw [System.erased_of_eq hmonitor, System.erased_of_ne (by rw [hmonitor']; simp), hretired,
      hmonitor, hmonitor']
    simp

end TurboNet.Base
