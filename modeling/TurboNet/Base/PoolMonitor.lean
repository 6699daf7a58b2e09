/-
# TurboNet.Base.PoolMonitor — what the monitor does to a pool.

The results of `PoolReaping` about runs: as long as no destructor runs, the ids the monitor is owed
are those of the retired workers it has not joined, `std::find_if` selects one of these, and each is
joined and erased once.
-/
import TurboNet.Base.PoolReaping
import TurboNet.Base.PoolWakeups

namespace TurboNet.Base

open TurboNet.Lib
open TurboNet.Logger (Build Halt)

variable {cfg : Config} {B : Build} {env : Env} {s s' : System}

/-! ## The invariant of the threads -/

/-- What a step does to the monitor. -/
inductive MonitorCase (s s' : System) (act : Act) : Prop
  | beside (h : Beside s.monitor s'.monitor)
  | turn {x y : MonitorPlace} (hx : s.monitor = x) (hy : s'.monitor = y)
      (hstir : MonitorStir s x y s.roster s'.roster)
      (hact : (∃ env, act = .move .monitor env ∧ x ≠ .ended) ∨ x = .parked ∧ y = .woken)
      (howner : s'.owner = s.owner)

theorem Turn.monitor_case {act : Act} (h : Turn cfg s s' act) : MonitorCase s s' act := by
  have hsame (hmonitor : s'.monitor = s.monitor) : MonitorCase s s' act :=
    .beside (by rw [hmonitor]; exact .still)
  cases h with
  | monitor hmove _ hstir hact =>
    exact .turn (Place.monitor.inj hmove.before) (Place.monitor.inj hmove.after) hstir hact
      (hmove.owner_kept (by simp) (by simp))
  | worker hmove => exact .beside (hmove.beside (by simp))
  | call hmove => exact .beside (hmove.beside (by simp))
  | notify hmove => exact .beside (hmove.beside (by simp))
  | notifyNone hmove => exact .beside (hmove.beside (by simp))
  | owner hmove => exact .beside (hmove.beside (by simp))
  | commit _ hmove => exact .beside (hmove.beside (by simp))
  | grow hp hmove =>
    refine .beside (hmove.beside ?_)
    rcases hp with rfl | ⟨c, rfl⟩
    · simp
    · simp
  | notifyAll _ _ _ _ hmonitor => exact hsame (Place.monitor.inj hmonitor)
  | shutDown hplaces => exact hsame (Place.monitor.inj (congrFun hplaces .monitor))
  | still hplaces => exact hsame (Place.monitor.inj (congrFun hplaces .monitor))

/-- The monitor is at work for an id of the list only. -/
def Pending (s : System) : Prop := s.monitor.reaping = true → s.roster.free ≠ []

theorem pending_turn (hp : Pending s) {act : Act} (h : Turn cfg s s' act) : Pending s' := by
  intro hreaping
  have hfree : s.roster.free ≠ [] := by
    cases h.monitor_case with
    | beside hb =>
      apply hp
      generalize s.monitor = x at hb
      generalize s'.monitor = y at hb hreaping
      cases hb with
      | still => exact hreaping
      | created => cases hreaping
      | notified => cases hreaping
    | turn hx hy hstir =>
      rw [hy] at hreaping
      have hold := hp
      unfold Pending at hold
      rw [hx] at hold
      generalize s.roster = r at hstir hold ⊢
      generalize s'.roster = r' at hstir
      cases hstir with
      | quiet _ hquiet =>
        rw [hquiet] at hreaping
        cases hreaping
      | enter hfree => exact hfree
      | look => exact hold rfl
      | miss => exact hold rfl
      | join => exact hold rfl
      | erase => exact hold rfl
      | next => cases hreaping
  have hkept (hsame : s'.roster.free = s.roster.free) : s'.roster.free ≠ [] := by
    rw [hsame]
    exact hfree
  cases roster_cases h with
  | same hr => exact hkept hr.free
  | build hr => exact hkept hr.free
  | start hr => exact hkept hr.free
  | join hr => exact hkept hr.free
  | miss hr => exact hkept hr.free
  | erase hr => exact hkept hr.free
  | joinOwner hr => exact hkept hr.free
  | @handOver k hr =>
    have hnew : s'.roster.free = s.roster.free ++ [s.roster.tid k] := hr.free
    rw [hnew]
    simp
  | next _ _ hmonitor' =>
    rw [hmonitor'] at hreaping
    cases hreaping

/-- What holds of the threads in every state of a pool. -/
structure ThreadsInv (cfg : Config) (s : System) : Prop where
  pool : PoolInv cfg s
  staffed : Staffed cfg s
  threads : Threads s
  retirement : Retirement s
  reaped : ∃ n, Reaped s n
  pending : Pending s

theorem threadsInv_init : ThreadsInv cfg System.init where
  pool := poolInv_init
  staffed := staffed_init
  threads := threads_init
  retirement := retirement_init
  reaped := ⟨0, reaping_init, joined_init⟩
  pending := fun h => by cases h

theorem threadsInv_step {act : Act} (hs : ThreadsInv cfg s)
    (h : (poolRuns cfg B).step s act = some s') : ThreadsInv cfg s' := by
  have hturn := step_turn hs.pool.order.frames h
  obtain ⟨n, hreaped⟩ := hs.reaped
  exact {
    pool := poolInv_step hs.pool h
    staffed := staffed_turn hs.pool.order hs.pool.counts hs.staffed hturn
    threads := threads_turn hs.pool.order hs.threads hturn
    retirement := retirement_turn hs.staffed hs.threads hs.retirement hturn
    reaped := reaped_turn hs.threads hs.retirement hreaped hturn
    pending := pending_turn hs.pending hturn }

theorem threadsInv_run {acts : List Act} (h : (poolRuns cfg B).exec System.init acts = some s) :
    ThreadsInv cfg s :=
  StepSystem.exec_invariant (fun _ _ _ => threadsInv_step) threadsInv_init h

/-! ## Joined once and erased once -/

/-- The step in which the monitor calls `Join` on thread `k`. -/
def JoinsThread (k : Nat) (s s' : System) : Prop := s.monitor = .find ∧ s'.monitor = .joining k

/-- The step in which thread `k` leaves `thread_pool_`. -/
def ErasesThread (k : Nat) (s s' : System) : Prop :=
  k ∈ s.pool.threadPool ∧ k ∉ s'.pool.threadPool

instance (k : Nat) (s s' : System) : Decidable (JoinsThread k s s') :=
  inferInstanceAs (Decidable (_ ∧ _))

instance (k : Nat) (s s' : System) : Decidable (ErasesThread k s s') :=
  inferInstanceAs (Decidable (_ ∧ _))

/-- Thread `k` is out of the list. -/
def System.isErased (s : System) (k : Nat) : Prop := k < s.roster.built ∧ k ∉ s.roster.threadPool

instance (k : Nat) : Decidable (s.isErased k) := inferInstanceAs (Decidable (_ ∧ _))

/-- The monitor has called `Join` on thread `k`. -/
def System.isReaped (s : System) (k : Nat) : Prop := s.isErased k ∨ s.monitor = .joining k

instance (k : Nat) : Decidable (s.isReaped k) := inferInstanceAs (Decidable (_ ∨ _))

theorem Reaping.isErased_iff {n : Nat} (hret : Retirement s) (hg : Reaping s n) (k : Nat) :
    s.isErased k ↔ k ∈ s.roster.retired.take (s.erased n) := by
  constructor
  · rintro ⟨hbuilt, hout⟩
    by_contra hleft
    exact hout (hg.listed k hbuilt hleft)
  · intro hk
    have hretired := List.mem_of_mem_take hk
    exact ⟨hret.built hretired, fun hmem => (hg.order.kept k hretired).mp hmem hk⟩

/-- A thread is erased after it was built, and does not come back. -/
theorem erased_turn (ht : Threads s) {act : Act} (h : Turn cfg s s' act) (k : Nat) :
    s'.isErased k ↔ s.isErased k ∨ ErasesThread k s s' := by
  unfold System.isErased ErasesThread
  rcases (roster_cases h).list_cases with
    ⟨hbuilt, hpool⟩ | ⟨hbuilt, hpool, -⟩ | ⟨i, hbuilt, hpool, -⟩
  · have hpool' : s'.pool.threadPool = s.pool.threadPool := hpool
    rw [hbuilt, hpool, hpool']
    tauto
  · have hpool' : s'.pool.threadPool = s.pool.threadPool ++ [s.roster.built] := hpool
    rw [hbuilt, hpool, hpool', List.mem_append, List.mem_append, List.mem_singleton]
    constructor
    · rintro ⟨hlt, hout⟩
      rw [not_or] at hout
      exact .inl ⟨by omega, hout.1⟩
    · rintro (⟨hlt, hout⟩ | ⟨hmem, hout⟩)
      · exact ⟨by omega, by rintro (hmem | rfl); exacts [hout hmem, lt_irrefl _ hlt]⟩
      · exact absurd (.inl hmem) hout
  · have hpool' : s'.pool.threadPool = s.pool.threadPool.erase i := hpool
    rw [hbuilt, hpool, hpool']
    constructor
    · rintro ⟨hlt, hout⟩
      by_cases hmem : k ∈ s.pool.threadPool
      · exact .inr ⟨hmem, hout⟩
      · exact .inl ⟨hlt, hmem⟩
    · rintro (⟨hlt, hout⟩ | ⟨hmem, hout⟩)
      · exact ⟨hlt, fun hmem => hout (List.mem_of_mem_erase hmem)⟩
      · exact ⟨ht.bound k hmem, hout⟩

/-- Only the monitor erases a thread, the one it has joined. -/
theorem ErasesThread.joining {act : Act} (h : Turn cfg s s' act) {k : Nat}
    (he : ErasesThread k s s') : s.monitor = .joining k := by
  obtain ⟨hmem, hout⟩ := he
  rcases (roster_cases h).list_cases with ⟨-, hpool⟩ | ⟨-, hpool, -⟩ | ⟨i, -, hpool, hmonitor⟩
  · have hpool' : s'.pool.threadPool = s.pool.threadPool := hpool
    exact absurd (hpool' ▸ hmem) hout
  · have hpool' : s'.pool.threadPool = s.pool.threadPool ++ [s.roster.built] := hpool
    exact absurd (hpool' ▸ List.mem_append_left _ hmem) hout
  · have hpool' : s'.pool.threadPool = s.pool.threadPool.erase i := hpool
    by_cases hki : k = i
    · rw [hki]
      exact hmonitor
    · rw [hpool'] at hout
      exact absurd ((List.mem_erase_of_ne hki).mpr hmem) hout

/-- Where the monitor waits for a thread's end, before and after a step. -/
theorem joining_turn (hs : ThreadsInv cfg s) {act : Act} (h : Turn cfg s s' act) (k : Nat) :
    (s'.monitor = .joining k → s.monitor = .joining k ∨ JoinsThread k s s') ∧
      (s.monitor = .joining k → s'.monitor = .joining k ∨ s'.isErased k) := by
  obtain ⟨n, hreaped⟩ := hs.reaped
  have hcalm (hcalm : Calm s s') :
      (s'.monitor = .joining k → s.monitor = .joining k ∨ JoinsThread k s s') ∧
        (s.monitor = .joining k → s'.monitor = .joining k ∨ s'.isErased k) := by
    refine ⟨fun hk => .inl (hcalm.joining hk), fun hk => .inl ?_⟩
    rcases hcalm with hsame | ⟨hquiet, -⟩
    · rw [hsame]
      exact hk
    · rw [hk] at hquiet
      cases hquiet
  cases roster_cases h with
  | same _ h => exact hcalm h
  | build _ h => exact hcalm h
  | start _ h => exact hcalm h
  | handOver _ h => exact hcalm h
  | joinOwner _ h => exact hcalm h
  | join _ hmonitor =>
    refine ⟨fun hk => .inr ⟨hmonitor, hk⟩, fun hk => ?_⟩
    rw [hmonitor] at hk
    cases hk
  | miss _ hmonitor hmonitor' =>
    constructor
    · intro hk
      rw [hmonitor'] at hk
      cases hk
    · intro hk
      rw [hmonitor] at hk
      cases hk
  | @erase i hr hmonitor hmonitor' hended =>
    constructor
    · intro hk
      rw [hmonitor'] at hk
      cases hk
    · intro hk
      rw [hmonitor] at hk
      obtain rfl : i = k := MonitorPlace.joining.inj hk
      have hbuilt : s'.roster.built = s.roster.built := hr.built
      have hpool : s'.roster.threadPool = s.roster.threadPool.erase i := hr.threadPool
      have hnodup : s.roster.threadPool.Nodup := hreaped.reaping.order.sorted.imp Nat.ne_of_lt
      right
      unfold System.isErased
      rw [hbuilt, hpool]
      exact ⟨System.built_of_place hended, hnodup.not_mem_erase⟩
  | next _ hmonitor hmonitor' =>
    constructor
    · intro hk
      rw [hmonitor'] at hk
      cases hk
    · intro hk
      rw [hmonitor] at hk
      cases hk

theorem isReaped_turn (hs : ThreadsInv cfg s) {act : Act} (h : Turn cfg s s' act) (k : Nat) :
    s'.isReaped k ↔ s.isReaped k ∨ JoinsThread k s s' := by
  have herased := erased_turn hs.threads h k
  obtain ⟨hafter, hbefore⟩ := joining_turn hs h k
  constructor
  · rintro (hk | hk)
    · rcases herased.mp hk with hk | hk
      · exact .inl (.inl hk)
      · exact .inl (.inr (hk.joining h))
    · exact (hafter hk).imp_left .inr
  · rintro ((hk | hk) | hk)
    · exact .inl (herased.mpr (.inl hk))
    · exact (hbefore hk).symm
    · exact .inr hk.2

/-- The thread the monitor calls `Join` on is in the list. -/
theorem JoinsThread.not_isReaped {act : Act} (h : Turn cfg s s' act) {k : Nat}
    (hj : JoinsThread k s s') : ¬ s.isReaped k := by
  obtain ⟨hfind, hjoining⟩ := hj
  rintro (⟨-, hout⟩ | hk)
  · have hquiet (hcalm : Calm s s') : False := by
      have hold := hcalm.joining hjoining
      rw [hfind] at hold
      cases hold
    cases roster_cases h with
    | @join _ i _ before after _ _ hmonitor' _ hpool =>
      rw [hjoining] at hmonitor'
      cases hmonitor'
      rw [hpool] at hout
      exact hout (by simp)
    | same _ h => exact hquiet h
    | build _ h => exact hquiet h
    | start _ h => exact hquiet h
    | handOver _ h => exact hquiet h
    | joinOwner _ h => exact hquiet h
    | miss _ _ hmonitor' =>
      rw [hjoining] at hmonitor'
      cases hmonitor'
    | erase _ hmonitor =>
      rw [hfind] at hmonitor
      cases hmonitor
    | next _ hmonitor =>
      rw [hfind] at hmonitor
      cases hmonitor
  · rw [hfind] at hk
    cases hk

/-- What happens once is counted once. -/
theorem indicator_add {p q p' : Prop} [Decidable p] [Decidable q] [Decidable p']
    (h : p' ↔ p ∨ q) (hnot : q → ¬ p) :
    (if p' then 1 else 0) = (if p then 1 else 0) + if q then 1 else 0 := by
  by_cases hp : p
  · rw [if_pos (h.mpr (.inl hp)), if_pos hp, if_neg fun hq => hnot hq hp]
  · by_cases hq : q
    · rw [if_pos (h.mpr (.inr hq)), if_neg hp, if_pos hq]
    · rw [if_neg (not_or.mpr ⟨hp, hq⟩ ∘ h.mp), if_neg hp, if_neg hq]

/-- How often the monitor called `Join` on thread `k` in a run. -/
def joinsOf (cfg : Config) (B : Build) (acts : List Act) (k : Nat) : Nat :=
  (poolRuns cfg B).tally (JoinsThread k) System.init acts

/-- How often thread `k` was erased in a run. -/
def erasuresOf (cfg : Config) (B : Build) (acts : List Act) (k : Nat) : Nat :=
  (poolRuns cfg B).tally (ErasesThread k) System.init acts

theorem joinsOf_eq {acts : List Act} (h : (poolRuns cfg B).exec System.init acts = some s) (k : Nat) :
    joinsOf cfg B acts k = if s.isReaped k then 1 else 0 := by
  have hcount := (StepSystem.exec_tally (p := JoinsThread k) (I := ThreadsInv cfg)
    (f := fun s => if s.isReaped k then 1 else 0) (fun _ _ _ => threadsInv_step)
    (fun t act t' ht hstep => by
      have hturn := step_turn ht.pool.order.frames hstep
      exact indicator_add (isReaped_turn ht hturn k) fun hj => hj.not_isReaped hturn)
    threadsInv_init h).symm
  have hinit : ¬ System.init.isReaped k := by
    rintro (⟨hbuilt, -⟩ | hk)
    · cases hbuilt
    · cases hk
  rw [if_neg hinit, Nat.zero_add] at hcount
  exact hcount

theorem erasuresOf_eq {acts : List Act} (h : (poolRuns cfg B).exec System.init acts = some s)
    (k : Nat) : erasuresOf cfg B acts k = if s.isErased k then 1 else 0 := by
  have hcount := (StepSystem.exec_tally (p := ErasesThread k) (I := ThreadsInv cfg)
    (f := fun s => if s.isErased k then 1 else 0) (fun _ _ _ => threadsInv_step)
    (fun t act t' ht hstep => by
      have hturn := step_turn ht.pool.order.frames hstep
      exact indicator_add (erased_turn ht.threads hturn k) fun he hk => hk.2 he.1)
    threadsInv_init h).symm
  have hinit : ¬ System.init.isErased k := by
    rintro ⟨hbuilt, -⟩
    cases hbuilt
  rw [if_neg hinit, Nat.zero_add] at hcount
  exact hcount

/-! ## The monitor reaps the retired workers -/

/-- Is `k` a thread with this id that is not joined? -/
def System.unjoined (s : System) (tid k : Nat) : Bool :=
  (s.workers[k]?).any fun w => w.tid == tid && !w.joined

/-- The monitor is owed the ids of the retired workers, and reaps each of these once. -/
structure ReapsRetired (B : Build) (s : System) (joins erasures : Nat → Nat) : Prop where
  /-- An id is in `monitor_thread_free_` as often as there are retired threads of this id. -/
  owed : s.mutexes.monitor = none → ∀ tid, s.pool.monitorThreadFree.count tid =
    s.pool.threadPool.countP fun k => decide (k ∈ s.retired) && s.unjoined tid k
  /-- `std::find_if` selects a retired thread, and its `Join` goes through. -/
  selects : s.monitor = .find → ∃ tid rest k, s.pool.monitorThreadFree = tid :: rest ∧
    (s.pool.threadPool.find? fun k => (s.workers[k]?).any fun w => w.tid == tid) = some k ∧
      k ∈ s.retired ∧ s.join B k = .ok (s.markJoined k)
  waitsFor : ∀ k, s.monitor = .joining k → k ∈ s.retired ∧ k ∈ s.pool.threadPool
  onlyRetired : ∀ k, 0 < joins k ∨ 0 < erasures k → k ∈ s.retired
  once : ∀ k, joins k ≤ 1 ∧ erasures k ≤ joins k
  /-- Whoever is out of `thread_pool_` was joined and erased, and nobody is forgotten. -/
  done : ∀ k < s.workers.length, k ∉ s.pool.threadPool → joins k = 1 ∧ erasures k = 1
  settled : s.mutexes.monitor = none → s.pool.monitorThreadFree = [] →
    ∀ k ∈ s.retired, joins k = 1 ∧ erasures k = 1

theorem System.unjoined_iff {tid k : Nat} (hk : k < s.roster.built) :
    s.unjoined tid k = true ↔ s.roster.tid k = tid ∧ s.roster.joined k = false := by
  have hw : s.workers[k]? = some s.workers[k] := List.getElem?_eq_getElem hk
  have htid : s.roster.tid k = s.workers[k].tid := by
    show ((s.workers[k]?).map Worker.tid).getD 0 = _
    rw [hw]
    rfl
  have hjoined : s.roster.joined k = s.workers[k].joined := by
    show (s.workers[k]?).any Worker.joined = _
    rw [hw]
    rfl
  rw [htid, hjoined, System.unjoined, hw]
  simp

/-- A thread that has left its loop and is not joined can be joined. -/
theorem join_of_out (ht : Threads s) {k : Nat} {l : Life}
    (hl : (s.placeOf (.worker k)).life = some l) (hout : l.out = true)
    (hjoined : s.roster.joined k = false) : s.join B k = .ok (s.markJoined k) := by
  have hstarted : s.roster.started k = true :=
    ht.started k (ht.named k l hl (by rintro rfl; cases hout))
  cases hx : s.placeOf (.worker k) with
  | worker x =>
    obtain ⟨w, hw, rfl⟩ := System.placeOf_worker_iff.mp hx
    have hstarted : w.started = true := by
      have h : (s.workers[k]?).any Worker.started = true := hstarted
      rw [hw] at h
      exact h
    have hjoined : w.joined = false := by
      have h : (s.workers[k]?).any Worker.joined = false := hjoined
      rw [hw] at h
      exact h
    have hthread : (!w.place.alive && w.place != .ended) = false := by
      rw [hx] at hl
      cases hl
      cases hplace : w.place with
      | retireUnlock => rfl
      | leave => rfl
      | ended => rfl
      | _ =>
        rw [hplace] at hout
        cases hout
    simp [System.join, hw, hstarted, hjoined, hthread]
  | _ =>
    rw [hx] at hl
    cases hl

/-- Before the destructor, a retired worker of the list is not joined, unless the monitor waits for
its end. -/
theorem Reaped.not_joined {n : Nat} (hg : Reaped s n) (howner : s.owner.walking = false) {k : Nat}
    (hretired : k ∈ s.roster.retired) (hk : k ∈ s.roster.threadPool) (hnot : s.monitor ≠ .joining k) :
    s.roster.joined k = false := by
  by_contra hjoined
  rw [Bool.not_eq_false] at hjoined
  rcases hg.joins.joined k hjoined with (htake | hjoining) | hpassed
  · exact (hg.reaping.order.kept k hretired).mp hk htake
  · exact hnot hjoining
  · exact OwnerPlace.not_passed howner k hpassed

/-- Who holds `thread_pool_mutex_` or waits for a thread in the monitor holds `monitor_mutex_`. -/
theorem Order.monitor_idle (hs : Order s) (hfree : s.mutexes.monitor = none) :
    Mutex.monitor ∉ s.monitor.guards := by
  intro hguard
  have howner := (hs.locks.holds .monitor .monitor).mp hguard
  have hnone : s.mutexes.owner .monitor = none := hfree
  rw [hnone] at howner
  cases howner

theorem Reaped.owed {n : Nat} (hs : ThreadsInv cfg s) (hg : Reaped s n)
    (howner : s.owner.walking = false) (hfree : s.mutexes.monitor = none) (tid : Nat) :
    s.pool.monitorThreadFree.count tid =
      s.pool.threadPool.countP fun k => decide (k ∈ s.retired) && s.unjoined tid k := by
  have hidle := hs.pool.order.monitor_idle hfree
  have hunlock : s.monitor ≠ .unlockPool := by
    intro h
    rw [h] at hidle
    exact hidle (by simp [MonitorPlace.guards])
  have hjoining (k : Nat) : s.monitor ≠ .joining k := by
    intro h
    rw [h] at hidle
    exact hidle (by simp [MonitorPlace.guards])
  have horder := hg.reaping.order
  rw [System.erased_of_ne hunlock] at horder
  have hlisted : s.roster.threadPool.countP (fun k => decide (k ∈ s.retired) && s.unjoined tid k) =
      (s.roster.threadPool.filter (· ∈ s.roster.retired)).countP fun k => s.roster.tid k == tid := by
    rw [List.countP_filter]
    apply List.countP_congr
    intro k hk
    rw [Bool.and_eq_true, Bool.and_eq_true, and_comm]
    have hbuilt := hs.threads.bound k hk
    refine and_congr_left fun hretired => ?_
    have hnot := hg.not_joined howner (of_decide_eq_true hretired) hk (hjoining k)
    rw [System.unjoined_iff hbuilt, beq_iff_eq]
    exact and_iff_left hnot
  calc s.pool.monitorThreadFree.count tid
      = ((s.roster.retired.drop n).map s.roster.tid).count tid := by
        rw [← hg.reaping.owed]
        rfl
    _ = (s.roster.retired.drop n).countP fun k => s.roster.tid k == tid := by
        rw [List.count, List.countP_map]
        rfl
    _ = (s.roster.threadPool.filter (· ∈ s.roster.retired)).countP fun k => s.roster.tid k == tid :=
        (horder.perm_retired.countP_eq _).symm
    _ = s.pool.threadPool.countP fun k => decide (k ∈ s.retired) && s.unjoined tid k := hlisted.symm

/-- `std::find_if` finds the thread that retired first of those that are owed. -/
theorem Reaping.finds {n : Nat} (hs : ThreadsInv cfg s) (hg : Reaping s n)
    (hfind : s.monitor = .find) :
    ∃ tid rest k, s.pool.monitorThreadFree = tid :: rest ∧
      (s.pool.threadPool.find? fun k => (s.workers[k]?).any fun w => w.tid == tid) = some k ∧
        k ∈ s.pool.threadPool ∧ k ∈ s.retired := by
  have howed : s.roster.free ≠ [] := hs.pending (by rw [hfind]; rfl)
  obtain ⟨tid, rest, hfree⟩ := List.exists_cons_of_ne_nil howed
  have horder := hg.order
  rw [System.erased_of_ne (by rw [hfind]; simp)] at horder
  cases hsearch : s.pool.threadPool.find? fun k => (s.workers[k]?).any fun w => w.tid == tid with
  | none =>
    -- the bearer of the id is in the list
    obtain ⟨k, hk, htid⟩ := hg.next_retired hfree
    have hmem := horder.next_mem hk
    exact absurd htid (find_none hsearch k hmem (hs.threads.bound k hmem))
  | some k =>
    obtain ⟨before, after, hpool, hbefore, -, htid⟩ := find_spec hsearch
    have hk := hg.selects hs.threads hfind hfree hpool hbefore htid
    have hmem : k ∈ s.pool.threadPool := List.mem_of_find?_eq_some hsearch
    exact ⟨tid, rest, k, hfree, hsearch, hmem, List.mem_of_getElem? hk⟩

theorem Reaped.selects {n : Nat} (hs : ThreadsInv cfg s) (hg : Reaped s n)
    (howner : s.owner.walking = false) (hfind : s.monitor = .find) :
    ∃ tid rest k, s.pool.monitorThreadFree = tid :: rest ∧
      (s.pool.threadPool.find? fun k => (s.workers[k]?).any fun w => w.tid == tid) = some k ∧
        k ∈ s.retired ∧ s.join B k = .ok (s.markJoined k) := by
  obtain ⟨tid, rest, k, hfree, hsearch, hmem, hretired⟩ := hg.reaping.finds hs hfind
  obtain ⟨l, hl, hout⟩ := hs.retirement.gone k hretired
  have hjoined := hg.not_joined howner hretired hmem (by rw [hfind]; simp)
  exact ⟨tid, rest, k, hfree, hsearch, hretired, join_of_out hs.threads hl hout hjoined⟩

theorem Reaping.isReaped_retired {n : Nat} (hret : Retirement s) (hg : Reaping s n) {k : Nat}
    (hk : s.isReaped k) : k ∈ s.roster.retired := by
  rcases hk with hk | hk
  · exact List.mem_of_mem_take ((hg.isErased_iff hret k).mp hk)
  · exact List.mem_of_getElem? (hg.joining k hk)

/-- When the monitor is owed nothing, every retired worker is out of the list. -/
theorem Reaping.isErased_of_settled {n : Nat} (hs : ThreadsInv cfg s) (hg : Reaping s n)
    (hmutex : s.mutexes.monitor = none) (hfree : s.roster.free = []) {k : Nat}
    (hk : k ∈ s.roster.retired) : s.isErased k := by
  have hidle := hs.pool.order.monitor_idle hmutex
  have hunlock : s.monitor ≠ .unlockPool := by
    intro h
    rw [h] at hidle
    exact hidle (by simp [MonitorPlace.guards])
  have howed := hg.owed
  rw [hfree] at howed
  have hdrop : s.roster.retired.drop n = [] := List.map_eq_nil_iff.mp howed.symm
  apply (hg.isErased_iff hs.retirement k).mpr
  rw [System.erased_of_ne hunlock, List.take_of_length_le (List.drop_eq_nil_iff.mp hdrop)]
  exact hk

/-- **The monitor reaps the retired workers.**  In every state before the destructor, whenever
`monitor_mutex_` is free, the ids in `monitor_thread_free_` are those of the threads of
`thread_pool_` that have handed their id over and are not joined; the thread that `std::find_if`
selects is one of these, and each is joined and erased once. -/
theorem monitor_reaps_retired (cfg : Config) (B : Build) (acts : List Act) {s : System}
    (hrun : (poolRuns cfg B).exec System.init acts = some s)
    (howner : s.owner.constructing = true ∨ s.owner = .constructed) :
    ReapsRetired B s (joinsOf cfg B acts) (erasuresOf cfg B acts) := by
  have hs : ThreadsInv cfg s := threadsInv_run hrun
  obtain ⟨n, hg⟩ := hs.reaped
  have hwalking : s.owner.walking = false := by
    rcases howner with h | h
    · cases hx : s.owner with
      | walk => rw [hx] at h; cases h
      | joining => rw [hx] at h; cases h
      | destroyed => rw [hx] at h; cases h
      | _ => rfl
    · rw [h]
      rfl
  have hjoins := joinsOf_eq hrun
  have herasures := erasuresOf_eq hrun
  have hdone {k : Nat} (hk : s.isErased k) :
      joinsOf cfg B acts k = 1 ∧ erasuresOf cfg B acts k = 1 := by
    rw [hjoins, herasures, if_pos hk, if_pos (.inl hk)]
    exact ⟨rfl, rfl⟩
  refine ⟨fun hfree => hg.owed hs hwalking hfree, fun hfind => hg.selects hs hwalking hfind, ?_, ?_,
    ?_, ?_, ?_⟩
  · intro k hk
    have hnext := hg.reaping.joining k hk
    have horder := hg.reaping.order
    rw [System.erased_of_ne (by rw [hk]; simp)] at horder
    exact ⟨List.mem_of_getElem? hnext, horder.next_mem hnext⟩
  · intro k hk
    apply hg.reaping.isReaped_retired hs.retirement
    rw [hjoins, herasures] at hk
    by_contra hnot
    have hout : ¬ s.isErased k := fun h => hnot (.inl h)
    rw [if_neg hnot, if_neg hout] at hk
    omega
  · intro k
    rw [hjoins, herasures]
    by_cases hk : s.isErased k
    · rw [if_pos hk, if_pos (.inl hk)]
      exact ⟨Nat.le_refl 1, Nat.le_refl 1⟩
    · rw [if_neg hk]
      refine ⟨?_, Nat.zero_le _⟩
      split
      · exact Nat.le_refl 1
      · exact Nat.zero_le 1
  · intro k hbuilt hout
    exact hdone ⟨hbuilt, hout⟩
  · intro hmutex hfree k hk
    exact hdone (hg.reaping.isErased_of_settled hs hmutex hfree hk)

/-- Worker 0 retires while worker 1 waits, and its id goes to a third thread before the monitor
comes to it. -/
def retireAndReuse : List Act :=
  growAndPark ++ [.wake 0, .move (.worker 0) { timedOut := true }] ++ steps (.worker 0) 7 ++
    [.commit .external] ++ steps (.call 1) 8 ++ [.move (.call 1) { tid := 7 }] ++
    steps (.worker 2) 1

/-- Two threads have the id that the monitor is owed, and `std::find_if` takes the one that has
retired. -/
theorem monitor_reaps_retired_two :
    ∃ s, (poolRuns oneOrTwo .debug).exec System.init
      (retireAndReuse ++ steps (.call 1) 3 ++ steps .monitor 4) = some s ∧
      s.monitor = .find ∧ s.workers.map Worker.tid = [7, 8, 7] ∧
      ReapsRetired .debug s
        (joinsOf oneOrTwo .debug (retireAndReuse ++ steps (.call 1) 3 ++ steps .monitor 4))
        (erasuresOf oneOrTwo .debug (retireAndReuse ++ steps (.call 1) 3 ++ steps .monitor 4)) := by
  have hend : ((poolRuns oneOrTwo .debug).exec System.init
      (retireAndReuse ++ steps (.call 1) 3 ++ steps .monitor 4)).map
        (fun s => (s.owner, s.monitor, s.workers.map Worker.tid)) =
          some (.constructed, .find, [7, 8, 7]) := by
    decide +kernel
  obtain ⟨s, hrun, hend⟩ := Option.map_eq_some_iff.mp hend
  simp only [Prod.mk.injEq] at hend
  obtain ⟨howner, hfind, htids⟩ := hend
  exact ⟨s, hrun, hfind, htids,
    monitor_reaps_retired oneOrTwo .debug _ hrun (.inr howner)⟩

/-- Has worker `k` taken the exit of idle workers, be it that it has not come to the hand-over? -/
def System.tookIdleExit (s : System) (k : Nat) : Bool :=
  decide (k ∈ s.retired) || (s.workers[k]?).any fun w => w.place.inIdleExit

/-- A worker that has taken its exit waits for the free `monitor_mutex_`, and the monitor is not owed
its id. -/
theorem exit_before_handOver :
    ∃ s, (poolRuns oneOrTwo .debug).exec System.init
      (growAndPark ++ [.wake 0, .move (.worker 0) { timedOut := true }] ++ steps (.worker 0) 3) =
        some s ∧ s.pool.status = .running ∧ s.owner = .constructed ∧ s.mutexes.monitor = none ∧
      s.pool.monitorThreadFree.count 7 ≠
        s.pool.threadPool.countP fun k => s.tookIdleExit k && s.unjoined 7 k := by
  have hend : ((poolRuns oneOrTwo .debug).exec System.init
      (growAndPark ++ [.wake 0, .move (.worker 0) { timedOut := true }] ++ steps (.worker 0) 3)).map
        (fun s => (s.pool.status, s.owner, s.mutexes.monitor, s.pool.monitorThreadFree.count 7,
          s.pool.threadPool.countP fun k => s.tookIdleExit k && s.unjoined 7 k)) =
        some (.running, .constructed, none, 0, 1) := by
    decide +kernel
  obtain ⟨s, hrun, hend⟩ := Option.map_eq_some_iff.mp hend
  simp only [Prod.mk.injEq] at hend
  obtain ⟨hstatus, howner, hmutex, hfree, hcount⟩ := hend
  refine ⟨s, hrun, hstatus, howner, hmutex, ?_⟩
  rw [hfree, hcount]
  exact Nat.zero_ne_one

end TurboNet.Base
