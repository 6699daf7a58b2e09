/-
# TurboNet.Base.PoolDeadlock — the locks of a pool do not deadlock.

`tasks_mutex_` is taken before `monitor_mutex_` and before `thread_pool_mutex_`, `monitor_mutex_`
before `thread_pool_mutex_`; the latch of a new thread is awaited under `thread_pool_mutex_`, and the
end of a retired worker under that and `monitor_mutex_`.  `Place.rank` orders the places by what can
be waited for there, and falls along every wait: a waiting retired worker cannot exist, since it has
given `monitor_mutex_` up or is about to, and a thread before its `latch_.CountDown()` waits for
nothing.
-/
import Mathlib.Logic.Relation
import TurboNet.Base.PoolMonitor

namespace TurboNet.Base

open TurboNet.Lib
open TurboNet.Logger (Build Halt)

variable {cfg : Config} {B : Build} {env : Env} {s s' : System}

/-! ## Waiting -/

/-- The mutex a party is about to lock. -/
def AddPlace.wants : AddPlace → Option Mutex
  | .lock _ => some .pool
  | _ => none

def WorkerPlace.wants : WorkerPlace → Option Mutex
  | .lockTasks | .woken => some .tasks
  | .retireLock => some .monitor
  | _ => none

def CallPlace.wants : CallPlace → Option Mutex
  | .lock => some .tasks
  | .adding a => a.wants
  | _ => none

def MonitorPlace.wants : MonitorPlace → Option Mutex
  | .lock | .woken => some .monitor
  | .lockPool => some .pool
  | _ => none

def OwnerPlace.wants : OwnerPlace → Option Mutex
  | .adding a => a.wants
  | _ => none

def Place.wants : Place → Option Mutex
  | .absent => none
  | .owner x => x.wants
  | .monitor x => x.wants
  | .worker x => x.wants
  | .call x => x.wants

/-- Party `p` waits for `q`.  A worker in a task waits for the call of `Commit` it makes there, which
is the same thread. -/
inductive WaitsFor (s : System) : Party → Party → Prop
  | mutex {p q : Party} {m : Mutex} (hwants : (s.placeOf p).wants = some m)
      (hheld : s.mutexes.owner m = some q) : WaitsFor s p q
  | latch {p : Party} {k : Nat} (hawaits : (s.placeOf p).awaits = some k)
      (hclosed : s.latchOpen k = false) : WaitsFor s p (.worker k)
  | monitorLatch (howner : s.owner = .awaitMonitor) (hclosed : s.monitor = .starting) :
      WaitsFor s .owner .monitor
  | monitorJoin {k : Nat} (hjoining : s.monitor = .joining k)
      (hruns : s.placeOf (.worker k) ≠ .worker .ended) : WaitsFor s .monitor (.worker k)
  | ownerJoin {k : Nat} (hjoining : s.owner = .joining k)
      (hruns : s.placeOf (.worker k) ≠ .worker .ended) : WaitsFor s .owner (.worker k)
  | task {k c : Nat} {t : Task} {x : CallPlace}
      (hrunning : s.placeOf (.worker k) = .worker (.running t)) (hcall : s.placeOf (.call c) = .call x)
      (hcaller : s.roster.caller c = some (.task k)) (hlive : x.over = false) :
      WaitsFor s (.worker k) (.call c)

/-! ## Ranks -/

def AddPlace.rank : AddPlace → Nat
  | .lock _ => 5
  | .await _ _ => 2
  | _ => 0

def WorkerPlace.rank : WorkerPlace → Nat
  | .running _ => 8
  | .lockTasks | .woken => 7
  | .retireLock => 6
  | _ => 0

def CallPlace.rank : CallPlace → Nat
  | .lock => 7
  | .adding a => a.rank
  | _ => 0

def MonitorPlace.rank : MonitorPlace → Nat
  | .lockPool => 5
  | .joining _ => 3
  | .lock | .woken => 1
  | _ => 0

def OwnerPlace.rank : OwnerPlace → Nat
  | .joining _ => 10
  | .awaitMonitor => 2
  | .adding a => a.rank
  | _ => 0

/-- How far a party at this place can be from one that waits for nobody. -/
def Place.rank : Place → Nat
  | .absent => 0
  | .owner x => x.rank
  | .monitor x => x.rank
  | .worker x => x.rank
  | .call x => x.rank

/-- The rank of whoever waits for a mutex, unless it is the monitor at its own. -/
def Mutex.rank : Mutex → Nat
  | .tasks => 7
  | .monitor => 6
  | .pool => 5

theorem AddPlace.rank_of_holder {a : AddPlace} (h : Mutex.pool ∈ a.guards) : a.rank < 5 := by
  cases a with
  | check => cases h
  | lock => cases h
  | await => exact Nat.lt_of_sub_eq_succ rfl
  | _ => exact Nat.succ_pos 4

theorem AddPlace.rank_le (a : AddPlace) : a.rank ≤ 5 := by
  cases a with
  | lock => exact Nat.le_refl 5
  | await => exact Nat.le_of_lt (Nat.lt_of_sub_eq_succ rfl)
  | _ => exact Nat.zero_le 5

/-- **Who holds a mutex ranks below who waits for it.** -/
theorem Place.rank_of_holder {x : Place} {m : Mutex} (h : m ∈ x.guards) : x.rank < m.rank := by
  cases x with
  | absent => cases h
  | owner x =>
    cases x with
    | adding a =>
      have hpool : a.guards = [.pool] ∨ a.guards = [] := by
        cases a with
        | check => exact .inr rfl
        | lock => exact .inr rfl
        | _ => exact .inl rfl
      have h : m ∈ a.guards := h
      rcases hpool with hpool | hpool
      · have hm : m = .pool := by
          rw [hpool] at h
          exact List.mem_singleton.mp h
        subst hm
        exact AddPlace.rank_of_holder h
      · rw [hpool] at h
        cases h
    | _ => cases h
  | monitor x =>
    cases x with
    | absent => cases h
    | starting => cases h
    | lock => cases h
    | parked => cases h
    | woken => cases h
    | ended => cases h
    | lockPool =>
      rw [List.mem_singleton.mp h]
      exact Nat.lt_succ_self 5
    | joining =>
      cases m with
      | tasks => exact absurd h (by simp [Place.guards, MonitorPlace.guards])
      | pool => exact Nat.lt_of_sub_eq_succ rfl
      | monitor => exact Nat.lt_of_sub_eq_succ rfl
    | _ =>
      cases m with
      | _ => exact Nat.succ_pos _
  | worker x =>
    cases x with
    | running => cases h
    | lockTasks => cases h
    | woken => cases h
    | retireLock =>
      rw [List.mem_singleton.mp h]
      exact Nat.lt_succ_self 6
    | _ =>
      cases m with
      | _ => exact Nat.succ_pos _
  | call x =>
    cases x with
    | lock => cases h
    | adding a =>
      have h : m ∈ a.guards ++ [.tasks] := h
      cases m with
      | tasks => exact Nat.lt_of_le_of_lt a.rank_le (Nat.lt_of_sub_eq_succ rfl)
      | monitor => exact Nat.lt_of_le_of_lt a.rank_le (Nat.lt_succ_self 5)
      | pool => exact AddPlace.rank_of_holder (by simpa using h)
    | _ =>
      cases m with
      | _ => exact Nat.succ_pos _

theorem AddPlace.rank_of_wants {a : AddPlace} {m : Mutex} (h : a.wants = some m) :
    a.rank = m.rank := by
  cases a with
  | lock =>
    cases h
    rfl
  | _ => cases h

theorem Place.rank_of_wants {x : Place} {m : Mutex} (h : x.wants = some m) :
    x.rank = m.rank ∨ m = .monitor ∧ (x = .monitor .lock ∨ x = .monitor .woken) := by
  cases x with
  | absent => cases h
  | owner x =>
    cases x with
    | adding a => exact .inl (AddPlace.rank_of_wants h)
    | _ => cases h
  | monitor x =>
    cases x with
    | lock =>
      cases h
      exact .inr ⟨rfl, .inl rfl⟩
    | woken =>
      cases h
      exact .inr ⟨rfl, .inr rfl⟩
    | lockPool =>
      cases h
      exact .inl rfl
    | _ => cases h
  | worker x =>
    cases x with
    | lockTasks =>
      cases h
      exact .inl rfl
    | woken =>
      cases h
      exact .inl rfl
    | retireLock =>
      cases h
      exact .inl rfl
    | _ => cases h
  | call x =>
    cases x with
    | lock =>
      cases h
      exact .inl rfl
    | adding a => exact .inl (AddPlace.rank_of_wants h)
    | _ => cases h

theorem Place.rank_of_awaits {x : Place} {k : Nat} (h : x.awaits = some k) : x.rank = 2 := by
  have hadd {a : AddPlace} (ha : a.awaits = some k) : a.rank = 2 := by
    cases a with
    | await => rfl
    | _ => cases ha
  cases x with
  | owner x =>
    cases x with
    | adding a => exact hadd h
    | _ => cases h
  | call x =>
    cases x with
    | adding a => exact hadd h
    | _ => cases h
  | _ => cases h

/-- Besides the monitor, only a worker on its way out holds `monitor_mutex_`. -/
theorem Place.rank_of_monitor_holder {x : Place} (h : Mutex.monitor ∈ x.guards)
    (hx : ∀ y, x ≠ .monitor y) : x.rank = 0 := by
  cases x with
  | absent => cases h
  | monitor y => exact absurd rfl (hx y)
  | owner x =>
    cases x with
    | adding a =>
      have h : Mutex.monitor ∈ a.guards := h
      cases a with
      | check => cases h
      | lock => cases h
      | _ => cases List.mem_singleton.mp h
    | _ => cases h
  | worker x =>
    cases x with
    | handOver => rfl
    | retireUnlock => rfl
    | _ => exact absurd h (by simp [Place.guards, WorkerPlace.guards])
  | call x =>
    cases x with
    | adding a =>
      have h : Mutex.monitor ∈ a.guards ++ [.tasks] := h
      cases a with
      | _ => exact absurd h (by simp [AddPlace.guards])
    | _ => exact absurd h (by simp [Place.guards, CallPlace.guards])

/-- A worker that has not counted its latch down waits for nobody. -/
theorem rank_of_closed {k : Nat} (h : s.latchOpen k = false) : (s.placeOf (.worker k)).rank = 0 := by
  rcases s.placeOf_worker k with habsent | ⟨x, hx⟩
  · rw [habsent]
    rfl
  · obtain ⟨w, hw, rfl⟩ := System.placeOf_worker_iff.mp hx
    rw [hx]
    simp only [System.latchOpen, hw, Option.any_some] at h
    cases hplace : w.place with
    | built => rfl
    | idled => rfl
    | counted => rfl
    | failed => rfl
    | starting => rfl
    | _ =>
      rw [hplace] at h
      cases h

/-- A worker that has handed its id over waits for nobody. -/
theorem Place.rank_of_out {x : Place} {l : Life} (hl : x.life = some l) (hout : l.out = true) :
    x.rank = 0 := by
  cases x with
  | worker x =>
    cases hl
    cases x with
    | retireUnlock => rfl
    | leave => rfl
    | ended => rfl
    | _ => cases hout
  | _ => cases hl

theorem WorkerPlace.rank_le (x : WorkerPlace) : x.rank ≤ 8 := by
  cases x with
  | _ => simp [WorkerPlace.rank]

theorem System.rank_worker (s : System) (k : Nat) : (s.placeOf (.worker k)).rank ≤ 8 := by
  rcases s.placeOf_worker k with habsent | ⟨x, hx⟩
  · rw [habsent]
    exact Nat.zero_le 8
  · rw [hx]
    exact x.rank_le

theorem CallPlace.rank_le (x : CallPlace) : x.rank ≤ 7 := by
  cases x with
  | adding a => exact Nat.le_trans a.rank_le (by decide)
  | _ => simp [CallPlace.rank]

/-- Only the monitor stands at a place of the monitor. -/
theorem System.monitor_of_place {p : Party} {y : MonitorPlace} (h : s.placeOf p = .monitor y) :
    p = .monitor := by
  cases p with
  | monitor => rfl
  | owner => cases h
  | worker k =>
    rcases s.placeOf_worker k with hk | ⟨z, hk⟩
    · rw [hk] at h
      cases h
    · rw [hk] at h
      cases h
  | call c =>
    rcases s.placeOf_call c with hc | ⟨z, hc⟩
    · rw [hc] at h
      cases h
    · rw [hc] at h
      cases h

/-! ## No cycle -/

/-- **The rank falls along every wait.** -/
theorem WaitsFor.rank_lt (hs : ThreadsInv cfg s) {p q : Party} (h : WaitsFor s p q) :
    (s.placeOf q).rank < (s.placeOf p).rank := by
  cases h with
  | @mutex p q m hwants hheld =>
    have hguard : m ∈ (s.placeOf q).guards := (hs.pool.order.locks.holds m q).mpr hheld
    rcases Place.rank_of_wants hwants with hrank | ⟨rfl, hmonitor⟩
    · rw [hrank]
      exact Place.rank_of_holder hguard
    · -- the monitor does not hold the mutex it waits for
      have hlow : (s.placeOf q).rank = 0 := by
        apply Place.rank_of_monitor_holder hguard
        intro y hy
        have hq : q = .monitor := System.monitor_of_place hy
        have hp : p = .monitor := by
          rcases hmonitor with h | h
          · exact System.monitor_of_place h
          · exact System.monitor_of_place h
        subst hp
        subst hq
        rcases hmonitor with h | h
        · rw [h] at hguard
          cases hguard
        · rw [h] at hguard
          cases hguard
      have hone : (s.placeOf p).rank = 1 := by
        rcases hmonitor with h | h
        · rw [h]
          rfl
        · rw [h]
          rfl
      omega
  | latch hawaits hclosed =>
    rw [Place.rank_of_awaits hawaits, rank_of_closed hclosed]
    exact Nat.succ_pos 1
  | monitorLatch howner hclosed =>
    show s.monitor.rank < s.owner.rank
    rw [howner, hclosed]
    exact Nat.succ_pos 1
  | @monitorJoin k hjoining =>
    obtain ⟨n, hreaped⟩ := hs.reaped
    have hretired := List.mem_of_getElem? (hreaped.reaping.joining k hjoining)
    obtain ⟨l, hl, hout⟩ := hs.retirement.gone k hretired
    rw [Place.rank_of_out hl hout]
    show 0 < s.monitor.rank
    rw [hjoining]
    exact Nat.succ_pos 2
  | @ownerJoin k hjoining =>
    have hworker := s.rank_worker k
    have howner : (s.placeOf .owner).rank = 10 := by
      show s.owner.rank = 10
      rw [hjoining]
      rfl
    omega
  | @task k c t x hrunning hcall =>
    have hle := x.rank_le
    rw [hrunning, hcall]
    show x.rank < 8
    omega

/-- **The locks of a pool do not deadlock**: in no state of any run is there a cycle of parties that
wait for one another. -/
theorem locks_never_deadlock (cfg : Config) (B : Build) (acts : List Act) {s : System}
    (hrun : (poolRuns cfg B).exec System.init acts = some s) (p : Party) :
    ¬ Relation.TransGen (WaitsFor s) p p := by
  have hs : ThreadsInv cfg s := threadsInv_run hrun
  intro hcycle
  have hfalls {q : Party} (h : Relation.TransGen (WaitsFor s) p q) :
      (s.placeOf q).rank < (s.placeOf p).rank := by
    induction h with
    | single h => exact h.rank_lt hs
    | tail _ h ih => exact Nat.lt_trans (h.rank_lt hs) ih
  exact Nat.lt_irrefl _ (hfalls hcycle)

/-- A call waits for another one that awaits the latch of the worker it has started. -/
theorem locks_never_deadlock_two :
    ∃ s, (poolRuns oneOrTwo .debug).exec System.init
      (constructOne ++ [.commit .external, .commit .external] ++ steps (.call 0) 8 ++
        [.move (.call 0) { tid := 8 }] ++ steps (.call 1) 1) = some s ∧
      WaitsFor s (.call 1) (.call 0) ∧ WaitsFor s (.call 0) (.worker 1) ∧
      ∀ p, ¬ Relation.TransGen (WaitsFor s) p p := by
  have hend : ((poolRuns oneOrTwo .debug).exec System.init
      (constructOne ++ [.commit .external, .commit .external] ++ steps (.call 0) 8 ++
        [.move (.call 0) { tid := 8 }] ++ steps (.call 1) 1)).map
        (fun s => ((s.placeOf (.call 1)).wants, s.mutexes.owner .tasks,
          (s.placeOf (.call 0)).awaits, s.latchOpen 1)) =
      some (some .tasks, some (.call 0), some 1, false) := by
    decide +kernel
  obtain ⟨s, hrun, hend⟩ := Option.map_eq_some_iff.mp hend
  simp only [Prod.mk.injEq] at hend
  obtain ⟨hwants, hheld, hawaits, hclosed⟩ := hend
  exact ⟨s, hrun, .mutex hwants hheld, .latch hawaits hclosed,
    locks_never_deadlock oneOrTwo .debug _ hrun⟩

end TurboNet.Base
