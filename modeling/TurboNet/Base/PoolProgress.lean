/-
# TurboNet.Base.PoolProgress — in a pool under destruction, whoever waits for nobody can go on.

`System.weight` bounds the steps that the workers, the calls in their tasks and a monitor at work
have still to make until all workers are out: each has a place further on to go to, a task that waits
costs a round of the loop, and a thread to be added a whole life.  One lemma for each kind of party
(`worker_moves`, `call_moves`, `monitor_moves`) says that it has a step that takes from the weight.
-/
import Mathlib.Algebra.Order.BigOperators.Group.List
import TurboNet.Base.PoolDeadlock
import TurboNet.Base.PoolExit

namespace TurboNet.Base

open TurboNet.Lib
open TurboNet.Logger (Build Halt)

variable {cfg : Config} {B : Build} {env : Env} {r : Bool} {s s' s₁ : System}

/-! ## Weights -/

/-- What a worker has before it.  In a pool that runs it goes to its wait, and from there out by the
exit of idle workers; otherwise it goes to the test for the end of the pool. -/
def WorkerPlace.weight (r : Bool) : WorkerPlace → Nat
  | .built | .idled | .counted | .failed | .ended => 0
  | .leave => 1
  | .quitNow | .retireUnlock => 2
  | .quitIdle | .handOver => 3
  | .quitStatus | .retireLock => 4
  | .retireNow => 5
  | .retireIdle => 6
  | .exitTest => 9
  | .loopTest => 10
  | .lockTasks => 11
  | .starting | .endTask => 12
  | .running _ => 13
  | .beginTask _ => 14
  | .unlockTask _ => 15
  | .idleTest => if r then 7 else 11
  | .woken => if r then 8 else 11
  | .parked => if r then 9 else 12

/-- What a call of `AddThread` has before it, with the threads it will start. -/
def AddPlace.weight : AddPlace → Nat
  | .unwind => 2
  | .unlock => 11
  | .test n => 12 + 17 * n
  | .lock n => 13 + 17 * n
  | .check n => 14 + 17 * n
  | .await _ n => 13 + 17 * (n - 1)
  | .start _ n => 26 + 17 * (n - 1)
  | .countNow _ n => 27 + 17 * (n - 1)
  | .countIdle _ n => 28 + 17 * (n - 1)

/-- What a call of `Commit` has before it, with the task it will push. -/
def CallPlace.weight : CallPlace → Nat
  | .returned | .threw => 0
  | .notify | .unwind => 1
  | .unlock => 2
  | .emplace => 10
  | .adding a => a.weight
  | .sizeTest => 32
  | .lock => 33
  | .check => 34

/-- What the monitor has before it until it gives `monitor_mutex_` up, with `free` threads to reap. -/
def MonitorPlace.weight (free : Nat) : MonitorPlace → Nat
  | .leave | .unlock => 1
  | .unlockPool => 2 + 5 * free
  | .joining _ => 3 + 5 * free
  | .find => 4 + 5 * free
  | .lockPool => 5 + 5 * free
  | .reap => 6 + 5 * free
  | .test => 7 + 5 * free
  | .statusTest => 8 + 5 * free
  | .absent | .starting | .lock | .parked | .woken | .ended => 0

/-- The steps that are left, at most. -/
def System.weight (r : Bool) (s : System) : Nat :=
  (s.workers.map fun w => w.place.weight r).sum + (s.calls.map fun call => call.place.weight).sum +
    7 * s.pool.tasks.length + s.monitor.weight s.pool.monitorThreadFree.length

theorem MonitorPlace.weight_of_idle {x : MonitorPlace} (h : x.guards = []) (free : Nat) :
    x.weight free = 0 := by
  cases x with
  | absent => rfl
  | starting => rfl
  | lock => rfl
  | parked => rfl
  | woken => rfl
  | ended => rfl
  | _ => cases h

/-- A sum in which one entry changes. -/
theorem sum_modify {α : Type} (f : α → Nat) (g : α → α) {l : List α} {i : Nat} {a : α}
    (h : l[i]? = some a) : ((l.modify i g).map f).sum + f a = (l.map f).sum + f (g a) := by
  induction l generalizing i with
  | nil => cases h
  | cons b l ih =>
    cases i with
    | zero =>
      obtain rfl : b = a := Option.some.inj h
      simp only [List.modify_zero_cons, List.map_cons, List.sum_cons]
      omega
    | succ i =>
      have hrest := ih (i := i) h
      simp only [List.modify_succ_cons, List.map_cons, List.sum_cons]
      omega

theorem weight_goWorker {k : Nat} {x : WorkerPlace} (hx : s.placeOf (.worker k) = .worker x)
    (y : WorkerPlace) : (s.goWorker k y).weight r + x.weight r = s.weight r + y.weight r := by
  obtain ⟨w, hw, rfl⟩ := System.placeOf_worker_iff.mp hx
  have hsum : ((s.goWorker k y).workers.map fun w => w.place.weight r).sum + w.place.weight r =
      (s.workers.map fun w => w.place.weight r).sum + y.weight r := sum_modify _ _ hw
  simp only [System.weight, System.goWorker] at hsum ⊢
  omega

theorem weight_goCall {c : Nat} {x : CallPlace} (hx : s.placeOf (.call c) = .call x)
    (y : CallPlace) : (s.goCall c y).weight r + x.weight = s.weight r + y.weight := by
  obtain ⟨call, hcall, rfl⟩ := System.placeOf_call_iff.mp hx
  have hsum : ((s.goCall c y).calls.map fun call => call.place.weight).sum + call.place.weight =
      (s.calls.map fun call => call.place.weight).sum + y.weight := sum_modify _ _ hcall
  simp only [System.weight, System.goCall] at hsum ⊢
  omega

/-! ## Steps -/

/-- What may happen while the destructor waits: a step of a worker, of a call in its task or of the
monitor, with a thread created when one is asked for, and the end of a wait. -/
def Act.Continues : Act → Prop
  | .move p env => p ≠ .owner ∧ env.created = true
  | .wake _ | .wakeMonitor => True
  | .commit _ | .shutDown _ | .destroy => False

/-- A move of one of these that takes from the weight. -/
structure Lighter (r : Bool) (s s' : System) : Prop where
  weight : s'.weight r < s.weight r
  halted : s'.halted = s.halted
  owner : s'.owner = s.owner
  running : s'.board.status = .running ↔ s.board.status = .running

/-- Some party can move on. -/
def Moves (cfg : Config) (B : Build) (r : Bool) (s : System) : Prop :=
  ∃ act s', act.Continues ∧ Orderly B s act ∧ (poolRuns cfg B).step s act = some s' ∧
    Lighter r s s'

/-- A monitor at work may go on. -/
theorem orderly_monitor (hbusy : s.monitor.guards ≠ []) (env : Env) :
    Orderly B s (.move .monitor env) := by
  refine ⟨fun _ hstarts => ?_, trivial⟩
  rw [System.startsToReap] at hstarts
  generalize s.monitor = x at hbusy hstarts
  cases x with
  | lock => exact absurd rfl hbusy
  | woken => exact absurd rfl hbusy
  | _ => cases hstarts

theorem moves_worker (env : Env) (hcreated : env.created = true) (hhalted : s.halted = none) {k : Nat}
    {x : WorkerPlace} (hx : s.placeOf (.worker k) = .worker x)
    (h : s.workerStep cfg env k x = some s') (hlighter : Lighter r s s') : Moves cfg B r s := by
  obtain ⟨w, hw, rfl⟩ := System.placeOf_worker_iff.mp hx
  refine ⟨.move (.worker k) env, s', ⟨by simp, hcreated⟩, ⟨trivial, trivial⟩, ?_, hlighter⟩
  show System.step cfg B s (.move (.worker k) env) = some s'
  simp only [System.step, hhalted, Option.isSome_none, Bool.false_eq_true, if_false, System.move, hw]
  exact h

theorem moves_call (env : Env) (hcreated : env.created = true) (hhalted : s.halted = none) {c : Nat}
    {x : CallPlace} (hx : s.placeOf (.call c) = .call x)
    (h : s.commitStep cfg B env c x = some s') (hlighter : Lighter r s s') : Moves cfg B r s := by
  obtain ⟨call, hcall, rfl⟩ := System.placeOf_call_iff.mp hx
  refine ⟨.move (.call c) env, s', ⟨by simp, hcreated⟩, ⟨trivial, trivial⟩, ?_, hlighter⟩
  show System.step cfg B s (.move (.call c) env) = some s'
  simp only [System.step, hhalted, Option.isSome_none, Bool.false_eq_true, if_false, System.move,
    hcall]
  exact h

theorem moves_monitor (hhalted : s.halted = none) (hbusy : s.monitor.guards ≠ [])
    (h : s.monitorStep B s.monitor = some s') (hlighter : Lighter r s s') : Moves cfg B r s := by
  refine ⟨.move .monitor {}, s', ⟨by simp, rfl⟩, orderly_monitor hbusy {}, ?_, hlighter⟩
  show System.step cfg B s (.move .monitor {}) = some s'
  simp only [System.step, hhalted, Option.isSome_none, Bool.false_eq_true, if_false, System.move]
  exact h

/-- An effect that touches neither places nor queue. -/
structure Neutral (r : Bool) (s s₁ : System) : Prop where
  workers : s₁.workers = s.workers
  calls : s₁.calls = s.calls
  weight : s₁.weight r = s.weight r
  halted : s₁.halted = s.halted
  owner : s₁.owner = s.owner
  running : s₁.board.status = .running ↔ s.board.status = .running

theorem neutral_refl : Neutral r s s := ⟨rfl, rfl, rfl, rfl, rfl, Iff.rfl⟩

theorem neutral_locked (m : Mutex) (p : Party) :
    Neutral r s { s with mutexes := s.mutexes.assign m (some p) } :=
  ⟨rfl, rfl, rfl, rfl, rfl, Iff.rfl⟩

theorem neutral_unlock (m : Mutex) : Neutral r s (s.unlock m) := ⟨rfl, rfl, rfl, rfl, rfl, Iff.rfl⟩

theorem neutral_setIdle (n : Nat) : Neutral r s (s.setIdle n) := ⟨rfl, rfl, rfl, rfl, rfl, Iff.rfl⟩

theorem neutral_setNow (n : Nat) : Neutral r s (s.setNow n) := ⟨rfl, rfl, rfl, rfl, rfl, Iff.rfl⟩

theorem neutral_execute (k : Nat) (t : Task) : Neutral r s (s.execute k t) :=
  ⟨rfl, rfl, rfl, rfl, rfl, Iff.rfl⟩

/-- A monitor that is not at work has no thread to reap yet, however many are handed over. -/
theorem neutral_handOver (hidle : s.monitor.guards = []) (k : Nat) :
    Neutral r s (s.emplaceFree k).notifyMonitor := by
  have hweight {s₁ : System} (hworkers : s₁.workers = s.workers) (hcalls : s₁.calls = s.calls)
      (htasks : s₁.pool.tasks = s.pool.tasks) (hmonitor : s₁.monitor.guards = []) :
      s₁.weight r = s.weight r := by
    simp only [System.weight, hworkers, hcalls, htasks, MonitorPlace.weight_of_idle hidle,
      MonitorPlace.weight_of_idle hmonitor]
  by_cases hparked : (s.emplaceFree k).monitor = .parked
  · have hafter : (s.emplaceFree k).notifyMonitor = (s.emplaceFree k).goMonitor .woken :=
      if_pos hparked
    rw [hafter]
    exact ⟨rfl, rfl, hweight rfl rfl rfl rfl, rfl, rfl, Iff.rfl⟩
  · have hafter : (s.emplaceFree k).notifyMonitor = s.emplaceFree k := if_neg hparked
    rw [hafter]
    exact ⟨rfl, rfl, hweight rfl rfl rfl hidle, rfl, rfl, Iff.rfl⟩

/-! ### Workers -/

/-- A worker goes on to a lighter place. -/
theorem lighter_worker {k : Nat} {x y : WorkerPlace} (hx : s.placeOf (.worker k) = .worker x)
    (hworkers : s₁.workers = s.workers) (hhalted : s₁.halted = s.halted)
    (howner : s₁.owner = s.owner)
    (hrunning : s₁.board.status = .running ↔ s.board.status = .running)
    (hlt : s₁.weight r + y.weight r < s.weight r + x.weight r) :
    Lighter r s (s₁.goWorker k y) := by
  have hx₁ : s₁.placeOf (.worker k) = .worker x := by
    obtain ⟨w, hw, hplace⟩ := System.placeOf_worker_iff.mp hx
    exact System.placeOf_worker_iff.mpr ⟨w, by rw [hworkers]; exact hw, hplace⟩
  have hsum := weight_goWorker (r := r) hx₁ y
  exact ⟨by omega, hhalted, howner, hrunning⟩

/-- Is there an exit for the workers: is the pool shut down, or has it no core to keep? -/
def System.HasExit (cfg : Config) (s : System) : Prop :=
  s.pool.status ≠ .running ∨ cfg.atLeast ≤ s.failedThreads

instance (cfg : Config) (s : System) : Decidable (s.HasExit cfg) :=
  inferInstanceAs (Decidable (_ ∨ _))

/-- What a state has to be for its workers to leave. -/
structure Ready (cfg : Config) (B : Build) (r : Bool) (s : System) : Prop where
  inv : ExitInv cfg B s
  walking : s.owner.walking = true
  halted : s.halted = none
  mode : s.board.status = .running ↔ r = true
  exit : s.HasExit cfg

/-- The mutex of a party that waits for nobody is free. -/
theorem free_of_wants {p : Party} {m : Mutex} (hfree : ∀ q, ¬ WaitsFor s p q)
    (hwants : (s.placeOf p).wants = some m) : s.mutexes.owner m = none := by
  by_contra hheld
  obtain ⟨q, hq⟩ := Option.ne_none_iff_exists'.mp hheld
  exact hfree q (.mutex hwants hq)

theorem lock_of_free {m : Mutex} {p : Party} (h : s.mutexes.owner m = none) :
    s.lock m p = some { s with mutexes := s.mutexes.assign m (some p) } :=
  System.lock_eq_some.mpr ⟨h, rfl⟩

/-- A worker goes on, and nothing but its place changes the weight. -/
theorem worker_goes_on (env : Env) (hcreated : env.created = true) {s₁ : System}
    (hs₁ : Neutral r s s₁) (y : WorkerPlace)
    (hhalted : s.halted = none) {k : Nat} {x : WorkerPlace} (hx : s.placeOf (.worker k) = .worker x)
    (h : s.workerStep cfg env k x = some (s₁.goWorker k y)) (hlt : y.weight r < x.weight r) :
    Moves cfg B r s := by
  have hweight := hs₁.weight
  exact moves_worker env hcreated hhalted hx h
    (lighter_worker hx hs₁.workers hs₁.halted hs₁.owner hs₁.running (by omega))

/-- A call under way from no task of worker `k`. -/
theorem inCall_of_over {k : Nat} (h : ∀ c x, s.placeOf (.call c) = .call x →
    s.roster.caller c = some (.task k) → x.over = true) : s.inCall k = false := by
  apply List.any_eq_false.mpr
  intro call hcall hlive
  obtain ⟨c, hc⟩ := List.getElem?_of_mem hcall
  simp only [Bool.and_eq_true, beq_iff_eq, bne_iff_ne, ne_eq] at hlive
  obtain ⟨⟨hcaller, hreturned⟩, hthrew⟩ := hlive
  have hwho : s.roster.caller c = some (.task k) := by
    show (s.calls[c]?).map Call.caller = some (.task k)
    rw [hc, ← hcaller]
    rfl
  have hover := h c call.place (System.placeOf_call_iff.mpr ⟨call, hc, rfl⟩) hwho
  cases hplace : call.place with
  | returned => exact hreturned hplace
  | threw => exact hthrew hplace
  | _ =>
    rw [hplace] at hover
    cases hover

/-- In a pool that runs on under its destructor, a worker that looks for the exit finds it. -/
theorem Ready.core_lt (h : Ready cfg B r s) (hr : r = true) {k : Nat}
    (hx : s.placeOf (.worker k) = .worker .idleTest) : cfg.corePoolSize < s.board.now := by
  have hcounts := h.inv.life.threads.pool.counts
  have hnow : s.countedWorkers.ncard = s.board.now := hcounts.now.symm
  have hbound := hcounts.bound
  -- it is counted, and so are those that have failed
  have hnot : k ∉ s.workersWhere Place.failed := by
    intro hfailed
    rw [System.mem_failed, hx] at hfailed
    cases hfailed
  have hcounted : insert k (s.workersWhere Place.failed) ⊆ s.countedWorkers := by
    rintro j (rfl | hj)
    · show (s.placeOf (.worker j)).counted = true
      rw [hx]
      rfl
    · show (s.placeOf (.worker j)).counted = true
      rw [System.mem_failed.mp hj]
      rfl
  have hle := Set.ncard_le_ncard hcounted (s.finite_workersWhere rfl)
  rw [Set.ncard_insert_of_notMem hnot (s.finite_workersWhere rfl), s.ncard_failed] at hle
  have hfailed : cfg.atLeast ≤ s.failedThreads := h.exit.resolve_left fun hended =>
    hended (h.mode.mpr hr)
  have hleast : cfg.atLeast = min cfg.corePoolSize cfg.maxPoolSize := rfl
  omega

/-- **A worker that waits for nobody goes on.** -/
theorem worker_moves (h : Ready cfg B r s) {k : Nat} {x : WorkerPlace}
    (hx : s.placeOf (.worker k) = .worker x) (halive : x.alive = true)
    (hfree : ∀ q, ¬ WaitsFor s (.worker k) q) : Moves cfg B r s := by
  have hhalted := h.halted
  have hlock {m : Mutex} (hwants : x.wants = some m) :
      s.lock m (.worker k) = some { s with mutexes := s.mutexes.assign m (some (.worker k)) } :=
    lock_of_free (free_of_wants hfree (by rw [hx]; exact hwants))
  have go {s₁ : System} (hs₁ : Neutral r s s₁) (y : WorkerPlace)
      (hstep : s.workerStep cfg {} k x = some (s₁.goWorker k y)) (hlt : y.weight r < x.weight r) :
      Moves cfg B r s := worker_goes_on {} rfl hs₁ y hhalted hx hstep hlt
  cases x with
  | built => cases halive
  | idled => cases halive
  | counted => cases halive
  | failed => cases halive
  | ended => cases halive
  | starting =>
    exact go neutral_refl .lockTasks rfl (by simp [WorkerPlace.weight])
  | lockTasks =>
    refine go (neutral_locked .tasks (.worker k)) .loopTest ?_ (by simp [WorkerPlace.weight])
    simp only [System.workerStep, hlock rfl, Option.map_some]
  | loopTest =>
    by_cases hwait : s.pool.status = .running ∧ s.pool.tasks = []
    · have hr : r = true := h.mode.mp hwait.1
      refine go (neutral_unlock .tasks) .parked ?_ (by simp [WorkerPlace.weight, hr])
      simp only [System.workerStep, if_pos hwait]
    · refine go neutral_refl .exitTest ?_
        (by simp [WorkerPlace.weight])
      simp only [System.workerStep, if_neg hwait]
  | parked =>
    -- its wait ends, if only by the time-out
    refine ⟨.wake k, s.goWorker k .woken, trivial, ⟨trivial, trivial⟩, ?_,
      lighter_worker hx rfl rfl rfl Iff.rfl ?_⟩
    · show System.step cfg B s (.wake k) = _
      simp only [System.step, hhalted, Option.isSome_none, Bool.false_eq_true, if_false]
      rw [if_pos (System.workerAt_iff.mpr hx)]
    · cases r with
      | _ => simp [WorkerPlace.weight]
  | woken =>
    refine worker_goes_on { timedOut := r } rfl (neutral_locked .tasks (.worker k))
      (if r then .idleTest else .loopTest) hhalted hx ?_ ?_
    · simp only [System.workerStep, hlock rfl, Option.map_some]
    · cases r with
      | _ => simp [WorkerPlace.weight]
  | idleTest =>
    by_cases hmore : cfg.corePoolSize < s.pool.nowThreadNum
    · refine go neutral_refl .retireIdle ?_ ?_
      · simp only [System.workerStep, if_pos hmore]
      · cases r with
        | _ => simp [WorkerPlace.weight]
    · have hr : r = false := Bool.eq_false_iff.mpr fun hr => hmore (h.core_lt hr hx)
      refine go neutral_refl .loopTest ?_
        (by simp [WorkerPlace.weight, hr])
      simp only [System.workerStep, if_neg hmore]
  | retireIdle =>
    exact go (neutral_setIdle _) .retireNow rfl (by simp [WorkerPlace.weight])
  | retireNow =>
    exact go (neutral_setNow _) .retireLock rfl (by simp [WorkerPlace.weight])
  | retireLock =>
    refine go (neutral_locked .monitor (.worker k)) .handOver ?_ (by simp [WorkerPlace.weight])
    simp only [System.workerStep, hlock rfl, Option.map_some]
  | handOver =>
    -- it holds `monitor_mutex_`, so the monitor is not at work
    have hidle : s.monitor.guards = [] := by
      by_contra hbusy
      have hmine : Mutex.monitor ∈ (s.placeOf (.worker k)).guards := by
        rw [hx]
        exact List.mem_cons_self
      have hother : Mutex.monitor ∈ (s.placeOf .monitor).guards :=
        MonitorPlace.monitor_of_busy hbusy
      cases h.inv.life.threads.pool.order.locks.exclusive hmine hother
    exact go (neutral_handOver hidle k) .retireUnlock rfl (by simp [WorkerPlace.weight])
  | retireUnlock =>
    exact go (neutral_unlock .monitor) .leave rfl (by simp [WorkerPlace.weight])
  | exitTest =>
    by_cases hquit : s.pool.status ≠ .running ∧ s.pool.tasks = []
    · refine go neutral_refl .quitStatus ?_
        (by simp [WorkerPlace.weight])
      simp only [System.workerStep, if_pos hquit]
    · cases htasks : s.pool.tasks with
      | nil =>
        have hrunning : s.board.status = .running := by
          by_contra hnot
          exact hquit ⟨hnot, htasks⟩
        exact absurd htasks (h.inv.supplied k hx hrunning)
      | cons t rest =>
        have hstep : s.workerStep cfg {} k .exitTest =
            some ((s.pop k t rest).goWorker k (.unlockTask t)) := by
          rw [htasks] at hquit
          simp only [System.workerStep, htasks, if_neg hquit]
        refine moves_worker {} rfl hhalted hx hstep (lighter_worker hx rfl rfl rfl Iff.rfl ?_)
        simp only [System.weight, System.pop, htasks, List.length_cons, WorkerPlace.weight]
        omega
  | quitStatus =>
    have hnot : s.board.status ≠ .running :=
      h.inv.life.threads.staffed.quitting k _ hx rfl
    have hneutral : Neutral r s (s.setStatus .terminated) :=
      ⟨rfl, rfl, rfl, rfl, rfl, iff_of_false (by simp [System.board, System.setStatus]) hnot⟩
    exact go hneutral .quitIdle rfl (by simp [WorkerPlace.weight])
  | quitIdle =>
    exact go (neutral_setIdle _) .quitNow rfl (by simp [WorkerPlace.weight])
  | quitNow =>
    exact go (neutral_setNow _) .leave rfl (by simp [WorkerPlace.weight])
  | leave =>
    exact go (neutral_unlock .tasks) .ended rfl (by simp [WorkerPlace.weight])
  | unlockTask t =>
    exact go (neutral_unlock .tasks) (.beginTask t) rfl (by simp [WorkerPlace.weight])
  | beginTask t =>
    exact go (neutral_setIdle _) (.running t) rfl (by simp [WorkerPlace.weight])
  | running t =>
    have hdone : s.inCall k = false := by
      apply inCall_of_over
      intro c x hc hcaller
      by_contra hlive
      exact hfree _ (.task hx hc hcaller (Bool.eq_false_iff.mpr hlive))
    refine go (neutral_execute k t) .endTask ?_
      (by simp [WorkerPlace.weight])
    simp only [System.workerStep, hdone, Bool.false_eq_true, if_false]
  | endTask =>
    exact go (neutral_setIdle _) .lockTasks rfl (by simp [WorkerPlace.weight])

/-! ### Calls -/

/-- A call goes on to a lighter place. -/
theorem lighter_call {c : Nat} {x y : CallPlace} (hx : s.placeOf (.call c) = .call x)
    (hcalls : s₁.calls = s.calls) (hhalted : s₁.halted = s.halted) (howner : s₁.owner = s.owner)
    (hrunning : s₁.board.status = .running ↔ s.board.status = .running)
    (hlt : s₁.weight r + y.weight < s.weight r + x.weight) : Lighter r s (s₁.goCall c y) := by
  have hx₁ : s₁.placeOf (.call c) = .call x := by
    obtain ⟨call, hcall, hplace⟩ := System.placeOf_call_iff.mp hx
    exact System.placeOf_call_iff.mpr ⟨call, by rw [hcalls]; exact hcall, hplace⟩
  have hsum := weight_goCall (r := r) hx₁ y
  exact ⟨by omega, hhalted, howner, hrunning⟩

/-- A call goes on, and nothing but its place changes the weight. -/
theorem call_goes_on {s₁ : System} (hs₁ : Neutral r s s₁) (y : CallPlace)
    (hhalted : s.halted = none) {c : Nat} {x : CallPlace} (hx : s.placeOf (.call c) = .call x)
    (h : s.commitStep cfg B {} c x = some (s₁.goCall c y)) (hlt : y.weight < x.weight) :
    Moves cfg B r s := by
  have hweight := hs₁.weight
  exact moves_call {} rfl hhalted hx h
    (lighter_call hx hs₁.calls hs₁.halted hs₁.owner hs₁.running (by omega))

/-- A `Thread` that is not started weighs nothing. -/
theorem weight_build : s.build.weight r = s.weight r := by
  simp only [System.weight, System.build, List.map_append, List.map_cons, List.map_nil,
    List.sum_append, List.sum_cons, List.sum_nil, WorkerPlace.weight, Nat.add_zero]

theorem weight_startThread {k : Nat} {x : WorkerPlace} (hx : s.placeOf (.worker k) = .worker x)
    (tid : Nat) (y : WorkerPlace) :
    (s.startThread k tid y).weight r + x.weight r = s.weight r + y.weight r := by
  obtain ⟨w, hw, rfl⟩ := System.placeOf_worker_iff.mp hx
  have hsum : ((s.startThread k tid y).workers.map fun w => w.place.weight r).sum +
      w.place.weight r = (s.workers.map fun w => w.place.weight r).sum + y.weight r :=
    sum_modify _ _ hw
  simp only [System.weight, System.startThread] at hsum ⊢
  omega

/-- There is an id that no thread has. -/
theorem exists_tidFree (s : System) : ∃ tid, s.tidFree tid = true := by
  refine ⟨(s.workers.map Worker.tid).sum + 1, ?_⟩
  simp only [System.tidFree, Bool.and_eq_true, decide_eq_true_eq, List.all_eq_true]
  refine ⟨Nat.succ_pos _, fun w hw => ?_⟩
  have hle : w.tid ≤ (s.workers.map Worker.tid).sum :=
    List.single_le_sum (fun _ _ => Nat.zero_le _) _ (List.mem_map_of_mem hw)
  have hne : ¬ w.tid = (s.workers.map Worker.tid).sum + 1 := by omega
  simp [hne]

/-- A call under way in a pool under destruction comes from a task, which has its assertions behind
it when the pool is shut down. -/
theorem Ready.in_time (h : Ready cfg B r s) {c : Nat} {x : CallPlace}
    (hx : s.placeOf (.call c) = .call x) (hlive : x.over = false) (hbefore : x.cleared = false) :
    B.asserts = true → s.pool.status = .running := by
  intro hasserts
  by_contra hnot
  have hgone := h.inv.life.guests.gone (OwnerPlace.closing_of_walking h.walking)
  obtain ⟨call, hcall, rfl⟩ := System.placeOf_call_iff.mp hx
  have hcaller : s.roster.caller c = some call.caller := by
    show (s.calls[c]?).map Call.caller = _
    rw [hcall]
    rfl
  cases hwho : call.caller with
  | external =>
    rw [hwho] at hcaller
    rw [hgone c _ hx hcaller] at hlive
    cases hlive
  | task k =>
    rw [hwho] at hcaller
    rw [h.inv.cleared hasserts hnot c _ k hx hcaller] at hbefore
    cases hbefore

/-- **A call of `AddThread` in a task that waits for nobody goes on.** -/
theorem adding_moves (h : Ready cfg B r s) {c : Nat} {a : AddPlace}
    (hx : s.placeOf (.call c) = .call (.adding a)) (hfree : ∀ q, ¬ WaitsFor s (.call c) q) :
    Moves cfg B r s := by
  have hhalted := h.halted
  have hthreads := h.inv.life.threads
  have go {s₁ : System} (hs₁ : Neutral r s s₁) (y : CallPlace)
      (hstep : s.commitStep cfg B {} c (.adding a) = some (s₁.goCall c y))
      (hlt : y.weight < (CallPlace.adding a).weight) : Moves cfg B r s :=
    call_goes_on hs₁ y hhalted hx hstep hlt
  -- the worker it is about to count or to start
  have htarget {k : Nat} {z : WorkerPlace} (hz : z.fresh = true) (ha : a.target = some (k, z)) :
      s.placeOf (.worker k) = .worker z := by
    apply (hthreads.pool.order.frames k z hz).mpr
    exact ⟨.call c, by rw [hx]; exact ha⟩
  cases a with
  | check size =>
    have hintime := h.in_time hx rfl rfl
    refine go neutral_refl (.adding (.lock size)) ?_ (by simp [CallPlace.weight, AddPlace.weight])
    simp only [System.commitStep, System.addThread, if_pos hintime, Option.map_some]
  | lock size =>
    have hlock : s.lock .pool (.call c) =
        some { s with mutexes := s.mutexes.assign .pool (some (.call c)) } :=
      lock_of_free (free_of_wants hfree (by rw [hx]; rfl))
    refine go (neutral_locked .pool (.call c)) (.adding (.test size)) ?_
      (by simp [CallPlace.weight, AddPlace.weight])
    simp only [System.commitStep, System.addThread, hlock, Option.map_some]
  | test size =>
    by_cases hmore : s.pool.nowThreadNum < cfg.maxPoolSize ∧ 0 < size
    · have hstep : s.commitStep cfg B {} c (.adding (.test size)) =
          some (s.build.goCall c (.adding (.countIdle s.workers.length size))) := by
        simp only [System.commitStep, System.addThread, if_pos hmore, Option.map_some]
      refine moves_call {} rfl hhalted hx hstep (lighter_call hx rfl rfl rfl Iff.rfl ?_)
      have hsize := hmore.2
      simp only [weight_build, CallPlace.weight, AddPlace.weight]
      omega
    · refine go neutral_refl (.adding .unlock) ?_ ?_
      · simp only [System.commitStep, System.addThread, if_neg hmore, Option.map_some]
      · simp only [CallPlace.weight, AddPlace.weight]
        omega
  | countIdle k size =>
    have hk : s.incIdle.placeOf (.worker k) = .worker .built := htarget rfl rfl
    have hweight := weight_goWorker (r := r) hk .idled
    refine moves_call {} rfl hhalted hx rfl (lighter_call hx rfl rfl rfl Iff.rfl ?_)
    have hidle : s.incIdle.weight r = s.weight r := (neutral_setIdle _).weight
    simp only [CallPlace.weight, AddPlace.weight]
    simp only [WorkerPlace.weight] at hweight
    omega
  | countNow k size =>
    have hk : s.incNow.placeOf (.worker k) = .worker .idled := htarget rfl rfl
    have hweight := weight_goWorker (r := r) hk .counted
    refine moves_call {} rfl hhalted hx rfl (lighter_call hx rfl rfl rfl Iff.rfl ?_)
    have hnow : s.incNow.weight r = s.weight r := (neutral_setNow _).weight
    simp only [CallPlace.weight, AddPlace.weight]
    simp only [WorkerPlace.weight] at hweight
    omega
  | start k size =>
    have hk : s.placeOf (.worker k) = .worker .counted := htarget rfl rfl
    have hstarted : (s.workers[k]?).any (fun w => w.started) = false :=
      h.inv.unstarted k .counted hk rfl
    obtain ⟨tid, htid⟩ := exists_tidFree s
    have hweight := weight_startThread (r := r) hk tid .starting
    have hstep : s.commitStep cfg B { tid := tid } c (.adding (.start k size)) =
        some ((s.startThread k tid .starting).goCall c (.adding (.await k size))) := by
      simp only [System.commitStep, System.addThread, hstarted, Bool.and_false, Bool.false_eq_true,
        if_false, if_true, htid, Option.map_some]
    refine moves_call { tid := tid } rfl hhalted hx hstep (lighter_call hx rfl rfl rfl Iff.rfl ?_)
    simp only [CallPlace.weight, AddPlace.weight]
    simp only [WorkerPlace.weight] at hweight
    omega
  | await k size =>
    have hopen : s.latchOpen k = true := by
      by_contra hclosed
      exact hfree _ (.latch (by rw [hx]; rfl) (Bool.eq_false_iff.mpr hclosed))
    obtain ⟨l, hl, hborn⟩ := h.inv.awaited c k size hx
    have hnamed := hthreads.threads.named k l hl hborn
    have hid : (s.workers[k]?).any (fun w => w.tid == 0) = false := by
      have hnamed : 0 < ((s.workers[k]?).map Worker.tid).getD 0 := hnamed
      cases hw : s.workers[k]? with
      | none => rfl
      | some w =>
        rw [hw] at hnamed
        simpa using Nat.ne_of_gt hnamed
    refine go neutral_refl (.adding (.test (size - 1))) ?_
      (by simp [CallPlace.weight, AddPlace.weight])
    simp only [System.commitStep, System.addThread, hopen, hid, Bool.and_false, Bool.false_eq_true,
      if_false, if_true, Option.map_some]
  | unlock =>
    exact go (neutral_unlock .pool) .emplace rfl (by simp [CallPlace.weight, AddPlace.weight])
  | unwind =>
    exact go (neutral_unlock .pool) .unwind rfl (by simp [CallPlace.weight, AddPlace.weight])

/-- **A call of `Commit` in a task that waits for nobody goes on.** -/
theorem call_moves (h : Ready cfg B r s) {c : Nat} {x : CallPlace}
    (hx : s.placeOf (.call c) = .call x) (hlive : x.over = false)
    (hfree : ∀ q, ¬ WaitsFor s (.call c) q) : Moves cfg B r s := by
  have hhalted := h.halted
  have go {s₁ : System} (hs₁ : Neutral r s s₁) (y : CallPlace)
      (hstep : s.commitStep cfg B {} c x = some (s₁.goCall c y)) (hlt : y.weight < x.weight) :
      Moves cfg B r s := call_goes_on hs₁ y hhalted hx hstep hlt
  cases x with
  | returned => cases hlive
  | threw => cases hlive
  | check =>
    have hintime := h.in_time hx rfl rfl
    refine go neutral_refl .lock ?_ (by simp [CallPlace.weight])
    simp only [System.commitStep, if_pos hintime]
  | lock =>
    have hlock : s.lock .tasks (.call c) =
        some { s with mutexes := s.mutexes.assign .tasks (some (.call c)) } :=
      lock_of_free (free_of_wants hfree (by rw [hx]; rfl))
    refine go (neutral_locked .tasks (.call c)) .sizeTest ?_ (by simp [CallPlace.weight])
    simp only [System.commitStep, hlock, Option.map_some]
  | sizeTest =>
    by_cases hroom : s.pool.tasks.length < cfg.maxTaskSize
    · refine go neutral_refl .emplace ?_ (by simp [CallPlace.weight])
      simp only [System.commitStep, if_pos hroom]
    · refine go neutral_refl (.adding (.check 1)) ?_ (by simp [CallPlace.weight, AddPlace.weight])
      simp only [System.commitStep, if_neg hroom]
  | adding a => exact adding_moves h hx hfree
  | emplace =>
    have hpush : (s.push c).weight r = s.weight r + 7 := by
      simp only [System.weight, System.push, List.length_append, List.length_singleton]
      omega
    refine moves_call {} rfl hhalted hx rfl (lighter_call hx rfl rfl rfl Iff.rfl ?_)
    simp only [hpush, CallPlace.weight]
    omega
  | unlock =>
    exact go (neutral_unlock .tasks) .notify rfl (by simp [CallPlace.weight])
  | notify =>
    by_cases hparked : s.workers.any (fun w => w.place == .parked) = true
    · -- one of those that wait is woken
      obtain ⟨w, hw, hplace⟩ := List.any_eq_true.mp hparked
      obtain ⟨k, hk⟩ := List.getElem?_of_mem hw
      have hk : s.placeOf (.worker k) = .worker .parked :=
        System.placeOf_worker_iff.mpr ⟨w, hk, by simpa using hplace⟩
      have hweight := weight_goWorker (r := r) hk .woken
      have hstep : s.commitStep cfg B { waiter := k } c .notify =
          some ((s.goWorker k .woken).goCall c .returned) := by
        simp only [System.commitStep, System.notifyTask, hparked, System.workerAt_iff.mpr hk,
          if_true, Option.map_some]
      refine moves_call { waiter := k } rfl hhalted hx hstep
        (lighter_call hx rfl rfl rfl Iff.rfl ?_)
      have hle : WorkerPlace.woken.weight r ≤ WorkerPlace.parked.weight r := by
        cases r with
        | _ => simp [WorkerPlace.weight]
      simp only [CallPlace.weight]
      omega
    · refine go neutral_refl .returned ?_ (by simp [CallPlace.weight])
      simp only [System.commitStep, System.notifyTask, hparked, Bool.false_eq_true, if_false,
        Option.map_some]
  | unwind =>
    exact go (neutral_unlock .tasks) .threw rfl (by simp [CallPlace.weight])

/-! ### The monitor -/

/-- The monitor goes on to a lighter place. -/
theorem lighter_monitor {y : MonitorPlace}
    (hworkers : (s₁.workers.map fun w => w.place.weight r).sum =
      (s.workers.map fun w => w.place.weight r).sum)
    (hcalls : s₁.calls = s.calls) (htasks : s₁.pool.tasks = s.pool.tasks)
    (hhalted : s₁.halted = s.halted) (howner : s₁.owner = s.owner)
    (hrunning : s₁.board.status = .running ↔ s.board.status = .running)
    (hlt : y.weight s₁.pool.monitorThreadFree.length <
      s.monitor.weight s.pool.monitorThreadFree.length) : Lighter r s (s₁.goMonitor y) := by
  refine ⟨?_, hhalted, howner, hrunning⟩
  simp only [System.weight, System.goMonitor, hworkers, hcalls, htasks]
  omega

theorem weight_markJoined {k : Nat} {x : WorkerPlace} (hx : s.placeOf (.worker k) = .worker x) :
    ((s.markJoined k).workers.map fun w => w.place.weight r).sum =
      (s.workers.map fun w => w.place.weight r).sum := by
  obtain ⟨w, hw, rfl⟩ := System.placeOf_worker_iff.mp hx
  have hsum : ((s.markJoined k).workers.map fun w => w.place.weight r).sum + w.place.weight r =
      (s.workers.map fun w => w.place.weight r).sum + w.place.weight r := sum_modify _ _ hw
  omega

/-- **A monitor at work that waits for nobody goes on.** -/
theorem monitor_moves (h : Ready cfg B r s) (hbusy : s.monitor.guards ≠ [])
    (hfree : ∀ q, ¬ WaitsFor s .monitor q) : Moves cfg B r s := by
  have hthreads := h.inv.life.threads
  have go {s₁ : System} (hs₁ : Neutral r s s₁)
      (hlist : s₁.pool.monitorThreadFree = s.pool.monitorThreadFree)
      (htasks : s₁.pool.tasks = s.pool.tasks) (y : MonitorPlace)
      (hstep : s.monitorStep B s.monitor = some (s₁.goMonitor y))
      (hlt : y.weight s.pool.monitorThreadFree.length <
        s.monitor.weight s.pool.monitorThreadFree.length) : Moves cfg B r s := by
    refine moves_monitor h.halted hbusy hstep (lighter_monitor ?_ hs₁.calls htasks hs₁.halted
      hs₁.owner hs₁.running ?_)
    · rw [hs₁.workers]
    · rw [hlist]
      exact hlt
  cases hx : s.monitor with
  | absent => rw [hx] at hbusy; exact absurd rfl hbusy
  | starting => rw [hx] at hbusy; exact absurd rfl hbusy
  | lock => rw [hx] at hbusy; exact absurd rfl hbusy
  | parked => rw [hx] at hbusy; exact absurd rfl hbusy
  | woken => rw [hx] at hbusy; exact absurd rfl hbusy
  | ended => rw [hx] at hbusy; exact absurd rfl hbusy
  | statusTest =>
    rw [hx] at go
    by_cases hquit : s.pool.status ≠ .running
    · refine go neutral_refl rfl rfl .leave ?_ ?_
      · simp only [System.monitorStep, if_pos hquit]
      · simp only [MonitorPlace.weight]
        omega
    · refine go neutral_refl rfl rfl .test ?_ (by simp [MonitorPlace.weight])
      simp only [System.monitorStep, if_neg hquit]
  | test =>
    rw [hx] at go
    by_cases hnone : s.pool.monitorThreadFree = []
    · refine go (neutral_unlock .monitor) rfl rfl .parked ?_ (by simp [MonitorPlace.weight])
      simp only [System.monitorStep, if_pos hnone]
    · refine go neutral_refl rfl rfl .reap ?_ (by simp [MonitorPlace.weight])
      simp only [System.monitorStep, if_neg hnone]
  | reap =>
    rw [hx] at go
    by_cases hnone : s.pool.monitorThreadFree = []
    · refine go neutral_refl rfl rfl .unlock ?_ ?_
      · simp only [System.monitorStep, if_pos hnone]
      · simp only [MonitorPlace.weight]
        omega
    · refine go neutral_refl rfl rfl .lockPool ?_ (by simp [MonitorPlace.weight])
      simp only [System.monitorStep, if_neg hnone]
  | lockPool =>
    have hlock : s.lock .pool .monitor =
        some { s with mutexes := s.mutexes.assign .pool (some .monitor) } := by
      refine lock_of_free (free_of_wants hfree ?_)
      show s.monitor.wants = some .pool
      rw [hx]
      rfl
    rw [hx] at go
    refine go (neutral_locked .pool .monitor) rfl rfl .find ?_ (by simp [MonitorPlace.weight])
    simp only [System.monitorStep, hlock, Option.map_some]
  | find =>
    -- it finds a thread that nobody has joined
    obtain ⟨n, hg⟩ := hthreads.reaped
    obtain ⟨tid, rest, k, hlist, hsearch, hmem, hretired⟩ := hg.reaping.finds hthreads hx
    obtain ⟨l, hl, hout⟩ := hthreads.retirement.gone k hretired
    have hjoined : s.roster.joined k = false := by
      by_contra hjoined
      have hreaps : s.reaps = true := by rw [System.reaps, hx]
      have hjoining := h.inv.separate hreaps k ⟨hmem, hretired⟩ (by simpa using hjoined)
      rw [hx] at hjoining
      cases hjoining
    have hjoin : s.join B k = .ok (s.markJoined k) := join_of_out hthreads.threads hl hout hjoined
    obtain ⟨x, hk⟩ := System.built_iff.mp (hthreads.threads.bound k hmem)
    have hstep : s.monitorStep B s.monitor = some ((s.markJoined k).goMonitor (.joining k)) := by
      rw [hx]
      simp only [System.monitorStep, hlist, hsearch, hjoin]
    refine moves_monitor h.halted hbusy hstep
      (lighter_monitor (weight_markJoined hk) rfl rfl rfl rfl Iff.rfl ?_)
    rw [hx]
    show 3 + 5 * s.pool.monitorThreadFree.length < 4 + 5 * s.pool.monitorThreadFree.length
    omega
  | joining k =>
    have hended : s.placeOf (.worker k) = .worker .ended := by
      by_contra hruns
      exact hfree _ (.monitorJoin hx hruns)
    have hstep : s.monitorStep B s.monitor = some ((s.eraseThread k).goMonitor .unlockPool) := by
      rw [hx]
      simp only [System.monitorStep, System.workerAt_iff.mpr hended, if_true]
    refine moves_monitor h.halted hbusy hstep (lighter_monitor rfl rfl rfl rfl rfl Iff.rfl ?_)
    rw [hx]
    show 2 + 5 * s.pool.monitorThreadFree.length < 3 + 5 * s.pool.monitorThreadFree.length
    omega
  | unlockPool =>
    have howed : s.pool.monitorThreadFree ≠ [] := hthreads.pending (by rw [hx]; rfl)
    have hpos := List.length_pos_iff.mpr howed
    have hstep : s.monitorStep B s.monitor = some ((s.eraseFree.unlock .pool).goMonitor .reap) := by
      rw [hx]
      rfl
    refine moves_monitor h.halted hbusy hstep (lighter_monitor rfl rfl rfl rfl rfl Iff.rfl ?_)
    have hless : (s.eraseFree.unlock .pool).pool.monitorThreadFree.length =
        s.pool.monitorThreadFree.length - 1 := List.length_tail
    rw [hx, hless]
    simp only [MonitorPlace.weight]
    omega
  | unlock =>
    rw [hx] at go
    exact go (neutral_unlock .monitor) rfl rfl .lock rfl (by simp [MonitorPlace.weight])
  | leave =>
    rw [hx] at go
    exact go (neutral_unlock .monitor) rfl rfl .ended rfl (by simp [MonitorPlace.weight])

end TurboNet.Base
