/-
# TurboNet.Base.PoolCounters — the two counters and the workers they count.

`now_thread_num_` was followed in `PoolCounts`.  `idle_thread_num_` is moved by the same parties and
by every worker around a task, under no lock there; but each move is one atomic step of one worker,
so the counter is the number of workers between their moves (`IdleCount`).  What is counted idle is
counted, or about to be, which gives the bound and leaves no decrement at 0.
-/
import TurboNet.Base.PoolWakeups

namespace TurboNet.Base

open TurboNet.Lib
open TurboNet.Logger (Build Halt)

variable {cfg : Config} {B : Build} {env : Env} {s s' : System}

/-- Is the party a worker in `idle_thread_num_`? -/
def Place.idle : Place → Bool
  | .worker x => x.idle
  | _ => false

/-! ## Idle workers -/

theorem idle_le (hs : Order s) (hc : Counts cfg s) :
    (s.workersWhere Place.idle).ncard ≤ cfg.maxPoolSize := by
  have hfinite : s.countedWorkers.Finite := s.finite_workersWhere rfl
  by_cases hidled : ∃ k, s.placeOf (.worker k) = .worker .idled
  · -- one thread is being added, and it has its room
    obtain ⟨k, hk⟩ := hidled
    have hsub : s.workersWhere Place.idle ⊆ insert k s.countedWorkers := by
      intro j hj
      rcases s.placeOf_worker j with habsent | ⟨x, hx⟩
      · have hj : (s.placeOf (.worker j)).idle = true := hj
        rw [habsent] at hj
        cases hj
      · have hj : (s.placeOf (.worker j)).idle = true := hj
        by_cases hcounted : x.role.counted = true
        · right
          show (s.placeOf (.worker j)).counted = true
          rw [hx]
          exact hcounted
        · left
          rw [hx] at hj
          have hxidled : x = .idled := by
            cases x with
            | idled => rfl
            | built => cases hj
            | retireLock => cases hj
            | handOver => cases hj
            | retireUnlock => cases hj
            | leave => cases hj
            | ended => cases hj
            | _ => exact absurd rfl hcounted
          subst hxidled
          exact hs.building_unique hx rfl hk rfl
    have hroom := hc.room k .idled hk rfl
    have hnow := hc.now
    have hcard := Set.ncard_le_ncard hsub (hfinite.insert k)
    have hinsert := Set.ncard_insert_le k s.countedWorkers
    omega
  · have hsub : s.workersWhere Place.idle ⊆ s.countedWorkers := by
      intro j hj
      have hj : (s.placeOf (.worker j)).idle = true := hj
      show (s.placeOf (.worker j)).counted = true
      rcases s.placeOf_worker j with habsent | ⟨x, hx⟩
      · rw [habsent] at hj
        cases hj
      · rw [hx] at hj ⊢
        cases x with
        | idled => exact absurd ⟨j, hx⟩ hidled
        | built => cases hj
        | retireLock => cases hj
        | handOver => cases hj
        | retireUnlock => cases hj
        | leave => cases hj
        | ended => cases hj
        | _ => rfl
    have hcard := Set.ncard_le_ncard hsub hfinite
    have hbound := hc.bound
    have hnow := hc.now
    unfold System.countedWorkers at hcard hnow
    omega

/-- The counter is right. -/
def IdleCount (s : System) : Prop := s.roster.idle = (s.workersWhere Place.idle).ncard

theorem IdleCount.congr (hi : IdleCount s) (hidle : s'.roster.idle = s.roster.idle)
    (h : ∀ j, (s'.placeOf (.worker j)).idle = (s.placeOf (.worker j)).idle) : IdleCount s' := by
  have hcard := congrArg Set.ncard (workersWhere_congr h)
  show s'.roster.idle = (s'.workersWhere Place.idle).ncard
  rw [hidle, hcard]
  exact hi

/-- A worker that stays idle, or stays not idle. -/
theorem IdleCount.move {k : Nat} {x y : WorkerPlace} (hi : IdleCount s)
    (hmove : Move s s' (.worker k) (.worker x) (.worker y) none)
    (hroster : s'.roster.idle = s.roster.idle) (hidle : y.idle = x.idle) : IdleCount s' := by
  apply hi.congr hroster
  intro j
  by_cases hj : j = k
  · rw [hj, hmove.before, hmove.after]
    exact hidle
  · rw [hmove.worker_others j hj]

/-- `--idle_thread_num_`. -/
theorem IdleCount.dec (hs : Order s) (hc : Counts cfg s) (hi : IdleCount s) {k : Nat}
    {x y : WorkerPlace} (hmove : Move s s' (.worker k) (.worker x) (.worker y) none)
    (hroster : s'.roster.idle = usub 32 s.roster.idle 1) (hx : x.idle = true)
    (hy : y.idle = false) : IdleCount s' := by
  have hcard : (s'.workersWhere Place.idle).ncard + 1 = (s.workersWhere Place.idle).ncard := by
    apply ncard_uncount (k := k) rfl
    · rw [hmove.before]
      exact hx
    · rw [hmove.after]
      exact hy
    · exact fun j hj => by rw [hmove.worker_others j hj]
  have hidle : s.roster.idle = _ := hi
  have hbound := idle_le hs hc
  have hmax := cfg.maxPoolSize_lt
  have hsub : s'.roster.idle = s.roster.idle - 1 := by
    rw [hroster]
    apply usub_of_le
    · omega
    · omega
  show s'.roster.idle = _
  omega

/-- `++idle_thread_num_`, by a worker or for one. -/
theorem IdleCount.inc (hi : IdleCount s) (hs' : Order s') (hc' : Counts cfg s') {k : Nat}
    {z z' : Place} (hbefore : s.placeOf (.worker k) = z) (hafter : s'.placeOf (.worker k) = z')
    (hroster : s'.roster.idle = uadd 32 s.roster.idle 1) (hz : z.idle = false)
    (hz' : z'.idle = true)
    (hothers : ∀ j, j ≠ k → s'.placeOf (.worker j) = s.placeOf (.worker j)) : IdleCount s' := by
  have hcard : (s'.workersWhere Place.idle).ncard = (s.workersWhere Place.idle).ncard + 1 := by
    apply ncard_count (k := k) rfl
    · rw [hbefore]
      exact hz
    · rw [hafter]
      exact hz'
    · exact fun j hj => by rw [hothers j hj]
  have hidle : s.roster.idle = _ := hi
  have hbound := idle_le hs' hc'
  have hmax := cfg.maxPoolSize_lt
  have hadd : s'.roster.idle = s.roster.idle + 1 := by
    rw [hroster]
    apply uadd_of_lt
    omega
  show s'.roster.idle = _
  omega

theorem idle_init : IdleCount System.init := by
  have hempty : System.init.workersWhere Place.idle = ∅ := by
    ext k
    simp [System.workersWhere, System.init, System.placeOf, Place.idle]
  show 0 = (System.init.workersWhere Place.idle).ncard
  rw [hempty, Set.ncard_empty]

theorem idle_turn (hs : Order s) (hc : Counts cfg s) (hi : IdleCount s) {act : Act}
    (h : Turn cfg s s' act) : IdleCount s' := by
  have hs' := order_turn hs h
  have hc' := counts_turn hs hc h
  cases h with
  | @worker _ k x y hmove hturn hstir =>
    generalize hr : s.roster = r at hstir
    generalize hr' : s'.roster = r' at hstir
    cases hstir with
    | decIdle _ hx hy => exact hi.dec hs hc hmove (by rw [hr, hr']) hx hy
    | incIdle =>
      exact hi.inc hs' hc' hmove.before hmove.after (by rw [hr, hr']) rfl rfl hmove.worker_others
    | quiet _ hidle => exact hi.move hmove (by rw [hr, hr']) hidle
    | park => exact hi.move hmove (by rw [hr, hr']) rfl
    | resume hx =>
      refine hi.move hmove (by rw [hr, hr']) ?_
      rcases hx with rfl | rfl
      · rfl
      · rfl
    | handOver => exact hi.move hmove (by rw [hr, hr']) rfl
    | pass => exact hi.move hmove (by rw [hr, hr']) rfl
    | quit => exact hi.move hmove (by rw [hr, hr']) rfl
    | leave => exact hi.move hmove (by rw [hr, hr']) rfl
  | call hmove _ hroster =>
    exact hi.congr (by rw [hroster]) fun j => by rw [hmove.workers_kept (by simp)]
  | @notify _ c k hmove hparked hwoken _ hroster =>
    apply hi.congr (by rw [hroster])
    intro j
    by_cases hj : j = k
    · rw [hj, hparked, hwoken]
      rfl
    · rw [hmove.others _ (by simp) (by simp) (by simpa using hj)]
  | notifyNone hmove _ _ hroster =>
    exact hi.congr (by rw [hroster]) fun j => by rw [hmove.workers_kept (by simp)]
  | owner hmove _ _ hstir =>
    have hidle : s'.roster.idle = s.roster.idle := by
      generalize s.roster = r at hstir
      generalize s'.roster = r' at hstir
      cases hstir with
      | _ => rfl
    exact hi.congr hidle fun j => by rw [hmove.workers_kept (by simp)]
  | notifyAll _ _ hworkers _ _ _ _ hroster =>
    exact hi.congr (by rw [hroster]) fun j => woken_same Place.idle (hworkers j) rfl
  | @grow _ p k size a a' z z' hp hmove hbefore hafter hgrowth hstir =>
    have hothers := hmove.grow_others hp
    have hkept (hroster : s'.roster.idle = s.roster.idle) (hz : z'.idle = z.idle) :
        IdleCount s' := by
      apply hi.congr hroster
      intro j
      by_cases hj : j = k
      · rw [hj, hafter, hbefore]
        exact hz
      · rw [hothers j hj]
    generalize s.board = b at hgrowth
    generalize s'.board = b' at hgrowth
    generalize hr : s.roster = r at hstir
    generalize hr' : s'.roster = r' at hstir
    cases hgrowth with
    | countIdle =>
      cases hstir with
      | countIdle => exact hi.inc hs' hc' hbefore hafter (by rw [hr, hr']) rfl rfl hothers
    | build =>
      cases hstir with
      | build => exact hkept (by rw [hr, hr']) rfl
    | countNow =>
      cases hstir with
      | countNow => exact hkept (by rw [hr, hr']) rfl
    | start =>
      cases hstir with
      | start => exact hkept (by rw [hr, hr']) rfl
    | fail =>
      cases hstir with
      | fail => exact hkept (by rw [hr, hr']) rfl
  | monitor hmove _ hstir =>
    have hidle : s'.roster.idle = s.roster.idle := by
      generalize s.roster = r at hstir
      generalize s'.roster = r' at hstir
      cases hstir with
      | _ => rfl
    exact hi.congr hidle fun j => by rw [hmove.workers_kept (by simp)]
  | commit _ hmove _ hroster =>
    exact hi.congr (by rw [hroster]) fun j => by rw [hmove.workers_kept (by simp)]
  | shutDown hplaces _ _ hroster => exact hi.congr (by rw [hroster]) fun _ => by rw [hplaces]
  | still hplaces _ _ hroster => exact hi.congr (by rw [hroster]) fun _ => by rw [hplaces]

/-! ## The counters of a pool -/

/-- Only `ShutDown` ends `TPS_RUNNING`. -/
theorem status_kept (hst : Staffed cfg s) {act : Act} (h : Turn cfg s s' act)
    (hact : ∀ caller, act ≠ .shutDown caller) (hrunning : s.board.status = .running) :
    s'.board.status = .running := by
  cases status_cases h with
  | kept hkept => exact hkept.trans hrunning
  | shutDown heq => exact absurd heq (hact _)
  | @terminated k hquits => exact absurd hrunning (hst.quitting k _ hquits rfl)

/-- Is the call of `ShutDown` one of these steps? -/
def Act.isShutDown : Act → Bool
  | .shutDown _ => true
  | _ => false

/-- What the counters of a pool say about its workers.  `running` tells whether `ShutDown` has not
been called yet. -/
structure CountersTrack (cfg : Config) (running : Prop) (s : System) : Prop where
  /-- The workers after their `++now_thread_num_` in `AddThread` and before their exit's
  `--now_thread_num_`. -/
  now : s.pool.nowThreadNum = s.workers.countP fun w => w.place.role.counted
  /-- The workers after their `++idle_thread_num_` in `AddThread`, outside a task and before their
  exit's `--idle_thread_num_`. -/
  idle : s.pool.idleThreadNum = s.workers.countP fun w => w.place.idle
  now_pos : ∀ w ∈ s.workers, w.place = .retireNow ∨ w.place = .quitNow → 0 < s.pool.nowThreadNum
  idle_pos : ∀ w ∈ s.workers,
    w.place = .retireIdle ∨ w.place = .quitIdle ∨ (∃ t, w.place = .beginTask t) →
      0 < s.pool.idleThreadNum
  now_le : s.pool.nowThreadNum ≤ cfg.maxPoolSize
  idle_le : s.pool.idleThreadNum ≤ cfg.maxPoolSize
  core : running → s.owner.constructing = false → cfg.corePoolSize ≤ s.pool.nowThreadNum

theorem StaffInv.countersTrack (hinv : StaffInv cfg s) (hi : IdleCount s) {running : Prop}
    (hsizes : cfg.corePoolSize ≤ cfg.maxPoolSize)
    (hrunning : running → s.pool.status = .running) : CountersTrack cfg running s := by
  have hnow : s.pool.nowThreadNum = s.workers.countP fun w => w.place.role.counted :=
    hinv.pool.counts.now.trans (ncard_workersWhere s rfl)
  have hidle : s.pool.idleThreadNum = s.workers.countP fun w => w.place.idle :=
    Eq.trans hi (ncard_workersWhere s rfl)
  refine ⟨hnow, hidle, ?_, ?_, hinv.pool.counts.bound, ?_, ?_⟩
  · intro w hw hplace
    rw [hnow, List.countP_pos_iff]
    refine ⟨w, hw, ?_⟩
    rcases hplace with hplace | hplace
    · rw [hplace]
      rfl
    · rw [hplace]
      rfl
  · intro w hw hplace
    rw [hidle, List.countP_pos_iff]
    refine ⟨w, hw, ?_⟩
    rcases hplace with hplace | hplace | ⟨t, hplace⟩
    · rw [hplace]
      rfl
    · rw [hplace]
      rfl
    · rw [hplace]
      rfl
  · exact (Eq.le hi).trans (idle_le hinv.pool.order hinv.pool.counts)
  · intro hrun hphase
    have hcore := hinv.staffed.core (hrunning hrun)
    rw [OwnerPlace.remaining_eq_zero hphase] at hcore
    have hleast : cfg.atLeast = cfg.corePoolSize := Nat.min_eq_left hsizes
    show cfg.corePoolSize ≤ s.board.now
    omega

/-- **The counters track the workers**, in every state of a pool whose core fits and whose threads
can be created. -/
theorem counters_track (cfg : Config) (B : Build) (hsizes : cfg.corePoolSize ≤ cfg.maxPoolSize)
    (acts : List Act) {s : System} (hrun : (poolRuns cfg B).exec System.init acts = some s)
    (hcreates : (poolRuns cfg B).Along Creates System.init acts) :
    CountersTrack cfg (∀ act ∈ acts, act.isShutDown = false) s := by
  have hinv : StaffInv cfg s ∧ IdleCount s := by
    apply StepSystem.exec_invariant_along ?_ ⟨staffInv_init, idle_init⟩ hcreates hrun
    rintro t act t' ⟨hinv, hi⟩ hact hstep
    have hturn := step_turn hinv.pool.order.frames hstep
    exact ⟨staffInv_step hinv hact hstep, idle_turn hinv.pool.order hinv.pool.counts hi hturn⟩
  refine hinv.1.countersTrack hinv.2 hsizes fun hnone => ?_
  -- no step of the run is a call of `ShutDown`
  have halong := StepSystem.along_and hcreates
    (StepSystem.along_of_mem (C := fun act => act.isShutDown = false) hnone System.init)
  have hkept : StaffInv cfg s ∧ s.board.status = .running := by
    apply StepSystem.exec_invariant_along ?_ ⟨staffInv_init, rfl⟩ halong hrun
    rintro t act t' ⟨hinv, hrunning⟩ ⟨hact, hnot⟩ hstep
    have hturn := step_turn hinv.pool.order.frames hstep
    refine ⟨staffInv_step hinv hact hstep, status_kept hinv.staffed hturn ?_ hrunning⟩
    rintro caller rfl
    cases hnot
  exact hkept.2

/-- One worker in a task, one that was added and has taken the next one. -/
theorem counters_track_two :
    ∃ s, (poolRuns oneOrTwo .debug).exec System.init
      (growAndPark ++ [.commit .external] ++ steps (.call 1) 10 ++ steps (.worker 0) 5) = some s ∧
      s.pool.nowThreadNum = 2 ∧ s.pool.idleThreadNum = 1 ∧
      CountersTrack oneOrTwo (∀ act ∈ growAndPark ++ [.commit .external] ++ steps (.call 1) 10 ++
        steps (.worker 0) 5, act.isShutDown = false) s := by
  have hend : ((poolRuns oneOrTwo .debug).exec System.init
      (growAndPark ++ [.commit .external] ++ steps (.call 1) 10 ++ steps (.worker 0) 5)).map
        (fun s => (s.pool.nowThreadNum, s.pool.idleThreadNum)) = some (2, 1) := by
    decide +kernel
  obtain ⟨s, hrun, hend⟩ := Option.map_eq_some_iff.mp hend
  obtain ⟨hnow, hidle⟩ := Prod.mk.inj hend
  exact ⟨s, hrun, hnow, hidle,
    counters_track oneOrTwo .debug (by decide) _ hrun (by decide +kernel)⟩

end TurboNet.Base
