/-
# TurboNet.Base.PoolCounts — `now_thread_num_` counts the workers.

A worker is counted from `++now_thread_num_` in `AddThread` to `--now_thread_num_` on its way out.
The bound `kMaxPoolSize_` is tested before a thread is built and the counter is raised two steps
later; `Counts` says that the room is still there by then, because threads are added one at a time.
-/
import Mathlib.Data.Set.Card
import TurboNet.Base.PoolLocks

namespace TurboNet.Base

open TurboNet.Lib

variable {cfg : Config} {env : Env} {s s' : System}

/-- Is the party a worker that is counted? -/
def Place.counted : Place → Bool
  | .worker x => x.role.counted
  | _ => false

/-- The workers at the places `f` tells. -/
def System.workersWhere (s : System) (f : Place → Bool) : Set Nat :=
  {k | f (s.placeOf (.worker k)) = true}

/-- The workers in `now_thread_num_`. -/
def System.countedWorkers (s : System) : Set Nat := s.workersWhere Place.counted

theorem System.finite_workersWhere (s : System) {f : Place → Bool} (hf : f .absent = false) :
    (s.workersWhere f).Finite := by
  apply Set.Finite.subset (Set.finite_lt_nat s.workers.length)
  intro k hk
  by_contra hlt
  have habsent : s.placeOf (.worker k) = .absent := by
    simp only [placeOf]
    rw [List.getElem?_eq_none (Nat.le_of_not_lt hlt)]
  have hcounted : f (s.placeOf (.worker k)) = true := hk
  rw [habsent, hf] at hcounted
  cases hcounted

/-- The counter is right and within its bound, and a thread that is built has its room. -/
structure Counts (cfg : Config) (s : System) : Prop where
  now : s.board.now = s.countedWorkers.ncard
  bound : s.board.now ≤ cfg.maxPoolSize
  room : ∀ k x, s.placeOf (.worker k) = .worker x → x.role = .building →
    s.board.now < cfg.maxPoolSize

/-! ## Counting -/

theorem workersWhere_congr {f : Place → Bool}
    (h : ∀ j, f (s'.placeOf (.worker j)) = f (s.placeOf (.worker j))) :
    s'.workersWhere f = s.workersWhere f := by
  unfold System.workersWhere
  simp only [h]

/-- A worker that is counted before the step and not after it is one less. -/
theorem ncard_uncount {f : Place → Bool} (hf : f .absent = false) {k : Nat}
    (hk : f (s.placeOf (.worker k)) = true) (hk' : f (s'.placeOf (.worker k)) = false)
    (hothers : ∀ j, j ≠ k → f (s'.placeOf (.worker j)) = f (s.placeOf (.worker j))) :
    (s'.workersWhere f).ncard + 1 = (s.workersWhere f).ncard := by
  have hset : s'.workersWhere f = s.workersWhere f \ {k} := by
    ext j
    by_cases hj : j = k
    · subst hj
      simp [System.workersWhere, hk']
    · simp [System.workersWhere, hothers j hj, hj]
  rw [hset]
  exact Set.ncard_sdiff_singleton_add_one hk (s.finite_workersWhere hf)

theorem ncard_count {f : Place → Bool} (hf : f .absent = false) {k : Nat}
    (hk : f (s.placeOf (.worker k)) = false) (hk' : f (s'.placeOf (.worker k)) = true)
    (hothers : ∀ j, j ≠ k → f (s'.placeOf (.worker j)) = f (s.placeOf (.worker j))) :
    (s'.workersWhere f).ncard = (s.workersWhere f).ncard + 1 :=
  (ncard_uncount hf hk' hk fun j hj => (hothers j hj).symm).symm

/-- Counting the entries of the list of workers. -/
theorem ncard_workersWhere (s : System) {f : Place → Bool} (hf : f .absent = false) :
    (s.workersWhere f).ncard = s.workers.countP fun w => f (.worker w.place) := by
  have hset (workers : List Worker) : {k : Nat | (workers[k]?).any (fun w => f (.worker w.place)) =
      true}.ncard = workers.countP fun w => f (.worker w.place) := by
    induction workers with
    | nil => simp
    | cons w workers ih =>
      -- the entry at 0, and the others one further
      rw [List.countP_cons, ← ih]
      have hsplit : {k : Nat | ((w :: workers)[k]?).any (fun w => f (.worker w.place)) = true} =
          (if f (.worker w.place) = true then {0} else ∅) ∪
            Nat.succ '' {k : Nat | (workers[k]?).any (fun w => f (.worker w.place)) = true} := by
        ext k
        cases k with
        | zero => by_cases hw : f (.worker w.place) = true <;> simp [hw]
        | succ k => by_cases hw : f (.worker w.place) = true <;> simp [hw]
      have hfinite : {k : Nat | (workers[k]?).any (fun w => f (.worker w.place)) = true}.Finite := by
        apply Set.Finite.subset (Set.finite_lt_nat workers.length)
        intro k hk
        by_contra hlt
        have hk : (workers[k]?).any (fun w => f (.worker w.place)) = true := hk
        rw [List.getElem?_eq_none (Nat.le_of_not_lt hlt)] at hk
        cases hk
      rw [hsplit, Set.ncard_union_eq ?_ ?_ (hfinite.image _), Set.ncard_image_of_injective _
        Nat.succ_injective]
      · by_cases hw : f (.worker w.place) = true
        · simp [hw, Nat.add_comm]
        · simp [hw]
      · rw [Set.disjoint_left]
        rintro k hk ⟨j, -, rfl⟩
        split at hk
        · cases hk
        · exact hk
      · split
        · exact Set.finite_singleton 0
        · exact Set.finite_empty
  rw [← hset s.workers]
  congr 1
  ext k
  show f (s.placeOf (.worker k)) = true ↔ _
  simp only [System.placeOf, Set.mem_ofPred_eq]
  cases s.workers[k]? with
  | none => simp [hf]
  | some w => simp

/-- A move of a party that is no worker leaves the workers where they are. -/
theorem Move.workers_kept {p : Party} {x y : Place} (h : Move s s' p x y none)
    (hp : ∀ k, p ≠ .worker k) (k : Nat) : s'.placeOf (.worker k) = s.placeOf (.worker k) :=
  h.others _ (hp k).symm (by simp) (by simp)

theorem Move.worker_others {k : Nat} {x y : Place} (h : Move s s' (.worker k) x y none) (j : Nat)
    (hj : j ≠ k) : s'.placeOf (.worker j) = s.placeOf (.worker j) :=
  h.others _ (by simpa using hj) (by simp) (by simp)

theorem Counts.congr (hc : Counts cfg s) (hboard : s'.board.now = s.board.now)
    (h : ∀ k, s'.placeOf (.worker k) = s.placeOf (.worker k)) : Counts cfg s' where
  now := by
    rw [hboard, hc.now]
    exact congrArg Set.ncard (workersWhere_congr fun j => by rw [h]).symm
  bound := hboard ▸ hc.bound
  room := fun k x hx => by
    rw [hboard]
    exact hc.room k x ((h k).symm.trans hx)

/-- A worker that stays counted, or not counted, and is not built by the move. -/
theorem Counts.change (hc : Counts cfg s) {k : Nat} {z : Place} {y : WorkerPlace}
    (hboard : s'.board.now = s.board.now) (hz : s.placeOf (.worker k) = z)
    (hy : s'.placeOf (.worker k) = .worker y) (hcounted : y.role.counted = z.counted)
    (hroom : y.role = .building → s.board.now < cfg.maxPoolSize)
    (hothers : ∀ j, j ≠ k → s'.placeOf (.worker j) = s.placeOf (.worker j)) : Counts cfg s' where
  now := by
    rw [hboard, hc.now]
    refine congrArg Set.ncard (workersWhere_congr fun j => ?_).symm
    by_cases hj : j = k
    · subst hj
      rw [hy, hz]
      exact hcounted
    · rw [hothers j hj]
  bound := hboard ▸ hc.bound
  room := fun j x hx hbuilding => by
    rw [hboard]
    by_cases hj : j = k
    · subst hj
      rw [hy] at hx
      cases hx
      exact hroom hbuilding
    · exact hc.room j x ((hothers j hj).symm.trans hx) hbuilding

/-- `--now_thread_num_`. -/
theorem Counts.uncount (hc : Counts cfg s) {k : Nat} {x y : WorkerPlace}
    (hx : s.placeOf (.worker k) = .worker x) (hy : s'.placeOf (.worker k) = .worker y)
    (hcounted : x.role.counted = true) (hgoing : y.role = .going)
    (hnow : s'.board.now = usub 32 s.board.now 1)
    (hothers : ∀ j, j ≠ k → s'.placeOf (.worker j) = s.placeOf (.worker j)) :
    Counts cfg s' ∧ s'.board.now + 1 = s.board.now := by
  have hcard : s'.countedWorkers.ncard + 1 = s.countedWorkers.ncard := by
    apply ncard_uncount (k := k) rfl ?_ ?_ fun j hj => by rw [hothers j hj]
    · rw [hx]
      exact hcounted
    · rw [hy]
      show y.role.counted = false
      rw [hgoing]
      rfl
  have hbound := hc.bound
  have hmax := cfg.maxPoolSize_lt
  have hnow₀ := hc.now
  have hsub : s'.board.now = s.board.now - 1 := by
    rw [hnow]
    apply usub_of_le
    · omega
    · omega
  refine ⟨⟨by omega, by omega, ?_⟩, by omega⟩
  intro j z hz hbuilding
  by_cases hj : j = k
  · subst hj
    rw [hy] at hz
    cases hz
    rw [hgoing] at hbuilding
    cases hbuilding
  · have hroom := hc.room j z ((hothers j hj).symm.trans hz) hbuilding
    omega

/-- A worker before its `Start` is the one that a call of `AddThread` takes care of. -/
theorem Order.building_unique (hs : Order s) {j k : Nat} {x y : WorkerPlace}
    (hx : s.placeOf (.worker j) = .worker x) (hfx : x.fresh = true)
    (hy : s.placeOf (.worker k) = .worker y) (hfy : y.fresh = true) : j = k := by
  obtain ⟨p, hp⟩ := (hs.frames j x hfx).mp hx
  obtain ⟨q, hq⟩ := (hs.frames k y hfy).mp hy
  have hpool : Mutex.pool ∈ (s.placeOf p).guards := Place.pool_of_target (by simp [hp])
  obtain rfl := hs.target_unique hpool (q := q) (by simp [hq])
  rw [hp] at hq
  cases hq
  rfl

theorem WorkerPlace.fresh_of_building {x : WorkerPlace} (h : x.role = .building) :
    x.fresh = true := by
  cases x with
  | built => rfl
  | idled => rfl
  | _ => cases h

/-- `++now_thread_num_`. -/
theorem Counts.count (hs : Order s) (hc : Counts cfg s) {k : Nat}
    (hx : s.placeOf (.worker k) = .worker .idled) (hy : s'.placeOf (.worker k) = .worker .counted)
    (hnow : s'.board.now = uadd 32 s.board.now 1)
    (hothers : ∀ j, j ≠ k → s'.placeOf (.worker j) = s.placeOf (.worker j)) :
    Counts cfg s' ∧ s'.board.now = s.board.now + 1 := by
  have hcard : s'.countedWorkers.ncard = s.countedWorkers.ncard + 1 := by
    apply ncard_count (k := k) rfl ?_ ?_ fun j hj => by rw [hothers j hj]
    · rw [hx]
      rfl
    · rw [hy]
      rfl
  have hroom := hc.room k .idled hx rfl
  have hmax := cfg.maxPoolSize_lt
  have hnow₀ := hc.now
  have hadd : s'.board.now = s.board.now + 1 := by
    rw [hnow]
    apply uadd_of_lt
    omega
  refine ⟨⟨by omega, by omega, ?_⟩, hadd⟩
  intro j z hz hbuilding
  exfalso
  by_cases hj : j = k
  · subst hj
    rw [hy] at hz
    cases hz
    cases hbuilding
  · -- no second thread is being added
    have hz := (hothers j hj).symm.trans hz
    exact hj (hs.building_unique hz (WorkerPlace.fresh_of_building hbuilding) hx rfl)

/-! ## The invariant -/

theorem counts_init : Counts cfg System.init where
  now := by
    have hempty : System.init.countedWorkers = ∅ := by
      ext k
      simp [System.countedWorkers, System.workersWhere, System.init, System.placeOf, Place.counted]
    rw [hempty, Set.ncard_empty]
    rfl
  bound := Nat.zero_le _
  room := fun k x hx => by simp [System.init, System.placeOf] at hx

theorem counts_turn {act : Act} (hs : Order s) (hc : Counts cfg s) (h : Turn cfg s s' act) :
    Counts cfg s' := by
  cases h with
  | @worker _ k x y hmove hturn =>
    generalize hb : s.board = b at hturn
    generalize hb' : s'.board = b' at hturn
    have hchange (hnow : s'.board.now = s.board.now) (hrole : y.role.counted = x.role.counted)
        (hgrown : y.role.grown = true) : Counts cfg s' := by
      apply hc.change hnow hmove.before hmove.after hrole ?_ hmove.worker_others
      intro hbuilding
      rw [hbuilding] at hgrown
      cases hgrown
    cases hturn with
    | quiet hrole hgrown =>
      exact hchange (by rw [hb, hb']) (by rw [hrole]) (by rw [hrole]; exact hgrown)
    | uncount hx hy =>
      have hcounted : x.role.counted = true := by
        rcases hx with hx | hx
        · rw [hx]
          rfl
        · rw [hx]
          rfl
      exact (hc.uncount hmove.before hmove.after hcounted hy (by rw [hb, hb'])
        hmove.worker_others).1
    | park => exact hchange (by rw [hb, hb']) rfl rfl
    | wake => exact hchange (by rw [hb, hb']) rfl rfl
    | timeOut => exact hchange (by rw [hb, hb']) rfl rfl
    | stay => exact hchange (by rw [hb, hb']) rfl rfl
    | retire => exact hchange (by rw [hb, hb']) rfl rfl
    | quit => exact hchange (by rw [hb, hb']) rfl rfl
    | terminate => exact hchange (by rw [hb, hb']) rfl rfl
    | leave => exact hchange (by rw [hb, hb']) rfl rfl
    | pop => exact hchange (by rw [hb, hb']) rfl rfl
    | finish => exact hchange (by rw [hb, hb']) rfl rfl
  | call hmove hturn =>
    generalize hb : s.board = b at hturn
    generalize hb' : s'.board = b' at hturn
    have hnow : s'.board.now = s.board.now := by
      cases hturn with
      | quiet => rw [hb, hb']
      | push => rw [hb, hb']
    exact hc.congr hnow (hmove.workers_kept (by simp))
  | @notify _ c k hmove hparked hwoken hboard =>
    apply hc.change (by rw [hboard]) hparked hwoken rfl (by simp [WorkerPlace.role])
    intro j hj
    exact hmove.others _ (by simp) (by simp) (by simpa using hj)
  | notifyNone hmove _ hboard => exact hc.congr (by rw [hboard]) (hmove.workers_kept (by simp))
  | owner hmove _ hboard => exact hc.congr (by rw [hboard]) (hmove.workers_kept (by simp))
  | monitor hmove hboard => exact hc.congr (by rw [hboard]) (hmove.workers_kept (by simp))
  | commit _ hmove hboard => exact hc.congr (by rw [hboard]) (hmove.workers_kept (by simp))
  | shutDown hplaces _ hboard => exact hc.congr (by rw [hboard]) fun _ => by rw [hplaces]
  | still hplaces _ hboard => exact hc.congr (by rw [hboard]) fun _ => by rw [hplaces]
  | notifyAll _ _ hworkers _ _ _ hboard =>
    refine ⟨?_, hboard ▸ hc.bound, ?_⟩
    · rw [hboard, hc.now]
      exact congrArg Set.ncard
        (workersWhere_congr fun j => woken_same Place.counted (hworkers j) rfl).symm
    · intro k x hx hbuilding
      rw [hworkers] at hx
      split at hx
      · cases hx
        cases hbuilding
      · rw [hboard]
        exact hc.room k x hx hbuilding
  | @grow _ p k size a a' z z' hp hmove hbefore hafter hgrowth =>
    have hothers := hmove.grow_others hp
    generalize hb : s.board = b at hgrowth
    generalize hb' : s'.board = b' at hgrowth
    cases hgrowth with
    | build hroom => exact hc.change (by rw [hb, hb']) hbefore hafter rfl (fun _ => hb ▸ hroom) hothers
    | countIdle =>
      exact hc.change (by rw [hb, hb']) hbefore hafter rfl (fun _ => hc.room k _ hbefore rfl) hothers
    | countNow => exact (hc.count hs hbefore hafter (by rw [hb, hb']) hothers).1
    | start =>
      exact hc.change (by rw [hb, hb']) hbefore hafter rfl (by simp [WorkerPlace.role]) hothers
    | fail =>
      exact hc.change (by rw [hb, hb']) hbefore hafter rfl (by simp [WorkerPlace.role]) hothers

/-! ## Who is left -/

/-- A counted worker on its way out holds `tasks_mutex_`. -/
theorem WorkerPlace.tasks_of_leaving {x : WorkerPlace} (hleaving : x.role.leaving = true)
    (hended : x ≠ .ended) : Mutex.tasks ∈ x.guards := by
  cases x with
  | ended => exact absurd rfl hended
  | retireIdle => exact List.mem_singleton.mpr rfl
  | retireNow => exact List.mem_singleton.mpr rfl
  | retireLock => exact List.mem_singleton.mpr rfl
  | handOver => exact List.mem_cons_of_mem _ (List.mem_singleton.mpr rfl)
  | retireUnlock => exact List.mem_cons_of_mem _ (List.mem_singleton.mpr rfl)
  | quitStatus => exact List.mem_singleton.mpr rfl
  | quitIdle => exact List.mem_singleton.mpr rfl
  | quitNow => exact List.mem_singleton.mpr rfl
  | leave => exact List.mem_singleton.mpr rfl
  | _ => cases hleaving

/-- While a party holds `tasks_mutex_` no other worker is on its way out. -/
theorem Order.not_leaving (hs : Order s) {p : Party} (hp : Mutex.tasks ∈ (s.placeOf p).guards)
    {j : Nat} (hj : p ≠ .worker j) {y : WorkerPlace} (hy : s.placeOf (.worker j) = .worker y)
    (hended : y ≠ .ended) : y.role.leaving = false := by
  by_contra hleaving
  rw [Bool.not_eq_false] at hleaving
  have htasks : Mutex.tasks ∈ (s.placeOf (.worker j)).guards := by
    rw [hy]
    exact WorkerPlace.tasks_of_leaving hleaving hended
  exact hj (hs.locks.exclusive hp htasks)

/-- The workers in the set are at a place. -/
theorem System.mem_countedWorkers {k : Nat} (h : k ∈ s.countedWorkers) :
    ∃ x, s.placeOf (.worker k) = .worker x ∧ x.role.counted = true := by
  have hk : (s.placeOf (.worker k)).counted = true := h
  cases hx : s.placeOf (.worker k) with
  | worker x =>
    rw [hx] at hk
    exact ⟨x, rfl, hk⟩
  | _ =>
    rw [hx] at hk
    cases hk

/-- **Somebody stays.** While a worker holds `tasks_mutex_` and more than one is counted, another
worker is counted and not on its way out. -/
theorem exists_staying (hs : Order s) (hc : Counts cfg s) {k : Nat}
    (hk : Mutex.tasks ∈ (s.placeOf (.worker k)).guards) (hnow : 1 < s.board.now) :
    ∃ j y, j ≠ k ∧ s.placeOf (.worker j) = .worker y ∧ y.role.counted = true ∧
      y.role.leaving = false := by
  rw [hc.now] at hnow
  obtain ⟨j, hj, hne⟩ := Set.exists_ne_of_one_lt_ncard hnow k
  obtain ⟨y, hy, hcounted⟩ := System.mem_countedWorkers hj
  refine ⟨j, y, hne, hy, hcounted, ?_⟩
  apply hs.not_leaving hk (by simpa using Ne.symm hne) hy
  rintro rfl
  cases hcounted

end TurboNet.Base
