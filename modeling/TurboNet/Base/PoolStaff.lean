/-
# TurboNet.Base.PoolStaff — a running pool has workers.

The constructor starts `kCorePoolSize_` threads, or as many as `kMaxPoolSize_` allows, and a worker
retires only while more than `kCorePoolSize_` are counted.  The test and the decrement lie apart, but
both are made under `tasks_mutex_`, so the count does not fall below the core in between
(`Staffed`).  With a core of at least one, and no thread that failed to start, there is always a
worker that serves the queue (`exists_serving`).
-/
import TurboNet.Base.PoolDrain

namespace TurboNet.Base

open TurboNet.Lib
open TurboNet.Logger (Build Halt)

variable {cfg : Config} {B : Build} {env : Env} {s s' : System}

/-! ## Who may call -/

/-- A thread of the program calls a pool that is constructed, a task one whose worker runs it. -/
theorem mayCall_cases {caller : Caller} (h : s.mayCall caller = true) :
    (caller = .external ∧ s.owner = .constructed) ∨
      ∃ k t, caller = .task k ∧ s.placeOf (.worker k) = .worker (.running t) ∧
        s.inCall k = false := by
  cases caller with
  | external => exact .inl ⟨rfl, by simpa [System.mayCall] using h⟩
  | task k =>
    right
    simp only [System.mayCall, Option.any_eq_true] at h
    obtain ⟨w, hw, hplace⟩ := h
    split at hplace
    · rename_i t hrunning
      refine ⟨k, t, rfl, System.placeOf_worker_iff.mpr ⟨w, hw, hrunning⟩, ?_⟩
      simpa using hplace
    · cases hplace

theorem Move.owner_kept {p : Party} {x y : Place} {also : Option Party} (h : Move s s' p x y also)
    (hp : p ≠ .owner) (halso : also ≠ some .owner) : s'.owner = s.owner :=
  Place.owner.inj (h.others .owner hp.symm (by simp) (Ne.symm halso))

/-- What a step does to the owner. -/
inductive OwnerCase (cfg : Config) (s s' : System) (act : Act) : Prop
  | same (h : s'.owner = s.owner)
  | turn {x y : OwnerPlace} (hx : s.owner = x) (hy : s'.owner = y) (h : OwnerTurn cfg s.board x y)
      (hboard : s'.board = s.board) (hstir : OwnerStir s x y s.roster s'.roster)
      (hclose : y.closing = x.closing ∨ x = .constructed ∧ s.ExternalsOver)
      (hact : (∃ env, act = .move .owner env) ∨ x = .constructed)
  | notifyAll (hx : s.owner = .notifyAll) (hy : s'.owner = .walk s.roster.threadPool.head?)
      (hboard : s'.board = s.board) (hroster : s'.roster = s.roster)
      (hact : ∃ env, act = .move .owner env)
  | grow {env : Env} {k size : Nat} {a a' : AddPlace} {z z' : Place} (hx : s.owner = .adding a)
      (hy : s'.owner = .adding a') (hact : act = .move .owner env)
      (hbefore : s.placeOf (.worker k) = z) (hafter : s'.placeOf (.worker k) = z')
      (h : Growth cfg env k size a a' z z' s.board s'.board)
      (hothers : ∀ j, j ≠ k → s'.placeOf (.worker j) = s.placeOf (.worker j))

theorem Turn.owner_case {act : Act} (h : Turn cfg s s' act) : OwnerCase cfg s s' act := by
  cases h with
  | owner hmove hturn hboard hstir hclose hact =>
    exact .turn (Place.owner.inj hmove.before) (Place.owner.inj hmove.after) hturn hboard hstir
      hclose hact
  | notifyAll hbefore hafter _ _ _ _ hboard hroster hit =>
    subst hit
    exact .notifyAll (Place.owner.inj hbefore) (Place.owner.inj hafter) hboard hroster ⟨_, rfl⟩
  | grow hp hmove hbefore hafter hgrowth =>
    rcases hp with rfl | ⟨c, rfl⟩
    · refine .grow (Place.owner.inj hmove.before) (Place.owner.inj hmove.after) rfl hbefore hafter
        hgrowth fun j hj => ?_
      exact hmove.others _ (by simp) (by simp) (by simpa using hj)
    · exact .same (hmove.owner_kept (by simp) (by simp))
  | worker hmove => exact .same (hmove.owner_kept (by simp) (by simp))
  | call hmove => exact .same (hmove.owner_kept (by simp) (by simp))
  | notify hmove => exact .same (hmove.owner_kept (by simp) (by simp))
  | notifyNone hmove => exact .same (hmove.owner_kept (by simp) (by simp))
  | monitor hmove => exact .same (hmove.owner_kept (by simp) (by simp))
  | commit _ hmove => exact .same (hmove.owner_kept (by simp) (by simp))
  | shutDown hplaces => exact .same (Place.owner.inj (congrFun hplaces .owner))
  | still hplaces => exact .same (Place.owner.inj (congrFun hplaces .owner))

/-! ## A pool under construction -/

/-- Before the constructor returns nobody calls the pool, and there is no task. -/
structure Unused (s : System) : Prop where
  empty : s.board.tasks = []
  calls : ∀ c, s.placeOf (.call c) = .absent
  hands : ∀ k, (s.placeOf (.worker k)).task = none

def Early (s : System) : Prop := s.owner.constructing = true → Unused s

theorem unused_worker (hu : Unused s) {act : Act} {k : Nat} {x y : WorkerPlace}
    (hmove : Move s s' (.worker k) (.worker x) (.worker y) none)
    (h : WorkerTurn cfg k act x y s.board s'.board) : Unused s' := by
  generalize hb : s.board = b at h
  generalize hb' : s'.board = b' at h
  have hempty := hu.empty
  have hcalls (c : Nat) : s'.placeOf (.call c) = .absent :=
    (hmove.others _ (by simp) (by simp) (by simp)).trans (hu.calls c)
  have hfrom := hu.hands k
  rw [hmove.before] at hfrom
  have hhands (hy : (Place.worker y).task = none) (j : Nat) :
      (s'.placeOf (.worker j)).task = none := by
    by_cases hj : j = k
    · rw [hj, hmove.after]
      exact hy
    · rw [hmove.worker_others j hj]
      exact hu.hands j
  rw [hb] at hempty
  cases h with
  | quiet hrole =>
    have hy : (Place.worker y).task = none := by
      rw [← hfrom]
      simp [Place.task, hrole]
    exact ⟨by rw [hb']; exact hempty, hcalls, hhands hy⟩
  | uncount _ hy =>
    have hy : (Place.worker y).task = none := by simp [Place.task, hy]
    exact ⟨by rw [hb']; exact hempty, hcalls, hhands hy⟩
  | pop htasks =>
    rw [hempty] at htasks
    cases htasks
  | park => exact ⟨by rw [hb']; exact hempty, hcalls, hhands rfl⟩
  | wake => exact ⟨by rw [hb']; exact hempty, hcalls, hhands rfl⟩
  | timeOut => exact ⟨by rw [hb']; exact hempty, hcalls, hhands rfl⟩
  | stay => exact ⟨by rw [hb']; exact hempty, hcalls, hhands rfl⟩
  | retire => exact ⟨by rw [hb']; exact hempty, hcalls, hhands rfl⟩
  | quit => exact ⟨by rw [hb']; exact hempty, hcalls, hhands rfl⟩
  | terminate => exact ⟨by rw [hb']; exact hempty, hcalls, hhands rfl⟩
  | leave => exact ⟨by rw [hb']; exact hempty, hcalls, hhands rfl⟩
  | finish => exact ⟨by rw [hb']; exact hempty, hcalls, hhands rfl⟩

/-- Nothing of what concerns an unused pool changes. -/
theorem Unused.congr (hu : Unused s) (htasks : s'.board.tasks = s.board.tasks)
    (hcalls : ∀ c, s'.placeOf (.call c) = s.placeOf (.call c))
    (hworkers : ∀ k, (s'.placeOf (.worker k)).task = (s.placeOf (.worker k)).task) : Unused s' where
  empty := htasks.trans hu.empty
  calls := fun c => (hcalls c).trans (hu.calls c)
  hands := fun k => (hworkers k).trans (hu.hands k)

theorem early_turn (he : Early s) {act : Act} (h : Turn cfg s s' act) : Early s' := by
  intro hphase
  -- a call cannot be under way before the constructor returns
  have habsurd {c : Nat} {x : CallPlace} (hc : s.placeOf (.call c) = .call x)
      (howner : s'.owner = s.owner) : False := by
    have habsent := (he (howner ▸ hphase)).calls c
    rw [hc] at habsent
    cases habsent
  cases h with
  | worker hmove hturn =>
    have howner := hmove.owner_kept (by simp) (by simp)
    exact unused_worker (he (howner ▸ hphase)) hmove hturn
  | call hmove => exact (habsurd hmove.before (hmove.owner_kept (by simp) (by simp))).elim
  | notify hmove => exact (habsurd hmove.before (hmove.owner_kept (by simp) (by simp))).elim
  | notifyNone hmove => exact (habsurd hmove.before (hmove.owner_kept (by simp) (by simp))).elim
  | @owner _ x y hmove hturn hboard =>
    have hx : s.owner = x := Place.owner.inj hmove.before
    have hy : s'.owner = y := Place.owner.inj hmove.after
    have hu : Unused s := by
      apply he
      rw [hx]
      rw [hy] at hphase
      cases hturn with
      | quiet _ hkeeps => exact hkeeps hphase
      | grown => rfl
    apply hu.congr (by rw [hboard])
    · exact fun c => hmove.others _ (by simp) (by simp) (by simp)
    · exact fun k => by rw [hmove.workers_kept (by simp)]
  | notifyAll _ hafter =>
    rw [Place.owner.inj hafter] at hphase
    cases hphase
  | @grow _ p k size a a' z z' hp hmove hbefore hafter hgrowth =>
    rcases hp with rfl | ⟨c, rfl⟩
    · have hx : s.owner = .adding a := Place.owner.inj hmove.before
      have hu : Unused s := he (by rw [hx]; rfl)
      apply hu.congr hgrowth.board_kept.2.1
      · exact fun c => hmove.others _ (by simp) (by simp) (by simp)
      · intro j
        by_cases hj : j = k
        · rw [hj, hafter, hbefore]
          exact hgrowth.task_kept.2
        · rw [hmove.others _ (by simp) (by simp) (by simpa using hj)]
    · exact (habsurd hmove.before (hmove.owner_kept (by simp) (by simp))).elim
  | monitor hmove hboard =>
    have hu := he (hmove.owner_kept (by simp) (by simp) ▸ hphase)
    apply hu.congr (by rw [hboard])
    · exact fun c => hmove.others _ (by simp) (by simp) (by simp)
    · exact fun k => by rw [hmove.workers_kept (by simp)]
  | commit hmay hmove =>
    have howner := hmove.owner_kept (by simp) (by simp)
    have hu := he (howner ▸ hphase)
    rcases mayCall_cases hmay with ⟨-, hconstructed⟩ | ⟨k, t, -, hrunning, -⟩
    · rw [howner, hconstructed] at hphase
      cases hphase
    · have hnone := hu.hands k
      rw [hrunning] at hnone
      cases hnone
  | shutDown hplaces _ hboard =>
    have howner : s'.owner = s.owner := Place.owner.inj (congrFun hplaces .owner)
    apply (he (howner ▸ hphase)).congr (by rw [hboard])
    · exact fun _ => by rw [hplaces]
    · exact fun _ => by rw [hplaces]
  | still hplaces _ hboard =>
    have howner : s'.owner = s.owner := Place.owner.inj (congrFun hplaces .owner)
    apply (he (howner ▸ hphase)).congr (by rw [hboard])
    · exact fun _ => by rw [hplaces]
    · exact fun _ => by rw [hplaces]

/-! ## How the counter moves -/

/-- `Commit` calls `AddThread` under `tasks_mutex_`. -/
theorem CallPlace.tasks_of_adding (a : AddPlace) : Mutex.tasks ∈ (CallPlace.adding a).guards :=
  List.mem_append_right _ (List.mem_singleton.mpr rfl)

/-- What a step does to `now_thread_num_`. -/
inductive NowCase (s s' : System) : Prop
  | same (h : s'.board.now = s.board.now)
  | up (hp : s.owner.constructing = true ∨
      ∃ c x, s.placeOf (.call c) = .call x ∧ Mutex.tasks ∈ x.guards)
      (h : s'.board.now = s.board.now + 1)
  | down {k : Nat} {x y : WorkerPlace} (hx : s.placeOf (.worker k) = .worker x)
      (hrole : x.role = .retiring ∨ x.role = .quitting) (hy : s'.placeOf (.worker k) = .worker y)
      (hgoing : y.role = .going) (h : s'.board.now + 1 = s.board.now)

theorem now_cases (hs : Order s) (hc : Counts cfg s) {act : Act} (h : Turn cfg s s' act) :
    NowCase s s' := by
  cases h with
  | @worker _ k x y hmove hturn =>
    generalize hb : s.board = b at hturn
    generalize hb' : s'.board = b' at hturn
    cases hturn with
    | uncount hx hy =>
      have hcounted : x.role.counted = true := by
        rcases hx with hx | hx
        · rw [hx]
          rfl
        · rw [hx]
          rfl
      have hdown := (hc.uncount hmove.before hmove.after hcounted hy (by rw [hb, hb'])
        hmove.worker_others).2
      exact .down hmove.before hx hmove.after hy hdown
    | quiet => exact .same (by rw [hb, hb'])
    | park => exact .same (by rw [hb, hb'])
    | wake => exact .same (by rw [hb, hb'])
    | timeOut => exact .same (by rw [hb, hb'])
    | stay => exact .same (by rw [hb, hb'])
    | retire => exact .same (by rw [hb, hb'])
    | quit => exact .same (by rw [hb, hb'])
    | terminate => exact .same (by rw [hb, hb'])
    | leave => exact .same (by rw [hb, hb'])
    | pop => exact .same (by rw [hb, hb'])
    | finish => exact .same (by rw [hb, hb'])
  | call hmove hturn =>
    generalize hb : s.board = b at hturn
    generalize hb' : s'.board = b' at hturn
    cases hturn with
    | quiet => exact .same (by rw [hb, hb'])
    | push => exact .same (by rw [hb, hb'])
  | notify _ _ _ hboard => exact .same (by rw [hboard])
  | notifyNone _ _ hboard => exact .same (by rw [hboard])
  | owner _ _ hboard => exact .same (by rw [hboard])
  | notifyAll _ _ _ _ _ _ hboard => exact .same (by rw [hboard])
  | monitor _ hboard => exact .same (by rw [hboard])
  | commit _ _ hboard => exact .same (by rw [hboard])
  | shutDown _ _ hboard => exact .same (by rw [hboard])
  | still _ _ hboard => exact .same (by rw [hboard])
  | @grow _ p k size a a' z z' hp hmove hbefore hafter hgrowth =>
    have hothers := hmove.grow_others hp
    generalize hb : s.board = b at hgrowth
    generalize hb' : s'.board = b' at hgrowth
    cases hgrowth with
    | countNow =>
      refine .up ?_ (hc.count hs hbefore hafter (by rw [hb, hb']) hothers).2
      rcases hp with rfl | ⟨c, rfl⟩
      · have howner : s.owner = .adding _ := Place.owner.inj hmove.before
        exact .inl (howner ▸ rfl)
      · exact .inr ⟨c, _, hmove.before, CallPlace.tasks_of_adding _⟩
    | build => exact .same (by rw [hb, hb'])
    | countIdle => exact .same (by rw [hb, hb'])
    | start => exact .same (by rw [hb, hb'])
    | fail => exact .same (by rw [hb, hb'])

/-- What a step does to the status. -/
inductive StatusCase (s s' : System) (act : Act) : Prop
  | kept (h : s'.board.status = s.board.status)
  | shutDown {caller : Caller} (hact : act = .shutDown caller) (h : s'.board.status = .shutdown)
  | terminated {k : Nat} (hbefore : s.placeOf (.worker k) = .worker .quitStatus)
      (hafter : s'.placeOf (.worker k) = .worker .quitIdle) (htasks : s'.board.tasks = s.board.tasks)
      (h : s'.board.status = .terminated)

theorem status_cases {act : Act} (h : Turn cfg s s' act) : StatusCase s s' act := by
  cases h with
  | worker hmove hturn =>
    generalize hb : s.board = b at hturn
    generalize hb' : s'.board = b' at hturn
    cases hturn with
    | terminate => exact .terminated hmove.before hmove.after (by rw [hb, hb']) (by rw [hb'])
    | _ => exact .kept (by rw [hb, hb'])
  | call _ hturn =>
    generalize hb : s.board = b at hturn
    generalize hb' : s'.board = b' at hturn
    cases hturn with
    | quiet => exact .kept (by rw [hb, hb'])
    | push => exact .kept (by rw [hb, hb'])
  | grow _ _ _ _ hgrowth => exact .kept hgrowth.board_kept.1
  | shutDown _ _ hboard => exact .shutDown rfl (by rw [hboard])
  | notify _ _ _ hboard => exact .kept (by rw [hboard])
  | notifyNone _ _ hboard => exact .kept (by rw [hboard])
  | owner _ _ hboard => exact .kept (by rw [hboard])
  | notifyAll _ _ _ _ _ _ hboard => exact .kept (by rw [hboard])
  | monitor _ hboard => exact .kept (by rw [hboard])
  | commit _ _ hboard => exact .kept (by rw [hboard])
  | still _ _ hboard => exact .kept (by rw [hboard])

/-- The status never becomes `TPS_RUNNING` again. -/
theorem status_running {act : Act} (h : Turn cfg s s' act) (hrunning : s'.board.status = .running) :
    s.board.status = .running := by
  cases status_cases h with
  | kept hkept => exact hkept.symm.trans hrunning
  | shutDown _ hshutdown => cases hshutdown.symm.trans hrunning
  | terminated _ _ _ hterminated => cases hterminated.symm.trans hrunning

/-! ## The core -/

/-- The threads the constructor starts. -/
def Config.atLeast (cfg : Config) : Nat := min cfg.corePoolSize cfg.maxPoolSize

/-- The counter stays above the core, and above it by one where that is about to be used up. -/
structure Staffed (cfg : Config) (s : System) : Prop where
  early : Early s
  core : s.board.status = .running → cfg.atLeast ≤ s.board.now + s.owner.remaining cfg
  retiring : ∀ k x, s.placeOf (.worker k) = .worker x → x.role = .retiring →
    cfg.corePoolSize < s.board.now
  starting : s.board.status = .running → ∀ c k size,
    s.placeOf (.call c) = .call (.adding (.start k size)) → cfg.atLeast < s.board.now
  quitting : ∀ k x, s.placeOf (.worker k) = .worker x → x.role = .quitting →
    s.board.status ≠ .running

theorem OwnerPlace.remaining_eq_zero {x : OwnerPlace} (h : x.constructing = false) :
    x.remaining cfg = 0 := by
  cases x with
  | startMonitor => cases h
  | awaitMonitor => cases h
  | adding => cases h
  | terminated => cases h
  | _ => rfl

/-- A call that is under way, or a task, means that the constructor has returned. -/
theorem Staffed.constructed_of_call (hst : Staffed cfg s) {c : Nat} {x : CallPlace}
    (hc : s.placeOf (.call c) = .call x) : s.owner.constructing = false := by
  by_contra hphase
  rw [Bool.not_eq_false] at hphase
  have habsent := (hst.early hphase).calls c
  rw [hc] at habsent
  cases habsent

theorem WorkerPlace.tasks_of_retiring {x : WorkerPlace}
    (h : x.role = .retiring ∨ x.role = .quitting) : Mutex.tasks ∈ x.guards := by
  apply WorkerPlace.tasks_of_leaving
  · rcases h with h | h
    · rw [h]
      rfl
    · rw [h]
      rfl
  · rintro rfl
    rcases h with h | h
    · cases h
    · cases h

/-- Two parties that hold `tasks_mutex_` are one. -/
theorem Order.tasks_unique (hs : Order s) {p q : Party} {x y : Place} (hp : s.placeOf p = x)
    (hq : s.placeOf q = y) (hx : Mutex.tasks ∈ x.guards) (hy : Mutex.tasks ∈ y.guards) : p = q := by
  subst hp
  subst hq
  exact hs.locks.exclusive hx hy

/-- What the owner and the counter have together, they keep, but for a worker that is uncounted. -/
theorem core_turn (hs : Order s) (hc : Counts cfg s) (hst : Staffed cfg s) {act : Act}
    (h : Turn cfg s s' act) (hrunning : s.board.status = .running) :
    cfg.atLeast ≤ s'.board.now + s'.owner.remaining cfg := by
  have hcore := hst.core hrunning
  have hnow := now_cases hs hc h
  have hmin : cfg.atLeast ≤ cfg.corePoolSize := Nat.min_le_left _ _
  have hmax : cfg.atLeast ≤ cfg.maxPoolSize := Nat.min_le_right _ _
  -- while the owner stands still, only an uncounted worker lowers the sum
  have hstill (howner : s'.owner = s.owner) : cfg.atLeast ≤ s'.board.now + s'.owner.remaining cfg := by
    rw [howner]
    cases hnow with
    | same h => omega
    | up _ h => omega
    | @down k x _ hx hrole _ _ h =>
      rcases hrole with hrole | hrole
      · have hretiring := hst.retiring k x hx hrole
        omega
      · exact absurd hrunning (hst.quitting k x hx hrole)
  cases h.owner_case with
  | same howner => exact hstill howner
  | turn hx hy hturn hboard =>
    rw [hy, hboard]
    rw [hx] at hcore
    cases hturn with
    | quiet hremaining =>
      rw [hremaining]
      exact hcore
    | @grown size hfull =>
      -- the constructor's loop has come to its end
      show cfg.atLeast ≤ s.board.now + 0
      have hcore : cfg.atLeast ≤ s.board.now + size := hcore
      omega
  | notifyAll hx hy hboard =>
    rw [hy, hboard]
    rw [hx] at hcore
    exact hcore
  | @grow _ k size a a' z z' hx hy _ hbefore hafter hgrowth hothers =>
    rw [hx] at hcore
    rw [hy]
    generalize hb : s.board = b at hgrowth
    generalize hb' : s'.board = b' at hgrowth
    rw [hb] at hcore
    cases hgrowth with
    | build => exact hcore
    | countIdle => exact hcore
    | start => exact hcore
    | fail =>
      show cfg.atLeast ≤ _ + cfg.corePoolSize
      omega
    | countNow =>
      have hup := (hc.count hs hbefore hafter (by rw [hb, hb']) hothers).2
      rw [hb, hb'] at hup
      rw [hup]
      have hcore : cfg.atLeast ≤ b.now + size := hcore
      show cfg.atLeast ≤ b.now + 1 + (size - 1)
      omega

theorem WorkerTurn.of_retiring {k : Nat} {act : Act} {x y : WorkerPlace} {b b' : Board}
    (h : WorkerTurn cfg k act x y b b') (hy : y.role = .retiring) :
    b'.now = b.now ∧ (x.role = .retiring ∨ cfg.corePoolSize < b.now) := by
  cases h with
  | quiet hrole => exact ⟨rfl, .inl (hrole ▸ hy)⟩
  | retire hmore => exact ⟨rfl, .inr hmore⟩
  | uncount _ hgoing =>
    rw [hgoing] at hy
    cases hy
  | _ => cases hy

theorem WorkerTurn.of_quitting {k : Nat} {act : Act} {x y : WorkerPlace} {b b' : Board}
    (h : WorkerTurn cfg k act x y b b') (hy : y.role = .quitting) :
    x.role = .quitting ∨ b.status ≠ .running := by
  cases h with
  | quiet hrole => exact .inl (hrole ▸ hy)
  | quit hstatus => exact .inr hstatus
  | terminate => exact .inl rfl
  | uncount _ hgoing =>
    rw [hgoing] at hy
    cases hy
  | _ => cases hy

/-- The worker that a growing step moves is not on its way out. -/
theorem Growth.not_leaving {k size : Nat} {a a' : AddPlace} {z z' : Place} {b b' : Board}
    (h : Growth cfg env k size a a' z z' b b') {y : WorkerPlace} (hy : z' = .worker y) :
    y.role.leaving = false := by
  cases h with
  | build =>
    cases hy
    rfl
  | countIdle =>
    cases hy
    rfl
  | countNow =>
    cases hy
    rfl
  | start =>
    cases hy
    rfl
  | fail =>
    cases hy
    rfl

theorem retiring_turn (hs : Order s) (hc : Counts cfg s) (hst : Staffed cfg s) {act : Act}
    (h : Turn cfg s s' act) {j : Nat} {y : WorkerPlace} (hy : s'.placeOf (.worker j) = .worker y)
    (hrole : y.role = .retiring) : cfg.corePoolSize < s'.board.now := by
  have hnow := now_cases hs hc h
  cases h.worker_view j with
  | same hsame =>
    have hx : s.placeOf (.worker j) = .worker y := hsame.symm.trans hy
    have hold := hst.retiring j y hx hrole
    cases hnow with
    | same h => omega
    | up _ h => omega
    | @down k x z hk hleaving hk' hgoing h =>
      -- both hold `tasks_mutex_`, but worker `j` has not moved
      have hj := hs.tasks_unique hx hk (WorkerPlace.tasks_of_retiring (.inl hrole))
        (WorkerPlace.tasks_of_retiring hleaving)
      cases hj
      rw [hy] at hk'
      cases hk'
      rw [hgoing] at hrole
      cases hrole
  | turn hmove hturn =>
    rw [hmove.after] at hy
    cases hy
    obtain ⟨hsame, hx | hmore⟩ := hturn.of_retiring hrole
    · have hold := hst.retiring j _ hmove.before hx
      omega
    · omega
  | woken _ hafter =>
    rw [hafter] at hy
    cases hy
    cases hrole
  | grown _ _ hafter hgrowth =>
    have hstays := hgrowth.not_leaving (hafter.symm.trans hy)
    rw [hrole] at hstays
    cases hstays

theorem quitting_turn (hst : Staffed cfg s) {act : Act} (h : Turn cfg s s' act) {j : Nat}
    {y : WorkerPlace} (hy : s'.placeOf (.worker j) = .worker y) (hrole : y.role = .quitting) :
    s'.board.status ≠ .running := by
  intro hrunning
  have hrunning := status_running h hrunning
  cases h.worker_view j with
  | same hsame => exact hst.quitting j y (hsame.symm.trans hy) hrole hrunning
  | turn hmove hturn =>
    rw [hmove.after] at hy
    cases hy
    rcases hturn.of_quitting hrole with hx | hstatus
    · exact hst.quitting j _ hmove.before hx hrunning
    · exact hstatus hrunning
  | woken _ hafter =>
    rw [hafter] at hy
    cases hy
    cases hrole
  | grown _ _ hafter hgrowth =>
    have hstays := hgrowth.not_leaving (hafter.symm.trans hy)
    rw [hrole] at hstays
    cases hstays

theorem starting_turn (hs : Order s) (hc : Counts cfg s) (hst : Staffed cfg s) {act : Act}
    (h : Turn cfg s s' act) (hrunning : s.board.status = .running) {c k size : Nat}
    (hy : s'.placeOf (.call c) = .call (.adding (.start k size))) :
    cfg.atLeast < s'.board.now := by
  have hnow := now_cases hs hc h
  cases h.call_view c with
  | same hsame =>
    have hx := hsame.symm.trans hy
    have hold := hst.starting hrunning c k size hx
    cases hnow with
    | same h => omega
    | up _ h => omega
    | down hk hleaving =>
      cases hs.tasks_unique hx hk (CallPlace.tasks_of_adding _) (WorkerPlace.tasks_of_retiring hleaving)
  | turn hmove hturn =>
    have htarget := hturn.target.2
    rw [← hmove.after, hy] at htarget
    cases htarget
  | notified _ hafter =>
    rw [hafter] at hy
    cases hy
  | begun _ hafter =>
    rw [hafter] at hy
    cases hy
  | @grown _ j size' a a' z z' hmove hbefore hafter hgrowth =>
    -- the constructor has returned, so the core was counted before this thread
    have hcore := hst.core hrunning
    rw [OwnerPlace.remaining_eq_zero (hst.constructed_of_call hmove.before)] at hcore
    rw [hmove.after] at hy
    cases hy
    have hothers (i : Nat) (hi : i ≠ j) : s'.placeOf (.worker i) = s.placeOf (.worker i) :=
      hmove.others _ (by simp) (by simp) (by simpa using hi)
    generalize hb : s.board = b at hgrowth
    generalize hb' : s'.board = b' at hgrowth
    cases hgrowth with
    | countNow =>
      have hup := (hc.count hs hbefore hafter (by rw [hb, hb']) hothers).2
      rw [hb, hb'] at hup
      rw [hb] at hcore
      omega

theorem staffed_init : Staffed cfg System.init where
  early := fun _ => ⟨rfl, fun c => by simp [System.init, System.placeOf],
    fun k => by simp [System.init, System.placeOf, Place.task]⟩
  core := fun _ => (Nat.min_le_left _ _).trans (Nat.le_add_left _ _)
  retiring := fun k x hx => by simp [System.init, System.placeOf] at hx
  starting := fun _ c k size hc => by simp [System.init, System.placeOf] at hc
  quitting := fun k x hx => by simp [System.init, System.placeOf] at hx

theorem staffed_turn (hs : Order s) (hc : Counts cfg s) (hst : Staffed cfg s) {act : Act}
    (h : Turn cfg s s' act) : Staffed cfg s' where
  early := early_turn hst.early h
  core := fun hrunning => core_turn hs hc hst h (status_running h hrunning)
  retiring := fun _ _ hy hrole => retiring_turn hs hc hst h hy hrole
  starting := fun hrunning _ _ _ hy => starting_turn hs hc hst h (status_running h hrunning) hy
  quitting := fun _ _ hy hrole => quitting_turn hst h hy hrole

/-! ## Who serves the queue -/

/-- Is the worker in its loop? -/
def Role.present : Role → Bool
  | .serving | .parked | .idling | .holding _ => true
  | _ => false

/-- No thread failed to start. -/
def NoneFailed (s : System) : Prop := ∀ k, s.placeOf (.worker k) ≠ .worker .failed

/-- A thread that the step creates is created. -/
def Creates (_ : System) : Act → Prop
  | .move _ env => env.created = true
  | _ => True

instance (s : System) : (act : Act) → Decidable (Creates s act)
  | .move _ env => inferInstanceAs (Decidable (env.created = true))
  | .wake _ | .wakeMonitor | .commit _ | .shutDown _ | .destroy => .isTrue trivial

theorem noneFailed_init : NoneFailed System.init := fun k => by simp [System.init, System.placeOf]

/-- Where threads can be created, who has failed had failed before. -/
theorem failed_before {act : Act} (hact : Creates s act) (h : Turn cfg s s' act) {k : Nat}
    (hfailed : s'.placeOf (.worker k) = .worker .failed) : s.placeOf (.worker k) = .worker .failed := by
  cases h.worker_view k with
  | same hsame => exact hsame.symm.trans hfailed
  | @turn x _ hmove hturn =>
    rw [hmove.after] at hfailed
    cases hfailed
    generalize s.board = b at hturn
    generalize s'.board = b' at hturn
    cases hturn with
    | quiet hrole hgrown =>
      rw [← hrole] at hgrown
      cases hgrown
    | uncount _ hgoing => cases hgoing
  | woken _ hafter =>
    rw [hafter] at hfailed
    cases hfailed
  | grown hp _ hafter hgrowth =>
    rw [hafter] at hfailed
    subst hfailed
    obtain ⟨p, rfl⟩ := hp
    generalize s.board = b at hgrowth
    generalize s'.board = b' at hgrowth
    cases hgrowth with
    | fail hfail =>
      rw [show _ = true from hact] at hfail
      cases hfail

theorem noneFailed_turn (hn : NoneFailed s) {act : Act} (hact : Creates s act)
    (h : Turn cfg s s' act) : NoneFailed s' :=
  fun k hfailed => hn k (failed_before hact h hfailed)

/-- Who has failed stays so. -/
theorem failed_kept {act : Act} (h : Turn cfg s s' act) {k : Nat}
    (hfailed : s.placeOf (.worker k) = .worker .failed) :
    s'.placeOf (.worker k) = .worker .failed := by
  cases h.worker_view k with
  | same hsame => exact hsame.trans hfailed
  | @turn x _ hmove hturn =>
    rw [hmove.before] at hfailed
    cases hfailed
    generalize s.board = b at hturn
    generalize s'.board = b' at hturn
    cases hturn with
    | quiet _ hgrown => cases hgrown
    | uncount hrole => rcases hrole with hrole | hrole <;> cases hrole
  | woken hbefore =>
    rw [hbefore] at hfailed
    cases hfailed
  | grown _ hbefore _ hgrowth =>
    rw [hbefore] at hfailed
    subst hfailed
    generalize s.board = b at hgrowth
    generalize s'.board = b' at hgrowth
    cases hgrowth

/-- Is the party a worker whose thread could not be created? -/
def Place.failed : Place → Bool
  | .worker x => x == .failed
  | _ => false

/-- The threads that could not be created, which stay counted. -/
def System.failedThreads (s : System) : Nat := s.workers.countP fun w => w.place == .failed

theorem System.ncard_failed (s : System) :
    (s.workersWhere Place.failed).ncard = s.failedThreads := ncard_workersWhere s rfl

theorem System.mem_failed {k : Nat} :
    k ∈ s.workersWhere Place.failed ↔ s.placeOf (.worker k) = .worker .failed := by
  show (s.placeOf (.worker k)).failed = true ↔ _
  cases s.placeOf (.worker k) with
  | worker x => simp [Place.failed]
  | _ => simp [Place.failed]

theorem failedThreads_mono {act : Act} (h : Turn cfg s s' act) :
    s.failedThreads ≤ s'.failedThreads := by
  rw [← s.ncard_failed, ← s'.ncard_failed]
  refine Set.ncard_le_ncard (fun k hk => ?_) (s'.finite_workersWhere rfl)
  exact System.mem_failed.mpr (failed_kept h (System.mem_failed.mp hk))

/-- Where threads can be created, no more of them fail. -/
theorem failedThreads_le {act : Act} (hact : Creates s act) (h : Turn cfg s s' act) :
    s'.failedThreads ≤ s.failedThreads := by
  rw [← s.ncard_failed, ← s'.ncard_failed]
  refine Set.ncard_le_ncard (fun k hk => ?_) (s.finite_workersWhere rfl)
  exact System.mem_failed.mpr (failed_before hact h (System.mem_failed.mp hk))

/-- A counted worker that has been started and is not on its way out. -/
theorem WorkerPlace.present_of_counted {x : WorkerPlace} (hcounted : x.role.counted = true)
    (hstays : x.role.leaving = false) (hstarted : x ≠ .counted) (hfailed : x ≠ .failed) :
    x.role.present = true := by
  cases x with
  | built => cases hcounted
  | idled => cases hcounted
  | ended => cases hcounted
  | counted => exact absurd rfl hstarted
  | failed => exact absurd rfl hfailed
  | retireLock => cases hcounted
  | handOver => cases hcounted
  | retireUnlock => cases hcounted
  | leave => cases hcounted
  | retireIdle => cases hstays
  | retireNow => cases hstays
  | quitStatus => cases hstays
  | quitIdle => cases hstays
  | quitNow => cases hstays
  | _ => rfl

/-- Once the constructor has returned, a worker before its `Start` is being added by a call of
`Commit`. -/
theorem Order.call_of_fresh (hs : Order s) (hphase : s.owner.constructing = false) {k : Nat}
    {z : WorkerPlace} (hk : s.placeOf (.worker k) = .worker z) (hz : z.fresh = true) :
    ∃ c a, s.placeOf (.call c) = .call (.adding a) ∧ a.target = some (k, z) := by
  obtain ⟨p, hp⟩ := (hs.frames k z hz).mp hk
  cases p with
  | owner =>
    have howner : (Place.owner s.owner).target = some (k, z) := hp
    cases hx : s.owner with
    | adding a =>
      rw [hx] at hphase
      cases hphase
    | _ =>
      rw [hx] at howner
      cases howner
  | monitor => cases hp
  | worker j =>
    rw [s.target_worker] at hp
    cases hp
  | call c =>
    rcases s.placeOf_call c with habsent | ⟨x, hx⟩
    · rw [habsent] at hp
      cases hp
    · rw [hx] at hp
      cases x with
      | adding a => exact ⟨c, a, hx, hp⟩
      | _ => cases hp

theorem Order.call_of_counted (hs : Order s) (hphase : s.owner.constructing = false) {k : Nat}
    (hk : s.placeOf (.worker k) = .worker .counted) :
    ∃ c size, s.placeOf (.call c) = .call (.adding (.start k size)) := by
  obtain ⟨c, a, hc, ha⟩ := hs.call_of_fresh hphase hk rfl
  cases a with
  | start j size =>
    cases ha
    exact ⟨c, size, hc⟩
  | countIdle => cases ha
  | countNow => cases ha
  | _ => cases ha

/-- **A running pool has a worker in its loop**, if fewer of its threads could not be created than it
keeps. -/
theorem exists_serving_of_few (hfew : s.failedThreads < cfg.atLeast) (hs : Order s)
    (hc : Counts cfg s) (hst : Staffed cfg s) (hrunning : s.board.status = .running)
    (hphase : s.owner.constructing = false) :
    ∃ k x, s.placeOf (.worker k) = .worker x ∧ x.role.present = true := by
  have hfailed := s.ncard_failed
  have hsome : s.countedWorkers.ncard = s.board.now := hc.now.symm
  have hleast : cfg.atLeast ≤ cfg.corePoolSize := Nat.min_le_left _ _
  -- a counted worker besides `j` that has not failed
  have hother (j : Nat) (hmore : cfg.atLeast < s.board.now) : ∃ k y, k ≠ j ∧
      s.placeOf (.worker k) = .worker y ∧ y.role.counted = true ∧ y ≠ .failed := by
    have hle := Set.ncard_insert_le j (s.workersWhere Place.failed)
    obtain ⟨k, hk, hnot⟩ := Set.exists_mem_notMem_of_ncard_lt_ncard
      (show (insert j (s.workersWhere Place.failed)).ncard < s.countedWorkers.ncard by omega)
      ((s.finite_workersWhere rfl).insert j)
    obtain ⟨y, hy, hcounted⟩ := System.mem_countedWorkers hk
    refine ⟨k, y, fun hkj => hnot (.inl hkj), hy, hcounted, ?_⟩
    rintro rfl
    exact hnot (.inr (System.mem_failed.mpr hy))
  by_cases hretiring : ∃ j x, s.placeOf (.worker j) = .worker x ∧ x.role = .retiring
  · -- it holds `tasks_mutex_`, so nobody starts a thread, and it is one more than the core
    obtain ⟨j, x, hx, hrole⟩ := hretiring
    have hmore := hst.retiring j x hx hrole
    have htasks : Mutex.tasks ∈ (s.placeOf (.worker j)).guards := by
      rw [hx]
      exact WorkerPlace.tasks_of_retiring (.inl hrole)
    obtain ⟨k, y, hkj, hy, hcounted, hstood⟩ := hother j (by omega)
    have hstays : y.role.leaving = false := by
      refine hs.not_leaving htasks (by simpa using hkj.symm) hy ?_
      rintro rfl
      cases hcounted
    refine ⟨k, y, hy, WorkerPlace.present_of_counted hcounted hstays ?_ hstood⟩
    rintro rfl
    obtain ⟨c, size, hcall⟩ := hs.call_of_counted hphase hy
    cases hs.tasks_unique hcall hx (CallPlace.tasks_of_adding _)
      (WorkerPlace.tasks_of_retiring (.inl hrole))
  · have hpresent {k : Nat} {y : WorkerPlace} (hy : s.placeOf (.worker k) = .worker y)
        (hcounted : y.role.counted = true) (hstarted : y ≠ .counted) (hstood : y ≠ .failed) :
        y.role.present = true := by
      apply WorkerPlace.present_of_counted hcounted ?_ hstarted hstood
      cases hrole : y.role with
      | retiring => exact absurd ⟨k, y, hy, hrole⟩ hretiring
      | quitting => exact absurd hrunning (hst.quitting k y hy hrole)
      | going =>
        rw [hrole] at hcounted
        cases hcounted
      | ended =>
        rw [hrole] at hcounted
        cases hcounted
      | _ => rfl
    by_cases hcreated : ∃ j, s.placeOf (.worker j) = .worker .counted
    · -- it is about to be started, and one more than the core
      obtain ⟨j, hj⟩ := hcreated
      obtain ⟨c, size, hcall⟩ := hs.call_of_counted hphase hj
      have hmore := hst.starting hrunning c j size hcall
      obtain ⟨k, y, hne, hy, hcounted, hstood⟩ := hother j hmore
      refine ⟨k, y, hy, hpresent hy hcounted ?_ hstood⟩
      rintro rfl
      exact hne (hs.building_unique hy rfl hj rfl)
    · have hnow := hst.core hrunning
      rw [OwnerPlace.remaining_eq_zero hphase] at hnow
      obtain ⟨k, hk, hnot⟩ := Set.exists_mem_notMem_of_ncard_lt_ncard
        (show (s.workersWhere Place.failed).ncard < s.countedWorkers.ncard by omega)
        (s.finite_workersWhere rfl)
      obtain ⟨y, hy, hcounted⟩ := System.mem_countedWorkers hk
      refine ⟨k, y, hy, hpresent hy hcounted ?_ ?_⟩
      · rintro rfl
        exact hcreated ⟨k, hy⟩
      · rintro rfl
        exact hnot (System.mem_failed.mpr hy)

/-- So it has if all of its threads could be created and its core is not empty. -/
theorem exists_serving (hcore : 1 ≤ cfg.corePoolSize) (hmax : 1 ≤ cfg.maxPoolSize) (hs : Order s)
    (hc : Counts cfg s) (hst : Staffed cfg s) (hn : NoneFailed s)
    (hrunning : s.board.status = .running) (hphase : s.owner.constructing = false) :
    ∃ k x, s.placeOf (.worker k) = .worker x ∧ x.role.present = true := by
  refine exists_serving_of_few ?_ hs hc hst hrunning hphase
  have hnone : s.workersWhere Place.failed = ∅ :=
    Set.eq_empty_of_forall_notMem fun k hk => hn k (System.mem_failed.mp hk)
  rw [← s.ncard_failed, hnone, Set.ncard_empty]
  exact Nat.le_min.mpr ⟨hcore, hmax⟩

end TurboNet.Base
