/-
# TurboNet.Base.PoolWakeups — no task waits for a worker that will not come.

While a pool runs, a task in the queue has a worker in its loop (`waiting_task_has_worker`).  That it
is also *awake*, once the call that pushed the task has notified, needs more: the notification may go
to a worker whose wait then reports a time-out all the same, and a worker that has timed out retires
without a look at the queue.  `no_task_stranded` is about the runs where no notification is lost
like this.
-/
import TurboNet.Base.PoolStaff

namespace TurboNet.Base

open TurboNet.Lib
open TurboNet.Logger (Build Halt)

variable {cfg : Config} {B : Build} {env : Env} {s s' : System}

/-! ## A pool whose threads could be created -/

/-- What holds in every state of a pool, if its threads could be created. -/
structure StaffInv (cfg : Config) (s : System) : Prop where
  pool : PoolInv cfg s
  staffed : Staffed cfg s
  noneFailed : NoneFailed s

theorem staffInv_init : StaffInv cfg System.init := ⟨poolInv_init, staffed_init, noneFailed_init⟩

theorem staffInv_step {act : Act} (hs : StaffInv cfg s) (hact : Creates s act)
    (h : (poolRuns cfg B).step s act = some s') : StaffInv cfg s' := by
  have hturn := step_turn hs.pool.order.frames h
  exact ⟨poolInv_step hs.pool h, staffed_turn hs.pool.order hs.pool.counts hs.staffed hturn,
    noneFailed_turn hs.noneFailed hact hturn⟩

theorem staffInv_run {acts : List Act} (hcreates : (poolRuns cfg B).Along Creates System.init acts)
    (h : (poolRuns cfg B).exec System.init acts = some s) : StaffInv cfg s :=
  StepSystem.exec_invariant_along (fun _ _ _ => staffInv_step) staffInv_init hcreates h

/-- A worker that has been started and has not left its loop. -/
def Worker.live (w : Worker) : Prop := w.place.role.present = true

/-- While the pool runs, a task that waits has a worker that can take it. -/
def Attended (s : System) : Prop :=
  s.pool.status = .running → (∃ call ∈ s.calls, call.place = .returned) → s.pool.tasks ≠ [] →
    ∃ w ∈ s.workers, w.live

/-- **A waiting task has a worker**, in a pool with a core and room for it whose threads can be
created. -/
theorem waiting_task_has_worker (cfg : Config) (B : Build) (hcore : 1 ≤ cfg.corePoolSize)
    (hmax : 1 ≤ cfg.maxPoolSize) (acts : List Act) {s : System}
    (hrun : (poolRuns cfg B).exec System.init acts = some s)
    (hcreates : (poolRuns cfg B).Along Creates System.init acts) : Attended s := by
  have hinv := staffInv_run hcreates hrun
  intro hrunning hreturned _
  obtain ⟨call, hcall, -⟩ := hreturned
  obtain ⟨c, hc⟩ := List.getElem?_of_mem hcall
  have hphase := hinv.staffed.constructed_of_call (System.placeOf_call_iff.mpr ⟨call, hc, rfl⟩)
  obtain ⟨k, x, hx, hpresent⟩ := exists_serving hcore hmax hinv.pool.order hinv.pool.counts
    hinv.staffed hinv.noneFailed hrunning hphase
  obtain ⟨w, hw, rfl⟩ := System.placeOf_worker_iff.mp hx
  exact ⟨w, List.mem_of_getElem? hw, hpresent⟩

/-- The constructor of a pool without a core. -/
def constructEmpty : List Act := steps .owner 1 ++ steps .monitor 1 ++ steps .owner 5

/-- A task committed to a pool of one worker, before the worker wakes up. -/
theorem waiting_task_has_worker_one :
    ∃ s, (poolRuns oneWorker .debug).exec System.init
      (constructOne ++ steps (.worker 0) 2 ++ [.commit .external] ++ steps (.call 0) 6) = some s ∧
      Attended s := by
  obtain ⟨s, hrun⟩ := Option.isSome_iff_exists.mp (show ((poolRuns oneWorker .debug).exec
    System.init (constructOne ++ steps (.worker 0) 2 ++ [.commit .external] ++
      steps (.call 0) 6)).isSome by decide +kernel)
  exact ⟨s, hrun, waiting_task_has_worker oneWorker .debug (by decide) (by decide) _ hrun
    (by decide +kernel)⟩

/-- The default sizes on a machine with one processor: the queue has room, so nobody is added. -/
theorem task_without_worker :
    ∃ s, (poolRuns noCore .debug).exec System.init
      (constructEmpty ++ [.commit .external] ++ steps (.call 0) 6) = some s ∧ ¬ Attended s := by
  obtain ⟨s, hrun⟩ := Option.isSome_iff_exists.mp (show ((poolRuns noCore .debug).exec System.init
    (constructEmpty ++ [.commit .external] ++ steps (.call 0) 6)).isSome by decide +kernel)
  have hend : ((poolRuns noCore .debug).exec System.init
      (constructEmpty ++ [.commit .external] ++ steps (.call 0) 6)).map
        (fun s => (s.pool.status, s.calls, s.pool.tasks, s.workers)) =
      some (.running, [{ caller := .external, place := .returned }], [0], []) := by
    decide +kernel
  rw [hrun] at hend
  simp only [Option.map_some, Option.some.injEq, Prod.mk.injEq] at hend
  obtain ⟨hstatus, hcalls, htasks, hworkers⟩ := hend
  refine ⟨s, hrun, ?_⟩
  intro hattended
  obtain ⟨w, hw, -⟩ := hattended hstatus (by simp [hcalls]) (by simp [htasks])
  simp [hworkers] at hw

/-! ## Notifications that are not lost -/

/-- No wait reports a time-out to a worker that would retire and leave a task behind. -/
def PromptTimeOut (cfg : Config) (s : System) : Act → Prop
  | .move (.worker k) env =>
    s.workerAt k .woken = true → env.timedOut = true → s.pool.tasks ≠ [] →
      s.pool.nowThreadNum ≤ cfg.corePoolSize
  | _ => True

instance (s : System) : (act : Act) → Decidable (PromptTimeOut cfg s act)
  | .move (.worker _) _ => inferInstanceAs (Decidable (_ → _ → _ → _ ≤ _))
  | .move .owner _ | .move .monitor _ | .move (.call _) _ | .wake _ | .wakeMonitor | .commit _
  | .shutDown _ | .destroy => .isTrue trivial

/-- Is the worker's thread running outside its wait? -/
def WorkerPlace.awake (x : WorkerPlace) : Bool := x.role.present && x != .parked

/-- A worker retires from an empty queue only, and a task in it has a worker that is awake, unless
the call that pushed it has not notified yet. -/
structure Wakeful (cfg : Config) (s : System) : Prop where
  idling : ∀ k, s.placeOf (.worker k) = .worker .idleTest → s.board.tasks ≠ [] →
    s.board.now ≤ cfg.corePoolSize
  leaving : ∀ k x, s.placeOf (.worker k) = .worker x → x.role = .retiring ∨ x.role = .going →
    s.board.tasks = []
  awake : s.board.tasks ≠ [] → (∀ c x, s.placeOf (.call c) = .call x → x.stage ≠ .pending) →
    ∃ k x, s.placeOf (.worker k) = .worker x ∧ x.awake = true

/-- **Who holds `tasks_mutex_` and stands still sees the queue stand still.** -/
theorem Order.tasks_still (hs : Order s) {act : Act} (h : Turn cfg s s' act) {p : Party} {x : Place}
    (hx : s.placeOf p = x) (hguard : Mutex.tasks ∈ x.guards) (hstill : s'.placeOf p = x) :
    s'.board.tasks = s.board.tasks := by
  cases h with
  | @worker _ k y y' hmove hturn =>
    generalize hb : s.board = b at hturn
    generalize hb' : s'.board = b' at hturn
    cases hturn with
    | pop =>
      obtain rfl := hs.tasks_unique hx hmove.before hguard (List.mem_singleton.mpr rfl)
      rw [hmove.before] at hx
      rw [hmove.after, ← hx] at hstill
      cases hstill
    | _ => rfl
  | @call _ c y y' hmove hturn =>
    generalize hb : s.board = b at hturn
    generalize hb' : s'.board = b' at hturn
    cases hturn with
    | quiet => rfl
    | push =>
      obtain rfl := hs.tasks_unique hx hmove.before hguard (List.mem_singleton.mpr rfl)
      rw [hmove.before] at hx
      rw [hmove.after, ← hx] at hstill
      cases hstill
  | grow _ _ _ _ hgrowth => exact hgrowth.board_kept.2.1
  | shutDown _ _ hboard => rw [hboard]
  | notify _ _ _ hboard => rw [hboard]
  | notifyNone _ _ hboard => rw [hboard]
  | owner _ _ hboard => rw [hboard]
  | notifyAll _ _ _ _ _ _ hboard => rw [hboard]
  | monitor _ hboard => rw [hboard]
  | commit _ _ hboard => rw [hboard]
  | still _ _ hboard => rw [hboard]

theorem idling_turn (hinv : StaffInv cfg s) (hw : Wakeful cfg s) {act : Act}
    (hact : PromptTimeOut cfg s act) (h : Turn cfg s s' act) {j : Nat}
    (hj : s'.placeOf (.worker j) = .worker .idleTest) (hwaiting : s'.board.tasks ≠ []) :
    s'.board.now ≤ cfg.corePoolSize := by
  have hs := hinv.pool.order
  cases h.worker_view j with
  | same hsame =>
    have hx := hsame.symm.trans hj
    have htasks := hs.tasks_still h hx (List.mem_singleton.mpr rfl) hj
    rw [htasks] at hwaiting
    have hold := hw.idling j hx hwaiting
    cases now_cases hs hinv.pool.counts h with
    | same h => omega
    | up hp h =>
      -- a thread is added by the constructor, or by a call that holds `tasks_mutex_`
      rcases hp with hphase | ⟨c, x, hc, hguard⟩
      · exact absurd (hinv.staffed.early hphase).empty hwaiting
      · cases hs.tasks_unique hc hx hguard (List.mem_singleton.mpr rfl)
    | down _ _ _ _ h => omega
  | @turn x y hmove hturn =>
    rw [hmove.after] at hj
    cases hj
    have hbefore := hmove.before
    generalize hb : s.board = b at hturn
    generalize hb' : s'.board = b' at hturn hwaiting ⊢
    cases hturn with
    | quiet hrole =>
      have hx : x = .idleTest := by
        cases x with
        | idleTest => rfl
        | _ => cases hrole
      subst hx
      rw [← hb] at hwaiting ⊢
      exact hw.idling j hbefore hwaiting
    | timeOut htimedOut =>
      rw [← hb] at hwaiting ⊢
      exact hact (System.workerAt_iff.mpr hbefore) htimedOut hwaiting
    | uncount _ hgoing => cases hgoing
  | woken _ hafter =>
    rw [hafter] at hj
    cases hj
  | grown _ _ hafter hgrowth =>
    rw [hafter] at hj
    subst hj
    cases hgrowth

theorem leaving_turn (hinv : StaffInv cfg s) (hw : Wakeful cfg s) {act : Act}
    (h : Turn cfg s s' act) (hrunning : s.board.status = .running) {j : Nat} {y : WorkerPlace}
    (hj : s'.placeOf (.worker j) = .worker y) (hrole : y.role = .retiring ∨ y.role = .going) :
    s'.board.tasks = [] := by
  have hs := hinv.pool.order
  cases h.worker_view j with
  | same hsame =>
    have hx := hsame.symm.trans hj
    have hguard : Mutex.tasks ∈ y.guards := by
      apply WorkerPlace.tasks_of_leaving
      · rcases hrole with hrole | hrole
        · rw [hrole]
          rfl
        · rw [hrole]
          rfl
      · rintro rfl
        rcases hrole with hrole | hrole
        · cases hrole
        · cases hrole
    rw [hs.tasks_still h hx hguard hj]
    exact hw.leaving j y hx hrole
  | @turn x _ hmove hturn =>
    rw [hmove.after] at hj
    cases hj
    have hbefore := hmove.before
    generalize hb : s.board = b at hturn
    generalize hb' : s'.board = b' at hturn ⊢
    cases hturn with
    | quiet hsame =>
      rw [← hb]
      exact hw.leaving j x hbefore (hsame ▸ hrole)
    | retire hmore =>
      -- more than the core are counted, so the queue was empty when the wait timed out
      rw [← hb] at hmore ⊢
      by_contra hwaiting
      have hfew := hw.idling j hbefore hwaiting
      omega
    | uncount hx =>
      show b.tasks = []
      rw [← hb]
      rcases hx with hx | hx
      · exact hw.leaving j x hbefore (.inl hx)
      · exact absurd hrunning (hinv.staffed.quitting j x hbefore hx)
    | _ =>
      rcases hrole with hrole | hrole
      · cases hrole
      · cases hrole
  | woken _ hafter =>
    rw [hafter] at hj
    cases hj
    rcases hrole with hrole | hrole
    · cases hrole
    · cases hrole
  | grown _ _ hafter hgrowth =>
    have hstays := hgrowth.not_leaving (hafter.symm.trans hj)
    rcases hrole with hrole | hrole
    · rw [hrole] at hstays
      cases hstays
    · rw [hrole] at hstays
      cases hstays

/-- A worker that is awake stays so while a task waits. -/
theorem awake_kept (hw : Wakeful cfg s) {act : Act}
    (h : Turn cfg s s' act) (hrunning : s.board.status = .running) (hwaiting : s.board.tasks ≠ [])
    {k : Nat} {x : WorkerPlace} (hk : s.placeOf (.worker k) = .worker x) (hx : x.awake = true) :
    ∃ y, s'.placeOf (.worker k) = .worker y ∧ y.awake = true := by
  cases h.worker_view k with
  | same hsame => exact ⟨x, hsame.trans hk, hx⟩
  | @turn _ y hmove hturn =>
    have hbefore := hmove.before
    rw [hbefore] at hk
    cases hk
    refine ⟨y, hmove.after, ?_⟩
    generalize hb : s.board = b at hturn
    generalize s'.board = b' at hturn
    cases hturn with
    | quiet hrole =>
      simp only [WorkerPlace.awake, Bool.and_eq_true, bne_iff_ne] at hx ⊢
      refine ⟨by rw [hrole]; exact hx.1, ?_⟩
      rintro rfl
      apply hx.2
      cases x with
      | parked => rfl
      | _ => cases hrole
    | park _ hempty =>
      rw [hb] at hwaiting
      exact absurd hempty hwaiting
    | retire hmore =>
      have hfew := hw.idling k hbefore hwaiting
      rw [hb] at hfew
      omega
    | quit hstatus =>
      rw [hb] at hrunning
      exact absurd hrunning hstatus
    | uncount hleaving =>
      have hpresent : x.role.present = true := by
        simp only [WorkerPlace.awake, Bool.and_eq_true] at hx
        exact hx.1
      rcases hleaving with hrole | hrole
      · rw [hrole] at hpresent
        cases hpresent
      · rw [hrole] at hpresent
        cases hpresent
    | terminate => cases hx
    | leave => cases hx
    | wake => rfl
    | timeOut => rfl
    | stay => rfl
    | pop => rfl
    | finish => rfl
  | woken hparked =>
    rw [hparked] at hk
    cases hk
    cases hx
  | grown _ hbefore _ hgrowth =>
    rw [hbefore] at hk
    subst hk
    generalize s.board = b at hgrowth
    generalize s'.board = b' at hgrowth
    cases hgrowth with
    | countIdle => cases hx
    | countNow => cases hx
    | start => cases hx
    | fail => cases hx

/-- Who is in its loop and not in the wait is awake. -/
theorem WorkerPlace.awake_of_present {x : WorkerPlace} (hpresent : x.role.present = true)
    (hparked : x ≠ .parked) : x.awake = true := by
  simp only [WorkerPlace.awake, Bool.and_eq_true, bne_iff_ne]
  exact ⟨hpresent, hparked⟩

theorem awake_turn (hcore : 1 ≤ cfg.corePoolSize) (hmax : 1 ≤ cfg.maxPoolSize)
    (hinv : StaffInv cfg s) (hw : Wakeful cfg s) {act : Act} (h : Turn cfg s s' act)
    (hrunning : s.board.status = .running) (hwaiting : s'.board.tasks ≠ [])
    (hnotified : ∀ c x, s'.placeOf (.call c) = .call x → x.stage ≠ .pending) :
    ∃ k x, s'.placeOf (.worker k) = .worker x ∧ x.awake = true := by
  by_cases hpending : ∃ c x, s.placeOf (.call c) = .call x ∧ x.stage = .pending
  · -- the call that was about to notify has done so
    obtain ⟨c, x, hc, hstage⟩ := hpending
    cases h.call_view c with
    | same hsame => exact absurd hstage (hnotified c x (hsame.trans hc))
    | turn hmove hturn =>
      have hstage' := hnotified c _ hmove.after
      rw [hmove.before] at hc
      cases hc
      generalize s.board = b at hturn
      generalize s'.board = b' at hturn
      cases hturn with
      | quiet hsame => exact absurd (hsame.trans hstage) hstage'
      | push => cases hstage
    | notified hbefore _ hwho =>
      rcases hwho with ⟨k, hwoken⟩ | hnone
      · exact ⟨k, .woken, hwoken, rfl⟩
      · have hphase := hinv.staffed.constructed_of_call hbefore
        obtain ⟨k, y, hy, hpresent⟩ := exists_serving hcore hmax hinv.pool.order hinv.pool.counts
          hinv.staffed hinv.noneFailed hrunning hphase
        refine ⟨k, y, (hnone k).2.trans hy, WorkerPlace.awake_of_present hpresent ?_⟩
        rintro rfl
        exact (hnone k).1 hy
    | grown hmove =>
      rw [hmove.before] at hc
      cases hc
      cases hstage
    | begun habsent =>
      rw [habsent] at hc
      cases hc
  · -- the task waited before, and somebody was awake
    have hcalm (c : Nat) (x : CallPlace) (hc : s.placeOf (.call c) = .call x) : x.stage ≠ .pending :=
      fun hstage => hpending ⟨c, x, hc, hstage⟩
    have hwaited : s.board.tasks ≠ [] := by
      intro hempty
      apply hwaiting
      cases h with
      | worker _ hturn =>
        generalize s.board = b at hturn hempty
        generalize s'.board = b' at hturn ⊢
        cases hturn with
        | pop htasks =>
          rw [hempty] at htasks
          cases htasks
        | _ => exact hempty
      | call hmove hturn =>
        have hstage' := hnotified _ _ hmove.after
        generalize s.board = b at hturn hempty
        generalize s'.board = b' at hturn ⊢
        cases hturn with
        | quiet => exact hempty
        | push => exact absurd rfl hstage'
      | grow _ _ _ _ hgrowth => rw [hgrowth.board_kept.2.1]; exact hempty
      | shutDown _ _ hboard => rw [hboard]; exact hempty
      | notify _ _ _ hboard => rw [hboard]; exact hempty
      | notifyNone _ _ hboard => rw [hboard]; exact hempty
      | owner _ _ hboard => rw [hboard]; exact hempty
      | notifyAll _ _ _ _ _ _ hboard => rw [hboard]; exact hempty
      | monitor _ hboard => rw [hboard]; exact hempty
      | commit _ _ hboard => rw [hboard]; exact hempty
      | still _ _ hboard => rw [hboard]; exact hempty
    obtain ⟨k, x, hk, hx⟩ := hw.awake hwaited hcalm
    obtain ⟨y, hy, hawake⟩ := awake_kept hw h hrunning hwaited hk hx
    exact ⟨k, y, hy, hawake⟩

theorem wakeful_init : Wakeful cfg System.init where
  idling := fun k hk => by simp [System.init, System.placeOf] at hk
  leaving := fun k x hk => by simp [System.init, System.placeOf] at hk
  awake := fun hwaiting => absurd rfl hwaiting

/-- The condition of a run in which no task is stranded. -/
def NoLostWake (cfg : Config) (s : System) (act : Act) : Prop :=
  Creates s act ∧ PromptTimeOut cfg s act

instance (s : System) (act : Act) : Decidable (NoLostWake cfg s act) :=
  inferInstanceAs (Decidable (_ ∧ _))

/-- As long as a pool runs, its workers are wakeful. -/
theorem wakeful_run (hcore : 1 ≤ cfg.corePoolSize) (hmax : 1 ≤ cfg.maxPoolSize) {acts : List Act}
    (hcond : (poolRuns cfg B).Along (NoLostWake cfg) System.init acts)
    (hrun : (poolRuns cfg B).exec System.init acts = some s) (hrunning : s.pool.status = .running) :
    Wakeful cfg s := by
  have hinv : StaffInv cfg s ∧ (s.board.status = .running → Wakeful cfg s) := by
    apply StepSystem.exec_invariant_along ?_ ⟨staffInv_init, fun _ => wakeful_init⟩ hcond hrun
    rintro t act t' ⟨hinv, hw⟩ ⟨hcreates, hprompt⟩ hstep
    have hturn := step_turn hinv.pool.order.frames hstep
    refine ⟨staffInv_step hinv hcreates hstep, fun hrunning' => ?_⟩
    have hrunning := status_running hturn hrunning'
    have hw := hw hrunning
    exact ⟨fun k => idling_turn hinv hw hprompt hturn,
      fun k x => leaving_turn hinv hw hturn hrunning,
      awake_turn hcore hmax hinv hw hturn hrunning⟩
  exact hinv.2 hrunning

/-! ## Tasks that are not stranded -/

/-- Is the worker in the exit that idle workers take? -/
def WorkerPlace.inIdleExit : WorkerPlace → Bool
  | .retireIdle | .retireNow | .retireLock | .handOver | .retireUnlock => true
  | _ => false

/-- Idle workers leave an empty queue, and a task for which a worker was notified has a thread that
is alive and not in the wait. -/
structure NotStranded (s : System) : Prop where
  retires : ∀ w ∈ s.workers, w.place.inIdleExit = true → s.pool.tasks = []
  attended : s.pool.tasks ≠ [] →
    (∀ call ∈ s.calls, call.place ≠ .unlock ∧ call.place ≠ .notify) →
      ∃ w ∈ s.workers, w.place.alive = true ∧ w.place ≠ .parked

theorem Wakeful.notStranded (hw : Wakeful cfg s) : NotStranded s where
  retires := by
    intro w hmem hexit
    obtain ⟨k, hk⟩ := List.getElem?_of_mem hmem
    apply hw.leaving k w.place (System.placeOf_worker_iff.mpr ⟨w, hk, rfl⟩)
    cases hplace : w.place with
    | retireIdle => exact .inl rfl
    | retireNow => exact .inl rfl
    | retireLock => exact .inr rfl
    | handOver => exact .inr rfl
    | retireUnlock => exact .inr rfl
    | _ =>
      rw [hplace] at hexit
      cases hexit
  attended := by
    intro hwaiting hnotified
    have hcalm (c : Nat) (x : CallPlace) (hc : s.placeOf (.call c) = .call x) :
        x.stage ≠ .pending := by
      obtain ⟨call, hcall, rfl⟩ := System.placeOf_call_iff.mp hc
      obtain ⟨hunlock, hnotify⟩ := hnotified call (List.mem_of_getElem? hcall)
      cases hplace : call.place with
      | unlock => exact absurd hplace hunlock
      | notify => exact absurd hplace hnotify
      | _ => nofun
    obtain ⟨k, x, hx, hawake⟩ := hw.awake hwaiting hcalm
    obtain ⟨w, hmem, rfl⟩ := System.placeOf_worker_iff.mp hx
    refine ⟨w, List.mem_of_getElem? hmem, ?_, ?_⟩
    · cases hplace : w.place with
      | built => rw [hplace] at hawake; cases hawake
      | idled => rw [hplace] at hawake; cases hawake
      | counted => rw [hplace] at hawake; cases hawake
      | failed => rw [hplace] at hawake; cases hawake
      | ended => rw [hplace] at hawake; cases hawake
      | _ => rfl
    · intro hparked
      rw [hparked] at hawake
      cases hawake

/-- **No task is stranded**, if no wait reports a time-out to a worker that consumed a notification
and is one more than the core.  In every state of a run in which the pool is still running, workers
retire from an empty queue only, and a task that no call is about to announce has a thread that is
alive and not in the wait. -/
theorem no_task_stranded (cfg : Config) (B : Build) (hcore : 1 ≤ cfg.corePoolSize)
    (hmax : cfg.corePoolSize < cfg.maxPoolSize) (acts : List Act) {s : System}
    (hrun : (poolRuns cfg B).exec System.init acts = some s)
    (hcond : (poolRuns cfg B).Along (NoLostWake cfg) System.init acts)
    (hrunning : s.pool.status = .running) : NotStranded s :=
  (wakeful_run hcore (by omega) hcond hrun hrunning).notStranded

/-- The first call adds a worker, whose thread gets the id 8, and its task goes through the pool. -/
def growAndPark : List Act :=
  constructOne ++ steps (.worker 0) 2 ++ [.commit .external] ++ steps (.call 0) 8 ++
    [.move (.call 0) { tid := 8 }] ++ steps (.worker 1) 1 ++ steps (.call 0) 5 ++
    [.move (.call 0) { waiter := 0 }] ++ steps (.worker 1) 7 ++ steps (.worker 0) 2 ++
    steps (.worker 1) 2

/-- The second call finds both workers parked, and the one it notifies takes its task. -/
theorem no_task_stranded_two :
    ∃ s, (poolRuns oneOrTwo .debug).exec System.init
      (growAndPark ++ [.commit .external] ++ steps (.call 1) 10 ++ steps (.worker 0) 3) = some s ∧
      NotStranded s := by
  have hend : ((poolRuns oneOrTwo .debug).exec System.init
      (growAndPark ++ [.commit .external] ++ steps (.call 1) 10 ++ steps (.worker 0) 3)).map
        (fun s => s.pool.status) = some .running := by
    decide +kernel
  obtain ⟨s, hrun, hrunning⟩ := Option.map_eq_some_iff.mp hend
  exact ⟨s, hrun, no_task_stranded oneOrTwo .debug (by decide) (by decide) _ hrun
    (by decide +kernel) hrunning⟩

/-- The wait of the worker that the second call notifies reports a time-out: the worker retires, the
other one is parked, and the task stays in the queue of a running pool. -/
theorem timeOut_strands_task :
    ∃ s, (poolRuns oneOrTwo .debug).exec System.init
      (growAndPark ++ [.commit .external] ++ steps (.call 1) 10 ++
        [.move (.worker 0) { timedOut := true }] ++ steps (.worker 0) 7) = some s ∧
      s.pool.status = .running ∧ ¬ NotStranded s := by
  have hend : ((poolRuns oneOrTwo .debug).exec System.init
      (growAndPark ++ [.commit .external] ++ steps (.call 1) 10 ++
        [.move (.worker 0) { timedOut := true }] ++ steps (.worker 0) 7)).map
        (fun s => (s.pool.status, s.pool.tasks, s.calls.map Call.place,
          s.workers.map Worker.place)) =
      some (.running, [1], [.returned, .returned], [.ended, .parked]) := by
    decide +kernel
  obtain ⟨s, hrun, hend⟩ := Option.map_eq_some_iff.mp hend
  simp only [Prod.mk.injEq] at hend
  obtain ⟨hstatus, htasks, hcalls, hworkers⟩ := hend
  refine ⟨s, hrun, hstatus, ?_⟩
  intro hserved
  have hreturned (call : Call) (hcall : call ∈ s.calls) : call.place = .returned := by
    have hmem := List.mem_map_of_mem (f := Call.place) hcall
    rw [hcalls] at hmem
    simpa using hmem
  obtain ⟨w, hw, halive, hparked⟩ := hserved.attended (by simp [htasks])
    fun call hcall => by simp [hreturned call hcall]
  have hmem := List.mem_map_of_mem (f := Worker.place) hw
  rw [hworkers] at hmem
  simp only [List.mem_cons, List.not_mem_nil, or_false] at hmem
  rcases hmem with hended | hmem
  · rw [hended] at halive
    cases halive
  · exact hparked hmem

end TurboNet.Base
