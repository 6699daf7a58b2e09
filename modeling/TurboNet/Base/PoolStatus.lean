/-
# TurboNet.Base.PoolStatus — the protocol of `thread_pool_status_`.

`ShutDown` stores `TPS_SHUTDOWN` whatever the status is, and a worker stores `TPS_TERMINATED` when it
holds `tasks_mutex_`, the pool is not running and the queue is empty; nobody else writes the status.
A terminated pool may have been drained by one worker while others are still in their tasks.  Its
queue is empty as long as no `Commit`, which looks at the status long before it takes the mutex, pushes
into it.
-/
import TurboNet.Base.PoolStaff

namespace TurboNet.Base

open TurboNet.Lib
open TurboNet.Logger (Build)

variable {cfg : Config} {B : Build} {s s₁ s' : System}

/-! ## What a step does to the queue -/

/-- What a step does to the queue and to what went through it. -/
inductive QueueCase (s s' : System) (act : Act) : Prop
  | kept (htasks : s'.board.tasks = s.board.tasks)
      (hpushed : s'.board.history.pushed = s.board.history.pushed)
      (hpopped : s'.board.history.popped = s.board.history.popped)
  | pushed {c : Nat} {env : Env} (hact : act = .move (.call c) env)
      (hbefore : s.placeOf (.call c) = .call .emplace)
      (hpushed : s'.board.history.pushed = s.board.history.pushed ++ [c])
      (hpopped : s'.board.history.popped = s.board.history.popped)
  | popped {k : Nat} {t : Task} (hbefore : s.placeOf (.worker k) = .worker .exitTest)
      (hpushed : s'.board.history.pushed = s.board.history.pushed)
      (hpopped : s'.board.history.popped = s.board.history.popped ++ [(k, t)])

theorem queue_cases {act : Act} (h : Turn cfg s s' act) : QueueCase s s' act := by
  have hsame (hboard : s'.board = s.board) : QueueCase s s' act :=
    .kept (by rw [hboard]) (by rw [hboard]) (by rw [hboard])
  cases h with
  | worker hmove hturn =>
    generalize hb : s.board = b at hturn
    generalize hb' : s'.board = b' at hturn
    cases hturn with
    | pop => exact .popped hmove.before (by rw [hb, hb']) (by rw [hb, hb'])
    | _ => exact .kept (by rw [hb, hb']) (by rw [hb, hb']) (by rw [hb, hb'])
  | call hmove hturn =>
    generalize hb : s.board = b at hturn
    generalize hb' : s'.board = b' at hturn
    cases hturn with
    | quiet => exact hsame (by rw [hb, hb'])
    | push => exact .pushed rfl hmove.before (by rw [hb, hb']) (by rw [hb, hb'])
  | grow _ _ _ _ hgrowth =>
    obtain ⟨-, htasks, hhistory⟩ := hgrowth.board_kept
    exact .kept htasks (by rw [hhistory]) (by rw [hhistory])
  | shutDown _ _ hboard => exact .kept (by rw [hboard]) (by rw [hboard]) (by rw [hboard])
  | notify _ _ _ hboard => exact hsame hboard
  | notifyNone _ _ hboard => exact hsame hboard
  | owner _ _ hboard => exact hsame hboard
  | notifyAll _ _ _ _ _ _ hboard => exact hsame hboard
  | monitor _ hboard => exact hsame hboard
  | commit _ _ hboard => exact hsame hboard
  | still _ _ hboard => exact hsame hboard

/-! ## Workers in the exit of a pool shut down -/

/-- A worker in this exit has found the pool not running and the queue empty, and keeps the queue to
itself. -/
def Quits (s : System) : Prop :=
  ∀ k x, s.placeOf (.worker k) = .worker x → x.role = .quitting →
    s.board.status ≠ .running ∧ s.board.tasks = []

theorem quits_init : Quits System.init := fun k x hx => by simp [System.init, System.placeOf] at hx

theorem WorkerTurn.to_quitting {k : Nat} {act : Act} {x y : WorkerPlace} {b b' : Board}
    (h : WorkerTurn cfg k act x y b b') (hy : y.role = .quitting) :
    b'.tasks = b.tasks ∧ (x.role = .quitting ∨ b.status ≠ .running ∧ b.tasks = []) := by
  cases h with
  | quiet hrole => exact ⟨rfl, .inl (hrole ▸ hy)⟩
  | quit hstatus hempty => exact ⟨rfl, .inr ⟨hstatus, hempty⟩⟩
  | terminate => exact ⟨rfl, .inl rfl⟩
  | uncount _ hgoing =>
    rw [hgoing] at hy
    cases hy
  | _ => cases hy

theorem quits_turn (hs : Order s) (hq : Quits s) {act : Act} (h : Turn cfg s s' act) :
    Quits s' := by
  intro k y hy hrole
  have hdown (hstatus : s.board.status ≠ .running) : s'.board.status ≠ .running :=
    fun hrunning => hstatus (status_running h hrunning)
  cases h.worker_view k with
  | same hsame =>
    have hx : s.placeOf (.worker k) = .worker y := hsame.symm.trans hy
    obtain ⟨hstatus, hempty⟩ := hq k y hx hrole
    refine ⟨hdown hstatus, ?_⟩
    have htasks := WorkerPlace.tasks_of_retiring (.inr hrole)
    cases queue_cases h with
    | kept hkept => rw [hkept, hempty]
    | pushed _ hbefore =>
      -- whoever pushes or pops holds `tasks_mutex_`
      have := hs.tasks_unique hx hbefore htasks (List.mem_singleton.mpr rfl)
      cases this
    | popped hbefore =>
      have := hs.tasks_unique hx hbefore htasks (List.mem_singleton.mpr rfl)
      cases this
      rw [hx] at hbefore
      cases hbefore
      cases hrole
  | turn hmove hturn =>
    rw [hmove.after] at hy
    cases hy
    obtain ⟨htasks, hx | ⟨hstatus, hempty⟩⟩ := hturn.to_quitting hrole
    · obtain ⟨hstatus, hempty⟩ := hq k _ hmove.before hx
      exact ⟨hdown hstatus, htasks.trans hempty⟩
    · exact ⟨hdown hstatus, htasks.trans hempty⟩
  | woken _ hafter =>
    rw [hafter] at hy
    cases hy
    cases hrole
  | grown _ _ hafter hgrowth =>
    have hstays := hgrowth.not_leaving (hafter.symm.trans hy)
    rw [hrole] at hstays
    cases hstays

/-! ## Since the store -/

/-- Has the worker taken the exit of a pool shut down, or is it past an exit? -/
def Role.gone : Role → Bool
  | .quitting | .going | .ended => true
  | _ => false

theorem WorkerTurn.gone {k : Nat} {act : Act} {x y : WorkerPlace} {b b' : Board}
    (h : WorkerTurn cfg k act x y b b') (hx : x.role.gone = true) : y.role.gone = true := by
  cases h with
  | quiet hrole => exact hrole ▸ hx
  | uncount _ hgoing =>
    rw [hgoing]
    rfl
  | terminate => rfl
  | leave => rfl
  | _ => cases hx

theorem Growth.not_gone {k size : Nat} {a a' : AddPlace} {z z' : Place} {env : Env} {b b' : Board}
    (h : Growth cfg env k size a a' z z' b b') {x : WorkerPlace} (hx : z = .worker x) :
    x.role.gone = false := by
  cases h with
  | build => cases hx
  | _ =>
    cases hx
    rfl

/-- Since `s₁`, where worker `k` was past the exit tests, what was popped then has stayed popped, and
worker `k` has not come back. -/
structure Since (k : Nat) (s₁ s : System) : Prop where
  popped : s₁.board.history.popped <+: s.board.history.popped
  gone : ∃ x, s.placeOf (.worker k) = .worker x ∧ x.role.gone = true

theorem gone_kept {act : Act} (h : Turn cfg s s' act) {k : Nat} {x : WorkerPlace}
    (hx : s.placeOf (.worker k) = .worker x) (hgone : x.role.gone = true) :
    ∃ y, s'.placeOf (.worker k) = .worker y ∧ y.role.gone = true := by
  cases h.worker_view k with
  | same hsame => exact ⟨x, hsame.trans hx, hgone⟩
  | turn hmove hturn =>
    have hsame := hmove.before.symm.trans hx
    cases hsame
    exact ⟨_, hmove.after, hturn.gone hgone⟩
  | woken hbefore =>
    rw [hx] at hbefore
    cases hbefore
    cases hgone
  | grown _ hbefore _ hgrowth =>
    have hnot := hgrowth.not_gone (hbefore.symm.trans hx)
    rw [hgone] at hnot
    cases hnot

theorem Since.turn {act : Act} {k : Nat} (hsince : Since k s₁ s) (h : Turn cfg s s' act) :
    Since k s₁ s' := by
  obtain ⟨x, hx, hgone⟩ := hsince.gone
  refine ⟨?_, gone_kept h hx hgone⟩
  cases queue_cases h with
  | kept _ _ hpopped => exact hpopped ▸ hsince.popped
  | pushed _ _ _ hpopped => exact hpopped ▸ hsince.popped
  | popped _ _ hpopped =>
    rw [hpopped]
    exact hsince.popped.trans (List.prefix_append _ _)

/-! ## Runs -/

/-- What the proofs about the status need to know of every state. -/
structure StatusInv (cfg : Config) (s : System) : Prop where
  pool : PoolInv cfg s
  quits : Quits s

theorem statusInv_step {act : Act} (hs : StatusInv cfg s)
    (h : (poolRuns cfg B).step s act = some s') : StatusInv cfg s' :=
  ⟨poolInv_step hs.pool h, quits_turn hs.pool.order hs.quits (step_turn hs.pool.order.frames h)⟩

theorem statusInv_run {acts : List Act} (h : (poolRuns cfg B).exec System.init acts = some s) :
    StatusInv cfg s :=
  StepSystem.exec_invariant (fun _ _ _ => statusInv_step) ⟨poolInv_init, quits_init⟩ h

theorem since_run {k : Nat} {acts : List Act} (hs : StatusInv cfg s) (hsince : Since k s₁ s)
    (h : (poolRuns cfg B).exec s acts = some s') : Since k s₁ s' := by
  have hboth : StatusInv cfg s' ∧ Since k s₁ s' := by
    refine StepSystem.exec_invariant (I := fun s => StatusInv cfg s ∧ Since k s₁ s) ?_ ⟨hs, hsince⟩ h
    rintro s act s' ⟨hs, hsince⟩ hstep
    exact ⟨statusInv_step hs hstep, hsince.turn (step_turn hs.pool.order.frames hstep)⟩
  exact hboth.2

/-- The place of a status in the order of `ThreadPoolStatus`. -/
def ThreadPoolStatus.rank : ThreadPoolStatus → Nat
  | .running => 0
  | .shutdown => 1
  | .terminated => 2

/-- Worker `k` is about to store `TPS_TERMINATED`: it holds `tasks_mutex_`, the pool is not running
and the queue is empty. -/
structure AtStore (k : Nat) (s : System) : Prop where
  place : s.workerAt k .quitStatus = true
  holds : s.mutexes.tasks = some (.worker k)
  down : s.pool.status ≠ .running
  drained : s.pool.tasks = []

/-- A step of the status: it stays, `ShutDown` is called, or a worker finds the pool drained. -/
inductive StatusStep (s : System) (act : Act) (s' : System) : Prop
  | kept (h : s'.pool.status = s.pool.status)
  | shutDown {caller : Caller} (hact : act = .shutDown caller) (h : s'.pool.status = .shutdown)
  | terminate {k : Nat} (hstore : AtStore k s) (htasks : s'.pool.tasks = [])
      (h : s'.pool.status = .terminated)

/-- Worker `k` stored `TPS_TERMINATED` in `s₁`, and has no task in its hands in `s`. -/
structure TerminatedBy (k : Nat) (s₁ s : System) : Prop where
  store : AtStore k s₁
  idle : ∀ w t, s.workers[k]? = some w → w.place.role ≠ .holding t

/-- The pool terminated in `s₁` is drained in `s`: the queue is empty, and what workers have in their
hands they popped before. -/
structure Drained (s₁ s : System) : Prop where
  queue : s.pool.tasks = []
  hands : ∀ j w t, s.workers[j]? = some w → w.place.role = .holding t → (j, t) ∈ s₁.history.popped

/-- `Commit` does not push into a terminated pool. -/
def PushInTime (s : System) : Act → Prop
  | .move (.call c) _ => s.placeOf (.call c) = .call .emplace → s.pool.status ≠ .terminated
  | _ => True

instance (s : System) : (act : Act) → Decidable (PushInTime s act)
  | .move (.call _) _ => inferInstanceAs (Decidable (_ → _ ≠ _))
  | .move .owner _ | .move .monitor _ | .move (.worker _) _ | .wake _ | .wakeMonitor | .commit _
  | .shutDown _ | .destroy => .isTrue trivial

theorem StatusInv.atStore (hs : StatusInv cfg s) {k : Nat}
    (hk : s.placeOf (.worker k) = .worker .quitStatus) : AtStore k s := by
  obtain ⟨hdown, hdrained⟩ := hs.quits k _ hk rfl
  refine ⟨System.workerAt_iff.mpr hk, ?_, hdown, hdrained⟩
  apply (hs.pool.order.locks.holds .tasks (.worker k)).mp
  rw [hk]
  exact List.mem_singleton.mpr rfl

theorem statusStep_of_step {act : Act} (hs : StatusInv cfg s)
    (h : (poolRuns cfg B).step s act = some s') : StatusStep s act s' := by
  cases status_cases (step_turn hs.pool.order.frames h) with
  | kept h => exact .kept h
  | shutDown hact h => exact .shutDown hact h
  | terminated hbefore _ htasks h =>
    have hstore := hs.atStore hbefore
    exact .terminate hstore (htasks.trans hstore.drained) h

/-- The status goes back only from `TPS_TERMINATED` to `TPS_SHUTDOWN`, when `ShutDown` is called. -/
theorem StatusStep.forward {act : Act} (h : StatusStep s act s') :
    s.pool.status.rank ≤ s'.pool.status.rank ∨
      ∃ caller, act = .shutDown caller ∧ s.pool.status = .terminated ∧ s'.pool.status = .shutdown := by
  cases h with
  | kept h => exact .inl (Nat.le_of_eq (congrArg _ h.symm))
  | terminate _ _ h =>
    rw [h]
    exact .inl (by cases s.pool.status <;> decide)
  | @shutDown caller hact h =>
    rw [h]
    cases hstatus : s.pool.status with
    | running => exact .inl (by decide)
    | shutdown => exact .inl (by decide)
    | terminated => exact .inr ⟨caller, hact, rfl, rfl⟩

theorem TerminatedBy.of_since {k : Nat} (hstore : AtStore k s₁) (hsince : Since k s₁ s) :
    TerminatedBy k s₁ s where
  store := hstore
  idle w t hw hrole := by
    obtain ⟨x, hx, hgone⟩ := hsince.gone
    have hplace := System.placeOf_worker_iff.mpr ⟨w, hw, rfl⟩
    rw [hx] at hplace
    cases hplace
    rw [hrole] at hgone
    cases hgone

/-- Nothing is pushed while the pool stays terminated, if no push comes too late. -/
theorem pushed_kept {acts : List Act} (hs : StatusInv cfg s)
    (hthroughout : (poolRuns cfg B).Throughout (fun s => s.pool.status = .terminated) s acts)
    (hpushes : (poolRuns cfg B).Along PushInTime s acts)
    (h : (poolRuns cfg B).exec s acts = some s') : s'.history.pushed = s.history.pushed := by
  induction acts generalizing s with
  | nil =>
    cases h
    rfl
  | cons act acts ih =>
    obtain ⟨s₂, hstep, hrest⟩ := StepSystem.exec_cons.mp h
    obtain ⟨hterminated, hlater⟩ := StepSystem.throughout_cons.mp hthroughout
    have hsame : s₂.history.pushed = s.history.pushed := by
      cases queue_cases (step_turn hs.pool.order.frames hstep) with
      | kept _ hpushed => exact hpushed
      | pushed hact hbefore =>
        have hintime := hpushes.1
        rw [hact] at hintime
        exact absurd hterminated (hintime hbefore)
      | popped _ hpushed => exact hpushed
    rw [← hsame]
    exact ih (statusInv_step hs hstep) (hlater s₂ hstep) (hpushes.2 s₂ hstep) hrest

/-- The queue was empty at the store, so with nothing pushed since then nothing was popped either. -/
theorem Drained.of_since {k : Nat} (hs₁ : StatusInv cfg s₁) (hs : StatusInv cfg s)
    (hstore : AtStore k s₁) (hsince : Since k s₁ s)
    (hpushed : s.history.pushed = s₁.history.pushed) : Drained s₁ s := by
  obtain ⟨later, hlater⟩ := hsince.popped
  have hnothing : later.map Prod.snd ++ s.pool.tasks = [] := by
    have horder : s.history.pushed = s.history.popped.map Prod.snd ++ s.pool.tasks :=
      hs.pool.ledger.order
    have horder₁ : s₁.history.pushed = s₁.history.popped.map Prod.snd ++ s₁.pool.tasks :=
      hs₁.pool.ledger.order
    have hlater : s₁.history.popped ++ later = s.history.popped := hlater
    rw [hstore.drained, List.append_nil] at horder₁
    rw [hpushed, ← hlater, List.map_append, List.append_assoc, ← horder₁] at horder
    exact List.self_eq_append_right.mp horder
  obtain ⟨hmap, hempty⟩ := List.append_eq_nil_iff.mp hnothing
  refine ⟨hempty, fun j w t hw hrole => ?_⟩
  have hpopped := (hs.pool.ledger.inCommitOrder.popper_runs j t).mpr (.inr ⟨w, hw, hrole⟩)
  have hnone : later = [] := List.map_eq_nil_iff.mp hmap
  rw [hnone, List.append_nil] at hlater
  exact hlater ▸ hpopped

/-- **The protocol of the status.**  It goes forward, except that a call of `ShutDown` takes a
terminated pool back to `TPS_SHUTDOWN`; a worker stores `TPS_TERMINATED` with `tasks_mutex_` held, the
pool not running and the queue empty, and takes no task afterwards.  In a run in which no `Commit`
pushes into a terminated pool, the queue of a terminated pool is empty, and a task in the hands of
another worker was popped before the store. -/
theorem status_protocol (cfg : Config) (B : Build) (acts : List Act) {s : System}
    (hrun : (poolRuns cfg B).exec System.init acts = some s) :
    (∀ before act after s₁ s₂, acts = before ++ act :: after →
      (poolRuns cfg B).exec System.init before = some s₁ →
      (poolRuns cfg B).step s₁ act = some s₂ →
      StatusStep s₁ act s₂ ∧ (s₁.pool.status.rank ≤ s₂.pool.status.rank ∨
        ∃ caller, act = .shutDown caller ∧ s₁.pool.status = .terminated ∧
          s₂.pool.status = .shutdown)) ∧
    (s.pool.status = .terminated →
      ∃ before act after s₁ s₂ k, acts = before ++ act :: after ∧
        (poolRuns cfg B).exec System.init before = some s₁ ∧
        (poolRuns cfg B).step s₁ act = some s₂ ∧
        (poolRuns cfg B).Throughout (fun s => s.pool.status = .terminated) s₂ after ∧
        TerminatedBy k s₁ s ∧
        ((poolRuns cfg B).Along PushInTime System.init acts → Drained s₁ s)) := by
  constructor
  · rintro before act after s₁ s₂ - hbefore hstep
    have hstatus := statusStep_of_step (statusInv_run hbefore) hstep
    exact ⟨hstatus, hstatus.forward⟩
  · intro hterminated
    obtain ⟨before, act, after, s₁, s₂, rfl, hbefore, hnot, hstep, hthroughout, hafter⟩ :=
      StepSystem.exists_entry (P := fun s => s.pool.status = .terminated)
        (by simp [System.init]) hterminated hrun
    have hs₁ := statusInv_run hbefore
    have hs₂ := statusInv_step hs₁ hstep
    have hstored : s₂.pool.status = .terminated := hthroughout [] after s₂ rfl rfl
    have hturn := step_turn hs₁.pool.order.frames hstep
    cases status_cases hturn with
    | kept h => exact absurd (h.symm.trans hstored) hnot
    | shutDown _ h => cases hstored.symm.trans h
    | @terminated k hk =>
      have hstore := hs₁.atStore hk
      have hsince : Since k s₁ s₁ := ⟨List.prefix_rfl, _, hk, rfl⟩
      have hlast := since_run hs₂ (hsince.turn hturn) hafter
      refine ⟨before, act, after, s₁, s₂, k, rfl, hbefore, hstep, hthroughout,
        .of_since hstore hlast, fun hpushes => ?_⟩
      have hrest := (StepSystem.along_append hpushes hbefore).2.2 s₂ hstep
      have hafterStore := pushed_kept hs₂ hthroughout hrest hafter
      refine .of_since hs₁ (statusInv_run hrun) hstore hlast (hafterStore.trans ?_)
      -- the store itself pushes nothing
      cases queue_cases hturn with
      | kept _ hpushed => exact hpushed
      | pushed _ hbefore =>
        have := hs₁.pool.order.tasks_unique hk hbefore (List.mem_singleton.mpr rfl)
          (List.mem_singleton.mpr rfl)
        cases this
      | popped _ hpushed => exact hpushed

/-- The constructor of a pool of two workers, with the thread ids 7 and 8. -/
def constructTwo : List Act :=
  steps .owner 1 ++ steps .monitor 1 ++ steps .owner 6 ++ [.move .owner { tid := 7 }] ++
    steps (.worker 0) 1 ++ steps .owner 4 ++ [.move .owner { tid := 8 }] ++
    steps (.worker 1) 1 ++ steps .owner 3

/-- Worker 0 is in a task when the pool is shut down, and worker 1 finds the queue empty. -/
def terminateInTask : List Act :=
  constructTwo ++ [.commit .external] ++ steps (.call 0) 6 ++ steps (.worker 0) 5 ++
    [.shutDown .external] ++ steps (.worker 1) 4

theorem status_protocol_two :
    ∃ s, (poolRuns twoWorkers .debug).exec System.init terminateInTask = some s ∧
      ∃ before act after s₁ s₂ k, terminateInTask = before ++ act :: after ∧
        (poolRuns twoWorkers .debug).exec System.init before = some s₁ ∧
        (poolRuns twoWorkers .debug).step s₁ act = some s₂ ∧
        (poolRuns twoWorkers .debug).Throughout (fun s => s.pool.status = .terminated) s₂ after ∧
        TerminatedBy k s₁ s ∧ Drained s₁ s := by
  have hend : ((poolRuns twoWorkers .debug).exec System.init terminateInTask).map
      (fun s => s.pool.status) = some .terminated := by
    decide +kernel
  obtain ⟨s, hrun, hterminated⟩ := Option.map_eq_some_iff.mp hend
  obtain ⟨before, act, after, s₁, s₂, k, hsplit, hbefore, hstep, hthroughout, hby, hdrained⟩ :=
    (status_protocol twoWorkers .debug _ hrun).2 hterminated
  exact ⟨s, hrun, before, act, after, s₁, s₂, k, hsplit, hbefore, hstep, hthroughout, hby,
    hdrained (by decide +kernel)⟩

/-- That some worker is left to run what is pushed does not help: here worker 0 is in its task when
worker 1 terminates the pool, and a `Commit` begun before pushes then. -/
example :
    let pushLate := constructTwo ++ [.commit .external] ++ steps (.call 0) 6 ++ steps (.worker 0) 5 ++
      [.commit .external] ++ steps (.call 1) 1 ++ [.shutDown .external] ++ steps (.worker 1) 7 ++
      steps (.call 1) 3
    (poolRuns twoWorkers .debug).Along PushServed System.init pushLate ∧
      ((poolRuns twoWorkers .debug).exec System.init pushLate).map
        (fun s => (s.pool.status, s.pool.tasks)) = some (.terminated, [1]) := by
  decide +kernel

/-- The pool is terminated while a worker runs a task, and `ShutDown` takes the status back. -/
theorem terminated_in_task_and_back :
    ∃ s₁ s₂, (poolRuns twoWorkers .debug).exec System.init terminateInTask = some s₁ ∧
      s₁.pool.status = .terminated ∧ s₁.workers.map Worker.place = [.running 0, .quitIdle] ∧
      (poolRuns twoWorkers .debug).step s₁ (.shutDown .external) = some s₂ ∧
      s₂.pool.status = .shutdown := by
  have hend : ((poolRuns twoWorkers .debug).exec System.init terminateInTask).map
      (fun s => (s.pool.status, s.workers.map Worker.place,
        ((poolRuns twoWorkers .debug).step s (.shutDown .external)).map fun s => s.pool.status)) =
      some (.terminated, [.running 0, .quitIdle], some .shutdown) := by
    decide +kernel
  obtain ⟨s₁, hrun, hend⟩ := Option.map_eq_some_iff.mp hend
  simp only [Prod.mk.injEq] at hend
  obtain ⟨hstatus, hworkers, hback⟩ := hend
  obtain ⟨s₂, hstep, hshutdown⟩ := Option.map_eq_some_iff.mp hback
  exact ⟨s₁, s₂, hrun, hstatus, hworkers, hstep, hshutdown⟩

end TurboNet.Base
