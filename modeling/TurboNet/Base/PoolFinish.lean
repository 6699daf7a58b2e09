/-
# TurboNet.Base.PoolFinish — when the destructor of a pool can come to its end.

The destructor waits for the workers, so these have to be able to leave their loops.  A party is
*live* while it has steps to make.  Who a live party waits for is live, and ranks lower; so as long
as a worker has not left, some live party waits for nobody and moves (`PoolProgress`), and the
weight is spent after finitely many moves.  That needs an exit: nobody tells the workers of a pool
that runs to leave, and they leave by their time-out only while there are more than the core.
-/
import TurboNet.Base.PoolCounters
import TurboNet.Base.PoolProgress

namespace TurboNet.Base

open TurboNet.Lib
open TurboNet.Logger (Build Halt)

variable {cfg : Config} {B : Build} {r : Bool} {s s' : System}

/-! ## Live parties -/

/-- Has the party steps to make? -/
def Live (s : System) : Party → Prop
  | .owner => False
  | .monitor => s.monitor.guards ≠ []
  | .worker k => ∃ x, s.placeOf (.worker k) = .worker x ∧ x.alive = true
  | .call c => ∃ x, s.placeOf (.call c) = .call x ∧ x.over = false

theorem WorkerPlace.alive_of_guards {x : WorkerPlace} {m : Mutex} (h : m ∈ x.guards) :
    x.alive = true := by
  cases x with
  | built => cases h
  | idled => cases h
  | counted => cases h
  | failed => cases h
  | ended => cases h
  | _ => rfl

theorem CallPlace.live_of_guards {x : CallPlace} {m : Mutex} (h : m ∈ x.guards) :
    x.over = false := by
  cases x with
  | returned => cases h
  | threw => cases h
  | _ => rfl

theorem OwnerPlace.not_adding {x : OwnerPlace} (h : x.walking = true) (a : AddPlace) :
    x ≠ .adding a := by
  rintro rfl
  cases h

/-- Who holds a mutex is live. -/
theorem live_of_holder (hwalking : s.owner.walking = true) {p : Party} {m : Mutex}
    (h : m ∈ (s.placeOf p).guards) : Live s p := by
  cases p with
  | owner =>
    have h : m ∈ s.owner.guards := h
    cases hx : s.owner with
    | adding a => exact absurd hx (OwnerPlace.not_adding hwalking a)
    | _ =>
      rw [hx] at h
      cases h
  | monitor => exact List.ne_nil_of_mem h
  | worker k =>
    rcases s.placeOf_worker k with habsent | ⟨x, hx⟩
    · rw [habsent] at h
      cases h
    · rw [hx] at h
      exact ⟨x, hx, WorkerPlace.alive_of_guards h⟩
  | call c =>
    rcases s.placeOf_call c with habsent | ⟨x, hx⟩
    · rw [habsent] at h
      cases h
    · rw [hx] at h
      exact ⟨x, hx, CallPlace.live_of_guards h⟩

/-- The thread whose latch a call awaits is before its `latch_.CountDown()`. -/
theorem alive_of_closed {k : Nat} {l : Life} (hl : (s.placeOf (.worker k)).life = some l)
    (hborn : l ≠ .unborn) (hclosed : s.latchOpen k = false) : Live s (.worker k) := by
  rcases s.placeOf_worker k with habsent | ⟨x, hx⟩
  · rw [habsent] at hl
    cases hl
  · refine ⟨x, hx, ?_⟩
    obtain ⟨w, hw, rfl⟩ := System.placeOf_worker_iff.mp hx
    rw [hx] at hl
    cases hl
    simp only [System.latchOpen, hw, Option.any_some] at hclosed
    cases hplace : w.place with
    | starting => rfl
    | built => exact absurd (by rw [hplace]; rfl) hborn
    | idled => exact absurd (by rw [hplace]; rfl) hborn
    | counted => exact absurd (by rw [hplace]; rfl) hborn
    | failed => exact absurd (by rw [hplace]; rfl) hborn
    | _ =>
      rw [hplace] at hclosed
      cases hclosed

/-- **Who a live party waits for is live.** -/
theorem WaitsFor.live (h : Ready cfg B r s) {p q : Party} (hp : Live s p)
    (hwaits : WaitsFor s p q) : Live s q := by
  have hthreads := h.inv.life.threads
  cases hwaits with
  | @mutex _ _ m _ hheld =>
    exact live_of_holder h.walking ((hthreads.pool.order.locks.holds m q).mpr hheld)
  | @latch _ k hawaits hclosed =>
    cases p with
    | owner => exact hp.elim
    | monitor => cases hawaits
    | worker j =>
      obtain ⟨x, hx, -⟩ := hp
      rw [hx] at hawaits
      cases hawaits
    | call c =>
      obtain ⟨x, hx, -⟩ := hp
      rw [hx] at hawaits
      cases x with
      | adding a =>
        cases a with
        | await j size =>
          cases hawaits
          obtain ⟨l, hl, hborn⟩ := h.inv.awaited c k size hx
          exact alive_of_closed hl hborn hclosed
        | _ => cases hawaits
      | _ => cases hawaits
  | monitorLatch => exact hp.elim
  | @monitorJoin k hjoining hruns =>
    -- it has handed its id over and is on its way out
    obtain ⟨n, hg⟩ := hthreads.reaped
    obtain ⟨l, hl, hout⟩ :=
      hthreads.retirement.gone k (List.mem_of_getElem? (hg.reaping.joining k hjoining))
    rcases s.placeOf_worker k with habsent | ⟨x, hx⟩
    · rw [habsent] at hl
      cases hl
    · refine ⟨x, hx, ?_⟩
      rw [hx] at hl hruns
      cases hl
      cases x with
      | retireUnlock => rfl
      | leave => rfl
      | ended => exact absurd rfl hruns
      | _ => cases hout
  | ownerJoin => exact hp.elim
  | @task k c t x _ hcall _ hlive => exact ⟨x, hcall, hlive⟩

/-- Among the live parties one waits for nobody. -/
theorem exists_free (h : Ready cfg B r s) {p : Party} (hp : Live s p) :
    ∃ q, Live s q ∧ ∀ u, ¬ WaitsFor s q u := by
  induction hn : (s.placeOf p).rank using Nat.strongRecOn generalizing p with
  | ind n ih =>
    by_cases hwaits : ∃ q, WaitsFor s p q
    · obtain ⟨q, hq⟩ := hwaits
      exact ih _ (hn ▸ hq.rank_lt h.inv.life.threads) (hq.live h hp) rfl
    · exact ⟨p, hp, fun u hu => hwaits ⟨u, hu⟩⟩

/-- **While a party is live, some party moves on.** -/
theorem exists_moves (h : Ready cfg B r s) {p : Party} (hp : Live s p) : Moves cfg B r s := by
  obtain ⟨q, hq, hfree⟩ := exists_free h hp
  cases q with
  | owner => exact hq.elim
  | monitor => exact monitor_moves h hq hfree
  | worker k =>
    obtain ⟨x, hx, halive⟩ := hq
    exact worker_moves h hx halive hfree
  | call c =>
    obtain ⟨x, hx, hlive⟩ := hq
    exact call_moves h hx hlive hfree

/-! ## Finishing -/

/-- No worker of `thread_pool_` is in its loop, or will be. -/
def Left (s : System) : Prop :=
  ∀ k ∈ s.pool.threadPool,
    s.placeOf (.worker k) = .worker .ended ∨ s.placeOf (.worker k) = .worker .failed

/-- Can the workers leave without the destructor's doing anything more? -/
def CanFinish (cfg : Config) (B : Build) (s : System) : Prop :=
  ∃ acts s', (∀ act ∈ acts, act.Continues) ∧ (poolRuns cfg B).exec s acts = some s' ∧
    s'.halted = none ∧ Left s'

/-- When no worker is live, all have left. -/
theorem left_of_none_live (h : Ready cfg B r s) (hnone : ∀ k, ¬ Live s (.worker k)) : Left s := by
  have hthreads := h.inv.life.threads
  have hclosing := OwnerPlace.closing_of_walking h.walking
  intro k hk
  obtain ⟨x, hx⟩ := System.built_iff.mp (hthreads.threads.bound k hk)
  have hdead : x.alive = false := by
    by_contra halive
    exact hnone k ⟨x, hx, by simpa using halive⟩
  -- a thread that is being added is added by a task
  have hfresh : x.fresh = false := by
    by_contra hfresh
    obtain ⟨j, t, hj⟩ := h.inv.life.guests.host_of_fresh hthreads.pool.order hclosing hx
      (by simpa using hfresh)
    exact hnone j ⟨.running t, hj, rfl⟩
  rw [hx]
  cases x with
  | ended => exact .inl rfl
  | failed => exact .inr rfl
  | built => cases hfresh
  | idled => cases hfresh
  | counted => cases hfresh
  | _ => cases hdead

theorem Ready.step (h : Ready cfg B r s) {act : Act} (hact : Orderly B s act)
    (hstep : (poolRuns cfg B).step s act = some s') (hlighter : Lighter r s s') :
    Ready cfg B r s' where
  inv := exitInv_step h.inv hact hstep
  walking := by
    rw [hlighter.owner]
    exact h.walking
  halted := hlighter.halted.trans h.halted
  mode := hlighter.running.trans h.mode
  exit := by
    have hturn := step_turn h.inv.life.threads.pool.order.frames hstep
    rcases h.exit with hended | hfailed
    · exact .inl fun hrunning => hended (status_running hturn hrunning)
    · exact .inr (Nat.le_trans hfailed (failedThreads_mono hturn))

/-- **With an exit the workers can leave.** -/
theorem Ready.canFinish (h : Ready cfg B r s) : CanFinish cfg B s := by
  have hdrain (s : System) (h : Ready cfg B r s) (hin : ¬ Left s) : ∃ act s', act.Continues ∧
      (poolRuns cfg B).step s act = some s' ∧ Ready cfg B r s' ∧ s'.weight r < s.weight r := by
    have hlive : ∃ k, Live s (.worker k) := by
      by_contra hnone
      exact hin (left_of_none_live h fun k hk => hnone ⟨k, hk⟩)
    obtain ⟨k, hk⟩ := hlive
    obtain ⟨act, s', hcontinues, hact, hstep, hlighter⟩ := exists_moves h hk
    exact ⟨act, s', hcontinues, hstep, h.step hact hstep hlighter, hlighter.weight⟩
  obtain ⟨acts, s', hacts, hrun, hready, hleft⟩ := StepSystem.exec_drain hdrain h
  exact ⟨acts, s', hacts, hrun, hready.halted, hleft⟩

/-- A pool under destruction whose workers have no exit. -/
structure Staying (cfg : Config) (s : System) : Prop where
  threads : ThreadsInv cfg s
  closing : s.owner.closing = true
  running : s.board.status = .running
  few : s.failedThreads < cfg.atLeast

/-- One of them is in its loop. -/
theorem Staying.not_left (h : Staying cfg s) : ¬ Left s := by
  intro hleft
  obtain ⟨k, x, hx, hpresent⟩ := exists_serving_of_few h.few h.threads.pool.order
    h.threads.pool.counts h.threads.staffed h.running
    (OwnerPlace.constructed_of_closing h.closing)
  -- it has not retired, so it is in the list
  have hlisted : k ∈ s.pool.threadPool := by
    obtain ⟨n, hg⟩ := h.threads.reaped
    refine hg.reaping.listed k (System.built_iff.mpr ⟨x, hx⟩) fun hgone => ?_
    obtain ⟨l, hl, hout⟩ := h.threads.retirement.gone k (List.mem_of_mem_take hgone)
    rw [hx] at hl
    cases hl
    cases x with
    | retireUnlock => cases hpresent
    | leave => cases hpresent
    | ended => cases hpresent
    | _ => cases hout
  rcases hleft k hlisted with hended | hfailed
  · rw [hx] at hended
    cases hended
    cases hpresent
  · rw [hx] at hfailed
    cases hfailed
    cases hpresent

theorem Staying.step (h : Staying cfg s) {act : Act} (hact : act.Continues)
    (hstep : (poolRuns cfg B).step s act = some s') : Staying cfg s' := by
  have hturn := step_turn h.threads.pool.order.frames hstep
  have hcreates : Creates s act := by
    cases act with
    | move p env => exact hact.2
    | _ => trivial
  exact {
    threads := threadsInv_step h.threads hstep
    closing := closing_kept hturn h.closing
    running := by
      refine status_kept h.threads.staffed hturn ?_ h.running
      rintro caller rfl
      exact hact
    few := Nat.lt_of_le_of_lt (failedThreads_le hcreates hturn) h.few }

/-- **Without an exit they never leave.** -/
theorem Staying.not_canFinish (h : Staying cfg s) : ¬ CanFinish cfg B s := by
  rintro ⟨acts, s', hacts, hrun, -, hleft⟩
  have hstays : Staying cfg s' :=
    StepSystem.exec_invariant_along (fun _ _ _ hs hact hstep => hs.step hact hstep) h
      (StepSystem.along_of_mem hacts s) hrun
  exact hstays.not_left hleft

/-- **When the destructor can finish.**  In a run in which the destructor and the monitor do not go
for the same thread, and no task meets a failing assertion: from a state in which the destructor has
notified the workers, these can leave their loops if and only if the pool is not running any more, or
as many of its threads have failed to start as it keeps. -/
theorem destructor_can_finish_iff (cfg : Config) (B : Build) (acts : List Act) {s : System}
    (hrun : (poolRuns cfg B).exec System.init acts = some s)
    (hcond : (poolRuns cfg B).Along (Orderly B) System.init acts)
    (hwalking : s.owner.walking = true) (hhalted : s.halted = none) :
    CanFinish cfg B s ↔ s.HasExit cfg := by
  have hinv : ExitInv cfg B s := exitInv_run hcond hrun
  constructor
  · intro hfinish
    by_contra hnone
    rw [System.HasExit, not_or, not_not, Nat.not_le] at hnone
    have hstays : Staying cfg s :=
      ⟨hinv.life.threads, OwnerPlace.closing_of_walking hwalking, hnone.1, hnone.2⟩
    exact hstays.not_canFinish hfinish
  · intro hexit
    have hready : Ready cfg B (decide (s.pool.status = .running)) s :=
      ⟨hinv, hwalking, hhalted, decide_eq_true_iff.symm, hexit⟩
    exact hready.canFinish

/-- A pool that was shut down while its worker waited. -/
theorem destructor_can_finish_iff_one :
    ∃ s, (poolRuns oneWorker .debug).exec System.init
      (constructOne ++ steps (.worker 0) 2 ++ [.shutDown .external, .destroy] ++ steps .owner 2) =
        some s ∧ s.workers.map Worker.place = [.woken] ∧ CanFinish oneWorker .debug s := by
  have hend : ((poolRuns oneWorker .debug).exec System.init
      (constructOne ++ steps (.worker 0) 2 ++ [.shutDown .external, .destroy] ++
        steps .owner 2)).map
        (fun s => (s.workers.map Worker.place, s.owner, s.halted, s.pool.status)) =
      some ([.woken], .walk (some 0), none, .shutdown) := by
    decide +kernel
  have hcond : (poolRuns oneWorker .debug).Along (Orderly .debug) System.init
      (constructOne ++ steps (.worker 0) 2 ++ [.shutDown .external, .destroy] ++
        steps .owner 2) := by
    decide +kernel
  obtain ⟨s, hrun, hend⟩ := Option.map_eq_some_iff.mp hend
  simp only [Prod.mk.injEq] at hend
  obtain ⟨hplaces, howner, hhalted, hstatus⟩ := hend
  have hfinish := (destructor_can_finish_iff oneWorker .debug _ hrun hcond (by rw [howner]; rfl)
    hhalted).mpr (.inl (by rw [hstatus]; decide))
  exact ⟨s, hrun, hplaces, hfinish⟩

/-- A pool that was not shut down: its worker goes back to its wait, whatever happens. -/
theorem running_pool_never_finishes :
    ∃ s, (poolRuns oneWorker .debug).exec System.init
      (constructOne ++ steps (.worker 0) 2 ++ [.destroy] ++ steps .owner 2) = some s ∧
      s.owner = .walk (some 0) ∧ s.halted = none ∧ s.calls = [] ∧
      ¬ CanFinish oneWorker .debug s := by
  have hend : ((poolRuns oneWorker .debug).exec System.init
      (constructOne ++ steps (.worker 0) 2 ++ [.destroy] ++ steps .owner 2)).map
        (fun s => (s.owner, s.halted, s.calls, s.pool.status, s.failedThreads)) =
      some (.walk (some 0), none, [], .running, 0) := by
    decide +kernel
  obtain ⟨s, hrun, hend⟩ := Option.map_eq_some_iff.mp hend
  simp only [Prod.mk.injEq] at hend
  obtain ⟨howner, hhalted, hcalls, hstatus, hfailed⟩ := hend
  have hstays : Staying oneWorker s := {
    threads := threadsInv_run hrun
    closing := by
      rw [howner]
      rfl
    running := hstatus
    few := by
      rw [hfailed]
      decide }
  exact ⟨s, hrun, howner, hhalted, hcalls, hstays.not_canFinish⟩

end TurboNet.Base
