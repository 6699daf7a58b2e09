/-
# TurboNet.Base.PoolDrain — what a pool does with the tasks it accepted.

`Ledger` follows a task: it is pushed once, popped in the order of pushing, and from then on in the
hands of the worker that popped it until that worker has executed it.  So what can go wrong is that a
task stays in the queue.  A worker leaves only with an empty queue or with another worker left behind
(`Served`); but `Commit` tests the status long before it pushes, and when the pool is shut down in
between, the last worker may be gone by then.  `executes_every_task` is about the runs where that
does not happen.
-/
import TurboNet.Base.PoolCounts

namespace TurboNet.Base

open TurboNet.Lib
open TurboNet.Logger (Build Halt)

variable {cfg : Config} {B : Build} {env : Env} {s s' : System}

/-! ## The way of a task -/

/-- Has this call pushed its task? -/
def Place.pushed : Place → Bool
  | .call x => x.stage != .unpushed
  | _ => false

/-- The task in this worker's hands. -/
def Place.task : Place → Option Task
  | .worker x =>
    match x.role with
    | .holding t => some t
    | _ => none
  | _ => none

/-- Every task is pushed once, popped in order, and then in one worker's hands or executed by it. -/
structure Ledger (s : System) : Prop where
  order : s.board.history.pushed = s.board.history.popped.map Prod.snd ++ s.board.tasks
  once : ∀ c, s.board.history.pushed.count c = if (s.placeOf (.call c)).pushed then 1 else 0
  held : ∀ k t, s.board.history.popped.count (k, t) = s.board.history.executed.count (k, t) +
    if (s.placeOf (.worker k)).task = some t then 1 else 0

/-- What a move does not tell about its party, it tells about nobody. -/
theorem Move.same {α : Type} (f : Place → α) {p : Party} {x y : Place} {also : Option Party}
    (h : Move s s' p x y also) (hxy : f y = f x)
    (halso : ∀ r, also = some r → f (s'.placeOf r) = f (s.placeOf r)) {q : Party}
    (hq : q ≠ .monitor) : f (s'.placeOf q) = f (s.placeOf q) := by
  by_cases hp : q = p
  · rw [hp, h.before, h.after, hxy]
  · by_cases hr : some q = also
    · exact halso q hr.symm
    · rw [h.others q hp hq hr]

theorem Ledger.congr (hl : Ledger s) (hhistory : s'.board.history = s.board.history)
    (htasks : s'.board.tasks = s.board.tasks)
    (hpushed : ∀ c, (s'.placeOf (.call c)).pushed = (s.placeOf (.call c)).pushed)
    (htask : ∀ k, (s'.placeOf (.worker k)).task = (s.placeOf (.worker k)).task) : Ledger s' where
  order := by rw [hhistory, htasks, hl.order]
  once := fun c => by rw [hhistory, hpushed, hl.once]
  held := fun k t => by rw [hhistory, htask, hl.held]

/-- A move that pushes nothing and after which the same tasks are in the workers' hands. -/
theorem Move.ledger_kept {p : Party} {x y : Place} {also : Option Party}
    (h : Move s s' p x y also) (hl : Ledger s) (hhistory : s'.board.history = s.board.history)
    (htasks : s'.board.tasks = s.board.tasks) (hpushed : y.pushed = x.pushed)
    (htask : y.task = x.task) (halso : ∀ r, also = some r →
      (s'.placeOf r).pushed = (s.placeOf r).pushed ∧ (s'.placeOf r).task = (s.placeOf r).task) :
    Ledger s' := by
  apply hl.congr hhistory htasks
  · exact fun c => h.same Place.pushed hpushed (fun r hr => (halso r hr).1) (by simp)
  · exact fun k => h.same Place.task htask (fun r hr => (halso r hr).2) (by simp)

/-- A worker's move takes out of its hands what it held before, and puts in what it holds after. -/
theorem Move.hands {k : Nat} {x y : Place} (h : Move s s' (.worker k) x y none)
    {a b : Option Task} (ha : x.task = a) (hb : y.task = b) (j : Nat) (u : Task) :
    (if (s'.placeOf (.worker j)).task = some u then 1 else 0) + (if j = k ∧ a = some u then 1 else 0) =
      (if (s.placeOf (.worker j)).task = some u then 1 else 0) +
        if j = k ∧ b = some u then 1 else 0 := by
  by_cases hj : j = k
  · subst hj
    rw [h.before, h.after, ha, hb]
    simp only [true_and]
    exact Nat.add_comm _ _
  · rw [h.worker_others j hj]
    simp only [hj, false_and]

/-- One more event of worker `k` about `t` in a history. -/
theorem count_concat_event (l : List (Nat × Task)) (k j : Nat) (t u : Task) :
    (l ++ [(k, t)]).count (j, u) = l.count (j, u) + if j = k ∧ some t = some u then 1 else 0 := by
  rw [List.count_append, List.count_singleton]
  by_cases hj : k = j
  · simp [hj]
  · simp [hj, Ne.symm hj]

theorem Ledger.pop (hl : Ledger s) {k : Nat} {t : Task} {rest : List Task}
    (hmove : Move s s' (.worker k) (.worker .exitTest) (.worker (.unlockTask t)) none)
    (htasks : s.board.tasks = t :: rest) (hboard : s'.board =
      { s.board with tasks := rest, history.popped := s.board.history.popped ++ [(k, t)] }) :
    Ledger s' where
  order := by
    rw [hboard]
    show s.board.history.pushed = (s.board.history.popped ++ [(k, t)]).map Prod.snd ++ rest
    rw [hl.order, htasks, List.map_append, List.append_assoc]
    rfl
  once := fun c => by
    rw [hboard, hmove.same Place.pushed rfl (by simp) (by simp)]
    exact hl.once c
  held := fun j u => by
    have hold := hl.held j u
    rw [hboard]
    show (s.board.history.popped ++ [(k, t)]).count (j, u) =
      s.board.history.executed.count (j, u) + _
    have hands := hmove.hands (a := none) (b := some t) rfl rfl j u
    rw [count_concat_event, hold]
    simp only [reduceCtorEq, and_false, if_false, Nat.add_zero] at hands
    omega

theorem Ledger.finish (hl : Ledger s) {k : Nat} {t : Task}
    (hmove : Move s s' (.worker k) (.worker (.running t)) (.worker .endTask) none)
    (hboard : s'.board =
      { s.board with history.executed := s.board.history.executed ++ [(k, t)] }) : Ledger s' where
  order := by
    rw [hboard]
    exact hl.order
  once := fun c => by
    rw [hboard, hmove.same Place.pushed rfl (by simp) (by simp)]
    exact hl.once c
  held := fun j u => by
    have hold := hl.held j u
    rw [hboard]
    show s.board.history.popped.count (j, u) =
      (s.board.history.executed ++ [(k, t)]).count (j, u) + _
    have hands := hmove.hands (a := some t) (b := none) rfl rfl j u
    rw [count_concat_event, hold]
    simp only [reduceCtorEq, and_false, if_false, Nat.add_zero] at hands
    omega

theorem Ledger.push (hl : Ledger s) {c : Nat}
    (hmove : Move s s' (.call c) (.call .emplace) (.call .unlock) none)
    (hboard : s'.board =
      { s.board with
        tasks := s.board.tasks ++ [c], history.pushed := s.board.history.pushed ++ [c] }) :
    Ledger s' where
  order := by
    rw [hboard]
    show s.board.history.pushed ++ [c] =
      s.board.history.popped.map Prod.snd ++ (s.board.tasks ++ [c])
    rw [hl.order, List.append_assoc]
  once := fun d => by
    have hold := hl.once d
    rw [hboard]
    show (s.board.history.pushed ++ [c]).count d = _
    rw [List.count_append, hold, List.count_singleton]
    by_cases hd : d = c
    · subst hd
      rw [hmove.before, hmove.after]
      simp [Place.pushed, CallPlace.stage]
    · rw [hmove.others (.call d) (by simpa using hd) (by simp) (by simp)]
      simp [Ne.symm hd]
  held := fun k t => by
    rw [hboard, hmove.same Place.task rfl (by simp) (by simp)]
    exact hl.held k t

theorem ledger_init : Ledger System.init where
  order := rfl
  once := fun c => by simp [System.init, System.board, System.placeOf, Place.pushed]
  held := fun k t => by simp [System.init, System.board, System.placeOf, Place.task]

/-- The worker that is being added has no task in its hands. -/
theorem Growth.task_kept {k size : Nat} {a a' : AddPlace} {z z' : Place} {b b' : Board}
    (h : Growth cfg env k size a a' z z' b b') : z'.pushed = z.pushed ∧ z'.task = z.task := by
  cases h with
  | build => exact ⟨rfl, rfl⟩
  | countIdle => exact ⟨rfl, rfl⟩
  | countNow => exact ⟨rfl, rfl⟩
  | start => exact ⟨rfl, rfl⟩
  | fail => exact ⟨rfl, rfl⟩

theorem ledger_turn {act : Act} (hl : Ledger s) (h : Turn cfg s s' act) : Ledger s' := by
  cases h with
  | @worker _ k x y hmove hturn =>
    generalize hb : s.board = b at hturn
    generalize hb' : s'.board = b' at hturn
    have hsame (hhistory : s'.board.history = s.board.history)
        (htasks : s'.board.tasks = s.board.tasks)
        (htask : (Place.worker y).task = (Place.worker x).task) : Ledger s' :=
      hmove.ledger_kept hl hhistory htasks rfl htask (by simp)
    cases hturn with
    | quiet hrole => exact hsame (by rw [hb, hb']) (by rw [hb, hb']) (by simp [Place.task, hrole])
    | uncount hx hy =>
      have hnone : (Place.worker x).task = none := by
        rcases hx with hx | hx
        · simp [Place.task, hx]
        · simp [Place.task, hx]
      have hnone' : (Place.worker y).task = none := by simp [Place.task, hy]
      exact hsame (by rw [hb, hb']) (by rw [hb, hb']) (hnone'.trans hnone.symm)
    | pop htasks =>
      subst hb
      exact hl.pop hmove htasks hb'
    | finish =>
      subst hb
      exact hl.finish hmove hb'
    | park => exact hsame (by rw [hb, hb']) (by rw [hb, hb']) rfl
    | wake => exact hsame (by rw [hb, hb']) (by rw [hb, hb']) rfl
    | timeOut => exact hsame (by rw [hb, hb']) (by rw [hb, hb']) rfl
    | stay => exact hsame (by rw [hb, hb']) (by rw [hb, hb']) rfl
    | retire => exact hsame (by rw [hb, hb']) (by rw [hb, hb']) rfl
    | quit => exact hsame (by rw [hb, hb']) (by rw [hb, hb']) rfl
    | terminate => exact hsame (by rw [hb, hb']) (by rw [hb, hb']) rfl
    | leave => exact hsame (by rw [hb, hb']) (by rw [hb, hb']) rfl
  | call hmove hturn =>
    generalize hb : s.board = b at hturn
    generalize hb' : s'.board = b' at hturn
    cases hturn with
    | quiet hstage =>
      exact hmove.ledger_kept hl (by rw [hb, hb']) (by rw [hb, hb']) (by simp [Place.pushed, hstage])
        rfl (by simp)
    | push =>
      subst hb
      exact hl.push hmove hb'
  | notify hmove hparked hwoken hboard =>
    refine hmove.ledger_kept hl (by rw [hboard]) (by rw [hboard]) rfl rfl ?_
    rintro r ⟨⟩
    rw [hparked, hwoken]
    exact ⟨rfl, rfl⟩
  | notifyNone hmove _ hboard =>
    exact hmove.ledger_kept hl (by rw [hboard]) (by rw [hboard]) rfl rfl (by simp)
  | owner hmove _ hboard =>
    exact hmove.ledger_kept hl (by rw [hboard]) (by rw [hboard]) rfl rfl (by simp)
  | monitor hmove hboard =>
    exact hmove.ledger_kept hl (by rw [hboard]) (by rw [hboard]) rfl rfl (by simp)
  | commit _ hmove hboard =>
    exact hmove.ledger_kept hl (by rw [hboard]) (by rw [hboard]) rfl rfl (by simp)
  | notifyAll _ _ hworkers hcalls _ _ hboard =>
    exact hl.congr (by rw [hboard]) (by rw [hboard]) (fun c => by rw [hcalls])
      fun k => woken_same Place.task (hworkers k) rfl
  | shutDown hplaces _ hboard =>
    exact hl.congr (by rw [hboard]) (by rw [hboard]) (fun _ => by rw [hplaces])
      fun _ => by rw [hplaces]
  | still hplaces _ hboard =>
    exact hl.congr (by rw [hboard]) (by rw [hboard]) (fun _ => by rw [hplaces])
      fun _ => by rw [hplaces]
  | @grow _ p k size a a' z z' hp hmove hbefore hafter hgrowth =>
    have hplace : ((p.adding a').pushed = (p.adding a).pushed) ∧
        (p.adding a').task = (p.adding a).task := by
      rcases hp with rfl | ⟨c, rfl⟩
      · exact ⟨rfl, rfl⟩
      · exact ⟨rfl, rfl⟩
    obtain ⟨-, htasks, hhistory⟩ := hgrowth.board_kept
    refine hmove.ledger_kept hl hhistory htasks hplace.1 hplace.2 ?_
    rintro r ⟨⟩
    rw [hbefore, hafter]
    exact hgrowth.task_kept

/-! ## Who is left to run it -/

/-- A task in the queue has a worker that is not on its way out. -/
def Served (s : System) : Prop :=
  s.board.tasks ≠ [] → ∃ k x, s.placeOf (.worker k) = .worker x ∧ x.role.leaving = false

/-- `Commit` pushes while some worker has not left its loop. -/
def PushServed (s : System) : Act → Prop
  | .move (.call c) _ =>
    s.placeOf (.call c) = .call .emplace → ∃ w ∈ s.workers, w.place ≠ .ended
  | _ => True

instance (s : System) : (act : Act) → Decidable (PushServed s act)
  | .move (.call _) _ => inferInstanceAs (Decidable (_ → ∃ w ∈ s.workers, _))
  | .move .owner _ | .move .monitor _ | .move (.worker _) _ | .wake _ | .wakeMonitor | .commit _
  | .shutDown _ | .destroy => .isTrue trivial

theorem Served.of_staying {k : Nat} {x : WorkerPlace} (hx : s.placeOf (.worker k) = .worker x)
    (h : x.role.leaving = false) : Served s := fun _ => ⟨k, x, hx, h⟩

/-- A step after which no more tasks wait, and a worker that was not on its way out is not now. -/
theorem Served.kept (hserved : Served s) (htasks : s'.board.tasks ≠ [] → s.board.tasks ≠ [])
    (h : ∀ k x, s.placeOf (.worker k) = .worker x → x.role.leaving = false →
      ∃ y, s'.placeOf (.worker k) = .worker y ∧ y.role.leaving = false) : Served s' := by
  intro hwaiting
  obtain ⟨k, x, hx, hstays⟩ := hserved (htasks hwaiting)
  obtain ⟨y, hy, hstays'⟩ := h k x hx hstays
  exact ⟨k, y, hy, hstays'⟩

/-- The tasks and the workers are as they were. -/
theorem Served.congr (hserved : Served s) (hboard : s'.board.tasks = s.board.tasks)
    (h : ∀ k, s'.placeOf (.worker k) = s.placeOf (.worker k)) : Served s' :=
  hserved.kept (fun hwaiting => hboard ▸ hwaiting) fun k x hx hstays => ⟨x, (h k).trans hx, hstays⟩

theorem served_worker (hcore : 1 ≤ cfg.corePoolSize) (hs : Order s) (hc : Counts cfg s)
    (hserved : Served s) {act : Act} {k : Nat} {x y : WorkerPlace}
    (hmove : Move s s' (.worker k) (.worker x) (.worker y) none)
    (h : WorkerTurn cfg k act x y s.board s'.board) : Served s' := by
  generalize hb : s.board = b at h
  generalize hb' : s'.board = b' at h
  -- a worker that was leaving goes on leaving, and the others stand where they stood
  have hsame (htasks : s'.board.tasks = s.board.tasks) (hrole : x.role.leaving = true) :
      Served s' := by
    apply hserved.kept (fun hwaiting => htasks ▸ hwaiting)
    intro j z hz hstays
    have hj : j ≠ k := by
      rintro rfl
      rw [hmove.before] at hz
      cases hz
      rw [hrole] at hstays
      cases hstays
    exact ⟨z, (hmove.worker_others j hj).trans hz, hstays⟩
  cases h with
  | quiet hrole =>
    cases hleaving : y.role.leaving with
    | false => exact .of_staying hmove.after hleaving
    | true => exact hsame (by rw [hb, hb']) (by rw [← hrole]; exact hleaving)
  | park => exact .of_staying hmove.after rfl
  | wake => exact .of_staying hmove.after rfl
  | timeOut => exact .of_staying hmove.after rfl
  | stay => exact .of_staying hmove.after rfl
  | pop => exact .of_staying hmove.after rfl
  | finish => exact .of_staying hmove.after rfl
  | retire hmore =>
    have htasks : Mutex.tasks ∈ (s.placeOf (.worker k)).guards := by
      rw [hmove.before]
      exact List.mem_singleton.mpr rfl
    have hnow : 1 < s.board.now := by
      rw [hb]
      omega
    obtain ⟨j, z, hj, hz, -, hstays⟩ := exists_staying hs hc htasks hnow
    exact .of_staying ((hmove.worker_others j hj).trans hz) hstays
  | quit _ hempty =>
    intro hwaiting
    rw [hb'] at hwaiting
    exact absurd hempty hwaiting
  | terminate => exact hsame (by rw [hb, hb']) rfl
  | leave => exact hsame (by rw [hb, hb']) rfl
  | uncount hx =>
    apply hsame (by rw [hb, hb'])
    rcases hx with hx | hx
    · rw [hx]
      rfl
    · rw [hx]
      rfl

theorem served_turn (hcore : 1 ≤ cfg.corePoolSize) (hs : Order s) (hc : Counts cfg s)
    (hserved : Served s) {act : Act} (hact : PushServed s act) (h : Turn cfg s s' act) :
    Served s' := by
  cases h with
  | worker hmove hturn => exact served_worker hcore hs hc hserved hmove hturn
  | @call env c x y hmove hturn =>
    generalize hb : s.board = b at hturn
    generalize hb' : s'.board = b' at hturn
    cases hturn with
    | quiet => exact hserved.congr (by rw [hb, hb']) (hmove.workers_kept (by simp))
    | push =>
      -- the call holds `tasks_mutex_`, so a worker that has not left is not on its way out
      obtain ⟨w, hw, hended⟩ := hact hmove.before
      obtain ⟨k, hk⟩ := List.getElem?_of_mem hw
      have hplace : s.placeOf (.worker k) = .worker w.place :=
        System.placeOf_worker_iff.mpr ⟨w, hk, rfl⟩
      have htasks : Mutex.tasks ∈ (s.placeOf (.call c)).guards := by
        rw [hmove.before]
        exact List.mem_singleton.mpr rfl
      have hstays := hs.not_leaving htasks (by simp) hplace hended
      exact .of_staying ((hmove.workers_kept (by simp) k).trans hplace) hstays
  | notify _ _ hwoken => exact .of_staying hwoken rfl
  | notifyNone hmove _ hboard =>
    exact hserved.congr (by rw [hboard]) (hmove.workers_kept (by simp))
  | owner hmove _ hboard => exact hserved.congr (by rw [hboard]) (hmove.workers_kept (by simp))
  | monitor hmove hboard => exact hserved.congr (by rw [hboard]) (hmove.workers_kept (by simp))
  | commit _ hmove hboard => exact hserved.congr (by rw [hboard]) (hmove.workers_kept (by simp))
  | shutDown hplaces _ hboard => exact hserved.congr (by rw [hboard]) fun _ => by rw [hplaces]
  | still hplaces _ hboard => exact hserved.congr (by rw [hboard]) fun _ => by rw [hplaces]
  | notifyAll _ _ hworkers _ _ _ hboard =>
    apply hserved.kept (fun hwaiting => hboard ▸ hwaiting)
    intro k x hx hstays
    rw [hworkers]
    split
    · exact ⟨.woken, rfl, rfl⟩
    · exact ⟨x, hx, hstays⟩
  | grow hp hmove hbefore hafter hgrowth =>
    generalize s.board = b at hgrowth
    generalize s'.board = b' at hgrowth
    cases hgrowth with
    | build => exact .of_staying hafter rfl
    | countIdle => exact .of_staying hafter rfl
    | countNow => exact .of_staying hafter rfl
    | start => exact .of_staying hafter rfl
    | fail => exact .of_staying hafter rfl

/-! ## Runs -/

/-- What holds in every state of a pool. -/
structure PoolInv (cfg : Config) (s : System) : Prop where
  order : Order s
  counts : Counts cfg s
  ledger : Ledger s

theorem poolInv_init : PoolInv cfg System.init := ⟨order_init, counts_init, ledger_init⟩

theorem poolInv_step {act : Act} (hs : PoolInv cfg s)
    (h : (poolRuns cfg B).step s act = some s') : PoolInv cfg s' := by
  have hturn := step_turn hs.order.frames h
  exact ⟨order_turn hs.order hturn, counts_turn hs.order hs.counts hturn,
    ledger_turn hs.ledger hturn⟩

theorem poolInv_run {acts : List Act} (h : (poolRuns cfg B).exec System.init acts = some s) :
    PoolInv cfg s :=
  StepSystem.exec_invariant (fun _ _ _ => poolInv_step) poolInv_init h

/-- The queue is empty, and every task whose `Commit` returned was executed once. -/
structure AllExecuted (s : System) : Prop where
  empty : s.pool.tasks = []
  once : ∀ c call, s.calls[c]? = some call → call.place = .returned →
    (s.history.executed.map Prod.snd).count c = 1

theorem PoolInv.allExecuted (hs : PoolInv cfg s) (hserved : Served s)
    (hleft : ∀ w ∈ s.workers, w.place = .ended) : AllExecuted s := by
  have hended (k : Nat) (x : WorkerPlace) (hx : s.placeOf (.worker k) = .worker x) :
      x = .ended := by
    obtain ⟨w, hw, rfl⟩ := System.placeOf_worker_iff.mp hx
    exact hleft w (List.mem_of_getElem? hw)
  have hempty : s.board.tasks = [] := by
    by_contra hwaiting
    obtain ⟨k, x, hx, hstays⟩ := hserved hwaiting
    rw [hended k x hx] at hstays
    cases hstays
  -- nothing is in anybody's hands, so what was popped was executed
  have hperm : s.board.history.popped.Perm s.board.history.executed := by
    rw [List.perm_iff_count]
    rintro ⟨k, t⟩
    rw [hs.ledger.held k t]
    have hnone : (s.placeOf (.worker k)).task = none := by
      cases hx : s.placeOf (.worker k) with
      | worker x =>
        rw [hended k x hx]
        rfl
      | _ => rfl
    rw [hnone]
    rfl
  refine ⟨hempty, ?_⟩
  intro c call hc hreturned
  have hpushed : (s.placeOf (.call c)).pushed = true := by
    rw [System.placeOf_call_iff.mpr ⟨call, hc, rfl⟩, hreturned]
    rfl
  have horder := hs.ledger.order
  rw [hempty, List.append_nil] at horder
  have honce := hs.ledger.once c
  rw [hpushed, horder] at honce
  have hcount := (hperm.map Prod.snd).count_eq c
  rw [honce] at hcount
  exact hcount.symm

/-- **A pool executes what it accepted, if somebody is left when it is pushed.**  In every run in
which each push finds a worker that has not left its loop, once all workers have left, the queue is
empty and every task whose `Commit` returned has been executed exactly once. -/
theorem executes_every_task (cfg : Config) (B : Build) (hcore : 1 ≤ cfg.corePoolSize)
    (acts : List Act) {s : System} (hrun : (poolRuns cfg B).exec System.init acts = some s)
    (hpushes : (poolRuns cfg B).Along PushServed System.init acts)
    (hleft : ∀ w ∈ s.workers, w.place = .ended) : AllExecuted s := by
  have hinv : PoolInv cfg s ∧ Served s := by
    apply StepSystem.exec_invariant_along (C := PushServed) ?_ ?_ hpushes hrun
    · rintro t act t' ⟨hs, hserved⟩ hact hstep
      have hturn := step_turn hs.order.frames hstep
      exact ⟨poolInv_step hs hstep, served_turn hcore hs.order hs.counts hserved hact hturn⟩
    · exact ⟨poolInv_init, fun hwaiting => absurd rfl hwaiting⟩
  exact hinv.1.allExecuted hinv.2 hleft

/-- `n` steps of a party whose environment decides nothing. -/
def steps (p : Party) (n : Nat) : List Act := List.replicate n (.move p {})

/-- The constructor of a pool of one worker; the kernel names the worker's thread 7. -/
def constructOne : List Act :=
  steps .owner 1 ++ steps .monitor 1 ++ steps .owner 6 ++ [.move .owner { tid := 7 }] ++
    steps (.worker 0) 1 ++ steps .owner 3

/-- A task pushed before the pool is shut down. -/
theorem executes_every_task_one :
    ∃ s, (poolRuns oneWorker .debug).exec System.init
      (constructOne ++ [.commit .external] ++ steps (.call 0) 6 ++ [.shutDown .external] ++
        steps (.worker 0) 14 ++ [.destroy] ++ steps .owner 5) = some s ∧ AllExecuted s := by
  obtain ⟨s, hrun⟩ := Option.isSome_iff_exists.mp (show ((poolRuns oneWorker .debug).exec
    System.init (constructOne ++ [.commit .external] ++ steps (.call 0) 6 ++
      [.shutDown .external] ++ steps (.worker 0) 14 ++ [.destroy] ++ steps .owner 5)).isSome
    by decide +kernel)
  have hend : ((poolRuns oneWorker .debug).exec System.init
      (constructOne ++ [.commit .external] ++ steps (.call 0) 6 ++ [.shutDown .external] ++
        steps (.worker 0) 14 ++ [.destroy] ++ steps .owner 5)).all
        (fun s => s.workers.all fun w => w.place == .ended) = true := by
    decide +kernel
  rw [hrun, Option.all_some, List.all_eq_true] at hend
  have hleft (w : Worker) (hw : w ∈ s.workers) : w.place = .ended := by simpa using hend w hw
  exact ⟨s, hrun, executes_every_task oneWorker .debug (by decide) _ hrun (by decide +kernel) hleft⟩

/-- The pool is shut down between the test of `Commit` and its push, and the worker leaves. -/
theorem shutDown_strands_task :
    ∃ s, (poolRuns oneWorker .debug).exec System.init
      (constructOne ++ [.commit .external] ++ steps (.call 0) 1 ++ [.shutDown .external] ++
        steps (.worker 0) 7 ++ steps (.call 0) 5 ++ [.destroy] ++ steps .owner 5) = some s ∧
      s.owner = .destroyed ∧ s.workers.map Worker.place = [.ended] ∧
      s.calls.map Call.place = [.returned] ∧ ¬ AllExecuted s := by
  obtain ⟨s, hrun⟩ := Option.isSome_iff_exists.mp (show ((poolRuns oneWorker .debug).exec
    System.init (constructOne ++ [.commit .external] ++ steps (.call 0) 1 ++
      [.shutDown .external] ++ steps (.worker 0) 7 ++ steps (.call 0) 5 ++ [.destroy] ++
      steps .owner 5)).isSome by decide +kernel)
  have hend : ((poolRuns oneWorker .debug).exec System.init
      (constructOne ++ [.commit .external] ++ steps (.call 0) 1 ++ [.shutDown .external] ++
        steps (.worker 0) 7 ++ steps (.call 0) 5 ++ [.destroy] ++ steps .owner 5)).map
        (fun s => (s.owner, s.workers.map Worker.place, s.calls.map Call.place, s.pool.tasks)) =
      some (.destroyed, [.ended], [.returned], [0]) := by
    decide +kernel
  rw [hrun] at hend
  simp only [Option.map_some, Option.some.injEq, Prod.mk.injEq] at hend
  obtain ⟨howner, hworkers, hcalls, htasks⟩ := hend
  refine ⟨s, hrun, howner, hworkers, hcalls, ?_⟩
  intro hexecuted
  have hempty := hexecuted.empty
  rw [htasks] at hempty
  cases hempty

/-! ## Commit order -/

/-- Tasks leave the queue in the order in which they entered it, each once and to one worker, which
is the one that runs it. -/
structure InCommitOrder (s : System) : Prop where
  order : s.history.pushed = s.history.popped.map Prod.snd ++ s.pool.tasks
  popped_once : (s.history.popped.map Prod.snd).Nodup
  executed_once : (s.history.executed.map Prod.snd).Nodup
  popper_runs : ∀ k t, (k, t) ∈ s.history.popped ↔
    (k, t) ∈ s.history.executed ∨ ∃ w, s.workers[k]? = some w ∧ w.place.role = .holding t

theorem Place.task_eq_some {z : Place} {t : Task} :
    z.task = some t ↔ ∃ x, z = .worker x ∧ x.role = .holding t := by
  cases z with
  | worker x =>
    cases hrole : x.role with
    | holding u => simp [Place.task, hrole]
    | _ => simp [Place.task, hrole]
  | _ => simp [Place.task]

theorem Ledger.inCommitOrder (hl : Ledger s) : InCommitOrder s := by
  have horder : s.history.pushed = s.history.popped.map Prod.snd ++ s.pool.tasks := hl.order
  have hpushed : s.history.pushed.Nodup := by
    rw [List.nodup_iff_count_le_one]
    intro c
    have honce : s.history.pushed.count c = _ := hl.once c
    rw [honce]
    split
    · exact Nat.le_refl 1
    · exact Nat.zero_le 1
  have hpopped : (s.history.popped.map Prod.snd).Nodup := by
    rw [horder] at hpushed
    exact hpushed.of_append_left
  have hheld (k : Nat) (t : Task) : s.history.popped.count (k, t) =
      s.history.executed.count (k, t) + if (s.placeOf (.worker k)).task = some t then 1 else 0 :=
    hl.held k t
  refine ⟨horder, hpopped, ?_, ?_⟩
  · -- what was executed had been popped
    have hmem (a : Nat × Task) (ha : a ∈ s.history.executed) : a ∈ s.history.popped := by
      obtain ⟨k, t⟩ := a
      rw [← List.count_pos_iff] at ha ⊢
      rw [hheld]
      omega
    apply List.Nodup.map_on
    · intro a ha b hb hab
      exact List.inj_on_of_nodup_map hpopped (hmem a ha) (hmem b hb) hab
    · rw [List.nodup_iff_count_le_one]
      rintro ⟨k, t⟩
      have hle := List.nodup_iff_count_le_one.mp hpopped.of_map (k, t)
      rw [hheld] at hle
      omega
  · intro k t
    have hholding : (∃ w, s.workers[k]? = some w ∧ w.place.role = .holding t) ↔
        (s.placeOf (.worker k)).task = some t := by
      rw [Place.task_eq_some]
      constructor
      · rintro ⟨w, hw, hrole⟩
        exact ⟨w.place, System.placeOf_worker_iff.mpr ⟨w, hw, rfl⟩, hrole⟩
      · rintro ⟨x, hx, hrole⟩
        obtain ⟨w, hw, rfl⟩ := System.placeOf_worker_iff.mp hx
        exact ⟨w, hw, hrole⟩
    rw [hholding, ← List.count_pos_iff, ← List.count_pos_iff, hheld]
    split
    · rename_i htask
      simp [htask]
    · rename_i htask
      simp [htask]

/-- **Tasks are started once and in the order of their commits**, in every state of a pool. -/
theorem starts_in_commit_order (cfg : Config) (B : Build) (acts : List Act) {s : System}
    (hrun : (poolRuns cfg B).exec System.init acts = some s) : InCommitOrder s :=
  (poolInv_run hrun).ledger.inCommitOrder

/-- Two tasks, of which the worker runs the first. -/
theorem starts_in_commit_order_two :
    ∃ s, (poolRuns oneWorker .debug).exec System.init
      (constructOne ++ [.commit .external, .commit .external] ++ steps (.call 0) 6 ++
        steps (.call 1) 6 ++ steps (.worker 0) 6) = some s ∧ s.pool.tasks = [1] ∧
      InCommitOrder s := by
  have hend : ((poolRuns oneWorker .debug).exec System.init
      (constructOne ++ [.commit .external, .commit .external] ++ steps (.call 0) 6 ++
        steps (.call 1) 6 ++ steps (.worker 0) 6)).map (fun s => s.pool.tasks) = some [1] := by
    decide +kernel
  obtain ⟨s, hrun, htasks⟩ := Option.map_eq_some_iff.mp hend
  exact ⟨s, hrun, htasks, starts_in_commit_order oneWorker .debug _ hrun⟩

end TurboNet.Base
