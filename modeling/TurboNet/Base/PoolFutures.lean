/-
# TurboNet.Base.PoolFutures — what the futures tell that `Commit` returns.

`Commit` wraps its call in a `packaged_task`, whose future it returns, and shares it with the lambda
it puts in the queue.  The task stores what the call comes to, a value or an exception; when the last
`shared_ptr` to it is gone, the future of a task that was not run is broken.  The shared states follow
the steps of the pool: `futures_tell_outcomes` says that each future gets the outcome of its own call
and no other, and that of those that were handed out only the ones are broken whose tasks stood in the
queue of a pool that was destroyed.
-/
import TurboNet.Lib.SharedState
import TurboNet.Base.PoolDestructor

namespace TurboNet.Base

open TurboNet.Lib
open TurboNet.Logger (Build Halt)

/-! ## Who shares a task -/

/-- The task of call `c` has no owner: not the call, not the queue, not a worker. -/
def System.abandoned (s : System) (c : Task) : Bool :=
  ((s.calls[c]?).any fun call => call.place.over) &&
    (s.owner == .destroyed || c ∉ s.pool.tasks) &&
      s.workers.all fun w => w.place.role != .holding c

/-- A pool, the shared states of the tasks by their calls, and what the calls came to that were run,
oldest first. -/
structure Promised (ρ : Type) where
  system : System
  state : Task → SharedState ρ
  settled : List (Task × ρ)

namespace Promised

variable {ρ : Type}

def start : Promised ρ := ⟨System.init, fun _ => .pending, []⟩

/-- `(*task)()` comes to `r`.  A `packaged_task` that was run before throws. -/
def run (p : Promised ρ) (t : Task) (r : ρ) : Option (Promised ρ) :=
  ((p.state t).satisfy r).map fun st =>
    { p with state := Function.update p.state t st, settled := p.settled ++ [(t, r)] }

/-- The pool goes to `s'`, and tasks that nobody shares any more are gone. -/
def goes (p : Promised ρ) (s' : System) : Promised ρ :=
  { p with
    system := s'
    state := fun c => if s'.abandoned c then (p.state c).abandon else p.state c }

/-- A step of the pool; if it runs a task to its end, this comes to `r`. -/
def step (cfg : Config) (B : Build) (p : Promised ρ) (act : Act × ρ) : Option (Promised ρ) :=
  (p.system.step cfg B act.1).bind fun s' =>
    match s'.history.executed.drop p.system.history.executed.length with
    | [] => some (p.goes s')
    | (_, t) :: _ => (p.run t act.2).map (·.goes s')

end Promised

/-- A pool with the futures of its tasks. -/
def promisedRuns (ρ : Type) (cfg : Config) (B : Build) : StepSystem (Promised ρ) (Act × ρ) where
  step := Promised.step cfg B

variable {ρ : Type} {cfg : Config} {B : Build} {s s' : System}

/-! ## Abandoned tasks -/

theorem abandoned_iff {c : Task} :
    s.abandoned c = true ↔
      (∃ x, s.placeOf (.call c) = .call x ∧ x.over = true) ∧
        (s.owner = .destroyed ∨ c ∉ s.board.tasks) ∧
          ∀ k, (s.placeOf (.worker k)).task ≠ some c := by
  have hover : ((s.calls[c]?).any fun call => call.place.over) = true ↔
      ∃ x, s.placeOf (.call c) = .call x ∧ x.over = true := by
    rw [Option.any_eq_true]
    constructor
    · rintro ⟨call, hcall, hover⟩
      exact ⟨call.place, System.placeOf_call_iff.mpr ⟨call, hcall, rfl⟩, hover⟩
    · rintro ⟨x, hx, hover⟩
      obtain ⟨call, hcall, rfl⟩ := System.placeOf_call_iff.mp hx
      exact ⟨call, hcall, hover⟩
  have hheld : (s.workers.all fun w => w.place.role != .holding c) = true ↔
      ∀ k, (s.placeOf (.worker k)).task ≠ some c := by
    rw [List.all_eq_true]
    constructor
    · intro hall k hk
      obtain ⟨x, hx, hrole⟩ := Place.task_eq_some.mp hk
      obtain ⟨w, hw, rfl⟩ := System.placeOf_worker_iff.mp hx
      have hne := hall w (List.mem_of_getElem? hw)
      rw [hrole] at hne
      exact absurd hne (by simp)
    · intro hall w hw
      obtain ⟨k, hk⟩ := List.getElem?_of_mem hw
      have hplace := System.placeOf_worker_iff.mpr ⟨w, hk, rfl⟩
      rw [bne_iff_ne]
      exact fun hrole => hall k (Place.task_eq_some.mpr ⟨w.place, hplace, hrole⟩)
  rw [System.abandoned, Bool.and_eq_true, Bool.and_eq_true, hover, hheld, Bool.or_eq_true, beq_iff_eq,
    decide_eq_true_iff, and_assoc]
  exact Iff.rfl

/-- A step runs at most one task to its end, and that was in a worker's hands. -/
theorem executed_cases {act : Act} (h : Turn cfg s s' act) :
    s'.board.history.executed = s.board.history.executed ∨
      ∃ k t, s'.board.history.executed = s.board.history.executed ++ [(k, t)] ∧
        (s.placeOf (.worker k)).task = some t := by
  cases h with
  | @worker _ k x y hmove hturn =>
    generalize hb : s.board = b at hturn
    generalize hb' : s'.board = b' at hturn
    cases hturn with
    | finish => exact .inr ⟨k, _, rfl, by rw [hmove.before]; rfl⟩
    | _ => exact .inl rfl
  | call _ hturn =>
    generalize s.board = b at hturn ⊢
    generalize s'.board = b' at hturn ⊢
    cases hturn with
    | _ => exact .inl rfl
  | grow _ _ _ _ hgrowth =>
    obtain ⟨-, -, hhistory⟩ := hgrowth.board_kept
    exact .inl (by rw [hhistory])
  | notify _ _ _ hboard => exact .inl (by rw [hboard])
  | notifyNone _ _ hboard => exact .inl (by rw [hboard])
  | owner _ _ hboard => exact .inl (by rw [hboard])
  | notifyAll _ _ _ _ _ _ hboard => exact .inl (by rw [hboard])
  | monitor _ hboard => exact .inl (by rw [hboard])
  | commit _ _ hboard => exact .inl (by rw [hboard])
  | shutDown _ _ hboard => exact .inl (by rw [hboard])
  | still _ _ hboard => exact .inl (by rw [hboard])

/-- What comes to the queue is brought by its call. -/
theorem queued_before {act : Act} (h : Turn cfg s s' act) {c : Task} (hc : c ∈ s'.board.tasks) :
    c ∈ s.board.tasks ∨ s.placeOf (.call c) = .call .emplace := by
  cases h with
  | worker _ hturn =>
    generalize s.board = b at hturn ⊢
    generalize s'.board = b' at hturn hc
    cases hturn with
    | pop htasks => exact .inl (htasks ▸ List.mem_cons_of_mem _ hc)
    | _ => exact .inl hc
  | call hmove hturn =>
    generalize s.board = b at hturn ⊢
    generalize s'.board = b' at hturn hc
    cases hturn with
    | quiet => exact .inl hc
    | push =>
      rcases List.mem_append.mp hc with hc | hc
      · exact .inl hc
      · rw [List.mem_singleton.mp hc]
        exact .inr hmove.before
  | grow _ _ _ _ hgrowth =>
    obtain ⟨-, htasks, -⟩ := hgrowth.board_kept
    exact .inl (htasks ▸ hc)
  | notify _ _ _ hboard => exact .inl (hboard ▸ hc)
  | notifyNone _ _ hboard => exact .inl (hboard ▸ hc)
  | owner _ _ hboard => exact .inl (hboard ▸ hc)
  | notifyAll _ _ _ _ _ _ hboard => exact .inl (hboard ▸ hc)
  | monitor _ hboard => exact .inl (hboard ▸ hc)
  | commit _ _ hboard => exact .inl (hboard ▸ hc)
  | shutDown _ _ hboard =>
    rw [hboard] at hc
    exact .inl hc
  | still _ _ hboard => exact .inl (hboard ▸ hc)

/-- What comes to a worker's hands comes from the queue. -/
theorem held_before {act : Act} (h : Turn cfg s s' act) {k : Nat} {c : Task}
    (hc : (s'.placeOf (.worker k)).task = some c) :
    (s.placeOf (.worker k)).task = some c ∨
      s.placeOf (.worker k) = .worker .exitTest ∧ c ∈ s.board.tasks := by
  cases h.worker_view k with
  | same hsame => exact .inl (hsame ▸ hc)
  | turn hmove hturn =>
    rw [hmove.after] at hc
    rw [hmove.before]
    generalize s.board = b at hturn ⊢
    generalize s'.board = b' at hturn
    cases hturn with
    | quiet hrole =>
      simp only [Place.task, hrole] at hc
      exact .inl hc
    | pop htasks =>
      cases hc
      exact .inr ⟨rfl, htasks ▸ List.mem_cons_self⟩
    | uncount _ hy =>
      simp only [Place.task, hy] at hc
      cases hc
    | _ => cases hc
  | woken _ hafter =>
    rw [hafter] at hc
    cases hc
  | grown _ hbefore hafter hgrowth =>
    rw [hafter, hgrowth.task_kept.2] at hc
    rw [hbefore]
    exact .inl hc

/-- The owner of a destroyed pool makes no step. -/
theorem destroyed_kept {act : Act} (h : Turn cfg s s' act) (hdone : s.owner = .destroyed) :
    s'.owner = .destroyed := by
  cases owner_view h with
  | same hsame => exact hsame.trans hdone
  | quiet hx => rw [hdone] at hx; cases hx
  | enter hx => rw [hdone] at hx; cases hx
  | join hx => rw [hdone] at hx; cases hx
  | next hx => rw [hdone] at hx; cases hx
  | finish _ hy => exact hy

/-- A call that is over stays so. -/
theorem callOver_kept {act : Act} (h : Turn cfg s s' act) {c : Nat} {x : CallPlace}
    (hx : s.placeOf (.call c) = .call x) (hover : x.over = true) :
    s'.placeOf (.call c) = .call x := by
  cases h.call_view c with
  | same hsame => rw [hsame, hx]
  | turn hmove _ hlive =>
    have hsame := hmove.before.symm.trans hx
    cases hsame
    rw [hover] at hlive
    cases hlive
  | notified hbefore =>
    rw [hx] at hbefore
    cases hbefore
    cases hover
  | grown hmove =>
    have hsame := hmove.before.symm.trans hx
    cases hsame
    cases hover
  | begun hbefore =>
    rw [hx] at hbefore
    cases hbefore

/-- **Nobody finds an abandoned task again.** -/
theorem abandoned_kept {act : Act} (hs : LifeInv cfg s) (h : Turn cfg s s' act) {c : Task}
    (hc : s.abandoned c = true) : s'.abandoned c = true := by
  obtain ⟨⟨x, hx, hover⟩, hqueue, hheld⟩ := abandoned_iff.mp hc
  refine abandoned_iff.mpr ⟨⟨x, callOver_kept h hx hover, hover⟩, ?_, ?_⟩
  · rcases hqueue with hdone | hqueue
    · exact .inl (destroyed_kept h hdone)
    · refine .inr fun hmem => ?_
      rcases queued_before h hmem with hmem | hemplace
      · exact hqueue hmem
      · rw [hx] at hemplace
        cases hemplace
        cases hover
  · intro k hk
    rcases held_before h hk with hk | ⟨hexit, hmem⟩
    · exact hheld k hk
    · rcases hqueue with hdone | hqueue
      · -- the workers of a destroyed pool have ended
        obtain ⟨n, hreaped⟩ := hs.threads.reaped
        have hended := hs.walk.all_ended hreaped.reaping (.inr hdone) (System.built_of_place hexit)
        rw [hexit] at hended
        cases hended
      · exact hqueue hmem

/-! ## What the states tell -/

/-- A result is there for what was run, and a task that was not run is pending as long as someone
has it. -/
structure Truthful (p : Promised ρ) : Prop where
  order : p.settled.map Prod.fst = p.system.board.history.executed.map Prod.snd
  tells : Tells p.state p.settled p.system.abandoned

theorem truthful_start : Truthful (Promised.start : Promised ρ) where
  order := rfl
  tells := ⟨fun _ _ => ⟨nofun, nofun⟩, fun _ => ⟨fun _ => ⟨List.not_mem_nil, rfl⟩, fun _ => rfl⟩⟩

/-- A task in a worker's hands was not run. -/
theorem not_executed_of_held (hs : Ledger s) {k : Nat} {t : Task}
    (hheld : (s.placeOf (.worker k)).task = some t) :
    t ∉ s.board.history.executed.map Prod.snd := by
  intro hmem
  obtain ⟨⟨j, u⟩, hexecuted, hu⟩ := List.mem_map.mp hmem
  obtain rfl : u = t := hu
  have hpopped : (s.board.history.popped.map Prod.snd).Nodup := hs.inCommitOrder.popped_once
  have hcount := hs.held k
  have hk : (k, u) ∈ s.board.history.popped := by
    rw [← List.count_pos_iff, hcount, if_pos hheld]
    exact Nat.succ_pos _
  have hj : (j, u) ∈ s.board.history.popped := by
    rw [← List.count_pos_iff, hs.held j]
    exact Nat.add_pos_left (List.count_pos_iff.mpr hexecuted) _
  -- one worker popped it, and once
  obtain ⟨rfl, -⟩ := Prod.mk.inj (List.inj_on_of_nodup_map hpopped hj hk rfl)
  have honce := List.nodup_iff_count_le_one.mp hpopped.of_map (j, u)
  rw [hcount, if_pos hheld] at honce
  have hpos := List.count_pos_iff.mpr hexecuted
  omega

/-- **One step.** -/
theorem truthful_step {p : Promised ρ} (hlife : LifeInv cfg p.system) (h : Truthful p) {act : Act}
    (hstep : (poolRuns cfg B).step p.system act = some s') (r : ρ) :
    ∃ p', (promisedRuns ρ cfg B).step p (act, r) = some p' ∧ p'.system = s' ∧ Truthful p' := by
  have hturn := step_turn hlife.threads.pool.order.frames hstep
  have hkept : ∀ c, p.system.abandoned c = true → s'.abandoned c = true := fun c =>
    abandoned_kept hlife hturn
  have hrun : (promisedRuns ρ cfg B).step p (act, r) =
      match s'.history.executed.drop p.system.history.executed.length with
      | [] => some (p.goes s')
      | (_, t) :: _ => (p.run t r).map (·.goes s') := by
    show (p.system.step cfg B act).bind _ = _
    rw [show p.system.step cfg B act = some s' from hstep]
    rfl
  rcases executed_cases hturn with hsame | ⟨k, t, hone, hheld⟩
  · -- no task comes to its end
    have hsame : s'.history.executed = p.system.history.executed := hsame
    refine ⟨p.goes s', ?_, rfl, ?_, h.tells.goes hkept⟩
    · rw [hrun, hsame, List.drop_length]
    · show p.settled.map Prod.fst = s'.history.executed.map Prod.snd
      rw [hsame]
      exact h.order
  · have hone : s'.history.executed = p.system.history.executed ++ [(k, t)] := hone
    have hpending : p.state t = .pending := by
      refine (h.tells.pending t).mpr ⟨?_, ?_⟩
      · rw [h.order]
        exact not_executed_of_held hlife.threads.pool.ledger hheld
      · refine eq_false_of_ne_true fun hgone => ?_
        exact (abandoned_iff.mp hgone).2.2 k hheld
    have hstore : p.run t r = some
        { p with
          state := Function.update p.state t (.ready r), settled := p.settled ++ [(t, r)] } := by
      rw [Promised.run, hpending]
      rfl
    refine ⟨Promised.goes ⟨p.system, Function.update p.state t (.ready r), p.settled ++ [(t, r)]⟩ s',
      ?_, rfl, ?_, (h.tells.store hpending r).goes hkept⟩
    · rw [hrun, hone, List.drop_left]
      show (p.run t r).map (·.goes s') = _
      rw [hstore]
      rfl
    · show (p.settled ++ [(t, r)]).map Prod.fst = s'.history.executed.map Prod.snd
      rw [hone, List.map_append, List.map_append]
      exact congrArg (· ++ [t]) h.order

/-- **Runs.** The shared states follow every run of the pool: no task is run twice. -/
theorem truthful_run {p : Promised ρ} (hlife : LifeInv cfg p.system) (h : Truthful p)
    {acts : List (Act × ρ)} (hrun : (poolRuns cfg B).exec p.system (acts.map Prod.fst) = some s) :
    ∃ p', (promisedRuns ρ cfg B).exec p acts = some p' ∧ p'.system = s ∧ Truthful p' := by
  induction acts generalizing p with
  | nil => exact ⟨p, rfl, Option.some.inj hrun, h⟩
  | cons act acts ih =>
    obtain ⟨s₁, hstep, hrest⟩ := StepSystem.exec_cons.mp hrun
    obtain ⟨p₁, hstep₁, rfl, h₁⟩ := truthful_step hlife h hstep act.2
    obtain ⟨p', hrun', hsystem, h'⟩ := ih (lifeInv_step hlife hstep) h₁ hrest
    exact ⟨p', StepSystem.exec_cons.mpr ⟨p₁, hstep₁, hrun'⟩, hsystem, h'⟩

/-- The task of a `Commit` that returned is run, in a worker's hands or in the queue, and where it is
in the queue it is nowhere else. -/
theorem queued_iff_of_returned (hs : Ledger s) {c : Task}
    (hreturned : s.placeOf (.call c) = .call .returned) :
    c ∈ s.board.tasks ↔ c ∉ s.board.history.executed.map Prod.snd ∧
      ∀ k, (s.placeOf (.worker k)).task ≠ some c := by
  have honce := hs.once c
  rw [hreturned, hs.order, List.count_append] at honce
  have hone : (s.board.history.popped.map Prod.snd).count c + s.board.tasks.count c = 1 := honce
  have hpopped : c ∈ s.board.history.popped.map Prod.snd ↔
      c ∈ s.board.history.executed.map Prod.snd ∨ ∃ k, (s.placeOf (.worker k)).task = some c := by
    have hruns := hs.inCommitOrder.popper_runs
    have hholding (k : Nat) : (∃ w, s.workers[k]? = some w ∧ w.place.role = .holding c) ↔
        (s.placeOf (.worker k)).task = some c := by
      rw [Place.task_eq_some]
      constructor
      · rintro ⟨w, hw, hrole⟩
        exact ⟨w.place, System.placeOf_worker_iff.mpr ⟨w, hw, rfl⟩, hrole⟩
      · rintro ⟨x, hx, hrole⟩
        obtain ⟨w, hw, rfl⟩ := System.placeOf_worker_iff.mp hx
        exact ⟨w, hw, hrole⟩
    constructor
    · intro hmem
      obtain ⟨⟨k, u⟩, hpop, hu⟩ := List.mem_map.mp hmem
      obtain rfl : u = c := hu
      rcases (hruns k u).mp hpop with hexecuted | hheld
      · exact .inl (List.mem_map_of_mem hexecuted)
      · exact .inr ⟨k, (hholding k).mp hheld⟩
    · rintro (hmem | ⟨k, hheld⟩)
      · obtain ⟨⟨k, u⟩, hexecuted, hu⟩ := List.mem_map.mp hmem
        obtain rfl : u = c := hu
        exact List.mem_map_of_mem ((hruns k u).mpr (.inl hexecuted))
      · exact List.mem_map_of_mem ((hruns k c).mpr (.inr ((hholding k).mpr hheld)))
  rw [← not_exists, ← not_or, ← hpopped, ← List.count_pos_iff, ← List.count_pos_iff]
  omega

/-- **Futures tell the outcomes.**  The shared states of the tasks follow every run of a pool, and no
`packaged_task` is run twice.  A future is ready exactly with what its own call came to when it was
run; one that `Commit` has returned is broken exactly if the pool was destroyed with its task in the
queue. -/
theorem futures_tell_outcomes (ρ : Type) (cfg : Config) (B : Build) (acts : List (Act × ρ))
    (hrun : (poolRuns cfg B).exec System.init (acts.map Prod.fst) = some s) :
    ∃ p, (promisedRuns ρ cfg B).exec .start acts = some p ∧ p.system = s ∧
      p.settled.map Prod.fst = s.history.executed.map Prod.snd ∧ (p.settled.map Prod.fst).Nodup ∧
      (∀ c r, p.state c = .ready r ↔ (c, r) ∈ p.settled) ∧
      ∀ c call, s.calls[c]? = some call → call.place = .returned →
        (p.state c = .broken ↔ s.owner = .destroyed ∧ c ∈ s.pool.tasks) := by
  have hlife : LifeInv cfg System.init := lifeInv_init
  obtain ⟨p, hpromised, rfl, h⟩ :=
    truthful_run (p := (Promised.start : Promised ρ)) hlife truthful_start hrun
  have hledger : Ledger p.system := (poolInv_run hrun).ledger
  refine ⟨p, hpromised, rfl, h.order, ?_, h.tells.ready, ?_⟩
  · rw [h.order]
    exact hledger.inCommitOrder.executed_once
  · intro c call hcall hreturned
    have hplace : p.system.placeOf (.call c) = .call .returned :=
      System.placeOf_call_iff.mpr ⟨call, hcall, hreturned⟩
    have hqueued := queued_iff_of_returned hledger hplace
    rw [h.tells.broken_iff, abandoned_iff, h.order]
    constructor
    · rintro ⟨hnot, -, hqueue, hheld⟩
      have hmem := hqueued.mpr ⟨hnot, hheld⟩
      exact ⟨hqueue.resolve_right fun hout => hout hmem, hmem⟩
    · rintro ⟨hdone, hmem⟩
      obtain ⟨hnot, hheld⟩ := hqueued.mp hmem
      exact ⟨hnot, ⟨.returned, hplace, rfl⟩, .inl hdone, hheld⟩

/-- The first task is run; the second is pushed after the worker has left. -/
def keptAndBroken : List Act :=
  constructOne ++ [.commit .external] ++ steps (.call 0) 6 ++ steps (.worker 0) 5 ++
    [.commit .external] ++ steps (.call 1) 1 ++ [.shutDown .external] ++ steps (.worker 0) 9 ++
    steps (.call 1) 5 ++ [.destroy] ++ steps .owner 5

theorem futures_tell_outcomes_two :
    ∃ p : Promised Nat, (promisedRuns Nat oneWorker .debug).exec .start
        (keptAndBroken.map fun act => (act, 42)) = some p ∧
      p.state 0 = .ready 42 ∧ p.state 1 = .broken := by
  have hend : ((poolRuns oneWorker .debug).exec System.init
      ((keptAndBroken.map fun act => (act, 42)).map Prod.fst)).map (fun s =>
        ((s.calls[1]?).map Call.place, s.owner, s.pool.tasks)) =
      some (some .returned, .destroyed, [1]) := by
    decide +kernel
  have hsettled : ((promisedRuns Nat oneWorker .debug).exec .start
      (keptAndBroken.map fun act => (act, 42))).map (·.settled) = some [(0, 42)] := by
    decide +kernel
  obtain ⟨s, hrun, hend⟩ := Option.map_eq_some_iff.mp hend
  simp only [Prod.mk.injEq] at hend
  obtain ⟨hcall, howner, htasks⟩ := hend
  obtain ⟨call, hcall, hreturned⟩ := Option.map_eq_some_iff.mp hcall
  obtain ⟨p, hpromised, -, -, -, hready, hbroken⟩ :=
    futures_tell_outcomes Nat oneWorker .debug _ hrun
  rw [hpromised, Option.map_some, Option.some.injEq] at hsettled
  refine ⟨p, hpromised, (hready 0 42).mpr (hsettled ▸ List.mem_singleton_self _), ?_⟩
  exact (hbroken 1 call hcall hreturned).mpr ⟨howner, htasks ▸ List.mem_singleton_self 1⟩

end TurboNet.Base
