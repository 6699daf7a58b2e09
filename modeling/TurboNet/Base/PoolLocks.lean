/-
# TurboNet.Base.PoolLocks — who holds the mutexes of a pool.

`Order` holds in every state of a pool: each mutex is held by the party whose guards list it, and a
worker stands before its `Start` exactly when a call of `AddThread` is about to take it from there.
Two consequences carry the other invariants: a worker that has left its wait by a time-out, or is on
its way out, is alone with the queue, and at most one thread is being added.
-/
import TurboNet.Base.PoolSteps

namespace TurboNet.Base

open TurboNet.Lib
open TurboNet.Logger (Build Halt)

variable {cfg : Config} {B : Build} {env : Env} {s s' : System}

/-- Each mutex is held by the party whose guards list it. -/
def Locks (s : System) : Prop := Guarded (fun p => (s.placeOf p).guards) s.mutexes.owner

theorem Move.locks_kept {p : Party} {x y : Place} {also : Option Party}
    (h : Move s s' p x y also) (hs : Locks s) : Locks s' := by
  apply Guarded.move hs (p := p) ?_ h.guards
  show GuardMove p (s.placeOf p).guards (s'.placeOf p).guards _ _
  rw [h.before, h.after]
  exact h.locks

/-- What `NotifyAll` does to a place, seen by an `f` that does not tell a wait from its end. -/
theorem woken_same {α : Type} (f : Place → α) {z z' : Place}
    (h : z' = if z = .worker .parked then .worker .woken else z)
    (hf : f (.worker .woken) = f (.worker .parked)) : f z' = f z := by
  rw [h]
  split
  · rename_i hparked
    rw [hparked]
    exact hf
  · rfl

/-- A step of `AddThread` moves no worker besides the one it adds. -/
theorem Move.grow_others {p : Party} {k : Nat} {x y : Place}
    (h : Move s s' p x y (some (.worker k))) (hp : p = .owner ∨ ∃ c, p = .call c) (j : Nat)
    (hj : j ≠ k) : s'.placeOf (.worker j) = s.placeOf (.worker j) := by
  have hne : Party.worker j ≠ p := by
    rcases hp with rfl | ⟨c, rfl⟩
    · simp
    · simp
  exact h.others _ hne (by simp) (by simpa using hj)

theorem locks_turn {act : Act} (hs : Locks s) (h : Turn cfg s s' act) : Locks s' := by
  cases h with
  | worker hmove => exact hmove.locks_kept hs
  | call hmove => exact hmove.locks_kept hs
  | notify hmove => exact hmove.locks_kept hs
  | notifyNone hmove => exact hmove.locks_kept hs
  | owner hmove => exact hmove.locks_kept hs
  | grow _ hmove => exact hmove.locks_kept hs
  | monitor hmove => exact hmove.locks_kept hs
  | commit _ hmove => exact hmove.locks_kept hs
  | notifyAll hbefore hafter hworkers hcalls hmonitor hlocks =>
    have hguards (q : Party) : (s'.placeOf q).guards = (s.placeOf q).guards := by
      cases q with
      | owner =>
        rw [hbefore, hafter]
        rfl
      | monitor => rw [hmonitor]
      | call c => rw [hcalls]
      | worker k => exact woken_same Place.guards (hworkers k) rfl
    unfold Locks
    rw [hlocks, funext hguards]
    exact hs
  | shutDown hplaces hlocks =>
    unfold Locks
    rw [hplaces, hlocks]
    exact hs
  | still hplaces hlocks =>
    unfold Locks
    rw [hplaces, hlocks]
    exact hs

/-! ## Calls of `AddThread` -/

theorem frames_congr (hs : Frames s)
    (htarget : ∀ p, (s'.placeOf p).target = (s.placeOf p).target)
    (hworker : ∀ k z, z.fresh = true →
      (s'.placeOf (.worker k) = .worker z ↔ s.placeOf (.worker k) = .worker z)) : Frames s' := by
  intro k z hz
  rw [hworker k z hz, hs k z hz]
  simp only [htarget]

/-- A move that has nothing to do with `AddThread`. -/
theorem Move.frames_kept {p : Party} {x y : Place} (h : Move s s' p x y none) (hs : Frames s)
    (hx : x.target = none) (hy : y.target = none) (hfx : ∀ z, z.fresh = true → x ≠ .worker z)
    (hfy : ∀ z, z.fresh = true → y ≠ .worker z) : Frames s' := by
  apply frames_congr hs
  · intro q
    by_cases hq : q = p
    · rw [hq, h.before, h.after, hx, hy]
    · by_cases hmonitor : q = .monitor
      · subst hmonitor
        rfl
      · rw [h.others q hq hmonitor (by simp)]
  · intro k z hz
    by_cases hq : Party.worker k = p
    · rw [hq, h.before, h.after]
      exact iff_of_false (hfy z hz) (hfx z hz)
    · rw [h.others _ hq (by simp) (by simp)]

theorem WorkerTurn.not_fresh {k : Nat} {act : Act} {x y : WorkerPlace} {b b' : Board}
    (h : WorkerTurn cfg k act x y b b') : x.fresh = false ∧ y.fresh = false := by
  have hrole (z : WorkerPlace) (hz : z.role.grown = true) : z.fresh = false := by
    cases z with
    | built => cases hz
    | idled => cases hz
    | counted => cases hz
    | _ => rfl
  cases h with
  | quiet hxy hgrown => exact ⟨hrole x hgrown, hrole y (by rw [hxy]; exact hgrown)⟩
  | uncount hx hy =>
    refine ⟨hrole x ?_, hrole y (by rw [hy]; rfl)⟩
    rcases hx with hx | hx
    · rw [hx]
      rfl
    · rw [hx]
      rfl
  | park => exact ⟨rfl, rfl⟩
  | wake => exact ⟨rfl, rfl⟩
  | timeOut => exact ⟨rfl, rfl⟩
  | stay => exact ⟨rfl, rfl⟩
  | retire => exact ⟨rfl, rfl⟩
  | quit => exact ⟨rfl, rfl⟩
  | terminate => exact ⟨rfl, rfl⟩
  | leave => exact ⟨rfl, rfl⟩
  | pop => exact ⟨rfl, rfl⟩
  | finish => exact ⟨rfl, rfl⟩

/-- A call that is about to take a worker on holds `thread_pool_mutex_`. -/
theorem Place.pool_of_target {x : Place} (h : x.target ≠ none) : Mutex.pool ∈ x.guards := by
  have hadd (a : AddPlace) (ha : a.target ≠ none) : Mutex.pool ∈ a.guards := by
    cases a with
    | countIdle => exact List.mem_singleton.mpr rfl
    | countNow => exact List.mem_singleton.mpr rfl
    | start => exact List.mem_singleton.mpr rfl
    | _ => exact absurd rfl ha
  cases x with
  | owner x =>
    cases x with
    | adding a => exact hadd a h
    | _ => exact absurd rfl h
  | call x =>
    cases x with
    | adding a => exact List.mem_append_left _ (hadd a h)
    | _ => exact absurd rfl h
  | absent => exact absurd rfl h
  | monitor => exact absurd rfl h
  | worker => exact absurd rfl h

theorem target_eq_iff {k j : Nat} {x y : WorkerPlace} :
    some (k, y) = some (j, x) ↔ j = k ∧ Place.worker y = .worker x := by
  constructor
  · rintro ⟨⟩
    exact ⟨rfl, rfl⟩
  · rintro ⟨rfl, ⟨⟩⟩
    rfl

/-- The place of a call, before and after, says what its worker goes through. -/
theorem Growth.target_iff {k size : Nat} {a a' : AddPlace} {z z' : Place} {b b' : Board}
    (h : Growth cfg env k size a a' z z' b b') (j : Nat) (x : WorkerPlace) :
    (a.target = some (j, x) → j = k) ∧
      (x.fresh = true → (a'.target = some (j, x) ↔ j = k ∧ z' = .worker x)) := by
  cases h with
  | build => exact ⟨fun h => (by cases h), fun _ => target_eq_iff⟩
  | countIdle => exact ⟨fun h => (target_eq_iff.mp h).1, fun _ => target_eq_iff⟩
  | countNow => exact ⟨fun h => (target_eq_iff.mp h).1, fun _ => target_eq_iff⟩
  | start =>
    refine ⟨fun h => (target_eq_iff.mp h).1, fun hx => iff_of_false (by simp [AddPlace.target]) ?_⟩
    rintro ⟨-, ⟨⟩⟩
    cases hx
  | fail =>
    refine ⟨fun h => (target_eq_iff.mp h).1, fun hx => iff_of_false (by simp [AddPlace.target]) ?_⟩
    rintro ⟨-, ⟨⟩⟩
    cases hx

theorem CallTurn.target {c : Nat} {x y : CallPlace} {b b' : Board} (h : CallTurn c x y b b') :
    (Place.call x).target = none ∧ (Place.call y).target = none := by
  cases h with
  | quiet _ hx hy => exact ⟨hx, hy⟩
  | push => exact ⟨rfl, rfl⟩

theorem OwnerTurn.target {b : Board} {x y : OwnerPlace} (h : OwnerTurn cfg b x y) :
    (Place.owner x).target = none ∧ (Place.owner y).target = none := by
  cases h with
  | quiet _ _ hx hy => exact ⟨hx, hy⟩
  | grown => exact ⟨rfl, rfl⟩

/-- Workers do not run `AddThread`. -/
theorem System.target_worker (s : System) (k : Nat) : (s.placeOf (.worker k)).target = none := by
  simp only [placeOf]
  split
  · rfl
  · rfl

theorem Party.target_adding {p : Party} (hp : p = .owner ∨ ∃ c, p = .call c) (a : AddPlace) :
    (p.adding a).target = a.target := by
  rcases hp with rfl | ⟨c, rfl⟩
  · rfl
  · rfl

/-- The mutexes are in order, and so are the calls of `AddThread`. -/
structure Order (s : System) : Prop where
  locks : Locks s
  frames : Frames s

/-- **One thread is added at a time.** -/
theorem Order.target_unique (hs : Order s) {p q : Party} (hp : Mutex.pool ∈ (s.placeOf p).guards)
    (hq : (s.placeOf q).target ≠ none) : q = p :=
  hs.locks.exclusive (Place.pool_of_target hq) hp

theorem frames_grow {p : Party} {k size : Nat} {a a' : AddPlace} {z z' : Place}
    (hs : Order s) (hp : p = .owner ∨ ∃ c, p = .call c)
    (hmove : Move s s' p (p.adding a) (p.adding a') (some (.worker k)))
    (hafter : s'.placeOf (.worker k) = z')
    (h : Growth cfg env k size a a' z z' s.board s'.board) : Frames s' := by
  have hpool : Mutex.pool ∈ (s.placeOf p).guards := by
    rw [hmove.before]
    obtain ⟨ha, -⟩ := h.guards
    rcases hp with rfl | ⟨c, rfl⟩
    · show Mutex.pool ∈ a.guards
      simp [ha]
    · show Mutex.pool ∈ a.guards ++ [.tasks]
      simp [ha]
  -- nobody else is about to take a worker on, before or after
  have honly (q : Party) (hq : q ≠ p) : (s.placeOf q).target = none :=
    Decidable.by_contra fun hne => hq (hs.target_unique hpool hne)
  have honly' (q : Party) (hq : q ≠ p) : (s'.placeOf q).target = none := by
    cases q with
    | worker j => exact s'.target_worker j
    | monitor => rfl
    | owner =>
      rw [hmove.others _ hq (by simp) (by simp)]
      exact honly _ hq
    | call c =>
      rw [hmove.others _ hq (by simp) (by simp)]
      exact honly _ hq
  intro j x hx
  have htarget : (∃ q, (s'.placeOf q).target = some (j, x)) ↔ a'.target = some (j, x) := by
    constructor
    · rintro ⟨q, hq⟩
      by_cases hqp : q = p
      · rw [hqp, hmove.after, Party.target_adding hp] at hq
        exact hq
      · rw [honly' q hqp] at hq
        cases hq
    · intro h
      refine ⟨p, ?_⟩
      rw [hmove.after, Party.target_adding hp]
      exact h
  rw [htarget, (h.target_iff j x).2 hx]
  by_cases hj : j = k
  · subst hj
    rw [hafter]
    simp
  · rw [hmove.grow_others hp j hj, hs.frames j x hx]
    refine iff_of_false ?_ (fun h => hj h.1)
    rintro ⟨q, hq⟩
    by_cases hqp : q = p
    · rw [hqp, hmove.before, Party.target_adding hp] at hq
      exact hj ((h.target_iff j x).1 hq)
    · rw [honly q hqp] at hq
      cases hq

theorem frames_turn {act : Act} (hs : Order s) (h : Turn cfg s s' act) : Frames s' := by
  have hworker {y : WorkerPlace} (hy : y.fresh = false) (z : WorkerPlace) (hz : z.fresh = true) :
      Place.worker y ≠ .worker z := by
    intro h
    cases h
    rw [hy] at hz
    cases hz
  cases h with
  | worker hmove hturn =>
    obtain ⟨hx, hy⟩ := hturn.not_fresh
    exact hmove.frames_kept hs.frames rfl rfl (hworker hx) (hworker hy)
  | call hmove hturn =>
    exact hmove.frames_kept hs.frames hturn.target.1 hturn.target.2 (by simp) (by simp)
  | @notify _ c k hmove hparked hwoken =>
    apply frames_congr hs.frames
    · intro q
      by_cases hq : q = .call c
      · rw [hq, hmove.before, hmove.after]
        rfl
      · by_cases hqk : q = .worker k
        · rw [hqk, hparked, hwoken]
          rfl
        · by_cases hmonitor : q = .monitor
          · subst hmonitor
            rfl
          · rw [hmove.others q hq hmonitor (by simpa using hqk)]
    · intro j z hz
      by_cases hj : j = k
      · subst hj
        rw [hparked, hwoken]
        exact iff_of_false (hworker rfl z hz) (hworker rfl z hz)
      · rw [hmove.others _ (by simp) (by simp) (by simpa using hj)]
  | notifyNone hmove => exact hmove.frames_kept hs.frames rfl rfl (by simp) (by simp)
  | owner hmove hturn =>
    exact hmove.frames_kept hs.frames hturn.target.1 hturn.target.2 (by simp) (by simp)
  | notifyAll hbefore hafter hworkers hcalls hmonitor =>
    apply frames_congr hs.frames
    · intro q
      cases q with
      | owner =>
        rw [hbefore, hafter]
        rfl
      | monitor => rw [hmonitor]
      | call c => rw [hcalls]
      | worker k => exact woken_same Place.target (hworkers k) rfl
    · intro j z hz
      rw [hworkers]
      split
      · rename_i hparked
        rw [hparked]
        exact iff_of_false (hworker rfl z hz) (hworker rfl z hz)
      · rfl
  | grow hp hmove _ hafter hgrowth => exact frames_grow hs hp hmove hafter hgrowth
  | monitor hmove => exact hmove.frames_kept hs.frames rfl rfl (by simp) (by simp)
  | commit _ hmove => exact hmove.frames_kept hs.frames rfl rfl (by simp) (by simp)
  | shutDown hplaces =>
    apply frames_congr hs.frames
    · exact fun _ => by rw [hplaces]
    · exact fun _ _ _ => by rw [hplaces]
  | still hplaces =>
    apply frames_congr hs.frames
    · exact fun _ => by rw [hplaces]
    · exact fun _ _ _ => by rw [hplaces]

theorem order_turn {act : Act} (hs : Order s) (h : Turn cfg s s' act) : Order s' :=
  ⟨locks_turn hs.locks h, frames_turn hs h⟩

theorem order_init : Order System.init where
  locks := by
    constructor
    · intro m p
      cases p with
      | owner =>
        cases m <;>
          simp [System.init, System.placeOf, Place.guards, OwnerPlace.guards, Mutexes.owner]
      | monitor =>
        cases m <;>
          simp [System.init, System.placeOf, Place.guards, MonitorPlace.guards, Mutexes.owner]
      | worker k => cases m <;> simp [System.init, System.placeOf, Place.guards, Mutexes.owner]
      | call c => cases m <;> simp [System.init, System.placeOf, Place.guards, Mutexes.owner]
    · intro p
      cases p with
      | owner => exact List.nodup_nil
      | monitor => exact List.nodup_nil
      | worker k => exact List.nodup_nil
      | call c => exact List.nodup_nil
  frames := by
    intro k z _
    refine iff_of_false (by simp [System.init, System.placeOf]) ?_
    rintro ⟨p, hp⟩
    cases p with
    | owner => cases hp
    | monitor => cases hp
    | worker k => cases hp
    | call c => cases hp

end TurboNet.Base
