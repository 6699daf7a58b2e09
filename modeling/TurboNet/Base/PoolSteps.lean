/-
# TurboNet.Base.PoolSteps — every step of a pool is a turn.

Taken apart once, place by place.  What `AddThread` does to a worker it has built can only be said
with `Frames`: the worker named by a call of `AddThread` stands where the call expects it.
-/
import TurboNet.Base.PoolEffects

namespace TurboNet.Base

open TurboNet.Lib
open TurboNet.Logger (Build Halt)

variable {cfg : Config} {B : Build} {env : Env} {s s₁ s' : System}

/-- Is the worker built, and its thread not created yet? -/
def WorkerPlace.fresh : WorkerPlace → Bool
  | .built | .idled | .counted => true
  | _ => false

/-- A worker stands before its `Start` exactly when a call of `AddThread` is about to take it from
there. -/
def Frames (s : System) : Prop :=
  ∀ k z, z.fresh = true →
    (s.placeOf (.worker k) = .worker z ↔ ∃ p, (s.placeOf p).target = some (k, z))

/-! ## Moves -/

theorem guards_lock {m : Mutex} {p : Party} {g : List Mutex} (hfree : s.mutexes.owner m = none) :
    GuardMove p g (m :: g) s.mutexes.owner (s.mutexes.assign m (some p)).owner := by
  rw [Mutexes.owner_assign]
  exact .take m hfree

theorem guards_unlock {m : Mutex} {p : Party} {g : List Mutex} :
    GuardMove p (m :: g) g s.mutexes.owner (s.unlock m).mutexes.owner := by
  show GuardMove p (m :: g) g s.mutexes.owner (s.mutexes.assign m none).owner
  rw [Mutexes.owner_assign]
  exact .drop m

/-- Who is not moved stands where it stood. -/
theorem beside_of_update {p : Party} {y : Place} (hs : s'.placeOf = Function.update s.placeOf p y)
    (hp : p ≠ .monitor) : Beside s.monitor s'.monitor := by
  have hmonitor : s'.placeOf .monitor = s.placeOf .monitor := by
    rw [hs, Function.update_of_ne hp.symm]
  have hmonitor : s'.monitor = s.monitor := Place.monitor.inj hmonitor
  rw [hmonitor]
  exact .still

theorem move_of_update {p : Party} {x y : Place} (hbefore : s.placeOf p = x)
    (hs : s'.placeOf = Function.update s.placeOf p y) (hhalted : s'.halted = s.halted)
    (hl : GuardMove p x.guards y.guards s.mutexes.owner s'.mutexes.owner) :
    Move s s' p x y none where
  before := hbefore
  after := by rw [hs, Function.update_self]
  others := fun q hq _ _ => by rw [hs, Function.update_of_ne hq]
  guards := fun q hq => by rw [hs, Function.update_of_ne hq]
  locks := hl
  beside := beside_of_update hs
  halted := .inl hhalted

/-- `s₁` differs from `s` in the members of the pool at most. -/
structure Inside (s s₁ : System) : Prop where
  places : s₁.placeOf = s.placeOf
  mutexes : s₁.mutexes = s.mutexes
  halted : s₁.halted = s.halted

theorem inside_setIdle (n : Nat) : Inside s (s.setIdle n) :=
  ⟨System.placeOf_congr rfl rfl rfl rfl, rfl, rfl⟩

theorem inside_setNow (n : Nat) : Inside s (s.setNow n) :=
  ⟨System.placeOf_congr rfl rfl rfl rfl, rfl, rfl⟩

theorem board_setIdle (n k : Nat) (y : WorkerPlace) :
    ((s.setIdle n).goWorker k y).board = s.board := rfl

theorem board_setNow (n k : Nat) (y : WorkerPlace) :
    ((s.setNow n).goWorker k y).board = { s.board with now := n } := rfl

theorem roster_setIdle (n k : Nat) (y : WorkerPlace) :
    ((s.setIdle n).goWorker k y).roster = { s.roster with idle := n } := by
  rw [System.roster_goWorker]
  rfl

theorem roster_setNow (n k : Nat) (y : WorkerPlace) :
    ((s.setNow n).goWorker k y).roster = s.roster := by
  rw [System.roster_goWorker]
  rfl

/-- A party takes a mutex, changes members and goes on, or gives one up before it goes on. -/
theorem Inside.stay (h : Inside s s₁) {p : Party} {g g' : List Mutex} (hg : g' = g) :
    GuardMove p g g' s.mutexes.owner s₁.mutexes.owner := by
  rw [h.mutexes, hg]
  exact .stay

theorem move_goWorker {k : Nat} {x y : WorkerPlace} (hx : s.placeOf (.worker k) = .worker x)
    (hs₁ : s₁.placeOf = s.placeOf)
    (hhalted : s₁.halted = s.halted)
    (hl : GuardMove (.worker k) x.guards y.guards s.mutexes.owner s₁.mutexes.owner) :
    Move s (s₁.goWorker k y) (.worker k) (.worker x) (.worker y) none := by
  refine move_of_update hx ?_ hhalted hl
  rw [System.placeOf_goWorker (hs₁ ▸ hx), hs₁]

theorem move_goCall {c : Nat} {x y : CallPlace} (hx : s.placeOf (.call c) = .call x)
    (hs₁ : s₁.placeOf = s.placeOf)
    (hhalted : s₁.halted = s.halted)
    (hl : GuardMove (.call c) x.guards y.guards s.mutexes.owner s₁.mutexes.owner) :
    Move s (s₁.goCall c y) (.call c) (.call x) (.call y) none := by
  refine move_of_update hx ?_ hhalted hl
  rw [System.placeOf_goCall (hs₁ ▸ hx), hs₁]

theorem move_goMonitor {x y : MonitorPlace} (hx : s.monitor = x) (hs₁ : s₁.placeOf = s.placeOf)
    (hhalted : s₁.halted = s.halted)
    (hl : GuardMove .monitor x.guards y.guards s.mutexes.owner s₁.mutexes.owner) :
    Move s (s₁.goMonitor y) .monitor (.monitor x) (.monitor y) none := by
  refine move_of_update (congrArg Place.monitor hx) ?_ hhalted hl
  rw [System.placeOf_goMonitor, hs₁]

theorem move_goOwner {x y : OwnerPlace} (hx : s.owner = x) (hs₁ : s₁.placeOf = s.placeOf)
    (hhalted : s₁.halted = s.halted)
    (hl : GuardMove .owner x.guards y.guards s.mutexes.owner s₁.mutexes.owner) :
    Move s (s₁.goOwner y) .owner (.owner x) (.owner y) none := by
  refine move_of_update (congrArg Place.owner hx) ?_ hhalted hl
  rw [System.placeOf_goOwner, hs₁]

/-- A move that also changes the place of the monitor, and none of its guards. -/
theorem Move.of_monitor {p : Party} {x y : Place} (hp : p ≠ .monitor)
    (hs₁ : ∀ q, q ≠ .monitor → s₁.placeOf q = s.placeOf q)
    (hg : ∀ q, (s₁.placeOf q).guards = (s.placeOf q).guards)
    (hm : s₁.mutexes.owner = s.mutexes.owner) (hbeside : Beside s.monitor s₁.monitor)
    (hkept : s'.monitor = s₁.monitor) (hhalted : s₁.halted = s.halted)
    (h : Move s₁ s' p x y none) : Move s s' p x y none where
  before := (hs₁ p hp).symm.trans h.before
  after := h.after
  others := fun q hq hmonitor halso => (h.others q hq hmonitor halso).trans (hs₁ q hmonitor)
  guards := fun q hq => (h.guards q hq).trans (hg q)
  locks := hm ▸ h.locks
  beside := fun _ => hkept ▸ hbeside
  halted := h.halted.imp_left fun h => h.trans hhalted

/-- Notifying the monitor changes at most the monitor's place, and none of its guards. -/
theorem notifyMonitor_frame : (∀ q, q ≠ .monitor → s.notifyMonitor.placeOf q = s.placeOf q) ∧
    (∀ q, (s.notifyMonitor.placeOf q).guards = (s.placeOf q).guards) ∧
    s.notifyMonitor.mutexes = s.mutexes ∧ s.notifyMonitor.board = s.board ∧
    s.notifyMonitor.roster = s.roster ∧ Beside s.monitor s.notifyMonitor.monitor ∧
    s.notifyMonitor.halted = s.halted := by
  unfold System.notifyMonitor
  split
  · rename_i hparked
    refine ⟨?_, ?_, rfl, rfl, rfl, by rw [hparked]; exact .notified, rfl⟩
    · intro q hq
      rw [System.placeOf_goMonitor, Function.update_of_ne hq]
    · intro q
      by_cases hq : q = .monitor
      · subst hq
        show MonitorPlace.guards .woken = s.monitor.guards
        rw [hparked]
        rfl
      · rw [System.placeOf_goMonitor, Function.update_of_ne hq]
  · exact ⟨fun _ _ => rfl, fun _ => rfl, rfl, rfl, rfl, .still, rfl⟩

theorem still_halt {act : Act} {h : Halt} (hcause : HaltCause s h) : Turn cfg s (s.halt h) act :=
  .still rfl rfl rfl rfl rfl hcause

/-- An end that has nothing to do with joining. -/
theorem still_other {act : Act} {h : Halt} (hh : ¬ FromJoin h) : Turn cfg s (s.halt h) act :=
  still_halt (.other hh)

/-! ## Workers -/

theorem worker_turn {act : Act} {k : Nat} {x y : WorkerPlace} {b : Board} {r : Roster}
    (hmove : Move s s' (.worker k) (.worker x) (.worker y) none) (hboard : s'.board = b)
    (hroster : s'.roster = r) (h : WorkerTurn cfg k act x y s.board b)
    (hstir : WorkerStir k x y s.roster r)
    (hdone : ∀ t, x = .running t → s.inCall k = false := by simp) : Turn cfg s s' act := by
  subst hboard
  subst hroster
  exact .worker hmove h hstir hdone

/-- A worker that goes on without a change of the pool, apart from a mutex. -/
theorem worker_goes {act : Act} {k : Nat} {x y : WorkerPlace}
    (hx : s.placeOf (.worker k) = .worker x) (hs₁ : s₁.placeOf = s.placeOf)
    (hhalted : s₁.halted = s.halted)
    (hl : GuardMove (.worker k) x.guards y.guards s.mutexes.owner s₁.mutexes.owner)
    (hboard : (s₁.goWorker k y).board = s.board) (hroster : s₁.roster = s.roster)
    (h : WorkerTurn cfg k act x y s.board s.board) (hstir : WorkerStir k x y s.roster s.roster)
    (hdone : ∀ t, x = .running t → s.inCall k = false := by simp) :
    Turn cfg s (s₁.goWorker k y) act := by
  refine worker_turn (move_goWorker hx hs₁ hhalted hl) hboard ?_ h hstir hdone
  rw [System.roster_goWorker, hroster]

theorem workerStep_turn {k : Nat} {x : WorkerPlace} (hx : s.placeOf (.worker k) = .worker x)
    (h : s.workerStep cfg env k x = some s') : Turn cfg s s' (.move (.worker k) env) := by
  have hlock {m : Mutex} {y : WorkerPlace}
      (h : (s.lock m (.worker k)).map (·.goWorker k y) = some s') :
      s.mutexes.owner m = none ∧
        s' = ({ s with mutexes := s.mutexes.assign m (some (.worker k)) } : System).goWorker k y := by
    obtain ⟨s₁, hs₁, rfl⟩ := Option.map_eq_some_iff.mp h
    obtain ⟨hfree, rfl⟩ := System.lock_eq_some.mp hs₁
    exact ⟨hfree, rfl⟩
  cases x with
  | built => cases h
  | idled => cases h
  | counted => cases h
  | failed => cases h
  | parked => cases h
  | ended => cases h
  | starting =>
    cases h
    exact worker_goes hx rfl rfl .stay rfl rfl (.quiet rfl rfl) (.quiet rfl rfl)
  | lockTasks =>
    obtain ⟨hfree, rfl⟩ := hlock h
    exact worker_goes hx rfl rfl (guards_lock hfree) rfl rfl (.quiet rfl rfl) (.quiet rfl rfl)
  | loopTest =>
    simp only [System.workerStep] at h
    split at h
    · rename_i hwait
      cases h
      exact worker_goes hx rfl rfl guards_unlock rfl rfl (.park hwait.1 hwait.2) .park
    · rename_i hgo
      cases h
      have hexit (hrunning : s.board.status = .running) : s.board.tasks ≠ [] :=
        fun hempty => hgo ⟨hrunning, hempty⟩
      exact worker_goes hx rfl rfl .stay rfl rfl (.quiet rfl rfl fun _ => hexit) (.quiet rfl rfl)
  | woken =>
    obtain ⟨hfree, rfl⟩ := hlock h
    by_cases htimedOut : env.timedOut = true
    · rw [if_pos htimedOut]
      exact worker_goes hx rfl rfl (guards_lock hfree) rfl rfl (.timeOut htimedOut) (.quiet rfl rfl)
    · rw [if_neg htimedOut]
      exact worker_goes hx rfl rfl (guards_lock hfree) rfl rfl (.quiet rfl rfl) (.resume (.inl rfl))
  | idleTest =>
    simp only [System.workerStep] at h
    split at h
    · rename_i hmore
      cases h
      exact worker_goes hx rfl rfl .stay rfl rfl (.retire hmore) (.quiet rfl rfl)
    · cases h
      exact worker_goes hx rfl rfl .stay rfl rfl .stay (.resume (.inr rfl))
  | retireIdle =>
    cases h
    have hs₁ := inside_setIdle (s := s) (usub 32 s.pool.idleThreadNum 1)
    exact worker_turn (move_goWorker hx hs₁.places hs₁.halted (hs₁.stay rfl)) (board_setIdle ..)
      (roster_setIdle ..) (.quiet rfl rfl) (.decIdle rfl rfl rfl)
  | retireNow =>
    cases h
    have hs₁ := inside_setNow (s := s) (usub 32 s.pool.nowThreadNum 1)
    exact worker_turn (move_goWorker hx hs₁.places hs₁.halted (hs₁.stay rfl)) (board_setNow ..)
      (roster_setNow ..) (.uncount (.inl rfl) rfl) (.quiet rfl rfl)
  | retireLock =>
    obtain ⟨hfree, rfl⟩ := hlock h
    exact worker_goes hx rfl rfl (guards_lock hfree) rfl rfl (.quiet rfl rfl) (.quiet rfl rfl)
  | handOver =>
    cases h
    obtain ⟨hplaces, hguards, hmutexes, hboard, hroster, hbeside, hhalted⟩ :=
      notifyMonitor_frame (s := s.emplaceFree k)
    -- the monitor is woken first; neither that nor its list is on the board
    have hmove := move_goWorker (y := .retireUnlock)
      ((hplaces (.worker k) (by simp)).trans hx) rfl rfl .stay
    have hmove : Move s ((s.emplaceFree k).notifyMonitor.goWorker k .retireUnlock) (.worker k)
        (.worker .handOver) (.worker .retireUnlock) none :=
      .of_monitor (by simp) hplaces hguards (congrArg _ hmutexes) hbeside rfl hhalted hmove
    refine worker_turn (r := (s.emplaceFree k).roster) hmove ?_ ?_ (.quiet rfl rfl) .handOver
    · show (s.emplaceFree k).notifyMonitor.board = s.board
      rw [hboard]
      rfl
    · rw [System.roster_goWorker, hroster]
  | retireUnlock =>
    cases h
    exact worker_goes hx rfl rfl guards_unlock rfl rfl (.quiet rfl rfl) .pass
  | exitTest =>
    simp only [System.workerStep] at h
    split at h
    · rename_i hquit
      cases h
      exact worker_goes hx rfl rfl .stay rfl rfl (.quit hquit.1 hquit.2) (.quiet rfl rfl)
    · split at h
      · cases h
        exact still_other (by simp [FromJoin])
      · rename_i t rest htasks
        cases h
        exact worker_turn (move_goWorker hx rfl rfl .stay) rfl (System.roster_goWorker ..)
          (.pop htasks) (.quiet rfl rfl)
  | quitStatus =>
    cases h
    exact worker_turn (move_goWorker hx rfl rfl .stay) rfl (System.roster_goWorker ..) .terminate
      (.quiet rfl rfl)
  | quitIdle =>
    cases h
    have hs₁ := inside_setIdle (s := s) (usub 32 s.pool.idleThreadNum 1)
    exact worker_turn (move_goWorker hx hs₁.places hs₁.halted (hs₁.stay rfl)) (board_setIdle ..)
      (roster_setIdle ..) (.quiet rfl rfl) (.decIdle rfl rfl rfl)
  | quitNow =>
    cases h
    have hs₁ := inside_setNow (s := s) (usub 32 s.pool.nowThreadNum 1)
    exact worker_turn (move_goWorker hx hs₁.places hs₁.halted (hs₁.stay rfl)) (board_setNow ..)
      (roster_setNow ..) (.uncount (.inr rfl) rfl) .quit
  | leave =>
    cases h
    exact worker_goes hx rfl rfl guards_unlock rfl rfl .leave .leave
  | unlockTask t =>
    cases h
    exact worker_goes hx rfl rfl guards_unlock rfl rfl (.quiet rfl rfl) (.quiet rfl rfl)
  | beginTask t =>
    cases h
    have hs₁ := inside_setIdle (s := s) (usub 32 s.pool.idleThreadNum 1)
    exact worker_turn (move_goWorker hx hs₁.places hs₁.halted (hs₁.stay rfl)) (board_setIdle ..)
      (roster_setIdle ..) (.quiet rfl rfl) (.decIdle rfl rfl rfl)
  | running t =>
    simp only [System.workerStep] at h
    split at h
    · cases h
    · rename_i hnot
      cases h
      exact worker_turn (move_goWorker hx rfl rfl .stay) rfl (System.roster_goWorker ..) .finish
        (.quiet rfl rfl) fun _ _ => Bool.eq_false_iff.mpr hnot
  | endTask =>
    cases h
    have hs₁ := inside_setIdle (s := s) (uadd 32 s.pool.idleThreadNum 1)
    exact worker_turn (move_goWorker hx hs₁.places hs₁.halted (hs₁.stay rfl)) (board_setIdle ..)
      (roster_setIdle ..) (.quiet rfl rfl) .incIdle

/-! ## `AddThread` -/

/-- What a step of `AddThread` in party `p` can do. -/
inductive AddCase (cfg : Config) (env : Env) (s : System) (p : Party) :
    AddPlace → System → System.AddNext → Prop
  | quiet {s₁ : System} {a a' : AddPlace} (hplaces : s₁.placeOf = s.placeOf)
      (hboard : s₁.board = s.board) (hroster : s₁.roster = s.roster) (hhalted : s₁.halted = s.halted)
      (hlocks : ∀ g, GuardMove p (a.guards ++ g) (a'.guards ++ g) s.mutexes.owner s₁.mutexes.owner)
      (hremaining : (OwnerPlace.adding a').remaining cfg = (OwnerPlace.adding a).remaining cfg)
      (hx : a.target = none) (hy : a'.target = none) (hawaits : a'.awaits = none)
      (hcleared : a'.cleared = true) : AddCase cfg env s p a s₁ (.at a')
  | full {size : Nat} (h : ¬ (s.board.now < cfg.maxPoolSize ∧ 0 < size)) :
      AddCase cfg env s p (.test size) s (.at .unlock)
  | grow {s₁ : System} {a a' : AddPlace} {k size : Nat} {z z' : Place}
      (hbefore : s.placeOf (.worker k) = z)
      (hafter : s₁.placeOf = Function.update s.placeOf (.worker k) z')
      (hlocks : s₁.mutexes = s.mutexes) (hhalted : s₁.halted = s.halted)
      (h : Growth cfg env k size a a' z z' s.board s₁.board)
      (hstir : GrowthStir s k size a a' s.roster s₁.roster) : AddCase cfg env s p a s₁ (.at a')
  | returned : AddCase cfg env s p .unlock (s.unlock .pool) .returned
  | threw : AddCase cfg env s p .unwind (s.unlock .pool) .threw
  | halted {a : AddPlace} {h : Halt} (hh : ¬ FromJoin h) : AddCase cfg env s p a s (.halted h)

/-- A free id is positive and nobody alive has it. -/
theorem tidFree_spec {tid : Nat} (h : s.tidFree tid = true) : 0 < tid ∧ ∀ j x,
    s.placeOf (.worker j) = .worker x → x.alive = true → s.roster.tid j ≠ tid := by
  simp only [System.tidFree, Bool.and_eq_true, decide_eq_true_eq, List.all_eq_true] at h
  obtain ⟨hpos, hfree⟩ := h
  refine ⟨hpos, ?_⟩
  intro j x hx halive htid
  obtain ⟨w, hw, rfl⟩ := System.placeOf_worker_iff.mp hx
  have hw' := hfree w (List.mem_of_getElem? hw)
  have htid : w.tid = tid := by
    rw [← htid]
    simp [System.roster, hw]
  simp [halive, htid] at hw'

theorem addThread_case (hs : Frames s) {p : Party} {a : AddPlace} {next : System.AddNext}
    (htarget : (s.placeOf p).target = a.target)
    (h : s.addThread cfg B env p a = some (s₁, next)) : AddCase cfg env s p a s₁ next := by
  -- the worker a call of `AddThread` is about to move stands where the call expects it
  have hframe {k : Nat} {z : WorkerPlace} (hz : z.fresh = true) (ha : a.target = some (k, z)) :
      s.placeOf (.worker k) = .worker z := (hs k z hz).mpr ⟨p, htarget.trans ha⟩
  cases a with
  | check size =>
    simp only [System.addThread] at h
    split at h
    · cases h
      exact .quiet rfl rfl rfl rfl (fun _ => .stay) rfl rfl rfl rfl rfl
    · cases h
      exact .halted (by simp [FromJoin])
  | lock size =>
    obtain ⟨s₂, hs₂, heq⟩ := Option.map_eq_some_iff.mp h
    cases heq
    obtain ⟨hfree, rfl⟩ := System.lock_eq_some.mp hs₂
    exact .quiet rfl rfl rfl rfl (fun _ => guards_lock hfree) rfl rfl rfl rfl rfl
  | test size =>
    simp only [System.addThread] at h
    split at h
    · rename_i hroom
      cases h
      refine .grow System.placeOf_build.1 System.placeOf_build.2 rfl rfl (.build hroom.1 hroom.2) ?_
      rw [System.roster_build]
      exact .build rfl
    · rename_i hfull
      cases h
      exact .full hfull
  | countIdle k size =>
    cases h
    have hbuilt := hframe (k := k) (z := .built) rfl rfl
    have hs₁ := inside_setIdle (s := s) (uadd 32 s.pool.idleThreadNum 1)
    have hlocks : (s.incIdle.goWorker k .idled).mutexes = s.mutexes := hs₁.mutexes
    have hafter : (s.incIdle.goWorker k .idled).placeOf =
        Function.update s.placeOf (.worker k) (.worker .idled) := by
      rw [System.placeOf_goWorker (hs₁.places ▸ hbuilt)]
      exact congrArg (Function.update · _ _) hs₁.places
    have hboard : (s.incIdle.goWorker k .idled).board = s.board := board_setIdle ..
    have hroster : (s.incIdle.goWorker k .idled).roster =
        { s.roster with idle := uadd 32 s.roster.idle 1 } := roster_setIdle ..
    have hgrowth : Growth cfg env k size (.countIdle k size) (.countNow k size) (.worker .built)
        (.worker .idled) s.board (s.incIdle.goWorker k .idled).board := hboard ▸ .countIdle
    refine .grow hbuilt hafter hlocks hs₁.halted hgrowth ?_
    rw [hroster]
    exact .countIdle
  | countNow k size =>
    cases h
    have hidled := hframe (k := k) (z := .idled) rfl rfl
    have hs₁ := inside_setNow (s := s) (uadd 32 s.pool.nowThreadNum 1)
    have hlocks : (s.incNow.goWorker k .counted).mutexes = s.mutexes := hs₁.mutexes
    have hafter : (s.incNow.goWorker k .counted).placeOf =
        Function.update s.placeOf (.worker k) (.worker .counted) := by
      rw [System.placeOf_goWorker (hs₁.places ▸ hidled)]
      exact congrArg (Function.update · _ _) hs₁.places
    have hboard : (s.incNow.goWorker k .counted).board =
        { s.board with now := uadd 32 s.board.now 1 } := board_setNow ..
    have hroster : (s.incNow.goWorker k .counted).roster = s.roster := roster_setNow ..
    have hgrowth : Growth cfg env k size (.countNow k size) (.start k size) (.worker .idled)
        (.worker .counted) s.board (s.incNow.goWorker k .counted).board := hboard ▸ .countNow
    refine .grow hidled hafter hlocks hs₁.halted hgrowth ?_
    rw [hroster]
    exact .countNow
  | start k size =>
    have hcounted := hframe (k := k) (z := .counted) rfl rfl
    have hbuilt := System.built_of_place hcounted
    simp only [System.addThread] at h
    split at h
    · cases h
      exact .halted (by simp [FromJoin])
    · split at h
      · split at h
        · rename_i hfree
          cases h
          obtain ⟨hpos, hfree⟩ := tidFree_spec hfree
          refine .grow hcounted (System.placeOf_startThread hcounted) rfl rfl .start ?_
          rw [System.roster_startThread hbuilt]
          exact .start hpos hfree
        · cases h
      · rename_i hfail
        cases h
        refine .grow hcounted (System.placeOf_startThread hcounted) rfl rfl
          (.fail (Bool.eq_false_iff.mpr hfail)) ?_
        rw [System.roster_startThread hbuilt]
        exact .fail
  | await k size =>
    simp only [System.addThread] at h
    split at h
    · split at h
      · cases h
        exact .halted (by simp [FromJoin])
      · cases h
        exact .quiet rfl rfl rfl rfl (fun _ => .stay) rfl rfl rfl rfl rfl
    · cases h
  | unlock =>
    cases h
    exact .returned
  | unwind =>
    cases h
    exact .threw

theorem Growth.guards {k size : Nat} {a a' : AddPlace} {z z' : Place} {b b' : Board}
    (h : Growth cfg env k size a a' z z' b b') :
    a.guards = [.pool] ∧ a'.guards = [.pool] ∧ z.guards = [] ∧ z'.guards = [] := by
  cases h with
  | build => exact ⟨rfl, rfl, rfl, rfl⟩
  | countIdle => exact ⟨rfl, rfl, rfl, rfl⟩
  | countNow => exact ⟨rfl, rfl, rfl, rfl⟩
  | start => exact ⟨rfl, rfl, rfl, rfl⟩
  | fail => exact ⟨rfl, rfl, rfl, rfl⟩

/-- Of the board, a growing step of `AddThread` touches `now_thread_num_` only. -/
theorem Growth.board_kept {k size : Nat} {a a' : AddPlace} {z z' : Place} {b b' : Board}
    (h : Growth cfg env k size a a' z z' b b') :
    b'.status = b.status ∧ b'.tasks = b.tasks ∧ b'.history = b.history := by
  cases h with
  | build => exact ⟨rfl, rfl, rfl⟩
  | countIdle => exact ⟨rfl, rfl, rfl⟩
  | countNow => exact ⟨rfl, rfl, rfl⟩
  | start => exact ⟨rfl, rfl, rfl⟩
  | fail => exact ⟨rfl, rfl, rfl⟩

/-- A party moves on, and so does the worker it takes care of. -/
theorem move_of_grow {p : Party} {k size : Nat} {a a' : AddPlace} {z z' : Place}
    (hp : p = .owner ∨ ∃ c, p = .call c) (hbefore : s.placeOf p = p.adding a)
    (hk : s.placeOf (.worker k) = z)
    (hs₁ : s₁.placeOf = Function.update s.placeOf (.worker k) z')
    (hs' : s'.placeOf = Function.update s₁.placeOf p (p.adding a'))
    (hlocks : s'.mutexes = s.mutexes) (hhalted : s'.halted = s.halted)
    (h : Growth cfg env k size a a' z z' s.board s₁.board) :
    Move s s' p (p.adding a) (p.adding a') (some (.worker k)) ∧
      s'.placeOf (.worker k) = z' := by
  have hne : (Party.worker k) ≠ p := by
    rcases hp with rfl | ⟨c, rfl⟩
    · simp
    · simp
  have hsame : (p.adding a').guards = (p.adding a).guards := by
    obtain ⟨ha, ha', -, -⟩ := h.guards
    rcases hp with rfl | ⟨c, rfl⟩
    · show a'.guards = a.guards
      rw [ha, ha']
    · show a'.guards ++ [.tasks] = a.guards ++ [.tasks]
      rw [ha, ha']
  have hmonitor (hp : p ≠ .monitor) : s'.placeOf .monitor = s.placeOf .monitor := by
    rw [hs', Function.update_of_ne hp.symm, hs₁, Function.update_of_ne (by simp)]
  have hbeside (hp : p ≠ .monitor) : Beside s.monitor s'.monitor := by
    have hsame : s'.monitor = s.monitor := Place.monitor.inj (hmonitor hp)
    rw [hsame]
    exact .still
  refine ⟨⟨hbefore, ?_, ?_, ?_, ?_, hbeside, .inl hhalted⟩, ?_⟩
  · rw [hs', Function.update_self]
  · intro q hq _ halso
    have hqk : q ≠ .worker k := fun h => halso (congrArg some h)
    rw [hs', Function.update_of_ne hq, hs₁, Function.update_of_ne hqk]
  · intro q hq
    rw [hs', Function.update_of_ne hq, hs₁]
    by_cases hqk : q = .worker k
    · subst hqk
      rw [Function.update_self, hk, h.guards.2.2.2, h.guards.2.2.1]
    · rw [Function.update_of_ne hqk]
  · rw [hsame, hlocks]
    exact .stay
  · rw [hs', Function.update_of_ne hne, hs₁, Function.update_self]

/-! ## `Commit` -/

theorem call_turn {c : Nat} {x y : CallPlace} {b : Board}
    (hmove : Move s s' (.call c) (.call x) (.call y) none) (hboard : s'.board = b)
    (hroster : s'.roster = s.roster) (h : CallTurn c x y s.board b)
    (hlive : x.over = false := by rfl) : Turn cfg s s' (.move (.call c) env) := by
  subst hboard
  exact .call hmove h hroster hlive

/-- A call that goes on without a change of the pool, apart from a mutex. -/
theorem call_goes {c : Nat} {x y : CallPlace} (hx : s.placeOf (.call c) = .call x)
    (hs₁ : s₁.placeOf = s.placeOf) (hhalted : s₁.halted = s.halted)
    (hl : GuardMove (.call c) x.guards y.guards s.mutexes.owner s₁.mutexes.owner)
    (hboard : (s₁.goCall c y).board = s.board) (hroster : s₁.roster = s.roster)
    (hstage : y.stage = x.stage) (htarget : (Place.call x).target = none)
    (htarget' : (Place.call y).target = none) (hawaits : (Place.call y).awaits = none := by rfl)
    (hcleared : x.cleared = true → y.cleared = true := by
      simp [CallPlace.cleared, AddPlace.cleared])
    (hlive : x.over = false := by rfl) : Turn cfg s (s₁.goCall c y) (.move (.call c) env) := by
  refine call_turn (move_goCall hx hs₁ hhalted hl) hboard ?_
    (.quiet hstage htarget htarget' hawaits hcleared) hlive
  rw [System.roster_goCall, hroster]

theorem notifyTask_turn {c : Nat} (hx : s.placeOf (.call c) = .call .notify)
    (h : s.notifyTask env.waiter = some s₁) :
    Turn cfg s (s₁.goCall c .returned) (.move (.call c) env) := by
  unfold System.notifyTask at h
  split at h
  · split at h
    · rename_i hwaiter
      cases h
      have hparked := System.workerAt_iff.mp hwaiter
      have hwoken := System.placeOf_goWorker (y := .woken) hparked
      have hcall : (s.goWorker env.waiter .woken).placeOf (.call c) = .call .notify := by
        rw [hwoken, Function.update_of_ne (by simp)]
        exact hx
      have hplaces := System.placeOf_goCall (y := .returned) hcall
      have hroster : ((s.goWorker env.waiter .woken).goCall c .returned).roster = s.roster := by
        rw [System.roster_goCall, System.roster_goWorker]
      refine .notify ⟨hx, ?_, ?_, ?_, .stay, fun _ => .still, .inl rfl⟩ hparked ?_ rfl hroster
      · rw [hplaces, Function.update_self]
      · intro q hq _ halso
        have hqk : q ≠ .worker env.waiter := fun h => halso (congrArg some h)
        rw [hplaces, Function.update_of_ne hq, hwoken, Function.update_of_ne hqk]
      · intro q hq
        rw [hplaces, Function.update_of_ne hq, hwoken]
        by_cases hqk : q = .worker env.waiter
        · subst hqk
          rw [Function.update_self, hparked]
          rfl
        · rw [Function.update_of_ne hqk]
      · rw [hplaces, Function.update_of_ne (by simp), hwoken, Function.update_self]
    · cases h
  · rename_i hnone
    cases h
    refine .notifyNone (move_goCall hx rfl rfl .stay) ?_ rfl (System.roster_goCall ..)
    intro k hparked
    obtain ⟨w, hw, hplace⟩ := System.placeOf_worker_iff.mp hparked
    apply hnone
    refine List.any_eq_true.mpr ⟨w, List.mem_of_getElem? hw, ?_⟩
    rw [hplace]
    rfl

theorem commitStep_turn (hs : Frames s) {c : Nat} {x : CallPlace}
    (hx : s.placeOf (.call c) = .call x) (h : s.commitStep cfg B env c x = some s') :
    Turn cfg s s' (.move (.call c) env) := by
  cases x with
  | returned => cases h
  | threw => cases h
  | check =>
    simp only [System.commitStep] at h
    split at h
    · cases h
      exact call_goes hx rfl rfl .stay rfl rfl rfl rfl rfl
    · cases h
      exact still_other (by simp [FromJoin])
  | lock =>
    obtain ⟨s₁, hs₁, rfl⟩ := Option.map_eq_some_iff.mp h
    obtain ⟨hfree, rfl⟩ := System.lock_eq_some.mp hs₁
    exact call_goes hx rfl rfl (guards_lock hfree) rfl rfl rfl rfl rfl
  | sizeTest =>
    simp only [System.commitStep] at h
    split at h
    · cases h
      exact call_goes hx rfl rfl .stay rfl rfl rfl rfl rfl
    · cases h
      exact call_goes hx rfl rfl .stay rfl rfl rfl rfl rfl
  | adding a =>
    obtain ⟨⟨s₁, next⟩, hadd, rfl⟩ := Option.map_eq_some_iff.mp h
    have htarget : (s.placeOf (.call c)).target = a.target := by
      rw [hx]
      rfl
    cases addThread_case hs htarget hadd with
    | quiet hplaces hboard hroster hhalted hlocks _ hx' hy hawaits hcleared =>
      exact call_goes hx hplaces hhalted (hlocks [.tasks]) hboard hroster rfl hx' hy hawaits
        fun _ => hcleared
    | full => exact call_goes hx rfl rfl .stay rfl rfl rfl rfl rfl
    | @grow _ _ a' k _ z z' hbefore hafter hlocks hhalted hgrowth hstir =>
      have hcall : s₁.placeOf (.call c) = .call (.adding a) := by
        rw [hafter, Function.update_of_ne (by simp)]
        exact hx
      have hplaces := System.placeOf_goCall (y := .adding a') hcall
      obtain ⟨hmove, hz'⟩ :=
        move_of_grow (.inr ⟨c, rfl⟩) hx hbefore hafter hplaces hlocks hhalted hgrowth
      refine .grow (.inr ⟨c, rfl⟩) hmove hbefore hz' hgrowth ?_
      rw [System.roster_goCall]
      exact hstir
    | returned => exact call_goes hx rfl rfl guards_unlock rfl rfl rfl rfl rfl
    | threw => exact call_goes hx rfl rfl guards_unlock rfl rfl rfl rfl rfl
    | halted hh => exact still_other hh
  | emplace =>
    cases h
    exact call_turn (move_goCall hx rfl rfl .stay) rfl (System.roster_goCall ..) .push
  | unlock =>
    cases h
    exact call_goes hx rfl rfl guards_unlock rfl rfl rfl rfl rfl
  | notify =>
    obtain ⟨s₁, hs₁, rfl⟩ := Option.map_eq_some_iff.mp h
    exact notifyTask_turn hx hs₁
  | unwind =>
    cases h
    exact call_goes hx rfl rfl guards_unlock rfl rfl rfl rfl rfl

/-! ## The monitor thread and the owner -/

theorem join_eq_ok {k : Nat} (h : s.join B k = .ok s₁) :
    s₁ = s.markJoined k ∧ k < s.workers.length ∧ s.roster.joined k = false := by
  unfold System.join at h
  split at h
  · cases h
  · rename_i w hw
    split at h
    · cases h
    · split at h
      · cases h
      · split at h
        · cases h
        · rename_i hjoined
          cases h
          refine ⟨rfl, (List.getElem?_eq_some_iff.mp hw).1, ?_⟩
          show (s.workers[k]?).any Worker.joined = false
          rw [hw]
          exact Bool.eq_false_iff.mpr hjoined

theorem join_eq_error {k : Nat} {h : Halt} (hjoin : s.join B k = .error h) :
    JoinFails s.roster k h := by
  unfold System.join at hjoin
  split at hjoin
  · rename_i hnone
    cases hjoin
    exact .absent (List.getElem?_eq_none_iff.mp hnone)
  · rename_i w hw
    have hstarted : s.roster.started k = w.started := by
      show (s.workers[k]?).any Worker.started = w.started
      rw [hw]
      rfl
    have hjoined : s.roster.joined k = w.joined := by
      show (s.workers[k]?).any Worker.joined = w.joined
      rw [hw]
      rfl
    split at hjoin
    · rename_i hfails
      cases hjoin
      apply JoinFails.assert
      rw [hstarted, hjoined]
      simp only [Bool.and_eq_true, Bool.not_eq_true', Bool.and_eq_false_iff,
        Bool.not_eq_false'] at hfails
      exact hfails.2
    · split at hjoin
      · cases hjoin
        exact .null
      · split at hjoin
        · rename_i hagain
          cases hjoin
          exact .again (hjoined.trans hagain)
        · cases hjoin

/-- `std::find_if` over the threads, by their ids. -/
theorem find_spec {tid k : Nat} (h : (s.pool.threadPool.find? fun k =>
      (s.workers[k]?).any fun w => w.tid == tid) = some k) :
    ∃ before after, s.roster.threadPool = before ++ k :: after ∧
      (∀ j ∈ before, j < s.roster.built → s.roster.tid j ≠ tid) ∧
      k < s.roster.built ∧ s.roster.tid k = tid := by
  obtain ⟨hk, before, after, hpool, hbefore⟩ := List.find?_eq_some_iff_append.mp h
  refine ⟨before, after, hpool, ?_, ?_⟩
  · intro j hj hlt
    have hne := hbefore j hj
    rw [List.getElem?_eq_getElem hlt] at hne
    show ((s.workers[j]?).map Worker.tid).getD 0 ≠ tid
    rw [List.getElem?_eq_getElem hlt]
    simpa using hne
  · obtain ⟨w, hw, htid⟩ := (Option.any_eq_true ..).mp hk
    refine ⟨(List.getElem?_eq_some_iff.mp hw).1, ?_⟩
    show ((s.workers[k]?).map Worker.tid).getD 0 = tid
    rw [hw]
    simpa using htid

theorem find_none {tid : Nat} (h : (s.pool.threadPool.find? fun k =>
      (s.workers[k]?).any fun w => w.tid == tid) = none) :
    ∀ k ∈ s.roster.threadPool, k < s.roster.built → s.roster.tid k ≠ tid := by
  intro k hk hlt
  have hne := List.find?_eq_none.mp h k hk
  rw [List.getElem?_eq_getElem hlt] at hne
  show ((s.workers[k]?).map Worker.tid).getD 0 ≠ tid
  rw [List.getElem?_eq_getElem hlt]
  simpa using hne

/-- A move of the monitor that changes nothing of the pool, apart from a mutex. -/
theorem monitor_goes {act : Act} {x y : MonitorPlace} (hx : s.monitor = x)
    (hl : GuardMove .monitor x.guards y.guards s.mutexes.owner s₁.mutexes.owner)
    (hplaces : s₁.placeOf = s.placeOf) (hhalted : s₁.halted = s.halted)
    (hboard : s₁.board = s.board) (hroster : s₁.roster = s.roster)
    (hstir : MonitorStir s x y s.roster s.roster)
    (hact : (∃ env, act = .move .monitor env ∧ x ≠ .ended) ∨ x = .parked ∧ y = .woken :=
      by exact .inl ⟨_, rfl, by simp⟩) : Turn cfg s (s₁.goMonitor y) act := by
  have hstir' : MonitorStir s x y s.roster (s₁.goMonitor y).roster := by
    have hsame : (s₁.goMonitor y).roster = s.roster := hroster
    rw [hsame]
    exact hstir
  exact .monitor (move_goMonitor hx hplaces hhalted hl) hboard hstir' hact

theorem monitorStep_turn {x : MonitorPlace} (hx : s.monitor = x)
    (h : s.monitorStep B x = some s') : Turn cfg s s' (.move .monitor env) := by
  have hlock {m : Mutex} {y : MonitorPlace}
      (h : (s.lock m .monitor).map (·.goMonitor y) = some s') :
      s.mutexes.owner m = none ∧
        s' = ({ s with mutexes := s.mutexes.assign m (some .monitor) } : System).goMonitor y := by
    obtain ⟨s₁, hs₁, rfl⟩ := Option.map_eq_some_iff.mp h
    obtain ⟨hfree, rfl⟩ := System.lock_eq_some.mp hs₁
    exact ⟨hfree, rfl⟩
  cases x with
  | absent => cases h
  | parked => cases h
  | ended => cases h
  | starting =>
    cases h
    exact monitor_goes hx .stay rfl rfl rfl rfl (.quiet rfl rfl)
  | lock =>
    obtain ⟨hfree, rfl⟩ := hlock h
    exact monitor_goes hx (guards_lock hfree) rfl rfl rfl rfl (.quiet rfl rfl)
  | test =>
    simp only [System.monitorStep] at h
    split at h
    · cases h
      exact monitor_goes hx guards_unlock rfl rfl rfl rfl (.quiet rfl rfl)
    · cases h
      exact monitor_goes hx .stay rfl rfl rfl rfl (.quiet rfl rfl)
  | woken =>
    obtain ⟨hfree, rfl⟩ := hlock h
    exact monitor_goes hx (guards_lock hfree) rfl rfl rfl rfl (.quiet rfl rfl)
  | statusTest =>
    simp only [System.monitorStep] at h
    split at h
    · cases h
      exact monitor_goes hx .stay rfl rfl rfl rfl (.quiet rfl rfl)
    · cases h
      exact monitor_goes hx .stay rfl rfl rfl rfl (.quiet rfl rfl)
  | reap =>
    simp only [System.monitorStep] at h
    split at h
    · cases h
      exact monitor_goes hx .stay rfl rfl rfl rfl (.quiet rfl rfl)
    · rename_i hfree
      cases h
      exact monitor_goes hx .stay rfl rfl rfl rfl (.enter hfree)
  | lockPool =>
    obtain ⟨hfree, rfl⟩ := hlock h
    exact monitor_goes hx (guards_lock hfree) rfl rfl rfl rfl .look
  | find =>
    simp only [System.monitorStep] at h
    split at h
    · cases h
      exact still_other (by simp [FromJoin])
    · rename_i tid rest hfree
      split at h
      · rename_i hnone
        cases h
        exact monitor_goes hx .stay rfl rfl rfl rfl (.miss hfree (find_none hnone))
      · rename_i k hfind
        obtain ⟨before, after, hpool, hbefore, hbuilt, htid⟩ := find_spec hfind
        split at h
        · rename_i hjoin
          cases h
          obtain ⟨rfl, -, hjoined⟩ := join_eq_ok hjoin
          have hroster : ((s.markJoined k).goMonitor (.joining k)).roster =
              { s.roster with joined := Function.update s.roster.joined k true } :=
            System.roster_markJoined hbuilt
          refine .monitor (move_goMonitor hx (System.placeOf_markJoined _) rfl .stay) rfl ?_
            (.inl ⟨_, rfl, by simp⟩)
          rw [hroster]
          exact .join hfree hpool hbefore hbuilt htid hjoined
        · rename_i hjoin
          cases h
          exact still_halt (.monitor hx hfree hpool hbefore hbuilt htid (join_eq_error hjoin))
  | joining k =>
    simp only [System.monitorStep] at h
    split at h
    · rename_i hended
      cases h
      exact .monitor (move_goMonitor hx rfl rfl .stay) rfl (.erase (System.workerAt_iff.mp hended))
        (.inl ⟨_, rfl, by simp⟩)
    · cases h
  | unlockPool =>
    cases h
    exact .monitor (move_goMonitor hx rfl rfl guards_unlock) rfl .next (.inl ⟨_, rfl, by simp⟩)
  | unlock =>
    cases h
    exact monitor_goes hx guards_unlock rfl rfl rfl rfl (.quiet rfl rfl)
  | leave =>
    cases h
    exact monitor_goes hx guards_unlock rfl rfl rfl rfl (.quiet rfl rfl)

/-- A move of the owner that changes nothing of the pool, apart from a mutex. -/
theorem owner_goes {act : Act} {x y : OwnerPlace} (hx : s.owner = x)
    (hl : GuardMove .owner x.guards y.guards s.mutexes.owner s₁.mutexes.owner)
    (hplaces : s₁.placeOf = s.placeOf) (hhalted : s₁.halted = s.halted)
    (hboard : s₁.board = s.board) (hroster : s₁.roster = s.roster)
    (hturn : OwnerTurn cfg s.board x y) (hstir : OwnerStir s x y s.roster s.roster)
    (hclose : y.closing = x.closing ∨ x = .constructed ∧ s.ExternalsOver := by exact .inl rfl)
    (hact : (∃ env, act = .move .owner env) ∨ x = .constructed := by exact .inl ⟨_, rfl⟩) :
    Turn cfg s (s₁.goOwner y) act := by
  have hstir' : OwnerStir s x y s.roster (s₁.goOwner y).roster := by
    have hsame : (s₁.goOwner y).roster = s.roster := hroster
    rw [hsame]
    exact hstir
  exact .owner (move_goOwner hx hplaces hhalted hl) hturn hboard hstir' hclose hact

theorem ownerStep_turn (hs : Frames s) {x : OwnerPlace} (hx : s.owner = x)
    (h : s.ownerStep cfg B env x = some s') : Turn cfg s s' (.move .owner env) := by
  cases x with
  | constructed => cases h
  | destroyed => cases h
  | terminated => cases h
  | startMonitor =>
    simp only [System.ownerStep] at h
    split at h
    · cases h
    · rename_i habsent
      split at h
      · cases h
        have habsent := Decidable.not_not.mp habsent
        have hplaces (q : Party) (hq : q ≠ .monitor) :
            (s.goMonitor .starting).placeOf q = s.placeOf q := by
          rw [System.placeOf_goMonitor, Function.update_of_ne hq]
        have hguards (q : Party) :
            ((s.goMonitor .starting).placeOf q).guards = (s.placeOf q).guards := by
          rw [System.placeOf_goMonitor]
          by_cases hq : q = .monitor
          · subst hq
            rw [Function.update_self]
            show _ = MonitorPlace.guards s.monitor
            rw [habsent]
            rfl
          · rw [Function.update_of_ne hq]
        have hbeside : Beside s.monitor (s.goMonitor .starting).monitor := by
          rw [habsent]
          exact .created
        have hmove := move_goOwner (s := s.goMonitor .starting) (y := .awaitMonitor) hx rfl rfl .stay
        exact .owner (.of_monitor (by simp) hplaces hguards rfl hbeside rfl rfl hmove)
          (.quiet rfl (fun _ => rfl) rfl rfl) rfl (.quiet rfl rfl) (.inl rfl)
          (.inl ⟨_, rfl⟩)
      · cases h
        exact still_other (by simp [FromJoin])
  | awaitMonitor =>
    simp only [System.ownerStep] at h
    split at h
    · cases h
    · cases h
      exact owner_goes hx .stay rfl rfl rfl rfl (.quiet rfl (fun _ => rfl) rfl rfl) (.quiet rfl rfl)
  | adding a =>
    obtain ⟨⟨s₁, next⟩, hadd, rfl⟩ := Option.map_eq_some_iff.mp h
    have howner : s.placeOf .owner = .owner (.adding a) := congrArg Place.owner hx
    have htarget : (s.placeOf .owner).target = a.target := by
      rw [howner]
      rfl
    cases addThread_case hs htarget hadd with
    | @quiet _ _ a' hplaces hboard hroster hhalted hlocks hremaining hx' hy =>
      have hl := hlocks []
      rw [List.append_nil, List.append_nil] at hl
      exact owner_goes hx hl hplaces hhalted hboard hroster (.quiet hremaining (fun _ => rfl) hx' hy)
        (.quiet rfl rfl)
    | full hfull => exact owner_goes hx .stay rfl rfl rfl rfl (.grown hfull) (.quiet rfl rfl)
    | @grow _ _ a' k _ z z' hbefore hafter hlocks hhalted hgrowth hstir =>
      have hplaces := System.placeOf_goOwner (s := s₁) (.adding a')
      obtain ⟨hmove, hz'⟩ :=
        move_of_grow (.inl rfl) howner hbefore hafter hplaces hlocks hhalted hgrowth
      exact .grow (.inl rfl) hmove hbefore hz' hgrowth hstir
    | returned =>
      exact owner_goes hx guards_unlock rfl rfl rfl rfl (.quiet rfl (fun _ => rfl) rfl rfl)
        (.quiet rfl rfl)
    | threw =>
      -- the constructor is `noexcept`
      have hgo : Move s ((s.unlock .pool).goOwner .terminated) .owner (.owner (.adding .unwind))
          (.owner .terminated) none := move_goOwner hx rfl rfl guards_unlock
      have hmove : Move s (((s.unlock .pool).halt (.aborted "std::terminate")).goOwner .terminated)
          .owner (.owner (.adding .unwind)) (.owner .terminated) none :=
        { hgo with halted := .inr ⟨_, by simp [FromJoin], rfl⟩ }
      exact .owner hmove (.quiet rfl (fun _ => rfl) rfl rfl) rfl (.quiet rfl rfl) (.inl rfl)
          (.inl ⟨_, rfl⟩)
    | halted hh => exact still_other hh
  | notifyMonitor =>
    cases h
    obtain ⟨hplaces, hguards, hmutexes, hboard, hroster, hbeside, hhalted⟩ :=
      notifyMonitor_frame (s := s)
    have howner : s.notifyMonitor.owner = .notifyMonitor :=
      Place.owner.inj ((hplaces .owner (by simp)).trans (congrArg Place.owner hx))
    have hmove := move_goOwner (y := .notifyAll) howner rfl rfl .stay
    have hstir : OwnerStir s .notifyMonitor .notifyAll s.roster
        (s.notifyMonitor.goOwner .notifyAll).roster := by
      have hsame : (s.notifyMonitor.goOwner .notifyAll).roster = s.roster := hroster
      rw [hsame]
      exact .quiet rfl rfl
    exact .owner (.of_monitor (by simp) hplaces hguards (congrArg _ hmutexes) hbeside rfl hhalted hmove)
      (.quiet rfl (fun h => h) rfl rfl) hboard hstir (.inl rfl) (.inl ⟨_, rfl⟩)
  | notifyAll =>
    cases h
    have hroster : (s.notifyAllTasks.goOwner (.walk s.pool.threadPool.head?)).roster = s.roster :=
      System.roster_notifyAllTasks
    exact .notifyAll (congrArg Place.owner hx) rfl System.placeOf_notifyAllTasks (fun _ => rfl) rfl
      rfl rfl hroster rfl rfl
  | walk it =>
    cases it with
    | none =>
      cases h
      exact owner_goes hx .stay rfl rfl rfl rfl (.quiet rfl (fun h => h) rfl rfl) .finish
    | some k =>
      simp only [System.ownerStep] at h
      split at h
      · rename_i hmem
        split at h
        · rename_i hjoin
          cases h
          obtain ⟨rfl, hbuilt, hjoined⟩ := join_eq_ok hjoin
          have hroster : ((s.markJoined k).goOwner (.joining k)).roster =
              { s.roster with joined := Function.update s.roster.joined k true } :=
            System.roster_markJoined hbuilt
          refine .owner (move_goOwner hx (System.placeOf_markJoined _) rfl .stay)
            (.quiet rfl (fun h => h) rfl rfl) rfl ?_ (.inl rfl)
            (.inl ⟨_, rfl⟩)
          rw [hroster]
          exact .join hmem hjoined
        · rename_i hjoin
          cases h
          exact still_halt (.owner hx hmem (join_eq_error hjoin))
      · rename_i hmem
        cases h
        exact still_halt (.erased (.inl hx) hmem)
  | joining k =>
    simp only [System.ownerStep] at h
    split at h
    · rename_i hended
      split at h
      · rename_i hmem
        cases h
        exact owner_goes hx .stay rfl rfl rfl rfl (.quiet rfl (fun h => h) rfl rfl)
          (OwnerStir.next (r := s.roster) (System.workerAt_iff.mp hended) hmem)
      · rename_i hmem
        cases h
        exact still_halt (.erased (.inr hx) hmem)
    · cases h

/-- What the destructor may rely on. -/
theorem externalsOver_of_all (h : (s.calls.all fun call =>
      call.caller != .external || call.place == .returned || call.place == .threw) = true) :
    s.ExternalsOver := by
  intro c x hc hcaller
  obtain ⟨call, hcall, rfl⟩ := System.placeOf_call_iff.mp hc
  have hexternal : call.caller = .external := by
    have hmap : (s.calls[c]?).map Call.caller = some .external := hcaller
    rw [hcall] at hmap
    exact Option.some.inj hmap
  have hover := List.all_eq_true.mp h call (List.mem_of_getElem? hcall)
  rw [hexternal] at hover
  cases hplace : call.place with
  | returned => rfl
  | threw => rfl
  | _ =>
    rw [hplace] at hover
    cases hover

/-! ## Every step -/

/-- **Every step is a turn.** -/
theorem step_turn (hs : Frames s) {act : Act} (h : (poolRuns cfg B).step s act = some s') :
    Turn cfg s s' act := by
  have h : s.step cfg B act = some s' := h
  simp only [System.step, Option.ite_none_left_eq_some] at h
  obtain ⟨-, h⟩ := h
  cases act with
  | move p env =>
    cases p with
    | owner => exact ownerStep_turn hs rfl h
    | monitor => exact monitorStep_turn rfl h
    | worker k =>
      simp only [System.move] at h
      split at h
      · rename_i w hw
        exact workerStep_turn (System.placeOf_worker_iff.mpr ⟨w, hw, rfl⟩) h
      · cases h
    | call c =>
      simp only [System.move] at h
      split at h
      · rename_i call hc
        exact commitStep_turn hs (System.placeOf_call_iff.mpr ⟨call, hc, rfl⟩) h
      · cases h
  | wake k =>
    simp only [Option.ite_none_right_eq_some, Option.some.injEq] at h
    obtain ⟨hparked, rfl⟩ := h
    exact worker_goes (System.workerAt_iff.mp hparked) rfl rfl .stay rfl rfl .wake (.quiet rfl rfl)
  | wakeMonitor =>
    simp only [Option.ite_none_right_eq_some, Option.some.injEq] at h
    obtain ⟨hparked, rfl⟩ := h
    exact monitor_goes hparked .stay rfl rfl rfl rfl (.quiet rfl rfl) (.inr ⟨rfl, rfl⟩)
  | commit caller =>
    simp only [Option.ite_none_right_eq_some, Option.some.injEq] at h
    obtain ⟨hmay, rfl⟩ := h
    obtain ⟨habsent, hplaces⟩ := System.placeOf_commit (s := s) caller
    exact .commit hmay (move_of_update habsent hplaces rfl .stay) rfl (System.roster_commit caller)
  | shutDown caller =>
    simp only [Option.ite_none_right_eq_some, Option.some.injEq] at h
    obtain ⟨-, rfl⟩ := h
    exact .shutDown rfl rfl rfl rfl rfl
  | destroy =>
    simp only [Option.ite_none_right_eq_some, Option.some.injEq] at h
    obtain ⟨⟨hconstructed, hover⟩, rfl⟩ := h
    exact owner_goes hconstructed .stay rfl rfl rfl rfl (.quiet rfl (fun h => h) rfl rfl)
      (.quiet rfl rfl) (.inr ⟨rfl, externalsOver_of_all hover⟩) (.inr rfl)

end TurboNet.Base
