/-
# TurboNet.Base.PoolFailedGrowth — a growth that fails leaves a thread behind.

When `std::thread` throws in `Thread::Start`, `AddThread` has its `Thread` in `thread_pool_` and in
both counters, and `started_` is set.  The guards on the stack give the mutexes up, and nothing takes
the rest back: the exception leaves `Commit` with a `Thread` in the list that has no thread, counts
against `kMaxPoolSize_` as an idle worker, and is null for whoever joins it.
-/
import TurboNet.Base.PoolCounters
import TurboNet.Base.PoolDestructor

namespace TurboNet.Base

open TurboNet.Lib
open TurboNet.Logger (Build Halt)

variable {cfg : Config} {B : Build} {env : Env} {s s₁ s' : System}

/-! ## Nobody joins a thread that failed -/

/-- The thread of worker `k` was created. -/
def Born (s : System) (k : Nat) : Prop :=
  ∃ l, (s.placeOf (.worker k)).life = some l ∧ l ≠ .unborn

theorem Born.turn {k : Nat} (hborn : Born s k) {act : Act} (h : Turn cfg s s' act) : Born s' k := by
  obtain ⟨l, hl, hnot⟩ := hborn
  cases life_view h k with
  | same hsame => exact ⟨l, hsame.trans hl, hnot⟩
  | built hbefore =>
    rw [hl] at hbefore
    cases hbefore
  | born _ hafter => exact ⟨_, hafter, by simp⟩
  | parks _ hafter => exact ⟨_, hafter, by simp⟩
  | resumes _ hafter => exact ⟨_, hafter, by simp⟩
  | retires _ hafter => exact ⟨_, hafter, by simp⟩
  | passes _ hafter => exact ⟨_, hafter, by simp⟩
  | quits _ hafter => exact ⟨_, hafter, by simp⟩
  | ends _ hafter => exact ⟨_, hafter, by simp⟩

/-- `Join` gets as far as `thread_->join()` with a thread only. -/
theorem born_of_join {k : Nat} (h : s.join B k = .ok s₁) : Born s k := by
  unfold System.join at h
  split at h
  · cases h
  · rename_i w hw
    have hplace : s.placeOf (.worker k) = .worker w.place :=
      System.placeOf_worker_iff.mpr ⟨w, hw, rfl⟩
    split at h
    · cases h
    · split at h
      · cases h
      · rename_i hthread
        refine ⟨w.place.life, by rw [hplace]; rfl, ?_⟩
        intro hunborn
        apply hthread
        cases hx : w.place with
        | built => rfl
        | idled => rfl
        | counted => rfl
        | failed => rfl
        | _ =>
          rw [hx] at hunborn
          cases hunborn

/-- The destructor waits for the end of a thread that was created. -/
def OwnerJoins (s : System) : Prop := ∀ k, s.owner = .joining k → Born s k

theorem ownerJoins_init : OwnerJoins System.init := fun k hk => by cases hk

theorem ownerJoins_step (hs : Frames s) (hj : OwnerJoins s) {act : Act}
    (h : (poolRuns cfg B).step s act = some s') : OwnerJoins s' := by
  intro k hk
  have hturn := step_turn hs h
  cases hturn.owner_case with
  | same howner => exact (hj k (howner.symm.trans hk)).turn hturn
  | @turn x y hx hy _ _ hstir _ hact =>
    rw [hk] at hy
    subst hy
    generalize s.roster = r at hstir
    generalize s'.roster = r' at hstir
    cases hstir with
    | quiet _ hquiet => cases hquiet
    | join =>
      rcases hact with ⟨env, rfl⟩ | hconstructed
      · have h : s.step cfg B (.move .owner env) = some s' := h
        simp only [System.step, System.move, Option.ite_none_left_eq_some, hx] at h
        obtain ⟨-, h⟩ := h
        simp only [System.ownerStep] at h
        split at h
        · split at h
          · rename_i hjoin
            exact (born_of_join hjoin).turn hturn
          · cases h
            have hk : s.owner = .joining k := hk
            rw [hx] at hk
            cases hk
        · cases h
          have hk : s.owner = .joining k := hk
          rw [hx] at hk
          cases hk
      · cases hconstructed
  | notifyAll _ hy =>
    rw [hk] at hy
    cases hy
  | grow _ hy =>
    rw [hk] at hy
    cases hy

theorem System.life_failed {k : Nat} (hfailed : s.placeOf (.worker k) = .worker .failed) :
    (s.placeOf (.worker k)).life = some .unborn := by
  rw [hfailed]
  rfl

/-- A thread that failed is never erased. -/
theorem LifeInv.failed_listed (hs : LifeInv cfg s) {k : Nat}
    (hfailed : s.placeOf (.worker k) = .worker .failed) : k ∈ s.roster.threadPool := by
  obtain ⟨n, hreaped⟩ := hs.threads.reaped
  apply hreaped.reaping.listed k (System.built_of_place hfailed)
  intro htake
  have hended := hreaped.reaping.ended k htake
  rw [System.life_failed hfailed] at hended
  cases hended

/-- A thread that failed is never joined. -/
theorem LifeInv.failed_unjoined (hs : LifeInv cfg s) (hj : OwnerJoins s) {k : Nat}
    (hfailed : s.placeOf (.worker k) = .worker .failed) : s.roster.joined k = false := by
  obtain ⟨n, hreaped⟩ := hs.threads.reaped
  have hlife := System.life_failed hfailed
  have hlisted := hs.failed_listed hfailed
  -- the destructor has only threads behind it that have ended
  have hbehind (hk : s.owner.behind k) : False := by
    have hended := hs.walk.ended k hlisted hk
    rw [hlife] at hended
    cases hended
  by_contra hjoined
  rw [Bool.not_eq_false] at hjoined
  rcases hreaped.joins.joined k hjoined with (htake | hjoining) | hpassed
  · have hended := hreaped.reaping.ended k htake
    rw [hlife] at hended
    cases hended
  · have hretired := List.mem_of_getElem? (hreaped.reaping.joining k hjoining)
    obtain ⟨l, hl, hout⟩ := hs.threads.retirement.gone k hretired
    rw [hlife] at hl
    cases hl
    cases hout
  · cases howner : s.owner with
    | walk it =>
      rw [howner] at hpassed hbehind
      cases it with
      | none => exact hbehind trivial
      | some i => exact hbehind hpassed
    | joining i =>
      rw [howner] at hpassed hbehind
      have hle : k ≤ i := hpassed
      rcases Nat.lt_or_eq_of_le hle with hlt | rfl
      · exact hbehind hlt
      · obtain ⟨l, hl, hborn⟩ := hj k howner
        rw [hlife] at hl
        cases hl
        exact hborn rfl
    | destroyed =>
      rw [howner] at hbehind
      exact hbehind trivial
    | _ =>
      rw [howner] at hpassed
      exact hpassed

/-- `thread_->join()` of a thread that failed. -/
theorem join_of_failed {k : Nat} (hfailed : s.placeOf (.worker k) = .worker .failed)
    (hstarted : s.roster.started k = true) (hjoined : s.roster.joined k = false) :
    s.join B k = .error (.undefined "null thread_") := by
  obtain ⟨w, hw, hplace⟩ := System.placeOf_worker_iff.mp hfailed
  have hwstarted : w.started = true := by
    have hany : (s.workers[k]?).any Worker.started = true := hstarted
    rw [hw] at hany
    exact hany
  have hwjoined : w.joined = false := by
    have hany : (s.workers[k]?).any Worker.joined = false := hjoined
    rw [hw] at hany
    exact hany
  unfold System.join
  rw [hw]
  simp [hwstarted, hwjoined, hplace, WorkerPlace.alive]

/-! ## What a call has built -/

/-- Is the exception of a failed growth on its way through the call, or out of it? -/
def CallPlace.failing : CallPlace → Bool
  | .adding .unwind | .unwind | .threw => true
  | _ => false

def Place.failing : Place → Bool
  | .call x => x.failing
  | _ => false

/-- Does `AddThread` go on to unwind its stack, or leave with the exception? -/
def System.AddNext.failing : System.AddNext → Bool
  | .at .unwind | .threw => true
  | _ => false

/-- The exception comes from the creation of a thread. -/
theorem addThread_failing {p : Party} {a : AddPlace} {next : System.AddNext}
    (h : s.addThread cfg B env p a = some (s₁, next)) (hnext : next.failing = true) :
    a = .unwind ∨
      ∃ k size, a = .start k size ∧ s₁ = s.startThread k 0 .failed ∧ next = .at .unwind := by
  cases a with
  | unwind => exact .inl rfl
  | start k size =>
    simp only [System.addThread] at h
    split at h
    · cases h
      cases hnext
    · split at h
      · split at h
        · cases h
          cases hnext
        · cases h
      · cases h
        exact .inr ⟨k, size, rfl, rfl, rfl⟩
  | lock size =>
    obtain ⟨_, _, heq⟩ := Option.map_eq_some_iff.mp h
    cases heq
    cases hnext
  | check size =>
    simp only [System.addThread] at h
    split at h
    · cases h
      cases hnext
    · cases h
      cases hnext
  | test size =>
    simp only [System.addThread] at h
    split at h
    · cases h
      cases hnext
    · cases h
      cases hnext
  | await k size =>
    simp only [System.addThread] at h
    split at h
    · split at h
      · cases h
        cases hnext
      · cases h
        cases hnext
    · cases h
  | _ =>
    cases h
    cases hnext

/-- A call that goes to `y` fails where `y` does. -/
theorem failing_of_goCall {c : Nat} {x y : CallPlace} (hx : s.placeOf (.call c) = .call x)
    (hfailing : ((s.goCall c y).placeOf (.call c)).failing = true) : y.failing = true := by
  rw [System.placeOf_goCall hx, Function.update_self] at hfailing
  exact hfailing

/-- A step of `AddThread` does not move the call it is part of. -/
theorem addThread_placeOf_call (hs : Frames s) {c : Nat} {a : AddPlace} {next : System.AddNext}
    (hx : s.placeOf (.call c) = .call (.adding a))
    (h : s.addThread cfg B env (.call c) a = some (s₁, next)) :
    s₁.placeOf (.call c) = .call (.adding a) := by
  have htarget : (s.placeOf (.call c)).target = a.target := by
    rw [hx]
    rfl
  cases addThread_case hs htarget h with
  | quiet hplaces => rw [hplaces, hx]
  | grow _ hafter => rw [hafter, Function.update_of_ne (by simp), hx]
  | full => exact hx
  | returned => exact hx
  | threw => exact hx
  | halted => exact hx

/-- A call that fails was failing before, or the thread it added could not be created. -/
theorem commitStep_failing (hs : Frames s) {c : Nat} {x : CallPlace}
    (hx : s.placeOf (.call c) = .call x) (h : s.commitStep cfg B env c x = some s')
    (hfailing : (s'.placeOf (.call c)).failing = true) :
    x.failing = true ∨ ∃ k size, x = .adding (.start k size) ∧
      s' = (s.startThread k 0 .failed).goCall c (.adding .unwind) := by
  have hkept (hplace : s'.placeOf (.call c) = .call x) : x.failing = true := by
    rw [hplace] at hfailing
    exact hfailing
  cases x with
  | unwind => exact .inl rfl
  | threw => exact .inl rfl
  | returned => cases h
  | check =>
    simp only [System.commitStep] at h
    split at h
    · cases h
      cases failing_of_goCall hx hfailing
    · cases h
      cases hkept hx
  | lock =>
    obtain ⟨s₁, hs₁, rfl⟩ := Option.map_eq_some_iff.mp h
    obtain ⟨-, rfl⟩ := System.lock_eq_some.mp hs₁
    cases failing_of_goCall hx hfailing
  | sizeTest =>
    simp only [System.commitStep] at h
    split at h
    · cases h
      cases failing_of_goCall hx hfailing
    · cases h
      cases failing_of_goCall hx hfailing
  | adding a =>
    obtain ⟨⟨s₁, next⟩, hadd, rfl⟩ := Option.map_eq_some_iff.mp h
    have hplace := addThread_placeOf_call hs hx hadd
    have hadding (hnext : next.failing = true) : (CallPlace.adding a).failing = true ∨
        ∃ k size, CallPlace.adding a = .adding (.start k size) ∧
          s₁ = s.startThread k 0 .failed ∧ next = .at .unwind := by
      rcases addThread_failing hadd hnext with rfl | ⟨k, size, rfl, hs₁, hnext⟩
      · exact .inl rfl
      · exact .inr ⟨k, size, rfl, hs₁, hnext⟩
    cases next with
    | returned => cases failing_of_goCall hplace hfailing
    | halted => exact .inl (hkept hplace)
    | threw =>
      rcases hadding rfl with hbefore | ⟨k, size, -, -, hnext⟩
      · exact .inl hbefore
      · cases hnext
    | «at» a' =>
      have hunwind := failing_of_goCall hplace hfailing
      cases a' with
      | unwind =>
        rcases hadding rfl with hbefore | ⟨k, size, hstart, rfl, -⟩
        · exact .inl hbefore
        · exact .inr ⟨k, size, hstart, rfl⟩
      | _ => cases hunwind
  | emplace =>
    cases h
    cases failing_of_goCall (s := s.push c) hx hfailing
  | unlock =>
    cases h
    cases failing_of_goCall (s := s.unlock .tasks) hx hfailing
  | notify =>
    obtain ⟨s₁, hs₁, rfl⟩ := Option.map_eq_some_iff.mp h
    have hplace : s₁.placeOf (.call c) = .call .notify := by
      unfold System.notifyTask at hs₁
      split at hs₁
      · split at hs₁
        · cases hs₁
          exact hx
        · cases hs₁
      · cases hs₁
        exact hx
    cases failing_of_goCall hplace hfailing

/-- Nobody else makes a call fail. -/
theorem Turn.failing_of_other {act : Act} (h : Turn cfg s s' act) {c : Nat}
    (hact : ∀ env, act ≠ .move (.call c) env)
    (hfailing : (s'.placeOf (.call c)).failing = true) : (s.placeOf (.call c)).failing = true := by
  have hsame {p : Party} {x y : Place} {also : Option Party} (hmove : Move s s' p x y also)
      (hp : p ≠ .call c) (halso : also ≠ some (.call c)) :
      (s.placeOf (.call c)).failing = true := by
    rw [hmove.others _ hp.symm (by simp) halso.symm] at hfailing
    exact hfailing
  -- where the call itself is moved, it is not moved to a failure
  have hown {p : Party} {x y : Place} {also : Option Party} (hmove : Move s s' p x y also)
      (hy : y.failing = false) (halso : also ≠ some (.call c)) :
      (s.placeOf (.call c)).failing = true := by
    apply hsame hmove ?_ halso
    rintro rfl
    rw [hmove.after, hy] at hfailing
    cases hfailing
  cases h with
  | @call env d x y hmove =>
    refine hsame hmove ?_ (by simp)
    rintro heq
    cases heq
    exact hact env rfl
  | @grow env p k size a a' z z' hp hmove =>
    refine hsame hmove ?_ (by simp)
    rintro rfl
    exact hact env rfl
  | notify hmove => exact hown hmove rfl (by simp)
  | notifyNone hmove => exact hown hmove rfl (by simp)
  | commit _ hmove => exact hown hmove rfl (by simp)
  | worker hmove => exact hsame hmove (by simp) (by simp)
  | owner hmove => exact hsame hmove (by simp) (by simp)
  | monitor hmove => exact hsame hmove (by simp) (by simp)
  | notifyAll _ _ _ hcalls =>
    rw [hcalls c] at hfailing
    exact hfailing
  | shutDown hplaces =>
    rw [hplaces] at hfailing
    exact hfailing
  | still hplaces =>
    rw [hplaces] at hfailing
    exact hfailing

/-- What a call has done that was made when there were `n` threads: the thread it is adding is a
later one, and if it fails, that one has. -/
structure Trail (n c : Nat) (s : System) : Prop where
  built : n ≤ s.roster.built
  target : ∀ k z, (s.placeOf (.call c)).target = some (k, z) → n ≤ k
  failed : (s.placeOf (.call c)).failing = true → ∃ k, n ≤ k ∧ s.placeOf (.worker k) = .worker .failed

/-- Is the call still to be made, or before its first growing step? -/
def CallPlace.beforeGrowth : CallPlace → Bool
  | .check | .lock | .sizeTest | .adding (.check _) | .adding (.lock _) | .adding (.test _) => true
  | _ => false

def Place.beforeGrowth : Place → Bool
  | .absent => true
  | .call x => x.beforeGrowth
  | _ => false

theorem Place.of_beforeGrowth {x : Place} (h : x.beforeGrowth = true) :
    x.target = none ∧ x.failing = false := by
  cases x with
  | absent => exact ⟨rfl, rfl⟩
  | call x =>
    cases x with
    | adding a =>
      cases a with
      | check => exact ⟨rfl, rfl⟩
      | lock => exact ⟨rfl, rfl⟩
      | test => exact ⟨rfl, rfl⟩
      | _ => cases h
    | check => exact ⟨rfl, rfl⟩
    | lock => exact ⟨rfl, rfl⟩
    | sizeTest => exact ⟨rfl, rfl⟩
    | _ => cases h
  | _ => cases h

theorem trail_init {c : Nat} (hbegin : (s.placeOf (.call c)).beforeGrowth = true) :
    Trail s.workers.length c s := by
  obtain ⟨hnone, hnot⟩ := Place.of_beforeGrowth hbegin
  refine ⟨Nat.le_refl _, fun k z htarget => ?_, fun hfailing => ?_⟩
  · rw [hnone] at htarget
    cases htarget
  · rw [hnot] at hfailing
    cases hfailing

theorem Trail.target_turn {n c : Nat} (htrail : Trail n c s) {act : Act} (h : Turn cfg s s' act)
    {k : Nat} {z : WorkerPlace} (htarget : (s'.placeOf (.call c)).target = some (k, z)) : n ≤ k := by
  have hold (z : WorkerPlace) (hbefore : (s.placeOf (.call c)).target = some (k, z)) : n ≤ k :=
    htrail.target k z hbefore
  cases h.call_view c with
  | same hsame => exact hold z (hsame ▸ htarget)
  | turn hmove hturn =>
    rw [hmove.after] at htarget
    generalize s.board = b at hturn
    generalize s'.board = b' at hturn
    cases hturn with
    | quiet _ _ hy =>
      rw [hy] at htarget
      cases htarget
    | push => cases htarget
  | notified _ hafter =>
    rw [hafter] at htarget
    cases htarget
  | begun _ hafter =>
    rw [hafter] at htarget
    cases htarget
  | @grown env j size a a' z₁ z₂ hmove hbefore hafter hgrowth =>
    have hcall := hmove.before
    rw [hmove.after] at htarget
    generalize s.board = b at hgrowth
    generalize s'.board = b' at hgrowth
    cases hgrowth with
    | build =>
      -- the new thread comes after all the others
      cases htarget
      exact htrail.built.trans (System.built_le (by rw [hbefore]; rfl))
    | countIdle =>
      cases htarget
      exact hold _ (by rw [hcall]; rfl)
    | countNow =>
      cases htarget
      exact hold _ (by rw [hcall]; rfl)
    | start => cases htarget
    | fail => cases htarget

theorem Trail.failed_step (hs : Frames s) {n c : Nat} (htrail : Trail n c s) {act : Act}
    (h : (poolRuns cfg B).step s act = some s') (hfailing : (s'.placeOf (.call c)).failing = true) :
    ∃ k, n ≤ k ∧ s'.placeOf (.worker k) = .worker .failed := by
  have hturn := step_turn hs h
  have hkept (hbefore : (s.placeOf (.call c)).failing = true) :
      ∃ k, n ≤ k ∧ s'.placeOf (.worker k) = .worker .failed := by
    obtain ⟨k, hk, hfailed⟩ := htrail.failed hbefore
    exact ⟨k, hk, failed_kept hturn hfailed⟩
  by_cases hact : ∃ env, act = .move (.call c) env
  · obtain ⟨env, rfl⟩ := hact
    have h : s.step cfg B (.move (.call c) env) = some s' := h
    simp only [System.step, System.move, Option.ite_none_left_eq_some] at h
    obtain ⟨-, h⟩ := h
    split at h
    · rename_i call hc
      have hplace : s.placeOf (.call c) = .call call.place :=
        System.placeOf_call_iff.mpr ⟨call, hc, rfl⟩
      rcases commitStep_failing hs hplace h hfailing with hbefore | ⟨k, size, hstart, rfl⟩
      · exact hkept (by rw [hplace]; exact hbefore)
      · rw [hstart] at hplace
        have htarget : (s.placeOf (.call c)).target = some (k, .counted) := by
          rw [hplace]
          rfl
        have hcounted := (hs k .counted rfl).mpr ⟨.call c, htarget⟩
        have hstarted : (s.startThread k 0 .failed).placeOf =
            Function.update s.placeOf (.worker k) (.worker .failed) :=
          System.placeOf_startThread hcounted
        have hcall : (s.startThread k 0 .failed).placeOf (.call c) =
            .call (.adding (.start k size)) := by
          rw [hstarted, Function.update_of_ne (by simp), hplace]
        refine ⟨k, htrail.target k .counted htarget, ?_⟩
        rw [System.placeOf_goCall hcall, Function.update_of_ne (by simp), hstarted,
          Function.update_self]
    · cases h
  · exact hkept (hturn.failing_of_other (fun env heq => hact ⟨env, heq⟩) hfailing)

theorem Trail.step (hs : Frames s) {n c : Nat} (htrail : Trail n c s) {act : Act}
    (h : (poolRuns cfg B).step s act = some s') : Trail n c s' where
  built := by
    rcases (roster_cases (step_turn hs h)).built_cases with hbuilt | ⟨hbuilt, -⟩
    · exact hbuilt ▸ htrail.built
    · rw [hbuilt]
      exact Nat.le_succ_of_le htrail.built
  target := fun _ _ => htrail.target_turn (step_turn hs h)
  failed := htrail.failed_step hs h

/-! ## What is left behind -/

/-- The pool is as it was in `s₀`, and its threads can be joined. -/
structure AsBefore (B : Build) (s₀ s : System) : Prop where
  idle : s.pool.idleThreadNum = s₀.pool.idleThreadNum
  now : s.pool.nowThreadNum = s₀.pool.nowThreadNum
  threadPool : s.pool.threadPool = s₀.pool.threadPool
  tasks : s.pool.tasks = s₀.pool.tasks
  joinable : ∀ k ∈ s.pool.threadPool, ∃ s₁, s.join B k = .ok s₁

/-- Thread `k` came into the list after `s₀` and has no thread of the system.  Each counter is above
the number of workers it should count by the threads of this kind. -/
structure LeftBehind (B : Build) (s₀ s : System) (k : Nat) : Prop where
  fresh : k ∉ s₀.pool.threadPool
  listed : k ∈ s.pool.threadPool
  failed : s.placeOf (.worker k) = .worker .failed
  join : s.join B k = .error (.undefined "null thread_")
  one : 0 < s.failedThreads
  idle : s.pool.idleThreadNum =
    (s.workers.countP fun w => w.place.idle && w.place != .failed) + s.failedThreads
  now : s.pool.nowThreadNum =
    (s.workers.countP fun w => w.place.role.counted && w.place != .failed) + s.failedThreads

/-- The threads that could not be created are a part of those at the places `f` tells. -/
theorem countP_failed {f : WorkerPlace → Bool} (hf : f .failed = true) (workers : List Worker) :
    (workers.countP fun w => f w.place) =
      (workers.countP fun w => f w.place && w.place != .failed) +
        workers.countP fun w => w.place == .failed := by
  induction workers with
  | nil => rfl
  | cons w workers ih =>
    simp only [List.countP_cons, ih]
    by_cases hw : w.place = .failed
    · simp [hw, hf]
      omega
    · simp [hw]
      omega

/-- What the proof needs to know of every state. -/
structure GrowthInv (cfg : Config) (s : System) : Prop where
  life : LifeInv cfg s
  idle : IdleCount s
  joins : OwnerJoins s

theorem growthInv_step {act : Act} (hs : GrowthInv cfg s)
    (h : (poolRuns cfg B).step s act = some s') : GrowthInv cfg s' := by
  have hpool := hs.life.threads.pool
  exact ⟨lifeInv_step hs.life h,
    idle_turn hpool.order hpool.counts hs.idle (step_turn hpool.order.frames h),
    ownerJoins_step hpool.order.frames hs.joins h⟩

theorem growthInv_run {acts : List Act} (h : (poolRuns cfg B).exec System.init acts = some s) :
    GrowthInv cfg s :=
  StepSystem.exec_invariant (fun _ _ _ => growthInv_step)
    ⟨lifeInv_init, idle_init, ownerJoins_init⟩ h

theorem trail_run {n c : Nat} {acts : List Act} (hs : GrowthInv cfg s) (htrail : Trail n c s)
    (h : (poolRuns cfg B).exec s acts = some s') : Trail n c s' := by
  have hboth : GrowthInv cfg s' ∧ Trail n c s' := by
    refine StepSystem.exec_invariant (I := fun s => GrowthInv cfg s ∧ Trail n c s) ?_ ⟨hs, htrail⟩ h
    rintro s act s' ⟨hs, htrail⟩ hstep
    exact ⟨growthInv_step hs hstep, htrail.step hs.life.threads.pool.order.frames hstep⟩
  exact hboth.2

theorem GrowthInv.leftBehind {s₀ : System} (hs₀ : GrowthInv cfg s₀) (hs : GrowthInv cfg s) {k : Nat}
    (hk : s₀.workers.length ≤ k) (hfailed : s.placeOf (.worker k) = .worker .failed) :
    LeftBehind B s₀ s k where
  fresh := by
    intro hmem
    have hlt : k < s₀.workers.length := hs₀.life.threads.threads.bound k hmem
    omega
  listed := hs.life.failed_listed hfailed
  failed := hfailed
  join := join_of_failed hfailed (hs.life.threads.threads.failed k hfailed)
    (hs.life.failed_unjoined hs.joins hfailed)
  one := by
    obtain ⟨w, hw, hplace⟩ := System.placeOf_worker_iff.mp hfailed
    apply List.countP_pos_iff.mpr
    exact ⟨w, List.mem_of_getElem? hw, by simp [hplace]⟩
  idle := by
    have hidle : s.pool.idleThreadNum = s.workers.countP fun w => w.place.idle :=
      Eq.trans hs.idle (ncard_workersWhere s rfl)
    rw [hidle]
    exact countP_failed rfl s.workers
  now := by
    have hnow : s.pool.nowThreadNum = s.workers.countP fun w => w.place.role.counted :=
      hs.life.threads.pool.counts.now.trans (ncard_workersWhere s rfl)
    rw [hnow]
    exact countP_failed (f := fun x => x.role.counted) rfl s.workers

theorem LeftBehind.not_asBefore {s₀ : System} {k : Nat} (h : LeftBehind B s₀ s k) :
    ¬ AsBefore B s₀ s := by
  intro hsame
  apply h.fresh
  rw [← hsame.threadPool]
  exact h.listed

/-- **A growth that fails leaves a thread behind.**  Once the exception has left a call of `Commit`,
the pool is never what it was before the call. -/
theorem failed_growth_leaves_thread (cfg : Config) (B : Build) (before mid : List Act) {c : Nat}
    {s₀ s : System} (hbefore : (poolRuns cfg B).exec System.init before = some s₀)
    (hbegin : (s₀.placeOf (.call c)).beforeGrowth = true)
    (hmid : (poolRuns cfg B).exec s₀ mid = some s)
    (hthrew : s.placeOf (.call c) = .call .threw) :
    ¬ AsBefore B s₀ s ∧ ∃ k, LeftBehind B s₀ s k := by
  have hs₀ : GrowthInv cfg s₀ := growthInv_run hbefore
  have hs : GrowthInv cfg s := growthInv_run (StepSystem.exec_append.mpr ⟨s₀, hbefore, hmid⟩)
  have htrail := trail_run hs₀ (trail_init hbegin) hmid
  obtain ⟨k, hk, hfailed⟩ := htrail.failed (by rw [hthrew]; rfl)
  have hleft : LeftBehind B s₀ s k := hs₀.leftBehind hs hk hfailed
  exact ⟨hleft.not_asBefore, k, hleft⟩

/-- A call fills the queue. -/
def fillQueue : List Act := constructOne ++ [.commit .external] ++ steps (.call 0) 6

/-- The next one has to grow the pool, and the system has no thread left. -/
def failToGrow : List Act :=
  [.commit .external] ++ steps (.call 1) 8 ++ [.move (.call 1) { created := false }] ++
    steps (.call 1) 2

theorem failed_growth_leaves_thread_two :
    ∃ s₀ s, (poolRuns queueOfOne .debug).exec System.init fillQueue = some s₀ ∧
      (poolRuns queueOfOne .debug).exec s₀ failToGrow = some s ∧
      ¬ AsBefore .debug s₀ s ∧ ∃ k, LeftBehind .debug s₀ s k := by
  have hend : ((poolRuns queueOfOne .debug).exec System.init fillQueue).map
      (fun s₀ => ((s₀.placeOf (.call 1)).beforeGrowth,
        ((poolRuns queueOfOne .debug).exec s₀ failToGrow).map fun s => s.placeOf (.call 1))) =
      some (true, some (.call .threw)) := by
    decide +kernel
  obtain ⟨s₀, hbefore, hend⟩ := Option.map_eq_some_iff.mp hend
  obtain ⟨hbegin, hend⟩ := Prod.mk.inj hend
  obtain ⟨s, hmid, hthrew⟩ := Option.map_eq_some_iff.mp hend
  exact ⟨s₀, s, hbefore, hmid,
    failed_growth_leaves_thread queueOfOne .debug _ _ hbefore hbegin hmid hthrew⟩

/-- With the queue full, the exception leaves both counters one up and a null thread in the list. -/
theorem failed_growth_changes_pool :
    ∃ s₀ s, (poolRuns queueOfOne .debug).exec System.init fillQueue = some s₀ ∧
      (poolRuns queueOfOne .debug).exec s₀ failToGrow = some s ∧
      s₀.pool = {
        status := .running, idleThreadNum := 1, nowThreadNum := 1, tasks := [0], threadPool := [0]
        monitorThreadFree := [] } ∧
      s.pool = {
        status := .running, idleThreadNum := 2, nowThreadNum := 2, tasks := [0], threadPool := [0, 1]
        monitorThreadFree := [] } ∧
      s.placeOf (.call 1) = .call .threw ∧
      s.join .debug 1 = .error (.undefined "null thread_") ∧ ¬ AsBefore .debug s₀ s := by
  have hend : ((poolRuns queueOfOne .debug).exec System.init fillQueue).map
      (fun s₀ => (s₀.pool, ((poolRuns queueOfOne .debug).exec s₀ failToGrow).map fun s =>
        (s.pool, s.placeOf (.call 1), s.join .debug 1))) =
      some (
        { status := .running, idleThreadNum := 1, nowThreadNum := 1, tasks := [0], threadPool := [0]
          monitorThreadFree := [] },
        some (
          { status := .running, idleThreadNum := 2, nowThreadNum := 2, tasks := [0]
            threadPool := [0, 1], monitorThreadFree := [] },
          .call .threw, .error (.undefined "null thread_"))) := by
    decide +kernel
  obtain ⟨s₀, hbefore, hend⟩ := Option.map_eq_some_iff.mp hend
  obtain ⟨hpool₀, hend⟩ := Prod.mk.inj hend
  obtain ⟨s, hmid, hend⟩ := Option.map_eq_some_iff.mp hend
  simp only [Prod.mk.injEq] at hend
  obtain ⟨hpool, hthrew, hjoin⟩ := hend
  refine ⟨s₀, s, hbefore, hmid, hpool₀, hpool, hthrew, hjoin, fun hsame => ?_⟩
  have hidle := hsame.idle
  rw [hpool, hpool₀] at hidle
  cases hidle

end TurboNet.Base
