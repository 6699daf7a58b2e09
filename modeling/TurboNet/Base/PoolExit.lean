/-
# TurboNet.Base.PoolExit — what can keep a worker from leaving a pool under destruction.

A worker leaves its loop when it finds the pool shut down and its queue empty, or when its wait has
timed out and there are more workers than the core.  On the way it needs the mutexes, so whoever
holds one has to be able to go on: a call of `Commit` in a task, which must not fail an assertion,
and the monitor, which must not come to a thread that the destructor has joined.  These two are
conditions on the schedule (`Orderly`); `ExitInv` is what they keep, with what the code keeps by
itself.
-/
import TurboNet.Base.PoolDestructor

namespace TurboNet.Base

open TurboNet.Lib
open TurboNet.Logger (Build Halt)

variable {cfg : Config} {B : Build} {env : Env} {s s' : System}

/-! ## Threads that are started -/

/-- The latch a call awaits is that of a thread that runs. -/
def Awaited (s : System) : Prop :=
  ∀ c k size, s.placeOf (.call c) = .call (.adding (.await k size)) →
    ∃ l, (s.placeOf (.worker k)).life = some l ∧ l ≠ .unborn

/-- Who was born has a life. -/
theorem LifeView.born_kept {j : Nat} (h : LifeView s s' j) {l : Life}
    (hl : (s.placeOf (.worker j)).life = some l) (hborn : l ≠ .unborn) :
    ∃ l', (s'.placeOf (.worker j)).life = some l' ∧ l' ≠ .unborn := by
  cases h with
  | same hsame => exact ⟨l, hsame.trans hl, hborn⟩
  | built hbefore =>
    rw [hl] at hbefore
    cases hbefore
  | born _ hafter => exact ⟨_, hafter, by simp⟩
  | parks _ hafter => exact ⟨_, hafter, by simp⟩
  | resumes _ hafter => exact ⟨_, hafter, by simp⟩
  | retires _ hafter => exact ⟨_, hafter, by simp⟩
  | passes _ hafter => exact ⟨_, hafter, by simp⟩
  | quits _ hafter => exact ⟨_, hafter, by simp⟩
  | ends _ hafter => exact ⟨_, hafter, by simp⟩

theorem awaited_turn (ha : Awaited s) {act : Act} (h : Turn cfg s s' act) : Awaited s' := by
  intro c k size hc
  cases h.call_view c with
  | same hsame =>
    obtain ⟨l, hl, hborn⟩ := ha c k size (hsame.symm.trans hc)
    exact (life_view h k).born_kept hl hborn
  | @turn x y hmove hturn =>
    rw [hmove.after] at hc
    generalize s.board = b at hturn
    generalize s'.board = b' at hturn
    cases hturn with
    | quiet _ _ _ hawaits =>
      rw [hc] at hawaits
      cases hawaits
    | push => cases hc
  | notified _ hafter =>
    rw [hafter] at hc
    cases hc
  | begun _ hafter =>
    rw [hafter] at hc
    cases hc
  | grown hmove _ hafter hgrowth =>
    rw [hmove.after] at hc
    cases hc
    generalize s.board = b at hgrowth
    generalize s'.board = b' at hgrowth
    cases hgrowth with
    | start => exact ⟨.working, by rw [hafter]; rfl, by simp⟩

/-- A thread that `Start` has not come to is not marked as started. -/
def Unstarted (s : System) : Prop :=
  ∀ k x, s.placeOf (.worker k) = .worker x → x.fresh = true → s.roster.started k = false

theorem System.started_of_absent {k : Nat} (hk : s.roster.built ≤ k) : s.roster.started k = false := by
  show (s.workers[k]?).any Worker.started = false
  rw [List.getElem?_eq_none hk]
  rfl

theorem unstarted_turn (hu : Unstarted s) {act : Act} (h : Turn cfg s s' act) :
    Unstarted s' := by
  intro k y hy hfresh
  -- it was not started before
  have hbefore : s.roster.started k = false := by
    rcases fresh_before h hy hfresh with ⟨x, hx, hfresh⟩ | ⟨habsent, -⟩
    · exact hu k x hx hfresh
    · exact System.started_of_absent (System.built_le (by rw [habsent]; rfl))
  -- and is not started by this step, which would take it out of the call's hands
  have hkept (hsame : s'.roster.started = s.roster.started) : s'.roster.started k = false := by
    rw [hsame]
    exact hbefore
  cases roster_cases h with
  | @start i tid hr _ _ hborn =>
    have hne : k ≠ i := by
      rintro rfl
      rcases hborn with ⟨-, hafter⟩ | ⟨-, hafter, -⟩
      · rw [hafter] at hy
        cases hy
        cases hfresh
      · rw [hafter] at hy
        cases hy
        cases hfresh
    have hstarted : s'.roster.started k = Function.update s.roster.started i true k :=
      congrFun hr.started k
    rw [hstarted, Function.update_of_ne hne]
    exact hbefore
  | same hr => exact hkept hr.started
  | build hr => exact hkept hr.started
  | handOver hr => exact hkept hr.started
  | join hr => exact hkept hr.started
  | miss hr => exact hkept hr.started
  | erase hr => exact hkept hr.started
  | next hr => exact hkept hr.started
  | joinOwner hr => exact hkept hr.started

/-! ## Workers at the queue -/

/-- A worker of a running pool that has left its inner loop finds a task. -/
def Supplied (s : System) : Prop :=
  ∀ k, s.placeOf (.worker k) = .worker .exitTest → s.board.status = .running → s.board.tasks ≠ []

theorem supplied_turn (hs : Order s) (hsup : Supplied s) {act : Act} (h : Turn cfg s s' act) :
    Supplied s' := by
  intro k hk hrunning'
  have hrunning := status_running h hrunning'
  have hstill (hbefore : s.placeOf (.worker k) = .worker .exitTest) : s'.board.tasks ≠ [] := by
    rw [hs.tasks_still h hbefore (List.mem_singleton.mpr rfl) hk]
    exact hsup k hbefore hrunning
  cases h.worker_view k with
  | same hsame => exact hstill (hsame.symm.trans hk)
  | @turn x _ hmove hturn =>
    rw [hmove.after] at hk
    cases hk
    generalize hb : s.board = b at hturn hrunning
    generalize hb' : s'.board = b' at hturn
    cases hturn with
    | quiet _ _ hexit => exact hexit rfl hrunning
    | uncount _ hgoing => cases hgoing
  | woken _ hafter =>
    rw [hafter] at hk
    cases hk
  | grown _ _ hafter hgrowth =>
    rw [hafter] at hk
    subst hk
    generalize s.board = b at hgrowth
    generalize s'.board = b' at hgrowth
    cases hgrowth

/-! ## The conditions -/

/-- Threads that have retired, and that the monitor has not erased yet. -/
def System.owed (s : System) (k : Nat) : Prop := k ∈ s.pool.threadPool ∧ k ∈ s.retired

instance (k : Nat) : Decidable (s.owed k) := inferInstanceAs (Decidable (_ ∧ _))

/-- Is the monitor, which has `monitor_mutex_`, going to join what it is owed? -/
def System.reaps (s : System) : Bool :=
  match s.monitor with
  | .test | .reap | .lockPool | .find | .joining _ | .unlockPool | .unlock => true
  | .statusTest => s.pool.status == .running
  | _ => false

/-- Is the monitor about to take `monitor_mutex_` in order to reap? -/
def System.startsToReap (s : System) : Bool :=
  match s.monitor with
  | .lock => true
  | .woken => s.pool.status == .running
  | _ => false

/-- The destructor joins no thread that the monitor is going to join, and the monitor does not start
to reap a thread that the destructor has joined. -/
def JoinsApart (s : System) : Act → Prop
  | .move .owner _ =>
    match s.owner with
    | .walk (some k) => s.owed k → s.reaps = false
    | _ => True
  | .move .monitor _ =>
    s.owner.walking = true → s.startsToReap = true →
      ∀ k ∈ s.pool.threadPool, s.owed k → s.roster.joined k = false
  | _ => True

instance (s : System) : (act : Act) → Decidable (JoinsApart s act)
  | .move .owner _ =>
    match h : s.owner with
    | .walk (some k) =>
      decidable_of_iff (s.owed k → s.reaps = false) (by simp only [JoinsApart, h])
    | .walk none | .startMonitor | .awaitMonitor | .adding _ | .constructed | .notifyMonitor
    | .notifyAll | .joining _ | .destroyed | .terminated =>
      .isTrue (by simp only [JoinsApart, h])
  | .move .monitor _ => inferInstanceAs (Decidable (_ → _ → _))
  | .move (.worker _) _ | .move (.call _) _ => .isTrue trivial
  | .wake _ | .wakeMonitor | .commit _ | .shutDown _ | .destroy => .isTrue trivial

/-- Where asserts are evaluated, no task is in a `Commit`, or calls one, whose assertion of
`TPS_RUNNING` is to come when the pool is shut down. -/
def CommitsInTime (B : Build) (s : System) : Act → Prop
  | .commit (.task _) => B.asserts = true → s.pool.status = .running
  | .shutDown _ =>
    B.asserts = true → ∀ call ∈ s.calls, call.caller ≠ .external → call.place.cleared = true
  | _ => True

instance (B : Build) (s : System) : (act : Act) → Decidable (CommitsInTime B s act)
  | .commit (.task _) => inferInstanceAs (Decidable (_ → _))
  | .commit .external => .isTrue trivial
  | .shutDown _ => inferInstanceAs (Decidable (_ → _))
  | .move _ _ | .wake _ | .wakeMonitor | .destroy => .isTrue trivial

/-- What a run keeps to for its destructor to be able to finish. -/
structure Orderly (B : Build) (s : System) (act : Act) : Prop where
  apart : JoinsApart s act
  inTime : CommitsInTime B s act

instance (B : Build) (s : System) (act : Act) : Decidable (Orderly B s act) :=
  decidable_of_iff (JoinsApart s act ∧ CommitsInTime B s act)
    ⟨fun h => ⟨h.1, h.2⟩, fun h => ⟨h.1, h.2⟩⟩

/-! ## What the conditions keep -/

/-- A call of a task has its assertions behind it, where asserts are evaluated and the pool is shut
down. -/
def TasksCleared (B : Build) (s : System) : Prop :=
  B.asserts = true → s.board.status ≠ .running → ∀ c x k, s.placeOf (.call c) = .call x →
    s.roster.caller c = some (.task k) → x.cleared = true

/-- The step that ends the running of a pool is a call of `ShutDown`. -/
theorem shutDown_of_status (hst : Staffed cfg s) {act : Act} (h : Turn cfg s s' act)
    (hrunning : s.board.status = .running) (hended : s'.board.status ≠ .running) :
    (∃ caller, act = .shutDown caller) ∧ s'.placeOf = s.placeOf ∧ s'.roster = s.roster := by
  have hsame (hboard : s'.board.status = s.board.status) :
      (∃ caller, act = .shutDown caller) ∧ s'.placeOf = s.placeOf ∧ s'.roster = s.roster :=
    absurd (hboard.trans hrunning) hended
  cases h with
  | @worker _ k x y hmove hturn =>
    have hx := hmove.before
    generalize hb : s.board = b at hturn
    generalize hb' : s'.board = b' at hturn
    cases hturn with
    | terminate => exact absurd hrunning (hst.quitting k _ hx rfl)
    | _ => exact hsame (by rw [hb, hb'])
  | call _ hturn =>
    generalize hb : s.board = b at hturn
    generalize hb' : s'.board = b' at hturn
    cases hturn with
    | _ => exact hsame (by rw [hb, hb'])
  | grow _ _ _ _ hgrowth => exact hsame hgrowth.board_kept.1
  | shutDown hplaces _ _ hroster => exact ⟨⟨_, rfl⟩, hplaces, hroster⟩
  | notify _ _ _ hboard => exact hsame (by rw [hboard])
  | notifyNone _ _ hboard => exact hsame (by rw [hboard])
  | owner _ _ hboard => exact hsame (by rw [hboard])
  | notifyAll _ _ _ _ _ _ hboard => exact hsame (by rw [hboard])
  | monitor _ hboard => exact hsame (by rw [hboard])
  | commit _ _ hboard => exact hsame (by rw [hboard])
  | still _ _ hboard => exact hsame (by rw [hboard])

theorem tasksCleared_turn (hst : Staffed cfg s) (ht : TasksCleared B s) {act : Act}
    (hact : CommitsInTime B s act) (h : Turn cfg s s' act) : TasksCleared B s' := by
  intro hasserts hended c y k hc hcaller
  by_cases hrunning : s.board.status = .running
  · -- the pool is shut down in this step, when all calls are past their assertions
    obtain ⟨⟨caller, rfl⟩, hplaces, hroster⟩ := shutDown_of_status hst h hrunning hended
    rw [hplaces] at hc
    rw [hroster] at hcaller
    obtain ⟨call, hcall, rfl⟩ := System.placeOf_call_iff.mp hc
    have hwho : call.caller = .task k := by
      have hmap : (s.calls[c]?).map Call.caller = some (.task k) := hcaller
      rw [hcall] at hmap
      exact Option.some.inj hmap
    exact hact hasserts call (List.mem_of_getElem? hcall) (by rw [hwho]; simp)
  · have hold {x : CallPlace} (hx : s.placeOf (.call c) = .call x) : x.cleared = true := by
      rw [caller_kept h hx] at hcaller
      exact ht hasserts hrunning c x k hx hcaller
    cases h.call_view c with
    | same hsame => exact hold (hsame.symm.trans hc)
    | turn hmove hturn =>
      have hx := hold hmove.before
      rw [hmove.after] at hc
      cases hc
      generalize s.board = b at hturn
      generalize s'.board = b' at hturn
      cases hturn with
      | quiet _ _ _ _ hcleared => exact hcleared hx
      | push => rfl
    | notified _ hafter =>
      rw [hafter] at hc
      cases hc
      rfl
    | grown hmove _ _ hgrowth =>
      rw [hmove.after] at hc
      cases hc
      generalize s.board = b at hgrowth
      generalize s'.board = b' at hgrowth
      cases hgrowth with
      | _ => rfl
    | begun hbefore hafter =>
      rw [hafter] at hc
      cases hc
      rcases call_before h hafter rfl with ⟨x, hx, -⟩ | ⟨caller, rfl, -, -, hnew, -⟩
      · rw [hbefore] at hx
        cases hx
      · rw [hnew] at hcaller
        cases hcaller
        exact absurd (hact hasserts) hrunning

/-- A monitor that reaps is at work on threads that nobody else has joined. -/
def Separate (s : System) : Prop :=
  s.reaps = true → ∀ k, s.owed k → s.roster.joined k = true → s.monitor = .joining k

/-- The move of the monitor that begins its reaping. -/
theorem reaps_moves {env : Env} (h : (poolRuns cfg B).step s (.move .monitor env) = some s')
    (hidle : s.reaps = false) (hreaps : s'.reaps = true) :
    s'.roster = s.roster ∧ s.startsToReap = true := by
  have h : System.step cfg B s (.move .monitor env) = some s' := h
  simp only [System.step, Option.ite_none_left_eq_some, System.move] at h
  obtain ⟨-, h⟩ := h
  cases hx : s.monitor with
  | absent =>
    rw [hx] at h
    cases h
  | parked =>
    rw [hx] at h
    cases h
  | ended =>
    rw [hx] at h
    cases h
  | starting =>
    rw [hx] at h
    cases h
    cases hreaps
  | leave =>
    rw [hx] at h
    cases h
    cases hreaps
  | lock =>
    rw [hx] at h
    obtain ⟨s₁, hlock, rfl⟩ := Option.map_eq_some_iff.mp h
    obtain ⟨-, rfl⟩ := System.lock_eq_some.mp hlock
    exact ⟨rfl, by simp [System.startsToReap, hx]⟩
  | woken =>
    rw [hx] at h
    obtain ⟨s₁, hlock, rfl⟩ := Option.map_eq_some_iff.mp h
    obtain ⟨-, rfl⟩ := System.lock_eq_some.mp hlock
    refine ⟨rfl, ?_⟩
    rw [System.startsToReap, hx]
    exact hreaps
  | statusTest =>
    -- it goes to its `return`
    have hquit : s.pool.status ≠ .running := by simpa [System.reaps, hx] using hidle
    rw [hx] at h
    simp only [System.monitorStep, if_pos hquit] at h
    cases h
    cases hreaps
  | _ =>
    rw [System.reaps, hx] at hidle
    cases hidle

theorem Beside.reaps (h : Beside s.monitor s'.monitor)
    (hstatus : s'.pool.status = .running → s.pool.status = .running) (hreaps : s'.reaps = true) :
    s.reaps = true := by
  unfold System.reaps at hreaps ⊢
  generalize s.monitor = x at h ⊢
  generalize s'.monitor = y at h hreaps
  cases h with
  | still =>
    cases x with
    | statusTest =>
      simp only [beq_iff_eq] at hreaps ⊢
      exact hstatus hreaps
    | _ => exact hreaps
  | created => cases hreaps
  | notified => cases hreaps

/-- **Besides the monitor, nobody makes it reap.** -/
theorem reaps_entered (hs : Frames s) {act : Act} (h : (poolRuns cfg B).step s act = some s')
    (hidle : s.reaps = false) (hreaps : s'.reaps = true) :
    (∃ env, act = .move .monitor env) ∧ s'.roster = s.roster ∧ s.startsToReap = true := by
  have hturn := step_turn hs h
  have hbeside (hb : Beside s.monitor s'.monitor) : (∃ env, act = .move .monitor env) ∧
      s'.roster = s.roster ∧ s.startsToReap = true := by
    have hbefore := hb.reaps (fun hrunning => status_running hturn hrunning) hreaps
    rw [hidle] at hbefore
    cases hbefore
  cases hturn.monitor_case with
  | beside hb => exact hbeside hb
  | turn hx hy _ hact =>
    rcases hact with ⟨env, rfl, -⟩ | ⟨rfl, rfl⟩
    · exact ⟨⟨env, rfl⟩, reaps_moves h hidle hreaps⟩
    · exact hbeside (by rw [hx, hy]; exact .notified)

/-- The monitor at work holds `monitor_mutex_`. -/
theorem MonitorPlace.monitor_of_busy {x : MonitorPlace} (h : x.guards ≠ []) :
    Mutex.monitor ∈ x.guards := by
  cases x with
  | absent => exact absurd rfl h
  | starting => exact absurd rfl h
  | lock => exact absurd rfl h
  | parked => exact absurd rfl h
  | woken => exact absurd rfl h
  | ended => exact absurd rfl h
  | find => exact List.mem_cons_of_mem _ (List.mem_singleton_self _)
  | joining => exact List.mem_cons_of_mem _ (List.mem_singleton_self _)
  | unlockPool => exact List.mem_cons_of_mem _ (List.mem_singleton_self _)
  | _ => exact List.mem_singleton_self _

theorem System.busy_of_reaps (h : s.reaps = true) : s.monitor.guards ≠ [] := by
  unfold System.reaps at h
  generalize s.monitor = x at h ⊢
  cases x with
  | absent => cases h
  | starting => cases h
  | lock => cases h
  | parked => cases h
  | woken => cases h
  | leave => cases h
  | ended => cases h
  | _ => exact List.cons_ne_nil _ _

/-- A thread that is owed and joined was so before, or it retires or is joined in this step. -/
inductive OwedCase (s s' : System) (k : Nat) : Prop
  | before (howed : s.owed k) (hjoined : s.roster.joined k = true)
  | retires (hbefore : s.placeOf (.worker k) = .worker .handOver)
  | owner (howed : s.owed k) (howner : s.owner = .walk (some k)) (howner' : s'.owner = .joining k)
  | monitor (hmonitor' : s'.monitor = .joining k)

theorem owed_case (hs : ThreadsInv cfg s) {act : Act} (h : Turn cfg s s' act) {k : Nat}
    (howed' : s'.owed k) (hjoined' : s'.roster.joined k = true) : OwedCase s s' k := by
  have hpool' : k ∈ s'.roster.threadPool := howed'.1
  have hretired' : k ∈ s'.roster.retired := howed'.2
  -- the lists and the marks are what they were
  have hold (hpool : s'.roster.threadPool = s.roster.threadPool)
      (hretired : s'.roster.retired = s.roster.retired)
      (hjoined : s'.roster.joined = s.roster.joined) : OwedCase s s' k := by
    rw [hpool] at hpool'
    rw [hretired] at hretired'
    rw [hjoined] at hjoined'
    exact .before ⟨hpool', hretired'⟩ hjoined'
  cases roster_cases h with
  | same hr => exact hold hr.threadPool hr.retired hr.joined
  | start hr => exact hold hr.threadPool hr.retired hr.joined
  | miss hr => exact hold hr.threadPool hr.retired hr.joined
  | next hr => exact hold hr.threadPool hr.retired hr.joined
  | build hr =>
    rw [hr.threadPool] at hpool'
    rw [hr.retired] at hretired'
    rw [hr.joined] at hjoined'
    rcases List.mem_append.mp hpool' with hpool' | hpool'
    · exact .before ⟨hpool', hretired'⟩ hjoined'
    · have hlt := hs.retirement.built hretired'
      rw [List.mem_singleton.mp hpool'] at hlt
      exact absurd hlt (Nat.lt_irrefl _)
  | @handOver i hr _ hbefore =>
    rw [hr.threadPool] at hpool'
    rw [hr.retired] at hretired'
    rw [hr.joined] at hjoined'
    rcases List.mem_append.mp hretired' with hretired' | hretired'
    · exact .before ⟨hpool', hretired'⟩ hjoined'
    · rw [List.mem_singleton.mp hretired']
      exact .retires hbefore
  | erase hr =>
    rw [hr.threadPool] at hpool'
    rw [hr.retired] at hretired'
    rw [hr.joined] at hjoined'
    exact .before ⟨List.mem_of_mem_erase hpool', hretired'⟩ hjoined'
  | @joinOwner i hr _ howner howner' =>
    rw [hr.threadPool] at hpool'
    rw [hr.retired] at hretired'
    have hjoined : s'.roster.joined k = Function.update s.roster.joined i true k :=
      congrFun hr.joined k
    by_cases hki : k = i
    · subst hki
      exact .owner ⟨hpool', hretired'⟩ howner howner'
    · rw [hjoined, Function.update_of_ne hki] at hjoined'
      exact .before ⟨hpool', hretired'⟩ hjoined'
  | @join tid i rest before after hr _ hmonitor' =>
    rw [hr.threadPool] at hpool'
    rw [hr.retired] at hretired'
    have hjoined : s'.roster.joined k = Function.update s.roster.joined i true k :=
      congrFun hr.joined k
    by_cases hki : k = i
    · rw [hki]
      exact .monitor hmonitor'
    · rw [hjoined, Function.update_of_ne hki] at hjoined'
      exact .before ⟨hpool', hretired'⟩ hjoined'

/-- When the monitor goes to work, what it is owed is not joined. -/
theorem separate_entered (hs : ThreadsInv cfg s) {env : Env} (hact : JoinsApart s (.move .monitor env))
    (hstarts : s.startsToReap = true) {k : Nat} (howed : s.owed k) : s.roster.joined k = false := by
  obtain ⟨n, hreaped⟩ := hs.reaped
  by_cases hwalking : s.owner.walking = true
  · exact hact hwalking hstarts k howed.1 howed
  · refine hreaped.not_joined (Bool.eq_false_iff.mpr hwalking) howed.2 howed.1 ?_
    intro hjoining
    rw [System.startsToReap, hjoining] at hstarts
    cases hstarts

theorem separate_step (hs : ThreadsInv cfg s) (hsep : Separate s) {act : Act}
    (hact : JoinsApart s act) (hstep : (poolRuns cfg B).step s act = some s') : Separate s' := by
  have h := step_turn hs.pool.order.frames hstep
  intro hreaps' k howed' hjoined'
  by_cases hreaps : s.reaps = true
  · cases owed_case hs h howed' hjoined' with
    | before howed hjoined =>
      -- the monitor is about to erase it, and has not done so
      have hjoining := hsep hreaps k howed hjoined
      rcases (joining_turn hs h k).2 hjoining with hjoining' | ⟨-, herased⟩
      · exact hjoining'
      · exact absurd howed'.1 herased
    | retires hbefore =>
      -- the worker would hold `monitor_mutex_` too
      have hheld : Mutex.monitor ∈ (s.placeOf (.worker k)).guards := by
        rw [hbefore]
        exact List.mem_cons_self
      have hmonitor : Mutex.monitor ∈ (s.placeOf .monitor).guards :=
        MonitorPlace.monitor_of_busy (System.busy_of_reaps hreaps)
      cases hs.pool.order.locks.exclusive hheld hmonitor
    | owner howed howner howner' =>
      obtain ⟨env, rfl⟩ := owner_moves h (by rw [howner, howner']; simp) (by rw [howner]; simp)
      have hapart : s.owed k → s.reaps = false := by
        simpa only [JoinsApart, howner] using hact
      rw [hapart howed] at hreaps
      cases hreaps
    | monitor hmonitor' => exact hmonitor'
  · -- it has gone to work in this step
    obtain ⟨⟨env, rfl⟩, hroster, hstarts⟩ :=
      reaps_entered hs.pool.order.frames hstep (by simpa using hreaps) hreaps'
    have howed : s.owed k := by
      have hpool : s'.pool.threadPool = s.pool.threadPool := congrArg Roster.threadPool hroster
      have hretired : s'.retired = s.retired := congrArg Roster.retired hroster
      rw [System.owed, ← hpool, ← hretired]
      exact howed'
    rw [hroster, separate_entered hs hact hstarts howed] at hjoined'
    cases hjoined'

/-- What holds of a pool in an orderly run. -/
structure ExitInv (cfg : Config) (B : Build) (s : System) : Prop where
  life : LifeInv cfg s
  awaited : Awaited s
  unstarted : Unstarted s
  supplied : Supplied s
  cleared : TasksCleared B s
  separate : Separate s

theorem exitInv_init : ExitInv cfg B System.init where
  life := lifeInv_init
  awaited := fun c k size h => by simp [System.init, System.placeOf] at h
  unstarted := fun k x h => by simp [System.init, System.placeOf] at h
  supplied := fun k h => by simp [System.init, System.placeOf] at h
  cleared := fun _ _ c x k h => by simp [System.init, System.placeOf] at h
  separate := fun h => by cases h

theorem exitInv_step {act : Act} (hs : ExitInv cfg B s) (hact : Orderly B s act)
    (h : (poolRuns cfg B).step s act = some s') : ExitInv cfg B s' := by
  have hturn := step_turn hs.life.threads.pool.order.frames h
  exact {
    life := lifeInv_step hs.life h
    awaited := awaited_turn hs.awaited hturn
    unstarted := unstarted_turn hs.unstarted hturn
    supplied := supplied_turn hs.life.threads.pool.order hs.supplied hturn
    cleared := tasksCleared_turn hs.life.threads.staffed hs.cleared hact.inTime hturn
    separate := separate_step hs.life.threads hs.separate hact.apart h }

theorem exitInv_run {acts : List Act} (hcond : (poolRuns cfg B).Along (Orderly B) System.init acts)
    (hrun : (poolRuns cfg B).exec System.init acts = some s) : ExitInv cfg B s :=
  StepSystem.exec_invariant_along (fun _ _ _ hs hact h => exitInv_step hs hact h) exitInv_init
    hcond hrun

end TurboNet.Base
