/-
# TurboNet.Base.PoolDestructor — the end of a pool.

`~ThreadPool` notifies the monitor and the workers, and joins the threads of `thread_pool_` one after
the other, without a lock.  A thread it has not come to may still be added, by a task that a worker
before it runs; what keeps the loop right is again the order of the list (`Walk`).  The monitor is not
joined, and it may reap threads of the same list: that it has ended before the destructor returns,
and that its loop and the destructor's do not overlap, are conditions on the schedule.
-/
import TurboNet.Base.PoolMonitor

namespace TurboNet.Base

open TurboNet.Lib
open TurboNet.Logger (Build Halt)

variable {cfg : Config} {B : Build} {env : Env} {s s' : System}

/-! ## Guests -/

/-- Who made a call does not change. -/
theorem caller_kept {act : Act} (h : Turn cfg s s' act) {c : Nat} {x : CallPlace}
    (hc : s.placeOf (.call c) = .call x) : s'.roster.caller c = s.roster.caller c := by
  cases h with
  | worker _ _ hstir =>
    generalize s.roster = r at hstir ⊢
    generalize s'.roster = r' at hstir ⊢
    cases hstir with
    | _ => rfl
  | call _ _ hroster => rw [hroster]
  | notify _ _ _ _ hroster => rw [hroster]
  | notifyNone _ _ _ hroster => rw [hroster]
  | owner _ _ _ hstir =>
    generalize s.roster = r at hstir ⊢
    generalize s'.roster = r' at hstir ⊢
    cases hstir with
    | _ => rfl
  | notifyAll _ _ _ _ _ _ _ hroster => rw [hroster]
  | grow _ _ _ _ _ hstir =>
    generalize s.roster = r at hstir ⊢
    generalize s'.roster = r' at hstir ⊢
    cases hstir with
    | _ => rfl
  | monitor _ _ hstir =>
    generalize s.roster = r at hstir ⊢
    generalize s'.roster = r' at hstir ⊢
    cases hstir with
    | _ => rfl
  | @commit caller d _ hmove _ hroster =>
    have hne : c ≠ d := by
      rintro rfl
      rw [hmove.before] at hc
      cases hc
    rw [hroster]
    exact Function.update_of_ne hne ..
  | shutDown _ _ _ hroster => rw [hroster]
  | still _ _ _ hroster => rw [hroster]

/-- The calls a worker made are over when none of them is under way. -/
theorem over_of_inCall {k : Nat} (h : s.inCall k = false) {c : Nat} {x : CallPlace}
    (hc : s.placeOf (.call c) = .call x) (hcaller : s.roster.caller c = some (.task k)) :
    x.over = true := by
  obtain ⟨call, hcall, rfl⟩ := System.placeOf_call_iff.mp hc
  have htask : call.caller = .task k := by
    have hmap : (s.calls[c]?).map Call.caller = some (.task k) := hcaller
    rw [hcall] at hmap
    exact Option.some.inj hmap
  have hnot := List.any_eq_false.mp h call (List.mem_of_getElem? hcall)
  rw [htask] at hnot
  cases hplace : call.place with
  | returned => rfl
  | threw => rfl
  | _ =>
    rw [hplace] at hnot
    exact absurd (by simp) hnot

/-- A call from a task is made by a worker that runs it, and a pool under destruction has no other
calls. -/
structure Guests (s : System) : Prop where
  hosted : ∀ c x k, s.placeOf (.call c) = .call x → s.roster.caller c = some (.task k) →
    x.over = false → ∃ t, s.placeOf (.worker k) = .worker (.running t)
  gone : s.owner.closing = true → s.ExternalsOver

theorem guests_init : Guests System.init where
  hosted := fun c x k hc => by simp [System.init, System.placeOf] at hc
  gone := fun h => by cases h

/-- A worker with a call under way does not leave its task. -/
theorem running_kept {act : Act} (h : Turn cfg s s' act) {k : Nat} {t : Task}
    (hk : s.placeOf (.worker k) = .worker (.running t)) (hcall : s.inCall k = true) :
    s'.placeOf (.worker k) = .worker (.running t) := by
  have hsame {p : Party} {x y : Place} (hmove : Move s s' p x y none) (hp : p ≠ .worker k) :
      s'.placeOf (.worker k) = .worker (.running t) :=
    (hmove.others _ hp.symm (by simp) (by simp)).trans hk
  cases h with
  | @worker _ j x y hmove _ _ hdone =>
    by_cases hj : j = k
    · subst hj
      have hx := hmove.before
      rw [hk] at hx
      cases hx
      rw [hdone t rfl] at hcall
      cases hcall
    · exact hsame hmove (by simpa using hj)
  | call hmove => exact hsame hmove (by simp)
  | @notify _ c j hmove hparked =>
    have hne : k ≠ j := by
      rintro rfl
      rw [hk] at hparked
      cases hparked
    exact (hmove.others _ (by simp) (by simp) (by simpa using hne)).trans hk
  | notifyNone hmove => exact hsame hmove (by simp)
  | owner hmove => exact hsame hmove (by simp)
  | notifyAll _ _ hworkers =>
    rw [hworkers, hk]
    exact if_neg (by simp)
  | @grow env p j size a a' z z' hp hmove hbefore hafter hgrowth =>
    have hne : k ≠ j := by
      rintro rfl
      rw [hk] at hbefore
      subst hbefore
      cases hgrowth
    have hp : p ≠ .worker k := by
      rcases hp with rfl | ⟨c, rfl⟩
      · simp
      · simp
    exact (hmove.others _ hp.symm (by simp) (by simpa using hne)).trans hk
  | monitor hmove => exact hsame hmove (by simp)
  | commit _ hmove => exact hsame hmove (by simp)
  | shutDown hplaces => rw [hplaces]; exact hk
  | still hplaces => rw [hplaces]; exact hk

/-- A call under way keeps its caller's worker in its task. -/
theorem inCall_of_call {c k : Nat} {x : CallPlace} (hc : s.placeOf (.call c) = .call x)
    (hcaller : s.roster.caller c = some (.task k)) (hx : x.over = false) : s.inCall k = true := by
  by_contra hnot
  rw [Bool.not_eq_true] at hnot
  rw [over_of_inCall hnot hc hcaller] at hx
  cases hx

/-- Where a call comes from that is under way after a step. -/
theorem call_before {act : Act} (h : Turn cfg s s' act) {c : Nat} {y : CallPlace}
    (hc : s'.placeOf (.call c) = .call y) (hy : y.over = false) :
    (∃ x, s.placeOf (.call c) = .call x ∧ x.over = false) ∨
      ∃ caller, act = .commit caller ∧ s.mayCall caller = true ∧ s'.owner = s.owner ∧
        s'.roster.caller c = some caller ∧
        ∀ k, s'.placeOf (.worker k) = s.placeOf (.worker k) := by
  cases h.call_view c with
  | same hsame => exact .inl ⟨y, hsame.symm.trans hc, hy⟩
  | turn hmove _ hlive => exact .inl ⟨_, hmove.before, hlive⟩
  | notified _ hafter =>
    rw [hafter] at hc
    cases hc
    cases hy
  | grown hmove => exact .inl ⟨_, hmove.before, rfl⟩
  | begun hbefore hafter =>
    have habsurd (hsame : s'.placeOf (.call c) = s.placeOf (.call c)) : False := by
      rw [hafter, hbefore] at hsame
      cases hsame
    have hother {p : Party} {x z : Place} {also : Option Party} (hmove : Move s s' p x z also)
        (hp : p ≠ .call c) (halso : also ≠ some (.call c)) : False :=
      habsurd (hmove.others _ hp.symm (by simp) halso.symm)
    have hmover {d : Nat} {x z : CallPlace} {also : Option Party}
        (hmove : Move s s' (.call d) (.call x) (.call z) also) (halso : also ≠ some (.call c)) :
        False := by
      by_cases hd : d = c
      · subst hd
        rw [hmove.before] at hbefore
        cases hbefore
      · exact hother hmove (by simpa using hd) halso
    cases h with
    | @commit caller d hmay hmove _ hroster =>
      right
      have hd : c = d := by
        by_contra hd
        exact hother hmove (by simpa using Ne.symm hd) (by simp)
      subst hd
      refine ⟨caller, rfl, hmay, hmove.owner_kept (by simp) (by simp), ?_, ?_⟩
      · rw [hroster]
        exact Function.update_self ..
      · exact fun k => hmove.others _ (by simp) (by simp) (by simp)
    | worker hmove => exact (hother hmove (by simp) (by simp)).elim
    | call hmove => exact (hmover hmove (by simp)).elim
    | notify hmove => exact (hmover hmove (by simp)).elim
    | notifyNone hmove => exact (hmover hmove (by simp)).elim
    | owner hmove => exact (hother hmove (by simp) (by simp)).elim
    | notifyAll _ _ _ hcalls => exact (habsurd (hcalls c)).elim
    | grow hp hmove =>
      rcases hp with rfl | ⟨d, rfl⟩
      · exact (hother hmove (by simp) (by simp)).elim
      · exact (hmover hmove (by simp)).elim
    | monitor hmove => exact (hother hmove (by simp) (by simp)).elim
    | shutDown hplaces => exact (habsurd (congrFun hplaces _)).elim
    | still hplaces => exact (habsurd (congrFun hplaces _)).elim

/-- The destructor is called when no thread of the program is in a call. -/
theorem closing_turn {act : Act} (h : Turn cfg s s' act) (hclosing : s'.owner.closing = true) :
    s.owner.closing = true ∨ s.ExternalsOver := by
  cases h.owner_case with
  | same howner => exact .inl (howner ▸ hclosing)
  | turn hx hy _ _ _ hclose =>
    rw [hy] at hclosing
    rcases hclose with heq | ⟨-, hover⟩
    · left
      rw [hx, ← heq]
      exact hclosing
    · exact .inr hover
  | notifyAll hx =>
    left
    rw [hx]
    rfl
  | grow _ hy =>
    rw [hy] at hclosing
    cases hclosing

theorem guests_turn (hg : Guests s) {act : Act} (h : Turn cfg s s' act) : Guests s' where
  hosted := by
    intro c y k hc hcaller hy
    rcases call_before h hc hy with ⟨x, hx, hlive⟩ | ⟨caller, -, hmay, -, hnew, hworkers⟩
    · rw [caller_kept h hx] at hcaller
      obtain ⟨t, ht⟩ := hg.hosted c x k hx hcaller hlive
      exact ⟨t, running_kept h ht (inCall_of_call hx hcaller hlive)⟩
    · rw [hnew] at hcaller
      cases hcaller
      rcases mayCall_cases hmay with ⟨hexternal, -⟩ | ⟨j, t, htask, hrunning, -⟩
      · cases hexternal
      · cases htask
        exact ⟨t, (hworkers k).trans hrunning⟩
  gone := by
    intro hclosing c y hc hcaller
    by_contra hy
    rw [Bool.not_eq_true] at hy
    rcases call_before h hc hy with ⟨x, hx, hlive⟩ | ⟨caller, -, hmay, howner, hnew, -⟩
    · have hover : s.ExternalsOver := (closing_turn h hclosing).elim hg.gone id
      rw [caller_kept h hx] at hcaller
      rw [hover c x hx hcaller] at hlive
      cases hlive
    · rw [hnew] at hcaller
      cases hcaller
      rcases mayCall_cases hmay with ⟨-, hconstructed⟩ | ⟨j, t, htask, -, -⟩
      · rw [howner, hconstructed] at hclosing
        cases hclosing
      · cases htask

/-! ## The loop of the destructor -/

/-- The destructor does not go back. -/
theorem closing_kept {act : Act} (h : Turn cfg s s' act) (hclosing : s.owner.closing = true) :
    s'.owner.closing = true := by
  cases h.owner_case with
  | same howner => exact howner ▸ hclosing
  | turn hx hy _ _ _ hclose =>
    rw [hx] at hclosing
    rw [hy]
    rcases hclose with heq | ⟨rfl, -⟩
    · rw [heq]
      exact hclosing
    · cases hclosing
  | notifyAll _ hy =>
    rw [hy]
    rfl
  | grow hx =>
    rw [hx] at hclosing
    cases hclosing

theorem OwnerPlace.closing_of_walking {x : OwnerPlace} (h : x.walking = true) : x.closing = true := by
  cases x with
  | walk => rfl
  | joining => rfl
  | destroyed => rfl
  | _ => cases h

/-- A call under way in a pool under destruction comes from a task. -/
theorem Guests.host (hg : Guests s) (hclosing : s.owner.closing = true) {c : Nat} {x : CallPlace}
    (hc : s.placeOf (.call c) = .call x) (hx : x.over = false) :
    ∃ k t, s.placeOf (.worker k) = .worker (.running t) := by
  obtain ⟨call, hcall, rfl⟩ := System.placeOf_call_iff.mp hc
  have hcaller : s.roster.caller c = some call.caller := by
    show (s.calls[c]?).map Call.caller = _
    rw [hcall]
    rfl
  cases hwho : call.caller with
  | external =>
    rw [hwho] at hcaller
    rw [hg.gone hclosing c _ hc hcaller] at hx
    cases hx
  | task k =>
    rw [hwho] at hcaller
    exact ⟨k, hg.hosted c _ k hc hcaller hx⟩

theorem OwnerPlace.constructed_of_closing {x : OwnerPlace} (h : x.closing = true) :
    x.constructing = false := by
  cases x with
  | startMonitor => cases h
  | awaitMonitor => cases h
  | adding => cases h
  | terminated => cases h
  | _ => rfl

/-- A thread that is being added to a pool under destruction is added by a task. -/
theorem Guests.host_of_fresh (hs : Order s) (hg : Guests s) (hclosing : s.owner.closing = true)
    {k : Nat} {z : WorkerPlace} (hk : s.placeOf (.worker k) = .worker z) (hz : z.fresh = true) :
    ∃ j t, s.placeOf (.worker j) = .worker (.running t) := by
  obtain ⟨c, a, hc, -⟩ := hs.call_of_fresh (OwnerPlace.constructed_of_closing hclosing) hk hz
  exact hg.host hclosing hc rfl

/-- Has the loop of the destructor left thread `j` behind it? -/
def OwnerPlace.behind (j : Nat) : OwnerPlace → Prop
  | .walk (some i) | .joining i => j < i
  | .walk none | .destroyed => True
  | _ => False

/-- The loop stands on a thread, and those before it have ended. -/
structure Walk (s : System) : Prop where
  stands : ∀ i, s.owner = .walk (some i) ∨ s.owner = .joining i → i < s.roster.built
  ended : ∀ j ∈ s.roster.threadPool, s.owner.behind j → (s.placeOf (.worker j)).life = some .ended

theorem walk_init : Walk System.init where
  stands := fun i h => by
    rcases h with h | h
    · cases h
    · cases h
  ended := fun j hj => by cases hj

/-- When the loop has come to its end, every thread has ended. -/
theorem Walk.all_ended {n : Nat} (hw : Walk s) (hg : Reaping s n)
    (hdone : s.owner = .walk none ∨ s.owner = .destroyed) {j : Nat} (hj : j < s.roster.built) :
    (s.placeOf (.worker j)).life = some .ended := by
  by_cases hmem : j ∈ s.roster.threadPool
  · apply hw.ended j hmem
    rcases hdone with h | h
    · rw [h]
      trivial
    · rw [h]
      trivial
  · apply hg.ended j
    by_contra hleft
    exact hmem (hg.listed j hj hleft)

theorem stands_turn (hs : ThreadsInv cfg s) (hw : Walk s) {act : Act} (h : Turn cfg s s' act) {i : Nat}
    (hi : s'.owner = .walk (some i) ∨ s'.owner = .joining i) : i < s'.roster.built := by
  have hgrows : s.roster.built ≤ s'.roster.built := by
    rcases (roster_cases h).built_cases with hbuilt | ⟨hbuilt, -⟩
    · exact Nat.le_of_eq hbuilt.symm
    · exact hbuilt ▸ Nat.le_succ _
  refine Nat.lt_of_lt_of_le ?_ hgrows
  cases owner_view h with
  | same hsame => exact hw.stands i (hsame ▸ hi)
  | quiet _ hy =>
    rcases hi with hi | hi
    · rw [hi] at hy
      cases hy
    · rw [hi] at hy
      cases hy
  | enter _ hy =>
    rcases hi with hi | hi
    · rw [hi] at hy
      have hhead := (OwnerPlace.walk.inj hy).symm
      exact hs.threads.bound i (List.mem_of_mem_head? hhead)
    · rw [hi] at hy
      cases hy
  | join hx hy =>
    rcases hi with hi | hi
    · rw [hi] at hy
      cases hy
    · rw [hi] at hy
      cases hy
      exact hw.stands _ (.inl hx)
  | next _ hy =>
    rcases hi with hi | hi
    · rw [hi] at hy
      have hnext := (OwnerPlace.walk.inj hy).symm
      apply hs.threads.bound
      exact (List.dropWhile_sublist _).subset (List.mem_of_mem_tail (List.mem_of_mem_head? hnext))
    · rw [hi] at hy
      cases hy
  | finish _ hy =>
    rcases hi with hi | hi
    · rw [hi] at hy
      cases hy
    · rw [hi] at hy
      cases hy

/-- The loop leaves behind only threads that have ended. -/
theorem behind_before {n : Nat} (hg : Reaping s n) (hw : Walk s) {act : Act} (h : Turn cfg s s' act)
    {j : Nat} (hj : j ∈ s.roster.threadPool) (hbehind : s'.owner.behind j) :
    (s.placeOf (.worker j)).life = some .ended := by
  have hsorted := hg.order.sorted
  cases owner_view h with
  | same hsame => exact hw.ended j hj (hsame ▸ hbehind)
  | quiet _ hy =>
    cases hx : s'.owner with
    | walk => rw [hx] at hy; cases hy
    | joining => rw [hx] at hy; cases hy
    | destroyed => rw [hx] at hy; cases hy
    | _ =>
      rw [hx] at hbehind
      exact hbehind.elim
  | enter _ hy =>
    -- the loop begins with the first thread
    rw [hy] at hbehind
    cases hpool : s.roster.threadPool with
    | nil =>
      rw [hpool] at hj
      cases hj
    | cons i rest =>
      rw [hpool] at hbehind hj hsorted
      have hlt : j < i := hbehind
      rcases List.mem_cons.mp hj with rfl | hj
      · exact absurd hlt (Nat.lt_irrefl _)
      · exact absurd hlt (Nat.lt_asymm ((List.pairwise_cons.mp hsorted).1 j hj))
  | join hx hy =>
    rw [hy] at hbehind
    exact hw.ended j hj (by rw [hx]; exact hbehind)
  | @next k hx hy hended hmem =>
    have hle : j ≤ k := by
      rw [hy] at hbehind
      cases hnext : (s.roster.threadPool.dropWhile (· != k)).tail.head? with
      | none => exact le_of_last hsorted hmem hnext j hj
      | some m =>
        rw [hnext] at hbehind
        exact (lt_of_next hsorted hmem hnext).2 j hj hbehind
    rcases Nat.lt_or_eq_of_le hle with hlt | rfl
    · exact hw.ended j hj (by rw [hx]; exact hlt)
    · rw [hended]
      rfl
  | finish hx =>
    exact hw.ended j hj (by rw [hx]; trivial)

/-- A thread that is added is not behind the loop. -/
theorem new_not_behind (hs : ThreadsInv cfg s) (hs' : Order s') (hg' : Guests s') (hw : Walk s)
    {act : Act} (h : Turn cfg s s' act) (hstands : ∀ i, s'.owner = .walk (some i) ∨
      s'.owner = .joining i → i < s'.roster.built) (hbuilt : s'.roster.built = s.roster.built + 1)
    (hnew : s'.placeOf (.worker s.roster.built) = .worker .built) :
    ¬ s'.owner.behind s.roster.built := by
  intro hbehind
  obtain ⟨n, hreaped⟩ := hs.reaped
  -- the loop is not past its end, for it has left the worker behind that adds the thread
  have hover (hdone : s'.owner = .walk none ∨ s'.owner = .destroyed) : False := by
    have hclosing : s'.owner.closing = true := by
      rcases hdone with h | h
      · rw [h]
        rfl
      · rw [h]
        rfl
    obtain ⟨j, t, hj⟩ := hg'.host_of_fresh hs' hclosing hnew rfl
    have hjbuilt : j < s'.roster.built := System.built_of_place hj
    have hne : j ≠ s.roster.built := by
      rintro rfl
      rw [hj] at hnew
      cases hnew
    have hold : j < s.roster.built := by omega
    have hended : (s.placeOf (.worker j)).life = some .ended := by
      by_cases hmem : j ∈ s.roster.threadPool
      · apply behind_before hreaped.reaping hw h hmem
        rcases hdone with h | h
        · rw [h]
          trivial
        · rw [h]
          trivial
      · apply hreaped.reaping.ended j
        by_contra hleft
        exact hmem (hreaped.reaping.listed j hold hleft)
    have hended' := (life_view h j).ended hended
    rw [hj] at hended'
    cases hended'
  cases hy : s'.owner with
  | walk it =>
    cases it with
    | none => exact hover (.inl hy)
    | some i =>
      have hlt := hstands i (.inl hy)
      rw [hy] at hbehind
      have hbehind : s.roster.built < i := hbehind
      omega
  | joining i =>
    have hlt := hstands i (.inr hy)
    rw [hy] at hbehind
    have hbehind : s.roster.built < i := hbehind
    omega
  | destroyed => exact hover (.inr hy)
  | _ =>
    rw [hy] at hbehind
    exact hbehind

theorem walk_turn (hs : ThreadsInv cfg s) (hs' : Order s') (hg' : Guests s') (hw : Walk s) {act : Act}
    (h : Turn cfg s s' act) : Walk s' where
  stands := fun _ => stands_turn hs hw h
  ended := by
    intro j hj hbehind
    obtain ⟨n, hreaped⟩ := hs.reaped
    have hold (hj : j ∈ s.roster.threadPool) : (s'.placeOf (.worker j)).life = some .ended :=
      (life_view h j).ended (behind_before hreaped.reaping hw h hj hbehind)
    rcases (roster_cases h).list_cases with
      ⟨-, hpool⟩ | ⟨hbuilt, hpool, hafter⟩ | ⟨k, -, hpool, -⟩
    · exact hold (hpool ▸ hj)
    · rw [hpool, List.mem_append, List.mem_singleton] at hj
      rcases hj with hj | rfl
      · exact hold hj
      · exact absurd hbehind
          (new_not_behind hs hs' hg' hw h (fun _ => stands_turn hs hw h) hbuilt hafter)
    · rw [hpool] at hj
      exact hold (List.mem_of_mem_erase hj)

/-- What holds of a pool, from its constructor to the end of its destructor. -/
structure LifeInv (cfg : Config) (s : System) : Prop where
  threads : ThreadsInv cfg s
  guests : Guests s
  walk : Walk s

theorem lifeInv_init : LifeInv cfg System.init := ⟨threadsInv_init, guests_init, walk_init⟩

theorem lifeInv_step {act : Act} (hs : LifeInv cfg s)
    (h : (poolRuns cfg B).step s act = some s') : LifeInv cfg s' := by
  have hturn := step_turn hs.threads.pool.order.frames h
  have hthreads := threadsInv_step hs.threads h
  have hguests := guests_turn hs.guests hturn
  exact ⟨hthreads, hguests, walk_turn hs.threads hthreads.pool.order hguests hs.walk hturn⟩

/-! ## Nothing touches a destroyed pool -/

/-- The monitor thread has ended when the destructor makes its last step. -/
def MonitorLeft (s : System) : Act → Prop
  | .move .owner _ => s.owner = .walk none → s.monitor = .ended
  | _ => True

instance (s : System) : (act : Act) → Decidable (MonitorLeft s act)
  | .move .owner _ => inferInstanceAs (Decidable (_ → _))
  | .move .monitor _ | .move (.worker _) _ | .move (.call _) _ => .isTrue trivial
  | .wake _ | .wakeMonitor | .commit _ | .shutDown _ | .destroy => .isTrue trivial

/-- Once the destructor has returned, the threads of the pool have. -/
structure Untouched (s : System) : Prop where
  workers : s.owner = .destroyed → ∀ w ∈ s.workers, w.place = .ended
  monitor : s.owner = .destroyed → s.monitor = .ended

theorem monitor_ended_kept {act : Act} (h : Turn cfg s s' act) (hended : s.monitor = .ended) :
    s'.monitor = .ended := by
  cases h.monitor_case with
  | beside hb =>
    rw [hended] at hb
    generalize s'.monitor = y at hb ⊢
    cases hb with
    | still => rfl
  | turn hx _ _ hact =>
    rw [hended] at hx
    subst hx
    rcases hact with ⟨-, -, hlive⟩ | ⟨hparked, -⟩
    · exact absurd rfl hlive
    · cases hparked

/-- The owner makes the steps of the destructor. -/
theorem owner_moves {act : Act} (h : Turn cfg s s' act) (hne : s'.owner ≠ s.owner)
    (hx : s.owner ≠ .constructed) : ∃ env, act = .move .owner env := by
  cases h.owner_case with
  | same howner => exact absurd howner hne
  | turn howner _ _ _ _ _ hact =>
    exact hact.resolve_right fun hconstructed => hx (howner.trans hconstructed)
  | notifyAll _ _ _ _ hact => exact hact
  | grow _ _ hact => exact ⟨_, hact⟩

theorem monitorEnded_turn (hm : s.owner = .destroyed → s.monitor = .ended) {act : Act}
    (hact : MonitorLeft s act) (h : Turn cfg s s' act) (hdone : s'.owner = .destroyed) :
    s'.monitor = .ended := by
  apply monitor_ended_kept h
  cases owner_view h with
  | same hsame => exact hm (hsame ▸ hdone)
  | quiet _ hy =>
    rw [hdone] at hy
    cases hy
  | enter _ hy =>
    rw [hdone] at hy
    cases hy
  | join _ hy =>
    rw [hdone] at hy
    cases hy
  | next _ hy =>
    rw [hdone] at hy
    cases hy
  | finish hx =>
    obtain ⟨env, rfl⟩ := owner_moves h (by rw [hx, hdone]; simp) (by rw [hx]; simp)
    exact hact hx

/-- The workers have ended with the destructor's walk. -/
theorem LifeInv.untouched (hlife : LifeInv cfg s)
    (hmonitor : s.owner = .destroyed → s.monitor = .ended) : Untouched s := by
  refine ⟨fun hdone w hw => ?_, hmonitor⟩
  obtain ⟨n, hreaped⟩ := hlife.threads.reaped
  obtain ⟨k, hk⟩ := List.getElem?_of_mem hw
  have hplace : s.placeOf (.worker k) = .worker w.place := System.placeOf_worker_iff.mpr ⟨w, hk, rfl⟩
  have hended := hlife.walk.all_ended hreaped.reaping (.inr hdone) (System.built_of_place hplace)
  rw [hplace] at hended
  cases hx : w.place with
  | ended => rfl
  | _ =>
    rw [hx] at hended
    cases hended

theorem untouched_step {act : Act} (hlife : LifeInv cfg s) (huntouched : Untouched s)
    (hact : MonitorLeft s act) (h : (poolRuns cfg B).step s act = some s') : Untouched s' := by
  have hturn := step_turn hlife.threads.pool.order.frames h
  exact (lifeInv_step hlife h).untouched (monitorEnded_turn huntouched.monitor hact hturn)

/-- The destructor's last step leaves the monitor where it is. -/
theorem touched_of_not_left {act : Act} (hact : ¬ MonitorLeft s act)
    (h : (poolRuns cfg B).step s act = some s') : ¬ Untouched s' := by
  have h : s.step cfg B act = some s' := h
  simp only [System.step, Option.ite_none_left_eq_some] at h
  obtain ⟨-, h⟩ := h
  intro huntouched
  cases act with
  | move p env =>
    cases p with
    | owner =>
      have hact : ¬ (s.owner = .walk none → s.monitor = .ended) := hact
      rw [Classical.not_imp] at hact
      obtain ⟨howner, hmonitor⟩ := hact
      have h : s.ownerStep cfg B env s.owner = some s' := h
      rw [howner] at h
      cases h
      exact hmonitor (huntouched.monitor rfl)
    | _ => exact hact trivial
  | _ => exact hact trivial

/-- **Nothing touches a destroyed pool exactly when the monitor thread has ended** at the last step of
the destructor.  Then, from the return of the destructor on, every worker and the monitor have
ended. -/
theorem destroyed_pool_untouched_iff (cfg : Config) (B : Build) (acts : List Act) {s : System}
    (hrun : (poolRuns cfg B).exec System.init acts = some s) :
    (∀ bs cs t, acts = bs ++ cs → (poolRuns cfg B).exec System.init bs = some t → Untouched t) ↔
      (poolRuns cfg B).Along MonitorLeft System.init acts := by
  apply StepSystem.throughout_iff_along (J := LifeInv cfg) ?_ ?_ ?_ lifeInv_init ?_ hrun
  · intro s act s' hlife hstep
    exact lifeInv_step hlife hstep
  · intro s act s' hlife huntouched hact hstep
    exact untouched_step hlife huntouched hact hstep
  · intro s act s' _ _ hstep huntouched
    by_contra hact
    exact touched_of_not_left hact hstep huntouched
  · have hlife : LifeInv cfg System.init := lifeInv_init
    exact hlife.untouched nofun

/-- A pool of one worker is shut down while the monitor waits; worker and monitor leave, and the
destructor returns. -/
def shutDownOne : List Act :=
  constructOne ++ steps .monitor 2 ++ [.shutDown .external] ++ steps (.worker 0) 7

theorem destroyed_pool_untouched_iff_one :
    ∃ s, (poolRuns oneWorker .debug).exec System.init
      (shutDownOne ++ [.destroy] ++ steps .owner 1 ++ steps .monitor 3 ++ steps .owner 4) = some s ∧
      s.owner = .destroyed ∧ Untouched s := by
  have hend : ((poolRuns oneWorker .debug).exec System.init
      (shutDownOne ++ [.destroy] ++ steps .owner 1 ++ steps .monitor 3 ++ steps .owner 4)).map
        (fun s => s.owner) = some .destroyed := by
    decide +kernel
  obtain ⟨s, hrun, howner⟩ := Option.map_eq_some_iff.mp hend
  have hcond : (poolRuns oneWorker .debug).Along MonitorLeft System.init
      (shutDownOne ++ [.destroy] ++ steps .owner 1 ++ steps .monitor 3 ++ steps .owner 4) := by
    decide +kernel
  exact ⟨s, hrun, howner, (destroyed_pool_untouched_iff oneWorker .debug _ hrun).mpr hcond _ []
    s (List.append_nil _).symm hrun⟩

/-- The destructor notifies the monitor and returns; the monitor, out of its wait, is about to lock
`monitor_mutex_` of the destroyed pool. -/
theorem monitor_touches_destroyed_pool :
    ∃ s, (poolRuns oneWorker .debug).exec System.init
      (shutDownOne ++ [.destroy] ++ steps .owner 5) = some s ∧
      s.owner = .destroyed ∧ s.monitor = .woken ∧
      ((poolRuns oneWorker .debug).step s (.move .monitor {})).isSome ∧ ¬ Untouched s := by
  have hend : ((poolRuns oneWorker .debug).exec System.init
      (shutDownOne ++ [.destroy] ++ steps .owner 5)).map (fun s => (s.owner, s.monitor,
        ((poolRuns oneWorker .debug).step s (.move .monitor {})).isSome)) =
      some (.destroyed, .woken, true) := by
    decide +kernel
  obtain ⟨s, hrun, hend⟩ := Option.map_eq_some_iff.mp hend
  simp only [Prod.mk.injEq] at hend
  obtain ⟨howner, hmonitor, hstep⟩ := hend
  refine ⟨s, hrun, howner, hmonitor, hstep, fun huntouched => ?_⟩
  have hended := huntouched.monitor howner
  rw [hmonitor] at hended
  cases hended

/-! ## Two loops over one list -/

/-- The monitor's loop over `thread_pool_` is not under way when that of the destructor begins, and
does not begin afterwards. -/
def LoopsApart (s : System) : Act → Prop
  | .move .owner _ => s.owner = .notifyAll → s.monitor.reaping = false
  | .move .monitor _ =>
    s.owner.walking = true → s.monitor = .reap → s.pool.monitorThreadFree = []
  | _ => True

instance (s : System) : (act : Act) → Decidable (LoopsApart s act)
  | .move .owner _ => inferInstanceAs (Decidable (_ → _))
  | .move .monitor _ => inferInstanceAs (Decidable (_ → _))
  | .move (.worker _) _ | .move (.call _) _ => .isTrue trivial
  | .wake _ | .wakeMonitor | .commit _ | .shutDown _ | .destroy => .isTrue trivial

/-- No thread is joined twice, and the destructor stands on a node of the list. -/
structure JoinedAlone (s : System) : Prop where
  asserts : s.halted ≠ some (.assertFailed "started_ && !joined_")
  once : s.halted ≠ some (.undefined "a second join of a std::thread")
  listed : s.halted ≠ some (.undefined "iterator to an erased node")
  stands : ∀ k, s.owner = .walk (some k) ∨ s.owner = .joining k → k ∈ s.pool.threadPool

/-- Once the destructor's loop has begun, the monitor's is not under way. -/
def Calmed (s : System) : Prop := s.owner.walking = true → s.monitor.reaping = false

theorem Beside.reaping {x y : MonitorPlace} (h : Beside x y) (hx : x.reaping = false) :
    y.reaping = false := by
  cases h with
  | still => exact hx
  | created => rfl
  | notified => rfl

theorem calmed_turn (hm : Calmed s) {act : Act} (hact : LoopsApart s act) (h : Turn cfg s s' act) :
    Calmed s' := by
  intro hwalking
  cases h.monitor_case with
  | beside hb =>
    refine hb.reaping ?_
    -- the loop was under way before, or begins with this step
    cases owner_view h with
    | same howner => exact hm (howner ▸ hwalking)
    | quiet _ hquiet =>
      rw [hquiet] at hwalking
      cases hwalking
    | enter hx hy =>
      obtain ⟨env, rfl⟩ := owner_moves h (by rw [hx, hy]; simp) (by rw [hx]; simp)
      exact hact hx
    | join hx => exact hm (by rw [hx]; rfl)
    | next hx => exact hm (by rw [hx]; rfl)
    | finish hx => exact hm (by rw [hx]; rfl)
  | @turn x y hx hy hstir hwho howner =>
    rw [howner] at hwalking
    have hquiet := hm hwalking
    rw [hx] at hquiet
    rw [hy]
    have hfree (hreap : x = .reap) : s.roster.free = [] := by
      rcases hwho with ⟨env, rfl, -⟩ | ⟨rfl, -⟩
      · exact hact hwalking (hx.trans hreap)
      · cases hreap
    generalize s.roster = r at hstir hfree
    generalize s'.roster = r' at hstir
    cases hstir with
    | quiet _ hquiet' => exact hquiet'
    | enter howed => exact absurd (hfree rfl) howed
    | next => rfl
    | look => cases hquiet
    | miss => cases hquiet
    | join => cases hquiet
    | erase => cases hquiet

/-- Where the destructor's loop stands, the list has a node. -/
def Standing (s : System) : Prop :=
  ∀ k, s.owner = .walk (some k) ∨ s.owner = .joining k → k ∈ s.roster.threadPool

theorem standing_turn (hm : Calmed s) (hstands : Standing s) {act : Act} (h : Turn cfg s s' act) :
    Standing s' := by
  intro k hk
  -- the list loses no node under the destructor
  have hkept (hwalking : s.owner.walking = true) (hmem : k ∈ s.roster.threadPool) :
      k ∈ s'.roster.threadPool := by
    by_contra hout
    have hjoining := ErasesThread.joining h (k := k) ⟨hmem, hout⟩
    have hquiet := hm hwalking
    rw [hjoining] at hquiet
    cases hquiet
  cases owner_view h with
  | same hsame =>
    rw [hsame] at hk
    refine hkept ?_ (hstands k hk)
    rcases hk with hk | hk
    · rw [hk]
      rfl
    · rw [hk]
      rfl
  | quiet _ hy =>
    rcases hk with hk | hk
    · rw [hk] at hy
      cases hy
    · rw [hk] at hy
      cases hy
  | enter _ hy hroster =>
    rw [hroster]
    rcases hk with hk | hk
    · rw [hk] at hy
      exact List.mem_of_mem_head? (OwnerPlace.walk.inj hy).symm
    · rw [hk] at hy
      cases hy
  | join hx hy =>
    rcases hk with hk | hk
    · rw [hk] at hy
      cases hy
    · rw [hk] at hy
      cases hy
      exact hkept (by rw [hx]; rfl) (hstands k (.inl hx))
  | next _ hy _ _ hroster =>
    rw [hroster]
    rcases hk with hk | hk
    · rw [hk] at hy
      have hnext := (OwnerPlace.walk.inj hy).symm
      exact (List.dropWhile_sublist _).subset (List.mem_of_mem_tail (List.mem_of_mem_head? hnext))
    · rw [hk] at hy
      cases hy
  | finish _ hy =>
    rcases hk with hk | hk
    · rw [hk] at hy
      cases hy
    · rw [hk] at hy
      cases hy

/-- The thread the destructor comes to is started, for whoever adds one has not ended. -/
theorem LifeInv.started (hs : LifeInv cfg s) {k : Nat} (howner : s.owner = .walk (some k))
    (hmem : k ∈ s.roster.threadPool) : s.roster.started k = true := by
  have hthreads := hs.threads.threads
  obtain ⟨n, hreaped⟩ := hs.threads.reaped
  obtain ⟨x, hx⟩ := System.built_iff.mp (hthreads.bound k hmem)
  have hlife : (s.placeOf (.worker k)).life = some x.life := by
    rw [hx]
    rfl
  have hfresh (hfresh : x.fresh = true) : s.roster.started k = true := by
    obtain ⟨j, t, hj⟩ := hs.guests.host_of_fresh hs.threads.pool.order (by rw [howner]; rfl) hx hfresh
    have hlast := hthreads.fresh k x hx hfresh
    have hbuilt : j < s.roster.built := System.built_of_place hj
    have hne : j ≠ k := by
      rintro rfl
      rw [hj] at hx
      cases hx
      cases hfresh
    -- the worker that adds it is before it in the list, so it has ended
    have hended : (s.placeOf (.worker j)).life = some .ended := by
      by_cases hlisted : j ∈ s.roster.threadPool
      · apply hs.walk.ended j hlisted
        rw [howner]
        show j < k
        omega
      · apply hreaped.reaping.ended j
        by_contra hleft
        exact hlisted (hreaped.reaping.listed j hbuilt hleft)
    rw [hj] at hended
    cases hended
  by_cases hunborn : x.life = .unborn
  · cases x with
    | built => exact hfresh rfl
    | idled => exact hfresh rfl
    | counted => exact hfresh rfl
    | failed => exact hthreads.failed k hx
    | _ => cases hunborn
  · exact hthreads.started k (hthreads.named k _ hlife hunborn)

/-- The thread the destructor comes to is not joined. -/
theorem LifeInv.unjoined (hs : LifeInv cfg s) (hm : Calmed s) {k : Nat}
    (howner : s.owner = .walk (some k)) (hmem : k ∈ s.roster.threadPool) :
    s.roster.joined k = false := by
  obtain ⟨n, hreaped⟩ := hs.threads.reaped
  by_contra hjoined
  rw [Bool.not_eq_false] at hjoined
  rcases hreaped.joins.joined k hjoined with (htake | hjoining) | hpassed
  · exact (hreaped.reaping.order.kept k (List.mem_of_mem_take htake)).mp hmem htake
  · have hquiet := hm (by rw [howner]; rfl)
    rw [hjoining] at hquiet
    cases hquiet
  · rw [howner] at hpassed
    exact Nat.lt_irrefl k hpassed

/-- A thread that is started and not joined can be joined, unless it failed to start. -/
theorem JoinFails.null_only {r : Roster} {k : Nat} {h : Halt} (hfails : JoinFails r k h)
    (hbuilt : k < r.built) (hstarted : r.started k = true) (hjoined : r.joined k = false) :
    h = .undefined "null thread_" := by
  cases hfails with
  | absent hout => omega
  | assert hassert =>
    rcases hassert with hnot | hnot
    · rw [hstarted] at hnot
      cases hnot
    · rw [hjoined] at hnot
      cases hnot
  | null => rfl
  | again hagain =>
    rw [hjoined] at hagain
    cases hagain

/-- An end of the process is not one of the three that two joins lead to. -/
def Benign (h : Halt) : Prop := h = .undefined "null thread_" ∨ ¬ FromJoin h

theorem halt_benign (hs : LifeInv cfg s) (hm : Calmed s) (hstands : Standing s) {h : Halt}
    (hcause : HaltCause s h) : Benign h := by
  cases hcause with
  | other hh => exact .inr hh
  | owner howner hmem hfails =>
    exact .inl (hfails.null_only (hs.threads.threads.bound _ hmem) (hs.started howner hmem)
      (hs.unjoined hm howner hmem))
  | erased howner hout => exact absurd (hstands _ howner) hout
  | monitor hfind hfree hpool hbefore hbuilt htid hfails =>
    have hwalking : s.owner.walking = false := by
      by_contra hnot
      rw [Bool.not_eq_false] at hnot
      have hquiet := hm hnot
      rw [hfind] at hquiet
      cases hquiet
    obtain ⟨n, hreaped⟩ := hs.threads.reaped
    have hk := hreaped.reaping.selects hs.threads.threads hfind hfree hpool hbefore htid
    have hretired := List.mem_of_getElem? hk
    obtain ⟨l, hl, hout⟩ := hs.threads.retirement.gone _ hretired
    have hstarted := hs.threads.threads.started _
      (hs.threads.threads.named _ l hl (by rintro rfl; cases hout))
    exact .inl (hfails.null_only hbuilt hstarted
      (hreaped.not_joined hwalking hretired (by rw [hpool]; simp) (by rw [hfind]; simp)))

theorem halted_turn {act : Act} (h : Turn cfg s s' act) :
    s'.halted = s.halted ∨ ∃ e, s'.halted = some e ∧ HaltCause s e := by
  have hmoved {p : Party} {x y : Place} {also : Option Party} (hmove : Move s s' p x y also) :
      s'.halted = s.halted ∨ ∃ e, s'.halted = some e ∧ HaltCause s e :=
    hmove.halted.imp_right fun ⟨e, hother, he⟩ => ⟨e, he, .other hother⟩
  cases h with
  | worker hmove => exact hmoved hmove
  | call hmove => exact hmoved hmove
  | notify hmove => exact hmoved hmove
  | notifyNone hmove => exact hmoved hmove
  | owner hmove => exact hmoved hmove
  | notifyAll _ _ _ _ _ _ _ _ _ hhalted => exact .inl hhalted
  | grow _ hmove => exact hmoved hmove
  | monitor hmove => exact hmoved hmove
  | commit _ hmove => exact hmoved hmove
  | shutDown _ _ _ _ hhalted => exact .inl hhalted
  | still _ _ _ _ hhalted hcause => exact .inr ⟨_, hhalted, hcause⟩

/-- The process did not come to its end by a second join. -/
def EndsBenign (s : System) : Prop := ∀ h, s.halted = some h → Benign h

theorem endsBenign_turn (hs : LifeInv cfg s) (hm : Calmed s) (hstands : Standing s)
    (he : EndsBenign s) {act : Act} (h : Turn cfg s s' act) : EndsBenign s' := by
  intro e hhalted
  rcases halted_turn h with hsame | ⟨e', hnew, hcause⟩
  · exact he e (hsame.symm.trans hhalted)
  · rw [hhalted] at hnew
    cases hnew
    exact halt_benign hs hm hstands hcause

theorem Benign.joinedAlone (he : EndsBenign s) (hstands : Standing s) : JoinedAlone s where
  asserts := fun h => by
    rcases he _ h with hnull | hother
    · cases hnull
    · exact hother (.inr (.inl rfl))
  once := fun h => by
    rcases he _ h with hnull | hother
    · simp at hnull
    · exact hother (.inr (.inr (.inr (.inl rfl))))
  listed := fun h => by
    rcases he _ h with hnull | hother
    · simp at hnull
    · exact hother (.inr (.inr (.inr (.inr rfl))))
  stands := hstands

/-- **Each thread is joined once, and the destructor walks over nodes of the list**, in every state of
a run in which the monitor's loop over `thread_pool_` and the destructor's do not overlap. -/
theorem joins_each_thread_once (cfg : Config) (B : Build) (acts : List Act) {s : System}
    (hrun : (poolRuns cfg B).exec System.init acts = some s)
    (hcond : (poolRuns cfg B).Along LoopsApart System.init acts) : JoinedAlone s := by
  have hinv : LifeInv cfg s ∧ Calmed s ∧ Standing s ∧ EndsBenign s := by
    apply StepSystem.exec_invariant_along ?_ ?_ hcond hrun
    · rintro t act t' ⟨hinv, hm, hstands, he⟩ hact hstep
      have hturn := step_turn hinv.threads.pool.order.frames hstep
      exact ⟨lifeInv_step hinv hstep, calmed_turn hm hact hturn, standing_turn hm hstands hturn,
        endsBenign_turn hinv hm hstands he hturn⟩
    · refine ⟨lifeInv_init, fun h => (by cases h), fun k h => ?_, fun h hh => (by cases hh)⟩
      rcases h with h | h
      · cases h
      · cases h
  exact Benign.joinedAlone hinv.2.2.2 hinv.2.2.1

/-- A worker that retired before the destructor, and that the monitor has joined and erased, is not
joined again. -/
theorem joins_each_thread_once_two :
    ∃ s, (poolRuns oneOrTwo .debug).exec System.init
      (growAndPark ++ [.wake 0, .move (.worker 0) { timedOut := true }] ++ steps (.worker 0) 7 ++
        steps .monitor 9 ++ [.shutDown .external, .destroy] ++ steps .owner 3) = some s ∧
      s.owner = .joining 1 ∧ JoinedAlone s := by
  have hend : ((poolRuns oneOrTwo .debug).exec System.init
      (growAndPark ++ [.wake 0, .move (.worker 0) { timedOut := true }] ++ steps (.worker 0) 7 ++
        steps .monitor 9 ++ [.shutDown .external, .destroy] ++ steps .owner 3)).map
        (fun s => s.owner) = some (.joining 1) := by
    decide +kernel
  obtain ⟨s, hrun, howner⟩ := Option.map_eq_some_iff.mp hend
  exact ⟨s, hrun, howner, joins_each_thread_once oneOrTwo .debug _ hrun (by decide +kernel)⟩

/-- The worker that retired is joined by the destructor, and then the monitor comes to its id. -/
theorem thread_joined_twice :
    ∃ s, (poolRuns oneOrTwo .debug).exec System.init
      (growAndPark ++ [.wake 0, .move (.worker 0) { timedOut := true }] ++ steps (.worker 0) 7 ++
        [.shutDown .external, .destroy] ++ steps .owner 3 ++ steps .monitor 5) = some s ∧
      ¬ JoinedAlone s := by
  have hend : ((poolRuns oneOrTwo .debug).exec System.init
      (growAndPark ++ [.wake 0, .move (.worker 0) { timedOut := true }] ++ steps (.worker 0) 7 ++
        [.shutDown .external, .destroy] ++ steps .owner 3 ++ steps .monitor 5)).map
        (fun s => s.halted) = some (some (.assertFailed "started_ && !joined_")) := by
    decide +kernel
  obtain ⟨s, hrun, hhalted⟩ := Option.map_eq_some_iff.mp hend
  exact ⟨s, hrun, fun halone => halone.asserts hhalted⟩

end TurboNet.Base
