/-
# TurboNet.Base.PoolThreads — the threads of a pool and their ids.

The kernel gives an id again once its bearer has ended, and the hand-over of a retired worker to the
monitor goes through the bare id.  What keeps that right is an order: threads are started in the
order of `thread_pool_`, so that of two threads with one id the earlier has ended (`Threads.ids`),
and `std::find_if` takes the first.  `life_view` and `roster_cases` say what a step does to the life
of a worker and to the lists of the pool.
-/
import TurboNet.Base.PoolStaff

namespace TurboNet.Base

open TurboNet.Lib
open TurboNet.Logger (Build Halt)

variable {cfg : Config} {B : Build} {env : Env} {s s' : System}

/-! ## The life of a worker -/

/-- How far the party has come, if it is a worker. -/
def Place.life : Place → Option Life
  | .worker x => some x.life
  | _ => none

/-- What a step does to the life of worker `j`. -/
inductive LifeView (s s' : System) (j : Nat) : Prop
  | same (h : (s'.placeOf (.worker j)).life = (s.placeOf (.worker j)).life)
  | built (hbefore : (s.placeOf (.worker j)).life = none)
      (hafter : (s'.placeOf (.worker j)).life = some .unborn)
  | born (hbefore : (s.placeOf (.worker j)).life = some .unborn)
      (hafter : (s'.placeOf (.worker j)).life = some .working) (hnamed : 0 < s'.roster.tid j)
  | parks (hbefore : (s.placeOf (.worker j)).life = some .working)
      (hafter : (s'.placeOf (.worker j)).life = some .waiting) (hrunning : s.board.status = .running)
  | resumes (hbefore : (s.placeOf (.worker j)).life = some .waiting)
      (hafter : (s'.placeOf (.worker j)).life = some .working)
  | retires (hbefore : (s.placeOf (.worker j)).life = some .waiting)
      (hafter : (s'.placeOf (.worker j)).life = some .handed)
      (hretired : s'.roster.retired = s.roster.retired ++ [j])
  | passes (hbefore : (s.placeOf (.worker j)).life = some .handed)
      (hafter : (s'.placeOf (.worker j)).life = some .leaving)
  | quits (hbefore : s.placeOf (.worker j) = .worker .quitNow)
      (hafter : (s'.placeOf (.worker j)).life = some .leaving)
  | ends (hbefore : (s.placeOf (.worker j)).life = some .leaving)
      (hafter : (s'.placeOf (.worker j)).life = some .ended)

theorem life_view {act : Act} (h : Turn cfg s s' act) (j : Nat) : LifeView s s' j := by
  cases h.worker_view j with
  | same hsame => exact .same (by rw [hsame])
  | woken hbefore hafter => exact .same (by rw [hbefore, hafter]; rfl)
  | @turn x y hmove hturn hstir =>
    have hx : (s.placeOf (.worker j)).life = some x.life := by
      rw [hmove.before]
      rfl
    have hy : (s'.placeOf (.worker j)).life = some y.life := by
      rw [hmove.after]
      rfl
    have hbefore := hmove.before
    generalize hr : s.roster = r at hstir
    generalize hr' : s'.roster = r' at hstir
    cases hstir with
    | quiet hlife => exact .same (by rw [hx, hy, hlife])
    | decIdle hlife => exact .same (by rw [hx, hy, hlife])
    | incIdle => exact .same (hy.trans hx.symm)
    | park =>
      refine .parks hx hy ?_
      generalize s.board = b at hturn
      generalize s'.board = b' at hturn
      cases hturn with
      | quiet hrole => cases hrole
      | park hrunning => exact hrunning
      | uncount _ hgoing => cases hgoing
    | resume hwoken =>
      rcases hwoken with rfl | rfl
      · exact .resumes hx hy
      · exact .resumes hx hy
    | handOver => exact .retires hx hy (by rw [hr, hr'])
    | pass => exact .passes hx hy
    | quit => exact .quits hbefore hy
    | leave => exact .ends hx hy
  | grown _ hbefore hafter hgrowth hstir =>
    generalize s.board = b at hgrowth
    generalize s'.board = b' at hgrowth
    cases hgrowth with
    | build => exact .built (by rw [hbefore]; rfl) (by rw [hafter]; rfl)
    | countIdle => exact .same (by rw [hbefore, hafter]; rfl)
    | countNow => exact .same (by rw [hbefore, hafter]; rfl)
    | start =>
      refine .born (by rw [hbefore]; rfl) (by rw [hafter]; rfl) ?_
      generalize s.roster = r at hstir
      generalize s'.roster = r' at hstir ⊢
      cases hstir with
      | start hpos =>
        show 0 < Function.update r.tid j _ j
        rw [Function.update_self]
        exact hpos
    | fail => exact .same (by rw [hbefore, hafter]; rfl)

/-! ## What happens to the roster -/

/-- Two rosters that differ in the idle counter and the calls at most. -/
structure SameThreads (r q : Roster) : Prop where
  built : r.built = q.built
  threadPool : r.threadPool = q.threadPool
  free : r.free = q.free
  retired : r.retired = q.retired
  tid : r.tid = q.tid
  started : r.started = q.started
  joined : r.joined = q.joined

theorem SameThreads.of_idle (r : Roster) (n : Nat) : SameThreads { r with idle := n } r :=
  ⟨rfl, rfl, rfl, rfl, rfl, rfl, rfl⟩

theorem SameThreads.of_eq {r q : Roster} (h : r = q) : SameThreads r q := by
  subst h
  exact ⟨rfl, rfl, rfl, rfl, rfl, rfl, rfl⟩

/-- Is the monitor between its `Join` of a thread and the erasure from `monitor_thread_free_`? -/
def MonitorPlace.erasing : MonitorPlace → Bool
  | .joining _ | .unlockPool => true
  | _ => false

/-- The step does not take the monitor into or out of a reclamation. -/
def Calm (s s' : System) : Prop :=
  s'.monitor = s.monitor ∨ (s.monitor.erasing = false ∧ s'.monitor.erasing = false)

/-- What a step does to the roster, and who does it. -/
inductive RosterCase (s s' : System) : Prop
  | same (hr : SameThreads s'.roster s.roster) (hcalm : Calm s s')
  | build (hr : SameThreads s'.roster { s.roster with
        built := s.roster.built + 1, threadPool := s.roster.threadPool ++ [s.roster.built] })
      (hcalm : Calm s s') (hbefore : s.placeOf (.worker s.roster.built) = .absent)
      (hafter : s'.placeOf (.worker s.roster.built) = .worker .built)
  | start {k tid : Nat} (hr : SameThreads s'.roster { s.roster with
        tid := Function.update s.roster.tid k tid
        started := Function.update s.roster.started k true })
      (hcalm : Calm s s') (hbefore : s.placeOf (.worker k) = .worker .counted)
      (hborn : (tid = 0 ∧ s'.placeOf (.worker k) = .worker .failed) ∨
        (0 < tid ∧ s'.placeOf (.worker k) = .worker .starting ∧ ∀ j x,
          s.placeOf (.worker j) = .worker x → x.alive = true → s.roster.tid j ≠ tid))
  | handOver {k : Nat} (hr : SameThreads s'.roster { s.roster with
        free := s.roster.free ++ [s.roster.tid k], retired := s.roster.retired ++ [k] })
      (hcalm : Calm s s') (hbefore : s.placeOf (.worker k) = .worker .handOver)
      (hafter : s'.placeOf (.worker k) = .worker .retireUnlock)
  | join {tid k : Nat} {rest before after : List Nat} (hr : SameThreads s'.roster { s.roster with
        joined := Function.update s.roster.joined k true })
      (hmonitor : s.monitor = .find) (hmonitor' : s'.monitor = .joining k)
      (hfree : s.roster.free = tid :: rest) (hpool : s.roster.threadPool = before ++ k :: after)
      (hbefore : ∀ j ∈ before, j < s.roster.built → s.roster.tid j ≠ tid)
      (hbuilt : k < s.roster.built) (htid : s.roster.tid k = tid) (hjoined : s.roster.joined k = false)
  | miss {tid : Nat} {rest : List Nat} (hr : SameThreads s'.roster s.roster)
      (hmonitor : s.monitor = .find) (hmonitor' : s'.monitor = .unlockPool)
      (hfree : s.roster.free = tid :: rest)
      (hnone : ∀ k ∈ s.roster.threadPool, k < s.roster.built → s.roster.tid k ≠ tid)
  | erase {k : Nat} (hr : SameThreads s'.roster { s.roster with
        threadPool := s.roster.threadPool.erase k })
      (hmonitor : s.monitor = .joining k) (hmonitor' : s'.monitor = .unlockPool)
      (hended : s.placeOf (.worker k) = .worker .ended)
  | next (hr : SameThreads s'.roster { s.roster with free := s.roster.free.tail })
      (hmonitor : s.monitor = .unlockPool) (hmonitor' : s'.monitor = .reap)
  | joinOwner {k : Nat} (hr : SameThreads s'.roster { s.roster with
        joined := Function.update s.roster.joined k true })
      (hcalm : Calm s s') (howner : s.owner = .walk (some k)) (howner' : s'.owner = .joining k)
      (hmem : k ∈ s.roster.threadPool) (hjoined : s.roster.joined k = false)

theorem Beside.calm (h : Beside s.monitor s'.monitor) : Calm s s' := by
  generalize hx : s.monitor = x at h
  generalize hy : s'.monitor = y at h
  unfold Calm
  rw [hx, hy]
  cases h with
  | still => exact .inl rfl
  | created => exact .inr ⟨rfl, rfl⟩
  | notified => exact .inr ⟨rfl, rfl⟩

theorem Calm.of_places (h : s'.placeOf = s.placeOf) : Calm s s' :=
  .inl (Place.monitor.inj (congrFun h .monitor))

theorem roster_cases {act : Act} (h : Turn cfg s s' act) : RosterCase s s' := by
  cases h with
  | @worker _ k x y hmove _ hstir =>
    have hcalm : Calm s s' := (hmove.beside (by simp)).calm
    have hbefore := hmove.before
    have hafter := hmove.after
    generalize hr : s.roster = r at hstir
    generalize hr' : s'.roster = r' at hstir
    cases hstir with
    | handOver => exact .handOver (.of_eq (by rw [hr, hr'])) hcalm hbefore hafter
    | decIdle => exact .same (by rw [hr, hr']; exact .of_idle _ _) hcalm
    | incIdle => exact .same (by rw [hr, hr']; exact .of_idle _ _) hcalm
    | _ => exact .same (.of_eq (by rw [hr, hr'])) hcalm
  | call hmove _ hroster => exact .same (.of_eq hroster) (hmove.beside (by simp)).calm
  | notify hmove _ _ _ hroster => exact .same (.of_eq hroster) (hmove.beside (by simp)).calm
  | notifyNone hmove _ _ hroster => exact .same (.of_eq hroster) (hmove.beside (by simp)).calm
  | @owner _ x y hmove _ _ hstir =>
    have hcalm : Calm s s' := (hmove.beside (by simp)).calm
    have hx : s.owner = x := Place.owner.inj hmove.before
    have hy : s'.owner = y := Place.owner.inj hmove.after
    generalize hr : s.roster = r at hstir
    generalize hr' : s'.roster = r' at hstir
    cases hstir with
    | join hmem hjoined =>
      exact .joinOwner (.of_eq (by rw [hr, hr'])) hcalm hx hy (hr ▸ hmem) (hr ▸ hjoined)
    | _ => exact .same (.of_eq (by rw [hr, hr'])) hcalm
  | notifyAll _ _ _ _ hmonitor _ _ hroster =>
    exact .same (.of_eq hroster) (.inl (Place.monitor.inj hmonitor))
  | @grow _ p k size a a' z z' hp hmove hbefore hafter hgrowth hstir =>
    have hne : p ≠ .monitor := by
      rcases hp with rfl | ⟨c, rfl⟩
      · simp
      · simp
    have hcalm : Calm s s' := (hmove.beside hne).calm
    generalize s.board = b at hgrowth
    generalize s'.board = b' at hgrowth
    generalize hr : s.roster = r at hstir
    generalize hr' : s'.roster = r' at hstir
    cases hgrowth with
    | build =>
      cases hstir with
      | build hk =>
        rw [hk, ← hr] at hbefore hafter
        exact .build (.of_eq (by rw [hr, hr', hk])) hcalm hbefore hafter
    | countIdle =>
      cases hstir with
      | countIdle => exact .same (by rw [hr, hr']; exact .of_idle _ _) hcalm
    | countNow =>
      cases hstir with
      | countNow => exact .same (.of_eq (by rw [hr, hr'])) hcalm
    | start =>
      cases hstir with
      | start hpos hfree =>
        rw [← hr] at hfree
        exact .start (.of_eq (by rw [hr, hr'])) hcalm hbefore (.inr ⟨hpos, hafter, hfree⟩)
    | fail =>
      cases hstir with
      | fail => exact .start (.of_eq (by rw [hr, hr'])) hcalm hbefore (.inl ⟨rfl, hafter⟩)
  | @monitor _ x y hmove _ hstir =>
    have hx : s.monitor = x := Place.monitor.inj hmove.before
    have hy : s'.monitor = y := Place.monitor.inj hmove.after
    have hquiet (hx' : x.erasing = false) (hy' : y.erasing = false) : Calm s s' :=
      .inr ⟨hx ▸ hx', hy ▸ hy'⟩
    generalize hr : s.roster = r at hstir
    generalize hr' : s'.roster = r' at hstir
    cases hstir with
    | quiet hnot hnot' =>
      refine .same (.of_eq (by rw [hr, hr'])) (hquiet ?_ ?_)
      · cases x with
        | joining => cases hnot
        | unlockPool => cases hnot
        | _ => rfl
      · cases y with
        | joining => cases hnot'
        | unlockPool => cases hnot'
        | _ => rfl
    | enter => exact .same (.of_eq (by rw [hr, hr'])) (hquiet rfl rfl)
    | look => exact .same (.of_eq (by rw [hr, hr'])) (hquiet rfl rfl)
    | miss hfree hnone =>
      rw [← hr] at hfree hnone
      exact .miss (.of_eq (by rw [hr, hr'])) hx hy hfree hnone
    | join hfree hpool hbefore hbuilt htid hjoined =>
      rw [← hr] at hfree hpool hbefore hbuilt htid hjoined
      exact .join (.of_eq (by rw [hr, hr'])) hx hy hfree hpool hbefore hbuilt htid hjoined
    | erase hended => exact .erase (.of_eq (by rw [hr, hr'])) hx hy hended
    | next => exact .next (.of_eq (by rw [hr, hr'])) hx hy
  | commit _ hmove _ hroster =>
    refine .same ?_ (hmove.beside (by simp)).calm
    rw [hroster]
    exact ⟨rfl, rfl, rfl, rfl, rfl, rfl, rfl⟩
  | shutDown hplaces _ _ hroster => exact .same (.of_eq hroster) (.of_places hplaces)
  | still hplaces _ _ hroster => exact .same (.of_eq hroster) (.of_places hplaces)

/-- Threads are added to the list at its end, and the monitor takes out the one it has joined. -/
theorem RosterCase.list_cases (h : RosterCase s s') :
    (s'.roster.built = s.roster.built ∧ s'.roster.threadPool = s.roster.threadPool) ∨
    (s'.roster.built = s.roster.built + 1 ∧
      s'.roster.threadPool = s.roster.threadPool ++ [s.roster.built] ∧
      s'.placeOf (.worker s.roster.built) = .worker .built) ∨
    ∃ k, s'.roster.built = s.roster.built ∧
      s'.roster.threadPool = s.roster.threadPool.erase k ∧ s.monitor = .joining k := by
  cases h with
  | build hr _ _ hafter => exact .inr (.inl ⟨hr.built, hr.threadPool, hafter⟩)
  | erase hr hmonitor => exact .inr (.inr ⟨_, hr.built, hr.threadPool, hmonitor⟩)
  | same hr => exact .inl ⟨hr.built, hr.threadPool⟩
  | start hr => exact .inl ⟨hr.built, hr.threadPool⟩
  | handOver hr => exact .inl ⟨hr.built, hr.threadPool⟩
  | join hr => exact .inl ⟨hr.built, hr.threadPool⟩
  | miss hr => exact .inl ⟨hr.built, hr.threadPool⟩
  | next hr => exact .inl ⟨hr.built, hr.threadPool⟩
  | joinOwner hr => exact .inl ⟨hr.built, hr.threadPool⟩

/-- The number of threads changes where one is built only. -/
theorem RosterCase.built_cases (h : RosterCase s s') : s'.roster.built = s.roster.built ∨
    s'.roster.built = s.roster.built + 1 ∧
      s'.placeOf (.worker s.roster.built) = .worker .built := by
  rcases h.list_cases with ⟨hbuilt, -⟩ | ⟨hbuilt, -, hafter⟩ | ⟨k, hbuilt, -⟩
  · exact .inl hbuilt
  · exact .inr ⟨hbuilt, hafter⟩
  · exact .inl hbuilt

/-- The ids change where a thread is started only. -/
theorem RosterCase.tid_cases (h : RosterCase s s') : s'.roster.tid = s.roster.tid ∨
    ∃ k tid, s'.roster.tid = Function.update s.roster.tid k tid ∧
      s.placeOf (.worker k) = .worker .counted ∧
      ((tid = 0 ∧ s'.placeOf (.worker k) = .worker .failed) ∨
        (0 < tid ∧ s'.placeOf (.worker k) = .worker .starting ∧ ∀ j x,
          s.placeOf (.worker j) = .worker x → x.alive = true → s.roster.tid j ≠ tid)) := by
  cases h with
  | start hr _ hbefore hborn => exact .inr ⟨_, _, hr.tid, hbefore, hborn⟩
  | same hr => exact .inl hr.tid
  | build hr => exact .inl hr.tid
  | handOver hr => exact .inl hr.tid
  | join hr => exact .inl hr.tid
  | miss hr => exact .inl hr.tid
  | erase hr => exact .inl hr.tid
  | next hr => exact .inl hr.tid
  | joinOwner hr => exact .inl hr.tid

/-! ## The owner -/

/-- What a step does to the owner. -/
inductive OwnerView (s s' : System) : Prop
  | same (h : s'.owner = s.owner)
  | quiet (hx : s.owner.walking = false) (hy : s'.owner.walking = false)
  | enter (hx : s.owner = .notifyAll) (hy : s'.owner = .walk s.roster.threadPool.head?)
      (hroster : s'.roster = s.roster)
  | join {k : Nat} (hx : s.owner = .walk (some k)) (hy : s'.owner = .joining k)
  | next {k : Nat} (hx : s.owner = .joining k)
      (hy : s'.owner = .walk (s.roster.threadPool.dropWhile (· != k)).tail.head?)
      (hended : s.placeOf (.worker k) = .worker .ended) (hmem : k ∈ s.roster.threadPool)
      (hroster : s'.roster = s.roster)
  | finish (hx : s.owner = .walk none) (hy : s'.owner = .destroyed)

theorem owner_view {act : Act} (h : Turn cfg s s' act) : OwnerView s s' := by
  cases h.owner_case with
  | same howner => exact .same howner
  | turn hx hy _ _ hstir =>
    generalize hr : s.roster = r at hstir
    generalize hr' : s'.roster = r' at hstir
    cases hstir with
    | quiet hquiet hquiet' => exact .quiet (hx ▸ hquiet) (hy ▸ hquiet')
    | join => exact .join hx hy
    | next hended hmem =>
      rw [← hr] at hy hmem
      exact .next hx hy hended hmem (by rw [hr, hr'])
    | finish => exact .finish hx hy
  | notifyAll hx hy _ hroster => exact .enter hx hy hroster
  | grow hx hy => exact .quiet (hx ▸ rfl) (hy ▸ rfl)

/-- Has the destructor's loop joined thread `k`, or gone past it? -/
def OwnerPlace.passed (k : Nat) : OwnerPlace → Prop
  | .walk (some i) => k < i
  | .joining i => k ≤ i
  | .walk none | .destroyed => True
  | _ => False

theorem OwnerPlace.not_passed {x : OwnerPlace} (hx : x.walking = false) (k : Nat) :
    ¬ x.passed k := by
  intro h
  cases x with
  | walk => cases hx
  | joining => cases hx
  | destroyed => cases hx
  | _ => exact h

/-- The node after `k` in an ordered list. -/
theorem next_of_split {before after : List Nat} {k : Nat}
    (hsorted : (before ++ k :: after).Pairwise (· < ·)) :
    ((before ++ k :: after).dropWhile (· != k)).tail.head? = after.head? := by
  have hne : ∀ j ∈ before, (j != k) = true := by
    intro j hj
    have hlt := (List.pairwise_append.mp hsorted).2.2 j hj k (List.mem_cons_self ..)
    simpa using Nat.ne_of_lt hlt
  rw [List.dropWhile_append_of_pos hne, List.dropWhile_cons_of_neg (by simp), List.tail_cons]

/-- The iterator behind a thread of an ordered list stands on the next one. -/
theorem lt_of_next {nodes : List Nat} (hsorted : nodes.Pairwise (· < ·)) {k m : Nat}
    (hk : k ∈ nodes) (hm : (nodes.dropWhile (· != k)).tail.head? = some m) :
    k < m ∧ ∀ j ∈ nodes, j < m → j ≤ k := by
  obtain ⟨before, after, rfl⟩ := List.append_of_mem hk
  rw [next_of_split hsorted] at hm
  obtain ⟨rest, rfl⟩ := List.head?_eq_some_iff.mp hm
  obtain ⟨-, hafter, hcross⟩ := List.pairwise_append.mp hsorted
  obtain ⟨hlater, hrest⟩ := List.pairwise_cons.mp hafter
  refine ⟨hlater m (List.mem_cons_self ..), fun j hj hlt => ?_⟩
  rcases List.mem_append.mp hj with hj | hj
  · exact Nat.le_of_lt (hcross j hj k (List.mem_cons_self ..))
  · rcases List.mem_cons.mp hj with rfl | hj
    · exact Nat.le_refl _
    · rcases List.mem_cons.mp hj with rfl | hj
      · exact absurd hlt (Nat.lt_irrefl _)
      · have hmj := (List.pairwise_cons.mp hrest).1 j hj
        omega

/-- Behind the last thread of an ordered list there is none. -/
theorem le_of_last {nodes : List Nat} (hsorted : nodes.Pairwise (· < ·)) {k : Nat}
    (hk : k ∈ nodes) (hnone : (nodes.dropWhile (· != k)).tail.head? = none) :
    ∀ j ∈ nodes, j ≤ k := by
  obtain ⟨before, after, rfl⟩ := List.append_of_mem hk
  rw [next_of_split hsorted, List.head?_eq_none_iff] at hnone
  subst hnone
  intro j hj
  rcases List.mem_append.mp hj with hj | hj
  · exact Nat.le_of_lt ((List.pairwise_append.mp hsorted).2.2 j hj k (List.mem_cons_self ..))
  · exact Nat.le_of_eq (List.mem_singleton.mp hj)

/-- The destructor's loop goes forward. -/
theorem OwnerView.passed_kept (h : OwnerView s s') (hsorted : s.roster.threadPool.Pairwise (· < ·))
    {j : Nat} (hj : s.owner.passed j) : s'.owner.passed j := by
  cases h with
  | same hsame =>
    rw [hsame]
    exact hj
  | quiet hx => exact absurd hj (OwnerPlace.not_passed hx j)
  | enter hx =>
    rw [hx] at hj
    exact hj.elim
  | join hx hy =>
    rw [hx] at hj
    rw [hy]
    exact Nat.le_of_lt hj
  | @next k hx hy _ hmem =>
    rw [hx] at hj
    rw [hy]
    cases hnext : (s.roster.threadPool.dropWhile (· != k)).tail.head? with
    | none => trivial
    | some m => exact Nat.lt_of_le_of_lt hj (lt_of_next hsorted hmem hnext).1
  | finish _ hy =>
    rw [hy]
    trivial

/-! ## Ids -/

theorem System.built_iff {k : Nat} :
    k < s.roster.built ↔ ∃ x, s.placeOf (.worker k) = .worker x := by
  constructor
  · intro hk
    exact ⟨_, System.placeOf_worker_iff.mpr ⟨s.workers[k], List.getElem?_eq_getElem hk, rfl⟩⟩
  · rintro ⟨x, hx⟩
    exact System.built_of_place hx

/-- A worker that is nowhere is not built yet. -/
theorem System.built_le {k : Nat} (hk : (s.placeOf (.worker k)).life = none) :
    s.roster.built ≤ k := by
  by_contra hlt
  obtain ⟨x, hx⟩ := System.built_iff.mp (Nat.lt_of_not_le hlt)
  rw [hx] at hk
  cases hk

theorem System.tid_of_absent {k : Nat} (hk : s.roster.built ≤ k) : s.roster.tid k = 0 := by
  show ((s.workers[k]?).map Worker.tid).getD 0 = 0
  rw [List.getElem?_eq_none hk]
  rfl

theorem System.placed_of_tid {k : Nat} (hk : 0 < s.roster.tid k) :
    ∃ x, s.placeOf (.worker k) = .worker x := by
  apply System.built_iff.mp
  by_contra hlt
  rw [System.tid_of_absent (Nat.le_of_not_lt hlt)] at hk
  cases hk

/-- Threads are added at the end of the list, who has an id is started, and of two that bear one id
the earlier has ended. -/
structure Threads (s : System) : Prop where
  bound : ∀ k ∈ s.roster.threadPool, k < s.roster.built
  fresh : ∀ k x, s.placeOf (.worker k) = .worker x → x.fresh = true → k + 1 = s.roster.built
  unborn : ∀ k, (s.placeOf (.worker k)).life = some .unborn → s.roster.tid k = 0
  named : ∀ k l, (s.placeOf (.worker k)).life = some l → l ≠ .unborn → 0 < s.roster.tid k
  ids : ∀ j k, j < k → s.roster.tid j = s.roster.tid k → 0 < s.roster.tid k →
    (s.placeOf (.worker j)).life = some .ended
  started : ∀ k, 0 < s.roster.tid k → s.roster.started k = true
  failed : ∀ k, s.placeOf (.worker k) = .worker .failed → s.roster.started k = true

theorem LifeView.ended {j : Nat} (h : LifeView s s' j)
    (hended : (s.placeOf (.worker j)).life = some .ended) :
    (s'.placeOf (.worker j)).life = some .ended := by
  cases h with
  | same h => rw [h, hended]
  | quits hbefore =>
    rw [hbefore] at hended
    cases hended
  | _ hbefore =>
    rw [hended] at hbefore
    cases hbefore

/-- A thread is given an id when it is started, and then never again. -/
theorem tid_kept (h : RosterCase s s') {j : Nat} (hj : s.placeOf (.worker j) ≠ .worker .counted) :
    s'.roster.tid j = s.roster.tid j := by
  rcases h.tid_cases with hsame | ⟨k, tid, htid, hbefore, -⟩
  · rw [hsame]
  · rw [htid]
    apply Function.update_of_ne
    rintro rfl
    exact hj hbefore

theorem threads_init : Threads System.init where
  bound := fun k hk => by cases hk
  fresh := fun k x hx => by simp [System.init, System.placeOf] at hx
  unborn := fun k hk => by simp [System.init, System.placeOf, Place.life] at hk
  named := fun k l hk => by simp [System.init, System.placeOf, Place.life] at hk
  ids := fun j k _ _ hk => by simp [System.init, System.roster] at hk
  started := fun k hk => by simp [System.init, System.roster] at hk
  failed := fun k hk => by simp [System.init, System.placeOf] at hk

/-- A worker before its `Start` was so before, or it is built in this step. -/
theorem fresh_before {act : Act} (h : Turn cfg s s' act) {k : Nat} {y : WorkerPlace}
    (hy : s'.placeOf (.worker k) = .worker y) (hfresh : y.fresh = true) :
    (∃ x, s.placeOf (.worker k) = .worker x ∧ x.fresh = true) ∨
      s.placeOf (.worker k) = .absent ∧ s'.roster.built = s.roster.built + 1 := by
  cases h.worker_view k with
  | same hsame => exact .inl ⟨y, hsame.symm.trans hy, hfresh⟩
  | turn hmove hturn =>
    rw [hmove.after] at hy
    cases hy
    rw [hturn.not_fresh.2] at hfresh
    cases hfresh
  | woken _ hafter =>
    rw [hafter] at hy
    cases hy
    cases hfresh
  | grown _ hbefore hafter hgrowth hstir =>
    rw [hafter] at hy
    subst hy
    generalize s.board = b at hgrowth
    generalize s'.board = b' at hgrowth
    cases hgrowth with
    | build =>
      refine .inr ⟨hbefore, ?_⟩
      generalize s.roster = r at hstir ⊢
      generalize s'.roster = r' at hstir ⊢
      cases hstir with
      | build => rfl
    | countIdle => exact .inl ⟨_, hbefore, rfl⟩
    | countNow => exact .inl ⟨_, hbefore, rfl⟩
    | start => cases hfresh
    | fail => cases hfresh

theorem fresh_turn (hs : Order s) (ht : Threads s) {act : Act} (h : Turn cfg s s' act) {k : Nat}
    {y : WorkerPlace} (hy : s'.placeOf (.worker k) = .worker y) (hfresh : y.fresh = true) :
    k + 1 = s'.roster.built := by
  rcases (roster_cases h).built_cases with hbuilt | ⟨hbuilt, hafter⟩
  · rcases fresh_before h hy hfresh with ⟨x, hx, hfresh⟩ | ⟨-, hbuilt'⟩
    · rw [hbuilt]
      exact ht.fresh k x hx hfresh
    · omega
  · have hk : k = s.roster.built := (order_turn hs h).building_unique hy hfresh hafter rfl
    omega

theorem bound_turn (ht : Threads s) {act : Act} (h : Turn cfg s s' act) {k : Nat}
    (hk : k ∈ s'.roster.threadPool) : k < s'.roster.built := by
  rcases (roster_cases h).list_cases with
    ⟨hbuilt, hpool⟩ | ⟨hbuilt, hpool, -⟩ | ⟨j, hbuilt, hpool, -⟩
  · rw [hpool] at hk
    rw [hbuilt]
    exact ht.bound k hk
  · rw [hpool, List.mem_append, List.mem_singleton] at hk
    rcases hk with hk | hk
    · have hlt := ht.bound k hk
      omega
    · omega
  · rw [hpool] at hk
    rw [hbuilt]
    exact ht.bound k (List.mem_of_mem_erase hk)

/-- Only a worker before its `Start` is given an id. -/
theorem tid_kept_of_life (h : RosterCase s s') {j : Nat}
    (hj : (s.placeOf (.worker j)).life ≠ some .unborn) : s'.roster.tid j = s.roster.tid j := by
  apply tid_kept h
  intro hcounted
  rw [hcounted] at hj
  exact hj rfl

theorem unborn_turn (ht : Threads s) {act : Act} (h : Turn cfg s s' act) {k : Nat}
    (hk : (s'.placeOf (.worker k)).life = some .unborn) : s'.roster.tid k = 0 := by
  have hcase := roster_cases h
  cases life_view h k with
  | same hsame =>
    rw [hsame] at hk
    have hold := ht.unborn k hk
    rcases hcase.tid_cases with htid | ⟨j, tid, htid, hbefore, hborn⟩
    · rw [htid]
      exact hold
    · by_cases hj : k = j
      · subst hj
        rcases hborn with ⟨rfl, -⟩ | ⟨-, hstarting, -⟩
        · rw [htid]
          exact Function.update_self ..
        · rw [hstarting, hbefore] at hsame
          cases hsame
      · rw [htid, Function.update_of_ne hj]
        exact hold
  | built hbefore =>
    rw [tid_kept_of_life hcase (by rw [hbefore]; simp)]
    exact System.tid_of_absent (System.built_le hbefore)
  | born _ hafter => rw [hafter] at hk; cases hk
  | parks _ hafter => rw [hafter] at hk; cases hk
  | resumes _ hafter => rw [hafter] at hk; cases hk
  | retires _ hafter => rw [hafter] at hk; cases hk
  | passes _ hafter => rw [hafter] at hk; cases hk
  | quits _ hafter => rw [hafter] at hk; cases hk
  | ends _ hafter => rw [hafter] at hk; cases hk

theorem named_turn (ht : Threads s) {act : Act} (h : Turn cfg s s' act) {k : Nat} {l : Life}
    (hk : (s'.placeOf (.worker k)).life = some l) (hl : l ≠ .unborn) : 0 < s'.roster.tid k := by
  have hcase := roster_cases h
  have hold {l' : Life} (hbefore : (s.placeOf (.worker k)).life = some l') (hl' : l' ≠ .unborn) :
      0 < s'.roster.tid k := by
    rw [tid_kept_of_life hcase (by rw [hbefore]; simpa using hl')]
    exact ht.named k l' hbefore hl'
  cases life_view h k with
  | same hsame => exact hold (hsame.symm.trans hk) hl
  | built _ hafter =>
    rw [hafter] at hk
    cases hk
    exact absurd rfl hl
  | born _ _ hnamed => exact hnamed
  | parks hbefore => exact hold hbefore (by simp)
  | resumes hbefore => exact hold hbefore (by simp)
  | retires hbefore => exact hold hbefore (by simp)
  | passes hbefore => exact hold hbefore (by simp)
  | quits hbefore =>
    have hworking : (s.placeOf (.worker k)).life = some .working := by
      rw [hbefore]
      rfl
    exact hold hworking (by simp)
  | ends hbefore => exact hold hbefore (by simp)

theorem ids_turn (ht : Threads s) {act : Act} (h : Turn cfg s s' act) {j k : Nat} (hjk : j < k)
    (hsame : s'.roster.tid j = s'.roster.tid k) (hpos : 0 < s'.roster.tid k) :
    (s'.placeOf (.worker j)).life = some .ended := by
  have hcase := roster_cases h
  apply (life_view h j).ended
  -- a thread that is being started is the last one of the list
  have hlast (hj : s.placeOf (.worker j) = .worker .counted) : False := by
    have hbuilt := ht.fresh j .counted hj rfl
    have habsent : s.placeOf (.worker k) ≠ .worker .counted := by
      intro hk
      have hbuilt' := ht.fresh k .counted hk rfl
      omega
    rw [tid_kept hcase habsent, System.tid_of_absent (by omega)] at hpos
    cases hpos
  have htid : s'.roster.tid j = s.roster.tid j := tid_kept hcase hlast
  have hold (htidk : s'.roster.tid k = s.roster.tid k) :
      (s.placeOf (.worker j)).life = some .ended := by
    rw [htid, htidk] at hsame
    rw [htidk] at hpos
    exact ht.ids j k hjk hsame hpos
  rcases hcase.tid_cases with hkept | ⟨i, tid, hnew, -, hborn⟩
  · exact hold (congrFun hkept k)
  · have htidk := congrFun hnew k
    by_cases hi : k = i
    · subst hi
      rw [Function.update_self] at htidk
      rcases hborn with ⟨rfl, -⟩ | ⟨htid0, -, hfree⟩
      · rw [htidk] at hpos
        cases hpos
      · -- nobody alive has the new id, and who has it was born
        have hown : s.roster.tid j = tid := by rw [← htid, hsame, htidk]
        obtain ⟨x, hx⟩ := System.placed_of_tid (s := s) (k := j) (by omega)
        have hdead : x.alive = false := by
          by_contra halive
          rw [Bool.not_eq_false] at halive
          exact hfree j x hx halive hown
        have hborn : (s.placeOf (.worker j)).life ≠ some .unborn := by
          intro hunborn
          have hzero := ht.unborn j hunborn
          omega
        rw [hx] at hborn ⊢
        cases x with
        | ended => rfl
        | built => exact absurd rfl hborn
        | idled => exact absurd rfl hborn
        | counted => exact absurd rfl hborn
        | failed => exact absurd rfl hborn
        | _ => cases hdead
    · rw [Function.update_of_ne hi] at htidk
      exact hold htidk

/-- What was started stays so, and who gets an id is started. -/
theorem RosterCase.started_cases (h : RosterCase s s') (k : Nat) :
    s'.roster.started k = true ∨
      (s'.roster.started k = s.roster.started k ∧ s'.roster.tid k = s.roster.tid k) := by
  cases h with
  | @start i tid hr =>
    have htid : s'.roster.tid k = Function.update s.roster.tid i tid k := congrFun hr.tid k
    have hstarted : s'.roster.started k = Function.update s.roster.started i true k :=
      congrFun hr.started k
    by_cases hi : k = i
    · left
      rw [hstarted, hi]
      exact Function.update_self ..
    · right
      rw [hstarted, htid, Function.update_of_ne hi, Function.update_of_ne hi]
      exact ⟨rfl, rfl⟩
  | same hr => exact .inr ⟨congrFun hr.started k, congrFun hr.tid k⟩
  | build hr => exact .inr ⟨congrFun hr.started k, congrFun hr.tid k⟩
  | handOver hr => exact .inr ⟨congrFun hr.started k, congrFun hr.tid k⟩
  | @join _ i _ _ _ hr => exact .inr ⟨congrFun hr.started k, congrFun hr.tid k⟩
  | miss hr => exact .inr ⟨congrFun hr.started k, congrFun hr.tid k⟩
  | erase hr => exact .inr ⟨congrFun hr.started k, congrFun hr.tid k⟩
  | next hr => exact .inr ⟨congrFun hr.started k, congrFun hr.tid k⟩
  | joinOwner hr => exact .inr ⟨congrFun hr.started k, congrFun hr.tid k⟩

theorem started_turn (ht : Threads s) {act : Act} (h : Turn cfg s s' act) {k : Nat}
    (hpos : 0 < s'.roster.tid k) : s'.roster.started k = true := by
  rcases (roster_cases h).started_cases k with hstarted | ⟨hstarted, htid⟩
  · exact hstarted
  · rw [htid] at hpos
    rw [hstarted]
    exact ht.started k hpos

theorem failed_turn (ht : Threads s) {act : Act} (h : Turn cfg s s' act) {k : Nat}
    (hk : s'.placeOf (.worker k) = .worker .failed) : s'.roster.started k = true := by
  cases h.worker_view k with
  | same hsame =>
    rcases (roster_cases h).started_cases k with hstarted | ⟨hstarted, -⟩
    · exact hstarted
    · rw [hstarted]
      exact ht.failed k (hsame.symm.trans hk)
  | @turn x _ hmove hturn =>
    rw [hmove.after] at hk
    cases hk
    generalize s.board = b at hturn
    generalize s'.board = b' at hturn
    cases hturn with
    | quiet hrole hgrown =>
      rw [← hrole] at hgrown
      cases hgrown
    | uncount _ hgoing => cases hgoing
  | woken _ hafter =>
    rw [hafter] at hk
    cases hk
  | grown _ _ hafter hgrowth hstir =>
    rw [hafter] at hk
    subst hk
    generalize s.board = b at hgrowth
    generalize s'.board = b' at hgrowth
    cases hgrowth with
    | fail =>
      generalize s.roster = r at hstir
      generalize s'.roster = r' at hstir ⊢
      cases hstir with
      | fail => exact Function.update_self ..

theorem threads_turn (hs : Order s) (ht : Threads s) {act : Act} (h : Turn cfg s s' act) :
    Threads s' where
  bound := fun _ => bound_turn ht h
  fresh := fun _ _ => fresh_turn hs ht h
  unborn := fun _ => unborn_turn ht h
  named := fun _ _ => named_turn ht h
  ids := fun _ _ => ids_turn ht h
  started := fun _ => started_turn ht h
  failed := fun _ => failed_turn ht h

end TurboNet.Base
