/-
# TurboNet.Base.PoolEffects — what the single effects leave behind.

Each effect of a step moves one party, or none, and changes little of the roster.  The lemmas say
where the parties stand after it (`placeOf_*`) and what the threads' records are (`roster_*`).
-/
import TurboNet.Base.PoolTurns

namespace TurboNet.Base

/-! ## Where the effects leave the parties -/

/-- What a `Thread` records, the thread's place apart. -/
def Worker.records (w : Worker) : Nat × Bool × Bool := (w.tid, w.started, w.joined)

namespace System

variable {s s₁ s' : System}

theorem placeOf_worker_iff {k : Nat} {x : WorkerPlace} :
    s.placeOf (.worker k) = .worker x ↔ ∃ w, s.workers[k]? = some w ∧ w.place = x := by
  unfold placeOf
  cases hw : s.workers[k]? with
  | none => simp [hw]
  | some w => simp [hw]

theorem placeOf_call_iff {c : Nat} {x : CallPlace} :
    s.placeOf (.call c) = .call x ↔ ∃ call, s.calls[c]? = some call ∧ call.place = x := by
  unfold placeOf
  cases hc : s.calls[c]? with
  | none => simp [hc]
  | some call => simp [hc]

/-- A call, if there is one of that number, stands at one of its places. -/
theorem placeOf_call (s : System) (c : Nat) :
    s.placeOf (.call c) = .absent ∨ ∃ x, s.placeOf (.call c) = .call x := by
  simp only [placeOf]
  split
  · exact .inr ⟨_, rfl⟩
  · exact .inl rfl

theorem placeOf_worker (s : System) (k : Nat) :
    s.placeOf (.worker k) = .absent ∨ ∃ x, s.placeOf (.worker k) = .worker x := by
  simp only [placeOf]
  split
  · exact .inr ⟨_, rfl⟩
  · exact .inl rfl

theorem workerAt_iff {k : Nat} {x : WorkerPlace} :
    s.workerAt k x = true ↔ s.placeOf (.worker k) = .worker x := by
  rw [placeOf_worker_iff, workerAt, Option.any_eq_true]
  simp

/-- The places are those of the parties, whatever happens to the pool. -/
theorem placeOf_congr (hworkers : s₁.workers = s.workers) (hcalls : s₁.calls = s.calls)
    (hmonitor : s₁.monitor = s.monitor) (howner : s₁.owner = s.owner) :
    s₁.placeOf = s.placeOf := by
  funext q
  unfold placeOf
  rw [hworkers, hcalls, hmonitor, howner]

/-- Changing what is recorded about a worker that exists. -/
theorem placeOf_modify {k : Nat} {x y : WorkerPlace} {f : Worker → Worker}
    (hx : s.placeOf (.worker k) = .worker x) (hf : ∀ w, (f w).place = y) :
    ({ s with workers := s.workers.modify k f } : System).placeOf =
      Function.update s.placeOf (.worker k) (.worker y) := by
  obtain ⟨w, hw, -⟩ := placeOf_worker_iff.mp hx
  funext q
  cases q with
  | worker j =>
    by_cases hj : k = j
    · subst hj
      rw [Function.update_self]
      simp [placeOf, hw, hf]
    · have hne : Party.worker j ≠ Party.worker k := fun h => hj (Party.worker.inj h).symm
      rw [Function.update_of_ne hne]
      simp [placeOf, hj]
  | owner => rfl
  | monitor => rfl
  | call c => rfl

theorem placeOf_goWorker {k : Nat} {x y : WorkerPlace} (hx : s.placeOf (.worker k) = .worker x) :
    (s.goWorker k y).placeOf = Function.update s.placeOf (.worker k) (.worker y) :=
  placeOf_modify hx fun _ => rfl

theorem placeOf_startThread {k tid : Nat} {x y : WorkerPlace}
    (hx : s.placeOf (.worker k) = .worker x) :
    (s.startThread k tid y).placeOf = Function.update s.placeOf (.worker k) (.worker y) :=
  placeOf_modify hx fun _ => rfl

theorem placeOf_goCall {c : Nat} {x y : CallPlace} (hx : s.placeOf (.call c) = .call x) :
    (s.goCall c y).placeOf = Function.update s.placeOf (.call c) (.call y) := by
  obtain ⟨call, hc, -⟩ := placeOf_call_iff.mp hx
  funext q
  cases q with
  | call d =>
    by_cases hd : c = d
    · subst hd
      rw [Function.update_self]
      simp [placeOf, goCall, hc]
    · have hne : Party.call d ≠ Party.call c := fun h => hd (Party.call.inj h).symm
      rw [Function.update_of_ne hne]
      simp [placeOf, goCall, hd]
  | owner => rfl
  | monitor => rfl
  | worker k => rfl

theorem placeOf_goMonitor (y : MonitorPlace) :
    (s.goMonitor y).placeOf = Function.update s.placeOf .monitor (.monitor y) := by
  funext q
  cases q with
  | monitor => rfl
  | owner => rfl
  | worker k => rfl
  | call c => rfl

theorem placeOf_goOwner (y : OwnerPlace) :
    (s.goOwner y).placeOf = Function.update s.placeOf .owner (.owner y) := by
  funext q
  cases q with
  | owner => rfl
  | monitor => rfl
  | worker k => rfl
  | call c => rfl

/-- A new entry in the list of workers is a party that was absent. -/
theorem placeOf_build : s.placeOf (.worker s.workers.length) = .absent ∧
    s.build.placeOf = Function.update s.placeOf (.worker s.workers.length) (.worker .built) := by
  constructor
  · simp [placeOf]
  · funext q
    cases q with
    | worker j =>
      by_cases hj : j = s.workers.length
      · subst hj
        rw [Function.update_self]
        simp [placeOf, build]
      · have hne : Party.worker j ≠ Party.worker s.workers.length :=
          fun h => hj (Party.worker.inj h)
        rw [Function.update_of_ne hne]
        simp only [placeOf, build, List.getElem?_append]
        by_cases hlt : j < s.workers.length
        · simp [hlt]
        · have hsome : 0 < j - s.workers.length := by omega
          simp [hlt, Nat.ne_of_gt hsome]
    | owner => rfl
    | monitor => rfl
    | call c => rfl

theorem placeOf_commit (caller : Caller) : s.placeOf (.call s.calls.length) = .absent ∧
    ({ s with calls := s.calls ++ [{ caller, place := .check }] } : System).placeOf =
      Function.update s.placeOf (.call s.calls.length) (.call .check) := by
  constructor
  · simp [placeOf]
  · funext q
    cases q with
    | call d =>
      by_cases hd : d = s.calls.length
      · subst hd
        rw [Function.update_self]
        simp [placeOf]
      · have hne : Party.call d ≠ Party.call s.calls.length := fun h => hd (Party.call.inj h)
        rw [Function.update_of_ne hne]
        simp only [placeOf, List.getElem?_append]
        by_cases hlt : d < s.calls.length
        · simp [hlt]
        · have hsome : 0 < d - s.calls.length := by omega
          simp [hlt, Nat.ne_of_gt hsome]
    | owner => rfl
    | monitor => rfl
    | worker k => rfl

theorem placeOf_markJoined (k : Nat) : (s.markJoined k).placeOf = s.placeOf := by
  funext q
  cases q with
  | worker j =>
    simp only [placeOf, markJoined, List.getElem?_modify]
    cases s.workers[j]? with
    | none => rfl
    | some w =>
      by_cases hj : k = j
      · simp [hj]
      · simp [hj]
  | owner => rfl
  | monitor => rfl
  | call c => rfl

theorem placeOf_notifyAllTasks (k : Nat) : s.notifyAllTasks.placeOf (.worker k) =
    if s.placeOf (.worker k) = .worker .parked then .worker .woken
    else s.placeOf (.worker k) := by
  unfold placeOf notifyAllTasks
  cases hk : s.workers[k]? with
  | none => simp [hk]
  | some w =>
    by_cases hw : w.place = .parked
    · simp [hk, hw]
    · simp [hk, hw]

/-! ### The roster -/

theorem roster_workers {workers : List Worker} (hlength : workers.length = s.workers.length)
    (h : ∀ k : Nat, (workers[k]?).map Worker.records = (s.workers[k]?).map Worker.records) :
    ({ s with workers } : System).roster = s.roster := by
  have hread {α : Type} (f : Nat × Bool × Bool → α) (k : Nat) :
      (workers[k]?).map (fun w => f w.records) = (s.workers[k]?).map (fun w => f w.records) := by
    have hk := congrArg (Option.map f) (h k)
    rw [Option.map_map, Option.map_map] at hk
    exact hk
  have htid (k : Nat) : (workers[k]?).map Worker.tid = (s.workers[k]?).map Worker.tid :=
    hread Prod.fst k
  have hany (f : Nat × Bool × Bool → Bool) (k : Nat) :
      (workers[k]?).any (fun w => f w.records) = (s.workers[k]?).any (fun w => f w.records) := by
    have hk := hread f k
    cases hw : workers[k]? with
    | none =>
      cases hs : s.workers[k]? with
      | none => rfl
      | some v =>
        rw [hw, hs] at hk
        cases hk
    | some w =>
      cases hs : s.workers[k]? with
      | none =>
        rw [hw, hs] at hk
        cases hk
      | some v =>
        rw [hw, hs] at hk
        exact Option.some.inj hk
  have hstarted (k : Nat) : (workers[k]?).any Worker.started = (s.workers[k]?).any Worker.started :=
    hany (fun r => r.2.1) k
  have hjoined (k : Nat) : (workers[k]?).any Worker.joined = (s.workers[k]?).any Worker.joined :=
    hany (fun r => r.2.2) k
  simp only [roster, hlength, htid, hstarted, hjoined]

theorem roster_goWorker (k : Nat) (y : WorkerPlace) : (s.goWorker k y).roster = s.roster := by
  apply roster_workers
  · rw [List.length_modify]
  · intro j
    rw [List.getElem?_modify]
    cases s.workers[j]? with
    | none => rfl
    | some w =>
      by_cases hj : k = j
      · simp [hj, Worker.records]
      · simp [hj]

theorem roster_notifyAllTasks : s.notifyAllTasks.roster = s.roster := by
  apply roster_workers
  · rw [List.length_map]
  · intro j
    rw [List.getElem?_map]
    cases s.workers[j]? with
    | none => rfl
    | some w =>
      by_cases hw : w.place = .parked
      · simp [hw, Worker.records]
      · simp [hw]

theorem roster_goCall (c : Nat) (y : CallPlace) : (s.goCall c y).roster = s.roster := by
  have hcaller (d : Nat) : ((s.goCall c y).calls[d]?).map Call.caller =
      (s.calls[d]?).map Call.caller := by
    simp only [goCall, List.getElem?_modify]
    cases s.calls[d]? with
    | none => rfl
    | some call =>
      by_cases hd : c = d
      · simp [hd]
      · simp [hd]
  show ({ s.roster with caller := fun d => ((s.goCall c y).calls[d]?).map Call.caller } : Roster) = _
  rw [funext hcaller]
  rfl

/-- What is read of the workers' records, where an entry changes in nothing that is read. -/
theorem read_modify {α : Type} (g : Option Worker → α) (f : Worker → Worker)
    (hf : ∀ w, g (some (f w)) = g (some w)) (workers : List Worker) (k j : Nat) :
    g (workers.modify k f)[j]? = g workers[j]? := by
  rw [List.getElem?_modify]
  cases workers[j]? with
  | none => rfl
  | some w =>
    by_cases hj : k = j
    · simp [hj, hf]
    · simp [hj]

/-- And where what is read of an entry is written. -/
theorem read_modify_self {α : Type} (g : Option Worker → α) (f : Worker → Worker) {v : α}
    (hf : ∀ w, g (some (f w)) = v) {workers : List Worker} {k : Nat} (hk : k < workers.length)
    (j : Nat) : g (workers.modify k f)[j]? = Function.update (fun i => g workers[i]?) k v j := by
  rw [List.getElem?_modify]
  by_cases hj : j = k
  · subst hj
    rw [Function.update_self, List.getElem?_eq_getElem hk]
    simp [hf]
  · rw [Function.update_of_ne hj]
    cases workers[j]? with
    | none => rfl
    | some w => simp [Ne.symm hj]

theorem roster_markJoined {k : Nat} (hk : k < s.workers.length) : (s.markJoined k).roster =
    { s.roster with joined := Function.update s.roster.joined k true } := by
  have htid (j : Nat) : (s.markJoined k).roster.tid j = s.roster.tid j :=
    read_modify (fun w => (w.map Worker.tid).getD 0) (fun w => { w with joined := true })
      (fun _ => rfl) _ k j
  have hstarted (j : Nat) : (s.markJoined k).roster.started j = s.roster.started j :=
    read_modify (fun w => w.any Worker.started) (fun w => { w with joined := true })
      (fun _ => rfl) _ k j
  have hjoined (j : Nat) : (s.markJoined k).roster.joined j =
      Function.update s.roster.joined k true j :=
    read_modify_self (fun w => w.any Worker.joined) (fun w => { w with joined := true })
      (fun _ => rfl) hk j
  have hlength : (s.markJoined k).roster.built = s.roster.built := List.length_modify ..
  calc (s.markJoined k).roster
      = { s.roster with
          built := (s.markJoined k).roster.built, tid := (s.markJoined k).roster.tid
          started := (s.markJoined k).roster.started
          joined := (s.markJoined k).roster.joined } := rfl
    _ = _ := by rw [hlength, funext htid, funext hstarted, funext hjoined]

theorem roster_startThread {k tid : Nat} {y : WorkerPlace} (hk : k < s.workers.length) :
    (s.startThread k tid y).roster =
      { s.roster with
        tid := Function.update s.roster.tid k tid
        started := Function.update s.roster.started k true } := by
  have htid (j : Nat) : (s.startThread k tid y).roster.tid j =
      Function.update s.roster.tid k tid j :=
    read_modify_self (fun w => (w.map Worker.tid).getD 0)
      (fun w => { w with place := y, tid, started := true }) (fun _ => rfl) hk j
  have hstarted (j : Nat) : (s.startThread k tid y).roster.started j =
      Function.update s.roster.started k true j :=
    read_modify_self (fun w => w.any Worker.started)
      (fun w => { w with place := y, tid, started := true }) (fun _ => rfl) hk j
  have hjoined (j : Nat) : (s.startThread k tid y).roster.joined j = s.roster.joined j :=
    read_modify (fun w => w.any Worker.joined)
      (fun w => { w with place := y, tid, started := true }) (fun _ => rfl) _ k j
  have hlength : (s.startThread k tid y).roster.built = s.roster.built := List.length_modify ..
  calc (s.startThread k tid y).roster
      = { s.roster with
          built := (s.startThread k tid y).roster.built
          tid := (s.startThread k tid y).roster.tid
          started := (s.startThread k tid y).roster.started
          joined := (s.startThread k tid y).roster.joined } := rfl
    _ = _ := by rw [hlength, funext htid, funext hstarted, funext hjoined]

/-- A thread that is built has no id and no flag yet, like one that does not exist. -/
theorem roster_build : s.build.roster =
    { s.roster with
      built := s.roster.built + 1, threadPool := s.roster.threadPool ++ [s.roster.built] } := by
  have hnew {α : Type} (f : Option Worker → α)
      (hf : f (some { place := .built, tid := 0, started := false, joined := false }) = f none)
      (j : Nat) : f (s.build.workers[j]?) = f (s.workers[j]?) := by
    simp only [build, List.getElem?_append]
    by_cases hlt : j < s.workers.length
    · simp [hlt]
    · rw [if_neg hlt, List.getElem?_eq_none (Nat.le_of_not_lt hlt)]
      by_cases hj : j - s.workers.length = 0
      · rw [hj]
        exact hf
      · rw [List.getElem?_eq_none]
        show 1 ≤ j - s.workers.length
        omega
  have htid (j : Nat) : s.build.roster.tid j = s.roster.tid j :=
    hnew (fun w => (w.map Worker.tid).getD 0) rfl j
  have hstarted (j : Nat) : s.build.roster.started j = s.roster.started j :=
    hnew (fun w => w.any Worker.started) rfl j
  have hjoined (j : Nat) : s.build.roster.joined j = s.roster.joined j :=
    hnew (fun w => w.any Worker.joined) rfl j
  have hlength : s.build.roster.built = s.roster.built + 1 := by simp [roster, build]
  calc s.build.roster
      = { s.roster with
          built := s.build.roster.built, threadPool := s.roster.threadPool ++ [s.roster.built]
          tid := s.build.roster.tid, started := s.build.roster.started
          joined := s.build.roster.joined } := rfl
    _ = _ := by rw [hlength, funext htid, funext hstarted, funext hjoined]

theorem roster_commit (caller : Caller) :
    ({ s with calls := s.calls ++ [{ caller, place := .check }] } : System).roster =
      { s.roster with
        caller := Function.update s.roster.caller s.calls.length (some caller) } := by
  have hcaller (d : Nat) : ((s.calls ++ [{ caller, place := .check }])[d]?).map Call.caller =
      Function.update s.roster.caller s.calls.length (some caller) d := by
    by_cases hd : d = s.calls.length
    · subst hd
      rw [Function.update_self]
      simp
    · rw [Function.update_of_ne hd]
      simp only [roster, List.getElem?_append]
      by_cases hlt : d < s.calls.length
      · simp [hlt]
      · have hsome : 0 < d - s.calls.length := by omega
        simp [hlt, Nat.ne_of_gt hsome]
  show ({ s.roster with caller := fun d =>
    ((s.calls ++ [{ caller, place := CallPlace.check }])[d]?).map Call.caller } : Roster) = _
  rw [funext hcaller]

theorem built_of_place {k : Nat} {x : WorkerPlace} (hx : s.placeOf (.worker k) = .worker x) :
    k < s.workers.length := by
  obtain ⟨w, hw, -⟩ := placeOf_worker_iff.mp hx
  exact (List.getElem?_eq_some_iff.mp hw).1

theorem lock_eq_some {m : Mutex} {p : Party} :
    s.lock m p = some s' ↔
      s.mutexes.owner m = none ∧ s' = { s with mutexes := s.mutexes.assign m (some p) } := by
  unfold lock
  rw [Option.ite_none_right_eq_some, Option.some.injEq, eq_comm (a := s')]

end System

theorem Mutexes.owner_assign (l : Mutexes) (m : Mutex) (p : Option Party) :
    (l.assign m p).owner = Function.update l.owner m p := by
  funext m'
  cases m with
  | tasks => cases m' <;> rfl
  | pool => cases m' <;> rfl
  | monitor => cases m' <;> rfl

end TurboNet.Base
