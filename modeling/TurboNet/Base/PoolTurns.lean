/-
# TurboNet.Base.PoolTurns — what a step of a pool can do.

The places of the source are many; what one party needs to know about another is little.  A worker
has a `Role` for the queue and a `Life` for whoever joins it, the data the parties act on are the
`Board` and the `Roster` of threads, and the guards a party holds are a function of its place.
`step_turn` says once what a step can do to these (`Turn`): who moves from where to where, which
mutex is taken or given up, what is written.  The invariants of the pool are derived from that and do
not look at the code again.
-/
import TurboNet.Lib.Mutex
import TurboNet.Base.ThreadPool

namespace TurboNet.Base

open TurboNet.Lib
open TurboNet.Logger (Build Halt)

/-! ## Places -/

/-- Where a party stands. -/
inductive Place where
  | absent
  | owner (x : OwnerPlace)
  | monitor (x : MonitorPlace)
  | worker (x : WorkerPlace)
  | call (x : CallPlace)
  deriving DecidableEq, Repr

def System.placeOf (s : System) : Party → Place
  | .owner => .owner s.owner
  | .monitor => .monitor s.monitor
  | .worker k =>
    match s.workers[k]? with
    | some w => .worker w.place
    | none => .absent
  | .call c =>
    match s.calls[c]? with
    | some call => .call call.place
    | none => .absent

/-- The `MutexLockGuard`s on a party's stack, the innermost first. -/
def AddPlace.guards : AddPlace → List Mutex
  | .check _ | .lock _ => []
  | _ => [.pool]

def WorkerPlace.guards : WorkerPlace → List Mutex
  | .loopTest | .idleTest | .retireIdle | .retireNow | .retireLock => [.tasks]
  | .handOver | .retireUnlock => [.monitor, .tasks]
  | .exitTest | .quitStatus | .quitIdle | .quitNow | .leave | .unlockTask _ => [.tasks]
  | _ => []

def CallPlace.guards : CallPlace → List Mutex
  | .sizeTest | .emplace | .unlock | .unwind => [.tasks]
  | .adding a => a.guards ++ [.tasks]
  | _ => []

def MonitorPlace.guards : MonitorPlace → List Mutex
  | .test | .statusTest | .reap | .lockPool | .unlock | .leave => [.monitor]
  | .find | .joining _ | .unlockPool => [.pool, .monitor]
  | _ => []

def OwnerPlace.guards : OwnerPlace → List Mutex
  | .adding a => a.guards
  | _ => []

def Place.guards : Place → List Mutex
  | .absent => []
  | .owner x => x.guards
  | .monitor x => x.guards
  | .worker x => x.guards
  | .call x => x.guards

/-- The worker a call of `AddThread` is about to count or to start, and where that one stands. -/
def AddPlace.target : AddPlace → Option (Nat × WorkerPlace)
  | .countIdle k _ => some (k, .built)
  | .countNow k _ => some (k, .idled)
  | .start k _ => some (k, .counted)
  | _ => none

def Place.target : Place → Option (Nat × WorkerPlace)
  | .owner (.adding a) => a.target
  | .call (.adding a) => a.target
  | _ => none

/-- The worker whose start latch a call of `AddThread` awaits. -/
def AddPlace.awaits : AddPlace → Option Nat
  | .await k _ => some k
  | _ => none

def Place.awaits : Place → Option Nat
  | .owner (.adding a) => a.awaits
  | .call (.adding a) => a.awaits
  | _ => none

/-- Has the call its assertion of `TPS_RUNNING` behind it? -/
def AddPlace.cleared : AddPlace → Bool
  | .check _ => false
  | _ => true

/-- Has the call both its assertions of `TPS_RUNNING` behind it, or no second one before it? -/
def CallPlace.cleared : CallPlace → Bool
  | .check | .lock | .sizeTest => false
  | .adding a => a.cleared
  | _ => true

/-- A party inside `AddThread`. -/
def Party.adding (p : Party) (a : AddPlace) : Place :=
  match p with
  | .owner => .owner (.adding a)
  | .call _ => .call (.adding a)
  | _ => .absent

/-! ## Roles -/

/-- What the others need to know about a worker. -/
inductive Role where
  /-- Its `Thread` is built. -/
  | building
  /-- It is counted, and not started. -/
  | created
  | failed
  /-- It runs its loop and will look at the queue. -/
  | serving
  /-- It waits for a notification. -/
  | parked
  /-- Its wait has reported a time-out. -/
  | idling
  /-- It has taken the exit of idle workers, and is still counted. -/
  | retiring
  /-- It has taken the exit of a pool shut down, and is still counted. -/
  | quitting
  /-- It is on its way out and not counted any more. -/
  | going
  | holding (t : Task)
  | ended
  deriving DecidableEq, Repr

def WorkerPlace.role : WorkerPlace → Role
  | .built | .idled => .building
  | .counted => .created
  | .failed => .failed
  | .starting | .lockTasks | .loopTest | .woken | .exitTest | .endTask => .serving
  | .parked => .parked
  | .idleTest => .idling
  | .retireIdle | .retireNow => .retiring
  | .quitStatus | .quitIdle | .quitNow => .quitting
  | .retireLock | .handOver | .retireUnlock | .leave => .going
  | .unlockTask t | .beginTask t | .running t => .holding t
  | .ended => .ended

/-- Is the worker in `now_thread_num_`? -/
def Role.counted : Role → Bool
  | .building | .going | .ended => false
  | _ => true

/-- Is the worker on its way out? -/
def Role.leaving : Role → Bool
  | .retiring | .quitting | .going | .ended => true
  | _ => false

/-- Has the worker's thread been created? -/
def Role.grown : Role → Bool
  | .building | .created | .failed => false
  | _ => true

/-- How far a worker's thread has come. -/
inductive Life where
  | unborn
  /-- It has work to do, or will leave by the exit of a pool shut down. -/
  | working
  /-- It waits, or is on its way to the exit of idle workers. -/
  | waiting
  /-- It has handed its id to the monitor. -/
  | handed
  | leaving
  | ended
  deriving DecidableEq, Repr

def WorkerPlace.life : WorkerPlace → Life
  | .built | .idled | .counted | .failed => .unborn
  | .parked | .woken | .idleTest | .retireIdle | .retireNow | .retireLock | .handOver => .waiting
  | .retireUnlock => .handed
  | .leave => .leaving
  | .ended => .ended
  | _ => .working

/-- Is the worker in `idle_thread_num_`? -/
def WorkerPlace.idle : WorkerPlace → Bool
  | .built | .retireNow | .retireLock | .handOver | .retireUnlock | .quitNow | .leave | .ended
  | .running _ | .endTask => false
  | _ => true

/-- What a call of `Commit` has done for its task. -/
inductive Stage where
  | unpushed
  /-- Pushed, and no worker notified yet. -/
  | pending
  | returned
  deriving DecidableEq, Repr

def CallPlace.stage : CallPlace → Stage
  | .unlock | .notify => .pending
  | .returned => .returned
  | _ => .unpushed

/-- The data the parties share. -/
structure Board where
  status : ThreadPoolStatus
  now : Nat
  tasks : List Task
  history : History

def System.board (s : System) : Board where
  status := s.pool.status
  now := s.pool.nowThreadNum
  tasks := s.pool.tasks
  history := s.history

/-- The threads: how many were built, the lists of the pool, and by its number the id of a thread
(0 before it has one) and what its `Thread` records.  `caller` says who made a call. -/
structure Roster where
  built : Nat
  idle : Nat
  threadPool : List Nat
  free : List Nat
  retired : List Nat
  tid : Nat → Nat
  started : Nat → Bool
  joined : Nat → Bool
  caller : Nat → Option Caller

def System.roster (s : System) : Roster where
  built := s.workers.length
  idle := s.pool.idleThreadNum
  threadPool := s.pool.threadPool
  free := s.pool.monitorThreadFree
  retired := s.retired
  tid := fun k => ((s.workers[k]?).map Worker.tid).getD 0
  started := fun k => (s.workers[k]?).any Worker.started
  joined := fun k => (s.workers[k]?).any Worker.joined
  caller := fun c => (s.calls[c]?).map Call.caller

/-! ## Turns -/

/-- Does this end come from joining or erasing a thread? -/
def FromJoin (h : Halt) : Prop :=
  h = .undefined "no such thread" ∨ h = .assertFailed "started_ && !joined_" ∨
    h = .undefined "null thread_" ∨ h = .undefined "a second join of a std::thread" ∨
    h = .undefined "iterator to an erased node"

/-- What the moves of the others can do to the monitor. -/
inductive Beside : MonitorPlace → MonitorPlace → Prop
  | still {x : MonitorPlace} : Beside x x
  | created : Beside .absent .starting
  | notified : Beside .parked .woken

/-- Party `p` goes from `x` to `y`.  At most the monitor's place and that of `also` change with it,
and nobody else's guards do. -/
structure Move (s s' : System) (p : Party) (x y : Place) (also : Option Party) : Prop where
  before : s.placeOf p = x
  after : s'.placeOf p = y
  others : ∀ q, q ≠ p → q ≠ .monitor → some q ≠ also → s'.placeOf q = s.placeOf q
  guards : ∀ q, q ≠ p → (s'.placeOf q).guards = (s.placeOf q).guards
  locks : GuardMove p x.guards y.guards s.mutexes.owner s'.mutexes.owner
  beside : p ≠ .monitor → Beside s.monitor s'.monitor
  halted : s'.halted = s.halted ∨ ∃ h, ¬ FromJoin h ∧ s'.halted = some h

/-- What worker `k` can do. -/
inductive WorkerTurn (cfg : Config) (k : Nat) :
    Act → WorkerPlace → WorkerPlace → Board → Board → Prop
  | quiet {act : Act} {x y : WorkerPlace} {b : Board} (hrole : y.role = x.role)
      (hgrown : x.role.grown = true)
      (hexit : y = .exitTest → b.status = .running → b.tasks ≠ [] := by simp) :
      WorkerTurn cfg k act x y b b
  | park {act : Act} {b : Board} (hrunning : b.status = .running) (hempty : b.tasks = []) :
      WorkerTurn cfg k act .loopTest .parked b b
  | wake {act : Act} {b : Board} : WorkerTurn cfg k act .parked .woken b b
  | timeOut {env : Env} {b : Board} (h : env.timedOut = true) :
      WorkerTurn cfg k (.move (.worker k) env) .woken .idleTest b b
  | stay {act : Act} {b : Board} : WorkerTurn cfg k act .idleTest .loopTest b b
  | retire {act : Act} {b : Board} (h : cfg.corePoolSize < b.now) :
      WorkerTurn cfg k act .idleTest .retireIdle b b
  | quit {act : Act} {b : Board} (hstatus : b.status ≠ .running) (hempty : b.tasks = []) :
      WorkerTurn cfg k act .exitTest .quitStatus b b
  | terminate {act : Act} {b : Board} :
      WorkerTurn cfg k act .quitStatus .quitIdle b { b with status := .terminated }
  | uncount {act : Act} {x y : WorkerPlace} {b : Board}
      (hx : x.role = .retiring ∨ x.role = .quitting) (hy : y.role = .going) :
      WorkerTurn cfg k act x y b { b with now := usub 32 b.now 1 }
  | leave {act : Act} {b : Board} : WorkerTurn cfg k act .leave .ended b b
  | pop {act : Act} {t : Task} {rest : List Task} {b : Board} (h : b.tasks = t :: rest) :
      WorkerTurn cfg k act .exitTest (.unlockTask t) b
        { b with tasks := rest, history.popped := b.history.popped ++ [(k, t)] }
  | finish {act : Act} {t : Task} {b : Board} :
      WorkerTurn cfg k act (.running t) .endTask b
        { b with history.executed := b.history.executed ++ [(k, t)] }

/-- What call `c` of `Commit` can do outside the growing steps of `AddThread` and its
notification. -/
inductive CallTurn (c : Nat) : CallPlace → CallPlace → Board → Board → Prop
  | quiet {x y : CallPlace} {b : Board} (hstage : y.stage = x.stage)
      (hx : (Place.call x).target = none) (hy : (Place.call y).target = none)
      (hawaits : (Place.call y).awaits = none) (hcleared : x.cleared = true → y.cleared = true) :
      CallTurn c x y b b
  | push {b : Board} :
      CallTurn c .emplace .unlock b
        { b with tasks := b.tasks ++ [c], history.pushed := b.history.pushed ++ [c] }

/-- Is the constructor still running? -/
def OwnerPlace.constructing : OwnerPlace → Bool
  | .startMonitor | .awaitMonitor | .adding _ | .terminated => true
  | _ => false

/-- The threads that the constructor has still to count, unless it fails. -/
def OwnerPlace.remaining (cfg : Config) : OwnerPlace → Nat
  | .startMonitor | .awaitMonitor | .adding .unwind | .terminated => cfg.corePoolSize
  | .adding (.check size) | .adding (.lock size) | .adding (.test size) => size
  | .adding (.countIdle _ size) | .adding (.countNow _ size) => size
  | .adding (.start _ size) | .adding (.await _ size) => size - 1
  | _ => 0

/-- What the owner can do outside the growing steps of `AddThread`. -/
inductive OwnerTurn (cfg : Config) (b : Board) : OwnerPlace → OwnerPlace → Prop
  | quiet {x y : OwnerPlace} (hremaining : y.remaining cfg = x.remaining cfg)
      (hphase : y.constructing = true → x.constructing = true)
      (hx : (Place.owner x).target = none) (hy : (Place.owner y).target = none) :
      OwnerTurn cfg b x y
  | grown {size : Nat} (h : ¬ (b.now < cfg.maxPoolSize ∧ 0 < size)) :
      OwnerTurn cfg b (.adding (.test size)) (.adding .unlock)

/-- The growing steps of `AddThread`: worker `k` goes from `z` to `z'`. -/
inductive Growth (cfg : Config) (env : Env) (k size : Nat) :
    AddPlace → AddPlace → Place → Place → Board → Board → Prop
  | build {b : Board} (hroom : b.now < cfg.maxPoolSize) (hsize : 0 < size) :
      Growth cfg env k size (.test size) (.countIdle k size) .absent (.worker .built) b b
  | countIdle {b : Board} :
      Growth cfg env k size (.countIdle k size) (.countNow k size)
        (.worker .built) (.worker .idled) b b
  | countNow {b : Board} :
      Growth cfg env k size (.countNow k size) (.start k size)
        (.worker .idled) (.worker .counted) b { b with now := uadd 32 b.now 1 }
  | start {b : Board} :
      Growth cfg env k size (.start k size) (.await k size)
        (.worker .counted) (.worker .starting) b b
  | fail {b : Board} (h : env.created = false) :
      Growth cfg env k size (.start k size) .unwind (.worker .counted) (.worker .failed) b b

/-! ### The threads -/

/-- What the move of worker `k` from `x` to `y` does to the roster. -/
inductive WorkerStir (k : Nat) : WorkerPlace → WorkerPlace → Roster → Roster → Prop
  | quiet {x y : WorkerPlace} {r : Roster} (hlife : y.life = x.life) (hidle : y.idle = x.idle) :
      WorkerStir k x y r r
  | park {r : Roster} : WorkerStir k .loopTest .parked r r
  | resume {x : WorkerPlace} {r : Roster} (hx : x = .woken ∨ x = .idleTest) :
      WorkerStir k x .loopTest r r
  | decIdle {x y : WorkerPlace} {r : Roster} (hlife : y.life = x.life) (hx : x.idle = true)
      (hy : y.idle = false) : WorkerStir k x y r { r with idle := usub 32 r.idle 1 }
  | incIdle {r : Roster} :
      WorkerStir k .endTask .lockTasks r { r with idle := uadd 32 r.idle 1 }
  | handOver {r : Roster} : WorkerStir k .handOver .retireUnlock r
      { r with free := r.free ++ [r.tid k], retired := r.retired ++ [k] }
  | pass {r : Roster} : WorkerStir k .retireUnlock .leave r r
  | quit {r : Roster} : WorkerStir k .quitNow .leave r r
  | leave {r : Roster} : WorkerStir k .leave .ended r r

/-- What a growing step of `AddThread` does to the roster. -/
inductive GrowthStir (s : System) (k size : Nat) :
    AddPlace → AddPlace → Roster → Roster → Prop
  | build {r : Roster} (hk : k = r.built) : GrowthStir s k size (.test size) (.countIdle k size) r
      { r with built := r.built + 1, threadPool := r.threadPool ++ [k] }
  | countIdle {r : Roster} : GrowthStir s k size (.countIdle k size) (.countNow k size) r
      { r with idle := uadd 32 r.idle 1 }
  | countNow {r : Roster} : GrowthStir s k size (.countNow k size) (.start k size) r r
  | start {r : Roster} {tid : Nat} (hpos : 0 < tid) (hfree : ∀ j x,
        s.placeOf (.worker j) = .worker x → x.alive = true → r.tid j ≠ tid) :
      GrowthStir s k size (.start k size) (.await k size) r
      { r with
        tid := Function.update r.tid k tid, started := Function.update r.started k true }
  | fail {r : Roster} : GrowthStir s k size (.start k size) .unwind r
      { r with tid := Function.update r.tid k 0, started := Function.update r.started k true }

/-- Is the monitor between `lock()` and `unlock()` of `thread_pool_mutex_`, or about to lock it? -/
def MonitorPlace.reaping : MonitorPlace → Bool
  | .lockPool | .find | .joining _ | .unlockPool => true
  | _ => false

/-- What a move of the monitor from `x` to `y` does to the roster.  `std::find_if` gives the first
match. -/
inductive MonitorStir (s : System) : MonitorPlace → MonitorPlace → Roster → Roster → Prop
  | quiet {x y : MonitorPlace} {r : Roster} (hx : x.reaping = false) (hy : y.reaping = false) :
      MonitorStir s x y r r
  | enter {r : Roster} (hfree : r.free ≠ []) : MonitorStir s .reap .lockPool r r
  | look {r : Roster} : MonitorStir s .lockPool .find r r
  | miss {tid : Nat} {rest : List Nat} {r : Roster} (hfree : r.free = tid :: rest)
      (hnone : ∀ k ∈ r.threadPool, k < r.built → r.tid k ≠ tid) :
      MonitorStir s .find .unlockPool r r
  | join {tid k : Nat} {rest before after : List Nat} {r : Roster} (hfree : r.free = tid :: rest)
      (hpool : r.threadPool = before ++ k :: after)
      (hbefore : ∀ j ∈ before, j < r.built → r.tid j ≠ tid) (hbuilt : k < r.built)
      (htid : r.tid k = tid) (hjoined : r.joined k = false) :
      MonitorStir s .find (.joining k) r { r with joined := Function.update r.joined k true }
  | erase {k : Nat} {r : Roster} (hended : s.placeOf (.worker k) = .worker .ended) :
      MonitorStir s (.joining k) .unlockPool r { r with threadPool := r.threadPool.erase k }
  | next {r : Roster} : MonitorStir s .unlockPool .reap r { r with free := r.free.tail }

/-- Is the owner in the loop of the destructor, or past it? -/
def OwnerPlace.walking : OwnerPlace → Bool
  | .walk _ | .joining _ | .destroyed => true
  | _ => false

/-- What a move of the owner outside the growing steps of `AddThread` does to the roster. -/
inductive OwnerStir (s : System) : OwnerPlace → OwnerPlace → Roster → Roster → Prop
  | quiet {x y : OwnerPlace} {r : Roster} (hx : x.walking = false) (hy : y.walking = false) :
      OwnerStir s x y r r
  | join {k : Nat} {r : Roster} (hmem : k ∈ r.threadPool) (hjoined : r.joined k = false) :
      OwnerStir s (.walk (some k)) (.joining k) r { r with joined := Function.update r.joined k true }
  | next {k : Nat} {r : Roster} (hended : s.placeOf (.worker k) = .worker .ended)
      (hmem : k ∈ r.threadPool) :
      OwnerStir s (.joining k) (.walk (r.threadPool.dropWhile (· != k)).tail.head?) r r
  | finish {r : Roster} : OwnerStir s (.walk none) .destroyed r r

/-- Why a `Join` of thread `k` ends the process. -/
inductive JoinFails (r : Roster) (k : Nat) : Halt → Prop
  | absent (h : r.built ≤ k) : JoinFails r k (.undefined "no such thread")
  | assert (h : r.started k = false ∨ r.joined k = true) :
      JoinFails r k (.assertFailed "started_ && !joined_")
  | null : JoinFails r k (.undefined "null thread_")
  | again (h : r.joined k = true) : JoinFails r k (.undefined "a second join of a std::thread")

/-- Why a step ends the process. -/
inductive HaltCause (s : System) : Halt → Prop
  | other {h : Halt} (hh : ¬ FromJoin h) : HaltCause s h
  | monitor {tid k : Nat} {rest before after : List Nat} {h : Halt}
      (hplace : s.monitor = .find) (hfree : s.roster.free = tid :: rest)
      (hpool : s.roster.threadPool = before ++ k :: after)
      (hbefore : ∀ j ∈ before, j < s.roster.built → s.roster.tid j ≠ tid)
      (hbuilt : k < s.roster.built) (htid : s.roster.tid k = tid)
      (hfails : JoinFails s.roster k h) : HaltCause s h
  | owner {k : Nat} {h : Halt} (hplace : s.owner = .walk (some k)) (hmem : k ∈ s.roster.threadPool)
      (hfails : JoinFails s.roster k h) : HaltCause s h
  | erased {k : Nat} {h : Halt} (hplace : s.owner = .walk (some k) ∨ s.owner = .joining k)
      (hmem : k ∉ s.roster.threadPool) : HaltCause s h

/-- Has the destructor been called? -/
def OwnerPlace.closing : OwnerPlace → Bool
  | .notifyMonitor | .notifyAll | .walk _ | .joining _ | .destroyed => true
  | _ => false

/-- Has the call of `Commit` come to its end? -/
def CallPlace.over : CallPlace → Bool
  | .returned | .threw => true
  | _ => false

/-- No thread of the program is in a call of `Commit`. -/
def System.ExternalsOver (s : System) : Prop :=
  ∀ c x, s.placeOf (.call c) = .call x → s.roster.caller c = some .external → x.over = true

/-- What a step can do. -/
inductive Turn (cfg : Config) (s s' : System) : Act → Prop
  | worker {act : Act} {k : Nat} {x y : WorkerPlace}
      (hmove : Move s s' (.worker k) (.worker x) (.worker y) none)
      (h : WorkerTurn cfg k act x y s.board s'.board) (hstir : WorkerStir k x y s.roster s'.roster)
      (hdone : ∀ t, x = .running t → s.inCall k = false) : Turn cfg s s' act
  | call {env : Env} {c : Nat} {x y : CallPlace}
      (hmove : Move s s' (.call c) (.call x) (.call y) none)
      (h : CallTurn c x y s.board s'.board) (hroster : s'.roster = s.roster)
      (hlive : x.over = false) : Turn cfg s s' (.move (.call c) env)
  | notify {act : Act} {c k : Nat}
      (hmove : Move s s' (.call c) (.call .notify) (.call .returned) (some (.worker k)))
      (hparked : s.placeOf (.worker k) = .worker .parked)
      (hwoken : s'.placeOf (.worker k) = .worker .woken)
      (hboard : s'.board = s.board) (hroster : s'.roster = s.roster) : Turn cfg s s' act
  | notifyNone {act : Act} {c : Nat}
      (hmove : Move s s' (.call c) (.call .notify) (.call .returned) none)
      (hnone : ∀ k, s.placeOf (.worker k) ≠ .worker .parked)
      (hboard : s'.board = s.board) (hroster : s'.roster = s.roster) : Turn cfg s s' act
  | owner {act : Act} {x y : OwnerPlace}
      (hmove : Move s s' .owner (.owner x) (.owner y) none)
      (h : OwnerTurn cfg s.board x y) (hboard : s'.board = s.board)
      (hstir : OwnerStir s x y s.roster s'.roster)
      (hclose : y.closing = x.closing ∨ x = .constructed ∧ s.ExternalsOver)
      (hact : (∃ env, act = .move .owner env) ∨ x = .constructed) : Turn cfg s s' act
  | notifyAll {env : Env} {it : Option Nat}
      (hbefore : s.placeOf .owner = .owner .notifyAll)
      (hafter : s'.placeOf .owner = .owner (.walk it))
      (hworkers : ∀ k, s'.placeOf (.worker k) =
        if s.placeOf (.worker k) = .worker .parked then .worker .woken else s.placeOf (.worker k))
      (hcalls : ∀ c, s'.placeOf (.call c) = s.placeOf (.call c))
      (hmonitor : s'.placeOf .monitor = s.placeOf .monitor)
      (hlocks : s'.mutexes = s.mutexes) (hboard : s'.board = s.board)
      (hroster : s'.roster = s.roster) (hit : it = s.roster.threadPool.head?)
      (hhalted : s'.halted = s.halted) : Turn cfg s s' (.move .owner env)
  | grow {env : Env} {p : Party} {k size : Nat} {a a' : AddPlace} {z z' : Place}
      (hp : p = .owner ∨ ∃ c, p = .call c)
      (hmove : Move s s' p (p.adding a) (p.adding a') (some (.worker k)))
      (hbefore : s.placeOf (.worker k) = z) (hafter : s'.placeOf (.worker k) = z')
      (h : Growth cfg env k size a a' z z' s.board s'.board)
      (hstir : GrowthStir s k size a a' s.roster s'.roster) : Turn cfg s s' (.move p env)
  | monitor {act : Act} {x y : MonitorPlace}
      (hmove : Move s s' .monitor (.monitor x) (.monitor y) none)
      (hboard : s'.board = s.board) (hstir : MonitorStir s x y s.roster s'.roster)
      (hact : (∃ env, act = .move .monitor env ∧ x ≠ .ended) ∨ x = .parked ∧ y = .woken) :
      Turn cfg s s' act
  | commit {caller : Caller} {c : Nat} (hmay : s.mayCall caller = true)
      (hmove : Move s s' (.call c) .absent (.call .check) none)
      (hboard : s'.board = s.board) (hroster : s'.roster =
        { s.roster with caller := Function.update s.roster.caller c (some caller) }) :
      Turn cfg s s' (.commit caller)
  | shutDown {caller : Caller} (hplaces : s'.placeOf = s.placeOf) (hlocks : s'.mutexes = s.mutexes)
      (hboard : s'.board = { s.board with status := .shutdown }) (hroster : s'.roster = s.roster)
      (hhalted : s'.halted = s.halted) : Turn cfg s s' (.shutDown caller)
  | still {act : Act} {h : Halt} (hplaces : s'.placeOf = s.placeOf) (hlocks : s'.mutexes = s.mutexes)
      (hboard : s'.board = s.board) (hroster : s'.roster = s.roster) (hhalted : s'.halted = some h)
      (hcause : HaltCause s h) : Turn cfg s s' act

/-! ## A turn seen by one party -/

/-- What a step does to worker `j`. -/
inductive WorkerView (cfg : Config) (s s' : System) (act : Act) (j : Nat) : Prop
  | same (h : s'.placeOf (.worker j) = s.placeOf (.worker j))
  | turn {x y : WorkerPlace} (hmove : Move s s' (.worker j) (.worker x) (.worker y) none)
      (h : WorkerTurn cfg j act x y s.board s'.board) (hstir : WorkerStir j x y s.roster s'.roster)
  | woken (hbefore : s.placeOf (.worker j) = .worker .parked)
      (hafter : s'.placeOf (.worker j) = .worker .woken) (hboard : s'.board = s.board)
  | grown {env : Env} {size : Nat} {a a' : AddPlace} {z z' : Place} (hact : ∃ p, act = .move p env)
      (hbefore : s.placeOf (.worker j) = z) (hafter : s'.placeOf (.worker j) = z')
      (h : Growth cfg env j size a a' z z' s.board s'.board)
      (hstir : GrowthStir s j size a a' s.roster s'.roster)

/-- What a step does to call `c`. -/
inductive CallView (cfg : Config) (s s' : System) (act : Act) (c : Nat) : Prop
  | same (h : s'.placeOf (.call c) = s.placeOf (.call c))
  | turn {x y : CallPlace} (hmove : Move s s' (.call c) (.call x) (.call y) none)
      (h : CallTurn c x y s.board s'.board) (hlive : x.over = false)
  | notified (hbefore : s.placeOf (.call c) = .call .notify)
      (hafter : s'.placeOf (.call c) = .call .returned)
      (hwho : (∃ k, s'.placeOf (.worker k) = .worker .woken) ∨
        ∀ k, s.placeOf (.worker k) ≠ .worker .parked ∧
          s'.placeOf (.worker k) = s.placeOf (.worker k))
      (hboard : s'.board = s.board)
  | grown {env : Env} {k size : Nat} {a a' : AddPlace} {z z' : Place}
      (hmove : Move s s' (.call c) (.call (.adding a)) (.call (.adding a')) (some (.worker k)))
      (hbefore : s.placeOf (.worker k) = z) (hafter : s'.placeOf (.worker k) = z')
      (h : Growth cfg env k size a a' z z' s.board s'.board)
  | begun (hbefore : s.placeOf (.call c) = .absent) (hafter : s'.placeOf (.call c) = .call .check)
      (hboard : s'.board = s.board)

theorem Turn.worker_view {cfg : Config} {s s' : System} {act : Act} (h : Turn cfg s s' act)
    (j : Nat) : WorkerView cfg s s' act j := by
  -- a move of another party that takes no worker along
  have hsame {p : Party} {x y : Place} (hmove : Move s s' p x y none) (hp : p ≠ .worker j) :
      WorkerView cfg s s' act j := .same (hmove.others _ hp.symm (by simp) (by simp))
  cases h with
  | @worker _ k x y hmove hturn hstir =>
    by_cases hj : j = k
    · subst hj
      exact .turn hmove hturn hstir
    · exact hsame hmove (by simpa using Ne.symm hj)
  | call hmove => exact hsame hmove (by simp)
  | @notify _ c k hmove hparked hwoken hboard =>
    by_cases hj : j = k
    · subst hj
      exact .woken hparked hwoken hboard
    · exact .same (hmove.others _ (by simp) (by simp) (by simpa using hj))
  | notifyNone hmove => exact hsame hmove (by simp)
  | owner hmove => exact hsame hmove (by simp)
  | notifyAll _ _ hworkers _ _ _ hboard =>
    have hafter := hworkers j
    split at hafter
    · rename_i hparked
      exact .woken hparked hafter hboard
    · exact .same hafter
  | @grow env p k size a a' z z' hp hmove hbefore hafter hgrowth hstir =>
    by_cases hj : j = k
    · subst hj
      exact .grown ⟨p, rfl⟩ hbefore hafter hgrowth hstir
    · have hne : Party.worker j ≠ p := by
        rcases hp with rfl | ⟨c, rfl⟩
        · simp
        · simp
      exact .same (hmove.others _ hne (by simp) (by simpa using hj))
  | monitor hmove => exact hsame hmove (by simp)
  | commit _ hmove => exact hsame hmove (by simp)
  | shutDown hplaces => exact .same (congrFun hplaces _)
  | still hplaces => exact .same (congrFun hplaces _)

theorem Turn.call_view {cfg : Config} {s s' : System} {act : Act} (h : Turn cfg s s' act)
    (d : Nat) : CallView cfg s s' act d := by
  have hsame {p : Party} {x y : Place} {also : Option Party} (hmove : Move s s' p x y also)
      (hp : p ≠ .call d) (halso : also ≠ some (.call d)) : CallView cfg s s' act d :=
    .same (hmove.others _ hp.symm (by simp) halso.symm)
  cases h with
  | worker hmove => exact hsame hmove (by simp) (by simp)
  | @call _ c x y hmove hturn _ hlive =>
    by_cases hd : d = c
    · subst hd
      exact .turn hmove hturn hlive
    · exact hsame hmove (by simpa using Ne.symm hd) (by simp)
  | @notify _ c k hmove _ hwoken hboard =>
    by_cases hd : d = c
    · subst hd
      exact .notified hmove.before hmove.after (.inl ⟨k, hwoken⟩) hboard
    · exact hsame hmove (by simpa using Ne.symm hd) (by simp)
  | @notifyNone _ c hmove hnone hboard =>
    by_cases hd : d = c
    · subst hd
      refine .notified hmove.before hmove.after (.inr fun k => ⟨hnone k, ?_⟩) hboard
      exact hmove.others _ (by simp) (by simp) (by simp)
    · exact hsame hmove (by simpa using Ne.symm hd) (by simp)
  | owner hmove => exact hsame hmove (by simp) (by simp)
  | notifyAll _ _ _ hcalls => exact .same (hcalls d)
  | @grow env p k size a a' z z' hp hmove hbefore hafter hgrowth =>
    rcases hp with rfl | ⟨c, rfl⟩
    · exact hsame hmove (by simp) (by simp)
    · by_cases hd : d = c
      · subst hd
        exact .grown hmove hbefore hafter hgrowth
      · exact hsame hmove (by simpa using Ne.symm hd) (by simp)
  | monitor hmove => exact hsame hmove (by simp) (by simp)
  | @commit _ c _ hmove hboard =>
    by_cases hd : d = c
    · subst hd
      exact .begun hmove.before hmove.after hboard
    · exact hsame hmove (by simpa using Ne.symm hd) (by simp)
  | shutDown hplaces => exact .same (congrFun hplaces _)
  | still hplaces => exact .same (congrFun hplaces _)

end TurboNet.Base
