/-
# TurboNet.Base.ThreadPool — the code of the thread pool, step by step.

Each function takes a party at a place of the source to its next place, with the effect of the
statement in between; `none` means that the party has to wait (for a mutex, a latch, another
thread's end) or that it has no statement left.  What the program does not decide comes with the
step (`Env`): whether a wait ends by its time-out, whom a notification wakes, whether a thread can be
created and the id the kernel gives it.

Not part of the model: thread names, `idle_timeout_seconds` (a wait may time out whenever it likes)
and what a task computes (it may call `Commit` and `ShutDown` and takes as long as it takes; a
`packaged_task` keeps its exceptions).
-/
import TurboNet.Lib.StepSystem
import TurboNet.Base.PoolState

namespace TurboNet.Base

open TurboNet.Lib
open TurboNet.Logger (Build Halt)

/-- What the environment decides in a step. -/
structure Env where
  timedOut : Bool := false
  waiter : Nat := 0
  created : Bool := true
  tid : Nat := 0
  deriving DecidableEq, Repr

namespace System

variable (s : System)

/-- Has the thread of worker `k` counted its latch down? -/
def latchOpen (k : Nat) : Bool :=
  (s.workers[k]?).any fun w =>
    match w.place with
    | .built | .idled | .counted | .failed | .starting => false
    | _ => true

/-- The kernel gives a new thread an id that no living thread has. -/
def tidFree (tid : Nat) : Bool :=
  0 < tid && s.workers.all fun w => !(w.place.alive && w.tid == tid)

/-- Is a call of `Commit` that worker `k` made from its task under way? -/
def inCall (k : Nat) : Bool :=
  s.calls.any fun call =>
    call.caller == .task k && call.place != .returned && call.place != .threw

/-- May `caller` call a function of the pool now? -/
def mayCall : Caller → Bool
  | .external => s.owner == .constructed
  | .task k =>
    (s.workers[k]?).any fun w =>
      match w.place with
      | .running _ => !s.inCall k
      | _ => false

/-- `Thread::Join` up to `thread_->join()`. -/
def join (B : Build) (k : Nat) : Except Halt System :=
  match s.workers[k]? with
  | none => .error (.undefined "no such thread")
  | some w =>
    if B.asserts && !(w.started && !w.joined) then
      .error (.assertFailed "started_ && !joined_")
    else if !w.place.alive && w.place != .ended then
      .error (.undefined "null thread_")
    else if w.joined then
      .error (.undefined "a second join of a std::thread")
    else
      .ok (s.markJoined k)

/-! ## `AddThread` -/

/-- What comes after a step of `AddThread`. -/
inductive AddNext where
  | at (a : AddPlace)
  | returned
  | threw
  | halted (h : Halt)
  deriving DecidableEq, Repr

/-- A step of `AddThread` in party `p`. -/
def addThread (cfg : Config) (B : Build) (env : Env) (p : Party) :
    AddPlace → Option (System × AddNext)
  | .check size =>
    if B.asserts → s.pool.status = .running then
      some (s, .at (.lock size))
    else
      some (s, .halted (.assertFailed "thread_pool_status_ == TPS_RUNNING"))
  | .lock size => (s.lock .pool p).map fun s => (s, .at (.test size))
  | .test size =>
    if s.pool.nowThreadNum < cfg.maxPoolSize ∧ 0 < size then
      some (s.build, .at (.countIdle s.workers.length size))
    else
      some (s, .at .unlock)
  | .countIdle k size => some (s.incIdle.goWorker k .idled, .at (.countNow k size))
  | .countNow k size => some (s.incNow.goWorker k .counted, .at (.start k size))
  | .start k size =>
    if B.asserts && (s.workers[k]?).any fun w => w.started then
      some (s, .halted (.assertFailed "!started_"))
    else if env.created then
      if s.tidFree env.tid then
        some (s.startThread k env.tid .starting, .at (.await k size))
      else none
    else
      some (s.startThread k 0 .failed, .at .unwind)
  | .await k size =>
    if s.latchOpen k then
      if B.asserts && (s.workers[k]?).any fun w => w.tid == 0 then
        some (s, .halted (.assertFailed "tid_ > 0"))
      else
        some (s, .at (.test (size - 1)))
    else none
  | .unlock => some (s.unlock .pool, .returned)
  | .unwind => some (s.unlock .pool, .threw)

/-! ## The lambda of `AddThread` -/

/-- A step of worker `k`, which stands at `x`. -/
def workerStep (cfg : Config) (env : Env) (k : Nat) (x : WorkerPlace) : Option System :=
  match x with
  | .built | .idled | .counted | .failed | .parked | .ended => none
  | .starting => some (s.goWorker k .lockTasks)
  | .lockTasks => (s.lock .tasks (.worker k)).map (·.goWorker k .loopTest)
  | .loopTest =>
    if s.pool.status = .running ∧ s.pool.tasks = [] then
      -- `WaitForSeconds` gives `tasks_mutex_` up and waits in one
      some ((s.unlock .tasks).goWorker k .parked)
    else
      some (s.goWorker k .exitTest)
  | .woken =>
    (s.lock .tasks (.worker k)).map (·.goWorker k (if env.timedOut then .idleTest else .loopTest))
  | .idleTest =>
    if cfg.corePoolSize < s.pool.nowThreadNum then
      some (s.goWorker k .retireIdle)
    else
      some (s.goWorker k .loopTest)
  | .retireIdle => some (s.decIdle.goWorker k .retireNow)
  | .retireNow => some (s.decNow.goWorker k .retireLock)
  | .retireLock => (s.lock .monitor (.worker k)).map (·.goWorker k .handOver)
  | .handOver => some ((s.emplaceFree k).notifyMonitor.goWorker k .retireUnlock)
  | .retireUnlock => some ((s.unlock .monitor).goWorker k .leave)
  | .exitTest =>
    if s.pool.status ≠ .running ∧ s.pool.tasks = [] then
      some (s.goWorker k .quitStatus)
    else
      match s.pool.tasks with
      | [] => some (s.halt (.undefined "front of an empty deque"))
      | t :: rest => some ((s.pop k t rest).goWorker k (.unlockTask t))
  | .quitStatus => some ((s.setStatus .terminated).goWorker k .quitIdle)
  | .quitIdle => some (s.decIdle.goWorker k .quitNow)
  | .quitNow => some (s.decNow.goWorker k .leave)
  | .leave => some ((s.unlock .tasks).goWorker k .ended)
  | .unlockTask t => some ((s.unlock .tasks).goWorker k (.beginTask t))
  | .beginTask t => some (s.decIdle.goWorker k (.running t))
  | .running t => if s.inCall k then none else some ((s.execute k t).goWorker k .endTask)
  | .endTask => some (s.incIdle.goWorker k .lockTasks)

/-! ## `Commit` -/

/-- A step of call `c` of `Commit`, which stands at `x`. -/
def commitStep (cfg : Config) (B : Build) (env : Env) (c : Nat) (x : CallPlace) : Option System :=
  match x with
  | .returned | .threw => none
  | .check =>
    if B.asserts → s.pool.status = .running then
      some (s.goCall c .lock)
    else
      some (s.halt (.assertFailed "thread_pool_status_ == TPS_RUNNING"))
  | .lock => (s.lock .tasks (.call c)).map (·.goCall c .sizeTest)
  | .sizeTest =>
    if s.pool.tasks.length < cfg.maxTaskSize then
      some (s.goCall c .emplace)
    else
      some (s.goCall c (.adding (.check 1)))
  | .adding a =>
    (s.addThread cfg B env (.call c) a).map fun (s, next) =>
      match next with
      | .at a => s.goCall c (.adding a)
      | .returned => s.goCall c .emplace
      | .threw => s.goCall c .unwind
      | .halted h => s.halt h
  | .emplace => some ((s.push c).goCall c .unlock)
  | .unlock => some ((s.unlock .tasks).goCall c .notify)
  | .notify => (s.notifyTask env.waiter).map (·.goCall c .returned)
  | .unwind => some ((s.unlock .tasks).goCall c .threw)

/-! ## The monitor thread -/

/-- A step of the monitor thread, which stands at `x`.  The inner loop erases from the front, so its
iterator is always the first of `monitor_thread_free_`. -/
def monitorStep (B : Build) (x : MonitorPlace) : Option System :=
  match x with
  | .absent | .parked | .ended => none
  | .starting => some (s.goMonitor .lock)
  | .lock => (s.lock .monitor .monitor).map (·.goMonitor .test)
  | .test =>
    if s.pool.monitorThreadFree = [] then
      some ((s.unlock .monitor).goMonitor .parked)
    else
      some (s.goMonitor .reap)
  | .woken => (s.lock .monitor .monitor).map (·.goMonitor .statusTest)
  | .statusTest =>
    if s.pool.status ≠ .running then some (s.goMonitor .leave) else some (s.goMonitor .test)
  | .reap =>
    if s.pool.monitorThreadFree = [] then
      some (s.goMonitor .unlock)
    else
      some (s.goMonitor .lockPool)
  | .lockPool => (s.lock .pool .monitor).map (·.goMonitor .find)
  | .find =>
    match s.pool.monitorThreadFree with
    | [] => some (s.halt (.undefined "iterator past the end"))
    | tid :: _ =>
      match s.pool.threadPool.find? fun k => (s.workers[k]?).any fun w => w.tid == tid with
      | none => some (s.goMonitor .unlockPool)
      | some k =>
        match s.join B k with
        | .ok s => some (s.goMonitor (.joining k))
        | .error h => some (s.halt h)
  | .joining k =>
    if s.workerAt k .ended then
      some ((s.eraseThread k).goMonitor .unlockPool)
    else none
  | .unlockPool => some ((s.eraseFree.unlock .pool).goMonitor .reap)
  | .unlock => some ((s.unlock .monitor).goMonitor .lock)
  | .leave => some ((s.unlock .monitor).goMonitor .ended)

/-! ## Constructor and destructor -/

/-- The node after `k` in `thread_pool_`. -/
def nodeAfter (k : Nat) : Option Nat := (s.pool.threadPool.dropWhile (· != k)).tail.head?

/-- A step of the owner, who stands at `x`.  Both functions are `noexcept`. -/
def ownerStep (cfg : Config) (B : Build) (env : Env) (x : OwnerPlace) : Option System :=
  match x with
  | .constructed | .destroyed | .terminated => none
  | .startMonitor =>
    -- the monitor thread is created here and nowhere else
    if s.monitor ≠ .absent then
      none
    else if env.created then
      some ((s.goMonitor .starting).goOwner .awaitMonitor)
    else
      some (s.halt (.aborted "std::terminate"))
  | .awaitMonitor =>
    if s.monitor = .starting then none else some (s.goOwner (.adding (.check cfg.corePoolSize)))
  | .adding a =>
    (s.addThread cfg B env .owner a).map fun (s, next) =>
      match next with
      | .at a => s.goOwner (.adding a)
      | .returned => s.goOwner .constructed
      | .threw => (s.halt (.aborted "std::terminate")).goOwner .terminated
      | .halted h => s.halt h
  | .notifyMonitor => some (s.notifyMonitor.goOwner .notifyAll)
  | .notifyAll => some (s.notifyAllTasks.goOwner (.walk s.pool.threadPool.head?))
  | .walk none => some (s.goOwner .destroyed)
  | .walk (some k) =>
    if k ∈ s.pool.threadPool then
      match s.join B k with
      | .ok s => some (s.goOwner (.joining k))
      | .error h => some (s.halt h)
    else
      some (s.halt (.undefined "iterator to an erased node"))
  | .joining k =>
    if s.workerAt k .ended then
      if k ∈ s.pool.threadPool then
        some (s.goOwner (.walk (s.nodeAfter k)))
      else
        some (s.halt (.undefined "iterator to an erased node"))
    else none

end System

/-! ## Runs -/

/-- A step of a party; the end of a wait without a notification; a call of `Commit`, of `ShutDown`
or of the destructor. -/
inductive Act where
  | move (p : Party) (env : Env)
  | wake (k : Nat)
  | wakeMonitor
  | commit (caller : Caller)
  | shutDown (caller : Caller)
  | destroy
  deriving DecidableEq, Repr

/-- A step of party `p`. -/
def System.move (s : System) (cfg : Config) (B : Build) (env : Env) : Party → Option System
  | .owner => s.ownerStep cfg B env s.owner
  | .monitor => s.monitorStep B s.monitor
  | .worker k =>
    match s.workers[k]? with
    | some w => s.workerStep cfg env k w.place
    | none => none
  | .call c =>
    match s.calls[c]? with
    | some call => s.commitStep cfg B env c call.place
    | none => none

/-- Everything that can happen to a pool.  No call of a thread of the program may be under way when
the destructor is called. -/
def System.step (cfg : Config) (B : Build) (s : System) (act : Act) : Option System :=
  if s.halted.isSome then
    none
  else
    match act with
    | .move p env => s.move cfg B env p
    | .wake k => if s.workerAt k .parked then some (s.goWorker k .woken) else none
    | .wakeMonitor => if s.monitor = .parked then some (s.goMonitor .woken) else none
    | .commit caller =>
      if s.mayCall caller then
        some { s with calls := s.calls ++ [{ caller, place := .check }] }
      else none
    | .shutDown caller => if s.mayCall caller then some (s.setStatus .shutdown) else none
    | .destroy =>
      if s.owner = .constructed ∧
          s.calls.all fun call =>
            call.caller != .external || call.place == .returned || call.place == .threw then
        some (s.goOwner .notifyMonitor)
      else none

/-- The runs of a pool. -/
def poolRuns (cfg : Config) (B : Build) : StepSystem System Act where
  step := System.step cfg B

end TurboNet.Base
