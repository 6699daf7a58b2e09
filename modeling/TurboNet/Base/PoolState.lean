/-
# TurboNet.Base.PoolState — a thread pool and the threads that use it.

`base/thread_pool.{h,cpp}` with what it takes from `base/thread`, `base/mutex` and `base/condition`.
Five kinds of party run code on a pool: its owner (constructor and destructor), the workers that
`AddThread` starts, the monitor thread, the calls of `Commit`, and whoever calls `ShutDown`.  Each
stands at a place of the source; between two places lies at most one access to a member that other
parties may touch at the same time (an atomic, a lock operation, a member no lock guards).

A condition variable has no member of its own: a thread in a wait stands at a place `parked`, and
being notified, the time-out and a spurious wake-up all move it on to `woken`.
-/
import TurboNet.Lib.Wrapping
import TurboNet.Logger.Logger

namespace TurboNet.Base

open TurboNet.Lib
open TurboNet.Logger (Build Halt)

/-- `ThreadPool::ThreadPoolStatus`. -/
inductive ThreadPoolStatus where
  | running
  | shutdown
  | terminated
  deriving DecidableEq, Repr

/-- The constant members, `unsigned int` all. -/
structure Config where
  maxPoolSize : Nat
  corePoolSize : Nat
  maxTaskSize : Nat
  maxPoolSize_lt : maxPoolSize < 2 ^ 32
  corePoolSize_lt : corePoolSize < 2 ^ 32
  maxTaskSize_lt : maxTaskSize < 2 ^ 32

/-! Pools of one or two workers, for runs that are written out. -/

def oneWorker : Config where
  maxPoolSize := 1
  corePoolSize := 1
  maxTaskSize := 10
  maxPoolSize_lt := by decide
  corePoolSize_lt := by decide
  maxTaskSize_lt := by decide

def twoWorkers : Config where
  maxPoolSize := 2
  corePoolSize := 2
  maxTaskSize := 10
  maxPoolSize_lt := by decide
  corePoolSize_lt := by decide
  maxTaskSize_lt := by decide

def noCore : Config where
  maxPoolSize := 1
  corePoolSize := 0
  maxTaskSize := 1000
  maxPoolSize_lt := by decide
  corePoolSize_lt := by decide
  maxTaskSize_lt := by decide

def oneOrTwo : Config where
  maxPoolSize := 2
  corePoolSize := 1
  maxTaskSize := 0
  maxPoolSize_lt := by decide
  corePoolSize_lt := by decide
  maxTaskSize_lt := by decide

def queueOfOne : Config where
  maxPoolSize := 2
  corePoolSize := 1
  maxTaskSize := 1
  maxPoolSize_lt := by decide
  corePoolSize_lt := by decide
  maxTaskSize_lt := by decide

/-- A task is named by the call of `Commit` that made it. -/
abbrev Task := Nat

/-- Who runs code on the pool. -/
inductive Party where
  | owner
  | monitor
  | worker (k : Nat)
  | call (c : Nat)
  deriving DecidableEq, Repr

/-- The mutexes of the pool. -/
inductive Mutex where
  | tasks
  | pool
  | monitor
  deriving DecidableEq, Repr

/-! ## Places -/

/-- Where a call of `AddThread` stands.  `size` is what is left of its argument and `k` the thread it
emplaced last, which is `thread_pool_.back()` as long as `thread_pool_mutex_` is held. -/
inductive AddPlace where
  /-- At `assert(thread_pool_status_ == TPS_RUNNING)`. -/
  | check (size : Nat)
  | lock (size : Nat)
  /-- At the test of the loop. -/
  | test (size : Nat)
  | countIdle (k size : Nat)
  | countNow (k size : Nat)
  /-- At `thread_pool_.back()->Start()`. -/
  | start (k size : Nat)
  /-- In `latch_.Wait()` of `Thread::Start`. -/
  | await (k size : Nat)
  | unlock
  /-- An exception of `Thread::Start` leaves the function. -/
  | unwind
  deriving DecidableEq, Repr

/-- Where a worker stands: its `Thread` before `Start`, and then the lambda of `AddThread`. -/
inductive WorkerPlace where
  /-- Emplaced, and in neither counter. -/
  | built
  /-- In `idle_thread_num_`. -/
  | idled
  /-- In both counters. -/
  | counted
  /-- `std::thread` threw; `thread_` is null. -/
  | failed
  /-- Before `latch_.CountDown()`. -/
  | starting
  | lockTasks
  /-- At `while (thread_pool_status_ == TPS_RUNNING && tasks_.empty())`. -/
  | loopTest
  | parked
  /-- Out of the wait, before it has `tasks_mutex_` back. -/
  | woken
  /-- At `if (now_thread_num_ > kCorePoolSize_)`. -/
  | idleTest
  | retireIdle
  | retireNow
  | retireLock
  /-- At `monitor_thread_free_.emplace_back`. -/
  | handOver
  | retireUnlock
  /-- At `if (thread_pool_status_ != TPS_RUNNING && tasks_.empty())`. -/
  | exitTest
  | quitStatus
  | quitIdle
  | quitNow
  /-- At a `return`, with `tasks_mutex_` still held. -/
  | leave
  | unlockTask (t : Task)
  | beginTask (t : Task)
  /-- In `task()`. -/
  | running (t : Task)
  | endTask
  | ended
  deriving DecidableEq, Repr

/-- Does a thread of the system exist for a worker at this place? -/
def WorkerPlace.alive : WorkerPlace → Bool
  | .built | .idled | .counted | .failed | .ended => false
  | _ => true

/-- Where a call of `Commit` stands. -/
inductive CallPlace where
  /-- At `assert(thread_pool_status_ == TPS_RUNNING)`. -/
  | check
  | lock
  /-- At `if (kMaxTaskSize_ > tasks_.size())`. -/
  | sizeTest
  | adding (a : AddPlace)
  | emplace
  | unlock
  | notify
  | returned
  /-- An exception of `AddThread` leaves the function. -/
  | unwind
  | threw
  deriving DecidableEq, Repr

/-- Where the monitor thread stands. -/
inductive MonitorPlace where
  | absent
  /-- Before `latch_.CountDown()`. -/
  | starting
  | lock
  /-- At `while (monitor_thread_free_.empty())`. -/
  | test
  | parked
  /-- Out of the wait, before it has `monitor_mutex_` back. -/
  | woken
  /-- At `if (thread_pool_status_ != TPS_RUNNING)`. -/
  | statusTest
  /-- At `while (it != monitor_thread_free_.end())`. -/
  | reap
  | lockPool
  /-- At `std::find_if`, or in `Join` up to its `thread_->join()`. -/
  | find
  | joining (k : Nat)
  | unlockPool
  | unlock
  /-- At the `return`, with `monitor_mutex_` still held. -/
  | leave
  | ended
  deriving DecidableEq, Repr

/-- Where the owner stands, in the constructor or the destructor.  The destructor's iterator is a
thread or, past the last one, `none`. -/
inductive OwnerPlace where
  | startMonitor
  /-- In `latch_.Wait()` of `Thread::Start`. -/
  | awaitMonitor
  | adding (a : AddPlace)
  | constructed
  | notifyMonitor
  | notifyAll
  /-- At the test of the destructor's loop, or in `Join` up to its `thread_->join()`. -/
  | walk (it : Option Nat)
  | joining (k : Nat)
  | destroyed
  /-- An exception has left the constructor. -/
  | terminated
  deriving DecidableEq, Repr

/-! ## The state -/

/-- A `Thread` that `AddThread` built, with its thread.  The kernel gives a thread its id when it is
created; `tid_` has it before the latch opens, and no one reads `tid_` earlier. -/
structure Worker where
  place : WorkerPlace
  tid : Nat
  started : Bool
  joined : Bool
  deriving DecidableEq, Repr

/-- Who called a function of the pool: a thread of the program, or a task. -/
inductive Caller where
  | external
  | task (k : Nat)
  deriving DecidableEq, Repr

/-- A call of `Commit`. -/
structure Call where
  caller : Caller
  place : CallPlace
  deriving DecidableEq, Repr

/-- Who holds each mutex. -/
structure Mutexes where
  tasks : Option Party
  pool : Option Party
  monitor : Option Party
  deriving DecidableEq, Repr

def Mutexes.owner (l : Mutexes) : Mutex → Option Party
  | .tasks => l.tasks
  | .pool => l.pool
  | .monitor => l.monitor

def Mutexes.assign (l : Mutexes) (m : Mutex) (p : Option Party) : Mutexes :=
  match m with
  | .tasks => { l with tasks := p }
  | .pool => { l with pool := p }
  | .monitor => { l with monitor := p }

/-- The members of a `ThreadPool`.  `threadPool` lists the threads by their number in the order they
were built. -/
structure ThreadPool where
  status : ThreadPoolStatus
  idleThreadNum : Nat
  nowThreadNum : Nat
  tasks : List Task
  threadPool : List Nat
  monitorThreadFree : List Nat
  deriving DecidableEq, Repr

/-- The tasks pushed, popped and run to their end, the latter two with the worker. -/
structure History where
  pushed : List Task
  popped : List (Nat × Task)
  executed : List (Nat × Task)
  deriving DecidableEq, Repr

/-- A pool with its parties.  `retired` and `history` are what happened, which no party reads:
`retired` lists the workers that handed their id to the monitor. -/
structure System where
  pool : ThreadPool
  mutexes : Mutexes
  workers : List Worker
  calls : List Call
  monitor : MonitorPlace
  owner : OwnerPlace
  halted : Option Halt
  retired : List Nat
  history : History
  deriving DecidableEq, Repr

namespace System

/-- Before the body of the constructor. -/
def init : System where
  pool :=
    { status := .running, idleThreadNum := 0, nowThreadNum := 0, tasks := []
      threadPool := [], monitorThreadFree := [] }
  mutexes := { tasks := none, pool := none, monitor := none }
  workers := []
  calls := []
  monitor := .absent
  owner := .startMonitor
  halted := none
  retired := []
  history := { pushed := [], popped := [], executed := [] }

/-! ## Single effects -/

def goWorker (s : System) (k : Nat) (y : WorkerPlace) : System :=
  { s with workers := s.workers.modify k fun w => { w with place := y } }

def goCall (s : System) (c : Nat) (y : CallPlace) : System :=
  { s with calls := s.calls.modify c fun call => { call with place := y } }

def goMonitor (s : System) (y : MonitorPlace) : System := { s with monitor := y }

def goOwner (s : System) (y : OwnerPlace) : System := { s with owner := y }

/-- The process ends. -/
def halt (s : System) (h : Halt) : System := { s with halted := some h }

/-- `lock()`, which waits while the mutex is held. -/
def lock (s : System) (m : Mutex) (p : Party) : Option System :=
  if s.mutexes.owner m = none then some { s with mutexes := s.mutexes.assign m (some p) } else none

def unlock (s : System) (m : Mutex) : System := { s with mutexes := s.mutexes.assign m none }

def setStatus (s : System) (status : ThreadPoolStatus) : System :=
  { s with pool := { s.pool with status } }

def setIdle (s : System) (n : Nat) : System := { s with pool := { s.pool with idleThreadNum := n } }

def setNow (s : System) (n : Nat) : System := { s with pool := { s.pool with nowThreadNum := n } }

/-- `++idle_thread_num_`. -/
def incIdle (s : System) : System := s.setIdle (uadd 32 s.pool.idleThreadNum 1)

/-- `--idle_thread_num_`. -/
def decIdle (s : System) : System := s.setIdle (usub 32 s.pool.idleThreadNum 1)

/-- `++now_thread_num_`. -/
def incNow (s : System) : System := s.setNow (uadd 32 s.pool.nowThreadNum 1)

/-- `--now_thread_num_`. -/
def decNow (s : System) : System := s.setNow (usub 32 s.pool.nowThreadNum 1)

/-- `tasks_.emplace_back` of the task of call `c`. -/
def push (s : System) (c : Task) : System :=
  { s with
    pool := { s.pool with tasks := s.pool.tasks ++ [c] }
    history := { s.history with pushed := s.history.pushed ++ [c] } }

/-- Worker `k` took the front `t` of the queue and left `rest`. -/
def pop (s : System) (k : Nat) (t : Task) (rest : List Task) : System :=
  { s with
    pool := { s.pool with tasks := rest }
    history := { s.history with popped := s.history.popped ++ [(k, t)] } }

/-- `task()` came to its end. -/
def execute (s : System) (k : Nat) (t : Task) : System :=
  { s with history := { s.history with executed := s.history.executed ++ [(k, t)] } }

/-- A `Thread` is built and emplaced in `thread_pool_`. -/
def build (s : System) : System :=
  { s with
    pool := { s.pool with threadPool := s.pool.threadPool ++ [s.workers.length] }
    workers := s.workers ++ [{ place := .built, tid := 0, started := false, joined := false }] }

/-- `started_ = true`, and the attempt to create the thread. -/
def startThread (s : System) (k tid : Nat) (y : WorkerPlace) : System :=
  { s with workers := s.workers.modify k fun w => { w with place := y, tid, started := true } }

/-- `joined_ = true`. -/
def markJoined (s : System) (k : Nat) : System :=
  { s with workers := s.workers.modify k fun w => { w with joined := true } }

/-- `monitor_thread_free_.emplace_back(CurrentThread::CachedTid())` in worker `k`. -/
def emplaceFree (s : System) (k : Nat) : System :=
  let tid := ((s.workers[k]?).map Worker.tid).getD 0
  { s with
    pool := { s.pool with monitorThreadFree := s.pool.monitorThreadFree ++ [tid] }
    retired := s.retired ++ [k] }

/-- `monitor_thread_free_.erase` at the begin. -/
def eraseFree (s : System) : System :=
  { s with pool := { s.pool with monitorThreadFree := s.pool.monitorThreadFree.tail } }

/-- `thread_pool_.erase`. -/
def eraseThread (s : System) (k : Nat) : System :=
  { s with pool := { s.pool with threadPool := s.pool.threadPool.erase k } }

/-- `monitor_cv_.Notify()`. -/
def notifyMonitor (s : System) : System :=
  if s.monitor = .parked then s.goMonitor .woken else s

/-- Is worker `k` at place `x`? -/
def workerAt (s : System) (k : Nat) (x : WorkerPlace) : Bool :=
  (s.workers[k]?).any fun w => w.place == x

/-- `task_cv_.Notify()` wakes a thread in the wait, if there is one; `waiter` is which. -/
def notifyTask (s : System) (waiter : Nat) : Option System :=
  if s.workers.any fun w => w.place == .parked then
    if s.workerAt waiter .parked then some (s.goWorker waiter .woken) else none
  else
    some s

/-- `task_cv_.NotifyAll()`. -/
def notifyAllTasks (s : System) : System :=
  { s with
    workers := s.workers.map fun w => if w.place = .parked then { w with place := .woken } else w }

end System

end TurboNet.Base
