/-
# TurboNet.Net.EpollPoller — channels, the epoll poller and the event loop in front of it.

`net/channel.{h,cpp}`, `net/poller.{h,cpp}`, `net/epoll_poller.{h,cpp}` and the forwarding half of
`net/event_loop.{h,cpp}`.  The heap is `World`: the channels at their addresses `κ`, the poller's
`channel_map_` and `event_list_`, the kernel's epoll descriptor, and the log records written.  Member
functions are programs on it that return or end the process.

`EventLoop` never creates the poller its `poller_` should point to; the world holds the one it would
forward to.  `LOG_DEBUG` statements are not modelled: they only write records, and none at the
default level.  `HandleEvent` and the callbacks are in `TurboNet.Net.Dispatch`.
-/
import TurboNet.Logger.Logger
import TurboNet.Net.Epoll

namespace TurboNet.Net

open TurboNet.Lib
open TurboNet.Logger

/-- The data members of `turbo::Channel`; `loop` is the address of the owning loop. -/
structure Channel where
  loop : Nat
  fd : Fd
  events : Events
  revents : Events
  index : Int
  eventHanding : Bool
  addToLoop : Bool
  deriving DecidableEq, Repr

namespace Channel

def kNoneEvent : Events := 0
def kReadEvent : Events := EPOLLIN ||| EPOLLPRI
def kWriteEvent : Events := EPOLLOUT

/-- `Channel::Channel(loop, fd)`. -/
def construct (loop : Nat) (fd : Fd) : Channel where
  loop := loop
  fd := fd
  events := 0
  revents := 0
  index := -1
  eventHanding := false
  addToLoop := false

def isNoneEvents (c : Channel) : Bool := c.events == kNoneEvent

/-- As in the source, `IsWriting` tests `kReadEvent` and `IsReading` tests `kWriteEvent`. -/
def isWriting (c : Channel) : Bool := c.events &&& kReadEvent != 0
def isReading (c : Channel) : Bool := c.events &&& kWriteEvent != 0

end Channel

/-! ## The world -/

/-- The values of `Channel::index_` that `EpollPoller` uses. -/
def kNew : Int := -1
def kAdd : Int := 1
def kDel : Int := 2

/-- `EpollPoller::kInitEventListSize`. -/
def kInitEventListSize : Nat := 16

/-- A `struct epoll_event` of `event_list_`; `data.ptr` is null until the kernel fills it in. -/
structure EpollEvent (κ : Type) where
  ptr : Option κ
  events : Events
  deriving DecidableEq, Repr

/-- The heap a reactor thread works on. -/
structure World (κ : Type) where
  loopAddr : Nat
  loopThread : Int
  channels : κ → Channel
  channelMap : Fd → Option κ
  eventList : List (EpollEvent κ)
  epoll : Epoll κ
  log : List (LogLevel × String)

namespace World

variable {κ : Type} [DecidableEq κ]

/-- The channel at address `c`. -/
abbrev chan (w : World κ) (c : κ) : Channel := w.channels c

def setChannel (w : World κ) (c : κ) (ch : Channel) : World κ :=
  { w with channels := Function.update w.channels c ch }

/-- `channel->SetIndex(index)`. -/
def setIndex (w : World κ) (c : κ) (index : Int) : World κ :=
  w.setChannel c { w.chan c with index := index }

/-- The owner assigns `events_`. -/
def setEvents (w : World κ) (c : κ) (events : Events) : World κ :=
  w.setChannel c { w.chan c with events := events }

/-- `channel->SetRevents(events)`. -/
def setRevents (w : World κ) (c : κ) (events : Events) : World κ :=
  w.setChannel c { w.chan c with revents := events }

def setAddToLoop (w : World κ) (c : κ) (b : Bool) : World κ :=
  w.setChannel c { w.chan c with addToLoop := b }

/-- `channel_map_[fd] = channel`. -/
def mapSet (w : World κ) (fd : Fd) (c : κ) : World κ :=
  { w with channelMap := Function.update w.channelMap fd (some c) }

/-- `channel_map_.erase(fd)`. -/
def mapErase (w : World κ) (fd : Fd) : World κ :=
  { w with channelMap := Function.update w.channelMap fd none }

/-- `epoll_ctl` on the descriptor of `c`, with the event `EpollPoller::Update` fills in. -/
def ctl (w : World κ) (granted : Bool) (op : EpollOp) (c : κ) : World κ :=
  { w with epoll := w.epoll.ctl granted op (w.chan c).fd { ptr := c, events := (w.chan c).events } }

/-- `epoll_wait` fills in the first entries of `event_list_`. -/
def fillEvents (w : World κ) (events : List (EpollEvent κ)) : World κ :=
  { w with eventList := events ++ w.eventList.drop events.length }

/-- `event_list_.resize(event_list_.size() * 2)`. -/
def doubleEventList (w : World κ) : World κ :=
  { w with eventList := w.eventList ++ List.replicate w.eventList.length ⟨none, 0⟩ }

/-- A fresh loop and its poller: no channel is known to it, and every channel is as constructed. -/
def init (loopAddr : Nat) (loopThread : Int) (fds : κ → Fd) : World κ where
  loopAddr := loopAddr
  loopThread := loopThread
  channels := fun c => Channel.construct loopAddr (fds c)
  channelMap := fun _ => none
  eventList := List.replicate kInitEventListSize { ptr := none, events := 0 }
  epoll := .empty
  log := []

end World

variable {κ : Type} [DecidableEq κ]

/-- A member function of the reactor's classes. -/
abbrev Method (κ : Type) := EStateM Halt (World κ)

/-- `LOG_SYS_ERROR << message` for `isAbort = false`, `LOG_SYS_FATAL << message` for `true`. -/
def logSys (B : Build) (isAbort : Bool) (message : String) : Method κ Unit := do
  modify fun w => { w with log := w.log ++ [(B.sysLevel isAbort, message)] }
  check (.aborted message) ((B.sysLevel isAbort).aborts = false)

/-- `EventLoop::AssertInLoopThread`, called on thread `tid`; `AbortNotInLoopThread` logs at level
`FATAL`. -/
def assertInLoopThread (tid : Int) : Method κ Unit := do
  let w ← get
  check (.aborted ("EventLoop::AbortNotInLoopThread, it was created in thread = " ++
    toString w.loopThread ++ ", current thread id = " ++ toString tid)) (w.loopThread = tid)

/-! ## `EpollPoller` -/

namespace EpollPoller

def operationToString : EpollOp → String
  | .add => "ADD"
  | .del => "DEL"
  | .mod => "MOD"

/-- `EpollPoller::Update(operation, channel)`. -/
def update (B : Build) (granted : Bool) (operation : EpollOp) (channel : κ) : Method κ Unit := do
  let w ← get
  let fd := (w.chan channel).fd
  set (w.ctl granted operation channel)
  if w.epoll.succeeds granted operation fd = false then
    logSys B (operation != .del)
      ("epoll_ctl op = " ++ operationToString operation ++ " fd = " ++ toString fd)

def updateChannel (B : Build) (tid : Int) (granted : Bool) (channel : κ) : Method κ Unit := do
  assertInLoopThread tid
  let w ← get
  let index := (w.chan channel).index
  let fd := (w.chan channel).fd
  if index = kNew ∨ index = kDel then
    if index = kNew then
      B.assert "channel_map_.find(fd) == channel_map_.end()" (w.channelMap fd = none)
      modify fun w => w.mapSet fd channel
    else
      B.assert "channel_map_.find(fd) != channel_map_.end()" (w.channelMap fd ≠ none)
      B.assert "channel_map_[fd] == channel" (w.channelMap fd = some channel)
    modify fun w => w.setIndex channel kAdd
    update B granted .add channel
  else
    B.assert "channel_map_.find(fd) != channel_map_.end()" (w.channelMap fd ≠ none)
    B.assert "channel_map_[fd] == channel" (w.channelMap fd = some channel)
    if (w.chan channel).isNoneEvents then
      update B granted .del channel
      modify fun w => w.setIndex channel kDel
    else
      update B granted .mod channel

/-- As in the source, `channel_map_.erase(fd)` is written inside an assert, so that it happens in
builds that evaluate asserts only. -/
def removeChannel (B : Build) (tid : Int) (granted : Bool) (channel : κ) : Method κ Unit := do
  assertInLoopThread tid
  let w ← get
  let fd := (w.chan channel).fd
  B.assert "channel_map_.find(fd) != channel_map_.end()" (w.channelMap fd ≠ none)
  B.assert "channel_map_[fd] == channel" (w.channelMap fd = some channel)
  B.assert "channel->IsNoneEvents()" ((w.chan channel).isNoneEvents = true)
  let index := (w.chan channel).index
  B.assert "index == kAdd || index == kDel" (index = kAdd ∨ index = kDel)
  if B.asserts then
    modify fun w => w.mapErase fd
    check (.assertFailed "channel_map_.erase(fd) == 1") (w.channelMap fd ≠ none)
  if index = kAdd then
    update B granted .del channel
  modify fun w => w.setIndex channel kNew

/-- `Poller::HaveChannel`. -/
def haveChannel (tid : Int) (channel : κ) : Method κ Bool := do
  assertInLoopThread tid
  let w ← get
  pure (w.channelMap (w.chan channel).fd == some channel)

/-- What `epoll_wait` answers: the events it filled in, in order, or `-1` with `errno`. -/
inductive WaitResult (κ : Type) where
  | ready (events : List (EpollEvent κ))
  | failed (errno : Int)
  deriving DecidableEq, Repr

/-- `EINTR` of `<errno.h>`. -/
def EINTR : Int := 4

/-- The loop of `FillActiveChannels` over the entries still to be visited. -/
def fillFrom (events : List (EpollEvent κ)) (activeChannels : List κ) : Method κ (List κ) :=
  match events with
  | [] => pure activeChannels
  | ⟨none, _⟩ :: _ => throw (.undefined "null channel in event_list_")
  | ⟨some channel, revents⟩ :: rest => do
    modify fun w => w.setRevents channel revents
    fillFrom rest (activeChannels ++ [channel])

def fillActiveChannels (B : Build) (numEvents : Nat) (activeChannels : List κ) :
    Method κ (List κ) := do
  let w ← get
  B.assert "static_cast<size_t>(num_events) < event_list_.size()" (numEvents < w.eventList.length)
  fillFrom (w.eventList.take numEvents) activeChannels

/-- `EpollPoller::Poll(timeout, active_channels)`, with what `epoll_wait` answered and the clock
reading after it; the call shows the reading it returns and `*active_channels` afterwards. -/
def poll (B : Build) (res : WaitResult κ) (now : Int) (activeChannels : List κ) :
    Method κ (Int × List κ) := do
  match res with
  | .ready events =>
    modify fun w => w.fillEvents events
    if 0 < events.length then
      let active ← fillActiveChannels B events.length activeChannels
      let w ← get
      if events.length = w.eventList.length then
        modify World.doubleEventList
      pure (now, active)
    else
      pure (now, activeChannels)
  | .failed errno =>
    if errno ≠ EINTR then
      logSys B false "EpollPoller::Poll()"
    pure (now, activeChannels)

end EpollPoller

/-! ## `EventLoop` -/

namespace EventLoop

/-- `assert(channel->OwnerLoop() == this)`. -/
def assertOwner (B : Build) (channel : κ) : Method κ Unit := do
  let w ← get
  B.assert "channel->OwnerLoop() == this" ((w.chan channel).loop = w.loopAddr)

def updateChannel (B : Build) (tid : Int) (granted : Bool) (channel : κ) : Method κ Unit := do
  assertOwner B channel
  assertInLoopThread tid
  EpollPoller.updateChannel B tid granted channel

def removeChannel (B : Build) (tid : Int) (granted : Bool) (channel : κ) : Method κ Unit := do
  assertOwner B channel
  assertInLoopThread tid
  EpollPoller.removeChannel B tid granted channel

def haveChannel (B : Build) (tid : Int) (channel : κ) : Method κ Bool := do
  assertOwner B channel
  assertInLoopThread tid
  EpollPoller.haveChannel tid channel

end EventLoop

/-! ## The member functions of `Channel` that reach the loop -/

namespace Channel

/-- `Channel::Update`. -/
def update (B : Build) (tid : Int) (granted : Bool) (channel : κ) : Method κ Unit := do
  modify fun w => w.setAddToLoop channel true
  EventLoop.updateChannel B tid granted channel

/-- The five functions below assign `events_` and call `Update`. -/
def assignEvents (B : Build) (tid : Int) (granted : Bool) (f : Events → Events) (channel : κ) :
    Method κ Unit := do
  modify fun w => w.setEvents channel (f (w.chan channel).events)
  update B tid granted channel

def enableReading (B : Build) (tid : Int) (granted : Bool) (channel : κ) : Method κ Unit :=
  assignEvents B tid granted (· ||| kReadEvent) channel

def disableReading (B : Build) (tid : Int) (granted : Bool) (channel : κ) : Method κ Unit :=
  assignEvents B tid granted (· &&& ~~~kReadEvent) channel

def enableWriting (B : Build) (tid : Int) (granted : Bool) (channel : κ) : Method κ Unit :=
  assignEvents B tid granted (· ||| kWriteEvent) channel

def disableWriting (B : Build) (tid : Int) (granted : Bool) (channel : κ) : Method κ Unit :=
  assignEvents B tid granted (· &&& ~~~kWriteEvent) channel

def disableAll (B : Build) (tid : Int) (granted : Bool) (channel : κ) : Method κ Unit :=
  assignEvents B tid granted (fun _ => kNoneEvent) channel

/-- `Channel::Remove`. -/
def remove (B : Build) (tid : Int) (granted : Bool) (channel : κ) : Method κ Unit := do
  let w ← get
  B.assert "!IsNoneEvents()" ((w.chan channel).isNoneEvents = false)
  modify fun w => w.setAddToLoop channel false
  EventLoop.removeChannel B tid granted channel

/-- `Channel::~Channel`.  The call of `HaveChannel` is inside an assert. -/
def destroy (B : Build) (tid : Int) (channel : κ) : Method κ Unit := do
  let w ← get
  B.assert "!event_handing_" ((w.chan channel).eventHanding = false)
  B.assert "!add_to_loop_" ((w.chan channel).addToLoop = false)
  if w.loopThread = tid ∧ B.asserts = true then
    let have_ ← EventLoop.haveChannel B tid channel
    check (.assertFailed "!loop_->HaveChannel(this)") (have_ = false)

end Channel

end TurboNet.Net
