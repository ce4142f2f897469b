import Mathlib.Logic.Function.Basic
import Yolanda.App.Channel

/-! The tables of one event loop: the descriptors of the kernel, the epoll instance
of the dispatcher and the map from descriptors to channels. -/

namespace Yolanda.App

/-- `EPOLLIN` -/
def epollIn : BitVec 32 := 0x001

/-- `EPOLLOUT` -/
def epollOut : BitVec 32 := 0x004

/-- `EPOLLERR` -/
def epollErr : BitVec 32 := 0x008

/-- `EPOLLHUP` -/
def epollHup : BitVec 32 := 0x010

/-- The third argument of `epoll_ctl`. -/
inductive EpollControl where
  | add
  | del
  | mod
  deriving DecidableEq, Repr

/-- The open descriptors, and the events asked for of those in the epoll instance. -/
structure Kernel where
  opened : Int → Bool
  registered : Int → Option (BitVec 32)

namespace Kernel

/-- `epoll_ctl`, which answers -1 for a closed descriptor, for one that is already there
to be added, and for one that is not there to be changed. -/
def epollCtl (kernel : Kernel) (control : EpollControl) (fd : Int) (events : BitVec 32) :
    Option Kernel :=
  if kernel.opened fd then
    match control, kernel.registered fd with
    | .add, none =>
      some { kernel with registered := Function.update kernel.registered fd (some events) }
    | .del, some _ =>
      some { kernel with registered := Function.update kernel.registered fd none }
    | .mod, some _ =>
      some { kernel with registered := Function.update kernel.registered fd (some events) }
    | _, _ => none
  else none

/-- A new descriptor. -/
def takeDescriptor (kernel : Kernel) (fd : Int) : Kernel :=
  { kernel with opened := Function.update kernel.opened fd true }

/-- `close`, which also takes the descriptor out of the epoll instance. -/
def close (kernel : Kernel) (fd : Int) : Kernel :=
  { opened := Function.update kernel.opened fd false
    registered := Function.update kernel.registered fd none }

end Kernel

/-- The events the dispatcher asks for in the name of a channel. -/
def Channel.epollEvents (channel : Channel) : BitVec 32 :=
  (if channel.events &&& eventRead ≠ 0 then epollIn else 0) |||
    (if channel.events &&& eventWrite ≠ 0 then epollOut else 0)

namespace EventDispatcher

/-- A call of `epoll_ctl` for a channel. Its failure ends the process. -/
def control (kernel : Kernel) (control : EpollControl) (channel : Channel) :
    Except Fault Kernel :=
  match kernel.epollCtl control channel.fd channel.epollEvents with
  | some kernel => .ok kernel
  | none => .error .epollCtl

/-- `event_dispatcher::add` -/
def add (kernel : Kernel) (channel : Channel) : Except Fault Kernel :=
  control kernel .add channel

/-- `event_dispatcher::del` -/
def del (kernel : Kernel) (channel : Channel) : Except Fault Kernel :=
  control kernel .del channel

/-- `event_dispatcher::update` -/
def update (kernel : Kernel) (channel : Channel) : Except Fault Kernel :=
  control kernel .mod channel

end EventDispatcher

/-- What the operations of a loop read and change. A channel is known by its place among
the channels, and `handled` keeps the operations and what their handlers returned. -/
structure Registry where
  kernel : Kernel
  channels : List Channel
  channelMap : Int → Option Nat
  handled : List (ChannelElement Nat × Int)

namespace Registry

/-- The object behind a pointer to a channel. -/
def channelAt (registry : Registry) (channel : Nat) : Except Fault Channel :=
  match registry.channels[channel]? with
  | some channel => .ok channel
  | none => .error .memory

/-- `handle_pending_add` -/
def handlePendingAdd (registry : Registry) (fd : Int) (channel : Nat) :
    Except Fault (Int × Registry) :=
  if fd < 0 then return (0, registry)
  else
    match registry.channelMap fd with
    | none => do
      let added ← registry.channelAt channel
      let kernel ← EventDispatcher.add registry.kernel added
      return (1, { registry with
        kernel
        channelMap := Function.update registry.channelMap fd (some channel) })
    | some _ => return (0, registry)

/-- `handle_pending_remove` -/
def handlePendingRemove (registry : Registry) (fd : Int) (channel1 : Nat) :
    Except Fault (Int × Registry) := do
  let given ← registry.channelAt channel1
  if fd ≠ given.fd then throw .assertion
  else if fd < 0 then return (0, registry)
  else
    match registry.channelMap fd with
    | none => return (-1, registry)
    | some channel2 =>
      let mapped ← registry.channelAt channel2
      let kernel ← EventDispatcher.del registry.kernel mapped
      return (1, { registry with
        kernel
        channelMap := Function.update registry.channelMap fd none })

/-- `handle_pending_update` -/
def handlePendingUpdate (registry : Registry) (fd : Int) (channel : Nat) :
    Except Fault (Int × Registry) :=
  if fd < 0 then return (0, registry)
  else
    match registry.channelMap fd with
    | none => return (-1, registry)
    | some _ => do
      let changed ← registry.channelAt channel
      let kernel ← EventDispatcher.update registry.kernel changed
      return (0, { registry with kernel })

def log (registry : Registry) (element : ChannelElement Nat) (result : Int) : Registry :=
  { registry with handled := registry.handled ++ [(element, result)] }

/-- The body of the loop of `handle_pending_channel`. -/
def handlePending (registry : Registry) (element : ChannelElement Nat) :
    Except Fault Registry := do
  let channel ← registry.channelAt element.channel
  let fd := channel.fd
  if element.type = 1 then
    let (result, registry) ← registry.handlePendingAdd fd element.channel
    return registry.log element result
  else if element.type = 2 then
    let (result, registry) ← registry.handlePendingRemove fd element.channel
    return registry.log element result
  else if element.type = 3 then
    let (result, registry) ← registry.handlePendingUpdate fd element.channel
    return registry.log element result
  else return registry

/-- The whole loop of `handle_pending_channel`. -/
def handleAll (registry : Registry) : List (ChannelElement Nat) → Except Fault Registry
  | [] => .ok registry
  | element :: elements => do
    let registry ← registry.handlePending element
    registry.handleAll elements

/-- The part of `channel_event_activate` before the callbacks: the channel of `fd`. -/
def activated (registry : Registry) (fd : Int) : Except Fault (Option (Nat × Channel)) :=
  if fd < 0 then return none
  else
    match registry.channelMap fd with
    | none => return none
    | some number => do
      let channel ← registry.channelAt number
      if fd ≠ channel.fd then throw .assertion
      else return some (number, channel)

/-- The descriptor of a channel. -/
def fdOf (registry : Registry) (channel : Nat) : Option Int :=
  registry.channels[channel]?.map Channel.fd

/-- The descriptor an operation asks to add. -/
def addedFd (registry : Registry) (element : ChannelElement Nat) : Option Int :=
  if element.type = 1 then (registry.fdOf element.channel).filter (0 ≤ ·) else none

end Registry

/-- One entry of the array `epoll_wait` fills. -/
structure EpollEvent where
  fd : Int
  events : BitVec 32
  deriving DecidableEq, Repr

/-- The test of `dispatch` that comes before all others. -/
def EpollEvent.failed (event : EpollEvent) : Bool :=
  event.events &&& epollErr ≠ 0 || event.events &&& epollHup ≠ 0

/-- Who builds a channel and passes it to `add_channel_event`. -/
inductive Role where
  | wakeup
  | listening
  | connection
  deriving DecidableEq, Repr

def Role.channel : Role → Nat → Int → Channel
  | .wakeup => wakeupChannel
  | .listening => listeningChannel
  | .connection => connectionChannel

/-- Calls of `write_event_enable`, by `true`, and `write_event_disable` on channels. -/
abbrev Changes := List (Nat × Bool)

/-- Only a connection has a `connectionCompletedCallBack`, which may send. -/
def Role.completed : Role → Changes → Changes
  | .connection, changes => changes
  | _, _ => []

/-- What a read callback comes to, with what the callbacks of the application send. -/
inductive Reaction where
  | accepted (fd : Int) (here : Bool) (completed : Changes)
  | closed (changes : Changes)
  | message (changes : Changes)

/-- One event loop between two steps of the threads that use it. `reported` holds what
the last `epoll_wait` returned and `dispatch` has not come to yet. -/
structure EventLoop where
  registry : Registry
  pending : List (ChannelElement Nat)
  reported : List EpollEvent

namespace EventLoop

/-- The loop as its constructor finds it. -/
def start (opened : Int → Bool) : EventLoop :=
  { registry :=
      { kernel := { opened, registered := fun _ => none }
        channels := []
        channelMap := fun _ => none
        handled := [] }
    pending := []
    reported := [] }

/-- `handle_pending_channel` -/
def handlePendingChannel (loop : EventLoop) : Except Fault EventLoop := do
  let registry ← loop.registry.handleAll loop.pending
  return { loop with registry, pending := [] }

/-- `channel_buffer_nolock` -/
def channelBufferNolock (loop : EventLoop) (channel type : Nat) : EventLoop :=
  { loop with pending := loop.pending ++ [⟨type, channel⟩] }

/-- `do_channel_event`. The thread of the loop handles the list at once, and another
thread only wakes the loop up. -/
def doChannelEvent (loop : EventLoop) (own : Bool) (channel type : Nat) :
    Except Fault EventLoop :=
  let queued := loop.channelBufferNolock channel type
  if own then queued.handlePendingChannel else .ok queued

/-- `add_channel_event` -/
def addChannelEvent (loop : EventLoop) (own : Bool) (channel : Nat) : Except Fault EventLoop :=
  loop.doChannelEvent own channel 1

/-- `remove_channel_event` -/
def removeChannelEvent (loop : EventLoop) (own : Bool) (channel : Nat) :
    Except Fault EventLoop :=
  loop.doChannelEvent own channel 2

/-- `update_channel_event` -/
def updateChannelEvent (loop : EventLoop) (own : Bool) (channel : Nat) :
    Except Fault EventLoop :=
  loop.doChannelEvent own channel 3

/-- `write_event_enable` or `write_event_disable` on a channel of this loop. -/
def change (loop : EventLoop) (own : Bool) (number : Nat) (enable : Bool) :
    Except Fault EventLoop :=
  match loop.registry.channels[number]? with
  | none => .ok loop
  | some channel =>
    let changed := if enable then channel.writeEventEnable else channel.writeEventDisable
    let channels := loop.registry.channels.set number changed
    { loop with registry := { loop.registry with channels } }.updateChannelEvent own number

def changeAll (loop : EventLoop) (own : Bool) : Changes → Except Fault EventLoop
  | [] => .ok loop
  | (number, enable) :: changes => do
    let loop ← loop.change own number enable
    loop.changeAll own changes

/-- A new channel for what `socketpair`, `socket` or `accept` answered: any closed
descriptor, or a negative number when it failed. No such call answers an open one. -/
def build (loop : EventLoop) (role : Role) (fd : Int) : Option EventLoop :=
  let registry := loop.registry
  let channels := registry.channels ++ [role.channel registry.channels.length fd]
  if fd < 0 then some { loop with registry := { registry with channels } }
  else if registry.kernel.opened fd then none
  else
    let kernel := registry.kernel.takeDescriptor fd
    some { loop with registry := { registry with kernel, channels } }

/-- A new channel, from its descriptor to `add_channel_event`. -/
def establish (loop : EventLoop) (own : Bool) (role : Role) (fd : Int) (completed : Changes) :
    Except Fault EventLoop :=
  match loop.build role fd with
  | none => .ok loop
  | some built => do
    let ready ← built.changeAll own (role.completed completed)
    ready.addChannelEvent own loop.registry.channels.length

/-- A descriptor that goes to another part of the process. -/
def takeDescriptor (loop : EventLoop) (fd : Int) : EventLoop :=
  if fd < 0 then loop
  else { loop with registry :=
      { loop.registry with kernel := loop.registry.kernel.takeDescriptor fd } }

/-- `handle_connection_closed`, with what the `connectionClosedCallBack` sends. -/
def closeConnection (loop : EventLoop) (number : Nat) (changes : Changes) :
    Except Fault EventLoop := do
  let loop ← loop.removeChannelEvent true number
  loop.changeAll true changes

/-- The `eventReadCallback` of a channel: `handleWakeup` reads a byte,
`handle_connection_established` hands a connection to this or another loop, and
`handle_read` calls `handle_connection_closed` or the message callback. -/
def readCallback (loop : EventLoop) (number : Nat) (channel : Channel) (reaction : Reaction) :
    Except Fault EventLoop :=
  match channel.eventReadCallback, reaction with
  | some .handleConnectionEstablished, .accepted fd true completed =>
    loop.establish true .connection fd completed
  | some .handleConnectionEstablished, .accepted fd false _ => .ok (loop.takeDescriptor fd)
  | some .handleRead, .closed changes => loop.closeConnection number changes
  | some .handleRead, .message changes => loop.changeAll true changes
  | _, _ => .ok loop

/-- The `eventWriteCallback` of a channel. -/
def writeCallback (loop : EventLoop) (channel : Channel) (changes : Changes) :
    Except Fault EventLoop :=
  match channel.eventWriteCallback with
  | some .handleWrite => loop.changeAll true changes
  | _ => .ok loop

/-- `channel_event_activate` with `EVENT_READ` -/
def activateRead (loop : EventLoop) (fd : Int) (reaction : Reaction) :
    Except Fault EventLoop := do
  match ← loop.registry.activated fd with
  | none => return loop
  | some (number, channel) => loop.readCallback number channel reaction

/-- `channel_event_activate` with `EVENT_WRITE` -/
def activateWrite (loop : EventLoop) (fd : Int) (changes : Changes) :
    Except Fault EventLoop := do
  match ← loop.registry.activated fd with
  | none => return loop
  | some (_, channel) => loop.writeCallback channel changes

/-- The body of the loop of `dispatch`. -/
def dispatchEvent (loop : EventLoop) (event : EpollEvent) (reaction : Reaction)
    (changes : Changes) : Except Fault EventLoop :=
  if event.failed then
    .ok { loop with registry :=
      { loop.registry with kernel := loop.registry.kernel.close event.fd } }
  else do
    let loop ←
      (if event.events &&& epollIn ≠ 0 then loop.activateRead event.fd reaction else .ok loop)
    if event.events &&& epollOut ≠ 0 then loop.activateWrite event.fd changes else .ok loop

/-- The descriptor is in the map, or it waits to be added. -/
def holds (loop : EventLoop) (fd : Int) : Bool :=
  (loop.registry.channelMap fd).isSome ||
    (loop.pending.filterMap loop.registry.addedFd).contains fd

/-- What `epoll_wait` can return: registered descriptors, each once, as many as fit into
`events`. -/
def mayReport (loop : EventLoop) (events : List EpollEvent) : Bool :=
  loop.reported.isEmpty && events.all (fun event => (loop.registry.kernel.registered event.fd).isSome)
    && decide (events.map EpollEvent.fd).Nodup && decide (events.length ≤ 128)

end EventLoop

/-- The steps of the threads. A step that cannot be taken changes nothing. -/
inductive LoopEvent where
  | establish (own : Bool) (role : Role) (fd : Int) (completed : Changes)
  | change (own : Bool) (channel : Nat) (enable : Bool)
  /-- The rest of the process opens and closes descriptors this loop does not hold. -/
  | opens (fd : Int)
  | closes (fd : Int)
  | epollWait (events : List EpollEvent)
  | dispatch (reaction : Reaction) (changes : Changes)
  | handlePending

def loopStep (loop : EventLoop) : LoopEvent → Except Fault EventLoop
  | .establish own role fd completed => loop.establish own role fd completed
  | .change own channel enable => loop.change own channel enable
  | .opens fd => .ok (loop.takeDescriptor fd)
  | .closes fd =>
    if loop.holds fd then .ok loop
    else .ok { loop with registry :=
      { loop.registry with kernel := loop.registry.kernel.close fd } }
  | .epollWait events =>
    if loop.mayReport events then .ok { loop with reported := events } else .ok loop
  | .dispatch reaction changes =>
    match loop.reported with
    | [] => .ok loop
    | event :: events => { loop with reported := events }.dispatchEvent event reaction changes
  | .handlePending => loop.handlePendingChannel

end Yolanda.App
