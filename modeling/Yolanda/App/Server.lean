import Yolanda.App.EventLoop

/-! A loop of the server with the descriptors it was given, and what it has done with each of
them. -/

namespace Yolanda.App

/-- What is done with a channel and its descriptor. -/
inductive Call where
  /-- The descriptor comes from `accept`. -/
  | accept
  | read
  | write
  | shutdown
  | epollCtl
  | close
  /-- Bytes of the peer are ready. -/
  | arrive (bytes : Bytes)
  /-- `messageCallBack`, for bytes that were read -/
  | message (bytes : Bytes)
  /-- `handle_write` -/
  | handleWrite
  /-- `connectionClosedCallBack` -/
  | connectionClosed
  /-- The descriptor has left the epoll instance. -/
  | unwatched
  deriving DecidableEq, Repr

/-- What the callbacks of the application do with the connection they are called for:
`send_data` writes and enables the write events, and the last write disables them. -/
inductive OwnAction where
  | write
  | shutdown
  | enable
  | disable
  deriving DecidableEq, Repr

/-- What `readv` answers `socket_read`: some of the bytes that are ready, the end of the
stream if there are none, or -1. -/
inductive Reading where
  | received (more : Nat)
  | failed
  deriving DecidableEq, Repr

/-- The bytes that were read. Without them `handle_read` closes the connection. -/
def Reading.bytes (ready : Bytes) : Reading → Bytes
  | .received more => ready.take (more + 1)
  | .failed => []

/-- What the system and the application answer to the callbacks of one event. -/
structure Answers where
  /-- `accept`, and whether `get_loop` chooses this loop -/
  accepted : Int
  here : Bool
  reading : Reading
  /-- The callback that the read callback calls. -/
  actions : List OwnAction
  /-- `handle_write` behind its `write` -/
  written : List OwnAction

/-- A loop, with the channel a descriptor was opened for as long as it is open, the bytes that
are ready on the socket of a channel, and what was done with it. -/
structure Server extends EventLoop where
  owned : Int → Option Nat
  ready : Nat → Bytes
  trace : Nat → List Call

/-- The channel whose descriptor an operation passes to `epoll_ctl`. -/
def Registry.controlled (registry : Registry) (element : ChannelElement Nat) : Option Nat := do
  let channel ← registry.channels[element.channel]?
  if channel.fd < 0 then none
  else
    match element.type, registry.channelMap channel.fd with
    | 1, none => some element.channel
    | 2, some mapped => some mapped
    | 3, some _ => some element.channel
    | _, _ => none

namespace Server

def start (opened : Int → Bool) : Server where
  toEventLoop := .start opened
  owned _ := none
  ready _ := []
  trace _ := []

def record (server : Server) (number : Nat) (calls : List Call) : Server :=
  { server with
    trace := Function.update server.trace number (server.trace number ++ calls) }

/-- The body of the loop of `handle_pending_channel`. -/
def handlePending (server : Server) (element : ChannelElement Nat) : Except Fault Server := do
  let registry ← server.registry.handlePending element
  let handled := { server with registry := registry }
  match server.registry.controlled element with
  | none => return handled
  | some number =>
    return handled.record number (if element.type = 2 then [.epollCtl, .unwatched] else [.epollCtl])

def handleAll (server : Server) : List (ChannelElement Nat) → Except Fault Server
  | [] => .ok server
  | element :: elements => do
    let server ← server.handlePending element
    server.handleAll elements

/-- `handle_pending_channel` -/
def handlePendingChannel (server : Server) : Except Fault Server := do
  let handled ← server.handleAll server.pending
  return { handled with pending := [] }

/-- `do_channel_event` -/
def doChannelEvent (server : Server) (own : Bool) (channel type : Nat) : Except Fault Server :=
  let queued := { server with toEventLoop := server.channelBufferNolock channel type }
  if own then queued.handlePendingChannel else .ok queued

/-- `write_event_enable` or `write_event_disable` -/
def change (server : Server) (own : Bool) (number : Nat) (enable : Bool) : Except Fault Server :=
  match server.registry.channels[number]? with
  | none => .ok server
  | some channel =>
    let changed := if enable then channel.writeEventEnable else channel.writeEventDisable
    let channels := server.registry.channels.set number changed
    { server with registry := { server.registry with channels } }.doChannelEvent own number 3

def act (server : Server) (own : Bool) (number : Nat) : OwnAction → Except Fault Server
  | .write => .ok (server.record number [.write])
  | .shutdown => .ok (server.record number [.shutdown])
  | .enable => server.change own number true
  | .disable => server.change own number false

def actAll (server : Server) (own : Bool) (number : Nat) : List OwnAction → Except Fault Server
  | [] => .ok server
  | action :: actions => do
    let server ← server.act own number action
    server.actAll own number actions

/-- The loop behind the constructor of a channel, with its descriptor if there is one. -/
def hold (server : Server) (built : EventLoop) (role : Role) (fd : Int) : Server :=
  let number := server.registry.channels.length
  if fd < 0 then { server with toEventLoop := built }
  else
    let held := { server with
      toEventLoop := built
      owned := Function.update server.owned fd (some number) }
    if role = .connection then held.record number [.accept] else held

/-- A new channel, from its descriptor to `add_channel_event`. Only a connection has a
`connectionCompletedCallBack`. -/
def establish (server : Server) (own : Bool) (role : Role) (fd : Int)
    (completed : List OwnAction) : Except Fault Server :=
  match server.build role fd with
  | none => .ok server
  | some built => do
    let number := server.registry.channels.length
    let ready ← (server.hold built role fd).actAll own number
      (if role = .connection then completed else [])
    ready.doChannelEvent own number 1

/-- `handle_connection_closed` -/
def closeConnection (server : Server) (number : Nat) (actions : List OwnAction) :
    Except Fault Server := do
  let removed ← server.doChannelEvent true number 2
  (removed.record number [.connectionClosed]).actAll true number actions

/-- `handle_read` -/
def handleRead (server : Server) (number : Nat) (reading : Reading) (actions : List OwnAction) :
    Except Fault Server :=
  match reading.bytes (server.ready number) with
  | [] => (server.record number [.read]).closeConnection number actions
  | byte :: bytes =>
    let left := (server.ready number).drop (bytes.length + 1)
    let read := { server with ready := Function.update server.ready number left }
    (read.record number [.read, .message (byte :: bytes)]).actAll true number actions

/-- The `eventReadCallback` of a channel. -/
def readCallback (server : Server) (number : Nat) (channel : Channel) (answers : Answers) :
    Except Fault Server :=
  match channel.eventReadCallback with
  | some .handleConnectionEstablished =>
    if answers.here then server.establish true .connection answers.accepted answers.actions
    else .ok { server with toEventLoop := server.takeDescriptor answers.accepted }
  | some .handleRead => server.handleRead number answers.reading answers.actions
  | _ => .ok server

/-- The `eventWriteCallback` of a channel. -/
def writeCallback (server : Server) (number : Nat) (channel : Channel) (answers : Answers) :
    Except Fault Server :=
  match channel.eventWriteCallback with
  | some .handleWrite =>
    (server.record number [.handleWrite, .write]).actAll true number answers.written
  | _ => .ok server

/-- `channel_event_activate` with `EVENT_READ` -/
def activateRead (server : Server) (fd : Int) (answers : Answers) : Except Fault Server := do
  match ← server.registry.activated fd with
  | none => return server
  | some (number, channel) => server.readCallback number channel answers

/-- `channel_event_activate` with `EVENT_WRITE` -/
def activateWrite (server : Server) (fd : Int) (answers : Answers) : Except Fault Server := do
  match ← server.registry.activated fd with
  | none => return server
  | some (number, channel) => server.writeCallback number channel answers

/-- `close` for an event with `EPOLLERR` or `EPOLLHUP` -/
def closeFailed (server : Server) (fd : Int) : Server :=
  let closed := { server with
    registry := { server.registry with kernel := server.registry.kernel.close fd }
    owned := Function.update server.owned fd none }
  match server.owned fd with
  | none => closed
  | some number =>
    closed.record number
      (if server.registry.kernel.registered fd = none then [.close] else [.close, .unwatched])

/-- The body of the loop of `dispatch`. -/
def dispatchEvent (server : Server) (event : EpollEvent) (answers : Answers) :
    Except Fault Server :=
  if event.failed then .ok (server.closeFailed event.fd)
  else do
    let server ← (if event.events &&& epollIn ≠ 0 then server.activateRead event.fd answers
      else .ok server)
    if event.events &&& epollOut ≠ 0 then server.activateWrite event.fd answers else .ok server

end Server

/-- The steps of the threads and of the peers. A step that cannot be taken changes
nothing. -/
inductive ServerEvent where
  | establish (own : Bool) (role : Role) (fd : Int) (completed : List OwnAction)
  /-- The rest of the process opens and closes descriptors that are not of this loop. -/
  | opens (fd : Int)
  | closes (fd : Int)
  | arrive (number : Nat) (bytes : Bytes)
  | epollWait (events : List EpollEvent)
  | dispatch (answers : Answers)
  | handlePending

def serverStep (server : Server) : ServerEvent → Except Fault Server
  | .establish own role fd completed => server.establish own role fd completed
  | .opens fd => .ok { server with toEventLoop := server.takeDescriptor fd }
  | .closes fd =>
    if server.owned fd ≠ none then .ok server
    else .ok { server with registry :=
      { server.registry with kernel := server.registry.kernel.close fd } }
  | .arrive number bytes =>
    if server.registry.channels.length ≤ number then .ok server
    else
      let arrived := { server with
        ready := Function.update server.ready number (server.ready number ++ bytes) }
      .ok (arrived.record number [.arrive bytes])
  | .epollWait events =>
    if server.mayReport events then .ok { server with reported := events } else .ok server
  | .dispatch answers =>
    match server.reported with
    | [] => .ok server
    | event :: events => { server with reported := events }.dispatchEvent event answers
  | .handlePending => server.handlePendingChannel

end Yolanda.App
