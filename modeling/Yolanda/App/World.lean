import Yolanda.App.OutputStream

/-! A process with several loops, servers and connections, and the operations they queue.
`write_event_enable` and `write_event_disable` take the `data` of a channel for its loop. -/

namespace Yolanda.App

open Foundation

/-- A channel, named by the object that built it. -/
inductive ChannelRef where
  | wakeup (eventLoop : Nat)
  | listening (tcpServer : Nat)
  | connection (tcpConnection : Nat)
  deriving DecidableEq, Repr

/-- `TCPserver` after `start`. -/
structure TcpServer where
  eventLoop : Nat
  chan : Channel

/-- The objects of a process, and the operations queued so far, each with the number of
its loop. `loops` holds the wakeup channel of each loop. -/
structure World where
  loops : List Channel
  servers : List TcpServer
  connections : List TcpConnection
  queued : List (Nat × ChannelElement ChannelRef)

namespace World

def empty : World :=
  { loops := [], servers := [], connections := [], queued := [] }

/-- The loop a channel is added to. -/
def registration (world : World) : ChannelRef → Option Nat
  | .wakeup eventLoop => if eventLoop < world.loops.length then some eventLoop else none
  | .listening tcpServer => world.servers[tcpServer]?.map TcpServer.eventLoop
  | .connection tcpConnection => world.connections[tcpConnection]?.map TcpConnection.eventLoop

/-- `do_channel_event` up to the pending list of the loop. -/
def doChannelEvent (world : World) (eventLoop : Nat) (channel : ChannelRef) (type : Nat) :
    World :=
  { world with queued := world.queued ++ [(eventLoop, { type, channel })] }

/-- What a call made by a connection does to the loops. -/
def perform (world : World) (number eventLoop : Nat) : Action → Except Fault World
  | .update (.eventLoop target) =>
    if target < world.loops.length then .ok (world.doChannelEvent target (.connection number) 3)
    else .error .notEventLoop
  | .update _ => .error .notEventLoop
  | .remove _ => .ok (world.doChannelEvent eventLoop (.connection number) 2)
  | _ => .ok world

def performAll (world : World) (number eventLoop : Nat) : List Action → Except Fault World
  | [] => .ok world
  | action :: actions => do
    let world ← world.perform number eventLoop action
    world.performAll number eventLoop actions

/-- A connection goes on, and its new calls are performed. -/
def advance (world : World) (number : Nat) (before after : TcpConnection) :
    Except Fault World :=
  { world with connections := world.connections.set number after }.performAll number
    after.eventLoop (after.trace.drop before.trace.length)

/-- `event_loop::event_loop` -/
def newLoop (world : World) (fd : Int) : World :=
  let number := world.loops.length
  { world with loops := world.loops ++ [wakeupChannel number fd] }.doChannelEvent number
    (.wakeup number) 1

/-- `TCPserver::start` -/
def startServer (world : World) (eventLoop : Nat) (listenFd : Int) : World :=
  let number := world.servers.length
  let server := { eventLoop, chan := listeningChannel number listenFd }
  { world with servers := world.servers ++ [server] }.doChannelEvent eventLoop
    (.listening number) 1

/-- `handle_connection_established` for the chosen loop. The `connectionCompletedCallBack`
may send before the channel is added. -/
def accept (world : World) (eventLoop : Nat) (connectedFd : Int)
    (sends : List (Bytes × WriteResult)) : Except Fault World := do
  let number := world.connections.length
  let connection := TcpConnection.new number eventLoop connectedFd
  let world := { world with connections := world.connections ++ [connection] }
  let completed ← connection.sendAll sends
  let world ← world.advance number connection completed
  return world.doChannelEvent eventLoop (.connection number) 1

end World

/-- What the process does. Nothing happens where an object is missing. -/
inductive WorldEvent where
  | newLoop (fd : Int)
  | startServer (eventLoop : Nat) (listenFd : Int)
  | accept (tcpServer eventLoop : Nat) (connectedFd : Int) (sends : List (Bytes × WriteResult))
  | output (tcpConnection : Nat) (event : OutputEvent)
  | close (tcpConnection : Nat)

def worldStep (world : World) : WorldEvent → Except Fault World
  | .newLoop fd => .ok (world.newLoop fd)
  | .startServer eventLoop listenFd =>
    if eventLoop < world.loops.length then .ok (world.startServer eventLoop listenFd)
    else .ok world
  | .accept tcpServer eventLoop connectedFd sends =>
    if tcpServer < world.servers.length ∧ eventLoop < world.loops.length then
      world.accept eventLoop connectedFd sends
    else .ok world
  | .output number event =>
    match world.connections[number]? with
    | none => .ok world
    | some connection => do
      let after ← outputStep connection event
      world.advance number connection after
  | .close number =>
    match world.connections[number]? with
    | none => .ok world
    | some connection => world.advance number connection (connection.handleConnectionClosed id)

end Yolanda.App
