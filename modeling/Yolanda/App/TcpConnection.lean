import Yolanda.App.BufferInvariant
import Yolanda.App.Channel
import Yolanda.App.HttpRequest

namespace Yolanda.App

open Foundation

/-- The values of `errno` that `send_data` tells apart. -/
inductive Errno where
  | wouldBlock
  | pipe
  | connReset
  | other
  deriving DecidableEq, Repr

/-- What `write` answers: how much it takes, at most all, or -1 with an `errno`. -/
inductive WriteResult where
  | wrote (count : Nat)
  | failed (errno : Errno)
  deriving DecidableEq, Repr

/-- The calls a connection makes to the outside, and its own calls of `send_data`. -/
inductive Action where
  /-- `write`, with the bytes the socket takes. -/
  | write (taken : Bytes)
  /-- `send_data`, which `EPIPE` and `ECONNRESET` make drop its data. -/
  | send (data : Bytes) (refused : Bool)
  /-- `update_channel_event`, called on the object the pointer addresses. -/
  | update (target : Pointer)
  /-- `remove_channel_event`, with the bytes that are still queued for output. -/
  | remove (queued : Bytes)
  /-- `connectionClosedCallBack` -/
  | closed
  /-- `requestCallback` -/
  | request (request : HttpRequest)
  /-- `shutdown(fd, SHUT_WR)`, with the bytes that are still queued for output. -/
  | shutdown (queued : Bytes)

/-- `struct tcp_connection`. `watched` tells whether the loop still maps the
descriptor to this channel, and `trace` keeps the calls made so far. -/
structure TcpConnection where
  eventLoop : Nat
  chan : Channel
  inputBuffer : Buffer
  outputBuffer : Buffer
  request : Option HttpRequest
  watched : Bool
  trace : List Action

/-- The block a system call reads when it is given the read position and `readable()`. -/
def Buffer.readableBlock (buffer : Buffer) : Except Fault Bytes :=
  if buffer.readIndex + buffer.readable ≤ buffer.data.length then
    .ok (window buffer.data buffer.readIndex (buffer.readIndex + buffer.readable))
  else .error .memory

namespace TcpConnection

/-- The constructor, up to the `connectionCompletedCallBack`. -/
def new (self eventLoop : Nat) (connectedFd : Int) : TcpConnection :=
  { eventLoop
    chan :=
      { fd := connectedFd
        events := eventRead
        eventReadCallback := some .handleRead
        eventWriteCallback := some .handleWrite
        data := .tcpConnection self }
    inputBuffer := .new
    outputBuffer := .new
    request := none
    watched := true
    trace := [] }

def record (connection : TcpConnection) (actions : List Action) : TcpConnection :=
  { connection with trace := connection.trace ++ actions }

/-- `channel::write_event_enable` on the connection's channel. -/
def writeEventEnable (connection : TcpConnection) : TcpConnection :=
  { connection with chan := connection.chan.writeEventEnable }.record
    [.update connection.chan.data]

/-- `channel::write_event_disable` on the connection's channel. -/
def writeEventDisable (connection : TcpConnection) : TcpConnection :=
  { connection with chan := connection.chan.writeEventDisable }.record
    [.update connection.chan.data]

/-- The test of `send_data` for a direct write. -/
def idle (connection : TcpConnection) : Bool :=
  !connection.chan.writeEventIsEnabled && connection.outputBuffer.readable == 0

/-- The direct write of `send_data`: `nwrited` and `fault`, with the connection. -/
def writeDirectly (connection : TcpConnection) (data : Bytes) (result : WriteResult) :
    Nat × Bool × TcpConnection :=
  if connection.idle then
    match result with
    | .wrote count => (min count data.length, false, connection.record [.write (data.take count)])
    | .failed errno =>
      (0, errno = .pipe || errno = .connReset, connection.record [.write []])
  else (0, false, connection)

/-- The second part of `send_data`, for the bytes that were not written. -/
def queueRest (connection : TcpConnection) (fault : Bool) (rest : Bytes) :
    Except Fault TcpConnection :=
  if !fault && rest.length > 0 then do
    let outputBuffer ← connection.outputBuffer.append (some rest) (intOfSize rest.length)
    let connection := { connection with outputBuffer }
    if connection.chan.writeEventIsEnabled then return connection
    else return connection.writeEventEnable
  else return connection

/-- `send_data`. `result` is the answer of the socket if the data is written at once. -/
def sendData (connection : TcpConnection) (data : Bytes) (result : WriteResult) :
    Except Fault (Int × TcpConnection) := do
  let (nwrited, fault, connection) := connection.writeDirectly data result
  let connection ← (connection.record [.send data fault]).queueRest fault (data.drop nwrited)
  return (intOfSize nwrited, connection)

/-- `send_buffer`, which consumes the buffer it is given. -/
def sendBuffer (connection : TcpConnection) (buffer : Buffer) (result : WriteResult) :
    Except Fault (Int × TcpConnection × Buffer) := do
  let data ← buffer.readableBlock
  let (sent, connection) ← connection.sendData data result
  return (sent, connection, { buffer with readIndex := buffer.readIndex + buffer.readable })

/-- `shutdown`. A failure of the system call is only reported. -/
def shutdown (connection : TcpConnection) : TcpConnection :=
  connection.record [.shutdown connection.outputBuffer.contents]

/-- The connection after `nwrited` queued bytes went out: when these were the last,
the write interest ends. -/
def consumeWritten (connection : TcpConnection) (nwrited : Nat) : TcpConnection :=
  let outputBuffer : Buffer := { connection.outputBuffer with
    readIndex := connection.outputBuffer.readIndex + nwrited }
  if outputBuffer.readable = 0 then { connection with outputBuffer }.writeEventDisable
  else { connection with outputBuffer }

/-- `handle_write`, with the `writeCompletedCallBack`. -/
def handleWrite (writeCompleted : TcpConnection → Except Fault TcpConnection)
    (connection : TcpConnection) (result : WriteResult) : Except Fault TcpConnection := do
  let queued ← connection.outputBuffer.readableBlock
  match result with
  | .failed _ => return connection.record [.write []]
  | .wrote count =>
    let nwrited := min count queued.length
    let connection := connection.record [.write (queued.take count)]
    if nwrited > 0 then writeCompleted (connection.consumeWritten nwrited)
    else return connection

/-- `handle_connection_closed`, with the `connectionClosedCallBack`. The loop takes the
channel out of its map at once, as the handlers run in its own thread. -/
def handleConnectionClosed (connectionClosed : TcpConnection → TcpConnection)
    (connection : TcpConnection) : TcpConnection :=
  connectionClosed ({ connection with watched := false }.record
    [.remove connection.outputBuffer.contents, .closed])

/-- `handle_read`, with the `messageCallBack`. `received` is what `readv` delivers. -/
def handleRead (message : TcpConnection → Except Fault TcpConnection)
    (connectionClosed : TcpConnection → TcpConnection) (connection : TcpConnection)
    (received : Option Bytes) : Except Fault TcpConnection := do
  let (result, inputBuffer) ← connection.inputBuffer.socketRead received
  let connection := { connection with inputBuffer }
  if result > 0 then message connection
  else return connection.handleConnectionClosed connectionClosed

end TcpConnection

end Yolanda.App
