import Yolanda.App.ConnectionStep
import Yolanda.Lib.Buffer

/-! The sending side of a connection of the C library. -/

namespace Yolanda.Lib

open App (Channel Errno WriteResult accepted written)

/-- What the sending side of `struct tcp_connection` reads and changes. `trace` keeps the
calls made so far. -/
structure TcpConnection where
  chan : Channel
  outputBuffer : Buffer
  trace : List App.Action

/-- The offset a pointer moves by when a `size_t` is added to it, modulo the address space. -/
def offsetOfSize (size : Nat) : Int :=
  Int.bmod size (2 ^ 64)

/-- The first `size` bytes behind a pointer. -/
def Pointer.bytes (pointer : Pointer) (size : Int) : Bytes :=
  pointer.rest.take size.toNat

/-- The answers for which a send is not accepted: nobody will read what is sent. -/
def Refuses : WriteResult → Bool
  | .failed errno => errno = .pipe || errno = .connReset
  | .wrote _ => false

namespace TcpConnection

/-- What `tcp_connection_new` makes of the channel and the output buffer. -/
def new (self : Nat) (connectedFd : Int) : TcpConnection :=
  { chan := App.connectionChannel self connectedFd
    outputBuffer := .new
    trace := [] }

def record (connection : TcpConnection) (actions : List App.Action) : TcpConnection :=
  { connection with trace := connection.trace ++ actions }

/-- `channel_write_event_enable` on the connection's channel. -/
def writeEventEnable (connection : TcpConnection) : TcpConnection :=
  { connection with chan := connection.chan.writeEventEnable }.record
    [.update connection.chan.data]

/-- `channel_write_event_disable` on the connection's channel. -/
def writeEventDisable (connection : TcpConnection) : TcpConnection :=
  { connection with chan := connection.chan.writeEventDisable }.record
    [.update connection.chan.data]

/-- The test of `tcp_connection_send_data` for a direct write. -/
def mayWrite (connection : TcpConnection) : Except Stop Bool :=
  if connection.chan.writeEventIsEnabled then return false
  else do
    let readable ← connection.outputBuffer.readableSize
    return readable == 0

/-- The direct write: `nwrited` and `nleft`, with the connection. A `size_t` is never less
than 0, so `fault` stays 0 and -1 counts as so many bytes written. -/
def writeDirectly (connection : TcpConnection) (data : Pointer) (size : Int)
    (result : WriteResult) : Except Stop (Nat × Nat × TcpConnection) := do
  let nleft := sizeOfInt size
  if ← connection.mayWrite then do
    let bytes ← data.read (sizeOfInt size)
    let (nwrited, taken) := match result with
      | .wrote count => (min count bytes.length, bytes.take count)
      | .failed _ => (2 ^ 64 - 1, [])
    return (nwrited, sizeSub nleft nwrited, connection.record [.write taken,
      .send (data.bytes size) (Refuses result)])
  else return (0, nleft, connection.record [.send (data.bytes size) false])

/-- The second part of `tcp_connection_send_data`, for the `nleft` bytes from `source` on. -/
def queueRest (connection : TcpConnection) (source : Pointer) (nleft : Nat) (memory : Bool) :
    Except Stop TcpConnection :=
  if nleft > 0 then do
    let outputBuffer ← connection.outputBuffer.append (some source) (intOfSize nleft) memory
    let connection := { connection with outputBuffer }
    if connection.chan.writeEventIsEnabled then return connection
    else return connection.writeEventEnable
  else return connection

/-- `tcp_connection_send_data`. `result` is the answer of the socket if the data is written at
once, and `memory` says whether `realloc` finds the memory. -/
def sendData (connection : TcpConnection) (data : Pointer) (size : Int) (result : WriteResult)
    (memory : Bool) : Except Stop (Int × TcpConnection) := do
  let (nwrited, nleft, connection) ← connection.writeDirectly data size result
  let connection ← connection.queueRest (data.add (offsetOfSize nwrited)) nleft memory
  return (intOfSize nwrited, connection)

/-- `tcp_connection_send_buffer`, which consumes the buffer it is given. -/
def sendBuffer (connection : TcpConnection) (buffer : Buffer) (result : WriteResult)
    (memory : Bool) : Except Stop (Int × TcpConnection × Buffer) := do
  let size ← buffer.readableSize
  let (sent, connection) ←
    connection.sendData ⟨buffer.data, buffer.readIndex⟩ size result memory
  let readIndex ← intResult (buffer.readIndex + size)
  return (sent, connection, { buffer with readIndex })

/-- `handle_write` up to the `writeCompletedCallBack`, with which it ends. -/
def handleWrite (connection : TcpConnection) (result : WriteResult) :
    Except Stop TcpConnection := do
  let readable ← connection.outputBuffer.readableSize
  let queued ← (Pointer.mk connection.outputBuffer.data connection.outputBuffer.readIndex).read
    (sizeOfInt readable)
  match result with
  | .failed _ => return connection.record [.write []]
  | .wrote count =>
    let nwrited := min count queued.length
    let connection := connection.record [.write (queued.take count)]
    if nwrited > 0 then do
      let readIndex ← intResult (connection.outputBuffer.readIndex + nwrited)
      let outputBuffer := { connection.outputBuffer with readIndex }
      let left ← outputBuffer.readableSize
      if left = 0 then return { connection with outputBuffer }.writeEventDisable
      else return { connection with outputBuffer }
    else return connection

end TcpConnection

/-- What can happen to the output of a connection. The sends of a `writeCompletedCallBack`
are the events behind its `handle_write`. -/
inductive OutputEvent where
  | sendData (data : Pointer) (size : Int) (result : WriteResult) (memory : Bool)
  | sendBuffer (buffer : Buffer) (result : WriteResult) (memory : Bool)
  | handleWrite (result : WriteResult)

def outputStep (connection : TcpConnection) : OutputEvent → Except Stop TcpConnection
  | .sendData data size result memory => do
    let (_, connection) ← connection.sendData data size result memory
    return connection
  | .sendBuffer buffer result memory => do
    let (_, connection, _) ← connection.sendBuffer buffer result memory
    return connection
  | .handleWrite result => connection.handleWrite result

/-- The object behind the pointer has `size` bytes from there on. -/
structure Pointer.Holds (pointer : Pointer) (size : Int) : Prop where
  start : 0 ≤ pointer.offset
  positive : 0 ≤ size
  bounded : size < 2 ^ 31
  within : pointer.offset + size ≤ pointer.object.length

/-- What a caller has to see to. -/
def OutputEvent.Permitted : OutputEvent → Prop
  | .sendData data size _ memory => memory = true ∧ data.Holds size
  | .sendBuffer buffer _ memory => memory = true ∧ buffer.Valid
  | .handleWrite _ => True

end Yolanda.Lib
