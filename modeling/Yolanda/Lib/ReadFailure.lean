import Yolanda.App.ReadFailure
import Yolanda.Lib.TcpConnection

/-! What a failing `readv` does to a connection of the C library. -/

namespace Yolanda.Lib

open Foundation

/-- A connection with its receiving side. `watched` tells whether the loop still has the channel
of the descriptor. -/
structure Connection extends TcpConnection where
  inputBuffer : Buffer
  watched : Bool

/-- What can be seen of it. -/
def connectionView : ConnectionView Connection (Buffer × Buffer) where
  registered connection := connection.watched
  buffers connection := (connection.inputBuffer, connection.outputBuffer)
  closedCalls connection := connection.trace.countP App.Action.isClosed

/-- A `connectionClosedCallBack`, which is called when the connection has ended. -/
structure ClosedCallback where
  call : Connection → Connection
  keeps : ∀ connection, (call connection).watched = connection.watched

namespace Connection

/-- `handle_connection_closed`. The loop empties the slot of the channel at once, as the
handlers run in its own thread. -/
def handleConnectionClosed (connectionClosed : ClosedCallback) (connection : Connection) :
    Connection :=
  connectionClosed.call { connection with
    watched := false
    trace := connection.trace ++ [.remove connection.outputBuffer.contents, .closed] }

/-- `handle_read`, with the `messageCallBack`. -/
def handleRead (message : Connection → Except Stop Connection) (connectionClosed : ClosedCallback)
    (connection : Connection) (received : Option Bytes) (memory : Bool) :
    Except Stop Connection := do
  let (result, inputBuffer) ← connection.inputBuffer.socketRead received memory
  if result > 0 then message { connection with inputBuffer }
  else return { connection with inputBuffer }.handleConnectionClosed connectionClosed

/-- The bytes `handle_write` counts as written. -/
def taken (readable : Int) : App.WriteResult → Nat
  | .wrote count => min count (sizeOfInt readable)
  | .failed _ => 0

/-- `handle_write`, with the `writeCompletedCallBack`. -/
def handleWrite (completed : Connection → Except Stop Connection) (connection : Connection)
    (result : App.WriteResult) : Except Stop Connection := do
  let readable ← connection.outputBuffer.readableSize
  let written ← connection.toTcpConnection.handleWrite result
  let connection := { connection with toTcpConnection := written }
  if taken readable result > 0 then completed connection else return connection

end Connection

/-- The activation of the channel of a connection, whatever its callbacks. -/
def descriptorStep (connectionClosed : ClosedCallback) (connection : Connection)
    (event : DescriptorEvent connectionView Stop) : Except Stop Connection :=
  if connection.watched then
    match event with
    | .readable result memory message =>
      connection.handleRead message.call connectionClosed result.received memory
    | .writable result completed => connection.handleWrite completed.call result
  else .ok connection

variable {before after : Connection}

/-- A failing `readv` ends the connection, whatever the reason. -/
theorem handleRead_failed {connectionClosed : ClosedCallback} {memory : Bool}
    {message : Connection → Except Stop Connection}
    (success : before.handleRead message connectionClosed none memory = .ok after) :
    after.watched = false := by
  obtain ⟨⟨count, input⟩, read, rest⟩ := bind_eq_ok.mp success
  obtain ⟨writable, _, same⟩ := bind_eq_ok.mp read
  cases same
  cases rest
  exact connectionClosed.keeps _

/-- `buffer_socket_read` returns the number of the bytes it was given. -/
theorem socketRead_count {buffer filled : Buffer} {bytes : Bytes} {memory : Bool} {count : Int}
    (limited : bytes.length < 2 ^ 31)
    (success : buffer.socketRead (some bytes) memory = .ok (count, filled)) :
    count = bytes.length := by
  unfold Buffer.socketRead at success
  obtain ⟨writable, _, rest⟩ := bind_eq_ok.mp success
  have size := intOfSize_of_lt limited
  have positive : ¬ (bytes.length : Int) < 0 := by omega
  simp only [size, positive, ↓reduceIte] at rest
  split at rest
  · obtain ⟨index, _, same⟩ := bind_eq_ok.mp rest
    cases same
    rfl
  · obtain ⟨full, _, same⟩ := bind_eq_ok.mp rest
    cases same
    rfl

/-- Bytes that arrive are passed to the `messageCallBack`. -/
theorem handleRead_some {message : Connection → Except Stop Connection}
    {connectionClosed : ClosedCallback} {memory : Bool} {data : Delivered}
    (some : data.bytes ≠ [])
    (success : before.handleRead message connectionClosed (.some data.bytes) memory = .ok after) :
    ∃ inputBuffer, message { before with inputBuffer } = .ok after := by
  obtain ⟨⟨count, input⟩, read, rest⟩ := bind_eq_ok.mp success
  have limited : data.bytes.length < 2 ^ 31 := lt_of_le_of_lt data.limited (by decide)
  have positive : count > 0 := by
    rw [socketRead_count limited read]
    exact Int.natCast_pos.mpr (List.length_pos_of_ne_nil some)
  simp only [positive, ↓reduceIte] at rest
  exact ⟨input, rest⟩

/-- `handle_write` calls no `connectionClosedCallBack` itself. -/
theorem output_keeps {connection written : TcpConnection} {result : App.WriteResult}
    (success : connection.handleWrite result = .ok written) :
    written.trace.countP App.Action.isClosed = connection.trace.countP App.Action.isClosed := by
  obtain ⟨readable, _, rest⟩ := bind_eq_ok.mp success
  obtain ⟨queued, _, writes⟩ := bind_eq_ok.mp rest
  have noted : ∀ taken, (connection.trace ++ [App.Action.write taken]).countP App.Action.isClosed =
      connection.trace.countP App.Action.isClosed := by
    intro taken
    rw [List.countP_append]
    rfl
  cases result with
  | failed errno =>
    cases writes
    exact noted []
  | wrote count =>
    by_cases some : min count queued.length > 0
    · simp only [some, ↓reduceIte] at writes
      obtain ⟨readIndex, _, moved⟩ := bind_eq_ok.mp writes
      obtain ⟨left, _, last⟩ := bind_eq_ok.mp moved
      split at last
      · cases last
        change ((connection.trace ++ [App.Action.write (queued.take count)]) ++ _).countP _ = _
        rw [List.countP_append, noted]
        rfl
      · cases last
        exact noted _
    · simp only [some, ↓reduceIte] at writes
      cases writes
      exact noted _

/-- `handle_write` ends no connection. -/
theorem handleWrite_keeps (completed : KeepingCallback connectionView Stop)
    {result : App.WriteResult} (success : before.handleWrite completed.call result = .ok after) :
    connectionView.registered after = connectionView.registered before ∧
      connectionView.closedCalls after = connectionView.closedCalls before := by
  obtain ⟨readable, _, rest⟩ := bind_eq_ok.mp success
  obtain ⟨written, writes, last⟩ := bind_eq_ok.mp rest
  have noted := output_keeps writes
  split at last
  · have called := completed.keeps _ _ last
    exact ⟨called.1, called.2.trans noted⟩
  · cases last
    exact ⟨rfl, noted⟩

/-- A connection of the C library survives exactly the runs without transient failures. -/
theorem descriptor_survives_iff (connectionClosed : ClosedCallback) (connection : Connection)
    (events : List (DescriptorEvent connectionView Stop)) :
    Survives connectionView (descriptorStep connectionClosed) connection events ↔
      Along (descriptorStep connectionClosed)
        (fun before event => before.watched = true → event.transient = false) connection
        events := by
  apply survives_iff_of_handlers
  · intro before errno memory message after watched success
    rw [descriptorStep, if_pos (show before.watched = true from watched)] at success
    exact handleRead_failed success
  · intro before data memory message after watched some success
    rw [descriptorStep, if_pos (show before.watched = true from watched)] at success
    obtain ⟨inputBuffer, called⟩ := handleRead_some some success
    exact ⟨{ before with inputBuffer }, called, rfl, rfl⟩
  · intro before result completed after watched success
    rw [descriptorStep, if_pos (show before.watched = true from watched)] at success
    exact handleWrite_keeps completed success

/-- In both libraries a connection survives its transient failures exactly in the runs in which
it meets none. -/
theorem transient_survived_iff (appClosed : App.ClosedCallback) (appConnection : App.TcpConnection)
    (appEvents : List (DescriptorEvent App.connectionView Fault)) (connectionClosed : ClosedCallback)
    (connection : Connection) (events : List (DescriptorEvent connectionView Stop)) :
    (Survives App.connectionView (App.descriptorStep appClosed) appConnection appEvents ↔
      Along (App.descriptorStep appClosed)
        (fun before event => before.watched = true → event.transient = false) appConnection
        appEvents) ∧
    (Survives connectionView (descriptorStep connectionClosed) connection events ↔
      Along (descriptorStep connectionClosed)
        (fun before event => before.watched = true → event.transient = false) connection
        events) :=
  ⟨App.descriptor_survives_iff appClosed appConnection appEvents,
    descriptor_survives_iff connectionClosed connection events⟩

/-- A spurious report of the loop, after which `readv` has nothing to read, ends an HTTP
connection. -/
theorem spurious_read_closes : ¬ Survives App.connectionView (App.descriptorStep App.httpClosed)
    (.established 0 0 7)
    [.readable (.failed .again) true (App.httpMessage 1 ⟨none, .wrote 0, .wrote 0⟩)] := by
  intro survives
  obtain ⟨after, success, watched, _⟩ := survives.transient.1 rfl rfl
  cases success
  cases watched

end Yolanda.Lib
