import Yolanda.App.HttpStep
import Yolanda.App.Rot13Echo

/-! What a failing `readv` does to a connection: first for any handlers, whichever library
they are of, then for those of the C++ library. -/

namespace Yolanda

open Foundation

/-- The values of `errno` a failed `readv` may leave. -/
inductive ReadErrno where
  | again
  | wouldBlock
  | interrupted
  | connReset
  | other
  deriving DecidableEq, Repr

/-- The failures after which the socket is as good as before. -/
def ReadErrno.transient : ReadErrno → Bool
  | .again | .wouldBlock | .interrupted => true
  | .connReset | .other => false

/-- The bytes one `readv` delivers, no more than Linux transfers at once. -/
structure Delivered where
  bytes : Bytes
  limited : bytes.length ≤ App.maxReadCount

/-- What `readv` answers. No bytes are the end of the stream. -/
inductive ReadResult where
  | delivered (data : Delivered)
  | failed (errno : ReadErrno)

namespace ReadResult

/-- What `socket_read` sees of the answer. It does not look at `errno`. -/
def received : ReadResult → Option Bytes
  | .delivered data => some data.bytes
  | .failed _ => none

def transient : ReadResult → Bool
  | .delivered _ => false
  | .failed errno => errno.transient

/-- The end of the stream, or a failure that stays. -/
def final : ReadResult → Bool
  | .delivered data => data.bytes.isEmpty
  | .failed errno => !errno.transient

end ReadResult

/-- What can be seen of a connection from outside. -/
structure ConnectionView (Connection Buffers : Type) where
  registered : Connection → Bool
  buffers : Connection → Buffers
  closedCalls : Connection → Nat

/-- A callback that neither ends the connection nor calls the `connectionClosedCallBack`. One
that is not installed does nothing. -/
structure KeepingCallback {Connection Buffers : Type} (view : ConnectionView Connection Buffers)
    (Stop : Type) where
  call : Connection → Except Stop Connection
  keeps : ∀ before after, call before = .ok after →
    view.registered after = view.registered before ∧
      view.closedCalls after = view.closedCalls before

/-- What the loop reports of a descriptor, with the callback that is called for it. `memory`
says whether the C library is given the memory it asks for. -/
inductive DescriptorEvent {Connection Buffers : Type} (view : ConnectionView Connection Buffers)
    (Stop : Type) where
  | readable (result : ReadResult) (memory : Bool) (message : KeepingCallback view Stop)
  | writable (result : App.WriteResult) (completed : KeepingCallback view Stop)

section Survival

variable {Connection Buffers Stop : Type} {view : ConnectionView Connection Buffers}

def DescriptorEvent.transient : DescriptorEvent view Stop → Bool
  | .readable result _ _ => result.transient
  | .writable .. => false

def DescriptorEvent.final : DescriptorEvent view Stop → Bool
  | .readable result _ _ => result.final
  | .writable .. => false

variable (view) in
/-- A connection survives its transient failures, which change nothing of it, and is ended only
by the end of the stream or a failure that stays. -/
structure Survives (step : Connection → DescriptorEvent view Stop → Except Stop Connection)
    (connection : Connection) (events : List (DescriptorEvent view Stop)) : Prop where
  transient : Along step (fun before event => view.registered before = true →
    event.transient = true → ∃ after, step before event = .ok after ∧
      view.registered after = true ∧ view.buffers after = view.buffers before ∧
      view.closedCalls after = view.closedCalls before) connection events
  ended : Along step (fun before event => view.registered before = true → event.final = false →
    ∀ after, step before event = .ok after → view.registered after = true ∧
      view.closedCalls after = view.closedCalls before) connection events

/-- Handlers under which a transient failure ends a connection, and nothing else that should
not, let a connection survive exactly the runs without such failures. -/
theorem survives_iff_of {step : Connection → DescriptorEvent view Stop → Except Stop Connection}
    (closes : ∀ before event after, view.registered before = true → event.transient = true →
      step before event = .ok after → view.registered after = false)
    (keeps : ∀ before event after, view.registered before = true → event.transient = false →
      event.final = false → step before event = .ok after →
        view.registered after = true ∧ view.closedCalls after = view.closedCalls before)
    (connection : Connection) (events : List (DescriptorEvent view Stop)) :
    Survives view step connection events ↔
      Along step (fun before event => view.registered before = true → event.transient = false)
        connection events := by
  constructor
  · intro survives
    refine Along.weaken ?_ survives.transient
    intro before event kept registered
    by_contra transient
    have failing := Bool.eq_true_of_not_eq_false transient
    obtain ⟨after, success, still, _⟩ := kept registered failing
    have gone := closes before event after registered failing success
    rw [gone] at still
    cases still
  · intro calm
    constructor
    · refine Along.weaken ?_ calm
      intro before event steady registered transient
      rw [steady registered] at transient
      cases transient
    · refine Along.weaken ?_ calm
      intro before event steady registered lasts after success
      exact keeps before event after registered (steady registered) lasts success

/-- Handlers under which every failing read ends a connection, and other events leave that to
their callbacks, let a connection survive exactly the runs without transient failures. -/
theorem survives_iff_of_handlers
    {step : Connection → DescriptorEvent view Stop → Except Stop Connection}
    (failed : ∀ before errno memory message after, view.registered before = true →
      step before (.readable (.failed errno) memory message) = .ok after →
        view.registered after = false)
    (delivered : ∀ before (data : Delivered) memory message after,
      view.registered before = true → data.bytes ≠ [] →
        step before (.readable (.delivered data) memory message) = .ok after →
          ∃ filled, message.call filled = .ok after ∧
            view.registered filled = view.registered before ∧
            view.closedCalls filled = view.closedCalls before)
    (writable : ∀ before result completed after, view.registered before = true →
      step before (.writable result completed) = .ok after →
        view.registered after = view.registered before ∧
          view.closedCalls after = view.closedCalls before)
    (connection : Connection) (events : List (DescriptorEvent view Stop)) :
    Survives view step connection events ↔
      Along step (fun before event => view.registered before = true → event.transient = false)
        connection events := by
  apply survives_iff_of
  · intro before event after registered transient success
    cases event with
    | readable result memory message =>
      cases result with
      | delivered data => cases transient
      | failed errno => exact failed before errno memory message after registered success
    | writable result completed => cases transient
  · intro before event after registered steady lasts success
    cases event with
    | readable result memory message =>
      cases result with
      | delivered data =>
        have some : data.bytes ≠ [] := List.isEmpty_eq_false_iff.mp lasts
        obtain ⟨filled, called, same, calls⟩ :=
          delivered before data memory message after registered some success
        obtain ⟨kept, quiet⟩ := message.keeps filled after called
        exact ⟨kept.trans (same.trans registered), quiet.trans calls⟩
      | failed errno =>
        have transient : errno.transient = true := by
          simpa [DescriptorEvent.final, ReadResult.final] using lasts
        exact absurd (steady.symm.trans transient) (by simp)
    | writable result completed =>
      obtain ⟨kept, quiet⟩ := writable before result completed after registered success
      exact ⟨kept.trans registered, quiet⟩

end Survival

namespace App

def Action.isClosed : Action → Bool
  | .closed => true
  | _ => false

/-- What can be seen of a `tcp_connection`. -/
def connectionView : ConnectionView TcpConnection (Buffer × Buffer) where
  registered connection := connection.watched
  buffers connection := (connection.inputBuffer, connection.outputBuffer)
  closedCalls connection := connection.trace.countP Action.isClosed

/-- A `connectionClosedCallBack`, which is called when the connection has ended. -/
structure ClosedCallback where
  call : TcpConnection → TcpConnection
  keeps : ∀ connection, (call connection).watched = connection.watched

/-- The activation of the channel of a connection, whatever its callbacks. -/
def descriptorStep (connectionClosed : ClosedCallback) (connection : TcpConnection)
    (event : DescriptorEvent connectionView Fault) : Except Fault TcpConnection :=
  if connection.watched then
    match event with
    | .readable result _ message =>
      connection.handleRead message.call connectionClosed.call result.received
    | .writable result completed => connection.handleWrite completed.call result
  else .ok connection

variable {before after connection : TcpConnection}

/-- Calls other than that of the `connectionClosedCallBack` end no connection. -/
private theorem keeps_record {actions : List Action} (quiet : actions.countP Action.isClosed = 0) :
    connectionView.registered (connection.record actions) = connectionView.registered connection ∧
      connectionView.closedCalls (connection.record actions) =
        connectionView.closedCalls connection := by
  constructor
  · rfl
  · change (connection.trace ++ actions).countP Action.isClosed = _
    rw [List.countP_append, quiet]
    rfl

private theorem keeps_consumeWritten (connection : TcpConnection) (count : Nat) :
    connectionView.registered (connection.consumeWritten count) =
        connectionView.registered connection ∧
      connectionView.closedCalls (connection.consumeWritten count) =
        connectionView.closedCalls connection := by
  simp only [TcpConnection.consumeWritten]
  split
  · exact keeps_record rfl
  · exact ⟨rfl, rfl⟩

/-- A failing `readv` ends the connection, whatever the reason. -/
theorem handleRead_failed (connectionClosed : ClosedCallback)
    {message : TcpConnection → Except Fault TcpConnection}
    (success : before.handleRead message connectionClosed.call none = .ok after) :
    after.watched = false := by
  obtain ⟨⟨count, input⟩, read, rest⟩ := bind_eq_ok.mp success
  cases read
  cases rest
  exact connectionClosed.keeps _

/-- Bytes that arrive are passed to the `messageCallBack`. -/
theorem handleRead_some {message : TcpConnection → Except Fault TcpConnection}
    {connectionClosed : TcpConnection → TcpConnection} {bytes : Bytes} (some : bytes ≠ [])
    (success : before.handleRead message connectionClosed (.some bytes) = .ok after) :
    ∃ inputBuffer, message { before with inputBuffer } = .ok after := by
  obtain ⟨⟨count, input⟩, read, rest⟩ := bind_eq_ok.mp success
  have length := socketRead_count read
  have positive : count > 0 := by
    rw [length]
    exact Int.natCast_pos.mpr (List.length_pos_of_ne_nil some)
  simp only [positive, ↓reduceIte] at rest
  exact ⟨input, rest⟩

/-- `handle_write` ends no connection. -/
theorem handleWrite_keeps (completed : KeepingCallback connectionView Fault)
    {result : WriteResult} (success : before.handleWrite completed.call result = .ok after) :
    connectionView.registered after = connectionView.registered before ∧
      connectionView.closedCalls after = connectionView.closedCalls before := by
  obtain ⟨queued, _, rest⟩ := bind_eq_ok.mp success
  cases result with
  | failed errno =>
    cases rest
    exact keeps_record rfl
  | wrote count =>
    have noted : connectionView.registered (before.record [.write (queued.take count)]) =
        connectionView.registered before ∧
        connectionView.closedCalls (before.record [.write (queued.take count)]) =
          connectionView.closedCalls before := keeps_record rfl
    by_cases some : min count queued.length > 0
    · simp only [some, ↓reduceIte] at rest
      have called := completed.keeps _ _ rest
      have consumed := keeps_consumeWritten (before.record [.write (queued.take count)])
        (min count queued.length)
      exact ⟨called.1.trans (consumed.1.trans noted.1), called.2.trans (consumed.2.trans noted.2)⟩
    · simp only [some, ↓reduceIte] at rest
      cases rest
      exact noted

/-- A connection of the C++ library survives exactly the runs without transient failures. -/
theorem descriptor_survives_iff (connectionClosed : ClosedCallback) (connection : TcpConnection)
    (events : List (DescriptorEvent connectionView Fault)) :
    Survives connectionView (descriptorStep connectionClosed) connection events ↔
      Along (descriptorStep connectionClosed)
        (fun before event => before.watched = true → event.transient = false) connection
        events := by
  apply survives_iff_of_handlers
  · intro before errno memory message after watched success
    rw [descriptorStep, if_pos (show before.watched = true from watched)] at success
    exact handleRead_failed connectionClosed success
  · intro before data memory message after watched some success
    rw [descriptorStep, if_pos (show before.watched = true from watched)] at success
    obtain ⟨inputBuffer, called⟩ := handleRead_some some success
    exact ⟨{ before with inputBuffer }, called, rfl, rfl⟩
  · intro before result completed after watched success
    rw [descriptorStep, if_pos (show before.watched = true from watched)] at success
    exact handleWrite_keeps completed success

/-- Data is sent without an end of the connection. -/
private theorem sendData_keeps {data : Bytes} {result : WriteResult} {sent : Int}
    (success : before.sendData data result = .ok (sent, after)) :
    connectionView.registered after = connectionView.registered before ∧
      connectionView.closedCalls after = connectionView.closedCalls before := by
  have done := TcpConnection.sendData_sent success
  refine ⟨done.kept.watched, ?_⟩
  have queued : ∀ {middle : TcpConnection} {rest : Bytes},
      TcpConnection.Queued middle after rest →
      connectionView.closedCalls after = connectionView.closedCalls middle := by
    intro middle rest queued
    obtain ⟨output, updates, _, shape, same⟩ := queued.stored
    rw [same]
    change (middle.trace ++ updates).countP Action.isClosed = _
    rw [List.countP_append]
    rcases shape with rfl | rfl
    · rfl
    · rfl
  cases done with
  | refused idle => exact (keeps_record rfl).2
  | direct idle => exact (keeps_record rfl).2
  | split idle parts pending stored => exact (queued stored).trans (keeps_record rfl).2
  | nothing busy empty => exact (keeps_record rfl).2
  | queued busy pending whole stored => exact (queued stored).trans (keeps_record rfl).2

/-- `http_onMessage` ends no connection. -/
def httpMessage (fuel : Nat) (turn : Turn) : KeepingCallback connectionView Fault where
  call := httpOnMessage fuel turn
  keeps := by
    intro before after success
    obtain ⟨request, parsed, sent, closes, handled⟩ := httpOnMessage_handled success
    obtain ⟨count, sends⟩ := handled.sends
    have kept := sendData_keeps sends
    have called : (turn.calls parsed.request).countP Action.isClosed = 0 := by
      unfold Turn.calls
      cases turn.requestCallback with
      | none => rfl
      | some callback => rfl
    have noted := @keeps_record { before with
      inputBuffer := parsed.input
      request := some parsed.request } _ called
    have told : connectionView.closedCalls after = connectionView.closedCalls sent := by
      rw [handled.result]
      cases closes with
      | true => exact (keeps_record rfl).2
      | false => rfl
    exact ⟨handled.watched, told.trans (kept.2.trans noted.2)⟩

/-- `onMessage` of the echo server ends no connection. -/
def rot13Message (result : WriteResult) : KeepingCallback connectionView Fault where
  call := rot13OnMessage result
  keeps := by
    intro before after success
    obtain ⟨⟨inputBuffer, output⟩, _, rest⟩ := bind_eq_ok.mp success
    obtain ⟨⟨count, sent, emptied⟩, sends, last⟩ := bind_eq_ok.mp rest
    cases last
    obtain ⟨data, _, writes⟩ := bind_eq_ok.mp sends
    obtain ⟨⟨number, written⟩, success, whole⟩ := bind_eq_ok.mp writes
    cases whole
    have kept := sendData_keeps success
    exact ⟨kept.1, kept.2⟩

/-- `http_onConnectionClosed` -/
def httpClosed : ClosedCallback where
  call := httpOnConnectionClosed
  keeps _ := rfl

/-- `http_onWriteCompleted` -/
def httpCompleted : KeepingCallback connectionView Fault where
  call := httpOnWriteCompleted
  keeps := by
    intro before after success
    cases success
    exact ⟨rfl, rfl⟩

/-- The events of an HTTP connection are such events. -/
theorem descriptorStep_http (fuel : Nat) (connection : TcpConnection) (result : ReadResult)
    (memory : Bool) (turn : Turn) :
    descriptorStep httpClosed connection (.readable result memory (httpMessage fuel turn)) =
        httpStep fuel connection (.read result.received turn) ∧
      ∀ written, descriptorStep httpClosed connection (.writable written httpCompleted) =
        httpStep fuel connection (.writable written) := by
  constructor
  · rfl
  · intro written
    rfl

end App

end Yolanda
