import Yolanda.App.ConnectionStep
import Yolanda.App.HttpServer
import Yolanda.App.RoundTrip
import Yolanda.Foundation.Run

/-! What the handlers of an HTTP connection that return have done, and what they do
with a read that completes a well-formed request. -/

namespace Yolanda.App

open Foundation TcpConnection

variable {connection after : TcpConnection} {turn : Turn} {fuel : Nat}

/-- The outcome of `http_onMessage`: one request was parsed to its end and answered,
and the sending side was shut down if the request asks for it. -/
structure Handled (connection : TcpConnection) (turn : Turn) (request : HttpRequest)
    (parsed : Parsing) (sent : TcpConnection) (closes : Bool) (after : TcpConnection) : Prop where
  pending : connection.request = some request
  returns : parseLoop.Returns ⟨connection.inputBuffer, request⟩ parsed
  sends : ∃ count, ({ connection with
      inputBuffer := parsed.input
      request := some parsed.request }.record (turn.calls parsed.request)).sendData
    (turn.respond parsed.request).2.wire turn.responseWrite = .ok (count, sent)
  decides : (turn.respond parsed.request).1.closeConnection = .ok closes
  result : after = { (if closes then sent.shutdown else sent) with request := some .new }

/-- An encoded response goes through `send_buffer` as its bytes. -/
private theorem sendBuffer_encoded (response : HttpResponse) (connection : TcpConnection)
    (result : WriteResult) :
    ∃ buffer, response.encodeBuffer .new = .ok buffer ∧
      connection.sendBuffer buffer result = (do
        let (sent, connection) ← connection.sendData response.wire result
        return (sent, connection, { buffer with readIndex := buffer.readIndex + buffer.readable })) := by
  obtain ⟨buffer, success, valid, contents⟩ := response.encodeBuffer_appends Buffer.new_valid
  refine ⟨buffer, success, ?_⟩
  unfold sendBuffer
  rw [valid.readableBlock_eq, ok_bind, contents, Buffer.new_contents, List.nil_append]

theorem answerRequest_ok {request : HttpRequest} :
    answerRequest connection request turn = .ok after ↔
      ∃ sentCount sent closes,
        (connection.record (turn.calls request)).sendData (turn.respond request).2.wire
          turn.responseWrite = .ok (sentCount, sent) ∧
        (turn.respond request).1.closeConnection = .ok closes ∧
        after = { (if closes then sent.shutdown else sent) with request := some .new } := by
  obtain ⟨buffer, encoded, sends⟩ := sendBuffer_encoded (turn.respond request).2
    (connection.record (turn.calls request)) turn.responseWrite
  unfold answerRequest
  simp only [encoded, ok_bind, sends]
  constructor
  · intro success
    obtain ⟨triple, first, next⟩ := bind_eq_ok.mp success
    obtain ⟨⟨sentCount, sent⟩, data, same⟩ := bind_eq_ok.mp first
    cases same
    obtain ⟨closes, decided, final⟩ := bind_eq_ok.mp next
    cases final
    exact ⟨sentCount, sent, closes, data, decided, rfl⟩
  · intro ⟨sentCount, sent, closes, data, decided, same⟩
    subst same
    exact bind_eq_ok.mpr ⟨_, bind_eq_ok.mpr ⟨_, data, rfl⟩, bind_eq_ok.mpr ⟨closes, decided, rfl⟩⟩

/-- `parse_http_request` returns 1 only, so no request is ever rejected. -/
theorem reactToParsed_done {parsed : Parsing} (finished : parsed.request.curState = .done) :
    reactToParsed connection 1 parsed turn =
      answerRequest { connection with
        inputBuffer := parsed.input
        request := some parsed.request } parsed.request turn := by
  have accepts : ∀ connection, rejectMalformed connection 1 turn = .ok connection :=
    fun _ => if_neg (by decide)
  unfold reactToParsed
  rw [accepts, ok_bind, if_pos finished]

theorem httpOnMessage_ok :
    httpOnMessage fuel turn connection = .ok after ↔
      ∃ request parsed, connection.request = some request ∧
        parseLoop.run fuel ⟨connection.inputBuffer, request⟩ = .ok parsed ∧
        answerRequest { connection with
          inputBuffer := parsed.input
          request := some parsed.request } parsed.request turn = .ok after := by
  have finished : ∀ {start parsed}, parseLoop.run fuel start = .ok parsed →
      parsed.request.curState = .done := by
    intro start parsed returns
    simpa [parseLoop] using (Loop.run_sound returns).2
  unfold httpOnMessage
  cases pending : connection.request with
  | none => simp
  | some request =>
    constructor
    · intro success
      obtain ⟨⟨ok, parsed⟩, first, next⟩ := bind_eq_ok.mp success
      obtain ⟨one, returns⟩ := parseHttpRequest_ok.mp first
      subst one
      exact ⟨request, parsed, rfl, returns, (reactToParsed_done (finished returns)).symm.trans next⟩
    · rintro ⟨other, parsed, same, returns, answered⟩
      cases same
      exact bind_eq_ok.mpr ⟨(1, parsed), parseHttpRequest_ok.mpr ⟨rfl, returns⟩,
        (reactToParsed_done (finished returns)).trans answered⟩

theorem httpOnMessage_handled (success : httpOnMessage fuel turn connection = .ok after) :
    ∃ request parsed sent closes, Handled connection turn request parsed sent closes after := by
  obtain ⟨request, parsed, pending, returns, answered⟩ := httpOnMessage_ok.mp success
  obtain ⟨sentCount, sent, closes, data, decided, same⟩ := answerRequest_ok.mp answered
  exact ⟨request, parsed, sent, closes, pending, ⟨fuel, returns⟩, ⟨sentCount, data⟩, decided, same⟩

section Handled

variable {request : HttpRequest} {parsed : Parsing} {sent : TcpConnection} {closes : Bool}

theorem Handled.sentData (handled : Handled connection turn request parsed sent closes after) :
    Sent ({ connection with
        inputBuffer := parsed.input
        request := some parsed.request }.record (turn.calls parsed.request))
      (turn.respond parsed.request).2.wire
      (connection.unsent (turn.respond parsed.request).2.wire turn.responseWrite) sent := by
  obtain ⟨count, success⟩ := handled.sends
  exact sendData_sent success

theorem Handled.storable (handled : Handled connection turn request parsed sent closes after)
    (valid : connection.outputBuffer.Valid) :
    Storable (connection.unsent (turn.respond parsed.request).2.wire turn.responseWrite) := by
  obtain ⟨count, success⟩ := handled.sends
  let middle := ({ connection with
    inputBuffer := parsed.input
    request := some parsed.request }).record (turn.calls parsed.request)
  have kept : middle.outputBuffer.Valid := valid
  exact (sendData_returns_iff kept).mp ⟨count, sent, success⟩

/-- The shutdown behind the response to a closing request. -/
theorem closing_quiet (closes : Bool) (queued : Bytes) :
    requests (if closes then [Action.shutdown queued] else []) = [] ∧
      sends (if closes then [Action.shutdown queued] else []) = [] ∧
      ∀ action ∈ (if closes then [Action.shutdown queued] else []), action.isWrite = false := by
  cases closes with
  | true => exact ⟨rfl, rfl, by simp [Action.isWrite]⟩
  | false => exact ⟨rfl, rfl, by simp⟩

/-- The calls made while one request is handled. -/
theorem Handled.trace (handled : Handled connection turn request parsed sent closes after) :
    ∃ actions, after.trace = connection.trace ++ turn.calls parsed.request ++ actions ++
        (if closes then [.shutdown sent.outputBuffer.contents] else []) ∧
      sent.trace = connection.trace ++ turn.calls parsed.request ++ actions ∧
      Sending actions (turn.respond parsed.request).2.wire ∧
      (connection.idle = false ↔ ∀ action ∈ actions, action.isWrite = false) := by
  obtain ⟨actions, extended, sending, quiet⟩ := handled.sentData.sending
  refine ⟨actions, ?_, extended, sending, quiet⟩
  rw [handled.result]
  cases closes with
  | true =>
    change sent.trace ++ [_] = _
    rw [extended]
    rfl
  | false =>
    change sent.trace = _
    rw [extended]
    exact (List.append_nil _).symm

theorem Handled.inputBuffer (handled : Handled connection turn request parsed sent closes after) :
    after.inputBuffer = parsed.input := by
  rw [handled.result]
  cases closes with
  | true => exact handled.sentData.kept.inputBuffer
  | false => exact handled.sentData.kept.inputBuffer

theorem Handled.watched (handled : Handled connection turn request parsed sent closes after) :
    after.watched = connection.watched := by
  rw [handled.result]
  cases closes with
  | true => exact handled.sentData.kept.watched
  | false => exact handled.sentData.kept.watched

theorem Handled.outputBuffer (handled : Handled connection turn request parsed sent closes after) :
    after.outputBuffer = sent.outputBuffer := by
  rw [handled.result]
  cases closes with
  | true => rfl
  | false => rfl

theorem Handled.output (handled : Handled connection turn request parsed sent closes after)
    (valid : connection.outputBuffer.Valid) : after.outputBuffer.Valid := by
  rw [handled.outputBuffer]
  exact handled.sentData.kept.output valid

theorem calls_requests (turn : Turn) (request : HttpRequest) :
    sends (turn.calls request) = [] ∧ ∀ action ∈ turn.calls request,
      action.endsOutput = false ∧ action.isWrite = false := by
  unfold Turn.calls
  cases turn.requestCallback with
  | none => exact ⟨rfl, fun _ member => nomatch member⟩
  | some callback =>
    refine ⟨rfl, ?_⟩
    intro action member
    rw [List.mem_singleton.mp member]
    exact ⟨rfl, rfl⟩

end Handled

/-- A connection whose peer is gone, as its loop leaves it. -/
def closedConnection (connection : TcpConnection) : TcpConnection :=
  { connection with
    request := none
    watched := false
    trace := connection.trace ++ [.remove connection.outputBuffer.contents, .closed] }

theorem socketRead_count {buffer filled : Buffer} {bytes : Bytes} {count : Int}
    (success : buffer.socketRead (some bytes) = .ok (count, filled)) : count = bytes.length := by
  unfold Buffer.socketRead at success
  by_cases direct : bytes.length ≤ buffer.writeable
  · simp only [direct, ↓reduceIte] at success
    cases success
    rfl
  · simp only [direct, ↓reduceIte] at success
    obtain ⟨appended, _, same⟩ := bind_eq_ok.mp success
    cases same
    rfl

private theorem socketRead_nil (buffer : Buffer) : buffer.socketRead (some []) = .ok (0, buffer) := by
  have direct : ([] : Bytes).length ≤ buffer.writeable := Nat.zero_le _
  simp only [Buffer.socketRead, direct, ↓reduceIte, overwrite_nil]
  rfl

/-- A read event ends the connection, or delivers bytes that complete a request. -/
theorem httpStep_read_cases {received : Option Bytes} (watched : connection.watched = true)
    (success : httpStep fuel connection (.read received turn) = .ok after) :
    ((received = none ∨ received = some []) ∧ after = closedConnection connection) ∨
      ∃ bytes input, received = some bytes ∧ bytes ≠ [] ∧
        connection.inputBuffer.socketRead (some bytes) = .ok (bytes.length, input) ∧
        httpOnMessage fuel turn { connection with inputBuffer := input } = .ok after := by
  simp only [httpStep, watched, ↓reduceIte] at success
  obtain ⟨⟨count, input⟩, first, next⟩ := bind_eq_ok.mp success
  cases received with
  | none =>
    cases first
    cases next
    exact .inl ⟨.inl rfl, rfl⟩
  | some bytes =>
    have counted := socketRead_count first
    subst counted
    cases bytes with
    | nil =>
      rw [socketRead_nil] at first
      cases first
      cases next
      exact .inl ⟨.inr rfl, rfl⟩
    | cons head tail =>
      have positive : (((head :: tail).length : Nat) : Int) > 0 := by
        simp only [List.length_cons]
        omega
      simp only [positive, ↓reduceIte] at next
      exact .inr ⟨head :: tail, input, rfl, List.cons_ne_nil _ _, first, next⟩

/-- A read on which the parser is known to return is handled with what it returns. -/
theorem httpStep_handled {bytes : Bytes} {input : Buffer} {request : HttpRequest}
    {parsed : Parsing} (watched : connection.watched = true)
    (pending : connection.request = some request) (nonempty : bytes ≠ [])
    (received : connection.inputBuffer.socketRead (some bytes) = .ok (bytes.length, input))
    (returns : parseLoop.Returns ⟨input, request⟩ parsed)
    (success : httpStep fuel connection (.read (some bytes) turn) = .ok after) :
    ∃ sent closes,
      Handled { connection with inputBuffer := input } turn request parsed sent closes after := by
  rcases httpStep_read_cases watched success with
    ⟨none | empty, _⟩ | ⟨other, buffer, same, _, read, message⟩
  · cases none
  · exact absurd (Option.some.inj empty) nonempty
  · cases same
    cases received.symm.trans read
    obtain ⟨first, state, sent, closes, handled⟩ := httpOnMessage_handled message
    have same : first = request := Option.some.inj (handled.pending.symm.trans pending)
    subst same
    cases handled.returns.unique returns
    exact ⟨sent, closes, handled⟩

/-- A write event writes a first part of the queue, possibly nothing. -/
theorem httpStep_writable_cases {result : WriteResult} (watched : connection.watched = true)
    (valid : connection.outputBuffer.Valid)
    (success : httpStep fuel connection (.writable result) = .ok after) :
    after = connection.record [.write []] ∨
      ∃ taken rest, taken ≠ [] ∧ connection.outputBuffer.contents = taken ++ rest ∧
        after = (connection.record [.write taken]).consumeWritten taken.length := by
  simp only [httpStep, watched, ↓reduceIte] at success
  rcases handleWrite_cases valid success with same | ⟨taken, rest, some, parts, called⟩
  · exact .inl same
  · cases called
    exact .inr ⟨taken, rest, some, parts, rfl⟩

/-- A write event concerns the output alone: after the `write` at most the write
interest is updated. -/
theorem httpStep_writable {result : WriteResult} (watched : connection.watched = true)
    (valid : connection.outputBuffer.Valid)
    (success : httpStep fuel connection (.writable result) = .ok after) :
    Kept connection after ∧ ∃ taken updates,
      after.trace = connection.trace ++ .write taken :: updates ∧
      requests (.write taken :: updates) = [] ∧
      ∀ action ∈ .write taken :: updates, action.endsOutput = false := by
  rcases httpStep_writable_cases watched valid success with same | ⟨taken, rest, _, parts, same⟩
  · subst same
    exact ⟨⟨rfl, rfl, rfl, id⟩, [], [], rfl, rfl, by simp [Action.endsOutput]⟩
  · have kept := consumeWritten_kept (connection.record [.write taken]) parts
    obtain ⟨updates, trace, shape⟩ :=
      (connection.record [.write taken]).consumeWritten_trace taken.length
    subst same
    refine ⟨⟨kept.inputBuffer, kept.request, kept.watched, kept.output⟩, taken, updates, ?_, ?_⟩
    · rw [trace]
      exact List.append_assoc ..
    · rcases shape with none | one
      · rw [none]
        exact ⟨rfl, by simp [Action.endsOutput]⟩
      · rw [one]
        exact ⟨rfl, by simp [Action.endsOutput]⟩

theorem httpStep_unwatched {event : HttpEvent} (unwatched : connection.watched = false) :
    httpStep fuel connection event = .ok connection := by
  simp only [httpStep, unwatched, Bool.false_eq_true, ↓reduceIte]

theorem httpStep_mono {more : Nat} {event : HttpEvent}
    (success : httpStep fuel connection event = .ok after) (enough : fuel ≤ more) :
    httpStep more connection event = .ok after := by
  cases watched : connection.watched with
  | false =>
    rw [httpStep_unwatched watched] at success ⊢
    exact success
  | true =>
    cases event with
    | writable result =>
      simp only [httpStep, watched, ↓reduceIte] at success ⊢
      exact success
    | read received turn =>
      simp only [httpStep, watched, ↓reduceIte] at success ⊢
      obtain ⟨⟨count, input⟩, first, next⟩ := bind_eq_ok.mp success
      refine bind_eq_ok.mpr ⟨_, first, ?_⟩
      by_cases delivered : count > 0
      · simp only [delivered, ↓reduceIte] at next ⊢
        obtain ⟨request, parsed, pending, returns, answered⟩ := httpOnMessage_ok.mp next
        exact httpOnMessage_ok.mpr
          ⟨request, parsed, pending, Loop.run_mono returns enough, answered⟩
      · simp only [delivered, ↓reduceIte] at next ⊢
        exact next

/-- More fuel does not change a run that returns. -/
theorem httpRun_mono {more : Nat} {events : List HttpEvent}
    (success : run (httpStep fuel) connection events = .ok after) (enough : fuel ≤ more) :
    run (httpStep more) connection events = .ok after := by
  induction events generalizing connection with
  | nil => exact success
  | cons event events ih =>
    obtain ⟨next, taken, rest⟩ := run_cons_ok.mp success
    exact run_cons_ok.mpr ⟨next, httpStep_mono taken enough, ih rest⟩

/-- A connection that waits for the start of a request. -/
structure Ready (connection : TcpConnection) : Prop where
  watched : connection.watched = true
  request : connection.request = some .new
  input : connection.inputBuffer.Valid
  output : connection.outputBuffer.Valid

theorem established_ready (self eventLoop : Nat) (connectedFd : Int) :
    Ready (.established self eventLoop connectedFd) :=
  ⟨rfl, rfl, Buffer.new_valid, Buffer.new_valid⟩

theorem short_of_length {text : RequestText} (short : text.render.length < 2 ^ 31) :
    text.Short := by
  constructor
  · simp only [RequestText.render, List.length_append] at short
    omega
  · intro header member
    have inside : RequestText.headerLine header ++ crlf <:+:
        text.headers.flatMap fun header => RequestText.headerLine header ++ crlf := by
      obtain ⟨before, later, split⟩ := List.append_of_mem member
      rw [split]
      simp only [List.flatMap_append, List.flatMap_cons]
      exact ⟨_, _, List.append_assoc ..⟩
    have size := inside.length_le
    simp only [RequestText.render, List.length_append] at short size
    omega

/-- A read event returns when the parser does on what it delivers, the response can be
sent and `close_connection` is defined. -/
theorem httpStep_returns (ready : Ready connection) {bytes : Bytes} {input final : Buffer}
    {request : HttpRequest} {closes : Bool} (nonempty : bytes ≠ [])
    (received : connection.inputBuffer.socketRead (some bytes) = .ok (bytes.length, input))
    (returns : parseLoop.Returns ⟨input, .new⟩ ⟨final, request⟩)
    (storable : Storable
      (connection.unsent (turn.respond request).2.wire turn.responseWrite))
    (decides : (turn.respond request).1.closeConnection = .ok closes) :
    ∃ fuel after, httpStep fuel connection (.read (some bytes) turn) = .ok after := by
  obtain ⟨fuel, returns⟩ := returns
  let middle := ({ connection with
    inputBuffer := final
    request := some request }).record (turn.calls request)
  have valid : middle.outputBuffer.Valid := ready.output
  obtain ⟨count, sent, data⟩ := (sendData_returns_iff valid).mpr storable
  have message : httpOnMessage fuel turn { connection with inputBuffer := input } =
      .ok { (if closes then sent.shutdown else sent) with request := some .new } :=
    httpOnMessage_ok.mpr ⟨.new, _, ready.request, returns,
      answerRequest_ok.mpr ⟨count, sent, closes, data, decides, rfl⟩⟩
  have positive : ((bytes.length : Nat) : Int) > 0 := by
    have := List.length_pos_iff.mpr nonempty
    omega
  refine ⟨fuel, { (if closes then sent.shutdown else sent) with request := some .new }, ?_⟩
  simp only [httpStep, ready.watched, ↓reduceIte]
  refine bind_eq_ok.mpr ⟨_, received, ?_⟩
  simp only [positive, ↓reduceIte]
  exact message

/-- A read delivers bytes with which the unread ones start with a well-formed request. -/
structure Arrival (connection : TcpConnection) (bytes : Bytes) (text : RequestText)
    (more : Bytes) : Prop where
  nonempty : bytes ≠ []
  fits : bytes.length ≤ connection.inputBuffer.capacity
  arrives : connection.inputBuffer.contents ++ bytes = text.render ++ more
  wellFormed : text.WellFormed
  short : text.Short

/-- What is left of a connection that has handled such a request: the bytes behind it. -/
structure Served (connection : TcpConnection) (turn : Turn) (text : RequestText) (more : Bytes)
    (after : TcpConnection) : Prop where
  ready : Ready after
  contents : after.inputBuffer.contents = more
  handled : ∃ input parsed sent closes,
    Handled { connection with inputBuffer := input } turn .new parsed sent closes after ∧
    parsed.request = text.parsed

section Arrival

variable {bytes more : Bytes} {text : RequestText}

theorem Arrival.parsed (arrival : Arrival connection bytes text more) (ready : Ready connection) :
    ∃ input final, connection.inputBuffer.socketRead (some bytes) = .ok (bytes.length, input) ∧
      parseLoop.Returns ⟨input, .new⟩ ⟨final, text.parsed⟩ ∧ final.Valid ∧
      final.contents = more := by
  obtain ⟨input, received, inputValid, contents⟩ := ready.input.socketRead bytes arrival.fits
  rw [arrival.arrives] at contents
  have unread : input.unread = text.render ++ (more ++ input.stale) := by
    rw [← List.append_assoc, ← contents]
    exact inputValid.unread_eq
  have inside : text.render.length ≤ input.contents.length := by
    rw [contents, List.length_append]
    exact Nat.le_add_right ..
  obtain ⟨kept, left⟩ := inputValid.advance _ inside
  rw [contents, List.drop_left] at left
  exact ⟨input, _, received, parse_render arrival.wellFormed arrival.short unread, kept, left⟩

/-- A call that returns has handled exactly the request. -/
theorem Arrival.served (arrival : Arrival connection bytes text more) (ready : Ready connection)
    (success : httpStep fuel connection (.read (some bytes) turn) = .ok after) :
    Served connection turn text more after := by
  obtain ⟨input, final, received, returns, valid, contents⟩ := arrival.parsed ready
  obtain ⟨sent, closes, handled⟩ := httpStep_handled ready.watched ready.request arrival.nonempty
    received returns success
  refine ⟨⟨?_, ?_, ?_, handled.output ready.output⟩, ?_, ⟨_, _, _, _, handled, rfl⟩⟩
  · rw [handled.watched]
    exact ready.watched
  · rw [handled.result]
  · rw [handled.inputBuffer]
    exact valid
  · rw [handled.inputBuffer]
    exact contents

/-- The call returns when the response can be sent and `close_connection` is defined. -/
theorem Arrival.returns (arrival : Arrival connection bytes text more) (ready : Ready connection)
    (storable : Storable
      (connection.unsent (turn.respond text.parsed).2.wire turn.responseWrite))
    (decides : (turn.respond text.parsed).1.closeConnection = .ok closes) :
    ∃ fuel after, httpStep fuel connection (.read (some bytes) turn) = .ok after ∧
      Served connection turn text more after := by
  obtain ⟨input, final, received, returns, _⟩ := arrival.parsed ready
  obtain ⟨fuel, after, success⟩ :=
    httpStep_returns ready arrival.nonempty received returns storable decides
  exact ⟨fuel, after, success, arrival.served ready success⟩

end Arrival

end Yolanda.App
