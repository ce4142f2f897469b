import Yolanda.App.OutputStream

/-! The echo server of `poll-server-onethread.cpp`: what comes in goes out, rotated. -/

namespace Yolanda.App

open Foundation

/-- `rot13_char`. A negative `char` is in none of the ranges, as a byte above 127 is not. -/
def rot13Char (c : Byte) : Byte :=
  if (c ≥ 97 && c ≤ 109) || (c ≥ 65 && c ≤ 77) then c + 13
  else if (c ≥ 110 && c ≤ 122) || (c ≥ 78 && c ≤ 90) then c - 13
  else c

/-- The loop of `onMessage`: `size` characters go from `input`, rotated, to `output`. -/
def rotateChars : Nat → Buffer → Buffer → Except Fault (Buffer × Buffer)
  | 0, input, output => .ok (input, output)
  | size + 1, input, output => do
    let (char, input) ← input.readChar
    let output ← output.appendChar (rot13Char char)
    rotateChars size input output

/-- `onMessage`. `size` is an `int`. -/
def rot13OnMessage (result : WriteResult) (connection : TcpConnection) :
    Except Fault TcpConnection := do
  let size := intOfSize connection.inputBuffer.readable
  let (inputBuffer, output) ← rotateChars size.toNat connection.inputBuffer .new
  let (_, connection, _) ← { connection with inputBuffer }.sendBuffer output result
  return connection

/-- A connection of the echo server, with all bytes received on it. -/
structure EchoConnection extends TcpConnection where
  received : Bytes

/-- What the loop reports for the connection, and the answers of `write`. -/
inductive EchoEvent where
  | read (bytes : Bytes) (result : WriteResult)
  | write (result : WriteResult)

/-- `onWriteCompleted` and `onConnectionClosed` only print. -/
def echoStep (connection : EchoConnection) : EchoEvent → Except Fault EchoConnection
  | .read bytes result => do
    let after ← connection.toTcpConnection.handleRead (rot13OnMessage result) id (some bytes)
    return { after with
      received := connection.received ++ bytes }
  | .write result => do
    let after ← connection.toTcpConnection.handleWrite .ok result
    return { after with
      received := connection.received }

def EchoConnection.start (self eventLoop : Nat) (connectedFd : Int) : EchoConnection :=
  { TcpConnection.new self eventLoop connectedFd with
    received := [] }

/-- The bytes an event delivers. -/
def EchoEvent.bytes : EchoEvent → Bytes
  | .read bytes _ => bytes
  | .write _ => []

/-- `write` takes any number of bytes or fails with `EWOULDBLOCK`. -/
def WriteResult.Flows : WriteResult → Prop
  | .wrote _ => True
  | .failed errno => errno = .wouldBlock

/-- `readv` delivers some bytes, no more than it can. -/
def EchoEvent.Possible (connection : EchoConnection) : EchoEvent → Prop
  | .read bytes result =>
    bytes ≠ [] ∧ bytes.length ≤ connection.inputBuffer.capacity ∧ result.Flows
  | .write result => result.Flows

namespace TcpConnection

variable {connection after : TcpConnection} {data : Bytes} {result : WriteResult}

/-- Data sent while `write` flows is accepted, at once or in the queue. -/
theorem sendData_accepted (flows : result.Flows) {sent : Int}
    (success : connection.sendData data result = .ok (sent, after)) :
    accepted after.trace = accepted connection.trace ++ data := by
  have direct : ∃ nwrited middle, connection.writeDirectly data result =
      (nwrited, false, middle) ∧ accepted middle.trace = accepted connection.trace := by
    unfold writeDirectly
    split
    · cases result with
      | wrote count =>
        refine ⟨_, _, rfl, ?_⟩
        rw [record, accepted_append]
        exact List.append_nil _
      | failed errno =>
        cases (flows : errno = .wouldBlock)
        refine ⟨_, _, rfl, ?_⟩
        rw [record, accepted_append]
        exact List.append_nil _
    · exact ⟨_, _, rfl, rfl⟩
  obtain ⟨nwrited, middle, direct, same⟩ := direct
  obtain ⟨_, rest⟩ := (sendData_ok direct).mp success
  have sends : accepted (middle.record [.send data false]).trace =
      accepted connection.trace ++ data := by
    rw [record, accepted_append, same]
    exact congrArg _ (List.append_nil data)
  rcases queueRest_cases rest with ⟨unchanged, _⟩ | ⟨_, _, queued⟩
  · rw [unchanged, sends]
  · obtain ⟨output, updates, _, shape, stored⟩ := queued.stored
    rw [stored]
    change accepted ((middle.record [.send data false]).trace ++ updates) = _
    rw [accepted_append, sends]
    rcases shape with none | one
    · rw [none]
      exact List.append_nil _
    · rw [one]
      exact List.append_nil _

end TcpConnection

/-- The loop moves the first characters over. -/
theorem rotateChars_moves {input output : Buffer} {chars rest : Bytes} (valid : input.Valid)
    (outputValid : output.Valid) (contents : input.contents = chars ++ rest) :
    ∃ left filled, rotateChars chars.length input output = .ok (left, filled) ∧
      left.Valid ∧ left.contents = rest ∧ filled.Valid ∧
      filled.contents = output.contents ++ chars.map rot13Char := by
  induction chars generalizing input output with
  | nil => exact ⟨input, output, rfl, valid, contents, outputValid, (List.append_nil _).symm⟩
  | cons char chars ih =>
    obtain ⟨next, read, nextValid, behind⟩ := valid.readChar contents
    obtain ⟨longer, appended, longerValid, more⟩ := outputValid.appendChar (rot13Char char)
    obtain ⟨left, filled, others, leftValid, remaining, filledValid, whole⟩ :=
      ih nextValid longerValid behind
    refine ⟨left, filled, ?_, leftValid, remaining, filledValid, ?_⟩
    · rw [List.length_cons, rotateChars, read, ok_bind]
      simp only [appended, ok_bind, others]
    · rw [whole, more, List.append_assoc]
      rfl

/-- What holds between two events: nothing is left to read, and what is on the wire and in
the queue is what was received, rotated. -/
structure EchoConnection.Echoes (connection : EchoConnection) : Prop where
  sound : connection.toTcpConnection.Sound
  input : connection.inputBuffer.Valid
  empty : connection.inputBuffer.contents = []
  rotated : accepted connection.trace = connection.received.map rot13Char

theorem EchoConnection.start_echoes (self eventLoop : Nat) (connectedFd : Int) :
    (start self eventLoop connectedFd).Echoes :=
  ⟨TcpConnection.new_sound self eventLoop connectedFd, Buffer.new_valid, Buffer.new_contents, rfl⟩

/-- `onMessage` empties the input buffer and sends what was in it, rotated. -/
theorem rot13OnMessage_sends {connection : TcpConnection} {result : WriteResult}
    (sound : connection.Sound) (valid : connection.inputBuffer.Valid)
    (short : connection.inputBuffer.contents.length < 2 ^ 31) (flows : result.Flows) :
    ∃ after, rot13OnMessage result connection = .ok after ∧ after.Sound ∧
      after.inputBuffer.Valid ∧ after.inputBuffer.contents = [] ∧
      accepted after.trace = accepted connection.trace ++
        connection.inputBuffer.contents.map rot13Char := by
  obtain ⟨left, filled, moved, leftValid, none, filledValid, rotated⟩ :=
    rotateChars_moves valid Buffer.new_valid (List.append_nil connection.inputBuffer.contents).symm
  rw [Buffer.new_contents, List.nil_append] at rotated
  have size : (intOfSize connection.inputBuffer.readable).toNat =
      connection.inputBuffer.contents.length := by
    rw [valid.readable_eq, intOfSize_of_lt short, Int.toNat_natCast]
  have emptied : ({ connection with inputBuffer := left } : TcpConnection).Sound :=
    ⟨sound.output, sound.stream⟩
  have fits : filled.contents.length < 2 ^ 31 := by
    rw [rotated, List.length_map]
    exact short
  obtain ⟨sent, after, success, kept⟩ := emptied.sendData fits result
  have sends : ({ connection with inputBuffer := left } : TcpConnection).sendBuffer filled result =
      .ok (sent, after, { filled with readIndex := filled.readIndex + filled.readable }) := by
    unfold TcpConnection.sendBuffer
    rw [filledValid.readableBlock_eq, ok_bind, success]
    rfl
  have same := (TcpConnection.sendData_sent success).kept.inputBuffer
  refine ⟨after, ?_, kept, ?_, ?_, ?_⟩
  · unfold rot13OnMessage
    simp only [size, moved, ok_bind, sends]
    rfl
  · rw [same]
    exact leftValid
  · rw [same]
    exact none
  · rw [TcpConnection.sendData_accepted flows success, rotated]

/-- One event never fails, and rotates what it received. -/
theorem echoStep_echoes {connection : EchoConnection} {event : EchoEvent}
    (echoes : connection.Echoes) (possible : event.Possible connection) :
    ∃ after, echoStep connection event = .ok after ∧ after.Echoes := by
  cases event with
  | read bytes result =>
    obtain ⟨some, fits, flows⟩ := possible
    obtain ⟨filled, read, filledValid, contents⟩ := echoes.input.socketRead bytes fits
    rw [echoes.empty, List.nil_append] at contents
    have short : filled.contents.length < 2 ^ 31 := by
      rw [contents]
      have most : connection.inputBuffer.capacity ≤ maxReadCount := Nat.min_le_right ..
      simp only [maxReadCount] at most
      omega
    have sound : ({ connection.toTcpConnection with inputBuffer := filled } :
        TcpConnection).Sound := ⟨echoes.sound.output, echoes.sound.stream⟩
    obtain ⟨after, called, kept, inputValid, empty, rotated⟩ :=
      rot13OnMessage_sends sound filledValid short flows
    have positive : (bytes.length : Int) > 0 :=
      Int.natCast_pos.mpr (List.length_pos_of_ne_nil some)
    refine ⟨{ after with
      received := connection.received ++ bytes }, ?_, kept, inputValid, empty, ?_⟩
    · simp only [echoStep, TcpConnection.handleRead, read, ok_bind, positive, ↓reduceIte, called]
      rfl
    · change accepted after.trace = (connection.received ++ bytes).map rot13Char
      rw [rotated, List.map_append, ← echoes.rotated]
      change _ ++ filled.contents.map rot13Char = _
      rw [contents]
  | write result =>
    obtain ⟨after, success⟩ := TcpConnection.handleWrite_succeeds echoes.sound.output .ok result
      fun _ _ _ => ⟨_, rfl⟩
    refine ⟨{ after with
      received := connection.received }, bind_eq_ok.mpr ⟨after, success, rfl⟩, ?_⟩
    rcases TcpConnection.handleWrite_cases echoes.sound.output success with
      same | ⟨taken, rest, _, parts, called⟩
    · subst same
      refine ⟨echoes.sound.record _ ⟨rfl, rfl⟩, echoes.input, echoes.empty, ?_⟩
      change accepted (connection.trace ++ _) = _
      rw [accepted_append, echoes.rotated]
      exact List.append_nil _
    · have flushed := echoes.sound.flush parts
      cases called
      have kept := TcpConnection.consumeWritten_kept
        (connection.toTcpConnection.record [.write taken]) parts
      obtain ⟨updates, trace, shape⟩ := TcpConnection.consumeWritten_trace
        (connection.toTcpConnection.record [.write taken]) taken.length
      refine ⟨flushed, ?_, ?_, ?_⟩
      · exact kept.inputBuffer ▸ echoes.input
      · exact (congrArg Buffer.contents kept.inputBuffer).trans echoes.empty
      · refine (congrArg accepted trace).trans ?_
        rw [accepted_append, TcpConnection.record, accepted_append, echoes.rotated]
        rcases shape with none | one
        · rw [none]
          simp [accepted]
        · rw [one]
          simp [accepted]

theorem received_echoRun {connection final : EchoConnection} {events : List EchoEvent}
    (success : run echoStep connection events = .ok final) :
    final.received = connection.received ++ events.flatMap EchoEvent.bytes := by
  induction events generalizing connection with
  | nil =>
    cases success
    exact (List.append_nil _).symm
  | cons event events ih =>
    obtain ⟨next, taken, rest⟩ := run_cons_ok.mp success
    rw [ih rest, List.flatMap_cons, ← List.append_assoc]
    congr 1
    cases event with
    | read bytes result =>
      obtain ⟨after, _, same⟩ := bind_eq_ok.mp taken
      cases same
      rfl
    | write result =>
      obtain ⟨after, _, same⟩ := bind_eq_ok.mp taken
      cases same
      exact (List.append_nil _).symm

/-- In every run of reads and write events, the bytes written and the bytes queued are the
bytes received, rotated and in order, and every read leaves the input buffer empty. -/
theorem rot13_echo (self eventLoop : Nat) (connectedFd : Int) (events : List EchoEvent)
    (possible : Along echoStep (fun connection event => event.Possible connection)
      (.start self eventLoop connectedFd) events) :
    ∃ final, run echoStep (.start self eventLoop connectedFd) events = .ok final ∧
      written final.trace ++ final.outputBuffer.contents =
        (events.flatMap EchoEvent.bytes).map rot13Char ∧
      final.inputBuffer.contents = [] := by
  obtain ⟨final, success, echoes⟩ := run_succeeds EchoConnection.Echoes
    (fun _ _ echoes possible => echoStep_echoes echoes possible)
    (EchoConnection.start_echoes self eventLoop connectedFd) possible
  have received : final.received = events.flatMap EchoEvent.bytes := received_echoRun success
  refine ⟨final, success, ?_, echoes.empty⟩
  rw [← received]
  exact echoes.sound.stream.trans echoes.rotated

/-- A read that has to wait for its echo, a partial write, a read behind the queue. -/
theorem rot13_echo_sample : ∃ final,
    run echoStep (.start 0 0 9) [.read (ascii "Hi") (.failed .wouldBlock), .write (.wrote 1),
      .read (ascii "z!") (.wrote 2)] = .ok final ∧
      written final.trace ++ final.outputBuffer.contents = ascii "Uvm!" ∧
      final.inputBuffer.contents = [] := by
  apply rot13_echo
  apply Along.of_forall
  intro connection event member
  simp only [List.mem_cons, List.not_mem_nil, or_false] at member
  rcases member with first | second | third
  · subst event
    exact ⟨by decide, le_capacity _ (by decide), rfl⟩
  · subst event
    trivial
  · subst event
    exact ⟨by decide, le_capacity _ (by decide), trivial⟩

end Yolanda.App
