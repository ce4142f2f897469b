import Yolanda.App.ConnectionStep
import Yolanda.Foundation.Run

/-! The bytes on the wire and the bytes in the output queue are, together and in
order, the bytes that were accepted for sending. -/

namespace Yolanda.App

open Foundation

namespace TcpConnection

/-- The queue is valid and holds what was accepted and not yet written. -/
structure Sound (connection : TcpConnection) : Prop where
  output : connection.outputBuffer.Valid
  stream : written connection.trace ++ connection.outputBuffer.contents =
    accepted connection.trace

variable {connection after : TcpConnection} {data left rest : Bytes}

theorem new_sound (self eventLoop : Nat) (connectedFd : Int) :
    (new self eventLoop connectedFd).Sound :=
  ⟨Buffer.new_valid, Buffer.new_contents⟩

/-- Actions that move no bytes keep the stream. -/
theorem Sound.record (sound : connection.Sound) (actions : List Action)
    (silent : written actions = [] ∧ accepted actions = []) :
    (connection.record actions).Sound := by
  constructor
  · exact sound.output
  · change written (connection.trace ++ actions) ++ connection.outputBuffer.contents =
      accepted (connection.trace ++ actions)
    rw [written_append, accepted_append, silent.1, silent.2, List.append_nil, List.append_nil]
    exact sound.stream

/-- Storing the rest of the data completes a stream that lacks it. -/
theorem Queued.sound (queued : Queued connection after rest)
    (valid : connection.outputBuffer.Valid) (small : rest.length < 2 ^ 32)
    (lacks : written connection.trace ++ connection.outputBuffer.contents ++ rest =
      accepted connection.trace) : after.Sound := by
  obtain ⟨output, updates, appended, shape, same⟩ := queued.stored
  obtain ⟨filledValid, contents⟩ := valid.of_append_all small appended
  have silent : written updates = [] ∧ accepted updates = [] := by
    rcases shape with none | one
    · subst updates
      exact ⟨rfl, rfl⟩
    · subst updates
      exact ⟨rfl, rfl⟩
  rw [same]
  constructor
  · exact filledValid
  · change written (connection.trace ++ updates) ++ output.contents =
      accepted (connection.trace ++ updates)
    rw [written_append, accepted_append, silent.1, silent.2, List.append_nil, List.append_nil,
      contents, ← List.append_assoc]
    exact lacks

/-- A `send_data` keeps the stream: a direct write happens with an empty queue only. -/
theorem Sent.sound (sent : Sent connection data left after) (sound : connection.Sound)
    (small : left.length < 2 ^ 32) : after.Sound := by
  have stream := sound.stream
  cases sent with
  | refused idle => exact sound.record _ ⟨rfl, rfl⟩
  | direct idle =>
    rw [idle_contents sound.output idle, List.append_nil] at stream
    constructor
    · exact sound.output
    · change written (connection.trace ++ _) ++ connection.outputBuffer.contents =
        accepted (connection.trace ++ _)
      rw [idle_contents sound.output idle, written_append, accepted_append, stream]
      simp [App.written, accepted]
  | @split taken _ idle parts pending queued =>
    rw [idle_contents sound.output idle, List.append_nil] at stream
    apply queued.sound sound.output small
    change written (connection.trace ++ _) ++ connection.outputBuffer.contents ++ left =
      accepted (connection.trace ++ _)
    rw [idle_contents sound.output idle, written_append, accepted_append, stream, parts]
    simp [App.written, accepted]
  | nothing busy empty =>
    subst empty
    exact sound.record _ ⟨rfl, rfl⟩
  | queued busy pending whole queued =>
    rw [whole] at small
    apply queued.sound sound.output small
    change written (connection.trace ++ _) ++ connection.outputBuffer.contents ++ data =
      accepted (connection.trace ++ _)
    rw [written_append, accepted_append, ← stream]
    simp [App.written, accepted]

/-- A send of fewer than `2 ^ 31` bytes returns and keeps the stream. -/
theorem Sound.sendData (sound : connection.Sound) (small : data.length < 2 ^ 31)
    (result : WriteResult) :
    ∃ sent after, connection.sendData data result = .ok (sent, after) ∧ after.Sound := by
  obtain ⟨sent, after, success⟩ := sendData_succeeds sound.output small result
  have left := Nat.lt_of_le_of_lt (connection.length_unsent data result) small
  exact ⟨sent, after, success, (sendData_sent success).sound sound (by omega)⟩

/-- Writing a first part of the queue keeps the stream. -/
theorem Sound.flush (sound : connection.Sound) {taken rest : Bytes}
    (parts : connection.outputBuffer.contents = taken ++ rest) :
    ((connection.record [.write taken]).consumeWritten taken.length).Sound := by
  obtain ⟨output, valid, contents, shape⟩ :=
    consumeWritten_cases (connection.record [.write taken]) sound.output parts
  have stream : written (connection.trace ++ [.write taken]) ++ output.contents =
      accepted (connection.trace ++ [.write taken]) := by
    have earlier := sound.stream
    rw [parts] at earlier
    rw [written_append, accepted_append, contents, ← earlier]
    simp [App.written, accepted]
  have flushed : ({ connection.record [.write taken] with outputBuffer := output } :
      TcpConnection).Sound := ⟨valid, stream⟩
  rcases shape with ⟨_, same⟩ | ⟨_, same⟩
  · rw [same]
    have disabled : ({ connection.record [.write taken] with
        outputBuffer := output
        chan := connection.chan.writeEventDisable } : TcpConnection).Sound := ⟨valid, stream⟩
    exact disabled.record _ ⟨rfl, rfl⟩
  · rw [same]
    exact flushed

/-- Calls of `send_data` made one after the other, as by a callback. -/
def sendAll (connection : TcpConnection) :
    List (Bytes × WriteResult) → Except Fault TcpConnection
  | [] => .ok connection
  | (data, result) :: sends => do
    let (_, connection) ← connection.sendData data result
    connection.sendAll sends

theorem sendAll_sound {sends : List (Bytes × WriteResult)} (sound : connection.Sound)
    (small : ∀ send ∈ sends, send.1.length < 2 ^ 31) :
    ∃ after, connection.sendAll sends = .ok after ∧ after.Sound := by
  induction sends generalizing connection with
  | nil => exact ⟨connection, rfl, sound⟩
  | cons send sends ih =>
    have short := small send (List.mem_cons_self ..)
    obtain ⟨sent, middle, success, kept⟩ := sound.sendData short send.2
    obtain ⟨after, others, final⟩ := ih kept fun other member =>
      small other (List.mem_cons_of_mem _ member)
    exact ⟨after, bind_eq_ok.mpr ⟨_, success, others⟩, final⟩

end TcpConnection

/-- What can happen to the output of a connection. The `writeCompletedCallBack` of a
`handle_write` may send as well. -/
inductive OutputEvent where
  | sendData (data : Bytes) (result : WriteResult)
  | sendBuffer (buffer : Buffer) (result : WriteResult)
  | handleWrite (result : WriteResult) (sends : List (Bytes × WriteResult))

/-- All data is shorter than `2 ^ 31` bytes. -/
def OutputEvent.Short : OutputEvent → Prop
  | .sendData data _ => data.length < 2 ^ 31
  | .sendBuffer buffer _ => buffer.Valid ∧ buffer.contents.length < 2 ^ 31
  | .handleWrite _ sends => ∀ send ∈ sends, send.1.length < 2 ^ 31

def outputStep (connection : TcpConnection) : OutputEvent → Except Fault TcpConnection
  | .sendData data result => do
    let (_, connection) ← connection.sendData data result
    return connection
  | .sendBuffer buffer result => do
    let (_, connection, _) ← connection.sendBuffer buffer result
    return connection
  | .handleWrite result sends =>
    connection.handleWrite (fun connection => connection.sendAll sends) result

/-- One event never fails and keeps the stream. -/
theorem outputStep_sound {connection : TcpConnection} (sound : connection.Sound)
    {event : OutputEvent} (short : event.Short) :
    ∃ after, outputStep connection event = .ok after ∧ after.Sound := by
  cases event with
  | sendData data result =>
    obtain ⟨sent, after, success, kept⟩ := sound.sendData short result
    exact ⟨after, bind_eq_ok.mpr ⟨_, success, rfl⟩, kept⟩
  | sendBuffer buffer result =>
    obtain ⟨valid, small⟩ := short
    obtain ⟨sent, after, success, kept⟩ := sound.sendData small result
    have block : connection.sendBuffer buffer result = .ok (sent, after,
        { buffer with readIndex := buffer.readIndex + buffer.readable }) := by
      unfold TcpConnection.sendBuffer
      rw [valid.readableBlock_eq, ok_bind, success]
      rfl
    exact ⟨after, bind_eq_ok.mpr ⟨_, block, rfl⟩, kept⟩
  | handleWrite result sends =>
    have returns : ∀ taken rest, connection.outputBuffer.contents = taken ++ rest →
        ∃ after, ((connection.record [.write taken]).consumeWritten taken.length).sendAll sends =
          .ok after := by
      intro taken rest parts
      obtain ⟨after, success, _⟩ := TcpConnection.sendAll_sound (sound.flush parts) short
      exact ⟨after, success⟩
    obtain ⟨after, success⟩ := TcpConnection.handleWrite_succeeds
      sound.output (fun connection => connection.sendAll sends) result returns
    refine ⟨after, success, ?_⟩
    rcases TcpConnection.handleWrite_cases sound.output success with
      same | ⟨taken, rest, _, parts, called⟩
    · rw [same]
      exact sound.record _ ⟨rfl, rfl⟩
    · obtain ⟨final, again, kept⟩ := TcpConnection.sendAll_sound (sound.flush parts) short
      rw [again] at called
      cases called
      exact kept

/-- In every run of sends and write events the bytes written and the bytes queued
are the bytes accepted, in order. -/
theorem output_stream (self eventLoop : Nat) (connectedFd : Int) (events : List OutputEvent)
    (short : ∀ event ∈ events, event.Short) :
    ∃ final, run outputStep (.new self eventLoop connectedFd) events = .ok final ∧
      final.outputBuffer.Valid ∧
      written final.trace ++ final.outputBuffer.contents = accepted final.trace := by
  have along : Along outputStep (fun _ event => event.Short)
      (.new self eventLoop connectedFd) events :=
    Along.of_forall (fun _ event member => short event member) _
  obtain ⟨final, success, sound⟩ := run_succeeds TcpConnection.Sound
    (fun _ _ sound short => outputStep_sound sound short)
    (TcpConnection.new_sound self eventLoop connectedFd) along
  exact ⟨final, success, sound.output, sound.stream⟩

/-- A short write, a send behind it and the write event that drains the queue. -/
theorem output_stream_drained :
    ∃ final, run outputStep (.new 0 0 9)
        [.sendData (ascii "abc") (.wrote 1), .sendData (ascii "de") (.wrote 2),
          .handleWrite (.wrote 4) [(ascii "f", .failed .wouldBlock)]] = .ok final ∧
      final.outputBuffer.Valid ∧
      written final.trace ++ final.outputBuffer.contents = accepted final.trace := by
  apply output_stream
  intro event member
  simp only [List.mem_cons, List.not_mem_nil, or_false] at member
  rcases member with first | second | third
  · subst event
    change (ascii "abc").length < 2 ^ 31
    decide
  · subst event
    change (ascii "de").length < 2 ^ 31
    decide
  · subst event
    intro send member
    rw [List.mem_singleton] at member
    subst member
    change (ascii "f").length < 2 ^ 31
    decide

end Yolanda.App
