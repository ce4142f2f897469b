import Yolanda.Foundation.Run
import Yolanda.Lib.TcpConnection

/-! The output stream of a connection of the C library. It is what was accepted for sending
until a direct write fails: the -1 is kept in a `size_t`. -/

namespace Yolanda.Lib

open App (Channel Errno WriteResult accepted written accepted_append written_append)
open Foundation

/-- Nothing is queued and no write event asked for, so that a send goes to the socket. -/
structure Idle (connection : TcpConnection) : Prop where
  off : connection.chan.writeEventIsEnabled = false
  empty : connection.outputBuffer.contents = []

/-- The queue is valid and holds what was accepted and not yet written. -/
structure StreamSound (connection : TcpConnection) : Prop where
  output : connection.outputBuffer.Valid
  stream : written connection.trace ++ connection.outputBuffer.contents =
    accepted connection.trace

/-- What is right for a send whose direct write fails: after `EPIPE` and `ECONNRESET` nothing
is queued, and after any other error all bytes are, with a write event asked for. -/
def FailureHonoured (connection : TcpConnection) (data : Pointer) (size : Int) (errno : Errno)
    (memory : Bool) : Prop :=
  ∃ sent after, connection.sendData data size (.failed errno) memory = .ok (sent, after) ∧
    if errno = .pipe ∨ errno = .connReset then
      after.outputBuffer.contents = connection.outputBuffer.contents
    else after.outputBuffer.contents =
        connection.outputBuffer.contents ++ data.bytes size ∧
      after.chan.writeEventIsEnabled = true

/-- If the event is a send of at least one byte whose direct write fails, the failure is
honoured. -/
def HonoursFailure (connection : TcpConnection) (event : OutputEvent) : Prop :=
  Idle connection → ∀ errno memory,
    (∀ data size, event = .sendData data size (.failed errno) memory → 1 ≤ size →
      FailureHonoured connection data size errno memory) ∧
    ∀ buffer, event = .sendBuffer buffer (.failed errno) memory → buffer.contents ≠ [] →
      FailureHonoured connection ⟨buffer.data, buffer.readIndex⟩ buffer.contents.length errno memory

/-- The bytes written and the bytes queued are those accepted, in every state of the run, and
every failed direct write is honoured. -/
structure SendsSound (start : TcpConnection) (events : List OutputEvent) : Prop where
  stream : Throughout outputStep StreamSound start events
  failures : Along outputStep HonoursFailure start events

/-- A send of `size` bytes whose direct write, if it makes one, does not fail, and whose rest
can be queued. -/
structure SendGoesWell (connection : TcpConnection) (size : Nat) (result : WriteResult) :
    Prop where
  direct : Idle connection → ∃ count, result = .wrote count ∧
    ¬ connection.outputBuffer.Overflows (size - count : Nat)
  behind : ¬ Idle connection → ¬ connection.outputBuffer.Overflows size

/-- No direct write fails, and the new size of the queue's block, if it has to grow, is an
`int`. -/
def GoesWell (connection : TcpConnection) : OutputEvent → Prop
  | .sendData _ size result _ => SendGoesWell connection size.toNat result
  | .sendBuffer buffer result _ => SendGoesWell connection buffer.contents.length result
  | .handleWrite _ => True

section Pointers

variable {pointer : Pointer} {size : Int}

theorem Pointer.Holds.read (holds : pointer.Holds size) :
    pointer.read size.toNat = .ok (pointer.bytes size) := by
  obtain ⟨start, positive, bounded, within⟩ := holds
  exact Pointer.read_eq start (by omega)

theorem Pointer.Holds.length (holds : pointer.Holds size) :
    (pointer.bytes size).length = size.toNat :=
  Pointer.read_length holds.read

/-- A part of what is held, behind its first `count` bytes. -/
theorem Pointer.Holds.rest (holds : pointer.Holds size) {count : Nat} (part : count ≤ size) :
    (pointer.add count).read (size.toNat - count) = .ok ((pointer.bytes size).drop count) := by
  obtain ⟨start, positive, bounded, within⟩ := holds
  have moved : (pointer.offset + count).toNat = pointer.offset.toNat + count := by omega
  have later : 0 ≤ (pointer.add count).offset := by
    change 0 ≤ pointer.offset + count
    omega
  have inside : (pointer.add count).offset.toNat + (size.toNat - count) ≤
      (pointer.add count).object.length := by
    change (pointer.offset + count).toNat + (size.toNat - count) ≤ pointer.object.length
    omega
  rw [Pointer.read_eq later inside]
  unfold Pointer.bytes Pointer.rest Pointer.add
  rw [moved, List.drop_take, List.drop_drop]

/-- The readable bytes of a valid buffer, as `send_buffer` points at them. -/
theorem Buffer.Valid.holds {buffer : Buffer} (valid : buffer.Valid) :
    (Pointer.mk buffer.data buffer.readIndex).Holds buffer.contents.length := by
  have width := valid.length_contents
  obtain ⟨start, ordered, stored, allocated, small⟩ := valid
  refine ⟨start, by omega, by omega, ?_⟩
  change buffer.readIndex + _ ≤ (buffer.data.length : Int)
  omega

theorem Buffer.Valid.bytes {buffer : Buffer} (valid : buffer.Valid) :
    (Pointer.mk buffer.data buffer.readIndex).bytes buffer.contents.length = buffer.contents := by
  have width := valid.length_contents
  obtain ⟨start, ordered, stored, allocated, small⟩ := valid
  have stop : buffer.writeIndex.toNat = buffer.readIndex.toNat + buffer.contents.length := by
    omega
  unfold Pointer.bytes Pointer.rest
  rw [Int.toNat_natCast, ← window_add, ← stop]
  rfl

end Pointers

theorem offsetOfSize_of_lt {size : Nat} (small : size < 2 ^ 31) : offsetOfSize size = size := by
  have half : ((2 ^ 64 : Nat) : Int) / 2 = 2 ^ 63 := by decide
  have odd : (((2 ^ 64 : Nat) : Int) + 1) / 2 = 2 ^ 63 := by decide
  unfold offsetOfSize
  exact Int.bmod_eq_of_le (by rw [half]; omega) (by rw [odd]; omega)

section Send

variable {connection after : TcpConnection} {data : Pointer} {size sent : Int} {memory : Bool}
variable {result : WriteResult}

theorem mayWrite_idle (valid : connection.outputBuffer.Valid) (idle : Idle connection) :
    connection.mayWrite = .ok true := by
  rw [TcpConnection.mayWrite, if_neg (by simp [idle.off]), valid.readableSize, ok_bind, idle.empty]
  rfl

theorem mayWrite_busy (valid : connection.outputBuffer.Valid) (busy : ¬ Idle connection) :
    connection.mayWrite = .ok false := by
  unfold TcpConnection.mayWrite
  cases off : connection.chan.writeEventIsEnabled with
  | true => rfl
  | false =>
    have filled : connection.outputBuffer.contents ≠ [] := fun empty => busy ⟨off, empty⟩
    have positive := List.length_pos_of_ne_nil filled
    rw [if_neg Bool.false_ne_true, valid.readableSize, ok_bind]
    have test : ((connection.outputBuffer.contents.length : Int) == 0) = false :=
      beq_eq_false_iff_ne.mpr (by omega)
    rw [test]
    rfl

/-- A send behind a queue goes to the queue. -/
theorem sendData_busy (valid : connection.outputBuffer.Valid) (holds : data.Holds size)
    (busy : ¬ Idle connection) :
    connection.sendData data size result memory =
      ((connection.record [.send (data.bytes size) false]).queueRest (data.add 0) size.toNat memory
        >>= fun after => .ok (0, after)) := by
  have count := sizeOfInt_toNat holds.positive holds.bounded
  unfold TcpConnection.sendData TcpConnection.writeDirectly
  rw [mayWrite_busy valid busy, count]
  rfl

/-- A direct write goes to the socket as far as that takes it. -/
theorem sendData_wrote (valid : connection.outputBuffer.Valid) (holds : data.Holds size)
    (idle : Idle connection) (count : Nat) :
    connection.sendData data size (.wrote count) memory =
      ((connection.record [.write ((data.bytes size).take count),
          .send (data.bytes size) false]).queueRest
        (data.add (min count size.toNat : Nat)) (size.toNat - min count size.toNat) memory
        >>= fun after => .ok (intOfSize (min count size.toNat), after)) := by
  have number := sizeOfInt_toNat holds.positive holds.bounded
  have bounded := holds.bounded
  have part : min count size.toNat ≤ size.toNat := Nat.min_le_right ..
  have offset : offsetOfSize (min count size.toNat) = (min count size.toNat : Nat) :=
    offsetOfSize_of_lt (by omega)
  unfold TcpConnection.sendData TcpConnection.writeDirectly
  rw [mayWrite_idle valid idle, number, holds.read]
  simp only [ok_bind, pure_bind, if_true, holds.length, sizeSub_of_le part, offset, Refuses]
  rfl

/-- After a failed direct write one byte more than there are is queued, from the byte in
front of the data on. -/
theorem sendData_failed (valid : connection.outputBuffer.Valid) (holds : data.Holds size)
    (idle : Idle connection) (errno : Errno) :
    connection.sendData data size (.failed errno) memory =
      ((connection.record [.write [], .send (data.bytes size)
          (Refuses (.failed errno))]).queueRest (data.add (-1)) (size.toNat + 1) memory
        >>= fun after => .ok (-1, after)) := by
  have number := sizeOfInt_toNat holds.positive holds.bounded
  have bounded := holds.bounded
  have offset : offsetOfSize (2 ^ 64 - 1) = -1 := by decide
  have returned : intOfSize (2 ^ 64 - 1) = -1 := by decide
  have left : sizeSub size.toNat (2 ^ 64 - 1) = size.toNat + 1 := by
    rw [sizeSub, if_neg (by omega)]
    omega
  unfold TcpConnection.sendData TcpConnection.writeDirectly
  rw [mayWrite_idle valid idle, number, holds.read]
  simp only [ok_bind, pure_bind, if_true, left, offset, returned]
  rfl

/-- What is left is queued, or the new size of the block is no `int`. -/
theorem queueRest_cases (valid : connection.outputBuffer.Valid) {nleft : Nat} {left : Bytes}
    (short : nleft < 2 ^ 31) (held : data.read nleft = .ok left) :
    (∃ after updates, connection.queueRest data nleft true = .ok after ∧
        after.outputBuffer.Valid ∧
        after.outputBuffer.contents = connection.outputBuffer.contents ++ left ∧
        after.trace = connection.trace ++ updates ∧ written updates = [] ∧
        accepted updates = []) ∨
      connection.queueRest data nleft true = .error .overflow ∧
        connection.outputBuffer.Overflows nleft := by
  have width := Pointer.read_length held
  unfold TcpConnection.queueRest
  by_cases pending : nleft > 0
  · have counted : data.read (nleft : Int).toNat = .ok left := by
      rw [Int.toNat_natCast]
      exact held
    rw [if_pos pending, intOfSize_of_lt short]
    rcases valid.append (Int.natCast_nonneg _) (by omega) counted (by omega) with
      ⟨output, success, appended⟩ | ⟨fails, overflows⟩
    · left
      rw [success, ok_bind]
      cases enabled : connection.chan.writeEventIsEnabled with
      | true =>
        exact ⟨_, [], if_pos enabled, appended.valid, appended.contents,
          (List.append_nil _).symm, rfl, rfl⟩
      | false =>
        exact ⟨_, [.update connection.chan.data], if_neg (by simp [enabled]), appended.valid,
          appended.contents, rfl, rfl, rfl⟩
    · refine .inr ⟨?_, overflows⟩
      rw [fails]
      rfl
  · have none : left = [] := List.eq_nil_of_length_eq_zero (by omega)
    refine .inl ⟨connection, [], if_neg pending, valid, ?_, (List.append_nil _).symm, rfl, rfl⟩
    rw [none, List.append_nil]

theorem queueRest_overflows (valid : connection.outputBuffer.Valid) (actions : List App.Action)
    {nleft : Nat} (short : nleft < 2 ^ 31)
    (overflows : connection.outputBuffer.Overflows nleft) :
    (connection.record actions).queueRest data nleft true = .error .overflow := by
  have pending : nleft > 0 := by
    have width := valid.length_contents
    obtain ⟨start, ordered, stored, allocated, small⟩ := valid
    have tight := overflows.1
    omega
  have fails := valid.append_overflows (Int.natCast_nonneg nleft) (by omega) overflows data
  rw [TcpConnection.queueRest, if_pos pending, intOfSize_of_lt short]
  change (connection.outputBuffer.append (some data) nleft true >>= _) = _
  rw [fails]
  rfl

/-- Queueing what a stream lacks completes it. -/
theorem queueRest_sound (valid : connection.outputBuffer.Valid) (actions : List App.Action)
    {nleft : Nat} {left : Bytes} (short : nleft < 2 ^ 31) (held : data.read nleft = .ok left)
    (fits : ¬ connection.outputBuffer.Overflows nleft)
    (lacks : written connection.trace ++ written actions ++ connection.outputBuffer.contents ++
      left = accepted connection.trace ++ accepted actions) :
    ∃ after, (connection.record actions).queueRest data nleft true = .ok after ∧
      StreamSound after := by
  have recorded : (connection.record actions).outputBuffer.Valid := valid
  rcases queueRest_cases recorded short held with
    ⟨after, updates, success, kept, contents, trace, quiet, silent⟩ | ⟨_, overflows⟩
  · refine ⟨after, success, kept, ?_⟩
    change after.outputBuffer.contents = connection.outputBuffer.contents ++ left at contents
    change after.trace = connection.trace ++ actions ++ updates at trace
    rw [trace, written_append, accepted_append, quiet, silent, contents, List.append_nil,
      List.append_nil, written_append, accepted_append, ← List.append_assoc]
    exact lacks
  · exact absurd overflows fits

/-- A send that goes well keeps the stream. -/
theorem StreamSound.sendData (sound : StreamSound connection) (holds : data.Holds size)
    (well : SendGoesWell connection size.toNat result) :
    ∃ sent after, connection.sendData data size result true = .ok (sent, after) ∧
      StreamSound after := by
  have valid := sound.output
  have stream := sound.stream
  have bounded := holds.bounded
  have positive := holds.positive
  by_cases idle : Idle connection
  · obtain ⟨count, rfl, fits⟩ := well.direct idle
    rw [idle.empty, List.append_nil] at stream
    have part : (min count size.toNat : Nat) ≤ size := by omega
    have same : size.toNat - min count size.toNat = size.toNat - count := by omega
    have cut : (data.bytes size).take count ++ (data.bytes size).drop (min count size.toNat) =
        data.bytes size := by
      rw [← holds.length, List.take_eq_take_min, List.take_append_drop]
    obtain ⟨after, success, kept⟩ := queueRest_sound valid
      [.write ((data.bytes size).take count), .send (data.bytes size) false] (by omega)
      (holds.rest part) (by rw [same]; exact fits) (by
        rw [stream, idle.empty, List.append_nil, List.append_assoc]
        congr 1
        simpa [written, accepted] using cut)
    refine ⟨intOfSize (min count size.toNat), after, ?_, kept⟩
    rw [sendData_wrote valid holds idle, success]
    rfl
  · have held : (data.add 0).read size.toNat = .ok (data.bytes size) := by
      have whole := holds.rest (by simpa using positive : ((0 : Nat) : Int) ≤ size)
      simpa using whole
    obtain ⟨after, success, kept⟩ := queueRest_sound valid [.send (data.bytes size) false]
      (by omega) held (well.behind idle) (by
        rw [← stream]
        simp [written, accepted])
    refine ⟨0, after, ?_, kept⟩
    rw [sendData_busy valid holds idle, success]
    rfl

/-- What is queued when there is something left. -/
theorem queueRest_stored {nleft : Nat} (pending : 0 < nleft)
    (success : connection.queueRest data nleft memory = .ok after) :
    ∃ updates, connection.outputBuffer.append (some data) (intOfSize nleft) memory =
        .ok after.outputBuffer ∧
      after.trace = connection.trace ++ updates ∧ written updates = [] ∧ accepted updates = [] := by
  unfold TcpConnection.queueRest at success
  rw [if_pos pending] at success
  obtain ⟨output, appended, rest⟩ := bind_eq_ok.mp success
  cases enabled : connection.chan.writeEventIsEnabled with
  | true =>
    simp only [enabled, if_true] at rest
    cases rest
    exact ⟨[], appended, (List.append_nil _).symm, rfl, rfl⟩
  | false =>
    simp only [enabled] at rest
    cases rest
    exact ⟨[.update connection.chan.data], appended, rfl, rfl, rfl⟩

/-- One byte more than was sent is in the queue when a failed direct write returns. -/
theorem sendData_failed_length (valid : connection.outputBuffer.Valid) (holds : data.Holds size)
    (idle : Idle connection) {errno : Errno}
    (success : connection.sendData data size (.failed errno) true = .ok (sent, after)) :
    after.outputBuffer.contents.length = size.toNat + 1 ∧
      written after.trace = written connection.trace ∧
      accepted after.trace = accepted connection.trace ++
        accepted [.send (data.bytes size) (Refuses (.failed errno))] := by
  have bounded := holds.bounded
  rw [sendData_failed valid holds idle] at success
  obtain ⟨other, queued, same⟩ := bind_eq_ok.mp success
  cases same
  obtain ⟨updates, appended, trace, quiet, silent⟩ := queueRest_stored (Nat.succ_pos _) queued
  obtain ⟨wraps, whole, least, most⟩ := intOfSize_wraps (size.toNat + 1)
  obtain ⟨positive, length⟩ := Buffer.Valid.append_length valid least most appended
  change _ = (connection.outputBuffer.contents.length : Int) + _ at length
  rw [idle.empty] at length
  change after.trace = connection.trace ++ _ ++ updates at trace
  refine ⟨?_, ?_, ?_⟩
  · simp only [List.length_nil] at length
    omega
  · rw [trace, written_append, written_append, quiet]
    simp [written]
  · rw [trace, accepted_append, accepted_append, silent, List.append_nil]
    rfl

/-- A send that does not go well does not return, or it breaks the stream: a failed direct
write leaves one byte too many in the queue. -/
theorem StreamSound.sendData_falls (sound : StreamSound connection) (holds : data.Holds size)
    (bad : ¬ SendGoesWell connection size.toNat result)
    (success : connection.sendData data size result true = .ok (sent, after)) :
    ¬ StreamSound after := by
  have valid := sound.output
  have stream := sound.stream
  have bounded := holds.bounded
  by_cases idle : Idle connection
  · rw [idle.empty, List.append_nil] at stream
    cases result with
    | wrote count =>
      have overflows : connection.outputBuffer.Overflows (size.toNat - count : Nat) := by
        by_contra fits
        exact bad ⟨fun _ => ⟨count, rfl, fits⟩, fun busy => absurd idle busy⟩
      have same : size.toNat - min count size.toNat = size.toNat - count := by omega
      rw [sendData_wrote valid holds idle, same] at success
      obtain ⟨other, queued, _⟩ := bind_eq_ok.mp success
      rw [queueRest_overflows valid _ (by omega) overflows] at queued
      cases queued
    | failed errno =>
      obtain ⟨length, quiet, more⟩ := sendData_failed_length valid holds idle success
      intro kept
      have whole := congrArg List.length kept.stream
      rw [quiet, more, stream, List.length_append, List.length_append, length] at whole
      have most : (accepted [.send (data.bytes size)
          (Refuses (.failed errno))]).length ≤ size.toNat := by
        rw [← holds.length]
        cases Refuses (.failed errno) with
        | true => exact Nat.zero_le _
        | false => simp [accepted]
      omega
  · have overflows : connection.outputBuffer.Overflows size.toNat := by
      by_contra fits
      exact bad ⟨fun calm => absurd calm idle, fun _ => fits⟩
    rw [sendData_busy valid holds idle] at success
    obtain ⟨other, queued, _⟩ := bind_eq_ok.mp success
    rw [queueRest_overflows valid _ (by omega) overflows] at queued
    cases queued

/-- What is flushed moves from the queue to what was written. -/
private theorem StreamSound.flush (sound : StreamSound connection) {number : Nat} {rest : Bytes}
    (parts : connection.outputBuffer.contents =
      connection.outputBuffer.contents.take number ++ rest) (updates : List App.Action)
    (silent : written updates = [] ∧ accepted updates = []) :
    written (connection.trace ++ [.write (connection.outputBuffer.contents.take number)] ++
        updates) ++ rest =
      accepted (connection.trace ++
        [.write (connection.outputBuffer.contents.take number)] ++ updates) := by
  have stream := sound.stream
  rw [parts] at stream
  simp only [written_append, accepted_append, silent.1, silent.2, List.append_nil]
  simpa [written, accepted] using stream

/-- The block that `handle_write` gives to `write`. -/
theorem readable_block {buffer : Buffer} (valid : buffer.Valid) :
    (Pointer.mk buffer.data buffer.readIndex).read (sizeOfInt buffer.contents.length) =
      .ok buffer.contents := by
  have width := valid.length_contents
  have count : sizeOfInt buffer.contents.length = buffer.contents.length := sizeOfInt_ofNat (by
    have small := valid.small
    have stored := valid.stored
    have start := valid.start
    omega)
  have read := valid.holds.read
  rwa [Int.toNat_natCast, valid.bytes, ← count] at read

/-- What `handle_write` leaves of the queue. -/
theorem StreamSound.handleWrite (sound : StreamSound connection) (result : WriteResult) :
    ∃ after, connection.handleWrite result = .ok after ∧ StreamSound after := by
  have valid := sound.output
  have width := valid.length_contents
  unfold TcpConnection.handleWrite
  rw [valid.readableSize, ok_bind, readable_block valid, ok_bind]
  cases result with
  | failed errno =>
    refine ⟨connection.record [.write []], rfl, valid, ?_⟩
    change written (connection.trace ++ [.write []]) ++ connection.outputBuffer.contents =
      accepted (connection.trace ++ [.write []])
    rw [written_append, accepted_append]
    simpa [written, accepted] using sound.stream
  | wrote number =>
    by_cases some : min number connection.outputBuffer.contents.length > 0
    · have inside : min number connection.outputBuffer.contents.length ≤
          connection.outputBuffer.contents.length := Nat.min_le_right ..
      obtain ⟨kept, behind⟩ := valid.advance inside
      have moved : intResult (connection.outputBuffer.readIndex +
          (min number connection.outputBuffer.contents.length : Nat)) =
          .ok (connection.outputBuffer.readIndex +
            (min number connection.outputBuffer.contents.length : Nat)) := by
        have small := valid.small
        have stored := valid.stored
        have start := valid.start
        exact intResult_eq (by omega) (by omega)
      have parts : connection.outputBuffer.contents =
          connection.outputBuffer.contents.take number ++
            connection.outputBuffer.contents.drop
              (min number connection.outputBuffer.contents.length) := by
        rw [List.take_eq_take_min, List.take_append_drop]
      rw [← behind] at parts
      simp only [some, ↓reduceIte]
      have size := kept.readableSize
      by_cases drained : (({ connection.outputBuffer with
          readIndex := connection.outputBuffer.readIndex +
            (min number connection.outputBuffer.contents.length : Nat) } :
          Buffer).contents.length : Int) = 0
      · exact ⟨_, bind_eq_ok.mpr ⟨_, moved, bind_eq_ok.mpr ⟨_, size, if_pos drained⟩⟩, kept,
          sound.flush parts [.update connection.chan.data] ⟨rfl, rfl⟩⟩
      · refine ⟨_, bind_eq_ok.mpr ⟨_, moved, bind_eq_ok.mpr ⟨_, size, if_neg drained⟩⟩, kept, ?_⟩
        have stays := sound.flush parts [] ⟨rfl, rfl⟩
        rwa [List.append_nil] at stays
    · have nothing : connection.outputBuffer.contents.take number = [] := by
        apply List.eq_nil_of_length_eq_zero
        rw [List.length_take]
        omega
      simp only [some, ↓reduceIte]
      refine ⟨_, rfl, valid, ?_⟩
      have whole : connection.outputBuffer.contents =
          connection.outputBuffer.contents.take number ++ connection.outputBuffer.contents := by
        rw [nothing, List.nil_append]
      have stays := sound.flush whole [] ⟨rfl, rfl⟩
      rwa [List.append_nil] at stays

end Send

/-- `tcp_connection_send_buffer` on a valid buffer sends its content. -/
theorem sendBuffer_eq {connection : TcpConnection} {buffer : Buffer} (valid : buffer.Valid)
    (result : WriteResult) (memory : Bool) :
    outputStep connection (.sendBuffer buffer result memory) =
      outputStep connection (.sendData ⟨buffer.data, buffer.readIndex⟩ buffer.contents.length
        result memory) := by
  have width := valid.length_contents
  have last : intResult (buffer.readIndex + buffer.contents.length) =
      .ok (buffer.readIndex + buffer.contents.length) := by
    have small := valid.small
    have stored := valid.stored
    have start := valid.start
    exact intResult_eq (by omega) (by omega)
  simp only [outputStep, TcpConnection.sendBuffer, valid.readableSize, ok_bind, last]
  cases connection.sendData ⟨buffer.data, buffer.readIndex⟩ buffer.contents.length result memory
    with
  | error stop => rfl
  | ok pair => rfl

/-- An event that goes well keeps the stream. -/
theorem outputStep_sound {connection : TcpConnection} {event : OutputEvent}
    (sound : StreamSound connection) (permitted : event.Permitted)
    (well : GoesWell connection event) :
    ∃ after, outputStep connection event = .ok after ∧ StreamSound after := by
  cases event with
  | sendData data size result memory =>
    obtain ⟨rfl, holds⟩ := permitted
    obtain ⟨sent, after, success, kept⟩ := sound.sendData holds well
    exact ⟨after, bind_eq_ok.mpr ⟨_, success, rfl⟩, kept⟩
  | sendBuffer buffer result memory =>
    obtain ⟨rfl, valid⟩ := permitted
    have sends : SendGoesWell connection (buffer.contents.length : Int).toNat result := well
    obtain ⟨sent, after, success, kept⟩ := sound.sendData valid.holds sends
    refine ⟨after, ?_, kept⟩
    rw [sendBuffer_eq valid]
    exact bind_eq_ok.mpr ⟨_, success, rfl⟩
  | handleWrite result => exact sound.handleWrite result

/-- An event that does not go well breaks the stream, if it returns. -/
theorem outputStep_falls {connection after : TcpConnection} {event : OutputEvent}
    (sound : StreamSound connection) (permitted : event.Permitted)
    (bad : ¬ GoesWell connection event) (success : outputStep connection event = .ok after) :
    ¬ StreamSound after := by
  cases event with
  | sendData data size result memory =>
    obtain ⟨rfl, holds⟩ := permitted
    obtain ⟨⟨sent, last⟩, called, same⟩ := bind_eq_ok.mp success
    cases same
    exact sound.sendData_falls holds bad called
  | sendBuffer buffer result memory =>
    obtain ⟨rfl, valid⟩ := permitted
    rw [sendBuffer_eq valid] at success
    obtain ⟨⟨sent, last⟩, called, same⟩ := bind_eq_ok.mp success
    cases same
    have sends : ¬ SendGoesWell connection (buffer.contents.length : Int).toNat result := bad
    exact sound.sendData_falls valid.holds sends called
  | handleWrite result => exact absurd trivial bad

/-- A send with a direct write that does not fail has no failure to honour. -/
theorem HonoursFailure.of_goesWell {connection : TcpConnection} {event : OutputEvent}
    (well : GoesWell connection event) : HonoursFailure connection event := by
  intro idle errno memory
  constructor
  · rintro data size rfl _
    obtain ⟨count, wrote, _⟩ := SendGoesWell.direct well idle
    cases wrote
  · rintro buffer rfl _
    obtain ⟨count, wrote, _⟩ := SendGoesWell.direct well idle
    cases wrote

/-- The stream is right and failures are honoured exactly in the runs in which no direct write
fails and the block of the queue does not outgrow an `int`. -/
theorem sendsSound_iff {start : TcpConnection} {events : List OutputEvent}
    (sound : StreamSound start) (permitted : ∀ event ∈ events, event.Permitted) :
    SendsSound start events ↔ Along outputStep GoesWell start events := by
  have allowed : Along outputStep (fun _ event => event.Permitted) start events :=
    .of_forall (fun _ => permitted) start
  have stream : Throughout outputStep StreamSound start events ↔
      Along outputStep GoesWell start events :=
    throughout_iff_along_of (fun _ _ kept allowed well => outputStep_sound kept allowed well)
      (fun _ _ _ kept allowed bad success => outputStep_falls kept allowed bad success)
      (fun _ kept => kept) sound allowed
  constructor
  · intro sends
    exact stream.mp sends.stream
  · intro along
    refine ⟨stream.mpr along, ?_⟩
    exact Along.weaken (fun _ _ well => .of_goesWell well) along

theorem new_streamSound (self : Nat) (connectedFd : Int) :
    StreamSound (.new self connectedFd) := by
  refine ⟨Buffer.Valid.new, ?_⟩
  have empty : Buffer.new.contents = [] := window_empty _ _
  exact empty

/-- Two bytes of a block of three. -/
def samplePointer : Pointer := ⟨[88, 89, 90], 1⟩

theorem samplePointer_holds : samplePointer.Holds 2 :=
  ⟨by decide, by decide, by decide, by decide⟩

theorem sendsSound_sample :
    SendsSound (.new 0 9) [.sendData samplePointer 2 (.wrote 1) true] ↔
      Along outputStep GoesWell (.new 0 9) [.sendData samplePointer 2 (.wrote 1) true] := by
  refine sendsSound_iff (new_streamSound 0 9) ?_
  intro event member
  rw [List.mem_singleton.mp member]
  exact ⟨rfl, samplePointer_holds⟩

theorem new_idle (self : Nat) (connectedFd : Int) : Idle (.new self connectedFd) := by
  have off : (App.connectionChannel self connectedFd).writeEventIsEnabled = false := by
    change decide (App.eventRead &&& App.eventWrite ≠ 0) = false
    decide
  have empty : Buffer.new.contents = [] := window_empty _ _
  exact ⟨off, empty⟩

/-- A full socket makes a send of two bytes queue three, the one in front of them first. -/
theorem full_socket_queues_more :
    ∃ after, outputStep (.new 0 9) (.sendData samplePointer 2 (.failed .wouldBlock) true) =
        .ok after ∧ after.outputBuffer.contents = [88, 89, 90] ∧
      ¬ SendsSound (.new 0 9) [.sendData samplePointer 2 (.failed .wouldBlock) true] := by
  have idle := new_idle 0 9
  have sound := new_streamSound 0 9
  have held : (samplePointer.add (-1)).read 3 = .ok [88, 89, 90] := rfl
  have recorded : ((TcpConnection.new 0 9).record [.write [],
      .send (samplePointer.bytes 2) false]).outputBuffer.Valid := Buffer.Valid.new
  rcases queueRest_cases recorded (by decide) held with
    ⟨after, updates, success, _, contents, _⟩ | ⟨_, tight, large⟩
  · have step : outputStep (.new 0 9) (.sendData samplePointer 2 (.failed .wouldBlock) true) =
        .ok after := by
      have sent : (TcpConnection.new 0 9).sendData samplePointer 2 (.failed .wouldBlock) true =
          .ok (-1, after) := by
        rw [sendData_failed sound.output samplePointer_holds idle]
        exact bind_eq_ok.mpr ⟨after, success, rfl⟩
      exact bind_eq_ok.mpr ⟨_, sent, rfl⟩
    have first : (TcpConnection.new 0 9).outputBuffer.contents = [] := idle.empty
    refine ⟨after, step, contents.trans (congrArg (· ++ [88, 89, 90]) first), ?_⟩
    have bad : ¬ GoesWell (.new 0 9) (.sendData samplePointer 2 (.failed .wouldBlock) true) := by
      intro well
      obtain ⟨count, wrote, _⟩ := SendGoesWell.direct well idle
      cases wrote
    have permitted : OutputEvent.Permitted
        (.sendData samplePointer 2 (.failed .wouldBlock) true) := ⟨rfl, samplePointer_holds⟩
    intro sends
    obtain ⟨final, run, kept⟩ := sends.stream _ List.prefix_rfl
    cases (run_cons step []).symm.trans run
    exact outputStep_falls sound permitted bad step kept
  · have total : (TcpConnection.new 0 9).outputBuffer.totalSize = 65536 := rfl
    change 2 ^ 31 ≤ (TcpConnection.new 0 9).outputBuffer.totalSize + _ at large
    omega

end Yolanda.Lib
