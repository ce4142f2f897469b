import Yolanda.App.OutputStream

/-! The write interest of a connection and its output queue: one is there with the other,
unless a rest that is too long for an `int` is not queued at all. -/

namespace Yolanda.App

open Foundation

/-- The connection asks for write events exactly while bytes are queued. -/
def InterestMatches (connection : TcpConnection) : Prop :=
  connection.chan.writeEventIsEnabled = true ↔ connection.outputBuffer.contents ≠ []

/-- The `int` that `append` is given for the rest of a send is not 0, unless nothing is
left. -/
def RestQueued (left : Bytes) : Prop :=
  left ≠ [] → intOfSize left.length ≠ 0

/-- One call of `send_data`. -/
def sendStep (connection : TcpConnection) (send : Bytes × WriteResult) :
    Except Fault TcpConnection := do
  let (_, connection) ← connection.sendData send.1 send.2
  return connection

/-- The rests of all sends of an event are queued, those of the `writeCompletedCallBack`
among them. -/
def OutputEvent.RestsQueued (connection : TcpConnection) : OutputEvent → Prop
  | .sendData data result => RestQueued (connection.unsent data result)
  | .sendBuffer buffer result => ∀ data, buffer.readableBlock = .ok data →
      RestQueued (connection.unsent data result)
  | .handleWrite result sends => ∀ count, result = .wrote count →
      connection.outputBuffer.contents.take count ≠ [] →
      Along sendStep (fun connection send => RestQueued (connection.unsent send.1 send.2))
        ((connection.record [.write (connection.outputBuffer.contents.take count)])
          |>.consumeWritten (connection.outputBuffer.contents.take count).length) sends

namespace TcpConnection

variable {connection after : TcpConnection} {data left : Bytes} {result : WriteResult}

/-- The queue is valid, and the write interest goes with it. -/
structure Interested (connection : TcpConnection) : Prop where
  output : connection.outputBuffer.Valid
  interest : InterestMatches connection

/-- A queued rest is one that is there. -/
private theorem Queued.interested (queued : Queued connection after left)
    (valid : connection.outputBuffer.Valid) (pending : left ≠ [])
    (kept : RestQueued left) : after.Interested := by
  obtain ⟨output, _, appended, _, same⟩ := queued.stored
  obtain ⟨filled, _, contents⟩ := valid.of_append appended
  have stored : after.outputBuffer = output := by rw [same]
  have some : 0 < sizeOfInt (intOfSize left.length) := by
    have nonzero := kept pending
    obtain ⟨_, _, least, most⟩ := intOfSize_wraps left.length
    unfold sizeOfInt
    omega
  refine ⟨stored ▸ filled, fun _ => ?_, fun _ => queued.enabled⟩
  rw [stored, contents]
  intro empty
  have length := congrArg List.length empty
  have positive := List.length_pos_of_ne_nil pending
  simp only [List.length_append, List.length_take, List.length_nil] at length
  omega

private theorem interested_of_same (interested : connection.Interested)
    (chan : after.chan = connection.chan) (output : after.outputBuffer = connection.outputBuffer) :
    after.Interested := by
  constructor
  · rw [output]
    exact interested.output
  · unfold InterestMatches
    rw [chan, output]
    exact interested.interest

/-- A `send_data` that queues its rest keeps interest and queue together. -/
theorem Sent.interested (sent : Sent connection data left after)
    (interested : connection.Interested) (kept : RestQueued left) : after.Interested := by
  have valid := interested.output
  cases sent with
  | refused idle => exact interested_of_same interested rfl rfl
  | direct idle => exact interested_of_same interested rfl rfl
  | split idle parts pending queued => exact queued.interested valid pending kept
  | nothing busy empty => exact interested_of_same interested rfl rfl
  | queued busy pending whole queued =>
    subst whole
    exact queued.interested valid pending kept

theorem sendStep_interested {send : Bytes × WriteResult} (interested : connection.Interested)
    (kept : RestQueued (connection.unsent send.1 send.2))
    (success : sendStep connection send = .ok after) : after.Interested := by
  obtain ⟨⟨sent, next⟩, taken, same⟩ := bind_eq_ok.mp success
  cases same
  exact (sendData_sent taken).interested interested kept

/-- The sends of a callback are steps one after the other. -/
theorem sendAll_eq_run (connection : TcpConnection) (sends : List (Bytes × WriteResult)) :
    connection.sendAll sends = run sendStep connection sends := by
  induction sends generalizing connection with
  | nil => rfl
  | cons send sends ih =>
    rw [sendAll, run, sendStep]
    cases connection.sendData send.1 send.2 with
    | error fault => rfl
    | ok result => exact ih result.2

/-- What `handle_write` consumed leaves interest and queue together. -/
theorem consumeWritten_interested (interested : connection.Interested) {taken rest : Bytes}
    (parts : connection.outputBuffer.contents = taken ++ rest) (some : taken ≠ []) :
    ((connection.record [.write taken]).consumeWritten taken.length).Interested := by
  have recorded : (connection.record [.write taken]).outputBuffer.contents = taken ++ rest := parts
  obtain ⟨output, valid, contents, ⟨empty, same⟩ | ⟨pending, same⟩⟩ :=
    consumeWritten_cases (connection.record [.write taken]) interested.output recorded
  · rw [same]
    refine ⟨valid, ?_⟩
    change (connection.chan.writeEventDisable).writeEventIsEnabled = true ↔ output.contents ≠ []
    simp [contents, empty]
  · rw [same]
    refine ⟨valid, ?_⟩
    have before : connection.chan.writeEventIsEnabled = true :=
      interested.interest.mpr (by simp [parts, some])
    change connection.chan.writeEventIsEnabled = true ↔ output.contents ≠ []
    simp [before, contents, pending]

end TcpConnection

/-- An event whose rests are queued keeps interest and queue together. -/
theorem outputStep_interested {connection next : TcpConnection} {event : OutputEvent}
    (interested : connection.Interested) (kept : event.RestsQueued connection)
    (success : outputStep connection event = .ok next) : next.Interested := by
  cases event with
  | sendData data result =>
    have step : sendStep connection (data, result) = .ok next := success
    have queued : RestQueued (connection.unsent (data, result).1 (data, result).2) := kept
    exact TcpConnection.sendStep_interested interested queued step
  | sendBuffer buffer result =>
    obtain ⟨⟨sent, middle, consumed⟩, called, same⟩ := bind_eq_ok.mp success
    cases same
    obtain ⟨data, block, inner⟩ := bind_eq_ok.mp called
    obtain ⟨⟨other, last⟩, taken, result⟩ := bind_eq_ok.mp inner
    cases result
    exact (TcpConnection.sendData_sent taken).interested interested (kept data block)
  | handleWrite result sends =>
    change connection.handleWrite (fun connection => connection.sendAll sends) result =
      .ok next at success
    rcases TcpConnection.handleWrite_taken interested.output success with
      same | ⟨count, wrote, some, called⟩
    · rw [same]
      exact TcpConnection.interested_of_same interested rfl rfl
    · rw [TcpConnection.sendAll_eq_run] at called
      have flushed := TcpConnection.consumeWritten_interested interested
        (List.take_append_drop count _).symm some
      exact run_invariant TcpConnection.Interested
        (fun _ _ _ held met taken => TcpConnection.sendStep_interested held met taken) flushed
        (kept count wrote some) called

/-- In every run that queues the rest of every send, a connection asks for write events in
exactly those states between handlers in which it has bytes queued. -/
theorem interest_matches {self eventLoop : Nat} {connectedFd : Int} {events : List OutputEvent}
    (kept : Along outputStep (fun connection event => event.RestsQueued connection)
      (.new self eventLoop connectedFd) events)
    (before : List OutputEvent) (start : before <+: events) {final : TcpConnection}
    (success : run outputStep (.new self eventLoop connectedFd) before = .ok final) :
    InterestMatches final := by
  have fresh : (TcpConnection.new self eventLoop connectedFd).Interested := by
    refine ⟨Buffer.new_valid, ?_⟩
    have off : (TcpConnection.new self eventLoop connectedFd).chan.writeEventIsEnabled =
        false := by
      change decide (eventRead &&& eventWrite ≠ 0) = false
      decide
    have empty : (TcpConnection.new self eventLoop connectedFd).outputBuffer.contents = [] :=
      Buffer.new_contents
    unfold InterestMatches
    simp [off, empty]
  exact (run_invariant TcpConnection.Interested
    (fun _ _ _ interested met taken => outputStep_interested interested met taken)
    fresh (kept.of_prefix start) success).interest

/-- Bytes of which an `int` keeps the number are queued. -/
theorem restQueued_of_short {left : Bytes} (short : left.length < 2 ^ 31) : RestQueued left := by
  intro pending
  have positive := List.length_pos_of_ne_nil pending
  rw [intOfSize_of_lt short]
  omega

theorem interest_matches_sample :
    ∃ final, run outputStep (.new 0 0 9)
        [.sendData (ascii "abc") (.wrote 1), .sendData (ascii "de") (.wrote 2)] = .ok final ∧
      InterestMatches final := by
  have short : ∀ event ∈ [OutputEvent.sendData (ascii "abc") (.wrote 1),
      .sendData (ascii "de") (.wrote 2)], event.Short := by
    intro event member
    simp only [List.mem_cons, List.not_mem_nil, or_false] at member
    rcases member with rfl | rfl
    · exact (by decide : (ascii "abc").length < 2 ^ 31)
    · exact (by decide : (ascii "de").length < 2 ^ 31)
  obtain ⟨final, success, _⟩ := run_succeeds TcpConnection.Sound
    (fun _ _ sound short => outputStep_sound sound short) (TcpConnection.new_sound 0 0 9)
    (Along.of_forall (fun _ event member => short event member) _)
  refine ⟨final, success, interest_matches (Along.of_forall ?_ _) _ List.prefix_rfl success⟩
  intro connection event member
  have small := short event member
  simp only [List.mem_cons, List.not_mem_nil, or_false] at member
  rcases member with rfl | rfl
  · exact restQueued_of_short (Nat.lt_of_le_of_lt (connection.length_unsent _ _) small)
  · exact restQueued_of_short (Nat.lt_of_le_of_lt (connection.length_unsent _ _) small)

/-- A rest whose size is a multiple of `2 ^ 32` leaves a write interest in nothing. -/
theorem rest_lost {data : Bytes} (zero : intOfSize data.length = 0) (pending : data ≠ []) :
    ∃ final, run outputStep (.new 0 0 9) [.sendData data (.failed .wouldBlock)] = .ok final ∧
      ¬ InterestMatches final := by
  have idle : (TcpConnection.new 0 0 9).idle = true := by decide
  have valid : (TcpConnection.new 0 0 9).outputBuffer.Valid := Buffer.new_valid
  have left : (TcpConnection.new 0 0 9).unsent data (.failed .wouldBlock) = data := by
    rw [TcpConnection.unsent, if_pos idle]
    rfl
  have none : sizeOfInt (intOfSize data.length) = 0 := by
    rw [zero]
    rfl
  have storable : TcpConnection.Storable ((TcpConnection.new 0 0 9).unsent data (.failed .wouldBlock)) := by
    rw [left, TcpConnection.Storable, none]
    exact Nat.zero_le _
  obtain ⟨sent, after, success⟩ := (TcpConnection.sendData_returns_iff valid).mpr storable
  have queued := TcpConnection.sendData_blocked _ idle pending success
  have step : outputStep (.new 0 0 9) (.sendData data (.failed .wouldBlock)) = .ok after := by
    simp only [outputStep, success, ok_bind]
    rfl
  refine ⟨after, run_cons step [], ?_⟩
  intro matching
  refine matching.mp queued.enabled ?_
  obtain ⟨output, _, appended, _, same⟩ := queued.stored
  have contents := (Buffer.Valid.of_append Buffer.new_valid appended).2.2
  rw [same]
  rw [none, List.take_zero, Buffer.new_contents] at contents
  exact contents

/-- A send of `2 ^ 32` bytes that meets a full socket is neither written nor queued. -/
theorem large_send_lost :
    ∃ final, run outputStep (.new 0 0 9)
        [.sendData (List.replicate (2 ^ 32) 97) (.failed .wouldBlock)] = .ok final ∧
      ¬ InterestMatches final := by
  have length : (List.replicate (2 ^ 32) (97 : Byte)).length = 2 ^ 32 := List.length_replicate
  apply rest_lost
  · rw [length]
    decide
  · apply List.ne_nil_of_length_pos
    rw [length]
    omega

end Yolanda.App
