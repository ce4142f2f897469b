import Yolanda.App.TcpConnection

/-! What a call of `send_data` or `handle_write` that returns has done. Each way of
returning is a case, and later results about runs go through these cases. -/

namespace Yolanda.App

open Foundation

/-- The bytes the socket has taken. -/
def written (trace : List Action) : Bytes :=
  trace.flatMap fun
    | .write taken => taken
    | _ => []

/-- The data of all calls of `send_data` that met neither `EPIPE` nor `ECONNRESET`. -/
def accepted (trace : List Action) : Bytes :=
  trace.flatMap fun
    | .send data false => data
    | _ => []

@[simp] theorem written_append (first second : List Action) :
    written (first ++ second) = written first ++ written second :=
  List.flatMap_append

@[simp] theorem accepted_append (first second : List Action) :
    accepted (first ++ second) = accepted first ++ accepted second :=
  List.flatMap_append

/-- The requests handed to the callback. -/
def requests (trace : List Action) : List HttpRequest :=
  trace.filterMap fun
    | .request request => some request
    | _ => none

/-- The data of all calls of `send_data`. -/
def sends (trace : List Action) : List Bytes :=
  trace.filterMap fun
    | .send data _ => some data
    | _ => none

/-- The calls that end the sending side or the watch over the descriptor. -/
def Action.endsOutput : Action → Bool
  | .shutdown _ | .remove _ => true
  | _ => false

def Action.isWrite : Action → Bool
  | .write _ => true
  | _ => false

@[simp] theorem requests_append (first second : List Action) :
    requests (first ++ second) = requests first ++ requests second :=
  List.filterMap_append

@[simp] theorem sends_append (first second : List Action) :
    sends (first ++ second) = sends first ++ sends second :=
  List.filterMap_append

namespace TcpConnection

variable {connection : TcpConnection} {data left : Bytes} {result : WriteResult}

@[simp] theorem record_record (connection : TcpConnection) (first second : List Action) :
    (connection.record first).record second = connection.record (first ++ second) := by
  simp [record]

/-- The bytes were appended to the queue and the write interest is on. -/
structure Queued (connection after : TcpConnection) (rest : Bytes) : Prop where
  stored : ∃ output updates,
    connection.outputBuffer.append (some rest) (intOfSize rest.length) = .ok output ∧
    (updates = [] ∨ updates = [Action.update connection.chan.data]) ∧
    after = { connection with
      outputBuffer := output
      chan := after.chan
      trace := connection.trace ++ updates }
  data : after.chan.data = connection.chan.data
  enabled : after.chan.writeEventIsEnabled = true

theorem queueRest_cases {fault : Bool} {rest : Bytes} {after : TcpConnection}
    (success : connection.queueRest fault rest = .ok after) :
    (after = connection ∧ (fault = true ∨ rest = [])) ∨
      (fault = false ∧ rest ≠ [] ∧ Queued connection after rest) := by
  by_cases pending : (!fault && decide (rest.length > 0)) = true
  · have split : fault = false ∧ rest ≠ [] := by
      simpa [List.length_pos_iff] using pending
    unfold queueRest at success
    rw [if_pos pending] at success
    obtain ⟨output, appended, next⟩ := bind_eq_ok.mp success
    right
    refine ⟨split.1, split.2, ?_⟩
    cases enabled : connection.chan.writeEventIsEnabled with
    | true =>
      simp only [enabled, ↓reduceIte, pure, Except.pure, Except.ok.injEq] at next
      subst next
      refine ⟨⟨output, [], appended, .inl rfl, ?_⟩, rfl, enabled⟩
      rw [List.append_nil]
    | false =>
      simp only [enabled, Bool.false_eq_true, ↓reduceIte, pure, Except.pure,
        Except.ok.injEq] at next
      subst next
      exact ⟨⟨output, _, appended, .inr rfl, rfl⟩, rfl, connection.chan.enabled_writeEventEnable⟩
  · unfold queueRest at success
    rw [if_neg pending] at success
    cases success
    left
    refine ⟨rfl, ?_⟩
    cases fault with
    | true => exact .inl rfl
    | false => exact .inr (by simpa using pending)

/-- `append` can store the bytes: their number, which it takes as `int`, stays within them. -/
def Storable (bytes : Bytes) : Prop :=
  sizeOfInt (intOfSize bytes.length) ≤ bytes.length

theorem storable_of_short {bytes : Bytes} (short : bytes.length < 2 ^ 31) : Storable bytes :=
  Nat.le_of_eq (sizeOfInt_intOfSize short)

theorem queueRest_returns_iff (valid : connection.outputBuffer.Valid) {rest : Bytes}
    {fault : Bool} :
    (∃ after, connection.queueRest fault rest = .ok after) ↔
      Storable (if fault then [] else rest) := by
  constructor
  · intro ⟨after, success⟩
    rcases queueRest_cases success with ⟨_, refused | empty⟩ | ⟨accepted, _, queued⟩
    · rw [refused, if_pos rfl]
      exact storable_of_short (by decide)
    · rw [empty, ite_self]
      exact storable_of_short (by decide)
    · obtain ⟨output, _, appended, _⟩ := queued.stored
      rw [accepted, if_neg Bool.false_ne_true]
      exact (valid.of_append appended).2.1
  · intro storable
    unfold queueRest
    by_cases pending : (!fault && decide (rest.length > 0)) = true
    · have accepted : fault = false := by
        cases fault with
        | true => cases pending
        | false => rfl
      rw [accepted, if_neg Bool.false_ne_true] at storable
      obtain ⟨output, appended⟩ := valid.append_returns storable
      rw [if_pos pending, appended, ok_bind]
      cases enabled : connection.chan.writeEventIsEnabled with
      | true => exact ⟨_, if_pos enabled⟩
      | false => exact ⟨_, if_neg (by simp [enabled])⟩
    · rw [if_neg pending]
      exact ⟨_, rfl⟩

/-- What `send_data` hands to `output_buffer`. -/
def unsent (connection : TcpConnection) (data : Bytes) (result : WriteResult) : Bytes :=
  if connection.idle then
    match result with
    | .wrote count => data.drop count
    | .failed errno => if errno = .pipe || errno = .connReset then [] else data
  else data

/-- The ways in which `send_data` returns, when `left` is what it hands to `output_buffer`. -/
inductive Sent (connection : TcpConnection) (data left : Bytes) : TcpConnection → Prop where
  | refused (idle : connection.idle = true) :
      Sent connection data left (connection.record [.write [], .send data true])
  | direct (idle : connection.idle = true) :
      Sent connection data left (connection.record [.write data, .send data false])
  | split (idle : connection.idle = true) (parts : data = taken ++ left) (pending : left ≠ [])
      (queued : Queued (connection.record [.write taken, .send data false]) after left) :
      Sent connection data left after
  | nothing (busy : connection.idle = false) (empty : data = []) :
      Sent connection data left (connection.record [.send data false])
  | queued (busy : connection.idle = false) (pending : data ≠ []) (whole : left = data)
      (queued : Queued (connection.record [.send data false]) after data) :
      Sent connection data left after

/-- The ways in which the direct write ends, and what it leaves. -/
private theorem writeDirectly_cases (connection : TcpConnection) (data : Bytes)
    (result : WriteResult) :
    (connection.idle = true ∧ ∃ fault,
        connection.writeDirectly data result = (0, fault, connection.record [.write []]) ∧
        connection.unsent data result = if fault then [] else data) ∨
      (connection.idle = true ∧ ∃ count,
        connection.writeDirectly data result =
          (count, false, connection.record [.write (data.take count)]) ∧
        connection.unsent data result = data.drop count) ∨
      (connection.idle = false ∧
        connection.writeDirectly data result = (0, false, connection) ∧
        connection.unsent data result = data) := by
  unfold writeDirectly unsent
  cases idle : connection.idle with
  | true =>
    cases result with
    | wrote count =>
      refine .inr (.inl ⟨rfl, min count data.length, ?_, ?_⟩)
      · rw [if_pos rfl, ← List.take_eq_take_min]
      · rcases Nat.le_total count data.length with less | more
        · simp [Nat.min_eq_left less]
        · simp [Nat.min_eq_right more, List.drop_eq_nil_of_le more]
    | failed errno => exact .inl ⟨rfl, _, rfl, rfl⟩
  | false => exact .inr (.inr ⟨rfl, rfl, rfl⟩)

/-- The calls that belong to one `send_data`. -/
structure Sending (actions : List Action) (data : Bytes) : Prop where
  sends : sends actions = [data]
  requests : requests actions = []
  stays : ∀ action ∈ actions, action.endsOutput = false

private theorem sending_of_updates {updates actions : List Action} {target : Pointer}
    (sending : Sending actions data) (shape : updates = [] ∨ updates = [.update target]) :
    Sending (actions ++ updates) data := by
  rcases shape with none | one
  · subst updates
    rw [List.append_nil]
    exact sending
  · subst updates
    constructor
    · rw [sends_append, sending.sends]
      rfl
    · rw [requests_append, sending.requests]
      rfl
    · intro action member
      rcases List.mem_append.mp member with early | last
      · exact sending.stays action early
      · rw [List.mem_singleton.mp last]
        rfl

private theorem sending_send (data : Bytes) (refused : Bool) :
    Sending [.send data refused] data := by
  refine ⟨rfl, rfl, ?_⟩
  intro action member
  rw [List.mem_singleton.mp member]
  rfl

private theorem sending_write (taken data : Bytes) (refused : Bool) :
    Sending [.write taken, .send data refused] data := by
  refine ⟨rfl, rfl, ?_⟩
  intro action member
  rcases List.mem_cons.mp member with first | other
  · rw [first]
    rfl
  · exact (sending_send data refused).stays action other

/-- A `send_data` makes only the calls of sending. It writes when nothing is queued,
and does not write behind a queue. -/
theorem Sent.sending {after : TcpConnection} (sent : Sent connection data left after) :
    ∃ actions, after.trace = connection.trace ++ actions ∧ Sending actions data ∧
      (connection.idle = false ↔ ∀ action ∈ actions, action.isWrite = false) := by
  have writes : ∀ {taken : Bytes} {refused : Bool} (updates : List Action),
      connection.idle = true → (connection.idle = false ↔
        ∀ action ∈ [Action.write taken, .send data refused] ++ updates, action.isWrite = false) := by
    intro taken refused updates idle
    rw [idle]
    constructor
    · intro busy
      cases busy
    · intro quiet
      exact absurd (quiet (.write taken) (List.mem_cons_self ..)) (by simp [Action.isWrite])
  have quiet : ∀ {updates : List Action} (target : Pointer),
      (updates = [] ∨ updates = [.update target]) →
      ∀ action ∈ [Action.send data false] ++ updates, action.isWrite = false := by
    intro updates target shape action member
    rcases shape with none | one
    · subst updates
      rw [List.append_nil] at member
      rw [List.mem_singleton.mp member]
      rfl
    · subst updates
      rcases List.mem_cons.mp member with first | last
      · rw [first]
        rfl
      · rw [List.mem_singleton.mp last]
        rfl
  cases sent with
  | refused idle => exact ⟨_, rfl, sending_write _ _ _, writes [] idle⟩
  | direct idle => exact ⟨_, rfl, sending_write _ _ _, writes [] idle⟩
  | split idle parts pending queued =>
    obtain ⟨output, updates, _, shape, same⟩ := queued.stored
    have extended := congrArg TcpConnection.trace same
    exact ⟨_, extended.trans (List.append_assoc ..),
      sending_of_updates (sending_write _ _ _) shape, writes updates idle⟩
  | nothing busy empty =>
    exact ⟨_, rfl, sending_send _ _, ⟨fun _ => quiet .null (.inl rfl), fun _ => busy⟩⟩
  | queued busy pending whole queued =>
    obtain ⟨output, updates, _, shape, same⟩ := queued.stored
    have extended := congrArg TcpConnection.trace same
    exact ⟨_, extended.trans (List.append_assoc ..),
      sending_of_updates (sending_send _ _) shape, ⟨fun _ => quiet _ shape, fun _ => busy⟩⟩

/-- A `send_data` leaves the receiving side alone and keeps the queue valid. -/
structure Kept (connection after : TcpConnection) : Prop where
  inputBuffer : after.inputBuffer = connection.inputBuffer
  request : after.request = connection.request
  watched : after.watched = connection.watched
  output : connection.outputBuffer.Valid → after.outputBuffer.Valid

theorem Sent.kept {after : TcpConnection} (sent : Sent connection data left after) :
    Kept connection after := by
  have stored : ∀ {middle : TcpConnection} {rest : Bytes}, Queued middle after rest →
      Kept middle after := by
    intro middle rest queued
    obtain ⟨output, updates, appended, _, same⟩ := queued.stored
    rw [same]
    exact ⟨rfl, rfl, rfl, fun valid => (valid.of_append appended).1⟩
  cases sent with
  | refused idle => exact ⟨rfl, rfl, rfl, id⟩
  | direct idle => exact ⟨rfl, rfl, rfl, id⟩
  | split idle parts pending queued =>
    have kept := stored queued
    exact ⟨kept.inputBuffer, kept.request, kept.watched, kept.output⟩
  | nothing busy empty => exact ⟨rfl, rfl, rfl, id⟩
  | queued busy pending whole queued =>
    have kept := stored queued
    exact ⟨kept.inputBuffer, kept.request, kept.watched, kept.output⟩

theorem sendData_ok {nwrited : Nat} {fault : Bool} {middle after : TcpConnection} {sent : Int}
    (direct : connection.writeDirectly data result = (nwrited, fault, middle)) :
    connection.sendData data result = .ok (sent, after) ↔ sent = intOfSize nwrited ∧
      (middle.record [.send data fault]).queueRest fault (data.drop nwrited) = .ok after := by
  unfold sendData
  rw [direct]
  constructor
  · intro success
    obtain ⟨queued, rest, same⟩ := bind_eq_ok.mp success
    obtain ⟨sentEq, afterEq⟩ := Prod.mk.inj (Except.ok.inj same)
    exact ⟨sentEq.symm, afterEq ▸ rest⟩
  · intro ⟨sentEq, rest⟩
    rw [sentEq]
    exact bind_eq_ok.mpr ⟨after, rest, rfl⟩

theorem sendData_sent {sent : Int} {after : TcpConnection}
    (success : connection.sendData data result = .ok (sent, after)) :
    Sent connection data (connection.unsent data result) after := by
  rcases connection.writeDirectly_cases data result with
    ⟨idle, fault, direct, left⟩ | ⟨idle, count, direct, left⟩ | ⟨busy, direct, left⟩
  · obtain ⟨_, rest⟩ := (sendData_ok direct).mp success
    rw [record_record, List.drop_zero] at rest
    rcases queueRest_cases rest with ⟨same, refused | empty⟩ | ⟨accepted, pending, stored⟩
    · subst same
      subst refused
      exact .refused idle
    · subst same
      subst empty
      cases fault with
      | true => exact .refused idle
      | false => exact .direct idle
    · subst accepted
      rw [left]
      exact .split idle rfl pending stored
  · obtain ⟨_, rest⟩ := (sendData_ok direct).mp success
    rw [record_record] at rest
    rcases queueRest_cases rest with ⟨same, refused | empty⟩ | ⟨_, pending, stored⟩
    · cases refused
    · have all : data.take count = data := by
        rw [← List.append_nil (data.take count), ← empty, List.take_append_drop]
      rw [all] at same
      subst same
      exact .direct idle
    · rw [left]
      exact .split idle (List.take_append_drop _ _).symm pending stored
  · obtain ⟨_, rest⟩ := (sendData_ok direct).mp success
    rw [List.drop_zero] at rest
    rcases queueRest_cases rest with ⟨same, refused | empty⟩ | ⟨_, pending, stored⟩
    · cases refused
    · subst same
      exact .nothing busy empty
    · exact .queued busy pending left stored

private theorem writeDirectly_unsent (connection : TcpConnection) (data : Bytes)
    (result : WriteResult) :
    ∃ nwrited fault middle, connection.writeDirectly data result = (nwrited, fault, middle) ∧
      middle.outputBuffer = connection.outputBuffer ∧
      connection.unsent data result = if fault then [] else data.drop nwrited := by
  rcases connection.writeDirectly_cases data result with
    ⟨_, fault, direct, left⟩ | ⟨_, count, direct, left⟩ | ⟨_, direct, left⟩
  · exact ⟨_, fault, _, direct, rfl, left⟩
  · exact ⟨_, false, _, direct, rfl, left⟩
  · exact ⟨_, false, _, direct, rfl, left⟩

theorem length_unsent (connection : TcpConnection) (data : Bytes) (result : WriteResult) :
    (connection.unsent data result).length ≤ data.length := by
  obtain ⟨nwrited, fault, _, _, _, same⟩ := connection.writeDirectly_unsent data result
  rw [same]
  cases fault with
  | true => exact Nat.zero_le _
  | false =>
    change (data.drop nwrited).length ≤ data.length
    rw [List.length_drop]
    exact Nat.sub_le ..

/-- `send_data` returns exactly when what it hands to `output_buffer` can be stored. -/
theorem sendData_returns_iff (valid : connection.outputBuffer.Valid) :
    (∃ sent after, connection.sendData data result = .ok (sent, after)) ↔
      Storable (connection.unsent data result) := by
  obtain ⟨nwrited, fault, middle, direct, kept, same⟩ := connection.writeDirectly_unsent data result
  have stored : (middle.record [.send data fault]).outputBuffer.Valid := kept ▸ valid
  rw [same, ← queueRest_returns_iff stored]
  constructor
  · intro ⟨sent, after, success⟩
    exact ⟨after, ((sendData_ok direct).mp success).2⟩
  · intro ⟨after, rest⟩
    exact ⟨_, after, (sendData_ok direct).mpr ⟨rfl, rest⟩⟩

theorem unsent_storable (connection : TcpConnection) (small : data.length < 2 ^ 31)
    (result : WriteResult) : Storable (connection.unsent data result) :=
  storable_of_short (Nat.lt_of_le_of_lt (connection.length_unsent data result) small)

theorem sendData_succeeds (valid : connection.outputBuffer.Valid) (small : data.length < 2 ^ 31)
    (result : WriteResult) : ∃ sent after, connection.sendData data result = .ok (sent, after) :=
  (sendData_returns_iff valid).mpr (connection.unsent_storable small result)

/-- A socket that takes everything leaves nothing to queue. -/
theorem sendData_all (connection : TcpConnection) (idle : connection.idle = true) {count : Nat}
    (all : data.length ≤ count) :
    connection.sendData data (.wrote count) = .ok (intOfSize data.length,
      connection.record [.write data, .send data false]) := by
  have direct : connection.writeDirectly data (.wrote count) =
      (data.length, false, connection.record [.write data]) := by
    unfold writeDirectly
    rw [if_pos idle]
    simp only [Nat.min_eq_right all, List.take_of_length_le all]
  refine (sendData_ok direct).mpr ⟨rfl, ?_⟩
  rw [List.drop_length, record_record]
  rfl

/-- A socket that takes nothing leaves all data to the queue. -/
theorem sendData_blocked (connection : TcpConnection) (idle : connection.idle = true)
    (pending : data ≠ []) {sent : Int} {after : TcpConnection}
    (success : connection.sendData data (.failed .wouldBlock) = .ok (sent, after)) :
    Queued (connection.record [.write [], .send data false]) after data := by
  have direct : connection.writeDirectly data (.failed .wouldBlock) =
      (0, false, connection.record [.write []]) := by
    unfold writeDirectly
    rw [if_pos idle]
    rfl
  obtain ⟨_, rest⟩ := (sendData_ok direct).mp success
  rw [record_record, List.drop_zero] at rest
  rcases queueRest_cases rest with ⟨_, refused | empty⟩ | ⟨_, _, queued⟩
  · cases refused
  · exact absurd empty pending
  · exact queued

theorem idle_contents (valid : connection.outputBuffer.Valid) (idle : connection.idle = true) :
    connection.outputBuffer.contents = [] := by
  have empty : connection.outputBuffer.readable = 0 := by
    have both := Bool.and_eq_true_iff.mp idle
    exact beq_iff_eq.mp both.2
  rw [valid.readable_eq] at empty
  exact List.eq_nil_of_length_eq_zero empty

end TcpConnection

theorem Buffer.Valid.readableBlock_eq {buffer : Buffer} (valid : buffer.Valid) :
    buffer.readableBlock = .ok buffer.contents := by
  have stop : buffer.readIndex + buffer.readable = buffer.writeIndex := by
    rw [valid.readable_eq, valid.length_contents]
    exact Nat.add_sub_cancel' valid.ordered
  unfold Buffer.readableBlock
  rw [stop, if_pos valid.stored]
  rfl

namespace TcpConnection

variable {connection after : TcpConnection}

/-- What a consumed part of the queue leaves: the rest, and no write interest without one. -/
theorem consumeWritten_cases (connection : TcpConnection)
    (valid : connection.outputBuffer.Valid) {taken rest : Bytes}
    (parts : connection.outputBuffer.contents = taken ++ rest) :
    ∃ output : Buffer, output.Valid ∧ output.contents = rest ∧
      ((rest = [] ∧ connection.consumeWritten taken.length =
          { connection with outputBuffer := output }.writeEventDisable) ∨
        (rest ≠ [] ∧ connection.consumeWritten taken.length =
          { connection with outputBuffer := output })) := by
  have inside : taken.length ≤ connection.outputBuffer.contents.length := by
    rw [parts, List.length_append]
    exact Nat.le_add_right ..
  obtain ⟨kept, contents⟩ := valid.advance taken.length inside
  rw [parts, List.drop_left] at contents
  refine ⟨_, kept, contents, ?_⟩
  have left := kept.readable_eq
  rw [contents] at left
  unfold consumeWritten
  cases rest with
  | nil => exact .inl ⟨rfl, if_pos left⟩
  | cons head tail => exact .inr ⟨List.cons_ne_nil _ _, if_neg (by rw [left]; exact Nat.succ_ne_zero _)⟩

theorem consumeWritten_trace (connection : TcpConnection) (nwrited : Nat) :
    ∃ updates, (connection.consumeWritten nwrited).trace = connection.trace ++ updates ∧
      (updates = [] ∨ updates = [.update connection.chan.data]) := by
  unfold consumeWritten
  simp only []
  split
  · exact ⟨_, rfl, .inr rfl⟩
  · exact ⟨[], (List.append_nil _).symm, .inl rfl⟩

theorem consumeWritten_kept (connection : TcpConnection) {taken rest : Bytes}
    (parts : connection.outputBuffer.contents = taken ++ rest) :
    Kept connection (connection.consumeWritten taken.length) := by
  have output : connection.outputBuffer.Valid →
      (connection.consumeWritten taken.length).outputBuffer.Valid := by
    intro valid
    obtain ⟨output, kept, _, ⟨_, same⟩ | ⟨_, same⟩⟩ := consumeWritten_cases _ valid parts
    · rw [same]
      exact kept
    · rw [same]
      exact kept
  refine ⟨?_, ?_, ?_, output⟩ <;> unfold consumeWritten <;> simp only [] <;> split <;> rfl

/-- `handle_write` gives the socket as much of the queue as it takes, and calls back if that
is something. -/
theorem handleWrite_taken (valid : connection.outputBuffer.Valid)
    {writeCompleted : TcpConnection → Except Fault TcpConnection} {result : WriteResult}
    (success : connection.handleWrite writeCompleted result = .ok after) :
    after = connection.record [.write []] ∨
      ∃ count, result = .wrote count ∧ connection.outputBuffer.contents.take count ≠ [] ∧
        writeCompleted ((connection.record [.write (connection.outputBuffer.contents.take count)])
          |>.consumeWritten (connection.outputBuffer.contents.take count).length) = .ok after := by
  unfold handleWrite at success
  rw [valid.readableBlock_eq, ok_bind] at success
  cases result with
  | failed errno =>
    cases success
    exact .inl rfl
  | wrote count =>
    have size : (connection.outputBuffer.contents.take count).length =
        min count connection.outputBuffer.contents.length := List.length_take
    by_cases some : min count connection.outputBuffer.contents.length > 0
    · simp only [some, ↓reduceIte] at success
      rw [← size] at success
      refine .inr ⟨count, rfl, ?_, success⟩
      intro empty
      rw [empty] at size
      rw [← size] at some
      exact absurd some (by decide)
    · simp only [some, ↓reduceIte] at success
      cases success
      left
      have empty : connection.outputBuffer.contents.take count = [] := by
        apply List.eq_nil_of_length_eq_zero
        omega
      rw [empty]

/-- `handle_write` gives the socket a first part of the queue and calls back for it. -/
theorem handleWrite_cases (valid : connection.outputBuffer.Valid)
    {writeCompleted : TcpConnection → Except Fault TcpConnection} {result : WriteResult}
    (success : connection.handleWrite writeCompleted result = .ok after) :
    after = connection.record [.write []] ∨
      ∃ taken rest, taken ≠ [] ∧ connection.outputBuffer.contents = taken ++ rest ∧
        writeCompleted ((connection.record [.write taken]).consumeWritten taken.length) =
          .ok after := by
  rcases handleWrite_taken valid success with same | ⟨count, _, some, called⟩
  · exact .inl same
  · exact .inr ⟨_, _, some, (List.take_append_drop count _).symm, called⟩

theorem handleWrite_succeeds (valid : connection.outputBuffer.Valid)
    (writeCompleted : TcpConnection → Except Fault TcpConnection) (result : WriteResult)
    (returns : ∀ taken rest, connection.outputBuffer.contents = taken ++ rest →
      ∃ after, writeCompleted
        ((connection.record [.write taken]).consumeWritten taken.length) = .ok after) :
    ∃ after, connection.handleWrite writeCompleted result = .ok after := by
  unfold handleWrite
  rw [valid.readableBlock_eq, ok_bind]
  cases result with
  | failed errno => exact ⟨_, rfl⟩
  | wrote count =>
    have size : (connection.outputBuffer.contents.take count).length =
        min count connection.outputBuffer.contents.length := List.length_take
    by_cases some : min count connection.outputBuffer.contents.length > 0
    · obtain ⟨after, called⟩ := returns _ _ (List.take_append_drop count _).symm
      rw [size] at called
      exact ⟨after, by simp only [some, ↓reduceIte]; exact called⟩
    · exact ⟨_, by simp only [some, ↓reduceIte]; rfl⟩

end TcpConnection

end Yolanda.App
