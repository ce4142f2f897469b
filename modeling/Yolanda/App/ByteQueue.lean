import Yolanda.App.BufferInvariant
import Yolanda.App.HttpRequest
import Yolanda.Foundation.Ledger

/-! The buffer over whole runs of its calls: a queue of bytes, whose string grows with its
largest content unless strings are inserted into it. -/

namespace Yolanda.App

open Foundation

/-- A call of a member function of `buffer`, with what it meets. -/
inductive BufferCall where
  | append (source : Option Bytes) (size : Int)
  | appendChar (char : Byte)
  | appendString (string : Bytes)
  | socketRead (received : Option Bytes)
  | readChar
  deriving DecidableEq

/-- A buffer with the account of its calls. -/
abbrev BufferLedger := Ledger Buffer Byte

/-- What a call puts into the queue. -/
def BufferCall.supplied : BufferCall → Bytes
  | .append none _ => []
  | .append (some source) size => source.take size.toNat
  | .appendChar char => [char]
  | .appendString string => string
  | .socketRead none => []
  | .socketRead (some bytes) => bytes
  | .readChar => []

/-- One call. -/
def bufferStep (ledger : BufferLedger) (call : BufferCall) : Except Fault BufferLedger :=
  match call with
  | .append source size => do
    let buffer ← ledger.store.append source size
    return ledger.record Buffer.contents buffer call.supplied []
  | .appendChar char => do
    let buffer ← ledger.store.appendChar char
    return ledger.record Buffer.contents buffer call.supplied []
  | .appendString string => do
    let buffer ← ledger.store.appendString string
    return ledger.record Buffer.contents buffer call.supplied []
  | .socketRead received => do
    let (_, buffer) ← ledger.store.socketRead received
    return ledger.record Buffer.contents buffer call.supplied []
  | .readChar => do
    let (char, buffer) ← ledger.store.readChar
    return ledger.record Buffer.contents buffer [] [char]

/-- What a caller has to see to: a block of at least `size` bytes, and a character to be
read. `readv` delivers no more than it was given room for. -/
def BufferCall.Permitted (ledger : BufferLedger) : BufferCall → Prop
  | .append source size => 0 ≤ size ∧ size < 2 ^ 31 ∧
      ∀ block, source = some block → size ≤ block.length
  | .appendChar _ => True
  | .appendString _ => True
  | .socketRead received => ∀ bytes, received = some bytes →
      bytes.length ≤ ledger.store.writeable + initBufferSize
  | .readChar => 0 < ledger.store.readable

/-- The indices are in order, and the readable bytes are what was supplied and not yet
consumed. -/
structure IsByteQueue (ledger : BufferLedger) : Prop where
  valid : ledger.store.Valid
  balanced : ledger.Balanced Buffer.contents

/-- The account of a buffer as its constructor leaves it. -/
def freshBuffer (size : Nat) : BufferLedger :=
  .begin Buffer.contents (.ofSize size)

theorem freshBuffer_queue (size : Nat) : IsByteQueue (freshBuffer size) :=
  ⟨Buffer.ofSize_valid size, Ledger.begin_balanced _ _⟩

section Step

variable {ledger next : BufferLedger} {call : BufferCall}

/-- A permitted call returns and moves bytes through the queue. -/
theorem bufferStep_moves (valid : ledger.store.Valid) (permitted : call.Permitted ledger) :
    ∃ buffer consumed, bufferStep ledger call =
        .ok (ledger.record Buffer.contents buffer call.supplied consumed) ∧ buffer.Valid ∧
      ledger.store.contents ++ call.supplied = consumed ++ buffer.contents := by
  cases call with
  | append source size =>
    obtain ⟨positive, small, within⟩ := permitted
    cases source with
    | none => exact ⟨ledger.store, [], rfl, valid, List.append_nil _⟩
    | some source =>
      obtain ⟨count, rfl⟩ := Int.eq_ofNat_of_zero_le positive
      have inside : count ≤ source.length := by
        have fits := within source rfl
        omega
      obtain ⟨buffer, success, kept, contents⟩ := valid.appendPart source inside (by omega)
      rw [intOfSize_of_lt (by omega)] at success
      refine ⟨buffer, [], ?_, kept, contents.symm⟩
      simp only [bufferStep, success, ok_bind]
      rfl
  | appendChar char =>
    obtain ⟨buffer, success, kept, contents⟩ := valid.appendChar char
    refine ⟨buffer, [], ?_, kept, contents.symm⟩
    simp only [bufferStep, success, ok_bind]
    rfl
  | appendString string =>
    obtain ⟨buffer, success, kept, contents⟩ := valid.appendString string
    refine ⟨buffer, [], ?_, kept, contents.symm⟩
    simp only [bufferStep, success, ok_bind]
    rfl
  | socketRead received =>
    cases received with
    | none => exact ⟨ledger.store, [], rfl, valid, List.append_nil _⟩
    | some bytes =>
      obtain ⟨buffer, success, kept, contents⟩ := valid.receive bytes (permitted bytes rfl)
      refine ⟨buffer, [], ?_, kept, contents.symm⟩
      simp only [bufferStep, success, ok_bind]
      rfl
  | readChar =>
    change 0 < ledger.store.readable at permitted
    rw [valid.readable_eq] at permitted
    cases contents : ledger.store.contents with
    | nil => simp [contents] at permitted
    | cons head tail =>
      obtain ⟨buffer, success, kept, rest⟩ := valid.readChar contents
      refine ⟨buffer, [head], ?_, kept, ?_⟩
      · simp only [bufferStep, success, ok_bind]
        rfl
      · rw [rest]
        exact List.append_nil _

theorem IsByteQueue.step (queue : IsByteQueue ledger) (permitted : call.Permitted ledger) :
    ∃ next, bufferStep ledger call = .ok next ∧ IsByteQueue next := by
  obtain ⟨buffer, consumed, success, kept, moved⟩ := bufferStep_moves queue.valid permitted
  exact ⟨_, success, kept, queue.balanced.record moved⟩

end Step

/-- Whatever is called, the buffer is a queue of bytes all the time, and a failed read
leaves it alone. -/
theorem buffer_refines_queue {size : Nat} {calls : List BufferCall}
    (permitted : Along bufferStep (fun ledger call => call.Permitted ledger) (freshBuffer size)
      calls) :
    Throughout bufferStep (fun ledger => IsByteQueue ledger ∧
      ledger.store.socketRead none = .ok (-1, ledger.store)) (freshBuffer size) calls := by
  refine throughout_of_along IsByteQueue ?_ ?_ (freshBuffer_queue size) permitted
  · exact fun ledger call queue allowed => queue.step allowed
  · exact fun ledger queue => ⟨queue, rfl⟩

/-- Calls that are permitted in every state. -/
def sampleCalls : List BufferCall :=
  [.append (some (ascii "abc")) 2, .appendString (ascii "cd"), .appendChar 101,
    .socketRead (some (ascii "fg")), .append none 3, .socketRead none]

theorem sampleCalls_permitted : ∀ (ledger : BufferLedger), ∀ call ∈ sampleCalls,
    call.Permitted ledger := by
  intro ledger call member
  simp only [sampleCalls, List.mem_cons, List.not_mem_nil, or_false] at member
  rcases member with rfl | rfl | rfl | rfl | rfl | rfl
  · refine ⟨by decide, by decide, fun block same => ?_⟩
    cases same
    decide
  · trivial
  · trivial
  · intro bytes same
    cases same
    have two : (ascii "fg").length ≤ initBufferSize := by decide
    exact Nat.le_trans two (Nat.le_add_left ..)
  · exact ⟨by decide, by decide, by simp⟩
  · simp [BufferCall.Permitted]

theorem buffer_refines_queue_sample :
    Throughout bufferStep (fun ledger => IsByteQueue ledger ∧
      ledger.store.socketRead none = .ok (-1, ledger.store)) (freshBuffer 3) sampleCalls :=
  buffer_refines_queue (.of_forall sampleCalls_permitted _)

/-- The buffer a call asks for room, and how much of it. -/
def BufferCall.target (buffer : Buffer) : BufferCall → Buffer × Nat
  | .append _ size => (buffer, sizeOfInt size)
  | .appendChar _ => (buffer, 1)
  | .appendString string => (buffer, string.length)
  | .socketRead none => (buffer, 0)
  | .socketRead (some bytes) =>
    ({ buffer with
        data := overwrite buffer.data buffer.writeIndex (bytes.take buffer.writeable)
        writeIndex := buffer.writeIndex + (bytes.take buffer.writeable).length },
      bytes.length - buffer.writeable)
  | .readChar => (buffer, 0)

/-- The call does not enlarge the string beyond what `make_room` leaves. -/
def KeepsRoom (ledger : BufferLedger) (call : BufferCall) : Prop :=
  ∀ room next, (call.target ledger.store).1.makeRoom (call.target ledger.store).2 = .ok room →
    bufferStep ledger call = .ok next → next.store.data.length ≤ room.data.length

/-- The size of the string, as `data.size()`. -/
def Buffer.size (buffer : Buffer) : Nat := buffer.data.length

/-- In every state the string is at most as large as the fresh one or twice the largest
content, and no call enlarges it behind the back of `make_room`. -/
structure StorageBounded (calls : List BufferCall) : Prop where
  bounded : Throughout bufferStep (Ledger.Economical initBufferSize Buffer.size)
    (freshBuffer initBufferSize) calls
  kept : Along bufferStep KeepsRoom (freshBuffer initBufferSize) calls

/-- The string appended, if any, is empty. -/
def BufferCall.InsertsNothing (call : BufferCall) : Prop :=
  ∀ string, call = .appendString string → string = []

section Storage

variable {buffer room filled : Buffer} {ledger next : BufferLedger} {call : BufferCall}

/-- Room is made in the string there is, unless its readable bytes leave too little. -/
theorem Buffer.Valid.makeRoom_size (valid : buffer.Valid) {size : Nat}
    (made : buffer.makeRoom size = .ok room) :
    room.size = buffer.size ∨
      room.size = buffer.size + size ∧ buffer.size < buffer.contents.length + size := by
  have ordered := valid.ordered
  have stored := valid.stored
  have width := valid.length_contents
  have behind := valid.writeable_eq
  have spare : buffer.spare = buffer.readIndex := rfl
  unfold Buffer.makeRoom at made
  by_cases enough : buffer.writeable > size
  · rw [if_pos enough] at made
    cases made
    exact .inl rfl
  · rw [if_neg enough] at made
    by_cases moves : buffer.spare + buffer.writeable ≥ size
    · rw [if_pos moves, copyDown_eq (by rw [valid.readable_eq]; omega)] at made
      cases made
      left
      simp only [Buffer.size, List.length_append, List.length_drop]
      rw [length_window (by rw [valid.readable_eq]; omega), valid.readable_eq]
      omega
    · rw [if_neg moves] at made
      cases made
      right
      simp only [Buffer.size, List.length_append, List.length_replicate]
      exact ⟨trivial, by omega⟩

theorem Buffer.append_size {source : Bytes} {size : Int}
    (made : buffer.makeRoom (sizeOfInt size) = .ok room)
    (success : buffer.append (some source) size = .ok filled) : filled.size = room.size := by
  obtain ⟨other, again, success⟩ := bind_eq_ok.mp success
  cases made.symm.trans again
  by_cases fits : sizeOfInt size ≤ source.length ∧
      room.writeIndex + sizeOfInt size ≤ room.data.length
  · rw [if_pos fits] at success
    cases success
    apply length_overwrite
    rw [List.length_take_of_le fits.1]
    exact fits.2
  · rw [if_neg fits] at success
    cases success

theorem Buffer.appendChar_size {char : Byte} (made : buffer.makeRoom 1 = .ok room)
    (success : buffer.appendChar char = .ok filled) : filled.size = room.size := by
  unfold Buffer.appendChar at success
  rw [made, ok_bind] at success
  by_cases fits : room.writeIndex < room.data.length
  · rw [if_pos fits] at success
    cases success
    exact length_overwrite fits
  · rw [if_neg fits] at success
    cases success

/-- An inserted string enlarges the buffer's own by all its bytes. -/
theorem Buffer.appendString_size {string : Bytes} (filledWith : string ≠ [])
    (made : buffer.makeRoom string.length = .ok room)
    (success : buffer.appendString string = .ok filled) :
    filled.size = room.size + string.length := by
  unfold Buffer.appendString at success
  rw [if_neg (by simpa using filledWith), made, ok_bind] at success
  by_cases inside : room.writeIndex ≤ room.data.length
  · rw [if_pos inside] at success
    cases success
    simp only [Buffer.size, List.length_append, List.length_take, List.length_drop]
    omega
  · rw [if_neg inside] at success
    cases success

theorem Buffer.size_overwrite {bytes : Bytes}
    (fits : buffer.writeIndex + bytes.length ≤ buffer.data.length) (position : Nat) :
    ({ buffer with
        data := overwrite buffer.data buffer.writeIndex bytes
        writeIndex := position } : Buffer).size = buffer.size :=
  length_overwrite fits

/-- The part of a read that the string takes. -/
private theorem part_fits (valid : buffer.Valid) (bytes : Bytes) :
    buffer.writeIndex + (bytes.take buffer.writeable).length ≤ buffer.data.length := by
  have stored := valid.stored
  rw [List.length_take, valid.writeable_eq]
  omega

theorem BufferCall.target_valid (valid : buffer.Valid) (call : BufferCall) :
    (call.target buffer).1.Valid ∧ (call.target buffer).1.size = buffer.size := by
  cases call with
  | append _ _ => exact ⟨valid, rfl⟩
  | appendChar _ => exact ⟨valid, rfl⟩
  | appendString _ => exact ⟨valid, rfl⟩
  | socketRead received =>
    cases received with
    | none => exact ⟨valid, rfl⟩
    | some bytes =>
      have fits := part_fits valid bytes
      exact ⟨(valid.store _ fits).1, Buffer.size_overwrite fits _⟩
  | readChar => exact ⟨valid, rfl⟩

/-- A read that runs into the overflow block appends what it finds there. -/
private theorem socketRead_beyond (valid : buffer.Valid) {bytes : Bytes} {count : Int}
    (beyond : ¬ bytes.length ≤ buffer.writeable)
    (success : buffer.socketRead (some bytes) = .ok (count, filled)) :
    (BufferCall.target buffer (.socketRead (some bytes))).1.append
      (some (bytes.drop buffer.writeable)) (intOfSize (bytes.length - buffer.writeable)) =
      .ok filled := by
  have behind := valid.writeable_eq
  have stored := valid.stored
  have full : buffer.writeIndex + (bytes.take buffer.writeable).length = buffer.data.length := by
    rw [List.length_take]
    omega
  simp only [Buffer.socketRead, beyond, ↓reduceIte] at success
  obtain ⟨other, appended, same⟩ := bind_eq_ok.mp success
  cases same
  simp only [BufferCall.target, full]
  exact appended

/-- What a read leaves of the size. -/
private theorem socketRead_size (valid : buffer.Valid) {bytes : Bytes} {count : Int}
    (fits : bytes.length ≤ buffer.writeable + initBufferSize)
    (success : buffer.socketRead (some bytes) = .ok (count, filled)) :
    filled.size = buffer.size ∨
      ∃ room, (BufferCall.target buffer (.socketRead (some bytes))).1.makeRoom
          (bytes.length - buffer.writeable) = .ok room ∧ filled.size = room.size ∧
        filled.contents.length =
          (BufferCall.target buffer (.socketRead (some bytes))).1.contents.length +
            (bytes.length - buffer.writeable) := by
  have behind := valid.writeable_eq
  have stored := valid.stored
  by_cases direct : bytes.length ≤ buffer.writeable
  · simp only [Buffer.socketRead, direct, ↓reduceIte] at success
    cases success
    exact .inl (Buffer.size_overwrite (by omega) _)
  · have appended := socketRead_beyond valid direct success
    have rest : (bytes.drop buffer.writeable).length = bytes.length - buffer.writeable :=
      List.length_drop
    have small : bytes.length - buffer.writeable < 2 ^ 31 := by
      simp only [initBufferSize] at fits
      omega
    have size := sizeOfInt_intOfSize small
    obtain ⟨targetValid, _⟩ := (BufferCall.socketRead (some bytes)).target_valid valid
    obtain ⟨room, made, _⟩ := targetValid.makeRoom (bytes.length - buffer.writeable)
    obtain ⟨_, inside, contents⟩ := targetValid.of_append appended
    have added := congrArg List.length contents
    rw [List.length_append, List.length_take_of_le inside, size] at added
    refine .inr ⟨room, made, Buffer.append_size ?_ appended, added⟩
    rw [size]
    exact made

/-- A call that inserts nothing leaves the size alone or leaves the one that `make_room`
made for what the call then stored. -/
theorem bufferStep_size (valid : ledger.store.Valid) (permitted : call.Permitted ledger)
    (plain : call.InsertsNothing) (success : bufferStep ledger call = .ok next) :
    next.store.size = ledger.store.size ∨
      ∃ room, (call.target ledger.store).1.makeRoom (call.target ledger.store).2 = .ok room ∧
        next.store.size = room.size ∧ next.store.contents.length =
          (call.target ledger.store).1.contents.length + (call.target ledger.store).2 := by
  obtain ⟨targetValid, _⟩ := call.target_valid valid
  obtain ⟨room, made, _⟩ := targetValid.makeRoom (call.target ledger.store).2
  cases call with
  | append source size =>
    obtain ⟨buffer, appended, same⟩ := bind_eq_ok.mp success
    cases same
    cases source with
    | none =>
      cases appended
      exact .inl rfl
    | some source =>
      obtain ⟨_, inside, contents⟩ := valid.of_append appended
      have added := congrArg List.length contents
      rw [List.length_append, List.length_take_of_le inside] at added
      exact .inr ⟨room, made, Buffer.append_size made appended, added⟩
  | appendChar char =>
    obtain ⟨buffer, appended, same⟩ := bind_eq_ok.mp success
    cases same
    obtain ⟨_, again, _, contents⟩ := valid.appendChar char
    cases appended.symm.trans again
    have added := congrArg List.length contents
    rw [List.length_append] at added
    exact .inr ⟨room, made, Buffer.appendChar_size made appended, added⟩
  | appendString string =>
    cases plain string rfl
    cases success
    exact .inl rfl
  | socketRead received =>
    obtain ⟨⟨_, buffer⟩, read, same⟩ := bind_eq_ok.mp success
    cases same
    cases received with
    | none =>
      cases read
      exact .inl rfl
    | some bytes => exact socketRead_size valid (permitted bytes rfl) read
  | readChar =>
    obtain ⟨⟨char, buffer⟩, read, same⟩ := bind_eq_ok.mp success
    cases same
    left
    unfold Buffer.readChar at read
    split at read
    · cases read
      rfl
    · cases read

theorem KeepsRoom.of_insertsNothing (valid : ledger.store.Valid)
    (permitted : call.Permitted ledger) (plain : call.InsertsNothing) : KeepsRoom ledger call := by
  obtain ⟨targetValid, same⟩ := call.target_valid valid
  intro room next made success
  change next.store.size ≤ room.size
  rcases bufferStep_size valid permitted plain success with kept | ⟨other, again, size, _⟩
  · rw [kept, ← same]
    rcases targetValid.makeRoom_size made with equal | ⟨larger, _⟩ <;> omega
  · cases made.symm.trans again
    exact Nat.le_of_eq size

/-- An inserted string is not kept within the room made for it. -/
theorem KeepsRoom.insertsNothing (keeps : KeepsRoom ledger call) (valid : ledger.store.Valid) :
    call.InsertsNothing := by
  rintro string rfl
  by_contra filledWith
  obtain ⟨room, made, _⟩ := valid.makeRoom string.length
  obtain ⟨filled, success, _⟩ := valid.appendString string
  have step : bufferStep ledger (.appendString string) =
      .ok (ledger.record Buffer.contents filled string []) := by
    simp only [bufferStep, success, ok_bind]
    rfl
  have within : filled.size ≤ room.size := keeps room _ made step
  have larger := Buffer.appendString_size filledWith made success
  have positive := List.length_pos_of_ne_nil filledWith
  omega

/-- A call that inserts nothing grows the string to at most twice the new content. -/
theorem bufferStep_economical (valid : ledger.store.Valid) (permitted : call.Permitted ledger)
    (plain : call.InsertsNothing) {limit : Nat}
    (economical : ledger.Economical limit Buffer.size) :
    ∃ next, bufferStep ledger call = .ok next ∧ next.store.Valid ∧
      next.Economical limit Buffer.size := by
  obtain ⟨buffer, consumed, success, kept, _⟩ := bufferStep_moves valid permitted
  refine ⟨_, success, kept, economical.record ?_⟩
  obtain ⟨targetValid, same⟩ := call.target_valid valid
  rcases bufferStep_size valid permitted plain success with equal | ⟨room, made, size, content⟩
  · exact .inl (Nat.le_of_eq equal)
  · change buffer.size = room.size at size
    change buffer.contents.length = _ at content
    rcases targetValid.makeRoom_size made with equal | ⟨larger, tight⟩
    · left
      rw [size, equal, same]
    · right
      omega

end Storage

theorem freshBuffer_economical :
    (freshBuffer initBufferSize).Economical initBufferSize Buffer.size := by
  have size : (Buffer.ofSize initBufferSize).size = initBufferSize := List.length_replicate
  change (Buffer.ofSize initBufferSize).size ≤ _
  rw [size]
  exact Nat.le_max_left ..

/-- The storage is bounded by the content exactly in the runs that insert no string. -/
theorem storageBounded_iff {calls : List BufferCall}
    (permitted : Along bufferStep (fun ledger call => call.Permitted ledger)
      (freshBuffer initBufferSize) calls) :
    StorageBounded calls ↔ ∀ call ∈ calls, call.InsertsNothing := by
  have fresh : (freshBuffer initBufferSize).store.Valid := Buffer.ofSize_valid _
  have advance : ∀ ledger call, ledger.store.Valid → call.Permitted ledger →
      ∃ next, bufferStep ledger call = .ok next ∧ next.store.Valid := by
    intro ledger call valid allowed
    obtain ⟨buffer, _, success, kept, _⟩ := bufferStep_moves valid allowed
    exact ⟨_, success, kept⟩
  constructor
  · intro bounded
    refine (permitted.and bounded.kept).forall_events (fun ledger => ledger.store.Valid)
      ?_ ?_ fresh
    · exact fun ledger call valid both => advance ledger call valid both.1
    · exact fun ledger call valid both => both.2.insertsNothing valid
  · intro plain
    have both := permitted.and (Along.of_forall (fun _ => plain) (freshBuffer initBufferSize))
    constructor
    · refine throughout_of_along (fun ledger =>
        ledger.store.Valid ∧ ledger.Economical initBufferSize Buffer.size) ?_
        (fun _ good => good.2) ⟨fresh, freshBuffer_economical⟩ both
      exact fun ledger call good met => bufferStep_economical good.1 met.1 met.2 good.2
    · refine Along.imp (fun ledger => ledger.store.Valid) ?_ ?_ fresh both
      · intro ledger call next valid met success
        obtain ⟨other, again, kept⟩ := advance ledger call valid met.1
        cases success.symm.trans again
        exact kept
      · exact fun ledger call valid met => .of_insertsNothing valid met.1 met.2

theorem storageBounded_sample :
    StorageBounded sampleCalls ↔ ∀ call ∈ sampleCalls, call.InsertsNothing :=
  storageBounded_iff (.of_forall sampleCalls_permitted _)

/-- The first string inserted into a fresh buffer makes it grow. -/
theorem inserted_string_enlarges :
    ¬ StorageBounded [.appendString (ascii "hello")] := by
  intro bounded
  obtain ⟨final, success, economical⟩ := bounded.bounded _ List.prefix_rfl
  obtain ⟨next, step, rest⟩ := run_cons_ok.mp success
  cases rest
  have valid := Buffer.ofSize_valid initBufferSize
  obtain ⟨filled, appended, same⟩ := bind_eq_ok.mp step
  cases same
  obtain ⟨room, made, _⟩ := valid.makeRoom (ascii "hello").length
  have larger := Buffer.appendString_size (by decide) made appended
  obtain ⟨other, again, _, contents⟩ := valid.appendString (ascii "hello")
  cases appended.symm.trans again
  have size : (Buffer.ofSize initBufferSize).size = initBufferSize := List.length_replicate
  have enough : initBufferSize ≤ room.size := by
    rcases valid.makeRoom_size made with equal | ⟨more, _⟩ <;> omega
  have empty : (Buffer.ofSize initBufferSize).contents.length = 0 := by
    rw [Buffer.ofSize_contents]
    rfl
  have five : filled.contents.length = 5 := by
    rw [contents, Buffer.ofSize_contents]
    rfl
  have limit : filled.size ≤ max initBufferSize
      (2 * max (Buffer.ofSize initBufferSize).contents.length filled.contents.length) := economical
  have length : (ascii "hello").length = 5 := rfl
  have init : initBufferSize = 65536 := rfl
  omega

end Yolanda.App
