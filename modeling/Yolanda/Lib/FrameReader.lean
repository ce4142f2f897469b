import Mathlib.Tactic.Ring
import Yolanda.Foundation.Cells
import Yolanda.Foundation.Loop
import Yolanda.Foundation.Pieces
import Yolanda.Machine

/-! `readn` and `read_message` of the C library: frames of a length, a type and a payload, read
from a stream that comes in pieces. -/

namespace Yolanda.Lib

open Foundation

/-- What ends the loop of `readn` before its last byte. -/
inductive Phase where
  | reading
  | ended
  | failed
  deriving DecidableEq

/-- The variables of `readn`. -/
structure Reading where
  source : Source Byte
  buffer : Cells Byte
  bufferPointer : Nat
  length : Int
  phase : Phase

/-- The loop of `readn`. An attempt that `EINTR` ends is made again. -/
def readnLoop : Loop Reading Fault where
  done state := decide (state.length ≤ 0) || decide (state.phase ≠ .reading)
  body state :=
    match state.source.receive (sizeOfInt state.length) with
    | (.failed, source) => .ok { state with source, phase := .failed }
    | (.interrupted, source) => .ok { state with source }
    | (.items [], source) => .ok { state with source, phase := .ended }
    | (.items result, source) => .ok { state with
        source
        buffer := state.buffer.putAll state.bufferPointer result
        bufferPointer := state.bufferPointer + result.length
        length := state.length - result.length }
  unfinished := .unfinished

/-- What a call of a reader returns, with what it leaves of the stream and in the buffer. -/
structure ReadCall where
  returned : Nat
  source : Source Byte
  buffer : Cells Byte
  deriving DecidableEq

/-- `readn` -/
def readn (source : Source Byte) (buffer : Cells Byte) (size : Nat) : Except Fault ReadCall := do
  let final ← readnLoop.run (source.attempts + 1) ⟨source, buffer, 0, intOfSize size, .reading⟩
  return {
    returned := if final.phase = .failed then sizeOfInt (-1) else sizeOfInt (size - final.length)
    source := final.source
    buffer := final.buffer }

/-- `ntohl`, on the bytes in the order in which they were received. -/
def ntohl (bytes : Bytes) : Nat :=
  bytes.foldl (fun value byte => 256 * value + byte.toNat) 0

/-- `rc < 0 ? -1 : 0` -/
def shortRead (rc : Int) : Nat :=
  if rc < 0 then sizeOfInt (-1) else 0

/-- A field of the header that was read, or what `read_message` returns without it. -/
inductive FieldRead where
  | field (bytes : Bytes) (source : Source Byte)
  | short (returned : Nat) (source : Source Byte)

/-- The part of `read_message` that reads one of the two fields of the header. -/
def readField (source : Source Byte) : Except Fault FieldRead := do
  let call ← readn source (.allocate 4) 4
  if sizeOfInt (intOfSize call.returned) ≠ 4 then
    return .short (shortRead (intOfSize call.returned)) call.source
  else match call.buffer.whole with
    | some bytes => return .field bytes call.source
    | none => throw .memory

/-- The part of `read_message` behind the header. -/
def readRecord (source : Source Byte) (buffer : Cells Byte) (length msgLength : Nat) :
    Except Fault ReadCall :=
  if msgLength > length then return ⟨sizeOfInt (-1), source, buffer⟩
  else do
    let call ← readn source buffer msgLength
    if uintOfInt (intOfSize call.returned) ≠ msgLength then
      return { call with returned := shortRead (intOfSize call.returned) }
    else return { call with returned := sizeOfInt (intOfSize call.returned) }

/-- `read_message` -/
def readMessage (source : Source Byte) (buffer : Cells Byte) (length : Nat) :
    Except Fault ReadCall := do
  match ← readField source with
  | .short returned rest => return ⟨returned, rest, buffer⟩
  | .field msgLength rest =>
    match ← readField rest with
    | .short returned rest => return ⟨returned, rest, buffer⟩
    | .field _ rest => readRecord rest buffer length (ntohl msgLength)

/-- The ways in which a `readn` of less than `2 ^ 31` bytes can return. -/
inductive ReadnOutcome (source : Source Byte) (buffer : Cells Byte) (size : Nat) :
    ReadCall → Prop where
  | complete {rest : Source Byte} (enough : size ≤ source.stream.length)
      (left : rest.stream = source.stream.drop size) (same : rest.fails = source.fails) :
      ReadnOutcome source buffer size ⟨size, rest, buffer.putAll 0 (source.stream.take size)⟩
  | ended (short : source.stream.length < size) (sound : source.fails = false) :
      ReadnOutcome source buffer size
        ⟨source.stream.length, [], buffer.putAll 0 source.stream⟩
  | failed {rest : Source Byte} (short : source.stream.length < size)
      (fault : source.fails = true) :
      ReadnOutcome source buffer size ⟨sizeOfInt (-1), rest, buffer.putAll 0 source.stream⟩

/-- What the loop of `readn` has done with the bytes it has consumed. -/
structure Consumed (source : Source Byte) (buffer : Cells Byte) (size : Nat) (bytes : Bytes)
    (state : Reading) : Prop where
  stored : state.buffer = buffer.putAll 0 bytes
  pointer : state.bufferPointer = bytes.length
  fits : bytes.length ≤ size
  length : state.length = size - bytes.length
  reading : state.phase = .reading →
    source.stream = bytes ++ state.source.stream ∧ state.source.fails = source.fails
  ended : state.phase = .ended → source.stream = bytes ∧ bytes.length < size ∧
    source.fails = false ∧ state.source = []
  failed : state.phase = .failed → source.stream = bytes ∧ bytes.length < size ∧
    source.fails = true

/-- The number of attempts the loop can still make. -/
def Reading.measure (state : Reading) : Nat :=
  state.source.attempts + if state.phase = .reading then 1 else 0

variable {source : Source Byte} {buffer : Cells Byte} {size : Nat}

theorem readnLoop_advance (small : size < 2 ^ 31) {state : Reading}
    (consumed : ∃ bytes, Consumed source buffer size bytes state)
    (running : readnLoop.done state = false) :
    ∃ next, readnLoop.body state = .ok next ∧
      (∃ bytes, Consumed source buffer size bytes next) ∧ next.measure < state.measure := by
  obtain ⟨bytes, consumed⟩ := consumed
  have open' : ¬ state.length ≤ 0 ∧ state.phase = .reading := by
    simpa [readnLoop] using running
  obtain ⟨positive, phase⟩ := open'
  have asked : sizeOfInt state.length = size - bytes.length := by
    have length : state.length = ((size - bytes.length : Nat) : Int) := by
      rw [consumed.length]
      have fits := consumed.fits
      omega
    rw [length]
    exact sizeOfInt_ofNat (by omega)
  have short : bytes.length < size := by
    have length := consumed.length
    omega
  obtain ⟨split, same⟩ := consumed.reading phase
  have receipt := Source.receive_receipt (show 0 < size - bytes.length by omega) state.source
  simp only [readnLoop, asked]
  rcases attempt : state.source.receive (size - bytes.length) with ⟨received, rest⟩
  rw [attempt] at receipt
  dsimp only at receipt ⊢
  cases receipt with
  | ended before after =>
    subst after
    rw [before] at split same
    refine ⟨_, rfl, ⟨bytes, consumed.stored, consumed.pointer, consumed.fits, consumed.length,
      ?_, ?_, ?_⟩, ?_⟩
    · simp
    · intro _
      exact ⟨by simpa [Source.stream] using split, short, same.symm, rfl⟩
    · simp
    · simp [Reading.measure, phase, before]
  | @items items some fits parts kept fewer =>
    obtain ⟨first, more, rfl⟩ := List.exists_cons_of_ne_nil some
    refine ⟨_, rfl, ⟨bytes ++ first :: more, ?_, ?_, ?_, ?_, ?_, ?_, ?_⟩, ?_⟩
    · rw [Cells.putAll_append, Nat.zero_add, ← consumed.stored, ← consumed.pointer]
    · rw [List.length_append, ← consumed.pointer]
    · rw [List.length_append]
      omega
    · rw [List.length_append, Int.natCast_add, ← Int.sub_sub, ← consumed.length]
    · intro _
      exact ⟨by rw [split, parts, List.append_assoc], kept.trans same⟩
    · simp [phase]
    · simp [phase]
    · simp only [Reading.measure, phase, List.length_cons] at fewer ⊢
      omega
  | interrupted kept same' fewer =>
    refine ⟨_, rfl, ⟨bytes, consumed.stored, consumed.pointer, consumed.fits, consumed.length,
      ?_, ?_, ?_⟩, ?_⟩
    · intro _
      exact ⟨by rw [split, kept], same'.trans same⟩
    · simp [phase]
    · simp [phase]
    · simpa [Reading.measure, phase] using fewer
  | failed empty fault fewer =>
    refine ⟨_, rfl, ⟨bytes, consumed.stored, consumed.pointer, consumed.fits, consumed.length,
      ?_, ?_, ?_⟩, ?_⟩
    · simp
    · simp
    · intro _
      exact ⟨by rw [split, empty, List.append_nil], short, same.symm.trans fault⟩
    · simp only [Reading.measure, phase, if_true, reduceCtorEq, if_false]
      omega

/-- A `readn` of less than `2 ^ 31` bytes returns with all of them, or with what comes before
the stream ends or fails. -/
theorem readn_outcome (small : size < 2 ^ 31) (source : Source Byte) (buffer : Cells Byte) :
    ∃ call, readn source buffer size = .ok call ∧ ReadnOutcome source buffer size call := by
  have start : Consumed source buffer size [] ⟨source, buffer, 0, intOfSize size, .reading⟩ := by
    refine ⟨rfl, rfl, Nat.zero_le _, ?_, ?_, ?_, ?_⟩
    · rw [intOfSize_of_lt small]
      exact (Int.sub_zero _).symm
    · exact fun _ => ⟨rfl, rfl⟩
    · simp
    · simp
  obtain ⟨final, result, ⟨bytes, consumed⟩, exits⟩ := Loop.run_total _ Reading.measure
    (fun state => readnLoop_advance small) ⟨[], start⟩ (Nat.le_refl _)
  have returns := bind_of_ok result fun final => (.ok {
    returned := if final.phase = .failed then sizeOfInt (-1) else sizeOfInt (size - final.length)
    source := final.source
    buffer := final.buffer } : Except Fault ReadCall)
  refine ⟨_, returns, ?_⟩
  have number : (size : Int) - final.length = bytes.length := by
    rw [consumed.length]
    omega
  have count : sizeOfInt ((size : Int) - final.length) = bytes.length := by
    rw [number]
    have fits := consumed.fits
    exact sizeOfInt_ofNat (by omega)
  rw [consumed.stored, count]
  cases phase : final.phase with
  | reading =>
    obtain ⟨split, same⟩ := consumed.reading phase
    have whole : bytes.length = size := by
      have length := consumed.length
      have fits := consumed.fits
      have finished : final.length ≤ 0 := by simpa [readnLoop, phase] using exits
      omega
    have taken : source.stream.take size = bytes := by rw [split, ← whole, List.take_left]
    rw [if_neg (by decide), whole, ← taken]
    apply ReadnOutcome.complete
    · rw [split, List.length_append]
      omega
    · rw [split, ← whole, List.drop_left]
    · exact same
  | ended =>
    obtain ⟨rfl, short, sound, rest⟩ := consumed.ended phase
    rw [if_neg (by decide), rest]
    exact .ended short sound
  | failed =>
    obtain ⟨rfl, short, fault⟩ := consumed.failed phase
    rw [if_pos rfl]
    exact .failed short fault

/-- A size that is negative as an `int` makes `readn` return without reading. -/
theorem readn_wraps (large : 2 ^ 31 ≤ size) (small : size < 2 ^ 32) (source : Source Byte)
    (buffer : Cells Byte) : readn source buffer size = .ok ⟨2 ^ 32, source, buffer⟩ := by
  have negative := intOfSize_of_ge large small
  have exits : readnLoop.done ⟨source, buffer, 0, intOfSize size, .reading⟩ = true := by
    simp only [readnLoop, negative, Bool.or_eq_true, decide_eq_true_eq]
    omega
  have rest : (size : Int) - intOfSize size = (2 ^ 32 : Nat) := by
    rw [negative]
    omega
  rw [readn, Loop.run_done exits, ok_bind]
  dsimp only
  rw [if_neg Phase.noConfusion, rest, sizeOfInt_ofNat (by decide)]
  rfl

/-- The ways in which the reading of a field of the header can go on. -/
inductive FieldOutcome (source : Source Byte) : FieldRead → Prop where
  | field {rest : Source Byte} (enough : 4 ≤ source.stream.length)
      (left : rest.stream = source.stream.drop 4) (same : rest.fails = source.fails) :
      FieldOutcome source (.field (source.stream.take 4) rest)
  | ended (short : source.stream.length < 4) (sound : source.fails = false) :
      FieldOutcome source (.short 0 [])
  | failed {rest : Source Byte} (short : source.stream.length < 4)
      (fault : source.fails = true) : FieldOutcome source (.short (sizeOfInt (-1)) rest)

theorem readField_outcome (source : Source Byte) :
    ∃ read, readField source = .ok read ∧ FieldOutcome source read := by
  obtain ⟨call, result, outcome⟩ := readn_outcome (show 4 < 2 ^ 31 by decide) source (.allocate 4)
  rw [readField, result, ok_bind]
  cases outcome with
  | @complete rest enough left same =>
    have four : (source.stream.take 4).length = 4 := by
      rw [List.length_take]
      omega
    dsimp only
    rw [if_neg (by decide), Cells.whole_putAll four]
    exact ⟨_, rfl, .field enough left same⟩
  | ended short sound =>
    have small : source.stream.length < 2 ^ 31 := by omega
    have differs : source.stream.length ≠ 4 := by omega
    dsimp only
    rw [if_pos (by rwa [sizeOfInt_intOfSize small]), intOfSize_of_lt small, shortRead,
      if_neg (by omega)]
    exact ⟨_, rfl, .ended short sound⟩
  | @failed rest short fault =>
    dsimp only
    rw [intOfSize_sizeOfInt_minus, if_pos (by decide), shortRead, if_pos (by decide)]
    exact ⟨_, rfl, .failed short fault⟩

/-- The length that the header in front of a stream announces. -/
def announced (source : Source Byte) : Nat :=
  ntohl (source.stream.take 4)

/-- The ways in which `read_message` can return. -/
inductive MessageOutcome (source : Source Byte) (buffer : Cells Byte) (length : Nat) :
    ReadCall → Prop where
  | cut (short : source.stream.length < 8) (sound : source.fails = false) :
      MessageOutcome source buffer length ⟨0, [], buffer⟩
  | broken {rest : Source Byte} (short : source.stream.length < 8) (fault : source.fails = true) :
      MessageOutcome source buffer length ⟨sizeOfInt (-1), rest, buffer⟩
  | refused {rest : Source Byte} (header : 8 ≤ source.stream.length)
      (large : length < announced source) (left : rest.stream = source.stream.drop 8)
      (same : rest.fails = source.fails) :
      MessageOutcome source buffer length ⟨sizeOfInt (-1), rest, buffer⟩
  | wrapped {rest : Source Byte} (header : 8 ≤ source.stream.length)
      (fits : announced source ≤ length) (wide : 2 ^ 31 ≤ announced source) :
      MessageOutcome source buffer length ⟨0, rest, buffer⟩
  | complete {rest : Source Byte} (fits : announced source ≤ length)
      (small : announced source < 2 ^ 31) (enough : 8 + announced source ≤ source.stream.length)
      (left : rest.stream = source.stream.drop (8 + announced source))
      (same : rest.fails = source.fails) :
      MessageOutcome source buffer length ⟨announced source, rest,
        buffer.putAll 0 ((source.stream.drop 8).take (announced source))⟩
  | ended (header : 8 ≤ source.stream.length) (fits : announced source ≤ length)
      (small : announced source < 2 ^ 31) (short : source.stream.length < 8 + announced source)
      (sound : source.fails = false) :
      MessageOutcome source buffer length ⟨0, [], buffer.putAll 0 (source.stream.drop 8)⟩
  | failed {rest : Source Byte} (header : 8 ≤ source.stream.length)
      (fits : announced source ≤ length) (small : announced source < 2 ^ 31)
      (short : source.stream.length < 8 + announced source) (fault : source.fails = true) :
      MessageOutcome source buffer length
        ⟨sizeOfInt (-1), rest, buffer.putAll 0 (source.stream.drop 8)⟩

theorem MessageOutcome.returned_cases {length : Nat} {call : ReadCall}
    (outcome : MessageOutcome source buffer length call) :
    call.returned = 0 ∨ call.returned = sizeOfInt (-1) ∨
      (0 < call.returned ∧ call.returned < 2 ^ 31) := by
  cases outcome with
  | cut => exact .inl rfl
  | broken => exact .inr (.inl rfl)
  | refused => exact .inr (.inl rfl)
  | wrapped => exact .inl rfl
  | complete _ small =>
    rcases Nat.eq_zero_or_pos (announced source) with zero | positive
    · exact .inl zero
    · exact .inr (.inr ⟨positive, small⟩)
  | ended => exact .inl rfl
  | failed => exact .inr (.inl rfl)

theorem foldl_lt (bytes : Bytes) (start : Nat) :
    bytes.foldl (fun value byte => 256 * value + byte.toNat) start < (start + 1) * 256 ^ bytes.length := by
  induction bytes generalizing start with
  | nil => simp
  | cons byte bytes ih =>
    have below := byte.toNat_lt
    calc _ < (256 * start + byte.toNat + 1) * 256 ^ bytes.length := ih _
      _ ≤ (start + 1) * 256 * 256 ^ bytes.length := Nat.mul_le_mul_right _ (by omega)
      _ = (start + 1) * 256 ^ (byte :: bytes).length := by rw [List.length_cons]; ring

theorem announced_lt (source : Source Byte) : announced source < 2 ^ 32 := by
  have four : (source.stream.take 4).length ≤ 4 := List.length_take_le ..
  calc announced source < (0 + 1) * 256 ^ (source.stream.take 4).length := foldl_lt _ 0
    _ ≤ 1 * 256 ^ 4 := Nat.mul_le_mul_left 1 (Nat.pow_le_pow_right (by decide) four)
    _ = 2 ^ 32 := by norm_num

theorem readRecord_outcome {rest : Source Byte} (header : 8 ≤ source.stream.length)
    (left : rest.stream = source.stream.drop 8) (same : rest.fails = source.fails)
    (buffer : Cells Byte) (length : Nat) :
    ∃ call, readRecord rest buffer length (announced source) = .ok call ∧
      MessageOutcome source buffer length call := by
  unfold readRecord
  split
  case isTrue large => exact ⟨_, rfl, .refused header large left same⟩
  case isFalse fits =>
    rw [Nat.not_lt] at fits
    have behind : rest.stream.length = source.stream.length - 8 := by
      rw [left, List.length_drop]
    rcases Nat.lt_or_ge (announced source) (2 ^ 31) with small | wide
    · obtain ⟨call, result, outcome⟩ := readn_outcome small rest buffer
      rw [result, ok_bind]
      cases outcome with
      | @complete last enough left' same' =>
        dsimp only
        rw [intOfSize_of_lt small, uintOfInt_ofNat (by omega), if_neg (not_not_intro rfl),
          sizeOfInt_ofNat (by omega), left]
        refine ⟨_, rfl, .complete fits small (by omega) ?_ (same'.trans same)⟩
        rw [left', left, List.drop_drop]
      | ended short sound =>
        dsimp only
        rw [intOfSize_of_lt (by omega), uintOfInt_ofNat (by omega), if_pos (by omega), shortRead,
          if_neg (by omega), left]
        exact ⟨_, rfl, .ended header fits small (by omega) (same.symm.trans sound)⟩
      | @failed last short fault =>
        have differs : uintOfInt (-1) ≠ announced source := by
          have value : uintOfInt (-1) = 2 ^ 32 - 1 := by decide
          omega
        dsimp only
        rw [intOfSize_sizeOfInt_minus, if_pos differs, shortRead, if_pos (by decide), left]
        exact ⟨_, rfl, .failed header fits small (by omega) (same.symm.trans fault)⟩
    · have differs : uintOfInt (intOfSize (2 ^ 32)) ≠ announced source := by
        have value : uintOfInt (intOfSize (2 ^ 32)) = 0 := by decide
        omega
      rw [readn_wraps wide (announced_lt source), ok_bind]
      dsimp only
      rw [if_pos differs, shortRead, if_neg (by decide)]
      exact ⟨_, rfl, .wrapped header fits wide⟩

theorem readMessage_outcome (source : Source Byte) (buffer : Cells Byte) (length : Nat) :
    ∃ call, readMessage source buffer length = .ok call ∧
      MessageOutcome source buffer length call := by
  obtain ⟨first, result, outcome⟩ := readField_outcome source
  rw [readMessage, result, ok_bind]
  cases outcome with
  | ended short sound => exact ⟨_, rfl, .cut (by omega) sound⟩
  | failed short fault => exact ⟨_, rfl, .broken (by omega) fault⟩
  | @field middle enough left same =>
    obtain ⟨second, result, outcome⟩ := readField_outcome middle
    have length_left : middle.stream.length = source.stream.length - 4 := by
      rw [left, List.length_drop]
    dsimp only
    rw [result, ok_bind]
    cases outcome with
    | ended short sound => exact ⟨_, rfl, .cut (by omega) (same.symm.trans sound)⟩
    | failed short fault => exact ⟨_, rfl, .broken (by omega) (same.symm.trans fault)⟩
    | @field rest more left' same' =>
      have behind : rest.stream = source.stream.drop 8 := by rw [left', left, List.drop_drop]
      exact readRecord_outcome (by omega) behind (same'.trans same) buffer length

end Yolanda.Lib
