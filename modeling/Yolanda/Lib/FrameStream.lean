import Yolanda.Lib.FrameReader

/-! Streams of frames, as the client of chapter 16 writes them and `read_message` reads them. -/

namespace Yolanda.Lib

open Foundation

/-- `htonl`, as the bytes that are sent. -/
def htonl (value : Nat) : Bytes :=
  [.ofNat (value / 2 ^ 24), .ofNat (value / 2 ^ 16), .ofNat (value / 2 ^ 8), .ofNat value]

theorem ntohl_htonl {value : Nat} (small : value < 2 ^ 32) : ntohl (htonl value) = value := by
  simp only [htonl, ntohl, List.foldl_cons, List.foldl_nil, UInt8.toNat_ofNat']
  omega

/-- The message of the client. The client does not convert the type. -/
structure Message where
  messageType : Bytes
  data : Bytes
  typeSize : messageType.length = 4
  dataSize : data.length < 2 ^ 32

/-- The bytes that the client sends of a message. -/
def Message.encode (message : Message) : Bytes :=
  htonl message.data.length ++ message.messageType ++ message.data

theorem Message.encode_eq {size : Nat} (message : Message) (same : message.data.length = size) :
    message.encode = htonl size ++ message.messageType ++ message.data := by
  rw [← same]
  rfl

/-- Successive calls of `read_message` return the messages, and then the end of the stream. -/
def Delivers (length : Nat) : List Message → Source Byte → Cells Byte → Prop
  | [], source, buffer => ∃ rest, readMessage source buffer length = .ok ⟨0, rest, buffer⟩
  | message :: messages, source, buffer => ∃ rest,
      readMessage source buffer length =
        .ok ⟨message.data.length, rest, buffer.withFront message.data⟩ ∧
      Delivers length messages rest (buffer.withFront message.data)

/-- A header that announces more than fits is refused, and the buffer left alone. -/
def RefusesLong (length : Nat) : Prop :=
  ∀ (size : Nat) (messageType more : Bytes) (source : Source Byte) (buffer : Cells Byte),
    length < size → size < 2 ^ 32 → messageType.length = 4 →
    source.stream = htonl size ++ messageType ++ more →
    ∃ rest, readMessage source buffer length = .ok ⟨sizeOfInt (-1), rest, buffer⟩

section Header

variable {source : Source Byte} {buffer : Cells Byte} {size length : Nat}
variable {messageType more : Bytes}

theorem announced_header (small : size < 2 ^ 32)
    (sent : source.stream = htonl size ++ messageType ++ more) : announced source = size := by
  have front : (htonl size ++ (messageType ++ more)).take 4 = htonl size := List.take_left' rfl
  rw [announced, sent, List.append_assoc, front, ntohl_htonl small]

theorem length_header (typeSize : messageType.length = 4)
    (sent : source.stream = htonl size ++ messageType ++ more) :
    source.stream.length = 8 + more.length := by
  rw [sent, List.length_append, List.length_append, typeSize]
  rfl

theorem drop_header (typeSize : messageType.length = 4)
    (sent : source.stream = htonl size ++ messageType ++ more) : source.stream.drop 8 = more := by
  have header : (htonl size ++ messageType).length = 8 := by
    rw [List.length_append, typeSize]
    rfl
  rw [sent, List.drop_left' header]

theorem refusesLong (length : Nat) : RefusesLong length := by
  intro size messageType more source buffer large small typeSize sent
  have announces := announced_header small sent
  have total := length_header typeSize sent
  obtain ⟨call, result, outcome⟩ := readMessage_outcome source buffer length
  rw [result]
  cases outcome with
  | refused => exact ⟨_, rfl⟩
  | cut | broken | wrapped | complete | ended | failed => omega

end Header

section Messages

variable {source : Source Byte} {buffer : Cells Byte} {length : Nat} {message : Message}
variable {more : Bytes}

/-- A message of less than `2 ^ 31` bytes is read as a whole, with what follows it left. -/
theorem readMessage_message (sent : source.stream = message.encode ++ more)
    (fits : message.data.length ≤ length) (room : length ≤ buffer.cells.length)
    (small : message.data.length < 2 ^ 31) :
    ∃ rest, readMessage source buffer length =
        .ok ⟨message.data.length, rest, buffer.withFront message.data⟩ ∧
      rest.stream = more ∧ rest.fails = source.fails := by
  rw [Message.encode, List.append_assoc] at sent
  have announces := announced_header message.dataSize sent
  have total := length_header message.typeSize sent
  have behind := drop_header message.typeSize sent
  rw [List.length_append] at total
  obtain ⟨call, result, outcome⟩ := readMessage_outcome source buffer length
  rw [result]
  cases outcome with
  | @complete rest _ _ _ left same =>
    have payload : (source.stream.drop 8).take (announced source) = message.data := by
      rw [behind, announces, List.take_left]
    have last : source.stream.drop (8 + announced source) = more := by
      rw [← List.drop_drop, behind, announces, List.drop_left]
    rw [payload, announces, Cells.putAll_zero (by omega)]
    exact ⟨rest, rfl, left.trans last, same⟩
  | cut | broken | refused | wrapped | ended | failed => omega

/-- A longer one is taken for the end of the stream. -/
theorem readMessage_wide (sent : source.stream = message.encode ++ more)
    (fits : message.data.length ≤ length) (wide : 2 ^ 31 ≤ message.data.length)
    (buffer : Cells Byte) : ∃ rest, readMessage source buffer length = .ok ⟨0, rest, buffer⟩ := by
  rw [Message.encode, List.append_assoc] at sent
  have announces := announced_header message.dataSize sent
  have total := length_header message.typeSize sent
  obtain ⟨call, result, outcome⟩ := readMessage_outcome source buffer length
  rw [result]
  cases outcome with
  | wrapped => exact ⟨_, rfl⟩
  | cut | broken | refused | complete | ended | failed => omega

theorem readMessage_end (sent : source.stream = []) (sound : source.fails = false)
    (buffer : Cells Byte) (length : Nat) :
    ∃ rest, readMessage source buffer length = .ok ⟨0, rest, buffer⟩ := by
  obtain ⟨call, result, outcome⟩ := readMessage_outcome source buffer length
  have empty : source.stream.length = 0 := by rw [sent]; rfl
  rw [result]
  cases outcome with
  | cut => exact ⟨_, rfl⟩
  | broken _ fault =>
    rw [sound] at fault
    cases fault
  | refused | wrapped | complete | ended | failed => omega

end Messages

theorem htonl_ntohl {bytes : Bytes} (size : bytes.length = 4) : htonl (ntohl bytes) = bytes := by
  obtain ⟨first, second, third, fourth, rfl⟩ := List.length_eq_four.mp size
  have one := first.toNat_lt
  have two := second.toNat_lt
  have three := third.toNat_lt
  have four := fourth.toNat_lt
  simp only [ntohl, htonl, List.foldl_cons, List.foldl_nil, List.cons.injEq, ← UInt8.toNat_inj,
    UInt8.toNat_ofNat', and_true]
  omega

/-- The message in front of a stream is determined by the stream. -/
theorem encode_unique {message other : Message} {rest behind : Bytes}
    (same : message.encode ++ rest = other.encode ++ behind) :
    message.data.length = other.data.length ∧ rest = behind := by
  have sizes := congrArg (List.take 4) same
  simp only [Message.encode, List.append_assoc] at sizes
  have first : (htonl message.data.length ++ (message.messageType ++ (message.data ++ rest))).take 4 =
      htonl message.data.length := List.take_left' rfl
  have second : (htonl other.data.length ++ (other.messageType ++ (other.data ++ behind))).take 4 =
      htonl other.data.length := List.take_left' rfl
  rw [first, second] at sizes
  have equal : message.data.length = other.data.length := by
    rw [← ntohl_htonl message.dataSize, sizes, ntohl_htonl other.dataSize]
  have lengths : message.encode.length = other.encode.length := by
    simp only [Message.encode, List.length_append, message.typeSize, other.typeSize, equal, htonl,
      List.length_cons]
  exact ⟨equal, (List.append_inj same lengths).2⟩

/-- A stream with a whole frame in front is an encoded message and what follows it. -/
theorem exists_message {source : Source Byte}
    (enough : 8 + announced source ≤ source.stream.length) : ∃ message : Message,
      message.data.length = announced source ∧
      source.stream = message.encode ++ source.stream.drop (8 + announced source) := by
  have small := announced_lt source
  have sizes : (source.stream.take 4).length = 4 ∧ ((source.stream.drop 4).take 4).length = 4 ∧
      ((source.stream.drop 8).take (announced source)).length = announced source := by
    simp only [List.length_take, List.length_drop]
    omega
  have rejoin : source.stream = source.stream.take 4 ++ ((source.stream.drop 4).take 4 ++
      ((source.stream.drop 8).take (announced source) ++
        source.stream.drop (8 + announced source))) := by
    rw [← List.drop_drop, List.take_append_drop, show 8 = 4 + 4 from rfl, ← List.drop_drop,
      List.take_append_drop, List.take_append_drop]
  refine ⟨⟨(source.stream.drop 4).take 4, (source.stream.drop 8).take (announced source),
    sizes.2.1, sizes.2.2.trans_lt small⟩, sizes.2.2, ?_⟩
  have front : htonl (announced source) = source.stream.take 4 := htonl_ntohl sizes.1
  rw [Message.encode_eq _ sizes.2.2, front, List.append_assoc, List.append_assoc]
  exact rejoin


/-- Messages of 1 to `length` bytes get through every fragmentation of their stream exactly when
the number of bytes of each is an `int`. -/
theorem frames_delivered_iff {length : Nat} {messages : List Message} {source : Source Byte}
    {buffer : Cells Byte}
    (bounds : ∀ message ∈ messages, 1 ≤ message.data.length ∧ message.data.length ≤ length)
    (room : length ≤ buffer.cells.length) (sound : source.fails = false)
    (sent : source.stream = messages.flatMap Message.encode) :
    Delivers length messages source buffer ∧ RefusesLong length ↔
      ∀ message ∈ messages, message.data.length < 2 ^ 31 := by
  rw [and_iff_left (refusesLong length)]
  induction messages generalizing source buffer with
  | nil =>
    have ends := readMessage_end sent sound buffer length
    exact ⟨fun _ message member => absurd member List.not_mem_nil, fun _ => ends⟩
  | cons message messages ih =>
    rw [List.forall_mem_cons] at bounds ⊢
    obtain ⟨⟨some, fits⟩, bounds⟩ := bounds
    rw [List.flatMap_cons] at sent
    rcases Nat.lt_or_ge message.data.length (2 ^ 31) with small | wide
    · obtain ⟨rest, result, left, same⟩ := readMessage_message sent fits room small
      have later := ih bounds (room.trans_eq (Cells.length_withFront (fits.trans room)).symm)
        (same.trans sound) left
      rw [and_iff_right small, ← later, Delivers, result]
      constructor
      · rintro ⟨other, equal, delivers⟩
        cases equal
        exact delivers
      · exact fun delivers => ⟨rest, rfl, delivers⟩
    · constructor
      · rintro ⟨rest, result, _⟩
        obtain ⟨other, ends⟩ := readMessage_wide sent fits wide buffer
        rw [ends] at result
        have zero : 0 = message.data.length := congrArg ReadCall.returned (Except.ok.inj result)
        omega
      · intro small
        exact absurd small.1 (Nat.not_lt.mpr wide)

/-- A message of two bytes. -/
def greeting : Message := ⟨[1, 0, 0, 0], [104, 105], rfl, by decide⟩

/-- Its stream, cut inside of the header and inside of the payload. -/
def cutGreeting : Source Byte :=
  [.piece 0 [0], .interrupted, .piece 0 [2, 1, 0, 0], .piece 0 [104], .interrupted, .piece 105 []]

theorem greeting_delivered :
    Delivers 8 [greeting] cutGreeting (.allocate 8) ∧ RefusesLong 8 := by
  have bounds : ∀ message ∈ [greeting], 1 ≤ message.data.length ∧ message.data.length ≤ 8 := by
    decide
  have small : ∀ message ∈ [greeting], message.data.length < 2 ^ 31 := by decide
  have room : 8 ≤ (Cells.allocate 8 : Cells Byte).cells.length := by decide
  exact (frames_delivered_iff bounds room rfl rfl).mpr small

/-- A message whose number of bytes is no `int`. -/
def wideMessage : Message where
  messageType := [1, 0, 0, 0]
  data := List.replicate (2 ^ 31) 0
  typeSize := rfl
  dataSize := by
    rw [List.length_replicate]
    exact Nat.pow_lt_pow_right (by decide) (by decide)

/-- Its stream comes in one piece, and the buffer has room for it. -/
theorem wide_message_lost : wideMessage.data.length = 2 ^ 31 ∧
    ¬ Delivers (2 ^ 31) [wideMessage] (Source.putBack wideMessage.encode [])
      (.allocate (2 ^ 31)) := by
  have size : wideMessage.data.length = 2 ^ 31 := List.length_replicate
  refine ⟨size, ?_⟩
  rintro ⟨rest, result, _⟩
  have sent := Source.stream_putBack wideMessage.encode []
  obtain ⟨other, ends⟩ := readMessage_wide sent size.le size.ge (.allocate (2 ^ 31))
  rw [ends] at result
  have zero : 0 = wideMessage.data.length := congrArg ReadCall.returned (Except.ok.inj result)
  omega

/-- The peer has closed the stream, with nothing before that. -/
def ClosedCleanly (source : Source Byte) : Prop :=
  source.stream = [] ∧ source.fails = false

/-- The stream is closed, or breaks off with an error, or starts with a frame that is refused or
has a payload that is neither empty nor cut off by the end of the stream. -/
def Distinguished (source : Source Byte) (length : Nat) : Prop :=
  ClosedCleanly source ∨ (source.stream.length < 8 ∧ source.fails = true) ∨
    (8 ≤ source.stream.length ∧ (length < announced source ∨
      (0 < announced source ∧ announced source < 2 ^ 31 ∧
        (8 + announced source ≤ source.stream.length ∨ source.fails = true))))

/-- `read_message` returns 0 at a clean end of the stream only, exactly for such streams. -/
theorem returned_truthful_iff (source : Source Byte) (buffer : Cells Byte) (length : Nat) :
    (∀ call, readMessage source buffer length = .ok call → call.returned = 0 →
      ClosedCleanly source) ↔ Distinguished source length := by
  obtain ⟨call, result, outcome⟩ := readMessage_outcome source buffer length
  have once : (∀ other, readMessage source buffer length = .ok other → other.returned = 0 →
      ClosedCleanly source) ↔ (call.returned = 0 → ClosedCleanly source) := by
    constructor
    · exact fun truthful => truthful call result
    · intro truthful other again
      cases result.symm.trans again
      exact truthful
  rw [once]
  unfold Distinguished
  have nonzero : sizeOfInt (-1) ≠ 0 := by decide
  cases outcome with
  | cut short sound =>
    constructor
    · exact fun truthful => .inl (truthful rfl)
    · rintro (closed | ⟨_, fault⟩ | ⟨header, _⟩)
      · exact fun _ => closed
      · rw [sound] at fault
        cases fault
      · omega
  | broken short fault => exact ⟨fun _ => .inr (.inl ⟨short, fault⟩), fun _ zero => absurd zero nonzero⟩
  | refused header large =>
    exact ⟨fun _ => .inr (.inr ⟨header, .inl large⟩), fun _ zero => absurd zero nonzero⟩
  | wrapped header fits wide =>
    constructor
    · exact fun truthful => .inl (truthful rfl)
    · rintro (closed | ⟨short, _⟩ | ⟨_, large | ⟨_, small, _⟩⟩) <;> first | exact fun _ => closed | omega
  | complete fits small enough =>
    constructor
    · intro truthful
      by_cases empty : announced source = 0
      · exact .inl (truthful empty)
      · exact .inr (.inr ⟨by omega, .inr ⟨Nat.pos_of_ne_zero empty, small, .inl enough⟩⟩)
    · rintro (closed | ⟨short, _⟩ | ⟨_, large | ⟨positive, _⟩⟩) zero
      · exact closed
      · omega
      · omega
      · exact absurd zero positive.ne'
  | ended header fits small short sound =>
    constructor
    · exact fun truthful => .inl (truthful rfl)
    · rintro (closed | ⟨cut, _⟩ | ⟨_, large | ⟨_, _, enough | fault⟩⟩)
      · exact fun _ => closed
      · omega
      · omega
      · omega
      · rw [sound] at fault
        cases fault
  | failed header fits small short fault =>
    constructor
    · intro _
      by_cases empty : announced source = 0
      · omega
      · exact .inr (.inr ⟨header, .inr ⟨Nat.pos_of_ne_zero empty, small, .inr fault⟩⟩)
    · exact fun _ zero => absurd zero nonzero

/-- A frame without a payload, in front of another one. -/
def emptyFrame : Source Byte :=
  [.piece 0 [0, 0, 0, 1, 0, 0, 0], .piece 0 [0, 0, 2, 1, 0, 0, 0, 104, 105]]

/-- A stream that ends inside of its first header. -/
def cutHeader : Source Byte := [.piece 0 [0, 0], .interrupted]

/-- `read_message` returns 0 for both of them, with the stream of the first still going on. -/
theorem end_of_stream_confused :
    readMessage emptyFrame (.allocate 128) 128 =
      .ok ⟨0, [.piece 0 [0, 0, 2, 1, 0, 0, 0, 104, 105]], .allocate 128⟩ ∧
    ¬ ClosedCleanly emptyFrame ∧
    readMessage cutHeader (.allocate 128) 128 = .ok ⟨0, [], .allocate 128⟩ ∧
    ¬ ClosedCleanly cutHeader := by
  refine ⟨by decide +kernel, ?_, by decide +kernel, ?_⟩
  · rintro ⟨empty, _⟩
    cases empty
  · rintro ⟨empty, _⟩
    cases empty

end Yolanda.Lib
