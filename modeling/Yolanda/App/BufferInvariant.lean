import Yolanda.App.Buffer

/-! A valid buffer is a queue of bytes: each operation keeps the indices in order
and appends to, or consumes from, the bytes between them. -/

namespace Yolanda.App

open Foundation

structure Buffer.Valid (buffer : Buffer) : Prop where
  ordered : buffer.readIndex ≤ buffer.writeIndex
  stored : buffer.writeIndex ≤ buffer.data.length

/-- The readable bytes. -/
def Buffer.contents (buffer : Buffer) : Bytes :=
  window buffer.data buffer.readIndex buffer.writeIndex

/-- The bytes behind the write position, left over from earlier contents. -/
def Buffer.stale (buffer : Buffer) : Bytes :=
  buffer.data.drop buffer.writeIndex

/-- The bytes that a read of `bytes` leaves behind the write position. A read that runs
into the overflow block fills the string first, and the readable bytes then move to the
front over what was there. -/
def Buffer.staleAfter (buffer : Buffer) (bytes : Bytes) : Bytes :=
  if bytes.length ≤ buffer.writeable then buffer.stale.drop bytes.length
  else (buffer.data.take buffer.writeIndex ++ bytes.take buffer.writeable).drop
    (buffer.contents.length + bytes.length)

theorem Buffer.ofSize_valid (size : Nat) : (Buffer.ofSize size).Valid :=
  ⟨Nat.le_refl _, Nat.zero_le _⟩

theorem Buffer.ofSize_contents (size : Nat) : (Buffer.ofSize size).contents = [] :=
  window_empty _ _

theorem Buffer.new_valid : Buffer.new.Valid := Buffer.ofSize_valid _

@[simp] theorem Buffer.new_contents : Buffer.new.contents = [] := Buffer.ofSize_contents _

namespace Buffer.Valid

variable {buffer : Buffer}

theorem length_contents (valid : buffer.Valid) :
    buffer.contents.length = buffer.writeIndex - buffer.readIndex :=
  length_window valid.stored

theorem readable_eq (valid : buffer.Valid) : buffer.readable = buffer.contents.length := by
  rw [valid.length_contents]
  exact sizeSub_of_le valid.ordered

theorem writeable_eq (valid : buffer.Valid) :
    buffer.writeable = buffer.data.length - buffer.writeIndex :=
  sizeSub_of_le valid.stored

/-- What the parser sees from the read position on: the readable bytes, then stale ones. -/
theorem unread_eq (valid : buffer.Valid) :
    buffer.data.drop buffer.readIndex = buffer.contents ++ buffer.stale :=
  drop_eq_window_append valid.ordered valid.stored

/-- Consuming readable bytes by moving the read position. -/
theorem advance (valid : buffer.Valid) (count : Nat) (inside : count ≤ buffer.contents.length) :
    ({ buffer with readIndex := buffer.readIndex + count } : Buffer).Valid ∧
      ({ buffer with readIndex := buffer.readIndex + count } : Buffer).contents =
        buffer.contents.drop count := by
  rw [valid.length_contents] at inside
  refine ⟨⟨?_, valid.stored⟩, ?_⟩
  · change buffer.readIndex + count ≤ buffer.writeIndex
    have := valid.ordered
    omega
  · exact (window_drop _ _ _ _).symm

/-- Room for `size` more bytes is made without touching the readable ones. -/
theorem makeRoom (valid : buffer.Valid) (size : Nat) :
    ∃ room, buffer.makeRoom size = .ok room ∧ room.Valid ∧
      room.contents = buffer.contents ∧ room.writeIndex + size ≤ room.data.length := by
  have ordered := valid.ordered
  have stored := valid.stored
  have room := valid.writeable_eq
  unfold Buffer.makeRoom
  by_cases enough : buffer.writeable > size
  · exact ⟨buffer, by simp [enough], valid, rfl, by omega⟩
  · simp only [enough, ↓reduceIte]
    by_cases moves : buffer.spare + buffer.writeable ≥ size
    · have readable := valid.readable_eq
      have width := valid.length_contents
      have moved : copyDown buffer.data buffer.readIndex buffer.readable =
          some (buffer.contents ++ buffer.data.drop buffer.readable) := by
        rw [copyDown_eq (by omega), show buffer.readIndex + buffer.readable = buffer.writeIndex by
          omega]
        rfl
      simp only [moves, ↓reduceIte, moved]
      refine ⟨_, rfl, ⟨Nat.zero_le _, ?_⟩, ?_, ?_⟩
      · simp only [List.length_append, List.length_drop]
        omega
      · simp only [Buffer.contents, window, List.drop_zero] at readable ⊢
        rw [readable, List.take_left]
      · have spare : buffer.spare = buffer.readIndex := rfl
        simp only [List.length_append, List.length_drop]
        omega
    · simp only [moves, ↓reduceIte]
      refine ⟨_, rfl, ⟨ordered, ?_⟩, window_extend _ _ stored, ?_⟩
      · simp only [List.length_append, List.length_replicate]
        omega
      · simp only [List.length_append, List.length_replicate]
        omega

/-- Storing bytes at the write position of a buffer with room for them. -/
theorem store (valid : buffer.Valid) (bytes : Bytes)
    (fits : buffer.writeIndex + bytes.length ≤ buffer.data.length) :
    ({ buffer with
        data := overwrite buffer.data buffer.writeIndex bytes
        writeIndex := buffer.writeIndex + bytes.length } : Buffer).Valid ∧
      ({ buffer with
        data := overwrite buffer.data buffer.writeIndex bytes
        writeIndex := buffer.writeIndex + bytes.length } : Buffer).contents =
        buffer.contents ++ bytes := by
  have ordered := valid.ordered
  refine ⟨⟨?_, ?_⟩, window_overwrite valid.ordered valid.stored⟩
  · change buffer.readIndex ≤ buffer.writeIndex + bytes.length
    omega
  · simpa only [length_overwrite fits] using fits

/-- The first `count` bytes of the block are appended. -/
theorem appendPart (valid : buffer.Valid) (source : Bytes) {count : Nat}
    (inside : count ≤ source.length) (small : count < 2 ^ 31) :
    ∃ filled, buffer.append (some source) (intOfSize count) = .ok filled ∧
      filled.Valid ∧ filled.contents = buffer.contents ++ source.take count := by
  obtain ⟨room, success, roomValid, same, fits⟩ := valid.makeRoom count
  have size := sizeOfInt_intOfSize small
  have width : (source.take count).length = count := List.length_take_of_le inside
  obtain ⟨filledValid, filled⟩ := roomValid.store (source.take count) (by rw [width]; exact fits)
  rw [width] at filledValid filled
  refine ⟨_, ?_, filledValid, by rw [filled, same]⟩
  unfold Buffer.append
  rw [size, success]
  simp only [bind, Except.bind, inside, fits, and_self, ↓reduceIte, pure, Except.pure]

theorem append (valid : buffer.Valid) (bytes : Bytes) (small : bytes.length < 2 ^ 31) :
    ∃ filled, buffer.append (some bytes) (intOfSize bytes.length) = .ok filled ∧
      filled.Valid ∧ filled.contents = buffer.contents ++ bytes := by
  have whole := valid.appendPart bytes (Nat.le_refl _) small
  rwa [List.take_length] at whole

/-- Whatever the size, an append that returns has stored a first part of the block. -/
theorem of_append (valid : buffer.Valid) {source : Bytes} {size : Int} {filled : Buffer}
    (success : buffer.append (some source) size = .ok filled) :
    filled.Valid ∧ sizeOfInt size ≤ source.length ∧
      filled.contents = buffer.contents ++ source.take (sizeOfInt size) := by
  obtain ⟨room, _, roomValid, same, fits⟩ := valid.makeRoom (sizeOfInt size)
  obtain ⟨other, made, next⟩ := bind_eq_ok.mp success
  have equal : other = room := by
    cases made.symm.trans ‹buffer.makeRoom (sizeOfInt size) = .ok room›
    rfl
  subst equal
  by_cases inside : sizeOfInt size ≤ source.length
  · have width : (source.take (sizeOfInt size)).length = sizeOfInt size :=
      List.length_take_of_le inside
    obtain ⟨stored, contents⟩ := roomValid.store (source.take (sizeOfInt size)) (by
      rw [width]
      exact fits)
    rw [width] at stored contents
    rw [if_pos ⟨inside, fits⟩] at next
    cases next
    exact ⟨stored, inside, by rw [contents, same]⟩
  · rw [if_neg fun both => inside both.1] at next
    cases next

/-- An append returns when its size, taken back as `size_t`, stays within the block. -/
theorem append_returns (valid : buffer.Valid) {source : Bytes} {size : Int}
    (inside : sizeOfInt size ≤ source.length) :
    ∃ filled, buffer.append (some source) size = .ok filled := by
  obtain ⟨room, success, _, _, fits⟩ := valid.makeRoom (sizeOfInt size)
  exact ⟨_, bind_eq_ok.mpr ⟨room, success, if_pos ⟨inside, fits⟩⟩⟩

/-- Below `2 ^ 32` bytes an append that returns has stored all of them. -/
theorem of_append_all (valid : buffer.Valid) {bytes : Bytes} {filled : Buffer}
    (small : bytes.length < 2 ^ 32)
    (success : buffer.append (some bytes) (intOfSize bytes.length) = .ok filled) :
    filled.Valid ∧ filled.contents = buffer.contents ++ bytes := by
  obtain ⟨filledValid, inside, contents⟩ := valid.of_append success
  have size := sizeOfInt_intOfSize_of_le small inside
  rw [size, List.take_length] at contents
  exact ⟨filledValid, contents⟩

theorem appendChar (valid : buffer.Valid) (char : Byte) :
    ∃ filled, buffer.appendChar char = .ok filled ∧
      filled.Valid ∧ filled.contents = buffer.contents ++ [char] := by
  obtain ⟨room, success, roomValid, same, fits⟩ := valid.makeRoom 1
  have inside : room.writeIndex < room.data.length := by omega
  have stored := roomValid.store [char] (show room.writeIndex + [char].length ≤ room.data.length from fits)
  refine ⟨_, ?_, stored.1, by rw [stored.2, same]⟩
  simp only [Buffer.appendChar, success, bind, Except.bind, inside, ↓reduceIte, pure,
    Except.pure, List.length_singleton]

theorem appendString (valid : buffer.Valid) (string : Bytes) :
    ∃ filled, buffer.appendString string = .ok filled ∧
      filled.Valid ∧ filled.contents = buffer.contents ++ string := by
  cases string with
  | nil => exact ⟨buffer, rfl, valid, (List.append_nil _).symm⟩
  | cons head tail =>
    obtain ⟨room, success, roomValid, same, fits⟩ := valid.makeRoom (head :: tail).length
    have ordered := roomValid.ordered
    have front : (room.data.take room.writeIndex).length = room.writeIndex := by
      rw [List.length_take, Nat.min_eq_left roomValid.stored]
    refine ⟨{ room with
      data := room.data.take room.writeIndex ++ (head :: tail) ++ room.data.drop room.writeIndex
      writeIndex := room.writeIndex + (head :: tail).length }, ?_, ⟨?_, ?_⟩, ?_⟩
    · simp only [Buffer.appendString, List.isEmpty_cons, Bool.false_eq_true, ↓reduceIte, success,
        bind, Except.bind, roomValid.stored, pure, Except.pure]
    · change room.readIndex ≤ room.writeIndex + (head :: tail).length
      omega
    · simp only [List.length_append, List.length_drop, front]
      omega
    · have whole : (room.data.take room.writeIndex ++ (head :: tail)).length =
          room.writeIndex + (head :: tail).length := by rw [List.length_append, front]
      rw [← same]
      simp only [Buffer.contents, window]
      rw [← whole, List.take_left, List.drop_append_of_le_length (by omega)]

/-- What `readv` delivered is appended, whether or not it ran into the overflow block. -/
theorem receive (valid : buffer.Valid) (bytes : Bytes)
    (fits : bytes.length ≤ buffer.writeable + initBufferSize) :
    ∃ filled, buffer.socketRead (some bytes) = .ok (bytes.length, filled) ∧
      filled.Valid ∧ filled.contents = buffer.contents ++ bytes := by
  have stored := valid.stored
  have room := valid.writeable_eq
  by_cases direct : bytes.length ≤ buffer.writeable
  · obtain ⟨filledValid, filled⟩ := valid.store bytes (by omega)
    exact ⟨_, by simp only [Buffer.socketRead, direct, ↓reduceIte], filledValid, filled⟩
  · have size : (bytes.take buffer.writeable).length = buffer.writeable := by
      rw [List.length_take]; omega
    have rest : (bytes.drop buffer.writeable).length = bytes.length - buffer.writeable :=
      List.length_drop
    obtain ⟨fullValid, full⟩ :=
      valid.store (bytes.take buffer.writeable) (by omega)
    have atEnd : buffer.writeIndex + (bytes.take buffer.writeable).length = buffer.data.length := by
      omega
    rw [atEnd] at fullValid full
    obtain ⟨filled, success, filledValid, same⟩ :=
      fullValid.append (bytes.drop buffer.writeable)
        (by simp only [initBufferSize] at fits; omega)
    refine ⟨filled, ?_, filledValid, ?_⟩
    · rw [rest] at success
      unfold Buffer.socketRead
      simp only [direct, ↓reduceIte]
      rw [success]
      rfl
    · rw [same, full, List.append_assoc, List.take_append_drop]

/-- On Linux no read is larger than a buffer takes. -/
theorem socketRead (valid : buffer.Valid) (bytes : Bytes) (fits : bytes.length ≤ buffer.capacity) :
    ∃ filled, buffer.socketRead (some bytes) = .ok (bytes.length, filled) ∧
      filled.Valid ∧ filled.contents = buffer.contents ++ bytes :=
  valid.receive bytes (Nat.le_trans fits (Nat.min_le_left ..))

/-- Making room in a buffer that is filled to its end: what will stand behind the new
bytes is what the move to the front, if there is one, does not cover. -/
private theorem makeRoom_full (valid : buffer.Valid) (full : buffer.writeIndex = buffer.data.length)
    {size : Nat} {room : Buffer} (success : buffer.makeRoom size = .ok room) :
    room.data.drop (room.writeIndex + size) = buffer.data.drop (buffer.contents.length + size) := by
  have width := valid.length_contents
  have ordered := valid.ordered
  have none : buffer.writeable = 0 := by
    rw [valid.writeable_eq, full, Nat.sub_self]
  have spare : buffer.spare = buffer.readIndex := rfl
  unfold Buffer.makeRoom at success
  rw [none, if_neg (Nat.not_lt_zero size), Nat.add_zero, spare, valid.readable_eq] at success
  by_cases moves : buffer.readIndex ≥ size
  · have moved : copyDown buffer.data buffer.readIndex buffer.contents.length =
        some (buffer.contents ++ buffer.data.drop buffer.contents.length) := by
      rw [copyDown_eq (by omega),
        show buffer.readIndex + buffer.contents.length = buffer.writeIndex by omega]
      rfl
    rw [if_pos moves, moved] at success
    cases success
    change (buffer.contents ++ _).drop (buffer.contents.length + size) = _
    rw [← List.drop_drop, List.drop_left, List.drop_drop]
  · rw [if_neg moves] at success
    cases success
    change (buffer.data ++ List.replicate size 0).drop (buffer.writeIndex + size) = _
    rw [List.drop_eq_nil_of_le, List.drop_eq_nil_of_le]
    · omega
    · rw [List.length_append, List.length_replicate, full]

private theorem append_full (valid : buffer.Valid) (full : buffer.writeIndex = buffer.data.length)
    {bytes : Bytes} (small : bytes.length < 2 ^ 31) {filled : Buffer}
    (success : buffer.append (some bytes) (intOfSize bytes.length) = .ok filled) :
    filled.stale = buffer.data.drop (buffer.contents.length + bytes.length) := by
  obtain ⟨room, made, _, _, fits⟩ := valid.makeRoom bytes.length
  have behind := valid.makeRoom_full full made
  unfold Buffer.append at success
  rw [sizeOfInt_intOfSize small, made] at success
  simp only [ok_bind, Nat.le_refl, fits, and_self, ↓reduceIte, List.take_length] at success
  cases success
  exact (drop_overwrite fits).trans behind

/-- What a read leaves behind the write position. -/
theorem socketRead_stale (valid : buffer.Valid) {bytes : Bytes}
    (fits : bytes.length ≤ buffer.capacity) {count : Int} {filled : Buffer}
    (success : buffer.socketRead (some bytes) = .ok (count, filled)) :
    filled.stale = buffer.staleAfter bytes := by
  have stored := valid.stored
  have room := valid.writeable_eq
  unfold Buffer.socketRead at success
  unfold Buffer.staleAfter
  by_cases direct : bytes.length ≤ buffer.writeable
  · simp only [direct, ↓reduceIte] at success ⊢
    cases success
    change (overwrite _ _ _).drop (buffer.writeIndex + bytes.length) = _
    rw [drop_overwrite (by omega), ← List.drop_drop]
    rfl
  · simp only [direct, ↓reduceIte] at success ⊢
    have size : (bytes.take buffer.writeable).length = buffer.writeable := by
      rw [List.length_take]; omega
    have rest : (bytes.drop buffer.writeable).length = bytes.length - buffer.writeable :=
      List.length_drop
    obtain ⟨fullValid, full⟩ := valid.store (bytes.take buffer.writeable) (by omega)
    have atEnd : buffer.writeIndex + (bytes.take buffer.writeable).length = buffer.data.length := by
      omega
    have filledData : overwrite buffer.data buffer.writeIndex (bytes.take buffer.writeable) =
        buffer.data.take buffer.writeIndex ++ bytes.take buffer.writeable := by
      rw [overwrite, atEnd, List.drop_length, List.append_nil]
    rw [atEnd] at fullValid full
    obtain ⟨other, appended, same⟩ := bind_eq_ok.mp success
    cases same
    rw [← rest] at appended
    have behind := fullValid.append_full (by simp only [length_overwrite (Nat.le_of_eq atEnd)])
      (by simp only [Buffer.capacity, initBufferSize] at fits; omega) appended
    rw [behind, full, ← filledData, List.length_append, size, rest]
    congr 1
    omega

theorem readChar (valid : buffer.Valid) {head : Byte} {tail : Bytes}
    (contents : buffer.contents = head :: tail) :
    ∃ rest, buffer.readChar = .ok (head, rest) ∧ rest.Valid ∧ rest.contents = tail := by
  have first : (buffer.data ++ [0])[buffer.readIndex]? = some head := by
    have unread := valid.unread_eq
    rw [contents] at unread
    have here := congrArg (·[0]?) unread
    have stored : buffer.data[buffer.readIndex]? = some head := by simpa using here
    rw [List.getElem?_append_left (List.getElem?_eq_some_iff.mp stored).1]
    exact stored
  obtain ⟨restValid, rest⟩ := valid.advance 1 (by simp [contents])
  refine ⟨{ buffer with readIndex := buffer.readIndex + 1 }, ?_, restValid, ?_⟩
  · simp only [Buffer.readChar, first]
  · rw [rest, contents, List.drop_one, List.tail_cons]

end Buffer.Valid

/-- A buffer takes any read of at most the size of the overflow block. -/
theorem le_capacity (buffer : Buffer) {bytes : Bytes} (fits : bytes.length ≤ initBufferSize) :
    bytes.length ≤ buffer.capacity := by
  have bounded : initBufferSize ≤ maxReadCount := by decide
  apply Nat.le_min.mpr
  constructor
  · exact Nat.le_trans fits (Nat.le_add_left ..)
  · exact Nat.le_trans fits bounded

/-- A fresh buffer after its first read. -/
def Buffer.received (bytes : Bytes) : Buffer :=
  { data := bytes ++ List.replicate (initBufferSize - bytes.length) 0
    readIndex := 0
    writeIndex := bytes.length }

theorem Buffer.new_socketRead {bytes : Bytes} (fits : bytes.length ≤ initBufferSize) :
    Buffer.new.socketRead (some bytes) = .ok (bytes.length, .received bytes) := by
  have size : Buffer.new.data.length = initBufferSize := List.length_replicate
  have direct : bytes.length ≤ Buffer.new.writeable := by
    rw [Buffer.new_valid.writeable_eq, size]
    exact fits
  have stored : overwrite Buffer.new.data Buffer.new.writeIndex bytes =
      bytes ++ List.replicate (initBufferSize - bytes.length) 0 := by
    simp [overwrite, Buffer.new, Buffer.ofSize]
  unfold Buffer.socketRead
  simp only [direct, ↓reduceIte]
  rw [stored]
  simp [Buffer.received, Buffer.new, Buffer.ofSize]

end Yolanda.App
