import Yolanda.Foundation.Block
import Yolanda.Lib.ChannelMap
import Yolanda.Machine

/-! The buffer of the C library: a block that `realloc` enlarges, with `int` indices. -/

namespace Yolanda.Lib

open Foundation

/-- The result of an `int` operation. Signed overflow is undefined. -/
def intResult (value : Int) : Except Stop Int :=
  if -2 ^ 31 ≤ value ∧ value < 2 ^ 31 then .ok value else .error .overflow

/-- A `void *` or `char *` into an object of so many bytes. -/
structure Pointer where
  object : Bytes
  offset : Int

/-- The `count` bytes a system call or `memcpy` reads from the pointer on. -/
def Pointer.read (pointer : Pointer) (count : Nat) : Except Stop Bytes :=
  if 0 ≤ pointer.offset ∧ pointer.offset.toNat + count ≤ pointer.object.length then
    .ok (window pointer.object pointer.offset.toNat (pointer.offset.toNat + count))
  else .error .memory

/-- `data + count` -/
def Pointer.add (pointer : Pointer) (count : Int) : Pointer :=
  { pointer with offset := pointer.offset + count }

/-- The bytes from the pointer on, as far as the object goes. -/
def Pointer.rest (pointer : Pointer) : Bytes :=
  pointer.object.drop pointer.offset.toNat

/-- `strlen`, which looks for the terminating zero in the object. -/
def Pointer.strlen (pointer : Pointer) : Except Stop Nat :=
  if 0 ≤ pointer.offset ∧ 0 ∈ pointer.rest then
    .ok (pointer.rest.takeWhile (· ≠ 0)).length
  else .error .memory

/-- The string at a pointer. -/
def Pointer.string (pointer : Pointer) : Bytes :=
  pointer.rest.takeWhile (· ≠ 0)

/-- The pointer is one to a string. -/
def Pointer.IsString (pointer : Pointer) : Prop :=
  0 ≤ pointer.offset ∧ 0 ∈ pointer.rest

/-- `INIT_BUFFER_SIZE` -/
def initBufferSize : Nat := 65536

/-- `struct buffer`. `data` is the allocated block. -/
structure Buffer where
  data : Bytes
  readIndex : Int
  writeIndex : Int
  totalSize : Int

namespace Buffer

/-- `buffer_new`. Nothing reads the block before it is written. -/
def new : Buffer :=
  { data := List.replicate initBufferSize 0
    readIndex := 0
    writeIndex := 0
    totalSize := initBufferSize }

/-- `buffer_writeable_size` -/
def writeableSize (buffer : Buffer) : Except Stop Int :=
  intResult (buffer.totalSize - buffer.writeIndex)

/-- `buffer_readable_size` -/
def readableSize (buffer : Buffer) : Except Stop Int :=
  intResult (buffer.writeIndex - buffer.readIndex)

/-- `buffer_front_spare_size` -/
def frontSpareSize (buffer : Buffer) : Int :=
  buffer.readIndex

/-- The loop of `make_room` that moves the readable bytes to the front, one by one. -/
def moveToFront (buffer : Buffer) (readable : Int) : Except Stop Buffer :=
  if readable ≤ 0 ∨ 0 ≤ buffer.readIndex then
    match copyDown buffer.data buffer.readIndex.toNat readable.toNat with
    | some data => .ok { buffer with data, readIndex := 0, writeIndex := readable }
    | none => .error .memory
  else .error .memory

/-- `make_room`, where `memory` says whether `realloc` finds the memory. -/
def makeRoom (buffer : Buffer) (size : Int) (memory : Bool) : Except Stop Buffer := do
  let writeable ← buffer.writeableSize
  if writeable ≥ size then return buffer
  else do
    let room ← intResult (buffer.frontSpareSize + writeable)
    if room ≥ size then do
      let readable ← buffer.readableSize
      buffer.moveToFront readable
    else do
      let totalSize ← intResult (buffer.totalSize + size)
      if memory then
        return { buffer with
          data := buffer.data.take (sizeOfInt totalSize) ++
            List.replicate (sizeOfInt totalSize - buffer.data.length) 0
          totalSize }
      else return buffer

/-- `memcpy(buffer->data + buffer->writeIndex, data, size)` and the advance of the index. -/
def store (buffer : Buffer) (source : Pointer) (size : Int) : Except Stop Buffer := do
  let bytes ← source.read (sizeOfInt size)
  if 0 ≤ buffer.writeIndex ∧
      buffer.writeIndex.toNat + sizeOfInt size ≤ buffer.data.length then do
    let writeIndex ← intResult (buffer.writeIndex + size)
    return { buffer with
      data := overwrite buffer.data buffer.writeIndex.toNat bytes
      writeIndex }
  else throw .memory

/-- `buffer_append`, with `none` for a null pointer. -/
def append (buffer : Buffer) (source : Option Pointer) (size : Int) (memory : Bool) :
    Except Stop Buffer :=
  match source with
  | none => .ok buffer
  | some source => do
    let room ← buffer.makeRoom size memory
    room.store source size

/-- `buffer_append_char` -/
def appendChar (buffer : Buffer) (char : Byte) (memory : Bool) : Except Stop Buffer := do
  let room ← buffer.makeRoom 1 memory
  room.store ⟨[char], 0⟩ 1

/-- `buffer_append_string`. The length goes through an `int`. -/
def appendString (buffer : Buffer) (source : Option Pointer) (memory : Bool) :
    Except Stop Buffer :=
  match source with
  | none => .ok buffer
  | some source => do
    let length ← source.strlen
    buffer.append (some source) (intOfSize length) memory

/-- `buffer_socket_read`. `received` is what `readv` delivers, `none` for a failing call;
the result of `readv` is kept in an `int`. -/
def socketRead (buffer : Buffer) (received : Option Bytes) (memory : Bool) :
    Except Stop (Int × Buffer) := do
  let maxWritable ← buffer.writeableSize
  match received with
  | none => return (-1, buffer)
  | some bytes =>
    let result := intOfSize bytes.length
    let filled := { buffer with
      data := overwrite buffer.data buffer.writeIndex.toNat (bytes.take (sizeOfInt maxWritable)) }
    if result < 0 then return (-1, filled)
    else if result ≤ maxWritable then do
      let writeIndex ← intResult (buffer.writeIndex + result)
      return (result, { filled with writeIndex })
    else do
      let full ← { filled with writeIndex := buffer.totalSize }.append
        (some ⟨bytes.drop (sizeOfInt maxWritable), 0⟩) (result - maxWritable) memory
      return (result, full)

/-- `buffer_read_char` -/
def readChar (buffer : Buffer) : Except Stop (Byte × Buffer) :=
  match if 0 ≤ buffer.readIndex then buffer.data[buffer.readIndex.toNat]? else none with
  | some char => do
    let readIndex ← intResult (buffer.readIndex + 1)
    return (char, { buffer with readIndex })
  | none => .error .memory

/-- The indices are in order inside the block. -/
structure Valid (buffer : Buffer) : Prop where
  start : 0 ≤ buffer.readIndex
  ordered : buffer.readIndex ≤ buffer.writeIndex
  stored : buffer.writeIndex ≤ buffer.totalSize
  allocated : buffer.totalSize = buffer.data.length
  small : buffer.totalSize < 2 ^ 31

/-- The readable bytes. -/
def contents (buffer : Buffer) : Bytes :=
  window buffer.data buffer.readIndex.toNat buffer.writeIndex.toNat

/-- What `make_room` leaves when it returns: the same content, and room behind it. The block
has grown only if the content and what is asked for do not fit into it. -/
structure HasRoom (buffer : Buffer) (size : Int) (room : Buffer) : Prop where
  valid : room.Valid
  contents : room.contents = buffer.contents
  fits : room.writeIndex + size ≤ room.totalSize
  grown : room.totalSize = buffer.totalSize ∨
    room.totalSize = buffer.totalSize + size ∧ buffer.totalSize < buffer.contents.length + size

/-- What a call that appends leaves when it returns. The block has grown, if it has, to at
most twice the new content. -/
structure Appended (buffer : Buffer) (bytes : Bytes) (filled : Buffer) : Prop where
  valid : filled.Valid
  contents : filled.contents = buffer.contents ++ bytes
  grown : filled.totalSize = buffer.totalSize ∨ filled.totalSize ≤ 2 * filled.contents.length

/-- The block is too small for the content with `size` bytes more, and too large to be
enlarged by them. -/
def Overflows (buffer : Buffer) (size : Int) : Prop :=
  buffer.totalSize < buffer.contents.length + size ∧ 2 ^ 31 ≤ buffer.totalSize + size

end Buffer

theorem intResult_eq {value : Int} (least : -2 ^ 31 ≤ value) (most : value < 2 ^ 31) :
    intResult value = .ok value :=
  if_pos ⟨least, most⟩

theorem sizeOfInt_toNat {size : Int} (positive : 0 ≤ size) (small : size < 2 ^ 31) :
    sizeOfInt size = size.toNat := by
  obtain ⟨count, rfl⟩ := Int.eq_ofNat_of_zero_le positive
  rw [sizeOfInt_ofNat (by omega), Int.toNat_natCast]

namespace Pointer

variable {pointer : Pointer}

theorem read_length {count : Nat} {bytes : Bytes} (held : pointer.read count = .ok bytes) :
    bytes.length = count := by
  unfold read at held
  split at held
  · next within =>
    cases held
    rw [length_window within.2]
    omega
  · cases held

theorem strlen_eq (isString : pointer.IsString) : pointer.strlen = .ok pointer.string.length :=
  if_pos isString

theorem read_eq {count : Nat} (start : 0 ≤ pointer.offset)
    (within : pointer.offset.toNat + count ≤ pointer.object.length) :
    pointer.read count = .ok (pointer.rest.take count) := by
  rw [read, if_pos ⟨start, within⟩, window_add]
  rfl

theorem read_string (isString : pointer.IsString) :
    pointer.read pointer.string.length = .ok pointer.string := by
  have start : pointer.string <+: pointer.rest := List.takeWhile_prefix _
  have bound := start.length_le
  have inside := List.length_pos_of_mem isString.2
  rw [rest, List.length_drop] at bound inside
  rw [read_eq isString.1 (by omega), ← List.prefix_iff_eq_take.mp start]

end Pointer

namespace Buffer.Valid

variable {buffer : Buffer}

theorem new : Buffer.new.Valid := by
  have allocated : Buffer.new.totalSize = Buffer.new.data.length := by
    change (initBufferSize : Int) = (List.replicate initBufferSize (0 : Byte)).length
    rw [List.length_replicate]
  exact ⟨by decide, by decide, by decide, allocated, by decide⟩

theorem length_contents (valid : buffer.Valid) :
    (buffer.contents.length : Int) = buffer.writeIndex - buffer.readIndex := by
  obtain ⟨start, ordered, stored, allocated, small⟩ := valid
  have width : buffer.contents.length = buffer.writeIndex.toNat - buffer.readIndex.toNat :=
    length_window (by omega)
  omega

theorem writeableSize (valid : buffer.Valid) :
    buffer.writeableSize = .ok (buffer.totalSize - buffer.writeIndex) := by
  obtain ⟨start, ordered, stored, allocated, small⟩ := valid
  exact intResult_eq (by omega) (by omega)

theorem readableSize (valid : buffer.Valid) :
    buffer.readableSize = .ok (buffer.contents.length : Int) := by
  have width := valid.length_contents
  obtain ⟨start, ordered, stored, allocated, small⟩ := valid
  rw [width]
  exact intResult_eq (by omega) (by omega)

/-- The move to the front keeps the content. -/
theorem moveToFront (valid : buffer.Valid) :
    ∃ room, buffer.moveToFront buffer.contents.length = .ok room ∧ room.Valid ∧
      room.contents = buffer.contents ∧ room.writeIndex = buffer.contents.length ∧
      room.totalSize = buffer.totalSize := by
  have width := valid.length_contents
  obtain ⟨start, ordered, stored, allocated, small⟩ := valid
  have reach : buffer.readIndex.toNat + buffer.contents.length = buffer.writeIndex.toNat := by
    omega
  have moved : copyDown buffer.data buffer.readIndex.toNat buffer.contents.length =
      some (buffer.contents ++ buffer.data.drop buffer.contents.length) := by
    rw [copyDown_eq (by omega), reach]
    rfl
  refine ⟨{ buffer with
    data := buffer.contents ++ buffer.data.drop buffer.contents.length
    readIndex := 0
    writeIndex := buffer.contents.length }, ?_, ⟨Int.le_refl _, ?_, ?_, ?_, small⟩, ?_, rfl, rfl⟩
  · rw [Buffer.moveToFront, if_pos (.inr start), Int.toNat_natCast, moved]
  · exact Int.natCast_nonneg _
  · change (buffer.contents.length : Int) ≤ buffer.totalSize
    omega
  · simp only [List.length_append, List.length_drop]
    omega
  · have front : window (buffer.contents ++ buffer.data.drop buffer.contents.length) 0
        buffer.contents.length = buffer.contents := by
      rw [window, List.drop_zero, List.take_left]
    exact front

/-- Enlarging the block keeps the content. -/
theorem enlarge (valid : buffer.Valid) {totalSize : Int} (larger : buffer.totalSize ≤ totalSize)
    (small : totalSize < 2 ^ 31) :
    ({ buffer with
        data := buffer.data.take (sizeOfInt totalSize) ++
          List.replicate (sizeOfInt totalSize - buffer.data.length) 0
        totalSize } : Buffer).Valid ∧
      ({ buffer with
        data := buffer.data.take (sizeOfInt totalSize) ++
          List.replicate (sizeOfInt totalSize - buffer.data.length) 0
        totalSize } : Buffer).contents = buffer.contents := by
  obtain ⟨start, ordered, stored, allocated, _⟩ := valid
  have size : sizeOfInt totalSize = totalSize.toNat := sizeOfInt_toNat (by omega) small
  have whole : buffer.data.take (sizeOfInt totalSize) = buffer.data :=
    List.take_of_length_le (by omega)
  have inside : buffer.writeIndex.toNat ≤ buffer.data.length := by omega
  rw [whole]
  refine ⟨⟨start, ordered, ?_, ?_, small⟩, window_extend _ _ inside⟩
  · exact Int.le_trans stored larger
  · simp only [List.length_append, List.length_replicate]
    omega

/-- `make_room` returns with room, or the new size of the block is no `int`. -/
theorem makeRoom (valid : buffer.Valid) {size : Int} (positive : 0 ≤ size)
    (bounded : size < 2 ^ 31) :
    (∃ room, buffer.makeRoom size true = .ok room ∧ HasRoom buffer size room) ∨
      buffer.makeRoom size true = .error .overflow ∧ Overflows buffer size := by
  have width := valid.length_contents
  have order := valid
  obtain ⟨start, ordered, stored, allocated, small⟩ := order
  unfold Buffer.makeRoom
  rw [valid.writeableSize]
  by_cases enough : buffer.totalSize - buffer.writeIndex ≥ size
  · refine .inl ⟨buffer, ?_, valid, rfl, by omega, .inl rfl⟩
    rw [ok_bind, if_pos enough]
    rfl
  · have spare : intResult (buffer.frontSpareSize + (buffer.totalSize - buffer.writeIndex)) =
        .ok (buffer.readIndex + (buffer.totalSize - buffer.writeIndex)) := by
      unfold frontSpareSize
      exact intResult_eq (by omega) (by omega)
    rw [ok_bind, if_neg enough, spare, ok_bind]
    by_cases moves : buffer.readIndex + (buffer.totalSize - buffer.writeIndex) ≥ size
    · obtain ⟨room, moved, kept, same, position, total⟩ := valid.moveToFront
      refine .inl ⟨room, ?_, kept, same, ?_, .inl total⟩
      · rw [if_pos moves, valid.readableSize, ok_bind, moved]
      · omega
    · rw [if_neg moves]
      by_cases fits : buffer.totalSize + size < 2 ^ 31
      · obtain ⟨kept, same⟩ := valid.enlarge (Int.le_add_of_nonneg_right positive) fits
        refine .inl ⟨_, ?_, kept, same, ?_, .inr ⟨rfl, by omega⟩⟩
        · rw [intResult_eq (by omega) fits, ok_bind]
          rfl
        · change buffer.writeIndex + size ≤ buffer.totalSize + size
          omega
      · refine .inr ⟨?_, by omega, by omega⟩
        rw [intResult, if_neg fun bounds => fits bounds.2]
        rfl

/-- Writing bytes where there is room for them. -/
theorem write (valid : buffer.Valid) {bytes : Bytes} {position : Int}
    (reach : position = buffer.writeIndex + bytes.length) (fits : position ≤ buffer.totalSize) :
    ({ buffer with
        data := overwrite buffer.data buffer.writeIndex.toNat bytes
        writeIndex := position } : Buffer).Valid ∧
      ({ buffer with
        data := overwrite buffer.data buffer.writeIndex.toNat bytes
        writeIndex := position } : Buffer).contents = buffer.contents ++ bytes := by
  obtain ⟨start, ordered, stored, allocated, small⟩ := valid
  have inside : buffer.writeIndex.toNat + bytes.length ≤ buffer.data.length := by omega
  have next : buffer.writeIndex.toNat + bytes.length = position.toNat := by omega
  have extended : window (overwrite buffer.data buffer.writeIndex.toNat bytes)
      buffer.readIndex.toNat (buffer.writeIndex.toNat + bytes.length) = buffer.contents ++ bytes :=
    window_overwrite (by omega) (by omega)
  rw [next] at extended
  refine ⟨⟨start, ?_, fits, ?_, small⟩, extended⟩
  · change buffer.readIndex ≤ position
    omega
  · rw [length_overwrite inside]
    exact allocated

/-- Storing bytes where there is room for them. -/
theorem store (valid : buffer.Valid) {source : Pointer} {size : Int} {bytes : Bytes}
    (positive : 0 ≤ size) (held : source.read size.toNat = .ok bytes)
    (fits : buffer.writeIndex + size ≤ buffer.totalSize) :
    ∃ filled, buffer.store source size = .ok filled ∧ filled.Valid ∧
      filled.contents = buffer.contents ++ bytes ∧ filled.totalSize = buffer.totalSize := by
  have order := valid
  obtain ⟨start, ordered, stored, allocated, small⟩ := order
  have count : sizeOfInt size = size.toNat := sizeOfInt_toNat positive (by omega)
  have width := Pointer.read_length held
  obtain ⟨kept, contents⟩ := valid.write (by omega : _ = buffer.writeIndex + bytes.length) fits
  refine ⟨_, ?_, kept, contents, rfl⟩
  rw [Buffer.store, count, held, ok_bind, if_pos ⟨by omega, by omega⟩,
    intResult_eq (by omega) (by omega)]
  rfl

/-- `buffer_append` stores the bytes, or the new size of the block is no `int`. -/
theorem append (valid : buffer.Valid) {source : Pointer} {size : Int} {bytes : Bytes}
    (positive : 0 ≤ size) (bounded : size < 2 ^ 31) (held : source.read size.toNat = .ok bytes)
    (width : (bytes.length : Int) = size) :
    (∃ filled, buffer.append (some source) size true = .ok filled ∧
        Appended buffer bytes filled) ∨
      buffer.append (some source) size true = .error .overflow ∧ Overflows buffer size := by
  rcases valid.makeRoom positive bounded with ⟨room, made, has⟩ | ⟨fails, overflows⟩
  · obtain ⟨filled, success, kept, same, total⟩ := has.valid.store positive held has.fits
    have contents : filled.contents = buffer.contents ++ bytes := by rw [same, has.contents]
    have length := congrArg List.length contents
    rw [List.length_append] at length
    refine .inl ⟨filled, ?_, kept, contents, ?_⟩
    · rw [Buffer.append, made, ok_bind, success]
    · rcases has.grown with equal | ⟨larger, tight⟩
      · exact .inl (total.trans equal)
      · right
        omega
  · refine .inr ⟨?_, overflows⟩
    rw [Buffer.append, fails]
    rfl

/-- A call that would overflow does. -/
theorem append_overflows (valid : buffer.Valid) {size : Int} (positive : 0 ≤ size)
    (bounded : size < 2 ^ 31) (overflows : Overflows buffer size) (source : Pointer) :
    buffer.append (some source) size true = .error .overflow := by
  rcases valid.makeRoom positive bounded with ⟨room, made, has⟩ | ⟨fails, _⟩
  · have width := has.valid.length_contents
    rw [has.contents] at width
    obtain ⟨tight, large⟩ := overflows
    have start := has.valid.start
    have small := has.valid.small
    have fits := has.fits
    rcases has.grown with equal | ⟨larger, _⟩ <;> omega
  · rw [Buffer.append, fails]
    rfl

/-- An append of no negative size that returns has stored the bytes it was given. -/
theorem append_returned (valid : buffer.Valid) {source : Pointer} {size : Int} {filled : Buffer}
    (positive : 0 ≤ size) (bounded : size < 2 ^ 31)
    (success : buffer.append (some source) size true = .ok filled) :
    ∃ bytes : Bytes, (bytes.length : Int) = size ∧ Appended buffer bytes filled := by
  obtain ⟨room, made, stored⟩ := bind_eq_ok.mp success
  obtain ⟨bytes, held, _⟩ := bind_eq_ok.mp stored
  rw [sizeOfInt_toNat positive bounded] at held
  have width := Pointer.read_length held
  rcases valid.append positive bounded held (by omega) with ⟨other, again, appended⟩ | ⟨fails, _⟩
  · cases success.symm.trans again
    exact ⟨bytes, by omega, appended⟩
  · cases success.symm.trans fails

/-- An append that returns has stored as many bytes as its size tells. -/
theorem append_length (valid : buffer.Valid) {source : Pointer} {size : Int} {filled : Buffer}
    (least : -2 ^ 31 ≤ size) (bounded : size < 2 ^ 31)
    (success : buffer.append (some source) size true = .ok filled) :
    0 ≤ size ∧ (filled.contents.length : Int) = buffer.contents.length + size := by
  by_cases positive : 0 ≤ size
  · obtain ⟨bytes, width, appended⟩ := valid.append_returned positive bounded success
    refine ⟨positive, ?_⟩
    rw [appended.contents, List.length_append]
    omega
  · obtain ⟨start, ordered, stored, allocated, small⟩ := valid
    obtain ⟨room, made, kept⟩ := bind_eq_ok.mp success
    obtain ⟨bytes, held, placed⟩ := bind_eq_ok.mp kept
    have same : room = buffer := by
      have writeable : buffer.writeableSize = .ok (buffer.totalSize - buffer.writeIndex) :=
        intResult_eq (by omega) (by omega)
      rw [Buffer.makeRoom, writeable, ok_bind, if_pos (by omega)] at made
      exact (Except.ok.inj made).symm
    subst same
    have huge : ¬ (0 ≤ room.writeIndex ∧
        room.writeIndex.toNat + sizeOfInt size ≤ room.data.length) := by
      unfold sizeOfInt
      omega
    rw [if_neg huge] at placed
    cases placed

theorem appendChar (valid : buffer.Valid) (char : Byte) :
    (∃ filled, buffer.appendChar char true = .ok filled ∧ Appended buffer [char] filled) ∨
      buffer.appendChar char true = .error .overflow ∧ Overflows buffer 1 := by
  have held : (Pointer.mk [char] 0).read (1 : Int).toNat = .ok [char] := rfl
  exact valid.append (by decide) (by decide) held rfl

/-- A string of which an `int` keeps the length is appended. -/
theorem appendString (valid : buffer.Valid) {source : Pointer} (isString : source.IsString)
    (short : source.string.length < 2 ^ 31) :
    (∃ filled, buffer.appendString (some source) true = .ok filled ∧
        Appended buffer source.string filled) ∨
      buffer.appendString (some source) true = .error .overflow ∧
        Overflows buffer source.string.length := by
  have size := intOfSize_of_lt short
  have held : source.read (source.string.length : Int).toNat = .ok source.string := by
    rw [Int.toNat_natCast]
    exact Pointer.read_string isString
  have appended := valid.append (Int.natCast_nonneg _) (by omega) held rfl
  simpa only [Buffer.appendString, Pointer.strlen_eq isString, ok_bind, size] using appended

/-- A string whose length is a negative `int` is copied from beyond its object. -/
theorem appendString_negative (valid : buffer.Valid) {source : Pointer}
    (isString : source.IsString) (negative : intOfSize source.string.length < 0) (memory : Bool) :
    buffer.appendString (some source) memory = .error .memory := by
  have writeable := valid.writeableSize
  obtain ⟨start, ordered, stored, allocated, small⟩ := valid
  have length := Pointer.strlen_eq isString
  have returned : buffer.makeRoom (intOfSize source.string.length) memory = .ok buffer := by
    rw [Buffer.makeRoom, writeable, ok_bind, if_pos (by omega)]
    rfl
  have huge : ¬ (0 ≤ buffer.writeIndex ∧ buffer.writeIndex.toNat +
      sizeOfInt (intOfSize source.string.length) ≤ buffer.data.length) := by
    obtain ⟨_, _, least, _⟩ := intOfSize_wraps source.string.length
    unfold sizeOfInt
    omega
  simp only [Buffer.appendString, length, ok_bind, Buffer.append, returned, Buffer.store, huge,
    ↓reduceIte]
  unfold Pointer.read
  split
  · rfl
  · rfl

/-- What `readv` delivered is appended, whether or not it ran into the overflow block. -/
theorem socketRead (valid : buffer.Valid) {bytes : Bytes} (short : bytes.length < 2 ^ 31) :
    (∃ filled, buffer.socketRead (some bytes) true = .ok (bytes.length, filled) ∧
        Appended buffer bytes filled) ∨
      buffer.socketRead (some bytes) true = .error .overflow ∧
        Overflows buffer bytes.length := by
  have width := valid.length_contents
  have order := valid
  obtain ⟨start, ordered, stored, allocated, small⟩ := order
  have result := intOfSize_of_lt short
  have room : sizeOfInt (buffer.totalSize - buffer.writeIndex) =
      (buffer.totalSize - buffer.writeIndex).toNat := sizeOfInt_toNat (by omega) (by omega)
  unfold Buffer.socketRead
  simp only [valid.writeableSize, ok_bind, result, room]
  rw [if_neg (by omega)]
  by_cases direct : (bytes.length : Int) ≤ buffer.totalSize - buffer.writeIndex
  · have whole : bytes.take (buffer.totalSize - buffer.writeIndex).toNat = bytes :=
      List.take_of_length_le (by omega)
    obtain ⟨kept, contents⟩ := valid.write
      (rfl : buffer.writeIndex + (bytes.length : Int) = buffer.writeIndex + bytes.length) (by omega)
    rw [if_pos direct, whole, intResult_eq (by omega) (by omega)]
    exact .inl ⟨_, rfl, kept, contents, .inl rfl⟩
  · have part : ((bytes.take (buffer.totalSize - buffer.writeIndex).toNat).length : Int) =
        buffer.totalSize - buffer.writeIndex := by
      rw [List.length_take]
      omega
    obtain ⟨full, contents⟩ := valid.write
      (by omega : buffer.totalSize = buffer.writeIndex +
        (bytes.take (buffer.totalSize - buffer.writeIndex).toNat).length) (Int.le_refl _)
    have rest : ((bytes.drop (buffer.totalSize - buffer.writeIndex).toNat).length : Int) =
        bytes.length - (buffer.totalSize - buffer.writeIndex) := by
      rw [List.length_drop]
      omega
    have held : (Pointer.mk (bytes.drop (buffer.totalSize - buffer.writeIndex).toNat) 0).read
        (bytes.length - (buffer.totalSize - buffer.writeIndex)).toNat =
          .ok (bytes.drop (buffer.totalSize - buffer.writeIndex).toNat) := by
      rw [Pointer.read_eq (Int.le_refl 0), List.take_of_length_le]
      · rfl
      · change (bytes.drop _).length ≤ _
        omega
      · change 0 + _ ≤ (bytes.drop _).length
        omega
    rw [if_neg direct]
    rcases full.append (by omega) (by omega) held rest with
      ⟨filled, success, appended⟩ | ⟨fails, overflows⟩
    · refine .inl ⟨filled, ?_, appended.valid, ?_, appended.grown⟩
      · rw [success]
        rfl
      · rw [appended.contents, contents, List.append_assoc, List.take_append_drop]
    · refine .inr ⟨?_, ?_⟩
      · rw [fails]
        rfl
      · obtain ⟨tight, large⟩ := overflows
        have lengths := congrArg List.length contents
        rw [List.length_append] at lengths
        constructor
        · change buffer.totalSize < _ at tight
          omega
        · change 2 ^ 31 ≤ buffer.totalSize + _ at large
          omega

/-- Consuming readable bytes by moving the read position. -/
theorem advance (valid : buffer.Valid) {count : Nat} (inside : count ≤ buffer.contents.length) :
    ({ buffer with readIndex := buffer.readIndex + count } : Buffer).Valid ∧
      ({ buffer with readIndex := buffer.readIndex + count } : Buffer).contents =
        buffer.contents.drop count := by
  have width := valid.length_contents
  obtain ⟨start, ordered, stored, allocated, small⟩ := valid
  have next : (buffer.readIndex + count).toNat = buffer.readIndex.toNat + count := by omega
  have behind := window_drop buffer.data buffer.readIndex.toNat buffer.writeIndex.toNat count
  rw [← next] at behind
  refine ⟨⟨Int.add_nonneg start (Int.natCast_nonneg _), ?_, stored, allocated, small⟩, behind.symm⟩
  change buffer.readIndex + count ≤ buffer.writeIndex
  omega

theorem readChar (valid : buffer.Valid) {head : Byte} {tail : Bytes}
    (contents : buffer.contents = head :: tail) :
    ∃ rest, buffer.readChar = .ok (head, rest) ∧ rest.Valid ∧ rest.contents = tail ∧
      rest.totalSize = buffer.totalSize := by
  have width := valid.length_contents
  have filled : 1 ≤ buffer.contents.length := by simp [contents]
  obtain ⟨kept, behind⟩ := valid.advance filled
  obtain ⟨start, ordered, stored, allocated, small⟩ := valid
  have unread := drop_eq_window_append (show buffer.readIndex.toNat ≤ buffer.writeIndex.toNat by
    omega) (show buffer.writeIndex.toNat ≤ buffer.data.length by omega)
  have first : buffer.data[buffer.readIndex.toNat]? = some head := by
    have here := congrArg (·[0]?) unread
    change _ = (buffer.contents ++ _)[0]? at here
    rw [contents] at here
    simpa using here
  refine ⟨{ buffer with readIndex := buffer.readIndex + 1 }, ?_, kept, ?_, rfl⟩
  · simp only [Buffer.readChar, if_pos start, first]
    rw [intResult_eq (by omega) (by omega)]
    rfl
  · rw [contents] at behind
    exact behind

end Buffer.Valid

end Yolanda.Lib
