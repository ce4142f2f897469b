import Yolanda.Foundation.Block
import Yolanda.Foundation.Search
import Yolanda.Machine

namespace Yolanda.App

open Foundation

/-- `INIT_BUFFER_SIZE`, the default size of a buffer and of the overflow block of
`socket_read`. -/
def initBufferSize : Nat := 65536

/-- `struct buffer`. `data` is the whole string, with the bytes behind `writeIndex`. -/
structure Buffer where
  data : Bytes
  readIndex : Nat
  writeIndex : Nat
  deriving DecidableEq

def Buffer.ofSize (size : Nat) : Buffer :=
  { data := List.replicate size 0, readIndex := 0, writeIndex := 0 }

def Buffer.new : Buffer := Buffer.ofSize initBufferSize

def Buffer.writeable (buffer : Buffer) : Nat :=
  sizeSub buffer.data.length buffer.writeIndex

def Buffer.readable (buffer : Buffer) : Nat :=
  sizeSub buffer.writeIndex buffer.readIndex

def Buffer.spare (buffer : Buffer) : Nat := buffer.readIndex

/-- `make_room`. The readable bytes move to the front when that frees enough, and
otherwise the string is resized. -/
def Buffer.makeRoom (buffer : Buffer) (size : Nat) : Except Fault Buffer :=
  if buffer.writeable > size then .ok buffer
  else if buffer.spare + buffer.writeable ≥ size then
    match copyDown buffer.data buffer.readIndex buffer.readable with
    | some data => .ok { data, readIndex := 0, writeIndex := buffer.readable }
    | none => .error .memory
  else .ok { buffer with data := buffer.data ++ List.replicate size 0 }

/-- `append(void *data, int size)`. The source is the block behind the pointer,
`none` for a null pointer; copying past either block is a memory fault. -/
def Buffer.append (buffer : Buffer) (source : Option Bytes) (size : Int) : Except Fault Buffer :=
  match source with
  | none => .ok buffer
  | some source => do
    let room ← buffer.makeRoom (sizeOfInt size)
    if sizeOfInt size ≤ source.length ∧ room.writeIndex + sizeOfInt size ≤ room.data.length then
      return { room with
        data := overwrite room.data room.writeIndex (source.take (sizeOfInt size))
        writeIndex := room.writeIndex + sizeOfInt size }
    else throw .memory

/-- `append(char c)`. -/
def Buffer.appendChar (buffer : Buffer) (char : Byte) : Except Fault Buffer := do
  let room ← buffer.makeRoom 1
  if room.writeIndex < room.data.length then
    return { room with
      data := overwrite room.data room.writeIndex [char]
      writeIndex := room.writeIndex + 1 }
  else throw .memory

/-- `append(const std::string &s)`. The string is inserted, which shifts the bytes
behind `writeIndex` instead of replacing them. -/
def Buffer.appendString (buffer : Buffer) (string : Bytes) : Except Fault Buffer :=
  if string.isEmpty then .ok buffer
  else do
    let room ← buffer.makeRoom string.length
    if room.writeIndex ≤ room.data.length then
      return { room with
        data := room.data.take room.writeIndex ++ string ++ room.data.drop room.writeIndex
        writeIndex := room.writeIndex + string.length }
    else throw .memory

/-- Linux transfers at most this many bytes in one read. -/
def maxReadCount : Nat := 0x7ffff000

/-- The most that the two-part `readv` of `socket_read` can deliver. -/
def Buffer.capacity (buffer : Buffer) : Nat :=
  min (buffer.writeable + initBufferSize) maxReadCount

/-- `socket_read`. `received` is what `readv` delivers, `none` for a failing call;
what does not fit behind `writeIndex` arrives in the overflow block. -/
def Buffer.socketRead (buffer : Buffer) (received : Option Bytes) : Except Fault (Int × Buffer) :=
  match received with
  | none => .ok (-1, buffer)
  | some bytes =>
    if bytes.length ≤ buffer.writeable then
      .ok (bytes.length, { buffer with
        data := overwrite buffer.data buffer.writeIndex bytes
        writeIndex := buffer.writeIndex + bytes.length })
    else do
      let full : Buffer := { buffer with
        data := overwrite buffer.data buffer.writeIndex (bytes.take buffer.writeable)
        writeIndex := buffer.data.length }
      let filled ← full.append (some (bytes.drop buffer.writeable))
        (intOfSize (bytes.length - buffer.writeable))
      return (bytes.length, filled)

/-- `read_char`. A `std::string` can be read at its size, where it holds a zero. -/
def Buffer.readChar (buffer : Buffer) : Except Fault (Byte × Buffer) :=
  match (buffer.data ++ [0])[buffer.readIndex]? with
  | some char => .ok (char, { buffer with readIndex := buffer.readIndex + 1 })
  | none => .error .memory

/-- `"\r\n"` -/
def crlf : Bytes := [13, 10]

/-- `find_CRLF`, as the position the returned pointer addresses. The search runs
to the end of the string. -/
def Buffer.findCRLF (buffer : Buffer) : Option Nat :=
  (search crlf (buffer.data.drop buffer.readIndex)).map (buffer.readIndex + ·)

end Yolanda.App
