import Yolanda.App.Rot13Echo
import Yolanda.Foundation.Run

/-! The server of `nonblockingserver.c`, which has one buffer for each descriptor number and
sends lines back rotated. -/

namespace Yolanda.Chapters

open App (rot13Char)
open Foundation

/-- `MAX_LINE` -/
def maxLine : Nat := 1024

/-- `FD_INIT_SIZE` -/
def fdInitSize : Nat := 128

/-- `struct Buffer` -/
structure Buffer where
  connectFd : Nat
  buffer : Bytes
  size : buffer.length = maxLine
  writeIndex : Nat
  readIndex : Nat
  ordered : readIndex ≤ writeIndex
  inside : writeIndex ≤ maxLine
  readable : Bool

/-- What `recv` gives for a buffer of 1024 characters. -/
structure Chunk where
  bytes : Bytes
  positive : bytes ≠ []
  fits : bytes.length ≤ 1024

/-- How the calls of `recv` come to an end. -/
inductive RecvEnd where
  | closed
  /-- `EAGAIN` -/
  | again
  | failed
  deriving DecidableEq

/-- What the calls of `recv` give while a descriptor is read. -/
structure Recv where
  chunks : List Chunk
  last : RecvEnd

def Recv.bytes (recv : Recv) : Bytes :=
  recv.chunks.flatMap Chunk.bytes

/-- How `send` fails. -/
inductive SendEnd where
  /-- `EAGAIN` -/
  | again
  | failed
  deriving DecidableEq

/-- The counts that the calls of `send` return, and the failure behind them. -/
structure Send where
  counts : List Nat
  last : SendEnd

namespace Buffer

/-- `alloc_Buffer`, on the memory that `malloc` gives. -/
def alloc (memory : Buffer) : Buffer :=
  { memory with
    connectFd := 0
    writeIndex := 0
    readIndex := 0
    ordered := Nat.le_refl 0
    inside := Nat.zero_le _
    readable := false }

/-- The characters that are not yet sent. -/
def waiting (buffer : Buffer) : Bytes :=
  (buffer.buffer.take buffer.writeIndex).drop buffer.readIndex

/-- The body of the loop over the characters in `onSocketRead`. -/
def store (buffer : Buffer) (c : Byte) : Buffer :=
  let stored :=
    if room : buffer.writeIndex < maxLine then
      { buffer with
        buffer := buffer.buffer.set buffer.writeIndex (rot13Char c)
        size := (List.length_set ..).trans buffer.size
        writeIndex := buffer.writeIndex + 1
        ordered := Nat.le_succ_of_le buffer.ordered
        inside := room }
    else buffer
  if c = 10 then { stored with readable := true } else stored

/-- `onSocketRead` -/
def onSocketRead (buffer : Buffer) (recv : Recv) : Int × Buffer :=
  let filled := recv.chunks.foldl (fun buffer chunk => chunk.bytes.foldl store buffer) buffer
  match recv.last with
  | .closed => (1, filled)
  | .again => (0, filled)
  | .failed => (-1, filled)

/-- The end of `onSocketWrite`, behind its loop. -/
def reuse (buffer : Buffer) : Buffer :=
  let emptied :=
    if buffer.readIndex = buffer.writeIndex then
      { buffer with
        readIndex := 0
        writeIndex := 0
        ordered := Nat.le_refl 0
        inside := Nat.zero_le _ }
    else buffer
  { emptied with readable := false }

/-- `buffer->readIndex += result`, where `result` is at most the length given to `send`. -/
def advance (buffer : Buffer) (result : Nat) : Buffer :=
  { buffer with
    readIndex := buffer.readIndex + min result (buffer.writeIndex - buffer.readIndex)
    ordered := by
      have ordered := buffer.ordered
      omega }

/-- `onSocketWrite`, with the characters it sends. -/
def onSocketWrite (last : SendEnd) : List Nat → Buffer → Int × Buffer × Bytes
  | [], buffer =>
    if buffer.readIndex < buffer.writeIndex then
      match last with
      | .again => (0, buffer, [])
      | .failed => (-1, buffer, [])
    else (0, buffer.reuse, [])
  | result :: counts, buffer =>
    if buffer.readIndex < buffer.writeIndex then
      let (r, after, sent) := onSocketWrite last counts (buffer.advance result)
      (r, after, buffer.waiting.take result ++ sent)
    else (0, buffer.reuse, [])

end Buffer

/-- What a connection received and sent since it was accepted. -/
structure Connection where
  received : Bytes
  sent : Bytes

/-- The buffers, the last connection of each descriptor, and the connections that are closed. -/
structure SelectServer where
  buffer : Fin fdInitSize → Buffer
  connection : Fin fdInitSize → Connection
  closed : List Connection

/-- How the process ends. -/
inductive SelectStop where
  | selectError
  | acceptFailed
  | tooManyConnections
  /-- An access to a buffer that does not exist. -/
  | memory
  deriving DecidableEq

/-- What the calls of one round of the loop answer. -/
structure Round where
  fails : Bool
  listening : Bool
  accept : Option Nat
  read : Nat → Option Recv
  write : Nat → Option Send

namespace SelectServer

def start (memory : Fin fdInitSize → Buffer) : SelectServer where
  buffer slot := (memory slot).alloc
  connection _ := ⟨[], []⟩
  closed := []

/-- The descriptor is in the set for `select` to test for reading. -/
def inReadset (server : SelectServer) (fd : Nat) : Bool :=
  (List.finRange fdInitSize).any fun slot =>
    decide (0 < (server.buffer slot).connectFd ∧ (server.buffer slot).connectFd = fd)

/-- The descriptor is in the set for `select` to test for writing. -/
def inWriteset (server : SelectServer) (fd : Nat) : Bool :=
  (List.finRange fdInitSize).any fun slot =>
    decide (0 < (server.buffer slot).connectFd ∧ (server.buffer slot).connectFd = fd) &&
      (server.buffer slot).readable

def maxfd (server : SelectServer) (listenFd : Nat) : Nat :=
  (List.finRange fdInitSize).foldl (fun maxfd slot => max maxfd (server.buffer slot).connectFd)
    listenFd

/-- A buffer with its connection is replaced. -/
def change (server : SelectServer) (slot : Fin fdInitSize) (buffer : Buffer)
    (connection : Connection) : SelectServer :=
  { server with
    buffer := Function.update server.buffer slot buffer
    connection := Function.update server.connection slot connection }

/-- The connection that `accept` returns. `buffer[FD_INIT_SIZE]` does not exist. -/
def acceptConnection (server : SelectServer) (fd : Nat) : Except SelectStop SelectServer :=
  if fd > fdInitSize then .error .tooManyConnections
  else if inside : fd < fdInitSize then
    let buffer := server.buffer ⟨fd, inside⟩
    if buffer.connectFd = 0 then
      .ok (server.change ⟨fd, inside⟩ { buffer with connectFd := fd } ⟨[], []⟩)
    else .error .tooManyConnections
  else .error .memory

/-- The call of `onSocketRead` for a descriptor, if it is readable. -/
def socketRead (server : SelectServer) (fd : Nat) :
    Option Recv → Except SelectStop (Int × SelectServer)
  | none => .ok (0, server)
  | some recv =>
    if inside : fd < fdInitSize then
      let (r, buffer) := (server.buffer ⟨fd, inside⟩).onSocketRead recv
      let connection := server.connection ⟨fd, inside⟩
      .ok (r, server.change ⟨fd, inside⟩ buffer
        { connection with received := connection.received ++ recv.bytes })
    else .error .memory

/-- The call of `onSocketWrite` for a descriptor, if it is writable. -/
def socketWrite (server : SelectServer) (fd : Nat) :
    Option Send → Except SelectStop (Int × SelectServer)
  | none => .ok (0, server)
  | some send =>
    if inside : fd < fdInitSize then
      let (r, buffer, sent) :=
        Buffer.onSocketWrite send.last send.counts (server.buffer ⟨fd, inside⟩)
      let connection := server.connection ⟨fd, inside⟩
      .ok (r, server.change ⟨fd, inside⟩ buffer
        { connection with sent := connection.sent ++ sent })
    else .error .memory

/-- Where `r` is not 0 the connection is closed. -/
def closeConnection (server : SelectServer) (fd : Nat) (r : Int) :
    Except SelectStop SelectServer :=
  if r = 0 then .ok server
  else if inside : fd < fdInitSize then
    let connection := server.connection ⟨fd, inside⟩
    let buffer := server.buffer ⟨fd, inside⟩
    .ok { server.change ⟨fd, inside⟩ { buffer with connectFd := 0 } connection with
      closed := server.closed ++ [connection] }
  else .error .memory

/-- The body of the loop over the descriptors. -/
def serve (listenFd : Nat) (read : Nat → Option Recv) (write : Nat → Option Send)
    (server : SelectServer) (fd : Nat) : Except SelectStop SelectServer :=
  if fd = listenFd then .ok server
  else do
    let (r, server) ← server.socketRead fd (read fd)
    let (r, server) ← (if r = 0 then server.socketWrite fd (write fd) else .ok (r, server))
    server.closeConnection fd r

/-- What is done when the listening socket is readable. -/
def listen (server : SelectServer) (answers : Round) : Except SelectStop SelectServer :=
  if answers.listening then
    match answers.accept with
    | none => .error .acceptFailed
    | some fd => server.acceptConnection fd
  else .ok server

/-- One round of the loop of `main`. The sets are those from before `accept`. -/
def round (listenFd : Nat) (server : SelectServer) (answers : Round) :
    Except SelectStop SelectServer :=
  if answers.fails then .error .selectError
  else do
    let accepted ← server.listen answers
    run (serve listenFd (fun fd => if server.inReadset fd then answers.read fd else none)
      fun fd => if server.inWriteset fd then answers.write fd else none)
      accepted (List.range (server.maxfd listenFd + 1))

end SelectServer

namespace Buffer

variable {buffer : Buffer} {c : Byte}

theorem length_waiting (buffer : Buffer) :
    buffer.waiting.length = buffer.writeIndex - buffer.readIndex := by
  have inside := buffer.inside
  rw [waiting, List.length_drop, List.length_take, buffer.size, Nat.min_eq_left inside]

theorem waiting_eq_nil (all : buffer.readIndex = buffer.writeIndex) : buffer.waiting = [] := by
  rw [← List.length_eq_zero_iff, length_waiting, all, Nat.sub_self]

theorem store_keeps (buffer : Buffer) (c : Byte) :
    (buffer.store c).connectFd = buffer.connectFd ∧
      (buffer.store c).readIndex = buffer.readIndex := by
  unfold store
  split
  case isTrue room => split <;> exact ⟨rfl, rfl⟩
  case isFalse full => split <;> exact ⟨rfl, rfl⟩

/-- Where there is room, a character goes behind those that wait. -/
theorem store_of_room (room : buffer.writeIndex < maxLine) :
    (buffer.store c).waiting = buffer.waiting ++ [rot13Char c] ∧
      (buffer.store c).writeIndex = buffer.writeIndex + 1 := by
  have ordered := buffer.ordered
  have bound : buffer.writeIndex < buffer.buffer.length := by rwa [buffer.size]
  have taken : (buffer.buffer.set buffer.writeIndex (rot13Char c)).take (buffer.writeIndex + 1) =
      buffer.buffer.take buffer.writeIndex ++ [rot13Char c] := by
    rw [List.take_succ_eq_append_getElem (by rwa [List.length_set]),
      List.take_set_of_le (Nat.le_refl _), List.getElem_set_self]
  have waits : ((buffer.buffer.set buffer.writeIndex (rot13Char c)).take
      (buffer.writeIndex + 1)).drop buffer.readIndex = buffer.waiting ++ [rot13Char c] := by
    rw [taken, List.drop_append_of_le_length, waiting]
    rw [List.length_take, Nat.min_eq_left (Nat.le_of_lt bound)]
    exact ordered
  simp only [store, dif_pos room]
  split
  case isTrue => exact ⟨waits, rfl⟩
  case isFalse => exact ⟨waits, rfl⟩

theorem stores_keep (buffer : Buffer) (bytes : Bytes) :
    (bytes.foldl store buffer).connectFd = buffer.connectFd ∧
      (bytes.foldl store buffer).readIndex = buffer.readIndex := by
  induction bytes generalizing buffer with
  | nil => exact ⟨rfl, rfl⟩
  | cons c bytes ih =>
    obtain ⟨number, start⟩ := ih (buffer.store c)
    exact ⟨number.trans (buffer.store_keeps c).1, start.trans (buffer.store_keeps c).2⟩

/-- Characters that all find room wait, rotated, behind those that waited. -/
theorem waiting_stores {bytes : Bytes} (room : buffer.writeIndex + bytes.length ≤ maxLine) :
    (bytes.foldl store buffer).waiting = buffer.waiting ++ bytes.map rot13Char := by
  induction bytes generalizing buffer with
  | nil => rw [List.foldl_nil, List.map_nil, List.append_nil]
  | cons c bytes ih =>
    rw [List.length_cons] at room
    obtain ⟨waits, index⟩ := @store_of_room buffer c (by omega)
    rw [List.foldl_cons, ih (by omega), waits, List.map_cons, List.append_assoc,
      List.singleton_append]

theorem onSocketRead_stores (buffer : Buffer) (recv : Recv) :
    (buffer.onSocketRead recv).2 = recv.bytes.foldl store buffer := by
  have stores : recv.chunks.foldl (fun buffer chunk => chunk.bytes.foldl store buffer) buffer =
      recv.bytes.foldl store buffer := by rw [Recv.bytes, List.foldl_flatMap]
  rw [onSocketRead, stores]
  cases recv.last with
  | closed => rfl
  | again => rfl
  | failed => rfl

theorem reuse_waiting (sent : ¬ buffer.readIndex < buffer.writeIndex) :
    buffer.reuse.waiting = [] ∧ buffer.waiting = [] ∧
      buffer.reuse.connectFd = buffer.connectFd := by
  have all : buffer.readIndex = buffer.writeIndex :=
    Nat.le_antisymm buffer.ordered (Nat.not_lt.mp sent)
  rw [reuse, if_pos all]
  exact ⟨rfl, waiting_eq_nil all, rfl⟩

theorem advance_waiting (buffer : Buffer) (result : Nat) :
    buffer.waiting.take result ++ (buffer.advance result).waiting = buffer.waiting := by
  have rest : (buffer.advance result).waiting = buffer.waiting.drop result := by
    have moved : (buffer.advance result).waiting = (buffer.buffer.take buffer.writeIndex).drop
        (buffer.readIndex + min result (buffer.writeIndex - buffer.readIndex)) := rfl
    rw [moved, waiting, List.drop_drop]
    by_cases short : result ≤ buffer.writeIndex - buffer.readIndex
    · rw [Nat.min_eq_left short]
    · have length : (buffer.buffer.take buffer.writeIndex).length ≤ buffer.writeIndex :=
        List.length_take_le _ _
      rw [List.drop_eq_nil_of_le (by omega), List.drop_eq_nil_of_le (by omega)]
  rw [rest, List.take_append_drop]

/-- What is sent and what waits then is what waited. -/
theorem onSocketWrite_sends (last : SendEnd) (counts : List Nat) (buffer : Buffer) :
    let (_, after, sent) := onSocketWrite last counts buffer
    sent ++ after.waiting = buffer.waiting ∧ after.connectFd = buffer.connectFd := by
  induction counts generalizing buffer with
  | nil =>
    by_cases more : buffer.readIndex < buffer.writeIndex
    · cases last with
      | again => simp [onSocketWrite, more]
      | failed => simp [onSocketWrite, more]
    · simp [onSocketWrite, more, reuse_waiting more]
  | cons result counts ih =>
    by_cases more : buffer.readIndex < buffer.writeIndex
    · obtain ⟨waits, same⟩ := ih (buffer.advance result)
      simp only [onSocketWrite, more, if_true]
      refine ⟨?_, same⟩
      rw [List.append_assoc, waits, advance_waiting]
    · simp [onSocketWrite, more, reuse_waiting more]

end Buffer

/-- What was sent comes first in what was received. -/
def Connection.Truthful (connection : Connection) : Prop :=
  connection.sent <+: connection.received.map rot13Char

/-- What was received was sent or waits in the buffer. -/
def Buffer.Holds (buffer : Buffer) (connection : Connection) : Prop :=
  connection.sent ++ buffer.waiting = connection.received.map rot13Char

theorem Buffer.Holds.truthful {buffer : Buffer} {connection : Connection}
    (holds : buffer.Holds connection) : connection.Truthful :=
  ⟨buffer.waiting, holds⟩

namespace SelectServer

/-- No connection was sent what is not its own, and what an open one is still to be sent is in
the buffer of its descriptor. -/
structure Apart (server : SelectServer) : Prop where
  numbered : ∀ slot, (server.buffer slot).connectFd = 0 ∨ (server.buffer slot).connectFd = slot
  holds : ∀ slot, 0 < (server.buffer slot).connectFd →
    (server.buffer slot).Holds (server.connection slot)
  truthful : ∀ slot, (server.connection slot).Truthful
  closed : ∀ connection ∈ server.closed, connection.Truthful

/-- A descriptor can be served: it is that of an open connection, and what it is sent finds
room in its buffer. -/
def Servable (server : SelectServer) (recv : Option Recv) (send : Option Send) (fd : Nat) : Prop :=
  recv.isSome ∨ send.isSome → ∃ slot : Fin fdInitSize, fd = slot ∧
    0 < (server.buffer slot).connectFd ∧
    ∀ got, recv = some got → (server.buffer slot).writeIndex + got.bytes.length ≤ maxLine

variable {server next : SelectServer} {slot : Fin fdInitSize} {buffer : Buffer}
variable {connection : Connection}

@[simp] theorem change_buffer (server : SelectServer) (slot : Fin fdInitSize) (buffer : Buffer)
    (connection : Connection) : (server.change slot buffer connection).buffer slot = buffer :=
  Function.update_self ..

@[simp] theorem change_connection (server : SelectServer) (slot : Fin fdInitSize)
    (buffer : Buffer) (connection : Connection) :
    (server.change slot buffer connection).connection slot = connection :=
  Function.update_self ..

/-- The buffers of other descriptors stay as they are. -/
theorem change_other {other : Fin fdInitSize} (differs : other ≠ slot) :
    (server.change slot buffer connection).buffer other = server.buffer other ∧
      (server.change slot buffer connection).connection other = server.connection other :=
  ⟨Function.update_of_ne differs .., Function.update_of_ne differs ..⟩

/-- What all buffers have with their connections is kept by a change that has it. -/
theorem change_forall (property : Fin fdInitSize → Buffer → Connection → Prop)
    (rest : ∀ other, property other (server.buffer other) (server.connection other))
    (changed : property slot buffer connection) (other : Fin fdInitSize) :
    property other ((server.change slot buffer connection).buffer other)
      ((server.change slot buffer connection).connection other) := by
  by_cases same : other = slot
  · subst same
    rwa [change_buffer, change_connection]
  · obtain ⟨buffers, connections⟩ := @change_other server slot buffer connection other same
    rw [buffers, connections]
    exact rest other

namespace Apart

theorem start (memory : Fin fdInitSize → Buffer) : Apart (start memory) :=
  ⟨fun _ => .inl rfl, fun _ positive => absurd positive (Nat.lt_irrefl 0),
    fun _ => List.nil_prefix, nofun⟩

/-- A buffer is replaced by one that holds what its connection is still to be sent. -/
theorem change (apart : server.Apart)
    (numbered : buffer.connectFd = 0 ∨ buffer.connectFd = slot)
    (holds : 0 < buffer.connectFd → buffer.Holds connection) (truthful : connection.Truthful) :
    (server.change slot buffer connection).Apart where
  numbered := change_forall
    (fun other buffer _ => buffer.connectFd = 0 ∨ buffer.connectFd = other) apart.numbered numbered
  holds := change_forall
    (fun _ buffer connection => 0 < buffer.connectFd → buffer.Holds connection) apart.holds holds
  truthful := change_forall (fun _ _ connection => connection.Truthful) apart.truthful truthful
  closed := apart.closed

end Apart

/-- A step for a descriptor that leaves the connections apart and the other buffers alone. -/
structure Keeps (slot : Fin fdInitSize) (server next : SelectServer) : Prop where
  apart : next.Apart
  others : ∀ other, other ≠ slot → next.buffer other = server.buffer other

theorem Keeps.refl (apart : server.Apart) : Keeps slot server server :=
  ⟨apart, fun _ _ => rfl⟩

theorem Keeps.trans {later : SelectServer} (first : Keeps slot server next)
    (second : Keeps slot next later) : Keeps slot server later :=
  ⟨second.apart, fun other differs => (second.others other differs).trans
    (first.others other differs)⟩

theorem Keeps.of_change (apart : (server.change slot buffer connection).Apart) :
    Keeps slot server (server.change slot buffer connection) :=
  ⟨apart, fun _ differs => (change_other differs).1⟩

/-- A connection begins where nothing waits in the buffer. -/
theorem acceptConnection_keeps (apart : server.Apart)
    (empty : (server.buffer slot).connectFd = 0 → (server.buffer slot).waiting = []) :
    server.acceptConnection slot = .error .tooManyConnections ∨
      (server.buffer slot).connectFd = 0 ∧
        ∃ next, server.acceptConnection slot = .ok next ∧ Keeps slot server next := by
  have small : ¬ (slot : Nat) > fdInitSize := Nat.not_lt.mpr (Nat.le_of_lt slot.isLt)
  rw [acceptConnection, if_neg small, dif_pos slot.isLt]
  by_cases free : (server.buffer slot).connectFd = 0
  · refine .inr ⟨free, _, if_pos free, ?_⟩
    exact .of_change (apart.change (.inr rfl) (fun _ => empty free) List.nil_prefix)
  · exact .inl (if_neg free)

/-- What is received is stored character by character. -/
theorem socketRead_some (server : SelectServer) (slot : Fin fdInitSize) (recv : Recv) :
    server.socketRead slot (some recv) =
      .ok (((server.buffer slot).onSocketRead recv).1, server.change slot
        (recv.bytes.foldl Buffer.store (server.buffer slot))
        { server.connection slot with
          received := (server.connection slot).received ++ recv.bytes }) := by
  rw [socketRead, dif_pos slot.isLt, ← Buffer.onSocketRead_stores]

theorem socketRead_keeps (apart : server.Apart) (positive : 0 < (server.buffer slot).connectFd)
    {recv : Option Recv} (fits : ∀ got, recv = some got →
      (server.buffer slot).writeIndex + got.bytes.length ≤ maxLine) :
    ∃ r next, server.socketRead slot recv = .ok (r, next) ∧ Keeps slot server next ∧
      0 < (next.buffer slot).connectFd := by
  cases recv with
  | none => exact ⟨0, server, rfl, .refl apart, positive⟩
  | some recv =>
    have number := ((server.buffer slot).stores_keep recv.bytes).1
    have waits := Buffer.waiting_stores (fits recv rfl)
    refine ⟨_, _, server.socketRead_some slot recv, .of_change (apart.change ?_ ?_ ?_), ?_⟩
    · rw [number]
      exact apart.numbered slot
    · intro _
      rw [Buffer.Holds, waits, ← List.append_assoc, apart.holds slot positive, List.map_append]
    · rw [Connection.Truthful, List.map_append]
      exact (apart.truthful slot).trans (List.prefix_append _ _)
    · rwa [change_buffer, number]

theorem socketWrite_keeps (apart : server.Apart) (positive : 0 < (server.buffer slot).connectFd)
    (send : Option Send) :
    ∃ r next, server.socketWrite slot send = .ok (r, next) ∧ Keeps slot server next := by
  cases send with
  | none => exact ⟨0, server, rfl, .refl apart⟩
  | some send =>
    obtain ⟨sends, number⟩ :=
      Buffer.onSocketWrite_sends send.last send.counts (server.buffer slot)
    have holds : (Buffer.onSocketWrite send.last send.counts (server.buffer slot)).2.1.Holds
        { server.connection slot with
          sent := (server.connection slot).sent ++
            (Buffer.onSocketWrite send.last send.counts (server.buffer slot)).2.2 } := by
      rw [Buffer.Holds, List.append_assoc, sends]
      exact apart.holds slot positive
    have success : server.socketWrite slot (some send) =
        .ok ((Buffer.onSocketWrite send.last send.counts (server.buffer slot)).1,
          server.change slot (Buffer.onSocketWrite send.last send.counts (server.buffer slot)).2.1
            { server.connection slot with
              sent := (server.connection slot).sent ++
                (Buffer.onSocketWrite send.last send.counts (server.buffer slot)).2.2 }) := by
      rw [socketWrite, dif_pos slot.isLt]
    refine ⟨_, _, success, .of_change (apart.change ?_ (fun _ => holds) holds.truthful)⟩
    rw [number]
    exact apart.numbered slot

theorem closeConnection_keeps (apart : server.Apart) (r : Int) :
    ∃ next, server.closeConnection slot r = .ok next ∧ Keeps slot server next := by
  by_cases zero : r = 0
  · exact ⟨server, by rw [closeConnection, if_pos zero], .refl apart⟩
  · have freed := @Apart.change server slot { server.buffer slot with connectFd := 0 }
      (server.connection slot) apart (.inl rfl) (fun positive => absurd positive (Nat.lt_irrefl 0))
      (apart.truthful slot)
    refine ⟨_, by rw [closeConnection, if_neg zero, dif_pos slot.isLt], ?_⟩
    refine ⟨⟨freed.numbered, freed.holds, freed.truthful, ?_⟩,
      fun _ differs => Function.update_of_ne differs ..⟩
    intro connection member
    rcases List.mem_append.mp member with earlier | last
    · exact apart.closed connection earlier
    · rw [List.mem_singleton.mp last]
      exact apart.truthful slot

section Serve

variable {listenFd : Nat} {read : Nat → Option Recv} {write : Nat → Option Send} {fd : Nat}

theorem serve_keeps (apart : server.Apart)
    (servable : fd ≠ listenFd → Servable server (read fd) (write fd) fd) :
    ∃ next, serve listenFd read write server fd = .ok next ∧ next.Apart ∧
      ∀ other : Fin fdInitSize, (other : Nat) ≠ fd → next.buffer other = server.buffer other := by
  by_cases listens : fd = listenFd
  · exact ⟨server, by rw [serve, if_pos listens], apart, fun _ _ => rfl⟩
  by_cases asked : (read fd).isSome ∨ (write fd).isSome
  · obtain ⟨slot, rfl, positive, fits⟩ := servable listens asked
    obtain ⟨r, middle, reads, first, still⟩ := socketRead_keeps apart positive fits
    by_cases zero : r = 0
    · obtain ⟨result, after, writes, second⟩ :=
        socketWrite_keeps first.apart still (write slot)
      obtain ⟨next, closes, third⟩ := @closeConnection_keeps _ slot second.apart result
      have keeps := (first.trans second).trans third
      refine ⟨next, ?_, keeps.apart, fun other differs => keeps.others other ?_⟩
      · simp only [serve, if_neg listens, reads, ok_bind, zero, if_true, writes, closes]
      · exact fun same => differs (congrArg Fin.val same)
    · obtain ⟨next, closes, third⟩ := @closeConnection_keeps _ slot first.apart r
      have keeps := first.trans third
      refine ⟨next, ?_, keeps.apart, fun other differs => keeps.others other ?_⟩
      · simp only [serve, if_neg listens, reads, ok_bind, zero, if_false, closes]
      · exact fun same => differs (congrArg Fin.val same)
  · have quiet : read fd = none ∧ write fd = none := by simpa using asked
    refine ⟨server, ?_, apart, fun _ _ => rfl⟩
    simp [serve, listens, quiet, socketRead, socketWrite, closeConnection]

/-- The loop over the descriptors serves each with its own buffer. -/
theorem serves {fds : List Nat} (single : fds.Nodup) (apart : server.Apart)
    (servable : ∀ fd ∈ fds, fd ≠ listenFd → Servable server (read fd) (write fd) fd) :
    ∃ final, run (serve listenFd read write) server fds = .ok final ∧ final.Apart := by
  induction fds generalizing server with
  | nil => exact ⟨server, rfl, apart⟩
  | cons fd fds ih =>
    obtain ⟨fresh, rest⟩ := List.nodup_cons.mp single
    obtain ⟨next, success, kept, others⟩ := serve_keeps apart (servable fd (List.mem_cons_self ..))
    obtain ⟨final, result, finished⟩ := ih rest kept (by
      intro later member differs asked
      obtain ⟨slot, rfl, ready⟩ := servable later (List.mem_cons_of_mem _ member) differs asked
      refine ⟨slot, rfl, ?_⟩
      rw [others slot fun same => fresh (same ▸ member)]
      exact ready)
    exact ⟨final, (run_cons success fds).trans result, finished⟩

end Serve

/-- The process does not end before the loop over the descriptors. -/
def Proceeds (server : SelectServer) (answers : Round) : Prop :=
  answers.fails = false ∧ (answers.listening = true →
    ∃ slot : Fin fdInitSize, answers.accept = some ↑slot ∧ (server.buffer slot).connectFd = 0)

/-- A round accepts a connection only for a descriptor that has a buffer in which nothing waits,
and what a descriptor receives finds room in its buffer. -/
structure Clean (listenFd : Nat) (server : SelectServer) (answers : Round) : Prop where
  accepts : ∀ fd, answers.fails = false → answers.listening = true → answers.accept = some fd →
    fd ≤ fdInitSize → ∃ slot : Fin fdInitSize, fd = slot ∧
      ((server.buffer slot).connectFd = 0 →
        (server.buffer slot).readIndex = (server.buffer slot).writeIndex)
  fits : ∀ (slot : Fin fdInitSize) recv, Proceeds server answers → (slot : Nat) ≠ listenFd →
    0 < (server.buffer slot).connectFd → answers.read slot = some recv →
    (server.buffer slot).writeIndex + recv.bytes.length ≤ maxLine

variable {listenFd : Nat} {answers : Round}

/-- An open connection keeps its buffer while another is accepted. -/
theorem listen_outcome (apart : server.Apart) (clean : Clean listenFd server answers)
    (selected : answers.fails = false) :
    (∃ stop, server.listen answers = .error stop ∧ stop ≠ .memory) ∨
      Proceeds server answers ∧ ∃ accepted, server.listen answers = .ok accepted ∧
        accepted.Apart ∧ ∀ slot, 0 < (server.buffer slot).connectFd →
          accepted.buffer slot = server.buffer slot := by
  cases listening : answers.listening with
  | false =>
    refine .inr ⟨⟨selected, fun listens => ?_⟩, server, ?_, apart, fun _ _ => rfl⟩
    · cases listening.symm.trans listens
    · simp [listen, listening]
  | true =>
    cases result : answers.accept with
    | none => exact .inl ⟨.acceptFailed, by simp [listen, listening, result], by decide⟩
    | some fd =>
      have accepts : server.listen answers = server.acceptConnection fd := by
        simp [listen, listening, result]
      rw [accepts]
      by_cases many : fd > fdInitSize
      · exact .inl ⟨.tooManyConnections, by rw [acceptConnection, if_pos many], by decide⟩
      · obtain ⟨slot, rfl, empty⟩ :=
          clean.accepts fd selected listening result (Nat.not_lt.mp many)
        rcases acceptConnection_keeps apart fun free => Buffer.waiting_eq_nil (empty free) with
          refused | ⟨free, next, success, keeps⟩
        · exact .inl ⟨_, refused, by decide⟩
        · refine .inr ⟨⟨selected, fun _ => ⟨slot, result, free⟩⟩, next, success, keeps.apart, ?_⟩
          intro other positive
          apply keeps.others
          rintro rfl
          omega

/-- The sets for `select` hold the descriptors of open connections. -/
theorem exists_slot_of_any {fd : Nat} {test : Fin fdInitSize → Bool} (apart : server.Apart)
    (asks : ∀ slot, test slot = true →
      0 < (server.buffer slot).connectFd ∧ (server.buffer slot).connectFd = fd)
    (found : (List.finRange fdInitSize).any test = true) :
    ∃ slot : Fin fdInitSize, fd = slot ∧ 0 < (server.buffer slot).connectFd := by
  obtain ⟨slot, _, holds⟩ := List.any_eq_true.mp found
  obtain ⟨positive, named⟩ := asks slot holds
  rcases apart.numbered slot with zero | same
  · omega
  · exact ⟨slot, named.symm.trans same, positive⟩

theorem exists_slot_of_readset {fd : Nat} (apart : server.Apart)
    (found : server.inReadset fd = true) :
    ∃ slot : Fin fdInitSize, fd = slot ∧ 0 < (server.buffer slot).connectFd :=
  exists_slot_of_any apart (fun slot holds => by simpa using holds) found

theorem exists_slot_of_writeset {fd : Nat} (apart : server.Apart)
    (found : server.inWriteset fd = true) :
    ∃ slot : Fin fdInitSize, fd = slot ∧ 0 < (server.buffer slot).connectFd :=
  exists_slot_of_any apart (fun slot holds => by
    simp only [Bool.and_eq_true, decide_eq_true_eq] at holds
    exact holds.1) found

/-- A clean round keeps the connections apart, or ends the process in an orderly way. -/
theorem round_outcome (apart : server.Apart) (clean : Clean listenFd server answers) :
    (∃ stop, round listenFd server answers = .error stop ∧ stop ≠ .memory) ∨
      ∃ next, round listenFd server answers = .ok next ∧ next.Apart := by
  by_cases fails : answers.fails = true
  · exact .inl ⟨.selectError, by rw [round, if_pos fails], by decide⟩
  rw [round, if_neg fails]
  rcases listen_outcome apart clean (by simpa using fails) with
    ⟨stop, failed, orderly⟩ | ⟨proceeds, accepted, success, kept, same⟩
  · exact .inl ⟨stop, by rw [failed, error_bind], orderly⟩
  · rw [success, ok_bind]
    refine .inr (serves List.nodup_range kept ?_)
    intro fd _ differs asked
    obtain ⟨slot, rfl, positive⟩ : ∃ slot : Fin fdInitSize, fd = slot ∧
        0 < (server.buffer slot).connectFd := by
      rcases asked with reads | writes
      · by_cases wanted : server.inReadset fd = true
        · exact exists_slot_of_readset apart wanted
        · simp [wanted] at reads
      · by_cases wanted : server.inWriteset fd = true
        · exact exists_slot_of_writeset apart wanted
        · simp [wanted] at writes
    refine ⟨slot, rfl, ?_⟩
    rw [same slot positive]
    refine ⟨positive, ?_⟩
    intro got reads
    by_cases wanted : server.inReadset slot = true
    · rw [if_pos wanted] at reads
      exact clean.fits slot got proceeds differs positive reads
    · rw [if_neg wanted] at reads
      cases reads

/-- In every run whose rounds are clean, what was sent on a connection comes first in what was
received on it since it was accepted, what an open connection is still to be sent waits, and no
buffer is used that does not exist. -/
theorem connections_apart (listenFd : Nat) (memory : Fin fdInitSize → Buffer)
    (rounds : List Round) (clean : Along (round listenFd) (Clean listenFd) (start memory) rounds) :
    Always (round listenFd) Apart (start memory) rounds ∧
      ∀ before, before <+: rounds →
        run (round listenFd) (start memory) before ≠ .error .memory := by
  have preserve (server : SelectServer) (answers : Round) (next : SelectServer)
      (apart : server.Apart) (clean : Clean listenFd server answers)
      (success : round listenFd server answers = .ok next) : next.Apart := by
    rcases round_outcome apart clean with ⟨stop, failed, _⟩ | ⟨other, result, kept⟩
    · cases failed.symm.trans success
    · cases result.symm.trans success
      exact kept
  have stops (server : SelectServer) (answers : Round) (stop : SelectStop)
      (apart : server.Apart) (clean : Clean listenFd server answers)
      (failure : round listenFd server answers = .error stop) : stop ≠ .memory := by
    rcases round_outcome apart clean with ⟨other, failed, orderly⟩ | ⟨next, success, _⟩
    · cases failed.symm.trans failure
      exact orderly
    · cases success.symm.trans failure
  constructor
  · intro before final within success
    exact run_invariant Apart preserve (.start memory) (clean.of_prefix within) success
  · intro before within failure
    have orderly := run_stops_along Apart preserve stops (.start memory) (clean.of_prefix within)
      failure
    exact orderly rfl

/-- A connection that is accepted where something waits is still to be sent what is not its
own. -/
theorem accepted_on_leftover (positive : 0 < (slot : Nat))
    (leftover : (server.buffer slot).waiting ≠ [])
    (success : server.acceptConnection slot = .ok next) : ¬ next.Apart := by
  have small : ¬ (slot : Nat) > fdInitSize := Nat.not_lt.mpr (Nat.le_of_lt slot.isLt)
  rw [acceptConnection, if_neg small, dif_pos slot.isLt] at success
  by_cases free : (server.buffer slot).connectFd = 0
  · simp only [Fin.eta, free, if_true, Except.ok.injEq] at success
    intro apart
    have holds := apart.holds slot
    rw [← success, change_buffer, change_connection] at holds
    exact leftover (holds positive)
  · simp only [Fin.eta, free, if_false] at success
    cases success

/-- A connection that receives more than its buffer has room for loses some of it. -/
theorem read_beyond_room (holds : (server.buffer slot).Holds (server.connection slot))
    {recv : Recv} (beyond : maxLine < (server.buffer slot).writeIndex + recv.bytes.length)
    {r : Int} (success : server.socketRead slot (some recv) = .ok (r, next)) :
    ¬ (next.buffer slot).Holds (next.connection slot) := by
  cases (server.socketRead_some slot recv).symm.trans success
  rw [change_buffer, change_connection]
  intro kept
  have before := congrArg List.length holds
  have after := congrArg List.length kept
  have start := ((server.buffer slot).stores_keep recv.bytes).2
  have inside := (recv.bytes.foldl Buffer.store (server.buffer slot)).inside
  have ordered := (server.buffer slot).ordered
  have later := (recv.bytes.foldl Buffer.store (server.buffer slot)).ordered
  simp only [List.length_append, List.length_map, Buffer.length_waiting] at before after
  omega

/-- Memory that holds zeros. -/
def zeroed : Buffer where
  connectFd := 0
  buffer := List.replicate maxLine 0
  size := List.length_replicate
  writeIndex := 0
  readIndex := 0
  ordered := Nat.le_refl 0
  inside := Nat.zero_le _
  readable := false

/-- A client connects, sends a line and gets it back. -/
theorem connections_apart_sample :
    let line : Recv := ⟨[⟨[104, 105, 10], List.cons_ne_nil _ _, by decide⟩], .again⟩
    let rounds : List Round :=
      [⟨false, true, some 5, fun _ => none, fun _ => none⟩,
        ⟨false, false, none, fun _ => some line, fun _ => none⟩,
        ⟨false, false, none, fun _ => none, fun _ => some ⟨[2, 1], .again⟩⟩]
    ∃ final, run (round 3) (start fun _ => zeroed) rounds = .ok final ∧
      (final.connection ⟨5, by decide⟩).sent = [117, 118, 10] ∧ final.Apart := by
  intro line rounds
  have served : (match run (round 3) (start fun _ => zeroed) rounds with
      | .ok final => decide ((final.connection ⟨5, by decide⟩).sent = [117, 118, 10])
      | .error _ => false) = true := by decide +kernel
  split at served
  case h_2 => cases served
  rename_i final result
  refine ⟨final, result, of_decide_eq_true served, ?_⟩
  refine (connections_apart 3 (fun _ => zeroed) rounds ?_).1 rounds final List.prefix_rfl result
  refine ⟨⟨?_, nofun⟩, ?_⟩
  · intro fd _ _ accepts _
    cases accepts
    exact ⟨⟨5, by decide⟩, rfl, fun _ => rfl⟩
  · intro next first
    refine ⟨⟨nofun, ?_⟩, ?_⟩
    · intro slot recv _ _ _ reads
      have empty : (match round 3 (start fun _ => zeroed)
            ⟨false, true, some 5, fun _ => none, fun _ => none⟩ with
          | .ok next => (List.finRange fdInitSize).all fun slot =>
            decide ((next.buffer slot).writeIndex = 0)
          | .error _ => false) = true := by decide +kernel
      rw [first] at empty
      have index := of_decide_eq_true (List.all_eq_true.mp empty slot (List.mem_finRange slot))
      cases reads
      rw [index]
      decide
    · intro later _
      exact ⟨⟨nofun, nofun⟩, fun _ _ => trivial⟩

/-- A client sends a line and closes, and the next one gets the line. -/
theorem line_sent_to_next :
    ¬ ∀ listenFd memory rounds final,
      run (round listenFd) (start memory) rounds = .ok final →
      ∀ slot, (final.connection slot).sent <+: (final.connection slot).received.map rot13Char := by
  intro truthful
  have delivered : (match run (round 3) (start fun _ => zeroed)
      [⟨false, true, some 5, fun _ => none, fun _ => none⟩,
        ⟨false, false, none,
          fun _ => some ⟨[⟨[104, 105, 10], List.cons_ne_nil _ _, by decide⟩], .closed⟩,
          fun _ => none⟩,
        ⟨false, true, some 5, fun _ => none, fun _ => none⟩,
        ⟨false, false, none, fun _ => none, fun _ => some ⟨[3], .again⟩⟩] with
      | .ok final => decide ((final.connection ⟨5, by decide⟩).received = [] ∧
          (final.connection ⟨5, by decide⟩).sent = [117, 118, 10])
      | .error _ => false) = true := by decide +kernel
  split at delivered
  case h_1 final result =>
    obtain ⟨received, sent⟩ := of_decide_eq_true delivered
    have first := truthful 3 _ _ final result ⟨5, by decide⟩
    rw [received, sent] at first
    simp at first
  case h_2 => cases delivered

end SelectServer

end Yolanda.Chapters
