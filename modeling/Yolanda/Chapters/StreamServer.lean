import Yolanda.Lib.FrameStream
import Yolanda.Lib.LineReader

/-! The server of chapter 16, which prints the messages of one client, and the places the
readers of lines and frames store to. -/

namespace Yolanda.Chapters

open Foundation Lib

/-- The calls of `error(1, ..)` in the loop of the server. -/
inductive ServerExit where
  /-- `error read message` -/
  | readError
  /-- `client closed` -/
  | clientClosed
  deriving DecidableEq

/-- The connection of the server, its buffer, and how it ended once it has. -/
structure StreamServer where
  source : Source Byte
  buf : Cells Byte
  exit : Option ServerExit

/-- The loop of `main`. -/
def streamServerLoop : Loop StreamServer Fault where
  done server := server.exit.isSome
  body server := do
    let call ← readMessage server.source server.buf 128
    if intOfSize call.returned < 0 then
      return ⟨call.source, call.buffer, some .readError⟩
    else if intOfSize call.returned = 0 then
      return ⟨call.source, call.buffer, some .clientClosed⟩
    else return ⟨call.source, call.buffer.put (intOfSize call.returned) 0, none⟩
  unfinished := .unfinished

/-- The server, from its first message on, with `char buf[128]`. -/
def streamServer (source : Source Byte) : Except Fault StreamServer :=
  streamServerLoop.run (source.stream.length + 1) ⟨source, .allocate 128, none⟩

/-- In front of its first frame without a payload or with a large one, the stream has a frame
with a payload of 128 bytes. -/
inductive MeetsFull : Bytes → Prop where
  | here (message : Message) (full : message.data.length = 128) (rest : Bytes) :
      MeetsFull (message.encode ++ rest)
  | later (message : Message) (some : 1 ≤ message.data.length) (fits : message.data.length ≤ 128)
      (meets : MeetsFull rest) : MeetsFull (message.encode ++ rest)

theorem meetsFull_message {message : Message} {rest : Bytes} (some : 1 ≤ message.data.length)
    (fits : message.data.length ≤ 128) :
    MeetsFull (message.encode ++ rest) ↔ message.data.length = 128 ∨ MeetsFull rest := by
  constructor
  · intro meets
    generalize whole : message.encode ++ rest = bytes at meets
    cases meets with
    | here other full => exact .inl ((encode_unique whole).1.trans full)
    | @later behind other _ _ meets =>
      have same := (encode_unique whole).2
      exact .inr (same ▸ meets)
  · rintro (full | meets)
    · exact .here message full rest
    · exact .later message some fits meets

/-- A stream in front of such a frame begins with a whole frame that the server takes. -/
theorem MeetsFull.begins {source : Source Byte} (meets : MeetsFull source.stream) :
    1 ≤ announced source ∧ announced source ≤ 128 ∧
      8 + announced source ≤ source.stream.length := by
  obtain ⟨message, rest, some, fits, sent⟩ : ∃ (message : Message) (rest : Bytes),
      1 ≤ message.data.length ∧ message.data.length ≤ 128 ∧
        source.stream = message.encode ++ rest := by
    generalize source.stream = bytes at meets
    cases meets with
    | here message full rest => exact ⟨message, rest, by omega, by omega, rfl⟩
    | @later rest message some fits _ => exact ⟨message, rest, some, fits, rfl⟩
  rw [Message.encode, List.append_assoc] at sent
  have announces := announced_header message.dataSize sent
  have total := length_header message.typeSize sent
  rw [List.length_append] at total
  omega

/-- A frame of 128 bytes was met if something was stored outside of the buffer, and else will
be met if the stream to come has one. -/
structure ServerInvariant (source : Source Byte) (server : StreamServer) : Prop where
  size : server.buf.cells.length = 128
  meets : MeetsFull source.stream ↔
    server.buf.stray ≠ [] ∨ (server.exit = none ∧ MeetsFull server.source.stream)

/-- The number of rounds that the server can still make. -/
def StreamServer.measure (server : StreamServer) : Nat :=
  if server.exit.isSome then 0 else server.source.stream.length + 1

section Server

variable {source : Source Byte} {server : StreamServer}

theorem serverLoop_broken {rest : Source Byte} {buf : Cells Byte}
    (result : readMessage server.source server.buf 128 = .ok ⟨sizeOfInt (-1), rest, buf⟩) :
    streamServerLoop.body server = .ok ⟨rest, buf, some .readError⟩ := by
  unfold streamServerLoop
  dsimp only
  rw [result, ok_bind, intOfSize_sizeOfInt_minus]
  rfl

theorem serverLoop_closed {rest : Source Byte} {buf : Cells Byte}
    (result : readMessage server.source server.buf 128 = .ok ⟨0, rest, buf⟩) :
    streamServerLoop.body server = .ok ⟨rest, buf, some .clientClosed⟩ := by
  unfold streamServerLoop
  dsimp only
  rw [result, ok_bind, intOfSize_zero]
  rfl

theorem serverLoop_served {n : Nat} {rest : Source Byte} {buf : Cells Byte} (positive : 0 < n)
    (small : n < 2 ^ 31) (result : readMessage server.source server.buf 128 = .ok ⟨n, rest, buf⟩) :
    streamServerLoop.body server = .ok ⟨rest, buf.put n 0, none⟩ := by
  unfold streamServerLoop
  dsimp only
  rw [result, ok_bind, intOfSize_of_lt small, if_neg (by omega), if_neg (by omega)]
  rfl

/-- A stream that does not begin with a frame that fits does not meet one of 128 bytes. -/
theorem not_meetsFull {source : Source Byte} (unfit : announced source = 0 ∨
    128 < announced source ∨ source.stream.length < 8 + announced source) :
    ¬ MeetsFull source.stream := by
  intro meets
  have start := meets.begins
  omega

/-- A round in which the server ends does not meet such a frame. -/
theorem ServerInvariant.ends (invariant : ServerInvariant source server) {rest : Source Byte}
    {buf : Cells Byte} {exit : ServerExit} (size : buf.cells.length = server.buf.cells.length)
    (kept : buf.stray = server.buf.stray) (quiet : ¬ MeetsFull server.source.stream) :
    ServerInvariant source ⟨rest, buf, some exit⟩ := by
  refine ⟨size.trans invariant.size, ?_⟩
  rw [invariant.meets, kept]
  simp [quiet]

theorem serverLoop_advance (invariant : ServerInvariant source server)
    (running : streamServerLoop.done server = false) :
    ∃ next, streamServerLoop.body server = .ok next ∧ ServerInvariant source next ∧
      next.measure < server.measure := by
  have open' : server.exit = none := by
    simpa [streamServerLoop] using running
  have size := invariant.size
  have cut (short : server.source.stream.length ≤ 8 + 128) :
      (server.buf.putAll 0 (server.source.stream.drop 8)).stray = server.buf.stray := by
    apply Cells.stray_putAll
    rw [List.length_drop, size]
    omega
  have fewer : ∀ {rest : Source Byte} {buf : Cells Byte} {exit : ServerExit},
      StreamServer.measure ⟨rest, buf, some exit⟩ < server.measure := by
    intro rest buf exit
    rw [StreamServer.measure, StreamServer.measure, open']
    exact Nat.succ_pos _
  obtain ⟨call, result, outcome⟩ := readMessage_outcome server.source server.buf 128
  cases outcome with
  | cut short sound =>
    have quiet := not_meetsFull (show announced server.source = 0 ∨ _ by omega)
    exact ⟨_, serverLoop_closed result, invariant.ends rfl rfl quiet, fewer⟩
  | @broken rest short fault =>
    have quiet := not_meetsFull (show announced server.source = 0 ∨ _ by omega)
    exact ⟨_, serverLoop_broken result, invariant.ends rfl rfl quiet, fewer⟩
  | @refused rest header large left same =>
    have quiet := not_meetsFull (show announced server.source = 0 ∨ _ by omega)
    exact ⟨_, serverLoop_broken result, invariant.ends rfl rfl quiet, fewer⟩
  | @wrapped rest header fits wide => exact absurd (wide.trans fits) (by decide)
  | @complete rest fits small enough left same =>
    have payload : ((server.source.stream.drop 8).take (announced server.source)).length ≤ 128 :=
      (List.length_take_le ..).trans fits
    have kept := Cells.stray_putAll (show 0 + _ ≤ server.buf.cells.length by
      rw [size, Nat.zero_add]
      exact payload)
    by_cases empty : announced server.source = 0
    · rw [empty] at result
      refine ⟨_, serverLoop_closed result, invariant.ends (Cells.length_putAll ..) ?_
        (not_meetsFull (.inl empty)), fewer⟩
      rw [← kept, empty]
    · refine ⟨_, serverLoop_served (Nat.pos_of_ne_zero empty) small result, ⟨?_, ?_⟩, ?_⟩
      · rw [Cells.length_put, Cells.length_putAll, size]
      · obtain ⟨message, bytes, sent⟩ := exists_message enough
        rw [← left] at sent
        have further : MeetsFull server.source.stream ↔
            announced server.source = 128 ∨ MeetsFull rest.stream := by
          rw [sent, meetsFull_message (by omega) (by omega), bytes]
        rw [invariant.meets, further, open']
        rcases Nat.lt_or_eq_of_le fits with inside | full
        · have room : announced server.source < (server.buf.putAll 0
              ((server.source.stream.drop 8).take (announced server.source))).cells.length := by
            rw [Cells.length_putAll, size]
            exact inside
          dsimp only
          rw [Cells.stray_put room, kept]
          simp [inside.ne]
        · have outside : ((server.buf.putAll 0 ((server.source.stream.drop 8).take
              (announced server.source))).cells.length : Int) ≤ (announced server.source : Int) := by
            rw [Cells.length_putAll, size, full]
          dsimp only
          rw [Cells.put_outside (.inr outside)]
          simp [full]
      · rw [StreamServer.measure, StreamServer.measure, open']
        simp only [Option.isSome_none, Bool.false_eq_true, if_false]
        rw [left, List.length_drop]
        omega
  | ended header fits small short sound =>
    exact ⟨_, serverLoop_closed result, invariant.ends (Cells.length_putAll ..) (cut (by omega))
      (not_meetsFull (.inr (.inr short))), fewer⟩
  | @failed rest header fits small short fault =>
    exact ⟨_, serverLoop_broken result, invariant.ends (Cells.length_putAll ..) (cut (by omega))
      (not_meetsFull (.inr (.inr short))), fewer⟩

/-- The server ends, and has stored outside of its buffer if and only if it met a frame of 128
bytes. -/
theorem streamServer_inside_iff (source : Source Byte) :
    (∃ final, streamServer source = .ok final ∧ final.buf.stray = []) ↔
      ¬ MeetsFull source.stream := by
  have start : ServerInvariant source ⟨source, .allocate 128, none⟩ := by
    refine ⟨List.length_replicate, ?_⟩
    simp [Cells.allocate]
  obtain ⟨final, result, invariant, exits⟩ := Loop.run_total _ StreamServer.measure
    (fun server => serverLoop_advance) start (Nat.le_refl _)
  have run : streamServer source = .ok final := result
  have ended : final.exit ≠ none := by
    intro open'
    have some : final.exit.isSome = true := exits
    rw [open'] at some
    cases some
  have meets : MeetsFull source.stream ↔ final.buf.stray ≠ [] := by
    rw [invariant.meets]
    simp [ended]
  rw [meets, not_not, run]
  constructor
  · rintro ⟨other, same, inside⟩
    cases same
    exact inside
  · exact fun inside => ⟨final, rfl, inside⟩

/-- In a round of the server, the exit `client closed` means a clean end of the stream exactly
for the streams on which `read_message` tells it. -/
theorem client_closed_truthful_iff (server : StreamServer) :
    (∀ next, streamServerLoop.body server = .ok next → next.exit = some .clientClosed →
      ClosedCleanly server.source) ↔ Distinguished server.source 128 := by
  rw [← returned_truthful_iff server.source server.buf 128]
  obtain ⟨call, result, outcome⟩ := readMessage_outcome server.source server.buf 128
  rcases call with ⟨returned, rest, buf⟩
  rcases outcome.returned_cases with zero | minus | ⟨positive, small⟩
  · subst zero
    rw [serverLoop_closed result, result]
    constructor
    · rintro truthful other same _
      exact truthful _ rfl rfl
    · rintro truthful next same _
      exact truthful _ rfl rfl
  · subst minus
    rw [serverLoop_broken result, result]
    constructor
    · rintro _ other same zero
      cases same
      exact absurd zero (show sizeOfInt (-1) ≠ 0 by decide)
    · rintro _ next same closed
      cases same
      cases closed
  · rw [serverLoop_served positive small result, result]
    constructor
    · rintro _ other same zero
      cases same
      exact absurd zero positive.ne'
    · rintro _ next same closed
      cases same
      cases closed

end Server

/-- `read_message` returns 0, and the server takes the exit `client closed`, at a clean end of
the stream only, exactly for the streams on which frames and their ends can be told apart. -/
theorem end_of_stream_truthful_iff (source : Source Byte) (buffer : Cells Byte) (length : Nat)
    (server : StreamServer) :
    (∀ call, readMessage source buffer length = .ok call → call.returned = 0 →
        ClosedCleanly source) ∧
      (∀ next, streamServerLoop.body server = .ok next → next.exit = some .clientClosed →
        ClosedCleanly server.source) ↔
      Distinguished source length ∧ Distinguished server.source 128 := by
  rw [returned_truthful_iff, client_closed_truthful_iff]

/-- The readers store inside of a buffer of `length` bytes, and the server inside of its own,
exactly when the bytes they receive do not begin with a line of `length` bytes, and the server
does not come to a frame of 128 bytes. -/
theorem readers_inside_iff {length : Nat} {buffer : Cells Byte} (source : Source Byte)
    (ahead : ReadAhead) (whole : buffer.cells.length = length) (clean : buffer.stray = [])
    (large : 2 ≤ length) :
    ((∃ call, readline source ahead buffer length = .ok call ∧ call.buffer.stray = []) ∧
      (∃ returned rest filled, readline2 source buffer length = .ok (returned, rest, filled) ∧
        filled.stray = []) ∧
      ∃ final, streamServer source = .ok final ∧ final.buf.stray = []) ↔
      ¬ FillsBuffer source length ∧ ¬ MeetsFull source.stream := by
  have line := readline_inside whole clean (show 1 ≤ length by omega) source ahead
  rw [and_iff_right line, readline2_inside_iff whole clean, streamServer_inside_iff]

/-- A line shorter than the buffer, and a short frame. -/
theorem readers_inside_sample :
    (∃ call, readline twoLines noReadAhead (.allocate 3) 3 = .ok call ∧ call.buffer.stray = []) ∧
      (∃ returned rest filled, readline2 twoLines (.allocate 3) 3 = .ok (returned, rest, filled) ∧
        filled.stray = []) ∧
      ∃ final, streamServer twoLines = .ok final ∧ final.buf.stray = [] := by
  apply (readers_inside_iff twoLines noReadAhead rfl rfl (by decide)).mpr
  constructor
  · rintro ⟨body, more, clear, fills, split⟩
    have alone : newline ∉ ([97] : Bytes) := by decide
    have line : twoLines.heard = [97] ++ newline :: [98, 10] := rfl
    have short := (first_mark_unique alone clear (line.symm.trans split)).1
    rw [← short] at fills
    cases fills
  · intro meets
    have start := meets.begins
    have short : twoLines.stream.length = 4 := rfl
    omega

/-- The client sends a line of 128 bytes. -/
def fullFrame : Source Byte :=
  Source.putBack (htonl 128 ++ [1, 0, 0, 0] ++ List.replicate 128 97) []

/-- The terminators of `readline_2` and of the server are stored one byte behind their buffers. -/
theorem terminators_outside :
    (readline2 [.piece 97 [10]] (.allocate 2) 2).toOption.map (fun call => call.2.2.stray) =
      some [2] ∧
    (streamServer fullFrame).toOption.map (fun server => server.buf.stray) = some [128] := by
  constructor
  · decide +kernel
  · decide +kernel

end Yolanda.Chapters
