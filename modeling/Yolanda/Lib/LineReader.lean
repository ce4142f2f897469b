import Yolanda.Foundation.Cells
import Yolanda.Foundation.Lines
import Yolanda.Foundation.Loop
import Yolanda.Foundation.Pieces
import Yolanda.Machine

/-! `readline` and `readline_2` of the C library: lines up to their newline, read from a stream
that comes in pieces. -/

namespace Yolanda.Lib

open Foundation

/-- `'\n'` -/
def newline : Byte := 10

/-- The static variables of `readline`: a block that is read ahead, and the place in it. -/
structure ReadAhead where
  readBuffer : Bytes
  bufferPointer : Nat
  deriving DecidableEq

/-- The variables of `readline`, and its result once it has one. -/
structure LineScan where
  source : Source Byte
  ahead : ReadAhead
  nleft : Int
  buffer : Cells Byte
  pointer : Nat
  length : Nat
  result : Option Nat

/-- The part of the loop of `readline` behind the refill: one byte goes to the buffer. -/
def LineScan.takeByte (scan : LineScan) : Except Fault LineScan :=
  match scan.ahead.readBuffer[scan.ahead.bufferPointer]? with
  | none => .error .memory
  | some c => .ok { scan with
      ahead := { scan.ahead with bufferPointer := scan.ahead.bufferPointer + 1 }
      nleft := scan.nleft - 1
      buffer := if c = newline then (scan.buffer.put scan.pointer c).put (scan.pointer + 1 : Nat) 0
        else scan.buffer.put scan.pointer c
      pointer := scan.pointer + 1
      result := if c = newline then some (scan.pointer + 1) else none }

/-- The loop of `readline`, whose test counts `length` down. -/
def readlineLoop : Loop LineScan Fault where
  done scan := scan.result.isSome
  body scan :=
    if sizeSub scan.length 1 = 0 then
      .ok { scan with length := sizeSub scan.length 1, result := some (sizeOfInt (-1)) }
    else if scan.nleft ≤ 0 then
      match scan.source.receive 512 with
      | (.failed, source) => .ok { scan with
          source
          length := sizeSub scan.length 1
          result := some (sizeOfInt (-1)) }
      | (.interrupted, source) => .ok { scan with
          source
          length := sizeSub scan.length 1 + 1 }
      | (.items [], source) => .ok { scan with
          source
          length := sizeSub scan.length 1
          result := some 0 }
      | (.items data, source) => LineScan.takeByte { scan with
          source
          length := sizeSub scan.length 1
          ahead := ⟨data ++ scan.ahead.readBuffer.drop data.length, 0⟩
          nleft := data.length }
    else LineScan.takeByte { scan with length := sizeSub scan.length 1 }
  unfinished := .unfinished

/-- What a call of `readline` returns, with what it leaves behind. -/
structure LineCall where
  returned : Nat
  source : Source Byte
  ahead : ReadAhead
  buffer : Cells Byte
  deriving DecidableEq

/-- `readline`. The variable `nleft` is not static, so nothing is left of earlier calls. -/
def readline (source : Source Byte) (ahead : ReadAhead) (buffer : Cells Byte) (length : Nat) :
    Except Fault LineCall := do
  let final ← readlineLoop.run (source.attempts + 1) ⟨source, ahead, 0, buffer, 0, length, none⟩
  return {
    returned := final.result.getD 0
    source := final.source
    ahead := final.ahead
    buffer := final.buffer }

/-- The ways in which `readline` can return. The bytes that are lost were received and not
used. -/
inductive LineOutcome (source : Source Byte) (buffer : Cells Byte) (length : Nat) :
    LineCall → Prop where
  | line {rest : Source Byte} {ahead : ReadAhead} (body lost : Bytes) (clear : newline ∉ body)
      (fits : body.length + 1 < length)
      (split : source.stream = body ++ newline :: (lost ++ rest.stream))
      (same : rest.fails = source.fails)
      (tidy : source.Within 512 → rest.Within 512 ∧
        (source.EndsAt newline ↔ lost = [] ∧ rest.EndsAt newline)) :
      LineOutcome source buffer length
        ⟨body.length + 1, rest, ahead, buffer.putAll 0 (body ++ [newline, 0])⟩
  | full {rest : Source Byte} {ahead : ReadAhead} (body lost : Bytes) (clear : newline ∉ body)
      (fills : body.length + 1 = length) (split : source.stream = body ++ (lost ++ rest.stream)) :
      LineOutcome source buffer length ⟨sizeOfInt (-1), rest, ahead, buffer.putAll 0 body⟩
  | ended {ahead : ReadAhead} (clear : newline ∉ source.stream)
      (short : source.stream.length + 1 < length) (sound : source.fails = false) :
      LineOutcome source buffer length ⟨0, [], ahead, buffer.putAll 0 source.stream⟩
  | failed {rest : Source Byte} {ahead : ReadAhead} (clear : newline ∉ source.stream)
      (short : source.stream.length + 1 < length) (fault : source.fails = true) :
      LineOutcome source buffer length
        ⟨sizeOfInt (-1), rest, ahead, buffer.putAll 0 source.stream⟩

/-- The bytes stored so far hold no newline, and those read ahead follow them in the stream. -/
structure Scanned (source : Source Byte) (buffer : Cells Byte) (bytes unread : Bytes)
    (scan : LineScan) : Prop where
  stored : scan.buffer = buffer.putAll 0 bytes
  pointer : scan.pointer = bytes.length
  clear : newline ∉ bytes
  ahead : unread <+: scan.ahead.readBuffer.drop scan.ahead.bufferPointer
  nleft : scan.nleft = unread.length
  split : source.stream = bytes ++ (unread ++ scan.source.stream)
  same : scan.source.fails = source.fails
  tidy : source.Within 512 → scan.source.Within 512 ∧
    (source.EndsAt newline ↔ newline ∉ unread.dropLast ∧ scan.source.EndsAt newline)

/-- Before a result there are bytes scanned, and room for one more and the terminator. -/
def LineInvariant (source : Source Byte) (buffer : Cells Byte) (length : Nat) (scan : LineScan) :
    Prop :=
  match scan.result with
  | none => ∃ bytes unread, Scanned source buffer bytes unread scan ∧
      bytes.length + scan.length = length ∧ 1 ≤ scan.length
  | some returned =>
    LineOutcome source buffer length ⟨returned, scan.source, scan.ahead, scan.buffer⟩

/-- The number of rounds that the loop can still make. -/
def LineScan.measure (scan : LineScan) : Nat :=
  scan.source.attempts + scan.nleft.toNat + if scan.result.isSome then 0 else 1

section Readline

variable {source : Source Byte} {buffer : Cells Byte} {bytes unread : Bytes} {scan : LineScan}
variable {length : Nat} {c : Byte}

/-- A newline is stored together with the terminator behind it. -/
theorem putAll_line (buffer : Cells Byte) (bytes : Bytes) :
    ((buffer.putAll 0 bytes).put bytes.length newline).put (bytes.length + 1 : Nat) 0 =
      buffer.putAll 0 (bytes ++ [newline, 0]) := by
  rw [Cells.putAll_append, Nat.zero_add]
  rfl

theorem takeByte_spec (scanned : Scanned source buffer bytes (c :: unread) scan)
    (room : bytes.length + scan.length + 1 = length) (left : 1 ≤ scan.length) :
    ∃ next, scan.takeByte = .ok next ∧ LineInvariant source buffer length next ∧
      next.source = scan.source ∧ next.nleft = unread.length := by
  have found : scan.ahead.readBuffer[scan.ahead.bufferPointer]? = some c := by
    obtain ⟨more, same⟩ := scanned.ahead
    rw [← List.head?_drop, ← same]
    rfl
  have further : unread <+: scan.ahead.readBuffer.drop (scan.ahead.bufferPointer + 1) := by
    obtain ⟨more, same⟩ := scanned.ahead
    rw [← List.drop_drop, ← same]
    exact List.prefix_append unread more
  have less : scan.nleft - 1 = unread.length := by
    rw [scanned.nleft, List.length_cons]
    omega
  have place := scanned.pointer
  unfold LineScan.takeByte
  rw [found]
  refine ⟨_, rfl, ?_, rfl, less⟩
  unfold LineInvariant
  by_cases ends : c = newline
  · subst ends
    dsimp only
    rw [if_pos rfl, if_pos rfl, place, scanned.stored]
    dsimp only
    rw [putAll_line]
    apply LineOutcome.line bytes unread scanned.clear (by omega) scanned.split scanned.same
    intro within
    obtain ⟨small, iff⟩ := scanned.tidy within
    refine ⟨small, iff.trans (and_congr_left fun _ => ?_)⟩
    cases unread with
    | nil => simp
    | cons next unread => simp
  · dsimp only
    rw [if_neg ends, if_neg ends]
    dsimp only
    refine ⟨bytes ++ [c], unread, ⟨?_, ?_, ?_, further, less, ?_, scanned.same, ?_⟩, ?_, left⟩
    · rw [Cells.putAll_concat, scanned.stored, place]
    · rw [List.length_append, place]
      rfl
    · rw [List.mem_append, List.mem_singleton]
      rintro (member | same)
      · exact scanned.clear member
      · exact ends same.symm
    · rw [List.append_assoc]
      exact scanned.split
    · intro within
      obtain ⟨small, iff⟩ := scanned.tidy within
      refine ⟨small, iff.trans (and_congr_left fun _ => ?_)⟩
      cases unread with
      | nil => simp
      | cons next unread =>
        rw [List.dropLast_cons_cons, List.mem_cons, not_or, and_iff_right (Ne.symm ends)]
    · rw [List.length_append, List.length_singleton]
      omega

/-- A round that has to receive. -/
theorem refill_advance (scanned : Scanned source buffer bytes [] scan) (open' : scan.result = none)
    (room : bytes.length + scan.length = length) (left : 2 ≤ scan.length)
    (refill : scan.nleft ≤ 0) :
    ∃ next, readlineLoop.body scan = .ok next ∧ LineInvariant source buffer length next ∧
      next.measure < scan.measure := by
  have counted : sizeSub scan.length 1 = scan.length - 1 := sizeSub_of_le (by omega)
  have receipt := Source.receive_receipt (show 0 < 512 by decide) scan.source
  have within := fun small => @Source.receive_within Byte 512 scan.source small newline
  simp only [readlineLoop, counted]
  rw [if_neg (show ¬ scan.length - 1 = 0 by omega), if_pos refill]
  rcases attempt : scan.source.receive 512 with ⟨received, rest⟩
  rw [attempt] at receipt within
  dsimp only at receipt within ⊢
  have total := scanned.split
  have same := scanned.same
  rw [List.nil_append] at total
  cases receipt with
  | ended before after =>
    subst after
    rw [before] at total same
    rw [Source.stream, List.append_nil] at total
    refine ⟨_, rfl, ?_, ?_⟩
    · rw [LineInvariant]
      dsimp only
      rw [scanned.stored, ← total]
      apply LineOutcome.ended
      · rw [total]
        exact scanned.clear
      · rw [total]
        omega
      · exact same.symm
    · simp [LineScan.measure, open', before]
  | @items items some fits parts kept fewer =>
    obtain ⟨first, more, rfl⟩ := List.exists_cons_of_ne_nil some
    have moved : Scanned source buffer bytes (first :: more) { scan with
        source := rest
        length := scan.length - 1
        ahead := ⟨first :: more ++ scan.ahead.readBuffer.drop (first :: more).length, 0⟩
        nleft := (first :: more).length } := by
      refine ⟨scanned.stored, scanned.pointer, scanned.clear, List.prefix_append _ _, rfl, ?_,
        kept.trans same, ?_⟩
      · rw [total, parts]
      · intro small
        obtain ⟨inner, iff⟩ := scanned.tidy small
        obtain ⟨later, parted⟩ := within inner
        exact ⟨later, iff.trans (by simpa [Received.list] using parted)⟩
    obtain ⟨next, taken, invariant, source', nleft'⟩ := takeByte_spec moved
      (show bytes.length + (scan.length - 1) + 1 = length by omega)
      (show 1 ≤ scan.length - 1 by omega)
    refine ⟨next, taken, invariant, ?_⟩
    rw [List.length_cons] at fewer
    simp only [LineScan.measure, source', nleft', open', Option.isSome_none, Bool.false_eq_true,
      if_false]
    split <;> omega
  | interrupted kept same' fewer =>
    refine ⟨_, rfl, ?_, ?_⟩
    · rw [LineInvariant]
      dsimp only
      rw [open']
      refine ⟨bytes, [], ⟨scanned.stored, scanned.pointer, scanned.clear, scanned.ahead,
        scanned.nleft, ?_, same'.trans same, ?_⟩, ?_, ?_⟩
      · rw [List.nil_append, total, kept]
      · intro small
        obtain ⟨inner, iff⟩ := scanned.tidy small
        obtain ⟨later, parted⟩ := within inner
        exact ⟨later, iff.trans (by simpa [Received.list] using parted)⟩
      · omega
      · omega
    · simp only [LineScan.measure]
      omega
  | failed empty fault fewer =>
    rw [empty, List.append_nil] at total
    refine ⟨_, rfl, ?_, ?_⟩
    · rw [LineInvariant]
      dsimp only
      rw [scanned.stored, ← total]
      apply LineOutcome.failed
      · rw [total]
        exact scanned.clear
      · rw [total]
        omega
      · exact same.symm.trans fault
    · simp only [LineScan.measure, open', Option.isSome_some, Option.isSome_none, if_true,
        Bool.false_eq_true, if_false]
      omega

theorem readlineLoop_advance (invariant : LineInvariant source buffer length scan)
    (running : readlineLoop.done scan = false) :
    ∃ next, readlineLoop.body scan = .ok next ∧ LineInvariant source buffer length next ∧
      next.measure < scan.measure := by
  have none' : scan.result = none := by
    cases result : scan.result with
    | none => rfl
    | some returned => simp [readlineLoop, result] at running
  rw [LineInvariant, none'] at invariant
  obtain ⟨bytes, unread, scanned, room, left⟩ := invariant
  have counted : sizeSub scan.length 1 = scan.length - 1 := sizeSub_of_le left
  by_cases full : scan.length - 1 = 0
  · simp only [readlineLoop, counted, if_pos full]
    refine ⟨_, rfl, ?_, ?_⟩
    · rw [LineInvariant]
      dsimp only
      rw [scanned.stored]
      exact .full bytes unread scanned.clear (by omega) scanned.split
    · simp only [LineScan.measure, none', Option.isSome_some, Option.isSome_none, if_true,
        Bool.false_eq_true, if_false]
      omega
  by_cases refill : scan.nleft ≤ 0
  · have empty : unread = [] := by
      have nleft := scanned.nleft
      apply List.eq_nil_of_length_eq_zero
      omega
    subst empty
    exact refill_advance scanned none' room (by omega) refill
  · simp only [readlineLoop, counted, if_neg full, if_neg refill]
    obtain ⟨c, unread, rfl⟩ : ∃ c more, unread = c :: more := by
      have nleft := scanned.nleft
      apply List.exists_cons_of_length_pos
      omega
    have moved : Scanned source buffer bytes (c :: unread) { scan with length := scan.length - 1 } :=
      ⟨scanned.stored, scanned.pointer, scanned.clear, scanned.ahead, scanned.nleft, scanned.split,
        scanned.same, scanned.tidy⟩
    obtain ⟨next, taken, kept, source', nleft'⟩ := takeByte_spec moved
      (show bytes.length + (scan.length - 1) + 1 = length by omega)
      (show 1 ≤ scan.length - 1 by omega)
    refine ⟨next, taken, kept, ?_⟩
    have nleft := scanned.nleft
    rw [List.length_cons] at nleft
    simp only [LineScan.measure, source', nleft', none', Option.isSome_none, Bool.false_eq_true,
      if_false]
    split <;> omega

/-- `readline` returns, with a line, a full buffer, the end of the stream or a failure. -/
theorem readline_outcome (source : Source Byte) (ahead : ReadAhead) (buffer : Cells Byte)
    {length : Nat} (positive : 1 ≤ length) :
    ∃ call, readline source ahead buffer length = .ok call ∧
      LineOutcome source buffer length call := by
  have start : LineInvariant source buffer length ⟨source, ahead, 0, buffer, 0, length, none⟩ := by
    refine ⟨[], [], ⟨rfl, rfl, List.not_mem_nil, List.nil_prefix, rfl, rfl, rfl, ?_⟩,
      Nat.zero_add length, positive⟩
    exact fun within => ⟨within, by simp⟩
  obtain ⟨final, result, kept, exits⟩ := Loop.run_total _ LineScan.measure
    (fun scan => readlineLoop_advance) start (Nat.le_refl _)
  obtain ⟨returned, found⟩ := Option.isSome_iff_exists.mp exits
  rw [LineInvariant, found] at kept
  refine ⟨⟨returned, final.source, final.ahead, final.buffer⟩, ?_, kept⟩
  have run : readlineLoop.run (source.attempts + 1) ⟨source, ahead, 0, buffer, 0, length, none⟩ =
      .ok final := result
  rw [readline, run, ok_bind, found]
  rfl

/-- `readline` leaves room for the terminator. -/
theorem readline_inside (whole : buffer.cells.length = length) (clean : buffer.stray = [])
    (positive : 1 ≤ length) (source : Source Byte) (ahead : ReadAhead) :
    ∃ call, readline source ahead buffer length = .ok call ∧ call.buffer.stray = [] := by
  obtain ⟨call, result, outcome⟩ := readline_outcome source ahead buffer positive
  refine ⟨call, result, ?_⟩
  have stays : ∀ values : Bytes, values.length ≤ length → (buffer.putAll 0 values).stray = [] := by
    intro values fits
    rw [Cells.stray_putAll (by omega), clean]
  cases outcome with
  | line body lost _ fits =>
    apply stays
    rw [List.length_append, List.length_cons, List.length_singleton]
    omega
  | full body lost _ fills => exact stays body (by omega)
  | ended _ short => exact stays _ (by omega)
  | failed _ short => exact stays _ (by omega)

end Readline

/-- The variables of `readline_2`, and its result once it has one. -/
structure ByteScan where
  source : Source Byte
  buffer : Cells Byte
  pointer : Nat
  length : Nat
  result : Option Nat

/-- The loop of `readline_2`, which ends where `recv` does not return 1. -/
def readline2Loop : Loop ByteScan Fault where
  done scan := scan.result.isSome || decide (scan.length = 0)
  body scan :=
    match scan.source.receive 1 with
    | (.items [c], source) => .ok {
        source
        buffer := if c = newline then (scan.buffer.put scan.pointer c).put (scan.pointer + 1 : Nat) 0
          else scan.buffer.put scan.pointer c
        pointer := scan.pointer + 1
        length := sizeSub scan.length 1
        result := if c = newline then some (scan.pointer + 1) else none }
    | (_, source) => .ok { scan with source, result := some (sizeOfInt (-1)) }
  unfinished := .unfinished

/-- `readline_2` -/
def readline2 (source : Source Byte) (buffer : Cells Byte) (length : Nat) :
    Except Fault (Nat × Source Byte × Cells Byte) := do
  let final ← readline2Loop.run (source.attempts + 1) ⟨source, buffer, 0, length, none⟩
  return (final.result.getD (sizeOfInt (-1)), final.source, final.buffer)

/-- What `readline_2` has stored in the buffer when it returns. -/
inductive ByteOutcome (source : Source Byte) (buffer : Cells Byte) (length : Nat) :
    Cells Byte → Prop where
  | line (body more : Bytes) (clear : newline ∉ body) (fits : body.length < length)
      (split : source.heard = body ++ newline :: more) :
      ByteOutcome source buffer length (buffer.putAll 0 (body ++ [newline, 0]))
  | noLine (body more : Bytes) (clear : newline ∉ body) (fits : body.length ≤ length)
      (split : source.heard = body ++ more) (stops : body.length = length ∨ more = []) :
      ByteOutcome source buffer length (buffer.putAll 0 body)

/-- Before a result the bytes received so far are stored, and hold no newline. -/
def ByteInvariant (source : Source Byte) (buffer : Cells Byte) (length : Nat) (scan : ByteScan) :
    Prop :=
  match scan.result with
  | none => ∃ bytes, scan.buffer = buffer.putAll 0 bytes ∧ scan.pointer = bytes.length ∧
      newline ∉ bytes ∧ bytes.length + scan.length = length ∧
      source.heard = bytes ++ scan.source.heard
  | some _ => ByteOutcome source buffer length scan.buffer

/-- The number of rounds that the loop can still make. -/
def ByteScan.measure (scan : ByteScan) : Nat :=
  scan.source.attempts + if scan.result.isSome then 0 else 1

section Readline2

variable {source : Source Byte} {buffer : Cells Byte} {scan : ByteScan} {length : Nat}

theorem readline2Loop_advance (invariant : ByteInvariant source buffer length scan)
    (running : readline2Loop.done scan = false) :
    ∃ next, readline2Loop.body scan = .ok next ∧ ByteInvariant source buffer length next ∧
      next.measure < scan.measure := by
  obtain ⟨none', left⟩ : scan.result = none ∧ scan.length ≠ 0 := by
    simpa [readline2Loop] using running
  rw [ByteInvariant, none'] at invariant
  obtain ⟨bytes, stored, pointer, clear, room, split⟩ := invariant
  have counted : sizeSub scan.length 1 = scan.length - 1 := sizeSub_of_le (by omega)
  have receipt := Source.receive_receipt Nat.one_pos scan.source
  have silent := @Source.heard_of_none Byte 1 Nat.one_pos scan.source
  have loud := @Source.heard_of_some Byte 1 scan.source
  have stop : ∀ rest : Source Byte, scan.source.heard = [] → ByteInvariant source buffer length
      { scan with source := rest, result := some (sizeOfInt (-1)) } := by
    intro rest empty
    rw [ByteInvariant]
    dsimp only
    rw [stored]
    exact .noLine bytes scan.source.heard clear (by omega) split (.inr empty)
  have less : ∀ rest : Source Byte, rest.attempts ≤ scan.source.attempts → ByteScan.measure
      { scan with source := rest, result := some (sizeOfInt (-1)) } < scan.measure := by
    intro rest fewer
    simp only [ByteScan.measure, none', Option.isSome_some, Option.isSome_none, if_true,
      Bool.false_eq_true, if_false]
    omega
  simp only [readline2Loop]
  rcases attempt : scan.source.receive 1 with ⟨received, rest⟩
  rw [attempt] at receipt silent loud
  dsimp only at receipt silent loud ⊢
  cases receipt with
  | ended before after => exact ⟨_, rfl, stop rest (silent rfl), less rest (by rw [before, after])⟩
  | @items items some fits _ _ fewer =>
    obtain ⟨c, rfl⟩ : ∃ c, items = [c] := by
      have positive := List.length_pos_of_ne_nil some
      exact List.length_eq_one_iff.mp (by omega)
    have heard : scan.source.heard = c :: rest.heard := loud (List.cons_ne_nil c [])
    rw [List.length_singleton] at fewer
    rw [heard] at split
    have measured : ∀ next : ByteScan, next.source = rest → next.measure < scan.measure := by
      intro next same
      simp only [ByteScan.measure, none', same, Option.isSome_none, Bool.false_eq_true, if_false]
      split <;> omega
    refine ⟨_, rfl, ?_, measured _ rfl⟩
    rw [ByteInvariant]
    by_cases ends : c = newline
    · subst ends
      dsimp only
      rw [if_pos rfl, if_pos rfl, stored, pointer]
      dsimp only
      rw [putAll_line]
      exact .line bytes rest.heard clear (by omega) split
    · dsimp only
      rw [if_neg ends, if_neg ends, stored, pointer, counted]
      refine ⟨bytes ++ [c], ?_, ?_, ?_, ?_, ?_⟩
      · rw [Cells.putAll_concat]
      · rw [List.length_append]
        rfl
      · rw [List.mem_append, List.mem_singleton, not_or]
        exact ⟨clear, Ne.symm ends⟩
      · rw [List.length_append, List.length_singleton]
        omega
      · rw [List.append_assoc]
        exact split
  | interrupted _ _ fewer => exact ⟨_, rfl, stop rest (silent rfl), less rest fewer.le⟩
  | failed _ _ fewer => exact ⟨_, rfl, stop rest (silent rfl), less rest fewer.le⟩

theorem readline2_outcome (source : Source Byte) (buffer : Cells Byte) (length : Nat) :
    ∃ returned rest filled, readline2 source buffer length = .ok (returned, rest, filled) ∧
      ByteOutcome source buffer length filled := by
  have start : ByteInvariant source buffer length ⟨source, buffer, 0, length, none⟩ :=
    ⟨[], rfl, rfl, List.not_mem_nil, Nat.zero_add length, rfl⟩
  obtain ⟨final, result, kept, exits⟩ := Loop.run_total _ ByteScan.measure
    (fun scan => readline2Loop_advance) start (Nat.le_refl _)
  have run : readline2Loop.run (source.attempts + 1) ⟨source, buffer, 0, length, none⟩ =
      .ok final := result
  refine ⟨_, _, _, bind_of_ok run _, ?_⟩
  rw [ByteInvariant] at kept
  cases found : final.result with
  | some returned =>
    rw [found] at kept
    exact kept
  | none =>
    rw [found] at kept
    obtain ⟨bytes, stored, _, clear, room, split⟩ := kept
    have full : final.length = 0 := by simpa [readline2Loop, found] using exits
    rw [stored]
    exact .noLine bytes final.source.heard clear (by omega) split (.inl (by omega))

/-- The bytes that a caller of `readline_2` receives begin with a line of as many bytes as its
buffer has. -/
def FillsBuffer (source : Source Byte) (length : Nat) : Prop :=
  ∃ body more, newline ∉ body ∧ body.length + 1 = length ∧
    source.heard = body ++ newline :: more

/-- `readline_2` stores outside of the buffer for such a line only. -/
theorem readline2_inside_iff (whole : buffer.cells.length = length) (clean : buffer.stray = []) :
    (∃ returned rest filled, readline2 source buffer length = .ok (returned, rest, filled) ∧
      filled.stray = []) ↔ ¬ FillsBuffer source length := by
  obtain ⟨returned, rest, filled, result, outcome⟩ := readline2_outcome source buffer length
  have once : (∃ other another cells, readline2 source buffer length = .ok (other, another, cells) ∧
      cells.stray = []) ↔ filled.stray = [] := by
    rw [result]
    constructor
    · rintro ⟨other, another, cells, same, inside⟩
      cases same
      exact inside
    · exact fun inside => ⟨returned, rest, filled, rfl, inside⟩
  rw [once]
  cases outcome with
  | line body more clear fits split =>
    have size : (body ++ [newline, 0]).length = body.length + 2 := List.length_append
    constructor
    · rintro inside ⟨other, behind, clear', fills, split'⟩
      obtain ⟨rfl, _⟩ := first_mark_unique clear clear' (split.symm.trans split')
      have longer : (body ++ [newline]).length = buffer.cells.length := by
        rw [List.length_append, List.length_singleton]
        omega
      rw [show body ++ [newline, 0] = (body ++ [newline]) ++ [0] by simp,
        Cells.stray_overrun longer clean] at inside
      cases inside
    · intro others
      have shorter : body.length + 1 ≠ length := fun fills =>
        others ⟨body, more, clear, fills, split⟩
      rw [Cells.stray_putAll (by omega), clean]
  | noLine body more clear fits split stops =>
    have inside : (buffer.putAll 0 body).stray = [] := by
      rw [Cells.stray_putAll (by omega), clean]
    rw [iff_true_left inside]
    rintro ⟨other, behind, _, fills, split'⟩
    rcases stops with full | rfl
    · have longer : other.length < body.length := by omega
      exact clear (mem_of_longer longer (split.symm.trans split'))
    · rw [List.append_nil] at split
      apply clear
      rw [← split, split']
      exact List.mem_append_right _ (List.mem_cons_self ..)

end Readline2

/-- Successive calls of `readline` return the lines, and leave what stands behind them to be
received. -/
def ReadsLines (length : Nat) (tail : Bytes) : List Bytes → Source Byte → ReadAhead → Cells Byte →
    Prop
  | [], source, _, _ => source.stream = tail
  | line :: lines, source, ahead, buffer => ∃ rest further,
      readline source ahead buffer length =
        .ok ⟨line.length, rest, further, buffer.withFront (line ++ [0])⟩ ∧
      ReadsLines length tail lines rest further (buffer.withFront (line ++ [0]))

/-- A line ends with its only newline. -/
def IsLine (line : Bytes) : Prop :=
  ∃ body, newline ∉ body ∧ line = body ++ [newline]

section Lines

variable {length : Nat} {tail : Bytes} {lines : List Bytes} {source : Source Byte}
variable {ahead : ReadAhead} {buffer : Cells Byte}

/-- The calls receive at least what they return. -/
theorem ReadsLines.length_le (size : length < 2 ^ 64) (bounds : ∀ line ∈ lines, line.length < length)
    (ends : ∀ line ∈ lines, IsLine line)
    (reads : ReadsLines length tail lines source ahead buffer) :
    lines.flatten.length + tail.length ≤ source.stream.length := by
  induction lines generalizing source ahead buffer with
  | nil =>
    have left : source.stream = tail := reads
    rw [left, List.flatten_nil, List.length_nil, Nat.zero_add]
  | cons line lines ih =>
    rw [List.forall_mem_cons] at bounds ends
    obtain ⟨rest, further, result, reads⟩ := reads
    have later := ih bounds.2 ends.2 reads
    have positive : line.length ≠ 0 := by
      obtain ⟨body, _, rfl⟩ := ends.1
      simp
    have value : sizeOfInt (-1) = 2 ^ 64 - 1 := by decide
    obtain ⟨call, again, outcome⟩ := readline_outcome source ahead buffer (show 1 ≤ length by omega)
    rw [result] at again
    cases again
    have received : line.length + rest.stream.length ≤ source.stream.length := by
      generalize count : line.length = returned at outcome positive bounds
      generalize buffer.withFront (line ++ [0]) = filled at outcome
      cases outcome with
      | line body lost _ _ split =>
        rw [split, List.length_append, List.length_cons, List.length_append]
        omega
      | ended => exact absurd rfl positive
      | full | failed => omega
    rw [List.flatten_cons, List.length_append]
    omega

/-- A call for a stream with a line in front returns the line. What is lost with it is nothing
exactly if the line ends its piece. -/
theorem readline_line {line more : Bytes} (isLine : IsLine line) (fits : line.length < length)
    (room : length ≤ buffer.cells.length) (within : source.Within 512)
    (sound : source.fails = false) (sent : source.stream = line ++ more) (ahead : ReadAhead) :
    ∃ rest further lost, readline source ahead buffer length =
        .ok ⟨line.length, rest, further, buffer.withFront (line ++ [0])⟩ ∧
      more = lost ++ rest.stream ∧ rest.Within 512 ∧ rest.fails = false ∧
      (source.EndsAt newline ↔ lost = [] ∧ rest.EndsAt newline) := by
  obtain ⟨body, clear, rfl⟩ := isLine
  rw [List.length_append, List.length_singleton] at fits ⊢
  rw [← List.append_cons] at sent
  have present : newline ∈ source.stream := by
    rw [sent]
    exact List.mem_append_right _ (List.mem_cons_self ..)
  obtain ⟨call, result, outcome⟩ := readline_outcome source ahead buffer (show 1 ≤ length by omega)
  rw [result]
  cases outcome with
  | @line rest further other lost clear' _ split same tidy =>
    obtain ⟨rfl, behind⟩ := first_mark_unique clear clear' (sent.symm.trans split)
    obtain ⟨small, iff⟩ := tidy within
    have stored : buffer.putAll 0 (body ++ [newline, 0]) =
        buffer.withFront (body ++ [newline] ++ [0]) := by
      rw [List.append_assoc, List.singleton_append]
      apply Cells.putAll_zero
      rw [List.length_append, List.length_cons, List.length_singleton]
      omega
    rw [stored]
    exact ⟨rest, further, lost, rfl, behind, small, same.trans sound, iff⟩
  | full other lost clear' fills split =>
    have longer : body.length < other.length := by omega
    have within' : newline ∈ other := mem_of_longer longer (split.symm.trans sent)
    exact absurd within' clear'
  | ended clear' => exact absurd present clear'
  | failed clear' => exact absurd present clear'

end Lines

/-- Successive calls of `readline`, with a buffer larger than every line, return the lines one
after the other and lose nothing exactly when no received piece goes on behind a newline. -/
theorem lines_consecutive_iff {length : Nat} {tail : Bytes} {lines : List Bytes}
    {source : Source Byte} {buffer : Cells Byte} (ahead : ReadAhead) (size : length < 2 ^ 64)
    (room : length ≤ buffer.cells.length) (bounds : ∀ line ∈ lines, line.length < length)
    (ends : ∀ line ∈ lines, IsLine line) (unended : newline ∉ tail)
    (within : source.Within 512) (sound : source.fails = false)
    (sent : source.stream = lines.flatten ++ tail) :
    ReadsLines length tail lines source ahead buffer ↔ source.EndsAt newline := by
  induction lines generalizing source ahead buffer with
  | nil =>
    have left : source.stream = tail := sent
    have clear := Source.endsAt_of_not_mem sound (left ▸ unended)
    exact ⟨fun _ => clear, fun _ => left⟩
  | cons line lines ih =>
    rw [List.forall_mem_cons] at bounds ends
    rw [List.flatten_cons, List.append_assoc] at sent
    obtain ⟨rest, further, lost, result, behind, small, sound', iff⟩ :=
      readline_line ends.1 bounds.1 room within sound sent ahead
    have larger : length ≤ (buffer.withFront (line ++ [0])).cells.length := by
      rw [Cells.length_withFront]
      · exact room
      · rw [List.length_append, List.length_singleton]
        omega
    rw [iff, ReadsLines, result]
    have once : (∃ other another, (.ok ⟨line.length, rest, further, buffer.withFront (line ++ [0])⟩ :
          Except Fault LineCall) =
        .ok ⟨line.length, other, another, buffer.withFront (line ++ [0])⟩ ∧
        ReadsLines length tail lines other another (buffer.withFront (line ++ [0]))) ↔
        ReadsLines length tail lines rest further (buffer.withFront (line ++ [0])) := by
      constructor
      · rintro ⟨other, another, same, reads⟩
        cases same
        exact reads
      · exact fun reads => ⟨rest, further, rfl, reads⟩
    rw [once]
    cases lost with
    | nil =>
      rw [and_iff_right rfl]
      exact ih further larger bounds.2 ends.2 small sound' behind.symm
    | cons first more =>
      constructor
      · intro reads
        have least := reads.length_le size bounds.2 ends.2
        have total := congrArg List.length behind
        rw [List.length_append, List.length_append, List.length_cons] at total
        omega
      · rintro ⟨none', _⟩
        cases none'

/-- Two lines in one piece. -/
def twoLines : Source Byte := [.piece 97 [10, 98, 10]]

/-- The static variables as the program starts with them. -/
def noReadAhead : ReadAhead := ⟨List.replicate 512 0, 0⟩

/-- Two lines that are cut and come with interrupts. -/
theorem lines_consecutive_sample :
    ReadsLines 10 [] [[97, 10], [98, 10]] [.piece 97 [], .interrupted, .piece 10 [], .piece 98 [10]]
      noReadAhead (.allocate 10) := by
  have room : 10 ≤ (Cells.allocate 10 : Cells Byte).cells.length := by decide
  have bounds : ∀ line ∈ ([[97, 10], [98, 10]] : List Bytes), line.length < 10 := by decide
  have ends : ∀ line ∈ ([[97, 10], [98, 10]] : List Bytes), IsLine line := by
    rw [List.forall_mem_cons, List.forall_mem_singleton]
    exact ⟨⟨[97], by decide, rfl⟩, ⟨[98], by decide, rfl⟩⟩
  apply (lines_consecutive_iff noReadAhead (by decide) room bounds ends List.not_mem_nil ?_ rfl
    rfl).mpr
  · intro first more member
    simp only [List.mem_cons, Delivery.piece.injEq, reduceCtorEq, List.not_mem_nil, or_false,
      false_or] at member
    rcases member with ⟨rfl, rfl⟩ | ⟨rfl, rfl⟩ | ⟨rfl, rfl⟩ <;> decide
  · intro first more member
    simp only [List.mem_cons, Delivery.piece.injEq, reduceCtorEq, List.not_mem_nil, or_false,
      false_or] at member
    rcases member with ⟨rfl, rfl⟩ | ⟨rfl, rfl⟩ | ⟨rfl, rfl⟩ <;> decide

/-- The second of two lines in one piece is lost. -/
theorem second_line_lost : ¬ ReadsLines 10 [] [[97, 10], [98, 10]] twoLines noReadAhead
    (.allocate 10) := by
  rintro ⟨rest, further, first, later⟩
  have call : (readline twoLines noReadAhead (.allocate 10) 10).toOption.map LineCall.source =
    some [] := by decide +kernel
  rw [first] at call
  cases call
  have least := later.length_le (by decide) (by decide) (by
    rw [List.forall_mem_singleton]
    exact ⟨[98], by decide, rfl⟩)
  cases least

end Yolanda.Lib
