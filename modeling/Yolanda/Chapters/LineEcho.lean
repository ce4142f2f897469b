import Yolanda.App.Rot13Echo
import Yolanda.Lib.LineReader
import Mathlib.Algebra.Order.BigOperators.Group.List
import Mathlib.Algebra.Order.Group.Nat

/-! The echo of whole lines, rotated, by a process (chap-25) or a thread (chap-26) of its own. -/

namespace Yolanda.Chapters

open App (rot13Char)
open Lib (newline)

/-- The characters in `outbuf`, with all that `recv` has delivered and the data of all calls of
`send`. -/
structure LineEcho where
  outbuf : Bytes
  received : Bytes
  sends : List Bytes
  deriving DecidableEq

namespace LineEcho

def start : LineEcho :=
  { outbuf := [], received := [], sends := [] }

/-- One turn of the loop in `child_run` and `loop_echo`, with an `outbuf` of this size. -/
def takeChar (size : Nat) (echo : LineEcho) (ch : Byte) : LineEcho :=
  let outbuf :=
    if echo.outbuf.length < size then echo.outbuf ++ [rot13Char ch] else echo.outbuf
  if ch = newline then
    { outbuf := [], received := echo.received ++ [ch], sends := echo.sends ++ [outbuf] }
  else { echo with
    outbuf
    received := echo.received ++ [ch] }

def takeChars (size : Nat) (echo : LineEcho) (chars : Bytes) : LineEcho :=
  chars.foldl (takeChar size) echo

/-- `child_run`, with `MAX_LINE` 4096 -/
def childRun (echo : LineEcho) (ch : Byte) : LineEcho := echo.takeChar 4097 ch

/-- `loop_echo`, with `MAX_LINE` 16384 -/
def loopEcho (echo : LineEcho) (ch : Byte) : LineEcho := echo.takeChar 16385 ch

/-- What a line is answered with: the part that fits, rotated. -/
def answer (size : Nat) (line : Bytes) : Bytes := (line.map rot13Char).take size

/-- What has come in is these lines and the beginning of one more, and the lines have been
answered. -/
structure Answers (size : Nat) (lines : List Bytes) (rest : Bytes) (echo : LineEcho) : Prop where
  clear : ∀ line ∈ lines, newline ∉ line
  begun : newline ∉ rest
  received : echo.received = lines.flatMap (· ++ [newline]) ++ rest
  sends : echo.sends = lines.map fun line => answer size (line ++ [newline])
  outbuf : echo.outbuf = answer size rest

variable {size : Nat} {lines : List Bytes} {rest : Bytes} {echo : LineEcho} {ch : Byte}

theorem start_answers (size : Nat) : start.Answers size [] [] :=
  ⟨fun _ member => (nomatch member), List.not_mem_nil, rfl, rfl, List.take_nil.symm⟩

/-- A character more is stored where it fits. -/
theorem answer_concat (size : Nat) (line : Bytes) (ch : Byte) :
    (if (answer size line).length < size then answer size line ++ [rot13Char ch]
      else answer size line) = answer size (line ++ [ch]) := by
  have width : (answer size line).length = min size line.length := by
    rw [answer, List.length_take, List.length_map]
  rw [answer, answer, List.map_append, List.map_singleton] at *
  by_cases room : line.length < size
  · rw [if_pos (by omega), List.take_of_length_le (by rw [List.length_map]; omega),
      List.take_of_length_le (by
        rw [List.length_append, List.length_map, List.length_singleton]
        omega)]
  · rw [if_neg (by omega), List.take_append_of_le_length (by rw [List.length_map]; omega)]

theorem Answers.takeChar (answers : echo.Answers size lines rest) (ch : Byte) :
    (echo.takeChar size ch).Answers size
      (if ch = newline then lines ++ [rest] else lines)
      (if ch = newline then [] else rest ++ [ch]) := by
  have stored := answer_concat size rest ch
  rw [← answers.outbuf] at stored
  unfold LineEcho.takeChar
  by_cases ends : ch = newline
  · rw [if_pos ends, if_pos ends, if_pos ends]
    refine ⟨?_, List.not_mem_nil, ?_, ?_, List.take_nil.symm⟩
    · intro line member
      rcases List.mem_append.mp member with old | last
      · exact answers.clear line old
      · rw [List.mem_singleton.mp last]
        exact answers.begun
    · change echo.received ++ [ch] = _
      rw [answers.received, ends, List.flatMap_append, List.flatMap_singleton, List.append_nil,
        List.append_assoc]
    · change echo.sends ++ [_] = _
      rw [stored, answers.sends, List.map_append, ends]
      rfl
  · rw [if_neg ends, if_neg ends, if_neg ends]
    refine ⟨answers.clear, ?_, ?_, answers.sends, stored⟩
    · rw [List.mem_append, List.mem_singleton, not_or]
      exact ⟨answers.begun, fun same => ends same.symm⟩
    · change echo.received ++ [ch] = _
      rw [answers.received, List.append_assoc]

/-- Characters of a line come behind those there are. -/
theorem Answers.takeChars {chars : Bytes} (answers : echo.Answers size lines rest)
    (clear : newline ∉ chars) : (echo.takeChars size chars).Answers size lines (rest ++ chars) := by
  induction chars generalizing echo rest with
  | nil =>
    rw [List.append_nil]
    exact answers
  | cons ch chars ih =>
    rw [List.mem_cons, not_or] at clear
    have next := answers.takeChar ch
    rw [if_neg (Ne.symm clear.1), if_neg (Ne.symm clear.1)] at next
    have behind := ih next clear.2
    rw [List.append_assoc] at behind
    exact behind

theorem Answers.takeLines {more : List Bytes} (answers : echo.Answers size lines [])
    (clear : ∀ line ∈ more, newline ∉ line) :
    (echo.takeChars size (more.flatMap (· ++ [newline]))).Answers size (lines ++ more) [] := by
  induction more generalizing echo lines with
  | nil =>
    rw [List.append_nil]
    exact answers
  | cons line more ih =>
    obtain ⟨first, others⟩ := List.forall_mem_cons.mp clear
    have filled := answers.takeChars first
    have ended := filled.takeChar newline
    rw [if_pos rfl, if_pos rfl, List.nil_append] at ended
    have behind := ih ended others
    rw [List.append_assoc] at behind
    have shape : echo.takeChars size ((line :: more).flatMap (· ++ [newline])) =
        ((echo.takeChars size line).takeChar size newline).takeChars size
          (more.flatMap (· ++ [newline])) := by
      simp only [LineEcho.takeChars, List.flatMap_cons, List.foldl_append, List.foldl_cons,
        List.foldl_nil]
    rw [shape]
    exact behind

end LineEcho

theorem rot13Char_rot13Char (c : Byte) : rot13Char (rot13Char c) = c := by
  have every : ∀ number : Fin 256,
      rot13Char (rot13Char (UInt8.ofNat number)) = UInt8.ofNat number := by decide +kernel
  have same : UInt8.ofNat c.toNat = c := UInt8.ofNat_toNat
  have here := every ⟨c.toNat, UInt8.toNat_lt c⟩
  simp only [same] at here
  exact here

/-- The text that was received comes back exactly when every line fits with its newline. -/
theorem answers_back_iff {size : Nat} {lines : List Bytes} :
    (lines.flatMap fun line => LineEcho.answer size (line ++ [newline])).map rot13Char =
        lines.flatMap (· ++ [newline]) ↔ ∀ line ∈ lines, line.length < size := by
  have whole {line : Bytes} (fits : line.length < size) :
      (LineEcho.answer size (line ++ [newline])).map rot13Char = line ++ [newline] := by
    rw [LineEcho.answer, List.take_of_length_le (by
      rw [List.length_map, List.length_append, List.length_singleton]
      omega), List.map_map]
    exact (List.map_congr_left fun c _ => rot13Char_rot13Char c).trans (List.map_id _)
  constructor
  · intro back line member
    have lengths := congrArg List.length back
    rw [List.length_map, List.length_flatMap, List.length_flatMap] at lengths
    have width (line : Bytes) :
        (LineEcho.answer size (line ++ [newline])).length = min size (line.length + 1) := by
      rw [LineEcho.answer, List.length_take, List.length_map, List.length_append,
        List.length_singleton]
    have least (line : Bytes) : (LineEcho.answer size (line ++ [newline])).length ≤
        (line ++ [newline]).length := by
      rw [width, List.length_append, List.length_singleton]
      exact Nat.min_le_right _ _
    by_contra long
    have shorter := List.sum_lt_sum _ _ (fun line _ => least line) ⟨line, member, by
      rw [width, List.length_append, List.length_singleton]
      omega⟩
    exact absurd lengths shorter.ne
  · intro fits
    rw [List.map_flatMap]
    exact List.flatMap_congr fun line member => whole (fits line member)

/-- What a run of an echo loop over these characters has sent: each line as far as it fits,
rotated, in one call; the text of the lines comes back exactly when they all fit. -/
structure EchoesLines (size : Nat) (lines : List Bytes) (rest : Bytes) (echo : LineEcho) :
    Prop where
  sends : echo.sends = lines.map fun line => LineEcho.answer size (line ++ [newline])
  waits : echo.outbuf = LineEcho.answer size rest
  back : echo.sends.flatten.map rot13Char = lines.flatMap (· ++ [newline]) ↔
    ∀ line ∈ lines, line.length < size

theorem LineEcho.Answers.echoes {size : Nat} {lines : List Bytes} {rest : Bytes} {echo : LineEcho}
    (answers : echo.Answers size lines rest) : EchoesLines size lines rest echo := by
  refine ⟨answers.sends, answers.outbuf, ?_⟩
  rw [answers.sends, ← List.flatMap_def]
  exact answers_back_iff

theorem takeChars_echoes (size : Nat) {lines : List Bytes} {rest : Bytes}
    (clear : ∀ line ∈ lines, newline ∉ line) (begun : newline ∉ rest) :
    EchoesLines size lines rest
      (LineEcho.start.takeChars size (lines.flatMap (· ++ [newline]) ++ rest)) := by
  have answers := ((LineEcho.start_answers size).takeLines clear).takeChars begun
  have shape : LineEcho.start.takeChars size (lines.flatMap (· ++ [newline]) ++ rest) =
      (LineEcho.start.takeChars size (lines.flatMap (· ++ [newline]))).takeChars size rest :=
    List.foldl_append ..
  rw [← shape, List.nil_append, List.nil_append] at answers
  exact answers.echoes

/-- The children of the forking server send each line back rotated, up to 4097 characters of it,
and the threads up to 16385, however the text comes in. -/
theorem lines_echoed {lines : List Bytes} {rest : Bytes}
    (clear : ∀ line ∈ lines, newline ∉ line) (begun : newline ∉ rest) :
    EchoesLines 4097 lines rest
        ((lines.flatMap (· ++ [newline]) ++ rest).foldl LineEcho.childRun .start) ∧
      EchoesLines 16385 lines rest
        ((lines.flatMap (· ++ [newline]) ++ rest).foldl LineEcho.loopEcho .start) :=
  ⟨takeChars_echoes 4097 clear begun, takeChars_echoes 16385 clear begun⟩

theorem lines_echoed_sample :
    EchoesLines 4097 [[72, 105]] [33]
        ([72, 105, 10, 33].foldl LineEcho.childRun .start) ∧
      EchoesLines 16385 [[72, 105]] [33]
        ([72, 105, 10, 33].foldl LineEcho.loopEcho .start) :=
  lines_echoed (by decide) (by decide)

end Yolanda.Chapters
