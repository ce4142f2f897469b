import Yolanda.App.RoundTrip

/-! When the parser returns. It needs the whole rest of a request in the buffer:
on anything less it spins without consuming a byte. -/

namespace Yolanda.App

open Foundation

/-- Bytes that start with the rest of a header block: lines with `": "` and then one
without. Each line fits the `int` that keeps its size. -/
inductive HeaderBlock : Bytes → Prop where
  | last (clear : ¬ crlf <:+: line) (short : line.length < 2 ^ 31)
      (plain : ¬ colonSpace <:+: line) : HeaderBlock (line ++ crlf ++ rest)
  | more (clear : ¬ crlf <:+: line) (short : line.length < 2 ^ 31)
      (colon : colonSpace <:+: line) (block : HeaderBlock rest) :
      HeaderBlock (line ++ crlf ++ rest)

/-- Bytes that start with a request line with two spaces and a header block. -/
inductive RequestBlock : Bytes → Prop where
  | line (clear : ¬ crlf <:+: line) (short : line.length < 2 ^ 31)
      (split : SplitsAs line method url version) (block : HeaderBlock rest) :
      RequestBlock (line ++ crlf ++ rest)

/-- The bytes hold all that a parser in the given state still waits for. -/
def Completes : HttpRequestState → Bytes → Prop
  | .status, text => RequestBlock text
  | .headers, text => HeaderBlock text
  | .body, _ => False
  | .done, _ => True

/-- The loop body is executed while a complete line is readable. -/
def LineStep (state next : Parsing) : Prop :=
  parseLoop.Step state next ∧ crlf <:+: state.input.contents

/-- The call returns, having consumed complete readable lines only, and leaves the
rest as it is when no complete line is left. -/
def ParsesAvailable (start : Parsing) : Prop :=
  ∃ final, parseLoop.Returns start final ∧ Relation.ReflTransGen LineStep start final ∧
    (final.request.curState = .done ∨ ¬ crlf <:+: final.input.contents)

/-- No line among the bytes is too long for an `int`. -/
def LinesShort (text : Bytes) : Prop :=
  ∀ line, ¬ crlf <:+: line → line ++ crlf <:+: text → line.length < 2 ^ 31

section Contents

variable {input : Buffer} {line rest : Bytes}

theorem Buffer.Valid.unread_line_stale (valid : input.Valid)
    (contents : input.contents = line ++ crlf ++ rest) :
    input.unread = line ++ crlf ++ (rest ++ input.stale) := by
  rw [← List.append_assoc, ← contents]
  exact valid.unread_eq

/-- Consuming a readable line leaves the readable bytes behind it. -/
theorem Buffer.Valid.consume_line (valid : input.Valid)
    (contents : input.contents = line ++ crlf ++ rest) :
    (input.consume (line.length + 2)).Valid ∧
      (input.consume (line.length + 2)).contents = rest := by
  have size : line.length + 2 = (line ++ crlf).length := by simp [crlf]
  have inside : line.length + 2 ≤ input.contents.length := by
    have total : input.contents.length = (line ++ crlf).length + rest.length := by
      rw [contents, List.length_append]
    omega
  obtain ⟨consumed, same⟩ := valid.advance _ inside
  refine ⟨consumed, same.trans ?_⟩
  rw [contents, size, List.drop_left]

private theorem crlf_infix_of_line (contents : input.contents = line ++ crlf ++ rest) :
    crlf <:+: input.contents := ⟨line, rest, contents.symm⟩

/-- The first complete line among the readable bytes. -/
private theorem exists_first_line (available : crlf <:+: input.contents) :
    ∃ line rest, ¬ crlf <:+: line ∧ input.contents = line ++ crlf ++ rest := by
  cases found : search crlf input.contents with
  | none => exact absurd available (search_eq_none.mp found)
  | some offset =>
    exact ⟨_, _, search_clear crlf_borderless found, search_split found⟩

theorem LinesShort.behind (short : LinesShort (line ++ crlf ++ rest)) : LinesShort rest :=
  fun inner clear occurs => short inner clear
    (occurs.trans (List.suffix_append _ _).isInfix)

theorem LinesShort.first (short : LinesShort (line ++ crlf ++ rest)) (clear : ¬ crlf <:+: line) :
    line.length < 2 ^ 31 :=
  short line clear (List.prefix_append _ _).isInfix

end Contents

/-- A complete header block takes the parser to the end of the request. -/
theorem HeaderBlock.chain (block : HeaderBlock text) {input : Buffer} {request : HttpRequest}
    (valid : input.Valid) (contents : input.contents = text)
    (waiting : request.curState = .headers) :
    ∃ final, Relation.ReflTransGen LineStep ⟨input, request⟩ final ∧
      final.request.curState = .done := by
  induction block generalizing input request with
  | last clear short plain =>
    have unread := valid.unread_line_stale contents
    exact ⟨_, .single ⟨step_last waiting unread clear short plain, crlf_infix_of_line contents⟩, rfl⟩
  | @more line rest clear short colon block ih =>
    obtain ⟨offset, found⟩ := Option.ne_none_iff_exists'.mp fun missing =>
      search_eq_none.mp missing colon
    have unread := valid.unread_line_stale contents
    obtain ⟨consumed, behind⟩ := valid.consume_line contents
    have waitingNext : ({ request with
        headers := request.headers.emplace (line.take offset) (line.drop (offset + 2)) } :
          HttpRequest).curState = .headers := waiting
    obtain ⟨final, others, finished⟩ := ih consumed behind waitingNext
    exact ⟨final, .head ⟨step_header waiting unread clear short found,
      crlf_infix_of_line contents⟩ others, finished⟩

/-- What the parser waits for takes it to the end of the request. -/
theorem Completes.chain {input : Buffer} {request : HttpRequest} (valid : input.Valid)
    (complete : Completes request.curState input.contents) :
    ∃ final, Relation.ReflTransGen LineStep ⟨input, request⟩ final ∧
      final.request.curState = .done := by
  cases state : request.curState with
  | status =>
    rw [state] at complete
    generalize same : input.contents = text at complete
    cases complete with
    | @line line method url version rest clear short split block =>
      have unread := valid.unread_line_stale same
      obtain ⟨consumed, behind⟩ := valid.consume_line same
      have first := step_status state unread clear short split
      have waitingNext : ({ request.withLine method url version with
          curState := .headers } : HttpRequest).curState = .headers := rfl
      obtain ⟨final, others, finished⟩ := block.chain consumed behind waitingNext
      exact ⟨final, .head ⟨first, crlf_infix_of_line same⟩ others, finished⟩
  | headers =>
    rw [state] at complete
    exact HeaderBlock.chain complete valid rfl state
  | body => simp [state, Completes] at complete
  | done => exact ⟨_, .refl, state⟩

private theorem returns_of_chain (chain : Relation.ReflTransGen LineStep start final)
    (finished : final.request.curState = .done) : parseLoop.Returns start final := by
  refine Loop.returns_iff.mpr ⟨Relation.ReflTransGen.mono (fun _ _ step => step.1) _ _ chain, ?_⟩
  simp [parseLoop, finished]

theorem Completes.parsesAvailable {input : Buffer} {request : HttpRequest} (valid : input.Valid)
    (complete : Completes request.curState input.contents) :
    ParsesAvailable ⟨input, request⟩ := by
  obtain ⟨final, chain, finished⟩ := complete.chain valid
  exact ⟨final, returns_of_chain chain finished, chain, .inl finished⟩

/-- One body execution on a readable line, read off the line. -/
theorem LineStep.cases {input : Buffer} {request : HttpRequest} {next : Parsing}
    (step : LineStep ⟨input, request⟩ next) (valid : input.Valid)
    (short : LinesShort input.contents) :
    ∃ line rest, ¬ crlf <:+: line ∧ line.length < 2 ^ 31 ∧
      input.contents = line ++ crlf ++ rest ∧
      ((request.curState = .status ∧ (∃ method url version, SplitsAs line method url version) ∧
          next.request.curState = .headers ∧ next.input = input.consume (line.length + 2)) ∨
        (request.curState = .headers ∧ colonSpace <:+: line ∧
          next.request.curState = .headers ∧ next.input = input.consume (line.length + 2)) ∨
        (request.curState = .headers ∧ ¬ colonSpace <:+: line) ∨
        request.curState = .body) := by
  obtain ⟨line, rest, clear, contents⟩ := exists_first_line step.2
  rw [contents] at short
  have lineShort := short.first clear
  have unread := valid.unread_line_stale contents
  refine ⟨line, rest, clear, lineShort, contents, ?_⟩
  cases state : request.curState with
  | status =>
    left
    rcases processStatusLine_cases line request with ⟨method, url, version, split⟩ | fails
    · have same := step.1.unique (step_status state unread clear lineShort split)
      subst next
      exact ⟨rfl, ⟨method, url, version, split⟩, rfl, rfl⟩
    · have stops := body_status_error state unread clear fails
      rw [step.1.2] at stops
      cases stops
  | headers =>
    right
    cases found : search colonSpace line with
    | none => exact .inr (.inl ⟨rfl, search_eq_none.mp found⟩)
    | some offset =>
      have same := step.1.unique (step_header state unread clear lineShort found)
      subst next
      refine .inl ⟨rfl, ?_, state, rfl⟩
      by_contra missing
      rw [search_eq_none.mpr missing] at found
      cases found
  | body => exact .inr (.inr (.inr rfl))
  | done => simp [LineStep, Loop.Step, parseLoop, state] at step

/-- Reaching the end of the request by readable lines takes a complete request. -/
theorem completes_of_chain (chain : Relation.ReflTransGen LineStep start final)
    (finished : final.request.curState = .done) (valid : start.input.Valid)
    (short : LinesShort start.input.contents) (parsing : start.request.curState ≠ .body) :
    Completes start.request.curState start.input.contents := by
  induction chain using Relation.ReflTransGen.head_induction_on with
  | refl => simp [finished, Completes]
  | @head state next step _ ih =>
    obtain ⟨input, request⟩ := state
    obtain ⟨line, rest, clear, lineShort, contents, shape⟩ := step.cases valid short
    obtain ⟨consumed, behind⟩ := valid.consume_line contents
    change LinesShort input.contents at short
    rw [contents] at short
    change Completes request.curState input.contents
    rcases shape with ⟨state, ⟨method, url, version, split⟩, after, same⟩ |
      ⟨state, colon, after, same⟩ | ⟨state, plain⟩ | state
    · have block := ih (same ▸ consumed) (by rw [same, behind]; exact short.behind) (by simp [after])
      rw [after, same, behind] at block
      rw [state, contents]
      exact .line clear lineShort split block
    · have block := ih (same ▸ consumed) (by rw [same, behind]; exact short.behind) (by simp [after])
      rw [after, same, behind] at block
      rw [state, contents]
      exact .more clear lineShort colon block
    · rw [state, contents]
      exact .last clear lineShort plain
    · exact absurd state parsing

/-- The parser deals with what has arrived exactly when that completes the request. -/
theorem parsesAvailable_iff {input : Buffer} {request : HttpRequest} (valid : input.Valid)
    (waiting : request.curState = .status ∨ request.curState = .headers) :
    (Completes request.curState input.contents → ParsesAvailable ⟨input, request⟩) ∧
      (LinesShort input.contents →
        ParsesAvailable ⟨input, request⟩ → Completes request.curState input.contents) := by
  refine ⟨Completes.parsesAvailable valid, fun short parses => ?_⟩
  obtain ⟨final, returns, chain, _⟩ := parses
  have finished : final.request.curState = .done := by
    simpa [parseLoop] using (Loop.returns_iff.mp returns).2
  refine completes_of_chain chain finished valid short ?_
  rcases waiting with state | state <;> simp [state]

theorem parsesAvailable_iff_sample :
    (Completes HttpRequest.new.curState (Buffer.holding RequestText.sample.render).contents →
        ParsesAvailable ⟨.holding RequestText.sample.render, .new⟩) ∧
      (LinesShort (Buffer.holding RequestText.sample.render).contents →
        ParsesAvailable ⟨.holding RequestText.sample.render, .new⟩ →
          Completes HttpRequest.new.curState (Buffer.holding RequestText.sample.render).contents) :=
  parsesAvailable_iff (Buffer.holding_valid _) (.inl rfl)

theorem received_unread (bytes : Bytes) :
    (Buffer.received bytes).unread =
      bytes ++ List.replicate (initBufferSize - bytes.length) 0 := rfl

/-- A first read without a carriage return leaves the parser spinning. -/
theorem not_returns_of_partial {bytes : Bytes} (partialLine : (13 : Byte) ∉ bytes) :
    ¬ parseLoop.Returns ⟨.received bytes, .new⟩ final := by
  refine not_returns_of_no_line (by simp [HttpRequest.new]) fun occurs => ?_
  have member : (13 : Byte) ∈ (Buffer.received bytes).unread := occurs.subset (by decide)
  rw [received_unread] at member
  rcases List.mem_append.mp member with early | fill
  · exact partialLine early
  · exact absurd (List.eq_of_mem_replicate fill) (by decide)

/-- The first bytes of a request line, read into a fresh buffer, are not survived. -/
theorem parses_partial_request_fails :
    Buffer.new.socketRead (some (ascii "GET /")) = .ok (5, .received (ascii "GET /")) ∧
      ¬ ParsesAvailable ⟨.received (ascii "GET /"), .new⟩ := by
  refine ⟨Buffer.new_socketRead (by decide), ?_⟩
  rintro ⟨final, returns, _⟩
  exact not_returns_of_partial (by decide) returns

end Yolanda.App
